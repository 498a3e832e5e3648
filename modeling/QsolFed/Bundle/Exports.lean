import QsolFed.Bundle.Expansion
import QsolFed.Library.Paired
import QsolFed.Store.Additions

/-!
# Exported bundles

What the registry and the store accept is what the verification of bundles accepts. A selection of
known peers and known objects that expands within the limits is therefore exported, the bundle lists
each attribution of the selected objects once, and neither the order of the selection nor the order
in which the attributions were added changes its bytes.
-/
namespace QsolFed.Bundle

open Checked Json Canonical FederationObjectStore

variable {primitives : Primitives}

/-! ## Exported peers -/

variable (primitives) in
/-- The parts of a record are short enough to be embedded. -/
structure PeerEmbeddable (record : PeerRecord) : Prop where
  /-- The document. -/
  identity : Embeddable primitives (Codecs.identity.encode record.identity)
  /-- Each lifecycle record. -/
  lifecycle : ∀ value ∈ record.lifecycle,
    Embeddable primitives (Codecs.lifecycleRecord.encode value)
  /-- The advertisement. -/
  advertisement : ∀ value ∈ record.capabilityAdvertisement,
    Embeddable primitives (Codecs.advertisement.encode value)

/-- A stored record whose parts are short has an entry. -/
theorem peerEntry_total {registry : PeerRegistry} {nodeId : String} {record : PeerRecord}
    {rebuilt : IdentityState}
    (stored : PeerRegistry.Stored primitives registry nodeId record rebuilt)
    (few : PeerEmbeddable primitives record) :
    ∃ entry, peerEntry primitives record = .ok entry := by
  have valid := stored.valid
  have parts := Peering.rebuilt_of_ok valid.identity
  have fits : writtenSize (Codecs.peerRecord.encode record) ≤ maxInputBytes := stored.fits
  have sizes := Peering.writtenSize_peerRecord record
  have identity : ∃ text, embed primitives (Codecs.identity.encode record.identity) = .ok text := by
    have shallow : (Codecs.identity.encode record.identity).nesting ≤ 1 :=
      Nat.le_of_ble_eq_true rfl
    exact embed_of_plain parts.document (shallow.trans_lt (by decide)) (by omega) few.identity
  have lifecycle : ∃ texts, record.lifecycle.mapM (fun value =>
      embed primitives (Codecs.lifecycleRecord.encode value)) = .ok texts := by
    refine (exists_mapM_ok_iff ..).mpr fun value member => ?_
    have part : writtenSize (Codecs.lifecycleRecord.encode value) ≤
        writtenSize (Codecs.lifecycleRecord.list.encode record.lifecycle) :=
      writtenSize_item (List.mem_map_of_mem member)
    exact embed_of_plain (parts.records value member)
      ((Identity.nesting_lifecycleRecord value).trans_lt (by decide)) (by omega)
      (few.lifecycle value member)
  have advertisement : ∃ text, embedOption primitives Codecs.advertisement
      record.capabilityAdvertisement = .ok text := by
    cases given : record.capabilityAdvertisement with
    | none => exact ⟨none, rfl⟩
    | some value =>
      have part : writtenSize (Codecs.advertisement.encode value) =
          writtenSize (Codecs.nullableAdvertisement.encode record.capabilityAdvertisement) := by
        rw [given]
        rfl
      have plain := (valid.advertisement value given).plain parts.names
      have shallow := (Peering.nesting_advertisement value).trans_lt (by decide : 3 < maxDepth)
      obtain ⟨text, embedded⟩ :=
        embed_of_plain plain shallow (by omega) (few.advertisement value given)
      exact ⟨some text, (map_ok_iff ..).mpr ⟨text, embedded, rfl⟩⟩
  obtain ⟨identityHex, one⟩ := identity
  obtain ⟨lifecycleHex, two⟩ := lifecycle
  obtain ⟨advertisementHex, three⟩ := advertisement
  exact ⟨_, by rw [peerEntry, one, bind_ok, two, bind_ok, three, bind_ok]; rfl⟩

/-- The entry of a valid record verifies as what the record holds. -/
theorem peerEntry_verified {record : PeerRecord} {rebuilt : IdentityState} {entry : BundlePeer}
    (valid : Peering.RecordValid primitives record rebuilt)
    (made : peerEntry primitives record = .ok entry) :
    entry.nodeId = record.nodeId ∧ PeerVerified primitives entry
      ⟨record.identity, record.lifecycle, record.capabilityAdvertisement⟩ rebuilt := by
  have parts := Peering.rebuilt_of_ok valid.identity
  simp only [peerEntry, bind_ok_iff, pure_ok_iff, mapM_ok_iff] at made
  obtain ⟨identityHex, identity, lifecycleHex, lifecycle, advertisementHex, advertisement, rfl⟩ :=
    made
  have shallow : (Codecs.identity.encode record.identity).nesting ≤ 1 := Nat.le_of_ble_eq_true rfl
  have embeds : List.Forall₂ (Embeds primitives Codecs.lifecycleRecord) lifecycleHex
      record.lifecycle := by
    have plain := parts.records
    generalize record.lifecycle = records at lifecycle plain ⊢
    induction lifecycle with
    | nil => exact .nil
    | @cons value text values texts embedded _ ih =>
      refine .cons (embeds_of_embed (plain value List.mem_cons_self)
        ((Identity.nesting_lifecycleRecord value).trans_lt (by decide)) embedded) (ih ?_)
      exact fun other member => plain other (List.mem_cons_of_mem _ member)
  refine ⟨rfl, ?_⟩
  exact {
    node := valid.isNodeId
    identity := embeds_of_embed parts.document (shallow.trans_lt (by decide)) identity
    same := valid.node.symm
    few := embeds.length_eq ▸ valid.few
    lifecycle := embeds
    rebuilt := valid.identity
    advertisement := by
      cases given : record.capabilityAdvertisement with
      | none =>
        rw [given] at advertisement
        obtain rfl : none = advertisementHex := Except.ok.inj advertisement
        exact .none
      | some value =>
        rw [given] at advertisement
        obtain ⟨text, embedded, rfl⟩ := (map_ok_iff ..).mp advertisement
        exact .some (embeds_of_embed ((valid.advertisement value given).plain parts.names)
          ((Peering.nesting_advertisement value).trans_lt (by decide)) embedded)
    signed := valid.advertisement }

/-- The entries of peers of a sound registry verify, and they are those of the selected peers. -/
theorem PeerExported.verified {registry : PeerRegistry}
    (sound : PeerRegistry.Sound primitives registry) {nodeId : String} {entry : BundlePeer}
    (exported : PeerExported primitives registry nodeId entry) :
    entry.nodeId = nodeId ∧ ∃ material state, PeerVerified primitives entry material state := by
  obtain ⟨record, found, made⟩ := exported
  obtain ⟨rebuilt, stored⟩ := sound.stored found
  obtain ⟨same, verified⟩ := peerEntry_verified stored.valid made
  exact ⟨same.trans stored.node, _, rebuilt, verified⟩

/-- The entry of a peer without lifecycle records and advertisement. -/
def documentedEntry (document : NodeIdentityDocument) (identityHex : String)
    (exported : PeerLifecycleState) : BundlePeer :=
  { nodeId := document.nodeId
    identityHex := identityHex
    lifecycleHex := []
    capabilityAdvertisementHex := none
    exportedState := exported }

/-- A short document that verifies has an entry that verifies. -/
theorem documented_verified {document : NodeIdentityDocument} {state : IdentityState}
    (rebuilt : Peering.rebuildPeerIdentity primitives document [] = .ok state)
    (short : writtenSize (Codecs.identity.encode document) * 2 ≤ maxBundleEmbeddedHexChars)
    (exported : PeerLifecycleState) : ∃ identityHex, PeerVerified primitives
      (documentedEntry document identityHex exported) ⟨document, [], none⟩ state := by
  have parts := Peering.rebuilt_of_ok rebuilt
  have nesting : (Codecs.identity.encode document).nesting ≤ 1 := Nat.le_of_ble_eq_true rfl
  have shallow : (Codecs.identity.encode document).nesting < maxDepth :=
    nesting.trans_lt (by decide)
  have small : maxBundleEmbeddedHexChars ≤ maxInputBytes := by decide
  obtain ⟨identityHex, embedded⟩ := embed_of_plain parts.document shallow (by omega)
    (embeddable_of_plain parts.document shallow short : Embeddable primitives _)
  refine ⟨identityHex, ?_⟩
  exact {
    node := parts.shape
    identity := embeds_of_embed parts.document shallow embedded
    same := rfl
    few := Nat.zero_le _
    lifecycle := .nil
    rebuilt := rebuilt
    advertisement := .none
    signed := nofun }

/-! ## Exported attributions -/

/-- The entry of a record verifies as the observation that it stands for. -/
theorem RecordExported.verified {store : FederationObjectStore} {objectRef objectHex : String}
    {entry : ForeignNamespace × ForeignObjectRecord} {object : BundleObject}
    {observation : Observation} {bytes : ByteArray}
    (supports : Supports primitives store objectRef (recordKey entry.2) observation)
    (same : entry.2.objectId = objectRef)
    (found : store.objectBytes primitives objectRef = .ok (some bytes))
    (digits : encodeHex bytes = .ok objectHex)
    (exported : RecordExported primitives store objectHex entry object) :
    ObjectVerified primitives object observation ∧
      object.provenanceId = entry.2.provenanceId := by
  obtain ⟨provenance, made, rfl⟩ := exported
  obtain ⟨source, provenanceId⟩ := AttributionKey.mk.inj supports.key
  rw [supports.object] at found
  obtain rfl := Option.some.inj (Except.ok.inj found)
  have canonical := (FederationObjectStore.requireExactCanonical_ok_iff _).mp
    supports.accepted.canonical
  have nonempty := size_of_canonical canonical
  change observation.provenanceId primitives = entry.2.provenanceId at provenanceId
  have embedded : decodeOption provenance.2 = .ok observation.provenance ∧
      provenance.1 = entry.2.provenanceId := by
    rw [← provenanceId] at made ⊢
    cases given : observation.provenance with
    | none =>
      rw [Observation.provenanceId, given] at made ⊢
      obtain rfl := Except.ok.inj made
      exact ⟨rfl, rfl⟩
    | some raw =>
      rw [Observation.provenanceId, given] at made ⊢
      simp only [Option.map_some, exportProvenance, bind_ok_iff, mapError_ok_iff, okOr_ok_iff,
        pure_ok_iff] at made
      obtain ⟨_, read, contents, rfl, text, written, rfl⟩ := made
      rw [supports.provenance raw given] at read
      obtain rfl := Option.some.inj (Except.ok.inj read)
      have checked := supports.accepted.provenance raw given
      have exact_ := (FederationObjectStore.requireExactCanonical_ok_iff _).mp
        ((checkProvenance_ok_iff ..).mp checked).1
      refine ⟨?_, rfl⟩
      rw [decodeOption, decodeHex_encodeHex (size_of_canonical exact_) written]
      rfl
  refine ⟨?_, embedded.2⟩
  exact {
    accepted := supports.accepted
    source := source
    bytes := decodeHex_encodeHex nonempty digits
    reference := supports.reference.trans same.symm
    provenance := embedded.1
    provenanceId := provenanceId.trans embedded.2.symm }

variable (primitives) in
/-- The contents of an object and of its provenance are short enough to be embedded. -/
structure ObjectEmbeddable (store : FederationObjectStore) (objectRef : String) : Prop where
  /-- The object. -/
  object : ∀ bytes, store.objectBytes primitives objectRef = .ok (some bytes) →
    bytes.size * 2 ≤ maxBundleEmbeddedHexChars
  /-- The provenance of each of its attributions. -/
  provenance : ∀ records, store.foreignRecords primitives objectRef = .ok records →
    ∀ entry ∈ records, ∀ id ∈ entry.2.provenanceId, ∀ bytes,
      store.provenanceBytes primitives id = .ok (some bytes) →
      bytes.size * 2 ≤ maxBundleEmbeddedHexChars

/-- A known object whose contents are short has entries. -/
theorem objectExported_total {store : FederationObjectStore} (sourced : Sourced primitives store)
    {objectRef : String} {records : List (ForeignNamespace × ForeignObjectRecord)}
    (listed : store.foreignRecords primitives objectRef = .ok records) (known : records ≠ [])
    (few : ObjectEmbeddable primitives store objectRef) :
    ∃ block, ObjectExported primitives store objectRef block := by
  have each : ∀ entry ∈ records, ∃ observation,
      Supports primitives store objectRef (recordKey entry.2) observation := fun entry member =>
    sourced.supported _ _ _ ((mem_foreignRecords_iff listed entry).mp member)
  obtain ⟨first, member⟩ := List.exists_mem_of_ne_nil _ known
  obtain ⟨observation, supports⟩ := each first member
  have digits : encodeHex observation.object =
      .ok (Digest.lowercaseHex observation.object.data.toList) :=
    (encodeHex_ok_iff ..).mpr ⟨few.object _ supports.object, rfl⟩
  have exported : ∀ entry ∈ records, ∃ object, RecordExported primitives store
      (Digest.lowercaseHex observation.object.data.toList) entry object := by
    intro entry member
    obtain ⟨other, held⟩ := each entry member
    have id : other.provenanceId primitives = entry.2.provenanceId :=
      (AttributionKey.mk.inj held.key).2
    have made : ∃ provenance, exportProvenance primitives store entry.2.provenanceId =
        .ok provenance := by
      cases given : other.provenance with
      | none =>
        rw [← id, Observation.provenanceId, given]
        exact ⟨_, rfl⟩
      | some raw =>
        have read := held.provenance raw given
        have identified : entry.2.provenanceId = some (Digest.sha256Ref primitives raw) := by
          rw [← id, Observation.provenanceId, given]
          rfl
        have short := few.provenance records listed entry member _ identified raw read
        rw [identified, exportProvenance, read, Except.mapError, bind_ok, okOr, bind_ok,
          (encodeHex_ok_iff ..).mpr ⟨short, rfl⟩]
        exact ⟨_, rfl⟩
    obtain ⟨provenance, made⟩ := made
    exact ⟨_, provenance, made, rfl⟩
  obtain ⟨block, exported⟩ := exists_forall₂ exported
  exact ⟨block, records, _, _, listed, known, supports.object, digits, exported⟩

variable (primitives) in
/-- An entry of a bundle is that of an attribution of a store. -/
def EntryOf (store : FederationObjectStore) (object : BundleObject) : Prop :=
  ∃ record, Attributed primitives store object.exportedNamespace object.objectId record ∧
    recordKey record = ⟨object.sourceNode, object.provenanceId⟩

/-- The entries of an object. -/
theorem ObjectExported.entries {store : FederationObjectStore} (sourced : Sourced primitives store)
    {objectRef : String} {block : List BundleObject}
    (exported : ObjectExported primitives store objectRef block) :
    (∀ object ∈ block, object.objectId = objectRef ∧ EntryOf primitives store object ∧
      ∃ observation, ObjectVerified primitives object observation) ∧
    (block.map attributionKey).Nodup ∧
    ∀ entry, Listed primitives store objectRef entry →
      ∃ object ∈ block, object.exportedNamespace = entry.1 ∧
        recordKey entry.2 = ⟨object.sourceNode, object.provenanceId⟩ := by
  obtain ⟨records, bytes, objectHex, listed, -, found, digits, each⟩ := exported
  have one : ∀ entry object, RecordExported primitives store objectHex entry object →
      entry ∈ records → object.objectId = objectRef ∧ object.exportedNamespace = entry.1 ∧
        recordKey entry.2 = ⟨object.sourceNode, object.provenanceId⟩ ∧
        ∃ observation, ObjectVerified primitives object observation := by
    intro entry object made member
    have there := (mem_foreignRecords_iff listed entry).mp member
    have same : entry.2.objectId = objectRef := by
      obtain ⟨-, name, raw, -, holds⟩ := there
      exact holds.named.2.object
    obtain ⟨observation, supports⟩ := sourced.supported _ _ _ there
    obtain ⟨verified, id⟩ := made.verified supports same found digits
    obtain ⟨provenance, -, rfl⟩ := made
    refine ⟨same, rfl, ?_, observation, verified⟩
    rw [recordKey, id]
  refine ⟨fun object member => ?_, ?_, fun entry shown => ?_⟩
  · obtain ⟨entry, here, made⟩ := forall₂_left each member
    obtain ⟨same, placed, key, verified⟩ := one entry object made here
    have there := (mem_foreignRecords_iff listed entry).mp here
    rw [← placed, ← same] at there
    exact ⟨same, ⟨entry.2, there, key⟩, verified⟩
  · have keys : records.map (fun entry => (objectRef, entry.2.sourceNode, entry.2.provenanceId)) =
        block.map attributionKey := by
      refine map_eq_of_forall₂ (forall₂_mem each) ?_
      rintro entry object ⟨here, -, made⟩
      obtain ⟨same, -, key, -⟩ := one entry object made here
      obtain ⟨source, provenance⟩ := AttributionKey.mk.inj key
      rw [attributionKey, same, source, provenance]
    rw [← keys]
    refine List.Nodup.map_on (fun first here second there equal => ?_)
      (nodup_foreignRecords listed)
    have left := (mem_foreignRecords_iff listed first).mp here
    have right := (mem_foreignRecords_iff listed second).mp there
    obtain ⟨source, provenance⟩ := Prod.mk.inj (Prod.mk.inj equal).2
    have key : recordKey first.2 = recordKey second.2 := by
      rw [recordKey, recordKey, source, provenance]
    obtain ⟨placement, record⟩ := sourced.orderly.unique left right key
    exact Prod.ext placement record
  · obtain ⟨others, again, member⟩ := shown
    obtain rfl := Except.ok.inj (listed.symm.trans again)
    obtain ⟨object, here, made⟩ := forall₂_right each member
    obtain ⟨-, placed, key, -⟩ := one entry object made member
    exact ⟨object, here, placed, key⟩

end QsolFed.Bundle
