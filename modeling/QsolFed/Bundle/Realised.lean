import QsolFed.Bundle.Resume
import QsolFed.Bundle.Spelling
import QsolFed.Store.Additions

/-!
# Imports into an empty node

A verified bundle is imported into a node that knows nothing. Afterwards the node knows the peers
and the attributions of the bundle and no others. The data of the peers is written as the bundle
embeds it exactly when the bundle spells it as it is written.
-/
namespace QsolFed.Bundle

open Checked Json Canonical Peering PeerRegistry FederationObjectStore

variable {primitives : Primitives}

/-! ## Peers -/

/-- Peers that are not known are imported. -/
theorem importPeers_new {importedAt : String} (received : validTimestamp importedAt = true) :
    ∀ {peers : List BundlePeer}, (peers.map BundlePeer.nodeId).Nodup →
      (∀ peer ∈ peers, ∃ material state fingerprint,
        Ready primitives peer material state fingerprint) →
      ∀ {node : Federation},
        (∀ peer ∈ peers, node.peers.get primitives peer.nodeId = .ok none) →
        ∃ results final, (Effect.forEach (importPeer primitives importedAt) peers).run node =
            (.ok results, final) ∧ final.store = node.store ∧
          ∀ peer ∈ peers, ∃ material state fingerprint,
            Ready primitives peer material state fingerprint ∧
            final.peers.get primitives peer.nodeId =
              .ok (some (importedRecord material importedAt fingerprint state.sequence))
  | [], _, _, node, _ => ⟨[], node, rfl, rfl, List.forall_mem_nil _⟩
  | head :: rest, distinct, ready, node, unknown => by
    obtain ⟨apart, distinct⟩ := List.nodup_cons.mp distinct
    have later : ∀ peer ∈ rest, ∃ material state fingerprint,
        Ready primitives peer material state fingerprint :=
      fun peer member => ready peer (List.mem_cons_of_mem _ member)
    obtain ⟨material, state, fingerprint, here⟩ := ready head List.mem_cons_self
    obtain ⟨one, two, three, steps⟩ := here.2.steps received node.peers
    have new : node.peers.get primitives material.identity.nodeId = .ok none := by
      rw [here.1.same]
      exact unknown head List.mem_cons_self
    have ran : (importPeer primitives importedAt head).run node =
        (.ok ⟨⟩, node.withPeers three) := by
      rw [here.run, (steps.runs here.2 received new).1]
      rfl
    have others : ∀ peer ∈ rest,
        (node.withPeers three).peers.get primitives peer.nodeId = .ok none := by
      intro peer member
      have different : peer.nodeId ≠ material.identity.nodeId := by
        rw [here.1.same]
        exact fun same => apart (same ▸ List.mem_map_of_mem member)
      exact (steps.get_of_ne different).trans (unknown peer (List.mem_cons_of_mem _ member))
    obtain ⟨results, final, more, store, each⟩ := importPeers_new received distinct later others
    refine ⟨⟨⟩ :: results, final, (Effect.run_forEach_cons_ok_iff ..).mpr
      ⟨⟨⟩, _, results, ran, more, rfl⟩, store, fun peer member => ?_⟩
    rcases List.mem_cons.mp member with rfl | member
    · have left := (leads_importPeers later received apart (node.withPeers three)).2
      rw [more] at left
      refine ⟨material, state, fingerprint, here, left.trans ?_⟩
      rw [← here.1.same]
      exact steps.get_self
    · exact each peer member

/-- The record of an imported peer has its data, and is quarantined. -/
theorem importedRecord_data (material : Material) (importedAt fingerprint : String)
    (sequence : UInt64) :
    (importedRecord material importedAt fingerprint sequence).state = .quarantined ∧
      (importedRecord material importedAt fingerprint sequence).identity = material.identity ∧
      (importedRecord material importedAt fingerprint sequence).lifecycle = material.lifecycle ∧
      (importedRecord material importedAt fingerprint sequence).capabilityAdvertisement =
        material.advertisement := by
  rw [importedRecord]
  cases given : material.advertisement with
  | none => exact ⟨rfl, rfl, rfl, rfl⟩
  | some advertisement => exact ⟨rfl, rfl, rfl, rfl⟩

/-! ## Attributions -/

/-- What is added of observations by an import. -/
def additionsOf (importedAt : String) (observations : List Observation) : List Addition :=
  observations.map fun observation => ⟨observation, .quarantine, importedAt⟩

/-- Attributions are imported by adding them to the store. -/
theorem importObjects_addAll {importedAt : String} {objects : List BundleObject}
    {observations : List Observation}
    (verified : List.Forall₂ (ObjectVerified primitives) objects observations) :
    ∀ {node final : Federation} {results : List PUnit},
      (Effect.forEach (importObject primitives importedAt) objects).run node =
        (.ok results, final) →
      ∃ records, (addAll primitives (additionsOf importedAt observations)).run node.store =
        (.ok records, final.store) := by
  induction verified with
  | nil =>
    intro node final results ran
    obtain ⟨-, rfl⟩ := Prod.mk.inj ran
    exact ⟨[], rfl⟩
  | @cons object observation objects observations here _ ih =>
    intro node final results ran
    obtain ⟨first, middle, others, one, more, -⟩ := (Effect.run_forEach_cons_ok_iff ..).mp ran
    rw [here.run] at one
    obtain ⟨succeeded, rfl⟩ := Prod.mk.inj one
    obtain ⟨record, put, -⟩ := (map_ok_iff ..).mp succeeded
    have added := (mapError_ok_iff ..).mp put
    obtain ⟨records, rest⟩ := ih more
    exact ⟨record :: records, (Effect.run_forEach_cons_ok_iff ..).mpr
      ⟨record, _, records, Prod.ext added rfl, rest, rfl⟩⟩

/-- The bytes that the digests of the attributions of a bundle are taken of. -/
def BundleDigested (primitives : Primitives) (bundle : PortableFederationBundle) :
    Set ByteArray :=
  {bytes | ∃ object ∈ bundle.objects, ∃ observation,
    ObjectVerified primitives object observation ∧
      (bytes ∈ observation.object :: observation.provenance.toList ∨
        bytes = keyBytes primitives (observation.key primitives))}

/-- A store holds the attributions of a bundle, in quarantine, with their contents, and no
others. -/
structure StoreRealises (primitives : Primitives) (bundle : PortableFederationBundle)
    (store : FederationObjectStore) : Prop where
  /-- The attributions of every object are those of the bundle. -/
  attributions : ∀ objectRef, Wire.isSha256Ref objectRef = true → ∃ records,
    store.foreignRecords primitives objectRef = .ok records ∧
      (records.map fun entry => (entry.1, recordKey entry.2)).Perm
        ((bundle.objects.filter fun object => object.objectId = objectRef).map fun object =>
          (.quarantine, ⟨object.sourceNode, object.provenanceId⟩))
  /-- The objects are those of the bundle. -/
  objects : ∀ object ∈ bundle.objects, ∃ bytes, decodeHex object.objectHex = .ok bytes ∧
    store.objectBytes primitives object.objectId = .ok (some bytes)
  /-- There are no other objects. -/
  noObjects : ∀ objectRef, Wire.isSha256Ref objectRef = true →
    (∀ object ∈ bundle.objects, object.objectId ≠ objectRef) →
      store.objectBytes primitives objectRef = .ok none
  /-- The provenances are those of the bundle. -/
  provenances : ∀ object ∈ bundle.objects, ∀ encoded ∈ object.provenanceHex, ∃ id bytes,
    object.provenanceId = some id ∧ decodeHex encoded = .ok bytes ∧
      store.provenanceBytes primitives id = .ok (some bytes)
  /-- There are no other provenances. -/
  noProvenances : ∀ id, Wire.isSha256Ref id = true →
    (∀ object ∈ bundle.objects, object.provenanceId ≠ some id) →
      store.provenanceBytes primitives id = .ok none

/-- A reference without a file has no contents. -/
theorem readContentAddressed_none {store : FederationObjectStore} {directory : Directory}
    {reference : String} (shape : Wire.isSha256Ref reference = true)
    (absent : store.file? directory (fileOf ".json" reference) = none) :
    store.readContentAddressed primitives directory reference = .ok none := by
  have named := (contentName_ok_iff ..).mpr (named_fileOf ".json" shape)
  rw [readContentAddressed, named, bind_ok, absent]
  rfl

/-- The import of the attributions of a verified bundle into a store without objects realises
them. -/
theorem storeRealises {raw : ByteArray} {bundle : PortableFederationBundle}
    (verified : BundleVerified primitives raw bundle)
    (injective : Set.InjOn (Digest.sha256Ref primitives) (BundleDigested primitives bundle))
    {importedAt : String} {node final : Federation} (void : node.store = FederationObjectStore.empty)
    {results : List PUnit}
    (ran : (Effect.forEach (importObject primitives importedAt) bundle.objects).run node =
      (.ok results, final)) : StoreRealises primitives bundle final.store := by
  obtain ⟨observations, related⟩ := exists_forall₂ verified.objects
  obtain ⟨records, added⟩ := @importObjects_addAll _ importedAt _ _ related _ _ _ ran
  rw [void] at added
  have start : Kept primitives [] FederationObjectStore.empty := kept_of_run .nil
  have sourced := (start.addAll added).sourced
  obtain ⟨-, -, held⟩ := shown_of_importObjects verified.objects ran
  have placed : (additionsOf importedAt observations).map Addition.placed =
      observations.map fun observation => (observation, ForeignNamespace.quarantine) := by
    rw [additionsOf, List.map_map]
    rfl
  have none_ : ∀ placement objectRef key,
      Shows primitives FederationObjectStore.empty placement objectRef key ↔
        Added primitives [] placement objectRef key := by
    intro placement objectRef key
    constructor
    · rintro ⟨record, ⟨-, name, raw, stored, -⟩, -⟩
      cases placement <;> cases stored
    · rintro ⟨addition, member, -⟩
      cases member
  have digested : Digested primitives
      ([] ++ (additionsOf importedAt observations).map Addition.placed) ⊆
        BundleDigested primitives bundle := by
    rw [placed, List.nil_append]
    rintro bytes ⟨addition, member, content⟩
    obtain ⟨observation, listed, rfl⟩ := List.mem_map.mp member
    obtain ⟨object, inside, here⟩ := forall₂_left related listed
    exact ⟨object, inside, observation, here, content⟩
  have shown := shows_addAll start.orderly none_ (injective.mono digested)
    (by
      rw [placed, List.nil_append]
      intro one first two second _
      obtain ⟨_, _, rfl⟩ := List.mem_map.mp first
      obtain ⟨_, _, rfl⟩ := List.mem_map.mp second
      rfl) added
  have listed : ∀ placement objectRef key, Shows primitives final.store placement objectRef key ↔
      ∃ object ∈ bundle.objects, object.objectId = objectRef ∧ placement = .quarantine ∧
        key = ⟨object.sourceNode, object.provenanceId⟩ := by
    intro placement objectRef key
    rw [shown, placed, List.nil_append]
    constructor
    · rintro ⟨addition, member, rfl, rfl, rfl⟩
      obtain ⟨observation, inside, rfl⟩ := List.mem_map.mp member
      obtain ⟨object, there, here⟩ := forall₂_left related inside
      refine ⟨object, there, here.reference.symm, rfl, ?_⟩
      rw [← here.source, ← here.provenanceId]
      rfl
    · rintro ⟨object, member, rfl, rfl, rfl⟩
      obtain ⟨observation, inside, here⟩ := forall₂_right related member
      refine ⟨(observation, .quarantine), List.mem_map_of_mem inside, rfl, here.reference, ?_⟩
      rw [← here.source, ← here.provenanceId]
      rfl
  have contents : ∀ {directory : Directory}, directory = .objects ∨ directory = .provenance →
      ∀ {reference : String}, Wire.isSha256Ref reference = true →
      (∀ observation ∈ observations,
        ¬ContentFile primitives observation directory (fileOf ".json" reference)) →
      final.store.readContentAddressed primitives directory reference = .ok none := by
    intro directory among reference shape others
    refine readContentAddressed_none shape ?_
    rcases contents_addAll added among (lasting_fileOf ".json" shape) with same | ⟨_, member, file⟩
    · rw [same]
      rcases among with rfl | rfl <;> rfl
    · obtain ⟨observation, inside, rfl⟩ := List.mem_map.mp member
      exact absurd file (others observation inside)
  constructor
  · intro objectRef shape
    obtain ⟨records, read⟩ := sourced.orderly.listed shape
    refine ⟨records, read, (List.perm_ext_iff_of_nodup ?_ ?_).mpr fun entry => ?_⟩
    · refine List.Nodup.map_on (fun one first two second same => ?_) (nodup_foreignRecords read)
      obtain ⟨placement, key⟩ := Prod.mk.inj same
      have same := (sourced.orderly.unique ((mem_foreignRecords_iff read one).mp first)
        ((mem_foreignRecords_iff read two).mp second) key).2
      exact Prod.ext placement same
    · refine List.Nodup.map_on (fun one first two second same => ?_)
        (verified.distinctObjects.of_map.filter _)
      obtain ⟨inside, is⟩ := List.mem_filter.mp first
      obtain ⟨other, also⟩ := List.mem_filter.mp second
      obtain ⟨source, provenance⟩ := AttributionKey.mk.inj (Prod.mk.inj same).2
      refine List.inj_on_of_nodup_map verified.distinctObjects inside other ?_
      rw [attributionKey, attributionKey, source, provenance, of_decide_eq_true is,
        of_decide_eq_true also]
    · obtain ⟨placement, key⟩ := entry
      have shows_ : (placement, key) ∈ records.map (fun entry => (entry.1, recordKey entry.2)) ↔
          Shows primitives final.store placement objectRef key := by
        rw [List.mem_map]
        constructor
        · rintro ⟨entry, member, same⟩
          obtain ⟨rfl, rfl⟩ := Prod.mk.inj same
          exact ⟨entry.2, (mem_foreignRecords_iff read entry).mp member, rfl⟩
        · rintro ⟨record, there, rfl⟩
          exact ⟨(placement, record), (mem_foreignRecords_iff read _).mpr there, rfl⟩
      rw [shows_, listed]
      simp only [List.mem_map, List.mem_filter, decide_eq_true_eq, Prod.mk.injEq, and_assoc]
      exact exists_congr fun object => and_congr_right fun _ => and_congr_right fun _ =>
        and_congr eq_comm eq_comm
  · intro object member
    obtain ⟨observation, record, found, here⟩ := held object member
    refine ⟨observation.object, found.bytes, ?_⟩
    rw [← found.reference]
    exact readContentAddressed_of_file found.accepted.canonical here.object
  · intro objectRef shape others
    refine contents (.inl rfl) shape fun observation inside file => ?_
    obtain ⟨object, member, here⟩ := forall₂_left related inside
    rcases file with ⟨-, same⟩ | ⟨other, -⟩
    · refine others object member ?_
      rw [← here.reference]
      exact (fileOf_inj shape (observation.reference_shape primitives) same).symm
    · cases other
  · intro object member encoded given
    obtain ⟨observation, record, found, here⟩ := held object member
    have decoded := found.provenance
    rw [Option.mem_def.mp given] at decoded
    obtain ⟨raw, bytes, present⟩ := (map_ok_iff ..).mp decoded
    have canonical := ((checkProvenance_ok_iff ..).mp
      (found.accepted.provenance raw present.symm)).1
    refine ⟨Digest.sha256Ref primitives raw, raw, ?_, bytes, ?_⟩
    · rw [← found.provenanceId, Observation.provenanceId, ← present]
      rfl
    · exact readContentAddressed_of_file canonical (here.provenance raw present.symm)
  · intro id shape others
    refine contents (.inr rfl) shape fun observation inside file => ?_
    obtain ⟨object, member, here⟩ := forall₂_left related inside
    rcases file with ⟨other, -⟩ | ⟨-, raw, present, same⟩
    · cases other
    · refine others object member ?_
      rw [← here.provenanceId, Observation.provenanceId, Option.mem_def.mp present,
        fileOf_inj shape (isSha256Ref_digest primitives raw) same]
      rfl

/-- Attributions of a bundle agree when their digests do not collide. -/
theorem agree_of_injective {bundle : PortableFederationBundle}
    (injective : Set.InjOn (Digest.sha256Ref primitives) (BundleDigested primitives bundle))
    {one two : BundleObject} (first : one ∈ bundle.objects) (second : two ∈ bundle.objects)
    {left right : Observation} (here : ObjectVerified primitives one left)
    (there : ObjectVerified primitives two right) : Agree primitives left right where
  object same := injective ⟨one, first, left, here, .inl List.mem_cons_self⟩
    ⟨two, second, right, there, .inl List.mem_cons_self⟩ same
  provenance _ present _ given same := injective
    ⟨one, first, left, here, .inl (List.mem_cons_of_mem _ (Option.mem_toList.mpr present))⟩
    ⟨two, second, right, there, .inl (List.mem_cons_of_mem _ (Option.mem_toList.mpr given))⟩ same

/-- What is accepted fits into a store without objects. -/
theorem fits_empty (observation : Observation) :
    Fits primitives observation FederationObjectStore.empty := by
  have absent : FederationObjectStore.empty.findRecord primitives
      (observation.reference primitives) (observation.attribution primitives) = .ok none :=
    (findRecord_none_iff _ (observation.reference_shape _)
      (observation.attribution_shape _)).mpr fun other => by cases other <;> rfl
  exact ⟨fun _ stored => (by cases stored), fun _ _ _ stored => (by cases stored), none, absent⟩

/-- The registry has a peer of a bundle, quarantined, and its data is written as it is embedded. -/
def StoredExactly (primitives : Primitives) (peer : BundlePeer) (registry : PeerRegistry) : Prop :=
  ∃ record, registry.get primitives peer.nodeId = .ok (some record) ∧
    record.state = .quarantined ∧
    PeerRewritten primitives peer
      ⟨record.identity, record.lifecycle, record.capabilityAdvertisement⟩

/-- What is stored of an imported peer is written as it is embedded exactly when it is spelled as it
is written. -/
theorem Ready.storedExactly_iff {peer : BundlePeer} {material : Material} {state : IdentityState}
    {fingerprint importedAt : String} (ready : Ready primitives peer material state fingerprint)
    {registry : PeerRegistry} (found : registry.get primitives peer.nodeId =
      .ok (some (importedRecord material importedAt fingerprint state.sequence))) :
    StoredExactly primitives peer registry ↔ PeerSpelled peer := by
  obtain ⟨quarantined, identity, lifecycle, advertisement⟩ :=
    importedRecord_data material importedAt fingerprint state.sequence
  rw [← ready.1.rewritten_iff ready.2]
  constructor
  · rintro ⟨record, there, -, rewritten⟩
    rw [found] at there
    obtain rfl := Option.some.inj (Except.ok.inj there)
    rwa [identity, lifecycle, advertisement] at rewritten
  · intro rewritten
    refine ⟨_, found, quarantined, ?_⟩
    rwa [identity, lifecycle, advertisement]

/-- A verified bundle is imported into a node that knows nothing: each peer gets its record, there
are no other peers, and the attributions are realised. -/
theorem BundleVerified.realised {raw : ByteArray} {bundle : PortableFederationBundle}
    (verified : BundleVerified primitives raw bundle) {importedAt : String}
    (received : validTimestamp importedAt = true)
    (injective : Set.InjOn (Digest.sha256Ref primitives) (BundleDigested primitives bundle)) :
    ∃ final, (importBundle primitives raw importedAt).run emptyNode =
        (.ok (receiptOf primitives raw bundle), final) ∧
      (∀ peer ∈ bundle.peers, ∃ material state fingerprint,
        Ready primitives peer material state fingerprint ∧
        final.peers.get primitives peer.nodeId =
          .ok (some (importedRecord material importedAt fingerprint state.sequence))) ∧
      (∀ nodeId record, final.peers.get primitives nodeId = .ok (some record) →
        ∃ peer ∈ bundle.peers, peer.nodeId = nodeId) ∧
      StoreRealises primitives bundle final.store := by
  have unknown : ∀ peer ∈ bundle.peers,
      emptyNode.peers.get primitives peer.nodeId = .ok none := by
    intro peer member
    obtain ⟨_, _, found⟩ := verified.peers peer member
    exact get_empty found.node
  obtain ⟨results, middle, peers, store, each⟩ :=
    importPeers_new received verified.distinctPeers verified.ready unknown
  have fits : ∀ object ∈ bundle.objects, ∃ observation,
      ObjectVerified primitives object observation ∧
        Fits primitives observation middle.store := by
    intro object member
    obtain ⟨observation, found⟩ := verified.objects object member
    rw [store]
    exact ⟨observation, found, fits_empty observation⟩
  obtain ⟨outcomes, final, objects⟩ := importObjects_of_fits received fits
    fun one first two second left right here there =>
      agree_of_injective injective first second here there
  obtain ⟨kept, -, -⟩ := shown_of_importObjects verified.objects objects
  have run : (importBundle primitives raw importedAt).run emptyNode =
      (.ok (receiptOf primitives raw bundle), final) := by
    rw [importBundle_verified verified received]
    refine (Effect.run_bind_ok_iff ..).mpr ⟨⟨⟩, final, ?_, rfl⟩
    exact (Effect.run_bind_ok_iff ..).mpr ⟨_, middle, peers,
      (Effect.run_bind_ok_iff ..).mpr ⟨_, final, objects, rfl⟩⟩
  refine ⟨final, run, kept ▸ each, fun nodeId record found => ?_,
    storeRealises verified injective store objects⟩
  by_contra other
  have apart : nodeId ∉ bundle.peers.map BundlePeer.nodeId := fun listed =>
    other (List.mem_map.mp listed)
  have left := (leads_importPeers verified.ready received apart emptyNode).2
  rw [peers, ← kept, found] at left
  have read := left.symm
  rw [PeerRegistry.get, bind_ok_iff] at read
  obtain ⟨path, named, -⟩ := read
  have none_ : emptyNode.peers.get primitives nodeId = .ok none :=
    get_empty ((peerPath_ok_iff ..).mp named).1
  rw [none_] at left
  cases left

/-- A verified bundle is imported into a node that knows nothing. The node then knows the peers of
the bundle, which are quarantined, and no others, and its store holds the attributions of the bundle
and no others. What is written of the peers is what the bundle embeds exactly when the bundle spells
their data as it is written. -/
theorem import_realises_iff (primitives : Primitives) {raw : ByteArray}
    {bundle : PortableFederationBundle} (verified : BundleVerified primitives raw bundle)
    {importedAt : String} (received : validTimestamp importedAt = true)
    (injective : Set.InjOn (Digest.sha256Ref primitives) (BundleDigested primitives bundle)) :
    ∃ receipt final, (importBundle primitives raw importedAt).run emptyNode =
        (.ok receipt, final) ∧
      (∀ peer ∈ bundle.peers, ∃ record,
        final.peers.get primitives peer.nodeId = .ok (some record) ∧
          record.state = .quarantined) ∧
      (∀ nodeId record, final.peers.get primitives nodeId = .ok (some record) →
        ∃ peer ∈ bundle.peers, peer.nodeId = nodeId) ∧
      StoreRealises primitives bundle final.store ∧
      ((∀ peer ∈ bundle.peers, StoredExactly primitives peer final.peers) ↔
        ∀ peer ∈ bundle.peers, PeerSpelled peer) := by
  obtain ⟨final, run, each, others, realised⟩ := verified.realised received injective
  refine ⟨_, final, run, fun peer member => ?_, others, realised, ?_⟩
  · obtain ⟨material, state, fingerprint, -, found⟩ := each peer member
    exact ⟨_, found, (importedRecord_data ..).1⟩
  · refine forall₂_congr fun peer member => ?_
    obtain ⟨material, state, fingerprint, ready, found⟩ := each peer member
    exact ready.storedExactly_iff found

/-- The fields of the recorded document. -/
def listedFields : List String :=
  [Identity.recordedDocument.schema, Identity.recordedDocument.nodeId, "ed25519",
    Identity.recordedDocument.rootKeyId, Identity.recordedDocument.rootPublicKey,
    Identity.recordedDocument.operationalKeyId, Identity.recordedDocument.operationalPublicKey,
    Identity.recordedDocument.createdAt, Identity.recordedDocument.rootSignature]

/-- The recorded document as the list of its fields. -/
def listedDocument : Node := .array (listedFields.map .string)

/-- Clean texts are normal items. -/
theorem normalItems_texts {unicode : Unicode} {texts : List String}
    (clean : ∀ text ∈ texts, Node.Clean unicode text) :
    Node.NormalItems unicode (texts.map .string) := by
  induction texts with
  | nil => trivial
  | cons text rest ih =>
    obtain ⟨here, later⟩ := List.forall_mem_cons.mp clean
    exact ⟨here, ih later⟩

/-- The list of the fields is embedded as the recorded document. -/
theorem listedDocument_embeds : ∃ encoded,
    Embeds peerPrimitives Codecs.identity encoded Identity.recordedDocument ∧
      decodeHex encoded = .ok (writtenBytes listedDocument.toJson) := by
  have checked : listedFields.all isPlainText = true := by decide +kernel
  have normal : listedDocument.Normal peerPrimitives.unicode :=
    ⟨Nat.le_of_ble_eq_true rfl, normalItems_texts fun text member =>
      (plainText_of_check (List.all_eq_true.mp checked text member)).clean _⟩
  have height : listedDocument.height ≤ maxDepth := Nat.le_of_ble_eq_true rfl
  have short : (writtenBytes listedDocument.toJson).size * 2 ≤ maxBundleEmbeddedHexChars := by
    have same : (writtenBytes listedDocument.toJson).size =
        writtenSize listedDocument.toJson := rfl
    rw [same, writtenSize_eq]
    decide +kernel
  have limit : maxBundleEmbeddedHexChars ≤ maxInputBytes := by decide
  have canonical := canonicalize_normal normal height (by omega)
  have read : fromSlice Codecs.identity (writtenBytes listedDocument.toJson) =
      some Identity.recordedDocument := by
    rw [fromSlice_node Codecs.identity height]
    rfl
  have decoded := decodeHex_encodeHex (size_of_canonical canonical)
    ((encodeHex_ok_iff ..).mpr ⟨short, rfl⟩)
  exact ⟨_, ⟨_, decoded, (requireExactCanonical_ok_iff _).mpr canonical, read⟩, decoded⟩

/-- A bundle of a peer without attributions has nothing that collides. -/
theorem injective_peers {exporterNode createdAt : String} (peers : List BundlePeer) :
    Set.InjOn (Digest.sha256Ref primitives)
      (BundleDigested primitives (assembled exporterNode createdAt peers [])) := by
  rintro bytes ⟨object, member, -⟩
  have none_ : (assembled exporterNode createdAt peers []).objects = [] :=
    sortBy_of_pairwise _ .nil
  rw [none_] at member
  cases member

/-- A bundle that spells a document as the list of its fields is imported, and the document is
written otherwise. -/
theorem listed_document_rewritten : ∃ raw bundle receipt final,
    BundleVerified peerPrimitives raw bundle ∧
    (importBundle peerPrimitives raw "2026-08-24T00:00:00Z").run emptyNode =
      (.ok receipt, final) ∧
    ∃ peer ∈ bundle.peers, ¬StoredExactly peerPrimitives peer final.peers := by
  obtain ⟨encoded, embeds, decoded⟩ := listedDocument_embeds
  have verified : PeerVerified peerPrimitives
      (documentedEntry Identity.recordedDocument encoded .introduced)
      ⟨Identity.recordedDocument, [], none⟩ _ :=
    { node := (rebuilt_of_ok peerIdentity_rebuilt).shape
      identity := embeds
      same := rfl
      few := Nat.zero_le _
      lifecycle := .nil
      rebuilt := peerIdentity_rebuilt
      advertisement := .none
      signed := fun _ given => by cases given }
  have entry : ∀ peer ∈ [documentedEntry Identity.recordedDocument encoded .introduced],
      (∃ material state, PeerVerified peerPrimitives peer material state) ∧
        writtenSize (Codecs.bundlePeer.encode peer) ≤ 8448 := by
    intro peer member
    obtain rfl := List.mem_singleton.mp member
    exact ⟨⟨_, _, verified⟩, documented_size verified⟩
  have distinct : ([documentedEntry Identity.recordedDocument encoded .introduced].map
      BundlePeer.nodeId).Nodup := List.nodup_singleton _
  obtain ⟨raw, bundle⟩ := entries_bundle (Nat.le_of_ble_eq_true rfl) distinct
    (fun peer member => (entry peer member).1) (fun peer member => (entry peer member).2)
    (show Wire.isNodeId "fed:qsol:remote" = true by decide)
    (show validTimestamp "2026-08-23T00:03:00Z" = true by decide)
  obtain ⟨final, run, each, -, -⟩ := bundle.realised
    (show validTimestamp "2026-08-24T00:00:00Z" = true by decide) (injective_peers _)
  have listed : documentedEntry Identity.recordedDocument encoded .introduced ∈
      (assembled "fed:qsol:remote" "2026-08-23T00:03:00Z"
        [documentedEntry Identity.recordedDocument encoded .introduced] []).peers := by
    rw [show (assembled _ _ [documentedEntry Identity.recordedDocument encoded .introduced]
      []).peers = [_] from sortBy_of_pairwise _ (List.pairwise_singleton _ _)]
    exact List.mem_cons_self
  refine ⟨raw, _, _, final, bundle, run, _, listed, ?_⟩
  obtain ⟨material, state, fingerprint, ready, found⟩ := each _ listed
  have height : listedDocument.height ≤ maxDepth := Nat.le_of_ble_eq_true rfl
  rw [ready.storedExactly_iff found]
  intro spelled
  obtain ⟨members, isObject, -⟩ := (spells_iff decoded height).mp spelled.identity
  cases isObject

/-- The recorded peer is imported into an empty node. -/
theorem recorded_realised : ∃ raw bundle, bundle.peers ≠ [] ∧ ∃ receipt final,
    (importBundle peerPrimitives raw "2026-08-24T00:00:00Z").run emptyNode =
      (.ok receipt, final) ∧
    StoreRealises peerPrimitives bundle final.store ∧
      ((∀ peer ∈ bundle.peers, StoredExactly peerPrimitives peer final.peers) ↔
        ∀ peer ∈ bundle.peers, PeerSpelled peer) := by
  obtain ⟨raw, peer, state, -, verified⟩ := recorded_bundle
  obtain ⟨receipt, final, run, -, -, realised, spelled⟩ := import_realises_iff peerPrimitives
    verified (show validTimestamp "2026-08-24T00:00:00Z" = true by decide) (injective_peers _)
  refine ⟨raw, _, ?_, receipt, final, run, realised, spelled⟩
  rw [show (assembled _ _ [peer] []).peers = [_] from
    sortBy_of_pairwise _ (List.pairwise_singleton _ _)]
  exact List.cons_ne_nil _ _

end QsolFed.Bundle
