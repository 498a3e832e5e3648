import QsolFed.Bundle.Exports

/-!
# Bundles of selections

The entries of a selection are sorted before they are written. Their keys tell them apart, so that
the bytes of a bundle depend on the selected peers and attributions only: not on the order of the
selection, and not on how a store came to hold the attributions.
-/
namespace QsolFed.Bundle

open Checked Json Canonical FederationObjectStore

variable {primitives : Primitives}

/-! ## Assembly -/

/-- The bundle of entries. -/
def assembled (exporterNode createdAt : String) (peers : List BundlePeer)
    (objects : List BundleObject) : PortableFederationBundle :=
  { schema := federationBundleSchemaV1
    protocol := protocolV1
    exporterNode := exporterNode
    createdAt := createdAt
    peers := sortBy BundlePeer.nodeId peers
    objects := sortBy objectOrder objects
    authority := "none" }

variable (primitives) in
/-- A selection expands to entries: one for each peer, and one for each attribution of each
object. -/
structure Expands (store : FederationObjectStore) (registry : PeerRegistry)
    (peerIds objectIds : List String) (peers : List BundlePeer) (objects : List BundleObject) :
    Prop where
  /-- Each peer has its entry. -/
  peers : List.Forall₂ (PeerExported primitives registry) peerIds peers
  /-- Each object has its entries. -/
  objects : ∃ blocks, List.Forall₂ (ObjectExported primitives store) objectIds blocks ∧
    objects = blocks.flatten

/-- A bundle is exported when the selection expands within the limits, and the bundle of its entries
verifies. -/
theorem exportBundle_ok_iff (store : FederationObjectStore) (registry : PeerRegistry)
    (exporterNode createdAt : String) (peerIds objectIds : List String) (bytes : ByteArray) :
    exportBundle primitives store registry exporterNode createdAt peerIds objectIds = .ok bytes ↔
      (Wire.isNodeId exporterNode = true ∧ validTimestamp createdAt = true) ∧
      (peerIds.length ≤ maxBundlePeers ∧ objectIds.length ≤ maxBundleObjects) ∧
      peerIds.Nodup ∧ objectIds.Nodup ∧
      ∃ peers objects, Expands primitives store registry peerIds objectIds peers objects ∧
        objects.length ≤ maxBundleObjects ∧
        canonicalStruct primitives (Codecs.bundle.encode
          (assembled exporterNode createdAt peers objects)) = .ok bytes ∧
        bytes.size ≤ maxBundleBytes ∧ ∃ report, verifyBundle primitives bytes = .ok report := by
  have few : ([] : List BundleObject).length ≤ maxBundleObjects := Nat.zero_le _
  simp only [exportBundle, bind_ok_iff, ensure_ok_iff, exists_const, pure_ok_iff,
    exportPeers_ok_iff, exportObjects_ok_iff _ _ _ _ _ few, List.nil_append]
  constructor
  · rintro ⟨given, counts, peers, ⟨distinct, -, eachPeer⟩, objects, ⟨apart, -, blocks, eachObject,
      rfl, total⟩, _, encoded, short, report, verified, rfl⟩
    exact ⟨given, counts, distinct, apart, peers, _, ⟨eachPeer, blocks, eachObject, rfl⟩, total,
      encoded, short, report, verified⟩
  · rintro ⟨given, counts, distinct, apart, peers, _, ⟨eachPeer, blocks, eachObject, rfl⟩, total,
      encoded, short, report, verified⟩
    exact ⟨given, counts, peers, ⟨distinct, fun _ _ => List.not_mem_nil, eachPeer⟩, _, ⟨apart, fun _ _ => List.not_mem_nil, blocks, eachObject,
      rfl, total⟩, bytes, encoded, short, report, verified, rfl⟩

/-! ## Plain entries -/

/-- Embedded digits are plain. -/
theorem plainText_of_decodeHex {value : String} {bytes : ByteArray}
    (decoded : decodeHex value = .ok bytes) : PlainText value := by
  obtain ⟨⟨-, short, -, hex⟩, -⟩ := (decodeHex_ok_iff ..).mp decoded
  exact plainText_of_bytes (fun b member => (Wire.visible_lowerHex (hex b member)).2) short

/-- Embedded data is plain text. -/
theorem Embeds.plainText {α : Type} {codec : Codec α} {value : String} {data : α}
    (embeds : Embeds primitives codec value data) : PlainText value := by
  obtain ⟨bytes, decoded, -, -⟩ := embeds
  exact plainText_of_decodeHex decoded

/-- A verified peer is plain. -/
theorem PeerVerified.plain {peer : BundlePeer} {material : Material} {state : IdentityState}
    (verified : PeerVerified primitives peer material state) :
    Plain (Codecs.bundlePeer.encode peer) := by
  have lifecycle : Plain (Codec.string.list.encode peer.lifecycleHex) := by
    refine plain_list _ _ (verified.few.trans (by decide)) fun text member => ?_
    obtain ⟨record, -, embeds⟩ := forall₂_right verified.lifecycle member
    exact embeds.plainText
  have advertisement : Plain (Codecs.nullableString.encode peer.capabilityAdvertisementHex) := by
    refine plain_nullable fun text present => ?_
    have related := verified.advertisement
    rw [Option.mem_def.mp present] at related
    generalize material.advertisement = advertisement at related
    cases related with
    | some embeds => exact embeds.plainText
  have state : Plain (Codecs.peerState.encode peer.exportedState) := by
    cases peer.exportedState <;> exact plainText_of_check (by decide)
  refine plain_record Codecs.bundlePeerFields (by decide) _ (by decide) (by decide) ?_
  simp only [Codecs.bundlePeerFields, Fields.required, Fields.cons, Fields.nil, List.map_cons,
    List.map_nil, List.forall_mem_cons, List.not_mem_nil, false_imp_iff, implies_true, and_true]
  exact ⟨plainText_of_nodeId verified.node, verified.identity.plainText, lifecycle, advertisement,
    state⟩

/-- A verified attribution is plain. -/
theorem ObjectVerified.plain {object : BundleObject} {observation : Observation}
    (verified : ObjectVerified primitives object observation) :
    Plain (Codecs.bundleObject.encode object) := by
  have reference : PlainText object.objectId :=
    plainText_of_sha256Ref (verified.reference ▸ observation.reference_shape primitives)
  have node : PlainText object.sourceNode :=
    plainText_of_nodeId (verified.source ▸ verified.accepted.node)
  have placed : Plain (Codecs.foreignNamespace.encode object.exportedNamespace) := by
    cases object.exportedNamespace <;> exact plainText_of_check (by decide)
  have id : Plain (Codecs.nullableString.encode object.provenanceId) := by
    refine plain_nullable fun id present => plainText_of_sha256Ref ?_
    have same := verified.provenanceId.trans (Option.mem_def.mp present)
    obtain ⟨raw, -, rfl⟩ := Option.map_eq_some_iff.mp same
    exact isSha256Ref_digest primitives raw
  have provenance : Plain (Codecs.nullableString.encode object.provenanceHex) := by
    refine plain_nullable fun text present => ?_
    have decoded := verified.provenance
    rw [Option.mem_def.mp present] at decoded
    obtain ⟨raw, here, -⟩ := (map_ok_iff ..).mp decoded
    exact plainText_of_decodeHex here
  refine plain_record Codecs.bundleObjectFields (by decide) _ (by decide) (by decide) ?_
  simp only [Codecs.bundleObjectFields, Fields.required, Fields.cons, Fields.nil, List.map_cons,
    List.map_nil, List.forall_mem_cons, List.not_mem_nil, false_imp_iff, implies_true, and_true]
  exact ⟨reference, node, placed, plainText_of_decodeHex verified.bytes, id, provenance⟩

/-- A bundle nests four times. -/
theorem nesting_bundle (bundle : PortableFederationBundle) :
    (Codecs.bundle.encode bundle).nesting ≤ 4 := by
  have peer : ∀ peer ∈ bundle.peers, (Codecs.bundlePeer.encode peer).nesting ≤ 2 := by
    intro peer _
    refine nesting_record Codecs.bundlePeerFields (by decide) _ 1 ?_
    have lifecycle := nesting_list Codec.string peer.lifecycleHex 0 fun _ _ => Nat.le_refl 0
    have advertisement : (Codecs.nullableString.encode peer.capabilityAdvertisementHex).nesting ≤
        0 := nesting_nullable fun _ _ => Nat.le_refl 0
    simp only [Codecs.bundlePeerFields, Fields.required, Fields.cons, Fields.nil, List.map_cons,
      List.map_nil, List.forall_mem_cons, List.not_mem_nil, false_imp_iff, implies_true, and_true]
    exact ⟨Nat.zero_le _, Nat.zero_le _, lifecycle, advertisement.trans (by decide),
      Nat.zero_le _⟩
  have object : ∀ object ∈ bundle.objects, (Codecs.bundleObject.encode object).nesting ≤ 2 := by
    intro object _
    refine nesting_record Codecs.bundleObjectFields (by decide) _ 1 ?_
    have id : (Codecs.nullableString.encode object.provenanceId).nesting ≤ 0 :=
      nesting_nullable fun _ _ => Nat.le_refl 0
    have provenance : (Codecs.nullableString.encode object.provenanceHex).nesting ≤ 0 :=
      nesting_nullable fun _ _ => Nat.le_refl 0
    simp only [Codecs.bundleObjectFields, Fields.required, Fields.cons, Fields.nil, List.map_cons,
      List.map_nil, List.forall_mem_cons, List.not_mem_nil, false_imp_iff, implies_true, and_true]
    exact ⟨Nat.zero_le _, Nat.zero_le _, Nat.zero_le _, Nat.zero_le _, id.trans (by decide),
      provenance.trans (by decide)⟩
  refine nesting_record Codecs.bundleFields (by decide) _ 3 ?_
  simp only [Codecs.bundleFields, Fields.required, Fields.cons, Fields.nil, List.map_cons,
    List.map_nil, List.forall_mem_cons, List.not_mem_nil, false_imp_iff, implies_true, and_true]
  exact ⟨Nat.zero_le _, Nat.zero_le _, Nat.zero_le _, Nat.zero_le _,
    nesting_list Codecs.bundlePeer bundle.peers 2 peer,
    nesting_list Codecs.bundleObject bundle.objects 2 object, Nat.zero_le _⟩

/-! ## Verification of what was assembled -/

/-- The canonical bytes of verified entries verify. -/
theorem assembled_verified {exporterNode createdAt : String} {peers : List BundlePeer}
    {objects : List BundleObject} {bytes : ByteArray}
    (node : Wire.isNodeId exporterNode = true) (created : validTimestamp createdAt = true)
    (fewPeers : peers.length ≤ maxBundlePeers) (fewObjects : objects.length ≤ maxBundleObjects)
    (eachPeer : ∀ peer ∈ peers, ∃ material state, PeerVerified primitives peer material state)
    (distinct : (peers.map BundlePeer.nodeId).Nodup)
    (eachObject : ∀ object ∈ objects, ∃ observation, ObjectVerified primitives object observation)
    (apart : (objects.map attributionKey).Nodup) :
    Plain (Codecs.bundle.encode (assembled exporterNode createdAt peers objects)) ∧
      (canonicalStruct primitives (Codecs.bundle.encode
        (assembled exporterNode createdAt peers objects)) = .ok bytes →
        BundleVerified primitives bytes (assembled exporterNode createdAt peers objects)) := by
  have peersPerm := sortBy_perm BundlePeer.nodeId peers
  have objectsPerm := sortBy_perm objectOrder objects
  have peersShort : (sortBy BundlePeer.nodeId peers).length ≤ maxBundlePeers :=
    peersPerm.length_eq.trans_le fewPeers
  have objectsShort : (sortBy objectOrder objects).length ≤ maxBundleObjects :=
    objectsPerm.length_eq.trans_le fewObjects
  have plain : Plain (Codecs.bundle.encode (assembled exporterNode createdAt peers objects)) := by
    have peersPlain : Plain (Codecs.bundlePeer.list.encode (sortBy BundlePeer.nodeId peers)) := by
      refine plain_list _ _ (peersShort.trans (by decide)) fun peer member => ?_
      obtain ⟨material, state, verified⟩ := eachPeer peer (peersPerm.mem_iff.mp member)
      exact verified.plain
    have objectsPlain : Plain (Codecs.bundleObject.list.encode (sortBy objectOrder objects)) := by
      refine plain_list _ _ (objectsShort.trans (by decide)) fun object member => ?_
      obtain ⟨observation, verified⟩ := eachObject object (objectsPerm.mem_iff.mp member)
      exact verified.plain
    have time : PlainText createdAt :=
      plainText_of_wireTimestamp (Bool.and_eq_true_iff.mp created).1
    have schema : PlainText federationBundleSchemaV1 := plainText_of_check (by decide)
    have protocol : PlainText protocolV1 := plainText_of_check (by decide)
    have authority : PlainText "none" := plainText_of_check (by decide)
    refine plain_record Codecs.bundleFields (by decide) _ (by decide) (by decide) ?_
    simp only [Codecs.bundleFields, Fields.required, Fields.cons, Fields.nil, List.map_cons,
      List.map_nil, List.forall_mem_cons, List.not_mem_nil, false_imp_iff, implies_true, and_true]
    exact ⟨schema, protocol, plainText_of_nodeId node, time, peersPlain, objectsPlain, authority⟩
  refine ⟨plain, fun encoded => ?_⟩
  have accepted := (canonicalStruct_ok_iff ..).mp encoded
  have canonical := canonicalize_canonical accepted
  exact {
    short := canonicalize_short canonical
    canonical := (requireExactCanonical_ok_iff bytes).mpr canonical
    parsed := fromSlice_canonical primitives.unicode Codecs.bundle _ plain
      ((nesting_bundle _).trans_lt (by decide)) accepted
    shape := ⟨rfl, rfl, node, created, rfl, peersShort, objectsShort⟩
    peers := fun peer member => eachPeer peer (peersPerm.mem_iff.mp member)
    distinctPeers := ((peersPerm.map _).nodup_iff).mpr distinct
    objects := fun object member => eachObject object (objectsPerm.mem_iff.mp member)
    distinctObjects := ((objectsPerm.map _).nodup_iff).mpr apart }

/-- Verified entries whose bundle is short have a bundle that verifies. -/
theorem assembled_total {exporterNode createdAt : String} {peers : List BundlePeer}
    {objects : List BundleObject} (node : Wire.isNodeId exporterNode = true)
    (created : validTimestamp createdAt = true) (fewPeers : peers.length ≤ maxBundlePeers)
    (fewObjects : objects.length ≤ maxBundleObjects)
    (eachPeer : ∀ peer ∈ peers, ∃ material state, PeerVerified primitives peer material state)
    (distinct : (peers.map BundlePeer.nodeId).Nodup)
    (eachObject : ∀ object ∈ objects, ∃ observation, ObjectVerified primitives object observation)
    (apart : (objects.map attributionKey).Nodup)
    (short : writtenSize (Codecs.bundle.encode (assembled exporterNode createdAt peers objects)) ≤
      maxBundleBytes) :
    ∃ bytes, canonicalStruct primitives (Codecs.bundle.encode
        (assembled exporterNode createdAt peers objects)) = .ok bytes ∧
      BundleVerified primitives bytes (assembled exporterNode createdAt peers objects) := by
  have whole : ∀ bytes, Plain (Codecs.bundle.encode
        (assembled exporterNode createdAt peers objects)) ∧
      (canonicalStruct primitives (Codecs.bundle.encode
        (assembled exporterNode createdAt peers objects)) = .ok bytes →
        BundleVerified primitives bytes (assembled exporterNode createdAt peers objects)) :=
    fun bytes => assembled_verified node created fewPeers fewObjects eachPeer distinct eachObject
      apart
  have shallow := (nesting_bundle (assembled exporterNode createdAt peers objects)).trans_lt
    (by decide : 4 < maxDepth)
  obtain ⟨bytes, accepted⟩ :=
    (canonicalize_plain_iff primitives.unicode (whole .empty).1 shallow).mpr short
  have encoded := (canonicalStruct_ok_iff ..).mpr accepted
  exact ⟨bytes, encoded, (whole bytes).2 encoded⟩

/-- The size of a bundle: its fields and 87 bytes of names and marks. -/
theorem writtenSize_bundle (bundle : PortableFederationBundle) :
    writtenSize (Codecs.bundle.encode bundle) = 87 + writtenSize (.string bundle.schema) +
      writtenSize (.string bundle.protocol) + writtenSize (.string bundle.exporterNode) +
      writtenSize (.string bundle.createdAt) +
      writtenSize (Codecs.bundlePeer.list.encode bundle.peers) +
      writtenSize (Codecs.bundleObject.list.encode bundle.objects) +
      writtenSize (.string bundle.authority) := by
  have names : (Codecs.bundleFields.names.map fun name =>
      weigh Char.utf8Size (printText name) + 1).sum = 79 := by decide
  change writtenSize (.object _) = _
  rw [writtenSize_object]
  simp only [Codecs.bundleFields, Fields.required, Fields.cons, Fields.nil, List.map_cons,
    List.map_nil, List.sum_cons, List.sum_nil, memberSize, List.length_cons, List.length_nil,
    Codec.string] at names ⊢
  generalize weigh Char.utf8Size = weighed at names ⊢
  generalize writtenSize = size
  omega

/-- Embedded digits take at most 8194 bytes. -/
theorem writtenSize_digits {value : String} {bytes : ByteArray}
    (decoded : decodeHex value = .ok bytes) : writtenSize (.string value) ≤ 8194 := by
  obtain ⟨⟨-, short, -, hex⟩, -⟩ := (decodeHex_ok_iff ..).mp decoded
  rw [writtenSize_string fun b member => unescaped_lowerHex (hex b member)]
  have limit : maxBundleEmbeddedHexChars = 8192 := rfl
  omega

/-- The size of the entry of a peer without lifecycle records and advertisement. -/
theorem documented_size {document : NodeIdentityDocument} {identityHex : String}
    {exported : PeerLifecycleState} {material : Material} {state : IdentityState}
    (verified : PeerVerified primitives (documentedEntry document identityHex exported) material
      state) :
    writtenSize (Codecs.bundlePeer.encode (documentedEntry document identityHex exported)) ≤
      8448 := by
  obtain ⟨bytes, decoded, -⟩ := verified.identity
  have identity : writtenSize (.string identityHex) ≤ 8194 := writtenSize_digits decoded
  have node : writtenSize (.string document.nodeId) ≤ 139 := writtenSize_nodeId verified.node
  have lifecycle : writtenSize (Codec.string.list.encode []) = 2 := by
    rw [writtenSize_eq]
    decide
  have advertisement : writtenSize (Codecs.nullableString.encode none) = 4 := by
    rw [writtenSize_eq]
    decide
  have state := (Peering.writtenSize_peerState exported).2
  have names : (Codecs.bundlePeerFields.names.map fun name =>
      weigh Char.utf8Size (printText name) + 1).sum = 89 := by decide
  change writtenSize (.object _) ≤ _
  rw [writtenSize_object]
  simp only [Codecs.bundlePeerFields, Fields.required, Fields.cons, Fields.nil, List.map_cons,
    List.map_nil, List.sum_cons, List.sum_nil, memberSize, List.length_cons, List.length_nil,
    Codec.string, documentedEntry] at names identity node lifecycle advertisement state ⊢
  generalize weigh Char.utf8Size = weighed at names ⊢
  generalize writtenSize = size at identity node lifecycle advertisement state ⊢
  omega

/-- The size of the entry of an attribution without provenance. -/
theorem unattested_size {object : BundleObject} {observation : Observation}
    (verified : ObjectVerified primitives object observation)
    (absent : object.provenanceId = none) :
    writtenSize (Codecs.bundleObject.encode object) ≤ 8526 := by
  have digits : writtenSize (.string object.objectHex) ≤ 8194 := writtenSize_digits verified.bytes
  have node : writtenSize (.string object.sourceNode) ≤ 139 :=
    writtenSize_nodeId (verified.source ▸ verified.accepted.node)
  have reference : writtenSize (.string object.objectId) = 73 :=
    writtenSize_sha256Ref (verified.reference ▸ observation.reference_shape primitives)
  have none_ : object.provenanceHex = none := by
    have id := verified.provenanceId.trans absent
    have provenance := verified.provenance
    rw [Option.map_eq_none_iff.mp id] at provenance
    cases given : object.provenanceHex with
    | none => rfl
    | some text =>
      rw [given] at provenance
      obtain ⟨raw, -, same⟩ := (map_ok_iff ..).mp provenance
      cases same
  have null : writtenSize (Codecs.nullableString.encode none) = 4 := by
    rw [writtenSize_eq]
    decide
  have placed : writtenSize (Codecs.foreignNamespace.encode object.exportedNamespace) ≤ 12 := by
    rw [writtenSize_eq]
    cases object.exportedNamespace <;> decide
  have names : (Codecs.bundleObjectFields.names.map fun name =>
      weigh Char.utf8Size (printText name) + 1).sum = 93 := by decide
  change writtenSize (.object _) ≤ _
  rw [writtenSize_object]
  simp only [Codecs.bundleObjectFields, Fields.required, Fields.cons, Fields.nil, List.map_cons,
    List.map_nil, List.sum_cons, List.sum_nil, memberSize, List.length_cons, List.length_nil,
    Codec.string, absent, none_] at names digits node reference null placed ⊢
  generalize weigh Char.utf8Size = weighed at names ⊢
  generalize writtenSize = size at digits node reference null placed ⊢
  omega

/-- A bundle of few entries is short. -/
theorem assembled_size {exporterNode createdAt : String} {peers : List BundlePeer}
    {objects : List BundleObject} (node : Wire.isNodeId exporterNode = true)
    (created : validTimestamp createdAt = true) {peerSize objectSize : Nat}
    (eachPeer : ∀ peer ∈ peers, writtenSize (Codecs.bundlePeer.encode peer) ≤ peerSize)
    (eachObject : ∀ object ∈ objects,
      writtenSize (Codecs.bundleObject.encode object) ≤ objectSize) :
    writtenSize (Codecs.bundle.encode (assembled exporterNode createdAt peers objects)) ≤
      400 + peers.length * (peerSize + 1) + objects.length * (objectSize + 1) := by
  have list : ∀ {α : Type} (codec : Codec α) (values : List α) (size : Nat),
      (∀ value ∈ values, writtenSize (codec.encode value) ≤ size) →
      writtenSize (codec.list.encode values) ≤ values.length * (size + 1) + 2 := by
    intro α codec values size each
    have sum : ((values.map codec.encode).map writtenSize).sum ≤ values.length * size := by
      induction values with
      | nil => exact Nat.zero_le _
      | cons value rest ih =>
        have one := each value List.mem_cons_self
        have more := ih fun other member => each other (List.mem_cons_of_mem _ member)
        simp only [List.map_cons, List.sum_cons, List.length_cons, Nat.succ_mul]
        omega
    change writtenSize (.array _) ≤ _
    rw [writtenSize_array, List.length_map, Nat.mul_succ]
    omega
  have peersPerm := sortBy_perm BundlePeer.nodeId peers
  have objectsPerm := sortBy_perm objectOrder objects
  have peersSize := list Codecs.bundlePeer (sortBy BundlePeer.nodeId peers) peerSize
    fun peer member => eachPeer peer (peersPerm.mem_iff.mp member)
  have objectsSize := list Codecs.bundleObject (sortBy objectOrder objects) objectSize
    fun object member => eachObject object (objectsPerm.mem_iff.mp member)
  rw [peersPerm.length_eq] at peersSize
  rw [objectsPerm.length_eq] at objectsSize
  have exporter := writtenSize_nodeId node
  have time := writtenSize_timestamp (Bool.and_eq_true_iff.mp created).1
  have schema : writtenSize (.string federationBundleSchemaV1) ≤ 30 := by
    rw [writtenSize_eq]
    decide
  have protocol : writtenSize (.string protocolV1) ≤ 30 := by
    rw [writtenSize_eq]
    decide
  have authority : writtenSize (.string "none") = 6 := by
    rw [writtenSize_eq]
    decide
  rw [writtenSize_bundle]
  simp only [assembled]
  omega

/-- A few peers without attributions are a bundle. -/
theorem entries_bundle {entries : List BundlePeer} (few : entries.length ≤ 7)
    (distinct : (entries.map BundlePeer.nodeId).Nodup)
    (verified : ∀ entry ∈ entries, ∃ material state, PeerVerified primitives entry material state)
    (sizes : ∀ entry ∈ entries, writtenSize (Codecs.bundlePeer.encode entry) ≤ 8448)
    {exporterNode createdAt : String} (node : Wire.isNodeId exporterNode = true)
    (created : validTimestamp createdAt = true) :
    ∃ raw, BundleVerified primitives raw (assembled exporterNode createdAt entries []) := by
  have size := @assembled_size exporterNode createdAt entries [] node created 8448 0 sizes
    (List.forall_mem_nil _)
  rw [List.length_nil] at size
  have limit : maxBundleBytes = 65536 := rfl
  have peersLimit : maxBundlePeers = 256 := rfl
  have short : writtenSize (Codecs.bundle.encode (assembled exporterNode createdAt entries [])) ≤
      maxBundleBytes := by omega
  have none_ : ∀ object ∈ ([] : List BundleObject), ∃ observation,
      ObjectVerified primitives object observation := List.forall_mem_nil _
  obtain ⟨raw, -, bundle⟩ := assembled_total node created (by omega) (Nat.zero_le _) verified
    distinct none_ List.nodup_nil short
  exact ⟨raw, bundle⟩

/-- A few short documents that verify have a bundle that verifies. -/
theorem documented_bundle {documents : List NodeIdentityDocument} (few : documents.length ≤ 7)
    (distinct : (documents.map NodeIdentityDocument.nodeId).Nodup)
    (each : ∀ document ∈ documents,
      (∃ state, Peering.rebuildPeerIdentity primitives document [] = .ok state) ∧
        writtenSize (Codecs.identity.encode document) * 2 ≤ maxBundleEmbeddedHexChars)
    {exporterNode createdAt : String} (node : Wire.isNodeId exporterNode = true)
    (created : validTimestamp createdAt = true) : ∃ raw entries,
      List.Forall₂ (fun document entry => ∃ identityHex state,
        entry = documentedEntry document identityHex .introduced ∧
          PeerVerified primitives entry ⟨document, [], none⟩ state) documents entries ∧
      BundleVerified primitives raw (assembled exporterNode createdAt entries []) := by
  have made : ∀ document ∈ documents, ∃ entry, ∃ identityHex state,
      entry = documentedEntry document identityHex .introduced ∧
        PeerVerified primitives entry ⟨document, [], none⟩ state := by
    intro document member
    obtain ⟨⟨state, rebuilt⟩, short⟩ := each document member
    obtain ⟨identityHex, verified⟩ := documented_verified rebuilt short .introduced
    exact ⟨_, identityHex, state, rfl, verified⟩
  obtain ⟨entries, related⟩ := exists_forall₂ made
  have names : documents.map NodeIdentityDocument.nodeId = entries.map BundlePeer.nodeId := by
    refine map_eq_of_forall₂ related ?_
    rintro document entry ⟨identityHex, state, rfl, -⟩
    rfl
  have verified : ∀ entry ∈ entries, ∃ material state,
      PeerVerified primitives entry material state := by
    intro entry member
    obtain ⟨document, -, identityHex, state, -, verified⟩ := forall₂_left related member
    exact ⟨_, state, verified⟩
  have sizes : ∀ entry ∈ entries, writtenSize (Codecs.bundlePeer.encode entry) ≤ 8448 := by
    intro entry member
    obtain ⟨document, -, identityHex, state, rfl, verified⟩ := forall₂_left related member
    exact documented_size verified
  obtain ⟨raw, bundle⟩ := entries_bundle (related.length_eq ▸ few) (names ▸ distinct) verified sizes
    node created
  exact ⟨raw, entries, related, bundle⟩

/-! ## Expansions -/

/-- The entries of the selected peers verify, and they are those of the selected peers. -/
theorem Expands.verifiedPeers {store : FederationObjectStore} {registry : PeerRegistry}
    (sound : PeerRegistry.Sound primitives registry) {peerIds objectIds : List String}
    {peers : List BundlePeer} {objects : List BundleObject}
    (expands : Expands primitives store registry peerIds objectIds peers objects) :
    peers.map BundlePeer.nodeId = peerIds ∧
      ∀ peer ∈ peers, ∃ material state, PeerVerified primitives peer material state := by
  have names : peerIds.map id = peers.map BundlePeer.nodeId :=
    map_eq_of_forall₂ expands.peers fun nodeId peer exported => (exported.verified sound).1.symm
  rw [List.map_id] at names
  refine ⟨names.symm, fun peer member => ?_⟩
  obtain ⟨nodeId, -, exported⟩ := forall₂_left expands.peers member
  exact (exported.verified sound).2

/-- The entries of the selected objects verify, no attribution comes twice, and they are those of
the attributions of the selected objects. -/
theorem Expands.verifiedObjects {store : FederationObjectStore} (sourced : Sourced primitives store)
    {registry : PeerRegistry} {peerIds objectIds : List String} (distinct : objectIds.Nodup)
    {peers : List BundlePeer} {objects : List BundleObject}
    (expands : Expands primitives store registry peerIds objectIds peers objects) :
    (∀ object ∈ objects, object.objectId ∈ objectIds ∧ EntryOf primitives store object ∧
      ∃ observation, ObjectVerified primitives object observation) ∧
    (objects.map attributionKey).Nodup ∧
    ∀ objectRef ∈ objectIds, ∀ entry, Listed primitives store objectRef entry →
      ∃ object ∈ objects, object.objectId = objectRef ∧ object.exportedNamespace = entry.1 ∧
        recordKey entry.2 = ⟨object.sourceNode, object.provenanceId⟩ := by
  obtain ⟨blocks, each, rfl⟩ := expands.objects
  refine ⟨fun object member => ?_, ?_, fun objectRef selected entry listed => ?_⟩
  · obtain ⟨block, there, inside⟩ := List.mem_flatten.mp member
    obtain ⟨objectRef, selected, exported⟩ := forall₂_left each there
    obtain ⟨same, entry, verified⟩ := (exported.entries sourced).1 object inside
    exact ⟨same ▸ selected, entry, verified⟩
  · rw [List.map_flatten, List.nodup_flatten]
    refine ⟨fun keys member => ?_, ?_⟩
    · obtain ⟨block, there, rfl⟩ := List.mem_map.mp member
      obtain ⟨objectRef, -, exported⟩ := forall₂_left each there
      exact (exported.entries sourced).2.1
    · rw [List.pairwise_map]
      refine pairwise_of_forall₂ each distinct fun one two first second left right apart => ?_
      rw [List.disjoint_left]
      intro key here there
      obtain ⟨object, inside, rfl⟩ := List.mem_map.mp here
      obtain ⟨other, within, same⟩ := List.mem_map.mp there
      have reference := ((left.entries sourced).1 object inside).1
      have references := ((right.entries sourced).1 other within).1
      rw [attributionKey, attributionKey, Prod.mk.injEq] at same
      exact apart (reference.symm.trans (same.1.symm.trans references))
  · obtain ⟨block, there, exported⟩ := forall₂_right each selected
    obtain ⟨all, -, covered⟩ := exported.entries sourced
    obtain ⟨object, inside, placed, key⟩ := covered entry listed
    exact ⟨object, List.mem_flatten.mpr ⟨block, there, inside⟩, (all object inside).1, placed, key⟩

/-! ## Stores that hold the same attributions -/

/-- What is listed of a record besides the time. -/
def shownKey (entry : ForeignNamespace × ForeignObjectRecord) : ForeignNamespace × AttributionKey :=
  (entry.1, recordKey entry.2)

/-- Stores that hold the same attributions list the same keys of an object. -/
theorem keys_of_alike {one two : FederationObjectStore} (alike : Alike primitives one two)
    (first : Orderly primitives one) (second : Orderly primitives two) {objectRef : String}
    {records others : List (ForeignNamespace × ForeignObjectRecord)}
    (listed : one.foreignRecords primitives objectRef = .ok records)
    (again : two.foreignRecords primitives objectRef = .ok others) :
    (others.map shownKey).Perm (records.map shownKey) := by
  have nodup : ∀ {store : FederationObjectStore}
      {records : List (ForeignNamespace × ForeignObjectRecord)}, Orderly primitives store →
      store.foreignRecords primitives objectRef = .ok records → (records.map shownKey).Nodup := by
    intro store records orderly listed
    refine List.Nodup.map_on (fun left here right there same => ?_) (nodup_foreignRecords listed)
    obtain ⟨placement, record⟩ := orderly.unique ((mem_foreignRecords_iff listed left).mp here)
      ((mem_foreignRecords_iff listed right).mp there) (Prod.mk.inj same).2
    exact Prod.ext placement record
  have member : ∀ {store : FederationObjectStore}
      {records : List (ForeignNamespace × ForeignObjectRecord)},
      store.foreignRecords primitives objectRef = .ok records → ∀ shown,
      shown ∈ records.map shownKey ↔ Shows primitives store shown.1 objectRef shown.2 := by
    intro store records listed shown
    rw [List.mem_map]
    constructor
    · rintro ⟨entry, here, rfl⟩
      exact ⟨entry.2, (mem_foreignRecords_iff listed entry).mp here, rfl⟩
    · rintro ⟨record, there, key⟩
      exact ⟨(shown.1, record), (mem_foreignRecords_iff listed _).mpr there, by
        rw [shownKey, key]⟩
  refine (List.perm_ext_iff_of_nodup (nodup second again) (nodup first listed)).mpr fun shown => ?_
  rw [member again, member listed]
  exact (alike.attributions ..).symm

/-- The entries of an object are those of every store that holds the same attributions. -/
theorem exported_of_alike {one two : FederationObjectStore} (alike : Alike primitives one two)
    (first : Orderly primitives one) (second : Orderly primitives two) {objectRef : String}
    {block : List BundleObject} (exported : ObjectExported primitives one objectRef block) :
    ∃ other, ObjectExported primitives two objectRef other ∧ other.Perm block := by
  obtain ⟨records, bytes, objectHex, listed, some_, found, digits, each⟩ := exported
  obtain ⟨others, again⟩ := second.listed ((foreignRecords_ok_iff ..).mp listed).1
  have keys := keys_of_alike alike first second listed again
  have shown : ∀ entry ∈ records, Shows primitives one entry.1 objectRef (recordKey entry.2) :=
    fun entry member => ⟨entry.2, (mem_foreignRecords_iff listed entry).mp member, rfl⟩
  have known : others ≠ [] := by
    rintro rfl
    exact some_ (List.map_eq_nil_iff.mp keys.nil_eq.symm)
  obtain ⟨entry, member⟩ := List.exists_mem_of_ne_nil _ some_
  rw [alike.objects _ _ _ (shown entry member)] at found
  -- The entry of a record depends on its key, and on the contents of its provenance.
  let Made (shown : ForeignNamespace × AttributionKey) (object : BundleObject) : Prop :=
    ∃ provenance, exportProvenance primitives two shown.2.provenanceId = .ok provenance ∧
      object =
        { objectId := objectRef
          sourceNode := shown.2.sourceNode
          exportedNamespace := shown.1
          objectHex := objectHex
          provenanceId := provenance.1
          provenanceHex := provenance.2 }
  have made : List.Forall₂ Made (records.map shownKey) block := by
    rw [List.forall₂_map_left_iff]
    refine (forall₂_mem each).imp ?_
    rintro entry object ⟨here, -, provenance, made, rfl⟩
    have same : entry.2.objectId = objectRef := by
      obtain ⟨-, name, raw, -, holds⟩ := (mem_foreignRecords_iff listed entry).mp here
      exact holds.named.2.object
    have contents : exportProvenance primitives two entry.2.provenanceId = .ok provenance := by
      rw [← made]
      cases given : entry.2.provenanceId with
      | none => rfl
      | some id =>
        have equal := alike.provenances _ _ _ (shown entry here) id given
        rw [exportProvenance, exportProvenance, equal]
    exact ⟨provenance, contents, by rw [same]; rfl⟩
  obtain ⟨other, related, perm⟩ := forall₂_perm keys made
  refine ⟨other, ⟨others, bytes, objectHex, again, known, found, digits, ?_⟩, perm⟩
  rw [List.forall₂_map_left_iff] at related
  refine (forall₂_mem related).imp ?_
  rintro entry object ⟨here, -, provenance, made, rfl⟩
  have same : entry.2.objectId = objectRef := by
    obtain ⟨-, name, raw, -, holds⟩ := (mem_foreignRecords_iff again entry).mp here
    exact holds.named.2.object
  exact ⟨provenance, made, by rw [same]; rfl⟩

/-- Another order of a selection, and another store that holds the same attributions, expand to the
same entries. -/
theorem Expands.alike {one two : FederationObjectStore} (alike : Alike primitives one two)
    (first : Orderly primitives one) (second : Orderly primitives two) {registry : PeerRegistry}
    {peerIds peerIds' objectIds objectIds' : List String} (peersPerm : peerIds'.Perm peerIds)
    (objectsPerm : objectIds'.Perm objectIds) {peers : List BundlePeer}
    {objects : List BundleObject}
    (expands : Expands primitives one registry peerIds objectIds peers objects) :
    ∃ peers' objects', Expands primitives two registry peerIds' objectIds' peers' objects' ∧
      peers'.Perm peers ∧ objects'.Perm objects := by
  obtain ⟨peers', related, samePeers⟩ := forall₂_perm peersPerm expands.peers
  obtain ⟨blocks, each, rfl⟩ := expands.objects
  obtain ⟨ordered, eachOrdered, sameBlocks⟩ := forall₂_perm objectsPerm each
  have moved : ∃ others, List.Forall₂ (ObjectExported primitives two) objectIds' others ∧
      others.flatten.Perm ordered.flatten := by
    clear sameBlocks objectsPerm
    induction eachOrdered with
    | nil => exact ⟨[], .nil, .refl _⟩
    | cons exported _ ih =>
      obtain ⟨other, again, perm⟩ := exported_of_alike alike first second exported
      obtain ⟨others, rest, perms⟩ := ih
      refine ⟨other :: others, .cons again rest, ?_⟩
      rw [List.flatten_cons, List.flatten_cons]
      exact perm.append perms
  obtain ⟨others, eachOther, perm⟩ := moved
  exact ⟨peers', others.flatten, ⟨related, others, eachOther, rfl⟩, samePeers,
    perm.trans sameBlocks.flatten⟩

/-- The same entries are assembled to the same bundle. -/
theorem assembled_perm {exporterNode createdAt : String} {peers peers' : List BundlePeer}
    {objects objects' : List BundleObject} (samePeers : peers'.Perm peers)
    (sameObjects : objects'.Perm objects) (distinct : (peers.map BundlePeer.nodeId).Nodup)
    (apart : (objects.map attributionKey).Nodup) :
    assembled exporterNode createdAt peers' objects' =
      assembled exporterNode createdAt peers objects := by
  have peersSame : sortBy BundlePeer.nodeId peers' = sortBy BundlePeer.nodeId peers := by
    refine (sortBy_congr _ samePeers.symm fun one here two there same => ?_).symm
    exact List.inj_on_of_nodup_map distinct here there same
  have objectsSame : sortBy objectOrder objects' = sortBy objectOrder objects := by
    refine (sortBy_congr _ sameObjects.symm fun one here two there same => ?_).symm
    refine List.inj_on_of_nodup_map apart here there ?_
    have keys := Prod.mk.inj (toLex.injective same)
    have rest := Prod.mk.inj (toLex.injective keys.2)
    rw [attributionKey, attributionKey, keys.1, rest.1]
    exact congrArg _ (congrArg _ rest.2)
  rw [assembled, assembled, peersSame, objectsSame]

/-- A bundle is also exported from another order of the selection, and from another store that holds
the same attributions. -/
theorem exportBundle_alike {one two : FederationObjectStore} (alike : Alike primitives one two)
    (first : Sourced primitives one) (second : Sourced primitives two) {registry : PeerRegistry}
    (sound : PeerRegistry.Sound primitives registry) {exporterNode createdAt : String}
    {peerIds peerIds' objectIds objectIds' : List String} (peersPerm : peerIds'.Perm peerIds)
    (objectsPerm : objectIds'.Perm objectIds) {bytes : ByteArray}
    (exported : exportBundle primitives one registry exporterNode createdAt peerIds objectIds =
      .ok bytes) :
    exportBundle primitives two registry exporterNode createdAt peerIds' objectIds' =
      .ok bytes := by
  obtain ⟨given, counts, distinct, apart, peers, objects, expands, few, encoded, rest⟩ :=
    (exportBundle_ok_iff ..).mp exported
  obtain ⟨peers', objects', again, samePeers, sameObjects⟩ := expands.alike alike first.orderly
    second.orderly peersPerm objectsPerm
  have names := (expands.verifiedPeers sound).1
  have keys := (expands.verifiedObjects first apart).2.1
  refine (exportBundle_ok_iff ..).mpr ⟨given, ?_, peersPerm.nodup_iff.mpr distinct,
    objectsPerm.nodup_iff.mpr apart, peers', objects', again, sameObjects.length_eq.trans_le few,
    ?_, rest⟩
  · rw [peersPerm.length_eq, objectsPerm.length_eq]
    exact counts
  · rw [assembled_perm samePeers sameObjects (names.symm ▸ distinct) keys]
    exact encoded

end QsolFed.Bundle
