import QsolFed.Encoding.Size
import QsolFed.Peering
import QsolFed.Signed

/-!
# What a stored record guarantees

A record is written after it was validated, and a validated record consists of plain texts and
small numbers. Its file therefore reads back as the record itself: a registry that only this
component writes is a map from names to validated records.
-/
namespace QsolFed

open Checked Json Canonical Crypto

/-! ## Lifecycles -/

namespace Identity

variable {primitives : Primitives}

/-- Applied records are plain, and they leave plain names. -/
theorem plain_lifecycle {records : List PeerLifecycleRecord} {state next : IdentityState}
    (names : PlainNames state) (applied : records.foldlM (applyRecord primitives) state = .ok next) :
    PlainNames next ∧ ∀ record ∈ records, Plain (Codecs.lifecycleRecord.encode record) := by
  induction records generalizing state with
  | nil =>
    obtain rfl := (pure_ok_iff ..).mp applied
    exact ⟨names, by simp⟩
  | cons record rest ih =>
    obtain ⟨middle, first, others⟩ := (foldlM_cons_ok_iff ..).mp applied
    have one : PlainNames middle ∧ Plain (Codecs.lifecycleRecord.encode record) := by
      cases record with
      | rotation record =>
        obtain ⟨previous, notBefore, overlapUntil, accepted, rfl⟩ :=
          (applyRotation_ok_iff ..).mp first
        exact ⟨names.rotated accepted, accepted.plain names⟩
      | status record =>
        obtain ⟨key, effectiveAt, accepted, rfl⟩ := (applyKeyStatus_ok_iff ..).mp first
        exact ⟨names.restated accepted, accepted.plain names⟩
    obtain ⟨after, each⟩ := ih one.1 others
    exact ⟨after, List.forall_mem_cons.mpr ⟨one.2, each⟩⟩

/-- Applied records are counted, and the name of the node stays. -/
theorem sequence_lifecycle {records : List PeerLifecycleRecord} {state next : IdentityState}
    (small : (state.sequence.toNat : Int) ≤ safeIntegerMax)
    (applied : records.foldlM (applyRecord primitives) state = .ok next) :
    next.sequence.toNat = state.sequence.toNat + records.length ∧
      (next.sequence.toNat : Int) ≤ safeIntegerMax ∧ next.nodeId = state.nodeId := by
  induction records generalizing state with
  | nil =>
    obtain rfl := (pure_ok_iff ..).mp applied
    exact ⟨rfl, small, rfl⟩
  | cons record rest ih =>
    obtain ⟨middle, first, others⟩ := (foldlM_cons_ok_iff ..).mp applied
    obtain ⟨node, -, -, sequence, bounded⟩ := applyRecord_kept first
    obtain ⟨counted, fits, same⟩ := ih bounded others
    have one : middle.sequence.toNat = state.sequence.toNat + 1 := by
      have limit : safeIntegerMax < 2 ^ 64 - 1 := by decide
      rw [sequence, UInt64.toNat_add, UInt64.toNat_one, Nat.mod_eq_of_lt (by omega)]
    refine ⟨?_, fits, same.trans node⟩
    rw [counted, one, List.length_cons]
    omega

/-- A lifecycle record nests once. -/
theorem nesting_lifecycleRecord (record : PeerLifecycleRecord) :
    (Codecs.lifecycleRecord.encode record).nesting ≤ 1 := by
  cases record with
  | rotation record =>
    cases record with
    | mk schema nodeId algorithm sequence mode previousKeyId nextKeyId nextPublicKey notBefore
        overlapUntil previousSignature =>
      cases previousSignature <;> exact Nat.le_of_ble_eq_true rfl
  | status record => exact Nat.le_of_ble_eq_true rfl

/-- An authenticated envelope is plain when the names of the state are. -/
theorem Authenticated.plain {signed : SignedEnvelope} {identity : IdentityState} {nowUnix : Int}
    {clock : ClockPolicy} (names : PlainNames identity)
    (valid : Authenticated primitives signed identity nowUnix clock) :
    Plain (Codecs.signedEnvelope.encode signed) := by
  obtain ⟨key, issued, canonical, known, -, -, -, -, encoded, verified⟩ := valid.signed
  have schema : PlainText signed.schema := valid.schema ▸ plainText_of_check (by decide)
  have shaped : signed.envelope.Shaped := by
    simp only [canonicalEnvelopeBytes, bind_ok_iff, ensure_ok_iff, exists_const] at encoded
    exact (FederationEnvelope.validateShape_iff _).mp encoded.1
  refine plain_record Codecs.signedEnvelopeFields (by decide) _ (by decide) (by decide) ?_
  simp only [Codecs.signedEnvelopeFields, Fields.required, Fields.cons, Fields.nil, List.map_cons,
    List.map_nil, List.forall_mem_cons, List.not_mem_nil, false_imp_iff, implies_true, and_true]
  exact ⟨schema, plain_algorithm _, valid.node ▸ names.node, names.keys _ _ known, shaped.plain,
    (plainText_of_signature primitives verified).2⟩

/-- A signed envelope nests twice. -/
theorem nesting_signedEnvelope (signed : SignedEnvelope) :
    (Codecs.signedEnvelope.encode signed).nesting ≤ 2 := by
  cases signed with
  | mk schema algorithm nodeId keyId envelope signature =>
    cases envelope with
    | mk protocol messageId sender recipient messageClass payloadRef provenanceRef issuedAt
        expiresAt =>
      cases provenanceRef <;> cases expiresAt <;> exact Nat.le_of_ble_eq_true rfl

end Identity

namespace Peering

variable {primitives : Primitives}

/-- A timestamp names a second exactly when it is parsed. -/
theorem validTimestamp_iff (value : String) :
    validTimestamp value = true ↔ ∃ timestamp, Crypto.parseTimestamp value = .ok timestamp := by
  simp only [validTimestamp, Bool.and_eq_true, Crypto.parseTimestamp, bind_ok_iff, ensure_ok_iff,
    okOr_ok_iff, exists_const, Option.isSome_iff_exists, exists_and_left]

/-- A timestamp is parsed here as it is elsewhere. -/
theorem parseTimestamp_ok_iff (value : String) (timestamp : Int) :
    parseTimestamp value = .ok timestamp ↔ Crypto.parseTimestamp value = .ok timestamp := by
  simp only [parseTimestamp, validTimestamp, Bool.and_eq_true, Crypto.parseTimestamp, bind_ok_iff,
    ensure_ok_iff, okOr_ok_iff, exists_const]
  constructor
  · rintro ⟨⟨shape, -⟩, parsed⟩
    exact ⟨shape, parsed⟩
  · rintro ⟨shape, parsed⟩
    exact ⟨⟨shape, by rw [parsed]; rfl⟩, parsed⟩

/-! ## Identities -/

/-- An identity is rebuilt by applying the records to the state of the document. -/
theorem rebuildPeerIdentity_ok_iff (identity : NodeIdentityDocument)
    (lifecycle : List PeerLifecycleRecord) (state : IdentityState) :
    rebuildPeerIdentity primitives identity lifecycle = .ok state ↔
      ∃ initial, Identity.fromDocument primitives identity = .ok initial ∧
        lifecycle.foldlM (Identity.applyRecord primitives) initial = .ok state := by
  simp only [rebuildPeerIdentity, bind_ok_iff, mapError_ok_iff, foldlM_mapError_ok_iff]

/-- What a rebuilt identity guarantees. -/
structure Rebuilt (primitives : Primitives) (identity : NodeIdentityDocument)
    (lifecycle : List PeerLifecycleRecord) (state : IdentityState) : Prop where
  /-- The document is plain. -/
  document : Plain (Codecs.identity.encode identity)
  /-- The lifecycle records are plain. -/
  records : ∀ record ∈ lifecycle, Plain (Codecs.lifecycleRecord.encode record)
  /-- The names of the state are plain. -/
  names : Identity.PlainNames state
  /-- The state is the one of the node. -/
  node : state.nodeId = identity.nodeId
  /-- The node has the name of a node. -/
  shape : Wire.isNodeId identity.nodeId = true
  /-- The records are counted. -/
  sequence : state.sequence.toNat = lifecycle.length
  /-- They are few. -/
  small : (state.sequence.toNat : Int) ≤ safeIntegerMax

/-- A rebuilt identity guarantees all of this. -/
theorem rebuilt_of_ok {identity : NodeIdentityDocument} {lifecycle : List PeerLifecycleRecord}
    {state : IdentityState} (rebuilt : rebuildPeerIdentity primitives identity lifecycle = .ok state) :
    Rebuilt primitives identity lifecycle state := by
  obtain ⟨initial, described, applied⟩ := (rebuildPeerIdentity_ok_iff ..).mp rebuilt
  obtain ⟨verified, createdAt, -, start⟩ := (Identity.fromDocument_ok_iff ..).mp described
  have document := (Identity.verifyIdentityDocument_iff identity).mp verified
  have names : Identity.PlainNames initial :=
    Identity.Reachable.plainNames ⟨identity, initial, described, .refl⟩
  have node : initial.nodeId = identity.nodeId := by rw [start]; rfl
  have zero : initial.sequence.toNat = 0 := by rw [start]; rfl
  obtain ⟨after, records⟩ := Identity.plain_lifecycle names applied
  obtain ⟨sequence, small, same⟩ := Identity.sequence_lifecycle (by rw [zero]; decide) applied
  exact ⟨document.plain, records, after, same.trans node, isNodeId_derived primitives document.node,
    by omega, small⟩

/-- Longer lifecycles are rebuilt from shorter ones. -/
theorem rebuildPeerIdentity_append (identity : NodeIdentityDocument)
    (lifecycle more : List PeerLifecycleRecord) (state : IdentityState) :
    rebuildPeerIdentity primitives identity (lifecycle ++ more) = .ok state ↔
      ∃ middle, rebuildPeerIdentity primitives identity lifecycle = .ok middle ∧
        more.foldlM (Identity.applyRecord primitives) middle = .ok state := by
  simp only [rebuildPeerIdentity_ok_iff, foldlM_append_ok_iff]
  constructor
  · rintro ⟨initial, described, middle, applied, rest⟩
    exact ⟨middle, ⟨initial, described, applied⟩, rest⟩
  · rintro ⟨middle, ⟨initial, described, applied⟩, rest⟩
    exact ⟨initial, described, middle, applied, rest⟩

/-! ## Canonical bytes -/

/-- Canonical bytes of data are the canonical bytes of its text. -/
theorem canonicalStruct_ok_iff (value : Value String) (bytes : ByteArray) :
    canonicalStruct primitives value = .ok bytes ↔
      canonicalize primitives.unicode (writtenBytes value) = .ok bytes :=
  mapError_ok_iff ..

/-- Canonical bytes of plain data exist exactly when its text fits the size limit. -/
theorem canonicalStruct_iff {value : Value String} (plain : Plain value)
    (shallow : value.nesting < maxDepth) :
    (∃ bytes, canonicalStruct primitives value = .ok bytes) ↔
      (writtenBytes value).size ≤ maxInputBytes := by
  rw [← canonicalize_plain_iff primitives.unicode plain shallow]
  simp only [canonicalStruct_ok_iff]

/-- Canonical bytes are canonical. -/
theorem requireExactCanonical_of_struct {value : Value String} {raw : ByteArray}
    (encoded : canonicalStruct primitives value = .ok raw) :
    requireExactCanonical primitives raw = .ok () := by
  have again := canonicalize_canonical ((canonicalStruct_ok_iff ..).mp encoded)
  simp only [requireExactCanonical, again, Except.mapError, bind_ok, ensure_pos]

/-- Plain data is read back from its canonical bytes. -/
theorem fromSlice_struct {α : Type} (codec : Codec α) (value : α) {raw : ByteArray}
    (plain : Plain (codec.encode value)) (shallow : (codec.encode value).nesting < maxDepth)
    (encoded : canonicalStruct primitives (codec.encode value) = .ok raw) :
    fromSlice codec raw = some value :=
  fromSlice_canonical primitives.unicode codec value plain shallow
    ((canonicalStruct_ok_iff ..).mp encoded)

/-- Plain data with the same canonical bytes is the same. -/
theorem canonicalStruct_inj {α : Type} (codec : Codec α) {first second : α} {raw : ByteArray}
    (firstPlain : Plain (codec.encode first)) (secondPlain : Plain (codec.encode second))
    (shallow : ∀ value, (codec.encode value).nesting < maxDepth)
    (one : canonicalStruct primitives (codec.encode first) = .ok raw)
    (two : canonicalStruct primitives (codec.encode second) = .ok raw) : first = second := by
  have left := fromSlice_struct codec first firstPlain (shallow first) one
  have right := fromSlice_struct codec second secondPlain (shallow second) two
  exact Option.some.inj (left.symm.trans right)

/-! ## Advertisements -/

/-- Everything that a verified advertisement checked. -/
structure AdvertisementVerified (primitives : Primitives) (advertisement : CapabilityAdvertisement)
    (identity : IdentityState) : Prop where
  /-- The schema is the one of advertisements. -/
  schema : advertisement.schema = capabilityAdvertisementSchemaV1
  /-- The node has the name of a node. -/
  shape : Wire.isNodeId advertisement.nodeId = true
  /-- The numbers begin with one. -/
  counted : advertisement.sequence ≠ 0
  /-- The capabilities are few, well formed and distinct. -/
  capabilities : validateCapabilitySet advertisement.capabilities = .ok ()
  /-- The advertisement is the one of the node. -/
  node : advertisement.nodeId = identity.nodeId
  /-- The node signs it. -/
  signer : advertisement.proof.nodeId = advertisement.nodeId
  /-- The node sends it to itself, as an advertisement. -/
  route : advertisement.proof.envelope.sender = advertisement.nodeId ∧
    advertisement.proof.envelope.recipient = advertisement.nodeId ∧
    advertisement.proof.envelope.messageClass = .capabilities
  /-- The signature covers the advertisement. -/
  payload : structId primitives (advertisementPayload advertisement) =
    .ok advertisement.proof.envelope.payloadRef
  /-- The signature covers the times. -/
  times : advertisement.proof.envelope.issuedAt = advertisement.issuedAt ∧
    advertisement.proof.envelope.expiresAt = some advertisement.expiresAt
  /-- The end is a time. -/
  expires : ∃ expires, Crypto.parseTimestamp advertisement.expiresAt = .ok expires
  /-- The signature was valid at the time of issue. -/
  signed : ∃ issued, Crypto.parseTimestamp advertisement.issuedAt = .ok issued ∧
    Identity.Authenticated primitives advertisement.proof identity issued defaultClockPolicy

/-- An advertisement is verified exactly when every check passes. -/
theorem verifyCapabilityAdvertisementSignature_iff (advertisement : CapabilityAdvertisement)
    (identity : IdentityState) :
    verifyCapabilityAdvertisementSignature primitives advertisement identity = .ok () ↔
      AdvertisementVerified primitives advertisement identity := by
  simp only [verifyCapabilityAdvertisementSignature, validateAdvertisementShape, bind_ok_iff,
    ensure_ok_iff, exists_const, mapError_ok_iff, parseTimestamp_ok_iff, validTimestamp_iff]
  constructor
  · rintro ⟨_, ⟨⟨schema, shape, counted, -, expires⟩, capabilities⟩, node, payloadRef, payload,
      ⟨signer, sender, recipient, messageClass, rfl, issuedAt, expiresAt⟩, issued, parsed,
      assessment, assessed, valid⟩
    obtain ⟨verdict, rfl⟩ := Identity.verifySignedEnvelope_assessment assessed
    obtain rfl : verdict = .valid := valid
    have signed := (Identity.verifySignedEnvelope_valid_iff ..).mp assessed
    exact ⟨schema, shape, counted, capabilities, node, signer, ⟨sender, recipient, messageClass⟩,
      payload, ⟨issuedAt, expiresAt⟩, expires, issued, parsed, signed⟩
  · intro verified
    obtain ⟨issued, parsed, signed⟩ := verified.signed
    obtain ⟨sender, recipient, messageClass⟩ := verified.route
    have assessed := (Identity.verifySignedEnvelope_valid_iff ..).mpr signed
    exact ⟨(), ⟨⟨verified.schema, verified.shape, verified.counted, ⟨issued, parsed⟩,
      verified.expires⟩, verified.capabilities⟩, verified.node, _, verified.payload,
      ⟨verified.signer, sender, recipient, messageClass, rfl, verified.times⟩, issued, parsed, _,
      assessed, rfl⟩

/-- The text of a capability is ASCII. -/
theorem ascii_of_capabilities {capabilities : List String}
    (valid : validateCapabilitySet capabilities = .ok ()) :
    capabilities.length ≤ maxCapabilities ∧ capabilities.Nodup ∧
      ∀ text ∈ capabilities, ∀ c ∈ text.toList, Text.Ascii c := by
  simp only [validateCapabilitySet, bind_ok_iff, ensure_ok_iff, exists_const, List.all_eq_true]
    at valid
  obtain ⟨few, shapes, distinct⟩ := valid
  refine ⟨few, distinct, fun text member => Text.ascii_of_bytes fun b listed => ?_⟩
  exact (Wire.visible_of_capabilityId (shapes text member) b listed).2

/-- The bytes that an identifier refers to. -/
theorem canonical_of_structId {value : Value String} {reference : String}
    (identified : structId primitives value = .ok reference) :
    ∃ bytes, canonicalStruct primitives value = .ok bytes ∧
      reference = Digest.sha256Ref primitives bytes := by
  simp only [structId, bind_ok_iff, mapError_ok_iff, Digest.objectId, pure_ok_iff] at identified
  obtain ⟨bytes, encoded, canonical, again, rfl⟩ := identified
  rw [canonicalize_canonical ((canonicalStruct_ok_iff ..).mp encoded)] at again
  exact ⟨bytes, encoded, by rw [Except.ok.inj again]⟩

/-- The identifier of plain data digests the tree that it is read as. -/
theorem structId_of_visit {value : Value String} {node : Node} (plain : Plain value)
    (shallow : value.nesting < maxDepth) (short : (writtenBytes value).size ≤ maxInputBytes)
    (visited : visit primitives.unicode value = .ok node) :
    structId primitives value =
      .ok (Digest.sha256Ref primitives (writtenBytes node.toJson)) := by
  obtain ⟨other, same, accepted, -⟩ := canonicalize_plain primitives.unicode plain shallow short
  obtain rfl := Except.ok.inj (same.symm.trans visited)
  have encoded : canonicalStruct primitives value = .ok (writtenBytes other.toJson) :=
    (canonicalStruct_ok_iff ..).mpr accepted
  simp only [structId, encoded, bind_ok, Digest.objectId, canonicalize_canonical accepted]
  rfl

/-- The payload of an advertisement nests twice. -/
theorem nesting_advertisementPayload (advertisement : CapabilityAdvertisement) :
    (advertisementPayload advertisement).nesting ≤ 2 := by
  have listed := nesting_list Codec.string advertisement.capabilities 0 fun _ _ => Nat.le_refl 0
  refine Nat.succ_le_succ ((nestingMembers_le_iff _ _).mpr ?_)
  simp only [List.forall_mem_cons, List.not_mem_nil, false_imp_iff, implies_true, and_true]
  exact ⟨Nat.zero_le _, Nat.zero_le _, Nat.zero_le _, Nat.zero_le _, Nat.zero_le _, listed⟩

/-- The payload of a verified advertisement is plain. -/
theorem AdvertisementVerified.plain_payload {advertisement : CapabilityAdvertisement}
    {identity : IdentityState}
    (verified : AdvertisementVerified primitives advertisement identity) :
    Plain (advertisementPayload advertisement) := by
  obtain ⟨bytes, encoded, -⟩ := canonical_of_structId verified.payload
  obtain ⟨issued, issuedParsed, -⟩ := verified.signed
  obtain ⟨expires, expiresParsed⟩ := verified.expires
  obtain ⟨-, -, ascii⟩ := ascii_of_capabilities verified.capabilities
  have names : ∀ name ∈ ["schema", "node_id", "sequence", "issued_at", "expires_at",
      "capabilities"], ∀ c ∈ name.toList, Text.Ascii c := by
    have checked : (["schema", "node_id", "sequence", "issued_at", "expires_at",
        "capabilities"].all fun name => name.toList.all fun c => Text.Ascii c) = true := by decide
    intro name listed
    exact List.all_iff_forall_prop.mp (List.all_eq_true.mp checked name listed)
  have schema : PlainText advertisement.schema := verified.schema ▸ plainText_of_check (by decide)
  have capabilities : NarrowItems (advertisement.capabilities.map Value.string) := by
    generalize advertisement.capabilities = texts at ascii
    induction texts with
    | nil => trivial
    | cons text rest ih =>
      exact ⟨ascii text List.mem_cons_self,
        ih fun other member => ascii other (List.mem_cons_of_mem _ member)⟩
  refine plain_of_canonicalize ?_
    ((nesting_advertisementPayload advertisement).trans (by decide))
    ((canonicalStruct_ok_iff ..).mp encoded)
  exact ⟨names _ (by simp), schema.1, names _ (by simp), (plainText_of_nodeId verified.shape).1,
    names _ (by simp), ⟨_, rfl⟩, names _ (by simp), (plainText_of_timestamp issuedParsed).1,
    names _ (by simp), (plainText_of_timestamp expiresParsed).1, names _ (by simp), capabilities,
    trivial⟩

/-- A verified advertisement is plain. -/
theorem AdvertisementVerified.plain {advertisement : CapabilityAdvertisement}
    {identity : IdentityState} (names : Identity.PlainNames identity)
    (verified : AdvertisementVerified primitives advertisement identity) :
    Plain (Codecs.advertisement.encode advertisement) := by
  have payload := verified.plain_payload
  obtain ⟨-, schema, -, nodeId, -, sequence, -, issuedAt, -, expiresAt, -, capabilities, -⟩ :=
    payload.2.2
  obtain ⟨issued, -, signed⟩ := verified.signed
  refine plain_record Codecs.advertisementFields (by decide) _ (by decide) (by decide) ?_
  simp only [Codecs.advertisementFields, Fields.required, Fields.cons, Fields.nil, List.map_cons,
    List.map_nil, List.forall_mem_cons, List.not_mem_nil, false_imp_iff, implies_true, and_true]
  exact ⟨schema, nodeId, sequence, issuedAt, expiresAt, capabilities, signed.plain names⟩

/-- An advertisement nests three times. -/
theorem nesting_advertisement (advertisement : CapabilityAdvertisement) :
    (Codecs.advertisement.encode advertisement).nesting ≤ 3 := by
  refine nesting_record Codecs.advertisementFields (by decide) _ 2 ?_
  simp only [Codecs.advertisementFields, Fields.required, Fields.cons, Fields.nil, List.map_cons,
    List.map_nil, List.forall_mem_cons, List.not_mem_nil, false_imp_iff, implies_true, and_true]
  have listed := nesting_list Codec.string advertisement.capabilities 0 fun _ _ => Nat.le_refl 0
  exact ⟨Nat.zero_le _, Nat.zero_le _, Nat.zero_le _, Nat.zero_le _, Nat.zero_le _,
    listed.trans (by decide), Identity.nesting_signedEnvelope _⟩

/-! ## Records -/

/-- Everything that a validated record checked. -/
structure RecordValid (primitives : Primitives) (record : PeerRecord) (rebuilt : IdentityState) :
    Prop where
  /-- The schema is the one of records. -/
  schema : record.schema = peerRecordSchemaV1
  /-- The record is about the node of the document. -/
  node : record.nodeId = record.identity.nodeId
  /-- The lifecycle records are few. -/
  few : record.lifecycle.length ≤ maxPeerLifecycleRecords
  /-- The peer has no authority. -/
  authority : record.authority = "none"
  /-- The time of the last change. -/
  updated : validTimestamp record.updatedAt = true
  /-- The snapshot is a reference. -/
  snapshot : ∀ text ∈ record.partitionSnapshot, Wire.isSha256Ref text = true
  /-- A partition has a snapshot and a state before it. -/
  partition : record.state = .disconnected →
    record.preDisconnectState.isSome = true ∧ record.partitionSnapshot.isSome = true
  /-- The identity is rebuilt. -/
  identity : rebuildPeerIdentity primitives record.identity record.lifecycle = .ok rebuilt
  /-- The lifecycle records are counted. -/
  sequence : rebuilt.sequence = record.lifecycleSequence
  /-- The fingerprint is the one of the identity. -/
  fingerprint : identityFingerprint primitives record.identity record.lifecycle =
    .ok record.identityFingerprint
  /-- The advertisement is verified. -/
  advertisement : ∀ advertisement ∈ record.capabilityAdvertisement,
    AdvertisementVerified primitives advertisement rebuilt

/-- A record is validated exactly when every check passes. -/
theorem validatePeerRecord_iff (record : PeerRecord) :
    validatePeerRecord primitives record = .ok () ↔
      ∃ rebuilt, RecordValid primitives record rebuilt := by
  simp only [validatePeerRecord, bind_ok_iff, ensure_ok_iff, exists_const, Option.all_eq_true]
  constructor
  · rintro ⟨⟨schema, node, few, authority, updated, snapshot⟩, partition, rebuilt, identity,
      sequence, fingerprint, computed, rfl, advertised⟩
    refine ⟨rebuilt, schema, node, few, authority, updated, snapshot, partition, identity, sequence,
      computed, fun advertisement present => ?_⟩
    rw [Option.mem_def.mp present] at advertised
    exact (verifyCapabilityAdvertisementSignature_iff ..).mp advertised
  · rintro ⟨rebuilt, valid⟩
    refine ⟨⟨valid.schema, valid.node, valid.few, valid.authority, valid.updated, valid.snapshot⟩,
      valid.partition, rebuilt, valid.identity, valid.sequence, _, valid.fingerprint, rfl, ?_⟩
    cases present : record.capabilityAdvertisement with
    | none => rfl
    | some advertisement =>
      exact (verifyCapabilityAdvertisementSignature_iff ..).mpr (valid.advertisement _ present)

namespace RecordValid

variable {record : PeerRecord} {rebuilt : IdentityState}

/-- The record is the one of a node. -/
theorem isNodeId (valid : RecordValid primitives record rebuilt) :
    Wire.isNodeId record.nodeId = true := valid.node ▸ (rebuilt_of_ok valid.identity).shape

/-- The fields of a valid record other than the number of local changes are plain. -/
theorem plain_fields (valid : RecordValid primitives record rebuilt) {item : Value String}
    (member : item ∈ ((Codecs.peerRecordFields.encode
      (record.schema, record.nodeId, record.identity, record.lifecycle, record.identityFingerprint,
        record.lifecycleSequence, record.state, record.preDisconnectState, record.partitionSnapshot,
        record.capabilityAdvertisement, record.localEventSequence, record.updatedAt,
        record.authority, ())).map Prod.snd)) :
    Plain item ∨ item = Codec.uint64.encode record.localEventSequence := by
  have identity := rebuilt_of_ok valid.identity
  have schema : PlainText record.schema := valid.schema ▸ plainText_of_check (by decide)
  have authority : PlainText record.authority := valid.authority ▸ plainText_of_check (by decide)
  obtain ⟨updatedAt, updated⟩ := (validTimestamp_iff _).mp valid.updated
  have lifecycle : Plain (Codecs.lifecycleRecord.list.encode record.lifecycle) :=
    plain_list _ _ (valid.few.trans (by decide)) identity.records
  have fingerprint : PlainText record.identityFingerprint := by
    obtain ⟨bytes, -, same⟩ := canonical_of_structId valid.fingerprint
    exact same ▸ plainText_of_sha256Ref (isSha256Ref_digest primitives bytes)
  have state : ∀ state, Plain (Codecs.peerState.encode state) := fun state =>
    plain_of_check _ (by cases state <;> decide)
  simp only [Codecs.peerRecordFields, Fields.required, Fields.cons, Fields.nil, List.map_cons,
    List.map_nil, List.mem_cons, List.not_mem_nil, or_false] at member
  rcases member with rfl | rfl | rfl | rfl | rfl | rfl | rfl | rfl | rfl | rfl | rfl | rfl | rfl
  · exact .inl schema
  · exact .inl (plainText_of_nodeId valid.isNodeId)
  · exact .inl identity.document
  · exact .inl lifecycle
  · exact .inl fingerprint
  · exact .inl (plain_uint64 (valid.sequence ▸ identity.small))
  · exact .inl (state _)
  · exact .inl (plain_nullable fun before _ => state before)
  · exact .inl (plain_nullable fun text present => plainText_of_sha256Ref (valid.snapshot text present))
  · exact .inl (plain_nullable fun advertisement present =>
      (valid.advertisement advertisement present).plain identity.names)
  · exact .inr rfl
  · exact .inl (plainText_of_timestamp updated)
  · exact .inl authority

/-- A valid record with a small number of local changes is plain. -/
theorem plain (valid : RecordValid primitives record rebuilt)
    (small : (record.localEventSequence.toNat : Int) ≤ safeIntegerMax) :
    Plain (Codecs.peerRecord.encode record) :=
  plain_record Codecs.peerRecordFields (by decide) _ (by decide) (by decide) fun _ member =>
    (valid.plain_fields member).elim id fun same => same ▸ plain_uint64 small

/-- A valid record is narrow. -/
theorem narrow (valid : RecordValid primitives record rebuilt) :
    Narrow (Codecs.peerRecord.encode record) :=
  narrow_record Codecs.peerRecordFields (by decide) _ (by decide) fun _ member =>
    (valid.plain_fields member).elim (Plain.narrow _) fun same => same ▸ ⟨_, rfl⟩

end RecordValid

/-- A record nests four times. -/
theorem nesting_peerRecord (record : PeerRecord) :
    (Codecs.peerRecord.encode record).nesting ≤ 4 := by
  refine nesting_record Codecs.peerRecordFields (by decide) _ 3 ?_
  have lifecycle := nesting_list Codecs.lifecycleRecord record.lifecycle 1 fun value _ =>
    Identity.nesting_lifecycleRecord value
  have document : (Codecs.identity.encode record.identity).nesting ≤ 1 := Nat.le_of_ble_eq_true rfl
  simp only [Codecs.peerRecordFields, Fields.required, Fields.cons, Fields.nil, List.map_cons,
    List.map_nil, List.forall_mem_cons, List.not_mem_nil, false_imp_iff, implies_true, and_true]
  exact ⟨Nat.zero_le _, Nat.zero_le _, document.trans (by decide), lifecycle.trans (by decide),
    Nat.zero_le _, Nat.zero_le _, Nat.zero_le _, nesting_nullable fun _ _ => Nat.zero_le _,
    nesting_nullable fun _ _ => Nat.zero_le _,
    nesting_nullable fun advertisement _ => nesting_advertisement advertisement, Nat.zero_le _,
    Nat.zero_le _, Nat.zero_le _⟩

/-- A valid record is encoded exactly when its number of local changes is small and its text
fits. -/
theorem canonicalStruct_record_iff {record : PeerRecord} {rebuilt : IdentityState}
    (valid : RecordValid primitives record rebuilt) :
    (∃ raw, canonicalStruct primitives (Codecs.peerRecord.encode record) = .ok raw) ↔
      (record.localEventSequence.toNat : Int) ≤ safeIntegerMax ∧
        (writtenBytes (Codecs.peerRecord.encode record)).size ≤ maxInputBytes := by
  have shallow := nesting_peerRecord record
  constructor
  · rintro ⟨raw, encoded⟩
    have accepted := (canonicalStruct_ok_iff ..).mp encoded
    have plain := plain_of_canonicalize valid.narrow (shallow.trans (by decide)) accepted
    have number := plain_of_member plain.2.2 (show ("local_event_sequence",
      Codec.uint64.encode record.localEventSequence) ∈ _ by
        simp [Codecs.peerRecordFields, Fields.required, Fields.cons])
    exact ⟨(bounds_of_plain number).2, canonicalize_short accepted⟩
  · rintro ⟨small, fits⟩
    exact (canonicalStruct_iff (valid.plain small) (shallow.trans_lt (by decide))).mpr fits

/-- The size of a record: its fields and 227 bytes of names and marks. -/
theorem writtenSize_peerRecord (record : PeerRecord) :
    writtenSize (Codecs.peerRecord.encode record) =
      227 + writtenSize (.string record.schema) + writtenSize (.string record.nodeId) +
      writtenSize (Codecs.identity.encode record.identity) +
      writtenSize (Codecs.lifecycleRecord.list.encode record.lifecycle) +
      writtenSize (.string record.identityFingerprint) +
      writtenSize (Codec.uint64.encode record.lifecycleSequence) +
      writtenSize (Codecs.peerState.encode record.state) +
      writtenSize (Codecs.nullablePeerState.encode record.preDisconnectState) +
      writtenSize (Codecs.nullableString.encode record.partitionSnapshot) +
      writtenSize (Codecs.nullableAdvertisement.encode record.capabilityAdvertisement) +
      writtenSize (Codec.uint64.encode record.localEventSequence) +
      writtenSize (.string record.updatedAt) + writtenSize (.string record.authority) := by
  have names : (Codecs.peerRecordFields.names.map fun name =>
      weigh Char.utf8Size (printText name) + 1).sum = 213 := by decide
  change writtenSize (.object _) = _
  rw [writtenSize_object]
  simp only [Codecs.peerRecordFields, Fields.required, Fields.cons, Fields.nil, List.map_cons,
    List.map_nil, List.sum_cons, List.sum_nil, memberSize, List.length_cons, List.length_nil,
    Codec.string] at names ⊢
  -- The sizes are variables to the arithmetic.
  generalize weigh Char.utf8Size = weighed at names ⊢
  generalize writtenSize = size
  omega

/-- The size of a peering state. -/
theorem writtenSize_peerState (state : PeerLifecycleState) :
    9 ≤ writtenSize (Codecs.peerState.encode state) ∧
      writtenSize (Codecs.peerState.encode state) ≤ 14 := by
  rw [writtenSize_eq]
  cases state <;> decide

/-- The size of a valid record beside its document, its lifecycle and its advertisement. -/
theorem RecordValid.size_le {record : PeerRecord} {rebuilt : IdentityState}
    (valid : RecordValid primitives record rebuilt) :
    writtenSize (Codecs.peerRecord.encode record) ≤
      writtenSize (Codecs.identity.encode record.identity) +
      writtenSize (Codecs.lifecycleRecord.list.encode record.lifecycle) +
      writtenSize (Codecs.nullableAdvertisement.encode record.capabilityAdvertisement) + 632 := by
  have absent : writtenSize .null ≤ 14 := by
    rw [writtenSize_eq]
    decide
  have schema : writtenSize (.string record.schema) = 24 := by
    rw [valid.schema, writtenSize_string (List.all_iff_forall_prop.mp (by decide))]
    rfl
  have authority : writtenSize (.string record.authority) = 6 := by
    rw [valid.authority, writtenSize_string (List.all_iff_forall_prop.mp (by decide))]
    rfl
  have node := writtenSize_nodeId valid.isNodeId
  have fingerprint : writtenSize (.string record.identityFingerprint) = 73 := by
    obtain ⟨bytes, -, same⟩ := canonical_of_structId valid.fingerprint
    exact writtenSize_sha256Ref (same ▸ isSha256Ref_digest primitives bytes)
  have sequence := writtenSize_uint64 record.lifecycleSequence
  have changes := writtenSize_uint64 record.localEventSequence
  have state := (writtenSize_peerState record.state).2
  have before : writtenSize (Codecs.nullablePeerState.encode record.preDisconnectState) ≤ 14 := by
    cases record.preDisconnectState with
    | none => exact absent
    | some before => exact (writtenSize_peerState before).2
  have snapshot : writtenSize (Codecs.nullableString.encode record.partitionSnapshot) ≤ 73 := by
    cases present : record.partitionSnapshot with
    | none => exact absent.trans (by decide)
    | some text => exact (writtenSize_sha256Ref (valid.snapshot text present)).le
  have time := writtenSize_timestamp (Bool.and_eq_true_iff.mp valid.updated).1
  rw [writtenSize_peerRecord]
  omega

end Peering

end QsolFed
