import QsolFed.Encoding
import QsolFed.Identity.Records

/-!
# Encoding identities

A verified identity document and every accepted lifecycle record consist of plain texts, because
each of their fields was parsed, derived or compared with one that was. Encoding them can
therefore only fail for their size. A reachable identity state knows its keys under plain names.
-/
namespace QsolFed

open Checked Json Canonical Crypto

namespace Codecs

/-- A status record does not read as a rotation record, which has no field for a key. -/
theorem rotation_status_apart (value : KeyStatusRecord) (written : Value String)
    (same : Reorders (status.encode value) written) : rotation.decode written = none := by
  cases same with
  | object keys each order =>
    rename_i aligned others
    have listed : "key_id" ∈ others.map Prod.fst := by
      refine (order.map Prod.fst).mem_iff.mp ?_
      rw [← keys, statusFields.written]
      decide
    have unknown : ¬((others.map Prod.fst).Nodup ∧
        ∀ name ∈ others.map Prod.fst, name ∈ rotationFields.names) := fun ⟨_, known⟩ =>
      absurd (known "key_id" listed) (by decide)
    simp only [rotation, Codec.iso, Codec.record, if_neg unknown, Option.map_none]

/-- A lifecycle record as the object of its kind. -/
def lifecycleRecord : Codec PeerLifecycleRecord :=
  (Codec.untagged rotation status rotation_status_apart).iso
    (fun
      | .inl record => .rotation record
      | .inr record => .status record)
    (fun
      | .rotation record => .inl record
      | .status record => .inr record)
    fun value => by cases value <;> rfl

end Codecs

namespace Identity

variable {primitives : Primitives}

/-- Everything that the verification of a document checked. -/
structure DocumentVerified (primitives : Primitives) (document : NodeIdentityDocument) : Prop where
  /-- The schema is the one of documents. -/
  schema : document.schema = nodeIdentitySchemaV1
  /-- The root key does not sign messages. -/
  distinct : document.rootKeyId ≠ document.operationalKeyId
  /-- The name is derived from the root key. -/
  node : deriveNodeId primitives document.rootPublicKey = .ok document.nodeId
  /-- The root key has its own identifier. -/
  root : deriveKeyId primitives document.rootPublicKey = .ok document.rootKeyId
  /-- The operational key has its own identifier. -/
  operational : deriveKeyId primitives document.operationalPublicKey = .ok document.operationalKeyId
  /-- The time of creation. -/
  created : ∃ createdAt, parseTimestamp document.createdAt = .ok createdAt
  /-- The signature holds. -/
  signed : ∃ payload, canonicalJson primitives (identityPayload document) = .ok payload ∧
    verifySignature primitives document.rootPublicKey nodeIdentityDomain payload
      document.rootSignature = .ok true

/-- A document verifies exactly when every check passes. -/
theorem verifyIdentityDocument_iff (document : NodeIdentityDocument) :
    verifyIdentityDocument primitives document = .ok true ↔
      DocumentVerified primitives document := by
  constructor
  · intro verified
    unfold verifyIdentityDocument at verified
    split at verified
    · simp at verified
    next shape =>
    simp only [not_or, not_not] at shape
    obtain ⟨node, nodeDerived, verified⟩ := (bind_ok_iff ..).mp verified
    split at verified
    · simp at verified
    next sameNode =>
    obtain ⟨root, rootDerived, verified⟩ := (bind_ok_iff ..).mp verified
    split at verified
    · simp at verified
    next sameRoot =>
    obtain ⟨operational, operationalDerived, verified⟩ := (bind_ok_iff ..).mp verified
    split at verified
    · simp at verified
    next sameOperational =>
    simp only [bind_ok_iff] at verified
    obtain ⟨createdAt, parsed, payload, encoded, signed⟩ := verified
    simp only [not_not] at sameNode sameRoot sameOperational
    exact ⟨shape.1, shape.2, sameNode ▸ nodeDerived, sameRoot ▸ rootDerived,
      sameOperational ▸ operationalDerived, ⟨createdAt, parsed⟩, ⟨payload, encoded, signed⟩⟩
  · intro verified
    obtain ⟨createdAt, parsed⟩ := verified.created
    obtain ⟨payload, encoded, signed⟩ := verified.signed
    have shape : ¬(document.schema ≠ nodeIdentitySchemaV1 ∨
        document.rootKeyId = document.operationalKeyId) := by
      simp [verified.schema, verified.distinct]
    simp only [verifyIdentityDocument, if_neg shape, verified.node, bind_ok, ne_eq,
      not_true_eq_false, ↓reduceIte, verified.root, verified.operational, parsed, encoded, signed]

/-! ## Plain records -/

/-- Every single-valued or named field is plain. -/
theorem plain_algorithm (value : SigningAlgorithm) : Plain (Codecs.algorithm.encode value) :=
  plain_of_check _ (by cases value; decide)

/-- A verified document is plain. -/
theorem DocumentVerified.plain {document : NodeIdentityDocument}
    (verified : DocumentVerified primitives document) :
    Plain (Codecs.identity.encode document) := by
  obtain ⟨createdAt, parsed⟩ := verified.created
  obtain ⟨payload, -, signed⟩ := verified.signed
  obtain ⟨rootKey, signature⟩ := plainText_of_signature primitives signed
  have operationalKey : PlainText document.operationalPublicKey := by
    have derived := verified.operational
    simp only [deriveKeyId, bind_ok_iff] at derived
    obtain ⟨key, decoded, -⟩ := derived
    exact plainText_of_hex decoded (by decide)
  have schema : PlainText document.schema := verified.schema ▸ plainText_of_check (by decide)
  refine plain_record Codecs.identityFields (by decide) _ (by decide) (by decide) ?_
  simp only [Codecs.identityFields, Fields.required, Fields.cons, Fields.nil, List.map_cons,
    List.map_nil, List.forall_mem_cons, List.not_mem_nil, false_imp_iff, implies_true, and_true]
  exact ⟨schema, plainText_of_nodeId (isNodeId_derived primitives verified.node),
    plain_algorithm _, plainText_of_keyId primitives verified.root, rootKey,
    plainText_of_keyId primitives verified.operational, operationalKey,
    plainText_of_timestamp parsed, signature⟩

/-- What the names of a state are. -/
structure PlainNames (state : IdentityState) : Prop where
  /-- The name of the node. -/
  node : PlainText state.nodeId
  /-- The identifiers of its keys. -/
  keys : ∀ id key, state.operationalKeys.get? id = some key → PlainText id

/-- A rotation keeps the names of a state plain. -/
theorem PlainNames.rotated {state : IdentityState} {record : KeyRotationRecord}
    {previous : OperationalKeyState} {notBefore overlapUntil : Int} (plain : PlainNames state)
    (accepted : RotationAccepted primitives state record previous notBefore overlapUntil) :
    PlainNames (rotated state record previous notBefore overlapUntil) := by
  refine ⟨plain.node, fun id key known => ?_⟩
  simp only [Identity.rotated, OrderedMap.get?_insert] at known
  split_ifs at known with new old
  · exact new ▸ plainText_of_keyId primitives accepted.derived
  · exact old ▸ plain.keys _ _ accepted.replaced
  · exact plain.keys id key known

/-- A status record keeps the names of a state plain. -/
theorem PlainNames.restated {state : IdentityState} {record : KeyStatusRecord}
    {target : OperationalKeyState} {effectiveAt : Int} (plain : PlainNames state)
    (accepted : StatusAccepted primitives state record target effectiveAt) :
    PlainNames (restated state record target effectiveAt) := by
  refine ⟨plain.node, fun id key known => ?_⟩
  simp only [Identity.restated, OrderedMap.get?_insert] at known
  split_ifs at known with here
  · exact here ▸ plain.keys _ _ accepted.known
  · exact plain.keys id key known

/-- Every reachable state has plain names. -/
theorem Reachable.plainNames {state : IdentityState} (reachable : Reachable primitives state) :
    PlainNames state := by
  refine reachable.invariant PlainNames (fun document createdAt verified _ => ?_)
    (fun _ _ _ _ _ plain accepted => plain.rotated accepted)
    (fun _ _ _ _ plain accepted => plain.restated accepted)
  have checked := (verifyIdentityDocument_iff document).mp verified
  refine ⟨plainText_of_nodeId (isNodeId_derived primitives checked.node), fun id key known => ?_⟩
  simp only [introduced, OrderedMap.get?_insert, OrderedMap.get?_empty] at known
  split_ifs at known with here
  exact here ▸ plainText_of_keyId primitives checked.operational

/-- A number in a payload with canonical bytes is small. -/
theorem payload_number_small (name : String) {members : List (String × Value String)} {payload : ByteArray}
    (integral : (Value.object members).Integral)
    (shallow : (Value.object members).nesting ≤ recursionLimit)
    (encoded : canonicalJson primitives (.object members) = .ok payload) {value : UInt64}
    (member : (name, Codec.uint64.encode value) ∈ members) :
    (value.toNat : Int) ≤ safeIntegerMax := by
  simp only [canonicalJson, mapError_ok_iff] at encoded
  obtain ⟨node, visited⟩ := canonicalize_visits integral shallow encoded
  simp only [visit, bind_ok_iff] at visited
  obtain ⟨result, read, -⟩ := visited
  obtain ⟨number, accepted⟩ := visitMap_visits read member
  exact visit_natCast_small accepted

/-- The sequence number of an accepted rotation record is small. -/
theorem RotationAccepted.sequence_small {state : IdentityState} {record : KeyRotationRecord}
    {previous : OperationalKeyState} {notBefore overlapUntil : Int}
    (accepted : RotationAccepted primitives state record previous notBefore overlapUntil) :
    (record.sequence.toNat : Int) ≤ safeIntegerMax := by
  obtain ⟨payload, encoded, -⟩ := accepted.signed
  exact payload_number_small "sequence" (by simp [Value.Integral, Value.IntegralMembers,
    Codecs.algorithm, Codecs.rotationMode, Codec.enumeration, Codec.uint64, Number.Integral,
    Number.ofInt]) (Nat.le_of_ble_eq_true rfl) encoded (by simp)

/-- An accepted rotation record is plain. -/
theorem RotationAccepted.plain {state : IdentityState} {record : KeyRotationRecord}
    {previous : OperationalKeyState} {notBefore overlapUntil : Int} (names : PlainNames state)
    (accepted : RotationAccepted primitives state record previous notBefore overlapUntil) :
    Plain (Codecs.rotation.encode record) := by
  obtain ⟨payload, encoded, root, next, mode⟩ := accepted.signed
  have small := accepted.sequence_small
  have schema : PlainText record.schema := accepted.schema ▸ plainText_of_check (by decide)
  have previousSignature : Plain (Codecs.nullableString.encode record.previousSignature) := by
    rcases mode with ⟨-, -, signature, present, verified⟩ | ⟨-, absent, -, -⟩
    · rw [present]
      exact (plainText_of_signature primitives verified).2
    · rw [absent]
      trivial
  obtain ⟨nextKey, nextSignature⟩ := plainText_of_signature primitives next
  refine plain_record Codecs.rotationFields (by decide) _ (by decide) (by decide) ?_
  simp only [Codecs.rotationFields, Fields.required, Fields.cons, Fields.nil, List.map_cons,
    List.map_nil, List.forall_mem_cons, List.not_mem_nil, false_imp_iff, implies_true, and_true]
  exact ⟨schema, accepted.node ▸ names.node, plain_algorithm _, plain_uint64 small,
    plain_of_check _ (by cases record.mode <;> decide), names.keys _ _ accepted.replaced,
    plainText_of_keyId primitives accepted.derived, nextKey, plainText_of_timestamp accepted.start,
    plainText_of_timestamp accepted.finish, previousSignature, nextSignature,
    (plainText_of_signature primitives root).2⟩

/-- The sequence number of an accepted status record is small. -/
theorem StatusAccepted.sequence_small {state : IdentityState} {record : KeyStatusRecord}
    {key : OperationalKeyState} {effectiveAt : Int}
    (accepted : StatusAccepted primitives state record key effectiveAt) :
    (record.sequence.toNat : Int) ≤ safeIntegerMax := by
  obtain ⟨payload, encoded, -⟩ := accepted.signed
  exact payload_number_small "sequence" (by simp [Value.Integral, Value.IntegralMembers,
    Codecs.algorithm, Codecs.keyStatus, Codecs.keyStatusReason, Codec.enumeration, Codec.uint64,
    Number.Integral, Number.ofInt]) (Nat.le_of_ble_eq_true rfl) encoded (by simp)

/-- An accepted status record is plain. -/
theorem StatusAccepted.plain {state : IdentityState} {record : KeyStatusRecord}
    {key : OperationalKeyState} {effectiveAt : Int} (names : PlainNames state)
    (accepted : StatusAccepted primitives state record key effectiveAt) :
    Plain (Codecs.status.encode record) := by
  obtain ⟨payload, encoded, root⟩ := accepted.signed
  have small := accepted.sequence_small
  have schema : PlainText record.schema := accepted.schema ▸ plainText_of_check (by decide)
  refine plain_record Codecs.statusFields (by decide) _ (by decide) (by decide) ?_
  simp only [Codecs.statusFields, Fields.required, Fields.cons, Fields.nil, List.map_cons,
    List.map_nil, List.forall_mem_cons, List.not_mem_nil, false_imp_iff, implies_true, and_true]
  exact ⟨schema, accepted.node ▸ names.node, plain_algorithm _, plain_uint64 small,
    names.keys _ _ accepted.known, plain_of_check _ (by cases record.status <;> decide),
    plainText_of_timestamp accepted.effective,
    plain_of_check _ (by cases record.reason <;> decide),
    (plainText_of_signature primitives root).2⟩

/-- What an applied record does to the names and the sequence number of a state. -/
theorem applyRecord_kept {state next : IdentityState} {record : PeerLifecycleRecord}
    (applied : applyRecord primitives state record = .ok next) :
    next.nodeId = state.nodeId ∧ next.rootKeyId = state.rootKeyId ∧
      next.rootPublicKey = state.rootPublicKey ∧ next.sequence = state.sequence + 1 ∧
      (next.sequence.toNat : Int) ≤ safeIntegerMax := by
  cases record with
  | rotation record =>
    obtain ⟨previous, notBefore, overlapUntil, accepted, rfl⟩ :=
      (applyRotation_ok_iff ..).mp applied
    exact ⟨rfl, rfl, rfl, accepted.sequence, accepted.sequence_small⟩
  | status record =>
    obtain ⟨key, effectiveAt, accepted, rfl⟩ := (applyKeyStatus_ok_iff ..).mp applied
    exact ⟨rfl, rfl, rfl, accepted.sequence, accepted.sequence_small⟩

/-- Canonical bytes of a value that is plain, shallow and small by its checks. -/
theorem canonicalJson_of_check (primitives : Primitives) (value : Value String)
    (checked : isPlain value = true) (shallow : value.nesting < maxDepth)
    (small : sizeBound value ≤ maxInputBytes) :
    ∃ payload, canonicalJson primitives value = .ok payload :=
  (canonicalJson_iff primitives (plain_of_check value checked) shallow).mpr
    ((size_writtenBytes_le value).trans small)

/-- The overlap check passes when no key of the state overlaps. -/
theorem apart_of_keys {state : IdentityState} {currentKeyId : String} {notBefore : Int}
    (clear : ∀ id key, state.operationalKeys.get? id = some key →
      overlaps currentKeyId notBefore key = false) :
    state.operationalKeys.values.any (overlaps currentKeyId notBefore) = false := by
  rw [List.any_eq_false]
  intro key listed
  obtain ⟨id, known⟩ := (state.operationalKeys.mem_values key).mp listed
  simp [clear id key known]

/-- The signatures of a transition hold under tabulated primitives that list them. -/
theorem transition_signed {digests : List (List UInt8 × String)}
    {signatures : List (String × String)} {state : IdentityState} {record : KeyRotationRecord}
    {previous : OperationalKeyState} {signature : String} {notBefore overlapUntil : Int}
    (transition : record.mode = .transition) (active : previous.status = .active)
    (present : record.previousSignature = some signature)
    (plain : isPlain (rotationPayload record) = true)
    (small : sizeBound (rotationPayload record) ≤ maxInputBytes)
    (shapes : ([state.rootPublicKey, record.nextPublicKey, previous.publicKey].all (isFixedHex 32) &&
      [record.rootSignature, record.nextSignature, signature].all (isFixedHex 64)) = true)
    (listed : [(state.rootPublicKey, record.rootSignature),
      (record.nextPublicKey, record.nextSignature),
      (previous.publicKey, signature)].all (signatures.contains ·) = true) :
    ∃ payload, canonicalJson (Digest.tabulated digests signatures) (rotationPayload record) =
        .ok payload ∧
      verifySignature (Digest.tabulated digests signatures) state.rootPublicKey keyRotationDomain
        payload record.rootSignature = .ok true ∧
      verifySignature (Digest.tabulated digests signatures) record.nextPublicKey keyRotationDomain
        payload record.nextSignature = .ok true ∧
      ModeAllows (Digest.tabulated digests signatures) record previous payload notBefore
        overlapUntil := by
  obtain ⟨payload, encoded⟩ := canonicalJson_of_check (Digest.tabulated digests signatures)
    (rotationPayload record) plain (Nat.le_of_ble_eq_true rfl) small
  simp only [List.all_cons, List.all_nil, Bool.and_true, Bool.and_eq_true, List.contains_iff_mem]
    at shapes listed
  obtain ⟨⟨rootKey, nextKey, previousKey⟩, rootShape, nextShape, previousShape⟩ := shapes
  obtain ⟨rootListed, nextListed, previousListed⟩ := listed
  exact ⟨payload, encoded, verifySignature_tabulated _ payload rootKey rootShape rootListed,
    verifySignature_tabulated _ payload nextKey nextShape nextListed,
    .inl ⟨transition, active, signature, present,
      verifySignature_tabulated _ payload previousKey previousShape previousListed⟩⟩

/-! ## A recorded lifecycle -/

/-- The bytes of a key under a domain. -/
def keyMessage (domain key : String) : List UInt8 :=
  Text.bytes domain ++ Digest.fromHex (Text.bytes key)

/-- The beginning of what the identifier of a recorded envelope digests. -/
def envelopeMessage (expiresAt : String) : List UInt8 :=
  Text.bytes Digest.messageIdDomain ++
    Text.bytes "\x7b\"authority_claim\":\"none\",\"expires_at\":\"" ++ Text.bytes expiresAt

/-- The digests of the recorded keys and envelopes. -/
def recordedDigests : List (List UInt8 × String) := [
  (keyMessage nodeIdDomain "d75a980182b10ab7d54bfed3c964073a0ee172f3daa62325af021a68f707511a",
    "8fbf311d9bd830509a22b40926970621fd31ee14ef238c552517f6a567fbc69d"),
  (keyMessage keyIdDomain "d75a980182b10ab7d54bfed3c964073a0ee172f3daa62325af021a68f707511a",
    "bf8c7661e1c89dad9cc90c6d831f39cc86828af665c8181b19b15cd21d8c6a97"),
  (keyMessage keyIdDomain "3d4017c3e843895a92b70aa74d1b7ebc9c982ccf2ec4968cc0cd55f12af4660c",
    "a69898edb88628faa92ffbd47b4b5eec1ffb4a8855540c55037d28c4ba6dfaf3"),
  (keyMessage keyIdDomain "fc51cd8e6218a1a38da47ed00230f0580816ed13ba3303ac5deb911548908025",
    "522528787f8e9af6351225138eca0281396a2dc1b68011a4434457dec5427c28"),
  (keyMessage keyIdDomain "ec172b93ad5e563bf4932c70e1245034c35467ef2efd4d64ebf819683467e2bf",
    "0c6000187741729bf57a571140eea9389cbbbabbd21c09d245f8383478231b93"),
  (keyMessage nodeIdDomain "ec172b93ad5e563bf4932c70e1245034c35467ef2efd4d64ebf819683467e2bf",
    "1dbdbe36881eeede75a221cffcfd37e62ba095d0fdc71beb29e1e28f74d8979c"),
  (envelopeMessage "2026-08-23T03:00:00Z",
    "eb4a608ba232cd25e1bb0e7542d3e8ea1c56376a333730e8bf36341a8d4aa714"),
  (envelopeMessage "2026-08-23T04:00:00Z",
    "ee125f253c80ce145739c87296291645f6124e99d2eef9e75968662acaadcf96")]

/-- The document of the recorded node. -/
def recordedDocument : NodeIdentityDocument where
  schema := "qsol-fed-node-identity/1"
  nodeId := "fed:qsol:8fbf311d9bd830509a22b40926970621fd31ee14ef238c552517f6a567fbc69d"
  algorithm := .ed25519
  rootKeyId := "ed25519:bf8c7661e1c89dad9cc90c6d831f39cc86828af665c8181b19b15cd21d8c6a97"
  rootPublicKey := "d75a980182b10ab7d54bfed3c964073a0ee172f3daa62325af021a68f707511a"
  operationalKeyId := "ed25519:a69898edb88628faa92ffbd47b4b5eec1ffb4a8855540c55037d28c4ba6dfaf3"
  operationalPublicKey := "3d4017c3e843895a92b70aa74d1b7ebc9c982ccf2ec4968cc0cd55f12af4660c"
  createdAt := "2026-08-23T00:00:00Z"
  rootSignature :=
    "bc5729f44ff65dcfa036e47732ce4e5be600204e340658605b75b449cde2fc96a0bfd49eed06f0644b800da9359e4addb2ad481d0c2dfc94496a74584d665302"

/-- A transition from the first to the second key, with an overlap of fifty minutes. -/
def recordedFirst : KeyRotationRecord where
  schema := "qsol-fed-key-rotation/1"
  nodeId := "fed:qsol:8fbf311d9bd830509a22b40926970621fd31ee14ef238c552517f6a567fbc69d"
  algorithm := .ed25519
  sequence := 1
  mode := .transition
  previousKeyId := "ed25519:a69898edb88628faa92ffbd47b4b5eec1ffb4a8855540c55037d28c4ba6dfaf3"
  nextKeyId := "ed25519:522528787f8e9af6351225138eca0281396a2dc1b68011a4434457dec5427c28"
  nextPublicKey := "fc51cd8e6218a1a38da47ed00230f0580816ed13ba3303ac5deb911548908025"
  notBefore := "2026-08-23T00:10:00Z"
  overlapUntil := "2026-08-23T01:00:00Z"
  previousSignature := some
    "eb3e85cd1dc0edb6b8c2df0c3612b301f545a3055b54a33d1196793702e63ee6287147d816d5e221993d921adb3c6509431716c0124608b98e2000950987a10e"
  nextSignature :=
    "b41e774cff4cea03a7de5fbdbaf1a2053647048ada52cb64984b1fae02505b7ffbe8470879089e32d1093be4937e48e9050de8e7ea64663c5e90612e496df30f"
  rootSignature :=
    "3a45e59e2dc16137c6bda37b9d93847c1b5c73ed1bb420f4c8a033269f12b8cbf40d4ab4061228068bd55d66e0abea5d3138119d50c0df1dfdd66e16053fe508"

/-- A transition from the second to the third key that starts at the end of that overlap. -/
def recordedSecond : KeyRotationRecord where
  schema := "qsol-fed-key-rotation/1"
  nodeId := "fed:qsol:8fbf311d9bd830509a22b40926970621fd31ee14ef238c552517f6a567fbc69d"
  algorithm := .ed25519
  sequence := 2
  mode := .transition
  previousKeyId := "ed25519:522528787f8e9af6351225138eca0281396a2dc1b68011a4434457dec5427c28"
  nextKeyId := "ed25519:0c6000187741729bf57a571140eea9389cbbbabbd21c09d245f8383478231b93"
  nextPublicKey := "ec172b93ad5e563bf4932c70e1245034c35467ef2efd4d64ebf819683467e2bf"
  notBefore := "2026-08-23T01:00:00Z"
  overlapUntil := "2026-08-23T02:00:00Z"
  previousSignature := some
    "36d3ddb871c1aa25f92da40e027f9a9f453f9d7185f3f9d6ac2f832fa470b46369e4a4a1dacd6f0a5aa5a4f47e76173cbabc2263655e77aa7ba0afd96f2de50d"
  nextSignature :=
    "2bb33b4cb66a2d079b1df75de92fab8e57e0b509aa51ed14e9ddef2499f3e5ab4ff44c064db112a3ab1db7293c0d13fa54d0acb776b371c0a9ca4ccaaddbdd0b"
  rootSignature :=
    "6bb1c56295f6d1294133f601fbc57b55a7bc1293644aa1da5e8068fbec8ee5ba704f19ffc4cc030831e4d7614b398ca007a076ed2e27be28f226783078a6b400"

/-- A declaration that the first key is compromised. -/
def recordedCompromise : KeyStatusRecord where
  schema := "qsol-fed-key-status/1"
  nodeId := "fed:qsol:8fbf311d9bd830509a22b40926970621fd31ee14ef238c552517f6a567fbc69d"
  algorithm := .ed25519
  sequence := 1
  keyId := "ed25519:a69898edb88628faa92ffbd47b4b5eec1ffb4a8855540c55037d28c4ba6dfaf3"
  status := .compromised
  effectiveAt := "2026-08-23T00:05:00Z"
  reason := .confirmedCompromise
  rootSignature :=
    "4b5d127f5f2a47c4865f96a825de02c5bf4232ee4a1b44863e60ab3418e0fcb826df5d7a6995dc0ccf8cc8f04c88de311bd9bc5d1438a64427e59001cfb38609"

/-- The document of the local node. -/
def localDocument : NodeIdentityDocument where
  schema := "qsol-fed-node-identity/1"
  nodeId := "fed:qsol:1dbdbe36881eeede75a221cffcfd37e62ba095d0fdc71beb29e1e28f74d8979c"
  algorithm := .ed25519
  rootKeyId := "ed25519:0c6000187741729bf57a571140eea9389cbbbabbd21c09d245f8383478231b93"
  rootPublicKey := "ec172b93ad5e563bf4932c70e1245034c35467ef2efd4d64ebf819683467e2bf"
  operationalKeyId := "ed25519:522528787f8e9af6351225138eca0281396a2dc1b68011a4434457dec5427c28"
  operationalPublicKey := "fc51cd8e6218a1a38da47ed00230f0580816ed13ba3303ac5deb911548908025"
  createdAt := "2026-08-23T00:00:00Z"
  rootSignature :=
    "58392a651f3ab4f42f41c6154ab33dce6c8cd5a005a08343653915d6d9c6716094acca130be7d28e8ba8ac314799a423ebb7022a0ffa1cecc6336d6216c4310a"

/-- The signatures of the recorded data. -/
def recordedSignatures : List (String × String) := [
  (recordedDocument.rootPublicKey, recordedDocument.rootSignature),
  (recordedDocument.operationalPublicKey, recordedFirst.previousSignature.getD ""),
  (recordedFirst.nextPublicKey, recordedFirst.nextSignature),
  (recordedDocument.rootPublicKey, recordedFirst.rootSignature),
  (recordedFirst.nextPublicKey, recordedSecond.previousSignature.getD ""),
  (recordedSecond.nextPublicKey, recordedSecond.nextSignature),
  (recordedDocument.rootPublicKey, recordedSecond.rootSignature),
  (recordedDocument.rootPublicKey, recordedCompromise.rootSignature),
  (localDocument.rootPublicKey, localDocument.rootSignature),
  (recordedDocument.operationalPublicKey,
    "977f9d7ef8a225159638fb657e1f0d2b41a2eba5e65bf0bfba96ee3f41325dfec0b7e3093fb079823f831b6adad1b2b27916ad375c85a62253c4ffa384cab40b"),
  (recordedDocument.operationalPublicKey,
    "e822d61a61c9619c35c9941e15e1fdfc0b1b7048a8a331b6e5bf111cbf6afa4eedac8162b838788d9d8fbe76b1c2372ca6424a9af57f123a05a2c9f48979d90c")]

/-- The primitives as they are on the recorded data. -/
def recordedPrimitives : Primitives := Digest.tabulated recordedDigests recordedSignatures

/-- The recorded document verifies. -/
theorem recordedDocument_verified : DocumentVerified recordedPrimitives recordedDocument := by
  obtain ⟨payload, encoded⟩ := canonicalJson_of_check recordedPrimitives
    (identityPayload recordedDocument) (by decide) (by decide) (by decide)
  exact ⟨rfl, by decide, rfl, rfl, rfl, ⟨1787443200, rfl⟩, ⟨payload, encoded,
    verifySignature_tabulated _ payload (by decide +kernel) (by decide +kernel)
      (by simp [recordedSignatures])⟩⟩

/-- The state of the recorded document. -/
theorem recordedDocument_initial : fromDocument recordedPrimitives recordedDocument =
    .ok (introduced recordedDocument 1787443200) :=
  (fromDocument_ok_iff ..).mpr
    ⟨(verifyIdentityDocument_iff _).mpr recordedDocument_verified, _, rfl, rfl⟩

/-- The first recorded key. -/
def recordedKey : OperationalKeyState :=
  { keyId := recordedDocument.operationalKeyId, publicKey := recordedDocument.operationalPublicKey,
    validFrom := 1787443200, validUntil := none, status := .active }

/-- The first recorded rotation is accepted. -/
theorem recordedFirst_accepted : RotationAccepted recordedPrimitives
    (introduced recordedDocument 1787443200) recordedFirst recordedKey 1787443800 1787446800 := by
  have only : ∀ id key, (introduced recordedDocument 1787443200).operationalKeys.get? id =
      some key → id = recordedDocument.operationalKeyId ∧ key = recordedKey := by
    intro id key known
    simp only [introduced, OrderedMap.get?_insert, OrderedMap.get?_empty] at known
    split_ifs at known with here
    exact ⟨here, (Option.some.inj known).symm⟩
  refine ⟨rfl, rfl, rfl, rfl, by decide, by decide, ?_, rfl, rfl, by decide,
    by decide, apart_of_keys fun id key known => ?_, OrderedMap.get?_insert_self .., by decide,
    transition_signed rfl rfl rfl (by decide +kernel) (by decide +kernel) (by decide +kernel)
      (by decide +kernel)⟩
  · cases known : (introduced recordedDocument 1787443200).operationalKeys.get?
        recordedFirst.nextKeyId with
    | none => rfl
    | some key => exact absurd (only _ key known).1 (by decide)
  · obtain ⟨-, rfl⟩ := only id key known
    decide

/-- The state after the first recorded rotation. -/
def recordedState : IdentityState :=
  rotated (introduced recordedDocument 1787443200) recordedFirst recordedKey 1787443800 1787446800

/-- The second recorded key. -/
def recordedNextKey : OperationalKeyState :=
  { keyId := recordedFirst.nextKeyId, publicKey := recordedFirst.nextPublicKey,
    validFrom := 1787443800, validUntil := none, status := .active }

/-- The keys after the first recorded rotation. -/
theorem recordedState_keys {id : String} {key : OperationalKeyState}
    (known : recordedState.operationalKeys.get? id = some key) :
    (id = recordedFirst.nextKeyId ∧ key = recordedNextKey) ∨
      (id = recordedDocument.operationalKeyId ∧
        key = { recordedKey with validUntil := some 1787446800 }) := by
  simp only [recordedState, rotated, introduced, OrderedMap.get?_insert, OrderedMap.get?_empty]
    at known
  split_ifs at known with new old older
  · exact .inl ⟨new, (Option.some.inj known).symm⟩
  · exact .inr ⟨old, (Option.some.inj known).symm⟩
  · exact absurd older old

/-- The second recorded rotation is accepted. -/
theorem recordedSecond_accepted : RotationAccepted recordedPrimitives recordedState recordedSecond
    recordedNextKey 1787446800 1787450400 := by
  refine ⟨rfl, rfl, rfl, rfl, by decide, by decide, ?_, rfl, rfl, by decide,
    by decide, apart_of_keys fun id key known => ?_, OrderedMap.get?_insert_self .., by decide,
    transition_signed rfl rfl rfl (by decide +kernel) (by decide +kernel) (by decide +kernel)
      (by decide +kernel)⟩
  · cases known : recordedState.operationalKeys.get? recordedSecond.nextKeyId with
    | none => rfl
    | some key =>
      rcases recordedState_keys known with ⟨same, -⟩ | ⟨same, -⟩
      · exact absurd same (by decide)
      · exact absurd same (by decide)
  · rcases recordedState_keys known with ⟨-, rfl⟩ | ⟨-, rfl⟩ <;> decide

/-- The recorded document leads to the state after the first recorded rotation. -/
theorem recordedState_extends : Extends recordedPrimitives (introduced recordedDocument 1787443200)
    recordedState :=
  .single ⟨.rotation recordedFirst,
    (applyRotation_ok_iff ..).mpr ⟨_, _, _, recordedFirst_accepted, rfl⟩⟩

/-- The state of the recorded document is reachable. -/
theorem recordedDocument_reachable :
    Reachable recordedPrimitives (introduced recordedDocument 1787443200) :=
  ⟨recordedDocument, _, recordedDocument_initial, .refl⟩

/-- The recorded declaration is accepted in the state of the recorded document. -/
theorem recordedCompromise_accepted : StatusAccepted recordedPrimitives
    (introduced recordedDocument 1787443200) recordedCompromise recordedKey 1787443500 := by
  obtain ⟨payload, encoded⟩ := canonicalJson_of_check recordedPrimitives
    (keyStatusPayload recordedCompromise) (by decide) (by decide) (by decide)
  exact ⟨rfl, rfl, rfl, by decide, rfl, OrderedMap.get?_insert_self .., by decide,
    ⟨payload, encoded, verifySignature_tabulated _ payload (by decide +kernel) (by decide +kernel)
      (by simp [recordedSignatures, introduced])⟩⟩

end Identity

end QsolFed
