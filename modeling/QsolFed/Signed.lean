import QsolFed.Encoding

/-!
# Signed envelopes on the wire

A signed envelope is accepted from its canonical bytes only, and what was written is accepted
again. The identifier of an envelope is the digest of the canonical bytes of all its other
members: while no two digested texts collide, it stands for one envelope.
-/
namespace QsolFed

open Checked Json Canonical Crypto

variable (primitives : Primitives)

namespace Crypto

/-- The identifier of a key and a signature have their shape. -/
def validateKeyIdAndSignatureShape (keyId signature : String) : Except CryptoError Unit := do
  ensure ((Text.bytes "ed25519:").isPrefixOf (Text.bytes keyId) ∧
    (Text.bytes keyId).length = 72) (.code "invalid_key_id")
  let _ ← Digest.decodeFixedHex 32 (String.ofList (keyId.toList.drop 8))
  let _ ← Digest.decodeFixedHex 64 signature

end Crypto

namespace SignedEnvelope

/-- The canonical bytes of a signed envelope. -/
def toWire (signed : SignedEnvelope) : Except CryptoError ByteArray :=
  canonicalJson primitives (Codecs.signedEnvelope.encode signed)

/-- The signed envelope of its canonical bytes. -/
def fromWire (raw : ByteArray) : Except CryptoError SignedEnvelope := do
  let canonical ← (canonicalize primitives.unicode raw).mapError .canonical
  ensure (canonical = raw) (.code "signed_envelope_bytes_not_canonical")
  let signed ← okOr (fromSlice Codecs.signedEnvelope raw) (.code "signed_envelope_schema")
  ensure (signed.schema = signedEnvelopeSchemaV1 ∧ signed.nodeId = signed.envelope.sender ∧
    (validateKeyIdAndSignatureShape signed.keyId signed.signature).isOk)
    (.code "signed_envelope_shape_invalid")
  let _ ← canonicalEnvelopeBytes primitives signed.envelope
  pure signed

end SignedEnvelope

namespace FederationEnvelope

/-- The grammars of the fields of an envelope. -/
structure Shaped (envelope : FederationEnvelope) : Prop where
  /-- The protocol is the one that this version speaks. -/
  protocol : envelope.protocol = protocolV1
  /-- The identifier is a reference. -/
  messageId : Wire.isSha256Ref envelope.messageId = true
  /-- The sender is a node. -/
  sender : Wire.isNodeId envelope.sender = true
  /-- The recipient is a node. -/
  recipient : Wire.isNodeId envelope.recipient = true
  /-- The payload is a reference. -/
  payloadRef : Wire.isSha256Ref envelope.payloadRef = true
  /-- The provenance is a reference. -/
  provenanceRef : ∀ text ∈ envelope.provenanceRef, Wire.isSha256Ref text = true
  /-- The time of issue is a timestamp. -/
  issuedAt : Wire.isWireTimestamp envelope.issuedAt = true
  /-- The expiry is a timestamp. -/
  expiresAt : ∀ text ∈ envelope.expiresAt, Wire.isWireTimestamp text = true

/-- The shape check passes exactly when every field has its grammar. -/
theorem validateShape_iff (envelope : FederationEnvelope) :
    envelope.validateShape = true ↔ envelope.Shaped := by
  simp only [validateShape, hasSupportedWireProtocol, Bool.and_eq_true, decide_eq_true_eq,
    Option.all_eq_true]
  exact ⟨fun ⟨⟨⟨⟨⟨⟨⟨a, b⟩, c⟩, d⟩, e⟩, f⟩, g⟩, h⟩ => ⟨a, b, c, d, e, f, g, h⟩,
    fun ⟨a, b, c, d, e, f, g, h⟩ => ⟨⟨⟨⟨⟨⟨⟨a, b⟩, c⟩, d⟩, e⟩, f⟩, g⟩, h⟩⟩

/-- A well-shaped envelope is plain. -/
theorem Shaped.plain {envelope : FederationEnvelope} (shaped : envelope.Shaped) :
    Plain (Codecs.envelope.encode envelope) := by
  have protocol : PlainText envelope.protocol := shaped.protocol ▸ plainText_of_check (by decide)
  refine plain_record Codecs.envelopeFields (by decide) _ (by decide) (by decide) ?_
  simp only [Codecs.envelopeFields, Fields.required, Fields.cons, Fields.nil, List.map_cons,
    List.map_nil, List.forall_mem_cons, List.not_mem_nil, false_imp_iff, implies_true, and_true]
  exact ⟨protocol, plainText_of_sha256Ref shaped.messageId, plainText_of_nodeId shaped.sender,
    plainText_of_nodeId shaped.recipient,
    plain_of_check _ (by cases envelope.messageClass <;> decide),
    plainText_of_sha256Ref shaped.payloadRef,
    plain_nullable fun text present => plainText_of_sha256Ref (shaped.provenanceRef text present),
    plainText_of_wireTimestamp shaped.issuedAt,
    plain_nullable fun text present => plainText_of_wireTimestamp (shaped.expiresAt text present),
    plain_of_check _ (by cases envelope.authorityClaim; decide), trivial⟩

/-- An envelope nests one object. -/
theorem nesting_encode (envelope : FederationEnvelope) :
    (Codecs.envelope.encode envelope).nesting < maxDepth := by
  cases envelope with
  | mk protocol messageId sender recipient messageClass payloadRef provenanceRef issuedAt expiresAt =>
    cases provenanceRef <;> cases expiresAt <;> exact Nat.le_of_ble_eq_true rfl

end FederationEnvelope

/-! ## Message identifiers -/

namespace Digest

/-- The bytes that the identifier of an envelope digests. -/
def messageIdInput (rawEnvelope : ByteArray) : Except CanonicalError ByteArray := do
  let value ← parseCanonicalValue primitives.unicode rawEnvelope
  match value with
  | ⟨.object members, ordered⟩ =>
    ensure ((Entries.find "message_id" members).isSome ∧
      (Entries.find "signature" members).isSome) (.code "envelope_projection_fields_missing")
    let text ← serializeCanonical primitives.unicode
      ⟨.object (projection members), projection_ordered ordered⟩
    pure (messageIdDomain.toByteArray ++ text.toByteArray)
  | _ => .error (.code "envelope_must_be_object")

/-- The identifier of an envelope is the digest of those bytes. -/
theorem deriveMessageId_eq (rawEnvelope : ByteArray) : deriveMessageId primitives rawEnvelope =
    (messageIdInput primitives rawEnvelope).map (sha256Ref primitives) := by
  unfold deriveMessageId messageIdInput
  cases parseCanonicalValue primitives.unicode rawEnvelope with
  | error => rfl
  | ok value =>
    obtain ⟨node, ordered⟩ := value
    cases node with
    | object members =>
      simp only [bind_ok]
      by_cases present : (Entries.find "message_id" members).isSome ∧
          (Entries.find "signature" members).isSome
      · simp only [ensure_pos present, bind_ok]
        cases serializeCanonical primitives.unicode
          ⟨.object (projection members), projection_ordered ordered⟩ <;> rfl
      · simp only [ensure_neg present, bind_error]
        rfl
    | null | bool | integer | string | array => rfl

/-- References to digests are equal exactly when the digests are. -/
theorem sha256Ref_inj {first second : ByteArray} :
    sha256Ref primitives first = sha256Ref primitives second ↔
      primitives.sha256 first = primitives.sha256 second := by
  constructor
  · intro same
    unfold sha256Ref at same
    have texts := congrArg Text.bytes same
    rw [Text.bytes_append, Text.bytes_append] at texts
    have digits := Text.bytes_injective (List.append_cancel_left texts)
    exact ByteArray.ext (Array.ext' (lowercaseHex_inj digits))
  · intro same
    rw [sha256Ref, sha256Ref, same]

/-- The members that an identifier covers are normal when all members are. -/
theorem projection_normal {unicode : Unicode} {members : List (String × Node)}
    (normal : (Node.object members).Normal unicode)
    (fits : (Node.object members).height ≤ maxDepth) :
    (Node.object (projection members)).Normal unicode ∧
      (Node.object (projection members)).height ≤ maxDepth := by
  obtain ⟨few, sorted, each⟩ := normal
  refine ⟨⟨(List.length_filter_le _ _).trans few, sorted.filter _, ?_⟩, ?_⟩
  · rw [Node.normalMembers_iff] at each ⊢
    exact fun member kept => each member (List.mem_of_mem_filter kept)
  · have bound : Node.heightMembers members ≤ maxDepth - 1 := Nat.le_sub_one_of_lt fits
    rw [Node.heightMembers_le_iff] at bound
    have kept : Node.heightMembers (projection members) ≤ maxDepth - 1 :=
      (Node.heightMembers_le_iff _ _).mpr fun member kept =>
        bound member (List.mem_of_mem_filter kept)
    have positive : 1 ≤ maxDepth := by decide
    simp only [Node.height]
    omega

/-- What an identifier digests is the text of the members that it covers. -/
theorem messageIdInput_covers {primitives : Primitives} {raw input : ByteArray}
    {value : CanonicalValue} (read : parseCanonicalValue primitives.unicode raw = .ok value)
    (computed : messageIdInput primitives raw = .ok input) :
    ∃ members, value.node = .object members ∧ ∃ text : String,
      input = messageIdDomain.toByteArray ++ text.toByteArray ∧
      parseNode primitives.unicode text.toByteArray = .ok (.object (projection members)) := by
  obtain ⟨normal, fits⟩ := parseCanonicalValue_normal read
  obtain ⟨node, ordered⟩ := value
  cases node with
  | null | bool | integer | string | array => simp [messageIdInput, read] at computed
  | object members =>
    obtain ⟨normalPart, fitsPart⟩ := projection_normal normal fits
    simp only [messageIdInput, read, bind_ok, bind_ok_iff, pure_ok_iff] at computed
    obtain ⟨-, -, text, written, rfl⟩ := computed
    have short := (serializeCanonical_ok written).2.2.2
    simp only [serializeCanonical, Node.normalizeConstructed_normal _ 1 normalPart
      (show 1 + _ ≤ maxDepth + 1 by omega), bind_ok, bind_ok_iff, pure_ok_iff] at written
    obtain ⟨-, -, rfl⟩ := written
    exact ⟨members, rfl, _, rfl, parseNode_serializeInto normalPart fitsPart short⟩

/-- Members are determined by what an identifier covers, the identifier and the signature. -/
theorem eq_of_projection {members others : List (String × Node)}
    (sorted : Entries.Sorted members) (sortedOther : Entries.Sorted others)
    (covered : projection members = projection others)
    (identifier : Entries.find "message_id" members = Entries.find "message_id" others)
    (signature : Entries.find "signature" members = Entries.find "signature" others) :
    members = others := by
  have kept : ∀ entries : List (String × Node), Entries.Sorted entries → ∀ key,
      key ≠ "message_id" → key ≠ "signature" →
      Entries.find key (projection entries) = Entries.find key entries := by
    intro entries sorted key notId notSignature
    rw [projection, Entries.find_filter sorted]
    cases Entries.find key entries <;> simp [notId, notSignature]
  refine Entries.ext_find sorted sortedOther fun key => ?_
  by_cases isId : key = "message_id"
  · rw [isId, identifier]
  · by_cases isSignature : key = "signature"
    · rw [isSignature, signature]
    · rw [← kept members sorted key isId isSignature, covered,
        kept others sortedOther key isId isSignature]

end Digest

namespace FederationEnvelope

/-- An envelope with the members of its canonical form and the bytes that its identifier
digests. -/
structure Identified (primitives : Primitives) (envelope : FederationEnvelope)
    (members : List (String × Node)) (input : ByteArray) : Prop where
  /-- The members are those of the envelope in another order. -/
  same : Reorders (Codecs.envelope.encode envelope) (Node.object members).toJson
  /-- The members are in order. -/
  sorted : Entries.Sorted members
  /-- The members without the identifier and the signature are read back from the bytes. -/
  covers : ∃ text : String, input = Digest.messageIdDomain.toByteArray ++ text.toByteArray ∧
    parseNode primitives.unicode text.toByteArray =
      .ok (.object (Digest.projection members))
  /-- The identifier is the digest. -/
  digest : Digest.sha256Ref primitives input = envelope.messageId

/-- Canonical bytes of an envelope exist only when its identifier is that of its members. -/
theorem identified {primitives : Primitives} {envelope : FederationEnvelope} {canonical : ByteArray}
    (encoded : canonicalEnvelopeBytes primitives envelope = .ok canonical) :
    ∃ members input, Digest.messageIdInput primitives canonical = .ok input ∧
      Identified primitives envelope members input := by
  simp only [canonicalEnvelopeBytes, bind_ok_iff, ensure_ok_iff, exists_const, pure_ok_iff,
    mapError_ok_iff] at encoded
  obtain ⟨shape, _, bytes, derived, identifier, rfl, rfl⟩ := encoded
  have shaped := (validateShape_iff envelope).mp shape
  rw [canonicalJson_ok_iff] at bytes
  obtain ⟨node, visited, accepted, same, -, normal, fits, parsed⟩ := canonicalize_plain
    primitives.unicode shaped.plain (nesting_encode envelope)
    (canonicalize_short bytes)
  obtain rfl := Except.ok.inj (bytes.symm.trans accepted)
  cases node with
  | null | bool | integer | string | array => cases same
  | object members =>
    rw [Digest.deriveMessageId_eq, map_ok_iff] at identifier
    obtain ⟨input, computed, digest⟩ := identifier
    have read := (parseCanonicalValue_ok_iff primitives.unicode _
      ⟨.object members, parseNode_ordered _ parsed⟩).mpr parsed
    obtain ⟨others, isObject, covers⟩ := Digest.messageIdInput_covers read computed
    cases isObject
    exact ⟨members, input, computed, same, normal.2.1, covers, digest⟩

/-- A member of an envelope is found in its canonical form. -/
theorem Identified.find {primitives : Primitives} {envelope : FederationEnvelope}
    {members : List (String × Node)} {input : ByteArray}
    (identified : Identified primitives envelope members input) (name : String)
    (item : Value String) (member : (name, item) ∈ Codecs.envelopeFields.encode
      (envelope.protocol, envelope.messageId, envelope.sender, envelope.recipient,
        envelope.messageClass, envelope.payloadRef, envelope.provenanceRef, envelope.issuedAt,
        envelope.expiresAt, envelope.authorityClaim, envelope.signature, ())) :
    ∃ node, Entries.find name members = some node ∧ Reorders item node.toJson := by
  have same := identified.same
  simp only [Codecs.envelope, Codec.iso, Codec.record, Node.toJson, toJsonMembers_eq_map] at same
  cases same with
  | object keys each order =>
    have distinct : ((members.map fun entry => (entry.1, entry.2.toJson)).map Prod.fst).Nodup := by
      rw [List.map_map]
      exact identified.sorted.nodup
    obtain ⟨other, found, reorders⟩ := find_reorders keys each order distinct member
    obtain ⟨⟨_, node⟩, listed, same⟩ := List.mem_map.mp (Entries.mem_of_find found)
    obtain ⟨rfl, rfl⟩ := Prod.mk.inj same
    exact ⟨node, Entries.find_of_mem identified.sorted.nodup listed, reorders⟩

/-- An identifier stands for one envelope: envelopes with the same identifier whose digested bytes
are the same are equal. -/
theorem Identified.unique {primitives : Primitives} {first second : FederationEnvelope}
    {members others : List (String × Node)} {input : ByteArray}
    (one : Identified primitives first members input)
    (two : Identified primitives second others input) : first = second := by
  have identifier : first.messageId = second.messageId := one.digest.symm.trans two.digest
  have covered : Digest.projection members = Digest.projection others := by
    obtain ⟨text, whole, parsed⟩ := one.covers
    obtain ⟨other, wholeOther, parsedOther⟩ := two.covers
    have same : text.toByteArray = other.toByteArray :=
      ByteArray.append_right_inj _ |>.mp (whole.symm.trans wholeOther)
    rw [same, parsedOther] at parsed
    exact (Node.object.inj (Except.ok.inj parsed)).symm
  have whole : members = others := by
    refine Digest.eq_of_projection one.sorted two.sorted covered ?_ ?_
    · obtain ⟨node, found, reorders⟩ := one.find "message_id"
        (.string first.messageId) (by simp [Codecs.envelopeFields, Fields.cons, Codec.string])
      obtain ⟨other, foundOther, reordersOther⟩ := two.find "message_id"
        (.string second.messageId) (by simp [Codecs.envelopeFields, Fields.cons, Codec.string])
      rw [found, foundOther]
      cases node <;> cases reorders
      cases other <;> cases reordersOther
      rw [identifier]
    · obtain ⟨node, found, reorders⟩ := one.find "signature" .null
        (by simp [Codecs.envelopeFields, Fields.cons, Codec.unit])
      obtain ⟨other, foundOther, reordersOther⟩ := two.find "signature" .null
        (by simp [Codecs.envelopeFields, Fields.cons, Codec.unit])
      rw [found, foundOther]
      cases node <;> cases reorders
      cases other <;> cases reordersOther
      rfl
  subst whole
  exact Option.some.inj ((Codecs.envelope.roundtrip first _ one.same).symm.trans
    (Codecs.envelope.roundtrip second _ two.same))

/-- The canonical bytes of an envelope in shape, and what its identifier has to digest, when its
members are known. -/
theorem messageIdInput_of_visit {primitives : Primitives} {envelope : FederationEnvelope}
    {members : List (String × Node)} (shaped : envelope.Shaped)
    (visited : visit primitives.unicode (Codecs.envelope.encode envelope) = .ok (.object members))
    (short : sizeBound (Codecs.envelope.encode envelope) ≤ maxInputBytes)
    (shortPart : sizeBound (Node.object (Digest.projection members)).toJson ≤ maxInputBytes)
    (present : ((Entries.find "message_id" members).isSome ∧
      (Entries.find "signature" members).isSome)) :
    canonicalize primitives.unicode (toVec Codecs.envelope envelope) =
        .ok (writtenBytes (Node.object members).toJson) ∧
      Digest.messageIdInput primitives (writtenBytes (Node.object members).toJson) =
        .ok (Digest.messageIdDomain.toByteArray ++
          writtenBytes (Node.object (Digest.projection members)).toJson) := by
  obtain ⟨node, visitedNode, accepted, same, -, normal, fits, parsed⟩ := canonicalize_plain
    primitives.unicode shaped.plain (nesting_encode envelope)
    ((size_writtenBytes_le _).trans short)
  obtain rfl := Except.ok.inj (visited.symm.trans visitedNode)
  obtain ⟨normalPart, fitsPart⟩ := Digest.projection_normal normal fits
  have read := (parseCanonicalValue_ok_iff primitives.unicode _
    ⟨.object members, parseNode_ordered _ parsed⟩).mpr parsed
  have text : serializeInto (.object (Digest.projection members)) =
    print (Node.object (Digest.projection members)).toJson := Node.serializeInto_eq _
  have size : (String.ofList (serializeInto (.object (Digest.projection members)))).utf8ByteSize ≤
      maxInputBytes := by
    rw [text]
    exact (size_writtenBytes_le _).trans shortPart
  refine ⟨accepted, ?_⟩
  simp only [Digest.messageIdInput, read, bind_ok, ensure_pos present]
  rw [serializeCanonical_normal ⟨.object (Digest.projection members), _⟩ normalPart
    fitsPart size, bind_ok, text]
  rfl

/-- The bytes of an envelope whose canonical form and identifier are known. -/
theorem canonicalEnvelopeBytes_of_visit {primitives : Primitives} {envelope : FederationEnvelope}
    {members : List (String × Node)} (shape : envelope.validateShape = true)
    (visited : visit primitives.unicode (Codecs.envelope.encode envelope) = .ok (.object members))
    (short : sizeBound (Codecs.envelope.encode envelope) ≤ maxInputBytes)
    (shortPart : sizeBound (Node.object (Digest.projection members)).toJson ≤ maxInputBytes)
    (present : ((Entries.find "message_id" members).isSome ∧
      (Entries.find "signature" members).isSome))
    (digest : Digest.sha256Ref primitives (Digest.messageIdDomain.toByteArray ++
      writtenBytes (Node.object (Digest.projection members)).toJson) = envelope.messageId) :
    ∃ canonical, canonicalEnvelopeBytes primitives envelope = .ok canonical := by
  obtain ⟨accepted, input⟩ := messageIdInput_of_visit ((validateShape_iff envelope).mp shape)
    visited short shortPart present
  have bytes : canonicalJson primitives (Codecs.envelope.encode envelope) =
      .ok (writtenBytes (Node.object members).toJson) :=
    (canonicalJson_ok_iff ..).mpr accepted
  refine ⟨writtenBytes (Node.object members).toJson, ?_⟩
  simp only [canonicalEnvelopeBytes, ensure_pos shape, bind_ok, bytes, Digest.deriveMessageId_eq,
    input, Except.map, Except.mapError, digest]
  rfl

end FederationEnvelope

/-! ## Writing and reading -/

/-- Canonical bytes are their own canonical bytes. -/
theorem canonicalize_canonicalJson {primitives : Primitives} {value : Value String}
    {raw : ByteArray} (written : canonicalJson primitives value = .ok raw) :
    canonicalize primitives.unicode raw = .ok raw :=
  canonicalize_canonical ((canonicalJson_ok_iff ..).mp written)

/-- A signed envelope that was written is accepted again. -/
theorem SignedEnvelope.fromWire_toWire {primitives : Primitives} {signed : SignedEnvelope}
    {raw canonical : ByteArray} (written : signed.toWire primitives = .ok raw)
    (plain : Plain (Codecs.signedEnvelope.encode signed))
    (shallow : (Codecs.signedEnvelope.encode signed).nesting < maxDepth)
    (schema : signed.schema = signedEnvelopeSchemaV1)
    (node : signed.nodeId = signed.envelope.sender)
    (shape : validateKeyIdAndSignatureShape signed.keyId signed.signature = .ok ())
    (envelope : canonicalEnvelopeBytes primitives signed.envelope = .ok canonical) :
    fromWire primitives raw = .ok signed := by
  have read := fromSlice_canonical primitives.unicode Codecs.signedEnvelope signed
    plain shallow ((canonicalJson_ok_iff ..).mp written)
  have shaped : signed.schema = signedEnvelopeSchemaV1 ∧ signed.nodeId = signed.envelope.sender ∧
      (validateKeyIdAndSignatureShape signed.keyId signed.signature).isOk = true :=
    ⟨schema, node, by rw [shape]; rfl⟩
  simp only [fromWire, canonicalize_canonicalJson written, Except.mapError, bind_ok, ensure_pos,
    read, okOr, ensure_pos shaped, envelope]
  rfl

end QsolFed
