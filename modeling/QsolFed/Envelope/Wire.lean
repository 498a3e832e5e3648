import QsolFed.Canonical.Reordered
import QsolFed.Encoding.Size
import QsolFed.Signed

/-!
# Envelopes on the wire

An envelope is read from its canonical bytes, and its identifier has to be the digest of the other
members. What the identifier digests does not depend on the identifier, so that every envelope in
shape can be given its own.
-/
namespace QsolFed

open Checked Json Canonical

namespace Wire

/-- Bytes that are their own canonical bytes. -/
def requireCanonicalWire (primitives : Primitives) (raw : ByteArray) :
    Except CanonicalError ByteArray := do
  let canonical ← canonicalize primitives.unicode raw
  ensure (canonical = raw) (.code "wire_bytes_not_canonical")
  pure canonical

end Wire

namespace FederationEnvelope

/-- The envelope of its canonical bytes. -/
def fromWire (primitives : Primitives) (raw : ByteArray) :
    Except CanonicalError FederationEnvelope := do
  let canonical ← Wire.requireCanonicalWire primitives raw
  let envelope ← okOr (fromSlice Codecs.envelope canonical) (.code "envelope_schema")
  ensure envelope.validateShape (.code "envelope_shape_invalid")
  let derived ← Digest.deriveMessageId primitives canonical
  ensure (envelope.messageId = derived) (.code "message_id_mismatch")
  pure envelope

/-! ## The tree of an envelope -/

/-- The tree of a text that may be absent. -/
def optionalNode : Option String → Node
  | some text => .string text
  | none => .null

/-- The members of an envelope, in order. -/
def nodes (envelope : FederationEnvelope) : List (String × Node) := [
  ("authority_claim", .string "none"),
  ("expires_at", optionalNode envelope.expiresAt),
  ("issued_at", .string envelope.issuedAt),
  ("message_class", .string envelope.messageClass.name),
  ("message_id", .string envelope.messageId),
  ("payload_ref", .string envelope.payloadRef),
  ("protocol", .string envelope.protocol),
  ("provenance_ref", optionalNode envelope.provenanceRef),
  ("recipient", .string envelope.recipient),
  ("sender", .string envelope.sender),
  ("signature", .null)]

/-- The name of a class is plain. -/
theorem plainText_name (messageClass : MessageClass) : PlainText messageClass.name := by
  cases messageClass <;> exact plainText_of_check (by decide)

variable {envelope : FederationEnvelope}

/-- The visitor reads an envelope in shape as its members in order. -/
theorem visit_encode (unicode : Unicode) (shaped : envelope.Shaped) :
    visit unicode (Codecs.envelope.encode envelope) = .ok (.object envelope.nodes) := by
  have key : ∀ text, isPlainText text = true → normalizeString unicode text = .ok text :=
    fun text checked => normalizeString_clean ((plainText_of_check checked).clean unicode)
  have text : ∀ text, PlainText text → normalizeString unicode text = .ok text :=
    fun text plain => normalizeString_clean (plain.clean unicode)
  have optional : ∀ value : Option String, (∀ text ∈ value, PlainText text) →
      visit unicode (Codecs.nullableString.encode value) = .ok (optionalNode value) := by
    intro value plain
    cases value with
    | none => rfl
    | some value =>
      change visit unicode (.string value) = _
      rw [visit, text value (plain value rfl)]
      rfl
  have protocol := text envelope.protocol (shaped.protocol ▸ plainText_of_check (by decide))
  have messageId := text _ (plainText_of_sha256Ref shaped.messageId)
  have sender := text _ (plainText_of_nodeId shaped.sender)
  have recipient := text _ (plainText_of_nodeId shaped.recipient)
  have name := text _ (plainText_name envelope.messageClass)
  have payload := text _ (plainText_of_sha256Ref shaped.payloadRef)
  have issued := text _ (plainText_of_wireTimestamp shaped.issuedAt)
  have provenance := optional _ fun text present =>
    plainText_of_sha256Ref (shaped.provenanceRef text present)
  have expires := optional _ fun text present =>
    plainText_of_wireTimestamp (shaped.expiresAt text present)
  change visit unicode (.object [("protocol", .string envelope.protocol),
    ("message_id", .string envelope.messageId), ("sender", .string envelope.sender),
    ("recipient", .string envelope.recipient),
    ("message_class", .string envelope.messageClass.name),
    ("payload_ref", .string envelope.payloadRef),
    ("provenance_ref", Codecs.nullableString.encode envelope.provenanceRef),
    ("issued_at", .string envelope.issuedAt),
    ("expires_at", Codecs.nullableString.encode envelope.expiresAt),
    ("authority_claim", .string "none"), ("signature", .null)]) = _
  simp only [visit, visitMap, protocol, messageId, sender, recipient, name, payload, issued,
    provenance, expires, key "protocol" (by decide), key "message_id" (by decide),
    key "sender" (by decide), key "recipient" (by decide), key "message_class" (by decide),
    key "payload_ref" (by decide), key "provenance_ref" (by decide), key "issued_at" (by decide),
    key "expires_at" (by decide), key "authority_claim" (by decide), key "signature" (by decide),
    key "none" (by decide), bind_ok]
  rfl

/-- An envelope in shape is small, with its identifier or without. -/
theorem size_encode (shaped : envelope.Shaped) :
    sizeBound (Codecs.envelope.encode envelope) ≤ maxInputBytes ∧
      sizeBound (Node.object (Digest.projection envelope.nodes)).toJson ≤ maxInputBytes := by
  have reference : ∀ text, Wire.isSha256Ref text = true → text.utf8ByteSize = 71 :=
    fun text shape => (Text.length_bytes text).symm.trans (Wire.sha256Ref_length shape)
  have time : ∀ text, Wire.isWireTimestamp text = true → text.utf8ByteSize = 20 :=
    fun text shape => (Text.length_bytes text).symm.trans (Wire.wireTimestamp_length shape)
  have node : ∀ text, Wire.isNodeId text = true → text.utf8ByteSize ≤ 137 :=
    fun text shape => (Text.length_bytes text).symm.trans_le (nodeId_bytes shape).1
  have name : envelope.messageClass.name.utf8ByteSize ≤ 20 := by
    cases envelope.messageClass <;> decide
  have optional : ∀ value : Option String, (∀ text ∈ value, text.utf8ByteSize ≤ 71) →
      sizeBound (Codecs.nullableString.encode value) ≤ 428 ∧
        sizeBound (optionalNode value).toJson ≤ 428 := by
    intro value short
    cases value with
    | none => exact ⟨by decide, by decide⟩
    | some text =>
      have small := short text rfl
      have bound : 6 * text.utf8ByteSize + 2 ≤ 428 := by omega
      exact ⟨bound, bound⟩
  have messageId := reference _ shaped.messageId
  have payload := reference _ shaped.payloadRef
  have sender := node _ shaped.sender
  have recipient := node _ shaped.recipient
  have issued := time _ shaped.issuedAt
  have provenance := optional envelope.provenanceRef fun text present =>
    (reference text (shaped.provenanceRef text present)).le
  have expires := optional envelope.expiresAt fun text present =>
    (time text (shaped.expiresAt text present)).le.trans (by decide)
  have protocol : envelope.protocol.utf8ByteSize = 10 := shaped.protocol ▸ rfl
  have most : maxInputBytes = 65536 := rfl
  have names : "protocol".utf8ByteSize ≤ 20 ∧ "message_id".utf8ByteSize ≤ 20 ∧
      "sender".utf8ByteSize ≤ 20 ∧ "recipient".utf8ByteSize ≤ 20 ∧
      "message_class".utf8ByteSize ≤ 20 ∧ "payload_ref".utf8ByteSize ≤ 20 ∧
      "provenance_ref".utf8ByteSize ≤ 20 ∧ "issued_at".utf8ByteSize ≤ 20 ∧
      "expires_at".utf8ByteSize ≤ 20 ∧ "authority_claim".utf8ByteSize ≤ 20 ∧
      "signature".utf8ByteSize ≤ 20 ∧ "none".utf8ByteSize ≤ 20 := by decide
  constructor
  · change sizeBoundMembers [("protocol", .string envelope.protocol),
      ("message_id", .string envelope.messageId), ("sender", .string envelope.sender),
      ("recipient", .string envelope.recipient),
      ("message_class", .string envelope.messageClass.name),
      ("payload_ref", .string envelope.payloadRef),
      ("provenance_ref", Codecs.nullableString.encode envelope.provenanceRef),
      ("issued_at", .string envelope.issuedAt),
      ("expires_at", Codecs.nullableString.encode envelope.expiresAt),
      ("authority_claim", .string "none"), ("signature", .null)] + 2 ≤ _
    simp only [sizeBoundMembers]
    simp only [sizeBound] at provenance expires ⊢
    omega
  · change sizeBoundMembers [("authority_claim", .string "none"),
      ("expires_at", (optionalNode envelope.expiresAt).toJson),
      ("issued_at", .string envelope.issuedAt),
      ("message_class", .string envelope.messageClass.name),
      ("payload_ref", .string envelope.payloadRef), ("protocol", .string envelope.protocol),
      ("provenance_ref", (optionalNode envelope.provenanceRef).toJson),
      ("recipient", .string envelope.recipient), ("sender", .string envelope.sender)] + 2 ≤ _
    simp only [sizeBoundMembers]
    simp only [sizeBound] at provenance expires ⊢
    omega

/-- What the identifier of an envelope digests. -/
def digestInput (envelope : FederationEnvelope) : ByteArray :=
  Digest.messageIdDomain.toByteArray ++
    writtenBytes (Node.object (Digest.projection envelope.nodes)).toJson

/-- An envelope in shape has canonical bytes, from which its identifier is derived. -/
theorem encode_total (primitives : Primitives) (shaped : envelope.Shaped) : ∃ canonical,
    canonicalize primitives.unicode (toVec Codecs.envelope envelope) = .ok canonical ∧
    Digest.deriveMessageId primitives canonical =
      .ok (Digest.sha256Ref primitives envelope.digestInput) := by
  obtain ⟨short, shortPart⟩ := size_encode shaped
  obtain ⟨encoded, input⟩ := messageIdInput_of_visit shaped
    (visit_encode primitives.unicode shaped) short shortPart ⟨rfl, rfl⟩
  refine ⟨_, encoded, ?_⟩
  rw [Digest.deriveMessageId_eq, input]
  rfl

/-- The identifier does not digest itself. -/
theorem digestInput_messageId (messageId : String) :
    { envelope with messageId := messageId }.digestInput = envelope.digestInput := rfl

/-- An envelope in shape is read from its canonical bytes exactly when it has its own
identifier. -/
theorem fromWire_encode_iff {primitives : Primitives} (shaped : envelope.Shaped)
    {canonical : ByteArray}
    (encoded : canonicalize primitives.unicode (toVec Codecs.envelope envelope) = .ok canonical)
    (result : FederationEnvelope) :
    fromWire primitives canonical = .ok result ↔ result = envelope ∧
      envelope.messageId = Digest.sha256Ref primitives envelope.digestInput := by
  obtain ⟨again, same, derived⟩ := encode_total primitives shaped
  rw [Except.ok.inj (same.symm.trans encoded)] at derived
  have read := fromSlice_canonical primitives.unicode Codecs.envelope envelope shaped.plain
    (nesting_encode envelope) encoded
  have wire : Wire.requireCanonicalWire primitives canonical = .ok canonical := by
    simp only [Wire.requireCanonicalWire, canonicalize_canonical encoded, bind_ok, ensure_pos]
    rfl
  rw [fromWire, wire, bind_ok, read]
  simp only [okOr, bind_ok, ensure_pos ((validateShape_iff envelope).mpr shaped), derived,
    bind_ok_iff, ensure_ok_iff, pure_ok_iff, exists_const]
  constructor
  · rintro ⟨identifier, rfl⟩
    exact ⟨rfl, identifier⟩
  · rintro ⟨rfl, identifier⟩
    exact ⟨identifier, rfl⟩

/-- An envelope of which the identifier is a reference can be given its own identifier. -/
theorem Shaped.withId (shaped : envelope.Shaped) (primitives : Primitives) :
    { envelope with
      messageId := Digest.sha256Ref primitives envelope.digestInput }.Shaped :=
  { shaped with messageId := isSha256Ref_digest primitives _ }

/-- Texts that may be absent are told by their trees. -/
theorem optionalNode_inj {left right : Option String}
    (same : (optionalNode left).toJson = (optionalNode right).toJson) : left = right := by
  cases left <;> cases right <;> simp_all [optionalNode, Node.toJson]

/-- A class is told by its name. -/
theorem name_inj {left right : MessageClass} (same : left.name = right.name) : left = right := by
  cases left <;> cases right <;> first | rfl | exact absurd same (by decide)

/-- Envelopes that digest the same bytes differ in their identifiers only. -/
theorem digestInput_inj {other : FederationEnvelope}
    (same : envelope.digestInput = other.digestInput) :
    { other with messageId := envelope.messageId } = envelope := by
  have bounds : ∀ envelope : FederationEnvelope,
      (Node.object (Digest.projection envelope.nodes)).toJson.Integral ∧
        (Node.object (Digest.projection envelope.nodes)).toJson.nesting ≤ recursionLimit := by
    rintro ⟨_, _, _, _, _, _, provenance, _, expires, _, _⟩
    refine ⟨Node.integral_toJson _, ?_⟩
    cases provenance <;> cases expires <;> exact Nat.le_of_ble_eq_true rfl
  have values := writtenBytes_inj ⟨(bounds envelope).1, (bounds other).1⟩
    ⟨(bounds envelope).2, (bounds other).2⟩ (ByteArray.append_right_inj _ |>.mp same)
  obtain ⟨protocol, messageId, sender, recipient, messageClass, payload, provenance, issued,
    expires, claim, signature⟩ := envelope
  obtain ⟨protocol', messageId', sender', recipient', messageClass', payload', provenance',
    issued', expires', claim', signature'⟩ := other
  change Value.object [("authority_claim", .string "none"),
      ("expires_at", (optionalNode expires).toJson), ("issued_at", .string issued),
      ("message_class", .string messageClass.name), ("payload_ref", .string payload),
      ("protocol", .string protocol), ("provenance_ref", (optionalNode provenance).toJson),
      ("recipient", .string recipient), ("sender", .string sender)] =
    Value.object [("authority_claim", .string "none"),
      ("expires_at", (optionalNode expires').toJson), ("issued_at", .string issued'),
      ("message_class", .string messageClass'.name), ("payload_ref", .string payload'),
      ("protocol", .string protocol'), ("provenance_ref", (optionalNode provenance').toJson),
      ("recipient", .string recipient'), ("sender", .string sender')] at values
  simp only [Value.object.injEq, List.cons.injEq, Prod.mk.injEq, Value.string.injEq, true_and,
    and_true] at values
  obtain ⟨sameExpires, rfl, sameName, rfl, rfl, sameProvenance, rfl, rfl⟩ := values
  rw [optionalNode_inj sameExpires, optionalNode_inj sameProvenance, name_inj sameName]

end FederationEnvelope

end QsolFed
