import QsolFed.Api.Interleaving
import QsolFed.Library.Json.Written
import QsolFed.Signing

/-!
# Envelopes and their bytes

While no two digested texts collide, the identifier of an envelope stands for the bytes that the
envelope was read from. A signed envelope is written as the bytes that it was read from exactly
when these spell its records as objects and its names as texts: the reader takes a list of fields
for a record, and an object with one null member for a name, and neither is written.
-/
namespace QsolFed

open Checked Json Canonical Crypto Identity Api

/-! ## Identifiers -/

namespace FederationEnvelope

/-- An envelope with the members of the bytes that it was read from and the bytes that its
identifier digests. -/
structure Wired (primitives : Primitives) (raw : ByteArray) (envelope : FederationEnvelope)
    (members : List (String × Node)) (input : ByteArray) : Prop where
  /-- The bytes spell the members. -/
  spelled : raw = writtenBytes (Node.object members).toJson
  /-- The members are in order. -/
  sorted : Entries.Sorted members
  /-- The identifier is a member. -/
  identifier : Entries.find "message_id" members = some (.string envelope.messageId)
  /-- The signature is a member. -/
  signature : Entries.find "signature" members = some .null
  /-- What the identifier digests is read back as the other members. -/
  covers : ∃ text : String, input = Digest.messageIdDomain.toByteArray ++ text.toByteArray ∧
    parseNode primitives.unicode text.toByteArray = .ok (.object (Digest.projection members))
  /-- The identifier digests these bytes. -/
  computed : Digest.messageIdInput primitives raw = .ok input
  /-- The identifier is the digest. -/
  digest : Digest.sha256Ref primitives input = envelope.messageId
  /-- The envelope is read from the members. -/
  decoded : Codecs.envelope.decode (Node.object members).toJson = some envelope

/-- The identifier and the signature are members of the value of an envelope. -/
theorem members_of_decode {members : List (String × Value String)} {envelope : FederationEnvelope}
    (decoded : Codecs.envelope.decode (.object members) = some envelope) :
    Entries.find "message_id" members = some (.string envelope.messageId) ∧
      Entries.find "signature" members = some .null := by
  obtain ⟨fields, read, rfl⟩ := Option.map_eq_some_iff.mp decoded
  have byName := (Option.ite_none_right_eq_some.mp read).2
  simp only [Codecs.envelopeFields, decode_required] at byName
  obtain ⟨-, ⟨identifier, foundId, readId⟩, -, -, -, -, -, -, -, -, ⟨signature, found, isNull⟩, -⟩ :=
    byName
  rw [foundId, found]
  constructor
  · cases identifier with
    | string text => rw [Option.some.inj readId]
    | null | bool | number | array | object => cases readId
  · cases signature with
    | null => rfl
    | bool | number | string | array | object => cases isNull

/-- A child of a tree has the value of the member of its name. -/
theorem find_members {members : List (String × Node)} (sorted : Entries.Sorted members)
    {name : String} {item : Value String}
    (found : Entries.find name (Node.toJsonMembers members) = some item) :
    ∃ node, Entries.find name members = some node ∧ node.toJson = item := by
  rw [toJsonMembers_eq_map] at found
  obtain ⟨⟨_, node⟩, listed, same⟩ := List.mem_map.mp (Entries.mem_of_find found)
  obtain ⟨rfl, rfl⟩ := Prod.mk.inj same
  exact ⟨node, Entries.find_of_mem sorted.nodup listed, rfl⟩

/-- Accepted bytes spell the members of an envelope. -/
theorem wired {primitives : Primitives} {raw : ByteArray} {envelope : FederationEnvelope}
    (accepted : fromWire primitives raw = .ok envelope) :
    ∃ members input, Wired primitives raw envelope members input := by
  simp only [fromWire, Wire.requireCanonicalWire, bind_ok_iff, ensure_ok_iff, okOr_ok_iff,
    pure_ok_iff, exists_const] at accepted
  obtain ⟨_, ⟨_, canonical, rfl, rfl⟩, _, read, -, derived, identifier, same, rfl⟩ := accepted
  obtain ⟨value, parsed, spelled, normal, fits⟩ := canonical_node canonical
  rw [Digest.deriveMessageId_eq, map_ok_iff] at identifier
  obtain ⟨input, computed, digest⟩ := identifier
  obtain ⟨members, isObject, covers⟩ := Digest.messageIdInput_covers parsed computed
  rw [isObject] at spelled normal fits
  rw [spelled, fromSlice_node Codecs.envelope fits] at read
  have sorted := normal.2.1
  obtain ⟨foundId, foundSignature⟩ := members_of_decode read
  obtain ⟨node, found, isText⟩ := find_members sorted foundId
  obtain ⟨other, foundOther, isNull⟩ := find_members sorted foundSignature
  refine ⟨members, input, spelled, sorted, ?_, ?_, covers, computed, digest.trans same.symm, read⟩
  · cases node <;> cases isText
    exact found
  · cases other <;> cases isNull
    exact foundOther

/-- Bytes whose identifiers digest the same are the same. -/
theorem Wired.unique {primitives : Primitives} {raw other : ByteArray}
    {first second : FederationEnvelope} {members others : List (String × Node)} {input : ByteArray}
    (one : Wired primitives raw first members input)
    (two : Wired primitives other second others input)
    (identifier : first.messageId = second.messageId) : raw = other ∧ first = second := by
  have covered : Digest.projection members = Digest.projection others := by
    obtain ⟨text, whole, parsed⟩ := one.covers
    obtain ⟨otherText, wholeOther, parsedOther⟩ := two.covers
    have same : text.toByteArray = otherText.toByteArray :=
      ByteArray.append_right_inj _ |>.mp (whole.symm.trans wholeOther)
    rw [same, parsedOther] at parsed
    exact (Node.object.inj (Except.ok.inj parsed)).symm
  have whole := Digest.eq_of_projection one.sorted two.sorted covered
    (by rw [one.identifier, two.identifier, identifier])
    (by rw [one.signature, two.signature])
  constructor
  · rw [one.spelled, two.spelled, whole]
  · have decoded := two.decoded
    rw [← whole, one.decoded] at decoded
    exact Option.some.inj decoded

end FederationEnvelope

/-! ## Spelling -/

/-- An envelope is an object, and its class and its claim are texts. -/
def EnvelopeForm : Value String → Prop :=
  IsRecord fun name => if name = "message_class" ∨ name = "authority_claim" then IsText else Any

/-- A signed envelope is an object, its scheme is a text, and its envelope has its form. -/
def SignedForm : Value String → Prop :=
  IsRecord fun name =>
    if name = "algorithm" then IsText else if name = "envelope" then EnvelopeForm else Any

/-- Bytes that spell a signed envelope as objects and texts. -/
def Spelled (raw : ByteArray) : Prop :=
  ∃ text value, String.fromUTF8? raw = some text ∧
    readDocument decodeText recursionLimit text.toList = some value ∧ SignedForm value

/-- An envelope is written in its form. -/
theorem writes_envelope : Writes Codecs.envelope EnvelopeForm := by
  refine writes_iso (fun _ => rfl) (writes_record ?_)
  refine writes_cons (fun _ => by simp) writes_string <|
    writes_cons (fun _ => by simp) writes_string <|
    writes_cons (fun _ => by simp) writes_string <|
    writes_cons (fun _ => by simp) writes_string <|
    writes_cons (fun _ => by simp) writes_enumeration <|
    writes_cons (fun _ => by simp) writes_string <|
    writes_cons (fun _ => by simp) (writes_nullable writes_string) <|
    writes_cons (fun _ => by simp) writes_string <|
    writes_cons (fun _ => by simp) (writes_nullable writes_string) <|
    writes_cons (fun _ => by simp) writes_enumeration <|
    writes_cons (fun _ => by simp) writes_unit writes_nil

/-- A signed envelope is written in its form. -/
theorem writes_signedEnvelope : Writes Codecs.signedEnvelope SignedForm := by
  refine writes_iso (fun _ => rfl) (writes_record ?_)
  refine writes_cons (fun _ => by simp) writes_string <|
    writes_cons (fun _ => by simp) writes_enumeration <|
    writes_cons (fun _ => by simp) writes_string <|
    writes_cons (fun _ => by simp) writes_string <|
    writes_cons (fun _ => by simp) writes_envelope <|
    writes_cons (fun _ => by simp) writes_string writes_nil

namespace SignedEnvelope

/-- Accepted bytes are canonical, and hold a signed envelope in shape. -/
theorem fromWire_shaped {primitives : Primitives} {raw : ByteArray} {signed : SignedEnvelope}
    (accepted : fromWire primitives raw = .ok signed) :
    canonicalize primitives.unicode raw = .ok raw ∧
      fromSlice Codecs.signedEnvelope raw = some signed ∧ signed.Shaped := by
  simp only [fromWire, bind_ok_iff, mapError_ok_iff, ensure_ok_iff, okOr_ok_iff, pure_ok_iff,
    exists_const] at accepted
  obtain ⟨_, canonical, rfl, _, read, ⟨schema, node, shape⟩, bytes, encoded, rfl⟩ := accepted
  simp only [canonicalEnvelopeBytes, bind_ok_iff, ensure_ok_iff, exists_const] at encoded
  exact ⟨canonical, read, schema, node, (isOk_unit_iff _).mp shape,
    (FederationEnvelope.validateShape_iff _).mp encoded.1⟩

/-- The written form of a tree spells a signed envelope exactly when its value has the form. -/
theorem spelled_iff {node : Node} (fits : node.height ≤ maxDepth) :
    Spelled (writtenBytes node.toJson) ↔ SignedForm node.toJson := by
  have shallow : node.toJson.nesting ≤ recursionLimit :=
    (Node.nesting_toJson _).trans (fits.trans (by decide))
  have text : String.fromUTF8? (writtenBytes node.toJson) =
      some (String.ofList (print node.toJson)) := Text.fromUTF8_toByteArray _
  have found := readDocument_print node.toJson recursionLimit (Node.integral_toJson _) shallow
  constructor
  · rintro ⟨_, _, here, there, form⟩
    rw [text] at here
    obtain rfl := Option.some.inj here
    rw [String.toList_ofList, found] at there
    exact Option.some.inj there ▸ form
  · intro form
    exact ⟨_, _, text, by rw [String.toList_ofList]; exact found, form⟩

/-- A signed envelope is written as the bytes that it was read from exactly when these spell it as
objects and texts. -/
theorem toWire_iff_spelled {primitives : Primitives} {raw : ByteArray} {signed : SignedEnvelope}
    (accepted : fromWire primitives raw = .ok signed) :
    signed.toWire primitives = .ok raw ↔ Spelled raw := by
  obtain ⟨canonical, read, shaped⟩ := fromWire_shaped accepted
  obtain ⟨plain, size⟩ := shaped.small
  have shallow : (Codecs.signedEnvelope.encode signed).nesting < maxDepth :=
    (Identity.nesting_signedEnvelope signed).trans_lt (by decide)
  obtain ⟨value, -, rfl, normal, fits⟩ := canonical_node canonical
  rw [fromSlice_node Codecs.signedEnvelope fits] at read
  rw [toWire, canonicalJson_ok_iff, canonicalize_iff_reorders plain shallow
    (size.trans (by decide)) value.ordered fits, writes_signedEnvelope.iff read, spelled_iff fits]

/-- A signed envelope as the list of its fields. -/
def listed (signed : SignedEnvelope) : Node :=
  .array [.string signed.schema, .string "ed25519", .string signed.nodeId, .string signed.keyId,
    .object signed.envelope.nodes, .string signed.signature]

/-- A signed envelope in shape is accepted as the list of its fields as well, which is not what is
written. -/
theorem listed_accepted {primitives : Primitives} {signed : SignedEnvelope}
    (shaped : signed.Shaped) {canonical : ByteArray}
    (encoded : canonicalEnvelopeBytes primitives signed.envelope = .ok canonical) :
    fromWire primitives (writtenBytes signed.listed.toJson) = .ok signed ∧
      signed.toWire primitives ≠ .ok (writtenBytes signed.listed.toJson) := by
  obtain ⟨⟨keyLength, keyBytes⟩, signatureLength, signatureBytes⟩ := bytes_of_shape shaped.shape
  obtain ⟨schema, schemaSize⟩ : Small 158 (.string signed.schema) := by
    rw [shaped.schema]
    exact small_text (by decide) (by decide)
  obtain ⟨algorithm, algorithmSize⟩ : Small 44 (.string "ed25519") :=
    small_text (by decide) (by decide)
  obtain ⟨node, nodeSize⟩ : Small 139 (.string signed.nodeId) := by
    rw [shaped.node]
    exact small_node shaped.envelope.sender
  obtain ⟨key, keySize⟩ := small_unescaped keyBytes keyLength.le (by decide)
  obtain ⟨signature, signatureSize⟩ := small_unescaped signatureBytes signatureLength.le (by decide)
  obtain ⟨plainEnvelope, envelopeSize⟩ := shaped.envelope.small
  obtain ⟨tree, same, -, reorders, -, normal, fits, -⟩ := canonicalize_plain primitives.unicode
    plainEnvelope (FederationEnvelope.nesting_encode _) (envelopeSize.trans (by decide))
  obtain rfl := Except.ok.inj
    (same.symm.trans (FederationEnvelope.visit_encode primitives.unicode shaped.envelope))
  have whole : signed.listed.Normal primitives.unicode :=
    ⟨Nat.le_of_ble_eq_true rfl, schema.clean _, algorithm.clean _, node.clean _, key.clean _, normal,
      signature.clean _, trivial⟩
  have height : signed.listed.height ≤ maxDepth := by
    have most : (Node.object signed.envelope.nodes).height ≤ 2 := by
      obtain ⟨_, _, _, _, _, _, provenance, _, expires, _, _⟩ := signed.envelope
      cases provenance <;> cases expires <;> exact Nat.le_of_ble_eq_true rfl
    have depth : maxDepth = 32 := rfl
    simp only [listed, Node.height, Node.heightItems] at most ⊢
    omega
  have treeSize : writtenSize (Node.object signed.envelope.nodes).toJson ≤ 2000 := by
    rw [writtenSize_eq, ← reorders.weigh_print, ← writtenSize_eq]
    exact envelopeSize
  have short : (writtenBytes signed.listed.toJson).size ≤ maxInputBytes := by
    have most : maxInputBytes = 65536 := rfl
    change writtenSize (.array [.string signed.schema, .string "ed25519", .string signed.nodeId,
      .string signed.keyId, (Node.object signed.envelope.nodes).toJson,
      .string signed.signature]) ≤ _
    rw [writtenSize_array]
    simp only [List.map_cons, List.map_nil, List.sum_cons, List.sum_nil, List.length_cons,
      List.length_nil]
    omega
  have accepted := canonicalize_normal whole height short
  have read : fromSlice Codecs.signedEnvelope (writtenBytes signed.listed.toJson) =
      some signed := by
    have inner := Codecs.envelope.roundtrip signed.envelope _ reorders
    rw [fromSlice_node Codecs.signedEnvelope height]
    change ((Codecs.signedEnvelopeFields.decodeItems [.string signed.schema, .string "ed25519",
      .string signed.nodeId, .string signed.keyId, (Node.object signed.envelope.nodes).toJson,
      .string signed.signature]).map _) = _
    simp only [Codecs.signedEnvelopeFields, Fields.required, Fields.cons, inner]
    rfl
  have shape : signed.schema = signedEnvelopeSchemaV1 ∧ signed.nodeId = signed.envelope.sender ∧
      (validateKeyIdAndSignatureShape signed.keyId signed.signature).isOk = true :=
    ⟨shaped.schema, shaped.node, (isOk_unit_iff _).mpr shaped.shape⟩
  have found : fromWire primitives (writtenBytes signed.listed.toJson) = .ok signed := by
    simp only [fromWire, accepted, Except.mapError, bind_ok, ensure_pos, read, okOr,
      ensure_pos shape, encoded]
    rfl
  refine ⟨found, fun written => ?_⟩
  have spelled := (toWire_iff_spelled found).mp written
  rw [spelled_iff height] at spelled
  obtain ⟨members, isObject, -⟩ := spelled
  cases isObject

end SignedEnvelope

/-! ## Both directions -/

/-- While the digested texts of two envelopes do not collide, equal identifiers mean equal bytes
and equal envelopes. What is signed is written and read back. A signed envelope that was read is
written as the same bytes exactly when these spell it as objects and texts. -/
theorem wire_exact (primitives : Primitives) :
    (∀ raw other first second, FederationEnvelope.fromWire primitives raw = .ok first →
      FederationEnvelope.fromWire primitives other = .ok second →
      Set.InjOn primitives.sha256 {input | Digest.messageIdInput primitives raw = .ok input ∨
        Digest.messageIdInput primitives other = .ok input} →
      first.messageId = second.messageId → raw = other ∧ first = second) ∧
    (∀ identity signingKey envelope signed,
      signEnvelope primitives identity signingKey envelope = .ok signed →
      ∃ raw, signed.toWire primitives = .ok raw ∧
        SignedEnvelope.fromWire primitives raw = .ok signed) ∧
    ∀ raw signed, SignedEnvelope.fromWire primitives raw = .ok signed →
      (signed.toWire primitives = .ok raw ↔ Spelled raw) := by
  refine ⟨?_, ?_, fun raw signed accepted => SignedEnvelope.toWire_iff_spelled accepted⟩
  · intro raw other first second accepted acceptedOther distinct identifier
    obtain ⟨members, input, one⟩ := FederationEnvelope.wired accepted
    obtain ⟨others, otherInput, two⟩ := FederationEnvelope.wired acceptedOther
    have digests := (Digest.sha256Ref_inj primitives).mp
      (one.digest.trans (identifier.trans two.digest.symm))
    obtain rfl := distinct (.inl one.computed) (.inr two.computed) digests
    exact one.unique two identifier
  · intro identity signingKey envelope signed signs
    obtain ⟨shaped, canonical, encoded⟩ := signEnvelope_shaped signs
    exact shaped.written encoded

/-- The key that signed the first recorded envelope. -/
def firstKey : LocalSigningKey :=
  heldKey recordedDocument.operationalPublicKey firstSigned.signature (by decide)
    (by decide +kernel)

/-- The identifier of this key is that of the recorded document. -/
theorem keyId_firstKey : firstKey.keyId recordedPrimitives = recordedDocument.operationalKeyId := by
  have derived := firstKey.deriveKeyId_publicKeyHex recordedPrimitives
  rw [firstKey, publicKeyHex_heldKey, recordedDocument_verified.operational] at derived
  exact (Except.ok.inj derived).symm

/-- This key signs the first recorded envelope. -/
theorem firstKey_signs : signEnvelope recordedPrimitives (introduced recordedDocument 1787443200)
    firstKey firstSigned.envelope = .ok firstSigned := by
  obtain ⟨canonical, encoded⟩ := firstSigned_encoded
  refine signEnvelope_ok_iff.mpr ⟨recordedKey, canonical, ?_, ⟨rfl, rfl, ?_⟩, encoded, ?_⟩
  · rw [keyId_firstKey]
    rfl
  · rw [keyId_firstKey]
    decide
  · rw [keyId_firstKey, firstKey, signDomain_heldKey]
    rfl

/-- The first recorded envelope is read from its canonical bytes. -/
theorem firstEnvelope_read : ∃ raw,
    FederationEnvelope.fromWire recordedPrimitives raw = .ok firstSigned.envelope := by
  have shaped := (signEnvelope_shaped firstKey_signs).1.envelope
  obtain ⟨canonical, encoded, -⟩ := FederationEnvelope.encode_total recordedPrimitives shaped
  exact ⟨canonical, (FederationEnvelope.fromWire_encode_iff shaped encoded _).mpr ⟨rfl,
    (sha256Ref_tabulated (envelopeMessage "2026-08-23T03:00:00Z",
      "eb4a608ba232cd25e1bb0e7542d3e8ea1c56376a333730e8bf36341a8d4aa714")
      (by decide) (by decide)).symm⟩⟩

/-- Both directions at the first recorded envelope. -/
theorem wire_exact_recorded : (∃ raw : ByteArray, raw = raw ∧
    firstSigned.envelope = firstSigned.envelope) ∧
    ∃ raw, firstSigned.toWire recordedPrimitives = .ok raw ∧ Spelled raw := by
  constructor
  · obtain ⟨raw, read⟩ := firstEnvelope_read
    refine ⟨raw, (wire_exact recordedPrimitives).1 raw raw _ _ read read ?_ rfl⟩
    intro one here two there _
    have first : Digest.messageIdInput recordedPrimitives raw = .ok one := or_self_iff.mp here
    have second : Digest.messageIdInput recordedPrimitives raw = .ok two := or_self_iff.mp there
    exact Except.ok.inj (first.symm.trans second)
  · obtain ⟨raw, written, read⟩ := (wire_exact recordedPrimitives).2.1 _ _ _ _ firstKey_signs
    exact ⟨raw, written, ((wire_exact recordedPrimitives).2.2 raw _ read).mp written⟩

/-- A list of the fields is accepted and is not what is written. -/
theorem listed_rewritten : ∃ raw signed,
    SignedEnvelope.fromWire recordedPrimitives raw = .ok signed ∧
      signed.toWire recordedPrimitives ≠ .ok raw := by
  obtain ⟨shaped, canonical, encoded⟩ := signEnvelope_shaped firstKey_signs
  obtain ⟨found, rewritten⟩ := SignedEnvelope.listed_accepted shaped encoded
  exact ⟨_, _, found, rewritten⟩

end QsolFed
