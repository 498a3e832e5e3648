import QsolFed.Envelope.Wire
import QsolFed.Peering.Records

/-!
# Signing envelopes

A node signs envelopes with an operational key of its own. What it signs has canonical bytes, and
these are read back as what was signed.
-/
namespace QsolFed

open Checked Json Canonical Crypto

/-- A signing key that this node holds. -/
structure LocalSigningKey where
  /-- The key that others verify with. -/
  verifyingKey : ByteArray
  /-- A key has 32 bytes. -/
  verifyingKey_size : verifyingKey.size = 32
  /-- The signature of a message. -/
  sign : ByteArray → ByteArray
  /-- A signature has 64 bytes. -/
  sign_size : ∀ message, (sign message).size = 64

namespace LocalSigningKey

/-- The key that others verify with, in hexadecimal. -/
def publicKeyHex (key : LocalSigningKey) : String :=
  Digest.lowercaseHex key.verifyingKey.data.toList

/-- The identifier of the key. -/
def keyId (primitives : Primitives) (key : LocalSigningKey) : String :=
  "ed25519:" ++ Digest.sha256Hex primitives keyIdDomain key.verifyingKey

/-- The signature of a payload under a domain. -/
def signDomain (key : LocalSigningKey) (domain : String) (payload : ByteArray) : String :=
  Digest.lowercaseHex (key.sign (domain.toByteArray ++ payload)).data.toList

/-- A signature of a message by this key verifies. -/
def Signs (primitives : Primitives) (key : LocalSigningKey) (message : ByteArray) : Prop :=
  primitives.isVerifyingKey key.verifyingKey = true ∧
    primitives.verifyStrict key.verifyingKey message (key.sign message) = true

end LocalSigningKey

/-- An envelope under the signature of a key that the identity admits. -/
def signEnvelope (primitives : Primitives) (identity : IdentityState) (signingKey : LocalSigningKey)
    (envelope : FederationEnvelope) : Except CryptoError SignedEnvelope := do
  let keyId := signingKey.keyId primitives
  let operational ← okOr (identity.operationalKeys.get? keyId)
    (.code "root_or_unregistered_key_cannot_sign_envelope")
  ensure (operational.status = .active ∧ envelope.sender = identity.nodeId ∧
    keyId ≠ identity.rootKeyId) (.code "operational_signing_key_not_admitted")
  let canonical ← canonicalEnvelopeBytes primitives envelope
  pure
    { schema := signedEnvelopeSchemaV1
      algorithm := .ed25519
      nodeId := identity.nodeId
      keyId
      envelope
      signature := signingKey.signDomain envelopeSignatureDomain canonical }

/-! ## Hexadecimal -/

/-- The value of a hexadecimal digit is written as this digit. -/
theorem digitChar_hexValue {b : UInt8} (hex : Wire.isLowerHex b = true) :
    Digest.hexValue b < 16 ∧ Wire.byte (Nat.digitChar (Digest.hexValue b)) = b := by
  have code : ∀ value < 16, (Wire.byte (Nat.digitChar value)).toNat =
      if value < 10 then 48 + value else 87 + value := by decide
  have bounds : (Wire.byte '0').toNat = 48 ∧ (Wire.byte '9').toNat = 57 ∧
      (Wire.byte 'a').toNat = 97 ∧ (Wire.byte 'f').toNat = 102 := by decide
  by_cases digit : Wire.isAsciiDigit b = true
  · have value : Digest.hexValue b = b.toNat - 48 := if_pos digit
    simp only [Wire.isAsciiDigit, Bool.and_eq_true, decide_eq_true_eq, UInt8.le_iff_toNat_le,
      bounds] at digit
    have small : b.toNat - 48 < 16 := by omega
    rw [value]
    refine ⟨small, UInt8.toNat_inj.mp ?_⟩
    rw [code _ small, if_pos (by omega)]
    omega
  · have value : Digest.hexValue b = b.toNat - 87 := if_neg digit
    have letter : Wire.byte 'a' ≤ b ∧ b ≤ Wire.byte 'f' := by
      simpa [Wire.isLowerHex, digit] using hex
    simp only [UInt8.le_iff_toNat_le, bounds] at letter
    have small : b.toNat - 87 < 16 := by omega
    rw [value]
    refine ⟨small, UInt8.toNat_inj.mp ?_⟩
    rw [code _ small, if_neg (by omega)]
    omega

/-- Digits are written from the bytes they are decoded as. -/
theorem bytes_fromHex : ∀ {digits : List UInt8}, digits.length % 2 = 0 →
    (∀ b ∈ digits, Wire.isLowerHex b = true) →
    Text.bytes (Digest.lowercaseHex (Digest.fromHex digits)) = digits
  | [], _, _ => rfl
  | [_], odd, _ => by simp at odd
  | high :: low :: rest, even, hex => by
    have shorter : rest.length % 2 = 0 := by
      simp only [List.length_cons] at even
      omega
    rw [List.forall_mem_cons, List.forall_mem_cons] at hex
    obtain ⟨highSmall, highDigit⟩ := digitChar_hexValue hex.1
    obtain ⟨lowSmall, lowDigit⟩ := digitChar_hexValue hex.2.1
    have rests := bytes_fromHex shorter hex.2.2
    rw [bytes_lowercaseHex] at rests ⊢
    have value : (UInt8.ofNat (Digest.hexValue high * 16 + Digest.hexValue low)).toNat =
        Digest.hexValue high * 16 + Digest.hexValue low := by
      rw [UInt8.toNat_ofNat', Nat.mod_eq_of_lt (by omega)]
    rw [Digest.fromHex, List.flatMap_cons, rests, value]
    have first : (Digest.hexValue high * 16 + Digest.hexValue low) / 16 = Digest.hexValue high := by
      omega
    have second : (Digest.hexValue high * 16 + Digest.hexValue low) % 16 = Digest.hexValue low := by
      omega
    rw [first, second, highDigit, lowDigit]
    rfl

/-- A text that is decoded is the text of what it is decoded as. -/
theorem lowercaseHex_of_decode {size : Nat} {value : String} {bytes : ByteArray}
    (decoded : Digest.decodeFixedHex size value = .ok bytes) :
    Digest.lowercaseHex bytes.data.toList = value := by
  simp only [Digest.decodeFixedHex, bind_ok_iff, ensure_ok_iff, exists_const, pure_ok_iff,
    List.all_eq_true] at decoded
  obtain ⟨⟨length, hex⟩, rfl⟩ := decoded
  exact Text.bytes_injective (bytes_fromHex (by omega) hex)
/-! ## Keys -/

/-- Bytes are decoded from their digits. -/
theorem decodeFixedHex_lowercaseHex {size : Nat} {bytes : ByteArray} (length : bytes.size = size) :
    Digest.decodeFixedHex size (Digest.lowercaseHex bytes.data.toList) = .ok bytes := by
  have count : (Text.bytes (Digest.lowercaseHex bytes.data.toList)).length = size * 2 := by
    rw [length_lowercaseHex, ← length]
    rfl
  have digits := isLowerHex_lowercaseHex bytes.data.toList
  rw [decodeFixedHex_of_shape, fromHex_lowercaseHex]
  simp only [isFixedHex, Bool.and_eq_true, decide_eq_true_eq, List.all_eq_true]
  exact ⟨count, digits⟩

namespace LocalSigningKey

variable (primitives : Primitives) (key : LocalSigningKey)

/-- The key is decoded from its digits. -/
theorem decode_publicKeyHex : Digest.decodeFixedHex 32 key.publicKeyHex = .ok key.verifyingKey :=
  decodeFixedHex_lowercaseHex key.verifyingKey_size

/-- A signature is decoded from its digits. -/
theorem decode_signDomain (domain : String) (payload : ByteArray) :
    Digest.decodeFixedHex 64 (key.signDomain domain payload) =
      .ok (key.sign (domain.toByteArray ++ payload)) :=
  decodeFixedHex_lowercaseHex (key.sign_size _)

/-- The identifier of a key is derived from its digits. -/
theorem deriveKeyId_publicKeyHex :
    deriveKeyId primitives key.publicKeyHex = .ok (key.keyId primitives) := by
  rw [deriveKeyId, decode_publicKeyHex, bind_ok]
  rfl

variable {primitives key}

/-- A signature that verifies is found to verify. -/
theorem Signs.verifies {domain : String} {payload : ByteArray}
    (signs : key.Signs primitives (domain.toByteArray ++ payload)) :
    verifySignature primitives key.publicKeyHex domain payload (key.signDomain domain payload) =
      .ok true := by
  rw [verifySignature, decode_publicKeyHex, bind_ok, decode_signDomain, bind_ok,
    ensure_pos signs.1, bind_ok, signs.2]
  rfl

variable (primitives key)

/-- The identifier of a key has 72 bytes, none of which is escaped. -/
theorem keyId_bytes : (Text.bytes (key.keyId primitives)).length = 72 ∧
    ∀ b ∈ Text.bytes (key.keyId primitives), Unescaped b := by
  rw [keyId, Text.bytes_append, List.length_append, length_sha256Hex]
  refine ⟨rfl, fun b member => ?_⟩
  rcases List.mem_append.mp member with mark | digit
  · exact (List.all_iff_forall_prop.mp (by decide) : ∀ b ∈ Text.bytes "ed25519:", Unescaped b)
      b mark
  · exact unescaped_lowerHex (isLowerHex_lowercaseHex _ b digit)

/-- A signature has 128 bytes, none of which is escaped. -/
theorem signDomain_bytes (domain : String) (payload : ByteArray) :
    (Text.bytes (key.signDomain domain payload)).length = 128 ∧
      ∀ b ∈ Text.bytes (key.signDomain domain payload), Unescaped b := by
  have size : (key.sign (domain.toByteArray ++ payload)).data.toList.length = 64 :=
    key.sign_size _
  rw [signDomain, length_lowercaseHex, size]
  exact ⟨rfl, fun b member => unescaped_lowerHex (isLowerHex_lowercaseHex _ b member)⟩

/-- The public key of an identifier is that of the key, unless two keys collide. -/
theorem publicKey_of_keyId {publicKey : String}
    (derived : deriveKeyId primitives publicKey = .ok (key.keyId primitives))
    (distinct : Set.InjOn primitives.sha256
      {message | message = keyIdDomain.toByteArray ++ key.verifyingKey ∨
        ∃ bytes, Digest.decodeFixedHex 32 publicKey = .ok bytes ∧
          message = keyIdDomain.toByteArray ++ bytes}) : publicKey = key.publicKeyHex := by
  simp only [deriveKeyId, bind_ok_iff, pure_ok_iff] at derived
  obtain ⟨bytes, decoded, same⟩ := derived
  have digits := (String.append_right_inj _).mp same
  have digests := ByteArray.ext (Array.ext' (lowercaseHex_inj digits))
  have messages := distinct (.inr ⟨bytes, decoded, rfl⟩) (.inl rfl) digests
  rw [← lowercaseHex_of_decode decoded, (ByteArray.append_right_inj _).mp messages]
  rfl

/-- The identifier of a key and a signature have their shape. -/
theorem validateKeyIdAndSignatureShape_ok (domain : String) (payload : ByteArray) :
    validateKeyIdAndSignatureShape (key.keyId primitives) (key.signDomain domain payload) =
      .ok () := by
  have begins : (Text.bytes "ed25519:").isPrefixOf (Text.bytes (key.keyId primitives)) := by
    rw [keyId, Text.bytes_append]
    exact List.isPrefixOf_iff_prefix.mpr (List.prefix_append _ _)
  have rest : String.ofList ((key.keyId primitives).toList.drop 8) =
      Digest.sha256Hex primitives keyIdDomain key.verifyingKey := by
    rw [keyId, String.toList_append, List.drop_left' (show "ed25519:".toList.length = 8 from rfl),
      String.ofList_toList]
  have digits : Digest.decodeFixedHex 32
      (Digest.sha256Hex primitives keyIdDomain key.verifyingKey) =
        .ok (primitives.sha256 (keyIdDomain.toByteArray ++ key.verifyingKey)) :=
    decodeFixedHex_lowercaseHex (primitives.sha256_size _)
  rw [validateKeyIdAndSignatureShape, ensure_pos ⟨begins, (keyId_bytes primitives key).1⟩, bind_ok,
    rest, digits, bind_ok, decode_signDomain, bind_ok]
  rfl

end LocalSigningKey

/-! ## Signed envelopes -/

/-- An envelope in shape is small. -/
theorem FederationEnvelope.Shaped.small {envelope : FederationEnvelope}
    (shaped : envelope.Shaped) : Small 2000 (Codecs.envelope.encode envelope) := by
  have protocol : Small 62 (.string envelope.protocol) := by
    rw [shaped.protocol]
    exact small_text (by decide) (by decide)
  have name : Small 122 (.string envelope.messageClass.name) := by
    cases envelope.messageClass <;> exact small_text (by decide) (by decide)
  have claim : Small 26 (.string "none") := small_text (by decide) (by decide)
  have absent : Small 4 .null := ⟨trivial, by decide⟩
  have provenance : Small 73 (Codecs.nullableString.encode envelope.provenanceRef) :=
    small_nullable (by decide) fun text present => small_ref (shaped.provenanceRef text present)
  have expires : Small 22 (Codecs.nullableString.encode envelope.expiresAt) :=
    small_nullable (by decide) fun text present => small_timestamp (shaped.expiresAt text present)
  refine @small_object [("protocol", 62), ("message_id", 73), ("sender", 139), ("recipient", 139),
    ("message_class", 122), ("payload_ref", 73), ("provenance_ref", 73), ("issued_at", 22),
    ("expires_at", 22), ("authority_claim", 26), ("signature", 4)] _ 2000 (by decide) ?_
  exact .cons ⟨rfl, protocol⟩ <|
    .cons ⟨rfl, small_ref shaped.messageId⟩ <|
    .cons ⟨rfl, small_node shaped.sender⟩ <|
    .cons ⟨rfl, small_node shaped.recipient⟩ <|
    .cons ⟨rfl, name⟩ <|
    .cons ⟨rfl, small_ref shaped.payloadRef⟩ <|
    .cons ⟨rfl, provenance⟩ <|
    .cons ⟨rfl, small_timestamp shaped.issuedAt⟩ <|
    .cons ⟨rfl, expires⟩ <|
    .cons ⟨rfl, claim⟩ <|
    .cons ⟨rfl, absent⟩ .nil

/-- An envelope has canonical bytes exactly when it is in shape and carries its own identifier. -/
theorem FederationEnvelope.canonicalEnvelopeBytes_iff {primitives : Primitives}
    {envelope : FederationEnvelope} :
    (∃ canonical, canonicalEnvelopeBytes primitives envelope = .ok canonical) ↔
      envelope.Shaped ∧ envelope.messageId = Digest.sha256Ref primitives envelope.digestInput := by
  simp only [canonicalEnvelopeBytes, bind_ok_iff, ensure_ok_iff, exists_const, mapError_ok_iff,
    pure_ok_iff, canonicalJson_ok_iff]
  constructor
  · rintro ⟨_, shape, canonical, encoded, _, derived, rfl, rfl⟩
    have shaped := (validateShape_iff envelope).mp shape
    obtain ⟨again, same, identifier⟩ := encode_total primitives shaped
    obtain rfl := Except.ok.inj (same.symm.trans encoded)
    exact ⟨shaped, Except.ok.inj (derived.symm.trans identifier)⟩
  · rintro ⟨shaped, identifier⟩
    obtain ⟨canonical, encoded, derived⟩ := encode_total primitives shaped
    exact ⟨canonical, (validateShape_iff envelope).mpr shaped, canonical, encoded, _, derived,
      identifier.symm, rfl⟩

namespace SignedEnvelope

/-- The parts of a signed envelope have their shape. -/
structure Shaped (signed : SignedEnvelope) : Prop where
  /-- The schema is that of signed envelopes. -/
  schema : signed.schema = signedEnvelopeSchemaV1
  /-- The sender signs. -/
  node : signed.nodeId = signed.envelope.sender
  /-- The identifier of the key and the signature have their shape. -/
  shape : validateKeyIdAndSignatureShape signed.keyId signed.signature = .ok ()
  /-- The envelope has its shape. -/
  envelope : signed.envelope.Shaped

/-- An identifier of a key and a signature in shape have few bytes, none of which is escaped. -/
theorem bytes_of_shape {keyId signature : String}
    (shape : validateKeyIdAndSignatureShape keyId signature = .ok ()) :
    ((Text.bytes keyId).length = 72 ∧ ∀ b ∈ Text.bytes keyId, Unescaped b) ∧
      (Text.bytes signature).length = 128 ∧ ∀ b ∈ Text.bytes signature, Unescaped b := by
  simp only [validateKeyIdAndSignatureShape, Digest.decodeFixedHex, bind_ok_iff, ensure_ok_iff,
    exists_const, pure_ok_iff, List.all_eq_true] at shape
  obtain ⟨⟨begins, length⟩, -, ⟨⟨most, digits⟩, -⟩, -, ⟨⟨count, hex⟩, -⟩, -⟩ := shape
  refine ⟨⟨length, fun b member => ?_⟩, count, fun b member => unescaped_lowerHex (hex b member)⟩
  -- The digits take 64 of the 72 bytes, so that the first eight characters are the mark.
  have whole : Text.bytes keyId = (keyId.toList.take 8).flatMap String.utf8EncodeChar ++
      Text.bytes (String.ofList (keyId.toList.drop 8)) := by
    rw [Text.bytes_ofList, ← List.flatMap_append, List.take_append_drop, Text.bytes_eq]
  obtain ⟨rest, marked⟩ := List.isPrefixOf_iff_prefix.mp begins
  have total := congrArg List.length whole
  rw [List.length_append] at total
  have same : (keyId.toList.take 8).flatMap String.utf8EncodeChar = Text.bytes "ed25519:" := by
    refine List.append_inj_left (whole.symm.trans marked.symm) ?_
    have mark : (Text.bytes "ed25519:").length = 8 := rfl
    omega
  have plain : ∀ b ∈ Text.bytes "ed25519:", Unescaped b := List.all_iff_forall_prop.mp (by decide)
  rw [whole, same] at member
  rcases List.mem_append.mp member with early | later
  · exact plain b early
  · exact unescaped_lowerHex (digits b later)

/-- A signed envelope in shape is small. -/
theorem Shaped.small {signed : SignedEnvelope} (shaped : signed.Shaped) :
    Small 4000 (Codecs.signedEnvelope.encode signed) := by
  obtain ⟨⟨keyLength, keyBytes⟩, signatureLength, signatureBytes⟩ := bytes_of_shape shaped.shape
  have schema : Small 158 (.string signed.schema) := by
    rw [shaped.schema]
    exact small_text (by decide) (by decide)
  have algorithm : Small 44 (.string "ed25519") := small_text (by decide) (by decide)
  have node : Small 139 (.string signed.nodeId) := by
    rw [shaped.node]
    exact small_node shaped.envelope.sender
  refine @small_object [("schema", 158), ("algorithm", 44), ("node_id", 139), ("key_id", 74),
    ("envelope", 2000), ("signature", 130)] _ 4000 (by decide) ?_
  exact .cons ⟨rfl, schema⟩ <|
    .cons ⟨rfl, algorithm⟩ <|
    .cons ⟨rfl, node⟩ <|
    .cons ⟨rfl, small_unescaped keyBytes keyLength.le (by decide)⟩ <|
    .cons ⟨rfl, shaped.envelope.small⟩ <|
    .cons ⟨rfl, small_unescaped signatureBytes signatureLength.le (by decide)⟩ .nil

variable {primitives : Primitives}

/-- A signed envelope in shape is written, and what is written is read as this envelope. -/
theorem Shaped.written {signed : SignedEnvelope} (shaped : signed.Shaped) {canonical : ByteArray}
    (encoded : canonicalEnvelopeBytes primitives signed.envelope = .ok canonical) :
    ∃ raw, signed.toWire primitives = .ok raw ∧ fromWire primitives raw = .ok signed := by
  obtain ⟨plain, size⟩ := shaped.small
  have shallow : (Codecs.signedEnvelope.encode signed).nesting < maxDepth :=
    (Identity.nesting_signedEnvelope signed).trans_lt (by decide)
  obtain ⟨raw, written⟩ := (canonicalJson_iff primitives plain shallow).mpr (size.trans (by decide))
  exact ⟨raw, written, fromWire_toWire written plain shallow shaped.schema shaped.node shaped.shape
    encoded⟩

end SignedEnvelope

/-- An envelope is signed exactly when the identity admits the key and the envelope has canonical
bytes, which are what is signed. -/
theorem signEnvelope_ok_iff {primitives : Primitives} {identity : IdentityState}
    {signingKey : LocalSigningKey} {envelope : FederationEnvelope} {signed : SignedEnvelope} :
    signEnvelope primitives identity signingKey envelope = .ok signed ↔
      ∃ operational canonical,
        identity.operationalKeys.get? (signingKey.keyId primitives) = some operational ∧
        (operational.status = .active ∧ envelope.sender = identity.nodeId ∧
          signingKey.keyId primitives ≠ identity.rootKeyId) ∧
        canonicalEnvelopeBytes primitives envelope = .ok canonical ∧
        { schema := signedEnvelopeSchemaV1
          algorithm := .ed25519
          nodeId := identity.nodeId
          keyId := signingKey.keyId primitives
          envelope
          signature := signingKey.signDomain envelopeSignatureDomain canonical } = signed := by
  simp only [signEnvelope, bind_ok_iff, okOr_ok_iff, ensure_ok_iff, exists_const, pure_ok_iff]
  constructor
  · rintro ⟨operational, known, admitted, canonical, encoded, same⟩
    exact ⟨operational, canonical, known, admitted, encoded, same⟩
  · rintro ⟨operational, canonical, known, admitted, encoded, same⟩
    exact ⟨operational, known, admitted, canonical, encoded, same⟩

/-- A signed envelope has its shape. -/
theorem signEnvelope_shaped {primitives : Primitives} {identity : IdentityState}
    {signingKey : LocalSigningKey} {envelope : FederationEnvelope} {signed : SignedEnvelope}
    (signs : signEnvelope primitives identity signingKey envelope = .ok signed) :
    signed.Shaped ∧ ∃ canonical, canonicalEnvelopeBytes primitives signed.envelope =
      .ok canonical := by
  obtain ⟨operational, canonical, -, ⟨-, sender, -⟩, encoded, rfl⟩ := signEnvelope_ok_iff.mp signs
  have shape := encoded
  simp only [canonicalEnvelopeBytes, bind_ok_iff, ensure_ok_iff, exists_const] at shape
  exact ⟨⟨rfl, sender.symm, signingKey.validateKeyIdAndSignatureShape_ok primitives _ _,
    (FederationEnvelope.validateShape_iff _).mp shape.1⟩, canonical, encoded⟩

/-! ## Recorded keys -/

/-- Digits in shape are decoded as half as many bytes. -/
theorem size_fromHex {size : Nat} {value : String} (shape : isFixedHex size value = true) :
    (ByteArray.mk (Digest.fromHex (Text.bytes value)).toArray).size = size := by
  simp only [isFixedHex, Bool.and_eq_true, decide_eq_true_eq] at shape
  have half := @length_fromHex (Text.bytes value) (by omega)
  change (Digest.fromHex (Text.bytes value)).length = size
  omega

/-- A key that signs everything with a recorded signature. -/
def heldKey (publicKey signature : String) (keyShape : isFixedHex 32 publicKey = true)
    (signatureShape : isFixedHex 64 signature = true) : LocalSigningKey where
  verifyingKey := ⟨(Digest.fromHex (Text.bytes publicKey)).toArray⟩
  verifyingKey_size := size_fromHex keyShape
  sign _ := ⟨(Digest.fromHex (Text.bytes signature)).toArray⟩
  sign_size _ := size_fromHex signatureShape

variable {publicKey signature : String} {keyShape : isFixedHex 32 publicKey = true}
  {signatureShape : isFixedHex 64 signature = true}

/-- The public key of a held key is the recorded one. -/
theorem publicKeyHex_heldKey :
    (heldKey publicKey signature keyShape signatureShape).publicKeyHex = publicKey :=
  lowercaseHex_of_decode (decodeFixedHex_of_shape keyShape)

/-- A held key signs with the recorded signature. -/
theorem signDomain_heldKey (domain : String) (payload : ByteArray) :
    (heldKey publicKey signature keyShape signatureShape).signDomain domain payload = signature :=
  lowercaseHex_of_decode (decodeFixedHex_of_shape signatureShape)

/-- A recorded signature verifies under tabulated primitives. -/
theorem signs_heldKey {digests : List (List UInt8 × String)} {signatures : List (String × String)}
    (listed : (publicKey, signature) ∈ signatures) (message : ByteArray) :
    (heldKey publicKey signature keyShape signatureShape).Signs
      (Digest.tabulated digests signatures) message :=
  ⟨rfl, List.any_eq_true.mpr ⟨_, listed, by simp [heldKey]⟩⟩

end QsolFed
