import QsolFed.Identity.Attempts
import QsolFed.Signing.Wire

/-!
# Verdicts on signed envelopes

What a node signs with an active key is found valid by everyone who knows the identity of the node,
while the clock policy accepts the envelope and it was issued within the window of the key. The
same signature makes no other envelope, node or key valid.
-/
namespace QsolFed

open Checked Json Canonical Crypto Identity Api

namespace LocalSigningKey

variable (primitives : Primitives) (key : LocalSigningKey)

/-- The signature of a message verifies under no other key and for no other message. -/
def Binds (message : ByteArray) : Prop :=
  ∀ verifyingKey other, primitives.verifyStrict verifyingKey other (key.sign message) = true →
    verifyingKey = key.verifyingKey ∧ other = message

/-- The key does not collide with the one that an identity has under its identifier. -/
def Apart (identity : IdentityState) : Prop :=
  Set.InjOn primitives.sha256 {message | message = keyIdDomain.toByteArray ++ key.verifyingKey ∨
    ∃ known bytes, identity.operationalKeys.get? (key.keyId primitives) = some known ∧
      Digest.decodeFixedHex 32 known.publicKey = .ok bytes ∧
      message = keyIdDomain.toByteArray ++ bytes}

end LocalSigningKey

namespace Identity

variable {primitives : Primitives}

/-- The keys of a reachable state are represented. -/
theorem Reachable.represented {state : IdentityState} (reachable : Reachable primitives state) :
    Represented primitives state :=
  reachable.invariant (Represented primitives)
    (fun document createdAt verified _ =>
      introduced_represented ((verifyIdentityDocument_iff document).mp verified) createdAt)
    (fun _ _ _ _ _ represented accepted => represented.rotated accepted)
    fun _ _ _ _ represented accepted => represented.restated accepted

/-- An identity knows a key that does not collide by its public key. -/
theorem publicKey_of_known {identity : IdentityState} {signingKey : LocalSigningKey}
    {known : OperationalKeyState} (represented : Represented primitives identity)
    (apart : signingKey.Apart primitives identity)
    (found : identity.operationalKeys.get? (signingKey.keyId primitives) = some known) :
    known.publicKey = signingKey.publicKeyHex := by
  refine signingKey.publicKey_of_keyId primitives (represented.derived _ _ found).2 ?_
  refine apart.mono fun message member => ?_
  rcases member with own | ⟨bytes, decoded, same⟩
  · exact .inl own
  · exact .inr ⟨known, bytes, found, decoded, same⟩

/-- Envelopes with the same canonical bytes are equal. -/
theorem canonicalEnvelopeBytes_inj {first second : FederationEnvelope} {canonical : ByteArray}
    (one : canonicalEnvelopeBytes primitives first = .ok canonical)
    (two : canonicalEnvelopeBytes primitives second = .ok canonical) : first = second := by
  have read : ∀ envelope, canonicalEnvelopeBytes primitives envelope = .ok canonical →
      fromSlice Codecs.envelope canonical = some envelope := by
    intro envelope encoded
    simp only [canonicalEnvelopeBytes, bind_ok_iff, ensure_ok_iff, exists_const, pure_ok_iff]
      at encoded
    obtain ⟨shape, _, written, -, -, -, rfl⟩ := encoded
    exact fromSlice_canonical primitives.unicode Codecs.envelope envelope
      ((FederationEnvelope.validateShape_iff _).mp shape).plain
      (FederationEnvelope.nesting_encode _) ((canonicalJson_ok_iff ..).mp written)
  exact Option.some.inj ((read first one).symm.trans (read second two))

/-- A signature that verifies was decoded with its key. -/
theorem verifySignature_ok_iff {publicKey domain signature : String} {payload : ByteArray} :
    verifySignature primitives publicKey domain payload signature = .ok true ↔
      ∃ key bytes, Digest.decodeFixedHex 32 publicKey = .ok key ∧
        Digest.decodeFixedHex 64 signature = .ok bytes ∧ primitives.isVerifyingKey key = true ∧
        primitives.verifyStrict key (domain.toByteArray ++ payload) bytes = true := by
  simp only [verifySignature, bind_ok_iff, ensure_ok_iff, exists_const, pure_ok_iff]
  constructor
  · rintro ⟨key, decoded, bytes, read, admitted, valid⟩
    exact ⟨key, bytes, decoded, read, admitted, valid⟩
  · rintro ⟨key, bytes, decoded, read, admitted, valid⟩
    exact ⟨key, decoded, bytes, read, admitted, valid⟩

/-- A valid envelope with the signature of another one is this other one. -/
theorem Authenticated.signed_once {identity : IdentityState} {signingKey : LocalSigningKey}
    {envelope : FederationEnvelope} {signed other : SignedEnvelope} {nowUnix : Int}
    {clock : ClockPolicy} (represented : Represented primitives identity)
    (signs : signEnvelope primitives identity signingKey envelope = .ok signed)
    (binds : ∀ canonical, canonicalEnvelopeBytes primitives envelope = .ok canonical →
      signingKey.Binds primitives (envelopeSignatureDomain.toByteArray ++ canonical))
    (same : other.signature = signed.signature)
    (valid : Authenticated primitives other identity nowUnix clock) : other = signed := by
  obtain ⟨operational, canonical, -, ⟨-, sender, -⟩, encoded, rfl⟩ := signEnvelope_ok_iff.mp signs
  obtain ⟨known, issued, others, found, -, -, -, -, encodedOther, verified⟩ := valid.signed
  obtain ⟨key, bytes, decoded, read, -, strict⟩ := verifySignature_ok_iff.mp verified
  rw [same, LocalSigningKey.decode_signDomain] at read
  obtain rfl := Except.ok.inj read
  obtain ⟨rfl, messages⟩ := binds canonical encoded key _ strict
  obtain rfl := (ByteArray.append_right_inj _).mp messages
  have envelopes := canonicalEnvelopeBytes_inj encodedOther encoded
  have publicKey : known.publicKey = signingKey.publicKeyHex :=
    (lowercaseHex_of_decode decoded).symm
  have derived := (represented.derived _ _ found).2
  rw [publicKey, LocalSigningKey.deriveKeyId_publicKeyHex] at derived
  obtain ⟨schema, algorithm, nodeId, keyId, inner, signature⟩ := other
  have schemas : schema = signedEnvelopeSchemaV1 := valid.schema
  have nodes : nodeId = identity.nodeId := valid.node
  have keys : signingKey.keyId primitives = keyId := Except.ok.inj derived
  change inner = envelope at envelopes
  change signature = _ at same
  subst schemas nodes keys envelopes same
  rfl

/-- An envelope signed with a known key is found valid while the clock accepts it and it was issued
within the window of the key. -/
theorem authenticated_of_signed {identity : IdentityState} {signingKey : LocalSigningKey}
    {envelope : FederationEnvelope} {signed : SignedEnvelope} {nowUnix issued : Int}
    {clock : ClockPolicy} {key : OperationalKeyState}
    (represented : Represented primitives identity)
    (signs : signEnvelope primitives identity signingKey envelope = .ok signed)
    (correct : ∀ canonical, canonicalEnvelopeBytes primitives envelope = .ok canonical →
      signingKey.Signs primitives (envelopeSignatureDomain.toByteArray ++ canonical))
    (apart : signingKey.Apart primitives identity)
    (known : identity.operationalKeys.get? signed.keyId = some key)
    (timely : clock.validateEnvelope envelope nowUnix = .ok ())
    (parsed : parseTimestamp envelope.issuedAt = .ok issued) (early : key.validFrom ≤ issued)
    (late : ∀ until_ ∈ key.validUntil, issued ≤ until_) :
    Authenticated primitives signed identity nowUnix clock := by
  obtain ⟨operational, canonical, found, ⟨active, sender, -⟩, encoded, rfl⟩ :=
    signEnvelope_ok_iff.mp signs
  obtain rfl := Option.some.inj (known.symm.trans found)
  have verified := (correct canonical encoded).verifies
  rw [← publicKey_of_known represented apart found] at verified
  exact ⟨rfl, rfl, sender, timely, key, issued, canonical, found, parsed, active, early, late,
    encoded, verified⟩

/-- What a reachable identity signs with a key that it knows is read from its bytes and found
valid, without trust and without authority, whenever the clock accepts it and it was issued within
the window of the key. Nothing else with the same signature is found valid. -/
theorem signed_found_valid (primitives : Primitives) {identity : IdentityState}
    (reachable : Reachable primitives identity) {signingKey : LocalSigningKey}
    {envelope : FederationEnvelope} {signed : SignedEnvelope}
    (signs : signEnvelope primitives identity signingKey envelope = .ok signed)
    (correct : ∀ canonical, canonicalEnvelopeBytes primitives envelope = .ok canonical →
      signingKey.Signs primitives (envelopeSignatureDomain.toByteArray ++ canonical))
    (binds : ∀ canonical, canonicalEnvelopeBytes primitives envelope = .ok canonical →
      signingKey.Binds primitives (envelopeSignatureDomain.toByteArray ++ canonical))
    (apart : signingKey.Apart primitives identity) :
    (∃ raw, signed.toWire primitives = .ok raw ∧
      ∃ read, SignedEnvelope.fromWire primitives raw = .ok read ∧
        ∀ key issued now (clock : ClockPolicy),
          identity.operationalKeys.get? signed.keyId = some key →
          clock.validateEnvelope envelope now = .ok () →
          parseTimestamp envelope.issuedAt = .ok issued → key.validFrom ≤ issued →
          (∀ until_ ∈ key.validUntil, issued ≤ until_) →
          verifySignedEnvelope primitives read identity now clock =
            .ok { signature := .valid, trust := .unknown, authority := .none }) ∧
    ∀ (other : SignedEnvelope) now clock found, other.signature = signed.signature →
      other.envelope ≠ signed.envelope ∨ other.nodeId ≠ signed.nodeId ∨
        other.keyId ≠ signed.keyId →
      verifySignedEnvelope primitives other identity now clock = .ok found →
      found.signature ≠ .valid := by
  have represented := reachable.represented
  constructor
  · obtain ⟨shaped, canonical, encoded⟩ := signEnvelope_shaped signs
    obtain ⟨raw, written, read⟩ := shaped.written encoded
    refine ⟨raw, written, signed, read, ?_⟩
    intro key issued now clock known timely parsed early late
    exact (verifySignedEnvelope_valid_iff ..).mpr (authenticated_of_signed represented signs correct
      apart known timely parsed early late)
  · intro other now clock found same differs checked valid
    obtain ⟨verdict, rfl⟩ := verifySignedEnvelope_assessment checked
    obtain rfl : verdict = .valid := valid
    have authenticated := (verifySignedEnvelope_valid_iff ..).mp checked
    obtain rfl := authenticated.signed_once represented signs binds same
    simp at differs

/-- The recorded primitives, where the signature of the first envelope verifies for one key and one
message only. -/
def boundPrimitives (message : ByteArray) : Primitives :=
  { recordedPrimitives with
    verifyStrict := fun key other signature =>
      recordedPrimitives.verifyStrict key other signature &&
        (signature ≠ firstKey.sign message || (key = firstKey.verifyingKey && other = message)) }

/-- The recorded document verifies under these primitives. -/
theorem recordedDocument_bound (message : ByteArray) :
    DocumentVerified (boundPrimitives message) recordedDocument := by
  obtain ⟨payload, encoded, verified⟩ := recordedDocument_verified.signed
  obtain ⟨key, bytes, decoded, read, -, strict⟩ := verifySignature_ok_iff.mp verified
  have different : bytes ≠ firstKey.sign message := by
    intro same
    have texts := lowercaseHex_of_decode read
    have signature := @signDomain_heldKey recordedDocument.operationalPublicKey
      firstSigned.signature (by decide) (by decide +kernel) "" ByteArray.empty
    rw [same] at texts
    exact absurd (texts.symm.trans signature) (by decide +kernel)
  have holds : (boundPrimitives message).verifyStrict key
      (nodeIdentityDomain.toByteArray ++ payload) bytes = true := by
    simp [boundPrimitives, strict, different]
  exact ⟨rfl, by decide, rfl, rfl, rfl, ⟨1787443200, rfl⟩, ⟨payload, encoded,
    verifySignature_ok_iff.mpr ⟨key, bytes, decoded, read, rfl, holds⟩⟩⟩

/-- The identity of the recorded document is reachable under these primitives. -/
theorem recordedDocument_reached (message : ByteArray) :
    Reachable (boundPrimitives message) (introduced recordedDocument 1787443200) :=
  ⟨recordedDocument, _, (fromDocument_ok_iff ..).mpr
    ⟨(verifyIdentityDocument_iff _).mpr (recordedDocument_bound message), _, rfl, rfl⟩, .refl⟩

/-- The recorded key does not collide. -/
theorem firstKey_apart (primitives : Primitives) :
    firstKey.Apart primitives (introduced recordedDocument 1787443200) := by
  have only : ∀ input, (input = keyIdDomain.toByteArray ++ firstKey.verifyingKey ∨
      ∃ known bytes, (introduced recordedDocument 1787443200).operationalKeys.get?
        (firstKey.keyId primitives) = some known ∧
        Digest.decodeFixedHex 32 known.publicKey = .ok bytes ∧
        input = keyIdDomain.toByteArray ++ bytes) →
      input = keyIdDomain.toByteArray ++ firstKey.verifyingKey := by
    rintro input (own | ⟨known, bytes, found, decoded, same⟩)
    · exact own
    · have known_ : known = recordedKey := by
        simp only [introduced, OrderedMap.get?_insert, OrderedMap.get?_empty] at found
        split_ifs at found
        exact (Option.some.inj found).symm
      rw [known_] at decoded
      have own := @decodeFixedHex_of_shape 32 recordedDocument.operationalPublicKey (by decide)
      rw [same, Except.ok.inj (decoded.symm.trans own)]
      rfl
  intro one here two there _
  exact (only one here).trans (only two there).symm

/-- The first recorded envelope is found valid when it was issued, and not under another key. -/
theorem signed_found_valid_recorded : ∃ message raw read,
    SignedEnvelope.fromWire (boundPrimitives message) raw = .ok read ∧
      verifySignedEnvelope (boundPrimitives message) read (introduced recordedDocument 1787443200)
        1787450400 defaultClockPolicy =
          .ok { signature := .valid, trust := .unknown, authority := .none } ∧
      ∀ found, verifySignedEnvelope (boundPrimitives message)
        { firstSigned with keyId := recordedDocument.rootKeyId }
        (introduced recordedDocument 1787443200) 1787450400 defaultClockPolicy = .ok found →
          found.signature ≠ .valid := by
  obtain ⟨canonical, encoded⟩ := firstSigned_encoded
  let message := envelopeSignatureDomain.toByteArray ++ canonical
  have signs : signEnvelope (boundPrimitives message) (introduced recordedDocument 1787443200)
      firstKey firstSigned.envelope = .ok firstSigned := firstKey_signs
  have once : ∀ other, canonicalEnvelopeBytes (boundPrimitives message) firstSigned.envelope =
      .ok other → envelopeSignatureDomain.toByteArray ++ other = message := by
    intro other again
    rw [Except.ok.inj (again.symm.trans encoded)]
  have correct : firstKey.Signs (boundPrimitives message) message := by
    have recorded : firstKey.Signs recordedPrimitives message :=
      signs_heldKey (by simp [recordedSignatures, firstSigned]) message
    have strict := recorded.2
    exact ⟨rfl, by simp [boundPrimitives, strict]⟩
  have binds : firstKey.Binds (boundPrimitives message) message := by
    intro key other strict
    have same : firstKey.sign message = firstKey.sign message := rfl
    simpa [boundPrimitives, same] using (Bool.and_eq_true_iff.mp strict).2
  obtain ⟨⟨raw, -, read, accepted, valid⟩, others⟩ := signed_found_valid (boundPrimitives message)
    (recordedDocument_reached message) signs (fun other again => (once other again).symm ▸ correct)
    (fun other again => (once other again).symm ▸ binds) (firstKey_apart _)
  refine ⟨message, raw, read, accepted, ?_, ?_⟩
  · exact valid recordedKey 1787450400 _ _ (OrderedMap.get?_insert_self ..) rfl rfl (by decide)
      (fun until_ present => by cases present)
  · intro found checked
    exact others { firstSigned with keyId := recordedDocument.rootKeyId } _ _ found rfl
      (.inr (.inr (by decide))) checked

end Identity

end QsolFed
