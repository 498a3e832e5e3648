import QsolFed.Crypto

/-!
# Identity state

The operational keys of a node as its lifecycle records leave them, and the verification of a
signed envelope against them. A rotation record introduces a key and bounds the validity of the
one it replaces; a status record revokes a key or declares it compromised.
-/
namespace QsolFed

open Checked

/-- The standing of an operational key. -/
inductive OperationalKeyStatus where
  | active
  | revoked
  | compromised
  deriving DecidableEq, Repr

/-- An operational key and its validity. -/
structure OperationalKeyState where
  /-- The identifier of the key. -/
  keyId : String
  /-- The key. -/
  publicKey : String
  /-- From when on it is valid. -/
  validFrom : Int
  /-- Until when it is valid, once it is replaced. -/
  validUntil : Option Int
  /-- Its standing. -/
  status : OperationalKeyStatus
  deriving DecidableEq, Repr

/-- A node with its operational keys. -/
structure IdentityState where
  /-- The name of the node. -/
  nodeId : String
  /-- The identifier of the root key. -/
  rootKeyId : String
  /-- The root key. -/
  rootPublicKey : String
  /-- The key that signs now. -/
  currentKeyId : String
  /-- The number of lifecycle records applied. -/
  sequence : UInt64
  /-- Every operational key by its identifier. -/
  operationalKeys : OrderedMap String OperationalKeyState
  deriving DecidableEq

/-- A lifecycle record. -/
inductive PeerLifecycleRecord where
  | rotation (record : KeyRotationRecord)
  | status (record : KeyStatusRecord)
  deriving DecidableEq

/-- What the signature check of an envelope found. -/
inductive SignatureValidity where
  | valid
  | invalid
  | unknownKey
  | revoked
  | compromised
  | notYetValid
  | retired
  | clockRejected
  | nodeMismatch
  deriving DecidableEq, Repr

/-- What the local node thinks of the peer. -/
inductive TrustDisposition where
  | unknown
  | locallyTrusted
  | locallyDistrusted
  deriving DecidableEq, Repr

/-- The authority a signature confers. -/
inductive AuthorityDisposition where
  | none
  deriving DecidableEq, Repr

/-- The result of checking a signed envelope. -/
structure AuthenticationAssessment where
  /-- What was found. -/
  signature : SignatureValidity
  /-- Trust, which no signature confers. -/
  trust : TrustDisposition
  /-- Authority, which no signature confers. -/
  authority : AuthorityDisposition
  deriving DecidableEq, Repr

namespace Identity

open Crypto

variable (primitives : Primitives)

/-- The state that an identity document describes. -/
def fromDocument (document : NodeIdentityDocument) : Except CryptoError IdentityState := do
  let verified ← verifyIdentityDocument primitives document
  ensure (verified = true) (.code "identity_document_verification_failed")
  let createdAt ← parseTimestamp document.createdAt
  let initial : OperationalKeyState :=
    { keyId := document.operationalKeyId
      publicKey := document.operationalPublicKey
      validFrom := createdAt
      validUntil := none
      status := .active }
  pure
    { nodeId := document.nodeId
      rootKeyId := document.rootKeyId
      rootPublicKey := document.rootPublicKey
      currentKeyId := document.operationalKeyId
      sequence := 0
      operationalKeys := OrderedMap.empty.insert initial.keyId initial }

/-- A key other than the current one is still active after a time. -/
def overlaps (currentKeyId : String) (notBefore : Int) (key : OperationalKeyState) : Bool :=
  key.keyId ≠ currentKeyId && key.status = .active && key.validUntil.any fun until_ =>
    notBefore < until_

/-- No replaced key is still active after the new key becomes valid. -/
def ensureNoOtherOverlap (state : IdentityState) (currentKeyId : String) (notBefore : Int) :
    Except CryptoError Unit :=
  ensure (state.operationalKeys.values.any (overlaps currentKeyId notBefore) = false)
    (.code "overlapping_key_transitions_forbidden")

/-- What the mode of a rotation asks of the replaced key. -/
def checkMode (record : KeyRotationRecord) (previous : OperationalKeyState) (payload : ByteArray)
    (notBefore overlapUntil : Int) : Except CryptoError Unit :=
  match record.mode with
  | .transition => do
    ensure (previous.status = .active) (.code "transition_requires_active_previous_key")
    let previousSignature ←
      okOr record.previousSignature (.code "transition_previous_signature_required")
    let valid ← verifySignature primitives previous.publicKey keyRotationDomain payload
      previousSignature
    ensure (valid = true) (.code "transition_previous_signature_invalid")
  | .recovery =>
    ensure (record.previousSignature = none ∧
      (previous.status = .revoked ∨ previous.status = .compromised) ∧ overlapUntil = notBefore)
      (.code "recovery_transition_invalid")

/-- The state after a rotation record. -/
def applyRotation (state : IdentityState) (record : KeyRotationRecord) :
    Except CryptoError IdentityState := do
  ensure (record.schema = keyRotationSchemaV1 ∧ record.nodeId = state.nodeId ∧
    record.sequence = state.sequence + 1 ∧ record.previousKeyId = state.currentKeyId ∧
    record.nextKeyId ≠ state.rootKeyId) (.code "rotation_shape_or_sequence_invalid")
  let derived ← deriveKeyId primitives record.nextPublicKey
  ensure (record.nextKeyId = derived ∧ state.operationalKeys.get? record.nextKeyId = none)
    (.code "rotation_shape_or_sequence_invalid")
  let notBefore ← parseTimestamp record.notBefore
  let overlapUntil ← parseTimestamp record.overlapUntil
  ensure (notBefore ≤ overlapUntil ∧ overlapUntil - notBefore ≤ maxRotationOverlapSeconds)
    (.code "rotation_overlap_invalid")
  ensureNoOtherOverlap state record.previousKeyId notBefore
  let payload ← canonicalJson primitives (rotationPayload record)
  let rootValid ← verifySignature primitives state.rootPublicKey keyRotationDomain payload
    record.rootSignature
  ensure (rootValid = true) (.code "rotation_root_or_next_signature_invalid")
  let nextValid ← verifySignature primitives record.nextPublicKey keyRotationDomain payload
    record.nextSignature
  ensure (nextValid = true) (.code "rotation_root_or_next_signature_invalid")
  let previous ← okOr (state.operationalKeys.get? record.previousKeyId)
    (.code "previous_operational_key_missing")
  checkMode primitives record previous payload notBefore overlapUntil
  ensure (previous.validFrom ≤ notBefore) (.code "rotation_before_previous_activation")
  let next : OperationalKeyState :=
    { keyId := record.nextKeyId
      publicKey := record.nextPublicKey
      validFrom := notBefore
      validUntil := none
      status := .active }
  pure { state with
    operationalKeys :=
      (state.operationalKeys.insert record.previousKeyId
        { previous with validUntil := some overlapUntil }).insert next.keyId next
    currentKeyId := record.nextKeyId
    sequence := record.sequence }

/-- The standing that a status record gives a key. -/
def statusOf : KeyStatusKind → OperationalKeyStatus
  | .revoked => .revoked
  | .compromised => .compromised

/-- The state after a status record. -/
def applyKeyStatus (state : IdentityState) (record : KeyStatusRecord) :
    Except CryptoError IdentityState := do
  ensure (record.schema = keyStatusSchemaV1 ∧ record.nodeId = state.nodeId ∧
    record.sequence = state.sequence + 1 ∧ record.keyId ≠ state.rootKeyId)
    (.code "key_status_shape_or_sequence_invalid")
  let effectiveAt ← parseTimestamp record.effectiveAt
  let payload ← canonicalJson primitives (keyStatusPayload record)
  let valid ← verifySignature primitives state.rootPublicKey keyStatusDomain payload
    record.rootSignature
  ensure (valid = true) (.code "key_status_root_signature_invalid")
  let key ← okOr (state.operationalKeys.get? record.keyId) (.code "key_status_target_unknown")
  ensure (key.validFrom ≤ effectiveAt) (.code "status_before_key_activation")
  pure { state with
    operationalKeys := state.operationalKeys.insert record.keyId
      { key with
        status := statusOf record.status
        validUntil := some (key.validUntil.elim effectiveAt fun old => min old effectiveAt) }
    sequence := record.sequence }

/-- The state after a lifecycle record. -/
def applyRecord (state : IdentityState) : PeerLifecycleRecord → Except CryptoError IdentityState
  | .rotation record => applyRotation primitives state record
  | .status record => applyKeyStatus primitives state record

/-- An assessment that only reports the signature. -/
def assessment (signature : SignatureValidity) : AuthenticationAssessment :=
  { signature, trust := .unknown, authority := .none }

/-- The check of a signed envelope against the keys of a node. -/
def verifySignedEnvelope (signed : SignedEnvelope) (identity : IdentityState) (nowUnix : Int)
    (clock : ClockPolicy) : Except CryptoError AuthenticationAssessment :=
  if signed.schema ≠ signedEnvelopeSchemaV1 ∨ signed.nodeId ≠ identity.nodeId ∨
      signed.envelope.sender ≠ identity.nodeId then
    pure (assessment .nodeMismatch)
  else
    match clock.validateEnvelope signed.envelope nowUnix with
    | .error _ => pure (assessment .clockRejected)
    | .ok () => do
      let issued ← parseTimestamp signed.envelope.issuedAt
      match identity.operationalKeys.get? signed.keyId with
      | none => pure (assessment .unknownKey)
      | some key =>
        match key.status with
        | .revoked => pure (assessment .revoked)
        | .compromised => pure (assessment .compromised)
        | .active =>
          if issued < key.validFrom then pure (assessment .notYetValid)
          else if key.validUntil.any fun until_ => until_ < issued then pure (assessment .retired)
          else do
            let canonical ← canonicalEnvelopeBytes primitives signed.envelope
            let valid ← verifySignature primitives key.publicKey envelopeSignatureDomain canonical
              signed.signature
            pure (assessment (if valid then .valid else .invalid))

/-! ## The verdict on an envelope -/

variable {primitives}

/-- Every verdict is an assessment that only reports the signature. -/
theorem verifySignedEnvelope_assessment {signed : SignedEnvelope} {identity : IdentityState}
    {nowUnix : Int} {clock : ClockPolicy} {found : AuthenticationAssessment}
    (checked : verifySignedEnvelope primitives signed identity nowUnix clock = .ok found) :
    ∃ verdict, found = assessment verdict := by
  have verdict : ∀ signature, (pure (assessment signature) : Except CryptoError _) = .ok found →
      ∃ verdict, found = assessment verdict := fun signature same =>
    ⟨signature, ((pure_ok_iff ..).mp same).symm⟩
  unfold verifySignedEnvelope at checked
  split at checked
  · exact verdict _ checked
  · split at checked
    · exact verdict _ checked
    · simp only [bind_ok_iff] at checked
      obtain ⟨issued, -, checked⟩ := checked
      split at checked
      · exact verdict _ checked
      · split at checked
        · exact verdict _ checked
        · exact verdict _ checked
        · split_ifs at checked
          · exact verdict _ checked
          · exact verdict _ checked
          · simp only [bind_ok_iff] at checked
            obtain ⟨canonical, -, valid, -, checked⟩ := checked
            exact verdict _ checked

/-- Everything that the verdict on a valid envelope rests on. -/
structure Authenticated (primitives : Primitives) (signed : SignedEnvelope)
    (identity : IdentityState) (nowUnix : Int) (clock : ClockPolicy) : Prop where
  /-- The schema is the one of signed envelopes. -/
  schema : signed.schema = signedEnvelopeSchemaV1
  /-- The node signs. -/
  node : signed.nodeId = identity.nodeId
  /-- The node sends. -/
  sender : signed.envelope.sender = identity.nodeId
  /-- The clock admits the envelope. -/
  timely : clock.validateEnvelope signed.envelope nowUnix = .ok ()
  /-- The key is known, active and within its window, and its signature holds. -/
  signed : ∃ key issued canonical, identity.operationalKeys.get? signed.keyId = some key ∧
    parseTimestamp signed.envelope.issuedAt = .ok issued ∧ key.status = .active ∧
    key.validFrom ≤ issued ∧ (∀ until_ ∈ key.validUntil, issued ≤ until_) ∧
    canonicalEnvelopeBytes primitives signed.envelope = .ok canonical ∧
    verifySignature primitives key.publicKey envelopeSignatureDomain canonical signed.signature =
      .ok true

/-- An envelope is found valid exactly when every check passes. -/
theorem verifySignedEnvelope_valid_iff (signed : SignedEnvelope) (identity : IdentityState)
    (nowUnix : Int) (clock : ClockPolicy) :
    verifySignedEnvelope primitives signed identity nowUnix clock = .ok (assessment .valid) ↔
      Authenticated primitives signed identity nowUnix clock := by
  constructor
  · intro checked
    unfold verifySignedEnvelope at checked
    split at checked
    · simp [pure, Except.pure, assessment] at checked
    next guard =>
      simp only [not_or, not_not] at guard
      split at checked
      · simp [pure, Except.pure, assessment] at checked
      next timely =>
        simp only [bind_ok_iff] at checked
        obtain ⟨issued, parsed, checked⟩ := checked
        split at checked
        · simp [pure, Except.pure, assessment] at checked
        next key known =>
          split at checked
          · simp [pure, Except.pure, assessment] at checked
          · simp [pure, Except.pure, assessment] at checked
          next active =>
            split_ifs at checked with early late
            · simp [pure, Except.pure, assessment] at checked
            · simp [pure, Except.pure, assessment] at checked
            · simp only [bind_ok_iff, pure_ok_iff] at checked
              obtain ⟨canonical, encoded, valid, verified, same⟩ := checked
              have holds : valid = true := by
                cases valid with
                | true => rfl
                | false => simp [assessment] at same
              refine ⟨guard.1, guard.2.1, guard.2.2, timely, key, issued, canonical, known, parsed,
                active, not_lt.mp early, fun until_ present => not_lt.mp fun before => late ?_,
                encoded, holds ▸ verified⟩
              rw [Option.mem_def.mp present]
              exact decide_eq_true before
  · rintro ⟨schema, node, sender, timely, key, issued, canonical, known, parsed, active, early,
      late, encoded, verified⟩
    have guard : ¬(signed.schema ≠ signedEnvelopeSchemaV1 ∨ signed.nodeId ≠ identity.nodeId ∨
        signed.envelope.sender ≠ identity.nodeId) := by simp [schema, node, sender]
    have open_ : ¬(key.validUntil.any fun until_ => until_ < issued) = true := by
      intro ended
      obtain ⟨until_, present, before⟩ := (Option.any_eq_true ..).mp ended
      exact absurd (late until_ present) (not_le.mpr (of_decide_eq_true before))
    simp only [verifySignedEnvelope, if_neg guard, timely, parsed, bind_ok, known, active,
      if_neg (not_lt.mpr early), if_neg open_, encoded, verified]
    rfl

end Identity

end QsolFed
