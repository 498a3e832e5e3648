import QsolFed.Identity
import Mathlib.Logic.Relation

/-!
# What a lifecycle record can do

The inversion laws of the identity state: everything a successful step checked and everything it
changed. Every invariant of the identity state is derived from these laws alone. A state is
`Reachable` when successful records lead to it from the state of an identity document.
-/
namespace QsolFed.Identity

open Checked Crypto

variable {primitives : Primitives}

/-- What the mode of an accepted rotation says of the replaced key. -/
def ModeAllows (primitives : Primitives) (record : KeyRotationRecord)
    (previous : OperationalKeyState) (payload : ByteArray) (notBefore overlapUntil : Int) : Prop :=
  (record.mode = .transition ∧ previous.status = .active ∧ ∃ signature,
      record.previousSignature = some signature ∧
      verifySignature primitives previous.publicKey keyRotationDomain payload signature =
        .ok true) ∨
    (record.mode = .recovery ∧ record.previousSignature = none ∧ previous.status ≠ .active ∧
      overlapUntil = notBefore)

/-- A standing other than active is revoked or compromised. -/
theorem status_inactive_iff (status : OperationalKeyStatus) :
    status = .revoked ∨ status = .compromised ↔ status ≠ .active := by
  cases status <;> decide

/-- The mode check passes exactly when the mode allows the rotation. -/
theorem checkMode_ok_iff (record : KeyRotationRecord) (previous : OperationalKeyState)
    (payload : ByteArray) (notBefore overlapUntil : Int) :
    checkMode primitives record previous payload notBefore overlapUntil = .ok () ↔
      ModeAllows primitives record previous payload notBefore overlapUntil := by
  unfold checkMode ModeAllows
  cases mode : record.mode with
  | transition =>
    simp only [bind_ok_iff, ensure_ok_iff, okOr_ok_iff, exists_const, true_and, reduceCtorEq,
      false_and, or_false]
    constructor
    · rintro ⟨active, signature, present, valid, verified, rfl⟩
      exact ⟨active, signature, present, verified⟩
    · rintro ⟨active, signature, present, verified⟩
      exact ⟨active, signature, present, true, verified, rfl⟩
  | recovery =>
    simp only [ensure_ok_iff, status_inactive_iff, reduceCtorEq, false_and, true_and, false_or]

/-- The state that an accepted rotation leaves. -/
def rotated (state : IdentityState) (record : KeyRotationRecord) (previous : OperationalKeyState)
    (notBefore overlapUntil : Int) : IdentityState :=
  { state with
    operationalKeys :=
      (state.operationalKeys.insert record.previousKeyId
        { previous with validUntil := some overlapUntil }).insert record.nextKeyId
          { keyId := record.nextKeyId, publicKey := record.nextPublicKey, validFrom := notBefore,
            validUntil := none, status := .active }
    currentKeyId := record.nextKeyId
    sequence := record.sequence }

/-- Everything that an accepted rotation checked. -/
structure RotationAccepted (primitives : Primitives) (state : IdentityState)
    (record : KeyRotationRecord) (previous : OperationalKeyState) (notBefore overlapUntil : Int) :
    Prop where
  /-- The schema is the one of rotations. -/
  schema : record.schema = keyRotationSchemaV1
  /-- The record is for this node. -/
  node : record.nodeId = state.nodeId
  /-- The record is the next one. -/
  sequence : record.sequence = state.sequence + 1
  /-- The record replaces the current key. -/
  current : record.previousKeyId = state.currentKeyId
  /-- The new key is not the root key. -/
  notRoot : record.nextKeyId ≠ state.rootKeyId
  /-- The new key has its own identifier. -/
  derived : deriveKeyId primitives record.nextPublicKey = .ok record.nextKeyId
  /-- The new key was never used. -/
  fresh : state.operationalKeys.get? record.nextKeyId = none
  /-- The start of validity. -/
  start : parseTimestamp record.notBefore = .ok notBefore
  /-- The end of the overlap. -/
  finish : parseTimestamp record.overlapUntil = .ok overlapUntil
  /-- The overlap does not end before it starts. -/
  forward : notBefore ≤ overlapUntil
  /-- The overlap is bounded. -/
  bounded : overlapUntil - notBefore ≤ maxRotationOverlapSeconds
  /-- No other key overlaps. -/
  apart : state.operationalKeys.values.any (overlaps record.previousKeyId notBefore) = false
  /-- The replaced key is known. -/
  replaced : state.operationalKeys.get? record.previousKeyId = some previous
  /-- The replaced key was valid by then. -/
  activated : previous.validFrom ≤ notBefore
  /-- The signatures hold and the mode allows the rotation. -/
  signed : ∃ payload, canonicalJson primitives (rotationPayload record) = .ok payload ∧
    verifySignature primitives state.rootPublicKey keyRotationDomain payload
      record.rootSignature = .ok true ∧
    verifySignature primitives record.nextPublicKey keyRotationDomain payload
      record.nextSignature = .ok true ∧
    ModeAllows primitives record previous payload notBefore overlapUntil

/-- A rotation is applied exactly when every check passes. -/
theorem applyRotation_ok_iff (state : IdentityState) (record : KeyRotationRecord)
    (next : IdentityState) : applyRotation primitives state record = .ok next ↔
      ∃ previous notBefore overlapUntil,
        RotationAccepted primitives state record previous notBefore overlapUntil ∧
        next = rotated state record previous notBefore overlapUntil := by
  simp only [applyRotation, bind_ok_iff, ensure_ok_iff, okOr_ok_iff, pure_ok_iff,
    ensureNoOtherOverlap, exists_const]
  constructor
  · rintro ⟨⟨schema, node, sequence, current, notRoot⟩, derivedId, derived, ⟨rfl, fresh⟩,
      notBefore, start, overlapUntil, finish, ⟨forward, bounded⟩, apart, payload, encoded, _, root,
      rfl, _, nextValid, rfl, previous, known, ⟨⟩, mode, activated, rfl⟩
    exact ⟨previous, notBefore, overlapUntil,
      ⟨schema, node, sequence, current, notRoot, derived, fresh, start, finish, forward, bounded,
        apart, known, activated,
        ⟨payload, encoded, root, nextValid, (checkMode_ok_iff ..).mp mode⟩⟩, rfl⟩
  · rintro ⟨previous, notBefore, overlapUntil, accepted, rfl⟩
    obtain ⟨payload, encoded, root, nextValid, mode⟩ := accepted.signed
    exact ⟨⟨accepted.schema, accepted.node, accepted.sequence, accepted.current,
      accepted.notRoot⟩, _, accepted.derived, ⟨rfl, accepted.fresh⟩, _, accepted.start, _,
      accepted.finish, ⟨accepted.forward, accepted.bounded⟩, accepted.apart, payload, encoded, _,
      root, rfl, _, nextValid, rfl, previous, accepted.replaced, (),
      (checkMode_ok_iff ..).mpr mode, accepted.activated, rfl⟩

/-- The state that an accepted status record leaves. -/
def restated (state : IdentityState) (record : KeyStatusRecord) (key : OperationalKeyState)
    (effectiveAt : Int) : IdentityState :=
  { state with
    operationalKeys := state.operationalKeys.insert record.keyId
      { key with
        status := statusOf record.status
        validUntil := some (key.validUntil.elim effectiveAt fun old => min old effectiveAt) }
    sequence := record.sequence }

/-- Everything that an accepted status record checked. -/
structure StatusAccepted (primitives : Primitives) (state : IdentityState)
    (record : KeyStatusRecord) (key : OperationalKeyState) (effectiveAt : Int) : Prop where
  /-- The schema is the one of status records. -/
  schema : record.schema = keyStatusSchemaV1
  /-- The record is for this node. -/
  node : record.nodeId = state.nodeId
  /-- The record is the next one. -/
  sequence : record.sequence = state.sequence + 1
  /-- The key is not the root key. -/
  notRoot : record.keyId ≠ state.rootKeyId
  /-- When the status takes effect. -/
  effective : parseTimestamp record.effectiveAt = .ok effectiveAt
  /-- The key is known. -/
  known : state.operationalKeys.get? record.keyId = some key
  /-- The key was valid by then. -/
  activated : key.validFrom ≤ effectiveAt
  /-- The signature holds. -/
  signed : ∃ payload, canonicalJson primitives (keyStatusPayload record) = .ok payload ∧
    verifySignature primitives state.rootPublicKey keyStatusDomain payload
      record.rootSignature = .ok true

/-- A status record is applied exactly when every check passes. -/
theorem applyKeyStatus_ok_iff (state : IdentityState) (record : KeyStatusRecord)
    (next : IdentityState) : applyKeyStatus primitives state record = .ok next ↔
      ∃ key effectiveAt, StatusAccepted primitives state record key effectiveAt ∧
        next = restated state record key effectiveAt := by
  simp only [applyKeyStatus, bind_ok_iff, ensure_ok_iff, okOr_ok_iff, pure_ok_iff, exists_const]
  constructor
  · rintro ⟨⟨schema, node, sequence, notRoot⟩, effectiveAt, effective, payload, encoded, _, valid,
      rfl, key, known, activated, rfl⟩
    exact ⟨key, effectiveAt, ⟨schema, node, sequence, notRoot, effective, known, activated,
      ⟨payload, encoded, valid⟩⟩, rfl⟩
  · rintro ⟨key, effectiveAt, accepted, rfl⟩
    obtain ⟨payload, encoded, valid⟩ := accepted.signed
    exact ⟨⟨accepted.schema, accepted.node, accepted.sequence, accepted.notRoot⟩, _,
      accepted.effective, payload, encoded, _, valid, rfl, key, accepted.known,
      accepted.activated, rfl⟩

/-- The state that an identity document describes. -/
def introduced (document : NodeIdentityDocument) (createdAt : Int) : IdentityState :=
  { nodeId := document.nodeId
    rootKeyId := document.rootKeyId
    rootPublicKey := document.rootPublicKey
    currentKeyId := document.operationalKeyId
    sequence := 0
    operationalKeys := OrderedMap.empty.insert document.operationalKeyId
      { keyId := document.operationalKeyId, publicKey := document.operationalPublicKey,
        validFrom := createdAt, validUntil := none, status := .active } }

/-- A document gives a state exactly when it verifies. -/
theorem fromDocument_ok_iff (document : NodeIdentityDocument) (state : IdentityState) :
    fromDocument primitives document = .ok state ↔
      verifyIdentityDocument primitives document = .ok true ∧
      ∃ createdAt, parseTimestamp document.createdAt = .ok createdAt ∧
        state = introduced document createdAt := by
  simp only [fromDocument, bind_ok_iff, ensure_ok_iff, pure_ok_iff, exists_const]
  constructor
  · rintro ⟨_, verified, rfl, createdAt, parsed, rfl⟩
    exact ⟨verified, createdAt, parsed, rfl⟩
  · rintro ⟨verified, createdAt, parsed, rfl⟩
    exact ⟨_, verified, rfl, createdAt, parsed, rfl⟩

/-! ## Runs -/

/-- One accepted lifecycle record. -/
def Step (primitives : Primitives) (state next : IdentityState) : Prop :=
  ∃ record, applyRecord primitives state record = .ok next

/-- Accepted records lead from one state to another. -/
abbrev Extends (primitives : Primitives) : IdentityState → IdentityState → Prop :=
  Relation.ReflTransGen (Step primitives)

/-- Records that are applied one after another extend a state. -/
theorem extends_of_foldlM {records : List PeerLifecycleRecord} {state next : IdentityState}
    (applied : records.foldlM (applyRecord primitives) state = .ok next) :
    Extends primitives state next :=
  foldlM_invariant (Extends primitives state ·)
    (fun _ record _ before step => before.tail ⟨record, step⟩) .refl applied

/-- Accepted records lead to a state from the state of a document. -/
def Reachable (primitives : Primitives) (state : IdentityState) : Prop :=
  ∃ document initial, fromDocument primitives document = .ok initial ∧
    Extends primitives initial state

/-- A property of every document's state that accepted records keep holds of every reachable
state. -/
theorem Reachable.invariant {state : IdentityState} (reachable : Reachable primitives state)
    (property : IdentityState → Prop)
    (start : ∀ document createdAt, verifyIdentityDocument primitives document = .ok true →
      parseTimestamp document.createdAt = .ok createdAt →
      property (introduced document createdAt))
    (rotation : ∀ state record previous notBefore overlapUntil, property state →
      RotationAccepted primitives state record previous notBefore overlapUntil →
      property (rotated state record previous notBefore overlapUntil))
    (status : ∀ state record key effectiveAt, property state →
      StatusAccepted primitives state record key effectiveAt →
      property (restated state record key effectiveAt)) : property state := by
  obtain ⟨document, initial, described, run⟩ := reachable
  induction run with
  | refl =>
    obtain ⟨verified, createdAt, parsed, rfl⟩ := (fromDocument_ok_iff ..).mp described
    exact start document createdAt verified parsed
  | tail _ step ih =>
    obtain ⟨record, applied⟩ := step
    cases record with
    | rotation record =>
      obtain ⟨previous, notBefore, overlapUntil, accepted, rfl⟩ :=
        (applyRotation_ok_iff ..).mp applied
      exact rotation _ record previous notBefore overlapUntil ih accepted
    | status record =>
      obtain ⟨key, effectiveAt, accepted, rfl⟩ := (applyKeyStatus_ok_iff ..).mp applied
      exact status _ record key effectiveAt ih accepted

/-- A state reached from a reachable state is reachable. -/
theorem Reachable.extends {state next : IdentityState} (reachable : Reachable primitives state)
    (run : Extends primitives state next) : Reachable primitives next := by
  obtain ⟨document, initial, described, before⟩ := reachable
  exact ⟨document, initial, described, before.trans run⟩

end QsolFed.Identity
