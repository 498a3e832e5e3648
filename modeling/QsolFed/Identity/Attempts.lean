import QsolFed.Identity.Encoding
import QsolFed.Identity.Windows
import QsolFed.Library.Effect
import QsolFed.Library.Run

/-!
# Attempts to apply a lifecycle record

Applying a record changes an identity state in place: the replaced key through a reference into the
map of keys, then the map, the current key and the sequence number, one after another. Every check
precedes the first change, so that an attempt either applies the record as a whole or leaves the
state as it was. The representation invariant holds after any attempts.
-/
namespace QsolFed.Identity

open Checked Crypto Json Canonical

variable (primitives : Primitives)

/-- Apply a rotation record in place. -/
def attemptRotation (record : KeyRotationRecord) : Effect IdentityState CryptoError PUnit := do
  let state ← Effect.read .ok
  Effect.check (ensure (record.schema = keyRotationSchemaV1 ∧ record.nodeId = state.nodeId ∧
    record.sequence = state.sequence + 1 ∧ record.previousKeyId = state.currentKeyId ∧
    record.nextKeyId ≠ state.rootKeyId) (.code "rotation_shape_or_sequence_invalid"))
  let derived ← Effect.check (deriveKeyId primitives record.nextPublicKey)
  Effect.check (ensure (record.nextKeyId = derived ∧
    state.operationalKeys.get? record.nextKeyId = none) (.code "rotation_shape_or_sequence_invalid"))
  let notBefore ← Effect.check (parseTimestamp record.notBefore)
  let overlapUntil ← Effect.check (parseTimestamp record.overlapUntil)
  Effect.check (ensure (notBefore ≤ overlapUntil ∧
    overlapUntil - notBefore ≤ maxRotationOverlapSeconds) (.code "rotation_overlap_invalid"))
  Effect.check (ensureNoOtherOverlap state record.previousKeyId notBefore)
  let payload ← Effect.check (canonicalJson primitives (rotationPayload record))
  let rootValid ← Effect.check (verifySignature primitives state.rootPublicKey keyRotationDomain
    payload record.rootSignature)
  Effect.check (ensure (rootValid = true) (.code "rotation_root_or_next_signature_invalid"))
  let nextValid ← Effect.check (verifySignature primitives record.nextPublicKey keyRotationDomain
    payload record.nextSignature)
  Effect.check (ensure (nextValid = true) (.code "rotation_root_or_next_signature_invalid"))
  let previous ← Effect.check (okOr (state.operationalKeys.get? record.previousKeyId)
    (.code "previous_operational_key_missing"))
  Effect.check (checkMode primitives record previous payload notBefore overlapUntil)
  Effect.check (ensure (previous.validFrom ≤ notBefore)
    (.code "rotation_before_previous_activation"))
  Effect.modify fun state => { state with
    operationalKeys := state.operationalKeys.insert record.previousKeyId
      { previous with validUntil := some overlapUntil } }
  let next : OperationalKeyState :=
    { keyId := record.nextKeyId
      publicKey := record.nextPublicKey
      validFrom := notBefore
      validUntil := none
      status := .active }
  Effect.modify fun state =>
    { state with operationalKeys := state.operationalKeys.insert next.keyId next }
  Effect.modify fun state => { state with currentKeyId := record.nextKeyId }
  Effect.modify fun state => { state with sequence := record.sequence }

/-- Apply a status record in place. -/
def attemptKeyStatus (record : KeyStatusRecord) : Effect IdentityState CryptoError PUnit := do
  let state ← Effect.read .ok
  Effect.check (ensure (record.schema = keyStatusSchemaV1 ∧ record.nodeId = state.nodeId ∧
    record.sequence = state.sequence + 1 ∧ record.keyId ≠ state.rootKeyId)
    (.code "key_status_shape_or_sequence_invalid"))
  let effectiveAt ← Effect.check (parseTimestamp record.effectiveAt)
  let payload ← Effect.check (canonicalJson primitives (keyStatusPayload record))
  let valid ← Effect.check (verifySignature primitives state.rootPublicKey keyStatusDomain payload
    record.rootSignature)
  Effect.check (ensure (valid = true) (.code "key_status_root_signature_invalid"))
  let key ← Effect.check (okOr (state.operationalKeys.get? record.keyId)
    (.code "key_status_target_unknown"))
  Effect.check (ensure (key.validFrom ≤ effectiveAt) (.code "status_before_key_activation"))
  let restated := { key with status := statusOf record.status }
  Effect.modify fun state =>
    { state with operationalKeys := state.operationalKeys.insert record.keyId restated }
  Effect.modify fun state => { state with
    operationalKeys := state.operationalKeys.insert record.keyId
      { restated with
        validUntil := some (key.validUntil.elim effectiveAt fun old => min old effectiveAt) } }
  Effect.modify fun state => { state with sequence := record.sequence }

/-- Apply a lifecycle record in place. -/
def attempt : PeerLifecycleRecord → Effect IdentityState CryptoError PUnit
  | .rotation record => attemptRotation primitives record
  | .status record => attemptKeyStatus primitives record

/-- A record was attempted, with an answer. -/
def Attempted (state : IdentityState)
    (event : PeerLifecycleRecord × Except CryptoError PUnit) (next : IdentityState) : Prop :=
  (attempt primitives event.1).run state = (event.2, next)

/-- How many attempts applied their record. -/
def appliedCount (events : List (PeerLifecycleRecord × Except CryptoError PUnit)) : Nat :=
  events.countP fun event => event.2.isOk

variable {primitives}

/-- An attempt at a rotation applies it as a whole or changes nothing. -/
theorem run_attemptRotation (state : IdentityState) (record : KeyRotationRecord) :
    (attemptRotation primitives record).run state =
      Effect.settle state (applyRotation primitives state record) := by
  unfold attemptRotation applyRotation
  rw [Effect.run_bind, Effect.run_read]
  refine Effect.run_check_settle _ fun _ _ => Effect.run_check_settle _ fun derived _ =>
    Effect.run_check_settle _ fun _ _ => Effect.run_check_settle _ fun notBefore _ =>
    Effect.run_check_settle _ fun overlapUntil _ => Effect.run_check_settle _ fun _ _ =>
    Effect.run_check_settle _ fun _ _ => Effect.run_check_settle _ fun payload _ =>
    Effect.run_check_settle _ fun rootValid _ => Effect.run_check_settle _ fun _ _ =>
    Effect.run_check_settle _ fun nextValid _ => Effect.run_check_settle _ fun _ _ =>
    Effect.run_check_settle _ fun previous _ => Effect.run_check_settle _ fun _ _ =>
    Effect.run_check_settle _ fun _ _ => ?_
  rfl

/-- An attempt at a status record applies it as a whole or changes nothing. -/
theorem run_attemptKeyStatus (state : IdentityState) (record : KeyStatusRecord) :
    (attemptKeyStatus primitives record).run state =
      Effect.settle state (applyKeyStatus primitives state record) := by
  unfold attemptKeyStatus applyKeyStatus
  rw [Effect.run_bind, Effect.run_read]
  refine Effect.run_check_settle _ fun _ _ => Effect.run_check_settle _ fun effectiveAt _ =>
    Effect.run_check_settle _ fun payload _ => Effect.run_check_settle _ fun valid _ =>
    Effect.run_check_settle _ fun _ _ => Effect.run_check_settle _ fun key _ =>
    Effect.run_check_settle _ fun _ _ => ?_
  simp only [Effect.run_bind, Effect.run_modify, OrderedMap.insert_insert]
  rfl

/-- An attempt applies its record as a whole or changes nothing. -/
theorem run_attempt (state : IdentityState) (record : PeerLifecycleRecord) :
    (attempt primitives record).run state =
      Effect.settle state (applyRecord primitives state record) := by
  cases record with
  | rotation record => exact run_attemptRotation state record
  | status record => exact run_attemptKeyStatus state record

/-! ## The representation invariant -/

/-- What holds of the keys of a state. -/
structure Represented (primitives : Primitives) (state : IdentityState) : Prop where
  /-- The current key is known. -/
  current : ∃ key, state.operationalKeys.get? state.currentKeyId = some key
  /-- Every key is stored under its identifier, which is derived from it. -/
  derived : ∀ id key, state.operationalKeys.get? id = some key →
    key.keyId = id ∧ deriveKeyId primitives key.publicKey = .ok id
  /-- The root key is not an operational key. -/
  rootApart : state.operationalKeys.get? state.rootKeyId = none
  /-- Only the current key is active and unbounded. -/
  unbounded : ∀ id key, state.operationalKeys.get? id = some key → key.status = .active →
    key.validUntil = none → id = state.currentKeyId

/-- The state of a document is represented. -/
theorem introduced_represented {document : NodeIdentityDocument}
    (verified : DocumentVerified primitives document) (createdAt : Int) :
    Represented primitives (introduced document createdAt) := by
  refine ⟨⟨_, OrderedMap.get?_insert_self ..⟩, fun id key known => ?_, ?_, fun id key known _ _ => ?_⟩
  · simp only [introduced, OrderedMap.get?_insert, OrderedMap.get?_empty] at known
    split_ifs at known with here
    obtain rfl := Option.some.inj known
    exact ⟨here.symm, here ▸ verified.operational⟩
  · simp only [introduced, OrderedMap.get?_insert, OrderedMap.get?_empty,
      if_neg verified.distinct]
  · simp only [introduced, OrderedMap.get?_insert, OrderedMap.get?_empty] at known
    split_ifs at known with here
    exact here

/-- A rotation keeps a state represented. -/
theorem Represented.rotated {state : IdentityState} {record : KeyRotationRecord}
    {previous : OperationalKeyState} {notBefore overlapUntil : Int}
    (represented : Represented primitives state)
    (accepted : RotationAccepted primitives state record previous notBefore overlapUntil) :
    Represented primitives (rotated state record previous notBefore overlapUntil) := by
  refine ⟨⟨_, by rw [get?_rotated]; exact if_pos rfl⟩, fun id key known => ?_, ?_,
    fun id key known active open_ => ?_⟩
  · rw [get?_rotated] at known
    split_ifs at known with new old
    · obtain rfl := Option.some.inj known
      exact ⟨new.symm, new ▸ accepted.derived⟩
    · obtain rfl := Option.some.inj known
      exact old ▸ represented.derived record.previousKeyId previous accepted.replaced
    · exact represented.derived id key known
  · have known : ∀ key, state.operationalKeys.get? state.rootKeyId ≠ some key := by
      simp [represented.rootApart]
    change (Identity.rotated _ _ _ _ _).operationalKeys.get? state.rootKeyId = none
    rw [get?_rotated, if_neg (show state.rootKeyId ≠ record.nextKeyId from accepted.notRoot.symm),
      if_neg (show state.rootKeyId ≠ record.previousKeyId from
        fun same => known previous (same ▸ accepted.replaced))]
    exact represented.rootApart
  · rw [get?_rotated] at known
    split_ifs at known with new old
    · exact new
    · obtain rfl := Option.some.inj known
      cases open_
    · exact absurd ((represented.unbounded id key known active open_).trans accepted.current.symm)
        old

/-- A status record keeps a state represented. -/
theorem Represented.restated {state : IdentityState} {record : KeyStatusRecord}
    {target : OperationalKeyState} {effectiveAt : Int} (represented : Represented primitives state)
    (accepted : StatusAccepted primitives state record target effectiveAt) :
    Represented primitives (restated state record target effectiveAt) := by
  refine ⟨?_, fun id key known => ?_, ?_, fun id key known active open_ => ?_⟩
  · obtain ⟨key, known⟩ := represented.current
    by_cases here : state.currentKeyId = record.keyId
    · exact ⟨_, by rw [get?_restated]; exact if_pos here⟩
    · exact ⟨key, by rw [get?_restated]; exact (if_neg here).trans known⟩
  · rw [get?_restated] at known
    split_ifs at known with here
    · obtain rfl := Option.some.inj known
      exact here ▸ represented.derived record.keyId target accepted.known
    · exact represented.derived id key known
  · change (Identity.restated _ _ _ _).operationalKeys.get? state.rootKeyId = none
    rw [get?_restated, if_neg (show state.rootKeyId ≠ record.keyId from accepted.notRoot.symm)]
    exact represented.rootApart
  · rw [get?_restated] at known
    split_ifs at known with here
    · obtain rfl := Option.some.inj known
      cases open_
    · exact represented.unbounded id key known active open_

/-- An applied record keeps a state represented. -/
theorem Represented.applyRecord {state next : IdentityState} {record : PeerLifecycleRecord}
    (represented : Represented primitives state)
    (applied : applyRecord primitives state record = .ok next) : Represented primitives next := by
  cases record with
  | rotation record =>
    obtain ⟨previous, notBefore, overlapUntil, accepted, rfl⟩ :=
      (applyRotation_ok_iff ..).mp applied
    exact represented.rotated accepted
  | status record =>
    obtain ⟨key, effectiveAt, accepted, rfl⟩ := (applyKeyStatus_ok_iff ..).mp applied
    exact represented.restated accepted

/-- An attempt applies its record, or it fails and leaves the state as it was. -/
theorem attempted_cases {state next : IdentityState} {record : PeerLifecycleRecord}
    {result : Except CryptoError PUnit} (attempted : Attempted primitives state (record, result) next) :
    (result = .ok ⟨⟩ ∧ applyRecord primitives state record = .ok next) ∨
      (∃ error, result = .error error ∧ next = state) := by
  rw [Attempted, run_attempt] at attempted
  cases found : Identity.applyRecord primitives state record with
  | ok after =>
    rw [found] at attempted
    obtain ⟨rfl, rfl⟩ := Prod.mk.inj attempted
    exact .inl ⟨rfl, rfl⟩
  | error error =>
    rw [found] at attempted
    obtain ⟨rfl, rfl⟩ := Prod.mk.inj attempted
    exact .inr ⟨error, rfl, rfl⟩

/-- One more attempt counts when it applied its record. -/
theorem appliedCount_append (events : List (PeerLifecycleRecord × Except CryptoError PUnit))
    (record : PeerLifecycleRecord) (result : Except CryptoError PUnit) :
    appliedCount (events ++ [(record, result)]) =
      appliedCount events + if result.isOk then 1 else 0 := by
  simp only [appliedCount, List.countP_append, List.countP_singleton]

/-- After any attempts to apply records to the state of a document, the keys are represented, the
sequence number is the number of records that were applied, the names of the node and its root key
are those of the document, and an attempt that fails changes nothing. -/
theorem attempts_keep_representation (primitives : Primitives) {document : NodeIdentityDocument}
    {initial final : IdentityState}
    {events : List (PeerLifecycleRecord × Except CryptoError PUnit)}
    (described : fromDocument primitives document = .ok initial)
    (run : Run (Attempted primitives) initial events final) :
    Represented primitives final ∧ final.sequence.toNat = appliedCount events ∧
      final.nodeId = document.nodeId ∧ final.rootKeyId = document.rootKeyId ∧
      final.rootPublicKey = document.rootPublicKey ∧
      ∀ record error next,
        (attempt primitives record).run final = (.error error, next) → next = final := by
  have atomic : ∀ record error next,
      (attempt primitives record).run final = (.error error, next) → next = final := by
    intro record error next failed
    rcases attempted_cases failed with ⟨succeeded, -⟩ | ⟨_, -, same⟩
    · cases succeeded
    · exact same
  suffices kept : Represented primitives final ∧ final.sequence.toNat = appliedCount events ∧
      final.nodeId = document.nodeId ∧ final.rootKeyId = document.rootKeyId ∧
      final.rootPublicKey = document.rootPublicKey from
    ⟨kept.1, kept.2.1, kept.2.2.1, kept.2.2.2.1, kept.2.2.2.2, atomic⟩
  refine (run.invariant (fun events state => (state.sequence.toNat : Int) ≤ safeIntegerMax ∧
    Represented primitives state ∧ state.sequence.toNat = appliedCount events ∧
    state.nodeId = document.nodeId ∧ state.rootKeyId = document.rootKeyId ∧
    state.rootPublicKey = document.rootPublicKey) ?_ ?_).2
  · obtain ⟨verified, createdAt, -, rfl⟩ := (fromDocument_ok_iff ..).mp described
    exact ⟨(by decide : ((0 : UInt64).toNat : Int) ≤ safeIntegerMax),
      introduced_represented ((verifyIdentityDocument_iff _).mp verified) createdAt,
      rfl, rfl, rfl, rfl⟩
  · rintro events state ⟨record, result⟩ next - ⟨room, represented, counted, node, root, rootKey⟩
      attempted
    rcases attempted_cases attempted with ⟨rfl, applied⟩ | ⟨error, rfl, rfl⟩
    · obtain ⟨sameNode, sameRoot, sameKey, sequence, small⟩ := applyRecord_kept applied
      refine ⟨small, represented.applyRecord applied, ?_, sameNode.trans node, sameRoot.trans root,
        sameKey.trans rootKey⟩
      have bound : (state.sequence + 1).toNat = state.sequence.toNat + 1 := by
        rw [UInt64.toNat_add, UInt64.toNat_one]
        unfold safeIntegerMax at room
        omega
      rw [sequence, bound, counted, appliedCount_append]
      rfl
    · refine ⟨room, represented, ?_, node, root, rootKey⟩
      rw [counted, appliedCount_append]
      rfl

/-- The recorded rotation is applied, the second one is not, as its number is not the next one. -/
theorem attempts_keep_representation_recorded :
    Represented recordedPrimitives recordedState ∧ recordedState.sequence.toNat = 1 ∧
      recordedState.nodeId = recordedDocument.nodeId ∧
      recordedState.rootKeyId = recordedDocument.rootKeyId ∧
      recordedState.rootPublicKey = recordedDocument.rootPublicKey ∧
      ∀ record error next, (attempt recordedPrimitives record).run recordedState =
        (.error error, next) → next = recordedState := by
  have first : Attempted recordedPrimitives (introduced recordedDocument 1787443200)
      (.rotation recordedFirst, .ok ⟨⟩) recordedState := by
    have accepted : applyRotation recordedPrimitives (introduced recordedDocument 1787443200)
        recordedFirst = .ok recordedState :=
      (applyRotation_ok_iff ..).mpr ⟨_, _, _, recordedFirst_accepted, rfl⟩
    rw [Attempted, run_attempt, applyRecord, accepted]
    rfl
  have again : Attempted recordedPrimitives recordedState (.rotation recordedFirst,
      .error (.code "rotation_shape_or_sequence_invalid")) recordedState := by
    have number : ¬(recordedFirst.sequence = recordedState.sequence + 1) := by decide
    rw [Attempted, run_attempt, applyRecord, applyRotation,
      ensure_neg (fun shape => number shape.2.2.1)]
    rfl
  exact attempts_keep_representation recordedPrimitives recordedDocument_initial
    ((Run.single first).snoc again)

end QsolFed.Identity
