import QsolFed.Identity.Encoding
import Mathlib.Data.Set.Basic

/-!
# Acceptance windows

The issue times at which an operational key is acceptable form a closed interval: from the start
of its validity to the end of the overlap in which it was replaced. Windows only shrink, because
a rotation bounds a key that was unbounded or no longer active, and a status record ends the
window altogether.
-/
namespace QsolFed

open Checked Crypto

/-- The key is acceptable for envelopes issued at a time. -/
def OperationalKeyState.Accepts (key : OperationalKeyState) (issued : Int) : Prop :=
  key.status = .active ∧ key.validFrom ≤ issued ∧ ∀ until_ ∈ key.validUntil, issued ≤ until_

/-- A finding that rejects a key for its standing or its window. -/
def SignatureValidity.RejectsKey (found : SignatureValidity) : Prop :=
  found = .revoked ∨ found = .compromised ∨ found = .notYetValid ∨ found = .retired

namespace Identity

variable {primitives : Primitives}

/-- A check ended with a rejection of the key. -/
def KeyRejected (result : Except CryptoError AuthenticationAssessment) : Prop :=
  ∃ found, result = .ok (assessment found) ∧ found.RejectsKey

/-- The issue times at which no envelope under a key is rejected for the key's standing or
window. -/
def admittedTimes (primitives : Primitives) (state : IdentityState) (keyId : String) : Set Int :=
  { issued | ∀ signed nowUnix clock, signed.keyId = keyId →
    parseTimestamp signed.envelope.issuedAt = .ok issued →
    ¬KeyRejected (verifySignedEnvelope primitives signed state nowUnix clock) }

/-- An envelope gets to the check of its key: it is from this node and the clock admits it. -/
def ReachesKey (signed : SignedEnvelope) (state : IdentityState) (nowUnix : Int)
    (clock : ClockPolicy) : Prop :=
  signed.schema = signedEnvelopeSchemaV1 ∧ signed.nodeId = state.nodeId ∧
    signed.envelope.sender = state.nodeId ∧ clock.validateEnvelope signed.envelope nowUnix = .ok ()

/-- A clock only admits envelopes with an issue time. -/
theorem validateEnvelope_issued {clock : ClockPolicy} {envelope : FederationEnvelope}
    {nowUnix : Int} (admitted : clock.validateEnvelope envelope nowUnix = .ok ()) :
    ∃ issued, parseTimestamp envelope.issuedAt = .ok issued := by
  simp only [ClockPolicy.validateEnvelope, bind_ok_iff] at admitted
  obtain ⟨issued, parsed, -⟩ := admitted
  exact ⟨issued, parsed⟩

/-- The verdict on an envelope that gets to the check of a known key. -/
theorem keyRejected_of_reaches {signed : SignedEnvelope} {state : IdentityState} {nowUnix : Int}
    {clock : ClockPolicy} (reaches : ReachesKey signed state nowUnix clock)
    {key : OperationalKeyState} (known : state.operationalKeys.get? signed.keyId = some key)
    {issued : Int} (parsed : parseTimestamp signed.envelope.issuedAt = .ok issued) :
    KeyRejected (verifySignedEnvelope primitives signed state nowUnix clock) ↔
      ¬key.Accepts issued := by
  obtain ⟨schema, node, sender, admitted⟩ := reaches
  have guard : ¬(signed.schema ≠ signedEnvelopeSchemaV1 ∨ signed.nodeId ≠ state.nodeId ∨
      signed.envelope.sender ≠ state.nodeId) := by simp [schema, node, sender]
  simp only [verifySignedEnvelope, if_neg guard, admitted, parsed, bind_ok, known]
  cases standing : key.status with
  | revoked =>
    simp only [OperationalKeyState.Accepts, standing, reduceCtorEq, false_and, not_false_eq_true,
      iff_true]
    exact ⟨.revoked, rfl, .inl rfl⟩
  | compromised =>
    simp only [OperationalKeyState.Accepts, standing, reduceCtorEq, false_and, not_false_eq_true,
      iff_true]
    exact ⟨.compromised, rfl, .inr (.inl rfl)⟩
  | active =>
    simp only [OperationalKeyState.Accepts, standing, true_and]
    by_cases early : issued < key.validFrom
    · simp only [early, ↓reduceIte]
      exact ⟨fun _ window => absurd window.1 (not_le.mpr early),
        fun _ => ⟨.notYetValid, rfl, .inr (.inr (.inl rfl))⟩⟩
    · by_cases late : key.validUntil.any fun until_ => until_ < issued
      · simp only [early, late, ↓reduceIte]
        refine ⟨fun _ window => ?_, fun _ => ⟨.retired, rfl, .inr (.inr (.inr rfl))⟩⟩
        obtain ⟨until_, present, before⟩ := (Option.any_eq_true ..).mp late
        exact absurd (window.2 until_ present) (not_le.mpr (of_decide_eq_true before))
      · simp only [early, late, ↓reduceIte, Bool.false_eq_true]
        constructor
        · rintro ⟨found, checked, rejects⟩
          simp only [bind_ok_iff, pure_ok_iff] at checked
          obtain ⟨canonical, -, valid, -, same⟩ := checked
          have verdict : found = if valid = true then .valid else .invalid :=
            (congrArg AuthenticationAssessment.signature same).symm
          cases valid <;> simp [verdict, SignatureValidity.RejectsKey] at rejects
        · intro outside
          refine absurd ⟨not_lt.mp early, fun until_ present => ?_⟩ outside
          by_contra before
          exact late (by
            rw [Option.mem_def.mp present]
            simpa using before)

/-- An envelope is rejected for its key exactly when it gets to the check of a known key whose
window leaves its issue time out. -/
theorem keyRejected_iff (signed : SignedEnvelope) (state : IdentityState) (nowUnix : Int)
    (clock : ClockPolicy) :
    KeyRejected (verifySignedEnvelope primitives signed state nowUnix clock) ↔
      ReachesKey signed state nowUnix clock ∧ ∃ key issued,
        state.operationalKeys.get? signed.keyId = some key ∧
        parseTimestamp signed.envelope.issuedAt = .ok issued ∧ ¬key.Accepts issued := by
  constructor
  · intro rejected
    have reaches : ReachesKey signed state nowUnix clock := by
      by_contra stopped
      obtain ⟨found, checked, rejects⟩ := rejected
      simp only [verifySignedEnvelope] at checked
      split at checked
      · obtain rfl : .nodeMismatch = found := by simpa [pure, Except.pure, assessment] using checked
        simp [SignatureValidity.RejectsKey] at rejects
      · next guard =>
        simp only [not_or, not_not] at guard
        split at checked
        · obtain rfl : .clockRejected = found := by
            simpa [pure, Except.pure, assessment] using checked
          simp [SignatureValidity.RejectsKey] at rejects
        · next admitted => exact stopped ⟨guard.1, guard.2.1, guard.2.2, admitted⟩
    obtain ⟨issued, parsed⟩ := validateEnvelope_issued reaches.2.2.2
    cases known : state.operationalKeys.get? signed.keyId with
    | none =>
      obtain ⟨found, checked, rejects⟩ := rejected
      obtain ⟨schema, node, sender, admitted⟩ := reaches
      have guard : ¬(signed.schema ≠ signedEnvelopeSchemaV1 ∨ signed.nodeId ≠ state.nodeId ∨
          signed.envelope.sender ≠ state.nodeId) := by simp [schema, node, sender]
      simp only [verifySignedEnvelope, if_neg guard, admitted, parsed, bind_ok, known] at checked
      obtain rfl : .unknownKey = found := by simpa [pure, Except.pure, assessment] using checked
      simp [SignatureValidity.RejectsKey] at rejects
    | some key =>
      exact ⟨reaches, key, issued, rfl, parsed,
        (keyRejected_of_reaches reaches known parsed).mp rejected⟩
  · rintro ⟨reaches, key, issued, known, parsed, outside⟩
    exact (keyRejected_of_reaches reaches known parsed).mpr outside

/-! ## Coherence -/

/-- What holds of the keys of every reachable state. -/
structure Coherent (state : IdentityState) : Prop where
  /-- Keys are stored under their identifiers. -/
  keyed : ∀ id key, state.operationalKeys.get? id = some key → key.keyId = id
  /-- An active current key is not bounded yet. -/
  settled : ∀ key, state.operationalKeys.get? state.currentKeyId = some key →
    key.status = .active → key.validUntil = none
  /-- Every other active key is bounded. -/
  bounded : ∀ id key, id ≠ state.currentKeyId → state.operationalKeys.get? id = some key →
    key.status = .active → ∃ until_, key.validUntil = some until_
  /-- No active key ends before it starts. -/
  forward : ∀ id key until_, state.operationalKeys.get? id = some key → key.status = .active →
    key.validUntil = some until_ → key.validFrom ≤ until_
  /-- The current key is known. -/
  present : ∃ key, state.operationalKeys.get? state.currentKeyId = some key

/-- The keys after a rotation. -/
theorem get?_rotated (state : IdentityState) (record : KeyRotationRecord)
    (previous : OperationalKeyState) (notBefore overlapUntil : Int) (id : String) :
    (rotated state record previous notBefore overlapUntil).operationalKeys.get? id =
      if id = record.nextKeyId then
        some { keyId := record.nextKeyId, publicKey := record.nextPublicKey,
               validFrom := notBefore, validUntil := none, status := .active }
      else if id = record.previousKeyId then
        some { previous with validUntil := some overlapUntil }
      else state.operationalKeys.get? id := by
  simp only [rotated, OrderedMap.get?_insert]

/-- The keys after a status record. -/
theorem get?_restated (state : IdentityState) (record : KeyStatusRecord)
    (key : OperationalKeyState) (effectiveAt : Int) (id : String) :
    (restated state record key effectiveAt).operationalKeys.get? id =
      if id = record.keyId then
        some { key with
          status := statusOf record.status
          validUntil := some (key.validUntil.elim effectiveAt fun old => min old effectiveAt) }
      else state.operationalKeys.get? id := by
  simp only [restated, OrderedMap.get?_insert]

/-- No status record makes a key active. -/
theorem statusOf_ne_active (kind : KeyStatusKind) : statusOf kind ≠ .active := by
  cases kind <;> decide

/-- The state of a document is coherent. -/
theorem introduced_coherent (document : NodeIdentityDocument) (createdAt : Int) :
    Coherent (introduced document createdAt) := by
  have only : ∀ id key, (introduced document createdAt).operationalKeys.get? id = some key →
      id = document.operationalKeyId ∧ key =
        { keyId := document.operationalKeyId, publicKey := document.operationalPublicKey,
          validFrom := createdAt, validUntil := none, status := .active } := by
    intro id key known
    simp only [introduced, OrderedMap.get?_insert, OrderedMap.get?_empty] at known
    split_ifs at known with here
    exact ⟨here, (Option.some.inj known).symm⟩
  refine ⟨fun id key known => ?_, fun key known _ => ?_, fun id key other known _ => ?_,
    fun id key until_ known _ until_eq => ?_, ⟨_, OrderedMap.get?_insert_self ..⟩⟩
  · obtain ⟨rfl, rfl⟩ := only id key known
    rfl
  · obtain ⟨-, rfl⟩ := only _ key known
    rfl
  · exact absurd (only id key known).1 other
  · obtain ⟨-, rfl⟩ := only id key known
    cases until_eq

/-- A rotation keeps a state coherent. -/
theorem Coherent.rotated {state : IdentityState} {record : KeyRotationRecord}
    {previous : OperationalKeyState} {notBefore overlapUntil : Int} (coherent : Coherent state)
    (accepted : RotationAccepted primitives state record previous notBefore overlapUntil) :
    Coherent (rotated state record previous notBefore overlapUntil) := by
  refine ⟨fun id key known => ?_, fun key known _ => ?_, fun id key other known active => ?_,
    fun id key until_ known active until_eq => ?_, ⟨_, by rw [get?_rotated]; exact if_pos rfl⟩⟩
  · rw [get?_rotated] at known
    split_ifs at known with new old
    · obtain rfl := Option.some.inj known
      exact new.symm
    · obtain rfl := Option.some.inj known
      exact old ▸ coherent.keyed record.previousKeyId previous accepted.replaced
    · exact coherent.keyed id key known
  · rw [get?_rotated, if_pos (show (Identity.rotated ..).currentKeyId = record.nextKeyId from rfl)]
      at known
    obtain rfl := Option.some.inj known
    rfl
  · rw [get?_rotated] at known
    split_ifs at known with new old
    · exact absurd new other
    · obtain rfl := Option.some.inj known
      exact ⟨overlapUntil, rfl⟩
    · exact coherent.bounded id key (accepted.current ▸ old) known active
  · rw [get?_rotated] at known
    split_ifs at known with new old
    · obtain rfl := Option.some.inj known
      cases until_eq
    · obtain rfl := Option.some.inj known
      obtain rfl := Option.some.inj until_eq
      exact accepted.activated.trans accepted.forward
    · exact coherent.forward id key until_ known active until_eq

/-- A status record keeps a state coherent. -/
theorem Coherent.restated {state : IdentityState} {record : KeyStatusRecord}
    {target : OperationalKeyState} {effectiveAt : Int} (coherent : Coherent state)
    (accepted : StatusAccepted primitives state record target effectiveAt) :
    Coherent (restated state record target effectiveAt) := by
  have old : ∀ id key, (Identity.restated state record target effectiveAt).operationalKeys.get? id =
      some key → key.status = .active → state.operationalKeys.get? id = some key := by
    intro id key known active
    rw [get?_restated] at known
    split_ifs at known with here
    · obtain rfl := Option.some.inj known
      exact absurd active (statusOf_ne_active record.status)
    · exact known
  refine ⟨fun id key known => ?_, fun key known active => coherent.settled key (old _ _ known active)
    active, fun id key other known active => coherent.bounded id key other (old _ _ known active)
    active, fun id key until_ known active => coherent.forward id key until_ (old _ _ known active)
    active, ?_⟩
  · rw [get?_restated] at known
    split_ifs at known with here
    · obtain rfl := Option.some.inj known
      exact here ▸ coherent.keyed record.keyId target accepted.known
    · exact coherent.keyed id key known
  · obtain ⟨key, known⟩ := coherent.present
    by_cases here : state.currentKeyId = record.keyId
    · exact ⟨_, by rw [get?_restated]; exact if_pos here⟩
    · exact ⟨key, by rw [get?_restated]; exact (if_neg here).trans known⟩

/-- Every reachable state is coherent. -/
theorem Reachable.coherent {state : IdentityState} (reachable : Reachable primitives state) :
    Coherent state :=
  reachable.invariant Coherent (fun document createdAt _ _ => introduced_coherent document createdAt)
    (fun _ _ _ _ _ coherent accepted => coherent.rotated accepted)
    (fun _ _ _ _ coherent accepted => coherent.restated accepted)

/-! ## Windows shrink -/

/-- A key that kept its identity and whose window did not grow. -/
structure Narrows (key later : OperationalKeyState) : Prop where
  /-- The key is the same. -/
  publicKey : later.publicKey = key.publicKey
  /-- The start of validity is the same. -/
  validFrom : later.validFrom = key.validFrom
  /-- The window did not grow. -/
  accepts : ∀ issued, later.Accepts issued → key.Accepts issued
  /-- A key that was not active is not active. -/
  inactive : key.status ≠ .active → later.status ≠ .active

/-- A key that did not change. -/
theorem Narrows.refl (key : OperationalKeyState) : Narrows key key :=
  ⟨rfl, rfl, fun _ => id, id⟩

/-- Windows shrink step by step. -/
theorem Narrows.trans {first second third : OperationalKeyState} (one : Narrows first second)
    (two : Narrows second third) : Narrows first third :=
  ⟨two.publicKey.trans one.publicKey, two.validFrom.trans one.validFrom,
    fun issued accepts => one.accepts issued (two.accepts issued accepts),
    fun inactive => two.inactive (one.inactive inactive)⟩

/-- A rotation narrows every key it finds. -/
theorem narrows_rotated {state : IdentityState} {record : KeyRotationRecord}
    {previous : OperationalKeyState} {notBefore overlapUntil : Int} (coherent : Coherent state)
    (accepted : RotationAccepted primitives state record previous notBefore overlapUntil)
    {id : String} {key : OperationalKeyState} (known : state.operationalKeys.get? id = some key) :
    ∃ later, (rotated state record previous notBefore overlapUntil).operationalKeys.get? id =
      some later ∧ Narrows key later := by
  rw [get?_rotated]
  by_cases new : id = record.nextKeyId
  · rw [new, accepted.fresh] at known
    cases known
  · by_cases old : id = record.previousKeyId
    · subst old
      obtain rfl : previous = key := Option.some.inj (accepted.replaced.symm.trans known)
      rw [if_neg new, if_pos rfl]
      refine ⟨_, rfl, rfl, rfl, fun issued window => ⟨window.1, window.2.1, ?_⟩, id⟩
      have unbounded := coherent.settled previous (accepted.current ▸ accepted.replaced) window.1
      simp [unbounded]
    · rw [if_neg new, if_neg old]
      exact ⟨key, known, .refl key⟩

/-- A status record narrows every key it finds. -/
theorem narrows_restated {state : IdentityState} {record : KeyStatusRecord}
    {target : OperationalKeyState} {effectiveAt : Int}
    (accepted : StatusAccepted primitives state record target effectiveAt)
    {id : String} {key : OperationalKeyState} (known : state.operationalKeys.get? id = some key) :
    ∃ later, (restated state record target effectiveAt).operationalKeys.get? id = some later ∧
      Narrows key later := by
  rw [get?_restated]
  by_cases here : id = record.keyId
  · subst here
    obtain rfl : target = key := Option.some.inj (accepted.known.symm.trans known)
    rw [if_pos rfl]
    exact ⟨_, rfl, rfl, rfl,
      fun issued window => absurd window.1 (statusOf_ne_active record.status),
      fun _ => statusOf_ne_active record.status⟩
  · rw [if_neg here]
    exact ⟨key, known, .refl key⟩

/-- Accepted records keep the name of the node and narrow every key they find. -/
theorem Extends.narrows {state later : IdentityState} (coherent : Coherent state)
    (run : Extends primitives state later) :
    later.nodeId = state.nodeId ∧
      ∀ id key, state.operationalKeys.get? id = some key →
        ∃ end_, later.operationalKeys.get? id = some end_ ∧ Narrows key end_ := by
  suffices strong : Coherent later ∧ later.nodeId = state.nodeId ∧
      ∀ id key, state.operationalKeys.get? id = some key →
        ∃ end_, later.operationalKeys.get? id = some end_ ∧ Narrows key end_ from strong.2
  induction run with
  | refl => exact ⟨coherent, rfl, fun id key known => ⟨key, known, .refl key⟩⟩
  | tail _ step ih =>
    obtain ⟨middleCoherent, sameNode, narrowed⟩ := ih
    obtain ⟨record, applied⟩ := step
    cases record with
    | rotation record =>
      obtain ⟨previous, notBefore, overlapUntil, accepted, rfl⟩ :=
        (applyRotation_ok_iff ..).mp applied
      refine ⟨middleCoherent.rotated accepted, sameNode, fun id key known => ?_⟩
      obtain ⟨middle, found, first⟩ := narrowed id key known
      obtain ⟨end_, last, second⟩ := narrows_rotated middleCoherent accepted found
      exact ⟨end_, last, first.trans second⟩
    | status record =>
      obtain ⟨target, effectiveAt, accepted, rfl⟩ := (applyKeyStatus_ok_iff ..).mp applied
      refine ⟨middleCoherent.restated accepted, sameNode, fun id key known => ?_⟩
      obtain ⟨middle, found, first⟩ := narrowed id key known
      obtain ⟨end_, last, second⟩ := narrows_restated accepted found
      exact ⟨end_, last, first.trans second⟩

/-- Acceptance windows only ever shrink: a key that a reachable state knows keeps its public key
and the start of its validity under all further records, is admitted at no issue time at which
it was not admitted before, and never becomes active again. -/
theorem acceptance_windows_shrink (primitives : Primitives) {state later : IdentityState}
    (reachable : Reachable primitives state) (run : Extends primitives state later)
    {keyId : String} {key : OperationalKeyState}
    (known : state.operationalKeys.get? keyId = some key) :
    ∃ end_, later.operationalKeys.get? keyId = some end_ ∧ end_.publicKey = key.publicKey ∧
      end_.validFrom = key.validFrom ∧
      (∀ issued, end_.Accepts issued → key.Accepts issued) ∧
      admittedTimes primitives later keyId ⊆ admittedTimes primitives state keyId ∧
      (key.status ≠ .active → end_.status ≠ .active) := by
  obtain ⟨sameNode, narrowed⟩ := Extends.narrows reachable.coherent run
  obtain ⟨end_, found, narrows⟩ := narrowed keyId key known
  refine ⟨end_, found, narrows.publicKey, narrows.validFrom, narrows.accepts, ?_, narrows.inactive⟩
  intro issued admitted signed nowUnix clock sameKey parsed rejected
  obtain ⟨reaches, other, time, otherKnown, timeParsed, outside⟩ :=
    (keyRejected_iff ..).mp rejected
  rw [sameKey, known] at otherKnown
  obtain rfl := Option.some.inj otherKnown
  refine admitted signed nowUnix clock sameKey parsed ((keyRejected_iff ..).mpr ⟨?_, end_, time,
    sameKey ▸ found, timeParsed, fun accepts => outside (narrows.accepts time accepts)⟩)
  obtain ⟨schema, node, sender, clockAdmits⟩ := reaches
  exact ⟨schema, node.trans sameNode.symm, sender.trans sameNode.symm, clockAdmits⟩

/-- The window of the first recorded key only shrinks in the first recorded rotation. -/
theorem acceptance_windows_shrink_recorded :
    ∃ end_, recordedState.operationalKeys.get? recordedDocument.operationalKeyId = some end_ ∧
      end_.publicKey = recordedKey.publicKey ∧ end_.validFrom = recordedKey.validFrom ∧
      (∀ issued, end_.Accepts issued → recordedKey.Accepts issued) ∧
      admittedTimes recordedPrimitives recordedState recordedDocument.operationalKeyId ⊆
        admittedTimes recordedPrimitives (introduced recordedDocument 1787443200)
          recordedDocument.operationalKeyId ∧
      (recordedKey.status ≠ .active → end_.status ≠ .active) :=
  acceptance_windows_shrink recordedPrimitives recordedDocument_reachable recordedState_extends
    (OrderedMap.get?_insert_self ..)

end Identity

end QsolFed
