import QsolFed.Identity.Windows

/-!
# Overlapping keys

A transition leaves the replaced key acceptable until the end of the overlap, so that two keys
are acceptable at once by design. The overlap check is meant to keep a third key out. It compares
the end of earlier windows with the start of the new one by a strict inequality, while acceptance
includes both ends: at the instant where a transition starts exactly when the window of an
earlier active key ends, three keys are acceptable. Without such a transition there are never
more than two.
-/
namespace QsolFed.Identity

open Checked Crypto

variable {primitives : Primitives}

/-- A key is known and acceptable for envelopes issued at a time. -/
def Acceptable (state : IdentityState) (keyId : String) (issued : Int) : Prop :=
  ∃ key, state.operationalKeys.get? keyId = some key ∧ key.Accepts issued

/-- At every issue time at most two keys are acceptable. -/
def AtMostTwo (state : IdentityState) : Prop :=
  ∀ issued first second third, Acceptable state first issued → Acceptable state second issued →
    Acceptable state third issued → first = second ∨ first = third ∨ second = third

/-- No active key other than the replaced one ends at the instant at which a transition starts. -/
def Separate (state : IdentityState) (record : KeyRotationRecord) : Prop :=
  record.mode = .transition → ∀ id key notBefore, id ≠ record.previousKeyId →
    state.operationalKeys.get? id = some key → key.status = .active →
    parseTimestamp record.notBefore = .ok notBefore → key.validUntil ≠ some notBefore

/-- One accepted lifecycle record, separate if it is a rotation. -/
def SeparateStep (primitives : Primitives) (state next : IdentityState) : Prop :=
  ∃ record, applyRecord primitives state record = .ok next ∧
    ∀ rotation, record = .rotation rotation → Separate state rotation

/-- Of the keys other than the current one, at most one is active until the current one is
valid. -/
def OneLate (state : IdentityState) : Prop :=
  ∀ current, state.operationalKeys.get? state.currentKeyId = some current →
    ∀ first second one two firstUntil secondUntil, first ≠ state.currentKeyId →
      second ≠ state.currentKeyId → state.operationalKeys.get? first = some one →
      state.operationalKeys.get? second = some two → one.status = .active →
      two.status = .active → one.validUntil = some firstUntil → two.validUntil = some secondUntil →
      current.validFrom ≤ firstUntil → current.validFrom ≤ secondUntil → first = second

/-- What holds of the keys of every state that separate steps lead to. -/
structure Spaced (state : IdentityState) : Prop where
  /-- The state is coherent. -/
  coherent : Coherent state
  /-- At most one replaced key reaches into the window of the current one. -/
  oneLate : OneLate state
  /-- At most two keys are acceptable at once. -/
  atMostTwo : AtMostTwo state

/-- The overlap check found no other active key that ends after a time. -/
theorem ends_before {state : IdentityState} (coherent : Coherent state) {currentKeyId : String}
    {notBefore : Int} (apart : state.operationalKeys.values.any (overlaps currentKeyId notBefore) =
      false) {id : String} {key : OperationalKeyState} {until_ : Int} (other : id ≠ currentKeyId)
    (known : state.operationalKeys.get? id = some key) (active : key.status = .active)
    (end_ : key.validUntil = some until_) : until_ ≤ notBefore := by
  have listed := (state.operationalKeys.mem_values key).mpr ⟨id, known⟩
  have clear := (List.any_eq_false.mp apart) key listed
  rw [← coherent.keyed id key known] at other
  simpa [overlaps, other, active, end_] using clear

/-- After an accepted separate rotation, at most one key other than the new one is active until
the new one is valid. -/
theorem rotated_oneLate {state : IdentityState} {record : KeyRotationRecord}
    {previous : OperationalKeyState} {notBefore overlapUntil : Int} (spaced : Spaced state)
    (accepted : RotationAccepted primitives state record previous notBefore overlapUntil)
    (separate : Separate state record) :
    OneLate (rotated state record previous notBefore overlapUntil) := by
  intro current newest first second one two firstUntil secondUntil firstOther secondOther
    firstKnown secondKnown firstActive secondActive firstEnd secondEnd firstLate secondLate
  change first ≠ record.nextKeyId at firstOther
  change second ≠ record.nextKeyId at secondOther
  have start : current.validFrom = notBefore := by
    rw [get?_rotated, if_pos (show (rotated ..).currentKeyId = record.nextKeyId from rfl)] at newest
    exact (Option.some.inj newest) ▸ rfl
  rw [start] at firstLate secondLate
  rw [get?_rotated, if_neg firstOther] at firstKnown
  rw [get?_rotated, if_neg secondOther] at secondKnown
  obtain ⟨payload, -, -, -, mode⟩ := accepted.signed
  have early : ∀ id key until_, id ≠ record.previousKeyId →
      state.operationalKeys.get? id = some key → key.status = .active →
      key.validUntil = some until_ → until_ ≤ notBefore := fun id key until_ other known active
      end_ => ends_before spaced.coherent accepted.apart other known active end_
  rcases mode with ⟨transition, -, -⟩ | ⟨-, -, inactive, -⟩
  · have replaced : ∀ id key until_, (if id = record.previousKeyId then
          some { previous with validUntil := some overlapUntil }
        else state.operationalKeys.get? id) = some key → key.status = .active →
        key.validUntil = some until_ → notBefore ≤ until_ → id = record.previousKeyId := by
      intro id key until_ known active end_ late
      by_contra other
      rw [if_neg other] at known
      have same : until_ = notBefore := le_antisymm (early id key until_ other known active end_) late
      exact separate transition id key notBefore other known active accepted.start (same ▸ end_)
    rw [replaced first one firstUntil firstKnown firstActive firstEnd firstLate,
      replaced second two secondUntil secondKnown secondActive secondEnd secondLate]
  · have notReplaced : ∀ id key, (if id = record.previousKeyId then
          some { previous with validUntil := some overlapUntil }
        else state.operationalKeys.get? id) = some key → key.status = .active →
        id ≠ record.previousKeyId ∧ state.operationalKeys.get? id = some key := by
      intro id key known active
      split_ifs at known with old
      · obtain rfl := Option.some.inj known
        exact absurd active inactive
      · exact ⟨old, known⟩
    obtain ⟨firstOld, firstThere⟩ := notReplaced first one firstKnown firstActive
    obtain ⟨secondOld, secondThere⟩ := notReplaced second two secondKnown secondActive
    have replaced := accepted.replaced
    rw [accepted.current] at replaced firstOld secondOld
    exact spaced.oneLate previous replaced first second one two firstUntil secondUntil firstOld
      secondOld firstThere secondThere firstActive secondActive firstEnd secondEnd
      (accepted.activated.trans firstLate) (accepted.activated.trans secondLate)

/-- A key that is acceptable after a rotation is the new key, or was acceptable before. -/
theorem acceptable_rotated {state : IdentityState} {record : KeyRotationRecord}
    {previous : OperationalKeyState} {notBefore overlapUntil : Int} (coherent : Coherent state)
    (accepted : RotationAccepted primitives state record previous notBefore overlapUntil)
    {id : String} {issued : Int}
    (acceptable : Acceptable (rotated state record previous notBefore overlapUntil) id issued) :
    (id = record.nextKeyId ∧ notBefore ≤ issued) ∨
      (id ≠ record.nextKeyId ∧ Acceptable state id issued) := by
  obtain ⟨later, found, window⟩ := acceptable
  by_cases new : id = record.nextKeyId
  · rw [get?_rotated, if_pos new] at found
    obtain rfl := Option.some.inj found
    exact .inl ⟨new, window.2.1⟩
  · refine .inr ⟨new, ?_⟩
    have known : ∃ key, state.operationalKeys.get? id = some key := by
      rw [get?_rotated, if_neg new] at found
      split_ifs at found with old
      · exact ⟨previous, old ▸ accepted.replaced⟩
      · exact ⟨later, found⟩
    obtain ⟨key, known⟩ := known
    obtain ⟨end_, last, narrows⟩ := narrows_rotated coherent accepted known
    obtain rfl := Option.some.inj (found.symm.trans last)
    exact ⟨key, known, narrows.accepts issued window⟩

/-- Two keys other than the new one that are both acceptable when the new one is valid are one
key. -/
theorem late_unique (first second : String) (issued : Int) {state : IdentityState} {record : KeyRotationRecord}
    {previous : OperationalKeyState} {notBefore overlapUntil : Int} (spaced : Spaced state)
    (accepted : RotationAccepted primitives state record previous notBefore overlapUntil)
    (separate : Separate state record)
    (late : notBefore ≤ issued) (firstOther : first ≠ record.nextKeyId)
    (secondOther : second ≠ record.nextKeyId)
    (one : Acceptable (rotated state record previous notBefore overlapUntil) first issued)
    (two : Acceptable (rotated state record previous notBefore overlapUntil) second issued) :
    first = second := by
  obtain ⟨oneKey, oneKnown, oneActive, -, oneEnds⟩ := one
  obtain ⟨twoKey, twoKnown, twoActive, -, twoEnds⟩ := two
  have coherent := spaced.coherent.rotated accepted
  obtain ⟨firstUntil, firstEnd⟩ := coherent.bounded first oneKey firstOther oneKnown oneActive
  obtain ⟨secondUntil, secondEnd⟩ := coherent.bounded second twoKey secondOther twoKnown twoActive
  obtain ⟨current, newest⟩ := coherent.present
  have start : current.validFrom = notBefore := by
    have known := newest
    rw [get?_rotated, if_pos (show (rotated ..).currentKeyId = record.nextKeyId from rfl)] at known
    exact (Option.some.inj known) ▸ rfl
  exact rotated_oneLate spaced accepted separate current newest first second oneKey twoKey
    firstUntil secondUntil firstOther secondOther oneKnown twoKnown oneActive twoActive firstEnd
    secondEnd (start ▸ late.trans (oneEnds firstUntil firstEnd))
    (start ▸ late.trans (twoEnds secondUntil secondEnd))

/-- A separate rotation keeps a state spaced. -/
theorem Spaced.rotated {state : IdentityState} {record : KeyRotationRecord}
    {previous : OperationalKeyState} {notBefore overlapUntil : Int} (spaced : Spaced state)
    (accepted : RotationAccepted primitives state record previous notBefore overlapUntil)
    (separate : Separate state record) :
    Spaced (rotated state record previous notBefore overlapUntil) := by
  refine ⟨spaced.coherent.rotated accepted, rotated_oneLate spaced accepted separate, ?_⟩
  intro issued first second third one two three
  have unique := fun left right => late_unique left right issued spaced accepted separate
  rcases acceptable_rotated spaced.coherent accepted one with ⟨one', late⟩ | ⟨one', before⟩
  · by_cases two' : second = record.nextKeyId
    · exact .inl (one'.trans two'.symm)
    · by_cases three' : third = record.nextKeyId
      · exact .inr (.inl (one'.trans three'.symm))
      · exact .inr (.inr (unique second third late two' three' two three))
  · rcases acceptable_rotated spaced.coherent accepted two with ⟨two', late⟩ | ⟨two', before'⟩
    · by_cases three' : third = record.nextKeyId
      · exact .inr (.inr (two'.trans three'.symm))
      · exact .inr (.inl (unique first third late one' three' one three))
    · rcases acceptable_rotated spaced.coherent accepted three with ⟨three', late⟩ | ⟨-, before''⟩
      · exact .inl (unique first second late one' two' one two)
      · exact spaced.atMostTwo issued first second third before before' before''

/-- A status record keeps a state spaced. -/
theorem Spaced.restated {state : IdentityState} {record : KeyStatusRecord}
    {target : OperationalKeyState} {effectiveAt : Int} (spaced : Spaced state)
    (accepted : StatusAccepted primitives state record target effectiveAt) :
    Spaced (restated state record target effectiveAt) := by
  have old : ∀ id key, (Identity.restated state record target effectiveAt).operationalKeys.get? id =
      some key → key.status = .active → state.operationalKeys.get? id = some key := by
    intro id key known active
    rw [get?_restated] at known
    split_ifs at known with here
    · obtain rfl := Option.some.inj known
      exact absurd active (statusOf_ne_active record.status)
    · exact known
  have before : ∀ id issued, Acceptable (Identity.restated state record target effectiveAt) id
      issued → Acceptable state id issued := fun id issued ⟨key, known, window⟩ =>
    ⟨key, old id key known window.1, window⟩
  refine ⟨spaced.coherent.restated accepted, ?_, fun issued first second third one two three =>
    spaced.atMostTwo issued first second third (before _ _ one) (before _ _ two)
      (before _ _ three)⟩
  intro current newest first second one two firstUntil secondUntil firstOther secondOther
    firstKnown secondKnown firstActive secondActive firstEnd secondEnd firstLate secondLate
  obtain ⟨key, known⟩ := spaced.coherent.present
  have start : current.validFrom = key.validFrom := by
    obtain ⟨later, found, narrows⟩ := narrows_restated accepted known
    obtain rfl := Option.some.inj (newest.symm.trans found)
    exact narrows.validFrom
  exact spaced.oneLate key known first second one two firstUntil secondUntil firstOther secondOther
    (old _ _ firstKnown firstActive) (old _ _ secondKnown secondActive) firstActive secondActive
    firstEnd secondEnd (start ▸ firstLate) (start ▸ secondLate)

/-- The state of a document is spaced. -/
theorem introduced_spaced (document : NodeIdentityDocument) (createdAt : Int) :
    Spaced (introduced document createdAt) := by
  have only : ∀ id key, (introduced document createdAt).operationalKeys.get? id = some key →
      id = document.operationalKeyId := by
    intro id key known
    simp only [introduced, OrderedMap.get?_insert, OrderedMap.get?_empty] at known
    split_ifs at known with here
    exact here
  refine ⟨introduced_coherent document createdAt, ?_, ?_⟩
  · intro _ _ first _ one _ _ _ firstOther _ firstKnown
    exact absurd (only first one firstKnown) firstOther
  · rintro _ first second _ ⟨one, oneKnown, -⟩ ⟨two, twoKnown, -⟩ _
    exact .inl ((only first one oneKnown).trans (only second two twoKnown).symm)

/-- Separate steps from the state of a document lead to spaced states. -/
theorem spaced_of_separate {document : NodeIdentityDocument} {initial state : IdentityState}
    (described : fromDocument primitives document = .ok initial)
    (run : Relation.ReflTransGen (SeparateStep primitives) initial state) : Spaced state := by
  induction run with
  | refl =>
    obtain ⟨-, createdAt, -, rfl⟩ := (fromDocument_ok_iff ..).mp described
    exact introduced_spaced document createdAt
  | tail _ step ih =>
    obtain ⟨record, applied, separate⟩ := step
    cases record with
    | rotation record =>
      obtain ⟨previous, notBefore, overlapUntil, accepted, rfl⟩ :=
        (applyRotation_ok_iff ..).mp applied
      exact ih.rotated accepted (separate record rfl)
    | status record =>
      obtain ⟨target, effectiveAt, accepted, rfl⟩ := (applyKeyStatus_ok_iff ..).mp applied
      exact ih.restated accepted

/-- A rotation that is not separate makes three keys acceptable at the instant at which it
starts. -/
theorem three_of_not_separate {state next : IdentityState} {record : KeyRotationRecord}
    (reachable : Reachable primitives state)
    (applied : applyRotation primitives state record = .ok next)
    (touches : ¬Separate state record) : ¬AtMostTwo next := by
  have coherent := reachable.coherent
  obtain ⟨previous, notBefore, overlapUntil, accepted, rfl⟩ := (applyRotation_ok_iff ..).mp applied
  simp only [Separate, Classical.not_imp, not_forall, not_not] at touches
  obtain ⟨transition, id, key, time, other, known, active, parsed, end_⟩ := touches
  obtain rfl : notBefore = time := Except.ok.inj (accepted.start.symm.trans parsed)
  obtain ⟨payload, -, -, -, ⟨-, previousActive, -⟩ | ⟨recovery, -⟩⟩ := accepted.signed
  · have earlierNew : id ≠ record.nextKeyId := by
      rintro rfl
      exact absurd (accepted.fresh.symm.trans known) (by simp)
    have previousNew : record.previousKeyId ≠ record.nextKeyId := by
      intro same
      exact absurd (accepted.fresh.symm.trans (same ▸ accepted.replaced)) (by simp)
    intro two
    have earlier : Acceptable (rotated state record previous notBefore overlapUntil) id
        notBefore := by
      refine ⟨key, by rw [get?_rotated, if_neg earlierNew, if_neg other, known], active,
        coherent.forward id key notBefore known active end_, fun until_ present => ?_⟩
      exact (Option.some.inj (end_.symm.trans present)).le
    have replaced : Acceptable (rotated state record previous notBefore overlapUntil)
        record.previousKeyId notBefore := by
      refine ⟨{ previous with validUntil := some overlapUntil },
        by rw [get?_rotated, if_neg previousNew, if_pos rfl], previousActive,
        accepted.activated, fun until_ present => ?_⟩
      exact (Option.some.inj present) ▸ accepted.forward
    have newest : Acceptable (rotated state record previous notBefore overlapUntil)
        record.nextKeyId notBefore :=
      ⟨_, by rw [get?_rotated, if_pos rfl], rfl, le_refl _, fun until_ present => by cases present⟩
    rcases two notBefore id record.previousKeyId record.nextKeyId earlier replaced newest with
      same | same | same
    · exact other same
    · exact earlierNew same
    · exact previousNew same
  · rw [transition] at recovery
    cases recovery

/-- At most two keys are acceptable at once in every state that separate steps lead to, and a
rotation that is not separate ends in a state where three are. -/
theorem at_most_two_iff_separate (primitives : Primitives) :
    (∀ document initial state, fromDocument primitives document = .ok initial →
      Relation.ReflTransGen (SeparateStep primitives) initial state → AtMostTwo state) ∧
    (∀ state record next, Reachable primitives state →
      applyRotation primitives state record = .ok next → ¬Separate state record →
      ¬AtMostTwo next) :=
  ⟨fun _ _ _ described run => (spaced_of_separate described run).atMostTwo,
    fun _ _ _ reachable applied touches => three_of_not_separate reachable applied touches⟩

/-- The second recorded rotation is applied. -/
theorem recordedSecond_applied : applyRotation recordedPrimitives recordedState recordedSecond =
    .ok (rotated recordedState recordedSecond recordedNextKey 1787446800 1787450400) :=
  (applyRotation_ok_iff ..).mpr ⟨_, _, _, recordedSecond_accepted, rfl⟩

/-- The second recorded rotation starts at the end of the window of the first key. -/
theorem recordedSecond_touches : ¬Separate recordedState recordedSecond := by
  intro separate
  refine separate rfl recordedDocument.operationalKeyId
    { recordedKey with validUntil := some 1787446800 } 1787446800 (by decide) ?_ rfl rfl rfl
  rw [recordedState, get?_rotated, if_neg (by decide)]
  exact if_pos rfl

/-- The first recorded rotation leaves at most two keys acceptable, the second leaves three. -/
theorem at_most_two_iff_separate_recorded : AtMostTwo recordedState ∧
    ¬AtMostTwo (rotated recordedState recordedSecond recordedNextKey 1787446800 1787450400) := by
  obtain ⟨holds, fails⟩ := at_most_two_iff_separate recordedPrimitives
  refine ⟨holds recordedDocument _ _ recordedDocument_initial (.single ⟨.rotation recordedFirst,
    (applyRotation_ok_iff ..).mpr ⟨_, _, _, recordedFirst_accepted, rfl⟩, ?_⟩),
    fails recordedState recordedSecond _ (recordedDocument_reachable.extends recordedState_extends)
      recordedSecond_applied recordedSecond_touches⟩
  rintro _ ⟨⟩ _ id key notBefore other known - - end_
  simp only [introduced, OrderedMap.get?_insert, OrderedMap.get?_empty] at known
  split_ifs at known with here
  obtain rfl := Option.some.inj known
  cases end_

/-- Three keys are acceptable in a reachable state. -/
theorem three_keys_at_recorded_instant :
    ¬∀ state, Reachable recordedPrimitives state → AtMostTwo state := by
  intro always
  have reachable := recordedDocument_reachable.extends recordedState_extends
  exact three_of_not_separate reachable recordedSecond_applied recordedSecond_touches
    (always _ (reachable.extends (.single ⟨.rotation recordedSecond, recordedSecond_applied⟩)))

end QsolFed.Identity
