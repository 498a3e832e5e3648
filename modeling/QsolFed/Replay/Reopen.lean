import QsolFed.Replay.Log

/-!
# Opening the log again

A log is opened only when no message has two lines in it. Recording keeps that, unless a message
that was pruned from the map is recorded again while its old line is still in the log: lines
leave the log only when it is compacted. Exactly such a call leaves a log that cannot be opened.
-/
namespace QsolFed.Replay

open Checked DurableReplayStore

/-- A log is opened, and the opened store contains every message of a map. -/
def Reopens (store : DurableReplayStore) : Prop :=
  ∃ opened, openLog store.log = .ok opened ∧
    ∀ messageId, store.contains messageId = true → opened.contains messageId = true

/-- A message has a line in a log. -/
def HasLine (log : ByteArray) (messageId : String) : Prop :=
  ∃ entries, Logged log entries ∧ messageId ∈ entries.map Prod.fst

/-- A call finds the message in the map, or compacts the log, or finds no line of the message in
the log. -/
def Clean (store : DurableReplayStore) (messageId seenAt : String) : Prop :=
  ∀ nowUnix, parseReplayTimestamp seenAt = .ok nowUnix →
    (store.pruneMemory nowUnix).contains messageId = true ∨
    (store.pruneMemory nowUnix).needsCompaction (logLine messageId seenAt) ∨
    ¬HasLine store.log messageId

/-- Calls in order, each of which is answered. -/
def recordAll (store : DurableReplayStore) (calls : List (String × String)) :
    Except String DurableReplayStore :=
  calls.foldlM (fun store call => do
    let _ ← (store.checkAndRecord call.1 call.2).1
    pure (store.checkAndRecord call.1 call.2).2) store

/-- One more answered call. -/
theorem recordAll_snoc_ok_iff (store final : DurableReplayStore) (calls : List (String × String))
    (messageId seenAt : String) :
    recordAll store (calls ++ [(messageId, seenAt)]) = .ok final ↔
      ∃ middle decision, recordAll store calls = .ok middle ∧
        middle.checkAndRecord messageId seenAt = (.ok decision, final) := by
  simp only [recordAll, foldlM_append_ok_iff, List.foldlM_cons, List.foldlM_nil, bind_ok_iff,
    pure_ok_iff, exists_eq_right, Prod.ext_iff]
  constructor
  · rintro ⟨middle, before, decision, answered, left⟩
    exact ⟨middle, decision, before, answered, left⟩
  · rintro ⟨middle, decision, before, answered, left⟩
    exact ⟨middle, before, decision, answered, left⟩

/-- What holds of a store whose log can be opened. -/
structure Reopenable (store : DurableReplayStore) : Prop where
  /-- The map is in the log. -/
  mirrors : Mirrors store.log store.seen
  /-- The log is small enough. -/
  small : store.log.size ≤ maxReplayLogBytes
  /-- No message has two lines. -/
  distinct : ∃ entries, Logged store.log entries ∧ (entries.map Prod.fst).Nodup

/-- A reopenable store is opened again with every message of its map. -/
theorem Reopenable.reopens {store : DurableReplayStore} (reopenable : Reopenable store) :
    Reopens store := by
  obtain ⟨entries, logged, distinct⟩ := reopenable.distinct
  have opened := (openLog_ok_iff store.log _).mpr ⟨reopenable.small, entries, logged, distinct, rfl⟩
  refine ⟨_, opened, fun messageId known => ?_⟩
  obtain ⟨record, found⟩ := Option.isSome_iff_exists.mp known
  obtain ⟨others, same, each⟩ := reopenable.mirrors
  obtain ⟨-, line, member, -⟩ := each messageId record found
  exact Option.isSome_iff_exists.mpr
    ⟨line, (get?_openLog opened same messageId line).mpr member⟩

/-- An opened store is reopenable. -/
theorem reopenable_openLog {log : ByteArray} {store : DurableReplayStore}
    (opened : openLog log = .ok store) : Reopenable store := by
  have mirrors := mirrors_openLog opened
  obtain ⟨small, entries, logged, distinct, rfl⟩ := (openLog_ok_iff ..).mp opened
  exact ⟨mirrors, small, entries, logged, distinct⟩

/-- The log of the store with room stands for the entries of the pruned map after a compaction,
and for the same admissions as before without one. -/
theorem logged_makeRoom {store : DurableReplayStore} (mirrors : Mirrors store.log store.seen)
    (nowUnix : Int) (line : String) {entries : List (String × SeenRecord)}
    (logged : Logged store.log entries) :
    Logged ((store.pruneMemory nowUnix).makeRoom nowUnix line).log
      (if (store.pruneMemory nowUnix).needsCompaction line
        then ((store.pruneMemory nowUnix).compact nowUnix).seen.entries else entries) := by
  unfold makeRoom
  split
  · exact (mirrors.pruneMemory nowUnix).logged_compact nowUnix
  · exact logged

/-- The message of a further line is told apart from a list of admissions exactly when no line of
it is among them. -/
theorem nodup_append_iff (entries : List (String × SeenRecord)) (messageId : String)
    (record : SeenRecord) : ((entries ++ [(messageId, record)]).map Prod.fst).Nodup ↔
      (entries.map Prod.fst).Nodup ∧ messageId ∉ entries.map Prod.fst := by
  rw [List.map_append, List.nodup_append]
  simp only [List.map_cons, List.map_nil, List.nodup_singleton, List.mem_singleton, true_and,
    forall_eq]
  exact and_congr_right fun _ =>
    ⟨fun apart member => apart _ member rfl, fun absent other member same => absent (same ▸ member)⟩

/-- An answered clean call keeps a store reopenable. -/
theorem Reopenable.step {store final : DurableReplayStore} {messageId seenAt : String}
    {decision : ReplayDecision} (reopenable : Reopenable store)
    (called : store.checkAndRecord messageId seenAt = (.ok decision, final))
    (clean : Clean store messageId seenAt) : Reopenable final := by
  have mirrors := reopenable.mirrors.outcome (outcome_of_eq called)
  cases outcome_of_eq called with
  | replayed => exact ⟨mirrors, reopenable.small, reopenable.distinct⟩
  | @fresh nowUnix text admits =>
    obtain ⟨entries, logged, distinct⟩ := reopenable.distinct
    have room := logged_makeRoom reopenable.mirrors nowUnix (logLine messageId seenAt)
      logged
    have well : WellFormed (messageId, ⟨seenAt, nowUnix⟩) := ⟨admits.reference, admits.parsed⟩
    refine ⟨mirrors, ?_, _, room.append well, (nodup_append_iff ..).mpr ?_⟩
    · have fits := admits.fits
      rw [← String.size_toByteArray, ← ByteArray.size_append] at fits
      exact fits
    · have unknown : ¬(store.pruneMemory nowUnix).contains messageId = true := by
        simp [contains, admits.absent]
      split
      · have absent : ((store.pruneMemory nowUnix).compact nowUnix).seen.get? messageId = none := by
          change ((store.pruneMemory nowUnix).pruneMemory nowUnix).seen.get? messageId = none
          rw [Option.eq_none_iff_forall_ne_some]
          intro record known
          rw [get?_pruneMemory, admits.absent] at known
          cases known.1
        refine ⟨(OrderedMap.sorted _).nodup, fun member => ?_⟩
        obtain ⟨⟨other, record⟩, listed, rfl⟩ := List.mem_map.mp member
        rw [(OrderedMap.mem_entries ..).mp listed] at absent
        cases absent
      · next keeps =>
        refine ⟨distinct, fun member => ?_⟩
        rcases clean nowUnix admits.parsed with known | compacts | lineless
        · exact unknown known
        · exact keeps compacts
        · exact lineless ⟨entries, logged, member⟩

/-- A call that is not clean leaves a log with two lines of one message. -/
theorem not_reopens_of_not_clean {store final : DurableReplayStore} {messageId seenAt : String}
    {decision : ReplayDecision} (mirrors : Mirrors store.log store.seen)
    (called : store.checkAndRecord messageId seenAt = (.ok decision, final))
    (touches : ¬Clean store messageId seenAt) : ¬Reopens final := by
  simp only [Clean, not_forall, not_or, not_not] at touches
  obtain ⟨time, parsed, unknown, keeps, entries, logged, member⟩ := touches
  cases outcome_of_eq called with
  | @replayed nowUnix record _ parsed' known =>
    obtain rfl := Except.ok.inj (parsed.symm.trans parsed')
    exact absurd (Option.isSome_iff_exists.mpr ⟨record, known⟩) unknown
  | @fresh nowUnix text admits =>
    obtain rfl := Except.ok.inj (parsed.symm.trans admits.parsed)
    have room := logged_makeRoom mirrors time (logLine messageId seenAt) logged
    rw [if_neg keeps] at room
    have written := room.append (⟨admits.reference, admits.parsed⟩ :
      WellFormed (messageId, ⟨seenAt, time⟩))
    rintro ⟨opened, again, -⟩
    obtain ⟨-, others, same, distinct, -⟩ := (openLog_ok_iff ..).mp again
    obtain rfl := written.unique same
    exact ((nodup_append_iff ..).mp distinct).2 member

/-- The map of a store that answered calls reach is in its log. -/
theorem mirrors_recordAll {store final : DurableReplayStore} {calls : List (String × String)}
    (mirrors : Mirrors store.log store.seen) (answered : recordAll store calls = .ok final) :
    Mirrors final.log final.seen := by
  induction calls using List.reverseRecOn generalizing final with
  | nil =>
    simp only [recordAll, List.foldlM_nil, pure_ok_iff] at answered
    exact answered ▸ mirrors
  | append_singleton calls call ih =>
    obtain ⟨middle, decision, before, called⟩ := (recordAll_snoc_ok_iff ..).mp answered
    exact (ih before).outcome (outcome_of_eq called)

/-- After every part of a run of answered calls the log of an opened store is opened again with
every message of the map, exactly when every call of the run is clean. -/
theorem reopens_iff_clean {log : ByteArray} {store final : DurableReplayStore}
    {calls : List (String × String)} (opened : openLog log = .ok store)
    (answered : recordAll store calls = .ok final) :
    (∀ before middle, before <+: calls → recordAll store before = .ok middle → Reopens middle) ↔
      ∀ before messageId seenAt middle, before ++ [(messageId, seenAt)] <+: calls →
        recordAll store before = .ok middle → Clean middle messageId seenAt := by
  have mirrors := mirrors_openLog opened
  have reached : ∀ before, before <+: calls → ∃ middle, recordAll store before = .ok middle := by
    rintro before ⟨after, rfl⟩
    obtain ⟨middle, first, -⟩ := (foldlM_append_ok_iff ..).mp answered
    exact ⟨middle, first⟩
  constructor
  · intro reopens before messageId seenAt middle part run
    by_contra touches
    obtain ⟨next, further⟩ := reached _ part
    obtain ⟨middle', decision, run', called⟩ := (recordAll_snoc_ok_iff ..).mp further
    obtain rfl := Except.ok.inj (run.symm.trans run')
    exact not_reopens_of_not_clean (mirrors_recordAll mirrors run) called touches
      (reopens _ next part further)
  · intro clean before middle part run
    suffices reopenable : Reopenable middle from reopenable.reopens
    induction before using List.reverseRecOn generalizing middle with
    | nil =>
      simp only [recordAll, List.foldlM_nil, pure_ok_iff] at run
      exact run ▸ reopenable_openLog opened
    | append_singleton before call ih =>
      obtain ⟨state, decision, first, called⟩ := (recordAll_snoc_ok_iff ..).mp run
      exact (ih state ((List.prefix_append _ _).trans part) first).step called
        (clean before call.1 call.2 state part first)

/-- One message is admitted into the empty store. -/
theorem recordAll_recorded : recordAll emptyStore [(recordedMessage, "2026-08-23T00:00:00Z")] =
    .ok recordedStore :=
  (recordAll_snoc_ok_iff emptyStore _ [] ..).mpr
    ⟨emptyStore, _, rfl, checkAndRecord_of_admits emptyStore_admits⟩

/-- A first call on an empty log is clean. -/
theorem clean_empty (messageId seenAt : String) : Clean emptyStore messageId seenAt := by
  refine fun _ _ => .inr (.inr ?_)
  rintro ⟨entries, logged, member⟩
  obtain rfl := logged.unique logged_empty
  cases member

/-- The log of one admission is opened again. -/
theorem reopens_iff_clean_recorded : Reopens recordedStore := by
  refine (reopens_iff_clean emptyStore_opened recordAll_recorded).mpr ?_ _ _ (List.prefix_refl _)
    recordAll_recorded
  intro before messageId seenAt middle part run
  have short := part.length_le
  rw [List.length_append, List.length_singleton, List.length_singleton] at short
  obtain rfl := List.length_eq_zero_iff.mp (Nat.le_zero.mp (Nat.le_of_succ_le_succ short))
  simp only [recordAll, List.foldlM_nil, pure_ok_iff] at run
  exact run ▸ clean_empty messageId seenAt

/-- A message that is admitted again when more than the retention has passed leaves a log that is
not opened. -/
theorem recorded_twice_not_reopens : ¬∀ log store calls final, openLog log = .ok store →
    (calls.filterMap fun call => (parseReplayTimestamp call.2).toOption).Pairwise (· ≤ ·) →
    recordAll store calls = .ok final → Reopens final := by
  intro always
  have called := checkAndRecord_of_admits recordedStore_admits
  refine not_reopens_of_not_clean ((mirrors_recordAll (mirrors_openLog emptyStore_opened)
    recordAll_recorded)) called ?_ (always _ _
      [(recordedMessage, "2026-08-23T00:00:00Z"), (recordedMessage, "2026-08-23T01:10:01Z")] _
      emptyStore_opened (by decide)
      ((recordAll_snoc_ok_iff emptyStore _ [(recordedMessage, "2026-08-23T00:00:00Z")] ..).mpr
        ⟨recordedStore, _, recordAll_recorded, called⟩))
  intro clean
  have well : WellFormed (recordedMessage, ⟨"2026-08-23T00:00:00Z", 1787443200⟩) :=
    ⟨by decide, rfl⟩
  rcases clean 1787447401 rfl with known | compacts | lineless
  · exact absurd known (by decide)
  · exact absurd compacts (by decide)
  · exact lineless ⟨_, logged_empty.append well, List.mem_singleton_self _⟩

end QsolFed.Replay
