import QsolFed.Library.Run
import QsolFed.Replay.Log

/-!
# Admission at most once

Runs of a replay store: opening, calls at times that do not decrease, closing and opening again.
A message that was recorded is known, in memory or in the log, until more than the retention has
passed; two admissions of one message are therefore further apart than that. The retention covers
every time at which the clock policy admits one envelope, so that a message whose envelope is
checked at the time of each call is admitted at most once.
-/
namespace QsolFed.Replay

open Checked

/-- What happens to a store over time. -/
inductive ReplayEvent where
  /-- The store was opened. -/
  | opened
  /-- A message was checked at a time, with an answer. -/
  | recorded (messageId seenAt : String) (result : Except String ReplayDecision)
  /-- The store was closed. -/
  | closed

/-- A log file and, while the store is open, its map. -/
structure ReplayProcess where
  /-- The bytes of the log file. -/
  log : ByteArray
  /-- The map of an open store. -/
  live : Option (OrderedMap String SeenRecord)

/-- One event. -/
inductive Step : ReplayProcess → ReplayEvent → ReplayProcess → Prop where
  /-- A closed store is opened when its log is read. -/
  | opened {log : ByteArray} {store : DurableReplayStore} (read : openLog log = .ok store) :
      Step ⟨log, none⟩ .opened ⟨store.log, some store.seen⟩
  /-- An open store answers a call. -/
  | recorded {store final : DurableReplayStore} {messageId seenAt : String}
      {result : Except String ReplayDecision}
      (called : store.checkAndRecord messageId seenAt = (result, final)) :
      Step ⟨store.log, some store.seen⟩ (.recorded messageId seenAt result)
        ⟨final.log, some final.seen⟩
  /-- An open store is closed; its log stays. -/
  | closed {log : ByteArray} {seen : OrderedMap String SeenRecord} :
      Step ⟨log, some seen⟩ .closed ⟨log, none⟩

/-- The time of a call. -/
def ReplayEvent.time : ReplayEvent → Option Int
  | .recorded _ seenAt _ => (parseReplayTimestamp seenAt).toOption
  | _ => none

/-- The message and the time of an admission. -/
def ReplayEvent.freshRecord : ReplayEvent → Option (String × Int)
  | .recorded messageId seenAt (.ok .freshRecorded) =>
    (parseReplayTimestamp seenAt).toOption.map fun unix => (messageId, unix)
  | _ => none

/-- The times of the calls in order. -/
def times (events : List ReplayEvent) : List Int := events.filterMap ReplayEvent.time

/-- The admissions in order. -/
def freshRecords (events : List ReplayEvent) : List (String × Int) :=
  events.filterMap ReplayEvent.freshRecord

/-- The times of the calls do not decrease. -/
def Timely (events : List ReplayEvent) : Prop := (times events).Pairwise (· ≤ ·)

instance (events : List ReplayEvent) : Decidable (Timely events) :=
  inferInstanceAs (Decidable (List.Pairwise _ _))

/-- An admission of a message at a time that no later call has outlived. -/
def Current (events : List ReplayEvent) (messageId : String) (unix : Int) : Prop :=
  ∃ before seenAt after,
    events = before ++ .recorded messageId seenAt (.ok .freshRecorded) :: after ∧
    parseReplayTimestamp seenAt = .ok unix ∧
    ∀ time ∈ times after, time ≤ unix + replayRetentionSeconds

/-- A process knows a message from a time on or later. -/
def Knows (process : ReplayProcess) (messageId : String) (unix : Int) : Prop :=
  match process.live with
  | some seen => ∃ record, seen.get? messageId = some record ∧ unix ≤ record.unix
  | none => ∃ entries record, Logged process.log entries ∧ (messageId, record) ∈ entries ∧
      unix ≤ record.unix

/-- What holds of a process after the events of a run. -/
structure Tracked (events : List ReplayEvent) (process : ReplayProcess) : Prop where
  /-- The map of an open store is in its log. -/
  mirrors : ∀ seen, process.live = some seen → Mirrors process.log seen
  /-- Every admission is known until a call has outlived it. -/
  knows : ∀ messageId unix, Current events messageId unix → Knows process messageId unix

/-- The time of a further call comes last. -/
theorem times_append (events : List ReplayEvent) (event : ReplayEvent) :
    times (events ++ [event]) = times events ++ event.time.toList := by
  rw [times, List.filterMap_append, times]
  cases found : event.time <;> simp [found]

/-- A further admission comes last. -/
theorem freshRecords_append (events : List ReplayEvent) (event : ReplayEvent) :
    freshRecords (events ++ [event]) = freshRecords events ++ event.freshRecord.toList := by
  rw [freshRecords, List.filterMap_append, freshRecords]
  cases found : event.freshRecord <;> simp [found]

/-- An admission that is current after a further event is that event, or it was current before and
the event has not outlived it. -/
theorem Current.of_append {events : List ReplayEvent} {event : ReplayEvent} {messageId : String}
    {unix : Int} (current : Current (events ++ [event]) messageId unix) :
    (∃ seenAt, event = .recorded messageId seenAt (.ok .freshRecorded) ∧
      parseReplayTimestamp seenAt = .ok unix) ∨
    (Current events messageId unix ∧ ∀ time ∈ event.time, time ≤ unix + replayRetentionSeconds) := by
  obtain ⟨before, seenAt, after, whole, parsed, recent⟩ := current
  rcases List.eq_nil_or_concat after with rfl | ⟨rest, last, rfl⟩
  · obtain ⟨-, same⟩ := List.append_inj' whole rfl
    exact .inl ⟨seenAt, (List.cons.inj same).1, parsed⟩
  · rw [List.concat_eq_append, ← List.cons_append, ← List.append_assoc] at whole
    obtain ⟨rfl, same⟩ := List.append_inj' whole rfl
    obtain rfl := (List.cons.inj same).1
    rw [List.concat_eq_append, times_append] at recent
    refine .inr ⟨⟨before, seenAt, rest, rfl, parsed, fun time member =>
      recent time (List.mem_append_left _ member)⟩, fun time found =>
      recent time (List.mem_append_right _ ?_)⟩
    rw [Option.mem_def.mp found]
    exact List.mem_singleton_self time

/-- An admission that no call of a run has outlived is current. -/
theorem current_of_le {events : List ReplayEvent} {messageId : String} {unix : Int}
    (member : (messageId, unix) ∈ freshRecords events)
    (recent : ∀ time ∈ times events, time ≤ unix + replayRetentionSeconds) :
    Current events messageId unix := by
  obtain ⟨event, listed, found⟩ := List.mem_filterMap.mp member
  obtain ⟨before, after, rfl⟩ := List.append_of_mem listed
  match event, found with
  | .recorded other seenAt (.ok .freshRecorded), found =>
    simp only [ReplayEvent.freshRecord, Option.map_eq_some_iff, Prod.mk.injEq] at found
    obtain ⟨time, parsed, rfl, rfl⟩ := found
    refine ⟨before, seenAt, after, rfl, toOption_eq_some_iff.mp parsed, fun time later =>
      recent time ?_⟩
    rw [times, List.filterMap_append, List.mem_append]
    exact .inr (List.mem_filterMap.mpr (by
      obtain ⟨event, member, read⟩ := List.mem_filterMap.mp later
      exact ⟨event, List.mem_cons_of_mem _ member, read⟩))

/-- A timely run is timely before its last event. -/
theorem Timely.of_append {events : List ReplayEvent} {event : ReplayEvent}
    (timely : Timely (events ++ [event])) : Timely events := by
  rw [Timely, times_append] at timely
  exact (List.pairwise_append.mp timely).1

/-- An event without an admission keeps a process tracked when it keeps what is known. -/
theorem Tracked.quiet {events : List ReplayEvent} {process final : ReplayProcess}
    {event : ReplayEvent} (tracked : Tracked events process) (silent : event.freshRecord = none)
    (mirrors : ∀ seen, final.live = some seen → Mirrors final.log seen)
    (keeps : ∀ messageId unix, Knows process messageId unix →
      (∀ time ∈ event.time, time ≤ unix + replayRetentionSeconds) → Knows final messageId unix) :
    Tracked (events ++ [event]) final := by
  refine ⟨mirrors, fun messageId unix current => ?_⟩
  rcases current.of_append with ⟨seenAt, rfl, parsed⟩ | ⟨before, recent⟩
  · simp [ReplayEvent.freshRecord, parsed, Except.toOption] at silent
  · exact keeps messageId unix (tracked.knows messageId unix before) recent

/-- Opening a store keeps what its log knows. -/
theorem knows_opened {log : ByteArray} {store : DurableReplayStore}
    (read : openLog log = .ok store) {messageId : String} {unix : Int}
    (knows : Knows ⟨log, none⟩ messageId unix) :
    Knows ⟨store.log, some store.seen⟩ messageId unix := by
  obtain ⟨entries, record, logged, member, late⟩ := knows
  exact ⟨record, (get?_openLog read logged messageId record).mpr member, late⟩

/-- Closing a store keeps what its map knows. -/
theorem knows_closed {log : ByteArray} {seen : OrderedMap String SeenRecord}
    (mirrors : Mirrors log seen) {messageId : String} {unix : Int}
    (knows : Knows ⟨log, some seen⟩ messageId unix) : Knows ⟨log, none⟩ messageId unix := by
  obtain ⟨entries, logged, each⟩ := mirrors
  obtain ⟨record, known, late⟩ := knows
  obtain ⟨-, line, member, same⟩ := each messageId record known
  exact ⟨entries, line, logged, member, same ▸ late⟩

/-- Pruning keeps what is known and not outlived. -/
theorem get?_pruneMemory_of_recent {store : DurableReplayStore} {nowUnix unix : Int}
    (recent : nowUnix ≤ unix + replayRetentionSeconds) {messageId : String}
    (knows : Knows ⟨store.log, some store.seen⟩ messageId unix) :
    ∃ record, (store.pruneMemory nowUnix).seen.get? messageId = some record ∧
      unix ≤ record.unix := by
  obtain ⟨record, known, late⟩ := knows
  exact ⟨record, (store.get?_pruneMemory ..).mpr ⟨known, by omega⟩, late⟩

/-- The time of a call whose timestamp is read. -/
theorem time_recorded {messageId seenAt : String} {result : Except String ReplayDecision}
    {nowUnix : Int} (parsed : parseReplayTimestamp seenAt = .ok nowUnix) :
    (ReplayEvent.recorded messageId seenAt result).time = some nowUnix := by
  simp [ReplayEvent.time, parsed, Except.toOption]

/-- The admissions after a further one. -/
theorem freshRecords_fresh {events : List ReplayEvent} {messageId seenAt : String} {nowUnix : Int}
    (parsed : parseReplayTimestamp seenAt = .ok nowUnix) :
    freshRecords (events ++ [.recorded messageId seenAt (.ok .freshRecorded)]) =
      freshRecords events ++ [(messageId, nowUnix)] := by
  simp [freshRecords_append, ReplayEvent.freshRecord, parsed, Except.toOption]

/-- A message is admitted again only at a time that outlives its current admissions. -/
theorem Tracked.outlived {events : List ReplayEvent} {store : DurableReplayStore}
    {messageId seenAt text : String} {nowUnix : Int}
    (tracked : Tracked events ⟨store.log, some store.seen⟩)
    (admits : store.Admits messageId seenAt text nowUnix) {unix : Int}
    (current : Current events messageId unix) : unix + replayRetentionSeconds < nowUnix := by
  by_contra recent
  obtain ⟨record, known, -⟩ := get?_pruneMemory_of_recent (not_lt.mp recent)
    (tracked.knows messageId unix current)
  rw [admits.absent] at known
  cases known

/-- A call keeps a process tracked. -/
theorem Tracked.recorded {events : List ReplayEvent} {store final : DurableReplayStore}
    {messageId seenAt : String} {result : Except String ReplayDecision}
    (tracked : Tracked events ⟨store.log, some store.seen⟩)
    (outcome : store.Outcome messageId seenAt result final) :
    Tracked (events ++ [.recorded messageId seenAt result]) ⟨final.log, some final.seen⟩ := by
  have mirrors : ∀ seen, some final.seen = some seen → Mirrors final.log seen := by
    rintro _ ⟨⟩
    exact (tracked.mirrors _ rfl).outcome outcome
  cases outcome with
  | malformed => exact tracked.quiet rfl mirrors fun _ _ knows _ => knows
  | replayed _ parsed _ =>
    exact tracked.quiet rfl mirrors fun _ _ knows recent =>
      get?_pruneMemory_of_recent (recent _ (time_recorded parsed)) knows
  | full parsed _ =>
    refine tracked.quiet rfl mirrors fun _ _ knows recent => ?_
    obtain ⟨record, known, late⟩ :=
      get?_pruneMemory_of_recent (recent _ (time_recorded parsed)) knows
    exact ⟨record, by rwa [DurableReplayStore.makeRoom_seen], late⟩
  | @fresh nowUnix text admits =>
    refine ⟨mirrors, fun other unix current => ?_⟩
    simp only [Knows, DurableReplayStore.admitted, OrderedMap.get?_insert]
    rcases current.of_append with ⟨otherSeen, same, parsed⟩ | ⟨before, recent⟩
    · obtain ⟨rfl, rfl, -⟩ := ReplayEvent.recorded.inj same
      obtain rfl := Except.ok.inj (parsed.symm.trans admits.parsed)
      exact ⟨_, if_pos rfl, le_refl _⟩
    · have now := recent _ (time_recorded admits.parsed)
      split_ifs with here
      · subst here
        exact absurd (tracked.outlived admits before) (not_lt.mpr now)
      · obtain ⟨record, known, late⟩ :=
          get?_pruneMemory_of_recent now (tracked.knows other unix before)
        exact ⟨record, by rwa [DurableReplayStore.makeRoom_seen], late⟩

/-- Every run from a closed store keeps track of its admissions. -/
theorem tracked_of_run {log : ByteArray} {events : List ReplayEvent} {final : ReplayProcess}
    (run : Run Step ⟨log, none⟩ events final) : Tracked events final := by
  refine run.invariant Tracked ?_ ?_
  · refine ⟨fun _ live => (by cases live), fun _ _ current => ?_⟩
    obtain ⟨before, _, _, whole, -⟩ := current
    cases before <;> cases whole
  · intro events middle event final _ tracked step
    cases step with
    | opened read =>
      refine tracked.quiet rfl (fun _ live => ?_) fun _ _ knows _ => knows_opened read knows
      cases live
      exact mirrors_openLog read
    | recorded called => exact tracked.recorded (DurableReplayStore.outcome_of_eq called)
    | closed =>
      exact tracked.quiet rfl (fun _ live => by cases live) fun _ _ knows _ =>
        knows_closed (tracked.mirrors _ rfl) knows

/-- Two admissions of one message in a timely run are further apart than the retention. -/
theorem freshRecords_apart {log : ByteArray} {events : List ReplayEvent} {final : ReplayProcess}
    (run : Run Step ⟨log, none⟩ events final) (timely : Timely events) :
    (freshRecords events).Pairwise fun first second =>
      first.1 = second.1 → first.2 + replayRetentionSeconds < second.2 := by
  refine run.invariant (fun events _ => Timely events → (freshRecords events).Pairwise
    fun first second => first.1 = second.1 → first.2 + replayRetentionSeconds < second.2)
    (fun _ => .nil) ?_ timely
  intro events middle event final before ih step timely
  cases silent : event.freshRecord with
  | none =>
    rw [freshRecords_append, silent]
    simpa using ih timely.of_append
  | some record =>
    cases step with
    | opened | closed => cases silent
    | @recorded store _ messageId seenAt result called =>
      cases DurableReplayStore.outcome_of_eq called with
      | malformed | replayed | full => cases silent
      | @fresh nowUnix text admits =>
        rw [freshRecords_fresh admits.parsed]
        refine List.pairwise_append.mpr ⟨ih timely.of_append, List.pairwise_singleton .., ?_⟩
        rintro ⟨other, unix⟩ old second new same
        obtain rfl := List.mem_singleton.mp new
        obtain rfl : other = messageId := same
        by_contra near
        rw [Timely, times_append, time_recorded admits.parsed] at timely
        have current : Current events other unix := current_of_le old fun time member =>
          ((List.pairwise_append.mp timely).2.2 time member nowUnix (by simp)).trans
            (not_lt.mp near)
        exact near ((tracked_of_run before).outlived admits current)

/-! ## The clock policy -/

/-- Two times at which the policy of the protocol admits one envelope are no further apart than
the retention. -/
theorem admitted_within_retention {envelope : FederationEnvelope} {first second : Int}
    (one : Crypto.defaultClockPolicy.validateEnvelope envelope first = .ok ())
    (two : Crypto.defaultClockPolicy.validateEnvelope envelope second = .ok ()) :
    second ≤ first + replayRetentionSeconds := by
  simp only [Crypto.ClockPolicy.validateEnvelope, bind_ok_iff, ensure_ok_iff, okOr_ok_iff,
    exists_const] at one two
  obtain ⟨issued, issuedAt, text, present, expires, expiresAt, -, lifetime, future, -⟩ := one
  obtain ⟨issued', issuedAt', text', present', expires', expiresAt', -, -, -, expired⟩ := two
  obtain rfl := Except.ok.inj (issuedAt.symm.trans issuedAt')
  obtain rfl := Option.some.inj (present.symm.trans present')
  obtain rfl := Except.ok.inj (expiresAt.symm.trans expiresAt')
  simp only [Crypto.defaultClockPolicy, replayRetentionSeconds] at lifetime future expired ⊢
  omega

/-- In every run of opening, calls at times that do not decrease, closing and opening again, two
admissions of one message are more than the retention apart. When the envelope of each message
passes the clock policy at the time of each of its calls, no message is admitted twice. -/
theorem admitted_at_most_once {log : ByteArray} {events : List ReplayEvent}
    {final : ReplayProcess} (run : Run Step ⟨log, none⟩ events final) (timely : Timely events) :
    ((freshRecords events).Pairwise fun first second =>
      first.1 = second.1 → first.2 + replayRetentionSeconds < second.2) ∧
    ∀ envelopeOf : String → FederationEnvelope,
      (∀ messageId seenAt result, .recorded messageId seenAt result ∈ events →
        ∀ nowUnix, parseReplayTimestamp seenAt = .ok nowUnix →
          Crypto.defaultClockPolicy.validateEnvelope (envelopeOf messageId) nowUnix = .ok ()) →
      ((freshRecords events).map Prod.fst).Nodup := by
  have apart := freshRecords_apart run timely
  refine ⟨apart, fun envelopeOf validated => ?_⟩
  have checked : ∀ messageId unix, (messageId, unix) ∈ freshRecords events →
      Crypto.defaultClockPolicy.validateEnvelope (envelopeOf messageId) unix = .ok () := by
    intro messageId unix member
    obtain ⟨event, listed, found⟩ := List.mem_filterMap.mp member
    match event, found with
    | .recorded other seenAt (.ok .freshRecorded), found =>
      simp only [ReplayEvent.freshRecord, Option.map_eq_some_iff, Prod.mk.injEq] at found
      obtain ⟨time, parsed, rfl, rfl⟩ := found
      exact validated other seenAt _ listed time (toOption_eq_some_iff.mp parsed)
  rw [List.Nodup, List.pairwise_map]
  refine apart.imp_of_mem ?_
  intro first second firstMember secondMember far same
  have late := far same
  have near := admitted_within_retention (checked first.1 first.2 firstMember)
    (same ▸ checked second.1 second.2 secondMember)
  omega

/-- An empty log is opened and one message is admitted twice, more than the retention apart. -/
theorem admitted_at_most_once_recorded :
    [(recordedMessage, 1787443200), (recordedMessage, 1787447401)].Pairwise
      (fun first second => first.1 = second.1 → first.2 + replayRetentionSeconds < second.2) ∧
    ∀ envelopeOf : String → FederationEnvelope,
      ¬(Crypto.defaultClockPolicy.validateEnvelope (envelopeOf recordedMessage) 1787443200 =
          .ok () ∧
        Crypto.defaultClockPolicy.validateEnvelope (envelopeOf recordedMessage) 1787447401 =
          .ok ()) := by
  have run : Run Step ⟨"".toByteArray, none⟩ [.opened,
      .recorded recordedMessage "2026-08-23T00:00:00Z" (.ok .freshRecorded),
      .recorded recordedMessage "2026-08-23T01:10:01Z" (.ok .freshRecorded)] _ :=
    ((Run.single (.opened emptyStore_opened)).snoc
      (.recorded (DurableReplayStore.checkAndRecord_of_admits emptyStore_admits))).snoc
      (.recorded (DurableReplayStore.checkAndRecord_of_admits recordedStore_admits))
  obtain ⟨apart, once⟩ := admitted_at_most_once run (by decide)
  refine ⟨apart, fun envelopeOf validated => ?_⟩
  have distinct := once envelopeOf fun messageId seenAt result member nowUnix parsed => by
    simp only [List.mem_cons, reduceCtorEq, ReplayEvent.recorded.injEq, List.not_mem_nil, or_false,
      false_or] at member
    rcases member with ⟨rfl, rfl, -⟩ | ⟨rfl, rfl, -⟩
    · exact (Except.ok.inj (parsed.symm.trans rfl) : nowUnix = 1787443200) ▸ validated.1
    · exact (Except.ok.inj (parsed.symm.trans rfl) : nowUnix = 1787447401) ▸ validated.2
  exact absurd distinct (by decide)

end QsolFed.Replay
