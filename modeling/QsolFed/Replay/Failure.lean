import QsolFed.Library.Effect
import QsolFed.Replay.Log

/-!
# Calls that fail at a step

A call of the replay store as the steps that it takes on its files, one of which may fail. The
log is appended to through an open file, which a compaction replaces under its name before it is
opened again: a failure in between leaves the store with a file that nobody else sees. What a
failed call appended to the log stays there, although the map does not know it. Without a failure
the steps are those of the store that never fails.
-/
namespace QsolFed

open Checked Replay

/-- The steps of a call that touch files. -/
inductive IoStep where
  /-- The size of the log is read. -/
  | metadata
  /-- The temporary file of a compaction is created. -/
  | compactionOpen
  /-- The lines of the map are written to it. -/
  | compactionWrite
  /-- It is flushed. -/
  | compactionFlush
  /-- It is synchronized. -/
  | compactionFsync
  /-- It replaces the log. -/
  | compactionRename
  /-- The directory of the log is opened. -/
  | parentOpen
  /-- It is synchronized. -/
  | parentFsync
  /-- The log is opened again. -/
  | compactionReopen
  /-- The size of the compacted log is read. -/
  | compactedMetadata
  /-- A line is appended. -/
  | write
  /-- The log is flushed. -/
  | flush
  /-- It is synchronized. -/
  | fsync
  deriving DecidableEq, Repr

/-- The code of the error of a step. -/
def IoStep.code : IoStep → String
  | .metadata => "replay_metadata"
  | .compactionOpen => "replay_compaction_open"
  | .compactionWrite => "replay_compaction_write"
  | .compactionFlush => "replay_compaction_flush"
  | .compactionFsync => "replay_compaction_fsync"
  | .compactionRename => "replay_compaction_rename"
  | .parentOpen => "replay_parent_open"
  | .parentFsync => "replay_parent_fsync"
  | .compactionReopen => "replay_compaction_reopen"
  | .compactedMetadata => "replay_metadata"
  | .write => "replay_write"
  | .flush => "replay_flush"
  | .fsync => "replay_fsync"

/-- A failure of one step. -/
structure IoFault where
  /-- The step that fails. -/
  step : IoStep
  /-- What the system says about it. -/
  reason : String
  /-- How many characters of the line a failed write appends. -/
  characters : Nat

/-- Why a call fails. -/
inductive ReplayFailure where
  /-- A step fails. -/
  | io (step : IoStep) (reason : String)
  /-- The store refuses. -/
  | refused (text : String)
  deriving DecidableEq, Repr

/-- The text of a failure. -/
def ReplayFailure.text : ReplayFailure → String
  | .io step reason => step.code ++ ":" ++ reason
  | .refused text => text

/-- The store with the file that it appends to, when that is no longer the log. -/
structure HandledStore extends DurableReplayStore where
  /-- The bytes of a file that was replaced and is still open. -/
  replaced : Option ByteArray
  deriving DecidableEq

namespace HandledStore

/-- The bytes of the open file. -/
def file (store : HandledStore) : ByteArray := store.replaced.getD store.log

/-- Forget the messages that could no longer pass the clock policy. -/
def pruneMemory (store : HandledStore) (nowUnix : Int) : HandledStore :=
  { store with toDurableReplayStore := store.toDurableReplayStore.pruneMemory nowUnix }

/-- A text is appended to the open file. -/
def append (text : String) (store : HandledStore) : HandledStore :=
  match store.replaced with
  | none => { store with log := store.log ++ text.toByteArray }
  | some file => { store with replaced := some (file ++ text.toByteArray) }

/-- The lines of the map replace the log; the open file stays. -/
def rename (store : HandledStore) : HandledStore :=
  { store with log := (logText store.seen.entries).toByteArray, replaced := some store.file }

/-- The log is the open file. -/
def reopen (store : HandledStore) : HandledStore := { store with replaced := none }

/-- A message is known from now on. -/
def insert (messageId text : String) (nowUnix : Int) (store : HandledStore) : HandledStore :=
  { store with seen := store.seen.insert messageId ⟨text, nowUnix⟩ }

/-- The open file has grown past the threshold, or a further line would exceed its limit. -/
def NeedsCompaction (store : HandledStore) (line : String) : Prop :=
  replayCompactionThresholdBytes ≤ store.file.size ∨
    maxReplayLogBytes < store.file.size + line.utf8ByteSize

instance (store : HandledStore) (line : String) : Decidable (store.NeedsCompaction line) :=
  inferInstanceAs (Decidable (_ ∨ _))

/-- Steps that are taken in order. -/
def attempts (fault : Option IoFault) (steps : List IoStep) : Except ReplayFailure Unit :=
  match fault with
  | none => pure ()
  | some failure => ensure (failure.step ∉ steps) (.io failure.step failure.reason)

/-- What a write appends of a line. -/
def appended (fault : Option IoFault) (line : String) : String :=
  match fault with
  | none => line
  | some failure =>
    if failure.step = .write then String.ofList (line.toList.take failure.characters) else line

/-- Rewrite the log from the map. -/
def compact (fault : Option IoFault) (nowUnix : Int) : Effect HandledStore ReplayFailure Unit := do
  Effect.modify fun store => store.pruneMemory nowUnix
  Effect.check (attempts fault
    [.compactionOpen, .compactionWrite, .compactionFlush, .compactionFsync, .compactionRename])
  Effect.modify HandledStore.rename
  Effect.check (attempts fault [.parentOpen, .parentFsync, .compactionReopen])
  Effect.modify HandledStore.reopen

/-- Room for a further line, as far as compaction makes room. -/
def makeRoom (fault : Option IoFault) (nowUnix : Int) (line : String) :
    Effect HandledStore ReplayFailure Unit := do
  Effect.check (attempts fault [.metadata])
  if ← Effect.read fun store => pure (decide (store.NeedsCompaction line)) then
    compact fault nowUnix
    Effect.check (attempts fault [.compactedMetadata])
  else pure ()

/-- Whether a message was seen; a fresh one is recorded. -/
def checkAndRecord (fault : Option IoFault) (messageId seenAt : String) :
    Effect HandledStore ReplayFailure ReplayDecision := do
  Effect.check (ensure (Wire.isSha256Ref messageId ∧ validReplayTimestamp seenAt)
    (.refused "replay_record_invalid"))
  let nowUnix ← Effect.check ((parseReplayTimestamp seenAt).mapError .refused)
  Effect.modify fun store => store.pruneMemory nowUnix
  if ← Effect.read fun store => pure (store.contains messageId) then pure .replay
  else do
    let line := logLine messageId seenAt
    makeRoom fault nowUnix line
    let size ← Effect.read fun store => pure store.file.size
    Effect.check (ensure (¬maxReplayLogBytes < size + line.utf8ByteSize)
      (.refused "replay_active_window_too_large"))
    Effect.modify (HandledStore.append (appended fault line))
    Effect.check (attempts fault [.write, .flush, .fsync])
    let text ← Effect.check ((formatReplayTimestamp nowUnix).mapError .refused)
    Effect.modify (HandledStore.insert messageId text nowUnix)
    pure .freshRecorded

/-! ## What one call does -/

/-- The store with room for a further line, as far as compaction makes room. -/
def room (store : HandledStore) (nowUnix : Int) (line : String) : HandledStore :=
  if store.NeedsCompaction line then (store.pruneMemory nowUnix).rename.reopen else store

/-- A text is appended to the bytes of the open file. -/
theorem file_append (text : String) (store : HandledStore) :
    (store.append text).file = store.file ++ text.toByteArray := by
  unfold append file
  cases store.replaced <;> rfl

/-- The steps that make room for a further line. -/
def roomSteps (store : HandledStore) (line : String) : List IoStep :=
  .metadata :: if store.NeedsCompaction line then
    [.compactionOpen, .compactionWrite, .compactionFlush, .compactionFsync, .compactionRename,
      .parentOpen, .parentFsync, .compactionReopen, .compactedMetadata]
  else []

/-- None of the steps fails. -/
def Spares (fault : Option IoFault) (steps : List IoStep) : Prop :=
  ∀ failure ∈ fault, failure.step ∉ steps

/-- Steps are taken exactly when none of them fails. -/
theorem attempts_ok_iff (fault : Option IoFault) (steps : List IoStep) :
    attempts fault steps = .ok () ↔ Spares fault steps := by
  cases fault with
  | none => exact iff_of_true rfl nofun
  | some failure =>
    simp only [attempts, ensure_ok_iff, Spares, Option.mem_def, Option.some.injEq, forall_eq']

/-- Steps in two parts. -/
theorem spares_append (fault : Option IoFault) (first second : List IoStep) :
    Spares fault (first ++ second) ↔ Spares fault first ∧ Spares fault second := by
  simp only [Spares, List.mem_append, not_or, forall_and]

/-- Appending changes no message. -/
@[simp] theorem seen_append (text : String) (store : HandledStore) :
    (store.append text).seen = store.seen := by
  unfold append
  cases store.replaced <;> rfl

/-- Pruning twice at a time is pruning once. -/
theorem pruneMemory_twice (store : HandledStore) (nowUnix : Int) :
    (store.pruneMemory nowUnix).pruneMemory nowUnix = store.pruneMemory nowUnix := by
  have same : ((store.pruneMemory nowUnix).toDurableReplayStore.pruneMemory nowUnix).seen =
      (store.pruneMemory nowUnix).seen := by
    ext messageId record
    rw [DurableReplayStore.get?_pruneMemory]
    constructor
    · exact fun kept => kept.1
    · exact fun kept => ⟨kept, ((DurableReplayStore.get?_pruneMemory ..).mp kept).2⟩
  simp only [HandledStore.pruneMemory, DurableReplayStore.pruneMemory] at same ⊢
  rw [same]

/-- The room of a pruned store that needs compaction. -/
theorem room_of_needed {store : HandledStore} {nowUnix : Int} {line : String}
    (needed : (store.pruneMemory nowUnix).NeedsCompaction line) :
    (store.pruneMemory nowUnix).room nowUnix line = (store.pruneMemory nowUnix).rename.reopen := by
  rw [room, if_pos needed, pruneMemory_twice]

/-- Making room changes no message of a pruned store. -/
theorem seen_room (store : HandledStore) (nowUnix : Int) (line : String) :
    ((store.pruneMemory nowUnix).room nowUnix line).seen = (store.pruneMemory nowUnix).seen := by
  by_cases needed : (store.pruneMemory nowUnix).NeedsCompaction line
  · rw [room_of_needed needed]
    rfl
  · rw [room, if_neg needed]

/-- The room of a store that appends to its log is that of the store that never fails. -/
theorem room_of_opened (store : DurableReplayStore) (nowUnix : Int) (line : String) :
    (HandledStore.mk store none).room nowUnix line = ⟨store.makeRoom nowUnix line, none⟩ := by
  by_cases needed : store.needsCompaction line
  · rw [room, DurableReplayStore.makeRoom, if_pos needed]
    exact if_pos needed
  · rw [room, DurableReplayStore.makeRoom, if_neg needed]
    exact if_neg needed

/-- Steps are taken, or the failing one is among them. -/
theorem attempts_cases (fault : Option IoFault) (steps : List IoStep) :
    attempts fault steps = .ok () ∨ ∃ failure, fault = some failure ∧ failure.step ∈ steps ∧
      attempts fault steps = .error (.io failure.step failure.reason) := by
  cases fault with
  | none => exact .inl rfl
  | some failure =>
    by_cases struck : failure.step ∈ steps
    · exact .inr ⟨failure, rfl, struck, ensure_neg (not_not.mpr struck) _⟩
    · exact .inl (ensure_pos struck _)

/-- How making room ends. -/
inductive RoomOutcome (fault : Option IoFault) (store : HandledStore) (nowUnix : Int)
    (line : String) : Except ReplayFailure Unit → HandledStore → Prop where
  /-- The size of the log is not read. -/
  | unmeasured {failure : IoFault} (struck : fault = some failure)
      (step : failure.step = .metadata) :
      RoomOutcome fault store nowUnix line (.error (.io failure.step failure.reason)) store
  /-- The log is not replaced. -/
  | unreplaced {failure : IoFault} (needed : store.NeedsCompaction line)
      (struck : fault = some failure)
      (step : failure.step ∈ [IoStep.compactionOpen, .compactionWrite, .compactionFlush,
        .compactionFsync, .compactionRename]) :
      RoomOutcome fault store nowUnix line (.error (.io failure.step failure.reason))
        (store.pruneMemory nowUnix)
  /-- The log is replaced and not opened again. -/
  | unopened {failure : IoFault} (needed : store.NeedsCompaction line)
      (struck : fault = some failure)
      (step : failure.step ∈ [IoStep.parentOpen, .parentFsync, .compactionReopen]) :
      RoomOutcome fault store nowUnix line (.error (.io failure.step failure.reason))
        (store.pruneMemory nowUnix).rename
  /-- The size of the compacted log is not read. -/
  | compacted {failure : IoFault} (needed : store.NeedsCompaction line)
      (struck : fault = some failure) (step : failure.step = .compactedMetadata) :
      RoomOutcome fault store nowUnix line (.error (.io failure.step failure.reason))
        (store.room nowUnix line)
  /-- There is room, as far as compaction makes room. -/
  | made (taken : Spares fault (store.roomSteps line)) :
      RoomOutcome fault store nowUnix line (.ok ()) (store.room nowUnix line)

/-- What a call answers and what it leaves. -/
inductive Outcome (fault : Option IoFault) (store : HandledStore) (messageId seenAt : String) :
    Except ReplayFailure ReplayDecision → HandledStore → Prop where
  /-- A malformed call changes nothing. -/
  | malformed (invalid : ¬(Wire.isSha256Ref messageId = true ∧
      validReplayTimestamp seenAt = true)) :
      Outcome fault store messageId seenAt (.error (.refused "replay_record_invalid")) store
  /-- A known message is a replay. -/
  | replayed {nowUnix : Int} (reference : Wire.isSha256Ref messageId = true)
      (parsed : parseReplayTimestamp seenAt = .ok nowUnix)
      (known : (store.pruneMemory nowUnix).contains messageId = true) :
      Outcome fault store messageId seenAt (.ok .replay) (store.pruneMemory nowUnix)
  /-- There is no room, because a step failed. -/
  | roomless {nowUnix : Int} {failure : ReplayFailure} {next : HandledStore}
      (reference : Wire.isSha256Ref messageId = true)
      (parsed : parseReplayTimestamp seenAt = .ok nowUnix)
      (absent : (store.pruneMemory nowUnix).contains messageId = false)
      (ended : RoomOutcome fault (store.pruneMemory nowUnix) nowUnix (logLine messageId seenAt)
        (.error failure) next) : Outcome fault store messageId seenAt (.error failure) next
  /-- A line that does not fit is not written. -/
  | full {nowUnix : Int} (reference : Wire.isSha256Ref messageId = true)
      (parsed : parseReplayTimestamp seenAt = .ok nowUnix)
      (absent : (store.pruneMemory nowUnix).contains messageId = false)
      (large : maxReplayLogBytes <
        ((store.pruneMemory nowUnix).room nowUnix (logLine messageId seenAt)).file.size +
          (logLine messageId seenAt).utf8ByteSize) :
      Outcome fault store messageId seenAt (.error (.refused "replay_active_window_too_large"))
        ((store.pruneMemory nowUnix).room nowUnix (logLine messageId seenAt))
  /-- The line is not durable; what was appended of it stays. -/
  | unwritten {nowUnix : Int} {failure : IoFault}
      (reference : Wire.isSha256Ref messageId = true)
      (parsed : parseReplayTimestamp seenAt = .ok nowUnix)
      (absent : (store.pruneMemory nowUnix).contains messageId = false)
      (struck : fault = some failure) (step : failure.step ∈ [IoStep.write, .flush, .fsync]) :
      Outcome fault store messageId seenAt (.error (.io failure.step failure.reason))
        (((store.pruneMemory nowUnix).room nowUnix (logLine messageId seenAt)).append
          (appended fault (logLine messageId seenAt)))
  /-- A fresh message is recorded. -/
  | fresh {nowUnix : Int} {text : String} (reference : Wire.isSha256Ref messageId = true)
      (parsed : parseReplayTimestamp seenAt = .ok nowUnix)
      (absent : (store.pruneMemory nowUnix).contains messageId = false)
      (fits : ((store.pruneMemory nowUnix).room nowUnix (logLine messageId seenAt)).file.size +
        (logLine messageId seenAt).utf8ByteSize ≤ maxReplayLogBytes)
      (formatted : formatReplayTimestamp nowUnix = .ok text)
      (taken : Spares fault ((store.pruneMemory nowUnix).roomSteps (logLine messageId seenAt) ++
        [.write, .flush, .fsync])) :
      Outcome fault store messageId seenAt (.ok .freshRecorded)
        ((((store.pruneMemory nowUnix).room nowUnix (logLine messageId seenAt)).append
          (logLine messageId seenAt)).insert messageId text nowUnix)

/-- A compaction that is needed ends in one of these ways. -/
theorem compact_outcome (fault : Option IoFault) {store : HandledStore} (nowUnix : Int)
    {line : String} (needed : store.NeedsCompaction line) :
    ((compact fault nowUnix).run store = (.ok (), store.room nowUnix line) ∧
      Spares fault [.compactionOpen, .compactionWrite, .compactionFlush, .compactionFsync,
        .compactionRename, .parentOpen, .parentFsync, .compactionReopen]) ∨
      ∃ failure next, (compact fault nowUnix).run store = (.error failure, next) ∧
        RoomOutcome fault store nowUnix line (.error failure) next := by
  have roomy : store.room nowUnix line = (store.pruneMemory nowUnix).rename.reopen :=
    if_pos needed
  rcases attempts_cases fault [.compactionOpen, .compactionWrite, .compactionFlush,
    .compactionFsync, .compactionRename] with replaced | ⟨failure, struck, step, failed⟩
  · rcases attempts_cases fault [.parentOpen, .parentFsync, .compactionReopen] with
      opened | ⟨failure, struck, step, failed⟩
    · refine .inl ⟨?_, ?_⟩
      · simp only [compact, Effect.run_modify_bind, Effect.run_check_bind, replaced, opened, roomy]
        rfl
      · exact (spares_append fault [_, _, _, _, _] _).mpr
          ⟨(attempts_ok_iff ..).mp replaced, (attempts_ok_iff ..).mp opened⟩
    · refine .inr ⟨_, _, ?_, .unopened needed struck step⟩
      simp only [compact, Effect.run_modify_bind, Effect.run_check_bind, replaced, failed]
  · refine .inr ⟨_, _, ?_, .unreplaced needed struck step⟩
    simp only [compact, Effect.run_modify_bind, Effect.run_check_bind, failed]

/-- Making room ends in one of these ways. -/
theorem makeRoom_outcome (fault : Option IoFault) (store : HandledStore) (nowUnix : Int)
    (line : String) :
    RoomOutcome fault store nowUnix line ((makeRoom fault nowUnix line).run store).1
      ((makeRoom fault nowUnix line).run store).2 := by
  rcases attempts_cases fault [.metadata] with measured | ⟨failure, struck, step, failed⟩
  · by_cases needed : store.NeedsCompaction line
    · have begun : (makeRoom fault nowUnix line).run store =
          (do compact fault nowUnix
              Effect.check (attempts fault [.compactedMetadata])).run store := by
        simp only [makeRoom, Effect.run_check_bind, measured, Effect.run_read_bind, pure,
          Except.pure, decide_eq_true needed, ↓reduceIte]
      rw [begun, Effect.run_bind]
      rcases compact_outcome fault nowUnix needed with ⟨ran, taken⟩ | ⟨failure, next, ran, ended⟩
      · rw [ran]
        rcases attempts_cases fault [.compactedMetadata] with sized | ⟨failure, struck, step,
          failed⟩
        · simp only [sized]
          refine .made ?_
          rw [roomSteps, if_pos needed]
          have all := (spares_append ..).mpr ⟨taken, (attempts_ok_iff ..).mp sized⟩
          exact (spares_append fault [.metadata] _).mpr ⟨(attempts_ok_iff ..).mp measured, all⟩
        · simp only [failed]
          exact .compacted needed struck (List.mem_singleton.mp step)
      · rw [ran]
        exact ended
    · have same : store.room nowUnix line = store := if_neg needed
      have ended : (makeRoom fault nowUnix line).run store = (.ok (), store) := by
        simp only [makeRoom, Effect.run_check_bind, measured, Effect.run_read_bind, pure,
          Except.pure, decide_eq_false needed, Bool.false_eq_true, ↓reduceIte]
        rfl
      rw [ended]
      have roomy : RoomOutcome fault store nowUnix line (.ok ()) (store.room nowUnix line) := by
        refine .made ?_
        rw [roomSteps, if_neg needed]
        exact (attempts_ok_iff ..).mp measured
      rwa [same] at roomy
  · have ended : (makeRoom fault nowUnix line).run store =
        (.error (.io failure.step failure.reason), store) := by
      simp only [makeRoom, Effect.run_check_bind, failed]
    rw [ended]
    exact .unmeasured struck (List.mem_singleton.mp step)

/-- Room that was made is the room of the store. -/
theorem RoomOutcome.made_eq {fault : Option IoFault} {store next : HandledStore} {nowUnix : Int}
    {line : String} (ended : RoomOutcome fault store nowUnix line (.ok ()) next) :
    next = store.room nowUnix line ∧ Spares fault (store.roomSteps line) := by
  generalize same : (.ok () : Except ReplayFailure Unit) = answer at ended
  cases ended with
  | made taken => exact ⟨rfl, taken⟩
  | _ => cases same

/-- What a call appends when none of the steps of writing fails. -/
theorem appended_whole {fault : Option IoFault} {line : String}
    (written : attempts fault [.write, .flush, .fsync] = .ok ()) : appended fault line = line := by
  cases fault with
  | none => rfl
  | some failure =>
    simp only [attempts, ensure_ok_iff, List.mem_cons, not_or] at written
    exact if_neg written.1

/-- Every call has one of the outcomes. -/
theorem checkAndRecord_outcome (fault : Option IoFault) (store : HandledStore)
    (messageId seenAt : String) :
    Outcome fault store messageId seenAt ((checkAndRecord fault messageId seenAt).run store).1
      ((checkAndRecord fault messageId seenAt).run store).2 := by
  by_cases valid : Wire.isSha256Ref messageId = true ∧ validReplayTimestamp seenAt = true
  · obtain ⟨nowUnix, parsed⟩ := (DurableReplayStore.validReplayTimestamp_iff _).mp valid.2
    obtain ⟨text, formatted, -⟩ := DurableReplayStore.format_parsed parsed
    simp only [checkAndRecord, Effect.run_check_bind, ensure_pos valid, parsed, Except.mapError,
      Effect.run_modify_bind, Effect.run_read_bind, pure, Except.pure]
    cases known : (store.pruneMemory nowUnix).contains messageId with
    | true => exact .replayed valid.1 parsed known
    | false =>
      simp only [Bool.false_eq_true, ↓reduceIte]
      rw [Effect.run_bind]
      have ended := makeRoom_outcome fault (store.pruneMemory nowUnix) nowUnix
        (logLine messageId seenAt)
      generalize (makeRoom fault nowUnix (logLine messageId seenAt)).run
        (store.pruneMemory nowUnix) = result at ended ⊢
      obtain ⟨answer, next⟩ := result
      cases answer with
      | error failure => exact .roomless valid.1 parsed known ended
      | ok done =>
        have roomy : next = (store.pruneMemory nowUnix).room nowUnix (logLine messageId seenAt) :=
          ended.made_eq.1
        have taken := ended.made_eq.2
        have whole := @appended_whole fault (logLine messageId seenAt)
        simp only [Effect.run_read_bind, Effect.run_check_bind]
        by_cases fits : ¬maxReplayLogBytes < next.file.size +
            (logLine messageId seenAt).utf8ByteSize
        · rcases attempts_cases fault [.write, .flush, .fsync] with written | ⟨failure, struck,
            step, failed⟩
          · simp only [ensure_pos fits, Effect.run_modify_bind, Effect.run_check_bind, written,
              formatted, whole written]
            rw [roomy] at fits ⊢
            exact .fresh valid.1 parsed known (not_lt.mp fits) formatted
              ((spares_append ..).mpr ⟨taken, (attempts_ok_iff ..).mp written⟩)
          · simp only [ensure_pos fits, Effect.run_modify_bind, Effect.run_check_bind, failed]
            rw [roomy]
            exact .unwritten valid.1 parsed known struck step
        · simp only [ensure_neg fits]
          rw [roomy] at fits ⊢
          exact .full valid.1 parsed known (not_not.mp fits)
  · simp only [checkAndRecord, Effect.run_check_bind, ensure_neg valid]
    exact .malformed valid

/-- The answer of a call and the store it leaves are an outcome. -/
theorem outcome_of_eq {fault : Option IoFault} {store final : HandledStore}
    {messageId seenAt : String} {answer : Except ReplayFailure ReplayDecision}
    (called : (checkAndRecord fault messageId seenAt).run store = (answer, final)) :
    Outcome fault store messageId seenAt answer final := by
  have outcome := checkAndRecord_outcome fault store messageId seenAt
  rwa [called] at outcome

/-- Room is not missing when no step fails. -/
theorem RoomOutcome.not_spared {fault : Option IoFault} {store next : HandledStore} {nowUnix : Int}
    {line : String} {failure : ReplayFailure}
    (ended : RoomOutcome fault store nowUnix line (.error failure) next) :
    ¬Spares fault (store.roomSteps line) := by
  intro taken
  cases ended with
  | unmeasured struck step =>
    refine taken _ struck ?_
    rw [roomSteps, step]
    exact List.mem_cons_self
  | unreplaced needed struck step | unopened needed struck step | compacted needed struck step =>
    refine taken _ struck ?_
    rw [roomSteps, if_pos needed]
    simp only [List.mem_cons, List.not_mem_nil, or_false] at step ⊢
    tauto

/-- Without a failure no step fails. -/
theorem spares_none (steps : List IoStep) : Spares none steps := nofun

/-- Making room changes no message of a pruned store, whatever fails. -/
theorem RoomOutcome.seen_eq {fault : Option IoFault} {store next : HandledStore} {nowUnix : Int}
    {line : String} {answer : Except ReplayFailure Unit}
    (ended : RoomOutcome fault (store.pruneMemory nowUnix) nowUnix line answer next) :
    next.seen = (store.pruneMemory nowUnix).seen := by
  cases ended with
  | unmeasured => rfl
  | unreplaced => rw [pruneMemory_twice]
  | unopened =>
    rw [pruneMemory_twice]
    rfl
  | compacted | made => exact seen_room ..

/-! ## Messages that are known -/

/-- A message is known from a time on or later. -/
def Knows (store : HandledStore) (messageId : String) (unix : Int) : Prop :=
  ∃ record, store.seen.get? messageId = some record ∧ unix ≤ record.unix

/-- What pruning keeps. -/
theorem get?_pruneMemory (store : HandledStore) (nowUnix : Int) (messageId : String)
    (record : SeenRecord) : (store.pruneMemory nowUnix).seen.get? messageId = some record ↔
      store.seen.get? messageId = some record ∧
        nowUnix - replayRetentionSeconds ≤ record.unix :=
  DurableReplayStore.get?_pruneMemory ..

/-- Pruning adds no message. -/
theorem absent_pruned {store : HandledStore} {messageId : String}
    (absent : store.seen.get? messageId = none) (nowUnix : Int) :
    (store.pruneMemory nowUnix).seen.get? messageId = none := by
  refine Option.eq_none_iff_forall_ne_some.mpr fun record known => ?_
  rw [get?_pruneMemory, absent] at known
  cases known.1

/-- A message is known exactly when the map has it. -/
theorem contains_iff (store : HandledStore) (messageId : String) :
    store.contains messageId = true ↔ ∃ record, store.seen.get? messageId = some record :=
  Option.isSome_iff_exists

/-- Pruning keeps what is known and not outlived. -/
theorem Knows.prune {store : HandledStore} {messageId : String} {unix nowUnix : Int}
    (knows : store.Knows messageId unix) (recent : nowUnix ≤ unix + replayRetentionSeconds) :
    (store.pruneMemory nowUnix).Knows messageId unix := by
  obtain ⟨record, known, late⟩ := knows
  exact ⟨record, (get?_pruneMemory ..).mpr ⟨known, by omega⟩, late⟩

/-- A call keeps what is known and not outlived, whatever fails. -/
theorem Knows.outcome {fault : Option IoFault} {store final : HandledStore}
    {messageId other seenAt : String} {unix : Int}
    {answer : Except ReplayFailure ReplayDecision} (knows : store.Knows messageId unix)
    (outcome : Outcome fault store other seenAt answer final)
    (recent : ∀ time, parseReplayTimestamp seenAt = .ok time →
      time ≤ unix + replayRetentionSeconds) : final.Knows messageId unix := by
  cases outcome with
  | malformed => exact knows
  | replayed reference parsed known => exact knows.prune (recent _ parsed)
  | roomless reference parsed absent ended =>
    obtain ⟨record, known, late⟩ := knows.prune (recent _ parsed)
    exact ⟨record, by rwa [ended.seen_eq], late⟩
  | full reference parsed absent large =>
    obtain ⟨record, known, late⟩ := knows.prune (recent _ parsed)
    exact ⟨record, by rwa [seen_room], late⟩
  | unwritten reference parsed absent struck step =>
    obtain ⟨record, known, late⟩ := knows.prune (recent _ parsed)
    exact ⟨record, by rwa [seen_append, seen_room], late⟩
  | @fresh nowUnix text reference parsed absent fits formatted taken =>
    obtain ⟨record, known, late⟩ := knows.prune (recent _ parsed)
    have apart : messageId ≠ other := by
      rintro rfl
      have there := (contains_iff ..).mpr ⟨record, known⟩
      rw [absent] at there
      cases there
    refine ⟨record, ?_, late⟩
    rw [insert, OrderedMap.get?_insert_of_ne _ _ apart, seen_append, seen_room]
    exact known

/-- A known message that is not outlived is a replay. -/
theorem Knows.replayed {store : HandledStore} {messageId seenAt : String} {unix time : Int}
    (knows : store.Knows messageId unix) (fault : Option IoFault)
    (reference : Wire.isSha256Ref messageId = true)
    (parsed : parseReplayTimestamp seenAt = .ok time)
    (recent : time ≤ unix + replayRetentionSeconds) :
    ((checkAndRecord fault messageId seenAt).run store).1 = .ok .replay := by
  obtain ⟨record, known, -⟩ := knows.prune recent
  have there := (contains_iff ..).mpr ⟨record, known⟩
  have valid : Wire.isSha256Ref messageId = true ∧ validReplayTimestamp seenAt = true :=
    ⟨reference, (DurableReplayStore.validReplayTimestamp_iff seenAt).mpr ⟨time, parsed⟩⟩
  simp only [checkAndRecord, Effect.run_check_bind, ensure_pos valid, parsed, Except.mapError,
    Effect.run_modify_bind, Effect.run_read_bind, pure, Except.pure, there, ↓reduceIte]
  rfl

/-! ## Calls without a failure -/

/-- A call without a failure is a call of the store that never fails. -/
theorem checkAndRecord_without_failure (store : DurableReplayStore) (messageId seenAt : String) :
    (checkAndRecord none messageId seenAt).run ⟨store, none⟩ =
      ((store.checkAndRecord messageId seenAt).1.mapError .refused,
        ⟨(store.checkAndRecord messageId seenAt).2, none⟩) := by
  cases ran : (checkAndRecord none messageId seenAt).run ⟨store, none⟩ with
  | mk answer final =>
    have guard : Wire.isSha256Ref messageId = true → ∀ nowUnix,
        parseReplayTimestamp seenAt = .ok nowUnix →
        ¬¬(Wire.isSha256Ref messageId = true ∧ validReplayTimestamp seenAt = true) :=
      fun reference nowUnix parsed => not_not.mpr
        ⟨reference, (DurableReplayStore.validReplayTimestamp_iff seenAt).mpr ⟨nowUnix, parsed⟩⟩
    cases outcome_of_eq ran with
    | malformed invalid =>
      simp only [DurableReplayStore.checkAndRecord, if_pos invalid, Except.mapError]
    | @replayed nowUnix reference parsed known =>
      have found : (store.pruneMemory nowUnix).contains messageId = true := known
      have called : store.checkAndRecord messageId seenAt =
          (.ok .replay, store.pruneMemory nowUnix) := by
        simp only [DurableReplayStore.checkAndRecord, if_neg (guard reference _ parsed), parsed,
          if_pos found]
      rw [called]
      rfl
    | roomless reference parsed absent ended => exact absurd (spares_none _) ended.not_spared
    | @full nowUnix reference parsed absent large =>
      have unknown : ¬(store.pruneMemory nowUnix).contains messageId = true :=
        Bool.eq_false_iff.mp absent
      have roomy := room_of_opened (store.pruneMemory nowUnix) nowUnix (logLine messageId seenAt)
      have same : (HandledStore.mk store none).pruneMemory nowUnix =
        ⟨store.pruneMemory nowUnix, none⟩ := rfl
      rw [same, roomy] at large ⊢
      have called : store.checkAndRecord messageId seenAt = (.error "replay_active_window_too_large",
          (store.pruneMemory nowUnix).makeRoom nowUnix (logLine messageId seenAt)) := by
        simp only [DurableReplayStore.checkAndRecord, if_neg (guard reference _ parsed), parsed,
          if_neg unknown]
        exact if_pos large
      rw [called]
      rfl
    | unwritten reference parsed absent struck => cases struck
    | @fresh nowUnix text reference parsed absent fits formatted taken =>
      have missing : (store.pruneMemory nowUnix).contains messageId = false := absent
      have unknown : (store.pruneMemory nowUnix).seen.get? messageId = none := by
        simpa [DurableReplayStore.contains] using missing
      have roomy := room_of_opened (store.pruneMemory nowUnix) nowUnix (logLine messageId seenAt)
      have same : (HandledStore.mk store none).pruneMemory nowUnix =
        ⟨store.pruneMemory nowUnix, none⟩ := rfl
      rw [same, roomy] at fits ⊢
      rw [DurableReplayStore.checkAndRecord_of_admits
        ⟨reference, parsed, unknown, fits, formatted⟩]
      rfl

/-- What a call needs to record a message: the message is not remembered, its line fits once there
is room, and none of the steps fails. -/
structure Passes (store : HandledStore) (fault : Option IoFault) (messageId seenAt : String)
    (nowUnix : Int) : Prop where
  /-- The message is not remembered. -/
  absent : (store.pruneMemory nowUnix).contains messageId = false
  /-- The line fits. -/
  fits : ((store.pruneMemory nowUnix).room nowUnix (logLine messageId seenAt)).file.size +
    (logLine messageId seenAt).utf8ByteSize ≤ maxReplayLogBytes
  /-- No step fails. -/
  taken : Spares fault ((store.pruneMemory nowUnix).roomSteps (logLine messageId seenAt) ++
    [.write, .flush, .fsync])

/-- A message is recorded exactly when its call passes. -/
theorem fresh_iff_passes {store : HandledStore} {fault : Option IoFault}
    {messageId seenAt : String} {nowUnix : Int} (reference : Wire.isSha256Ref messageId = true)
    (parsed : parseReplayTimestamp seenAt = .ok nowUnix) :
    ((checkAndRecord fault messageId seenAt).run store).1 = .ok .freshRecorded ↔
      store.Passes fault messageId seenAt nowUnix := by
  have valid : Wire.isSha256Ref messageId = true ∧ validReplayTimestamp seenAt = true :=
    ⟨reference, (DurableReplayStore.validReplayTimestamp_iff seenAt).mpr ⟨nowUnix, parsed⟩⟩
  cases ran : (checkAndRecord fault messageId seenAt).run store with
  | mk answer final =>
    cases outcome_of_eq ran with
    | malformed invalid => exact absurd valid invalid
    | replayed _ same known =>
      obtain rfl := Except.ok.inj (parsed.symm.trans same)
      refine iff_of_false nofun fun passes => ?_
      rw [passes.absent] at known
      cases known
    | roomless _ same _ ended =>
      obtain rfl := Except.ok.inj (parsed.symm.trans same)
      refine iff_of_false nofun fun passes => ?_
      have taken := ((spares_append ..).mp passes.taken).1
      exact ended.not_spared taken
    | full _ same _ large =>
      obtain rfl := Except.ok.inj (parsed.symm.trans same)
      exact iff_of_false nofun fun passes => absurd passes.fits (not_le.mpr large)
    | unwritten _ same _ struck step =>
      obtain rfl := Except.ok.inj (parsed.symm.trans same)
      refine iff_of_false nofun fun passes => ?_
      exact ((spares_append ..).mp passes.taken).2 _ struck step
    | fresh _ same absent fits _ taken =>
      obtain rfl := Except.ok.inj (parsed.symm.trans same)
      exact iff_of_true rfl ⟨absent, fits, taken⟩

/-- A call without a failure records an unknown message exactly when its line fits. -/
theorem run_unknown {store : HandledStore} {messageId seenAt : String} {nowUnix : Int}
    (reference : Wire.isSha256Ref messageId = true)
    (parsed : parseReplayTimestamp seenAt = .ok nowUnix)
    (absent : (store.pruneMemory nowUnix).seen.get? messageId = none) :
    (((store.pruneMemory nowUnix).room nowUnix (logLine messageId seenAt)).file.size +
        (logLine messageId seenAt).utf8ByteSize ≤ maxReplayLogBytes ∧
      ∃ text, formatReplayTimestamp nowUnix = .ok text ∧
        (checkAndRecord none messageId seenAt).run store = (.ok .freshRecorded,
          (((store.pruneMemory nowUnix).room nowUnix (logLine messageId seenAt)).append
            (logLine messageId seenAt)).insert messageId text nowUnix)) ∨
    (maxReplayLogBytes <
        ((store.pruneMemory nowUnix).room nowUnix (logLine messageId seenAt)).file.size +
          (logLine messageId seenAt).utf8ByteSize ∧
      (checkAndRecord none messageId seenAt).run store =
        (.error (.refused "replay_active_window_too_large"),
          (store.pruneMemory nowUnix).room nowUnix (logLine messageId seenAt))) := by
  cases ran : (checkAndRecord none messageId seenAt).run store with
  | mk answer final =>
    cases outcome_of_eq ran with
    | malformed invalid =>
      have valid := (DurableReplayStore.validReplayTimestamp_iff seenAt).mpr ⟨nowUnix, parsed⟩
      exact absurd ⟨reference, valid⟩ invalid
    | replayed _ same known =>
      obtain rfl := Except.ok.inj (parsed.symm.trans same)
      obtain ⟨record, found⟩ := (contains_iff ..).mp known
      rw [absent] at found
      cases found
    | roomless _ _ _ ended => exact absurd (spares_none _) ended.not_spared
    | full _ same _ large =>
      obtain rfl := Except.ok.inj (parsed.symm.trans same)
      exact .inr ⟨large, rfl⟩
    | unwritten _ _ _ struck => cases struck
    | @fresh _ text _ same _ fits formatted =>
      obtain rfl := Except.ok.inj (parsed.symm.trans same)
      exact .inl ⟨fits, text, formatted, rfl⟩

end HandledStore

end QsolFed
