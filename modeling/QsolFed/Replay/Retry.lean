import QsolFed.Replay.Admission
import QsolFed.Replay.Failure
import QsolFed.Replay.Reopen

/-!
# Trying again after a failure

A call that failed at a step is made again once the files work. The message is recorded then and
known from then on, but what the failed call appended to the log is still there: the line of the
second call follows a part of a line, or a whole line of the same message, and the log is not
opened any more. A compaction by the second call removes both.
-/
namespace QsolFed.Replay

open Checked

/-! ## Lines of one length -/

/-- A text of visible bytes has as many characters as bytes. -/
theorem length_of_visible {text : String} (visible : ∀ b ∈ Text.bytes text, Wire.Visible b) :
    text.toList.length = (Text.bytes text).length := by
  have ascii : ∀ c ∈ text.toList, Text.Ascii c := Text.ascii_of_bytes fun b member => by
    have bound := (visible b member).2
    omega
  have each := Text.bytes_ofList_ascii ascii
  rw [String.ofList_toList] at each
  rw [each, List.length_map]

/-- The fields of a well-formed admission have 92 characters. -/
theorem WellFormed.length {entry : String × SeenRecord} (well : WellFormed entry) :
    (fieldsOf entry.1 entry.2.seenAt).length = 92 := by
  have shape := ((DurableReplayStore.parseReplayTimestamp_ok_iff ..).mp well.parsed).1
  have identifier := length_of_visible (Wire.visible_of_sha256Ref well.reference)
  have time := length_of_visible (Wire.visible_of_wireTimestamp shape)
  rw [Wire.sha256Ref_length well.reference] at identifier
  rw [Wire.wireTimestamp_length shape] at time
  rw [fieldsOf, List.length_append, List.length_cons, identifier, time]

/-- The line of a well-formed admission has 93 bytes. -/
theorem WellFormed.size_logLine {entry : String × SeenRecord} (well : WellFormed entry) :
    (logLine entry.1 entry.2.seenAt).utf8ByteSize = 93 := by
  have shape := ((DurableReplayStore.parseReplayTimestamp_ok_iff ..).mp well.parsed).1
  have identifier : entry.1.utf8ByteSize = 71 := Wire.sha256Ref_length well.reference
  have time : entry.2.seenAt.utf8ByteSize = 20 := Wire.wireTimestamp_length shape
  have marks : "\t".utf8ByteSize = 1 ∧ "\n".utf8ByteSize = 1 := by decide
  simp only [logLine, String.utf8ByteSize_append]
  omega

/-- A line that is read has 92 characters. -/
theorem LineHolds.length {line : List Char} {entry : String × SeenRecord}
    (holds : LineHolds line entry) : line.length = 92 := by
  rw [Lines.eq_of_splitOnce holds.fields]
  exact holds.wellFormed.length

/-- Every line of a log that is read has 92 characters. -/
theorem length_of_read {lines : List (List Char)} {entries : List (String × SeenRecord)}
    (read : List.Forall₂ LineHolds lines entries) : ∀ line ∈ lines, line.length = 92 := by
  induction read with
  | nil => simp
  | cons holds _ ih => exact List.forall_mem_cons.mpr ⟨holds.length, ih⟩

/-! ## What is left of a line -/

/-- A log that goes on with a part of a line and a further line of the message is not opened. -/
theorem not_opened_part {log : ByteArray} {entries : List (String × SeenRecord)}
    (logged : Logged log entries) {messageId first second : String} {one two : Int}
    (earlier : WellFormed (messageId, ⟨first, one⟩)) (later : WellFormed (messageId, ⟨second, two⟩))
    {characters : Nat} (some_ : characters ≠ 0) (store : DurableReplayStore) :
    openLog (log ++ (String.ofList ((logLine messageId first).toList.take characters)).toByteArray ++
      (logLine messageId second).toByteArray) ≠ .ok store := by
  intro opened
  obtain ⟨-, others, read, distinct, -⟩ := (openLog_ok_iff ..).mp opened
  by_cases whole : 93 ≤ characters
  · have all : (logLine messageId first).toList.take characters =
        (logLine messageId first).toList := by
      refine List.take_of_length_le ?_
      rw [toList_logLine, List.length_append, earlier.length]
      exact whole
    rw [all, String.ofList_toList] at read
    obtain rfl := read.unique ((logged.append earlier).append later)
    exact ((nodup_append_iff ..).mp distinct).2 (by simp)
  · have part : (logLine messageId first).toList.take characters =
        (fieldsOf messageId first).take characters := by
      rw [toList_logLine, List.take_append_of_le_length]
      rw [earlier.length]
      omega
    rw [part] at read
    obtain ⟨text, decoded, terminated, aligned⟩ := logged
    obtain rfl := toByteArray_of_fromUTF8 decoded
    obtain ⟨clear, ends⟩ := later.line_clear
    obtain ⟨continued, decodedContinued, -, read⟩ := read
    rw [← String.toByteArray_append, ← String.toByteArray_append, Text.fromUTF8_toByteArray]
      at decodedContinued
    obtain rfl := Option.some.inj decodedContinued
    rw [String.toList_append, String.toList_append, String.toList_ofList, toList_logLine,
      List.append_assoc, ← List.append_assoc _ _ ['\n']] at read
    have partClear : '\n' ∉ (fieldsOf messageId first).take characters ++
        fieldsOf messageId second := by
      intro member
      rcases List.mem_append.mp member with before | after
      · exact earlier.line_clear.1 (List.mem_of_mem_take before)
      · exact clear after
    have partEnds : ((fieldsOf messageId first).take characters ++
        fieldsOf messageId second).getLast? ≠ some '\r' := by
      rw [List.getLast?_append_of_ne_nil]
      · exact ends
      · intro empty
        have short := later.length
        rw [empty] at short
        cases short
    rw [Lines.lines_append_line terminated partClear partEnds] at read
    have length := length_of_read read _ (List.mem_append_right _ (List.mem_singleton_self _))
    rw [List.length_append, later.length, List.length_take, earlier.length] at length
    omega

/-- A log that goes on with a line of a message is opened exactly when the log is and has no line
of the message yet. -/
theorem openLog_line_iff {log : ByteArray} {entries : List (String × SeenRecord)}
    (logged : Logged log entries) {messageId seenAt : String} {unix : Int}
    (well : WellFormed (messageId, ⟨seenAt, unix⟩))
    (fits : log.size + (logLine messageId seenAt).utf8ByteSize ≤ maxReplayLogBytes) :
    (∃ opened, openLog (log ++ (logLine messageId seenAt).toByteArray) = .ok opened ∧
      opened.contains messageId = true) ↔
      (∃ opened, openLog log = .ok opened) ∧ ¬HasLine log messageId := by
  have written := logged.append well
  have size : (log ++ (logLine messageId seenAt).toByteArray).size ≤ maxReplayLogBytes := by
    rw [ByteArray.size_append, String.size_toByteArray]
    exact fits
  constructor
  · rintro ⟨opened, read, -⟩
    obtain ⟨-, others, same, distinct, -⟩ := (openLog_ok_iff ..).mp read
    obtain rfl := same.unique written
    obtain ⟨apart, absent⟩ := (nodup_append_iff ..).mp distinct
    have small : log.size ≤ maxReplayLogBytes := by omega
    refine ⟨⟨_, (openLog_ok_iff ..).mpr ⟨small, entries, logged, apart, rfl⟩⟩, ?_⟩
    rintro ⟨found, again, member⟩
    exact absent (again.unique logged ▸ member)
  · rintro ⟨⟨before, read⟩, lineless⟩
    obtain ⟨-, others, same, distinct, -⟩ := (openLog_ok_iff ..).mp read
    obtain rfl := same.unique logged
    have apart := (nodup_append_iff others messageId ⟨seenAt, unix⟩).mpr
      ⟨distinct, fun member => lineless ⟨others, logged, member⟩⟩
    have opened := (openLog_ok_iff ..).mpr ⟨size, _, written, apart, rfl⟩
    refine ⟨_, opened, Option.isSome_iff_exists.mpr ⟨⟨seenAt, unix⟩, ?_⟩⟩
    exact (get?_openLog opened written messageId _).mpr
      (List.mem_append_right _ (List.mem_singleton_self _))

/-! ## What a failed call leaves -/

/-- The file that a failed call appends to, before what it appends of its line. -/
def fileBefore (store : DurableReplayStore) (nowUnix : Int) (line : String) : IoStep → ByteArray
  | .compactedMetadata | .write | .flush | .fsync =>
    ((store.pruneMemory nowUnix).makeRoom nowUnix line).log
  | _ => store.log

/-- What a failed call appends of its line. -/
def remainder (fault : IoFault) (line : String) : String :=
  match fault.step with
  | .write | .flush | .fsync => HandledStore.appended (some fault) line
  | _ => ""

/-- What holds of the store that a failed call leaves. -/
structure Left (store : DurableReplayStore) (fault : IoFault) (messageId seenAt : String)
    (nowUnix : Int) (after : HandledStore) : Prop where
  /-- The identifier is well formed. -/
  reference : Wire.isSha256Ref messageId = true
  /-- So is the time. -/
  parsed : parseReplayTimestamp seenAt = .ok nowUnix
  /-- The message is not known. -/
  absent : (store.pruneMemory nowUnix).seen.get? messageId = none
  /-- The map is pruned. -/
  seen : after.seen = (store.pruneMemory nowUnix).seen
  /-- The open file goes on with what was appended. -/
  file : after.file = fileBefore store nowUnix (logLine messageId seenAt) fault.step ++
    (remainder fault (logLine messageId seenAt)).toByteArray
  /-- The open file is the log, or it is the one that had to be compacted. -/
  named : after.replaced = none ∨
    after.file = store.log ∧ store.needsCompaction (logLine messageId seenAt)

/-- A failed call leaves such a store. -/
theorem left_of_failed {store : DurableReplayStore} {fault : IoFault} {messageId seenAt : String}
    {after : HandledStore}
    (failed : (HandledStore.checkAndRecord (some fault) messageId seenAt).run ⟨store, none⟩ =
      (.error (.io fault.step fault.reason), after)) :
    ∃ nowUnix, Left store fault messageId seenAt nowUnix after := by
  have outcome := HandledStore.outcome_of_eq failed
  generalize answered : (.error (.io fault.step fault.reason) :
    Except ReplayFailure ReplayDecision) = answer at outcome
  have pruned : ∀ nowUnix, (HandledStore.mk store none).pruneMemory nowUnix =
    ⟨store.pruneMemory nowUnix, none⟩ := fun nowUnix => rfl
  have unknown : ∀ nowUnix, ((HandledStore.mk store none).pruneMemory nowUnix).contains messageId =
      false → (store.pruneMemory nowUnix).seen.get? messageId = none := by
    intro nowUnix absent
    simpa [DurableReplayStore.contains, pruned nowUnix] using absent
  have nothing : ∀ log : ByteArray, log ++ "".toByteArray = log := fun log => ByteArray.append_empty
  cases outcome with
  | malformed | replayed | full | fresh => cases answered
  | @roomless nowUnix failure _ reference parsed absent ended =>
    have missing := unknown nowUnix absent
    have roomy := HandledStore.room_of_opened (store.pruneMemory nowUnix) nowUnix
      (logLine messageId seenAt)
    cases ended with
    | unmeasured struck step =>
      obtain rfl := Option.some.inj struck
      refine ⟨nowUnix, reference, parsed, missing, rfl, ?_, .inl rfl⟩
      simp only [fileBefore, remainder, step, nothing]
      rfl
    | unreplaced needed struck step =>
      obtain rfl := Option.some.inj struck
      rw [HandledStore.pruneMemory_twice]
      refine ⟨nowUnix, reference, parsed, missing, rfl, ?_, .inl rfl⟩
      simp only [List.mem_cons, List.not_mem_nil, or_false] at step
      rcases step with step | step | step | step | step
      all_goals
        simp only [fileBefore, remainder, step, nothing]
        rfl
    | unopened needed struck step =>
      obtain rfl := Option.some.inj struck
      rw [HandledStore.pruneMemory_twice]
      refine ⟨nowUnix, reference, parsed, missing, rfl, ?_, .inr ⟨rfl, needed⟩⟩
      simp only [List.mem_cons, List.not_mem_nil, or_false] at step
      rcases step with step | step | step
      all_goals
        simp only [fileBefore, remainder, step, nothing]
        rfl
    | compacted needed struck step =>
      obtain rfl := Option.some.inj struck
      have seen := HandledStore.seen_room ⟨store, none⟩ nowUnix (logLine messageId seenAt)
      refine ⟨nowUnix, reference, parsed, missing, seen, ?_, ?_⟩
      · rw [pruned, roomy]
        simp only [fileBefore, remainder, step, nothing]
        rfl
      · rw [pruned, roomy]
        exact .inl rfl
  | @unwritten nowUnix failure reference parsed absent struck step =>
    obtain rfl := Option.some.inj struck
    have seen := HandledStore.seen_room ⟨store, none⟩ nowUnix (logLine messageId seenAt)
    have roomy := HandledStore.room_of_opened (store.pruneMemory nowUnix) nowUnix
      (logLine messageId seenAt)
    refine ⟨nowUnix, reference, parsed, unknown nowUnix absent, ?_, ?_, ?_⟩
    · rw [HandledStore.seen_append]
      exact seen
    · rw [HandledStore.file_append, pruned, roomy]
      simp only [List.mem_cons, List.not_mem_nil, or_false] at step
      rcases step with step | step | step
      all_goals
        simp only [fileBefore, remainder, step]
        rfl
    · rw [pruned, roomy]
      exact .inl rfl

/-! ## Trying again -/

/-- Calls without a failure in order. -/
def callEach (store : HandledStore) (calls : List (String × String)) : HandledStore :=
  calls.foldl (fun store call => ((HandledStore.checkAndRecord none call.1 call.2).run store).2) store

/-- A message that is recorded at a time is recorded now, every later call for it within the
retention is a replay, whatever is called in between, and the log is opened with the message. -/
structure Recovers (after : HandledStore) (messageId again : String) (unix : Int) : Prop where
  /-- The message is recorded. -/
  fresh : ((HandledStore.checkAndRecord none messageId again).run after).1 = .ok .freshRecorded
  /-- It is a replay from then on. -/
  known : ∀ calls seenAt time,
    (∀ call ∈ calls, ∀ called, parseReplayTimestamp call.2 = .ok called →
      called ≤ unix + replayRetentionSeconds) →
    parseReplayTimestamp seenAt = .ok time → time ≤ unix + replayRetentionSeconds →
    ((HandledStore.checkAndRecord none messageId seenAt).run (callEach
      ((HandledStore.checkAndRecord none messageId again).run after).2 calls)).1 = .ok .replay
  /-- The log is opened and has the message. -/
  opened : ∃ store, openLog ((HandledStore.checkAndRecord none messageId again).run after).2.log =
    .ok store ∧ store.contains messageId = true

/-- A known message stays known over calls that do not outlive it. -/
theorem knows_callEach {store : HandledStore} {messageId : String} {unix : Int}
    (knows : store.Knows messageId unix) {calls : List (String × String)}
    (recent : ∀ call ∈ calls, ∀ called, parseReplayTimestamp call.2 = .ok called →
      called ≤ unix + replayRetentionSeconds) : (callEach store calls).Knows messageId unix := by
  induction calls generalizing store with
  | nil => exact knows
  | cons call rest ih =>
    have first := knows.outcome (HandledStore.checkAndRecord_outcome none store call.1 call.2)
      (recent call List.mem_cons_self)
    exact ih first fun other member => recent other (List.mem_cons_of_mem _ member)

/-- Whether the second call after a failed one recovers: when it compacts the log there is room for
the messages that are still remembered and the line; when it does not, nothing of the line was
appended by the failed call, and the log is opened and has no line of the message. -/
def Recoverable (store : DurableReplayStore) (fault : IoFault) (messageId seenAt again : String)
    (nowUnix unix : Int) : Prop :=
  let line := logLine messageId again
  let file := fileBefore store nowUnix (logLine messageId seenAt) fault.step
  let size := file.size + (remainder fault (logLine messageId seenAt)).utf8ByteSize
  if replayCompactionThresholdBytes ≤ size ∨ maxReplayLogBytes < size + line.utf8ByteSize then
    (logText ((store.pruneMemory nowUnix).pruneMemory unix).seen.entries).utf8ByteSize +
      line.utf8ByteSize ≤ maxReplayLogBytes
  else
    remainder fault (logLine messageId seenAt) = "" ∧ (∃ opened, openLog file = .ok opened) ∧
      ¬HasLine file messageId

/-- What a failed call appends of its line is nothing or a beginning of it. -/
theorem remainder_cases (fault : IoFault) (line : String) : remainder fault line = "" ∨
    ∃ characters, characters ≠ 0 ∧
      remainder fault line = String.ofList (line.toList.take characters) := by
  have whole : line = "" ∨ ∃ characters, characters ≠ 0 ∧
      line = String.ofList (line.toList.take characters) := by
    refine .inr ⟨line.toList.length + 1, by omega, ?_⟩
    rw [List.take_of_length_le (by omega), String.ofList_toList]
  unfold remainder
  cases step : fault.step with
  | write =>
    simp only [HandledStore.appended, if_pos step]
    by_cases none_ : fault.characters = 0
    · rw [none_]
      exact .inl rfl
    · exact .inr ⟨_, none_, rfl⟩
  | flush | fsync => simpa only [HandledStore.appended, step, reduceCtorEq, ↓reduceIte] using whole
  | _ => exact .inl rfl

/-- The file before the line of a failed call stands for a list of admissions. -/
theorem logged_fileBefore {store : DurableReplayStore} (mirrors : Mirrors store.log store.seen)
    (nowUnix : Int) (line : String) (step : IoStep) :
    ∃ entries, Logged (fileBefore store nowUnix line step) entries := by
  obtain ⟨others, roomy, -⟩ := (mirrors.pruneMemory nowUnix).makeRoom nowUnix line
  obtain ⟨entries, logged, -⟩ := mirrors
  unfold fileBefore
  cases step with
  | compactedMetadata | write | flush | fsync => exact ⟨others, roomy⟩
  | _ => exact ⟨entries, logged⟩

/-- The log of a map is opened, and it has no line of a message that the map does not have. -/
theorem opened_logText {seen : OrderedMap String SeenRecord}
    (well : ∀ entry ∈ seen.entries, WellFormed entry) {messageId : String}
    (absent : seen.get? messageId = none)
    (small : (logText seen.entries).utf8ByteSize ≤ maxReplayLogBytes) :
    (∃ opened, openLog (logText seen.entries).toByteArray = .ok opened) ∧
      ¬HasLine (logText seen.entries).toByteArray messageId := by
  have logged := logged_logText well
  have size : (logText seen.entries).toByteArray.size ≤ maxReplayLogBytes := by
    rwa [String.size_toByteArray]
  have opened := (openLog_ok_iff ..).mpr ⟨size, _, logged, seen.sorted.nodup, rfl⟩
  refine ⟨⟨_, opened⟩, ?_⟩
  rintro ⟨entries, same, member⟩
  obtain rfl := logged.unique same
  obtain ⟨⟨other, record⟩, listed, rfl⟩ := List.mem_map.mp member
  rw [(OrderedMap.mem_entries ..).mp listed] at absent
  cases absent

/-- A call that records its message recovers exactly when the log that it leaves is opened with the
message. -/
theorem recovers_iff_opened {after final : HandledStore} {messageId again text : String}
    {unix : Int} (reference : Wire.isSha256Ref messageId = true)
    (ran : (HandledStore.checkAndRecord none messageId again).run after =
      (.ok .freshRecorded, final.insert messageId text unix)) :
    Recovers after messageId again unix ↔
      ∃ store, openLog final.log = .ok store ∧ store.contains messageId = true := by
  have recorded : (final.insert messageId text unix).Knows messageId unix :=
    ⟨⟨text, unix⟩, OrderedMap.get?_insert_self .., le_refl _⟩
  constructor
  · intro recovers
    obtain ⟨store, opened, there⟩ := recovers.opened
    rw [ran] at opened
    exact ⟨store, opened, there⟩
  · rintro ⟨store, opened, there⟩
    refine ⟨by rw [ran], ?_, ⟨store, by rw [ran]; exact opened, there⟩⟩
    intro calls seenAt time within parsed recent
    rw [ran]
    exact (knows_callEach recorded within).replayed none reference parsed recent

/-- After a failed call the store records the message of a further call when there is room, and the
log is then opened with the message, exactly under the stated conditions. -/
theorem retry_recovers_iff {log : ByteArray} {events : List ReplayEvent}
    {store : DurableReplayStore} (run : Run Step ⟨log, none⟩ events ⟨store.log, some store.seen⟩)
    {fault : IoFault} {messageId seenAt again : String} {after : HandledStore} {nowUnix unix : Int}
    (called : parseReplayTimestamp seenAt = .ok nowUnix)
    (failed : (HandledStore.checkAndRecord (some fault) messageId seenAt).run ⟨store, none⟩ =
      (.error (.io fault.step fault.reason), after))
    (retried : parseReplayTimestamp again = .ok unix) :
    Recovers after messageId again unix ↔
      Recoverable store fault messageId seenAt again nowUnix unix := by
  have mirrors : Mirrors store.log store.seen := (tracked_of_run run).mirrors _ rfl
  obtain ⟨time, left⟩ := left_of_failed failed
  obtain rfl := Except.ok.inj (called.symm.trans left.parsed)
  have earlier : WellFormed (messageId, ⟨seenAt, nowUnix⟩) := ⟨left.reference, called⟩
  have later : WellFormed (messageId, ⟨again, unix⟩) := ⟨left.reference, retried⟩
  have lengths : (logLine messageId seenAt).utf8ByteSize = (logLine messageId again).utf8ByteSize :=
    earlier.size_logLine.trans later.size_logLine.symm
  have absent : after.seen.get? messageId = none := left.seen ▸ left.absent
  have size : (after.pruneMemory unix).file.size =
      (fileBefore store nowUnix (logLine messageId seenAt) fault.step).size +
        (remainder fault (logLine messageId seenAt)).utf8ByteSize := by
    have whole : (after.pruneMemory unix).file = after.file := rfl
    rw [whole, left.file, ByteArray.size_append, String.size_toByteArray]
  have outcome := HandledStore.run_unknown left.reference retried
    (HandledStore.absent_pruned absent unix)
  have seen : (after.pruneMemory unix).seen =
      ((store.pruneMemory nowUnix).pruneMemory unix).seen :=
    congrArg (fun seen : OrderedMap String SeenRecord =>
      seen.retain fun _ record => unix - replayRetentionSeconds ≤ record.unix) left.seen
  by_cases needed : (after.pruneMemory unix).NeedsCompaction (logLine messageId again)
  · have compacts := needed
    rw [HandledStore.NeedsCompaction, size] at compacts
    simp only [Recoverable, if_pos compacts]
    rw [HandledStore.room_of_needed needed] at outcome
    have text : ((after.pruneMemory unix).rename.reopen).file =
        (logText ((store.pruneMemory nowUnix).pruneMemory unix).seen.entries).toByteArray := by
      rw [← seen]
      rfl
    rw [text, String.size_toByteArray] at outcome
    rcases outcome with ⟨fits, formatted, -, ran⟩ | ⟨large, ran⟩
    · refine iff_of_true ?_ fits
      refine (recovers_iff_opened left.reference ran).mpr ?_
      generalize remembered : (store.pruneMemory nowUnix).pruneMemory unix = kept at *
      have known : ∀ other record, kept.seen.get? other = some record →
          store.seen.get? other = some record := by
        intro other record found
        rw [← remembered, DurableReplayStore.get?_pruneMemory,
          DurableReplayStore.get?_pruneMemory] at found
        exact found.1.1
      have well : ∀ entry ∈ kept.seen.entries, WellFormed entry := by
        obtain ⟨_, -, each⟩ := mirrors
        intro entry member
        exact (each _ _ (known _ _ ((OrderedMap.mem_entries ..).mp member))).1
      have unknown : kept.seen.get? messageId = none := by
        rw [← remembered, Option.eq_none_iff_forall_ne_some]
        intro record found
        rw [DurableReplayStore.get?_pruneMemory, left.absent] at found
        cases found.1
      have small : (logText kept.seen.entries).utf8ByteSize ≤ maxReplayLogBytes := by omega
      have written := (openLog_line_iff (logged_logText well) later
        (by rwa [String.size_toByteArray])).mpr (opened_logText well unknown small)
      rw [← seen] at written
      exact written
    · refine iff_of_false (fun recovers => ?_) (not_le.mpr large)
      have fresh := recovers.fresh
      rw [ran] at fresh
      cases fresh
  · have keeps := needed
    rw [HandledStore.NeedsCompaction, size] at keeps
    simp only [Recoverable, if_neg keeps]
    have opened : after.replaced = none := by
      rcases left.named with opened | ⟨file, full⟩
      · exact opened
      · refine absurd ?_ needed
        change _ ≤ after.file.size ∨ _ < after.file.size + _
        rw [file, ← lengths]
        exact full
    rw [HandledStore.room, if_neg needed] at outcome
    rcases outcome with ⟨fits, formatted, -, ran⟩ | ⟨large, ran⟩
    · rw [recovers_iff_opened left.reference ran]
      have logged := logged_fileBefore mirrors nowUnix (logLine messageId seenAt) fault.step
      obtain ⟨entries, logged⟩ := logged
      have named : (((after.pruneMemory unix).append (logLine messageId again))).log =
          after.file ++ (logLine messageId again).toByteArray := by
        rw [HandledStore.file, opened]
        simp only [HandledStore.append, HandledStore.pruneMemory, opened]
        rfl
      rw [named, left.file]
      rcases remainder_cases fault (logLine messageId seenAt) with nothing | ⟨characters, some_, part⟩
      · rw [nothing]
        have kept : ∀ bytes : ByteArray, bytes ++ "".toByteArray = bytes :=
          fun bytes => ByteArray.append_empty
        have whole : (after.pruneMemory unix).file.size = (fileBefore store nowUnix
            (logLine messageId seenAt) fault.step).size := by
          rw [size, nothing]
          rfl
        rw [kept, openLog_line_iff logged later (whole ▸ fits)]
        simp only [true_and]
      · rw [part]
        refine iff_of_false ?_ ?_
        · rintro ⟨_, read, -⟩
          exact not_opened_part logged earlier later some_ _ read
        · rintro ⟨nothing, -⟩
          have empty := congrArg String.toList nothing
          rw [String.toList_ofList, toList_logLine] at empty
          have short := congrArg List.length empty
          rw [List.length_take, List.length_append, earlier.length] at short
          have none_ : "".toList.length = 0 := rfl
          simp only [List.length_cons, List.length_nil] at short
          omega
    · refine absurd (.inr ?_) needed
      exact large

/-! ## A recorded failure -/

/-- A write that stops after some characters of the line. -/
def recordedFault (characters : Nat) : IoFault := ⟨.write, "No space left on device", characters⟩

/-- The store that the failed write of the recorded message leaves. -/
def recordedLeft (characters : Nat) : HandledStore :=
  (HandledStore.mk emptyStore none).append (HandledStore.appended (some (recordedFault characters))
    (logLine recordedMessage "2026-08-23T00:00:00Z"))

/-- The write fails. -/
theorem recorded_failed (characters : Nat) :
    (HandledStore.checkAndRecord (some (recordedFault characters)) recordedMessage
      "2026-08-23T00:00:00Z").run ⟨emptyStore, none⟩ =
      (.error (.io .write "No space left on device"), recordedLeft characters) := rfl

/-- The empty log is opened. -/
theorem recorded_opened : Run Step ⟨"".toByteArray, none⟩ [.opened]
    ⟨emptyStore.log, some emptyStore.seen⟩ := .single (.opened emptyStore_opened)

/-- A write that fails before it appends anything is made up for by the second call. -/
theorem recorded_retry_recovers :
    Recovers (recordedLeft 0) recordedMessage "2026-08-23T00:00:05Z" 1787443205 := by
  have called : parseReplayTimestamp "2026-08-23T00:00:00Z" = .ok 1787443200 := rfl
  have retried : parseReplayTimestamp "2026-08-23T00:00:05Z" = .ok 1787443205 := rfl
  refine (retry_recovers_iff recorded_opened called (recorded_failed 0) retried).mpr ?_
  have nothing : remainder (recordedFault 0)
      (logLine recordedMessage "2026-08-23T00:00:00Z") = "" := rfl
  have file : fileBefore emptyStore 1787443200 (logLine recordedMessage "2026-08-23T00:00:00Z")
      (recordedFault 0).step = emptyStore.log := rfl
  have small : ¬(replayCompactionThresholdBytes ≤ emptyStore.log.size + "".utf8ByteSize ∨
      maxReplayLogBytes < emptyStore.log.size + "".utf8ByteSize +
        (logLine recordedMessage "2026-08-23T00:00:05Z").utf8ByteSize) := by decide
  simp only [Recoverable, nothing, file, if_neg small, true_and]
  refine ⟨⟨_, emptyStore_opened⟩, ?_⟩
  rintro ⟨entries, logged, member⟩
  obtain rfl := logged.unique logged_empty
  cases member

/-- A write that fails after some characters leaves a log that is not opened after the second
call. -/
theorem recorded_torn_not_recovered : ¬∀ log events store fault messageId seenAt again after
    nowUnix unix, Run Step ⟨log, none⟩ events ⟨store.log, some store.seen⟩ →
    parseReplayTimestamp seenAt = .ok nowUnix →
    (HandledStore.checkAndRecord (some fault) messageId seenAt).run ⟨store, none⟩ =
      (.error (.io fault.step fault.reason), after) →
    parseReplayTimestamp again = .ok unix → Recovers after messageId again unix := by
  intro always
  have recovers := always _ _ _ (recordedFault 10) _ _ "2026-08-23T00:00:05Z" _ 1787443200
    1787443205 recorded_opened rfl (recorded_failed 10) rfl
  obtain ⟨opened, read, -⟩ := recovers.opened
  have reference : Wire.isSha256Ref recordedMessage = true := by decide
  have small : ¬((recordedLeft 10).pruneMemory 1787443205).NeedsCompaction
      (logLine recordedMessage "2026-08-23T00:00:05Z") := by decide
  have roomy : ((recordedLeft 10).pruneMemory 1787443205).room 1787443205
      (logLine recordedMessage "2026-08-23T00:00:05Z") =
        (recordedLeft 10).pruneMemory 1787443205 := if_neg small
  rcases @HandledStore.run_unknown (recordedLeft 10) recordedMessage "2026-08-23T00:00:05Z"
    1787443205 reference rfl rfl with ⟨-, text, -, ran⟩ | ⟨-, ran⟩
  · rw [ran, roomy] at read
    have earlier : WellFormed (recordedMessage, ⟨"2026-08-23T00:00:00Z", 1787443200⟩) :=
      ⟨reference, rfl⟩
    have later : WellFormed (recordedMessage, ⟨"2026-08-23T00:00:05Z", 1787443205⟩) :=
      ⟨reference, rfl⟩
    have some_ : 10 ≠ 0 := by decide
    exact not_opened_part logged_empty earlier later some_ opened read
  · have fresh := recovers.fresh
    rw [ran] at fresh
    cases fresh

end QsolFed.Replay
