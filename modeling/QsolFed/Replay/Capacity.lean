import QsolFed.Replay.Retry

/-!
# The room that is left

The lines of the map fill no more of the open file than its size, whatever failed before. A store
that has forgotten some messages therefore has room whenever the store that remembers them has:
when its file is too large it is compacted, and then it holds the lines of the map only.
-/
namespace QsolFed.Replay

open Checked

/-- The lines of well-formed admissions have one size. -/
theorem size_logText {entries : List (String × SeenRecord)}
    (well : ∀ entry ∈ entries, WellFormed entry) :
    (logText entries).utf8ByteSize = 93 * entries.length := by
  induction entries with
  | nil => rfl
  | cons entry rest ih =>
    obtain ⟨first, others⟩ := List.forall_mem_cons.mp well
    rw [logText, String.utf8ByteSize_append, ih others, first.size_logLine, List.length_cons]
    omega

end QsolFed.Replay

namespace QsolFed.HandledStore

open Replay

/-- The admissions of the map are well formed, and their lines are no larger than the open file. -/
structure Sized (store : HandledStore) : Prop where
  /-- The admissions are well formed. -/
  wellFormed : ∀ entry ∈ store.seen.entries, WellFormed entry
  /-- The lines fill no more than the file. -/
  size : 93 * store.seen.entries.length ≤ store.file.size

/-- A store remembers no more than another one. -/
def Within (store other : HandledStore) : Prop :=
  ∀ messageId record, store.seen.get? messageId = some record →
    other.seen.get? messageId = some record

/-- What a store remembers when it is opened is written in its log. -/
theorem sized_openLog {log : ByteArray} {store : DurableReplayStore}
    (opened : openLog log = .ok store) : Sized ⟨store, none⟩ := by
  obtain ⟨-, entries, logged, distinct, rfl⟩ := (openLog_ok_iff ..).mp opened
  have listed : ∀ entry ∈ (collect .empty entries).entries, entry ∈ entries := by
    intro entry member
    exact (get?_openLog opened logged _ _).mp ((OrderedMap.mem_entries ..).mp member)
  have well : ∀ entry ∈ (collect .empty entries).entries, WellFormed entry :=
    fun entry member => logged.wellFormed entry (listed entry member)
  refine ⟨well, ?_⟩
  have fewer : (collect .empty entries).entries.length ≤ entries.length :=
    (List.subperm_of_subset (collect .empty entries).sorted.nodup.of_map listed).length_le
  obtain ⟨text, decoded, terminated, aligned⟩ := logged
  have lines := Lines.length_lines_le terminated (length_of_read aligned)
  have bytes := Text.length_toList_le text
  rw [aligned.length_eq] at lines
  have whole : text.utf8ByteSize = log.size := by
    rw [← String.size_toByteArray, toByteArray_of_fromUTF8 decoded]
  change 93 * (collect .empty entries).entries.length ≤ log.size
  omega

/-- Pruning forgets messages and keeps the file. -/
theorem within_pruneMemory (store : HandledStore) (nowUnix : Int) :
    (store.pruneMemory nowUnix).Within store :=
  fun _ _ known => ((get?_pruneMemory ..).mp known).1

/-- Remembering no more stays so when both forget what is old. -/
theorem Within.pruneMemory {store other : HandledStore} (within : store.Within other)
    (nowUnix : Int) : (store.pruneMemory nowUnix).Within (other.pruneMemory nowUnix) := by
  intro messageId record known
  obtain ⟨there, recent⟩ := (get?_pruneMemory ..).mp known
  exact (get?_pruneMemory ..).mpr ⟨within _ _ there, recent⟩

/-- A store that remembers no more has no more entries. -/
theorem Within.length_le {store other : HandledStore} (within : store.Within other) :
    store.seen.entries.length ≤ other.seen.entries.length :=
  OrderedMap.length_le_of_keys fun key value known => ⟨value, within key value known⟩

/-- The admissions of a store that remembers no more are well formed. -/
theorem Within.wellFormed {store other : HandledStore} (within : store.Within other)
    (well : ∀ entry ∈ other.seen.entries, WellFormed entry) :
    ∀ entry ∈ store.seen.entries, WellFormed entry := by
  intro entry member
  have known := within _ _ ((OrderedMap.mem_entries ..).mp member)
  exact well entry ((OrderedMap.mem_entries ..).mpr known)

/-- Forgetting messages keeps a store sized when the file is kept or grows. -/
theorem Sized.within {store other : HandledStore} (sized : other.Sized)
    (within : store.Within other) (grown : other.file.size ≤ store.file.size) : store.Sized := by
  refine ⟨within.wellFormed sized.wellFormed, ?_⟩
  have fewer := within.length_le
  have size := sized.size
  omega

/-- The file of a store that was compacted holds the lines of its map. -/
theorem size_file_compacted {store : HandledStore}
    (well : ∀ entry ∈ store.seen.entries, WellFormed entry) :
    store.rename.reopen.file.size = 93 * store.seen.entries.length := by
  rw [← size_logText well]
  exact String.size_toByteArray

/-- Making room keeps a store sized. -/
theorem Sized.room {store : HandledStore} (sized : store.Sized) (nowUnix : Int) (line : String) :
    (store.room nowUnix line).Sized := by
  unfold HandledStore.room
  split
  · have within := within_pruneMemory store nowUnix
    have well := within.wellFormed sized.wellFormed
    exact ⟨well, (size_file_compacted well).ge⟩
  · exact sized

/-- Making room ends with a sized store, whatever fails. -/
theorem Sized.roomOutcome {fault : Option IoFault} {store next : HandledStore} {nowUnix : Int}
    {line : String} {answer : Except ReplayFailure Unit} (sized : store.Sized)
    (ended : RoomOutcome fault store nowUnix line answer next) : next.Sized := by
  have within := within_pruneMemory store nowUnix
  cases ended with
  | unmeasured => exact sized
  | unreplaced => exact sized.within within le_rfl
  | unopened => exact sized.within within le_rfl
  | compacted | made => exact sized.room nowUnix line

/-- Appending keeps a store sized. -/
theorem Sized.append {store : HandledStore} (sized : store.Sized) (text : String) :
    (store.append text).Sized := by
  refine sized.within ?_ ?_
  · intro messageId record known
    rwa [seen_append] at known
  · rw [file_append, ByteArray.size_append]
    omega

/-- A message whose line is appended keeps a store sized. -/
theorem Sized.insert {store : HandledStore} (sized : store.Sized) {messageId text line : String}
    {nowUnix : Int} (well : WellFormed (messageId, ⟨text, nowUnix⟩))
    (size : line.utf8ByteSize = 93) :
    ((store.append line).insert messageId text nowUnix).Sized := by
  have file : (store.append line).file.size = store.file.size + 93 := by
    rw [file_append, ByteArray.size_append, String.size_toByteArray, size]
  refine ⟨?_, ?_⟩
  · intro entry member
    have known := (OrderedMap.mem_entries ..).mp member
    rw [HandledStore.insert, OrderedMap.get?_insert] at known
    split_ifs at known with here
    · obtain ⟨identifier, record⟩ := entry
      obtain rfl : identifier = messageId := here
      obtain rfl := Option.some.inj known
      exact well
    · rw [seen_append] at known
      exact sized.wellFormed entry ((OrderedMap.mem_entries ..).mpr known)
  · have lines := sized.size
    have longer := Entries.length_insert_le messageId (⟨text, nowUnix⟩ : SeenRecord)
      (store.append line).seen.entries
    rw [seen_append] at longer
    change 93 * (Entries.insert messageId _ (store.append line).seen.entries).length ≤
      (store.append line).file.size
    rw [file, seen_append]
    omega

/-- A call ends with a sized store, whatever fails. -/
theorem Sized.outcome {fault : Option IoFault} {store final : HandledStore}
    {messageId seenAt : String} {answer : Except ReplayFailure ReplayDecision}
    (sized : store.Sized) (outcome : Outcome fault store messageId seenAt answer final) :
    final.Sized := by
  have pruned : ∀ nowUnix, (store.pruneMemory nowUnix).Sized :=
    fun nowUnix => sized.within (within_pruneMemory store nowUnix) le_rfl
  cases outcome with
  | malformed => exact sized
  | replayed => exact pruned _
  | roomless _ _ _ ended => exact (pruned _).roomOutcome ended
  | full => exact (pruned _).room _ _
  | unwritten => exact ((pruned _).room _ _).append _
  | @fresh nowUnix text reference parsed absent fits formatted taken =>
    have line : WellFormed (messageId, ⟨seenAt, nowUnix⟩) := ⟨reference, parsed⟩
    obtain ⟨other, same, again⟩ := DurableReplayStore.format_parsed parsed
    obtain rfl := Except.ok.inj (formatted.symm.trans same)
    exact ((pruned nowUnix).room nowUnix _).insert ⟨reference, again⟩ line.size_logLine

/-- A line fits into a store that remembers no more than one into which it fits. -/
theorem Within.fits {store other : HandledStore} (within : store.Within other)
    (sized : other.Sized) {nowUnix : Int} {line : String}
    (fits : ((other.pruneMemory nowUnix).room nowUnix line).file.size + line.utf8ByteSize ≤
      maxReplayLogBytes) :
    ((store.pruneMemory nowUnix).room nowUnix line).file.size + line.utf8ByteSize ≤
      maxReplayLogBytes := by
  by_cases needed : (store.pruneMemory nowUnix).NeedsCompaction line
  · have fewer := (within.pruneMemory nowUnix).length_le
    have pruned : (other.pruneMemory nowUnix).Sized :=
      sized.within (within_pruneMemory other nowUnix) le_rfl
    have roomy := (pruned.room nowUnix line).size
    rw [seen_room] at roomy
    have well := (within.pruneMemory nowUnix).wellFormed pruned.wellFormed
    rw [room_of_needed needed, size_file_compacted well]
    omega
  · rw [room, if_neg needed]
    rw [HandledStore.NeedsCompaction, not_or] at needed
    omega

/-- A call that records nothing leaves a store that remembers no more. -/
theorem Outcome.within {fault : Option IoFault} {store final : HandledStore}
    {messageId seenAt : String} {answer : Except ReplayFailure ReplayDecision}
    (outcome : Outcome fault store messageId seenAt answer final)
    (unrecorded : answer ≠ .ok .freshRecorded) : final.Within store := by
  have pruned : ∀ nowUnix, (store.pruneMemory nowUnix).Within store := within_pruneMemory store
  have kept : ∀ nowUnix (next : HandledStore),
      next.seen = (store.pruneMemory nowUnix).seen → next.Within store := by
    intro nowUnix next same messageId record known
    rw [same] at known
    exact pruned nowUnix messageId record known
  cases outcome with
  | malformed => exact fun _ _ known => known
  | replayed => exact pruned _
  | roomless _ _ _ ended => exact kept _ _ ended.seen_eq
  | full => exact kept _ _ (seen_room ..)
  | unwritten => exact kept _ _ ((seen_append ..).trans (seen_room ..))
  | fresh => exact absurd rfl unrecorded

/-- A message that a store records is recorded by one that remembers no more. -/
theorem Within.recorded {store other : HandledStore} (within : store.Within other)
    (sized : other.Sized) {messageId seenAt : String}
    (recorded : ((checkAndRecord none messageId seenAt).run other).1 = .ok .freshRecorded) :
    ((checkAndRecord none messageId seenAt).run store).1 = .ok .freshRecorded := by
  cases ran : (checkAndRecord none messageId seenAt).run other with
  | mk answer final =>
    rw [ran] at recorded
    obtain rfl : answer = .ok .freshRecorded := recorded
    cases outcome_of_eq ran with
    | @fresh nowUnix text reference parsed absent fits =>
      refine (fresh_iff_passes reference parsed).mpr ⟨?_, within.fits sized fits, spares_none _⟩
      refine Bool.eq_false_iff.mpr fun there => ?_
      obtain ⟨record, known⟩ := (contains_iff ..).mp there
      have again := (contains_iff ..).mpr ⟨record, within.pruneMemory nowUnix _ _ known⟩
      rw [absent] at again
      cases again

/-- A message that is a replay to a store is one to a store that remembers more. -/
theorem Within.replayed {store other : HandledStore} (within : store.Within other)
    {messageId seenAt : String}
    (replayed : ((checkAndRecord none messageId seenAt).run store).1 = .ok .replay) :
    ((checkAndRecord none messageId seenAt).run other).1 = .ok .replay := by
  cases ran : (checkAndRecord none messageId seenAt).run store with
  | mk answer final =>
    rw [ran] at replayed
    obtain rfl : answer = .ok .replay := replayed
    cases outcome_of_eq ran with
    | @replayed nowUnix reference parsed known =>
      obtain ⟨record, found⟩ := (contains_iff ..).mp known
      obtain ⟨there, recent⟩ := (get?_pruneMemory ..).mp (within.pruneMemory nowUnix _ _ found)
      have knows : other.Knows messageId record.unix := ⟨record, there, le_rfl⟩
      exact knows.replayed none reference parsed (by omega)

end QsolFed.HandledStore
