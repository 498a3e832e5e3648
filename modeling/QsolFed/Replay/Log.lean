import QsolFed.Replay
import Mathlib.Data.List.Induction

/-!
# The log as a list of admissions

The bytes of a readable log stand for a list of admissions in order. Opening a log gives the map
of these admissions when no message occurs twice; recording appends one admission; compaction
leaves the admissions of the map. The laws of runs speak of these lists alone.
-/
namespace QsolFed.Replay

open Checked

/-- An admission that can be written and read back. -/
structure WellFormed (entry : String × SeenRecord) : Prop where
  /-- The identifier is well formed. -/
  reference : Wire.isSha256Ref entry.1 = true
  /-- The time is the second that the text names. -/
  parsed : parseReplayTimestamp entry.2.seenAt = .ok entry.2.unix

/-- A line that is read as an admission. -/
structure LineHolds (line : List Char) (entry : String × SeenRecord) : Prop where
  /-- The fields of the line. -/
  fields : Lines.splitOnce '\t' line = some (entry.1.toList, entry.2.seenAt.toList)
  /-- The identifier has no further separator. -/
  identifierClear : '\t' ∉ entry.1.toList
  /-- The time has no further separator. -/
  timeClear : '\t' ∉ entry.2.seenAt.toList
  /-- Both fields are well formed. -/
  wellFormed : WellFormed entry

/-- The bytes of a log stand for a list of admissions. -/
def Logged (log : ByteArray) (entries : List (String × SeenRecord)) : Prop :=
  ∃ text, String.fromUTF8? log = some text ∧ Lines.Terminated text.toList ∧
    List.Forall₂ LineHolds (Lines.lines text.toList) entries

/-- The map of a list of admissions, on top of a map. -/
def collect (seen : OrderedMap String SeenRecord) (entries : List (String × SeenRecord)) :
    OrderedMap String SeenRecord :=
  entries.foldl (fun map entry => map.insert entry.1 entry.2) seen

/-- One line is read exactly when it holds an admission of a new message. -/
theorem readLine_ok_iff (seen final : OrderedMap String SeenRecord) (line : List Char)
    (index : Nat) : readLine seen (line, index) = .ok final ↔
      ∃ entry, LineHolds line entry ∧ seen.get? entry.1 = none ∧
        final = seen.insert entry.1 entry.2 := by
  simp only [readLine, bind_ok_iff, okOr_ok_iff, ensure_ok_iff, pure_ok_iff, exists_const]
  constructor
  · rintro ⟨⟨messageId, seenAt⟩, fields, ⟨clear, timeClear, reference, -⟩, unix, parsed, absent,
      rfl⟩
    refine ⟨(String.ofList messageId, ⟨String.ofList seenAt, unix⟩), ⟨?_, ?_, ?_, reference,
      parsed⟩, absent, rfl⟩
    · simpa only [String.toList_ofList] using fields
    · simpa only [String.toList_ofList] using clear
    · simpa only [String.toList_ofList] using timeClear
  · rintro ⟨⟨messageId, record⟩, holds, absent, rfl⟩
    refine ⟨_, holds.fields, ⟨holds.identifierClear, holds.timeClear, ?_, ?_⟩, record.unix, ?_, ?_,
      ?_⟩
    · simpa only [String.ofList_toList] using holds.wellFormed.reference
    · simpa only [String.ofList_toList] using
        (DurableReplayStore.validReplayTimestamp_iff _).mpr ⟨_, holds.wellFormed.parsed⟩
    · simpa only [String.ofList_toList] using holds.wellFormed.parsed
    · simpa only [String.ofList_toList] using absent
    · simp only [String.ofList_toList]

/-- A lookup in a map of admissions. -/
theorem get?_collect (seen : OrderedMap String SeenRecord)
    {entries : List (String × SeenRecord)} (distinct : (entries.map Prod.fst).Nodup)
    (messageId : String) (record : SeenRecord) :
    (collect seen entries).get? messageId = some record ↔
      (messageId, record) ∈ entries ∨
        (messageId ∉ entries.map Prod.fst ∧ seen.get? messageId = some record) := by
  induction entries generalizing seen with
  | nil => simp [collect]
  | cons entry rest ih =>
    obtain ⟨other, value⟩ := entry
    simp only [List.map_cons, List.nodup_cons] at distinct
    have further := ih (seen.insert other value) distinct.2
    simp only [collect, List.foldl_cons] at further ⊢
    rw [further, OrderedMap.get?_insert]
    by_cases here : messageId = other
    · subst here
      have outside : (messageId, record) ∉ rest := fun member =>
        distinct.1 (List.mem_map_of_mem (f := Prod.fst) member)
      simp [distinct.1, outside, eq_comm]
    · simp [here]

/-- The lines of a log are read exactly when they hold admissions of distinct messages. -/
theorem foldlM_readLine_ok_iff (lines : List (List Char)) (index : Nat)
    (seen final : OrderedMap String SeenRecord) :
    (lines.zipIdx index).foldlM readLine seen = .ok final ↔
      ∃ entries, List.Forall₂ LineHolds lines entries ∧ (entries.map Prod.fst).Nodup ∧
        (∀ messageId ∈ entries.map Prod.fst, seen.get? messageId = none) ∧
        final = collect seen entries := by
  induction lines generalizing index seen with
  | nil =>
    simp only [List.zipIdx_nil, List.foldlM_nil, pure_ok_iff, List.forall₂_nil_left_iff]
    constructor
    · rintro rfl
      exact ⟨[], rfl, List.nodup_nil, by simp, rfl⟩
    · rintro ⟨entries, rfl, -, -, rfl⟩
      rfl
  | cons line rest ih =>
    simp only [List.zipIdx_cons, foldlM_cons_ok_iff, readLine_ok_iff, ih]
    constructor
    · rintro ⟨_, ⟨entry, holds, absent, rfl⟩, entries, others, distinct, fresh, rfl⟩
      have apart : entry.1 ∉ entries.map Prod.fst := fun member => by
        simpa using fresh entry.1 member
      refine ⟨entry :: entries, .cons holds others, by simpa using ⟨by simpa using apart, distinct⟩,
        fun messageId member => ?_, rfl⟩
      rcases List.mem_cons.mp member with rfl | member
      · exact absent
      · have := fresh messageId member
        rw [OrderedMap.get?_insert] at this
        split_ifs at this
        exact this
    · rintro ⟨_, aligned, distinct, fresh, rfl⟩
      cases aligned with
      | @cons _ entry _ entries holds others =>
        simp only [List.map_cons, List.nodup_cons] at distinct
        refine ⟨_, ⟨entry, holds, fresh entry.1 (by simp), rfl⟩, entries, others, distinct.2,
          fun messageId member => ?_, rfl⟩
        have apart : messageId ≠ entry.1 := fun same => distinct.1 (same ▸ member)
        rw [OrderedMap.get?_insert_of_ne _ _ apart]
        exact fresh messageId (List.mem_cons_of_mem _ member)

/-- The bytes of a text are those of the array that reads as the text. -/
theorem toByteArray_of_fromUTF8 {log : ByteArray} {text : String}
    (decoded : String.fromUTF8? log = some text) : text.toByteArray = log := by
  unfold String.fromUTF8? at decoded
  split at decoded
  · exact (Option.some.inj decoded) ▸ rfl
  · cases decoded

/-- The last byte of a log is a line feed exactly when the last line of its text is terminated. -/
theorem terminated_iff (text : String) :
    (text.toByteArray.data.toList = [] ∨
      text.toByteArray.data.toList.getLast? = some (Wire.byte '\n')) ↔
      Lines.Terminated text.toList := by
  change Text.bytes text = [] ∨ (Text.bytes text).getLast? = some (Wire.byte '\n') ↔ _
  rw [Wire.byte, Text.getLast?_bytes (by decide)]
  constructor
  · rintro (empty | ends) last found
    · have : text = "" := Text.bytes_injective (empty.trans rfl)
      simp [this] at found
    · exact Option.some.inj (found.symm.trans ends)
  · intro terminated
    cases found : text.toList.getLast? with
    | none =>
      refine .inl ?_
      rw [Text.bytes_eq, List.getLast?_eq_none_iff.mp found]
      rfl
    | some last => exact .inr (terminated last found ▸ rfl)

/-- A log is opened exactly when it is small enough and stands for admissions of distinct
messages, which make the map. -/
theorem openLog_ok_iff (log : ByteArray) (store : DurableReplayStore) :
    openLog log = .ok store ↔ log.size ≤ maxReplayLogBytes ∧
      ∃ entries, Logged log entries ∧ (entries.map Prod.fst).Nodup ∧
        store = ⟨log, collect .empty entries⟩ := by
  simp only [openLog, bind_ok_iff, ensure_ok_iff, okOr_ok_iff, pure_ok_iff, exists_const,
    foldlM_readLine_ok_iff, Logged]
  refine and_congr_right fun _ => ?_
  constructor
  · rintro ⟨ends, text, decoded, _, ⟨entries, aligned, distinct, -, rfl⟩, rfl⟩
    obtain rfl := toByteArray_of_fromUTF8 decoded
    exact ⟨entries, ⟨text, decoded, (terminated_iff text).mp ends, aligned⟩, distinct, rfl⟩
  · rintro ⟨entries, ⟨text, decoded, terminated, aligned⟩, distinct, rfl⟩
    obtain rfl := toByteArray_of_fromUTF8 decoded
    exact ⟨(terminated_iff text).mpr terminated, text, decoded, _,
      ⟨entries, aligned, distinct, by simp, rfl⟩, rfl⟩

/-- A line holds one admission. -/
theorem LineHolds.unique {line : List Char} {first second : String × SeenRecord}
    (one : LineHolds line first) (two : LineHolds line second) : first = second := by
  obtain ⟨firstId, firstRecord⟩ := first
  obtain ⟨secondId, secondRecord⟩ := second
  have fields := Option.some.inj (one.fields.symm.trans two.fields)
  simp only [Prod.mk.injEq, String.toList_inj] at fields
  obtain ⟨rfl, times⟩ := fields
  have unix := Except.ok.inj (one.wellFormed.parsed.symm.trans (times ▸ two.wellFormed.parsed))
  cases firstRecord
  cases secondRecord
  simp_all

/-- A log stands for one list of admissions. -/
theorem Logged.unique {log : ByteArray} {first second : List (String × SeenRecord)}
    (one : Logged log first) (two : Logged log second) : first = second := by
  obtain ⟨text, decoded, -, aligned⟩ := one
  obtain ⟨other, decodedOther, -, alignedOther⟩ := two
  obtain rfl := Option.some.inj (decoded.symm.trans decodedOther)
  generalize Lines.lines text.toList = lines at aligned alignedOther
  induction aligned generalizing second with
  | nil =>
    cases alignedOther
    rfl
  | cons holds _ ih =>
    cases alignedOther with
    | cons other others => rw [holds.unique other, ih others]

/-- Every admission of a log is well formed. -/
theorem Logged.wellFormed {log : ByteArray} {entries : List (String × SeenRecord)}
    (logged : Logged log entries) : ∀ entry ∈ entries, WellFormed entry := by
  obtain ⟨text, -, -, aligned⟩ := logged
  generalize Lines.lines text.toList = lines at aligned
  induction aligned with
  | nil => simp
  | cons holds _ ih =>
    intro entry member
    rcases List.mem_cons.mp member with rfl | member
    · exact holds.wellFormed
    · exact ih entry member

/-! ## Further admissions -/

/-- A text of visible bytes contains no control character. -/
theorem not_mem_of_visible {text : String} {c : Char} (control : c.toNat ≤ 0x20)
    (visible : ∀ b ∈ Text.bytes text, Wire.Visible b) : c ∉ text.toList := by
  intro member
  have ascii : Text.Ascii c := lt_of_le_of_lt control (by decide)
  have seen := visible _ (Text.byte_mem_of_mem member ascii)
  rw [Wire.Visible, Text.toNat_byte ascii] at seen
  omega

/-- A well-formed identifier contains no control character. -/
theorem WellFormed.identifier_clear {entry : String × SeenRecord} (well : WellFormed entry)
    {c : Char} (control : c.toNat ≤ 0x20) : c ∉ entry.1.toList :=
  not_mem_of_visible control (Wire.visible_of_sha256Ref well.reference)

/-- A well-formed time contains no control character. -/
theorem WellFormed.time_clear {entry : String × SeenRecord} (well : WellFormed entry) {c : Char}
    (control : c.toNat ≤ 0x20) : c ∉ entry.2.seenAt.toList :=
  not_mem_of_visible control (Wire.visible_of_wireTimestamp
    ((DurableReplayStore.parseReplayTimestamp_ok_iff ..).mp well.parsed).1)

/-- The characters of a line before its terminator. -/
def fieldsOf (messageId seenAt : String) : List Char :=
  messageId.toList ++ '\t' :: seenAt.toList

/-- A line is its fields and a terminator. -/
theorem toList_logLine (messageId seenAt : String) :
    (logLine messageId seenAt).toList = fieldsOf messageId seenAt ++ ['\n'] := by
  simp only [logLine, fieldsOf, String.toList_append, List.append_assoc]
  rfl

/-- The fields of a well-formed admission hold it. -/
theorem WellFormed.holds {entry : String × SeenRecord} (well : WellFormed entry) :
    LineHolds (fieldsOf entry.1 entry.2.seenAt) entry :=
  ⟨Lines.splitOnce_fields (well.identifier_clear (by decide)) _,
    well.identifier_clear (by decide), well.time_clear (by decide), well⟩

/-- The line of a well-formed admission ends with its own line feed only. -/
theorem WellFormed.line_clear {entry : String × SeenRecord} (well : WellFormed entry) :
    '\n' ∉ fieldsOf entry.1 entry.2.seenAt ∧
      (fieldsOf entry.1 entry.2.seenAt).getLast? ≠ some '\r' := by
  have clear : ∀ c : Char, c.toNat ≤ 0x20 → c ≠ '\t' → c ∉ fieldsOf entry.1 entry.2.seenAt := by
    intro c control other member
    simp only [fieldsOf, List.mem_append, List.mem_cons] at member
    rcases member with identifier | tab | time
    · exact well.identifier_clear control identifier
    · exact other tab
    · exact well.time_clear control time
  exact ⟨clear '\n' (by decide) (by decide), fun ends =>
    clear '\r' (by decide) (by decide) (List.mem_of_getLast? ends)⟩

/-- Writing the line of a well-formed admission appends it. -/
theorem Logged.append {log : ByteArray} {entries : List (String × SeenRecord)}
    (logged : Logged log entries) {messageId seenAt : String} {unix : Int}
    (well : WellFormed (messageId, ⟨seenAt, unix⟩)) :
    Logged (log ++ (logLine messageId seenAt).toByteArray)
      (entries ++ [(messageId, ⟨seenAt, unix⟩)]) := by
  obtain ⟨text, decoded, terminated, aligned⟩ := logged
  obtain rfl := toByteArray_of_fromUTF8 decoded
  obtain ⟨clear, ends⟩ := well.line_clear
  refine ⟨text ++ logLine messageId seenAt, ?_, ?_, ?_⟩
  · rw [← String.toByteArray_append, Text.fromUTF8_toByteArray]
  · rw [String.toList_append, toList_logLine]
    exact Lines.terminated_append_line _ _
  · rw [String.toList_append, toList_logLine, Lines.lines_append_line terminated clear ends]
    exact List.rel_append aligned (.cons well.holds .nil)

/-- The empty log stands for no admission. -/
theorem logged_empty : Logged "".toByteArray [] := by
  refine ⟨"", Text.fromUTF8_toByteArray "", fun _ found => ?_, .nil⟩
  cases found

/-- The text of admissions in two parts. -/
theorem logText_append (first second : List (String × SeenRecord)) :
    logText (first ++ second) = logText first ++ logText second := by
  induction first with
  | nil => simp [logText]
  | cons entry rest ih => simp only [List.cons_append, logText, ih, String.append_assoc]

/-- The text of well-formed admissions stands for them. -/
theorem logged_logText {entries : List (String × SeenRecord)}
    (well : ∀ entry ∈ entries, WellFormed entry) : Logged (logText entries).toByteArray entries := by
  induction entries using List.reverseRecOn with
  | nil => exact logged_empty
  | append_singleton entries entry ih =>
    have before := ih fun other member => well other (List.mem_append_left _ member)
    have last := before.append (well entry (by simp))
    rw [logText_append, String.toByteArray_append]
    simpa only [logText, String.append_empty] using last

/-! ## The map and the log -/

/-- Every message of a map is an admission of a log at the same time. -/
def Mirrors (log : ByteArray) (seen : OrderedMap String SeenRecord) : Prop :=
  ∃ entries, Logged log entries ∧ ∀ messageId record, seen.get? messageId = some record →
    WellFormed (messageId, record) ∧
      ∃ line, (messageId, line) ∈ entries ∧ line.unix = record.unix

/-- An opened store has the admissions of its log. -/
theorem get?_openLog {log : ByteArray} {store : DurableReplayStore}
    (opened : openLog log = .ok store) {entries : List (String × SeenRecord)}
    (logged : Logged log entries) (messageId : String) (record : SeenRecord) :
    store.seen.get? messageId = some record ↔ (messageId, record) ∈ entries := by
  obtain ⟨-, others, same, distinct, rfl⟩ := (openLog_ok_iff ..).mp opened
  obtain rfl := same.unique logged
  simp [get?_collect _ distinct]

/-- An opened store has the log that it was opened from. -/
theorem openLog_log {log : ByteArray} {store : DurableReplayStore}
    (opened : openLog log = .ok store) : store.log = log := by
  obtain ⟨-, _, -, -, rfl⟩ := (openLog_ok_iff ..).mp opened
  rfl

/-- The map of an opened store is in its log. -/
theorem mirrors_openLog {log : ByteArray} {store : DurableReplayStore}
    (opened : openLog log = .ok store) : Mirrors store.log store.seen := by
  obtain ⟨-, entries, logged, -⟩ := (openLog_ok_iff ..).mp opened
  rw [openLog_log opened]
  refine ⟨entries, logged, fun messageId record known => ?_⟩
  have member := (get?_openLog opened logged messageId record).mp known
  exact ⟨logged.wellFormed _ member, record, member, rfl⟩

/-- Pruning keeps a map in its log. -/
theorem Mirrors.pruneMemory {store : DurableReplayStore} (mirrors : Mirrors store.log store.seen)
    (nowUnix : Int) :
    Mirrors (store.pruneMemory nowUnix).log (store.pruneMemory nowUnix).seen := by
  obtain ⟨entries, logged, each⟩ := mirrors
  exact ⟨entries, logged, fun messageId record known =>
    each messageId record ((store.get?_pruneMemory ..).mp known).1⟩

/-- Compaction leaves a log that stands for the entries of the map. -/
theorem Mirrors.logged_compact {store : DurableReplayStore}
    (mirrors : Mirrors store.log store.seen) (nowUnix : Int) :
    Logged (store.compact nowUnix).log (store.compact nowUnix).seen.entries := by
  obtain ⟨_, _, each⟩ := mirrors.pruneMemory nowUnix
  refine logged_logText fun entry member => ?_
  exact (each entry.1 entry.2 ((OrderedMap.mem_entries ..).mp member)).1

/-- Making room keeps a map in its log. -/
theorem Mirrors.makeRoom {store : DurableReplayStore} (mirrors : Mirrors store.log store.seen)
    (nowUnix : Int) (line : String) :
    Mirrors (store.makeRoom nowUnix line).log (store.makeRoom nowUnix line).seen := by
  unfold DurableReplayStore.makeRoom
  split
  · obtain ⟨_, _, each⟩ := mirrors.pruneMemory nowUnix
    exact ⟨_, mirrors.logged_compact nowUnix, fun messageId record known =>
      ⟨(each messageId record known).1, record, (OrderedMap.mem_entries ..).mpr known, rfl⟩⟩
  · exact mirrors

/-- An admission keeps a map in its log. -/
theorem Mirrors.admitted {store : DurableReplayStore} (mirrors : Mirrors store.log store.seen)
    {messageId seenAt text : String} {nowUnix : Int}
    (admits : store.Admits messageId seenAt text nowUnix) :
    Mirrors (store.admitted messageId seenAt text nowUnix).log
      (store.admitted messageId seenAt text nowUnix).seen := by
  have room := (mirrors.pruneMemory nowUnix).makeRoom nowUnix (logLine messageId seenAt)
  unfold DurableReplayStore.admitted
  generalize (store.pruneMemory nowUnix).makeRoom nowUnix (logLine messageId seenAt) = before
    at room
  obtain ⟨entries, logged, each⟩ := room
  have well : WellFormed (messageId, ⟨seenAt, nowUnix⟩) := ⟨admits.reference, admits.parsed⟩
  refine ⟨_, logged.append well, fun other record known => ?_⟩
  rw [OrderedMap.get?_insert] at known
  split_ifs at known with here
  · obtain rfl := Option.some.inj known
    obtain ⟨formatted, same, parsed⟩ := DurableReplayStore.format_parsed admits.parsed
    have textual : formatted = text := Except.ok.inj (same.symm.trans admits.formatted)
    exact ⟨⟨here ▸ admits.reference, textual ▸ parsed⟩, ⟨seenAt, nowUnix⟩, by simp [here], rfl⟩
  · obtain ⟨wellOther, line, member, same⟩ := each other record known
    exact ⟨wellOther, line, List.mem_append_left _ member, same⟩

/-- A call keeps a map in its log. -/
theorem Mirrors.outcome {store final : DurableReplayStore}
    (mirrors : Mirrors store.log store.seen) {messageId seenAt : String}
    {result : Except String ReplayDecision}
    (outcome : store.Outcome messageId seenAt result final) : Mirrors final.log final.seen := by
  cases outcome with
  | malformed => exact mirrors
  | replayed => exact mirrors.pruneMemory _
  | full => exact (mirrors.pruneMemory _).makeRoom _ _
  | fresh admits => exact mirrors.admitted admits

/-! ## A recorded log -/

/-- A message. -/
def recordedMessage : String :=
  "sha256:aaaaaaaaaaaaaaaaaaaaaaaaaaaaaaaaaaaaaaaaaaaaaaaaaaaaaaaaaaaaaaaa"

/-- The store of an empty log. -/
def emptyStore : DurableReplayStore := ⟨"".toByteArray, .empty⟩

/-- An empty log is opened. -/
theorem emptyStore_opened : openLog "".toByteArray = .ok emptyStore :=
  (openLog_ok_iff ..).mpr ⟨by decide, [], logged_empty, List.nodup_nil, rfl⟩

/-- The message is admitted into the empty store. -/
theorem emptyStore_admits : emptyStore.Admits recordedMessage "2026-08-23T00:00:00Z"
    "2026-08-23T00:00:00Z" 1787443200 :=
  ⟨by decide, rfl, rfl, by decide, rfl⟩

/-- The store after that admission. -/
def recordedStore : DurableReplayStore :=
  emptyStore.admitted recordedMessage "2026-08-23T00:00:00Z" "2026-08-23T00:00:00Z" 1787443200

/-- The message is admitted again when more than the retention has passed. -/
theorem recordedStore_admits : recordedStore.Admits recordedMessage "2026-08-23T01:10:01Z"
    "2026-08-23T01:10:01Z" 1787447401 :=
  ⟨by decide, rfl, rfl, by decide, rfl⟩

end QsolFed.Replay
