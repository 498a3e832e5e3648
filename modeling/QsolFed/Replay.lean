import QsolFed.Crypto
import QsolFed.Library.Lines

/-!
# Replay store

The identifiers of admitted messages with the times at which they were seen: a map in memory and
a log file with one line for each admission. The map is pruned on every call; the log keeps its
lines until it has grown past a threshold, when it is rewritten from the map. Opening the store
reads the map back from the log.
-/
namespace QsolFed

open Checked

/-- What the store found out about a message. -/
inductive ReplayDecision where
  | freshRecorded
  | replay
  deriving DecidableEq, Repr

/-- When a message was seen. -/
structure SeenRecord where
  /-- The time as text. -/
  seenAt : String
  /-- The time as second. -/
  unix : Int
  deriving DecidableEq, Repr

/-- The store: the bytes of its log file and the map in memory. -/
structure DurableReplayStore where
  /-- The bytes of the log file. -/
  log : ByteArray
  /-- The messages that were seen. -/
  seen : OrderedMap String SeenRecord
  deriving DecidableEq

namespace Replay

/-- The size that no log exceeds. -/
def maxReplayLogBytes : Nat := 64 * 1024 * 1024

/-- The size from which on a log is compacted. -/
def replayCompactionThresholdBytes : Nat := 1024 * 1024

/-- How long a message could still pass the clock policy. -/
def replayRetentionSeconds : Int :=
  Crypto.maxSignedMessageLifetimeSeconds + 2 * Crypto.maxClockSkewSeconds

/-- The second that a timestamp of the log names. -/
def parseReplayTimestamp (value : String) : Except String Int := do
  ensure (Wire.isWireTimestamp value) "replay_timestamp_invalid_syntax"
  okOr (Wire.parseFromRfc3339 value) "replay_timestamp_invalid_calendar"

/-- A timestamp of the log names a second. -/
def validReplayTimestamp (value : String) : Bool := (parseReplayTimestamp value).isOk

/-- The text of a second. -/
def formatReplayTimestamp (timestamp : Int) : Except String String :=
  okOr (Wire.formatTimestamp timestamp) "replay_timestamp_out_of_range"

/-- The line of an admission. -/
def logLine (messageId seenAt : String) : String := messageId ++ "\t" ++ seenAt ++ "\n"

/-- One more line of the log, with its position, is read into the map. -/
def readLine (seen : OrderedMap String SeenRecord) (line : List Char × Nat) :
    Except String (OrderedMap String SeenRecord) := do
  let (messageId, seenAt) ← okOr (Lines.splitOnce '\t' line.1)
    ("replay_log_malformed_line:" ++ toString (line.2 + 1))
  ensure ('\t' ∉ messageId ∧ '\t' ∉ seenAt ∧ Wire.isSha256Ref (String.ofList messageId) ∧
    validReplayTimestamp (String.ofList seenAt))
    ("replay_log_invalid_line:" ++ toString (line.2 + 1))
  let unix ← parseReplayTimestamp (String.ofList seenAt)
  ensure (seen.get? (String.ofList messageId) = none)
    ("replay_log_duplicate:" ++ toString (line.2 + 1))
  pure (seen.insert (String.ofList messageId) ⟨String.ofList seenAt, unix⟩)

/-- The store of a log file. -/
def openLog (log : ByteArray) : Except String DurableReplayStore := do
  ensure (log.size ≤ maxReplayLogBytes) "replay_log_too_large"
  ensure (log.data.toList = [] ∨ log.data.toList.getLast? = some (Wire.byte '\n'))
    "replay_log_partial_tail"
  let text ← okOr (String.fromUTF8? log) "replay_log_invalid_utf8"
  let seen ← (Lines.lines text.toList).zipIdx.foldlM readLine .empty
  pure ⟨log, seen⟩

/-- The lines of admissions in order. -/
def logText : List (String × SeenRecord) → String
  | [] => ""
  | (messageId, record) :: rest => logLine messageId record.seenAt ++ logText rest

end Replay

namespace DurableReplayStore

open Replay

/-- The map knows a message. -/
def contains (store : DurableReplayStore) (messageId : String) : Bool :=
  (store.seen.get? messageId).isSome

/-- Forget the messages that could no longer pass the clock policy. -/
def pruneMemory (store : DurableReplayStore) (nowUnix : Int) : DurableReplayStore :=
  { store with
    seen := store.seen.retain fun _ record => nowUnix - replayRetentionSeconds ≤ record.unix }

/-- Rewrite the log from the map. -/
def compact (store : DurableReplayStore) (nowUnix : Int) : DurableReplayStore :=
  let pruned := store.pruneMemory nowUnix
  { pruned with log := (logText pruned.seen.entries).toByteArray }

/-- The log has grown past the threshold, or a further line would exceed its limit. -/
def needsCompaction (store : DurableReplayStore) (line : String) : Prop :=
  replayCompactionThresholdBytes ≤ store.log.size ∨
    maxReplayLogBytes < store.log.size + line.utf8ByteSize

instance (store : DurableReplayStore) (line : String) : Decidable (store.needsCompaction line) :=
  inferInstanceAs (Decidable (_ ∨ _))

/-- The store with room for a further line, as far as compaction makes room. -/
def makeRoom (store : DurableReplayStore) (nowUnix : Int) (line : String) : DurableReplayStore :=
  if store.needsCompaction line then store.compact nowUnix else store

/-- Whether a message was seen; a fresh one is recorded. -/
def checkAndRecord (store : DurableReplayStore) (messageId seenAt : String) :
    Except String ReplayDecision × DurableReplayStore :=
  if ¬(Wire.isSha256Ref messageId ∧ validReplayTimestamp seenAt) then
    (.error "replay_record_invalid", store)
  else
    match parseReplayTimestamp seenAt with
    | .error error => (.error error, store)
    | .ok nowUnix =>
      let pruned := store.pruneMemory nowUnix
      if pruned.contains messageId then (.ok .replay, pruned)
      else
        let line := logLine messageId seenAt
        let room := pruned.makeRoom nowUnix line
        if maxReplayLogBytes < room.log.size + line.utf8ByteSize then
          (.error "replay_active_window_too_large", room)
        else
          let written := { room with log := room.log ++ line.toByteArray }
          match formatReplayTimestamp nowUnix with
          | .error error => (.error error, written)
          | .ok text =>
            (.ok .freshRecorded,
              { written with seen := written.seen.insert messageId ⟨text, nowUnix⟩ })

/-! ## What one call does -/

/-- Only well-formed timestamps name a second, which lies in range. -/
theorem parseReplayTimestamp_ok_iff (value : String) (unix : Int) :
    parseReplayTimestamp value = .ok unix ↔
      Wire.isWireTimestamp value = true ∧ Wire.parseFromRfc3339 value = some unix := by
  simp only [parseReplayTimestamp, bind_ok_iff, ensure_ok_iff, okOr_ok_iff, exists_const]

/-- A timestamp is valid exactly when it names a second. -/
theorem validReplayTimestamp_iff (value : String) :
    validReplayTimestamp value = true ↔ ∃ unix, parseReplayTimestamp value = .ok unix := by
  unfold validReplayTimestamp
  cases parseReplayTimestamp value <;> simp [Except.isOk, Except.toBool]

/-- A second that a timestamp names has a text that names it again. -/
theorem format_parsed {value : String} {unix : Int}
    (parsed : parseReplayTimestamp value = .ok unix) :
    ∃ text, formatReplayTimestamp unix = .ok text ∧ parseReplayTimestamp text = .ok unix := by
  obtain ⟨shape, second⟩ := (parseReplayTimestamp_ok_iff ..).mp parsed
  obtain ⟨text, formatted, textShape, textSecond⟩ :=
    Wire.formatTimestamp_inRange (Wire.parseFromRfc3339_inRange shape second)
  exact ⟨text, (okOr_ok_iff ..).mpr formatted,
    (parseReplayTimestamp_ok_iff ..).mpr ⟨textShape, textSecond⟩⟩

/-- The store after an admission. -/
def admitted (store : DurableReplayStore) (messageId seenAt text : String) (nowUnix : Int) :
    DurableReplayStore :=
  let room := (store.pruneMemory nowUnix).makeRoom nowUnix (logLine messageId seenAt)
  { log := room.log ++ (logLine messageId seenAt).toByteArray
    seen := room.seen.insert messageId ⟨text, nowUnix⟩ }

/-- Everything that an admission checked. -/
structure Admits (store : DurableReplayStore) (messageId seenAt text : String) (nowUnix : Int) :
    Prop where
  /-- The identifier is well formed. -/
  reference : Wire.isSha256Ref messageId = true
  /-- The time is well formed. -/
  parsed : parseReplayTimestamp seenAt = .ok nowUnix
  /-- The message is not known. -/
  absent : (store.pruneMemory nowUnix).seen.get? messageId = none
  /-- The line fits. -/
  fits : ((store.pruneMemory nowUnix).makeRoom nowUnix (logLine messageId seenAt)).log.size +
    (logLine messageId seenAt).utf8ByteSize ≤ maxReplayLogBytes
  /-- The time as the map keeps it. -/
  formatted : formatReplayTimestamp nowUnix = .ok text

/-- What a call answers and what it leaves. -/
inductive Outcome (store : DurableReplayStore) (messageId seenAt : String) :
    Except String ReplayDecision → DurableReplayStore → Prop where
  /-- A malformed call changes nothing. -/
  | malformed (invalid : ¬(Wire.isSha256Ref messageId = true ∧
      validReplayTimestamp seenAt = true)) :
      Outcome store messageId seenAt (.error "replay_record_invalid") store
  /-- A known message is a replay. -/
  | replayed {nowUnix : Int} {record : SeenRecord} (reference : Wire.isSha256Ref messageId = true)
      (parsed : parseReplayTimestamp seenAt = .ok nowUnix)
      (known : (store.pruneMemory nowUnix).seen.get? messageId = some record) :
      Outcome store messageId seenAt (.ok .replay) (store.pruneMemory nowUnix)
  /-- A line that does not fit is not written. -/
  | full {nowUnix : Int} (parsed : parseReplayTimestamp seenAt = .ok nowUnix)
      (absent : (store.pruneMemory nowUnix).seen.get? messageId = none) :
      Outcome store messageId seenAt (.error "replay_active_window_too_large")
        ((store.pruneMemory nowUnix).makeRoom nowUnix (logLine messageId seenAt))
  /-- A fresh message is recorded. -/
  | fresh {nowUnix : Int} {text : String} (admits : Admits store messageId seenAt text nowUnix) :
      Outcome store messageId seenAt (.ok .freshRecorded)
        (store.admitted messageId seenAt text nowUnix)

/-- Every call has one of the outcomes. -/
theorem checkAndRecord_outcome (store : DurableReplayStore) (messageId seenAt : String) :
    Outcome store messageId seenAt (store.checkAndRecord messageId seenAt).1
      (store.checkAndRecord messageId seenAt).2 := by
  unfold checkAndRecord
  split
  next invalid => exact .malformed invalid
  next valid =>
    obtain ⟨reference, timestamp⟩ := not_not.mp valid
    obtain ⟨nowUnix, parsed⟩ := (validReplayTimestamp_iff _).mp timestamp
    obtain ⟨text, formatted, -⟩ := format_parsed parsed
    simp only [parsed, formatted]
    split
    next known =>
      obtain ⟨record, found⟩ := Option.isSome_iff_exists.mp known
      exact .replayed reference parsed found
    next unknown =>
      have absent : (store.pruneMemory nowUnix).seen.get? messageId = none := by
        simpa [contains] using unknown
      split
      next large => exact .full parsed absent
      next small => exact .fresh ⟨reference, parsed, absent, not_lt.mp small, formatted⟩

/-- The answer of a call and the store it leaves are an outcome. -/
theorem outcome_of_eq {store final : DurableReplayStore} {messageId seenAt : String}
    {result : Except String ReplayDecision}
    (called : store.checkAndRecord messageId seenAt = (result, final)) :
    Outcome store messageId seenAt result final := by
  have outcome := checkAndRecord_outcome store messageId seenAt
  rwa [called] at outcome

/-- An admission that passes every check is made. -/
theorem checkAndRecord_of_admits {store : DurableReplayStore} {messageId seenAt text : String}
    {nowUnix : Int} (admits : Admits store messageId seenAt text nowUnix) :
    store.checkAndRecord messageId seenAt =
      (.ok .freshRecorded, store.admitted messageId seenAt text nowUnix) := by
  have valid : ¬¬(Wire.isSha256Ref messageId = true ∧ validReplayTimestamp seenAt = true) :=
    not_not.mpr ⟨admits.reference, (validReplayTimestamp_iff _).mpr ⟨nowUnix, admits.parsed⟩⟩
  have unknown : ¬(store.pruneMemory nowUnix).contains messageId = true := by
    simp [contains, admits.absent]
  simp only [checkAndRecord, if_neg valid, admits.parsed, if_neg unknown,
    if_neg (not_lt.mpr admits.fits), admits.formatted, admitted]

/-- What pruning keeps. -/
theorem get?_pruneMemory (store : DurableReplayStore) (nowUnix : Int) (messageId : String)
    (record : SeenRecord) : (store.pruneMemory nowUnix).seen.get? messageId = some record ↔
      store.seen.get? messageId = some record ∧
        nowUnix - replayRetentionSeconds ≤ record.unix := by
  simp only [pruneMemory, OrderedMap.get?_retain, Option.filter_eq_some_iff, decide_eq_true_eq]

/-- Making room keeps what a second pruning at the same time keeps. -/
theorem makeRoom_seen (store : DurableReplayStore) (nowUnix : Int) (line : String) :
    ((store.pruneMemory nowUnix).makeRoom nowUnix line).seen =
      (store.pruneMemory nowUnix).seen := by
  unfold makeRoom
  split
  · ext messageId record
    change ((store.pruneMemory nowUnix).pruneMemory nowUnix).seen.get? messageId = some record ↔ _
    rw [get?_pruneMemory, get?_pruneMemory]
    exact ⟨And.left, fun kept => ⟨kept, kept.2⟩⟩
  · rfl

end DurableReplayStore

end QsolFed
