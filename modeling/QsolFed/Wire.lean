import QsolFed.Library.Calendar
import QsolFed.Library.Text

/-!
# Wire grammars

The identifiers and timestamps of the protocol. Every check looks at the UTF-8 bytes of a text.
A wire timestamp names a second of the first ten thousand years; the second is what the rest of
the protocol computes with, and writing a second gives a wire timestamp that names it again.
-/
namespace QsolFed.Wire

open Text (bytes)

/-- The byte of a character of ASCII. -/
def byte (c : Char) : UInt8 := c.val.toUInt8

/-- A decimal digit. -/
def isAsciiDigit (b : UInt8) : Bool := byte '0' ≤ b && b ≤ byte '9'

/-- A lowercase letter. -/
def isAsciiLowercase (b : UInt8) : Bool := byte 'a' ≤ b && b ≤ byte 'z'

/-- A lowercase hexadecimal digit. -/
def isLowerHex (b : UInt8) : Bool := isAsciiDigit b || (byte 'a' ≤ b && b ≤ byte 'f')

/-- A reference to an object by its digest. -/
def isSha256Ref (value : String) : Bool :=
  (bytes value).length = 71 && (bytes "sha256:").isPrefixOf (bytes value) &&
    ((bytes value).drop 7).all isLowerHex

/-- The name of a node. -/
def isNodeId (value : String) : Bool :=
  (bytes "fed:qsol:").isPrefixOf (bytes value) &&
    match (bytes value).drop 9 with
    | [] => false
    | head :: rest =>
      (head :: rest).length ≤ 128 && (isAsciiLowercase head || isAsciiDigit head) &&
        (head :: rest).all fun b =>
          isAsciiLowercase b || isAsciiDigit b || b = byte '.' || b = byte '_' || b = byte '-'

/-- A segment of a capability name; the first one begins with a letter. -/
def validSegment (first : Bool) (segment : List UInt8) : Bool :=
  match segment with
  | [] => false
  | head :: rest =>
    (!first || isAsciiLowercase head) && (isAsciiLowercase head || isAsciiDigit head) &&
      rest.all fun b => isAsciiLowercase b || isAsciiDigit b

/-- The parts before and after the last occurrence of a byte. -/
def rsplitOnce (separator : UInt8) (value : List UInt8) : Option (List UInt8 × List UInt8) :=
  match value.reverse.dropWhile (· ≠ separator) with
  | [] => none
  | _ :: before => some (before.reverse, (value.reverse.takeWhile (· ≠ separator)).reverse)

/-- The name of a capability with its version. -/
def isCapabilityId (value : String) : Bool :=
  match rsplitOnce (byte '/') (bytes value) with
  | none => false
  | some (name, version) =>
    !version.isEmpty && version.head? ≠ some (byte '0') && version.all isAsciiDigit &&
      match name.splitOnP fun b => b = byte '.' || b = byte '-' with
      | [] => false
      | first :: segments => validSegment true first && segments.all (validSegment false)

/-! ## Timestamps -/

/-- The positions of the fixed characters of a timestamp. -/
def fixedPositions : List Nat := [4, 7, 10, 13, 16, 19]

/-- The shape of a timestamp in whole seconds. -/
def isWireTimestamp (value : String) : Bool :=
  let text := bytes value
  text.length = 20 && text[4]? = some (byte '-') && text[7]? = some (byte '-') &&
    text[10]? = some (byte 'T') && text[13]? = some (byte ':') && text[16]? = some (byte ':') &&
    text[19]? = some (byte 'Z') &&
    text.zipIdx.all fun (b, index) => index ∈ fixedPositions || isAsciiDigit b

/-- The number that decimal digits denote. -/
def number (digits : List UInt8) : Nat :=
  digits.foldl (fun value b => value * 10 + (b.toNat - 48)) 0

/-- The fields of a text with the shape of a timestamp. -/
def momentOf (value : String) : Calendar.Moment :=
  let field (start length : Nat) := number (((bytes value).drop start).take length)
  { date := { year := field 0 4, month := field 5 2, day := field 8 2 }
    hour := field 11 2
    minute := field 14 2
    second := field 17 2 }

/-- The second that a text with the shape of a timestamp names, when its fields exist in the
calendar. Second sixty is a leap second, which counts as the second before it. -/
def parseFromRfc3339 (value : String) : Option Int :=
  let moment := momentOf value
  if moment.date.Valid ∧ moment.hour < 24 ∧ moment.minute < 60 ∧ moment.second ≤ 60 then
    some { moment with second := min moment.second 59 }.seconds
  else none

/-- A decimal digit. -/
def digit (value : Nat) : Char := Char.ofNat (48 + value % 10)

/-- Two decimal digits. -/
def twoDigits (value : Nat) : List Char := [digit (value / 10), digit value]

/-- A year: four digits, and a sign before years that four digits cannot write. -/
def formatYear (year : Int) : List Char :=
  if 0 ≤ year ∧ year ≤ 9999 then
    twoDigits (year.toNat / 100) ++ twoDigits year.toNat
  else
    let digits := Nat.toDigits 10 year.natAbs
    (if year < 0 then '-' else '+') :: (List.replicate (4 - digits.length) '0' ++ digits)

/-- The text of a moment. -/
def formatMoment (moment : Calendar.Moment) : List Char :=
  formatYear moment.date.year ++ '-' :: (twoDigits moment.date.month ++ '-' ::
    (twoDigits moment.date.day ++ 'T' :: (twoDigits moment.hour ++ ':' ::
      (twoDigits moment.minute ++ ':' :: (twoDigits moment.second ++ ['Z'])))))

/-- The text of a second, when its year is one that the time library represents. -/
def formatTimestamp (timestamp : Int) : Option String :=
  let moment := Calendar.moment timestamp
  if -262143 ≤ moment.date.year ∧ moment.date.year ≤ 262142 then
    some (String.ofList (formatMoment moment))
  else none

/-- The seconds that wire timestamps name. -/
def InRange (timestamp : Int) : Prop :=
  0 ≤ timestamp / 86400 + Calendar.epoch ∧
    timestamp / 86400 + Calendar.epoch < (25 * Calendar.cycle : Nat)

instance (timestamp : Int) : Decidable (InRange timestamp) := inferInstanceAs (Decidable (_ ∧ _))

/-! ## Seconds and their texts -/

/-- The byte of a digit. -/
theorem toNat_digit (value : Nat) : (byte (digit value)).toNat = 48 + value % 10 := by
  have small : value % 10 < 10 := Nat.mod_lt _ (by decide)
  unfold digit
  generalize value % 10 = rest at small ⊢
  interval_cases rest <;> rfl

/-- A digit is a digit. -/
theorem isAsciiDigit_digit (value : Nat) : isAsciiDigit (byte (digit value)) = true := by
  have small : value % 10 < 10 := Nat.mod_lt _ (by decide)
  unfold digit
  generalize value % 10 = rest at small ⊢
  interval_cases rest <;> rfl

/-- A digit is a character of ASCII. -/
theorem ascii_digit (value : Nat) : Text.Ascii (digit value) := by
  have small : value % 10 < 10 := Nat.mod_lt _ (by decide)
  unfold digit
  generalize value % 10 = rest at small ⊢
  interval_cases rest <;> decide

/-- Two digits denote their number. -/
theorem number_twoDigits (value : Nat) (small : value < 100) :
    number ((twoDigits value).map byte) = value := by
  simp only [number, twoDigits, List.map_cons, List.map_nil, List.foldl_cons, List.foldl_nil,
    toNat_digit]
  omega

/-- Four digits denote their number. -/
theorem number_fourDigits {value : Nat} (small : value < 10000) :
    number ((twoDigits (value / 100) ++ twoDigits value).map byte) = value := by
  simp only [number, twoDigits, List.map_cons, List.map_nil, List.foldl_cons, List.foldl_nil,
    toNat_digit, List.cons_append, List.nil_append]
  omega

/-- The characters of a moment of the first ten thousand years. -/
theorem formatMoment_eq {moment : Calendar.Moment} {year : Nat} (same : moment.date.year = year)
    (small : year < 10000) : formatMoment moment =
      twoDigits (year / 100) ++ twoDigits year ++ '-' :: (twoDigits moment.date.month ++ '-' ::
        (twoDigits moment.date.day ++ 'T' :: (twoDigits moment.hour ++ ':' ::
          (twoDigits moment.minute ++ ':' :: (twoDigits moment.second ++ ['Z']))))) := by
  have range : (0 : Int) ≤ year ∧ (year : Int) ≤ 9999 := by omega
  simp only [formatMoment, formatYear, same, range, and_self, ↓reduceIte, Int.toNat_natCast]

/-- The bytes of a moment of the first ten thousand years. -/
theorem bytes_formatMoment {moment : Calendar.Moment} {year : Nat}
    (same : moment.date.year = year) (small : year < 10000) :
    bytes (String.ofList (formatMoment moment)) =
      [digit (year / 100 / 10), digit (year / 100), digit (year / 10), digit year, '-',
        digit (moment.date.month / 10), digit moment.date.month, '-',
        digit (moment.date.day / 10), digit moment.date.day, 'T',
        digit (moment.hour / 10), digit moment.hour, ':',
        digit (moment.minute / 10), digit moment.minute, ':',
        digit (moment.second / 10), digit moment.second, 'Z'].map byte := by
  rw [formatMoment_eq same small]
  apply Text.bytes_ofList_ascii
  intro c member
  simp only [twoDigits, List.cons_append, List.nil_append, List.mem_cons, List.not_mem_nil,
    or_false] at member
  rcases member with rfl | rfl | rfl | rfl | rfl | rfl | rfl | rfl | rfl | rfl | rfl | rfl | rfl |
    rfl | rfl | rfl | rfl | rfl | rfl | rfl <;> first | decide | exact ascii_digit _

/-- The text of a moment of the first ten thousand years is a wire timestamp. -/
theorem isWireTimestamp_formatMoment {moment : Calendar.Moment} {year : Nat}
    (same : moment.date.year = year) (small : year < 10000) :
    isWireTimestamp (String.ofList (formatMoment moment)) = true := by
  simp only [isWireTimestamp, bytes_formatMoment same small, List.map_cons, List.map_nil]
  simp [isAsciiDigit_digit, List.zipIdx, fixedPositions]

/-- The fields of the text of a moment of the first ten thousand years. -/
theorem momentOf_formatMoment {moment : Calendar.Moment} {year : Nat}
    (same : moment.date.year = year) (small : year < 10000) (month : moment.date.month < 100)
    (day : moment.date.day < 100) (hour : moment.hour < 100) (minute : moment.minute < 100)
    (second : moment.second < 100) :
    momentOf (String.ofList (formatMoment moment)) = moment := by
  have yearField := number_fourDigits small
  have fields := number_twoDigits
  simp only [twoDigits, List.map_cons, List.map_nil, List.cons_append, List.nil_append]
    at yearField fields
  simp only [momentOf, bytes_formatMoment same small, List.map_cons, List.map_nil, List.drop_zero,
    List.drop_succ_cons, List.take_succ_cons, List.take_zero, yearField, fields _ month,
    fields _ day, fields _ hour, fields _ minute, fields _ second, ← same]

/-- The text of a second in range is a wire timestamp that names the second. -/
theorem formatTimestamp_inRange {timestamp : Int} (range : InRange timestamp) :
    ∃ text, formatTimestamp timestamp = some text ∧ isWireTimestamp text = true ∧
      parseFromRfc3339 text = some timestamp := by
  obtain ⟨first, last⟩ := Calendar.civil_year_range range.1 range.2
  have valid := Calendar.civil_valid (timestamp / 86400)
  have time := Calendar.moment_time timestamp
  have seconds := Calendar.seconds_moment timestamp
  generalize momentEq : Calendar.moment timestamp = moment at time seconds
  have dateEq : moment.date = Calendar.civil (timestamp / 86400) := by
    rw [← momentEq]
    rfl
  rw [← dateEq] at first last valid
  obtain ⟨year, same⟩ := Int.eq_ofNat_of_zero_le first
  have small : year < 10000 := by omega
  have days := Calendar.monthLength_le (Calendar.isLeap moment.date.cycleYear)
    (moment.date.month - 1)
  have back := momentOf_formatMoment same small (by have := valid.2.1; omega)
    (by have := valid.2.2.2; omega) (by omega) (by omega) (by omega)
  refine ⟨String.ofList (formatMoment moment), ?_, isWireTimestamp_formatMoment same small, ?_⟩
  · have years : -262143 ≤ moment.date.year ∧ moment.date.year ≤ 262142 := by omega
    simp only [formatTimestamp, momentEq, years, and_self, ↓reduceIte]
  · have fields : moment.date.Valid ∧ moment.hour < 24 ∧ moment.minute < 60 ∧
        moment.second ≤ 60 := ⟨valid, time.1, time.2.1, by omega⟩
    have whole : min moment.second 59 = moment.second := by omega
    simp only [parseFromRfc3339, back, fields, and_self, ↓reduceIte, whole, seconds]

/-- The value of a digit is below ten. -/
theorem isAsciiDigit_value {b : UInt8} (isDigit : isAsciiDigit b = true) : b.toNat - 48 ≤ 9 := by
  simp only [isAsciiDigit, Bool.and_eq_true, decide_eq_true_eq, UInt8.le_iff_toNat_le] at isDigit
  have : (byte '9').toNat = 57 := rfl
  omega

/-- The year of a wire timestamp has four digits. -/
theorem momentOf_year_range {value : String} (shape : isWireTimestamp value = true) :
    0 ≤ (momentOf value).date.year ∧ (momentOf value).date.year ≤ 9999 := by
  simp only [isWireTimestamp, Bool.and_eq_true, decide_eq_true_eq] at shape
  obtain ⟨⟨⟨⟨⟨⟨⟨length, -⟩, -⟩, -⟩, -⟩, -⟩, -⟩, digits⟩ := shape
  simp only [momentOf]
  refine ⟨Int.natCast_nonneg _, ?_⟩
  match text : bytes value, length with
  | b3 :: b2 :: b1 :: b0 :: rest, _ =>
    rw [text] at digits
    simp only [List.zipIdx_cons, List.all_cons, Bool.and_eq_true, Bool.or_eq_true] at digits
    obtain ⟨d3, d2, d1, d0, -⟩ := digits
    have n3 := isAsciiDigit_value (d3.resolve_left (by simp [fixedPositions]))
    have n2 := isAsciiDigit_value (d2.resolve_left (by simp [fixedPositions]))
    have n1 := isAsciiDigit_value (d1.resolve_left (by simp [fixedPositions]))
    have n0 := isAsciiDigit_value (d0.resolve_left (by simp [fixedPositions]))
    simp only [number, List.drop_zero, List.take_succ_cons, List.take_zero, List.foldl_cons,
      List.foldl_nil]
    omega

/-- The second that a wire timestamp names is in range. -/
theorem parseFromRfc3339_inRange {value : String} {timestamp : Int}
    (shape : isWireTimestamp value = true) (parsed : parseFromRfc3339 value = some timestamp) :
    InRange timestamp := by
  obtain ⟨first, last⟩ := momentOf_year_range shape
  simp only [parseFromRfc3339] at parsed
  split at parsed
  · next fields =>
    obtain ⟨valid, hour, minute, -⟩ := fields
    have range := Calendar.epochDay_range valid first last
    simp only [Calendar.Moment.seconds, Option.some.injEq] at parsed
    have whole : min (momentOf value).second 59 ≤ 59 := min_le_right _ _
    unfold InRange
    omega
  · cases parsed

/-- A digit comes first in a wire timestamp. -/
theorem isAsciiDigit_head {value : String} (shape : isWireTimestamp value = true) :
    ∃ head rest, bytes value = head :: rest ∧ isAsciiDigit head = true := by
  simp only [isWireTimestamp, Bool.and_eq_true, decide_eq_true_eq] at shape
  obtain ⟨⟨⟨⟨⟨⟨⟨length, -⟩, -⟩, -⟩, -⟩, -⟩, -⟩, digits⟩ := shape
  match text : bytes value, length with
  | head :: rest, _ =>
    rw [text] at digits
    simp only [List.zipIdx_cons, List.all_cons, Bool.and_eq_true, Bool.or_eq_true] at digits
    exact ⟨head, rest, rfl, digits.1.resolve_left (by simp [fixedPositions])⟩

/-- The year of a text with the shape of a timestamp is written with four digits. -/
theorem year_of_shape {moment : Calendar.Moment}
    (shape : isWireTimestamp (String.ofList (formatMoment moment)) = true) :
    0 ≤ moment.date.year ∧ moment.date.year ≤ 9999 := by
  by_contra outside
  obtain ⟨head, rest, text, digit⟩ := isAsciiDigit_head shape
  have sign : ∃ first tail, (first = '-' ∨ first = '+') ∧ formatMoment moment = first :: tail := by
    simp only [formatMoment, formatYear, if_neg outside, List.cons_append]
    split
    · exact ⟨_, _, .inl rfl, rfl⟩
    · exact ⟨_, _, .inr rfl, rfl⟩
  obtain ⟨first, tail, mark, whole⟩ := sign
  rw [whole] at text
  rw [show String.ofList (first :: tail) = String.ofList [first] ++ String.ofList tail by simp,
    Text.bytes_append] at text
  rcases mark with rfl | rfl
  · obtain ⟨rfl, -⟩ := List.cons.inj text
    exact absurd digit (by decide)
  · obtain ⟨rfl, -⟩ := List.cons.inj text
    exact absurd digit (by decide)

/-- The text of a second names the second when it is a wire timestamp. -/
theorem parseFromRfc3339_formatTimestamp {timestamp : Int} {text : String}
    (formatted : formatTimestamp timestamp = some text) (shape : isWireTimestamp text = true) :
    parseFromRfc3339 text = some timestamp := by
  have written : text = String.ofList (formatMoment (Calendar.moment timestamp)) := by
    simp only [formatTimestamp] at formatted
    split_ifs at formatted
    exact (Option.some.inj formatted).symm
  obtain ⟨first, last⟩ := year_of_shape (written ▸ shape)
  have range : InRange timestamp := by
    have days := Calendar.epochDay_range (Calendar.civil_valid (timestamp / 86400)) first last
    rwa [Calendar.epochDay_civil] at days
  obtain ⟨other, same, -, parsed⟩ := formatTimestamp_inRange range
  rw [formatted] at same
  exact Option.some.inj same ▸ parsed

/-! ## The bytes of the grammars -/

/-- A byte of a printable character other than the space. -/
def Visible (b : UInt8) : Prop := 0x20 < b.toNat ∧ b.toNat < 0x80

instance (b : UInt8) : Decidable (Visible b) := inferInstanceAs (Decidable (_ ∧ _))

/-- A digit is visible. -/
theorem visible_digit {b : UInt8} (digit : isAsciiDigit b = true) : Visible b := by
  simp only [isAsciiDigit, Bool.and_eq_true, decide_eq_true_eq, UInt8.le_iff_toNat_le] at digit
  exact ⟨lt_of_lt_of_le (by decide) digit.1, lt_of_le_of_lt digit.2 (by decide)⟩

/-- A lowercase letter is visible. -/
theorem visible_lowercase {b : UInt8} (letter : isAsciiLowercase b = true) : Visible b := by
  simp only [isAsciiLowercase, Bool.and_eq_true, decide_eq_true_eq, UInt8.le_iff_toNat_le] at letter
  exact ⟨lt_of_lt_of_le (by decide) letter.1, lt_of_le_of_lt letter.2 (by decide)⟩

/-- A hexadecimal digit is visible. -/
theorem visible_lowerHex {b : UInt8} (hex : isLowerHex b = true) : Visible b := by
  simp only [isLowerHex, Bool.or_eq_true, Bool.and_eq_true, decide_eq_true_eq,
    UInt8.le_iff_toNat_le] at hex
  rcases hex with digit | letter
  · exact visible_digit digit
  · exact ⟨lt_of_lt_of_le (by decide) letter.1, lt_of_le_of_lt letter.2 (by decide)⟩

/-- The bytes of a text with a prefix are those of the prefix and those after it. -/
theorem mem_of_prefix {head text : List UInt8} {b : UInt8} (starts : head.isPrefixOf text = true)
    (member : b ∈ text) : b ∈ head ∨ b ∈ text.drop head.length := by
  obtain ⟨tail, rfl⟩ := List.isPrefixOf_iff_prefix.mp starts
  simpa using member

/-- A reference to an object has 71 bytes. -/
theorem sha256Ref_length {value : String} (shape : isSha256Ref value = true) :
    (bytes value).length = 71 := by
  simp only [isSha256Ref, Bool.and_eq_true, decide_eq_true_eq] at shape
  exact shape.1.1

/-- A reference to an object is visible. -/
theorem visible_of_sha256Ref {value : String} (shape : isSha256Ref value = true) :
    ∀ b ∈ bytes value, Visible b := by
  simp only [isSha256Ref, Bool.and_eq_true, List.all_eq_true] at shape
  intro b member
  rcases mem_of_prefix shape.1.2 member with mark | digit
  · exact (List.all_iff_forall_prop.mp (by decide) : ∀ b ∈ bytes "sha256:", Visible b) b mark
  · exact visible_lowerHex (shape.2 b digit)

/-- A wire timestamp has 20 bytes. -/
theorem wireTimestamp_length {value : String} (shape : isWireTimestamp value = true) :
    (bytes value).length = 20 := by
  simp only [isWireTimestamp, Bool.and_eq_true, decide_eq_true_eq] at shape
  exact shape.1.1.1.1.1.1.1

/-- What holds of digits and of the fixed characters holds of the bytes of a wire timestamp. -/
theorem forall_bytes_of_wireTimestamp {property : UInt8 → Prop} {value : String}
    (ofDigit : ∀ b, isAsciiDigit b = true → property b)
    (ofMark : ∀ b ∈ bytes "-T:Z", property b) (shape : isWireTimestamp value = true) :
    ∀ b ∈ bytes value, property b := by
  simp only [isWireTimestamp, Bool.and_eq_true, decide_eq_true_eq, List.all_eq_true] at shape
  obtain ⟨⟨⟨⟨⟨⟨⟨-, p4⟩, p7⟩, p10⟩, p13⟩, p16⟩, p19⟩, digits⟩ := shape
  intro b member
  obtain ⟨index, listed, rfl⟩ := List.mem_iff_getElem.mp member
  have checked := digits ((bytes value)[index], index)
    (List.mk_mem_zipIdx_iff_getElem?.mpr (List.getElem?_eq_getElem listed))
  simp only [Bool.or_eq_true, decide_eq_true_eq] at checked
  rcases checked with fixed | digit
  · have mark : ∀ position c, (bytes value)[position]? = some c → position = index →
        c ∈ bytes "-T:Z" → property (bytes value)[index] := by
      intro position c found same listedMark
      subst same
      rw [List.getElem?_eq_getElem listed] at found
      exact (Option.some.inj found) ▸ ofMark c listedMark
    simp only [fixedPositions, List.mem_cons, List.not_mem_nil, or_false] at fixed
    rcases fixed with same | same | same | same | same | same
    · exact mark 4 _ p4 same.symm (by decide)
    · exact mark 7 _ p7 same.symm (by decide)
    · exact mark 10 _ p10 same.symm (by decide)
    · exact mark 13 _ p13 same.symm (by decide)
    · exact mark 16 _ p16 same.symm (by decide)
    · exact mark 19 _ p19 same.symm (by decide)
  · exact ofDigit _ digit

/-- A wire timestamp is visible. -/
theorem visible_of_wireTimestamp {value : String} (shape : isWireTimestamp value = true) :
    ∀ b ∈ bytes value, Visible b :=
  forall_bytes_of_wireTimestamp (fun _ => visible_digit)
    (List.all_iff_forall_prop.mp (by decide)) shape

/-- A list is put together again from the parts around a separator. -/
theorem rsplitOnce_eq {separator : UInt8} {value before after : List UInt8}
    (split : rsplitOnce separator value = some (before, after)) :
    value = before ++ separator :: after := by
  unfold rsplitOnce at split
  split at split
  · cases split
  next mark rest found =>
    obtain ⟨rfl, rfl⟩ := Prod.mk.inj (Option.some.inj split)
    have whole := List.takeWhile_append_dropWhile (p := fun b => decide (b ≠ separator))
      (l := value.reverse)
    have stops : mark = separator := by
      have first := List.head?_dropWhile_not (fun b => decide (b ≠ separator)) value.reverse
      rw [found] at first
      simpa using first
    rw [found, stops] at whole
    calc value = value.reverse.reverse := by rw [List.reverse_reverse]
      _ = _ := by
        rw [← whole, List.reverse_append, List.reverse_cons, List.append_assoc, whole]
        rfl

/-- The name of a capability is visible. -/
theorem visible_of_capabilityId {value : String} (shape : isCapabilityId value = true) :
    ∀ b ∈ bytes value, Visible b := by
  unfold isCapabilityId at shape
  split at shape
  · cases shape
  next name version split =>
    simp only [Bool.and_eq_true, List.all_eq_true] at shape
    obtain ⟨⟨-, digits⟩, segments⟩ := shape
    have part : ∀ {first segment}, validSegment first segment = true → ∀ b ∈ segment,
        Visible b := by
      intro first segment valid b member
      cases segment with
      | nil => cases member
      | cons head rest =>
        simp only [validSegment, Bool.and_eq_true, Bool.or_eq_true, List.all_eq_true] at valid
        obtain ⟨⟨-, headShape⟩, restShape⟩ := valid
        rcases List.mem_cons.mp member with rfl | later
        · exact headShape.elim visible_lowercase visible_digit
        · exact (restShape b later).elim visible_lowercase visible_digit
    intro b member
    rw [rsplitOnce_eq split] at member
    rcases List.mem_append.mp member with inName | inVersion
    · by_cases mark : b = byte '.' ∨ b = byte '-'
      · rcases mark with rfl | rfl
        · decide
        · decide
      · obtain ⟨segment, listed, inside⟩ := Text.mem_splitOnP
          (fun b => decide (b = byte '.') || decide (b = byte '-')) inName (by simpa using mark)
        split at segments
        · cases segments
        next first others parts =>
          simp only [Bool.and_eq_true, List.all_eq_true] at segments
          rw [parts] at listed
          rcases List.mem_cons.mp listed with rfl | other
          · exact part segments.1 b inside
          · exact part (segments.2 segment other) b inside
    · rcases List.mem_cons.mp inVersion with rfl | digit
      · decide
      · exact visible_digit (digits b digit)

end QsolFed.Wire
