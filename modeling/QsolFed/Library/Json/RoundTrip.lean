import Mathlib.Tactic.IntervalCases
import QsolFed.Library.Json.Syntax

/-!
# Reading back what is written

The compact writer and the reader are inverse on every value whose numbers are integer
literals: `readDocument_print` reads the written text as the value it was written from, at any
nesting limit the value respects. The number case needs a character after the literal that
cannot extend it (`Stops`); every other phrase delimits itself.
-/
namespace Json

/-! ## Strings -/

/-- The unit that a written character is read as. -/
def writtenPiece (c : Char) : Piece :=
  if c = '"' ∨ c = '\\' ∨ c = Char.ofNat 8 ∨ c = Char.ofNat 12 ∨ c = '\n' ∨ c = '\r' ∨ c = '\t' then
    .char c
  else if c.toNat < 0x20 then .escape c.toNat
  else .char c

/-- A control character's two hexadecimal digits name its code. -/
theorem hexCode_control (code : Nat) (small : code < 0x20) :
    hexCode '0' '0' (hexChar (code / 16)) (hexChar (code % 16)) = some code := by
  interval_cases code <;> rfl

/-- The closing quote ends a literal. -/
theorem readPieces_quote (rest : List Char) : readPieces ('"' :: rest) = some ([], rest) := by
  rw [readPieces.eq_def]
  simp

/-- A two-character escape is one unit. -/
theorem readPieces_short {e named : Char} (short : shortEscape e = some named)
    (rest : List Char) : readPieces ('\\' :: e :: rest) =
      (readPieces rest).map fun (more, rest) => (.char named :: more, rest) := by
  have notUnicode : e ≠ 'u' := by
    rintro rfl
    simp [shortEscape] at short
  rw [readPieces.eq_def]
  simp [notUnicode, short]

/-- A `\u` escape is one unit. -/
theorem readPieces_unicode {a b c d : Char} {code : Nat} (digits : hexCode a b c d = some code)
    (rest : List Char) : readPieces ('\\' :: 'u' :: a :: b :: c :: d :: rest) =
      (readPieces rest).map fun (more, rest) => (.escape code :: more, rest) := by
  rw [readPieces.eq_def]
  simp [digits]

/-- A character that needs no escape is one unit. -/
theorem readPieces_plain {c : Char} (quote : c ≠ '"') (slash : c ≠ '\\')
    (visible : ¬c.toNat < 0x20) (rest : List Char) : readPieces (c :: rest) =
      (readPieces rest).map fun (more, rest) => (.char c :: more, rest) := by
  rw [readPieces.eq_def]
  simp only [quote, slash, visible, ↓reduceIte]

/-- A written character is read as one unit. -/
theorem readPieces_escapeChar (c : Char) (rest : List Char) :
    readPieces (escapeChar c ++ rest) =
      (readPieces rest).map fun (more, rest) => (writtenPiece c :: more, rest) := by
  by_cases short : c = '"' ∨ c = '\\' ∨ c = Char.ofNat 8 ∨ c = Char.ofNat 12 ∨ c = '\n' ∨
      c = '\r' ∨ c = '\t'
  · rcases short with rfl | rfl | rfl | rfl | rfl | rfl | rfl <;>
      exact readPieces_short (by decide) rest
  · have piece : writtenPiece c = if c.toNat < 0x20 then .escape c.toNat else .char c := by
      simp only [writtenPiece, short, ↓reduceIte]
    simp only [not_or] at short
    obtain ⟨quote, slash, back, feed, line, carriage, tab⟩ := short
    by_cases control : c.toNat < 0x20
    · simp only [escapeChar, quote, slash, back, feed, line, carriage, tab, control, ↓reduceIte,
        List.cons_append, List.nil_append, piece]
      exact readPieces_unicode (hexCode_control _ control) rest
    · simp only [escapeChar, quote, slash, back, feed, line, carriage, tab, control, ↓reduceIte,
        List.cons_append, List.nil_append, piece]
      exact readPieces_plain quote slash control rest

/-- The body of a written literal is read as its characters' units. -/
theorem readPieces_body (characters rest : List Char) :
    readPieces (characters.flatMap escapeChar ++ '"' :: rest) =
      some (characters.map writtenPiece, rest) := by
  induction characters with
  | nil => simp [readPieces_quote]
  | cons c characters ih =>
    rw [List.flatMap_cons, List.append_assoc, readPieces_escapeChar, ih]
    rfl

/-- The unit of a written character decodes to it. -/
theorem decodePieces_written (c : Char) (more : List Piece) :
    decodePieces (writtenPiece c :: more) = (decodePieces more).map (c :: ·) := by
  unfold writtenPiece
  split
  · rfl
  · split
    · rename_i control
      have low : c.toNat < 0xD800 := by omega
      rw [decodePieces.eq_def]
      simp only [low, true_or, ↓reduceIte, Char.ofNat_toNat]
    · rfl

/-- The units of written characters decode to them. -/
theorem decodePieces_map_written (characters : List Char) :
    decodePieces (characters.map writtenPiece) = some characters := by
  induction characters with
  | nil => rfl
  | cons c characters ih => rw [List.map_cons, decodePieces_written, ih]; rfl

/-- The units of a written string decode to it. -/
theorem decodeText_written (value : String) :
    decodeText (value.toList.map writtenPiece) = some value := by
  simp [decodeText, decodePieces_map_written]

/-! ## Numbers -/

/-- A text that cannot extend a number literal before it. -/
def Stops (rest : List Char) : Prop :=
  ∀ c tail, rest = c :: tail → c.isDigit = false ∧ c ≠ '.' ∧ c ≠ 'e' ∧ c ≠ 'E'

/-- The end of the text extends nothing. -/
theorem stops_nil : Stops [] := by
  intro c tail same
  cases same

/-- A separator or a closing bracket extends no number. -/
theorem stops_cons {c : Char} (rest : List Char) (mark : c = ',' ∨ c = ']' ∨ c = '}') :
    Stops (c :: rest) := by
  intro d tail same
  cases same
  rcases mark with rfl | rfl | rfl <;> decide

/-- Digits are taken up to a text that does not begin with one. -/
theorem takeWhile_digits {digits rest : List Char} (all : ∀ c ∈ digits, c.isDigit = true)
    (stops : Stops rest) : (digits ++ rest).takeWhile Char.isDigit = digits ∧
      (digits ++ rest).dropWhile Char.isDigit = rest := by
  induction digits with
  | nil =>
    cases rest with
    | nil => simp
    | cons c tail => simp [(stops c tail rfl).1]
  | cons c digits ih =>
    have tail := ih fun d member => all d (List.mem_cons_of_mem _ member)
    simp [all c List.mem_cons_self, tail]

/-- A positive number is not written with a leading zero. -/
theorem toDigits_head (number : Nat) (positive : 0 < number) :
    ∃ c tail, Nat.toDigits 10 number = c :: tail ∧ c ≠ '0' := by
  by_cases small : number < 10
  · refine ⟨number.digitChar, [], Nat.toDigits_of_lt_base small, ?_⟩
    interval_cases number <;> decide
  · obtain ⟨c, tail, digits, nonzero⟩ := toDigits_head (number / 10) (by omega)
    refine ⟨c, tail ++ [(number % 10).digitChar], ?_, nonzero⟩
    rw [Nat.toDigits_of_base_le (by decide) (by omega), digits, List.cons_append]
termination_by number

/-- The digits of a number are read back. -/
theorem readInteger_toDigits (number : Nat) {rest : List Char} (stops : Stops rest) :
    readInteger (Nat.toDigits 10 number ++ rest) = some (number, rest) := by
  by_cases zero : number = 0
  · subst zero
    rw [Nat.toDigits_zero]
    simp [readInteger]
  · obtain ⟨c, tail, digits, nonzero⟩ := toDigits_head number (Nat.pos_of_ne_zero zero)
    have all : ∀ d ∈ Nat.toDigits 10 number, d.isDigit = true :=
      fun d member => Nat.isDigit_of_mem_toDigits (by decide) (by decide) member
    have head : c.isDigit = true := all c (by simp [digits])
    have others : ∀ d ∈ tail, d.isDigit = true := fun d member => all d (by simp [digits, member])
    obtain ⟨taken, dropped⟩ := takeWhile_digits others stops
    have value : Nat.ofDigitChars 10 (c :: tail) 0 = number := by
      rw [← digits]
      exact Nat.ofDigitChars_ten_toDigits
    rw [digits, List.cons_append]
    simp only [readInteger, nonzero, head, ↓reduceIte, taken, dropped, value]

/-- An integer literal is read back. -/
theorem readMagnitude_digits (negative : Bool) (number : Nat) {rest : List Char}
    (stops : Stops rest) : readMagnitude negative (Nat.toDigits 10 number ++ rest) =
      some ({ negative, integer := number, fraction := [], exponent := [] }, rest) := by
  have fraction : readFraction rest = some ([], rest) := by
    cases rest with
    | nil => rfl
    | cons c tail => simp [readFraction, (stops c tail rfl).2.1]
  have exponent : readExponent rest = some ([], rest) := by
    cases rest with
    | nil => rfl
    | cons c tail =>
      obtain ⟨-, -, lower, upper⟩ := stops c tail rfl
      simp [readExponent, lower, upper]
  simp only [readMagnitude, readInteger_toDigits number stops, fraction, exponent, bind,
    Option.bind]

/-- The codes of the digits. -/
theorem digit_range {c : Char} (digit : c.isDigit = true) : 48 ≤ c.toNat ∧ c.toNat ≤ 57 := by
  simp only [Char.isDigit, Bool.and_eq_true, decide_eq_true_eq] at digit
  exact ⟨UInt32.le_iff_toNat_le.mp digit.1, UInt32.le_iff_toNat_le.mp digit.2⟩

/-- A digit is none of the characters that begin another phrase. -/
theorem digit_begins {c : Char} (digit : c.isDigit = true) :
    isSpace c = false ∧ c ≠ 'n' ∧ c ≠ 't' ∧ c ≠ 'f' ∧ c ≠ '"' ∧ c ≠ '[' ∧ c ≠ '{' ∧ c ≠ '-' := by
  have range := digit_range digit
  have apart : ∀ d : Char, (d.toNat < 48 ∨ 57 < d.toNat) → c ≠ d := by
    rintro d outside rfl
    omega
  refine ⟨?_, apart _ (by decide), apart _ (by decide), apart _ (by decide), apart _ (by decide),
    apart _ (by decide), apart _ (by decide), apart _ (by decide)⟩
  simp [isSpace, apart ' ' (by decide), apart '\n' (by decide), apart '\t' (by decide),
    apart '\r' (by decide)]

/-- Every literal begins with a sign or a digit. -/
theorem printNumber_head (number : Number) :
    ∃ c tail, printNumber number = c :: tail ∧ (c = '-' ∨ c.isDigit = true) := by
  cases digits : Nat.toDigits 10 number.integer with
  | nil => exact absurd digits Nat.toDigits_ne_nil
  | cons c tail =>
    have head : c.isDigit = true :=
      Nat.isDigit_of_mem_toDigits (by decide) (by decide) (digits ▸ List.mem_cons_self)
    cases sign : number.negative with
    | true => exact ⟨'-', _, by simp [printNumber, sign]; rfl, .inl rfl⟩
    | false => exact ⟨c, _, by simp [printNumber, sign, digits]; rfl, .inr head⟩

/-- An integral literal is read back. -/
theorem readNumber_print (number : Number) (integral : number.Integral) {rest : List Char}
    (stops : Stops rest) : readNumber (printNumber number ++ rest) = some (number, rest) := by
  obtain ⟨negative, integer, fraction, exponent⟩ := number
  obtain ⟨rfl, rfl⟩ : fraction = [] ∧ exponent = [] := integral
  cases negative with
  | true =>
    simp only [printNumber, ↓reduceIte, List.append_nil, List.cons_append, List.nil_append,
      readNumber, readMagnitude_digits true integer stops]
  | false =>
    cases digits : Nat.toDigits 10 integer with
    | nil => exact absurd digits Nat.toDigits_ne_nil
    | cons c tail =>
      have head : c.isDigit = true :=
        Nat.isDigit_of_mem_toDigits (by decide) (by decide) (digits ▸ List.mem_cons_self)
      have whole := readMagnitude_digits false integer stops
      simp only [digits, List.cons_append] at whole
      simp only [printNumber, Bool.false_eq_true, ↓reduceIte, List.append_nil, List.nil_append,
        digits, List.cons_append, readNumber, (digit_begins head).2.2.2.2.2.2.2, whole]

/-! ## Values -/

/-- The first character of a written value, which no space is. -/
theorem print_head (value : Value String) :
    ∃ c tail, print value = c :: tail ∧ isSpace c = false ∧ c ≠ ']' ∧ c ≠ '}' ∧ c.toNat < 0x80 := by
  cases value with
  | null => exact ⟨'n', _, rfl, by decide⟩
  | bool value => cases value with
    | true => exact ⟨'t', _, rfl, by decide⟩
    | false => exact ⟨'f', _, rfl, by decide⟩
  | number value =>
    obtain ⟨c, tail, text, sign | digit⟩ := printNumber_head value
    · exact ⟨c, tail, text, by subst sign; decide⟩
    · have range := digit_range digit
      refine ⟨c, tail, text, (digit_begins digit).1, ?_, ?_, by omega⟩
      · rintro rfl
        revert range
        decide
      · rintro rfl
        revert range
        decide
  | string value => exact ⟨'"', _, rfl, by decide⟩
  | array items => exact ⟨'[', _, rfl, by decide⟩
  | object members => exact ⟨'{', _, rfl, by decide⟩

/-- No whitespace precedes a phrase that begins with another character. -/
theorem skipSpace_cons {c : Char} (visible : isSpace c = false) (rest : List Char) :
    skipSpace (c :: rest) = c :: rest := by
  simp [skipSpace, visible]

/-- A written list has at least as many characters as items. -/
theorem length_printItems (items : List (Value String)) :
    items.length ≤ (printItems items).length := by
  induction items with
  | nil => simp
  | cons item rest ih =>
    obtain ⟨c, tail, text, -⟩ := print_head item
    cases rest with
    | nil => simp [printItems, text]
    | cons next rest =>
      rw [printItems]
      simp only [text, List.length_append, List.length_cons, List.isEmpty_cons,
        Bool.false_eq_true, ↓reduceIte] at ih ⊢
      omega

/-- A written object has at least as many characters as members. -/
theorem length_printMembers (members : List (String × Value String)) :
    members.length ≤ (printMembers members).length := by
  induction members with
  | nil => simp
  | cons member rest ih =>
    obtain ⟨name, value⟩ := member
    cases rest with
    | nil =>
      simp only [printMembers, List.length_append, List.length_cons, List.length_nil]
      omega
    | cons next rest =>
      rw [printMembers]
      simp only [List.length_append, List.length_cons, List.isEmpty_cons,
        Bool.false_eq_true, ↓reduceIte] at ih ⊢
      omega

/-- A literal is read back as text. -/
theorem readPieces_printText (value : String) (rest : List Char) :
    printText value ++ rest = '"' :: (value.toList.flatMap escapeChar ++ '"' :: rest) := by
  simp [printText]

/-- A written member is read back when its value is. -/
theorem readMember_print {reader : Reader (Value String)} (name : String) (value : Value String)
    (rest : List Char) (read : reader (print value ++ rest) = some (value, rest)) :
    readMember decodeText reader (printText name ++ ':' :: print value ++ rest) =
      some ((name, value), rest) := by
  rw [List.append_assoc, readPieces_printText]
  simp only [readMember, skipSpace_cons (show isSpace '"' = false by decide), ↓reduceIte,
    readPieces_body, decodeText_written, bind, Option.bind, List.cons_append,
    skipSpace_cons (show isSpace ':' = false by decide), read]

mutual

/-- A written value is read back. The recursion is on the value; the two list readers below
recurse on the rest of their container. -/
theorem readValue_print (value : Value String) (depth : Nat) (rest : List Char)
    (integral : value.Integral) (nests : value.nesting ≤ depth) (stops : Stops rest) :
    readValue decodeText depth (print value ++ rest) = some (value, rest) := by
  have unfold : readValue decodeText depth = readWith decodeText
      (match depth with
        | 0 => none
        | depth + 1 => some (readValue decodeText depth)) := by
    cases depth <;> rfl
  rw [unfold]
  cases value with
  | null => simp [print, readWith, skipSpace, isSpace, readWord, List.isPrefixOf]
  | bool flag =>
    cases flag <;> simp [print, readWith, skipSpace, isSpace, readWord, List.isPrefixOf]
  | number number =>
    have read := readNumber_print number integral stops
    obtain ⟨c, tail, text, begins⟩ := printNumber_head number
    have apart : isSpace c = false ∧ c ≠ 'n' ∧ c ≠ 't' ∧ c ≠ 'f' ∧ c ≠ '"' ∧ c ≠ '[' ∧ c ≠ '{' := by
      rcases begins with rfl | digit
      · decide
      · obtain ⟨space, n, t, f, quote, bracket, brace, -⟩ := digit_begins digit
        exact ⟨space, n, t, f, quote, bracket, brace⟩
    obtain ⟨space, n, t, f, quote, bracket, brace⟩ := apart
    simp only [text, List.cons_append] at read
    simp only [print, text, List.cons_append, readWith, skipSpace_cons space, n, t, f, quote,
      bracket, brace, ↓reduceIte, read, bind, Option.bind]
  | string text =>
    simp only [print, readPieces_printText, readWith,
      skipSpace_cons (show isSpace '"' = false by decide), Char.reduceEq, ↓reduceIte,
      readPieces_body, decodeText_written, bind, Option.bind]
  | array items =>
    cases depth with
    | zero => simp [Value.nesting] at nests
    | succ depth =>
      have inner : Value.nestingItems items ≤ depth := by
        simp only [Value.nesting] at nests
        omega
      have read : readContainer ']' (readValue decodeText depth)
          (printItems items ++ ']' :: rest) = some (items, rest) := by
        cases items with
        | nil => simp [printItems, readContainer, skipSpace, isSpace]
        | cons item others =>
          obtain ⟨c, tail, text, space, bracket, -⟩ := print_head item
          have list := readList_printItems (item :: others) depth
            (printItems (item :: others) ++ ']' :: rest).length rest (by simp) integral inner
            (by have := length_printItems (item :: others); simp only [List.length_append]; omega)
          simp only [printItems, text, List.cons_append] at list ⊢
          simp only [readContainer, skipSpace_cons space, bracket, ↓reduceIte]
          exact list
      simp only [print, List.cons_append, List.append_assoc, List.nil_append, readWith,
        skipSpace_cons (show isSpace '[' = false by decide), Char.reduceEq, ↓reduceIte,
        bind, Option.bind, read]
  | object members =>
    cases depth with
    | zero => simp [Value.nesting] at nests
    | succ depth =>
      have inner : Value.nestingMembers members ≤ depth := by
        simp only [Value.nesting] at nests
        omega
      have read : readContainer '}' (readMember decodeText (readValue decodeText depth))
          (printMembers members ++ '}' :: rest) = some (members, rest) := by
        cases members with
        | nil => simp [printMembers, readContainer, skipSpace, isSpace]
        | cons member others =>
          obtain ⟨name, value⟩ := member
          have list := readList_printMembers ((name, value) :: others) depth
            (printMembers ((name, value) :: others) ++ '}' :: rest).length rest (by simp)
            integral inner (by
              have := length_printMembers ((name, value) :: others)
              simp only [List.length_append]
              omega)
          simp only [printMembers, printText, List.cons_append] at list ⊢
          simp only [readContainer, skipSpace_cons (show isSpace '"' = false by decide),
            Char.reduceEq, ↓reduceIte]
          exact list
      simp only [print, List.cons_append, List.append_assoc, List.nil_append, readWith,
        skipSpace_cons (show isSpace '{' = false by decide), Char.reduceEq, ↓reduceIte,
        bind, Option.bind, read]

/-- Written items are read back, one for each unit of fuel. -/
theorem readList_printItems (items : List (Value String)) (depth fuel : Nat) (rest : List Char)
    (nonempty : items ≠ []) (integral : Value.IntegralItems items)
    (nests : Value.nestingItems items ≤ depth) (enough : items.length ≤ fuel) :
    readList ']' (readValue decodeText depth) fuel (printItems items ++ ']' :: rest) =
      some (items, rest) := by
  cases items with
  | nil => exact absurd rfl nonempty
  | cons item others =>
    cases fuel with
    | zero => simp at enough
    | succ fuel =>
      simp only [Value.nestingItems] at nests
      cases others with
      | nil =>
        have first := readValue_print item depth (']' :: rest) integral.1 (by omega)
          (stops_cons rest (by simp))
        simp only [printItems, List.isEmpty_nil, ↓reduceIte, List.append_nil, readList, first,
          skipSpace_cons (show isSpace ']' = false by decide), Char.reduceEq]
      | cons next others =>
        have first := readValue_print item depth
          (',' :: (printItems (next :: others) ++ ']' :: rest)) integral.1 (by omega)
          (stops_cons _ (by simp))
        have more := readList_printItems (next :: others) depth fuel rest (by simp) integral.2
          (by omega) (by simpa using enough)
        rw [printItems]
        simp only [List.isEmpty_cons, Bool.false_eq_true, ↓reduceIte, List.append_assoc,
          List.cons_append, readList, first,
          skipSpace_cons (show isSpace ',' = false by decide), more, Option.map_some]

/-- Written members are read back, one for each unit of fuel. -/
theorem readList_printMembers (members : List (String × Value String)) (depth fuel : Nat)
    (rest : List Char) (nonempty : members ≠ []) (integral : Value.IntegralMembers members)
    (nests : Value.nestingMembers members ≤ depth) (enough : members.length ≤ fuel) :
    readList '}' (readMember decodeText (readValue decodeText depth)) fuel
      (printMembers members ++ '}' :: rest) = some (members, rest) := by
  cases members with
  | nil => exact absurd rfl nonempty
  | cons member others =>
    obtain ⟨name, value⟩ := member
    cases fuel with
    | zero => simp at enough
    | succ fuel =>
      simp only [Value.nestingMembers] at nests
      cases others with
      | nil =>
        have first := readMember_print name value ('}' :: rest)
          (readValue_print value depth ('}' :: rest) integral.1 (by omega)
            (stops_cons rest (by simp)))
        simp only [printMembers, List.isEmpty_nil, ↓reduceIte, List.append_nil, readList, first,
          skipSpace_cons (show isSpace '}' = false by decide), Char.reduceEq]
      | cons next others =>
        have first := readMember_print name value
          (',' :: (printMembers (next :: others) ++ '}' :: rest))
          (readValue_print value depth _ integral.1 (by omega) (stops_cons _ (by simp)))
        have more := readList_printMembers (next :: others) depth fuel rest (by simp) integral.2
          (by omega) (by simpa using enough)
        rw [printMembers]
        simp only [List.isEmpty_cons, Bool.false_eq_true, ↓reduceIte, List.append_assoc,
          List.cons_append] at first ⊢
        simp only [readList, first, skipSpace_cons (show isSpace ',' = false by decide),
          ↓reduceIte, more, Option.map_some]

end

/-- The text of a value whose numbers are integers is read as that value, at every nesting limit
the value respects. -/
theorem readDocument_print (value : Value String) (depth : Nat) (integral : value.Integral)
    (nests : value.nesting ≤ depth) :
    readDocument decodeText depth (print value) = some value := by
  have read := readValue_print value depth [] integral nests stops_nil
  rw [List.append_nil] at read
  unfold readDocument
  rw [read]
  rfl

end Json
