import Mathlib.Data.String.Basic

/-!
# JSON texts

The grammar of RFC 8259 as prefix readers over characters, and the compact writer. A reader
takes one phrase from the front of its input and returns the characters after it. String
literals are read in two stages, because implementations differ on `\u` escapes that name half
of a surrogate pair: `readPieces` gives the units as they were written, and a decoding chosen
by the caller turns them into text. `decodePieces` is the strict decoding, which refuses
unpaired halves. Containers nest at most as deep as the caller allows.
-/
namespace Json

/-- One unit of a string literal. -/
inductive Piece where
  /-- A character, written as itself or by a two-character escape. -/
  | char (character : Char)
  /-- A `\u` escape, by its sixteen-bit code. -/
  | escape (code : Nat)
  deriving DecidableEq, Repr

/-- A number literal, by its parts. The fraction and the exponent are empty when absent. -/
structure Number where
  /-- A leading minus sign. -/
  negative : Bool
  /-- The value of the integer digits. -/
  integer : Nat
  /-- The digits after the point. -/
  fraction : List Char
  /-- The exponent after its marker, with its sign. -/
  exponent : List Char
  deriving DecidableEq, Repr

/-- A JSON value as it is written: members in their order, none removed. -/
inductive Value (σ : Type) where
  | null
  | bool (value : Bool)
  | number (value : Number)
  | string (value : σ)
  | array (items : List (Value σ))
  | object (members : List (σ × Value σ))

/-- A reader of one phrase from the front of a text. -/
abbrev Reader (α : Type) := List Char → Option (α × List Char)

/-! ## Tokens -/

/-- Insignificant whitespace. -/
def isSpace (c : Char) : Bool := c = ' ' || c = '\n' || c = '\t' || c = '\r'

/-- The text after leading whitespace. -/
def skipSpace (input : List Char) : List Char := input.dropWhile isSpace

/-- The value of a hexadecimal digit of either case. -/
def hexDigit (c : Char) : Option Nat :=
  if '0' ≤ c ∧ c ≤ '9' then some (c.toNat - 48)
  else if 'a' ≤ c ∧ c ≤ 'f' then some (c.toNat - 87)
  else if 'A' ≤ c ∧ c ≤ 'F' then some (c.toNat - 55)
  else none

/-- The code of four hexadecimal digits. -/
def hexCode (a b c d : Char) : Option Nat := do
  let a ← hexDigit a
  let b ← hexDigit b
  let c ← hexDigit c
  let d ← hexDigit d
  some (((a * 16 + b) * 16 + c) * 16 + d)

/-- The character named by a two-character escape. -/
def shortEscape (c : Char) : Option Char :=
  if c = '"' then some '"'
  else if c = '\\' then some '\\'
  else if c = '/' then some '/'
  else if c = 'b' then some (Char.ofNat 8)
  else if c = 'f' then some (Char.ofNat 12)
  else if c = 'n' then some '\n'
  else if c = 'r' then some '\r'
  else if c = 't' then some '\t'
  else none

/-- A string literal after its opening quote, up to and including its closing quote. -/
def readPieces : Reader (List Piece)
  | [] => none
  | c :: rest =>
    if c = '"' then some ([], rest)
    else if c = '\\' then
      match rest with
      | [] => none
      | e :: rest =>
        if e = 'u' then
          match rest with
          | x3 :: x2 :: x1 :: x0 :: rest =>
            match hexCode x3 x2 x1 x0 with
            | none => none
            | some code => (readPieces rest).map fun (more, rest) => (.escape code :: more, rest)
          | _ => none
        else
          match shortEscape e with
          | none => none
          | some named => (readPieces rest).map fun (more, rest) => (.char named :: more, rest)
    else if c.toNat < 0x20 then none
    else (readPieces rest).map fun (more, rest) => (.char c :: more, rest)

/-- The text of a string literal; a `\u` escape naming half of a surrogate pair must be followed
by the escape of the other half. -/
def decodePieces : List Piece → Option (List Char)
  | [] => some []
  | .char c :: rest => (decodePieces rest).map (c :: ·)
  | .escape code :: rest =>
    if code < 0xD800 ∨ 0xDFFF < code then (decodePieces rest).map (Char.ofNat code :: ·)
    else
      match rest with
      | .escape low :: rest =>
        if code < 0xDC00 ∧ 0xDC00 ≤ low ∧ low ≤ 0xDFFF then
          (decodePieces rest).map
            (Char.ofNat (0x10000 + (code - 0xD800) * 0x400 + (low - 0xDC00)) :: ·)
        else none
      | _ => none

/-- The strict decoding, as a string. -/
def decodeText (pieces : List Piece) : Option String := (decodePieces pieces).map String.ofList

/-- The digits of an integer part: zero, or digits that do not begin with zero. -/
def readInteger : Reader Nat
  | [] => none
  | c :: rest =>
    if c = '0' then some (0, rest)
    else if c.isDigit then
      some (Nat.ofDigitChars 10 (c :: rest.takeWhile Char.isDigit) 0, rest.dropWhile Char.isDigit)
    else none

/-- An optional fraction, without its point. -/
def readFraction : Reader (List Char)
  | [] => some ([], [])
  | c :: rest =>
    if c = '.' then
      match rest.takeWhile Char.isDigit with
      | [] => none
      | digits => some (digits, rest.dropWhile Char.isDigit)
    else some ([], c :: rest)

/-- An optional exponent, without its marker. -/
def readExponent : Reader (List Char)
  | [] => some ([], [])
  | c :: rest =>
    if c = 'e' ∨ c = 'E' then
      let sign := rest.takeWhile fun c => c = '+' || c = '-'
      let digits := (rest.drop sign.length).takeWhile Char.isDigit
      if sign.length ≤ 1 ∧ digits ≠ [] then
        some (sign ++ digits, (rest.drop sign.length).dropWhile Char.isDigit)
      else none
    else some ([], c :: rest)

/-- The literal after its optional sign. -/
def readMagnitude (negative : Bool) (input : List Char) : Option (Number × List Char) := do
  let (integer, rest) ← readInteger input
  let (fraction, rest) ← readFraction rest
  let (exponent, rest) ← readExponent rest
  some ({ negative, integer, fraction, exponent }, rest)

/-- A number literal. -/
def readNumber : Reader Number
  | [] => none
  | c :: rest => if c = '-' then readMagnitude true rest else readMagnitude false (c :: rest)

/-! ## Values -/

variable {σ : Type}

/-- A fixed word, after its first character. -/
def readWord (word : List Char) (value : Value σ) : Reader (Value σ) := fun input =>
  if word.isPrefixOf input then some (value, input.drop word.length) else none

/-- The items of a nonempty container, up to and including its closing bracket. Every item takes
at least one character, so the length of the text bounds their number. -/
def readList {α : Type} (close : Char) (item : Reader α) : Nat → Reader (List α)
  | 0, _ => none
  | fuel + 1, input =>
    match item input with
    | none => none
    | some (first, rest) =>
      match skipSpace rest with
      | [] => none
      | c :: rest =>
        if c = ',' then
          (readList close item fuel rest).map fun (more, rest) => (first :: more, rest)
        else if c = close then some ([first], rest)
        else none

/-- A container after its opening bracket. -/
def readContainer {α : Type} (close : Char) (item : Reader α) : Reader (List α) := fun input =>
  match skipSpace input with
  | [] => none
  | c :: rest =>
    if c = close then some ([], rest)
    else readList close item ((c :: rest).length) (c :: rest)

/-- A member of an object: its name, a colon and its value. -/
def readMember (text : List Piece → Option σ) (value : Reader (Value σ)) :
    Reader (σ × Value σ) := fun input =>
  match skipSpace input with
  | [] => none
  | c :: rest =>
    if c = '"' then do
      let (pieces, rest) ← readPieces rest
      let name ← text pieces
      match skipSpace rest with
      | [] => none
      | c :: rest =>
        if c = ':' then do
          let (value, rest) ← value rest
          some ((name, value), rest)
        else none
    else none

/-- A value whose containers are read by `nested`, or refused when it is absent. -/
def readWith (text : List Piece → Option σ) (nested : Option (Reader (Value σ))) :
    Reader (Value σ) := fun input =>
  match skipSpace input with
  | [] => none
  | c :: rest =>
    if c = 'n' then readWord ['u', 'l', 'l'] .null rest
    else if c = 't' then readWord ['r', 'u', 'e'] (.bool true) rest
    else if c = 'f' then readWord ['a', 'l', 's', 'e'] (.bool false) rest
    else if c = '"' then do
      let (pieces, rest) ← readPieces rest
      let value ← text pieces
      some (.string value, rest)
    else if c = '[' then do
      let nested ← nested
      let (items, rest) ← readContainer ']' nested rest
      some (.array items, rest)
    else if c = '{' then do
      let nested ← nested
      let (members, rest) ← readContainer '}' (readMember text nested) rest
      some (.object members, rest)
    else do
      let (value, rest) ← readNumber (c :: rest)
      some (.number value, rest)

/-- A value whose containers nest at most `depth` deep. -/
def readValue (text : List Piece → Option σ) : Nat → Reader (Value σ)
  | 0 => readWith text none
  | depth + 1 => readWith text (some (readValue text depth))

/-- A whole text: one value, with whitespace around it. -/
def readDocument (text : List Piece → Option σ) (depth : Nat) (input : List Char) :
    Option (Value σ) := do
  let (value, rest) ← readValue text depth input
  if skipSpace rest = [] then some value else none

/-! ## Writing -/

/-- A lowercase hexadecimal digit. -/
def hexChar (digit : Nat) : Char := Nat.digitChar digit

/-- A character inside a literal: a two-character escape where there is one, a `\u` escape for
the other control characters, and the character itself otherwise. -/
def escapeChar (c : Char) : List Char :=
  if c = '"' then ['\\', '"']
  else if c = '\\' then ['\\', '\\']
  else if c = Char.ofNat 8 then ['\\', 'b']
  else if c = Char.ofNat 12 then ['\\', 'f']
  else if c = '\n' then ['\\', 'n']
  else if c = '\r' then ['\\', 'r']
  else if c = '\t' then ['\\', 't']
  else if c.toNat < 0x20 then
    ['\\', 'u', '0', '0', hexChar (c.toNat / 16), hexChar (c.toNat % 16)]
  else [c]

/-- A string literal. -/
def printText (value : String) : List Char := '"' :: (value.toList.flatMap escapeChar ++ ['"'])

/-- A number literal. -/
def printNumber (number : Number) : List Char :=
  (if number.negative then ['-'] else []) ++ Nat.toDigits 10 number.integer ++
    (if number.fraction = [] then [] else '.' :: number.fraction) ++
    (if number.exponent = [] then [] else 'e' :: number.exponent)

mutual

/-- A value without insignificant whitespace, members in their order. -/
def print : Value String → List Char
  | .null => ['n', 'u', 'l', 'l']
  | .bool true => ['t', 'r', 'u', 'e']
  | .bool false => ['f', 'a', 'l', 's', 'e']
  | .number value => printNumber value
  | .string value => printText value
  | .array items => '[' :: (printItems items ++ [']'])
  | .object members => '{' :: (printMembers members ++ ['}'])

/-- Items separated by commas. -/
def printItems : List (Value String) → List Char
  | [] => []
  | item :: rest => print item ++ (if rest.isEmpty then [] else ',' :: printItems rest)

/-- Members separated by commas. -/
def printMembers : List (String × Value String) → List Char
  | [] => []
  | (name, value) :: rest =>
    printText name ++ ':' :: print value ++
      (if rest.isEmpty then [] else ',' :: printMembers rest)

end

mutual

/-- How deep the containers of a value nest. -/
def Value.nesting : Value σ → Nat
  | .array items => nestingItems items + 1
  | .object members => nestingMembers members + 1
  | _ => 0

/-- The greatest nesting among items. -/
def Value.nestingItems : List (Value σ) → Nat
  | [] => 0
  | item :: rest => max item.nesting (nestingItems rest)

/-- The greatest nesting among members. -/
def Value.nestingMembers : List (σ × Value σ) → Nat
  | [] => 0
  | (_, value) :: rest => max value.nesting (nestingMembers rest)

end

/-- A number written without fraction and exponent. -/
def Number.Integral (number : Number) : Prop := number.fraction = [] ∧ number.exponent = []

mutual

/-- Every number of a value is written without fraction and exponent. -/
def Value.Integral : Value σ → Prop
  | .number value => value.Integral
  | .array items => IntegralItems items
  | .object members => IntegralMembers members
  | _ => True

/-- Every number of every item is written without fraction and exponent. -/
def Value.IntegralItems : List (Value σ) → Prop
  | [] => True
  | item :: rest => item.Integral ∧ IntegralItems rest

/-- Every number of every member is written without fraction and exponent. -/
def Value.IntegralMembers : List (σ × Value σ) → Prop
  | [] => True
  | (_, value) :: rest => value.Integral ∧ IntegralMembers rest

end

/-- The literal of an integer. -/
def Number.ofInt (value : Int) : Number :=
  { negative := decide (value < 0), integer := value.natAbs, fraction := [], exponent := [] }

end Json
