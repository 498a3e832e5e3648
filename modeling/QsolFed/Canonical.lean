import QsolFed.Library.Checked
import QsolFed.Library.Json.Syntax
import QsolFed.Library.OrderedMap

/-!
# The canonical JSON profile

The value model, the reader and the writer of `qsol-fed-canonical-json/1`. A value is a tree
whose objects are ordered maps; `CanonicalValue` carries that order. The reader drives a visitor
over the JSON text, which normalises every string and refuses whatever exceeds the budgets of
the profile. The writer normalises once more, because a value may also be constructed by hand.
Unicode normalisation belongs to a library outside the repository and enters as a parameter with
its documented laws.
-/
namespace QsolFed

open Checked

/-- Normalisation form C of the Unicode library. -/
structure Unicode where
  /-- The normal form of a text. -/
  nfc : String → String
  /-- Normalising twice is normalising once. -/
  idempotent : ∀ text, nfc (nfc text) = nfc text
  /-- Text of ASCII characters is in normal form. -/
  ascii : ∀ text, (∀ c ∈ text.toList, c.toNat < 0x80) → nfc text = text

/-- Normalisation that changes nothing, which is right for text of ASCII characters. -/
def Unicode.plain : Unicode := ⟨id, fun _ => rfl, fun _ _ => rfl⟩

/-- A refusal of the canonical profile. -/
inductive CanonicalError where
  /-- A code of the profile. -/
  | code (text : String)
  /-- A message of the JSON reader: the code of the visitor that refused, or none for a fault in
  the syntax. The position that the reader appends is left out. -/
  | reader (text : Option String)
  deriving DecidableEq, Repr

namespace Canonical

/-- The least integer of the profile. -/
def safeIntegerMin : Int := -9007199254740991

/-- The greatest integer of the profile. -/
def safeIntegerMax : Int := 9007199254740991

/-- The greatest size of a text in bytes. -/
def maxInputBytes : Nat := 65536

/-- How deep values nest, a scalar counting one. -/
def maxDepth : Nat := 32

/-- The greatest size of a string in UTF-8 bytes. -/
def maxStringUtf8 : Nat := 8192

/-- The greatest number of items in an array. -/
def maxArrayItems : Nat := 1024

/-- The greatest number of members in an object. -/
def maxObjectMembers : Nat := 1024

/-- How many containers the JSON reader enters before it refuses. -/
def recursionLimit : Nat := 127

end Canonical

/-- A tree of canonical values, its members in iteration order. -/
inductive Node where
  | null
  | bool (value : Bool)
  | integer (value : Int)
  | string (value : String)
  | array (items : List Node)
  | object (members : List (String × Node))

namespace Node

mutual

/-- Every object of a tree lists its members in strictly increasing key order. -/
def Ordered : Node → Prop
  | .array items => OrderedItems items
  | .object members => Entries.Sorted members ∧ OrderedMembers members
  | _ => True

/-- Every item is ordered. -/
def OrderedItems : List Node → Prop
  | [] => True
  | item :: rest => item.Ordered ∧ OrderedItems rest

/-- Every member is ordered. -/
def OrderedMembers : List (String × Node) → Prop
  | [] => True
  | (_, value) :: rest => value.Ordered ∧ OrderedMembers rest

end

end Node

/-- A canonical value: a tree whose objects are ordered maps. -/
structure CanonicalValue where
  /-- The tree. -/
  node : Node
  /-- Its objects are ordered. -/
  ordered : node.Ordered

/-- Values with the same tree are equal. -/
@[ext] theorem CanonicalValue.ext {left right : CanonicalValue} (same : left.node = right.node) :
    left = right := by
  cases left
  cases right
  cases same
  rfl

namespace Canonical

variable (unicode : Unicode)

/-! ## Reading -/

/-- The normal form of a string, when it fits. -/
def normalizeString (value : String) : Except CanonicalError String := do
  let normalized := unicode.nfc value
  ensure (normalized.utf8ByteSize ≤ maxStringUtf8) (.reader (some "string_too_large"))
  pure normalized

/-- A signed integer that the JSON reader delivers. -/
def visitI64 (value : Int) : Except CanonicalError Node := do
  ensure (safeIntegerMin ≤ value ∧ value ≤ safeIntegerMax) (.reader (some "integer_out_of_range"))
  pure (.integer value)

/-- An unsigned integer that the JSON reader delivers. -/
def visitU64 (value : Nat) : Except CanonicalError Node := do
  ensure ((value : Int) ≤ safeIntegerMax) (.reader (some "integer_out_of_range"))
  pure (.integer value)

/-- A number that the JSON reader delivers as a float. -/
def visitF64 : Except CanonicalError Node := .error (.reader (some "non_integer_number"))

/-- A number literal, delivered in the first machine type that holds it. Negative zero is only
held by a float. -/
def visitNumber (number : Json.Number) : Except CanonicalError Node :=
  if number.fraction = [] ∧ number.exponent = [] then
    if number.negative then
      if 0 < number.integer ∧ number.integer ≤ 2 ^ 63 then visitI64 (-number.integer)
      else visitF64
    else if number.integer < 2 ^ 64 then visitU64 number.integer
    else visitF64
  else visitF64

mutual

/-- The visitor over a JSON value. -/
def visit : Json.Value String → Except CanonicalError Node
  | .null => pure .null
  | .bool value => pure (.bool value)
  | .number value => visitNumber value
  | .string value => do
    let normalized ← normalizeString unicode value
    pure (.string normalized)
  | .array items => do
    let values ← visitSeq [] items
    pure (.array values)
  | .object members => do
    let result ← visitMap [] [] [] members
    pure (.object result)

/-- The items of a sequence, after the values that were already read. -/
def visitSeq (values : List Node) : List (Json.Value String) → Except CanonicalError (List Node)
  | [] => pure values
  | item :: rest => do
    let value ← visit item
    ensure (values.length < maxArrayItems) (.reader (some "too_many_array_items"))
    visitSeq (values ++ [value]) rest

/-- The members of a map, with the result so far and the keys seen before and after
normalisation. -/
def visitMap (result : List (String × Node)) (rawSeen normalizedSeen : List String) :
    List (String × Json.Value String) → Except CanonicalError (List (String × Node))
  | [] => pure result
  | (rawKey, member) :: rest => do
    ensure (result.length < maxObjectMembers) (.reader (some "too_many_object_members"))
    ensure (rawKey ∉ rawSeen) (.reader (some "duplicate_key"))
    let key ← normalizeString unicode rawKey
    ensure (key ∉ normalizedSeen) (.reader (some "normalized_duplicate_key"))
    let value ← visit member
    visitMap (Entries.insert key value result) (rawKey :: rawSeen) (key :: normalizedSeen) rest

end

mutual

/-- Refuse a tree that nests too deep. -/
def validateDepth (depth : Nat) (node : Node) : Except CanonicalError Unit := do
  ensure (depth ≤ maxDepth) (.code "max_depth_exceeded")
  match node with
  | .array items => validateDepthItems (depth + 1) items
  | .object members => validateDepthMembers (depth + 1) members
  | _ => pure ()

/-- Refuse items that nest too deep. -/
def validateDepthItems (depth : Nat) : List Node → Except CanonicalError Unit
  | [] => pure ()
  | item :: rest => do
    validateDepth depth item
    validateDepthItems depth rest

/-- Refuse members that nest too deep. -/
def validateDepthMembers (depth : Nat) : List (String × Node) → Except CanonicalError Unit
  | [] => pure ()
  | (_, value) :: rest => do
    validateDepth depth value
    validateDepthMembers depth rest

end

/-- The byte order mark. -/
def byteOrderMark : List UInt8 := [0xef, 0xbb, 0xbf]

/-- The tree that a canonical text denotes. -/
def parseNode (raw : ByteArray) : Except CanonicalError Node := do
  ensure (raw.size ≤ maxInputBytes) (.code "input_too_large")
  ensure (¬byteOrderMark <+: raw.data.toList) (.code "utf8_bom_forbidden")
  let text ← okOr (String.fromUTF8? raw) (.code "invalid_utf8")
  let value ← okOr (Json.readDocument Json.decodeText recursionLimit text.toList) (.reader none)
  let node ← visit unicode value
  validateDepth 1 node
  pure node

/-! ## Order -/

/-- A list of members is ordered when each of its values is. -/
theorem orderedMembers_iff (members : List (String × Node)) :
    Node.OrderedMembers members ↔ ∀ member ∈ members, member.2.Ordered := by
  induction members with
  | nil => simp [Node.OrderedMembers]
  | cons member rest ih => simp [Node.OrderedMembers, ih]

/-- A list of items is ordered when each item is. -/
theorem orderedItems_iff (items : List Node) :
    Node.OrderedItems items ↔ ∀ item ∈ items, item.Ordered := by
  induction items with
  | nil => simp [Node.OrderedItems]
  | cons item rest ih => simp [Node.OrderedItems, ih]

/-- Inserting an ordered value keeps a list of members ordered. -/
theorem orderedMembers_insert {key : String} {value : Node} {members : List (String × Node)}
    (ordered : value.Ordered) (others : Node.OrderedMembers members) :
    Node.OrderedMembers (Entries.insert key value members) := by
  rw [orderedMembers_iff] at others ⊢
  intro member inserted
  rcases Entries.mem_of_mem_insert inserted with rfl | old
  · exact ordered
  · exact others member old

/-- A number that the visitor accepts is an integer within the bounds of the profile. -/
theorem visitNumber_ok {number : Json.Number} {node : Node}
    (visited : visitNumber number = .ok node) :
    ∃ value, node = .integer value ∧ safeIntegerMin ≤ value ∧ value ≤ safeIntegerMax := by
  unfold visitNumber visitI64 visitU64 visitF64 at visited
  split_ifs at visited
  · simp only [bind_ok_iff, ensure_ok_iff, pure_ok_iff] at visited
    obtain ⟨-, bounds, rfl⟩ := visited
    exact ⟨_, rfl, bounds⟩
  · simp only [bind_ok_iff, ensure_ok_iff, pure_ok_iff] at visited
    obtain ⟨-, bound, rfl⟩ := visited
    exact ⟨_, rfl, le_trans (by decide) (Int.natCast_nonneg number.integer), bound⟩

mutual

/-- The visitor builds ordered trees. -/
theorem visit_ordered (value : Json.Value String) {node : Node}
    (visited : visit unicode value = .ok node) : node.Ordered := by
  cases value with
  | null | bool =>
    simp only [visit, pure_ok_iff] at visited
    exact visited ▸ trivial
  | number number =>
    obtain ⟨integer, rfl, -⟩ := visitNumber_ok (by simpa only [visit] using visited)
    exact trivial
  | string text =>
    simp only [visit, bind_ok_iff, pure_ok_iff] at visited
    obtain ⟨normalized, -, rfl⟩ := visited
    exact trivial
  | array items =>
    simp only [visit, bind_ok_iff, pure_ok_iff] at visited
    obtain ⟨values, read, rfl⟩ := visited
    exact visitSeq_ordered items [] trivial read
  | object members =>
    simp only [visit, bind_ok_iff, pure_ok_iff] at visited
    obtain ⟨result, read, rfl⟩ := visited
    exact visitMap_ordered members [] [] [] .nil trivial read

/-- The items of a sequence are ordered. -/
theorem visitSeq_ordered (items : List (Json.Value String)) (values : List Node)
    {result : List Node} (ordered : Node.OrderedItems values)
    (visited : visitSeq unicode values items = .ok result) : Node.OrderedItems result := by
  cases items with
  | nil =>
    simp only [visitSeq, pure_ok_iff] at visited
    exact visited ▸ ordered
  | cons item rest =>
    simp only [visitSeq, bind_ok_iff, ensure_ok_iff] at visited
    obtain ⟨value, first, -, -, others⟩ := visited
    refine visitSeq_ordered rest (values ++ [value]) ?_ others
    rw [orderedItems_iff] at ordered ⊢
    intro node member
    rcases List.mem_append.mp member with old | new
    · exact ordered node old
    · exact List.mem_singleton.mp new ▸ visit_ordered item first

/-- The members of a map are ordered, and so are their values. -/
theorem visitMap_ordered (members : List (String × Json.Value String))
    (built : List (String × Node)) (rawSeen normalizedSeen : List String)
    {result : List (String × Node)} (sorted : Entries.Sorted built)
    (ordered : Node.OrderedMembers built)
    (visited : visitMap unicode built rawSeen normalizedSeen members = .ok result) :
    Entries.Sorted result ∧ Node.OrderedMembers result := by
  cases members with
  | nil =>
    simp only [visitMap, pure_ok_iff] at visited
    exact visited ▸ ⟨sorted, ordered⟩
  | cons member rest =>
    obtain ⟨rawKey, member⟩ := member
    simp only [visitMap, bind_ok_iff, ensure_ok_iff] at visited
    obtain ⟨-, -, -, -, key, -, -, -, value, first, others⟩ := visited
    exact visitMap_ordered rest _ _ _ (Entries.sorted_insert key value sorted)
      (orderedMembers_insert (visit_ordered member first) ordered) others

end

/-- A text denotes an ordered tree. -/
theorem parseNode_ordered {raw : ByteArray} {node : Node}
    (parsed : parseNode unicode raw = .ok node) : node.Ordered := by
  simp only [parseNode, bind_ok_iff, pure_ok_iff] at parsed
  obtain ⟨-, -, -, -, -, -, value, -, node, visited, -, -, rfl⟩ := parsed
  exact visit_ordered unicode value visited

/-- The value that a canonical text denotes. -/
def parseCanonicalValue (raw : ByteArray) : Except CanonicalError CanonicalValue :=
  match parsed : parseNode unicode raw with
  | .ok node => .ok ⟨node, parseNode_ordered unicode parsed⟩
  | .error error => .error error

/-- Reading a value is reading its tree. -/
theorem parseCanonicalValue_ok_iff (raw : ByteArray) (value : CanonicalValue) :
    parseCanonicalValue unicode raw = .ok value ↔ parseNode unicode raw = .ok value.node := by
  unfold parseCanonicalValue
  split
  · next node parsed => simp [parsed, CanonicalValue.ext_iff]
  · next error parsed => simp [parsed]

/-! ## Writing -/

mutual

/-- The normal form of a tree that may have been constructed by hand. -/
def normalizeConstructed (depth : Nat) (node : Node) : Except CanonicalError Node := do
  ensure (depth ≤ maxDepth) (.code "max_depth_exceeded")
  match node with
  | .null => pure .null
  | .bool value => pure (.bool value)
  | .integer value =>
    ensure (safeIntegerMin ≤ value ∧ value ≤ safeIntegerMax) (.code "integer_out_of_range")
    pure (.integer value)
  | .string value =>
    let normalized := unicode.nfc value
    ensure (normalized.utf8ByteSize ≤ maxStringUtf8) (.code "string_too_large")
    pure (.string normalized)
  | .array items =>
    ensure (items.length ≤ maxArrayItems) (.code "too_many_array_items")
    let normalized ← normalizeItems (depth + 1) items
    pure (.array normalized)
  | .object members =>
    ensure (members.length ≤ maxObjectMembers) (.code "too_many_object_members")
    let normalized ← normalizeMembers (depth + 1) [] members
    pure (.object normalized)

/-- The normal forms of items. -/
def normalizeItems (depth : Nat) : List Node → Except CanonicalError (List Node)
  | [] => pure []
  | item :: rest => do
    let first ← normalizeConstructed depth item
    let others ← normalizeItems depth rest
    pure (first :: others)

/-- The normal forms of members, after those that were already normalised. -/
def normalizeMembers (depth : Nat) (normalized : List (String × Node)) :
    List (String × Node) → Except CanonicalError (List (String × Node))
  | [] => pure normalized
  | (rawKey, member) :: rest => do
    let key := unicode.nfc rawKey
    ensure (key.utf8ByteSize ≤ maxStringUtf8) (.code "string_too_large")
    ensure (Entries.find key normalized).isNone (.code "normalized_duplicate_key")
    let value ← normalizeConstructed depth member
    normalizeMembers depth (Entries.insert key value normalized) rest

end

/-- A lowercase hexadecimal code, padded with zeros to four digits. -/
def lowerHex4 (code : Nat) : List Char :=
  let digits := Nat.toDigits 16 code
  List.replicate (4 - digits.length) '0' ++ digits

/-- A character inside a string literal. -/
def escapeCharacter (character : Char) : List Char :=
  if character = '"' then ['\\', '"']
  else if character = '\\' then ['\\', '\\']
  else if character = Char.ofNat 8 then ['\\', 'b']
  else if character = Char.ofNat 12 then ['\\', 'f']
  else if character = '\n' then ['\\', 'n']
  else if character = '\r' then ['\\', 'r']
  else if character = '\t' then ['\\', 't']
  else if character.toNat < 0x20 then '\\' :: 'u' :: lowerHex4 character.toNat
  else [character]

/-- A string literal. -/
def escapeString (value : String) : List Char :=
  '"' :: (value.toList.flatMap escapeCharacter ++ ['"'])

/-- The decimal digits of an integer, after its sign. -/
def writeInteger (value : Int) : List Char :=
  if value < 0 then '-' :: Nat.toDigits 10 value.natAbs else Nat.toDigits 10 value.natAbs

mutual

/-- The characters of a tree. -/
def serializeInto : Node → List Char
  | .null => ['n', 'u', 'l', 'l']
  | .bool true => ['t', 'r', 'u', 'e']
  | .bool false => ['f', 'a', 'l', 's', 'e']
  | .integer value => writeInteger value
  | .string value => escapeString value
  | .array items => '[' :: (serializeItems items ++ [']'])
  | .object members => '{' :: (serializeMembers members ++ ['}'])

/-- The characters of items, separated by commas. -/
def serializeItems : List Node → List Char
  | [] => []
  | item :: rest => serializeInto item ++ (if rest.isEmpty then [] else ',' :: serializeItems rest)

/-- The characters of members, separated by commas. -/
def serializeMembers : List (String × Node) → List Char
  | [] => []
  | (key, value) :: rest =>
    escapeString key ++ ':' :: serializeInto value ++
      (if rest.isEmpty then [] else ',' :: serializeMembers rest)

end

/-- The canonical text of a value. -/
def serializeCanonical (value : CanonicalValue) : Except CanonicalError String := do
  let normalized ← normalizeConstructed unicode 1 value.node
  let output := String.ofList (serializeInto normalized)
  ensure (output.utf8ByteSize ≤ maxInputBytes) (.code "output_too_large")
  pure output

/-- The canonical bytes of a text. -/
def canonicalize (raw : ByteArray) : Except CanonicalError ByteArray := do
  let value ← parseCanonicalValue unicode raw
  let text ← serializeCanonical unicode value
  pure text.toByteArray

end Canonical

end QsolFed
