import QsolFed.Canonical.Settled

/-!
# Plain values

The data that the protocol encodes consists of ASCII texts and small integers in records with
distinct field names. Canonicalising such a value only sorts the members of its objects, so it
succeeds exactly when the text fits the size limit, and the canonical text is read back as a
reordering of the value.
-/
namespace QsolFed.Canonical

open Checked Json

variable {unicode : Unicode}

/-- An ASCII text that fits. -/
def PlainText (text : String) : Prop :=
  (∀ c ∈ text.toList, Text.Ascii c) ∧ text.utf8ByteSize ≤ maxStringUtf8

mutual

/-- A value of plain texts and small integers that respects the budgets of the profile other than
its depth and size. -/
def Plain : Value String → Prop
  | .null => True
  | .bool _ => True
  | .number number =>
    ∃ value, number = Number.ofInt value ∧ safeIntegerMin ≤ value ∧ value ≤ safeIntegerMax
  | .string text => PlainText text
  | .array items => items.length ≤ maxArrayItems ∧ PlainItems items
  | .object members =>
    members.length ≤ maxObjectMembers ∧ (members.map Prod.fst).Nodup ∧ PlainMembers members

/-- Every item is plain. -/
def PlainItems : List (Value String) → Prop
  | [] => True
  | item :: rest => Plain item ∧ PlainItems rest

/-- Every name and every value is plain. -/
def PlainMembers : List (String × Value String) → Prop
  | [] => True
  | (name, value) :: rest => PlainText name ∧ Plain value ∧ PlainMembers rest

end

/-- A list of items is plain when each item is. -/
theorem plainItems_iff (items : List (Value String)) :
    PlainItems items ↔ ∀ item ∈ items, Plain item := by
  induction items with
  | nil => simp [PlainItems]
  | cons item rest ih => simp [PlainItems, ih]

/-- A plain text is its own normal form. -/
theorem PlainText.nfc {text : String} (plain : PlainText text) (unicode : Unicode) :
    unicode.nfc text = text := unicode.ascii text plain.1

/-- A plain text is in normal form and fits. -/
theorem PlainText.clean {text : String} (plain : PlainText text) (unicode : Unicode) :
    Node.Clean unicode text := ⟨plain.nfc unicode, plain.2⟩

mutual

/-- A plain value is settled. -/
theorem Plain.settled (value : Value String) (plain : Plain value) : Settled unicode value := by
  cases value with
  | null | bool => trivial
  | number number => exact plain
  | string text => exact plain.clean unicode
  | array items => exact ⟨plain.1, PlainItems.settled items plain.2⟩
  | object members => exact ⟨plain.1, plain.2.1, PlainMembers.settled members plain.2.2⟩
termination_by structural value

/-- Plain items are settled. -/
theorem PlainItems.settled (items : List (Value String)) (plain : PlainItems items) :
    SettledItems unicode items := by
  cases items with
  | nil => trivial
  | cons item rest => exact ⟨plain.1.settled, PlainItems.settled rest plain.2⟩
termination_by structural items

/-- Plain members are settled. -/
theorem PlainMembers.settled (members : List (String × Value String))
    (plain : PlainMembers members) : SettledMembers unicode members := by
  cases members with
  | nil => trivial
  | cons member rest =>
    obtain ⟨name, value⟩ := member
    exact ⟨plain.1.clean unicode, plain.2.1.settled, PlainMembers.settled rest plain.2.2⟩
termination_by structural members

end

/-- The visitor reads a plain value as a tree that is a reordering of it. -/
theorem visit_plain (value : Value String) (plain : Plain value) :
    ∃ node, visit unicode value = .ok node ∧ Reorders value node.toJson :=
  visit_settled value plain.settled

/-- A plain value has no fractions. -/
theorem Plain.integral {value : Value String} (plain : Plain value) : value.Integral :=
  Settled.integral value (show Settled Unicode.plain value from plain.settled)

/-! ## Encoding plain values -/

/-- A plain value that is not nested too deep and fits the size limit has canonical bytes: those
of a tree that is a reordering of it, and the tree is read from them. -/
theorem canonicalize_plain (unicode : Unicode) {value : Value String} (plain : Plain value)
    (shallow : value.nesting < maxDepth) (short : (writtenBytes value).size ≤ maxInputBytes) :
    ∃ node : Node, visit unicode value = .ok node ∧
      canonicalize unicode (writtenBytes value) = .ok (writtenBytes node.toJson) ∧
      Reorders value node.toJson ∧ node.toJson.nesting ≤ recursionLimit ∧ node.Normal unicode ∧
      node.height ≤ maxDepth ∧ parseNode unicode (writtenBytes node.toJson) = .ok node :=
  canonicalize_visited rfl plain.settled plain.integral (shallow.le.trans (by decide)) short
    shallow short

/-- Canonicalisation refuses what exceeds the size limit. -/
theorem canonicalize_short {raw output : ByteArray} (accepted : canonicalize unicode raw = .ok output) :
    raw.size ≤ maxInputBytes := by
  simp only [canonicalize, bind_ok_iff, parseCanonicalValue_ok_iff, parseNode, ensure_ok_iff]
    at accepted
  obtain ⟨value, ⟨-, short, -⟩, -⟩ := accepted
  exact short

/-- The visitor accepts a value whose written form is canonicalised. -/
theorem canonicalize_visits {value : Value String} {output : ByteArray} (integral : value.Integral)
    (shallow : value.nesting ≤ recursionLimit)
    (accepted : canonicalize unicode (writtenBytes value) = .ok output) :
    ∃ node, visit unicode value = .ok node := by
  simp only [canonicalize, bind_ok_iff, parseCanonicalValue_ok_iff, parseNode, okOr_ok_iff,
    writtenBytes, Text.fromUTF8_toByteArray, Option.some.injEq] at accepted
  obtain ⟨_, ⟨-, -, -, -, text, rfl, read, parsed, node, visited, -⟩, -⟩ := accepted
  rw [String.toList_ofList, readDocument_print value recursionLimit integral shallow] at parsed
  exact ⟨node, (Option.some.inj parsed) ▸ visited⟩

/-- The visitor accepts every value of a map that it accepts. -/
theorem visitMap_visits {members : List (String × Value String)} {built result : List (String × Node)}
    {rawSeen normalizedSeen : List String}
    (visited : visitMap unicode built rawSeen normalizedSeen members = .ok result)
    {name : String} {item : Value String} (member : (name, item) ∈ members) :
    ∃ node, visit unicode item = .ok node := by
  induction members generalizing built rawSeen normalizedSeen with
  | nil => cases member
  | cons head rest ih =>
    obtain ⟨rawKey, first⟩ := head
    simp only [visitMap, bind_ok_iff] at visited
    obtain ⟨-, -, -, -, key, -, -, -, node, accepted, others⟩ := visited
    rcases List.mem_cons.mp member with same | later
    · cases same
      exact ⟨node, accepted⟩
    · exact ih others later

/-- A map that the visitor accepts has each of its normalised names with the value that the visitor
makes of it. -/
theorem visitMap_find {members : List (String × Value String)} {built result : List (String × Node)}
    {rawSeen normalizedSeen : List String}
    (seen : ∀ key ∈ built.map Prod.fst, key ∈ normalizedSeen)
    (visited : visitMap unicode built rawSeen normalizedSeen members = .ok result) :
    (∀ name node, Entries.find name built = some node → Entries.find name result = some node) ∧
      ∀ name item, (name, item) ∈ members → ∃ node, visit unicode item = .ok node ∧
        Entries.find (unicode.nfc name) result = some node := by
  induction members generalizing built rawSeen normalizedSeen with
  | nil =>
    simp only [visitMap, pure_ok_iff] at visited
    subst visited
    exact ⟨fun _ _ found => found, fun _ _ member => by cases member⟩
  | cons head rest ih =>
    obtain ⟨rawKey, first⟩ := head
    simp only [visitMap, bind_ok_iff, ensure_ok_iff, exists_const] at visited
    obtain ⟨-, -, key, normal, unseen, node, accepted, others⟩ := visited
    simp only [normalizeString, bind_ok_iff, ensure_ok_iff, pure_ok_iff] at normal
    obtain ⟨-, -, rfl⟩ := normal
    obtain ⟨older, later⟩ := ih (by
      intro other member
      rcases (Entries.mem_keys_insert ..).mp member with rfl | old
      · exact List.mem_cons_self
      · exact List.mem_cons_of_mem _ (seen other old)) others
    have absent : Entries.find (unicode.nfc rawKey) built = none :=
      (Entries.find_eq_none _ _).mpr fun member => unseen (seen _ member)
    constructor
    · intro name other found
      refine older name other ?_
      rw [Entries.find_insert]
      split_ifs with here
      · rw [here, absent] at found
        cases found
      · exact found
    · intro name item member
      rcases List.mem_cons.mp member with same | more
      · cases same
        refine ⟨node, accepted, older _ _ ?_⟩
        rw [Entries.find_insert, if_pos rfl]
      · exact later name item more

/-- A sequence that the visitor accepts has what the visitor makes of each item. -/
theorem visitSeq_each {items : List (Value String)} {values result : List Node}
    (visited : visitSeq unicode values items = .ok result) :
    ∃ nodes, result = values ++ nodes ∧
      List.Forall₂ (fun item node => visit unicode item = .ok node) items nodes := by
  induction items generalizing values with
  | nil =>
    simp only [visitSeq, pure_ok_iff] at visited
    exact ⟨[], by simp [visited], .nil⟩
  | cons item rest ih =>
    simp only [visitSeq, bind_ok_iff, ensure_ok_iff, exists_const] at visited
    obtain ⟨node, first, -, others⟩ := visited
    obtain ⟨nodes, rfl, each⟩ := ih others
    exact ⟨node :: nodes, by simp, .cons first each⟩

/-- Canonical bytes are read back as what the visitor makes of the value. -/
theorem canonicalize_node {value : Value String} {output : ByteArray} (integral : value.Integral)
    (shallow : value.nesting ≤ recursionLimit)
    (accepted : canonicalize unicode (writtenBytes value) = .ok output) :
    ∃ node, visit unicode value = .ok node ∧ parseNode unicode output = .ok node := by
  simp only [canonicalize, bind_ok_iff, pure_ok_iff] at accepted
  obtain ⟨⟨node, ordered⟩, parsed, text, written, rfl⟩ := accepted
  obtain ⟨normal, fits⟩ : node.Normal unicode ∧ node.height ≤ maxDepth :=
    parseCanonicalValue_normal parsed
  have short := (serializeCanonical_ok written).2.2.2
  simp only [serializeCanonical, Node.normalizeConstructed_normal node 1 normal
    (show 1 + node.height ≤ maxDepth + 1 by omega), bind_ok, bind_ok_iff, pure_ok_iff] at written
  obtain ⟨-, -, rfl⟩ := written
  refine ⟨node, ?_, parseNode_serializeInto normal fits short⟩
  simp only [parseCanonicalValue_ok_iff, parseNode, bind_ok_iff, pure_ok_iff, okOr_ok_iff,
    writtenBytes, Text.fromUTF8_toByteArray, Option.some.injEq] at parsed
  obtain ⟨-, -, -, -, text, rfl, read, found, other, visited, -, -, rfl⟩ := parsed
  rw [String.toList_ofList, readDocument_print value recursionLimit integral shallow] at found
  exact (Option.some.inj found) ▸ visited

/-- A natural number that the visitor accepts is small. -/
theorem visit_natCast_small {value : Nat} {node : Node}
    (visited : visit unicode (.number (Number.ofInt value)) = .ok node) :
    (value : Int) ≤ safeIntegerMax := by
  have positive : ¬((value : Int) < 0) := by omega
  simp only [visit, visitNumber, Number.ofInt, and_self, ↓reduceIte, positive, decide_false,
    Bool.false_eq_true, Int.natAbs_natCast] at visited
  split at visited
  · simp only [visitU64, bind_ok_iff, ensure_ok_iff] at visited
    exact visited.choose_spec.1
  · cases visited

/-- A plain value has canonical bytes exactly when it fits the size limit. -/
theorem canonicalize_plain_iff (unicode : Unicode) {value : Value String} (plain : Plain value)
    (shallow : value.nesting < maxDepth) :
    (∃ output, canonicalize unicode (writtenBytes value) = .ok output) ↔
      (writtenBytes value).size ≤ maxInputBytes := by
  constructor
  · rintro ⟨output, accepted⟩
    exact canonicalize_short accepted
  · intro short
    obtain ⟨node, -, accepted, -⟩ := canonicalize_plain unicode plain shallow short
    exact ⟨_, accepted⟩

/-! ## Lists of texts -/

/-- Texts do not nest. -/
theorem nestingItems_texts (texts : List String) :
    Value.nestingItems (texts.map (Value.string (σ := String))) = 0 := by
  induction texts with
  | nil => rfl
  | cons text rest ih => simp [Value.nestingItems, Value.nesting, ih]

/-- Texts have no fractions. -/
theorem integralItems_texts (texts : List String) :
    Value.IntegralItems (texts.map (Value.string (σ := String))) := by
  induction texts with
  | nil => trivial
  | cons text rest ih => exact ⟨trivial, ih⟩

/-- Plain texts are plain items. -/
theorem plainItems_texts {texts : List String} (plain : ∀ text ∈ texts, PlainText text) :
    PlainItems (texts.map (Value.string (σ := String))) := by
  rw [plainItems_iff]
  intro item member
  obtain ⟨text, listed, rfl⟩ := List.mem_map.mp member
  exact plain text listed

/-! ## Checking plainness -/

/-- A text is plain, by its bytes. -/
def isPlainText (text : String) : Bool :=
  (Text.bytes text).all (fun b => b.toNat < 0x80) && text.utf8ByteSize ≤ maxStringUtf8

/-- The integer that a literal without fraction and exponent denotes. -/
def integerOf (number : Number) : Int :=
  if number.negative then -number.integer else number.integer

mutual

/-- A value is plain. -/
def isPlain : Value String → Bool
  | .null => true
  | .bool _ => true
  | .number number =>
    number = Number.ofInt (integerOf number) && safeIntegerMin ≤ integerOf number &&
      integerOf number ≤ safeIntegerMax
  | .string text => isPlainText text
  | .array items => items.length ≤ maxArrayItems && arePlainItems items
  | .object members =>
    members.length ≤ maxObjectMembers && (members.map Prod.fst).Nodup && arePlainMembers members

/-- Every item is plain. -/
def arePlainItems : List (Value String) → Bool
  | [] => true
  | item :: rest => isPlain item && arePlainItems rest

/-- Every name and every value is plain. -/
def arePlainMembers : List (String × Value String) → Bool
  | [] => true
  | (name, value) :: rest => isPlainText name && isPlain value && arePlainMembers rest

end

/-- The check of a text by its bytes is sound. -/
theorem plainText_of_check {text : String} (checked : isPlainText text = true) :
    PlainText text := by
  simp only [isPlainText, Bool.and_eq_true, List.all_eq_true, decide_eq_true_eq] at checked
  exact ⟨Text.ascii_of_bytes checked.1, checked.2⟩

mutual

/-- The check of a value is sound. -/
theorem plain_of_check (value : Value String) (checked : isPlain value = true) : Plain value := by
  cases value with
  | null | bool => trivial
  | number number =>
    simp only [isPlain, Bool.and_eq_true, decide_eq_true_eq] at checked
    exact ⟨integerOf number, checked.1.1, checked.1.2, checked.2⟩
  | string text => exact plainText_of_check checked
  | array items =>
    simp only [isPlain, Bool.and_eq_true, decide_eq_true_eq] at checked
    exact ⟨checked.1, plainItems_of_check items checked.2⟩
  | object members =>
    simp only [isPlain, Bool.and_eq_true, decide_eq_true_eq] at checked
    exact ⟨checked.1.1, checked.1.2, plainMembers_of_check members checked.2⟩

/-- The check of items is sound. -/
theorem plainItems_of_check (items : List (Value String)) (checked : arePlainItems items = true) :
    PlainItems items := by
  cases items with
  | nil => trivial
  | cons item rest =>
    simp only [arePlainItems, Bool.and_eq_true] at checked
    exact ⟨plain_of_check item checked.1, plainItems_of_check rest checked.2⟩

/-- The check of members is sound. -/
theorem plainMembers_of_check (members : List (String × Value String))
    (checked : arePlainMembers members = true) : PlainMembers members := by
  cases members with
  | nil => trivial
  | cons member rest =>
    obtain ⟨name, value⟩ := member
    simp only [arePlainMembers, Bool.and_eq_true] at checked
    exact ⟨plainText_of_check checked.1.1, plain_of_check value checked.1.2,
      plainMembers_of_check rest checked.2⟩

end

/-! ## Bounding sizes -/

/-- A character takes at most six bytes in a literal of a text, for each of its own. -/
theorem weigh_escapeChar (c : Char) :
    weigh Char.utf8Size (escapeChar c) ≤ 6 * c.utf8Size := by
  have positive : 6 ≤ 6 * c.utf8Size := by
    have := c.utf8Size_pos
    omega
  have hex : ∀ digit, digit < 16 → (hexChar digit).utf8Size = 1 := by decide
  unfold escapeChar
  split_ifs with _ _ _ _ _ _ _ control
  iterate 7 exact le_trans (by decide) positive
  · simp only [weigh_cons, weigh_nil, hex (c.toNat / 16) (by omega), hex (c.toNat % 16) (by omega)]
    exact le_trans (by decide) positive
  · simp only [weigh_cons, weigh_nil]
    omega

/-- A literal takes at most six bytes for each byte of its text, and two quotes. -/
theorem weigh_printText (text : String) :
    weigh Char.utf8Size (printText text) ≤ 6 * text.utf8ByteSize + 2 := by
  have characters : ∀ list : List Char,
      weigh Char.utf8Size (list.flatMap escapeChar) ≤ 6 * weigh Char.utf8Size list := by
    intro list
    induction list with
    | nil => simp
    | cons c rest ih =>
      have := weigh_escapeChar c
      simp only [List.flatMap_cons, weigh_append, weigh_cons]
      omega
  have size := utf8ByteSize_ofList text.toList
  rw [String.ofList_toList] at size
  have := characters text.toList
  have quote : Char.utf8Size '"' = 1 := rfl
  simp only [printText, weigh_cons, weigh_append, weigh_nil, quote]
  omega

mutual

/-- A bound on the size of a written value, from the sizes of its texts. -/
def sizeBound : Value String → Nat
  | .null => 4
  | .bool _ => 5
  | .number number => weigh Char.utf8Size (printNumber number)
  | .string text => 6 * text.utf8ByteSize + 2
  | .array items => sizeBoundItems items + 2
  | .object members => sizeBoundMembers members + 2

/-- A bound on the size of written items. -/
def sizeBoundItems : List (Value String) → Nat
  | [] => 0
  | item :: rest => sizeBound item + 1 + sizeBoundItems rest

/-- A bound on the size of written members. -/
def sizeBoundMembers : List (String × Value String) → Nat
  | [] => 0
  | (name, value) :: rest =>
    6 * name.utf8ByteSize + 2 + 1 + sizeBound value + 1 + sizeBoundMembers rest

end

mutual

/-- The bound holds for values. -/
theorem weigh_print_le (value : Value String) :
    weigh Char.utf8Size (print value) ≤ sizeBound value := by
  cases value with
  | null => decide
  | bool flag => cases flag <;> decide
  | number number => exact le_refl _
  | string text => exact weigh_printText text
  | array items =>
    have := weigh_printItems_le items
    have brackets : Char.utf8Size '[' = 1 ∧ Char.utf8Size ']' = 1 := ⟨rfl, rfl⟩
    simp only [print, weigh_cons, weigh_append, weigh_nil, sizeBound, brackets]
    omega
  | object members =>
    have := weigh_printMembers_le members
    have braces : Char.utf8Size '\x7b' = 1 ∧ Char.utf8Size '\x7d' = 1 := ⟨rfl, rfl⟩
    simp only [print, weigh_cons, weigh_append, weigh_nil, sizeBound, braces]
    omega

/-- The bound holds for items. -/
theorem weigh_printItems_le (items : List (Value String)) :
    weigh Char.utf8Size (printItems items) ≤ sizeBoundItems items := by
  cases items with
  | nil => exact le_refl _
  | cons item rest =>
    have first := weigh_print_le item
    have others := weigh_printItems_le rest
    have comma : Char.utf8Size ',' = 1 := rfl
    simp only [printItems, weigh_append, sizeBoundItems]
    split
    · simp only [weigh_nil]
      omega
    · simp only [weigh_cons, comma]
      omega

/-- The bound holds for members. -/
theorem weigh_printMembers_le (members : List (String × Value String)) :
    weigh Char.utf8Size (printMembers members) ≤ sizeBoundMembers members := by
  cases members with
  | nil => exact le_refl _
  | cons member rest =>
    obtain ⟨name, value⟩ := member
    have text := weigh_printText name
    have first := weigh_print_le value
    have others := weigh_printMembers_le rest
    have marks : Char.utf8Size ',' = 1 ∧ Char.utf8Size ':' = 1 := ⟨rfl, rfl⟩
    simp only [printMembers, weigh_append, weigh_cons, sizeBoundMembers, marks]
    split
    · simp only [weigh_nil]
      omega
    · simp only [weigh_cons, marks]
      omega

end

/-- The size of a written value is within its bound. -/
theorem size_writtenBytes_le (value : Value String) :
    (writtenBytes value).size ≤ sizeBound value := by
  change (String.ofList (print value)).utf8ByteSize ≤ _
  rw [utf8ByteSize_ofList]
  exact weigh_print_le value

/-- Texts of a size take at most six bytes for each of theirs, their quotes and a comma. -/
theorem sizeBoundItems_texts {texts : List String} {size : Nat}
    (each : ∀ text ∈ texts, text.utf8ByteSize ≤ size) :
    sizeBoundItems (texts.map (Value.string (σ := String))) ≤ texts.length * (6 * size + 3) := by
  induction texts with
  | nil => exact Nat.zero_le _
  | cons text rest ih =>
    have first := each text List.mem_cons_self
    have others := ih fun other member => each other (List.mem_cons_of_mem _ member)
    have total : (rest.length + 1) * (6 * size + 3) = rest.length * (6 * size + 3) +
        (6 * size + 3) := Nat.succ_mul _ _
    simp only [List.map_cons, sizeBoundItems, sizeBound, List.length_cons]
    omega

/-! ## Narrow values -/

mutual

/-- A value of ASCII texts and integers of any size. -/
def Narrow : Value String → Prop
  | .null => True
  | .bool _ => True
  | .number number => ∃ value, number = Number.ofInt value
  | .string text => ∀ c ∈ text.toList, Text.Ascii c
  | .array items => NarrowItems items
  | .object members => NarrowMembers members

/-- Every item is narrow. -/
def NarrowItems : List (Value String) → Prop
  | [] => True
  | item :: rest => Narrow item ∧ NarrowItems rest

/-- Every name and every value is narrow. -/
def NarrowMembers : List (String × Value String) → Prop
  | [] => True
  | (name, value) :: rest => (∀ c ∈ name.toList, Text.Ascii c) ∧ Narrow value ∧ NarrowMembers rest

end

/-- An ASCII text that is normalised is plain. -/
theorem plainText_of_normalize {text normalized : String} (ascii : ∀ c ∈ text.toList, Text.Ascii c)
    (accepted : normalizeString unicode text = .ok normalized) :
    PlainText text ∧ normalized = text := by
  simp only [normalizeString, bind_ok_iff, ensure_ok_iff, exists_const, pure_ok_iff,
    unicode.ascii text ascii] at accepted
  exact ⟨⟨ascii, accepted.1⟩, accepted.2.symm⟩

/-- A number that the visitor accepts denotes an integer within the bounds of the profile. -/
theorem visitNumber_bounds {number : Number} {node : Node}
    (visited : visitNumber number = .ok node) :
    safeIntegerMin ≤ integerOf number ∧ integerOf number ≤ safeIntegerMax := by
  unfold visitNumber visitI64 visitU64 visitF64 at visited
  split_ifs at visited with whole negative
  · simp only [bind_ok_iff, ensure_ok_iff, pure_ok_iff] at visited
    obtain ⟨-, bounds, -⟩ := visited
    rw [integerOf, if_pos negative]
    exact bounds
  · simp only [bind_ok_iff, ensure_ok_iff, pure_ok_iff] at visited
    obtain ⟨-, bound, -⟩ := visited
    rw [integerOf, if_neg negative]
    exact ⟨le_trans (by decide) (Int.natCast_nonneg number.integer), bound⟩

/-- An integer is the one that its literal denotes. -/
theorem integerOf_ofInt (value : Int) : integerOf (Number.ofInt value) = value := by
  simp only [integerOf, Number.ofInt, decide_eq_true_eq]
  split <;> omega

mutual

/-- A narrow value that the visitor accepts is plain. -/
theorem plain_of_visit (value : Value String) (narrow : Narrow value) {node : Node}
    (visited : visit unicode value = .ok node) : Plain value := by
  cases value with
  | null | bool => trivial
  | number number =>
    obtain ⟨integer, rfl⟩ := narrow
    exact ⟨integer, rfl, integerOf_ofInt integer ▸ visitNumber_bounds visited⟩
  | string text =>
    simp only [visit, bind_ok_iff] at visited
    obtain ⟨normalized, accepted, -⟩ := visited
    exact (plainText_of_normalize narrow accepted).1
  | array items =>
    simp only [visit, bind_ok_iff] at visited
    obtain ⟨values, accepted, -⟩ := visited
    obtain ⟨few, plain⟩ := plainItems_of_visit items narrow (Nat.zero_le _) accepted
    exact ⟨by simpa using few, plain⟩
  | object members =>
    simp only [visit, bind_ok_iff] at visited
    obtain ⟨result, accepted, -⟩ := visited
    obtain ⟨few, -, distinct, plain⟩ := plainMembers_of_visit members narrow (Nat.zero_le _)
      (by simp) accepted
    exact ⟨by simpa using few, distinct, plain⟩
termination_by structural value

/-- Narrow items that the visitor accepts are plain and few. -/
theorem plainItems_of_visit (items : List (Value String)) (narrow : NarrowItems items)
    {values result : List Node} (few : values.length ≤ maxArrayItems)
    (visited : visitSeq unicode values items = .ok result) :
    values.length + items.length ≤ maxArrayItems ∧ PlainItems items := by
  cases items with
  | nil => exact ⟨few, trivial⟩
  | cons item rest =>
    simp only [visitSeq, bind_ok_iff, ensure_ok_iff, exists_const] at visited
    obtain ⟨node, first, room, others⟩ := visited
    have longer : (values ++ [node]).length ≤ maxArrayItems := by
      rw [List.length_append]
      exact room
    obtain ⟨fits, plain⟩ := plainItems_of_visit rest narrow.2 longer others
    simp only [List.length_append, List.length_cons, List.length_nil] at fits ⊢
    exact ⟨by omega, plain_of_visit item narrow.1 first, plain⟩
termination_by structural items

/-- Narrow members that the visitor accepts are plain, few and distinct. -/
theorem plainMembers_of_visit (members : List (String × Value String))
    (narrow : NarrowMembers members) {built result : List (String × Node)}
    {rawSeen normalizedSeen : List String} (few : built.length ≤ maxObjectMembers)
    (seen : ∀ key ∈ built.map Prod.fst, key ∈ normalizedSeen)
    (visited : visitMap unicode built rawSeen normalizedSeen members = .ok result) :
    built.length + members.length ≤ maxObjectMembers ∧
      (∀ key ∈ members.map Prod.fst, key ∉ rawSeen) ∧ (members.map Prod.fst).Nodup ∧
      PlainMembers members := by
  cases members with
  | nil => exact ⟨few, by simp, List.nodup_nil, trivial⟩
  | cons member rest =>
    obtain ⟨name, value⟩ := member
    obtain ⟨ascii, narrowValue, narrowRest⟩ := narrow
    simp only [visitMap, bind_ok_iff, ensure_ok_iff, exists_const] at visited
    obtain ⟨room, fresh, key, normal, unseen, node, first, others⟩ := visited
    obtain ⟨plainName, rfl⟩ := plainText_of_normalize ascii normal
    have absent : Entries.find key built = none :=
      (Entries.find_eq_none _ _).mpr fun member => unseen (seen _ member)
    have longer := Entries.length_insert_of_absent node absent
    obtain ⟨fits, unused, distinct, plain⟩ := plainMembers_of_visit rest narrowRest
      (by omega) (by
        intro other member
        rcases (Entries.mem_keys_insert ..).mp member with rfl | old
        · exact List.mem_cons_self
        · exact List.mem_cons_of_mem _ (seen other old)) others
    simp only [List.map_cons, List.length_cons, List.forall_mem_cons, List.nodup_cons]
    refine ⟨by omega, ⟨fresh, fun other member => ?_⟩, ⟨fun member => ?_, distinct⟩, plainName,
      plain_of_visit value narrowValue first, plain⟩
    · exact fun raw => unused other member (List.mem_cons_of_mem _ raw)
    · exact unused key member List.mem_cons_self
termination_by structural members

end

mutual

/-- Narrow values have no fractions. -/
theorem Narrow.integral (value : Value String) (narrow : Narrow value) : value.Integral := by
  cases value with
  | null | bool | string => trivial
  | number number =>
    obtain ⟨integer, rfl⟩ := narrow
    exact ⟨rfl, rfl⟩
  | array items => exact NarrowItems.integral items narrow
  | object members => exact NarrowMembers.integral members narrow
termination_by structural value

/-- Narrow items have no fractions. -/
theorem NarrowItems.integral (items : List (Value String)) (narrow : NarrowItems items) :
    Value.IntegralItems items := by
  cases items with
  | nil => trivial
  | cons item rest => exact ⟨narrow.1.integral, NarrowItems.integral rest narrow.2⟩
termination_by structural items

/-- Narrow members have no fractions. -/
theorem NarrowMembers.integral (members : List (String × Value String))
    (narrow : NarrowMembers members) : Value.IntegralMembers members := by
  cases members with
  | nil => trivial
  | cons member rest =>
    obtain ⟨name, value⟩ := member
    exact ⟨narrow.2.1.integral, NarrowMembers.integral rest narrow.2.2⟩
termination_by structural members

end

/-- A narrow value whose written form is canonicalised is plain. -/
theorem plain_of_canonicalize {value : Value String} {output : ByteArray} (narrow : Narrow value)
    (shallow : value.nesting ≤ recursionLimit)
    (accepted : canonicalize unicode (writtenBytes value) = .ok output) : Plain value := by
  obtain ⟨node, visited⟩ := canonicalize_visits (Narrow.integral value narrow) shallow accepted
  exact plain_of_visit value narrow visited

mutual

/-- A plain value is narrow. -/
theorem Plain.narrow (value : Value String) (plain : Plain value) : Narrow value := by
  cases value with
  | null | bool => trivial
  | number number =>
    obtain ⟨integer, same, -⟩ := plain
    exact ⟨integer, same⟩
  | string text => exact plain.1
  | array items => exact PlainItems.narrow items plain.2
  | object members => exact PlainMembers.narrow members plain.2.2
termination_by structural value

/-- Plain items are narrow. -/
theorem PlainItems.narrow (items : List (Value String)) (plain : PlainItems items) :
    NarrowItems items := by
  cases items with
  | nil => trivial
  | cons item rest => exact ⟨plain.1.narrow, PlainItems.narrow rest plain.2⟩
termination_by structural items

/-- Plain members are narrow. -/
theorem PlainMembers.narrow (members : List (String × Value String))
    (plain : PlainMembers members) : NarrowMembers members := by
  cases members with
  | nil => trivial
  | cons member rest =>
    obtain ⟨name, value⟩ := member
    exact ⟨plain.1.1, plain.2.1.narrow, PlainMembers.narrow rest plain.2.2⟩
termination_by structural members

end

/-- A value of plain members is plain. -/
theorem plain_of_member {members : List (String × Value String)} (plain : PlainMembers members)
    {name : String} {value : Value String} (member : (name, value) ∈ members) : Plain value := by
  induction members with
  | nil => cases member
  | cons first rest ih =>
    obtain ⟨firstName, firstValue⟩ := first
    rcases List.mem_cons.mp member with same | later
    · cases same
      exact plain.2.1
    · exact ih plain.2.2 later

/-- A plain number is within the bounds of the profile. -/
theorem bounds_of_plain {value : Int} (plain : Plain (.number (Number.ofInt value))) :
    safeIntegerMin ≤ value ∧ value ≤ safeIntegerMax := by
  obtain ⟨other, same, bounds⟩ := plain
  have read := congrArg integerOf same
  rw [integerOf_ofInt, integerOf_ofInt] at read
  exact read ▸ bounds

end QsolFed.Canonical
