import QsolFed.Canonical.Plain

/-!
# Values with one canonical form

Two values agree when the visitor reads the same tree from both. Values with the same canonical
bytes agree, agreement passes to the members and items, and scalars that agree are the same up to
the normal form of their texts.
-/
namespace QsolFed.Canonical

open Checked Json

/-- The visitor reads the same tree from two values. -/
def Agree (unicode : Unicode) (one two : Value String) : Prop :=
  ∃ node, visit unicode one = .ok node ∧ visit unicode two = .ok node

variable {unicode : Unicode} {one two : Value String}

/-- Values with the same canonical bytes agree. -/
theorem agree_of_canonicalize {output : ByteArray} (integral : one.Integral ∧ two.Integral)
    (shallow : one.nesting ≤ recursionLimit ∧ two.nesting ≤ recursionLimit)
    (first : canonicalize unicode (writtenBytes one) = .ok output)
    (second : canonicalize unicode (writtenBytes two) = .ok output) : Agree unicode one two := by
  obtain ⟨node, visited, parsed⟩ := canonicalize_node integral.1 shallow.1 first
  obtain ⟨other, visitedOther, parsedOther⟩ := canonicalize_node integral.2 shallow.2 second
  rw [parsed] at parsedOther
  rw [← Except.ok.inj parsedOther] at visitedOther
  exact ⟨node, visited, visitedOther⟩

/-- Members with one name agree. -/
theorem Agree.member {left right : List (String × Value String)}
    (agree : Agree unicode (.object left) (.object right)) (name : String)
    (here : (name, one) ∈ left) (there : (name, two) ∈ right) : Agree unicode one two := by
  obtain ⟨node, first, second⟩ := agree
  simp only [visit, bind_ok_iff, pure_ok_iff] at first second
  obtain ⟨members, visited, rfl⟩ := first
  obtain ⟨others, visitedOthers, same⟩ := second
  obtain rfl := Node.object.inj same
  obtain ⟨child, read, found⟩ := (visitMap_find (by simp) visited).2 name one here
  obtain ⟨other, readOther, foundOther⟩ := (visitMap_find (by simp) visitedOthers).2 name two there
  rw [found] at foundOther
  rw [← Option.some.inj foundOther] at readOther
  exact ⟨child, read, readOther⟩

/-- Items at one place agree. -/
theorem Agree.items {left right : List (Value String)}
    (agree : Agree unicode (.array left) (.array right)) :
    List.Forall₂ (Agree unicode) left right := by
  obtain ⟨node, first, second⟩ := agree
  simp only [visit, bind_ok_iff, pure_ok_iff] at first second
  obtain ⟨nodes, visited, rfl⟩ := first
  obtain ⟨others, visitedOthers, same⟩ := second
  obtain rfl := Node.array.inj same
  obtain ⟨read, rfl, each⟩ := visitSeq_each visited
  obtain ⟨readOther, same, eachOther⟩ := visitSeq_each visitedOthers
  rw [List.nil_append] at same
  subst same
  clear visited visitedOthers ‹Node.array _ = Node.array _›
  induction each generalizing right with
  | nil =>
    cases eachOther
    exact .nil
  | cons head _ ih =>
    cases eachOther with
    | cons headOther rest => exact .cons ⟨_, head, headOther⟩ (ih rest)

/-- Texts that agree have the same normal form. -/
theorem Agree.text {left right : String} (agree : Agree unicode (.string left) (.string right)) :
    unicode.nfc left = unicode.nfc right := by
  obtain ⟨node, first, second⟩ := agree
  simp only [visit, normalizeString, bind_ok_iff, ensure_ok_iff, pure_ok_iff, exists_const]
    at first second
  obtain ⟨_, ⟨-, rfl⟩, rfl⟩ := first
  obtain ⟨_, ⟨-, rfl⟩, same⟩ := second
  exact (Node.string.inj same).symm

/-- Lists of texts that agree have the same normal forms. -/
theorem Agree.texts {left right : List String}
    (agree : Agree unicode (.array (left.map .string)) (.array (right.map .string))) :
    left.map unicode.nfc = right.map unicode.nfc := by
  have each := agree.items
  rw [List.forall₂_map_left_iff, List.forall₂_map_right_iff] at each
  clear agree
  induction each with
  | nil => rfl
  | cons head _ ih => rw [List.map_cons, List.map_cons, head.text, ih]

/-- Truth values that agree are the same. -/
theorem Agree.bool {left right : Bool} (agree : Agree unicode (.bool left) (.bool right)) :
    left = right := by
  obtain ⟨node, first, second⟩ := agree
  rw [visit, pure_ok_iff] at first second
  subst first
  exact (Node.bool.inj second).symm

/-- The tree of a number. -/
theorem visitNumber_eq {number : Number} {node : Node} (visited : visitNumber number = .ok node) :
    node = .integer (if number.negative then -number.integer else number.integer) := by
  unfold visitNumber at visited
  split_ifs at visited with whole negative small small
  · simp only [visitI64, bind_ok_iff, pure_ok_iff] at visited
    obtain ⟨-, -, rfl⟩ := visited
    rw [if_pos negative]
  · cases visited
  · simp only [visitU64, bind_ok_iff, pure_ok_iff] at visited
    obtain ⟨-, -, rfl⟩ := visited
    rw [if_neg negative]
  · cases visited
  · cases visited

/-- The tree of an integer. -/
theorem visit_ofInt {value : Int} {node : Node}
    (visited : visit unicode (.number (Number.ofInt value)) = .ok node) : node = .integer value := by
  have integer : (if (Number.ofInt value).negative = true then -((Number.ofInt value).integer : Int)
      else (Number.ofInt value).integer) = value := by
    by_cases negative : value < 0
    · simp only [Number.ofInt, negative, decide_true, ↓reduceIte]
      omega
    · simp only [Number.ofInt, negative, decide_false, Bool.false_eq_true, ↓reduceIte]
      omega
  rw [visitNumber_eq visited, integer]

/-- Integers that agree are the same. -/
theorem Agree.integer {left right : Int}
    (agree : Agree unicode (.number (Number.ofInt left)) (.number (Number.ofInt right))) :
    left = right := by
  obtain ⟨node, first, second⟩ := agree
  have same := (visit_ofInt first).symm.trans (visit_ofInt second)
  exact Node.integer.inj same

end QsolFed.Canonical
