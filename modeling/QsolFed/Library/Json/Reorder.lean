import QsolFed.Library.Json.Syntax
import Mathlib.Algebra.BigOperators.Group.List.Basic
import Mathlib.Tactic.Ring

/-!
# Reordered values

Two JSON values are reorderings of each other when they differ only in the order of the members
of their objects. Everything that adds up over the written text, its length in particular, and
the depth of nesting are the same for both.
-/
namespace Json

/-- The same value with the members of its objects in another order. -/
inductive Reorders {σ : Type} : Value σ → Value σ → Prop
  | null : Reorders .null .null
  | bool (value : Bool) : Reorders (.bool value) (.bool value)
  | number (value : Number) : Reorders (.number value) (.number value)
  | string (value : σ) : Reorders (.string value) (.string value)
  | array {items others : List (Value σ)} (each : List.Forall₂ Reorders items others) :
    Reorders (.array items) (.array others)
  | object {members aligned others : List (σ × Value σ)}
    (keys : members.map Prod.fst = aligned.map Prod.fst)
    (each : List.Forall₂ Reorders (members.map Prod.snd) (aligned.map Prod.snd))
    (order : aligned.Perm others) : Reorders (.object members) (.object others)

mutual

/-- A value is a reordering of itself. -/
theorem Reorders.refl {σ : Type} (value : Value σ) : Reorders value value := by
  cases value with
  | null => exact .null
  | bool flag => exact .bool flag
  | number number => exact .number number
  | string text => exact .string text
  | array items => exact .array (reorders_items items)
  | object members => exact .object rfl (reorders_members members) (.refl members)
termination_by structural value

/-- Items are reorderings of themselves. -/
theorem reorders_items {σ : Type} (items : List (Value σ)) :
    List.Forall₂ Reorders items items := by
  cases items with
  | nil => exact .nil
  | cons item rest => exact .cons (Reorders.refl item) (reorders_items rest)
termination_by structural items

/-- The values of members are reorderings of themselves. -/
theorem reorders_members {σ : Type} (members : List (σ × Value σ)) :
    List.Forall₂ Reorders (members.map Prod.snd) (members.map Prod.snd) := by
  cases members with
  | nil => exact .nil
  | cons member rest =>
    obtain ⟨name, value⟩ := member
    exact .cons (Reorders.refl value) (reorders_members rest)
termination_by structural members

end

/-! ## Weights of written texts -/

/-- The sum of a weight over the characters of a text. -/
def weigh (weight : Char → Nat) (text : List Char) : Nat := (text.map weight).sum

/-- Weights add up. -/
@[simp] theorem weigh_append (weight : Char → Nat) (left right : List Char) :
    weigh weight (left ++ right) = weigh weight left + weigh weight right := by
  simp [weigh]

/-- The weight of a text with one more character. -/
@[simp] theorem weigh_cons (weight : Char → Nat) (c : Char) (rest : List Char) :
    weigh weight (c :: rest) = weight c + weigh weight rest := by
  simp [weigh]

/-- An empty text weighs nothing. -/
@[simp] theorem weigh_nil (weight : Char → Nat) : weigh weight [] = 0 := rfl

/-- Phrases separated by commas weigh as much as the phrases and the commas. -/
theorem weigh_printItems (weight : Char → Nat) (items : List (Value String)) :
    weigh weight (printItems items) =
      (items.map fun item => weigh weight (print item)).sum + (items.length - 1) * weight ',' := by
  induction items with
  | nil => simp [printItems]
  | cons item rest ih =>
    cases rest with
    | nil => simp [printItems]
    | cons next rest =>
      rw [printItems, weigh_append, List.isEmpty_cons, if_neg Bool.false_ne_true, weigh_cons, ih]
      simp only [List.map_cons, List.sum_cons, List.length_cons, Nat.add_sub_cancel]
      ring

/-- The weight of a written member. -/
def weighMember (weight : Char → Nat) (member : String × Value String) : Nat :=
  weigh weight (printText member.1) + weight ':' + weigh weight (print member.2)

/-- Members separated by commas weigh as much as the members and the commas. -/
theorem weigh_printMembers (weight : Char → Nat) (members : List (String × Value String)) :
    weigh weight (printMembers members) =
      (members.map (weighMember weight)).sum + (members.length - 1) * weight ',' := by
  induction members with
  | nil => simp [printMembers]
  | cons member rest ih =>
    obtain ⟨name, value⟩ := member
    cases rest with
    | nil =>
      simp only [printMembers, weigh_append, weigh_cons, List.isEmpty_nil, ↓reduceIte, weigh_nil,
        List.map_cons, List.map_nil, List.sum_cons, List.sum_nil, weighMember, List.length_cons,
        List.length_nil]
      ring
    | cons next rest =>
      rw [printMembers, weigh_append, weigh_append, List.isEmpty_cons, if_neg Bool.false_ne_true,
        weigh_cons, weigh_cons, ih]
      simp only [List.map_cons, List.sum_cons, List.length_cons, Nat.add_sub_cancel, weighMember]
      ring

mutual

/-- A reordered value weighs the same when written. -/
theorem Reorders.weigh_print (weight : Char → Nat) (value : Value String) {written : Value String}
    (same : Reorders value written) : weigh weight (print value) = weigh weight (print written) := by
  cases value with
  | null | bool | number | string =>
    cases same
    rfl
  | array items =>
    cases same with
    | array each =>
      have sums := weigh_items weight items each
      simp only [print, weigh_cons, weigh_append, weigh_printItems, sums, each.length_eq]
  | object members =>
    cases same with
    | object keys each order =>
      rename_i aligned others
      have sums := weigh_members weight members keys each
      have lengths : members.length = others.length := by
        rw [← List.length_map (f := Prod.fst), keys, List.length_map, order.length_eq]
      have total := (order.map (weighMember weight)).sum_eq
      simp only [print, weigh_cons, weigh_append, weigh_printMembers, sums, lengths, total]
termination_by structural value

/-- Reordered items weigh the same when written. -/
theorem weigh_items (weight : Char → Nat) (items : List (Value String))
    {others : List (Value String)} (each : List.Forall₂ Reorders items others) :
    (items.map fun item => weigh weight (print item)).sum =
      (others.map fun item => weigh weight (print item)).sum := by
  cases items with
  | nil =>
    cases each
    rfl
  | cons item rest =>
    cases each with
    | cons first more =>
      simp only [List.map_cons, List.sum_cons, first.weigh_print weight item,
        weigh_items weight rest more]
termination_by structural items

/-- Reordered members weigh the same when written. -/
theorem weigh_members (weight : Char → Nat) (members : List (String × Value String))
    {aligned : List (String × Value String)}
    (keys : members.map Prod.fst = aligned.map Prod.fst)
    (each : List.Forall₂ Reorders (members.map Prod.snd) (aligned.map Prod.snd)) :
    (members.map (weighMember weight)).sum = (aligned.map (weighMember weight)).sum := by
  cases members with
  | nil =>
    cases aligned with
    | nil => rfl
    | cons head tail => simp at keys
  | cons member rest =>
    cases aligned with
    | nil => simp at keys
    | cons head tail =>
      obtain ⟨name, value⟩ := member
      obtain ⟨other, written⟩ := head
      obtain ⟨rfl, otherKeys⟩ := List.cons.inj keys
      obtain ⟨first, more⟩ := List.forall₂_cons.mp each
      simp only [List.map_cons, List.sum_cons, weighMember, first.weigh_print weight value,
        weigh_members weight rest otherKeys more]
termination_by structural members

end

/-! ## Nesting -/

/-- The nesting of items is bounded when each item's nesting is. -/
theorem nestingItems_le_iff {σ : Type} (items : List (Value σ)) (bound : Nat) :
    Value.nestingItems items ≤ bound ↔ ∀ item ∈ items, item.nesting ≤ bound := by
  induction items with
  | nil => simp [Value.nestingItems]
  | cons item rest ih => simp [Value.nestingItems, ih]

/-- The nesting of members is bounded when each value's nesting is. -/
theorem nestingMembers_le_iff {σ : Type} (members : List (σ × Value σ)) (bound : Nat) :
    Value.nestingMembers members ≤ bound ↔ ∀ member ∈ members, member.2.nesting ≤ bound := by
  induction members with
  | nil => simp [Value.nestingMembers]
  | cons member rest ih => simp [Value.nestingMembers, ih]

mutual

/-- A reordered value nests at most as deep. -/
theorem Reorders.nesting_le (value : Value String) {written : Value String}
    (same : Reorders value written) : written.nesting ≤ value.nesting := by
  cases value with
  | null | bool | number | string =>
    cases same
    rfl
  | array items =>
    cases same with
    | array each => exact Nat.succ_le_succ (nestingItems_reorders items each)
  | object members =>
    cases same with
    | object keys each order =>
      rename_i aligned others
      have aligns := nestingMembers_reorders members keys each
      refine Nat.succ_le_succ ((nestingMembers_le_iff others _).mpr fun member listed => ?_)
      exact (nestingMembers_le_iff aligned _).mp aligns member (order.mem_iff.mpr listed)
termination_by structural value

/-- Reordered items nest at most as deep. -/
theorem nestingItems_reorders (items : List (Value String)) {others : List (Value String)}
    (each : List.Forall₂ Reorders items others) :
    Value.nestingItems others ≤ Value.nestingItems items := by
  cases items with
  | nil =>
    cases each
    rfl
  | cons item rest =>
    cases each with
    | cons first more =>
      exact max_le_max (first.nesting_le item) (nestingItems_reorders rest more)
termination_by structural items

/-- Aligned members nest at most as deep. -/
theorem nestingMembers_reorders (members : List (String × Value String))
    {aligned : List (String × Value String)}
    (keys : members.map Prod.fst = aligned.map Prod.fst)
    (each : List.Forall₂ Reorders (members.map Prod.snd) (aligned.map Prod.snd)) :
    Value.nestingMembers aligned ≤ Value.nestingMembers members := by
  cases members with
  | nil =>
    cases aligned with
    | nil => rfl
    | cons head tail => simp at keys
  | cons member rest =>
    cases aligned with
    | nil => simp at keys
    | cons head tail =>
      obtain ⟨name, value⟩ := member
      obtain ⟨other, written⟩ := head
      obtain ⟨-, otherKeys⟩ := List.cons.inj keys
      obtain ⟨first, more⟩ := List.forall₂_cons.mp each
      exact max_le_max (first.nesting_le value) (nestingMembers_reorders rest otherKeys more)
termination_by structural members

end

end Json
