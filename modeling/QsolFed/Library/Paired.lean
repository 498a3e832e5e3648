import Mathlib.Data.List.Forall2
import Mathlib.Data.List.Perm.Basic

/-!
# Lists that are related element by element

What holds of each pair of related elements holds of the two lists: images under two functions that
agree on the pairs are the same, elements have partners, and a list in another order is related to
the other list in another order.
-/
universe u v w

variable {α : Type u} {β : Type v} {γ : Type w} {R : α → β → Prop}

/-- The pairs consist of elements. -/
theorem forall₂_mem {left : List α} {right : List β} (related : List.Forall₂ R left right) :
    List.Forall₂ (fun one two => one ∈ left ∧ two ∈ right ∧ R one two) left right := by
  induction related with
  | nil => exact .nil
  | cons here _ ih =>
    refine .cons ⟨List.mem_cons_self, List.mem_cons_self, here⟩ (ih.imp ?_)
    rintro one two ⟨first, second, same⟩
    exact ⟨List.mem_cons_of_mem _ first, List.mem_cons_of_mem _ second, same⟩

/-- Each element of the left list has a partner. -/
theorem forall₂_right {left : List α} {right : List β} (related : List.Forall₂ R left right)
    {one : α} (member : one ∈ left) : ∃ two ∈ right, R one two := by
  induction related with
  | nil => cases member
  | cons here _ ih =>
    rcases List.mem_cons.mp member with rfl | later
    · exact ⟨_, List.mem_cons_self, here⟩
    · obtain ⟨two, listed, same⟩ := ih later
      exact ⟨two, List.mem_cons_of_mem _ listed, same⟩

/-- Each element of the right list has a partner. -/
theorem forall₂_left {left : List α} {right : List β} (related : List.Forall₂ R left right)
    {two : β} (member : two ∈ right) : ∃ one ∈ left, R one two :=
  forall₂_right (R := fun two one => R one two) related.flip member

/-- Functions that agree on the pairs have the same images. -/
theorem map_eq_of_forall₂ {left : List α} {right : List β} (related : List.Forall₂ R left right)
    {f : α → γ} {g : β → γ} (same : ∀ one two, R one two → f one = g two) :
    left.map f = right.map g := by
  induction related with
  | nil => rfl
  | cons here _ ih => rw [List.map_cons, List.map_cons, same _ _ here, ih]

/-- A list whose elements have partners is related to one of these. -/
theorem exists_forall₂ {left : List α} (each : ∀ one ∈ left, ∃ two, R one two) :
    ∃ right, List.Forall₂ R left right := by
  induction left with
  | nil => exact ⟨[], .nil⟩
  | cons one rest ih =>
    obtain ⟨two, here⟩ := each one List.mem_cons_self
    obtain ⟨others, related⟩ := ih fun other member => each other (List.mem_cons_of_mem _ member)
    exact ⟨two :: others, .cons here related⟩

/-- A list in another order is related to the other list in another order. -/
theorem forall₂_perm {left other : List α} {right : List β} (same : other.Perm left)
    (related : List.Forall₂ R left right) :
    ∃ rights, List.Forall₂ R other rights ∧ rights.Perm right :=
  List.perm_comp_forall₂ same related

/-- Lists are related in another way when their pairs are, and this is a property of the first
elements. -/
theorem forall₂_iff_left {left : List α} {right : List β} (related : List.Forall₂ R left right)
    {S : α → β → Prop} {P : α → Prop}
    (each : ∀ one two, two ∈ right → R one two → (S one two ↔ P one)) :
    List.Forall₂ S left right ↔ ∀ one ∈ left, P one := by
  induction related with
  | nil => simp
  | @cons one two _ _ here _ ih =>
    have others := ih fun other partner member => each other partner (List.mem_cons_of_mem _ member)
    rw [List.forall₂_cons, List.forall_mem_cons, others, each one two List.mem_cons_self here]

/-- Each element is related to one, so that the list is related to one list. -/
theorem forall₂_unique {left : List α} {right other : List β}
    (functional : ∀ one two three, R one two → R one three → two = three)
    (first : List.Forall₂ R left right) (second : List.Forall₂ R left other) : right = other := by
  induction first generalizing other with
  | nil =>
    cases second
    rfl
  | cons here _ ih =>
    cases second with
    | cons there rest => rw [functional _ _ _ here there, ih rest]

/-- What holds of any two elements in order holds of their partners. -/
theorem pairwise_of_forall₂ {left : List α} {right : List β} (related : List.Forall₂ R left right)
    {S : α → α → Prop} {T : β → β → Prop} (ordered : left.Pairwise S)
    (transfer : ∀ one two first second, R one first → R two second → S one two → T first second) :
    right.Pairwise T := by
  induction related with
  | nil => exact .nil
  | cons here rest ih =>
    obtain ⟨before, later⟩ := List.pairwise_cons.mp ordered
    refine List.pairwise_cons.mpr ⟨fun second member => ?_, ih later⟩
    obtain ⟨two, there, same⟩ := forall₂_left rest member
    exact transfer _ _ _ _ here same (before two there)
