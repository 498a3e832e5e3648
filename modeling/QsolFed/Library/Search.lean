import Mathlib.Tactic.Common

/-!
# The first occurrence of a pattern

A search returns what follows the first occurrence of a pattern in a list. A pattern occurs where
the list splits around it, so the search fails exactly when there is no occurrence, and what it
returns follows one.
-/
universe u

namespace Search

variable {α : Type u} [DecidableEq α]

/-- What follows the first occurrence of a pattern. -/
def afterFirst (pattern : List α) : List α → Option (List α)
  | [] => if pattern.isPrefixOf [] then some [] else none
  | head :: rest =>
    if pattern.isPrefixOf (head :: rest) then some ((head :: rest).drop pattern.length)
    else afterFirst pattern rest

/-- A pattern occurs. -/
def contains (pattern text : List α) : Bool := (afterFirst pattern text).isSome

/-- A pattern occurs before a rest of a list. -/
def Occurs (pattern text rest : List α) : Prop := ∃ before, text = before ++ pattern ++ rest

/-- A list begins with a pattern. -/
theorem eq_append_of_isPrefixOf {pattern text : List α} (starts : pattern.isPrefixOf text = true) :
    text = pattern ++ text.drop pattern.length :=
  (List.prefix_iff_eq_append.mp (List.isPrefixOf_iff_prefix.mp starts)).symm

/-- What the search returns follows an occurrence. -/
theorem occurs_of_afterFirst {pattern text rest : List α}
    (found : afterFirst pattern text = some rest) : Occurs pattern text rest := by
  induction text with
  | nil =>
    simp only [afterFirst] at found
    split_ifs at found with starts
    cases found
    exact ⟨[], by simpa using eq_append_of_isPrefixOf starts⟩
  | cons head tail ih =>
    simp only [afterFirst] at found
    split_ifs at found with starts
    · cases found
      exact ⟨[], by simpa using eq_append_of_isPrefixOf starts⟩
    · obtain ⟨before, rfl⟩ := ih found
      exact ⟨head :: before, rfl⟩

/-- A pattern that occurs is found. -/
theorem contains_of_occurs {pattern text rest : List α} (occurs : Occurs pattern text rest) :
    contains pattern text = true := by
  obtain ⟨before, rfl⟩ := occurs
  induction before with
  | nil =>
    have starts : pattern.isPrefixOf (pattern ++ rest) = true :=
      List.isPrefixOf_iff_prefix.mpr (List.prefix_append _ _)
    simp only [contains, List.nil_append]
    cases whole : pattern ++ rest with
    | nil =>
      rw [whole] at starts
      simp only [afterFirst, starts, ↓reduceIte, Option.isSome_some]
    | cons head tail =>
      rw [whole] at starts
      simp only [afterFirst, starts, ↓reduceIte, Option.isSome_some]
  | cons head tail ih =>
    simp only [contains, List.cons_append, afterFirst]
    split_ifs
    · rfl
    · exact ih

end Search
