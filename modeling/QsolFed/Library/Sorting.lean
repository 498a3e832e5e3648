import Mathlib.Data.List.Sort
import Mathlib.Data.Prod.Lex

/-!
# Sorting by a key

A stable sort by a key in a linear order. Lists with the same elements are sorted alike when
different elements have different keys.
-/
universe u v

variable {α : Type u} {κ : Type v} [LinearOrder κ]

/-- The elements in the order of their keys. -/
def sortBy (key : α → κ) (values : List α) : List α :=
  values.mergeSort fun left right => decide (key left ≤ key right)

/-- Sorting keeps the elements. -/
theorem sortBy_perm (key : α → κ) (values : List α) : (sortBy key values).Perm values :=
  List.mergeSort_perm ..

/-- An element of a sorted list is an element of the list. -/
@[simp] theorem mem_sortBy (key : α → κ) (values : List α) (value : α) :
    value ∈ sortBy key values ↔ value ∈ values :=
  (sortBy_perm key values).mem_iff

/-- The keys of a sorted list ascend. -/
theorem sortBy_pairwise (key : α → κ) (values : List α) :
    (sortBy key values).Pairwise fun left right => key left ≤ key right := by
  have sorted : (sortBy key values).Pairwise fun left right =>
      decide (key left ≤ key right) = true := by
    refine List.pairwise_mergeSort (fun first second third one two => ?_) (fun left right => ?_) _
    · simp only [decide_eq_true_eq] at one two ⊢
      exact one.trans two
    · simp only [Bool.or_eq_true, decide_eq_true_eq]
      exact le_total _ _
  exact sorted.imp fun ordered => of_decide_eq_true ordered

/-- Lists with the same elements are sorted alike when their keys tell them apart. -/
theorem sortBy_congr (key : α → κ) {left right : List α} (same : left.Perm right)
    (apart : ∀ one ∈ left, ∀ two ∈ left, key one = key two → one = two) :
    sortBy key left = sortBy key right := by
  have perm : (sortBy key left).Perm (sortBy key right) :=
    (sortBy_perm key left).trans (same.trans (sortBy_perm key right).symm)
  refine perm.eq_of_pairwise (fun one two here there first second => ?_) (sortBy_pairwise key left)
    (sortBy_pairwise key right)
  exact apart one ((mem_sortBy ..).mp here) two (same.mem_iff.mpr ((mem_sortBy ..).mp there))
    (le_antisymm first second)

/-- A list whose keys ascend stays as it is. -/
theorem sortBy_of_pairwise (key : α → κ) {values : List α}
    (ordered : values.Pairwise fun left right => key left ≤ key right) :
    sortBy key values = values :=
  List.mergeSort_of_pairwise (ordered.imp fun small => decide_eq_true small)
