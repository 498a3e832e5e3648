import Mathlib.Logic.Relation

/-!
# Relations without cycles

A relation has no cycle when nothing is related to itself in one or more steps. One more pair
closes a cycle exactly when its second part leads back to its first one already.
-/
universe u

/-- Nothing leads back to itself. -/
def Acyclic {α : Type u} (relation : α → α → Prop) : Prop :=
  ∀ value, ¬Relation.TransGen relation value value

namespace Acyclic

variable {α : Type u} {relation extended : α → α → Prop}

/-- A part of a relation without cycles has none. -/
theorem mono (acyclic : Acyclic extended)
    (included : ∀ one two, relation one two → extended one two) : Acyclic relation :=
  fun value cycle => acyclic value (Relation.TransGen.mono included _ _ cycle)

/-- A path with one more pair is a path without it, or it leads to the pair and on from it. -/
theorem path_split {child parent : α}
    (pairs : ∀ one two, extended one two → relation one two ∨ (one = child ∧ two = parent))
    {first last : α} (path : Relation.TransGen extended first last) :
    Relation.TransGen relation first last ∨
      (Relation.ReflTransGen relation first child ∧ Relation.ReflTransGen relation parent last) := by
  induction path with
  | single step =>
    rcases pairs _ _ step with old | ⟨rfl, rfl⟩
    · exact .inl (.single old)
    · exact .inr ⟨.refl, .refl⟩
  | tail before step ih =>
    rcases pairs _ _ step with old | ⟨rfl, rfl⟩
    · rcases ih with path | ⟨there, back⟩
      · exact .inl (path.tail old)
      · exact .inr ⟨there, back.tail old⟩
    · rcases ih with path | ⟨there, -⟩
      · exact .inr ⟨path.to_reflTransGen, .refl⟩
      · exact .inr ⟨there, .refl⟩

/-- One more pair closes no cycle exactly when its second part does not lead to its first one. -/
theorem extend_iff {child parent : α}
    (pairs : ∀ one two, extended one two ↔ relation one two ∨ (one = child ∧ two = parent)) :
    Acyclic extended ↔ Acyclic relation ∧ ¬Relation.ReflTransGen relation parent child := by
  constructor
  · intro acyclic
    refine ⟨acyclic.mono fun one two old => (pairs one two).mpr (.inl old), fun back => ?_⟩
    have step : extended child parent := (pairs child parent).mpr (.inr ⟨rfl, rfl⟩)
    have home := Relation.ReflTransGen.mono (fun one two old => (pairs one two).mpr (.inl old)) _ _ back
    exact acyclic child (.head' step home)
  · rintro ⟨acyclic, apart⟩ value cycle
    rcases path_split (fun one two => (pairs one two).mp) cycle with old | ⟨there, back⟩
    · exact acyclic value old
    · exact apart (back.trans there)

end Acyclic
