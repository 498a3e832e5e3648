import Mathlib.Data.List.Infix

/-!
# Linked lists of entries

A chain in which every entry is linked to the entries before it. A chain can be extended by an
entry that is linked to it, every prefix of a chain is a chain, and where an entry names the entry
before it, the name of the last entry determines the whole chain.
-/
universe u v

/-- Every entry of a list is linked to the list of the entries before it. -/
inductive Linked {ρ : Type u} (link : List ρ → ρ → Prop) : List ρ → Prop where
  /-- No entry. -/
  | nil : Linked link []
  /-- One more entry. -/
  | snoc {chain : List ρ} {entry : ρ} (before : Linked link chain) (last : link chain entry) :
    Linked link (chain ++ [entry])

namespace Linked

variable {ρ : Type u} {κ : Type v} {link : List ρ → ρ → Prop}

/-- A chain that ends with an entry. -/
theorem snoc_iff {chain : List ρ} {entry : ρ} :
    Linked link (chain ++ [entry]) ↔ Linked link chain ∧ link chain entry := by
  constructor
  · intro linked
    generalize same : chain ++ [entry] = whole at linked
    cases linked with
    | nil => simp at same
    | snoc before last =>
      obtain ⟨rfl, ends⟩ := List.append_inj' same rfl
      obtain rfl := (List.cons.inj ends).1
      exact ⟨before, last⟩
  · intro parts
    exact .snoc parts.1 parts.2

/-- What comes first in a chain is a chain. -/
theorem of_append {first second : List ρ} (linked : Linked link (first ++ second)) :
    Linked link first := by
  induction second using List.reverseRecOn with
  | nil => simpa using linked
  | append_singleton rest entry ih =>
    rw [← List.append_assoc] at linked
    exact ih (snoc_iff.mp linked).1

/-- Every prefix of a chain is a chain. -/
theorem shorten {chain shorter : List ρ} (linked : Linked link chain) (starts : shorter <+: chain) :
    Linked link shorter := by
  obtain ⟨rest, rfl⟩ := starts
  exact linked.of_append

/-- Every entry of a chain is linked to some entries. -/
theorem linked_of_mem {chain : List ρ} (linked : Linked link chain) {entry : ρ}
    (member : entry ∈ chain) : ∃ before, link before entry := by
  induction linked with
  | nil => cases member
  | @snoc before last _ follows ih =>
    rcases List.mem_append.mp member with earlier | here
    · exact ih earlier
    · rw [List.mem_singleton] at here
      exact ⟨before, here ▸ follows⟩

/-- Two chains whose last entries have the same name are the same, where an entry has a name of
its own and determines the name of the entry before it. -/
theorem determined {name : ρ → κ} {one two : List ρ} (first : Linked link one)
    (second : Linked link two)
    (unique : ∀ left ∈ one, ∀ right ∈ two, name left = name right → left = right)
    (back : ∀ left right entry, link left entry → link right entry →
      left.getLast?.map name = right.getLast?.map name)
    (same : one.getLast?.map name = two.getLast?.map name) : one = two := by
  induction first generalizing two with
  | nil =>
    have empty : two = [] := by simpa using same.symm
    exact empty.symm
  | @snoc before entry _ follows ih =>
    cases second with
    | nil => simp at same
    | @snoc others last linked continues =>
      have names : name entry = name last := by simpa using same
      obtain rfl := unique entry (by simp) last (by simp) names
      have earlier := ih linked
        (fun left here right there => unique left (by simp [here]) right (by simp [there]))
        (back _ _ _ follows continues)
      rw [earlier]

end Linked
