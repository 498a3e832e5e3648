import Mathlib.Data.List.Sort
import Mathlib.Data.List.Nodup

/-!
# Ordered maps

A finite map from a linear order, kept as its entries in strictly increasing key order: the
order in which a search tree iterates. The order makes the representation unique, so two maps
that answer every lookup alike are equal (`OrderedMap.ext`). The operations are first defined
on entry lists, because trees whose nodes are maps nest the list; `OrderedMap` then carries
the order of its keys as a field.
-/

universe u v w

namespace Entries

variable {κ : Type u} {α : Type v} [LinearOrder κ]

/-- Keys in strictly increasing order. -/
def Sorted (entries : List (κ × α)) : Prop := (entries.map Prod.fst).Pairwise (· < ·)

instance (entries : List (κ × α)) : Decidable (Sorted entries) :=
  inferInstanceAs (Decidable ((entries.map Prod.fst).Pairwise (· < ·)))

/-- The value at a key. -/
def find (key : κ) : List (κ × α) → Option α
  | [] => none
  | (other, value) :: rest => if key = other then some value else find key rest

/-- Put a value at a key, replacing the value that was there. -/
def insert (key : κ) (value : α) : List (κ × α) → List (κ × α)
  | [] => [(key, value)]
  | (other, old) :: rest =>
    if key < other then (key, value) :: (other, old) :: rest
    else if key = other then (key, value) :: rest
    else (other, old) :: insert key value rest

/-- The keys after an insertion are the inserted key and the keys before it. -/
theorem mem_keys_insert (key other : κ) (value : α) (entries : List (κ × α)) :
    other ∈ (insert key value entries).map Prod.fst ↔
      other = key ∨ other ∈ entries.map Prod.fst := by
  induction entries with
  | nil => simp [insert]
  | cons entry rest ih =>
    obtain ⟨head, old⟩ := entry
    by_cases before : key < head
    · simp [insert, before]
    · by_cases same : key = head
      · simp [insert, same]
      · simp only [insert, before, same, ↓reduceIte, List.map_cons, List.mem_cons, ih]
        tauto

/-- Insertion keeps keys in order. -/
theorem sorted_insert (key : κ) (value : α) {entries : List (κ × α)} (sorted : Sorted entries) :
    Sorted (insert key value entries) := by
  induction entries with
  | nil => simp [insert, Sorted]
  | cons entry rest ih =>
    obtain ⟨head, old⟩ := entry
    obtain ⟨above, tail⟩ := List.pairwise_cons.mp sorted
    by_cases before : key < head
    · simp only [insert, before, ↓reduceIte]
      refine List.pairwise_cons.mpr ⟨fun other member => ?_, sorted⟩
      rcases List.mem_cons.mp member with rfl | later
      · exact before
      · exact before.trans (above other later)
    · by_cases same : key = head
      · subst same
        simp only [insert, lt_irrefl, ↓reduceIte]
        exact List.pairwise_cons.mpr ⟨above, tail⟩
      · simp only [insert, before, same, ↓reduceIte]
        refine List.pairwise_cons.mpr ⟨fun other member => ?_, ih tail⟩
        rcases (mem_keys_insert ..).mp member with rfl | later
        · exact lt_of_le_of_ne (not_lt.mp before) (Ne.symm same)
        · exact above other later

/-- Insertion changes exactly one lookup. -/
theorem find_insert (key other : κ) (value : α) (entries : List (κ × α)) :
    find other (insert key value entries) =
      if other = key then some value else find other entries := by
  induction entries with
  | nil => simp [insert, find]
  | cons entry rest ih =>
    obtain ⟨head, old⟩ := entry
    by_cases before : key < head
    · simp [insert, before, find]
    · by_cases same : key = head
      · subst same
        by_cases here : other = key <;> simp [insert, find, here]
      · simp only [insert, before, same, ↓reduceIte, find, ih]
        by_cases here : other = head
        · subst here
          simp [Ne.symm same]
        · simp [here]

/-- An entry after an insertion is the inserted entry or was there before. -/
theorem mem_of_mem_insert {key : κ} {value : α} {entry : κ × α} {entries : List (κ × α)}
    (member : entry ∈ insert key value entries) : entry = (key, value) ∨ entry ∈ entries := by
  induction entries with
  | nil => simpa [insert] using member
  | cons first rest ih =>
    obtain ⟨head, old⟩ := first
    by_cases before : key < head
    · simpa [insert, before] using member
    · by_cases same : key = head
      · simp only [insert, same, lt_irrefl, ↓reduceIte, List.mem_cons] at member ⊢
        tauto
      · simp only [insert, before, same, ↓reduceIte, List.mem_cons] at member ⊢
        tauto

/-- Inserting a new key adds its entry somewhere. -/
theorem insert_perm {key : κ} (value : α) {entries : List (κ × α)}
    (absent : find key entries = none) :
    (insert key value entries).Perm ((key, value) :: entries) := by
  induction entries with
  | nil => exact .refl _
  | cons first rest ih =>
    obtain ⟨head, old⟩ := first
    by_cases same : key = head
    · simp [find, same] at absent
    · simp only [find, same, ↓reduceIte] at absent
      by_cases before : key < head
      · simp [insert, before]
      · simp only [insert, before, same, ↓reduceIte]
        exact ((ih absent).cons _).trans (.swap _ _ _)

/-- Inserting a new key adds one entry. -/
theorem length_insert_of_absent {key : κ} (value : α) {entries : List (κ × α)}
    (absent : find key entries = none) :
    (insert key value entries).length = entries.length + 1 :=
  (insert_perm value absent).length_eq

/-- An insertion adds at most one entry. -/
theorem length_insert_le (key : κ) (value : α) (entries : List (κ × α)) :
    (insert key value entries).length ≤ entries.length + 1 := by
  induction entries with
  | nil => simp [insert]
  | cons first rest ih =>
    obtain ⟨head, old⟩ := first
    simp only [insert]
    split_ifs <;> simp [ih]

/-- A key after all others is inserted at the end. -/
theorem insert_last {key : κ} (value : α) {entries : List (κ × α)}
    (above : ∀ other ∈ entries.map Prod.fst, other < key) :
    insert key value entries = entries ++ [(key, value)] := by
  induction entries with
  | nil => rfl
  | cons first rest ih =>
    obtain ⟨head, old⟩ := first
    have below : head < key := above head (by simp)
    have tail := ih fun other member => above other (by simp [List.mem_map.mp member])
    simp [insert, not_lt.mpr below.le, ne_of_gt below, tail]

/-- A lookup finds an entry of the list. -/
theorem mem_of_find {key : κ} {value : α} {entries : List (κ × α)}
    (found : find key entries = some value) : (key, value) ∈ entries := by
  induction entries with
  | nil => simp [find] at found
  | cons entry rest ih =>
    obtain ⟨head, old⟩ := entry
    by_cases here : key = head
    · simp only [find, here, ↓reduceIte, Option.some.injEq] at found
      simp [here, found]
    · simp only [find, here, ↓reduceIte] at found
      exact List.mem_cons_of_mem _ (ih found)

/-- A key that is not listed has no value, and the reverse. -/
theorem find_eq_none (key : κ) (entries : List (κ × α)) :
    find key entries = none ↔ key ∉ entries.map Prod.fst := by
  induction entries with
  | nil => simp [find]
  | cons entry rest ih =>
    obtain ⟨head, old⟩ := entry
    by_cases here : key = head <;> simp [find, here, ih]

/-- When no key repeats, every entry is what a lookup finds. -/
theorem find_of_mem {key : κ} {value : α} {entries : List (κ × α)}
    (distinct : (entries.map Prod.fst).Nodup) (member : (key, value) ∈ entries) :
    find key entries = some value := by
  induction entries with
  | nil => cases member
  | cons entry rest ih =>
    obtain ⟨head, old⟩ := entry
    obtain ⟨absent, others⟩ := List.nodup_cons.mp distinct
    rcases List.mem_cons.mp member with same | later
    · cases same
      simp [find]
    · have different : key ≠ head := by
        rintro rfl
        exact absent (List.mem_map.mpr ⟨_, later, rfl⟩)
      simpa only [find, different, ↓reduceIte] using ih others later

/-- Ordered keys do not repeat. -/
theorem Sorted.nodup {entries : List (κ × α)} (sorted : Sorted entries) :
    (entries.map Prod.fst).Nodup := sorted.imp fun before => ne_of_lt before

/-- Replacing a value keeps the keys. -/
theorem keys_insert_of_present {key : κ} {old : α} (value : α) {entries : List (κ × α)}
    (sorted : Sorted entries) (present : find key entries = some old) :
    (insert key value entries).map Prod.fst = entries.map Prod.fst := by
  induction entries with
  | nil => simp [find] at present
  | cons first rest ih =>
    obtain ⟨head, first⟩ := first
    obtain ⟨above, tail⟩ := List.pairwise_cons.mp sorted
    by_cases here : key = head
    · subst here
      simp [insert]
    · simp only [find, here, ↓reduceIte] at present
      have after := above key (List.mem_map.mpr ⟨_, mem_of_find present, rfl⟩)
      simp only [insert, not_lt.mpr after.le, here, ↓reduceIte, List.map_cons, ih tail present]

/-- Two ordered lists that answer every lookup alike are equal. -/
theorem ext_find : ∀ {left right : List (κ × α)}, Sorted left → Sorted right →
    (∀ key, find key left = find key right) → left = right
  | [], [], _, _, _ => rfl
  | [], (key, value) :: rest, _, _, same => by simpa [find] using same key
  | (key, value) :: rest, [], _, _, same => by simpa [find] using same key
  | (key, value) :: left, (other, old) :: right, first, second, same => by
    obtain ⟨aboveLeft, tailLeft⟩ := List.pairwise_cons.mp first
    obtain ⟨aboveRight, tailRight⟩ := List.pairwise_cons.mp second
    have listed : ∀ k, k ∈ ((key, value) :: left).map Prod.fst ↔
        k ∈ ((other, old) :: right).map Prod.fst := by
      intro k
      have absent := find_eq_none k ((key, value) :: left)
      rw [same k, find_eq_none] at absent
      exact not_iff_not.mp absent.symm
    have heads : key = other := by
      apply le_antisymm
      · rcases List.mem_cons.mp ((listed other).mpr (by simp)) with equal | later
        · exact equal ▸ le_refl _
        · exact (aboveLeft other later).le
      · rcases List.mem_cons.mp ((listed key).mp (by simp)) with equal | later
        · exact equal ▸ le_refl _
        · exact (aboveRight key later).le
    subst heads
    have values : value = old := by simpa [find] using same key
    subst values
    have tails : left = right := by
      apply ext_find tailLeft tailRight
      intro k
      by_cases here : k = key
      · subst here
        rw [(find_eq_none k left).mpr fun member => lt_irrefl _ (aboveLeft k member),
          (find_eq_none k right).mpr fun member => lt_irrefl _ (aboveRight k member)]
      · simpa [find, here] using same k
    rw [tails]

/-- Keeping some entries of an ordered list keeps its order. -/
theorem Sorted.filter {entries : List (κ × α)} (sorted : Sorted entries) (keep : κ × α → Bool) :
    Sorted (entries.filter keep) :=
  sorted.sublist (List.filter_sublist.map Prod.fst)

/-- A lookup after keeping some entries finds what it found before, when that was kept. -/
theorem find_filter {entries : List (κ × α)} (sorted : Sorted entries) (keep : κ × α → Bool)
    (key : κ) : find key (entries.filter keep) =
      (find key entries).filter fun value => keep (key, value) := by
  induction entries with
  | nil => simp [find]
  | cons entry rest ih =>
    obtain ⟨head, old⟩ := entry
    obtain ⟨above, tail⟩ := List.pairwise_cons.mp sorted
    have rest_none : key = head → find key rest = none := by
      rintro rfl
      exact (find_eq_none key rest).mpr fun member => lt_irrefl _ (above key member)
    by_cases here : key = head
    · subst here
      by_cases kept : keep (key, old)
      · simp [find, kept, Option.filter]
      · simp [find, kept, ih tail, rest_none rfl, Option.filter]
    · by_cases kept : keep (head, old) <;> simp [find, kept, here, ih tail]

end Entries

/-- A finite map, as its entries in strictly increasing key order. -/
structure OrderedMap (κ : Type u) (α : Type v) [LinearOrder κ] where
  /-- Entries in iteration order. -/
  entries : List (κ × α)
  /-- The order of the keys. -/
  sorted : Entries.Sorted entries

namespace OrderedMap

variable {κ : Type u} {α : Type v} [LinearOrder κ]

instance [DecidableEq α] : DecidableEq (OrderedMap κ α) := fun left right =>
  decidable_of_iff (left.entries = right.entries) (by cases left; cases right; simp)

/-- The map without entries. -/
def empty : OrderedMap κ α := ⟨[], List.Pairwise.nil⟩

/-- The value at a key. -/
def get? (map : OrderedMap κ α) (key : κ) : Option α := Entries.find key map.entries

/-- Put a value at a key, replacing the value that was there. -/
def insert (map : OrderedMap κ α) (key : κ) (value : α) : OrderedMap κ α :=
  ⟨Entries.insert key value map.entries, Entries.sorted_insert key value map.sorted⟩

/-- Keep the entries that pass a test. -/
def retain (map : OrderedMap κ α) (keep : κ → α → Bool) : OrderedMap κ α :=
  ⟨map.entries.filter fun entry => keep entry.1 entry.2, map.sorted.filter _⟩

/-- Take the value at a key away. -/
def erase (map : OrderedMap κ α) (key : κ) : OrderedMap κ α :=
  map.retain fun other _ => decide (other ≠ key)

/-- The keys and values in iteration order. -/
def values (map : OrderedMap κ α) : List α := map.entries.map Prod.snd

/-- Maps that answer every lookup alike are equal. -/
@[ext] theorem ext {left right : OrderedMap κ α} (same : ∀ key, left.get? key = right.get? key) :
    left = right := by
  cases left with
  | mk entries sorted =>
    cases right with
    | mk others order =>
      obtain rfl := Entries.ext_find sorted order same
      rfl

/-- The empty map has no value anywhere. -/
@[simp] theorem get?_empty (key : κ) : (empty : OrderedMap κ α).get? key = none := rfl

/-- Insertion changes exactly one lookup. -/
theorem get?_insert (map : OrderedMap κ α) (key other : κ) (value : α) :
    (map.insert key value).get? other = if other = key then some value else map.get? other :=
  Entries.find_insert key other value map.entries

/-- The inserted value is found. -/
@[simp] theorem get?_insert_self (map : OrderedMap κ α) (key : κ) (value : α) :
    (map.insert key value).get? key = some value := by simp [get?_insert]

/-- Every other lookup is untouched by an insertion. -/
theorem get?_insert_of_ne (map : OrderedMap κ α) {key other : κ} (value : α)
    (different : other ≠ key) : (map.insert key value).get? other = map.get? other := by
  simp [get?_insert, different]

/-- Putting a value under a key twice keeps the second one. -/
theorem insert_insert (map : OrderedMap κ α) (key : κ) (first second : α) :
    (map.insert key first).insert key second = map.insert key second := by
  ext1 other
  simp only [get?_insert]
  split_ifs <;> rfl

/-- Inserting what is there changes nothing. -/
theorem insert_present {map : OrderedMap κ α} {key : κ} {value : α}
    (present : map.get? key = some value) : map.insert key value = map := by
  ext1 other
  rw [get?_insert]
  split_ifs with here
  · rw [here, present]
  · rfl

/-- A value survives exactly when it passes the test. -/
theorem get?_retain (map : OrderedMap κ α) (keep : κ → α → Bool) (key : κ) :
    (map.retain keep).get? key = (map.get? key).filter (keep key) :=
  Entries.find_filter map.sorted _ key

/-- Taking a value away changes exactly one lookup. -/
theorem get?_erase (map : OrderedMap κ α) (key other : κ) :
    (map.erase key).get? other = if other = key then none else map.get? other := by
  rw [erase, get?_retain]
  by_cases here : other = key
  · cases map.get? other <;> simp [here]
  · cases map.get? other <;> simp [here]

/-- Taking away what is not there changes nothing. -/
theorem erase_absent {map : OrderedMap κ α} {key : κ} (absent : map.get? key = none) :
    map.erase key = map := by
  ext1 other
  rw [get?_erase]
  split_ifs with here
  · rw [here, absent]
  · rfl

/-- The entries are exactly the lookups that succeed. -/
theorem mem_entries (map : OrderedMap κ α) (key : κ) (value : α) :
    (key, value) ∈ map.entries ↔ map.get? key = some value :=
  ⟨Entries.find_of_mem map.sorted.nodup, Entries.mem_of_find⟩

/-- The values are those found at some key. -/
theorem mem_values (map : OrderedMap κ α) (value : α) :
    value ∈ map.values ↔ ∃ key, map.get? key = some value := by
  simp only [values, List.mem_map, Prod.exists, exists_eq_right, mem_entries]

/-- Replacing a value keeps the number of entries. -/
theorem length_insert_of_present {map : OrderedMap κ α} {key : κ} {old : α} (value : α)
    (present : map.get? key = some old) :
    (map.insert key value).entries.length = map.entries.length := by
  have keys := Entries.keys_insert_of_present value map.sorted present
  have lengths := congrArg List.length keys
  rw [List.length_map, List.length_map] at lengths
  exact lengths

/-- A map with fewer keys has fewer entries. -/
theorem length_le_of_keys {β : Type v} {map : OrderedMap κ α} {other : OrderedMap κ β}
    (keys : ∀ key value, map.get? key = some value → ∃ found, other.get? key = some found) :
    map.entries.length ≤ other.entries.length := by
  have subset : map.entries.map Prod.fst ⊆ other.entries.map Prod.fst := by
    intro key member
    obtain ⟨⟨_, value⟩, listed, rfl⟩ := List.mem_map.mp member
    obtain ⟨found, there⟩ := keys _ value ((map.mem_entries _ _).mp listed)
    exact List.mem_map.mpr ⟨_, (other.mem_entries _ _).mpr there, rfl⟩
  have lengths := (List.subperm_of_subset map.sorted.nodup subset).length_le
  rw [List.length_map, List.length_map] at lengths
  exact lengths

end OrderedMap
