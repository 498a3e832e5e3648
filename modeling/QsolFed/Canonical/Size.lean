import QsolFed.Canonical.Plain
import QsolFed.Library.Json.Codec
import Mathlib.Algebra.Order.BigOperators.Group.List

/-!
# The size of written data

The size of a written container is the sum of the sizes of its parts and of the marks between
them. A part is never larger than the whole, and a number that grows by one needs at most one more
digit.
-/
namespace QsolFed.Canonical

open Json

/-- The size of a written value. -/
def writtenSize (value : Value String) : Nat := (writtenBytes value).size

/-- The size counts the bytes of the characters. -/
theorem writtenSize_eq (value : Value String) :
    writtenSize value = weigh Char.utf8Size (print value) := utf8ByteSize_ofList _

/-- The size of a written member. -/
def memberSize (member : String × Value String) : Nat :=
  weigh Char.utf8Size (printText member.1) + 1 + writtenSize member.2

/-- The size of a written object. -/
theorem writtenSize_object (members : List (String × Value String)) :
    writtenSize (.object members) = (members.map memberSize).sum + (members.length - 1) + 2 := by
  have marks : Char.utf8Size '\x7b' = 1 ∧ Char.utf8Size '\x7d' = 1 ∧ Char.utf8Size ',' = 1 :=
    ⟨rfl, rfl, rfl⟩
  have each : members.map (weighMember Char.utf8Size) = members.map memberSize :=
    List.map_congr_left fun member _ => by
      rw [memberSize, writtenSize_eq]
      rfl
  rw [writtenSize_eq]
  simp only [print, weigh_cons, weigh_append, weigh_nil, weigh_printMembers, each, marks]
  omega

/-- The size of a written array. -/
theorem writtenSize_array (items : List (Value String)) :
    writtenSize (.array items) = (items.map writtenSize).sum + (items.length - 1) + 2 := by
  have marks : Char.utf8Size '[' = 1 ∧ Char.utf8Size ']' = 1 ∧ Char.utf8Size ',' = 1 :=
    ⟨rfl, rfl, rfl⟩
  have each : items.map (fun item => weigh Char.utf8Size (print item)) = items.map writtenSize :=
    List.map_congr_left fun item _ => (writtenSize_eq item).symm
  rw [writtenSize_eq]
  simp only [print, weigh_cons, weigh_append, weigh_nil, weigh_printItems, each, marks]
  omega

/-- A member is smaller than its object. -/
theorem writtenSize_member {members : List (String × Value String)} {name : String}
    {value : Value String} (member : (name, value) ∈ members) :
    writtenSize value ≤ writtenSize (.object members) := by
  have part : memberSize (name, value) ≤ (members.map memberSize).sum :=
    List.le_sum_of_mem (List.mem_map_of_mem member)
  rw [writtenSize_object]
  simp only [memberSize] at part
  omega

/-- An item is smaller than its array. -/
theorem writtenSize_item {items : List (Value String)} {value : Value String}
    (member : value ∈ items) : writtenSize value ≤ writtenSize (.array items) := by
  have part : writtenSize value ≤ (items.map writtenSize).sum :=
    List.le_sum_of_mem (List.mem_map_of_mem member)
  rw [writtenSize_array]
  omega

/-- Decimal digits take one byte each. -/
theorem writtenSize_natCast (value : Nat) :
    writtenSize (.number (Number.ofInt value)) = (Nat.toDigits 10 value).length := by
  have positive : ¬(value : Int) < 0 := by omega
  have digits : ∀ c ∈ Nat.toDigits 10 value, c.utf8Size = 1 := by
    intro c member
    have digit := Nat.isDigit_of_mem_toDigits (by decide) (by decide) member
    simp only [Char.isDigit, Bool.and_eq_true, decide_eq_true_eq] at digit
    exact Char.utf8Size_eq_one_iff.mpr (UInt32.le_trans digit.2 (by decide))
  rw [writtenSize_eq]
  simp only [print, printNumber, Number.ofInt, positive, decide_false, Bool.false_eq_true,
    ↓reduceIte, Int.natAbs_natCast, List.nil_append, List.append_nil]
  generalize Nat.toDigits 10 value = text at digits
  induction text with
  | nil => rfl
  | cons c rest ih =>
    rw [weigh_cons, digits c List.mem_cons_self,
      ih fun other member => digits other (List.mem_cons_of_mem _ member), List.length_cons]
    omega

/-- A number of 64 bits takes at most 20 bytes. -/
theorem writtenSize_uint64 (value : UInt64) : writtenSize (Codec.uint64.encode value) ≤ 20 := by
  change writtenSize (.number (Number.ofInt value.toNat)) ≤ 20
  rw [writtenSize_natCast, Nat.length_toDigits_le_iff (by decide) (by decide)]
  exact value.toNat_lt.trans (by decide)

/-- A number that grows by one needs at most one more digit. -/
theorem writtenSize_succ (value : Nat) :
    writtenSize (.number (Number.ofInt (value + 1 : Nat))) ≤
      writtenSize (.number (Number.ofInt value)) + 1 := by
  rw [writtenSize_natCast, writtenSize_natCast,
    Nat.length_toDigits_le_iff (by decide) (by omega)]
  have below : value < 10 ^ (Nat.toDigits 10 value).length :=
    (Nat.length_toDigits_le_iff (by decide) Nat.length_toDigits_pos).mp (le_refl _)
  calc value + 1 ≤ 10 ^ (Nat.toDigits 10 value).length := below
    _ < 10 ^ ((Nat.toDigits 10 value).length + 1) := Nat.pow_lt_pow_succ (by decide)

end QsolFed.Canonical
