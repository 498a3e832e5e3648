import Mathlib.Data.Bool.AllAny
import Mathlib.Data.String.Basic

/-!
# The bytes of a text

Texts are compared, measured and searched by their UTF-8 bytes, while they are written and split
by characters. Characters of ASCII are their own single byte, and a byte below 128 only occurs
as such a character, so that the two views agree wherever a format is restricted to ASCII.
-/

/-- Byte arrays are compared by their bytes, with the same procedure in every module. -/
instance (priority := high) comparedBytes : DecidableEq ByteArray := ByteArray.instDecidableEq

namespace Text

/-- The UTF-8 bytes of a text. -/
def bytes (text : String) : List UInt8 := text.toByteArray.data.toList

/-- A character of ASCII. -/
def Ascii (c : Char) : Prop := c.toNat < 0x80

instance (c : Char) : Decidable (Ascii c) := inferInstanceAs (Decidable (_ < _))

/-- The bytes of a text are the encoding of that text. -/
theorem fromUTF8_toByteArray (text : String) : String.fromUTF8? text.toByteArray = some text := by
  simp only [String.fromUTF8?, text.isValidUTF8, ↓reduceDIte]
  rfl

/-- The bytes of a text as those of its characters. -/
theorem bytes_eq (text : String) : bytes text = text.toList.flatMap String.utf8EncodeChar := by
  rw [bytes, ← String.utf8Encode_toList]
  simp [List.utf8Encode]

/-- The bytes of a text made of characters. -/
theorem bytes_ofList (characters : List Char) :
    bytes (String.ofList characters) = characters.flatMap String.utf8EncodeChar := by
  rw [bytes_eq, String.toList_ofList]

/-- The size of a text is the number of its bytes. -/
theorem length_bytes (text : String) : (bytes text).length = text.utf8ByteSize := by
  rfl

/-- A text has no more characters than bytes. -/
theorem length_toList_le (text : String) : text.toList.length ≤ text.utf8ByteSize := by
  rw [← length_bytes, bytes_eq]
  induction text.toList with
  | nil => exact le_refl 0
  | cons c rest ih =>
    have positive : 0 < (String.utf8EncodeChar c).length := by
      rw [String.length_utf8EncodeChar]
      exact Char.utf8Size_pos c
    rw [List.flatMap_cons, List.length_append, List.length_cons]
    omega

/-- The bytes of a joined text. -/
theorem bytes_append (left right : String) : bytes (left ++ right) = bytes left ++ bytes right := by
  simp [bytes]

/-- Texts with the same bytes are equal. -/
theorem bytes_injective {left right : String} (same : bytes left = bytes right) : left = right := by
  rw [← String.toByteArray_inj]
  apply ByteArray.ext
  apply Array.ext'
  exact same

/-- A character of ASCII is one byte. -/
theorem utf8EncodeChar_ascii {c : Char} (ascii : Ascii c) :
    String.utf8EncodeChar c = [c.val.toUInt8] := by
  have narrow : c.val ≤ 0x7f := by
    rw [UInt32.le_iff_toNat_le]
    exact Nat.le_of_lt_succ ascii
  exact String.utf8EncodeChar_eq_singleton (Char.utf8Size_eq_one_iff.mpr narrow)

/-- The value of the byte of an ASCII character. -/
theorem toNat_byte {c : Char} (ascii : Ascii c) : c.val.toUInt8.toNat = c.toNat := by
  change c.toNat % 256 = c.toNat
  unfold Ascii at ascii
  omega

/-- The bytes of a text of ASCII characters. -/
theorem bytes_ofList_ascii {characters : List Char} (ascii : ∀ c ∈ characters, Ascii c) :
    bytes (String.ofList characters) = characters.map fun c => c.val.toUInt8 := by
  rw [bytes_ofList]
  induction characters with
  | nil => rfl
  | cons c rest ih =>
    rw [List.flatMap_cons, utf8EncodeChar_ascii (ascii c (by simp)),
      ih fun other member => ascii other (by simp [member])]
    rfl

/-- An ASCII character of a text is one of its bytes. -/
theorem byte_mem_of_mem {c : Char} {text : String} (member : c ∈ text.toList) (ascii : Ascii c) :
    c.val.toUInt8 ∈ bytes text := by
  rw [bytes_eq, List.mem_flatMap]
  exact ⟨c, member, by simp [utf8EncodeChar_ascii ascii]⟩

/-- The last byte of a character beyond ASCII is beyond ASCII. -/
theorem getLast?_wide {c : Char} (wide : ¬Ascii c) :
    ∃ byte, (String.utf8EncodeChar c).getLast? = some byte ∧ 0x80 ≤ byte.toNat := by
  have large : ¬c.val.toNat ≤ 0x7f := fun narrow => wide (Nat.lt_succ_of_le narrow)
  refine ⟨UInt8.ofNat (c.val.toNat % 0x40 + 0x80), ?_, ?_⟩
  · simp only [String.utf8EncodeChar, large, ↓reduceIte]
    split_ifs <;> simp
  · rw [UInt8.toNat_ofNat']
    omega

/-- Every character beyond ASCII has a byte beyond ASCII. -/
theorem exists_wide_byte {c : Char} (wide : ¬Ascii c) :
    ∃ byte ∈ String.utf8EncodeChar c, 0x80 ≤ byte.toNat := by
  obtain ⟨byte, last, large⟩ := getLast?_wide wide
  exact ⟨byte, List.mem_of_getLast? last, large⟩

/-- A text ends with an ASCII character exactly when its bytes end with the byte of it. -/
theorem getLast?_bytes {text : String} {c : Char} (ascii : Ascii c) :
    (bytes text).getLast? = some c.val.toUInt8 ↔ text.toList.getLast? = some c := by
  rw [bytes_eq]
  rcases List.eq_nil_or_concat text.toList with empty | ⟨before, last, whole⟩
  · simp [empty]
  · rw [whole, List.concat_eq_append, List.flatMap_append, List.flatMap_singleton,
      List.getLast?_concat, Option.some.injEq]
    by_cases narrow : Ascii last
    · rw [utf8EncodeChar_ascii narrow, List.getLast?_concat, Option.some.injEq]
      refine ⟨fun same => Char.toNat_inj.mp ?_, fun same => same ▸ rfl⟩
      rw [← toNat_byte narrow, ← toNat_byte ascii, same]
    · obtain ⟨byte, ends, large⟩ := getLast?_wide narrow
      refine ⟨fun same => ?_, fun same => absurd (same ▸ ascii) narrow⟩
      rw [List.getLast?_append, ends, Option.some_or, Option.some.injEq] at same
      rw [same, toNat_byte ascii] at large
      exact absurd ascii (not_lt.mpr large)

/-- A text whose bytes are below 128 has ASCII characters. -/
theorem ascii_of_bytes {text : String} (narrow : ∀ byte ∈ bytes text, byte.toNat < 0x80) :
    ∀ c ∈ text.toList, Ascii c := by
  intro c member
  by_contra wide
  obtain ⟨byte, listed, large⟩ := exists_wide_byte wide
  have := narrow byte (by
    rw [bytes_eq, List.mem_flatMap]
    exact ⟨c, member, listed⟩)
  omega

/-- What does not separate is kept in one of the parts that a list is split into. -/
theorem mem_splitOnP {α : Type} (separates : α → Bool) {item : α} {items : List α}
    (member : item ∈ items) (kept : separates item = false) :
    ∃ segment ∈ items.splitOnP separates, item ∈ segment := by
  induction items with
  | nil => cases member
  | cons head rest ih =>
    rw [List.splitOnP_cons_eq_if_modifyHead]
    rcases List.mem_cons.mp member with rfl | later
    · rw [if_neg (by simp [kept])]
      cases shape : rest.splitOnP separates with
      | nil => exact absurd shape (List.splitOnP_ne_nil _ _)
      | cons first others => exact ⟨item :: first, by simp, by simp⟩
    · obtain ⟨segment, listed, inside⟩ := ih later
      split_ifs
      · exact ⟨segment, List.mem_cons_of_mem _ listed, inside⟩
      · cases shape : rest.splitOnP separates with
        | nil => exact absurd shape (List.splitOnP_ne_nil _ _)
        | cons first others =>
          rw [shape] at listed
          rcases List.mem_cons.mp listed with rfl | other
          · exact ⟨head :: segment, by simp, List.mem_cons_of_mem _ inside⟩
          · exact ⟨segment, by simp [other], inside⟩

end Text
