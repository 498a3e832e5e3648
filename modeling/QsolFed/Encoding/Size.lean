import QsolFed.Canonical.Size
import QsolFed.Encoding
import Mathlib.Algebra.Order.BigOperators.Group.List

/-!
# The size of encoded data

No character of the grammars of the protocol is escaped, so that a text is written with its own
bytes between quotes.
-/
namespace QsolFed

open Json Canonical

/-- A byte of a character that is written as itself. -/
def Unescaped (b : UInt8) : Prop := Wire.Visible b ∧ b ≠ Wire.byte '"' ∧ b ≠ Wire.byte '\\'

instance (b : UInt8) : Decidable (Unescaped b) := inferInstanceAs (Decidable (_ ∧ _))

/-- A digit is written as itself. -/
theorem unescaped_digit {b : UInt8} (digit : Wire.isAsciiDigit b = true) : Unescaped b := by
  refine ⟨Wire.visible_digit digit, ?_, ?_⟩
  · rintro rfl
    exact absurd digit (by decide)
  · rintro rfl
    exact absurd digit (by decide)

/-- A hexadecimal digit is written as itself. -/
theorem unescaped_lowerHex {b : UInt8} (hex : Wire.isLowerHex b = true) : Unescaped b := by
  refine ⟨Wire.visible_lowerHex hex, ?_, ?_⟩
  · rintro rfl
    exact absurd hex (by decide)
  · rintro rfl
    exact absurd hex (by decide)

/-- A visible character other than the quote and the backslash is written as itself. -/
theorem escapeChar_unescaped {c : Char} (ascii : Text.Ascii c)
    (plain : Unescaped c.val.toUInt8) : escapeChar c = [c] := by
  obtain ⟨⟨low, -⟩, notQuote, notBackslash⟩ := plain
  rw [Text.toNat_byte ascii] at low
  have quote : c ≠ '"' := fun same => notQuote (same ▸ rfl)
  have backslash : c ≠ '\\' := fun same => notBackslash (same ▸ rfl)
  have apart : ∀ code, code < 0x20 → c ≠ Char.ofNat code := by
    intro code small same
    have number : (Char.ofNat code).toNat < 0x20 := by
      have all : ∀ code < 0x20, (Char.ofNat code).toNat < 0x20 := by decide
      exact all code small
    rw [← same] at number
    omega
  rw [escapeChar, if_neg quote, if_neg backslash, if_neg (apart 8 (by decide)),
    if_neg (apart 12 (by decide)), if_neg (apart 10 (by decide)), if_neg (apart 13 (by decide)),
    if_neg (apart 9 (by decide)), if_neg (by omega)]

/-- A text of such characters takes its own bytes and two quotes. -/
theorem writtenSize_string {text : String} (plain : ∀ b ∈ Text.bytes text, Unescaped b) :
    writtenSize (.string text) = (Text.bytes text).length + 2 := by
  have ascii := Text.ascii_of_bytes fun b member => (plain b member).1.2
  have same : text.toList.flatMap escapeChar = text.toList := by
    have each : ∀ c ∈ text.toList, escapeChar c = [c] := fun c member =>
      escapeChar_unescaped (ascii c member) (plain _ (Text.byte_mem_of_mem member (ascii c member)))
    generalize text.toList = characters at each
    induction characters with
    | nil => rfl
    | cons c rest ih =>
      rw [List.flatMap_cons, each c List.mem_cons_self,
        ih fun other member => each other (List.mem_cons_of_mem _ member)]
      rfl
  have quote : Char.utf8Size '"' = 1 := rfl
  have size : text.utf8ByteSize = weigh Char.utf8Size text.toList := by
    rw [← utf8ByteSize_ofList, String.ofList_toList]
  rw [writtenSize_eq, print, printText, same, Text.length_bytes, size]
  simp only [weigh_cons, weigh_append, weigh_nil, quote]
  omega

/-- A timestamp takes 20 bytes and two quotes. -/
theorem writtenSize_timestamp {text : String} (shape : Wire.isWireTimestamp text = true) :
    writtenSize (.string text) = 22 := by
  have plain := Wire.forall_bytes_of_wireTimestamp (fun _ => unescaped_digit)
    (List.all_iff_forall_prop.mp (by decide) : ∀ b ∈ Text.bytes "-T:Z", Unescaped b) shape
  rw [writtenSize_string plain, Wire.wireTimestamp_length shape]

/-- A reference takes 71 bytes and two quotes. -/
theorem writtenSize_sha256Ref {text : String} (shape : Wire.isSha256Ref text = true) :
    writtenSize (.string text) = 73 := by
  have plain : ∀ b ∈ Text.bytes text, Unescaped b := by
    have parts := shape
    simp only [Wire.isSha256Ref, Bool.and_eq_true, List.all_eq_true] at parts
    intro b member
    rcases Wire.mem_of_prefix parts.1.2 member with mark | digit
    · exact (List.all_iff_forall_prop.mp (by decide) : ∀ b ∈ Text.bytes "sha256:", Unescaped b) b mark
    · exact unescaped_lowerHex (parts.2 b digit)
  rw [writtenSize_string plain, Wire.sha256Ref_length shape]

/-- A lowercase letter is written as itself. -/
theorem unescaped_lowercase {b : UInt8} (letter : Wire.isAsciiLowercase b = true) :
    Unescaped b := by
  refine ⟨Wire.visible_lowercase letter, ?_, ?_⟩
  · rintro rfl
    exact absurd letter (by decide)
  · rintro rfl
    exact absurd letter (by decide)

/-- The name of a node has at most 137 bytes, none of which is escaped. -/
theorem nodeId_bytes {text : String} (shape : Wire.isNodeId text = true) :
    (Text.bytes text).length ≤ 137 ∧ ∀ b ∈ Text.bytes text, Unescaped b := by
  simp only [Wire.isNodeId, Bool.and_eq_true] at shape
  obtain ⟨starts, tail⟩ := shape
  split at tail
  · cases tail
  next head rest split =>
    simp only [Bool.and_eq_true, Bool.or_eq_true, decide_eq_true_eq, List.all_eq_true] at tail
    obtain ⟨⟨short, -⟩, each⟩ := tail
    have length : (Text.bytes text).length ≤ 9 + 128 := by
      have count := congrArg List.length split
      rw [List.length_drop] at count
      omega
    have mark : ∀ b ∈ Text.bytes "fed:qsol:", Unescaped b :=
      List.all_iff_forall_prop.mp (by decide)
    refine ⟨length, fun b member => ?_⟩
    rcases Wire.mem_of_prefix starts member with early | later
    · exact mark b early
    · rw [show (Text.bytes "fed:qsol:").length = 9 from rfl, split] at later
      rcases each b later with (((letter | digit) | rfl) | rfl) | rfl
      · exact unescaped_lowercase letter
      · exact unescaped_digit digit
      · decide
      · decide
      · decide

/-- The name of a node takes at most 137 bytes and two quotes. -/
theorem writtenSize_nodeId {text : String} (shape : Wire.isNodeId text = true) :
    writtenSize (.string text) ≤ 139 := by
  obtain ⟨length, plain⟩ := nodeId_bytes shape
  rw [writtenSize_string plain]
  omega

/-! ## Small values -/

/-- A value is plain and its written form has at most so many bytes. -/
def Small (bound : Nat) (value : Value String) : Prop := Plain value ∧ writtenSize value ≤ bound

/-- A truth value is small. -/
theorem small_bool (value : Bool) : Small 5 (.bool value) := by
  refine ⟨trivial, ?_⟩
  cases value <;> decide

/-- A text that is checked to be plain is as small as its bytes. -/
theorem small_text {text : String} {bound : Nat} (checked : isPlainText text = true)
    (short : 6 * text.utf8ByteSize + 2 ≤ bound) : Small bound (.string text) :=
  ⟨plainText_of_check checked, (size_writtenBytes_le _).trans short⟩

/-- A reference is small. -/
theorem small_ref {text : String} (shape : Wire.isSha256Ref text = true) :
    Small 73 (.string text) :=
  ⟨plainText_of_sha256Ref shape, (writtenSize_sha256Ref shape).le⟩

/-- The name of a node is small. -/
theorem small_node {text : String} (shape : Wire.isNodeId text = true) :
    Small 139 (.string text) :=
  ⟨plainText_of_nodeId shape, writtenSize_nodeId shape⟩

/-- A timestamp is small. -/
theorem small_timestamp {text : String} (shape : Wire.isWireTimestamp text = true) :
    Small 22 (.string text) :=
  ⟨plainText_of_wireTimestamp shape, (writtenSize_timestamp shape).le⟩

/-- A value that may be absent is as small as the value. -/
theorem small_nullable {α : Type} {codec : Codec α} {present : ∀ value, codec.encode value ≠ .null}
    {value : Option α} {bound : Nat} (wide : 4 ≤ bound)
    (each : ∀ some_ ∈ value, Small bound (codec.encode some_)) :
    Small bound ((codec.nullable present).encode value) := by
  cases value with
  | none => exact ⟨trivial, wide⟩
  | some value => exact each value rfl

/-- A text of characters that are written as themselves is as small as its bytes. -/
theorem small_unescaped {text : String} {bound : Nat}
    (plain : ∀ b ∈ Text.bytes text, Unescaped b) (short : (Text.bytes text).length ≤ bound)
    (fits : bound ≤ maxStringUtf8) : Small (bound + 2) (.string text) := by
  refine ⟨plainText_of_bytes (fun b member => (plain b member).1.2) (short.trans fits), ?_⟩
  rw [writtenSize_string plain]
  omega

/-- Few small items make a small array. -/
theorem small_array {items : List (Value String)} {count bound : Nat} (few : items.length ≤ count)
    (fits : count ≤ maxArrayItems) (each : ∀ item ∈ items, Small bound item) :
    Small (count * (bound + 1) + 2) (.array items) := by
  refine ⟨⟨few.trans fits, (plainItems_iff _).mpr fun item listed => (each item listed).1⟩, ?_⟩
  have total : (items.map writtenSize).sum ≤ items.length * bound := by
    have sizes := List.sum_le_card_nsmul (items.map writtenSize) bound (by
      intro size member
      obtain ⟨item, listed, rfl⟩ := List.mem_map.mp member
      exact (each item listed).2)
    simpa using sizes
  have most : items.length * bound ≤ count * bound := Nat.mul_le_mul_right _ few
  rw [writtenSize_array, Nat.mul_add]
  omega

/-- Members with these names and bounds make an object within a bound. -/
def smallShape (shape : List (String × Nat)) (bound : Nat) : Bool :=
  shape.length ≤ maxObjectMembers && (shape.map Prod.fst).Nodup &&
    (shape.all fun entry => isPlainText entry.1) &&
    (shape.map fun entry => 6 * entry.1.utf8ByteSize + 4 + entry.2).sum + 2 ≤ bound

/-- An object of small members is small. -/
theorem small_object {shape : List (String × Nat)} {members : List (String × Value String)}
    {bound : Nat} (checked : smallShape shape bound = true)
    (each : List.Forall₂ (fun entry member => entry.1 = member.1 ∧ Small entry.2 member.2) shape
      members) : Small bound (.object members) := by
  simp only [smallShape, Bool.and_eq_true, decide_eq_true_eq, List.all_eq_true] at checked
  obtain ⟨⟨⟨few, distinct⟩, names⟩, total⟩ := checked
  have keys : shape.map Prod.fst = members.map Prod.fst := by
    clear few distinct names total
    induction each with
    | nil => rfl
    | cons same rest ih => simp only [List.map_cons, same.1, ih]
  have length : shape.length = members.length := each.length_eq
  constructor
  · refine ⟨length ▸ few, keys ▸ distinct, ?_⟩
    clear few distinct total keys length
    induction each with
    | nil => trivial
    | cons same rest ih =>
      have name := names _ List.mem_cons_self
      rw [same.1] at name
      exact ⟨plainText_of_check name, same.2.1,
        ih fun other listed => names other (List.mem_cons_of_mem _ listed)⟩
  · have sizes : (members.map memberSize).sum + members.length ≤
        (shape.map fun entry => 6 * entry.1.utf8ByteSize + 4 + entry.2).sum := by
      clear few distinct names total keys length
      induction each with
      | nil => exact le_refl _
      | @cons entry member _ _ same rest ih =>
        have size := same.2.2
        have name := weigh_printText member.1
        rw [← same.1] at name
        simp only [List.map_cons, List.sum_cons, List.length_cons, memberSize, ← same.1]
        omega
    rw [writtenSize_object]
    omega

end QsolFed
