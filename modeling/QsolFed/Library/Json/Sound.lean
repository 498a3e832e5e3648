import QsolFed.Library.Json.Codec

/-!
# Numbers of what a codec reads

A reader that keeps a whole value refuses a text with a number that it cannot hold. A codec only
reads texts in which every number is one of its own integers, so that whatever a codec reads is
also read as a whole value.
-/
namespace Json

section Numbers

variable {σ : Type}

mutual

/-- Every number of a value is accepted. -/
def Value.numbers (accepts : Number → Bool) : Value σ → Bool
  | .number value => accepts value
  | .array items => numbersItems accepts items
  | .object members => numbersMembers accepts members
  | .null | .bool _ | .string _ => true

/-- Every number of every item is accepted. -/
def Value.numbersItems (accepts : Number → Bool) : List (Value σ) → Bool
  | [] => true
  | item :: rest => item.numbers accepts && numbersItems accepts rest

/-- Every number of every member is accepted. -/
def Value.numbersMembers (accepts : Number → Bool) : List (σ × Value σ) → Bool
  | [] => true
  | (_, value) :: rest => value.numbers accepts && numbersMembers accepts rest

end

variable (accepts : Number → Bool)

/-- The numbers of a list of items are those of the items. -/
theorem numbersItems_iff (items : List (Value σ)) : Value.numbersItems accepts items = true ↔
    ∀ item ∈ items, item.numbers accepts = true := by
  induction items with
  | nil => simp [Value.numbersItems]
  | cons item rest ih => simp [Value.numbersItems, ih]

/-- The numbers of a list of members are those of their values. -/
theorem numbersMembers_iff (members : List (σ × Value σ)) :
    Value.numbersMembers accepts members = true ↔
      ∀ member ∈ members, member.2.numbers accepts = true := by
  induction members with
  | nil => simp [Value.numbersMembers]
  | cons member rest ih => simp [Value.numbersMembers, ih]

end Numbers

/-- Integers that fit a machine word are accepted. -/
def Whole (accepts : Number → Bool) : Prop := ∀ number : Number, number.fraction = [] →
  number.exponent = [] → number.integer < 2 ^ 64 → accepts number = true

/-- Whatever a codec reads has accepted numbers only. -/
def Codec.Reads {α : Type} (accepts : Number → Bool) (codec : Codec α) : Prop :=
  ∀ written value, codec.decode written = some value → written.numbers accepts = true

/-- Whatever the fields of a record read has accepted numbers only. -/
structure Fields.Reads {α : Type} (accepts : Number → Bool) (fields : Fields α) : Prop where
  /-- A value that is looked up by the name of a field. -/
  named : ∀ lookup value, fields.decode lookup = some value → ∀ name ∈ fields.names,
    ∀ item, lookup name = some item → item.numbers accepts = true
  /-- A value that comes in a sequence. -/
  listed : ∀ items value, fields.decodeItems items = some value →
    ∀ item ∈ items, item.numbers accepts = true

variable {accepts : Number → Bool} {α β : Type}

namespace Codec

/-- Strings have no numbers. -/
theorem string_reads : Codec.string.Reads accepts := by
  intro written value decoded
  cases written with
  | string => rfl
  | null | bool | number | array | object => cases decoded

/-- Truth values have no numbers. -/
theorem bool_reads : Codec.bool.Reads accepts := by
  intro written value decoded
  cases written with
  | bool => rfl
  | null | string | number | array | object => cases decoded

/-- Names have no numbers. -/
theorem enumeration_reads [DecidableEq α] {name : α → String} {all : List α}
    {back : ∀ value, named name all (name value) = some value} :
    (Codec.enumeration name all back).Reads accepts := by
  intro written value decoded
  cases written with
  | string => rfl
  | object members =>
    match members, decoded with
    | [(_, .null)], _ => rfl
  | null | bool | number | array => cases decoded

/-- Unsigned integers of 16 bits are whole. -/
theorem uint16_reads (whole : Whole accepts) : Codec.uint16.Reads accepts := by
  intro written value decoded
  cases written with
  | number number =>
    simp only [Codec.uint16, Option.ite_none_right_eq_some] at decoded
    obtain ⟨⟨-, fraction, exponent, small⟩, -⟩ := decoded
    exact whole number fraction exponent (small.trans (by decide))
  | null | bool | string | array | object => cases decoded

/-- Unsigned integers of 32 bits are whole. -/
theorem uint32_reads (whole : Whole accepts) : Codec.uint32.Reads accepts := by
  intro written value decoded
  cases written with
  | number number =>
    simp only [Codec.uint32, Option.ite_none_right_eq_some] at decoded
    obtain ⟨⟨-, fraction, exponent, small⟩, -⟩ := decoded
    exact whole number fraction exponent (small.trans (by decide))
  | null | bool | string | array | object => cases decoded

/-- Signed integers of 64 bits are whole. -/
theorem int64_reads (whole : Whole accepts) : Codec.int64.Reads accepts := by
  intro written value decoded
  cases written with
  | number number =>
    simp only [Codec.int64, Option.ite_none_right_eq_some] at decoded
    obtain ⟨⟨fraction, exponent⟩, decoded⟩ := decoded
    refine whole number fraction exponent ?_
    split_ifs at decoded with negative small small
    · omega
    · omega
  | null | bool | string | array | object => cases decoded

/-- What is absent has no numbers. -/
theorem nullable_reads {codec : Codec α} {present : ∀ value, codec.encode value ≠ .null}
    (reads : codec.Reads accepts) : (codec.nullable present).Reads accepts := by
  intro written value decoded
  cases written with
  | null => rfl
  | bool | number | string | array | object =>
    obtain ⟨inner, read, -⟩ := Option.map_eq_some_iff.mp decoded
    exact reads _ _ read

/-- A list reads each item. -/
theorem list_reads {codec : Codec α} (reads : codec.Reads accepts) :
    codec.list.Reads accepts := by
  intro written values decoded
  cases written with
  | array items =>
    rw [Value.numbers, numbersItems_iff]
    change items.mapM codec.decode = some values at decoded
    induction items generalizing values with
    | nil => simp
    | cons item rest ih =>
      rw [List.mapM_cons] at decoded
      simp only [bind, Option.bind_eq_some_iff] at decoded
      obtain ⟨first, read, others, more, -⟩ := decoded
      rw [List.forall_mem_cons]
      exact ⟨reads _ _ read, ih others more⟩
  | null | bool | number | string | object => cases decoded

/-- A change of representation reads the same. -/
theorem iso_reads {codec : Codec α} {pack : α → β} {unpack : β → α}
    {inverse : ∀ value, pack (unpack value) = value} (reads : codec.Reads accepts) :
    (codec.iso pack unpack inverse).Reads accepts := by
  intro written value decoded
  obtain ⟨inner, read, -⟩ := Option.map_eq_some_iff.mp decoded
  exact reads _ _ read

end Codec

namespace Fields

/-- No fields read nothing. -/
theorem nil_reads : Fields.nil.Reads accepts where
  named := fun _ _ _ _ member => by cases member
  listed := by
    intro items value decoded
    cases items with
    | nil => simp
    | cons => cases decoded

/-- One more field reads its value. -/
theorem cons_reads {name : String} {codec : Codec β} {absent : Option β} {rest : Fields α}
    (first : codec.Reads accepts) (others : rest.Reads accepts) :
    (Fields.cons name codec absent rest).Reads accepts where
  named := by
    intro lookup value decoded other member item found
    have parts : (∀ item, lookup name = some item → ∃ head, codec.decode item = some head) ∧
        ∃ tail, rest.decode lookup = some tail := by
      simp only [Fields.cons, bind] at decoded
      cases looked : lookup name with
      | none =>
        simp only [looked, Option.bind_eq_some_iff] at decoded
        obtain ⟨_, -, tail, more, -⟩ := decoded
        exact ⟨by simp, tail, more⟩
      | some value =>
        simp only [looked, Option.bind_eq_some_iff] at decoded
        obtain ⟨head, read, tail, more, -⟩ := decoded
        refine ⟨fun item same => ?_, tail, more⟩
        exact ⟨head, Option.some.inj same ▸ read⟩
    obtain ⟨reads, tail, more⟩ := parts
    rcases List.mem_cons.mp member with rfl | later
    · obtain ⟨head, read⟩ := reads item found
      exact first _ _ read
    · exact others.named lookup tail more other later item found
  listed := by
    intro items value decoded
    cases items with
    | nil => cases decoded
    | cons item items =>
      simp only [Fields.cons, bind, Option.bind_eq_some_iff] at decoded
      obtain ⟨head, read, tail, more, -⟩ := decoded
      rw [List.forall_mem_cons]
      exact ⟨first _ _ read, others.listed items tail more⟩

end Fields

/-- A record reads its fields, and nothing else. -/
theorem Codec.record_reads {fields : Fields α} {distinct : fields.names.Nodup}
    (reads : fields.Reads accepts) : (Codec.record fields distinct).Reads accepts := by
  intro written value decoded
  cases written with
  | object members =>
    simp only [Codec.record, Option.ite_none_right_eq_some] at decoded
    obtain ⟨⟨once, known⟩, read⟩ := decoded
    rw [Value.numbers, numbersMembers_iff]
    intro member listed
    have name : member.1 ∈ fields.names := known _ (List.mem_map_of_mem listed)
    exact reads.named _ _ read _ name _ (Entries.find_of_mem once listed)
  | array items =>
    rw [Value.numbers, numbersItems_iff]
    exact reads.listed items value decoded
  | null | bool | number | string => cases decoded

end Json
