import QsolFed.Library.Json.Codec

/-!
# Values in written form

A codec may read a value from more forms than it writes: a record from a list of its fields, a
name from an object. A form says which values are written; what is read from a value in this form
is written back as the same value, up to the order of members.
-/
namespace Json

variable {α β : Type}

/-- What a codec reads from values of a form is written back as these values, and everything that
is written has the form. -/
structure Writes (codec : Codec α) (form : Value String → Prop) : Prop where
  /-- What is read from a value of the form is written back. -/
  back : ∀ written value, codec.decode written = some value → form written →
    Reorders (codec.encode value) written
  /-- What is written has the form. -/
  form : ∀ value written, Reorders (codec.encode value) written → form written

/-- A value is written back exactly when it has the form. -/
theorem Writes.iff {codec : Codec α} {form : Value String → Prop} (writes : Writes codec form)
    {written : Value String} {value : α} (read : codec.decode written = some value) :
    Reorders (codec.encode value) written ↔ form written :=
  ⟨writes.form value written, writes.back written value read⟩

/-- Every value. -/
def Any : Value String → Prop := fun _ => True

/-- A text. -/
def IsText (value : Value String) : Prop := ∃ text, value = .string text

/-- An object whose members have given forms. -/
def IsRecord (forms : String → Value String → Prop) (value : Value String) : Prop :=
  ∃ members, value = .object members ∧ ∀ member ∈ members, forms member.1 member.2

/-- Strings are written as they are read. -/
theorem writes_string : Writes Codec.string Any where
  back written value read _ := by
    cases written with
    | string text =>
      obtain rfl := Option.some.inj read
      exact .string text
    | null | bool | number | array | object => cases read
  form _ _ _ := trivial

/-- The unit value is written as it is read. -/
theorem writes_unit : Writes Codec.unit Any where
  back written value read _ := by
    cases written with
    | null => exact .null
    | bool | number | string | array | object => cases read
  form _ _ _ := trivial

/-- Texts that may be absent are written as they are read. -/
theorem writes_nullable {codec : Codec α} {present : ∀ value, codec.encode value ≠ .null}
    (writes : Writes codec Any) : Writes (codec.nullable present) Any where
  back written value read _ := by
    by_cases absent : written = .null
    · subst absent
      obtain rfl := Option.some.inj read
      exact .null
    · have found : (codec.decode written).map some = some value := by
        cases written with
        | null => exact absurd rfl absent
        | bool | number | string | array | object => exact read
      obtain ⟨inner, decoded, rfl⟩ := Option.map_eq_some_iff.mp found
      exact writes.back written inner decoded trivial
  form _ _ _ := trivial

/-- A name that is read by `named` is the name of the result. -/
theorem name_of_named [DecidableEq α] {name : α → String} {all : List α} {text : String}
    {value : α} (found : Codec.named name all text = some value) : name value = text := by
  have holds := List.find?_some found
  exact of_decide_eq_true holds

/-- A name is written as a text. -/
theorem writes_enumeration [DecidableEq α] {name : α → String} {all : List α}
    {back : ∀ value, Codec.named name all (name value) = some value} :
    Writes (Codec.enumeration name all back) IsText where
  back written value read shape := by
    obtain ⟨text, rfl⟩ := shape
    have same : name value = text := name_of_named read
    change Reorders (.string (name value)) _
    rw [same]
    exact .string text
  form value written same := by
    cases same
    exact ⟨_, rfl⟩

/-- Unsigned integers are written as they are read. -/
theorem writes_uint64 : Writes Codec.uint64 Any where
  back written value read _ := by
    cases written with
    | number number =>
      obtain ⟨⟨negative, fraction, exponent, small⟩, same⟩ := Option.ite_none_right_eq_some.mp read
      obtain rfl := Option.some.inj same
      have back : Number.ofInt (UInt64.ofNat number.integer).toNat = number := by
        rw [UInt64.toNat_ofNat_of_lt' small]
        cases number
        simp only at negative fraction exponent
        subst negative fraction exponent
        rfl
      change Reorders (.number (Number.ofInt (UInt64.ofNat number.integer).toNat)) _
      rw [back]
      exact .number number
    | null | bool | string | array | object => cases read
  form _ _ _ := trivial

/-- Lists are written item by item. -/
theorem writes_list {codec : Codec α} (writes : Writes codec Any) :
    Writes (Codec.list codec) Any where
  back written values read _ := by
    cases written with
    | array items =>
      refine .array ?_
      have each : items.mapM codec.decode = some values := read
      clear read
      induction items generalizing values with
      | nil =>
        obtain rfl := Option.some.inj each
        exact .nil
      | cons item rest ih =>
        simp only [List.mapM_cons, Option.bind_eq_bind, Option.bind_eq_some_iff,
          Option.pure_def, Option.some.injEq] at each
        obtain ⟨value, decoded, others, more, rfl⟩ := each
        exact .cons (writes.back item value decoded trivial) (ih others trivial more)
    | null | bool | string | number | object => cases read
  form _ _ _ := trivial

/-- One of two shapes of one form is written as it is read. -/
theorem writes_untagged {left : Codec α} {right : Codec β}
    {apart : ∀ value written, Reorders (right.encode value) written → left.decode written = none}
    {form : Value String → Prop} (first : Writes left form) (second : Writes right form) :
    Writes (Codec.untagged left right apart) form where
  back written value read shape := by
    cases found : left.decode written with
    | some inner =>
      simp only [Codec.untagged, found] at read
      obtain rfl := Option.some.inj read
      exact first.back written inner found shape
    | none =>
      simp only [Codec.untagged, found] at read
      obtain ⟨inner, decoded, rfl⟩ := Option.map_eq_some_iff.mp read
      exact second.back written inner decoded shape
  form value written same := by
    cases value with
    | inl value => exact first.form value written same
    | inr value => exact second.form value written same

/-- A change of representation is written as what it is made of, when it can be undone. -/
theorem writes_iso {codec : Codec α} {pack : α → β} {unpack : β → α}
    {inverse : ∀ value, pack (unpack value) = value} {form : Value String → Prop}
    (undo : ∀ value, unpack (pack value) = value) (writes : Writes codec form) :
    Writes (codec.iso pack unpack inverse) form where
  back written value read shape := by
    obtain ⟨inner, decoded, rfl⟩ := Option.map_eq_some_iff.mp read
    change Reorders (codec.encode (unpack (pack inner))) written
    rw [undo]
    exact writes.back written inner decoded shape
  form value written same := writes.form (unpack value) written same

/-- What fields read from members of given forms is written back member by member. -/
structure WritesFields (fields : Fields α) (forms : String → Value String → Prop) : Prop where
  /-- Every field is found, and is written back. -/
  back : ∀ lookup value, fields.decode lookup = some value →
    (∀ name item, lookup name = some item → forms name item) →
    ∀ member ∈ fields.encode value, ∃ other, lookup member.1 = some other ∧
      Reorders member.2 other
  /-- What is written has the forms. -/
  form : ∀ value, ∀ member ∈ fields.encode value, ∀ other, Reorders member.2 other →
    forms member.1 other

/-- No fields write nothing. -/
theorem writes_nil {forms : String → Value String → Prop} : WritesFields Fields.nil forms where
  back _ _ _ _ _ listed := by cases listed
  form _ _ listed := by cases listed

/-- A field that must be present is read from the member of its name. -/
theorem decode_required {name : String} {codec : Codec β} {rest : Fields α}
    {lookup : String → Option (Value String)} {value : β × α} :
    (Fields.required name codec rest).decode lookup = some value ↔
      (∃ item, lookup name = some item ∧ codec.decode item = some value.1) ∧
        rest.decode lookup = some value.2 := by
  obtain ⟨head, tail⟩ := value
  cases found : lookup name with
  | none => simp [Fields.cons, found]
  | some item =>
    simp only [Fields.cons, found, bind, Option.bind_eq_some_iff, Option.some.injEq, Prod.mk.injEq]
    constructor
    · rintro ⟨first, read, last, more, rfl, rfl⟩
      exact ⟨⟨item, rfl, read⟩, more⟩
    · rintro ⟨⟨other, rfl, read⟩, more⟩
      exact ⟨head, read, tail, more, rfl, rfl⟩

/-- One more field that must be present. -/
theorem writes_cons {name : String} {codec : Codec β} {rest : Fields α}
    {form : Value String → Prop} {forms : String → Value String → Prop}
    (same : ∀ item, forms name item ↔ form item) (first : Writes codec form)
    (others : WritesFields rest forms) : WritesFields (Fields.required name codec rest) forms where
  back lookup value read shapes := by
    obtain ⟨⟨item, here, decoded⟩, more⟩ := decode_required.mp read
    intro member listed
    rcases List.mem_cons.mp listed with rfl | later
    · exact ⟨item, here, first.back item value.1 decoded ((same item).mp (shapes name item here))⟩
    · exact others.back lookup value.2 more shapes member later
  form value member listed other reorders := by
    rcases List.mem_cons.mp listed with rfl | later
    · exact (same other).mpr (first.form value.1 other reorders)
    · exact others.form value.2 member later other reorders

/-- A record is written as an object. -/
theorem writes_record {fields : Fields α} {distinct : fields.names.Nodup}
    {forms : String → Value String → Prop} (writes : WritesFields fields forms) :
    Writes (Codec.record fields distinct) (IsRecord forms) where
  back written value read shape := by
    obtain ⟨members, rfl, each⟩ := shape
    have known : (members.map Prod.fst).Nodup ∧ ∀ name ∈ members.map Prod.fst,
        name ∈ fields.names := by
      by_contra unknown
      rw [show (Codec.record fields distinct).decode (.object members) = none from
        if_neg unknown] at read
      cases read
    rw [Codec.decode_record known.1 known.2] at read
    have back := writes.back _ value read fun name item found =>
      each (name, item) (Entries.mem_of_find found)
    -- Every field that is written stands for the member of its name.
    have aligns : ∀ list : List (String × Value String),
        (∀ member ∈ list, ∃ other, Entries.find member.1 members = some other ∧
          Reorders member.2 other) →
        ∃ aligned : List (String × Value String), list.map Prod.fst = aligned.map Prod.fst ∧
          List.Forall₂ Reorders (list.map Prod.snd) (aligned.map Prod.snd) ∧
          ∀ member ∈ aligned, member ∈ members := by
      intro list found
      induction list with
      | nil => exact ⟨[], rfl, .nil, by simp⟩
      | cons head rest ih =>
        rw [List.forall_mem_cons] at found
        obtain ⟨other, here, same⟩ := found.1
        obtain ⟨aligned, keys, values, listed⟩ := ih found.2
        refine ⟨(head.1, other) :: aligned, by rw [List.map_cons, keys]; rfl, .cons same values, ?_⟩
        rw [List.forall_mem_cons]
        exact ⟨Entries.mem_of_find here, listed⟩
    obtain ⟨aligned, keys, values, listed⟩ := aligns _ back
    have once : (aligned.map Prod.fst).Nodup := by
      rw [← keys, fields.written]
      exact distinct
    have order : aligned.Perm members := by
      refine (List.perm_ext_iff_of_nodup (List.Nodup.of_map _ once)
        (List.Nodup.of_map _ known.1)).mpr fun member => ⟨listed member, fun there => ?_⟩
      have named : member.1 ∈ aligned.map Prod.fst := by
        rw [← keys, fields.written]
        exact known.2 _ (List.mem_map_of_mem there)
      obtain ⟨other, here, same⟩ := List.mem_map.mp named
      have found := Entries.find_of_mem known.1 (listed other here)
      rw [same, Entries.find_of_mem known.1 there] at found
      rw [show member = other from Prod.ext same.symm (Option.some.inj found)]
      exact here
    exact .object keys values order
  form value written same := by
    cases same with
    | object keys each order =>
      rename_i aligned others
      refine ⟨others, rfl, fun member listed => ?_⟩
      have form := writes.form value
      have there := order.mem_iff.mpr listed
      clear order listed
      have pairs : ∀ list aligned : List (String × Value String),
          list.map Prod.fst = aligned.map Prod.fst →
          List.Forall₂ Reorders (list.map Prod.snd) (aligned.map Prod.snd) →
          (∀ member ∈ list, ∀ other, Reorders member.2 other → forms member.1 other) →
          ∀ member ∈ aligned, forms member.1 member.2 := by
        intro list
        induction list with
        | nil =>
          intro aligned keys _ _ member listed
          rw [List.map_eq_nil_iff.mp keys.symm] at listed
          cases listed
        | cons head rest ih =>
          intro aligned keys values shapes member listed
          cases aligned with
          | nil => cases listed
          | cons first more =>
            obtain ⟨sameKey, otherKeys⟩ := List.cons.inj keys
            obtain ⟨sameValue, otherValues⟩ := List.forall₂_cons.mp values
            rw [List.forall_mem_cons] at shapes
            rcases List.mem_cons.mp listed with rfl | later
            · exact sameKey ▸ shapes.1 _ sameValue
            · exact ih more otherKeys otherValues shapes.2 member later
      exact pairs _ aligned keys each form member there

end Json
