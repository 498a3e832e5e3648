import QsolFed.Encoding.Size

/-!
# How decoded data grows

Data may be encoded in a shorter way than the one that a codec writes: a record as a sequence
without the names of its fields, or with fields left out. Written again it grows at most by the
names that were missing, so a bound for the bytes that were read gives a bound for the bytes that
are written.
-/
namespace QsolFed

open Checked Json Canonical

/-- Data written again takes at most some bytes more than what it was read from. -/
def Grows {α : Type} (codec : Codec α) (more : Nat) : Prop :=
  ∀ written value, codec.decode written = some value →
    writtenSize (codec.encode value) ≤ writtenSize written + more

/-- A bound may be larger. -/
theorem Grows.mono {α : Type} {codec : Codec α} {more most : Nat} (grows : Grows codec more)
    (below : more ≤ most) : Grows codec most := fun written value decoded =>
  (grows written value decoded).trans (Nat.add_le_add_left below _)

/-- A string is written as it was read. -/
theorem grows_string : Grows Codec.string 0 := by
  intro written value decoded
  cases written with
  | string text =>
    cases decoded
    exact Nat.le_add_right _ _
  | null | bool | number | array | object => cases decoded

/-- The unit is written as it was read. -/
theorem grows_unit : Grows Codec.unit 0 := by
  intro written value decoded
  cases written with
  | null => exact Nat.le_add_right _ _
  | bool | number | string | array | object => cases decoded

/-- A number is written as it was read. -/
theorem grows_uint64 : Grows Codec.uint64 0 := by
  intro written value decoded
  cases written with
  | number number =>
    simp only [Codec.uint64, Option.ite_none_right_eq_some, Option.some.injEq] at decoded
    obtain ⟨⟨positive, fraction, exponent, small⟩, rfl⟩ := decoded
    have back : (UInt64.ofNat number.integer).toNat = number.integer := by
      simpa using Nat.mod_eq_of_lt small
    have same : Number.ofInt (UInt64.ofNat number.integer).toNat = number := by
      rw [back]
      cases number with
      | mk negative integer fractionDigits exponentDigits =>
        simp only at positive fraction exponent
        subst positive fraction exponent
        simp [Number.ofInt]
    change writtenSize (.number (Number.ofInt (UInt64.ofNat number.integer).toNat)) ≤ _
    rw [same]
    exact Nat.le_add_right _ _
  | null | bool | string | array | object => cases decoded

/-- The value that has a name has that name. -/
theorem named_ok {α : Type} [DecidableEq α] {name : α → String} {all : List α} {text : String}
    {value : α} (found : Codec.named name all text = some value) : name value = text := by
  have listed : all.find? (fun value => decide (name value = text)) = some value := found
  simpa using List.find?_some listed

/-- A name is written no longer than it was read. -/
theorem grows_enumeration {α : Type} [DecidableEq α] (name : α → String) (all : List α)
    (back : ∀ value, Codec.named name all (name value) = some value) :
    Grows (Codec.enumeration name all back) 0 := by
  intro written value decoded
  cases written with
  | string text =>
    have same : name value = text := named_ok decoded
    change writtenSize (.string (name value)) ≤ _
    rw [same]
    exact Nat.le_add_right _ _
  | object members =>
    match members, decoded with
    | [(text, .null)], decoded =>
      have same : name value = text := named_ok decoded
      have size : memberSize (text, .null) ≤ writtenSize (.object [(text, .null)]) := by
        rw [writtenSize_object]
        simp
      have short : writtenSize (.string text) ≤ memberSize (text, .null) := by
        rw [writtenSize_eq]
        change weigh Char.utf8Size (printText text) ≤
          weigh Char.utf8Size (printText text) + 1 + writtenSize .null
        omega
      change writtenSize (.string (name value)) ≤ _
      rw [same]
      exact (short.trans size).trans (Nat.le_add_right _ _)
  | null | bool | number | array => cases decoded

/-- A value or null grows as the value does. -/
theorem grows_nullable {α : Type} {codec : Codec α} {more : Nat}
    {present : ∀ value, codec.encode value ≠ .null} (grows : Grows codec more) :
    Grows (codec.nullable present) more := by
  intro written value decoded
  cases written with
  | null =>
    cases decoded
    exact Nat.le_add_right _ _
  | bool | number | string | array | object =>
    obtain ⟨inner, read, rfl⟩ := Option.map_eq_some_iff.mp decoded
    exact grows _ inner read

/-- A sequence does not grow when its items do not. -/
theorem grows_list {α : Type} {codec : Codec α} (grows : Grows codec 0) : Grows codec.list 0 := by
  intro written values decoded
  cases written with
  | array items =>
    change items.mapM codec.decode = some values at decoded
    have sizes : values.length = items.length ∧
        ((values.map codec.encode).map writtenSize).sum ≤ (items.map writtenSize).sum := by
      induction items generalizing values with
      | nil =>
        cases decoded
        exact ⟨rfl, le_rfl⟩
      | cons item rest ih =>
        rw [List.mapM_cons] at decoded
        obtain ⟨first, here, tail⟩ := Option.bind_eq_some_iff.mp decoded
        obtain ⟨others, more, same⟩ := Option.bind_eq_some_iff.mp tail
        cases same
        obtain ⟨length, sum⟩ := ih others more
        have head := grows item first here
        simp only [List.map_cons, List.sum_cons, List.length_cons]
        omega
    change writtenSize (.array _) ≤ _
    rw [writtenSize_array, writtenSize_array, List.length_map, sizes.1]
    omega
  | null | bool | number | string | object => cases decoded

/-- Changing representation changes no sizes. -/
theorem grows_iso {α β : Type} {codec : Codec α} {more : Nat} {pack : α → β} {unpack : β → α}
    {inverse : ∀ value, pack (unpack value) = value} (back : ∀ value, unpack (pack value) = value)
    (grows : Grows codec more) : Grows (codec.iso pack unpack inverse) more := by
  intro written value decoded
  obtain ⟨inner, read, rfl⟩ := Option.map_eq_some_iff.mp decoded
  change writtenSize (codec.encode (unpack (pack inner))) ≤ _
  rw [back]
  exact grows written inner read

/-! ## Records -/

/-- The size of the member with a name, if there is one. -/
def lookupSize (lookup : String → Option (Value String)) (name : String) : Nat :=
  (lookup name).elim 0 fun item => memberSize (name, item)

/-- The fields of a record written again take at most some bytes more than what they were read
from. -/
structure FieldsGrow {α : Type} (fields : Fields α) (more : Nat) : Prop where
  /-- When they are looked up by name. -/
  byName : ∀ lookup value, fields.decode lookup = some value →
    ((fields.encode value).map memberSize).sum ≤
      (fields.names.map (lookupSize lookup)).sum + more
  /-- When they come as a sequence. -/
  bySequence : ∀ items value, fields.decodeItems items = some value →
    items.length = fields.names.length ∧
      ((fields.encode value).map memberSize).sum ≤ (items.map writtenSize).sum + more

/-- No fields take no bytes. -/
theorem fieldsGrow_nil : FieldsGrow Fields.nil 0 where
  byName _ _ _ := Nat.zero_le _
  bySequence items value decoded := by
    cases items with
    | nil => exact ⟨rfl, Nat.zero_le _⟩
    | cons => cases decoded

/-- One more field takes its name and the growth of its value. -/
theorem fieldsGrow_cons {α β : Type} {name : String} {codec : Codec β} {absent : Option β}
    {rest : Fields α} {first others missing : Nat} (grows : Grows codec first)
    (small : ∀ value ∈ absent, writtenSize (codec.encode value) ≤ missing)
    (more : FieldsGrow rest others) :
    FieldsGrow (Fields.cons name codec absent rest)
      (weigh Char.utf8Size (printText name) + 1 + missing + first + others) where
  byName lookup value decoded := by
    have read : ∃ head last, (lookup name).elim absent codec.decode = some head ∧
        rest.decode lookup = some last ∧ (head, last) = value := by
      simp only [Fields.cons, Option.bind_eq_bind] at decoded
      cases found : lookup name with
      | some item =>
        simp only [found, Option.bind_eq_some_iff, Option.some.injEq] at decoded
        obtain ⟨head, here, last, later, same⟩ := decoded
        exact ⟨head, last, here, later, same⟩
      | none =>
        simp only [found, Option.bind_eq_some_iff, Option.some.injEq] at decoded
        obtain ⟨head, here, last, later, same⟩ := decoded
        exact ⟨head, last, here, later, same⟩
    obtain ⟨head, last, here, later, rfl⟩ := read
    have rests := more.byName lookup last later
    have heads : writtenSize (codec.encode head) ≤
        (lookup name).elim 0 writtenSize + missing + first := by
      cases found : lookup name with
      | some item =>
        rw [found] at here
        have grown := grows item head here
        simp only [Option.elim_some]
        omega
      | none =>
        rw [found] at here
        have default := small head here
        simp only [Option.elim_none]
        omega
    have looked : (lookup name).elim 0 writtenSize ≤ lookupSize lookup name := by
      unfold lookupSize
      cases lookup name with
      | some item => exact Nat.le_add_left _ _
      | none => exact le_rfl
    simp only [Fields.cons, List.map_cons, List.sum_cons, memberSize]
    omega
  bySequence items value decoded := by
    cases items with
    | nil => cases decoded
    | cons item items =>
      change ((codec.decode item).bind fun head =>
        (rest.decodeItems items).bind fun last => some (head, last)) = some value at decoded
      obtain ⟨head, here, tail⟩ := Option.bind_eq_some_iff.mp decoded
      obtain ⟨last, later, same⟩ := Option.bind_eq_some_iff.mp tail
      cases same
      obtain ⟨length, rests⟩ := more.bySequence items last later
      have grown := grows item head here
      refine ⟨congrArg (· + 1) length, ?_⟩
      simp only [Fields.cons, List.map_cons, List.sum_cons, memberSize]
      omega

/-- A value that one name has, and no other, is counted once. -/
theorem sum_single (key : String) (size : Nat) {names : List String} (distinct : names.Nodup) :
    (names.map fun name => if name = key then size else 0).sum ≤ size := by
  induction names with
  | nil => exact Nat.zero_le _
  | cons name rest ih =>
    obtain ⟨fresh, later⟩ := List.nodup_cons.mp distinct
    rw [List.map_cons, List.sum_cons]
    by_cases here : name = key
    · subst here
      have none_ : (rest.map fun other => if other = name then size else 0).sum = 0 := by
        refine List.sum_eq_zero fun value member => ?_
        obtain ⟨other, listed, rfl⟩ := List.mem_map.mp member
        exact if_neg fun same : other = name => fresh (same ▸ listed)
      rw [if_pos rfl, none_]
      omega
    · rw [if_neg here, Nat.zero_add]
      exact ih later

/-- One more field that must be present takes its name and the growth of its value. -/
theorem fieldsGrow_required {α β : Type} {name : String} {codec : Codec β} {rest : Fields α}
    {first others : Nat} (grows : Grows codec first) (more : FieldsGrow rest others) :
    FieldsGrow (Fields.required name codec rest)
      (weigh Char.utf8Size (printText name) + 1 + 0 + first + others) :=
  fieldsGrow_cons grows (fun _ absent => by cases absent) more

/-- The members of an object that have given names are a part of it. -/
theorem lookupSize_le {names : List String} (distinct : names.Nodup)
    (members : List (String × Value String)) :
    (names.map (lookupSize fun name => Entries.find name members)).sum ≤
      (members.map memberSize).sum := by
  induction members with
  | nil =>
    have void : (names.map (lookupSize fun name => Entries.find name [])).sum = 0 := by
      refine List.sum_eq_zero fun value member => ?_
      obtain ⟨name, -, rfl⟩ := List.mem_map.mp member
      rfl
    rw [void]
    exact Nat.zero_le _
  | cons member rest ih =>
    obtain ⟨key, item⟩ := member
    have each : ∀ name ∈ names,
        lookupSize (fun name => Entries.find name ((key, item) :: rest)) name ≤
          (if name = key then memberSize (key, item) else 0) +
            lookupSize (fun name => Entries.find name rest) name := by
      intro name _
      simp only [lookupSize, Entries.find]
      by_cases here : name = key
      · subst here
        rw [if_pos rfl, if_pos rfl]
        exact Nat.le_add_right _ _
      · rw [if_neg here, if_neg here, Nat.zero_add]
    have sums := List.sum_le_sum each
    rw [List.sum_map_add] at sums
    have once := sum_single key (memberSize (key, item)) distinct
    rw [List.map_cons, List.sum_cons]
    omega

/-- A record grows as its fields do, and by a mark for each of them. -/
theorem grows_record {α : Type} {fields : Fields α} {distinct : fields.names.Nodup} {more : Nat}
    (grows : FieldsGrow fields more) :
    Grows (Codec.record fields distinct) (more + fields.names.length) := by
  intro written value decoded
  have count : (fields.encode value).length = fields.names.length := by
    rw [← fields.written value, List.length_map]
  change writtenSize (.object _) ≤ _
  rw [writtenSize_object, count]
  cases written with
  | object members =>
    simp only [Codec.record, Option.ite_none_right_eq_some] at decoded
    have sum := grows.byName _ value decoded.2
    have part := lookupSize_le distinct members
    rw [writtenSize_object]
    omega
  | array items =>
    obtain ⟨length, sum⟩ := grows.bySequence items value decoded
    rw [writtenSize_array, length]
    omega
  | null | bool | number | string => cases decoded

/-! ## Parts -/

/-- A field of a record is read from a part of the record. -/
structure HasPart {α β : Type} (fields : Fields α) (get : α → β) (codec : Codec β) : Prop where
  /-- When the fields are looked up by name. -/
  byName : ∀ lookup value, fields.decode lookup = some value →
    ∃ name item, lookup name = some item ∧ codec.decode item = some (get value)
  /-- When they come as a sequence. -/
  bySequence : ∀ items value, fields.decodeItems items = some value →
    ∃ item ∈ items, codec.decode item = some (get value)

/-- The first field that must be present is a part. -/
theorem hasPart_first {α β : Type} (name : String) (codec : Codec β) (rest : Fields α) :
    HasPart (Fields.required name codec rest) Prod.fst codec where
  byName lookup value decoded := by
    cases found : lookup name with
    | none => simp [Fields.required, Fields.cons, found] at decoded
    | some item =>
      simp only [Fields.required, Fields.cons, found, Option.bind_eq_bind, Option.bind_eq_some_iff,
        Option.some.injEq] at decoded
      obtain ⟨head, here, last, -, rfl⟩ := decoded
      exact ⟨name, item, found, here⟩
  bySequence items value decoded := by
    cases items with
    | nil => cases decoded
    | cons item items =>
      change ((codec.decode item).bind fun head =>
        (rest.decodeItems items).bind fun last => some (head, last)) = some value at decoded
      obtain ⟨head, here, tail⟩ := Option.bind_eq_some_iff.mp decoded
      obtain ⟨last, -, same⟩ := Option.bind_eq_some_iff.mp tail
      cases same
      exact ⟨item, List.mem_cons_self, here⟩

/-- A later field is a part. -/
theorem hasPart_later {α β γ : Type} {name : String} {codec : Codec β} {rest : Fields α}
    {get : α → γ} {part : Codec γ} (later : HasPart rest get part) :
    HasPart (Fields.required name codec rest) (fun value => get value.2) part where
  byName lookup value decoded := by
    cases found : lookup name with
    | none => simp [Fields.required, Fields.cons, found] at decoded
    | some item =>
      simp only [Fields.required, Fields.cons, found, Option.bind_eq_bind, Option.bind_eq_some_iff,
        Option.some.injEq] at decoded
      obtain ⟨head, -, last, read, rfl⟩ := decoded
      exact later.byName lookup last read
  bySequence items value decoded := by
    cases items with
    | nil => cases decoded
    | cons item items =>
      change ((codec.decode item).bind fun head =>
        (rest.decodeItems items).bind fun last => some (head, last)) = some value at decoded
      obtain ⟨head, -, tail⟩ := Option.bind_eq_some_iff.mp decoded
      obtain ⟨last, read, same⟩ := Option.bind_eq_some_iff.mp tail
      cases same
      obtain ⟨inner, member, here⟩ := later.bySequence items last read
      exact ⟨inner, List.mem_cons_of_mem _ member, here⟩

/-- A field of a record is read from a value that is not larger. -/
theorem record_part {α β : Type} {fields : Fields α} {distinct : fields.names.Nodup} {get : α → β}
    {codec : Codec β} (part : HasPart fields get codec) {written : Value String} {value : α}
    (decoded : (Codec.record fields distinct).decode written = some value) :
    ∃ item, writtenSize item ≤ writtenSize written ∧ codec.decode item = some (get value) := by
  cases written with
  | object members =>
    simp only [Codec.record, Option.ite_none_right_eq_some] at decoded
    obtain ⟨name, item, found, here⟩ := part.byName _ value decoded.2
    exact ⟨item, writtenSize_member (Entries.mem_of_find found), here⟩
  | array items =>
    obtain ⟨item, member, here⟩ := part.bySequence items value decoded
    exact ⟨item, writtenSize_item member, here⟩
  | null | bool | number | string => cases decoded

/-- An item of a sequence is read from a value that is not larger. -/
theorem list_part {α : Type} {codec : Codec α} {written : Value String} {values : List α}
    (decoded : codec.list.decode written = some values) {value : α} (member : value ∈ values) :
    ∃ item, writtenSize item ≤ writtenSize written ∧ codec.decode item = some value := by
  cases written with
  | array items =>
    change items.mapM codec.decode = some values at decoded
    have found : ∃ item ∈ items, codec.decode item = some value := by
      induction items generalizing values with
      | nil =>
        cases decoded
        cases member
      | cons item rest ih =>
        rw [List.mapM_cons] at decoded
        obtain ⟨first, here, tail⟩ := Option.bind_eq_some_iff.mp decoded
        obtain ⟨others, more, same⟩ := Option.bind_eq_some_iff.mp tail
        cases same
        rcases List.mem_cons.mp member with rfl | later
        · exact ⟨item, List.mem_cons_self, here⟩
        · obtain ⟨inner, listed, read⟩ := ih later more
          exact ⟨inner, List.mem_cons_of_mem _ listed, read⟩
    obtain ⟨item, listed, read⟩ := found
    exact ⟨item, writtenSize_item listed, read⟩
  | null | bool | number | string | object => cases decoded

/-! ## Canonical bytes -/

/-- Canonical bytes are read as a value that is written as them. -/
theorem fromSlice_of_canonical {unicode : Unicode} {raw : ByteArray}
    (canonical : canonicalize unicode raw = .ok raw) {α : Type} (codec : Codec α) :
    ∃ written, writtenSize written = raw.size ∧ fromSlice codec raw = codec.decode written := by
  simp only [canonicalize, bind_ok_iff, pure_ok_iff] at canonical
  obtain ⟨value, -, text, serialized, same⟩ := canonical
  obtain ⟨whole, normal, fits, -⟩ := serializeCanonical_ok serialized
  have printed : text = String.ofList (print (value.nfcForm unicode).node.toJson) := by
    rw [whole, Node.serializeInto_eq]
  have bytes : raw = writtenBytes (value.nfcForm unicode).node.toJson := by
    rw [← same, printed]
    rfl
  refine ⟨(value.nfcForm unicode).node.toJson, congrArg ByteArray.size bytes.symm, ?_⟩
  have deep : (value.nfcForm unicode).node.toJson.nesting ≤ recursionLimit :=
    (Node.nesting_toJson _).trans (fits.trans (by decide))
  have read := readDocument_print _ recursionLimit (Node.integral_toJson _) deep
  rw [bytes]
  simp only [fromSlice, writtenBytes, Text.fromUTF8_toByteArray, String.toList_ofList, bind,
    Option.bind]
  rw [read]

/-- Data that was read from canonical bytes grows at most as its codec does. -/
theorem Grows.fromSlice {α : Type} {codec : Codec α} {more : Nat} (grows : Grows codec more)
    {unicode : Unicode} {raw : ByteArray} (canonical : canonicalize unicode raw = .ok raw)
    {value : α} (decoded : fromSlice codec raw = some value) :
    writtenSize (codec.encode value) ≤ raw.size + more := by
  obtain ⟨written, size, read⟩ := fromSlice_of_canonical canonical codec
  rw [← size]
  exact grows written value (read.symm.trans decoded)

end QsolFed
