import QsolFed.Library.Json.Reorder
import QsolFed.Library.OrderedMap

/-!
# Codecs between data and JSON values

A codec pairs a writer with a reader. Its law says that the reader takes back what the writer
wrote, also when the members of objects come in another order, because a normalising store
sorts them. Records are described by their fields: the reader looks every field up by name and
refuses unknown and repeated names, and it takes a plain sequence in field order as well.
-/
namespace Json

/-- A writer and a reader that takes back what was written. -/
structure Codec (α : Type) where
  /-- The JSON value of some data. -/
  encode : α → Value String
  /-- The data of a JSON value. -/
  decode : Value String → Option α
  /-- What was written is read back, whatever the order of members. -/
  roundtrip : ∀ value written, Reorders (encode value) written → decode written = some value

namespace Codec

variable {α β : Type}

/-- Strings. -/
def string : Codec String where
  encode := .string
  decode
    | .string value => some value
    | _ => none
  roundtrip := by
    intro value written same
    cases same
    rfl

/-- The unit value, written as null. -/
def unit : Codec Unit where
  encode _ := .null
  decode
    | .null => some ()
    | _ => none
  roundtrip := by
    intro value written same
    cases same
    rfl

/-- Truth values. -/
def bool : Codec Bool where
  encode := .bool
  decode
    | .bool value => some value
    | _ => none
  roundtrip := by
    intro value written same
    cases same
    rfl

/-- Unsigned integers of 64 bits. -/
def uint64 : Codec UInt64 where
  encode value := .number (Number.ofInt value.toNat)
  decode
    | .number number =>
      if number.negative = false ∧ number.fraction = [] ∧ number.exponent = [] ∧
          number.integer < 2 ^ 64 then some (UInt64.ofNat number.integer)
      else none
    | _ => none
  roundtrip := by
    intro value written same
    cases same
    simpa [Number.ofInt] using value.toNat_lt

/-- Unsigned integers of 16 bits. -/
def uint16 : Codec UInt16 where
  encode value := .number (Number.ofInt value.toNat)
  decode
    | .number number =>
      if number.negative = false ∧ number.fraction = [] ∧ number.exponent = [] ∧
          number.integer < 2 ^ 16 then some (UInt16.ofNat number.integer)
      else none
    | _ => none
  roundtrip := by
    intro value written same
    cases same
    simpa [Number.ofInt] using value.toNat_lt

/-- Unsigned integers of 32 bits. -/
def uint32 : Codec UInt32 where
  encode value := .number (Number.ofInt value.toNat)
  decode
    | .number number =>
      if number.negative = false ∧ number.fraction = [] ∧ number.exponent = [] ∧
          number.integer < 2 ^ 32 then some (UInt32.ofNat number.integer)
      else none
    | _ => none
  roundtrip := by
    intro value written same
    cases same
    simpa [Number.ofInt] using value.toNat_lt

/-- Signed integers of 64 bits. Negative zero is not one of them. -/
def int64 : Codec Int64 where
  encode value := .number (Number.ofInt value.toInt)
  decode
    | .number number =>
      if number.fraction = [] ∧ number.exponent = [] then
        if number.negative then
          if 0 < number.integer ∧ number.integer ≤ 2 ^ 63 then
            some (Int64.ofInt (-number.integer))
          else none
        else if number.integer < 2 ^ 63 then some (Int64.ofInt number.integer)
        else none
      else none
    | _ => none
  roundtrip := by
    intro value written same
    cases same
    have low := value.le_toInt
    have high := value.toInt_lt
    have back := Int64.ofInt_toInt value
    by_cases negative : value.toInt < 0
    · have size : 0 < value.toInt.natAbs ∧ value.toInt.natAbs ≤ 2 ^ 63 := by omega
      have same : (-(value.toInt.natAbs : Int)) = value.toInt := by omega
      simp only [Number.ofInt, negative, decide_true, and_self, if_true, if_pos size, same, back]
    · have same : (value.toInt.natAbs : Int) = value.toInt := by omega
      have size : value.toInt.natAbs < 2 ^ 63 := by omega
      simp only [Number.ofInt, negative, decide_false, Bool.false_eq_true, and_self, if_true,
        if_false, if_pos size, same, back]

/-- The first value with a name. -/
def named [DecidableEq α] (name : α → String) (all : List α) (text : String) : Option α :=
  all.find? fun value => name value = text

/-- A finite type, each value written as its name. An object that gives null to the name is read
as well. -/
def enumeration [DecidableEq α] (name : α → String) (all : List α)
    (back : ∀ value, named name all (name value) = some value) : Codec α where
  encode value := .string (name value)
  decode
    | .string text => named name all text
    | .object [(text, .null)] => named name all text
    | _ => none
  roundtrip := by
    intro value written same
    cases same
    exact back value

/-- A value or null. -/
def nullable (codec : Codec α) (present : ∀ value, codec.encode value ≠ .null) :
    Codec (Option α) where
  encode
    | none => .null
    | some value => codec.encode value
  decode
    | .null => some none
    | written => (codec.decode written).map some
  roundtrip := by
    intro value written same
    cases value with
    | none =>
      cases same
      rfl
    | some value =>
      have read := codec.roundtrip value written same
      cases written with
      | null =>
        simp only at same
        generalize shape : codec.encode value = encoded at same
        cases same
        exact absurd shape (present value)
      | bool | number | string | array | object => simp [read]

/-- Sequences. -/
def list (codec : Codec α) : Codec (List α) where
  encode values := .array (values.map codec.encode)
  decode
    | .array items => items.mapM codec.decode
    | _ => none
  roundtrip := by
    intro values written same
    cases same with
    | array each =>
      rename_i others
      simp only
      induction values generalizing others with
      | nil =>
        cases each
        rfl
      | cons value rest ih =>
        cases each with
        | cons first more =>
          rw [List.mapM_cons, codec.roundtrip value _ first, ih more]
          rfl

/-- One of two shapes, tried in order. -/
def untagged (left : Codec α) (right : Codec β)
    (apart : ∀ value written, Reorders (right.encode value) written →
      left.decode written = none) : Codec (α ⊕ β) where
  encode
    | .inl value => left.encode value
    | .inr value => right.encode value
  decode written :=
    match left.decode written with
    | some value => some (.inl value)
    | none => (right.decode written).map .inr
  roundtrip := by
    intro value written same
    cases value with
    | inl value => simp [left.roundtrip value written same]
    | inr value => simp [apart value written same, right.roundtrip value written same]

/-- Change representation through a checked inverse. -/
def iso (codec : Codec α) (pack : α → β) (unpack : β → α)
    (inverse : ∀ value, pack (unpack value) = value) : Codec β where
  encode value := codec.encode (unpack value)
  decode written := (codec.decode written).map pack
  roundtrip := by
    intro value written same
    simp [codec.roundtrip (unpack value) written same, inverse]

end Codec

/-! ## Records -/

/-- The fields of a record, in declaration order. -/
structure Fields (α : Type) where
  /-- Their names. -/
  names : List String
  /-- The members that are written. -/
  encode : α → List (String × Value String)
  /-- The record, when every field is looked up by name. -/
  decode : (String → Option (Value String)) → Option α
  /-- The record, when the fields come as a sequence. -/
  decodeItems : List (Value String) → Option α
  /-- Every field is written once, in order. -/
  written : ∀ value, (encode value).map Prod.fst = names
  /-- What was written is read back by name. -/
  roundtrip : ∀ value lookup,
    (∀ name item, (name, item) ∈ encode value →
      ∃ other, lookup name = some other ∧ Reorders item other) →
    decode lookup = some value

namespace Fields

variable {α β : Type}

/-- No fields. -/
def nil : Fields Unit where
  names := []
  encode _ := []
  decode _ := some ()
  decodeItems
    | [] => some ()
    | _ => none
  written _ := rfl
  roundtrip _ _ _ := rfl

/-- One more field in front. A name that is not found gives `absent`, if there is such. -/
def cons (name : String) (codec : Codec β) (absent : Option β) (rest : Fields α) :
    Fields (β × α) where
  names := name :: rest.names
  encode value := (name, codec.encode value.1) :: rest.encode value.2
  decode lookup := do
    let first ← match lookup name with
      | some item => codec.decode item
      | none => absent
    let others ← rest.decode lookup
    some (first, others)
  decodeItems
    | [] => none
    | item :: items => do
      let first ← codec.decode item
      let others ← rest.decodeItems items
      some (first, others)
  written value := by rw [List.map_cons, rest.written]
  roundtrip := by
    intro value lookup found
    obtain ⟨other, here, same⟩ := found name _ List.mem_cons_self
    have others := rest.roundtrip value.2 lookup fun name item member =>
      found name item (List.mem_cons_of_mem _ member)
    simp [here, codec.roundtrip value.1 other same, others]

/-- A field that must be present. -/
abbrev required (name : String) (codec : Codec β) (rest : Fields α) : Fields (β × α) :=
  cons name codec none rest

end Fields

/-- Members found by name are found alike after reordering. -/
theorem find_reorders {members aligned others : List (String × Value String)}
    (keys : members.map Prod.fst = aligned.map Prod.fst)
    (each : List.Forall₂ Reorders (members.map Prod.snd) (aligned.map Prod.snd))
    (order : aligned.Perm others) (distinct : (others.map Prod.fst).Nodup)
    {name : String} {item : Value String} (member : (name, item) ∈ members) :
    ∃ other, Entries.find name others = some other ∧ Reorders item other := by
  have aligns : ∃ other, (name, other) ∈ aligned ∧ Reorders item other := by
    clear order distinct
    induction members generalizing aligned with
    | nil => cases member
    | cons first rest ih =>
      cases aligned with
      | nil => simp at keys
      | cons head tail =>
        obtain ⟨sameKey, otherKeys⟩ := List.cons.inj keys
        obtain ⟨sameValue, otherValues⟩ := List.forall₂_cons.mp each
        rcases List.mem_cons.mp member with rfl | later
        · have here : (name, head.2) = head := Prod.ext sameKey rfl
          exact ⟨head.2, here ▸ List.mem_cons_self, sameValue⟩
        · obtain ⟨other, listed, same⟩ := ih otherKeys otherValues later
          exact ⟨other, List.mem_cons_of_mem _ listed, same⟩
  obtain ⟨other, listed, same⟩ := aligns
  exact ⟨other, Entries.find_of_mem distinct (order.mem_iff.mp listed), same⟩

/-- Two records are the same when some of their members are written alike up to order and the
others are written alike. -/
theorem Fields.agree {α : Type} (fields : Fields α) (distinct : fields.names.Nodup) {one two : α}
    {kept : String → Bool} {written : Value String}
    (first : Reorders (.object ((fields.encode one).filter fun member => kept member.1)) written)
    (second : Reorders (.object ((fields.encode two).filter fun member => kept member.1)) written)
    (rest : ((fields.encode one).filter fun member => !kept member.1) =
      (fields.encode two).filter fun member => !kept member.1) : one = two := by
  have once : ∀ (value : α) (keep : String → Bool),
      (((fields.encode value).filter fun member => keep member.1).map Prod.fst).Nodup := by
    intro value keep
    have names := fields.written value
    exact (names ▸ distinct).sublist (List.filter_sublist.map Prod.fst)
  obtain ⟨members, rfl⟩ : ∃ members, written = .object members := by
    cases first
    exact ⟨_, rfl⟩
  -- A name that is kept is looked up in the common text, any other among the equal members.
  let lookup := fun name => if kept name then Entries.find name members
    else Entries.find name ((fields.encode one).filter fun member => !kept member.1)
  have reads : ∀ value, Reorders
      (.object ((fields.encode value).filter fun member => kept member.1)) (.object members) →
      ((fields.encode value).filter fun member => !kept member.1) =
        ((fields.encode one).filter fun member => !kept member.1) →
      fields.decode lookup = some value := by
    intro value same others
    apply fields.roundtrip
    intro name item member
    by_cases keep : kept name = true
    · have listed : (name, item) ∈ (fields.encode value).filter fun member => kept member.1 :=
        List.mem_filter.mpr ⟨member, keep⟩
      cases same with
      | object keys each order =>
        rename_i aligned
        have apart : (members.map Prod.fst).Nodup := by
          have perm := (order.map Prod.fst).nodup_iff
          rw [← perm, ← keys]
          exact once value kept
        obtain ⟨other, found, like⟩ := find_reorders keys each order apart listed
        exact ⟨other, by simpa only [lookup, keep, ↓reduceIte] using found, like⟩
    · have listed : (name, item) ∈ (fields.encode one).filter fun member => !kept member.1 := by
        rw [← others]
        exact List.mem_filter.mpr ⟨member, by simp [keep]⟩
      refine ⟨item, ?_, Reorders.refl item⟩
      simp only [lookup, keep, Bool.false_eq_true, ↓reduceIte]
      exact Entries.find_of_mem (once one fun name => !kept name) listed
  have found := reads one first rfl
  rw [reads two second rest.symm] at found
  exact (Option.some.inj found).symm

/-- A record whose fields have distinct names. Unknown and repeated names are refused. -/
def Codec.record {α : Type} (fields : Fields α) (distinct : fields.names.Nodup) : Codec α where
  encode value := .object (fields.encode value)
  decode
    | .object members =>
      if (members.map Prod.fst).Nodup ∧ ∀ name ∈ members.map Prod.fst, name ∈ fields.names then
        fields.decode fun name => Entries.find name members
      else none
    | .array items => fields.decodeItems items
    | _ => none
  roundtrip := by
    intro value written same
    cases same with
    | object keys each order =>
      rename_i aligned others
      have perm : (others.map Prod.fst).Perm fields.names := by
        rw [← fields.written value, keys]
        exact (order.map Prod.fst).symm
      have once : (others.map Prod.fst).Nodup := perm.nodup_iff.mpr distinct
      have known : ∀ name ∈ others.map Prod.fst, name ∈ fields.names := fun name member =>
        perm.mem_iff.mp member
      simp only
      rw [if_pos ⟨once, known⟩]
      exact fields.roundtrip value _ fun name item member =>
        find_reorders keys each order once member

/-- A record is read from an object whose members have distinct and known names. -/
theorem Codec.decode_record {α : Type} {fields : Fields α} {distinct : fields.names.Nodup}
    {members : List (String × Value String)} (once : (members.map Prod.fst).Nodup)
    (known : ∀ name ∈ members.map Prod.fst, name ∈ fields.names) :
    (Codec.record fields distinct).decode (.object members) =
      fields.decode fun name => Entries.find name members := if_pos ⟨once, known⟩

/-- A record is never written as null. -/
theorem Codec.record_present {α : Type} (fields : Fields α) (distinct : fields.names.Nodup)
    (value : α) : (Codec.record fields distinct).encode value ≠ .null := fun same => by cases same

/-! ## Dictionaries -/

/-- The map with every member put in, in order. -/
def insertMembers {α : Type} (codec : Codec α) (map : OrderedMap String α) :
    List (String × Value String) → Option (OrderedMap String α)
  | [] => some map
  | (name, item) :: rest => do
    let value ← codec.decode item
    insertMembers codec (map.insert name value) rest

/-- Distinct members that are read as the values of a map are put in as these values. -/
theorem insertMembers_of_get {α : Type} (codec : Codec α) (map : OrderedMap String α)
    (members : List (String × Value String)) (start : OrderedMap String α)
    (distinct : (members.map Prod.fst).Nodup)
    (read : ∀ member ∈ members, ∃ value, map.get? member.1 = some value ∧
      codec.decode member.2 = some value) :
    ∃ result, insertMembers codec start members = some result ∧ ∀ name,
      result.get? name =
        if name ∈ members.map Prod.fst then map.get? name else start.get? name := by
  induction members generalizing start with
  | nil => exact ⟨start, rfl, fun name => by simp⟩
  | cons member rest ih =>
    obtain ⟨head, item⟩ := member
    rw [List.map_cons, List.nodup_cons] at distinct
    obtain ⟨value, stored, decoded⟩ := read (head, item) List.mem_cons_self
    obtain ⟨result, inserted, found⟩ := ih (start.insert head value) distinct.2
      fun other member => read other (List.mem_cons_of_mem _ member)
    refine ⟨result, ?_, fun name => ?_⟩
    · rw [insertMembers, decoded]
      exact inserted
    · rw [found name, OrderedMap.get?_insert, List.map_cons]
      by_cases later : name ∈ rest.map Prod.fst
      · rw [if_pos later, if_pos (List.mem_cons_of_mem _ later)]
      · rw [if_neg later]
        by_cases here : name = head
        · rw [if_pos here, if_pos (here ▸ List.mem_cons_self), here, stored]
        · have absent : name ∉ head :: rest.map Prod.fst := by simp [here, later]
          rw [if_neg here, if_neg absent]

/-- A map as an object. -/
def Codec.dictionary {α : Type} (codec : Codec α) : Codec (OrderedMap String α) where
  encode map := .object (map.entries.map fun entry => (entry.1, codec.encode entry.2))
  decode
    | .object members => insertMembers codec .empty members
    | _ => none
  roundtrip := by
    intro map written same
    cases same with
    | object keys each order =>
      rename_i aligned others
      have names : (map.entries.map fun entry => (entry.1, codec.encode entry.2)).map Prod.fst =
          map.entries.map Prod.fst := by
        rw [List.map_map]
        rfl
      have listed : (map.entries.map Prod.fst).Perm (others.map Prod.fst) := by
        rw [← names, keys]
        exact order.map Prod.fst
      have distinct : (others.map Prod.fst).Nodup := listed.nodup_iff.mp map.sorted.nodup
      have read : ∀ member ∈ others, ∃ value, map.get? member.1 = some value ∧
          codec.decode member.2 = some value := by
        intro member present
        have known : member.1 ∈ map.entries.map Prod.fst :=
          listed.mem_iff.mpr (List.mem_map_of_mem present)
        obtain ⟨⟨name, value⟩, stored, here⟩ := List.mem_map.mp known
        simp only at here
        subst here
        obtain ⟨other, found, same⟩ := find_reorders keys each order distinct
          (List.mem_map_of_mem (f := fun entry => (entry.1, codec.encode entry.2)) stored)
        have listed : Entries.find member.1 others = some member.2 :=
          Entries.find_of_mem distinct present
        rw [listed] at found
        obtain rfl := Option.some.inj found
        exact ⟨value, (map.mem_entries _ _).mp stored, codec.roundtrip value _ same⟩
      obtain ⟨result, inserted, found⟩ := insertMembers_of_get codec map others .empty distinct read
      have same : result = map := by
        ext1 name
        rw [found name]
        split_ifs with present
        · rfl
        · rw [OrderedMap.get?_empty]
          by_contra stored
          obtain ⟨value, there⟩ := Option.ne_none_iff_exists'.mp (Ne.symm stored)
          have entry := List.mem_map_of_mem (f := Prod.fst) ((map.mem_entries name value).mpr there)
          exact present (listed.mem_iff.mp entry)
      rw [same] at inserted
      exact inserted

end Json
