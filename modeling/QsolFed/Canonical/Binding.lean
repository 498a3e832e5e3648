import QsolFed.Canonical.Agreement
import QsolFed.Encoding

/-!
# What canonical bytes determine

A codec tells a view of its values when values whose written forms agree have the same view. The
views are built as the codecs are: a text by its normal form, a list item by item, a record field
by field. Integral forms that nest within a bound are kept track of alike, so that data with the
same canonical bytes has the same view.
-/
namespace QsolFed.Canonical

open Checked Json

section Shallow

variable {α β : Type}

/-- Everything that a codec writes has integers only and nests within a bound. -/
def Shallow (codec : Codec α) (bound : Nat) : Prop :=
  ∀ value, (codec.encode value).Integral ∧ (codec.encode value).nesting ≤ bound

/-- Everything that some fields write has integers only and nests within a bound. -/
def ShallowFields (fields : Fields α) (bound : Nat) : Prop :=
  ∀ value, ∀ member ∈ fields.encode value, member.2.Integral ∧ member.2.nesting ≤ bound

/-- A string does not nest. -/
theorem shallow_string {bound : Nat} : Shallow Codec.string bound :=
  fun _ => ⟨trivial, Nat.zero_le _⟩

/-- A truth value does not nest. -/
theorem shallow_bool {bound : Nat} : Shallow Codec.bool bound := fun _ => ⟨trivial, Nat.zero_le _⟩

/-- A name does not nest. -/
theorem shallow_enumeration [DecidableEq α] {name : α → String} {all : List α}
    {back : ∀ value, Codec.named name all (name value) = some value} {bound : Nat} :
    Shallow (Codec.enumeration name all back) bound := fun _ => ⟨trivial, Nat.zero_le _⟩

/-- A word of 64 bits does not nest. -/
theorem shallow_uint64 {bound : Nat} : Shallow Codec.uint64 bound :=
  fun _ => ⟨⟨rfl, rfl⟩, Nat.zero_le _⟩

/-- A word of 16 bits does not nest. -/
theorem shallow_uint16 {bound : Nat} : Shallow Codec.uint16 bound :=
  fun _ => ⟨⟨rfl, rfl⟩, Nat.zero_le _⟩

/-- What may be absent nests as what is present. -/
theorem shallow_nullable {codec : Codec α} {present : ∀ value, codec.encode value ≠ .null}
    {bound : Nat} (shallow : Shallow codec bound) : Shallow (codec.nullable present) bound := by
  intro value
  cases value with
  | none => exact ⟨trivial, Nat.zero_le _⟩
  | some value => exact shallow value

/-- Items are integral when each is. -/
theorem integralItems_iff (items : List (Value String)) :
    Value.IntegralItems items ↔ ∀ item ∈ items, item.Integral := by
  induction items with
  | nil => simp [Value.IntegralItems]
  | cons item rest ih => simp [Value.IntegralItems, ih]

/-- Members are integral when their values are. -/
theorem integralMembers_iff (members : List (String × Value String)) :
    Value.IntegralMembers members ↔ ∀ member ∈ members, member.2.Integral := by
  induction members with
  | nil => simp [Value.IntegralMembers]
  | cons member rest ih => simp [Value.IntegralMembers, ih]

/-- A list nests one level deeper than its items. -/
theorem shallow_list {codec : Codec α} {bound : Nat} (shallow : Shallow codec bound) :
    Shallow codec.list (bound + 1) := by
  intro values
  constructor
  · refine (integralItems_iff _).mpr fun item listed => ?_
    obtain ⟨value, -, rfl⟩ := List.mem_map.mp listed
    exact (shallow value).1
  · exact nesting_list codec values bound fun value _ => (shallow value).2

/-- A change of representation nests the same. -/
theorem shallow_iso {codec : Codec α} {pack : α → β} {unpack : β → α}
    {inverse : ∀ value, pack (unpack value) = value} {bound : Nat} (shallow : Shallow codec bound) :
    Shallow (codec.iso pack unpack inverse) bound := fun value => shallow (unpack value)

/-- No fields do not nest. -/
theorem shallow_nil {bound : Nat} : ShallowFields Fields.nil bound :=
  fun _ _ listed => by cases listed

/-- One more field nests as its value. -/
theorem shallow_cons {name : String} {codec : Codec β} {absent : Option β} {rest : Fields α}
    {bound : Nat} (first : Shallow codec bound) (others : ShallowFields rest bound) :
    ShallowFields (Fields.cons name codec absent rest) bound := by
  intro value member listed
  rcases List.mem_cons.mp listed with rfl | later
  · exact first value.1
  · exact others value.2 member later

/-- An object of some of the members nests one level deeper than the fields. -/
theorem shallow_members {fields : Fields α} {bound : Nat} (shallow : ShallowFields fields bound)
    (value : α) (keep : String → Bool) :
    (Value.object ((fields.encode value).filter fun member => keep member.1)).Integral ∧
      (Value.object ((fields.encode value).filter fun member => keep member.1)).nesting ≤
        bound + 1 := by
  have each : ∀ member ∈ (fields.encode value).filter fun member => keep member.1,
      member.2.Integral ∧ member.2.nesting ≤ bound :=
    fun member listed => shallow value member (List.mem_of_mem_filter listed)
  constructor
  · exact (integralMembers_iff _).mpr fun member listed => (each member listed).1
  · exact Nat.succ_le_succ ((nestingMembers_le_iff _ _).mpr fun member listed =>
      (each member listed).2)

/-- A record nests one level deeper than its fields. -/
theorem shallow_record {fields : Fields α} {distinct : fields.names.Nodup} {bound : Nat}
    (shallow : ShallowFields fields bound) :
    Shallow (Codec.record fields distinct) (bound + 1) := by
  intro value
  have whole := shallow_members shallow value fun _ => true
  rwa [List.filter_eq_self.mpr fun _ _ => rfl] at whole

end Shallow

section Tells

variable {unicode : Unicode} {α β γ δ : Type}

/-- Values whose written forms agree have the same view. -/
def Tells (unicode : Unicode) (codec : Codec α) (view : α → β) : Prop :=
  ∀ one two, Agree unicode (codec.encode one) (codec.encode two) → view one = view two

/-- Records whose kept members agree have the same view. -/
def TellsFields (unicode : Unicode) (keep : String → Bool) (fields : Fields α) (view : α → β) :
    Prop :=
  ∀ one two, (∀ name left right, keep name = true → (name, left) ∈ fields.encode one →
    (name, right) ∈ fields.encode two → Agree unicode left right) → view one = view two

/-- A string tells its normal form. -/
theorem tells_string : Tells unicode Codec.string unicode.nfc := fun _ _ agree => agree.text

/-- A truth value is told. -/
theorem tells_bool : Tells unicode Codec.bool id := fun _ _ agree => agree.bool

/-- A name is told when the names are plain. -/
theorem tells_enumeration [DecidableEq α] {name : α → String} {all : List α}
    {back : ∀ value, Codec.named name all (name value) = some value}
    (plain : ∀ value, PlainText (name value)) :
    Tells unicode (Codec.enumeration name all back) id := by
  intro one two agree
  have same := Agree.text agree
  rw [(plain one).nfc, (plain two).nfc] at same
  have found := back one
  rw [same, back two] at found
  exact (Option.some.inj found).symm

/-- A word of 64 bits is told. -/
theorem tells_uint64 : Tells unicode Codec.uint64 id :=
  fun _ _ agree => UInt64.toNat_inj.mp (Int.ofNat_inj.mp agree.integer)

/-- A word of 16 bits is told. -/
theorem tells_uint16 : Tells unicode Codec.uint16 id :=
  fun _ _ agree => UInt16.toNat_inj.mp (Int.ofNat_inj.mp agree.integer)

/-- A list is told item by item. -/
theorem tells_list {codec : Codec α} {view : α → β} (tells : Tells unicode codec view) :
    Tells unicode codec.list (List.map view) := by
  intro one two agree
  have each := Agree.items agree
  rw [List.forall₂_map_left_iff, List.forall₂_map_right_iff] at each
  clear agree
  induction each with
  | nil => rfl
  | cons head _ ih => rw [List.map_cons, List.map_cons, tells _ _ head, ih]

/-- A change of representation is told by what it is made of. -/
theorem tells_iso {codec : Codec α} {pack : α → γ} {unpack : γ → α}
    {inverse : ∀ value, pack (unpack value) = value} {view : α → β}
    (tells : Tells unicode codec view) :
    Tells unicode (codec.iso pack unpack inverse) fun value => view (unpack value) :=
  fun one two agree => tells (unpack one) (unpack two) agree

/-- No fields tell nothing. -/
theorem tells_nil {keep : String → Bool} : TellsFields unicode keep Fields.nil id :=
  fun _ _ _ => rfl

/-- A field that is kept is told. -/
theorem tells_cons {keep : String → Bool} {name : String} {codec : Codec β} {absent : Option β}
    {rest : Fields α} {view : β → γ} {others : α → δ} (kept : keep name = true)
    (first : Tells unicode codec view) (more : TellsFields unicode keep rest others) :
    TellsFields unicode keep (Fields.cons name codec absent rest) (Prod.map view others) := by
  intro one two agree
  have head : view one.1 = view two.1 :=
    first _ _ (agree name _ _ kept List.mem_cons_self List.mem_cons_self)
  have tail : others one.2 = others two.2 :=
    more _ _ fun other left right keeps here there => agree other left right keeps
      (List.mem_cons_of_mem _ here) (List.mem_cons_of_mem _ there)
  rw [Prod.map, Prod.map, head, tail]

/-- A field that is left out is not told. -/
theorem tells_skip {keep : String → Bool} {name : String} {codec : Codec β} {absent : Option β}
    {rest : Fields α} {others : α → δ} (more : TellsFields unicode keep rest others) :
    TellsFields unicode keep (Fields.cons name codec absent rest) fun value => others value.2 :=
  fun _ _ agree => more _ _ fun other left right keeps here there => agree other left right keeps
    (List.mem_cons_of_mem _ here) (List.mem_cons_of_mem _ there)

/-- Objects of kept members tell what the members tell. -/
theorem tells_members {keep : String → Bool} {fields : Fields α} {view : α → β}
    (tells : TellsFields unicode keep fields view) {one two : α}
    (agree : Agree unicode
      (.object ((fields.encode one).filter fun member => keep member.1))
      (.object ((fields.encode two).filter fun member => keep member.1))) :
    view one = view two := by
  apply tells
  intro name left right kept here there
  exact agree.member name (List.mem_filter.mpr ⟨here, kept⟩) (List.mem_filter.mpr ⟨there, kept⟩)

/-- A record is told field by field. -/
theorem tells_record {fields : Fields α} {distinct : fields.names.Nodup} {view : α → β}
    (tells : TellsFields unicode (fun _ => true) fields view) :
    Tells unicode (Codec.record fields distinct) view := by
  intro one two agree
  apply tells
  intro name left right _ here there
  exact agree.member name here there

end Tells

end QsolFed.Canonical
