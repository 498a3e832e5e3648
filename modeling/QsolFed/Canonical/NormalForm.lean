import QsolFed.Canonical
import QsolFed.Library.Json.RoundTrip
import QsolFed.Library.Text

/-!
# The canonical normal form

Every value has one normal form: its strings and keys in Unicode normal form, its members in
the order of the normalised keys. A tree is `Normal` when it is its own normal form and respects
the budgets of the profile; the writer only ever writes such trees, and the reader only ever
returns them. The canonical text of a normal tree is read back as the same tree, so that a text
determines a normal form and a normal form determines its text.
-/
namespace QsolFed

open Checked Canonical

variable (unicode : Unicode)

namespace Node

mutual

/-- The normal form of a tree, without regard to the budgets of the profile. -/
def nfcForm : Node → Node
  | .null => .null
  | .bool value => .bool value
  | .integer value => .integer value
  | .string value => .string (unicode.nfc value)
  | .array items => .array (nfcItems items)
  | .object members => .object (nfcMembers [] members)

/-- The normal forms of items. -/
def nfcItems : List Node → List Node
  | [] => []
  | item :: rest => item.nfcForm :: nfcItems rest

/-- Members under their normalised keys, a later member in place of an earlier one. -/
def nfcMembers (normalized : List (String × Node)) : List (String × Node) → List (String × Node)
  | [] => normalized
  | (key, value) :: rest =>
    nfcMembers (Entries.insert (unicode.nfc key) value.nfcForm normalized) rest

end

/-- A string in normal form that fits. -/
def Clean (text : String) : Prop := unicode.nfc text = text ∧ text.utf8ByteSize ≤ maxStringUtf8

mutual

/-- A tree in normal form that respects the budgets of the profile other than its depth. -/
def Normal : Node → Prop
  | .null => True
  | .bool _ => True
  | .integer value => safeIntegerMin ≤ value ∧ value ≤ safeIntegerMax
  | .string value => Clean unicode value
  | .array items => items.length ≤ maxArrayItems ∧ NormalItems items
  | .object members =>
    members.length ≤ maxObjectMembers ∧ Entries.Sorted members ∧ NormalMembers members

/-- Every item is normal. -/
def NormalItems : List Node → Prop
  | [] => True
  | item :: rest => item.Normal ∧ NormalItems rest

/-- Every key is clean and every value is normal. -/
def NormalMembers : List (String × Node) → Prop
  | [] => True
  | (key, value) :: rest => Clean unicode key ∧ value.Normal ∧ NormalMembers rest

end

mutual

/-- How deep a tree nests, a scalar counting one. -/
def height : Node → Nat
  | .array items => heightItems items + 1
  | .object members => heightMembers members + 1
  | _ => 1

/-- The greatest height among items. -/
def heightItems : List Node → Nat
  | [] => 0
  | item :: rest => max item.height (heightItems rest)

/-- The greatest height among members. -/
def heightMembers : List (String × Node) → Nat
  | [] => 0
  | (_, value) :: rest => max value.height (heightMembers rest)

end

mutual

/-- The JSON value that a tree is written as. -/
def toJson : Node → Json.Value String
  | .null => .null
  | .bool value => .bool value
  | .integer value => .number (Json.Number.ofInt value)
  | .string value => .string value
  | .array items => .array (toJsonItems items)
  | .object members => .object (toJsonMembers members)

/-- The JSON values of items. -/
def toJsonItems : List Node → List (Json.Value String)
  | [] => []
  | item :: rest => item.toJson :: toJsonItems rest

/-- The JSON values of members. -/
def toJsonMembers : List (String × Node) → List (String × Json.Value String)
  | [] => []
  | (key, value) :: rest => (key, value.toJson) :: toJsonMembers rest

end

/-! ## Normal members -/

variable {unicode}

/-- A list of items is normal when each item is. -/
theorem normalItems_iff (items : List Node) :
    NormalItems unicode items ↔ ∀ item ∈ items, item.Normal unicode := by
  induction items with
  | nil => simp [NormalItems]
  | cons item rest ih => simp [NormalItems, ih]

/-- A list of members is normal when each key is clean and each value is normal. -/
theorem normalMembers_iff (members : List (String × Node)) :
    NormalMembers unicode members ↔
      ∀ member ∈ members, Clean unicode member.1 ∧ member.2.Normal unicode := by
  induction members with
  | nil => simp [NormalMembers]
  | cons member rest ih => simp [NormalMembers, ih, and_assoc]

/-- Inserting a normal member keeps a list of members normal. -/
theorem normalMembers_insert {key : String} {value : Node} {members : List (String × Node)}
    (clean : Clean unicode key) (normal : value.Normal unicode)
    (others : NormalMembers unicode members) :
    NormalMembers unicode (Entries.insert key value members) := by
  rw [normalMembers_iff] at others ⊢
  intro member inserted
  rcases Entries.mem_of_mem_insert inserted with rfl | old
  · exact ⟨clean, normal⟩
  · exact others member old

/-- The height of items is bounded when each item's height is. -/
theorem heightItems_le_iff (items : List Node) (bound : Nat) :
    heightItems items ≤ bound ↔ ∀ item ∈ items, item.height ≤ bound := by
  induction items with
  | nil => simp [heightItems]
  | cons item rest ih => simp [heightItems, ih]

/-- The height of members is bounded when each value's height is. -/
theorem heightMembers_le_iff (members : List (String × Node)) (bound : Nat) :
    heightMembers members ≤ bound ↔ ∀ member ∈ members, member.2.height ≤ bound := by
  induction members with
  | nil => simp [heightMembers]
  | cons member rest ih => simp [heightMembers, ih]

/-- Inserting a member raises the height at most to that of its value. -/
theorem heightMembers_insert {key : String} {value : Node} {members : List (String × Node)}
    {bound : Nat} (fits : value.height ≤ bound) (others : heightMembers members ≤ bound) :
    heightMembers (Entries.insert key value members) ≤ bound := by
  rw [heightMembers_le_iff] at others ⊢
  intro member inserted
  rcases Entries.mem_of_mem_insert inserted with rfl | old
  · exact fits
  · exact others member old

/-! ## Depth -/

mutual

/-- The depth check passes exactly for trees that fit below its depth. -/
theorem validateDepth_ok_iff (node : Node) (depth : Nat) :
    validateDepth depth node = .ok () ↔ depth + node.height ≤ maxDepth + 1 := by
  cases node with
  | null | bool | integer | string => simp [validateDepth, height]
  | array items =>
    simp only [validateDepth, bind_ok_iff, ensure_ok_iff, height, exists_const,
      validateDepthItems_ok_iff items (depth + 1)]
    have fits := heightItems_le_iff items (maxDepth - depth)
    constructor
    · rintro ⟨here, below⟩
      have bound := fits.mpr fun item member => by have := below item member; omega
      omega
    · intro bound
      refine ⟨by omega, fun item member => ?_⟩
      have := fits.mp (by omega) item member
      omega
  | object members =>
    simp only [validateDepth, bind_ok_iff, ensure_ok_iff, height, exists_const,
      validateDepthMembers_ok_iff members (depth + 1)]
    have fits := heightMembers_le_iff members (maxDepth - depth)
    constructor
    · rintro ⟨here, below⟩
      have bound := fits.mpr fun member listed => by have := below member listed; omega
      omega
    · intro bound
      refine ⟨by omega, fun member listed => ?_⟩
      have := fits.mp (by omega) member listed
      omega

/-- The depth check over items passes exactly when it passes for each. -/
theorem validateDepthItems_ok_iff (items : List Node) (depth : Nat) :
    validateDepthItems depth items = .ok () ↔
      ∀ item ∈ items, depth + item.height ≤ maxDepth + 1 := by
  cases items with
  | nil => simp [validateDepthItems]
  | cons item rest =>
    simp only [validateDepthItems, bind_ok_iff, exists_const, validateDepth_ok_iff item depth,
      validateDepthItems_ok_iff rest depth, List.forall_mem_cons]

/-- The depth check over members passes exactly when it passes for each value. -/
theorem validateDepthMembers_ok_iff (members : List (String × Node)) (depth : Nat) :
    validateDepthMembers depth members = .ok () ↔
      ∀ member ∈ members, depth + member.2.height ≤ maxDepth + 1 := by
  cases members with
  | nil => simp [validateDepthMembers]
  | cons member rest =>
    simp only [validateDepthMembers, bind_ok_iff, exists_const,
      validateDepth_ok_iff member.2 depth, validateDepthMembers_ok_iff rest depth,
      List.forall_mem_cons]

end

/-! ## The writer's normalisation -/

mutual

/-- What the writer normalises is the normal form, which is normal and fits below its depth. -/
theorem normalizeConstructed_ok (node : Node) (depth : Nat) {result : Node}
    (accepted : normalizeConstructed unicode depth node = .ok result) :
    result = node.nfcForm unicode ∧ result.Normal unicode ∧
      depth + result.height ≤ maxDepth + 1 := by
  cases node with
  | null | bool =>
    simp only [normalizeConstructed, bind_ok_iff, ensure_ok_iff, pure_ok_iff] at accepted
    obtain ⟨-, deep, rfl⟩ := accepted
    exact ⟨rfl, trivial, by simp only [height]; omega⟩
  | integer value =>
    simp only [normalizeConstructed, bind_ok_iff, ensure_ok_iff, pure_ok_iff] at accepted
    obtain ⟨-, deep, -, bounds, rfl⟩ := accepted
    exact ⟨rfl, bounds, by simp only [height]; omega⟩
  | string value =>
    simp only [normalizeConstructed, bind_ok_iff, ensure_ok_iff, pure_ok_iff] at accepted
    obtain ⟨-, deep, -, fits, rfl⟩ := accepted
    exact ⟨rfl, ⟨unicode.idempotent value, fits⟩, by simp only [height]; omega⟩
  | array items =>
    simp only [normalizeConstructed, bind_ok_iff, ensure_ok_iff, pure_ok_iff] at accepted
    obtain ⟨-, deep, -, few, normalized, read, rfl⟩ := accepted
    obtain ⟨rfl, normal, length, heights⟩ := normalizeItems_ok items (depth + 1) read
    have bound := (heightItems_le_iff _ (maxDepth - depth)).mpr fun item member => by
      have := heights item member
      omega
    exact ⟨rfl, ⟨length ▸ few, normal⟩, by simp only [height]; omega⟩
  | object members =>
    simp only [normalizeConstructed, bind_ok_iff, ensure_ok_iff, pure_ok_iff] at accepted
    obtain ⟨-, deep, -, few, normalized, read, rfl⟩ := accepted
    obtain ⟨rfl, sorted, normal, length, heights⟩ :=
      normalizeMembers_ok members (depth + 1) [] .nil trivial (by simp) read
    have bound := (heightMembers_le_iff _ (maxDepth - depth)).mpr fun member listed => by
      have := heights member listed
      omega
    rw [List.length_nil, Nat.zero_add] at length
    exact ⟨rfl, ⟨length ▸ few, sorted, normal⟩, by simp only [height]; omega⟩
termination_by structural node

/-- Normalising items keeps their number. -/
theorem normalizeItems_ok (items : List Node) (depth : Nat) {result : List Node}
    (accepted : normalizeItems unicode depth items = .ok result) :
    result = nfcItems unicode items ∧ NormalItems unicode result ∧
      result.length = items.length ∧ ∀ item ∈ result, depth + item.height ≤ maxDepth + 1 := by
  cases items with
  | nil =>
    simp only [normalizeItems, pure_ok_iff] at accepted
    subst accepted
    exact ⟨rfl, trivial, rfl, by simp⟩
  | cons item rest =>
    simp only [normalizeItems, bind_ok_iff, pure_ok_iff] at accepted
    obtain ⟨first, head, others, tail, rfl⟩ := accepted
    obtain ⟨rfl, normal, fits⟩ := normalizeConstructed_ok item depth head
    obtain ⟨rfl, normals, length, heights⟩ := normalizeItems_ok rest depth tail
    exact ⟨rfl, ⟨normal, normals⟩, by simp [length], List.forall_mem_cons.mpr ⟨fits, heights⟩⟩
termination_by structural items

/-- Normalising members adds each of them to those already normalised. -/
theorem normalizeMembers_ok (members : List (String × Node)) (depth : Nat)
    (normalized : List (String × Node)) {result : List (String × Node)}
    (sorted : Entries.Sorted normalized) (normal : NormalMembers unicode normalized)
    (heights : ∀ member ∈ normalized, depth + member.2.height ≤ maxDepth + 1)
    (accepted : normalizeMembers unicode depth normalized members = .ok result) :
    result = nfcMembers unicode normalized members ∧ Entries.Sorted result ∧
      NormalMembers unicode result ∧ result.length = normalized.length + members.length ∧
      ∀ member ∈ result, depth + member.2.height ≤ maxDepth + 1 := by
  cases members with
  | nil =>
    simp only [normalizeMembers, pure_ok_iff] at accepted
    subst accepted
    exact ⟨rfl, sorted, normal, rfl, heights⟩
  | cons member rest =>
    obtain ⟨rawKey, member⟩ := member
    simp only [normalizeMembers, bind_ok_iff, ensure_ok_iff] at accepted
    obtain ⟨-, fits, -, fresh, value, head, tail⟩ := accepted
    obtain ⟨rfl, valueNormal, valueFits⟩ := normalizeConstructed_ok member depth head
    obtain ⟨rfl, order, normals, length, bounds⟩ := normalizeMembers_ok rest depth _
      (Entries.sorted_insert _ _ sorted)
      (normalMembers_insert ⟨unicode.idempotent rawKey, fits⟩ valueNormal normal)
      (fun member inserted => by
        rcases Entries.mem_of_mem_insert inserted with rfl | old
        · exact valueFits
        · exact heights member old) tail
    refine ⟨rfl, order, normals, ?_, bounds⟩
    rw [length, Entries.length_insert_of_absent _ (Option.isNone_iff_eq_none.mp fresh),
      List.length_cons]
    omega
termination_by structural members

end

/-! ## Normal trees are fixed -/

/-- A member whose key follows all others is inserted after them. -/
theorem insert_ordered_last {before rest : List (String × Node)} {key : String} {value : Node}
    (sorted : Entries.Sorted (before ++ (key, value) :: rest)) :
    Entries.insert key value before = before ++ [(key, value)] := by
  apply Entries.insert_last
  intro other member
  unfold Entries.Sorted at sorted
  rw [List.map_append, List.pairwise_append] at sorted
  exact sorted.2.2 other member key (by simp)

/-- A member whose key follows all others is new to them. -/
theorem find_ordered_last {before rest : List (String × Node)} {key : String} {value : Node}
    (sorted : Entries.Sorted (before ++ (key, value) :: rest)) :
    Entries.find key before = none := by
  rw [Entries.find_eq_none]
  intro member
  unfold Entries.Sorted at sorted
  rw [List.map_append, List.pairwise_append] at sorted
  exact lt_irrefl key (sorted.2.2 key member key (by simp))

mutual

/-- The writer's normalisation leaves a normal tree as it is. -/
theorem normalizeConstructed_normal (node : Node) (depth : Nat) (normal : node.Normal unicode)
    (fits : depth + node.height ≤ maxDepth + 1) :
    normalizeConstructed unicode depth node = .ok node := by
  cases node with
  | null | bool =>
    simp only [height] at fits
    simp [normalizeConstructed, ensure_pos (show depth ≤ maxDepth by omega), bind_ok, pure,
      Except.pure]
  | integer value =>
    simp only [height] at fits
    simp only [normalizeConstructed, ensure_pos (show depth ≤ maxDepth by omega), bind_ok,
      ensure_pos (show _ ∧ _ from normal)]
    rfl
  | string value =>
    simp only [height] at fits
    obtain ⟨same, short⟩ := normal
    simp only [normalizeConstructed, ensure_pos (show depth ≤ maxDepth by omega), bind_ok, same,
      ensure_pos short]
    rfl
  | array items =>
    simp only [height] at fits
    obtain ⟨few, normals⟩ := normal
    have heights := (heightItems_le_iff items (maxDepth - depth)).mp (by omega)
    have read := normalizeItems_normal items (depth + 1) normals fun item member => by
      have := heights item member
      omega
    simp only [normalizeConstructed, ensure_pos (show depth ≤ maxDepth by omega), bind_ok,
      ensure_pos few, read]
    rfl
  | object members =>
    simp only [height] at fits
    obtain ⟨few, sorted, normals⟩ := normal
    have heights := (heightMembers_le_iff members (maxDepth - depth)).mp (by omega)
    have read := normalizeMembers_normal members (depth + 1) [] sorted normals
      fun member listed => by
        have := heights member listed
        omega
    simp only [normalizeConstructed, ensure_pos (show depth ≤ maxDepth by omega), bind_ok,
      ensure_pos few, read]
    rfl
termination_by structural node

/-- Normal items are left as they are. -/
theorem normalizeItems_normal (items : List Node) (depth : Nat)
    (normal : NormalItems unicode items)
    (fits : ∀ item ∈ items, depth + item.height ≤ maxDepth + 1) :
    normalizeItems unicode depth items = .ok items := by
  cases items with
  | nil => rfl
  | cons item rest =>
    obtain ⟨here, others⟩ := List.forall_mem_cons.mp fits
    simp only [normalizeItems, normalizeConstructed_normal item depth normal.1 here, bind_ok,
      normalizeItems_normal rest depth normal.2 others]
    rfl
termination_by structural items

/-- Normal members in order are appended to those before them. -/
theorem normalizeMembers_normal (members : List (String × Node)) (depth : Nat)
    (before : List (String × Node)) (sorted : Entries.Sorted (before ++ members))
    (normal : NormalMembers unicode members)
    (fits : ∀ member ∈ members, depth + member.2.height ≤ maxDepth + 1) :
    normalizeMembers unicode depth before members = .ok (before ++ members) := by
  cases members with
  | nil => simp [normalizeMembers, pure, Except.pure]
  | cons member rest =>
    obtain ⟨key, value⟩ := member
    obtain ⟨here, others⟩ := List.forall_mem_cons.mp fits
    obtain ⟨⟨same, short⟩, valueNormal, normals⟩ := normal
    have fresh : (Entries.find key before).isNone = true := by
      rw [find_ordered_last sorted]
      rfl
    simp only [normalizeMembers, same, ensure_pos short, bind_ok, ensure_pos fresh,
      normalizeConstructed_normal value depth valueNormal here, insert_ordered_last sorted]
    rw [normalizeMembers_normal rest depth (before ++ [(key, value)]) (by simpa using sorted)
      normals others]
    simp
termination_by structural members

end

/-! ## The reader's visitor -/

mutual

/-- The visitor only builds normal trees. -/
theorem visit_normal (value : Json.Value String) {node : Node}
    (visited : visit unicode value = .ok node) : node.Normal unicode := by
  cases value with
  | null | bool =>
    simp only [visit, pure_ok_iff] at visited
    exact visited ▸ trivial
  | number number =>
    obtain ⟨integer, rfl, bounds⟩ := visitNumber_ok (by simpa only [visit] using visited)
    exact bounds
  | string text =>
    simp only [visit, normalizeString, bind_ok_iff, ensure_ok_iff, pure_ok_iff] at visited
    obtain ⟨normalized, ⟨-, fits, rfl⟩, rfl⟩ := visited
    exact ⟨unicode.idempotent text, fits⟩
  | array items =>
    simp only [visit, bind_ok_iff, pure_ok_iff] at visited
    obtain ⟨values, read, rfl⟩ := visited
    exact visitSeq_normal items [] (Nat.zero_le _) trivial read
  | object members =>
    simp only [visit, bind_ok_iff, pure_ok_iff] at visited
    obtain ⟨result, read, rfl⟩ := visited
    exact visitMap_normal members [] [] [] (Nat.zero_le _) .nil trivial read
termination_by structural value

/-- The items of a sequence are normal and not too many. -/
theorem visitSeq_normal (items : List (Json.Value String)) (values : List Node)
    {result : List Node} (few : values.length ≤ maxArrayItems)
    (normal : NormalItems unicode values)
    (visited : visitSeq unicode values items = .ok result) :
    result.length ≤ maxArrayItems ∧ NormalItems unicode result := by
  cases items with
  | nil =>
    simp only [visitSeq, pure_ok_iff] at visited
    exact visited ▸ ⟨few, normal⟩
  | cons item rest =>
    simp only [visitSeq, bind_ok_iff, ensure_ok_iff] at visited
    obtain ⟨value, first, -, room, others⟩ := visited
    refine visitSeq_normal rest (values ++ [value]) ?_ ?_ others
    · simpa using Nat.succ_le_of_lt room
    · rw [normalItems_iff] at normal ⊢
      intro node member
      rcases List.mem_append.mp member with old | new
      · exact normal node old
      · exact List.mem_singleton.mp new ▸ visit_normal item first
termination_by structural items

/-- The members of a map are normal, in order and not too many. -/
theorem visitMap_normal (members : List (String × Json.Value String))
    (built : List (String × Node)) (rawSeen normalizedSeen : List String)
    {result : List (String × Node)} (few : built.length ≤ maxObjectMembers)
    (sorted : Entries.Sorted built) (normal : NormalMembers unicode built)
    (visited : visitMap unicode built rawSeen normalizedSeen members = .ok result) :
    result.length ≤ maxObjectMembers ∧ Entries.Sorted result ∧ NormalMembers unicode result := by
  cases members with
  | nil =>
    simp only [visitMap, pure_ok_iff] at visited
    exact visited ▸ ⟨few, sorted, normal⟩
  | cons member rest =>
    obtain ⟨rawKey, member⟩ := member
    simp only [visitMap, normalizeString, bind_ok_iff, ensure_ok_iff, pure_ok_iff] at visited
    obtain ⟨-, room, -, -, key, ⟨-, fits, rfl⟩, -, fresh, value, first, others⟩ := visited
    refine visitMap_normal rest _ _ _ ?_ (Entries.sorted_insert _ value sorted)
      (normalMembers_insert ⟨unicode.idempotent rawKey, fits⟩ (visit_normal member first) normal)
      others
    exact (Entries.length_insert_le ..).trans room
termination_by structural members

end

/-- The visitor reads the literal of an integer within the bounds as that integer. -/
theorem visitNumber_ofInt {value : Int} (bounds : safeIntegerMin ≤ value ∧ value ≤ safeIntegerMax) :
    visitNumber (Json.Number.ofInt value) = .ok (.integer value) := by
  have low : safeIntegerMin = -9007199254740991 := rfl
  have high : safeIntegerMax = 9007199254740991 := rfl
  have wide : (2 : Nat) ^ 63 = 9223372036854775808 := by norm_num
  have wider : (2 : Nat) ^ 64 = 18446744073709551616 := by norm_num
  by_cases negative : value < 0
  · have back : -(value.natAbs : Int) = value := by omega
    have fits : 0 < value.natAbs ∧ value.natAbs ≤ 2 ^ 63 := by omega
    simp only [visitNumber, Json.Number.ofInt, and_self, ↓reduceIte, negative, decide_true, fits,
      visitI64, back, ensure_pos bounds, bind_ok]
    rfl
  · have back : (value.natAbs : Int) = value := by omega
    have fits : value.natAbs < 2 ^ 64 := by omega
    simp only [visitNumber, Json.Number.ofInt, and_self, ↓reduceIte, negative, decide_false,
      Bool.false_eq_true, fits, visitU64, back, ensure_pos bounds.2, bind_ok]
    rfl

mutual

/-- The visitor reads the JSON value of a normal tree as that tree. -/
theorem visit_toJson (node : Node) (normal : node.Normal unicode) :
    visit unicode node.toJson = .ok node := by
  cases node with
  | null | bool => rfl
  | integer value => exact visitNumber_ofInt normal
  | string value =>
    obtain ⟨same, short⟩ := normal
    simp only [toJson, visit, normalizeString, same, ensure_pos short, bind_ok]
    rfl
  | array items =>
    have read := visitSeq_toJson items [] normal.1 normal.2
    simp only [toJson, visit, read, bind_ok]
    rfl
  | object members =>
    obtain ⟨few, sorted, normals⟩ := normal
    have read := visitMap_toJson members [] [] [] few sorted normals (by simp) (by simp)
    simp only [toJson, visit, read, bind_ok]
    rfl
termination_by structural node

/-- Normal items are read after those before them. -/
theorem visitSeq_toJson (items : List Node) (before : List Node)
    (few : (before ++ items).length ≤ maxArrayItems) (normal : NormalItems unicode items) :
    visitSeq unicode before (toJsonItems items) = .ok (before ++ items) := by
  cases items with
  | nil => simp [toJsonItems, visitSeq, pure, Except.pure]
  | cons item rest =>
    have room : before.length < maxArrayItems := by
      simp only [List.length_append, List.length_cons] at few
      omega
    simp only [toJsonItems, visitSeq, visit_toJson item normal.1, bind_ok, ensure_pos room]
    rw [visitSeq_toJson rest (before ++ [item]) (by simpa using few) normal.2]
    simp
termination_by structural items

/-- Normal members in order are read after those before them, whose keys were the keys seen. -/
theorem visitMap_toJson (members : List (String × Node)) (before : List (String × Node))
    (rawSeen normalizedSeen : List String)
    (few : (before ++ members).length ≤ maxObjectMembers)
    (sorted : Entries.Sorted (before ++ members)) (normal : NormalMembers unicode members)
    (raw : ∀ key ∈ rawSeen, key ∈ before.map Prod.fst)
    (seen : ∀ key ∈ normalizedSeen, key ∈ before.map Prod.fst) :
    visitMap unicode before rawSeen normalizedSeen (toJsonMembers members) =
      .ok (before ++ members) := by
  cases members with
  | nil => simp [toJsonMembers, visitMap, pure, Except.pure]
  | cons member rest =>
    obtain ⟨key, value⟩ := member
    obtain ⟨⟨same, short⟩, valueNormal, normals⟩ := normal
    have room : before.length < maxObjectMembers := by
      simp only [List.length_append, List.length_cons] at few
      omega
    have fresh := (Entries.find_eq_none key before).mp (find_ordered_last sorted)
    have notRaw : key ∉ rawSeen := fun member => fresh (raw key member)
    have notSeen : key ∉ normalizedSeen := fun member => fresh (seen key member)
    have grown : ∀ keys : List String, (∀ other ∈ keys, other ∈ before.map Prod.fst) →
        ∀ other ∈ key :: keys, other ∈ (before ++ [(key, value)]).map Prod.fst := by
      intro keys known other member
      rcases List.mem_cons.mp member with rfl | old
      · simp
      · simp only [List.map_append, List.mem_append]
        exact .inl (known other old)
    simp only [toJsonMembers, visitMap, normalizeString, same, ensure_pos short, bind_ok,
      ensure_pos room, ensure_pos notRaw, ensure_pos notSeen, visit_toJson value valueNormal,
      pure_bind, insert_ordered_last sorted]
    rw [visitMap_toJson rest (before ++ [(key, value)]) (key :: rawSeen) (key :: normalizedSeen)
      (by simpa using few) (by simpa using sorted) normals (grown rawSeen raw)
      (grown normalizedSeen seen)]
    simp
termination_by structural members

end

/-! ## The canonical text -/

/-- A padded code of a control character has two leading zeros. -/
theorem lowerHex4_control (code : Nat) (small : code < 0x20) :
    lowerHex4 code = ['0', '0', Json.hexChar (code / 16), Json.hexChar (code % 16)] := by
  revert small
  revert code
  decide

/-- Characters are escaped as the JSON writer escapes them. -/
theorem escapeCharacter_eq (character : Char) :
    escapeCharacter character = Json.escapeChar character := by
  unfold escapeCharacter Json.escapeChar
  split_ifs with _ _ _ _ _ _ _ control <;> try rfl
  rw [lowerHex4_control _ control]

/-- Strings are written as the JSON writer writes them. -/
theorem escapeString_eq (value : String) : escapeString value = Json.printText value := by
  simp only [escapeString, Json.printText, funext escapeCharacter_eq]

/-- Integers are written as the JSON writer writes their literals. -/
theorem writeInteger_eq (value : Int) :
    writeInteger value = Json.printNumber (Json.Number.ofInt value) := by
  by_cases negative : value < 0 <;>
    simp [writeInteger, Json.printNumber, Json.Number.ofInt, negative]

/-- Writing items leaves none of them out. -/
theorem toJsonItems_isEmpty (items : List Node) : (toJsonItems items).isEmpty = items.isEmpty := by
  cases items <;> rfl

/-- Writing members leaves none of them out. -/
theorem toJsonMembers_isEmpty (members : List (String × Node)) :
    (toJsonMembers members).isEmpty = members.isEmpty := by
  cases members with
  | nil => rfl
  | cons member rest => rfl

mutual

/-- The characters of a tree are those of its JSON value. -/
theorem serializeInto_eq (node : Node) : serializeInto node = Json.print node.toJson := by
  cases node with
  | null => rfl
  | bool value => cases value <;> rfl
  | integer value => exact writeInteger_eq value
  | string value => exact escapeString_eq value
  | array items => simp only [serializeInto, toJson, Json.print, serializeItems_eq items]
  | object members => simp only [serializeInto, toJson, Json.print, serializeMembers_eq members]

/-- The characters of items are those of their JSON values. -/
theorem serializeItems_eq (items : List Node) :
    serializeItems items = Json.printItems (toJsonItems items) := by
  cases items with
  | nil => rfl
  | cons item rest =>
    simp only [serializeItems, toJsonItems, Json.printItems, serializeInto_eq item,
      serializeItems_eq rest, toJsonItems_isEmpty]

/-- The characters of members are those of their JSON values. -/
theorem serializeMembers_eq (members : List (String × Node)) :
    serializeMembers members = Json.printMembers (toJsonMembers members) := by
  cases members with
  | nil => rfl
  | cons member rest =>
    obtain ⟨key, value⟩ := member
    simp only [serializeMembers, toJsonMembers, Json.printMembers, escapeString_eq,
      serializeInto_eq value, serializeMembers_eq rest, toJsonMembers_isEmpty]

end

mutual

/-- The JSON value of a tree nests at most as deep as the tree. -/
theorem nesting_toJson (node : Node) : node.toJson.nesting ≤ node.height := by
  cases node with
  | null | bool | integer | string => simp [toJson, Json.Value.nesting]
  | array items =>
    simpa only [toJson, Json.Value.nesting, height] using
      Nat.succ_le_succ (nesting_toJsonItems items)
  | object members =>
    simpa only [toJson, Json.Value.nesting, height] using
      Nat.succ_le_succ (nesting_toJsonMembers members)

/-- The JSON values of items nest at most as deep as the items. -/
theorem nesting_toJsonItems (items : List Node) :
    Json.Value.nestingItems (toJsonItems items) ≤ heightItems items := by
  cases items with
  | nil => exact Nat.le_refl 0
  | cons item rest => exact max_le_max (nesting_toJson item) (nesting_toJsonItems rest)

/-- The JSON values of members nest at most as deep as the members. -/
theorem nesting_toJsonMembers (members : List (String × Node)) :
    Json.Value.nestingMembers (toJsonMembers members) ≤ heightMembers members := by
  cases members with
  | nil => exact Nat.le_refl 0
  | cons member rest =>
    obtain ⟨key, value⟩ := member
    exact max_le_max (nesting_toJson value) (nesting_toJsonMembers rest)

end

mutual

/-- The JSON value of a tree has no fractions. -/
theorem integral_toJson (node : Node) : node.toJson.Integral := by
  cases node with
  | null | bool | string => trivial
  | integer value => exact ⟨rfl, rfl⟩
  | array items => exact integral_toJsonItems items
  | object members => exact integral_toJsonMembers members

/-- The JSON values of items have no fractions. -/
theorem integral_toJsonItems (items : List Node) :
    Json.Value.IntegralItems (toJsonItems items) := by
  cases items with
  | nil => trivial
  | cons item rest => exact ⟨integral_toJson item, integral_toJsonItems rest⟩

/-- The JSON values of members have no fractions. -/
theorem integral_toJsonMembers (members : List (String × Node)) :
    Json.Value.IntegralMembers (toJsonMembers members) := by
  cases members with
  | nil => trivial
  | cons member rest =>
    obtain ⟨key, value⟩ := member
    exact ⟨integral_toJson value, integral_toJsonMembers rest⟩

end

/-! ## Order of the normal form -/

mutual

/-- The normal form of a tree is ordered. -/
theorem nfcForm_ordered (node : Node) : (node.nfcForm unicode).Ordered := by
  cases node with
  | null | bool | integer | string => trivial
  | array items => exact nfcItems_ordered items
  | object members => exact nfcMembers_ordered members [] .nil trivial

/-- The normal forms of items are ordered. -/
theorem nfcItems_ordered (items : List Node) : OrderedItems (nfcItems unicode items) := by
  cases items with
  | nil => trivial
  | cons item rest => exact ⟨nfcForm_ordered item, nfcItems_ordered rest⟩

/-- The normal forms of members are ordered. -/
theorem nfcMembers_ordered (members : List (String × Node)) (normalized : List (String × Node))
    (sorted : Entries.Sorted normalized) (ordered : OrderedMembers normalized) :
    Entries.Sorted (nfcMembers unicode normalized members) ∧
      OrderedMembers (nfcMembers unicode normalized members) := by
  cases members with
  | nil => exact ⟨sorted, ordered⟩
  | cons member rest =>
    obtain ⟨key, value⟩ := member
    exact nfcMembers_ordered rest _ (Entries.sorted_insert _ _ sorted)
      (orderedMembers_insert (nfcForm_ordered value) ordered)

end

end Node

/-! ## Reading what was written -/

/-- The normal form of a value. -/
def CanonicalValue.nfcForm (value : CanonicalValue) : CanonicalValue :=
  ⟨value.node.nfcForm unicode, Node.nfcForm_ordered value.node⟩

namespace Canonical

variable {unicode}

/-- A text that begins with an ASCII character begins with no byte order mark. -/
theorem not_byteOrderMark {first : Char} (rest : List Char) (ascii : Text.Ascii first) :
    ¬byteOrderMark <+: (String.ofList (first :: rest)).toByteArray.data.toList := by
  change ¬byteOrderMark <+: Text.bytes (String.ofList (first :: rest))
  rw [Text.bytes_ofList, List.flatMap_cons, Text.utf8EncodeChar_ascii ascii]
  intro mark
  have same : (0xef : UInt8) = first.val.toUInt8 := (List.cons_prefix_cons.mp mark).1
  have value := congrArg UInt8.toNat same
  rw [Text.toNat_byte ascii] at value
  have := show first.toNat < 0x80 from ascii
  simp only [UInt8.reduceToNat] at value
  omega

/-- A normal tree is read from its canonical text. -/
theorem parseNode_serializeInto {node : Node} (normal : node.Normal unicode)
    (fits : node.height ≤ maxDepth)
    (short : (String.ofList (serializeInto node)).utf8ByteSize ≤ maxInputBytes) :
    parseNode unicode (String.ofList (serializeInto node)).toByteArray = .ok node := by
  have text : serializeInto node = Json.print node.toJson := Node.serializeInto_eq node
  obtain ⟨first, tail, head, -, -, -, ascii⟩ := Json.print_head node.toJson
  have mark := not_byteOrderMark tail ascii
  rw [← head, ← text] at mark
  have deep : node.toJson.nesting ≤ recursionLimit :=
    (Node.nesting_toJson node).trans (fits.trans (by decide))
  have read := Json.readDocument_print node.toJson recursionLimit (Node.integral_toJson node) deep
  have depth : validateDepth 1 node = .ok () :=
    (Node.validateDepth_ok_iff node 1).mpr (by omega)
  have size : (String.ofList (serializeInto node)).toByteArray.size ≤ maxInputBytes := short
  rw [text] at size mark ⊢
  simp only [parseNode, ensure_pos size, ensure_pos mark, bind_ok, Text.fromUTF8_toByteArray, okOr,
    String.toList_ofList, read, Node.visit_toJson node normal, depth]
  rfl

/-- What the writer accepts is the text of its normal form, which is normal and fits. -/
theorem serializeCanonical_ok {value : CanonicalValue} {text : String}
    (written : serializeCanonical unicode value = .ok text) :
    text = String.ofList (serializeInto (value.nfcForm unicode).node) ∧
      (value.nfcForm unicode).node.Normal unicode ∧
      (value.nfcForm unicode).node.height ≤ maxDepth ∧ text.utf8ByteSize ≤ maxInputBytes := by
  simp only [serializeCanonical, bind_ok_iff, ensure_ok_iff, pure_ok_iff] at written
  obtain ⟨normalized, accepted, -, short, rfl⟩ := written
  obtain ⟨rfl, normal, fits⟩ := Node.normalizeConstructed_ok value.node 1 accepted
  exact ⟨rfl, normal, by simp only [CanonicalValue.nfcForm]; omega, short⟩

/-- The text of a normal value is what the writer writes. -/
theorem serializeCanonical_normal (value : CanonicalValue) (normal : value.node.Normal unicode)
    (fits : value.node.height ≤ maxDepth)
    (short : (String.ofList (serializeInto value.node)).utf8ByteSize ≤ maxInputBytes) :
    serializeCanonical unicode value = .ok (String.ofList (serializeInto value.node)) := by
  simp only [serializeCanonical,
    Node.normalizeConstructed_normal value.node 1 normal (by omega), bind_ok, ensure_pos short]
  rfl

/-- What the reader returns is normal and fits. -/
theorem parseCanonicalValue_normal {raw : ByteArray} {value : CanonicalValue}
    (parsed : parseCanonicalValue unicode raw = .ok value) :
    value.node.Normal unicode ∧ value.node.height ≤ maxDepth := by
  rw [parseCanonicalValue_ok_iff] at parsed
  simp only [parseNode, bind_ok_iff, pure_ok_iff] at parsed
  obtain ⟨-, -, -, -, -, -, json, -, node, visited, ⟨⟩, shallow, rfl⟩ := parsed
  have fits := (Node.validateDepth_ok_iff value.node 1).mp shallow
  exact ⟨Node.visit_normal json visited, by omega⟩

/-- What the writer writes is read as the normal form. -/
theorem parseCanonicalValue_serializeCanonical {value : CanonicalValue} {text : String}
    (written : serializeCanonical unicode value = .ok text) :
    parseCanonicalValue unicode text.toByteArray = .ok (value.nfcForm unicode) := by
  obtain ⟨rfl, normal, fits, short⟩ := serializeCanonical_ok written
  rw [parseCanonicalValue_ok_iff]
  exact parseNode_serializeInto normal fits short

/-- The canonical bytes of a text are their own canonical bytes. -/
theorem canonicalize_canonical {raw output : ByteArray}
    (accepted : canonicalize unicode raw = .ok output) :
    canonicalize unicode output = .ok output := by
  simp only [canonicalize, bind_ok_iff, pure_ok_iff] at accepted
  obtain ⟨value, parsed, text, written, rfl⟩ := accepted
  obtain ⟨textEq, normal, fits, short⟩ := serializeCanonical_ok written
  have again := parseCanonicalValue_serializeCanonical written
  have same := serializeCanonical_normal _ normal fits (textEq ▸ short)
  rw [← textEq] at same
  simp only [canonicalize, again, bind_ok, same]
  rfl

/-- The canonical text and the normal form of a value determine each other. The text of the
normal form is read as the normal form, and the bytes that are their own canonical bytes are
exactly the bytes that canonicalising some text produces. -/
theorem canonical_text_determines_normal_form (unicode : Unicode) :
    (∀ value text, serializeCanonical unicode value = .ok text →
      parseCanonicalValue unicode text.toByteArray = .ok (value.nfcForm unicode)) ∧
    (∀ left right leftText rightText, serializeCanonical unicode left = .ok leftText →
      serializeCanonical unicode right = .ok rightText →
      (leftText = rightText ↔ left.nfcForm unicode = right.nfcForm unicode)) ∧
    (∀ raw output, canonicalize unicode raw = .ok output →
      canonicalize unicode output = .ok output) ∧
    (∀ bytes, canonicalize unicode bytes = .ok bytes ↔
      ∃ raw, canonicalize unicode raw = .ok bytes) := by
  refine ⟨fun value text written => parseCanonicalValue_serializeCanonical written, ?_,
    fun raw output accepted => canonicalize_canonical accepted,
    fun bytes => ⟨fun fixed => ⟨bytes, fixed⟩, fun ⟨raw, accepted⟩ => canonicalize_canonical accepted⟩⟩
  intro left right leftText rightText writtenLeft writtenRight
  constructor
  · rintro rfl
    have readLeft := parseCanonicalValue_serializeCanonical writtenLeft
    rw [parseCanonicalValue_serializeCanonical writtenRight] at readLeft
    exact (Except.ok.inj readLeft).symm
  · intro same
    rw [(serializeCanonical_ok writtenLeft).1, (serializeCanonical_ok writtenRight).1, same]

/-- The four laws at a value that holds a string and a number. -/
theorem canonical_text_determines_normal_form_items :
    parseCanonicalValue Unicode.plain "[1,\"a\"]".toByteArray =
      .ok ⟨.array [.integer 1, .string "a"], by simp [Node.Ordered, Node.OrderedItems]⟩ :=
  (canonical_text_determines_normal_form Unicode.plain).1
    ⟨.array [.integer 1, .string "a"], by simp [Node.Ordered, Node.OrderedItems]⟩ _ (by rfl)

end Canonical

end QsolFed
