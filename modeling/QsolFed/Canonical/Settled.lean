import QsolFed.Canonical.NormalForm
import QsolFed.Library.Json.Reorder

/-!
# Settled values

A value is settled when its texts are in normal form and fit, its numbers are small integers and
its objects have few members with distinct names. The visitor only sorts the members of a settled
value, so canonicalising it succeeds exactly when the text fits the size limit, and the canonical
text is read back as a reordering of the value.
-/
namespace QsolFed.Canonical

open Checked Json

variable {unicode : Unicode}

mutual

/-- A value that the visitor only reorders, whatever its depth and size. -/
def Settled (unicode : Unicode) : Value String → Prop
  | .null => True
  | .bool _ => True
  | .number number =>
    ∃ value, number = Number.ofInt value ∧ safeIntegerMin ≤ value ∧ value ≤ safeIntegerMax
  | .string text => Node.Clean unicode text
  | .array items => items.length ≤ maxArrayItems ∧ SettledItems unicode items
  | .object members =>
    members.length ≤ maxObjectMembers ∧ (members.map Prod.fst).Nodup ∧
      SettledMembers unicode members

/-- Every item is settled. -/
def SettledItems (unicode : Unicode) : List (Value String) → Prop
  | [] => True
  | item :: rest => Settled unicode item ∧ SettledItems unicode rest

/-- Every name is clean and every value is settled. -/
def SettledMembers (unicode : Unicode) : List (String × Value String) → Prop
  | [] => True
  | (name, value) :: rest =>
    Node.Clean unicode name ∧ Settled unicode value ∧ SettledMembers unicode rest

end

/-- The members of a tree as JSON values. -/
theorem toJsonMembers_eq_map (members : List (String × Node)) :
    Node.toJsonMembers members = members.map fun member => (member.1, member.2.toJson) := by
  induction members with
  | nil => rfl
  | cons member rest ih =>
    obtain ⟨key, value⟩ := member
    simp [Node.toJsonMembers, ih]

/-- The items of a tree as JSON values. -/
theorem toJsonItems_eq_map (items : List Node) :
    Node.toJsonItems items = items.map Node.toJson := by
  induction items with
  | nil => rfl
  | cons item rest ih => simp [Node.toJsonItems, ih]

/-- A text in normal form that fits is normalised to itself. -/
theorem normalizeString_clean {text : String} (clean : Node.Clean unicode text) :
    normalizeString unicode text = .ok text := by
  simp only [normalizeString, clean.1, ensure_pos clean.2, bind_ok]
  rfl

/-- Normalising a text is normalising its normal form. -/
theorem normalizeString_nfc (unicode : Unicode) (text : String) :
    normalizeString unicode (unicode.nfc text) = normalizeString unicode text := by
  simp only [normalizeString, unicode.idempotent]

mutual

/-- The visitor reads a settled value as a tree that is a reordering of it. -/
theorem visit_settled (value : Value String) (settled : Settled unicode value) :
    ∃ node, visit unicode value = .ok node ∧ Reorders value node.toJson := by
  cases value with
  | null => exact ⟨.null, rfl, .null⟩
  | bool flag => exact ⟨.bool flag, rfl, .bool flag⟩
  | number number =>
    obtain ⟨integer, rfl, bounds⟩ := settled
    exact ⟨.integer integer, by rw [visit, Node.visitNumber_ofInt bounds], .number _⟩
  | string text =>
    refine ⟨.string text, ?_, .string text⟩
    simp only [visit, normalizeString_clean settled, bind_ok]
    rfl
  | array items =>
    obtain ⟨few, inner⟩ := settled
    obtain ⟨nodes, read, each⟩ := visitSeq_settled items [] (by simpa using few) inner
    refine ⟨.array nodes, ?_, .array (toJsonItems_eq_map nodes ▸ each)⟩
    simp only [visit, read, List.nil_append, bind_ok]
    rfl
  | object members =>
    obtain ⟨few, distinct, inner⟩ := settled
    obtain ⟨result, aligned, read, keys, each, order⟩ := visitMap_settled members [] [] []
      (by simpa using few) (by simpa using distinct) inner (by simp) (by simp)
    refine ⟨.object result, by simp only [visit, read, bind_ok]; rfl, ?_⟩
    rw [Node.toJson, toJsonMembers_eq_map]
    refine .object (?_ : _ = (aligned.map fun member => (member.1, member.2.toJson)).map Prod.fst)
      ?_ (order.map _)
    · simpa [Function.comp_def] using keys
    · simpa [List.map_map, Function.comp_def] using each
termination_by structural value

/-- The items of a sequence are read one by one. -/
theorem visitSeq_settled (items : List (Value String)) (values : List Node)
    (few : values.length + items.length ≤ maxArrayItems) (settled : SettledItems unicode items) :
    ∃ nodes, visitSeq unicode values items = .ok (values ++ nodes) ∧
      List.Forall₂ Reorders items (nodes.map Node.toJson) := by
  cases items with
  | nil => exact ⟨[], by simp [visitSeq, pure, Except.pure], .nil⟩
  | cons item rest =>
    obtain ⟨node, first, same⟩ := visit_settled item settled.1
    rw [List.length_cons] at few
    obtain ⟨nodes, others, each⟩ := visitSeq_settled rest (values ++ [node])
      (by rw [List.length_append, List.length_singleton]; omega) settled.2
    have room : values.length < maxArrayItems := by omega
    refine ⟨node :: nodes, ?_, .cons same each⟩
    simp only [visitSeq, first, bind_ok, ensure_pos room, others, List.append_assoc,
      List.singleton_append]
termination_by structural items

/-- The members of a map with new distinct names are inserted one by one. -/
theorem visitMap_settled (members : List (String × Value String)) (built : List (String × Node))
    (rawSeen normalizedSeen : List String)
    (few : built.length + members.length ≤ maxObjectMembers)
    (distinct : (built.map Prod.fst ++ members.map Prod.fst).Nodup)
    (settled : SettledMembers unicode members)
    (raw : ∀ key ∈ rawSeen, key ∈ built.map Prod.fst)
    (seen : ∀ key ∈ normalizedSeen, key ∈ built.map Prod.fst) :
    ∃ result aligned, visitMap unicode built rawSeen normalizedSeen members = .ok result ∧
      members.map Prod.fst = aligned.map Prod.fst ∧
      List.Forall₂ Reorders (members.map Prod.snd)
        (aligned.map fun member => member.2.toJson) ∧
      (built ++ aligned).Perm result := by
  cases members with
  | nil => exact ⟨built, [], rfl, rfl, .nil, by simp⟩
  | cons member rest =>
    obtain ⟨key, value⟩ := member
    obtain ⟨text, valueSettled, inner⟩ := settled
    obtain ⟨node, first, same⟩ := visit_settled value valueSettled
    have new : key ∉ built.map Prod.fst := by
      have apart := (List.nodup_append.mp distinct).2.2
      exact fun member => apart key member key (by simp) rfl
    have absent := (Entries.find_eq_none key built).mpr new
    have grown := Entries.insert_perm node absent
    have keys := grown.map Prod.fst
    rw [List.length_cons] at few
    have more : ∀ names : List String, (∀ other ∈ names, other ∈ built.map Prod.fst) →
        ∀ other ∈ key :: names, other ∈ (Entries.insert key node built).map Prod.fst := by
      intro names known other member
      rw [keys.mem_iff]
      rcases List.mem_cons.mp member with rfl | old
      · simp
      · exact List.mem_cons_of_mem _ (known other old)
    obtain ⟨result, aligned, others, otherKeys, each, order⟩ := visitMap_settled rest
      (Entries.insert key node built) (key :: rawSeen) (key :: normalizedSeen)
      (by rw [grown.length_eq, List.length_cons]; omega)
      (by
        refine ((keys.append_right _).nodup_iff).mpr ?_
        simpa using (List.perm_middle.nodup_iff).mp distinct)
      inner (more rawSeen raw) (more normalizedSeen seen)
    have room : built.length < maxObjectMembers := by omega
    have notRaw : key ∉ rawSeen := fun member => new (raw key member)
    have notSeen : key ∉ normalizedSeen := fun member => new (seen key member)
    refine ⟨result, (key, node) :: aligned, ?_, by simp [otherKeys], .cons same each, ?_⟩
    · simp only [visitMap, ensure_pos room, ensure_pos notRaw, normalizeString_clean text, bind_ok,
        ensure_pos notSeen, first, others]
    · exact (List.perm_middle.trans ((grown.symm.append_right aligned))).trans order
termination_by structural members

end

mutual

/-- The JSON value of a tree nests at least as deep as the tree, its scalars aside. -/
theorem height_le_nesting (node : Node) : node.height ≤ node.toJson.nesting + 1 := by
  cases node with
  | null | bool | integer | string => simp [Node.height]
  | array items => exact Nat.succ_le_succ (heightItems_le_nesting items)
  | object members => exact Nat.succ_le_succ (heightMembers_le_nesting members)

/-- The JSON values of items nest at least as deep as the items, their scalars aside. -/
theorem heightItems_le_nesting (items : List Node) :
    Node.heightItems items ≤ Value.nestingItems (Node.toJsonItems items) + 1 := by
  cases items with
  | nil => exact Nat.zero_le _
  | cons item rest =>
    have first := height_le_nesting item
    have others := heightItems_le_nesting rest
    simp only [Node.heightItems, Node.toJsonItems, Value.nestingItems]
    omega

/-- The JSON values of members nest at least as deep as the members, their scalars aside. -/
theorem heightMembers_le_nesting (members : List (String × Node)) :
    Node.heightMembers members ≤ Value.nestingMembers (Node.toJsonMembers members) + 1 := by
  cases members with
  | nil => exact Nat.zero_le _
  | cons member rest =>
    obtain ⟨key, value⟩ := member
    have first := height_le_nesting value
    have others := heightMembers_le_nesting rest
    simp only [Node.heightMembers, Node.toJsonMembers, Value.nestingMembers]
    omega

end

mutual

/-- A settled value has no fractions. -/
theorem Settled.integral (value : Value String) (settled : Settled unicode value) : value.Integral := by
  cases value with
  | null | bool | string => trivial
  | number number =>
    obtain ⟨integer, rfl, -⟩ := settled
    exact ⟨rfl, rfl⟩
  | array items => exact SettledItems.integral items settled.2
  | object members => exact SettledMembers.integral members settled.2.2

/-- Settled items have no fractions. -/
theorem SettledItems.integral (items : List (Value String)) (settled : SettledItems unicode items) :
    Value.IntegralItems items := by
  cases items with
  | nil => trivial
  | cons item rest => exact ⟨settled.1.integral, SettledItems.integral rest settled.2⟩

/-- Settled members have no fractions. -/
theorem SettledMembers.integral (members : List (String × Value String))
    (settled : SettledMembers unicode members) : Value.IntegralMembers members := by
  cases members with
  | nil => trivial
  | cons member rest =>
    obtain ⟨name, value⟩ := member
    exact ⟨settled.2.1.integral, SettledMembers.integral rest settled.2.2⟩

end

/-! ## Encoding settled values -/

/-- The bytes of a written value. -/
def writtenBytes (value : Value String) : ByteArray := (String.ofList (print value)).toByteArray

/-- The size of a text adds up over its characters. -/
theorem utf8ByteSize_ofList (characters : List Char) :
    (String.ofList characters).utf8ByteSize = weigh Char.utf8Size characters := by
  rw [← Text.length_bytes, Text.bytes_ofList]
  induction characters with
  | nil => rfl
  | cons c rest ih => simp [ih]

/-- Reordered values have the same size when written. -/
theorem size_reorders {value written : Value String} (same : Reorders value written) :
    (writtenBytes written).size = (writtenBytes value).size := by
  change (String.ofList (print written)).utf8ByteSize = (String.ofList (print value)).utf8ByteSize
  rw [utf8ByteSize_ofList, utf8ByteSize_ofList, same.weigh_print Char.utf8Size value]

/-- The bytes of a written value that nests within the limits of the reader. -/
theorem parseNode_writtenBytes {value : Value String} {node : Node}
    (integral : value.Integral) (shallow : value.nesting ≤ recursionLimit)
    (visited : visit unicode value = .ok node) (fits : node.height ≤ maxDepth)
    (short : (writtenBytes value).size ≤ maxInputBytes) :
    parseNode unicode (writtenBytes value) = .ok node := by
  obtain ⟨first, tail, head, -, -, -, ascii⟩ := print_head value
  have mark := not_byteOrderMark tail ascii
  rw [← head] at mark
  have read := readDocument_print value recursionLimit integral shallow
  have depth : validateDepth 1 node = .ok () :=
    (Node.validateDepth_ok_iff node 1).mpr (by omega)
  simp only [writtenBytes] at short ⊢
  simp only [parseNode, ensure_pos short, ensure_pos mark, bind_ok, Text.fromUTF8_toByteArray, okOr,
    String.toList_ofList, read, visited, depth]
  rfl

/-- A value that the visitor takes for a settled one, which is not nested too deep, has canonical
bytes when both fit the size limit: those of a tree that is a reordering of the settled value, and
the tree is read from them. -/
theorem canonicalize_visited {raw value : Value String}
    (taken : visit unicode raw = visit unicode value) (settled : Settled unicode value)
    (integral : raw.Integral) (deep : raw.nesting ≤ recursionLimit)
    (long : (writtenBytes raw).size ≤ maxInputBytes) (shallow : value.nesting < maxDepth)
    (short : (writtenBytes value).size ≤ maxInputBytes) :
    ∃ node : Node, visit unicode value = .ok node ∧
      canonicalize unicode (writtenBytes raw) = .ok (writtenBytes node.toJson) ∧
      Reorders value node.toJson ∧ node.toJson.nesting ≤ recursionLimit ∧ node.Normal unicode ∧
      node.height ≤ maxDepth ∧ parseNode unicode (writtenBytes node.toJson) = .ok node := by
  obtain ⟨node, visited, same⟩ : ∃ node, visit unicode value = .ok node ∧
      Reorders value node.toJson := visit_settled value settled
  have nests := same.nesting_le value
  have fits : node.height ≤ maxDepth := by
    have := height_le_nesting node
    omega
  have within : value.nesting ≤ recursionLimit := shallow.le.trans (by decide)
  have parsed := parseNode_writtenBytes integral deep (taken.trans visited) fits long
  have normal := Node.visit_normal value visited
  have text : serializeInto node = print node.toJson := Node.serializeInto_eq node
  have size : (String.ofList (serializeInto node)).utf8ByteSize ≤ maxInputBytes := by
    rw [text]
    exact (size_reorders same).trans_le short
  have again := parseNode_serializeInto normal fits size
  rw [text] at again
  refine ⟨node, visited, ?_, same, nests.trans within, normal, fits, again⟩
  have read := (parseCanonicalValue_ok_iff unicode (writtenBytes raw)
    ⟨node, visit_ordered unicode value visited⟩).mpr parsed
  have written := serializeCanonical_normal ⟨node, visit_ordered unicode value visited⟩
    normal fits size
  simp only [canonicalize, read, bind_ok, written]
  rw [text]
  rfl

end QsolFed.Canonical
