import QsolFed.Encoding

/-!
# Trees of canonical bytes

Bytes that are their own canonical bytes are the written form of a tree, and an ordered tree is
determined by its JSON value up to the order of members. Data is therefore written as the bytes it
was read from exactly when its value is the value of the tree up to the order of members.
-/
namespace QsolFed.Canonical

open Checked Json

/-- Integers are told by the way they are written. -/
theorem ofInt_inj {one two : Int} (same : Number.ofInt one = Number.ofInt two) : one = two := by
  simp only [Number.ofInt, Number.mk.injEq, decide_eq_decide] at same
  omega

/-- The children of a tree are found under the names of the members of its value. -/
theorem find_toJson {members : List (String × Value String)} {nodes : List (String × Node)}
    (sorted : Entries.Sorted nodes) (same : Reorders (.object members) (Node.object nodes).toJson) :
    (∀ name, name ∈ nodes.map Prod.fst ↔ name ∈ members.map Prod.fst) ∧
      ∀ member ∈ members, ∃ child, Entries.find member.1 nodes = some child ∧
        Reorders member.2 child.toJson := by
  rw [Node.toJson, toJsonMembers_eq_map] at same
  have names : (nodes.map fun node => (node.1, node.2.toJson)).map Prod.fst =
      nodes.map Prod.fst := by
    rw [List.map_map]
    rfl
  cases same with
  | object keys each order =>
    have distinct : ((nodes.map fun node => (node.1, node.2.toJson)).map Prod.fst).Nodup :=
      names ▸ sorted.nodup
    refine ⟨fun name => ?_, fun member listed => ?_⟩
    · rw [← names, keys]
      exact ((order.map Prod.fst).mem_iff).symm
    · obtain ⟨other, found, reorders⟩ := find_reorders keys each order distinct listed
      obtain ⟨⟨_, child⟩, there, same⟩ := List.mem_map.mp (Entries.mem_of_find found)
      obtain ⟨rfl, rfl⟩ := Prod.mk.inj same
      exact ⟨child, Entries.find_of_mem sorted.nodup there, reorders⟩

/-- Ordered trees of the same items are equal when those of each item are. -/
theorem eq_of_each {items : List (Value String)} (each : ∀ item ∈ items, ∀ {one two : Node},
      Reorders item one.toJson → Reorders item two.toJson → one.Ordered ∧ two.Ordered → one = two)
    {ones twos : List Node} (first : List.Forall₂ Reorders items (ones.map Node.toJson))
    (second : List.Forall₂ Reorders items (twos.map Node.toJson))
    (orders : ∀ one ∈ ones, one.Ordered) (ordersToo : ∀ two ∈ twos, two.Ordered) : ones = twos := by
  induction items generalizing ones twos with
  | nil =>
    cases ones with
    | nil =>
      cases twos with
      | nil => rfl
      | cons => cases second
    | cons => cases first
  | cons item rest ih =>
    cases ones with
    | nil => cases first
    | cons one ones =>
      cases twos with
      | nil => cases second
      | cons two twos =>
        obtain ⟨head, tail⟩ := List.forall₂_cons.mp first
        obtain ⟨headToo, tailToo⟩ := List.forall₂_cons.mp second
        rw [List.forall_mem_cons] at orders ordersToo
        rw [each item List.mem_cons_self head headToo ⟨orders.1, ordersToo.1⟩,
          ih (fun other listed => each other (List.mem_cons_of_mem _ listed)) tail tailToo orders.2
            ordersToo.2]

mutual

/-- Ordered trees of the same value are equal. -/
theorem eq_of_reorders (value : Value String) {one two : Node}
    (first : Reorders value one.toJson) (second : Reorders value two.toJson)
    (ordered : one.Ordered ∧ two.Ordered) : one = two := by
  cases value with
  | null =>
    cases one <;> cases first
    cases two <;> cases second
    rfl
  | bool flag =>
    cases one <;> cases first
    cases two <;> cases second
    rfl
  | number number =>
    cases one with
    | integer left =>
      cases two with
      | integer right =>
        simp only [Node.toJson] at first second
        have same : Number.ofInt left = Number.ofInt right := by
          generalize Number.ofInt left = leftNumber at first
          generalize Number.ofInt right = rightNumber at second
          cases first
          cases second
          rfl
        rw [ofInt_inj same]
      | null | bool | string | array | object => cases second
    | null | bool | string | array | object => cases first
  | string text =>
    cases one <;> cases first
    cases two <;> cases second
    rfl
  | array items =>
    cases one with
    | array ones =>
      cases two with
      | array twos =>
        have orders := ordered.1
        have ordersToo := ordered.2
        rw [Node.Ordered, orderedItems_iff] at orders ordersToo
        rw [Node.toJson, toJsonItems_eq_map] at first second
        cases first with
        | array firsts =>
          cases second with
          | array seconds =>
            exact congrArg _ (eq_of_each (eq_of_reorders_items items) firsts seconds orders
              ordersToo)
      | null | bool | integer | string | object => cases second
    | null | bool | integer | string | object => cases first
  | object members =>
    cases one with
    | object ones =>
      cases two with
      | object twos =>
        obtain ⟨namesOne, foundOne⟩ := find_toJson ordered.1.1 first
        obtain ⟨namesTwo, foundTwo⟩ := find_toJson ordered.2.1 second
        have orders := ordered.1.2
        have ordersToo := ordered.2.2
        rw [orderedMembers_iff] at orders ordersToo
        congr 1
        refine Entries.ext_find ordered.1.1 ordered.2.1 fun name => ?_
        by_cases listed : name ∈ members.map Prod.fst
        · obtain ⟨member, there, rfl⟩ := List.mem_map.mp listed
          obtain ⟨left, leftFound, leftSame⟩ := foundOne member there
          obtain ⟨right, rightFound, rightSame⟩ := foundTwo member there
          rw [leftFound, rightFound, eq_of_reorders_members members member there leftSame rightSame
            ⟨orders _ (Entries.mem_of_find leftFound), ordersToo _ (Entries.mem_of_find rightFound)⟩]
        · rw [(Entries.find_eq_none name ones).mpr ((namesOne name).not.mpr listed),
            (Entries.find_eq_none name twos).mpr ((namesTwo name).not.mpr listed)]
      | null | bool | integer | string | array => cases second
    | null | bool | integer | string | array => cases first
termination_by structural value

/-- Ordered trees of the same item are equal. -/
theorem eq_of_reorders_items (items : List (Value String)) : ∀ item ∈ items, ∀ {one two : Node},
    Reorders item one.toJson → Reorders item two.toJson → one.Ordered ∧ two.Ordered →
      one = two := by
  cases items with
  | nil => exact fun _ listed => by cases listed
  | cons head rest =>
    intro item listed one two first second ordered
    rcases List.mem_cons.mp listed with same | later
    · rw [same] at first second
      exact eq_of_reorders head first second ordered
    · exact eq_of_reorders_items rest item later first second ordered
termination_by structural items

/-- Ordered trees of the value of the same member are equal. -/
theorem eq_of_reorders_members (members : List (String × Value String)) :
    ∀ member ∈ members, ∀ {one two : Node}, Reorders member.2 one.toJson →
      Reorders member.2 two.toJson → one.Ordered ∧ two.Ordered → one = two := by
  cases members with
  | nil => exact fun _ listed => by cases listed
  | cons head rest =>
    obtain ⟨name, value⟩ := head
    intro member listed one two first second ordered
    rcases List.mem_cons.mp listed with same | later
    · rw [same] at first second
      exact eq_of_reorders value first second ordered
    · exact eq_of_reorders_members rest member later first second ordered
termination_by structural members

end

/-! ## Canonical bytes -/

/-- Values with integers only that are written alike are the same. -/
theorem writtenBytes_inj {one two : Value String} (integral : one.Integral ∧ two.Integral)
    (shallow : one.nesting ≤ recursionLimit ∧ two.nesting ≤ recursionLimit)
    (same : writtenBytes one = writtenBytes two) : one = two := by
  have texts := congrArg String.fromUTF8? same
  simp only [writtenBytes, Text.fromUTF8_toByteArray, Option.some.injEq] at texts
  have characters := congrArg String.toList texts
  rw [String.toList_ofList, String.toList_ofList] at characters
  have first := readDocument_print one recursionLimit integral.1 shallow.1
  rw [characters, readDocument_print two recursionLimit integral.2 shallow.2] at first
  exact (Option.some.inj first).symm

/-- Canonical bytes are the written form of the value they are read as. -/
theorem canonical_node {unicode : Unicode} {raw : ByteArray}
    (canonical : canonicalize unicode raw = .ok raw) :
    ∃ value, parseCanonicalValue unicode raw = .ok value ∧ raw = writtenBytes value.node.toJson ∧
      value.node.Normal unicode ∧ value.node.height ≤ maxDepth := by
  simp only [canonicalize, bind_ok_iff, pure_ok_iff] at canonical
  obtain ⟨value, parsed, text, written, same⟩ := canonical
  obtain ⟨normal, fits⟩ := parseCanonicalValue_normal parsed
  simp only [serializeCanonical, Node.normalizeConstructed_normal value.node 1 normal
    (show 1 + value.node.height ≤ maxDepth + 1 by omega), bind_ok, bind_ok_iff, pure_ok_iff]
    at written
  obtain ⟨-, -, rfl⟩ := written
  refine ⟨value, parsed, ?_, normal, fits⟩
  rw [← same, Node.serializeInto_eq]
  rfl

/-- The written form of a normal tree that fits is canonical. -/
theorem canonicalize_normal {unicode : Unicode} {node : Node} (normal : node.Normal unicode)
    (fits : node.height ≤ maxDepth) (short : (writtenBytes node.toJson).size ≤ maxInputBytes) :
    canonicalize unicode (writtenBytes node.toJson) = .ok (writtenBytes node.toJson) := by
  have text : serializeInto node = print node.toJson := Node.serializeInto_eq node
  have size : (String.ofList (serializeInto node)).utf8ByteSize ≤ maxInputBytes := text ▸ short
  have read := parseNode_serializeInto normal fits size
  have parsed := (parseCanonicalValue_ok_iff unicode _ ⟨node, parseNode_ordered _ read⟩).mpr read
  have written := serializeCanonical_normal ⟨node, parseNode_ordered _ read⟩ normal fits size
  change canonicalize unicode (String.ofList (print node.toJson)).toByteArray =
    .ok (String.ofList (print node.toJson)).toByteArray
  rw [← text, canonicalize, parsed, bind_ok, written, bind_ok]
  rfl

/-- Data is decoded from the written form of a tree. -/
theorem fromSlice_node {α : Type} (codec : Codec α) {node : Node} (fits : node.height ≤ maxDepth) :
    fromSlice codec (writtenBytes node.toJson) = codec.decode node.toJson := by
  have shallow : node.toJson.nesting ≤ recursionLimit :=
    (Node.nesting_toJson node).trans (fits.trans (by decide))
  simp only [fromSlice, writtenBytes, Text.fromUTF8_toByteArray, bind, Option.bind,
    String.toList_ofList, readDocument_print node.toJson recursionLimit (Node.integral_toJson node)
      shallow]

/-- Plain data is written as canonical bytes exactly when its value is that of their tree up to
the order of members. -/
theorem canonicalize_iff_reorders {unicode : Unicode} {value : Value String} {node : Node}
    (plain : Plain value) (shallow : value.nesting < maxDepth)
    (short : (writtenBytes value).size ≤ maxInputBytes) (ordered : node.Ordered)
    (fits : node.height ≤ maxDepth) :
    canonicalize unicode (writtenBytes value) = .ok (writtenBytes node.toJson) ↔
      Reorders value node.toJson := by
  obtain ⟨other, -, accepted, same, shallowOther, -, -, parsed⟩ :=
    canonicalize_plain unicode plain shallow short
  have orderedOther := parseNode_ordered _ parsed
  rw [accepted]
  constructor
  · intro written
    have bytes := Except.ok.inj written
    rw [← writtenBytes_inj ⟨Node.integral_toJson _, Node.integral_toJson _⟩
      ⟨shallowOther, (Node.nesting_toJson node).trans (fits.trans (by decide))⟩ bytes]
    exact same
  · intro reorders
    rw [eq_of_reorders value same reorders ⟨orderedOther, ordered⟩]

end QsolFed.Canonical
