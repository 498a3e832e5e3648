import QsolFed.Holodeck.Ledger

/-!
# Compiled worlds

What the plan of a valid program looks like: its names are digests behind a prefix, its source
objects are those of the program, and its entities are numbered under a part of a digest, so that
they are distinct and of bounded size.
-/
namespace QsolFed.Holodeck

open Checked Json Canonical HolodeckSandbox

variable {primitives : Primitives} {program : HolodeckProgram}

/-! ## Entities -/

/-- A digest after a prefix is a prefixed hash. -/
theorem isPrefixedHash_digest (begins : String) (message : ByteArray) :
    isPrefixedHash (begins ++ digestHex primitives message) begins = true := by
  have size : (primitives.sha256 message).data.toList.length = 32 := primitives.sha256_size message
  have digits := length_lowercaseHex (primitives.sha256 message).data.toList
  have hex := isLowerHex_lowercaseHex (primitives.sha256 message).data.toList
  simp only [isPrefixedHash, Text.bytes_append, Bool.and_eq_true, decide_eq_true_eq,
    List.length_append, List.drop_left, List.all_eq_true]
  refine ⟨⟨List.isPrefixOf_iff_prefix.mpr (List.prefix_append _ _), ?_⟩, hex⟩
  rw [digestHex, digits, size]

/-- The digits of a digest are hexadecimal. -/
theorem digestHex_chars (message : ByteArray) :
    (digestHex primitives message).toList.length = 64 ∧
      ∀ c ∈ (digestHex primitives message).toList,
        Text.Ascii c ∧ Wire.isLowerHex (Wire.byte c) = true := by
  have size : (primitives.sha256 message).data.toList.length = 32 := primitives.sha256_size message
  have digits := length_lowercaseHex (primitives.sha256 message).data.toList
  have hex := isLowerHex_lowercaseHex (primitives.sha256 message).data.toList
  have ascii := Text.ascii_of_bytes fun b member => (Wire.visible_lowerHex (hex b member)).2
  refine ⟨?_, fun c member => ⟨ascii c member, hex _ (Text.byte_mem_of_mem member (ascii c member))⟩⟩
  have same := Text.bytes_ofList_ascii ascii
  rw [String.ofList_toList] at same
  rw [same, List.length_map, size] at digits
  exact digits

/-- An index is written with digits, at least one and few when it is small. -/
theorem bytes_index (index : Nat) : Text.bytes (toString index) ≠ [] ∧
    (∀ b ∈ Text.bytes (toString index), Wire.isAsciiDigit b = true) ∧
    (index < 1000 → (Text.bytes (toString index)).length ≤ 3) := by
  have each : ∀ c ∈ Nat.toDigits 10 index,
      Text.Ascii c ∧ Wire.isAsciiDigit (Wire.byte c) = true := by
    intro c member
    obtain ⟨low, high⟩ := digit_range
      (Nat.isDigit_of_mem_toDigits (by decide) (by decide) member)
    have ascii : Text.Ascii c := Nat.lt_of_le_of_lt high (by decide)
    have value : (Wire.byte c).toNat = c.toNat := Text.toNat_byte ascii
    refine ⟨ascii, ?_⟩
    have bounds : (Wire.byte '0').toNat = 48 ∧ (Wire.byte '9').toNat = 57 := ⟨rfl, rfl⟩
    simp only [Wire.isAsciiDigit, Bool.and_eq_true, decide_eq_true_eq, UInt8.le_iff_toNat_le]
    omega
  have bytes : Text.bytes (toString index) = (Nat.toDigits 10 index).map Wire.byte :=
    Text.bytes_ofList_ascii fun c member => (each c member).1
  rw [bytes]
  refine ⟨?_, ?_, fun small => ?_⟩
  · rw [Ne, List.map_eq_nil_iff]
    exact Nat.toDigits_ne_nil
  · simp only [List.forall_mem_map]
    exact fun c member => (each c member).2
  · rw [List.length_map, Nat.length_toDigits_le_iff (by decide) (by decide)]
    exact small

/-- Indices that are written alike are the same. -/
theorem index_injective {first second : Nat} (same : toString first = toString second) :
    first = second := by
  have digits : Nat.toDigits 10 first = Nat.toDigits 10 second := String.ofList_injective same
  have back : ∀ index, Nat.ofDigitChars 10 (Nat.toDigits 10 index) 0 = index := fun index =>
    Nat.ofDigitChars_toDigits (by decide) (by decide)
  rw [← back first, digits, back]

/-- A synthetic entity of a compiled world. -/
def entityId (primitives : Primitives) (programId : String) (index : Nat) : String :=
  "holo-entity:" ++ String.ofList ((digestHex primitives programId.toByteArray).toList.take 24) ++
    ":" ++ toString index

/-- The bytes of a synthetic entity. -/
theorem bytes_entityId (programId : String) (index : Nat) : ∃ digest : List UInt8,
    Text.bytes (entityId primitives programId index) =
      Text.bytes "holo-entity:" ++ (digest ++ Wire.byte ':' :: Text.bytes (toString index)) ∧
    digest.length = 24 ∧ ∀ b ∈ digest, Wire.isLowerHex b = true := by
  obtain ⟨length, each⟩ := @digestHex_chars primitives programId.toByteArray
  have listed : ∀ c ∈ (digestHex primitives programId.toByteArray).toList.take 24,
      Text.Ascii c ∧ Wire.isLowerHex (Wire.byte c) = true := fun c member =>
    each c (List.mem_of_mem_take member)
  refine ⟨((digestHex primitives programId.toByteArray).toList.take 24).map Wire.byte, ?_, ?_, ?_⟩
  · have colon : Text.bytes ":" = [Wire.byte ':'] := by decide
    rw [entityId, Text.bytes_append, Text.bytes_append, Text.bytes_append, colon,
      Text.bytes_ofList_ascii fun c member => (listed c member).1]
    simp only [List.append_assoc, List.singleton_append]
    rfl
  · rw [List.length_map, List.length_take, length]
    rfl
  · simp only [List.forall_mem_map]
    exact fun c member => (listed c member).2

/-- A synthetic entity of a small index is brief. -/
theorem brief_entityId (programId : String) {index : Nat} (small : index < 1000) :
    Brief 128 (entityId primitives programId index) := by
  obtain ⟨digest, bytes, length, hex⟩ := @bytes_entityId primitives programId index
  obtain ⟨-, digits, few⟩ := bytes_index index
  have mark : (Text.bytes "holo-entity:").length = 12 := by decide
  have total : (Text.bytes (entityId primitives programId index)).length ≤ 128 := by
    have short := few small
    rw [bytes, List.length_append, List.length_append, List.length_cons, mark, length]
    omega
  refine ⟨plainText_of_bytes ?_ (total.trans (by decide)), Text.length_bytes _ ▸ total⟩
  rw [bytes]
  intro b member
  rcases List.mem_append.mp member with head | rest
  · exact (List.all_iff_forall_prop.mp (by decide) :
      ∀ b ∈ Text.bytes "holo-entity:", b.toNat < 0x80) b head
  · rcases List.mem_append.mp rest with digit | tail
    · exact (Wire.visible_lowerHex (hex b digit)).2
    · rcases List.mem_cons.mp tail with rfl | index
      · decide
      · exact (Wire.visible_digit (digits b index)).2

/-- Entities of different indices are different. -/
theorem entityId_injective (primitives : Primitives) (programId : String) :
    Function.Injective (entityId primitives programId) := by
  intro first second same
  have bytes := congrArg Text.bytes same
  rw [entityId, entityId, Text.bytes_append, Text.bytes_append] at bytes
  exact index_injective (Text.bytes_injective (List.append_cancel_left bytes))

/-! ## Plans -/

/-- A valid program has an identifier. -/
theorem programId_total (valid : validateProgram primitives program = .ok ()) :
    ∃ bytes, Holodeck.canonicalStruct primitives (writeProgram program) = .ok bytes ∧
      programId primitives program =
        .ok (domainRef primitives "holodeck-program" holodeckProgramDomain bytes) := by
  have parts := valid
  simp only [validateProgram, bind_ok_iff] at parts
  obtain ⟨_, -, _, -, bytes, encoded, -⟩ := parts
  refine ⟨bytes, encoded, ?_⟩
  simp only [programId, valid, bind_ok, encoded]
  rfl

/-- What the check of a program guarantees about its plan. -/
theorem bounds_of_valid (valid : validateProgram primitives program = .ok ()) :
    program.source.objectRefs ≠ [] ∧
      program.source.objectRefs.length ≤ maxHolodeckSourceObjects ∧
      0 ≤ program.seed.toInt ∧ program.seed.toInt ≤ safeIntegerMax ∧
      program.maxEntities ≠ 0 ∧ program.maxEntities ≤ maxHolodeckEntities := by
  simp only [validateProgram, validateSource, bind_ok_iff, ensure_ok_iff, exists_const] at valid
  obtain ⟨_, ⟨⟨-, -, -, -, -, -, some_, few⟩, -⟩, ⟨-, -, -, low, high, -, -, entities, limit⟩, -⟩ :=
    valid
  exact ⟨some_, few, low, high, entities, limit⟩

/-- What a compiled plan guarantees. -/
structure Compiled (primitives : Primitives) (program : HolodeckProgram)
    (plan : HolodeckWorldPlan) : Prop where
  /-- The schema is the one of plans. -/
  schema : plan.schema = holodeckWorldPlanSchemaV1
  /-- The program is named by a digest. -/
  programId : isPrefixedHash plan.programId "holodeck-program:" = true
  /-- The world is named by a digest. -/
  worldId : isPrefixedHash plan.worldId "holodeck-world:" = true
  /-- The seed is the one of the program. -/
  seed : plan.seed = program.seed
  /-- The source objects are those of the program in another order. -/
  sources : plan.sourceOrder.Perm program.source.objectRefs
  /-- The world begins with the first of them. -/
  anchors : plan.anchorRefs =
    plan.sourceOrder.take (min maxHolodeckAnchors program.source.objectRefs.length)
  /-- The entities are numbered. -/
  entities : plan.syntheticEntityIds =
    (List.range (min program.maxEntities.toNat
      (max (program.source.objectRefs.length * 2) 1))).map (entityId primitives plan.programId)
  /-- The plan authorises nothing. -/
  authority : plan.authorityEffect = "none"

/-- The world of a valid program is compiled. -/
theorem compileWorldPlan_total (valid : validateProgram primitives program = .ok ()) :
    ∃ plan, compileWorldPlan primitives program = .ok plan ∧ Compiled primitives program plan := by
  obtain ⟨bytes, -, identified⟩ := programId_total valid
  simp only [compileWorldPlan, identified, bind_ok]
  refine ⟨_, rfl, ?_⟩
  have perm := sortBy_perm (rank primitives program
    (domainRef primitives "holodeck-program" holodeckProgramDomain bytes)) program.source.objectRefs
  have count := perm.length_eq
  constructor
  · rfl
  · exact isPrefixedHash_digest ("holodeck-program" ++ ":") _
  · exact isPrefixedHash_digest "holodeck-world:" _
  · rfl
  · exact perm
  · simp only [← count]
    rw [List.take_eq_take_iff]
    omega
  · simp only [← count]
    rfl
  · rfl

namespace Compiled

variable {plan : HolodeckWorldPlan}

/-- The entities of a world are at least one and at most so many. -/
theorem entityCount (compiled : Compiled primitives program plan)
    (valid : validateProgram primitives program = .ok ()) :
    plan.syntheticEntityIds ≠ [] ∧ plan.syntheticEntityIds.length ≤ 256 := by
  obtain ⟨some_, -, -, -, entities, limit⟩ := bounds_of_valid valid
  have entityLimit : program.maxEntities.toNat ≤ 256 := UInt16.le_iff_toNat_le.mp limit
  have positive : program.maxEntities.toNat ≠ 0 := fun zero => entities (UInt16.toNat_inj.mp zero)
  rw [compiled.entities, ← List.length_pos_iff, List.length_map, List.length_range]
  omega

/-- The entities of a world have small indices. -/
theorem entityIds (compiled : Compiled primitives program plan)
    (valid : validateProgram primitives program = .ok ()) :
    ∀ name ∈ plan.syntheticEntityIds, ∃ index < 1000,
      name = entityId primitives plan.programId index := by
  have few := (compiled.entityCount valid).2
  rw [compiled.entities, List.length_map, List.length_range] at few
  rw [compiled.entities]
  simp only [List.forall_mem_map, List.mem_range]
  exact fun index inside => ⟨index, by omega, rfl⟩

/-- The source objects of a world are distinct hashes, at least one and at most so many. -/
theorem sourceOrder (compiled : Compiled primitives program plan)
    (valid : validateProgram primitives program = .ok ()) :
    plan.sourceOrder.Nodup ∧ plan.sourceOrder ≠ [] ∧ plan.sourceOrder.length ≤ 256 ∧
      ∀ reference ∈ plan.sourceOrder, isPrefixedHash reference "object:" = true := by
  obtain ⟨some_, few, -⟩ := bounds_of_valid valid
  obtain ⟨distinct, hashes, -, -⟩ := validateProgram_ok valid
  have count := compiled.sources.length_eq
  have positive := List.length_pos_iff.mpr some_
  refine ⟨compiled.sources.nodup_iff.mpr distinct, ?_, count ▸ few, fun reference listed =>
    hashes reference (compiled.sources.mem_iff.mp listed)⟩
  rw [← List.length_pos_iff]
  omega

/-- The first source objects are few of all. -/
theorem anchorRefs (compiled : Compiled primitives program plan) :
    plan.anchorRefs.Sublist plan.sourceOrder ∧ plan.anchorRefs.length ≤ 16 := by
  have most : maxHolodeckAnchors = 16 := rfl
  rw [compiled.anchors]
  refine ⟨List.take_sublist _ _, ?_⟩
  rw [List.length_take]
  omega

end Compiled

end QsolFed.Holodeck
