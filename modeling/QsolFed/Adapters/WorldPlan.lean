import QsolFed.Adapters
import QsolFed.Encoding.Size
import QsolFed.Holodeck.Plans

/-!
# World plans at the adapter membrane

The adapters check a world plan on their own before they hand it on: its names, its source objects
and its entities have their shapes and stay within limits, and its canonical bytes exist. Every
plan that is compiled from a valid program passes, and it has exactly the source objects of the
program.
-/
namespace QsolFed.Adapters

open Checked Json Canonical Holodeck HolodeckSandbox

/-! ## The check -/

/-- The name of a synthetic entity: 24 digits of a digest and an index. -/
def isHoloEntityId (value : String) : Bool :=
  (Text.bytes "holo-entity:").isPrefixOf (Text.bytes value) &&
    let rest := (Text.bytes value).drop 12
    let digest := rest.takeWhile fun b => b ≠ Wire.byte ':'
    match rest.drop digest.length with
    | [] => false
    | _ :: index =>
      digest.length = 24 && digest.all Wire.isLowerHex && index ≠ [] &&
        index.all Wire.isAsciiDigit

/-- A plan as it is written. -/
def writePlan (plan : HolodeckWorldPlan) : Value String := .object [
  ("schema", .string plan.schema),
  ("program_id", .string plan.programId),
  ("world_id", .string plan.worldId),
  ("seed", .number (Number.ofInt plan.seed.toInt)),
  ("source_order", .array (plan.sourceOrder.map .string)),
  ("anchor_refs", .array (plan.anchorRefs.map .string)),
  ("synthetic_entity_ids", .array (plan.syntheticEntityIds.map .string)),
  ("authority_effect", .string plan.authorityEffect)]

/-- The check of a plan. -/
def validateHolodeckWorldPlan (unicode : Unicode) (plan : HolodeckWorldPlan) :
    Except AdapterError Unit := do
  ensure (plan.schema = holodeckWorldPlanSchemaV1 ∧
    prefixedHash plan.programId "holodeck-program:" ∧
    prefixedHash plan.worldId "holodeck-world:" ∧
    0 ≤ plan.seed.toInt ∧ plan.seed.toInt ≤ safeIntegerMax ∧ plan.sourceOrder ≠ [] ∧
    plan.sourceOrder.length ≤ maxHolodeckSourceObjects ∧
    plan.anchorRefs.length ≤ maxHolodeckAnchors ∧ plan.syntheticEntityIds ≠ [] ∧
    plan.syntheticEntityIds.length ≤ maxHolodeckEntities.toNat ∧
    plan.authorityEffect = "none") (.code "holodeck_world_plan_invalid")
  ensure (plan.sourceOrder.Nodup ∧ plan.sourceOrder.all (prefixedHash · "object:") ∧
    plan.anchorRefs.all fun value => decide (value ∈ plan.sourceOrder))
    (.code "holodeck_world_plan_source_invalid")
  ensure plan.anchorRefs.Nodup (.code "holodeck_world_plan_anchor_duplicate")
  ensure (plan.syntheticEntityIds.Nodup ∧ plan.syntheticEntityIds.all isHoloEntityId)
    (.code "holodeck_world_plan_entity_invalid")
  let _ ← (canonicalize unicode (writtenBytes (writePlan plan))).mapError AdapterError.canonical
  pure ()

/-! ## Entities -/

variable {primitives : Primitives}

/-- Both sides check a prefixed hash alike. -/
theorem prefixedHash_eq (value mark : String) :
    prefixedHash value mark = isPrefixedHash value mark := by
  rw [prefixedHash, isPrefixedHash, Bool.and_comm (decide _)]

/-- A synthetic entity of a compiled world has the shape that the adapters ask for. -/
theorem isHoloEntityId_entityId (programId : String) (index : Nat) :
    isHoloEntityId (entityId primitives programId index) = true := by
  obtain ⟨digest, bytes, length, hex⟩ := @bytes_entityId primitives programId index
  obtain ⟨some_, digits, -⟩ := bytes_index index
  have colon : ∀ b ∈ digest, (b ≠ Wire.byte ':') = True := by
    intro b member
    have apart : b ≠ Wire.byte ':' := by
      rintro rfl
      exact absurd (hex _ member) (by decide)
    simp [apart]
  have taken : (digest ++ Wire.byte ':' :: Text.bytes (toString index)).takeWhile
      (fun b => decide (b ≠ Wire.byte ':')) = digest := by
    rw [List.takeWhile_append_of_pos (by simpa using colon), List.takeWhile_cons_of_neg (by simp),
      List.append_nil]
  have dropped : ((Text.bytes "holo-entity:" ++
      (digest ++ Wire.byte ':' :: Text.bytes (toString index))).drop 12) =
        digest ++ Wire.byte ':' :: Text.bytes (toString index) :=
    List.drop_left' (by decide)
  simp only [isHoloEntityId, bytes, dropped, taken, List.drop_left, Bool.and_eq_true]
  refine ⟨List.isPrefixOf_iff_prefix.mpr (List.prefix_append _ _), ⟨⟨?_, ?_⟩, ?_⟩, ?_⟩
  · exact decide_eq_true length
  · exact List.all_eq_true.mpr hex
  · exact decide_eq_true some_
  · exact List.all_eq_true.mpr digits

/-! ## Compiled plans -/

variable {program : HolodeckProgram}

/-- A prefixed hash is small. -/
theorem small_hash {value begins : String} {bound : Nat}
    (unescaped : ∀ b ∈ Text.bytes begins, Unescaped b)
    (short : (Text.bytes begins).length + 64 ≤ bound) (fits : bound ≤ maxStringUtf8)
    (shape : isPrefixedHash value begins = true) : Small (bound + 2) (.string value) := by
  simp only [isPrefixedHash, Bool.and_eq_true, decide_eq_true_eq, List.all_eq_true] at shape
  obtain ⟨⟨starts, length⟩, digits⟩ := shape
  refine small_unescaped ?_ (length ▸ short) fits
  intro b member
  obtain ⟨rest, same⟩ := List.isPrefixOf_iff_prefix.mp starts
  rw [← same, List.drop_left] at digits
  rw [← same] at member
  rcases List.mem_append.mp member with mark | digit
  · exact unescaped b mark
  · exact unescaped_lowerHex (digits b digit)

/-- A synthetic entity of a small index is small. -/
theorem small_entityId (programId : String) {index : Nat} (small : index < 1000) :
    Small 42 (.string (entityId primitives programId index)) := by
  obtain ⟨digest, bytes, length, hex⟩ := @bytes_entityId primitives programId index
  obtain ⟨-, digits, few⟩ := bytes_index index
  have mark : (Text.bytes "holo-entity:").length = 12 := by decide
  refine small_unescaped ?_ ?_ (by decide : 40 ≤ maxStringUtf8)
  · rw [bytes]
    intro b member
    rcases List.mem_append.mp member with head | rest
    · exact (List.all_iff_forall_prop.mp (by decide) :
        ∀ b ∈ Text.bytes "holo-entity:", Unescaped b) b head
    · rcases List.mem_append.mp rest with digit | tail
      · exact unescaped_lowerHex (hex b digit)
      · rcases List.mem_cons.mp tail with rfl | later
        · decide
        · exact unescaped_digit (digits b later)
  · have short := few small
    rw [bytes, List.length_append, List.length_append, List.length_cons, mark, length]
    omega

variable {plan : HolodeckWorldPlan}

/-- The written form of a compiled plan is small. -/
theorem small_plan (compiled : Compiled primitives program plan)
    (valid : validateProgram primitives program = .ok ()) : Small 60000 (writePlan plan) := by
  obtain ⟨-, -, low, high, -⟩ := bounds_of_valid valid
  obtain ⟨-, -, few, shaped⟩ := compiled.sourceOrder valid
  obtain ⟨anchors, anchorCount⟩ := compiled.anchorRefs
  have entityCount := (compiled.entityCount valid).2
  have objectSmall : ∀ item ∈ plan.sourceOrder.map Value.string, Small 73 item := by
    simp only [List.forall_mem_map]
    exact fun reference listed => small_hash (List.all_iff_forall_prop.mp (by decide))
      (by decide) (by decide) (shaped reference listed)
  have entitySmall : ∀ item ∈ plan.syntheticEntityIds.map Value.string, Small 42 item := by
    simp only [List.forall_mem_map]
    intro name listed
    obtain ⟨index, inside, rfl⟩ := compiled.entityIds valid name listed
    exact small_entityId _ inside
  have schema : Small 300 (.string plan.schema) := by
    rw [compiled.schema]
    exact small_text (by decide) (by decide)
  have authority : Small 50 (.string plan.authorityEffect) := by
    rw [compiled.authority]
    exact small_text (by decide) (by decide)
  have seed : Small 20 (.number (Number.ofInt plan.seed.toInt)) := by
    rw [compiled.seed]
    refine ⟨⟨program.seed.toInt, rfl, le_trans (by decide) low, high⟩, ?_⟩
    obtain ⟨value, same⟩ := Int.eq_ofNat_of_zero_le low
    have bound : safeIntegerMax < 10 ^ 20 := by decide
    rw [same, writtenSize_natCast, Nat.length_toDigits_le_iff (by decide) (by decide)]
    omega
  refine @small_object [("schema", 300), ("program_id", 83), ("world_id", 83), ("seed", 20),
    ("source_order", 256 * 74 + 2), ("anchor_refs", 16 * 74 + 2),
    ("synthetic_entity_ids", 256 * 43 + 2), ("authority_effect", 50)] _ 60000 (by decide) ?_
  exact .cons ⟨rfl, schema⟩ <|
    .cons ⟨rfl, small_hash (List.all_iff_forall_prop.mp (by decide)) (by decide) (by decide)
      compiled.programId⟩ <|
    .cons ⟨rfl, small_hash (List.all_iff_forall_prop.mp (by decide)) (by decide) (by decide)
      compiled.worldId⟩ <|
    .cons ⟨rfl, seed⟩ <|
    .cons ⟨rfl, small_array (by rwa [List.length_map]) (by decide) objectSmall⟩ <|
    .cons ⟨rfl, small_array (by rwa [List.length_map]) (by decide)
      fun item listed => objectSmall item ((anchors.map _).subset listed)⟩ <|
    .cons ⟨rfl, small_array (by rwa [List.length_map]) (by decide) entitySmall⟩ <|
    .cons ⟨rfl, authority⟩ .nil

/-- The plan of a valid program passes the check of the adapters. -/
theorem accepted_plan (compiled : Compiled primitives program plan)
    (valid : validateProgram primitives program = .ok ()) :
    validateHolodeckWorldPlan primitives.unicode plan = .ok () := by
  obtain ⟨-, -, low, high, -⟩ := bounds_of_valid valid
  obtain ⟨once, some_, few, shaped⟩ := compiled.sourceOrder valid
  obtain ⟨anchors, anchorCount⟩ := compiled.anchorRefs
  obtain ⟨populated, entityCount⟩ := compiled.entityCount valid
  have entitiesOnce : plan.syntheticEntityIds.Nodup := by
    rw [compiled.entities]
    exact List.nodup_range.map (entityId_injective _ _)
  have entityShapes : ∀ name ∈ plan.syntheticEntityIds, isHoloEntityId name = true := by
    intro name listed
    obtain ⟨index, -, rfl⟩ := compiled.entityIds valid name listed
    exact isHoloEntityId_entityId _ _
  have shallow : (writePlan plan).nesting < maxDepth := by
    have nests : (writePlan plan).nesting = 2 := by
      simp [writePlan, Value.nesting, Value.nestingMembers, nestingItems_texts]
    rw [nests]
    decide
  have small := small_plan compiled valid
  obtain ⟨bytes, encoded⟩ := (canonicalize_plain_iff primitives.unicode small.1 shallow).mpr
    (small.2.trans (by decide))
  simp only [validateHolodeckWorldPlan, bind_ok_iff, ensure_ok_iff, exists_const, pure_ok_iff,
    mapError_ok_iff, prefixedHash_eq]
  exact ⟨⟨compiled.schema, compiled.programId, compiled.worldId, compiled.seed ▸ low,
    compiled.seed ▸ high, some_, few, anchorCount, populated, entityCount, compiled.authority⟩,
    ⟨once, List.all_eq_true.mpr shaped, List.all_eq_true.mpr fun reference listed =>
      decide_eq_true (anchors.subset listed)⟩, once.sublist anchors,
    ⟨entitiesOnce, List.all_eq_true.mpr entityShapes⟩, bytes, encoded, trivial⟩

/-- The world of a valid program is compiled, the adapters accept its plan, and a sandbox starts.
The plan has the source objects of the program, begins with the first of them, and has distinct
entities within the limits. -/
theorem plan_faithful (valid : validateProgram primitives program = .ok ()) : ∃ plan,
    compileWorldPlan primitives program = .ok plan ∧
    validateHolodeckWorldPlan primitives.unicode plan = .ok () ∧
    plan.sourceOrder.Perm program.source.objectRefs ∧
    plan.anchorRefs = plan.sourceOrder.take (min 16 program.source.objectRefs.length) ∧
    plan.syntheticEntityIds.Nodup ∧
    plan.syntheticEntityIds.length ≤ program.maxEntities.toNat ∧
    plan.syntheticEntityIds.length ≤ maxHolodeckEntities.toNat ∧
    ∃ sandbox, HolodeckSandbox.start primitives program = .ok sandbox ∧ sandbox.plan = plan := by
  obtain ⟨plan, compiles, compiled⟩ := compileWorldPlan_total valid
  obtain ⟨-, -, -, -, -, limit⟩ := bounds_of_valid valid
  obtain ⟨sandbox, started⟩ := start_of_compiled compiles
  have length : plan.syntheticEntityIds.length ≤ program.maxEntities.toNat := by
    rw [compiled.entities, List.length_map, List.length_range]
    exact Nat.min_le_left _ _
  refine ⟨plan, compiles, accepted_plan compiled valid, compiled.sources, compiled.anchors, ?_, length,
    length.trans (UInt16.le_iff_toNat_le.mp limit), sandbox, started, ?_⟩
  · rw [compiled.entities]
    exact List.nodup_range.map (entityId_injective _ _)
  · obtain ⟨other, event, compiledOther, rfl, -⟩ := start_ok started
    rw [compiles] at compiledOther
    exact (Except.ok.inj compiledOther).symm

/-- The recorded program has such a plan. -/
theorem recorded_plan : ∃ plan,
    compileWorldPlan (Digest.tabulated [] []) (recordedProgram 2) = .ok plan ∧
    validateHolodeckWorldPlan (Digest.tabulated [] []).unicode plan = .ok () ∧
    plan.sourceOrder.Perm recordedSource.objectRefs := by
  obtain ⟨sandbox, started⟩ := recordedProgram_begun (Digest.tabulated [] []) (.inr rfl)
  obtain ⟨plan, event, compiled, -, -⟩ := start_ok started
  obtain ⟨plan, compiles, accepted, sources, -⟩ := plan_faithful (compileWorldPlan_ok compiled).1
  exact ⟨plan, compiles, accepted, sources⟩

end QsolFed.Adapters
