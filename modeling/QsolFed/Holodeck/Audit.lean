import QsolFed.Canonical.Size
import QsolFed.Encoding
import QsolFed.Holodeck.Calls

/-!
# What an event covers

The identifier of an event is a digest of its canonical form, which exists when the normal form of
the text fits. The names of the world and the source objects are references, so they always fit,
and a program that is valid can always be begun.
-/
namespace QsolFed.HolodeckSandbox

open Checked Json Canonical Holodeck

variable {primitives : Primitives}

/-! ## References -/

/-- A plain text of a bounded size. -/
def Brief (size : Nat) (text : String) : Prop := PlainText text ∧ text.utf8ByteSize ≤ size

/-- A digest after an ASCII text is brief. -/
theorem brief_digest (begins : String) (narrow : ∀ b ∈ Text.bytes begins, b.toNat < 0x80)
    (short : begins.utf8ByteSize ≤ 64) (message : ByteArray) :
    Brief 128 (begins ++ digestHex primitives message) := by
  have size : (primitives.sha256 message).data.toList.length = 32 := primitives.sha256_size message
  have digits := length_lowercaseHex (primitives.sha256 message).data.toList
  have length : (Text.bytes (begins ++ digestHex primitives message)).length ≤ 128 := by
    rw [Text.bytes_append, List.length_append, digestHex, digits, size, Text.length_bytes]
    omega
  refine ⟨plainText_of_bytes ?_ (length.trans (by decide)), Text.length_bytes _ ▸ length⟩
  intro b member
  rw [Text.bytes_append] at member
  rcases List.mem_append.mp member with mark | digit
  · exact narrow b mark
  · exact (Wire.visible_lowerHex (isLowerHex_lowercaseHex _ b digit)).2

/-- A prefixed hash is brief. -/
theorem brief_hash {value begins : String} (narrow : ∀ b ∈ Text.bytes begins, b.toNat < 0x80)
    (short : begins.utf8ByteSize ≤ 64) (shape : isPrefixedHash value begins = true) :
    Brief 128 value := by
  simp only [isPrefixedHash, Bool.and_eq_true, decide_eq_true_eq, List.all_eq_true] at shape
  obtain ⟨⟨starts, length⟩, digits⟩ := shape
  rw [Text.length_bytes begins] at length
  refine ⟨plainText_of_bytes ?_ (by rw [length]; exact le_trans (by omega) (by decide : 128 ≤ _)),
    by rw [← Text.length_bytes, length]; omega⟩
  intro b member
  obtain ⟨rest, same⟩ := List.isPrefixOf_iff_prefix.mp starts
  rw [← same, List.drop_left] at digits
  rw [← same] at member
  rcases List.mem_append.mp member with mark | digit
  · exact narrow b mark
  · exact (Wire.visible_lowerHex (digits b digit)).2

/-- A world is named by references. -/
structure Named (plan : HolodeckWorldPlan) : Prop where
  /-- The program. -/
  program : Brief 128 plan.programId
  /-- The world. -/
  world : Brief 128 plan.worldId

/-- A compiled plan is that of a valid program. -/
theorem compileWorldPlan_ok {program : HolodeckProgram} {plan : HolodeckWorldPlan}
    (compiled : compileWorldPlan primitives program = .ok plan) :
    validateProgram primitives program = .ok () ∧ Named plan ∧
      plan.anchorRefs.length ≤ maxHolodeckAnchors ∧
      plan.anchorRefs.Sublist (sortBy (rank primitives program plan.programId)
        program.source.objectRefs) := by
  simp only [compileWorldPlan, programId, bind_ok_iff, pure_ok_iff] at compiled
  obtain ⟨_, ⟨⟨⟩, valid, bytes, -, rfl⟩, rfl⟩ := compiled
  have narrow : ∀ text : String, isPlainText text = true → ∀ b ∈ Text.bytes text,
      b.toNat < 0x80 := by
    intro text checked b member
    simp only [isPlainText, Bool.and_eq_true, List.all_eq_true, decide_eq_true_eq] at checked
    exact checked.1 b member
  refine ⟨valid, ⟨?_, ?_⟩, List.length_take_le _ _, List.take_sublist _ _⟩
  · exact brief_digest ("holodeck-program" ++ ":") (narrow _ (by decide)) (by decide) _
  · exact brief_digest "holodeck-world:" (narrow _ (by decide)) (by decide) _

/-- The source objects of a valid program are distinct prefixed hashes. -/
theorem validateProgram_ok {program : HolodeckProgram}
    (valid : validateProgram primitives program = .ok ()) :
    program.source.objectRefs.Nodup ∧
      (∀ reference ∈ program.source.objectRefs, isPrefixedHash reference "object:" = true) ∧
      program.maxEvents ≠ 0 ∧ program.maxEvents ≤ maxHolodeckEvents := by
  simp only [validateProgram, validateSource, bind_ok_iff, ensure_ok_iff, exists_const,
    List.all_eq_true] at valid
  obtain ⟨_, ⟨-, ⟨hashes, distinct⟩, -⟩, ⟨-, -, -, -, -, some, few, -⟩, -⟩ := valid
  exact ⟨distinct, hashes, some, few⟩

/-! ## Canonical bytes -/

section Projection

variable {plan : HolodeckWorldPlan} (sequence : UInt32) (kind : HolodeckEventKind)
  {text : String} {refs : List String}

/-- What an event without an actor covers is settled when its text is in normal form and fits. -/
theorem settled_projection {unicode : Unicode} (named : Named plan)
    (clean : Node.Clean unicode text) (few : refs.length ≤ maxHolodeckAnchors)
    (brief : ∀ reference ∈ refs, Brief 128 reference) :
    Settled unicode (writeProjection plan sequence kind none text refs) := by
  have name : ∀ text, isPlainText text = true → Node.Clean unicode text :=
    fun text checked => (plainText_of_check checked).clean unicode
  have kinds : isPlainText (eventKindName kind) = true := by cases kind <;> decide
  have number : Settled unicode (.number (Number.ofInt sequence.toNat)) := by
    have small := sequence.toNat_lt
    have greatest : (2 ^ 32 : Int) ≤ safeIntegerMax := by decide
    exact ⟨sequence.toNat, rfl, le_trans (by decide) (Int.natCast_nonneg _), by omega⟩
  have sources : SettledItems unicode (refs.map .string) :=
    PlainItems.settled _ (plainItems_texts fun reference member => (brief reference member).1)
  have room : (refs.map (Value.string (σ := String))).length ≤ maxArrayItems := by
    rw [List.length_map]
    exact few.trans (by decide)
  have distinct : ["schema", "program_id", "world_id", "sequence", "kind", "synthetic_actor",
      "text", "source_refs", "authority_effect", "federation_effect", "evidence_effect"].Nodup := by
    decide
  refine ⟨(by decide : 11 ≤ maxObjectMembers), distinct, ?_⟩
  exact ⟨name _ (by decide), name _ (by decide), name _ (by decide), named.program.1.clean unicode,
    name _ (by decide), named.world.1.clean unicode, name _ (by decide), number,
    name _ (by decide), name _ kinds, name _ (by decide), trivial, name _ (by decide), clean,
    name _ (by decide), ⟨room, sources⟩, name _ (by decide), name _ (by decide),
    name _ (by decide), name _ (by decide), name _ (by decide), name _ (by decide), trivial⟩

/-- The written form of what an event without an actor covers is bounded by the size of its
text. -/
theorem size_projection (named : Named plan) (few : refs.length ≤ maxHolodeckAnchors)
    (brief : ∀ reference ∈ refs, Brief 128 reference) :
    (writtenBytes (writeProjection plan sequence kind none text refs)).size ≤
      6 * text.utf8ByteSize + 15000 := by
  refine (size_writtenBytes_le _).trans ?_
  have number : weigh Char.utf8Size (printNumber (Number.ofInt sequence.toNat)) ≤ 10 := by
    change weigh Char.utf8Size (print (.number (Number.ofInt sequence.toNat))) ≤ 10
    rw [← writtenSize_eq, writtenSize_natCast,
      Nat.length_toDigits_le_iff (by decide) (by decide)]
    exact sequence.toNat_lt.trans (by decide)
  have sources := sizeBoundItems_texts fun reference member => (brief reference member).2
  have many : refs.length * (6 * 128 + 3) ≤ 16 * (6 * 128 + 3) := Nat.mul_le_mul_right _ few
  have program := named.program.2
  have world := named.world.2
  have kinds : (eventKindName kind).utf8ByteSize ≤ 20 := by cases kind <;> decide
  have names : "schema".utf8ByteSize = 6 ∧ "program_id".utf8ByteSize = 10 ∧
      "world_id".utf8ByteSize = 8 ∧ "sequence".utf8ByteSize = 8 ∧ "kind".utf8ByteSize = 4 ∧
      "synthetic_actor".utf8ByteSize = 15 ∧ "text".utf8ByteSize = 4 ∧
      "source_refs".utf8ByteSize = 11 ∧ "authority_effect".utf8ByteSize = 16 ∧
      "federation_effect".utf8ByteSize = 17 ∧ "evidence_effect".utf8ByteSize = 15 ∧
      "none".utf8ByteSize = 4 ∧ holodeckEventSchemaV1.utf8ByteSize = 25 := by decide
  simp only [writeProjection, nullable, sizeBound, sizeBoundMembers, names]
  omega

/-- What an event without an actor covers has canonical bytes exactly when the normal form of its
text fits. -/
theorem canonicalStruct_projection_iff (named : Named plan)
    (short : text.utf8ByteSize ≤ maxHolodeckTextBytes) (few : refs.length ≤ maxHolodeckAnchors)
    (brief : ∀ reference ∈ refs, Brief 128 reference) :
    (∃ bytes, canonicalStruct primitives
      (writeProjection plan sequence kind none text refs) = .ok bytes) ↔
      (primitives.unicode.nfc text).utf8ByteSize ≤ maxStringUtf8 := by
  have integral : (writeProjection plan sequence kind none text refs).Integral := by
    simp [writeProjection, nullable, Value.Integral, Value.IntegralMembers, Number.Integral,
      Number.ofInt, integralItems_texts]
  have nesting : ∀ text, (writeProjection plan sequence kind none text refs).nesting = 2 := by
    intro text
    simp [writeProjection, nullable, Value.nesting, Value.nestingMembers, nestingItems_texts]
  have deep : (writeProjection plan sequence kind none text refs).nesting ≤ recursionLimit := by
    rw [nesting]
    decide
  constructor
  · rintro ⟨bytes, encoded⟩
    obtain ⟨node, visited⟩ :=
      canonicalize_visits integral deep ((mapError_ok_iff ..).mp encoded)
    simp only [writeProjection, visit, bind_ok_iff] at visited
    obtain ⟨result, members, -⟩ := visited
    obtain ⟨other, normal⟩ := visitMap_visits members
      (show ("text", Value.string text) ∈ _ by simp)
    simp only [visit, normalizeString, bind_ok_iff, ensure_ok_iff] at normal
    obtain ⟨_, ⟨-, fits, -⟩, -⟩ := normal
    exact fits
  · intro fits
    have clean : Node.Clean primitives.unicode (primitives.unicode.nfc text) :=
      ⟨primitives.unicode.idempotent text, fits⟩
    have taken : visit primitives.unicode (writeProjection plan sequence kind none text refs) =
        visit primitives.unicode (writeProjection plan sequence kind none
          (primitives.unicode.nfc text) refs) := by
      simp only [writeProjection, visit, visitMap, normalizeString_nfc]
    have room : 6 * 8192 + 15000 ≤ maxInputBytes := by decide
    have small : maxHolodeckTextBytes = 4096 ∧ maxStringUtf8 = 8192 := ⟨rfl, rfl⟩
    have long : (writtenBytes (writeProjection plan sequence kind none text refs)).size ≤
        maxInputBytes :=
      (size_projection sequence kind named few brief).trans (by omega)
    have output : (writtenBytes (writeProjection plan sequence kind none
        (primitives.unicode.nfc text) refs)).size ≤ maxInputBytes :=
      (size_projection sequence kind named few brief).trans (by omega)
    obtain ⟨node, -, encoded, -⟩ := canonicalize_visited taken
      (settled_projection sequence kind named clean few brief) integral deep long
      (by rw [nesting]; decide) output
    exact ⟨_, (mapError_ok_iff ..).mpr encoded⟩

end Projection

/-! ## Events without an actor -/

variable {sandbox : HolodeckSandbox} {program : HolodeckProgram}

/-- A sandbox can append an event without an actor exactly when the ledger has room and the normal
form of the text fits. -/
theorem nextEvent_total_iff {kind : HolodeckEventKind} {text : String} {refs : List String}
    (named : Named sandbox.plan) (valid : validateText text = .ok ())
    (sources : validateEventSourceRefs refs sandbox.program.source = .ok ())
    (brief : ∀ reference ∈ refs, Brief 128 reference) :
    (∃ event, sandbox.nextEvent primitives kind none text refs = .ok event) ↔
      sandbox.events.length < sandbox.program.maxEvents.toNat ∧
        (primitives.unicode.nfc text).utf8ByteSize ≤ maxStringUtf8 := by
  have short := ((ensure_ok_iff _ _ _).mp valid).2
  have few := ((validateEventSourceRefs_ok_iff _ _).mp sources).1
  have encodes : (∃ bytes, canonicalStruct primitives (writeProjection sandbox.plan
      (UInt32.ofNat (sandbox.events.length + 1)) kind none text refs) = .ok bytes) ↔
      (primitives.unicode.nfc text).utf8ByteSize ≤ maxStringUtf8 :=
    canonicalStruct_projection_iff _ kind named short few brief
  constructor
  · rintro ⟨event, next⟩
    obtain ⟨room, -, -, bytes, encoded, -⟩ := (nextEvent_ok_iff ..).mp next
    exact ⟨room, encodes.mp ⟨bytes, encoded⟩⟩
  · rintro ⟨room, fits⟩
    obtain ⟨bytes, encoded⟩ := encodes.mpr fits
    exact ⟨_, (nextEvent_ok_iff ..).mpr ⟨room, valid, sources, bytes, encoded, rfl⟩⟩

/-- An ASCII text of an event fits. -/
theorem nfc_fits {text : String} (plain : isPlainText text = true) :
    (primitives.unicode.nfc text).utf8ByteSize ≤ maxStringUtf8 := by
  have plainText := plainText_of_check plain
  rw [plainText.nfc]
  exact plainText.2

/-- A program whose world is compiled can be begun. -/
theorem start_of_compiled {plan : HolodeckWorldPlan}
    (compiled : compileWorldPlan primitives program = .ok plan) :
    ∃ started, start primitives program = .ok started := by
  obtain ⟨valid, named, few, anchors⟩ := compileWorldPlan_ok compiled
  obtain ⟨distinct, hashes, some, -⟩ := validateProgram_ok valid
  have listed : ∀ reference ∈ plan.anchorRefs, reference ∈ program.source.objectRefs :=
    fun reference member => (mem_sortBy ..).mp (anchors.subset member)
  have sources : validateEventSourceRefs plan.anchorRefs program.source = .ok () :=
    (validateEventSourceRefs_ok_iff _ _).mpr
      ⟨few, anchors.nodup ((sortBy_perm _ _).nodup_iff.mpr distinct), listed⟩
  have brief : ∀ reference ∈ plan.anchorRefs, Brief 128 reference := fun reference member =>
    brief_hash (List.all_iff_forall_prop.mp (by decide)) (by decide)
      (hashes reference (listed reference member))
  have room : 0 < program.maxEvents.toNat :=
    Nat.pos_of_ne_zero fun zero => some (UInt32.toNat_inj.mp zero)
  have begins : ∃ event, nextEvent primitives ⟨program, plan, [], .running⟩ .programStart none
      "sandboxed synthetic world initialized" plan.anchorRefs = .ok event :=
    (nextEvent_total_iff named (ensure_pos (by decide) _) sources brief).mpr
      ⟨room, nfc_fits (by decide)⟩
  obtain ⟨event, next⟩ := begins
  refine ⟨withEvent ⟨program, plan, [], .running⟩ event, ?_⟩
  simp only [start, compiled, bind_ok, run_pushEvent next]
  rfl

/-! ## A recorded program -/

/-- A manifest of one source object. -/
def recordedSource : NexusWorldSourceManifest where
  schema := nexusSourceSchemaV1
  nexusExportSchema := nexusExportSchemaV1
  nexusWorldPolicy := nexusWorldPolicyV1
  bundleRef := "world-export:1111111111111111111111111111111111111111111111111111111111111111"
  sourceHeadRef := none
  orderBasis := .lexicalObjectRef
  objectRefs := ["object:2222222222222222222222222222222222222222222222222222222222222222"]
  authorityEffect := "none"

/-- A program with a small ledger. -/
def recordedProgram (maxEvents : UInt32) : HolodeckProgram where
  schema := holodeckProgramSchemaV1
  source := recordedSource
  seed := 7
  mode := .exploration
  maxEvents := maxEvents
  maxEntities := 1
  safetyProfile := holodeckSafetyProfileV1
  authorityEffect := "none"

/-- A plain value of a bounded size has canonical bytes. -/
theorem canonicalStruct_of_check (primitives : Primitives) {value : Value String}
    (plain : isPlain value = true) (shallow : value.nesting < maxDepth)
    (short : sizeBound value ≤ maxInputBytes) :
    ∃ bytes, canonicalStruct primitives value = .ok bytes := by
  obtain ⟨bytes, encoded⟩ :=
    (canonicalize_plain_iff primitives.unicode (plain_of_check value plain) shallow).mpr
      ((size_writtenBytes_le value).trans short)
  exact ⟨bytes, (mapError_ok_iff ..).mpr encoded⟩

/-- The recorded program can be begun. -/
theorem recordedProgram_begun (primitives : Primitives) {maxEvents : UInt32}
    (small : maxEvents = 1 ∨ maxEvents = 2) :
    ∃ started, start primitives (recordedProgram maxEvents) = .ok started := by
  obtain ⟨source, sourceEncoded⟩ := canonicalStruct_of_check primitives
    (show isPlain (writeSource recordedSource) = true by decide) (by decide) (by decide)
  obtain ⟨program, programEncoded⟩ : ∃ bytes, canonicalStruct primitives
      (writeProgram (recordedProgram maxEvents)) = .ok bytes := by
    rcases small with rfl | rfl <;>
      exact canonicalStruct_of_check primitives (by decide) (by decide) (by decide)
  have sourceValid : validateSource primitives recordedSource = .ok () := by
    simp only [validateSource, bind_ok_iff, ensure_ok_iff, exists_const]
    exact ⟨by decide, by decide, source, sourceEncoded, rfl⟩
  have valid : validateProgram primitives (recordedProgram maxEvents) = .ok () := by
    simp only [validateProgram, bind_ok_iff, ensure_ok_iff, exists_const]
    refine ⟨(), sourceValid, ?_, program, programEncoded, rfl⟩
    rcases small with rfl | rfl <;> decide
  have compiled : ∃ plan, compileWorldPlan primitives (recordedProgram maxEvents) = .ok plan := by
    simp only [compileWorldPlan, programId, valid, bind_ok, programEncoded]
    exact ⟨_, rfl⟩
  obtain ⟨plan, compiled⟩ := compiled
  exact start_of_compiled compiled

end QsolFed.HolodeckSandbox
