import QsolFed.Canonical.Agreement
import QsolFed.Holodeck.Plans
import QsolFed.Holodeck.Safeguards
import QsolFed.Signed

/-!
# What a receipt binds

The receipt of a program carries the identifier of the program and the digest of the identifiers
of its events. All identifiers of events have one length, so that their sequence can be read from
what the digest covers, and an identifier covers every part of its event. While no two digests
collide, programs with the same identifier are the same, and ledgers with the same digest agree
event by event.
-/
namespace QsolFed.HolodeckSandbox

open Checked Json Canonical Holodeck

variable {primitives : Primitives} {program : HolodeckProgram}
  {sandbox started final after : HolodeckSandbox}

/-! ## Recorded events -/

/-- What an event of the ledger guarantees. -/
structure Recorded (primitives : Primitives) (program : HolodeckProgram)
    (plan : HolodeckWorldPlan) (event : HolodeckEvent) : Prop where
  /-- The identifier covers the event. -/
  identified : ∃ bytes, canonicalStruct primitives (writeProjection plan event.sequence event.kind
    event.syntheticActor event.text event.sourceRefs) = .ok bytes ∧
      event.eventId = domainRef primitives "holodeck-event" holodeckEventDomain bytes
  /-- Who acts is an entity of the world. -/
  actor : ∀ name, event.syntheticActor = some name → name ∈ plan.syntheticEntityIds
  /-- The source objects are those of the program. -/
  sources : ∀ reference ∈ event.sourceRefs, reference ∈ program.source.objectRefs

/-- Nobody is a valid actor. -/
theorem validateSyntheticActor_none (plan : HolodeckWorldPlan) :
    validateSyntheticActor none plan = .ok () := ensure_pos (by simp) _

/-- A synthetic action that is recorded has a valid actor. -/
theorem actor_of_recordSynthetic {kind : HolodeckEventKind} {actor : Option String}
    {text : String} {refs : List String} {decision : HolodeckDecision}
    (ran : (recordSynthetic primitives kind actor text refs).run sandbox = (.ok decision, after)) :
    validateSyntheticActor actor sandbox.plan = .ok () := by
  simp only [recordSynthetic, Effect.run_read_bind_ok_iff] at ran
  obtain ⟨_, -, _, member, -⟩ := ran
  exact member

/-- The ledger stays, or the next event of a valid actor is appended to it. -/
def Appended (primitives : Primitives) (before after : HolodeckSandbox) : Prop :=
  after.events = before.events ∨ ∃ kind actor text refs event,
    validateSyntheticActor actor before.plan = .ok () ∧
    before.nextEvent primitives kind actor text refs = .ok event ∧
    after.events = before.events ++ [event]

/-- A step appends the next event of a valid actor, or none. -/
theorem appended_of_step {call : Call} {answer : Answer}
    (step : Step primitives sandbox (call, answer) after) :
    Appended primitives sandbox after := by
  have recorded : ∀ kind actor text refs decision,
      (recordSynthetic primitives kind actor text refs).run sandbox = (decision, after) →
      Appended primitives sandbox after := by
    intro kind actor text refs decision ran
    rcases recordSynthetic_cases ran with ⟨_, -, rfl⟩ | ⟨event, -, next, rfl, rfl⟩
    · exact .inl rfl
    · exact .inr ⟨kind, actor, text, refs, event, actor_of_recordSynthetic ran, next, rfl⟩
  have bare := validateSyntheticActor_none sandbox.plan
  cases call <;> obtain ⟨inner, ran, -⟩ := Effect.run_of_run_map step
  case narrative actor text refs => exact recorded _ _ _ _ _ ran
  case transition actor label refs => exact recorded _ _ _ _ _ ran
  case attempt actor effect =>
    rcases attemptBoundaryEffect_cases ran with
      ⟨_, -, rfl, -⟩ | ⟨-, member, ⟨_, -, rfl⟩ | ⟨event, next, -, rfl⟩⟩
    · exact .inl rfl
    · exact .inl rfl
    · exact .inr ⟨_, actor, _, _, event, member, next, rfl⟩
  case freeze =>
    rcases freeze_cases ran with ⟨_, -, rfl, -⟩ | ⟨event, -, next, -, rfl⟩
    · exact .inl rfl
    · exact .inr ⟨_, none, _, _, event, bare, next, rfl⟩
  case resume =>
    rcases resume_cases ran with ⟨_, -, rfl⟩ | ⟨event, -, next, -, rfl⟩
    · exact .inl rfl
    · exact .inr ⟨_, none, _, _, event, bare, next, rfl⟩
  case endProgram reason =>
    have closed : ∀ answer, (close primitives sandbox reason).run sandbox = (answer, after) →
        Appended primitives sandbox after := by
      intro answer closing
      rcases close_cases closing with ⟨-, -, rfl⟩ | ⟨-, -, -, rfl⟩ |
        ⟨-, -, ⟨_, -, -, rfl⟩ | ⟨event, next, -, rfl⟩⟩
      · exact .inl rfl
      · exact .inl rfl
      · exact .inl rfl
      · exact .inr ⟨_, none, _, _, event, bare, next, rfl⟩
    rcases endProgram_cases ran with ⟨_, -, -, rfl⟩ | ⟨-, ⟨_, closing, -⟩ | ⟨closing, -⟩⟩
    · exact .inl rfl
    · exact closed _ closing
    · exact closed _ closing

/-- The next event of a valid actor is recorded. -/
theorem recorded_of_next {kind : HolodeckEventKind} {actor : Option String} {text : String}
    {refs : List String} {event : HolodeckEvent}
    (member : validateSyntheticActor actor sandbox.plan = .ok ())
    (next : sandbox.nextEvent primitives kind actor text refs = .ok event) :
    Recorded primitives sandbox.program sandbox.plan event := by
  obtain ⟨-, -, sources, bytes, encoded, rfl⟩ := (nextEvent_ok_iff ..).mp next
  refine ⟨⟨bytes, encoded, rfl⟩, ?_, ((validateEventSourceRefs_ok_iff _ _).mp sources).2.2⟩
  rintro name rfl
  simpa [validateSyntheticActor] using member

/-- Every event of a sandbox that was reached is recorded. -/
theorem Reached.recorded {events : List (Call × Answer)}
    (reached : Reached primitives program events sandbox) :
    sandbox.program = program ∧ compileWorldPlan primitives program = .ok sandbox.plan ∧
      ∀ event ∈ sandbox.events, Recorded primitives program sandbox.plan event := by
  obtain ⟨started, begun, run⟩ := reached
  refine run.invariant (fun _ sandbox => sandbox.program = program ∧
    compileWorldPlan primitives program = .ok sandbox.plan ∧
      ∀ event ∈ sandbox.events, Recorded primitives program sandbox.plan event) ?_ ?_
  · simp only [start, bind_ok_iff] at begun
    obtain ⟨plan, compiled, begun⟩ := begun
    split at begun
    · next event sandbox pushed =>
      obtain ⟨next, rfl⟩ := pushEvent_ok pushed
      rw [pure_ok_iff] at begun
      subst begun
      refine ⟨rfl, compiled, fun other listed => ?_⟩
      rw [withEvent_events, List.nil_append, List.mem_singleton] at listed
      subst listed
      exact recorded_of_next (validateSyntheticActor_none _) next
    · cases begun
  · rintro _ middle ⟨call, answer⟩ final - ⟨same, compiled, each⟩ step
    have kept := stepped step
    refine ⟨kept.program.trans same, kept.plan ▸ compiled, ?_⟩
    rcases appended_of_step step with same | ⟨kind, actor, text, refs, event, member, next, grown⟩
    · rw [same, kept.plan]
      exact each
    · rw [grown, kept.plan]
      intro other listed
      rcases List.mem_append.mp listed with earlier | here
      · exact each other earlier
      · rw [List.mem_singleton] at here
        subst here
        exact same ▸ recorded_of_next member next

/-! ## Digests -/

/-- Equal digests in hexadecimal are equal digests. -/
theorem digestHex_inj {first second : ByteArray}
    (same : digestHex primitives first = digestHex primitives second) :
    primitives.sha256 first = primitives.sha256 second :=
  ByteArray.ext (Array.ext' (lowercaseHex_inj same))

/-- Lists of blocks of one size are determined by the blocks in a row. -/
theorem blocks_eq {α : Type} {size : Nat} (positive : 0 < size) {left right : List (List α)}
    (eachLeft : ∀ block ∈ left, block.length = size)
    (eachRight : ∀ block ∈ right, block.length = size) (same : left.flatten = right.flatten) :
    left = right := by
  induction left generalizing right with
  | nil =>
    cases right with
    | nil => rfl
    | cons block rest =>
      have length := eachRight block List.mem_cons_self
      have empty := congrArg List.length same
      simp only [List.flatten_nil, List.length_nil, List.flatten_cons, List.length_append] at empty
      omega
  | cons block rest ih =>
    have length := eachLeft block List.mem_cons_self
    cases right with
    | nil =>
      have empty := congrArg List.length same
      simp only [List.flatten_nil, List.length_nil, List.flatten_cons, List.length_append] at empty
      omega
    | cons other others =>
      have lengthOther := eachRight other List.mem_cons_self
      rw [List.flatten_cons, List.flatten_cons] at same
      obtain ⟨rfl, later⟩ := List.append_inj same (length.trans lengthOther.symm)
      rw [ih (fun block listed => eachLeft block (List.mem_cons_of_mem _ listed))
        (fun block listed => eachRight block (List.mem_cons_of_mem _ listed)) later]

/-- The bytes of joined texts are those of the texts in a row. -/
theorem bytes_join (texts : List String) :
    Text.bytes (String.join texts) = (texts.map Text.bytes).flatten := by
  induction texts with
  | nil => rfl
  | cons text rest ih => rw [String.join_cons, Text.bytes_append, ih, List.map_cons,
      List.flatten_cons]

/-- The identifier of an event has 79 bytes. -/
theorem Recorded.length {plan : HolodeckWorldPlan} {event : HolodeckEvent}
    (recorded : Recorded primitives program plan event) :
    (Text.bytes event.eventId).length = 79 := by
  obtain ⟨bytes, -, same⟩ := recorded.identified
  have size : ∀ message, (primitives.sha256 message).data.toList.length = 32 :=
    primitives.sha256_size
  have mark : (Text.bytes ("holodeck-event" ++ ":")).length = 15 := by decide
  rw [same, domainRef, Text.bytes_append, List.length_append, mark, digestHex,
    length_lowercaseHex, size]

/-- Joined identifiers of events determine the identifiers. -/
theorem eventIds_eq {plan other : HolodeckWorldPlan} {program another : HolodeckProgram}
    {left right : List HolodeckEvent}
    (eachLeft : ∀ event ∈ left, Recorded primitives program plan event)
    (eachRight : ∀ event ∈ right, Recorded primitives another other event)
    (same : String.join (left.map HolodeckEvent.eventId) =
      String.join (right.map HolodeckEvent.eventId)) :
    left.map HolodeckEvent.eventId = right.map HolodeckEvent.eventId := by
  have bytes := congrArg Text.bytes same
  rw [bytes_join, bytes_join] at bytes
  have blocks : (left.map HolodeckEvent.eventId).map Text.bytes =
      (right.map HolodeckEvent.eventId).map Text.bytes := by
    refine blocks_eq (by decide : 0 < 79) ?_ ?_ bytes
    · simp only [List.map_map, List.forall_mem_map]
      exact fun event listed => (eachLeft event listed).length
    · simp only [List.map_map, List.forall_mem_map]
      exact fun event listed => (eachRight event listed).length
  exact List.map_injective_iff.mpr (fun _ _ => Text.bytes_injective) blocks

/-! ## Programs -/

section Agreement

variable {unicode : Unicode}

/-- Texts that may be absent agree when their normal forms are the same. -/
theorem agree_nullable {left right : Option String}
    (agree : Agree unicode (nullable left) (nullable right)) :
    left.map unicode.nfc = right.map unicode.nfc := by
  have apart : ∀ text, ¬Agree unicode .null (.string text) := by
    rintro text ⟨node, first, second⟩
    simp only [visit, bind_ok_iff, pure_ok_iff] at first second
    obtain ⟨_, -, rfl⟩ := second
    cases first
  cases left with
  | none =>
    cases right with
    | none => rfl
    | some text => exact absurd agree (apart text)
  | some text =>
    cases right with
    | none =>
      obtain ⟨node, first, second⟩ := agree
      exact absurd ⟨node, second, first⟩ (apart text)
    | some other => exact congrArg some agree.text

/-- Plain texts that agree are the same. -/
theorem eq_of_agree {left right : String} (first : PlainText left) (second : PlainText right)
    (agree : Agree unicode (.string left) (.string right)) : left = right := by
  have same := agree.text
  rwa [first.nfc, second.nfc] at same

/-- Lists of plain texts that agree are the same. -/
theorem texts_eq_of_agree {left right : List String} (first : ∀ text ∈ left, PlainText text)
    (second : ∀ text ∈ right, PlainText text)
    (agree : Agree unicode (.array (left.map .string)) (.array (right.map .string))) :
    left = right := by
  have same := agree.texts
  have fixed : ∀ texts : List String, (∀ text ∈ texts, PlainText text) →
      texts.map unicode.nfc = texts := fun texts plain =>
    (List.map_congr_left fun text listed => (plain text listed).nfc unicode).trans (List.map_id _)
  rwa [fixed _ first, fixed _ second] at same

end Agreement

/-- A prefixed hash is plain. -/
theorem plain_hash {begins : String} (checked : isPlainText begins = true)
    (short : begins.utf8ByteSize ≤ 64) {value : String} (shape : isPrefixedHash value begins = true) :
    PlainText value := by
  simp only [isPlainText, Bool.and_eq_true, List.all_eq_true, decide_eq_true_eq] at checked
  exact (brief_hash checked.1 short shape).1

/-- A valid manifest has plain references. -/
structure SourceShaped (source : NexusWorldSourceManifest) : Prop where
  /-- The schemas and the policy are fixed, and nothing is authorised. -/
  fixed : source.schema = nexusSourceSchemaV1 ∧ source.nexusExportSchema = nexusExportSchemaV1 ∧
    source.nexusWorldPolicy = nexusWorldPolicyV1 ∧ source.authorityEffect = "none"
  /-- The reference to the export is plain. -/
  bundleRef : PlainText source.bundleRef
  /-- So is the head, if there is one. -/
  sourceHeadRef : ∀ text ∈ source.sourceHeadRef, PlainText text
  /-- So are the objects. -/
  objectRefs : ∀ text ∈ source.objectRefs, PlainText text

/-- The manifest of a valid program is in shape. -/
theorem sourceShaped_of_valid (valid : validateProgram primitives program = .ok ()) :
    SourceShaped program.source ∧ program.schema = holodeckProgramSchemaV1 ∧
      program.safetyProfile = holodeckSafetyProfileV1 ∧ program.authorityEffect = "none" := by
  simp only [validateProgram, validateSource, bind_ok_iff, ensure_ok_iff, exists_const,
    List.all_eq_true] at valid
  obtain ⟨_, ⟨⟨schema, export_, policy, effect, bundle, head, -⟩, ⟨objects, -⟩, -⟩,
    ⟨programSchema, profile, authority, -⟩, -⟩ := valid
  refine ⟨⟨⟨schema, export_, policy, effect⟩, plain_hash (by decide) (by decide) bundle, ?_, ?_⟩,
    programSchema, profile, authority⟩
  · exact fun text present => plain_hash (by decide) (by decide)
      ((Option.all_eq_true _ _).mp head text present)
  · exact fun text listed => plain_hash (by decide) (by decide) (objects text listed)

/-- Manifests in shape that agree are the same. -/
theorem source_eq_of_agree {one two : NexusWorldSourceManifest} (first : SourceShaped one)
    (second : SourceShaped two) {unicode : Unicode}
    (agree : Agree unicode (writeSource one) (writeSource two)) : one = two := by
  have bundle := eq_of_agree first.bundleRef second.bundleRef
    (agree.member "bundle_ref" (by simp) (by simp))
  have objects := texts_eq_of_agree first.objectRefs second.objectRefs
    (agree.member "object_refs" (by simp) (by simp))
  have heads : one.sourceHeadRef = two.sourceHeadRef := by
    have nulls : Agree unicode (nullable one.sourceHeadRef) (nullable two.sourceHeadRef) :=
      agree.member "source_head_ref" (by simp) (by simp)
    have same := agree_nullable nulls
    have fixed : ∀ head : Option String, (∀ text ∈ head, PlainText text) →
        head.map unicode.nfc = head := by
      intro head plain
      cases head with
      | none => rfl
      | some text => exact congrArg some ((plain text rfl).nfc unicode)
    rwa [fixed _ first.sourceHeadRef, fixed _ second.sourceHeadRef] at same
  have basis : one.orderBasis = two.orderBasis := by
    have plain : ∀ basis, isPlainText (orderBasisName basis) = true := by
      intro basis
      cases basis <;> decide
    have same := eq_of_agree (plainText_of_check (plain one.orderBasis))
      (plainText_of_check (plain two.orderBasis)) (agree.member "order_basis" (by simp) (by simp))
    revert same
    cases one.orderBasis <;> cases two.orderBasis <;> simp [orderBasisName]
  obtain ⟨schema, nexusExport, policy, effect⟩ := first.fixed
  obtain ⟨schemaTwo, nexusExportTwo, policyTwo, effectTwo⟩ := second.fixed
  cases one
  cases two
  rw [NexusWorldSourceManifest.mk.injEq]
  exact ⟨schema.trans schemaTwo.symm, nexusExport.trans nexusExportTwo.symm,
    policy.trans policyTwo.symm, bundle, heads, basis, objects, effect.trans effectTwo.symm⟩

/-- Valid programs that agree are the same. -/
theorem program_eq_of_agree {one two : HolodeckProgram}
    (first : validateProgram primitives one = .ok ())
    (second : validateProgram primitives two = .ok ()) {unicode : Unicode}
    (agree : Agree unicode (writeProgram one) (writeProgram two)) : one = two := by
  obtain ⟨source, schema, profile, authority⟩ := sourceShaped_of_valid first
  obtain ⟨sourceTwo, schemaTwo, profileTwo, authorityTwo⟩ := sourceShaped_of_valid second
  have sources := source_eq_of_agree source sourceTwo
    (agree.member "source" (by simp) (by simp))
  have seed : Agree unicode (.number (Number.ofInt one.seed.toInt))
      (.number (Number.ofInt two.seed.toInt)) := agree.member "seed" (by simp) (by simp)
  have events : Agree unicode (.number (Number.ofInt one.maxEvents.toNat))
      (.number (Number.ofInt two.maxEvents.toNat)) :=
    agree.member "max_events" (by simp) (by simp)
  have entities : Agree unicode (.number (Number.ofInt one.maxEntities.toNat))
      (.number (Number.ofInt two.maxEntities.toNat)) :=
    agree.member "max_entities" (by simp) (by simp)
  have mode : one.mode = two.mode := by
    have plain : ∀ mode, isPlainText (programModeName mode) = true := by
      intro mode
      cases mode <;> decide
    have same := eq_of_agree (plainText_of_check (plain one.mode))
      (plainText_of_check (plain two.mode)) (agree.member "mode" (by simp) (by simp))
    revert same
    cases one.mode <;> cases two.mode <;> simp [programModeName]
  cases one
  cases two
  rw [HolodeckProgram.mk.injEq]
  exact ⟨schema.trans schemaTwo.symm, sources, Int64.toInt_inj.mp seed.integer, mode,
    UInt32.toNat_inj.mp (Int.ofNat_inj.mp events.integer),
    UInt16.toNat_inj.mp (Int.ofNat_inj.mp entities.integer), profile.trans profileTwo.symm,
    authority.trans authorityTwo.symm⟩

/-! ## Runs -/

/-- Two events that agree in every part, their texts up to the normal form. -/
structure SameEvent (unicode : Unicode) (one two : HolodeckEvent) : Prop where
  /-- They have the same place. -/
  sequence : one.sequence = two.sequence
  /-- They have the same kind. -/
  kind : one.kind = two.kind
  /-- The same entity acts. -/
  actor : one.syntheticActor = two.syntheticActor
  /-- They refer to the same source objects. -/
  sources : one.sourceRefs = two.sourceRefs
  /-- Their texts have the same normal form. -/
  text : unicode.nfc one.text = unicode.nfc two.text

/-- Recorded events whose projections agree are the same up to the normal form of the text. -/
theorem sameEvent_of_agree {plan : HolodeckWorldPlan} {one two : HolodeckEvent}
    (compiled : Compiled primitives program plan)
    (valid : validateProgram primitives program = .ok ())
    (first : Recorded primitives program plan one) (second : Recorded primitives program plan two)
    {unicode : Unicode}
    (agree : Agree unicode
      (writeProjection plan one.sequence one.kind one.syntheticActor one.text one.sourceRefs)
      (writeProjection plan two.sequence two.kind two.syntheticActor two.text two.sourceRefs)) :
    SameEvent unicode one two := by
  have entity : ∀ name ∈ plan.syntheticEntityIds, PlainText name := by
    intro name listed
    obtain ⟨index, small, rfl⟩ := compiled.entityIds valid name listed
    exact (brief_entityId _ small).1
  have objects := (sourceShaped_of_valid valid).1.objectRefs
  have sequences : Agree unicode (.number (Number.ofInt one.sequence.toNat))
      (.number (Number.ofInt two.sequence.toNat)) := agree.member "sequence" (by simp) (by simp)
  have actors : Agree unicode (nullable one.syntheticActor) (nullable two.syntheticActor) :=
    agree.member "synthetic_actor" (by simp) (by simp)
  have kinds : Agree unicode (.string (eventKindName one.kind)) (.string (eventKindName two.kind)) :=
    agree.member "kind" (by simp) (by simp)
  have sources : Agree unicode (.array (one.sourceRefs.map .string))
      (.array (two.sourceRefs.map .string)) := agree.member "source_refs" (by simp) (by simp)
  have texts : Agree unicode (.string one.text) (.string two.text) :=
    agree.member "text" (by simp) (by simp)
  constructor
  · exact UInt32.toNat_inj.mp (Int.ofNat_inj.mp sequences.integer)
  · have plain : ∀ kind, isPlainText (eventKindName kind) = true := by
      intro kind
      cases kind <;> decide
    have same := eq_of_agree (plainText_of_check (plain one.kind))
      (plainText_of_check (plain two.kind)) kinds
    revert same
    cases one.kind <;> cases two.kind <;> simp [eventKindName]
  · have same := agree_nullable actors
    have fixed : ∀ event : HolodeckEvent, Recorded primitives program plan event →
        event.syntheticActor.map unicode.nfc = event.syntheticActor := by
      intro event recorded
      cases acts : event.syntheticActor with
      | none => rfl
      | some name => exact congrArg some ((entity name (recorded.actor name acts)).nfc unicode)
    rwa [fixed one first, fixed two second] at same
  · exact texts_eq_of_agree (fun text listed => objects text (first.sources text listed))
      (fun text listed => objects text (second.sources text listed)) sources
  · exact texts.text

/-- What the receipt of a sandbox digests for its chain. -/
def chainInput (sandbox : HolodeckSandbox) : ByteArray :=
  eventChainDomain.toByteArray ++
    (String.join (sandbox.events.map HolodeckEvent.eventId)).toByteArray

/-- What is digested for a sandbox and its receipt. -/
def Digested (primitives : Primitives) (sandbox : HolodeckSandbox) (input : ByteArray) : Prop :=
  (∃ bytes, canonicalStruct primitives (writeProgram sandbox.program) = .ok bytes ∧
    input = holodeckProgramDomain.toByteArray ++ bytes) ∨
  (∃ event ∈ sandbox.events, ∃ bytes, canonicalStruct primitives (writeProjection sandbox.plan
      event.sequence event.kind event.syntheticActor event.text event.sourceRefs) = .ok bytes ∧
    input = holodeckEventDomain.toByteArray ++ bytes) ∨
  input = chainInput sandbox

/-- Data with the same canonical bytes agrees. -/
theorem agree_of_canonicalStruct {one two : Value String} {bytes : ByteArray}
    (integral : one.Integral ∧ two.Integral)
    (shallow : one.nesting ≤ recursionLimit ∧ two.nesting ≤ recursionLimit)
    (first : canonicalStruct primitives one = .ok bytes)
    (second : canonicalStruct primitives two = .ok bytes) : Agree primitives.unicode one two :=
  agree_of_canonicalize integral shallow ((mapError_ok_iff ..).mp first)
    ((mapError_ok_iff ..).mp second)

/-- A program is integral and nests three levels. -/
theorem writeProgram_bounds (program : HolodeckProgram) : (writeProgram program).Integral ∧
    (writeProgram program).nesting ≤ recursionLimit := by
  obtain ⟨schema, ⟨_, _, _, _, head, _, objects, _⟩, seed, mode, events, entities, profile,
    authority⟩ := program
  constructor
  · cases head <;> simp [writeProgram, writeSource, nullable, Value.Integral,
      Value.IntegralMembers, Number.Integral, Number.ofInt, integralItems_texts]
  · cases head <;> simp [writeProgram, writeSource, nullable, Value.nesting,
      Value.nestingMembers, nestingItems_texts, recursionLimit]

/-- What an event covers is integral and nests two levels. -/
theorem writeProjection_bounds (plan : HolodeckWorldPlan) (sequence : UInt32)
    (kind : HolodeckEventKind) (actor : Option String) (text : String) (refs : List String) :
    (writeProjection plan sequence kind actor text refs).Integral ∧
      (writeProjection plan sequence kind actor text refs).nesting ≤ recursionLimit := by
  constructor
  · cases actor <;> simp [writeProjection, nullable, Value.Integral, Value.IntegralMembers,
      Number.Integral, Number.ofInt, integralItems_texts]
  · cases actor <;> simp [writeProjection, nullable, Value.nesting, Value.nestingMembers,
      nestingItems_texts, recursionLimit]

/-- A compiled plan names the program by the digest of its canonical bytes. -/
theorem programId_of_compiled {plan : HolodeckWorldPlan}
    (compiled : compileWorldPlan primitives program = .ok plan) :
    validateProgram primitives program = .ok () ∧ ∃ bytes,
      canonicalStruct primitives (writeProgram program) = .ok bytes ∧
      plan.programId = domainRef primitives "holodeck-program" holodeckProgramDomain bytes := by
  simp only [compileWorldPlan, programId, bind_ok_iff, pure_ok_iff] at compiled
  obtain ⟨_, ⟨⟨⟩, valid, bytes, encoded, rfl⟩, rfl⟩ := compiled
  exact ⟨valid, bytes, encoded, rfl⟩

/-- A receipt that was answered names the program of the sandbox and digests its chain. -/
theorem Reached.receipt {events : List (Call × Answer)} {call : Call} {receipt : HolodeckReceipt}
    (reached : Reached primitives program events sandbox)
    (answered : (call, .ok (.receipt receipt)) ∈ events) :
    receipt.programId = sandbox.plan.programId ∧
      receipt.eventChainHash = "sha256:" ++ digestHex primitives (chainInput sandbox) := by
  obtain ⟨started, -, run⟩ := reached
  obtain ⟨-, made⟩ := receipt_of_run run answered
  simp only [HolodeckSandbox.receipt, bind_ok_iff, pure_ok_iff] at made
  obtain ⟨-, -, rfl⟩ := made
  exact ⟨rfl, rfl⟩

/-- While no two digests collide, receipts with the same program and the same chain are those of
the same program and of ledgers that agree event by event. -/
theorem receipts_bind {programOne programTwo : HolodeckProgram}
    {callsOne callsTwo : List (Call × Answer)} {one two : HolodeckSandbox}
    {receiptOne receiptTwo : HolodeckReceipt} {endOne endTwo : Call}
    (first : Reached primitives programOne callsOne one)
    (second : Reached primitives programTwo callsTwo two)
    (answeredOne : (endOne, .ok (.receipt receiptOne)) ∈ callsOne)
    (answeredTwo : (endTwo, .ok (.receipt receiptTwo)) ∈ callsTwo)
    (distinct : Set.InjOn primitives.sha256
      {input | Digested primitives one input ∨ Digested primitives two input})
    (sameProgram : receiptOne.programId = receiptTwo.programId)
    (sameChain : receiptOne.eventChainHash = receiptTwo.eventChainHash) :
    programOne = programTwo ∧ one.events.length = two.events.length ∧
      List.Forall₂ (SameEvent primitives.unicode) one.events two.events := by
  obtain ⟨programOfOne, compiledOne, recordedOne⟩ := first.recorded
  obtain ⟨programOfTwo, compiledTwo, recordedTwo⟩ := second.recorded
  obtain ⟨namesOne, chainsOne⟩ := first.receipt answeredOne
  obtain ⟨namesTwo, chainsTwo⟩ := second.receipt answeredTwo
  obtain ⟨validOne, bytesOne, encodedOne, idOne⟩ := programId_of_compiled compiledOne
  obtain ⟨validTwo, bytesTwo, encodedTwo, idTwo⟩ := programId_of_compiled compiledTwo
  -- Different inputs have different digests, so that equal names are names of equal bytes.
  have same : ∀ left right, Digested primitives one left → Digested primitives two right →
      digestHex primitives left = digestHex primitives right → left = right :=
    fun left right here there digests => distinct (.inl here) (.inr there) (digestHex_inj digests)
  have programs : programOne = programTwo := by
    rw [namesOne, namesTwo, idOne, idTwo] at sameProgram
    have inputs := same _ _ (.inl ⟨bytesOne, programOfOne ▸ encodedOne, rfl⟩)
      (.inl ⟨bytesTwo, programOfTwo ▸ encodedTwo, rfl⟩) ((String.append_right_inj _).mp sameProgram)
    obtain rfl := (ByteArray.append_right_inj _).mp inputs
    refine program_eq_of_agree validOne validTwo (agree_of_canonicalStruct ?_ ?_ encodedOne encodedTwo)
    · exact ⟨(writeProgram_bounds _).1, (writeProgram_bounds _).1⟩
    · exact ⟨(writeProgram_bounds _).2, (writeProgram_bounds _).2⟩
  subst programs
  have plans : one.plan = two.plan := by
    rw [compiledOne] at compiledTwo
    exact Except.ok.inj compiledTwo
  have ids : one.events.map HolodeckEvent.eventId = two.events.map HolodeckEvent.eventId := by
    rw [chainsOne, chainsTwo] at sameChain
    have inputs := same _ _ (.inr (.inr rfl)) (.inr (.inr rfl)) ((String.append_right_inj _).mp sameChain)
    have joined := congrArg (fun bytes => bytes.data.toList) ((ByteArray.append_right_inj _).mp inputs)
    exact eventIds_eq recordedOne recordedTwo (Text.bytes_injective joined)
  have lengths : one.events.length = two.events.length := by
    simpa using congrArg List.length ids
  obtain ⟨plan, compiles, compiled⟩ := compileWorldPlan_total validOne
  obtain rfl : plan = one.plan := Except.ok.inj (compiles.symm.trans compiledOne)
  refine ⟨rfl, lengths, List.forall₂_iff_get.mpr ⟨lengths, fun index left right => ?_⟩⟩
  have hereOne := recordedOne _ (List.get_mem one.events ⟨index, left⟩)
  have hereTwo := plans ▸ recordedTwo _ (List.get_mem two.events ⟨index, right⟩)
  obtain ⟨bytes, encoded, id⟩ := hereOne.identified
  obtain ⟨others, encodedOther, idOther⟩ := hereTwo.identified
  have names : domainRef primitives "holodeck-event" holodeckEventDomain bytes =
      domainRef primitives "holodeck-event" holodeckEventDomain others := by
    have at_ := congrArg (fun names => names[index]?) ids
    simp only [List.getElem?_map, List.getElem?_eq_getElem left, List.getElem?_eq_getElem right,
      Option.map_some, Option.some.injEq] at at_
    rw [← id, ← idOther]
    exact at_
  have inputs := same _ _
    (.inr (.inl ⟨_, List.get_mem one.events ⟨index, left⟩, bytes, encoded, rfl⟩))
    (.inr (.inl ⟨_, List.get_mem two.events ⟨index, right⟩, others, plans ▸ encodedOther, rfl⟩))
    ((String.append_right_inj _).mp names)
  obtain rfl := (ByteArray.append_right_inj _).mp inputs
  refine sameEvent_of_agree compiled validOne hereOne hereTwo
    (agree_of_canonicalStruct ?_ ?_ encoded encodedOther)
  · exact ⟨(writeProjection_bounds ..).1, (writeProjection_bounds ..).1⟩
  · exact ⟨(writeProjection_bounds ..).2, (writeProjection_bounds ..).2⟩

/-! ## A recorded receipt -/

/-- Primitives that tell programs, events and chains apart. -/
def telling : Primitives := Digest.tabulated
  [(Text.bytes holodeckProgramDomain, "01"), (Text.bytes holodeckEventDomain, "02")] []

/-- The first byte of a digest tells what was digested. -/
theorem telling_first (rest : ByteArray) :
    (telling.sha256 (holodeckProgramDomain.toByteArray ++ rest)).data[0]? = some 1 ∧
    (telling.sha256 (holodeckEventDomain.toByteArray ++ rest)).data[0]? = some 2 ∧
    (telling.sha256 (eventChainDomain.toByteArray ++ rest)).data[0]? = some 0 := by
  have message : ∀ domain : String, (domain.toByteArray ++ rest).data.toList =
      Text.bytes domain ++ rest.data.toList := by
    intro domain
    simp [Text.bytes]
  have starts : ∀ domain : List UInt8, domain.isPrefixOf (domain ++ rest.data.toList) = true :=
    fun domain => List.isPrefixOf_iff_prefix.mpr (List.prefix_append _ _)
  have program : (Text.bytes holodeckProgramDomain).isPrefixOf
      (Text.bytes holodeckEventDomain ++ rest.data.toList) = false := rfl
  have chain : (Text.bytes holodeckProgramDomain).isPrefixOf
        (Text.bytes eventChainDomain ++ rest.data.toList) = false ∧
      (Text.bytes holodeckEventDomain).isPrefixOf
        (Text.bytes eventChainDomain ++ rest.data.toList) = false := ⟨rfl, rfl⟩
  simp only [telling, Digest.tabulated, message, List.find?_cons, starts, program, chain]
  exact ⟨rfl, rfl, rfl⟩

/-- The inputs of a ledger of one event are told apart. -/
theorem telling_injOn (few : sandbox.events.length ≤ 1) :
    Set.InjOn telling.sha256
      {input | Digested telling sandbox input ∨ Digested telling sandbox input} := by
  have single : ∀ one ∈ sandbox.events, ∀ two ∈ sandbox.events, one = two := by
    intro one here two there
    match events : sandbox.events with
    | [] => simp [events] at here
    | [only] =>
      rw [events, List.mem_singleton] at here there
      rw [here, there]
    | _ :: _ :: _ => simp [events] at few
  intro left here right there same
  rw [Set.mem_ofPred_eq, or_self] at here there
  have first := congrArg (fun digest => digest.data[0]?) same
  rcases here with ⟨bytes, encoded, rfl⟩ | ⟨event, listed, bytes, encoded, rfl⟩ | rfl <;>
    rcases there with ⟨other, encodedOther, rfl⟩ | ⟨event', listed', other, encodedOther, rfl⟩ | rfl
  all_goals try rfl
  all_goals simp only [chainInput, telling_first, Option.some.injEq] at first
  · rw [encoded] at encodedOther
    rw [Except.ok.inj encodedOther]
  · exact absurd first (by decide)
  · exact absurd first (by decide)
  · exact absurd first (by decide)
  · obtain rfl := single event listed event' listed'
    rw [encoded] at encodedOther
    rw [Except.ok.inj encodedOther]
  · exact absurd first (by decide)
  · exact absurd first (by decide)
  · exact absurd first (by decide)

/-- The recorded program ends with a receipt that binds it. -/
theorem recorded_receipt : ∃ sandbox calls receipt,
    Reached telling (recordedProgram 1) calls sandbox ∧
    (Call.endProgram "computer, end program", .ok (.receipt receipt)) ∈ calls ∧
    List.Forall₂ (SameEvent telling.unicode) sandbox.events sandbox.events := by
  obtain ⟨started, reached, -, length⟩ := recorded_reached telling (.inl rfl)
  have full : (recordedProgram 1).maxEvents.toNat ≤ started.events.length := by
    rw [length]
    decide
  obtain ⟨receipt, final, -, step⟩ :=
    (@ends_iff telling _ _ _ reached "computer, end program" (by decide) (by decide)).mpr
      (.inr (.inl full))
  obtain ⟨begun, begins, run⟩ := reached
  have ended : Reached telling (recordedProgram 1)
      ([] ++ [(.endProgram "computer, end program", .ok (.receipt receipt))]) final :=
    ⟨begun, begins, run.snoc step⟩
  have answered : (Call.endProgram "computer, end program", Except.ok (Reply.receipt receipt)) ∈
      ([] ++ [(.endProgram "computer, end program", .ok (.receipt receipt))] :
        List (Call × Answer)) := by simp
  have few : final.events.length ≤ 1 := ended.kept.1.within
  exact ⟨final, _, receipt, ended, answered,
    (receipts_bind ended ended answered answered (telling_injOn few) rfl rfl).2.2⟩

end QsolFed.HolodeckSandbox
