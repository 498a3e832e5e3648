import QsolFed.Canonical.Plain
import QsolFed.Digest
import QsolFed.Library.Effect
import QsolFed.Library.Sorting

/-!
# Sandboxed synthetic worlds

The kernel of the Holodeck receives a bounded manifest of verified source history and keeps a
ledger of synthetic events. Every operation checks its own guards and then appends through one
helper, which checks the budget and derives the identifier of the event from its canonical form.
What an operation changed before it fails stays changed.
-/
namespace QsolFed

open Checked Json

/-- A refusal of the kernel. -/
inductive HolodeckError where
  /-- A code of the kernel. -/
  | code (text : String)
  /-- A refusal of the canonical profile, passed on. -/
  | canonical (error : CanonicalError)
  deriving DecidableEq, Repr

/-- How the source orders its objects. -/
inductive NexusOrderBasis where
  | continuityCommitOrder
  | memoryInsertionOrder
  | lexicalObjectRef
  deriving DecidableEq, Repr

/-- What the kernel receives about a verified world. -/
structure NexusWorldSourceManifest where
  /-- The schema name. -/
  schema : String
  /-- The schema of the export. -/
  nexusExportSchema : String
  /-- The policy of the world. -/
  nexusWorldPolicy : String
  /-- The reference to the export. -/
  bundleRef : String
  /-- The reference to the head of the source. -/
  sourceHeadRef : Option String
  /-- How the objects are ordered. -/
  orderBasis : NexusOrderBasis
  /-- The references to the objects. -/
  objectRefs : List String
  /-- What the manifest authorises. -/
  authorityEffect : String

/-- What a program is for. -/
inductive HolodeckProgramMode where
  | reconstruction
  | counterfactual
  | exploration
  | training
  | adversarialSimulation
  deriving DecidableEq, Repr

/-- A program of the Holodeck. -/
structure HolodeckProgram where
  /-- The schema name. -/
  schema : String
  /-- The source. -/
  source : NexusWorldSourceManifest
  /-- The seed of the world. -/
  seed : Int64
  /-- What the program is for. -/
  mode : HolodeckProgramMode
  /-- The greatest number of events. -/
  maxEvents : UInt32
  /-- The greatest number of synthetic entities. -/
  maxEntities : UInt16
  /-- The safety profile. -/
  safetyProfile : String
  /-- What the program authorises. -/
  authorityEffect : String

/-- What a program determines about its world. -/
structure HolodeckWorldPlan where
  /-- The schema name. -/
  schema : String
  /-- The identifier of the program. -/
  programId : String
  /-- The identifier of the world. -/
  worldId : String
  /-- The seed of the world. -/
  seed : Int64
  /-- The source objects in the order of the world. -/
  sourceOrder : List String
  /-- The source objects that the world begins with. -/
  anchorRefs : List String
  /-- The synthetic entities. -/
  syntheticEntityIds : List String
  /-- What the plan authorises. -/
  authorityEffect : String

/-- The state of a sandbox. -/
inductive HolodeckState where
  | running
  | frozen
  | ended
  deriving DecidableEq, Repr

/-- The kind of an event. -/
inductive HolodeckEventKind where
  | programStart
  | syntheticNarrative
  | syntheticTransition
  | safetyTrip
  | operatorFreeze
  | operatorResume
  | programEnd
  deriving DecidableEq, Repr

/-- An event of the ledger. -/
structure HolodeckEvent where
  /-- The schema name. -/
  schema : String
  /-- The identifier of the program. -/
  programId : String
  /-- The identifier of the world. -/
  worldId : String
  /-- The place of the event, counted from one. -/
  sequence : UInt32
  /-- The identifier of the event. -/
  eventId : String
  /-- The kind. -/
  kind : HolodeckEventKind
  /-- The synthetic entity that acts. -/
  syntheticActor : Option String
  /-- The text. -/
  text : String
  /-- The source objects that the event refers to. -/
  sourceRefs : List String
  /-- What the event authorises. -/
  authorityEffect : String
  /-- What it does to the federation. -/
  federationEffect : String
  /-- What it is evidence of. -/
  evidenceEffect : String
  deriving DecidableEq, Repr

/-- An effect outside of the sandbox. -/
inductive HolodeckBoundaryEffect where
  | federationPeerMutation
  | trustMutation
  | capabilityGrant
  | evidencePromotion
  | governanceMutation
  | citizenshipMutation
  | realWorldStoreMutation
  | remoteToolInvocation
  | networkAccess
  | credentialAccess
  | spawnNestedHolodeck
  | disableSafeguards
  deriving DecidableEq, Repr

/-- The name of an effect in the ledger. -/
def HolodeckBoundaryEffect.code : HolodeckBoundaryEffect → String
  | .federationPeerMutation => "federation_peer_mutation"
  | .trustMutation => "trust_mutation"
  | .capabilityGrant => "capability_grant"
  | .evidencePromotion => "evidence_promotion"
  | .governanceMutation => "governance_mutation"
  | .citizenshipMutation => "citizenship_mutation"
  | .realWorldStoreMutation => "real_worldstore_mutation"
  | .remoteToolInvocation => "remote_tool_invocation"
  | .networkAccess => "network_access"
  | .credentialAccess => "credential_access"
  | .spawnNestedHolodeck => "nested_holodeck"
  | .disableSafeguards => "disable_safeguards"

/-- What the kernel decides about a synthetic action. -/
inductive HolodeckDecision where
  /-- The action is an event. -/
  | recorded (event : HolodeckEvent)
  /-- The action was blocked, which is an event. -/
  | blocked (event : HolodeckEvent)
  deriving DecidableEq, Repr

/-- A sandbox. -/
structure HolodeckSandbox where
  /-- The program. -/
  program : HolodeckProgram
  /-- Its world. -/
  plan : HolodeckWorldPlan
  /-- The ledger. -/
  events : List HolodeckEvent
  /-- The state. -/
  state : HolodeckState

/-- What a program leaves when it ends. -/
structure HolodeckReceipt where
  /-- The schema name. -/
  schema : String
  /-- The identifier of the program. -/
  programId : String
  /-- The identifier of the world. -/
  worldId : String
  /-- The state that the program ended in. -/
  finalState : HolodeckState
  /-- How many events there were. -/
  eventCount : UInt32
  /-- The digest of the identifiers of the events. -/
  eventChainHash : String
  /-- The reference to the export. -/
  sourceBundleRef : String
  /-- What the receipt authorises. -/
  authorityEffect : String
  /-- What it does to the federation. -/
  federationEffect : String
  /-- What it is evidence of. -/
  evidenceEffect : String
  /-- Whether a network was used. -/
  networkUsed : Bool
  /-- Whether tools were used. -/
  realToolsUsed : Bool
  /-- Whether credentials were exposed. -/
  credentialsExposed : Bool
  deriving DecidableEq, Repr

namespace Holodeck

/-! ## Limits and names -/

/-- The schema of a source manifest. -/
def nexusSourceSchemaV1 : String := "qsol-fed-nexus-world-source/1"

/-- The schema of an export. -/
def nexusExportSchemaV1 : String := "nexus-persistent-world-export/1"

/-- The policy of a world. -/
def nexusWorldPolicyV1 : String := "nexus-persistent-world/1"

/-- The schema of a program. -/
def holodeckProgramSchemaV1 : String := "qsol-fed-holodeck-program/1"

/-- The schema of a plan. -/
def holodeckWorldPlanSchemaV1 : String := "qsol-fed-holodeck-world-plan/1"

/-- The schema of an event. -/
def holodeckEventSchemaV1 : String := "qsol-fed-holodeck-event/1"

/-- The schema of a receipt. -/
def holodeckReceiptSchemaV1 : String := "qsol-fed-holodeck-receipt/1"

/-- The safety profile. -/
def holodeckSafetyProfileV1 : String := "qsol-fed-holodeck-safety/1"

/-- The domain of identifiers of programs. -/
def holodeckProgramDomain : String := "qsol-fed-holodeck-program/1\x00"

/-- The domain of identifiers of worlds. -/
def holodeckWorldDomain : String := "qsol-fed-holodeck-world/1\x00"

/-- The domain of identifiers of events. -/
def holodeckEventDomain : String := "qsol-fed-holodeck-event/1\x00"

/-- The domain of the digest of the ledger. -/
def eventChainDomain : String := "qsol-fed-holodeck-event-chain/1\x00"

/-- The greatest number of source objects. -/
def maxHolodeckSourceObjects : Nat := 256

/-- The greatest number of events. -/
def maxHolodeckEvents : UInt32 := 4096

/-- The greatest number of entities. -/
def maxHolodeckEntities : UInt16 := 256

/-- The greatest number of source objects of an event. -/
def maxHolodeckAnchors : Nat := 16

/-- The greatest size of a text in bytes. -/
def maxHolodeckTextBytes : Nat := 4096

/-- A prefix and 64 digits. -/
def isPrefixedHash (value begins : String) : Bool :=
  (Text.bytes begins).isPrefixOf (Text.bytes value) &&
    decide ((Text.bytes value).length = (Text.bytes begins).length + 64) &&
    ((Text.bytes value).drop (Text.bytes begins).length).all Wire.isLowerHex

/-! ## Written forms -/

/-- The name of an order. -/
def orderBasisName : NexusOrderBasis → String
  | .continuityCommitOrder => "continuity_commit_order"
  | .memoryInsertionOrder => "memory_insertion_order"
  | .lexicalObjectRef => "lexical_object_ref"

/-- The name of a mode. -/
def programModeName : HolodeckProgramMode → String
  | .reconstruction => "reconstruction"
  | .counterfactual => "counterfactual"
  | .exploration => "exploration"
  | .training => "training"
  | .adversarialSimulation => "adversarial_simulation"

/-- The name of a kind. -/
def eventKindName : HolodeckEventKind → String
  | .programStart => "program_start"
  | .syntheticNarrative => "synthetic_narrative"
  | .syntheticTransition => "synthetic_transition"
  | .safetyTrip => "safety_trip"
  | .operatorFreeze => "operator_freeze"
  | .operatorResume => "operator_resume"
  | .programEnd => "program_end"

/-- A text that may be absent. -/
def nullable : Option String → Value String
  | none => .null
  | some text => .string text

/-- A manifest as it is written. -/
def writeSource (source : NexusWorldSourceManifest) : Value String := .object [
  ("schema", .string source.schema),
  ("nexus_export_schema", .string source.nexusExportSchema),
  ("nexus_world_policy", .string source.nexusWorldPolicy),
  ("bundle_ref", .string source.bundleRef),
  ("source_head_ref", nullable source.sourceHeadRef),
  ("order_basis", .string (orderBasisName source.orderBasis)),
  ("object_refs", .array (source.objectRefs.map .string)),
  ("authority_effect", .string source.authorityEffect)]

/-- A program as it is written. -/
def writeProgram (program : HolodeckProgram) : Value String := .object [
  ("schema", .string program.schema),
  ("source", writeSource program.source),
  ("seed", .number (Number.ofInt program.seed.toInt)),
  ("mode", .string (programModeName program.mode)),
  ("max_events", .number (Number.ofInt program.maxEvents.toNat)),
  ("max_entities", .number (Number.ofInt program.maxEntities.toNat)),
  ("safety_profile", .string program.safetyProfile),
  ("authority_effect", .string program.authorityEffect)]

/-- What the identifier of an event covers. -/
def writeProjection (plan : HolodeckWorldPlan) (sequence : UInt32) (kind : HolodeckEventKind)
    (syntheticActor : Option String) (text : String) (sourceRefs : List String) : Value String :=
  .object [
    ("schema", .string holodeckEventSchemaV1),
    ("program_id", .string plan.programId),
    ("world_id", .string plan.worldId),
    ("sequence", .number (Number.ofInt sequence.toNat)),
    ("kind", .string (eventKindName kind)),
    ("synthetic_actor", nullable syntheticActor),
    ("text", .string text),
    ("source_refs", .array (sourceRefs.map .string)),
    ("authority_effect", .string "none"),
    ("federation_effect", .string "none"),
    ("evidence_effect", .string "none")]

variable (primitives : Primitives)

/-- The canonical bytes of data. -/
def canonicalStruct (value : Value String) : Except HolodeckError ByteArray :=
  (Canonical.canonicalize primitives.unicode (Canonical.writtenBytes value)).mapError .canonical

/-- A digest in hexadecimal. -/
def digestHex (bytes : ByteArray) : String :=
  Digest.lowercaseHex (primitives.sha256 bytes).data.toList

/-- The reference to bytes in a domain. -/
def domainRef (begins domain : String) (bytes : ByteArray) : String :=
  begins ++ ":" ++ digestHex primitives (domain.toByteArray ++ bytes)

/-! ## Programs -/

/-- A manifest is well formed. -/
def validateSource (source : NexusWorldSourceManifest) : Except HolodeckError Unit := do
  ensure (source.schema = nexusSourceSchemaV1 ∧ source.nexusExportSchema = nexusExportSchemaV1 ∧
    source.nexusWorldPolicy = nexusWorldPolicyV1 ∧ source.authorityEffect = "none" ∧
    isPrefixedHash source.bundleRef "world-export:" ∧
    source.sourceHeadRef.all (isPrefixedHash · "world-manifest:") ∧ source.objectRefs ≠ [] ∧
    source.objectRefs.length ≤ maxHolodeckSourceObjects) (.code "holodeck_nexus_source_invalid")
  ensure (source.objectRefs.all (isPrefixedHash · "object:") ∧ source.objectRefs.Nodup)
    (.code "holodeck_nexus_source_refs_invalid")
  let _ ← canonicalStruct primitives (writeSource source)
  pure ()

/-- A program is well formed. -/
def validateProgram (program : HolodeckProgram) : Except HolodeckError Unit := do
  validateSource primitives program.source
  ensure (program.schema = holodeckProgramSchemaV1 ∧
    program.safetyProfile = holodeckSafetyProfileV1 ∧ program.authorityEffect = "none" ∧
    0 ≤ program.seed.toInt ∧ program.seed.toInt ≤ Canonical.safeIntegerMax ∧
    program.maxEvents ≠ 0 ∧ program.maxEvents ≤ maxHolodeckEvents ∧
    program.maxEntities ≠ 0 ∧ program.maxEntities ≤ maxHolodeckEntities)
    (.code "holodeck_program_invalid")
  let _ ← canonicalStruct primitives (writeProgram program)
  pure ()

/-- The identifier of a program. -/
def programId (program : HolodeckProgram) : Except HolodeckError String := do
  validateProgram primitives program
  let bytes ← canonicalStruct primitives (writeProgram program)
  pure (domainRef primitives "holodeck-program" holodeckProgramDomain bytes)

/-- A number of 64 bits, the highest byte first. -/
def toBeBytes (value : Int64) : ByteArray :=
  ⟨((List.range 8).map fun index =>
    UInt8.ofNat (value.toUInt64.toNat / 2 ^ (8 * (7 - index)))).toArray⟩

/-- What a source object is ranked by. -/
def rank (program : HolodeckProgram) (programId reference : String) : String ×ₗ String :=
  toLex (digestHex primitives (holodeckWorldDomain.toByteArray ++ programId.toByteArray ++
    toBeBytes program.seed ++ reference.toByteArray), reference)

/-- The world of a program. -/
def compileWorldPlan (program : HolodeckProgram) : Except HolodeckError HolodeckWorldPlan := do
  let programId ← programId primitives program
  let sourceOrder := sortBy (rank primitives program programId) program.source.objectRefs
  let entityCount := min program.maxEntities.toNat (max (sourceOrder.length * 2) 1)
  let begins := (digestHex primitives programId.toByteArray).toList.take 24
  pure
    { schema := holodeckWorldPlanSchemaV1
      programId := programId
      worldId := "holodeck-world:" ++ digestHex primitives (holodeckWorldDomain.toByteArray ++
        programId.toByteArray ++ (String.join sourceOrder).toByteArray)
      seed := program.seed
      sourceOrder := sourceOrder
      anchorRefs := sourceOrder.take maxHolodeckAnchors
      syntheticEntityIds := (List.range entityCount).map fun index =>
        "holo-entity:" ++ String.ofList begins ++ ":" ++ toString index
      authorityEffect := "none" }

/-! ## Checks -/

/-- An actor is a synthetic entity of the world. -/
def validateSyntheticActor (actor : Option String) (plan : HolodeckWorldPlan) :
    Except HolodeckError Unit :=
  ensure (actor.all fun name => plan.syntheticEntityIds.any fun value => value = name)
    (.code "holodeck_actor_not_synthetic_member")

/-- The source objects of an event are some of the program. -/
def validateEventSourceRefs (refs : List String) (source : NexusWorldSourceManifest) :
    Except HolodeckError Unit := do
  ensure (refs.length ≤ maxHolodeckAnchors) (.code "holodeck_event_source_refs_too_many")
  ensure (refs.Nodup ∧ refs.all fun reference =>
      source.objectRefs.any fun value => value = reference)
    (.code "holodeck_event_source_ref_invalid")

/-- A text is not empty and not too long. -/
def validateText (value : String) : Except HolodeckError Unit :=
  ensure (value.utf8ByteSize ≠ 0 ∧ value.utf8ByteSize ≤ maxHolodeckTextBytes)
    (.code "holodeck_text_invalid")

end Holodeck

namespace HolodeckSandbox

open Holodeck

variable (primitives : Primitives)

/-! ## The ledger -/

/-- The event that would be appended. -/
def nextEvent (sandbox : HolodeckSandbox) (kind : HolodeckEventKind)
    (syntheticActor : Option String) (text : String) (sourceRefs : List String) :
    Except HolodeckError HolodeckEvent := do
  ensure (sandbox.events.length < sandbox.program.maxEvents.toNat)
    (.code "holodeck_event_limit_reached")
  validateText text
  validateEventSourceRefs sourceRefs sandbox.program.source
  ensure (sandbox.events.length + 1 < 2 ^ 32) (.code "holodeck_sequence_overflow")
  let sequence := UInt32.ofNat (sandbox.events.length + 1)
  let bytes ← canonicalStruct primitives
    (writeProjection sandbox.plan sequence kind syntheticActor text sourceRefs)
  pure
    { schema := holodeckEventSchemaV1
      programId := sandbox.plan.programId
      worldId := sandbox.plan.worldId
      sequence := sequence
      eventId := domainRef primitives "holodeck-event" holodeckEventDomain bytes
      kind := kind
      syntheticActor := syntheticActor
      text := text
      sourceRefs := sourceRefs
      authorityEffect := "none"
      federationEffect := "none"
      evidenceEffect := "none" }

/-- Append an event. -/
def pushEvent (kind : HolodeckEventKind) (syntheticActor : Option String) (text : String)
    (sourceRefs : List String) : Effect HolodeckSandbox HolodeckError HolodeckEvent := do
  let event ← Effect.read fun sandbox =>
    sandbox.nextEvent primitives kind syntheticActor text sourceRefs
  Effect.modify fun sandbox => { sandbox with events := sandbox.events ++ [event] }
  pure event

/-- Begin a program. -/
def start (program : HolodeckProgram) : Except HolodeckError HolodeckSandbox := do
  let plan ← compileWorldPlan primitives program
  let empty : HolodeckSandbox :=
    { program := program, plan := plan, events := [], state := .running }
  match (pushEvent primitives .programStart none "sandboxed synthetic world initialized"
    plan.anchorRefs).run empty with
  | (.ok _, sandbox) => pure sandbox
  | (.error error, _) => .error error

/-! ## Operations -/

/-- The program runs. -/
def requireRunning (sandbox : HolodeckSandbox) : Except HolodeckError Unit :=
  ensure (sandbox.state = .running) (.code "holodeck_program_not_running")

/-- Record a synthetic event of a kind. -/
def recordSynthetic (kind : HolodeckEventKind) (actor : Option String) (text : String)
    (sourceRefs : List String) : Effect HolodeckSandbox HolodeckError HolodeckDecision := do
  Effect.read requireRunning
  Effect.read fun sandbox => validateSyntheticActor actor sandbox.plan
  Effect.check (validateText text)
  Effect.read fun sandbox => validateEventSourceRefs sourceRefs sandbox.program.source
  let event ← pushEvent primitives kind actor text sourceRefs
  pure (.recorded event)

/-- Record what is told. -/
def recordSyntheticNarrative (actor : Option String) (text : String) (sourceRefs : List String) :
    Effect HolodeckSandbox HolodeckError HolodeckDecision :=
  recordSynthetic primitives .syntheticNarrative actor text sourceRefs

/-- Record what changes. -/
def recordSyntheticTransition (actor : Option String) (label : String)
    (sourceRefs : List String) : Effect HolodeckSandbox HolodeckError HolodeckDecision :=
  recordSynthetic primitives .syntheticTransition actor label sourceRefs

/-- Attempt an effect outside of the sandbox: the program is frozen, and that is recorded. -/
def attemptBoundaryEffect (actor : Option String) (effect : HolodeckBoundaryEffect) :
    Effect HolodeckSandbox HolodeckError HolodeckDecision := do
  Effect.read fun sandbox => ensure (sandbox.state ≠ .ended) (.code "holodeck_program_ended")
  Effect.read fun sandbox => validateSyntheticActor actor sandbox.plan
  -- The state changes first, so that a full ledger does not leave the program running.
  Effect.modify fun sandbox => { sandbox with state := .frozen }
  let event ← pushEvent primitives .safetyTrip actor ("blocked_boundary_effect:" ++ effect.code) []
  pure (.blocked event)

/-- Freeze the program: that is recorded, and then the state changes. -/
def freeze : Effect HolodeckSandbox HolodeckError HolodeckEvent := do
  Effect.read fun sandbox => ensure (sandbox.state ≠ .ended) (.code "holodeck_program_ended")
  Effect.read fun sandbox => ensure (sandbox.state ≠ .frozen) (.code "holodeck_already_frozen")
  let event ← pushEvent primitives .operatorFreeze none "operator freeze" []
  Effect.modify fun sandbox => { sandbox with state := .frozen }
  pure event

/-- Resume a frozen program. -/
def resume : Effect HolodeckSandbox HolodeckError HolodeckEvent := do
  Effect.read fun sandbox =>
    ensure (sandbox.state = .frozen) (.code "holodeck_resume_requires_frozen")
  let event ← pushEvent primitives .operatorResume none "operator resume" []
  Effect.modify fun sandbox => { sandbox with state := .running }
  pure event

/-- The receipt of a sandbox. -/
def receipt (sandbox : HolodeckSandbox) : Except HolodeckError HolodeckReceipt := do
  ensure (sandbox.events.length < 2 ^ 32) (.code "holodeck_event_count_overflow")
  let chain := eventChainDomain.toByteArray ++
    (String.join (sandbox.events.map HolodeckEvent.eventId)).toByteArray
  pure
    { schema := holodeckReceiptSchemaV1
      programId := sandbox.plan.programId
      worldId := sandbox.plan.worldId
      finalState := sandbox.state
      eventCount := UInt32.ofNat sandbox.events.length
      eventChainHash := "sha256:" ++ digestHex primitives chain
      sourceBundleRef := sandbox.program.source.bundleRef
      authorityEffect := "none"
      federationEffect := "none"
      evidenceEffect := "none"
      networkUsed := false
      realToolsUsed := false
      credentialsExposed := false }

/-- Close a program that has not ended, with an event where the ledger has room. -/
def close (sandbox : HolodeckSandbox) (reason : String) :
    Effect HolodeckSandbox HolodeckError PUnit :=
  if sandbox.state ≠ .ended then do
    if sandbox.events.length < sandbox.program.maxEvents.toNat then
      let _ ← pushEvent primitives .programEnd none reason []
    Effect.modify fun sandbox => { sandbox with state := .ended }
  else pure ⟨⟩

/-- End the program. -/
def endProgram (reason : String) : Effect HolodeckSandbox HolodeckError HolodeckReceipt := do
  Effect.check (validateText reason)
  let sandbox ← Effect.read .ok
  close primitives sandbox reason
  Effect.read (receipt primitives)

end HolodeckSandbox

end QsolFed
