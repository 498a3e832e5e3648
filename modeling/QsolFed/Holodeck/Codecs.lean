import QsolFed.Envelope
import QsolFed.Holodeck
import QsolFed.Library.Json.Sound

/-!
# Reading Holodeck data

The JSON forms of programs, plans, events and receipts as they are read. What is written for a
program is what its codec writes.
-/
namespace QsolFed

open Json

namespace Codecs

open Holodeck

/-- An order by name. -/
def orderBasis : Codec NexusOrderBasis :=
  .enumeration orderBasisName [.continuityCommitOrder, .memoryInsertionOrder, .lexicalObjectRef]
    (by intro value; cases value <;> decide)

/-- A mode by name. -/
def programMode : Codec HolodeckProgramMode :=
  .enumeration programModeName
    [.reconstruction, .counterfactual, .exploration, .training, .adversarialSimulation]
    (by intro value; cases value <;> decide)

/-- The name of a state. -/
def holodeckStateName : HolodeckState → String
  | .running => "running"
  | .frozen => "frozen"
  | .ended => "ended"

/-- A state by name. -/
def holodeckState : Codec HolodeckState :=
  .enumeration holodeckStateName [.running, .frozen, .ended]
    (by intro value; cases value <;> decide)

/-- A kind by name. -/
def eventKind : Codec HolodeckEventKind :=
  .enumeration eventKindName
    [.programStart, .syntheticNarrative, .syntheticTransition, .safetyTrip, .operatorFreeze,
      .operatorResume, .programEnd] (by intro value; cases value <;> decide)

/-- The fields of a manifest. -/
def worldSourceFields :=
  Fields.required "schema" .string <|
  Fields.required "nexus_export_schema" .string <|
  Fields.required "nexus_world_policy" .string <|
  Fields.required "bundle_ref" .string <|
  Fields.cons "source_head_ref" nullableString (some none) <|
  Fields.required "order_basis" orderBasis <|
  Fields.required "object_refs" Codec.string.list <|
  Fields.required "authority_effect" .string .nil

/-- A manifest as an object. -/
def worldSource : Codec NexusWorldSourceManifest :=
  (Codec.record worldSourceFields (by decide)).iso
    (fun (schema, nexusExportSchema, nexusWorldPolicy, bundleRef, sourceHeadRef, orderBasis,
        objectRefs, authorityEffect, ()) =>
      { schema, nexusExportSchema, nexusWorldPolicy, bundleRef, sourceHeadRef, orderBasis,
        objectRefs, authorityEffect })
    (fun value =>
      (value.schema, value.nexusExportSchema, value.nexusWorldPolicy, value.bundleRef,
        value.sourceHeadRef, value.orderBasis, value.objectRefs, value.authorityEffect, ()))
    fun _ => rfl

/-- The fields of a program. -/
def holodeckProgramFields :=
  Fields.required "schema" .string <|
  Fields.required "source" worldSource <|
  Fields.required "seed" .int64 <|
  Fields.required "mode" programMode <|
  Fields.required "max_events" .uint32 <|
  Fields.required "max_entities" .uint16 <|
  Fields.required "safety_profile" .string <|
  Fields.required "authority_effect" .string .nil

/-- A program as an object. -/
def holodeckProgram : Codec HolodeckProgram :=
  (Codec.record holodeckProgramFields (by decide)).iso
    (fun (schema, source, seed, mode, maxEvents, maxEntities, safetyProfile, authorityEffect,
        ()) =>
      { schema, source, seed, mode, maxEvents, maxEntities, safetyProfile, authorityEffect })
    (fun value =>
      (value.schema, value.source, value.seed, value.mode, value.maxEvents, value.maxEntities,
        value.safetyProfile, value.authorityEffect, ()))
    fun _ => rfl

/-- The fields of a plan. -/
def worldPlanFields :=
  Fields.required "schema" .string <|
  Fields.required "program_id" .string <|
  Fields.required "world_id" .string <|
  Fields.required "seed" .int64 <|
  Fields.required "source_order" Codec.string.list <|
  Fields.required "anchor_refs" Codec.string.list <|
  Fields.required "synthetic_entity_ids" Codec.string.list <|
  Fields.required "authority_effect" .string .nil

/-- A plan as an object. -/
def worldPlan : Codec HolodeckWorldPlan :=
  (Codec.record worldPlanFields (by decide)).iso
    (fun (schema, programId, worldId, seed, sourceOrder, anchorRefs, syntheticEntityIds,
        authorityEffect, ()) =>
      { schema, programId, worldId, seed, sourceOrder, anchorRefs, syntheticEntityIds,
        authorityEffect })
    (fun value =>
      (value.schema, value.programId, value.worldId, value.seed, value.sourceOrder,
        value.anchorRefs, value.syntheticEntityIds, value.authorityEffect, ()))
    fun _ => rfl

/-- The fields of an event. -/
def holodeckEventFields :=
  Fields.required "schema" .string <|
  Fields.required "program_id" .string <|
  Fields.required "world_id" .string <|
  Fields.required "sequence" .uint32 <|
  Fields.required "event_id" .string <|
  Fields.required "kind" eventKind <|
  Fields.cons "synthetic_actor" nullableString (some none) <|
  Fields.required "text" .string <|
  Fields.required "source_refs" Codec.string.list <|
  Fields.required "authority_effect" .string <|
  Fields.required "federation_effect" .string <|
  Fields.required "evidence_effect" .string .nil

/-- An event as an object. -/
def holodeckEvent : Codec HolodeckEvent :=
  (Codec.record holodeckEventFields (by decide)).iso
    (fun (schema, programId, worldId, sequence, eventId, kind, syntheticActor, text, sourceRefs,
        authorityEffect, federationEffect, evidenceEffect, ()) =>
      { schema, programId, worldId, sequence, eventId, kind, syntheticActor, text, sourceRefs,
        authorityEffect, federationEffect, evidenceEffect })
    (fun value =>
      (value.schema, value.programId, value.worldId, value.sequence, value.eventId, value.kind,
        value.syntheticActor, value.text, value.sourceRefs, value.authorityEffect,
        value.federationEffect, value.evidenceEffect, ()))
    fun _ => rfl

/-- The fields of a receipt. -/
def holodeckReceiptFields :=
  Fields.required "schema" .string <|
  Fields.required "program_id" .string <|
  Fields.required "world_id" .string <|
  Fields.required "final_state" holodeckState <|
  Fields.required "event_count" .uint32 <|
  Fields.required "event_chain_hash" .string <|
  Fields.required "source_bundle_ref" .string <|
  Fields.required "authority_effect" .string <|
  Fields.required "federation_effect" .string <|
  Fields.required "evidence_effect" .string <|
  Fields.required "network_used" .bool <|
  Fields.required "real_tools_used" .bool <|
  Fields.required "credentials_exposed" .bool .nil

/-- A receipt as an object. -/
def holodeckReceipt : Codec HolodeckReceipt :=
  (Codec.record holodeckReceiptFields (by decide)).iso
    (fun (schema, programId, worldId, finalState, eventCount, eventChainHash, sourceBundleRef,
        authorityEffect, federationEffect, evidenceEffect, networkUsed, realToolsUsed,
        credentialsExposed, ()) =>
      { schema, programId, worldId, finalState, eventCount, eventChainHash, sourceBundleRef,
        authorityEffect, federationEffect, evidenceEffect, networkUsed, realToolsUsed,
        credentialsExposed })
    (fun value =>
      (value.schema, value.programId, value.worldId, value.finalState, value.eventCount,
        value.eventChainHash, value.sourceBundleRef, value.authorityEffect,
        value.federationEffect, value.evidenceEffect, value.networkUsed, value.realToolsUsed,
        value.credentialsExposed, ()))
    fun _ => rfl

/-- A program is written as its codec writes it. -/
theorem encode_holodeckProgram (program : HolodeckProgram) :
    holodeckProgram.encode program = writeProgram program := by
  obtain ⟨_, ⟨_, _, _, _, head, _, _, _⟩, _, _, _, _, _, _⟩ := program
  cases head <;> rfl

/-! ## Numbers -/

variable {accepts : Number → Bool}

/-- A manifest has no numbers. -/
theorem worldSource_reads : worldSource.Reads accepts :=
  Codec.iso_reads <| Codec.record_reads <|
    Fields.cons_reads Codec.string_reads <|
    Fields.cons_reads Codec.string_reads <|
    Fields.cons_reads Codec.string_reads <|
    Fields.cons_reads Codec.string_reads <|
    Fields.cons_reads (Codec.nullable_reads Codec.string_reads) <|
    Fields.cons_reads Codec.enumeration_reads <|
    Fields.cons_reads (Codec.list_reads Codec.string_reads) <|
    Fields.cons_reads Codec.string_reads Fields.nil_reads

/-- The numbers of a program are whole. -/
theorem holodeckProgram_reads (whole : Whole accepts) : holodeckProgram.Reads accepts :=
  Codec.iso_reads <| Codec.record_reads <|
    Fields.cons_reads Codec.string_reads <|
    Fields.cons_reads worldSource_reads <|
    Fields.cons_reads (Codec.int64_reads whole) <|
    Fields.cons_reads Codec.enumeration_reads <|
    Fields.cons_reads (Codec.uint32_reads whole) <|
    Fields.cons_reads (Codec.uint16_reads whole) <|
    Fields.cons_reads Codec.string_reads <|
    Fields.cons_reads Codec.string_reads Fields.nil_reads

/-- The numbers of a plan are whole. -/
theorem worldPlan_reads (whole : Whole accepts) : worldPlan.Reads accepts :=
  Codec.iso_reads <| Codec.record_reads <|
    Fields.cons_reads Codec.string_reads <|
    Fields.cons_reads Codec.string_reads <|
    Fields.cons_reads Codec.string_reads <|
    Fields.cons_reads (Codec.int64_reads whole) <|
    Fields.cons_reads (Codec.list_reads Codec.string_reads) <|
    Fields.cons_reads (Codec.list_reads Codec.string_reads) <|
    Fields.cons_reads (Codec.list_reads Codec.string_reads) <|
    Fields.cons_reads Codec.string_reads Fields.nil_reads

/-- The numbers of an event are whole. -/
theorem holodeckEvent_reads (whole : Whole accepts) : holodeckEvent.Reads accepts :=
  Codec.iso_reads <| Codec.record_reads <|
    Fields.cons_reads Codec.string_reads <|
    Fields.cons_reads Codec.string_reads <|
    Fields.cons_reads Codec.string_reads <|
    Fields.cons_reads (Codec.uint32_reads whole) <|
    Fields.cons_reads Codec.string_reads <|
    Fields.cons_reads Codec.enumeration_reads <|
    Fields.cons_reads (Codec.nullable_reads Codec.string_reads) <|
    Fields.cons_reads Codec.string_reads <|
    Fields.cons_reads (Codec.list_reads Codec.string_reads) <|
    Fields.cons_reads Codec.string_reads <|
    Fields.cons_reads Codec.string_reads <|
    Fields.cons_reads Codec.string_reads Fields.nil_reads

/-- The numbers of a receipt are whole. -/
theorem holodeckReceipt_reads (whole : Whole accepts) : holodeckReceipt.Reads accepts :=
  Codec.iso_reads <| Codec.record_reads <|
    Fields.cons_reads Codec.string_reads <|
    Fields.cons_reads Codec.string_reads <|
    Fields.cons_reads Codec.string_reads <|
    Fields.cons_reads Codec.enumeration_reads <|
    Fields.cons_reads (Codec.uint32_reads whole) <|
    Fields.cons_reads Codec.string_reads <|
    Fields.cons_reads Codec.string_reads <|
    Fields.cons_reads Codec.string_reads <|
    Fields.cons_reads Codec.string_reads <|
    Fields.cons_reads Codec.string_reads <|
    Fields.cons_reads Codec.bool_reads <|
    Fields.cons_reads Codec.bool_reads <|
    Fields.cons_reads Codec.bool_reads Fields.nil_reads

end Codecs

end QsolFed
