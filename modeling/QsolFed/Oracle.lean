import QsolFed.Adapters
import QsolFed.Envelope
import QsolFed.Library.Json.Codec

/-!
# Requests to the oracle

A request for evidence is validated, sent in canonical form, and answered by a response that names
it. A response is checked against the name that was sent: its counters agree with each other and
with its references, its observation stays an observation, and it has the digest of its own
canonical form. The name of a request is bounded before it is normalised, and compared after.
-/
namespace QsolFed

open Checked Json Canonical

/-- What the evidence says. -/
inductive OracleEvidenceState where
  /-- It is known. -/
  | known
  /-- Observations contradict each other. -/
  | conflict
  /-- It is not known. -/
  | unknown
  deriving DecidableEq

/-- A reference to something that was observed. -/
structure OracleEvidenceReference where
  /-- The reference. -/
  reference : String
  /-- Whether it counts as evidence. -/
  isEvidence : Bool

/-- A search that may find more. -/
structure OracleSearchSuggestion where
  /-- What to search for. -/
  query : String
  /-- What the search is for. -/
  purpose : String
  /-- Whether it counts as evidence. -/
  isEvidence : Bool
  /-- Whether it may be admitted as evidence. -/
  admissibleAsEvidenceWithoutObservation : Bool

/-- What was observed. -/
structure OracleEvidenceObservation where
  /-- The schema of the observation. -/
  schema : String
  /-- What the evidence says. -/
  state : OracleEvidenceState
  /-- What was observed. -/
  evidenceRefs : List OracleEvidenceReference
  /-- Searches that may find more. -/
  suggestedSearches : List OracleSearchSuggestion
  /-- Whether something synthetic was put in. -/
  syntheticInput : Bool
  /-- Whether truth is claimed. -/
  truthClaim : Bool
  /-- Whether evidence is promoted. -/
  evidencePromotion : Bool
  /-- What the observation authorises. -/
  authorityEffect : String

/-- What is asked for. -/
structure OracleTransportQuery where
  /-- A subject. -/
  subject : Option String
  /-- The hash of an event. -/
  eventHash : Option String
  /-- A type of events. -/
  eventType : Option String
  /-- A kind of provenance. -/
  provenanceKind : Option String
  /-- A state of the evidence. -/
  evidenceState : Option String
  /-- How many events at most. -/
  limit : Option UInt16

/-- What a requirement of research is about. -/
inductive OracleResearchRequirementKind where
  /-- A primary source. -/
  | primarySource
  /-- The current state. -/
  | currentState
  /-- An identity. -/
  | identity
  /-- Provenance. -/
  | provenance
  /-- Resolving a conflict. -/
  | conflictResolution
  /-- Execution. -/
  | execution
  /-- Scope. -/
  | scope
  deriving DecidableEq

/-- A requirement of research. -/
structure OracleResearchRequirement where
  /-- The name of the requirement. -/
  id : String
  /-- What it is about. -/
  kind : OracleResearchRequirementKind
  /-- Whether it is met. -/
  satisfied : Bool
  /-- Details. -/
  detail : String

/-- A question with requirements. -/
structure OracleResearchRequest where
  /-- The subject. -/
  subject : String
  /-- The question. -/
  question : String
  /-- The requirements. -/
  requirements : List OracleResearchRequirement

/-- A request for evidence. -/
structure OracleTransportRequest where
  /-- The protocol. -/
  protocol : String
  /-- The kind of the request. -/
  kind : String
  /-- The name of the request. -/
  requestId : String
  /-- What is asked for. -/
  query : OracleTransportQuery
  /-- The question behind it, if there is one. -/
  research : Option OracleResearchRequest
  /-- Whether something synthetic is put in. -/
  syntheticInput : Bool
  /-- Whether evidence is to be promoted. -/
  evidencePromotionRequested : Bool
  /-- Whether authority is asked for. -/
  authorityRequested : Bool
  /-- Whether something is to be executed. -/
  remoteExecutionRequested : Bool

/-- A response with evidence. -/
structure OracleTransportResponse where
  /-- The protocol. -/
  protocol : String
  /-- The kind of the response. -/
  kind : String
  /-- The name of the request. -/
  requestId : String
  /-- What was observed. -/
  observation : OracleEvidenceObservation
  /-- How many events match. -/
  totalMatches : UInt64
  /-- How many of them are returned. -/
  returned : UInt16
  /-- Whether some are left out. -/
  truncated : Bool
  /-- The digest of the events that were searched. -/
  sourceEventsSha256 : String
  /-- Whether the ledger was changed. -/
  ledgerMutated : Bool
  /-- What the transport authorises. -/
  transportAuthority : String
  /-- The digest of the response without this field. -/
  responseSha256 : String

/-- A refusal of the transport. -/
inductive OracleLiveError where
  /-- A code of the transport. -/
  | code (text : String)
  /-- A refusal of an adapter, passed on. -/
  | adapter (error : AdapterError)
  deriving DecidableEq

/-! ## Encoding -/

namespace Codecs

/-- The name of a state. -/
def oracleStateName : OracleEvidenceState → String
  | .known => "known"
  | .conflict => "conflict"
  | .unknown => "unknown"

/-- A state by name. -/
def oracleState : Codec OracleEvidenceState :=
  .enumeration oracleStateName [.known, .conflict, .unknown]
    (by intro value; cases value <;> decide)

/-- The fields of a reference. -/
def oracleReferenceFields :=
  Fields.required "reference" .string <|
  Fields.required "is_evidence" .bool .nil

/-- A reference as an object. -/
def oracleReference : Codec OracleEvidenceReference :=
  (Codec.record oracleReferenceFields (by decide)).iso
    (fun (reference, isEvidence, ()) => { reference, isEvidence })
    (fun value => (value.reference, value.isEvidence, ())) fun _ => rfl

/-- The fields of a search. -/
def oracleSearchFields :=
  Fields.required "query" .string <|
  Fields.required "purpose" .string <|
  Fields.required "is_evidence" .bool <|
  Fields.required "admissible_as_evidence_without_observation" .bool .nil

/-- A search as an object. -/
def oracleSearch : Codec OracleSearchSuggestion :=
  (Codec.record oracleSearchFields (by decide)).iso
    (fun (query, purpose, isEvidence, admissibleAsEvidenceWithoutObservation, ()) =>
      { query, purpose, isEvidence, admissibleAsEvidenceWithoutObservation })
    (fun value =>
      (value.query, value.purpose, value.isEvidence,
        value.admissibleAsEvidenceWithoutObservation, ()))
    fun _ => rfl

/-- The fields of an observation. -/
def oracleObservationFields :=
  Fields.required "schema" .string <|
  Fields.required "state" oracleState <|
  Fields.required "evidence_refs" oracleReference.list <|
  Fields.required "suggested_searches" oracleSearch.list <|
  Fields.required "synthetic_input" .bool <|
  Fields.required "truth_claim" .bool <|
  Fields.required "evidence_promotion" .bool <|
  Fields.required "authority_effect" .string .nil

/-- An observation as an object. -/
def oracleObservation : Codec OracleEvidenceObservation :=
  (Codec.record oracleObservationFields (by decide)).iso
    (fun (schema, state, evidenceRefs, suggestedSearches, syntheticInput, truthClaim,
        evidencePromotion, authorityEffect, ()) =>
      { schema, state, evidenceRefs, suggestedSearches, syntheticInput, truthClaim,
        evidencePromotion, authorityEffect })
    (fun value =>
      (value.schema, value.state, value.evidenceRefs, value.suggestedSearches,
        value.syntheticInput, value.truthClaim, value.evidencePromotion, value.authorityEffect,
        ()))
    fun _ => rfl

/-- The fields of a response. -/
def oracleResponseFields :=
  Fields.required "protocol" .string <|
  Fields.required "kind" .string <|
  Fields.required "request_id" .string <|
  Fields.required "observation" oracleObservation <|
  Fields.required "total_matches" .uint64 <|
  Fields.required "returned" .uint16 <|
  Fields.required "truncated" .bool <|
  Fields.required "source_events_sha256" .string <|
  Fields.required "ledger_mutated" .bool <|
  Fields.required "transport_authority" .string <|
  Fields.required "response_sha256" .string .nil

/-- A response as an object. -/
def oracleResponse : Codec OracleTransportResponse :=
  (Codec.record oracleResponseFields (by decide)).iso
    (fun (protocol, kind, requestId, observation, totalMatches, returned, truncated,
        sourceEventsSha256, ledgerMutated, transportAuthority, responseSha256, ()) =>
      { protocol, kind, requestId, observation, totalMatches, returned, truncated,
        sourceEventsSha256, ledgerMutated, transportAuthority, responseSha256 })
    (fun value =>
      (value.protocol, value.kind, value.requestId, value.observation, value.totalMatches,
        value.returned, value.truncated, value.sourceEventsSha256, value.ledgerMutated,
        value.transportAuthority, value.responseSha256, ()))
    fun _ => rfl

end Codecs

namespace Oracle

/-- The schema of observations. -/
def oracleObservationSchemaV1 : String := "qsol-fed-oracle-observation/1"

/-- The protocol. -/
def oracleTransportProtocol : String := "QSOL-ORACLE-FED/1"

/-- The kind of requests. -/
def oracleRequestKind : String := "evidence.export"

/-- The kind of responses. -/
def oracleResponseKind : String := "evidence.export.result"

/-- The greatest size of a line. -/
def oracleTransportMaxLineBytes : Nat := 65536

/-- The name of the kind of a requirement. -/
def requirementKindName : OracleResearchRequirementKind → String
  | .primarySource => "primary_source"
  | .currentState => "current_state"
  | .identity => "identity"
  | .provenance => "provenance"
  | .conflictResolution => "conflict_resolution"
  | .execution => "execution"
  | .scope => "scope"

/-- A member that is written when there is a value. -/
def optionalMember (name : String) : Option (Value String) → List (String × Value String)
  | some value => [(name, value)]
  | none => []

/-- What is asked for, as an object of what is present. -/
def writeQuery (query : OracleTransportQuery) : Value String := .object (
  optionalMember "subject" (query.subject.map .string) ++
  optionalMember "event_hash" (query.eventHash.map .string) ++
  optionalMember "event_type" (query.eventType.map .string) ++
  optionalMember "provenance_kind" (query.provenanceKind.map .string) ++
  optionalMember "evidence_state" (query.evidenceState.map .string) ++
  optionalMember "limit" (query.limit.map Codec.uint16.encode))

/-- A requirement as an object. -/
def writeRequirement (requirement : OracleResearchRequirement) : Value String := .object [
  ("id", .string requirement.id),
  ("kind", .string (requirementKindName requirement.kind)),
  ("satisfied", .bool requirement.satisfied),
  ("detail", .string requirement.detail)]

/-- A question as an object. -/
def writeResearch (research : OracleResearchRequest) : Value String := .object [
  ("subject", .string research.subject),
  ("question", .string research.question),
  ("requirements", .array (research.requirements.map writeRequirement))]

/-- A request as an object. -/
def writeRequest (request : OracleTransportRequest) : Value String := .object [
  ("protocol", .string request.protocol),
  ("kind", .string request.kind),
  ("request_id", .string request.requestId),
  ("query", writeQuery request.query),
  ("research", request.research.elim .null writeResearch),
  ("synthetic_input", .bool request.syntheticInput),
  ("evidence_promotion_requested", .bool request.evidencePromotionRequested),
  ("authority_requested", .bool request.authorityRequested),
  ("remote_execution_requested", .bool request.remoteExecutionRequested)]

/-- A digest in lowercase hexadecimal. -/
def isLowerSha256 (value : String) : Bool :=
  (Text.bytes value).length = 64 && (Text.bytes value).all Wire.isLowerHex

variable (primitives : Primitives)

/-- A digest in lowercase hexadecimal. -/
def sha256Hex (bytes : ByteArray) : String :=
  Digest.lowercaseHex (primitives.sha256 bytes).data.toList

/-- The canonical bytes of data. -/
def canonicalStruct (value : Value String) : Except OracleLiveError ByteArray :=
  (canonicalize primitives.unicode (writtenBytes value)).mapError fun _ =>
    .code "oracle_transport_canonicalization_failed"

/-! ## Observations -/

/-- The check of a reference, after the normal forms before it and their number that count as
evidence. -/
def validateReference (seen : List String × Nat) (item : OracleEvidenceReference) :
    Except AdapterError (List String × Nat) := do
  let normalized := primitives.unicode.nfc item.reference
  ensure (Adapters.boundedChars normalized Adapters.maxOracleTextChars ∧ normalized ∉ seen.1)
    (.code "oracle_evidence_reference_invalid_or_duplicate")
  pure (normalized :: seen.1, if item.isEvidence then seen.2 + 1 else seen.2)

/-- The check of an observation. -/
def validateObservation (observation : OracleEvidenceObservation) : Except AdapterError Unit := do
  ensure (observation.schema = oracleObservationSchemaV1 ∧ observation.syntheticInput = false ∧
    observation.truthClaim = false ∧ observation.evidencePromotion = false ∧
    observation.authorityEffect = "none" ∧ observation.evidenceRefs.length ≤ 256 ∧
    observation.suggestedSearches.length ≤ 64) (.code "oracle_observation_boundary_invalid")
  let (_, observed) ← observation.evidenceRefs.foldlM (validateReference primitives) ([], 0)
  match observation.state with
  | .known => ensure (observed ≠ 0) (.code "oracle_known_requires_evidence")
  | .conflict => ensure (2 ≤ observed) (.code "oracle_conflict_requires_distinct_observations")
  | .unknown => pure ()
  ensure (observation.suggestedSearches.all fun item =>
    Adapters.boundedChars item.query Adapters.maxOracleTextChars &&
      item.purpose = "discovery-only" && !item.isEvidence &&
      !item.admissibleAsEvidenceWithoutObservation)
    (.code "oracle_suggested_search_became_evidence")
  let _ ← (canonicalize primitives.unicode (writtenBytes
    (Codecs.oracleObservation.encode observation))).mapError AdapterError.canonical
  pure ()

/-! ## Requests -/

/-- A query for anything. -/
def defaultQuery : OracleTransportQuery := ⟨none, none, none, none, none, none⟩

/-- A new request without a question behind it. -/
def newRequest (requestId : String) (query : OracleTransportQuery) : OracleTransportRequest where
  protocol := oracleTransportProtocol
  kind := oracleRequestKind
  requestId := requestId
  query := query
  research := none
  syntheticInput := false
  evidencePromotionRequested := false
  authorityRequested := false
  remoteExecutionRequested := false

/-- The check of a requirement, after the names before it. -/
def validateRequirement (ids : List String) (requirement : OracleResearchRequirement) :
    Except OracleLiveError (List String) := do
  let id := primitives.unicode.nfc requirement.id
  ensure (Adapters.boundedChars id 256 ∧ Adapters.boundedChars requirement.detail 4096 ∧ id ∉ ids)
    (.code "oracle_transport_research_requirement_invalid")
  pure (id :: ids)

/-- The check of a question. -/
def validateResearch (research : OracleResearchRequest) : Except OracleLiveError Unit := do
  ensure (Adapters.boundedChars research.subject 4096 ∧
    Adapters.boundedChars research.question 4096 ∧ research.requirements ≠ [] ∧
    research.requirements.length ≤ 64 ∧
    research.requirements.any fun requirement => !requirement.satisfied)
    (.code "oracle_transport_research_invalid")
  let _ ← research.requirements.foldlM (validateRequirement primitives) []
  pure ()

/-- The check of a request. -/
def validateRequest (request : OracleTransportRequest) :
    Except OracleLiveError Unit := do
  ensure (request.protocol = oracleTransportProtocol ∧ request.kind = oracleRequestKind ∧
    Adapters.boundedChars request.requestId 256 ∧ request.syntheticInput = false ∧
    request.evidencePromotionRequested = false ∧ request.authorityRequested = false ∧
    request.remoteExecutionRequested = false)
    (.code "oracle_transport_request_boundary_invalid")
  ensure ([request.query.subject, request.query.eventType, request.query.provenanceKind,
    request.query.evidenceState].all (Option.all (Adapters.boundedChars · 512)))
    (.code "oracle_transport_query_text_invalid")
  ensure (request.query.eventHash.all isLowerSha256) (.code "oracle_transport_event_hash_invalid")
  ensure (request.query.limit.all fun limit => 1 ≤ limit.toNat && limit.toNat ≤ 256)
    (.code "oracle_transport_query_limit_invalid")
  match request.research with
  | some research => validateResearch primitives research
  | none => pure ()
  let _ ← canonicalStruct primitives (writeRequest request)
  pure ()

/-- What is sent for a request, and the name that its response is compared with. -/
def sendRequest (request : OracleTransportRequest) :
    Except OracleLiveError (ByteArray × String) := do
  validateRequest primitives request
  let requestBytes ← canonicalStruct primitives (writeRequest request)
  ensure (requestBytes.size ≤ oracleTransportMaxLineBytes)
    (.code "oracle_transport_request_too_large")
  let canonicalRequestId := primitives.unicode.nfc request.requestId
  pure (requestBytes, canonicalRequestId)

/-! ## Responses -/

/-- What the digest of a response covers. -/
def responsePayload (response : OracleTransportResponse) : Except OracleLiveError (Value String) :=
  match Codecs.oracleResponse.encode response with
  | .object members => .ok (.object (members.filter fun member => member.1 ≠ "response_sha256"))
  | _ => .error (.code "oracle_transport_response_not_object")

/-- A reference to an event of the oracle. -/
def isEventReference (reference : String) : Bool :=
  (Text.bytes "oracle-event:").isPrefixOf (Text.bytes reference) &&
    let hash := (Text.bytes reference).drop 13
    hash.length = 64 && hash.all Wire.isLowerHex

/-- The check of a response to the request of a name. -/
def validateForRequest (response : OracleTransportResponse)
    (requestId : String) : Except OracleLiveError Unit := do
  ensure (response.protocol = oracleTransportProtocol ∧ response.kind = oracleResponseKind ∧
    response.requestId = requestId ∧ Adapters.boundedChars response.requestId 256 ∧
    response.returned.toNat ≤ 256 ∧ response.returned.toNat ≤ response.totalMatches.toNat ∧
    response.truncated = decide (response.returned.toNat < response.totalMatches.toNat) ∧
    isLowerSha256 response.sourceEventsSha256 ∧ response.ledgerMutated = false ∧
    response.transportAuthority = "none" ∧ isLowerSha256 response.responseSha256)
    (.code "oracle_transport_response_boundary_invalid")
  (validateObservation primitives response.observation).mapError .adapter
  ensure (response.observation.evidenceRefs.length = response.returned.toNat)
    (.code "oracle_transport_reference_count_mismatch")
  ensure (response.observation.evidenceRefs.all fun reference =>
    isEventReference reference.reference) (.code "oracle_transport_evidence_ref_invalid")
  let payload ← responsePayload response
  let canonical ← canonicalStruct primitives payload
  ensure (sha256Hex primitives canonical = response.responseSha256)
    (.code "oracle_transport_response_digest_mismatch")
  let _ ← canonicalStruct primitives (Codecs.oracleResponse.encode response)
  pure ()

end Oracle

end QsolFed
