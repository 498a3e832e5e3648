import QsolFed.Api.Hello
import QsolFed.Replay.Admission

/-!
# Interleaved requests

Requests for envelopes that are served at the same time. A request finds its sender, reads the
clock and verifies its envelope, and takes the lock of the replay store at some later moment, with
the time that it read before. Other requests and restarts may come in between. The store forgets a
message once a call comes with a time that outlives it, so that a request that waited may find a
message forgotten that is still valid at its own time. As long as no request with such a time
overtakes another one for the same message, every message passes the store at most once.
-/
namespace QsolFed.Api

open Checked Json Canonical Crypto Identity Replay

variable (primitives : Primitives)

/-- An envelope that was verified at the time that the clock showed. -/
structure VerifiedRequest where
  /-- The envelope with its signature. -/
  signed : SignedEnvelope
  /-- The time that the clock showed. -/
  now : Int
  /-- The text of that time. -/
  seenAt : String
  /-- The envelope passed all checks before the replay store. -/
  checked : ∃ localNodeId identity,
    authenticate primitives localNodeId signed identity now = .ok seenAt

/-- A request between two of its steps. -/
inductive Waiting where
  /-- The identity of the sender was read. -/
  | found (signed : SignedEnvelope) (identity : IdentityState)
  /-- The envelope was verified. -/
  | verified (request : VerifiedRequest primitives)

/-- A service with its clock and the requests that it is serving. -/
structure Service where
  /-- The state behind the interface. -/
  state : ApiState
  /-- What the clock shows. -/
  clock : Int
  /-- The requests between their steps. -/
  waiting : List (Waiting primitives)

/-- What happens to a service. -/
inductive ServiceEvent where
  /-- The clock moved. -/
  | ticked
  /-- A hello was served. -/
  | introduced
  /-- A request found its sender. -/
  | found
  /-- A request was verified. -/
  | verified
  /-- A request was dropped. -/
  | dropped
  /-- A request passed the replay store, with an answer. -/
  | gated (request : VerifiedRequest primitives) (decision : Except String ReplayDecision)
  /-- The process was restarted and read its log again. -/
  | restarted

/-- One step of a service. -/
inductive ServiceStep : Service primitives → ServiceEvent primitives → Service primitives → Prop
    where
  /-- The clock does not go back. -/
  | ticked {service : Service primitives} {clock : Int} (forward : service.clock ≤ clock) :
      ServiceStep service .ticked { service with clock }
  /-- A hello changes the stored identities. -/
  | introduced {service : Service primitives} (body : ByteArray) (audit : Bool) :
      ServiceStep service .introduced
        { service with state := (postPeerHello primitives service.state body audit).2 }
  /-- A request reads the identity of its sender. -/
  | found {service : Service primitives} {body : ByteArray} {signed : SignedEnvelope}
      {identity : IdentityState}
      (lookup : lookupSender primitives service.state body = .ok (signed, identity)) :
      ServiceStep service .found { service with waiting := .found signed identity :: service.waiting }
  /-- A request reads the clock and is verified. -/
  | verified {service : Service primitives} {before after : List (Waiting primitives)}
      {signed : SignedEnvelope} {identity : IdentityState} {seenAt : String}
      (waits : service.waiting = before ++ .found signed identity :: after)
      (passed : authenticate primitives service.state.localIdentity.nodeId signed identity
        service.clock = .ok seenAt) :
      ServiceStep service .verified
        { service with
          waiting := before ++ .verified ⟨signed, service.clock, seenAt, _, _, passed⟩ :: after }
  /-- A request is refused or abandoned. -/
  | dropped {service : Service primitives} {before after : List (Waiting primitives)}
      {request : Waiting primitives} (waits : service.waiting = before ++ request :: after) :
      ServiceStep service .dropped { service with waiting := before ++ after }
  /-- A verified request takes the lock of the replay store. -/
  | gated {service : Service primitives} {before after : List (Waiting primitives)}
      {request : VerifiedRequest primitives} {decision : Except String ReplayDecision}
      {replay : DurableReplayStore} (waits : service.waiting = before ++ .verified request :: after)
      (called : service.state.replay.checkAndRecord request.signed.envelope.messageId
        request.seenAt = (decision, replay)) :
      ServiceStep service (.gated request decision)
        { service with state := { service.state with replay }, waiting := before ++ after }
  /-- A restart reads the log and forgets everything else. -/
  | restarted {service : Service primitives} {replay : DurableReplayStore}
      (reopened : openLog service.state.replay.log = .ok replay) :
      ServiceStep service .restarted
        { service with state := { service.state with peers := .empty, replay }, waiting := [] }

variable {primitives}

/-- What an event does to the replay store. -/
def ServiceEvent.replayEvents : ServiceEvent primitives → List ReplayEvent
  | .gated request decision =>
    [.recorded request.signed.envelope.messageId request.seenAt decision]
  | .restarted => [.closed, .opened]
  | _ => []

/-- The message that an event carries to the replay store. -/
def ServiceEvent.messageId : ServiceEvent primitives → Option String
  | .gated request _ => some request.signed.envelope.messageId
  | _ => none

/-- The message that an event lets pass. -/
def ServiceEvent.passed : ServiceEvent primitives → Option String
  | .gated request (.ok .freshRecorded) => some request.signed.envelope.messageId
  | _ => none

/-- The messages that passed the replay store, in order. -/
def passed (events : List (ServiceEvent primitives)) : List String :=
  events.filterMap ServiceEvent.passed

/-- The bytes that the identifier of a request digests. -/
def VerifiedRequest.Digests (request : VerifiedRequest primitives) (input : ByteArray) : Prop :=
  ∃ canonical, canonicalEnvelopeBytes primitives request.signed.envelope = .ok canonical ∧
    Digest.messageIdInput primitives canonical = .ok input

/-- The digests of the requests of a run do not collide. -/
def CollisionFree (events : List (ServiceEvent primitives)) : Prop :=
  ∀ first decision second other, .gated first decision ∈ events → .gated second other ∈ events →
    ∀ input another, first.Digests input → second.Digests another →
      primitives.sha256 input = primitives.sha256 another → input = another

/-- Between a request that recorded its message and a further one for the same message, no request
passes the replay store whose time outlives the first one. -/
def Prompt (events : List (ServiceEvent primitives)) : Prop :=
  ∀ before first middle second decision after,
    events = before ++ .gated first (.ok .freshRecorded) ::
      (middle ++ .gated second decision :: after) →
    second.signed.envelope.messageId = first.signed.envelope.messageId →
    ∀ request other, .gated request other ∈ middle →
      request.now ≤ first.now + replayRetentionSeconds

/-! ## The store under a service -/

/-- The replay events of a run. -/
def replayTrace (events : List (ServiceEvent primitives)) : List ReplayEvent :=
  .opened :: events.flatMap ServiceEvent.replayEvents

/-- The replay store of a service runs as a replay store does. -/
theorem replay_run {log : ByteArray} {start final : Service primitives}
    {events : List (ServiceEvent primitives)} (opened : openLog log = .ok start.state.replay)
    (run : Run (ServiceStep primitives) start events final) :
    Run Step ⟨log, none⟩ (replayTrace events)
      ⟨final.state.replay.log, some final.state.replay.seen⟩ := by
  refine run.invariant (fun events service => Run Step ⟨log, none⟩ (replayTrace events)
    ⟨service.state.replay.log, some service.state.replay.seen⟩) (.single (.opened opened)) ?_
  intro events middle event final _ before step
  have extended : replayTrace (events ++ [event]) = replayTrace events ++ event.replayEvents := by
    simp only [replayTrace, List.flatMap_append, List.flatMap_singleton, List.cons_append]
  rw [extended]
  cases step with
  | ticked | found | verified | dropped => simpa [ServiceEvent.replayEvents] using before
  | introduced body audit =>
    have kept : (postPeerHello primitives middle.state body audit).2.replay = middle.state.replay := by
      rcases postPeerHello_cases primitives middle.state body audit with same | ⟨_, _, -, next⟩
      · rw [same]
      · rw [next]
    simpa [ServiceEvent.replayEvents, kept] using before
  | gated waits called => exact before.snoc (.recorded called)
  | restarted reopened =>
    have both := (before.snoc .closed).snoc (.opened reopened)
    rwa [List.append_assoc] at both

/-- The text of the time of a verified request names that time when it is a timestamp. -/
theorem VerifiedRequest.time_eq (request : VerifiedRequest primitives) {unix : Int}
    (parsed : parseReplayTimestamp request.seenAt = .ok unix) : unix = request.now := by
  obtain ⟨_, _, passed⟩ := request.checked
  obtain ⟨-, -, formatted⟩ := (authenticate_ok_iff ..).mp passed
  obtain ⟨shape, second⟩ := (DurableReplayStore.parseReplayTimestamp_ok_iff ..).mp parsed
  exact Option.some.inj (second.symm.trans (Wire.parseFromRfc3339_formatTimestamp formatted shape))

/-- The clock policy admits a verified request at its time. -/
theorem VerifiedRequest.timely (request : VerifiedRequest primitives) :
    defaultClockPolicy.validateEnvelope request.signed.envelope request.now = .ok () := by
  obtain ⟨_, _, passed⟩ := request.checked
  obtain ⟨valid, -, -⟩ := (authenticate_ok_iff ..).mp passed
  exact ((Identity.verifySignedEnvelope_valid_iff ..).mp valid).timely

/-- The envelope of a verified request has canonical bytes. -/
theorem VerifiedRequest.encoded (request : VerifiedRequest primitives) :
    ∃ canonical, canonicalEnvelopeBytes primitives request.signed.envelope = .ok canonical := by
  obtain ⟨_, _, passed⟩ := request.checked
  obtain ⟨valid, -, -⟩ := (authenticate_ok_iff ..).mp passed
  obtain ⟨-, -, canonical, -, -, -, -, -, encoded, -⟩ :=
    ((Identity.verifySignedEnvelope_valid_iff ..).mp valid).signed
  exact ⟨canonical, encoded⟩

/-- Requests of a run without collisions that carry one identifier carry one envelope. -/
theorem envelope_unique {events : List (ServiceEvent primitives)} (distinct : CollisionFree events)
    {first second : VerifiedRequest primitives} {decision other : Except String ReplayDecision}
    (one : .gated first decision ∈ events) (two : .gated second other ∈ events)
    (same : second.signed.envelope.messageId = first.signed.envelope.messageId) :
    second.signed.envelope = first.signed.envelope := by
  obtain ⟨canonical, encoded⟩ := first.encoded
  obtain ⟨canonical', encoded'⟩ := second.encoded
  obtain ⟨members, input, computed, identified⟩ := FederationEnvelope.identified encoded
  obtain ⟨members', input', computed', identified'⟩ := FederationEnvelope.identified encoded'
  have digests : primitives.sha256 input = primitives.sha256 input' :=
    (Digest.sha256Ref_inj primitives).mp
      (identified.digest.trans (same.symm.trans identified'.digest.symm))
  obtain rfl := distinct first decision second other one two input input'
    ⟨canonical, encoded, computed⟩ ⟨canonical', encoded', computed'⟩ digests
  exact identified'.unique identified

/-- An admission is made at the time of its request. -/
theorem fresh_parsed {start final : Service primitives} {events : List (ServiceEvent primitives)}
    (run : Run (ServiceStep primitives) start events final) {request : VerifiedRequest primitives}
    (member : .gated request (.ok .freshRecorded) ∈ events) :
    parseReplayTimestamp request.seenAt = .ok request.now := by
  revert member
  refine run.invariant (fun events _ => .gated request (.ok .freshRecorded) ∈ events →
    parseReplayTimestamp request.seenAt = .ok request.now) (fun member => by cases member) ?_
  intro events middle event final _ before step member
  rcases List.mem_append.mp member with earlier | last
  · exact before earlier
  · obtain rfl := List.mem_singleton.mp last
    cases step with
    | gated waits called =>
      cases DurableReplayStore.outcome_of_eq called with
      | fresh admits => exact request.time_eq admits.parsed ▸ admits.parsed

/-! ## At most once -/

/-- A part of a run without collisions has none. -/
theorem CollisionFree.of_append {events more : List (ServiceEvent primitives)}
    (distinct : CollisionFree (events ++ more)) : CollisionFree events :=
  fun first decision second other one two =>
    distinct first decision second other (List.mem_append_left _ one) (List.mem_append_left _ two)

/-- The beginning of a prompt run is prompt. -/
theorem Prompt.of_append {events more : List (ServiceEvent primitives)}
    (prompt : Prompt (events ++ more)) : Prompt events := by
  rintro before first middle second decision after rfl
  exact prompt before first middle second decision (after ++ more) (by simp)

/-- A time at which the replay store was called is the time of a request. -/
theorem time_of_replayTrace {events : List (ServiceEvent primitives)} {time : Int}
    (member : time ∈ times (events.flatMap ServiceEvent.replayEvents)) :
    ∃ request decision, .gated request decision ∈ events ∧ time = request.now := by
  obtain ⟨replayEvent, listed, read⟩ := List.mem_filterMap.mp member
  obtain ⟨event, there, part⟩ := List.mem_flatMap.mp listed
  cases event with
  | ticked | introduced | found | verified | dropped => cases part
  | restarted =>
    simp only [ServiceEvent.replayEvents, List.mem_cons, List.not_mem_nil, or_false] at part
    rcases part with rfl | rfl <;> cases read
  | gated request decision =>
    obtain rfl := List.mem_singleton.mp part
    exact ⟨request, decision, there, request.time_eq (toOption_eq_some_iff.mp read)⟩

/-- A message that passed a prompt run does not pass a further request. -/
theorem not_passed_again {log : ByteArray} {start middle final : Service primitives}
    {events : List (ServiceEvent primitives)} (opened : openLog log = .ok start.state.replay)
    (run : Run (ServiceStep primitives) start events middle)
    {request : VerifiedRequest primitives}
    (step : ServiceStep primitives middle (.gated request (.ok .freshRecorded)) final)
    (distinct : CollisionFree (events ++ [.gated request (.ok .freshRecorded)]))
    (prompt : Prompt (events ++ [.gated request (.ok .freshRecorded)])) :
    request.signed.envelope.messageId ∉ passed events := by
  intro again
  obtain ⟨event, listed, found⟩ := List.mem_filterMap.mp again
  match event, found with
  | .gated first (.ok .freshRecorded), found =>
    have same : request.signed.envelope.messageId = first.signed.envelope.messageId :=
      (Option.some.inj found).symm
    have envelope := envelope_unique distinct (List.mem_append_left _ listed)
      (List.mem_append_right _ (List.mem_singleton_self _)) same
    have near := admitted_within_retention first.timely (envelope ▸ request.timely)
    have parsed := fresh_parsed run listed
    obtain ⟨before, after, rfl⟩ := List.append_of_mem listed
    have current : Current (replayTrace (before ++ .gated first (.ok .freshRecorded) :: after))
        request.signed.envelope.messageId first.now := by
      refine ⟨.opened :: before.flatMap ServiceEvent.replayEvents, first.seenAt,
        after.flatMap ServiceEvent.replayEvents, ?_, parsed, fun time member => ?_⟩
      · simp [replayTrace, ServiceEvent.replayEvents, same]
      · obtain ⟨other, decision, there, rfl⟩ := time_of_replayTrace member
        exact prompt before first after request (.ok .freshRecorded) [] (by simp) same other
          decision there
    cases step with
    | gated waits called =>
      cases DurableReplayStore.outcome_of_eq called with
      | fresh admits =>
        have far := (tracked_of_run (replay_run opened run)).outlived admits current
        rw [request.time_eq admits.parsed] at far
        omega

/-- In every run of interleaved requests and restarts that is prompt, each message passes the
replay store at most once. -/
theorem passes_gate_at_most_once (primitives : Primitives) {log : ByteArray}
    {start final : Service primitives} {events : List (ServiceEvent primitives)}
    (opened : openLog log = .ok start.state.replay)
    (run : Run (ServiceStep primitives) start events final) (distinct : CollisionFree events)
    (prompt : Prompt events) : (passed events).Nodup := by
  refine run.invariant (fun events _ => CollisionFree events → Prompt events →
    (passed events).Nodup) (fun _ _ => List.nodup_nil) ?_ distinct prompt
  intro events middle event final before ih step distinct prompt
  have earlier := ih distinct.of_append prompt.of_append
  rw [passed, List.filterMap_append, ← passed]
  cases silent : event.passed with
  | none => simpa [silent] using earlier
  | some messageId =>
    match event, silent with
    | .gated request (.ok .freshRecorded), silent =>
      obtain rfl := Option.some.inj silent
      have fresh := not_passed_again opened before step distinct prompt
      refine List.nodup_append.mpr ⟨earlier, List.nodup_singleton _, fun old there new last => ?_⟩
      obtain rfl : new = request.signed.envelope.messageId := List.mem_singleton.mp last
      rintro rfl
      exact fresh there

/-- A run whose requests carry different messages is prompt. -/
theorem prompt_of_nodup {events : List (ServiceEvent primitives)}
    (different : (events.filterMap ServiceEvent.messageId).Nodup) : Prompt events := by
  rintro before first middle second decision after rfl same
  simp only [List.filterMap_append, List.filterMap_cons, ServiceEvent.messageId] at different
  have tail := (List.nodup_append.mp different).2.1
  exact absurd (by simp [same]) (List.nodup_cons.mp tail).1

/-- A run whose requests carry one envelope under each identifier has no collisions. -/
theorem collisionFree_of_ids {events : List (ServiceEvent primitives)}
    (one : ∀ first decision second other, .gated first decision ∈ events →
      .gated second other ∈ events →
      first.signed.envelope.messageId = second.signed.envelope.messageId →
      first.signed.envelope = second.signed.envelope) : CollisionFree events := by
  rintro first decision second other firstIn secondIn input another ⟨canonical, encoded, computed⟩
    ⟨canonical', encoded', computed'⟩ digests
  obtain ⟨_, _, found, identified⟩ := FederationEnvelope.identified encoded
  obtain ⟨_, _, found', identified'⟩ := FederationEnvelope.identified encoded'
  obtain rfl := Except.ok.inj (computed.symm.trans found)
  obtain rfl := Except.ok.inj (computed'.symm.trans found')
  have envelope := one first decision second other firstIn secondIn (identified.digest.symm.trans
    (((Digest.sha256Ref_inj primitives).mpr digests).trans identified'.digest))
  rw [envelope, encoded'] at encoded
  obtain rfl := Except.ok.inj encoded
  exact Except.ok.inj (computed.symm.trans computed')

/-! ## Recorded requests -/

/-- A recorded envelope. -/
def recordedEnvelope (messageId payloadRef issuedAt expiresAt : String) : FederationEnvelope where
  protocol := "qsol-fed/1"
  messageId := messageId
  sender := recordedDocument.nodeId
  recipient := localDocument.nodeId
  messageClass := .hello
  payloadRef := payloadRef
  provenanceRef := none
  issuedAt := issuedAt
  expiresAt := some expiresAt
  authorityClaim := .none
  signature := ()

/-- The members of its canonical form. -/
def recordedMembers (envelope : FederationEnvelope) : List (String × Node) := [
  ("authority_claim", .string "none"),
  ("expires_at", .string (envelope.expiresAt.getD "")),
  ("issued_at", .string envelope.issuedAt),
  ("message_class", .string "hello"),
  ("message_id", .string envelope.messageId),
  ("payload_ref", .string envelope.payloadRef),
  ("protocol", .string envelope.protocol),
  ("provenance_ref", .null),
  ("recipient", .string envelope.recipient),
  ("sender", .string envelope.sender),
  ("signature", .null)]

/-- The first recorded envelope, with the key of the recorded node. -/
def firstSigned : SignedEnvelope where
  schema := "qsol-fed-signed-envelope/1"
  algorithm := .ed25519
  nodeId := recordedDocument.nodeId
  keyId := recordedDocument.operationalKeyId
  envelope := recordedEnvelope
    "sha256:eb4a608ba232cd25e1bb0e7542d3e8ea1c56376a333730e8bf36341a8d4aa714"
    "sha256:1111111111111111111111111111111111111111111111111111111111111111"
    "2026-08-23T02:00:00Z" "2026-08-23T03:00:00Z"
  signature :=
    "977f9d7ef8a225159638fb657e1f0d2b41a2eba5e65bf0bfba96ee3f41325dfec0b7e3093fb079823f831b6adad1b2b27916ad375c85a62253c4ffa384cab40b"

/-- The second recorded envelope, with the same key. -/
def secondSigned : SignedEnvelope where
  schema := "qsol-fed-signed-envelope/1"
  algorithm := .ed25519
  nodeId := recordedDocument.nodeId
  keyId := recordedDocument.operationalKeyId
  envelope := recordedEnvelope
    "sha256:ee125f253c80ce145739c87296291645f6124e99d2eef9e75968662acaadcf96"
    "sha256:2222222222222222222222222222222222222222222222222222222222222222"
    "2026-08-23T03:00:00Z" "2026-08-23T04:00:00Z"
  signature :=
    "e822d61a61c9619c35c9941e15e1fdfc0b1b7048a8a331b6e5bf111cbf6afa4eedac8162b838788d9d8fbe76b1c2372ca6424a9af57f123a05a2c9f48979d90c"

/-- The first recorded envelope has canonical bytes. -/
theorem firstSigned_encoded : ∃ canonical,
    canonicalEnvelopeBytes recordedPrimitives firstSigned.envelope = .ok canonical :=
  FederationEnvelope.canonicalEnvelopeBytes_of_visit (by decide)
    (rfl : visit recordedPrimitives.unicode (Codecs.envelope.encode firstSigned.envelope) =
      .ok (.object (recordedMembers firstSigned.envelope)))
    (by decide) (by decide) (by decide)
    (sha256Ref_tabulated (envelopeMessage "2026-08-23T03:00:00Z",
      "eb4a608ba232cd25e1bb0e7542d3e8ea1c56376a333730e8bf36341a8d4aa714")
      (by decide) (by decide))

/-- The second recorded envelope has canonical bytes. -/
theorem secondSigned_encoded : ∃ canonical,
    canonicalEnvelopeBytes recordedPrimitives secondSigned.envelope = .ok canonical :=
  FederationEnvelope.canonicalEnvelopeBytes_of_visit (by decide)
    (rfl : visit recordedPrimitives.unicode (Codecs.envelope.encode secondSigned.envelope) =
      .ok (.object (recordedMembers secondSigned.envelope)))
    (by decide) (by decide) (by decide)
    (sha256Ref_tabulated (envelopeMessage "2026-08-23T04:00:00Z",
      "ee125f253c80ce145739c87296291645f6124e99d2eef9e75968662acaadcf96")
      (by decide) (by decide))

/-- A recorded envelope finds its sender. -/
theorem recorded_found {signed : SignedEnvelope} {canonical : ByteArray} {state : ApiState}
    {identity : IdentityState}
    (encoded : canonicalEnvelopeBytes recordedPrimitives signed.envelope = .ok canonical)
    (plain : isPlain (Codecs.signedEnvelope.encode signed) = true)
    (shallow : (Codecs.signedEnvelope.encode signed).nesting < maxDepth)
    (small : sizeBound (Codecs.signedEnvelope.encode signed) ≤ maxInputBytes)
    (schema : signed.schema = signedEnvelopeSchemaV1)
    (node : signed.nodeId = signed.envelope.sender)
    (shape : (validateKeyIdAndSignatureShape signed.keyId signed.signature).isOk = true)
    (known : state.peers.get? signed.nodeId = some identity) :
    ∃ body, lookupSender recordedPrimitives state body = .ok (signed, identity) := by
  obtain ⟨body, written⟩ := canonicalJson_of_check recordedPrimitives _ plain shallow small
  exact ⟨body, (lookupSender_ok_iff ..).mpr ⟨SignedEnvelope.fromWire_toWire written
    (plain_of_check _ plain) shallow schema node ((isOk_unit_iff _).mp shape) encoded,
    known⟩⟩

/-- A recorded envelope is authenticated at a time that the clock policy admits. -/
theorem recorded_authenticated {signed : SignedEnvelope} {canonical : ByteArray} {now : Int}
    (issued : Int) {seenAt : String}
    (encoded : canonicalEnvelopeBytes recordedPrimitives signed.envelope = .ok canonical)
    (schema : signed.schema = signedEnvelopeSchemaV1)
    (node : signed.nodeId = recordedDocument.nodeId)
    (sender : signed.envelope.sender = recordedDocument.nodeId)
    (recipient : signed.envelope.recipient = localDocument.nodeId)
    (key : signed.keyId = recordedDocument.operationalKeyId)
    (issuedAt : parseTimestamp signed.envelope.issuedAt = .ok issued)
    (active : 1787443200 ≤ issued)
    (timely : defaultClockPolicy.validateEnvelope signed.envelope now = .ok ())
    (shape : isFixedHex 64 signed.signature = true)
    (listed : (recordedDocument.operationalPublicKey, signed.signature) ∈ recordedSignatures)
    (formatted : Wire.formatTimestamp now = some seenAt) :
    authenticate recordedPrimitives localDocument.nodeId signed
      (introduced recordedDocument 1787443200) now = .ok seenAt := by
  refine (authenticate_ok_iff ..).mpr ⟨(verifySignedEnvelope_valid_iff ..).mpr ⟨schema, node,
    sender, timely, recordedKey, issued, canonical, ?_, issuedAt, rfl, active,
    (fun until_ present => by cases present), encoded, ?_⟩, recipient, formatted⟩
  · rw [key]
    exact OrderedMap.get?_insert_self ..
  · exact verifySignature_tabulated _ _ (by decide) shape listed


/-- The state with the recorded node and some replay store. -/
def introducedApi (replay : DurableReplayStore) : ApiState where
  localIdentity := localDocument
  peers := OrderedMap.empty.insert recordedDocument.nodeId (introduced recordedDocument 1787443200)
  replay := replay

/-- The first recorded envelope finds its sender. -/
theorem firstSigned_found (replay : DurableReplayStore) : ∃ body,
    lookupSender recordedPrimitives (introducedApi replay) body =
      .ok (firstSigned, introduced recordedDocument 1787443200) := by
  obtain ⟨canonical, encoded⟩ := firstSigned_encoded
  exact recorded_found encoded (by decide +kernel) (by decide) (by decide +kernel) rfl rfl
    (by decide +kernel) (OrderedMap.get?_insert_self ..)

/-- The second recorded envelope finds its sender. -/
theorem secondSigned_found (replay : DurableReplayStore) : ∃ body,
    lookupSender recordedPrimitives (introducedApi replay) body =
      .ok (secondSigned, introduced recordedDocument 1787443200) := by
  obtain ⟨canonical, encoded⟩ := secondSigned_encoded
  exact recorded_found encoded (by decide +kernel) (by decide) (by decide +kernel) rfl rfl
    (by decide +kernel) (OrderedMap.get?_insert_self ..)

/-- The first recorded envelope is verified before its time of issue. -/
theorem firstSigned_early : authenticate recordedPrimitives localDocument.nodeId firstSigned
    (introduced recordedDocument 1787443200) 1787450100 = .ok "2026-08-23T01:55:00Z" := by
  obtain ⟨canonical, encoded⟩ := firstSigned_encoded
  exact recorded_authenticated 1787450400 encoded rfl rfl rfl rfl rfl rfl (by decide) rfl
    (by decide +kernel) (by simp [recordedSignatures, firstSigned]) (by decide +kernel)

/-- The first recorded envelope is verified at the last moment. -/
theorem firstSigned_late : authenticate recordedPrimitives localDocument.nodeId firstSigned
    (introduced recordedDocument 1787443200) 1787454300 = .ok "2026-08-23T03:05:00Z" := by
  obtain ⟨canonical, encoded⟩ := firstSigned_encoded
  exact recorded_authenticated 1787450400 encoded rfl rfl rfl rfl rfl rfl (by decide) rfl
    (by decide +kernel) (by simp [recordedSignatures, firstSigned]) (by decide +kernel)

/-- The second recorded envelope is verified a second later. -/
theorem secondSigned_verified : authenticate recordedPrimitives localDocument.nodeId secondSigned
    (introduced recordedDocument 1787443200) 1787454301 = .ok "2026-08-23T03:05:01Z" := by
  obtain ⟨canonical, encoded⟩ := secondSigned_encoded
  exact recorded_authenticated 1787454000 encoded rfl rfl rfl rfl rfl rfl (by decide) rfl
    (by decide +kernel) (by simp [recordedSignatures, secondSigned]) (by decide +kernel)

/-- The request that verified the first envelope early. -/
def earlyRequest : VerifiedRequest recordedPrimitives :=
  ⟨firstSigned, 1787450100, "2026-08-23T01:55:00Z", _, _, firstSigned_early⟩

/-- The request that verified the first envelope at the last moment. -/
def lateRequest : VerifiedRequest recordedPrimitives :=
  ⟨firstSigned, 1787454300, "2026-08-23T03:05:00Z", _, _, firstSigned_late⟩

/-- The request that verified the second envelope. -/
def otherRequest : VerifiedRequest recordedPrimitives :=
  ⟨secondSigned, 1787454301, "2026-08-23T03:05:01Z", _, _, secondSigned_verified⟩

/-- The store after a request that passed. -/
def passing (store : DurableReplayStore) (request : VerifiedRequest recordedPrimitives) :
    DurableReplayStore :=
  store.admitted request.signed.envelope.messageId request.seenAt request.seenAt request.now

/-- The first envelope passes an empty store. -/
theorem earlyRequest_passes : emptyStore.Admits earlyRequest.signed.envelope.messageId
    earlyRequest.seenAt earlyRequest.seenAt earlyRequest.now :=
  ⟨by decide, rfl, rfl, by decide, rfl⟩

/-- The second envelope passes next and has the first one forgotten. -/
theorem otherRequest_passes : (passing emptyStore earlyRequest).Admits
    otherRequest.signed.envelope.messageId otherRequest.seenAt otherRequest.seenAt
    otherRequest.now :=
  ⟨by decide, rfl, rfl, by decide, rfl⟩

/-- The first envelope then passes again, with the time at which it was verified. -/
theorem lateRequest_passes :
    (passing (passing emptyStore earlyRequest) otherRequest).Admits
      lateRequest.signed.envelope.messageId lateRequest.seenAt lateRequest.seenAt lateRequest.now :=
  ⟨by decide, rfl, rfl, by decide, rfl⟩

/-- The local node with the recorded node introduced, at some time. -/
def introducedService (replay : DurableReplayStore) (clock : Int)
    (waiting : List (Waiting recordedPrimitives)) : Service recordedPrimitives :=
  ⟨introducedApi replay, clock, waiting⟩

/-- A request for a recorded envelope is found. -/
theorem introducedService_found {replay : DurableReplayStore} {signed : SignedEnvelope}
    (lookup : ∃ body, lookupSender recordedPrimitives (introducedApi replay) body =
      .ok (signed, introduced recordedDocument 1787443200)) (clock : Int)
    (waiting : List (Waiting recordedPrimitives)) :
    ServiceStep recordedPrimitives (introducedService replay clock waiting) .found
      (introducedService replay clock
        (.found signed (introduced recordedDocument 1787443200) :: waiting)) := by
  obtain ⟨body, found⟩ := lookup
  exact .found found

/-- The last request that was found is verified at the time of the clock. -/
theorem introducedService_verified (replay : DurableReplayStore)
    (request : VerifiedRequest recordedPrimitives)
    (passed : authenticate recordedPrimitives localDocument.nodeId request.signed
      (introduced recordedDocument 1787443200) request.now = .ok request.seenAt)
    (waiting : List (Waiting recordedPrimitives)) :
    ServiceStep recordedPrimitives
      (introducedService replay request.now
        (.found request.signed (introduced recordedDocument 1787443200) :: waiting)) .verified
      (introducedService replay request.now (.verified request :: waiting)) :=
  @ServiceStep.verified recordedPrimitives
    (introducedService replay request.now
      (.found request.signed (introduced recordedDocument 1787443200) :: waiting))
    [] waiting request.signed (introduced recordedDocument 1787443200) request.seenAt rfl passed

/-- The last request that was verified passes the replay store. -/
theorem introducedService_gated {replay : DurableReplayStore}
    {request : VerifiedRequest recordedPrimitives}
    (admits : replay.Admits request.signed.envelope.messageId request.seenAt request.seenAt
      request.now) (clock : Int) (waiting : List (Waiting recordedPrimitives)) :
    ServiceStep recordedPrimitives (introducedService replay clock (.verified request :: waiting))
      (.gated request (.ok .freshRecorded))
      (introducedService (passing replay request) clock waiting) :=
  @ServiceStep.gated recordedPrimitives
    (introducedService replay clock (.verified request :: waiting)) [] waiting request
    (.ok .freshRecorded) (passing replay request) rfl
    (DurableReplayStore.checkAndRecord_of_admits admits)

/-- The clock of the recorded service moves. -/
theorem introducedService_ticked (replay : DurableReplayStore) {before after : Int}
    (forward : before ≤ after) (waiting : List (Waiting recordedPrimitives)) :
    ServiceStep recordedPrimitives (introducedService replay before waiting) .ticked
      (introducedService replay after waiting) :=
  .ticked forward

/-- The events of a run in which the first envelope passes, and waits as another request while the
second one passes. -/
def recordedEvents : List (ServiceEvent recordedPrimitives) :=
  [.introduced, .found, .verified, .gated earlyRequest (.ok .freshRecorded), .found, .ticked,
    .verified, .found, .ticked, .verified, .gated otherRequest (.ok .freshRecorded)]

/-- The recorded node introduces itself. -/
theorem introducedService_introduced : ServiceStep recordedPrimitives
    ⟨recordedApi, 1787450100, []⟩ .introduced (introducedService emptyStore 1787450100 []) := by
  obtain ⟨hello, accepted⟩ := recordedHello_accepted recordedApi rfl (by decide +kernel) (by decide)
    (by decide +kernel) (by decide) (rfl : [].foldlM (applyRecord recordedPrimitives)
      (introduced recordedDocument 1787443200) = _) (fun existing stored => by cases stored)
  have next : ServiceStep recordedPrimitives ⟨recordedApi, 1787450100, []⟩ .introduced _ :=
    .introduced hello true
  rwa [postPeerHello_accepted recordedPrimitives accepted true] at next

/-- The recorded events happen. -/
theorem recordedEvents_run : Run (ServiceStep recordedPrimitives) ⟨recordedApi, 1787450100, []⟩
    recordedEvents (introducedService (passing (passing emptyStore earlyRequest) otherRequest)
      1787454301 [.verified lateRequest]) := by
  have introduced := Run.single introducedService_introduced
  have passed := ((introduced.snoc (introducedService_found (firstSigned_found _) _ [])).snoc
    (introducedService_verified _ earlyRequest firstSigned_early [])).snoc
    (introducedService_gated earlyRequest_passes _ [])
  have waits := ((passed.snoc (introducedService_found (firstSigned_found _) _ [])).snoc
    (introducedService_ticked _ (by decide) _)).snoc
    (introducedService_verified _ lateRequest firstSigned_late [])
  exact (((waits.snoc (introducedService_found (secondSigned_found _) _ _)).snoc
    (introducedService_ticked _ (by decide) _)).snoc
    (introducedService_verified _ otherRequest secondSigned_verified _)).snoc
    (introducedService_gated otherRequest_passes _ _)

/-- The requests of the recorded events and the late one carry the recorded envelopes. -/
theorem recordedEvents_requests {request : VerifiedRequest recordedPrimitives}
    {decision : Except String ReplayDecision}
    (member : .gated request decision ∈
      recordedEvents ++ [.gated lateRequest (.ok .freshRecorded)]) :
    request.signed = firstSigned ∨ request.signed = secondSigned := by
  simp only [recordedEvents, List.cons_append, List.nil_append, List.mem_cons, List.not_mem_nil,
    reduceCtorEq, ServiceEvent.gated.injEq, false_or, or_false] at member
  rcases member with ⟨rfl, -⟩ | ⟨rfl, -⟩ | ⟨rfl, -⟩
  · exact .inl rfl
  · exact .inr rfl
  · exact .inl rfl

/-- The recorded requests do not collide. -/
theorem recordedEvents_collisionFree :
    CollisionFree (recordedEvents ++ [.gated lateRequest (.ok .freshRecorded)]) := by
  refine collisionFree_of_ids fun first decision second other one two same => ?_
  have apart : firstSigned.envelope.messageId ≠ secondSigned.envelope.messageId := by
    decide
  rcases recordedEvents_requests one with left | left <;>
    rcases recordedEvents_requests two with right | right <;> rw [left, right] at same ⊢
  · exact absurd same apart
  · exact absurd same.symm apart

/-- Both recorded envelopes pass once while the late request waits. -/
theorem passes_gate_at_most_once_recorded : (passed recordedEvents).Nodup :=
  passes_gate_at_most_once recordedPrimitives emptyStore_opened recordedEvents_run
    recordedEvents_collisionFree.of_append (prompt_of_nodup (by decide))

/-- The request that waited passes its message a second time. -/
theorem passes_twice_after_recorded_wait :
    ¬∀ (log : ByteArray) (start final : Service recordedPrimitives)
      (events : List (ServiceEvent recordedPrimitives)), start.state.peers = .empty →
      start.waiting = [] → openLog log = .ok start.state.replay →
      Run (ServiceStep recordedPrimitives) start events final → CollisionFree events →
      (passed events).Nodup := by
  intro always
  have again := always _ _ _ _ rfl rfl emptyStore_opened
    (recordedEvents_run.snoc (introducedService_gated lateRequest_passes _ []))
    recordedEvents_collisionFree
  exact absurd again (by decide)

end QsolFed.Api
