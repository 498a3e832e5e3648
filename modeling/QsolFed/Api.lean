import QsolFed.Identity.Encoding
import QsolFed.Invariants
import QsolFed.Replay
import QsolFed.Signed

/-!
# The HTTP interface

The handlers of `POST /fed/v1/peer/hello` and `POST /fed/v1/envelopes`. A hello rebuilds the
identity of a peer from its document and its lifecycle records and stores it. An envelope is
authenticated against the stored identity of its sender at the time that the clock showed, and
only then passes the replay store, whose lock it takes at a later moment.
-/
namespace QsolFed

open Checked Json Canonical Crypto

/-- The kinds of refusals. -/
inductive ProtocolErrorCode where
  | malformed
  | unsupportedProtocol
  | unsupportedCapability
  | authenticationFailed
  | expired
  | replay
  | primeDirectiveRejected
  | quarantined
  | localPolicyRejected
  | notFound
  | rateLimited
  deriving DecidableEq, Repr

/-- A refusal. -/
structure ProtocolError where
  /-- The HTTP status. -/
  status : Nat
  /-- The kind. -/
  errorCode : ProtocolErrorCode
  /-- The text. -/
  message : String
  /-- The message that was refused. -/
  requestMessageId : Option String
  /-- The invariant that the message violates. -/
  invariantId : Option String
  /-- Trying again may help. -/
  retryable : Bool
  deriving DecidableEq, Repr

/-- The answer to an accepted hello. -/
structure PeerHelloReceipt where
  /-- The protocol. -/
  protocol : String
  /-- What became of the hello. -/
  status : String
  /-- The peer. -/
  nodeId : String
  /-- The number of its lifecycle records. -/
  lifecycleSequence : UInt64
  /-- The trust in the peer. -/
  trust : String
  /-- The authority of the peer. -/
  authority : String
  deriving DecidableEq, Repr

/-- The answer to an admitted envelope. -/
structure EnvelopeReceipt where
  /-- The protocol. -/
  protocol : String
  /-- What became of the envelope. -/
  status : String
  /-- The message. -/
  messageId : String
  /-- The finding about the signature. -/
  signature : String
  /-- The trust in the sender. -/
  trust : String
  /-- The authority of the sender. -/
  authority : String
  /-- How the message was admitted. -/
  admission : String
  deriving DecidableEq, Repr

/-- A peer that introduces itself. -/
structure PeerHello where
  /-- The schema name. -/
  schema : String
  /-- The protocol name. -/
  protocol : String
  /-- The document of the peer. -/
  identity : NodeIdentityDocument
  /-- Its lifecycle records in order. -/
  lifecycle : List PeerLifecycleRecord
  /-- The capabilities it offers. -/
  capabilities : List String
  /-- The authority it claims. -/
  authorityClaim : AuthorityClaim
  deriving DecidableEq

namespace Codecs

/-- The fields of a hello. -/
def peerHelloFields :=
  Fields.required "schema" .string <|
  Fields.required "protocol" .string <|
  Fields.required "identity" identity <|
  Fields.required "lifecycle" lifecycleRecord.list <|
  Fields.required "capabilities" (Codec.list .string) <|
  Fields.required "authority_claim" authorityClaim .nil

/-- A hello as an object. -/
def peerHello : Codec PeerHello :=
  (Codec.record peerHelloFields (by decide)).iso
    (fun (schema, protocol, identity, lifecycle, capabilities, authorityClaim, ()) =>
      { schema, protocol, identity, lifecycle, capabilities, authorityClaim })
    (fun value =>
      (value.schema, value.protocol, value.identity, value.lifecycle, value.capabilities,
        value.authorityClaim, ()))
    fun _ => rfl

end Codecs

/-- The state behind the interface. -/
structure ApiState where
  /-- The document of the local node. -/
  localIdentity : NodeIdentityDocument
  /-- The identities of the introduced peers. -/
  peers : OrderedMap String IdentityState
  /-- The replay store. -/
  replay : DurableReplayStore

namespace Api

/-- The schema of hellos. -/
def peerHelloSchemaV1 : String := "qsol-fed-peer-hello/1"

/-- How many capabilities a hello offers at most. -/
def apiMaxCapabilities : Nat := 64

/-- How many lifecycle records a hello has at most. -/
def apiMaxLifecycleRecords : Nat := 128

/-- A failure while a request is taken apart. -/
inductive ApiBuildError where
  /-- A code of the interface. -/
  | code (text : String)
  /-- A failure of the cryptographic layer at some stage. -/
  | crypto (stage : String) (error : CryptoError)
  deriving DecidableEq, Repr

variable (primitives : Primitives)

/-- The data of a canonical body. -/
def parseCanonical {α : Type} (codec : Codec α) (raw : ByteArray) : Except ProtocolError α := do
  let canonical ← (canonicalize primitives.unicode raw).mapError fun _ =>
    ⟨400, .malformed, "malformed_or_out_of_profile_json", none, none, false⟩
  ensure (canonical = raw) ⟨400, .malformed, "request_json_not_canonical", none, none, false⟩
  okOr (fromSlice codec canonical) ⟨400, .malformed, "request_schema_invalid", none, none, false⟩

/-- A list of capabilities is short, well formed and without repetition. -/
def validateCapabilities (capabilities : List String) : Except ApiBuildError Unit := do
  ensure (capabilities.length ≤ apiMaxCapabilities) (.code "too_many_capabilities")
  ensure (capabilities.all Wire.isCapabilityId ∧ capabilities.Nodup)
    (.code "invalid_or_duplicate_capability")

/-- The stage at which a lifecycle record is applied. -/
def recordStage : PeerLifecycleRecord → String
  | .rotation _ => "peer_rotation"
  | .status _ => "peer_key_status"

/-- The identity that a document and its lifecycle records lead to. -/
def rebuildPeerIdentity (hello : PeerHello) : Except ApiBuildError IdentityState := do
  ensure (hello.lifecycle.length ≤ apiMaxLifecycleRecords) (.code "too_many_lifecycle_records")
  let state ← (Identity.fromDocument primitives hello.identity).mapError (.crypto "peer_identity")
  hello.lifecycle.foldlM (fun state record =>
    (Identity.applyRecord primitives state record).mapError (.crypto (recordStage record))) state

/-- The text of the time of the clock. -/
def formatWireTime (timestamp : Int) : Except ApiBuildError String :=
  okOr (Wire.formatTimestamp timestamp) (.code "timestamp_out_of_range")

/-! ## Hello -/

/-- The peer of a hello and the identity to be stored for it. -/
def admitHello (state : ApiState) (body : ByteArray) :
    Except ProtocolError (String × IdentityState) := do
  let hello ← parseCanonical primitives Codecs.peerHello body
  ensure (hello.schema = peerHelloSchemaV1 ∧ hello.protocol = protocolV1 ∧
    hello.identity.nodeId ≠ state.localIdentity.nodeId ∧
    (validateCapabilities hello.capabilities).isOk ∧
    hello.lifecycle.length ≤ apiMaxLifecycleRecords)
    ⟨400, .malformed, "peer_hello_invalid", none, none, false⟩
  let identity ← (rebuildPeerIdentity primitives hello).mapError fun _ =>
    ⟨401, .authenticationFailed, "peer_lifecycle_invalid", none, none, false⟩
  ensure (∀ existing ∈ state.peers.get? hello.identity.nodeId,
    ¬(identity.sequence < existing.sequence ∨
      (identity.sequence = existing.sequence ∧ identity ≠ existing)))
    ⟨409, .replay, "peer_lifecycle_rollback_rejected", none, none, false⟩
  pure (hello.identity.nodeId, identity)

/-- The handler of a hello; whether the audit log takes the record is decided outside. -/
def postPeerHello (state : ApiState) (body : ByteArray) (audit : Bool) :
    Except ProtocolError PeerHelloReceipt × ApiState :=
  match admitHello primitives state body with
  | .error error => (.error error, state)
  | .ok (nodeId, identity) =>
    let next := { state with peers := state.peers.insert nodeId identity }
    if audit then
      (.ok
        { protocol := protocolV1, status := "introduced", nodeId,
          lifecycleSequence := identity.sequence, trust := "unknown", authority := "none" }, next)
    else (.error ⟨500, .localPolicyRejected, "audit_log_unavailable", none, none, true⟩, next)

/-! ## Envelopes -/

/-- The envelope of a body with the stored identity of its sender. -/
def lookupSender (state : ApiState) (body : ByteArray) :
    Except ProtocolError (SignedEnvelope × IdentityState) := do
  let signed ← (SignedEnvelope.fromWire primitives body).mapError fun _ =>
    ⟨400, .malformed, "signed_envelope_invalid", none, none, false⟩
  let identity ← okOr (state.peers.get? signed.nodeId)
    ⟨401, .authenticationFailed, "peer_not_introduced", some signed.envelope.messageId, none, false⟩
  pure (signed, identity)

/-- The check of an envelope at the time of the clock, which it gives as text. -/
def authenticate (localNodeId : String) (signed : SignedEnvelope) (identity : IdentityState)
    (now : Int) : Except ProtocolError String := do
  let assessment ← (Identity.verifySignedEnvelope primitives signed identity now
    defaultClockPolicy).mapError fun _ =>
      ⟨401, .authenticationFailed, "envelope_authentication_failed",
        some signed.envelope.messageId, none, false⟩
  ensure (assessment.signature = .valid)
    ⟨401, .authenticationFailed, "envelope_authentication_failed", some signed.envelope.messageId,
      none, false⟩
  ensure (signed.envelope.recipient = localNodeId)
    ⟨400, .localPolicyRejected, "envelope_not_addressed_to_local_node",
      some signed.envelope.messageId, none, false⟩
  (formatWireTime now).mapError fun _ =>
    ⟨500, .localPolicyRejected, "clock_unavailable", some signed.envelope.messageId, none, true⟩

/-- The effect that a class of messages asks for. -/
def effectForMessageClass : MessageClass → FederationEffect
  | .hello => .offerInformation
  | .capabilities => .advertiseCapability
  | .evidenceOffer => .offerEvidence
  | .evidenceRequest => .requestEvidence
  | .hypothesis => .offerHypothesis
  | .challenge => .challenge
  | .response => .respond
  | .councilReport => .submitCouncilReport
  | .minorityReport => .submitMinorityReport
  | .experimentReceipt => .submitExperimentReceipt
  | .citation => .submitCitation
  | .publication => .submitPublication

/-- The answer to an envelope after the replay store has answered. -/
def conclude (envelope : FederationEnvelope) (decision : Except String ReplayDecision)
    (audit : Bool) : Except ProtocolError (Nat × EnvelopeReceipt) := do
  let decision ← decision.mapError fun _ =>
    ⟨503, .localPolicyRejected, "replay_store_failure", some envelope.messageId, none, true⟩
  ensure (decision ≠ .replay)
    ⟨409, .replay, "replayed_message", some envelope.messageId, none, false⟩
  let (admission, invariant) ← match admitEffect (effectForMessageClass envelope.messageClass) with
    | .acceptAsData => pure ("accepted_as_data", none)
    | .quarantine reason => pure ("quarantined", some reason)
    | .reject invariantId =>
      .error ⟨403, .primeDirectiveRejected, "prime_directive_rejected", some envelope.messageId,
        some invariantId, false⟩
  ensure (audit = true)
    ⟨500, .localPolicyRejected, "audit_log_unavailable", some envelope.messageId, invariant, true⟩
  pure (202,
    { protocol := protocolV1, status := admission, messageId := envelope.messageId,
      signature := "valid", trust := "unknown", authority := "none", admission })

/-- The handler of an envelope, when nothing else happens between its steps. -/
def postEnvelope (state : ApiState) (body : ByteArray) (now : Int) (audit : Bool) :
    Except ProtocolError (Nat × EnvelopeReceipt) × ApiState :=
  match lookupSender primitives state body with
  | .error error => (.error error, state)
  | .ok (signed, identity) =>
    match authenticate primitives state.localIdentity.nodeId signed identity now with
    | .error error => (.error error, state)
    | .ok seenAt =>
      let (decision, replay) := state.replay.checkAndRecord signed.envelope.messageId seenAt
      (conclude signed.envelope decision audit, { state with replay })

/-! ## What an accepted request checked -/

/-- The identity that a hello is rebuilt to. -/
theorem rebuildPeerIdentity_ok_iff (hello : PeerHello) (identity : IdentityState) :
    rebuildPeerIdentity primitives hello = .ok identity ↔
      hello.lifecycle.length ≤ apiMaxLifecycleRecords ∧
      ∃ initial, Identity.fromDocument primitives hello.identity = .ok initial ∧
        hello.lifecycle.foldlM (Identity.applyRecord primitives) initial = .ok identity := by
  simp only [rebuildPeerIdentity, bind_ok_iff, ensure_ok_iff, mapError_ok_iff, exists_const,
    foldlM_mapError_ok_iff]

/-- A canonical body is parsed to the data that it encodes. -/
theorem parseCanonical_encoded {α : Type} (codec : Codec α) (value : α) {body : ByteArray}
    (plain : Plain (codec.encode value)) (shallow : (codec.encode value).nesting < maxDepth)
    (encoded : canonicalJson primitives (codec.encode value) = .ok body) :
    parseCanonical primitives codec body = .ok value := by
  have read := fromSlice_canonical primitives.unicode codec value plain shallow
    ((canonicalJson_ok_iff ..).mp encoded)
  simp only [parseCanonical, canonicalize_canonicalJson encoded, Except.mapError, bind_ok,
    ensure_pos, read, okOr]

/-- Everything that an accepted hello checked. -/
structure HelloAccepted (state : ApiState) (body : ByteArray) (hello : PeerHello)
    (identity : IdentityState) : Prop where
  /-- The body is the canonical form of the hello. -/
  parsed : parseCanonical primitives Codecs.peerHello body = .ok hello
  /-- The schema is the one of hellos. -/
  schema : hello.schema = peerHelloSchemaV1
  /-- The protocol is the one that this version speaks. -/
  protocol : hello.protocol = protocolV1
  /-- The peer is not the local node. -/
  foreign : hello.identity.nodeId ≠ state.localIdentity.nodeId
  /-- The capabilities are well formed. -/
  capabilities : validateCapabilities hello.capabilities = .ok ()
  /-- The identity is rebuilt from the document and the records. -/
  rebuilt : rebuildPeerIdentity primitives hello = .ok identity
  /-- The identity is not older than the stored one, and equal to it at the same sequence. -/
  newer : ∀ existing, state.peers.get? hello.identity.nodeId = some existing →
    existing.sequence ≤ identity.sequence ∧
      (identity.sequence = existing.sequence → identity = existing)

/-- A hello is admitted exactly when it passes every check. -/
theorem admitHello_ok_iff (state : ApiState) (body : ByteArray) (nodeId : String)
    (identity : IdentityState) : admitHello primitives state body = .ok (nodeId, identity) ↔
      ∃ hello, hello.identity.nodeId = nodeId ∧
        HelloAccepted primitives state body hello identity := by
  simp only [admitHello, bind_ok_iff, ensure_ok_iff, mapError_ok_iff, pure_ok_iff, exists_const,
    Prod.mk.injEq, isOk_unit_iff]
  constructor
  · rintro ⟨hello, parsed, ⟨schema, protocol, foreign, capabilities, -⟩, _, rebuilt, newer, rfl, rfl⟩
    refine ⟨hello, rfl, parsed, schema, protocol, foreign, capabilities, rebuilt,
      fun existing stored => ?_⟩
    have checks := newer existing stored
    simp only [not_or, not_and, not_not, UInt64.not_lt] at checks
    exact checks
  · rintro ⟨hello, rfl, accepted⟩
    refine ⟨hello, accepted.parsed, ⟨accepted.schema, accepted.protocol, accepted.foreign,
      accepted.capabilities, ((rebuildPeerIdentity_ok_iff ..).mp accepted.rebuilt).1⟩, identity,
      accepted.rebuilt, fun existing stored => ?_, rfl, rfl⟩
    simp only [not_or, not_and, not_not, UInt64.not_lt]
    exact accepted.newer existing stored

/-- A hello either leaves the state as it was or stores one accepted identity. -/
theorem postPeerHello_cases (state : ApiState) (body : ByteArray) (audit : Bool) :
    (postPeerHello primitives state body audit).2 = state ∨
      ∃ hello identity, HelloAccepted primitives state body hello identity ∧
        (postPeerHello primitives state body audit).2 =
          { state with peers := state.peers.insert hello.identity.nodeId identity } := by
  unfold postPeerHello
  cases admitted : admitHello primitives state body with
  | error => exact .inl rfl
  | ok result =>
    obtain ⟨nodeId, identity⟩ := result
    obtain ⟨hello, rfl, accepted⟩ := (admitHello_ok_iff ..).mp admitted
    refine .inr ⟨hello, identity, accepted, ?_⟩
    cases audit <;> rfl

/-- An accepted hello stores its identity. -/
theorem postPeerHello_accepted {state : ApiState} {body : ByteArray} {hello : PeerHello}
    {identity : IdentityState} (accepted : HelloAccepted primitives state body hello identity)
    (audit : Bool) : (postPeerHello primitives state body audit).2 =
      { state with peers := state.peers.insert hello.identity.nodeId identity } := by
  simp only [postPeerHello, (admitHello_ok_iff ..).mpr ⟨hello, rfl, accepted⟩]
  cases audit <;> rfl

/-- An envelope is found with the identity of its sender when its wire form is accepted. -/
theorem lookupSender_ok_iff (state : ApiState) (body : ByteArray) (signed : SignedEnvelope)
    (identity : IdentityState) :
    lookupSender primitives state body = .ok (signed, identity) ↔
      SignedEnvelope.fromWire primitives body = .ok signed ∧
        state.peers.get? signed.nodeId = some identity := by
  simp only [lookupSender, bind_ok_iff, mapError_ok_iff, okOr_ok_iff, pure_ok_iff, Prod.mk.injEq]
  constructor
  · rintro ⟨_, read, _, known, rfl, rfl⟩
    exact ⟨read, known⟩
  · rintro ⟨read, known⟩
    exact ⟨_, read, _, known, rfl, rfl⟩

/-- An envelope is authenticated when its signature is valid at the time and it is for the local
node. -/
theorem authenticate_ok_iff (localNodeId : String) (signed : SignedEnvelope)
    (identity : IdentityState) (now : Int) (seenAt : String) :
    authenticate primitives localNodeId signed identity now = .ok seenAt ↔
      Identity.verifySignedEnvelope primitives signed identity now defaultClockPolicy =
        .ok (Identity.assessment .valid) ∧
      signed.envelope.recipient = localNodeId ∧ Wire.formatTimestamp now = some seenAt := by
  simp only [authenticate, bind_ok_iff, mapError_ok_iff, ensure_ok_iff, formatWireTime,
    okOr_ok_iff, exists_const]
  constructor
  · rintro ⟨found, checked, valid, recipient, formatted⟩
    obtain ⟨verdict, rfl⟩ := Identity.verifySignedEnvelope_assessment checked
    obtain rfl : verdict = .valid := valid
    exact ⟨checked, recipient, formatted⟩
  · rintro ⟨checked, recipient, formatted⟩
    exact ⟨_, checked, rfl, recipient, formatted⟩

/-- No class of messages asks for an effect that is rejected. -/
theorem admitEffect_messageClass (messageClass : MessageClass) :
    admitEffect (effectForMessageClass messageClass) = .acceptAsData := by
  cases messageClass <;> rfl

end Api

end QsolFed
