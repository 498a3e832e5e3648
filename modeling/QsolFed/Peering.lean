import QsolFed.Identity.Encoding
import QsolFed.Library.Effect

/-!
# The peer registry

The durable records of the peers of a node: one canonical file for each peer, replaced as a whole
by every operation that changes it. A record holds the identity of a peer with its lifecycle, the
local state of the peering, the snapshot of a partition and the capability advertisement of the
peer. A file is validated again whenever it is read or written.
-/
namespace QsolFed

open Checked Json Canonical Crypto

/-- The local state of a peering. -/
inductive PeerLifecycleState where
  | introduced
  | admitted
  | quarantined
  | revoked
  | disconnected
  deriving DecidableEq, Repr

/-- What a rejoin asks for. -/
inductive RejoinDisposition where
  | clean
  | explicitReconciliationRequired
  deriving DecidableEq, Repr

/-- What became of a write. -/
inductive RegistryWriteDisposition where
  | applied
  | duplicate
  deriving DecidableEq, Repr

/-- The capabilities that a peer offers, under the signature of one of its keys. -/
structure CapabilityAdvertisement where
  /-- The schema name. -/
  schema : String
  /-- The peer. -/
  nodeId : String
  /-- The number of the advertisement. -/
  sequence : UInt64
  /-- When it was issued. -/
  issuedAt : String
  /-- Until when it holds. -/
  expiresAt : String
  /-- The capabilities. -/
  capabilities : List String
  /-- The signature over all of this. -/
  proof : SignedEnvelope
  deriving DecidableEq

/-- The record of a peer. -/
structure PeerRecord where
  /-- The schema name. -/
  schema : String
  /-- The peer. -/
  nodeId : String
  /-- The document of the peer. -/
  identity : NodeIdentityDocument
  /-- Its lifecycle records in order. -/
  lifecycle : List PeerLifecycleRecord
  /-- The digest of the document and the lifecycle records. -/
  identityFingerprint : String
  /-- The number of the last lifecycle record. -/
  lifecycleSequence : UInt64
  /-- The state of the peering. -/
  state : PeerLifecycleState
  /-- The state before a partition. -/
  preDisconnectState : Option PeerLifecycleState
  /-- The snapshot of a partition. -/
  partitionSnapshot : Option String
  /-- The last advertisement of the peer. -/
  capabilityAdvertisement : Option CapabilityAdvertisement
  /-- The number of local changes. -/
  localEventSequence : UInt64
  /-- When the record was changed. -/
  updatedAt : String
  /-- The authority of the peer, which is none. -/
  authority : String
  deriving DecidableEq

/-- A refusal of the registry. -/
inductive PeeringError where
  /-- A code of the registry. -/
  | code (text : String)
  /-- A refusal of an identity or one of its records, after the stage that it happened in. -/
  | identity (stage : String) (error : CryptoError)
  /-- A refusal of the cryptographic layer, passed on. -/
  | crypto (error : CryptoError)
  /-- A refusal of the canonical profile, passed on. -/
  | canonical (error : CanonicalError)
  /-- Bytes that are not a record. -/
  | schema
  deriving DecidableEq, Repr

namespace Codecs

/-- The wire name of a peering state. -/
def peerStateName : PeerLifecycleState → String
  | .introduced => "introduced"
  | .admitted => "admitted"
  | .quarantined => "quarantined"
  | .revoked => "revoked"
  | .disconnected => "disconnected"

/-- A peering state by name. -/
def peerState : Codec PeerLifecycleState :=
  .enumeration peerStateName [.introduced, .admitted, .quarantined, .revoked, .disconnected]
    (by intro value; cases value <;> decide)

/-- The fields of an advertisement. -/
def advertisementFields :=
  Fields.required "schema" .string <|
  Fields.required "node_id" .string <|
  Fields.required "sequence" .uint64 <|
  Fields.required "issued_at" .string <|
  Fields.required "expires_at" .string <|
  Fields.required "capabilities" (Codec.list .string) <|
  Fields.required "proof" signedEnvelope .nil

/-- An advertisement as an object. -/
def advertisement : Codec CapabilityAdvertisement :=
  (Codec.record advertisementFields (by decide)).iso
    (fun (schema, nodeId, sequence, issuedAt, expiresAt, capabilities, proof, ()) =>
      { schema, nodeId, sequence, issuedAt, expiresAt, capabilities, proof })
    (fun value =>
      (value.schema, value.nodeId, value.sequence, value.issuedAt, value.expiresAt,
        value.capabilities, value.proof, ()))
    fun _ => rfl

/-- A peering state or null. -/
def nullablePeerState : Codec (Option PeerLifecycleState) :=
  .nullable peerState fun _ same => by cases same

/-- An advertisement or null. -/
def nullableAdvertisement : Codec (Option CapabilityAdvertisement) :=
  .nullable advertisement fun _ same => by cases same

/-- The fields of the record of a peer. -/
def peerRecordFields :=
  Fields.required "schema" .string <|
  Fields.required "node_id" .string <|
  Fields.required "identity" identity <|
  Fields.required "lifecycle" lifecycleRecord.list <|
  Fields.required "identity_fingerprint" .string <|
  Fields.required "lifecycle_sequence" .uint64 <|
  Fields.required "state" peerState <|
  Fields.cons "pre_disconnect_state" nullablePeerState (some none) <|
  Fields.cons "partition_snapshot" nullableString (some none) <|
  Fields.cons "capability_advertisement" nullableAdvertisement (some none) <|
  Fields.required "local_event_sequence" .uint64 <|
  Fields.required "updated_at" .string <|
  Fields.required "authority" .string .nil

/-- The record of a peer as an object. -/
def peerRecord : Codec PeerRecord :=
  (Codec.record peerRecordFields (by decide)).iso
    (fun (schema, nodeId, identity, lifecycle, identityFingerprint, lifecycleSequence, state,
        preDisconnectState, partitionSnapshot, capabilityAdvertisement, localEventSequence,
        updatedAt, authority, ()) =>
      { schema, nodeId, identity, lifecycle, identityFingerprint, lifecycleSequence, state,
        preDisconnectState, partitionSnapshot, capabilityAdvertisement, localEventSequence,
        updatedAt, authority })
    (fun value =>
      (value.schema, value.nodeId, value.identity, value.lifecycle, value.identityFingerprint,
        value.lifecycleSequence, value.state, value.preDisconnectState, value.partitionSnapshot,
        value.capabilityAdvertisement, value.localEventSequence, value.updatedAt, value.authority,
        ()))
    fun _ => rfl

end Codecs

namespace Peering

/-- The schema of the records of peers. -/
def peerRecordSchemaV1 : String := "qsol-fed-peer-record/1"

/-- The schema of advertisements. -/
def capabilityAdvertisementSchemaV1 : String := "qsol-fed-capability-advertisement/1"

/-- How long an advertisement holds at most. -/
def maxCapabilityAdvertisementLifetimeSeconds : Int := maxSignedMessageLifetimeSeconds

/-- How many lifecycle records a peer has at most. -/
def maxPeerLifecycleRecords : Nat := 512

/-- How many capabilities an advertisement lists at most. -/
def maxCapabilities : Nat := 128

/-- One more, unless that is too much for the type. -/
def saturatingSucc (value : UInt64) : UInt64 :=
  UInt64.ofNat (min (value.toNat + 1) (2 ^ 64 - 1))

/-- A timestamp of the wire that names a second. -/
def validTimestamp (value : String) : Bool :=
  Wire.isWireTimestamp value && (Wire.parseFromRfc3339 value).isSome

/-- The second that a timestamp names. -/
def parseTimestamp (value : String) : Except PeeringError Int := do
  ensure (validTimestamp value) (.code "peer_timestamp_invalid")
  okOr (Wire.parseFromRfc3339 value) (.code "peer_timestamp_invalid")

variable (primitives : Primitives)

/-- The canonical bytes of data. -/
def canonicalStruct (value : Value String) : Except PeeringError ByteArray :=
  (canonicalize primitives.unicode (writtenBytes value)).mapError .canonical

/-- The bytes are canonical. -/
def requireExactCanonical (raw : ByteArray) : Except PeeringError Unit := do
  let canonical ← (canonicalize primitives.unicode raw).mapError .canonical
  ensure (canonical = raw) (.code "peer_registry_bytes_not_canonical")

/-- The identifier of the object that data is written as. -/
def structId (value : Value String) : Except PeeringError String := do
  let bytes ← canonicalStruct primitives value
  (Digest.objectId primitives bytes).mapError .canonical

/-! ## Identities -/

/-- The stage that a lifecycle record is refused in. -/
def recordStage : PeerLifecycleRecord → String
  | .rotation _ => "peer_rotation"
  | .status _ => "peer_status"

/-- The identity that a document and lifecycle records lead to. -/
def rebuildPeerIdentity (identity : NodeIdentityDocument) (lifecycle : List PeerLifecycleRecord) :
    Except PeeringError IdentityState := do
  let state ← (Identity.fromDocument primitives identity).mapError (.identity "peer_identity")
  lifecycle.foldlM (fun state record =>
    (Identity.applyRecord primitives state record).mapError (.identity (recordStage record))) state

/-- What the fingerprint of an identity covers. -/
def fingerprintSnapshot (identity : NodeIdentityDocument) (lifecycle : List PeerLifecycleRecord) :
    Value String :=
  .object [
    ("identity", Codecs.identity.encode identity),
    ("lifecycle", Codecs.lifecycleRecord.list.encode lifecycle)]

/-- The fingerprint of an identity. -/
def identityFingerprint (identity : NodeIdentityDocument) (lifecycle : List PeerLifecycleRecord) :
    Except PeeringError String :=
  structId primitives (fingerprintSnapshot identity lifecycle)

/-- Each record of one list has the same canonical bytes as the one at its place in another. -/
def requireSameRecords : List PeerLifecycleRecord → List PeerLifecycleRecord →
    Except PeeringError Unit
  | [], _ => pure ()
  | _ :: _, [] => .error (.code "peer_lifecycle_prefix_rewrite_forbidden")
  | old :: olds, candidate :: candidates => do
    let stored ← canonicalStruct primitives (Codecs.lifecycleRecord.encode old)
    let offered ← canonicalStruct primitives (Codecs.lifecycleRecord.encode candidate)
    ensure (stored = offered) (.code "peer_lifecycle_prefix_rewrite_forbidden")
    requireSameRecords olds candidates

/-- The stored lifecycle is the beginning of another. -/
def requireLifecyclePrefix (old candidate : List PeerLifecycleRecord) :
    Except PeeringError Unit := do
  ensure (old.length ≤ candidate.length) (.code "peer_lifecycle_prefix_rewrite_forbidden")
  requireSameRecords primitives old candidate

/-! ## Capability advertisements -/

/-- The capabilities are few, well formed and distinct. -/
def validateCapabilitySet (capabilities : List String) : Except PeeringError Unit := do
  ensure (capabilities.length ≤ maxCapabilities) (.code "capability_advertisement_too_large")
  ensure (capabilities.all Wire.isCapabilityId ∧ capabilities.Nodup)
    (.code "capability_advertisement_invalid")

/-- Every field of an advertisement has its shape. -/
def validateAdvertisementShape (advertisement : CapabilityAdvertisement) :
    Except PeeringError Unit := do
  ensure (advertisement.schema = capabilityAdvertisementSchemaV1 ∧
    Wire.isNodeId advertisement.nodeId ∧ advertisement.sequence ≠ 0 ∧
    validTimestamp advertisement.issuedAt ∧ validTimestamp advertisement.expiresAt)
    (.code "capability_advertisement_shape_invalid")
  validateCapabilitySet advertisement.capabilities

/-- What the signature of an advertisement covers. -/
def advertisementPayload (advertisement : CapabilityAdvertisement) : Value String :=
  .object [
    ("schema", .string advertisement.schema),
    ("node_id", .string advertisement.nodeId),
    ("sequence", Codec.uint64.encode advertisement.sequence),
    ("issued_at", .string advertisement.issuedAt),
    ("expires_at", .string advertisement.expiresAt),
    ("capabilities", (Codec.list .string).encode advertisement.capabilities)]

/-- The advertisement carries a valid signature of its node at the time it was issued. -/
def verifyCapabilityAdvertisementSignature (advertisement : CapabilityAdvertisement)
    (identity : IdentityState) : Except PeeringError Unit := do
  validateAdvertisementShape advertisement
  ensure (advertisement.nodeId = identity.nodeId) (.code "capability_node_mismatch")
  let payloadRef ← structId primitives (advertisementPayload advertisement)
  let envelope := advertisement.proof.envelope
  ensure (advertisement.proof.nodeId = advertisement.nodeId ∧
    envelope.sender = advertisement.nodeId ∧ envelope.recipient = advertisement.nodeId ∧
    envelope.messageClass = .capabilities ∧ envelope.payloadRef = payloadRef ∧
    envelope.issuedAt = advertisement.issuedAt ∧
    envelope.expiresAt = some advertisement.expiresAt)
    (.code "capability_proof_binding_invalid")
  let issued ← parseTimestamp advertisement.issuedAt
  let assessment ← (Identity.verifySignedEnvelope primitives advertisement.proof identity issued
    defaultClockPolicy).mapError .crypto
  ensure (assessment.signature = .valid) (.code "capability_signature_invalid")

/-- An advertisement holds at some time. -/
def advertisementIsActive (advertisement : CapabilityAdvertisement) (nowUnix : Int) :
    Except PeeringError Unit := do
  let issued ← parseTimestamp advertisement.issuedAt
  let expires ← parseTimestamp advertisement.expiresAt
  ensure (¬(expires ≤ issued ∨ expires - issued > maxCapabilityAdvertisementLifetimeSeconds))
    (.code "capability_expiry_invalid")
  ensure (¬(nowUnix < issued ∨ nowUnix > expires)) (.code "capability_advertisement_inactive")

/-- An advertisement is signed and holds at some time. -/
def verifyCapabilityAdvertisement (advertisement : CapabilityAdvertisement)
    (identity : IdentityState) (nowUnix : Int) : Except PeeringError Unit := do
  verifyCapabilityAdvertisementSignature primitives advertisement identity
  advertisementIsActive advertisement nowUnix

/-! ## Records -/

/-- The record of a peer is what its document and its lifecycle records say. -/
def validatePeerRecord (record : PeerRecord) : Except PeeringError Unit := do
  ensure (record.schema = peerRecordSchemaV1 ∧ record.nodeId = record.identity.nodeId ∧
    record.lifecycle.length ≤ maxPeerLifecycleRecords ∧ record.authority = "none" ∧
    validTimestamp record.updatedAt ∧ record.partitionSnapshot.all Wire.isSha256Ref)
    (.code "peer_record_corrupt")
  ensure (record.state = .disconnected →
    record.preDisconnectState.isSome ∧ record.partitionSnapshot.isSome)
    (.code "peer_disconnected_state_incomplete")
  let rebuilt ← rebuildPeerIdentity primitives record.identity record.lifecycle
  ensure (rebuilt.sequence = record.lifecycleSequence) (.code "peer_record_identity_drift")
  let fingerprint ← identityFingerprint primitives record.identity record.lifecycle
  ensure (fingerprint = record.identityFingerprint) (.code "peer_record_identity_drift")
  match record.capabilityAdvertisement with
  | none => pure ()
  | some advertisement =>
    verifyCapabilityAdvertisementSignature primitives advertisement rebuilt

/-- Which changes of state are allowed. -/
def transitionAllowed (source target : PeerLifecycleState) : Bool :=
  source = target ||
    match source with
    | .introduced => target ∈ [.admitted, .quarantined, .revoked, .disconnected]
    | .admitted => target ∈ [.quarantined, .revoked, .disconnected]
    | .quarantined => target ∈ [.admitted, .revoked, .disconnected]
    | .revoked | .disconnected => false

end Peering

/-- The files of the registry by name. An operation replaces a file as a whole. -/
structure PeerRegistry where
  /-- The contents of the files. -/
  peers : OrderedMap String ByteArray
  deriving DecidableEq

namespace PeerRegistry

open Peering

/-- The registry without peers. -/
def empty : PeerRegistry := ⟨.empty⟩

/-- The name of the file of a peer. -/
def peerPath (nodeId : String) : Except PeeringError String := do
  ensure (Wire.isNodeId nodeId) (.code "peer_node_id_invalid")
  pure (String.ofList (nodeId.toList.drop 9) ++ ".json")

variable (primitives : Primitives)

/-- The record of a peer. -/
def get (registry : PeerRegistry) (nodeId : String) : Except PeeringError (Option PeerRecord) := do
  let path ← peerPath nodeId
  match registry.peers.get? path with
  | none => pure none
  | some raw => do
    requireExactCanonical primitives raw
    let record ← okOr (fromSlice Codecs.peerRecord raw) .schema
    validatePeerRecord primitives record
    pure (some record)

/-- The record of a peer that must be known. -/
def getKnown (registry : PeerRegistry) (nodeId unknown : String) :
    Except PeeringError PeerRecord := do
  let found ← registry.get primitives nodeId
  okOr found (.code unknown)

/-- The identity of a peer. -/
def identityState (registry : PeerRegistry) (nodeId : String) :
    Except PeeringError (Option IdentityState) := do
  match ← registry.get primitives nodeId with
  | none => pure none
  | some record => do
    let state ← rebuildPeerIdentity primitives record.identity record.lifecycle
    pure (some state)

/-- The registry with the record of a peer replaced. -/
def writePeer (registry : PeerRegistry) (record : PeerRecord) :
    Except PeeringError PeerRegistry := do
  validatePeerRecord primitives record
  let path ← peerPath record.nodeId
  let bytes ← canonicalStruct primitives (Codecs.peerRecord.encode record)
  pure ⟨registry.peers.insert path bytes⟩

/-- A record that was changed locally once more. -/
def touched (record : PeerRecord) (updatedAt : String) : PeerRecord :=
  { record with
    localEventSequence := saturatingSucc record.localEventSequence
    updatedAt := updatedAt }

/-- The record of a peer that is new. -/
def introducedRecord (identity : NodeIdentityDocument) (lifecycle : List PeerLifecycleRecord)
    (observedSnapshot : Option String) (updatedAt fingerprint : String) (sequence : UInt64) :
    PeerRecord :=
  { schema := peerRecordSchemaV1
    nodeId := identity.nodeId
    identity := identity
    lifecycle := lifecycle
    identityFingerprint := fingerprint
    lifecycleSequence := sequence
    state := .introduced
    preDisconnectState := none
    partitionSnapshot := observedSnapshot
    capabilityAdvertisement := none
    localEventSequence := 1
    updatedAt := updatedAt
    authority := "none" }

/-- A stored record with a longer lifecycle. -/
def extendedRecord (old : PeerRecord) (lifecycle : List PeerLifecycleRecord)
    (observedSnapshot : Option String) (updatedAt fingerprint : String) (sequence : UInt64) :
    PeerRecord :=
  touched
    { old with
      lifecycle := lifecycle
      identityFingerprint := fingerprint
      lifecycleSequence := sequence
      partitionSnapshot :=
        if old.state ≠ .disconnected then observedSnapshot <|> old.partitionSnapshot
        else old.partitionSnapshot }
    updatedAt

/-- A peer introduces itself, or shows a longer lifecycle. -/
def introduce (identity : NodeIdentityDocument) (lifecycle : List PeerLifecycleRecord)
    (observedSnapshot : Option String) (updatedAt : String) (registry : PeerRegistry) :
    Except PeeringError (RegistryWriteDisposition × PeerRegistry) := do
  ensure (lifecycle.length ≤ maxPeerLifecycleRecords ∧ validTimestamp updatedAt)
    (.code "peer_introduction_limits_invalid")
  ensure (observedSnapshot.all Wire.isSha256Ref) (.code "peer_snapshot_invalid")
  let identityState ← rebuildPeerIdentity primitives identity lifecycle
  let fingerprint ← identityFingerprint primitives identity lifecycle
  match ← registry.get primitives identity.nodeId with
  | some old => do
    ensure (old.state ≠ .revoked) (.code "revoked_peer_cannot_reintroduce")
    let stored ← canonicalStruct primitives (Codecs.identity.encode old.identity)
    let offered ← canonicalStruct primitives (Codecs.identity.encode identity)
    ensure (stored = offered) (.code "peer_initial_identity_immutable")
    ensure (¬identityState.sequence < old.lifecycleSequence)
      (.code "peer_lifecycle_rollback_forbidden")
    if identityState.sequence = old.lifecycleSequence then do
      ensure (old.identityFingerprint = fingerprint) (.code "peer_same_sequence_divergence")
      pure (.duplicate, registry)
    else do
      requireLifecyclePrefix primitives old.lifecycle lifecycle
      let next ← registry.writePeer primitives
        (extendedRecord old lifecycle observedSnapshot updatedAt fingerprint identityState.sequence)
      pure (.applied, next)
  | none => do
    let next ← registry.writePeer primitives
      (introducedRecord identity lifecycle observedSnapshot updatedAt fingerprint
        identityState.sequence)
    pure (.applied, next)

/-- A record in another state. -/
def transitionedRecord (record : PeerRecord) (target : PeerLifecycleState) (updatedAt : String) :
    PeerRecord :=
  touched
    { record with
      preDisconnectState :=
        if target = .disconnected then some record.state
        else if record.state ≠ .disconnected then none
        else record.preDisconnectState
      state := target }
    updatedAt

/-- The local node changes the state of a peering. -/
def transition (nodeId : String) (target : PeerLifecycleState) (updatedAt : String)
    (registry : PeerRegistry) : Except PeeringError (Unit × PeerRegistry) := do
  ensure (validTimestamp updatedAt) (.code "peer_transition_time_invalid")
  let record ← registry.getKnown primitives nodeId "peer_unknown"
  ensure (transitionAllowed record.state target) (.code "peer_transition_forbidden")
  let next ← registry.writePeer primitives (transitionedRecord record target updatedAt)
  pure ((), next)

/-- A peer becomes known from an archive: it is quarantined when it is new. -/
def importQuarantined (identity : NodeIdentityDocument) (lifecycle : List PeerLifecycleRecord)
    (updatedAt : String) : Effect PeerRegistry PeeringError RegistryWriteDisposition := do
  let existed ← Effect.read fun registry =>
    (registry.get primitives identity.nodeId).map Option.isSome
  let disposition ← Effect.atomic (introduce primitives identity lifecycle none updatedAt)
  if existed then pure disposition
  else do
    let _ ← Effect.atomic (transition primitives identity.nodeId .quarantined updatedAt)
    pure .applied

/-- A record with another advertisement. -/
def advertisedRecord (record : PeerRecord) (advertisement : CapabilityAdvertisement)
    (updatedAt : String) : PeerRecord :=
  touched { record with capabilityAdvertisement := some advertisement } updatedAt

/-- Whether an advertisement is the stored one again; an older or a different one is refused. -/
def isStoredAdvertisement (record : PeerRecord) (advertisement : CapabilityAdvertisement) :
    Except PeeringError Bool :=
  match record.capabilityAdvertisement with
  | none => pure false
  | some old => do
    ensure (¬advertisement.sequence < old.sequence) (.code "capability_advertisement_rollback")
    if advertisement.sequence = old.sequence then do
      let stored ← canonicalStruct primitives (Codecs.advertisement.encode old)
      let offered ← canonicalStruct primitives (Codecs.advertisement.encode advertisement)
      ensure (stored = offered) (.code "capability_same_sequence_divergence")
      pure true
    else pure false

/-- The advertisement of a peer becomes known from an archive. -/
def attachArchivalCapabilityAdvertisement (nodeId : String)
    (advertisement : CapabilityAdvertisement) (updatedAt : String) (registry : PeerRegistry) :
    Except PeeringError (Unit × PeerRegistry) := do
  ensure (validTimestamp updatedAt ∧ advertisement.nodeId = nodeId)
    (.code "archival_capability_identity_invalid")
  let record ← registry.getKnown primitives nodeId "capability_peer_unknown"
  let identity ← rebuildPeerIdentity primitives record.identity record.lifecycle
  verifyCapabilityAdvertisementSignature primitives advertisement identity
  if ← isStoredAdvertisement primitives record advertisement then pure ((), registry)
  else do
    let next ← registry.writePeer primitives (advertisedRecord record advertisement updatedAt)
    pure ((), next)

/-- A peer advertises its capabilities. -/
def recordCapabilityAdvertisement (advertisement : CapabilityAdvertisement) (nowUnix : Int)
    (updatedAt : String) (registry : PeerRegistry) :
    Except PeeringError (RegistryWriteDisposition × PeerRegistry) := do
  ensure (validTimestamp updatedAt) (.code "capability_update_time_invalid")
  let record ← registry.getKnown primitives advertisement.nodeId "capability_peer_unknown"
  let identity ← rebuildPeerIdentity primitives record.identity record.lifecycle
  verifyCapabilityAdvertisement primitives advertisement identity nowUnix
  if ← isStoredAdvertisement primitives record advertisement then pure (.duplicate, registry)
  else do
    let next ← registry.writePeer primitives (advertisedRecord record advertisement updatedAt)
    pure (.applied, next)

/-- A record in a partition that begins with a snapshot. -/
def disconnectedRecord (record : PeerRecord) (localSnapshot updatedAt : String) : PeerRecord :=
  touched
    { record with
      preDisconnectState := some record.state
      state := .disconnected
      partitionSnapshot := some localSnapshot }
    updatedAt

/-- A partition from a peer begins. -/
def disconnect (nodeId localSnapshot updatedAt : String) (registry : PeerRegistry) :
    Except PeeringError (Unit × PeerRegistry) := do
  ensure (Wire.isSha256Ref localSnapshot ∧ validTimestamp updatedAt)
    (.code "partition_snapshot_or_time_invalid")
  let record ← registry.getKnown primitives nodeId "peer_unknown"
  ensure (¬(record.state = .revoked ∨ record.state = .disconnected))
    (.code "peer_disconnect_forbidden")
  let next ← registry.writePeer primitives (disconnectedRecord record localSnapshot updatedAt)
  pure ((), next)

/-- What a rejoin at a snapshot asks for. -/
def proposeRejoin (registry : PeerRegistry) (nodeId remoteSnapshot : String) :
    Except PeeringError RejoinDisposition := do
  ensure (Wire.isSha256Ref remoteSnapshot) (.code "rejoin_snapshot_invalid")
  let record ← registry.getKnown primitives nodeId "peer_unknown"
  ensure (record.state = .disconnected) (.code "rejoin_requires_disconnected_peer")
  pure (if record.partitionSnapshot = some remoteSnapshot then .clean
    else .explicitReconciliationRequired)

/-- A record after a partition. -/
def rejoinedRecord (record : PeerRecord) (target : PeerLifecycleState)
    (remoteSnapshot updatedAt : String) : PeerRecord :=
  touched
    { record with
      state := target
      preDisconnectState := none
      partitionSnapshot := some remoteSnapshot }
    updatedAt

/-- A partition from a peer ends. -/
def confirmRejoin (nodeId remoteSnapshot : String) (explicitReconciliation : Bool)
    (updatedAt : String) (registry : PeerRegistry) :
    Except PeeringError (Unit × PeerRegistry) := do
  ensure (validTimestamp updatedAt) (.code "rejoin_time_invalid")
  let disposition ← registry.proposeRejoin primitives nodeId remoteSnapshot
  ensure (¬(disposition = .explicitReconciliationRequired ∧ explicitReconciliation = false))
    (.code "silent_reconciliation_forbidden")
  let record ← registry.getKnown primitives nodeId "peer_unknown"
  let target := record.preDisconnectState.getD .introduced
  ensure (¬(target = .revoked ∨ target = .disconnected)) (.code "rejoin_target_invalid")
  let next ← registry.writePeer primitives
    (rejoinedRecord record target remoteSnapshot updatedAt)
  pure ((), next)

/-! ## Calls -/

/-- A call of the registry that may change it. -/
inductive Call where
  /-- A peer introduces itself. -/
  | introduce (identity : NodeIdentityDocument) (lifecycle : List PeerLifecycleRecord)
    (observedSnapshot : Option String) (updatedAt : String)
  /-- A peer becomes known from an archive. -/
  | importQuarantined (identity : NodeIdentityDocument) (lifecycle : List PeerLifecycleRecord)
    (updatedAt : String)
  /-- An advertisement becomes known from an archive. -/
  | attachArchival (nodeId : String) (advertisement : CapabilityAdvertisement) (updatedAt : String)
  /-- A peer advertises its capabilities. -/
  | recordCapability (advertisement : CapabilityAdvertisement) (nowUnix : Int) (updatedAt : String)
  /-- The local node changes the state of a peering. -/
  | transition (nodeId : String) (target : PeerLifecycleState) (updatedAt : String)
  /-- A partition begins. -/
  | disconnect (nodeId localSnapshot updatedAt : String)
  /-- A rejoin is proposed. -/
  | proposeRejoin (nodeId remoteSnapshot : String)
  /-- A partition ends. -/
  | confirmRejoin (nodeId remoteSnapshot : String) (explicitReconciliation : Bool)
    (updatedAt : String)

/-- What a call answers. -/
inductive Answer where
  /-- Nothing but success. -/
  | done
  /-- What became of a write. -/
  | written (disposition : RegistryWriteDisposition)
  /-- What a rejoin asks for. -/
  | proposed (disposition : RejoinDisposition)
  deriving DecidableEq

/-- The computation of a call. -/
def Call.effect : Call → Effect PeerRegistry PeeringError Answer
  | .introduce identity lifecycle observedSnapshot updatedAt =>
    .written <$>
      Effect.atomic (PeerRegistry.introduce primitives identity lifecycle observedSnapshot updatedAt)
  | .importQuarantined identity lifecycle updatedAt =>
    .written <$> PeerRegistry.importQuarantined primitives identity lifecycle updatedAt
  | .attachArchival nodeId advertisement updatedAt =>
    (fun _ => .done) <$>
      Effect.atomic (attachArchivalCapabilityAdvertisement primitives nodeId advertisement updatedAt)
  | .recordCapability advertisement nowUnix updatedAt =>
    .written <$>
      Effect.atomic (recordCapabilityAdvertisement primitives advertisement nowUnix updatedAt)
  | .transition nodeId target updatedAt =>
    (fun _ => .done) <$> Effect.atomic (PeerRegistry.transition primitives nodeId target updatedAt)
  | .disconnect nodeId localSnapshot updatedAt =>
    (fun _ => .done) <$>
      Effect.atomic (PeerRegistry.disconnect primitives nodeId localSnapshot updatedAt)
  | .proposeRejoin nodeId remoteSnapshot =>
    .proposed <$> Effect.read fun registry =>
      registry.proposeRejoin primitives nodeId remoteSnapshot
  | .confirmRejoin nodeId remoteSnapshot explicitReconciliation updatedAt =>
    (fun _ => .done) <$> Effect.atomic
      (PeerRegistry.confirmRejoin primitives nodeId remoteSnapshot explicitReconciliation updatedAt)

end PeerRegistry

end QsolFed
