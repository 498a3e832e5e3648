import QsolFed.Store.Listing
import QsolFed.Peering.Registry

/-!
# Portable federation bundles

A bundle is one canonical file with identities, lifecycles and advertisements of peers and with
foreign objects and their provenance, each embedded as the hexadecimal text of its canonical bytes.
Whoever receives a bundle verifies it without a network and may import it: new peers and new
attributions are quarantined, and what is known already keeps its state.
-/
namespace QsolFed

open Checked Json Canonical

/-- A peer in a bundle. -/
structure BundlePeer where
  /-- The peer. -/
  nodeId : String
  /-- Its document. -/
  identityHex : String
  /-- Its lifecycle records in order. -/
  lifecycleHex : List String
  /-- Its advertisement. -/
  capabilityAdvertisementHex : Option String
  /-- Its state at the exporter. -/
  exportedState : PeerLifecycleState
  deriving DecidableEq

/-- An attribution of a foreign object in a bundle. -/
structure BundleObject where
  /-- The object. -/
  objectId : String
  /-- The node that it comes from. -/
  sourceNode : String
  /-- Its namespace at the exporter. -/
  exportedNamespace : ForeignNamespace
  /-- The contents of the object. -/
  objectHex : String
  /-- Its provenance. -/
  provenanceId : Option String
  /-- The contents of its provenance. -/
  provenanceHex : Option String
  deriving DecidableEq

/-- A bundle. -/
structure PortableFederationBundle where
  /-- The schema name. -/
  schema : String
  /-- The protocol. -/
  protocol : String
  /-- The node that made the bundle. -/
  exporterNode : String
  /-- When it was made. -/
  createdAt : String
  /-- Its peers. -/
  peers : List BundlePeer
  /-- Its objects. -/
  objects : List BundleObject
  /-- The authority of the bundle, which is none. -/
  authority : String
  deriving DecidableEq

/-- What the verification of a bundle reports. -/
structure BundleVerificationReport where
  /-- The reference to the bundle. -/
  bundleId : String
  /-- How many peers it has. -/
  peerCount : Nat
  /-- How many attributions it has. -/
  objectCount : Nat
  /-- The authority of the bundle, which is none. -/
  authority : String
  /-- Whether the verification used a network. -/
  networkRequired : Bool
  deriving DecidableEq

/-- What an import reports. -/
structure BundleImportReceipt where
  /-- The reference to the bundle. -/
  bundleId : String
  /-- How many peers it has. -/
  peersImported : Nat
  /-- How many attributions it has. -/
  objectsImported : Nat
  /-- Where new material was placed. -/
  placement : String
  /-- The authority of the bundle, which is none. -/
  authority : String
  /-- Whether the import changed trust. -/
  trustChanged : Bool
  deriving DecidableEq

/-- A refusal of a bundle. -/
inductive BundleError where
  /-- A code of the bundle. -/
  | code (text : String)
  /-- A refusal of the canonical profile, passed on. -/
  | canonical (error : CanonicalError)
  /-- A refusal of the registry, passed on. -/
  | peering (error : PeeringError)
  /-- A refusal of the store, passed on. -/
  | store (error : StoreError)
  /-- Bytes that are not what the stage reads. -/
  | schema (stage : String)
  deriving DecidableEq, Repr

namespace Codecs

/-- The fields of a peer in a bundle. -/
def bundlePeerFields :=
  Fields.required "node_id" .string <|
  Fields.required "identity_hex" .string <|
  Fields.required "lifecycle_hex" (Codec.list .string) <|
  Fields.cons "capability_advertisement_hex" nullableString (some none) <|
  Fields.required "exported_state" peerState .nil

/-- A peer in a bundle as an object. -/
def bundlePeer : Codec BundlePeer :=
  (Codec.record bundlePeerFields (by decide)).iso
    (fun (nodeId, identityHex, lifecycleHex, capabilityAdvertisementHex, exportedState, ()) =>
      { nodeId, identityHex, lifecycleHex, capabilityAdvertisementHex, exportedState })
    (fun value =>
      (value.nodeId, value.identityHex, value.lifecycleHex, value.capabilityAdvertisementHex,
        value.exportedState, ()))
    fun _ => rfl

/-- The fields of an attribution in a bundle. -/
def bundleObjectFields :=
  Fields.required "object_id" .string <|
  Fields.required "source_node" .string <|
  Fields.required "exported_namespace" foreignNamespace <|
  Fields.required "object_hex" .string <|
  Fields.cons "provenance_id" nullableString (some none) <|
  Fields.cons "provenance_hex" nullableString (some none) .nil

/-- An attribution in a bundle as an object. -/
def bundleObject : Codec BundleObject :=
  (Codec.record bundleObjectFields (by decide)).iso
    (fun (objectId, sourceNode, exportedNamespace, objectHex, provenanceId, provenanceHex, ()) =>
      { objectId, sourceNode, exportedNamespace, objectHex, provenanceId, provenanceHex })
    (fun value =>
      (value.objectId, value.sourceNode, value.exportedNamespace, value.objectHex,
        value.provenanceId, value.provenanceHex, ()))
    fun _ => rfl

/-- The fields of a bundle. -/
def bundleFields :=
  Fields.required "schema" .string <|
  Fields.required "protocol" .string <|
  Fields.required "exporter_node" .string <|
  Fields.required "created_at" .string <|
  Fields.required "peers" bundlePeer.list <|
  Fields.required "objects" bundleObject.list <|
  Fields.required "authority" .string .nil

/-- A bundle as an object. -/
def bundle : Codec PortableFederationBundle :=
  (Codec.record bundleFields (by decide)).iso
    (fun (schema, protocol, exporterNode, createdAt, peers, objects, authority, ()) =>
      { schema, protocol, exporterNode, createdAt, peers, objects, authority })
    (fun value =>
      (value.schema, value.protocol, value.exporterNode, value.createdAt, value.peers,
        value.objects, value.authority, ()))
    fun _ => rfl

end Codecs

namespace Bundle

/-- The schema of bundles. -/
def federationBundleSchemaV1 : String := "qsol-fed-bundle/1"

/-- How many peers a bundle has at most. -/
def maxBundlePeers : Nat := 256

/-- How many attributions a bundle has at most. -/
def maxBundleObjects : Nat := 1024

/-- How many bytes a bundle has at most. -/
def maxBundleBytes : Nat := 65536

/-- How many hexadecimal digits an embedded value has at most. -/
def maxBundleEmbeddedHexChars : Nat := 8192

variable (primitives : Primitives)

/-- The canonical bytes of data. -/
def canonicalStruct (value : Value String) : Except BundleError ByteArray :=
  (canonicalize primitives.unicode (writtenBytes value)).mapError .canonical

/-- The bytes are canonical. -/
def requireExactCanonical (raw : ByteArray) : Except BundleError Unit := do
  let canonical ← (canonicalize primitives.unicode raw).mapError .canonical
  ensure (canonical = raw) (.code "bundle_embedded_bytes_not_canonical")

/-- The reference to bytes. -/
def objectId (raw : ByteArray) : Except BundleError String :=
  (Digest.objectId primitives raw).mapError .canonical

/-- A timestamp of the wire that names a second. -/
def validTimestamp (value : String) : Bool := Peering.validTimestamp value

/-- Embedded bytes as hexadecimal text. -/
def encodeHex (bytes : ByteArray) : Except BundleError String := do
  ensure (bytes.size * 2 ≤ maxBundleEmbeddedHexChars) (.code "bundle_embedded_value_too_large")
  pure (Digest.lowercaseHex bytes.data.toList)

/-- The embedded bytes of a hexadecimal text. -/
def decodeHex (value : String) : Except BundleError ByteArray := do
  let text := Text.bytes value
  ensure (text ≠ [] ∧ text.length ≤ maxBundleEmbeddedHexChars ∧ text.length % 2 = 0 ∧
    text.all Wire.isLowerHex) (.code "bundle_hex_invalid_or_oversized")
  pure ⟨(Digest.fromHex text).toArray⟩

/-- The embedded bytes of a hexadecimal text that must be canonical. -/
def decodeCanonical (value : String) : Except BundleError ByteArray := do
  let bytes ← decodeHex value
  requireExactCanonical primitives bytes
  pure bytes

/-! ## Verification -/

/-- The bytes of a bundle as data. -/
def parse (raw : ByteArray) : Except BundleError PortableFederationBundle :=
  okOr (fromSlice Codecs.bundle raw) (.schema "bundle_schema")

/-- The document in embedded bytes. -/
def parseIdentity (bytes : ByteArray) : Except BundleError NodeIdentityDocument :=
  okOr (fromSlice Codecs.identity bytes) (.schema "bundle_identity_schema")

/-- The lifecycle record in embedded bytes. -/
def parseLifecycleRecord (bytes : ByteArray) : Except BundleError PeerLifecycleRecord :=
  okOr (fromSlice Codecs.lifecycleRecord bytes) (.schema "bundle_lifecycle_schema")

/-- The advertisement in embedded bytes. -/
def parseAdvertisement (bytes : ByteArray) : Except BundleError CapabilityAdvertisement :=
  okOr (fromSlice Codecs.advertisement bytes) (.schema "bundle_capability_schema")

/-- The provenance in embedded bytes. -/
def parseProvenance (bytes : ByteArray) : Except BundleError ProvenanceObject :=
  okOr (fromSlice Codecs.provenance bytes) (.schema "bundle_provenance_schema")

/-- The advertisement of a peer in a bundle is signed by its identity. -/
def verifyAdvertisement (identity : IdentityState) : Option String → Except BundleError Unit
  | none => pure ()
  | some encoded => do
    let bytes ← decodeCanonical primitives encoded
    let advertisement ← parseAdvertisement bytes
    (Peering.verifyCapabilityAdvertisementSignature primitives advertisement identity).mapError
      .peering

/-- A peer in a bundle is what its document and its lifecycle records say. -/
def verifyPeer (seen : List String) (peer : BundlePeer) : Except BundleError (List String) := do
  ensure (Wire.isNodeId peer.nodeId ∧ peer.nodeId ∉ seen)
    (.code "bundle_peer_identity_invalid_or_duplicate")
  let identityBytes ← decodeCanonical primitives peer.identityHex
  let identity ← parseIdentity identityBytes
  ensure (identity.nodeId = peer.nodeId) (.code "bundle_identity_node_mismatch")
  ensure (peer.lifecycleHex.length ≤ Peering.maxPeerLifecycleRecords)
    (.code "bundle_lifecycle_too_large")
  let lifecycle ← peer.lifecycleHex.mapM fun encoded => do
    let bytes ← decodeCanonical primitives encoded
    parseLifecycleRecord bytes
  let state ← (Peering.rebuildPeerIdentity primitives identity lifecycle).mapError .peering
  verifyAdvertisement primitives state peer.capabilityAdvertisementHex
  pure (seen ++ [peer.nodeId])

/-- The provenance of an attribution in a bundle is one of its object. -/
def verifyProvenance (object : BundleObject) :
    Option String → Option String → Except BundleError Unit
  | some provenanceId, some encoded => do
    ensure (Wire.isSha256Ref provenanceId) (.code "bundle_provenance_id_invalid")
    let bytes ← decodeCanonical primitives encoded
    let derived ← objectId primitives bytes
    ensure (derived = provenanceId) (.code "bundle_provenance_hash_mismatch")
    let provenance ← parseProvenance bytes
    ensure (FederationObjectStore.provenanceValid provenance ∧
      provenance.sourceNode = object.sourceNode ∧ provenance.sourceObject = object.objectId)
      (.code "bundle_provenance_identity_mismatch")
  | _, _ => pure ()

/-- What tells attributions in a bundle apart. -/
def attributionKey (object : BundleObject) : String × String × Option String :=
  (object.objectId, object.sourceNode, object.provenanceId)

/-- An attribution in a bundle is one of the object that it holds. -/
def verifyObject (seen : List (String × String × Option String)) (object : BundleObject) :
    Except BundleError (List (String × String × Option String)) := do
  ensure (Wire.isSha256Ref object.objectId ∧ Wire.isNodeId object.sourceNode ∧
    attributionKey object ∉ seen ∧ object.provenanceId.isSome = object.provenanceHex.isSome)
    (.code "bundle_object_attribution_invalid_or_duplicate")
  let bytes ← decodeCanonical primitives object.objectHex
  let derived ← objectId primitives bytes
  ensure (derived = object.objectId) (.code "bundle_object_hash_mismatch")
  verifyProvenance primitives object object.provenanceId object.provenanceHex
  pure (seen ++ [attributionKey object])

/-- A bundle is well formed, signed and complete. -/
def verifyBundle (raw : ByteArray) : Except BundleError BundleVerificationReport := do
  ensure (raw.size ≤ maxBundleBytes) (.code "bundle_too_large")
  requireExactCanonical primitives raw
  let bundle ← parse raw
  ensure (bundle.schema = federationBundleSchemaV1 ∧ bundle.protocol = protocolV1 ∧
    Wire.isNodeId bundle.exporterNode ∧ validTimestamp bundle.createdAt ∧
    bundle.authority = "none" ∧ bundle.peers.length ≤ maxBundlePeers ∧
    bundle.objects.length ≤ maxBundleObjects) (.code "bundle_shape_invalid")
  let _ ← bundle.peers.foldlM (verifyPeer primitives) []
  let _ ← bundle.objects.foldlM (verifyObject primitives) []
  let bundleId ← objectId primitives raw
  pure
    { bundleId := bundleId
      peerCount := bundle.peers.length
      objectCount := bundle.objects.length
      authority := "none"
      networkRequired := false }

/-! ## Export -/

/-- Canonical bytes of data as hexadecimal text. -/
def embed (value : Value String) : Except BundleError String := do
  let bytes ← canonicalStruct primitives value
  encodeHex bytes

/-- A value that may be absent as hexadecimal text. -/
def embedOption {α : Type} (codec : Codec α) : Option α → Except BundleError (Option String)
  | none => pure none
  | some value => some <$> embed primitives (codec.encode value)

/-- The record of a peer in a bundle. -/
def peerEntry (record : PeerRecord) : Except BundleError BundlePeer := do
  let identityHex ← embed primitives (Codecs.identity.encode record.identity)
  let lifecycleHex ← record.lifecycle.mapM fun value =>
    embed primitives (Codecs.lifecycleRecord.encode value)
  let capabilityAdvertisementHex ←
    embedOption primitives Codecs.advertisement record.capabilityAdvertisement
  pure
    { nodeId := record.nodeId
      identityHex := identityHex
      lifecycleHex := lifecycleHex
      capabilityAdvertisementHex := capabilityAdvertisementHex
      exportedState := record.state }

/-- The selected peers. -/
def exportPeers (peers : PeerRegistry) : (seen peerIds : List String) →
    Except BundleError (List BundlePeer)
  | _, [] => pure []
  | seen, nodeId :: rest => do
    ensure (nodeId ∉ seen) (.code "bundle_duplicate_peer_selection")
    let found ← (peers.get primitives nodeId).mapError .peering
    let record ← okOr found (.code "bundle_peer_not_found")
    let entry ← peerEntry primitives record
    let others ← exportPeers peers (seen ++ [nodeId]) rest
    pure (entry :: others)

/-- The provenance of an attribution in a bundle. -/
def exportProvenance (store : FederationObjectStore) :
    Option String → Except BundleError (Option String × Option String)
  | none => pure (none, none)
  | some provenanceId => do
    let found ← (store.provenanceBytes primitives provenanceId).mapError .store
    let bytes ← okOr found (.code "bundle_provenance_bytes_missing")
    let text ← encodeHex bytes
    pure (some provenanceId, some text)

/-- The attributions of an object, after the attributions before it. -/
def exportRecords (store : FederationObjectStore) (objectHex : String) (entries : List BundleObject) :
    List (ForeignNamespace × ForeignObjectRecord) → Except BundleError (List BundleObject)
  | [] => pure entries
  | (placement, record) :: rest => do
    let (provenanceId, provenanceHex) ← exportProvenance primitives store record.provenanceId
    let longer := entries ++ [
      { objectId := record.objectId
        sourceNode := record.sourceNode
        exportedNamespace := placement
        objectHex := objectHex
        provenanceId := provenanceId
        provenanceHex := provenanceHex }]
    ensure (longer.length ≤ maxBundleObjects) (.code "bundle_expanded_object_limit")
    exportRecords store objectHex longer rest

/-- The attributions of the selected objects, after the attributions before them. -/
def exportObjects (store : FederationObjectStore) (entries : List BundleObject) :
    (selected objectIds : List String) → Except BundleError (List BundleObject)
  | _, [] => pure entries
  | selected, objectRef :: rest => do
    ensure (objectRef ∉ selected) (.code "bundle_duplicate_object_selection")
    let records ← (store.foreignRecords primitives objectRef).mapError .store
    ensure (records ≠ []) (.code "bundle_foreign_object_not_found")
    let found ← (store.objectBytes primitives objectRef).mapError .store
    let bytes ← okOr found (.code "bundle_object_bytes_missing")
    let objectHex ← encodeHex bytes
    let longer ← exportRecords primitives store objectHex entries records
    exportObjects store longer (selected ++ [objectRef]) rest

/-- What attributions in a bundle are sorted by. -/
def objectOrder (object : BundleObject) : String ×ₗ String ×ₗ WithBot String :=
  toLex (object.objectId, toLex (object.sourceNode, object.provenanceId))

/-- Make a bundle of peers and foreign objects. -/
def exportBundle (store : FederationObjectStore) (peers : PeerRegistry)
    (exporterNode createdAt : String) (peerIds objectIds : List String) :
    Except BundleError ByteArray := do
  ensure (Wire.isNodeId exporterNode ∧ validTimestamp createdAt)
    (.code "bundle_exporter_or_time_invalid")
  ensure (peerIds.length ≤ maxBundlePeers ∧ objectIds.length ≤ maxBundleObjects)
    (.code "bundle_selection_too_large")
  let peerEntries ← exportPeers primitives peers [] peerIds
  let objectEntries ← exportObjects primitives store [] [] objectIds
  let bundle : PortableFederationBundle :=
    { schema := federationBundleSchemaV1
      protocol := protocolV1
      exporterNode := exporterNode
      createdAt := createdAt
      peers := sortBy BundlePeer.nodeId peerEntries
      objects := sortBy objectOrder objectEntries
      authority := "none" }
  let bytes ← canonicalStruct primitives (Codecs.bundle.encode bundle)
  ensure (bytes.size ≤ maxBundleBytes) (.code "bundle_too_large")
  let _ ← verifyBundle primitives bytes
  pure bytes

end Bundle

/-! ## Import -/

/-- The registry and the store of a node. -/
structure Federation where
  /-- The peers. -/
  peers : PeerRegistry
  /-- The objects. -/
  store : FederationObjectStore
  deriving DecidableEq

namespace Federation

/-- The node with its registry replaced. -/
def withPeers (peers : PeerRegistry) (node : Federation) : Federation := { node with peers := peers }

/-- The node with its store replaced. -/
def withStore (store : FederationObjectStore) (node : Federation) : Federation :=
  { node with store := store }

/-- A computation over the registry. -/
def onPeers {α : Type} (computation : Effect PeerRegistry PeeringError α) :
    Effect Federation BundleError α := computation.within peers withPeers .peering

/-- A computation over the store. -/
def onStore {α : Type} (computation : Effect FederationObjectStore StoreError α) :
    Effect Federation BundleError α := computation.within store withStore .store

end Federation

namespace Bundle

variable (primitives : Primitives)

/-- Attach the advertisement of a new peer. -/
def importAdvertisement (nodeId importedAt : String) :
    Option String → Effect Federation BundleError PUnit
  | none => pure ⟨⟩
  | some encoded => do
    let bytes ← Effect.check (decodeHex encoded)
    let advertisement ← Effect.check (parseAdvertisement bytes)
    let _ ← Federation.onPeers <| Effect.atomic <|
      PeerRegistry.attachArchivalCapabilityAdvertisement primitives nodeId advertisement importedAt
    pure ⟨⟩

/-- Import a peer of a bundle. -/
def importPeer (importedAt : String) (peer : BundlePeer) : Effect Federation BundleError PUnit := do
  let identityBytes ← Effect.check (decodeHex peer.identityHex)
  let identity ← Effect.check (parseIdentity identityBytes)
  let lifecycle ← Effect.check (peer.lifecycleHex.mapM fun encoded => do
    let bytes ← decodeHex encoded
    parseLifecycleRecord bytes)
  let existed ← Federation.onPeers <| Effect.read fun registry =>
    (registry.get primitives identity.nodeId).map Option.isSome
  let _ ← Federation.onPeers <|
    PeerRegistry.importQuarantined primitives identity lifecycle importedAt
  if existed then pure ⟨⟩
  else importAdvertisement primitives identity.nodeId importedAt peer.capabilityAdvertisementHex

/-- The embedded bytes of a hexadecimal text, if there is one. -/
def decodeOption : Option String → Except BundleError (Option ByteArray)
  | none => pure none
  | some encoded => some <$> decodeHex encoded

/-- Import an attribution of a bundle. -/
def importObject (importedAt : String) (object : BundleObject) :
    Effect Federation BundleError PUnit := do
  let objectBytes ← Effect.check (decodeHex object.objectHex)
  let provenanceBytes ← Effect.check (decodeOption object.provenanceHex)
  let _ ← Federation.onStore <| FederationObjectStore.putForeign primitives object.sourceNode
    objectBytes provenanceBytes .quarantine importedAt
  pure ⟨⟩

/-- Import a bundle. -/
def importBundle (raw : ByteArray) (importedAt : String) :
    Effect Federation BundleError BundleImportReceipt := do
  Effect.check (ensure (validTimestamp importedAt) (.code "bundle_import_time_invalid"))
  let report ← Effect.check (verifyBundle primitives raw)
  let bundle ← Effect.check (parse raw)
  let _ ← Effect.forEach (importPeer primitives importedAt) bundle.peers
  let _ ← Effect.forEach (importObject primitives importedAt) bundle.objects
  pure
    { bundleId := report.bundleId
      peersImported := report.peerCount
      objectsImported := report.objectCount
      placement := "new_material_quarantined_existing_state_preserved"
      authority := "none"
      trustChanged := false }

end Bundle

end QsolFed
