import QsolFed.Bundle.Embedded

/-!
# Verified bundles

What the verification of a bundle establishes: each peer has a document, a lifecycle and an
advertisement that verify, each attribution holds an object and a provenance that the store
accepts, and no peer and no attribution comes twice.
-/
namespace QsolFed.Bundle

open Checked Json Canonical FederationObjectStore

variable {primitives : Primitives}

/-! ## Checks -/

/-- Bytes are canonical when canonicalising them changes nothing. -/
theorem requireExactCanonical_ok_iff (raw : ByteArray) :
    requireExactCanonical primitives raw = .ok () ↔
      canonicalize primitives.unicode raw = .ok raw := by
  simp only [requireExactCanonical, bind_ok_iff, mapError_ok_iff, ensure_ok_iff]
  constructor
  · rintro ⟨canonical, accepted, rfl⟩
    exact accepted
  · intro accepted
    exact ⟨raw, accepted, rfl⟩

/-- The bundle and the store agree on what is canonical. -/
theorem canonical_iff (raw : ByteArray) : requireExactCanonical primitives raw = .ok () ↔
    FederationObjectStore.requireExactCanonical primitives raw = .ok () := by
  rw [requireExactCanonical_ok_iff, FederationObjectStore.requireExactCanonical_ok_iff]

/-- The reference to canonical bytes is their digest. -/
theorem objectId_of_canonical {raw : ByteArray}
    (canonical : requireExactCanonical primitives raw = .ok ()) :
    objectId primitives raw = .ok (Digest.sha256Ref primitives raw) := by
  have accepted := (requireExactCanonical_ok_iff raw).mp canonical
  simp only [objectId, Digest.objectId, accepted, bind_ok]
  rfl

/-- Canonical bytes are decoded when they are decoded and canonical. -/
theorem decodeCanonical_ok_iff (value : String) (bytes : ByteArray) :
    decodeCanonical primitives value = .ok bytes ↔
      decodeHex value = .ok bytes ∧ requireExactCanonical primitives bytes = .ok () := by
  simp only [decodeCanonical, bind_ok_iff, pure_ok_iff]
  constructor
  · rintro ⟨decoded, here, ⟨⟩, canonical, rfl⟩
    exact ⟨here, canonical⟩
  · rintro ⟨here, canonical⟩
    exact ⟨bytes, here, ⟨⟩, canonical, rfl⟩

/-! ## Peers -/

/-- What a bundle holds of a peer. -/
structure Material where
  /-- The document. -/
  identity : NodeIdentityDocument
  /-- The lifecycle records in order. -/
  lifecycle : List PeerLifecycleRecord
  /-- The advertisement. -/
  advertisement : Option CapabilityAdvertisement

/-- Embedded data that is canonical. -/
def Embeds (primitives : Primitives) {α : Type} (codec : Codec α) (value : String) (data : α) :
    Prop :=
  ∃ bytes, decodeHex value = .ok bytes ∧ requireExactCanonical primitives bytes = .ok () ∧
    fromSlice codec bytes = some data

/-- Embedded data is not ambiguous. -/
theorem Embeds.unique {α : Type} {codec : Codec α} {value : String} {one two : α}
    (first : Embeds primitives codec value one) (second : Embeds primitives codec value two) :
    one = two := by
  obtain ⟨left, leftDecoded, -, leftRead⟩ := first
  obtain ⟨right, rightDecoded, -, rightRead⟩ := second
  rw [leftDecoded] at rightDecoded
  obtain rfl := Except.ok.inj rightDecoded
  exact Option.some.inj (leftRead.symm.trans rightRead)

/-- Everything that is verified of a peer in a bundle. -/
structure PeerVerified (primitives : Primitives) (peer : BundlePeer) (material : Material)
    (state : IdentityState) : Prop where
  /-- The peer is a node. -/
  node : Wire.isNodeId peer.nodeId = true
  /-- Its document is embedded. -/
  identity : Embeds primitives Codecs.identity peer.identityHex material.identity
  /-- The document is its own. -/
  same : material.identity.nodeId = peer.nodeId
  /-- Its lifecycle is not too long. -/
  few : peer.lifecycleHex.length ≤ Peering.maxPeerLifecycleRecords
  /-- Its lifecycle is embedded. -/
  lifecycle : List.Forall₂ (Embeds primitives Codecs.lifecycleRecord) peer.lifecycleHex
    material.lifecycle
  /-- The document and the lifecycle lead to an identity. -/
  rebuilt : Peering.rebuildPeerIdentity primitives material.identity material.lifecycle = .ok state
  /-- Its advertisement is embedded. -/
  advertisement : Option.Rel (Embeds primitives Codecs.advertisement)
    peer.capabilityAdvertisementHex material.advertisement
  /-- Its advertisement is signed by the identity. -/
  signed : ∀ advertisement ∈ material.advertisement,
    Peering.AdvertisementVerified primitives advertisement state

/-- Embedded data is what is decoded, checked and parsed. -/
theorem embeds_iff {α : Type} (codec : Codec α) (value : String) (data : α) (stage : BundleError) :
    (∃ bytes, decodeCanonical primitives value = .ok bytes ∧
      okOr (fromSlice codec bytes) stage = .ok data) ↔ Embeds primitives codec value data := by
  simp only [decodeCanonical_ok_iff, okOr_ok_iff, Embeds, and_assoc]

/-- An advertisement in a bundle is verified when it is embedded and signed. -/
theorem verifyAdvertisement_ok_iff (state : IdentityState) (encoded : Option String) :
    verifyAdvertisement primitives state encoded = .ok () ↔ ∃ advertisement,
      Option.Rel (Embeds primitives Codecs.advertisement) encoded advertisement ∧
      ∀ signed ∈ advertisement, Peering.AdvertisementVerified primitives signed state := by
  cases encoded with
  | none =>
    constructor
    · intro _
      exact ⟨none, .none, nofun⟩
    · intro _
      rfl
  | some encoded =>
    simp only [verifyAdvertisement, bind_ok_iff, mapError_ok_iff,
      Peering.verifyCapabilityAdvertisementSignature_iff]
    constructor
    · rintro ⟨bytes, decoded, advertisement, parsed, verified⟩
      have embedded := (embeds_iff ..).mp ⟨bytes, decoded, parsed⟩
      refine ⟨some advertisement, .some embedded, fun other present => ?_⟩
      cases present
      exact verified
    · rintro ⟨_, related, verified⟩
      cases related with
      | some embedded =>
        obtain ⟨bytes, decoded, parsed⟩ := (embeds_iff _ _ _ _).mpr embedded
        exact ⟨bytes, decoded, _, parsed, verified _ rfl⟩

/-- A peer in a bundle is verified when it is new and everything of it verifies. -/
theorem verifyPeer_ok_iff (seen next : List String) (peer : BundlePeer) :
    verifyPeer primitives seen peer = .ok next ↔ peer.nodeId ∉ seen ∧
      (∃ material state, PeerVerified primitives peer material state) ∧
      next = seen ++ [peer.nodeId] := by
  have lifecycles : ∀ lifecycle, (peer.lifecycleHex.mapM fun encoded => do
        let bytes ← decodeCanonical primitives encoded
        parseLifecycleRecord bytes) = .ok lifecycle ↔
      List.Forall₂ (Embeds primitives Codecs.lifecycleRecord) peer.lifecycleHex lifecycle := by
    intro lifecycle
    simp only [mapM_ok_iff, bind_ok_iff, parseLifecycleRecord, embeds_iff]
  simp only [verifyPeer, bind_ok_iff, ensure_ok_iff, exists_const, pure_ok_iff, mapError_ok_iff,
    parseIdentity, okOr_ok_iff, decodeCanonical_ok_iff]
  constructor
  · rintro ⟨⟨node, fresh⟩, bytes, decoded, identity, parsed, same, few, lifecycle, read, state,
      rebuilt, ⟨⟩, advertised, rfl⟩
    obtain ⟨advertisement, related, signed⟩ := (verifyAdvertisement_ok_iff ..).mp advertised
    exact ⟨fresh, ⟨⟨identity, lifecycle, advertisement⟩, state, node, ⟨bytes, decoded.1, decoded.2,
      parsed⟩, same, few, (lifecycles _).mp read, rebuilt, related, signed⟩, rfl⟩
  · rintro ⟨fresh, ⟨material, state, verified⟩, rfl⟩
    obtain ⟨bytes, decoded, canonical, parsed⟩ := verified.identity
    exact ⟨⟨verified.node, fresh⟩, bytes, ⟨decoded, canonical⟩, material.identity, parsed,
      verified.same, verified.few, material.lifecycle, (lifecycles _).mpr verified.lifecycle, state,
      verified.rebuilt, ⟨⟩, (verifyAdvertisement_ok_iff ..).mpr ⟨_, verified.advertisement,
        verified.signed⟩, rfl⟩

/-! ## Objects -/

/-- Everything that is verified of an attribution in a bundle. -/
structure ObjectVerified (primitives : Primitives) (object : BundleObject)
    (observation : Observation) : Prop where
  /-- The store accepts it. -/
  accepted : observation.Accepted primitives
  /-- It comes from its source. -/
  source : observation.sourceNode = object.sourceNode
  /-- Its object is embedded. -/
  bytes : decodeHex object.objectHex = .ok observation.object
  /-- Its reference is the one of its object. -/
  reference : observation.reference primitives = object.objectId
  /-- Its provenance is embedded. -/
  provenance : decodeOption object.provenanceHex = .ok observation.provenance
  /-- Its provenance has its reference. -/
  provenanceId : observation.provenanceId primitives = object.provenanceId

/-- A verified attribution has one object. -/
theorem ObjectVerified.unique {object : BundleObject} {one two : Observation}
    (first : ObjectVerified primitives object one) (second : ObjectVerified primitives object two) :
    one = two := by
  have source := first.source.trans second.source.symm
  have bytes := Except.ok.inj (first.bytes.symm.trans second.bytes)
  have provenance := Except.ok.inj (first.provenance.symm.trans second.provenance)
  cases one
  cases two
  simp only at source bytes provenance
  subst source bytes provenance
  rfl

/-- A provenance in a bundle is verified when the store accepts it under its reference. -/
theorem verifyProvenance_ok_iff (object : BundleObject) (id encoded : String) :
    verifyProvenance primitives object (some id) (some encoded) = .ok () ↔
      ∃ raw, decodeHex encoded = .ok raw ∧ Digest.sha256Ref primitives raw = id ∧
        checkProvenance primitives object.sourceNode object.objectId raw =
          .ok (Digest.sha256Ref primitives raw) := by
  simp only [verifyProvenance, bind_ok_iff, ensure_ok_iff, exists_const, decodeCanonical_ok_iff,
    parseProvenance, okOr_ok_iff, checkProvenance_ok_iff]
  constructor
  · rintro ⟨-, raw, ⟨decoded, canonical⟩, derived, identified, same, provenance, parsed, fields⟩
    rw [objectId_of_canonical canonical] at identified
    obtain rfl := Except.ok.inj identified
    exact ⟨raw, decoded, same, (canonical_iff raw).mp canonical, ⟨provenance, parsed, fields⟩,
      trivial⟩
  · rintro ⟨raw, decoded, rfl, canonical, ⟨provenance, parsed, fields⟩, -⟩
    have exact_ := (canonical_iff raw).mpr canonical
    exact ⟨isSha256Ref_digest primitives raw, raw, ⟨decoded, exact_⟩, _,
      objectId_of_canonical exact_, rfl, provenance, parsed, fields⟩

/-- An attribution in a bundle is verified when it is new and the store accepts what it holds. -/
theorem verifyObject_ok_iff (seen next : List (String × String × Option String))
    (object : BundleObject) : verifyObject primitives seen object = .ok next ↔
      attributionKey object ∉ seen ∧ (∃ observation, ObjectVerified primitives object observation) ∧
      next = seen ++ [attributionKey object] := by
  simp only [verifyObject, bind_ok_iff, ensure_ok_iff, exists_const, pure_ok_iff,
    decodeCanonical_ok_iff]
  constructor
  · rintro ⟨⟨reference, node, fresh, together⟩, raw, ⟨decoded, canonical⟩, derived, identified,
      same, ⟨⟩, proved, rfl⟩
    rw [objectId_of_canonical canonical] at identified
    obtain rfl := Except.ok.inj identified
    refine ⟨fresh, ?_, rfl⟩
    cases given : object.provenanceId with
    | none =>
      cases absent : object.provenanceHex with
      | some _ =>
        rw [given, absent] at together
        cases together
      | none =>
        exact ⟨⟨object.sourceNode, raw, none⟩,
          ⟨node, (canonical_iff raw).mp canonical, fun _ member => by cases member⟩, rfl, decoded,
          same, by rw [absent]; rfl, given.symm⟩
    | some id =>
      cases present : object.provenanceHex with
      | none =>
        rw [given, present] at together
        cases together
      | some encoded =>
        rw [given, present] at proved
        obtain ⟨provenance, read, rfl, checked⟩ := (verifyProvenance_ok_iff ..).mp proved
        refine ⟨⟨object.sourceNode, raw, some provenance⟩, ⟨node, (canonical_iff raw).mp canonical,
          fun other member => ?_⟩, rfl, decoded, same, ?_, given.symm⟩
        · cases member
          change checkProvenance primitives object.sourceNode (Digest.sha256Ref primitives raw)
            provenance = _
          rw [same]
          exact checked
        · rw [present, decodeOption, read]
          rfl
  · rintro ⟨fresh, ⟨observation, verified⟩, rfl⟩
    have canonical := (canonical_iff observation.object).mpr verified.accepted.canonical
    have reference : Wire.isSha256Ref object.objectId = true :=
      verified.reference ▸ observation.reference_shape primitives
    have node : Wire.isNodeId object.sourceNode = true := verified.source ▸ verified.accepted.node
    have provenance := verified.provenance
    have id := verified.provenanceId
    have each := verified.accepted.provenance
    rw [verified.source, verified.reference] at each
    cases hex : object.provenanceHex with
    | none =>
      rw [hex] at provenance
      have absent : none = observation.provenance := Except.ok.inj provenance
      rw [Observation.provenanceId, ← absent] at id
      refine ⟨⟨reference, node, fresh, by rw [← id]; rfl⟩, _, ⟨verified.bytes, canonical⟩, _,
        objectId_of_canonical canonical, verified.reference, ⟨⟩, ?_, rfl⟩
      rw [← id]
      rfl
    | some encoded =>
      rw [hex] at provenance
      obtain ⟨raw, decoded, present⟩ := (map_ok_iff ..).mp provenance
      rw [Observation.provenanceId, ← present] at id
      refine ⟨⟨reference, node, fresh, by rw [← id]; rfl⟩, _, ⟨verified.bytes, canonical⟩, _,
        objectId_of_canonical canonical, verified.reference, ⟨⟩, ?_, rfl⟩
      rw [← id]
      exact (verifyProvenance_ok_iff ..).mpr ⟨raw, decoded, rfl, each raw present.symm⟩

/-! ## Bundles -/

/-- Everything that is verified of a bundle. -/
structure BundleVerified (primitives : Primitives) (raw : ByteArray)
    (bundle : PortableFederationBundle) : Prop where
  /-- The bundle is not too large. -/
  short : raw.size ≤ maxBundleBytes
  /-- Its bytes are canonical. -/
  canonical : requireExactCanonical primitives raw = .ok ()
  /-- They hold the bundle. -/
  parsed : fromSlice Codecs.bundle raw = some bundle
  /-- Its schema, its protocol, its exporter, its time, its authority and its counts. -/
  shape : bundle.schema = federationBundleSchemaV1 ∧ bundle.protocol = protocolV1 ∧
    Wire.isNodeId bundle.exporterNode = true ∧ validTimestamp bundle.createdAt = true ∧
    bundle.authority = "none" ∧ bundle.peers.length ≤ maxBundlePeers ∧
    bundle.objects.length ≤ maxBundleObjects
  /-- Each peer verifies. -/
  peers : ∀ peer ∈ bundle.peers, ∃ material state, PeerVerified primitives peer material state
  /-- No peer comes twice. -/
  distinctPeers : (bundle.peers.map BundlePeer.nodeId).Nodup
  /-- Each attribution verifies. -/
  objects : ∀ object ∈ bundle.objects, ∃ observation,
    ObjectVerified primitives object observation
  /-- No attribution comes twice. -/
  distinctObjects : (bundle.objects.map attributionKey).Nodup

/-- What is reported of a bundle. -/
def reportOf (primitives : Primitives) (raw : ByteArray) (bundle : PortableFederationBundle) :
    BundleVerificationReport :=
  { bundleId := Digest.sha256Ref primitives raw
    peerCount := bundle.peers.length
    objectCount := bundle.objects.length
    authority := "none"
    networkRequired := false }

/-- A bundle is verified exactly when everything of it verifies. -/
theorem verifyBundle_ok_iff (raw : ByteArray) (report : BundleVerificationReport) :
    verifyBundle primitives raw = .ok report ↔
      ∃ bundle, BundleVerified primitives raw bundle ∧ report = reportOf primitives raw bundle := by
  have peers : ∀ bundle : PortableFederationBundle, ∀ seen : List String,
      bundle.peers.foldlM (verifyPeer primitives) [] = .ok seen ↔
      (∀ peer ∈ bundle.peers, ∃ material state, PeerVerified primitives peer material state) ∧
      (bundle.peers.map BundlePeer.nodeId).Nodup ∧ seen = bundle.peers.map BundlePeer.nodeId :=
    fun bundle seen => foldlM_fresh_iff BundlePeer.nodeId
      (fun seen peer next => verifyPeer_ok_iff seen next peer) bundle.peers List.nodup_nil seen
  have objects : ∀ bundle : PortableFederationBundle,
      ∀ seen : List (String × String × Option String),
      bundle.objects.foldlM (verifyObject primitives) [] = .ok seen ↔
      (∀ object ∈ bundle.objects, ∃ observation, ObjectVerified primitives object observation) ∧
      (bundle.objects.map attributionKey).Nodup ∧ seen = bundle.objects.map attributionKey :=
    fun bundle seen => foldlM_fresh_iff attributionKey
      (fun seen object next => verifyObject_ok_iff seen next object) bundle.objects List.nodup_nil
      seen
  simp only [verifyBundle, bind_ok_iff, ensure_ok_iff, exists_const, pure_ok_iff, parse,
    okOr_ok_iff, peers, objects]
  constructor
  · rintro ⟨short, ⟨⟩, canonical, bundle, parsed, shape, _, ⟨each, distinct, -⟩, _,
      ⟨every, apart, -⟩, bundleId, identified, rfl⟩
    rw [objectId_of_canonical canonical] at identified
    obtain rfl := Except.ok.inj identified
    exact ⟨bundle, ⟨short, canonical, parsed, shape, each, distinct, every, apart⟩, rfl⟩
  · rintro ⟨bundle, verified, rfl⟩
    exact ⟨verified.short, ⟨⟩, verified.canonical, bundle, verified.parsed, verified.shape, _,
      ⟨verified.peers, verified.distinctPeers, rfl⟩, _,
      ⟨verified.objects, verified.distinctObjects, rfl⟩, _,
      objectId_of_canonical verified.canonical, rfl⟩

end QsolFed.Bundle
