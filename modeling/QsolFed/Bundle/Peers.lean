import QsolFed.Bundle.Size

/-!
# Imported peers

What the import of a verified peer does to any registry. A new peer becomes known with its
lifecycle and its advertisement, quarantined; a peer that is known keeps its state and at most
shows a longer lifecycle; and a refusal changes nothing.
-/
namespace QsolFed.Bundle

open Checked Json Canonical Peering PeerRegistry

variable {primitives : Primitives}

variable (primitives) in
/-- Import what a bundle holds of a peer into a registry. -/
def importMaterial (importedAt : String) (material : Material) :
    Effect PeerRegistry PeeringError PUnit := do
  let existed ← Effect.read fun registry =>
    (registry.get primitives material.identity.nodeId).map Option.isSome
  let _ ← importQuarantined primitives material.identity material.lifecycle importedAt
  if existed then pure ⟨⟩
  else match material.advertisement with
    | none => pure ⟨⟩
    | some advertisement => do
      let _ ← Effect.atomic <| attachArchivalCapabilityAdvertisement primitives
        material.identity.nodeId advertisement importedAt
      pure ⟨⟩

/-- The import of a verified peer imports what the bundle holds of it. -/
theorem importPeer_eq {peer : BundlePeer} {material : Material} {state : IdentityState}
    (verified : PeerVerified primitives peer material state) (importedAt : String) :
    importPeer primitives importedAt peer =
      Federation.onPeers (importMaterial primitives importedAt material) := by
  obtain ⟨bytes, decoded, -, read⟩ := verified.identity
  have identity : parseIdentity bytes = .ok material.identity := by
    rw [parseIdentity, read]
    rfl
  have lifecycle : (peer.lifecycleHex.mapM fun encoded => do
      let bytes ← decodeHex encoded
      parseLifecycleRecord bytes) = .ok material.lifecycle := by
    refine (mapM_ok_iff ..).mpr (verified.lifecycle.imp fun text record embedded => ?_)
    obtain ⟨raw, here, -, parsed⟩ := embedded
    rw [here, bind_ok, parseLifecycleRecord, parsed]
    rfl
  have advertisement : importAdvertisement primitives material.identity.nodeId importedAt
      peer.capabilityAdvertisementHex = Federation.onPeers
        (match material.advertisement with
        | none => pure ⟨⟩
        | some advertisement => do
          let _ ← Effect.atomic <| attachArchivalCapabilityAdvertisement primitives
            material.identity.nodeId advertisement importedAt
          pure ⟨⟩) := by
    have related := verified.advertisement
    generalize material.advertisement = found at related ⊢
    generalize peer.capabilityAdvertisementHex = encoded at related ⊢
    cases related with
    | none => rfl
    | @some text advertised embedded =>
      obtain ⟨raw, here, -, parsed⟩ := embedded
      have value : parseAdvertisement raw = .ok advertised := by
        rw [parseAdvertisement, parsed]
        rfl
      simp only [importAdvertisement, here, value, Effect.check_ok_bind, Federation.onPeers,
        Effect.within_bind]
      rfl
  simp only [importPeer, decoded, identity, lifecycle, advertisement, Effect.check_ok_bind]
  simp only [importMaterial, Federation.onPeers, Effect.within_bind]
  congr 1
  funext existed
  congr 1
  funext _
  cases existed <;> rfl

/-! ## New peers -/

/-- What is known of the data of a peer that is imported. -/
structure Importable (primitives : Primitives) (material : Material) (state : IdentityState)
    (fingerprint : String) : Prop where
  /-- The lifecycle is not too long. -/
  few : material.lifecycle.length ≤ maxPeerLifecycleRecords
  /-- The document and the lifecycle lead to the identity. -/
  rebuilt : rebuildPeerIdentity primitives material.identity material.lifecycle = .ok state
  /-- They have the fingerprint. -/
  fingerprint : identityFingerprint primitives material.identity material.lifecycle =
    .ok fingerprint
  /-- The advertisement is signed by the identity. -/
  signed : ∀ advertisement ∈ material.advertisement,
    AdvertisementVerified primitives advertisement state
  /-- A record of all of this fits. -/
  fits : writtenSize (Codecs.identity.encode material.identity) +
    writtenSize (Codecs.lifecycleRecord.list.encode material.lifecycle) +
    writtenSize (Codecs.nullableAdvertisement.encode material.advertisement) + 632 ≤ maxInputBytes

/-- A peer of a verified bundle can be imported. -/
theorem PeerVerified.importable {peer : BundlePeer} {material : Material} {state : IdentityState}
    (verified : PeerVerified primitives peer material state)
    (small : writtenSize (Codecs.bundlePeer.encode peer) ≤ maxBundleBytes + 98) :
    ∃ fingerprint, Importable primitives material state fingerprint := by
  have few : material.lifecycle.length ≤ maxPeerLifecycleRecords :=
    verified.lifecycle.length_eq ▸ verified.few
  have fits := verified.fits small
  have size : writtenSize (fingerprintSnapshot material.identity material.lifecycle) ≤
      maxInputBytes := by
    have names : weigh Char.utf8Size (printText "identity") = 10 ∧
        weigh Char.utf8Size (printText "lifecycle") = 11 := by decide
    rw [fingerprintSnapshot, writtenSize_object]
    simp only [List.map_cons, List.map_nil, List.sum_cons, List.sum_nil, memberSize, names,
      List.length_cons, List.length_nil]
    omega
  obtain ⟨fingerprint, computed⟩ :=
    (identityFingerprint_iff (rebuilt_of_ok verified.rebuilt) few).mpr size
  exact ⟨fingerprint, few, verified.rebuilt, computed, verified.signed, fits⟩

/-- The record of a new peer that is quarantined. -/
def quarantinedRecord (material : Material) (importedAt fingerprint : String) (sequence : UInt64) :
    PeerRecord :=
  transitionedRecord (introducedRecord material.identity material.lifecycle none importedAt
    fingerprint sequence) .quarantined importedAt

/-- The record that the import of a new peer leaves. -/
def importedRecord (material : Material) (importedAt fingerprint : String) (sequence : UInt64) :
    PeerRecord :=
  match material.advertisement with
  | none => quarantinedRecord material importedAt fingerprint sequence
  | some advertisement =>
    advertisedRecord (quarantinedRecord material importedAt fingerprint sequence) advertisement
      importedAt

/-- The records that the import of a new peer writes are valid. -/
theorem Importable.valid {material : Material} {state : IdentityState} {fingerprint : String}
    (importable : Importable primitives material state fingerprint) {importedAt : String}
    (received : Peering.validTimestamp importedAt = true) {record : PeerRecord}
    (schema : record.schema = peerRecordSchemaV1) (node : record.nodeId = material.identity.nodeId)
    (identity : record.identity = material.identity)
    (lifecycle : record.lifecycle = material.lifecycle) (authority : record.authority = "none")
    (updated : record.updatedAt = importedAt) (snapshot : record.partitionSnapshot = none)
    (open_ : record.state ≠ .disconnected) (sequence : record.lifecycleSequence = state.sequence)
    (identified : record.identityFingerprint = fingerprint)
    (advertisement : ∀ advertisement ∈ record.capabilityAdvertisement,
      advertisement ∈ material.advertisement) : RecordValid primitives record state where
  schema := schema
  node := node.trans (congrArg _ identity.symm)
  few := lifecycle ▸ importable.few
  authority := authority
  updated := updated ▸ received
  snapshot text present := by
    rw [snapshot] at present
    cases present
  partition closed := absurd closed open_
  identity := by rw [identity, lifecycle, importable.rebuilt]
  sequence := sequence.symm
  fingerprint := by rw [identity, lifecycle, importable.fingerprint, identified]
  advertisement advertisement_ present := importable.signed _ (advertisement _ present)

/-- A record of an imported peer is written. -/
theorem Importable.writes {material : Material} {state : IdentityState} {fingerprint : String}
    (importable : Importable primitives material state fingerprint) {record : PeerRecord}
    (valid : RecordValid primitives record state) (identity : record.identity = material.identity)
    (lifecycle : record.lifecycle = material.lifecycle)
    (advertisement : record.capabilityAdvertisement = none ∨
      record.capabilityAdvertisement = material.advertisement)
    (changes : record.localEventSequence.toNat ≤ 3) (registry : PeerRegistry) :
    ∃ next, registry.writePeer primitives record = .ok next := by
  have limit : safeIntegerMax = 9007199254740991 := rfl
  have size := valid.size_le
  have fits := importable.fits
  rw [identity, lifecycle] at size
  have smaller : writtenSize (Codecs.nullableAdvertisement.encode record.capabilityAdvertisement) ≤
      writtenSize (Codecs.nullableAdvertisement.encode material.advertisement) := by
    rcases advertisement with absent | same
    · rw [absent]
      cases material.advertisement with
      | none => exact le_rfl
      | some value =>
        have null : writtenSize .null = 4 := by
          rw [writtenSize_eq]
          decide
        have large : 4 ≤ writtenSize (Codecs.advertisement.encode value) := by
          change 4 ≤ writtenSize (.object _)
          rw [writtenSize_object]
          simp only [Codecs.advertisementFields, Fields.required, Fields.cons, Fields.nil,
            List.map_cons, List.map_nil, List.sum_cons, List.sum_nil, memberSize, List.length_cons,
            List.length_nil]
          omega
        change writtenSize .null ≤ writtenSize (Codecs.advertisement.encode value)
        omega
    · rw [same]
  refine (writePeer_iff valid registry).mpr ⟨by omega, ?_⟩
  change writtenSize _ ≤ _
  omega

/-- How the import of a new peer goes on: its record is written introduced, then quarantined, then
with its advertisement. -/
structure NewPeer (primitives : Primitives) (material : Material) (importedAt : String)
    (state : IdentityState) (fingerprint : String) (registry one two three : PeerRegistry) :
    Prop where
  /-- The peer is introduced. -/
  introduced : registry.writePeer primitives (introducedRecord material.identity material.lifecycle
    none importedAt fingerprint state.sequence) = .ok one
  /-- The peer is quarantined. -/
  quarantined : one.writePeer primitives
    (quarantinedRecord material importedAt fingerprint state.sequence) = .ok two
  /-- The advertisement is attached. -/
  attached : (material.advertisement = none ∧ three = two) ∨
    (material.advertisement.isSome = true ∧ two.writePeer primitives
      (importedRecord material importedAt fingerprint state.sequence) = .ok three)

/-- A peer that can be imported is written in three steps. -/
theorem Importable.steps {material : Material} {state : IdentityState} {fingerprint : String}
    (importable : Importable primitives material state fingerprint) {importedAt : String}
    (received : Peering.validTimestamp importedAt = true) (registry : PeerRegistry) :
    ∃ one two three,
      NewPeer primitives material importedAt state fingerprint registry one two three := by
  have first : RecordValid primitives (introducedRecord material.identity material.lifecycle none
      importedAt fingerprint state.sequence) state :=
    importable.valid received rfl rfl rfl rfl rfl rfl rfl nofun rfl rfl nofun
  obtain ⟨one, introduced⟩ := importable.writes first rfl rfl (.inl rfl)
    (show (1 : UInt64).toNat ≤ 3 by decide) registry
  have second : RecordValid primitives (quarantinedRecord material importedAt fingerprint
      state.sequence) state :=
    importable.valid received rfl rfl rfl rfl rfl rfl rfl nofun rfl rfl nofun
  obtain ⟨two, quarantined⟩ := importable.writes second rfl rfl (.inl rfl)
    (show (saturatingSucc 1).toNat ≤ 3 by decide) one
  cases given : material.advertisement with
  | none => exact ⟨one, two, two, introduced, quarantined, .inl ⟨given, rfl⟩⟩
  | some advertisement =>
    have same : importedRecord material importedAt fingerprint state.sequence =
        advertisedRecord (quarantinedRecord material importedAt fingerprint state.sequence)
          advertisement importedAt := by
      rw [importedRecord, given]
    have third : RecordValid primitives (importedRecord material importedAt fingerprint
        state.sequence) state := by
      rw [same]
      refine importable.valid received rfl rfl rfl rfl rfl rfl rfl nofun rfl rfl
        fun other present => ?_
      cases present
      exact given
    obtain ⟨three, attached⟩ := importable.writes third (by rw [same]; rfl) (by rw [same]; rfl)
      (.inr (by rw [same, given]; rfl))
      (by rw [same]; exact show (saturatingSucc (saturatingSucc 1)).toNat ≤ 3 by decide) two
    exact ⟨one, two, three, introduced, quarantined, .inr ⟨by rw [given]; rfl, attached⟩⟩

variable (primitives) in
/-- Whether a peer is known. -/
def isKnown (nodeId : String) (registry : PeerRegistry) : Except PeeringError Bool :=
  (registry.get primitives nodeId).map Option.isSome

variable (primitives) in
/-- Attach the advertisement that a bundle holds of a peer. -/
def attachMaterial (importedAt : String) (material : Material) :
    Effect PeerRegistry PeeringError PUnit :=
  match material.advertisement with
  | none => pure ⟨⟩
  | some advertisement => do
    let _ ← Effect.atomic <| attachArchivalCapabilityAdvertisement primitives
      material.identity.nodeId advertisement importedAt
    pure ⟨⟩

variable (primitives) in
/-- What follows the introduction of an imported peer. -/
def settleMaterial (importedAt : String) (material : Material) (existed again : Bool) :
    Effect PeerRegistry PeeringError PUnit := do
  if again then
    if existed then pure ⟨⟩ else attachMaterial primitives importedAt material
  else
    let _ ← Effect.atomic
      (transition primitives material.identity.nodeId .quarantined importedAt)
    if existed then pure ⟨⟩ else attachMaterial primitives importedAt material

/-- The import of a peer step by step. -/
theorem importMaterial_eq (importedAt : String) (material : Material) :
    importMaterial primitives importedAt material =
      Effect.read (isKnown primitives material.identity.nodeId) >>= fun existed =>
      Effect.read (isKnown primitives material.identity.nodeId) >>= fun again =>
      Effect.atomic (introduce primitives material.identity material.lifecycle none importedAt) >>=
      fun _ => settleMaterial primitives importedAt material existed again := by
  rw [importMaterial, importQuarantined]
  simp only [Effect.bind_assoc]
  change (Effect.read (isKnown primitives material.identity.nodeId) >>= _) = _
  congr 1
  funext existed
  change (Effect.read (isKnown primitives material.identity.nodeId) >>= _) = _
  congr 1
  funext again
  congr 1
  funext disposition
  cases again
  · simp only [settleMaterial, Bool.false_eq_true, ↓reduceIte, Effect.bind_assoc, Effect.pure_bind]
    rfl
  · rfl

/-- The import of a new peer takes these steps. -/
theorem NewPeer.runs {material : Material} {state : IdentityState} {fingerprint importedAt : String}
    {registry one two three : PeerRegistry}
    (importable : Importable primitives material state fingerprint)
    (received : Peering.validTimestamp importedAt = true)
    (steps : NewPeer primitives material importedAt state fingerprint registry one two three)
    (unknown : registry.get primitives material.identity.nodeId = .ok none) :
    (importMaterial primitives importedAt material).run registry = (.ok ⟨⟩, three) ∧
      ∀ stopped ∈ (importMaterial primitives importedAt material).states registry,
        stopped = registry ∨ stopped = one ∨ stopped = two ∨ stopped = three := by
  have existed : isKnown primitives material.identity.nodeId registry = .ok false := by
    rw [isKnown, unknown]
    rfl
  have introduced : introduce primitives material.identity material.lifecycle none importedAt
      registry = .ok (.applied, one) :=
    (introduce_ok_iff ..).mpr ⟨⟨importable.few, received⟩, nofun, state, fingerprint,
      importable.rebuilt, importable.fingerprint, .new unknown steps.introduced⟩
  have first : one.get primitives material.identity.nodeId = .ok (some (introducedRecord
      material.identity material.lifecycle none importedAt fingerprint state.sequence)) := by
    rw [get_writePeer steps.introduced]
    exact if_pos rfl
  have quarantined : transition primitives material.identity.nodeId .quarantined importedAt one =
      .ok ((), two) :=
    (transition_ok_iff ..).mpr ⟨received, _, first, rfl, steps.quarantined⟩
  have second : two.get primitives material.identity.nodeId = .ok (some
      (quarantinedRecord material importedAt fingerprint state.sequence)) := by
    rw [get_writePeer steps.quarantined]
    exact if_pos rfl
  have last : (attachMaterial primitives importedAt material).run two = (.ok ⟨⟩, three) ∧
      ∀ stopped ∈ (attachMaterial primitives importedAt material).states two,
        stopped = two ∨ stopped = three := by
    rw [attachMaterial]
    rcases steps.attached with ⟨absent, rfl⟩ | ⟨present, attached⟩
    · rw [absent]
      exact ⟨rfl, fun stopped member => .inl (List.mem_singleton.mp member)⟩
    · obtain ⟨advertisement, given⟩ := Option.isSome_iff_exists.mp present
      have node : advertisement.nodeId = material.identity.nodeId :=
        (importable.signed advertisement given).node.trans
          (rebuilt_of_ok importable.rebuilt).node
      rw [importedRecord, given] at attached
      have done_ : attachArchivalCapabilityAdvertisement primitives material.identity.nodeId
          advertisement importedAt two = .ok ((), three) :=
        (attach_ok_iff ..).mpr ⟨⟨received, node⟩, _, second, state, importable.rebuilt,
          importable.signed advertisement given, .inr ⟨rfl, attached⟩⟩
      simp only [given]
      rw [(Effect.atomic_bind _ done_).1, (Effect.atomic_bind _ done_).2]
      refine ⟨rfl, fun stopped member => ?_⟩
      simpa [Effect.states_pure] using member
  rw [importMaterial_eq, (Effect.read_bind _ existed).1, (Effect.read_bind _ existed).2,
    (Effect.read_bind _ existed).1, (Effect.read_bind _ existed).2,
    (Effect.atomic_bind _ introduced).1, (Effect.atomic_bind _ introduced).2]
  simp only [settleMaterial, Bool.false_eq_true, ↓reduceIte]
  rw [(Effect.atomic_bind _ quarantined).1, (Effect.atomic_bind _ quarantined).2]
  refine ⟨last.1, fun stopped member => ?_⟩
  simp only [List.mem_cons] at member
  rcases member with rfl | rfl | rfl | rfl | later
  · exact .inl rfl
  · exact .inl rfl
  · exact .inl rfl
  · exact .inr (.inl rfl)
  · exact .inr (.inr (last.2 stopped later))

end QsolFed.Bundle
