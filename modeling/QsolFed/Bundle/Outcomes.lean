import QsolFed.Bundle.Peers

/-!
# How the import of a peer ends

A peer that can be imported is refused without a trace, written as a new one, or found. However it
ends, the peers that were known keep their state, their partition and their advertisement. A peer
that was imported is shown by the registry, and it is imported again by changing nothing.
-/
namespace QsolFed.Bundle

open Checked Json Canonical Peering PeerRegistry

variable {primitives : Primitives}

/-! ## Peers that are kept -/

/-- A record of a peer keeps its state, its partition and its advertisement. -/
structure Unmoved (record later : PeerRecord) : Prop where
  /-- The state is kept. -/
  state : later.state = record.state
  /-- The state before the partition is kept. -/
  preDisconnectState : later.preDisconnectState = record.preDisconnectState
  /-- The snapshot of the partition is kept. -/
  partitionSnapshot : later.partitionSnapshot = record.partitionSnapshot
  /-- The advertisement is kept. -/
  capabilityAdvertisement : later.capabilityAdvertisement = record.capabilityAdvertisement

/-- A record keeps itself. -/
theorem Unmoved.refl (record : PeerRecord) : Unmoved record record := ⟨rfl, rfl, rfl, rfl⟩

/-- What is kept twice is kept. -/
theorem Unmoved.trans {one two three : PeerRecord} (first : Unmoved one two)
    (second : Unmoved two three) : Unmoved one three :=
  ⟨second.state.trans first.state, second.preDisconnectState.trans first.preDisconnectState,
    second.partitionSnapshot.trans first.partitionSnapshot,
    second.capabilityAdvertisement.trans first.capabilityAdvertisement⟩

/-- A longer lifecycle without a snapshot keeps a record. -/
theorem unmoved_extended (old : PeerRecord) (lifecycle : List PeerLifecycleRecord)
    (updatedAt fingerprint : String) (sequence : UInt64) :
    Unmoved old (extendedRecord old lifecycle none updatedAt fingerprint sequence) := by
  refine ⟨rfl, rfl, ?_, rfl⟩
  change (if old.state ≠ .disconnected then none <|> old.partitionSnapshot
    else old.partitionSnapshot) = old.partitionSnapshot
  split_ifs <;> rfl

/-- Every known peer is kept. -/
def PeersKept (primitives : Primitives) (before after : PeerRegistry) : Prop :=
  ∀ nodeId record, before.get primitives nodeId = .ok (some record) →
    ∃ later, after.get primitives nodeId = .ok (some later) ∧ Unmoved record later

/-- A registry keeps its peers. -/
theorem PeersKept.refl (registry : PeerRegistry) : PeersKept primitives registry registry :=
  fun _ record found => ⟨record, found, .refl record⟩

/-- Peers that are kept twice are kept. -/
theorem PeersKept.trans (one two three : PeerRegistry) (first : PeersKept primitives one two)
    (second : PeersKept primitives two three) : PeersKept primitives one three := by
  intro nodeId record found
  obtain ⟨between, middle, kept⟩ := first nodeId record found
  obtain ⟨later, last, again⟩ := second nodeId between middle
  exact ⟨later, last, kept.trans again⟩

/-- A peer that is read has a valid record. -/
theorem valid_of_get {registry : PeerRegistry} {nodeId : String} {record : PeerRecord}
    (found : registry.get primitives nodeId = .ok (some record)) :
    ∃ rebuilt, RecordValid primitives record rebuilt := by
  obtain ⟨path, -, read⟩ := (bind_ok_iff ..).mp found
  cases stored : registry.peers.get? path with
  | none =>
    rw [stored] at read
    cases read
  | some raw =>
    simp only [stored, bind_ok_iff, okOr_ok_iff, pure_ok_iff, Option.some.injEq] at read
    obtain ⟨⟨⟩, -, other, -, ⟨⟩, checked, rfl⟩ := read
    exact (validatePeerRecord_iff other).mp checked

/-- Documents with the same canonical bytes are equal. -/
theorem SameDocument.eq {old offered : NodeIdentityDocument} (oldPlain : Plain (Codecs.identity.encode old))
    (offeredPlain : Plain (Codecs.identity.encode offered))
    (same : SameDocument primitives old offered) : old = offered := by
  obtain ⟨bytes, one, two⟩ := same
  refine canonicalStruct_inj Codecs.identity oldPlain offeredPlain (fun value => ?_) one two
  have flat : (Codecs.identity.encode value).nesting ≤ 1 := Nat.le_of_ble_eq_true rfl
  exact flat.trans_lt (by decide)

/-- A peer that shows a longer lifecycle has the record of its node. -/
theorem node_of_same {registry : PeerRegistry} {nodeId : String} {old : PeerRecord}
    (found : registry.get primitives nodeId = .ok (some old)) {identity : NodeIdentityDocument}
    {lifecycle : List PeerLifecycleRecord} {state : IdentityState}
    (rebuilt : rebuildPeerIdentity primitives identity lifecycle = .ok state)
    (same : SameDocument primitives old.identity identity) : old.nodeId = identity.nodeId := by
  obtain ⟨stored, valid⟩ := valid_of_get found
  rw [valid.node, SameDocument.eq (rebuilt_of_ok valid.identity).document
    (rebuilt_of_ok rebuilt).document same]

/-- The introduction of a peer without a snapshot keeps the known peers. -/
theorem peersKept_introduce {registry next : PeerRegistry} {identity : NodeIdentityDocument}
    {lifecycle : List PeerLifecycleRecord} {updatedAt : String}
    {disposition : RegistryWriteDisposition}
    (introduced : introduce primitives identity lifecycle none updatedAt registry =
      .ok (disposition, next)) : PeersKept primitives registry next := by
  obtain ⟨-, -, state, fingerprint, rebuilt, -, outcome⟩ := (introduce_ok_iff ..).mp introduced
  intro nodeId record found
  cases outcome with
  | new unknown written =>
    rw [get_writePeer written]
    split_ifs with here
    · have absent : registry.get primitives nodeId = .ok none := here ▸ unknown
      rw [found] at absent
      cases absent
    · exact ⟨record, found, .refl record⟩
  | duplicate old known open_ same sequence fingerprints unchanged =>
    exact ⟨record, unchanged ▸ found, .refl record⟩
  | extended old known open_ same sequence extends_ written =>
    rw [get_writePeer written]
    split_ifs with here
    · have node : nodeId = identity.nodeId := here.trans (node_of_same known rebuilt same)
      rw [node, known] at found
      obtain rfl := Option.some.inj (Except.ok.inj found)
      exact ⟨_, rfl, unmoved_extended ..⟩
    · exact ⟨record, found, .refl record⟩

/-! ## Outcomes -/

/-- The records that the import of a new peer writes are those of its node. -/
theorem importedRecord_nodeId (material : Material) (importedAt fingerprint : String)
    (sequence : UInt64) :
    (importedRecord material importedAt fingerprint sequence).nodeId = material.identity.nodeId := by
  rw [importedRecord]
  cases material.advertisement <;> rfl

/-- The import of a new peer leaves the others. -/
theorem NewPeer.get_of_ne {material : Material} {importedAt fingerprint : String}
    {state : IdentityState} {registry one two three : PeerRegistry}
    (steps : NewPeer primitives material importedAt state fingerprint registry one two three)
    {nodeId : String} (apart : nodeId ≠ material.identity.nodeId) :
    three.get primitives nodeId = registry.get primitives nodeId := by
  have first : one.get primitives nodeId = registry.get primitives nodeId :=
    (get_writePeer steps.introduced nodeId).trans (if_neg apart)
  have second : two.get primitives nodeId = one.get primitives nodeId :=
    (get_writePeer steps.quarantined nodeId).trans (if_neg apart)
  rcases steps.attached with ⟨-, rfl⟩ | ⟨-, attached⟩
  · exact second.trans first
  · rw [get_writePeer attached, importedRecord_nodeId, if_neg apart, second, first]

/-- The import of a new peer leaves its record. -/
theorem NewPeer.get_self {material : Material} {importedAt fingerprint : String}
    {state : IdentityState} {registry one two three : PeerRegistry}
    (steps : NewPeer primitives material importedAt state fingerprint registry one two three) :
    three.get primitives material.identity.nodeId =
      .ok (some (importedRecord material importedAt fingerprint state.sequence)) := by
  rcases steps.attached with ⟨absent, rfl⟩ | ⟨-, attached⟩
  · rw [get_writePeer steps.quarantined, importedRecord, absent]
    exact if_pos rfl
  · rw [get_writePeer attached, importedRecord_nodeId, if_pos rfl]

/-- How the import of a peer ends. -/
inductive PeerOutcome (primitives : Primitives) (material : Material) (importedAt : String)
    (state : IdentityState) (fingerprint : String) (registry : PeerRegistry) :
    Except PeeringError PUnit → PeerRegistry → Prop where
  /-- The peer is refused, and nothing is changed. -/
  | refused (error : PeeringError) :
      PeerOutcome primitives material importedAt state fingerprint registry (.error error) registry
  /-- The peer is new. -/
  | new (one two three : PeerRegistry)
      (unknown : registry.get primitives material.identity.nodeId = .ok none)
      (steps : NewPeer primitives material importedAt state fingerprint registry one two three) :
      PeerOutcome primitives material importedAt state fingerprint registry (.ok ⟨⟩) three
  /-- The peer is known. -/
  | known (old : PeerRecord) (disposition : RegistryWriteDisposition) (next : PeerRegistry)
      (found : registry.get primitives material.identity.nodeId = .ok (some old))
      (introduced : introduce primitives material.identity material.lifecycle none importedAt
        registry = .ok (disposition, next)) :
      PeerOutcome primitives material importedAt state fingerprint registry (.ok ⟨⟩) next

/-- The import of a peer ends in one of these ways. -/
theorem Importable.outcome {material : Material} {state : IdentityState} {fingerprint : String}
    (importable : Importable primitives material state fingerprint) {importedAt : String}
    (received : Peering.validTimestamp importedAt = true) (registry : PeerRegistry) :
    PeerOutcome primitives material importedAt state fingerprint registry
      ((importMaterial primitives importedAt material).run registry).1
      ((importMaterial primitives importedAt material).run registry).2 := by
  cases read : registry.get primitives material.identity.nodeId with
  | error error =>
    have unread : isKnown primitives material.identity.nodeId registry = .error error := by
      rw [isKnown, read]
      rfl
    rw [importMaterial_eq, (Effect.read_bind_error _ unread).1]
    exact .refused error
  | ok found =>
    cases found with
    | none =>
      obtain ⟨one, two, three, steps⟩ := importable.steps received registry
      rw [(steps.runs importable received read).1]
      exact .new one two three read steps
    | some old =>
      have existed : isKnown primitives material.identity.nodeId registry = .ok true := by
        rw [isKnown, read]
        rfl
      rw [importMaterial_eq, (Effect.read_bind _ existed).1, (Effect.read_bind _ existed).1]
      cases introduced : introduce primitives material.identity material.lifecycle none importedAt
          registry with
      | error error =>
        rw [(Effect.atomic_bind_error _ introduced).1]
        exact .refused error
      | ok result =>
        rw [(Effect.atomic_bind _ introduced).1]
        exact .known old result.1 result.2 read introduced

/-- The import of a peer keeps the known peers. -/
theorem Importable.peersKept {material : Material} {state : IdentityState} {fingerprint : String}
    (importable : Importable primitives material state fingerprint) {importedAt : String}
    (received : Peering.validTimestamp importedAt = true) :
    Effect.Leads (PeersKept primitives) (importMaterial primitives importedAt material) := by
  intro registry
  have outcome := importable.outcome received registry
  generalize (importMaterial primitives importedAt material).run registry = ran at outcome ⊢
  obtain ⟨answer, final⟩ := ran
  cases outcome with
  | refused error => exact PeersKept.refl _
  | known old disposition next found introduced => exact peersKept_introduce introduced
  | new one two three unknown steps =>
    intro nodeId record found
    have apart : nodeId ≠ material.identity.nodeId := by
      rintro rfl
      rw [found] at unknown
      cases unknown
    refine ⟨record, ?_, .refl record⟩
    rw [steps.get_of_ne apart]
    exact found

/-! ## Peers that were imported -/

/-- The registry shows what a bundle holds of a peer. -/
def Shown (primitives : Primitives) (material : Material) (state : IdentityState)
    (fingerprint : String) (registry : PeerRegistry) : Prop :=
  ∃ record, registry.get primitives material.identity.nodeId = .ok (some record) ∧
    record.state ≠ .revoked ∧ SameDocument primitives record.identity material.identity ∧
    record.lifecycleSequence = state.sequence ∧ record.identityFingerprint = fingerprint

/-- The document of a peer that is imported is encoded. -/
theorem Importable.encoded {material : Material} {state : IdentityState} {fingerprint : String}
    (importable : Importable primitives material state fingerprint) :
    SameDocument primitives material.identity material.identity := by
  have shallow : (Codecs.identity.encode material.identity).nesting < maxDepth := by
    have flat : (Codecs.identity.encode material.identity).nesting ≤ 1 :=
      Nat.le_of_ble_eq_true rfl
    exact flat.trans_lt (by decide)
  have small : writtenSize (Codecs.identity.encode material.identity) ≤ maxInputBytes := by
    have fits := importable.fits
    omega
  obtain ⟨bytes, encoded⟩ := (@canonicalStruct_iff primitives _
    (rebuilt_of_ok importable.rebuilt).document shallow).mpr small
  exact ⟨bytes, encoded, encoded⟩

/-- A peer that was imported is shown. -/
theorem Importable.shown {material : Material} {state : IdentityState} {fingerprint : String}
    (importable : Importable primitives material state fingerprint) {importedAt : String}
    (received : Peering.validTimestamp importedAt = true) {registry final : PeerRegistry}
    (ran : (importMaterial primitives importedAt material).run registry = (.ok ⟨⟩, final)) :
    Shown primitives material state fingerprint final := by
  have outcome : PeerOutcome primitives material importedAt state fingerprint registry (.ok ⟨⟩)
      final := by
    have outcome := importable.outcome received registry
    rwa [ran] at outcome
  cases outcome with
  | new one two three unknown steps =>
    refine ⟨_, steps.get_self, ?_⟩
    have same : SameDocument primitives (importedRecord material importedAt fingerprint
        state.sequence).identity material.identity := by
      rw [importedRecord]
      cases material.advertisement <;> exact importable.encoded
    refine ⟨?_, same, ?_⟩
    · rw [importedRecord]
      cases material.advertisement <;> exact fun closed => by cases closed
    · rw [importedRecord]
      cases material.advertisement <;> exact ⟨rfl, rfl⟩
  | known old disposition next found introduced =>
    obtain ⟨-, -, state_, fingerprint_, rebuilt, computed, outcome⟩ :=
      (introduce_ok_iff ..).mp introduced
    obtain rfl := Except.ok.inj (importable.rebuilt.symm.trans rebuilt)
    obtain rfl := Except.ok.inj (importable.fingerprint.symm.trans computed)
    cases outcome with
    | new unknown written =>
      rw [found] at unknown
      cases unknown
    | duplicate other known open_ same sequence fingerprints unchanged =>
      exact ⟨other, unchanged ▸ known, open_, same, sequence.symm, fingerprints⟩
    | extended other known open_ same sequence extends_ written =>
      refine ⟨_, (get_writePeer written _).trans (if_pos ?_), open_, same, rfl, rfl⟩
      exact (node_of_same known rebuilt same).symm

/-- A peer that is shown stays shown while its record is left. -/
theorem Shown.of_get {material : Material} {state : IdentityState} {fingerprint : String}
    {before after : PeerRegistry} (shown : Shown primitives material state fingerprint before)
    (same : after.get primitives material.identity.nodeId =
      before.get primitives material.identity.nodeId) :
    Shown primitives material state fingerprint after := by
  obtain ⟨record, found, rest⟩ := shown
  exact ⟨record, same.trans found, rest⟩

/-- The import of a peer leaves the others. -/
theorem Importable.get_of_ne {material : Material} {state : IdentityState} {fingerprint : String}
    (importable : Importable primitives material state fingerprint) {importedAt : String}
    (received : Peering.validTimestamp importedAt = true) (registry : PeerRegistry)
    {nodeId : String} (apart : nodeId ≠ material.identity.nodeId) :
    ((importMaterial primitives importedAt material).run registry).2.get primitives nodeId =
      registry.get primitives nodeId := by
  have outcome := importable.outcome received registry
  generalize (importMaterial primitives importedAt material).run registry = ran at outcome ⊢
  obtain ⟨answer, final⟩ := ran
  cases outcome with
  | refused error => rfl
  | new one two three unknown steps => exact steps.get_of_ne apart
  | known old disposition next found introduced =>
    obtain ⟨-, -, state_, fingerprint_, rebuilt, -, outcome⟩ := (introduce_ok_iff ..).mp introduced
    cases outcome with
    | new unknown written => exact (get_writePeer written _).trans (if_neg apart)
    | duplicate other known open_ same sequence fingerprints unchanged => rw [unchanged]
    | extended other known open_ same sequence extends_ written =>
      refine (get_writePeer written _).trans (if_neg fun here => apart (here.trans ?_))
      exact node_of_same known rebuilt same

/-- A peer that is shown is imported by changing nothing. -/
theorem Importable.again {material : Material} {state : IdentityState} {fingerprint : String}
    (importable : Importable primitives material state fingerprint) {importedAt : String}
    (received : Peering.validTimestamp importedAt = true) {registry : PeerRegistry}
    (shown : Shown primitives material state fingerprint registry) :
    (importMaterial primitives importedAt material).run registry = (.ok ⟨⟩, registry) := by
  obtain ⟨record, found, open_, same, sequence, fingerprints⟩ := shown
  have existed : isKnown primitives material.identity.nodeId registry = .ok true := by
    rw [isKnown, found]
    rfl
  have introduced : introduce primitives material.identity material.lifecycle none importedAt
      registry = .ok (.duplicate, registry) :=
    (introduce_ok_iff ..).mpr ⟨⟨importable.few, received⟩, fun _ given => (by cases given), state,
      fingerprint, importable.rebuilt, importable.fingerprint,
      .duplicate record found open_ same sequence.symm fingerprints rfl⟩
  rw [importMaterial_eq, (Effect.read_bind _ existed).1, (Effect.read_bind _ existed).1,
    (Effect.atomic_bind _ introduced).1]
  rfl

end QsolFed.Bundle
