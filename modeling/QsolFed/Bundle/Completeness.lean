import QsolFed.Bundle.Selections

/-!
# Exports are complete

Every selection of known peers and known objects that expands within the limits is exported: what
the registry and the store accepted is what the verification of bundles accepts.
-/
namespace QsolFed.Bundle

open Checked Json Canonical FederationObjectStore

variable {primitives : Primitives}

variable (primitives) in
/-- A selection of known peers and known objects, without repetitions. -/
structure Selects (store : FederationObjectStore) (registry : PeerRegistry)
    (peerIds objectIds : List String) : Prop where
  /-- No peer is selected twice. -/
  distinctPeers : peerIds.Nodup
  /-- Each peer is known. -/
  peers : ∀ nodeId ∈ peerIds, ∃ record, registry.get primitives nodeId = .ok (some record)
  /-- No object is selected twice. -/
  distinctObjects : objectIds.Nodup
  /-- Each object has a record. -/
  objects : ∀ objectRef ∈ objectIds, ∃ entry, Listed primitives store objectRef entry

variable (primitives) in
/-- A selection expands within the limits for counts, for embedded values and for the bundle. -/
structure WithinLimits (store : FederationObjectStore) (registry : PeerRegistry)
    (exporterNode createdAt : String) (peerIds objectIds : List String) : Prop where
  /-- The peers are few. -/
  fewPeers : peerIds.length ≤ maxBundlePeers
  /-- The objects are few. -/
  fewObjects : objectIds.length ≤ maxBundleObjects
  /-- What is embedded of a peer is short. -/
  peers : ∀ nodeId ∈ peerIds, ∀ record, registry.get primitives nodeId = .ok (some record) →
    PeerEmbeddable primitives record
  /-- What is embedded of an object is short. -/
  objects : ∀ objectRef ∈ objectIds, ObjectEmbeddable primitives store objectRef
  /-- The attributions are few. -/
  fewEntries : ∀ peers objects, Expands primitives store registry peerIds objectIds peers objects →
    objects.length ≤ maxBundleObjects
  /-- The bundle is short. -/
  short : ∀ peers objects, Expands primitives store registry peerIds objectIds peers objects →
    writtenSize (Codecs.bundle.encode (assembled exporterNode createdAt peers objects)) ≤
      maxBundleBytes

/-- A selection within the limits expands. -/
theorem expands_total {store : FederationObjectStore} (sourced : Sourced primitives store)
    {registry : PeerRegistry} (sound : PeerRegistry.Sound primitives registry)
    {exporterNode createdAt : String} {peerIds objectIds : List String}
    (selects : Selects primitives store registry peerIds objectIds)
    (within : WithinLimits primitives store registry exporterNode createdAt peerIds objectIds) :
    ∃ peers objects, Expands primitives store registry peerIds objectIds peers objects := by
  have eachPeer : ∀ nodeId ∈ peerIds, ∃ entry, PeerExported primitives registry nodeId entry := by
    intro nodeId member
    obtain ⟨record, found⟩ := selects.peers nodeId member
    obtain ⟨rebuilt, stored⟩ := sound.stored found
    obtain ⟨entry, made⟩ := peerEntry_total stored (within.peers nodeId member record found)
    exact ⟨entry, record, found, made⟩
  have eachObject : ∀ objectRef ∈ objectIds, ∃ block,
      ObjectExported primitives store objectRef block := by
    intro objectRef member
    obtain ⟨entry, records, listed, there⟩ := selects.objects objectRef member
    exact objectExported_total sourced listed (List.ne_nil_of_mem there)
      (within.objects objectRef member)
  obtain ⟨peers, one⟩ := exists_forall₂ eachPeer
  obtain ⟨blocks, two⟩ := exists_forall₂ eachObject
  exact ⟨peers, blocks.flatten, one, blocks, two, rfl⟩

/-- A selection within the limits is exported as the bundle of its entries, which verifies. -/
theorem exportBundle_total {store : FederationObjectStore} (sourced : Sourced primitives store)
    {registry : PeerRegistry} (sound : PeerRegistry.Sound primitives registry)
    {exporterNode createdAt : String} (node : Wire.isNodeId exporterNode = true)
    (created : validTimestamp createdAt = true) {peerIds objectIds : List String}
    (selects : Selects primitives store registry peerIds objectIds)
    (within : WithinLimits primitives store registry exporterNode createdAt peerIds objectIds) :
    ∃ bytes peers objects,
      exportBundle primitives store registry exporterNode createdAt peerIds objectIds =
        .ok bytes ∧
      Expands primitives store registry peerIds objectIds peers objects ∧
      BundleVerified primitives bytes (assembled exporterNode createdAt peers objects) := by
  obtain ⟨peers, objects, expands⟩ := expands_total sourced sound selects within
  obtain ⟨names, eachPeer⟩ := expands.verifiedPeers sound
  obtain ⟨eachObject, apart, -⟩ := expands.verifiedObjects sourced selects.distinctObjects
  have fewEntries := within.fewEntries peers objects expands
  have fewPeers : peers.length ≤ maxBundlePeers := by
    have same := congrArg List.length names
    rw [List.length_map] at same
    exact same.trans_le within.fewPeers
  have distinct : (peers.map BundlePeer.nodeId).Nodup := names.symm ▸ selects.distinctPeers
  obtain ⟨bytes, encoded, verified⟩ := assembled_total node created fewPeers fewEntries eachPeer
    distinct (fun object member => (eachObject object member).2.2) apart
    (within.short peers objects expands)
  refine ⟨bytes, peers, objects, ?_, expands, verified⟩
  exact (exportBundle_ok_iff ..).mpr ⟨⟨node, created⟩, ⟨within.fewPeers, within.fewObjects⟩,
    selects.distinctPeers, selects.distinctObjects, peers, objects, expands, fewEntries, encoded,
    verified.short, _, (verifyBundle_ok_iff ..).mpr ⟨_, verified, rfl⟩⟩

/-- A bundle lists each attribution of the selected objects once. -/
structure ListsOnce (primitives : Primitives) (store : FederationObjectStore)
    (objectIds : List String) (bundle : PortableFederationBundle) : Prop where
  /-- What is listed are attributions of selected objects. -/
  sound : ∀ object ∈ bundle.objects,
    object.objectId ∈ objectIds ∧ EntryOf primitives store object
  /-- Each attribution of a selected object is listed. -/
  complete : ∀ objectRef ∈ objectIds, ∀ entry, Listed primitives store objectRef entry →
    ∃ object ∈ bundle.objects, object.objectId = objectRef ∧
      object.exportedNamespace = entry.1 ∧
      recordKey entry.2 = ⟨object.sourceNode, object.provenanceId⟩
  /-- No attribution is listed twice. -/
  once : (bundle.objects.map attributionKey).Nodup

/-- A selection of known peers and known objects of a reached registry and a reached store, without
repetitions and within the limits, is exported: the bundle verifies, has the selected peers and
lists each attribution of the selected objects once, and every order of the selection gives the same
bytes. Two stores to which the same attributions were added in different orders export the same
bytes. -/
theorem export_complete (primitives : Primitives) {registry : PeerRegistry}
    (reached : PeerRegistry.Reachable primitives registry) :
    (∀ (events : List StoreEvent) (store : FederationObjectStore),
      Run (StoreStep primitives) empty events store →
      ∀ exporterNode createdAt, Wire.isNodeId exporterNode = true →
      validTimestamp createdAt = true → ∀ peerIds objectIds,
      Selects primitives store registry peerIds objectIds →
      WithinLimits primitives store registry exporterNode createdAt peerIds objectIds →
      ∃ bytes bundle,
        exportBundle primitives store registry exporterNode createdAt peerIds objectIds =
          .ok bytes ∧
        verifyBundle primitives bytes = .ok (reportOf primitives bytes bundle) ∧
        fromSlice Codecs.bundle bytes = some bundle ∧
        (bundle.peers.map BundlePeer.nodeId).Perm peerIds ∧
        ListsOnce primitives store objectIds bundle ∧
        ∀ otherPeers otherObjects, otherPeers.Perm peerIds → otherObjects.Perm objectIds →
          exportBundle primitives store registry exporterNode createdAt otherPeers otherObjects =
            .ok bytes) ∧
    ∀ first second : List Addition,
      Set.InjOn (Digest.sha256Ref primitives) (Digested primitives (first.map Addition.placed)) →
      (∀ one ∈ first, ∀ two ∈ first, one.observation = two.observation →
        one.placement = two.placement) →
      (second.map Addition.placed).Perm (first.map Addition.placed) →
      ∀ one two firstRecords secondRecords,
      (addAll primitives first).run empty = (.ok firstRecords, one) →
      (addAll primitives second).run empty = (.ok secondRecords, two) →
      ∀ exporterNode createdAt peerIds objectIds bytes,
        exportBundle primitives one registry exporterNode createdAt peerIds objectIds = .ok bytes ↔
        exportBundle primitives two registry exporterNode createdAt peerIds objectIds =
          .ok bytes := by
  have sound := reached.sound
  refine ⟨?_, ?_⟩
  · intro events store run exporterNode createdAt node created peerIds objectIds selects within
    have sourced := (kept_of_run run).sourced
    obtain ⟨bytes, peers, objects, exported, expands, verified⟩ :=
      exportBundle_total sourced sound node created selects within
    obtain ⟨all, once, complete⟩ := expands.verifiedObjects sourced selects.distinctObjects
    have names := (expands.verifiedPeers sound).1
    have peersPerm := sortBy_perm BundlePeer.nodeId peers
    have objectsPerm := sortBy_perm objectOrder objects
    refine ⟨bytes, _, exported, (verifyBundle_ok_iff ..).mpr ⟨_, verified, rfl⟩, verified.parsed,
      names ▸ peersPerm.map _, ⟨fun object member => ?_, fun objectRef selected entry listed => ?_,
      verified.distinctObjects⟩, fun otherPeers otherObjects samePeers sameObjects => ?_⟩
    · obtain ⟨selected, entry, -⟩ := all object (objectsPerm.mem_iff.mp member)
      exact ⟨selected, entry⟩
    · obtain ⟨object, member, shown⟩ := complete objectRef selected entry listed
      exact ⟨object, objectsPerm.mem_iff.mpr member, shown⟩
    · exact exportBundle_alike (Alike.refl store) sourced sourced sound samePeers sameObjects
        exported
  · intro first second injective functional perm one two firstRecords secondRecords ran again
      exporterNode createdAt peerIds objectIds bytes
    obtain ⟨sourcedOne, sourcedTwo, alike⟩ := alike_of_orders injective functional perm ran again
    constructor
    · exact exportBundle_alike alike sourcedOne sourcedTwo sound (.refl _) (.refl _)
    · exact exportBundle_alike alike.symm sourcedTwo sourcedOne sound (.refl _) (.refl _)

/-- What is added of the recorded object. -/
def recordedAddition : Addition where
  observation := emptyObservation
  placement := .foreign
  receivedAt := "2026-08-23T00:00:00Z"

/-- The recorded peer and the recorded object are exported, with one attribution. -/
theorem recorded_export : ∃ registry events store bytes bundle,
    PeerRegistry.Reachable PeerRegistry.peerPrimitives registry ∧
    Run (StoreStep PeerRegistry.peerPrimitives) empty events store ∧
    exportBundle PeerRegistry.peerPrimitives store registry "fed:qsol:remote"
      "2026-08-23T00:03:00Z" [Identity.recordedDocument.nodeId]
      [emptyObservation.reference PeerRegistry.peerPrimitives] = .ok bytes ∧
    fromSlice Codecs.bundle bytes = some bundle ∧
    bundle.peers.map BundlePeer.nodeId = [Identity.recordedDocument.nodeId] ∧
    ∃ object ∈ bundle.objects,
      object.objectId = emptyObservation.reference PeerRegistry.peerPrimitives := by
  obtain ⟨registry, step, found⟩ := PeerRegistry.recorded_introduced
  have reached : PeerRegistry.Reachable PeerRegistry.peerPrimitives registry :=
    ⟨_, Run.single step⟩
  obtain ⟨store, run, listed⟩ := @added_first PeerRegistry.peerPrimitives recordedAddition
    ⟨by decide, by decide, fun _ given => by cases given⟩ (by decide)
  have sourced := (kept_of_run run).sourced
  have listedHere := (listed (emptyObservation.reference PeerRegistry.peerPrimitives)
    (.foreign, emptyObservation.record PeerRegistry.peerPrimitives .foreign
      "2026-08-23T00:00:00Z")).mpr ⟨rfl, rfl, rfl⟩
  have selects : Selects PeerRegistry.peerPrimitives store registry
      [Identity.recordedDocument.nodeId]
      [emptyObservation.reference PeerRegistry.peerPrimitives] := by
    refine ⟨by simp, fun nodeId member => ?_, by simp, fun objectRef member => ?_⟩
    · obtain rfl := List.mem_singleton.mp member
      exact ⟨_, found⟩
    · obtain rfl := List.mem_singleton.mp member
      exact ⟨_, listedHere⟩
  have small : writtenSize (Codecs.identity.encode Identity.recordedDocument) * 2 ≤
      maxBundleEmbeddedHexChars := by
    rw [writtenSize_eq]
    decide +kernel
  have entries : ∀ peers objects, Expands PeerRegistry.peerPrimitives store registry
      [Identity.recordedDocument.nodeId]
      [emptyObservation.reference PeerRegistry.peerPrimitives] peers objects →
      (∀ peer ∈ peers, writtenSize (Codecs.bundlePeer.encode peer) ≤ 8448) ∧ peers.length = 1 ∧
      (∀ object ∈ objects, writtenSize (Codecs.bundleObject.encode object) ≤ 8526) ∧
        objects.length ≤ 1 := by
    intro peers objects expands
    obtain ⟨names, verified⟩ := expands.verifiedPeers reached.sound
    obtain ⟨all, apart, -⟩ := expands.verifiedObjects sourced (by simp)
    have one : ∀ object ∈ objects, object.objectId =
        emptyObservation.reference PeerRegistry.peerPrimitives ∧
        object.sourceNode = "fed:qsol:remote" ∧ object.provenanceId = none := by
      intro object member
      obtain ⟨selected, ⟨record, there, key⟩, -⟩ := all object member
      obtain ⟨-, -, same⟩ := (listed object.objectId (object.exportedNamespace, record)).mp
        ((sourced.orderly.listed_iff ..).mpr there)
      obtain rfl : record = _ := same
      obtain ⟨source, provenance⟩ := AttributionKey.mk.inj key
      exact ⟨List.mem_singleton.mp selected, source.symm, provenance.symm⟩
    refine ⟨fun peer member => ?_, ?_, fun object member => ?_, ?_⟩
    · obtain ⟨nodeId, selected, record, shown, made⟩ := forall₂_left expands.peers member
      obtain rfl := List.mem_singleton.mp selected
      obtain rfl := Option.some.inj (Except.ok.inj (shown.symm.trans found))
      obtain ⟨identityHex, -, rest⟩ := (bind_ok_iff ..).mp made
      have same : documentedEntry Identity.recordedDocument identityHex .introduced = peer :=
        Except.ok.inj rest
      obtain ⟨material, state, here⟩ := verified _ member
      rw [← same] at here ⊢
      exact documented_size here
    · have length := congrArg List.length names
      rwa [List.length_map] at length
    · obtain ⟨observation, verified⟩ := (all object member).2.2
      exact unattested_size verified (one object member).2.2
    · have same : objects.map attributionKey = objects.map fun _ =>
          (emptyObservation.reference PeerRegistry.peerPrimitives, "fed:qsol:remote", none) := by
        refine List.map_congr_left fun object member => ?_
        obtain ⟨reference, source, provenance⟩ := one object member
        rw [attributionKey, reference, source, provenance]
      rw [same, List.map_const'] at apart
      exact List.nodup_replicate.mp apart
  have within : WithinLimits PeerRegistry.peerPrimitives store registry "fed:qsol:remote"
      "2026-08-23T00:03:00Z" [Identity.recordedDocument.nodeId]
      [emptyObservation.reference PeerRegistry.peerPrimitives] := by
    refine ⟨by decide, by decide, fun nodeId member record shown => ?_, fun objectRef member => ?_,
      ?_, ?_⟩
    · obtain rfl := List.mem_singleton.mp member
      obtain rfl := Option.some.inj (Except.ok.inj (shown.symm.trans found))
      have parts := Peering.rebuilt_of_ok PeerRegistry.peerIdentity_rebuilt
      have nesting : (Codecs.identity.encode Identity.recordedDocument).nesting ≤ 1 :=
        Nat.le_of_ble_eq_true rfl
      have identity : Embeddable PeerRegistry.peerPrimitives
          (Codecs.identity.encode Identity.recordedDocument) :=
        embeddable_of_plain parts.document (nesting.trans_lt (by decide)) small
      exact ⟨identity, fun _ given => (by cases given), fun _ given => (by cases given)⟩
    · obtain rfl := List.mem_singleton.mp member
      refine ⟨fun bytes read => ?_, fun records all entry here id given => ?_⟩
      · obtain ⟨observation, supports, brought⟩ := ((kept_of_run run).backed _ _ _
          ((sourced.orderly.listed_iff ..).mp listedHere)).supports
        obtain ⟨event, listed_, content⟩ := brought _ List.mem_cons_self
        obtain rfl := List.mem_singleton.mp listed_
        have only : observation.object = emptyObservation.object := List.mem_singleton.mp content
        obtain rfl := Option.some.inj (Except.ok.inj (supports.object.symm.trans read))
        rw [only]
        decide
      · obtain ⟨-, -, same⟩ := (listed _ entry).mp ⟨records, all, here⟩
        rw [same] at given
        cases given
    · intro peers objects expands
      exact (entries peers objects expands).2.2.2.trans (by decide)
    · intro peers objects expands
      obtain ⟨peerSizes, peerCount, objectSizes, objectCount⟩ := entries peers objects expands
      have size := @assembled_size "fed:qsol:remote" "2026-08-23T00:03:00Z" peers objects
        (by decide) (by decide) _ _ peerSizes objectSizes
      have limit : maxBundleBytes = 65536 := rfl
      rw [peerCount] at size
      omega
  obtain ⟨bytes, bundle, exported, -, parsed, peers, once, -⟩ :=
    (export_complete PeerRegistry.peerPrimitives reached).1 _ store run "fed:qsol:remote"
      "2026-08-23T00:03:00Z" (by decide) (by decide) _ _ selects within
  obtain ⟨object, member, same, -⟩ := once.complete _ (List.mem_singleton_self _) _ listedHere
  exact ⟨registry, _, store, bytes, bundle, reached, run, exported, parsed,
    List.perm_singleton.mp peers, object, member, same⟩

end QsolFed.Bundle
