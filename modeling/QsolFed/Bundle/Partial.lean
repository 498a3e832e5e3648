import QsolFed.Bundle.Imports
import QsolFed.Bundle.Selections
import QsolFed.Store.Conservation

/-!
# Failed imports

An import that fails after the bundle was verified stops at the first peer or attribution that is
refused. What was imported before it stays, and the rest of the node is as it was.
-/
namespace QsolFed

namespace FederationObjectStore

variable {primitives : Primitives}

/-- A put writes no attribution but the one of the observation. -/
theorem Observation.put_attributions {observation : Observation} {placement : ForeignNamespace}
    {receivedAt : String} {before after : FederationObjectStore}
    {answer : Except StoreError ForeignObjectRecord}
    (ran : (observation.put primitives placement receivedAt).run before = (answer, after))
    (other : ForeignNamespace) (digest : String) {name : String} (lasting : Lasting name) :
    after.file? (.attributions other digest) name =
        before.file? (.attributions other digest) name ∨
      (other = placement ∧ digest = digestOf (observation.reference primitives) ∧
        name = keyFile primitives (observation.key primitives)) := by
  rcases Observation.put_cases ran with accrued | ⟨-, entered⟩
  · exact .inl (accrued.attributions other digest name)
  · obtain ⟨-, -, middle, raw, accrued, -, -, rfl⟩ := entered
    by_cases here : other = placement ∧ digest = digestOf (observation.reference primitives) ∧
        name = keyFile primitives (observation.key primitives)
    · exact .inr here
    · refine .inl ?_
      have apart : ¬(Directory.attributions other digest =
          .attributions placement (digestOf (observation.reference primitives)) ∧
          name = keyFile primitives (observation.key primitives)) := by
        rintro ⟨same, named⟩
        obtain ⟨rfl, rfl⟩ := Directory.attributions.inj same
        exact here ⟨rfl, rfl, named⟩
      rw [file?_placed, if_neg apart, if_neg fun same => lasting _ same.2]
      exact accrued.attributions other digest name

end FederationObjectStore

namespace Bundle

open Checked Json Canonical Peering PeerRegistry FederationObjectStore

variable {primitives : Primitives}

/-- The file of an attribution of a bundle. -/
def AttributionFile (primitives : Primitives) (object : BundleObject)
    (placement : ForeignNamespace) (digest name : String) : Prop :=
  placement = .quarantine ∧ digest = digestOf object.objectId ∧
    name = keyFile primitives ⟨object.sourceNode, object.provenanceId⟩

/-- No attributions but those of the objects were written. -/
def WritesOnly (primitives : Primitives) (objects : List BundleObject)
    (before after : FederationObjectStore) : Prop :=
  ∀ placement digest name, Lasting name →
    after.file? (.attributions placement digest) name =
        before.file? (.attributions placement digest) name ∨
      ∃ object ∈ objects, AttributionFile primitives object placement digest name

/-- Nothing was written. -/
theorem WritesOnly.refl {objects : List BundleObject} (store : FederationObjectStore) :
    WritesOnly primitives objects store store := fun _ _ _ _ => .inl rfl

/-- Attributions are written twice. -/
theorem WritesOnly.trans {objects : List BundleObject} {one two three : FederationObjectStore}
    (first : WritesOnly primitives objects one two)
    (second : WritesOnly primitives objects two three) :
    WritesOnly primitives objects one three := by
  intro placement digest name lasting
  rcases second placement digest name lasting with same | written
  · rw [same]
    exact first placement digest name lasting
  · exact .inr written

/-- The import of objects writes no attributions but theirs. -/
theorem leads_writesOnly {importedAt : String} {objects : List BundleObject}
    (verified : ∀ object ∈ objects, ∃ observation, ObjectVerified primitives object observation) :
    Effect.Leads (fun before after : Federation =>
        WritesOnly primitives objects before.store after.store)
      (Effect.forEach (importObject primitives importedAt) objects) := by
  refine Effect.leads_forEach ?_ ?_ fun object member => ?_
  · exact fun node => WritesOnly.refl node.store
  · exact fun one two three first second => WritesOnly.trans first second
  obtain ⟨observation, here⟩ := verified object member
  intro node
  rw [here.run]
  intro placement digest name lasting
  have ran : (observation.put primitives .quarantine importedAt).run node.store = (_, _) := rfl
  rcases Observation.put_attributions ran placement digest lasting with same | ⟨placed, id, file⟩
  · exact .inl same
  · refine .inr ⟨object, member, placed, ?_, ?_⟩
    · rw [← here.reference]
      exact id
    · rw [← here.source, ← here.provenanceId]
      exact file

/-- The peers and the objects of a bundle were imported, and nothing else was changed: the other
peers are as they were, no other attribution was written, and what the store has stays. -/
structure PartlyImported (primitives : Primitives) (peers : List BundlePeer)
    (objects : List BundleObject) (before after : Federation) : Prop where
  /-- The peers are shown. -/
  shown : ∀ peer ∈ peers, PeerShown primitives peer after
  /-- The other peers are left. -/
  others : ∀ nodeId, nodeId ∉ peers.map BundlePeer.nodeId →
    after.peers.get primitives nodeId = before.peers.get primitives nodeId
  /-- The attributions are there. -/
  held : ∀ object ∈ objects, ObjectShown primitives object after
  /-- No others were written. -/
  attributions : WritesOnly primitives objects before.store after.store
  /-- The store grew. -/
  grown : Grown .quarantine before.store after.store

/-- Peers are imported without the objects. -/
theorem partlyImported_peers {importedAt : String} (received : validTimestamp importedAt = true)
    {peers : List BundlePeer} (distinct : (peers.map BundlePeer.nodeId).Nodup)
    (ready : ∀ peer ∈ peers, ∃ material state fingerprint,
      Ready primitives peer material state fingerprint)
    {node middle : Federation} {results : List PUnit}
    (ran : (Effect.forEach (importPeer primitives importedAt) peers).run node =
      (.ok results, middle)) :
    middle.store = node.store ∧ PartlyImported primitives peers [] node middle := by
  have leads : Effect.Leads (fun before after : Federation => after.store = before.store)
      (Effect.forEach (importPeer primitives importedAt) peers) := by
    refine Effect.leads_forEach ?_ ?_ fun peer member => ?_
    · exact fun _ => rfl
    · exact fun _ _ _ first second => second.trans first
    obtain ⟨material, state, fingerprint, here⟩ := ready peer member
    intro start
    rw [here.run]
    rfl
  have store : middle.store = node.store := by
    have kept := leads node
    rwa [ran] at kept
  refine ⟨store, {
    shown := shown_of_importPeers received distinct ready ran
    others := fun nodeId apart => ?_
    held := List.forall_mem_nil _
    attributions := ?_
    grown := ?_ }⟩
  · have kept := (leads_importPeers ready received apart node).2
    rwa [ran] at kept
  · rw [store]
    exact WritesOnly.refl node.store
  · rw [store]
    exact Grown.refl node.store

/-- A peer that is revoked is refused. -/
theorem Ready.revoked {peer : BundlePeer} {material : Material} {state : IdentityState}
    {fingerprint : String} (ready : Ready primitives peer material state fingerprint)
    {importedAt : String} (received : validTimestamp importedAt = true) {node : Federation}
    {record : PeerRecord}
    (found : node.peers.get primitives peer.nodeId = .ok (some record))
    (revoked : record.state = .revoked) :
    ∃ error, (importPeer primitives importedAt peer).run node = (.error error, node) := by
  rw [ready.run]
  rw [← ready.1.same] at found
  have outcome := ready.2.outcome received node.peers
  generalize (importMaterial primitives importedAt material).run node.peers = ran at outcome ⊢
  obtain ⟨answer, registry⟩ := ran
  cases outcome with
  | refused error => exact ⟨.peering error, rfl⟩
  | new one two three unknown steps =>
    rw [found] at unknown
    cases unknown
  | known old disposition next known introduced =>
    obtain ⟨-, -, _, _, -, -, outcome⟩ := (introduce_ok_iff ..).mp introduced
    cases outcome with
    | new unknown written =>
      rw [found] at unknown
      cases unknown
    | duplicate other known open_ same sequence fingerprints unchanged =>
      obtain rfl := Option.some.inj (Except.ok.inj (found.symm.trans known))
      exact absurd revoked open_
    | extended other known open_ same sequence extends_ written =>
      obtain rfl := Option.some.inj (Except.ok.inj (found.symm.trans known))
      exact absurd revoked open_

/-- The document of the other recorded node verifies. -/
theorem localIdentity_rebuilt : ∃ state,
    rebuildPeerIdentity peerPrimitives Identity.localDocument [] = .ok state := by
  obtain ⟨payload, encoded⟩ := Identity.canonicalJson_of_check peerPrimitives
    (Crypto.identityPayload Identity.localDocument) (by decide) (by decide) (by decide)
  have verified : Identity.DocumentVerified peerPrimitives Identity.localDocument :=
    ⟨rfl, by decide, by decide +kernel, by decide +kernel, by decide +kernel,
      ⟨1787443200, rfl⟩, ⟨payload, encoded, verifySignature_tabulated _ payload (by decide +kernel) (by decide +kernel)
        (by simp [Identity.recordedSignatures])⟩⟩
  exact ⟨_, (rebuildPeerIdentity_ok_iff ..).mpr ⟨_, (Identity.fromDocument_ok_iff ..).mpr
    ⟨(Identity.verifyIdentityDocument_iff _).mpr verified, _, rfl, rfl⟩, rfl⟩⟩

/-- A bundle of a new peer and of one that the node has revoked. -/
theorem recorded_refusal : ∃ raw bundle node final error,
    BundleVerified peerPrimitives raw bundle ∧ bundle.objects = [] ∧
    (importContents peerPrimitives "2026-08-24T00:00:00Z" bundle).run node = (.error error, final) ∧
    node.peers.get peerPrimitives Identity.localDocument.nodeId = .ok none ∧
    final.peers.get peerPrimitives Identity.localDocument.nodeId ≠ .ok none := by
  have received : validTimestamp "2026-08-24T00:00:00Z" = true := by decide
  have each : ∀ document ∈ [Identity.localDocument, Identity.recordedDocument],
      (∃ state, rebuildPeerIdentity peerPrimitives document [] = .ok state) ∧
        writtenSize (Codecs.identity.encode document) * 2 ≤ maxBundleEmbeddedHexChars := by
    intro document member
    rcases List.mem_cons.mp member with rfl | member
    · refine ⟨localIdentity_rebuilt, ?_⟩
      rw [writtenSize_eq]
      decide +kernel
    · obtain rfl := List.mem_singleton.mp member
      refine ⟨⟨_, peerIdentity_rebuilt⟩, ?_⟩
      rw [writtenSize_eq]
      decide +kernel
  obtain ⟨raw, entries, related, verified⟩ := documented_bundle (by decide) (by decide) each
    (show Wire.isNodeId "fed:qsol:remote" = true by decide)
    (show validTimestamp "2026-08-23T00:03:00Z" = true by decide)
  obtain ⟨first, second, rfl, one, two⟩ : ∃ first second, entries = [first, second] ∧
      first.nodeId = Identity.localDocument.nodeId ∧
      second.nodeId = Identity.recordedDocument.nodeId := by
    cases related with
    | cons here rest =>
      obtain ⟨_, _, rfl, -⟩ := here
      cases rest with
      | cons here rest =>
        obtain ⟨_, _, rfl, -⟩ := here
        cases rest
        exact ⟨_, _, rfl, rfl, rfl⟩
  have listed : (assembled "fed:qsol:remote" "2026-08-23T00:03:00Z" [first, second] []).peers =
      [first, second] := by
    refine sortBy_of_pairwise _ (List.pairwise_pair.mpr ?_)
    rw [one, two]
    decide
  have none_ : ∀ text ∈ (none : Option String), Wire.isSha256Ref text = true :=
    fun _ given => by cases given
  obtain ⟨registry, written⟩ := recordedRecord_written PeerRegistry.empty .revoked none none 1
    none_ (fun same => by cases same) (fun _ given => by cases given) (by decide)
  have unknown : registry.get peerPrimitives Identity.localDocument.nodeId = .ok none := by
    rw [get_writePeer written, if_neg (by decide)]
    exact get_empty (by decide)
  obtain ⟨material, state, fingerprint, ready⟩ := verified.ready first (by simp [listed])
  have node_ : material.identity.nodeId = Identity.localDocument.nodeId := ready.1.same.trans one
  obtain ⟨_, _, three, steps⟩ := ready.2.steps received registry
  have imports : (importPeer peerPrimitives "2026-08-24T00:00:00Z" first).run
      ⟨registry, FederationObjectStore.empty⟩ =
        (.ok ⟨⟩, ⟨three, FederationObjectStore.empty⟩) := by
    rw [ready.run, (steps.runs ready.2 received (node_ ▸ unknown)).1]
    rfl
  have known : three.get peerPrimitives second.nodeId =
      .ok (some (recordedRecord .revoked none none none 1)) := by
    have apart : second.nodeId ≠ material.identity.nodeId := by
      rw [two, node_]
      decide
    rw [steps.get_of_ne apart, get_writePeer written, recordedRecord, if_pos two]
  obtain ⟨_, _, _, other⟩ := verified.ready second (by simp [listed])
  obtain ⟨error, refused⟩ := @Ready.revoked _ _ _ _ _ other _ received
    ⟨three, FederationObjectStore.empty⟩ _ known rfl
  refine ⟨raw, _, ⟨registry, FederationObjectStore.empty⟩, ⟨three, FederationObjectStore.empty⟩,
    error, verified, sortBy_of_pairwise _ .nil, ?_, unknown, ?_⟩
  · have peers : (Effect.forEach (importPeer peerPrimitives "2026-08-24T00:00:00Z")
        [first, second]).run ⟨registry, FederationObjectStore.empty⟩ =
          (.error error, ⟨three, FederationObjectStore.empty⟩) :=
      (Effect.run_forEach_error_iff ..).mpr ⟨[first], second, [], _, rfl,
        ⟨[⟨⟩], (Effect.run_forEach_cons_ok_iff ..).mpr ⟨⟨⟩, _, [], imports, rfl, rfl⟩⟩, refused⟩
    rw [importContents, listed, Effect.run_bind, peers]
  · rw [← node_, show PeerRegistry.get peerPrimitives three material.identity.nodeId =
      .ok (some _) from steps.get_self]
    intro same
    cases same

end Bundle

end QsolFed
