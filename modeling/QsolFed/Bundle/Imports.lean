import QsolFed.Bundle.Outcomes

/-!
# Imported bundles

What the import of a bundle does to a node. However it ends, the peers that were known keep their
state, their partition and their advertisement, and the attributions that were there keep their
records. What was imported once is found when it is imported again, and nothing is changed then.
-/
namespace QsolFed

open Checked Json Canonical Peering PeerRegistry FederationObjectStore

/-! ## The parts of a node -/

namespace Federation

/-- The registry is a part of a node. -/
theorem peers_part : Effect.Part peers withPeers := ⟨fun _ _ => rfl, fun _ _ _ => rfl⟩

/-- The store is a part of a node. -/
theorem store_part : Effect.Part store withStore := ⟨fun _ _ => rfl, fun _ _ _ => rfl⟩

/-- A computation over the registry leaves the store. -/
theorem run_onPeers {α : Type} (computation : Effect PeerRegistry PeeringError α)
    (node : Federation) : (onPeers computation).run node =
      ((computation.run node.peers).1.mapError .peering,
        node.withPeers (computation.run node.peers).2) :=
  Effect.run_within peers_part BundleError.peering computation rfl

/-- A computation over the store leaves the registry. -/
theorem run_onStore {α : Type} (computation : Effect FederationObjectStore StoreError α)
    (node : Federation) : (onStore computation).run node =
      ((computation.run node.store).1.mapError .store,
        node.withStore (computation.run node.store).2) :=
  Effect.run_within store_part BundleError.store computation rfl

end Federation

namespace Bundle

variable {primitives : Primitives}

/-- The import of a verified attribution puts what the bundle holds of it into the store. -/
theorem importObject_eq {object : BundleObject} {observation : Observation}
    (verified : ObjectVerified primitives object observation) (importedAt : String) :
    importObject primitives importedAt object =
      Federation.onStore (observation.put primitives .quarantine importedAt) >>= fun _ =>
        pure ⟨⟩ := by
  simp only [importObject, verified.bytes, verified.provenance, Effect.check_ok_bind,
    ← verified.source]
  rfl

/-! ## What is kept -/

/-- Every known peer and every attribution is kept. -/
structure Preserved (primitives : Primitives) (before after : Federation) : Prop where
  /-- Every known peer is kept. -/
  peers : PeersKept primitives before.peers after.peers
  /-- Every file of an attribution stays in its namespace. -/
  files : ∀ placement digest name bytes, Lasting name →
    before.store.file? (.attributions placement digest) name = some bytes →
      after.store.file? (.attributions placement digest) name = some bytes
  /-- Every attribution keeps its record. -/
  attributions : ∀ objectRef attribution record,
    before.store.findRecord primitives objectRef attribution = .ok (some record) →
      after.store.findRecord primitives objectRef attribution = .ok (some record)

/-- A node keeps what it knows. -/
theorem Preserved.refl (node : Federation) : Preserved primitives node node :=
  ⟨PeersKept.refl node.peers, fun _ _ _ _ _ found => found, fun _ _ _ found => found⟩

/-- What is kept twice is kept. -/
theorem Preserved.trans (one two three : Federation) (first : Preserved primitives one two)
    (second : Preserved primitives two three) : Preserved primitives one three :=
  ⟨PeersKept.trans _ _ _ first.peers second.peers,
    fun placement digest name bytes lasting found => second.files _ _ _ _ lasting
      (first.files placement digest name bytes lasting found),
    fun objectRef attribution record found => second.attributions _ _ _
      (first.attributions objectRef attribution record found)⟩

/-- A record that is found is named by two references. -/
theorem shape_of_findRecord {store : FederationObjectStore} {objectRef attribution : String}
    {record : ForeignObjectRecord}
    (found : store.findRecord primitives objectRef attribution = .ok (some record)) :
    Wire.isSha256Ref objectRef = true ∧ Wire.isSha256Ref attribution = true := by
  simp only [findRecord, bind_ok_iff] at found
  obtain ⟨digest, object, name, named, -⟩ := found
  exact ⟨((digestFromRef_ok_iff ..).mp object).1,
    ((named_iff ..).mp ((recordName_ok_iff ..).mp named)).1⟩

/-- What can be imported of a peer in a bundle. -/
def Ready (primitives : Primitives) (peer : BundlePeer) (material : Material)
    (state : IdentityState) (fingerprint : String) : Prop :=
  PeerVerified primitives peer material state ∧ Importable primitives material state fingerprint

/-- Every peer of a verified bundle can be imported. -/
theorem BundleVerified.ready {raw : ByteArray} {bundle : PortableFederationBundle}
    (verified : BundleVerified primitives raw bundle) : ∀ peer ∈ bundle.peers,
      ∃ material state fingerprint, Ready primitives peer material state fingerprint := by
  intro peer member
  obtain ⟨material, state, found⟩ := verified.peers peer member
  obtain ⟨fingerprint, importable⟩ := found.importable (verified.peer_size member)
  exact ⟨material, state, fingerprint, found, importable⟩

/-- The import of a peer in a bundle imports it into the registry. -/
theorem Ready.run {peer : BundlePeer} {material : Material} {state : IdentityState}
    {fingerprint : String} (ready : Ready primitives peer material state fingerprint)
    (importedAt : String) (node : Federation) :
    (importPeer primitives importedAt peer).run node =
      (((importMaterial primitives importedAt material).run node.peers).1.mapError .peering,
        node.withPeers ((importMaterial primitives importedAt material).run node.peers).2) := by
  rw [importPeer_eq ready.1, Federation.run_onPeers]

/-- The import of an attribution in a bundle puts it into the store. -/
theorem ObjectVerified.run {object : BundleObject} {observation : Observation}
    (verified : ObjectVerified primitives object observation) (importedAt : String)
    (node : Federation) : (importObject primitives importedAt object).run node =
      ((((observation.put primitives .quarantine importedAt).run node.store).1.mapError
        .store).map fun _ => ⟨⟩,
        node.withStore ((observation.put primitives .quarantine importedAt).run node.store).2) := by
  rw [importObject_eq verified, Effect.run_bind, Federation.run_onStore]
  cases ((observation.put primitives .quarantine importedAt).run node.store).1 <;> rfl

/-- The import of a peer keeps what a node knows. -/
theorem Ready.preserved {peer : BundlePeer} {material : Material} {state : IdentityState}
    {fingerprint : String} (ready : Ready primitives peer material state fingerprint)
    {importedAt : String} (received : validTimestamp importedAt = true) :
    Effect.Leads (Preserved primitives) (importPeer primitives importedAt peer) := by
  intro node
  rw [ready.run]
  exact ⟨ready.2.peersKept received node.peers, fun _ _ _ _ _ found => found,
    fun _ _ _ found => found⟩

/-- The import of an attribution keeps what a node knows. -/
theorem ObjectVerified.preserved {object : BundleObject} {observation : Observation}
    (verified : ObjectVerified primitives object observation) (importedAt : String) :
    Effect.Leads (Preserved primitives) (importObject primitives importedAt object) := by
  intro node
  rw [verified.run]
  have grown : Grown .quarantine node.store
      ((observation.put primitives .quarantine importedAt).run node.store).2 :=
    (Observation.between_put .quarantine importedAt).run node.store
  refine ⟨PeersKept.refl _, fun placement digest name bytes lasting found =>
    grown.keeps _ name bytes lasting found, fun objectRef attribution record found => ?_⟩
  obtain ⟨object, named⟩ := shape_of_findRecord found
  exact findRecord_grown grown object named found

variable (primitives) in
/-- Import the contents of a bundle. -/
def importContents (importedAt : String) (bundle : PortableFederationBundle) :
    Effect Federation BundleError PUnit := do
  let _ ← Effect.forEach (importPeer primitives importedAt) bundle.peers
  let _ ← Effect.forEach (importObject primitives importedAt) bundle.objects
  pure ⟨⟩

variable (primitives) in
/-- What is reported of an import. -/
def receiptOf (raw : ByteArray) (bundle : PortableFederationBundle) : BundleImportReceipt :=
  { bundleId := Digest.sha256Ref primitives raw
    peersImported := bundle.peers.length
    objectsImported := bundle.objects.length
    placement := "new_material_quarantined_existing_state_preserved"
    authority := "none"
    trustChanged := false }

/-- The import of a bundle is refused, or it imports the contents of the verified bundle. -/
theorem importBundle_cases (raw : ByteArray) (importedAt : String) :
    (∃ error, importBundle primitives raw importedAt = Effect.check (.error error) ∧
      ¬(validTimestamp importedAt = true ∧ ∃ bundle, BundleVerified primitives raw bundle)) ∨
    (validTimestamp importedAt = true ∧ ∃ bundle, BundleVerified primitives raw bundle ∧
      importBundle primitives raw importedAt = (do
        let _ ← importContents primitives importedAt bundle
        pure (receiptOf primitives raw bundle))) := by
  cases received : validTimestamp importedAt with
  | false =>
    refine .inl ⟨.code "bundle_import_time_invalid", ?_, by simp⟩
    rw [importBundle, received]
    rfl
  | true =>
    cases checked : verifyBundle primitives raw with
    | error error =>
      refine .inl ⟨error, ?_, ?_⟩
      · rw [importBundle, received, checked]
        rfl
      · rintro ⟨-, bundle, verified⟩
        have accepted := (verifyBundle_ok_iff ..).mpr ⟨bundle, verified, rfl⟩
        rw [checked] at accepted
        cases accepted
    | ok report =>
      obtain ⟨bundle, verified, rfl⟩ := (verifyBundle_ok_iff ..).mp checked
      refine .inr ⟨rfl, bundle, verified, ?_⟩
      have parsed : parse raw = .ok bundle := by
        rw [parse, verified.parsed]
        rfl
      have passed : ensure (validTimestamp importedAt = true)
          (BundleError.code "bundle_import_time_invalid") = .ok () := ensure_pos received _
      rw [importBundle, passed, checked, parsed]
      simp only [Effect.check_ok_bind, importContents, Effect.bind_assoc, Effect.pure_bind]
      rfl

/-- A verified bundle is imported by importing its contents. -/
theorem importBundle_verified {raw : ByteArray} {bundle : PortableFederationBundle}
    (verified : BundleVerified primitives raw bundle) {importedAt : String}
    (received : validTimestamp importedAt = true) :
    importBundle primitives raw importedAt = (do
      let _ ← importContents primitives importedAt bundle
      pure (receiptOf primitives raw bundle)) := by
  rcases @importBundle_cases primitives raw importedAt with
    ⟨_, -, refused⟩ | ⟨-, other, checked, imports⟩
  · exact absurd ⟨received, bundle, verified⟩ refused
  · obtain rfl := Option.some.inj (verified.parsed.symm.trans checked.parsed)
    exact imports

/-- The import of the contents of a verified bundle keeps what a node knows. -/
theorem BundleVerified.preserved {raw : ByteArray} {bundle : PortableFederationBundle}
    (verified : BundleVerified primitives raw bundle) {importedAt : String}
    (received : validTimestamp importedAt = true) :
    Effect.Leads (Preserved primitives) (importContents primitives importedAt bundle) := by
  have peers : Effect.Leads (Preserved primitives)
      (Effect.forEach (importPeer primitives importedAt) bundle.peers) := by
    refine Effect.leads_forEach Preserved.refl Preserved.trans fun peer member => ?_
    obtain ⟨material, state, fingerprint, ready⟩ := verified.ready peer member
    exact ready.preserved received
  have objects : Effect.Leads (Preserved primitives)
      (Effect.forEach (importObject primitives importedAt) bundle.objects) := by
    refine Effect.leads_forEach Preserved.refl Preserved.trans fun object member => ?_
    obtain ⟨observation, found⟩ := verified.objects object member
    exact found.preserved importedAt
  refine Effect.Leads.bind Preserved.trans peers fun _ => ?_
  refine Effect.Leads.bind Preserved.trans objects fun _ => ?_
  exact fun node => Preserved.refl node

/-! ## What was imported -/

/-- The registry shows a peer of a bundle. -/
def PeerShown (primitives : Primitives) (peer : BundlePeer) (node : Federation) : Prop :=
  ∃ material state fingerprint, Ready primitives peer material state fingerprint ∧
    Shown primitives material state fingerprint node.peers

/-- The store holds an attribution of a bundle. -/
def ObjectShown (primitives : Primitives) (object : BundleObject) (node : Federation) : Prop :=
  ∃ observation record, ObjectVerified primitives object observation ∧
    Held primitives observation record node.store

/-- The import of peers leaves the other peers, and the store. -/
theorem leads_importPeers {peers : List BundlePeer}
    (ready : ∀ peer ∈ peers, ∃ material state fingerprint,
      Ready primitives peer material state fingerprint) {importedAt : String}
    (received : validTimestamp importedAt = true) {nodeId : String}
    (apart : nodeId ∉ peers.map BundlePeer.nodeId) :
    Effect.Leads (fun before after : Federation => after.store = before.store ∧
        after.peers.get primitives nodeId = before.peers.get primitives nodeId)
      (Effect.forEach (importPeer primitives importedAt) peers) := by
  refine Effect.leads_forEach (fun _ => ⟨rfl, rfl⟩) (fun one two three first second =>
    ⟨second.1.trans first.1, second.2.trans first.2⟩) fun peer member => ?_
  obtain ⟨material, state, fingerprint, here⟩ := ready peer member
  intro node
  rw [here.run]
  refine ⟨rfl, here.2.get_of_ne received node.peers fun same => apart ?_⟩
  rw [same, here.1.same]
  exact List.mem_map_of_mem member

/-- Every peer that was imported is shown. -/
theorem shown_of_importPeers {importedAt : String} (received : validTimestamp importedAt = true) :
    ∀ {peers : List BundlePeer}, (peers.map BundlePeer.nodeId).Nodup →
      (∀ peer ∈ peers, ∃ material state fingerprint,
        Ready primitives peer material state fingerprint) →
      ∀ {node final : Federation} {results : List PUnit},
        (Effect.forEach (importPeer primitives importedAt) peers).run node = (.ok results, final) →
        ∀ peer ∈ peers, PeerShown primitives peer final
  | [], _, _, _, _, _, _ => nofun
  | head :: rest, distinct, ready, node, final, results, ran => by
    obtain ⟨first, middle, others, one, more, -⟩ := (Effect.run_forEach_cons_ok_iff ..).mp ran
    obtain ⟨apart, distinct⟩ := List.nodup_cons.mp distinct
    have later : ∀ peer ∈ rest, ∃ material state fingerprint,
        Ready primitives peer material state fingerprint :=
      fun peer member => ready peer (List.mem_cons_of_mem _ member)
    intro peer member
    rcases List.mem_cons.mp member with rfl | member
    · obtain ⟨material, state, fingerprint, here⟩ := ready peer List.mem_cons_self
      rw [here.run] at one
      obtain ⟨succeeded, rfl⟩ := Prod.mk.inj one
      have imported := (mapError_ok_iff ..).mp succeeded
      have shown := here.2.shown received (Prod.ext imported rfl)
      have kept := (leads_importPeers later received apart (node.withPeers
        ((importMaterial primitives importedAt material).run node.peers).2)).2
      rw [more, ← here.1.same] at kept
      exact ⟨material, state, fingerprint, here, shown.of_get kept⟩
    · exact shown_of_importPeers received distinct later more peer member

/-- Every attribution that was imported is held, and the registry is left. -/
theorem shown_of_importObjects {importedAt : String} :
    ∀ {objects : List BundleObject},
      (∀ object ∈ objects, ∃ observation, ObjectVerified primitives object observation) →
      ∀ {node final : Federation} {results : List PUnit},
        (Effect.forEach (importObject primitives importedAt) objects).run node =
          (.ok results, final) →
        final.peers = node.peers ∧ Grown .quarantine node.store final.store ∧
          ∀ object ∈ objects, ObjectShown primitives object final
  | [], _, node, _, _, ran => by
    obtain ⟨-, rfl⟩ := Prod.mk.inj ran
    exact ⟨rfl, Grown.refl _, nofun⟩
  | head :: rest, verified, node, final, results, ran => by
    obtain ⟨first, middle, others, one, more, -⟩ := (Effect.run_forEach_cons_ok_iff ..).mp ran
    obtain ⟨observation, here⟩ := verified head List.mem_cons_self
    rw [here.run] at one
    obtain ⟨succeeded, rfl⟩ := Prod.mk.inj one
    obtain ⟨record, put, -⟩ := (map_ok_iff ..).mp succeeded
    have imported := (mapError_ok_iff ..).mp put
    have held := Observation.held_of_put (Prod.ext imported rfl)
    have grown : Grown .quarantine node.store
        ((observation.put primitives .quarantine importedAt).run node.store).2 :=
      (Observation.between_put .quarantine importedAt).run node.store
    obtain ⟨peers, later, shown⟩ := shown_of_importObjects
      (fun object member => verified object (List.mem_cons_of_mem _ member)) more
    refine ⟨peers, Grown.trans _ _ _ grown later, fun object member => ?_⟩
    rcases List.mem_cons.mp member with rfl | member
    · exact ⟨observation, record, here, held.grown later⟩
    · exact shown object member

/-- Peers that are shown are imported by changing nothing. -/
theorem importPeers_again {importedAt : String} (received : validTimestamp importedAt = true)
    {node : Federation} : ∀ {peers : List BundlePeer},
      (∀ peer ∈ peers, PeerShown primitives peer node) →
      ∃ results, (Effect.forEach (importPeer primitives importedAt) peers).run node =
        (.ok results, node)
  | [], _ => ⟨[], rfl⟩
  | head :: rest, shown => by
    obtain ⟨material, state, fingerprint, ready, here⟩ := shown head List.mem_cons_self
    have one : (importPeer primitives importedAt head).run node = (.ok ⟨⟩, node) := by
      rw [ready.run, ready.2.again received here]
      rfl
    obtain ⟨results, more⟩ := importPeers_again received
      fun peer member => shown peer (List.mem_cons_of_mem _ member)
    exact ⟨⟨⟩ :: results, (Effect.run_forEach_cons_ok_iff ..).mpr
      ⟨⟨⟩, node, results, one, more, rfl⟩⟩

/-- Attributions that are held are imported by changing no file. -/
theorem importObjects_again {importedAt : String} (received : validTimestamp importedAt = true) :
    ∀ {objects : List BundleObject} {node : Federation},
      (∀ object ∈ objects, ObjectShown primitives object node) →
      ∃ results final, (Effect.forEach (importObject primitives importedAt) objects).run node =
        (.ok results, final) ∧ final.peers = node.peers ∧ Same node.store final.store
  | [], node, _ => ⟨[], node, rfl, rfl, Same.refl _⟩
  | head :: rest, node, shown => by
    obtain ⟨observation, record, verified, held⟩ := shown head List.mem_cons_self
    have ⟨store, put, same⟩ : ∃ store,
        (observation.put primitives .quarantine importedAt).run node.store = (.ok record, store) ∧
          Same node.store store := Observation.put_of_held verified.accepted received held
    have one : (importObject primitives importedAt head).run node =
        (.ok ⟨⟩, node.withStore store) := by
      rw [verified.run, put]
      rfl
    have later : ∀ object ∈ rest, ObjectShown primitives object (node.withStore store) := by
      intro object member
      obtain ⟨other, found, checked, kept⟩ := shown object (List.mem_cons_of_mem _ member)
      exact ⟨other, found, checked, kept.grown same.grown⟩
    obtain ⟨results, final, more, peers, more_⟩ := importObjects_again received later
    exact ⟨⟨⟩ :: results, final, (Effect.run_forEach_cons_ok_iff ..).mpr
      ⟨⟨⟩, _, results, one, more, rfl⟩, peers, same.trans more_⟩

/-- However the import of a bundle ends, known peers keep their state, their partition and their
advertisement, and attributions keep their records. When it succeeds, it succeeds again at any time
and then changes no peer and no file of the store. -/
theorem import_preserves (primitives : Primitives) (raw : ByteArray) (importedAt : String)
    (node : Federation) :
    Preserved primitives node ((importBundle primitives raw importedAt).run node).2 ∧
    ∀ receipt final,
      (importBundle primitives raw importedAt).run node = (.ok receipt, final) →
      ∀ again, validTimestamp again = true → ∃ last,
        (importBundle primitives raw again).run final = (.ok receipt, last) ∧
          last.peers = final.peers ∧ Same final.store last.store := by
  rcases @importBundle_cases primitives raw importedAt with
    ⟨error, refused, -⟩ | ⟨received, bundle, verified, imports⟩
  · rw [refused]
    refine ⟨Preserved.refl node, fun receipt final ran => ?_⟩
    cases (Prod.mk.inj ran).1
  · rw [imports]
    constructor
    · have kept := verified.preserved received node
      rw [Effect.run_bind]
      generalize (importContents primitives importedAt bundle).run node = ran at kept ⊢
      obtain ⟨result, final⟩ := ran
      cases result <;> exact kept
    · intro receipt final ran again valid
      obtain ⟨_, _, contents, reported⟩ := (Effect.run_bind_ok_iff ..).mp ran
      obtain ⟨succeeded, rfl⟩ := Prod.mk.inj reported
      obtain rfl := Except.ok.inj succeeded
      obtain ⟨_, middle, peers, rest⟩ := (Effect.run_bind_ok_iff ..).mp contents
      obtain ⟨_, finished, objects, ended⟩ := (Effect.run_bind_ok_iff ..).mp rest
      obtain ⟨-, rfl⟩ := Prod.mk.inj ended
      have shown := shown_of_importPeers received verified.distinctPeers verified.ready peers
      obtain ⟨kept, -, held⟩ := shown_of_importObjects verified.objects objects
      have peersShown : ∀ peer ∈ bundle.peers, PeerShown primitives peer finished := by
        intro peer member
        obtain ⟨material, state, fingerprint, ready, here⟩ := shown peer member
        exact ⟨material, state, fingerprint, ready, by rwa [kept]⟩
      obtain ⟨_, first⟩ := importPeers_again valid peersShown
      obtain ⟨_, last, second, peersSame, storeSame⟩ := importObjects_again valid held
      refine ⟨last, ?_, peersSame, storeSame⟩
      rcases @importBundle_cases primitives raw again with
        ⟨error, -, refused⟩ | ⟨-, other, checked, imports⟩
      · exact absurd ⟨valid, bundle, verified⟩ refused
      · obtain rfl := Option.some.inj (verified.parsed.symm.trans checked.parsed)
        rw [imports]
        refine (Effect.run_bind_ok_iff ..).mpr ⟨⟨⟩, last, ?_, rfl⟩
        exact (Effect.run_bind_ok_iff ..).mpr ⟨_, finished, first,
          (Effect.run_bind_ok_iff ..).mpr ⟨_, last, second, rfl⟩⟩

end Bundle

end QsolFed
