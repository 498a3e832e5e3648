import QsolFed.Bundle.Imports
import QsolFed.Bundle.Selections
import QsolFed.Peering.Extension
import QsolFed.Store.Repeats

/-!
# Interrupted imports

An import that was stopped is done again on what it left. Objects and peers that were written are
found, the others are written. Only a peer whose import was stopped between its first and its last
record is found as it was left: introduced and not quarantined, or without its advertisement.
-/
namespace QsolFed.Bundle

open Checked Json Canonical Peering PeerRegistry FederationObjectStore

variable {primitives : Primitives}

/-! ## Attributions -/

/-- Attributions are imported between the store before and a store that their import led to. -/
theorem importObjects_between {importedAt : String} {whole : FederationObjectStore} :
    ∀ {objects : List BundleObject},
      (∀ object ∈ objects, ∃ observation, ObjectVerified primitives object observation) →
      ∀ {node complete middle : Federation} {results : List PUnit},
        (Effect.forEach (importObject primitives importedAt) objects).run node =
          (.ok results, complete) →
        Grown .quarantine node.store middle.store → Grown .quarantine middle.store whole →
        Grown .quarantine complete.store whole →
        ∃ results last, (Effect.forEach (importObject primitives importedAt) objects).run middle =
          (.ok results, last) ∧ last.peers = middle.peers ∧
          Grown .quarantine complete.store last.store ∧ Grown .quarantine last.store whole
  | [], _, node, complete, middle, results, ran, lower, upper, _ => by
    obtain ⟨-, rfl⟩ := Prod.mk.inj ran
    exact ⟨[], middle, rfl, rfl, lower, upper⟩
  | head :: rest, verified, node, complete, middle, results, ran, lower, upper, limit => by
    obtain ⟨first, between, others, one, more, -⟩ := (Effect.run_forEach_cons_ok_iff ..).mp ran
    have later : ∀ object ∈ rest, ∃ observation, ObjectVerified primitives object observation :=
      fun object member => verified object (List.mem_cons_of_mem _ member)
    obtain ⟨observation, here⟩ := verified head List.mem_cons_self
    rw [here.run] at one
    obtain ⟨succeeded, rfl⟩ := Prod.mk.inj one
    obtain ⟨record, put, -⟩ := (map_ok_iff ..).mp succeeded
    have imported := (mapError_ok_iff ..).mp put
    obtain ⟨-, grown, -⟩ := shown_of_importObjects later more
    obtain ⟨found, store, again, reached, below⟩ := Observation.put_between
      (Prod.ext imported rfl) lower upper (Grown.trans _ _ _ grown limit)
    have reached : Grown .quarantine (node.withStore ((observation.put primitives .quarantine
        importedAt).run node.store).2).store (middle.withStore store).store := reached
    obtain ⟨results, last, ended, peers, forth, back⟩ := importObjects_between later more reached
      below limit
    have ran : (importObject primitives importedAt head).run middle =
        (.ok ⟨⟩, middle.withStore store) := by
      rw [here.run, again]
      rfl
    exact ⟨⟨⟩ :: results, last, (Effect.run_forEach_cons_ok_iff ..).mpr
      ⟨⟨⟩, _, results, ran, ended, rfl⟩, peers, forth, back⟩

/-- Attributions that fit and agree are imported. -/
theorem importObjects_of_fits {importedAt : String} (received : validTimestamp importedAt = true) :
    ∀ {objects : List BundleObject} {node : Federation},
      (∀ object ∈ objects, ∃ observation, ObjectVerified primitives object observation ∧
        Fits primitives observation node.store) →
      (∀ one ∈ objects, ∀ two ∈ objects, ∀ first second, ObjectVerified primitives one first →
        ObjectVerified primitives two second → Agree primitives first second) →
      ∃ results final, (Effect.forEach (importObject primitives importedAt) objects).run node =
        (.ok results, final)
  | [], node, _, _ => ⟨[], node, rfl⟩
  | head :: rest, node, fits, agree => by
    obtain ⟨observation, verified, here⟩ := fits head List.mem_cons_self
    have ⟨record, store, put⟩ : ∃ record store,
        (observation.put primitives .quarantine importedAt).run node.store = (.ok record, store) :=
      Observation.put_of_fits verified.accepted received here
    have one : (importObject primitives importedAt head).run node =
        (.ok ⟨⟩, node.withStore store) := by
      rw [verified.run, put]
      rfl
    have later : ∀ object ∈ rest, ∃ observation, ObjectVerified primitives object observation ∧
        Fits primitives observation (node.withStore store).store := by
      intro object member
      obtain ⟨other, checked, free⟩ := fits object (List.mem_cons_of_mem _ member)
      exact ⟨other, checked, free.put (agree object (List.mem_cons_of_mem _ member) head
        List.mem_cons_self other observation checked verified) put⟩
    obtain ⟨results, final, more⟩ := importObjects_of_fits received later
      fun one first two second => agree one (List.mem_cons_of_mem _ first) two
        (List.mem_cons_of_mem _ second)
    exact ⟨⟨⟩ :: results, final, (Effect.run_forEach_cons_ok_iff ..).mpr
      ⟨⟨⟩, _, results, one, more, rfl⟩⟩

/-! ## Peers -/

/-- A longer lifecycle is written to any registry and at any time. -/
theorem extended_writes {old : PeerRecord} {before state : IdentityState}
    (valid : RecordValid primitives old before) {lifecycle : List PeerLifecycleRecord}
    (rebuilt : rebuildPeerIdentity primitives old.identity lifecycle = .ok state)
    {fingerprint updatedAt : String}
    (computed : identityFingerprint primitives old.identity lifecycle = .ok fingerprint)
    (updated : Peering.validTimestamp updatedAt = true) {registry next : PeerRegistry}
    (written : registry.writePeer primitives
      (extendedRecord old lifecycle none updatedAt fingerprint state.sequence) = .ok next)
    {again : String} (received : Peering.validTimestamp again = true) (other : PeerRegistry) :
    ∃ last, other.writePeer primitives
      (extendedRecord old lifecycle none again fingerprint state.sequence) = .ok last := by
  obtain ⟨state_, path, raw, kept, -, -, -⟩ := (writePeer_ok_iff ..).mp written
  have checked : RecordValid primitives
      (extendedRecord old lifecycle none again fingerprint state.sequence) state_ :=
    { schema := kept.schema
      node := kept.node
      few := kept.few
      authority := kept.authority
      updated := received
      snapshot := kept.snapshot
      partition := kept.partition
      identity := kept.identity
      sequence := kept.sequence
      fingerprint := kept.fingerprint
      advertisement := kept.advertisement }
  have limits := (writePeer_iff kept registry).mp ⟨next, written⟩
  refine (writePeer_iff checked other).mpr ⟨limits.1, ?_⟩
  have one := writtenSize_extended valid rebuilt computed updated
  have two := writtenSize_extended valid rebuilt computed received
  change writtenSize _ ≤ _
  rw [two, ← one]
  exact limits.2

/-- A peer that was imported is imported into every registry that shows the same of it. -/
theorem Importable.transfer {material : Material} {state : IdentityState} {fingerprint : String}
    (importable : Importable primitives material state fingerprint) {importedAt : String}
    (received : Peering.validTimestamp importedAt = true) {registry final : PeerRegistry}
    (ran : (importMaterial primitives importedAt material).run registry = (.ok ⟨⟩, final))
    {again : String} (valid : Peering.validTimestamp again = true) {other : PeerRegistry}
    (same : other.get primitives material.identity.nodeId =
      registry.get primitives material.identity.nodeId) :
    ∃ last, (importMaterial primitives again material).run other = (.ok ⟨⟩, last) ∧
      (registry.get primitives material.identity.nodeId = .ok none →
        last.get primitives material.identity.nodeId =
          .ok (some (importedRecord material again fingerprint state.sequence))) := by
  have outcome : PeerOutcome primitives material importedAt state fingerprint registry (.ok ⟨⟩)
      final := by
    have outcome := importable.outcome received registry
    rwa [ran] at outcome
  cases outcome with
  | new one two three unknown steps =>
    obtain ⟨one, two, three, steps⟩ := importable.steps valid other
    exact ⟨three, (steps.runs importable valid (same.trans unknown)).1, fun _ => steps.get_self⟩
  | known old disposition next found introduced =>
    have existed : isKnown primitives material.identity.nodeId other = .ok true := by
      rw [isKnown, same, found]
      rfl
    obtain ⟨-, -, state_, fingerprint_, rebuilt, computed, outcome⟩ :=
      (introduce_ok_iff ..).mp introduced
    obtain rfl := Except.ok.inj (importable.rebuilt.symm.trans rebuilt)
    obtain rfl := Except.ok.inj (importable.fingerprint.symm.trans computed)
    have introducedAgain : ∃ answer last, introduce primitives material.identity material.lifecycle
        none again other = .ok (answer, last) := by
      cases outcome with
      | new unknown written =>
        rw [found] at unknown
        cases unknown
      | duplicate old_ known open_ document sequence fingerprints unchanged =>
        exact ⟨_, other, (introduce_ok_iff ..).mpr ⟨⟨importable.few, valid⟩, fun _ given => (by cases given), state,
          fingerprint, rebuilt, computed, .duplicate old_ (same.trans known) open_ document sequence
            fingerprints rfl⟩⟩
      | extended old_ known open_ document sequence extends_ written =>
        obtain ⟨before, stored⟩ := valid_of_get known
        have identity := SameDocument.eq (rebuilt_of_ok stored.identity).document
          (rebuilt_of_ok rebuilt).document document
        have rebuilt_ := rebuilt
        have computed_ := computed
        rw [← identity] at rebuilt_ computed_
        obtain ⟨last, again⟩ := extended_writes stored rebuilt_ computed_ received written valid
          other
        exact ⟨_, last, (introduce_ok_iff ..).mpr ⟨⟨importable.few, valid⟩, fun _ given => (by cases given), state,
          fingerprint, rebuilt, computed, .extended old_ (same.trans known) open_ document sequence
            extends_ again⟩⟩
    obtain ⟨answer, last, introducedAgain⟩ := introducedAgain
    refine ⟨last, ?_, fun unknown => ?_⟩
    · rw [importMaterial_eq, (Effect.read_bind _ existed).1, (Effect.read_bind _ existed).1,
        (Effect.atomic_bind _ introducedAgain).1]
      rfl
    · rw [found] at unknown
      cases unknown

/-- The import of a peer in a bundle leaves the other peers, and the store. -/
theorem Ready.leaves {peer : BundlePeer} {material : Material} {state : IdentityState}
    {fingerprint : String} (ready : Ready primitives peer material state fingerprint)
    {importedAt : String} (received : validTimestamp importedAt = true) {node final : Federation}
    {answer : Except BundleError PUnit}
    (ran : (importPeer primitives importedAt peer).run node = (answer, final)) :
    final.store = node.store ∧ ∀ nodeId, nodeId ≠ peer.nodeId →
      final.peers.get primitives nodeId = node.peers.get primitives nodeId := by
  rw [ready.run] at ran
  obtain ⟨-, rfl⟩ := Prod.mk.inj ran
  refine ⟨rfl, fun nodeId apart => ?_⟩
  rw [← ready.1.same] at apart
  exact ready.2.get_of_ne received node.peers apart

/-- A peer that is shown stays shown while its record is left. -/
theorem PeerShown.of_get {peer : BundlePeer} {before after : Federation}
    (shown : PeerShown primitives peer before)
    (same : after.peers.get primitives peer.nodeId = before.peers.get primitives peer.nodeId) :
    PeerShown primitives peer after := by
  obtain ⟨material, state, fingerprint, ready, here⟩ := shown
  rw [← ready.1.same] at same
  exact ⟨material, state, fingerprint, ready, here.of_get same⟩

variable (primitives) in
/-- The registry shows a peer as the import of a new one leaves it: quarantined and with the
advertisement of the bundle. -/
def QuarantinedAs (peer : BundlePeer) (registry : PeerRegistry) : Prop :=
  ∃ record, registry.get primitives peer.nodeId = .ok (some record) ∧
    record.state = .quarantined ∧ Option.Rel (Embeds primitives Codecs.advertisement)
      peer.capabilityAdvertisementHex record.capabilityAdvertisement

/-- The record that the import of a new peer leaves shows it as such. -/
theorem Ready.quarantinedAs {peer : BundlePeer} {material : Material} {state : IdentityState}
    {fingerprint : String} (ready : Ready primitives peer material state fingerprint)
    {importedAt : String} {registry : PeerRegistry}
    (found : registry.get primitives material.identity.nodeId =
      .ok (some (importedRecord material importedAt fingerprint state.sequence))) :
    QuarantinedAs primitives peer registry := by
  rw [ready.1.same] at found
  refine ⟨_, found, ?_⟩
  have advertisement := ready.1.advertisement
  rw [importedRecord]
  cases given : material.advertisement with
  | none =>
    rw [given] at advertisement
    exact ⟨rfl, advertisement⟩
  | some value =>
    rw [given] at advertisement
    exact ⟨rfl, advertisement⟩

/-- Peers that are untouched or shown are imported: those that are shown are left, and those that
were unknown are quarantined with their advertisements. -/
theorem importPeers_resume {importedAt again : String}
    (received : validTimestamp importedAt = true) (valid : validTimestamp again = true) :
    ∀ {peers : List BundlePeer}, (peers.map BundlePeer.nodeId).Nodup →
      (∀ peer ∈ peers, ∃ material state fingerprint,
        Ready primitives peer material state fingerprint) →
      ∀ {node complete stopped : Federation} {results : List PUnit},
        (Effect.forEach (importPeer primitives importedAt) peers).run node =
          (.ok results, complete) →
        (∀ peer ∈ peers, PeerShown primitives peer stopped ∨
          stopped.peers.get primitives peer.nodeId = node.peers.get primitives peer.nodeId) →
        ∃ results last, (Effect.forEach (importPeer primitives again) peers).run stopped =
            (.ok results, last) ∧ last.store = stopped.store ∧
          ∀ peer ∈ peers, (PeerShown primitives peer stopped →
              last.peers.get primitives peer.nodeId = stopped.peers.get primitives peer.nodeId) ∧
            (stopped.peers.get primitives peer.nodeId = .ok none →
              QuarantinedAs primitives peer last.peers)
  | [], _, _, _, _, stopped, _, _, _ => ⟨[], stopped, rfl, rfl, nofun⟩
  | head :: rest, distinct, ready, node, complete, stopped, results, ran, untouched => by
    obtain ⟨first, middle, others, one, more, -⟩ := (Effect.run_forEach_cons_ok_iff ..).mp ran
    obtain ⟨apart, distinct⟩ := List.nodup_cons.mp distinct
    have later : ∀ peer ∈ rest, ∃ material state fingerprint,
        Ready primitives peer material state fingerprint :=
      fun peer member => ready peer (List.mem_cons_of_mem _ member)
    have different : ∀ peer ∈ rest, peer.nodeId ≠ head.nodeId := fun peer member same =>
      apart (same ▸ List.mem_map_of_mem member)
    obtain ⟨material, state, fingerprint, here⟩ := ready head List.mem_cons_self
    have onward : ∃ next, (importPeer primitives again head).run stopped = (.ok ⟨⟩, next) ∧
        (PeerShown primitives head stopped → next = stopped) ∧
        (stopped.peers.get primitives head.nodeId = .ok none →
          QuarantinedAs primitives head next.peers) := by
      by_cases shown : PeerShown primitives head stopped
      · obtain ⟨material, state, fingerprint, here, known⟩ := shown
        refine ⟨stopped, ?_, fun _ => rfl, fun unknown => ?_⟩
        · rw [here.run, here.2.again valid known]
          rfl
        · obtain ⟨record, found, -⟩ := known
          rw [here.1.same, unknown] at found
          cases found
      · have same := (untouched head List.mem_cons_self).resolve_left shown
        rw [here.run] at one
        obtain ⟨succeeded, -⟩ := Prod.mk.inj one
        have imported := (mapError_ok_iff ..).mp succeeded
        rw [← here.1.same] at same
        obtain ⟨last, ended, quarantined⟩ := here.2.transfer received (Prod.ext imported rfl) valid
          same
        refine ⟨stopped.withPeers last, ?_, fun known => absurd known shown, fun unknown => ?_⟩
        · rw [here.run, ended]
          rfl
        · rw [← here.1.same, same] at unknown
          exact here.quarantinedAs (quarantined unknown)
    obtain ⟨next, stepped, kept, quarantined⟩ := onward
    have left := (here.leaves received one).2
    have right := (here.leaves valid stepped).2
    have touched : ∀ peer ∈ rest, PeerShown primitives peer next ∨
        next.peers.get primitives peer.nodeId = middle.peers.get primitives peer.nodeId := by
      intro peer member
      rcases untouched peer (List.mem_cons_of_mem _ member) with shown | same
      · exact .inl (shown.of_get (right _ (different peer member)))
      · exact .inr (by rw [right _ (different peer member), left _ (different peer member), same])
    obtain ⟨results, last, ended, store, each⟩ := importPeers_resume received valid distinct later
      more touched
    have frame := (leads_importPeers later valid apart next).2
    rw [ended] at frame
    refine ⟨⟨⟩ :: results, last, (Effect.run_forEach_cons_ok_iff ..).mpr
      ⟨⟨⟩, next, results, stepped, ended, rfl⟩, store.trans (here.leaves valid stepped).1,
      fun peer member => ?_⟩
    rcases List.mem_cons.mp member with rfl | member
    · refine ⟨fun shown => by rw [frame, kept shown], fun unknown => ?_⟩
      obtain ⟨record, found, rest_⟩ := quarantined unknown
      exact ⟨record, frame.trans found, rest_⟩
    · have same := right _ (different peer member)
      refine ⟨fun shown => ?_, fun unknown => ?_⟩
      · rw [(each peer member).1 (shown.of_get same), same]
      · exact (each peer member).2 (same.trans unknown)

/-! ## Stops -/

/-- Where the import of a peer can be stopped: before it wrote anything, or after it wrote a record
that shows the peer, which is the last one unless the peer is new. -/
theorem Importable.stopped {material : Material} {state : IdentityState} {fingerprint : String}
    (importable : Importable primitives material state fingerprint) {importedAt : String}
    (received : Peering.validTimestamp importedAt = true) {registry final : PeerRegistry}
    (ran : (importMaterial primitives importedAt material).run registry = (.ok ⟨⟩, final))
    {stopped : PeerRegistry}
    (member : stopped ∈ (importMaterial primitives importedAt material).states registry) :
    stopped = registry ∨ Shown primitives material state fingerprint stopped ∧
      (∀ nodeId, nodeId ≠ material.identity.nodeId →
        stopped.get primitives nodeId = registry.get primitives nodeId) ∧
      (registry.get primitives material.identity.nodeId = .ok none →
        stopped.get primitives material.identity.nodeId =
          .ok (some (importedRecord material importedAt fingerprint state.sequence)) ∨
        ∃ one two three,
          NewPeer primitives material importedAt state fingerprint registry one two three ∧
          (stopped = one ∨ material.advertisement.isSome = true ∧ stopped = two)) := by
  have outcome : PeerOutcome primitives material importedAt state fingerprint registry (.ok ⟨⟩)
      final := by
    have outcome := importable.outcome received registry
    rwa [ran] at outcome
  have shown := importable.shown received ran
  cases outcome with
  | new one two three unknown steps =>
    have first : ∀ nodeId, one.get primitives nodeId = if nodeId = material.identity.nodeId then
        .ok (some (introducedRecord material.identity material.lifecycle none importedAt fingerprint
          state.sequence)) else registry.get primitives nodeId :=
      get_writePeer steps.introduced
    have second : ∀ nodeId, two.get primitives nodeId = if nodeId = material.identity.nodeId then
        .ok (some (quarantinedRecord material importedAt fingerprint state.sequence))
        else one.get primitives nodeId := get_writePeer steps.quarantined
    have three_ : ∀ nodeId, nodeId ≠ material.identity.nodeId →
        final.get primitives nodeId = registry.get primitives nodeId :=
      fun nodeId apart => steps.get_of_ne apart
    rcases (steps.runs importable received unknown).2 stopped member with rfl | rfl | rfl | rfl
    · exact .inl rfl
    · refine .inr ⟨⟨_, (first _).trans (if_pos rfl), nofun, importable.encoded, rfl, rfl⟩,
        fun nodeId apart => (first nodeId).trans (if_neg apart), fun _ => .inr ⟨_, _, _, steps,
          .inl rfl⟩⟩
    · refine .inr ⟨⟨_, (second _).trans (if_pos rfl), nofun, importable.encoded, rfl, rfl⟩,
        fun nodeId apart => ?_, fun _ => ?_⟩
      · rw [second, if_neg apart, first, if_neg apart]
      · cases given : material.advertisement with
        | none =>
          refine .inl ((second _).trans ?_)
          rw [if_pos rfl, importedRecord, given]
        | some advertisement => exact .inr ⟨_, _, _, steps, .inr ⟨rfl, rfl⟩⟩
    · exact .inr ⟨shown, three_, fun _ => .inl steps.get_self⟩
  | known old disposition next found introduced =>
    have existed : isKnown primitives material.identity.nodeId registry = .ok true := by
      rw [isKnown, found]
      rfl
    rw [importMaterial_eq, (Effect.read_bind _ existed).2, (Effect.read_bind _ existed).2,
      (Effect.atomic_bind _ introduced).2] at member
    simp only [List.mem_cons] at member
    rcases member with rfl | rfl | rfl | last
    · exact .inl rfl
    · exact .inl rfl
    · exact .inl rfl
    · obtain rfl : stopped = final := List.mem_singleton.mp last
      refine .inr ⟨shown, fun nodeId apart => ?_, fun unknown => ?_⟩
      · have left := importable.get_of_ne received registry apart
        rwa [ran] at left
      · rw [found] at unknown
        cases unknown

/-- The import of a peer in a bundle is stopped where the import into the registry is. -/
theorem Ready.states {peer : BundlePeer} {material : Material} {state : IdentityState}
    {fingerprint : String} (ready : Ready primitives peer material state fingerprint)
    (importedAt : String) (node : Federation) :
    (importPeer primitives importedAt peer).states node =
      ((importMaterial primitives importedAt material).states node.peers).map fun registry =>
        node.withPeers registry := by
  rw [importPeer_eq ready.1]
  exact Effect.states_within Federation.peers_part BundleError.peering _ rfl

/-- The import of an attribution leaves the peers, and the store grows in between. -/
theorem between_importObject {object : BundleObject} {observation : Observation}
    (verified : ObjectVerified primitives object observation) (importedAt : String) :
    Effect.Between (fun before after : Federation => after.peers = before.peers ∧
      Grown .quarantine before.store after.store) (importObject primitives importedAt object) := by
  rw [importObject_eq verified]
  refine Effect.Between.bind (fun one two three first second => ⟨second.1.trans first.1,
    Grown.trans _ _ _ first.2 second.2⟩) ?_ fun _ =>
      Effect.between_done (fun node => ⟨rfl, Grown.refl _⟩) _
  intro node stopped member
  have states : (Federation.onStore (observation.put primitives .quarantine importedAt)).states
      node = ((observation.put primitives .quarantine importedAt).states node.store).map
        fun store => node.withStore store :=
    Effect.states_within Federation.store_part BundleError.store _ rfl
  rw [states] at member
  obtain ⟨store, inner, rfl⟩ := List.mem_map.mp member
  obtain ⟨before, after⟩ := Observation.between_put .quarantine importedAt node.store store inner
  rw [Federation.run_onStore]
  exact ⟨⟨rfl, before⟩, rfl, after⟩

/-- The import was stopped after the first and before the last record of a peer that was
unknown. -/
def CutShort (primitives : Primitives) (importedAt : String) (peers : List BundlePeer)
    (node stopped : Federation) : Prop :=
  ∃ before peer after results middle, peers = before ++ peer :: after ∧
    (Effect.forEach (importPeer primitives importedAt) before).run node = (.ok results, middle) ∧
    ∃ material state fingerprint one two three,
      Ready primitives peer material state fingerprint ∧
      middle.peers.get primitives material.identity.nodeId = .ok none ∧
      NewPeer primitives material importedAt state fingerprint middle.peers one two three ∧
      (stopped = middle.withPeers one ∨
        material.advertisement.isSome = true ∧ stopped = middle.withPeers two)

/-- What a stopped import of peers shows of a peer. -/
structure PeerStopped (primitives : Primitives) (importedAt : String) (peers : List BundlePeer)
    (node stopped : Federation) (peer : BundlePeer) : Prop where
  /-- The peer is shown or untouched. -/
  touched : PeerShown primitives peer stopped ∨
    stopped.peers.get primitives peer.nodeId = node.peers.get primitives peer.nodeId
  /-- A peer that was unknown is unknown or imported, unless its import was cut short. -/
  settled : ¬CutShort primitives importedAt peers node stopped →
    node.peers.get primitives peer.nodeId = .ok none →
      stopped.peers.get primitives peer.nodeId = .ok none ∨
        QuarantinedAs primitives peer stopped.peers

/-- Peers that were imported are shown, and those that were unknown are quarantined with their
advertisements. -/
theorem imported_peers {importedAt : String} (received : validTimestamp importedAt = true)
    {peers : List BundlePeer} (distinct : (peers.map BundlePeer.nodeId).Nodup)
    (ready : ∀ peer ∈ peers, ∃ material state fingerprint,
      Ready primitives peer material state fingerprint)
    {node complete : Federation} {results : List PUnit}
    (ran : (Effect.forEach (importPeer primitives importedAt) peers).run node =
      (.ok results, complete)) : complete.store = node.store ∧ ∀ peer ∈ peers,
        PeerShown primitives peer complete ∧
          (node.peers.get primitives peer.nodeId = .ok none →
            QuarantinedAs primitives peer complete.peers) := by
  obtain ⟨_, last, again, store, each⟩ := importPeers_resume received received distinct ready ran
    fun _ _ => .inr rfl
  rw [ran] at again
  obtain ⟨-, rfl⟩ := Prod.mk.inj again
  exact ⟨store, fun peer member =>
    ⟨shown_of_importPeers received distinct ready ran peer member, (each peer member).2⟩⟩

/-- A stopped import of peers shows or leaves each peer. -/
theorem stopped_importPeers {importedAt : String} (received : validTimestamp importedAt = true)
    {peers : List BundlePeer} (distinct : (peers.map BundlePeer.nodeId).Nodup)
    (ready : ∀ peer ∈ peers, ∃ material state fingerprint,
      Ready primitives peer material state fingerprint)
    {node complete stopped : Federation} {results : List PUnit}
    (ran : (Effect.forEach (importPeer primitives importedAt) peers).run node =
      (.ok results, complete))
    (member : stopped ∈ (Effect.forEach (importPeer primitives importedAt) peers).states node) :
    stopped.store = node.store ∧ ∀ peer ∈ peers,
      PeerStopped primitives importedAt peers node stopped peer := by
  rcases (Effect.mem_states_forEach ..).mp member with
    ⟨results, ended⟩ | ⟨before, peer, after, middle, rfl, ⟨earlier, begun⟩, inside⟩
  · obtain ⟨store, each⟩ := imported_peers received distinct ready ended
    exact ⟨store, fun peer member => ⟨.inl (each peer member).1, fun _ unknown =>
      .inr ((each peer member).2 unknown)⟩⟩
  · rw [List.map_append, List.map_cons, List.nodup_append] at distinct
    obtain ⟨distinctBefore, distinctRest, apart⟩ := distinct
    have readyBefore : ∀ other ∈ before, ∃ material state fingerprint,
        Ready primitives other material state fingerprint :=
      fun other listed => ready other (List.mem_append_left _ listed)
    obtain ⟨material, state, fingerprint, here⟩ :=
      ready peer (List.mem_append_right _ List.mem_cons_self)
    have inMiddle : ∀ other ∈ before, other.nodeId ≠ peer.nodeId := fun other listed =>
      apart _ (List.mem_map_of_mem listed) _ List.mem_cons_self
    have inAfter : ∀ other ∈ after, other.nodeId ≠ peer.nodeId := fun other listed same =>
      (List.nodup_cons.mp distinctRest).1 (same ▸ List.mem_map_of_mem listed)
    obtain ⟨storeBefore, eachBefore⟩ := imported_peers received distinctBefore readyBefore begun
    have frame : ∀ other ∈ peer :: after, middle.peers.get primitives other.nodeId =
        node.peers.get primitives other.nodeId := by
      intro other listed
      have unlisted : other.nodeId ∉ before.map BundlePeer.nodeId := by
        intro found
        obtain ⟨first, there, same⟩ := List.mem_map.mp found
        exact apart _ (List.mem_map_of_mem there) _ (List.mem_map_of_mem listed) same
      have left := (leads_importPeers readyBefore received unlisted node).2
      rwa [begun] at left
    obtain ⟨between, ⟨_, begun_⟩, _, rest⟩ :=
      (Effect.run_forEach_append_ok_iff ..).mp ⟨results, ran⟩
    rw [begun] at begun_
    obtain ⟨-, rfl⟩ := Prod.mk.inj begun_
    obtain ⟨⟨⟩, following, _, stepped, -, -⟩ := (Effect.run_forEach_cons_ok_iff ..).mp rest
    rw [here.run] at stepped
    obtain ⟨succeeded, -⟩ := Prod.mk.inj stepped
    have imported := (mapError_ok_iff ..).mp succeeded
    rw [here.states] at inside
    obtain ⟨registry, stop, rfl⟩ := List.mem_map.mp inside
    refine ⟨storeBefore, ?_⟩
    have stopped_ := here.2.stopped received (Prod.ext imported rfl) stop
    have others : ∀ nodeId, nodeId ≠ peer.nodeId →
        registry.get primitives nodeId = middle.peers.get primitives nodeId := by
      intro nodeId different
      rcases stopped_ with rfl | ⟨-, left, -⟩
      · rfl
      · exact left nodeId (here.1.same ▸ different)
    intro other listed
    rcases List.mem_append.mp listed with early | late
    · obtain ⟨shown, settled⟩ := eachBefore other early
      have same := others _ (inMiddle other early)
      refine ⟨.inl (shown.of_get same), fun _ unknown => .inr ?_⟩
      obtain ⟨record, found, rest_⟩ := settled unknown
      exact ⟨record, same.trans found, rest_⟩
    · rcases List.mem_cons.mp late with rfl | later
      · have start := frame other List.mem_cons_self
        rcases stopped_ with rfl | ⟨shown, -, new⟩
        · exact ⟨.inr start, fun _ unknown => .inl (start.trans unknown)⟩
        · refine ⟨.inl ⟨material, state, fingerprint, here, shown⟩, fun whole unknown => .inr ?_⟩
          rw [← start, ← here.1.same] at unknown
          rcases new unknown with found | ⟨one, two, three, steps, cut⟩
          · exact here.quarantinedAs found
          · refine absurd ⟨before, other, after, earlier, middle, rfl, begun, material, state,
              fingerprint, one, two, three, here, unknown, steps, ?_⟩ whole
            rcases cut with rfl | ⟨advertised, rfl⟩
            · exact .inl rfl
            · exact .inr ⟨advertised, rfl⟩
      · have same := (others _ (inAfter other later)).trans
          (frame other (List.mem_cons_of_mem _ later))
        exact ⟨.inr same, fun _ unknown => .inl (same.trans unknown)⟩

/-- A peer whose import was cut short was unknown, and it is not shown as imported. -/
theorem CutShort.unsettled {importedAt : String} (received : validTimestamp importedAt = true)
    {peers : List BundlePeer} (distinct : (peers.map BundlePeer.nodeId).Nodup)
    (ready : ∀ peer ∈ peers, ∃ material state fingerprint,
      Ready primitives peer material state fingerprint) {node stopped : Federation}
    (cut : CutShort primitives importedAt peers node stopped) :
    ∃ peer ∈ peers, node.peers.get primitives peer.nodeId = .ok none ∧
      stopped.peers.get primitives peer.nodeId ≠ .ok none ∧
      ¬QuarantinedAs primitives peer stopped.peers := by
  obtain ⟨before, peer, after, results, middle, rfl, begun, material, state, fingerprint, one, two,
    three, here, unknown, steps, stop⟩ := cut
  rw [List.map_append, List.map_cons, List.nodup_append] at distinct
  obtain ⟨-, -, apart⟩ := distinct
  have unlisted : peer.nodeId ∉ before.map BundlePeer.nodeId := fun found =>
    apart _ found _ List.mem_cons_self rfl
  have left := (leads_importPeers (fun other listed => ready other (List.mem_append_left _ listed))
    received unlisted node).2
  rw [begun] at left
  have node_ := here.1.same
  rw [node_] at unknown
  refine ⟨peer, List.mem_append_right _ List.mem_cons_self, left.symm.trans unknown, ?_⟩
  have first := (get_writePeer steps.introduced peer.nodeId).trans (if_pos node_.symm)
  have second := (get_writePeer steps.quarantined peer.nodeId).trans (if_pos node_.symm)
  rcases stop with rfl | ⟨advertised, rfl⟩
  · refine ⟨fun none_ => ?_, fun ⟨record, found, quarantined, _⟩ => ?_⟩
    · have there : one.get primitives peer.nodeId = .ok none := none_
      rw [first] at there
      cases there
    · have there : one.get primitives peer.nodeId = .ok (some record) := found
      rw [first] at there
      obtain rfl := Option.some.inj (Except.ok.inj there)
      cases quarantined
  · refine ⟨fun none_ => ?_, fun ⟨record, found, _, related⟩ => ?_⟩
    · have there : two.get primitives peer.nodeId = .ok none := none_
      rw [second] at there
      cases there
    · have there : two.get primitives peer.nodeId = .ok (some record) := found
      rw [second] at there
      obtain rfl := Option.some.inj (Except.ok.inj there)
      have absent : Option.Rel (Embeds primitives Codecs.advertisement)
          peer.capabilityAdvertisementHex none := related
      have embedded := here.1.advertisement
      cases given : peer.capabilityAdvertisementHex with
      | none =>
        rw [given] at embedded
        generalize material.advertisement = advertisement at embedded advertised
        cases embedded
        cases advertised
      | some text =>
        rw [given] at absent
        cases absent

/-- An import that succeeds can be stopped and done again at any time. It succeeds, and every
attribution is there; done at the same time, it leaves the same files. Every peer that was unknown
is quarantined with the advertisement of the bundle exactly when the import was not stopped between
the first and the last record of such a peer. -/
theorem resumed_iff (primitives : Primitives) {raw : ByteArray} {importedAt : String}
    {node complete : Federation} {receipt : BundleImportReceipt}
    (imported : (importBundle primitives raw importedAt).run node = (.ok receipt, complete))
    {stopped : Federation}
    (member : stopped ∈ (importBundle primitives raw importedAt).states node) {again : String}
    (valid : validTimestamp again = true) {bundle : PortableFederationBundle}
    (parsed : fromSlice Codecs.bundle raw = some bundle) :
    ∃ last, (importBundle primitives raw again).run stopped = (.ok receipt, last) ∧
      (∀ object ∈ bundle.objects, ObjectShown primitives object last) ∧
      (again = importedAt → ∀ directory name, Lasting name →
        last.store.file? directory name = complete.store.file? directory name) ∧
      ((∀ peer ∈ bundle.peers, node.peers.get primitives peer.nodeId = .ok none →
          QuarantinedAs primitives peer last.peers) ↔
        ¬CutShort primitives importedAt bundle.peers node stopped) := by
  rcases @importBundle_cases primitives raw importedAt with
    ⟨error, refused, -⟩ | ⟨received, other, verified, imports⟩
  · rw [refused] at imported
    cases (Prod.mk.inj imported).1
  obtain rfl := Option.some.inj (verified.parsed.symm.trans parsed)
  rw [imports] at imported member
  obtain ⟨_, _, contents, reported⟩ := (Effect.run_bind_ok_iff ..).mp imported
  obtain ⟨succeeded, rfl⟩ := Prod.mk.inj reported
  obtain rfl := Except.ok.inj succeeded
  obtain ⟨_, middle, peers, rest⟩ := (Effect.run_bind_ok_iff ..).mp contents
  obtain ⟨_, finished, objects, ended⟩ := (Effect.run_bind_ok_iff ..).mp rest
  obtain ⟨-, rfl⟩ := Prod.mk.inj ended
  obtain ⟨storeMiddle, eachMiddle⟩ := imported_peers received verified.distinctPeers verified.ready
    peers
  have between : Effect.Between (fun before after : Federation => after.peers = before.peers ∧
      Grown .quarantine before.store after.store)
      (Effect.forEach (importObject primitives importedAt) other.objects) := by
    refine Effect.between_forEach (fun node => ⟨rfl, Grown.refl _⟩)
      (fun one two three first second =>
        ⟨second.1.trans first.1, Grown.trans _ _ _ first.2 second.2⟩) fun object listed => ?_
    obtain ⟨observation, found⟩ := verified.objects object listed
    exact between_importObject found importedAt
  have grown : Grown .quarantine middle.store finished.store := by
    have whole := (between.run middle).2
    rwa [objects] at whole
  have afterPeers : ∀ later, later.peers = middle.peers →
      Grown .quarantine middle.store later.store → Grown .quarantine later.store finished.store →
      (∀ peer ∈ other.peers, PeerStopped primitives importedAt other.peers node later peer) ∧
        Grown .quarantine middle.store later.store ∧
        Grown .quarantine later.store finished.store := by
    intro later same lower upper
    refine ⟨fun peer listed => ⟨.inl ?_, fun _ unknown => .inr ?_⟩, lower, upper⟩
    · exact (eachMiddle peer listed).1.of_get (by rw [same])
    · rw [same]
      exact (eachMiddle peer listed).2 unknown
  have stop : (∀ peer ∈ other.peers,
        PeerStopped primitives importedAt other.peers node stopped peer) ∧
      Grown .quarantine middle.store stopped.store ∧
      Grown .quarantine stopped.store finished.store := by
    have inside : stopped ∈ (importContents primitives importedAt other).states node := by
      rcases (Effect.mem_states_bind ..).mp member with early | ⟨_, last, ran, late⟩
      · exact early
      · obtain rfl := List.mem_singleton.mp late
        have final := Effect.run_mem_states (importContents primitives importedAt other) node
        rwa [ran] at final
    rcases (Effect.mem_states_bind ..).mp inside with early | ⟨_, after, ran, late⟩
    · obtain ⟨store, each⟩ := stopped_importPeers received verified.distinctPeers verified.ready
        peers early
      rw [store, ← storeMiddle]
      exact ⟨each, Grown.refl _, grown⟩
    · rw [peers] at ran
      obtain ⟨-, rfl⟩ := Prod.mk.inj ran
      rcases (Effect.mem_states_bind ..).mp late with during | ⟨_, last, ran, end_⟩
      · obtain ⟨before, following⟩ := between middle stopped during
        rw [objects] at following
        exact afterPeers stopped before.1 before.2 following.2
      · rw [objects] at ran
        obtain ⟨-, rfl⟩ := Prod.mk.inj ran
        obtain rfl := List.mem_singleton.mp end_
        have whole := between.run middle
        rw [objects] at whole
        exact afterPeers _ whole.1 whole.2 (Grown.refl _)
  obtain ⟨each, lower, upper⟩ := stop
  obtain ⟨-, -, held⟩ := shown_of_importObjects verified.objects objects
  obtain ⟨_, resumed, peersAgain, storeAgain, eachAgain⟩ := importPeers_resume received valid
    verified.distinctPeers verified.ready peers fun peer listed => (each peer listed).touched
  have fits : ∀ object ∈ other.objects, ∃ observation,
      ObjectVerified primitives object observation ∧
        Fits primitives observation resumed.store := by
    intro object listed
    obtain ⟨observation, record, found, here⟩ := held object listed
    rw [storeAgain]
    exact ⟨observation, found, here.fits_below upper⟩
  obtain ⟨_, last, objectsAgain⟩ := importObjects_of_fits valid fits
    fun one first two second left right leftFound rightFound => by
      obtain ⟨_, _, leftAgain, leftHeld⟩ := held one first
      obtain ⟨_, _, rightAgain, rightHeld⟩ := held two second
      obtain rfl := leftFound.unique leftAgain
      obtain rfl := rightFound.unique rightAgain
      exact leftHeld.agree rightHeld
  obtain ⟨samePeers, -, shownAgain⟩ := shown_of_importObjects verified.objects objectsAgain
  have run : (importBundle primitives raw again).run stopped =
      (.ok (receiptOf primitives raw other), last) := by
    rw [importBundle_verified verified valid]
    refine (Effect.run_bind_ok_iff ..).mpr ⟨⟨⟩, last, ?_, rfl⟩
    exact (Effect.run_bind_ok_iff ..).mpr ⟨_, resumed, peersAgain,
      (Effect.run_bind_ok_iff ..).mpr ⟨_, last, objectsAgain, rfl⟩⟩
  refine ⟨last, run, shownAgain, ?_, ?_⟩
  · rintro rfl directory name lasting
    rw [← storeAgain] at lower upper
    obtain ⟨_, ended, ran, -, forth, back⟩ := importObjects_between verified.objects objects lower
      upper (Grown.refl _)
    rw [objectsAgain] at ran
    obtain ⟨-, rfl⟩ := Prod.mk.inj ran
    exact forth.same back directory lasting
  · rw [samePeers]
    constructor
    · intro quarantined cut
      obtain ⟨peer, listed, unknown, known, unsettled⟩ := cut.unsettled received
        verified.distinctPeers verified.ready
      obtain ⟨record, found, rest_⟩ := quarantined peer listed unknown
      have shown := (each peer listed).touched.resolve_right fun same =>
        known (same.trans unknown)
      have same := (eachAgain peer listed).1 shown
      exact unsettled ⟨record, same.symm.trans found, rest_⟩
    · intro whole peer listed unknown
      rcases (each peer listed).settled whole unknown with absent | ⟨record, found, rest_⟩
      · exact (eachAgain peer listed).2 absent
      · have shown := (each peer listed).touched.resolve_right fun same => by
          rw [unknown, found] at same
          cases same
        exact ⟨record, ((eachAgain peer listed).1 shown).trans found, rest_⟩

/-- A node that knows nothing. -/
def emptyNode : Federation := ⟨PeerRegistry.empty, FederationObjectStore.empty⟩

/-- A bundle with one recorded peer. -/
theorem recorded_bundle : ∃ raw peer state,
    PeerVerified peerPrimitives peer ⟨Identity.recordedDocument, [], none⟩ state ∧
    BundleVerified peerPrimitives raw
      (assembled "fed:qsol:remote" "2026-08-23T00:03:00Z" [peer] []) := by
  have small : writtenSize (Codecs.identity.encode Identity.recordedDocument) * 2 ≤
      maxBundleEmbeddedHexChars := by
    rw [writtenSize_eq]
    decide +kernel
  have each : ∀ document ∈ [Identity.recordedDocument],
      (∃ state, rebuildPeerIdentity peerPrimitives document [] = .ok state) ∧
        writtenSize (Codecs.identity.encode document) * 2 ≤ maxBundleEmbeddedHexChars := by
    intro document member
    obtain rfl := List.mem_singleton.mp member
    exact ⟨⟨_, peerIdentity_rebuilt⟩, small⟩
  obtain ⟨raw, entries, related, verified⟩ := documented_bundle (by decide) (by simp) each
    (show Wire.isNodeId "fed:qsol:remote" = true by decide)
    (show validTimestamp "2026-08-23T00:03:00Z" = true by decide)
  cases related with
  | cons here rest =>
    cases rest
    obtain ⟨identityHex, state, rfl, peer⟩ := here
    exact ⟨raw, _, state, peer, verified⟩

/-- The import of a new peer passes through its introduction. -/
theorem NewPeer.introduced_mem {material : Material} {state : IdentityState}
    {fingerprint importedAt : String} {registry one two three : PeerRegistry}
    (importable : Importable primitives material state fingerprint)
    (received : Peering.validTimestamp importedAt = true)
    (steps : NewPeer primitives material importedAt state fingerprint registry one two three)
    (unknown : registry.get primitives material.identity.nodeId = .ok none) :
    one ∈ (importMaterial primitives importedAt material).states registry := by
  have existed : isKnown primitives material.identity.nodeId registry = .ok false := by
    rw [isKnown, unknown]
    rfl
  have introduced : introduce primitives material.identity material.lifecycle none importedAt
      registry = .ok (.applied, one) :=
    (introduce_ok_iff ..).mpr ⟨⟨importable.few, received⟩, fun _ given => (by cases given), state,
      fingerprint, importable.rebuilt, importable.fingerprint, .new unknown steps.introduced⟩
  rw [importMaterial_eq, (Effect.read_bind _ existed).2, (Effect.read_bind _ existed).2,
    (Effect.atomic_bind _ introduced).2]
  simp only [List.mem_cons]
  exact .inr (.inr (.inr (Effect.start_mem_states ..)))

/-- What a stop after the first record of the recorded peer leaves: the import succeeds, it passes
through this, and the peer is shown without being settled. -/
theorem recorded_cut : ∃ raw peer complete stopped,
    BundleVerified peerPrimitives raw
      (assembled "fed:qsol:remote" "2026-08-23T00:03:00Z" [peer] []) ∧
    (importContents peerPrimitives "2026-08-24T00:00:00Z"
      (assembled "fed:qsol:remote" "2026-08-23T00:03:00Z" [peer] [])).run emptyNode =
        (.ok ⟨⟩, complete) ∧
    stopped ∈ (importContents peerPrimitives "2026-08-24T00:00:00Z"
      (assembled "fed:qsol:remote" "2026-08-23T00:03:00Z" [peer] [])).states emptyNode ∧
    PeerShown peerPrimitives peer stopped ∧
    CutShort peerPrimitives "2026-08-24T00:00:00Z" [peer] emptyNode stopped := by
  obtain ⟨raw, peer, identity, -, verified⟩ := recorded_bundle
  have received : validTimestamp "2026-08-24T00:00:00Z" = true := by decide
  have listed : (assembled "fed:qsol:remote" "2026-08-23T00:03:00Z" [peer] []).peers = [peer] :=
    sortBy_of_pairwise _ (List.pairwise_singleton _ _)
  have none_ : (assembled "fed:qsol:remote" "2026-08-23T00:03:00Z" [peer] []).objects = [] :=
    sortBy_of_pairwise _ .nil
  obtain ⟨material, state, fingerprint, ready⟩ := verified.ready peer (by simp [listed])
  have unknown : emptyNode.peers.get peerPrimitives material.identity.nodeId = .ok none := by
    rw [ready.1.same]
    exact get_empty ready.1.node
  obtain ⟨one, two, three, steps⟩ := ready.2.steps received emptyNode.peers
  have imports : (importPeer peerPrimitives "2026-08-24T00:00:00Z" peer).run emptyNode =
      (.ok ⟨⟩, emptyNode.withPeers three) := by
    rw [ready.run, (steps.runs ready.2 received unknown).1]
    rfl
  have inside : emptyNode.withPeers one ∈
      (importPeer peerPrimitives "2026-08-24T00:00:00Z" peer).states emptyNode := by
    rw [ready.states]
    exact List.mem_map_of_mem (steps.introduced_mem ready.2 received unknown)
  have found := (get_writePeer steps.introduced material.identity.nodeId).trans (if_pos rfl)
  refine ⟨raw, peer, emptyNode.withPeers three, emptyNode.withPeers one, verified, ?_, ?_,
    ⟨material, state, fingerprint, ready, _, found, nofun, ready.2.encoded, rfl, rfl⟩,
    [], peer, [], [], emptyNode, rfl, rfl, material, state, fingerprint, one, two, three, ready,
    unknown, steps, .inl rfl⟩
  · rw [importContents, listed, none_]
    refine (Effect.run_bind_ok_iff ..).mpr ⟨[⟨⟩], emptyNode.withPeers three, ?_, rfl⟩
    exact (Effect.run_forEach_cons_ok_iff ..).mpr ⟨⟨⟩, _, [], imports, rfl, rfl⟩
  · rw [importContents, listed, none_]
    refine (Effect.mem_states_bind ..).mpr (.inl ?_)
    exact (Effect.mem_states_forEach ..).mpr (.inr ⟨[], peer, [], emptyNode, rfl, ⟨[], rfl⟩,
      inside⟩)

/-- An import that is stopped after the first record of a new peer, and done again, leaves the peer
as it was introduced. -/
theorem interrupted_peer_left : ∃ raw bundle receipt complete stopped last,
    fromSlice Codecs.bundle raw = some bundle ∧
    (importBundle peerPrimitives raw "2026-08-24T00:00:00Z").run emptyNode =
      (.ok receipt, complete) ∧
    stopped ∈ (importBundle peerPrimitives raw "2026-08-24T00:00:00Z").states emptyNode ∧
    (importBundle peerPrimitives raw "2026-08-24T00:00:00Z").run stopped = (.ok receipt, last) ∧
    ∃ peer ∈ bundle.peers, emptyNode.peers.get peerPrimitives peer.nodeId = .ok none ∧
      ¬QuarantinedAs peerPrimitives peer last.peers := by
  obtain ⟨raw, peer, complete, stopped, verified, ran, member, shown, cut⟩ := recorded_cut
  have received : validTimestamp "2026-08-24T00:00:00Z" = true := by decide
  have listed : (assembled "fed:qsol:remote" "2026-08-23T00:03:00Z" [peer] []).peers = [peer] :=
    sortBy_of_pairwise _ (List.pairwise_singleton _ _)
  have none_ : (assembled "fed:qsol:remote" "2026-08-23T00:03:00Z" [peer] []).objects = [] :=
    sortBy_of_pairwise _ .nil
  have ready : ∀ other ∈ [peer], ∃ material state fingerprint,
      Ready peerPrimitives other material state fingerprint :=
    listed ▸ verified.ready
  have shown_ : ∀ other ∈ [peer], PeerShown peerPrimitives other stopped := by simpa using shown
  obtain ⟨results, again⟩ := importPeers_again received shown_
  have distinct : ([peer].map BundlePeer.nodeId).Nodup := List.nodup_singleton _
  obtain ⟨left, here, unknown, -, unsettled⟩ := cut.unsettled received distinct ready
  refine ⟨raw, _, receiptOf peerPrimitives raw
    (assembled "fed:qsol:remote" "2026-08-23T00:03:00Z" [peer] []), complete, stopped, stopped,
    verified.parsed, ?_, ?_, ?_, left, ?_, unknown, unsettled⟩
  · rw [importBundle_verified verified received]
    exact (Effect.run_bind_ok_iff ..).mpr ⟨⟨⟩, complete, ran, rfl⟩
  · rw [importBundle_verified verified received]
    exact (Effect.mem_states_bind ..).mpr (.inl member)
  · rw [importBundle_verified verified received]
    refine (Effect.run_bind_ok_iff ..).mpr ⟨⟨⟩, stopped, ?_, rfl⟩
    rw [importContents, listed, none_]
    exact (Effect.run_bind_ok_iff ..).mpr ⟨results, stopped, again, rfl⟩
  · rw [listed]
    exact here

/-- An import of the recorded peer that is stopped before its first write, and done a day later,
leaves the peer quarantined. -/
theorem resumed_recorded : ∃ raw bundle receipt last,
    fromSlice Codecs.bundle raw = some bundle ∧ bundle.peers ≠ [] ∧
    (importBundle peerPrimitives raw "2026-08-25T00:00:00Z").run emptyNode = (.ok receipt, last) ∧
    ∀ peer ∈ bundle.peers, emptyNode.peers.get peerPrimitives peer.nodeId = .ok none →
      QuarantinedAs peerPrimitives peer last.peers := by
  obtain ⟨raw, peer, complete, -, verified, ran, -, -, -⟩ := recorded_cut
  have received : validTimestamp "2026-08-24T00:00:00Z" = true := by decide
  have imported : (importBundle peerPrimitives raw "2026-08-24T00:00:00Z").run emptyNode =
      (.ok (receiptOf peerPrimitives raw
        (assembled "fed:qsol:remote" "2026-08-23T00:03:00Z" [peer] [])), complete) := by
    rw [importBundle_verified verified received]
    exact (Effect.run_bind_ok_iff ..).mpr ⟨⟨⟩, complete, ran, rfl⟩
  obtain ⟨last, again, -, -, quarantined⟩ := resumed_iff peerPrimitives imported
    (Effect.start_mem_states ..) (show validTimestamp "2026-08-25T00:00:00Z" = true by decide)
    verified.parsed
  refine ⟨raw, _, _, last, verified.parsed, ?_, again, quarantined.mpr fun cut => ?_⟩
  · have listed : (assembled "fed:qsol:remote" "2026-08-23T00:03:00Z" [peer] []).peers = [peer] :=
      sortBy_of_pairwise _ (List.pairwise_singleton _ _)
    rw [listed]
    exact List.cons_ne_nil _ _
  · obtain ⟨_, _, unknown, known, -⟩ :=
      cut.unsettled received verified.distinctPeers verified.ready
    exact known unknown

end QsolFed.Bundle
