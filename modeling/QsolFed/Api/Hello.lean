import QsolFed.Api
import QsolFed.Identity.Windows
import QsolFed.Library.Run
import QsolFed.Replay.Log

/-!
# Successive hellos

The identity stored for a peer over all requests that one process serves. A hello is compared with
the stored identity by the number of its records only, so that a longer history of the same root
key replaces a stored one that it does not begin with. Hellos that do begin with the history of
the stored identity only ever extend it.
-/
namespace QsolFed.Api

open Checked Json Canonical Crypto Identity

variable (primitives : Primitives)

/-- A request with everything that it takes from its surroundings. -/
inductive Request where
  | hello (body : ByteArray) (audit : Bool)
  | envelope (body : ByteArray) (now : Int) (audit : Bool)

/-- The state after a request. -/
def serve (state : ApiState) : Request → ApiState
  | .hello body audit => (postPeerHello primitives state body audit).2
  | .envelope body now audit => (postEnvelope primitives state body now audit).2

/-- A request is served. -/
def Served (state : ApiState) (request : Request) (next : ApiState) : Prop :=
  next = serve primitives state request

/-- The first records of a hello, as many as the stored identity of its peer has, lead to the
stored identity. -/
def Continues (state : ApiState) : Request → Prop
  | .hello body _ => ∀ hello identity, HelloAccepted primitives state body hello identity →
      ∀ existing, state.peers.get? hello.identity.nodeId = some existing →
        ∃ initial, fromDocument primitives hello.identity = .ok initial ∧
          (hello.lifecycle.take existing.sequence.toNat).foldlM (applyRecord primitives) initial =
            .ok existing
  | .envelope .. => True

/-- A request is served that continues the stored identities. -/
def ContinuingStep (state : ApiState) (request : Request) (next : ApiState) : Prop :=
  Served primitives state request next ∧ Continues primitives state request

/-- The stored identities are reachable identities of the nodes under whose names they are. -/
def Genuine (state : ApiState) : Prop :=
  ∀ nodeId identity, state.peers.get? nodeId = some identity →
    Reachable primitives identity ∧ identity.nodeId = nodeId

variable {primitives}

/-- An envelope leaves the stored identities as they are. -/
theorem postEnvelope_peers (state : ApiState) (body : ByteArray) (now : Int) (audit : Bool) :
    (postEnvelope primitives state body now audit).2.peers = state.peers := by
  unfold postEnvelope
  split
  · rfl
  · split <;> rfl

/-- The identity of an accepted hello is a reachable identity of its node. -/
theorem HelloAccepted.reachable {state : ApiState} {body : ByteArray} {hello : PeerHello}
    {identity : IdentityState} (accepted : HelloAccepted primitives state body hello identity) :
    Reachable primitives identity ∧ identity.nodeId = hello.identity.nodeId := by
  obtain ⟨-, initial, described, applied⟩ := (rebuildPeerIdentity_ok_iff ..).mp accepted.rebuilt
  have run := extends_of_foldlM applied
  have origin : Reachable primitives initial := ⟨hello.identity, initial, described, .refl⟩
  obtain ⟨-, createdAt, -, rfl⟩ := (fromDocument_ok_iff ..).mp described
  exact ⟨origin.extends run, (Extends.narrows origin.coherent run).1⟩

/-- Every request keeps the stored identities genuine. -/
theorem Genuine.serve {state : ApiState} (genuine : Genuine primitives state)
    (request : Request) : Genuine primitives (serve primitives state request) := by
  cases request with
  | envelope body now audit =>
    intro nodeId identity stored
    rw [Api.serve, postEnvelope_peers] at stored
    exact genuine nodeId identity stored
  | hello body audit =>
    rcases postPeerHello_cases primitives state body audit with same | ⟨hello, identity, accepted, next⟩
    · rw [Api.serve, same]
      exact genuine
    · intro nodeId stored known
      rw [Api.serve, next, OrderedMap.get?_insert] at known
      split_ifs at known with here
      · obtain rfl := Option.some.inj known
        exact here ▸ accepted.reachable
      · exact genuine nodeId stored known

/-- A request that continues the stored identities extends each of them. -/
theorem extends_of_continues {state : ApiState} {request : Request}
    (continues : Continues primitives state request) {nodeId : String} {earlier : IdentityState}
    (stored : state.peers.get? nodeId = some earlier) :
    ∃ later, (serve primitives state request).peers.get? nodeId = some later ∧
      Extends primitives earlier later := by
  cases request with
  | envelope body now audit =>
    refine ⟨earlier, ?_, .refl⟩
    rw [serve, postEnvelope_peers, stored]
  | hello body audit =>
    rcases postPeerHello_cases primitives state body audit with same | ⟨hello, identity, accepted, next⟩
    · exact ⟨earlier, by rw [serve, same, stored], .refl⟩
    · by_cases here : nodeId = hello.identity.nodeId
      · subst here
        refine ⟨identity, by rw [serve, next, OrderedMap.get?_insert_self], ?_⟩
        obtain ⟨initial, described, begins⟩ := continues hello identity accepted earlier stored
        obtain ⟨-, other, describedOther, applied⟩ :=
          (rebuildPeerIdentity_ok_iff ..).mp accepted.rebuilt
        obtain rfl := Except.ok.inj (described.symm.trans describedOther)
        rw [← List.take_append_drop earlier.sequence.toNat hello.lifecycle,
          foldlM_append_ok_iff] at applied
        obtain ⟨middle, first, rest⟩ := applied
        obtain rfl := Except.ok.inj (begins.symm.trans first)
        exact extends_of_foldlM rest
      · refine ⟨earlier, ?_, .refl⟩
        rw [serve, next, OrderedMap.get?_insert_of_ne _ _ here, stored]

/-- A key that is not active in a stored identity authenticates no envelope. -/
theorem authenticate_inactive (localNodeId : String) {signed : SignedEnvelope}
    {identity : IdentityState} {key : OperationalKeyState}
    (known : identity.operationalKeys.get? signed.keyId = some key)
    (inactive : key.status ≠ .active) (now : Int) (seenAt : String) :
    authenticate primitives localNodeId signed identity now ≠ .ok seenAt := by
  intro passed
  obtain ⟨valid, -, -⟩ := (authenticate_ok_iff ..).mp passed
  obtain ⟨other, -, -, otherKnown, -, active, -⟩ :=
    ((verifySignedEnvelope_valid_iff ..).mp valid).signed
  obtain rfl := Option.some.inj (known.symm.trans otherKnown)
  exact inactive active

/-- While every accepted hello continues the stored identity of its peer, the identity stored for
a node only ever advances by further records, and a key that was once not active in it
authenticates no envelope from then on. -/
theorem stored_identities_advance (primitives : Primitives) {start middle final : ApiState}
    (fresh : start.peers = .empty) {before after : List Request}
    (first : Run (ContinuingStep primitives) start before middle)
    (second : Run (ContinuingStep primitives) middle after final) {nodeId : String}
    {earlier : IdentityState} (stored : middle.peers.get? nodeId = some earlier) :
    (∃ later, final.peers.get? nodeId = some later ∧ Extends primitives earlier later) ∧
    ∀ keyId key, earlier.operationalKeys.get? keyId = some key → key.status ≠ .active →
      ∀ body signed identity, lookupSender primitives final body = .ok (signed, identity) →
        signed.nodeId = nodeId → signed.keyId = keyId → ∀ now seenAt,
          authenticate primitives final.localIdentity.nodeId signed identity now ≠ .ok seenAt := by
  have genuine : Genuine primitives middle := by
    refine first.invariant (fun _ state => Genuine primitives state) ?_ ?_
    · intro node identity known
      rw [fresh, OrderedMap.get?_empty] at known
      cases known
    · rintro _ state request _ - kept ⟨rfl, -⟩
      exact kept.serve request
  have advanced : ∃ later, final.peers.get? nodeId = some later ∧
      Extends primitives earlier later := by
    refine second.invariant (fun _ state => ∃ later, state.peers.get? nodeId = some later ∧
      Extends primitives earlier later) ⟨earlier, stored, .refl⟩ ?_
    rintro _ state request _ - ⟨current, known, run⟩ ⟨rfl, continues⟩
    obtain ⟨later, next, rest⟩ := extends_of_continues continues known
    exact ⟨later, next, run.trans rest⟩
  refine ⟨advanced, ?_⟩
  rintro keyId key known inactive body signed identity found rfl rfl now seenAt
  obtain ⟨later, last, run⟩ := advanced
  obtain rfl := Option.some.inj (last.symm.trans ((lookupSender_ok_iff ..).mp found).2)
  obtain ⟨-, narrowed⟩ := Extends.narrows (genuine _ _ stored).1.coherent run
  obtain ⟨end_, there, narrows⟩ := narrowed signed.keyId key known
  exact authenticate_inactive _ there (narrows.inactive inactive) now seenAt

/-! ## Recorded hellos -/

/-- A hello of the recorded node with some lifecycle records. -/
def recordedHello (lifecycle : List PeerLifecycleRecord) : PeerHello where
  schema := peerHelloSchemaV1
  protocol := protocolV1
  identity := recordedDocument
  lifecycle := lifecycle
  capabilities := []
  authorityClaim := .none

/-- A recorded hello with valid records is accepted while nothing newer is stored. -/
theorem recordedHello_accepted (state : ApiState) {lifecycle : List PeerLifecycleRecord}
    {identity : IdentityState} (remote : state.localIdentity = localDocument)
    (plain : isPlain (Codecs.peerHello.encode (recordedHello lifecycle)) = true)
    (shallow : (Codecs.peerHello.encode (recordedHello lifecycle)).nesting < maxDepth)
    (small : sizeBound (Codecs.peerHello.encode (recordedHello lifecycle)) ≤ maxInputBytes)
    (few : lifecycle.length ≤ apiMaxLifecycleRecords)
    (applied : lifecycle.foldlM (applyRecord recordedPrimitives)
      (introduced recordedDocument 1787443200) = .ok identity)
    (newer : ∀ existing, state.peers.get? recordedDocument.nodeId = some existing →
      existing.sequence ≤ identity.sequence ∧
        (identity.sequence = existing.sequence → identity = existing)) :
    ∃ body, HelloAccepted recordedPrimitives state body (recordedHello lifecycle) identity := by
  obtain ⟨body, encoded⟩ := canonicalJson_of_check recordedPrimitives _ plain shallow small
  refine ⟨body, parseCanonical_encoded recordedPrimitives _ _ (plain_of_check _ plain) shallow
    encoded, rfl, rfl, ?_, ?_, ?_, newer⟩
  · rw [remote]
    exact (by decide : recordedDocument.nodeId ≠ localDocument.nodeId)
  · rfl
  · exact (rebuildPeerIdentity_ok_iff ..).mpr ⟨few, _, recordedDocument_initial, applied⟩

/-- The recorded identity after its first key was declared compromised. -/
def recordedCompromised : IdentityState :=
  restated (introduced recordedDocument 1787443200) recordedCompromise recordedKey 1787443500

/-- The recorded declaration is applied. -/
theorem recordedCompromised_applied : [PeerLifecycleRecord.status recordedCompromise].foldlM
    (applyRecord recordedPrimitives) (introduced recordedDocument 1787443200) =
      .ok recordedCompromised :=
  (foldlM_cons_ok_iff ..).mpr ⟨recordedCompromised,
    (applyKeyStatus_ok_iff ..).mpr ⟨_, _, recordedCompromise_accepted, rfl⟩, rfl⟩

/-- The recorded rotations are applied. -/
theorem recordedRotations_applied :
    [PeerLifecycleRecord.rotation recordedFirst, .rotation recordedSecond].foldlM
      (applyRecord recordedPrimitives) (introduced recordedDocument 1787443200) =
        .ok (rotated recordedState recordedSecond recordedNextKey 1787446800 1787450400) :=
  (foldlM_cons_ok_iff ..).mpr ⟨recordedState,
    (applyRotation_ok_iff ..).mpr ⟨_, _, _, recordedFirst_accepted, rfl⟩,
    (foldlM_cons_ok_iff ..).mpr ⟨_,
      (applyRotation_ok_iff ..).mpr ⟨_, _, _, recordedSecond_accepted, rfl⟩, rfl⟩⟩

/-- The local node before the first request. -/
def recordedApi : ApiState where
  localIdentity := localDocument
  peers := .empty
  replay := Replay.emptyStore

/-- The local node with the compromised identity of the recorded node. -/
def compromisedApi : ApiState :=
  { recordedApi with
    peers := OrderedMap.empty.insert recordedDocument.nodeId recordedCompromised }

/-- The recorded declaration is accepted from a new peer. -/
theorem recordedCompromise_introduced :
    ∃ body, HelloAccepted recordedPrimitives recordedApi body
      (recordedHello [.status recordedCompromise]) recordedCompromised :=
  recordedHello_accepted _ rfl (by decide +kernel) (by decide) (by decide +kernel) (by decide)
    recordedCompromised_applied (fun existing stored => by cases stored)

/-- Everything that is stored about the recorded node in that state. -/
theorem compromisedApi_stored {existing : IdentityState}
    (stored : compromisedApi.peers.get? recordedDocument.nodeId = some existing) :
    existing = recordedCompromised :=
  (Option.some.inj ((OrderedMap.get?_insert_self ..).symm.trans stored)).symm

/-- The stored identity of the recorded node is extended when its declaration is sent twice, and
its first key authenticates nothing. -/
theorem stored_identities_advance_recorded :
    (∃ later, compromisedApi.peers.get? recordedDocument.nodeId = some later ∧
      Extends recordedPrimitives recordedCompromised later) ∧
    ∀ keyId key, recordedCompromised.operationalKeys.get? keyId = some key →
      key.status ≠ .active → ∀ body signed identity,
        lookupSender recordedPrimitives compromisedApi body = .ok (signed, identity) →
        signed.nodeId = recordedDocument.nodeId → signed.keyId = keyId → ∀ now seenAt,
          authenticate recordedPrimitives compromisedApi.localIdentity.nodeId signed identity now ≠
            .ok seenAt := by
  obtain ⟨body, accepted⟩ := recordedCompromise_introduced
  have again : HelloAccepted recordedPrimitives compromisedApi body
      (recordedHello [.status recordedCompromise]) recordedCompromised := by
    refine ⟨accepted.parsed, accepted.schema, accepted.protocol, accepted.foreign,
      accepted.capabilities, accepted.rebuilt, fun existing stored => ?_⟩
    obtain rfl := compromisedApi_stored stored
    exact ⟨UInt64.le_refl _, fun _ => rfl⟩
  have once : ContinuingStep recordedPrimitives recordedApi (.hello body true) compromisedApi :=
    ⟨(postPeerHello_accepted recordedPrimitives accepted true).symm, fun _ _ _ _ stored => by
      cases stored⟩
  have twice : ContinuingStep recordedPrimitives compromisedApi (.hello body true)
      compromisedApi := by
    refine ⟨?_, fun hello identity other existing stored => ?_⟩
    · have same : compromisedApi.peers.insert recordedDocument.nodeId recordedCompromised =
          compromisedApi.peers := OrderedMap.insert_present (OrderedMap.get?_insert_self ..)
      refine Eq.trans ?_ (postPeerHello_accepted recordedPrimitives again true).symm
      exact congrArg (fun peers => { compromisedApi with peers }) same.symm
    · obtain rfl := Except.ok.inj (accepted.parsed.symm.trans other.parsed)
      obtain rfl := compromisedApi_stored stored
      exact ⟨_, recordedDocument_initial, recordedCompromised_applied⟩
  exact stored_identities_advance recordedPrimitives rfl (.single once) (.single twice)
    (OrderedMap.get?_insert_self ..)

/-- A longer history of the recorded node replaces the stored one that declares its first key
compromised, and the key is active again. -/
theorem compromise_forgotten_after_recorded_hello :
    ¬∀ (start middle final : ApiState) (before after : List Request), start.peers = .empty →
      Run (Served recordedPrimitives) start before middle →
      Run (Served recordedPrimitives) middle after final →
      ∀ nodeId earlier, middle.peers.get? nodeId = some earlier →
        ∃ later, final.peers.get? nodeId = some later ∧
          Extends recordedPrimitives earlier later := by
  intro always
  obtain ⟨body, accepted⟩ := recordedCompromise_introduced
  have once : Served recordedPrimitives recordedApi (.hello body true) compromisedApi :=
    (postPeerHello_accepted recordedPrimitives accepted true).symm
  obtain ⟨other, replaced⟩ := recordedHello_accepted compromisedApi rfl
    (by decide +kernel) (by decide) (by decide +kernel) (by decide) recordedRotations_applied
    (fun existing stored => by
      obtain rfl := compromisedApi_stored stored
      decide)
  have twice : Served recordedPrimitives compromisedApi (.hello other true) _ :=
    (postPeerHello_accepted recordedPrimitives replaced true).symm
  obtain ⟨later, last, run⟩ := always _ _ _ _ _ rfl (.single once) (.single twice) _ _
    (OrderedMap.get?_insert_self ..)
  obtain rfl := Option.some.inj ((OrderedMap.get?_insert_self ..).symm.trans last)
  have reachable : Reachable recordedPrimitives recordedCompromised := accepted.reachable.1
  obtain ⟨-, narrowed⟩ := Extends.narrows reachable.coherent run
  obtain ⟨key, known, narrows⟩ := narrowed recordedDocument.operationalKeyId _
    (OrderedMap.get?_insert_self ..)
  rw [get?_rotated, if_neg (by decide), if_neg (by decide), recordedState,
    get?_rotated, if_neg (by decide), if_pos (by rfl)] at known
  obtain rfl := Option.some.inj known
  exact narrows.inactive (by decide) rfl

end QsolFed.Api
