import QsolFed.Api.Interleaving

/-!
# Refused messages

A message is refused as a replay only when its identifier passed the replay store before, and what
passed is an envelope to the local node under the signature of a key of its sender. Nobody else
can have the message refused: the identifier digests the envelope with its sender and recipient,
an identity is stored under the name of its own root key only, and a request that is rejected for
any other reason leaves the store as it is.
-/
namespace QsolFed.Identity

open Crypto

variable {primitives : Primitives}

/-- The name of a reachable identity is the one of its root key. -/
theorem Reachable.named {state : IdentityState} (reachable : Reachable primitives state) :
    deriveNodeId primitives state.rootPublicKey = .ok state.nodeId := by
  refine reachable.invariant
    (fun state => deriveNodeId primitives state.rootPublicKey = .ok state.nodeId) ?_ ?_ ?_
  · intro document createdAt verified parsed
    exact ((verifyIdentityDocument_iff document).mp verified).node
  · intro state record previous notBefore overlapUntil named accepted
    exact named
  · intro state record key effectiveAt named accepted
    exact named

end QsolFed.Identity

namespace QsolFed.Api

open Checked Json Canonical Crypto Identity Replay

/-! ## What a request for an envelope does -/

section Requests

variable (primitives : Primitives)

/-- A request carries an envelope to the local node, at a time that the clock policy admits, under
the signature of a key that is registered for the sender, whose name is the one of its root key. -/
structure Vouched (state : ApiState) (body : ByteArray) (now : Int) (signed : SignedEnvelope) :
    Prop where
  /-- The body is the envelope. -/
  read : SignedEnvelope.fromWire primitives body = .ok signed
  /-- The envelope is for the local node. -/
  recipient : signed.envelope.recipient = state.localIdentity.nodeId
  /-- The clock policy admits it. -/
  timely : defaultClockPolicy.validateEnvelope signed.envelope now = .ok ()
  /-- A registered key of the sender signs it. -/
  signed : ∃ identity key canonical, state.peers.get? signed.nodeId = some identity ∧
    identity.nodeId = signed.envelope.sender ∧
    deriveNodeId primitives identity.rootPublicKey = .ok signed.envelope.sender ∧
    identity.operationalKeys.get? signed.keyId = some key ∧
    canonicalEnvelopeBytes primitives signed.envelope = .ok canonical ∧
    verifySignature primitives key.publicKey envelopeSignatureDomain canonical signed.signature =
      .ok true

/-- What a request for an envelope is answered and what it leaves. -/
inductive Posted (state : ApiState) (body : ByteArray) (now : Int) (audit : Bool) :
    Except ProtocolError (Nat × EnvelopeReceipt) → ApiState → Prop where
  /-- No sender is found. -/
  | unknown {error : ProtocolError} (refused : lookupSender primitives state body = .error error) :
      Posted state body now audit (.error error) state
  /-- The envelope is not authenticated. -/
  | unauthenticated {signed : SignedEnvelope} {identity : IdentityState} {error : ProtocolError}
      (found : lookupSender primitives state body = .ok (signed, identity))
      (refused : authenticate primitives state.localIdentity.nodeId signed identity now =
        .error error) : Posted state body now audit (.error error) state
  /-- The replay store answers. -/
  | gated {signed : SignedEnvelope} {identity : IdentityState} {seenAt : String}
      {decision : Except String ReplayDecision} {replay : DurableReplayStore}
      (found : lookupSender primitives state body = .ok (signed, identity))
      (passed : authenticate primitives state.localIdentity.nodeId signed identity now =
        .ok seenAt)
      (called : state.replay.checkAndRecord signed.envelope.messageId seenAt =
        (decision, replay)) :
      Posted state body now audit (conclude signed.envelope decision audit) { state with replay }

/-- Every request for an envelope ends in one of these ways. -/
theorem postEnvelope_posted (state : ApiState) (body : ByteArray) (now : Int) (audit : Bool) :
    Posted primitives state body now audit (postEnvelope primitives state body now audit).1
      (postEnvelope primitives state body now audit).2 := by
  unfold postEnvelope
  cases found : lookupSender primitives state body with
  | error error => exact .unknown found
  | ok result =>
    obtain ⟨signed, identity⟩ := result
    cases passed : authenticate primitives state.localIdentity.nodeId signed identity now with
    | error error =>
      simp only [passed]
      exact .unauthenticated found passed
    | ok seenAt =>
      cases called : state.replay.checkAndRecord signed.envelope.messageId seenAt with
      | mk decision replay =>
        simp only [passed, called]
        exact .gated found passed called

/-- A request that is authenticated is answered by the replay store. -/
theorem postEnvelope_of_passed {state : ApiState} {body : ByteArray} {now : Int}
    {signed : SignedEnvelope} {identity : IdentityState} {seenAt : String}
    {decision : Except String ReplayDecision} {replay : DurableReplayStore}
    (found : lookupSender primitives state body = .ok (signed, identity))
    (passed : authenticate primitives state.localIdentity.nodeId signed identity now = .ok seenAt)
    (called : state.replay.checkAndRecord signed.envelope.messageId seenAt = (decision, replay))
    (audit : Bool) : postEnvelope primitives state body now audit =
      (conclude signed.envelope decision audit, { state with replay }) := by
  simp only [postEnvelope, found, passed, called]

end Requests

variable {primitives : Primitives}

/-- A request without a known sender is not refused as a replay, nor to be tried again. -/
theorem lookupSender_error {state : ApiState} {body : ByteArray} {error : ProtocolError}
    (refused : lookupSender primitives state body = .error error) :
    error.errorCode ≠ .replay ∧ error.retryable = false := by
  simp only [lookupSender, bind_error_iff, mapError_error_iff, okOr_error_iff] at refused
  rcases refused with ⟨_, -, rfl⟩ | ⟨signed, -, ⟨-, rfl⟩ | ⟨identity, -, impossible⟩⟩
  · exact ⟨fun same => (by cases same), rfl⟩
  · exact ⟨fun same => (by cases same), rfl⟩
  · cases impossible

/-- A request that is not authenticated is not refused as a replay, and it is to be tried again
only when the time of the clock has no text. -/
theorem authenticate_error {localNodeId : String} {signed : SignedEnvelope}
    {identity : IdentityState} {now : Int} {error : ProtocolError}
    (refused : authenticate primitives localNodeId signed identity now = .error error) :
    error.errorCode ≠ .replay ∧ (error.retryable = true → Wire.formatTimestamp now = none) := by
  simp only [authenticate, bind_error_iff, mapError_error_iff, ensure_error_iff, formatWireTime,
    okOr_error_iff] at refused
  rcases refused with ⟨_, -, rfl⟩ | ⟨_, -, ⟨-, rfl⟩ | ⟨_, -, ⟨-, rfl⟩ | ⟨_, -, _, ⟨absent, -⟩, rfl⟩⟩⟩
  · constructor <;> intro same <;> cases same
  · constructor <;> intro same <;> cases same
  · constructor <;> intro same <;> cases same
  · exact ⟨fun same => (by cases same), fun _ => absent⟩

/-- An authenticated envelope is vouched for, in a state whose identities are genuine. -/
theorem Genuine.vouched {state : ApiState} (genuine : Genuine primitives state)
    {body : ByteArray} {now : Int} {signed : SignedEnvelope} {identity : IdentityState}
    {seenAt : String} (found : lookupSender primitives state body = .ok (signed, identity))
    (passed : authenticate primitives state.localIdentity.nodeId signed identity now =
      .ok seenAt) : Vouched primitives state body now signed := by
  obtain ⟨read, known⟩ := (lookupSender_ok_iff ..).mp found
  obtain ⟨valid, recipient, -⟩ := (authenticate_ok_iff ..).mp passed
  have authenticated := (verifySignedEnvelope_valid_iff ..).mp valid
  obtain ⟨key, -, canonical, registered, -, -, -, -, encoded, verified⟩ := authenticated.signed
  have named := (genuine _ _ known).1.named
  exact
    { read
      recipient
      timely := authenticated.timely
      signed := ⟨identity, key, canonical, known, authenticated.sender.symm,
        authenticated.sender ▸ named, registered, encoded, verified⟩ }

/-- The answer that an envelope is a replay comes from the replay store. -/
theorem conclude_replay {envelope : FederationEnvelope} {decision : Except String ReplayDecision}
    {audit : Bool} {error : ProtocolError}
    (answered : conclude envelope decision audit = .error error)
    (replay : error.errorCode = .replay) :
    decision = .ok .replay ∧ error.requestMessageId = some envelope.messageId := by
  simp only [conclude, admitEffect_messageClass] at answered
  cases decision with
  | error text =>
    obtain rfl := Except.error.inj answered
    cases replay
  | ok found =>
    cases found with
    | replay =>
      obtain rfl := Except.error.inj answered
      exact ⟨rfl, rfl⟩
    | freshRecorded =>
      cases audit with
      | true => cases answered
      | false =>
        obtain rfl := Except.error.inj answered
        cases replay

/-! ## What a run lets pass -/

/-- The bytes that the identifier of an envelope digests. -/
def Digested (primitives : Primitives) (envelope : FederationEnvelope) (input : ByteArray) : Prop :=
  ∃ canonical, canonicalEnvelopeBytes primitives envelope = .ok canonical ∧
    Digest.messageIdInput primitives canonical = .ok input

/-- The digests of two envelopes do not collide. -/
def Apart (primitives : Primitives) (first second : FederationEnvelope) : Prop :=
  ∀ input other, Digested primitives first input → Digested primitives second other →
    primitives.sha256 input = primitives.sha256 other → input = other

/-- Envelopes with one identifier whose digests do not collide are the same. -/
theorem Apart.unique {first second : FederationEnvelope} (apart : Apart primitives first second)
    {one two : ByteArray} (encoded : canonicalEnvelopeBytes primitives first = .ok one)
    (other : canonicalEnvelopeBytes primitives second = .ok two)
    (same : first.messageId = second.messageId) : first = second := by
  obtain ⟨members, input, computed, identified⟩ := FederationEnvelope.identified encoded
  obtain ⟨others, another, computedOther, identifiedOther⟩ := FederationEnvelope.identified other
  have digests : primitives.sha256 input = primitives.sha256 another :=
    (Digest.sha256Ref_inj primitives).mp
      (identified.digest.trans (same.trans identifiedOther.digest.symm))
  obtain rfl := apart input another ⟨one, encoded, computed⟩ ⟨two, other, computedOther⟩ digests
  exact identified.unique identifiedOther

/-- A request of a run carried an envelope that was vouched for. -/
def Carried (primitives : Primitives) (start : ApiState) (requests : List Request)
    (signed : SignedEnvelope) : Prop :=
  ∃ first body now audit rest state, requests = first ++ .envelope body now audit :: rest ∧
    Run (Served primitives) start first state ∧ Vouched primitives state body now signed

/-- What was carried is carried in a longer run. -/
theorem Carried.snoc {start : ApiState} {requests : List Request} {signed : SignedEnvelope}
    (carried : Carried primitives start requests signed) (request : Request) :
    Carried primitives start (requests ++ [request]) signed := by
  obtain ⟨first, body, now, audit, rest, state, rfl, run, vouched⟩ := carried
  refine ⟨first, body, now, audit, rest ++ [request], state, ?_, run, vouched⟩
  rw [List.append_assoc, List.cons_append]

/-- Every message that the store knows was carried by a request that was vouched for. -/
structure Traced (primitives : Primitives) (start : ApiState) (requests : List Request)
    (state : ApiState) : Prop where
  /-- The stored identities are genuine. -/
  genuine : Genuine primitives state
  /-- The local node is the same. -/
  localNode : state.localIdentity = start.localIdentity
  /-- The messages of the store. -/
  seen : ∀ messageId record, state.replay.seen.get? messageId = some record →
    ∃ signed, signed.envelope.messageId = messageId ∧ Carried primitives start requests signed

/-- A hello leaves the replay store as it is. -/
theorem postPeerHello_kept (state : ApiState) (body : ByteArray) (audit : Bool) :
    (postPeerHello primitives state body audit).2.replay = state.replay ∧
      (postPeerHello primitives state body audit).2.localIdentity = state.localIdentity := by
  rcases postPeerHello_cases primitives state body audit with same | ⟨hello, identity, -, next⟩
  · rw [same]
    exact ⟨rfl, rfl⟩
  · rw [next]
    exact ⟨rfl, rfl⟩

/-- The messages that the store knows after a call were known before, or the call let its own
message pass. -/
theorem seen_of_called {store next : DurableReplayStore} {messageId seenAt : String}
    {decision : Except String ReplayDecision}
    (called : store.checkAndRecord messageId seenAt = (decision, next)) {other : String}
    {record : SeenRecord} (known : next.seen.get? other = some record) :
    store.seen.get? other = some record ∨ other = messageId := by
  cases DurableReplayStore.outcome_of_eq called with
  | malformed => exact .inl known
  | replayed => exact .inl ((DurableReplayStore.get?_pruneMemory ..).mp known).1
  | full =>
    rw [DurableReplayStore.makeRoom_seen] at known
    exact .inl ((DurableReplayStore.get?_pruneMemory ..).mp known).1
  | fresh admits =>
    simp only [DurableReplayStore.admitted, DurableReplayStore.makeRoom_seen,
      OrderedMap.get?_insert] at known
    split_ifs at known with here
    · exact .inr here
    · exact .inl ((DurableReplayStore.get?_pruneMemory ..).mp known).1

/-- Every request keeps the store traced. -/
theorem Traced.serve {start state : ApiState} {requests : List Request}
    (run : Run (Served primitives) start requests state)
    (traced : Traced primitives start requests state) (request : Request) :
    Traced primitives start (requests ++ [request]) (serve primitives state request) := by
  refine ⟨traced.genuine.serve request, ?_, ?_⟩
  · cases request with
    | hello body audit => exact (postPeerHello_kept state body audit).2.trans traced.localNode
    | envelope body now audit =>
      have posted := postEnvelope_posted primitives state body now audit
      rw [Api.serve]
      generalize (postEnvelope primitives state body now audit).2 = next at posted ⊢
      generalize (postEnvelope primitives state body now audit).1 = answer at posted
      cases posted <;> exact traced.localNode
  · intro messageId record known
    have before : ∀ record, state.replay.seen.get? messageId = some record →
        ∃ signed, signed.envelope.messageId = messageId ∧
          Carried primitives start (requests ++ [request]) signed := by
      intro record known
      obtain ⟨signed, same, carried⟩ := traced.seen messageId record known
      exact ⟨signed, same, carried.snoc request⟩
    cases request with
    | hello body audit =>
      rw [Api.serve, (postPeerHello_kept state body audit).1] at known
      exact before record known
    | envelope body now audit =>
      have posted := postEnvelope_posted primitives state body now audit
      rw [Api.serve] at known
      generalize (postEnvelope primitives state body now audit).2 = next at posted known
      generalize (postEnvelope primitives state body now audit).1 = answer at posted
      cases posted with
      | unknown refused => exact before record known
      | unauthenticated found refused => exact before record known
      | gated found passed called =>
        rcases seen_of_called called known with earlier | rfl
        · exact before record earlier
        · have vouched := traced.genuine.vouched found passed
          exact ⟨_, rfl, requests, body, now, audit, [], state, rfl, run, vouched⟩

/-- Every run from a fresh store is traced. -/
theorem traced_of_run {start final : ApiState} {requests : List Request}
    (strangers : start.peers = .empty) (fresh : start.replay = emptyStore)
    (run : Run (Served primitives) start requests final) :
    Traced primitives start requests final := by
  refine run.invariant (fun requests state => Traced primitives start requests state) ?_ ?_
  · refine ⟨?_, rfl, ?_⟩
    · intro nodeId identity known
      rw [strangers, OrderedMap.get?_empty] at known
      cases known
    · intro messageId record known
      rw [fresh] at known
      cases known
  · rintro requests state request _ before traced rfl
    exact traced.serve before request

/-- A request was rejected as malformed, as not authenticated (which an envelope outside its clock
window is not) or as addressed to another node. -/
def Rejected (error : ProtocolError) : Prop :=
  error.errorCode = .malformed ∨ error.errorCode = .authenticationFailed ∨
    error.message = "envelope_not_addressed_to_local_node"

/-- An answer after the replay store has answered is no such rejection. -/
theorem conclude_not_rejected {envelope : FederationEnvelope}
    {decision : Except String ReplayDecision} {audit : Bool} {error : ProtocolError}
    (answered : conclude envelope decision audit = .error error) : ¬Rejected error := by
  simp only [conclude, admitEffect_messageClass] at answered
  cases decision with
  | error text =>
    obtain rfl := Except.error.inj answered
    simp [Rejected]
  | ok found =>
    cases found with
    | replay =>
      obtain rfl := Except.error.inj answered
      simp [Rejected]
    | freshRecorded =>
      cases audit with
      | true => cases answered
      | false =>
        obtain rfl := Except.error.inj answered
        simp [Rejected]

/-- A message is refused as a replay only when an earlier request of the run carried an envelope
with its identifier that was vouched for, and that is the refused one unless their digests
collide; a request that is rejected otherwise, that is not vouched for or that is a hello leaves
the replay store as it is. -/
theorem no_replay_poisoning {start final : ApiState} {requests : List Request}
    (strangers : start.peers = .empty) (fresh : start.replay = emptyStore)
    (run : Run (Served primitives) start requests final) :
    (∀ body now audit error,
      (postEnvelope primitives final body now audit).1 = .error error →
      error.errorCode = .replay →
      ∃ refused earlier, SignedEnvelope.fromWire primitives body = .ok refused ∧
        error.requestMessageId = some refused.envelope.messageId ∧
        Carried primitives start requests earlier ∧
        earlier.envelope.messageId = refused.envelope.messageId ∧
        (Apart primitives earlier.envelope refused.envelope →
          earlier.envelope = refused.envelope)) ∧
    (∀ body now audit error,
      (postEnvelope primitives final body now audit).1 = .error error → Rejected error →
      (postEnvelope primitives final body now audit).2 = final) ∧
    (∀ body now audit, (∀ signed, ¬Vouched primitives final body now signed) →
      (postEnvelope primitives final body now audit).2 = final) ∧
    (∀ body audit, (postPeerHello primitives final body audit).2.replay = final.replay) := by
  have traced := traced_of_run strangers fresh run
  refine ⟨?_, ?_, ?_, fun body audit => (postPeerHello_kept final body audit).1⟩
  · intro body now audit error answered replay
    have posted := postEnvelope_posted primitives final body now audit
    generalize (postEnvelope primitives final body now audit).2 = next at posted
    generalize (postEnvelope primitives final body now audit).1 = answer at posted answered
    cases posted with
    | unknown refused =>
      obtain rfl := Except.error.inj answered
      exact absurd replay (lookupSender_error refused).1
    | unauthenticated found refused =>
      obtain rfl := Except.error.inj answered
      exact absurd replay (authenticate_error refused).1
    | @gated signed identity seenAt decision store found passed called =>
      obtain ⟨rfl, identified⟩ := conclude_replay answered replay
      have vouched := traced.genuine.vouched found passed
      cases DurableReplayStore.outcome_of_eq called with
      | @replayed nowUnix record reference parsed known =>
        have stored := ((DurableReplayStore.get?_pruneMemory ..).mp known).1
        obtain ⟨earlier, same, carried⟩ := traced.seen _ record stored
        refine ⟨signed, earlier, vouched.read, identified, carried, same, fun apart => ?_⟩
        obtain ⟨_, _, _, _, _, _, -, -, before⟩ := carried
        obtain ⟨-, -, one, -, -, -, -, encoded, -⟩ := before.signed
        obtain ⟨-, -, two, -, -, -, -, other, -⟩ := vouched.signed
        exact apart.unique encoded other same
  · intro body now audit error answered rejected
    have posted := postEnvelope_posted primitives final body now audit
    generalize (postEnvelope primitives final body now audit).2 = next at posted ⊢
    generalize (postEnvelope primitives final body now audit).1 = answer at posted answered
    cases posted with
    | unknown refused => rfl
    | unauthenticated found refused => rfl
    | gated found passed called => exact absurd rejected (conclude_not_rejected answered)
  · intro body now audit stranger
    have posted := postEnvelope_posted primitives final body now audit
    generalize (postEnvelope primitives final body now audit).2 = next at posted ⊢
    generalize (postEnvelope primitives final body now audit).1 = answer at posted
    cases posted with
    | unknown refused => rfl
    | unauthenticated found refused => rfl
    | gated found passed called =>
      exact absurd (traced.genuine.vouched found passed) (stranger _)

/-- The first recorded envelope is known after it passed. -/
theorem earlyRequest_known :
    (passing emptyStore earlyRequest).checkAndRecord firstSigned.envelope.messageId
      "2026-08-23T01:55:00Z" =
        (.ok .replay, (passing emptyStore earlyRequest).pruneMemory 1787450100) := rfl

/-- The recorded node introduces itself and its first envelope passes; the envelope is refused
when it is sent again, and the request that carried it is found. -/
theorem recorded_no_replay_poisoning : ∃ requests final body error,
    Run (Served recordedPrimitives) recordedApi requests final ∧
    (postEnvelope recordedPrimitives final body 1787450100 true).1 = .error error ∧
    error.errorCode = .replay ∧
    ∃ refused earlier, SignedEnvelope.fromWire recordedPrimitives body = .ok refused ∧
      Carried recordedPrimitives recordedApi requests earlier ∧
      earlier.envelope.messageId = refused.envelope.messageId := by
  obtain ⟨hello, accepted⟩ := recordedHello_accepted recordedApi rfl (by decide +kernel) (by decide)
    (by decide +kernel) (by decide) (rfl : [].foldlM (applyRecord recordedPrimitives)
      (introduced recordedDocument 1787443200) = _) (fun existing stored => by cases stored)
  have first : Served recordedPrimitives recordedApi (.hello hello true)
      (introducedApi emptyStore) := (postPeerHello_accepted recordedPrimitives accepted true).symm
  obtain ⟨body, found⟩ := firstSigned_found emptyStore
  have called := DurableReplayStore.checkAndRecord_of_admits earlyRequest_passes
  have second : Served recordedPrimitives (introducedApi emptyStore)
      (.envelope body 1787450100 true) (introducedApi (passing emptyStore earlyRequest)) := by
    have answered := postEnvelope_of_passed recordedPrimitives found firstSigned_early called true
    exact (congrArg Prod.snd answered).symm
  have run := (Run.single first).snoc second
  obtain ⟨again, foundAgain⟩ := firstSigned_found (passing emptyStore earlyRequest)
  have answered := postEnvelope_of_passed recordedPrimitives foundAgain firstSigned_early
    earlyRequest_known true
  obtain ⟨refused, earlier, read, -, carried, same, -⟩ :=
    (no_replay_poisoning rfl rfl run).1 again 1787450100 true _ (congrArg Prod.fst answered) rfl
  exact ⟨_, _, again, _, run, congrArg Prod.fst answered, rfl, refused, earlier, read, carried,
    same⟩

end QsolFed.Api
