import QsolFed.Api.Poisoning
import QsolFed.Replay.Capacity

/-!
# Answers that ask for another attempt

The handler of an envelope as it goes on when a lock is poisoned, a step of the replay store fails
or the audit log takes no record. Each of these is answered as something to be tried again. All
but the last one happen before the message is recorded, so that the second attempt finds the store
as if there had been no first one, apart from messages that it has forgotten. When the audit log
fails the message is recorded already, and the second attempt is refused as a replay.
-/
namespace QsolFed

open Checked Crypto Identity Replay

/-- The state behind the interface with the file that the replay store appends to, when that is no
longer the log. -/
structure HandledApi extends ApiState where
  /-- The bytes of a file that was replaced and is still open. -/
  replaced : Option ByteArray

/-- What fails while an envelope is handled. -/
structure ApiFaults where
  /-- The lock of the peers is poisoned. -/
  peers : Bool
  /-- The lock of the replay store is poisoned. -/
  replay : Bool
  /-- A step of the replay store fails. -/
  io : Option IoFault
  /-- The audit log takes no record. -/
  audit : Bool

/-- Nothing fails. -/
def ApiFaults.none : ApiFaults := ⟨false, false, .none, false⟩

namespace HandledApi

/-- The replay store with its open file. -/
def store (api : HandledApi) : HandledStore := ⟨api.replay, api.replaced⟩

/-- The state with another replay store. -/
def withStore (api : HandledApi) (store : HandledStore) : HandledApi :=
  ⟨{ api.toApiState with replay := store.toDurableReplayStore }, store.replaced⟩

variable (primitives : Primitives)

/-- The envelope of a body with the stored identity of its sender. -/
def lookupSender (api : HandledApi) (body : ByteArray) (faults : ApiFaults) :
    Except ProtocolError (SignedEnvelope × IdentityState) := do
  let signed ← (SignedEnvelope.fromWire primitives body).mapError fun _ =>
    ⟨400, .malformed, "signed_envelope_invalid", .none, .none, false⟩
  ensure (faults.peers = false)
    ⟨500, .localPolicyRejected, "peer_registry_unavailable", some signed.envelope.messageId, .none,
      true⟩
  let identity ← okOr (api.peers.get? signed.nodeId)
    ⟨401, .authenticationFailed, "peer_not_introduced", some signed.envelope.messageId, .none, false⟩
  pure (signed, identity)

/-- The handler of an envelope. -/
def postEnvelope (api : HandledApi) (body : ByteArray) (now : Int) (faults : ApiFaults) :
    Except ProtocolError (Nat × EnvelopeReceipt) × HandledApi :=
  match lookupSender primitives api body faults with
  | .error error => (.error error, api)
  | .ok (signed, identity) =>
    match Api.authenticate primitives api.localIdentity.nodeId signed identity now with
    | .error error => (.error error, api)
    | .ok seenAt =>
      if faults.replay = true then
        (.error ⟨500, .localPolicyRejected, "replay_store_unavailable",
          some signed.envelope.messageId, .none, true⟩, api)
      else
        let (decision, store) :=
          (HandledStore.checkAndRecord faults.io signed.envelope.messageId seenAt).run api.store
        (Api.conclude signed.envelope (decision.mapError ReplayFailure.text) (!faults.audit),
          api.withStore store)

/-- A request to the local node. -/
inductive Request where
  /-- A peer introduces itself; whether the audit log takes the record is given. -/
  | hello (body : ByteArray) (audit : Bool)
  /-- An envelope is posted. -/
  | envelope (body : ByteArray) (now : Int) (faults : ApiFaults)

/-- The state after a request. -/
def serve (api : HandledApi) : Request → HandledApi
  | .hello body audit => ⟨(Api.postPeerHello primitives api.toApiState body audit).2, api.replaced⟩
  | .envelope body now faults => (postEnvelope primitives api body now faults).2

/-- One request is served. -/
def Served (api : HandledApi) (request : Request) (next : HandledApi) : Prop :=
  next = serve primitives api request

/-- A first attempt does no harm to the second one: what would be accepted without it is accepted
after it, and what is refused as a replay after it would be without it. -/
structure Unharmed (api after : HandledApi) (body : ByteArray) : Prop where
  /-- What would be accepted is accepted. -/
  accepted : ∀ later answer, (postEnvelope primitives api body later .none).1 = .ok answer →
    (postEnvelope primitives after body later .none).1 = .ok answer
  /-- What is refused as a replay would be refused. -/
  replayed : ∀ later error, (postEnvelope primitives after body later .none).1 = .error error →
    error.errorCode = .replay → (postEnvelope primitives api body later .none).1 = .error error

/-- What an attempt needs to record its message: the locks are free, the sender is known, the
envelope is authenticated at a time that the store can write, and the call of the store passes. -/
structure Recorded (api : HandledApi) (body : ByteArray) (now : Int) (faults : ApiFaults) : Prop where
  /-- The lock of the peers is free. -/
  peers : faults.peers = false
  /-- The lock of the replay store is free. -/
  replay : faults.replay = false
  /-- The message is not remembered, its line fits and no step fails. -/
  passes : ∃ signed identity seenAt,
    Api.lookupSender primitives api.toApiState body = .ok (signed, identity) ∧
    Api.authenticate primitives api.localIdentity.nodeId signed identity now = .ok seenAt ∧
    parseReplayTimestamp seenAt = .ok now ∧
    api.store.Passes faults.io signed.envelope.messageId seenAt now

/-! ## What an attempt does -/

/-- What an attempt is answered and what it leaves. -/
inductive Handled (api : HandledApi) (body : ByteArray) (now : Int) (faults : ApiFaults) :
    Except ProtocolError (Nat × EnvelopeReceipt) → HandledApi → Prop where
  /-- No sender is found. -/
  | unknown {error : ProtocolError} (refused : lookupSender primitives api body faults = .error error) :
      Handled api body now faults (.error error) api
  /-- The envelope is not authenticated. -/
  | unauthenticated {signed : SignedEnvelope} {identity : IdentityState} {error : ProtocolError}
      (found : lookupSender primitives api body faults = .ok (signed, identity))
      (refused : Api.authenticate primitives api.localIdentity.nodeId signed identity now =
        .error error) : Handled api body now faults (.error error) api
  /-- The replay store is not available. -/
  | unavailable {signed : SignedEnvelope} {identity : IdentityState} {seenAt : String}
      (found : lookupSender primitives api body faults = .ok (signed, identity))
      (passed : Api.authenticate primitives api.localIdentity.nodeId signed identity now =
        .ok seenAt) (poisoned : faults.replay = true) :
      Handled api body now faults (.error ⟨500, .localPolicyRejected, "replay_store_unavailable",
        some signed.envelope.messageId, .none, true⟩) api
  /-- The replay store answers. -/
  | gated {signed : SignedEnvelope} {identity : IdentityState} {seenAt : String}
      {decision : Except ReplayFailure ReplayDecision} {store : HandledStore}
      (found : lookupSender primitives api body faults = .ok (signed, identity))
      (passed : Api.authenticate primitives api.localIdentity.nodeId signed identity now =
        .ok seenAt) (free : faults.replay = false)
      (called : (HandledStore.checkAndRecord faults.io signed.envelope.messageId seenAt).run
        api.store = (decision, store)) :
      Handled api body now faults
        (Api.conclude signed.envelope (decision.mapError ReplayFailure.text) (!faults.audit))
        (api.withStore store)

/-- Every attempt ends in one of these ways. -/
theorem postEnvelope_handled (api : HandledApi) (body : ByteArray) (now : Int)
    (faults : ApiFaults) :
    Handled primitives api body now faults (postEnvelope primitives api body now faults).1
      (postEnvelope primitives api body now faults).2 := by
  unfold postEnvelope
  cases found : lookupSender primitives api body faults with
  | error error => exact .unknown found
  | ok result =>
    obtain ⟨signed, identity⟩ := result
    cases passed : Api.authenticate primitives api.localIdentity.nodeId signed identity now with
    | error error =>
      simp only [passed]
      exact .unauthenticated found passed
    | ok seenAt =>
      by_cases poisoned : faults.replay = true
      · simp only [passed, if_pos poisoned]
        exact .unavailable found passed poisoned
      · simp only [passed, if_neg poisoned]
        exact .gated found passed (Bool.eq_false_iff.mpr poisoned) rfl

/-- An attempt that comes to the replay store leaves what the call of it leaves. -/
theorem postEnvelope_of_called {api : HandledApi} {body : ByteArray} {now : Int}
    {faults : ApiFaults} {signed : SignedEnvelope} {identity : IdentityState} {seenAt : String}
    {decision : Except ReplayFailure ReplayDecision} {store : HandledStore}
    (found : lookupSender primitives api body faults = .ok (signed, identity))
    (passed : Api.authenticate primitives api.localIdentity.nodeId signed identity now = .ok seenAt)
    (free : faults.replay = false)
    (called : (HandledStore.checkAndRecord faults.io signed.envelope.messageId seenAt).run
      api.store = (decision, store)) :
    postEnvelope primitives api body now faults =
      (Api.conclude signed.envelope (decision.mapError ReplayFailure.text) (!faults.audit),
        api.withStore store) := by
  have poisoned : ¬faults.replay = true := Bool.eq_false_iff.mp free
  simp only [postEnvelope, found, passed, if_neg poisoned, called]

/-- An attempt that comes to the replay store is answered by it. -/
theorem answer_of_called {api : HandledApi} {body : ByteArray} {now : Int} {faults : ApiFaults}
    {signed : SignedEnvelope} {identity : IdentityState} {seenAt : String}
    {decision : Except ReplayFailure ReplayDecision}
    (found : lookupSender primitives api body faults = .ok (signed, identity))
    (passed : Api.authenticate primitives api.localIdentity.nodeId signed identity now = .ok seenAt)
    (free : faults.replay = false)
    (called : ((HandledStore.checkAndRecord faults.io signed.envelope.messageId seenAt).run
      api.store).1 = decision) :
    (postEnvelope primitives api body now faults).1 =
      Api.conclude signed.envelope (decision.mapError ReplayFailure.text) (!faults.audit) := by
  have both := postEnvelope_of_called primitives found passed free (Prod.ext called rfl)
  exact congrArg Prod.fst both

variable {primitives}

/-- A sender is found when the lock of the peers is free and the sender is known. -/
theorem lookupSender_ok_iff (api : HandledApi) (body : ByteArray) (faults : ApiFaults)
    (result : SignedEnvelope × IdentityState) :
    lookupSender primitives api body faults = .ok result ↔
      faults.peers = false ∧ Api.lookupSender primitives api.toApiState body = .ok result := by
  simp only [lookupSender, Api.lookupSender, bind_ok_iff, mapError_ok_iff, ensure_ok_iff,
    exists_const]
  constructor
  · rintro ⟨signed, read, free, identity, known⟩
    exact ⟨free, signed, read, identity, known⟩
  · rintro ⟨free, signed, read, identity, known⟩
    exact ⟨signed, read, free, identity, known⟩

/-- Without a failure the handler is the one that never fails. -/
theorem postEnvelope_without_failure (state : ApiState) (body : ByteArray) (now : Int) :
    postEnvelope primitives ⟨state, .none⟩ body now .none =
      ((Api.postEnvelope primitives state body now true).1,
        ⟨(Api.postEnvelope primitives state body now true).2, .none⟩) := by
  have same : lookupSender primitives ⟨state, .none⟩ body .none =
      Api.lookupSender primitives state body := by
    have free : ApiFaults.none.peers = false := rfl
    simp only [lookupSender, Api.lookupSender, ensure_pos free, bind_ok]
  unfold postEnvelope Api.postEnvelope
  rw [same]
  cases Api.lookupSender primitives state body with
  | error error => rfl
  | ok result =>
    obtain ⟨signed, identity⟩ := result
    simp only
    cases Api.authenticate primitives state.localIdentity.nodeId signed identity now with
    | error error => rfl
    | ok seenAt =>
      have called := HandledStore.checkAndRecord_without_failure state.replay
        signed.envelope.messageId seenAt
      have free : ¬ApiFaults.none.replay = true := Bool.false_ne_true
      have store : (HandledApi.mk state .none).store = ⟨state.replay, .none⟩ := rfl
      simp only [if_neg free]
      rw [store]
      have io : ApiFaults.none.io = .none := rfl
      rw [io, called]
      cases (state.replay.checkAndRecord signed.envelope.messageId seenAt).1 <;> rfl

/-- The answer before the replay store is asked is no answer that a message is a replay. -/
theorem lookupSender_error {api : HandledApi} {body : ByteArray} {faults : ApiFaults}
    {error : ProtocolError} (refused : lookupSender primitives api body faults = .error error) :
    error.errorCode ≠ .replay := by
  simp only [lookupSender, bind_error_iff, mapError_error_iff, ensure_error_iff, okOr_error_iff]
    at refused
  rcases refused with ⟨_, -, rfl⟩ | ⟨signed, -, ⟨-, rfl⟩ | ⟨-, -, ⟨-, rfl⟩ | ⟨_, -, impossible⟩⟩⟩
  · exact fun same => by cases same
  · exact fun same => by cases same
  · exact fun same => by cases same
  · cases impossible

/-- A recorded message is accepted when the audit log takes the record. -/
theorem conclude_recorded (envelope : FederationEnvelope) :
    ∃ answer, Api.conclude envelope (.ok .freshRecorded) true = .ok answer := by
  simp only [Api.conclude, Api.admitEffect_messageClass]
  exact ⟨_, rfl⟩

/-- An accepted answer follows a message that was recorded. -/
theorem recorded_of_conclude {envelope : FederationEnvelope}
    {decision : Except ReplayFailure ReplayDecision} {audit : Bool}
    {answer : Nat × EnvelopeReceipt}
    (accepted : Api.conclude envelope (decision.mapError ReplayFailure.text) audit = .ok answer) :
    decision = .ok .freshRecorded := by
  cases decision with
  | error failure => cases accepted
  | ok found =>
    cases found with
    | replay => cases accepted
    | freshRecorded => rfl

/-! ## Trying again -/

/-- Every request keeps the replay store sized. -/
theorem sized_serve {api : HandledApi} (sized : api.store.Sized) (request : Request) :
    (serve primitives api request).store.Sized := by
  cases request with
  | hello body audit =>
    have kept := (@Api.postPeerHello_kept primitives api.toApiState body audit).1
    change (HandledStore.mk (Api.postPeerHello primitives api.toApiState body audit).2.replay
      api.replaced).Sized
    rw [kept]
    exact sized
  | envelope body now faults =>
    have handled := postEnvelope_handled primitives api body now faults
    rw [serve]
    generalize (postEnvelope primitives api body now faults).2 = next at handled ⊢
    generalize (postEnvelope primitives api body now faults).1 = answer at handled
    cases handled with
    | unknown | unauthenticated | unavailable => exact sized
    | gated found passed free called => exact sized.outcome (HandledStore.outcome_of_eq called)

/-- The replay store is sized in every run from an opened log. -/
theorem sized_of_run {log : ByteArray} {start : ApiState} (opened : openLog log = .ok start.replay)
    {requests : List Request} {api : HandledApi}
    (run : Run (Served primitives) ⟨start, .none⟩ requests api) : api.store.Sized := by
  refine run.invariant (fun _ api => api.store.Sized) ?_ ?_
  · exact HandledStore.sized_openLog opened
  · rintro _ _ request _ - sized rfl
    exact sized_serve sized request

/-- An attempt after which the store remembers no more does no harm to the second one. -/
theorem unharmed_of_within {api : HandledApi} {store : HandledStore} (body : ByteArray)
    (sized : api.store.Sized) (within : store.Within api.store) :
    Unharmed primitives api (api.withStore store) body := by
  have same : ∀ later, lookupSender primitives (api.withStore store) body later =
      lookupSender primitives api body later := fun later => rfl
  refine ⟨?_, ?_⟩
  · intro later answer accepted
    have handled := postEnvelope_handled primitives api body later .none
    rw [accepted] at handled
    generalize (postEnvelope primitives api body later .none).2 = next at handled
    generalize answered : (.ok answer : Except ProtocolError (Nat × EnvelopeReceipt)) = result
      at handled
    cases handled with
    | unknown | unauthenticated | unavailable => cases answered
    | gated found passed free called =>
      obtain rfl := recorded_of_conclude answered.symm
      have recorded := within.recorded sized (congrArg Prod.fst called)
      exact answer_of_called primitives ((same _).trans found) passed free recorded
  · intro later error refused replay
    have handled := postEnvelope_handled primitives (api.withStore store) body later .none
    rw [refused] at handled
    generalize (postEnvelope primitives (api.withStore store) body later .none).2 = next at handled
    generalize answered : (.error error : Except ProtocolError (Nat × EnvelopeReceipt)) = result
      at handled
    cases handled with
    | unknown refused =>
      obtain rfl := Except.error.inj answered
      exact absurd replay (lookupSender_error refused)
    | unauthenticated found refused =>
      obtain rfl := Except.error.inj answered
      exact absurd replay (Api.authenticate_error refused).1
    | unavailable found passed poisoned => cases poisoned
    | @gated _ _ _ decision _ found passed free called =>
      obtain ⟨decided, -⟩ := Api.conclude_replay answered.symm replay
      cases decision with
      | error failure => cases decided
      | ok answer =>
        obtain rfl := Except.ok.inj decided
        have known := within.replayed (congrArg Prod.fst called)
        exact answer_of_called primitives ((same _).symm.trans found) passed free known

/-- The time of an authenticated envelope is the one that its text names. -/
theorem time_of_authenticated {localNodeId : String} {signed : SignedEnvelope}
    {identity : IdentityState} {now unix : Int} {seenAt : String}
    (passed : Api.authenticate primitives localNodeId signed identity now = .ok seenAt)
    (parsed : parseReplayTimestamp seenAt = .ok unix) : unix = now := by
  obtain ⟨-, -, formatted⟩ := (Api.authenticate_ok_iff ..).mp passed
  obtain ⟨shape, second⟩ := (DurableReplayStore.parseReplayTimestamp_ok_iff ..).mp parsed
  exact Option.some.inj (second.symm.trans (Wire.parseFromRfc3339_formatTimestamp formatted shape))

/-- The identifier of an envelope that is read is a reference. -/
theorem reference_of_found {state : ApiState} {body : ByteArray} {signed : SignedEnvelope}
    {identity : IdentityState}
    (found : Api.lookupSender primitives state body = .ok (signed, identity)) :
    Wire.isSha256Ref signed.envelope.messageId = true := by
  have read := ((Api.lookupSender_ok_iff ..).mp found).1
  simp only [SignedEnvelope.fromWire, bind_ok_iff, pure_ok_iff] at read
  obtain ⟨_, -, _, -, _, -, _, -, _, encoded, rfl⟩ := read
  simp only [canonicalEnvelopeBytes, bind_ok_iff, ensure_ok_iff, exists_const] at encoded
  exact ((FederationEnvelope.validateShape_iff _).mp encoded.1).messageId

/-- An attempt that recorded its message answers it as a replay from then on. -/
theorem not_unharmed_of_recorded {api after : HandledApi} {body : ByteArray} {now : Int}
    {faults : ApiFaults} {answer : Except ProtocolError (Nat × EnvelopeReceipt)}
    (recorded : Recorded primitives api body now faults)
    (attempted : postEnvelope primitives api body now faults = (answer, after)) :
    ¬Unharmed primitives api after body := by
  intro unharmed
  obtain ⟨signed, identity, seenAt, found, passed, parsed, passes⟩ := recorded.passes
  have reference := reference_of_found found
  have unfailing : lookupSender primitives api body .none = .ok (signed, identity) :=
    (lookupSender_ok_iff ..).mpr ⟨rfl, found⟩
  have there : lookupSender primitives api body faults = .ok (signed, identity) :=
    (lookupSender_ok_iff ..).mpr ⟨recorded.peers, found⟩
  -- The attempt leaves a store that knows the message.
  cases called : (HandledStore.checkAndRecord faults.io signed.envelope.messageId seenAt).run
    api.store with
  | mk decision store =>
    have fresh := (HandledStore.fresh_iff_passes reference parsed).mpr passes
    rw [called] at fresh
    obtain rfl : decision = .ok .freshRecorded := fresh
    rw [postEnvelope_of_called primitives there passed recorded.replay called] at attempted
    obtain rfl := congrArg Prod.snd attempted
    have knows : store.Knows signed.envelope.messageId now := by
      cases HandledStore.outcome_of_eq called with
      | fresh _ same =>
        obtain rfl := Except.ok.inj (parsed.symm.trans same)
        exact ⟨_, OrderedMap.get?_insert_self .., le_rfl⟩
    -- Without the attempt the message would be recorded now, after it it is a replay.
    have accepted := @answer_of_called primitives api body now .none _ _ _ _ unfailing passed rfl
      ((HandledStore.fresh_iff_passes reference parsed).mpr
        ⟨passes.absent, passes.fits, HandledStore.spares_none _⟩)
    obtain ⟨receipt, concluded⟩ := conclude_recorded signed.envelope
    have recent : now ≤ now + replayRetentionSeconds := Int.le_add_of_nonneg_right (by decide)
    have replayed := knows.replayed .none reference parsed recent
    have again := unharmed.accepted now receipt (accepted.trans concluded)
    have known : lookupSender primitives (api.withStore store) body .none = .ok (signed, identity) :=
      unfailing
    rw [answer_of_called primitives known passed rfl replayed] at again
    cases again

/-- An attempt whose audit log fails after its message is recorded asks to be tried again. -/
theorem retryable_of_recorded {api after : HandledApi} {body : ByteArray} {now : Int}
    {faults : ApiFaults} {error : ProtocolError}
    (recorded : Recorded primitives api body now faults) (audit : faults.audit = true)
    (attempted : postEnvelope primitives api body now faults = (.error error, after)) :
    error.retryable = true := by
  obtain ⟨signed, identity, seenAt, found, passed, parsed, passes⟩ := recorded.passes
  have there : lookupSender primitives api body faults = .ok (signed, identity) :=
    (lookupSender_ok_iff ..).mpr ⟨recorded.peers, found⟩
  have fresh := (HandledStore.fresh_iff_passes (reference_of_found found) parsed).mpr passes
  have answer := answer_of_called primitives there passed recorded.replay fresh
  rw [attempted, audit] at answer
  simp only [Except.mapError, Api.conclude, Api.admitEffect_messageClass] at answer
  obtain rfl := Except.error.inj answer
  rfl

/-- An attempt that fails and records nothing leaves a store that remembers no more, and so does
every attempt that fails although the audit log takes its record. -/
theorem within_of_failed {api after : HandledApi} {body : ByteArray} {now : Int}
    {faults : ApiFaults} {error : ProtocolError}
    (attempted : postEnvelope primitives api body now faults = (.error error, after))
    (unrecorded : ¬(faults.audit = true ∧ Recorded primitives api body now faults)) :
    ∃ store, store.Within api.store ∧ after = api.withStore store := by
  have handled := postEnvelope_handled primitives api body now faults
  rw [attempted] at handled
  generalize answered : (.error error : Except ProtocolError (Nat × EnvelopeReceipt)) = result
    at handled
  cases handled with
  | unknown | unauthenticated | unavailable => exact ⟨_, fun _ _ known => known, rfl⟩
  | @gated signed identity seenAt decision store found passed free called =>
    refine ⟨store, ?_, rfl⟩
    refine (HandledStore.outcome_of_eq called).within ?_
    rintro rfl
    obtain ⟨peers, there⟩ := (lookupSender_ok_iff ..).mp found
    have passes : parseReplayTimestamp seenAt = .ok now ∧
        api.store.Passes faults.io signed.envelope.messageId seenAt now := by
      cases HandledStore.outcome_of_eq called with
      | fresh reference parsed absent fits formatted taken =>
        obtain rfl := time_of_authenticated passed parsed
        exact ⟨parsed, absent, fits, taken⟩
    have recorded : Recorded primitives api body now faults :=
      ⟨peers, free, signed, identity, seenAt, there, passed, passes⟩
    cases audit : faults.audit with
    | true => exact unrecorded ⟨audit, recorded⟩
    | false =>
      obtain ⟨answer, accepted⟩ := conclude_recorded signed.envelope
      rw [audit] at answered
      exact absurd (answered.trans accepted) nofun

/-- In every run from an opened log, an attempt that is answered with an error does no harm to the
second one, if the error asks for one, exactly when the audit log did not fail after the message
was recorded. -/
theorem retry_unharmed_iff {log : ByteArray} {start : ApiState}
    (opened : openLog log = .ok start.replay) {requests : List Request} {api after : HandledApi}
    (run : Run (Served primitives) ⟨start, .none⟩ requests api) {body : ByteArray} {now : Int}
    {faults : ApiFaults} {error : ProtocolError}
    (attempted : postEnvelope primitives api body now faults = (.error error, after)) :
    (error.retryable = true → Unharmed primitives api after body) ↔
      ¬(faults.audit = true ∧ Recorded primitives api body now faults) := by
  constructor
  · rintro unharmed ⟨audit, recorded⟩
    have retryable := retryable_of_recorded recorded audit attempted
    exact not_unharmed_of_recorded recorded attempted (unharmed retryable)
  · intro unrecorded _
    obtain ⟨store, within, rfl⟩ := within_of_failed attempted unrecorded
    exact unharmed_of_within body (sized_of_run opened run) within

/-! ## A recorded attempt -/

/-- The recorded node introduces itself. -/
theorem recorded_introduced : ∃ requests, Run (Served recordedPrimitives) ⟨Api.recordedApi, .none⟩
    requests ⟨Api.introducedApi emptyStore, .none⟩ := by
  obtain ⟨hello, accepted⟩ := Api.recordedHello_accepted Api.recordedApi rfl (by decide +kernel)
    (by decide) (by decide +kernel) (by decide) (rfl : [].foldlM
      (applyRecord recordedPrimitives) (introduced recordedDocument 1787443200) = _) (fun existing stored => by cases stored)
  refine ⟨[.hello hello true], .single ?_⟩
  rw [Served, serve, Api.postPeerHello_accepted recordedPrimitives accepted true]
  rfl

/-- The first recorded envelope is posted to the node, whatever fails in its replay store. -/
theorem recorded_attempt (io : Option IoFault) (audit : Bool)
    {decision : Except ReplayFailure ReplayDecision} {store : HandledStore}
    (called : (HandledStore.checkAndRecord io Api.firstSigned.envelope.messageId
      "2026-08-23T01:55:00Z").run ⟨emptyStore, .none⟩ = (decision, store)) : ∃ body,
    Api.lookupSender recordedPrimitives (Api.introducedApi emptyStore) body =
      .ok (Api.firstSigned, introduced recordedDocument 1787443200) ∧
    postEnvelope recordedPrimitives ⟨Api.introducedApi emptyStore, .none⟩ body 1787450100
      ⟨false, false, io, audit⟩ =
      (Api.conclude Api.firstSigned.envelope (decision.mapError ReplayFailure.text) (!audit),
        withStore ⟨Api.introducedApi emptyStore, .none⟩ store) := by
  obtain ⟨body, found⟩ := Api.firstSigned_found emptyStore
  refine ⟨body, found, ?_⟩
  have there : lookupSender recordedPrimitives ⟨Api.introducedApi emptyStore, .none⟩ body
      ⟨false, false, io, audit⟩ = .ok (Api.firstSigned, introduced recordedDocument 1787443200) :=
    (lookupSender_ok_iff ..).mpr ⟨rfl, found⟩
  have passed : Api.authenticate recordedPrimitives
      (HandledApi.mk (Api.introducedApi emptyStore) .none).localIdentity.nodeId Api.firstSigned
      (introduced recordedDocument 1787443200) 1787450100 = .ok "2026-08-23T01:55:00Z" :=
    Api.firstSigned_early
  have open_ : (ApiFaults.mk false false io audit).replay = false := rfl
  exact postEnvelope_of_called recordedPrimitives there passed open_ called

/-- The first recorded envelope passes the empty store when no step fails. -/
theorem recorded_passes : HandledStore.Passes ⟨emptyStore, .none⟩ .none
    Api.firstSigned.envelope.messageId "2026-08-23T01:55:00Z" 1787450100 :=
  ⟨rfl, by decide, HandledStore.spares_none _⟩

/-- A call of which the write fails answers so. -/
theorem recorded_write_failed : ∃ store,
    (HandledStore.checkAndRecord (some (recordedFault 0)) Api.firstSigned.envelope.messageId
      "2026-08-23T01:55:00Z").run ⟨emptyStore, .none⟩ =
        (.error (.io .write "No space left on device"), store) :=
  ⟨_, rfl⟩

/-- A write of the replay store that fails before it appends anything is made up for by the second
attempt. -/
theorem recorded_retry_accepted : ∃ requests api body error after answer,
    Run (Served recordedPrimitives) ⟨Api.recordedApi, .none⟩ requests api ∧
    postEnvelope recordedPrimitives api body 1787450100
      ⟨false, false, some (recordedFault 0), false⟩ = (.error error, after) ∧
    error.retryable = true ∧
    (postEnvelope recordedPrimitives after body 1787450100 .none).1 = .ok answer := by
  obtain ⟨requests, run⟩ := recorded_introduced
  obtain ⟨store, called⟩ := recorded_write_failed
  obtain ⟨body, found, attempted⟩ := recorded_attempt _ false called
  have failed : Api.conclude Api.firstSigned.envelope
      ((.error (.io .write "No space left on device") : Except ReplayFailure ReplayDecision).mapError
        ReplayFailure.text) (!false) = .error ⟨503, .localPolicyRejected, "replay_store_failure",
          some Api.firstSigned.envelope.messageId, .none, true⟩ := rfl
  rw [failed] at attempted
  have unharmed := (retry_unharmed_iff emptyStore_opened run attempted).mpr
    fun ⟨audit, _⟩ => nomatch audit
  obtain ⟨answer, accepted⟩ := conclude_recorded Api.firstSigned.envelope
  have parsed : parseReplayTimestamp "2026-08-23T01:55:00Z" = .ok 1787450100 := rfl
  have fresh := (HandledStore.fresh_iff_passes (reference_of_found found) parsed).mpr recorded_passes
  have there : lookupSender recordedPrimitives ⟨Api.introducedApi emptyStore, .none⟩ body .none =
      .ok (Api.firstSigned, introduced recordedDocument 1787443200) :=
    (lookupSender_ok_iff ..).mpr ⟨rfl, found⟩
  have first := answer_of_called recordedPrimitives there Api.firstSigned_early rfl fresh
  exact ⟨requests, _, body, _, _, answer, run, attempted, rfl,
    (unharmed rfl).accepted _ _ (first.trans accepted)⟩

/-- An audit log that fails after the message is recorded has the second attempt refused. -/
theorem recorded_retry_refused : ¬∀ log start requests api after body now faults error,
    openLog log = .ok start.replay →
    Run (Served recordedPrimitives) ⟨start, .none⟩ requests api →
    postEnvelope recordedPrimitives api body now faults = (.error error, after) →
    error.retryable = true → Unharmed recordedPrimitives api after body := by
  intro always
  obtain ⟨requests, run⟩ := recorded_introduced
  have parsed : parseReplayTimestamp "2026-08-23T01:55:00Z" = .ok 1787450100 := rfl
  cases called : (HandledStore.checkAndRecord .none Api.firstSigned.envelope.messageId
    "2026-08-23T01:55:00Z").run ⟨emptyStore, .none⟩ with
  | mk decision store =>
    obtain ⟨body, found, attempted⟩ := recorded_attempt .none true called
    have fresh := (HandledStore.fresh_iff_passes (reference_of_found found) parsed).mpr
      recorded_passes
    rw [called] at fresh
    obtain rfl : decision = .ok .freshRecorded := fresh
    have failed : Api.conclude Api.firstSigned.envelope
        ((.ok .freshRecorded : Except ReplayFailure ReplayDecision).mapError ReplayFailure.text)
        (!true) = .error ⟨500, .localPolicyRejected, "audit_log_unavailable",
          some Api.firstSigned.envelope.messageId, .none, true⟩ := rfl
    rw [failed] at attempted
    have unharmed := always _ _ _ _ _ _ _ _ _ emptyStore_opened run attempted rfl
    have recorded : Recorded recordedPrimitives ⟨Api.introducedApi emptyStore, .none⟩ body
        1787450100 ⟨false, false, .none, true⟩ :=
      ⟨rfl, rfl, _, _, _, found, Api.firstSigned_early, parsed, recorded_passes⟩
    exact not_unharmed_of_recorded recorded attempted unharmed

end HandledApi

end QsolFed
