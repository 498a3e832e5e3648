import QsolFed.Peering.Partition

/-!
# The history of a peer

A record is only ever replaced by a later one of the same peer: the document stays, the lifecycle
is continued, the advertisements are numbered upwards, and a peer that is revoked stays revoked as
it was. A call that is refused, or that repeats what is stored, leaves every file as it is; a peer
that is imported is counted as the introduction and the transition that its import consists of.
-/
namespace QsolFed

open Checked Json Canonical Crypto

namespace Peering

variable {primitives : Primitives}

/-- Records with the same canonical bytes, one after another, are the beginning of a list. -/
theorem prefix_of_requireSameRecords {old candidate : List PeerLifecycleRecord}
    (stored : ∀ record ∈ old, Plain (Codecs.lifecycleRecord.encode record))
    (offered : ∀ record ∈ candidate, Plain (Codecs.lifecycleRecord.encode record))
    (same : requireSameRecords primitives old candidate = .ok ()) : old <+: candidate := by
  induction old generalizing candidate with
  | nil => exact List.nil_prefix
  | cons first rest ih =>
    cases candidate with
    | nil => cases same
    | cons other others =>
      simp only [requireSameRecords, bind_ok_iff, ensure_ok_iff, exists_const] at same
      obtain ⟨raw, one, _, two, rfl, following⟩ := same
      have shallow : ∀ record, (Codecs.lifecycleRecord.encode record).nesting < maxDepth :=
        fun record => (Identity.nesting_lifecycleRecord record).trans_lt (by decide)
      obtain rfl := canonicalStruct_inj Codecs.lifecycleRecord (stored _ List.mem_cons_self)
        (offered _ List.mem_cons_self) shallow one two
      have tails := ih (fun record member => stored record (List.mem_cons_of_mem _ member))
        (fun record member => offered record (List.mem_cons_of_mem _ member)) following
      exact (List.prefix_cons_inj _).mpr tails

/-- A lifecycle that passes the comparison goes on from the stored one. -/
theorem prefix_of_requireLifecyclePrefix {identity offered : NodeIdentityDocument}
    {old candidate : List PeerLifecycleRecord} {before after : IdentityState}
    (stored : Rebuilt primitives identity old before)
    (shown : Rebuilt primitives offered candidate after)
    (passed : requireLifecyclePrefix primitives old candidate = .ok ()) : old <+: candidate := by
  simp only [requireLifecyclePrefix, bind_ok_iff, ensure_ok_iff, exists_const] at passed
  exact prefix_of_requireSameRecords stored.records shown.records passed.2

end Peering

namespace PeerRegistry

open Peering

variable {primitives : Primitives}

/-! ## Later records -/

/-- One record of a peer is later than another, or the same. -/
structure Later (old new : PeerRecord) : Prop where
  /-- It is about the same node. -/
  node : new.nodeId = old.nodeId
  /-- The document is the one it began with. -/
  identity : new.identity = old.identity
  /-- The lifecycle is continued. -/
  lifecycle : old.lifecycle <+: new.lifecycle
  /-- Its number does not fall. -/
  sequence : old.lifecycleSequence ≤ new.lifecycleSequence
  /-- The number of the advertisement does not fall, and a number names one advertisement. -/
  advertisement : ∀ first ∈ old.capabilityAdvertisement, ∃ second ∈ new.capabilityAdvertisement,
    first.sequence ≤ second.sequence ∧ (first.sequence = second.sequence → first = second)
  /-- A revoked peer stays as it is. -/
  revoked : old.state = .revoked → new.state = .revoked ∧ new.lifecycle = old.lifecycle ∧
    new.lifecycleSequence = old.lifecycleSequence

/-- A record is as late as itself. -/
theorem Later.refl (record : PeerRecord) : Later record record where
  node := rfl
  identity := rfl
  lifecycle := List.prefix_rfl
  sequence := UInt64.le_refl _
  advertisement := fun first present => ⟨first, present, UInt64.le_refl _, fun _ => rfl⟩
  revoked := fun state => ⟨state, rfl, rfl⟩

/-- What is later than a later record is later. -/
theorem Later.trans {first second third : PeerRecord} (one : Later first second)
    (two : Later second third) : Later first third where
  node := two.node.trans one.node
  identity := two.identity.trans one.identity
  lifecycle := one.lifecycle.trans two.lifecycle
  sequence := UInt64.le_trans one.sequence two.sequence
  advertisement := by
    intro advertisement present
    obtain ⟨middle, middlePresent, below, same⟩ := one.advertisement advertisement present
    obtain ⟨last, lastPresent, above, equal⟩ := two.advertisement middle middlePresent
    refine ⟨last, lastPresent, UInt64.le_trans below above, fun sequences => ?_⟩
    have squeezed : middle.sequence ≤ advertisement.sequence := sequences ▸ above
    have left : advertisement.sequence = middle.sequence := UInt64.le_antisymm below squeezed
    exact (same left).trans (equal (left ▸ sequences))
  revoked := by
    intro state
    obtain ⟨middle, lifecycle, sequence⟩ := one.revoked state
    obtain ⟨last, again, same⟩ := two.revoked middle
    exact ⟨last, again.trans lifecycle, same.trans sequence⟩

/-- A change that keeps everything but the local state of a peer that is not revoked, and the
advertisement, makes a later record. -/
theorem later_of_kept {old new : PeerRecord} (node : new.nodeId = old.nodeId)
    (identity : new.identity = old.identity) (lifecycle : new.lifecycle = old.lifecycle)
    (sequence : new.lifecycleSequence = old.lifecycleSequence)
    (state : old.state = .revoked → new.state = .revoked)
    (advertisement : ∀ first ∈ old.capabilityAdvertisement,
      ∃ second ∈ new.capabilityAdvertisement,
        first.sequence ≤ second.sequence ∧ (first.sequence = second.sequence → first = second)) :
    Later old new where
  node := node
  identity := identity
  lifecycle := lifecycle ▸ List.prefix_rfl
  sequence := sequence ▸ UInt64.le_refl _
  advertisement := advertisement
  revoked := fun closed => ⟨state closed, lifecycle, sequence⟩

/-- A record in another state is later when the change is allowed. -/
theorem later_transitioned {old : PeerRecord} {target : PeerLifecycleState} (updatedAt : String)
    (allowed : transitionAllowed old.state target = true) :
    Later old (transitionedRecord old target updatedAt) := by
  refine later_of_kept rfl rfl rfl rfl ?_ (Later.refl old).advertisement
  intro revoked
  rw [revoked] at allowed
  cases target <;> first | rfl | cases allowed

/-- A record with another advertisement is later when the advertisement is not stored already. -/
theorem later_advertised {old : PeerRecord} {advertisement : CapabilityAdvertisement}
    (updatedAt : String) (fresh : isStoredAdvertisement primitives old advertisement = .ok false) :
    Later old (advertisedRecord old advertisement updatedAt) := by
  refine later_of_kept rfl rfl rfl rfl id ?_
  intro first present
  simp only [isStoredAdvertisement, Option.mem_def.mp present, bind_ok_iff, ensure_ok_iff,
    exists_const] at fresh
  obtain ⟨newer, rest⟩ := fresh
  have different : ¬advertisement.sequence = first.sequence := by
    intro equal
    simp only [if_pos equal, bind_ok_iff, pure_ok_iff, Bool.true_eq_false, and_false, exists_false] at rest
  exact ⟨advertisement, rfl, UInt64.not_lt.mp newer, fun equal => absurd equal.symm different⟩

/-- A record with a longer lifecycle is later. -/
theorem later_extended {old : PeerRecord} {lifecycle : List PeerLifecycleRecord}
    {observedSnapshot : Option String} {updatedAt fingerprint : String} {sequence : UInt64}
    (open_ : old.state ≠ .revoked) (continued : old.lifecycle <+: lifecycle)
    (longer : old.lifecycleSequence < sequence) :
    Later old (extendedRecord old lifecycle observedSnapshot updatedAt fingerprint sequence) where
  node := rfl
  identity := rfl
  lifecycle := continued
  sequence := UInt64.le_of_lt longer
  advertisement := (Later.refl old).advertisement
  revoked := fun closed => absurd closed open_

/-! ## Steps -/

/-- Every stored record is followed by a later one. -/
def Grown (primitives : Primitives) (registry next : PeerRegistry) : Prop :=
  ∀ nodeId old, registry.get primitives nodeId = .ok (some old) →
    ∃ new, next.get primitives nodeId = .ok (some new) ∧ Later old new

/-- A registry follows itself. -/
theorem Grown.refl (registry : PeerRegistry) : Grown primitives registry registry :=
  fun _ old found => ⟨old, found, .refl old⟩

/-- What follows a following registry follows. -/
theorem Grown.trans {first second third : PeerRegistry} (one : Grown primitives first second)
    (two : Grown primitives second third) : Grown primitives first third := by
  intro nodeId old found
  obtain ⟨middle, foundMiddle, below⟩ := one nodeId old found
  obtain ⟨new, foundNew, above⟩ := two nodeId middle foundMiddle
  exact ⟨new, foundNew, below.trans above⟩

/-- A write of a later record than the one that is stored lets the registry grow. -/
theorem grown_of_write {registry next : PeerRegistry} {record : PeerRecord}
    (written : registry.writePeer primitives record = .ok next)
    (later : ∀ old, registry.get primitives record.nodeId = .ok (some old) → Later old record) :
    Grown primitives registry next := by
  intro nodeId old found
  have read := get_writePeer written nodeId
  by_cases here : nodeId = record.nodeId
  · rw [if_pos here] at read
    exact ⟨record, read, later old (here ▸ found)⟩
  · rw [if_neg here] at read
    exact ⟨old, read.trans found, .refl old⟩

/-- A write of a later record than one that was read lets the registry grow. -/
theorem Stored.grown {registry next : PeerRegistry} {nodeId : String} {old record : PeerRecord}
    {rebuilt : IdentityState} (stored : Stored primitives registry nodeId old rebuilt)
    (written : registry.writePeer primitives record = .ok next) (later : Later old record) :
    Grown primitives registry next := by
  refine grown_of_write written fun other found => ?_
  have same : record.nodeId = nodeId := later.node.trans stored.node
  rw [same, stored.found] at found
  obtain rfl := Option.some.inj (Except.ok.inj found)
  exact later

/-- An introduction lets a sound registry grow. -/
theorem introduce_grown {registry next : PeerRegistry} {identity : NodeIdentityDocument}
    {lifecycle : List PeerLifecycleRecord} {observedSnapshot : Option String} {updatedAt : String}
    {disposition : RegistryWriteDisposition} (sound : Sound primitives registry)
    (ran : introduce primitives identity lifecycle observedSnapshot updatedAt registry =
      .ok (disposition, next)) : Grown primitives registry next := by
  obtain ⟨-, -, state, fingerprint, rebuilt, -, outcome⟩ := (introduce_ok_iff ..).mp ran
  cases outcome with
  | new unknown written =>
    refine grown_of_write written fun old found => ?_
    cases unknown.symm.trans found
  | duplicate old found open_ same sequence fingerprints unchanged =>
    exact unchanged ▸ Grown.refl next
  | extended old found open_ same sequence extends_ written =>
    obtain ⟨before, stored⟩ := sound.stored found
    have continued := prefix_of_requireLifecyclePrefix (rebuilt_of_ok stored.valid.identity)
      (rebuilt_of_ok rebuilt) extends_
    exact stored.grown written (later_extended open_ continued sequence)

/-- A call is the import of a peer, which consists of two other calls. -/
def Call.IsImport : Call → Prop
  | .importQuarantined .. => True
  | _ => False

/-- A call that is counted: any but the import of a peer. -/
def Counted (primitives : Primitives) (registry : PeerRegistry)
    (event : Call × Except PeeringError Answer) (next : PeerRegistry) : Prop :=
  Step primitives registry event next ∧ ¬event.1.IsImport

/-- A successful operation of an atomic call, or none. -/
theorem atomic_grown {α : Type} {registry next : PeerRegistry}
    {operation : PeerRegistry → Except PeeringError (α × PeerRegistry)} {answer : α → Answer}
    {result : Except PeeringError Answer}
    (ran : (answer <$> Effect.atomic operation).run registry = (result, next))
    (succeeded : ∀ value, operation registry = .ok (value, next) →
      Grown primitives registry next) : Grown primitives registry next := by
  rcases Effect.run_map_atomic_cases ran with ⟨error, -, rfl⟩ | ⟨value, operated, -⟩
  · exact .refl _
  · exact succeeded value operated

/-- Every counted call lets a sound registry grow. -/
theorem Counted.grown {registry next : PeerRegistry} {event : Call × Except PeeringError Answer}
    (sound : Sound primitives registry) (counted : Counted primitives registry event next) :
    Grown primitives registry next := by
  obtain ⟨stepped, single⟩ := counted
  obtain ⟨call, result⟩ := event
  cases call with
  | introduce identity lifecycle observedSnapshot updatedAt =>
    exact atomic_grown stepped fun _ ran => introduce_grown sound ran
  | importQuarantined identity lifecycle updatedAt => exact absurd trivial single
  | attachArchival nodeId advertisement updatedAt =>
    refine atomic_grown stepped fun _ ran => ?_
    obtain ⟨-, record, found, identity, -, -, outcome⟩ := (attach_ok_iff ..).mp ran
    obtain ⟨rebuilt, stored⟩ := sound.stored found
    rcases outcome with ⟨-, unchanged⟩ | ⟨fresh, written⟩
    · exact unchanged ▸ Grown.refl next
    · exact stored.grown written (later_advertised updatedAt fresh)
  | recordCapability advertisement nowUnix updatedAt =>
    refine atomic_grown stepped fun disposition ran => ?_
    obtain ⟨-, record, found, identity, -, -, outcome⟩ := (recordCapability_ok_iff ..).mp ran
    obtain ⟨rebuilt, stored⟩ := sound.stored found
    rcases outcome with ⟨-, -, unchanged⟩ | ⟨fresh, -, written⟩
    · exact unchanged ▸ Grown.refl next
    · exact stored.grown written (later_advertised updatedAt fresh)
  | transition nodeId target updatedAt =>
    refine atomic_grown stepped fun _ ran => ?_
    obtain ⟨-, record, found, allowed, written⟩ := (transition_ok_iff ..).mp ran
    obtain ⟨rebuilt, stored⟩ := sound.stored found
    exact stored.grown written (later_transitioned updatedAt allowed)
  | disconnect nodeId localSnapshot updatedAt =>
    refine atomic_grown stepped fun _ ran => ?_
    obtain ⟨-, record, found, allowed, written⟩ := (disconnect_ok_iff ..).mp ran
    obtain ⟨rebuilt, stored⟩ := sound.stored found
    have later : Later record (disconnectedRecord record localSnapshot updatedAt) :=
      later_of_kept rfl rfl rfl rfl (fun revoked => absurd (.inl revoked) allowed)
        (Later.refl record).advertisement
    exact stored.grown written later
  | proposeRejoin nodeId remoteSnapshot =>
    simp only [Step, Call.effect, Effect.run_map, Effect.run_read] at stepped
    obtain ⟨-, rfl⟩ := Prod.mk.inj stepped
    exact .refl registry
  | confirmRejoin nodeId remoteSnapshot explicitReconciliation updatedAt =>
    refine atomic_grown stepped fun _ ran => ?_
    obtain ⟨-, -, record, found, partitioned, -, -, written⟩ := (confirmRejoin_ok_iff ..).mp ran
    obtain ⟨rebuilt, stored⟩ := sound.stored found
    have later : Later record (rejoinedRecord record
        (record.preDisconnectState.getD .introduced) remoteSnapshot updatedAt) :=
      later_of_kept rfl rfl rfl rfl (fun revoked => by rw [partitioned] at revoked; cases revoked)
        (Later.refl record).advertisement
    exact stored.grown written later

/-- A call is refused, or it repeats what is stored. -/
def Refused : Except PeeringError Answer → Prop
  | .error _ => True
  | .ok answer => answer = .written .duplicate

/-- An atomic call that is refused, or that repeats what is stored, changes nothing. -/
theorem atomic_unchanged {α : Type} {registry next : PeerRegistry}
    {operation : PeerRegistry → Except PeeringError (α × PeerRegistry)} {answer : α → Answer}
    {result : Except PeeringError Answer}
    (ran : (answer <$> Effect.atomic operation).run registry = (result, next))
    (refused : Refused result)
    (repeated : ∀ value, operation registry = .ok (value, next) →
      answer value = .written .duplicate → next = registry) : next = registry := by
  rcases Effect.run_map_atomic_cases ran with ⟨error, -, unchanged⟩ | ⟨value, operated, rfl⟩
  · exact unchanged
  · exact repeated value operated refused

/-- A counted call that is refused, or that repeats what is stored, changes nothing. -/
theorem Counted.unchanged {registry next : PeerRegistry}
    {event : Call × Except PeeringError Answer} (counted : Counted primitives registry event next)
    (refused : Refused event.2) : next = registry := by
  obtain ⟨stepped, single⟩ := counted
  obtain ⟨call, result⟩ := event
  cases call with
  | introduce identity lifecycle observedSnapshot updatedAt =>
    refine atomic_unchanged stepped refused fun disposition ran answered => ?_
    obtain rfl := Answer.written.inj answered
    obtain ⟨-, -, state, fingerprint, -, -, outcome⟩ := (introduce_ok_iff ..).mp ran
    cases outcome with
    | duplicate old found open_ same sequence fingerprints unchanged => exact unchanged
  | importQuarantined identity lifecycle updatedAt => exact absurd trivial single
  | recordCapability advertisement nowUnix updatedAt =>
    refine atomic_unchanged stepped refused fun disposition ran answered => ?_
    obtain rfl := Answer.written.inj answered
    obtain ⟨-, record, -, identity, -, -, outcome⟩ := (recordCapability_ok_iff ..).mp ran
    rcases outcome with ⟨-, -, unchanged⟩ | ⟨-, applied, -⟩
    · exact unchanged
    · cases applied
  | attachArchival nodeId advertisement updatedAt => exact atomic_unchanged stepped refused fun _ _ other => by cases other
  | transition nodeId target updatedAt => exact atomic_unchanged stepped refused fun _ _ other => by cases other
  | disconnect nodeId localSnapshot updatedAt => exact atomic_unchanged stepped refused fun _ _ other => by cases other
  | proposeRejoin nodeId remoteSnapshot =>
    simp only [Step, Call.effect, Effect.run_map, Effect.run_read] at stepped
    exact (Prod.mk.inj stepped).2.symm
  | confirmRejoin nodeId remoteSnapshot explicitReconciliation updatedAt =>
    exact atomic_unchanged stepped refused fun _ _ other => by cases other

/-! ## Imports -/

/-- The calls that an import is counted as. -/
def importCalls (identity : NodeIdentityDocument) (lifecycle : List PeerLifecycleRecord)
    (updatedAt : String) : List Call :=
  [.introduce identity lifecycle none updatedAt,
    .transition identity.nodeId .quarantined updatedAt]

/-- An import is its introduction and its transition, as far as they are made. -/
theorem import_counted {registry next : PeerRegistry} {identity : NodeIdentityDocument}
    {lifecycle : List PeerLifecycleRecord} {updatedAt : String}
    {answer : Except PeeringError Answer}
    (stepped : Step primitives registry (.importQuarantined identity lifecycle updatedAt, answer)
      next) :
    ∃ events, Run (Counted primitives) registry events next ∧
      events.map Prod.fst <+: importCalls identity lifecycle updatedAt := by
  simp only [Step, Call.effect, Effect.run_map, importQuarantined, Effect.run_bind,
    Effect.run_read] at stepped
  cases read : registry.get primitives identity.nodeId with
  | error error =>
    simp only [read, Except.map] at stepped
    obtain rfl := (Prod.mk.inj stepped).2
    exact ⟨[], .nil, List.nil_prefix⟩
  | ok found =>
    simp only [read, Except.map] at stepped
    cases first : (Effect.atomic (introduce primitives identity lifecycle none updatedAt)).run
        registry with
    | mk result middle =>
      have introduced : Counted primitives registry
          (.introduce identity lifecycle none updatedAt, result.map .written) middle :=
        ⟨by simp only [Step, Call.effect, Effect.run_map, first], not_false⟩
      have one := Run.single introduced
      have begins : [Call.introduce identity lifecycle none updatedAt] <+:
          importCalls identity lifecycle updatedAt := List.prefix_append _ _
      cases result with
      | error error =>
        simp only [first] at stepped
        obtain rfl := (Prod.mk.inj stepped).2
        exact ⟨_, one, begins⟩
      | ok disposition =>
        simp only [first] at stepped
        cases found with
        | some old =>
          simp only [Option.isSome_some, ↓reduceIte, Effect.run_pure] at stepped
          obtain rfl := (Prod.mk.inj stepped).2
          exact ⟨_, one, begins⟩
        | none =>
          simp only [Option.isSome_none, Bool.false_eq_true, ↓reduceIte, Effect.run_bind] at stepped
          cases second : (Effect.atomic
              (transition primitives identity.nodeId .quarantined updatedAt)).run middle with
          | mk outcome final =>
            have moved : Counted primitives middle
                (.transition identity.nodeId .quarantined updatedAt,
                  outcome.map fun _ => .done) final :=
              ⟨by simp only [Step, Call.effect, Effect.run_map, second], not_false⟩
            have same : final = next := by
              cases outcome with
              | error error =>
                simp only [second] at stepped
                exact (Prod.mk.inj stepped).2
              | ok value =>
                simp only [second, Effect.run_pure] at stepped
                exact (Prod.mk.inj stepped).2
            exact ⟨_, same ▸ one.snoc moved, List.prefix_rfl⟩

/-- Every call lets a sound registry grow, and leaves it sound. -/
theorem step_grown {registry next : PeerRegistry} {event : Call × Except PeeringError Answer}
    (sound : Sound primitives registry) (stepped : Step primitives registry event next) :
    Sound primitives next ∧ Grown primitives registry next := by
  refine ⟨(step_effective sound stepped).1, ?_⟩
  by_cases imports : event.1.IsImport
  · obtain ⟨call, answer⟩ := event
    cases call with
    | importQuarantined identity lifecycle updatedAt =>
      obtain ⟨events, run, -⟩ := import_counted stepped
      have grown := run.invariant
        (fun _ after => Sound primitives after ∧ Grown primitives registry after)
        ⟨sound, .refl registry⟩ fun _ middle event final _ kept counted =>
          ⟨(step_effective kept.1 counted.1).1, kept.2.trans (counted.grown kept.1)⟩
      exact grown.2
    | _ => exact absurd imports id
  · exact Counted.grown sound ⟨stepped, imports⟩

/-! ## The history over a run -/

end PeerRegistry

end QsolFed
