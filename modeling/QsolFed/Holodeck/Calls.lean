import QsolFed.Holodeck
import QsolFed.Library.Run

/-!
# Calls on a sandbox

A sandbox is only reached through its operations. A call is an operation with its arguments, and a
step is a call with its answer. What one step can do to the ledger and to the state is said once,
for every call; the properties of whole runs follow from it.
-/
namespace QsolFed.HolodeckSandbox

open Checked Holodeck

/-- An operation with its arguments. -/
inductive Call where
  /-- Record what is told. -/
  | narrative (actor : Option String) (text : String) (sourceRefs : List String)
  /-- Record what changes. -/
  | transition (actor : Option String) (label : String) (sourceRefs : List String)
  /-- Attempt an effect outside of the sandbox. -/
  | attempt (actor : Option String) (effect : HolodeckBoundaryEffect)
  /-- Freeze the program. -/
  | freeze
  /-- Resume the program. -/
  | resume
  /-- End the program. -/
  | endProgram (reason : String)

/-- What a call returns when it succeeds. -/
inductive Reply where
  /-- A decision about a synthetic action. -/
  | decision (decision : HolodeckDecision)
  /-- An event. -/
  | event (event : HolodeckEvent)
  /-- The receipt of the program. -/
  | receipt (receipt : HolodeckReceipt)

/-- The answer to a call. -/
abbrev Answer : Type := Except HolodeckError Reply

variable (primitives : Primitives)

/-- What a call does. -/
def invoke : Call → Effect HolodeckSandbox HolodeckError Reply
  | .narrative actor text refs =>
    .decision <$> recordSyntheticNarrative primitives actor text refs
  | .transition actor label refs =>
    .decision <$> recordSyntheticTransition primitives actor label refs
  | .attempt actor effect => .decision <$> attemptBoundaryEffect primitives actor effect
  | .freeze => .event <$> freeze primitives
  | .resume => .event <$> resume primitives
  | .endProgram reason => .receipt <$> HolodeckSandbox.endProgram primitives reason

/-- One call and its answer. -/
def Step (before : HolodeckSandbox) (event : Call × Answer) (after : HolodeckSandbox) : Prop :=
  (invoke primitives event.1).run before = (event.2, after)

/-- The program has begun and these calls were made. -/
def Reached (program : HolodeckProgram) (events : List (Call × Answer))
    (sandbox : HolodeckSandbox) : Prop :=
  ∃ started, start primitives program = .ok started ∧ Run (Step primitives) started events sandbox

/-- The kind of an event that a participant causes by a synthetic action. -/
def Synthetic (kind : HolodeckEventKind) : Prop :=
  kind = .syntheticNarrative ∨ kind = .syntheticTransition

/-! ## Appending -/

/-- An event that a sandbox may append. -/
structure Entry (sandbox : HolodeckSandbox) (event : HolodeckEvent) : Prop where
  /-- The ledger has room. -/
  room : sandbox.events.length < sandbox.program.maxEvents.toNat
  /-- The event has the next number. -/
  sequence : event.sequence.toNat = sandbox.events.length + 1
  /-- It refers to source objects of the program. -/
  sources : ∀ reference ∈ event.sourceRefs, reference ∈ sandbox.program.source.objectRefs

/-- A sandbox with one more event. -/
def withEvent (sandbox : HolodeckSandbox) (event : HolodeckEvent) : HolodeckSandbox :=
  { sandbox with events := sandbox.events ++ [event] }

/-- A sandbox in another state. -/
def withState (sandbox : HolodeckSandbox) (state : HolodeckState) : HolodeckSandbox :=
  { sandbox with state := state }

variable {primitives : Primitives} {sandbox : HolodeckSandbox}

/-- The ledger with one more event. -/
@[simp] theorem withEvent_events (event : HolodeckEvent) :
    (sandbox.withEvent event).events = sandbox.events ++ [event] := rfl

/-- The source objects of an event are few, distinct and of the program. -/
theorem validateEventSourceRefs_ok_iff (refs : List String) (source : NexusWorldSourceManifest) :
    validateEventSourceRefs refs source = .ok () ↔ refs.length ≤ maxHolodeckAnchors ∧
      refs.Nodup ∧ ∀ reference ∈ refs, reference ∈ source.objectRefs := by
  simp [validateEventSourceRefs, bind_ok_iff, ensure_ok_iff]

/-- The next event exists exactly when the ledger has room, its parts are valid and what it covers
has canonical bytes. -/
theorem nextEvent_ok_iff (kind : HolodeckEventKind) (actor : Option String) (text : String)
    (refs : List String) (event : HolodeckEvent) :
    sandbox.nextEvent primitives kind actor text refs = .ok event ↔
      sandbox.events.length < sandbox.program.maxEvents.toNat ∧ validateText text = .ok () ∧
      validateEventSourceRefs refs sandbox.program.source = .ok () ∧
      ∃ bytes, canonicalStruct primitives (writeProjection sandbox.plan
        (UInt32.ofNat (sandbox.events.length + 1)) kind actor text refs) = .ok bytes ∧
      event =
        { schema := holodeckEventSchemaV1
          programId := sandbox.plan.programId
          worldId := sandbox.plan.worldId
          sequence := UInt32.ofNat (sandbox.events.length + 1)
          eventId := domainRef primitives "holodeck-event" holodeckEventDomain bytes
          kind := kind
          syntheticActor := actor
          text := text
          sourceRefs := refs
          authorityEffect := "none"
          federationEffect := "none"
          evidenceEffect := "none" } := by
  have small := sandbox.program.maxEvents.toNat_lt
  simp only [nextEvent, bind_ok_iff, ensure_ok_iff, pure_ok_iff, exists_const]
  constructor
  · rintro ⟨room, ⟨⟩, text, ⟨⟩, refs, -, bytes, encoded, rfl⟩
    exact ⟨room, text, refs, bytes, encoded, rfl⟩
  · rintro ⟨room, text, refs, bytes, encoded, rfl⟩
    exact ⟨room, ⟨⟩, text, ⟨⟩, refs, by omega, bytes, encoded, rfl⟩

/-- The next event is an entry of its kind. -/
theorem entry_of_next {kind : HolodeckEventKind} {actor : Option String} {text : String}
    {refs : List String} {event : HolodeckEvent}
    (next : sandbox.nextEvent primitives kind actor text refs = .ok event) :
    Entry sandbox event ∧ event.kind = kind := by
  obtain ⟨room, -, valid, bytes, -, rfl⟩ := (nextEvent_ok_iff ..).mp next
  have sources := (validateEventSourceRefs_ok_iff _ _).mp valid
  have small : sandbox.events.length + 1 < UInt32.size := by
    have := sandbox.program.maxEvents.toNat_lt
    have : UInt32.size = 2 ^ 32 := rfl
    omega
  exact ⟨⟨room, UInt32.toNat_ofNat_of_lt' small, sources.2.2⟩, rfl⟩

/-- Appending an event fails and changes nothing, or it appends the next event. -/
theorem pushEvent_cases {kind : HolodeckEventKind} {actor : Option String} {text : String}
    {refs : List String} {answer : Except HolodeckError HolodeckEvent} {after : HolodeckSandbox}
    (ran : (pushEvent primitives kind actor text refs).run sandbox = (answer, after)) :
    (∃ error, sandbox.nextEvent primitives kind actor text refs = .error error ∧
      answer = .error error ∧ after = sandbox) ∨
      ∃ event, sandbox.nextEvent primitives kind actor text refs = .ok event ∧
        answer = .ok event ∧ after = sandbox.withEvent event := by
  rcases Effect.run_read_cases ran with ⟨error, refused, rfl, rfl⟩ | ⟨event, next, ran⟩
  · exact .inl ⟨error, refused, rfl, rfl⟩
  · obtain ⟨rfl, rfl⟩ := Prod.mk.inj ran
    exact .inr ⟨event, next, rfl, rfl⟩

/-- Appending appends the next event. -/
theorem run_pushEvent {kind : HolodeckEventKind} {actor : Option String} {text : String}
    {refs : List String} {event : HolodeckEvent}
    (next : sandbox.nextEvent primitives kind actor text refs = .ok event) :
    (pushEvent primitives kind actor text refs).run sandbox =
      (.ok event, sandbox.withEvent event) := by
  simp only [pushEvent, Effect.run_read_bind, next]
  rfl

/-- Appending that fails changes nothing. -/
theorem pushEvent_error {kind : HolodeckEventKind} {actor : Option String} {text : String}
    {refs : List String} {error : HolodeckError} {after : HolodeckSandbox}
    (ran : (pushEvent primitives kind actor text refs).run sandbox = (.error error, after)) :
    sandbox.nextEvent primitives kind actor text refs = .error error ∧ after = sandbox := by
  rcases pushEvent_cases ran with ⟨_, refused, same, unchanged⟩ | ⟨_, -, same, -⟩
  · cases same
    exact ⟨refused, unchanged⟩
  · cases same

/-- Appending that succeeds appends the next event. -/
theorem pushEvent_ok {kind : HolodeckEventKind} {actor : Option String} {text : String}
    {refs : List String} {event : HolodeckEvent} {after : HolodeckSandbox}
    (ran : (pushEvent primitives kind actor text refs).run sandbox = (.ok event, after)) :
    sandbox.nextEvent primitives kind actor text refs = .ok event ∧
      after = sandbox.withEvent event := by
  rcases pushEvent_cases ran with ⟨_, -, same, -⟩ | ⟨_, next, same, appended⟩
  · cases same
  · cases same
    exact ⟨next, appended⟩

/-! ## Operations -/

/-- A synthetic action fails and changes nothing, or the program runs and its event is
appended. -/
theorem recordSynthetic_cases {kind : HolodeckEventKind} {actor : Option String} {text : String}
    {refs : List String} {answer : Except HolodeckError HolodeckDecision}
    {after : HolodeckSandbox}
    (ran : (recordSynthetic primitives kind actor text refs).run sandbox = (answer, after)) :
    (∃ error, answer = .error error ∧ after = sandbox) ∨
      ∃ event, sandbox.state = .running ∧
        sandbox.nextEvent primitives kind actor text refs = .ok event ∧
        answer = .ok (.recorded event) ∧ after = sandbox.withEvent event := by
  rcases Effect.run_read_cases ran with ⟨error, -, rfl, rfl⟩ | ⟨_, running, ran⟩
  · exact .inl ⟨error, rfl, rfl⟩
  rcases Effect.run_read_cases ran with ⟨error, -, rfl, rfl⟩ | ⟨-, -, ran⟩
  · exact .inl ⟨error, rfl, rfl⟩
  rcases Effect.run_check_cases ran with ⟨error, -, rfl, rfl⟩ | ⟨-, -, ran⟩
  · exact .inl ⟨error, rfl, rfl⟩
  rcases Effect.run_read_cases ran with ⟨error, -, rfl, rfl⟩ | ⟨-, -, ran⟩
  · exact .inl ⟨error, rfl, rfl⟩
  rcases Effect.run_bind_cases ran with ⟨error, pushed, rfl⟩ | ⟨event, middle, pushed, ran⟩
  · obtain ⟨-, rfl⟩ := pushEvent_error pushed
    exact .inl ⟨error, rfl, rfl⟩
  · obtain ⟨next, rfl⟩ := pushEvent_ok pushed
    obtain ⟨rfl, rfl⟩ := Prod.mk.inj ran
    exact .inr ⟨event, (ensure_ok_iff _ _ _).mp running, next, rfl, rfl⟩

/-- A synthetic action of a known actor whose event can be appended is recorded. -/
theorem run_recordSynthetic {kind : HolodeckEventKind} {actor : Option String} {text : String}
    {refs : List String} {event : HolodeckEvent} (running : sandbox.state = .running)
    (member : validateSyntheticActor actor sandbox.plan = .ok ())
    (next : sandbox.nextEvent primitives kind actor text refs = .ok event) :
    (recordSynthetic primitives kind actor text refs).run sandbox =
      (.ok (.recorded event), sandbox.withEvent event) := by
  obtain ⟨-, valid, sources, -⟩ := (nextEvent_ok_iff ..).mp next
  have runs : requireRunning sandbox = .ok () := ensure_pos running _
  simp only [recordSynthetic, Effect.run_read_bind_ok_iff, Effect.run_check_bind_ok_iff]
  refine ⟨(), runs, (), member, (), valid, (), sources, ?_⟩
  exact (Effect.run_bind_ok_iff ..).mpr ⟨event, _, run_pushEvent next, rfl⟩

/-- An attempt is refused and changes nothing, because the program has ended or because the actor
is not one of its entities. Otherwise the program is frozen, whether or not that is recorded. -/
theorem attemptBoundaryEffect_cases {actor : Option String} {effect : HolodeckBoundaryEffect}
    {answer : Except HolodeckError HolodeckDecision} {after : HolodeckSandbox}
    (ran : (attemptBoundaryEffect primitives actor effect).run sandbox = (answer, after)) :
    (∃ error, answer = .error error ∧ after = sandbox ∧
      (sandbox.state = .ended ∨ validateSyntheticActor actor sandbox.plan = .error error)) ∨
    (sandbox.state ≠ .ended ∧ validateSyntheticActor actor sandbox.plan = .ok () ∧
      ((∃ error, answer = .error error ∧ after = sandbox.withState .frozen) ∨
        ∃ event, sandbox.nextEvent primitives .safetyTrip actor
            ("blocked_boundary_effect:" ++ effect.code) [] = .ok event ∧
          answer = .ok (.blocked event) ∧
          after = (sandbox.withState .frozen).withEvent event)) := by
  rcases Effect.run_read_cases ran with ⟨error, past, rfl, rfl⟩ | ⟨_, goes, ran⟩
  · have ended := ((ensure_error_iff _ _ _).mp past).1
    exact .inl ⟨error, rfl, rfl, .inl (not_not.mp ended)⟩
  rcases Effect.run_read_cases ran with ⟨error, stranger, rfl, rfl⟩ | ⟨_, member, ran⟩
  · exact .inl ⟨error, rfl, rfl, .inr stranger⟩
  rw [Effect.run_modify_bind] at ran
  refine .inr ⟨(ensure_ok_iff _ _ _).mp goes, member, ?_⟩
  rcases Effect.run_bind_cases ran with ⟨error, pushed, rfl⟩ | ⟨event, middle, pushed, ran⟩
  · obtain ⟨-, rfl⟩ := pushEvent_error pushed
    exact .inl ⟨error, rfl, rfl⟩
  · obtain ⟨next, rfl⟩ := pushEvent_ok pushed
    obtain ⟨rfl, rfl⟩ := Prod.mk.inj ran
    exact .inr ⟨event, next, rfl, rfl⟩

/-- Freezing is refused and changes nothing, because the program does not run or its event is
refused, or the program runs, an event is appended and the program is frozen. -/
theorem freeze_cases {answer : Except HolodeckError HolodeckEvent} {after : HolodeckSandbox}
    (ran : (freeze primitives).run sandbox = (answer, after)) :
    (∃ error, answer = .error error ∧ after = sandbox ∧ (sandbox.state ≠ .running ∨
      sandbox.nextEvent primitives .operatorFreeze none "operator freeze" [] = .error error)) ∨
      ∃ event, sandbox.state = .running ∧
        sandbox.nextEvent primitives .operatorFreeze none "operator freeze" [] = .ok event ∧
        answer = .ok event ∧ after = (sandbox.withEvent event).withState .frozen := by
  rcases Effect.run_read_cases ran with ⟨error, past, rfl, rfl⟩ | ⟨_, goes, ran⟩
  · have ended := not_not.mp ((ensure_error_iff _ _ _).mp past).1
    exact .inl ⟨error, rfl, rfl, .inl (by rw [ended]; decide)⟩
  rcases Effect.run_read_cases ran with ⟨error, past, rfl, rfl⟩ | ⟨_, thawed, ran⟩
  · have frozen := not_not.mp ((ensure_error_iff _ _ _).mp past).1
    exact .inl ⟨error, rfl, rfl, .inl (by rw [frozen]; decide)⟩
  rcases Effect.run_bind_cases ran with ⟨error, pushed, rfl⟩ | ⟨event, middle, pushed, ran⟩
  · obtain ⟨refused, rfl⟩ := pushEvent_error pushed
    exact .inl ⟨error, rfl, rfl, .inr refused⟩
  · obtain ⟨next, rfl⟩ := pushEvent_ok pushed
    obtain ⟨rfl, rfl⟩ := Prod.mk.inj ran
    have running : sandbox.state = .running := by
      rw [ensure_ok_iff] at goes thawed
      cases state : sandbox.state with
      | running => rfl
      | frozen => exact absurd state thawed
      | ended => exact absurd state goes
    exact .inr ⟨event, running, next, rfl, rfl⟩

/-- Resuming is refused and changes nothing, or the program is frozen, an event is appended and
the program runs. -/
theorem resume_cases {answer : Except HolodeckError HolodeckEvent} {after : HolodeckSandbox}
    (ran : (resume primitives).run sandbox = (answer, after)) :
    (∃ error, answer = .error error ∧ after = sandbox) ∨
      ∃ event, sandbox.state = .frozen ∧
        sandbox.nextEvent primitives .operatorResume none "operator resume" [] = .ok event ∧
        answer = .ok event ∧ after = (sandbox.withEvent event).withState .running := by
  rcases Effect.run_read_cases ran with ⟨error, -, rfl, rfl⟩ | ⟨_, frozen, ran⟩
  · exact .inl ⟨error, rfl, rfl⟩
  rcases Effect.run_bind_cases ran with ⟨error, pushed, rfl⟩ | ⟨event, middle, pushed, ran⟩
  · obtain ⟨-, rfl⟩ := pushEvent_error pushed
    exact .inl ⟨error, rfl, rfl⟩
  · obtain ⟨next, rfl⟩ := pushEvent_ok pushed
    obtain ⟨rfl, rfl⟩ := Prod.mk.inj ran
    exact .inr ⟨event, (ensure_ok_iff _ _ _).mp frozen, next, rfl, rfl⟩

/-- Closing leaves a program that has ended, ends one whose ledger is full, appends the last event
of one whose ledger has room, or fails there and changes nothing. -/
theorem close_cases {reason : String} {answer : Except HolodeckError PUnit}
    {after : HolodeckSandbox} (ran : (close primitives sandbox reason).run sandbox =
      (answer, after)) :
    (sandbox.state = .ended ∧ answer = .ok ⟨⟩ ∧ after = sandbox) ∨
    (sandbox.state ≠ .ended ∧ ¬sandbox.events.length < sandbox.program.maxEvents.toNat ∧
      answer = .ok ⟨⟩ ∧ after = sandbox.withState .ended) ∨
    (sandbox.state ≠ .ended ∧ sandbox.events.length < sandbox.program.maxEvents.toNat ∧
      ((∃ error, sandbox.nextEvent primitives .programEnd none reason [] = .error error ∧
        answer = .error error ∧ after = sandbox) ∨
      ∃ event, sandbox.nextEvent primitives .programEnd none reason [] = .ok event ∧
        answer = .ok ⟨⟩ ∧ after = (sandbox.withEvent event).withState .ended)) := by
  unfold close at ran
  by_cases ended : sandbox.state = .ended
  · rw [if_neg (not_not.mpr ended)] at ran
    obtain ⟨rfl, rfl⟩ := Prod.mk.inj ran
    exact .inl ⟨ended, rfl, rfl⟩
  rw [if_pos ended] at ran
  by_cases room : sandbox.events.length < sandbox.program.maxEvents.toNat
  · refine .inr (.inr ⟨ended, room, ?_⟩)
    rw [if_pos room] at ran
    rcases Effect.run_bind_cases ran with ⟨error, pushed, rfl⟩ | ⟨event, middle, pushed, ran⟩
    · rcases pushEvent_cases pushed with ⟨_, refused, same, rfl⟩ | ⟨_, -, same, -⟩
      · cases same
        exact .inl ⟨error, refused, rfl, rfl⟩
      · cases same
    · obtain ⟨next, rfl⟩ := pushEvent_ok pushed
      obtain ⟨rfl, rfl⟩ := Prod.mk.inj ran
      exact .inr ⟨event, next, rfl, rfl⟩
  · rw [if_neg room] at ran
    obtain ⟨rfl, rfl⟩ := Prod.mk.inj ran
    exact .inr (.inl ⟨ended, room, rfl, rfl⟩)

variable (primitives) in
/-- A ledger of few events has a receipt. -/
theorem receipt_total (few : sandbox.events.length < 2 ^ 32) :
    ∃ receipt, sandbox.receipt primitives = .ok receipt := by
  simp only [HolodeckSandbox.receipt, ensure_pos few, bind_ok]
  exact ⟨_, rfl⟩

/-- Ending a program checks the reason, closes the program and answers the receipt. -/
theorem endProgram_cases {reason : String} {answer : Except HolodeckError HolodeckReceipt}
    {after : HolodeckSandbox} (ran : (endProgram primitives reason).run sandbox =
      (answer, after)) :
    (∃ error, validateText reason = .error error ∧ answer = .error error ∧ after = sandbox) ∨
    (validateText reason = .ok () ∧
      ((∃ error, (close primitives sandbox reason).run sandbox = (.error error, after) ∧
        answer = .error error) ∨
      ((close primitives sandbox reason).run sandbox = (.ok ⟨⟩, after) ∧
        answer = after.receipt primitives))) := by
  rcases Effect.run_check_cases ran with ⟨error, invalid, rfl, rfl⟩ | ⟨_, valid, ran⟩
  · exact .inl ⟨error, invalid, rfl, rfl⟩
  refine .inr ⟨valid, ?_⟩
  rcases Effect.run_read_cases ran with ⟨error, same, -⟩ | ⟨_, same, ran⟩
  · cases same
  cases same
  rcases Effect.run_bind_cases ran with ⟨error, closed, rfl⟩ | ⟨_, middle, closed, ran⟩
  · exact .inl ⟨error, closed, rfl⟩
  · obtain ⟨rfl, rfl⟩ := Prod.mk.inj ran
    exact .inr ⟨closed, rfl⟩

/-! ## Steps -/

variable (primitives) in
/-- What a step can do. -/
structure Stepped (before : HolodeckSandbox) (call : Call) (answer : Answer)
    (after : HolodeckSandbox) : Prop where
  /-- The program stays. -/
  program : after.program = before.program
  /-- The world stays. -/
  plan : after.plan = before.plan
  /-- The ledger stays, or a call that succeeds appends one entry, which is synthetic only while
  the program runs. -/
  ledger : after.events = before.events ∨ ∃ event, Entry before event ∧
    after.events = before.events ++ [event] ∧ (∃ reply, answer = .ok reply) ∧
      (Synthetic event.kind → before.state = .running)
  /-- A program that has ended stays as it is. -/
  ended : before.state = .ended → after = before
  /-- Only a successful resumption lets a frozen program run. -/
  resumed : before.state = .frozen → after.state = .running → call = .resume ∧
    ∃ reply, answer = .ok reply
  /-- A receipt is that of the program, which has ended. -/
  closed : ∀ receipt, answer = .ok (.receipt receipt) →
    after.state = .ended ∧ after.receipt primitives = .ok receipt

/-- A refused call changes nothing. -/
theorem stepped_refused (call : Call) (error : HolodeckError) :
    Stepped primitives sandbox call (.error error) sandbox where
  program := rfl
  plan := rfl
  ledger := .inl rfl
  ended := fun _ => rfl
  resumed := fun frozen running => by rw [frozen] at running; cases running
  closed := fun _ same => by cases same

/-- A synthetic action is a step. -/
theorem recordSynthetic_stepped {kind : HolodeckEventKind} {actor : Option String}
    {text : String} {refs : List String} (call : Call) {answer : Except HolodeckError HolodeckDecision}
    {after : HolodeckSandbox}
    (ran : (recordSynthetic primitives kind actor text refs).run sandbox = (answer, after)) :
    Stepped primitives sandbox call (answer.map .decision) after := by
  rcases recordSynthetic_cases ran with ⟨error, rfl, rfl⟩ | ⟨event, running, next, rfl, rfl⟩
  · exact stepped_refused call error
  · obtain ⟨entry, -⟩ := entry_of_next next
    exact
      { program := rfl
        plan := rfl
        ledger := .inr ⟨event, entry, rfl, ⟨_, rfl⟩, fun _ => running⟩
        ended := fun ended => by rw [running] at ended; cases ended
        resumed := fun frozen _ => by rw [running] at frozen; cases frozen
        closed := fun _ same => by cases same }

/-- An attempt is a step. -/
theorem attemptBoundaryEffect_stepped {actor : Option String} {effect : HolodeckBoundaryEffect}
    (call : Call) {answer : Except HolodeckError HolodeckDecision} {after : HolodeckSandbox}
    (ran : (attemptBoundaryEffect primitives actor effect).run sandbox = (answer, after)) :
    Stepped primitives sandbox call (answer.map .decision) after := by
  rcases attemptBoundaryEffect_cases ran with
    ⟨error, rfl, rfl, -⟩ | ⟨goes, -, ⟨error, rfl, rfl⟩ | ⟨event, next, rfl, rfl⟩⟩
  · exact stepped_refused call error
  · exact
      { program := rfl
        plan := rfl
        ledger := .inl rfl
        ended := fun ended => absurd ended goes
        resumed := fun _ running => by cases running
        closed := fun _ same => by cases same }
  · obtain ⟨entry, kind⟩ := entry_of_next next
    exact
      { program := rfl
        plan := rfl
        ledger := .inr ⟨event, entry, rfl, ⟨_, rfl⟩, fun synthetic => by
          rcases synthetic with same | same <;> rw [kind] at same <;> cases same⟩
        ended := fun ended => absurd ended goes
        resumed := fun _ running => by cases running
        closed := fun _ same => by cases same }

/-- Freezing is a step. -/
theorem freeze_stepped (call : Call) {answer : Except HolodeckError HolodeckEvent}
    {after : HolodeckSandbox} (ran : (freeze primitives).run sandbox = (answer, after)) :
    Stepped primitives sandbox call (answer.map .event) after := by
  rcases freeze_cases ran with ⟨error, rfl, rfl, -⟩ | ⟨event, running, next, rfl, rfl⟩
  · exact stepped_refused call error
  · obtain ⟨entry, -⟩ := entry_of_next next
    exact
      { program := rfl
        plan := rfl
        ledger := .inr ⟨event, entry, rfl, ⟨_, rfl⟩, fun _ => running⟩
        ended := fun ended => by rw [running] at ended; cases ended
        resumed := fun frozen _ => by rw [running] at frozen; cases frozen
        closed := fun _ same => by cases same }

/-- Resuming is a step. -/
theorem resume_stepped {answer : Except HolodeckError HolodeckEvent} {after : HolodeckSandbox}
    (ran : (resume primitives).run sandbox = (answer, after)) :
    Stepped primitives sandbox .resume (answer.map .event) after := by
  rcases resume_cases ran with ⟨error, rfl, rfl⟩ | ⟨event, frozen, next, rfl, rfl⟩
  · exact stepped_refused .resume error
  · obtain ⟨entry, kind⟩ := entry_of_next next
    exact
      { program := rfl
        plan := rfl
        ledger := .inr ⟨event, entry, rfl, ⟨_, rfl⟩, fun synthetic => by
          rcases synthetic with same | same <;> rw [kind] at same <;> cases same⟩
        ended := fun ended => by rw [frozen] at ended; cases ended
        resumed := fun _ _ => ⟨rfl, _, rfl⟩
        closed := fun _ same => by cases same }

/-- An answer is a receipt when what was returned is. -/
theorem map_receipt {answer : Except HolodeckError HolodeckReceipt} {receipt : HolodeckReceipt}
    (same : answer.map Reply.receipt = .ok (.receipt receipt)) : answer = .ok receipt := by
  obtain ⟨found, rfl, inner⟩ := (map_ok_iff ..).mp same
  cases inner
  rfl

/-- Ending is a step. -/
theorem endProgram_stepped {reason : String} (call : Call)
    {answer : Except HolodeckError HolodeckReceipt} {after : HolodeckSandbox}
    (ran : (endProgram primitives reason).run sandbox = (answer, after)) :
    Stepped primitives sandbox call (answer.map .receipt) after := by
  rcases endProgram_cases ran with
    ⟨error, -, rfl, rfl⟩ | ⟨-, ⟨error, closing, rfl⟩ | ⟨closing, rfl⟩⟩
  · exact stepped_refused call error
  · rcases close_cases closing with
      ⟨-, same, -⟩ | ⟨-, -, same, -⟩ | ⟨-, -, ⟨_, -, same, rfl⟩ | ⟨_, -, same, -⟩⟩
    · cases same
    · cases same
    · exact stepped_refused call error
    · cases same
  · rcases close_cases closing with ⟨ended, -, rfl⟩ | ⟨goes, -, -, rfl⟩ |
      ⟨goes, room, ⟨_, -, same, -⟩ | ⟨event, next, -, rfl⟩⟩
    · exact
        { program := rfl
          plan := rfl
          ledger := .inl rfl
          ended := fun _ => rfl
          resumed := fun frozen _ => by rw [ended] at frozen; cases frozen
          closed := fun _ same => ⟨ended, map_receipt same⟩ }
    · exact
        { program := rfl
          plan := rfl
          ledger := .inl rfl
          ended := fun ended => absurd ended goes
          resumed := fun _ running => by cases running
          closed := fun _ same => ⟨rfl, map_receipt same⟩ }
    · cases same
    · obtain ⟨entry, kind⟩ := entry_of_next next
      have few : ((sandbox.withEvent event).withState .ended).events.length < 2 ^ 32 := by
        have := sandbox.program.maxEvents.toNat_lt
        have longer : ((sandbox.withEvent event).withState .ended).events.length =
            sandbox.events.length + 1 := List.length_append
        omega
      obtain ⟨receipt, total⟩ := receipt_total primitives few
      exact
        { program := rfl
          plan := rfl
          ledger := .inr ⟨event, entry, rfl, ⟨.receipt receipt, by rw [total]; rfl⟩,
            fun synthetic => by
              rcases synthetic with same | same <;> rw [kind] at same <;> cases same⟩
          ended := fun ended => absurd ended goes
          resumed := fun _ running => by cases running
          closed := fun _ same => ⟨rfl, map_receipt same⟩ }

/-- Every step is one. -/
theorem stepped {call : Call} {answer : Answer} {after : HolodeckSandbox}
    (step : Step primitives sandbox (call, answer) after) :
    Stepped primitives sandbox call answer after := by
  cases call <;> obtain ⟨inner, ran, rfl⟩ := Effect.run_of_run_map step
  case narrative actor text refs => exact recordSynthetic_stepped _ ran
  case transition actor label refs => exact recordSynthetic_stepped _ ran
  case attempt actor effect => exact attemptBoundaryEffect_stepped _ ran
  case freeze => exact freeze_stepped _ ran
  case resume => exact resume_stepped ran
  case endProgram reason => exact endProgram_stepped _ ran

end QsolFed.HolodeckSandbox
