import QsolFed.Library.Effect
import QsolFed.Library.Run

/-!
# Values kept in memory and in a file

A value is kept in memory and in a file that is replaced as a whole: a temporary file is written,
forced out and renamed over the file, and at last the directory is forced out. Each of these steps
can fail. A change is computed first, then the file is replaced, and only then the value in memory
changes, so a failure before the renaming leaves both as they were. A failure after it does not:
the file has changed by then, and the value in memory has not.
-/
universe u v w

/-- A step of the replacement of a file. -/
inductive ReplaceStep where
  /-- An old temporary file is removed. -/
  | remove
  /-- A new temporary file is opened. -/
  | openTemporary
  /-- It is written. -/
  | write
  /-- It is flushed. -/
  | flush
  /-- It is forced out. -/
  | sync
  /-- It is renamed over the file. -/
  | rename
  /-- The directory is opened. -/
  | openParent
  /-- The directory is forced out. -/
  | syncParent
  deriving DecidableEq, Repr

/-- What goes wrong while a file is replaced. -/
structure ReplaceFaults where
  /-- Whether a step fails. -/
  fails : ReplaceStep → Bool
  /-- What a failing write leaves in the temporary file. -/
  written : ByteArray

/-- Nothing goes wrong. -/
def ReplaceFaults.none : ReplaceFaults := ⟨fun _ => false, .empty⟩

/-- A file and its temporary file. -/
structure FileSlot where
  /-- The contents of the file, if there is one. -/
  file : Option ByteArray
  /-- The contents of the temporary file, if there is one. -/
  temporary : Option ByteArray

namespace FileSlot

open Checked

variable {ε : Type v} (refuse : ReplaceStep → ε) (faults : ReplaceFaults)

/-- A step that fails when it is told to. -/
def attempt (step : ReplaceStep) : Effect FileSlot ε Unit :=
  .check (ensure (faults.fails step = false) (refuse step))

/-- Replace a file. That an old temporary file cannot be removed is only noticed when the new one
cannot be opened. -/
def replace (bytes : ByteArray) : Effect FileSlot ε Unit := do
  Effect.modify fun slot =>
    if faults.fails .remove then slot else { slot with temporary := none }
  Effect.read fun slot =>
    ensure (slot.temporary = none ∧ faults.fails .openTemporary = false) (refuse .openTemporary)
  Effect.modify fun slot =>
    { slot with temporary := some (if faults.fails .write then faults.written else bytes) }
  attempt refuse faults .write
  attempt refuse faults .flush
  attempt refuse faults .sync
  attempt refuse faults .rename
  Effect.modify fun slot => ⟨slot.temporary, none⟩
  attempt refuse faults .openParent
  attempt refuse faults .syncParent
  pure ()

/-- The file gets renamed. -/
structure Renames (faults : ReplaceFaults) (slot : FileSlot) : Prop where
  /-- An old temporary file is removed. -/
  remove : faults.fails .remove = true → slot.temporary = none
  /-- The steps up to the renaming succeed. -/
  steps : ∀ step ∈ [ReplaceStep.openTemporary, .write, .flush, .sync, .rename],
    faults.fails step = false

/-- The directory is forced out. -/
def Settles (faults : ReplaceFaults) : Prop :=
  faults.fails .openParent = false ∧ faults.fails .syncParent = false

variable {refuse faults} {slot after : FileSlot} {bytes : ByteArray} {answer : Except ε Unit}

/-- What follows a step is reached when the step succeeds. -/
theorem attempt_cases {step : ReplaceStep} {rest : Unit → Effect FileSlot ε Unit}
    (ran : (attempt refuse faults step >>= rest).run slot = (answer, after)) :
    (faults.fails step = true ∧ (∃ error, answer = .error error) ∧ after = slot) ∨
      (faults.fails step = false ∧ (rest ()).run slot = (answer, after)) := by
  rcases Effect.run_check_cases ran with ⟨error, refused, rfl, rfl⟩ | ⟨_, passed, ran⟩
  · have failing := ((ensure_error_iff _ _ _).mp refused).1
    exact .inl ⟨Bool.not_eq_false _ ▸ failing, ⟨error, rfl⟩, rfl⟩
  · exact .inr ⟨(ensure_ok_iff _ _ _).mp passed, ran⟩

/-- A replacement succeeds and leaves the new file, fails before the renaming and leaves the old
file, or fails after it and leaves the new file. -/
theorem replace_cases (ran : (replace refuse faults bytes).run slot = (answer, after)) :
    (¬Renames faults slot ∧ (∃ error, answer = .error error) ∧ after.file = slot.file) ∨
    (Renames faults slot ∧ ¬Settles faults ∧ (∃ error, answer = .error error) ∧
      after.file = some bytes) ∨
    (Renames faults slot ∧ Settles faults ∧ answer = .ok ⟨⟩ ∧ after.file = some bytes) := by
  have early : ∀ step ∈ [ReplaceStep.openTemporary, .write, .flush, .sync, .rename],
      faults.fails step = true → ¬Renames faults slot := by
    intro step member failing renames
    rw [renames.steps step member] at failing
    cases failing
  rw [replace, Effect.run_modify_bind] at ran
  rcases Effect.run_read_cases ran with ⟨error, refused, rfl, rfl⟩ | ⟨_, opened, ran⟩
  · refine .inl ⟨fun renames => ?_, ⟨_, rfl⟩, by split <;> rfl⟩
    have blocked := ((ensure_error_iff _ _ _).mp refused).1
    refine blocked ⟨?_, renames.steps _ (by simp)⟩
    split
    · next failing => exact renames.remove failing
    · rfl
  obtain ⟨clear, open_⟩ := (ensure_ok_iff _ _ _).mp opened
  have removed : faults.fails .remove = true → slot.temporary = none := by
    intro failing
    rwa [if_pos failing] at clear
  have file : (if faults.fails .remove then slot else { slot with temporary := none }).file =
      slot.file := by split <;> rfl
  rw [Effect.run_modify_bind] at ran
  rcases attempt_cases ran with ⟨failing, refused, rfl⟩ | ⟨written, ran⟩
  · exact .inl ⟨early _ (by simp) failing, refused, file⟩
  rcases attempt_cases ran with ⟨failing, refused, rfl⟩ | ⟨flushed, ran⟩
  · exact .inl ⟨early _ (by simp) failing, refused, file⟩
  rcases attempt_cases ran with ⟨failing, refused, rfl⟩ | ⟨synced, ran⟩
  · exact .inl ⟨early _ (by simp) failing, refused, file⟩
  rcases attempt_cases ran with ⟨failing, refused, rfl⟩ | ⟨renamed, ran⟩
  · exact .inl ⟨early _ (by simp) failing, refused, file⟩
  have renames : Renames faults slot := by
    refine ⟨removed, fun step member => ?_⟩
    simp only [List.mem_cons, List.not_mem_nil, or_false] at member
    rcases member with rfl | rfl | rfl | rfl | rfl <;> assumption
  rw [Effect.run_modify_bind] at ran
  have new : (if faults.fails .write then faults.written else bytes) = bytes := by
    rw [written]
    rfl
  rw [new] at ran
  rcases attempt_cases ran with ⟨failing, refused, rfl⟩ | ⟨parent, ran⟩
  · refine .inr (.inl ⟨renames, fun settles => ?_, refused, rfl⟩)
    rw [settles.1] at failing
    cases failing
  rcases attempt_cases ran with ⟨failing, refused, rfl⟩ | ⟨forced, ran⟩
  · refine .inr (.inl ⟨renames, fun settles => ?_, refused, rfl⟩)
    rw [settles.2] at failing
    cases failing
  obtain ⟨rfl, rfl⟩ := Prod.mk.inj ran
  exact .inr (.inr ⟨renames, ⟨parent, forced⟩, rfl, rfl⟩)

end FileSlot

/-- A value in memory and its file. -/
structure Stored (α : Type) where
  /-- The value in memory. -/
  live : α
  /-- Its file. -/
  slot : FileSlot

/-- A value in memory with another file. -/
def Stored.withSlot {α : Type} (slot : FileSlot) (stored : Stored α) : Stored α :=
  { stored with slot := slot }

/-- How values are kept: what a file is opened as, and what a request makes of a value, with the
bytes of the new file. -/
structure Persistence (α : Type) (κ : Type v) (ε : Type) where
  /-- The value that a file is opened as. -/
  opens : Option ByteArray → Except ε α
  /-- The new file and the new value. -/
  stage : κ → α → Except ε (ByteArray × α)
  /-- The refusal of a step of a replacement. -/
  refuse : ReplaceStep → ε

namespace Persistence

open Checked

variable {α ε : Type} {κ : Type v} (kept : Persistence α κ ε)

/-- A request is staged, the file is replaced, and then the value in memory. -/
def update (request : κ) (faults : ReplaceFaults) : Effect (Stored α) ε Unit := do
  let (bytes, next) ← Effect.read fun stored => kept.stage request stored.live
  (FileSlot.replace kept.refuse faults bytes).within Stored.slot Stored.withSlot id
  Effect.modify fun stored => { stored with live := next }

/-- What happens to a stored value. -/
inductive Event (κ : Type v) (ε : Type) where
  /-- A request, what goes wrong with the file, and the answer. -/
  | requested (request : κ) (faults : ReplaceFaults) (answer : Except ε Unit)
  /-- The file is opened again. -/
  | reopened

/-- One thing happens to a stored value. -/
def Step (before : Stored α) : Event κ ε → Stored α → Prop
  | .requested request faults answer, after =>
    (kept.update request faults).run before = (answer, after)
  | .reopened, after => kept.opens before.slot.file = .ok after.live ∧ after.slot = before.slot

/-- A file is opened as the value in memory. -/
def Agrees (stored : Stored α) : Prop := kept.opens stored.slot.file = .ok stored.live

/-- The laws of a persistence with a property of its values. -/
structure Lawful (valid : α → Prop) : Prop where
  /-- What is opened is valid. -/
  opened : ∀ file value, kept.opens file = .ok value → valid value
  /-- What is staged is valid, and its file is opened as it. -/
  staged : ∀ request value bytes next, valid value →
    kept.stage request value = .ok (bytes, next) →
      valid next ∧ kept.opens (some bytes) = .ok next

/-- What happens leaves the file renamed but the directory not forced out, and the new value is
another one. -/
def Torn (before : Stored α) : Event κ ε → Prop
  | .requested request faults _ => FileSlot.Renames faults before.slot ∧
    ¬FileSlot.Settles faults ∧ ∃ bytes next,
      kept.stage request before.live = .ok (bytes, next) ∧ next ≠ before.live
  | .reopened => False

/-- A request that is refused is seen neither in memory nor after opening the file, one that
succeeds is seen in both, and opening the file changes nothing. -/
def Faithful (before : Stored α) (event : Event κ ε) (after : Stored α) : Prop :=
  match event with
  | .requested _ _ (.error _) =>
    after.live = before.live ∧ kept.opens after.slot.file = .ok before.live
  | .requested _ _ (.ok _) => kept.opens after.slot.file = .ok after.live
  | .reopened => after.live = before.live

/-- Everything that happens in a run is faithful. -/
def FaithfulRun (start : Stored α) (events : List (Event κ ε)) : Prop :=
  ∀ first event rest before after, events = first ++ event :: rest →
    Run kept.Step start first before → kept.Step before event after →
    kept.Faithful before event after

/-- Nothing that happens in a run is torn. -/
def NeverTorn (start : Stored α) (events : List (Event κ ε)) : Prop :=
  ∀ first event rest before, events = first ++ event :: rest →
    Run kept.Step start first before → ¬kept.Torn before event

variable {kept} {before after : Stored α}

/-- A request is refused before the file is replaced, or while it is, or it succeeds. -/
theorem update_cases {request : κ} {faults : ReplaceFaults} {answer : Except ε Unit}
    (ran : (kept.update request faults).run before = (answer, after)) :
    (∃ error, kept.stage request before.live = .error error ∧ answer = .error error ∧
      after = before) ∨
    ∃ bytes next, kept.stage request before.live = .ok (bytes, next) ∧
      ((¬FileSlot.Renames faults before.slot ∧ (∃ error, answer = .error error) ∧
        after.live = before.live ∧ after.slot.file = before.slot.file) ∨
      (FileSlot.Renames faults before.slot ∧ ¬FileSlot.Settles faults ∧
        (∃ error, answer = .error error) ∧ after.live = before.live ∧
        after.slot.file = some bytes) ∨
      (FileSlot.Renames faults before.slot ∧ FileSlot.Settles faults ∧ answer = .ok () ∧
        after.live = next ∧ after.slot.file = some bytes)) := by
  have part : Effect.Part Stored.slot (Stored.withSlot (α := α)) :=
    ⟨fun _ _ => rfl, fun _ _ _ => rfl⟩
  rcases Effect.run_read_cases ran with ⟨error, refused, rfl, rfl⟩ | ⟨⟨bytes, next⟩, staged, ran⟩
  · exact .inl ⟨error, refused, rfl, rfl⟩
  refine .inr ⟨bytes, next, staged, ?_⟩
  rcases replaced : (FileSlot.replace kept.refuse faults bytes).run before.slot with
    ⟨result, slot⟩
  have inner := Effect.run_within part id (FileSlot.replace kept.refuse faults bytes)
    (show Stored.withSlot before.slot before = before from rfl)
  rw [replaced] at inner
  rcases Effect.run_bind_cases ran with ⟨error, failed, rfl⟩ | ⟨_, middle, passed, ran⟩
  · rw [inner] at failed
    obtain ⟨failed, rfl⟩ := Prod.mk.inj failed
    rcases FileSlot.replace_cases replaced with
      ⟨early, -, file⟩ | ⟨renames, open_, -, file⟩ | ⟨-, -, rfl, -⟩
    · exact .inl ⟨early, ⟨error, rfl⟩, rfl, file⟩
    · exact .inr (.inl ⟨renames, open_, ⟨error, rfl⟩, rfl, file⟩)
    · cases failed
  · rw [inner] at passed
    obtain ⟨passed, rfl⟩ := Prod.mk.inj passed
    obtain ⟨rfl, rfl⟩ := Prod.mk.inj ran
    rcases FileSlot.replace_cases replaced with
      ⟨-, ⟨_, rfl⟩, -⟩ | ⟨-, -, ⟨_, rfl⟩, -⟩ | ⟨renames, settles, -, file⟩
    · cases passed
    · cases passed
    · exact .inr (.inr ⟨renames, settles, rfl, rfl, file⟩)

variable {valid : α → Prop}

/-- What happens keeps the value in memory valid. -/
theorem Lawful.step (lawful : kept.Lawful valid) {event : Event κ ε} (holds : valid before.live)
    (step : kept.Step before event after) : valid after.live := by
  cases event with
  | reopened => exact lawful.opened _ _ step.1
  | requested request faults answer =>
    rcases update_cases step with ⟨_, -, -, rfl⟩ | ⟨bytes, next, staged, cases_⟩
    · exact holds
    · rcases cases_ with ⟨-, -, live, -⟩ | ⟨-, -, -, live, -⟩ | ⟨-, -, -, live, -⟩
      · rwa [live]
      · rwa [live]
      · rw [live]
        exact (lawful.staged request before.live bytes next holds staged).1

/-- When the file is opened as the value in memory, what happens is faithful exactly when it is not
torn, and then the file is still opened as the value in memory. -/
theorem Lawful.step_faithful_iff (lawful : kept.Lawful valid) {event : Event κ ε}
    (agrees : kept.Agrees before) (step : kept.Step before event after) :
    (kept.Faithful before event after ↔ ¬kept.Torn before event) ∧
      (kept.Faithful before event after → kept.Agrees after) := by
  have holds := lawful.opened _ _ agrees
  cases event with
  | reopened =>
    obtain ⟨opened, slot⟩ := step
    have same : after.live = before.live := by
      rw [Agrees, opened] at agrees
      exact Except.ok.inj agrees
    refine ⟨⟨fun _ torn => torn, fun _ => same⟩, fun _ => ?_⟩
    rw [Agrees, slot]
    exact opened
  | requested request faults answer =>
    rcases update_cases step with ⟨error, refused, rfl, rfl⟩ | ⟨bytes, next, staged, cases_⟩
    · refine ⟨⟨?_, fun _ => ⟨rfl, agrees⟩⟩, fun _ => agrees⟩
      rintro - ⟨-, -, bytes, next, staged, -⟩
      rw [refused] at staged
      cases staged
    · have reopens := (lawful.staged request before.live bytes next holds staged).2
      rcases cases_ with ⟨early, ⟨error, rfl⟩, live, file⟩ |
        ⟨renames, open_, ⟨error, rfl⟩, live, file⟩ | ⟨renames, settles, rfl, live, file⟩
      · have still : kept.Faithful before (.requested request faults (.error error)) after := by
          refine ⟨live, ?_⟩
          rw [file]
          exact agrees
        refine ⟨⟨fun _ torn => early torn.1, fun _ => still⟩, fun _ => ?_⟩
        rw [Agrees, file, live]
        exact agrees
      · have faithful : kept.Faithful before (.requested request faults (.error error)) after ↔
            next = before.live := by
          simp only [Faithful, live, true_and, file, reopens, Except.ok.injEq]
        have torn : kept.Torn before (.requested request faults (.error error)) ↔
            next ≠ before.live := by
          constructor
          · rintro ⟨-, -, _, _, other, changed⟩
            rw [staged] at other
            cases other
            exact changed
          · exact fun changed => ⟨renames, open_, bytes, next, staged, changed⟩
        refine ⟨by rw [faithful, torn, not_not], fun same => ?_⟩
        rw [Agrees, live, file, reopens, faithful.mp same]
      · have still : kept.Agrees after := by
          rw [Agrees, file, live]
          exact reopens
        exact ⟨⟨fun _ torn => torn.2.1 settles, fun _ => still⟩, fun _ => still⟩

/-- A request that can be staged and whose file is renamed leaves the new file. It succeeds exactly
when the directory is forced out, and otherwise the value in memory stays. -/
theorem update_renamed {request : κ} {faults : ReplaceFaults} {bytes : ByteArray} {next : α}
    (staged : kept.stage request before.live = .ok (bytes, next))
    (renames : FileSlot.Renames faults before.slot) : ∃ answer after,
      kept.Step before (.requested request faults answer) after ∧
      after.slot.file = some bytes ∧
      ((FileSlot.Settles faults ∧ answer = .ok () ∧ after.live = next) ∨
        (¬FileSlot.Settles faults ∧ (∃ error, answer = .error error) ∧
          after.live = before.live)) := by
  rcases ran : (kept.update request faults).run before with ⟨answer, after⟩
  refine ⟨answer, after, ran, ?_⟩
  rcases update_cases ran with ⟨error, refused, -⟩ | ⟨_, _, same, cases_⟩
  · rw [staged] at refused
    cases refused
  · rw [staged] at same
    cases same
    rcases cases_ with ⟨early, -⟩ | ⟨-, open_, refused, live, file⟩ |
      ⟨-, settles, accepted, live, file⟩
    · exact absurd renames early
    · exact ⟨file, .inr ⟨open_, refused, live⟩⟩
    · exact ⟨file, .inl ⟨settles, accepted, live⟩⟩

/-- A request succeeds exactly when it can be staged, its file is renamed and the directory is
forced out. Then the value in memory is the new one, and so is the file. -/
theorem update_ok_iff {request : κ} {faults : ReplaceFaults} {answer : Except ε Unit}
    (step : kept.Step before (.requested request faults answer) after) :
    (answer = .ok () ↔ (∃ bytes next, kept.stage request before.live = .ok (bytes, next)) ∧
      FileSlot.Renames faults before.slot ∧ FileSlot.Settles faults) ∧
    (answer = .ok () → ∃ bytes, kept.stage request before.live = .ok (bytes, after.live) ∧
      after.slot.file = some bytes) := by
  rcases update_cases step with ⟨error, refused, rfl, rfl⟩ | ⟨bytes, next, staged, cases_⟩
  · refine ⟨⟨fun same => (nomatch same), ?_⟩, fun same => (nomatch same)⟩
    rintro ⟨⟨_, _, staged⟩, -⟩
    rw [refused] at staged
    cases staged
  · rcases cases_ with ⟨early, ⟨_, rfl⟩, -⟩ | ⟨-, open_, ⟨_, rfl⟩, -⟩ |
      ⟨renames, settles, rfl, live, file⟩
    · exact ⟨⟨fun same => (nomatch same), fun whole => absurd whole.2.1 early⟩,
        fun same => (nomatch same)⟩
    · exact ⟨⟨fun same => (nomatch same), fun whole => absurd whole.2.2 open_⟩,
        fun same => (nomatch same)⟩
    · exact ⟨⟨fun _ => ⟨⟨bytes, next, staged⟩, renames, settles⟩, fun _ => rfl⟩,
        fun _ => ⟨bytes, live ▸ staged, file⟩⟩

/-- What happens determines what follows. -/
theorem step_functional (before : Stored α) (event : Event κ ε) (left right : Stored α)
    (one : kept.Step before event left) (two : kept.Step before event right) : left = right := by
  cases event with
  | reopened =>
    obtain ⟨oneLive, oneSlot⟩ := one
    obtain ⟨twoLive, twoSlot⟩ := two
    rw [oneLive] at twoLive
    cases left
    cases right
    cases Except.ok.inj twoLive
    cases oneSlot
    cases twoSlot
    rfl
  | requested request faults answer =>
    exact congrArg Prod.snd (one.symm.trans two)

/-- In a run that begins with a file that is opened as the value in memory, everything that happens
is faithful exactly when nothing that happens is torn. -/
theorem Lawful.faithful_run_iff (lawful : kept.Lawful valid) {start final : Stored α}
    (agrees : kept.Agrees start) {events : List (Event κ ε)}
    (run : Run kept.Step start events final) :
    kept.FaithfulRun start events ↔ kept.NeverTorn start events := by
  constructor
  · rintro faithful first event rest before rfl reached
    have here : kept.Agrees before := by
      refine reached.along kept.Agrees kept.Faithful agrees
        (fun _ _ _ holds step good => (lawful.step_faithful_iff holds step).2 good) ?_
      rintro earlier other later state next rfl
      exact faithful earlier other (later ++ event :: rest) state next (by simp)
    obtain ⟨middle, same, later⟩ := run.split
    obtain rfl := reached.unique step_functional same
    obtain ⟨after, step, -⟩ := later.head
    exact (lawful.step_faithful_iff here step).1.mp (faithful first event rest _ after rfl reached step)
  · rintro whole first event rest before after rfl reached step
    have here : kept.Agrees before := by
      refine reached.along kept.Agrees (fun before event _ => ¬kept.Torn before event) agrees
        (fun _ _ _ holds step good => (lawful.step_faithful_iff holds step).2
          ((lawful.step_faithful_iff holds step).1.mpr good)) ?_
      rintro earlier other later state next rfl reached -
      exact whole earlier other (later ++ event :: rest) state (by simp) reached
    exact (lawful.step_faithful_iff here step).1.mpr (whole first event rest before rfl reached)

/-- Values stay valid in every run. -/
theorem Lawful.valid_of_run (lawful : kept.Lawful valid) {start final : Stored α}
    (agrees : kept.Agrees start) {events : List (Event κ ε)}
    (run : Run kept.Step start events final) : valid final.live :=
  run.invariant (fun _ (stored : Stored α) => valid stored.live)
    (lawful.opened start.slot.file start.live agrees)
    fun _ _ _ _ _ holds step => lawful.step holds step

end Persistence
