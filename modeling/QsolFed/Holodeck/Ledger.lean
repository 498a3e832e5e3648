import QsolFed.Holodeck.Audit

/-!
# The ledger of a sandbox

Whatever is called, in whatever order and with whatever answers, the ledger only grows, its events
are numbered without gaps, it stays within the budget of the program, and it refers to source
objects of the program. While the program is frozen or has ended no synthetic event enters, and a
program that has ended stays as it is.
-/
namespace QsolFed.HolodeckSandbox

open Checked Holodeck

variable {primitives : Primitives} {program : HolodeckProgram}
  {started sandbox middle final : HolodeckSandbox}

/-- A ledger that is kept as it should be. -/
structure Kept (program : HolodeckProgram) (sandbox : HolodeckSandbox) : Prop where
  /-- The program is the one that was begun. -/
  begun : sandbox.program = program
  /-- Event `i` has the number `i + 1`. -/
  numbered : ∀ index (inside : index < sandbox.events.length),
    (sandbox.events[index]).sequence.toNat = index + 1
  /-- The budget is respected. -/
  within : sandbox.events.length ≤ program.maxEvents.toNat
  /-- The events refer to source objects of the program. -/
  sources : ∀ event ∈ sandbox.events, ∀ reference ∈ event.sourceRefs,
    reference ∈ program.source.objectRefs

/-- A ledger with one more entry is kept. -/
theorem Kept.appended {event : HolodeckEvent} (kept : Kept program sandbox)
    (entry : Entry sandbox event) : Kept program (sandbox.withEvent event) where
  begun := kept.begun
  numbered := by
    intro index inside
    simp only [withEvent_events] at inside ⊢
    rcases Nat.lt_or_ge index sandbox.events.length with earlier | last
    · rw [List.getElem_append_left earlier]
      exact kept.numbered index earlier
    · rw [List.length_append, List.length_singleton] at inside
      have here : index = sandbox.events.length := by omega
      subst here
      rw [List.getElem_concat_length rfl]
      exact entry.sequence
  within := by
    have room := entry.room
    rw [kept.begun] at room
    rw [withEvent_events, List.length_append, List.length_singleton]
    exact room
  sources := by
    intro other member
    rcases List.mem_append.mp member with earlier | last
    · exact kept.sources other earlier
    · rw [List.mem_singleton.mp last, ← kept.begun]
      exact entry.sources

/-- A sandbox with the same program and ledger is kept. -/
theorem Kept.congr {other : HolodeckSandbox} (kept : Kept program sandbox)
    (same : other.program = sandbox.program) (ledger : other.events = sandbox.events) :
    Kept program other where
  begun := same.trans kept.begun
  numbered := by
    intro index inside
    simp only [ledger] at inside ⊢
    exact kept.numbered index inside
  within := by
    rw [ledger]
    exact kept.within
  sources := by
    rw [ledger]
    exact kept.sources

/-- A step keeps the ledger. -/
theorem Kept.step {call : Call} {answer : Answer} (kept : Kept program sandbox)
    (stepped : Stepped primitives sandbox call answer final) : Kept program final := by
  rcases stepped.ledger with same | ⟨event, entry, appended, -⟩
  · exact kept.congr stepped.program same
  · exact (kept.appended entry).congr stepped.program appended

/-- A program begins with one event, and runs. -/
theorem start_ok (begun : start primitives program = .ok started) :
    ∃ plan event, compileWorldPlan primitives program = .ok plan ∧
      started = ⟨program, plan, [event], .running⟩ ∧
      Entry ⟨program, plan, [], .running⟩ event := by
  simp only [start, bind_ok_iff] at begun
  obtain ⟨plan, compiled, begun⟩ := begun
  split at begun
  · next event sandbox pushed =>
    obtain ⟨next, rfl⟩ := pushEvent_ok pushed
    cases begun
    exact ⟨plan, event, compiled, rfl, (entry_of_next next).1⟩
  · cases begun

/-- The ledger of a program that was begun is kept. -/
theorem kept_of_start (begun : start primitives program = .ok started) :
    Kept program started := by
  obtain ⟨plan, event, -, rfl, entry⟩ := start_ok begun
  have empty : Kept program ⟨program, plan, [], .running⟩ :=
    ⟨rfl, by simp, Nat.zero_le _, by simp⟩
  exact empty.appended entry

/-- The ledger is kept in every run. -/
theorem kept_of_run {events : List (Call × Answer)} (kept : Kept program started)
    (run : Run (Step primitives) started events final) : Kept program final := by
  refine run.invariant (fun _ sandbox => Kept program sandbox) kept ?_
  intro _ middle event final _ kept step
  exact kept.step (stepped step)

/-- The ledger only grows. -/
theorem grown_of_run {events : List (Call × Answer)}
    (run : Run (Step primitives) started events final) : started.events <+: final.events := by
  refine run.invariant (fun _ sandbox => started.events <+: sandbox.events) List.prefix_rfl ?_
  intro _ middle event final _ grown step
  rcases (stepped step).ledger with same | ⟨entry, -, appended, -⟩
  · rwa [same]
  · rw [appended]
    exact grown.trans (List.prefix_append _ _)

/-- A program that has ended stays as it is. -/
theorem ended_of_run {events : List (Call × Answer)} (ended : started.state = .ended)
    (run : Run (Step primitives) started events final) : final = started := by
  refine run.invariant (fun _ sandbox => sandbox = started) rfl ?_
  intro _ middle event final _ same step
  rw [(stepped step).ended (same ▸ ended), same]

/-- A receipt that was answered is that of the program, which has ended and stays as it is. -/
theorem receipt_of_run {events : List (Call × Answer)} {call : Call} {receipt : HolodeckReceipt}
    (run : Run (Step primitives) started events final)
    (member : (call, .ok (.receipt receipt)) ∈ events) :
    final.state = .ended ∧ final.receipt primitives = .ok receipt := by
  refine run.invariant (fun events sandbox => (call, .ok (.receipt receipt)) ∈ events →
    sandbox.state = .ended ∧ sandbox.receipt primitives = .ok receipt) (by simp) ?_ member
  intro _ middle event final _ earlier step member
  have stepped := stepped step
  rcases List.mem_append.mp member with before | last
  · obtain ⟨ended, answered⟩ := earlier before
    rw [stepped.ended ended]
    exact ⟨ended, answered⟩
  · have now : event = (call, .ok (.receipt receipt)) := (List.mem_singleton.mp last).symm
    exact stepped.closed receipt (congrArg Prod.snd now)

/-- In every state that a sandbox can be in, event `i` of the ledger has the number `i + 1`, there
are at most as many events as the program allows, and they refer to source objects of the program.
What happens later only appends to the ledger, and nothing once the program has ended. A call
appends a synthetic event only while the program runs, and nothing when it fails. All receipts of a
program are the same. -/
theorem ledger_safe (begun : start primitives program = .ok started)
    {earlier later : List (Call × Answer)}
    (before : Run (Step primitives) started earlier middle)
    (after : Run (Step primitives) middle later final) :
    (∀ index (inside : index < middle.events.length),
      (middle.events[index]).sequence.toNat = index + 1) ∧
    middle.events.length ≤ program.maxEvents.toNat ∧
    (∀ event ∈ middle.events, ∀ reference ∈ event.sourceRefs,
      reference ∈ program.source.objectRefs) ∧
    middle.events <+: final.events ∧
    (middle.state = .ended → final.state = .ended ∧ final.events = middle.events) ∧
    (∀ call answer next, Step primitives middle (call, answer) next →
      ∃ appended, next.events = middle.events ++ appended ∧
        (middle.state ≠ .running → ∀ event ∈ appended, ¬Synthetic event.kind) ∧
        ((∃ error, answer = .error error) → appended = [])) ∧
    (∀ one two first second, (.endProgram one, .ok (.receipt first)) ∈ earlier ++ later →
      (.endProgram two, .ok (.receipt second)) ∈ earlier ++ later → first = second) := by
  have kept := kept_of_run (kept_of_start begun) before
  refine ⟨kept.numbered, kept.within, kept.sources, grown_of_run after, ?_, ?_, ?_⟩
  · intro ended
    have same := ended_of_run ended after
    rw [same]
    exact ⟨ended, rfl⟩
  · intro call answer next step
    rcases (stepped step).ledger with same | ⟨event, -, appended, ⟨reply, succeeded⟩, guarded⟩
    · exact ⟨[], by rw [same, List.append_nil], by simp, fun _ => rfl⟩
    · refine ⟨[event], appended, ?_, ?_⟩
      · intro still other member synthetic
        rw [List.mem_singleton.mp member] at synthetic
        exact still (guarded synthetic)
      · rintro ⟨error, failed⟩
        rw [succeeded] at failed
        cases failed
  · intro one two first second firstAnswered secondAnswered
    have whole := before.append after
    have answered := (receipt_of_run whole firstAnswered).2
    rw [(receipt_of_run whole secondAnswered).2] at answered
    exact (Except.ok.inj answered).symm

/-- What is told in the recorded program is recorded. -/
theorem recorded_narrative (begun : start primitives (recordedProgram 2) = .ok started) :
    ∃ reply after, Step primitives started (.narrative none "a door opens" [], .ok reply) after := by
  obtain ⟨plan, event, compiled, rfl, -⟩ := start_ok begun
  have text : validateText "a door opens" = .ok () := ensure_pos (by decide) _
  have room : [event].length < (2 : UInt32).toNat := Nat.lt_succ_self 1
  obtain ⟨next, found⟩ : ∃ next, nextEvent primitives ⟨recordedProgram 2, plan, [event], .running⟩
      .syntheticNarrative none "a door opens" [] = .ok next :=
    (nextEvent_total_iff (compileWorldPlan_ok compiled).2.1 text rfl (by simp)).mpr
      ⟨room, nfc_fits (by decide)⟩
  exact ⟨_, _, (Effect.run_map_ok_iff ..).mpr ⟨_, run_recordSynthetic rfl rfl found, rfl⟩⟩

/-- The recorded program records one event after its first. -/
theorem recorded_ledger_safe : ∃ started middle reply,
    start (Digest.tabulated [] []) (recordedProgram 2) = .ok started ∧
    Step (Digest.tabulated [] []) started
      (.narrative none "a door opens" [], .ok reply) middle ∧
    middle.events.length ≤ 2 ∧ ∀ index (inside : index < middle.events.length),
      (middle.events[index]).sequence.toNat = index + 1 := by
  obtain ⟨started, begun⟩ := recordedProgram_begun (Digest.tabulated [] []) (.inr rfl)
  obtain ⟨reply, middle, step⟩ := recorded_narrative begun
  obtain ⟨numbered, within, -⟩ := ledger_safe begun (.single step) .nil
  exact ⟨started, middle, reply, begun, step, within, numbered⟩

end QsolFed.HolodeckSandbox
