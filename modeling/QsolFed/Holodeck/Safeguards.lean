import QsolFed.Holodeck.Ledger

/-!
# Freezing and ending

A sandbox that is frozen lets no synthetic action through until it is resumed. An operator freeze
appends its event before it changes the state, so it needs room in the ledger; an attempt to leave
the sandbox freezes it once the actor has been recognised, whether or not that is recorded. Ending
a program appends an event while the ledger has room, so it needs a text whose normal form fits.
-/
namespace QsolFed.HolodeckSandbox

open Checked Json Canonical Holodeck

/-- A call that records a synthetic action. -/
def Call.Records : Call → Prop
  | .narrative .. => True
  | .transition .. => True
  | _ => False

variable (primitives : Primitives)

/-- A sandbox is frozen, and whatever is called, no synthetic action is recorded before a
resumption succeeds. -/
def Halted (sandbox : HolodeckSandbox) : Prop :=
  sandbox.state = .frozen ∧ ∀ events final, Run (Step primitives) sandbox events final →
    (∀ reply, (.resume, .ok reply) ∉ events) →
    ∀ call answer, (call, answer) ∈ events → call.Records → ∃ error, answer = .error error

variable {primitives} {program : HolodeckProgram} {sandbox after : HolodeckSandbox}
  {events : List (Call × Answer)}

/-! ## Reached sandboxes -/

/-- A sandbox that was reached keeps its ledger and the world of its program. -/
theorem Reached.kept (reached : Reached primitives program events sandbox) :
    Kept program sandbox ∧ compileWorldPlan primitives program = .ok sandbox.plan := by
  obtain ⟨started, begun, run⟩ := reached
  refine ⟨kept_of_run (kept_of_start begun) run, ?_⟩
  obtain ⟨plan, event, compiled, rfl, -⟩ := start_ok begun
  refine run.invariant (fun _ sandbox => compileWorldPlan primitives program = .ok sandbox.plan)
    compiled ?_
  intro _ middle label final _ same step
  rw [(stepped step).plan]
  exact same

/-- The world of a sandbox that was reached is named by references. -/
theorem Reached.named (reached : Reached primitives program events sandbox) :
    Named sandbox.plan :=
  (compileWorldPlan_ok reached.kept.2).2.1

/-- A sandbox that was reached can append an event of its own without source objects exactly when
the ledger has room and the normal form of the text fits. -/
theorem Reached.next_iff (reached : Reached primitives program events sandbox)
    {kind : HolodeckEventKind} {text : String} (valid : validateText text = .ok ()) :
    (∃ event, sandbox.nextEvent primitives kind none text [] = .ok event) ↔
      sandbox.events.length < program.maxEvents.toNat ∧
        (primitives.unicode.nfc text).utf8ByteSize ≤ maxStringUtf8 := by
  have sources : validateEventSourceRefs [] sandbox.program.source = .ok () :=
    (validateEventSourceRefs_ok_iff _ _).mpr ⟨Nat.zero_le _, List.nodup_nil, by simp⟩
  rw [nextEvent_total_iff reached.named valid sources (by simp), reached.kept.1.begun]

/-! ## Freezing -/

/-- An actor is none or an entity of the world. -/
theorem validateSyntheticActor_ok_iff (actor : Option String) (plan : HolodeckWorldPlan) :
    validateSyntheticActor actor plan = .ok () ↔
      ∀ name, actor = some name → name ∈ plan.syntheticEntityIds := by
  cases actor <;> simp [validateSyntheticActor]

/-- A synthetic action that succeeds finds the program running. -/
theorem running_of_recorded {call : Call} {reply : Reply} (records : call.Records)
    (step : Step primitives sandbox (call, .ok reply) after) : sandbox.state = .running := by
  have ran : ∃ kind actor text refs decision, (recordSynthetic primitives kind actor text refs).run
      sandbox = (.ok decision, after) := by
    cases call with
    | narrative actor text refs =>
      obtain ⟨decision, ran, -⟩ := (Effect.run_map_ok_iff ..).mp step
      exact ⟨_, actor, text, refs, decision, ran⟩
    | transition actor label refs =>
      obtain ⟨decision, ran, -⟩ := (Effect.run_map_ok_iff ..).mp step
      exact ⟨_, actor, label, refs, decision, ran⟩
    | attempt | freeze | resume | endProgram => exact records.elim
  obtain ⟨kind, actor, text, refs, decision, ran⟩ := ran
  rcases recordSynthetic_cases ran with ⟨_, same, -⟩ | ⟨_, running, -⟩
  · cases same
  · exact running

/-- A frozen sandbox is halted. -/
theorem halted_of_frozen (frozen : sandbox.state = .frozen) : Halted primitives sandbox := by
  refine ⟨frozen, fun events final run => ?_⟩
  have still : (∀ reply, (.resume, .ok reply) ∉ events) → final.state ≠ .running ∧
      ∀ call answer, (call, answer) ∈ events → call.Records →
        ∃ error, answer = .error error := by
    refine run.invariant (fun events final => (∀ reply, (.resume, .ok reply) ∉ events) →
      final.state ≠ .running ∧ ∀ call answer, (call, answer) ∈ events → call.Records →
        ∃ error, answer = .error error) ?_ ?_
    · intro _
      rw [frozen]
      exact ⟨by decide, by simp⟩
    · intro earlier middle event final _ ih step unresumed
      obtain ⟨idle, refused⟩ := ih fun reply member =>
        unresumed reply (List.mem_append_left _ member)
      obtain ⟨call, answer⟩ := event
      have stepped := stepped step
      constructor
      · intro running
        cases state : middle.state with
        | running => exact idle state
        | frozen =>
          obtain ⟨rfl, reply, rfl⟩ := stepped.resumed state running
          exact unresumed reply (List.mem_append_right _ List.mem_cons_self)
        | ended =>
          rw [stepped.ended state, state] at running
          cases running
      · intro other given member records
        rcases List.mem_append.mp member with old | new
        · exact refused other given old records
        · cases List.mem_singleton.mp new
          cases answer with
          | error error => exact ⟨error, rfl⟩
          | ok reply => exact absurd (running_of_recorded records step) idle
  exact fun unresumed => (still unresumed).2

/-- Freezing a running program halts it exactly when the ledger has room. An attempt to leave the
sandbox of a running program halts it exactly when no entity or an entity of its world makes it. -/
theorem halts_iff (reached : Reached primitives program events sandbox)
    (running : sandbox.state = .running) :
    (∀ answer after, Step primitives sandbox (.freeze, answer) after →
      (Halted primitives after ↔ sandbox.events.length < program.maxEvents.toNat)) ∧
    ∀ actor effect answer after, Step primitives sandbox (.attempt actor effect, answer) after →
      (Halted primitives after ↔
        ∀ name, actor = some name → name ∈ sandbox.plan.syntheticEntityIds) := by
  have halted_iff : ∀ after, Halted primitives after ↔ after.state = .frozen :=
    fun after => ⟨And.left, halted_of_frozen⟩
  constructor
  · intro answer after step
    obtain ⟨inner, ran, -⟩ := Effect.run_of_run_map step
    have next : (∃ event, sandbox.nextEvent primitives .operatorFreeze none "operator freeze" [] =
        .ok event) ↔ _ := reached.next_iff (ensure_pos (by decide) _)
    rw [halted_iff]
    rcases freeze_cases ran with ⟨error, -, rfl, stopped | refused⟩ | ⟨event, -, found, -, rfl⟩
    · exact absurd running stopped
    · constructor
      · intro frozen
        rw [running] at frozen
        cases frozen
      · intro room
        obtain ⟨event, found⟩ := next.mpr ⟨room, nfc_fits (by decide)⟩
        rw [refused] at found
        cases found
    · exact ⟨fun _ => (next.mp ⟨event, found⟩).1, fun _ => rfl⟩
  · intro actor effect answer after step
    obtain ⟨inner, ran, -⟩ := Effect.run_of_run_map step
    rw [halted_iff, ← validateSyntheticActor_ok_iff]
    rcases attemptBoundaryEffect_cases ran with
      ⟨error, -, rfl, past | stranger⟩ | ⟨-, member, ⟨error, -, rfl⟩ | ⟨event, -, -, rfl⟩⟩
    · rw [running] at past
      cases past
    · rw [running, stranger]
      exact ⟨fun same => (nomatch same), fun same => (nomatch same)⟩
    · exact ⟨fun _ => member, fun _ => rfl⟩
    · exact ⟨fun _ => member, fun _ => rfl⟩

/-- The recorded program, once begun, runs. -/
theorem recorded_reached (primitives : Primitives) {maxEvents : UInt32}
    (small : maxEvents = 1 ∨ maxEvents = 2) : ∃ sandbox,
      Reached primitives (recordedProgram maxEvents) [] sandbox ∧ sandbox.state = .running ∧
        sandbox.events.length = 1 := by
  obtain ⟨started, begun⟩ := recordedProgram_begun primitives small
  obtain ⟨plan, event, -, rfl, -⟩ := start_ok begun
  exact ⟨_, ⟨_, begun, .nil⟩, rfl, rfl⟩

/-- The entities of a world have long names. -/
theorem entity_long {plan : HolodeckWorldPlan}
    (compiled : compileWorldPlan primitives program = .ok plan) {name : String}
    (member : name ∈ plan.syntheticEntityIds) : 12 ≤ name.utf8ByteSize := by
  simp only [compileWorldPlan, bind_ok_iff, pure_ok_iff] at compiled
  obtain ⟨_, -, rfl⟩ := compiled
  obtain ⟨index, -, rfl⟩ := List.mem_map.mp member
  have begins : "holo-entity:".utf8ByteSize = 12 := by decide
  simp only [String.utf8ByteSize_append, begins]
  omega

/-- A ledger with room lets the recorded program be frozen. -/
theorem recorded_halts : ∃ sandbox,
    Reached (Digest.tabulated [] []) (recordedProgram 2) [] sandbox ∧
    ∀ answer after, Step (Digest.tabulated [] []) sandbox (.freeze, answer) after →
      Halted (Digest.tabulated [] []) after := by
  obtain ⟨sandbox, reached, running, length⟩ :=
    recorded_reached (Digest.tabulated [] []) (.inr rfl)
  refine ⟨sandbox, reached, fun answer after step => ?_⟩
  refine ((halts_iff reached running).1 answer after step).mpr ?_
  rw [length]
  decide

/-- A ledger of one event keeps the recorded program running when it is frozen, and so does an
attempt of an actor that is not one of its entities. -/
theorem recorded_not_halted : ∃ sandbox,
    Reached (Digest.tabulated [] []) (recordedProgram 1) [] sandbox ∧ sandbox.state = .running ∧
    (∃ error, Step (Digest.tabulated [] []) sandbox (.freeze, .error error) sandbox) ∧
    ∃ error, Step (Digest.tabulated [] []) sandbox
      (.attempt (some "intruder") .networkAccess, .error error) sandbox := by
  obtain ⟨sandbox, reached, running, length⟩ :=
    recorded_reached (Digest.tabulated [] []) (.inl rfl)
  have full : ¬sandbox.events.length < (recordedProgram 1).maxEvents.toNat := by
    rw [length]
    decide
  refine ⟨sandbox, reached, running, ?_, ?_⟩
  · rcases ran : (freeze (Digest.tabulated [] [])).run sandbox with ⟨answer, after⟩
    rcases freeze_cases ran with ⟨error, rfl, rfl, -⟩ | ⟨event, -, found, -, -⟩
    · refine ⟨error, ?_⟩
      simp only [Step, invoke, Effect.run_map, ran]
      rfl
    · exact absurd ((reached.next_iff (ensure_pos (by decide) _)).mp ⟨event, found⟩).1 full
  · rcases ran : (attemptBoundaryEffect (Digest.tabulated [] []) (some "intruder")
      .networkAccess).run sandbox with ⟨answer, after⟩
    rcases attemptBoundaryEffect_cases ran with ⟨error, rfl, rfl, -⟩ | ⟨-, member, -⟩
    · refine ⟨error, ?_⟩
      simp only [Step, invoke, Effect.run_map, ran]
      rfl
    · have listed := (validateSyntheticActor_ok_iff _ _).mp member "intruder" rfl
      have long := entity_long reached.kept.2 listed
      exact absurd long (by decide)

/-! ## Ending -/

/-- A program that was begun and ends with a receipt had ended, its ledger was full, or the normal
form of the reason fits. -/
theorem fits_of_ends (reached : Reached primitives program events sandbox) {reason : String}
    {receipt : HolodeckReceipt}
    (step : Step primitives sandbox (.endProgram reason, .ok (.receipt receipt)) after) :
    sandbox.state = .ended ∨ program.maxEvents.toNat ≤ sandbox.events.length ∨
      (primitives.unicode.nfc reason).utf8ByteSize ≤ maxStringUtf8 := by
  obtain ⟨answer, ran, same⟩ := Effect.run_of_run_map step
  obtain rfl := map_receipt same.symm
  rcases endProgram_cases ran with ⟨_, -, same, -⟩ | ⟨valid, ⟨_, -, same⟩ | ⟨closing, -⟩⟩
  · cases same
  · cases same
  · rcases close_cases closing with ⟨ended, -⟩ | ⟨-, full, -⟩ |
      ⟨-, -, ⟨_, -, same, -⟩ | ⟨event, found, -⟩⟩
    · exact .inl ended
    · rw [reached.kept.1.begun] at full
      exact .inr (.inl (Nat.le_of_not_lt full))
    · cases same
    · exact .inr (.inr ((reached.next_iff valid).mp ⟨event, found⟩).2)

/-- A program that was begun ends with a receipt for a valid reason exactly when it has ended, its
ledger is full, or the normal form of the reason fits. -/
theorem ends_iff (reached : Reached primitives program events sandbox) {reason : String}
    (some_ : reason.utf8ByteSize ≠ 0) (short : reason.utf8ByteSize ≤ maxHolodeckTextBytes) :
    (∃ receipt after, after.state = .ended ∧
      Step primitives sandbox (.endProgram reason, .ok (.receipt receipt)) after) ↔
      sandbox.state = .ended ∨ program.maxEvents.toNat ≤ sandbox.events.length ∨
        (primitives.unicode.nfc reason).utf8ByteSize ≤ maxStringUtf8 := by
  have valid : validateText reason = .ok () := ensure_pos ⟨some_, short⟩ _
  rcases ran : (endProgram primitives reason).run sandbox with ⟨answer, after⟩
  constructor
  · rintro ⟨receipt, final, -, step⟩
    exact fits_of_ends reached step
  · intro ends
    have closed : (close primitives sandbox reason).run sandbox = (.ok ⟨⟩, after) ∧
        answer = after.receipt primitives := by
      rcases endProgram_cases ran with ⟨_, invalid, -⟩ | ⟨-, ⟨_, closing, -⟩ | closed⟩
      · rw [valid] at invalid
        cases invalid
      · rcases close_cases closing with ⟨-, same, -⟩ | ⟨-, -, same, -⟩ |
          ⟨goes, room, ⟨_, refused, -⟩ | ⟨_, -, same, -⟩⟩
        · cases same
        · cases same
        · rw [reached.kept.1.begun] at room
          rcases ends with ended | full | fits
          · exact absurd ended goes
          · exact absurd room (Nat.not_lt.mpr full)
          · obtain ⟨event, found⟩ := (reached.next_iff valid).mpr ⟨room, fits⟩
            rw [refused] at found
            cases found
        · cases same
      · exact closed
    have past : after.state = .ended := by
      rcases close_cases closed.1 with ⟨ended, -, rfl⟩ | ⟨-, -, -, rfl⟩ |
        ⟨-, -, ⟨_, -, same, -⟩ | ⟨_, -, -, rfl⟩⟩
      · exact ended
      · rfl
      · cases same
      · rfl
    have kept := reached.kept.1.step (endProgram_stepped (.endProgram reason) ran)
    have few := kept.within.trans_lt program.maxEvents.toNat_lt
    obtain ⟨receipt, total⟩ := receipt_total primitives few
    rw [closed.2, total] at ran
    exact ⟨receipt, after, past, (Effect.run_map_ok_iff ..).mpr ⟨receipt, ran, rfl⟩⟩

/-- The recorded program ends for a short reason. -/
theorem recorded_ends : ∃ sandbox,
    Reached (Digest.tabulated [] []) (recordedProgram 2) [] sandbox ∧ sandbox.state = .running ∧
    ∃ receipt after, after.state = .ended ∧ Step (Digest.tabulated [] []) sandbox
      (.endProgram "computer, end program", .ok (.receipt receipt)) after := by
  obtain ⟨sandbox, reached, running, -⟩ := recorded_reached (Digest.tabulated [] []) (.inr rfl)
  exact ⟨sandbox, reached, running, (ends_iff reached (by decide) (by decide)).mpr
    (.inr (.inr (nfc_fits (by decide))))⟩

/-! ## A reason that grows -/

/-- The normal form of a character: a musical eighth note is a stem and a flag on a note head. -/
def decomposed (c : Char) : List Char :=
  if c = Char.ofNat 0x1D160 then [Char.ofNat 0x1D158, Char.ofNat 0x1D165, Char.ofNat 0x1D16E]
  else [c]

/-- A character in normal form stays. -/
theorem decomposed_of_ne {c : Char} (other : c ≠ Char.ofNat 0x1D160) : decomposed c = [c] :=
  if_neg other

/-- Normalisation of texts of ASCII characters and eighth notes. -/
def notated : Unicode where
  nfc text := String.ofList (text.toList.flatMap decomposed)
  idempotent text := by
    have each : ∀ c, (decomposed c).flatMap decomposed = decomposed c := by
      intro c
      by_cases note : c = Char.ofNat 0x1D160
      · subst note
        decide
      · rw [decomposed_of_ne note, List.flatMap_singleton, decomposed_of_ne note]
    simp only [String.toList_ofList, List.flatMap_assoc, each]
  ascii text narrow := by
    have each : ∀ list : List Char, (∀ c ∈ list, c.toNat < 0x80) →
        list.flatMap decomposed = list := by
      intro list narrow
      induction list with
      | nil => rfl
      | cons c rest ih =>
        have other : c ≠ Char.ofNat 0x1D160 := by
          rintro rfl
          exact absurd (narrow _ List.mem_cons_self) (by decide)
        rw [List.flatMap_cons, decomposed_of_ne other,
          ih fun later member => narrow later (List.mem_cons_of_mem _ member)]
        rfl
    rw [each _ narrow, String.ofList_toList]

/-- A reason of eighth notes. -/
def notes (count : Nat) : String := String.ofList (List.replicate count (Char.ofNat 0x1D160))

/-- An eighth note has four bytes. -/
theorem size_notes (count : Nat) : (notes count).utf8ByteSize = 4 * count := by
  rw [notes, utf8ByteSize_ofList]
  induction count with
  | zero => rfl
  | succ count ih =>
    have four : (Char.ofNat 0x1D160).utf8Size = 4 := by decide
    rw [List.replicate_succ, weigh_cons, ih, four]
    omega

/-- The normal form of an eighth note has twelve bytes. -/
theorem size_nfc_notes (count : Nat) : (notated.nfc (notes count)).utf8ByteSize = 12 * count := by
  simp only [notated, notes, String.toList_ofList, utf8ByteSize_ofList]
  induction count with
  | zero => rfl
  | succ count ih =>
    have twelve : weigh Char.utf8Size (decomposed (Char.ofNat 0x1D160)) = 12 := by decide
    rw [List.replicate_succ, List.flatMap_cons, weigh_append, ih, twelve]
    omega

/-- The recorded program does not end for a reason of 4096 bytes whose normal form has 12288. -/
theorem recorded_not_ended : ∃ sandbox,
    Reached { Digest.tabulated [] [] with unicode := notated } (recordedProgram 2) [] sandbox ∧
    sandbox.state = .running ∧ (notes 1024).utf8ByteSize = maxHolodeckTextBytes ∧
    ∀ receipt after, ¬Step { Digest.tabulated [] [] with unicode := notated } sandbox
      (.endProgram (notes 1024), .ok (.receipt receipt)) after := by
  obtain ⟨sandbox, reached, running, length⟩ :=
    recorded_reached { Digest.tabulated [] [] with unicode := notated } (.inr rfl)
  refine ⟨sandbox, reached, running, size_notes 1024, fun receipt after step => ?_⟩
  rcases fits_of_ends reached step with ended | full | fits
  · rw [running] at ended
    cases ended
  · rw [length] at full
    exact absurd full (by decide)
  · change (notated.nfc (notes 1024)).utf8ByteSize ≤ maxStringUtf8 at fits
    rw [size_nfc_notes] at fits
    exact absurd fits (by decide)

end QsolFed.HolodeckSandbox
