import Mathlib.Data.List.Basic
import Mathlib.Tactic.Common

/-!
# Classic packet filter programs

A filter is a sequence of instructions over one accumulator. Loads read a word at a fixed offset,
jumps are relative and go forward, and a return ends the filter with an action. The machine runs
with a program counter; since no jump goes back, its result is that of the instructions from the
counter on, which is what the rules for blocks of instructions speak about.
-/
namespace Bpf

/-- An instruction: its operation, two relative jump targets and an operand. -/
structure Instruction where
  /-- The operation. -/
  code : UInt16
  /-- The number of instructions to skip when a condition holds. -/
  jt : UInt8
  /-- The number of instructions to skip when a condition fails. -/
  jf : UInt8
  /-- The operand. -/
  k : UInt32
  deriving DecidableEq, Repr

/-- The operations that filters over fixed words use. -/
inductive Operation where
  /-- Load the word at an absolute offset. -/
  | load
  /-- Jump on equality with the operand. -/
  | jumpEqual
  /-- Jump on a bit of the operand that is set. -/
  | jumpSet
  /-- Return the operand. -/
  | ret
  deriving DecidableEq, Repr

/-- The operation that a code stands for. -/
def Instruction.operation? (instruction : Instruction) : Option Operation :=
  if instruction.code = 0x20 then some .load
  else if instruction.code = 0x15 then some .jumpEqual
  else if instruction.code = 0x45 then some .jumpSet
  else if instruction.code = 0x06 then some .ret
  else none

/-- The number of instructions that a jump skips. -/
def Instruction.skipped (instruction : Instruction) (condition : Bool) : Nat :=
  if condition then instruction.jt.toNat else instruction.jf.toNat

/-- Where a filter stands. -/
structure State where
  /-- The program counter. -/
  counter : Nat
  /-- The accumulator. -/
  accumulator : UInt32
  deriving DecidableEq, Repr

/-- What one step leads to. -/
inductive Outcome where
  /-- The filter goes on. -/
  | running (state : State)
  /-- The filter returned an action. -/
  | returned (action : UInt32)
  deriving DecidableEq, Repr

variable (word? : UInt32 → Option UInt32)

/-- One step. There is none outside the program, for an operation that is unknown, or for a load
that has no word. -/
def step (program : List Instruction) (state : State) : Option Outcome := do
  let instruction ← program[state.counter]?
  let operation ← instruction.operation?
  match operation with
  | .load =>
    let word ← word? instruction.k
    some (.running ⟨state.counter + 1, word⟩)
  | .jumpEqual =>
    let condition := state.accumulator = instruction.k
    some (.running ⟨state.counter + 1 + instruction.skipped condition, state.accumulator⟩)
  | .jumpSet =>
    let condition := state.accumulator &&& instruction.k ≠ 0
    some (.running ⟨state.counter + 1 + instruction.skipped condition, state.accumulator⟩)
  | .ret => some (.returned instruction.k)

/-- Some number of steps, until the filter returns. -/
def run (program : List Instruction) : Nat → State → Option UInt32
  | 0, _ => none
  | fuel + 1, state =>
    match step word? program state with
    | none => none
    | some (.returned action) => some action
    | some (.running next) => run program fuel next

/-- The action that instructions return after some are skipped. -/
def eval : List Instruction → Nat → UInt32 → Option UInt32
  | [], _, _ => none
  | _ :: rest, skip + 1, accumulator => eval rest skip accumulator
  | instruction :: rest, 0, accumulator =>
    match instruction.operation? with
    | none => none
    | some .load =>
      match word? instruction.k with
      | none => none
      | some word => eval rest 0 word
    | some .jumpEqual =>
      eval rest (instruction.skipped (accumulator = instruction.k)) accumulator
    | some .jumpSet =>
      eval rest (instruction.skipped (accumulator &&& instruction.k ≠ 0)) accumulator
    | some .ret => some instruction.k

/-- Every jump lands inside the program. -/
def JumpsInside : List Instruction → Prop
  | [] => True
  | instruction :: rest => ((instruction.operation? = some .jumpEqual ∨
      instruction.operation? = some .jumpSet) →
        instruction.jt.toNat < rest.length ∧ instruction.jf.toNat < rest.length) ∧
      JumpsInside rest

/-- Whether every jump lands inside is decided. -/
instance decidableJumpsInside : (program : List Instruction) → Decidable (JumpsInside program)
  | [] => inferInstanceAs (Decidable True)
  | _ :: rest => @instDecidableAnd _ _ _ (decidableJumpsInside rest)

/-! ## Runs and suffixes -/

variable {word?} {program : List Instruction}

/-- Skipped instructions are dropped. -/
theorem eval_drop (skip : Nat) (accumulator : UInt32) :
    eval word? program skip accumulator = eval word? (program.drop skip) 0 accumulator := by
  induction program generalizing skip with
  | nil => simp [eval]
  | cons instruction rest ih =>
    cases skip with
    | zero => rfl
    | succ skip =>
      rw [eval, List.drop_succ_cons]
      exact ih skip

/-- A run with enough steps has the result of the instructions from the counter on. -/
theorem run_eq_eval {fuel : Nat} {state : State} (enough : program.length ≤ state.counter + fuel) :
    run word? program fuel state =
      eval word? (program.drop state.counter) 0 state.accumulator := by
  induction fuel generalizing state with
  | zero =>
    rw [List.drop_eq_nil_of_le (by omega)]
    rfl
  | succ fuel ih =>
    by_cases inside : state.counter < program.length
    · have found := List.getElem?_eq_getElem inside
      have jump : ∀ skip accumulator,
          run word? program fuel ⟨state.counter + 1 + skip, accumulator⟩ =
            eval word? (program.drop (state.counter + 1)) skip accumulator := by
        intro skip accumulator
        rw [ih (by dsimp only; omega), eval_drop skip, List.drop_drop]
      have next : ∀ accumulator, run word? program fuel ⟨state.counter + 1, accumulator⟩ =
          eval word? (program.drop (state.counter + 1)) 0 accumulator := jump 0
      rw [run, List.drop_eq_getElem_cons inside, eval]
      simp only [step, found, bind, Option.bind]
      cases program[state.counter].operation? with
      | none => rfl
      | some operation =>
        cases operation with
        | load =>
          cases loaded : word? program[state.counter].k with
          | none => rfl
          | some word => simp only [next]
        | jumpEqual => simp only [jump]
        | jumpSet => simp only [jump]
        | ret => rfl
    · have outside := List.getElem?_eq_none (Nat.le_of_not_lt inside)
      rw [List.drop_eq_nil_of_le (Nat.le_of_not_lt inside), run, step, outside]
      rfl

/-- A whole run has the result of all instructions. -/
theorem run_start : run word? program program.length ⟨0, 0⟩ = eval word? program 0 0 :=
  run_eq_eval (by simp)

/-! ## Blocks -/

variable {k accumulator : UInt32} {jt jf : UInt8} {rest : List Instruction}

/-- A load goes on with the word. -/
theorem eval_load {word : UInt32} (found : word? k = some word) :
    eval word? (⟨0x20, jt, jf, k⟩ :: rest) 0 accumulator = eval word? rest 0 word := by
  simp [eval, Instruction.operation?, found]

/-- A jump on equality skips one number of instructions or the other. -/
theorem eval_jumpEqual : eval word? (⟨0x15, jt, jf, k⟩ :: rest) 0 accumulator =
    if accumulator = k then eval word? (rest.drop jt.toNat) 0 accumulator
    else eval word? (rest.drop jf.toNat) 0 accumulator := by
  by_cases same : accumulator = k
  · simp [eval, Instruction.operation?, Instruction.skipped, same, eval_drop jt.toNat]
  · simp [eval, Instruction.operation?, Instruction.skipped, same, eval_drop jf.toNat]

/-- A jump on a bit skips one number of instructions or the other. -/
theorem eval_jumpSet : eval word? (⟨0x45, jt, jf, k⟩ :: rest) 0 accumulator =
    if accumulator &&& k = 0 then eval word? (rest.drop jf.toNat) 0 accumulator
    else eval word? (rest.drop jt.toNat) 0 accumulator := by
  by_cases unset : accumulator &&& k = 0
  · simp [eval, Instruction.operation?, Instruction.skipped, unset, eval_drop jf.toNat]
  · simp [eval, Instruction.operation?, Instruction.skipped, unset, eval_drop jt.toNat]

/-- A return ends with its action. -/
theorem eval_ret : eval word? (⟨0x06, jt, jf, k⟩ :: rest) 0 accumulator = some k := by
  simp [eval, Instruction.operation?]

/-- Instructions that return an action on some words and go on with the others. -/
def refusals (action : UInt32) (refused : List UInt32) : List Instruction :=
  refused.flatMap fun k => [⟨0x15, 0, 1, k⟩, ⟨0x06, 0, 0, action⟩]

/-- Refusals return the action on their words and go on with the others. -/
theorem eval_refusals (action : UInt32) (refused : List UInt32) :
    eval word? (refusals action refused ++ rest) 0 accumulator =
      if accumulator ∈ refused then some action else eval word? rest 0 accumulator := by
  unfold refusals
  induction refused with
  | nil => simp
  | cons k others ih =>
    rw [List.flatMap_cons, List.append_assoc, List.cons_append, List.cons_append, List.nil_append,
      eval_jumpEqual]
    by_cases same : accumulator = k
    · rw [if_pos same, if_pos (same ▸ List.mem_cons_self)]
      exact eval_ret
    · have later : accumulator ∈ k :: others ↔ accumulator ∈ others := by simp [same]
      simp only [if_neg same, later]
      exact ih

end Bpf
