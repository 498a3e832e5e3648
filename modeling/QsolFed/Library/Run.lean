import Mathlib.Tactic.Common

/-!
# Runs of labelled steps

A system that takes one labelled step after another. A run lists the labels of its steps in
order, so that a property of a run may speak of everything that happened on the way. A property
that holds before the first step and is kept by every further step holds of every run.
-/
universe u v

/-- The steps with these labels lead from a state to another. -/
inductive Run {σ : Type u} {ε : Type v} (step : σ → ε → σ → Prop) (start : σ) :
    List ε → σ → Prop where
  /-- No step. -/
  | nil : Run step start [] start
  /-- One more step. -/
  | snoc {events : List ε} {middle final : σ} {event : ε} (before : Run step start events middle)
      (last : step middle event final) : Run step start (events ++ [event]) final

namespace Run

variable {σ : Type u} {ε : Type v} {step : σ → ε → σ → Prop} {start middle final : σ}

/-- A property of labels and state that every step of a run keeps holds after the run. -/
theorem invariant (property : List ε → σ → Prop) (initial : property [] start)
    (preserved : ∀ events middle event final, Run step start events middle →
      property events middle → step middle event final → property (events ++ [event]) final)
    {events : List ε} (run : Run step start events final) : property events final := by
  induction run with
  | nil => exact initial
  | snoc before last ih => exact preserved _ _ _ _ before ih last

/-- A run of steps is a run of the steps that each of them is. -/
theorem mono {other : σ → ε → σ → Prop}
    (included : ∀ before event after, step before event after → other before event after)
    {events : List ε} (run : Run step start events final) : Run other start events final := by
  induction run with
  | nil => exact .nil
  | snoc _ last ih => exact ih.snoc (included _ _ _ last)

/-- Two runs in order are a run. -/
theorem append {first second : List ε} (before : Run step start first middle)
    (after : Run step middle second final) : Run step start (first ++ second) final := by
  induction after with
  | nil => simpa using before
  | snoc _ last ih =>
    rw [← List.append_assoc]
    exact ih.snoc last

/-- One step is a run. -/
theorem single {event : ε} (one : step start event final) : Run step start [event] final :=
  .snoc .nil one

/-- A run that ends with a label ends with a step. -/
theorem last {events : List ε} {event : ε} (run : Run step start (events ++ [event]) final) :
    ∃ middle, Run step start events middle ∧ step middle event final := by
  generalize same : events ++ [event] = labels at run
  cases run with
  | nil => simp at same
  | snoc before step =>
    obtain ⟨rfl, labels⟩ := List.append_inj' same rfl
    obtain rfl := (List.cons.inj labels).1
    exact ⟨_, before, step⟩

/-- Steps that are determined by their label make runs that are determined by their labels. -/
theorem unique (functional : ∀ state event left right, step state event left →
    step state event right → left = right) {events : List ε} {left right : σ}
    (one : Run step start events left) (two : Run step start events right) : left = right := by
  induction one generalizing right with
  | nil =>
    generalize same : ([] : List ε) = events at two
    cases two with
    | nil => rfl
    | snoc => simp at same
  | snoc before last ih =>
    rename_i events middle final event
    generalize same : events ++ [event] = others at two
    cases two with
    | nil => simp at same
    | snoc other otherLast =>
      obtain ⟨rfl, labels⟩ := List.append_inj' same rfl
      obtain rfl := List.cons.inj labels |>.1
      obtain rfl := ih other
      exact functional _ _ _ _ last otherLast

/-- A run passes through the state between two parts of its labels. -/
theorem split {first second : List ε} (run : Run step start (first ++ second) final) :
    ∃ middle, Run step start first middle ∧ Run step middle second final := by
  generalize same : first ++ second = events at run
  induction run generalizing second with
  | nil =>
    obtain ⟨rfl, rfl⟩ := List.append_eq_nil_iff.mp same
    exact ⟨start, .nil, .nil⟩
  | snoc before last ih =>
    rcases List.eq_nil_or_concat second with rfl | ⟨initial, event, rfl⟩
    · rw [List.append_nil] at same
      exact ⟨_, same ▸ before.snoc last, .nil⟩
    · rw [List.concat_eq_append, ← List.append_assoc] at same
      obtain ⟨rest, ends⟩ := List.append_inj' same rfl
      obtain rfl := List.cons.inj ends |>.1
      obtain ⟨state, left, right⟩ := ih rest
      exact ⟨state, left, by
        rw [List.concat_eq_append]
        exact right.snoc last⟩

/-- A run without labels goes nowhere. -/
theorem eq_of_nil (run : Run step start [] final) : final = start := by
  generalize same : ([] : List ε) = events at run
  cases run with
  | nil => rfl
  | snoc => simp at same

/-- A run that begins with a label begins with a step. -/
theorem head {event : ε} {rest : List ε} (run : Run step start (event :: rest) final) :
    ∃ middle, step start event middle ∧ Run step middle rest final := by
  obtain ⟨middle, first, later⟩ :=
    (show Run step start ([event] ++ rest) final from run).split
  obtain ⟨_, before, step⟩ := (show Run step start ([] ++ [event]) middle from first).last
  obtain rfl := before.eq_of_nil
  exact ⟨middle, step, later⟩

/-- A property that is kept by the steps that are good holds after a run whose steps are. -/
theorem along (property : σ → Prop) (good : σ → ε → σ → Prop) (initial : property start)
    (kept : ∀ before event after, property before → step before event after →
      good before event after → property after)
    {events : List ε} (run : Run step start events final)
    (all : ∀ first event rest before after, events = first ++ event :: rest →
      Run step start first before → step before event after → good before event after) :
    property final := by
  induction run with
  | nil => exact initial
  | snoc before last ih =>
    rename_i events middle final event
    have earlier : property middle := ih fun first other rest state next same =>
      all first other (rest ++ [event]) state next (by simp [same])
    exact kept _ _ _ earlier last (all events event [] _ _ rfl before last)

end Run
