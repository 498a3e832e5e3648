import QsolFed.Library.Checked

/-!
# Computations that can be interrupted

A computation that reads a state, changes it in steps, and may fail. What it changed before a
failure stays changed, and it can be stopped between any two of its steps. `run` is the result of
a computation that is not stopped; `states` lists every state in which it can be stopped.
-/
universe u v w

/-- A computation over a state that may fail. -/
inductive Effect (σ : Type u) (ε : Type v) (α : Type w) where
  /-- The computation is over. -/
  | done (result : Except ε α)
  /-- The state is changed, and what follows depends on the state before. -/
  | step (write : σ → σ) (next : σ → Effect σ ε α)

namespace Effect

variable {σ : Type u} {ε : Type v} {α β : Type w}

/-- One computation after another. -/
def bind : Effect σ ε α → (α → Effect σ ε β) → Effect σ ε β
  | .done (.ok value), second => second value
  | .done (.error error), _ => .done (.error error)
  | .step write next, second => .step write fun state => (next state).bind second

instance : Monad (Effect σ ε) where
  pure value := .done (.ok value)
  bind := bind

/-- A computation that only checks something. -/
def check (checked : Except ε α) : Effect σ ε α := .done checked

/-- One step that changes the state after its checks, or fails and changes nothing. -/
def atomic (operation : σ → Except ε (α × σ)) : Effect σ ε α :=
  .step (fun state => match operation state with
      | .ok (_, next) => next
      | .error _ => state)
    fun state => .done ((operation state).map Prod.fst)

/-- A computation that only reads the state. -/
def read (query : σ → Except ε α) : Effect σ ε α := .step id fun state => .done (query state)

/-- One change of the state. -/
def modify (change : σ → σ) : Effect σ ε PUnit := .step change fun _ => .done (.ok ⟨⟩)

/-- A computation over a part of a state, its refusals translated. -/
def within {τ : Type u} {ε' : Type v} (get : τ → σ) (put : σ → τ → τ) (translate : ε → ε') :
    Effect σ ε α → Effect τ ε' α
  | .done result => .done (result.mapError translate)
  | .step write next => .step (fun whole => put (write (get whole)) whole)
      fun whole => (next (get whole)).within get put translate

/-- The result of a computation and the state that it leaves. -/
def run : Effect σ ε α → σ → Except ε α × σ
  | .done result, state => (result, state)
  | .step write next, state => (next state).run (write state)

/-- The states in which a computation can be stopped, in order. -/
def states : Effect σ ε α → σ → List σ
  | .done _, state => [state]
  | .step write next, state => state :: (next state).states (write state)

/-- A computation for each value of a list, in order. -/
def forEach {γ : Type w} (each : γ → Effect σ ε α) : List γ → Effect σ ε (List α)
  | [] => pure []
  | value :: rest => do
    let first ← each value
    let others ← forEach each rest
    pure (first :: others)

/-! ## Results -/

/-- The result of a finished computation. -/
@[simp] theorem run_pure (value : α) (state : σ) :
    (pure value : Effect σ ε α).run state = (.ok value, state) := rfl

/-- The result of a check. -/
@[simp] theorem run_check (checked : Except ε α) (state : σ) :
    (check checked : Effect σ ε α).run state = (checked, state) := rfl

/-- The result of reading. -/
@[simp] theorem run_read (query : σ → Except ε α) (state : σ) :
    (read query).run state = (query state, state) := rfl

/-- The result of a change. -/
@[simp] theorem run_modify (change : σ → σ) (state : σ) :
    (modify change : Effect σ ε PUnit).run state = (.ok ⟨⟩, change state) := rfl

/-- An atomic step succeeds exactly when its operation does. -/
theorem run_atomic_ok_iff (operation : σ → Except ε (α × σ)) (state : σ) (value : α) (final : σ) :
    (atomic operation).run state = (.ok value, final) ↔ operation state = .ok (value, final) := by
  cases found : operation state with
  | error error => simp [atomic, run, found, Except.map]
  | ok result => simp [atomic, run, found, Except.map, Prod.ext_iff]

/-- An atomic step that fails changes nothing. -/
theorem run_atomic_error_iff (operation : σ → Except ε (α × σ)) (state : σ) (error : ε)
    (final : σ) : (atomic operation).run state = (.error error, final) ↔
      operation state = .error error ∧ state = final := by
  cases found : operation state with
  | error error => simp [atomic, run, found, Except.map]
  | ok result => simp [atomic, run, found, Except.map]

/-- The result of an atomic step. -/
theorem run_atomic (operation : σ → Except ε (α × σ)) (state : σ) :
    (atomic operation).run state = match operation state with
      | .ok (value, next) => (.ok value, next)
      | .error error => (.error error, state) := by
  cases found : operation state with
  | error error => simp [atomic, run, found, Except.map]
  | ok result => simp [atomic, run, found, Except.map]

/-- Changing the result of a computation changes nothing else. -/
theorem run_map (change : α → β) (computation : Effect σ ε α) (state : σ) :
    (change <$> computation).run state =
      ((computation.run state).1.map change, (computation.run state).2) := by
  change (computation.bind fun value => .done (.ok (change value))).run state = _
  induction computation generalizing state with
  | done result => cases result <;> rfl
  | step write next ih => exact ih state (write state)

/-- A computation whose result is changed ran as the computation does. -/
theorem run_of_run_map {change : α → β} {computation : Effect σ ε α} {state final : σ}
    {result : Except ε β} (ran : (change <$> computation).run state = (result, final)) :
    ∃ inner, computation.run state = (inner, final) ∧ result = inner.map change := by
  rw [run_map] at ran
  obtain ⟨rfl, rfl⟩ := Prod.mk.inj ran
  exact ⟨_, rfl, rfl⟩

/-- An atomic step whose result is changed fails and changes nothing, or its operation succeeds. -/
theorem run_map_atomic_cases {change : α → β} {operation : σ → Except ε (α × σ)} {state final : σ}
    {result : Except ε β} (ran : (change <$> atomic operation).run state = (result, final)) :
    (∃ error, result = .error error ∧ final = state) ∨
      ∃ value, operation state = .ok (value, final) ∧ result = .ok (change value) := by
  rw [run_map, run_atomic] at ran
  cases operated : operation state with
  | error error =>
    simp only [operated] at ran
    obtain ⟨failed, rfl⟩ := Prod.mk.inj ran
    exact .inl ⟨error, failed.symm, rfl⟩
  | ok outcome =>
    simp only [operated] at ran
    obtain ⟨succeeded, rfl⟩ := Prod.mk.inj ran
    exact .inr ⟨outcome.1, rfl, succeeded.symm⟩

/-- The result of two computations in order. -/
theorem run_bind (first : Effect σ ε α) (second : α → Effect σ ε β) (state : σ) :
    (first >>= second).run state = match first.run state with
      | (.ok value, middle) => (second value).run middle
      | (.error error, middle) => (.error error, middle) := by
  change (first.bind second).run state = _
  induction first generalizing state with
  | done result => cases result <;> rfl
  | step write next ih => exact ih state (write state)

/-- Two computations in order succeed exactly when each does. -/
theorem run_bind_ok_iff (first : Effect σ ε α) (second : α → Effect σ ε β) (state : σ) (value : β)
    (final : σ) : (first >>= second).run state = (.ok value, final) ↔
      ∃ middleValue middle, first.run state = (.ok middleValue, middle) ∧
        (second middleValue).run middle = (.ok value, final) := by
  rw [run_bind]
  rcases ran : first.run state with ⟨result, middle⟩
  cases result <;> simp

/-- Two computations in order fail as the first one does, or end as the second one does. -/
theorem run_bind_cases {first : Effect σ ε α} {second : α → Effect σ ε β} {state final : σ}
    {answer : Except ε β} (ran : (first >>= second).run state = (answer, final)) :
    (∃ error, first.run state = (.error error, final) ∧ answer = .error error) ∨
      ∃ value middle, first.run state = (.ok value, middle) ∧
        (second value).run middle = (answer, final) := by
  rw [run_bind] at ran
  rcases found : first.run state with ⟨result, middle⟩
  rw [found] at ran
  cases result with
  | error error =>
    obtain ⟨rfl, rfl⟩ := Prod.mk.inj ran
    exact .inl ⟨error, rfl, rfl⟩
  | ok value => exact .inr ⟨value, middle, rfl, ran⟩

/-- A computation after a check is refused there, or ends as it does. -/
theorem run_check_cases {checked : Except ε α} {second : α → Effect σ ε β} {state final : σ}
    {answer : Except ε β} (ran : (check checked >>= second).run state = (answer, final)) :
    (∃ error, checked = .error error ∧ answer = .error error ∧ final = state) ∨
      ∃ value, checked = .ok value ∧ (second value).run state = (answer, final) := by
  rcases run_bind_cases ran with ⟨error, found, refused⟩ | ⟨value, middle, found, later⟩
  · obtain ⟨checked, rfl⟩ := Prod.mk.inj found
    exact .inl ⟨error, checked, refused, rfl⟩
  · obtain ⟨checked, rfl⟩ := Prod.mk.inj found
    exact .inr ⟨value, checked, later⟩

/-- A computation after reading is refused there, or ends as it does. -/
theorem run_read_cases {query : σ → Except ε α} {second : α → Effect σ ε β} {state final : σ}
    {answer : Except ε β} (ran : (read query >>= second).run state = (answer, final)) :
    (∃ error, query state = .error error ∧ answer = .error error ∧ final = state) ∨
      ∃ value, query state = .ok value ∧ (second value).run state = (answer, final) := by
  rcases run_bind_cases ran with ⟨error, found, refused⟩ | ⟨value, middle, found, later⟩
  · obtain ⟨read, rfl⟩ := Prod.mk.inj found
    exact .inl ⟨error, read, refused, rfl⟩
  · obtain ⟨read, rfl⟩ := Prod.mk.inj found
    exact .inr ⟨value, read, later⟩

/-- A computation after a check runs from the same state. -/
theorem run_check_bind (checked : Except ε α) (second : α → Effect σ ε β) (state : σ) :
    (check checked >>= second).run state = match checked with
      | .ok value => (second value).run state
      | .error error => (.error error, state) := by
  rw [run_bind, run_check]
  cases checked <;> rfl

/-- A computation after reading runs from the same state. -/
theorem run_read_bind (query : σ → Except ε α) (second : α → Effect σ ε β) (state : σ) :
    (read query >>= second).run state = match query state with
      | .ok value => (second value).run state
      | .error error => (.error error, state) := by
  rw [run_bind, run_read]
  cases query state <;> rfl

/-- A computation with a changed result succeeds exactly when the computation does. -/
theorem run_map_ok_iff (change : α → β) (computation : Effect σ ε α) (state : σ) (value : β)
    (final : σ) : (change <$> computation).run state = (.ok value, final) ↔
      ∃ result, computation.run state = (.ok result, final) ∧ change result = value := by
  rw [run_map]
  rcases computation.run state with ⟨result, next⟩
  cases result with
  | error => simp
  | ok result => simp [Prod.ext_iff, and_comm]

/-- A computation after a check succeeds exactly when both do. -/
theorem run_check_bind_ok_iff (checked : Except ε α) (second : α → Effect σ ε β) (state : σ)
    (value : β) (final : σ) : (check checked >>= second).run state = (.ok value, final) ↔
      ∃ result, checked = .ok result ∧ (second result).run state = (.ok value, final) := by
  rw [run_check_bind]
  cases checked <;> simp

/-- A computation after reading succeeds exactly when both do. -/
theorem run_read_bind_ok_iff (query : σ → Except ε α) (second : α → Effect σ ε β) (state : σ)
    (value : β) (final : σ) : (read query >>= second).run state = (.ok value, final) ↔
      ∃ result, query state = .ok result ∧ (second result).run state = (.ok value, final) := by
  rw [run_bind, run_read]
  cases query state <;> simp

/-- A computation after a change runs from the changed state. -/
theorem run_modify_bind {β : Type w} (change : σ → σ) (second : PUnit → Effect σ ε β) (state : σ) :
    (modify change >>= second).run state = (second ⟨⟩).run (change state) := rfl

/-- The outcome of an operation that replaces the state as a whole, or fails and keeps it. -/
def settle (state : σ) : Except ε σ → Except ε PUnit.{u + 1} × σ
  | .ok next => (.ok ⟨⟩, next)
  | .error error => (.error error, state)

/-- A computation that checks first settles as an operation that checks first does. -/
theorem run_check_settle {β : Type u} (checked : Except ε β)
    {second : β → Effect σ ε PUnit.{u + 1}} {operation : β → Except ε σ} {state : σ}
    (rest : ∀ value, checked = .ok value →
      (second value).run state = settle state (operation value)) :
    (check checked >>= second).run state = settle state (checked >>= operation) := by
  rw [run_check_bind]
  cases checked with
  | error error => rfl
  | ok value => exact rest value rfl

/-- The laws of a part of a state. -/
structure Part {τ : Type u} (get : τ → σ) (put : σ → τ → τ) : Prop where
  /-- What was put is got. -/
  get_put : ∀ part whole, get (put part whole) = part
  /-- The second of two parts that are put stays. -/
  put_put : ∀ first second whole, put second (put first whole) = put second whole

/-- The result of a computation over a part of a state. -/
theorem run_within {τ : Type u} {ε' : Type v} {get : τ → σ} {put : σ → τ → τ}
    (part : Part get put) (translate : ε → ε') (computation : Effect σ ε α) {whole : τ}
    (here : put (get whole) whole = whole) :
    (computation.within get put translate).run whole =
      ((computation.run (get whole)).1.mapError translate,
        put (computation.run (get whole)).2 whole) := by
  induction computation generalizing whole with
  | done result => simp only [within, run, here]
  | step write next ih =>
    simp only [within, run]
    have after : put (get (put (write (get whole)) whole)) (put (write (get whole)) whole) =
        put (write (get whole)) whole := by
      rw [part.get_put, part.put_put]
    rw [ih _ after, part.get_put, part.put_put]

/-- A check that passes hands its value on. -/
theorem check_ok_bind (value : α) (second : α → Effect σ ε β) :
    (check (.ok value) >>= second) = second value := rfl

/-- The order of three computations does not depend on how they are grouped. -/
theorem bind_assoc {γ : Type w} (first : Effect σ ε α) (second : α → Effect σ ε β)
    (third : β → Effect σ ε γ) :
    ((first >>= second) >>= third) = first >>= fun value => second value >>= third := by
  change (first.bind second).bind third = first.bind fun value => (second value).bind third
  induction first with
  | done result => cases result <;> rfl
  | step write next ih =>
    simp only [bind]
    congr 1
    funext state
    exact ih state

/-- A finished computation hands its value on. -/
theorem pure_bind (value : α) (second : α → Effect σ ε β) :
    ((pure value : Effect σ ε α) >>= second) = second value := rfl

/-- Computations in order over a part of a state. -/
theorem within_bind {τ : Type u} {ε' : Type v} (get : τ → σ) (put : σ → τ → τ)
    (translate : ε → ε') (first : Effect σ ε α) (second : α → Effect σ ε β) :
    (first >>= second).within get put translate =
      first.within get put translate >>= fun value => (second value).within get put translate := by
  change (first.bind second).within get put translate =
    (first.within get put translate).bind fun value => (second value).within get put translate
  induction first with
  | done result => cases result <;> rfl
  | step write next ih =>
    simp only [bind, within]
    congr 1
    funext whole
    exact ih (get whole)

/-! ## States in between -/

/-- A computation starts in the first state. -/
theorem start_mem_states (computation : Effect σ ε α) (state : σ) :
    state ∈ computation.states state := by
  cases computation with
  | done => exact List.mem_singleton_self state
  | step => exact List.mem_cons_self

/-- A computation ends in one of its states. -/
theorem run_mem_states (computation : Effect σ ε α) (state : σ) :
    (computation.run state).2 ∈ computation.states state := by
  induction computation generalizing state with
  | done => exact List.mem_singleton_self state
  | step write next ih => exact List.mem_cons_of_mem _ (ih state (write state))

/-- Two computations in order are stopped in the first one or in the second one. -/
theorem mem_states_bind (first : Effect σ ε α) (second : α → Effect σ ε β) (state stopped : σ) :
    stopped ∈ (first >>= second).states state ↔
      stopped ∈ first.states state ∨ ∃ value middle, first.run state = (.ok value, middle) ∧
        stopped ∈ (second value).states middle := by
  change stopped ∈ (first.bind second).states state ↔ _
  induction first generalizing state with
  | done result =>
    cases result with
    | error error => simp [bind, states, run]
    | ok value =>
      simp only [bind, states, run, List.mem_singleton, Prod.mk.injEq, Except.ok.injEq]
      constructor
      · intro member
        exact .inr ⟨value, state, ⟨rfl, rfl⟩, member⟩
      · rintro (rfl | ⟨_, _, ⟨rfl, rfl⟩, member⟩)
        · exact start_mem_states _ _
        · exact member
  | step write next ih =>
    simp only [bind, states, run, List.mem_cons, or_assoc]
    exact or_congr Iff.rfl (ih state (write state))

/-- A computation over a part of a state is stopped where the computation over the part is. -/
theorem states_within {τ : Type u} {ε' : Type v} {get : τ → σ} {put : σ → τ → τ}
    (part : Part get put) (translate : ε → ε') (computation : Effect σ ε α) {whole : τ}
    (here : put (get whole) whole = whole) :
    (computation.within get put translate).states whole =
      (computation.states (get whole)).map fun state => put state whole := by
  induction computation generalizing whole with
  | done result => simp only [within, states, List.map_cons, List.map_nil, here]
  | step write next ih =>
    simp only [within, states, List.map_cons, here]
    have after : put (get (put (write (get whole)) whole)) (put (write (get whole)) whole) =
        put (write (get whole)) whole := by
      rw [part.get_put, part.put_put]
    rw [ih _ after, part.get_put]
    simp only [part.put_put]

/-- A finished computation is stopped in its state. -/
theorem states_pure (value : α) (state : σ) :
    (pure value : Effect σ ε α).states state = [state] := rfl

/-- A computation that begins with reading goes on from the same state. -/
theorem read_bind {query : σ → Except ε α} {state : σ} {value : α} (second : α → Effect σ ε β)
    (found : query state = .ok value) :
    (read query >>= second).run state = (second value).run state ∧
      (read query >>= second).states state = state :: (second value).states state := by
  have next : (read query >>= second) =
      .step id fun state => (done (query state)).bind second := rfl
  rw [next]
  simp only [run, states, found]
  exact ⟨rfl, rfl⟩

/-- A computation that begins with an atomic step goes on from the state after it. -/
theorem atomic_bind {operation : σ → Except ε (α × σ)} {state next : σ} {value : α}
    (second : α → Effect σ ε β) (done_ : operation state = .ok (value, next)) :
    (atomic operation >>= second).run state = (second value).run next ∧
      (atomic operation >>= second).states state = state :: (second value).states next := by
  have shape : (atomic operation >>= second) = .step (fun state => match operation state with
      | .ok (_, next) => next
      | .error _ => state)
      fun state => (done ((operation state).map Prod.fst)).bind second := rfl
  rw [shape]
  simp only [run, states, done_]
  exact ⟨rfl, rfl⟩

/-- A computation that begins with a step that fails is over. -/
theorem atomic_bind_error {operation : σ → Except ε (α × σ)} {state : σ} {error : ε}
    (second : α → Effect σ ε β) (failed : operation state = .error error) :
    (atomic operation >>= second).run state = (.error error, state) ∧
      (atomic operation >>= second).states state = [state, state] := by
  have shape : (atomic operation >>= second) = .step (fun state => match operation state with
      | .ok (_, next) => next
      | .error _ => state)
      fun state => (done ((operation state).map Prod.fst)).bind second := rfl
  rw [shape]
  simp only [run, states, failed]
  exact ⟨rfl, rfl⟩

/-- A computation that begins with reading what cannot be read is over. -/
theorem read_bind_error {query : σ → Except ε α} {state : σ} {error : ε}
    (second : α → Effect σ ε β) (failed : query state = .error error) :
    (read query >>= second).run state = (.error error, state) ∧
      (read query >>= second).states state = [state, state] := by
  have shape : (read query >>= second) =
      .step id fun state => (done (query state)).bind second := rfl
  rw [shape]
  simp only [run, states, failed]
  exact ⟨rfl, rfl⟩

/-! ## Loops -/

section Loops

variable {γ : Type w} (each : γ → Effect σ ε α)

/-- A loop over one more value. -/
theorem run_forEach_cons_ok_iff (value : γ) (rest : List γ) (state : σ) (results : List α)
    (final : σ) : (forEach each (value :: rest)).run state = (.ok results, final) ↔
      ∃ first middle others, (each value).run state = (.ok first, middle) ∧
        (forEach each rest).run middle = (.ok others, final) ∧ results = first :: others := by
  simp only [forEach, run_bind_ok_iff, run_pure, Prod.mk.injEq, Except.ok.injEq]
  constructor
  · rintro ⟨first, middle, one, others, _, more, rfl, rfl⟩
    exact ⟨first, middle, others, one, more, rfl⟩
  · rintro ⟨first, middle, others, one, more, rfl⟩
    exact ⟨first, middle, one, others, final, more, rfl, rfl⟩

/-- A loop over two lists in order. -/
theorem run_forEach_append_ok_iff (left right : List γ) (state : σ) (final : σ) :
    (∃ results, (forEach each (left ++ right)).run state = (.ok results, final)) ↔
      ∃ middle, (∃ results, (forEach each left).run state = (.ok results, middle)) ∧
        ∃ results, (forEach each right).run middle = (.ok results, final) := by
  induction left generalizing state with
  | nil =>
    constructor
    · intro ran
      exact ⟨state, ⟨[], rfl⟩, ran⟩
    · rintro ⟨middle, ⟨results, same⟩, ran⟩
      obtain ⟨-, rfl⟩ := Prod.mk.inj same
      exact ran
  | cons value rest ih =>
    simp only [List.cons_append, run_forEach_cons_ok_iff]
    constructor
    · rintro ⟨-, first, middle, others, one, more, -⟩
      obtain ⟨between, ⟨results, left⟩, right⟩ := (ih middle).mp ⟨others, more⟩
      exact ⟨between, ⟨_, first, middle, results, one, left, rfl⟩, right⟩
    · rintro ⟨between, ⟨-, first, middle, others, one, left, -⟩, right⟩
      obtain ⟨results, more⟩ := (ih middle).mpr ⟨between, ⟨others, left⟩, right⟩
      exact ⟨_, first, middle, results, one, more, rfl⟩

/-- A loop fails exactly when it gets to a value that fails. -/
theorem run_forEach_error_iff (values : List γ) (state : σ) (error : ε) (final : σ) :
    (forEach each values).run state = (.error error, final) ↔
      ∃ before value after middle, values = before ++ value :: after ∧
        (∃ results, (forEach each before).run state = (.ok results, middle)) ∧
        (each value).run middle = (.error error, final) := by
  induction values generalizing state with
  | nil =>
    constructor
    · intro ran
      cases (Prod.mk.inj ran).1
    · rintro ⟨before, value, after, middle, same, -⟩
      simp at same
  | cons head rest ih =>
    rcases ran : (each head).run state with ⟨result, between⟩
    cases result with
    | error failure =>
      simp only [forEach, run_bind, ran, Prod.mk.injEq, Except.error.injEq]
      constructor
      · rintro ⟨rfl, rfl⟩
        exact ⟨[], head, rest, state, rfl, ⟨[], rfl⟩, ran⟩
      · rintro ⟨before, value, after, middle, same, ⟨results, earlier⟩, failed⟩
        cases before with
        | nil =>
          obtain ⟨rfl, rfl⟩ := List.cons.inj same
          obtain ⟨-, rfl⟩ := Prod.mk.inj earlier
          rw [ran] at failed
          obtain ⟨failure, rfl⟩ := Prod.mk.inj failed
          exact ⟨Except.error.inj failure, rfl⟩
        | cons other more =>
          obtain ⟨rfl, -⟩ := List.cons.inj same
          obtain ⟨first, _, _, one, -⟩ := (run_forEach_cons_ok_iff ..).mp earlier
          rw [ran] at one
          cases (Prod.mk.inj one).1
    | ok first =>
      have rests : (forEach each (head :: rest)).run state = (.error error, final) ↔
          (forEach each rest).run between = (.error error, final) := by
        simp only [forEach, run_bind, ran]
        rcases (forEach each rest).run between with ⟨outcome, last⟩
        cases outcome <;> simp
      rw [rests, ih between]
      constructor
      · rintro ⟨before, value, after, middle, rfl, ⟨results, earlier⟩, failed⟩
        exact ⟨head :: before, value, after, middle, rfl, ⟨first :: results,
          (run_forEach_cons_ok_iff ..).mpr ⟨first, between, results, ran, earlier, rfl⟩⟩, failed⟩
      · rintro ⟨before, value, after, middle, same, ⟨results, earlier⟩, failed⟩
        cases before with
        | nil =>
          obtain ⟨rfl, rfl⟩ := List.cons.inj same
          obtain ⟨-, rfl⟩ := Prod.mk.inj earlier
          rw [ran] at failed
          cases (Prod.mk.inj failed).1
        | cons other more =>
          obtain ⟨rfl, rfl⟩ := List.cons.inj same
          obtain ⟨value', middle', others, one, more', -⟩ :=
            (run_forEach_cons_ok_iff ..).mp earlier
          rw [ran] at one
          obtain ⟨-, rfl⟩ := Prod.mk.inj one
          exact ⟨more, value, after, middle, rfl, ⟨others, more'⟩, failed⟩

/-- A loop is stopped at its end or in the computation for one of the values. -/
theorem mem_states_forEach (values : List γ) (state stopped : σ) :
    stopped ∈ (forEach each values).states state ↔
      (∃ results, (forEach each values).run state = (.ok results, stopped)) ∨
      ∃ before value after middle, values = before ++ value :: after ∧
        (∃ results, (forEach each before).run state = (.ok results, middle)) ∧
        stopped ∈ (each value).states middle := by
  induction values generalizing state with
  | nil =>
    simp only [forEach, states_pure, run_pure, List.mem_singleton, Prod.mk.injEq]
    constructor
    · rintro rfl
      exact .inl ⟨[], rfl, rfl⟩
    · rintro (⟨results, -, rfl⟩ | ⟨before, value, after, middle, same, -⟩)
      · rfl
      · simp at same
  | cons head rest ih =>
    simp only [forEach, mem_states_bind]
    constructor
    · rintro (here | ⟨first, between, ran, later | ⟨others, last, rests, member⟩⟩)
      · exact .inr ⟨[], head, rest, state, rfl, ⟨[], rfl⟩, here⟩
      · rcases (ih between).mp later with
          ⟨results, done⟩ | ⟨before, value, after, middle, rfl, ⟨results, earlier⟩, member⟩
        · exact .inl ⟨first :: results,
            (run_forEach_cons_ok_iff ..).mpr ⟨first, between, results, ran, done, rfl⟩⟩
        · exact .inr ⟨head :: before, value, after, middle, rfl, ⟨first :: results,
            (run_forEach_cons_ok_iff ..).mpr ⟨first, between, results, ran, earlier, rfl⟩⟩, member⟩
      · rw [states_pure, List.mem_singleton] at member
        subst member
        exact .inl ⟨first :: others,
          (run_forEach_cons_ok_iff ..).mpr ⟨first, between, others, ran, rests, rfl⟩⟩
    · rintro (⟨results, done⟩ | ⟨before, value, after, middle, same, ⟨results, earlier⟩, member⟩)
      · obtain ⟨first, between, others, ran, rests, -⟩ := (run_forEach_cons_ok_iff ..).mp done
        refine .inr ⟨first, between, ran, .inl ((ih between).mpr (.inl ⟨others, rests⟩))⟩
      · cases before with
        | nil =>
          obtain ⟨rfl, rfl⟩ := List.cons.inj same
          obtain ⟨-, rfl⟩ := Prod.mk.inj earlier
          exact .inl member
        | cons other more =>
          obtain ⟨rfl, rfl⟩ := List.cons.inj same
          obtain ⟨first, between, others, ran, rests, -⟩ :=
            (run_forEach_cons_ok_iff ..).mp earlier
          exact .inr ⟨first, between, ran, .inl ((ih between).mpr
            (.inr ⟨more, value, after, middle, rfl, ⟨others, rests⟩, member⟩))⟩

/-- What holds of a state and is kept for each value holds after a loop that succeeds. -/
theorem forEach_invariant (property : σ → Prop) {values : List γ}
    (kept : ∀ value ∈ values, ∀ state result final, property state →
      (each value).run state = (.ok result, final) → property final)
    {state final : σ} {results : List α} (start : property state)
    (ran : (forEach each values).run state = (.ok results, final)) : property final := by
  induction values generalizing state results with
  | nil =>
    obtain ⟨-, rfl⟩ := Prod.mk.inj ran
    exact start
  | cons head rest ih =>
    obtain ⟨first, middle, others, one, more, -⟩ := (run_forEach_cons_ok_iff ..).mp ran
    exact ih (fun value member => kept value (List.mem_cons_of_mem _ member))
      (kept head List.mem_cons_self state first middle start one) more

end Loops

/-! ## Growth -/

/-- Every state in which a computation can be stopped lies between the first state and the last
one. -/
def Between (relation : σ → σ → Prop) (computation : Effect σ ε α) : Prop :=
  ∀ state, ∀ stopped ∈ computation.states state,
    relation state stopped ∧ relation stopped (computation.run state).2

section Growth

variable {relation : σ → σ → Prop}

/-- A computation leaves a state that is related to the first one. -/
theorem Between.run {computation : Effect σ ε α} (between : Between relation computation)
    (state : σ) : relation state (computation.run state).2 :=
  (between state _ (run_mem_states computation state)).1

/-- A computation that changes nothing. -/
theorem between_done (refl : ∀ state, relation state state) (result : Except ε α) :
    Between relation (done result : Effect σ ε α) := by
  intro state stopped member
  cases List.mem_singleton.mp member
  exact ⟨refl state, refl state⟩

/-- A computation that reads the state. -/
theorem between_read (refl : ∀ state, relation state state) (query : σ → Except ε α) :
    Between relation (read query) := by
  intro state stopped member
  have only : stopped = state := by simpa [read, states] using member
  subst only
  exact ⟨refl stopped, refl stopped⟩

/-- One change of the state. -/
theorem between_modify (refl : ∀ state, relation state state) {change : σ → σ}
    (changed : ∀ state, relation state (change state)) :
    Between relation (modify change : Effect σ ε PUnit) := by
  intro state stopped member
  have listed : stopped = state ∨ stopped = change state := by
    simpa [modify, states] using member
  rcases listed with rfl | rfl
  · exact ⟨refl stopped, changed stopped⟩
  · exact ⟨changed state, refl _⟩

/-- One computation after another. -/
theorem Between.bind (trans : ∀ one two three, relation one two → relation two three →
    relation one three) {first : Effect σ ε α} {second : α → Effect σ ε β}
    (one : Between relation first) (two : ∀ value, Between relation (second value)) :
    Between relation (first >>= second) := by
  intro state stopped member
  rcases (mem_states_bind ..).mp member with early | ⟨value, middle, ran, late⟩
  · obtain ⟨before, after⟩ := one state stopped early
    refine ⟨before, ?_⟩
    rw [run_bind]
    rcases ran : first.run state with ⟨result, middle⟩
    rw [ran] at after
    cases result with
    | error => exact after
    | ok value => exact trans _ _ _ after ((two value).run middle)
  · have before := one.run state
    rw [ran] at before
    obtain ⟨start, rest⟩ := two value middle stopped late
    rw [run_bind, ran]
    exact ⟨trans _ _ _ before start, rest⟩

/-- A loop. -/
theorem between_forEach (refl : ∀ state, relation state state)
    (trans : ∀ one two three, relation one two → relation two three → relation one three)
    {γ : Type w} {each : γ → Effect σ ε α} {values : List γ}
    (between : ∀ value ∈ values, Between relation (each value)) :
    Between relation (forEach each values) := by
  induction values with
  | nil => exact between_done refl _
  | cons value rest ih =>
    refine Between.bind trans (between value List.mem_cons_self) fun first => ?_
    refine Between.bind trans (ih fun other member => between other (List.mem_cons_of_mem _ member))
      fun others => ?_
    exact between_done refl _

end Growth

/-! ## What is kept in between -/

/-- A property is kept: every state in which a computation can be stopped has it when the first one
does. -/
def Keeps (property : σ → Prop) (computation : Effect σ ε α) : Prop :=
  ∀ state, property state → ∀ stopped ∈ computation.states state, property stopped

section Keeping

variable {property : σ → Prop}

/-- A computation that changes nothing keeps every property. -/
theorem keeps_done (result : Except ε α) : Keeps property (done result : Effect σ ε α) := by
  intro state kept stopped member
  cases List.mem_singleton.mp member
  exact kept

/-- One change of the state that keeps a property. -/
theorem keeps_modify {change : σ → σ} (changed : ∀ state, property state → property (change state)) :
    Keeps property (modify change : Effect σ ε PUnit) := by
  intro state kept stopped member
  have listed : stopped = state ∨ stopped = change state := by
    simpa [modify, states] using member
  rcases listed with rfl | rfl
  · exact kept
  · exact changed state kept

/-- One computation after another. -/
theorem Keeps.bind {first : Effect σ ε α} {second : α → Effect σ ε β}
    (one : Keeps property first) (two : ∀ value, Keeps property (second value)) :
    Keeps property (first >>= second) := by
  intro state kept stopped member
  rcases (mem_states_bind ..).mp member with early | ⟨value, middle, ran, late⟩
  · exact one state kept stopped early
  · have before := one state kept _ (run_mem_states first state)
    rw [ran] at before
    exact two value middle before stopped late

/-- A computation after a check keeps what it keeps for the value that is checked. -/
theorem keeps_check_bind {checked : Except ε α} {second : α → Effect σ ε β}
    (later : ∀ value, checked = .ok value → Keeps property (second value)) :
    Keeps property (check checked >>= second) := by
  intro state kept stopped member
  rcases (mem_states_bind ..).mp member with early | ⟨value, middle, ran, late⟩
  · exact keeps_done checked state kept stopped early
  · obtain ⟨passed, rfl⟩ := Prod.mk.inj ran
    exact later value passed state kept stopped late

/-- A computation after reading keeps what it keeps for the values that are read in such states. -/
theorem keeps_read_bind {query : σ → Except ε α} {second : α → Effect σ ε β}
    (later : ∀ state value, property state → query state = .ok value →
      Keeps property (second value)) : Keeps property (read query >>= second) := by
  intro state kept stopped member
  rcases (mem_states_bind ..).mp member with early | ⟨value, middle, ran, late⟩
  · have only : stopped = state := by simpa [read, states] using early
    rwa [only]
  · obtain ⟨found, rfl⟩ := Prod.mk.inj ran
    exact later state value kept found state kept stopped late

/-- A loop. -/
theorem keeps_forEach {γ : Type w} {each : γ → Effect σ ε α} {values : List γ}
    (kept : ∀ value ∈ values, Keeps property (each value)) :
    Keeps property (forEach each values) := by
  induction values with
  | nil => exact keeps_done _
  | cons value rest ih =>
    refine Keeps.bind (kept value List.mem_cons_self) fun first => ?_
    refine Keeps.bind (ih fun other member => kept other (List.mem_cons_of_mem _ member))
      fun others => ?_
    exact keeps_done _

end Keeping

/-! ## Refusals -/

/-- A computation that changes nothing. -/
def Quiet (computation : Effect σ ε α) : Prop := ∀ state, (computation.run state).2 = state

/-- A computation that never fails. -/
def Sure (computation : Effect σ ε α) : Prop :=
  ∀ state, ∃ value final, computation.run state = (.ok value, final)

/-- A computation that changes nothing when it fails. -/
def Clean (computation : Effect σ ε α) : Prop :=
  ∀ state error final, computation.run state = (.error error, final) → final = state

section Refusals

/-- A check changes nothing. -/
theorem quiet_check (checked : Except ε α) : Quiet (check checked : Effect σ ε α) := fun _ => rfl

/-- Reading changes nothing. -/
theorem quiet_read (query : σ → Except ε α) : Quiet (read query) := fun _ => rfl

/-- A finished computation does not fail. -/
theorem sure_pure (value : α) : Sure (pure value : Effect σ ε α) := fun state => ⟨value, state, rfl⟩

/-- A change does not fail. -/
theorem sure_modify (change : σ → σ) : Sure (modify change : Effect σ ε PUnit) :=
  fun state => ⟨⟨⟩, change state, rfl⟩

/-- Computations that do not fail do not fail in order. -/
theorem Sure.bind {first : Effect σ ε α} {second : α → Effect σ ε β} (one : Sure first)
    (two : ∀ value, Sure (second value)) : Sure (first >>= second) := by
  intro state
  obtain ⟨value, middle, ran⟩ := one state
  rw [run_bind, ran]
  exact two value middle

/-- What never fails changes nothing when it fails. -/
theorem Sure.clean {computation : Effect σ ε α} (sure : Sure computation) : Clean computation := by
  intro state error final failed
  obtain ⟨value, next, ran⟩ := sure state
  rw [ran] at failed
  cases (Prod.mk.inj failed).1

/-- A check before a computation that changes nothing when it fails. -/
theorem Quiet.bind_clean {first : Effect σ ε α} {second : α → Effect σ ε β} (quiet : Quiet first)
    (clean : ∀ value, Clean (second value)) : Clean (first >>= second) := by
  intro state error final failed
  have same := quiet state
  rw [run_bind] at failed
  rcases ran : first.run state with ⟨result, middle⟩
  rw [ran] at failed same
  subst same
  cases result with
  | error => exact (Prod.mk.inj failed).2.symm
  | ok value => exact clean value middle error final failed

/-- Changing the result of a computation that changes nothing when it fails. -/
theorem Clean.map {computation : Effect σ ε α} (clean : Clean computation) (change : α → β) :
    Clean (change <$> computation) := by
  intro state error final failed
  rw [run_map] at failed
  rcases ran : computation.run state with ⟨result, next⟩
  rw [ran] at failed
  cases result with
  | error =>
    rw [← (Prod.mk.inj failed).2]
    exact clean state _ next ran
  | ok value => cases (Prod.mk.inj failed).1

/-- A computation leaves a state that is related to the first one. -/
def Leads (relation : σ → σ → Prop) (computation : Effect σ ε α) : Prop :=
  ∀ state, relation state (computation.run state).2

/-- A computation leaves a state that is related to the first one when it fails. -/
def Failing (relation : σ → σ → Prop) (computation : Effect σ ε α) : Prop :=
  ∀ state error final, computation.run state = (.error error, final) → relation state final

variable {relation : σ → σ → Prop}

/-- What changes nothing leaves a related state. -/
theorem Quiet.leads (refl : ∀ state, relation state state) {computation : Effect σ ε α}
    (quiet : Quiet computation) : Leads relation computation :=
  fun state => (quiet state).symm ▸ refl state

/-- What changes nothing when it fails leaves a related state then. -/
theorem Clean.failing (refl : ∀ state, relation state state) {computation : Effect σ ε α}
    (clean : Clean computation) : Failing relation computation :=
  fun state error final failed => clean state error final failed ▸ refl state

/-- One computation after another. -/
theorem Leads.bind (trans : ∀ one two three, relation one two → relation two three →
    relation one three) {first : Effect σ ε α} {second : α → Effect σ ε β}
    (one : Leads relation first) (two : ∀ value, Leads relation (second value)) :
    Leads relation (first >>= second) := by
  intro state
  have before := one state
  rw [run_bind]
  generalize first.run state = ran at before ⊢
  obtain ⟨result, middle⟩ := ran
  cases result with
  | error => exact before
  | ok value => exact trans _ _ _ before (two value middle)

/-- A loop. -/
theorem leads_forEach (refl : ∀ state, relation state state)
    (trans : ∀ one two three, relation one two → relation two three → relation one three)
    {γ : Type w} {each : γ → Effect σ ε α} {values : List γ}
    (leads : ∀ value ∈ values, Leads relation (each value)) :
    Leads relation (forEach each values) := by
  induction values with
  | nil => exact fun state => refl state
  | cons value rest ih =>
    refine Leads.bind trans (leads value List.mem_cons_self) fun first => ?_
    refine Leads.bind trans (ih fun other member => leads other (List.mem_cons_of_mem _ member))
      fun others => ?_
    exact fun state => refl state

/-- A computation before one that may fail. -/
theorem Leads.bind_failing (trans : ∀ one two three, relation one two → relation two three →
    relation one three) {first : Effect σ ε α} {second : α → Effect σ ε β}
    (one : Leads relation first) (two : ∀ value, Failing relation (second value)) :
    Failing relation (first >>= second) := by
  intro state error final failed
  have before := one state
  rw [run_bind] at failed
  rcases ran : first.run state with ⟨result, middle⟩
  rw [ran] at failed before
  cases result with
  | error => exact (Prod.mk.inj failed).2 ▸ before
  | ok value => exact trans _ _ _ before (two value middle error final failed)

/-- What follows a failure is not done. -/
theorem Failing.map {first : Effect σ ε α} (failing : Failing relation first) (value : β) :
    Failing relation (first >>= fun _ => pure value) := by
  intro state error final failed
  rw [run_bind] at failed
  rcases ran : first.run state with ⟨result, middle⟩
  rw [ran] at failed
  cases result with
  | error found => exact (Prod.mk.inj failed).2 ▸ failing state found middle ran
  | ok found => cases (Prod.mk.inj failed).1

end Refusals

end Effect
