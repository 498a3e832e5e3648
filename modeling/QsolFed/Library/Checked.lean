import Mathlib.Tactic.Common

/-!
# Fallible computations

Sequential checks over `Except`. A function that may refuse its input is written as a
chain of tests and bindings; the inversion laws here turn a successful run of such a chain
into the conjunction of everything that it checked, so that no proof unfolds a branch that
failed.
-/
namespace Checked

universe u v w

variable {ε : Type u} {ε' : Type v} {α β : Type w}

/-- Refuse with an error unless a condition holds. -/
def ensure (condition : Prop) [Decidable condition] (error : ε) : Except ε Unit :=
  if condition then .ok () else .error error

/-- A present value, or a refusal with an error. -/
def okOr (value : Option α) (error : ε) : Except ε α :=
  match value with
  | none => .error error
  | some value => .ok value

/-- A test passes exactly when its condition holds. -/
@[simp] theorem ensure_ok_iff (condition : Prop) [Decidable condition] (error : ε)
    (passed : Unit) : ensure condition error = .ok passed ↔ condition := by
  unfold ensure
  split <;> simp_all

/-- A test whose condition holds passes. -/
theorem ensure_pos {condition : Prop} [Decidable condition] (holds : condition) (error : ε) :
    ensure condition error = .ok () := if_pos holds

/-- A test whose condition fails refuses. -/
theorem ensure_neg {condition : Prop} [Decidable condition] (fails : ¬condition) (error : ε) :
    ensure condition error = .error error := if_neg fails

/-- A required value is present exactly when its option is. -/
@[simp] theorem okOr_ok_iff (option : Option α) (error : ε) (value : α) :
    okOr option error = .ok value ↔ option = some value := by
  cases option <;> simp [okOr]

/-- A sequence succeeds exactly when its first part and then its second part do. -/
@[simp] theorem bind_ok_iff (first : Except ε α) (second : α → Except ε β) (result : β) :
    (first >>= second) = .ok result ↔ ∃ value, first = .ok value ∧ second value = .ok result := by
  cases first <;> simp [bind, Except.bind]

/-- A successful first part hands its value to the second. -/
theorem bind_ok (value : α) (second : α → Except ε β) :
    (Except.ok value >>= second) = second value := rfl

/-- A refused first part refuses the sequence. -/
theorem bind_error (error : ε) (second : α → Except ε β) :
    (Except.error error >>= second) = .error error := rfl

/-- A plain value is a successful computation. -/
@[simp] theorem pure_ok_iff (value result : α) :
    (pure value : Except ε α) = .ok result ↔ value = result := by
  simp [pure, Except.pure]

/-- Translating errors keeps exactly the successes. -/
@[simp] theorem mapError_ok_iff (translate : ε → ε') (computation : Except ε α) (value : α) :
    computation.mapError translate = .ok value ↔ computation = .ok value := by
  cases computation <;> simp [Except.mapError]

/-- A test refuses exactly when its condition fails. -/
theorem ensure_error_iff (condition : Prop) [Decidable condition] (error refused : ε) :
    ensure condition error = .error refused ↔ ¬condition ∧ error = refused := by
  unfold ensure
  split <;> simp_all

/-- A required value is refused exactly when it is absent. -/
theorem okOr_error_iff (option : Option α) (error refused : ε) :
    okOr option error = .error refused ↔ option = none ∧ error = refused := by
  cases option <;> simp [okOr]

/-- A sequence is refused by its first part, or by its second part after the first. -/
theorem bind_error_iff (first : Except ε α) (second : α → Except ε β) (refused : ε) :
    (first >>= second) = .error refused ↔
      first = .error refused ∨ ∃ value, first = .ok value ∧ second value = .error refused := by
  cases first <;> simp [bind, Except.bind]

/-- Translating errors translates exactly the refusals. -/
theorem mapError_error_iff (translate : ε → ε') (computation : Except ε α) (refused : ε') :
    computation.mapError translate = .error refused ↔
      ∃ error, computation = .error error ∧ translate error = refused := by
  cases computation <;> simp [Except.mapError]

/-- The value of a computation is present exactly when it succeeds. -/
theorem toOption_eq_some_iff {computation : Except ε α} {value : α} :
    computation.toOption = some value ↔ computation = .ok value := by
  cases computation <;> simp [Except.toOption]

/-- A check without a result passes exactly when it succeeds. -/
theorem isOk_unit_iff (check : Except ε Unit) : check.isOk = true ↔ check = .ok () := by
  cases check with
  | error => simp [Except.isOk, Except.toBool]
  | ok => simp [Except.isOk, Except.toBool]

/-- Changing the result of a computation keeps its success. -/
@[simp] theorem map_ok_iff (change : α → β) (computation : Except ε α) (result : β) :
    computation.map change = .ok result ↔
      ∃ value, computation = .ok value ∧ change value = result := by
  cases computation <;> simp [Except.map]

/-- Every element of a list read in order is read successfully, and the results line up. -/
theorem mapM_ok_iff (step : α → Except ε β) (values : List α) (results : List β) :
    values.mapM step = .ok results ↔
      List.Forall₂ (fun value result => step value = .ok result) values results := by
  induction values generalizing results with
  | nil =>
    rw [List.mapM_nil, pure_ok_iff]
    exact ⟨fun same => same ▸ .nil, fun aligned => by cases aligned; rfl⟩
  | cons value rest ih =>
    simp only [List.mapM_cons, bind_ok_iff, pure_ok_iff, ih]
    constructor
    · rintro ⟨result, first, others, tail, rfl⟩
      exact .cons first tail
    · intro aligned
      cases aligned with
      | cons first tail => exact ⟨_, first, _, tail, rfl⟩

/-- A list has results when its first value has one and the others have. -/
theorem mapM_cons_ok_iff (step : α → Except ε β) (value : α) (rest : List α) (results : List β) :
    (value :: rest).mapM step = .ok results ↔ ∃ first others, step value = .ok first ∧
      rest.mapM step = .ok others ∧ first :: others = results := by
  simp only [List.mapM_cons, bind_ok_iff, pure_ok_iff]
  constructor
  · rintro ⟨first, here, others, more, same⟩
    exact ⟨first, others, here, more, same⟩
  · rintro ⟨first, others, here, more, same⟩
    exact ⟨first, here, others, more, same⟩

/-- The results for a list are those of its values. -/
theorem mem_mapM_ok {step : α → Except ε β} {values : List α} {results : List β}
    (mapped : values.mapM step = .ok results) (result : β) :
    result ∈ results ↔ ∃ value ∈ values, step value = .ok result := by
  induction values generalizing results with
  | nil =>
    rw [List.mapM_nil] at mapped
    cases (pure_ok_iff ..).mp mapped
    simp
  | cons value rest ih =>
    obtain ⟨first, others, here, more, rfl⟩ := (mapM_cons_ok_iff ..).mp mapped
    have head : result = first ↔ step value = .ok result := by
      rw [here, Except.ok.injEq]
      exact eq_comm
    simp only [List.mem_cons, ih more, head, exists_eq_or_imp]

/-- A list has results exactly when each of its values has one. -/
theorem exists_mapM_ok_iff (step : α → Except ε β) (values : List α) :
    (∃ results, values.mapM step = .ok results) ↔
      ∀ value ∈ values, ∃ result, step value = .ok result := by
  induction values with
  | nil => exact ⟨fun _ => nofun, fun _ => ⟨[], List.mapM_nil⟩⟩
  | cons value rest ih =>
    simp only [mapM_cons_ok_iff, List.forall_mem_cons, ← ih]
    constructor
    · rintro ⟨_, first, others, here, more, -⟩
      exact ⟨⟨first, here⟩, others, more⟩
    · rintro ⟨⟨first, here⟩, others, more⟩
      exact ⟨_, first, others, here, more, rfl⟩

/-- Different results come from different values. -/
theorem nodup_mapM_ok {step : α → Except ε β} {values : List α} {results : List β}
    (mapped : values.mapM step = .ok results) (distinct : values.Nodup)
    (apart : ∀ one ∈ values, ∀ two ∈ values, ∀ result, step one = .ok result →
      step two = .ok result → one = two) : results.Nodup := by
  induction values generalizing results with
  | nil =>
    rw [List.mapM_nil] at mapped
    cases (pure_ok_iff ..).mp mapped
    exact List.nodup_nil
  | cons value rest ih =>
    obtain ⟨first, others, here, more, rfl⟩ := (mapM_cons_ok_iff ..).mp mapped
    obtain ⟨fresh, later⟩ := List.nodup_cons.mp distinct
    refine List.nodup_cons.mpr ⟨fun again => ?_, ih more later fun one left two right =>
      apart one (List.mem_cons_of_mem _ left) two (List.mem_cons_of_mem _ right)⟩
    obtain ⟨other, member, same⟩ := (mem_mapM_ok more first).mp again
    have twice := apart value List.mem_cons_self other (List.mem_cons_of_mem _ member) first here same
    exact fresh (twice ▸ member)

/-- One more step of a loop that carries a state. -/
theorem foldlM_cons_ok_iff {σ : Type w} (step : σ → α → Except ε σ) (state : σ) (value : α)
    (rest : List α) (final : σ) :
    (value :: rest).foldlM step state = .ok final ↔
      ∃ middle, step state value = .ok middle ∧ rest.foldlM step middle = .ok final := by
  rw [List.foldlM_cons, bind_ok_iff]

/-- A loop over two lists in order passes through the state between them. -/
theorem foldlM_append_ok_iff {σ : Type w} (step : σ → α → Except ε σ) (state : σ)
    (first second : List α) (final : σ) :
    (first ++ second).foldlM step state = .ok final ↔
      ∃ middle, first.foldlM step state = .ok middle ∧
        second.foldlM step middle = .ok final := by
  rw [List.foldlM_append, bind_ok_iff]

/-- A loop that collects the keys of values, each of which is new and passes a check, succeeds
exactly when all values pass and no key comes twice. -/
theorem foldlM_fresh_iff {κ : Type w} (key : α → κ) {check : α → Prop}
    {step : List κ → α → Except ε (List κ)}
    (spec : ∀ seen value next, step seen value = .ok next ↔
      key value ∉ seen ∧ check value ∧ next = seen ++ [key value])
    (values : List α) {seen : List κ} (distinct : seen.Nodup) (final : List κ) :
    values.foldlM step seen = .ok final ↔ (∀ value ∈ values, check value) ∧
      (seen ++ values.map key).Nodup ∧ final = seen ++ values.map key := by
  induction values generalizing seen with
  | nil =>
    rw [List.foldlM_nil, pure_ok_iff, List.map_nil, List.append_nil]
    constructor
    · rintro rfl
      exact ⟨nofun, distinct, rfl⟩
    · rintro ⟨-, -, rfl⟩
      rfl
  | cons value rest ih =>
    simp only [foldlM_cons_ok_iff, spec, List.forall_mem_cons, List.map_cons]
    have split : seen ++ key value :: rest.map key = seen ++ [key value] ++ rest.map key := by
      rw [List.append_assoc, List.singleton_append]
    rw [split]
    constructor
    · rintro ⟨_, ⟨fresh, passed, rfl⟩, more⟩
      have longer : (seen ++ [key value]).Nodup := by
        refine List.nodup_append.mpr ⟨distinct, by simp, fun one member two only => ?_⟩
        rintro rfl
        exact fresh (List.mem_singleton.mp only ▸ member)
      obtain ⟨others, apart, same⟩ := (ih longer).mp more
      exact ⟨⟨passed, others⟩, apart, same⟩
    · rintro ⟨⟨passed, others⟩, apart, same⟩
      have longer : (seen ++ [key value]).Nodup := (List.nodup_append.mp apart).1
      have fresh : key value ∉ seen := fun member =>
        (List.nodup_append.mp longer).2.2 _ member _ List.mem_cons_self rfl
      exact ⟨_, ⟨fresh, passed, rfl⟩, (ih longer).mpr ⟨others, apart, same⟩⟩

/-- Translating the errors of each step keeps the successes of a loop. -/
theorem foldlM_mapError_ok_iff {σ : Type w} (step : σ → α → Except ε σ)
    (translate : α → ε → ε') (values : List α) (state final : σ) :
    values.foldlM (fun state value => (step state value).mapError (translate value)) state =
      .ok final ↔ values.foldlM step state = .ok final := by
  induction values generalizing state with
  | nil => simp
  | cons value rest ih => simp only [foldlM_cons_ok_iff, mapError_ok_iff, ih]

/-- An invariant kept by every successful step of a loop holds of its final state. -/
theorem foldlM_invariant {σ : Type w} {step : σ → α → Except ε σ} (invariant : σ → Prop)
    (preserved : ∀ state value next, invariant state → step state value = .ok next →
      invariant next) {state final : σ} {values : List α} (start : invariant state)
    (run : values.foldlM step state = .ok final) : invariant final := by
  induction values generalizing state with
  | nil =>
    simp only [List.foldlM_nil, pure_ok_iff] at run
    exact run ▸ start
  | cons value rest ih =>
    obtain ⟨middle, first, tail⟩ := (foldlM_cons_ok_iff ..).mp run
    exact ih (preserved _ _ _ start first) tail

end Checked
