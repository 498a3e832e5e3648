import QsolFed.Store.Listing

/-!
# What an operation adds

Contents are only added to the store: an object or a provenance that is there stays as it is, and
adding one touches nothing else. An operation that fails has added contents at most; one that
succeeds has also added the one record that it is about, unless that was there.
-/
namespace QsolFed.FederationObjectStore

open Checked Json Canonical

variable {primitives : Primitives}

/-- Contents were added, and nothing else was changed. -/
structure Accrued (before after : FederationObjectStore) : Prop where
  /-- What lasts stays. -/
  kept : ∀ directory name bytes, Lasting name → before.file? directory name = some bytes →
    after.file? directory name = some bytes
  /-- Nothing but contents is added. -/
  elsewhere : ∀ directory name, directory ≠ .objects → directory ≠ .provenance →
    after.file? directory name = before.file? directory name

/-- Nothing was added. -/
theorem Accrued.refl (store : FederationObjectStore) : Accrued store store :=
  ⟨fun _ _ _ _ found => found, fun _ _ _ _ => rfl⟩

/-- Contents are added twice. -/
theorem Accrued.trans (one two three : FederationObjectStore) (first : Accrued one two)
    (second : Accrued two three) : Accrued one three where
  kept directory name bytes lasting found :=
    second.kept directory name bytes lasting (first.kept directory name bytes lasting found)
  elsewhere directory name objects provenance :=
    (second.elsewhere directory name objects provenance).trans
      (first.elsewhere directory name objects provenance)

/-- Nothing was added to a store that shows the same files. -/
theorem Same.accrued {before after : FederationObjectStore} (same : Same before after) :
    Accrued before after where
  kept directory name _ _ found := (same.file? directory name).trans found
  elsewhere directory name _ _ := same.file? directory name

/-- New contents are added. -/
theorem accrued_placed {directory : Directory}
    (contents : directory = .objects ∨ directory = .provenance) {name : String} {bytes : ByteArray}
    {before : FederationObjectStore} (absent : before.file? directory name = none) :
    Accrued before (placed directory name bytes before) where
  kept other file found lasting there := by
    have apart : ¬(other = directory ∧ file = name) := by
      rintro ⟨rfl, rfl⟩
      rw [there] at absent
      cases absent
    rw [file?_placed, if_neg apart, if_neg fun same => lasting _ same.2, there]
  elsewhere other file objects provenance := by
    have apart : other ≠ directory := by
      rintro rfl
      exact contents.elim objects provenance
    rw [file?_placed, if_neg fun same => apart same.1, if_neg fun same => apart same.1]

/-- A write to the contents adds to them. -/
theorem leads_writeExactOrSame {directory : Directory}
    (contents : directory = .objects ∨ directory = .provenance) (name : String)
    (bytes : ByteArray) : Effect.Leads Accrued (writeExactOrSame directory name bytes) := by
  intro store
  rw [run_writeExactOrSame]
  cases found : store.file? directory name with
  | some old => exact (same_made directory store).accrued
  | none => exact accrued_placed contents found

/-- A check adds nothing. -/
theorem leads_check {α : Type} (checked : Except StoreError α) :
    Effect.Leads Accrued (Effect.check checked) := (Effect.quiet_check checked).leads Accrued.refl

/-- Reading adds nothing. -/
theorem leads_read {α : Type} (query : FederationObjectStore → Except StoreError α) :
    Effect.Leads Accrued (Effect.read query) := (Effect.quiet_read query).leads Accrued.refl

/-- Contents that are written are added. -/
theorem leads_writeContentAddressed {directory : Directory}
    (contents : directory = .objects ∨ directory = .provenance) (reference : String)
    (bytes : ByteArray) :
    Effect.Leads Accrued (writeContentAddressed primitives directory reference bytes) := by
  refine Effect.Leads.bind Accrued.trans (leads_check _) fun derived => ?_
  refine Effect.Leads.bind Accrued.trans (leads_check _) fun _ => ?_
  refine Effect.Leads.bind Accrued.trans (leads_check _) fun name => ?_
  exact leads_writeExactOrSame contents name bytes

/-- A provenance that is put is added. -/
theorem leads_putProvenance (sourceNode objectRef : String) (provenance : Option ByteArray) :
    Effect.Leads Accrued (putProvenance primitives sourceNode objectRef provenance) := by
  cases provenance with
  | none => exact fun store => Accrued.refl store
  | some raw =>
    refine Effect.Leads.bind Accrued.trans (leads_check _) fun id => ?_
    refine Effect.Leads.bind Accrued.trans (leads_writeContentAddressed (.inr rfl) id raw)
      fun _ => ?_
    exact fun store => Accrued.refl store

/-- A write that fails shows the same files. -/
theorem failing_writeExactOrSame (directory : Directory) (name : String) (bytes : ByteArray) :
    Effect.Failing Accrued (writeExactOrSame directory name bytes) := by
  intro store error final failed
  rw [run_writeExactOrSame] at failed
  cases found : store.file? directory name with
  | some old =>
    rw [found] at failed
    exact (Prod.mk.inj failed).2 ▸ (same_made directory store).accrued
  | none =>
    rw [found] at failed
    cases (Prod.mk.inj failed).1

/-- A put that fails has added contents at most. -/
theorem Observation.failing_put (observation : Observation) (placement : ForeignNamespace)
    (receivedAt : String) :
    Effect.Failing Accrued (observation.put primitives placement receivedAt) := by
  refine Effect.Leads.bind_failing Accrued.trans (leads_check _) fun _ => ?_
  refine Effect.Leads.bind_failing Accrued.trans (leads_check _) fun _ => ?_
  refine Effect.Leads.bind_failing Accrued.trans (leads_check _) fun objectRef => ?_
  refine Effect.Leads.bind_failing Accrued.trans (leads_putProvenance _ _ _) fun id => ?_
  refine Effect.Leads.bind_failing Accrued.trans (leads_writeContentAddressed (.inl rfl) _ _)
    fun _ => ?_
  refine Effect.Leads.bind_failing Accrued.trans (leads_check _) fun _ => ?_
  refine Effect.Leads.bind_failing Accrued.trans (leads_check _) fun attribution => ?_
  refine Effect.Leads.bind_failing Accrued.trans (leads_read _) fun found => ?_
  cases found with
  | some existing => exact fun store error final failed => nomatch (Prod.mk.inj failed).1
  | none =>
    refine Effect.Failing.map ?_ _
    refine Effect.Leads.bind_failing Accrued.trans (leads_check _) fun digest => ?_
    refine Effect.Leads.bind_failing Accrued.trans (leads_check _) fun name => ?_
    refine Effect.Leads.bind_failing Accrued.trans (leads_check _) fun bytes => ?_
    exact failing_writeExactOrSame _ name bytes

/-- A derivation that fails has added contents at most. -/
theorem failing_createLocalDescendant (localNode parentForeignObject : String)
    (localObject : ByteArray) (createdAt : String) : Effect.Failing Accrued
      (createLocalDescendant primitives localNode parentForeignObject localObject createdAt) := by
  refine Effect.Leads.bind_failing Accrued.trans (leads_check _) fun _ => ?_
  refine Effect.Leads.bind_failing Accrued.trans (leads_read _) fun records => ?_
  refine Effect.Leads.bind_failing Accrued.trans (leads_check _) fun _ => ?_
  refine Effect.Leads.bind_failing Accrued.trans (leads_check _) fun _ => ?_
  refine Effect.Leads.bind_failing Accrued.trans (leads_check _) fun descendantId => ?_
  refine Effect.Leads.bind_failing Accrued.trans (leads_check _) fun _ => ?_
  refine Effect.Leads.bind_failing Accrued.trans (leads_writeContentAddressed (.inl rfl) _ _)
    fun _ => ?_
  refine Effect.Leads.bind_failing Accrued.trans (leads_check _) fun _ => ?_
  refine Effect.Leads.bind_failing Accrued.trans (leads_check _) fun provenanceBytes => ?_
  refine Effect.Leads.bind_failing Accrued.trans (leads_check _) fun provenanceId => ?_
  refine Effect.Leads.bind_failing Accrued.trans (leads_writeContentAddressed (.inr rfl) _ _)
    fun _ => ?_
  refine Effect.Leads.bind_failing Accrued.trans (leads_check _) fun name => ?_
  refine Effect.Leads.bind_failing Accrued.trans (leads_check _) fun bytes => ?_
  exact (failing_writeExactOrSame .descendants name bytes).map _

end QsolFed.FederationObjectStore
