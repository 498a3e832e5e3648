import QsolFed.Store.Foreign

/-!
# Listings of the store

The records of a foreign object are those that its directories hold. They can be listed exactly
when each file there is the record of the attribution that it is named after.
-/
namespace QsolFed.FederationObjectStore

open Checked Json Canonical

variable {primitives : Primitives}

/-- A file that holds the record of an attribution under its name. -/
def Holds (primitives : Primitives) (placement : ForeignNamespace) (objectRef name : String)
    (raw : ByteArray) (record : ForeignObjectRecord) : Prop :=
  ∃ attribution, Named ".record.json" attribution name ∧
    readRecord primitives raw placement objectRef attribution = .ok record

/-- A file holds one record. -/
theorem Holds.unique {placement : ForeignNamespace} {objectRef name : String} {raw : ByteArray}
    {one two : ForeignObjectRecord} (first : Holds primitives placement objectRef name raw one)
    (second : Holds primitives placement objectRef name raw two) : one = two := by
  obtain ⟨left, leftNamed, leftRead⟩ := first
  obtain ⟨right, rightNamed, rightRead⟩ := second
  rw [leftNamed.inj rightNamed, rightRead] at leftRead
  exact (Except.ok.inj leftRead).symm

/-- The name of a record is that of its attribution. -/
theorem Holds.named {placement : ForeignNamespace} {objectRef name : String} {raw : ByteArray}
    {record : ForeignObjectRecord} (holds : Holds primitives placement objectRef name raw record) :
    name = fileOf ".record.json" (attributionOf primitives (recordKey record)) ∧
      ForeignValid record placement objectRef := by
  obtain ⟨attribution, named, read⟩ := holds
  obtain ⟨-, -, valid, rfl⟩ := (readRecord_ok_iff ..).mp read
  exact ⟨((named_iff ..).mp named).2.symm, valid⟩

variable (primitives) in
/-- Read the record in a file of a directory. -/
def readFile (placement : ForeignNamespace) (objectRef : String) (file : String × ByteArray) :
    Except StoreError (ForeignNamespace × ForeignObjectRecord) := do
  let attribution ← attributionFromFilename file.1
  let record ← readRecord primitives file.2 placement objectRef attribution
  pure (placement, record)

/-- The record that is read from a file is the one that it holds. -/
theorem readFile_ok_iff (placement : ForeignNamespace) (objectRef : String)
    (file : String × ByteArray) (entry : ForeignNamespace × ForeignObjectRecord) :
    readFile primitives placement objectRef file = .ok entry ↔
      entry.1 = placement ∧ Holds primitives placement objectRef file.1 file.2 entry.2 := by
  simp only [readFile, attributionFromFilename, bind_ok_iff, referenceFromName_ok_iff, pure_ok_iff,
    Holds]
  constructor
  · rintro ⟨attribution, named, record, read, rfl⟩
    exact ⟨rfl, attribution, named, read⟩
  · rintro ⟨same, attribution, named, read⟩
    exact ⟨attribution, named, entry.2, read, same ▸ rfl⟩

/-- The records of an object are those in its two directories. -/
theorem foreignRecords_ok_iff (store : FederationObjectStore) (objectRef : String)
    (records : List (ForeignNamespace × ForeignObjectRecord)) :
    store.foreignRecords primitives objectRef = .ok records ↔
      Wire.isSha256Ref objectRef = true ∧ ∃ foreign quarantine,
        (store.files (.attributions .foreign (digestOf objectRef))).entries.mapM
          (readFile primitives .foreign objectRef) = .ok foreign ∧
        (store.files (.attributions .quarantine (digestOf objectRef))).entries.mapM
          (readFile primitives .quarantine objectRef) = .ok quarantine ∧
        sortBy (foreignRecordOrder primitives) (foreign ++ quarantine) = records := by
  simp only [foreignRecords, bind_ok_iff, ensure_ok_iff, exists_const, pure_ok_iff]
  refine and_congr_right fun shape => ?_
  rw [digestFromRef_of_ref shape]
  simp only [Except.ok.injEq, exists_eq_left', mapM_cons_ok_iff, List.mapM_nil, pure_ok_iff]
  rw [files, files]
  -- A directory that is missing lists nothing, as an empty one.
  cases store.directory? (.attributions .foreign (digestOf objectRef)) <;>
    cases store.directory? (.attributions .quarantine (digestOf objectRef)) <;> constructor
  all_goals
    first
    | rintro ⟨lists, ⟨foreign, _, one, ⟨quarantine, _, two, rfl, rfl⟩, rfl⟩, sorted⟩
      rw [List.flatten_cons, List.flatten_cons, List.flatten_nil, List.append_nil] at sorted
      exact ⟨foreign, quarantine, one, two, sorted⟩
    | rintro ⟨foreign, quarantine, one, two, sorted⟩
      refine ⟨_, ⟨foreign, _, one, ⟨quarantine, _, two, rfl, rfl⟩, rfl⟩, ?_⟩
      rw [List.flatten_cons, List.flatten_cons, List.flatten_nil, List.append_nil]
      exact sorted

/-- The records of an object are those of its files. -/
theorem foreignRecords_of_files {one two : FederationObjectStore} {objectRef : String}
    (same : ∀ placement name, two.file? (.attributions placement (digestOf objectRef)) name =
      one.file? (.attributions placement (digestOf objectRef)) name)
    {records : List (ForeignNamespace × ForeignObjectRecord)}
    (listed : one.foreignRecords primitives objectRef = .ok records) :
    two.foreignRecords primitives objectRef = .ok records := by
  have files : ∀ placement, two.files (.attributions placement (digestOf objectRef)) =
      one.files (.attributions placement (digestOf objectRef)) := by
    intro placement
    ext name raw
    exact iff_of_eq (congrArg (· = some raw) (same placement name))
  rw [foreignRecords_ok_iff] at listed ⊢
  rw [files .foreign, files .quarantine]
  exact listed

/-- The records of an object are those that its files hold. -/
theorem mem_foreignRecords {store : FederationObjectStore} {objectRef : String}
    {records : List (ForeignNamespace × ForeignObjectRecord)}
    (listed : store.foreignRecords primitives objectRef = .ok records)
    (entry : ForeignNamespace × ForeignObjectRecord) :
    entry ∈ records ↔ ∃ name raw,
      store.file? (.attributions entry.1 (digestOf objectRef)) name = some raw ∧
      Holds primitives entry.1 objectRef name raw entry.2 := by
  obtain ⟨-, foreign, quarantine, one, two, rfl⟩ := (foreignRecords_ok_iff ..).mp listed
  have inside : ∀ {placement : ForeignNamespace}
      {results : List (ForeignNamespace × ForeignObjectRecord)},
      (store.files (.attributions placement (digestOf objectRef))).entries.mapM
        (readFile primitives placement objectRef) = .ok results →
      (entry ∈ results ↔ entry.1 = placement ∧ ∃ name raw,
        store.file? (.attributions placement (digestOf objectRef)) name = some raw ∧
        Holds primitives placement objectRef name raw entry.2) := by
    intro placement results mapped
    rw [mem_mapM_ok mapped]
    simp only [readFile_ok_iff, Prod.exists, OrderedMap.mem_entries]
    constructor
    · rintro ⟨name, raw, stored, same, holds⟩
      exact ⟨same, name, raw, stored, holds⟩
    · rintro ⟨same, name, raw, stored, holds⟩
      exact ⟨name, raw, stored, same, holds⟩
  rw [mem_sortBy, List.mem_append, inside one, inside two]
  obtain ⟨placement, record⟩ := entry
  cases placement with
  | foreign => simp
  | quarantine => simp

/-- No record of an object is listed twice. -/
theorem nodup_foreignRecords {store : FederationObjectStore} {objectRef : String}
    {records : List (ForeignNamespace × ForeignObjectRecord)}
    (listed : store.foreignRecords primitives objectRef = .ok records) : records.Nodup := by
  obtain ⟨-, foreign, quarantine, one, two, rfl⟩ := (foreignRecords_ok_iff ..).mp listed
  have each : ∀ {placement : ForeignNamespace}
      {results : List (ForeignNamespace × ForeignObjectRecord)},
      (store.files (.attributions placement (digestOf objectRef))).entries.mapM
        (readFile primitives placement objectRef) = .ok results → results.Nodup := by
    intro placement results mapped
    have keys := (store.files (.attributions placement (digestOf objectRef))).sorted.nodup
    refine nodup_mapM_ok mapped keys.of_map fun first member second other entry here there => ?_
    have left := ((readFile_ok_iff ..).mp here).2.named.1
    have right := ((readFile_ok_iff ..).mp there).2.named.1
    exact List.inj_on_of_nodup_map keys member other (left.trans right.symm)
  have apart : ∀ entry ∈ foreign, ∀ other ∈ quarantine, entry ≠ other := by
    rintro entry member _ there rfl
    obtain ⟨_, -, here⟩ := (mem_mapM_ok one entry).mp member
    obtain ⟨_, -, again⟩ := (mem_mapM_ok two entry).mp there
    have same := ((readFile_ok_iff ..).mp here).1.symm.trans ((readFile_ok_iff ..).mp again).1
    cases same
  exact (sortBy_perm ..).nodup_iff.mpr (List.nodup_append.mpr ⟨each one, each two, apart⟩)

/-- The records of an object can be listed when each of its files holds one. -/
theorem foreignRecords_total_iff (store : FederationObjectStore) (objectRef : String) :
    (∃ records, store.foreignRecords primitives objectRef = .ok records) ↔
      Wire.isSha256Ref objectRef = true ∧ ∀ placement name raw,
        store.file? (.attributions placement (digestOf objectRef)) name = some raw →
        ∃ record, Holds primitives placement objectRef name raw record := by
  have each : ∀ placement,
      (∃ results, (store.files (.attributions placement (digestOf objectRef))).entries.mapM
        (readFile primitives placement objectRef) = .ok results) ↔
      ∀ name raw, store.file? (.attributions placement (digestOf objectRef)) name = some raw →
        ∃ record, Holds primitives placement objectRef name raw record := by
    intro placement
    simp only [exists_mapM_ok_iff, Prod.forall, OrderedMap.mem_entries, readFile_ok_iff,
      Prod.exists, exists_and_left, exists_eq_left]
    rfl
  simp only [foreignRecords_ok_iff, exists_and_left]
  refine and_congr_right fun _ => ?_
  constructor
  · rintro ⟨_, foreign, one, quarantine, two, -⟩ placement
    cases placement with
    | foreign => exact (each .foreign).mp ⟨foreign, one⟩
    | quarantine => exact (each .quarantine).mp ⟨quarantine, two⟩
  · intro all
    obtain ⟨foreign, one⟩ := (each .foreign).mpr (all .foreign)
    obtain ⟨quarantine, two⟩ := (each .quarantine).mpr (all .quarantine)
    exact ⟨_, foreign, one, quarantine, two, rfl⟩

end QsolFed.FederationObjectStore
