import QsolFed.Store.Accrual

/-!
# Moving the records of an object

A store is orderly when every file of an attribution directory is the record that its name says,
and no record is in both namespaces. A move takes the records of an object one by one to the
target: each is written there and then taken away where it was, so that every observation of the
object stays, under its source and its provenance, and all of them end in the target.
-/
namespace QsolFed.FederationObjectStore

open Checked Json Canonical

variable {primitives : Primitives}

/-! ## Orderly stores -/

/-- The store has a record of an object in a namespace. -/
def Attributed (primitives : Primitives) (store : FederationObjectStore)
    (placement : ForeignNamespace) (objectRef : String) (record : ForeignObjectRecord) : Prop :=
  Wire.isSha256Ref objectRef = true ∧ ∃ name raw,
    store.file? (.attributions placement (digestOf objectRef)) name = some raw ∧
      Holds primitives placement objectRef name raw record

variable (primitives) in
/-- The file of an attribution. -/
def keyFile (key : AttributionKey) : String := fileOf ".record.json" (attributionOf primitives key)

/-- The name of the file of an attribution lasts. -/
theorem lasting_keyFile (key : AttributionKey) : Lasting (keyFile primitives key) :=
  lasting_fileOf _ (isSha256Ref_digest primitives _)

/-- A record is in the file of its attribution. -/
theorem Attributed.file {store : FederationObjectStore} {placement : ForeignNamespace}
    {objectRef : String} {record : ForeignObjectRecord}
    (attributed : Attributed primitives store placement objectRef record) :
    ForeignValid record placement objectRef ∧ ∃ raw,
      store.file? (.attributions placement (digestOf objectRef))
        (keyFile primitives (recordKey record)) = some raw ∧
      Holds primitives placement objectRef (keyFile primitives (recordKey record)) raw record := by
  obtain ⟨-, name, raw, stored, holds⟩ := attributed
  obtain ⟨named, valid⟩ := holds.named
  rw [keyFile, ← named]
  exact ⟨valid, raw, stored, holds⟩

/-- Stores that show the same attributions have the same records. -/
theorem attributed_congr {before after : FederationObjectStore}
    (same : ∀ placement digest name, after.file? (.attributions placement digest) name =
      before.file? (.attributions placement digest) name) (placement : ForeignNamespace)
    (objectRef : String) (record : ForeignObjectRecord) :
    Attributed primitives after placement objectRef record ↔
      Attributed primitives before placement objectRef record := by
  simp only [Attributed, same]

/-- The records of an object that are listed are those that the store has. -/
theorem mem_foreignRecords_iff {store : FederationObjectStore} {objectRef : String}
    {records : List (ForeignNamespace × ForeignObjectRecord)}
    (listed : store.foreignRecords primitives objectRef = .ok records)
    (entry : ForeignNamespace × ForeignObjectRecord) :
    entry ∈ records ↔ Attributed primitives store entry.1 objectRef entry.2 := by
  have shape := ((foreignRecords_ok_iff ..).mp listed).1
  rw [mem_foreignRecords listed, Attributed, and_iff_right shape]

/-- Every file of an attribution directory is a record under its name, and in one namespace. -/
structure Orderly (primitives : Primitives) (store : FederationObjectStore) : Prop where
  /-- Every file is a record under its name. -/
  records : ∀ placement digest name raw,
    store.file? (.attributions placement digest) name = some raw →
    ∃ objectRef record, Wire.isSha256Ref objectRef = true ∧ digestOf objectRef = digest ∧
      Holds primitives placement objectRef name raw record
  /-- No file is in both namespaces. -/
  once : ∀ one two digest name raw other,
    store.file? (.attributions one digest) name = some raw →
    store.file? (.attributions two digest) name = some other → one = two

/-- A store without objects is orderly. -/
theorem orderly_empty : Orderly primitives empty := by
  have none_ : ∀ placement digest name, empty.file? (.attributions placement digest) name = none := by
    intro placement digest name
    cases placement <;> rfl
  constructor
  · intro placement digest name raw stored
    rw [none_] at stored
    cases stored
  · intro one two digest name raw other stored
    rw [none_] at stored
    cases stored

/-- A store that shows the same attributions is orderly. -/
theorem Orderly.congr {before after : FederationObjectStore} (orderly : Orderly primitives before)
    (same : ∀ placement digest name, after.file? (.attributions placement digest) name =
      before.file? (.attributions placement digest) name) : Orderly primitives after := by
  constructor
  · intro placement digest name raw stored
    rw [same] at stored
    exact orderly.records placement digest name raw stored
  · intro one two digest name raw other first second
    rw [same] at first second
    exact orderly.once one two digest name raw other first second

/-- The records of every object of an orderly store can be listed. -/
theorem Orderly.listed {store : FederationObjectStore} (orderly : Orderly primitives store)
    {objectRef : String} (shape : Wire.isSha256Ref objectRef = true) :
    ∃ records, store.foreignRecords primitives objectRef = .ok records := by
  refine (foreignRecords_total_iff ..).mpr ⟨shape, fun placement name raw stored => ?_⟩
  obtain ⟨other, record, otherShape, same, holds⟩ := orderly.records _ _ _ _ stored
  obtain rfl := digestOf_inj otherShape shape same
  exact ⟨record, holds⟩

/-- An orderly store has one record of each attribution. -/
theorem Orderly.unique {store : FederationObjectStore} (orderly : Orderly primitives store)
    {one two : ForeignNamespace} {objectRef : String} {record other : ForeignObjectRecord}
    (first : Attributed primitives store one objectRef record)
    (second : Attributed primitives store two objectRef other)
    (same : recordKey record = recordKey other) : one = two ∧ record = other := by
  obtain ⟨-, raw, stored, holds⟩ := first.file
  obtain ⟨-, bytes, there, again⟩ := second.file
  rw [← same] at there again
  obtain rfl := orderly.once _ _ _ _ _ _ stored there
  obtain rfl := Option.some.inj (stored.symm.trans there)
  exact ⟨rfl, holds.unique again⟩

/-- Every file of an attribution directory of an orderly store lasts. -/
theorem Orderly.lasting {store : FederationObjectStore} (orderly : Orderly primitives store)
    {placement : ForeignNamespace} {digest name : String} {raw : ByteArray}
    (stored : store.file? (.attributions placement digest) name = some raw) : Lasting name := by
  obtain ⟨_, _, -, -, attribution, named, -⟩ := orderly.records _ _ _ _ stored
  exact named.lasting

/-! ## One record -/

/-- The records of an object were moved as far as they were, and nothing else was changed. -/
structure Relocated (primitives : Primitives) (transaction : NamespaceMoveTransaction)
    (before after : FederationObjectStore) : Prop where
  /-- Nothing is changed but attributions. -/
  elsewhere : ∀ directory name, (∀ placement digest, directory ≠ .attributions placement digest) →
    after.file? directory name = before.file? directory name
  /-- Every record stays where it is, or it was moved. -/
  forth : ∀ placement objectRef record, Attributed primitives before placement objectRef record →
    Attributed primitives after placement objectRef record ∨
      (objectRef = transaction.objectId ∧ placement ≠ transaction.target ∧
        Attributed primitives after transaction.target objectRef (movedRecord transaction record))
  /-- Every record was where it is, or it was moved. -/
  back : ∀ placement objectRef record, Attributed primitives after placement objectRef record →
    Attributed primitives before placement objectRef record ∨
      (objectRef = transaction.objectId ∧ placement = transaction.target ∧
        ∃ other source, other ≠ transaction.target ∧
          Attributed primitives before other objectRef source ∧
          record = movedRecord transaction source)
  /-- The store stays orderly. -/
  orderly : Orderly primitives after

/-- Nothing was moved. -/
theorem Relocated.refl (transaction : NamespaceMoveTransaction) {store : FederationObjectStore}
    (orderly : Orderly primitives store) : Relocated primitives transaction store store :=
  ⟨fun _ _ _ => rfl, fun _ _ _ there => .inl there, fun _ _ _ there => .inl there, orderly⟩

/-- Records are moved in two parts. -/
theorem Relocated.trans {transaction : NamespaceMoveTransaction}
    {one two three : FederationObjectStore} (first : Relocated primitives transaction one two)
    (second : Relocated primitives transaction two three) :
    Relocated primitives transaction one three where
  elsewhere directory name outside :=
    (second.elsewhere directory name outside).trans (first.elsewhere directory name outside)
  forth placement objectRef record there := by
    rcases first.forth placement objectRef record there with stays | ⟨object, away, moved⟩
    · exact second.forth placement objectRef record stays
    · rcases second.forth _ _ _ moved with stays | ⟨-, apart, -⟩
      · exact .inr ⟨object, away, stays⟩
      · exact absurd rfl apart
  back placement objectRef record there := by
    rcases second.back placement objectRef record there with was | ⟨object, home, other, source,
      away, was, same⟩
    · exact first.back placement objectRef record was
    · rcases first.back _ _ _ was with earlier | ⟨-, back, -⟩
      · exact .inr ⟨object, home, other, source, away, earlier, same⟩
      · exact absurd back away
  orderly := second.orderly

/-- Records were moved between stores that show the same attributions. -/
theorem Relocated.congr {transaction : NamespaceMoveTransaction}
    {before start middle after : FederationObjectStore}
    (relocated : Relocated primitives transaction start middle)
    (first : ∀ placement digest name, start.file? (.attributions placement digest) name =
      before.file? (.attributions placement digest) name)
    (last : ∀ placement digest name, after.file? (.attributions placement digest) name =
      middle.file? (.attributions placement digest) name)
    (elsewhere : ∀ directory name, (∀ placement digest, directory ≠ .attributions placement digest) →
      after.file? directory name = before.file? directory name) :
    Relocated primitives transaction before after := by
  refine ⟨elsewhere, ?_, ?_, relocated.orderly.congr last⟩
  · intro placement objectRef record there
    simp only [attributed_congr last]
    exact relocated.forth _ _ _ ((attributed_congr first ..).mpr there)
  · intro placement objectRef record there
    simp only [← attributed_congr first]
    exact relocated.back _ _ _ ((attributed_congr last ..).mp there)

/-- A moved record has the key of the record. -/
@[simp] theorem recordKey_movedRecord (transaction : NamespaceMoveTransaction)
    (record : ForeignObjectRecord) :
    recordKey (movedRecord transaction record) = recordKey record := rfl

/-- A moved record is valid where it is moved to. -/
theorem ForeignValid.moved {record : ForeignObjectRecord} {placement : ForeignNamespace}
    {objectRef : String} (valid : ForeignValid record placement objectRef)
    {transaction : NamespaceMoveTransaction}
    (changed : validTimestamp transaction.changedAt = true) :
    ForeignValid (movedRecord transaction record) transaction.target objectRef :=
  ⟨valid.schema, valid.object, rfl, valid.authority, valid.node, changed, valid.provenance⟩

/-- A file was moved from one namespace to the other, with new contents. -/
def Shifted (digest name : String) (source target : ForeignNamespace) (bytes : ByteArray)
    (before after : FederationObjectStore) : Prop :=
  ∀ directory file, after.file? directory file =
    if directory = .attributions target digest ∧ file = name then some bytes
    else if directory = .attributions source digest ∧ file = name then none
    else before.file? directory file

/-- A record that is taken away leaves no file, and nothing else is changed. -/
theorem run_removeRecord {placement : ForeignNamespace} {digest name : String}
    {store : FederationObjectStore} {raw : ByteArray}
    (stored : store.file? (.attributions placement digest) name = some raw) :
    ∃ after, (removeRecord placement digest name).run store = (.ok ⟨⟩, after) ∧
      ∀ directory file, after.file? directory file =
        if directory = .attributions placement digest ∧ file = name then none
        else store.file? directory file := by
  refine ⟨removeEmptyDirectory placement digest (store.withFiles (.attributions placement digest)
    ((store.files (.attributions placement digest)).erase name)), ?_, ?_⟩
  · simp only [removeRecord, Effect.run_read_bind, stored, Effect.run_modify_bind,
      Effect.run_modify]
  · intro directory file
    rw [file?, files_removeEmptyDirectory, ← file?, file?_withFiles]
    by_cases here : directory = .attributions placement digest
    · rw [if_pos here, OrderedMap.get?_erase, here]
      simp only [true_and]
      rfl
    · rw [if_neg here, if_neg fun same => here same.1]

/-- A record that is moved is written to the target and taken away where it was. -/
theorem run_moveRecord {transaction : NamespaceMoveTransaction}
    (changed : validTimestamp transaction.changedAt = true) {placement : ForeignNamespace}
    {record : ForeignObjectRecord} {store : FederationObjectStore}
    (orderly : Orderly primitives store)
    (there : Attributed primitives store placement transaction.objectId record)
    (away : placement ≠ transaction.target) :
    ∃ raw after,
      canonicalStruct primitives (Codecs.foreignRecord.encode (movedRecord transaction record)) =
        .ok raw ∧
      (moveRecord primitives transaction (placement, record)).run store =
        (.ok (movedRecord transaction record), after) ∧
      Shifted (digestOf transaction.objectId) (keyFile primitives (recordKey record)) placement
        transaction.target raw store after := by
  have shape := there.1
  obtain ⟨valid, old, stored, -⟩ := there.file
  have moved := valid.moved changed
  have named : Wire.isSha256Ref (attributionOf primitives (recordKey record)) = true :=
    isSha256Ref_digest primitives _
  obtain ⟨raw, encoded⟩ : ∃ raw, canonicalStruct primitives
      (Codecs.foreignRecord.encode (movedRecord transaction record)) = .ok raw := moved.encoded shape
  have absent : store.file? (.attributions transaction.target (digestOf transaction.objectId))
      (keyFile primitives (recordKey record)) = none := by
    refine Option.eq_none_iff_forall_ne_some.mpr fun other twice => ?_
    exact away (orderly.once _ _ _ _ _ _ stored twice)
  have different : ∀ file, ¬(Directory.attributions placement (digestOf transaction.objectId) =
      .attributions transaction.target (digestOf transaction.objectId) ∧ file) :=
    fun file same => away (Directory.attributions.inj same.1).1
  -- The record is written to the target, where its file is absent.
  have wrote := (writeRecord_ok_iff moved shape named store _).mpr ⟨raw, encoded, .inr ⟨absent, rfl⟩⟩
  have kept : (placed (.attributions transaction.target (digestOf transaction.objectId))
      (keyFile primitives (recordKey record)) raw store).file?
      (.attributions placement (digestOf transaction.objectId))
      (keyFile primitives (recordKey record)) = some old := by
    rw [file?_placed, if_neg (different _), if_neg (different _), stored]
  -- It is taken away where it was.
  obtain ⟨after, removed, files⟩ := run_removeRecord kept
  refine ⟨raw, after, encoded, ?_, ?_⟩
  · have name := (recordName_ok_iff ..).mpr (named_fileOf ".record.json" named)
    simp only [moveRecord, attributionId_of_shape valid.key, Effect.run_check_bind, if_neg away]
    rw [Effect.run_bind, wrote]
    simp only [digestFromRef_of_ref shape, Effect.run_check_bind, name]
    rw [keyFile] at removed
    rw [Effect.run_bind, removed]
    rfl
  · intro directory file
    rw [files, file?_placed]
    by_cases target : directory = .attributions transaction.target (digestOf transaction.objectId) ∧
      file = keyFile primitives (recordKey record)
    · have elsewhere : ¬(directory = .attributions placement (digestOf transaction.objectId) ∧
          file = keyFile primitives (recordKey record)) := by
        rintro ⟨same, -⟩
        exact different True ⟨same.symm.trans target.1, trivial⟩
      rw [if_neg elsewhere, if_pos target, if_pos target]
    · rw [if_neg target, if_neg target]
      refine if_congr Iff.rfl rfl ?_
      by_cases temporary : directory = .attributions transaction.target
          (digestOf transaction.objectId) ∧
          file = Files.temporary (keyFile primitives (recordKey record))
      · rw [if_pos temporary, temporary.1]
        refine (Option.eq_none_iff_forall_ne_some.mpr fun other found => ?_).symm
        exact orderly.lasting found _ temporary.2
      · rw [if_neg temporary]

/-- A shifted record is in the target. -/
theorem Shifted.relocated {transaction : NamespaceMoveTransaction}
    (changed : validTimestamp transaction.changedAt = true) {placement : ForeignNamespace}
    {record : ForeignObjectRecord} {before after : FederationObjectStore} {raw : ByteArray}
    (orderly : Orderly primitives before)
    (there : Attributed primitives before placement transaction.objectId record)
    (away : placement ≠ transaction.target)
    (encoded : canonicalStruct primitives
      (Codecs.foreignRecord.encode (movedRecord transaction record)) = .ok raw)
    (shifted : Shifted (digestOf transaction.objectId) (keyFile primitives (recordKey record))
      placement transaction.target raw before after) :
    Relocated primitives transaction before after ∧
      Attributed primitives after transaction.target transaction.objectId
        (movedRecord transaction record) := by
  have shape := there.1
  obtain ⟨valid, old, stored, holds⟩ := there.file
  have moved := valid.moved changed
  have arrived : Holds primitives transaction.target transaction.objectId
      (keyFile primitives (recordKey record)) raw (movedRecord transaction record) :=
    ⟨attributionOf primitives (recordKey record),
      named_fileOf ".record.json" (isSha256Ref_digest primitives _), moved.readRecord shape encoded⟩
  have placed_ : after.file? (.attributions transaction.target (digestOf transaction.objectId))
      (keyFile primitives (recordKey record)) = some raw := by
    rw [shifted, if_pos ⟨rfl, rfl⟩]
  have home : Attributed primitives after transaction.target transaction.objectId
      (movedRecord transaction record) := ⟨shape, _, _, placed_, arrived⟩
  -- Every file after the shift is the new one or was there, and not as the one taken away.
  have origin : ∀ other digest file bytes,
      after.file? (.attributions other digest) file = some bytes →
      (other = transaction.target ∧ digest = digestOf transaction.objectId ∧
        file = keyFile primitives (recordKey record) ∧ bytes = raw) ∨
      (before.file? (.attributions other digest) file = some bytes ∧
        ¬(other = placement ∧ digest = digestOf transaction.objectId ∧
          file = keyFile primitives (recordKey record))) := by
    intro other digest file bytes found
    rw [shifted] at found
    split_ifs at found with target source
    · obtain ⟨rfl, rfl⟩ := Directory.attributions.inj target.1
      exact .inl ⟨rfl, rfl, target.2, (Option.some.inj found).symm⟩
    · refine .inr ⟨found, ?_⟩
      rintro ⟨rfl, rfl, rfl⟩
      exact source ⟨rfl, rfl⟩
  refine ⟨⟨?_, ?_, ?_, ?_, ?_⟩, home⟩
  · intro directory name outside
    rw [shifted, if_neg fun same => outside _ _ same.1, if_neg fun same => outside _ _ same.1]
  · rintro other objectRef found ⟨otherShape, name, bytes, present, held⟩
    by_cases source : other = placement ∧ objectRef = transaction.objectId ∧
        name = keyFile primitives (recordKey record)
    · obtain ⟨rfl, rfl, rfl⟩ := source
      obtain rfl := Option.some.inj (stored.symm.trans present)
      obtain rfl := holds.unique held
      exact .inr ⟨rfl, away, home⟩
    · refine .inl ⟨otherShape, name, bytes, ?_, held⟩
      rw [shifted, if_neg, if_neg]
      · exact present
      · rintro ⟨same, rfl⟩
        obtain ⟨rfl, digests⟩ := Directory.attributions.inj same
        exact source ⟨rfl, digestOf_inj otherShape shape digests, rfl⟩
      · rintro ⟨same, rfl⟩
        obtain ⟨rfl, digests⟩ := Directory.attributions.inj same
        rw [digests] at present
        exact away (orderly.once _ _ _ _ _ _ stored present)
  · rintro other objectRef found ⟨otherShape, name, bytes, present, held⟩
    rcases origin _ _ _ _ present with ⟨rfl, digests, rfl, rfl⟩ | ⟨was, -⟩
    · obtain rfl := digestOf_inj otherShape shape digests
      exact .inr ⟨rfl, rfl, placement, record, away, there, held.unique arrived⟩
    · exact .inl ⟨otherShape, name, bytes, was, held⟩
  · intro other digest name bytes present
    rcases origin _ _ _ _ present with ⟨rfl, rfl, rfl, rfl⟩ | ⟨was, -⟩
    · exact ⟨_, _, shape, rfl, arrived⟩
    · exact orderly.records _ _ _ _ was
  · intro one two digest name bytes other first second
    rcases origin _ _ _ _ first with ⟨rfl, rfl, rfl, rfl⟩ | ⟨was, apart⟩
    · rcases origin _ _ _ _ second with ⟨rfl, -, -, -⟩ | ⟨earlier, distinct⟩
      · rfl
      · exact absurd ⟨orderly.once _ _ _ _ _ _ earlier stored, rfl, rfl⟩ distinct
    · rcases origin _ _ _ _ second with ⟨rfl, rfl, rfl, rfl⟩ | ⟨earlier, -⟩
      · exact absurd ⟨orderly.once _ _ _ _ _ _ was stored, rfl, rfl⟩ apart
      · exact orderly.once _ _ _ _ _ _ was earlier

/-- The other records of the object stay where they are while one is shifted. -/
theorem Shifted.stays {transaction : NamespaceMoveTransaction} {placement other : ForeignNamespace}
    {record found : ForeignObjectRecord} {before after : FederationObjectStore} {raw : ByteArray}
    (orderly : Orderly primitives before)
    (there : Attributed primitives before placement transaction.objectId record)
    (away : placement ≠ transaction.target)
    (shifted : Shifted (digestOf transaction.objectId) (keyFile primitives (recordKey record))
      placement transaction.target raw before after)
    (present : Attributed primitives before other transaction.objectId found)
    (apart : (other, found) ≠ (placement, record)) :
    Attributed primitives after other transaction.objectId found := by
  obtain ⟨-, old, stored, holds⟩ := there.file
  obtain ⟨shape, name, bytes, listed, held⟩ := present
  refine ⟨shape, name, bytes, ?_, held⟩
  rw [shifted, if_neg, if_neg]
  · exact listed
  · rintro ⟨same, rfl⟩
    obtain ⟨rfl, -⟩ := Directory.attributions.inj same
    obtain rfl := Option.some.inj (stored.symm.trans listed)
    obtain rfl := holds.unique held
    exact apart rfl
  · rintro ⟨same, rfl⟩
    obtain ⟨rfl, -⟩ := Directory.attributions.inj same
    exact away (orderly.once _ _ _ _ _ _ stored listed)

/-! ## All records -/

/-- A record after the move of its object. -/
def destination (transaction : NamespaceMoveTransaction)
    (entry : ForeignNamespace × ForeignObjectRecord) : ForeignObjectRecord :=
  if entry.1 = transaction.target then entry.2 else movedRecord transaction entry.2

/-- Records of an object are moved one by one, and each ends in the target. -/
theorem run_moveRecords {transaction : NamespaceMoveTransaction}
    (changed : validTimestamp transaction.changedAt = true)
    {entries : List (ForeignNamespace × ForeignObjectRecord)} {store : FederationObjectStore}
    (orderly : Orderly primitives store) (distinct : entries.Nodup)
    (there : ∀ entry ∈ entries,
      Attributed primitives store entry.1 transaction.objectId entry.2) :
    ∃ after, (Effect.forEach (moveRecord primitives transaction) entries).run store =
        (.ok (entries.map (destination transaction)), after) ∧
      Relocated primitives transaction store after ∧
      ∀ entry ∈ entries, Attributed primitives after transaction.target transaction.objectId
        (destination transaction entry) := by
  induction entries generalizing store with
  | nil => exact ⟨store, rfl, .refl transaction orderly, nofun⟩
  | cons entry rest ih =>
    obtain ⟨placement, record⟩ := entry
    obtain ⟨fresh, others⟩ := List.nodup_cons.mp distinct
    obtain ⟨here, more⟩ := List.forall_mem_cons.mp there
    -- One record is moved, or it is in the target; the others stay where they are.
    have one : ∃ middle, (moveRecord primitives transaction (placement, record)).run store =
          (.ok (destination transaction (placement, record)), middle) ∧
        Relocated primitives transaction store middle ∧
        Attributed primitives middle transaction.target transaction.objectId
          (destination transaction (placement, record)) ∧
        ∀ entry ∈ rest, Attributed primitives middle entry.1 transaction.objectId entry.2 := by
      by_cases home : placement = transaction.target
      · have same : destination transaction (placement, record) = record := if_pos home
        refine ⟨store, ?_, .refl transaction orderly, ?_, more⟩
        · have identified : attributionId primitives record = _ :=
            attributionId_of_shape here.file.1.key
          simp only [moveRecord, identified, Effect.run_check_bind, if_pos home, same]
          rfl
        · rw [same, ← home]
          exact here
      · have moved : destination transaction (placement, record) = movedRecord transaction record :=
          if_neg home
        obtain ⟨raw, middle, encoded, ran, shifted⟩ := run_moveRecord changed orderly here home
        obtain ⟨relocated, arrived⟩ := shifted.relocated changed orderly here home encoded
        refine ⟨middle, moved.symm ▸ ran, relocated, moved.symm ▸ arrived, fun other member => ?_⟩
        refine shifted.stays orderly here home (more other member) fun same => ?_
        have again : other = (placement, record) := same
        exact fresh (again ▸ member)
    obtain ⟨middle, ran, relocated, arrived, remaining⟩ := one
    obtain ⟨after, rests, rest, reached⟩ := ih relocated.orderly others remaining
    refine ⟨after, ?_, relocated.trans rest, List.forall_mem_cons.mpr ⟨?_, reached⟩⟩
    · exact (Effect.run_forEach_cons_ok_iff ..).mpr ⟨_, middle, _, ran, rests, rfl⟩
    · rcases rest.forth _ _ _ arrived with stays | ⟨-, apart, -⟩
      · exact stays
      · exact absurd rfl apart

/-! ## Markers -/

/-- There is no marker. -/
def Settled (store : FederationObjectStore) : Prop := ∀ name, store.file? .transactions name = none

/-- A marker with well-formed fields. -/
structure MarkerValid (transaction : NamespaceMoveTransaction) : Prop where
  /-- The schema name. -/
  schema : transaction.schema = namespaceMoveSchemaV1
  /-- The object is a reference. -/
  object : Wire.isSha256Ref transaction.objectId = true
  /-- The time is one. -/
  changed : validTimestamp transaction.changedAt = true

/-- A marker is validated by its fields. -/
theorem validateNamespaceTransaction_ok_iff (transaction : NamespaceMoveTransaction) :
    validateNamespaceTransaction transaction = .ok () ↔ MarkerValid transaction := by
  rw [validateNamespaceTransaction, ensure_ok_iff]
  constructor
  · rintro ⟨schema, object, changed⟩
    exact ⟨schema, object, changed⟩
  · rintro ⟨schema, object, changed⟩
    exact ⟨schema, object, changed⟩

/-- A valid marker is plain. -/
theorem MarkerValid.plain {transaction : NamespaceMoveTransaction} (valid : MarkerValid transaction) :
    Plain (Codecs.move.encode transaction) := by
  refine plain_record Codecs.moveFields (by decide) _ (by decide) (by decide) ?_
  have schema : PlainText transaction.schema :=
    valid.schema ▸ plainText_of_check (by decide)
  have object : PlainText transaction.objectId := plainText_of_sha256Ref valid.object
  have target : Plain (Codecs.foreignNamespace.encode transaction.target) := by
    cases transaction.target <;> exact plainText_of_check (by decide)
  have time : PlainText transaction.changedAt :=
    plainText_of_wireTimestamp (Bool.and_eq_true_iff.mp valid.changed).1
  simp only [Codecs.moveFields, Fields.required, Fields.cons, Fields.nil, List.map_cons,
    List.map_nil, List.forall_mem_cons, List.not_mem_nil, false_imp_iff, implies_true, and_true]
  exact ⟨schema, object, target, time⟩

/-- A marker nests once. -/
theorem nesting_move (transaction : NamespaceMoveTransaction) :
    (Codecs.move.encode transaction).nesting < maxDepth := by
  refine (nesting_record Codecs.moveFields (by decide) _ 0 ?_).trans_lt (by decide)
  simp only [Codecs.moveFields, Fields.required, Fields.cons, Fields.nil, List.map_cons,
    List.map_nil, List.forall_mem_cons, List.not_mem_nil, false_imp_iff, implies_true, and_true]
  exact ⟨Nat.zero_le _, Nat.zero_le _, Nat.zero_le _, Nat.zero_le _⟩

/-- A valid marker has canonical bytes. -/
theorem MarkerValid.encoded {transaction : NamespaceMoveTransaction}
    (valid : MarkerValid transaction) :
    ∃ raw, canonicalStruct primitives (Codecs.move.encode transaction) = .ok raw := by
  refine canonicalStruct_of_plain valid.plain (nesting_move transaction) ?_
  have schema : writtenSize (.string transaction.schema) = 27 := by
    rw [valid.schema, writtenSize_string (List.all_iff_forall_prop.mp (by decide))]
    rfl
  have object : writtenSize (.string transaction.objectId) = 73 := writtenSize_sha256Ref valid.object
  have target : writtenSize (Codecs.foreignNamespace.encode transaction.target) ≤ 12 := by
    rw [writtenSize_eq]
    cases transaction.target <;> decide
  have time := writtenSize_timestamp (Bool.and_eq_true_iff.mp valid.changed).1
  have names : (Codecs.moveFields.names.map fun name =>
      weigh Char.utf8Size (printText name) + 1).sum = 43 := by decide
  have limit : maxInputBytes = 65536 := rfl
  change writtenSize (.object _) ≤ _
  rw [writtenSize_object]
  simp only [Codecs.moveFields, Fields.required, Fields.cons, Fields.nil, List.map_cons,
    List.map_nil, List.sum_cons, List.sum_nil, memberSize, List.length_cons, List.length_nil,
    Codec.string] at names ⊢
  generalize weigh Char.utf8Size = weighed at names ⊢
  generalize writtenSize = size at schema object target time ⊢
  omega

/-! ## Whole moves -/

/-- A store without a marker. -/
def withoutMarker (objectRef : String) (store : FederationObjectStore) : FederationObjectStore :=
  store.withFiles .transactions ((store.files .transactions).erase (fileOf ".move.json" objectRef))

/-- The files after a marker was taken away. -/
theorem file?_withoutMarker (objectRef : String) (store : FederationObjectStore)
    (directory : Directory) (name : String) :
    (withoutMarker objectRef store).file? directory name =
      if directory = .transactions ∧ name = fileOf ".move.json" objectRef then none
      else store.file? directory name := by
  rw [withoutMarker, file?_withFiles]
  by_cases here : directory = .transactions
  · rw [if_pos here, OrderedMap.get?_erase, here]
    simp only [true_and]
    rfl
  · rw [if_neg here, if_neg fun same => here same.1]

/-- A move is finished by moving every record and taking the marker away. -/
theorem run_finishNamespaceMove {transaction : NamespaceMoveTransaction}
    (valid : MarkerValid transaction) {store : FederationObjectStore}
    (orderly : Orderly primitives store)
    {records : List (ForeignNamespace × ForeignObjectRecord)}
    (listed : store.foreignRecords primitives transaction.objectId = .ok records)
    (some_ : records ≠ []) :
    ∃ middle, (finishNamespaceMove primitives transaction).run store =
        (.ok (sortBy movedOrder (records.map (destination transaction))),
          withoutMarker transaction.objectId middle) ∧
      Relocated primitives transaction store middle ∧
      ∀ entry ∈ records, Attributed primitives middle transaction.target transaction.objectId
        (destination transaction entry) := by
  obtain ⟨middle, ran, relocated, reached⟩ := run_moveRecords valid.changed orderly
    (nodup_foreignRecords listed) fun entry member => (mem_foreignRecords_iff listed entry).mp member
  refine ⟨middle, ?_, relocated, reached⟩
  have checked := (validateNamespaceTransaction_ok_iff _).mpr valid
  have marker := (moveName_ok_iff ..).mpr (named_fileOf ".move.json" valid.object)
  simp only [finishNamespaceMove, checked, Effect.run_check_bind, Effect.run_read_bind, listed,
    ensure_pos some_]
  rw [Effect.run_bind, ran]
  simp only [marker, Effect.run_check_bind, Effect.run_modify_bind]
  rfl

/-- What a move that succeeds does: every observation of the object stays, all of them are in the
target then, and they are what the move returns. -/
structure Gathered (primitives : Primitives) (transaction : NamespaceMoveTransaction)
    (before after : FederationObjectStore) (moved : List ForeignObjectRecord) : Prop where
  /-- The records were moved. -/
  relocated : Relocated primitives transaction before after
  /-- The object has records. -/
  some_ : moved ≠ []
  /-- All of them are in the target. -/
  target : ∀ placement record,
    Attributed primitives after placement transaction.objectId record → placement = transaction.target
  /-- They are what is returned. -/
  returned : ∀ record, record ∈ moved ↔
    Attributed primitives after transaction.target transaction.objectId record

/-- Records that all reached the target are the records of the object. -/
theorem Relocated.gathered {transaction : NamespaceMoveTransaction}
    {before after : FederationObjectStore}
    (relocated : Relocated primitives transaction before after)
    {records : List (ForeignNamespace × ForeignObjectRecord)}
    (listed : before.foreignRecords primitives transaction.objectId = .ok records)
    (reached : ∀ entry ∈ records, Attributed primitives after transaction.target
      transaction.objectId (destination transaction entry)) (placement : ForeignNamespace)
    (record : ForeignObjectRecord) :
    Attributed primitives after placement transaction.objectId record ↔
      placement = transaction.target ∧ ∃ entry ∈ records, destination transaction entry = record := by
  constructor
  · intro there
    have home : ∃ entry ∈ records, recordKey entry.2 = recordKey record := by
      rcases relocated.back _ _ _ there with was | ⟨-, -, other, source, -, was, rfl⟩
      · exact ⟨(placement, record), (mem_foreignRecords_iff listed _).mpr was, rfl⟩
      · exact ⟨(other, source), (mem_foreignRecords_iff listed _).mpr was, rfl⟩
    obtain ⟨entry, member, same⟩ := home
    have key : recordKey (destination transaction entry) = recordKey entry.2 := by
      unfold destination
      split <;> rfl
    obtain ⟨rfl, equal⟩ := relocated.orderly.unique (reached entry member) there (key.trans same)
    exact ⟨rfl, entry, member, equal⟩
  · rintro ⟨rfl, entry, member, rfl⟩
    exact reached entry member

/-- A move of an orderly store without markers fails before it changes a file, or it gathers the
records of the object in the target and leaves no marker. -/
theorem moveNamespace_cases {store after : FederationObjectStore} (orderly : Orderly primitives store)
    (settled : Settled store) {objectRef : String} {target : ForeignNamespace} {changedAt : String}
    {answer : Except StoreError (List ForeignObjectRecord)}
    (ran : (moveNamespace primitives objectRef target changedAt).run store = (answer, after)) :
    (∃ error, answer = .error error ∧ after = store) ∨
      ∃ moved, answer = .ok moved ∧ Gathered primitives
        ⟨namespaceMoveSchemaV1, objectRef, target, changedAt⟩ store after moved := by
  by_cases request : Wire.isSha256Ref objectRef = true ∧ validTimestamp changedAt = true
  · have valid : MarkerValid ⟨namespaceMoveSchemaV1, objectRef, target, changedAt⟩ :=
      ⟨rfl, request.1, request.2⟩
    obtain ⟨records, listed⟩ := orderly.listed request.1
    simp only [moveNamespace, Effect.run_check_bind, ensure_pos request, Effect.run_read_bind,
      listed] at ran
    by_cases some_ : records ≠ []
    · simp only [ensure_pos some_] at ran
      by_cases home : (records.all fun entry => entry.1 = target) = true
      · simp only [if_pos home, Effect.run_pure, Prod.mk.injEq] at ran
        obtain ⟨rfl, rfl⟩ := ran
        refine .inr ⟨_, rfl, .refl _ orderly, by simpa using some_, ?_, ?_⟩
        · intro placement record there
          have member := (mem_foreignRecords_iff listed (placement, record)).mpr there
          exact of_decide_eq_true (List.all_eq_true.mp home _ member)
        · intro record
          rw [List.mem_map]
          constructor
          · rintro ⟨⟨placement, found⟩, member, rfl⟩
            have placed_ : placement = target := of_decide_eq_true (List.all_eq_true.mp home _ member)
            rw [← placed_]
            exact (mem_foreignRecords_iff listed _).mp member
          · intro there
            exact ⟨_, (mem_foreignRecords_iff listed (target, record)).mpr there, rfl⟩
      · obtain ⟨raw, encoded⟩ : ∃ raw, canonicalStruct primitives (Codecs.move.encode
            ⟨namespaceMoveSchemaV1, objectRef, target, changedAt⟩) = .ok raw := valid.encoded
        have marker := (moveName_ok_iff ..).mpr (named_fileOf ".move.json" request.1)
        -- The marker is written, and every attribution is as it was.
        have wrote := (writeExactOrSame_ok_iff .transactions (fileOf ".move.json" objectRef) raw store
          _).mpr (.inr ⟨settled _, rfl⟩)
        have same : ∀ directory name, directory ≠ .transactions →
            (placed .transactions (fileOf ".move.json" objectRef) raw store).file? directory name =
              store.file? directory name := by
          intro directory name other
          rw [file?_placed, if_neg fun both => other both.1, if_neg fun both => other both.1]
        have marked : Orderly primitives
            (placed .transactions (fileOf ".move.json" objectRef) raw store) :=
          orderly.congr fun placement digest name => same _ name nofun
        have again : (placed .transactions (fileOf ".move.json" objectRef) raw store).foreignRecords
            primitives objectRef = .ok records :=
          foreignRecords_of_files (fun placement name => same _ name nofun) listed
        obtain ⟨middle, finished, relocated, reached⟩ := run_finishNamespaceMove valid marked again
          some_
        simp only [if_neg home, marker, Effect.run_check_bind, encoded] at ran
        rw [Effect.run_bind, wrote] at ran
        simp only [finished, Prod.mk.injEq] at ran
        obtain ⟨rfl, rfl⟩ := ran
        refine .inr ⟨_, rfl, ?_⟩
        have last : ∀ placement digest name,
            (withoutMarker objectRef middle).file? (.attributions placement digest) name =
              middle.file? (.attributions placement digest) name := by
          intro placement digest name
          rw [file?_withoutMarker, if_neg fun both => nomatch both.1]
        have gathered := relocated.gathered again reached
        have whole : Relocated primitives ⟨namespaceMoveSchemaV1, objectRef, target, changedAt⟩ store
            (withoutMarker objectRef middle) := by
          refine relocated.congr (fun _ _ name => same _ name nofun) last fun directory name out => ?_
          rw [file?_withoutMarker]
          by_cases marked : directory = .transactions ∧ name = fileOf ".move.json" objectRef
          · rw [if_pos marked, marked.1, settled]
          · rw [if_neg marked, relocated.elsewhere directory name out, file?_placed, if_neg marked]
            by_cases temporary : directory = .transactions ∧
                name = Files.temporary (fileOf ".move.json" objectRef)
            · rw [if_pos temporary, temporary.1, settled]
            · rw [if_neg temporary]
        refine ⟨whole, ?_, ?_, ?_⟩
        · intro none_
          have count := congrArg List.length none_
          rw [(sortBy_perm ..).length_eq, List.length_map] at count
          exact some_ (List.length_eq_zero_iff.mp count)
        · intro placement record there
          exact ((gathered _ _).mp ((attributed_congr last ..).mp there)).1
        · intro record
          rw [mem_sortBy, List.mem_map, attributed_congr last, gathered]
          exact (and_iff_right rfl).symm
    · simp only [ensure_neg some_, Prod.mk.injEq] at ran
      exact .inl ⟨_, ran.1.symm, ran.2.symm⟩
  · simp only [moveNamespace, Effect.run_check_bind, ensure_neg request, Prod.mk.injEq] at ran
    exact .inl ⟨_, ran.1.symm, ran.2.symm⟩

end QsolFed.FederationObjectStore
