import QsolFed.Store.Conservation

/-!
# Stores that are stopped

An operation on the store can be stopped between any two of its steps, also the one that opens the
store again. What its files hold does not depend on that: contents stay under their digest, and a
file that is named after an attribution is the record of it, because a file is put in place as a
whole.
-/
namespace QsolFed.FederationObjectStore

open Checked Json Canonical

variable {primitives : Primitives}

/-! ## Legible files -/

variable (primitives) in
/-- A file holds what its name says: the record of an attribution, or the contents of a digest. -/
structure Proper (directory : Directory) (name : String) (raw : ByteArray) : Prop where
  /-- A record is the one of its attribution. -/
  record : ∀ placement objectRef attribution, Wire.isSha256Ref objectRef = true →
    Wire.isSha256Ref attribution = true → directory = .attributions placement (digestOf objectRef) →
    name = fileOf ".record.json" attribution →
    ∃ record, readRecord primitives raw placement objectRef attribution = .ok record
  /-- Contents have the digest. -/
  contents : ∀ reference, Wire.isSha256Ref reference = true →
    directory = .objects ∨ directory = .provenance → name = fileOf ".json" reference →
    Digest.sha256Ref primitives raw = reference

variable (primitives) in
/-- Every lasting file of the store holds what its name says. -/
def Legible (store : FederationObjectStore) : Prop :=
  ∀ directory name raw, Lasting name → store.file? directory name = some raw →
    Proper primitives directory name raw

/-- A store without objects is legible. -/
theorem legible_empty : Legible primitives empty := by
  intro directory name _ _ stored
  have none_ : empty.file? directory name = none := by
    cases directory with
    | attributions placement digest => cases placement <;> rfl
    | objects | provenance | descendants | transactions => rfl
  rw [none_] at stored
  cases stored

/-- A store is legible when each of its lasting files was in one that is, or is proper. -/
theorem Legible.later {before after : FederationObjectStore} (legible : Legible primitives before)
    (each : ∀ directory name raw, Lasting name → after.file? directory name = some raw →
      before.file? directory name = some raw ∨ Proper primitives directory name raw) :
    Legible primitives after := by
  intro directory name raw lasting stored
  rcases each directory name raw lasting stored with found | proper
  · exact legible directory name raw lasting found
  · exact proper

/-- A store that shows the same files is legible. -/
theorem Legible.same {before after : FederationObjectStore} (legible : Legible primitives before)
    (same : Same before after) : Legible primitives after :=
  legible.later fun directory name _ _ stored =>
    .inl ((same.file? directory name).symm.trans stored)

/-- Files that are neither records nor contents are proper. -/
theorem proper_elsewhere {directory : Directory} (objects : directory ≠ .objects)
    (provenance : directory ≠ .provenance)
    (attributions : ∀ placement digest, directory ≠ .attributions placement digest) (name : String)
    (raw : ByteArray) : Proper primitives directory name raw where
  record placement _ _ _ _ here _ := absurd here (attributions placement _)
  contents _ _ here _ := (here.elim objects provenance).elim

/-- Contents are proper under their digest. -/
theorem proper_contents {directory : Directory}
    (contents : directory = .objects ∨ directory = .provenance) (bytes : ByteArray) :
    Proper primitives directory (fileOf ".json" (Digest.sha256Ref primitives bytes)) bytes where
  record _ _ _ _ _ here _ := by
    rcases contents with rfl | rfl <;> cases here
  contents reference shape _ same :=
    fileOf_inj (isSha256Ref_digest primitives bytes) shape same

/-- A valid record is proper under its attribution. -/
theorem ForeignValid.proper {record : ForeignObjectRecord} {placement : ForeignNamespace}
    {objectRef : String} (valid : ForeignValid record placement objectRef)
    (shape : Wire.isSha256Ref objectRef = true) {raw : ByteArray}
    (encoded : canonicalStruct primitives (Codecs.foreignRecord.encode record) = .ok raw) :
    Proper primitives (.attributions placement (digestOf objectRef))
      (fileOf ".record.json" (attributionOf primitives (recordKey record))) raw where
  record other reference attribution own named directory name := by
    obtain ⟨rfl, digests⟩ := Directory.attributions.inj directory
    obtain rfl := digestOf_inj shape own digests
    obtain rfl := fileOf_inj (isSha256Ref_digest primitives _) named name
    exact ⟨record, valid.readRecord shape encoded⟩
  contents _ _ here _ := by
    rcases here with same | same <;> cases same

/-! ## Operations -/

/-- A store stays legible while a proper file is written. -/
theorem keeps_writeExactOrSame {directory : Directory} {name : String} {bytes : ByteArray}
    (proper : Proper primitives directory name bytes) :
    Effect.Keeps (Legible primitives) (writeExactOrSame directory name bytes) := by
  intro store legible stopped member
  rcases mem_states_writeExactOrSame member with same | ⟨-, pending | rfl⟩
  · exact legible.same same
  · refine legible.later fun other file raw lasting stored => .inl ?_
    rw [pending other file fun named => lasting _ named.2] at stored
    exact stored
  · refine legible.later fun other file raw lasting stored => ?_
    rw [file?_placed] at stored
    split_ifs at stored with here
    · obtain ⟨rfl, rfl⟩ := here
      obtain rfl := Option.some.inj stored
      exact .inr proper
    · exact .inl stored

/-- A store stays legible while canonical contents are written. -/
theorem keeps_writeContentAddressed {directory : Directory}
    (contents : directory = .objects ∨ directory = .provenance) {bytes : ByteArray}
    (canonical : requireExactCanonical primitives bytes = .ok ()) (reference : String) :
    Effect.Keeps (Legible primitives)
      (writeContentAddressed primitives directory reference bytes) := by
  refine Effect.keeps_check_bind fun derived identified => ?_
  refine Effect.keeps_check_bind fun _ same => ?_
  refine Effect.keeps_check_bind fun name named => ?_
  rw [objectId_of_canonical canonical] at identified
  obtain rfl := Except.ok.inj identified
  obtain rfl := (ensure_ok_iff ..).mp same
  obtain ⟨-, rfl⟩ := (named_iff ..).mp ((contentName_ok_iff ..).mp named)
  exact keeps_writeExactOrSame (proper_contents contents bytes)

/-- A store stays legible while a valid record is written. -/
theorem keeps_writeRecord {record : ForeignObjectRecord} {placement : ForeignNamespace}
    {objectRef : String} (valid : ForeignValid record placement objectRef)
    (shape : Wire.isSha256Ref objectRef = true) : Effect.Keeps (Legible primitives)
      (writeRecord primitives record (attributionOf primitives (recordKey record))) := by
  refine Effect.keeps_check_bind fun digest derived => ?_
  refine Effect.keeps_check_bind fun name named => ?_
  refine Effect.keeps_check_bind fun bytes encoded => ?_
  obtain ⟨-, rfl⟩ := (digestFromRef_ok_iff ..).mp derived
  obtain ⟨-, rfl⟩ := (named_iff ..).mp ((recordName_ok_iff ..).mp named)
  have proper := valid.proper shape encoded
  rw [← valid.object, ← valid.namespace_] at proper
  exact keeps_writeExactOrSame proper

/-- A store stays legible while an object is put into it. -/
theorem Observation.keeps_put (observation : Observation) (placement : ForeignNamespace)
    (receivedAt : String) :
    Effect.Keeps (Legible primitives) (observation.put primitives placement receivedAt) := by
  refine Effect.keeps_check_bind fun _ _ => ?_
  refine Effect.keeps_check_bind fun _ canonical => ?_
  refine Effect.keeps_check_bind fun objectRef identified => ?_
  rw [objectId_of_canonical canonical] at identified
  obtain rfl := Except.ok.inj identified
  refine Effect.Keeps.bind ?_ fun id => ?_
  · cases observation.provenance with
    | none => exact Effect.keeps_done _
    | some raw =>
      refine Effect.keeps_check_bind fun reference checked => ?_
      have own := ((checkProvenance_ok_iff ..).mp checked).1
      exact (keeps_writeContentAddressed (.inr rfl) own reference).bind fun _ =>
        Effect.keeps_done _
  refine (keeps_writeContentAddressed (.inl rfl) canonical _).bind fun _ => ?_
  refine Effect.keeps_check_bind fun _ validated => ?_
  refine Effect.keeps_check_bind fun attribution attributed => ?_
  refine Effect.keeps_read_bind fun _ found _ _ => ?_
  have valid := (validateForeignRecord_none_iff ..).mp validated
  rw [attributionId_of_shape valid.key] at attributed
  obtain rfl := Except.ok.inj attributed
  cases found with
  | some existing => exact Effect.keeps_done _
  | none => exact (keeps_writeRecord valid (observation.reference_shape primitives)).bind fun _ => Effect.keeps_done _

/-- A store stays legible while a record of one of its objects is moved. -/
theorem keeps_moveRecord {transaction : NamespaceMoveTransaction}
    (checked : validateNamespaceTransaction transaction = .ok ())
    {entry : ForeignNamespace × ForeignObjectRecord}
    (valid : ForeignValid entry.2 entry.1 transaction.objectId) :
    Effect.Keeps (Legible primitives) (moveRecord primitives transaction entry) := by
  obtain ⟨-, shape, changed⟩ := (validateNamespaceTransaction_ok_iff _).mp checked
  refine Effect.keeps_check_bind fun attribution attributed => ?_
  rw [attributionId_of_shape valid.key] at attributed
  obtain rfl := Except.ok.inj attributed
  by_cases home : entry.1 = transaction.target
  · rw [if_pos home]
    exact Effect.keeps_done _
  · rw [if_neg home]
    refine Effect.Keeps.bind ?_ fun _ => ?_
    · rw [← recordKey_movedRecord transaction entry.2]
      exact keeps_writeRecord (valid.moved changed) shape
    refine Effect.keeps_check_bind fun digest _ => ?_
    refine Effect.keeps_check_bind fun name _ => ?_
    refine Effect.Keeps.bind ?_ fun _ => Effect.keeps_done _
    refine Effect.keeps_read_bind fun _ existing _ _ => ?_
    cases existing with
    | none => exact Effect.keeps_done _
    | some raw =>
      refine Effect.Keeps.bind (Effect.keeps_modify fun store legible => ?_) fun _ => ?_
      · refine legible.later fun directory file bytes _ stored => .inl ?_
        rw [file?_withFiles] at stored
        split_ifs at stored with here
        · rw [OrderedMap.get?_erase] at stored
          split_ifs at stored
          rw [here]
          exact stored
        · exact stored
      · refine Effect.keeps_modify fun store legible => ?_
        exact legible.same fun other => files_removeEmptyDirectory store entry.1 digest other

/-- A store stays legible while the records of an object are moved. -/
theorem keeps_finishNamespaceMove (transaction : NamespaceMoveTransaction) :
    Effect.Keeps (Legible primitives) (finishNamespaceMove primitives transaction) := by
  refine Effect.keeps_check_bind fun _ checked => ?_
  refine Effect.keeps_read_bind fun store records _ listed => ?_
  refine Effect.keeps_check_bind fun _ _ => ?_
  refine Effect.Keeps.bind (Effect.keeps_forEach fun entry member => ?_) fun moved => ?_
  · obtain ⟨name, raw, -, holds⟩ := (mem_foreignRecords listed entry).mp member
    exact keeps_moveRecord checked holds.named.2
  refine Effect.keeps_check_bind fun marker _ => ?_
  refine Effect.Keeps.bind (Effect.keeps_modify fun store legible => ?_) fun _ =>
    Effect.keeps_done _
  refine legible.later fun directory file bytes _ stored => .inl ?_
  rw [file?_withFiles] at stored
  split_ifs at stored with here
  · rw [OrderedMap.get?_erase] at stored
    split_ifs at stored
    rw [here]
    exact stored
  · exact stored

/-- A store stays legible while a move is asked for. -/
theorem keeps_moveNamespace (objectRef : String) (target : ForeignNamespace) (changedAt : String) :
    Effect.Keeps (Legible primitives)
      (moveNamespace primitives objectRef target changedAt) := by
  refine Effect.keeps_check_bind fun _ _ => ?_
  refine Effect.keeps_read_bind fun _ records _ _ => ?_
  refine Effect.keeps_check_bind fun _ _ => ?_
  by_cases home : records.all fun entry => entry.1 = target
  · rw [if_pos home]
    exact Effect.keeps_done _
  · rw [if_neg home]
    refine Effect.keeps_check_bind fun name _ => ?_
    refine Effect.keeps_check_bind fun bytes _ => ?_
    have proper : Proper primitives .transactions name bytes :=
      proper_elsewhere (by nofun) (by nofun) (by nofun) name bytes
    exact (keeps_writeExactOrSame proper).bind fun _ => keeps_finishNamespaceMove _

/-- A store stays legible while a local object is made of a foreign one. -/
theorem keeps_createLocalDescendant (localNode parentForeignObject : String)
    (localObject : ByteArray) (createdAt : String) : Effect.Keeps (Legible primitives)
      (createLocalDescendant primitives localNode parentForeignObject localObject createdAt) := by
  refine Effect.keeps_check_bind fun _ _ => ?_
  refine Effect.keeps_read_bind fun _ records _ _ => ?_
  refine Effect.keeps_check_bind fun _ _ => ?_
  refine Effect.keeps_check_bind fun _ canonical => ?_
  refine Effect.keeps_check_bind fun descendantId _ => ?_
  refine Effect.keeps_check_bind fun _ _ => ?_
  refine (keeps_writeContentAddressed (.inl rfl) canonical _).bind fun _ => ?_
  refine Effect.keeps_check_bind fun _ _ => ?_
  refine Effect.keeps_check_bind fun bytes encoded => ?_
  refine Effect.keeps_check_bind fun provenanceId _ => ?_
  refine (keeps_writeContentAddressed (.inr rfl) (requireExactCanonical_of_struct encoded)
    _).bind fun _ => ?_
  refine Effect.keeps_check_bind fun name _ => ?_
  refine Effect.keeps_check_bind fun raw _ => ?_
  have proper : Proper primitives .descendants name raw :=
    proper_elsewhere (by nofun) (by nofun) (by nofun) name raw
  exact (keeps_writeExactOrSame proper).bind fun _ => Effect.keeps_done _

/-- A store stays legible while it is opened. -/
theorem keeps_openStore : Effect.Keeps (Legible primitives) (openStore primitives) := by
  refine Effect.keeps_read_bind fun _ markers _ _ => ?_
  refine Effect.Keeps.bind (Effect.keeps_forEach fun name _ => ?_) fun _ => Effect.keeps_done _
  refine Effect.keeps_read_bind fun _ raw _ _ => ?_
  refine Effect.keeps_check_bind fun _ _ => ?_
  refine Effect.keeps_check_bind fun transaction _ => ?_
  refine Effect.keeps_check_bind fun _ _ => ?_
  refine Effect.keeps_check_bind fun expected _ => ?_
  refine Effect.keeps_check_bind fun _ _ => ?_
  exact (keeps_finishNamespaceMove transaction).bind fun _ => Effect.keeps_done _

/-! ## Runs -/

/-- The stores that an operation goes through, to where it ends. -/
def StoreEvent.stops (primitives : Primitives) (store : FederationObjectStore) :
    StoreEvent → List FederationObjectStore
  | .put observation placement receivedAt =>
    (observation.put primitives placement receivedAt).states store
  | .moved objectRef target changedAt =>
    (moveNamespace primitives objectRef target changedAt).states store
  | .derived localNode parentForeignObject localObject createdAt =>
    (createLocalDescendant primitives localNode parentForeignObject localObject createdAt).states
      store
  | .opened => (openStore primitives).states store

/-- An operation is performed, as far as to one of its steps. -/
def StoppedStep (primitives : Primitives) (store : FederationObjectStore) (event : StoreEvent)
    (next : FederationObjectStore) : Prop := next ∈ event.stops primitives store

/-- An operation that is performed is performed to its end. -/
theorem StoreStep.stopped {store : FederationObjectStore} {event : StoreEvent}
    {next : FederationObjectStore} (step : StoreStep primitives store event next) :
    StoppedStep primitives store event next := by
  cases event <;> exact step ▸ Effect.run_mem_states _ store

/-- A store that operations are performed on is legible, wherever they are stopped. -/
theorem legible_of_run {events : List StoreEvent} {store : FederationObjectStore}
    (run : Run (StoppedStep primitives) empty events store) : Legible primitives store := by
  refine run.invariant (fun _ store => Legible primitives store) legible_empty ?_
  intro _ store event next _ legible step
  cases event with
  | put observation placement receivedAt =>
    exact observation.keeps_put placement receivedAt store legible next step
  | moved objectRef target changedAt =>
    exact keeps_moveNamespace objectRef target changedAt store legible next step
  | derived localNode parentForeignObject localObject createdAt =>
    exact keeps_createLocalDescendant localNode parentForeignObject localObject createdAt store
      legible next step
  | opened => exact keeps_openStore store legible next step

end QsolFed.FederationObjectStore
