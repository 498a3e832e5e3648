import QsolFed.Library.Run
import QsolFed.Store.Descendants

/-!
# Observations are conserved

Runs of a store that is put into, moved in, derived from and opened again, without a failure of the
disk. Every observation of an object, its source and its provenance, is in one namespace only, and
no operation loses one: a put of what is there returns it and changes nothing, a move gathers the
observations of its object in the target, and contents stay as they are.
-/
namespace QsolFed.FederationObjectStore

open Checked Json Canonical

variable {primitives : Primitives}

/-! ## Puts -/

/-- A provenance that was written is added. -/
theorem WrittenProvenance.accrued {provenance : Option ByteArray}
    {before after : FederationObjectStore}
    (written : WrittenProvenance primitives provenance before after) : Accrued before after := by
  cases provenance with
  | none =>
    obtain rfl : after = before := written
    exact Accrued.refl after
  | some raw => exact Written.accrued (.inr rfl) written

/-- A new record of an object was written, after its contents. -/
def Entered (primitives : Primitives) (observation : Observation) (placement : ForeignNamespace)
    (receivedAt : String) (before after : FederationObjectStore) : Prop :=
  observation.Accepted primitives ∧ validTimestamp receivedAt = true ∧
    ∃ two raw, Accrued before two ∧
      (∀ other, two.file? (.attributions other (digestOf (observation.reference primitives)))
        (keyFile primitives (observation.key primitives)) = none) ∧
      canonicalStruct primitives (Codecs.foreignRecord.encode
        (observation.record primitives placement receivedAt)) = .ok raw ∧
      after = placed (.attributions placement (digestOf (observation.reference primitives)))
        (keyFile primitives (observation.key primitives)) raw two

/-- A put adds contents only, or it also enters a new record. -/
theorem Observation.put_cases {observation : Observation} {placement : ForeignNamespace}
    {receivedAt : String} {before after : FederationObjectStore}
    {answer : Except StoreError ForeignObjectRecord}
    (ran : (observation.put primitives placement receivedAt).run before = (answer, after)) :
    Accrued before after ∨
      (answer = .ok (observation.record primitives placement receivedAt) ∧
        Entered primitives observation placement receivedAt before after) := by
  cases answer with
  | error error => exact .inl (observation.failing_put placement receivedAt _ _ _ ran)
  | ok record =>
    obtain ⟨accepted, received, one, two, provenance, object, found⟩ := (put_ok_iff ..).mp ran
    have accrued := Accrued.trans _ _ _ provenance.accrued (object.accrued (.inl rfl))
    rcases found with ⟨-, rfl⟩ | ⟨absent, rfl, raw, encoded, rfl⟩
    · exact .inl accrued
    · have files := (findRecord_none_iff _ (observation.reference_shape primitives)
        (observation.attribution_shape primitives)).mp absent
      exact .inr ⟨rfl, accepted, received, two, raw, accrued, files, encoded, rfl⟩

/-- Contents that are added leave the attributions as they are. -/
theorem Accrued.attributions {before after : FederationObjectStore} (accrued : Accrued before after)
    (placement : ForeignNamespace) (digest name : String) :
    after.file? (.attributions placement digest) name =
      before.file? (.attributions placement digest) name := accrued.elsewhere _ name nofun nofun

/-- The files of attributions after a record was entered. -/
theorem Entered.files {observation : Observation} {placement : ForeignNamespace}
    {receivedAt : String} {before after : FederationObjectStore}
    (entered : Entered primitives observation placement receivedAt before after)
    (orderly : Orderly primitives before) :
    ∃ raw, Holds primitives placement (observation.reference primitives)
        (keyFile primitives (observation.key primitives)) raw
        (observation.record primitives placement receivedAt) ∧
      (∀ other, before.file? (.attributions other (digestOf (observation.reference primitives)))
        (keyFile primitives (observation.key primitives)) = none) ∧
      ∀ other digest name, after.file? (.attributions other digest) name =
        if other = placement ∧ digest = digestOf (observation.reference primitives) ∧
          name = keyFile primitives (observation.key primitives) then some raw
        else before.file? (.attributions other digest) name := by
  obtain ⟨accepted, received, two, raw, accrued, absent, encoded, rfl⟩ := entered
  have shape := observation.reference_shape primitives
  have valid := @Observation.record_valid primitives _ accepted.node placement _ received
  have calm := orderly.congr accrued.attributions
  refine ⟨raw, ?_, ?_, ?_⟩
  · exact ⟨observation.attribution primitives,
      named_fileOf ".record.json" (observation.attribution_shape primitives),
      valid.readRecord shape encoded⟩
  · intro other
    rw [← accrued.attributions]
    exact absent other
  · intro other digest name
    rw [file?_placed, ← accrued.attributions]
    by_cases here : other = placement ∧ digest = digestOf (observation.reference primitives) ∧
        name = keyFile primitives (observation.key primitives)
    · obtain ⟨rfl, rfl, rfl⟩ := here
      rw [if_pos ⟨rfl, rfl⟩, if_pos ⟨rfl, rfl, rfl⟩]
    · have apart : ¬(Directory.attributions other digest =
          .attributions placement (digestOf (observation.reference primitives)) ∧
          name = keyFile primitives (observation.key primitives)) := by
        rintro ⟨same, rfl⟩
        obtain ⟨rfl, rfl⟩ := Directory.attributions.inj same
        exact here ⟨rfl, rfl, rfl⟩
      rw [if_neg apart, if_neg here]
      split_ifs with temporary
      · refine (Option.eq_none_iff_forall_ne_some.mpr fun bytes found => ?_).symm
        exact calm.lasting found _ temporary.2
      · rfl

/-- The attributions after a record was entered are those before and the new one. -/
theorem Entered.attributed_iff {observation : Observation} {placement : ForeignNamespace}
    {receivedAt : String} {before after : FederationObjectStore}
    (entered : Entered primitives observation placement receivedAt before after)
    (orderly : Orderly primitives before) (other : ForeignNamespace) (objectRef : String)
    (record : ForeignObjectRecord) : Attributed primitives after other objectRef record ↔
      Attributed primitives before other objectRef record ∨
        (other = placement ∧ objectRef = observation.reference primitives ∧
          record = observation.record primitives placement receivedAt) := by
  obtain ⟨raw, holds, absent, files⟩ := entered.files orderly
  have own := observation.reference_shape primitives
  constructor
  · rintro ⟨shape, name, bytes, stored, held⟩
    rw [files] at stored
    split_ifs at stored with here
    · obtain ⟨rfl, digests, rfl⟩ := here
      obtain rfl := digestOf_inj shape own digests
      obtain rfl := Option.some.inj stored
      exact .inr ⟨rfl, rfl, held.unique holds⟩
    · exact .inl ⟨shape, name, bytes, stored, held⟩
  · rintro (⟨shape, name, bytes, stored, held⟩ | ⟨rfl, rfl, rfl⟩)
    · refine ⟨shape, name, bytes, ?_, held⟩
      rw [files, if_neg]
      · exact stored
      · rintro ⟨rfl, digests, rfl⟩
        rw [digests, absent] at stored
        cases stored
    · refine ⟨own, _, raw, ?_, holds⟩
      rw [files, if_pos ⟨rfl, rfl, rfl⟩]

/-- A store stays orderly when a record is entered. -/
theorem Entered.orderly {observation : Observation} {placement : ForeignNamespace}
    {receivedAt : String} {before after : FederationObjectStore}
    (entered : Entered primitives observation placement receivedAt before after)
    (orderly : Orderly primitives before) : Orderly primitives after := by
  obtain ⟨raw, holds, absent, files⟩ := entered.files orderly
  constructor
  · intro other digest name bytes stored
    rw [files] at stored
    split_ifs at stored with here
    · obtain ⟨rfl, rfl, rfl⟩ := here
      obtain rfl := Option.some.inj stored
      exact ⟨_, _, observation.reference_shape primitives, rfl, holds⟩
    · exact orderly.records _ _ _ _ stored
  · intro one two digest name bytes other first second
    rw [files] at first second
    split_ifs at first second with here there there
    · exact here.1.trans there.1.symm
    · rw [here.2.1, here.2.2, absent] at second
      cases second
    · rw [there.2.1, there.2.2, absent] at first
      cases first
    · exact orderly.once _ _ _ _ _ _ first second

/-- Whatever lasts stays when a record is entered. -/
theorem Entered.kept {observation : Observation} {placement : ForeignNamespace}
    {receivedAt : String} {before after : FederationObjectStore}
    (entered : Entered primitives observation placement receivedAt before after)
    {directory : Directory} {name : String} {bytes : ByteArray} (lasting : Lasting name)
    (outside : ∀ other digest, directory ≠ .attributions other digest)
    (stored : before.file? directory name = some bytes) :
    after.file? directory name = some bytes := by
  obtain ⟨-, -, two, raw, accrued, -, -, rfl⟩ := entered
  rw [file?_placed, if_neg fun same => outside _ _ same.1, if_neg fun same => outside _ _ same.1]
  exact accrued.kept _ _ _ lasting stored

/-! ## Operations -/

/-- An operation on the store. -/
inductive StoreEvent where
  /-- An object is put into a namespace. -/
  | put (observation : Observation) (placement : ForeignNamespace) (receivedAt : String)
  /-- The records of an object are moved. -/
  | moved (objectRef : String) (target : ForeignNamespace) (changedAt : String)
  /-- A local object is made of a foreign one. -/
  | derived (localNode parentForeignObject : String) (localObject : ByteArray) (createdAt : String)
  /-- The store is opened again. -/
  | opened

/-- What an operation leaves, whether it succeeds or not. -/
def perform (primitives : Primitives) (store : FederationObjectStore) :
    StoreEvent → FederationObjectStore
  | .put observation placement receivedAt =>
    ((observation.put primitives placement receivedAt).run store).2
  | .moved objectRef target changedAt =>
    ((moveNamespace primitives objectRef target changedAt).run store).2
  | .derived localNode parentForeignObject localObject createdAt =>
    ((createLocalDescendant primitives localNode parentForeignObject localObject createdAt).run
      store).2
  | .opened => ((openStore primitives).run store).2

/-- An operation is performed. -/
def StoreStep (primitives : Primitives) (store : FederationObjectStore) (event : StoreEvent)
    (next : FederationObjectStore) : Prop := next = perform primitives store event

/-- The contents that an operation brings from elsewhere. -/
def StoreEvent.contents : StoreEvent → List ByteArray
  | .put observation _ _ => observation.object :: observation.provenance.toList
  | _ => []

/-- No observation is lost, and contents stay as they are. -/
structure Conserved (primitives : Primitives) (before after : FederationObjectStore) : Prop where
  /-- Contents stay. -/
  contents : ∀ directory name bytes, directory = .objects ∨ directory = .provenance →
    Lasting name → before.file? directory name = some bytes → after.file? directory name = some bytes
  /-- Every observation stays in one of the namespaces. -/
  attributions : ∀ placement objectRef record,
    Attributed primitives before placement objectRef record →
    ∃ other kept, Attributed primitives after other objectRef kept ∧
      recordKey kept = recordKey record

/-- Nothing is lost when contents are added. -/
theorem Accrued.conserved {before after : FederationObjectStore} (accrued : Accrued before after) :
    Conserved primitives before after where
  contents _ _ _ _ lasting stored := accrued.kept _ _ _ lasting stored
  attributions placement _ record there :=
    ⟨placement, record, (attributed_congr accrued.attributions ..).mpr there, rfl⟩

/-- Nothing is lost when a record is entered. -/
theorem Entered.conserved {observation : Observation} {placement : ForeignNamespace}
    {receivedAt : String} {before after : FederationObjectStore}
    (entered : Entered primitives observation placement receivedAt before after)
    (orderly : Orderly primitives before) : Conserved primitives before after where
  contents _ _ _ contents lasting stored := by
    refine entered.kept lasting (fun other digest same => ?_) stored
    rcases contents with rfl | rfl <;> cases same
  attributions other objectRef record there :=
    ⟨other, record, (entered.attributed_iff orderly ..).mpr (.inl there), rfl⟩

/-- Nothing is lost when records are moved. -/
theorem Relocated.conserved {transaction : NamespaceMoveTransaction}
    {before after : FederationObjectStore}
    (relocated : Relocated primitives transaction before after) :
    Conserved primitives before after where
  contents directory name bytes contents _ stored := by
    rw [relocated.elsewhere directory name fun other digest same => ?_, stored]
    rcases contents with rfl | rfl <;> cases same
  attributions placement objectRef record there := by
    rcases relocated.forth _ _ _ there with stays | ⟨-, -, moved⟩
    · exact ⟨placement, record, stays, rfl⟩
    · exact ⟨_, _, moved, rfl⟩

/-- A record stands for an observation that was put with these operations, whose contents are in the
store. -/
def Backed (primitives : Primitives) (events : List StoreEvent) (store : FederationObjectStore)
    (objectRef : String) (key : AttributionKey) : Prop :=
  ∃ observation : Observation, observation.Accepted primitives ∧
    observation.reference primitives = objectRef ∧ observation.key primitives = key ∧
    (∀ bytes ∈ observation.object :: observation.provenance.toList,
      ∃ event ∈ events, bytes ∈ event.contents) ∧
    store.file? .objects (fileOf ".json" (observation.reference primitives)) =
      some observation.object ∧
    ∀ raw ∈ observation.provenance,
      store.file? .provenance (fileOf ".json" (Digest.sha256Ref primitives raw)) = some raw

/-- A record stays backed when nothing is lost. -/
theorem Backed.later {events : List StoreEvent} {before after : FederationObjectStore}
    {objectRef : String} {key : AttributionKey} (backed : Backed primitives events before objectRef key)
    (conserved : Conserved primitives before after) (event : StoreEvent) :
    Backed primitives (events ++ [event]) after objectRef key := by
  obtain ⟨observation, accepted, reference, same, brought, object, provenance⟩ := backed
  refine ⟨observation, accepted, reference, same, fun bytes member => ?_, ?_, fun raw given => ?_⟩
  · obtain ⟨earlier, listed, inside⟩ := brought bytes member
    exact ⟨earlier, List.mem_append_left _ listed, inside⟩
  · exact conserved.contents _ _ _ (.inl rfl)
      (lasting_fileOf _ (observation.reference_shape primitives)) object
  · exact conserved.contents _ _ _ (.inr rfl) (lasting_fileOf _ (isSha256Ref_digest primitives raw))
      (provenance raw given)

/-- What holds of a store in every run: it is orderly, no marker is left, and every record stands
for an observation that was put. -/
structure Kept (primitives : Primitives) (events : List StoreEvent) (store : FederationObjectStore) :
    Prop where
  /-- The store is orderly. -/
  orderly : Orderly primitives store
  /-- No marker is left. -/
  settled : Settled store
  /-- Every record stands for an observation. -/
  backed : ∀ placement objectRef record, Attributed primitives store placement objectRef record →
    Backed primitives events store objectRef (recordKey record)

/-- What holds of a store holds after an operation that adds contents. -/
theorem Kept.accrued {events : List StoreEvent} {before after : FederationObjectStore}
    (kept : Kept primitives events before) (accrued : Accrued before after) (event : StoreEvent) :
    Kept primitives (events ++ [event]) after where
  orderly := kept.orderly.congr accrued.attributions
  settled name := (accrued.elsewhere .transactions name nofun nofun).trans (kept.settled name)
  backed _ _ _ there :=
    (kept.backed _ _ _ ((attributed_congr accrued.attributions ..).mp there)).later
      accrued.conserved event

/-- No marker is left after a store without markers was opened again, and nothing is changed. -/
theorem openStore_settled {store : FederationObjectStore} (settled : Settled store) :
    (openStore primitives).run store = (.ok ⟨⟩, store) := by
  have none_ : store.transactions.entries = [] := by
    refine List.eq_nil_iff_forall_not_mem.mpr fun entry member => ?_
    have stored := (OrderedMap.mem_entries ..).mp member
    have absent : store.transactions.get? entry.1 = none := settled entry.1
    rw [absent] at stored
    cases stored
  simp only [openStore, Effect.run_read_bind, none_]
  rfl

/-- Every operation keeps what holds of a store, and nothing is lost. -/
theorem Kept.perform {events : List StoreEvent} {store : FederationObjectStore}
    (kept : Kept primitives events store) (event : StoreEvent) :
    Kept primitives (events ++ [event]) (perform primitives store event) ∧
      Conserved primitives store (perform primitives store event) := by
  cases event with
  | put observation placement receivedAt =>
    rcases ran : (observation.put primitives placement receivedAt).run store with ⟨answer, after⟩
    have left : FederationObjectStore.perform primitives store
        (.put observation placement receivedAt) = after := congrArg Prod.snd ran
    rw [left]
    rcases Observation.put_cases ran with accrued | ⟨rfl, entered⟩
    · exact ⟨kept.accrued accrued _, accrued.conserved⟩
    · have conserved := entered.conserved kept.orderly
      have held := Observation.held_of_put ran
      refine ⟨⟨entered.orderly kept.orderly, fun name => ?_, ?_⟩, conserved⟩
      · obtain ⟨-, -, two, raw, accrued, -, -, rfl⟩ := entered
        rw [file?_placed, if_neg nofun, if_neg nofun]
        exact (accrued.elsewhere .transactions name nofun nofun).trans (kept.settled name)
      · intro other objectRef record there
        rcases (entered.attributed_iff kept.orderly ..).mp there with was | ⟨rfl, rfl, rfl⟩
        · exact (kept.backed _ _ _ was).later conserved _
        · refine ⟨observation, entered.1, rfl, rfl, fun bytes member => ?_, held.object,
            held.provenance⟩
          exact ⟨_, List.mem_append_right _ (List.mem_singleton_self _), member⟩
  | moved objectRef target changedAt =>
    rcases ran : (moveNamespace primitives objectRef target changedAt).run store with
      ⟨answer, after⟩
    have left : FederationObjectStore.perform primitives store
        (.moved objectRef target changedAt) = after := congrArg Prod.snd ran
    rw [left]
    rcases moveNamespace_cases kept.orderly kept.settled ran with ⟨_, -, rfl⟩ | ⟨_, -, gathered⟩
    · exact ⟨kept.accrued (Accrued.refl _) _, (Accrued.refl _).conserved⟩
    · have conserved := gathered.relocated.conserved
      refine ⟨⟨gathered.relocated.orderly, fun name => ?_, ?_⟩, conserved⟩
      · exact (gathered.relocated.elsewhere .transactions name nofun).trans (kept.settled name)
      · intro placement object record there
        rcases gathered.relocated.back _ _ _ there with was | ⟨-, -, other, source, -, was, rfl⟩
        · exact (kept.backed _ _ _ was).later conserved _
        · exact (kept.backed _ _ _ was).later conserved _
  | derived localNode parentForeignObject localObject createdAt =>
    rcases ran : (createLocalDescendant primitives localNode parentForeignObject localObject
      createdAt).run store with ⟨answer, after⟩
    have left : FederationObjectStore.perform primitives store
        (.derived localNode parentForeignObject localObject createdAt) = after :=
      congrArg Prod.snd ran
    rw [left]
    rcases createLocalDescendant_cases ran with ⟨_, -, accrued⟩ | ⟨record, -, derivation⟩
    · exact ⟨kept.accrued accrued _, accrued.conserved⟩
    · have same : ∀ placement digest name, after.file? (.attributions placement digest) name =
          store.file? (.attributions placement digest) name :=
        fun placement digest name => derivation.elsewhere name nofun nofun nofun
      have conserved : Conserved primitives store after :=
        ⟨fun _ _ _ _ lasting stored => derivation.kept lasting stored,
          fun placement _ record there =>
            ⟨placement, record, (attributed_congr same ..).mpr there, rfl⟩⟩
      refine ⟨⟨kept.orderly.congr same, fun name => ?_, ?_⟩, conserved⟩
      · have markers : after.file? .transactions name = store.file? .transactions name :=
          derivation.elsewhere name nofun nofun nofun
        exact markers.trans (kept.settled name)
      · intro placement object found there
        exact (kept.backed _ _ _ ((attributed_congr same ..).mp there)).later conserved _
  | opened =>
    have left : FederationObjectStore.perform primitives store .opened = store :=
      congrArg Prod.snd (openStore_settled kept.settled)
    rw [left]
    exact ⟨kept.accrued (Accrued.refl _) _, (Accrued.refl _).conserved⟩

/-- What holds of a store holds in every run from a store without objects. -/
theorem kept_of_run {events : List StoreEvent} {store : FederationObjectStore}
    (run : Run (StoreStep primitives) empty events store) : Kept primitives events store := by
  refine run.invariant (fun events store => Kept primitives events store) ?_ ?_
  · refine ⟨orderly_empty, fun name => rfl, ?_⟩
    rintro placement objectRef record ⟨-, name, raw, stored, -⟩
    cases placement <;> cases stored
  · rintro events store event _ - kept rfl
    exact (kept.perform event).1

/-! ## Records that are found -/

/-- A record that is found by its attribution is in one of the namespaces. -/
theorem attributed_of_found {store : FederationObjectStore} {objectRef attribution : String}
    (object : Wire.isSha256Ref objectRef = true) (named : Wire.isSha256Ref attribution = true)
    {record : ForeignObjectRecord}
    (found : store.findRecord primitives objectRef attribution = .ok (some record)) :
    ∃ placement, Attributed primitives store placement objectRef record := by
  have read : ∀ {placement : ForeignNamespace} {raw : ByteArray},
      store.file? (.attributions placement (digestOf objectRef)) (fileOf ".record.json" attribution) =
        some raw →
      (some <$> readRecord primitives raw placement objectRef attribution) = .ok (some record) →
      Attributed primitives store placement objectRef record := by
    intro placement raw stored mapped
    obtain ⟨held, holds, same⟩ := (map_ok_iff ..).mp mapped
    obtain rfl := Option.some.inj same
    exact ⟨object, _, raw, stored, attribution, named_fileOf ".record.json" named, holds⟩
  rw [findRecord_eq store object named] at found
  cases foreign : store.file? (.attributions .foreign (digestOf objectRef))
      (fileOf ".record.json" attribution) with
  | some raw =>
    rw [foreign] at found
    exact ⟨.foreign, read foreign found⟩
  | none =>
    cases quarantine : store.file? (.attributions .quarantine (digestOf objectRef))
        (fileOf ".record.json" attribution) with
    | some raw =>
      rw [foreign, quarantine] at found
      exact ⟨.quarantine, read quarantine found⟩
    | none =>
      rw [foreign, quarantine] at found
      cases found

/-- A record in one of the namespaces of an orderly store is found by its attribution. -/
theorem Orderly.found {store : FederationObjectStore} (orderly : Orderly primitives store)
    {placement : ForeignNamespace} {objectRef : String} {record : ForeignObjectRecord}
    (there : Attributed primitives store placement objectRef record) :
    store.findRecord primitives objectRef (attributionOf primitives (recordKey record)) =
      .ok (some record) := by
  have shape := there.1
  have named : Wire.isSha256Ref (attributionOf primitives (recordKey record)) = true :=
    isSha256Ref_digest primitives _
  obtain ⟨-, raw, stored, attribution, name, holds⟩ := there.file
  obtain rfl := name.inj (named_fileOf ".record.json" named)
  rw [findRecord_eq store shape named]
  cases placement with
  | foreign =>
    change store.file? _ (fileOf _ _) = _ at stored
    rw [stored]
    simp only [holds]
    rfl
  | quarantine =>
    have absent : store.file? (.attributions .foreign (digestOf objectRef))
        (keyFile primitives (recordKey record)) = none := by
      refine Option.eq_none_iff_forall_ne_some.mpr fun other twice => ?_
      cases orderly.once _ _ _ _ _ _ stored twice
    change store.file? _ (fileOf _ _) = _ at stored absent
    rw [absent, stored]
    simp only [holds]
    rfl

/-- The contents that operations bring, and those of an observation. -/
def Brought (events : List StoreEvent) (observation : Observation) : Set ByteArray :=
  {bytes | (∃ event ∈ events, bytes ∈ event.contents) ∨
    bytes ∈ observation.object :: observation.provenance.toList}

/-- An observation that was put before is held, when the digests of what is put do not collide. -/
theorem Backed.held {events : List StoreEvent} {store : FederationObjectStore}
    {observation : Observation}
    (distinct : Set.InjOn (Digest.sha256Ref primitives) (Brought events observation))
    (backed : Backed primitives events store (observation.reference primitives)
      (observation.key primitives)) :
    observation.Accepted primitives ∧
      store.file? .objects (fileOf ".json" (observation.reference primitives)) =
        some observation.object ∧
      ∀ raw ∈ observation.provenance,
        store.file? .provenance (fileOf ".json" (Digest.sha256Ref primitives raw)) = some raw := by
  obtain ⟨earlier, accepted, reference, key, brought, object, provenance⟩ := backed
  have same : earlier = observation := by
    obtain ⟨source, contents, origin⟩ := earlier
    obtain ⟨node, bytes, given⟩ := observation
    obtain ⟨nodes, origins⟩ := AttributionKey.mk.inj key
    have objects : contents = bytes := distinct (.inl (brought _ List.mem_cons_self))
      (.inr List.mem_cons_self) reference
    have provenances : origin = given := by
      cases origin with
      | none =>
        cases given with
        | none => rfl
        | some raw => cases origins
      | some left =>
        cases given with
        | none => cases origins
        | some right =>
          have digests := Option.some.inj origins
          have equal : left = right := distinct (.inl (brought _ (by simp))) (.inr (by simp)) digests
          rw [equal]
    obtain rfl : source = node := nodes
    rw [objects, provenances]
  rw [same] at accepted object provenance
  exact ⟨accepted, object, provenance⟩

/-! ## Conservation -/

/-- A record that is listed for an object. -/
def Listed (primitives : Primitives) (store : FederationObjectStore) (objectRef : String)
    (entry : ForeignNamespace × ForeignObjectRecord) : Prop :=
  ∃ records, store.foreignRecords primitives objectRef = .ok records ∧ entry ∈ records

/-- The records that are listed are those that an orderly store has. -/
theorem Orderly.listed_iff {store : FederationObjectStore} (orderly : Orderly primitives store)
    (objectRef : String) (entry : ForeignNamespace × ForeignObjectRecord) :
    Listed primitives store objectRef entry ↔
      Attributed primitives store entry.1 objectRef entry.2 := by
  constructor
  · rintro ⟨records, listed, member⟩
    exact (mem_foreignRecords_iff listed entry).mp member
  · intro there
    obtain ⟨records, listed⟩ := orderly.listed there.1
    exact ⟨records, listed, (mem_foreignRecords_iff listed entry).mpr there⟩

/-- In every run of a store, the records of every object can be listed; every observation of an
object is in one namespace; a put of an observation that is there returns its record and changes no
file; a move that succeeds gathers the observations of its object in the target, all of them and no
others, and returns their records; and no operation loses an observation or changes contents. -/
theorem attributions_conserved {events : List StoreEvent} {store : FederationObjectStore}
    (run : Run (StoreStep primitives) empty events store) :
    (∀ objectRef, Wire.isSha256Ref objectRef = true →
      ∃ records, store.foreignRecords primitives objectRef = .ok records) ∧
    (∀ objectRef one two, Listed primitives store objectRef one →
      Listed primitives store objectRef two → recordKey one.2 = recordKey two.2 → one = two) ∧
    (∀ observation placement receivedAt entry,
      Set.InjOn (Digest.sha256Ref primitives) (Brought events observation) →
      Listed primitives store (observation.reference primitives) entry →
      recordKey entry.2 = observation.key primitives → validTimestamp receivedAt = true →
      ∃ after, (observation.put primitives placement receivedAt).run store =
        (.ok entry.2, after) ∧ Same store after) ∧
    (∀ objectRef target changedAt moved after,
      (moveNamespace primitives objectRef target changedAt).run store = (.ok moved, after) →
      (∀ key, (∃ entry, Listed primitives after objectRef entry ∧ recordKey entry.2 = key) ↔
        ∃ entry, Listed primitives store objectRef entry ∧ recordKey entry.2 = key) ∧
      (∀ entry, Listed primitives after objectRef entry → entry.1 = target ∧ entry.2 ∈ moved) ∧
      ∀ record ∈ moved, Listed primitives after objectRef (target, record)) ∧
    ∀ event after, StoreStep primitives store event after →
      (∀ objectRef entry, Listed primitives store objectRef entry →
        ∃ kept, Listed primitives after objectRef kept ∧ recordKey kept.2 = recordKey entry.2) ∧
      ∀ directory name bytes, directory = .objects ∨ directory = .provenance → Lasting name →
        store.file? directory name = some bytes → after.file? directory name = some bytes := by
  have kept := kept_of_run run
  refine ⟨fun objectRef shape => kept.orderly.listed shape, ?_, ?_, ?_, ?_⟩
  · intro objectRef one two first second same
    obtain ⟨placement, record⟩ := kept.orderly.unique ((kept.orderly.listed_iff ..).mp first)
      ((kept.orderly.listed_iff ..).mp second) same
    exact Prod.ext placement record
  · intro observation placement receivedAt entry distinct listed same received
    have there := (kept.orderly.listed_iff ..).mp listed
    have backed := kept.backed _ _ _ there
    rw [same] at backed
    obtain ⟨accepted, object, provenance⟩ := backed.held distinct
    have found := kept.orderly.found there
    rw [same] at found
    exact Observation.put_of_held accepted received ⟨object, provenance, found⟩
  · intro objectRef target changedAt moved after ran
    rcases moveNamespace_cases kept.orderly kept.settled ran with ⟨_, impossible, -⟩ |
      ⟨others, same, gathered⟩
    · cases impossible
    · obtain rfl := Except.ok.inj same
      have orderly := gathered.relocated.orderly
      simp only [orderly.listed_iff, kept.orderly.listed_iff]
      refine ⟨fun key => ⟨?_, ?_⟩, ?_, ?_⟩
      · rintro ⟨⟨placement, record⟩, there, rfl⟩
        rcases gathered.relocated.back _ _ _ there with was | ⟨-, -, other, source, -, was, rfl⟩
        · exact ⟨_, was, rfl⟩
        · exact ⟨(other, source), was, rfl⟩
      · rintro ⟨⟨placement, record⟩, was, rfl⟩
        obtain ⟨other, record, there, key⟩ := gathered.relocated.conserved.attributions _ _ _ was
        exact ⟨(other, record), there, key⟩
      · rintro ⟨placement, record⟩ there
        obtain rfl := gathered.target _ _ there
        exact ⟨rfl, (gathered.returned record).mpr there⟩
      · intro record member
        exact (gathered.returned record).mp member
  · rintro event _ rfl
    obtain ⟨later, conserved⟩ := kept.perform event
    simp only [later.orderly.listed_iff, kept.orderly.listed_iff]
    refine ⟨?_, conserved.contents⟩
    rintro objectRef ⟨placement, record⟩ there
    obtain ⟨other, found, listed, same⟩ := conserved.attributions _ _ _ there
    exact ⟨(other, found), listed, same⟩

/-- Primitives of recorded observations, whose digests are all the same. -/
def plainPrimitives : Primitives := Digest.tabulated [] []

/-- An observation of the object without members. -/
def emptyObservation : Observation where
  sourceNode := "fed:qsol:remote"
  object := "\x7b\x7d".toByteArray
  provenance := none

/-- The observation is accepted. -/
theorem emptyObservation_accepted : emptyObservation.Accepted plainPrimitives where
  node := by decide
  canonical := by decide
  provenance := nofun

/-- An observation that was put into an empty store is put again by changing nothing. -/
theorem recorded_attribution_conserved :
    ∃ store entry, Run (StoreStep plainPrimitives) empty
        [.put emptyObservation .foreign "2026-08-23T00:00:00Z"] store ∧
      Listed plainPrimitives store (emptyObservation.reference plainPrimitives) entry ∧
      ∃ after, (emptyObservation.put plainPrimitives .quarantine "2026-08-24T00:00:00Z").run store =
        (.ok entry.2, after) ∧ Same store after := by
  have absent : empty.findRecord plainPrimitives (emptyObservation.reference plainPrimitives)
      (emptyObservation.attribution plainPrimitives) = .ok none :=
    (findRecord_none_iff _ (emptyObservation.reference_shape _)
      (emptyObservation.attribution_shape _)).mpr fun other => by cases other <;> rfl
  have fits : Fits plainPrimitives emptyObservation empty := ⟨nofun, nofun, none, absent⟩
  obtain ⟨record, store, ran⟩ := @Observation.put_of_fits _ _ .foreign "2026-08-23T00:00:00Z" _
    emptyObservation_accepted (by decide) fits
  have step : StoreStep plainPrimitives empty
      (.put emptyObservation .foreign "2026-08-23T00:00:00Z") store := (congrArg Prod.snd ran).symm
  have run : Run (StoreStep plainPrimitives) empty
      [.put emptyObservation .foreign "2026-08-23T00:00:00Z"] store := Run.single step
  obtain ⟨placement, there⟩ := attributed_of_found (emptyObservation.reference_shape _)
    (emptyObservation.attribution_shape _) (Observation.held_of_put ran).record
  have listed : Listed plainPrimitives store (emptyObservation.reference plainPrimitives)
      (placement, record) := ((kept_of_run run).orderly.listed_iff ..).mpr there
  have known : recordKey record = emptyObservation.key plainPrimitives := by
    rcases Observation.put_cases ran with accrued | ⟨same, -⟩
    · obtain ⟨-, name, raw, stored, -⟩ := (attributed_congr accrued.attributions ..).mp there
      cases placement <;> cases stored
    · obtain rfl := Except.ok.inj same
      rfl
  have distinct : Set.InjOn (Digest.sha256Ref plainPrimitives)
      (Brought [.put emptyObservation .foreign "2026-08-23T00:00:00Z"] emptyObservation) := by
    have only : ∀ bytes ∈ Brought [.put emptyObservation .foreign "2026-08-23T00:00:00Z"]
        emptyObservation, bytes = emptyObservation.object := by
      rintro bytes (⟨event, member, inside⟩ | inside)
      · obtain rfl := List.mem_singleton.mp member
        exact List.mem_singleton.mp inside
      · exact List.mem_singleton.mp inside
    intro left first right second _
    rw [only left first, only right second]
  exact ⟨store, (placement, record), run, listed, (attributions_conserved run).2.2.1 _ _ _ _
    distinct listed known (by decide)⟩

end QsolFed.FederationObjectStore
