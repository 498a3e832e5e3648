import QsolFed.Store.Conservation

/-!
# Attributions that are added in any order

Attributions are added one by one, each to its namespace. When the digests of what is added do not
collide, the store that is reached holds exactly these attributions, each in its namespace and with
its contents, whatever the order and the times were.
-/
namespace QsolFed.FederationObjectStore

open Checked Json Canonical

variable {primitives : Primitives}

/-! ## What a store holds -/

variable (primitives) in
/-- The store has a record of an attribution in a namespace. -/
def Shows (store : FederationObjectStore) (placement : ForeignNamespace) (objectRef : String)
    (key : AttributionKey) : Prop :=
  ∃ record, Attributed primitives store placement objectRef record ∧ recordKey record = key

/-- Stores with the same files of attributions have records of the same attributions. -/
theorem shows_congr {one two : FederationObjectStore}
    (same : ∀ placement digest name, two.file? (.attributions placement digest) name =
      one.file? (.attributions placement digest) name)
    (placement : ForeignNamespace) (objectRef : String) (key : AttributionKey) :
    Shows primitives two placement objectRef key ↔ Shows primitives one placement objectRef key :=
  exists_congr fun _ => and_congr_left fun _ => attributed_congr same ..

variable (primitives) in
/-- Two stores hold the same attributions of objects in the same namespaces. -/
structure Alike (one two : FederationObjectStore) : Prop where
  /-- The attributions are the same. -/
  attributions : ∀ placement objectRef key,
    Shows primitives one placement objectRef key ↔ Shows primitives two placement objectRef key
  /-- So are their objects. -/
  objects : ∀ placement objectRef key, Shows primitives one placement objectRef key →
    one.objectBytes primitives objectRef = two.objectBytes primitives objectRef
  /-- So are their provenances. -/
  provenances : ∀ placement objectRef key, Shows primitives one placement objectRef key →
    ∀ id ∈ key.provenanceId, one.provenanceBytes primitives id = two.provenanceBytes primitives id

/-- A store holds the attributions that it holds. -/
theorem Alike.refl (store : FederationObjectStore) : Alike primitives store store :=
  ⟨fun _ _ _ => Iff.rfl, fun _ _ _ _ => rfl, fun _ _ _ _ _ _ => rfl⟩

/-- Stores hold the same attributions as each other. -/
theorem Alike.symm {one two : FederationObjectStore} (alike : Alike primitives one two) :
    Alike primitives two one where
  attributions _ _ _ := (alike.attributions ..).symm
  objects _ _ _ shown := (alike.objects _ _ _ ((alike.attributions ..).mpr shown)).symm
  provenances _ _ _ shown id present :=
    (alike.provenances _ _ _ ((alike.attributions ..).mpr shown) id present).symm

/-! ## Contents -/

/-- The contents of a reference are read when its file has them. -/
theorem readContentAddressed_of_file {store : FederationObjectStore} {directory : Directory}
    {raw : ByteArray} (canonical : requireExactCanonical primitives raw = .ok ())
    (stored : store.file? directory (fileOf ".json" (Digest.sha256Ref primitives raw)) = some raw) :
    store.readContentAddressed primitives directory (Digest.sha256Ref primitives raw) =
      .ok (some raw) := by
  have named : contentName (Digest.sha256Ref primitives raw) =
      .ok (fileOf ".json" (Digest.sha256Ref primitives raw)) :=
    (contentName_ok_iff ..).mpr (named_fileOf ".json" (isSha256Ref_digest primitives raw))
  rw [readContentAddressed, named, bind_ok, stored]
  simp only [canonical, objectId_of_canonical canonical, bind_ok, ensure_pos]
  rfl

variable (primitives) in
/-- An observation that a store holds under a key. -/
structure Supports (store : FederationObjectStore) (objectRef : String) (key : AttributionKey)
    (observation : Observation) : Prop where
  /-- It is accepted. -/
  accepted : observation.Accepted primitives
  /-- It is one of the object. -/
  reference : observation.reference primitives = objectRef
  /-- It has the key. -/
  key : observation.key primitives = key
  /-- Its object is read. -/
  object : store.objectBytes primitives objectRef = .ok (some observation.object)
  /-- Its provenance is read. -/
  provenance : ∀ raw ∈ observation.provenance,
    store.provenanceBytes primitives (Digest.sha256Ref primitives raw) = .ok (some raw)

/-- Every record of a store stands for an observation that the store holds. -/
theorem Backed.supports {events : List StoreEvent} {store : FederationObjectStore}
    {objectRef : String} {key : AttributionKey}
    (backed : Backed primitives events store objectRef key) :
    ∃ observation, Supports primitives store objectRef key observation ∧
      ∀ bytes ∈ observation.object :: observation.provenance.toList,
        ∃ event ∈ events, bytes ∈ event.contents := by
  obtain ⟨observation, accepted, reference, same, brought, object, provenance⟩ := backed
  refine ⟨observation, ⟨accepted, reference, same, ?_, fun raw present => ?_⟩, brought⟩
  · rw [← reference]
    exact readContentAddressed_of_file accepted.canonical object
  · have canonical := ((checkProvenance_ok_iff ..).mp (accepted.provenance raw present)).1
    exact readContentAddressed_of_file canonical (provenance raw present)

variable (primitives) in
/-- Every record that is listed stands for an observation that the store holds, and attributions
are listed once. -/
structure Sourced (store : FederationObjectStore) : Prop where
  /-- Attributions are listed once. -/
  orderly : Orderly primitives store
  /-- Each stands for an observation. -/
  supported : ∀ placement objectRef record, Attributed primitives store placement objectRef record →
    ∃ observation, Supports primitives store objectRef (recordKey record) observation

/-- Every store that is kept is sourced. -/
theorem Kept.sourced {events : List StoreEvent} {store : FederationObjectStore}
    (kept : Kept primitives events store) : Sourced primitives store := by
  refine ⟨kept.orderly, fun placement objectRef record there => ?_⟩
  obtain ⟨observation, supports, -⟩ := (kept.backed placement objectRef record there).supports
  exact ⟨observation, supports⟩

/-! ## Additions -/

/-- An attribution that is added to a namespace at some time. -/
structure Addition where
  /-- The object, its source and its provenance. -/
  observation : Observation
  /-- The namespace. -/
  placement : ForeignNamespace
  /-- The time. -/
  receivedAt : String

/-- What is added, and where. -/
def Addition.placed (addition : Addition) : Observation × ForeignNamespace :=
  (addition.observation, addition.placement)

variable (primitives) in
/-- Add attributions one by one. -/
def addAll (additions : List Addition) :
    Effect FederationObjectStore StoreError (List ForeignObjectRecord) :=
  Effect.forEach (fun addition : Addition =>
    addition.observation.put primitives addition.placement addition.receivedAt) additions

variable (primitives) in
/-- The bytes that the digests of additions are taken of: contents and keys. -/
def Digested (additions : List (Observation × ForeignNamespace)) : Set ByteArray :=
  {bytes | ∃ addition ∈ additions,
    bytes ∈ addition.1.object :: addition.1.provenance.toList ∨
      bytes = keyBytes primitives (addition.1.key primitives)}

variable (primitives) in
/-- The attribution of one of the additions, in its namespace. -/
def Added (additions : List (Observation × ForeignNamespace)) (placement : ForeignNamespace)
    (objectRef : String) (key : AttributionKey) : Prop :=
  ∃ addition ∈ additions, addition.2 = placement ∧ addition.1.reference primitives = objectRef ∧
    addition.1.key primitives = key

/-- Observations with the same reference and the same key are the same, when their digests do not
collide. -/
theorem observation_unique {additions : List (Observation × ForeignNamespace)}
    (injective : Set.InjOn (Digest.sha256Ref primitives) (Digested primitives additions))
    {one two : Observation × ForeignNamespace} (first : one ∈ additions) (second : two ∈ additions)
    (reference : one.1.reference primitives = two.1.reference primitives)
    (key : one.1.key primitives = two.1.key primitives) : one.1 = two.1 := by
  obtain ⟨⟨source, contents, origin⟩, _⟩ := one
  obtain ⟨⟨node, bytes, given⟩, _⟩ := two
  obtain ⟨nodes, origins⟩ := AttributionKey.mk.inj key
  have objects : contents = bytes := injective ⟨_, first, .inl List.mem_cons_self⟩
    ⟨_, second, .inl List.mem_cons_self⟩ reference
  have provenances : origin = given := by
    cases origin with
    | none =>
      cases given with
      | none => rfl
      | some raw => cases origins
    | some left =>
      cases given with
      | none => cases origins
      | some right =>
        have equal : left = right := injective ⟨_, first, .inl (by simp)⟩
          ⟨_, second, .inl (by simp)⟩ (Option.some.inj origins)
        rw [equal]
  obtain rfl : source = node := nodes
  rw [objects, provenances]

/-- A record that is found by its attribution has the attribution. -/
theorem attribution_of_found {store : FederationObjectStore} {objectRef attribution : String}
    (object : Wire.isSha256Ref objectRef = true) (named : Wire.isSha256Ref attribution = true)
    {record : ForeignObjectRecord}
    (found : store.findRecord primitives objectRef attribution = .ok (some record)) :
    attributionOf primitives (recordKey record) = attribution := by
  have read : ∀ {placement : ForeignNamespace} {raw : ByteArray},
      (some <$> readRecord primitives raw placement objectRef attribution) = .ok (some record) →
      attributionOf primitives (recordKey record) = attribution := by
    intro placement raw mapped
    obtain ⟨held, holds, same⟩ := (map_ok_iff ..).mp mapped
    obtain rfl := Option.some.inj same
    obtain ⟨-, -, -, identified⟩ := (readRecord_ok_iff ..).mp holds
    exact identified
  rw [findRecord_eq store object named] at found
  split at found
  · exact read found
  · split at found
    · exact read found
    · cases found

/-- A put adds its attribution to its namespace, unless the store has it in a namespace already. -/
theorem Orderly.shows_put {observation : Observation} {placement : ForeignNamespace}
    {receivedAt : String} {before after : FederationObjectStore} {record : ForeignObjectRecord}
    (orderly : Orderly primitives before)
    (ran : (observation.put primitives placement receivedAt).run before = (.ok record, after))
    (apart : ∀ other key, Shows primitives before other (observation.reference primitives) key →
      attributionOf primitives key = observation.attribution primitives →
      key = observation.key primitives) :
    Orderly primitives after ∧ ∀ other objectRef key, Shows primitives after other objectRef key ↔
      Shows primitives before other objectRef key ∨
        (placement = other ∧ observation.reference primitives = objectRef ∧
          observation.key primitives = key ∧
          ∀ any, ¬Shows primitives before any objectRef key) := by
  rcases Observation.put_cases ran with accrued | ⟨-, entered⟩
  · have same : ∀ other objectRef key, Shows primitives after other objectRef key ↔
        Shows primitives before other objectRef key :=
      fun _ _ _ => shows_congr accrued.attributions ..
    refine ⟨orderly.congr accrued.attributions, fun other objectRef key => ?_⟩
    rw [same]
    refine (or_iff_left ?_).symm
    rintro ⟨-, rfl, rfl, absent⟩
    have shape := observation.reference_shape primitives
    have named := observation.attribution_shape primitives
    have found := (Observation.held_of_put ran).record
    obtain ⟨there, attributed⟩ := attributed_of_found shape named found
    have shown := (same ..).mp ⟨record, attributed, rfl⟩
    have key := apart there _ shown (attribution_of_found shape named found)
    exact absent there (key ▸ shown)
  · refine ⟨entered.orderly orderly, fun other objectRef key => ?_⟩
    obtain ⟨-, -, absent, -⟩ := entered.files orderly
    have new : ∀ any, ¬Shows primitives before any (observation.reference primitives)
        (observation.key primitives) := by
      rintro any ⟨found, there, same⟩
      obtain ⟨-, raw, stored, -⟩ := there.file
      rw [same, absent] at stored
      cases stored
    simp only [Shows, entered.attributed_iff orderly]
    constructor
    · rintro ⟨found, was | ⟨rfl, rfl, rfl⟩, rfl⟩
      · exact .inl ⟨found, was, rfl⟩
      · exact .inr ⟨rfl, rfl, rfl, new⟩
    · rintro (⟨found, was, rfl⟩ | ⟨rfl, rfl, rfl, -⟩)
      · exact ⟨found, .inl was, rfl⟩
      · exact ⟨_, .inr ⟨rfl, rfl, rfl⟩, rfl⟩

/-- A store that holds what was added holds what is added after that too. -/
theorem shows_addAll {rest : List Addition} :
    ∀ {done : List (Observation × ForeignNamespace)} {before after : FederationObjectStore}
      {results : List ForeignObjectRecord}, Orderly primitives before →
      (∀ placement objectRef key, Shows primitives before placement objectRef key ↔
        Added primitives done placement objectRef key) →
      Set.InjOn (Digest.sha256Ref primitives)
        (Digested primitives (done ++ rest.map Addition.placed)) →
      (∀ one ∈ done ++ rest.map Addition.placed, ∀ two ∈ done ++ rest.map Addition.placed,
        one.1 = two.1 → one.2 = two.2) →
      (addAll primitives rest).run before = (.ok results, after) →
      ∀ placement objectRef key, Shows primitives after placement objectRef key ↔
        Added primitives (done ++ rest.map Addition.placed) placement objectRef key := by
  induction rest with
  | nil =>
    intro done before after results _ shown _ _ ran placement objectRef key
    obtain ⟨-, rfl⟩ := Prod.mk.inj ran
    rw [List.map_nil, List.append_nil]
    exact shown ..
  | cons head rest ih =>
    intro done before after results orderly shown injective functional ran
    obtain ⟨record, middle, others, one, more, -⟩ := (Effect.run_forEach_cons_ok_iff ..).mp ran
    have split : done ++ (head :: rest).map Addition.placed =
        (done ++ [head.placed]) ++ rest.map Addition.placed := by
      rw [List.map_cons, List.append_assoc, List.singleton_append]
    rw [split] at injective functional ⊢
    have here : head.placed ∈ (done ++ [head.placed]) ++ rest.map Addition.placed := by simp
    have within : ∀ addition ∈ done,
        addition ∈ (done ++ [head.placed]) ++ rest.map Addition.placed := fun addition member =>
      List.mem_append_left _ (List.mem_append_left _ member)
    obtain ⟨kept, shows_⟩ := orderly.shows_put one fun other key there same => by
      obtain ⟨addition, member, -, -, rfl⟩ := (shown ..).mp there
      obtain ⟨found, attributed, equal⟩ := there
      have shape : KeyShape (addition.1.key primitives) := by
        obtain ⟨-, name, raw, -, holds⟩ := attributed
        exact equal ▸ holds.named.2.key
      have accepted := ((Observation.put_ok_iff ..).mp one).1
      exact shape.inj (Observation.keyShape accepted.node) (injective
        ⟨addition, within addition member, .inr rfl⟩ ⟨head.placed, here, .inr rfl⟩ same)
    refine ih kept (fun placement objectRef key => ?_) injective functional more
    rw [shows_, shown]
    constructor
    · rintro (⟨addition, member, where_⟩ | ⟨placed, reference, key, -⟩)
      · exact ⟨addition, List.mem_append_left _ member, where_⟩
      · exact ⟨head.placed, by simp, placed, reference, key⟩
    · rintro ⟨addition, member, rfl, rfl, rfl⟩
      rcases List.mem_append.mp member with before_ | last
      · exact .inl ⟨addition, before_, rfl, rfl, rfl⟩
      · obtain rfl := List.mem_singleton.mp last
        by_cases known : ∃ any, Shows primitives before any
            (head.placed.1.reference primitives) (head.placed.1.key primitives)
        · obtain ⟨any, there⟩ := known
          obtain ⟨other, listed, rfl, reference, key⟩ := (shown ..).mp there
          have same := observation_unique injective (within other listed) here reference key
          have placed := functional _ (within other listed) _ here same
          exact .inl ⟨other, listed, placed, reference, key⟩
        · exact .inr ⟨rfl, rfl, rfl, fun any there => known ⟨any, there⟩⟩

/-- The file of a content of an observation. -/
def ContentFile (primitives : Primitives) (observation : Observation) (directory : Directory)
    (name : String) : Prop :=
  (directory = .objects ∧ name = fileOf ".json" (observation.reference primitives)) ∨
    (directory = .provenance ∧ ∃ raw ∈ observation.provenance,
      name = fileOf ".json" (Digest.sha256Ref primitives raw))

/-- A put writes no contents but those of the observation. -/
theorem Observation.put_contents {observation : Observation} {placement : ForeignNamespace}
    {receivedAt : String} {before after : FederationObjectStore} {record : ForeignObjectRecord}
    (ran : (observation.put primitives placement receivedAt).run before = (.ok record, after))
    {directory : Directory} (contents : directory = .objects ∨ directory = .provenance)
    {name : String} (lasting : Lasting name) :
    after.file? directory name = before.file? directory name ∨
      ContentFile primitives observation directory name := by
  obtain ⟨-, -, one, two, provenance, object, rest⟩ := (put_ok_iff ..).mp ran
  by_cases file : ContentFile primitives observation directory name
  · exact .inr file
  refine .inl ?_
  have first : one.file? directory name = before.file? directory name := by
    cases given : observation.provenance with
    | none =>
      rw [given] at provenance
      rw [show one = before from provenance]
    | some raw =>
      rw [given] at provenance
      have written : Written .provenance (fileOf ".json" (Digest.sha256Ref primitives raw)) raw
        before one := provenance
      exact written.frame lasting fun same => file (.inr ⟨same.1, raw, given, same.2⟩)
  have second : two.file? directory name = one.file? directory name :=
    object.frame lasting fun same => file (.inl same)
  have third : after.file? directory name = two.file? directory name := by
    rcases rest with ⟨-, rfl⟩ | ⟨-, -, raw, -, rfl⟩
    · rfl
    · have apart : directory ≠
          .attributions placement (digestOf (observation.reference primitives)) := by
        rintro rfl
        rcases contents with impossible | impossible <;> cases impossible
      rw [file?_placed, if_neg fun same => apart same.1, if_neg fun same => apart same.1]
  rw [third, second, first]

/-- Additions write no contents but their own. -/
theorem contents_addAll {additions : List Addition} :
    ∀ {before after : FederationObjectStore} {results : List ForeignObjectRecord},
      (addAll primitives additions).run before = (.ok results, after) →
      ∀ {directory : Directory}, directory = .objects ∨ directory = .provenance →
      ∀ {name : String}, Lasting name →
        after.file? directory name = before.file? directory name ∨
          ∃ addition ∈ additions, ContentFile primitives addition.observation directory name := by
  induction additions with
  | nil =>
    intro before after results ran directory _ name _
    obtain ⟨-, rfl⟩ := Prod.mk.inj ran
    exact .inl rfl
  | cons head rest ih =>
    intro before after results ran directory contents name lasting
    obtain ⟨record, middle, others, one, more, -⟩ := (Effect.run_forEach_cons_ok_iff ..).mp ran
    rcases ih more contents lasting with same | ⟨addition, member, file⟩
    · rcases Observation.put_contents one contents lasting with kept | file
      · exact .inl (same.trans kept)
      · exact .inr ⟨head, List.mem_cons_self, file⟩
    · exact .inr ⟨addition, List.mem_cons_of_mem _ member, file⟩

/-- The first attribution that is added is the only one of the store. -/
theorem added_first {addition : Addition} (accepted : addition.observation.Accepted primitives)
    (received : validTimestamp addition.receivedAt = true) :
    ∃ store, Run (StoreStep primitives) empty
        [.put addition.observation addition.placement addition.receivedAt] store ∧
      ∀ objectRef entry, Listed primitives store objectRef entry ↔
        entry.1 = addition.placement ∧ objectRef = addition.observation.reference primitives ∧
          entry.2 = addition.observation.record primitives addition.placement
            addition.receivedAt := by
  have absent : empty.findRecord primitives (addition.observation.reference primitives)
      (addition.observation.attribution primitives) = .ok none :=
    (findRecord_none_iff _ (addition.observation.reference_shape _)
      (addition.observation.attribution_shape _)).mpr fun other => by cases other <;> rfl
  have fits : Fits primitives addition.observation empty := ⟨nofun, nofun, none, absent⟩
  have ⟨record, store, ran⟩ : ∃ record store, (addition.observation.put primitives
      addition.placement addition.receivedAt).run empty = (.ok record, store) :=
    Observation.put_of_fits accepted received fits
  have run : Run (StoreStep primitives) empty
      [.put addition.observation addition.placement addition.receivedAt] store :=
    Run.single (congrArg Prod.snd ran).symm
  have orderly := (kept_of_run run).orderly
  have void : ∀ placement objectRef record,
      ¬Attributed primitives empty placement objectRef record := by
    rintro placement objectRef record ⟨-, name, raw, stored, -⟩
    cases placement <;> cases stored
  refine ⟨store, run, fun objectRef entry => ?_⟩
  rw [orderly.listed_iff]
  rcases Observation.put_cases ran with accrued | ⟨-, entered⟩
  · obtain ⟨placement, there⟩ := attributed_of_found (addition.observation.reference_shape _)
      (addition.observation.attribution_shape _) (Observation.held_of_put ran).record
    exact (void _ _ _ ((attributed_congr accrued.attributions ..).mp there)).elim
  · rw [entered.attributed_iff orderly_empty]
    exact or_iff_right fun was => void _ _ _ was

/-- What holds of a store in every run holds after additions. -/
theorem Kept.addAll {additions : List Addition} :
    ∀ {events : List StoreEvent} {before after : FederationObjectStore}
      {results : List ForeignObjectRecord}, Kept primitives events before →
      (addAll primitives additions).run before = (.ok results, after) →
      Kept primitives (events ++ additions.map fun addition =>
        StoreEvent.put addition.observation addition.placement addition.receivedAt) after := by
  induction additions with
  | nil =>
    intro events before after results kept ran
    obtain ⟨-, rfl⟩ := Prod.mk.inj ran
    rwa [List.map_nil, List.append_nil]
  | cons head rest ih =>
    intro events before after results kept ran
    obtain ⟨record, middle, others, one, more, -⟩ := (Effect.run_forEach_cons_ok_iff ..).mp ran
    have next := (kept.perform (.put head.observation head.placement head.receivedAt)).1
    have left : FederationObjectStore.perform primitives before
        (.put head.observation head.placement head.receivedAt) = middle := congrArg Prod.snd one
    rw [left] at next
    rw [List.map_cons, ← List.singleton_append, ← List.append_assoc]
    exact ih next more

/-- The same attributions that are added to stores without objects in different orders, each to its
namespace and at any times, lead to stores that hold the same attributions. -/
theorem alike_of_orders {first second : List Addition}
    (injective : Set.InjOn (Digest.sha256Ref primitives)
      (Digested primitives (first.map Addition.placed)))
    (functional : ∀ one ∈ first, ∀ two ∈ first, one.observation = two.observation →
      one.placement = two.placement)
    (perm : (second.map Addition.placed).Perm (first.map Addition.placed))
    {one two : FederationObjectStore} {results others : List ForeignObjectRecord}
    (ran : (addAll primitives first).run empty = (.ok results, one))
    (again : (addAll primitives second).run empty = (.ok others, two)) :
    Sourced primitives one ∧ Sourced primitives two ∧ Alike primitives one two := by
  have start : Kept primitives [] empty := kept_of_run .nil
  have keptOne := start.addAll ran
  have keptTwo := start.addAll again
  have digested : Digested primitives (second.map Addition.placed) =
      Digested primitives (first.map Addition.placed) := by
    ext bytes
    simp only [Digested, Set.mem_ofPred_eq, perm.mem_iff]
  have placed : ∀ one ∈ first.map Addition.placed, ∀ two ∈ first.map Addition.placed,
      one.1 = two.1 → one.2 = two.2 := by
    intro left here right there same
    obtain ⟨one, member, rfl⟩ := List.mem_map.mp here
    obtain ⟨two, listed, rfl⟩ := List.mem_map.mp there
    exact functional one member two listed same
  have none_ : ∀ placement objectRef key, Shows primitives empty placement objectRef key ↔
      Added primitives [] placement objectRef key := by
    intro placement objectRef key
    constructor
    · rintro ⟨record, ⟨-, name, raw, stored, -⟩, -⟩
      cases placement <;> cases stored
    · rintro ⟨addition, member, -⟩
      cases member
  have shownOne := shows_addAll start.orderly none_ injective placed ran
  have shownTwo := shows_addAll start.orderly none_
    (by rw [List.nil_append, digested]; exact injective)
    (fun left here right there => placed left (perm.mem_iff.mp here) right (perm.mem_iff.mp there))
    again
  have same : ∀ placement objectRef key, Shows primitives one placement objectRef key ↔
      Shows primitives two placement objectRef key := by
    intro placement objectRef key
    rw [shownOne, shownTwo]
    simp only [Added, List.nil_append, perm.mem_iff]
  -- The observations that two stores hold under a key are the same.
  have inside : ∀ {additions : List Addition} {bytes : ByteArray},
      (∃ event ∈ ([] : List StoreEvent) ++ additions.map fun addition =>
        StoreEvent.put addition.observation addition.placement addition.receivedAt,
      bytes ∈ event.contents) → bytes ∈ Digested primitives (additions.map Addition.placed) := by
    rintro additions bytes ⟨event, member, content⟩
    obtain ⟨addition, listed, rfl⟩ := List.mem_map.mp member
    exact ⟨addition.placed, List.mem_map_of_mem listed, .inl content⟩
  have held : ∀ placement objectRef key, Shows primitives one placement objectRef key →
      ∃ left right, Supports primitives one objectRef key left ∧
        Supports primitives two objectRef key right ∧ left.object = right.object ∧
        left.provenance = right.provenance := by
    intro placement objectRef key shown
    obtain ⟨record, there, equal⟩ := shown
    obtain ⟨other, listed, equals⟩ := (same ..).mp ⟨record, there, equal⟩
    obtain ⟨left, leftHeld, leftBrought⟩ := (keptOne.backed _ _ _ there).supports
    obtain ⟨right, rightHeld, rightBrought⟩ := (keptTwo.backed _ _ _ listed).supports
    rw [equal] at leftHeld
    rw [equals] at rightHeld
    have leftIn : ∀ bytes ∈ left.object :: left.provenance.toList,
        bytes ∈ Digested primitives (first.map Addition.placed) := fun bytes member =>
      inside (leftBrought bytes member)
    have rightIn : ∀ bytes ∈ right.object :: right.provenance.toList,
        bytes ∈ Digested primitives (first.map Addition.placed) := fun bytes member =>
      digested ▸ inside (rightBrought bytes member)
    have objects : left.object = right.object := injective (leftIn _ List.mem_cons_self)
      (rightIn _ List.mem_cons_self) (leftHeld.reference.trans rightHeld.reference.symm)
    have keys := (AttributionKey.mk.inj (leftHeld.key.trans rightHeld.key.symm)).2
    refine ⟨left, right, leftHeld, rightHeld, objects, ?_⟩
    cases leftGiven : left.provenance with
    | none =>
      cases rightGiven : right.provenance with
      | none => rfl
      | some raw =>
        rw [Observation.provenanceId, Observation.provenanceId, leftGiven, rightGiven] at keys
        cases keys
    | some leftRaw =>
      cases rightGiven : right.provenance with
      | none =>
        rw [Observation.provenanceId, Observation.provenanceId, leftGiven, rightGiven] at keys
        cases keys
      | some rightRaw =>
        rw [Observation.provenanceId, Observation.provenanceId, leftGiven, rightGiven] at keys
        rw [injective (leftIn leftRaw (by simp [leftGiven]))
          (rightIn rightRaw (by simp [rightGiven])) (Option.some.inj keys)]
  refine ⟨keptOne.sourced, keptTwo.sourced, same, ?_, ?_⟩
  · intro placement objectRef key shown
    obtain ⟨left, right, leftHeld, rightHeld, equal, -⟩ := held _ _ _ shown
    rw [leftHeld.object, rightHeld.object, equal]
  · intro placement objectRef key shown id present
    obtain ⟨left, right, leftHeld, rightHeld, -, equal⟩ := held _ _ _ shown
    have given := (AttributionKey.mk.inj leftHeld.key).2.trans present
    obtain ⟨raw, there, rfl⟩ := Option.map_eq_some_iff.mp given
    rw [leftHeld.provenance raw there, rightHeld.provenance raw (equal ▸ there)]

end QsolFed.FederationObjectStore
