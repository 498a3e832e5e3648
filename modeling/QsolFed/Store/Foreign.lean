import QsolFed.Store.Records

/-!
# Foreign objects in the store

What putting a foreign object into any store does: its contents and its provenance are written
unless they are there, and an attribution that is there already stays as it is. Whatever lasts in
the store stays, and a second put changes nothing.
-/
namespace QsolFed.FederationObjectStore

open Checked Json Canonical

variable {primitives : Primitives}

/-! ## Contents -/

/-- A file was there with its contents, or was put there. -/
def Written (directory : Directory) (name : String) (bytes : ByteArray)
    (before after : FederationObjectStore) : Prop :=
  (before.file? directory name = some bytes ∧ after = made directory before) ∨
    (before.file? directory name = none ∧ after = placed directory name bytes before)

/-- Contents are written under their digest. -/
theorem writeContentAddressed_ok_iff (directory : Directory) {bytes : ByteArray}
    (canonical : requireExactCanonical primitives bytes = .ok ())
    (before after : FederationObjectStore) :
    (writeContentAddressed primitives directory (Digest.sha256Ref primitives bytes) bytes).run
        before = (.ok ⟨⟩, after) ↔
      Written directory (fileOf ".json" (Digest.sha256Ref primitives bytes)) bytes before after := by
  have shape := isSha256Ref_digest primitives bytes
  have named := (contentName_ok_iff ..).mpr (named_fileOf ".json" shape)
  simp only [writeContentAddressed, objectId_of_canonical canonical, Effect.run_check_bind,
    ensure_pos, named]
  exact writeExactOrSame_ok_iff ..

/-- A written file is there. -/
theorem Written.present {directory : Directory} {name : String} {bytes : ByteArray}
    {before after : FederationObjectStore} (written : Written directory name bytes before after) :
    after.file? directory name = some bytes := by
  rcases written with ⟨found, rfl⟩ | ⟨-, rfl⟩
  · rw [(same_made directory before).file?, found]
  · rw [file?_placed, if_pos ⟨rfl, rfl⟩]

/-- A file that was there is written by changing nothing. -/
theorem Written.same {directory : Directory} {name : String} {bytes : ByteArray}
    {before after : FederationObjectStore} (written : Written directory name bytes before after)
    (found : before.file? directory name = some bytes) : Same before after := by
  rcases written with ⟨-, rfl⟩ | ⟨absent, -⟩
  · exact same_made directory before
  · rw [found] at absent
    cases absent

/-- A file that is absent or has the contents can be written. -/
theorem written_of_fits {directory : Directory} {name : String} {bytes : ByteArray}
    {before : FederationObjectStore}
    (fits : ∀ old, before.file? directory name = some old → old = bytes) :
    ∃ after, Written directory name bytes before after := by
  cases found : before.file? directory name with
  | none => exact ⟨_, .inr ⟨found, rfl⟩⟩
  | some old => exact ⟨_, .inl ⟨(fits old found) ▸ found, rfl⟩⟩

/-- A file that can be written is absent or has the contents. -/
theorem Written.fits {directory : Directory} {name : String} {bytes old : ByteArray}
    {before after : FederationObjectStore} (written : Written directory name bytes before after)
    (found : before.file? directory name = some old) : old = bytes := by
  rcases written with ⟨same, -⟩ | ⟨absent, -⟩
  · exact Option.some.inj (found.symm.trans same)
  · rw [found] at absent
    cases absent

/-- Writing a file leaves every other lasting file alone. -/
theorem Written.frame {directory : Directory} {name : String} {bytes : ByteArray}
    {before after : FederationObjectStore} (written : Written directory name bytes before after)
    {other : Directory} {file : String} (lasting : Lasting file)
    (apart : ¬(other = directory ∧ file = name)) : after.file? other file = before.file? other file := by
  rcases written with ⟨-, rfl⟩ | ⟨-, rfl⟩
  · exact (same_made directory before).file? other file
  · rw [file?_placed, if_neg apart, if_neg fun same => lasting _ same.2]

/-! ## Growth -/

/-- Every lasting file stays, and those of the other namespace stay as they are. -/
structure Grown (placement : ForeignNamespace) (before after : FederationObjectStore) : Prop where
  /-- Every lasting file stays. -/
  keeps : ∀ directory name bytes, Lasting name → before.file? directory name = some bytes →
    after.file? directory name = some bytes
  /-- Nothing changes in the other namespace. -/
  apart : ∀ other digest name, other ≠ placement → Lasting name →
    after.file? (.attributions other digest) name = before.file? (.attributions other digest) name

/-- A store grows by nothing. -/
theorem Grown.refl {placement : ForeignNamespace} (store : FederationObjectStore) :
    Grown placement store store := ⟨fun _ _ _ _ found => found, fun _ _ _ _ _ => rfl⟩

/-- Growth is transitive. -/
theorem Grown.trans {placement : ForeignNamespace} (one two three : FederationObjectStore)
    (first : Grown placement one two) (second : Grown placement two three) :
    Grown placement one three where
  keeps directory name bytes lasting found :=
    second.keeps directory name bytes lasting (first.keeps directory name bytes lasting found)
  apart other digest name different lasting :=
    (second.apart other digest name different lasting).trans
      (first.apart other digest name different lasting)

/-- Stores that show the same files have grown by nothing. -/
theorem Same.grown {placement : ForeignNamespace} {before after : FederationObjectStore}
    (same : Same before after) : Grown placement before after where
  keeps directory name _ _ found := (same.file? directory name).trans found
  apart other digest name _ _ := same.file? (.attributions other digest) name

/-- A directory that a foreign object in a namespace is written to. -/
def Confined (placement : ForeignNamespace) (directory : Directory) : Prop :=
  ∀ other digest, directory = .attributions other digest → other = placement

/-- A temporary file is no growth. -/
theorem Pending.grown {placement : ForeignNamespace} {directory : Directory} {name : String}
    {before after : FederationObjectStore} (pending : Pending directory name before after) :
    Grown placement before after where
  keeps other file _ lasting found := by
    rw [pending other file fun same => lasting _ same.2, found]
  apart other digest file _ lasting := pending _ file fun same => lasting _ same.2

/-- A store with a new file has grown. -/
theorem grown_placed {placement : ForeignNamespace} {directory : Directory}
    (confined : Confined placement directory) {name : String} {bytes : ByteArray}
    {before : FederationObjectStore} (absent : before.file? directory name = none) :
    Grown placement before (placed directory name bytes before) where
  keeps other file contents lasting found := by
    have apart : ¬(other = directory ∧ file = name) := by
      rintro ⟨rfl, rfl⟩
      rw [found] at absent
      cases absent
    rw [file?_placed, if_neg apart, if_neg fun same => lasting _ same.2, found]
  apart other digest file different lasting := by
    have apart : ¬(Directory.attributions other digest = directory ∧ file = name) := by
      rintro ⟨same, -⟩
      exact different (confined other digest same.symm)
    rw [file?_placed, if_neg apart, if_neg fun same => lasting _ same.2]

/-- A store only grows while a file is written. -/
theorem between_writeExactOrSame {placement : ForeignNamespace} {directory : Directory}
    (confined : Confined placement directory) (name : String) (bytes : ByteArray) :
    Effect.Between (Grown placement) (writeExactOrSame directory name bytes) := by
  intro store stopped member
  have final : ((writeExactOrSame directory name bytes).run store).2 =
      (store.file? directory name).elim (placed directory name bytes store)
        fun _ => made directory store := by
    rw [run_writeExactOrSame]
    cases store.file? directory name <;> rfl
  rw [final]
  have placing : store.file? directory name = none → Pending directory name store stopped →
      Grown placement stopped (placed directory name bytes store) := by
    intro absent pending
    constructor
    · intro other file contents last found
      have same := pending other file fun named => last _ named.2
      exact (grown_placed confined absent).keeps other file contents last (same ▸ found)
    · intro other digest file different last
      rw [(grown_placed confined absent).apart other digest file different last]
      exact (pending _ file fun named => last _ named.2).symm
  rcases mem_states_writeExactOrSame member with same | ⟨absent, pending | rfl⟩
  · refine ⟨same.grown, ?_⟩
    have back : Same stopped store := fun other => (same other).symm
    cases found : store.file? directory name with
    | some _ => exact (back.trans (same_made directory store)).grown
    | none =>
      refine Grown.trans _ store _ back.grown (grown_placed confined found)
  · rw [absent]
    exact ⟨pending.grown, placing absent pending⟩
  · rw [absent]
    exact ⟨grown_placed confined absent, Grown.refl _⟩

/-- A store only grows while contents are written. -/
theorem between_writeContentAddressed {placement : ForeignNamespace} {directory : Directory}
    (confined : Confined placement directory) (reference : String) (bytes : ByteArray) :
    Effect.Between (Grown placement)
      (writeContentAddressed primitives directory reference bytes) := by
  refine Effect.Between.bind Grown.trans (Effect.between_done Grown.refl _) fun derived => ?_
  refine Effect.Between.bind Grown.trans (Effect.between_done Grown.refl _) fun _ => ?_
  refine Effect.Between.bind Grown.trans (Effect.between_done Grown.refl _) fun name => ?_
  exact between_writeExactOrSame confined name bytes

/-- A store only grows while a record is written. -/
theorem between_writeRecord (record : ForeignObjectRecord) (attribution : String) :
    Effect.Between (Grown record.namespace_) (writeRecord primitives record attribution) := by
  refine Effect.Between.bind Grown.trans (Effect.between_done Grown.refl _) fun digest => ?_
  refine Effect.Between.bind Grown.trans (Effect.between_done Grown.refl _) fun name => ?_
  refine Effect.Between.bind Grown.trans (Effect.between_done Grown.refl _) fun bytes => ?_
  refine between_writeExactOrSame (fun other digest same => ?_) name bytes
  exact (Directory.attributions.inj same).1.symm

/-! ## Observations -/

/-- What is put into a store: an object, the node that it comes from, and its provenance. -/
structure Observation where
  /-- The node that it comes from. -/
  sourceNode : String
  /-- The object. -/
  object : ByteArray
  /-- The provenance. -/
  provenance : Option ByteArray

namespace Observation

variable (primitives) (observation : Observation)

/-- The reference to the object. -/
def reference : String := Digest.sha256Ref primitives observation.object

/-- The reference to the provenance. -/
def provenanceId : Option String := observation.provenance.map (Digest.sha256Ref primitives)

/-- The key of the attribution. -/
def key : AttributionKey := ⟨observation.sourceNode, observation.provenanceId primitives⟩

/-- The reference of the attribution. -/
def attribution : String := attributionOf primitives (observation.key primitives)

/-- The record of the object in a namespace. -/
def record (placement : ForeignNamespace) (receivedAt : String) : ForeignObjectRecord :=
  foreignObjectRecord (observation.reference primitives) observation.sourceNode
    (observation.provenanceId primitives) placement receivedAt

/-- Put the object into a namespace. -/
def put (placement : ForeignNamespace) (receivedAt : String) :
    Effect FederationObjectStore StoreError ForeignObjectRecord :=
  putForeign primitives observation.sourceNode observation.object observation.provenance placement
    receivedAt

/-- What is checked of an object that is put into a store. -/
structure Accepted : Prop where
  /-- The source is a node. -/
  node : Wire.isNodeId observation.sourceNode = true
  /-- The object is canonical. -/
  canonical : requireExactCanonical primitives observation.object = .ok ()
  /-- The provenance is one of the object. -/
  provenance : ∀ raw ∈ observation.provenance,
    checkProvenance primitives observation.sourceNode (observation.reference primitives) raw =
      .ok (Digest.sha256Ref primitives raw)

end Observation

/-- A provenance that is accepted is canonical, and its reference is its digest. -/
theorem checkProvenance_ok_iff (sourceNode objectRef : String) (raw : ByteArray) (id : String) :
    checkProvenance primitives sourceNode objectRef raw = .ok id ↔
      requireExactCanonical primitives raw = .ok () ∧
      (∃ provenance, fromSlice Codecs.provenance raw = some provenance ∧
        provenanceValid provenance = true ∧ provenance.sourceNode = sourceNode ∧
        provenance.sourceObject = objectRef) ∧
      id = Digest.sha256Ref primitives raw := by
  simp only [checkProvenance, bind_ok_iff, okOr_ok_iff, ensure_ok_iff]
  constructor
  · rintro ⟨⟨⟩, canonical, provenance, decoded, ⟨⟩, fields, identified⟩
    rw [objectId_of_canonical canonical] at identified
    exact ⟨canonical, ⟨provenance, decoded, fields⟩, (Except.ok.inj identified).symm⟩
  · rintro ⟨canonical, ⟨provenance, decoded, fields⟩, rfl⟩
    exact ⟨⟨⟩, canonical, provenance, decoded, ⟨⟩, fields, objectId_of_canonical canonical⟩

namespace Observation

variable {observation : Observation}

/-- The key of an accepted object is well formed. -/
theorem keyShape (node : Wire.isNodeId observation.sourceNode = true) :
    KeyShape (observation.key primitives) := by
  refine ⟨node, fun id present => ?_⟩
  obtain ⟨raw, -, rfl⟩ := Option.map_eq_some_iff.mp present
  exact isSha256Ref_digest primitives raw

/-- The attribution of an accepted object. -/
theorem attributionId_record (node : Wire.isNodeId observation.sourceNode = true)
    (placement : ForeignNamespace) (receivedAt : String) :
    attributionId primitives (observation.record primitives placement receivedAt) =
      .ok (observation.attribution primitives) :=
  attributionId_of_shape (keyShape node)

/-- The record of an accepted object is valid. -/
theorem record_valid (node : Wire.isNodeId observation.sourceNode = true)
    (placement : ForeignNamespace) {receivedAt : String}
    (received : validTimestamp receivedAt = true) :
    ForeignValid (observation.record primitives placement receivedAt) placement
      (observation.reference primitives) where
  schema := rfl
  object := rfl
  namespace_ := rfl
  authority := rfl
  node := node
  received := received
  provenance := (keyShape node).provenance

end Observation

/-- The record of an attribution as its two files show it. -/
theorem findRecord_eq (store : FederationObjectStore) {objectRef attribution : String}
    (object : Wire.isSha256Ref objectRef = true) (named : Wire.isSha256Ref attribution = true) :
    store.findRecord primitives objectRef attribution =
      match store.file? (.attributions .foreign (digestOf objectRef))
          (fileOf ".record.json" attribution) with
      | some raw => some <$> readRecord primitives raw .foreign objectRef attribution
      | none =>
        match store.file? (.attributions .quarantine (digestOf objectRef))
            (fileOf ".record.json" attribution) with
        | some raw => some <$> readRecord primitives raw .quarantine objectRef attribution
        | none => .ok none := by
  have digest := digestFromRef_of_ref object
  have name := (recordName_ok_iff ..).mpr (named_fileOf ".record.json" named)
  simp only [findRecord, digest, name, bind_ok]
  rfl

/-- The record of an attribution depends on its two files only. -/
theorem findRecord_congr {one two : FederationObjectStore} {objectRef attribution : String}
    (object : Wire.isSha256Ref objectRef = true) (named : Wire.isSha256Ref attribution = true)
    (same : ∀ placement, two.file? (.attributions placement (digestOf objectRef))
        (fileOf ".record.json" attribution) =
      one.file? (.attributions placement (digestOf objectRef))
        (fileOf ".record.json" attribution)) :
    two.findRecord primitives objectRef attribution =
      one.findRecord primitives objectRef attribution := by
  rw [findRecord_eq two object named, findRecord_eq one object named, same .foreign,
    same .quarantine]

/-- An attribution without a record has neither of its files. -/
theorem findRecord_none_iff (store : FederationObjectStore) {objectRef attribution : String}
    (object : Wire.isSha256Ref objectRef = true) (named : Wire.isSha256Ref attribution = true) :
    store.findRecord primitives objectRef attribution = .ok none ↔
      ∀ placement, store.file? (.attributions placement (digestOf objectRef))
        (fileOf ".record.json" attribution) = none := by
  have read : ∀ (raw : ByteArray) (placement : ForeignNamespace),
      (some <$> readRecord primitives raw placement objectRef attribution) ≠ .ok none := by
    intro raw placement
    cases readRecord primitives raw placement objectRef attribution <;> nofun
  rw [findRecord_eq store object named]
  constructor
  · intro found placement
    cases foreign : store.file? (.attributions .foreign (digestOf objectRef))
        (fileOf ".record.json" attribution) with
    | some raw =>
      rw [foreign] at found
      exact absurd found (read raw .foreign)
    | none =>
      cases quarantine : store.file? (.attributions .quarantine (digestOf objectRef))
          (fileOf ".record.json" attribution) with
      | some raw =>
        rw [foreign, quarantine] at found
        exact absurd found (read raw .quarantine)
      | none => cases placement <;> assumption
  · intro absent
    rw [absent .foreign, absent .quarantine]

/-! ## Puts -/

variable (primitives) in
/-- The provenance of an object was written, if there is one. -/
def WrittenProvenance : Option ByteArray → FederationObjectStore → FederationObjectStore → Prop
  | none, before, after => after = before
  | some raw, before, after =>
    Written .provenance (fileOf ".json" (Digest.sha256Ref primitives raw)) raw before after

/-- Writing a provenance leaves every lasting file of another directory alone. -/
theorem WrittenProvenance.frame {provenance : Option ByteArray}
    {before after : FederationObjectStore}
    (written : WrittenProvenance primitives provenance before after) {directory : Directory}
    {name : String} (lasting : Lasting name) (different : directory ≠ .provenance) :
    after.file? directory name = before.file? directory name := by
  cases provenance with
  | none => rw [show after = before from written]
  | some raw =>
    have wrote : Written .provenance (fileOf ".json" (Digest.sha256Ref primitives raw)) raw
      before after := written
    exact wrote.frame lasting fun same => different same.1

/-- A written provenance is there. -/
theorem WrittenProvenance.present {provenance : Option ByteArray}
    {before after : FederationObjectStore}
    (written : WrittenProvenance primitives provenance before after) {raw : ByteArray}
    (given : raw ∈ provenance) :
    Written .provenance (fileOf ".json" (Digest.sha256Ref primitives raw)) raw before after := by
  cases Option.mem_def.mp given
  exact written

/-- The provenance of an object is checked and written. -/
theorem putProvenance_ok_iff (sourceNode objectRef : String) (provenance : Option ByteArray)
    (before after : FederationObjectStore) (id : Option String) :
    (putProvenance primitives sourceNode objectRef provenance).run before = (.ok id, after) ↔
      (∀ raw ∈ provenance, checkProvenance primitives sourceNode objectRef raw =
        .ok (Digest.sha256Ref primitives raw)) ∧
      id = provenance.map (Digest.sha256Ref primitives) ∧
      WrittenProvenance primitives provenance before after := by
  cases provenance with
  | none =>
    simp only [putProvenance, Effect.run_pure, Prod.mk.injEq, Except.ok.injEq, WrittenProvenance,
      Option.map_none, Option.not_mem_none, false_imp_iff, implies_true, true_and]
    exact and_congr eq_comm eq_comm
  | some raw =>
    simp only [putProvenance, Effect.run_bind_ok_iff, Effect.run_check, Prod.mk.injEq,
      Effect.run_pure, Except.ok.injEq, WrittenProvenance, Option.map_some, Option.mem_some_iff,
      forall_eq']
    constructor
    · rintro ⟨reference, _, ⟨checked, rfl⟩, ⟨⟩, middle, written, rfl, rfl⟩
      obtain ⟨canonical, -, rfl⟩ := (checkProvenance_ok_iff ..).mp checked
      exact ⟨checked, rfl, (writeContentAddressed_ok_iff .provenance canonical ..).mp written⟩
    · rintro ⟨checked, rfl, written⟩
      have canonical := ((checkProvenance_ok_iff ..).mp checked).1
      exact ⟨_, before, ⟨checked, rfl⟩, ⟨⟩, after,
        (writeContentAddressed_ok_iff .provenance canonical ..).mpr written, rfl, rfl⟩

/-- A valid record is written where it is absent. -/
theorem writeRecord_ok_iff {record : ForeignObjectRecord} {placement : ForeignNamespace}
    {objectRef : String} (valid : ForeignValid record placement objectRef)
    (shape : Wire.isSha256Ref objectRef = true) {attribution : String}
    (named : Wire.isSha256Ref attribution = true) (before after : FederationObjectStore) :
    (writeRecord primitives record attribution).run before = (.ok ⟨⟩, after) ↔
      ∃ raw, canonicalStruct primitives (Codecs.foreignRecord.encode record) = .ok raw ∧
        Written (.attributions placement (digestOf objectRef)) (fileOf ".record.json" attribution)
          raw before after := by
  have digest := digestFromRef_of_ref shape
  have name := (recordName_ok_iff ..).mpr (named_fileOf ".record.json" named)
  have ⟨raw, encoded⟩ : ∃ raw, canonicalStruct primitives (Codecs.foreignRecord.encode record) =
      .ok raw := valid.encoded shape
  simp only [writeRecord, valid.object, digest, name, encoded, Effect.run_check_bind,
    valid.namespace_, Except.ok.injEq, exists_eq_left']
  exact writeExactOrSame_ok_iff ..

namespace Observation

variable {observation : Observation}

/-- What a put that succeeds has done. -/
theorem put_ok_iff (placement : ForeignNamespace) (receivedAt : String)
    (before after : FederationObjectStore) (record : ForeignObjectRecord) :
    (observation.put primitives placement receivedAt).run before = (.ok record, after) ↔
      observation.Accepted primitives ∧ validTimestamp receivedAt = true ∧ ∃ one two,
        WrittenProvenance primitives observation.provenance before one ∧
        Written .objects (fileOf ".json" (observation.reference primitives)) observation.object
          one two ∧
        ((two.findRecord primitives (observation.reference primitives)
            (observation.attribution primitives) = .ok (some record) ∧ after = two) ∨
          (two.findRecord primitives (observation.reference primitives)
              (observation.attribution primitives) = .ok none ∧
            record = observation.record primitives placement receivedAt ∧
            ∃ raw, canonicalStruct primitives (Codecs.foreignRecord.encode record) = .ok raw ∧
              after = placed (.attributions placement (digestOf (observation.reference primitives)))
                (fileOf ".record.json" (observation.attribution primitives)) raw two)) := by
  have shape : Wire.isSha256Ref (observation.reference primitives) = true :=
    isSha256Ref_digest primitives observation.object
  have named : Wire.isSha256Ref (observation.attribution primitives) = true :=
    isSha256Ref_digest primitives _
  simp only [put, putForeign, Effect.run_bind_ok_iff, Effect.run_check, Prod.mk.injEq,
    ensure_ok_iff, Effect.run_read]
  constructor
  · rintro ⟨⟨⟩, _, ⟨⟨node, received⟩, rfl⟩, ⟨⟩, _, ⟨canonical, rfl⟩, objectRef, _,
      ⟨identified, rfl⟩, id, one, stored, ⟨⟩, two, written, ⟨⟩, _, ⟨validated, rfl⟩, attribution, _,
      ⟨attributed, rfl⟩, found, _, ⟨looked, rfl⟩, rest⟩
    rw [objectId_of_canonical canonical] at identified
    obtain rfl := Except.ok.inj identified
    obtain ⟨checked, rfl, kept⟩ := (putProvenance_ok_iff ..).mp stored
    obtain rfl := Except.ok.inj
      ((attributionId_record node placement receivedAt).symm.trans attributed)
    refine ⟨⟨node, canonical, checked⟩, received, one, _, kept,
      (writeContentAddressed_ok_iff .objects canonical ..).mp written, ?_⟩
    cases found with
    | some existing =>
      simp only [Effect.run_pure, Prod.mk.injEq, Except.ok.injEq] at rest
      obtain ⟨rfl, rfl⟩ := rest
      exact .inl ⟨looked, rfl⟩
    | none =>
      simp only [Effect.run_bind_ok_iff, Effect.run_pure, Prod.mk.injEq, Except.ok.injEq] at rest
      obtain ⟨⟨⟩, last, wrote, rfl, rfl⟩ := rest
      have valid : ForeignValid (observation.record primitives placement receivedAt) placement
          (observation.reference primitives) := record_valid node placement received
      obtain ⟨raw, encoded, ⟨present, -⟩ | ⟨-, rfl⟩⟩ :=
        (writeRecord_ok_iff valid shape named ..).mp wrote
      · have absent := (findRecord_none_iff _ shape named).mp looked placement
        rw [present] at absent
        cases absent
      · exact .inr ⟨looked, rfl, raw, encoded, rfl⟩
  · rintro ⟨⟨node, canonical, checked⟩, received, one, two, stored, written, rest⟩
    have valid : ForeignValid (observation.record primitives placement receivedAt) placement
        (observation.reference primitives) := record_valid node placement received
    refine ⟨⟨⟩, before, ⟨⟨node, received⟩, rfl⟩, ⟨⟩, before, ⟨canonical, rfl⟩, _, before,
      ⟨objectId_of_canonical canonical, rfl⟩, _, one,
      (putProvenance_ok_iff ..).mpr ⟨checked, rfl, stored⟩, ⟨⟩, two,
      (writeContentAddressed_ok_iff .objects canonical ..).mpr written, ⟨⟩, two,
      ⟨(validateForeignRecord_none_iff ..).mpr valid, rfl⟩, _, two,
      ⟨attributionId_record node placement receivedAt, rfl⟩, ?_⟩
    rcases rest with ⟨looked, rfl⟩ | ⟨looked, rfl, raw, encoded, rfl⟩
    · exact ⟨some record, after, ⟨looked, rfl⟩, rfl⟩
    · refine ⟨none, two, ⟨looked, rfl⟩, ?_⟩
      simp only [Effect.run_bind_ok_iff, Effect.run_pure, Prod.mk.injEq, Except.ok.injEq]
      have absent := (findRecord_none_iff _ shape named).mp looked placement
      exact ⟨⟨⟩, _, (writeRecord_ok_iff valid shape named ..).mpr ⟨raw, encoded,
        .inr ⟨absent, rfl⟩⟩, rfl, rfl⟩

/-- A store only grows while an object is put into it. -/
theorem between_put (placement : ForeignNamespace) (receivedAt : String) :
    Effect.Between (Grown placement) (observation.put primitives placement receivedAt) := by
  have check : ∀ {α : Type} (checked : Except StoreError α),
      Effect.Between (Grown placement) (Effect.check checked) := fun checked =>
    Effect.between_done Grown.refl checked
  have objects : Confined placement .objects := nofun
  have provenance : Confined placement .provenance := nofun
  refine Effect.Between.bind Grown.trans (check _) fun _ => ?_
  refine Effect.Between.bind Grown.trans (check _) fun _ => ?_
  refine Effect.Between.bind Grown.trans (check _) fun objectRef => ?_
  refine Effect.Between.bind Grown.trans ?_ fun id => ?_
  · cases observation.provenance with
    | none => exact Effect.between_done Grown.refl _
    | some raw =>
      refine Effect.Between.bind Grown.trans (check _) fun reference => ?_
      refine Effect.Between.bind Grown.trans
        (between_writeContentAddressed provenance reference raw) fun _ => ?_
      exact Effect.between_done Grown.refl _
  refine Effect.Between.bind Grown.trans (between_writeContentAddressed objects _ _) fun _ => ?_
  refine Effect.Between.bind Grown.trans (check _) fun _ => ?_
  refine Effect.Between.bind Grown.trans (check _) fun attribution => ?_
  refine Effect.Between.bind Grown.trans (Effect.between_read Grown.refl _) fun found => ?_
  cases found with
  | some existing => exact Effect.between_done Grown.refl _
  | none =>
    refine Effect.Between.bind Grown.trans (between_writeRecord _ attribution) fun _ => ?_
    exact Effect.between_done Grown.refl _

end Observation

/-! ## Objects that are held -/

/-- The store holds an object with its provenance and a record of its attribution. -/
structure Held (primitives : Primitives) (observation : Observation)
    (record : ForeignObjectRecord) (store : FederationObjectStore) : Prop where
  /-- The object is there. -/
  object : store.file? .objects (fileOf ".json" (observation.reference primitives)) =
    some observation.object
  /-- Its provenance is there. -/
  provenance : ∀ raw ∈ observation.provenance,
    store.file? .provenance (fileOf ".json" (Digest.sha256Ref primitives raw)) = some raw
  /-- Its attribution has the record. -/
  record : store.findRecord primitives (observation.reference primitives)
    (observation.attribution primitives) = .ok (some record)

/-- Nothing in the store stands against an object. -/
structure Fits (primitives : Primitives) (observation : Observation)
    (store : FederationObjectStore) : Prop where
  /-- No other object is there under its reference. -/
  object : ∀ old, store.file? .objects (fileOf ".json" (observation.reference primitives)) =
    some old → old = observation.object
  /-- No other provenance is there under its reference. -/
  provenance : ∀ raw ∈ observation.provenance, ∀ old,
    store.file? .provenance (fileOf ".json" (Digest.sha256Ref primitives raw)) = some old →
      old = raw
  /-- The record of its attribution can be read. -/
  record : ∃ found, store.findRecord primitives (observation.reference primitives)
    (observation.attribution primitives) = .ok found

variable (primitives) in
/-- The reference of an object is one. -/
theorem Observation.reference_shape (observation : Observation) :
    Wire.isSha256Ref (observation.reference primitives) = true :=
  isSha256Ref_digest primitives observation.object

variable (primitives) in
/-- The reference of an attribution is one. -/
theorem Observation.attribution_shape (observation : Observation) :
    Wire.isSha256Ref (observation.attribution primitives) = true :=
  isSha256Ref_digest primitives _

/-- The name of the file of a reference lasts. -/
theorem lasting_fileOf (suffix : String) {reference : String}
    (shape : Wire.isSha256Ref reference = true) : Lasting (fileOf suffix reference) :=
  (named_fileOf suffix shape).lasting

/-- An attribution in a store that grows in quarantine keeps its record. -/
theorem findRecord_grown {before after : FederationObjectStore} (grown : Grown .quarantine before after)
    {objectRef attribution : String} (object : Wire.isSha256Ref objectRef = true)
    (named : Wire.isSha256Ref attribution = true) {record : ForeignObjectRecord}
    (found : before.findRecord primitives objectRef attribution = .ok (some record)) :
    after.findRecord primitives objectRef attribution = .ok (some record) := by
  have lasting := lasting_fileOf ".record.json" named
  rw [findRecord_eq after object named]
  rw [findRecord_eq before object named] at found
  rw [grown.apart .foreign _ _ (by decide) lasting]
  cases foreign : before.file? (.attributions .foreign (digestOf objectRef))
      (fileOf ".record.json" attribution) with
  | some raw =>
    rw [foreign] at found
    exact found
  | none =>
    rw [foreign] at found
    cases quarantine : before.file? (.attributions .quarantine (digestOf objectRef))
        (fileOf ".record.json" attribution) with
    | some raw =>
      rw [quarantine] at found
      rw [grown.keeps _ _ _ lasting quarantine]
      exact found
    | none =>
      rw [quarantine] at found
      cases found

/-- What is held stays held in a store that grows in quarantine. -/
theorem Held.grown {observation : Observation} {record : ForeignObjectRecord}
    {before after : FederationObjectStore} (held : Held primitives observation record before)
    (grown : Grown .quarantine before after) : Held primitives observation record after where
  object := grown.keeps _ _ _ (lasting_fileOf ".json" (observation.reference_shape primitives)) held.object
  provenance raw present :=
    grown.keeps _ _ _ (lasting_fileOf ".json" (isSha256Ref_digest primitives raw))
      (held.provenance raw present)
  record := findRecord_grown grown (observation.reference_shape primitives)
    (observation.attribution_shape primitives) held.record

/-- What is held fits. -/
theorem Held.fits {observation : Observation} {record : ForeignObjectRecord}
    {store : FederationObjectStore} (held : Held primitives observation record store) :
    Fits primitives observation store where
  object _ found := Option.some.inj (found.symm.trans held.object)
  provenance raw present _ found :=
    Option.some.inj (found.symm.trans (held.provenance raw present))
  record := ⟨_, held.record⟩

namespace Observation

variable {observation : Observation} {placement : ForeignNamespace} {receivedAt : String}
  {before after : FederationObjectStore} {record : ForeignObjectRecord}

/-- The files that a put writes: the object, its provenance, and its record if it was absent. -/
theorem file?_put
    (ran : (observation.put primitives placement receivedAt).run before = (.ok record, after))
    (directory : Directory) {name : String} (lasting : Lasting name) :
    after.file? directory name = before.file? directory name ∨
      (directory = .objects ∧ name = fileOf ".json" (observation.reference primitives) ∧
        after.file? directory name = some observation.object) ∨
      (∃ raw ∈ observation.provenance, directory = .provenance ∧
        name = fileOf ".json" (Digest.sha256Ref primitives raw) ∧
        after.file? directory name = some raw) ∨
      (directory = .attributions placement (digestOf (observation.reference primitives)) ∧
        name = fileOf ".record.json" (observation.attribution primitives)) := by
  obtain ⟨-, -, one, two, stored, written, rest⟩ := (put_ok_iff ..).mp ran
  have last : after.file? directory name = two.file? directory name ∨
      (directory = .attributions placement (digestOf (observation.reference primitives)) ∧
        name = fileOf ".record.json" (observation.attribution primitives)) := by
    rcases rest with ⟨-, rfl⟩ | ⟨-, -, raw, -, rfl⟩
    · exact .inl rfl
    · by_cases here : directory =
          .attributions placement (digestOf (observation.reference primitives)) ∧
          name = fileOf ".record.json" (observation.attribution primitives)
      · exact .inr here
      · rw [file?_placed, if_neg here, if_neg fun same => lasting _ same.2]
        exact .inl rfl
  rcases last with same | here
  · by_cases object : directory = .objects ∧
        name = fileOf ".json" (observation.reference primitives)
    · obtain ⟨rfl, rfl⟩ := object
      exact .inr (.inl ⟨rfl, rfl, same.trans written.present⟩)
    · have kept := written.frame lasting object
      by_cases provenance : ∃ raw ∈ observation.provenance, directory = .provenance ∧
          name = fileOf ".json" (Digest.sha256Ref primitives raw)
      · obtain ⟨raw, present, rfl, rfl⟩ := provenance
        exact .inr (.inr (.inl ⟨raw, present, rfl, rfl,
          same.trans (kept.trans (stored.present present).present)⟩))
      · refine .inl (same.trans (kept.trans ?_))
        cases given : observation.provenance with
        | none =>
          rw [given] at stored
          rw [show one = before from stored]
        | some raw =>
          exact (stored.present given).frame lasting fun here => provenance ⟨raw, given, here⟩
  · exact .inr (.inr (.inr here))

/-- What was put is held. -/
theorem held_of_put
    (ran : (observation.put primitives placement receivedAt).run before = (.ok record, after)) :
    Held primitives observation record after := by
  obtain ⟨accepted, received, one, two, stored, written, rest⟩ := (put_ok_iff ..).mp ran
  have provenance : ∀ raw ∈ observation.provenance,
      two.file? .provenance (fileOf ".json" (Digest.sha256Ref primitives raw)) = some raw := by
    intro raw present
    rw [written.frame (lasting_fileOf ".json" (isSha256Ref_digest primitives raw)) (by nofun)]
    exact (stored.present present).present
  rcases rest with ⟨found, rfl⟩ | ⟨absent, rfl, raw, encoded, rfl⟩
  · exact ⟨written.present, provenance, found⟩
  · have shape := observation.reference_shape primitives
    have named := observation.attribution_shape primitives
    have valid : ForeignValid (observation.record primitives placement receivedAt) placement
        (observation.reference primitives) := record_valid accepted.node placement received
    have read := valid.readRecord shape encoded
    have none_ := (findRecord_none_iff two shape named).mp absent
    refine ⟨?_, fun raw present => ?_, ?_⟩
    · rw [file?_placed, if_neg (by nofun), if_neg (by nofun)]
      exact written.present
    · rw [file?_placed, if_neg (by nofun), if_neg (by nofun)]
      exact provenance raw present
    · rw [findRecord_eq _ shape named]
      simp only [file?_placed, Directory.attributions.injEq, and_true]
      cases placement with
      | foreign =>
        change some <$> readRecord primitives raw .foreign _ (attributionOf primitives
          (recordKey (observation.record primitives .foreign receivedAt))) = _
        rw [read]
        rfl
      | quarantine =>
        simp only [reduceCtorEq, false_and, ↓reduceIte, none_ .foreign]
        change some <$> readRecord primitives raw .quarantine _ (attributionOf primitives
          (recordKey (observation.record primitives .quarantine receivedAt))) = _
        rw [read]
        rfl

/-- What can be put fits. -/
theorem fits_of_put
    (ran : (observation.put primitives placement receivedAt).run before = (.ok record, after)) :
    Fits primitives observation before := by
  have shape := observation.reference_shape primitives
  have named := observation.attribution_shape primitives
  obtain ⟨accepted, received, one, two, stored, written, rest⟩ := (put_ok_iff ..).mp ran
  refine ⟨fun old found => ?_, fun raw present old found => ?_, ?_⟩
  · rw [← stored.frame (lasting_fileOf ".json" shape) (by nofun)] at found
    exact written.fits found
  · exact (stored.present present).fits found
  · have lasting := lasting_fileOf ".record.json" named
    have same : two.findRecord primitives (observation.reference primitives)
        (observation.attribution primitives) = before.findRecord primitives
          (observation.reference primitives) (observation.attribution primitives) :=
      findRecord_congr shape named fun other =>
        (written.frame lasting (by nofun)).trans (stored.frame lasting (by nofun))
    rw [← same]
    rcases rest with ⟨found, -⟩ | ⟨found, -⟩
    · exact ⟨_, found⟩
    · exact ⟨_, found⟩

/-- An accepted object that fits can be put. -/
theorem put_of_fits (accepted : observation.Accepted primitives)
    (received : validTimestamp receivedAt = true) (fits : Fits primitives observation before) :
    ∃ record after,
      (observation.put primitives placement receivedAt).run before = (.ok record, after) := by
  have shape := observation.reference_shape primitives
  have named := observation.attribution_shape primitives
  have one : ∃ one, WrittenProvenance primitives observation.provenance before one := by
    cases present : observation.provenance with
    | none => exact ⟨before, rfl⟩
    | some raw => exact written_of_fits (fits.provenance raw present)
  obtain ⟨one, stored⟩ := one
  have two : ∃ two, Written .objects (fileOf ".json" (observation.reference primitives))
      observation.object one two := by
    refine written_of_fits fun old found => fits.object old ?_
    rw [← stored.frame (lasting_fileOf ".json" shape) (by nofun)]
    exact found
  obtain ⟨two, written⟩ := two
  have lasting := lasting_fileOf ".record.json" named
  have same : two.findRecord primitives (observation.reference primitives)
      (observation.attribution primitives) = before.findRecord primitives
        (observation.reference primitives) (observation.attribution primitives) :=
    findRecord_congr shape named fun other =>
      (written.frame lasting (by nofun)).trans (stored.frame lasting (by nofun))
  obtain ⟨found, looked⟩ := fits.record
  cases found with
  | some record =>
    exact ⟨record, two, (put_ok_iff ..).mpr ⟨accepted, received, one, two, stored, written,
      .inl ⟨same.trans looked, rfl⟩⟩⟩
  | none =>
    have valid : ForeignValid (observation.record primitives placement receivedAt) placement
        (observation.reference primitives) := record_valid accepted.node placement received
    have ⟨raw, encoded⟩ : ∃ raw, canonicalStruct primitives (Codecs.foreignRecord.encode
        (observation.record primitives placement receivedAt)) = .ok raw := valid.encoded shape
    exact ⟨_, _, (put_ok_iff ..).mpr ⟨accepted, received, one, two, stored, written,
      .inr ⟨same.trans looked, rfl, raw, encoded, rfl⟩⟩⟩

/-- What is held is put again by changing nothing. -/
theorem put_of_held (accepted : observation.Accepted primitives)
    (received : validTimestamp receivedAt = true)
    (held : Held primitives observation record before) :
    ∃ after, (observation.put primitives placement receivedAt).run before = (.ok record, after) ∧
      Same before after := by
  have ⟨found, after, ran⟩ : ∃ found after,
      (observation.put primitives placement receivedAt).run before = (.ok found, after) :=
    put_of_fits accepted received held.fits
  obtain ⟨-, -, one, two, stored, written, rest⟩ := (put_ok_iff ..).mp ran
  have first : Same before one := by
    cases given : observation.provenance with
    | none =>
      rw [given] at stored
      exact (show one = before from stored) ▸ Same.refl before
    | some raw => exact (stored.present given).same (held.provenance raw given)
  have second : Same one two :=
    written.same ((first.file? _ _).trans held.object)
  have both := first.trans second
  have looked : two.findRecord primitives (observation.reference primitives)
      (observation.attribution primitives) = .ok (some record) :=
    (findRecord_congr (observation.reference_shape primitives)
      (observation.attribution_shape primitives) fun other => both.file? _ _).trans held.record
  rcases rest with ⟨existing, rfl⟩ | ⟨absent, -⟩
  · rw [looked] at existing
    obtain rfl := Option.some.inj (Except.ok.inj existing)
    exact ⟨after, ran, both⟩
  · rw [looked] at absent
    cases absent

end Observation

/-- Two objects that can be in one store: the same reference names the same contents. -/
structure Agree (primitives : Primitives) (one two : Observation) : Prop where
  /-- Their objects agree. -/
  object : one.reference primitives = two.reference primitives → one.object = two.object
  /-- Their provenances agree. -/
  provenance : ∀ left ∈ one.provenance, ∀ right ∈ two.provenance,
    Digest.sha256Ref primitives left = Digest.sha256Ref primitives right → left = right

/-- Objects that are held together agree. -/
theorem Held.agree {one two : Observation} {first second : ForeignObjectRecord}
    {store : FederationObjectStore} (left : Held primitives one first store)
    (right : Held primitives two second store) : Agree primitives one two where
  object same := by
    have found := left.object
    rw [same, right.object] at found
    exact (Option.some.inj found).symm
  provenance raw present other given same := by
    have found := left.provenance raw present
    rw [same, right.provenance other given] at found
    exact (Option.some.inj found).symm

/-- An object that fits still fits after an object was put that agrees with it. -/
theorem Fits.put {one two : Observation} {placement : ForeignNamespace} {receivedAt : String}
    {record : ForeignObjectRecord} {before after : FederationObjectStore}
    (fits : Fits primitives one before) (agree : Agree primitives one two)
    (ran : (two.put primitives placement receivedAt).run before = (.ok record, after)) :
    Fits primitives one after := by
  have shape := one.reference_shape primitives
  have named := one.attribution_shape primitives
  have held := Observation.held_of_put ran
  refine ⟨fun old found => ?_, fun raw present old found => ?_, ?_⟩
  · rcases Observation.file?_put ran _ (lasting_fileOf ".json" shape) with
      same | ⟨-, name, contents⟩ | ⟨_, _, other, -⟩ | ⟨other, -⟩
    · exact fits.object old (same.symm.trans found)
    · rw [found] at contents
      have reference := fileOf_inj shape (two.reference_shape primitives) name
      rw [Option.some.inj contents, agree.object reference]
    · cases other
    · cases other
  · have provenance := isSha256Ref_digest primitives raw
    rcases Observation.file?_put ran _ (lasting_fileOf ".json" provenance) with
      same | ⟨other, -⟩ | ⟨raw', given, -, name, contents⟩ | ⟨other, -⟩
    · exact fits.provenance raw present old (same.symm.trans found)
    · cases other
    · rw [found] at contents
      have reference := fileOf_inj provenance (isSha256Ref_digest primitives raw') name
      rw [Option.some.inj contents, agree.provenance raw present raw' given reference]
    · cases other
  · by_cases same : one.reference primitives = two.reference primitives ∧
        one.attribution primitives = two.attribution primitives
    · rw [same.1, same.2]
      exact ⟨_, held.record⟩
    · obtain ⟨found, looked⟩ := fits.record
      refine ⟨found, (findRecord_congr shape named fun other => ?_).trans looked⟩
      rcases Observation.file?_put ran (.attributions other (digestOf (one.reference primitives)))
          (lasting_fileOf ".record.json" named) with
        kept | ⟨different, -⟩ | ⟨_, _, different, -⟩ | ⟨here, name⟩
      · exact kept
      · cases different
      · cases different
      · obtain ⟨-, digest⟩ := Directory.attributions.inj here
        exact absurd ⟨digestOf_inj shape (two.reference_shape primitives) digest,
          fileOf_inj named (two.attribution_shape primitives) name⟩ same

end QsolFed.FederationObjectStore
