import QsolFed.Store.Moves

/-!
# Local objects that are made of foreign ones

Making a local object of a foreign one writes the object, its provenance and one record, under the
reference of the local object. The record names the foreign object, so that every local object has
one parent.
-/
namespace QsolFed.FederationObjectStore

open Checked Json Canonical

variable {primitives : Primitives}

/-- Contents that were there or were put there are added. -/
theorem Written.accrued {directory : Directory}
    (contents : directory = .objects ∨ directory = .provenance) {name : String} {bytes : ByteArray}
    {before after : FederationObjectStore} (written : Written directory name bytes before after) :
    Accrued before after := by
  rcases written with ⟨-, rfl⟩ | ⟨absent, rfl⟩
  · exact (same_made directory before).accrued
  · exact accrued_placed contents absent

/-- The record of a local object that is made of a foreign one. -/
structure DescendantValid (record : LocalDescendantRecord) : Prop where
  /-- The schema name. -/
  schema : record.schema = localDescendantSchemaV1
  /-- The object is a reference. -/
  object : Wire.isSha256Ref record.objectId = true
  /-- The local node is one. -/
  node : Wire.isNodeId record.localNode = true
  /-- The foreign object is a reference. -/
  parent : Wire.isSha256Ref record.parentForeignObject = true
  /-- The provenance is a reference. -/
  provenance : Wire.isSha256Ref record.provenanceId = true
  /-- The time is one. -/
  created : validTimestamp record.createdAt = true
  /-- There is no authority. -/
  authority : record.authority = "none"

/-- What making a local object of a foreign one does when it succeeds. -/
structure Derivation (primitives : Primitives) (localNode parentForeignObject : String)
    (localObject : ByteArray) (createdAt : String) (record : LocalDescendantRecord)
    (before after : FederationObjectStore) : Prop where
  /-- The record is valid. -/
  valid : DescendantValid record
  /-- It names the local object. -/
  object : record.objectId = Digest.sha256Ref primitives localObject
  /-- It names the foreign object. -/
  parent : record.parentForeignObject = parentForeignObject
  /-- The two are not the same. -/
  apart : record.objectId ≠ record.parentForeignObject
  /-- The foreign object has records. -/
  foreign : ∃ records, before.foreignRecords primitives parentForeignObject = .ok records ∧
    records ≠ []
  /-- Contents are added and the record is written. -/
  written : ∃ two raw, Accrued before two ∧
    canonicalStruct primitives (Codecs.descendant.encode record) = .ok raw ∧
    Written .descendants (fileOf ".record.json" record.objectId) raw two after

/-- Making a local object of a foreign one adds contents at most, or it also writes the record. -/
theorem createLocalDescendant_cases {localNode parentForeignObject : String}
    {localObject : ByteArray} {createdAt : String} {before after : FederationObjectStore}
    {answer : Except StoreError LocalDescendantRecord}
    (ran : (createLocalDescendant primitives localNode parentForeignObject localObject
      createdAt).run before = (answer, after)) :
    (∃ error, answer = .error error ∧ Accrued before after) ∨
      ∃ record, answer = .ok record ∧ Derivation primitives localNode parentForeignObject localObject
        createdAt record before after := by
  cases answer with
  | error error =>
    exact .inl ⟨error, rfl, failing_createLocalDescendant _ _ _ _ _ _ _ ran⟩
  | ok record =>
    refine .inr ⟨record, rfl, ?_⟩
    simp only [createLocalDescendant, Effect.run_bind_ok_iff, Effect.run_check, Prod.mk.injEq,
      ensure_ok_iff, Effect.run_read, Effect.run_pure, Except.ok.injEq] at ran
    obtain ⟨⟨⟩, _, ⟨⟨node, reference, created⟩, rfl⟩, records, _, ⟨listed, rfl⟩, ⟨⟩, _,
      ⟨some_, rfl⟩, ⟨⟩, _, ⟨canonical, rfl⟩, descendantId, _, ⟨identified, rfl⟩, ⟨⟩, _,
      ⟨apart, rfl⟩, ⟨⟩, one, object, ⟨⟩, _, ⟨-, rfl⟩, provenanceBytes, _, ⟨encodedProvenance, rfl⟩,
      provenanceId, _, ⟨identifiedProvenance, rfl⟩, ⟨⟩, two, provenance, name, _, ⟨named, rfl⟩, raw,
      _, ⟨encoded, rfl⟩, ⟨⟩, last, wrote, rfl, rfl⟩ := ran
    rw [objectId_of_canonical canonical] at identified
    obtain rfl := Except.ok.inj identified
    have provenanceCanonical := requireExactCanonical_of_struct encodedProvenance
    rw [objectId_of_canonical provenanceCanonical] at identifiedProvenance
    obtain rfl := Except.ok.inj identifiedProvenance
    have first := (writeContentAddressed_ok_iff .objects canonical ..).mp object
    have second := (writeContentAddressed_ok_iff .provenance provenanceCanonical ..).mp provenance
    obtain ⟨shape, rfl⟩ := (named_iff ..).mp ((recordName_ok_iff ..).mp named)
    exact
      { valid := ⟨rfl, shape, node, reference, isSha256Ref_digest primitives _, created, rfl⟩
        object := rfl
        parent := rfl
        apart
        foreign := ⟨records, listed, some_⟩
        written := ⟨two, raw, Accrued.trans _ _ _ (first.accrued (.inl rfl))
          (second.accrued (.inr rfl)), encoded, (writeExactOrSame_ok_iff ..).mp wrote⟩ }

/-- Making a local object of a foreign one changes nothing but contents and its record. -/
theorem Derivation.elsewhere {localNode parentForeignObject : String} {localObject : ByteArray}
    {createdAt : String} {record : LocalDescendantRecord} {before after : FederationObjectStore}
    (derivation : Derivation primitives localNode parentForeignObject localObject createdAt record
      before after) {directory : Directory} (name : String) (objects : directory ≠ .objects)
    (provenance : directory ≠ .provenance) (descendants : directory ≠ .descendants) :
    after.file? directory name = before.file? directory name := by
  obtain ⟨two, raw, accrued, -, ⟨-, rfl⟩ | ⟨-, rfl⟩⟩ := derivation.written
  · rw [(same_made .descendants two).file?]
    exact accrued.elsewhere _ _ objects provenance
  · rw [file?_placed, if_neg fun same => descendants same.1, if_neg fun same => descendants same.1]
    exact accrued.elsewhere _ _ objects provenance

/-- Whatever lasts stays when a local object is made of a foreign one. -/
theorem Derivation.kept {localNode parentForeignObject : String} {localObject : ByteArray}
    {createdAt : String} {record : LocalDescendantRecord} {before after : FederationObjectStore}
    (derivation : Derivation primitives localNode parentForeignObject localObject createdAt record
      before after) {directory : Directory} {name : String} {bytes : ByteArray}
    (lasting : Lasting name) (stored : before.file? directory name = some bytes) :
    after.file? directory name = some bytes := by
  obtain ⟨two, raw, accrued, -, written⟩ := derivation.written
  have there := accrued.kept _ _ _ lasting stored
  by_cases here : directory = .descendants ∧ name = fileOf ".record.json" record.objectId
  · obtain ⟨rfl, rfl⟩ := here
    rw [written.present, written.fits there]
  · rw [written.frame lasting here, there]

end QsolFed.FederationObjectStore
