import QsolFed.Library.Acyclic
import QsolFed.Store.Conservation

/-!
# Descent between objects

The records of local objects relate each of them to the foreign object it was made of. A derivation
adds one pair to this relation and nothing else changes it. The relation stays without cycles in
exactly the runs in which no derivation that the store admits starts from an object that descends
from the new one: the store itself compares the new object with its own parent only.
-/
namespace QsolFed.FederationObjectStore

open Checked Json Canonical

variable {primitives : Primitives}

/-! ## Encodings -/

/-- The record of a local object. -/
def descendantRecord (localNode parentForeignObject descendantId provenanceId createdAt : String) :
    LocalDescendantRecord :=
  { schema := localDescendantSchemaV1
    objectId := descendantId
    localNode := localNode
    parentForeignObject := parentForeignObject
    provenanceId := provenanceId
    createdAt := createdAt
    authority := "none" }

/-- A valid record of a local object is plain. -/
theorem DescendantValid.plain {record : LocalDescendantRecord} (valid : DescendantValid record) :
    Plain (Codecs.descendant.encode record) := by
  refine plain_record Codecs.descendantFields (by decide) _ (by decide) (by decide) ?_
  have schema : PlainText record.schema := valid.schema ▸ plainText_of_check (by decide)
  have object : PlainText record.objectId := plainText_of_sha256Ref valid.object
  have node : PlainText record.localNode := plainText_of_nodeId valid.node
  have parent : PlainText record.parentForeignObject := plainText_of_sha256Ref valid.parent
  have provenance : PlainText record.provenanceId := plainText_of_sha256Ref valid.provenance
  have time : PlainText record.createdAt :=
    plainText_of_wireTimestamp (Bool.and_eq_true_iff.mp valid.created).1
  have authority : PlainText record.authority :=
    valid.authority ▸ plainText_of_check (by decide)
  simp only [Codecs.descendantFields, Fields.required, Fields.cons, Fields.nil, List.map_cons,
    List.map_nil, List.forall_mem_cons, List.not_mem_nil, false_imp_iff, implies_true, and_true]
  exact ⟨schema, object, node, parent, provenance, time, authority⟩

/-- A record of a local object nests once. -/
theorem nesting_descendant (record : LocalDescendantRecord) :
    (Codecs.descendant.encode record).nesting < maxDepth := by
  refine (nesting_record Codecs.descendantFields (by decide) _ 0 ?_).trans_lt (by decide)
  simp only [Codecs.descendantFields, Fields.required, Fields.cons, Fields.nil, List.map_cons,
    List.map_nil, List.forall_mem_cons, List.not_mem_nil, false_imp_iff, implies_true, and_true]
  exact ⟨Nat.zero_le _, Nat.zero_le _, Nat.zero_le _, Nat.zero_le _, Nat.zero_le _, Nat.zero_le _,
    Nat.zero_le _⟩

/-- A valid record of a local object has canonical bytes. -/
theorem DescendantValid.encoded {record : LocalDescendantRecord} (valid : DescendantValid record) :
    ∃ raw, canonicalStruct primitives (Codecs.descendant.encode record) = .ok raw := by
  refine canonicalStruct_of_plain valid.plain (nesting_descendant record) ?_
  have schema : writtenSize (.string record.schema) = 29 := by
    rw [valid.schema, writtenSize_string (List.all_iff_forall_prop.mp (by decide))]
    rfl
  have authority : writtenSize (.string record.authority) = 6 := by
    rw [valid.authority, writtenSize_string (List.all_iff_forall_prop.mp (by decide))]
    rfl
  have object := writtenSize_sha256Ref valid.object
  have node := writtenSize_nodeId valid.node
  have parent := writtenSize_sha256Ref valid.parent
  have provenance := writtenSize_sha256Ref valid.provenance
  have time := writtenSize_timestamp (Bool.and_eq_true_iff.mp valid.created).1
  have names : (Codecs.descendantFields.names.map fun name =>
      weigh Char.utf8Size (printText name) + 1).sum = 99 := by decide
  have limit : maxInputBytes = 65536 := rfl
  change writtenSize (.object _) ≤ _
  rw [writtenSize_object]
  simp only [Codecs.descendantFields, Fields.required, Fields.cons, Fields.nil, List.map_cons,
    List.map_nil, List.sum_cons, List.sum_nil, memberSize, List.length_cons, List.length_nil,
    Codec.string] at names ⊢
  generalize weigh Char.utf8Size = weighed at names ⊢
  generalize writtenSize = size at schema authority object node parent provenance time ⊢
  omega

/-- A valid record of a local object is read back from its bytes. -/
theorem DescendantValid.read {record : LocalDescendantRecord} (valid : DescendantValid record)
    {raw : ByteArray}
    (encoded : canonicalStruct primitives (Codecs.descendant.encode record) = .ok raw) :
    fromSlice Codecs.descendant raw = some record :=
  fromSlice_struct _ record valid.plain (nesting_descendant record) encoded

/-- The provenance of a local object is well formed. -/
theorem descendantProvenance_valid {localNode parentForeignObject descendantId createdAt : String}
    (node : Wire.isNodeId localNode = true) (parent : Wire.isSha256Ref parentForeignObject = true)
    (object : Wire.isSha256Ref descendantId = true) (created : validTimestamp createdAt = true) :
    provenanceValid (descendantProvenance localNode parentForeignObject descendantId createdAt) =
      true := by
  have time := (Bool.and_eq_true_iff.mp created).1
  simp [provenanceValid, descendantProvenance, node, parent, object, time]

/-- The provenance of a local object has canonical bytes. -/
theorem descendantProvenance_encoded
    {localNode parentForeignObject descendantId createdAt : String}
    (node : Wire.isNodeId localNode = true) (parent : Wire.isSha256Ref parentForeignObject = true)
    (object : Wire.isSha256Ref descendantId = true) (created : validTimestamp createdAt = true) :
    ∃ bytes, canonicalStruct primitives (Codecs.provenance.encode
      (descendantProvenance localNode parentForeignObject descendantId createdAt)) = .ok bytes := by
  have wire := (Bool.and_eq_true_iff.mp created).1
  have schema : PlainText provenanceSchemaV1 := plainText_of_check (by decide)
  have relation : PlainText (Codecs.provenanceRelationName .derived) :=
    plainText_of_check (by decide)
  have parents : Plain ((Codec.list Codec.string).encode [parentForeignObject]) :=
    plain_list _ _ (Nat.le_of_ble_eq_true rfl) fun value member => by
      obtain rfl := List.mem_singleton.mp member
      exact plainText_of_sha256Ref parent
  have nested : ((Codec.list Codec.string).encode [parentForeignObject]).nesting ≤ 1 :=
    nesting_list _ _ 0 fun value member => Nat.zero_le _
  refine canonicalStruct_of_plain ?_ ?_ ?_
  · refine plain_record Codecs.provenanceFields (by decide) _ (by decide) (by decide) ?_
    simp only [Codecs.provenanceFields, Fields.required, Fields.cons, Fields.nil, List.map_cons,
      List.map_nil, List.forall_mem_cons, List.not_mem_nil, false_imp_iff, implies_true, and_true]
    exact ⟨schema, plainText_of_nodeId node, plainText_of_sha256Ref object,
      relation, parents, plainText_of_wireTimestamp wire⟩
  · refine (nesting_record Codecs.provenanceFields (by decide) _ 1 ?_).trans_lt (by decide)
    simp only [Codecs.provenanceFields, Fields.required, Fields.cons, Fields.nil, List.map_cons,
      List.map_nil, List.forall_mem_cons, List.not_mem_nil, false_imp_iff, implies_true, and_true]
    exact ⟨Nat.zero_le _, Nat.zero_le _, Nat.zero_le _, Nat.zero_le _, nested, Nat.zero_le _⟩
  · have name : writtenSize (.string provenanceSchemaV1) = 23 := by
      rw [writtenSize_string (List.all_iff_forall_prop.mp (by decide))]
      rfl
    have relation : writtenSize (Codecs.provenanceRelation.encode .derived) = 9 := by
      rw [writtenSize_eq]
      decide
    have source := writtenSize_nodeId node
    have subject := writtenSize_sha256Ref object
    have list : writtenSize ((Codec.list Codec.string).encode [parentForeignObject]) = 75 := by
      have item := writtenSize_sha256Ref parent
      change writtenSize (.array [.string parentForeignObject]) = 75
      rw [writtenSize_array, List.map_singleton, List.sum_singleton, item]
      rfl
    have time := writtenSize_timestamp wire
    have names : (Codecs.provenanceFields.names.map fun name =>
        weigh Char.utf8Size (printText name) + 1).sum = 73 := by decide
    have limit : maxInputBytes = 65536 := rfl
    change writtenSize (.object _) ≤ _
    rw [writtenSize_object]
    simp only [Codecs.provenanceFields, Fields.required, Fields.cons, Fields.nil, List.map_cons,
      List.map_nil, List.sum_cons, List.sum_nil, memberSize, List.length_cons, List.length_nil,
      Codec.string, descendantProvenance] at names list ⊢
    generalize weigh Char.utf8Size = weighed at names ⊢
    generalize writtenSize = size at name relation source subject list time ⊢
    omega

/-! ## Derivations that the store admits -/

/-- The store admits a derivation: its arguments are well formed, its parent is foreign and is not
the new object, and nothing else is in the place of what it writes. -/
structure Derivable (primitives : Primitives) (localNode parentForeignObject : String)
    (localObject : ByteArray) (createdAt : String) (store : FederationObjectStore) : Prop where
  /-- The local node is one. -/
  node : Wire.isNodeId localNode = true
  /-- The parent is a reference. -/
  parent : Wire.isSha256Ref parentForeignObject = true
  /-- The time is one. -/
  created : validTimestamp createdAt = true
  /-- The parent has records. -/
  foreign : ∃ records, store.foreignRecords primitives parentForeignObject = .ok records ∧
    records ≠ []
  /-- The object is canonical. -/
  canonical : requireExactCanonical primitives localObject = .ok ()
  /-- The object is not its own parent. -/
  apart : Digest.sha256Ref primitives localObject ≠ parentForeignObject
  /-- No other object is there under its reference. -/
  object : ∀ old, store.file? .objects (fileOf ".json" (Digest.sha256Ref primitives localObject)) =
    some old → old = localObject
  /-- No other provenance is there under its reference. -/
  provenance : ∀ bytes, canonicalStruct primitives (Codecs.provenance.encode
      (descendantProvenance localNode parentForeignObject
        (Digest.sha256Ref primitives localObject) createdAt)) = .ok bytes →
    ∀ old, store.file? .provenance (fileOf ".json" (Digest.sha256Ref primitives bytes)) =
      some old → old = bytes
  /-- No other record of the object is there. -/
  record : ∀ bytes raw, canonicalStruct primitives (Codecs.provenance.encode
      (descendantProvenance localNode parentForeignObject
        (Digest.sha256Ref primitives localObject) createdAt)) = .ok bytes →
    canonicalStruct primitives (Codecs.descendant.encode (descendantRecord localNode
      parentForeignObject (Digest.sha256Ref primitives localObject)
      (Digest.sha256Ref primitives bytes) createdAt)) = .ok raw →
    ∀ old, store.file? .descendants
      (fileOf ".record.json" (Digest.sha256Ref primitives localObject)) = some old → old = raw

/-- A derivation succeeds when its three files are written. -/
theorem createLocalDescendant_ok_iff (localNode parentForeignObject : String)
    (localObject : ByteArray) (createdAt : String) (record : LocalDescendantRecord)
    (before after : FederationObjectStore) :
    (createLocalDescendant primitives localNode parentForeignObject localObject createdAt).run
        before = (.ok record, after) ↔
      (Wire.isNodeId localNode = true ∧ Wire.isSha256Ref parentForeignObject = true ∧
        validTimestamp createdAt = true) ∧
      (∃ records, before.foreignRecords primitives parentForeignObject = .ok records ∧
        records ≠ []) ∧
      requireExactCanonical primitives localObject = .ok () ∧
      Digest.sha256Ref primitives localObject ≠ parentForeignObject ∧
      ∃ one two bytes raw,
        Written .objects (fileOf ".json" (Digest.sha256Ref primitives localObject)) localObject
          before one ∧
        canonicalStruct primitives (Codecs.provenance.encode (descendantProvenance localNode
          parentForeignObject (Digest.sha256Ref primitives localObject) createdAt)) = .ok bytes ∧
        Written .provenance (fileOf ".json" (Digest.sha256Ref primitives bytes)) bytes one two ∧
        record = descendantRecord localNode parentForeignObject
          (Digest.sha256Ref primitives localObject) (Digest.sha256Ref primitives bytes) createdAt ∧
        canonicalStruct primitives (Codecs.descendant.encode record) = .ok raw ∧
        Written .descendants (fileOf ".record.json" (Digest.sha256Ref primitives localObject)) raw
          two after := by
  have shape := isSha256Ref_digest primitives localObject
  simp only [createLocalDescendant, Effect.run_bind_ok_iff, Effect.run_check, Prod.mk.injEq,
    ensure_ok_iff, Effect.run_read, Effect.run_pure, Except.ok.injEq]
  constructor
  · rintro ⟨⟨⟩, _, ⟨fields, rfl⟩, records, _, ⟨listed, rfl⟩, ⟨⟩, _, ⟨some_, rfl⟩, ⟨⟩, _,
      ⟨canonical, rfl⟩, descendantId, _, ⟨identified, rfl⟩, ⟨⟩, _, ⟨apart, rfl⟩, ⟨⟩, one, object,
      ⟨⟩, _, ⟨-, rfl⟩, bytes, _, ⟨encodedProvenance, rfl⟩, provenanceId, _,
      ⟨identifiedProvenance, rfl⟩, ⟨⟩, two, provenance, name, _, ⟨named, rfl⟩, raw, _,
      ⟨encoded, rfl⟩, ⟨⟩, last, wrote, rfl, rfl⟩
    rw [objectId_of_canonical canonical] at identified
    obtain rfl := Except.ok.inj identified
    have provenanceCanonical := requireExactCanonical_of_struct encodedProvenance
    rw [objectId_of_canonical provenanceCanonical] at identifiedProvenance
    obtain rfl := Except.ok.inj identifiedProvenance
    obtain ⟨-, rfl⟩ := (named_iff ..).mp ((recordName_ok_iff ..).mp named)
    exact ⟨fields, ⟨records, listed, some_⟩, canonical, apart, one, two, bytes, raw,
      (writeContentAddressed_ok_iff .objects canonical ..).mp object, encodedProvenance,
      (writeContentAddressed_ok_iff .provenance provenanceCanonical ..).mp provenance, rfl, encoded,
      (writeExactOrSame_ok_iff ..).mp wrote⟩
  · rintro ⟨fields, ⟨records, listed, some_⟩, canonical, apart, one, two, bytes, raw, object,
      encodedProvenance, provenance, rfl, encoded, wrote⟩
    have provenanceCanonical := requireExactCanonical_of_struct encodedProvenance
    have valid := descendantProvenance_valid fields.1 fields.2.1 shape fields.2.2
    have named := (recordName_ok_iff ..).mpr (named_fileOf ".record.json" shape)
    exact ⟨⟨⟩, _, ⟨fields, rfl⟩, records, _, ⟨listed, rfl⟩, ⟨⟩, _, ⟨some_, rfl⟩, ⟨⟩, _,
      ⟨canonical, rfl⟩, _, _, ⟨objectId_of_canonical canonical, rfl⟩, ⟨⟩, _, ⟨apart, rfl⟩, ⟨⟩, one,
      (writeContentAddressed_ok_iff .objects canonical ..).mpr object, ⟨⟩, _, ⟨valid, rfl⟩, bytes,
      _, ⟨encodedProvenance, rfl⟩, _, _, ⟨objectId_of_canonical provenanceCanonical, rfl⟩, ⟨⟩, two,
      (writeContentAddressed_ok_iff .provenance provenanceCanonical ..).mpr provenance, _, _,
      ⟨named, rfl⟩, raw, _, ⟨encoded, rfl⟩, ⟨⟩, after, (writeExactOrSame_ok_iff ..).mpr wrote, rfl,
      rfl⟩

/-- Writing a file leaves every lasting file of another directory alone. -/
theorem Written.outside {directory : Directory} {name : String} {bytes : ByteArray}
    {before after : FederationObjectStore} (written : Written directory name bytes before after)
    (other : Directory) {file : String} (lasting : Lasting file) (apart : other ≠ directory) :
    after.file? other file = before.file? other file :=
  written.frame lasting fun same => apart same.1

/-- The store makes a local object of a foreign one exactly when it admits the derivation. -/
theorem derivable_iff (localNode parentForeignObject : String) (localObject : ByteArray)
    (createdAt : String) (before : FederationObjectStore) :
    Derivable primitives localNode parentForeignObject localObject createdAt before ↔
      ∃ record after, (createLocalDescendant primitives localNode parentForeignObject localObject
        createdAt).run before = (.ok record, after) := by
  have shape := isSha256Ref_digest primitives localObject
  have lasting := lasting_fileOf ".record.json" shape
  simp only [createLocalDescendant_ok_iff]
  constructor
  · intro derivable
    obtain ⟨bytes, encodedProvenance⟩ := @descendantProvenance_encoded primitives _ _ _ _
      derivable.node derivable.parent shape derivable.created
    have named := isSha256Ref_digest primitives bytes
    have valid : DescendantValid (descendantRecord localNode parentForeignObject
        (Digest.sha256Ref primitives localObject) (Digest.sha256Ref primitives bytes) createdAt) :=
      ⟨rfl, shape, derivable.node, derivable.parent, named, derivable.created, rfl⟩
    obtain ⟨raw, encoded⟩ := @DescendantValid.encoded primitives _ valid
    obtain ⟨one, object⟩ := written_of_fits derivable.object
    obtain ⟨two, provenance⟩ : ∃ two, Written .provenance
        (fileOf ".json" (Digest.sha256Ref primitives bytes)) bytes one two := by
      refine written_of_fits fun old found => ?_
      rw [object.outside .provenance (lasting_fileOf ".json" named) nofun] at found
      exact derivable.provenance bytes encodedProvenance old found
    obtain ⟨after, wrote⟩ : ∃ after, Written .descendants
        (fileOf ".record.json" (Digest.sha256Ref primitives localObject)) raw two after := by
      refine written_of_fits fun old found => ?_
      rw [provenance.outside .descendants lasting nofun,
        object.outside .descendants lasting nofun] at found
      exact derivable.record bytes raw encodedProvenance encoded old found
    exact ⟨_, after, ⟨derivable.node, derivable.parent, derivable.created⟩, derivable.foreign,
      derivable.canonical, derivable.apart, one, two, bytes, raw, object, encodedProvenance,
      provenance, rfl, encoded, wrote⟩
  · rintro ⟨record, after, fields, foreign, canonical, apart, one, two, bytes, raw, object,
      encodedProvenance, provenance, rfl, encoded, wrote⟩
    refine ⟨fields.1, fields.2.1, fields.2.2, foreign, canonical, apart,
      fun old found => object.fits found, fun other same old found => ?_,
      fun other record first second old found => ?_⟩
    · obtain rfl := Except.ok.inj (encodedProvenance.symm.trans same)
      refine provenance.fits ?_
      rw [object.outside .provenance (lasting_fileOf ".json" (isSha256Ref_digest primitives bytes))
        nofun]
      exact found
    · obtain rfl := Except.ok.inj (encodedProvenance.symm.trans first)
      obtain rfl := Except.ok.inj (encoded.symm.trans second)
      refine wrote.fits ?_
      rw [provenance.outside .descendants lasting nofun,
        object.outside .descendants lasting nofun]
      exact found

/-- The files that a derivation writes: the object, its provenance and its record. -/
theorem file?_derived {localNode parentForeignObject : String} {localObject : ByteArray}
    {createdAt : String} {record : LocalDescendantRecord} {before after : FederationObjectStore}
    (ran : (createLocalDescendant primitives localNode parentForeignObject localObject
      createdAt).run before = (.ok record, after))
    (directory : Directory) {name : String} (lasting : Lasting name) :
    after.file? directory name = before.file? directory name ∨
      (directory = .objects ∧ name = fileOf ".json" (Digest.sha256Ref primitives localObject) ∧
        after.file? directory name = some localObject) ∨
      (directory = .provenance ∧ ∃ bytes, canonicalStruct primitives (Codecs.provenance.encode
          (descendantProvenance localNode parentForeignObject
            (Digest.sha256Ref primitives localObject) createdAt)) = .ok bytes ∧
        name = fileOf ".json" (Digest.sha256Ref primitives bytes)) ∨
      (directory = .descendants ∧
        name = fileOf ".record.json" (Digest.sha256Ref primitives localObject)) := by
  obtain ⟨-, -, -, -, one, two, bytes, raw, object, encoded, provenance, -, -, written⟩ :=
    (createLocalDescendant_ok_iff ..).mp ran
  by_cases descendant : directory = .descendants ∧
      name = fileOf ".record.json" (Digest.sha256Ref primitives localObject)
  · exact .inr (.inr (.inr descendant))
  rw [written.frame lasting descendant]
  by_cases origin : directory = .provenance ∧
      name = fileOf ".json" (Digest.sha256Ref primitives bytes)
  · exact .inr (.inr (.inl ⟨origin.1, bytes, encoded, origin.2⟩))
  rw [provenance.frame lasting origin]
  by_cases made : directory = .objects ∧
      name = fileOf ".json" (Digest.sha256Ref primitives localObject)
  · obtain ⟨rfl, rfl⟩ := made
    exact .inr (.inl ⟨rfl, rfl, object.present⟩)
  · exact .inl (object.frame lasting made)

/-- What was derived is there. -/
theorem present_derived {localNode parentForeignObject : String} {localObject : ByteArray}
    {createdAt : String} {record : LocalDescendantRecord} {before after : FederationObjectStore}
    (ran : (createLocalDescendant primitives localNode parentForeignObject localObject
      createdAt).run before = (.ok record, after)) :
    after.file? .objects (fileOf ".json" (Digest.sha256Ref primitives localObject)) =
      some localObject := by
  obtain ⟨-, -, -, -, one, two, bytes, raw, object, -, provenance, -, -, written⟩ :=
    (createLocalDescendant_ok_iff ..).mp ran
  have lasting := lasting_fileOf ".json" (isSha256Ref_digest primitives localObject)
  rw [written.outside .objects lasting nofun, provenance.outside .objects lasting nofun]
  exact object.present

/-! ## The relation -/

/-- A record of a local object names its parent. -/
def DescendsFrom (store : FederationObjectStore) (child parent : String) : Prop :=
  ∃ name raw record, store.file? .descendants name = some raw ∧
    fromSlice Codecs.descendant raw = some record ∧ record.objectId = child ∧
    record.parentForeignObject = parent

/-- Every file of the records of local objects lasts. -/
def Tidy (store : FederationObjectStore) : Prop :=
  ∀ name raw, store.file? .descendants name = some raw → Lasting name

/-- Stores with the same records of local objects relate the same objects. -/
theorem descendsFrom_congr {one two : FederationObjectStore}
    (same : ∀ name, two.file? .descendants name = one.file? .descendants name) :
    DescendsFrom two = DescendsFrom one := by
  funext child parent
  simp only [DescendsFrom, same]

/-- Records of local objects stay tidy where they stay the same. -/
theorem Tidy.congr {one two : FederationObjectStore} (tidy : Tidy one)
    (same : ∀ name, two.file? .descendants name = one.file? .descendants name) : Tidy two :=
  fun name raw found => tidy name raw ((same name).symm.trans found)

/-- The records of local objects after a derivation are those before and its own. -/
theorem Derivation.files {localNode parentForeignObject : String} {localObject : ByteArray}
    {createdAt : String} {record : LocalDescendantRecord} {before after : FederationObjectStore}
    (derivation : Derivation primitives localNode parentForeignObject localObject createdAt record
      before after) (tidy : Tidy before) :
    ∃ raw, fromSlice Codecs.descendant raw = some record ∧
      (∀ old, before.file? .descendants (fileOf ".record.json" record.objectId) = some old →
        old = raw) ∧
      ∀ name, after.file? .descendants name =
        if name = fileOf ".record.json" record.objectId then some raw
        else before.file? .descendants name := by
  obtain ⟨two, raw, accrued, encoded, written⟩ := derivation.written
  have middle : ∀ name, two.file? .descendants name = before.file? .descendants name :=
    fun name => accrued.elsewhere .descendants name nofun nofun
  refine ⟨raw, derivation.valid.read encoded, fun old found => ?_, fun name => ?_⟩
  · exact written.fits ((middle _).trans found)
  · by_cases here : name = fileOf ".record.json" record.objectId
    · rw [if_pos here, here]
      exact written.present
    · rw [if_neg here, ← middle]
      rcases written with ⟨-, rfl⟩ | ⟨-, rfl⟩
      · exact (same_made .descendants two).file? _ _
      · rw [file?_placed, if_neg fun same => here same.2]
        split_ifs with temporary
        · refine (Option.eq_none_iff_forall_ne_some.mpr fun bytes found => ?_).symm
          exact tidy name bytes ((middle name).symm.trans found) _ temporary.2
        · rfl

/-- A derivation relates the new object and its parent. -/
theorem Derivation.descendsFrom_iff {localNode parentForeignObject : String}
    {localObject : ByteArray} {createdAt : String} {record : LocalDescendantRecord}
    {before after : FederationObjectStore}
    (derivation : Derivation primitives localNode parentForeignObject localObject createdAt record
      before after) (tidy : Tidy before) (child parent : String) :
    DescendsFrom after child parent ↔ DescendsFrom before child parent ∨
      (child = Digest.sha256Ref primitives localObject ∧ parent = parentForeignObject) := by
  obtain ⟨raw, read, fits, files⟩ := derivation.files tidy
  rw [← derivation.object, ← derivation.parent]
  constructor
  · rintro ⟨name, bytes, found, stored, decoded, rfl, rfl⟩
    rw [files] at stored
    split_ifs at stored with here
    · obtain rfl := Option.some.inj stored
      obtain rfl := Option.some.inj (decoded.symm.trans read)
      exact .inr ⟨rfl, rfl⟩
    · exact .inl ⟨name, bytes, found, stored, decoded, rfl, rfl⟩
  · rintro (⟨name, bytes, found, stored, decoded, rfl, rfl⟩ | ⟨rfl, rfl⟩)
    · refine ⟨name, bytes, found, ?_, decoded, rfl, rfl⟩
      rw [files]
      split_ifs with here
      · rw [fits bytes (here ▸ stored)]
      · exact stored
    · refine ⟨fileOf ".record.json" record.objectId, raw, record, ?_, read, rfl, rfl⟩
      rw [files, if_pos rfl]

/-- Records of local objects stay tidy in a derivation. -/
theorem Derivation.tidy {localNode parentForeignObject : String} {localObject : ByteArray}
    {createdAt : String} {record : LocalDescendantRecord} {before after : FederationObjectStore}
    (derivation : Derivation primitives localNode parentForeignObject localObject createdAt record
      before after) (tidy : Tidy before) : Tidy after := by
  obtain ⟨raw, -, -, files⟩ := derivation.files tidy
  intro name bytes found
  rw [files] at found
  split_ifs at found with here
  · rw [here]
    exact lasting_fileOf ".record.json" derivation.valid.object
  · exact tidy name bytes found

/-! ## Runs -/

/-- A derivation that the store admits does not start from a descendant of the new object. -/
def Grounded (primitives : Primitives) (store : FederationObjectStore) : StoreEvent → Prop
  | .derived localNode parentForeignObject localObject createdAt =>
    Derivable primitives localNode parentForeignObject localObject createdAt store →
      ¬Relation.ReflTransGen (DescendsFrom store) parentForeignObject
        (Digest.sha256Ref primitives localObject)
  | _ => True

/-- An operation that is grounded is performed. -/
def GroundedStep (primitives : Primitives) (store : FederationObjectStore) (event : StoreEvent)
    (next : FederationObjectStore) : Prop :=
  StoreStep primitives store event next ∧ Grounded primitives store event

/-- A put leaves the records of local objects alone. -/
theorem Observation.descendants_put {observation : Observation} {placement : ForeignNamespace}
    {receivedAt : String} {before after : FederationObjectStore}
    {answer : Except StoreError ForeignObjectRecord}
    (ran : (observation.put primitives placement receivedAt).run before = (answer, after))
    (name : String) : after.file? .descendants name = before.file? .descendants name := by
  rcases Observation.put_cases ran with accrued | ⟨-, -, -, two, raw, accrued, -, -, rfl⟩
  · exact accrued.elsewhere .descendants name nofun nofun
  · rw [file?_placed, if_neg nofun, if_neg nofun]
    exact accrued.elsewhere .descendants name nofun nofun

/-- One operation leaves a relation without cycles exactly when there was one before and the
operation is grounded. -/
theorem Kept.acyclic_iff {events : List StoreEvent} {store : FederationObjectStore}
    (kept : Kept primitives events store) (tidy : Tidy store) (event : StoreEvent) :
    Tidy (FederationObjectStore.perform primitives store event) ∧
      (Acyclic (DescendsFrom (FederationObjectStore.perform primitives store event)) ↔
        Acyclic (DescendsFrom store) ∧ Grounded primitives store event) := by
  have unchanged : ∀ after : FederationObjectStore,
      (∀ name, after.file? .descendants name = store.file? .descendants name) →
      Grounded primitives store event → Tidy after ∧ (Acyclic (DescendsFrom after) ↔
        Acyclic (DescendsFrom store) ∧ Grounded primitives store event) := by
    intro after same grounded
    rw [descendsFrom_congr same]
    exact ⟨tidy.congr same, (and_iff_left grounded).symm⟩
  cases event with
  | put observation placement receivedAt =>
    rcases ran : (observation.put primitives placement receivedAt).run store with ⟨answer, after⟩
    have left : FederationObjectStore.perform primitives store
        (.put observation placement receivedAt) = after := congrArg Prod.snd ran
    rw [left]
    exact unchanged after (Observation.descendants_put ran) trivial
  | moved objectRef target changedAt =>
    rcases ran : (moveNamespace primitives objectRef target changedAt).run store with
      ⟨answer, after⟩
    have left : FederationObjectStore.perform primitives store
        (.moved objectRef target changedAt) = after := congrArg Prod.snd ran
    rw [left]
    refine unchanged after (fun name => ?_) trivial
    rcases moveNamespace_cases kept.orderly kept.settled ran with ⟨_, -, rfl⟩ | ⟨_, -, gathered⟩
    · rfl
    · exact gathered.relocated.elsewhere .descendants name nofun
  | derived localNode parentForeignObject localObject createdAt =>
    rcases ran : (createLocalDescendant primitives localNode parentForeignObject localObject
      createdAt).run store with ⟨answer, after⟩
    have left : FederationObjectStore.perform primitives store
        (.derived localNode parentForeignObject localObject createdAt) = after :=
      congrArg Prod.snd ran
    rw [left]
    rcases createLocalDescendant_cases ran with ⟨_, rfl, accrued⟩ | ⟨record, rfl, derivation⟩
    · refine unchanged after (fun name => accrued.elsewhere .descendants name nofun nofun) ?_
      intro derivable
      obtain ⟨record, final, made⟩ := (derivable_iff ..).mp derivable
      rw [ran] at made
      cases (Prod.mk.inj made).1
    · have derivable := (derivable_iff ..).mpr ⟨record, after, ran⟩
      have extended := Acyclic.extend_iff (derivation.descendsFrom_iff tidy)
      refine ⟨derivation.tidy tidy, extended.trans (and_congr_right fun _ => ?_)⟩
      exact ⟨fun apart _ => apart, fun grounded => grounded derivable⟩
  | opened =>
    have left : FederationObjectStore.perform primitives store .opened = store :=
      congrArg Prod.snd (openStore_settled kept.settled)
    rw [left]
    exact unchanged store (fun _ => rfl) trivial

/-- Records of local objects are tidy in every run. -/
theorem tidy_of_run {events : List StoreEvent} {store : FederationObjectStore}
    (run : Run (StoreStep primitives) empty events store) : Tidy store := by
  refine run.invariant (fun _ store => Tidy store) (fun _ _ found => by cases found) ?_
  rintro events store event _ before tidy rfl
  exact ((kept_of_run before).acyclic_iff tidy event).1

/-- After a run, no object is its own ancestor exactly when each of its operations was grounded: no
derivation that the store admitted started from an object that descends, in any number of steps,
from the new one. -/
theorem acyclic_iff_grounded {events : List StoreEvent} {store : FederationObjectStore}
    (run : Run (StoreStep primitives) empty events store) :
    Acyclic (DescendsFrom store) ↔ Run (GroundedStep primitives) empty events store := by
  induction run with
  | nil =>
    refine ⟨fun _ => .nil, fun _ value cycle => ?_⟩
    obtain ⟨_, ⟨_, _, _, stored, -⟩, -⟩ := Relation.TransGen.head'_iff.mp cycle
    cases stored
  | @snoc events middle final event before last ih =>
    obtain rfl := last
    have step := ((kept_of_run before).acyclic_iff (tidy_of_run before) event).2
    constructor
    · intro acyclic
      obtain ⟨earlier, grounded⟩ := step.mp acyclic
      exact .snoc (ih.mp earlier) ⟨rfl, grounded⟩
    · intro grounded
      obtain ⟨other, earlier, last⟩ := grounded.last
      have same : other = middle := Run.unique (fun _ _ _ _ left right => left.trans right.symm)
        (earlier.mono fun _ _ _ step => step.1) before
      rw [same] at earlier last
      exact step.mpr ⟨ih.mpr earlier, last.2⟩

/-! ## Two objects that are made of each other -/

/-- What is put is listed. -/
theorem listed_of_put {events : List StoreEvent} {observation : Observation}
    {placement : ForeignNamespace} {receivedAt : String} {before after : FederationObjectStore}
    {record : ForeignObjectRecord} (run : Run (StoreStep primitives) empty events after)
    (ran : (observation.put primitives placement receivedAt).run before = (.ok record, after)) :
    ∃ records, after.foreignRecords primitives (observation.reference primitives) = .ok records ∧
      records ≠ [] := by
  obtain ⟨placement, there⟩ := attributed_of_found (observation.reference_shape _)
    (observation.attribution_shape _) (Observation.held_of_put ran).record
  obtain ⟨records, listed, member⟩ := ((kept_of_run run).orderly.listed_iff _ (placement, record)).mpr
    there
  exact ⟨records, listed, List.ne_nil_of_mem member⟩

/-- Two observations without provenance of two objects. -/
structure Distinct (primitives : Primitives) (one two : Observation) : Prop where
  /-- The first is accepted. -/
  first : one.Accepted primitives
  /-- The second is accepted. -/
  second : two.Accepted primitives
  /-- The first has no provenance. -/
  bare : one.provenance = none
  /-- The second has no provenance. -/
  plain : two.provenance = none
  /-- The objects have two references. -/
  apart : one.reference primitives ≠ two.reference primitives

/-- The first object is put and the second is made of it. -/
theorem Distinct.derived {one two : Observation} (distinct : Distinct primitives one two)
    {localNode receivedAt createdAt : String} (node : Wire.isNodeId localNode = true)
    (received : validTimestamp receivedAt = true) (created : validTimestamp createdAt = true) :
    ∃ record first next made,
      (one.put primitives .foreign receivedAt).run empty = (.ok record, first) ∧
      (createLocalDescendant primitives localNode (one.reference primitives) two.object
        createdAt).run first = (.ok made, next) ∧
      ∀ directory name, Lasting name →
        (directory = .objects → name ≠ fileOf ".json" (one.reference primitives)) →
        (∀ placement, directory ≠ .attributions placement (digestOf (one.reference primitives))) →
        first.file? directory name = none := by
  have absent : empty.findRecord primitives (one.reference primitives)
      (one.attribution primitives) = .ok none :=
    (findRecord_none_iff _ (one.reference_shape _) (one.attribution_shape _)).mpr
      fun other => by cases other <;> rfl
  have nothing : ∀ directory name, empty.file? directory name = none := by
    intro directory name
    rcases directory with _ | _ | _ | _ | ⟨_ | _, _⟩ <;> rfl
  have fits : Fits primitives one empty :=
    ⟨fun _ found => (nomatch (nothing _ _).symm.trans found),
      fun _ _ _ found => (nomatch (nothing _ _).symm.trans found), none, absent⟩
  obtain ⟨record, first, ran⟩ := @Observation.put_of_fits _ _ .foreign receivedAt _ distinct.first
    received fits
  have files : ∀ directory name, Lasting name →
      (directory = .objects → name ≠ fileOf ".json" (one.reference primitives)) →
      (∀ placement, directory ≠ .attributions placement (digestOf (one.reference primitives))) →
      first.file? directory name = none := by
    intro directory name lasting object attribution
    rcases Observation.file?_put ran directory lasting with same | ⟨objects, other, -⟩ |
      ⟨raw, given, -⟩ | ⟨other, -⟩
    · exact same.trans (nothing _ _)
    · exact absurd other (object objects)
    · rw [distinct.bare] at given
      cases given
    · exact absurd other (attribution _)
  have step : StoreStep primitives empty (.put one .foreign receivedAt) first :=
    (congrArg Prod.snd ran).symm
  have shape := two.reference_shape primitives
  have derivable : Derivable primitives localNode (one.reference primitives) two.object createdAt
      first := by
    have object : first.file? .objects (fileOf ".json" (two.reference primitives)) = none :=
      files .objects _ (lasting_fileOf ".json" shape)
        (fun _ same => distinct.apart (fileOf_inj shape (one.reference_shape _) same).symm)
        fun _ same => nomatch same
    have provenance : ∀ bytes, first.file? .provenance
        (fileOf ".json" (Digest.sha256Ref primitives bytes)) = none := fun bytes =>
      files .provenance _ (lasting_fileOf ".json" (isSha256Ref_digest primitives bytes))
        (fun same => nomatch same) fun _ same => nomatch same
    have descendant : first.file? .descendants
        (fileOf ".record.json" (two.reference primitives)) = none :=
      files .descendants _ (lasting_fileOf ".record.json" shape) (fun same => nomatch same)
        fun _ same => nomatch same
    exact ⟨node, one.reference_shape _, created, listed_of_put (Run.single step) ran,
      distinct.second.canonical, distinct.apart.symm,
      fun _ found => (nomatch object.symm.trans found),
      fun bytes _ _ found => (nomatch (provenance bytes).symm.trans found),
      fun _ _ _ _ _ found => (nomatch descendant.symm.trans found)⟩
  obtain ⟨made, next, derived⟩ := (derivable_iff ..).mp derivable
  exact ⟨record, first, next, made, ran, derived, files⟩

/-- The second object is put after it was made of the first one. -/
theorem Distinct.put_second {one two : Observation} (distinct : Distinct primitives one two)
    {localNode createdAt receivedAt : String} (received : validTimestamp receivedAt = true)
    {first next : FederationObjectStore} {made : LocalDescendantRecord}
    (derived : (createLocalDescendant primitives localNode (one.reference primitives) two.object
      createdAt).run first = (.ok made, next))
    (absent : ∀ placement name, Lasting name →
      first.file? (.attributions placement (digestOf (two.reference primitives))) name = none) :
    ∃ record final, (two.put primitives .foreign receivedAt).run next = (.ok record, final) := by
  have present := present_derived derived
  have unseen : next.findRecord primitives (two.reference primitives)
      (two.attribution primitives) = .ok none := by
    refine (findRecord_none_iff _ (two.reference_shape _) (two.attribution_shape _)).mpr
      fun placement => ?_
    have lasting := lasting_fileOf ".record.json" (two.attribution_shape primitives)
    rcases file?_derived derived (.attributions placement (digestOf (two.reference primitives)))
      lasting with same | ⟨other, -⟩ | ⟨other, -⟩ | ⟨other, -⟩
    · exact same.trans (absent placement _ lasting)
    · cases other
    · cases other
    · cases other
  refine Observation.put_of_fits distinct.second received ⟨fun _ found => ?_, ?_, none, unseen⟩
  · exact Option.some.inj (found.symm.trans present)
  · rw [distinct.plain]
    exact nofun

/-- Two objects are made of each other when their digests, and those of the provenances that are
made, do not collide: each of them ends as its own ancestor. -/
theorem Distinct.cycle {one two : Observation} (distinct : Distinct primitives one two)
    {localNode : String} {firstTime secondTime thirdTime fourthTime : String}
    (node : Wire.isNodeId localNode = true) (first : validTimestamp firstTime = true)
    (second : validTimestamp secondTime = true) (third : validTimestamp thirdTime = true)
    (fourth : validTimestamp fourthTime = true)
    (provenances : ∀ left right, canonicalStruct primitives (Codecs.provenance.encode
        (descendantProvenance localNode (one.reference primitives) (two.reference primitives)
          secondTime)) = .ok left →
      canonicalStruct primitives (Codecs.provenance.encode
        (descendantProvenance localNode (two.reference primitives) (one.reference primitives)
          fourthTime)) = .ok right →
      Digest.sha256Ref primitives left ≠ Digest.sha256Ref primitives right) :
    ∃ store, Run (StoreStep primitives) empty
        [.put one .foreign firstTime,
          .derived localNode (one.reference primitives) two.object secondTime,
          .put two .foreign thirdTime,
          .derived localNode (two.reference primitives) one.object fourthTime] store ∧
      DescendsFrom store (two.reference primitives) (one.reference primitives) ∧
      DescendsFrom store (one.reference primitives) (two.reference primitives) := by
  obtain ⟨record, introduced, made, descendant, ran, derived, files⟩ :=
    distinct.derived node first second
  have own := one.reference_shape primitives
  have shape := two.reference_shape primitives
  obtain ⟨_, put, ranPut⟩ := distinct.put_second third derived fun placement name lasting =>
    files _ name lasting (fun same => nomatch same) fun other same =>
      distinct.apart (digestOf_inj shape own (Directory.attributions.inj same).2).symm
  have stepOne : StoreStep primitives empty (.put one .foreign firstTime) introduced :=
    (congrArg Prod.snd ran).symm
  have stepTwo : StoreStep primitives introduced
      (.derived localNode (one.reference primitives) two.object secondTime) made :=
    (congrArg Prod.snd derived).symm
  have stepThree : StoreStep primitives made (.put two .foreign thirdTime) put :=
    (congrArg Prod.snd ranPut).symm
  have run := ((Run.single stepOne).snoc stepTwo).snoc stepThree
  -- Nothing that the second derivation writes is there with other contents.
  have object : ∀ old, put.file? .objects (fileOf ".json" (one.reference primitives)) = some old →
      old = one.object := by
    have lasting := lasting_fileOf ".json" own
    intro old found
    rcases Observation.file?_put ranPut .objects lasting with same | ⟨-, other, -⟩ |
      ⟨_, _, other, -⟩ | ⟨other, -⟩
    · rw [same] at found
      rcases file?_derived derived .objects lasting with kept | ⟨-, other, -⟩ | ⟨other, -⟩ |
        ⟨other, -⟩
      · rw [kept, (Observation.held_of_put ran).object] at found
        exact (Option.some.inj found).symm
      · exact absurd (fileOf_inj own shape other) distinct.apart
      · cases other
      · cases other
    · exact absurd (fileOf_inj own shape other) distinct.apart
    · cases other
    · cases other
  have provenance : ∀ right, canonicalStruct primitives (Codecs.provenance.encode
        (descendantProvenance localNode (two.reference primitives) (one.reference primitives)
          fourthTime)) = .ok right →
      put.file? .provenance (fileOf ".json" (Digest.sha256Ref primitives right)) = none := by
    intro right encoded
    have named := isSha256Ref_digest primitives right
    have lasting := lasting_fileOf ".json" named
    rcases Observation.file?_put ranPut .provenance lasting with same | ⟨other, -⟩ |
      ⟨_, given, -⟩ | ⟨other, -⟩
    · rcases file?_derived derived .provenance lasting with kept | ⟨other, -⟩ |
        ⟨-, left, encodedLeft, other⟩ | ⟨other, -⟩
      · rw [same, kept]
        exact files .provenance _ lasting (fun same => nomatch same) fun _ same => nomatch same
      · cases other
      · exact absurd (fileOf_inj named (isSha256Ref_digest primitives left) other).symm
          (provenances left right encodedLeft encoded)
      · cases other
    · cases other
    · rw [distinct.plain] at given
      cases given
    · cases other
  have descendants : put.file? .descendants (fileOf ".record.json" (one.reference primitives)) =
      none := by
    have lasting := lasting_fileOf ".record.json" own
    rw [Observation.descendants_put ranPut]
    rcases file?_derived derived .descendants lasting with kept | ⟨other, -⟩ | ⟨other, -⟩ |
      ⟨-, other⟩
    · rw [kept]
      exact files .descendants _ lasting (fun same => nomatch same) fun _ same => nomatch same
    · cases other
    · cases other
    · exact absurd (fileOf_inj own shape other) distinct.apart
  have derivable : Derivable primitives localNode (two.reference primitives) one.object fourthTime
      put :=
    ⟨node, shape, fourth, listed_of_put run ranPut, distinct.first.canonical, distinct.apart,
      object, fun right encoded _ found => (nomatch (provenance right encoded).symm.trans found),
      fun _ _ _ _ _ found => (nomatch descendants.symm.trans found)⟩
  obtain ⟨_, final, derivedAgain⟩ := (derivable_iff ..).mp derivable
  have stepFour : StoreStep primitives put
      (.derived localNode (two.reference primitives) one.object fourthTime) final :=
    (congrArg Prod.snd derivedAgain).symm
  obtain ⟨_, -, derivationOne⟩ := (createLocalDescendant_cases derived).resolve_left nofun
  obtain ⟨_, -, derivationTwo⟩ := (createLocalDescendant_cases derivedAgain).resolve_left nofun
  have earlier : DescendsFrom put (two.reference primitives) (one.reference primitives) := by
    rw [descendsFrom_congr (Observation.descendants_put ranPut)]
    exact (derivationOne.descendsFrom_iff (tidy_of_run (Run.single stepOne)) _ _).mpr
      (.inr ⟨rfl, rfl⟩)
  refine ⟨final, run.snoc stepFour, ?_, ?_⟩
  · exact (derivationTwo.descendsFrom_iff (tidy_of_run run) _ _).mpr (.inl earlier)
  · exact (derivationTwo.descendsFrom_iff (tidy_of_run run) _ _).mpr (.inr ⟨rfl, rfl⟩)

/-- The digests of two recorded objects and of their provenances. -/
def mutualPrimitives : Primitives := Digest.tabulated [
  (Text.bytes "\x7b\x7d", "aa"),
  (Text.bytes "\x7b\"a\"", "bb"),
  (Text.bytes "\x7b\"created_at\":\"2026-08-23T00:02", "cc"),
  (Text.bytes "\x7b\"created_at\":\"2026-08-23T00:04", "dd")] []

/-- An observation of an object with one member. -/
def otherObservation : Observation where
  sourceNode := "fed:qsol:remote"
  object := "\x7b\"a\":1\x7d".toByteArray
  provenance := none

/-- The reference of the first object. -/
def emptyReference : String :=
  "sha256:aa00000000000000000000000000000000000000000000000000000000000000"

/-- The reference of the second object. -/
def otherReference : String :=
  "sha256:bb00000000000000000000000000000000000000000000000000000000000000"

/-- The references of the objects. -/
theorem mutual_references : emptyObservation.reference mutualPrimitives = emptyReference ∧
    otherObservation.reference mutualPrimitives = otherReference := by
  constructor <;> decide

/-- The recorded observations are of two objects. -/
theorem mutual_distinct : Distinct mutualPrimitives emptyObservation otherObservation where
  first := ⟨by decide, by decide +kernel, nofun⟩
  second := ⟨by decide, by decide +kernel, nofun⟩
  bare := rfl
  plain := rfl
  apart := by
    rw [mutual_references.1, mutual_references.2]
    decide

/-- The tree of the provenance of a recorded object. -/
def mutualProvenance (parent object createdAt : String) : Node := .object [
  ("created_at", .string createdAt),
  ("parents", .array [.string parent]),
  ("relation", .string "derived"),
  ("schema", .string provenanceSchemaV1),
  ("source_node", .string "fed:qsol:local"),
  ("source_object", .string object)]

/-- The digest of the canonical bytes of plain data is that of the tree that it is read as. -/
theorem digest_of_visit {value : Value String} {node : Node} {reference : String} {raw : ByteArray}
    (checked : isPlain value = true) (shallow : value.nesting < maxDepth)
    (small : sizeBound value ≤ maxInputBytes) (visited : visit primitives.unicode value = .ok node)
    (digest : Digest.sha256Ref primitives ("".toByteArray ++ writtenBytes node.toJson) = reference)
    (encoded : canonicalStruct primitives value = .ok raw) :
    Digest.sha256Ref primitives raw = reference := by
  obtain ⟨other, same, accepted, -⟩ := canonicalize_plain primitives.unicode
    (plain_of_check value checked) shallow ((size_writtenBytes_le value).trans small)
  obtain rfl := Except.ok.inj (same.symm.trans visited)
  obtain rfl := Except.ok.inj (((canonicalStruct_ok_iff ..).mp encoded).symm.trans accepted)
  rw [show "".toByteArray = ByteArray.empty from rfl, ByteArray.empty_append] at digest
  exact digest

/-- The digest of the provenance of the second object. -/
theorem mutual_first {left : ByteArray}
    (encoded : canonicalStruct mutualPrimitives (Codecs.provenance.encode (descendantProvenance
      "fed:qsol:local" emptyReference otherReference "2026-08-23T00:02:00Z")) = .ok left) :
    Digest.sha256Ref mutualPrimitives left =
      "sha256:cc00000000000000000000000000000000000000000000000000000000000000" :=
  digest_of_visit (by decide) (by decide) (by decide)
    (rfl : visit mutualPrimitives.unicode (Codecs.provenance.encode (descendantProvenance
      "fed:qsol:local" emptyReference otherReference "2026-08-23T00:02:00Z")) =
        .ok (mutualProvenance emptyReference otherReference "2026-08-23T00:02:00Z"))
    (sha256Ref_tabulated (Text.bytes "\x7b\"created_at\":\"2026-08-23T00:02", "cc")
      (by decide) (by decide)) encoded

/-- The digest of the provenance of the first object. -/
theorem mutual_second {right : ByteArray}
    (encoded : canonicalStruct mutualPrimitives (Codecs.provenance.encode (descendantProvenance
      "fed:qsol:local" otherReference emptyReference "2026-08-23T00:04:00Z")) = .ok right) :
    Digest.sha256Ref mutualPrimitives right =
      "sha256:dd00000000000000000000000000000000000000000000000000000000000000" :=
  digest_of_visit (by decide) (by decide) (by decide)
    (rfl : visit mutualPrimitives.unicode (Codecs.provenance.encode (descendantProvenance
      "fed:qsol:local" otherReference emptyReference "2026-08-23T00:04:00Z")) =
        .ok (mutualProvenance otherReference emptyReference "2026-08-23T00:04:00Z"))
    (sha256Ref_tabulated (Text.bytes "\x7b\"created_at\":\"2026-08-23T00:04", "dd")
      (by decide) (by decide)) encoded

/-- Two objects are made of each other: a foreign object arrives, a local one is made of it, the
local one arrives from elsewhere, and the first one is made of it. -/
theorem recorded_mutual_descent : ∃ store,
    Run (StoreStep mutualPrimitives) empty
      [.put emptyObservation .foreign "2026-08-23T00:01:00Z",
        .derived "fed:qsol:local" emptyReference otherObservation.object "2026-08-23T00:02:00Z",
        .put otherObservation .foreign "2026-08-23T00:03:00Z",
        .derived "fed:qsol:local" otherReference emptyObservation.object "2026-08-23T00:04:00Z"]
      store ∧
    ¬Acyclic (DescendsFrom store) := by
  obtain ⟨store, run, back, forth⟩ := mutual_distinct.cycle (by decide : Wire.isNodeId
    "fed:qsol:local" = true) (by decide : validTimestamp "2026-08-23T00:01:00Z" = true)
    (by decide : validTimestamp "2026-08-23T00:02:00Z" = true)
    (by decide : validTimestamp "2026-08-23T00:03:00Z" = true)
    (by decide : validTimestamp "2026-08-23T00:04:00Z" = true) (by
      rw [mutual_references.1, mutual_references.2]
      intro left right first second
      rw [mutual_first first, mutual_second second]
      decide)
  rw [mutual_references.1, mutual_references.2] at run
  exact ⟨store, run, fun acyclic => acyclic _ (.head back (.single forth))⟩

/-- A local object that is made of a foreign one once descends from it without a cycle. -/
theorem recorded_descent : ∃ store,
    Run (StoreStep mutualPrimitives) empty
      [.put emptyObservation .foreign "2026-08-23T00:01:00Z",
        .derived "fed:qsol:local" (emptyObservation.reference mutualPrimitives)
          otherObservation.object "2026-08-23T00:02:00Z"] store ∧
    DescendsFrom store (otherObservation.reference mutualPrimitives)
      (emptyObservation.reference mutualPrimitives) ∧
    Acyclic (DescendsFrom store) := by
  obtain ⟨record, introduced, made, descendant, ran, derived, files⟩ :=
    mutual_distinct.derived (by decide : Wire.isNodeId "fed:qsol:local" = true)
      (by decide : validTimestamp "2026-08-23T00:01:00Z" = true)
      (by decide : validTimestamp "2026-08-23T00:02:00Z" = true)
  have put : StoreStep mutualPrimitives empty
      (.put emptyObservation .foreign "2026-08-23T00:01:00Z") introduced :=
    (congrArg Prod.snd ran).symm
  have step : StoreStep mutualPrimitives introduced
      (.derived "fed:qsol:local" (emptyObservation.reference mutualPrimitives)
        otherObservation.object "2026-08-23T00:02:00Z") made := (congrArg Prod.snd derived).symm
  have tidy := tidy_of_run (Run.single put)
  obtain ⟨_, -, derivation⟩ := (createLocalDescendant_cases derived).resolve_left nofun
  have grounded : Grounded mutualPrimitives introduced (.derived "fed:qsol:local"
      (emptyObservation.reference mutualPrimitives) otherObservation.object
      "2026-08-23T00:02:00Z") := by
    intro _ path
    rcases Relation.ReflTransGen.cases_head path with same | ⟨_, ⟨name, raw, _, stored, -⟩, -⟩
    · exact mutual_distinct.apart same
    · rw [files .descendants name (tidy name raw stored) (fun same => nomatch same)
        fun _ same => nomatch same] at stored
      cases stored
  have run : Run (GroundedStep mutualPrimitives) empty _ made :=
    (Run.single ⟨put, trivial⟩).snoc ⟨step, grounded⟩
  have steps := (Run.single put).snoc step
  exact ⟨made, steps, (derivation.descendsFrom_iff tidy _ _).mpr (.inr ⟨rfl, rfl⟩),
    (acyclic_iff_grounded steps).mpr run⟩

end QsolFed.FederationObjectStore
