import QsolFed.Library.Files
import QsolFed.Library.Sorting
import QsolFed.Peering.Records

/-!
# The object store

A content-addressed store of canonical objects. Contents and foreign attributions are kept apart:
the bytes of an object are stored once under their digest, and each observation of it under a
source and a provenance is a record of its own, in one of two namespaces. A namespace is changed
through a marker that a later opening of the store completes.
-/
namespace QsolFed

open Checked Json Canonical Peering

/-- Where a foreign object is placed. -/
inductive ForeignNamespace where
  | foreign
  | quarantine
  deriving DecidableEq, Repr

/-- The directory of a namespace. -/
def ForeignNamespace.directory : ForeignNamespace → String
  | .foreign => "foreign"
  | .quarantine => "quarantine"

/-- How an object is related to its parents. -/
inductive ProvenanceRelation where
  | observed
  | derived
  | quoted
  | transported
  deriving DecidableEq, Repr

/-- Where an object comes from. -/
structure ProvenanceObject where
  /-- The schema name. -/
  schema : String
  /-- The node that the object comes from. -/
  sourceNode : String
  /-- The object. -/
  sourceObject : String
  /-- How the object is related to its parents. -/
  relation : ProvenanceRelation
  /-- The objects that it was made of. -/
  parents : List String
  /-- When it was made. -/
  createdAt : String
  deriving DecidableEq

/-- An observation of a foreign object. -/
structure ForeignObjectRecord where
  /-- The schema name. -/
  schema : String
  /-- The object. -/
  objectId : String
  /-- The node that it came from. -/
  sourceNode : String
  /-- The provenance that it came with. -/
  provenanceId : Option String
  /-- Where it is placed. -/
  namespace_ : ForeignNamespace
  /-- When it was placed there. -/
  receivedAt : String
  /-- The authority of the object, which is none. -/
  authority : String
  deriving DecidableEq

/-- A local object that was made of a foreign one. -/
structure LocalDescendantRecord where
  /-- The schema name. -/
  schema : String
  /-- The local object. -/
  objectId : String
  /-- The local node. -/
  localNode : String
  /-- The foreign object. -/
  parentForeignObject : String
  /-- The provenance of the local object. -/
  provenanceId : String
  /-- When it was made. -/
  createdAt : String
  /-- The authority of the object, which is none. -/
  authority : String
  deriving DecidableEq

/-- The marker of a change of namespace. -/
structure NamespaceMoveTransaction where
  /-- The schema name. -/
  schema : String
  /-- The object. -/
  objectId : String
  /-- The namespace that its records move to. -/
  target : ForeignNamespace
  /-- When they move. -/
  changedAt : String
  deriving DecidableEq

/-- What tells the observations of an object apart. -/
structure AttributionKey where
  /-- The node that it came from. -/
  sourceNode : String
  /-- The provenance that it came with. -/
  provenanceId : Option String
  deriving DecidableEq

/-- A refusal of the store. -/
inductive StoreError where
  /-- A code of the store. -/
  | code (text : String)
  /-- A refusal of the canonical profile, passed on. -/
  | canonical (error : CanonicalError)
  /-- Bytes that are not what the stage reads. -/
  | schema (stage : String)
  deriving DecidableEq, Repr

namespace Codecs

/-- The wire name of a namespace. -/
def foreignNamespaceName : ForeignNamespace → String
  | .foreign => "foreign"
  | .quarantine => "quarantine"

/-- A namespace by name. -/
def foreignNamespace : Codec ForeignNamespace :=
  .enumeration foreignNamespaceName [.foreign, .quarantine]
    (by intro value; cases value <;> decide)

/-- The wire name of a relation. -/
def provenanceRelationName : ProvenanceRelation → String
  | .observed => "observed"
  | .derived => "derived"
  | .quoted => "quoted"
  | .transported => "transported"

/-- A relation by name. -/
def provenanceRelation : Codec ProvenanceRelation :=
  .enumeration provenanceRelationName [.observed, .derived, .quoted, .transported]
    (by intro value; cases value <;> decide)

/-- The fields of a provenance object. -/
def provenanceFields :=
  Fields.required "schema" .string <|
  Fields.required "source_node" .string <|
  Fields.required "source_object" .string <|
  Fields.required "relation" provenanceRelation <|
  Fields.required "parents" (Codec.list .string) <|
  Fields.required "created_at" .string .nil

/-- A provenance object. -/
def provenance : Codec ProvenanceObject :=
  (Codec.record provenanceFields (by decide)).iso
    (fun (schema, sourceNode, sourceObject, relation, parents, createdAt, ()) =>
      { schema, sourceNode, sourceObject, relation, parents, createdAt })
    (fun value =>
      (value.schema, value.sourceNode, value.sourceObject, value.relation, value.parents,
        value.createdAt, ()))
    fun _ => rfl

/-- The fields of a record of a foreign object. -/
def foreignRecordFields :=
  Fields.required "schema" .string <|
  Fields.required "object_id" .string <|
  Fields.required "source_node" .string <|
  Fields.cons "provenance_id" nullableString (some none) <|
  Fields.required "namespace" foreignNamespace <|
  Fields.required "received_at" .string <|
  Fields.required "authority" .string .nil

/-- A record of a foreign object. -/
def foreignRecord : Codec ForeignObjectRecord :=
  (Codec.record foreignRecordFields (by decide)).iso
    (fun (schema, objectId, sourceNode, provenanceId, namespace_, receivedAt, authority, ()) =>
      { schema, objectId, sourceNode, provenanceId, namespace_, receivedAt, authority })
    (fun value =>
      (value.schema, value.objectId, value.sourceNode, value.provenanceId, value.namespace_,
        value.receivedAt, value.authority, ()))
    fun _ => rfl

/-- The fields of a record of a local object. -/
def descendantFields :=
  Fields.required "schema" .string <|
  Fields.required "object_id" .string <|
  Fields.required "local_node" .string <|
  Fields.required "parent_foreign_object" .string <|
  Fields.required "provenance_id" .string <|
  Fields.required "created_at" .string <|
  Fields.required "authority" .string .nil

/-- A record of a local object. -/
def descendant : Codec LocalDescendantRecord :=
  (Codec.record descendantFields (by decide)).iso
    (fun (schema, objectId, localNode, parentForeignObject, provenanceId, createdAt, authority,
        ()) =>
      { schema, objectId, localNode, parentForeignObject, provenanceId, createdAt, authority })
    (fun value =>
      (value.schema, value.objectId, value.localNode, value.parentForeignObject,
        value.provenanceId, value.createdAt, value.authority, ()))
    fun _ => rfl

/-- The fields of a marker. -/
def moveFields :=
  Fields.required "schema" .string <|
  Fields.required "object_id" .string <|
  Fields.required "target" foreignNamespace <|
  Fields.required "changed_at" .string .nil

/-- A marker. -/
def move : Codec NamespaceMoveTransaction :=
  (Codec.record moveFields (by decide)).iso
    (fun (schema, objectId, target, changedAt, ()) => { schema, objectId, target, changedAt })
    (fun value => (value.schema, value.objectId, value.target, value.changedAt, ()))
    fun _ => rfl

end Codecs

/-- A directory of the store. -/
inductive Directory where
  /-- The contents of objects. -/
  | objects
  /-- The contents of provenance objects. -/
  | provenance
  /-- The records of local objects. -/
  | descendants
  /-- The markers. -/
  | transactions
  /-- The records of the foreign object with a digest in a namespace. -/
  | attributions (placement : ForeignNamespace) (digest : String)
  deriving DecidableEq

/-- The directories of the store on disk. The directories of foreign objects exist as long as they
are needed, all others always. -/
structure FederationObjectStore where
  /-- The contents of objects. -/
  objects : Files
  /-- The contents of provenance objects. -/
  provenance : Files
  /-- The records of local objects. -/
  descendants : Files
  /-- The markers. -/
  transactions : Files
  /-- The directories of the objects in the foreign namespace. -/
  foreign : OrderedMap String Files
  /-- The directories of the objects in the quarantine namespace. -/
  quarantine : OrderedMap String Files
  deriving DecidableEq

namespace FederationObjectStore

/-- The store without objects. -/
def empty : FederationObjectStore := ⟨.empty, .empty, .empty, .empty, .empty, .empty⟩

/-- The directories of a namespace. -/
def namespaceRoot (store : FederationObjectStore) : ForeignNamespace → OrderedMap String Files
  | .foreign => store.foreign
  | .quarantine => store.quarantine

/-- The store with the directories of a namespace replaced. -/
def withNamespaceRoot (store : FederationObjectStore) (placement : ForeignNamespace)
    (root : OrderedMap String Files) : FederationObjectStore :=
  match placement with
  | .foreign => { store with foreign := root }
  | .quarantine => { store with quarantine := root }

/-- A directory, if there is one. -/
def directory? (store : FederationObjectStore) : Directory → Option Files
  | .objects => some store.objects
  | .provenance => some store.provenance
  | .descendants => some store.descendants
  | .transactions => some store.transactions
  | .attributions placement digest => (store.namespaceRoot placement).get? digest

/-- The files of a directory. -/
def files (directory : Directory) (store : FederationObjectStore) : Files :=
  (store.directory? directory).getD .empty

/-- The store with the files of a directory replaced. -/
def withFiles (directory : Directory) (files : Files) (store : FederationObjectStore) :
    FederationObjectStore :=
  match directory with
  | .objects => { store with objects := files }
  | .provenance => { store with provenance := files }
  | .descendants => { store with descendants := files }
  | .transactions => { store with transactions := files }
  | .attributions placement digest =>
    store.withNamespaceRoot placement ((store.namespaceRoot placement).insert digest files)

/-- The contents of a file. -/
def file? (store : FederationObjectStore) (directory : Directory) (name : String) :
    Option ByteArray :=
  (store.files directory).get? name

/-- Take a directory of a foreign object away when it has no files. -/
def removeEmptyDirectory (placement : ForeignNamespace) (digest : String)
    (store : FederationObjectStore) : FederationObjectStore :=
  if (store.files (.attributions placement digest)).entries = [] then
    store.withNamespaceRoot placement ((store.namespaceRoot placement).erase digest)
  else store

variable (primitives : Primitives)

/-- A timestamp of the wire that names a second. -/
def validTimestamp (value : String) : Bool := Peering.validTimestamp value

/-- The canonical bytes of data. -/
def canonicalStruct (value : Value String) : Except StoreError ByteArray :=
  (canonicalize primitives.unicode (writtenBytes value)).mapError .canonical

/-- The bytes are canonical. -/
def requireExactCanonical (raw : ByteArray) : Except StoreError Unit := do
  let canonical ← (canonicalize primitives.unicode raw).mapError .canonical
  ensure (canonical = raw) (.code "stored_object_bytes_not_canonical")

/-- The reference to an object. -/
def objectId (raw : ByteArray) : Except StoreError String :=
  (Digest.objectId primitives raw).mapError .canonical

/-- What tells the observations of an object apart, as an object. -/
def attributionKey (key : AttributionKey) : Value String :=
  .object [
    ("source_node", .string key.sourceNode),
    ("provenance_id", Codecs.nullableString.encode key.provenanceId)]

/-- The reference that tells the observations of an object apart. -/
def attributionId (record : ForeignObjectRecord) : Except StoreError String := do
  let bytes ← canonicalStruct primitives
    (attributionKey ⟨record.sourceNode, record.provenanceId⟩)
  objectId primitives bytes

/-! ## Names of files -/

/-- The digest of a reference. -/
def digestFromRef (reference : String) : Except StoreError String := do
  ensure (Wire.isSha256Ref reference) (.code "content_reference_invalid")
  pure (String.ofList (reference.toList.drop 7))

/-- The name of the file of contents. -/
def contentName (reference : String) : Except StoreError String :=
  (digestFromRef reference).map (· ++ ".json")

/-- The name of the file of a record. -/
def recordName (reference : String) : Except StoreError String :=
  (digestFromRef reference).map (· ++ ".record.json")

/-- The name of the file of a marker. -/
def moveName (reference : String) : Except StoreError String :=
  (digestFromRef reference).map (· ++ ".move.json")

/-- The reference that a name begins with. -/
def referenceFromName (name suffix error : String) : Except StoreError String := do
  ensure (suffix.toList.isSuffixOf name.toList) (.code error)
  let reference :=
    "sha256:" ++ String.ofList (name.toList.take (name.length - suffix.length))
  ensure (Wire.isSha256Ref reference) (.code error)
  pure reference

/-- The reference of the attribution in a file. -/
def attributionFromFilename (name : String) : Except StoreError String :=
  referenceFromName name ".record.json" "foreign_record_filename_invalid"

/-- The reference of the object of a directory. -/
def objectRefFromDirectory (name : String) : Except StoreError String :=
  referenceFromName name "" "foreign_object_directory_invalid"

/-! ## Records -/

/-- The schema of provenance objects. -/
def provenanceSchemaV1 : String := "qsol-fed-provenance/1"

/-- The schema of records of foreign objects. -/
def foreignRecordSchemaV1 : String := "qsol-fed-foreign-object/1"

/-- The schema of records of local objects. -/
def localDescendantSchemaV1 : String := "qsol-fed-local-descendant/1"

/-- The schema of markers. -/
def namespaceMoveSchemaV1 : String := "qsol-fed-namespace-move/1"

/-- A provenance object is well formed. -/
def provenanceValid (provenance : ProvenanceObject) : Bool :=
  provenance.schema = provenanceSchemaV1 && Wire.isNodeId provenance.sourceNode &&
    Wire.isSha256Ref provenance.sourceObject && decide (provenance.parents.length ≤ 64) &&
    provenance.parents.all Wire.isSha256Ref && decide provenance.parents.Nodup &&
    Wire.isWireTimestamp provenance.createdAt

/-- A marker is well formed. -/
def validateNamespaceTransaction (transaction : NamespaceMoveTransaction) :
    Except StoreError Unit :=
  ensure (transaction.schema = namespaceMoveSchemaV1 ∧ Wire.isSha256Ref transaction.objectId ∧
    validTimestamp transaction.changedAt) (.code "namespace_tx_corrupt")

/-- A record is well formed and belongs where it is. -/
def validateForeignRecord (record : ForeignObjectRecord) (placement : ForeignNamespace)
    (expectedObject : String) (expectedAttribution : Option String) : Except StoreError Unit := do
  ensure (record.schema = foreignRecordSchemaV1 ∧ record.objectId = expectedObject ∧
    record.namespace_ = placement ∧ record.authority = "none" ∧
    Wire.isNodeId record.sourceNode ∧ validTimestamp record.receivedAt ∧
    record.provenanceId.all Wire.isSha256Ref) (.code "foreign_record_corrupt")
  match expectedAttribution with
  | none => pure ()
  | some expected => do
    let attribution ← attributionId primitives record
    ensure (attribution = expected) (.code "foreign_attribution_filename_mismatch")

/-- The record in the bytes of a file. -/
def readRecord (raw : ByteArray) (placement : ForeignNamespace) (objectRef attribution : String) :
    Except StoreError ForeignObjectRecord := do
  requireExactCanonical primitives raw
  let record ← okOr (fromSlice Codecs.foreignRecord raw) (.schema "foreign_record_schema")
  validateForeignRecord primitives record placement objectRef (some attribution)
  pure record

/-! ## Reading -/

/-- The contents of a reference in a directory. -/
def readContentAddressed (store : FederationObjectStore) (directory : Directory)
    (reference : String) : Except StoreError (Option ByteArray) := do
  let name ← contentName reference
  match store.file? directory name with
  | none => pure none
  | some raw => do
    requireExactCanonical primitives raw
    let derived ← objectId primitives raw
    ensure (derived = reference) (.code "content_store_hash_corrupt")
    pure (some raw)

/-- The contents of an object. -/
def objectBytes (store : FederationObjectStore) (objectRef : String) :
    Except StoreError (Option ByteArray) :=
  store.readContentAddressed primitives .objects objectRef

/-- The contents of a provenance object. -/
def provenanceBytes (store : FederationObjectStore) (provenanceRef : String) :
    Except StoreError (Option ByteArray) :=
  store.readContentAddressed primitives .provenance provenanceRef

/-- The records in a directory of a foreign object. -/
def recordsInDirectory (placement : ForeignNamespace) (objectRef : String) (files : Files) :
    Except StoreError (List (ForeignNamespace × ForeignObjectRecord)) :=
  files.entries.mapM fun (name, raw) => do
    let attribution ← attributionFromFilename name
    let record ← readRecord primitives raw placement objectRef attribution
    pure (placement, record)

/-- What the records of an object are sorted by. -/
def foreignRecordOrder (entry : ForeignNamespace × ForeignObjectRecord) : String ×ₗ String :=
  toLex (entry.1.directory, (attributionId primitives entry.2).toOption.getD "")

/-- The records of a foreign object. -/
def foreignRecords (store : FederationObjectStore) (objectRef : String) :
    Except StoreError (List (ForeignNamespace × ForeignObjectRecord)) := do
  ensure (Wire.isSha256Ref objectRef) (.code "foreign_record_id_invalid")
  let digest ← digestFromRef objectRef
  let records ← [ForeignNamespace.foreign, .quarantine].mapM fun placement =>
    match store.directory? (.attributions placement digest) with
    | none => pure []
    | some files => recordsInDirectory primitives placement objectRef files
  pure (sortBy (foreignRecordOrder primitives) records.flatten)

/-- What lists of records are sorted by. -/
def recordOrder (record : ForeignObjectRecord) : String ×ₗ String ×ₗ WithBot String :=
  toLex (record.objectId, toLex (record.sourceNode, record.provenanceId))

/-- The records in a namespace. -/
def listForeignRecords (store : FederationObjectStore) (placement : ForeignNamespace) :
    Except StoreError (List ForeignObjectRecord) := do
  let records ← (store.namespaceRoot placement).entries.mapM fun (digest, files) => do
    let objectRef ← objectRefFromDirectory digest
    let records ← recordsInDirectory primitives placement objectRef files
    pure (records.map Prod.snd)
  pure (sortBy recordOrder records.flatten)

/-- The record of an attribution, in one of the namespaces. -/
def findRecord (store : FederationObjectStore) (objectRef attribution : String) :
    Except StoreError (Option ForeignObjectRecord) := do
  let digest ← digestFromRef objectRef
  let name ← recordName attribution
  match store.file? (.attributions .foreign digest) name with
  | some raw => some <$> readRecord primitives raw .foreign objectRef attribution
  | none =>
    match store.file? (.attributions .quarantine digest) name with
    | some raw => some <$> readRecord primitives raw .quarantine objectRef attribution
    | none => pure none

/-! ## Writing -/

/-- Write a file, or find it written already. -/
def writeExactOrSame (directory : Directory) (name : String) (bytes : ByteArray) :
    Effect FederationObjectStore StoreError PUnit := do
  Effect.modify fun store => store.withFiles directory (store.files directory)
  let existing ← Effect.read fun store => .ok (store.file? directory name)
  match existing with
  | some old =>
    Effect.check (ensure (old = bytes) (.code "content_address_collision_or_metadata_conflict"))
  | none => (Files.place name bytes).within (files directory) (withFiles directory) id

/-- Write contents under their reference. -/
def writeContentAddressed (directory : Directory) (reference : String) (bytes : ByteArray) :
    Effect FederationObjectStore StoreError PUnit := do
  let derived ← Effect.check (objectId primitives bytes)
  Effect.check (ensure (derived = reference) (.code "content_address_mismatch"))
  let name ← Effect.check (contentName reference)
  writeExactOrSame directory name bytes

/-- The provenance that bytes hold for an object of a node, and its reference. -/
def checkProvenance (sourceNode objectRef : String) (raw : ByteArray) :
    Except StoreError String := do
  requireExactCanonical primitives raw
  let provenance ← okOr (fromSlice Codecs.provenance raw) (.schema "foreign_provenance_schema")
  ensure (provenanceValid provenance ∧ provenance.sourceNode = sourceNode ∧
    provenance.sourceObject = objectRef) (.code "foreign_provenance_identity_mismatch")
  objectId primitives raw

/-- Store the provenance that an object comes with. -/
def putProvenance (sourceNode objectRef : String) :
    Option ByteArray → Effect FederationObjectStore StoreError (Option String)
  | none => pure none
  | some raw => do
    let id ← Effect.check (checkProvenance primitives sourceNode objectRef raw)
    writeContentAddressed primitives .provenance id raw
    pure (some id)

/-- The record of a foreign object that is put into the store. -/
def foreignObjectRecord (objectRef sourceNode : String) (provenanceId : Option String)
    (placement : ForeignNamespace) (receivedAt : String) : ForeignObjectRecord :=
  { schema := foreignRecordSchemaV1
    objectId := objectRef
    sourceNode := sourceNode
    provenanceId := provenanceId
    namespace_ := placement
    receivedAt := receivedAt
    authority := "none" }

/-- Write a record where it belongs. -/
def writeRecord (record : ForeignObjectRecord) (attribution : String) :
    Effect FederationObjectStore StoreError PUnit := do
  let digest ← Effect.check (digestFromRef record.objectId)
  let name ← Effect.check (recordName attribution)
  let bytes ← Effect.check (canonicalStruct primitives (Codecs.foreignRecord.encode record))
  writeExactOrSame (.attributions record.namespace_ digest) name bytes

/-- Put a foreign object into the store. -/
def putForeign (sourceNode : String) (object : ByteArray) (provenance : Option ByteArray)
    (placement : ForeignNamespace) (receivedAt : String) :
    Effect FederationObjectStore StoreError ForeignObjectRecord := do
  Effect.check (ensure (Wire.isNodeId sourceNode ∧ validTimestamp receivedAt)
    (.code "foreign_record_identity_or_time_invalid"))
  Effect.check (requireExactCanonical primitives object)
  let objectRef ← Effect.check (objectId primitives object)
  let provenanceId ← putProvenance primitives sourceNode objectRef provenance
  writeContentAddressed primitives .objects objectRef object
  let record := foreignObjectRecord objectRef sourceNode provenanceId placement receivedAt
  Effect.check (validateForeignRecord primitives record placement objectRef none)
  let attribution ← Effect.check (attributionId primitives record)
  match ← Effect.read fun store => store.findRecord primitives objectRef attribution with
  | some existing => pure existing
  | none => do
    writeRecord primitives record attribution
    pure record

/-- A record in another namespace. -/
def movedRecord (transaction : NamespaceMoveTransaction) (record : ForeignObjectRecord) :
    ForeignObjectRecord :=
  { record with namespace_ := transaction.target, receivedAt := transaction.changedAt }

/-- Take a record away from where it was, and its directory when that is empty. -/
def removeRecord (placement : ForeignNamespace) (digest name : String) :
    Effect FederationObjectStore StoreError PUnit := do
  let existing ← Effect.read fun store => .ok (store.file? (.attributions placement digest) name)
  match existing with
  | none => pure ⟨⟩
  | some _ => do
    Effect.modify fun store =>
      store.withFiles (.attributions placement digest)
        ((store.files (.attributions placement digest)).erase name)
    Effect.modify (removeEmptyDirectory placement digest)

/-- Move one record of an object to the namespace of a marker. -/
def moveRecord (transaction : NamespaceMoveTransaction)
    (entry : ForeignNamespace × ForeignObjectRecord) :
    Effect FederationObjectStore StoreError ForeignObjectRecord := do
  let attribution ← Effect.check (attributionId primitives entry.2)
  if entry.1 = transaction.target then pure entry.2
  else do
    let record := movedRecord transaction entry.2
    writeRecord primitives record attribution
    let digest ← Effect.check (digestFromRef transaction.objectId)
    let name ← Effect.check (recordName attribution)
    removeRecord entry.1 digest name
    pure record

/-- What moved records are sorted by. -/
def movedOrder (record : ForeignObjectRecord) : String ×ₗ WithBot String :=
  toLex (record.sourceNode, record.provenanceId)

/-- Move the records of an object to the namespace of a marker, and take the marker away. -/
def finishNamespaceMove (transaction : NamespaceMoveTransaction) :
    Effect FederationObjectStore StoreError (List ForeignObjectRecord) := do
  Effect.check (validateNamespaceTransaction transaction)
  let records ← Effect.read fun store => store.foreignRecords primitives transaction.objectId
  Effect.check (ensure (records ≠ []) (.code "namespace_move_lost_all_attributions"))
  let moved ← Effect.forEach (moveRecord primitives transaction) records
  let marker ← Effect.check (moveName transaction.objectId)
  Effect.modify fun store =>
    store.withFiles .transactions ((store.files .transactions).erase marker)
  pure (sortBy movedOrder moved)

/-- Move the records of a foreign object to a namespace. -/
def moveNamespace (objectRef : String) (target : ForeignNamespace) (changedAt : String) :
    Effect FederationObjectStore StoreError (List ForeignObjectRecord) := do
  Effect.check (ensure (Wire.isSha256Ref objectRef ∧ validTimestamp changedAt)
    (.code "namespace_move_invalid"))
  let records ← Effect.read fun store => store.foreignRecords primitives objectRef
  Effect.check (ensure (records ≠ []) (.code "foreign_record_not_found"))
  if records.all fun entry => entry.1 = target then pure (records.map Prod.snd)
  else do
    let transaction : NamespaceMoveTransaction :=
      { schema := namespaceMoveSchemaV1
        objectId := objectRef
        target := target
        changedAt := changedAt }
    let name ← Effect.check (moveName objectRef)
    let bytes ← Effect.check (canonicalStruct primitives (Codecs.move.encode transaction))
    writeExactOrSame .transactions name bytes
    finishNamespaceMove primitives transaction

/-- The provenance of a local object. -/
def descendantProvenance (localNode parentForeignObject descendantId createdAt : String) :
    ProvenanceObject :=
  { schema := provenanceSchemaV1
    sourceNode := localNode
    sourceObject := descendantId
    relation := .derived
    parents := [parentForeignObject]
    createdAt := createdAt }

/-- Make a local object of a foreign one. -/
def createLocalDescendant (localNode parentForeignObject : String) (localObject : ByteArray)
    (createdAt : String) : Effect FederationObjectStore StoreError LocalDescendantRecord := do
  Effect.check (ensure (Wire.isNodeId localNode ∧ Wire.isSha256Ref parentForeignObject ∧
    validTimestamp createdAt) (.code "local_descendant_identity_or_time_invalid"))
  let records ← Effect.read fun store => store.foreignRecords primitives parentForeignObject
  Effect.check (ensure (records ≠ []) (.code "local_descendant_parent_not_foreign"))
  Effect.check (requireExactCanonical primitives localObject)
  let descendantId ← Effect.check (objectId primitives localObject)
  Effect.check (ensure (descendantId ≠ parentForeignObject)
    (.code "local_descendant_self_parent_forbidden"))
  writeContentAddressed primitives .objects descendantId localObject
  let provenance := descendantProvenance localNode parentForeignObject descendantId createdAt
  Effect.check (ensure (provenanceValid provenance)
    (.code "local_descendant_provenance_invalid"))
  let provenanceBytes ← Effect.check
    (canonicalStruct primitives (Codecs.provenance.encode provenance))
  let provenanceId ← Effect.check (objectId primitives provenanceBytes)
  writeContentAddressed primitives .provenance provenanceId provenanceBytes
  let record : LocalDescendantRecord :=
    { schema := localDescendantSchemaV1
      objectId := descendantId
      localNode := localNode
      parentForeignObject := parentForeignObject
      provenanceId := provenanceId
      createdAt := createdAt
      authority := "none" }
  let name ← Effect.check (recordName descendantId)
  let bytes ← Effect.check (canonicalStruct primitives (Codecs.descendant.encode record))
  writeExactOrSame .descendants name bytes
  pure record

/-! ## Opening -/

/-- Complete the move of the marker in a file. -/
def recoverMove (name : String) : Effect FederationObjectStore StoreError PUnit := do
  let raw ← Effect.read fun store =>
    okOr (store.file? .transactions name) (.code "namespace_tx_read")
  Effect.check (requireExactCanonical primitives raw)
  let transaction ← Effect.check
    (okOr (fromSlice Codecs.move raw) (.schema "namespace_tx_schema"))
  Effect.check (validateNamespaceTransaction transaction)
  let expected ← Effect.check (moveName transaction.objectId)
  Effect.check (ensure (name = expected) (.code "namespace_tx_filename_mismatch"))
  let _ ← finishNamespaceMove primitives transaction
  pure ⟨⟩

/-- Open the store: complete the moves that were stopped. -/
def openStore : Effect FederationObjectStore StoreError PUnit := do
  let markers ← Effect.read fun store => .ok (store.transactions.entries.map Prod.fst)
  let _ ← Effect.forEach (recoverMove primitives) markers
  pure ⟨⟩

end FederationObjectStore

end QsolFed
