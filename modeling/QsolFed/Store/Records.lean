import QsolFed.Store.Disk

/-!
# The records of the object store

A record of a foreign object is stored as its canonical bytes under the digest of its attribution
key. Every record with well-formed fields has such bytes, and reading them gives the record back.
-/
namespace QsolFed.FederationObjectStore

open Checked Json Canonical

variable {primitives : Primitives}

/-! ## Canonical bytes -/

/-- Canonical bytes of data are the canonical bytes of its text. -/
theorem canonicalStruct_ok_iff (value : Value String) (bytes : ByteArray) :
    canonicalStruct primitives value = .ok bytes ↔
      canonicalize primitives.unicode (writtenBytes value) = .ok bytes :=
  mapError_ok_iff ..

/-- Plain data that fits has canonical bytes. -/
theorem canonicalStruct_of_plain {value : Value String} (plain : Plain value)
    (shallow : value.nesting < maxDepth) (short : writtenSize value ≤ maxInputBytes) :
    ∃ bytes, canonicalStruct primitives value = .ok bytes := by
  obtain ⟨bytes, accepted⟩ := (canonicalize_plain_iff primitives.unicode plain shallow).mpr short
  exact ⟨bytes, (canonicalStruct_ok_iff ..).mpr accepted⟩

/-- Bytes are canonical when canonicalising them changes nothing. -/
theorem requireExactCanonical_ok_iff (raw : ByteArray) :
    requireExactCanonical primitives raw = .ok () ↔
      canonicalize primitives.unicode raw = .ok raw := by
  simp only [requireExactCanonical, bind_ok_iff, mapError_ok_iff, ensure_ok_iff]
  constructor
  · rintro ⟨canonical, accepted, rfl⟩
    exact accepted
  · intro accepted
    exact ⟨raw, accepted, rfl⟩

/-- Canonical bytes of data are canonical. -/
theorem requireExactCanonical_of_struct {value : Value String} {raw : ByteArray}
    (encoded : canonicalStruct primitives value = .ok raw) :
    requireExactCanonical primitives raw = .ok () :=
  (requireExactCanonical_ok_iff raw).mpr
    (canonicalize_canonical ((canonicalStruct_ok_iff ..).mp encoded))

/-- The reference to canonical bytes is their digest. -/
theorem objectId_of_canonical {raw : ByteArray}
    (canonical : requireExactCanonical primitives raw = .ok ()) :
    objectId primitives raw = .ok (Digest.sha256Ref primitives raw) := by
  have accepted := (requireExactCanonical_ok_iff raw).mp canonical
  simp only [objectId, Digest.objectId, accepted, bind_ok]
  rfl

/-- Plain data is read back from its canonical bytes. -/
theorem fromSlice_struct {α : Type} (codec : Codec α) (value : α) {raw : ByteArray}
    (plain : Plain (codec.encode value)) (shallow : (codec.encode value).nesting < maxDepth)
    (encoded : canonicalStruct primitives (codec.encode value) = .ok raw) :
    fromSlice codec raw = some value :=
  fromSlice_canonical primitives.unicode codec value plain shallow
    ((canonicalStruct_ok_iff ..).mp encoded)

/-! ## Attribution keys -/

/-- The fields of an attribution key. -/
def keyFields := Fields.required "source_node" .string <|
  Fields.required "provenance_id" Codecs.nullableString .nil

/-- An attribution key as an object. -/
def keyCodec : Codec AttributionKey :=
  (Codec.record keyFields (by decide)).iso
    (fun (sourceNode, provenanceId, ()) => ⟨sourceNode, provenanceId⟩)
    (fun key => (key.sourceNode, key.provenanceId, ())) fun _ => rfl

/-- An attribution key with well-formed parts. -/
structure KeyShape (key : AttributionKey) : Prop where
  /-- The source is a node. -/
  node : Wire.isNodeId key.sourceNode = true
  /-- The provenance is a reference. -/
  provenance : ∀ id ∈ key.provenanceId, Wire.isSha256Ref id = true

/-- A nullable reference takes at most 73 bytes. -/
theorem writtenSize_nullableRef {value : Option String}
    (shape : ∀ id ∈ value, Wire.isSha256Ref id = true) :
    writtenSize (Codecs.nullableString.encode value) ≤ 73 := by
  cases value with
  | none =>
    have absent : writtenSize .null ≤ 73 := by
      rw [writtenSize_eq]
      decide
    exact absent
  | some id => exact (writtenSize_sha256Ref (shape id rfl)).le

/-- An attribution key is plain. -/
theorem KeyShape.plain {key : AttributionKey} (shape : KeyShape key) :
    Plain (keyCodec.encode key) := by
  refine plain_record keyFields (by decide) _ (by decide) (by decide) ?_
  have node : Plain (.string key.sourceNode) := plainText_of_nodeId shape.node
  have provenance : Plain (Codecs.nullableString.encode key.provenanceId) :=
    plain_nullable fun id present => plainText_of_sha256Ref (shape.provenance id present)
  simp only [keyFields, Fields.required, Fields.cons, Fields.nil, List.map_cons, List.map_nil,
    List.forall_mem_cons, List.not_mem_nil, false_imp_iff, implies_true, and_true]
  exact ⟨node, provenance⟩

/-- An attribution key nests once. -/
theorem nesting_key (key : AttributionKey) : (keyCodec.encode key).nesting < maxDepth := by
  have provenance : (Codecs.nullableString.encode key.provenanceId).nesting ≤ 0 :=
    nesting_nullable fun _ _ => Nat.zero_le _
  refine (nesting_record keyFields (by decide) _ 0 ?_).trans_lt (by decide)
  simp only [keyFields, Fields.required, Fields.cons, Fields.nil, List.map_cons, List.map_nil,
    List.forall_mem_cons, List.not_mem_nil, false_imp_iff, implies_true, and_true]
  exact ⟨Nat.zero_le _, provenance⟩

/-- An attribution key has canonical bytes. -/
theorem KeyShape.encoded {key : AttributionKey} (shape : KeyShape key) :
    ∃ bytes, canonicalStruct primitives (attributionKey key) = .ok bytes := by
  refine canonicalStruct_of_plain shape.plain (nesting_key key) ?_
  have node := writtenSize_nodeId shape.node
  have provenance := writtenSize_nullableRef shape.provenance
  have names : (keyFields.names.map fun name =>
      weigh Char.utf8Size (printText name) + 1).sum = 30 := by decide
  have limit : maxInputBytes = 65536 := rfl
  change writtenSize (.object _) ≤ _
  rw [writtenSize_object]
  simp only [keyFields, Fields.required, Fields.cons, Fields.nil, List.map_cons, List.map_nil,
    List.sum_cons, List.sum_nil, memberSize, List.length_cons, List.length_nil,
    Codec.string] at names ⊢
  generalize weigh Char.utf8Size = weighed at names ⊢
  omega

variable (primitives) in
/-- The bytes that an attribution is named after. -/
def keyBytes (key : AttributionKey) : ByteArray :=
  (canonicalStruct primitives (attributionKey key)).toOption.getD .empty

variable (primitives) in
/-- The reference that an attribution is named with. -/
def attributionOf (key : AttributionKey) : String :=
  Digest.sha256Ref primitives (keyBytes primitives key)

/-- The bytes of a key are its canonical bytes. -/
theorem KeyShape.keyBytes_encoded {key : AttributionKey} (shape : KeyShape key) :
    canonicalStruct primitives (attributionKey key) = .ok (keyBytes primitives key) := by
  have ⟨bytes, encoded⟩ : ∃ bytes, canonicalStruct primitives (attributionKey key) = .ok bytes :=
    shape.encoded
  rw [keyBytes, encoded]
  rfl

/-- Two keys with the same bytes are the same. -/
theorem KeyShape.inj {one two : AttributionKey} (left : KeyShape one) (right : KeyShape two)
    (same : keyBytes primitives one = keyBytes primitives two) : one = two := by
  have first : fromSlice keyCodec (keyBytes primitives one) = some one :=
    fromSlice_struct keyCodec one left.plain (nesting_key one) left.keyBytes_encoded
  have second : fromSlice keyCodec (keyBytes primitives two) = some two :=
    fromSlice_struct keyCodec two right.plain (nesting_key two) right.keyBytes_encoded
  rw [same, second] at first
  exact (Option.some.inj first).symm

/-! ## Records of foreign objects -/

/-- The attribution key of a record. -/
def recordKey (record : ForeignObjectRecord) : AttributionKey :=
  ⟨record.sourceNode, record.provenanceId⟩

/-- A record with well-formed fields that belongs where it is. -/
structure ForeignValid (record : ForeignObjectRecord) (placement : ForeignNamespace)
    (objectRef : String) : Prop where
  /-- The schema name. -/
  schema : record.schema = foreignRecordSchemaV1
  /-- The object. -/
  object : record.objectId = objectRef
  /-- The namespace. -/
  namespace_ : record.namespace_ = placement
  /-- There is no authority. -/
  authority : record.authority = "none"
  /-- The source is a node. -/
  node : Wire.isNodeId record.sourceNode = true
  /-- The time is one. -/
  received : validTimestamp record.receivedAt = true
  /-- The provenance is a reference. -/
  provenance : ∀ id ∈ record.provenanceId, Wire.isSha256Ref id = true

/-- The key of a valid record is well formed. -/
theorem ForeignValid.key {record : ForeignObjectRecord} {placement : ForeignNamespace}
    {objectRef : String} (valid : ForeignValid record placement objectRef) :
    KeyShape (recordKey record) := ⟨valid.node, valid.provenance⟩

/-- The attribution of a record with a well-formed key. -/
theorem attributionId_of_shape {record : ForeignObjectRecord} (shape : KeyShape (recordKey record)) :
    attributionId primitives record = .ok (attributionOf primitives (recordKey record)) := by
  have encoded : canonicalStruct primitives (attributionKey (recordKey record)) =
      .ok (keyBytes primitives (recordKey record)) := shape.keyBytes_encoded
  have identified := objectId_of_canonical (requireExactCanonical_of_struct encoded)
  change (canonicalStruct primitives (attributionKey (recordKey record)) >>= _) = _
  rw [encoded, bind_ok, identified]
  rfl

/-- A record is validated by its fields. -/
theorem validateForeignRecord_none_iff (record : ForeignObjectRecord)
    (placement : ForeignNamespace) (objectRef : String) :
    validateForeignRecord primitives record placement objectRef none = .ok () ↔
      ForeignValid record placement objectRef := by
  simp only [validateForeignRecord, bind_ok_iff, ensure_ok_iff, exists_const, pure_ok_iff,
    and_true, Option.all_eq_true]
  constructor
  · rintro ⟨schema, object, namespace_, authority, node, received, provenance⟩
    exact ⟨schema, object, namespace_, authority, node, received, provenance⟩
  · rintro ⟨schema, object, namespace_, authority, node, received, provenance⟩
    exact ⟨schema, object, namespace_, authority, node, received, provenance⟩

/-- A record in a file is validated by its fields and the name of the file. -/
theorem validateForeignRecord_some_iff (record : ForeignObjectRecord)
    (placement : ForeignNamespace) (objectRef attribution : String) :
    validateForeignRecord primitives record placement objectRef (some attribution) = .ok () ↔
      ForeignValid record placement objectRef ∧
        attributionOf primitives (recordKey record) = attribution := by
  have fields : validateForeignRecord primitives record placement objectRef none = .ok () ↔
      ForeignValid record placement objectRef := validateForeignRecord_none_iff ..
  simp only [validateForeignRecord, bind_ok_iff, ensure_ok_iff, exists_const, pure_ok_iff,
    and_true] at fields ⊢
  rw [fields]
  constructor
  · rintro ⟨valid, derived, computed, same⟩
    rw [attributionId_of_shape valid.key] at computed
    exact ⟨valid, (Except.ok.inj computed).trans same⟩
  · rintro ⟨valid, same⟩
    exact ⟨valid, _, attributionId_of_shape valid.key, same⟩

/-- A valid record is plain. -/
theorem ForeignValid.plain {record : ForeignObjectRecord} {placement : ForeignNamespace}
    {objectRef : String} (valid : ForeignValid record placement objectRef)
    (shape : Wire.isSha256Ref objectRef = true) : Plain (Codecs.foreignRecord.encode record) := by
  refine plain_record Codecs.foreignRecordFields (by decide) _ (by decide) (by decide) ?_
  have schema : PlainText record.schema := valid.schema ▸ plainText_of_check (by decide)
  have object : PlainText record.objectId := valid.object ▸ plainText_of_sha256Ref shape
  have node : PlainText record.sourceNode := plainText_of_nodeId valid.node
  have provenance : Plain (Codecs.nullableString.encode record.provenanceId) :=
    plain_nullable fun id present => plainText_of_sha256Ref (valid.provenance id present)
  have placed : Plain (Codecs.foreignNamespace.encode record.namespace_) := by
    cases record.namespace_ <;> exact plainText_of_check (by decide)
  have time : PlainText record.receivedAt :=
    plainText_of_wireTimestamp (Bool.and_eq_true_iff.mp valid.received).1
  have authority : PlainText record.authority :=
    valid.authority ▸ plainText_of_check (by decide)
  simp only [Codecs.foreignRecordFields, Fields.required, Fields.cons, Fields.nil, List.map_cons,
    List.map_nil, List.forall_mem_cons, List.not_mem_nil, false_imp_iff, implies_true, and_true]
  exact ⟨schema, object, node, provenance, placed, time, authority⟩

/-- A record nests once. -/
theorem nesting_foreignRecord (record : ForeignObjectRecord) :
    (Codecs.foreignRecord.encode record).nesting < maxDepth := by
  have provenance : (Codecs.nullableString.encode record.provenanceId).nesting ≤ 0 :=
    nesting_nullable fun _ _ => Nat.zero_le _
  refine (nesting_record Codecs.foreignRecordFields (by decide) _ 0 ?_).trans_lt (by decide)
  simp only [Codecs.foreignRecordFields, Fields.required, Fields.cons, Fields.nil, List.map_cons,
    List.map_nil, List.forall_mem_cons, List.not_mem_nil, false_imp_iff, implies_true, and_true]
  exact ⟨Nat.zero_le _, Nat.zero_le _, Nat.zero_le _, provenance, Nat.zero_le _, Nat.zero_le _,
    Nat.zero_le _⟩

/-- A valid record has canonical bytes. -/
theorem ForeignValid.encoded {record : ForeignObjectRecord} {placement : ForeignNamespace}
    {objectRef : String} (valid : ForeignValid record placement objectRef)
    (shape : Wire.isSha256Ref objectRef = true) :
    ∃ raw, canonicalStruct primitives (Codecs.foreignRecord.encode record) = .ok raw := by
  refine canonicalStruct_of_plain (valid.plain shape) (nesting_foreignRecord record) ?_
  have schema : writtenSize (.string record.schema) = 27 := by
    rw [valid.schema, writtenSize_string (List.all_iff_forall_prop.mp (by decide))]
    rfl
  have authority : writtenSize (.string record.authority) = 6 := by
    rw [valid.authority, writtenSize_string (List.all_iff_forall_prop.mp (by decide))]
    rfl
  have object : writtenSize (.string record.objectId) = 73 := by
    rw [valid.object, writtenSize_sha256Ref shape]
  have node := writtenSize_nodeId valid.node
  have provenance := writtenSize_nullableRef valid.provenance
  have placed : writtenSize (Codecs.foreignNamespace.encode record.namespace_) ≤ 12 := by
    rw [writtenSize_eq]
    cases record.namespace_ <;> decide
  have time := writtenSize_timestamp (Bool.and_eq_true_iff.mp valid.received).1
  have names : (Codecs.foreignRecordFields.names.map fun name =>
      weigh Char.utf8Size (printText name) + 1).sum = 89 := by decide
  have limit : maxInputBytes = 65536 := rfl
  change writtenSize (.object _) ≤ _
  rw [writtenSize_object]
  simp only [Codecs.foreignRecordFields, Fields.required, Fields.cons, Fields.nil, List.map_cons,
    List.map_nil, List.sum_cons, List.sum_nil, memberSize, List.length_cons, List.length_nil,
    Codec.string] at names ⊢
  generalize weigh Char.utf8Size = weighed at names ⊢
  generalize writtenSize = size at schema authority object node provenance placed time ⊢
  omega

/-- A record is read from bytes that are canonical and hold it. -/
theorem readRecord_ok_iff (raw : ByteArray) (placement : ForeignNamespace)
    (objectRef attribution : String) (record : ForeignObjectRecord) :
    readRecord primitives raw placement objectRef attribution = .ok record ↔
      requireExactCanonical primitives raw = .ok () ∧
      fromSlice Codecs.foreignRecord raw = some record ∧
      ForeignValid record placement objectRef ∧
      attributionOf primitives (recordKey record) = attribution := by
  simp only [readRecord, bind_ok_iff, okOr_ok_iff, pure_ok_iff]
  constructor
  · rintro ⟨⟨⟩, canonical, found, decoded, ⟨⟩, validated, rfl⟩
    exact ⟨canonical, decoded, (validateForeignRecord_some_iff ..).mp validated⟩
  · rintro ⟨canonical, decoded, validated⟩
    exact ⟨⟨⟩, canonical, record, decoded, ⟨⟩, (validateForeignRecord_some_iff ..).mpr validated,
      rfl⟩

/-- A valid record is read back from its bytes. -/
theorem ForeignValid.readRecord {record : ForeignObjectRecord} {placement : ForeignNamespace}
    {objectRef : String} (valid : ForeignValid record placement objectRef)
    (shape : Wire.isSha256Ref objectRef = true) {raw : ByteArray}
    (encoded : canonicalStruct primitives (Codecs.foreignRecord.encode record) = .ok raw) :
    readRecord primitives raw placement objectRef
      (attributionOf primitives (recordKey record)) = .ok record :=
  (readRecord_ok_iff ..).mpr ⟨requireExactCanonical_of_struct encoded,
    fromSlice_struct _ record (valid.plain shape) (nesting_foreignRecord record) encoded, valid,
    rfl⟩

end QsolFed.FederationObjectStore
