import QsolFed.Library.Replace
import QsolFed.Peering.Policy

/-!
# Local trust

The local node keeps a level of trust for each peer, in memory and in a canonical file. A level is
staged, the file is replaced, and then the registry that runs; the policy for capabilities is kept
in the same way. A request that is refused before the file was renamed leaves both as they were. A
request that is refused afterwards, because the directory could not be forced out, has already
changed the file.
-/
namespace QsolFed

open Checked Json Canonical Crypto Peering

/-- A local level of trust. -/
inductive LocalTrustLevel where
  | unknown
  | trusted
  | distrusted
  deriving DecidableEq, Repr

/-- The levels of trust by node. -/
abbrev TrustEntries := OrderedMap String LocalTrustLevel

/-- The contents of the file of the registry. -/
structure TrustSnapshot where
  /-- The schema name. -/
  schema : String
  /-- The levels. -/
  entries : TrustEntries

namespace Codecs

/-- The wire name of a level. -/
def localTrustLevelName : LocalTrustLevel → String
  | .unknown => "unknown"
  | .trusted => "trusted"
  | .distrusted => "distrusted"

/-- A level by name. -/
def localTrustLevel : Codec LocalTrustLevel :=
  .enumeration localTrustLevelName [.unknown, .trusted, .distrusted]
    (by intro value; cases value <;> decide)

/-- The fields of the file of the registry. -/
def trustFields :=
  Fields.required "schema" .string <|
  Fields.required "entries" localTrustLevel.dictionary .nil

/-- The file of the registry as an object. -/
def trustSnapshot : Codec TrustSnapshot :=
  (Codec.record trustFields (by decide)).iso
    (fun (schema, entries, ()) => { schema, entries })
    (fun value => (value.schema, value.entries, ()))
    fun _ => rfl

end Codecs

/-- The registry that runs. -/
structure TrustRegistry where
  /-- The levels. -/
  entries : TrustEntries

namespace TrustRegistry

/-- The schema of the file of the registry. -/
def trustRegistrySchemaV1 : String := "qsol-fed-trust-registry/1"

variable (primitives : Primitives)

/-- Every level is that of a node. -/
def entriesValid (entries : TrustEntries) : Bool :=
  entries.entries.all fun (node, _) => Wire.isNodeId node

/-- The registry that a file is opened as. -/
def openFile : Option ByteArray → Except PeeringError TrustRegistry
  | none => pure ⟨.empty⟩
  | some raw => do
    requireExactCanonical primitives raw
    let snapshot ← okOr (fromSlice Codecs.trustSnapshot raw) .schema
    ensure (snapshot.schema = trustRegistrySchemaV1 ∧ entriesValid snapshot.entries)
      (.code "trust_registry_corrupt")
    pure ⟨snapshot.entries⟩

/-- The level of a node. -/
def get (registry : TrustRegistry) (nodeId : String) : LocalTrustLevel :=
  (registry.entries.get? nodeId).getD .unknown

/-- The levels with one more. -/
def staged (registry : TrustRegistry) (nodeId : String) (level : LocalTrustLevel) : TrustEntries :=
  if level = .unknown then registry.entries.erase nodeId else registry.entries.insert nodeId level

/-- The bytes of the file of the registry. -/
def persisted (entries : TrustEntries) : Except PeeringError ByteArray :=
  canonicalStruct primitives (Codecs.trustSnapshot.encode ⟨trustRegistrySchemaV1, entries⟩)

/-- The local node sets a level: the new file, and the registry that runs once it is in place. -/
def set (registry : TrustRegistry) (nodeId : String) (level : LocalTrustLevel) :
    Except PeeringError (ByteArray × TrustRegistry) := do
  ensure (Wire.isNodeId nodeId) (.code "trust_node_invalid")
  let next := registry.staged nodeId level
  let bytes ← persisted primitives next
  pure (bytes, ⟨next⟩)

/-! ## The file -/

variable {primitives}

/-- Every level is that of a node. -/
theorem entriesValid_iff (entries : TrustEntries) : entriesValid entries = true ↔
    ∀ node level, entries.get? node = some level → Wire.isNodeId node = true := by
  simp only [entriesValid, List.all_eq_true, Prod.forall, OrderedMap.mem_entries]

/-- The file of valid levels is narrow and shallow. -/
theorem narrow_snapshot {entries : TrustEntries} (valid : entriesValid entries = true) :
    Narrow (Codecs.trustSnapshot.encode ⟨trustRegistrySchemaV1, entries⟩) ∧
      (Codecs.trustSnapshot.encode ⟨trustRegistrySchemaV1, entries⟩).nesting ≤ 2 := by
  have each := (entriesValid_iff entries).mp valid
  have levels : ∀ level, Narrow (Codecs.localTrustLevel.encode level) := fun level =>
    Plain.narrow _ (plain_of_check _ (by cases level <;> decide))
  have dictionary : Narrow (Codecs.localTrustLevel.dictionary.encode entries) :=
    narrow_dictionary _ entries fun node level stored =>
      ⟨(plainText_of_nodeId (each node level stored)).1, levels level⟩
  have schema : PlainText trustRegistrySchemaV1 := plainText_of_check (by decide)
  constructor
  · refine narrow_record Codecs.trustFields (by decide) _ (by decide) ?_
    simp only [Codecs.trustFields, Fields.required, Fields.cons, Fields.nil,
      List.map_cons, List.map_nil, List.forall_mem_cons, List.not_mem_nil, false_imp_iff,
      implies_true, and_true]
    exact ⟨schema.1, dictionary⟩
  · refine nesting_record Codecs.trustFields (by decide) _ 1 ?_
    have inner := nesting_dictionary Codecs.localTrustLevel entries 0 fun _ => Nat.le_refl 0
    simp only [Codecs.trustFields, Fields.required, Fields.cons, Fields.nil,
      List.map_cons, List.map_nil, List.forall_mem_cons, List.not_mem_nil, false_imp_iff,
      implies_true, and_true]
    exact ⟨Nat.zero_le _, inner⟩

/-- The levels fit the canonical profile. -/
def Fits (entries : TrustEntries) : Prop :=
  entries.entries.length ≤ maxObjectMembers ∧
    (writtenBytes (Codecs.trustSnapshot.encode ⟨trustRegistrySchemaV1, entries⟩)).size ≤
      maxInputBytes

/-- Valid levels have a file exactly when they fit. -/
theorem persisted_iff {entries : TrustEntries} (valid : entriesValid entries = true) :
    (∃ raw, persisted primitives entries = .ok raw) ↔ Fits entries := by
  obtain ⟨narrow, shallow⟩ := narrow_snapshot valid
  have each := (entriesValid_iff entries).mp valid
  have levels : ∀ level, Plain (Codecs.localTrustLevel.encode level) := fun level =>
    plain_of_check _ (by cases level <;> decide)
  have dictionary : Plain (Codecs.localTrustLevel.dictionary.encode entries) ↔
      entries.entries.length ≤ maxObjectMembers := by
    rw [plain_dictionary_iff]
    exact ⟨And.left, fun few => ⟨few, fun node level stored =>
      ⟨plainText_of_nodeId (each node level stored), levels level⟩⟩⟩
  constructor
  · rintro ⟨raw, encoded⟩
    have accepted := (canonicalStruct_ok_iff ..).mp encoded
    have plain := plain_of_canonicalize narrow (shallow.trans (by decide)) accepted
    have member : ("entries", Codecs.localTrustLevel.dictionary.encode entries) ∈
        Codecs.trustFields.encode (trustRegistrySchemaV1, entries, ()) := by
      simp [Codecs.trustFields, Fields.required, Fields.cons]
    exact ⟨dictionary.mp (plain_of_member plain.2.2 member), canonicalize_short accepted⟩
  · rintro ⟨few, short⟩
    refine (canonicalStruct_iff ?_ (shallow.trans_lt (by decide))).mpr short
    refine plain_record Codecs.trustFields (by decide) _ (by decide) (by decide) ?_
    simp only [Codecs.trustFields, Fields.required, Fields.cons, Fields.nil,
      List.map_cons, List.map_nil, List.forall_mem_cons, List.not_mem_nil, false_imp_iff,
      implies_true, and_true]
    exact ⟨plainText_of_check (by decide), dictionary.mpr few⟩

/-- The file of a registry is opened as that registry. -/
theorem openFile_persisted {entries : TrustEntries} {raw : ByteArray}
    (valid : entriesValid entries = true) (encoded : persisted primitives entries = .ok raw) :
    openFile primitives (some raw) = .ok ⟨entries⟩ := by
  obtain ⟨narrow, shallow⟩ := narrow_snapshot valid
  have plain := plain_of_canonicalize narrow (shallow.trans (by decide))
    ((canonicalStruct_ok_iff ..).mp encoded)
  have read := fromSlice_struct Codecs.trustSnapshot _ plain (shallow.trans_lt (by decide)) encoded
  simp only [openFile, requireExactCanonical_of_struct encoded, read, okOr, bind_ok, ensure_pos,
    valid, and_self]
  rfl

/-- What a file is opened as is valid. -/
theorem entriesValid_openFile {file : Option ByteArray} {registry : TrustRegistry}
    (opened : openFile primitives file = .ok registry) : entriesValid registry.entries = true := by
  cases file with
  | none =>
    cases opened
    rfl
  | some raw =>
    simp only [openFile, bind_ok_iff, ensure_ok_iff, pure_ok_iff] at opened
    obtain ⟨-, -, snapshot, -, -, ⟨-, valid⟩, rfl⟩ := opened
    exact valid

/-- The level of one node is changed. -/
theorem get_staged (registry : TrustRegistry) (nodeId : String) (level : LocalTrustLevel)
    (other : String) : TrustRegistry.get ⟨registry.staged nodeId level⟩ other =
      if other = nodeId then level else registry.get other := by
  unfold TrustRegistry.get staged
  by_cases removed : level = .unknown
  · simp only [removed, ↓reduceIte, OrderedMap.get?_erase]
    split_ifs <;> rfl
  · simp only [removed, ↓reduceIte, OrderedMap.get?_insert]
    split_ifs <;> rfl

/-- The levels stay those of nodes. -/
theorem entriesValid_staged {registry : TrustRegistry}
    (valid : entriesValid registry.entries = true) {nodeId : String} (level : LocalTrustLevel)
    (node : Wire.isNodeId nodeId = true) : entriesValid (registry.staged nodeId level) = true := by
  rw [entriesValid_iff] at valid ⊢
  intro other found stored
  unfold staged at stored
  split_ifs at stored with removed
  · rw [OrderedMap.get?_erase] at stored
    split_ifs at stored
    exact valid other found stored
  · rw [OrderedMap.get?_insert] at stored
    split_ifs at stored with here
    · exact here ▸ node
    · exact valid other found stored

/-- A level is set exactly when the node is well formed and the file can be written. -/
theorem set_ok_iff (registry next : TrustRegistry) (nodeId : String) (level : LocalTrustLevel)
    (raw : ByteArray) : registry.set primitives nodeId level = .ok (raw, next) ↔
      Wire.isNodeId nodeId = true ∧
        persisted primitives (registry.staged nodeId level) = .ok raw ∧
        next = ⟨registry.staged nodeId level⟩ := by
  simp only [set, bind_ok_iff, ensure_ok_iff, exists_const, pure_ok_iff, Prod.mk.injEq]
  constructor
  · rintro ⟨key, _, encoded, rfl, rfl⟩
    exact ⟨key, encoded, rfl⟩
  · rintro ⟨key, encoded, rfl⟩
    exact ⟨key, raw, encoded, rfl, rfl⟩

end TrustRegistry

end QsolFed
