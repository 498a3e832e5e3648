import QsolFed.Bundle.Verified

/-!
# The expansion of a selection

A selection of peers and objects expands to one entry for each peer and one for each attribution of
each object. Each entry depends on its own peer or attribution only, so that the expansions of two
orders of a selection have the same entries.
-/
namespace QsolFed.Bundle

open Checked Json Canonical FederationObjectStore

variable {primitives : Primitives}

/-! ## Embedding -/

/-- Canonical bytes of data are the canonical bytes of its text. -/
theorem canonicalStruct_ok_iff (value : Value String) (bytes : ByteArray) :
    canonicalStruct primitives value = .ok bytes ↔
      canonicalize primitives.unicode (writtenBytes value) = .ok bytes :=
  mapError_ok_iff ..

/-- Canonical bytes are some. -/
theorem size_of_canonical {raw : ByteArray}
    (canonical : canonicalize primitives.unicode raw = .ok raw) : raw.size ≠ 0 := by
  intro none_
  have void : raw = "".toByteArray := ByteArray.ext (Array.eq_empty_of_size_eq_zero none_)
  rw [void] at canonical
  simp only [canonicalize, bind_ok_iff, parseCanonicalValue_ok_iff, parseNode, okOr_ok_iff,
    Text.fromUTF8_toByteArray, Option.some.injEq] at canonical
  obtain ⟨_, ⟨-, -, -, -, text, rfl, read, parsed, -⟩, -⟩ := canonical
  cases parsed

variable (primitives) in
/-- The canonical bytes of data are few enough to be embedded. -/
def Embeddable (value : Value String) : Prop :=
  ∀ bytes, canonicalStruct primitives value = .ok bytes → bytes.size * 2 ≤ maxBundleEmbeddedHexChars

/-- Plain data that is not too large is embedded. -/
theorem embed_of_plain {value : Value String} (plain : Plain value)
    (shallow : value.nesting < maxDepth) (short : writtenSize value ≤ maxInputBytes)
    (few : Embeddable primitives value) : ∃ text, embed primitives value = .ok text := by
  obtain ⟨bytes, accepted⟩ := (canonicalize_plain_iff primitives.unicode plain shallow).mpr short
  have encoded := (canonicalStruct_ok_iff ..).mpr accepted
  refine ⟨_, (bind_ok_iff ..).mpr ⟨bytes, encoded, (encodeHex_ok_iff ..).mpr ⟨few _ encoded, rfl⟩⟩⟩

/-- Plain data that was embedded is read back. -/
theorem embeds_of_embed {α : Type} {codec : Codec α} {value : α} {text : String}
    (plain : Plain (codec.encode value)) (shallow : (codec.encode value).nesting < maxDepth)
    (embedded : embed primitives (codec.encode value) = .ok text) :
    Embeds primitives codec text value := by
  obtain ⟨bytes, encoded, digits⟩ := (bind_ok_iff ..).mp embedded
  have accepted := (canonicalStruct_ok_iff ..).mp encoded
  have canonical := canonicalize_canonical accepted
  exact ⟨bytes, decodeHex_encodeHex (size_of_canonical canonical) digits,
    (requireExactCanonical_ok_iff bytes).mpr canonical,
    fromSlice_canonical primitives.unicode codec value plain shallow accepted⟩

/-- Plain data has canonical bytes as large as its text. -/
theorem size_of_plain {value : Value String} (plain : Plain value)
    (shallow : value.nesting < maxDepth) {bytes : ByteArray}
    (encoded : canonicalStruct primitives value = .ok bytes) : bytes.size = writtenSize value := by
  have accepted := (canonicalStruct_ok_iff ..).mp encoded
  obtain ⟨node, -, again, same, -⟩ :=
    canonicalize_plain primitives.unicode plain shallow (canonicalize_short accepted)
  obtain rfl := Except.ok.inj (accepted.symm.trans again)
  exact size_reorders same

/-- Plain data is embedded when its text is short. -/
theorem embeddable_of_plain {value : Value String} (plain : Plain value)
    (shallow : value.nesting < maxDepth)
    (short : writtenSize value * 2 ≤ maxBundleEmbeddedHexChars) : Embeddable primitives value :=
  fun _ encoded => (size_of_plain plain shallow encoded).symm ▸ short

/-! ## Peers -/

variable (primitives) in
/-- The entry of a peer in a bundle is that of its record. -/
def PeerExported (registry : PeerRegistry) (nodeId : String) (entry : BundlePeer) : Prop :=
  ∃ record, registry.get primitives nodeId = .ok (some record) ∧
    peerEntry primitives record = .ok entry

/-- A peer has one entry. -/
theorem PeerExported.unique {registry : PeerRegistry} {nodeId : String} {one two : BundlePeer}
    (first : PeerExported primitives registry nodeId one)
    (second : PeerExported primitives registry nodeId two) : one = two := by
  obtain ⟨left, leftFound, leftEntry⟩ := first
  obtain ⟨right, rightFound, rightEntry⟩ := second
  rw [leftFound] at rightFound
  obtain rfl := Option.some.inj (Except.ok.inj rightFound)
  exact Except.ok.inj (leftEntry.symm.trans rightEntry)

/-- The selected peers are exported when none is selected twice and each has an entry. -/
theorem exportPeers_ok_iff (registry : PeerRegistry) (seen peerIds : List String)
    (entries : List BundlePeer) : exportPeers primitives registry seen peerIds = .ok entries ↔
      peerIds.Nodup ∧ (∀ nodeId ∈ peerIds, nodeId ∉ seen) ∧
      List.Forall₂ (PeerExported primitives registry) peerIds entries := by
  induction peerIds generalizing seen entries with
  | nil =>
    simp only [exportPeers, pure_ok_iff, List.forall₂_nil_left_iff]
    constructor
    · rintro rfl
      exact ⟨List.nodup_nil, List.forall_mem_nil _, rfl⟩
    · rintro ⟨-, -, rfl⟩
      rfl
  | cons nodeId rest ih =>
    simp only [exportPeers, bind_ok_iff, ensure_ok_iff, exists_const, mapError_ok_iff, okOr_ok_iff,
      pure_ok_iff, ih, List.nodup_cons, List.forall_mem_cons, List.forall₂_cons_left_iff]
    constructor
    · rintro ⟨fresh, _, found, record, rfl, entry, made, others, ⟨distinct, apart, each⟩, rfl⟩
      refine ⟨⟨fun again => apart nodeId again (by simp), distinct⟩, ⟨fresh, fun other listed =>
        fun known => apart other listed (List.mem_append_left _ known)⟩, entry, others,
        ⟨record, found, made⟩, each, rfl⟩
    · rintro ⟨⟨new, distinct⟩, ⟨fresh, apart⟩, entry, others, ⟨record, found, made⟩, each, rfl⟩
      refine ⟨fresh, _, found, record, rfl, entry, made, others, ⟨distinct, ?_, each⟩, rfl⟩
      intro other listed known
      rcases List.mem_append.mp known with before | same
      · exact apart other listed before
      · exact new (List.mem_singleton.mp same ▸ listed)

/-! ## Attributions -/

variable (primitives) in
/-- The entry of an attribution in a bundle is that of its record, with the contents of its
provenance. -/
def RecordExported (store : FederationObjectStore) (objectHex : String)
    (entry : ForeignNamespace × ForeignObjectRecord) (object : BundleObject) : Prop :=
  ∃ provenance, exportProvenance primitives store entry.2.provenanceId = .ok provenance ∧
    object =
      { objectId := entry.2.objectId
        sourceNode := entry.2.sourceNode
        exportedNamespace := entry.1
        objectHex := objectHex
        provenanceId := provenance.1
        provenanceHex := provenance.2 }

variable (primitives) in
/-- The entries of an object in a bundle are those of its attributions. -/
def ObjectExported (store : FederationObjectStore) (objectRef : String)
    (block : List BundleObject) : Prop :=
  ∃ records bytes objectHex, store.foreignRecords primitives objectRef = .ok records ∧
    records ≠ [] ∧ store.objectBytes primitives objectRef = .ok (some bytes) ∧
    encodeHex bytes = .ok objectHex ∧
    List.Forall₂ (RecordExported primitives store objectHex) records block

/-- The attributions of an object are exported when each has an entry and they are not too many. -/
theorem exportRecords_ok_iff (store : FederationObjectStore) (objectHex : String)
    (records : List (ForeignNamespace × ForeignObjectRecord)) (entries all : List BundleObject)
    (few : entries.length ≤ maxBundleObjects) :
    exportRecords primitives store objectHex entries records = .ok all ↔
      ∃ block, List.Forall₂ (RecordExported primitives store objectHex) records block ∧
        all = entries ++ block ∧ all.length ≤ maxBundleObjects := by
  induction records generalizing entries with
  | nil =>
    simp only [exportRecords, pure_ok_iff, List.forall₂_nil_left_iff, exists_eq_left,
      List.append_nil]
    constructor
    · rintro rfl
      exact ⟨rfl, few⟩
    · rintro ⟨rfl, -⟩
      rfl
  | cons entry rest ih =>
    obtain ⟨placement, record⟩ := entry
    simp only [exportRecords, bind_ok_iff, ensure_ok_iff, exists_const]
    constructor
    · rintro ⟨provenance, exported, within, more⟩
      obtain ⟨block, each, rfl, total⟩ := (ih _ within).mp more
      exact ⟨_ :: block, .cons ⟨provenance, exported, rfl⟩ each, by
        rw [List.append_assoc, List.singleton_append], total⟩
    · rintro ⟨_, each, rfl, total⟩
      cases each with
      | @cons _ object _ block first each =>
        obtain ⟨provenance, exported, rfl⟩ := first
        refine ⟨provenance, exported, ?_, (ih _ ?_).mpr ⟨block, each, ?_, total⟩⟩
        · rw [List.length_append, List.length_cons] at total
          rw [List.length_append, List.length_singleton]
          omega
        · rw [List.length_append, List.length_cons] at total
          rw [List.length_append, List.length_singleton]
          omega
        · rw [List.append_assoc, List.singleton_append]

/-- The selected objects are exported when none is selected twice, each has attributions with
entries, and the entries are not too many. -/
theorem exportObjects_ok_iff (store : FederationObjectStore) (selected objectIds : List String)
    (entries all : List BundleObject) (few : entries.length ≤ maxBundleObjects) :
    exportObjects primitives store entries selected objectIds = .ok all ↔
      objectIds.Nodup ∧ (∀ objectRef ∈ objectIds, objectRef ∉ selected) ∧ ∃ blocks,
        List.Forall₂ (ObjectExported primitives store) objectIds blocks ∧
        all = entries ++ blocks.flatten ∧ all.length ≤ maxBundleObjects := by
  induction objectIds generalizing selected entries with
  | nil =>
    simp only [exportObjects, pure_ok_iff, List.forall₂_nil_left_iff, exists_eq_left,
      List.flatten_nil, List.append_nil]
    constructor
    · rintro rfl
      exact ⟨List.nodup_nil, List.forall_mem_nil _, rfl, few⟩
    · rintro ⟨-, -, rfl, -⟩
      rfl
  | cons objectRef rest ih =>
    simp only [exportObjects, bind_ok_iff, ensure_ok_iff, exists_const, mapError_ok_iff,
      okOr_ok_iff, List.nodup_cons, List.forall_mem_cons]
    constructor
    · rintro ⟨fresh, records, listed, some_, _, found, bytes, rfl, objectHex, digits, longer, one,
        more⟩
      obtain ⟨block, each, rfl, within⟩ := (exportRecords_ok_iff _ _ _ _ _ few).mp one
      obtain ⟨distinct, apart, blocks, others, rfl, total⟩ := (ih _ _ within).mp more
      refine ⟨⟨fun again => apart objectRef again (by simp), distinct⟩, ⟨fresh, fun other listed =>
        fun known => apart other listed (List.mem_append_left _ known)⟩, block :: blocks,
        .cons ⟨records, bytes, objectHex, listed, some_, found, digits, each⟩ others, ?_⟩
      rw [List.flatten_cons, ← List.append_assoc]
      exact ⟨rfl, total⟩
    · rintro ⟨⟨new, distinct⟩, ⟨fresh, apart⟩, _, each, rfl, total⟩
      cases each with
      | @cons _ block _ blocks first others =>
        obtain ⟨records, bytes, objectHex, listed, some_, found, digits, each⟩ := first
        have whole : entries ++ (block :: blocks).flatten = entries ++ block ++ blocks.flatten := by
          rw [List.flatten_cons, List.append_assoc]
        rw [whole] at total ih ⊢
        have within : (entries ++ block).length ≤ maxBundleObjects := by
          rw [List.length_append] at total
          omega
        refine ⟨fresh, records, listed, some_, _, found, bytes, rfl, objectHex, digits,
          entries ++ block, (exportRecords_ok_iff _ _ _ _ _ few).mpr ⟨block, each, rfl, within⟩,
          (ih _ _ within).mpr ⟨distinct, fun other listed known => ?_, blocks, others, rfl, total⟩⟩
        rcases List.mem_append.mp known with before | same
        · exact apart other listed before
        · exact new (List.mem_singleton.mp same ▸ listed)

end QsolFed.Bundle
