import QsolFed.Canonical.Plain
import QsolFed.Crypto
import QsolFed.Library.Json.Codec

/-!
# Encoding the data of the protocol

The grammars of the protocol only admit ASCII texts of bounded size, so that encoding validated
data can fail for one reason: the text exceeds the size limit. What was encoded is decoded from
its canonical bytes.
-/
namespace QsolFed

open Checked Json Canonical

/-! ## Plain texts -/

/-- A text of narrow bytes that fits is plain. -/
theorem plainText_of_bytes {text : String} (narrow : ∀ b ∈ Text.bytes text, b.toNat < 0x80)
    (short : (Text.bytes text).length ≤ maxStringUtf8) : PlainText text :=
  ⟨Text.ascii_of_bytes narrow, Text.length_bytes text ▸ short⟩

/-- A decoded hexadecimal text is plain. -/
theorem plainText_of_hex {size : Nat} {value : String} {decoded : ByteArray}
    (accepted : Digest.decodeFixedHex size value = .ok decoded)
    (small : size * 2 ≤ maxStringUtf8) : PlainText value := by
  simp only [Digest.decodeFixedHex, bind_ok_iff, ensure_ok_iff, List.all_eq_true] at accepted
  obtain ⟨-, ⟨length, hex⟩, -⟩ := accepted
  exact plainText_of_bytes (fun b member => (Wire.visible_lowerHex (hex b member)).2) (length ▸ small)

/-- A reference to an object is plain. -/
theorem plainText_of_sha256Ref {value : String} (shape : Wire.isSha256Ref value = true) :
    PlainText value :=
  plainText_of_bytes (fun b member => (Wire.visible_of_sha256Ref shape b member).2)
    (by rw [Wire.sha256Ref_length shape]; decide)

/-- The name of a node is plain. -/
theorem plainText_of_nodeId {value : String} (shape : Wire.isNodeId value = true) :
    PlainText value := by
  simp only [Wire.isNodeId, Bool.and_eq_true] at shape
  obtain ⟨starts, tail⟩ := shape
  split at tail
  · cases tail
  · next head rest text =>
    simp only [Bool.and_eq_true, Bool.or_eq_true, decide_eq_true_eq, List.all_eq_true] at tail
    obtain ⟨⟨short, -⟩, each⟩ := tail
    have length : (Text.bytes value).length ≤ 9 + 128 := by
      have := congrArg List.length text
      rw [List.length_drop] at this
      omega
    refine plainText_of_bytes (fun b member => ?_) (length.trans (by decide))
    rcases Wire.mem_of_prefix starts member with mark | member
    · have narrow : ∀ b ∈ Text.bytes "fed:qsol:", b.toNat < 0x80 :=
        List.all_iff_forall_prop.mp (by decide)
      exact narrow b mark
    · rw [show (Text.bytes "fed:qsol:").length = 9 from rfl, text] at member
      rcases each b member with (((letter | digit) | rfl) | rfl) | rfl
      · exact (Wire.visible_lowercase letter).2
      · exact (Wire.visible_digit digit).2
      · decide
      · decide
      · decide

/-- A wire timestamp is plain. -/
theorem plainText_of_wireTimestamp {value : String} (shape : Wire.isWireTimestamp value = true) :
    PlainText value :=
  plainText_of_bytes (fun b member => (Wire.visible_of_wireTimestamp shape b member).2)
    (by rw [Wire.wireTimestamp_length shape]; decide)

/-! ## Hexadecimal -/

/-- The bytes of a hexadecimal text. -/
theorem bytes_lowercaseHex (digest : List UInt8) : Text.bytes (Digest.lowercaseHex digest) =
    digest.flatMap fun b =>
      [Wire.byte (Nat.digitChar (b.toNat / 16)), Wire.byte (Nat.digitChar (b.toNat % 16))] := by
  have ascii : ∀ digit, digit < 16 → Text.Ascii (Nat.digitChar digit) := by decide
  unfold Digest.lowercaseHex
  rw [Text.bytes_ofList_ascii]
  · simp [List.map_flatMap, Wire.byte]
  · intro c member
    obtain ⟨b, -, digit⟩ := List.mem_flatMap.mp member
    have small : b.toNat < 256 := b.toNat_lt
    simp only [List.mem_cons, List.not_mem_nil, or_false] at digit
    rcases digit with rfl | rfl
    · exact ascii _ (by omega)
    · exact ascii _ (by omega)

/-- A hexadecimal text has two digits a byte. -/
theorem length_lowercaseHex (digest : List UInt8) :
    (Text.bytes (Digest.lowercaseHex digest)).length = digest.length * 2 := by
  rw [bytes_lowercaseHex]
  induction digest with
  | nil => rfl
  | cons b rest ih =>
    rw [List.flatMap_cons, List.length_append, ih]
    simp only [List.length_cons, List.length_nil]
    omega

/-- A hexadecimal text consists of hexadecimal digits. -/
theorem isLowerHex_lowercaseHex (digest : List UInt8) :
    ∀ b ∈ Text.bytes (Digest.lowercaseHex digest), Wire.isLowerHex b = true := by
  have hex : ∀ digit, digit < 16 → Wire.isLowerHex (Wire.byte (Nat.digitChar digit)) = true := by
    decide
  intro b member
  rw [bytes_lowercaseHex] at member
  obtain ⟨source, -, digit⟩ := List.mem_flatMap.mp member
  have small : source.toNat < 256 := source.toNat_lt
  simp only [List.mem_cons, List.not_mem_nil, or_false] at digit
  rcases digit with rfl | rfl
  · exact hex _ (by omega)
  · exact hex _ (by omega)

/-- A hexadecimal digit is a digit or a lowercase letter. -/
theorem isLowerHex_cases {b : UInt8} (hex : Wire.isLowerHex b = true) :
    Wire.isAsciiLowercase b = true ∨ Wire.isAsciiDigit b = true := by
  simp only [Wire.isLowerHex, Bool.or_eq_true] at hex
  rcases hex with digit | letter
  · exact .inr digit
  · simp only [Wire.isAsciiLowercase, Bool.and_eq_true, decide_eq_true_eq] at letter ⊢
    have last : Wire.byte 'f' ≤ Wire.byte 'z' := by decide
    exact .inl ⟨letter.1, UInt8.le_trans letter.2 last⟩

/-- Pairs of digits are half as many bytes. -/
theorem length_fromHex : ∀ {digits : List UInt8}, digits.length % 2 = 0 →
    (Digest.fromHex digits).length * 2 = digits.length
  | [], _ => rfl
  | [_], odd => by simp at odd
  | high :: low :: rest, even => by
    have shorter : rest.length % 2 = 0 := by
      simp only [List.length_cons] at even
      omega
    have rests := length_fromHex shorter
    simp only [Digest.fromHex, List.length_cons]
    omega

/-- The digits of bytes are decoded as these bytes. -/
theorem fromHex_lowercaseHex (digest : List UInt8) :
    Digest.fromHex (Text.bytes (Digest.lowercaseHex digest)) = digest := by
  have digit : ∀ value < 16, Digest.hexValue (Wire.byte (Nat.digitChar value)) = value := by decide
  rw [bytes_lowercaseHex]
  induction digest with
  | nil => rfl
  | cons b rest ih =>
    have small := b.toNat_lt
    have high := digit (b.toNat / 16) (by omega)
    have low := digit (b.toNat % 16) (by omega)
    rw [List.flatMap_cons, List.cons_append, List.cons_append, List.nil_append, Digest.fromHex,
      high, low, ih]
    have whole : b.toNat / 16 * 16 + b.toNat % 16 = b.toNat := by omega
    rw [whole, UInt8.ofNat_toNat]

/-- Bytes are told by their digits. -/
theorem lowercaseHex_inj {first second : List UInt8}
    (same : Digest.lowercaseHex first = Digest.lowercaseHex second) : first = second := by
  rw [← fromHex_lowercaseHex first, same, fromHex_lowercaseHex]

variable (primitives : Primitives)

/-- A digest in hexadecimal has 64 digits. -/
theorem length_sha256Hex (domain : String) (message : ByteArray) :
    (Text.bytes (Digest.sha256Hex primitives domain message)).length = 64 := by
  unfold Digest.sha256Hex
  rw [length_lowercaseHex, Array.length_toList]
  have size : (primitives.sha256 (domain.toByteArray ++ message)).data.size = 32 :=
    primitives.sha256_size (domain.toByteArray ++ message)
  rw [size]

/-- A reference to bytes by their digest has the shape of a reference. -/
theorem isSha256Ref_digest (message : ByteArray) :
    Wire.isSha256Ref (Digest.sha256Ref primitives message) = true := by
  have size : (primitives.sha256 message).data.toList.length = 32 := primitives.sha256_size message
  have length := length_lowercaseHex (primitives.sha256 message).data.toList
  have hex := isLowerHex_lowercaseHex (primitives.sha256 message).data.toList
  have mark : (Text.bytes "sha256:").length = 7 := rfl
  simp only [Wire.isSha256Ref, Digest.sha256Ref, Text.bytes_append, Bool.and_eq_true,
    decide_eq_true_eq, List.length_append, length, size, mark, List.drop_left' mark,
    List.all_eq_true]
  exact ⟨⟨trivial, List.isPrefixOf_iff_prefix.mpr (List.prefix_append _ _)⟩, hex⟩

/-- The derived name of a node is the name of a node. -/
theorem isNodeId_derived {publicKey nodeId : String}
    (derived : Crypto.deriveNodeId primitives publicKey = .ok nodeId) :
    Wire.isNodeId nodeId = true := by
  simp only [Crypto.deriveNodeId, bind_ok_iff, pure_ok_iff] at derived
  obtain ⟨key, -, rfl⟩ := derived
  have length := length_sha256Hex primitives Crypto.nodeIdDomain key
  have hex := isLowerHex_lowercaseHex
    (primitives.sha256 (Crypto.nodeIdDomain.toByteArray ++ key)).data.toList
  change ∀ b ∈ Text.bytes (Digest.sha256Hex primitives Crypto.nodeIdDomain key), _ at hex
  simp only [Wire.isNodeId, Text.bytes_append, Bool.and_eq_true]
  refine ⟨List.isPrefixOf_iff_prefix.mpr (List.prefix_append _ _), ?_⟩
  rw [List.drop_left' (show (Text.bytes "fed:qsol:").length = 9 from rfl)]
  cases text : Text.bytes (Digest.sha256Hex primitives Crypto.nodeIdDomain key) with
  | nil =>
    rw [text] at length
    cases length
  | cons head rest =>
    rw [text] at length hex
    simp only [length, Bool.and_eq_true, Bool.or_eq_true, decide_eq_true_eq, List.all_eq_true]
    refine ⟨⟨by decide, isLowerHex_cases (hex head List.mem_cons_self)⟩, fun b member => ?_⟩
    exact .inl (.inl (.inl (isLowerHex_cases (hex b member))))

/-- A derived key identifier is plain. -/
theorem plainText_of_keyId {publicKey keyId : String}
    (derived : Crypto.deriveKeyId primitives publicKey = .ok keyId) : PlainText keyId := by
  simp only [Crypto.deriveKeyId, bind_ok_iff, pure_ok_iff] at derived
  obtain ⟨key, -, rfl⟩ := derived
  refine plainText_of_bytes ?_ ?_
  · intro b member
    rw [Text.bytes_append] at member
    rcases List.mem_append.mp member with mark | digit
    · have narrow : ∀ b ∈ Text.bytes "ed25519:", b.toNat < 0x80 :=
        List.all_iff_forall_prop.mp (by decide)
      exact narrow b mark
    · exact (Wire.visible_lowerHex (isLowerHex_lowercaseHex _ b digit)).2
  · rw [Text.bytes_append, List.length_append, length_sha256Hex]
    decide

/-- A verified signature and its key are plain. -/
theorem plainText_of_signature {publicKey domain signature : String} {payload : ByteArray}
    {valid : Bool}
    (checked : Crypto.verifySignature primitives publicKey domain payload signature = .ok valid) :
    PlainText publicKey ∧ PlainText signature := by
  simp only [Crypto.verifySignature, bind_ok_iff] at checked
  obtain ⟨key, keyDecoded, decoded, signatureDecoded, -⟩ := checked
  exact ⟨plainText_of_hex keyDecoded (by decide), plainText_of_hex signatureDecoded (by decide)⟩

/-- A fixed number of bytes in lowercase hexadecimal. -/
def isFixedHex (size : Nat) (value : String) : Bool :=
  (Text.bytes value).length = size * 2 && (Text.bytes value).all Wire.isLowerHex

/-- A fixed number of bytes in lowercase hexadecimal is decoded. -/
theorem decodeFixedHex_of_shape {size : Nat} {value : String}
    (shape : isFixedHex size value = true) :
    Digest.decodeFixedHex size value = .ok ⟨(Digest.fromHex (Text.bytes value)).toArray⟩ := by
  simp only [isFixedHex, Bool.and_eq_true, decide_eq_true_eq] at shape
  rw [Digest.decodeFixedHex, ensure_pos ⟨shape.1, shape.2⟩, bind_ok]
  rfl

/-- A listed signature verifies under tabulated primitives, whatever it covers. -/
theorem verifySignature_tabulated {digests : List (List UInt8 × String)}
    {signatures : List (String × String)} {publicKey signature : String} (domain : String)
    (payload : ByteArray) (keyShape : isFixedHex 32 publicKey = true)
    (signatureShape : isFixedHex 64 signature = true)
    (listed : (publicKey, signature) ∈ signatures) :
    Crypto.verifySignature (Digest.tabulated digests signatures) publicKey domain payload
      signature = .ok true := by
  simp only [Crypto.verifySignature, decodeFixedHex_of_shape keyShape,
    decodeFixedHex_of_shape signatureShape, bind_ok]
  refine (bind_ok_iff ..).mpr ⟨(), ensure_pos rfl _, ?_⟩
  exact congrArg Except.ok (List.any_eq_true.mpr ⟨_, listed, by simp⟩)

/-- The digest of a message that begins as a table says. -/
theorem sha256Ref_tabulated {digests : List (List UInt8 × String)}
    {signatures : List (String × String)} {domain : String} {value : Json.Value String}
    {reference : String} (entry : List UInt8 × String)
    (found : digests.find? (fun entry => entry.1.isPrefixOf
      (Text.bytes domain ++ (print value).flatMap String.utf8EncodeChar)) = some entry)
    (digest : "sha256:" ++ Digest.lowercaseHex ((List.range 32).map fun index =>
      (Digest.fromHex (Text.bytes entry.2)).getD index 0) = reference) :
    Digest.sha256Ref (Digest.tabulated digests signatures)
      (domain.toByteArray ++ writtenBytes value) = reference := by
  have message : (domain.toByteArray ++ writtenBytes value).data.toList =
      Text.bytes domain ++ (print value).flatMap String.utf8EncodeChar := by
    rw [← Text.bytes_ofList]
    simp [Text.bytes, writtenBytes]
  rw [← digest, Digest.sha256Ref]
  simp only [Digest.tabulated, message, found]
  rfl


/-- A parsed timestamp is plain. -/
theorem plainText_of_timestamp {value : String} {timestamp : Int}
    (parsed : Crypto.parseTimestamp value = .ok timestamp) : PlainText value := by
  simp only [Crypto.parseTimestamp, bind_ok_iff, ensure_ok_iff] at parsed
  obtain ⟨-, shape, -⟩ := parsed
  exact plainText_of_wireTimestamp shape

/-! ## Plain records -/

/-- A record with plain field names and plain values is plain. -/
theorem plain_record {α : Type} (fields : Fields α) (distinct : fields.names.Nodup) (value : α)
    (few : fields.names.length ≤ maxObjectMembers)
    (names : fields.names.all isPlainText = true)
    (values : ∀ item ∈ (fields.encode value).map Prod.snd, Plain item) :
    Plain ((Codec.record fields distinct).encode value) := by
  have members : ∀ list : List (String × Value String),
      (∀ name ∈ list.map Prod.fst, isPlainText name = true) →
      (∀ item ∈ list.map Prod.snd, Plain item) → PlainMembers list := by
    intro list plainNames plainValues
    induction list with
    | nil => trivial
    | cons member rest ih =>
      obtain ⟨name, item⟩ := member
      exact ⟨plainText_of_check (plainNames name (by simp)), plainValues item (by simp),
        ih (fun other listed => plainNames other (List.mem_cons_of_mem _ listed))
          fun other listed => plainValues other (List.mem_cons_of_mem _ listed)⟩
  have written := fields.written value
  refine ⟨?_, written ▸ distinct, members _ (fun name listed => ?_) values⟩
  · rw [← List.length_map (f := Prod.fst), written]
    exact few
  · rw [written] at listed
    exact List.all_eq_true.mp names name listed

/-- A record with plain field names and narrow values is narrow. -/
theorem narrow_record {α : Type} (fields : Fields α) (distinct : fields.names.Nodup) (value : α)
    (names : fields.names.all isPlainText = true)
    (values : ∀ item ∈ (fields.encode value).map Prod.snd, Narrow item) :
    Narrow ((Codec.record fields distinct).encode value) := by
  have members : ∀ list : List (String × Value String),
      (∀ name ∈ list.map Prod.fst, isPlainText name = true) →
      (∀ item ∈ list.map Prod.snd, Narrow item) → NarrowMembers list := by
    intro list plainNames narrowValues
    induction list with
    | nil => trivial
    | cons member rest ih =>
      obtain ⟨name, item⟩ := member
      exact ⟨(plainText_of_check (plainNames name (by simp))).1, narrowValues item (by simp),
        ih (fun other listed => plainNames other (List.mem_cons_of_mem _ listed))
          fun other listed => narrowValues other (List.mem_cons_of_mem _ listed)⟩
  refine members _ (fun name listed => ?_) values
  rw [fields.written value] at listed
  exact List.all_eq_true.mp names name listed

/-- An encoded map with ASCII names and narrow values is narrow. -/
theorem narrow_dictionary {α : Type} (codec : Codec α) (map : OrderedMap String α)
    (each : ∀ name value, map.get? name = some value →
      (∀ c ∈ name.toList, Text.Ascii c) ∧ Narrow (codec.encode value)) :
    Narrow (codec.dictionary.encode map) := by
  have members : ∀ entries : List (String × α), (∀ name value, (name, value) ∈ entries →
      (∀ c ∈ name.toList, Text.Ascii c) ∧ Narrow (codec.encode value)) →
      NarrowMembers (entries.map fun entry => (entry.1, codec.encode entry.2)) := by
    intro entries each
    induction entries with
    | nil => trivial
    | cons entry rest ih =>
      obtain ⟨name, value⟩ := entry
      obtain ⟨ascii, narrow⟩ := each name value List.mem_cons_self
      exact ⟨ascii, narrow, ih fun other item listed =>
        each other item (List.mem_cons_of_mem _ listed)⟩
  exact members map.entries fun name value listed => each name value ((map.mem_entries _ _).mp listed)

/-- An encoded map is plain exactly when it is small, its names are plain and its values are. -/
theorem plain_dictionary_iff {α : Type} (codec : Codec α) (map : OrderedMap String α) :
    Plain (codec.dictionary.encode map) ↔ map.entries.length ≤ maxObjectMembers ∧
      ∀ name value, map.get? name = some value → PlainText name ∧ Plain (codec.encode value) := by
  have members : ∀ entries : List (String × α),
      PlainMembers (entries.map fun entry => (entry.1, codec.encode entry.2)) ↔
        ∀ name value, (name, value) ∈ entries → PlainText name ∧ Plain (codec.encode value) := by
    intro entries
    induction entries with
    | nil => simp [PlainMembers]
    | cons entry rest ih =>
      obtain ⟨first, item⟩ := entry
      simp only [List.map_cons, PlainMembers, ih, List.mem_cons, Prod.mk.injEq]
      constructor
      · rintro ⟨name, value, others⟩ other found (⟨rfl, rfl⟩ | member)
        · exact ⟨name, value⟩
        · exact others other found member
      · intro each
        exact ⟨(each first item (.inl ⟨rfl, rfl⟩)).1, (each first item (.inl ⟨rfl, rfl⟩)).2,
          fun name value member => each name value (.inr member)⟩
  have keys :
      ((map.entries.map fun entry => (entry.1, codec.encode entry.2)).map Prod.fst).Nodup := by
    rw [List.map_map]
    exact map.sorted.nodup
  change (map.entries.map fun entry => (entry.1, codec.encode entry.2)).length ≤ _ ∧ _ ∧
    PlainMembers (map.entries.map fun entry => (entry.1, codec.encode entry.2)) ↔ _
  rw [List.length_map, members]
  simp only [← map.mem_entries]
  exact ⟨fun ⟨few, _, each⟩ => ⟨few, each⟩, fun ⟨few, each⟩ => ⟨few, keys, each⟩⟩

/-- An encoded list of plain values is plain. -/
theorem plain_list {α : Type} (codec : Codec α) (values : List α)
    (few : values.length ≤ maxArrayItems) (each : ∀ value ∈ values, Plain (codec.encode value)) :
    Plain (codec.list.encode values) := by
  refine ⟨by simpa using few, (plainItems_iff _).mpr fun item listed => ?_⟩
  obtain ⟨value, member, rfl⟩ := List.mem_map.mp listed
  exact each value member

/-- An encoded optional value is plain when the value is. -/
theorem plain_nullable {α : Type} {codec : Codec α} {present : ∀ value, codec.encode value ≠ .null}
    {value : Option α} (each : ∀ some_ ∈ value, Plain (codec.encode some_)) :
    Plain ((codec.nullable present).encode value) := by
  cases value with
  | none => trivial
  | some value => exact each value rfl

/-- A small number is plain. -/
theorem plain_uint64 {value : UInt64} (small : (value.toNat : Int) ≤ safeIntegerMax) :
    Plain (Codec.uint64.encode value) :=
  ⟨value.toNat, rfl, le_trans (by decide) (Int.natCast_nonneg _), small⟩

/-! ## Nesting -/

/-- A record nests one level deeper than its values. -/
theorem nesting_record {α : Type} (fields : Fields α) (distinct : fields.names.Nodup) (value : α)
    (bound : Nat) (values : ∀ item ∈ (fields.encode value).map Prod.snd, item.nesting ≤ bound) :
    ((Codec.record fields distinct).encode value).nesting ≤ bound + 1 :=
  Nat.succ_le_succ <| (nestingMembers_le_iff _ _).mpr fun _ listed =>
    values _ (List.mem_map_of_mem listed)

/-- A list nests one level deeper than its values. -/
theorem nesting_list {α : Type} (codec : Codec α) (values : List α) (bound : Nat)
    (each : ∀ value ∈ values, (codec.encode value).nesting ≤ bound) :
    (codec.list.encode values).nesting ≤ bound + 1 := by
  refine Nat.succ_le_succ ((nestingItems_le_iff _ _).mpr fun item listed => ?_)
  obtain ⟨value, member, rfl⟩ := List.mem_map.mp listed
  exact each value member

/-- A map nests one level deeper than its values. -/
theorem nesting_dictionary {α : Type} (codec : Codec α) (map : OrderedMap String α) (bound : Nat)
    (each : ∀ value, (codec.encode value).nesting ≤ bound) :
    (codec.dictionary.encode map).nesting ≤ bound + 1 := by
  refine Nat.succ_le_succ ((nestingMembers_le_iff _ _).mpr fun member listed => ?_)
  obtain ⟨entry, _, rfl⟩ := List.mem_map.mp listed
  exact each entry.2

/-- An optional value nests as deep as the value. -/
theorem nesting_nullable {α : Type} {codec : Codec α}
    {present : ∀ value, codec.encode value ≠ .null} {value : Option α} {bound : Nat}
    (each : ∀ some_ ∈ value, (codec.encode some_).nesting ≤ bound) :
    ((codec.nullable present).encode value).nesting ≤ bound := by
  cases value with
  | none => exact Nat.zero_le _
  | some value => exact each value rfl

/-! ## Encoding and decoding -/

/-- The bytes of encoded data. -/
def toVec {α : Type} (codec : Codec α) (value : α) : ByteArray := writtenBytes (codec.encode value)

/-- The data that bytes encode. -/
def fromSlice {α : Type} (codec : Codec α) (raw : ByteArray) : Option α := do
  let text ← String.fromUTF8? raw
  let value ← readDocument decodeText recursionLimit text.toList
  codec.decode value

/-- Canonical bytes of data are the canonical bytes of their text. -/
theorem canonicalJson_ok_iff (value : Value String) (bytes : ByteArray) :
    Crypto.canonicalJson primitives value = .ok bytes ↔
      canonicalize primitives.unicode (writtenBytes value) = .ok bytes :=
  mapError_ok_iff ..

/-- Canonical bytes of a plain value exist exactly when it fits the size limit. -/
theorem canonicalJson_iff {value : Value String} (plain : Plain value)
    (shallow : value.nesting < maxDepth) :
    (∃ payload, Crypto.canonicalJson primitives value = .ok payload) ↔
      (writtenBytes value).size ≤ maxInputBytes := by
  rw [← canonicalize_plain_iff primitives.unicode plain shallow]
  simp only [canonicalJson_ok_iff]

/-- Data is decoded from its canonical bytes. -/
theorem fromSlice_canonical (unicode : Unicode) {α : Type} (codec : Codec α) (value : α)
    {bytes : ByteArray} (plain : Plain (codec.encode value))
    (shallow : (codec.encode value).nesting < maxDepth)
    (encoded : canonicalize unicode (toVec codec value) = .ok bytes) :
    fromSlice codec bytes = some value := by
  obtain ⟨node, -, accepted, same, nests, -⟩ := canonicalize_plain unicode plain shallow
    (canonicalize_short encoded)
  obtain rfl := Except.ok.inj (encoded.symm.trans accepted)
  have read := readDocument_print node.toJson recursionLimit (Node.integral_toJson node) nests
  simp only [fromSlice, writtenBytes, Text.fromUTF8_toByteArray, String.toList_ofList, read, bind,
    Option.bind, codec.roundtrip value node.toJson same]

end QsolFed
