import QsolFed.Adapters.Preservation
import QsolFed.Adapters.WorldPlan
import QsolFed.Holodeck.Codecs
import QsolFed.Wire.Grammars

/-!
# The live adapter for worlds

A verifier that is not part of this repository checks an export. The adapter compares what the
verifier reports with the export and writes a manifest for the Holodeck. It checks the shape of
every reference, but not how many there are, whether they differ and which order the export names.
-/
namespace QsolFed.Adapters

open Checked Json Canonical Holodeck

/-! ## Values of the scripting language -/

/-- Why the adapter stops. -/
inductive AdapterFailure where
  /-- A code of the adapter. -/
  | code (text : String)
  /-- An exception of the language. -/
  | raised (name : String)
  deriving DecidableEq, Repr

/-- The number that a truth value is equal to. -/
def truthNumber (value : Bool) : Number := Number.ofInt (if value then 1 else 0)

variable (numbers : Number → Number → Bool)

mutual

/-- Whether two values are equal, when `numbers` compares numbers. -/
def equal : Value String → Value String → Bool
  | .null, .null => true
  | .bool one, .bool two => one = two
  | .bool one, .number two => numbers (truthNumber one) two
  | .number one, .bool two => numbers one (truthNumber two)
  | .number one, .number two => numbers one two
  | .string one, .string two => one = two
  | .array ones, .array twos => equalItems ones twos
  | .object ones, .object twos => ones.length = twos.length && equalMembers ones (.object twos)
  | _, _ => false
termination_by structural value => value

/-- Whether two sequences are equal. -/
def equalItems : List (Value String) → List (Value String) → Bool
  | [], [] => true
  | one :: ones, two :: twos => equal one two && equalItems ones twos
  | _, _ => false
termination_by structural items => items

/-- Whether every member has an equal one in a dictionary. -/
def equalMembers : List (String × Value String) → Value String → Bool
  | [], _ => true
  | (name, one) :: rest, other =>
    (match getMember name other with
    | none => false
    | some two => equal one two) && equalMembers rest other
termination_by structural members => members

end

/-- The value of a member of a dictionary, or another value when there is no such member. -/
def getOr (name : String) (absent : Value String) : Value String →
    Except AdapterFailure (Value String)
  | .object members => .ok ((getMember name (.object members)).getD absent)
  | _ => .error (.raised "AttributeError")

/-- The value of a member of a dictionary, which must be there. -/
def item (name : String) : Value String → Except AdapterFailure (Value String)
  | .object members =>
    match getMember name (.object members) with
    | none => .error (.raised "KeyError")
    | some value => .ok value
  | _ => .error (.raised "TypeError")

/-- The values that a loop over a value goes through. -/
def iterate : Value String → Except AdapterFailure (List (Value String))
  | .array items => .ok items
  | .string text => .ok (text.toList.map fun c => .string (String.singleton c))
  | .object members => .ok (members.map fun member => .string member.1)
  | _ => .error (.raised "TypeError")

/-- Whether a value is a dictionary. -/
def isDict : Value String → Bool
  | .object _ => true
  | _ => false

/-- Whether a value is the one that stands for nothing. -/
def isNone : Value String → Bool
  | .null => true
  | _ => false

/-- Whether a value is a text with a name and 64 digits behind it. -/
def isReference (begins : String) : Value String → Bool
  | .string text => isPrefixedHash text begins
  | _ => false

/-! ## The adapter -/

/-- The identifiers of the objects of an export, or nothing for one that has none. -/
def expectedRefs (bundle : Value String) : Except AdapterFailure (List (Value String)) := do
  let objects ← getOr "objects" (.array []) bundle
  let entries ← iterate objects
  entries.mapM (getOr "object_id" .null)

/-- What a verifier makes of the copy that it gets: the copy as it leaves it and its result. -/
abbrev Verifier := Value String → Except AdapterFailure (Value String × Value String)

/-- The result of a verifier, compared with the export. -/
def verifyNative (verifier : Verifier) (bundle : Value String) :
    Except AdapterFailure (Value String) := do
  let (seen, result) ← verifier bundle
  ensure (isDict result) (.code "nexus_native_verifier_result_invalid")
  ensure (equal numbers (← getOr "status" .null result) (.string "verified") ∧
    equal numbers (← getOr "authority_effect" .null result) (.string "none"))
    (.code "nexus_native_verification_not_verified")
  ensure (equal numbers (← getOr "bundle_ref" .null result) (← getOr "bundle_ref" .null seen))
    (.code "nexus_native_verification_bundle_ref_mismatch")
  ensure (equal numbers (← getOr "object_count" .null result)
    (← getOr "object_count" .null seen))
    (.code "nexus_native_verification_object_count_mismatch")
  let expected ← expectedRefs seen
  ensure (equal numbers (← getOr "object_refs" .null result) (.array expected))
    (.code "nexus_native_verification_object_refs_mismatch")
  pure result

/-- The manifest of an export and of what a verifier reported about it. -/
def buildSourceManifest (bundle verification : Value String) :
    Except AdapterFailure (Value String) := do
  ensure (equal numbers (← getOr "schema" .null bundle) (.string nexusExportSchemaV1) ∧
    equal numbers (← getOr "world_policy" .null bundle) (.string nexusWorldPolicyV1))
    (.code "nexus_export_contract_mismatch")
  let bundleRef ← item "bundle_ref" verification
  ensure (isReference "world-export:" bundleRef) (.code "nexus_export_bundle_ref_invalid")
  let sourceHeadRef ← getOr "source_head_ref" .null bundle
  ensure (isNone sourceHeadRef ∨ isReference "world-manifest:" sourceHeadRef)
    (.code "nexus_export_head_ref_invalid")
  let objectRefs ← iterate (← item "object_refs" verification)
  ensure (!objectRefs.isEmpty ∧ objectRefs.all (isReference "object:"))
    (.code "nexus_export_object_refs_invalid")
  let orderBasis ← item "order_basis" bundle
  pure (.object [
    ("schema", .string nexusSourceSchemaV1),
    ("nexus_export_schema", .string nexusExportSchemaV1),
    ("nexus_world_policy", .string nexusWorldPolicyV1),
    ("bundle_ref", bundleRef),
    ("source_head_ref", sourceHeadRef),
    ("order_basis", orderBasis),
    ("object_refs", .array objectRefs),
    ("authority_effect", .string "none")])

/-- The manifest that a verified export is projected to. -/
def verifiedSource (verifier : Verifier) (bundle : Value String) :
    Except AdapterFailure (Value String) := do
  ensure (isDict bundle) (.code "nexus_bundle_must_be_object")
  let verification ← verifyNative numbers verifier bundle
  buildSourceManifest numbers bundle verification

/-- The Holodeck reads a manifest and finds it well formed. -/
def Accepted (primitives : Primitives) (manifest : Value String) : Prop :=
  ∃ source, Codecs.worldSource.decode manifest = some source ∧
    validateSource primitives source = .ok ()

/-! ## Equality -/

variable {numbers}

/-- Only a text is equal to a text. -/
theorem equal_string {value : Value String} {text : String} :
    equal numbers value (.string text) = true ↔ value = .string text := by
  cases value with
  | string other => simp [equal]
  | null | bool | number | array | object => simp [equal]

/-- A text is equal to itself alone. -/
theorem string_equal {value : Value String} {text : String} :
    equal numbers (.string text) value = true ↔ value = .string text := by
  cases value with
  | string other => simp [equal, eq_comm]
  | null | bool | number | array | object => simp [equal]

/-- A sequence of texts is equal to itself alone. -/
theorem equalItems_texts {texts : List String} {values : List (Value String)} :
    equalItems numbers (texts.map .string) values = true ↔ values = texts.map .string := by
  induction texts generalizing values with
  | nil => cases values <;> simp [equalItems]
  | cons text rest ih =>
    cases values with
    | nil => simp [equalItems]
    | cons value others => simp [equalItems, string_equal, ih]

/-- Only a list is equal to a list. -/
theorem equal_array {value : Value String} {others : List (Value String)}
    (same : equal numbers value (.array others) = true) :
    ∃ items, value = .array items ∧ equalItems numbers items others = true := by
  cases value with
  | array items => exact ⟨items, rfl, by simpa only [equal] using same⟩
  | null | bool | number | string | object => simp [equal] at same

/-! ## Manifests -/

/-- A reference is a text. -/
theorem isReference_iff {begins : String} {value : Value String} :
    isReference begins value = true ↔
      ∃ text, value = .string text ∧ isPrefixedHash text begins = true := by
  cases value with
  | string text => simp [isReference]
  | null | bool | number | array | object => simp [isReference]

/-- The shape of a reference is its pattern, as the language matches it. -/
theorem isPrefixedHash_iff {begins : String} (ascii : ∀ c ∈ begins.toList, Text.Ascii c)
    (value : String) : isPrefixedHash value begins = true ↔
      Wire.Grammars.fullmatch (Regex.anchored (Wire.Grammars.reference begins))
        (Wire.Grammars.codes value) := by
  have plain : Regex.Plain (Wire.Grammars.reference begins) := by
    simp [Wire.Grammars.reference, Wire.Grammars.text, Regex.plain_literal, Regex.Plain]
  have below : Regex.Below 0x80 (Wire.Grammars.reference begins) := by
    refine ⟨Regex.below_literal fun code listed => ?_, by simp [Regex.Below, Wire.Grammars.range]⟩
    obtain ⟨c, member, rfl⟩ := List.mem_map.mp listed
    exact ascii c member
  rw [Wire.Grammars.fullmatch_iff plain, ← (Wire.Grammars.language_encodings below value).1,
    Wire.Grammars.language_reference ascii]
  simp only [isPrefixedHash, Bool.and_eq_true, decide_eq_true_eq, List.all_eq_true,
    List.isPrefixOf_iff_prefix, and_assoc]

/-- The members of a manifest with given references and a given order. -/
def membersOf (bundleRef : String) (sourceHeadRef : Option String) (order : Value String)
    (objectRefs : List String) : List (String × Value String) := [
  ("schema", .string nexusSourceSchemaV1),
  ("nexus_export_schema", .string nexusExportSchemaV1),
  ("nexus_world_policy", .string nexusWorldPolicyV1),
  ("bundle_ref", .string bundleRef),
  ("source_head_ref", nullable sourceHeadRef),
  ("order_basis", order),
  ("object_refs", .array (objectRefs.map .string)),
  ("authority_effect", .string "none")]

/-- The manifest with given references and a given order. -/
def manifestOf (bundleRef : String) (sourceHeadRef : Option String) (order : Value String)
    (objectRefs : List String) : Value String :=
  .object (membersOf bundleRef sourceHeadRef order objectRefs)

/-- The data of such a manifest. -/
def sourceOf (bundleRef : String) (sourceHeadRef : Option String) (order : NexusOrderBasis)
    (objectRefs : List String) : NexusWorldSourceManifest where
  schema := nexusSourceSchemaV1
  nexusExportSchema := nexusExportSchemaV1
  nexusWorldPolicy := nexusWorldPolicyV1
  bundleRef := bundleRef
  sourceHeadRef := sourceHeadRef
  orderBasis := order
  objectRefs := objectRefs
  authorityEffect := "none"

/-- The references of a manifest have the right shapes. -/
structure Shaped (bundleRef : String) (sourceHeadRef : Option String)
    (objectRefs : List String) : Prop where
  /-- The export is named by a digest. -/
  bundleRef : isPrefixedHash bundleRef "world-export:" = true
  /-- So is the head, if there is one. -/
  sourceHeadRef : ∀ text ∈ sourceHeadRef, isPrefixedHash text "world-manifest:" = true
  /-- There is an object. -/
  some_ : objectRefs ≠ []
  /-- Every object is named by a digest. -/
  objectRefs : ∀ text ∈ objectRefs, isPrefixedHash text "object:" = true

variable {bundleRef : String} {sourceHeadRef : Option String} {objectRefs : List String}

/-- References in a list are texts. -/
theorem texts_of_references {begins : String} {values : List (Value String)}
    (all : ∀ value ∈ values, isReference begins value = true) : ∃ texts : List String,
      values = texts.map .string ∧ ∀ text ∈ texts, isPrefixedHash text begins = true := by
  induction values with
  | nil => exact ⟨[], rfl, by simp⟩
  | cons value rest ih =>
    rw [List.forall_mem_cons] at all
    obtain ⟨text, rfl, shape⟩ := isReference_iff.mp all.1
    obtain ⟨texts, rfl, shapes⟩ := ih all.2
    exact ⟨text :: texts, rfl, List.forall_mem_cons.mpr ⟨shape, shapes⟩⟩

/-- A manifest that is built has references in shape. -/
theorem buildSourceManifest_ok {bundle verification manifest : Value String}
    (built : buildSourceManifest numbers bundle verification = .ok manifest) :
    ∃ bundleRef sourceHeadRef objectRefs order, Shaped bundleRef sourceHeadRef objectRefs ∧
      (item "object_refs" verification >>= iterate) = .ok (objectRefs.map .string) ∧
      item "order_basis" bundle = .ok order ∧
      manifest = manifestOf bundleRef sourceHeadRef order objectRefs := by
  simp only [buildSourceManifest, bind_ok_iff, ensure_ok_iff, exists_const, pure_ok_iff] at built
  obtain ⟨_, -, _, -, -, reference, -, bundleShape, head, -, headShape, listed, named, values,
    iterated, ⟨some_, each⟩, order, ordered, rfl⟩ := built
  obtain ⟨bundleRef, rfl, bundleShape⟩ := isReference_iff.mp bundleShape
  obtain ⟨objectRefs, rfl, shapes⟩ := texts_of_references (List.all_eq_true.mp each)
  have headText : ∃ sourceHeadRef, head = nullable sourceHeadRef ∧
      ∀ text ∈ sourceHeadRef, isPrefixedHash text "world-manifest:" = true := by
    rcases headShape with absent | present
    · cases head with
      | null => exact ⟨none, rfl, by simp⟩
      | bool | number | string | array | object => cases absent
    · obtain ⟨text, rfl, shape⟩ := isReference_iff.mp present
      exact ⟨some text, rfl, by simpa using shape⟩
  obtain ⟨sourceHeadRef, rfl, headRef⟩ := headText
  refine ⟨bundleRef, sourceHeadRef, objectRefs, order, ⟨bundleShape, headRef, ?_, shapes⟩, ?_,
    ordered, rfl⟩
  · rintro rfl
    cases some_
  · rw [named]
    exact iterated

/-- Such a manifest is read when its order is. -/
theorem decode_manifestOf (order : Value String) :
    Codecs.worldSource.decode (manifestOf bundleRef sourceHeadRef order objectRefs) =
      (Codecs.orderBasis.decode order).map fun basis =>
        sourceOf bundleRef sourceHeadRef basis objectRefs := by
  have head : Codecs.nullableString.decode (nullable sourceHeadRef) = some sourceHeadRef := by
    cases sourceHeadRef <;> rfl
  have texts : Codec.string.list.decode (.array (objectRefs.map .string)) = some objectRefs :=
    Codec.string.list.roundtrip objectRefs _ (Reorders.refl _)
  have once : Codecs.worldSourceFields.names.Nodup := by decide
  have read := @Codec.decode_record _ Codecs.worldSourceFields once
    (membersOf bundleRef sourceHeadRef order objectRefs) once fun _ listed => listed
  generalize sought : (fun name => Entries.find name
    (membersOf bundleRef sourceHeadRef order objectRefs)) = lookup at read
  have found : lookup "source_head_ref" = some (nullable sourceHeadRef) ∧
      lookup "order_basis" = some order ∧
      lookup "object_refs" = some (.array (objectRefs.map .string)) := by
    rw [← sought]
    exact ⟨rfl, rfl, rfl⟩
  have others : lookup "schema" = some (.string nexusSourceSchemaV1) ∧
      lookup "nexus_export_schema" = some (.string nexusExportSchemaV1) ∧
      lookup "nexus_world_policy" = some (.string nexusWorldPolicyV1) ∧
      lookup "bundle_ref" = some (.string bundleRef) ∧
      lookup "authority_effect" = some (.string "none") := by
    rw [← sought]
    exact ⟨rfl, rfl, rfl, rfl, rfl⟩
  change Option.map _ ((Codec.record Codecs.worldSourceFields once).decode
    (.object (membersOf bundleRef sourceHeadRef order objectRefs))) = _
  rw [read]
  simp only [Codecs.worldSourceFields, Fields.cons, Fields.nil, found, others, head, texts, bind,
    Option.bind]
  cases Codecs.orderBasis.decode order <;> rfl

/-- The data of a manifest in shape is well formed when it has few references, none twice. -/
theorem validateSource_iff (primitives : Primitives)
    (shaped : Shaped bundleRef sourceHeadRef objectRefs) (order : NexusOrderBasis) :
    validateSource primitives (sourceOf bundleRef sourceHeadRef order objectRefs) = .ok () ↔
      objectRefs.length ≤ maxHolodeckSourceObjects ∧ objectRefs.Nodup := by
  constructor
  · intro valid
    simp only [validateSource, bind_ok_iff, ensure_ok_iff, exists_const] at valid
    exact ⟨valid.1.2.2.2.2.2.2.2, valid.2.1.2⟩
  · rintro ⟨few, once⟩
    have hash : ∀ {begins text : String}, (∀ b ∈ Text.bytes begins, Unescaped b) →
        (Text.bytes begins).length + 64 ≤ 81 → isPrefixedHash text begins = true →
        Small 83 (.string text) := fun unescaped short shape =>
      small_hash unescaped short (by decide) shape
    have headSmall : Small 83 (nullable sourceHeadRef) := by
      cases sourceHeadRef with
      | none => exact ⟨trivial, by decide⟩
      | some text =>
        exact @hash "world-manifest:" text (List.all_iff_forall_prop.mp (by decide))
          (by decide) (shaped.sourceHeadRef text rfl)
    have objectSmall : ∀ item ∈ objectRefs.map Value.string, Small 83 item := by
      simp only [List.forall_mem_map]
      exact fun text listed => @hash "object:" text (List.all_iff_forall_prop.mp (by decide))
        (by decide) (shaped.objectRefs text listed)
    have schema : Small 300 (.string nexusSourceSchemaV1) := small_text (by decide) (by decide)
    have export_ : Small 300 (.string nexusExportSchemaV1) := small_text (by decide) (by decide)
    have policy : Small 300 (.string nexusWorldPolicyV1) := small_text (by decide) (by decide)
    have effect : Small 50 (.string "none") := small_text (by decide) (by decide)
    have named : Small 300 (.string (orderBasisName order)) := by
      cases order <;> exact small_text (by decide) (by decide)
    have small : Small 60000 (writeSource (sourceOf bundleRef sourceHeadRef order objectRefs)) := by
      refine @small_object [("schema", 300), ("nexus_export_schema", 300),
        ("nexus_world_policy", 300), ("bundle_ref", 83), ("source_head_ref", 83),
        ("order_basis", 300), ("object_refs", 256 * 84 + 2), ("authority_effect", 50)] _ 60000
        (by decide) ?_
      exact .cons ⟨rfl, schema⟩ <|
        .cons ⟨rfl, export_⟩ <|
        .cons ⟨rfl, policy⟩ <|
        .cons ⟨rfl, @hash "world-export:" _ (List.all_iff_forall_prop.mp (by decide)) (by decide)
          shaped.bundleRef⟩ <|
        .cons ⟨rfl, headSmall⟩ <|
        .cons ⟨rfl, named⟩ <|
        .cons ⟨rfl, small_array (by rwa [List.length_map]) (by decide) objectSmall⟩ <|
        .cons ⟨rfl, effect⟩ .nil
    have shallow : (writeSource (sourceOf bundleRef sourceHeadRef order objectRefs)).nesting <
        maxDepth := by
      have nests :
          (writeSource (sourceOf bundleRef sourceHeadRef order objectRefs)).nesting = 2 := by
        cases sourceHeadRef <;>
          simp [writeSource, sourceOf, nullable, Value.nesting, Value.nestingMembers,
            nestingItems_texts]
      rw [nests]
      decide
    obtain ⟨bytes, encoded⟩ := (canonicalize_plain_iff primitives.unicode small.1 shallow).mpr
      (small.2.trans (by decide))
    have written : Holodeck.canonicalStruct primitives
        (writeSource (sourceOf bundleRef sourceHeadRef order objectRefs)) = .ok bytes := by
      rw [Holodeck.canonicalStruct, encoded]
      rfl
    have heads : sourceHeadRef.all (isPrefixedHash · "world-manifest:") = true :=
      (Option.all_eq_true _ _).mpr fun text => shaped.sourceHeadRef text
    simp only [validateSource, bind_ok_iff, ensure_ok_iff, exists_const, pure_ok_iff]
    refine ⟨⟨rfl, rfl, rfl, rfl, shaped.bundleRef, heads, shaped.some_, few⟩,
      ⟨List.all_eq_true.mpr shaped.objectRefs, once⟩, bytes, written, trivial⟩

/-- The Holodeck accepts a manifest in shape exactly when it has few references, none twice, and
names an order that it knows. -/
theorem accepted_iff (primitives : Primitives)
    (shaped : Shaped bundleRef sourceHeadRef objectRefs) (order : Value String) :
    Accepted primitives (manifestOf bundleRef sourceHeadRef order objectRefs) ↔
      objectRefs.length ≤ maxHolodeckSourceObjects ∧ objectRefs.Nodup ∧
        ∃ basis, Codecs.orderBasis.decode order = some basis := by
  simp only [Accepted, decode_manifestOf, Option.map_eq_some_iff]
  constructor
  · rintro ⟨_, ⟨basis, known, rfl⟩, valid⟩
    have bounds := (validateSource_iff primitives shaped basis).mp valid
    exact ⟨bounds.1, bounds.2, basis, known⟩
  · rintro ⟨few, once, basis, known⟩
    exact ⟨_, ⟨basis, known, rfl⟩, (validateSource_iff primitives shaped basis).mpr ⟨few, once⟩⟩

/-! ## Verified exports -/

/-- A result that agrees with the export has the identifiers of its objects. -/
theorem verifyNative_ok {verifier : Verifier} {bundle result : Value String}
    (verified : verifyNative numbers verifier bundle = .ok result) :
    ∃ seen expected refs, verifier bundle = .ok (seen, result) ∧
      expectedRefs seen = .ok expected ∧ getOr "object_refs" .null result = .ok (.array refs) ∧
      equalItems numbers refs expected = true := by
  simp only [verifyNative, bind_ok_iff, ensure_ok_iff, exists_const, pure_ok_iff] at verified
  obtain ⟨⟨seen, reported⟩, ran, verified⟩ := verified
  obtain ⟨-, _, -, _, -, -, _, -, _, -, -, _, -, _, -, -, expected, listed, value, reports, same,
    rfl⟩ := verified
  obtain ⟨refs, rfl, each⟩ := equal_array same
  exact ⟨seen, expected, refs, ran, listed, reports, each⟩

/-- A member that is a list is there. -/
theorem item_of_getOr {name : String} {value : Value String} {refs : List (Value String)}
    (found : getOr name .null value = .ok (.array refs)) : item name value = .ok (.array refs) := by
  cases value with
  | object members =>
    simp only [getOr, item] at found ⊢
    cases there : getMember name (.object members) with
    | none =>
      rw [there] at found
      cases found
    | some value =>
      rw [there] at found
      exact found
  | null | bool | number | string | array => cases found

/-- What the Holodeck asks of an export, beyond what the adapter checks. -/
structure Acceptable (seen bundle : Value String) : Prop where
  /-- The export has few objects, none twice. -/
  objects : ∃ ids, expectedRefs seen = .ok ids ∧ ids.length ≤ maxHolodeckSourceObjects ∧ ids.Nodup
  /-- It names an order that the Holodeck knows. -/
  order : ∃ order basis, item "order_basis" bundle = .ok order ∧
    Codecs.orderBasis.decode order = some basis

/-- A manifest that the adapter returns is accepted exactly when the export has few objects, none
twice, and names an order that the Holodeck knows. -/
theorem source_exact (primitives : Primitives) {verifier : Verifier}
    {bundle seen result manifest : Value String} (ran : verifier bundle = .ok (seen, result))
    (built : verifiedSource numbers verifier bundle = .ok manifest) :
    Accepted primitives manifest ↔ Acceptable seen bundle := by
  simp only [verifiedSource, bind_ok_iff, ensure_ok_iff, exists_const] at built
  obtain ⟨-, verification, verified, built⟩ := built
  obtain ⟨other, expected, refs, ranToo, listed, reports, same⟩ := verifyNative_ok verified
  rw [ran, Except.ok.injEq, Prod.mk.injEq] at ranToo
  obtain ⟨rfl, rfl⟩ := ranToo
  obtain ⟨bundleRef, sourceHeadRef, objectRefs, order, shaped, named, ordered, rfl⟩ :=
    buildSourceManifest_ok built
  rw [item_of_getOr reports] at named
  obtain rfl : refs = objectRefs.map .string := Except.ok.inj named
  obtain rfl := equalItems_texts.mp same
  have once : (objectRefs.map Value.string).Nodup ↔ objectRefs.Nodup :=
    List.nodup_map_iff fun _ _ => Value.string.inj
  rw [accepted_iff primitives shaped]
  constructor
  · rintro ⟨few, distinct, basis, known⟩
    exact ⟨⟨_, listed, by rwa [List.length_map], once.mpr distinct⟩, order, basis, ordered, known⟩
  · intro acceptable
    obtain ⟨ids, ids_, few, distinct⟩ := acceptable.objects
    obtain ⟨_, basis, ordered_, known⟩ := acceptable.order
    rw [listed, Except.ok.injEq] at ids_
    rw [ordered, Except.ok.injEq] at ordered_
    subst ids_ ordered_
    rw [List.length_map] at few
    exact ⟨few, once.mp distinct, basis, known⟩

/-! ## Recorded exports -/

/-- An export with objects of given identifiers. -/
def recordedExport (ids : List String) : Value String := .object [
  ("schema", .string nexusExportSchemaV1),
  ("world_policy", .string nexusWorldPolicyV1),
  ("bundle_ref", .string HolodeckSandbox.recordedSource.bundleRef),
  ("order_basis", .string "lexical_object_ref"),
  ("object_count", .number (Number.ofInt ids.length)),
  ("objects", .array (ids.map fun id => .object [("object_id", .string id)]))]

/-- Whole numbers are equal when they are written alike. -/
def sameNumber (one two : Number) : Bool := one = two

/-- A verifier that reports what the export says. -/
def reportingVerifier : Verifier := fun bundle => do
  let refs ← expectedRefs bundle
  let bundleRef ← getOr "bundle_ref" .null bundle
  let count ← getOr "object_count" .null bundle
  pure (bundle, .object [
    ("status", .string "verified"),
    ("authority_effect", .string "none"),
    ("bundle_ref", bundleRef),
    ("object_count", count),
    ("object_refs", .array refs)])

/-- The manifest of a recorded export. -/
theorem reported_built {ids : List String}
    (shaped : Shaped HolodeckSandbox.recordedSource.bundleRef none ids) :
    verifiedSource sameNumber reportingVerifier (recordedExport ids) =
      .ok (manifestOf HolodeckSandbox.recordedSource.bundleRef none (.string "lexical_object_ref")
        ids) := by
  have expected : expectedRefs (recordedExport ids) = .ok (ids.map .string) := by
    change (ids.map fun id => Value.object [("object_id", .string id)]).mapM
      (getOr "object_id" .null) = .ok (ids.map .string)
    rw [mapM_ok_iff, List.forall₂_map_left_iff, List.forall₂_map_right_iff, List.forall₂_same]
    exact fun _ _ => rfl
  have ran : reportingVerifier (recordedExport ids) = .ok (recordedExport ids, .object [
      ("status", .string "verified"), ("authority_effect", .string "none"),
      ("bundle_ref", .string HolodeckSandbox.recordedSource.bundleRef),
      ("object_count", .number (Number.ofInt ids.length)),
      ("object_refs", .array (ids.map .string))]) := by
    rw [reportingVerifier, expected]
    rfl
  have same : equal sameNumber (.array (ids.map .string)) (.array (ids.map .string)) = true := by
    rw [equal]
    exact equalItems_texts.mpr rfl
  have references : (ids.map Value.string).all (isReference "object:") = true := by
    simp only [List.all_map, List.all_eq_true]
    exact shaped.objectRefs
  have present : (!(ids.map Value.string).isEmpty) = true := by
    simp [shaped.some_]
  simp only [verifiedSource, verifyNative, buildSourceManifest, bind_ok_iff, ensure_ok_iff,
    exists_const, pure_ok_iff]
  refine ⟨rfl, _, ⟨_, ran, rfl, _, rfl, _, rfl, ⟨equal_string.mpr rfl, equal_string.mpr rfl⟩, _,
    rfl, _, rfl, equal_string.mpr rfl, _, rfl, _, rfl, ?_, _, expected, _, rfl, same, rfl⟩, _, rfl,
    _, rfl, ⟨equal_string.mpr rfl, equal_string.mpr rfl⟩, _, rfl, shaped.bundleRef, _, rfl,
    .inl rfl, _, rfl, _, rfl, ⟨present, references⟩, _, rfl, rfl⟩
  exact decide_eq_true rfl

/-- An object of the recorded exports. -/
def recordedObject : String :=
  "object:2222222222222222222222222222222222222222222222222222222222222222"

/-- The references of an export with copies of one object are in shape. -/
theorem recorded_shaped (copies : Nat) :
    Shaped HolodeckSandbox.recordedSource.bundleRef none
      (List.replicate (copies + 1) recordedObject) where
  bundleRef := by decide
  sourceHeadRef := nofun
  some_ := by simp [List.replicate_succ]
  objectRefs := by
    intro text listed
    rw [List.eq_of_mem_replicate listed]
    decide

/-- A manifest that the adapter returns for an export with one object is accepted. -/
theorem recorded_accepted :
    Accepted (Digest.tabulated [] []) (manifestOf HolodeckSandbox.recordedSource.bundleRef none
      (.string "lexical_object_ref") [recordedObject]) := by
  have built := @reported_built [recordedObject] (recorded_shaped 0)
  refine (source_exact (Digest.tabulated [] []) rfl built).mpr ⟨⟨_, rfl, by decide, by simp⟩, ?_⟩
  exact ⟨_, .lexicalObjectRef, rfl, rfl⟩

/-- A manifest of an export with the same object twice is refused. -/
theorem repeated_refused :
    ¬∀ (verifier : Verifier) (bundle manifest : Value String),
      verifiedSource sameNumber verifier bundle = .ok manifest →
        Accepted (Digest.tabulated [] []) manifest := by
  intro accepted
  have built := @reported_built [recordedObject, recordedObject] (recorded_shaped 1)
  have both := (accepted_iff (Digest.tabulated [] []) (recorded_shaped 1) _).mp (accepted _ _ _ built)
  exact absurd both.2.1 (by simp [List.replicate])

end QsolFed.Adapters
