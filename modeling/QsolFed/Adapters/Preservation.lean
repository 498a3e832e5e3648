import QsolFed.Adapters
import QsolFed.Holodeck.Codecs

/-!
# Preserved artifacts

An archive keeps a record of a byte string: where it came from, its digest, and whether it is
synthetic. A byte string whose schema names one of the Holodeck artifacts is only kept as
synthetic. The schema is looked up in the untyped value, while the typed readers also take a
record that is written as a list of its fields, and the record of an empty byte string is
confirmed although none is made.
-/
namespace QsolFed.Adapters

open Checked Json Canonical Holodeck

/-- What a preserved artifact counts as. -/
inductive ArkArtifactClass where
  /-- Any object. -/
  | preservationObject
  /-- A synthetic object. -/
  | syntheticCulturalResearch
  deriving DecidableEq

/-- The record of a preserved byte string. -/
structure ArkPreservationObject where
  /-- The schema of the record. -/
  schema : String
  /-- Where the bytes come from. -/
  sourceRef : String
  /-- The digest of the bytes. -/
  contentSha256 : String
  /-- What the bytes count as. -/
  artifactClass : ArkArtifactClass
  /-- Whether they are synthetic. -/
  synthetic : Bool
  /-- Whether they tell real history. -/
  realWorldHistory : Bool
  /-- Whether being kept makes them an authority. -/
  archivalPresenceIsAuthority : Bool
  /-- What the record authorises. -/
  authorityEffect : String
  deriving DecidableEq

/-- A member of a council as an actor of a synthetic world. -/
structure NexusHolodeckActorProjection where
  /-- The schema of the projection. -/
  schema : String
  /-- The session that the member comes from. -/
  sourceSessionRef : String
  /-- The name of the member. -/
  sourceMemberId : String
  /-- The name of the actor. -/
  syntheticActorId : String
  /-- Whether the weight is inherited. -/
  voteWeightInherited : Bool
  /-- Whether the privilege is inherited. -/
  epistemicPrivilegeInherited : Bool
  /-- Whether citizenship is inherited. -/
  citizenshipInherited : Bool
  /-- Whether a role in the governance is inherited. -/
  governanceRoleInherited : Bool
  /-- What the projection authorises. -/
  authorityEffect : String

/-- The schema of preservation records. -/
def arkPreservationSchemaV1 : String := "qsol-fed-ark-preservation/1"

/-- The schema of projected actors. -/
def nexusActorProjectionSchemaV1 : String := "qsol-fed-nexus-holodeck-actor/1"

/-- The fields of a projected actor. -/
def actorProjectionFields :=
  Fields.required "schema" .string <|
  Fields.required "source_session_ref" .string <|
  Fields.required "source_member_id" .string <|
  Fields.required "synthetic_actor_id" .string <|
  Fields.required "vote_weight_inherited" .bool <|
  Fields.required "epistemic_privilege_inherited" .bool <|
  Fields.required "citizenship_inherited" .bool <|
  Fields.required "governance_role_inherited" .bool <|
  Fields.required "authority_effect" .string .nil

/-- A projected actor as an object. -/
def actorProjection : Codec NexusHolodeckActorProjection :=
  (Codec.record actorProjectionFields (by decide)).iso
    (fun (schema, sourceSessionRef, sourceMemberId, syntheticActorId, voteWeightInherited,
        epistemicPrivilegeInherited, citizenshipInherited, governanceRoleInherited,
        authorityEffect, ()) =>
      { schema, sourceSessionRef, sourceMemberId, syntheticActorId, voteWeightInherited,
        epistemicPrivilegeInherited, citizenshipInherited, governanceRoleInherited,
        authorityEffect })
    (fun value =>
      (value.schema, value.sourceSessionRef, value.sourceMemberId, value.syntheticActorId,
        value.voteWeightInherited, value.epistemicPrivilegeInherited,
        value.citizenshipInherited, value.governanceRoleInherited, value.authorityEffect, ()))
    fun _ => rfl

/-! ## Untyped values -/

/-- The value of a JSON document, when each of its numbers can be kept. -/
def readValue (accepts : Number → Bool) (raw : ByteArray) : Option (Value String) := do
  let text ← String.fromUTF8? raw
  let value ← readDocument decodeText recursionLimit text.toList
  if value.numbers accepts then some value else none

/-- The value of a member of an object. A later member replaces an earlier one. -/
def getMember (name : String) : Value String → Option (Value String)
  | .object members => Entries.find name members.reverse
  | _ => none

/-- The text of a string. -/
def asStr : Value String → Option String
  | .string text => some text
  | _ => none

/-- The schemas of Holodeck artifacts. -/
def holodeckSchemas : List String := [
  "qsol-fed-holodeck-program/1", "qsol-fed-holodeck-world-plan/1", "qsol-fed-holodeck-event/1",
  "qsol-fed-holodeck-receipt/1", "qsol-fed-nexus-holodeck-actor/1"]

/-- Whether the untyped value of a byte string has the schema of a Holodeck artifact. -/
def isHolodeckArtifact (accepts : Number → Bool) (bytes : ByteArray) : Bool :=
  match readValue accepts bytes with
  | none => false
  | some value =>
    match (getMember "schema" value).bind asStr with
    | none => false
    | some schema => holodeckSchemas.contains schema

/-! ## Records -/

/-- Whether a class is the synthetic one. -/
def ArkArtifactClass.isSynthetic (artifactClass : ArkArtifactClass) : Bool :=
  artifactClass = .syntheticCulturalResearch

variable (primitives : Primitives) (accepts : Number → Bool)

/-- Make the record of a byte string. -/
def arkPreserve (sourceRef : String) (bytes : ByteArray) (artifactClass : ArkArtifactClass) :
    Except AdapterError ArkPreservationObject := do
  ensure (boundedChars sourceRef maxOracleTextChars ∧ bytes.size ≠ 0)
    (.code "ark_preservation_input_invalid")
  let holodeckArtifact := isHolodeckArtifact accepts bytes
  ensure (¬(holodeckArtifact ∧ artifactClass ≠ .syntheticCulturalResearch))
    (.code "ark_holodeck_reclassification_forbidden")
  let synthetic := artifactClass.isSynthetic
  pure {
    schema := arkPreservationSchemaV1
    sourceRef
    contentSha256 := Digest.sha256Ref primitives bytes
    artifactClass
    synthetic
    -- That something is kept says nothing about whether it happened.
    realWorldHistory := false
    archivalPresenceIsAuthority := false
    authorityEffect := "none" }

/-- Check the record of a byte string. -/
def verifyArkPreservationOffline (object : ArkPreservationObject) (bytes : ByteArray) :
    Except AdapterError Unit :=
  let expectedSynthetic := object.artifactClass.isSynthetic
  ensure (object.schema = arkPreservationSchemaV1 ∧
    boundedChars object.sourceRef maxOracleTextChars ∧
    object.contentSha256 = Digest.sha256Ref primitives bytes ∧
    object.synthetic = expectedSynthetic ∧ object.realWorldHistory = false ∧
    object.archivalPresenceIsAuthority = false ∧ object.authorityEffect = "none" ∧
    ¬(isHolodeckArtifact accepts bytes ∧ object.synthetic = false))
    (.code "ark_preservation_verification_failed")

/-! ## Making and checking -/

variable {primitives accepts}

/-- What a record that describes a byte string says. -/
structure Describes (primitives : Primitives) (accepts : Number → Bool)
    (object : ArkPreservationObject) (bytes : ByteArray) : Prop where
  /-- It has the schema of such records. -/
  schema : object.schema = arkPreservationSchemaV1
  /-- Its source is named. -/
  source : boundedChars object.sourceRef maxOracleTextChars = true
  /-- It has the digest of the bytes. -/
  content : object.contentSha256 = Digest.sha256Ref primitives bytes
  /-- It is synthetic exactly in the synthetic class. -/
  marked : object.synthetic = object.artifactClass.isSynthetic
  /-- It does not claim to be history. -/
  history : object.realWorldHistory = false
  /-- It does not claim authority by being kept. -/
  presence : object.archivalPresenceIsAuthority = false
  /-- It authorises nothing. -/
  authority : object.authorityEffect = "none"
  /-- A Holodeck artifact is synthetic. -/
  kept : ¬(isHolodeckArtifact accepts bytes = true ∧ object.synthetic = false)

/-- The check passes exactly for the records that describe the bytes. -/
theorem verifyArkPreservationOffline_iff (object : ArkPreservationObject) (bytes : ByteArray) :
    verifyArkPreservationOffline primitives accepts object bytes = .ok () ↔
      Describes primitives accepts object bytes := by
  rw [verifyArkPreservationOffline, ensure_ok_iff]
  constructor
  · rintro ⟨schema, source, content, marked, history, presence, authority, kept⟩
    exact ⟨schema, source, content, marked, history, presence, authority, kept⟩
  · rintro ⟨schema, source, content, marked, history, presence, authority, kept⟩
    exact ⟨schema, source, content, marked, history, presence, authority, kept⟩

/-- A class is not the synthetic one exactly when it does not count as synthetic. -/
theorem isSynthetic_iff (artifactClass : ArkArtifactClass) :
    artifactClass ≠ .syntheticCulturalResearch ↔ artifactClass.isSynthetic = false := by
  cases artifactClass <;> simp [ArkArtifactClass.isSynthetic]

/-- The records that are made are those that describe bytes that are not empty. -/
theorem arkPreserve_iff (object : ArkPreservationObject) (bytes : ByteArray) :
    arkPreserve primitives accepts object.sourceRef bytes object.artifactClass = .ok object ↔
      bytes.size ≠ 0 ∧ Describes primitives accepts object bytes := by
  simp only [arkPreserve, bind_ok_iff, ensure_ok_iff, pure_ok_iff, exists_const, isSynthetic_iff]
  constructor
  · rintro ⟨⟨source, some_⟩, kept, made⟩
    rw [← made]
    exact ⟨some_, rfl, source, rfl, rfl, rfl, rfl, rfl, kept⟩
  · rintro ⟨some_, schema, source, content, marked, history, presence, authority, kept⟩
    refine ⟨⟨source, some_⟩, marked ▸ kept, ?_⟩
    cases object
    simp_all

/-- A record that is made has the source and the class that it was made for. -/
theorem arkPreserve_named {sourceRef : String} {bytes : ByteArray}
    {artifactClass : ArkArtifactClass} {object : ArkPreservationObject}
    (made : arkPreserve primitives accepts sourceRef bytes artifactClass = .ok object) :
    arkPreserve primitives accepts object.sourceRef bytes object.artifactClass = .ok object := by
  have again := made
  simp only [arkPreserve, bind_ok_iff, ensure_ok_iff, pure_ok_iff, exists_const] at again
  obtain ⟨-, -, same⟩ := again
  rw [← same] at made ⊢
  exact made

/-! ## Artifacts -/

/-- A byte string that is read as a record with a given schema. -/
def Carries {α : Type} (codec : Codec α) (schemaOf : α → String) (schema : String)
    (bytes : ByteArray) : Prop :=
  ∃ value, fromSlice codec bytes = some value ∧ schemaOf value = schema

/-- A byte string that is read as one of the Holodeck artifacts with its own schema. -/
def HolodeckArtifact (bytes : ByteArray) : Prop :=
  Carries Codecs.holodeckProgram (·.schema) holodeckProgramSchemaV1 bytes ∨
  Carries Codecs.worldPlan (·.schema) holodeckWorldPlanSchemaV1 bytes ∨
  Carries Codecs.holodeckEvent (·.schema) holodeckEventSchemaV1 bytes ∨
  Carries Codecs.holodeckReceipt (·.schema) holodeckReceiptSchemaV1 bytes ∨
  Carries actorProjection (·.schema) nexusActorProjectionSchemaV1 bytes

/-- A projected actor has no numbers. -/
theorem actorProjection_reads : actorProjection.Reads accepts :=
  Codec.iso_reads <| Codec.record_reads <|
    Fields.cons_reads Codec.string_reads <|
    Fields.cons_reads Codec.string_reads <|
    Fields.cons_reads Codec.string_reads <|
    Fields.cons_reads Codec.string_reads <|
    Fields.cons_reads Codec.bool_reads <|
    Fields.cons_reads Codec.bool_reads <|
    Fields.cons_reads Codec.bool_reads <|
    Fields.cons_reads Codec.bool_reads <|
    Fields.cons_reads Codec.string_reads Fields.nil_reads

/-- Distinct members are found from the back as from the front. -/
theorem find_reverse {members : List (String × Value String)} {name : String}
    {item : Value String} (distinct : (members.map Prod.fst).Nodup)
    (found : Entries.find name members = some item) :
    Entries.find name members.reverse = some item := by
  apply Entries.find_of_mem
  · rw [List.map_reverse]
    exact List.nodup_reverse.mpr distinct
  · exact List.mem_reverse.mpr (Entries.mem_of_find found)

/-- A record that begins with its schema is read from an object that has this schema, or from a
list. -/
theorem record_schema {α β : Type} {rest : Fields α}
    {distinct : (Fields.required "schema" .string rest).names.Nodup} {pack : String × α → β}
    {unpack : β → String × α} {inverse : ∀ value, pack (unpack value) = value}
    {schemaOf : β → String} (named : ∀ schema others, schemaOf (pack (schema, others)) = schema)
    {written : Value String} {value : β}
    (decoded : ((Codec.record (Fields.required "schema" .string rest) distinct).iso pack unpack
      inverse).decode written = some value) :
    (∃ members, written = .object members ∧
      (getMember "schema" written).bind asStr = some (schemaOf value)) ∨
      ∃ items, written = .array items := by
  obtain ⟨⟨schema, others⟩, read, rfl⟩ := Option.map_eq_some_iff.mp decoded
  cases written with
  | object members =>
    refine .inl ⟨members, rfl, ?_⟩
    simp only [Codec.record, Option.ite_none_right_eq_some] at read
    obtain ⟨⟨once, -⟩, read⟩ := read
    rw [named]
    cases looked : Entries.find "schema" members with
    | none => simp [Fields.cons, looked, bind] at read
    | some item =>
      simp only [Fields.cons, looked, bind, Option.bind_eq_some_iff, Option.some.injEq,
        Prod.mk.injEq] at read
      obtain ⟨first, head, _, -, rfl, -⟩ := read
      have text : item = .string first := by
        cases item with
        | string text => exact congrArg Value.string (Option.some.inj head)
        | null | bool | number | array | object => cases head
      rw [getMember, find_reverse once looked, text]
      rfl
  | array items => exact .inr ⟨items, rfl⟩
  | null | bool | number | string => cases read

/-- What is read with a schema is a value, and the value is an object with this schema or a
list. -/
theorem Carries.shape {α : Type} {codec : Codec α} {schemaOf : α → String} {schema : String}
    {bytes : ByteArray} (carries : Carries codec schemaOf schema bytes)
    (reads : codec.Reads accepts)
    (shaped : ∀ written value, codec.decode written = some value →
      (∃ members, written = .object members ∧
        (getMember "schema" written).bind asStr = some (schemaOf value)) ∨
        ∃ items, written = .array items) :
    (∃ members, readValue accepts bytes = some (.object members) ∧
      (getMember "schema" (.object members)).bind asStr = some schema) ∨
      ∃ items, readValue accepts bytes = some (.array items) := by
  obtain ⟨value, read, rfl⟩ := carries
  simp only [fromSlice, bind, Option.bind_eq_some_iff] at read
  obtain ⟨text, valid, written, document, decoded⟩ := read
  have whole : readValue accepts bytes = some written := by
    simp only [readValue, valid, document, bind, Option.bind_some, reads written value decoded,
      if_true]
  rcases shaped written value decoded with ⟨members, rfl, found⟩ | ⟨items, rfl⟩
  · exact .inl ⟨members, whole, found⟩
  · exact .inr ⟨items, whole⟩

/-- An artifact is recognised when it is an object, and it is a list otherwise. -/
theorem HolodeckArtifact.shape {bytes : ByteArray} (artifact : HolodeckArtifact bytes)
    (whole : Whole accepts) :
    (∃ members, readValue accepts bytes = some (.object members) ∧
      isHolodeckArtifact accepts bytes = true) ∨
      ∃ items, readValue accepts bytes = some (.array items) := by
  have recognised : ∀ schema ∈ holodeckSchemas,
      ((∃ members, readValue accepts bytes = some (.object members) ∧
        (getMember "schema" (.object members)).bind asStr = some schema) ∨
        ∃ items, readValue accepts bytes = some (.array items)) →
      (∃ members, readValue accepts bytes = some (.object members) ∧
        isHolodeckArtifact accepts bytes = true) ∨
        ∃ items, readValue accepts bytes = some (.array items) := by
    intro schema listed shape
    rcases shape with ⟨members, read, found⟩ | list
    · refine .inl ⟨members, read, ?_⟩
      simp only [isHolodeckArtifact, read, found]
      exact List.contains_iff_mem.mpr listed
    · exact .inr list
  rcases artifact with program | plan | event | receipt | actor
  · exact recognised _ (by decide) <| program.shape (Codecs.holodeckProgram_reads whole)
      fun _ _ decoded => record_schema (fun _ _ => rfl) decoded
  · exact recognised _ (by decide) <| plan.shape (Codecs.worldPlan_reads whole)
      fun _ _ decoded => record_schema (fun _ _ => rfl) decoded
  · exact recognised _ (by decide) <| event.shape (Codecs.holodeckEvent_reads whole)
      fun _ _ decoded => record_schema (fun _ _ => rfl) decoded
  · exact recognised _ (by decide) <| receipt.shape (Codecs.holodeckReceipt_reads whole)
      fun _ _ decoded => record_schema (fun _ _ => rfl) decoded
  · exact recognised _ (by decide) <| actor.shape actorProjection_reads
      fun _ _ decoded => record_schema (fun _ _ => rfl) decoded

/-- An empty byte string has no value. -/
theorem size_of_readValue {bytes : ByteArray} {value : Value String}
    (read : readValue accepts bytes = some value) : bytes.size ≠ 0 := by
  intro empty
  have none_ : bytes = ⟨#[]⟩ := ByteArray.ext (Array.eq_empty_of_size_eq_zero empty)
  have nothing : readValue accepts ⟨#[]⟩ = none := rfl
  rw [none_, nothing] at read
  cases read

/-- The record that would describe the empty byte string. -/
def recordOfNothing (primitives : Primitives) (sourceRef : String)
    (artifactClass : ArkArtifactClass) : ArkPreservationObject where
  schema := arkPreservationSchemaV1
  sourceRef := sourceRef
  contentSha256 := Digest.sha256Ref primitives ⟨#[]⟩
  artifactClass := artifactClass
  synthetic := artifactClass.isSynthetic
  realWorldHistory := false
  archivalPresenceIsAuthority := false
  authorityEffect := "none"

/-- Only one record with a given source and class describes the empty byte string. -/
theorem describes_nothing (object : ArkPreservationObject) :
    Describes primitives accepts object ⟨#[]⟩ ↔
      object = recordOfNothing primitives object.sourceRef object.artifactClass ∧
        boundedChars object.sourceRef maxOracleTextChars = true := by
  constructor
  · rintro ⟨schema, source, content, marked, history, presence, authority, -⟩
    refine ⟨?_, source⟩
    cases object
    simp_all [recordOfNothing]
  · rintro ⟨same, source⟩
    have unseen : isHolodeckArtifact accepts ⟨#[]⟩ = false := rfl
    rw [same] at source ⊢
    exact ⟨rfl, source, rfl, rfl, rfl, rfl, rfl, by simp [unseen]⟩

/-- A record is checked exactly when it is the one that is made, unless the bytes are empty and
the record is that of the empty bytes; and no record of an artifact is made or checked as real
exactly when the artifact is written as an object. -/
theorem preservation_exact (primitives : Primitives) (accepts : Number → Bool)
    (whole : Whole accepts) :
    (∀ object bytes,
      ((verifyArkPreservationOffline primitives accepts object bytes = .ok () ↔
        arkPreserve primitives accepts object.sourceRef bytes object.artifactClass =
          .ok object) ↔
        ¬(bytes.size = 0 ∧ boundedChars object.sourceRef maxOracleTextChars = true ∧
          object = recordOfNothing primitives object.sourceRef object.artifactClass))) ∧
    ∀ bytes, HolodeckArtifact bytes →
      ((∀ object : ArkPreservationObject, object.synthetic = false →
        (∀ sourceRef artifactClass,
          arkPreserve primitives accepts sourceRef bytes artifactClass ≠ .ok object) ∧
        verifyArkPreservationOffline primitives accepts object bytes ≠ .ok ()) ↔
        ∃ members, readValue accepts bytes = some (.object members)) := by
  constructor
  · intro object bytes
    rw [verifyArkPreservationOffline_iff, arkPreserve_iff]
    by_cases empty : bytes.size = 0
    · obtain rfl : bytes = ⟨#[]⟩ := ByteArray.ext (Array.eq_empty_of_size_eq_zero empty)
      rw [describes_nothing]
      tauto
    · tauto
  · intro bytes artifact
    constructor
    · intro refused
      rcases artifact.shape whole with ⟨members, read, -⟩ | ⟨items, read⟩
      · exact ⟨members, read⟩
      · -- A list has no schema, so that it is kept as anything.
        have unseen : isHolodeckArtifact accepts bytes = false := by
          simp [isHolodeckArtifact, read, getMember]
        have described : Describes primitives accepts
            { recordOfNothing primitives "list" .preservationObject with
              contentSha256 := Digest.sha256Ref primitives bytes } bytes :=
          ⟨rfl, (by decide : boundedChars "list" maxOracleTextChars = true), rfl, rfl, rfl, rfl,
            rfl, by simp [unseen]⟩
        have checked := (verifyArkPreservationOffline_iff ..).mpr described
        exact absurd checked (refused _ rfl).2
    · rintro ⟨members, read⟩ object real
      have seen : isHolodeckArtifact accepts bytes = true := by
        rcases artifact.shape whole with ⟨-, -, seen⟩ | ⟨items, list⟩
        · exact seen
        · rw [read] at list
          cases list
      have refused : verifyArkPreservationOffline primitives accepts object bytes ≠ .ok () := by
        intro checked
        exact ((verifyArkPreservationOffline_iff ..).mp checked).kept ⟨seen, real⟩
      refine ⟨fun sourceRef artifactClass made => refused ?_, refused⟩
      have described := ((arkPreserve_iff ..).mp (arkPreserve_named made)).2
      exact (verifyArkPreservationOffline_iff ..).mpr described

/-! ## A recorded artifact -/

/-- Numbers that a machine word or a float can hold. Larger ones do not occur below. -/
def recordedNumbers (number : Number) : Bool :=
  number.fraction = [] && number.exponent = [] && number.integer < 2 ^ 64

/-- Whole numbers of a machine word are among them. -/
theorem recordedNumbers_whole : Whole recordedNumbers := by
  intro number fraction exponent small
  simp only [recordedNumbers, fraction, exponent, decide_true, Bool.true_and]
  exact decide_eq_true small

/-- The digest of the empty byte string. -/
def recordedDigests : Primitives := Digest.tabulated
  [([], "e3b0c44298fc1c149afbf4c8996fb92427ae41e4649b934ca495991b7852b855")] []

/-- A projected actor that is written as a list. -/
def listedActor : Value String := .array [
  .string nexusActorProjectionSchemaV1, .string "session", .string "member", .string "actor",
  .bool false, .bool false, .bool false, .bool false, .string "none"]

/-- A projected actor that is written as an object. -/
def recordedActor : NexusHolodeckActorProjection where
  schema := nexusActorProjectionSchemaV1
  sourceSessionRef := "session"
  sourceMemberId := "member"
  syntheticActorId := "actor"
  voteWeightInherited := false
  epistemicPrivilegeInherited := false
  citizenshipInherited := false
  governanceRoleInherited := false
  authorityEffect := "none"

/-- A value without numbers is read from its own text. -/
theorem read_written {value : Value String} (integral : value.Integral)
    (nests : value.nesting ≤ recursionLimit) (small : value.numbers accepts = true) {α : Type}
    (codec : Codec α) :
    readValue accepts (writtenBytes value) = some value ∧
      fromSlice codec (writtenBytes value) = codec.decode value := by
  have read := readDocument_print value recursionLimit integral nests
  constructor
  · simp only [readValue, writtenBytes, Text.fromUTF8_toByteArray, String.toList_ofList, read,
      bind, Option.bind, small, if_true]
  · simp only [fromSlice, writtenBytes, Text.fromUTF8_toByteArray, String.toList_ofList, read,
      bind, Option.bind]

/-- A checked record that is never made, and an artifact that is kept as real. -/
theorem preservation_inexact : ¬(
    (∀ object bytes,
      (verifyArkPreservationOffline recordedDigests recordedNumbers object bytes = .ok () ↔
        arkPreserve recordedDigests recordedNumbers object.sourceRef bytes
          object.artifactClass = .ok object)) ∨
    ∀ bytes, HolodeckArtifact bytes → ∀ object : ArkPreservationObject,
      object.synthetic = false → ∀ sourceRef artifactClass,
      arkPreserve recordedDigests recordedNumbers sourceRef bytes artifactClass ≠
        .ok object) := by
  rintro (exact_ | refused)
  · have described : Describes recordedDigests recordedNumbers
        (recordOfNothing recordedDigests "nothing" .preservationObject) ⟨#[]⟩ :=
      (describes_nothing _).mpr ⟨rfl, by decide⟩
    have made := (exact_ _ _).mp ((verifyArkPreservationOffline_iff ..).mpr described)
    exact ((arkPreserve_iff ..).mp made).1 rfl
  · have read := @read_written recordedNumbers listedActor (by
        simp [listedActor, Value.Integral, Value.IntegralItems])
      (by decide) (by decide) _ actorProjection
    have artifact : HolodeckArtifact (writtenBytes listedActor) :=
      .inr (.inr (.inr (.inr ⟨recordedActor, read.2, rfl⟩)))
    have unseen : isHolodeckArtifact recordedNumbers (writtenBytes listedActor) = false := by
      rw [isHolodeckArtifact, read.1]
      rfl
    have described : Describes recordedDigests recordedNumbers
        { recordOfNothing recordedDigests "list" .preservationObject with
          contentSha256 := Digest.sha256Ref recordedDigests (writtenBytes listedActor) }
        (writtenBytes listedActor) :=
      ⟨rfl, (by decide : boundedChars "list" maxOracleTextChars = true), rfl, rfl, rfl, rfl,
        rfl, by simp [unseen]⟩
    exact refused _ artifact _ rfl _ _
      ((arkPreserve_iff ..).mpr ⟨size_of_readValue read.1, described⟩)

/-- A recorded actor that is written as an object is not kept as real. -/
theorem recorded_preserved :
    HolodeckArtifact (writtenBytes (actorProjection.encode recordedActor)) ∧
    ∀ object : ArkPreservationObject, object.synthetic = false →
      verifyArkPreservationOffline recordedDigests recordedNumbers object
        (writtenBytes (actorProjection.encode recordedActor)) ≠ .ok () := by
  have read := @read_written recordedNumbers (actorProjection.encode recordedActor)
    (by
      simp [actorProjection, Codec.iso, Codec.record, actorProjectionFields, Fields.cons,
        Fields.nil, Codec.string, Codec.bool, Value.Integral, Value.IntegralMembers])
    (by decide) (by decide) _ actorProjection
  have artifact : HolodeckArtifact (writtenBytes (actorProjection.encode recordedActor)) :=
    .inr (.inr (.inr (.inr ⟨recordedActor, read.2, rfl⟩)))
  refine ⟨artifact, fun object real => ?_⟩
  have kept := ((preservation_exact recordedDigests recordedNumbers recordedNumbers_whole).2 _
    artifact).mpr ⟨_, read.1⟩
  exact (kept object real).2

end QsolFed.Adapters
