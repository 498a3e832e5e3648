import QsolFed.Envelope.Wire

/-!
# Building envelopes

The development kit builds an unsigned envelope from its fields: it checks the fields on its own,
writes them with a placeholder for the identifier, derives the identifier from that, and writes
them again. Whatever passes its check is built, the protocol reads it back as the envelope with
these fields, and the identifier tells the fields.
-/
namespace QsolFed

open Checked Json Canonical

/-- The fields of an envelope that is built. -/
structure SdkEnvelopeInput where
  /-- The node that sends it. -/
  sender : String
  /-- The node it is for. -/
  recipient : String
  /-- The name of what it carries. -/
  messageClass : String
  /-- The object it refers to. -/
  payloadRef : String
  /-- The provenance of that object. -/
  provenanceRef : Option String
  /-- When it was issued. -/
  issuedAt : String
  /-- When it expires. -/
  expiresAt : Option String

/-- A refusal of the kit. -/
inductive SdkError where
  /-- A code of the kit. -/
  | code (text : String)
  /-- A refusal of the canonical profile, passed on. -/
  | canonical (error : CanonicalError)
  deriving DecidableEq

namespace Sdk

/-- The protocol that is built for. -/
def wireProtocol : String := "qsol-fed/1"

/-- The names of what an envelope carries. -/
def classes : List String := [
  "hello", "capabilities", "evidence.offer", "evidence.request", "hypothesis", "challenge",
  "response", "council.report", "minority.report", "experiment.receipt", "citation",
  "publication"]

/-- The check of the fields. -/
def validate (input : SdkEnvelopeInput) : Except SdkError Unit :=
  ensure (Wire.isNodeId input.sender ∧ Wire.isNodeId input.recipient ∧
    classes.contains input.messageClass ∧ Wire.isSha256Ref input.payloadRef ∧
    input.provenanceRef.all Wire.isSha256Ref ∧ Wire.isWireTimestamp input.issuedAt ∧
    input.expiresAt.all Wire.isWireTimestamp) (.code "sdk_envelope_input_invalid")

/-- The placeholder for the identifier. -/
def zeroRef : String := "sha256:" ++ String.ofList (List.replicate 64 '0')

/-- A text or null. -/
def nullable : Option String → Value String
  | some text => .string text
  | none => .null

/-- The fields with an identifier, as an object. -/
def envelopeValue (input : SdkEnvelopeInput) (messageId : String) : Value String := .object [
  ("protocol", .string wireProtocol),
  ("message_id", .string messageId),
  ("sender", .string input.sender),
  ("recipient", .string input.recipient),
  ("message_class", .string input.messageClass),
  ("payload_ref", .string input.payloadRef),
  ("provenance_ref", nullable input.provenanceRef),
  ("issued_at", .string input.issuedAt),
  ("expires_at", nullable input.expiresAt),
  ("authority_claim", .string "none"),
  ("signature", .null)]

variable (primitives : Primitives)

/-- Build the canonical bytes of an unsigned envelope. -/
def sdkBuildUnsignedEnvelope (input : SdkEnvelopeInput) : Except SdkError ByteArray := do
  validate input
  let provisional ← (canonicalize primitives.unicode
    (writtenBytes (envelopeValue input zeroRef))).mapError .canonical
  let messageId ← (Digest.deriveMessageId primitives provisional).mapError .canonical
  let canonical ← (canonicalize primitives.unicode
    (writtenBytes (envelopeValue input messageId))).mapError .canonical
  let _ ← (FederationEnvelope.fromWire primitives canonical).mapError SdkError.canonical
  pure canonical

/-! ## The envelope that is built -/

variable {primitives} {input : SdkEnvelopeInput}

/-- An envelope carries the fields it was built from, claims nothing and is not signed. -/
structure Carries (input : SdkEnvelopeInput) (envelope : FederationEnvelope) : Prop where
  /-- The protocol. -/
  protocol : envelope.protocol = wireProtocol
  /-- The node that sends it. -/
  sender : envelope.sender = input.sender
  /-- The node it is for. -/
  recipient : envelope.recipient = input.recipient
  /-- What it carries. -/
  messageClass : envelope.messageClass.name = input.messageClass
  /-- The object it refers to. -/
  payloadRef : envelope.payloadRef = input.payloadRef
  /-- The provenance of that object. -/
  provenanceRef : envelope.provenanceRef = input.provenanceRef
  /-- When it was issued. -/
  issuedAt : envelope.issuedAt = input.issuedAt
  /-- When it expires. -/
  expiresAt : envelope.expiresAt = input.expiresAt
  /-- It claims no authority. -/
  authorityClaim : envelope.authorityClaim = .none
  /-- It has no signature. -/
  signature : envelope.signature = ()

/-- The identifier is not among the fields. -/
theorem Carries.withId {envelope : FederationEnvelope} (carries : Carries input envelope)
    (messageId : String) : Carries input { envelope with messageId := messageId } :=
  { carries with }

/-- The listed names are those of the classes. -/
theorem mem_classes (text : String) :
    classes.contains text = true ↔ ∃ messageClass : MessageClass, messageClass.name = text := by
  rw [List.contains_iff_mem, show classes = MessageClass.all.map MessageClass.name from rfl,
    List.mem_map]
  constructor
  · rintro ⟨messageClass, -, same⟩
    exact ⟨messageClass, same⟩
  · rintro ⟨messageClass, same⟩
    exact ⟨messageClass, by cases messageClass <;> decide, same⟩

/-- An envelope that carries fields is written as they are. -/
theorem Carries.encode {envelope : FederationEnvelope} (carries : Carries input envelope) :
    Codecs.envelope.encode envelope = envelopeValue input envelope.messageId := by
  obtain ⟨protocol, sender, recipient, name, payload, provenance, issued, expires, -, -⟩ := carries
  have optional : ∀ value : Option String,
      Codecs.nullableString.encode value = nullable value := by
    intro value
    cases value <;> rfl
  change Value.object [("protocol", .string envelope.protocol),
    ("message_id", .string envelope.messageId), ("sender", .string envelope.sender),
    ("recipient", .string envelope.recipient),
    ("message_class", .string envelope.messageClass.name),
    ("payload_ref", .string envelope.payloadRef),
    ("provenance_ref", Codecs.nullableString.encode envelope.provenanceRef),
    ("issued_at", .string envelope.issuedAt),
    ("expires_at", Codecs.nullableString.encode envelope.expiresAt),
    ("authority_claim", .string "none"), ("signature", .null)] = _
  rw [protocol, sender, recipient, name, payload, provenance, issued, expires, optional, optional]
  rfl

/-- Fields that are carried by one envelope are the same. -/
theorem Carries.unique {other : SdkEnvelopeInput} {envelope : FederationEnvelope}
    (first : Carries input envelope) (second : Carries other envelope) : input = other := by
  cases input
  cases other
  rw [SdkEnvelopeInput.mk.injEq]
  exact ⟨first.sender.symm.trans second.sender, first.recipient.symm.trans second.recipient,
    first.messageClass.symm.trans second.messageClass,
    first.payloadRef.symm.trans second.payloadRef,
    first.provenanceRef.symm.trans second.provenanceRef,
    first.issuedAt.symm.trans second.issuedAt, first.expiresAt.symm.trans second.expiresAt⟩

/-- The fields pass the check exactly when an envelope in shape carries them, under any
reference. -/
theorem validate_iff (input : SdkEnvelopeInput) {messageId : String}
    (reference : Wire.isSha256Ref messageId = true) :
    validate input = .ok () ↔ ∃ envelope : FederationEnvelope,
      Carries input envelope ∧ envelope.Shaped ∧ envelope.messageId = messageId := by
  rw [validate, ensure_ok_iff, mem_classes, Option.all_eq_true, Option.all_eq_true]
  constructor
  · rintro ⟨sender, recipient, ⟨messageClass, name⟩, payload, provenance, issued, expires⟩
    exact ⟨{
      protocol := wireProtocol, messageId, sender := input.sender, recipient := input.recipient
      messageClass, payloadRef := input.payloadRef, provenanceRef := input.provenanceRef
      issuedAt := input.issuedAt, expiresAt := input.expiresAt, authorityClaim := .none
      signature := () }, ⟨rfl, rfl, rfl, name, rfl, rfl, rfl, rfl, rfl, rfl⟩,
      ⟨rfl, reference, sender, recipient, payload, provenance, issued, expires⟩, rfl⟩
  · rintro ⟨envelope, carries, shaped, -⟩
    exact ⟨carries.sender ▸ shaped.sender, carries.recipient ▸ shaped.recipient,
      ⟨_, carries.messageClass⟩, carries.payloadRef ▸ shaped.payloadRef,
      carries.provenanceRef ▸ shaped.provenanceRef, carries.issuedAt ▸ shaped.issuedAt,
      carries.expiresAt ▸ shaped.expiresAt⟩

/-- From an envelope with the placeholder, the one with its own identifier is built. -/
theorem build_of_carries {envelope : FederationEnvelope} (carries : Carries input envelope)
    (shaped : envelope.Shaped) (placeholder : envelope.messageId = zeroRef) :
    ∃ bytes, sdkBuildUnsignedEnvelope primitives input = .ok bytes ∧
      canonicalize primitives.unicode (toVec Codecs.envelope { envelope with
        messageId := Digest.sha256Ref primitives envelope.digestInput }) = .ok bytes := by
  have valid : validate input = .ok () :=
    (validate_iff input (placeholder ▸ shaped.messageId)).mpr
      ⟨envelope, carries, shaped, placeholder⟩
  obtain ⟨provisional, encoded, derived⟩ := FederationEnvelope.encode_total primitives shaped
  have named := carries.withId (Digest.sha256Ref primitives envelope.digestInput)
  have shapedToo := shaped.withId primitives
  obtain ⟨bytes, encodedToo, -⟩ := FederationEnvelope.encode_total primitives shapedToo
  have read := (FederationEnvelope.fromWire_encode_iff shapedToo encodedToo _).mpr ⟨rfl, rfl⟩
  refine ⟨bytes, ?_, encodedToo⟩
  simp only [toVec, carries.encode, placeholder] at encoded
  simp only [toVec, named.encode] at encodedToo
  simp only [sdkBuildUnsignedEnvelope, valid, encoded, derived, encodedToo, read, Except.mapError,
    bind_ok]
  rfl

/-- What is built are the canonical bytes of the envelope in shape that carries the fields and has
its own identifier. -/
theorem build_iff (input : SdkEnvelopeInput) (bytes : ByteArray) :
    sdkBuildUnsignedEnvelope primitives input = .ok bytes ↔ ∃ envelope : FederationEnvelope,
      Carries input envelope ∧ envelope.Shaped ∧
      envelope.messageId = Digest.sha256Ref primitives envelope.digestInput ∧
      canonicalize primitives.unicode (toVec Codecs.envelope envelope) = .ok bytes := by
  have zero : Wire.isSha256Ref zeroRef = true := by decide
  constructor
  · intro built
    have valid : validate input = .ok () := by
      have parts := built
      simp only [sdkBuildUnsignedEnvelope, bind_ok_iff] at parts
      obtain ⟨_, valid, -⟩ := parts
      exact valid
    obtain ⟨envelope, carries, shaped, placeholder⟩ := (validate_iff input zero).mp valid
    obtain ⟨same, builtToo, encoded⟩ :=
      @build_of_carries primitives _ _ carries shaped placeholder
    obtain rfl := Except.ok.inj (builtToo.symm.trans built)
    exact ⟨{ envelope with messageId := Digest.sha256Ref primitives envelope.digestInput },
      carries.withId _, shaped.withId primitives, rfl, encoded⟩
  · rintro ⟨envelope, carries, shaped, identifier, encoded⟩
    have carriesToo := carries.withId zeroRef
    have shapedToo : { envelope with messageId := zeroRef }.Shaped :=
      { shaped with messageId := zero }
    obtain ⟨same, built, encodedToo⟩ :=
      @build_of_carries primitives _ _ carriesToo shapedToo rfl
    have again : { { envelope with messageId := zeroRef } with
        messageId := Digest.sha256Ref primitives
          { envelope with messageId := zeroRef }.digestInput } = envelope := by
      rw [FederationEnvelope.digestInput_messageId, ← identifier]
    rw [again] at encodedToo
    obtain rfl := Except.ok.inj (encodedToo.symm.trans encoded)
    exact built

/-- Whatever passes the check is built, the protocol reads what is built as the envelope that
carries the fields, and fields that are built under one identifier are the same, while it is not
the digest of two inputs. -/
theorem build_complete (primitives : Primitives) :
    (∀ input, (∃ bytes, sdkBuildUnsignedEnvelope primitives input = .ok bytes) ↔
      validate input = .ok ()) ∧
    (∀ input bytes, sdkBuildUnsignedEnvelope primitives input = .ok bytes →
      ∃ envelope, FederationEnvelope.fromWire primitives bytes = .ok envelope ∧
        Carries input envelope) ∧
    ∀ input other bytes others envelope another,
      sdkBuildUnsignedEnvelope primitives input = .ok bytes →
      sdkBuildUnsignedEnvelope primitives other = .ok others →
      FederationEnvelope.fromWire primitives bytes = .ok envelope →
      FederationEnvelope.fromWire primitives others = .ok another →
      Set.InjOn (Digest.sha256Ref primitives) {envelope.digestInput, another.digestInput} →
      envelope.messageId = another.messageId → input = other := by
  have read : ∀ input bytes, sdkBuildUnsignedEnvelope primitives input = .ok bytes →
      ∃ envelope, FederationEnvelope.fromWire primitives bytes = .ok envelope ∧
        Carries input envelope ∧
        envelope.messageId = Digest.sha256Ref primitives envelope.digestInput := by
    intro input bytes built
    obtain ⟨envelope, carries, shaped, identifier, encoded⟩ := (build_iff input bytes).mp built
    exact ⟨envelope,
      (FederationEnvelope.fromWire_encode_iff shaped encoded _).mpr ⟨rfl, identifier⟩, carries,
      identifier⟩
  refine ⟨fun input => ?_, fun input bytes built => ?_, ?_⟩
  · have zero : Wire.isSha256Ref zeroRef = true := by decide
    rw [validate_iff input zero]
    constructor
    · rintro ⟨bytes, built⟩
      obtain ⟨envelope, carries, shaped, -⟩ := (build_iff input bytes).mp built
      exact ⟨{ envelope with messageId := zeroRef }, carries.withId zeroRef,
        { shaped with messageId := zero }, rfl⟩
    · rintro ⟨envelope, carries, shaped, placeholder⟩
      obtain ⟨bytes, built, -⟩ := build_of_carries carries shaped placeholder
      exact ⟨bytes, built⟩
  · obtain ⟨envelope, accepted, carries, -⟩ := read input bytes built
    exact ⟨envelope, accepted, carries⟩
  · intro input other bytes others envelope another built builtToo accepted acceptedToo distinct same
    obtain ⟨found, first, carries, identifier⟩ := read input bytes built
    obtain ⟨foundToo, second, carriesToo, identifierToo⟩ := read other others builtToo
    rw [Except.ok.inj (first.symm.trans accepted)] at carries identifier
    rw [Except.ok.inj (second.symm.trans acceptedToo)] at carriesToo identifierToo
    rw [identifier, identifierToo] at same
    have inputs := distinct (.inl rfl) (.inr rfl) same
    have swapped := carriesToo.withId envelope.messageId
    rw [FederationEnvelope.digestInput_inj inputs] at swapped
    exact carries.unique swapped

/-- Fields of a greeting. -/
def recordedInput : SdkEnvelopeInput where
  sender := "fed:qsol:alpha"
  recipient := "fed:qsol:beta"
  messageClass := "hello"
  payloadRef := zeroRef
  provenanceRef := none
  issuedAt := "2026-08-23T00:00:00Z"
  expiresAt := none

/-- The greeting is built and read back, and only its fields are built as its bytes. -/
theorem recorded_built : ∃ bytes envelope,
    sdkBuildUnsignedEnvelope (Digest.tabulated [] []) recordedInput = .ok bytes ∧
    FederationEnvelope.fromWire (Digest.tabulated [] []) bytes = .ok envelope ∧
    Carries recordedInput envelope ∧
    ∀ other, sdkBuildUnsignedEnvelope (Digest.tabulated [] []) other = .ok bytes →
      recordedInput = other := by
  obtain ⟨total, read, unique⟩ := build_complete (Digest.tabulated [] [])
  obtain ⟨bytes, built⟩ := (total recordedInput).mpr rfl
  obtain ⟨envelope, accepted, carries⟩ := read _ _ built
  refine ⟨bytes, envelope, built, accepted, carries, fun other builtToo => ?_⟩
  refine unique _ _ _ _ _ _ built builtToo accepted accepted ?_ rfl
  rw [Set.pair_eq_singleton]
  exact Set.injOn_singleton _ _

end Sdk

end QsolFed
