import QsolFed.Library.Sorting
import QsolFed.Signing.Verdict

/-!
# Advertising capabilities

A node advertises its capabilities by signing an envelope to itself that refers to them. Whoever
knows the identity of the node verifies what it advertised, however the capabilities were ordered,
and verifies nothing else with the same signed envelope.
-/
namespace QsolFed

open Checked Json Canonical Crypto Identity Api

namespace Codecs

/-- The fields that an advertisement is signed as. -/
def advertisementPayloadFields :=
  Fields.required "schema" .string <|
  Fields.required "node_id" .string <|
  Fields.required "sequence" .uint64 <|
  Fields.required "issued_at" .string <|
  Fields.required "expires_at" .string <|
  Fields.required "capabilities" (Codec.list .string) .nil

/-- What an advertisement is signed as. -/
def advertisementPayload : Codec (String × String × UInt64 × String × String × List String × Unit) :=
  .record advertisementPayloadFields (by decide)

end Codecs

namespace Peering

/-- The envelope that a node signs to advertise an object, before it has an identifier. -/
def advertisementEnvelope (identity : IdentityState) (payloadRef issuedAt expiresAt : String) :
    FederationEnvelope where
  protocol := protocolV1
  messageId := "sha256:" ++ String.ofList (List.replicate 64 '0')
  sender := identity.nodeId
  recipient := identity.nodeId
  messageClass := .capabilities
  payloadRef
  provenanceRef := none
  issuedAt
  expiresAt := some expiresAt
  authorityClaim := .none
  signature := ()

/-- An advertisement of capabilities by a node. -/
def createCapabilityAdvertisement (primitives : Primitives) (identity : IdentityState)
    (signingKey : LocalSigningKey) (sequence : UInt64) (issuedAt expiresAt : String)
    (capabilities : List String) : Except PeeringError CapabilityAdvertisement := do
  validateCapabilitySet capabilities
  let capabilities := sortBy id capabilities
  let issued ← parseTimestamp issuedAt
  let expires ← parseTimestamp expiresAt
  ensure (¬(sequence = 0 ∨ expires ≤ issued ∨
    expires - issued > maxCapabilityAdvertisementLifetimeSeconds))
    (.code "capability_expiry_or_sequence_invalid")
  let payloadRef ← structId primitives (Codecs.advertisementPayload.encode
    (capabilityAdvertisementSchemaV1, identity.nodeId, sequence, issuedAt, expiresAt, capabilities,
      ()))
  let envelope := advertisementEnvelope identity payloadRef issuedAt expiresAt
  let envelopeBytes ← canonicalStruct primitives (Codecs.envelope.encode envelope)
  let messageId ← (Digest.deriveMessageId primitives envelopeBytes).mapError .canonical
  let proof ← (signEnvelope primitives identity signingKey
    { envelope with messageId }).mapError .crypto
  pure
    { schema := capabilityAdvertisementSchemaV1
      nodeId := identity.nodeId
      sequence
      issuedAt
      expiresAt
      capabilities
      proof }

variable {primitives : Primitives}

/-! ## The set of capabilities -/

/-- Capabilities in another order are as valid. -/
theorem validateCapabilitySet_perm {capabilities others : List String}
    (same : capabilities.Perm others) (valid : validateCapabilitySet capabilities = .ok ()) :
    validateCapabilitySet others = .ok () := by
  simp only [validateCapabilitySet, bind_ok_iff, ensure_ok_iff, exists_const, List.all_eq_true]
    at valid ⊢
  obtain ⟨few, shapes, distinct⟩ := valid
  refine ⟨same.length_eq ▸ few, fun text member => shapes text (same.mem_iff.mpr member), ?_⟩
  exact same.nodup_iff.mp distinct

/-- Capabilities in another order are sorted alike. -/
theorem sortBy_capabilities {capabilities others : List String} (same : capabilities.Perm others) :
    sortBy id capabilities = sortBy id others :=
  sortBy_congr id same fun _ _ _ _ equal => equal

/-! ## What is created -/

/-- Everything that holds of a created advertisement. -/
structure Created (primitives : Primitives) (identity : IdentityState)
    (signingKey : LocalSigningKey) (capabilities : List String)
    (advertisement : CapabilityAdvertisement) : Prop where
  /-- The capabilities are valid. -/
  valid : validateCapabilitySet capabilities = .ok ()
  /-- They are sorted. -/
  sorted : advertisement.capabilities = sortBy id capabilities
  /-- The schema is the one of advertisements. -/
  schema : advertisement.schema = capabilityAdvertisementSchemaV1
  /-- The node advertises. -/
  node : advertisement.nodeId = identity.nodeId
  /-- The numbers begin with one. -/
  counted : advertisement.sequence ≠ 0
  /-- The advertisement holds for a while that the signature allows. -/
  lasting : ∃ issued expires, Crypto.parseTimestamp advertisement.issuedAt = .ok issued ∧
    Crypto.parseTimestamp advertisement.expiresAt = .ok expires ∧ issued < expires ∧
    expires - issued ≤ maxCapabilityAdvertisementLifetimeSeconds
  /-- The signed envelope refers to the advertisement. -/
  payload : structId primitives (advertisementPayload advertisement) =
    .ok advertisement.proof.envelope.payloadRef
  /-- The envelope is the one of the advertisement. -/
  envelope : ∃ messageId, advertisement.proof.envelope =
    { advertisementEnvelope identity advertisement.proof.envelope.payloadRef advertisement.issuedAt
        advertisement.expiresAt with messageId := messageId }
  /-- The envelope is signed. -/
  signed : signEnvelope primitives identity signingKey advertisement.proof.envelope =
    .ok advertisement.proof

/-- What holds of an advertisement that is created. -/
theorem created_of_ok {identity : IdentityState} {signingKey : LocalSigningKey} {sequence : UInt64}
    {issuedAt expiresAt : String} {capabilities : List String}
    {advertisement : CapabilityAdvertisement}
    (created : createCapabilityAdvertisement primitives identity signingKey sequence issuedAt
      expiresAt capabilities = .ok advertisement) :
    Created primitives identity signingKey capabilities advertisement := by
  simp only [createCapabilityAdvertisement, bind_ok_iff, ensure_ok_iff, exists_const, pure_ok_iff,
    mapError_ok_iff, parseTimestamp_ok_iff] at created
  obtain ⟨_, valid, issued, start, expires, finish, lasting, payloadRef, payload, bytes, encoded,
    messageId, identifier, proof, signs, rfl⟩ := created
  simp only [not_or, not_le, gt_iff_lt, not_lt] at lasting
  have envelope : proof.envelope =
      { advertisementEnvelope identity payloadRef issuedAt expiresAt with messageId } := by
    obtain ⟨operational, canonical, -, -, -, rfl⟩ := signEnvelope_ok_iff.mp signs
    rfl
  refine ⟨valid, rfl, rfl, rfl, lasting.1, ⟨issued, expires, start, finish, lasting.2⟩, ?_,
    ⟨messageId, ?_⟩, ?_⟩
  · rw [envelope]
    exact payload
  · rw [envelope]
    rfl
  · rw [envelope]
    exact signs

/-- A created advertisement has the number and the times that were asked for. -/
theorem fields_of_ok {identity : IdentityState} {signingKey : LocalSigningKey} {sequence : UInt64}
    {issuedAt expiresAt : String} {capabilities : List String}
    {advertisement : CapabilityAdvertisement}
    (created : createCapabilityAdvertisement primitives identity signingKey sequence issuedAt
      expiresAt capabilities = .ok advertisement) :
    advertisement.sequence = sequence ∧ advertisement.issuedAt = issuedAt ∧
      advertisement.expiresAt = expiresAt := by
  simp only [createCapabilityAdvertisement, bind_ok_iff, pure_ok_iff] at created
  obtain ⟨-, -, -, -, -, -, -, -, -, -, -, -, -, -, -, -, rfl⟩ := created
  exact ⟨rfl, rfl, rfl⟩

/-- The payload of an advertisement is encoded by its codec. -/
theorem advertisementPayload_eq (advertisement : CapabilityAdvertisement) :
    advertisementPayload advertisement = Codecs.advertisementPayload.encode
      (advertisement.schema, advertisement.nodeId, advertisement.sequence, advertisement.issuedAt,
        advertisement.expiresAt, advertisement.capabilities, ()) := rfl

/-- A payload nests twice. -/
theorem nesting_payload (value : String × String × UInt64 × String × String × List String × Unit) :
    (Codecs.advertisementPayload.encode value).nesting ≤ 2 := by
  obtain ⟨schema, nodeId, sequence, issuedAt, expiresAt, capabilities, _⟩ := value
  have listed := nesting_list Codec.string capabilities 0 fun _ _ => Nat.le_refl 0
  refine nesting_record Codecs.advertisementPayloadFields (by decide) _ 1 ?_
  simp only [Codecs.advertisementPayloadFields, Fields.required, Fields.cons, Fields.nil,
    List.map_cons, List.map_nil, List.forall_mem_cons, List.not_mem_nil, false_imp_iff,
    implies_true, and_true]
  exact ⟨Nat.zero_le _, Nat.zero_le _, Nat.zero_le _, Nat.zero_le _, Nat.zero_le _, listed⟩

/-- Verified advertisements with the same payload agree in every field that is signed. -/
theorem AdvertisementVerified.determined {identity : IdentityState}
    {one two : CapabilityAdvertisement}
    (first : AdvertisementVerified primitives one identity)
    (second : AdvertisementVerified primitives two identity) {bytes : ByteArray}
    (encoded : canonicalStruct primitives (advertisementPayload one) = .ok bytes)
    (same : canonicalStruct primitives (advertisementPayload two) = .ok bytes) :
    one.nodeId = two.nodeId ∧ one.sequence = two.sequence ∧ one.issuedAt = two.issuedAt ∧
      one.expiresAt = two.expiresAt ∧ one.capabilities = two.capabilities := by
  have plain := first.plain_payload
  have plainToo := second.plain_payload
  rw [advertisementPayload_eq] at plain plainToo encoded same
  have fields := canonicalStruct_inj Codecs.advertisementPayload plain plainToo
    (fun value => (nesting_payload value).trans_lt (by decide)) encoded same
  simp only [Prod.mk.injEq, and_true] at fields
  exact fields.2

/-- Advertisements with the same signed envelope that are both verified agree in every field,
unless their payloads collide. -/
theorem AdvertisementVerified.unique {identity : IdentityState}
    {one two : CapabilityAdvertisement}
    (first : AdvertisementVerified primitives one identity)
    (second : AdvertisementVerified primitives two identity) (proof : two.proof = one.proof)
    (distinct : Set.InjOn primitives.sha256
      {bytes | canonicalStruct primitives (advertisementPayload one) = .ok bytes ∨
        canonicalStruct primitives (advertisementPayload two) = .ok bytes}) :
    one.nodeId = two.nodeId ∧ one.sequence = two.sequence ∧ one.issuedAt = two.issuedAt ∧
      one.expiresAt = two.expiresAt ∧ one.capabilities = two.capabilities := by
  obtain ⟨bytes, encoded, reference⟩ := canonical_of_structId first.payload
  obtain ⟨others, encodedOther, referenceOther⟩ := canonical_of_structId second.payload
  rw [proof, reference] at referenceOther
  have digests := (Digest.sha256Ref_inj primitives).mp referenceOther
  obtain rfl := distinct (.inl encoded) (.inr encodedOther) digests
  exact first.determined second encoded encodedOther

/-- A created advertisement is verified when the key that signed it is known under an identifier
that does not collide, and the time of issue is within its window. -/
theorem Created.verified {identity : IdentityState} {signingKey : LocalSigningKey}
    {capabilities : List String} {advertisement : CapabilityAdvertisement}
    (created : Created primitives identity signingKey capabilities advertisement)
    (represented : Represented primitives identity)
    (correct : ∀ canonical,
      canonicalEnvelopeBytes primitives advertisement.proof.envelope = .ok canonical →
      signingKey.Signs primitives (envelopeSignatureDomain.toByteArray ++ canonical))
    (apart : signingKey.Apart primitives identity) {key : OperationalKeyState} {issued : Int}
    (known : identity.operationalKeys.get? (signingKey.keyId primitives) = some key)
    (start : Crypto.parseTimestamp advertisement.issuedAt = .ok issued)
    (early : key.validFrom ≤ issued) (late : ∀ until_ ∈ key.validUntil, issued ≤ until_) :
    AdvertisementVerified primitives advertisement identity := by
  obtain ⟨issued_, expires, start_, finish, forward, bounded⟩ := created.lasting
  obtain rfl := Except.ok.inj (start_.symm.trans start)
  obtain ⟨messageId, envelope⟩ := created.envelope
  have issuedAt : advertisement.proof.envelope.issuedAt = advertisement.issuedAt := by
    rw [envelope]
    rfl
  have expiresAt : advertisement.proof.envelope.expiresAt = some advertisement.expiresAt := by
    rw [envelope]
    rfl
  have sender : advertisement.proof.envelope.sender = identity.nodeId := by rw [envelope]; rfl
  have recipient : advertisement.proof.envelope.recipient = identity.nodeId := by
    rw [envelope]
    rfl
  have messageClass : advertisement.proof.envelope.messageClass = .capabilities := by
    rw [envelope]
    rfl
  have shaped := (signEnvelope_shaped created.signed).1
  have timely : defaultClockPolicy.validateEnvelope advertisement.proof.envelope issued_ =
      .ok () := by
    have skew : defaultClockPolicy.maxClockSkewSeconds = 300 := rfl
    have lifetime : defaultClockPolicy.maxSignedMessageLifetimeSeconds =
      maxCapabilityAdvertisementLifetimeSeconds := rfl
    simp only [ClockPolicy.validateEnvelope, issuedAt, expiresAt, start, finish, bind_ok, okOr,
      lifetime, skew, ensure_pos forward, ensure_pos bounded,
      ensure_pos (show issued_ ≤ issued_ + 300 by omega)]
    exact ensure_pos (by omega) _
  have signer : advertisement.proof.keyId = signingKey.keyId primitives ∧
      advertisement.proof.nodeId = identity.nodeId := by
    obtain ⟨operational, canonical, -, -, -, same⟩ := signEnvelope_ok_iff.mp created.signed
    rw [← same]
    exact ⟨rfl, rfl⟩
  refine ⟨created.schema, ?_, created.counted, ?_, created.node, signer.2.trans created.node.symm,
    ⟨sender.trans created.node.symm, recipient.trans created.node.symm, messageClass⟩,
    created.payload, ⟨issuedAt, expiresAt⟩, ⟨expires, finish⟩, issued_, start, ?_⟩
  · rw [created.node, ← sender]
    exact shaped.envelope.sender
  · rw [created.sorted]
    exact validateCapabilitySet_perm (sortBy_perm id capabilities).symm created.valid
  · exact authenticated_of_signed represented created.signed correct apart
      (signer.1.symm ▸ known) timely (issuedAt ▸ start) early late

/-- Capabilities in another order are advertised alike. -/
theorem create_perm {identity : IdentityState} {signingKey : LocalSigningKey} {sequence : UInt64}
    {issuedAt expiresAt : String} {capabilities others : List String}
    {advertisement : CapabilityAdvertisement} (same : capabilities.Perm others)
    (created : createCapabilityAdvertisement primitives identity signingKey sequence issuedAt
      expiresAt capabilities = .ok advertisement) :
    createCapabilityAdvertisement primitives identity signingKey sequence issuedAt expiresAt
      others = .ok advertisement := by
  have valid := (created_of_ok created).valid
  rw [createCapabilityAdvertisement, validateCapabilitySet_perm same valid,
    ← sortBy_capabilities same]
  rw [createCapabilityAdvertisement, valid] at created
  exact created

/-- An advertisement is created when its parts are valid, its payload has canonical bytes and the
identity admits the key. -/
theorem create_total {identity : IdentityState} {signingKey : LocalSigningKey} {sequence : UInt64}
    {issuedAt expiresAt : String} {capabilities : List String} {issued expires : Int}
    {bytes : ByteArray} {key : OperationalKeyState}
    (valid : validateCapabilitySet capabilities = .ok ()) (counted : sequence ≠ 0)
    (start : Crypto.parseTimestamp issuedAt = .ok issued)
    (finish : Crypto.parseTimestamp expiresAt = .ok expires) (forward : issued < expires)
    (bounded : expires - issued ≤ maxCapabilityAdvertisementLifetimeSeconds)
    (encoded : canonicalStruct primitives (Codecs.advertisementPayload.encode
      (capabilityAdvertisementSchemaV1, identity.nodeId, sequence, issuedAt, expiresAt,
        sortBy id capabilities, ())) = .ok bytes)
    (node : Wire.isNodeId identity.nodeId = true)
    (known : identity.operationalKeys.get? (signingKey.keyId primitives) = some key)
    (active : key.status = .active) (notRoot : signingKey.keyId primitives ≠ identity.rootKeyId) :
    ∃ advertisement, createCapabilityAdvertisement primitives identity signingKey sequence issuedAt
      expiresAt capabilities = .ok advertisement := by
  have reference : structId primitives (Codecs.advertisementPayload.encode
      (capabilityAdvertisementSchemaV1, identity.nodeId, sequence, issuedAt, expiresAt,
        sortBy id capabilities, ())) = .ok (Digest.sha256Ref primitives bytes) := by
    have again := canonicalize_canonical ((canonicalStruct_ok_iff ..).mp encoded)
    simp only [structId, encoded, bind_ok, Digest.objectId, again]
    rfl
  have shapes : Wire.isWireTimestamp issuedAt = true ∧ Wire.isWireTimestamp expiresAt = true := by
    simp only [Crypto.parseTimestamp, bind_ok_iff, ensure_ok_iff, exists_const] at start finish
    exact ⟨start.1, finish.1⟩
  let envelope := advertisementEnvelope identity (Digest.sha256Ref primitives bytes) issuedAt
    expiresAt
  have shaped : envelope.Shaped := by
    refine ⟨rfl, ?_, node, node, isSha256Ref_digest primitives _, fun text absent => ?_, shapes.1,
      fun text present => ?_⟩
    · change Wire.isSha256Ref ("sha256:" ++ String.ofList (List.replicate 64 '0')) = true
      decide
    · cases absent
    · cases present
      exact shapes.2
  obtain ⟨canonical, written, derived⟩ := FederationEnvelope.encode_total primitives shaped
  obtain ⟨signedBytes, signing⟩ := FederationEnvelope.canonicalEnvelopeBytes_iff.mpr
    ⟨shaped.withId primitives, rfl⟩
  have proof := signEnvelope_ok_iff.mpr ⟨key, signedBytes, known, ⟨active, rfl, notRoot⟩, signing,
    rfl⟩
  have struct := (canonicalStruct_ok_iff ..).mpr written
  rw [createCapabilityAdvertisement, valid, bind_ok]
  simp only [(parseTimestamp_ok_iff ..).mpr start, (parseTimestamp_ok_iff ..).mpr finish, bind_ok,
    ensure_pos (show ¬(sequence = 0 ∨ expires ≤ issued ∨
      expires - issued > maxCapabilityAdvertisementLifetimeSeconds) by
        simp only [counted, false_or]; omega), reference]
  change ∃ advertisement, (canonicalStruct primitives (Codecs.envelope.encode envelope) >>= _) = _
  rw [struct, bind_ok, derived]
  change ∃ advertisement, (Except.mapError _ (signEnvelope primitives identity signingKey
    { envelope with messageId := Digest.sha256Ref primitives envelope.digestInput }) >>= _) = _
  rw [proof]
  exact ⟨_, rfl⟩

/-- An advertisement that a reachable identity creates with a key whose window contains the time of
issue is verified, at every time from issue to expiry and at no other. Capabilities in another
order are advertised alike. No other advertisement with the same signed envelope is verified. -/
theorem advertisement_exact (primitives : Primitives) {identity : IdentityState}
    (reachable : Reachable primitives identity) {signingKey : LocalSigningKey} {sequence : UInt64}
    {issuedAt expiresAt : String} {capabilities : List String}
    {advertisement : CapabilityAdvertisement}
    (created : createCapabilityAdvertisement primitives identity signingKey sequence issuedAt
      expiresAt capabilities = .ok advertisement)
    (correct : ∀ canonical,
      canonicalEnvelopeBytes primitives advertisement.proof.envelope = .ok canonical →
      signingKey.Signs primitives (envelopeSignatureDomain.toByteArray ++ canonical))
    (apart : signingKey.Apart primitives identity) {key : OperationalKeyState} {issued : Int}
    (known : identity.operationalKeys.get? (signingKey.keyId primitives) = some key)
    (start : Crypto.parseTimestamp issuedAt = .ok issued) (early : key.validFrom ≤ issued)
    (late : ∀ until_ ∈ key.validUntil, issued ≤ until_) :
    verifyCapabilityAdvertisementSignature primitives advertisement identity = .ok () ∧
    (∃ expires, Crypto.parseTimestamp expiresAt = .ok expires ∧ ∀ now,
      verifyCapabilityAdvertisement primitives advertisement identity now = .ok () ↔
        issued ≤ now ∧ now ≤ expires) ∧
    (∀ others, capabilities.Perm others → createCapabilityAdvertisement primitives identity
      signingKey sequence issuedAt expiresAt others = .ok advertisement) ∧
    ∀ other : CapabilityAdvertisement, other.proof = advertisement.proof →
      Set.InjOn primitives.sha256
        {bytes | canonicalStruct primitives (advertisementPayload advertisement) = .ok bytes ∨
          canonicalStruct primitives (advertisementPayload other) = .ok bytes} →
      other.nodeId ≠ advertisement.nodeId ∨ other.sequence ≠ advertisement.sequence ∨
        other.issuedAt ≠ advertisement.issuedAt ∨ other.expiresAt ≠ advertisement.expiresAt ∨
        other.capabilities ≠ advertisement.capabilities →
      verifyCapabilityAdvertisementSignature primitives other identity ≠ .ok () ∧
        ∀ now, verifyCapabilityAdvertisement primitives other identity now ≠ .ok () := by
  have holds := created_of_ok created
  obtain ⟨-, rfl, rfl⟩ := fields_of_ok created
  have verified := holds.verified reachable.represented correct apart known start early late
  have signature := (verifyCapabilityAdvertisementSignature_iff ..).mpr verified
  refine ⟨signature, ?_, fun others same => create_perm same created, ?_⟩
  · obtain ⟨issued_, expires, start_, finish, forward, bounded⟩ := holds.lasting
    obtain rfl := Except.ok.inj (start_.symm.trans start)
    refine ⟨expires, finish, fun now => ?_⟩
    have issues := (parseTimestamp_ok_iff ..).mpr start
    have ends := (parseTimestamp_ok_iff ..).mpr finish
    rw [verifyCapabilityAdvertisement, signature, bind_ok, advertisementIsActive, issues, bind_ok,
      ends, bind_ok, ensure_pos (by omega), bind_ok, ensure_ok_iff]
    omega
  · intro other proof distinct differs
    have refused : verifyCapabilityAdvertisementSignature primitives other identity ≠ .ok () := by
      intro accepted
      have second := (verifyCapabilityAdvertisementSignature_iff ..).mp accepted
      obtain ⟨node, number, issue, expiry, list⟩ := verified.unique second proof distinct
      simp [node, number, issue, expiry, list] at differs
    refine ⟨refused, fun now accepted => refused ?_⟩
    rw [verifyCapabilityAdvertisement, bind_ok_iff] at accepted
    exact accepted.choose_spec.1

/-- The recorded node advertises a capability with its key. -/
theorem recorded_created : ∃ advertisement, createCapabilityAdvertisement recordedPrimitives
    (introduced recordedDocument 1787443200) firstKey 1 "2026-08-23T02:00:00Z"
    "2026-08-23T03:00:00Z" ["assembly/1"] = .ok advertisement := by
  have sorted : sortBy id ["assembly/1"] = ["assembly/1"] := List.mergeSort_singleton _
  obtain ⟨bytes, written⟩ := canonicalJson_of_check recordedPrimitives
    (Codecs.advertisementPayload.encode (capabilityAdvertisementSchemaV1, recordedDocument.nodeId,
      1, "2026-08-23T02:00:00Z", "2026-08-23T03:00:00Z", ["assembly/1"], ()))
    (by decide) (by decide) (by decide)
  have encoded := (canonicalStruct_ok_iff ..).mpr ((canonicalJson_ok_iff ..).mp written)
  refine @create_total recordedPrimitives (introduced recordedDocument 1787443200) firstKey 1
    "2026-08-23T02:00:00Z" "2026-08-23T03:00:00Z" ["assembly/1"] 1787450400 1787454000 bytes
    recordedKey rfl (by decide) rfl rfl (by decide) (by decide) ?_ (by decide) ?_ rfl ?_
  · rw [sorted]
    exact encoded
  · rw [keyId_firstKey]
    rfl
  · rw [keyId_firstKey]
    decide

/-- What the recorded node advertises is verified, and not under the greatest number. -/
theorem advertisement_exact_recorded : ∃ advertisement : CapabilityAdvertisement,
    verifyCapabilityAdvertisement recordedPrimitives advertisement
      (introduced recordedDocument 1787443200) 1787452000 = .ok () ∧
    ∀ now, verifyCapabilityAdvertisement recordedPrimitives
      { advertisement with sequence := 18446744073709551615 }
      (introduced recordedDocument 1787443200) now ≠ .ok () := by
  obtain ⟨advertisement, created⟩ := recorded_created
  have known : (introduced recordedDocument 1787443200).operationalKeys.get?
      (firstKey.keyId recordedPrimitives) = some recordedKey := by
    rw [keyId_firstKey]
    rfl
  obtain ⟨signature, ⟨expires, finish, active⟩, -, unique⟩ := advertisement_exact
    recordedPrimitives recordedDocument_reachable created
    (fun canonical _ => signs_heldKey (by simp [recordedSignatures, firstSigned]) _)
    (firstKey_apart _) known rfl (by decide) (fun until_ present => by cases present)
  have ends : Crypto.parseTimestamp "2026-08-23T03:00:00Z" = .ok 1787454000 := rfl
  obtain rfl := Except.ok.inj (ends.symm.trans finish)
  refine ⟨advertisement, (active 1787452000).mpr ⟨by decide, by decide⟩, ?_⟩
  -- The greatest number is not written, so that the payloads cannot collide.
  have unwritten : ∀ bytes, canonicalStruct recordedPrimitives (advertisementPayload
      { advertisement with sequence := 18446744073709551615 }) ≠ .ok bytes := by
    intro bytes encoded
    have integral : (advertisementPayload
        { advertisement with sequence := 18446744073709551615 }).Integral := by
      simp [advertisementPayload, Value.Integral, Value.IntegralMembers, Codec.uint64, Codec.list,
        Codec.string, Number.Integral, Number.ofInt, integralItems_texts]
    have written := (canonicalJson_ok_iff ..).mpr ((canonicalStruct_ok_iff ..).mp encoded)
    have small := @payload_number_small recordedPrimitives "sequence" _ _ integral
      ((nesting_advertisementPayload _).trans (by decide)) written 18446744073709551615
      (List.mem_cons_of_mem _ (List.mem_cons_of_mem _ List.mem_cons_self))
    exact absurd small (by decide)
  refine (unique { advertisement with sequence := 18446744073709551615 } rfl ?_ (.inr (.inl ?_))).2
  · intro one here two there _
    have first := here.resolve_right (unwritten one)
    have second := there.resolve_right (unwritten two)
    exact Except.ok.inj (first.symm.trans second)
  · rw [(fields_of_ok created).1]
    change (18446744073709551615 : UInt64) ≠ 1
    decide

end Peering

end QsolFed
