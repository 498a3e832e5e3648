import QsolFed.Canonical.Binding
import QsolFed.Holodeck.Safeguards
import QsolFed.Oracle
import QsolFed.Signed

/-!
# Answers to requests

A response that is consistent with itself and names a request is accepted for it exactly when the
normal form of the name stays within the bound that the name itself was checked against; a name
may grow when it is normalised. The digest of an accepted response determines the response up to
the normal forms of its texts.
-/
namespace QsolFed.Oracle

open Checked Json Canonical Adapters

variable {primitives : Primitives}

/-! ## Digests -/

/-- A digest in hexadecimal has the shape of one. -/
theorem isLowerSha256_sha256Hex (bytes : ByteArray) :
    isLowerSha256 (sha256Hex primitives bytes) = true := by
  have length := length_lowercaseHex (primitives.sha256 bytes).data.toList
  have size : (primitives.sha256 bytes).data.toList.length = 32 := primitives.sha256_size bytes
  rw [isLowerSha256, Bool.and_eq_true]
  constructor
  · rw [sha256Hex, decide_eq_true_eq, length, size]
  · exact List.all_eq_true.mpr (isLowerHex_lowercaseHex _)

/-- Equal digests in hexadecimal are equal digests. -/
theorem sha256Hex_inj {first second : ByteArray}
    (same : sha256Hex primitives first = sha256Hex primitives second) :
    primitives.sha256 first = primitives.sha256 second :=
  ByteArray.ext (Array.ext' (lowercaseHex_inj same))

/-! ## What is sent -/

/-- A member that may be left out has an integer or a text at most. -/
theorem optionalMember_scalar {α : Type} {name : String} {value : Option α}
    {write : α → Value String} (scalar : ∀ value, (write value).Integral ∧ (write value).nesting = 0) :
    ∀ member ∈ optionalMember name (value.map write),
      member.2.Integral ∧ member.2.nesting = 0 := by
  intro member listed
  cases value with
  | none => cases listed
  | some value =>
    obtain rfl := List.mem_singleton.mp listed
    exact scalar value

/-- What is asked for is integral and nests one level. -/
theorem writeQuery_bounds (query : OracleTransportQuery) :
    (writeQuery query).Integral ∧ (writeQuery query).nesting ≤ 1 := by
  have text : ∀ text : String, (Value.string text : Value String).Integral ∧
      (Value.string text : Value String).nesting = 0 := fun _ => ⟨trivial, rfl⟩
  have number : ∀ limit : UInt16, (Codec.uint16.encode limit).Integral ∧
      (Codec.uint16.encode limit).nesting = 0 := fun _ => ⟨⟨rfl, rfl⟩, rfl⟩
  have each : ∀ members, writeQuery query = .object members →
      ∀ member ∈ members, member.2.Integral ∧ member.2.nesting = 0 := by
    rintro _ ⟨⟩ member listed
    simp only [List.mem_append] at listed
    rcases listed with ((((one | two) | three) | four) | five) | six
    · exact optionalMember_scalar text member one
    · exact optionalMember_scalar text member two
    · exact optionalMember_scalar text member three
    · exact optionalMember_scalar text member four
    · exact optionalMember_scalar text member five
    · exact optionalMember_scalar number member six
  constructor
  · exact (integralMembers_iff _).mpr fun member listed => (each _ rfl member listed).1
  · exact Nat.succ_le_succ ((nestingMembers_le_iff _ _).mpr fun member listed =>
      (each _ rfl member listed).2.le)

/-- A question is integral and nests three levels. -/
theorem writeResearch_bounds (research : OracleResearchRequest) :
    (writeResearch research).Integral ∧ (writeResearch research).nesting ≤ 3 := by
  have items : ∀ item ∈ research.requirements.map writeRequirement,
      item.Integral ∧ item.nesting ≤ 1 := by
    intro item listed
    obtain ⟨requirement, -, rfl⟩ := List.mem_map.mp listed
    constructor
    · simp [writeRequirement, Value.Integral, Value.IntegralMembers]
    · simp [writeRequirement, Value.nesting, Value.nestingMembers]
  have integral := (integralItems_iff _).mpr fun item listed => (items item listed).1
  have nesting := (nestingItems_le_iff _ 1).mpr fun item listed => (items item listed).2
  constructor
  · simpa [writeResearch, Value.Integral, Value.IntegralMembers] using integral
  · simp only [writeResearch, Value.nesting, Value.nestingMembers] at nesting ⊢
    omega

/-- A request is integral and nests four levels. -/
theorem writeRequest_bounds (request : OracleTransportRequest) :
    (writeRequest request).Integral ∧ (writeRequest request).nesting ≤ recursionLimit := by
  obtain ⟨integral, nesting⟩ := writeQuery_bounds request.query
  have research : (request.research.elim .null writeResearch).Integral ∧
      (request.research.elim .null writeResearch).nesting ≤ 3 := by
    cases request.research with
    | none => exact ⟨trivial, Nat.zero_le _⟩
    | some research => exact writeResearch_bounds research
  constructor
  · simp [writeRequest, Value.Integral, Value.IntegralMembers, integral, research.1]
  · simp only [writeRequest, Value.nesting, Value.nestingMembers, recursionLimit]
    omega

/-- A valid request has canonical bytes. -/
theorem encoded_of_valid {request : OracleTransportRequest}
    (valid : validateRequest primitives request = .ok ()) :
    ∃ bytes, canonicalStruct primitives (writeRequest request) = .ok bytes := by
  simp only [validateRequest] at valid
  cases asked : request.research with
  | none =>
    simp only [asked, bind_ok_iff, pure_ok_iff] at valid
    obtain ⟨_, -, _, -, _, -, _, -, bytes, encoded, -⟩ := valid
    exact ⟨bytes, encoded⟩
  | some research =>
    simp only [asked, bind_ok_iff, pure_ok_iff] at valid
    obtain ⟨_, -, _, -, _, -, _, -, _, -, bytes, encoded, -⟩ := valid
    exact ⟨bytes, encoded⟩

/-- The name of a valid request has a clean normal form. -/
theorem clean_requestId {request : OracleTransportRequest}
    (valid : validateRequest primitives request = .ok ()) :
    Node.Clean primitives.unicode (primitives.unicode.nfc request.requestId) := by
  obtain ⟨bytes, encoded⟩ := encoded_of_valid valid
  obtain ⟨integral, nesting⟩ := writeRequest_bounds request
  obtain ⟨node, visited⟩ := canonicalize_visits integral nesting ((mapError_ok_iff ..).mp encoded)
  simp only [writeRequest, visit, bind_ok_iff] at visited
  obtain ⟨result, members, -⟩ := visited
  obtain ⟨other, normal⟩ := visitMap_visits members
    (show ("request_id", Value.string request.requestId) ∈ _ by simp)
  simp only [visit, normalizeString, bind_ok_iff, ensure_ok_iff] at normal
  obtain ⟨_, ⟨-, fits, -⟩, -⟩ := normal
  exact ⟨primitives.unicode.idempotent _, fits⟩

/-- Every valid request is sent, and its response is compared with the normal form of its name. -/
theorem sendRequest_iff (request : OracleTransportRequest) (id : String) :
    (∃ bytes, sendRequest primitives request = .ok (bytes, id)) ↔
      validateRequest primitives request = .ok () ∧ id = primitives.unicode.nfc request.requestId := by
  simp only [sendRequest, bind_ok_iff, ensure_ok_iff, pure_ok_iff, Prod.mk.injEq]
  constructor
  · rintro ⟨bytes, _, valid, _, -, _, -, -, rfl⟩
    exact ⟨valid, rfl⟩
  · rintro ⟨valid, rfl⟩
    obtain ⟨bytes, encoded⟩ := encoded_of_valid valid
    have short := canonicalize_short (canonicalize_canonical ((mapError_ok_iff ..).mp encoded))
    exact ⟨bytes, (), valid, bytes, encoded, (), short, rfl, rfl⟩

/-! ## What is answered -/

/-- A response to the request of a name that is consistent with itself. -/
structure Consistent (primitives : Primitives) (id : String) (response : OracleTransportResponse) :
    Prop where
  /-- It is a response of the protocol. -/
  kind : response.protocol = oracleTransportProtocol ∧ response.kind = oracleResponseKind
  /-- It names the request. -/
  named : response.requestId = id
  /-- It returns as many events as it has references. -/
  counted : response.observation.evidenceRefs.length = response.returned.toNat
  /-- These are not too many. -/
  few : response.returned.toNat ≤ 256
  /-- These are among the matches. -/
  among : response.returned.toNat ≤ response.totalMatches.toNat
  /-- It says whether there are more matches. -/
  truncated : response.truncated = decide (response.returned.toNat < response.totalMatches.toNat)
  /-- Its observation is valid. -/
  observed : validateObservation primitives response.observation = .ok ()
  /-- Its references are events of the oracle. -/
  events : ∀ item ∈ response.observation.evidenceRefs, isEventReference item.reference = true
  /-- It authorises nothing and nothing was changed. -/
  harmless : response.transportAuthority = "none" ∧ response.ledgerMutated = false
  /-- The digest of the searched events has the shape of one. -/
  searched : isLowerSha256 response.sourceEventsSha256 = true
  /-- It has canonical bytes. -/
  encoded : ∃ bytes,
    canonicalStruct primitives (Codecs.oracleResponse.encode response) = .ok bytes
  /-- It has the digest of its canonical payload. -/
  digest : ∃ payload canonical, responsePayload response = .ok payload ∧
    canonicalStruct primitives payload = .ok canonical ∧
    response.responseSha256 = sha256Hex primitives canonical

/-- A consistent response is accepted exactly when the name that it answers is bounded. -/
theorem Consistent.accepted_iff {id : String} {response : OracleTransportResponse}
    (consistent : Consistent primitives id response) :
    validateForRequest primitives response id = .ok () ↔ boundedChars id 256 = true := by
  obtain ⟨payload, canonical, covered, digested, digest⟩ := consistent.digest
  obtain ⟨bytes, encoded⟩ := consistent.encoded
  have named := consistent.named
  simp only [validateForRequest, bind_ok_iff, ensure_ok_iff, pure_ok_iff, exists_const]
  constructor
  · rintro ⟨⟨-, -, -, bounded, -⟩, -⟩
    rwa [named] at bounded
  · intro bounded
    refine ⟨⟨consistent.kind.1, consistent.kind.2, named, named ▸ bounded, consistent.few,
      consistent.among, consistent.truncated, consistent.searched, consistent.harmless.2,
      consistent.harmless.1, digest ▸ isLowerSha256_sha256Hex canonical⟩, ?_⟩
    exact ⟨(), (mapError_ok_iff ..).mpr consistent.observed, consistent.counted,
      List.all_eq_true.mpr consistent.events, payload, covered, canonical, digested, digest.symm,
      bytes, encoded, trivial⟩

/-- An observation without events. -/
def emptyObservation : OracleEvidenceObservation where
  schema := oracleObservationSchemaV1
  state := .unknown
  evidenceRefs := []
  suggestedSearches := []
  syntheticInput := false
  truthClaim := false
  evidencePromotion := false
  authorityEffect := "none"

/-- A digest of zeros. -/
def zeroDigest : String := "0000000000000000000000000000000000000000000000000000000000000000"

/-- A response without events to the request of a name. -/
def emptyResponse (id digest : String) : OracleTransportResponse where
  protocol := oracleTransportProtocol
  kind := oracleResponseKind
  requestId := id
  observation := emptyObservation
  totalMatches := 0
  returned := 0
  truncated := false
  sourceEventsSha256 := zeroDigest
  ledgerMutated := false
  transportAuthority := "none"
  responseSha256 := digest

/-- The members of a response without events, but for its digest. -/
def emptyMembers (id : String) : List (String × Value String) := [
  ("protocol", .string oracleTransportProtocol),
  ("kind", .string oracleResponseKind),
  ("request_id", .string id),
  ("observation", Codecs.oracleObservation.encode emptyObservation),
  ("total_matches", .number (Number.ofInt 0)),
  ("returned", .number (Number.ofInt 0)),
  ("truncated", .bool false),
  ("source_events_sha256", .string zeroDigest),
  ("ledger_mutated", .bool false),
  ("transport_authority", .string "none")]

/-- A settled value that is not nested too deep and fits the size limit has canonical bytes. -/
theorem canonicalStruct_settled {value : Value String}
    (settled : Settled primitives.unicode value) (shallow : value.nesting < maxDepth)
    (short : sizeBound value ≤ maxInputBytes) :
    ∃ bytes, canonicalStruct primitives value = .ok bytes := by
  have size := (size_writtenBytes_le value).trans short
  obtain ⟨node, -, encoded, -⟩ := canonicalize_visited rfl settled (settled.integral)
    (shallow.le.trans (by decide)) size shallow size
  exact ⟨_, (mapError_ok_iff ..).mpr encoded⟩

/-- The members of a response without events and few small ones behind them have canonical bytes,
when the name is clean. -/
theorem canonicalStruct_empty {id : String} (clean : Node.Clean primitives.unicode id)
    {tail : List (String × Value String)} (few : tail.length ≤ 1)
    (distinct : ((emptyMembers id ++ tail).map Prod.fst).Nodup)
    (settled : SettledMembers primitives.unicode tail) (shallow : Value.nestingMembers tail ≤ 2)
    (short : sizeBoundMembers tail ≤ 1000) :
    ∃ bytes, canonicalStruct primitives (.object (emptyMembers id ++ tail)) = .ok bytes := by
  have name : ∀ text, isPlainText text = true → Node.Clean primitives.unicode text :=
    fun text checked => (plainText_of_check checked).clean primitives.unicode
  have observed : Settled primitives.unicode (Codecs.oracleObservation.encode emptyObservation) :=
    Plain.settled _ (plain_of_check _ (by decide))
  have zero : Settled primitives.unicode (.number (Number.ofInt 0)) :=
    ⟨0, rfl, by decide, by decide⟩
  have bound : id.utf8ByteSize ≤ 8192 := clean.2
  have observation : sizeBound (Codecs.oracleObservation.encode emptyObservation) ≤ 1500 ∧
      (Codecs.oracleObservation.encode emptyObservation).nesting ≤ 2 := by decide
  have number : sizeBound (.number (Number.ofInt 0)) = 1 := by decide
  have texts : oracleTransportProtocol.utf8ByteSize = 17 ∧ oracleResponseKind.utf8ByteSize = 22 ∧
      zeroDigest.utf8ByteSize = 64 ∧ "none".utf8ByteSize = 4 ∧ "protocol".utf8ByteSize = 8 ∧
      "kind".utf8ByteSize = 4 ∧ "request_id".utf8ByteSize = 10 ∧ "observation".utf8ByteSize = 11 ∧
      "total_matches".utf8ByteSize = 13 ∧ "returned".utf8ByteSize = 8 ∧
      "truncated".utf8ByteSize = 9 ∧ "source_events_sha256".utf8ByteSize = 20 ∧
      "ledger_mutated".utf8ByteSize = 14 ∧ "transport_authority".utf8ByteSize = 19 := by decide
  apply canonicalStruct_settled
  · refine ⟨?_, distinct, ?_⟩
    · rw [List.length_append]
      exact (Nat.add_le_add_left few _).trans (show 10 + 1 ≤ maxObjectMembers by decide)
    · exact ⟨name _ (by decide), name _ (by decide), name _ (by decide), name _ (by decide),
        name _ (by decide), clean, name _ (by decide), observed, name _ (by decide), zero,
        name _ (by decide), zero, name _ (by decide), trivial, name _ (by decide),
        name _ (by decide), name _ (by decide), trivial, name _ (by decide), name _ (by decide),
        settled⟩
  · have deepest : maxDepth = 32 := rfl
    simp only [emptyMembers, List.cons_append, List.nil_append, Value.nesting,
      Value.nestingMembers, deepest]
    omega
  · have most : maxInputBytes = 65536 := rfl
    simp only [emptyMembers, List.cons_append, List.nil_append, sizeBound, sizeBoundMembers,
      texts, most]
    simp only [sizeBound] at observation number
    omega

/-- Every clean name is named by a consistent response. -/
theorem consistent_empty {id : String} (clean : Node.Clean primitives.unicode id) :
    ∃ digest, Consistent primitives id (emptyResponse id digest) := by
  obtain ⟨canonical, digested⟩ := @canonicalStruct_empty primitives id clean [] (Nat.zero_le _)
    (show ((emptyMembers "").map Prod.fst).Nodup by decide) trivial (Nat.zero_le _)
    (Nat.zero_le _)
  have shape := @isLowerSha256_sha256Hex primitives canonical
  simp only [isLowerSha256, Bool.and_eq_true, decide_eq_true_eq, List.all_eq_true] at shape
  have plain : PlainText (sha256Hex primitives canonical) :=
    plainText_of_bytes (fun b member => (Wire.visible_lowerHex (shape.2 b member)).2)
      (shape.1.le.trans (by decide))
  have size : (sha256Hex primitives canonical).utf8ByteSize = 64 := by
    rw [← Text.length_bytes, shape.1]
  have whole := @canonicalStruct_empty primitives id clean
    [("response_sha256", .string (sha256Hex primitives canonical))] (Nat.le_refl _)
    (show ((emptyMembers "" ++ [("response_sha256", Value.null)]).map Prod.fst).Nodup by decide)
    ⟨(plainText_of_check (by decide)).clean _, plain.clean _, trivial⟩ (Nat.zero_le _) (by
      have name : "response_sha256".utf8ByteSize = 15 := by decide
      simp only [sizeBoundMembers, sizeBound, size, name]
      omega)
  have observed : ∃ bytes, canonicalize primitives.unicode (writtenBytes
      (Codecs.oracleObservation.encode emptyObservation)) = .ok bytes :=
    (canonicalize_plain_iff _ (plain_of_check _ (by decide)) (by decide)).mpr
      ((size_writtenBytes_le _).trans (by decide))
  obtain ⟨bytes, observed⟩ := observed
  refine ⟨sha256Hex primitives canonical, {
    kind := ⟨rfl, rfl⟩
    named := rfl
    counted := rfl
    few := Nat.zero_le _
    among := Nat.zero_le _
    truncated := rfl
    observed := ?_
    events := nofun
    harmless := ⟨rfl, rfl⟩
    searched := (by decide : isLowerSha256 zeroDigest = true)
    encoded := whole
    digest := ⟨_, canonical, rfl, digested, rfl⟩ }⟩
  change validateObservation primitives emptyObservation = .ok ()
  have boundary : emptyObservation.evidenceRefs.foldlM (validateReference primitives) ([], 0) =
      .ok ([], 0) := rfl
  simp only [validateObservation, boundary, observed]
  rfl

/-! ## What is determined -/

variable (unicode : Unicode)

/-- An observation with every text in normal form. -/
def normalizedObservation (observation : OracleEvidenceObservation) :
    OracleEvidenceObservation where
  schema := unicode.nfc observation.schema
  state := observation.state
  evidenceRefs := observation.evidenceRefs.map fun item =>
    { item with reference := unicode.nfc item.reference }
  suggestedSearches := observation.suggestedSearches.map fun item =>
    { item with query := unicode.nfc item.query, purpose := unicode.nfc item.purpose }
  syntheticInput := observation.syntheticInput
  truthClaim := observation.truthClaim
  evidencePromotion := observation.evidencePromotion
  authorityEffect := unicode.nfc observation.authorityEffect

/-- A response with every text in normal form. -/
def normalizedResponse (response : OracleTransportResponse) : OracleTransportResponse where
  protocol := unicode.nfc response.protocol
  kind := unicode.nfc response.kind
  requestId := unicode.nfc response.requestId
  observation := normalizedObservation unicode response.observation
  totalMatches := response.totalMatches
  returned := response.returned
  truncated := response.truncated
  sourceEventsSha256 := unicode.nfc response.sourceEventsSha256
  ledgerMutated := response.ledgerMutated
  transportAuthority := unicode.nfc response.transportAuthority
  responseSha256 := unicode.nfc response.responseSha256

variable {unicode}

/-- A reference is told up to its normal form. -/
theorem tells_reference : Tells unicode Codecs.oracleReference fun item =>
    { item with reference := unicode.nfc item.reference } := by
  have told : Tells unicode Codecs.oracleReference _ := tells_iso <| tells_record <|
    tells_cons rfl tells_string <| tells_cons rfl tells_bool tells_nil
  intro one two agree
  have same := told one two agree
  simp only [Prod.map, id, Prod.mk.injEq] at same
  simp only [same]

/-- A search is told up to the normal forms of its texts. -/
theorem tells_search : Tells unicode Codecs.oracleSearch fun item =>
    { item with query := unicode.nfc item.query, purpose := unicode.nfc item.purpose } := by
  have told : Tells unicode Codecs.oracleSearch _ := tells_iso <| tells_record <|
    tells_cons rfl tells_string <| tells_cons rfl tells_string <| tells_cons rfl tells_bool <|
    tells_cons rfl tells_bool tells_nil
  intro one two agree
  have same := told one two agree
  simp only [Prod.map, id, Prod.mk.injEq] at same
  simp only [same]

/-- An observation is told up to the normal forms of its texts. -/
theorem tells_observation :
    Tells unicode Codecs.oracleObservation (normalizedObservation unicode) := by
  have states : ∀ state, PlainText (Codecs.oracleStateName state) := by
    intro state
    cases state <;> exact plainText_of_check (by decide)
  have told : Tells unicode Codecs.oracleObservation _ := tells_iso <| tells_record <|
    tells_cons rfl tells_string <| tells_cons rfl (tells_enumeration states) <|
    tells_cons rfl (tells_list tells_reference) <| tells_cons rfl (tells_list tells_search) <|
    tells_cons rfl tells_bool <| tells_cons rfl tells_bool <| tells_cons rfl tells_bool <|
    tells_cons rfl tells_string tells_nil
  intro one two agree
  have same := told one two agree
  simp only [Prod.map, id, Prod.mk.injEq] at same
  simp only [normalizedObservation, same]

/-- A response without its digest is told up to the normal forms of its texts. -/
theorem response_of_payload {one two : OracleTransportResponse} {left right : Value String}
    (first : responsePayload one = .ok left) (second : responsePayload two = .ok right)
    (agree : Agree unicode left right) (digest : one.responseSha256 = two.responseSha256) :
    normalizedResponse unicode one = normalizedResponse unicode two := by
  obtain rfl := Except.ok.inj first
  obtain rfl := Except.ok.inj second
  have told : TellsFields unicode (fun name => decide (name ≠ "response_sha256"))
      Codecs.oracleResponseFields _ :=
    tells_cons (by decide) tells_string <| tells_cons (by decide) tells_string <|
    tells_cons (by decide) tells_string <| tells_cons (by decide) tells_observation <|
    tells_cons (by decide) tells_uint64 <| tells_cons (by decide) tells_uint16 <|
    tells_cons (by decide) tells_bool <| tells_cons (by decide) tells_string <|
    tells_cons (by decide) tells_bool <| tells_cons (by decide) tells_string <|
    tells_skip tells_nil
  have same := tells_members told agree
  simp only [Prod.map, id, Prod.mk.injEq] at same
  simp only [normalizedResponse, same, digest]

/-- A response nests four levels. -/
theorem shallow_response : ShallowFields Codecs.oracleResponseFields 3 := by
  have reference : Shallow Codecs.oracleReference 1 := shallow_iso <| shallow_record <|
    shallow_cons shallow_string <| shallow_cons shallow_bool shallow_nil
  have search : Shallow Codecs.oracleSearch 1 := shallow_iso <| shallow_record <|
    shallow_cons shallow_string <| shallow_cons shallow_string <| shallow_cons shallow_bool <|
    shallow_cons shallow_bool shallow_nil
  have observation : Shallow Codecs.oracleObservation 3 := shallow_iso <| shallow_record <|
    shallow_cons shallow_string <| shallow_cons shallow_enumeration <|
    shallow_cons (shallow_list reference) <| shallow_cons (shallow_list search) <|
    shallow_cons shallow_bool <| shallow_cons shallow_bool <| shallow_cons shallow_bool <|
    shallow_cons shallow_string shallow_nil
  exact shallow_cons shallow_string <| shallow_cons shallow_string <|
    shallow_cons shallow_string <| shallow_cons observation <| shallow_cons shallow_uint64 <|
    shallow_cons shallow_uint16 <| shallow_cons shallow_bool <| shallow_cons shallow_string <|
    shallow_cons shallow_bool <| shallow_cons shallow_string <|
    shallow_cons shallow_string shallow_nil

/-- An accepted response has the digest of its canonical payload. -/
theorem digest_of_accepted {response : OracleTransportResponse} {id : String}
    (accepted : validateForRequest primitives response id = .ok ()) :
    ∃ payload canonical, responsePayload response = .ok payload ∧
      canonicalStruct primitives payload = .ok canonical ∧
      sha256Hex primitives canonical = response.responseSha256 := by
  simp only [validateForRequest, bind_ok_iff, ensure_ok_iff, exists_const] at accepted
  obtain ⟨-, _, -, -, -, payload, covered, canonical, digested, digest, -⟩ := accepted
  exact ⟨payload, canonical, covered, digested, digest⟩

/-- What the digest of a response covers. -/
def Covered (primitives : Primitives) (response : OracleTransportResponse) : Set ByteArray :=
  { canonical | ∃ payload, responsePayload response = .ok payload ∧
    canonicalStruct primitives payload = .ok canonical }

/-- The consistent responses to a valid request are accepted exactly when the normal form of its
name is bounded; and accepted responses with the same digest, while it is not that of two payloads,
are the same up to the normal forms of their texts. -/
theorem answers_exact (primitives : Primitives) :
    (∀ request bytes id, sendRequest primitives request = .ok (bytes, id) →
      ((∀ response, Consistent primitives id response →
        validateForRequest primitives response id = .ok ()) ↔ boundedChars id 256 = true)) ∧
    ∀ one two first second, validateForRequest primitives one first = .ok () →
      validateForRequest primitives two second = .ok () →
      Set.InjOn primitives.sha256 (Covered primitives one ∪ Covered primitives two) →
      one.responseSha256 = two.responseSha256 →
      normalizedResponse primitives.unicode one = normalizedResponse primitives.unicode two := by
  constructor
  · intro request bytes id sent
    obtain ⟨valid, rfl⟩ := (sendRequest_iff request id).mp ⟨bytes, sent⟩
    constructor
    · intro answered
      obtain ⟨digest, consistent⟩ := consistent_empty (clean_requestId valid)
      exact consistent.accepted_iff.mp (answered _ consistent)
    · exact fun bounded response consistent => consistent.accepted_iff.mpr bounded
  · intro one two first second acceptedOne acceptedTwo distinct same
    obtain ⟨left, leftBytes, coveredOne, encodedOne, digestOne⟩ := digest_of_accepted acceptedOne
    obtain ⟨right, rightBytes, coveredTwo, encodedTwo, digestTwo⟩ := digest_of_accepted acceptedTwo
    have bytes : leftBytes = rightBytes :=
      distinct (.inl ⟨left, coveredOne, encodedOne⟩) (.inr ⟨right, coveredTwo, encodedTwo⟩)
        (sha256Hex_inj (digestOne.trans (same.trans digestTwo.symm)))
    refine response_of_payload coveredOne coveredTwo ?_ same
    obtain rfl := Except.ok.inj coveredOne
    obtain rfl := Except.ok.inj coveredTwo
    have bounds := fun value => shallow_members shallow_response value
      fun name => decide (name ≠ "response_sha256")
    have deep : 3 + 1 ≤ recursionLimit := by decide
    rw [← bytes] at encodedTwo
    exact agree_of_canonicalize ⟨(bounds _).1, (bounds _).1⟩
      ⟨(bounds _).2.trans deep, (bounds _).2.trans deep⟩
      ((mapError_ok_iff ..).mp encodedOne) ((mapError_ok_iff ..).mp encodedTwo)

/-! ## Recorded requests -/

/-- A new request is valid when its name is bounded and the normal form of the name fits. -/
theorem valid_new {id : String} (bounded : boundedChars id 256 = true)
    (short : id.utf8ByteSize ≤ 8192) (fits : (primitives.unicode.nfc id).utf8ByteSize ≤ 8192) :
    validateRequest primitives (newRequest id defaultQuery) = .ok () := by
  have plain : ∀ text, isPlainText text = true → Node.Clean primitives.unicode text :=
    fun text checked => (plainText_of_check checked).clean primitives.unicode
  have clean : Node.Clean primitives.unicode (primitives.unicode.nfc id) :=
    ⟨primitives.unicode.idempotent id, fits⟩
  have taken : visit primitives.unicode (writeRequest (newRequest id defaultQuery)) =
      visit primitives.unicode
        (writeRequest (newRequest (primitives.unicode.nfc id) defaultQuery)) := by
    simp only [writeRequest, newRequest, visit, visitMap, normalizeString_nfc]
  have settled : Settled primitives.unicode
      (writeRequest (newRequest (primitives.unicode.nfc id) defaultQuery)) :=
    ⟨(by decide : 9 ≤ maxObjectMembers),
      (by decide : ["protocol", "kind", "request_id", "query", "research", "synthetic_input",
        "evidence_promotion_requested", "authority_requested",
        "remote_execution_requested"].Nodup),
      plain _ (by decide), plain oracleTransportProtocol (by decide), plain _ (by decide),
      plain oracleRequestKind (by decide), plain _ (by decide), clean, plain _ (by decide),
      ⟨Nat.zero_le _, List.nodup_nil, trivial⟩,
      plain _ (by decide), trivial, plain _ (by decide), trivial, plain _ (by decide), trivial,
      plain _ (by decide), trivial, plain _ (by decide), trivial, trivial⟩
  have size : ∀ name : String, name.utf8ByteSize ≤ 8192 →
      (writtenBytes (writeRequest (newRequest name defaultQuery))).size ≤ maxInputBytes := by
    intro name small
    refine (size_writtenBytes_le _).trans ?_
    have most : maxInputBytes = 65536 := rfl
    have texts : oracleTransportProtocol.utf8ByteSize = 17 ∧ oracleRequestKind.utf8ByteSize = 15 ∧
        "protocol".utf8ByteSize = 8 ∧ "kind".utf8ByteSize = 4 ∧ "request_id".utf8ByteSize = 10 ∧
        "query".utf8ByteSize = 5 ∧ "research".utf8ByteSize = 8 ∧
        "synthetic_input".utf8ByteSize = 15 ∧
        "evidence_promotion_requested".utf8ByteSize = 28 ∧
        "authority_requested".utf8ByteSize = 19 ∧
        "remote_execution_requested".utf8ByteSize = 26 := by decide
    simp only [writeRequest, newRequest, writeQuery, defaultQuery, optionalMember, Option.map,
      Option.elim, List.append_nil, sizeBound, sizeBoundMembers, texts, most]
    omega
  obtain ⟨integral, deep⟩ := writeRequest_bounds (newRequest id defaultQuery)
  obtain ⟨node, -, encoded, -⟩ := canonicalize_visited taken settled integral deep (size id short)
    (show 2 < maxDepth by decide) (size _ fits)
  have written : canonicalStruct primitives (writeRequest (newRequest id defaultQuery)) =
      .ok _ := (mapError_ok_iff ..).mpr encoded
  simp only [validateRequest, written]
  simp only [newRequest, bounded]
  rfl

/-- A consistent response to a recorded request is accepted, and it is the only one with its
payload, up to the normal forms of its texts. -/
theorem recorded_answered : ∃ bytes response,
    sendRequest (Digest.tabulated [] []) (newRequest "oracle-live-test" defaultQuery) =
      .ok (bytes, "oracle-live-test") ∧
    Consistent (Digest.tabulated [] []) "oracle-live-test" response ∧
    validateForRequest (Digest.tabulated [] []) response "oracle-live-test" = .ok () ∧
    ∀ other, validateForRequest (Digest.tabulated [] []) other "oracle-live-test" = .ok () →
      Covered (Digest.tabulated [] []) other = Covered (Digest.tabulated [] []) response →
      other.responseSha256 = response.responseSha256 →
      normalizedResponse Unicode.plain other = normalizedResponse Unicode.plain response := by
  have valid : validateRequest (Digest.tabulated [] [])
      (newRequest "oracle-live-test" defaultQuery) = .ok () :=
    valid_new (by decide) (by decide) (by decide)
  obtain ⟨bytes, sent⟩ := (sendRequest_iff _ _).mpr ⟨valid, rfl⟩
  obtain ⟨digest, consistent⟩ := consistent_empty (clean_requestId valid)
  obtain ⟨exact_, determined⟩ := answers_exact (Digest.tabulated [] [])
  have accepted := (exact_ _ _ _ sent).mpr (by decide) _ consistent
  refine ⟨bytes, _, sent, consistent, accepted, fun other acceptedToo covers same => ?_⟩
  refine determined _ _ _ _ acceptedToo accepted ?_ same
  -- The payloads are the same, so that only one is digested.
  rw [covers, Set.union_self]
  rintro left ⟨payload, covered, encoded⟩ right ⟨other, coveredToo, encodedToo⟩ -
  obtain rfl := Except.ok.inj (covered.symm.trans coveredToo)
  exact Except.ok.inj (encoded.symm.trans encodedToo)

/-- A request that is sent under a name of 256 eighth notes has a consistent response that is not
accepted. -/
theorem recorded_unanswered : ∃ bytes id response,
    sendRequest { Digest.tabulated [] [] with unicode := HolodeckSandbox.notated }
      (newRequest (HolodeckSandbox.notes 256) defaultQuery) = .ok (bytes, id) ∧
    Consistent { Digest.tabulated [] [] with unicode := HolodeckSandbox.notated } id response ∧
    validateForRequest { Digest.tabulated [] [] with unicode := HolodeckSandbox.notated } response
      id ≠ .ok () := by
  have length : (HolodeckSandbox.notes 256).length = 256 := by
    rw [HolodeckSandbox.notes, String.length_ofList, List.length_replicate]
  have bounded : boundedChars (HolodeckSandbox.notes 256) 256 = true := by
    have some_ : HolodeckSandbox.notes 256 ≠ "" := by
      intro empty
      rw [empty] at length
      cases length
    simp [boundedChars, length, some_]
  have long : boundedChars (HolodeckSandbox.notated.nfc (HolodeckSandbox.notes 256)) 256 =
      false := by
    have grown : (HolodeckSandbox.notated.nfc (HolodeckSandbox.notes 256)).length = 768 := by
      have each : (HolodeckSandbox.decomposed (Char.ofNat 0x1D160)).length = 3 := by decide
      simp only [HolodeckSandbox.notated, HolodeckSandbox.notes, String.toList_ofList,
        String.length_ofList, List.length_flatMap, List.map_replicate, List.sum_replicate, each]
      rfl
    simp [boundedChars, grown]
  have valid : validateRequest { Digest.tabulated [] [] with unicode := HolodeckSandbox.notated }
      (newRequest (HolodeckSandbox.notes 256) defaultQuery) = .ok () :=
    valid_new bounded (HolodeckSandbox.size_notes 256 ▸ by decide)
      ((HolodeckSandbox.size_nfc_notes 256).le.trans (by decide))
  obtain ⟨bytes, sent⟩ := (sendRequest_iff _ _).mpr ⟨valid, rfl⟩
  obtain ⟨digest, consistent⟩ := consistent_empty (clean_requestId valid)
  refine ⟨bytes, _, _, sent, consistent, fun accepted => ?_⟩
  have short := consistent.accepted_iff.mp accepted
  exact absurd (long.symm.trans short) (by decide)

end QsolFed.Oracle
