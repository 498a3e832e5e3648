import QsolFed.Peering.Extension

/-!
# The local policy for capabilities

The local node decides for itself which capabilities of which peers it uses. A decision is kept in
a canonical file, and the policy that runs is always the one that the file would be opened as. A
capability is used only when the peer is admitted, advertises it with a signature that still
verifies, and the last decision about it was to allow it.
-/
namespace QsolFed

open Checked Json Canonical Crypto Peering

/-- A local decision about a capability. -/
inductive CapabilityDecision where
  | allow
  | deny
  deriving DecidableEq, Repr

/-- The decisions about the capabilities of each node. -/
abbrev CapabilityEntries := OrderedMap String (OrderedMap String CapabilityDecision)

/-- The contents of the file of the policy. -/
structure CapabilityPolicySnapshot where
  /-- The schema name. -/
  schema : String
  /-- The decisions. -/
  entries : CapabilityEntries

namespace Codecs

/-- The wire name of a decision. -/
def capabilityDecisionName : CapabilityDecision → String
  | .allow => "allow"
  | .deny => "deny"

/-- A decision by name. -/
def capabilityDecision : Codec CapabilityDecision :=
  .enumeration capabilityDecisionName [.allow, .deny] (by intro value; cases value <;> decide)

/-- The fields of the file of the policy. -/
def capabilityPolicyFields :=
  Fields.required "schema" .string <|
  Fields.required "entries" capabilityDecision.dictionary.dictionary .nil

/-- The file of the policy as an object. -/
def capabilityPolicy : Codec CapabilityPolicySnapshot :=
  (Codec.record capabilityPolicyFields (by decide)).iso
    (fun (schema, entries, ()) => { schema, entries })
    (fun value => (value.schema, value.entries, ()))
    fun _ => rfl

end Codecs

/-- The policy that runs. -/
structure LocalCapabilityPolicy where
  /-- The decisions. -/
  entries : CapabilityEntries

namespace LocalCapabilityPolicy

/-- The schema of the file of the policy. -/
def capabilityPolicySchemaV1 : String := "qsol-fed-capability-policy/1"

variable (primitives : Primitives)

/-- Every decision is about a capability of a node. -/
def entriesValid (entries : CapabilityEntries) : Bool :=
  entries.entries.all fun (node, capabilities) =>
    Wire.isNodeId node && capabilities.entries.all fun (capability, _) =>
      Wire.isCapabilityId capability

/-- The policy that a file is opened as. -/
def openFile : Option ByteArray → Except PeeringError LocalCapabilityPolicy
  | none => pure ⟨.empty⟩
  | some raw => do
    requireExactCanonical primitives raw
    let snapshot ← okOr (fromSlice Codecs.capabilityPolicy raw) .schema
    ensure (snapshot.schema = capabilityPolicySchemaV1) (.code "capability_policy_corrupt")
    ensure (entriesValid snapshot.entries) (.code "capability_policy_corrupt")
    pure ⟨snapshot.entries⟩

/-- The decision about a capability of a node. -/
def decision (policy : LocalCapabilityPolicy) (nodeId capability : String) : CapabilityDecision :=
  ((policy.entries.get? nodeId).bind fun values => values.get? capability).getD .deny

/-- The decisions with one more. -/
def staged (policy : LocalCapabilityPolicy) (nodeId capability : String)
    (decision : CapabilityDecision) : CapabilityEntries :=
  policy.entries.insert nodeId
    (((policy.entries.get? nodeId).getD .empty).insert capability decision)

/-- The bytes of the file of the policy. -/
def persisted (entries : CapabilityEntries) : Except PeeringError ByteArray :=
  canonicalStruct primitives
    (Codecs.capabilityPolicy.encode ⟨capabilityPolicySchemaV1, entries⟩)

/-- The local node decides: the file is replaced, and then the policy that runs. -/
def set (policy : LocalCapabilityPolicy) (nodeId capability : String)
    (decision : CapabilityDecision) : Except PeeringError (ByteArray × LocalCapabilityPolicy) := do
  ensure (Wire.isNodeId nodeId ∧ Wire.isCapabilityId capability)
    (.code "capability_policy_key_invalid")
  let next := policy.staged nodeId capability decision
  let bytes ← persisted primitives next
  pure (bytes, ⟨next⟩)

/-- A capability of a peer is advertised, and the policy allows it. -/
def advertisedAndAllowed (policy : LocalCapabilityPolicy) (peer : PeerRecord) (capability : String)
    (nowUnix : Int) : Bool :=
  if peer.state ≠ .admitted then false
  else
    match peer.capabilityAdvertisement with
    | none => false
    | some advertisement =>
      match advertisementIsActive advertisement nowUnix with
      | .error _ => false
      | .ok () =>
        advertisement.capabilities.any (fun value => value = capability) &&
          decide (policy.decision peer.nodeId capability = .allow)

/-! ## The file -/

variable {primitives}

/-- Every decision is about a capability of a node. -/
theorem entriesValid_iff (entries : CapabilityEntries) : entriesValid entries = true ↔
    ∀ node values, entries.get? node = some values → Wire.isNodeId node = true ∧
      ∀ capability decision, values.get? capability = some decision →
        Wire.isCapabilityId capability = true := by
  simp only [entriesValid, List.all_eq_true, Bool.and_eq_true, Prod.forall, OrderedMap.mem_entries]

/-- The file of valid decisions is narrow and shallow. -/
theorem narrow_snapshot {entries : CapabilityEntries} (valid : entriesValid entries = true) :
    Narrow (Codecs.capabilityPolicy.encode ⟨capabilityPolicySchemaV1, entries⟩) ∧
      (Codecs.capabilityPolicy.encode ⟨capabilityPolicySchemaV1, entries⟩).nesting ≤ 3 := by
  have each := (entriesValid_iff entries).mp valid
  have decisions : ∀ decision, Narrow (Codecs.capabilityDecision.encode decision) := fun decision =>
    Plain.narrow _ (plain_of_check _ (by cases decision <;> decide))
  have dictionary : Narrow (Codecs.capabilityDecision.dictionary.dictionary.encode entries) := by
    refine narrow_dictionary _ entries fun node values stored => ?_
    obtain ⟨shape, inner⟩ := each node values stored
    refine ⟨(plainText_of_nodeId shape).1, narrow_dictionary _ values fun name decision found => ?_⟩
    have visible := Wire.visible_of_capabilityId (inner name decision found)
    exact ⟨Text.ascii_of_bytes fun b listed => (visible b listed).2, decisions decision⟩
  have schema : PlainText capabilityPolicySchemaV1 := plainText_of_check (by decide)
  constructor
  · refine narrow_record Codecs.capabilityPolicyFields (by decide) _ (by decide) ?_
    simp only [Codecs.capabilityPolicyFields, Fields.required, Fields.cons, Fields.nil,
      List.map_cons, List.map_nil, List.forall_mem_cons, List.not_mem_nil, false_imp_iff,
      implies_true, and_true]
    exact ⟨schema.1, dictionary⟩
  · refine nesting_record Codecs.capabilityPolicyFields (by decide) _ 2 ?_
    have inner := nesting_dictionary Codecs.capabilityDecision.dictionary entries 1
      fun values => nesting_dictionary Codecs.capabilityDecision values 0 fun _ => Nat.le_refl 0
    simp only [Codecs.capabilityPolicyFields, Fields.required, Fields.cons, Fields.nil,
      List.map_cons, List.map_nil, List.forall_mem_cons, List.not_mem_nil, false_imp_iff,
      implies_true, and_true]
    exact ⟨Nat.zero_le _, inner⟩

/-- The decisions fit the canonical profile. -/
def Fits (entries : CapabilityEntries) : Prop :=
  entries.entries.length ≤ maxObjectMembers ∧
    (∀ node values, entries.get? node = some values →
      values.entries.length ≤ maxObjectMembers ∧ ∀ capability decision,
        values.get? capability = some decision → capability.utf8ByteSize ≤ maxStringUtf8) ∧
    (writtenBytes (Codecs.capabilityPolicy.encode ⟨capabilityPolicySchemaV1, entries⟩)).size ≤
      maxInputBytes

/-- Valid decisions have a file exactly when they fit. -/
theorem persisted_iff {entries : CapabilityEntries} (valid : entriesValid entries = true) :
    (∃ raw, persisted primitives entries = .ok raw) ↔ Fits entries := by
  obtain ⟨narrow, shallow⟩ := narrow_snapshot valid
  have each := (entriesValid_iff entries).mp valid
  have decisions : ∀ decision, Plain (Codecs.capabilityDecision.encode decision) := fun decision =>
    plain_of_check _ (by cases decision <;> decide)
  have names : ∀ {node values capability decision}, entries.get? node = some values →
      values.get? capability = some decision → ∀ c ∈ capability.toList, Text.Ascii c := by
    intro node values capability decision stored found
    have visible := Wire.visible_of_capabilityId ((each node values stored).2 _ _ found)
    exact Text.ascii_of_bytes fun b listed => (visible b listed).2
  have dictionary : Plain (Codecs.capabilityDecision.dictionary.dictionary.encode entries) ↔
      entries.entries.length ≤ maxObjectMembers ∧ ∀ node values,
        entries.get? node = some values → values.entries.length ≤ maxObjectMembers ∧
          ∀ capability decision, values.get? capability = some decision →
            capability.utf8ByteSize ≤ maxStringUtf8 := by
    simp only [plain_dictionary_iff]
    refine and_congr_right fun _ => forall₃_congr fun node values stored => ?_
    constructor
    · rintro ⟨-, few, inner⟩
      exact ⟨few, fun capability decision found => (inner capability decision found).1.2⟩
    · rintro ⟨few, inner⟩
      exact ⟨plainText_of_nodeId (each node values stored).1, few, fun capability decision found =>
        ⟨⟨names stored found, inner capability decision found⟩, decisions decision⟩⟩
  constructor
  · rintro ⟨raw, encoded⟩
    have accepted := (canonicalStruct_ok_iff ..).mp encoded
    have plain := plain_of_canonicalize narrow (shallow.trans (by decide)) accepted
    have member : ("entries", Codecs.capabilityDecision.dictionary.dictionary.encode entries) ∈
        Codecs.capabilityPolicyFields.encode (capabilityPolicySchemaV1, entries, ()) := by
      simp [Codecs.capabilityPolicyFields, Fields.required, Fields.cons]
    obtain ⟨few, inner⟩ := dictionary.mp (plain_of_member plain.2.2 member)
    exact ⟨few, inner, canonicalize_short accepted⟩
  · rintro ⟨few, inner, short⟩
    refine (canonicalStruct_iff ?_ (shallow.trans_lt (by decide))).mpr short
    refine plain_record Codecs.capabilityPolicyFields (by decide) _ (by decide) (by decide) ?_
    simp only [Codecs.capabilityPolicyFields, Fields.required, Fields.cons, Fields.nil,
      List.map_cons, List.map_nil, List.forall_mem_cons, List.not_mem_nil, false_imp_iff,
      implies_true, and_true]
    exact ⟨plainText_of_check (by decide), dictionary.mpr ⟨few, inner⟩⟩

/-- The file of a policy is opened as that policy. -/
theorem openFile_persisted {entries : CapabilityEntries} {raw : ByteArray}
    (valid : entriesValid entries = true) (encoded : persisted primitives entries = .ok raw) :
    openFile primitives (some raw) = .ok ⟨entries⟩ := by
  obtain ⟨narrow, shallow⟩ := narrow_snapshot valid
  have plain := plain_of_canonicalize narrow (shallow.trans (by decide))
    ((canonicalStruct_ok_iff ..).mp encoded)
  have read := fromSlice_struct Codecs.capabilityPolicy _ plain (shallow.trans_lt (by decide))
    encoded
  simp only [openFile, requireExactCanonical_of_struct encoded, read, okOr, bind_ok, ensure_pos,
    valid]
  rfl

/-- What a file is opened as is valid. -/
theorem entriesValid_openFile {file : Option ByteArray} {policy : LocalCapabilityPolicy}
    (opened : openFile primitives file = .ok policy) : entriesValid policy.entries = true := by
  cases file with
  | none =>
    cases opened
    rfl
  | some raw =>
    simp only [openFile, bind_ok_iff, ensure_ok_iff, pure_ok_iff] at opened
    obtain ⟨-, -, snapshot, -, -, -, -, valid, rfl⟩ := opened
    exact valid

/-- A decision is changed for one capability of one node. -/
theorem decision_staged (policy : LocalCapabilityPolicy) (nodeId capability : String)
    (decision : CapabilityDecision) (otherNode otherCapability : String) :
    LocalCapabilityPolicy.decision ⟨policy.staged nodeId capability decision⟩ otherNode
        otherCapability =
      if otherNode = nodeId ∧ otherCapability = capability then decision
      else policy.decision otherNode otherCapability := by
  by_cases sameNode : otherNode = nodeId
  · subst sameNode
    by_cases sameCapability : otherCapability = capability
    · subst sameCapability
      simp [LocalCapabilityPolicy.decision, staged]
    · cases stored : policy.entries.get? otherNode <;>
        simp [LocalCapabilityPolicy.decision, staged, stored, sameCapability,
          OrderedMap.get?_insert]
  · simp [LocalCapabilityPolicy.decision, staged, sameNode, OrderedMap.get?_insert]

/-- The decisions stay about capabilities of nodes. -/
theorem entriesValid_staged {policy : LocalCapabilityPolicy}
    (valid : entriesValid policy.entries = true) {nodeId capability : String}
    (decision : CapabilityDecision) (node : Wire.isNodeId nodeId = true)
    (shape : Wire.isCapabilityId capability = true) :
    entriesValid (policy.staged nodeId capability decision) = true := by
  rw [entriesValid_iff] at valid ⊢
  intro other values stored
  rw [staged, OrderedMap.get?_insert] at stored
  split_ifs at stored with here
  · obtain rfl := Option.some.inj stored
    refine ⟨here ▸ node, fun name value found => ?_⟩
    rw [OrderedMap.get?_insert] at found
    split_ifs at found with same
    · exact same ▸ shape
    · cases known : policy.entries.get? nodeId with
      | none =>
        rw [known] at found
        cases found
      | some before =>
        rw [known] at found
        exact (valid nodeId before known).2 name value found
  · exact valid other values stored

/-- A decision is taken exactly when its key is well formed and the file can be written. -/
theorem set_ok_iff (policy next : LocalCapabilityPolicy) (nodeId capability : String)
    (decision : CapabilityDecision) (raw : ByteArray) :
    policy.set primitives nodeId capability decision = .ok (raw, next) ↔
      (Wire.isNodeId nodeId = true ∧ Wire.isCapabilityId capability = true) ∧
        persisted primitives (policy.staged nodeId capability decision) = .ok raw ∧
        next = ⟨policy.staged nodeId capability decision⟩ := by
  simp only [set, bind_ok_iff, ensure_ok_iff, exists_const, pure_ok_iff, Prod.mk.injEq]
  constructor
  · rintro ⟨key, _, encoded, rfl, rfl⟩
    exact ⟨key, encoded, rfl⟩
  · rintro ⟨key, encoded, rfl⟩
    exact ⟨key, raw, encoded, rfl, rfl⟩

/-! ## Runs -/

/-- The file of a policy and the policy that runs. -/
structure Running where
  /-- The contents of the file, if there is one. -/
  file : Option ByteArray
  /-- The policy that runs. -/
  live : LocalCapabilityPolicy

/-- What happens to a policy. -/
inductive Event where
  /-- The local node decides, with success or without. -/
  | decided (nodeId capability : String) (decision : CapabilityDecision)
    (result : Except PeeringError Unit)
  /-- The file is opened again. -/
  | reopened

/-- One thing happens to a policy. -/
def Step (primitives : Primitives) (before : Running) : Event → Running → Prop
  | .decided nodeId capability decision (.ok ()), after => ∃ raw,
    before.live.set primitives nodeId capability decision = .ok (raw, after.live) ∧
      after.file = some raw
  | .decided nodeId capability decision (.error error), after =>
    before.live.set primitives nodeId capability decision = .error error ∧ after = before
  | .reopened, after =>
    openFile primitives before.file = .ok after.live ∧ after.file = before.file

/-- The policy before its first decision. -/
def fresh : Running := ⟨none, ⟨.empty⟩⟩

/-- The last decision about a capability of a node after one more event. -/
def latest (nodeId capability : String) (last : Option CapabilityDecision) :
    Event → Option CapabilityDecision
  | .decided node name decision (.ok ()) =>
    if nodeId = node ∧ capability = name then some decision else last
  | .decided _ _ _ (.error _) | .reopened => last

/-- The last successful decision about a capability of a node. -/
def lastDecision (nodeId capability : String) (events : List Event) : Option CapabilityDecision :=
  events.foldl (latest nodeId capability) none

/-- The policy that runs is the one that its file is opened as, and follows the last decisions. -/
structure Follows (primitives : Primitives) (events : List Event) (state : Running) : Prop where
  /-- Every decision is about a capability of a node. -/
  valid : entriesValid state.live.entries = true
  /-- The file is opened as the policy that runs. -/
  saved : openFile primitives state.file = .ok state.live
  /-- The decisions are the last ones. -/
  last : ∀ nodeId capability, state.live.decision nodeId capability =
    (lastDecision nodeId capability events).getD .deny

/-- The policy before its first decision follows none. -/
theorem follows_fresh : Follows primitives [] fresh :=
  ⟨rfl, rfl, fun _ _ => rfl⟩

/-- What happens to a policy keeps it true to the last decisions. -/
theorem Follows.step {events : List Event} {before after : Running} {event : Event}
    (follows : Follows primitives events before) (stepped : Step primitives before event after) :
    Follows primitives (events ++ [event]) after := by
  have appended : ∀ nodeId capability, lastDecision nodeId capability (events ++ [event]) =
      latest nodeId capability (lastDecision nodeId capability events) event := by
    intro nodeId capability
    rw [lastDecision, List.foldl_append]
    rfl
  cases event with
  | reopened =>
    obtain ⟨opened, file⟩ := stepped
    rw [follows.saved] at opened
    have live : after.live = before.live := (Except.ok.inj opened).symm
    refine ⟨live ▸ follows.valid, ?_, fun nodeId capability => ?_⟩
    · rw [file, live]
      exact follows.saved
    · rw [appended, live]
      exact follows.last nodeId capability
  | decided nodeId capability decision result =>
    cases result with
    | error error =>
      obtain ⟨-, rfl⟩ := stepped
      refine ⟨follows.valid, follows.saved, fun otherNode other => ?_⟩
      rw [appended]
      exact follows.last otherNode other
    | ok value =>
      obtain ⟨raw, decided, file⟩ := stepped
      obtain ⟨⟨node, shape⟩, encoded, live⟩ := (set_ok_iff ..).mp decided
      have valid := entriesValid_staged follows.valid decision node shape
      refine ⟨live ▸ valid, ?_, fun otherNode other => ?_⟩
      · rw [file, live]
        exact openFile_persisted valid encoded
      · rw [appended, live, decision_staged, latest]
        split_ifs with here
        · rfl
        · exact follows.last otherNode other

/-- Every policy follows the last decisions. -/
theorem Follows.of_run {events : List Event} {state : Running}
    (run : Run (Step primitives) fresh events state) : Follows primitives events state :=
  run.invariant (Follows primitives) follows_fresh
    fun _ _ _ _ _ follows stepped => follows.step stepped

/-! ## Use of a capability -/

/-- A capability is used exactly when each of these holds. -/
theorem advertisedAndAllowed_iff (policy : LocalCapabilityPolicy) (peer : PeerRecord)
    (capability : String) (nowUnix : Int) :
    policy.advertisedAndAllowed peer capability nowUnix = true ↔
      peer.state = .admitted ∧ ∃ advertisement, peer.capabilityAdvertisement = some advertisement ∧
        advertisementIsActive advertisement nowUnix = .ok () ∧
        capability ∈ advertisement.capabilities ∧
        policy.decision peer.nodeId capability = .allow := by
  by_cases admitted : peer.state = .admitted
  · cases stored : peer.capabilityAdvertisement with
    | none => simp [advertisedAndAllowed, stored]
    | some advertisement =>
      cases active : advertisementIsActive advertisement nowUnix with
      | error error => simp [advertisedAndAllowed, stored, active]
      | ok value => simp [advertisedAndAllowed, admitted, stored, active]
  · simp [advertisedAndAllowed, admitted]

/-- An advertisement holds exactly within its times, which are close enough. -/
theorem advertisementIsActive_iff (advertisement : CapabilityAdvertisement) (nowUnix : Int) :
    advertisementIsActive advertisement nowUnix = .ok () ↔ ∃ issued expires,
      Crypto.parseTimestamp advertisement.issuedAt = .ok issued ∧
      Crypto.parseTimestamp advertisement.expiresAt = .ok expires ∧ issued < expires ∧
      expires - issued ≤ maxCapabilityAdvertisementLifetimeSeconds ∧
      issued ≤ nowUnix ∧ nowUnix ≤ expires := by
  simp only [advertisementIsActive, bind_ok_iff, ensure_ok_iff, exists_const, parseTimestamp_ok_iff,
    not_or, Int.not_le, Int.not_lt, gt_iff_lt]
  constructor
  · rintro ⟨issued, one, expires, two, ⟨order, near⟩, late, early⟩
    exact ⟨issued, expires, one, two, order, near, late, early⟩
  · rintro ⟨issued, expires, one, two, order, near, late, early⟩
    exact ⟨issued, one, expires, two, ⟨order, near⟩, late, early⟩

end LocalCapabilityPolicy

end QsolFed
