import QsolFed.Encoding
import QsolFed.Library.Effect

/-!
# The federation assembly

The registry of members, the proposals with their electorates and votes, and the receipts that
close them. An operation checks what it is given against the registry and then changes it in
steps, so that a refusal leaves behind whatever was changed before it. The identities of proposals
and receipts are references to their canonical bytes, and the reference to an electorate is the
digest of its members in order.
-/
namespace QsolFed

open Checked Json

/-- A refusal of the assembly. -/
inductive AssemblyError where
  /-- A code of the assembly. -/
  | code (text : String)
  /-- A refusal of the canonical profile, passed on. -/
  | canonical (error : CanonicalError)
  deriving DecidableEq, Repr

/-- Whether a member takes part. -/
inductive AssemblyMemberStatus where
  | active
  | withdrawn
  deriving DecidableEq, Repr

/-- What an applicant hands in. -/
structure AssemblyMemberApplication where
  /-- The name of the member. -/
  memberId : String
  /-- Whom the member represents. -/
  representationSubject : String
  /-- The node of the member, if it has one. -/
  federationNodeId : Option String
  /-- The explicit consent of the member. -/
  localOptIn : Bool
  deriving DecidableEq

/-- A member as the registry keeps it. -/
structure AssemblyMemberRecord where
  /-- The schema of the record. -/
  schema : String
  /-- The name of the member. -/
  memberId : String
  /-- Whom the member represents, in normal form. -/
  representationSubject : String
  /-- The node of the member, if it has one. -/
  federationNodeId : Option String
  /-- Whether the member takes part. -/
  status : AssemblyMemberStatus
  /-- How many votes the member has. -/
  representationWeight : Nat
  /-- Whether membership of the network is needed. -/
  networkMembershipRequired : Bool
  /-- Whether membership of another body is needed. -/
  qsolGovernanceRequired : Bool
  /-- What the record authorises. -/
  authorityEffect : String
  deriving DecidableEq

/-- The kinds of proposals. -/
inductive AssemblyProposalKind where
  | protocolAmendment
  | charterAmendment
  | advisoryResolution
  | forkProposal
  deriving DecidableEq, Repr

/-- What a proposal does to implementations. -/
inductive ProtocolCompatibility where
  | backwardCompatible
  | breaking
  | notApplicable
  deriving DecidableEq, Repr

/-- The effects that a proposal declares. -/
structure ProposalEffectDeclaration where
  directMemberLocalAuthorityMutation : Bool
  networkMembershipGrantsAssemblyMembership : Bool
  enableRemoteGovernanceMutation : Bool
  enableRemoteEvidencePromotion : Bool
  enableRemoteVoteCreation : Bool
  enableRemoteCapabilityInstallation : Bool
  enableRemoteHistoryRewrite : Bool
  enableRemoteCitizenshipMutation : Bool
  enableRemoteArbitraryExecution : Bool
  enableRemoteLocalAuthorityClaim : Bool
  foreignImportBecomesLocalAuthority : Bool
  allowSecretsInSemanticState : Bool
  allowRuntimeConstitutionOverride : Bool
  deriving DecidableEq

/-- A proposal as it is handed in. -/
structure AssemblyProposalDraft where
  /-- The member who proposes. -/
  proposerMemberId : String
  /-- The title. -/
  title : String
  /-- The summary. -/
  summary : String
  /-- The kind. -/
  kind : AssemblyProposalKind
  /-- What the proposal does to implementations. -/
  compatibility : ProtocolCompatibility
  /-- The declared effects. -/
  effects : ProposalEffectDeclaration
  deriving DecidableEq

/-- What the charter gate says of a proposal. -/
inductive CharterGateDisposition where
  | compatible
  | forkRequired
  deriving DecidableEq, Repr

/-- The assessment of the charter gate. -/
structure CharterGateAssessment where
  /-- The version of the gate. -/
  gate : String
  /-- What the gate says. -/
  disposition : CharterGateDisposition
  /-- The invariants that the declared effects violate. -/
  violatedInvariantIds : List String
  /-- Whether the proposal may stay in the current lineage. -/
  currentLineageEligible : Bool
  /-- What the assessment authorises. -/
  memberLocalAuthorityEffect : String
  deriving DecidableEq

/-- Whether votes are taken on a proposal. -/
inductive AssemblyProposalStatus where
  | open
  | forkRequired
  | withdrawn
  deriving DecidableEq, Repr

/-- A vote. -/
inductive VoteChoice where
  | yes
  | no
  | abstain
  deriving DecidableEq, Repr

/-- Where an advisory report comes from. -/
inductive AdvisorySourceKind where
  | nexusCouncil
  | otherAdvisory
  deriving DecidableEq, Repr

/-- A report that advises on a proposal and has no vote. -/
structure AssemblyAdvisoryReport where
  /-- The schema of the report. -/
  schema : String
  /-- Where the report comes from. -/
  sourceKind : AdvisorySourceKind
  /-- The node that sent the report, if one did. -/
  sourceNode : Option String
  /-- The reference to the report. -/
  reportRef : String
  /-- The weight of the report as advice. -/
  advisoryWeight : Nat
  /-- The weight of the report as a vote. -/
  voteWeight : Nat
  /-- What the report authorises. -/
  authorityEffect : String
  deriving DecidableEq

/-- A proposal as the assembly keeps it. -/
structure AssemblyProposalRecord where
  /-- The schema of the record. -/
  schema : String
  /-- The reference to the identity of the proposal. -/
  proposalId : String
  /-- The place of the proposal in the order of submission. -/
  sequence : UInt64
  /-- The proposal as it was handed in. -/
  draft : AssemblyProposalDraft
  /-- The assessment of the charter gate. -/
  charterGate : CharterGateAssessment
  /-- The reference to the electorate. -/
  electorateRef : String
  /-- The number of members in the electorate. -/
  electorateSize : Nat
  /-- Whether votes are taken. -/
  status : AssemblyProposalStatus
  /-- The votes by member. -/
  votes : OrderedMap String VoteChoice
  /-- The reports, in the order in which they came. -/
  advisoryReports : List AssemblyAdvisoryReport
  deriving DecidableEq

/-- How a proposal ends. -/
inductive GovernanceOutcome where
  | accepted
  | rejected
  | withdrawn
  | forkRequired
  | forkEndorsed
  deriving DecidableEq, Repr

/-- What a proposal asks of the version of the protocol. -/
inductive VersionPath where
  | noProtocolChange
  | compatibleSourceChangeRequired
  | newMajorRequired
  | forkRequired
  deriving DecidableEq, Repr

/-- The receipt of a closed proposal. -/
structure AssemblyGovernanceReceipt where
  /-- The schema of the receipt. -/
  schema : String
  /-- The reference to the receipt without this field. -/
  receiptId : String
  /-- The proposal. -/
  proposalId : String
  /-- How the proposal ended. -/
  outcome : GovernanceOutcome
  /-- The assessment of the charter gate. -/
  charterGate : CharterGateAssessment
  /-- How members are represented. -/
  representationModel : String
  /-- The reference to the electorate. -/
  electorateRef : String
  /-- The number of members in the electorate. -/
  electorateSize : Nat
  /-- The votes in favour. -/
  yesVotes : Nat
  /-- The votes against. -/
  noVotes : Nat
  /-- The votes that abstain. -/
  abstainVotes : Nat
  /-- The votes that are needed. -/
  quorumRequired : Nat
  /-- Whether enough members voted. -/
  quorumMet : Bool
  /-- The votes in favour that are needed. -/
  approvalRequired : Nat
  /-- Whether enough votes are in favour. -/
  approvalMet : Bool
  /-- What the proposal asks of the version of the protocol. -/
  versionPath : VersionPath
  /-- Whether the sources have to change. -/
  sourceChangeRequired : Bool
  /-- Whether the receipt changes the protocol. -/
  protocolChangedAutomatically : Bool
  /-- Whether the receipt changes what a member decides. -/
  memberLocalAuthorityMutated : Bool
  /-- The number of reports of the council. -/
  nexusAdvisoryReports : Nat
  /-- The votes of the council. -/
  nexusAdvisoryVoteWeight : Nat
  /-- What the receipt authorises. -/
  authorityEffect : String
  deriving DecidableEq

/-- The name of a kind of proposal. -/
def AssemblyProposalKind.name : AssemblyProposalKind → String
  | .protocolAmendment => "protocol_amendment"
  | .charterAmendment => "charter_amendment"
  | .advisoryResolution => "advisory_resolution"
  | .forkProposal => "fork_proposal"

/-- The name of a compatibility. -/
def ProtocolCompatibility.name : ProtocolCompatibility → String
  | .backwardCompatible => "backward_compatible"
  | .breaking => "breaking"
  | .notApplicable => "not_applicable"

/-- The name of a disposition. -/
def CharterGateDisposition.name : CharterGateDisposition → String
  | .compatible => "compatible"
  | .forkRequired => "fork_required"

/-- The name of an outcome. -/
def GovernanceOutcome.name : GovernanceOutcome → String
  | .accepted => "accepted"
  | .rejected => "rejected"
  | .withdrawn => "withdrawn"
  | .forkRequired => "fork_required"
  | .forkEndorsed => "fork_endorsed"

/-- The name of a version path. -/
def VersionPath.name : VersionPath → String
  | .noProtocolChange => "no_protocol_change"
  | .compatibleSourceChangeRequired => "compatible_source_change_required"
  | .newMajorRequired => "new_major_required"
  | .forkRequired => "fork_required"

/-- The assembly: its members, the subjects that they represent, the proposals that are not closed
and their electorates. -/
structure FederationAssembly where
  /-- Every member that was ever admitted. -/
  members : OrderedMap String AssemblyMemberRecord
  /-- The subjects of the members that take part. -/
  representationSubjects : OrderedMap String Unit
  /-- The proposals that are not closed. -/
  proposals : OrderedMap String AssemblyProposalRecord
  /-- The electorates of these proposals. -/
  electorates : OrderedMap String (OrderedMap String Unit)
  /-- The place of the next proposal. -/
  nextSequence : UInt64

namespace Assembly

/-- The schema of members. -/
def assemblyMemberSchemaV1 : String := "qsol-fed-assembly-member/1"

/-- The schema of proposals. -/
def assemblyProposalSchemaV1 : String := "qsol-fed-assembly-proposal/1"

/-- The schema of advisory reports. -/
def assemblyAdvisorySchemaV1 : String := "qsol-fed-assembly-advisory/1"

/-- The schema of receipts. -/
def assemblyReceiptSchemaV1 : String := "qsol-fed-governance-receipt/1"

/-- The version of the charter gate. -/
def assemblyCharterGateV1 : String := "qsol-fed-charter-gate/1"

/-- How members are represented. -/
def assemblyRepresentationV1 : String := "one-member-one-vote/1"

/-- The domain of references to electorates. -/
def assemblyElectorateDomainV1 : String := "qsol-fed-assembly-electorate/1\x00"

/-- The greatest number of members. -/
def maxAssemblyMembers : Nat := 1024

/-- The greatest number of proposals. -/
def maxAssemblyProposals : Nat := 1024

/-- The greatest number of reports on a proposal. -/
def maxAssemblyAdvisories : Nat := 64

/-- The greatest size of a title in bytes. -/
def maxProposalTitleBytes : Nat := 256

/-- The greatest size of a summary in bytes. -/
def maxProposalSummaryBytes : Nat := 8192

/-! ## Encoding -/

/-- A count as a number. -/
def writeCount (count : Nat) : Value String := .number (Number.ofInt count)

/-- The declared effects as an object. -/
def writeEffects (effects : ProposalEffectDeclaration) : Value String := .object [
  ("direct_member_local_authority_mutation", .bool effects.directMemberLocalAuthorityMutation),
  ("network_membership_grants_assembly_membership",
    .bool effects.networkMembershipGrantsAssemblyMembership),
  ("enable_remote_governance_mutation", .bool effects.enableRemoteGovernanceMutation),
  ("enable_remote_evidence_promotion", .bool effects.enableRemoteEvidencePromotion),
  ("enable_remote_vote_creation", .bool effects.enableRemoteVoteCreation),
  ("enable_remote_capability_installation", .bool effects.enableRemoteCapabilityInstallation),
  ("enable_remote_history_rewrite", .bool effects.enableRemoteHistoryRewrite),
  ("enable_remote_citizenship_mutation", .bool effects.enableRemoteCitizenshipMutation),
  ("enable_remote_arbitrary_execution", .bool effects.enableRemoteArbitraryExecution),
  ("enable_remote_local_authority_claim", .bool effects.enableRemoteLocalAuthorityClaim),
  ("foreign_import_becomes_local_authority", .bool effects.foreignImportBecomesLocalAuthority),
  ("allow_secrets_in_semantic_state", .bool effects.allowSecretsInSemanticState),
  ("allow_runtime_constitution_override", .bool effects.allowRuntimeConstitutionOverride)]

/-- A draft as an object. -/
def writeDraft (draft : AssemblyProposalDraft) : Value String := .object [
  ("proposer_member_id", .string draft.proposerMemberId),
  ("title", .string draft.title),
  ("summary", .string draft.summary),
  ("kind", .string draft.kind.name),
  ("compatibility", .string draft.compatibility.name),
  ("effects", writeEffects draft.effects)]

/-- An assessment as an object. -/
def writeAssessment (assessment : CharterGateAssessment) : Value String := .object [
  ("gate", .string assessment.gate),
  ("disposition", .string assessment.disposition.name),
  ("violated_invariant_ids", .array (assessment.violatedInvariantIds.map .string)),
  ("current_lineage_eligible", .bool assessment.currentLineageEligible),
  ("member_local_authority_effect", .string assessment.memberLocalAuthorityEffect)]

/-- The members of a receipt. -/
def receiptMembers (receipt : AssemblyGovernanceReceipt) : List (String × Value String) := [
  ("schema", .string receipt.schema),
  ("receipt_id", .string receipt.receiptId),
  ("proposal_id", .string receipt.proposalId),
  ("outcome", .string receipt.outcome.name),
  ("charter_gate", writeAssessment receipt.charterGate),
  ("representation_model", .string receipt.representationModel),
  ("electorate_ref", .string receipt.electorateRef),
  ("electorate_size", writeCount receipt.electorateSize),
  ("yes_votes", writeCount receipt.yesVotes),
  ("no_votes", writeCount receipt.noVotes),
  ("abstain_votes", writeCount receipt.abstainVotes),
  ("quorum_required", writeCount receipt.quorumRequired),
  ("quorum_met", .bool receipt.quorumMet),
  ("approval_required", writeCount receipt.approvalRequired),
  ("approval_met", .bool receipt.approvalMet),
  ("version_path", .string receipt.versionPath.name),
  ("source_change_required", .bool receipt.sourceChangeRequired),
  ("protocol_changed_automatically", .bool receipt.protocolChangedAutomatically),
  ("member_local_authority_mutated", .bool receipt.memberLocalAuthorityMutated),
  ("nexus_advisory_reports", writeCount receipt.nexusAdvisoryReports),
  ("nexus_advisory_vote_weight", writeCount receipt.nexusAdvisoryVoteWeight),
  ("authority_effect", .string receipt.authorityEffect)]

/-! ## Checks -/

variable (primitives : Primitives)

/-- The normal form of a subject. -/
def normalizeSubject (value : String) : Except AssemblyError String := do
  let normalized := primitives.unicode.nfc value
  ensure (normalized ≠ "" ∧ normalized.length ≤ 256)
    (.code "assembly_representation_subject_invalid")
  pure normalized

/-- The name of a member. -/
def isAssemblyMemberId (value : String) : Bool :=
  (Text.bytes "assembly:").isPrefixOf (Text.bytes value) &&
    match (Text.bytes value).drop 9 with
    | [] => false
    | head :: rest =>
      (head :: rest).length ≤ 128 && (Wire.isAsciiLowercase head || Wire.isAsciiDigit head) &&
        rest.all fun b => Wire.isAsciiLowercase b || Wire.isAsciiDigit b || b = Wire.byte '.' ||
          b = Wire.byte '_' || b = Wire.byte '-'

/-- Refuse a text that is empty or too large. -/
def validateText (value : String) (maximumBytes : Nat) (error : String) :
    Except AssemblyError Unit :=
  ensure (value ≠ "" ∧ value.utf8ByteSize ≤ maximumBytes) (.code error)

/-- Two thirds of a number, rounded up. -/
def twoThirdsCeil (value : Nat) : Nat := if value = 0 then 0 else (2 * value + 2) / 3

/-- The reference to the canonical bytes of a value. -/
def canonicalId (value : Value String) : Except AssemblyError String := do
  let canonical ← (Canonical.canonicalize primitives.unicode
    (Canonical.writtenBytes value)).mapError .canonical
  pure (Digest.sha256Ref primitives canonical)

/-- The reference to the canonical bytes of an object without one of its members. -/
def canonicalIdWithoutField (members : List (String × Value String)) (field : String) :
    Except AssemblyError String :=
  canonicalId primitives (.object (members.filter fun member => member.1 ≠ field))

/-- A number in four bytes, the most significant first. -/
def bigEndian32 (value : Nat) : ByteArray :=
  ⟨#[(value / 2 ^ 24).toUInt8, (value / 2 ^ 16).toUInt8, (value / 2 ^ 8).toUInt8, value.toUInt8]⟩

/-- The bytes that a reference to an electorate digests. -/
def electorateInput (memberIds : List String) : ByteArray :=
  memberIds.foldl (fun input memberId =>
      input ++ bigEndian32 memberId.utf8ByteSize ++ memberId.toByteArray)
    (assemblyElectorateDomainV1.toByteArray ++ bigEndian32 memberIds.length)

/-- The reference to an electorate. -/
def electorateRef (memberIds : List String) : String :=
  Digest.sha256Ref primitives (electorateInput memberIds)

/-- Refuse a compatibility that does not fit the kind of a draft. -/
def validateDraftCompatibility (draft : AssemblyProposalDraft) : Except AssemblyError Unit :=
  match draft.kind with
  | .advisoryResolution => ensure (draft.compatibility = .notApplicable)
      (.code "assembly_advisory_compatibility_invalid")
  | .forkProposal => ensure (draft.compatibility = .breaking)
      (.code "assembly_fork_must_be_breaking")
  | .protocolAmendment | .charterAmendment => ensure (draft.compatibility ≠ .notApplicable)
      (.code "assembly_amendment_compatibility_required")

/-- What the identity of a proposal covers. -/
def identityProjection (record : AssemblyProposalRecord) : Value String := .object [
  ("charter_gate", writeAssessment record.charterGate),
  ("draft", writeDraft record.draft),
  ("electorate_ref", .string record.electorateRef),
  ("electorate_size", writeCount record.electorateSize),
  ("schema", .string assemblyProposalSchemaV1),
  ("sequence", writeCount record.sequence.toNat)]

/-- The identity of a proposal. -/
def proposalIdentity (record : AssemblyProposalRecord) : Except AssemblyError String :=
  canonicalId primitives (identityProjection record)

/-- The fields of a report are as the assembly writes them. -/
def advisoryValid (advisory : AssemblyAdvisoryReport) : Bool :=
  advisory.schema = assemblyAdvisorySchemaV1 && advisory.advisoryWeight = 0 &&
    advisory.voteWeight = 0 && advisory.authorityEffect = "none" &&
    Wire.isSha256Ref advisory.reportRef && advisory.sourceNode.all Wire.isNodeId

/-- The invariants of the charter, each with whether a declaration violates it. -/
def charterInvariants (effects : ProposalEffectDeclaration) : List (Bool × String) := [
  (effects.directMemberLocalAuthorityMutation, "local_sovereignty_over_federation_convenience"),
  (effects.networkMembershipGrantsAssemblyMembership, "federation_is_not_central_control"),
  (effects.enableRemoteGovernanceMutation, "remote_governance_mutation_forbidden"),
  (effects.enableRemoteEvidencePromotion, "remote_evidence_promotion_forbidden"),
  (effects.enableRemoteVoteCreation, "remote_vote_creation_forbidden"),
  (effects.enableRemoteCapabilityInstallation, "remote_capability_installation_forbidden"),
  (effects.enableRemoteHistoryRewrite, "remote_history_rewrite_forbidden"),
  (effects.enableRemoteCitizenshipMutation, "remote_citizenship_mutation_forbidden"),
  (effects.enableRemoteArbitraryExecution, "remote_arbitrary_execution_forbidden"),
  (effects.enableRemoteLocalAuthorityClaim, "remote_local_authority_claim_forbidden"),
  (effects.foreignImportBecomesLocalAuthority, "import_is_not_authority"),
  (effects.allowSecretsInSemanticState, "secrets_in_semantic_state_forbidden"),
  (effects.allowRuntimeConstitutionOverride, "runtime_constitution_override_forbidden")]

/-- The assessment of a draft. -/
def assessCharterGate (draft : AssemblyProposalDraft) : CharterGateAssessment :=
  let violations := ((charterInvariants draft.effects).filter Prod.fst).map Prod.snd
  { gate := assemblyCharterGateV1
    disposition := if violations.isEmpty then .compatible else .forkRequired
    violatedInvariantIds := violations
    currentLineageEligible := violations.isEmpty
    memberLocalAuthorityEffect := "none" }

/-- The status of a proposal when it is submitted. -/
def initialStatus (gate : CharterGateAssessment) (draft : AssemblyProposalDraft) :
    AssemblyProposalStatus :=
  if gate.currentLineageEligible ∨ draft.kind = .forkProposal then .open else .forkRequired

/-- The semantic check of a proposal record. -/
def validateProposalRecordSemantics (record : AssemblyProposalRecord) :
    Except AssemblyError Unit := do
  ensure (record.schema = assemblyProposalSchemaV1 ∧ record.sequence ≠ 0 ∧
    Wire.isSha256Ref record.proposalId ∧ Wire.isSha256Ref record.electorateRef ∧
    record.electorateSize ≠ 0 ∧ record.electorateSize ≤ maxAssemblyMembers ∧
    record.votes.entries.length ≤ record.electorateSize ∧
    record.advisoryReports.length ≤ maxAssemblyAdvisories)
    (.code "assembly_proposal_record_invalid")
  validateText record.draft.title maxProposalTitleBytes "assembly_proposal_title_invalid"
  validateText record.draft.summary maxProposalSummaryBytes "assembly_proposal_summary_invalid"
  validateDraftCompatibility record.draft
  ensure (isAssemblyMemberId record.draft.proposerMemberId ∧
    (record.votes.entries.all fun entry => isAssemblyMemberId entry.1) ∧
    record.advisoryReports.all advisoryValid) (.code "assembly_proposal_record_invalid")
  ensure (record.charterGate = assessCharterGate record.draft)
    (.code "assembly_charter_gate_semantic_mismatch")
  ensure (record.status = initialStatus (assessCharterGate record.draft) record.draft ∨
    record.status = .withdrawn) (.code "assembly_proposal_status_semantic_mismatch")
  let identity ← proposalIdentity primitives record
  ensure (identity = record.proposalId) (.code "assembly_proposal_identity_mismatch")

/-! ## Operations -/

open Effect (read check)

/-- The members that take part, in order. -/
def activeMembers (assembly : FederationAssembly) : List String :=
  (assembly.members.values.filter fun member => member.status = .active).map
    AssemblyMemberRecord.memberId

/-- The members that may vote on a proposal, in order. -/
def electorateSnapshot (assembly : FederationAssembly) (proposalId : String) :
    Except AssemblyError (List String) := do
  let electorate ← okOr (assembly.electorates.get? proposalId) (.code "assembly_proposal_unknown")
  pure (electorate.entries.map Prod.fst)

/-- Admit a member. -/
def admitMember (application : AssemblyMemberApplication) :
    Effect FederationAssembly AssemblyError AssemblyMemberRecord := do
  let assembly ← read .ok
  check (ensure (assembly.members.entries.length < maxAssemblyMembers)
    (.code "assembly_member_limit_exceeded"))
  check (ensure (application.localOptIn ∧ isAssemblyMemberId application.memberId)
    (.code "assembly_membership_requires_explicit_local_opt_in"))
  check (ensure (application.federationNodeId.all Wire.isNodeId)
    (.code "assembly_federation_node_id_invalid"))
  check (ensure (assembly.members.get? application.memberId = none)
    (.code "assembly_member_id_already_exists"))
  let subject ← check (normalizeSubject primitives application.representationSubject)
  check (ensure (assembly.representationSubjects.get? subject = none)
    (.code "assembly_representation_subject_already_active"))
  let record : AssemblyMemberRecord :=
    { schema := assemblyMemberSchemaV1
      memberId := application.memberId
      representationSubject := subject
      federationNodeId := application.federationNodeId
      status := .active
      representationWeight := 1
      networkMembershipRequired := false
      qsolGovernanceRequired := false
      authorityEffect := "none" }
  Effect.modify fun assembly =>
    { assembly with representationSubjects := assembly.representationSubjects.insert subject () }
  Effect.modify fun assembly =>
    { assembly with members := assembly.members.insert application.memberId record }
  pure record

/-- A member stops taking part. -/
def withdrawMember (memberId : String) : Effect FederationAssembly AssemblyError Unit := do
  let member ← read fun assembly =>
    okOr (assembly.members.get? memberId) (.code "assembly_member_unknown")
  check (ensure (member.status = .active) (.code "assembly_member_not_active"))
  Effect.modify fun assembly =>
    { assembly with members := assembly.members.insert memberId { member with status := .withdrawn } }
  Effect.modify fun assembly =>
    { assembly with
      representationSubjects := assembly.representationSubjects.erase member.representationSubject }
  pure ()

/-- Submit a proposal to the members that take part now. -/
def submitProposal (draft : AssemblyProposalDraft) :
    Effect FederationAssembly AssemblyError AssemblyProposalRecord := do
  let assembly ← read .ok
  check (ensure (assembly.proposals.entries.length < maxAssemblyProposals)
    (.code "assembly_proposal_limit_exceeded"))
  check (validateText draft.title maxProposalTitleBytes "assembly_proposal_title_invalid")
  check (validateText draft.summary maxProposalSummaryBytes "assembly_proposal_summary_invalid")
  check (validateDraftCompatibility draft)
  let proposer ← check
    (okOr (assembly.members.get? draft.proposerMemberId) (.code "assembly_proposer_not_member"))
  check (ensure (proposer.status = .active) (.code "assembly_proposer_not_active"))
  let electorate := activeMembers assembly
  check (ensure (electorate ≠ []) (.code "assembly_electorate_empty"))
  let charterGate := assessCharterGate draft
  check (ensure (assembly.nextSequence.toNat + 1 < 2 ^ 64) (.code "assembly_sequence_exhausted"))
  let record : AssemblyProposalRecord :=
    { schema := assemblyProposalSchemaV1
      proposalId := "sha256:" ++ String.ofList (List.replicate 64 '0')
      sequence := assembly.nextSequence
      draft
      charterGate
      electorateRef := electorateRef primitives electorate
      electorateSize := electorate.length
      status := initialStatus charterGate draft
      votes := .empty
      advisoryReports := [] }
  let proposalId ← check (proposalIdentity primitives record)
  let record := { record with proposalId }
  check (validateProposalRecordSemantics primitives record)
  Effect.modify fun assembly => { assembly with nextSequence := assembly.nextSequence + 1 }
  Effect.modify fun assembly =>
    { assembly with
      electorates := assembly.electorates.insert proposalId
        (electorate.foldl (fun set memberId => set.insert memberId ()) .empty) }
  Effect.modify fun assembly =>
    { assembly with proposals := assembly.proposals.insert proposalId record }
  pure record

/-- Attach a report to a proposal. -/
def attachAdvisory (proposalId : String) (sourceKind : AdvisorySourceKind)
    (sourceNode : Option String) (reportRef : String) :
    Effect FederationAssembly AssemblyError AssemblyAdvisoryReport := do
  check (ensure (Wire.isSha256Ref reportRef ∧ sourceNode.all Wire.isNodeId)
    (.code "assembly_advisory_invalid"))
  let proposal ← read fun assembly =>
    okOr (assembly.proposals.get? proposalId) (.code "assembly_proposal_unknown")
  check (ensure (proposal.advisoryReports.length < maxAssemblyAdvisories)
    (.code "assembly_advisory_limit_exceeded"))
  check (ensure (proposal.status = .open ∨ proposal.status = .forkRequired)
    (.code "assembly_proposal_not_open_for_advisory"))
  let advisory : AssemblyAdvisoryReport :=
    { schema := assemblyAdvisorySchemaV1
      sourceKind
      sourceNode
      reportRef
      advisoryWeight := 0
      voteWeight := 0
      authorityEffect := "none" }
  check (ensure (advisoryValid advisory) (.code "assembly_advisory_invalid"))
  Effect.modify fun assembly =>
    { assembly with
      proposals := assembly.proposals.insert proposalId
        { proposal with advisoryReports := proposal.advisoryReports ++ [advisory] } }
  pure advisory

/-- Cast the vote of a member of the electorate. -/
def castVote (proposalId memberId : String) (choice : VoteChoice) :
    Effect FederationAssembly AssemblyError Unit := do
  let electorate ← read fun assembly =>
    okOr (assembly.electorates.get? proposalId) (.code "assembly_proposal_unknown")
  check (ensure (electorate.get? memberId ≠ none)
    (.code "assembly_voter_not_in_electorate_snapshot"))
  let proposal ← read fun assembly =>
    okOr (assembly.proposals.get? proposalId) (.code "assembly_proposal_unknown")
  check (ensure (proposal.status = .open) (.code "assembly_proposal_not_open_for_vote"))
  check (ensure (proposal.votes.get? memberId = none) (.code "assembly_vote_already_recorded"))
  Effect.modify fun assembly =>
    { assembly with
      proposals := assembly.proposals.insert proposalId
        { proposal with votes := proposal.votes.insert memberId choice } }
  pure ()

/-- The proposer withdraws a proposal. -/
def withdrawProposal (proposalId proposerMemberId : String) :
    Effect FederationAssembly AssemblyError Unit := do
  let proposal ← read fun assembly =>
    okOr (assembly.proposals.get? proposalId) (.code "assembly_proposal_unknown")
  check (ensure (proposal.draft.proposerMemberId = proposerMemberId ∧
    (proposal.status = .open ∨ proposal.status = .forkRequired))
    (.code "assembly_proposal_withdrawal_forbidden"))
  Effect.modify fun assembly =>
    { assembly with
      proposals := assembly.proposals.insert proposalId { proposal with status := .withdrawn } }
  pure ()

/-- The number of votes of a kind. -/
def countVotes (snapshot : AssemblyProposalRecord) (choice : VoteChoice) : Nat :=
  (snapshot.votes.values.filter fun vote => vote = choice).length

/-- How a proposal ends with these thresholds. -/
def outcomeOf (snapshot : AssemblyProposalRecord) (quorumMet approvalMet : Bool) :
    GovernanceOutcome :=
  match snapshot.status with
  | .forkRequired => .forkRequired
  | .withdrawn => .withdrawn
  | .open =>
    if quorumMet ∧ approvalMet ∧ snapshot.draft.kind = .forkProposal then .forkEndorsed
    else if quorumMet ∧ approvalMet then .accepted
    else .rejected

/-- What a proposal that ends so asks of the version of the protocol. -/
def versionPathOf (draft : AssemblyProposalDraft) (outcome : GovernanceOutcome) : VersionPath :=
  match draft.kind, draft.compatibility, outcome with
  | _, _, .forkRequired | _, _, .forkEndorsed => .forkRequired
  | .advisoryResolution, _, _ => .noProtocolChange
  | .protocolAmendment, .backwardCompatible, _ => .compatibleSourceChangeRequired
  | .protocolAmendment, .breaking, _ | .charterAmendment, _, _ => .newMajorRequired
  | _, _, _ => .noProtocolChange

/-- The receipt of a proposal, without the reference to itself. -/
def receiptOf (snapshot : AssemblyProposalRecord) (electorateSize : Nat) :
    AssemblyGovernanceReceipt :=
  let yesVotes := countVotes snapshot .yes
  let noVotes := countVotes snapshot .no
  let abstainVotes := countVotes snapshot .abstain
  let quorumRequired := twoThirdsCeil electorateSize
  let quorumMet := decide (quorumRequired ≤ yesVotes + noVotes + abstainVotes)
  let decisive := yesVotes + noVotes
  let approvalRequired := twoThirdsCeil decisive
  let approvalMet := decide (0 < decisive ∧ approvalRequired ≤ yesVotes)
  let outcome := outcomeOf snapshot quorumMet approvalMet
  let versionPath := versionPathOf snapshot.draft outcome
  { schema := assemblyReceiptSchemaV1
    receiptId := ""
    proposalId := snapshot.proposalId
    outcome
    charterGate := snapshot.charterGate
    representationModel := assemblyRepresentationV1
    electorateRef := snapshot.electorateRef
    electorateSize
    yesVotes
    noVotes
    abstainVotes
    quorumRequired
    quorumMet
    approvalRequired
    approvalMet
    versionPath
    sourceChangeRequired := decide ((outcome = .accepted ∨ outcome = .forkRequired ∨
      outcome = .forkEndorsed) ∧ versionPath ≠ .noProtocolChange)
    protocolChangedAutomatically := false
    memberLocalAuthorityMutated := false
    nexusAdvisoryReports :=
      (snapshot.advisoryReports.filter fun report => report.sourceKind = .nexusCouncil).length
    nexusAdvisoryVoteWeight := 0
    authorityEffect := "none" }

/-- Close a proposal. -/
def finalize (proposalId : String) :
    Effect FederationAssembly AssemblyError AssemblyGovernanceReceipt := do
  let snapshot ← read fun assembly =>
    okOr (assembly.proposals.get? proposalId) (.code "assembly_proposal_unknown")
  let electorate ← read fun assembly =>
    okOr (assembly.electorates.get? proposalId) (.code "assembly_electorate_snapshot_missing")
  check (ensure (electorate.entries.length = snapshot.electorateSize ∧
    electorateRef primitives (electorate.entries.map Prod.fst) = snapshot.electorateRef)
    (.code "assembly_electorate_snapshot_drift"))
  let receipt := receiptOf snapshot electorate.entries.length
  let receiptId ← check (canonicalIdWithoutField primitives (receiptMembers receipt) "receipt_id")
  Effect.modify fun assembly => { assembly with proposals := assembly.proposals.erase proposalId }
  Effect.modify fun assembly =>
    { assembly with electorates := assembly.electorates.erase proposalId }
  pure { receipt with receiptId }

/-- The assembly before anything happened. -/
def new : FederationAssembly := ⟨.empty, .empty, .empty, .empty, 1⟩

end Assembly

end QsolFed
