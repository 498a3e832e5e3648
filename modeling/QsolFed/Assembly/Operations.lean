import QsolFed.Assembly
import QsolFed.Library.Run

/-!
# Operations of the assembly

What each operation does when it succeeds, and that an operation that fails changes nothing.
Everything later is derived from these cases.
-/
namespace QsolFed.Assembly

open Checked Json Effect

/-- The operations of the assembly. -/
inductive AssemblyOperation where
  /-- Admit a member. -/
  | admitMember (application : AssemblyMemberApplication)
  /-- A member stops taking part. -/
  | withdrawMember (memberId : String)
  /-- Submit a proposal. -/
  | submitProposal (draft : AssemblyProposalDraft)
  /-- Attach a report to a proposal. -/
  | attachAdvisory (proposalId : String) (sourceKind : AdvisorySourceKind)
      (sourceNode : Option String) (reportRef : String)
  /-- Cast a vote. -/
  | castVote (proposalId memberId : String) (choice : VoteChoice)
  /-- The proposer withdraws a proposal. -/
  | withdrawProposal (proposalId proposerMemberId : String)
  /-- Close a proposal. -/
  | finalize (proposalId : String)

/-- What an operation returns. -/
inductive AssemblyOutcome where
  /-- The new member. -/
  | member (record : AssemblyMemberRecord)
  /-- Nothing. -/
  | done
  /-- The new proposal. -/
  | proposal (record : AssemblyProposalRecord)
  /-- The new report. -/
  | advisory (report : AssemblyAdvisoryReport)
  /-- The receipt. -/
  | receipt (receipt : AssemblyGovernanceReceipt)

variable (primitives : Primitives)

/-- Perform an operation. -/
def perform : AssemblyOperation → Effect FederationAssembly AssemblyError AssemblyOutcome
  | .admitMember application => .member <$> admitMember primitives application
  | .withdrawMember memberId => (fun _ => .done) <$> withdrawMember memberId
  | .submitProposal draft => .proposal <$> submitProposal primitives draft
  | .attachAdvisory proposalId sourceKind sourceNode reportRef =>
    .advisory <$> attachAdvisory proposalId sourceKind sourceNode reportRef
  | .castVote proposalId memberId choice => (fun _ => .done) <$> castVote proposalId memberId choice
  | .withdrawProposal proposalId proposerMemberId =>
    (fun _ => .done) <$> withdrawProposal proposalId proposerMemberId
  | .finalize proposalId => .receipt <$> finalize primitives proposalId

/-! ## Refusals -/

/-- A failed operation leaves the assembly as it was. -/
theorem perform_clean (operation : AssemblyOperation) : Clean (perform primitives operation) := by
  cases operation with
  | admitMember application =>
    refine Clean.map ?_ _
    refine (quiet_read _).bind_clean fun assembly => ?_
    refine (quiet_check _).bind_clean fun _ => ?_
    refine (quiet_check _).bind_clean fun _ => ?_
    refine (quiet_check _).bind_clean fun _ => ?_
    refine (quiet_check _).bind_clean fun _ => ?_
    refine (quiet_check _).bind_clean fun subject => ?_
    refine (quiet_check _).bind_clean fun _ => ?_
    exact ((sure_modify _).bind fun _ => (sure_modify _).bind fun _ => sure_pure _).clean
  | withdrawMember memberId =>
    refine Clean.map ?_ _
    refine (quiet_read _).bind_clean fun member => ?_
    refine (quiet_check _).bind_clean fun _ => ?_
    exact ((sure_modify _).bind fun _ => (sure_modify _).bind fun _ => sure_pure _).clean
  | submitProposal draft =>
    refine Clean.map ?_ _
    refine (quiet_read _).bind_clean fun assembly => ?_
    refine (quiet_check _).bind_clean fun _ => ?_
    refine (quiet_check _).bind_clean fun _ => ?_
    refine (quiet_check _).bind_clean fun _ => ?_
    refine (quiet_check _).bind_clean fun _ => ?_
    refine (quiet_check _).bind_clean fun proposer => ?_
    refine (quiet_check _).bind_clean fun _ => ?_
    refine (quiet_check _).bind_clean fun _ => ?_
    refine (quiet_check _).bind_clean fun _ => ?_
    refine (quiet_check _).bind_clean fun proposalId => ?_
    refine (quiet_check _).bind_clean fun _ => ?_
    exact ((sure_modify _).bind fun _ => (sure_modify _).bind fun _ =>
      (sure_modify _).bind fun _ => sure_pure _).clean
  | attachAdvisory proposalId sourceKind sourceNode reportRef =>
    refine Clean.map ?_ _
    refine (quiet_check _).bind_clean fun _ => ?_
    refine (quiet_read _).bind_clean fun proposal => ?_
    refine (quiet_check _).bind_clean fun _ => ?_
    refine (quiet_check _).bind_clean fun _ => ?_
    refine (quiet_check _).bind_clean fun _ => ?_
    exact ((sure_modify _).bind fun _ => sure_pure _).clean
  | castVote proposalId memberId choice =>
    refine Clean.map ?_ _
    refine (quiet_read _).bind_clean fun electorate => ?_
    refine (quiet_check _).bind_clean fun _ => ?_
    refine (quiet_read _).bind_clean fun proposal => ?_
    refine (quiet_check _).bind_clean fun _ => ?_
    refine (quiet_check _).bind_clean fun _ => ?_
    exact ((sure_modify _).bind fun _ => sure_pure _).clean
  | withdrawProposal proposalId proposerMemberId =>
    refine Clean.map ?_ _
    refine (quiet_read _).bind_clean fun proposal => ?_
    refine (quiet_check _).bind_clean fun _ => ?_
    exact ((sure_modify _).bind fun _ => sure_pure _).clean
  | finalize proposalId =>
    refine Clean.map ?_ _
    refine (quiet_read _).bind_clean fun snapshot => ?_
    refine (quiet_read _).bind_clean fun electorate => ?_
    refine (quiet_check _).bind_clean fun _ => ?_
    refine (quiet_check _).bind_clean fun receiptId => ?_
    exact ((sure_modify _).bind fun _ => (sure_modify _).bind fun _ => sure_pure _).clean

/-! ## Success -/

variable {primitives}

variable (primitives) in
/-- The record of a new member. -/
def admittedRecord (application : AssemblyMemberApplication) : AssemblyMemberRecord where
  schema := assemblyMemberSchemaV1
  memberId := application.memberId
  representationSubject := primitives.unicode.nfc application.representationSubject
  federationNodeId := application.federationNodeId
  status := .active
  representationWeight := 1
  networkMembershipRequired := false
  qsolGovernanceRequired := false
  authorityEffect := "none"

variable (primitives) in
/-- The record of a new proposal, under an identity. -/
def submittedRecord (assembly : FederationAssembly) (draft : AssemblyProposalDraft)
    (proposalId : String) : AssemblyProposalRecord where
  schema := assemblyProposalSchemaV1
  proposalId
  sequence := assembly.nextSequence
  draft
  charterGate := assessCharterGate draft
  electorateRef := electorateRef primitives (activeMembers assembly)
  electorateSize := (activeMembers assembly).length
  status := initialStatus (assessCharterGate draft) draft
  votes := .empty
  advisoryReports := []

/-- A new report. -/
def attachedReport (sourceKind : AdvisorySourceKind) (sourceNode : Option String)
    (reportRef : String) : AssemblyAdvisoryReport where
  schema := assemblyAdvisorySchemaV1
  sourceKind
  sourceNode
  reportRef
  advisoryWeight := 0
  voteWeight := 0
  authorityEffect := "none"

/-- A set with these members. -/
def setOf (memberIds : List String) : OrderedMap String Unit :=
  memberIds.foldl (fun set memberId => set.insert memberId ()) .empty

/-- The assembly with a proposal replaced. -/
def withProposal (assembly : FederationAssembly) (proposalId : String)
    (record : AssemblyProposalRecord) : FederationAssembly :=
  { assembly with proposals := assembly.proposals.insert proposalId record }

variable (primitives) in
/-- What an operation that succeeds returns and leaves. -/
inductive Performed (assembly : FederationAssembly) :
    AssemblyOperation → AssemblyOutcome → FederationAssembly → Prop where
  /-- A member is admitted. -/
  | admitted {application : AssemblyMemberApplication}
      (room : assembly.members.entries.length < maxAssemblyMembers)
      (optIn : application.localOptIn = true)
      (name : isAssemblyMemberId application.memberId = true)
      (node : application.federationNodeId.all Wire.isNodeId = true)
      (fresh : assembly.members.get? application.memberId = none)
      (subject : normalizeSubject primitives application.representationSubject =
        .ok (primitives.unicode.nfc application.representationSubject))
      (free : assembly.representationSubjects.get?
        (primitives.unicode.nfc application.representationSubject) = none) :
      Performed assembly (.admitMember application)
        (.member (admittedRecord primitives application))
        { assembly with
          representationSubjects := assembly.representationSubjects.insert
            (primitives.unicode.nfc application.representationSubject) ()
          members := assembly.members.insert application.memberId
            (admittedRecord primitives application) }
  /-- A member stops taking part. -/
  | withdrawn {memberId : String} {member : AssemblyMemberRecord}
      (found : assembly.members.get? memberId = some member) (active : member.status = .active) :
      Performed assembly (.withdrawMember memberId) .done
        { assembly with
          members := assembly.members.insert memberId { member with status := .withdrawn }
          representationSubjects :=
            assembly.representationSubjects.erase member.representationSubject }
  /-- A proposal is submitted. -/
  | submitted {draft : AssemblyProposalDraft} {proposer : AssemblyMemberRecord} {identity : String}
      (room : assembly.proposals.entries.length < maxAssemblyProposals)
      (found : assembly.members.get? draft.proposerMemberId = some proposer)
      (active : proposer.status = .active)
      (counted : assembly.nextSequence.toNat + 1 < 2 ^ 64)
      (identified : proposalIdentity primitives
        (submittedRecord primitives assembly draft identity) = .ok identity)
      (valid : validateProposalRecordSemantics primitives
        (submittedRecord primitives assembly draft identity) = .ok ()) :
      Performed assembly (.submitProposal draft)
        (.proposal (submittedRecord primitives assembly draft identity))
        { assembly with
          nextSequence := assembly.nextSequence + 1
          electorates := assembly.electorates.insert identity (setOf (activeMembers assembly))
          proposals := assembly.proposals.insert identity
            (submittedRecord primitives assembly draft identity) }
  /-- A report is attached. -/
  | attached {proposalId : String} {sourceKind : AdvisorySourceKind} {sourceNode : Option String}
      {reportRef : String} {proposal : AssemblyProposalRecord}
      (found : assembly.proposals.get? proposalId = some proposal)
      (room : proposal.advisoryReports.length < maxAssemblyAdvisories)
      (pending : proposal.status = .open ∨ proposal.status = .forkRequired)
      (valid : advisoryValid (attachedReport sourceKind sourceNode reportRef) = true) :
      Performed assembly (.attachAdvisory proposalId sourceKind sourceNode reportRef)
        (.advisory (attachedReport sourceKind sourceNode reportRef))
        (withProposal assembly proposalId
          { proposal with
            advisoryReports :=
              proposal.advisoryReports ++ [attachedReport sourceKind sourceNode reportRef] })
  /-- A vote is cast. -/
  | voted {proposalId memberId : String} {choice : VoteChoice}
      {electorate : OrderedMap String Unit} {proposal : AssemblyProposalRecord}
      (snapshot : assembly.electorates.get? proposalId = some electorate)
      (member : electorate.get? memberId = some ())
      (found : assembly.proposals.get? proposalId = some proposal)
      (pending : proposal.status = .open) (first : proposal.votes.get? memberId = none) :
      Performed assembly (.castVote proposalId memberId choice) .done
        (withProposal assembly proposalId
          { proposal with votes := proposal.votes.insert memberId choice })
  /-- A proposal is withdrawn. -/
  | retracted {proposalId proposerMemberId : String} {proposal : AssemblyProposalRecord}
      (found : assembly.proposals.get? proposalId = some proposal)
      (proposer : proposal.draft.proposerMemberId = proposerMemberId)
      (pending : proposal.status = .open ∨ proposal.status = .forkRequired) :
      Performed assembly (.withdrawProposal proposalId proposerMemberId) .done
        (withProposal assembly proposalId { proposal with status := .withdrawn })
  /-- A proposal is closed. -/
  | closed {proposalId receiptId : String} {snapshot : AssemblyProposalRecord}
      {electorate : OrderedMap String Unit}
      (found : assembly.proposals.get? proposalId = some snapshot)
      (taken : assembly.electorates.get? proposalId = some electorate)
      (size : electorate.entries.length = snapshot.electorateSize)
      (same : electorateRef primitives (electorate.entries.map Prod.fst) = snapshot.electorateRef)
      (identified : canonicalIdWithoutField primitives
        (receiptMembers (receiptOf snapshot electorate.entries.length)) "receipt_id" =
          .ok receiptId) :
      Performed assembly (.finalize proposalId)
        (.receipt { receiptOf snapshot electorate.entries.length with receiptId })
        { assembly with
          proposals := assembly.proposals.erase proposalId
          electorates := assembly.electorates.erase proposalId }

/-- A subject that is accepted is in normal form. -/
theorem normalizeSubject_ok {value subject : String}
    (accepted : normalizeSubject primitives value = .ok subject) :
    subject = primitives.unicode.nfc value := by
  simp only [normalizeSubject, bind_ok_iff, ensure_ok_iff, pure_ok_iff] at accepted
  exact accepted.choose_spec.2.symm

/-- An operation that succeeds does what the cases say. -/
theorem perform_ok {assembly final : FederationAssembly} {operation : AssemblyOperation}
    {outcome : AssemblyOutcome}
    (ran : (perform primitives operation).run assembly = (.ok outcome, final)) :
    Performed primitives assembly operation outcome final := by
  cases operation with
  | admitMember application =>
    simp only [perform, run_map_ok_iff, admitMember, run_read_bind_ok_iff, run_check_bind_ok_iff,
      run_modify_bind, run_pure, Prod.mk.injEq, ensure_ok_iff, Except.ok.injEq, exists_const] at ran
    obtain ⟨_, ⟨_, rfl, room, ⟨optIn, name⟩, node, fresh, subject, normal, free, rfl, rfl⟩, rfl⟩ := ran
    obtain rfl := normalizeSubject_ok normal
    exact .admitted room optIn name node fresh normal free
  | withdrawMember memberId =>
    simp only [perform, run_map_ok_iff, withdrawMember, run_read_bind_ok_iff, run_check_bind_ok_iff,
      run_modify_bind, run_pure, Prod.mk.injEq, ensure_ok_iff, okOr_ok_iff, exists_const] at ran
    obtain ⟨⟨member, found, active, -, rfl⟩, rfl⟩ := ran
    exact .withdrawn found active
  | submitProposal draft =>
    simp only [perform, run_map_ok_iff, submitProposal, run_read_bind_ok_iff, run_check_bind_ok_iff,
      run_modify_bind, run_pure, Prod.mk.injEq, ensure_ok_iff, okOr_ok_iff, Except.ok.injEq,
      exists_const] at ran
    obtain ⟨_, ⟨_, rfl, room, _, _, _, _, _, _, proposer, found, active, _, counted, identity,
      identified, _, valid, rfl, rfl⟩, rfl⟩ := ran
    exact .submitted room found active counted identified valid
  | attachAdvisory proposalId sourceKind sourceNode reportRef =>
    simp only [perform, run_map_ok_iff, attachAdvisory, run_read_bind_ok_iff, run_check_bind_ok_iff,
      run_modify_bind, run_pure, Prod.mk.injEq, ensure_ok_iff, okOr_ok_iff, Except.ok.injEq,
      exists_const] at ran
    obtain ⟨_, ⟨_, proposal, found, room, pending, valid, rfl, rfl⟩, rfl⟩ := ran
    exact .attached found room pending valid
  | castVote proposalId memberId choice =>
    simp only [perform, run_map_ok_iff, castVote, run_read_bind_ok_iff, run_check_bind_ok_iff,
      run_modify_bind, run_pure, Prod.mk.injEq, ensure_ok_iff, okOr_ok_iff, exists_const] at ran
    obtain ⟨⟨electorate, snapshot, member, proposal, found, pending, first, -, rfl⟩, rfl⟩ := ran
    exact .voted snapshot (Option.ne_none_iff_exists'.mp member).choose_spec found pending first
  | withdrawProposal proposalId proposerMemberId =>
    simp only [perform, run_map_ok_iff, withdrawProposal, run_read_bind_ok_iff,
      run_check_bind_ok_iff, run_modify_bind, run_pure, Prod.mk.injEq, ensure_ok_iff, okOr_ok_iff,
      exists_const] at ran
    obtain ⟨⟨proposal, found, ⟨proposer, pending⟩, -, rfl⟩, rfl⟩ := ran
    exact .retracted found proposer pending
  | finalize proposalId =>
    simp only [perform, run_map_ok_iff, finalize, run_read_bind_ok_iff, run_check_bind_ok_iff,
      run_modify_bind, run_pure, Prod.mk.injEq, ensure_ok_iff, okOr_ok_iff, Except.ok.injEq,
      exists_const] at ran
    obtain ⟨_, ⟨snapshot, found, electorate, taken, ⟨size, same⟩, receiptId, identified, rfl, rfl⟩,
      rfl⟩ := ran
    exact .closed found taken size same identified

variable (primitives) in
/-- The fields that the semantic check looks at. -/
structure SemanticallyValid (record : AssemblyProposalRecord) : Prop where
  /-- The schema is the schema of proposals. -/
  schema : record.schema = assemblyProposalSchemaV1
  /-- Places begin with one. -/
  sequence : record.sequence ≠ 0
  /-- The identity is a reference. -/
  proposalId : Wire.isSha256Ref record.proposalId = true
  /-- The electorate is named by a reference. -/
  electorateRef : Wire.isSha256Ref record.electorateRef = true
  /-- Somebody may vote. -/
  electorate : record.electorateSize ≠ 0
  /-- The electorate fits. -/
  electorateFits : record.electorateSize ≤ maxAssemblyMembers
  /-- Nobody votes twice. -/
  votes : record.votes.entries.length ≤ record.electorateSize
  /-- The reports fit. -/
  advisories : record.advisoryReports.length ≤ maxAssemblyAdvisories
  /-- The title fits. -/
  title : record.draft.title ≠ "" ∧ record.draft.title.utf8ByteSize ≤ maxProposalTitleBytes
  /-- The summary fits. -/
  summary : record.draft.summary ≠ "" ∧
    record.draft.summary.utf8ByteSize ≤ maxProposalSummaryBytes
  /-- The compatibility fits the kind. -/
  compatibility : validateDraftCompatibility record.draft = .ok ()
  /-- The proposer is named as a member. -/
  proposer : isAssemblyMemberId record.draft.proposerMemberId = true
  /-- Voters are named as members. -/
  voters : ∀ entry ∈ record.votes.entries, isAssemblyMemberId entry.1 = true
  /-- The reports are valid. -/
  reports : ∀ report ∈ record.advisoryReports, advisoryValid report = true
  /-- The assessment is that of the draft. -/
  charterGate : record.charterGate = assessCharterGate record.draft
  /-- The status is the first one, or the proposal was withdrawn. -/
  status : record.status = initialStatus (assessCharterGate record.draft) record.draft ∨
    record.status = .withdrawn
  /-- The identity is that of the record. -/
  identity : proposalIdentity primitives record = .ok record.proposalId

/-- The semantic check accepts exactly these records. -/
theorem validateProposalRecordSemantics_iff (record : AssemblyProposalRecord) :
    validateProposalRecordSemantics primitives record = .ok () ↔
      SemanticallyValid primitives record := by
  simp only [validateProposalRecordSemantics, validateText, bind_ok_iff, ensure_ok_iff,
    exists_const, List.all_eq_true]
  constructor
  · rintro ⟨⟨schema, sequence, proposalId, electorateRef, electorate, fits, votes, advisories⟩,
      title, summary, _, compatibility, ⟨proposer, voters, reports⟩, gate, status, _, identity, rfl⟩
    exact ⟨schema, sequence, proposalId, electorateRef, electorate, fits, votes, advisories, title,
      summary, compatibility, proposer, voters, reports, gate, status, identity⟩
  · intro valid
    exact ⟨⟨valid.schema, valid.sequence, valid.proposalId, valid.electorateRef, valid.electorate,
      valid.electorateFits, valid.votes, valid.advisories⟩, valid.title, valid.summary,
      ⟨(), valid.compatibility, ⟨valid.proposer, valid.voters, valid.reports⟩, valid.charterGate,
      valid.status, _, valid.identity, rfl⟩⟩

/-- Every case is that of an operation that succeeds. -/
theorem Performed.ran {assembly final : FederationAssembly} {operation : AssemblyOperation}
    {outcome : AssemblyOutcome}
    (performed : Performed primitives assembly operation outcome final) :
    (perform primitives operation).run assembly = (.ok outcome, final) := by
  cases performed with
  | admitted room optIn name node fresh subject free =>
    simp only [perform, run_map_ok_iff, admitMember, run_read_bind_ok_iff, run_check_bind_ok_iff,
      run_modify_bind, run_pure, Prod.mk.injEq, ensure_ok_iff, Except.ok.injEq, exists_const]
    exact ⟨_, ⟨_, rfl, room, ⟨optIn, name⟩, node, fresh, _, subject, free, rfl, rfl⟩, rfl⟩
  | withdrawn found active =>
    simp only [perform, run_map_ok_iff, withdrawMember, run_read_bind_ok_iff, run_check_bind_ok_iff,
      run_modify_bind, run_pure, Prod.mk.injEq, ensure_ok_iff, okOr_ok_iff, exists_const]
    exact ⟨⟨_, found, active, trivial, rfl⟩, trivial⟩
  | submitted room found active counted identified valid =>
    have checked := (validateProposalRecordSemantics_iff _).mp valid
    have voters : activeMembers assembly ≠ [] := by
      intro none
      exact checked.electorate (congrArg List.length none)
    simp only [perform, run_map_ok_iff, submitProposal, run_read_bind_ok_iff, run_check_bind_ok_iff,
      run_modify_bind, run_pure, Prod.mk.injEq, ensure_ok_iff, okOr_ok_iff, Except.ok.injEq,
      exists_const, validateText]
    exact ⟨_, ⟨_, rfl, room, checked.title, checked.summary, ⟨(), checked.compatibility, _, found,
      active, voters, counted, _, identified, ⟨(), valid, rfl, rfl⟩⟩⟩, rfl⟩
  | attached found room pending valid =>
    have shape := valid
    simp only [advisoryValid, attachedReport, Bool.and_eq_true] at shape
    simp only [perform, run_map_ok_iff, attachAdvisory, run_read_bind_ok_iff, run_check_bind_ok_iff,
      run_modify_bind, run_pure, Prod.mk.injEq, ensure_ok_iff, okOr_ok_iff, Except.ok.injEq,
      exists_const]
    exact ⟨_, ⟨⟨shape.1.2, shape.2⟩, _, found, room, pending, valid, rfl, rfl⟩, rfl⟩
  | voted snapshot member found pending first =>
    simp only [perform, run_map_ok_iff, castVote, run_read_bind_ok_iff, run_check_bind_ok_iff,
      run_modify_bind, run_pure, Prod.mk.injEq, ensure_ok_iff, okOr_ok_iff, exists_const]
    exact ⟨⟨_, snapshot, Option.ne_none_iff_exists'.mpr ⟨_, member⟩, _, found, pending, first,
      trivial, rfl⟩, trivial⟩
  | retracted found proposer pending =>
    simp only [perform, run_map_ok_iff, withdrawProposal, run_read_bind_ok_iff,
      run_check_bind_ok_iff, run_modify_bind, run_pure, Prod.mk.injEq, ensure_ok_iff, okOr_ok_iff,
      exists_const]
    exact ⟨⟨_, found, ⟨proposer, pending⟩, trivial, rfl⟩, trivial⟩
  | closed found taken size same identified =>
    simp only [perform, run_map_ok_iff, finalize, run_read_bind_ok_iff, run_check_bind_ok_iff,
      run_modify_bind, run_pure, Prod.mk.injEq, ensure_ok_iff, okOr_ok_iff, Except.ok.injEq,
      exists_const]
    exact ⟨_, ⟨_, found, _, taken, ⟨size, same⟩, _, identified, rfl, trivial⟩, rfl⟩

end QsolFed.Assembly
