import QsolFed.Assembly.Receipts

/-!
# Outcomes

An accepted proposal declares no effect that the charter forbids, two thirds of its electorate
voted and two thirds of the decisive votes are in favour. The receipt only depends on the submitted
proposal and on how often each vote and each kind of report was recorded, so neither their order
nor anything else that the assembly does in between changes it.
-/
namespace QsolFed.Assembly

open Checked Json Effect Canonical

variable {primitives : Primitives}

/-! ## Thresholds -/

/-- A number reaches two thirds of another when three times the one is twice the other. -/
theorem twoThirdsCeil_le_iff (value bound : Nat) :
    twoThirdsCeil value ≤ bound ↔ 2 * value ≤ 3 * bound := by
  unfold twoThirdsCeil
  split <;> omega

/-- A draft that declares no effects. -/
def noEffects : ProposalEffectDeclaration :=
  ⟨false, false, false, false, false, false, false, false, false, false, false, false, false⟩

/-- A draft is compatible with the charter when it declares no effects. -/
theorem eligible_iff (draft : AssemblyProposalDraft) :
    (assessCharterGate draft).currentLineageEligible = true ↔ draft.effects = noEffects := by
  obtain ⟨_, _, _, _, _, effects⟩ := draft
  cases effects
  simp only [assessCharterGate, charterInvariants, List.isEmpty_iff, List.map_eq_nil_iff,
    List.filter_eq_nil_iff, List.forall_mem_cons, List.not_mem_nil, false_implies, implies_true,
    and_true, Bool.not_eq_true, noEffects, ProposalEffectDeclaration.mk.injEq]

/-- A proposal that is accepted is open, is not a proposal to fork, and meets both thresholds. -/
theorem outcome_accepted {record : AssemblyProposalRecord} {quorumMet approvalMet : Bool}
    (accepted : outcomeOf record quorumMet approvalMet = .accepted) :
    record.status = .open ∧ quorumMet = true ∧ approvalMet = true ∧
      record.draft.kind ≠ .forkProposal := by
  unfold outcomeOf at accepted
  split at accepted
  · cases accepted
  · cases accepted
  · next status =>
    split_ifs at accepted with forked met
    exact ⟨status, met.1, met.2, fun kind => forked ⟨met.1, met.2, kind⟩⟩

/-- What an accepted receipt says about the proposal and the votes. -/
theorem receiptOf_accepted {record : AssemblyProposalRecord} {electorateSize : Nat}
    (valid : SemanticallyValid primitives record)
    (accepted : (receiptOf record electorateSize).outcome = .accepted) :
    record.draft.effects = noEffects ∧ 2 * electorateSize ≤ 3 * record.votes.entries.length ∧
      1 ≤ countVotes record .yes ∧
      2 * (countVotes record .yes + countVotes record .no) ≤ 3 * countVotes record .yes := by
  obtain ⟨status, quorum, approval, kind⟩ := outcome_accepted accepted
  have sum := countVotes_sum record
  simp only [decide_eq_true_eq, twoThirdsCeil_le_iff] at quorum approval
  refine ⟨?_, by omega, by omega, approval.2⟩
  rw [← eligible_iff]
  rcases valid.status with first | withdrawn
  · rw [status, initialStatus] at first
    split_ifs at first with eligible
    exact eligible.resolve_right kind
  · rw [status] at withdrawn
    cases withdrawn

/-! ## Votes and reports on a proposal -/

/-- A vote that is recorded on a proposal. -/
def isVote (proposalId : String) (choice : VoteChoice) : AssemblyEvent → Bool
  | (.castVote other _ vote, .ok _) => other = proposalId && vote = choice
  | _ => false

/-- A report that is attached to a proposal. -/
def isReport (proposalId : String) (sourceKind : AdvisorySourceKind) : AssemblyEvent → Bool
  | (.attachAdvisory other kind _ _, .ok _) => other = proposalId && kind = sourceKind
  | _ => false

/-- A vote or a report on a proposal. -/
def isBallot (proposalId : String) : AssemblyEvent → Bool
  | (.castVote other _ _, .ok _) => other = proposalId
  | (.attachAdvisory other _ _ _, .ok _) => other = proposalId
  | _ => false

/-- A vote on a proposal is a ballot. -/
theorem isBallot_of_isVote {proposalId : String} {choice : VoteChoice} {event : AssemblyEvent}
    (vote : isVote proposalId choice event = true) : isBallot proposalId event = true := by
  unfold isVote at vote
  split at vote
  · rw [Bool.and_eq_true] at vote
    exact vote.1
  · cases vote

/-- A report on a proposal is a ballot. -/
theorem isBallot_of_isReport {proposalId : String} {sourceKind : AdvisorySourceKind}
    {event : AssemblyEvent} (report : isReport proposalId sourceKind event = true) :
    isBallot proposalId event = true := by
  unfold isReport at report
  split at report
  · rw [Bool.and_eq_true] at report
    exact report.1
  · cases report

/-- An event changes a proposal. -/
def concerns (proposalId : String) : AssemblyEvent → Bool
  | (.submitProposal _, .ok (.proposal record)) => record.proposalId = proposalId
  | (operation, .ok _) => operation.proposalId = some proposalId
  | _ => false

/-- The number of reports of a kind. -/
def countReports (record : AssemblyProposalRecord) (sourceKind : AdvisorySourceKind) : Nat :=
  (record.advisoryReports.filter fun report => report.sourceKind = sourceKind).length

/-- What a submitted proposal has become after some votes and reports. -/
structure Polled (proposalId : String) (record : AssemblyProposalRecord)
    (events : List AssemblyEvent) (current : AssemblyProposalRecord) : Prop where
  /-- What was submitted stays. -/
  draft : current.draft = record.draft
  /-- The identity stays. -/
  identity : current.proposalId = record.proposalId
  /-- The assessment stays. -/
  charterGate : current.charterGate = record.charterGate
  /-- The electorate stays. -/
  electorateRef : current.electorateRef = record.electorateRef
  /-- Its size stays. -/
  electorateSize : current.electorateSize = record.electorateSize
  /-- The status stays. -/
  status : current.status = record.status
  /-- Each recorded vote is counted. -/
  votes : ∀ choice, countVotes current choice =
    countVotes record choice + events.countP (isVote proposalId choice)
  /-- Each attached report is counted. -/
  reports : ∀ sourceKind, countReports current sourceKind =
    countReports record sourceKind + events.countP (isReport proposalId sourceKind)

/-- A new vote adds to its kind. -/
theorem countVotes_insert {record : AssemblyProposalRecord} {memberId : String}
    (absent : record.votes.get? memberId = none) (vote choice : VoteChoice) :
    countVotes { record with votes := record.votes.insert memberId vote } choice =
      countVotes record choice + if vote = choice then 1 else 0 := by
  have grown := (Entries.insert_perm vote absent).map Prod.snd
  have kept := (grown.filter fun other => decide (other = choice)).length_eq
  simp only [countVotes, OrderedMap.values]
  change (((Entries.insert memberId vote record.votes.entries).map Prod.snd).filter _).length = _
  rw [kept, List.map_cons, List.filter_cons]
  by_cases same : vote = choice <;> simp [same]

/-- A new report adds to its kind. -/
theorem countReports_append (record : AssemblyProposalRecord) (report : AssemblyAdvisoryReport)
    (sourceKind : AdvisorySourceKind) :
    countReports { record with advisoryReports := record.advisoryReports ++ [report] } sourceKind =
      countReports record sourceKind + if report.sourceKind = sourceKind then 1 else 0 := by
  simp only [countReports, List.filter_append, List.length_append, List.filter_cons,
    List.filter_nil]
  by_cases same : report.sourceKind = sourceKind <;> simp [same]

/-- An event that is neither a vote nor a report on a proposal changes no count. -/
theorem Polled.skip {proposalId : String} {record current : AssemblyProposalRecord}
    {events : List AssemblyEvent} (polled : Polled proposalId record events current)
    {event : AssemblyEvent} (vote : ∀ choice, isVote proposalId choice event = false)
    (report : ∀ sourceKind, isReport proposalId sourceKind event = false) :
    Polled proposalId record (events ++ [event]) current :=
  { polled with
    votes := by
      intro choice
      rw [List.countP_append, List.countP_singleton, vote choice]
      exact polled.votes choice
    reports := by
      intro sourceKind
      rw [List.countP_append, List.countP_singleton, report sourceKind]
      exact polled.reports sourceKind }

/-- A replaced proposal is the one at its own identity and the old one elsewhere. -/
theorem get?_withProposal (assembly : FederationAssembly) (proposalId other : String)
    (record : AssemblyProposalRecord) :
    (withProposal assembly proposalId record).proposals.get? other =
      if other = proposalId then some record else assembly.proposals.get? other :=
  OrderedMap.get?_insert _ _ _ _

/-- One step keeps track of a proposal that only votes and reports change. -/
theorem Polled.step {proposalId : String} {record current : AssemblyProposalRecord}
    {events : List AssemblyEvent} {event : AssemblyEvent} {assembly next : FederationAssembly}
    (polled : Polled proposalId record events current)
    (here : assembly.proposals.get? proposalId = some current)
    (only : concerns proposalId event = true → isBallot proposalId event = true)
    (stepped : Stepped primitives assembly event next) :
    ∃ after, next.proposals.get? proposalId = some after ∧
      Polled proposalId record (events ++ [event]) after := by
  obtain ⟨operation, result⟩ := event
  rcases stepped_cases primitives stepped with ⟨error, failed, rfl⟩ | ⟨outcome, done, performed⟩
  · cases failed
    exact ⟨current, here, polled.skip (by cases operation <;> exact fun _ => rfl)
      (by cases operation <;> exact fun _ => rfl)⟩
  · cases done
    cases performed with
    | admitted | withdrawn => exact ⟨current, here, polled.skip (fun _ => rfl) fun _ => rfl⟩
    | @submitted draft proposer identity room found active counted identified valid =>
      have other : proposalId ≠ identity := by
        rintro rfl
        exact absurd (only (decide_eq_true rfl)) Bool.false_ne_true
      refine ⟨current, ?_, polled.skip (fun _ => rfl) fun _ => rfl⟩
      exact (OrderedMap.get?_insert_of_ne _ _ other).trans here
    | @attached other sourceKind sourceNode reportRef proposal found room pending valid =>
      by_cases same : proposalId = other
      · subst same
        rw [here] at found
        cases found
        refine ⟨_, (get?_withProposal _ _ _ _).trans (if_pos rfl), { polled with
          votes := ?_
          reports := ?_ }⟩
        · intro choice
          rw [List.countP_append, List.countP_singleton]
          exact polled.votes choice
        · intro kind
          have count := polled.reports kind
          rw [countReports_append, List.countP_append, List.countP_singleton]
          by_cases match_ : sourceKind = kind <;>
            simp only [isReport, attachedReport, match_, decide_true, decide_false, Bool.and_true,
              Bool.and_false, ↓reduceIte, Bool.false_eq_true] <;> omega
      · have apart : other ≠ proposalId := fun equal => same equal.symm
        refine ⟨current, (get?_withProposal _ _ _ _).trans ((if_neg same).trans here),
          polled.skip (fun _ => rfl) fun kind => ?_⟩
        simp only [isReport, apart, decide_false, Bool.false_and]
    | @voted other memberId choice electorate proposal snapshot member found pending first =>
      by_cases same : proposalId = other
      · subst same
        rw [here] at found
        cases found
        refine ⟨_, (get?_withProposal _ _ _ _).trans (if_pos rfl), { polled with
          votes := ?_
          reports := ?_ }⟩
        · intro vote
          have count := polled.votes vote
          rw [countVotes_insert first, List.countP_append, List.countP_singleton]
          by_cases match_ : choice = vote <;>
            simp only [isVote, match_, decide_true, decide_false, Bool.and_true, Bool.and_false,
              ↓reduceIte, Bool.false_eq_true] <;> omega
        · intro kind
          rw [List.countP_append, List.countP_singleton]
          exact polled.reports kind
      · have apart : other ≠ proposalId := fun equal => same equal.symm
        refine ⟨current, (get?_withProposal _ _ _ _).trans ((if_neg same).trans here),
          polled.skip (fun vote => ?_) fun _ => rfl⟩
        simp only [isVote, apart, decide_false, Bool.false_and]
    | @retracted other proposerMemberId proposal found proposer pending =>
      have different : proposalId ≠ other := by
        rintro rfl
        exact absurd (only (decide_eq_true rfl)) Bool.false_ne_true
      exact ⟨current, (get?_withProposal _ _ _ _).trans ((if_neg different).trans here),
        polled.skip (fun _ => rfl) fun _ => rfl⟩
    | @closed other receiptId snapshot electorate found taken size same identified =>
      have different : proposalId ≠ other := by
        rintro rfl
        exact absurd (only (decide_eq_true rfl)) Bool.false_ne_true
      refine ⟨current, ?_, polled.skip (fun _ => rfl) fun _ => rfl⟩
      rw [OrderedMap.get?_erase, if_neg different]
      exact here

/-- A run in which only votes and reports change a proposal adds them to its counts. -/
theorem polled_of_run {proposalId : String} {record : AssemblyProposalRecord}
    {events : List AssemblyEvent} {start final : FederationAssembly}
    (found : start.proposals.get? proposalId = some record)
    (run : Run (Stepped primitives) start events final)
    (only : ∀ event ∈ events, concerns proposalId event = true →
      isBallot proposalId event = true) :
    ∃ current, final.proposals.get? proposalId = some current ∧
      Polled proposalId record events current := by
  refine run.invariant (fun events assembly => (∀ event ∈ events, concerns proposalId event = true →
      isBallot proposalId event = true) → ∃ current,
        assembly.proposals.get? proposalId = some current ∧
          Polled proposalId record events current)
    (fun _ => ⟨record, found, ⟨rfl, rfl, rfl, rfl, rfl, rfl, fun _ => rfl, fun _ => rfl⟩⟩)
    (fun earlier middle event final _ before stepped more => ?_) only
  obtain ⟨current, here, polled⟩ :=
    before fun other listed => more other (List.mem_append_left _ listed)
  exact polled.step here (more event (List.mem_append_right _ List.mem_cons_self)) stepped

/-! ## Receipts -/

/-- Records that were polled alike have the same receipt. -/
theorem receiptOf_polled {proposalId : String} {record one two : AssemblyProposalRecord}
    {left right : List AssemblyEvent} (electorateSize : Nat)
    (first : Polled proposalId record left one) (second : Polled proposalId record right two)
    (same : (left.filter (isBallot proposalId)).Perm (right.filter (isBallot proposalId))) :
    receiptOf one electorateSize = receiptOf two electorateSize := by
  have counted : ∀ test : AssemblyEvent → Bool,
      (∀ event, test event = true → isBallot proposalId event = true) →
      left.countP test = right.countP test := by
    intro test ballots
    have within : ∀ events : List AssemblyEvent,
        events.countP test = (events.filter (isBallot proposalId)).countP test := by
      intro events
      rw [List.countP_filter]
      refine List.countP_congr fun event _ => ?_
      rw [Bool.and_eq_true, iff_self_and]
      exact ballots event
    rw [within left, within right, same.countP_eq]
  have votes : ∀ choice, countVotes one choice = countVotes two choice := by
    intro choice
    rw [first.votes, second.votes,
      counted (isVote proposalId choice) fun _ => isBallot_of_isVote]
  have reports : ∀ sourceKind, countReports one sourceKind = countReports two sourceKind := by
    intro sourceKind
    rw [first.reports, second.reports,
      counted (isReport proposalId sourceKind) fun _ => isBallot_of_isReport]
  have council : (one.advisoryReports.filter fun report =>
      report.sourceKind = .nexusCouncil).length =
      (two.advisoryReports.filter fun report => report.sourceKind = .nexusCouncil).length :=
    reports .nexusCouncil
  simp only [receiptOf, outcomeOf, votes, council, first.draft, second.draft, first.identity,
    second.identity, first.charterGate, second.charterGate, first.electorateRef,
    second.electorateRef, first.status, second.status]

variable (primitives) in
/-- A receipt counts at most as many votes as the electorate has members. When it accepts, no
forbidden effect was declared, two thirds of the electorate voted, and two thirds of the decisive
votes, at least one, are in favour. Two runs that go on from the same submitted proposal with the
same votes and reports in any order lead to the same receipt. -/
theorem receipt_sound_and_order_independent :
    (∀ events assembly, Run (Stepped primitives) new events assembly →
      ∀ proposalId receipt next, (perform primitives (.finalize proposalId)).run assembly =
          (.ok (.receipt receipt), next) →
      ∃ record electorate, assembly.proposals.get? proposalId = some record ∧
        assembly.electorates.get? proposalId = some electorate ∧
        receipt.electorateSize = electorate.entries.length ∧
        (∀ entry ∈ record.votes.entries, electorate.get? entry.1 = some ()) ∧
        receipt.yesVotes + receipt.noVotes + receipt.abstainVotes = record.votes.entries.length ∧
        receipt.yesVotes + receipt.noVotes + receipt.abstainVotes ≤ electorate.entries.length ∧
        (receipt.outcome = .accepted →
          record.draft.effects = noEffects ∧
          (2 * electorate.entries.length + 2) / 3 ≤ record.votes.entries.length ∧
          1 ≤ receipt.yesVotes ∧
          (2 * (receipt.yesVotes + receipt.noVotes) + 2) / 3 ≤ receipt.yesVotes)) ∧
    ∀ before after one two, Run (Stepped primitives) new before one →
      Run (Stepped primitives) new after two →
      ∀ proposalId record, one.proposals.get? proposalId = some record →
        two.proposals.get? proposalId = some record →
        ∀ left right last final, Run (Stepped primitives) one left last →
          Run (Stepped primitives) two right final →
          (∀ event ∈ left, concerns proposalId event = true → isBallot proposalId event = true) →
          (∀ event ∈ right, concerns proposalId event = true → isBallot proposalId event = true) →
          (left.filter (isBallot proposalId)).Perm (right.filter (isBallot proposalId)) →
          ∃ receipt, ((perform primitives (.finalize proposalId)).run last).1 =
              .ok (.receipt receipt) ∧
            ((perform primitives (.finalize proposalId)).run final).1 = .ok (.receipt receipt) := by
  constructor
  · intro events assembly run proposalId receipt next ran
    have consistent := consistent_of_run run
    have performed := perform_ok ran
    cases performed with
    | @closed _ receiptId record electorate found taken size same identified =>
      obtain ⟨other, again, backed⟩ := consistent.snapshots.taken proposalId record found
      rw [taken] at again
      cases again
      have sum := countVotes_sum record
      refine ⟨record, electorate, found, taken, rfl, fun entry listed =>
        backed.voters entry.1 entry.2 ((record.votes.mem_entries _ _).mp listed), sum, ?_, ?_⟩
      · exact sum.le.trans backed.votes_le
      · intro accepted
        obtain ⟨effects, quorum, favour, approval⟩ := receiptOf_accepted backed.valid accepted
        refine ⟨effects, by omega, favour, ?_⟩
        simp only [receiptOf]
        omega
  · intro before after one two runOne runTwo proposalId record foundOne foundTwo left right last
      final runLeft runRight onlyLeft onlyRight same
    obtain ⟨current, here, polled⟩ := polled_of_run foundOne runLeft onlyLeft
    obtain ⟨other, there, polledOther⟩ := polled_of_run foundTwo runRight onlyRight
    obtain ⟨electorate, receiptId, -, sizeLeft, identified, ranLeft⟩ :=
      (consistent_of_run (runOne.append runLeft)).finalize here
    obtain ⟨voters, otherId, -, sizeRight, identifiedOther, ranRight⟩ :=
      (consistent_of_run (runTwo.append runRight)).finalize there
    have size : electorate.entries.length = voters.entries.length := by
      rw [sizeLeft, sizeRight, polled.electorateSize, polledOther.electorateSize]
    have receipts := receiptOf_polled voters.entries.length polled polledOther same
    rw [size, receipts] at identified
    have ids : receiptId = otherId := Except.ok.inj (identified.symm.trans identifiedOther)
    refine ⟨_, congrArg Prod.fst ranLeft, ?_⟩
    rw [ranRight, size, receipts, ids]

/-- The report of the example. -/
def recordedReport : AssemblyAdvisoryReport := attachedReport .nexusCouncil none zeroRef

/-- The vote of the example. -/
def recordedVote : AssemblyEvent := (.castVote zeroRef "assembly:ada" .yes, .ok .done)

/-- The report of the example is attached. -/
def recordedAdvice : AssemblyEvent :=
  (.attachAdvisory zeroRef .nexusCouncil none zeroRef, .ok (.advisory recordedReport))

/-- A vote and a report in both orders lead to the same receipt. -/
theorem receipt_sound_and_order_independent_swapped : ∃ last final receipt,
    Run (Stepped zeroPrimitives) proposedAssembly [recordedVote, recordedAdvice] last ∧
    Run (Stepped zeroPrimitives) proposedAssembly [recordedAdvice, recordedVote] final ∧
    ((perform zeroPrimitives (.finalize zeroRef)).run last).1 = .ok (.receipt receipt) ∧
    ((perform zeroPrimitives (.finalize zeroRef)).run final).1 = .ok (.receipt receipt) := by
  have advised : ∀ assembly proposal, assembly.proposals.get? zeroRef = some proposal →
      proposal.advisoryReports = [] → proposal.status = .open →
      Stepped zeroPrimitives assembly recordedAdvice (withProposal assembly zeroRef
        { proposal with advisoryReports := proposal.advisoryReports ++ [recordedReport] }) := by
    intro assembly proposal found empty status
    exact Performed.ran (.attached found (by rw [empty]; decide) (.inl status) (by decide))
  have voted : ∀ assembly electorate proposal,
      assembly.electorates.get? zeroRef = some electorate →
      electorate.get? "assembly:ada" = some () → assembly.proposals.get? zeroRef = some proposal →
      proposal.status = .open → proposal.votes.get? "assembly:ada" = none →
      Stepped zeroPrimitives assembly recordedVote (withProposal assembly zeroRef
        { proposal with votes := proposal.votes.insert "assembly:ada" .yes }) :=
    fun _ _ _ snapshot member found pending first =>
      Performed.ran (.voted snapshot member found pending first)
  have votedFirst := (Run.single
    (voted proposedAssembly (setOf ["assembly:ada"]) recordedProposal rfl rfl rfl rfl rfl)).snoc
    (advised _ _ rfl rfl rfl)
  have advisedFirst := (Run.single (advised proposedAssembly recordedProposal rfl rfl rfl)).snoc
    (voted _ (setOf ["assembly:ada"])
      { recordedProposal with advisoryReports := [] ++ [recordedReport] } rfl rfl rfl rfl rfl)
  obtain ⟨receipt, first, second⟩ := (receipt_sound_and_order_independent zeroPrimitives).2 _ _ _ _
    proposedAssembly_run proposedAssembly_run zeroRef recordedProposal rfl rfl _ _ _ _ votedFirst
    advisedFirst (by decide) (by decide) (List.Perm.swap _ _ _)
  exact ⟨_, _, receipt, votedFirst, advisedFirst, first, second⟩

end QsolFed.Assembly
