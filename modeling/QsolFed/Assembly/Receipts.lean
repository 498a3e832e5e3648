import QsolFed.Assembly.Electorates
import QsolFed.Encoding.Size
import Mathlib.Algebra.Order.BigOperators.Group.List

/-!
# Closing proposals

The receipt of a proposal is plain data of bounded size, so its canonical bytes always exist, and a
proposal that is not closed can be closed. The identity of a proposal fixes its place in the order
of submission, so while no two digested identities collide no proposal is closed twice.
-/
namespace QsolFed.Assembly

open Checked Json Effect Canonical

variable {primitives : Primitives}

/-! ## The canonical bytes of a receipt -/

/-- The invariants of the charter. -/
def charterInvariantIds : List String :=
  (charterInvariants ⟨true, true, true, true, true, true, true, true, true, true, true, true,
    true⟩).map Prod.snd

/-- A draft violates invariants of the charter only. -/
theorem violations_subset (draft : AssemblyProposalDraft) :
    (assessCharterGate draft).violatedInvariantIds.Sublist charterInvariantIds := by
  have all : (charterInvariants draft.effects).map Prod.snd = charterInvariantIds := rfl
  rw [← all]
  exact List.filter_sublist.map Prod.snd

/-- A small count is small. -/
theorem small_count {count : Nat} (small : count ≤ 9999) : Small 4 (writeCount count) := by
  refine ⟨⟨count, rfl, ?_, ?_⟩, ?_⟩
  · exact le_trans (by decide) (Int.natCast_nonneg count)
  · have bound : (9999 : Int) ≤ safeIntegerMax := by decide
    omega
  · rw [writeCount, writtenSize_natCast, Nat.length_toDigits_le_iff (by decide) (by decide)]
    omega

/-- The name of a disposition is small. -/
theorem small_disposition (disposition : CharterGateDisposition) :
    Small 100 (.string disposition.name) := by
  cases disposition <;> exact small_text (by decide) (by decide)

/-- The name of an outcome is small. -/
theorem small_outcome (outcome : GovernanceOutcome) : Small 100 (.string outcome.name) := by
  cases outcome <;> exact small_text (by decide) (by decide)

/-- The name of a version path is small. -/
theorem small_versionPath (path : VersionPath) : Small 200 (.string path.name) := by
  cases path <;> exact small_text (by decide) (by decide)

/-- The invariants of the charter are small. -/
theorem small_invariants (draft : AssemblyProposalDraft) :
    Small 4000 (.array ((assessCharterGate draft).violatedInvariantIds.map .string)) := by
  have sublist := violations_subset draft
  have each : ∀ id ∈ charterInvariantIds, Small 300 (.string id) := by
    have checked : ∀ id ∈ charterInvariantIds,
        isPlainText id = true ∧ 6 * id.utf8ByteSize + 2 ≤ 300 := by decide
    exact fun id member => small_text (checked id member).1 (checked id member).2
  have few := sublist.length_le
  have count : charterInvariantIds.length = 13 := rfl
  generalize (assessCharterGate draft).violatedInvariantIds = ids at sublist few
  constructor
  · refine ⟨?_, (plainItems_iff _).mpr fun item member => ?_⟩
    · rw [List.length_map]
      exact few.trans (by decide)
    · obtain ⟨id, listed, rfl⟩ := List.mem_map.mp member
      exact (each id (sublist.subset listed)).1
  · have total : ((ids.map Value.string).map writtenSize).sum ≤ ids.length * 300 := by
      have bound := List.sum_le_card_nsmul ((ids.map Value.string).map writtenSize) 300 (by
        intro size member
        obtain ⟨_, listed, rfl⟩ := List.mem_map.mp member
        obtain ⟨id, inner, rfl⟩ := List.mem_map.mp listed
        exact (each id (sublist.subset inner)).2)
      simpa using bound
    rw [writtenSize_array, List.length_map]
    omega

/-- The text of an empty effect is small. -/
theorem small_none : Small 100 (.string "none") := small_text (by decide) (by decide)

/-- The version of the gate is small. -/
theorem small_gate : Small 200 (.string assemblyCharterGateV1) :=
  small_text (by decide) (by decide)

/-- The schema of receipts is small. -/
theorem small_schema : Small 300 (.string assemblyReceiptSchemaV1) :=
  small_text (by decide) (by decide)

/-- The model of representation is small. -/
theorem small_representation : Small 300 (.string assemblyRepresentationV1) :=
  small_text (by decide) (by decide)

/-- The assessment of a draft is small. -/
theorem small_assessment (draft : AssemblyProposalDraft) :
    Small 6000 (writeAssessment (assessCharterGate draft)) :=
  @small_object [("gate", 200), ("disposition", 100), ("violated_invariant_ids", 4000),
    ("current_lineage_eligible", 5), ("member_local_authority_effect", 100)] _ 6000
    (by decide) <|
    .cons ⟨rfl, small_gate⟩ <|
    .cons ⟨rfl, small_disposition _⟩ <|
    .cons ⟨rfl, small_invariants draft⟩ <|
    .cons ⟨rfl, small_bool _⟩ <|
    .cons ⟨rfl, small_none⟩ .nil

/-- What the reference to a receipt covers. -/
def receiptProjection (receipt : AssemblyGovernanceReceipt) : Value String :=
  .object ((receiptMembers receipt).filter fun member => member.1 ≠ "receipt_id")

/-- The receipt of a proposal is small. -/
theorem small_receipt {record : AssemblyProposalRecord} {electorateSize : Nat}
    (valid : SemanticallyValid primitives record) (size : electorateSize = record.electorateSize) :
    Small 40000 (receiptProjection (receiptOf record electorateSize)) := by
  have fits : record.electorateSize ≤ 1024 := valid.electorateFits
  have sum := countVotes_sum record
  have cast := valid.votes
  have gate : Small 6000 (writeAssessment record.charterGate) := by
    rw [valid.charterGate]
    exact small_assessment record.draft
  have votes : ∀ choice, Small 4 (writeCount (countVotes record choice)) := by
    intro choice
    apply small_count
    cases choice <;> omega
  have thirds : ∀ value, value ≤ 1024 → Small 4 (writeCount (twoThirdsCeil value)) := by
    intro value small
    apply small_count
    unfold twoThirdsCeil
    split <;> omega
  have reports : Small 4 (writeCount (record.advisoryReports.filter fun report =>
      report.sourceKind = .nexusCouncil).length) :=
    small_count ((List.length_filter_le _ _).trans (valid.advisories.trans (by decide)))
  have voters : Small 4 (writeCount electorateSize) := small_count (by omega)
  have weightless : Small 4 (writeCount 0) := small_count (by decide)
  refine @small_object [("schema", 300), ("proposal_id", 73), ("outcome", 100),
    ("charter_gate", 6000), ("representation_model", 300), ("electorate_ref", 73),
    ("electorate_size", 4), ("yes_votes", 4), ("no_votes", 4), ("abstain_votes", 4),
    ("quorum_required", 4), ("quorum_met", 5), ("approval_required", 4), ("approval_met", 5),
    ("version_path", 200), ("source_change_required", 5), ("protocol_changed_automatically", 5),
    ("member_local_authority_mutated", 5), ("nexus_advisory_reports", 4),
    ("nexus_advisory_vote_weight", 4), ("authority_effect", 100)] _ 40000 (by decide) ?_
  exact .cons ⟨rfl, small_schema⟩ <|
    .cons ⟨rfl, small_ref valid.proposalId⟩ <|
    .cons ⟨rfl, small_outcome _⟩ <|
    .cons ⟨rfl, gate⟩ <|
    .cons ⟨rfl, small_representation⟩ <|
    .cons ⟨rfl, small_ref valid.electorateRef⟩ <|
    .cons ⟨rfl, voters⟩ <|
    .cons ⟨rfl, votes .yes⟩ <|
    .cons ⟨rfl, votes .no⟩ <|
    .cons ⟨rfl, votes .abstain⟩ <|
    .cons ⟨rfl, thirds _ (by omega)⟩ <|
    .cons ⟨rfl, small_bool _⟩ <|
    .cons ⟨rfl, thirds _ (by omega)⟩ <|
    .cons ⟨rfl, small_bool _⟩ <|
    .cons ⟨rfl, small_versionPath _⟩ <|
    .cons ⟨rfl, small_bool _⟩ <|
    .cons ⟨rfl, small_bool _⟩ <|
    .cons ⟨rfl, small_bool _⟩ <|
    .cons ⟨rfl, reports⟩ <|
    .cons ⟨rfl, weightless⟩ <|
    .cons ⟨rfl, small_none⟩ .nil

/-- An assessment nests two levels. -/
theorem nesting_assessment (assessment : CharterGateAssessment) :
    (writeAssessment assessment).nesting = 2 := by
  simp [writeAssessment, Value.nesting, Value.nestingMembers, nestingItems_texts]

/-- A receipt nests three levels. -/
theorem nesting_receipt (receipt : AssemblyGovernanceReceipt) :
    (receiptProjection receipt).nesting = 3 := by
  simp [receiptProjection, receiptMembers, Value.nesting, Value.nestingMembers, nesting_assessment,
    writeCount]

/-- The reference to the receipt of a proposal exists. -/
theorem receipt_identified {record : AssemblyProposalRecord} {electorateSize : Nat}
    (valid : SemanticallyValid primitives record) (size : electorateSize = record.electorateSize) :
    ∃ receiptId, canonicalIdWithoutField primitives
      (receiptMembers (receiptOf record electorateSize)) "receipt_id" = .ok receiptId := by
  obtain ⟨plain, short⟩ := small_receipt valid size
  have shallow : (receiptProjection (receiptOf record electorateSize)).nesting < maxDepth := by
    rw [nesting_receipt]
    decide
  obtain ⟨output, accepted⟩ := (canonicalize_plain_iff primitives.unicode plain shallow).mpr
    (short.trans (by decide))
  refine ⟨Digest.sha256Ref primitives output, ?_⟩
  change canonicalId primitives (receiptProjection (receiptOf record electorateSize)) = _
  rw [canonicalId, accepted]
  rfl

/-- A proposal that is not closed is closed by the next attempt. -/
theorem Consistent.finalize {assembly : FederationAssembly}
    (consistent : Consistent primitives assembly) {proposalId : String}
    {record : AssemblyProposalRecord}
    (found : assembly.proposals.get? proposalId = some record) :
    ∃ electorate receiptId, assembly.electorates.get? proposalId = some electorate ∧
      electorate.entries.length = record.electorateSize ∧
      canonicalIdWithoutField primitives
        (receiptMembers (receiptOf record electorate.entries.length)) "receipt_id" =
          .ok receiptId ∧
      (perform primitives (.finalize proposalId)).run assembly =
        (.ok (.receipt { receiptOf record electorate.entries.length with receiptId }),
          { assembly with
            proposals := assembly.proposals.erase proposalId
            electorates := assembly.electorates.erase proposalId }) := by
  obtain ⟨electorate, taken, backed⟩ := consistent.snapshots.taken proposalId record found
  obtain ⟨receiptId, identified⟩ := receipt_identified backed.valid backed.size
  exact ⟨electorate, receiptId, taken, backed.size, identified,
    (Performed.closed found taken backed.size backed.same identified).ran⟩

/-! ## The identity of a proposal -/

/-- The identity of a record digests these bytes. -/
def Identifies (primitives : Primitives) (record : AssemblyProposalRecord) (input : ByteArray) :
    Prop := canonicalize primitives.unicode (writtenBytes (identityProjection record)) = .ok input

/-- The identity of a record is the reference to the bytes that it digests. -/
theorem proposalIdentity_ok_iff (record : AssemblyProposalRecord) (identity : String) :
    proposalIdentity primitives record = .ok identity ↔
      ∃ input, Identifies primitives record input ∧
        Digest.sha256Ref primitives input = identity := by
  simp only [proposalIdentity, canonicalId, bind_ok_iff, mapError_ok_iff, pure_ok_iff, Identifies]

/-- The bytes that an identity digests fix the place of the proposal. -/
theorem sequence_of_identity {one two : AssemblyProposalRecord} {input : ByteArray}
    (first : Identifies primitives one input) (second : Identifies primitives two input) :
    one.sequence = two.sequence := by
  have placed : ∀ record, Identifies primitives record input → ∃ members,
      parseNode primitives.unicode input = .ok (.object members) ∧
      Entries.find "sequence" members = some (.integer record.sequence.toNat) := by
    intro record identifies
    have integral : (identityProjection record).Integral := by
      simp [identityProjection, writeAssessment, writeDraft, writeEffects, writeCount,
        Value.Integral, Value.IntegralMembers, Number.Integral, Number.ofInt, integralItems_texts]
    have shallow : (identityProjection record).nesting ≤ recursionLimit := by
      simp [identityProjection, writeDraft, writeEffects, writeCount, Value.nesting,
        Value.nestingMembers, nesting_assessment, recursionLimit]
    obtain ⟨node, visited, parsed⟩ := canonicalize_node integral shallow identifies
    simp only [identityProjection, visit, bind_ok_iff, pure_ok_iff] at visited
    obtain ⟨members, visitedMembers, rfl⟩ := visited
    have ascii : primitives.unicode.nfc "sequence" = "sequence" :=
      (plainText_of_check (by decide : isPlainText "sequence" = true)).nfc _
    obtain ⟨number, visitedNumber, found⟩ := (visitMap_find (by simp) visitedMembers).2 "sequence"
      (writeCount record.sequence.toNat) (by simp)
    rw [ascii] at found
    refine ⟨members, parsed, ?_⟩
    have small := visit_natCast_small visitedNumber
    simp only [writeCount, visit] at visitedNumber
    rw [Node.visitNumber_ofInt ⟨le_trans (by decide) (Int.natCast_nonneg _), small⟩]
      at visitedNumber
    cases visitedNumber
    exact found
  obtain ⟨members, parsed, found⟩ := placed one first
  obtain ⟨others, again, foundAgain⟩ := placed two second
  rw [parsed] at again
  cases again
  rw [found] at foundAgain
  have same : (one.sequence.toNat : Int) = two.sequence.toNat :=
    Node.integer.inj (Option.some.inj foundAgain)
  exact UInt64.toNat_inj.mp (Int.ofNat_inj.mp same)

/-! ## Runs -/

/-- A step of a run: an operation with its result. -/
abbrev AssemblyEvent := AssemblyOperation × Except AssemblyError AssemblyOutcome

/-- The record that an event submits. -/
def submission : AssemblyEvent → Option AssemblyProposalRecord
  | (.submitProposal _, .ok (.proposal record)) => some record
  | _ => none

/-- The proposal that an event issues a receipt for. -/
def closing : AssemblyEvent → Option String
  | (.finalize proposalId, .ok _) => some proposalId
  | _ => none

/-- The proposals that a run issues receipts for. -/
def receipts (events : List AssemblyEvent) : List String := events.filterMap closing

/-- The bytes that the identities of the submitted proposals digest do not collide. -/
def CollisionFree (primitives : Primitives) (events : List AssemblyEvent) : Prop :=
  ∀ one ∈ events.filterMap submission, ∀ two ∈ events.filterMap submission, ∀ first second,
    Identifies primitives one first → Identifies primitives two second →
    Digest.sha256Ref primitives first = Digest.sha256Ref primitives second → first = second

/-- The part of a run before other steps has no collisions either. -/
theorem CollisionFree.of_append {events more : List AssemblyEvent}
    (distinct : CollisionFree primitives (events ++ more)) : CollisionFree primitives events := by
  intro one first two second
  rw [CollisionFree, List.filterMap_append] at distinct
  exact distinct one (List.mem_append_left _ first) two (List.mem_append_left _ second)

/-- The operations on a proposal. -/
def AssemblyOperation.proposalId : AssemblyOperation → Option String
  | .attachAdvisory proposalId _ _ _ | .castVote proposalId _ _ | .withdrawProposal proposalId _
  | .finalize proposalId => some proposalId
  | .admitMember _ | .withdrawMember _ | .submitProposal _ => none

variable (primitives) in
/-- The places of submitted proposals lie before the next place, and closed proposals were submitted
and are gone. -/
structure Numbered (events : List AssemblyEvent) (assembly : FederationAssembly) : Prop where
  /-- Submitted proposals have their identities. -/
  identified : ∀ record ∈ events.filterMap submission,
    proposalIdentity primitives record = .ok record.proposalId
  /-- Their places lie before the next place. -/
  earlier : ∀ record ∈ events.filterMap submission,
    record.sequence.toNat < assembly.nextSequence.toNat
  /-- A proposal was submitted. -/
  known : ∀ proposalId record, assembly.proposals.get? proposalId = some record →
    ∃ submitted ∈ events.filterMap submission, submitted.proposalId = proposalId
  /-- A closed proposal was submitted and is gone. -/
  closed : ∀ proposalId ∈ receipts events,
    (∃ submitted ∈ events.filterMap submission, submitted.proposalId = proposalId) ∧
      assembly.proposals.get? proposalId = none
  /-- No proposal is closed twice. -/
  once : (receipts events).Nodup

/-- A step that neither submits nor closes a proposal keeps the numbering. -/
theorem Numbered.quiet {events : List AssemblyEvent} {event : AssemblyEvent}
    {assembly next : FederationAssembly} (numbered : Numbered primitives events assembly)
    (noSubmission : submission event = none) (noReceipt : closing event = none)
    (place : next.nextSequence = assembly.nextSequence)
    (proposals : ∀ proposalId, (assembly.proposals.get? proposalId).isSome =
      (next.proposals.get? proposalId).isSome) :
    Numbered primitives (events ++ [event]) next := by
  have submissions : (events ++ [event]).filterMap submission = events.filterMap submission := by
    simp [List.filterMap_append, noSubmission]
  have closings : receipts (events ++ [event]) = receipts events := by
    simp [receipts, List.filterMap_append, noReceipt]
  obtain ⟨identified, earlier, known, closed, once⟩ := numbered
  constructor
  all_goals simp only [submissions, closings, place]
  · exact identified
  · exact earlier
  · intro proposalId record found
    have there : (assembly.proposals.get? proposalId).isSome = true := by
      rw [proposals, found]
      rfl
    exact known proposalId _ (Option.some_get there).symm
  · intro proposalId listed
    obtain ⟨submitted, gone⟩ := closed proposalId listed
    refine ⟨submitted, ?_⟩
    have none_ := proposals proposalId
    rw [gone] at none_
    exact Option.isSome_eq_false_iff.mp none_.symm |> Option.isNone_iff_eq_none.mp
  · exact once

/-- Replacing the record of a proposal closes none and adds none. -/
theorem isSome_withProposal {assembly : FederationAssembly} {proposalId : String}
    {old : AssemblyProposalRecord} (record : AssemblyProposalRecord)
    (found : assembly.proposals.get? proposalId = some old) (other : String) :
    (assembly.proposals.get? other).isSome =
      ((withProposal assembly proposalId record).proposals.get? other).isSome := by
  simp only [withProposal, OrderedMap.get?_insert]
  split_ifs with here
  · rw [here, found]
    rfl
  · rfl

/-- Every step keeps the numbering while identities do not collide. -/
theorem Numbered.step {events : List AssemblyEvent} {event : AssemblyEvent}
    {assembly next : FederationAssembly} (numbered : Numbered primitives events assembly)
    (distinct : CollisionFree primitives (events ++ [event]))
    (stepped : Stepped primitives assembly event next) :
    Numbered primitives (events ++ [event]) next := by
  obtain ⟨operation, result⟩ := event
  rcases stepped_cases primitives stepped with ⟨error, failed, rfl⟩ | ⟨outcome, done, performed⟩
  · cases failed
    exact numbered.quiet (by cases operation <;> rfl) (by cases operation <;> rfl) rfl fun _ => rfl
  · cases done
    cases performed with
    | admitted | withdrawn => exact numbered.quiet rfl rfl rfl fun _ => rfl
    | attached found => exact numbered.quiet rfl rfl rfl (isSome_withProposal _ found)
    | voted snapshot member found => exact numbered.quiet rfl rfl rfl (isSome_withProposal _ found)
    | retracted found => exact numbered.quiet rfl rfl rfl (isSome_withProposal _ found)
    | @submitted draft proposer identity room found active counted identified valid =>
      have submissions : (events ++ [((AssemblyOperation.submitProposal draft,
          .ok (.proposal (submittedRecord primitives assembly draft identity))) :
            AssemblyEvent)]).filterMap submission =
          events.filterMap submission ++ [submittedRecord primitives assembly draft identity] := by
        rw [List.filterMap_append]
        rfl
      have closings : receipts (events ++ [((AssemblyOperation.submitProposal draft,
          .ok (.proposal (submittedRecord primitives assembly draft identity))) :
            AssemblyEvent)]) = receipts events := by
        simp [receipts, List.filterMap_append, closing]
      have later : (assembly.nextSequence + 1).toNat = assembly.nextSequence.toNat + 1 := by
        rw [UInt64.toNat_add, UInt64.toNat_one]
        omega
      -- the identity is new, because it fixes a place that no earlier proposal has
      have fresh : ∀ old ∈ events.filterMap submission, old.proposalId ≠ identity := by
        intro old listed same
        obtain ⟨first, identifies, digest⟩ :=
          (proposalIdentity_ok_iff old _).mp (numbered.identified old listed)
        obtain ⟨second, identifiesNew, digestNew⟩ := (proposalIdentity_ok_iff _ _).mp identified
        have inputs := distinct old (by rw [submissions]; exact List.mem_append_left _ listed)
          (submittedRecord primitives assembly draft identity)
          (by rw [submissions]; exact List.mem_append_right _ List.mem_cons_self) first second
          identifies identifiesNew (digest.trans (same.trans digestNew.symm))
        subst inputs
        have places := sequence_of_identity identifies identifiesNew
        have before := numbered.earlier old listed
        rw [places] at before
        exact absurd before (lt_irrefl _)
      constructor
      all_goals simp only [submissions, closings, later]
      · intro record listed
        rcases List.mem_append.mp listed with old | last
        · exact numbered.identified record old
        · cases List.mem_singleton.mp last
          exact identified
      · intro record listed
        rcases List.mem_append.mp listed with old | last
        · have before := numbered.earlier record old
          omega
        · cases List.mem_singleton.mp last
          exact Nat.lt_succ_self _
      · intro proposalId record looked
        rw [OrderedMap.get?_insert] at looked
        split_ifs at looked with here
        · subst here
          exact ⟨_, List.mem_append_right _ List.mem_cons_self, rfl⟩
        · obtain ⟨submitted, listed, same⟩ := numbered.known proposalId record looked
          exact ⟨submitted, List.mem_append_left _ listed, same⟩
      · intro proposalId listed
        obtain ⟨⟨submitted, old, same⟩, gone⟩ := numbered.closed proposalId listed
        refine ⟨⟨submitted, List.mem_append_left _ old, same⟩, ?_⟩
        rw [OrderedMap.get?_insert_of_ne _ _ (same ▸ fresh submitted old)]
        exact gone
      · exact numbered.once
    | @closed proposalId receiptId snapshot electorate found taken size same identified =>
      have submissions : (events ++ [((AssemblyOperation.finalize proposalId,
          .ok (.receipt { receiptOf snapshot electorate.entries.length with receiptId })) :
            AssemblyEvent)]).filterMap submission = events.filterMap submission := by
        simp [List.filterMap_append, submission]
      have closings : receipts (events ++ [((AssemblyOperation.finalize proposalId,
          .ok (.receipt { receiptOf snapshot electorate.entries.length with receiptId })) :
            AssemblyEvent)]) = receipts events ++ [proposalId] := by
        rw [receipts, List.filterMap_append]
        rfl
      have unclosed : proposalId ∉ receipts events := by
        intro listed
        rw [(numbered.closed proposalId listed).2] at found
        cases found
      constructor
      all_goals simp only [submissions, closings]
      · exact numbered.identified
      · exact numbered.earlier
      · intro other record looked
        rw [OrderedMap.get?_erase] at looked
        split_ifs at looked
        exact numbered.known other record looked
      · intro other listed
        rw [OrderedMap.get?_erase]
        rcases List.mem_append.mp listed with old | last
        · obtain ⟨submitted, gone⟩ := numbered.closed other old
          refine ⟨submitted, ?_⟩
          split_ifs
          · rfl
          · exact gone
        · cases List.mem_singleton.mp last
          exact ⟨numbered.known _ snapshot found, if_pos rfl⟩
      · exact List.nodup_append.mpr ⟨numbered.once, List.nodup_singleton _, fun other old last here => by
          rw [List.mem_singleton] at here
          rintro rfl
          exact unclosed (here ▸ old)⟩

/-- The numbering holds after every run. -/
theorem numbered_of_run {events : List AssemblyEvent} {assembly : FederationAssembly}
    (run : Run (Stepped primitives) new events assembly)
    (distinct : CollisionFree primitives events) : Numbered primitives events assembly := by
  refine run.invariant
    (fun events assembly => CollisionFree primitives events → Numbered primitives events assembly)
    (fun _ => ?_) (fun earlier middle event final _ before stepped more => ?_) distinct
  · refine ⟨?_, ?_, ?_, ?_, List.nodup_nil⟩
    · intro record listed
      cases listed
    · intro record listed
      cases listed
    · intro proposalId record found
      cases found
    · intro proposalId listed
      cases listed
  · exact (before more.of_append).step more stepped

/-- Every operation on a proposal that is not there fails. -/
theorem perform_gone {assembly : FederationAssembly} {proposalId : String}
    (gone : assembly.proposals.get? proposalId = none) {operation : AssemblyOperation}
    (on : operation.proposalId = some proposalId) :
    ∃ error, (perform primitives operation).run assembly = (.error error, assembly) := by
  rcases ran : (perform primitives operation).run assembly with ⟨result, next⟩
  cases result with
  | error error =>
    obtain rfl := perform_clean primitives operation assembly error next ran
    exact ⟨error, rfl⟩
  | ok outcome =>
    have performed := perform_ok ran
    cases performed with
    | admitted | withdrawn | submitted => cases on
    | attached found | retracted found | closed found =>
      cases on
      rw [gone] at found
      cases found
    | voted snapshot member found =>
      cases on
      rw [gone] at found
      cases found

variable (primitives) in
/-- In every run in which identities do not collide, a proposal that is not closed passes the
semantic check and can be closed, at most one receipt is issued for a proposal, and every operation
on a closed proposal fails. An operation that fails changes nothing. -/
theorem every_proposal_closed_once {events : List AssemblyEvent} {assembly : FederationAssembly}
    (run : Run (Stepped primitives) new events assembly)
    (distinct : CollisionFree primitives events) :
    (∀ proposalId record, assembly.proposals.get? proposalId = some record →
      validateProposalRecordSemantics primitives record = .ok () ∧
        ∃ receipt next, (perform primitives (.finalize proposalId)).run assembly =
          (.ok (.receipt receipt), next)) ∧
    (receipts events).Nodup ∧
    (∀ proposalId ∈ receipts events,
      (∀ operation : AssemblyOperation, operation.proposalId = some proposalId →
        ∃ error, (perform primitives operation).run assembly = (.error error, assembly)) ∧
      ∃ error, electorateSnapshot assembly proposalId = .error error) ∧
    ∀ state operation error next,
      (perform primitives operation).run state = (.error error, next) → next = state := by
  have consistent := consistent_of_run run
  have numbered := numbered_of_run run distinct
  refine ⟨?_, numbered.once, ?_, fun state operation => perform_clean primitives operation state⟩
  · intro proposalId record found
    obtain ⟨electorate, taken, backed⟩ := consistent.snapshots.taken proposalId record found
    obtain ⟨_, receiptId, -, -, -, ran⟩ := consistent.finalize found
    exact ⟨(validateProposalRecordSemantics_iff record).mpr backed.valid, _, _, ran⟩
  · intro proposalId listed
    have gone := (numbered.closed proposalId listed).2
    refine ⟨fun operation on => perform_gone gone on, .code "assembly_proposal_unknown", ?_⟩
    have untaken : assembly.electorates.get? proposalId = none := by
      cases taken : assembly.electorates.get? proposalId with
      | none => rfl
      | some electorate =>
        obtain ⟨record, found⟩ := consistent.snapshots.kept proposalId electorate taken
        rw [gone] at found
        cases found
    simp only [electorateSnapshot, untaken]
    rfl

/-- The example has one proposal, so its identities do not collide. -/
theorem returningEvents_collisionFree : CollisionFree zeroPrimitives returningEvents := by
  intro one first two second
  have only : returningEvents.filterMap submission = [recordedProposal] := rfl
  rw [only, List.mem_singleton] at first second
  subst first second
  intro left right identifies identifiesAgain _
  exact Except.ok.inj (identifies.symm.trans identifiesAgain)

/-- The proposal of the example can be closed. -/
theorem every_proposal_closed_once_returned : ∃ receipt next,
    (perform zeroPrimitives (.finalize zeroRef)).run returnedAssembly =
      (.ok (.receipt receipt), next) :=
  ((every_proposal_closed_once zeroPrimitives returningEvents_run
    returningEvents_collisionFree).1 zeroRef _ rfl).2

end QsolFed.Assembly
