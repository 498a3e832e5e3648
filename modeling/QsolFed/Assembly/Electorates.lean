import QsolFed.Assembly.Members

/-!
# Electorates and votes

An electorate is the set of members that take part when a proposal is submitted. It stays as it
was taken, its members represent different subjects, and only they vote, once each. The record of
a proposal passes the semantic check for as long as the proposal is not closed.
-/
namespace QsolFed.Assembly

open Checked Json Effect

variable {primitives : Primitives}

/-! ## Taking an electorate -/

/-- The members that take part, by name. -/
theorem activeMembers_eq {assembly : FederationAssembly}
    (registered : Registered primitives assembly) : activeMembers assembly =
      (assembly.members.entries.filter fun entry => entry.2.status = .active).map Prod.fst := by
  have named : ∀ entry ∈ assembly.members.entries, entry.2.memberId = entry.1 :=
    fun entry member => registered.named entry.1 entry.2 ((assembly.members.mem_entries _ _).mp member)
  simp only [activeMembers, OrderedMap.values]
  generalize assembly.members.entries = entries at named ⊢
  induction entries with
  | nil => rfl
  | cons entry rest ih =>
    have here := named entry List.mem_cons_self
    have later := ih fun other member => named other (List.mem_cons_of_mem _ member)
    by_cases active : entry.2.status = .active
    · simp only [List.map_cons, List.filter_cons, active, decide_true, ↓reduceIte, here, later]
    · simp only [List.map_cons, List.filter_cons, active, decide_false, Bool.false_eq_true,
        ↓reduceIte, later]

/-- A member takes part when its record says so. -/
theorem mem_activeMembers {assembly : FederationAssembly}
    (registered : Registered primitives assembly) (memberId : String) :
    memberId ∈ activeMembers assembly ↔
      ∃ member, assembly.members.get? memberId = some member ∧ member.status = .active := by
  simp only [activeMembers_eq registered, List.mem_map, List.mem_filter, decide_eq_true_eq,
    Prod.exists, exists_and_right, exists_eq_right, OrderedMap.mem_entries]

/-- The members that take part are listed in order. -/
theorem activeMembers_sorted {assembly : FederationAssembly}
    (registered : Registered primitives assembly) :
    (activeMembers assembly).Pairwise (· < ·) := by
  rw [activeMembers_eq registered]
  exact assembly.members.sorted.sublist (List.filter_sublist.map Prod.fst)

/-- A set of names in order lists them in order. -/
theorem entries_setOf {memberIds : List String} (sorted : memberIds.Pairwise (· < ·)) :
    (setOf memberIds).entries.map Prod.fst = memberIds := by
  have grown : ∀ (rest : List String) (set : OrderedMap String Unit),
      (set.entries.map Prod.fst ++ rest).Pairwise (· < ·) →
      (rest.foldl (fun set memberId => set.insert memberId ()) set).entries.map Prod.fst =
        set.entries.map Prod.fst ++ rest := by
    intro rest
    induction rest with
    | nil =>
      intro set _
      simp
    | cons head rest ih =>
      intro set sorted
      have above : ∀ other ∈ set.entries.map Prod.fst, other < head := fun other member =>
        (List.pairwise_append.mp sorted).2.2 other member head List.mem_cons_self
      have last : (set.insert head ()).entries.map Prod.fst = set.entries.map Prod.fst ++ [head] := by
        change (Entries.insert head () set.entries).map Prod.fst = _
        rw [Entries.insert_last () above, List.map_append]
        rfl
      rw [List.foldl_cons, ih _ (by simpa [last] using sorted), last, List.append_assoc,
        List.singleton_append]
  exact grown memberIds .empty sorted

/-- The members of a set of names in order. -/
theorem get?_setOf {memberIds : List String} (sorted : memberIds.Pairwise (· < ·))
    (memberId : String) : (setOf memberIds).get? memberId = some () ↔ memberId ∈ memberIds := by
  rw [← OrderedMap.mem_entries]
  conv_rhs => rw [← entries_setOf sorted, List.mem_map]
  constructor
  · intro listed
    exact ⟨_, listed, rfl⟩
  · rintro ⟨⟨_, ⟨⟩⟩, listed, rfl⟩
    exact listed

/-! ## What backs a proposal -/

variable (primitives) in
/-- A proposal with its electorate. -/
structure Backed (assembly : FederationAssembly) (proposalId : String)
    (record : AssemblyProposalRecord) (electorate : OrderedMap String Unit) : Prop where
  /-- The record is kept under its identity. -/
  named : record.proposalId = proposalId
  /-- The record passes the semantic check. -/
  valid : SemanticallyValid primitives record
  /-- The electorate has the recorded size. -/
  size : electorate.entries.length = record.electorateSize
  /-- The electorate has the recorded reference. -/
  same : electorateRef primitives (electorate.entries.map Prod.fst) = record.electorateRef
  /-- The electorate consists of members. -/
  known : ∀ memberId, electorate.get? memberId = some () →
    ∃ member, assembly.members.get? memberId = some member
  /-- Its members represent different subjects. -/
  apart : ∀ left right one two, electorate.get? left = some () → electorate.get? right = some () →
    assembly.members.get? left = some one → assembly.members.get? right = some two →
    one.representationSubject = two.representationSubject → left = right
  /-- Only its members voted. -/
  voters : ∀ memberId vote, record.votes.get? memberId = some vote →
    electorate.get? memberId = some ()

variable (primitives) in
/-- The proposals and the electorates belong together. -/
structure Snapshots (assembly : FederationAssembly) : Prop where
  /-- Every proposal has its electorate. -/
  taken : ∀ proposalId record, assembly.proposals.get? proposalId = some record →
    ∃ electorate, assembly.electorates.get? proposalId = some electorate ∧
      Backed primitives assembly proposalId record electorate
  /-- Every electorate has its proposal. -/
  kept : ∀ proposalId electorate, assembly.electorates.get? proposalId = some electorate →
    ∃ record, assembly.proposals.get? proposalId = some record

/-- The empty assembly has no proposals. -/
theorem snapshots_new : Snapshots primitives new where
  taken := by
    intro proposalId record found
    cases found
  kept := by
    intro proposalId electorate found
    cases found

/-- An electorate backs a proposal for as long as its members stay. -/
theorem Backed.keeps {assembly next : FederationAssembly} {proposalId : String}
    {record : AssemblyProposalRecord} {electorate : OrderedMap String Unit}
    (backed : Backed primitives assembly proposalId record electorate)
    (keeps : Keeps assembly next) : Backed primitives next proposalId record electorate where
  named := backed.named
  valid := backed.valid
  size := backed.size
  same := backed.same
  known := by
    intro memberId member
    obtain ⟨before, found⟩ := backed.known memberId member
    obtain ⟨after, foundAfter, -⟩ := keeps memberId before found
    exact ⟨after, foundAfter⟩
  apart := by
    intro left right one two memberLeft memberRight foundLeft foundRight same
    obtain ⟨before, oldLeft⟩ := backed.known left memberLeft
    obtain ⟨other, oldRight⟩ := backed.known right memberRight
    obtain ⟨_, againLeft, subjectLeft⟩ := keeps left before oldLeft
    obtain ⟨_, againRight, subjectRight⟩ := keeps right other oldRight
    rw [foundLeft] at againLeft
    rw [foundRight] at againRight
    cases againLeft
    cases againRight
    exact backed.apart left right before other memberLeft memberRight oldLeft oldRight
      (subjectLeft.symm.trans (same.trans subjectRight))
  voters := backed.voters

/-- Not more members of an electorate vote than it has. -/
theorem Backed.votes_le {assembly : FederationAssembly} {proposalId : String}
    {record : AssemblyProposalRecord} {electorate : OrderedMap String Unit}
    (backed : Backed primitives assembly proposalId record electorate) :
    record.votes.entries.length ≤ electorate.entries.length :=
  OrderedMap.length_le_of_keys fun memberId vote found =>
    ⟨(), backed.voters memberId vote found⟩

/-- The members that take part back the proposal that one of them submits. -/
theorem backed_submitted {assembly : FederationAssembly} {draft : AssemblyProposalDraft}
    {identity : String} (registered : Registered primitives assembly)
    (valid : validateProposalRecordSemantics primitives
      (submittedRecord primitives assembly draft identity) = .ok ()) :
    Backed primitives assembly identity
      (submittedRecord primitives assembly draft identity)
      (setOf (activeMembers assembly)) := by
  have sorted := activeMembers_sorted registered
  have keys := entries_setOf sorted
  have member : ∀ memberId, (setOf (activeMembers assembly)).get? memberId = some () →
      ∃ member, assembly.members.get? memberId = some member ∧ member.status = .active :=
    fun memberId found => (mem_activeMembers registered memberId).mp ((get?_setOf sorted _).mp found)
  refine ⟨rfl, (validateProposalRecordSemantics_iff _).mp valid, ?_, ?_, ?_, ?_, ?_⟩
  · have lengths := congrArg List.length keys
    rw [List.length_map] at lengths
    exact lengths
  · rw [keys]
    rfl
  · intro memberId found
    obtain ⟨record, there, -⟩ := member memberId found
    exact ⟨record, there⟩
  · intro left right one two memberLeft memberRight foundLeft foundRight same
    obtain ⟨before, oldLeft, activeLeft⟩ := member left memberLeft
    obtain ⟨other, oldRight, activeRight⟩ := member right memberRight
    rw [foundLeft] at oldLeft
    rw [foundRight] at oldRight
    cases oldLeft
    cases oldRight
    exact registered.apart left right one two foundLeft foundRight activeLeft activeRight same
  · intro memberId vote found
    cases found

/-- Replacing the record of a proposal keeps what its electorate backs. -/
theorem Snapshots.replace {assembly : FederationAssembly} (snapshots : Snapshots primitives assembly)
    {proposalId : String} {old record : AssemblyProposalRecord}
    (found : assembly.proposals.get? proposalId = some old)
    (backs : ∀ electorate, assembly.electorates.get? proposalId = some electorate →
      Backed primitives assembly proposalId old electorate →
      Backed primitives assembly proposalId record electorate) :
    Snapshots primitives (withProposal assembly proposalId record) where
  taken := by
    intro other current looked
    simp only [withProposal, OrderedMap.get?_insert] at looked
    split_ifs at looked with here
    · subst here
      cases looked
      obtain ⟨electorate, taken, backed⟩ := snapshots.taken other old found
      exact ⟨electorate, taken, (backs electorate taken backed).keeps (keeps_of_eq rfl)⟩
    · obtain ⟨electorate, taken, backed⟩ := snapshots.taken other current looked
      exact ⟨electorate, taken, backed.keeps (keeps_of_eq rfl)⟩
  kept := by
    intro other electorate taken
    simp only [withProposal, OrderedMap.get?_insert]
    split_ifs with here
    · exact ⟨record, rfl⟩
    · exact snapshots.kept other electorate taken

/-- Operations on members keep what backs the proposals. -/
theorem Snapshots.of_keeps {assembly next : FederationAssembly}
    (snapshots : Snapshots primitives assembly) (keeps : Keeps assembly next)
    (proposals : next.proposals = assembly.proposals)
    (electorates : next.electorates = assembly.electorates) : Snapshots primitives next where
  taken := by
    intro proposalId record found
    rw [proposals] at found
    obtain ⟨electorate, taken, backed⟩ := snapshots.taken proposalId record found
    exact ⟨electorate, electorates ▸ taken, backed.keeps keeps⟩
  kept := by
    intro proposalId electorate taken
    rw [electorates] at taken
    rw [proposals]
    exact snapshots.kept proposalId electorate taken

/-- Every operation keeps the proposals and the electorates together. -/
theorem Performed.snapshots {assembly next : FederationAssembly} {operation : AssemblyOperation}
    {outcome : AssemblyOutcome}
    (performed : Performed primitives assembly operation outcome next)
    (registered : Registered primitives assembly) (snapshots : Snapshots primitives assembly) :
    Snapshots primitives next := by
  have keeps := performed.keeps
  cases performed with
  | admitted | withdrawn => exact snapshots.of_keeps keeps rfl rfl
  | @submitted draft proposer identity room found active counted identified valid =>
    have backed := backed_submitted registered valid
    constructor
    · intro other record looked
      simp only [OrderedMap.get?_insert] at looked ⊢
      split_ifs at looked ⊢ with here
      · cases looked
        subst here
        exact ⟨_, rfl, backed.keeps keeps⟩
      · obtain ⟨electorate, taken, older⟩ := snapshots.taken other record looked
        exact ⟨electorate, taken, older.keeps keeps⟩
    · intro other electorate looked
      simp only [OrderedMap.get?_insert] at looked ⊢
      split_ifs at looked ⊢ with here
      · exact ⟨_, rfl⟩
      · exact snapshots.kept other electorate looked
  | attached found room pending valid =>
    refine snapshots.replace found fun electorate taken backed => ?_
    obtain ⟨named, checked, size, same, known, apart, voters⟩ := backed
    refine ⟨named, ?_, size, same, known, apart, voters⟩
    refine { checked with advisories := ?_, reports := ?_ }
    · rw [List.length_append, List.length_singleton]
      exact room
    · intro report member
      rcases List.mem_append.mp member with old | last
      · exact checked.reports report old
      · cases List.mem_singleton.mp last
        exact valid
  | @voted proposalId memberId choice electorate proposal snapshot member found pending first =>
    refine snapshots.replace found fun other taken backed => ?_
    rw [snapshot] at taken
    cases taken
    have voters : ∀ voter vote, (proposal.votes.insert memberId choice).get? voter = some vote →
        electorate.get? voter = some () := by
      intro voter vote looked
      rw [OrderedMap.get?_insert] at looked
      split_ifs at looked with here
      · exact here ▸ member
      · exact backed.voters voter vote looked
    obtain ⟨named, checked, size, same, known, apart, -⟩ := backed
    refine ⟨named, ?_, size, same, known, apart, voters⟩
    refine { checked with votes := ?_, voters := ?_ }
    · rw [← size]
      exact OrderedMap.length_le_of_keys fun voter vote looked => ⟨(), voters voter vote looked⟩
    · rintro ⟨voter, vote⟩ listed
      have elected := voters voter vote ((OrderedMap.mem_entries _ _ _).mp listed)
      obtain ⟨record, there⟩ := known voter elected
      exact registered.valid voter record there
  | retracted found proposer pending =>
    refine snapshots.replace found fun electorate taken backed => ?_
    obtain ⟨named, checked, size, same, known, apart, voters⟩ := backed
    exact ⟨named, { checked with status := .inr rfl }, size, same, known, apart, voters⟩
  | @closed proposalId receiptId snapshot electorate found taken size same identified =>
    constructor
    · intro other record looked
      simp only [OrderedMap.get?_erase] at looked ⊢
      split_ifs at looked ⊢
      obtain ⟨voters, there, backed⟩ := snapshots.taken other record looked
      exact ⟨voters, there, backed.keeps keeps⟩
    · intro other voters looked
      simp only [OrderedMap.get?_erase] at looked ⊢
      split_ifs at looked ⊢
      exact snapshots.kept other voters looked

variable (primitives) in
/-- The invariant of the assembly. -/
structure Consistent (assembly : FederationAssembly) : Prop where
  /-- The registries agree. -/
  registered : Registered primitives assembly
  /-- Proposals and electorates belong together. -/
  snapshots : Snapshots primitives assembly

/-- The invariant is kept by every step. -/
theorem Consistent.step {assembly next : FederationAssembly}
    {event : AssemblyOperation × Except AssemblyError AssemblyOutcome}
    (consistent : Consistent primitives assembly) (stepped : Stepped primitives assembly event next) :
    Consistent primitives next := by
  rcases stepped_cases primitives stepped with ⟨_, -, rfl⟩ | ⟨outcome, -, performed⟩
  · exact consistent
  · exact ⟨performed.registered consistent.registered,
      performed.snapshots consistent.registered consistent.snapshots⟩

/-- The invariant holds after every run. -/
theorem consistent_of_run {events : List (AssemblyOperation × Except AssemblyError AssemblyOutcome)}
    {assembly : FederationAssembly} (run : Run (Stepped primitives) new events assembly) :
    Consistent primitives assembly :=
  run.invariant (fun _ assembly => Consistent primitives assembly)
    ⟨registered_new, snapshots_new⟩
    fun _ _ _ _ _ consistent stepped => consistent.step stepped

/-- Members stay in every run. -/
theorem keeps_of_run {start final : FederationAssembly}
    {events : List (AssemblyOperation × Except AssemblyError AssemblyOutcome)}
    (run : Run (Stepped primitives) start events final) : Keeps start final :=
  run.invariant (fun _ assembly => Keeps start assembly) (keeps_of_eq rfl)
    fun _ _ _ _ _ keeps stepped => by
      rcases stepped_cases primitives stepped with ⟨_, -, rfl⟩ | ⟨outcome, -, performed⟩
      · exact keeps
      · exact keeps.trans performed.keeps

/-! ## Counting subjects -/

/-- The subjects of the members that voted on a proposal. -/
def voterSubjects (assembly : FederationAssembly) (record : AssemblyProposalRecord) :
    List (Option String) :=
  record.votes.entries.map fun entry =>
    (assembly.members.get? entry.1).map AssemblyMemberRecord.representationSubject

/-- The three kinds of votes are all votes. -/
theorem countVotes_sum (record : AssemblyProposalRecord) :
    countVotes record .yes + countVotes record .no + countVotes record .abstain =
      record.votes.entries.length := by
  simp only [countVotes, OrderedMap.values]
  induction record.votes.entries with
  | nil => rfl
  | cons entry rest ih =>
    obtain ⟨voter, vote⟩ := entry
    cases vote <;> simp only [List.map_cons, List.filter_cons, List.length_cons, reduceCtorEq,
      decide_true, decide_false, Bool.false_eq_true, ↓reduceIte] <;> omega

/-- The members that voted represent different subjects. -/
theorem Backed.voterSubjects_nodup {assembly : FederationAssembly} {proposalId : String}
    {record : AssemblyProposalRecord} {electorate : OrderedMap String Unit}
    (backed : Backed primitives assembly proposalId record electorate) :
    (voterSubjects assembly record).Nodup ∧ none ∉ voterSubjects assembly record := by
  have voted : ∀ entry ∈ record.votes.entries, electorate.get? entry.1 = some () :=
    fun entry listed => backed.voters entry.1 entry.2 ((record.votes.mem_entries _ _).mp listed)
  constructor
  · refine List.Nodup.map_on ?_ (List.Nodup.of_map Prod.fst record.votes.sorted.nodup)
    intro left listedLeft right listedRight same
    obtain ⟨one, foundLeft⟩ := backed.known left.1 (voted left listedLeft)
    obtain ⟨two, foundRight⟩ := backed.known right.1 (voted right listedRight)
    rw [foundLeft, foundRight] at same
    have names : left.1 = right.1 := backed.apart left.1 right.1 one two (voted left listedLeft)
      (voted right listedRight) foundLeft foundRight (Option.some.inj same)
    exact List.inj_on_of_nodup_map record.votes.sorted.nodup listedLeft listedRight names
  · intro absent
    obtain ⟨entry, listed, nothing⟩ := List.mem_map.mp absent
    obtain ⟨member, found⟩ := backed.known entry.1 (voted entry listed)
    rw [found] at nothing
    cases nothing

variable (primitives) in
/-- In every run the registered subjects are those of the members that take part, and these are
all different. The members of an electorate represent different subjects, only they vote, and a
tally counts every subject at most once. A member goes on representing the same subject. -/
theorem subject_counted_once
    {events : List (AssemblyOperation × Except AssemblyError AssemblyOutcome)}
    {assembly : FederationAssembly} (run : Run (Stepped primitives) new events assembly) :
    (∀ subject, assembly.representationSubjects.get? subject = some () ↔
      ∃ memberId member, assembly.members.get? memberId = some member ∧ member.status = .active ∧
        member.representationSubject = subject) ∧
    (∀ left right one two, assembly.members.get? left = some one →
      assembly.members.get? right = some two → one.status = .active → two.status = .active →
      primitives.unicode.nfc one.representationSubject =
        primitives.unicode.nfc two.representationSubject → left = right) ∧
    (∀ proposalId electorate, assembly.electorates.get? proposalId = some electorate →
      ∀ left right one two, electorate.get? left = some () → electorate.get? right = some () →
        assembly.members.get? left = some one → assembly.members.get? right = some two →
        one.representationSubject = two.representationSubject → left = right) ∧
    (∀ proposalId record, assembly.proposals.get? proposalId = some record →
      ∃ electorate, assembly.electorates.get? proposalId = some electorate ∧
        (∀ entry ∈ record.votes.entries, electorate.get? entry.1 = some ()) ∧
        (record.votes.entries.map Prod.fst).Nodup ∧ (voterSubjects assembly record).Nodup ∧
        none ∉ voterSubjects assembly record) ∧
    (∀ proposalId receipt next, (perform primitives (.finalize proposalId)).run assembly =
        (.ok (.receipt receipt), next) →
      ∃ record, assembly.proposals.get? proposalId = some record ∧
        receipt.yesVotes + receipt.noVotes + receipt.abstainVotes =
          (voterSubjects assembly record).length) ∧
    (∀ events later, Run (Stepped primitives) assembly events later →
      ∀ memberId member, assembly.members.get? memberId = some member →
        ∃ after, later.members.get? memberId = some after ∧
          after.representationSubject = member.representationSubject) := by
  obtain ⟨registered, snapshots⟩ := consistent_of_run run
  refine ⟨registered.subjects, ?_, ?_, ?_, ?_, fun events later more => keeps_of_run more⟩
  · intro left right one two foundLeft foundRight activeLeft activeRight same
    rw [registered.normal left one foundLeft, registered.normal right two foundRight] at same
    exact registered.apart left right one two foundLeft foundRight activeLeft activeRight same
  · intro proposalId electorate taken
    obtain ⟨record, found⟩ := snapshots.kept proposalId electorate taken
    obtain ⟨other, again, backed⟩ := snapshots.taken proposalId record found
    rw [taken] at again
    cases again
    exact backed.apart
  · intro proposalId record found
    obtain ⟨electorate, taken, backed⟩ := snapshots.taken proposalId record found
    obtain ⟨distinct, known⟩ := backed.voterSubjects_nodup
    refine ⟨electorate, taken, ?_, record.votes.sorted.nodup, distinct, known⟩
    exact fun entry listed =>
      backed.voters entry.1 entry.2 ((record.votes.mem_entries _ _).mp listed)
  · intro proposalId receipt next ran
    have performed := perform_ok ran
    cases performed with
    | @closed _ receiptId snapshot electorate found taken size same identified =>
      refine ⟨snapshot, found, ?_⟩
      rw [voterSubjects, List.length_map]
      exact countVotes_sum snapshot

/-- Primitives whose digests are all zero. -/
def zeroPrimitives : Primitives := Digest.tabulated [] []

/-- The reference of a digest that is zero. -/
def zeroRef : String := "sha256:" ++ String.ofList (List.replicate 64 '0')

/-- Every reference of these primitives is the same. -/
theorem sha256Ref_zero (message : ByteArray) :
    Digest.sha256Ref zeroPrimitives message = zeroRef := by
  have digest : (zeroPrimitives.sha256 message).data.toList = List.replicate 32 0 := rfl
  rw [Digest.sha256Ref, digest]
  decide

/-- An application to represent a subject under a name. -/
def recordedApplication (memberId : String) : AssemblyMemberApplication where
  memberId
  representationSubject := "ada"
  federationNodeId := none
  localOptIn := true

/-- The member that is admitted under a name. -/
def recordedMember (memberId : String) : AssemblyMemberRecord :=
  admittedRecord zeroPrimitives (recordedApplication memberId)

/-- A draft without effects. -/
def recordedDraft : AssemblyProposalDraft where
  proposerMemberId := "assembly:ada"
  title := "Clarification"
  summary := "Clarify a rule."
  kind := .advisoryResolution
  compatibility := .notApplicable
  effects :=
    ⟨false, false, false, false, false, false, false, false, false, false, false, false, false⟩

/-- The assembly with its first member. -/
def foundedAssembly : FederationAssembly where
  members := OrderedMap.empty.insert "assembly:ada" (recordedMember "assembly:ada")
  representationSubjects := OrderedMap.empty.insert "ada" ()
  proposals := .empty
  electorates := .empty
  nextSequence := 1

/-- The proposal of the first member. -/
def recordedProposal : AssemblyProposalRecord :=
  submittedRecord zeroPrimitives foundedAssembly recordedDraft zeroRef

/-- The identity of the proposal. -/
theorem recordedProposal_identity :
    proposalIdentity zeroPrimitives recordedProposal = .ok zeroRef := by
  have plain : Canonical.Plain (identityProjection recordedProposal) :=
    Canonical.plain_of_check _ (by decide)
  have short : (Canonical.writtenBytes (identityProjection recordedProposal)).size ≤
      Canonical.maxInputBytes :=
    (Canonical.size_writtenBytes_le _).trans (by decide)
  have shallow : (identityProjection recordedProposal).nesting < Canonical.maxDepth := by
    decide
  obtain ⟨output, accepted⟩ :=
    (Canonical.canonicalize_plain_iff zeroPrimitives.unicode plain shallow).mpr short
  rw [proposalIdentity, canonicalId, accepted]
  exact congrArg Except.ok (sha256Ref_zero output)

/-- The proposal passes the semantic check. -/
theorem recordedProposal_valid :
    validateProposalRecordSemantics zeroPrimitives recordedProposal = .ok () := by
  rw [validateProposalRecordSemantics_iff]
  refine ⟨rfl, by decide, by decide, by decide, by decide, by decide, by decide,
    by decide, by decide, by decide, rfl, by decide, by decide, by decide,
    rfl, .inl rfl, recordedProposal_identity⟩

/-- The assembly with the proposal. -/
def proposedAssembly : FederationAssembly :=
  { foundedAssembly with
    nextSequence := 2
    electorates := OrderedMap.empty.insert zeroRef (setOf ["assembly:ada"])
    proposals := OrderedMap.empty.insert zeroRef recordedProposal }

/-- The assembly with the vote of its member. -/
def votedAssembly : FederationAssembly :=
  withProposal proposedAssembly zeroRef
    { recordedProposal with votes := OrderedMap.empty.insert "assembly:ada" .yes }

/-- The assembly after its member stopped taking part. -/
def leftAssembly : FederationAssembly :=
  { votedAssembly with
    members := votedAssembly.members.insert "assembly:ada"
      { recordedMember "assembly:ada" with status := .withdrawn }
    representationSubjects := .empty }

/-- The assembly after the subject came back under another name. -/
def returnedAssembly : FederationAssembly :=
  { leftAssembly with
    members := leftAssembly.members.insert "assembly:eve" (recordedMember "assembly:eve")
    representationSubjects := OrderedMap.empty.insert "ada" () }

/-- A member proposes, votes and leaves; its subject comes back under another name, whose vote is
refused. -/
def returningEvents : List (AssemblyOperation × Except AssemblyError AssemblyOutcome) := [
  (.admitMember (recordedApplication "assembly:ada"), .ok (.member (recordedMember "assembly:ada"))),
  (.submitProposal recordedDraft, .ok (.proposal recordedProposal)),
  (.castVote zeroRef "assembly:ada" .yes, .ok .done),
  (.withdrawMember "assembly:ada", .ok .done),
  (.admitMember (recordedApplication "assembly:eve"), .ok (.member (recordedMember "assembly:eve"))),
  (.castVote zeroRef "assembly:eve" .yes,
    .error (.code "assembly_voter_not_in_electorate_snapshot"))]

/-- A member is admitted and proposes. -/
theorem proposedAssembly_run :
    Run (Stepped zeroPrimitives) new (returningEvents.take 2) proposedAssembly := by
  have founded : Run (Stepped zeroPrimitives) new [(.admitMember (recordedApplication "assembly:ada"),
      .ok (.member (recordedMember "assembly:ada")))] foundedAssembly :=
    .single (Performed.ran (.admitted (by decide) rfl (by decide) rfl rfl rfl rfl))
  exact founded.snoc (Performed.ran (.submitted (by decide) rfl rfl (by decide)
    recordedProposal_identity recordedProposal_valid))

/-- The member votes. -/
theorem votedAssembly_stepped : Stepped zeroPrimitives proposedAssembly
    (.castVote zeroRef "assembly:ada" .yes, .ok .done) votedAssembly :=
  Performed.ran (@Performed.voted _ _ _ _ _ (setOf ["assembly:ada"]) recordedProposal rfl rfl rfl
    rfl rfl)

/-- The assembly takes these steps. -/
theorem returningEvents_run : Run (Stepped zeroPrimitives) new returningEvents returnedAssembly := by
  have left : Stepped zeroPrimitives votedAssembly (.withdrawMember "assembly:ada", .ok .done)
      leftAssembly := Performed.ran (.withdrawn rfl rfl)
  have returned : Stepped zeroPrimitives leftAssembly
      (.admitMember (recordedApplication "assembly:eve"),
        .ok (.member (recordedMember "assembly:eve"))) returnedAssembly :=
    Performed.ran (.admitted (by decide) rfl (by decide) rfl rfl rfl rfl)
  have refused : Stepped zeroPrimitives returnedAssembly (.castVote zeroRef "assembly:eve" .yes,
      .error (.code "assembly_voter_not_in_electorate_snapshot")) returnedAssembly := rfl
  exact (((proposedAssembly_run.snoc votedAssembly_stepped).snoc left).snoc returned).snoc refused

/-- The vote of the subject that came back is counted once. -/
theorem subject_counted_once_returned :
    ∃ electorate, returnedAssembly.electorates.get? zeroRef = some electorate ∧
      (voterSubjects returnedAssembly
        { recordedProposal with votes := OrderedMap.empty.insert "assembly:ada" .yes }).Nodup := by
  obtain ⟨electorate, taken, -, -, distinct, -⟩ :=
    (subject_counted_once zeroPrimitives returningEvents_run).2.2.2.1 zeroRef _ rfl
  exact ⟨electorate, taken, distinct⟩

end QsolFed.Assembly
