import QsolFed.Adapters

/-!
# What the membrane lets through

A text is clean when no listed prefix is followed by enough token characters anywhere in it. The
scan looks at the first occurrence of each prefix, so it finds exactly the texts that are not clean
and whose first occurrences decide. A report that the adapter accepts is clean exactly when no
later occurrence and no normalisation hides a secret from the scan.
-/
namespace QsolFed.Adapters

open Checked Json Canonical

variable {unicode : Unicode}

/-! ## Scanning -/

/-- No secret anywhere in a text. -/
def Clean (text : String) : Prop :=
  keyShaped (toAsciiLowercase text) = false ∧ ∀ entry ∈ secretPrefixes, ∀ rest,
    Search.Occurs entry.1.toList (toAsciiLowercase text) rest → tokenRun rest < entry.2

/-- Only the first occurrence of a prefix may be followed by enough token characters. -/
def FirstDecides (text : String) : Prop :=
  ∀ entry ∈ secretPrefixes, ∀ rest, Search.Occurs entry.1.toList (toAsciiLowercase text) rest →
    Search.afterFirst entry.1.toList (toAsciiLowercase text) = some rest ∨ tokenRun rest < entry.2

/-- The scan passes when there is no key and no first occurrence with enough token characters. -/
theorem secretShapedText_false_iff (text : String) : secretShapedText text = false ↔
    keyShaped (toAsciiLowercase text) = false ∧ ∀ entry ∈ secretPrefixes, ∀ rest,
      Search.afterFirst entry.1.toList (toAsciiLowercase text) = some rest →
        tokenRun rest < entry.2 := by
  rw [secretShapedText, Bool.or_eq_false_iff, List.any_eq_false]
  refine and_congr Iff.rfl (forall₂_congr fun entry _ => ?_)
  cases found : Search.afterFirst entry.1.toList (toAsciiLowercase text) with
  | none => simp
  | some after => simp

/-- A text is clean when the scan passes and first occurrences decide. -/
theorem clean_iff (text : String) :
    Clean text ↔ secretShapedText text = false ∧ FirstDecides text := by
  rw [secretShapedText_false_iff]
  constructor
  · rintro ⟨keys, none_⟩
    exact ⟨⟨keys, fun entry listed rest found =>
      none_ entry listed rest (Search.occurs_of_afterFirst found)⟩,
      fun entry listed rest occurs => .inr (none_ entry listed rest occurs)⟩
  · rintro ⟨⟨keys, first⟩, decides⟩
    refine ⟨keys, fun entry listed rest occurs => ?_⟩
    rcases decides entry listed rest occurs with found | short
    · exact first entry listed rest found
    · exact short

/-! ## The texts of a report -/

/-- The text of a member of an object. -/
def textAt (name : String) : Node → List String
  | .object members =>
    match Entries.find name members with
    | some (.string text) => [text]
    | _ => []
  | _ => []

/-- The items of a member of an object. -/
def itemsAt (name : String) : Node → List Node
  | .object members =>
    match Entries.find name members with
    | some (.array items) => items
    | _ => []
  | _ => []

/-- The texts of a canonical report that others than the adapter choose. -/
def reportTexts (node : Node) : List String :=
  textAt "session_id" node ++ textAt "evidence_state_observed" node ++
    (itemsAt "members" node).flatMap (textAt "member_id") ++
    (itemsAt "minority_reports" node).flatMap fun report =>
      textAt "member_id" report ++ textAt "choice" report ++ textAt "rationale" report

/-- The texts that are scanned before they are normalised. -/
def rawTexts (report : NexusCouncilReportArtifact) : List String :=
  report.sessionId :: report.evidenceStateObserved ::
    report.minorityReports.flatMap fun minority => [minority.choice, minority.rationale]

/-- The names of members in a report. -/
def memberNames (report : NexusCouncilReportArtifact) : List String :=
  report.members.map NexusCouncilMemberObservation.memberId ++
    report.minorityReports.map NexusMinorityReportArtifact.memberId

/-- The text at a plain name of an object is the normal form of the text that was written. -/
theorem textAt_visit {members : List (String × Value String)} {node : Node} {name text : String}
    (visited : visit unicode (.object members) = .ok node) (plain : isPlainText name = true)
    (listed : (name, .string text) ∈ members) : textAt name node = [unicode.nfc text] := by
  simp only [visit, bind_ok_iff, pure_ok_iff] at visited
  obtain ⟨result, visitedMembers, rfl⟩ := visited
  obtain ⟨value, visitedText, found⟩ := (visitMap_find (by simp) visitedMembers).2 name _ listed
  rw [(plainText_of_check plain).nfc] at found
  simp only [visit, normalizeString, bind_ok_iff, ensure_ok_iff, pure_ok_iff] at visitedText
  obtain ⟨_, ⟨-, -, rfl⟩, rfl⟩ := visitedText
  simp only [textAt, found]

/-- The items at a plain name of an object are what the visitor makes of the written items. -/
theorem itemsAt_visit {members : List (String × Value String)} {node : Node} {name : String}
    {items : List (Value String)} (visited : visit unicode (.object members) = .ok node)
    (plain : isPlainText name = true) (listed : (name, .array items) ∈ members) :
    List.Forall₂ (fun item node => visit unicode item = .ok node) items (itemsAt name node) := by
  simp only [visit, bind_ok_iff, pure_ok_iff] at visited
  obtain ⟨result, visitedMembers, rfl⟩ := visited
  obtain ⟨value, visitedItems, found⟩ := (visitMap_find (by simp) visitedMembers).2 name _ listed
  rw [(plainText_of_check plain).nfc] at found
  simp only [visit, bind_ok_iff, pure_ok_iff] at visitedItems
  obtain ⟨nodes, visitedSeq, rfl⟩ := visitedItems
  obtain ⟨others, rfl, each⟩ := visitSeq_each visitedSeq
  simpa only [itemsAt, found] using each

/-- The canonical texts of a report are the normal forms of its texts. -/
theorem mem_reportTexts {report : NexusCouncilReportArtifact} {node : Node}
    (visited : visit unicode (writeReport report) = .ok node) (text : String) :
    text ∈ reportTexts node ↔ ∃ raw ∈ rawTexts report ++ memberNames report,
      unicode.nfc raw = text := by
  have session := @textAt_visit _ _ _ "session_id" report.sessionId visited (by decide)
    (by simp)
  have evidence := @textAt_visit _ _ _ "evidence_state_observed" report.evidenceStateObserved
    visited (by decide) (by simp)
  have members := @itemsAt_visit _ _ _ "members" (report.members.map writeMember) visited
    (by decide) (by simp)
  have opinions := @itemsAt_visit _ _ _ "minority_reports"
    (report.minorityReports.map writeMinorityReport) visited (by decide) (by simp)
  have memberTexts : (itemsAt "members" node).flatMap (textAt "member_id") =
      report.members.map fun member => unicode.nfc member.memberId := by
    generalize itemsAt "members" node = nodes at members
    generalize report.members = list at members
    induction list generalizing nodes with
    | nil =>
      cases members
      rfl
    | cons member rest ih =>
      cases members with
      | cons first others =>
        have name := @textAt_visit _ _ _ "member_id" member.memberId first (by decide)
          (by simp)
        rw [List.flatMap_cons, ih _ others, name]
        rfl
  have opinionTexts : ((itemsAt "minority_reports" node).flatMap fun report =>
      textAt "member_id" report ++ textAt "choice" report ++ textAt "rationale" report) =
      report.minorityReports.flatMap fun minority => [unicode.nfc minority.memberId,
        unicode.nfc minority.choice, unicode.nfc minority.rationale] := by
    generalize itemsAt "minority_reports" node = nodes at opinions
    generalize report.minorityReports = list at opinions
    induction list generalizing nodes with
    | nil =>
      cases opinions
      rfl
    | cons minority rest ih =>
      cases opinions with
      | cons first others =>
        have name := @textAt_visit _ _ _ "member_id" minority.memberId first (by decide)
          (by simp)
        have choice := @textAt_visit _ _ _ "choice" minority.choice first (by decide)
          (by simp)
        have rationale := @textAt_visit _ _ _ "rationale" minority.rationale first
          (by decide) (by simp)
        rw [List.flatMap_cons, ih _ others, name, choice, rationale]
        rfl
  rw [reportTexts, session, evidence, memberTexts, opinionTexts]
  simp only [rawTexts, memberNames, List.mem_append, List.mem_cons, List.mem_map, List.mem_flatMap,
    List.not_mem_nil, or_false]
  constructor
  · rintro (((rfl | rfl) | ⟨member, listed, rfl⟩) | ⟨minority, listed, rfl | rfl | rfl⟩)
    · exact ⟨_, .inl (.inl rfl), rfl⟩
    · exact ⟨_, .inl (.inr (.inl rfl)), rfl⟩
    · exact ⟨_, .inr (.inl ⟨member, listed, rfl⟩), rfl⟩
    · exact ⟨_, .inr (.inr ⟨minority, listed, rfl⟩), rfl⟩
    · exact ⟨_, .inl (.inr (.inr ⟨minority, listed, .inl rfl⟩)), rfl⟩
    · exact ⟨_, .inl (.inr (.inr ⟨minority, listed, .inr rfl⟩)), rfl⟩
  · rintro ⟨raw, (rfl | rfl | ⟨minority, listed, rfl | rfl⟩) | ⟨member, listed, rfl⟩ |
      ⟨minority, listed, rfl⟩, rfl⟩
    · exact .inl (.inl (.inl rfl))
    · exact .inl (.inl (.inr rfl))
    · exact .inr ⟨minority, listed, .inr (.inl rfl)⟩
    · exact .inr ⟨minority, listed, .inr (.inr rfl)⟩
    · exact .inl (.inr ⟨member, listed, rfl⟩)
    · exact .inr ⟨minority, listed, .inl rfl⟩

/-! ## Accepted reports -/

/-- The names that a check of members collects passed the scan. -/
theorem scanned_members {members : List NexusCouncilMemberObservation} {names result : List String}
    (passed : ∀ name ∈ names, secretShapedText name = false)
    (accepted : members.foldlM (validateMember unicode) names = .ok result) :
    (∀ name ∈ result, secretShapedText name = false) ∧
      ∀ member ∈ members, unicode.nfc member.memberId ∈ result := by
  have grows : ∀ (rest : List NexusCouncilMemberObservation) (before after : List String),
      rest.foldlM (validateMember unicode) before = .ok after → before ⊆ after := by
    intro rest
    induction rest with
    | nil =>
      intro before after same
      cases same
      exact fun _ member => member
    | cons member rest ih =>
      intro before after accepted
      simp only [foldlM_cons_ok_iff, validateMember, bind_ok_iff, pure_ok_iff] at accepted
      obtain ⟨_, ⟨-, -, rfl⟩, others⟩ := accepted
      exact fun name listed => ih _ after others (List.mem_cons_of_mem _ listed)
  induction members generalizing names with
  | nil =>
    cases accepted
    exact ⟨passed, by simp⟩
  | cons member rest ih =>
    simp only [foldlM_cons_ok_iff, validateMember, bind_ok_iff, pure_ok_iff, ensure_ok_iff,
      exists_const] at accepted
    obtain ⟨_, ⟨⟨-, -, -, -, -, -, -, clear, -⟩, rfl⟩, others⟩ := accepted
    obtain ⟨scanned, listed⟩ := ih (by
      intro name known
      rcases List.mem_cons.mp known with rfl | old
      · exact clear
      · exact passed name old) others
    refine ⟨scanned, fun other member => ?_⟩
    rcases List.mem_cons.mp member with rfl | later
    · exact grows rest _ result others List.mem_cons_self
    · exact listed other later

/-- An accepted report has canonical bytes, and each of its texts passed the scan: the names of
members in normal form, the other texts as they are. -/
theorem scanned_of_validate {report : NexusCouncilReportArtifact}
    (accepted : validate unicode report = .ok ()) :
    (∃ output, canonicalStruct unicode report = .ok output) ∧
      (∀ raw ∈ rawTexts report, secretShapedText raw = false) ∧
      ∀ name ∈ memberNames report, secretShapedText (unicode.nfc name) = false := by
  simp only [validate, bind_ok_iff, ensure_ok_iff, exists_const] at accepted
  obtain ⟨⟨-, -, -, -, -, -, -, -, -, -, -, -, -, -, -, -, session, evidence⟩, names, members,
    checks, opinions, output, encoded, -⟩ := accepted
  obtain ⟨scanned, listed⟩ := scanned_members (by simp) members
  have opinion : ∀ minority ∈ report.minorityReports,
      unicode.nfc minority.memberId ∈ names ∧ secretShapedText minority.choice = false ∧
        secretShapedText minority.rationale = false := by
    intro minority member
    obtain ⟨_, passed⟩ := (exists_mapM_ok_iff _ _).mp ⟨checks, opinions⟩ minority member
    simp only [validateMinorityReport, ensure_ok_iff] at passed
    exact ⟨passed.2.1, passed.2.2.2.2.2.2.2.2.1, passed.2.2.2.2.2.2.2.2.2⟩
  refine ⟨⟨output, encoded⟩, ?_, ?_⟩
  · intro raw member
    simp only [rawTexts, List.mem_cons, List.mem_flatMap, List.not_mem_nil, or_false] at member
    rcases member with rfl | rfl | ⟨minority, there, rfl | rfl⟩
    · exact session
    · exact evidence
    · exact (opinion minority there).2.1
    · exact (opinion minority there).2.2
  · intro name member
    simp only [memberNames, List.mem_append, List.mem_map] at member
    rcases member with ⟨observed, there, rfl⟩ | ⟨minority, there, rfl⟩
    · exact scanned _ (listed observed there)
    · exact scanned _ (opinion minority there).1

/-- No later occurrence of a prefix and no normalisation hides a secret from the scan. -/
structure Exposed (unicode : Unicode) (report : NexusCouncilReportArtifact) : Prop where
  /-- In normal form the first occurrence of each prefix decides. -/
  first : ∀ raw ∈ rawTexts report ++ memberNames report, FirstDecides (unicode.nfc raw)
  /-- Normalising a text that is scanned as it is does not give the scan anything to find. -/
  normal : ∀ raw ∈ rawTexts report,
    secretShapedText (unicode.nfc raw) = true → secretShapedText raw = true

/-- Written reports have no fractions. -/
theorem integral_writeReport (report : NexusCouncilReportArtifact) :
    (writeReport report).Integral := by
  have members : ∀ list : List NexusCouncilMemberObservation,
      Value.IntegralItems (list.map writeMember) := by
    intro list
    induction list with
    | nil => trivial
    | cons member rest ih =>
      refine ⟨?_, ih⟩
      simp [writeMember, Value.Integral, Value.IntegralMembers, Number.Integral, Number.ofInt]
  have opinions : ∀ list : List NexusMinorityReportArtifact,
      Value.IntegralItems (list.map writeMinorityReport) := by
    intro list
    induction list with
    | nil => trivial
    | cons minority rest ih =>
      refine ⟨?_, ih⟩
      simp [writeMinorityReport, Value.Integral, Value.IntegralMembers]
  simp [writeReport, Value.Integral, Value.IntegralMembers, members, opinions]

/-- Written reports nest at most three levels. -/
theorem nesting_writeReport (report : NexusCouncilReportArtifact) :
    (writeReport report).nesting ≤ 3 := by
  have members : Value.nestingItems (report.members.map writeMember) ≤ 1 := by
    refine (nestingItems_le_iff _ _).mpr fun item listed => ?_
    obtain ⟨member, -, rfl⟩ := List.mem_map.mp listed
    simp [writeMember, Value.nesting, Value.nestingMembers]
  have opinions : Value.nestingItems (report.minorityReports.map writeMinorityReport) ≤ 1 := by
    refine (nestingItems_le_iff _ _).mpr fun item listed => ?_
    obtain ⟨minority, -, rfl⟩ := List.mem_map.mp listed
    simp [writeMinorityReport, Value.nesting, Value.nestingMembers]
  simp only [writeReport, Value.nesting, Value.nestingMembers]
  omega

/-- A report that the adapter accepts has canonical bytes, and its texts are clean there exactly
when nothing hides a secret from the scan. -/
theorem accepted_clean_iff {report : NexusCouncilReportArtifact}
    (accepted : validate unicode report = .ok ()) :
    ∃ output node, canonicalStruct unicode report = .ok output ∧
      parseNode unicode output = .ok node ∧
      ((∀ text ∈ reportTexts node, Clean text) ↔ Exposed unicode report) := by
  obtain ⟨⟨output, encoded⟩, raws, names⟩ := scanned_of_validate accepted
  have shallow : (writeReport report).nesting ≤ recursionLimit :=
    (nesting_writeReport report).trans (by decide)
  obtain ⟨node, visited, parsed⟩ := canonicalize_node (integral_writeReport report) shallow
    ((mapError_ok_iff ..).mp encoded)
  refine ⟨output, node, encoded, parsed, ?_⟩
  constructor
  · intro clean
    have each : ∀ raw ∈ rawTexts report ++ memberNames report, Clean (unicode.nfc raw) :=
      fun raw listed => clean _ ((mem_reportTexts visited _).mpr ⟨raw, listed, rfl⟩)
    constructor
    · intro raw listed
      exact ((clean_iff _).mp (each raw listed)).2
    · intro raw listed shaped
      have passed := ((clean_iff _).mp (each raw (List.mem_append_left _ listed))).1
      rw [passed] at shaped
      cases shaped
  · intro exposed text member
    obtain ⟨raw, listed, rfl⟩ := (mem_reportTexts visited _).mp member
    refine (clean_iff _).mpr ⟨?_, exposed.first raw listed⟩
    rcases List.mem_append.mp listed with scanned | name
    · rw [Bool.eq_false_iff]
      intro shaped
      have found := exposed.normal raw scanned shaped
      rw [raws raw scanned] at found
      cases found
    · exact names raw name

/-- A report of one member with an opinion that gives these reasons. -/
def recordedReport (rationale : String) : NexusCouncilReportArtifact where
  schema := nexusCouncilReportSchemaV1
  sourceRepository := "QSOLKCB/QSOL-NEXUS"
  sourceCommit := nexusPinnedCommit
  sourceBundleRef := "world-export:" ++ String.ofList (List.replicate 64 'a')
  sourceSessionRef := "object:" ++ String.ofList (List.replicate 64 'b')
  sessionId := "session"
  questionRef := "object:" ++ String.ofList (List.replicate 64 'c')
  evidenceStateObserved := "UNTESTED"
  members := [⟨"beta", 1, "none", false, false, false, "none"⟩]
  minorityReports := [⟨"beta", "ABSTAIN", rationale, false, false, "none"⟩]
  secretScrubbed := true
  sharedBallot := false
  voteInjection := false
  evidencePromotion := false
  authorityEffect := "none"

/-- A report without a secret. -/
def honestReport : NexusCouncilReportArtifact := recordedReport "minority survives"

/-- A report whose reasons name the prefix of a key before they give a key. -/
def hidingReport : NexusCouncilReportArtifact :=
  recordedReport "an sk- key: sk-aaaaaaaaaaaaaaaaaaaaaaaa"

/-- A report with plain reasons that pass the scan is accepted. -/
theorem recordedReport_accepted {rationale : String}
    (reasons : rationale ≠ "" ∧ rationale.utf8ByteSize ≤ maxRationaleUtf8Bytes)
    (scanned : secretShapedText rationale = false)
    (plain : isPlain (writeReport (recordedReport rationale)) = true)
    (short : sizeBound (writeReport (recordedReport rationale)) ≤ maxInputBytes) :
    validate Unicode.plain (recordedReport rationale) = .ok () := by
  have shallow : (writeReport (recordedReport rationale)).nesting < maxDepth :=
    (nesting_writeReport _).trans_lt (by decide)
  obtain ⟨output, encoded⟩ := (canonicalize_plain_iff Unicode.plain (plain_of_check _ plain)
    shallow).mpr ((size_writtenBytes_le _).trans short)
  simp only [validate, bind_ok_iff, ensure_ok_iff, exists_const]
  refine ⟨?_, ["beta"], ?_, [()], ?_, output, (mapError_ok_iff ..).mpr encoded, rfl⟩
  · simp only [recordedReport, List.length_singleton]
    decide
  · simp only [recordedReport, foldlM_cons_ok_iff, validateMember, bind_ok_iff, ensure_ok_iff,
      exists_const, pure_ok_iff]
    exact ⟨_, ⟨by decide, rfl⟩, rfl⟩
  · refine (mapM_cons_ok_iff ..).mpr ⟨(), [], ?_, rfl, rfl⟩
    simp only [validateMinorityReport, ensure_ok_iff]
    exact ⟨by decide, by decide, by decide, reasons.1, reasons.2, trivial,
      trivial, trivial, by decide, scanned⟩

/-- The report without a secret is accepted, and it is clean exactly when nothing hides a secret. -/
theorem accepted_clean_iff_honest : ∃ output node,
    canonicalStruct Unicode.plain honestReport = .ok output ∧
      parseNode Unicode.plain output = .ok node ∧
      ((∀ text ∈ reportTexts node, Clean text) ↔ Exposed Unicode.plain honestReport) :=
  accepted_clean_iff (recordedReport_accepted (by decide) (by decide)
    (by decide) (by decide))

/-- The report whose key follows a harmless prefix is accepted, and the key is in its canonical
bytes. -/
theorem hidden_secret_accepted : validate Unicode.plain hidingReport = .ok () ∧
    ∃ output node, canonicalStruct Unicode.plain hidingReport = .ok output ∧
      parseNode Unicode.plain output = .ok node ∧ ∃ text ∈ reportTexts node, ¬Clean text := by
  have accepted : validate Unicode.plain hidingReport = .ok () :=
    recordedReport_accepted (by decide) (by decide) (by decide)
      (by decide)
  obtain ⟨⟨output, encoded⟩, -⟩ := scanned_of_validate accepted
  have shallow : (writeReport hidingReport).nesting ≤ recursionLimit :=
    (nesting_writeReport _).trans (by decide)
  obtain ⟨node, visited, parsed⟩ := canonicalize_node (integral_writeReport hidingReport) shallow
    ((mapError_ok_iff ..).mp encoded)
  refine ⟨accepted, output, node, encoded, parsed, "an sk- key: sk-aaaaaaaaaaaaaaaaaaaaaaaa", ?_, ?_⟩
  · exact (mem_reportTexts visited _).mpr ⟨"an sk- key: sk-aaaaaaaaaaaaaaaaaaaaaaaa",
      by decide, rfl⟩
  · intro clean
    have short := clean.2 ("sk-", 20) (by decide) (List.replicate 24 'a')
      ⟨"an sk- key: ".toList, by decide⟩
    exact absurd short (by decide)

end QsolFed.Adapters
