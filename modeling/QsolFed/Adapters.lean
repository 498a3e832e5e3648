import QsolFed.Encoding
import QsolFed.Library.Search

/-!
# Council reports at the adapter membrane

A report of the council carries observations about its members and their minority opinions. The
adapter validates it before it is imported: the declared boundaries hold, the texts are bounded,
and no text is shaped like a secret as far as the scan can tell. The scan looks for listed
prefixes, each at its first occurrence only, and some texts are scanned before they are normalised.
-/
namespace QsolFed

open Checked Json

/-- A refusal of an adapter. -/
inductive AdapterError where
  /-- A code of the adapter. -/
  | code (text : String)
  /-- A refusal of the canonical profile, passed on. -/
  | canonical (error : CanonicalError)
  deriving DecidableEq, Repr

/-- A member of the council as it was observed. -/
structure NexusCouncilMemberObservation where
  /-- The name of the member. -/
  memberId : String
  /-- Its weight in votes. -/
  voteWeightObserved : Nat
  /-- Its epistemic privilege. -/
  epistemicPrivilegeObserved : String
  /-- Whether the weight is inherited. -/
  voteWeightInherited : Bool
  /-- Whether the privilege is inherited. -/
  epistemicPrivilegeInherited : Bool
  /-- Whether citizenship is inherited. -/
  citizenshipInherited : Bool
  /-- What the observation authorises. -/
  authorityEffect : String

/-- The opinion of a member that was in the minority. -/
structure NexusMinorityReportArtifact where
  /-- The name of the member. -/
  memberId : String
  /-- What it chose. -/
  choice : String
  /-- Why. -/
  rationale : String
  /-- Whether the opinion promotes evidence. -/
  evidencePromotion : Bool
  /-- Whether the opinion injects a vote. -/
  voteInjection : Bool
  /-- What the opinion authorises. -/
  authorityEffect : String

/-- A report of the council. -/
structure NexusCouncilReportArtifact where
  /-- The schema of the report. -/
  schema : String
  /-- The repository that it comes from. -/
  sourceRepository : String
  /-- The commit that it comes from. -/
  sourceCommit : String
  /-- The reference to the exported world. -/
  sourceBundleRef : String
  /-- The reference to the session. -/
  sourceSessionRef : String
  /-- The name of the session. -/
  sessionId : String
  /-- The reference to the question. -/
  questionRef : String
  /-- The state of the evidence. -/
  evidenceStateObserved : String
  /-- The members. -/
  members : List NexusCouncilMemberObservation
  /-- The opinions of the minority. -/
  minorityReports : List NexusMinorityReportArtifact
  /-- Whether the source scrubbed secrets. -/
  secretScrubbed : Bool
  /-- Whether the ballot was shared. -/
  sharedBallot : Bool
  /-- Whether the report injects votes. -/
  voteInjection : Bool
  /-- Whether the report promotes evidence. -/
  evidencePromotion : Bool
  /-- What the report authorises. -/
  authorityEffect : String

namespace Adapters

/-- The commit that reports come from. -/
def nexusPinnedCommit : String := "24cb0ce246d12ac99e7d190a8890ef2ddd598321"

/-- The schema of reports. -/
def nexusCouncilReportSchemaV1 : String := "qsol-fed-nexus-council-report/1"

/-- The greatest length of the name of a session. -/
def maxSessionIdChars : Nat := 1024

/-- The greatest length of the state of the evidence. -/
def maxEvidenceStateChars : Nat := 128

/-- The greatest length of the name of a member. -/
def maxMemberIdChars : Nat := 256

/-- The greatest length of a choice. -/
def maxChoiceChars : Nat := 256

/-- The greatest size of a rationale in bytes. -/
def maxRationaleUtf8Bytes : Nat := 8192

/-- The greatest length of a text about evidence. -/
def maxOracleTextChars : Nat := 8192

/-! ## Texts -/

/-- A hash in lowercase hexadecimal behind a prefix. -/
def prefixedHash (value mark : String) : Bool :=
  (Text.bytes value).length = (Text.bytes mark).length + 64 &&
    (Text.bytes mark).isPrefixOf (Text.bytes value) &&
    ((Text.bytes value).drop (Text.bytes mark).length).all Wire.isLowerHex

/-- A text that is neither empty nor too long. -/
def boundedChars (value : String) (maximum : Nat) : Bool := value ≠ "" && value.length ≤ maximum

/-- The prefixes of secrets, each with how many token characters have to follow. -/
def secretPrefixes : List (String × Nat) := [
  ("ghp_", 20), ("gho_", 20), ("ghu_", 20), ("ghs_", 20), ("ghr_", 20), ("sk-", 20), ("xai-", 20),
  ("gsk_", 20), ("hf_", 20), ("xoxb-", 16), ("xoxp-", 16), ("xoxa-", 16), ("xoxr-", 16),
  ("xoxs-", 16), ("aiza", 30), ("akia", 16), ("asia", 16)]

/-- A character of a token. -/
def isTokenChar (c : Char) : Bool := c.isAlphanum || "_-./+=~".toList.contains c

/-- The number of token characters that a text begins with. -/
def tokenRun (rest : List Char) : Nat := (rest.takeWhile isTokenChar).length

/-- A text in lowercase as far as it is ASCII. -/
def toAsciiLowercase (value : String) : List Char := value.toList.map Char.toLower

/-- The shape of a private key or of a bearer token. -/
def keyShaped (lower : List Char) : Bool :=
  (Search.contains "-----begin ".toList lower &&
      Search.contains "private key-----".toList lower) ||
    Search.contains "authorization: bearer ".toList lower ||
    Search.contains "authorization= bearer ".toList lower

/-- The scan for secrets. -/
def secretShapedText (value : String) : Bool :=
  let lower := toAsciiLowercase value
  keyShaped lower || secretPrefixes.any fun entry =>
    match Search.afterFirst entry.1.toList lower with
    | some rest => entry.2 ≤ tokenRun rest
    | none => false

/-! ## Encoding -/

/-- A member as an object. -/
def writeMember (member : NexusCouncilMemberObservation) : Value String := .object [
  ("member_id", .string member.memberId),
  ("vote_weight_observed", .number (Number.ofInt member.voteWeightObserved)),
  ("epistemic_privilege_observed", .string member.epistemicPrivilegeObserved),
  ("vote_weight_inherited", .bool member.voteWeightInherited),
  ("epistemic_privilege_inherited", .bool member.epistemicPrivilegeInherited),
  ("citizenship_inherited", .bool member.citizenshipInherited),
  ("authority_effect", .string member.authorityEffect)]

/-- An opinion as an object. -/
def writeMinorityReport (report : NexusMinorityReportArtifact) : Value String := .object [
  ("member_id", .string report.memberId),
  ("choice", .string report.choice),
  ("rationale", .string report.rationale),
  ("evidence_promotion", .bool report.evidencePromotion),
  ("vote_injection", .bool report.voteInjection),
  ("authority_effect", .string report.authorityEffect)]

/-- A report as an object. -/
def writeReport (report : NexusCouncilReportArtifact) : Value String := .object [
  ("schema", .string report.schema),
  ("source_repository", .string report.sourceRepository),
  ("source_commit", .string report.sourceCommit),
  ("source_bundle_ref", .string report.sourceBundleRef),
  ("source_session_ref", .string report.sourceSessionRef),
  ("session_id", .string report.sessionId),
  ("question_ref", .string report.questionRef),
  ("evidence_state_observed", .string report.evidenceStateObserved),
  ("members", .array (report.members.map writeMember)),
  ("minority_reports", .array (report.minorityReports.map writeMinorityReport)),
  ("secret_scrubbed", .bool report.secretScrubbed),
  ("shared_ballot", .bool report.sharedBallot),
  ("vote_injection", .bool report.voteInjection),
  ("evidence_promotion", .bool report.evidencePromotion),
  ("authority_effect", .string report.authorityEffect)]

/-! ## Validation -/

variable (unicode : Unicode)

/-- The canonical bytes of a report. -/
def canonicalStruct (report : NexusCouncilReportArtifact) : Except AdapterError ByteArray :=
  (Canonical.canonicalize unicode (Canonical.writtenBytes (writeReport report))).mapError .canonical

/-- The check of a member, after the names of the members before it. -/
def validateMember (names : List String) (member : NexusCouncilMemberObservation) :
    Except AdapterError (List String) := do
  let normalizedMemberId := unicode.nfc member.memberId
  ensure (boundedChars normalizedMemberId maxMemberIdChars ∧ member.voteWeightObserved = 1 ∧
    member.epistemicPrivilegeObserved = "none" ∧ member.voteWeightInherited = false ∧
    member.epistemicPrivilegeInherited = false ∧ member.citizenshipInherited = false ∧
    member.authorityEffect = "none" ∧ secretShapedText normalizedMemberId = false ∧
    normalizedMemberId ∉ names) (.code "nexus_council_member_boundary_invalid")
  pure (normalizedMemberId :: names)

/-- The check of an opinion. -/
def validateMinorityReport (names : List String) (report : NexusMinorityReportArtifact) :
    Except AdapterError Unit :=
  let normalizedMemberId := unicode.nfc report.memberId
  ensure (boundedChars normalizedMemberId maxMemberIdChars ∧ normalizedMemberId ∈ names ∧
    boundedChars report.choice maxChoiceChars ∧ report.rationale ≠ "" ∧
    report.rationale.utf8ByteSize ≤ maxRationaleUtf8Bytes ∧ report.evidencePromotion = false ∧
    report.voteInjection = false ∧ report.authorityEffect = "none" ∧
    secretShapedText report.choice = false ∧ secretShapedText report.rationale = false)
    (.code "nexus_minority_report_boundary_invalid")

/-- The check of a report. -/
def validate (report : NexusCouncilReportArtifact) : Except AdapterError Unit := do
  ensure (report.schema = nexusCouncilReportSchemaV1 ∧
    report.sourceRepository = "QSOLKCB/QSOL-NEXUS" ∧ report.sourceCommit = nexusPinnedCommit ∧
    prefixedHash report.sourceBundleRef "world-export:" ∧
    prefixedHash report.sourceSessionRef "object:" ∧ prefixedHash report.questionRef "object:" ∧
    boundedChars report.sessionId maxSessionIdChars ∧
    boundedChars report.evidenceStateObserved maxEvidenceStateChars ∧ report.members ≠ [] ∧
    report.members.length ≤ 32 ∧ report.minorityReports.length ≤ 64 ∧
    report.secretScrubbed = true ∧ report.sharedBallot = false ∧ report.voteInjection = false ∧
    report.evidencePromotion = false ∧ report.authorityEffect = "none" ∧
    secretShapedText report.sessionId = false ∧
    secretShapedText report.evidenceStateObserved = false) (.code "nexus_council_report_invalid")
  let names ← report.members.foldlM (validateMember unicode) []
  let _ ← report.minorityReports.mapM (validateMinorityReport unicode names)
  let _ ← canonicalStruct unicode report

end Adapters

end QsolFed
