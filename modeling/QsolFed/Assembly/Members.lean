import QsolFed.Assembly.Operations

/-!
# Members and their subjects

The registry keeps every member under its name for good, and the subjects of the members that take
part are all different. An electorate is taken from the members that take part at one time, so no
two of its members ever represent the same subject, whatever happens to the registry later.
-/
namespace QsolFed.Assembly

open Checked Json Effect

variable (primitives : Primitives)

/-- One operation with its result. -/
def Stepped (assembly : FederationAssembly)
    (event : AssemblyOperation × Except AssemblyError AssemblyOutcome) (next : FederationAssembly) :
    Prop := (perform primitives event.1).run assembly = (event.2, next)

/-- An operation either fails and changes nothing or does what the cases say. -/
theorem stepped_cases {assembly next : FederationAssembly}
    {event : AssemblyOperation × Except AssemblyError AssemblyOutcome}
    (stepped : Stepped primitives assembly event next) :
    (∃ error, event.2 = .error error ∧ next = assembly) ∨
      ∃ outcome, event.2 = .ok outcome ∧ Performed primitives assembly event.1 outcome next := by
  obtain ⟨operation, result⟩ := event
  cases result with
  | error error => exact .inl ⟨error, rfl, perform_clean primitives operation _ _ _ stepped⟩
  | ok outcome => exact .inr ⟨outcome, rfl, perform_ok stepped⟩

/-! ## The registry -/

/-- Members stay, and go on representing the same subject. -/
def Keeps (assembly next : FederationAssembly) : Prop :=
  ∀ memberId member, assembly.members.get? memberId = some member →
    ∃ later, next.members.get? memberId = some later ∧
      later.representationSubject = member.representationSubject

/-- The registry of members and the registry of subjects agree. -/
structure Registered (assembly : FederationAssembly) : Prop where
  /-- Members are kept under their names. -/
  named : ∀ memberId member, assembly.members.get? memberId = some member →
    member.memberId = memberId
  /-- The names are names of members. -/
  valid : ∀ memberId member, assembly.members.get? memberId = some member →
    isAssemblyMemberId memberId = true
  /-- Subjects are in normal form. -/
  normal : ∀ memberId member, assembly.members.get? memberId = some member →
    primitives.unicode.nfc member.representationSubject = member.representationSubject
  /-- The registered subjects are those of the members that take part. -/
  subjects : ∀ subject, assembly.representationSubjects.get? subject = some () ↔
    ∃ memberId member, assembly.members.get? memberId = some member ∧ member.status = .active ∧
      member.representationSubject = subject
  /-- The subjects of two members that take part are different. -/
  apart : ∀ left right one two, assembly.members.get? left = some one →
    assembly.members.get? right = some two → one.status = .active → two.status = .active →
    one.representationSubject = two.representationSubject → left = right
  /-- There are not too many members. -/
  few : assembly.members.entries.length ≤ maxAssemblyMembers

variable {primitives}

/-- The empty registry agrees. -/
theorem registered_new : Registered primitives new where
  named := by
    intro memberId member found
    cases found
  valid := by
    intro memberId member found
    cases found
  normal := by
    intro memberId member found
    cases found
  subjects subject := by
    constructor
    · intro found
      cases found
    · rintro ⟨memberId, member, found, -⟩
      cases found
  apart := by
    intro left right one two found
    cases found
  few := by decide

/-- Members that are kept twice are kept. -/
theorem Keeps.trans {one two three : FederationAssembly} (first : Keeps one two)
    (second : Keeps two three) : Keeps one three := by
  intro memberId member found
  obtain ⟨later, foundLater, same⟩ := first memberId member found
  obtain ⟨last, foundLast, again⟩ := second memberId later foundLater
  exact ⟨last, foundLast, again.trans same⟩

/-- Operations that leave the members alone keep them. -/
theorem keeps_of_eq {assembly next : FederationAssembly} (same : next.members = assembly.members) :
    Keeps assembly next := fun _ member found => ⟨member, same ▸ found, rfl⟩

/-- Every operation keeps the members. -/
theorem Performed.keeps {assembly next : FederationAssembly} {operation : AssemblyOperation}
    {outcome : AssemblyOutcome}
    (performed : Performed primitives assembly operation outcome next) : Keeps assembly next := by
  cases performed with
  | admitted room optIn name node fresh subject free =>
    intro memberId member found
    refine ⟨member, ?_, rfl⟩
    rw [OrderedMap.get?_insert_of_ne _ _ (by rintro rfl; rw [fresh] at found; cases found)]
    exact found
  | withdrawn here active =>
    intro memberId member found
    simp only [OrderedMap.get?_insert]
    split_ifs with same
    · subst same
      rw [here] at found
      cases found
      exact ⟨_, rfl, rfl⟩
    · exact ⟨member, found, rfl⟩
  | submitted | attached | voted | retracted | closed => exact keeps_of_eq rfl

/-- Operations that leave both registries alone keep their agreement. -/
theorem Registered.of_eq {assembly next : FederationAssembly}
    (registered : Registered primitives assembly) (members : next.members = assembly.members)
    (subjects : next.representationSubjects = assembly.representationSubjects) :
    Registered primitives next := by
  obtain ⟨named, valid, normal, subjectsIff, apart, few⟩ := registered
  constructor
  all_goals simp only [members, subjects]
  all_goals assumption

/-- The member that stops taking part is the only one whose status changes. -/
theorem get?_withdrawn {members : OrderedMap String AssemblyMemberRecord} {memberId other : String}
    {member found : AssemblyMemberRecord} (here : members.get? memberId = some member)
    (looked : (members.insert memberId { member with status := .withdrawn }).get? other =
      some found) :
    ∃ before, members.get? other = some before ∧ found.memberId = before.memberId ∧
      found.representationSubject = before.representationSubject ∧
      (found.status = .active → before = found ∧ other ≠ memberId) := by
  rw [OrderedMap.get?_insert] at looked
  split_ifs at looked with same
  · subst same
    cases looked
    exact ⟨member, here, rfl, rfl, nofun⟩
  · exact ⟨found, looked, rfl, rfl, fun _ => ⟨rfl, same⟩⟩

/-- Every operation keeps the agreement of the registries. -/
theorem Performed.registered {assembly next : FederationAssembly} {operation : AssemblyOperation}
    {outcome : AssemblyOutcome}
    (performed : Performed primitives assembly operation outcome next)
    (registered : Registered primitives assembly) : Registered primitives next := by
  cases performed with
  | @admitted application room optIn name node fresh subject free =>
    have cases_ : ∀ memberId member, (assembly.members.insert application.memberId
        (admittedRecord primitives application)).get? memberId = some member →
        memberId = application.memberId ∧
          member = admittedRecord primitives application ∨
        memberId ≠ application.memberId ∧ assembly.members.get? memberId = some member := by
      intro memberId member found
      rw [OrderedMap.get?_insert] at found
      split_ifs at found with same
      · exact .inl ⟨same, (Option.some.inj found).symm⟩
      · exact .inr ⟨same, found⟩
    have unused : ∀ memberId member, assembly.members.get? memberId = some member →
        member.status = .active →
        member.representationSubject ≠
          primitives.unicode.nfc application.representationSubject := by
      intro memberId member found active same
      have taken := (registered.subjects _).mpr ⟨memberId, member, found, active, same⟩
      rw [free] at taken
      cases taken
    refine ⟨?_, ?_, ?_, ?_, ?_, ?_⟩
    · intro memberId member found
      rcases cases_ memberId member found with ⟨rfl, rfl⟩ | ⟨-, old⟩
      · rfl
      · exact registered.named memberId member old
    · intro memberId member found
      rcases cases_ memberId member found with ⟨rfl, rfl⟩ | ⟨-, old⟩
      · exact name
      · exact registered.valid memberId member old
    · intro memberId member found
      rcases cases_ memberId member found with ⟨rfl, rfl⟩ | ⟨-, old⟩
      · exact primitives.unicode.idempotent _
      · exact registered.normal memberId member old
    · intro other
      rw [OrderedMap.get?_insert]
      split_ifs with same
      · subst same
        simp only [true_iff]
        exact ⟨application.memberId, _, OrderedMap.get?_insert_self _ _ _, rfl, rfl⟩
      · rw [registered.subjects other]
        constructor
        · rintro ⟨memberId, member, found, active, subject⟩
          refine ⟨memberId, member, ?_, active, subject⟩
          rw [OrderedMap.get?_insert_of_ne _ _ (by rintro rfl; rw [fresh] at found; cases found)]
          exact found
        · rintro ⟨memberId, member, found, active, subject⟩
          rcases cases_ memberId member found with ⟨rfl, rfl⟩ | ⟨-, old⟩
          · exact absurd subject.symm same
          · exact ⟨memberId, member, old, active, subject⟩
    · intro left right one two foundLeft foundRight activeLeft activeRight same
      rcases cases_ left one foundLeft with ⟨rfl, rfl⟩ | ⟨-, oldLeft⟩
      · rcases cases_ right two foundRight with ⟨rfl, -⟩ | ⟨-, oldRight⟩
        · rfl
        · exact absurd same.symm (unused right two oldRight activeRight)
      · rcases cases_ right two foundRight with ⟨rfl, rfl⟩ | ⟨-, oldRight⟩
        · exact absurd same (unused left one oldLeft activeLeft)
        · exact registered.apart left right one two oldLeft oldRight activeLeft activeRight same
    · rw [OrderedMap.insert, Entries.length_insert_of_absent _ fresh]
      omega
  | @withdrawn memberId member here active =>
    refine ⟨?_, ?_, ?_, ?_, ?_, ?_⟩
    · intro other found looked
      obtain ⟨before, old, name, -⟩ := get?_withdrawn here looked
      exact name.trans (registered.named other before old)
    · intro other found looked
      obtain ⟨before, old, -⟩ := get?_withdrawn here looked
      exact registered.valid other before old
    · intro other found looked
      obtain ⟨before, old, -, subject, -⟩ := get?_withdrawn here looked
      rw [subject]
      exact registered.normal other before old
    · intro subject
      rw [OrderedMap.get?_erase]
      split_ifs with same
      · subst same
        simp only [false_iff, not_exists, not_and]
        intro other found looked stays subject
        obtain ⟨before, old, -, -, kept⟩ := get?_withdrawn here looked
        obtain ⟨rfl, different⟩ := kept stays
        exact different (registered.apart other memberId before member old here stays active subject)
      · rw [registered.subjects subject]
        constructor
        · rintro ⟨other, found, looked, stays, rfl⟩
          refine ⟨other, found, ?_, stays, rfl⟩
          rw [OrderedMap.get?_insert_of_ne _ _
            (by rintro rfl; rw [here] at looked; cases looked; exact same rfl)]
          exact looked
        · rintro ⟨other, found, looked, stays, rfl⟩
          obtain ⟨before, old, -, -, kept⟩ := get?_withdrawn here looked
          obtain ⟨rfl, -⟩ := kept stays
          exact ⟨other, before, old, stays, rfl⟩
    · intro left right one two foundLeft foundRight activeLeft activeRight same
      obtain ⟨before, oldLeft, -, -, keptLeft⟩ := get?_withdrawn here foundLeft
      obtain ⟨after, oldRight, -, -, keptRight⟩ := get?_withdrawn here foundRight
      obtain ⟨rfl, -⟩ := keptLeft activeLeft
      obtain ⟨rfl, -⟩ := keptRight activeRight
      exact registered.apart left right before after oldLeft oldRight activeLeft activeRight same
    · rw [OrderedMap.length_insert_of_present _ here]
      exact registered.few
  | submitted | attached | voted | retracted | closed => exact registered.of_eq rfl rfl

end QsolFed.Assembly
