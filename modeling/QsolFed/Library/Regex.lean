import Mathlib.Data.List.Basic
import Mathlib.Tactic.Common

/-!
# Regular expressions with anchors

An expression matches a part of a text between what stands before and after it, so that anchors
can look at both. Engines differ in what may stand after the end anchor: nothing, or one more line
break. An expression that is anchored on both sides matches a whole text exactly when the text is
in the language of what stands between the anchors.
-/
namespace Regex

/-- An expression over the codes of characters. -/
inductive Expression where
  /-- One character of some ranges. -/
  | set (ranges : List (Nat × Nat))
  /-- Nothing. -/
  | empty
  /-- One after the other. -/
  | seq (one two : Expression)
  /-- Any number of times. -/
  | star (one : Expression)
  /-- A bounded number of times. -/
  | repeated (one : Expression) (low high : Nat)
  /-- The beginning of the text. -/
  | start
  /-- The end of the text. -/
  | finish
  deriving DecidableEq

/-- The code lies in one of the ranges. -/
def inRanges (ranges : List (Nat × Nat)) (code : Nat) : Bool :=
  ranges.any fun range => range.1 ≤ code && code ≤ range.2

/-- The characters of a text, one after the other. -/
def literal : List Nat → Expression
  | [] => .empty
  | code :: rest => .seq (.set [(code, code)]) (literal rest)

/-- At least once. -/
def plus (one : Expression) : Expression := .seq one (.star one)

/-- A number of matches, one after the other. -/
inductive Iterated (matches_ : List Nat → List Nat → List Nat → Prop) :
    Nat → List Nat → List Nat → List Nat → Prop where
  /-- No match. -/
  | none (before after : List Nat) : Iterated matches_ 0 before [] after
  /-- One match and more behind it. -/
  | more {count : Nat} {before head rest after : List Nat}
      (first : matches_ before head (rest ++ after))
      (others : Iterated matches_ count (before ++ head) rest after) :
      Iterated matches_ (count + 1) before (head ++ rest) after

/-- An expression matches a part of a text, when `ends` says what may stand after the end. -/
def Matches (ends : List Nat → Bool) : Expression → List Nat → List Nat → List Nat → Prop
  | .set ranges, _, text, _ => ∃ code, text = [code] ∧ inRanges ranges code = true
  | .empty, _, text, _ => text = []
  | .seq one two, before, text, after => ∃ head rest, text = head ++ rest ∧
      Matches ends one before head (rest ++ after) ∧ Matches ends two (before ++ head) rest after
  | .star one, before, text, after => ∃ count, Iterated (Matches ends one) count before text after
  | .repeated one low high, before, text, after => ∃ count, low ≤ count ∧ count ≤ high ∧
      Iterated (Matches ends one) count before text after
  | .start, before, text, _ => text = [] ∧ before = []
  | .finish, _, text, after => text = [] ∧ ends after = true

/-- An expression without anchors. -/
def Plain : Expression → Prop
  | .set _ | .empty => True
  | .seq one two => Plain one ∧ Plain two
  | .star one | .repeated one _ _ => Plain one
  | .start | .finish => False

/-- The texts that an expression without anchors matches. -/
def Language : Expression → List Nat → Prop
  | .set ranges, text => ∃ code, text = [code] ∧ inRanges ranges code = true
  | .empty, text => text = []
  | .seq one two, text => ∃ head rest, text = head ++ rest ∧ Language one head ∧ Language two rest
  | .star one, text => ∃ parts : List (List Nat), text = parts.flatten ∧
      ∀ part ∈ parts, Language one part
  | .repeated one low high, text => ∃ parts : List (List Nat), text = parts.flatten ∧
      low ≤ parts.length ∧ parts.length ≤ high ∧ ∀ part ∈ parts, Language one part
  | .start, text | .finish, text => text = []

/-! ## Anchored expressions -/

/-- Matches that do not look around are the parts of a text. -/
theorem iterated_iff {matches_ : List Nat → List Nat → List Nat → Prop} {accepts : List Nat → Prop}
    (plain : ∀ before text after, matches_ before text after ↔ accepts text) (count : Nat)
    (before text after : List Nat) : Iterated matches_ count before text after ↔
      ∃ parts : List (List Nat), text = parts.flatten ∧ parts.length = count ∧
        ∀ part ∈ parts, accepts part := by
  induction count generalizing before text with
  | zero =>
    constructor
    · rintro ⟨⟩
      exact ⟨[], rfl, rfl, by simp⟩
    · rintro ⟨parts, rfl, none_, -⟩
      rw [List.eq_nil_of_length_eq_zero none_]
      exact .none before after
  | succ count ih =>
    constructor
    · intro iterated
      cases iterated with
      | more first others =>
        obtain ⟨parts, rfl, length, each⟩ := (ih _ _).mp others
        refine ⟨_ :: parts, rfl, congrArg Nat.succ length, ?_⟩
        rw [List.forall_mem_cons]
        exact ⟨(plain _ _ _).mp first, each⟩
    · rintro ⟨parts, rfl, length, each⟩
      cases parts with
      | nil => cases length
      | cons head rest =>
        rw [List.forall_mem_cons] at each
        exact .more ((plain _ _ _).mpr each.1)
          ((ih _ _).mpr ⟨rest, rfl, Nat.succ.inj length, each.2⟩)

/-- An expression without anchors matches the texts of its language, wherever they stand. -/
theorem matches_iff {ends : List Nat → Bool} {expression : Expression} (plain : Plain expression)
    (before text after : List Nat) :
    Matches ends expression before text after ↔ Language expression text := by
  induction expression generalizing before text after with
  | set | empty => rfl
  | seq one two first second =>
    simp only [Matches, Language, first plain.1, second plain.2]
  | star one ih =>
    simp only [Matches, Language, iterated_iff (ih plain)]
    constructor
    · rintro ⟨_, parts, rfl, -, each⟩
      exact ⟨parts, rfl, each⟩
    · rintro ⟨parts, rfl, each⟩
      exact ⟨_, parts, rfl, rfl, each⟩
  | repeated one low high ih =>
    simp only [Matches, Language, iterated_iff (ih plain)]
    constructor
    · rintro ⟨_, least, most, parts, rfl, rfl, each⟩
      exact ⟨parts, rfl, least, most, each⟩
    · rintro ⟨parts, rfl, least, most, each⟩
      exact ⟨_, least, most, parts, rfl, rfl, each⟩
  | start | finish => cases plain

/-- An expression between anchors. -/
def anchored (body : Expression) : Expression := .seq .start (.seq body .finish)

/-- An anchored expression matches from the beginning to where the text may end. -/
theorem matches_anchored {ends : List Nat → Bool} {body : Expression} (plain : Plain body)
    (before text after : List Nat) : Matches ends (anchored body) before text after ↔
      before = [] ∧ ends after = true ∧ Language body text := by
  simp only [anchored, Matches, matches_iff plain]
  constructor
  · rintro ⟨_, _, rfl, ⟨rfl, rfl⟩, _, _, rfl, matched, rfl, ended⟩
    refine ⟨rfl, ended, ?_⟩
    rwa [List.nil_append, List.append_nil]
  · rintro ⟨rfl, ended, matched⟩
    exact ⟨[], text, rfl, ⟨rfl, rfl⟩, text, [], (List.append_nil _).symm, matched, rfl, ended⟩

/-! ## Languages -/

/-- A single range is a single code. -/
theorem inRanges_single {code other : Nat} :
    inRanges [(code, code)] other = true ↔ other = code := by
  simp only [inRanges, List.any_cons, List.any_nil, Bool.or_false, Bool.and_eq_true,
    decide_eq_true_eq]
  omega

/-- The language of a text is the text. -/
theorem language_literal (codes text : List Nat) :
    Language (literal codes) text ↔ text = codes := by
  induction codes generalizing text with
  | nil => rfl
  | cons code rest ih =>
    simp only [literal, Language, ih, inRanges_single]
    constructor
    · rintro ⟨_, _, rfl, ⟨_, rfl, rfl⟩, rfl⟩
      rfl
    · rintro rfl
      exact ⟨[code], rest, rfl, ⟨code, rfl, rfl⟩, rfl⟩

/-- A literal has no anchors. -/
theorem plain_literal (codes : List Nat) : Plain (literal codes) := by
  induction codes with
  | nil => trivial
  | cons code rest ih => exact ⟨trivial, ih⟩

/-- Parts of one character each are the characters. -/
theorem parts_of_set {ranges : List (Nat × Nat)} (text : List Nat) (count : Nat → Prop) :
    (∃ parts : List (List Nat), text = parts.flatten ∧ count parts.length ∧
      ∀ part ∈ parts, Language (.set ranges) part) ↔
      count text.length ∧ ∀ code ∈ text, inRanges ranges code = true := by
  constructor
  · rintro ⟨parts, rfl, counted, each⟩
    have single : ∀ parts : List (List Nat), (∀ part ∈ parts, Language (.set ranges) part) →
        parts.flatten.length = parts.length ∧
          ∀ code ∈ parts.flatten, inRanges ranges code = true := by
      intro parts each
      induction parts with
      | nil => simp
      | cons part rest ih =>
        rw [List.forall_mem_cons] at each
        obtain ⟨⟨code, rfl, inside⟩, others⟩ := each
        obtain ⟨length, all⟩ := ih others
        rw [List.flatten_cons, List.singleton_append, List.forall_mem_cons]
        exact ⟨congrArg Nat.succ length, inside, all⟩
    obtain ⟨length, all⟩ := single parts each
    exact ⟨length ▸ counted, all⟩
  · rintro ⟨counted, each⟩
    refine ⟨text.map fun code => [code], ?_, ?_, ?_⟩
    · rw [← List.flatMap_def, List.flatMap_singleton']
    · rwa [List.length_map]
    · intro part listed
      obtain ⟨code, member, rfl⟩ := List.mem_map.mp listed
      exact ⟨code, rfl, each code member⟩

/-- A set any number of times: every character is in it. -/
theorem language_star_set {ranges : List (Nat × Nat)} (text : List Nat) :
    Language (.star (.set ranges)) text ↔ ∀ code ∈ text, inRanges ranges code = true := by
  have parts := @parts_of_set ranges text fun _ => True
  rw [Language]
  simpa only [true_and] using parts

/-- A set a bounded number of times: the text is as long, and every character is in it. -/
theorem language_repeated_set {ranges : List (Nat × Nat)} {low high : Nat} (text : List Nat) :
    Language (.repeated (.set ranges) low high) text ↔
      low ≤ text.length ∧ text.length ≤ high ∧ ∀ code ∈ text, inRanges ranges code = true := by
  have parts := @parts_of_set ranges text fun count => low ≤ count ∧ count ≤ high
  rw [Language]
  simpa only [and_assoc] using parts

/-- Every code that an expression mentions is below a bound. -/
def Below (bound : Nat) : Expression → Prop
  | .set ranges => ∀ range ∈ ranges, range.2 < bound
  | .seq one two => Below bound one ∧ Below bound two
  | .star one | .repeated one _ _ => Below bound one
  | .empty | .start | .finish => True

/-- Small characters make a small literal. -/
theorem below_literal {bound : Nat} {codes : List Nat} (small : ∀ code ∈ codes, code < bound) :
    Below bound (literal codes) := by
  induction codes with
  | nil => trivial
  | cons code rest ih =>
    rw [List.forall_mem_cons] at small
    exact ⟨by simpa [Below] using small.1, ih small.2⟩

/-- Texts of a language have only characters that the expression mentions. -/
theorem below_of_language {bound : Nat} {expression : Expression} (below : Below bound expression)
    {text : List Nat} (accepted : Language expression text) : ∀ code ∈ text, code < bound := by
  induction expression generalizing text with
  | set ranges =>
    obtain ⟨code, rfl, inside⟩ := accepted
    obtain ⟨range, listed, bounds⟩ := List.any_eq_true.mp inside
    simp only [Bool.and_eq_true, decide_eq_true_eq] at bounds
    have small := below range listed
    intro other member
    rw [List.mem_singleton.mp member]
    omega
  | empty | start | finish =>
    intro code member
    rw [show text = [] from accepted] at member
    cases member
  | seq one two first second =>
    obtain ⟨head, rest, rfl, left, right⟩ := accepted
    intro code member
    rcases List.mem_append.mp member with here | later
    · exact first below.1 left code here
    · exact second below.2 right code later
  | star one ih =>
    obtain ⟨parts, rfl, each⟩ := accepted
    intro code member
    obtain ⟨part, listed, inside⟩ := List.mem_flatten.mp member
    exact ih below (each part listed) code inside
  | repeated one low high ih =>
    obtain ⟨parts, rfl, -, -, each⟩ := accepted
    intro code member
    obtain ⟨part, listed, inside⟩ := List.mem_flatten.mp member
    exact ih below (each part listed) code inside

end Regex
