import Mathlib.Data.List.Forall2
import QsolFed.Library.Regex
import QsolFed.Wire

/-!
# Grammars of the development kits

The kits in other languages check the identifiers and timestamps with regular expressions. One
engine matches the whole sequence of code points, the other one searches the sequence of UTF-16
code units, and they differ in what may follow the end anchor. They accept the same texts as the
checks of the bytes, and these never index or slice where they must not.
-/
namespace QsolFed.Wire.Grammars

open Text (bytes)
open Regex

/-! ## Patterns -/

/-- A character. -/
def one (c : Char) : Nat × Nat := (c.toNat, c.toNat)

/-- The characters from one to another. -/
def range (first last : Char) : Nat × Nat := (first.toNat, last.toNat)

/-- A text. -/
def text (value : String) : Expression := literal (value.toList.map Char.toNat)

/-- A digit, some number of times. -/
def digits (count : Nat) : Expression := .repeated (.set [range '0' '9']) count count

/-- The name of a node, `fed:qsol:[a-z0-9][a-z0-9._-]{0,127}`. -/
def nodeIdBody : Expression :=
  .seq (text "fed:qsol:") <|
  .seq (.set [range 'a' 'z', range '0' '9']) <|
  .repeated (.set [range 'a' 'z', range '0' '9', one '.', one '_', one '-']) 0 127

/-- A name and 64 digits behind it. -/
def reference (begins : String) : Expression :=
  .seq (text begins) <| .repeated (.set [range '0' '9', range 'a' 'f']) 64 64

/-- A reference, `sha256:[0-9a-f]{64}`. -/
def sha256RefBody : Expression := reference "sha256:"

/-- A timestamp, `[0-9]{4}-[0-9]{2}-[0-9]{2}T[0-9]{2}:[0-9]{2}:[0-9]{2}Z`. -/
def timestampBody : Expression :=
  .seq (digits 4) <| .seq (text "-") <| .seq (digits 2) <| .seq (text "-") <| .seq (digits 2) <|
  .seq (text "T") <| .seq (digits 2) <| .seq (text ":") <| .seq (digits 2) <| .seq (text ":") <|
  .seq (digits 2) (text "Z")

/-- A letter or a digit. -/
def alphanumeric : Expression := .set [range 'a' 'z', range '0' '9']

/-- A capability, `[a-z][a-z0-9]*(?:[.-][a-z0-9]+)*/[1-9][0-9]*`. -/
def capabilityBody : Expression :=
  .seq (.set [range 'a' 'z']) <| .seq (.star alphanumeric) <|
  .seq (.star (.seq (.set [one '.', one '-']) (plus alphanumeric))) <| .seq (text "/") <|
  .seq (.set [range '1' '9']) (.star (.set [range '0' '9']))

/-! ## Engines -/

/-- What may follow the end anchor of one engine: nothing, or a last line break. -/
def endsBeforeBreak (after : List Nat) : Bool := after = [] || after = [10]

/-- The first engine matches the whole text. -/
def fullmatch (pattern : Expression) (value : List Nat) : Prop :=
  Matches endsBeforeBreak pattern [] value []

/-- The second engine finds a match somewhere. -/
def test (pattern : Expression) (value : List Nat) : Prop :=
  ∃ before found after, value = before ++ found ++ after ∧
    Matches List.isEmpty pattern before found after

/-- The first engine takes code points. -/
def codes (value : String) : List Nat := value.toList.map Char.toNat

/-- The UTF-16 code units of a character. -/
def utf16 (c : Char) : List Nat :=
  if c.toNat < 0x10000 then [c.toNat]
  else [0xD800 + (c.toNat - 0x10000) / 0x400, 0xDC00 + (c.toNat - 0x10000) % 0x400]

/-- The second engine takes code units. -/
def units (value : String) : List Nat := value.toList.flatMap utf16

/-- A pattern between anchors is matched whole exactly in its language. -/
theorem fullmatch_iff {body : Expression} (plain : Plain body) (value : List Nat) :
    fullmatch (anchored body) value ↔ Language body value := by
  rw [fullmatch, matches_anchored plain]
  exact ⟨fun ⟨_, _, accepted⟩ => accepted, fun accepted => ⟨rfl, rfl, accepted⟩⟩

/-- A pattern between anchors is found exactly in its language. -/
theorem test_iff {body : Expression} (plain : Plain body) (value : List Nat) :
    test (anchored body) value ↔ Language body value := by
  constructor
  · rintro ⟨before, found, after, rfl, matched⟩
    obtain ⟨rfl, ended, accepted⟩ := (matches_anchored plain _ _ _).mp matched
    rw [List.isEmpty_iff] at ended
    rw [ended, List.nil_append, List.append_nil]
    exact accepted
  · intro accepted
    exact ⟨[], value, [], by simp, (matches_anchored plain _ _ _).mpr ⟨rfl, rfl, accepted⟩⟩

/-! ## Encodings of ASCII texts -/

/-- The numbers of bytes. -/
def octets (value : List UInt8) : List Nat := value.map UInt8.toNat

/-- The octets of an ASCII text are its code points. -/
theorem octets_ascii {value : String} (ascii : ∀ c ∈ value.toList, Text.Ascii c) :
    octets (bytes value) = codes value := by
  have narrow := Text.bytes_ofList_ascii ascii
  rw [String.ofList_toList] at narrow
  rw [octets, narrow, codes, List.map_map]
  exact List.map_congr_left fun c member => Text.toNat_byte (ascii c member)

/-- The code units of an ASCII text are its code points. -/
theorem units_ascii {value : String} (ascii : ∀ c ∈ value.toList, Text.Ascii c) :
    units value = codes value := by
  have each : ∀ list : List Char, (∀ c ∈ list, Text.Ascii c) →
      list.flatMap utf16 = list.map Char.toNat := by
    intro list narrow
    induction list with
    | nil => rfl
    | cons c rest ih =>
      rw [List.forall_mem_cons] at narrow
      have small : c.toNat < 0x10000 := lt_trans narrow.1 (by decide)
      rw [List.flatMap_cons, List.map_cons, ih narrow.2, utf16, if_pos small]
      rfl
  exact each _ ascii

/-- A text with small code units is ASCII. -/
theorem ascii_of_units {value : String} (small : ∀ unit ∈ units value, unit < 0x80) :
    ∀ c ∈ value.toList, Text.Ascii c := by
  intro c member
  by_cases basic : c.toNat < 0x10000
  · have unit : c.toNat ∈ units value := by
      refine List.mem_flatMap.mpr ⟨c, member, ?_⟩
      rw [utf16, if_pos basic]
      exact List.mem_singleton_self _
    exact small _ unit
  · have unit : 0xD800 + (c.toNat - 0x10000) / 0x400 ∈ units value := by
      refine List.mem_flatMap.mpr ⟨c, member, ?_⟩
      rw [utf16, if_neg basic]
      exact List.mem_cons_self
    have large := small _ unit
    omega

/-- A text with small code points is ASCII. -/
theorem ascii_of_codes {value : String} (small : ∀ code ∈ codes value, code < 0x80) :
    ∀ c ∈ value.toList, Text.Ascii c := fun _ member => small _ (List.mem_map_of_mem member)

/-- A text with small octets is ASCII. -/
theorem ascii_of_octets {value : String} (small : ∀ octet ∈ octets (bytes value), octet < 0x80) :
    ∀ c ∈ value.toList, Text.Ascii c :=
  Text.ascii_of_bytes fun _ member => small _ (List.mem_map_of_mem member)

/-- Small codes are those of a text. -/
theorem exists_codes {value : List Nat} (small : ∀ code ∈ value, code < 0x80) :
    ∃ whole : String, codes whole = value ∧ units whole = value := by
  have back : ∀ code ∈ value, (Char.ofNat code).toNat = code := by
    intro code member
    have all : ∀ code < 0x80, (Char.ofNat code).toNat = code := by decide
    exact all code (small code member)
  have same : codes (String.ofList (value.map Char.ofNat)) = value := by
    rw [codes, String.toList_ofList, List.map_map]
    exact (List.map_congr_left back).trans (List.map_id _)
  refine ⟨String.ofList (value.map Char.ofNat), same, ?_⟩
  rw [units_ascii (ascii_of_codes fun code member => small code (same ▸ member)), same]

/-- A language of ASCII texts has the same texts as octets, code points and code units. -/
theorem language_encodings {body : Expression} (below : Below 0x80 body) (value : String) :
    (Language body (octets (bytes value)) ↔ Language body (codes value)) ∧
      (Language body (octets (bytes value)) ↔ Language body (units value)) := by
  have fromAscii : (∀ c ∈ value.toList, Text.Ascii c) →
      octets (bytes value) = codes value ∧ octets (bytes value) = units value := fun ascii =>
    ⟨octets_ascii ascii, (octets_ascii ascii).trans (units_ascii ascii).symm⟩
  refine ⟨⟨fun accepted => ?_, fun accepted => ?_⟩, ⟨fun accepted => ?_, fun accepted => ?_⟩⟩
  · rwa [← (fromAscii (ascii_of_octets (below_of_language below accepted))).1]
  · rwa [(fromAscii (ascii_of_codes (below_of_language below accepted))).1]
  · rwa [← (fromAscii (ascii_of_octets (below_of_language below accepted))).2]
  · rwa [(fromAscii (ascii_of_units (below_of_language below accepted))).2]

/-! ## Checks of bytes -/

/-- A digit, by its number. -/
theorem digit_iff (b : UInt8) : inRanges [range '0' '9'] b.toNat = isAsciiDigit b := by
  have zero : (byte '0').toNat = 48 ∧ (byte '9').toNat = 57 := by decide
  simp only [inRanges, range, isAsciiDigit, List.any_cons, List.any_nil, Bool.or_false,
    UInt8.le_iff_toNat_le, zero]
  rfl

/-- A letter, by its number. -/
theorem lowercase_iff (b : UInt8) : inRanges [range 'a' 'z'] b.toNat = isAsciiLowercase b := by
  have bounds : (byte 'a').toNat = 97 ∧ (byte 'z').toNat = 122 := by decide
  simp only [inRanges, range, isAsciiLowercase, List.any_cons, List.any_nil, Bool.or_false,
    UInt8.le_iff_toNat_le, bounds]
  rfl

/-- One of several ranges. -/
theorem inRanges_cons (first next : Nat × Nat) (others : List (Nat × Nat)) (code : Nat) :
    inRanges (first :: next :: others) code =
      (inRanges [first] code || inRanges (next :: others) code) := by
  simp only [inRanges, List.any_cons, List.any_nil, Bool.or_false]

/-- A character, by its number. -/
theorem one_iff {c : Char} (ascii : Text.Ascii c) (b : UInt8) :
    inRanges [one c] b.toNat = decide (b = byte c) := by
  have number : (byte c).toNat = c.toNat := Text.toNat_byte ascii
  rw [Bool.eq_iff_iff, one, inRanges_single, decide_eq_true_eq, ← number, UInt8.toNat_inj]

/-- The octets of a text of the protocol. -/
theorem language_text {value : String} (ascii : ∀ c ∈ value.toList, Text.Ascii c)
    (list : List UInt8) : Language (text value) (octets list) ↔ list = bytes value := by
  have same : value.toList.map Char.toNat = octets (bytes value) := (octets_ascii ascii).symm
  rw [text, language_literal, same, octets, octets]
  exact (List.map_injective_iff.mpr fun _ _ => UInt8.toNat_inj.mp).eq_iff

/-- Octets in two languages, one behind the other. -/
theorem language_seq (first second : Expression) (list : List UInt8) :
    Language (.seq first second) (octets list) ↔ ∃ head rest, list = head ++ rest ∧
      Language first (octets head) ∧ Language second (octets rest) := by
  rw [Regex.Language]
  constructor
  · rintro ⟨head, rest, same, left, right⟩
    obtain ⟨headBytes, restBytes, rfl, rfl, rfl⟩ := List.map_eq_append_iff.mp same
    exact ⟨headBytes, restBytes, rfl, left, right⟩
  · rintro ⟨head, rest, rfl, left, right⟩
    exact ⟨octets head, octets rest, List.map_append, left, right⟩

/-- One octet of some ranges. -/
theorem language_octet (ranges : List (Nat × Nat)) (list : List UInt8) :
    Language (.set ranges) (octets list) ↔
      ∃ b, list = [b] ∧ inRanges ranges b.toNat = true := by
  rw [Regex.Language]
  constructor
  · rintro ⟨code, same, inside⟩
    obtain ⟨b, rest, rfl, rfl, empty⟩ := List.map_eq_cons_iff.mp same
    rw [List.map_eq_nil_iff.mp empty]
    exact ⟨b, rfl, inside⟩
  · rintro ⟨b, rfl, inside⟩
    exact ⟨b.toNat, rfl, inside⟩

/-- Octets of some ranges. -/
theorem language_octets (ranges : List (Nat × Nat)) (list : List UInt8) :
    Language (.star (.set ranges)) (octets list) ↔
      ∀ b ∈ list, inRanges ranges b.toNat = true := by
  rw [language_star_set, octets, List.forall_mem_map]

/-- A bounded number of octets of some ranges. -/
theorem language_bounded (ranges : List (Nat × Nat)) (low high : Nat) (list : List UInt8) :
    Language (.repeated (.set ranges) low high) (octets list) ↔
      low ≤ list.length ∧ list.length ≤ high ∧ ∀ b ∈ list, inRanges ranges b.toNat = true := by
  rw [language_repeated_set, octets, List.forall_mem_map, List.length_map]

/-- Names with digits behind them are the texts of their pattern. -/
theorem language_reference {begins : String} (ascii : ∀ c ∈ begins.toList, Text.Ascii c)
    (list : List UInt8) : Language (reference begins) (octets list) ↔
      bytes begins <+: list ∧ list.length = (bytes begins).length + 64 ∧
        ∀ b ∈ list.drop (bytes begins).length, isLowerHex b = true := by
  have hex : ∀ b : UInt8, inRanges [range '0' '9', range 'a' 'f'] b.toNat = isLowerHex b := by
    intro b
    have bounds : (byte 'a').toNat = 97 ∧ (byte 'f').toNat = 102 := by decide
    have letter : inRanges [range 'a' 'f'] b.toNat = (byte 'a' ≤ b && b ≤ byte 'f') := by
      simp only [inRanges, range, List.any_cons, List.any_nil, Bool.or_false,
        UInt8.le_iff_toNat_le, bounds]
      rfl
    rw [inRanges_cons, digit_iff, letter, isLowerHex]
  rw [reference, language_seq]
  simp only [language_text ascii, language_bounded, hex]
  constructor
  · rintro ⟨_, rest, rfl, rfl, least, most, digits⟩
    rw [List.drop_left, List.length_append]
    exact ⟨List.prefix_append _ _, by omega, digits⟩
  · rintro ⟨⟨rest, rfl⟩, length, digits⟩
    rw [List.drop_left] at digits
    rw [List.length_append] at length
    exact ⟨_, rest, rfl, rfl, by omega, by omega, digits⟩

/-- The references are the texts of their pattern. -/
theorem sha256Ref_language (value : String) :
    isSha256Ref value = true ↔ Language sha256RefBody (octets (bytes value)) := by
  have seven : (bytes "sha256:").length = 7 := rfl
  rw [sha256RefBody, language_reference (List.all_iff_forall_prop.mp (by decide)), seven]
  simp only [isSha256Ref, Bool.and_eq_true, decide_eq_true_eq, List.all_eq_true,
    List.isPrefixOf_iff_prefix]
  exact ⟨fun shape => ⟨shape.1.2, shape.1.1, shape.2⟩,
    fun shape => ⟨⟨shape.2.1, shape.1⟩, shape.2.2⟩⟩

/-- The names of nodes are the texts of their pattern. -/
theorem nodeId_language (value : String) :
    isNodeId value = true ↔ Language nodeIdBody (octets (bytes value)) := by
  have head : ∀ b : UInt8, inRanges [range 'a' 'z', range '0' '9'] b.toNat =
      (isAsciiLowercase b || isAsciiDigit b) := fun b => by
    rw [inRanges_cons, lowercase_iff, digit_iff]
  have tail : ∀ b : UInt8,
      inRanges [range 'a' 'z', range '0' '9', one '.', one '_', one '-'] b.toNat =
        (isAsciiLowercase b || isAsciiDigit b || b = byte '.' || b = byte '_' ||
          b = byte '-') := fun b => by
    rw [inRanges_cons, inRanges_cons, inRanges_cons, inRanges_cons, lowercase_iff, digit_iff,
      one_iff (by decide), one_iff (by decide), one_iff (by decide)]
    simp only [Bool.or_assoc]
  have nine : (bytes "fed:qsol:").length = 9 := rfl
  rw [nodeIdBody, language_seq]
  simp only [language_seq, language_octet, language_text (List.all_iff_forall_prop.mp (by decide) :
    ∀ c ∈ "fed:qsol:".toList, Text.Ascii c), language_bounded, head, tail, isNodeId,
    Bool.and_eq_true, List.isPrefixOf_iff_prefix]
  constructor
  · rintro ⟨⟨rest, same⟩, shape⟩
    rw [← same, ← nine, List.drop_left] at shape
    cases rest with
    | nil => cases shape
    | cons first others =>
      simp only [Bool.and_eq_true, decide_eq_true_eq, List.all_cons, List.length_cons,
        List.all_eq_true] at shape
      exact ⟨_, _, same.symm, rfl, [first], others, rfl, ⟨first, rfl, shape.1.2⟩, Nat.zero_le _,
        Nat.le_of_succ_le_succ shape.1.1, shape.2.2⟩
  · rintro ⟨_, _, same, rfl, _, others, rfl, ⟨first, rfl, letter⟩, -, short, each⟩
    refine ⟨⟨_, same.symm⟩, ?_⟩
    rw [same, ← nine, List.drop_left]
    have start : (isAsciiLowercase first || isAsciiDigit first || first = byte '.' ||
        first = byte '_' || first = byte '-') = true := by
      rw [letter]
      rfl
    simp only [List.singleton_append, Bool.and_eq_true, decide_eq_true_eq, List.all_cons,
      List.length_cons, List.all_eq_true]
    exact ⟨⟨Nat.succ_le_succ short, letter⟩, start, each⟩

/-! ## Timestamps -/

/-- A place of a timestamp: a digit, or a fixed character. -/
def Fits : Option Char → UInt8 → Prop
  | none, b => isAsciiDigit b = true
  | some c, b => b = byte c

/-- The places of a timestamp. -/
def places : List (Option Char) :=
  List.replicate 4 none ++ ([some '-'] ++ (List.replicate 2 none ++ ([some '-'] ++
    (List.replicate 2 none ++ ([some 'T'] ++ (List.replicate 2 none ++ ([some ':'] ++
      (List.replicate 2 none ++ ([some ':'] ++ (List.replicate 2 none ++ [some 'Z']))))))))))

/-- Places one behind the other take parts one behind the other. -/
theorem fits_append (first second : List (Option Char)) (list : List UInt8) :
    List.Forall₂ Fits (first ++ second) list ↔ ∃ head rest, list = head ++ rest ∧
      List.Forall₂ Fits first head ∧ List.Forall₂ Fits second rest := by
  induction first generalizing list with
  | nil =>
    constructor
    · exact fun fits => ⟨[], list, rfl, .nil, fits⟩
    · rintro ⟨_, _, rfl, left, right⟩
      cases left
      exact right
  | cons place others ih =>
    constructor
    · intro fits
      cases fits with
      | cons here later =>
        obtain ⟨head, rest, rfl, left, right⟩ := (ih _).mp later
        exact ⟨_ :: head, rest, rfl, .cons here left, right⟩
    · rintro ⟨_, rest, rfl, left, right⟩
      cases left with
      | cons here later => exact .cons here ((ih _).mpr ⟨_, rest, rfl, later, right⟩)

/-- Digits fill places for digits. -/
theorem language_digits (count : Nat) (list : List UInt8) :
    Language (digits count) (octets list) ↔
      List.Forall₂ Fits (List.replicate count none) list := by
  rw [digits, language_bounded]
  simp only [digit_iff]
  constructor
  · rintro ⟨least, most, each⟩
    obtain rfl : list.length = count := le_antisymm most least
    clear least most
    induction list with
    | nil => exact .nil
    | cons b rest ih =>
      rw [List.forall_mem_cons] at each
      exact .cons each.1 (ih each.2)
  · intro fits
    have length := fits.length_eq
    rw [List.length_replicate] at length
    refine ⟨length.le, length.ge, ?_⟩
    clear length
    induction count generalizing list with
    | zero =>
      cases fits
      simp
    | succ count ih =>
      cases fits with
      | cons first others =>
        rw [List.forall_mem_cons]
        exact ⟨first, ih _ others⟩

/-- A fixed character fills its place. -/
theorem language_mark {c : Char} (ascii : Text.Ascii c) (list : List UInt8) :
    Language (literal [c.toNat]) (octets list) ↔ List.Forall₂ Fits [some c] list := by
  have fixed : List.Forall₂ Fits [some c] list ↔ list = [byte c] := by
    simp [List.forall₂_cons_left_iff, Fits]
  have number : [c.toNat] = octets [byte c] := congrArg (· :: []) (Text.toNat_byte ascii).symm
  rw [fixed, language_literal, number, octets, octets]
  exact (List.map_injective_iff.mpr fun _ _ => UInt8.toNat_inj.mp).eq_iff

/-- The pattern of timestamps is that of their places. -/
theorem timestamp_places (list : List UInt8) :
    Language timestampBody (octets list) ↔ List.Forall₂ Fits places list := by
  have hyphen := @language_mark '-' (by decide)
  have letter := @language_mark 'T' (by decide)
  have colon := @language_mark ':' (by decide)
  have last := @language_mark 'Z' (by decide)
  simp only [timestampBody, places, language_seq, fits_append, language_digits,
    show text "-" = literal ['-'.toNat] from rfl, show text "T" = literal ['T'.toNat] from rfl,
    show text ":" = literal [':'.toNat] from rfl, show text "Z" = literal ['Z'.toNat] from rfl,
    hyphen, letter, colon, last]

/-- The timestamps are the texts of their pattern. -/
theorem timestamp_language (value : String) :
    isWireTimestamp value = true ↔ Language timestampBody (octets (bytes value)) := by
  rw [timestamp_places, List.forall₂_iff_get]
  simp only [isWireTimestamp, Bool.and_eq_true, decide_eq_true_eq, List.all_eq_true]
  generalize bytes value = list
  have twenty : places.length = 20 := rfl
  constructor
  · rintro ⟨⟨⟨⟨⟨⟨⟨length, p4⟩, p7⟩, p10⟩, p13⟩, p16⟩, p19⟩, each⟩
    refine ⟨length.symm, fun index listed inside => ?_⟩
    have mark : ∀ c, list[index]? = some c → list.get ⟨index, inside⟩ = c := by
      intro c found
      rw [List.getElem?_eq_getElem inside] at found
      exact Option.some.inj found
    have digit : index ∉ fixedPositions → isAsciiDigit (list.get ⟨index, inside⟩) = true := by
      intro free
      have checked := each (list[index], index)
        (List.mk_mem_zipIdx_iff_getElem?.mpr (List.getElem?_eq_getElem inside))
      simp only [Bool.or_eq_true, decide_eq_true_eq] at checked
      exact checked.resolve_left free
    rw [twenty] at listed
    interval_cases index
    all_goals first
      | exact digit (by decide)
      | exact mark _ p4
      | exact mark _ p7
      | exact mark _ p10
      | exact mark _ p13
      | exact mark _ p16
      | exact mark _ p19
  · rintro ⟨length, each⟩
    rw [twenty] at length
    have here : ∀ index (inside : index < 20), Fits (places.get ⟨index, inside⟩)
        (list.get ⟨index, length ▸ inside⟩) := fun index inside => each index inside _
    have mark : ∀ index (inside : index < 20) (c : UInt8),
        list.get ⟨index, length ▸ inside⟩ = c → list[index]? = some c := by
      intro index inside c same
      rw [List.getElem?_eq_getElem (length ▸ inside)]
      exact congrArg some same
    refine ⟨⟨⟨⟨⟨⟨⟨length.symm, ?_⟩, ?_⟩, ?_⟩, ?_⟩, ?_⟩, ?_⟩, ?_⟩
    · exact mark 4 (by decide) _ (here 4 (by decide))
    · exact mark 7 (by decide) _ (here 7 (by decide))
    · exact mark 10 (by decide) _ (here 10 (by decide))
    · exact mark 13 (by decide) _ (here 13 (by decide))
    · exact mark 16 (by decide) _ (here 16 (by decide))
    · exact mark 19 (by decide) _ (here 19 (by decide))
    · rintro ⟨b, index⟩ listed
      have found := List.mk_mem_zipIdx_iff_getElem?.mp listed
      obtain ⟨inside, same⟩ := List.getElem?_eq_some_iff.mp found
      have small : index < 20 := length ▸ inside
      have fits := here index small
      rw [show list.get ⟨index, length ▸ small⟩ = b from same] at fits
      simp only [Bool.or_eq_true, decide_eq_true_eq]
      clear found listed same inside
      interval_cases index
      all_goals first
        | exact .inl (by decide)
        | exact .inr fits

/-! ## Capabilities -/

/-- A separator of the segments of a capability name. -/
def separates (b : UInt8) : Bool := b = byte '.' || b = byte '-'

/-- More segments of a name, each behind a separator. -/
inductive Segments : List UInt8 → Prop where
  /-- No more. -/
  | none : Segments []
  /-- One more. -/
  | more {mark : UInt8} {segment rest : List UInt8} (separator : separates mark = true)
      (valid : validSegment false segment = true) (others : Segments rest) :
      Segments (mark :: (segment ++ rest))

/-- Segments have no separators. -/
theorem kept_of_valid {first : Bool} {segment : List UInt8}
    (valid : validSegment first segment = true) : ∀ b ∈ segment, separates b = false := by
  have letter : ∀ b, isAsciiLowercase b = true ∨ isAsciiDigit b = true → separates b = false := by
    intro b alphanumeric
    have other : ∀ c, c = '.' ∨ c = '-' → b ≠ byte c := by
      rintro c mark rfl
      rcases mark with rfl | rfl <;> exact absurd alphanumeric (by decide)
    simp [separates, other]
  intro b member
  cases segment with
  | nil => cases member
  | cons head rest =>
    simp only [validSegment, Bool.and_eq_true, Bool.or_eq_true, List.all_eq_true] at valid
    obtain ⟨⟨-, headShape⟩, restShape⟩ := valid
    rcases List.mem_cons.mp member with rfl | later
    · exact letter _ headShape
    · exact letter _ (restShape b later)

/-- What the check asks of the parts of a name. -/
def ValidParts (first : Bool) : List (List UInt8) → Prop
  | [] => False
  | head :: rest => validSegment first head = true ∧ rest.all (validSegment false) = true

/-- The parts of a name are valid when it is a segment with more segments behind it. -/
theorem validParts_iff (first : Bool) (name : List UInt8) :
    ValidParts first (name.splitOnP separates) ↔ ∃ segment rest, name = segment ++ rest ∧
      validSegment first segment = true ∧ Segments rest := by
  constructor
  · intro valid
    induction length : name.length using Nat.strong_induction_on generalizing name first with
    | _ count ih =>
      subst length
      have whole := List.takeWhile_append_dropWhile (p := fun b => !separates b) (l := name)
      have kept : ∀ b ∈ name.takeWhile fun b => !separates b, separates b = false :=
        fun b member => by simpa using List.all_eq_true.mp List.all_takeWhile b member
      generalize name.takeWhile (fun b => !separates b) = segment at whole kept
      cases tail : name.dropWhile fun b => !separates b with
      | nil =>
        rw [tail, List.append_nil] at whole
        subst whole
        rw [List.splitOnP_eq_singleton kept] at valid
        exact ⟨segment, [], (List.append_nil _).symm, valid.1, .none⟩
      | cons mark more =>
        have separator : separates mark = true := by
          have first := List.head?_dropWhile_not (fun b => !separates b) name
          rw [tail] at first
          simpa using first
        rw [tail] at whole
        rw [← whole, List.splitOnP_append_cons_of_forall_mem kept mark separator] at valid
        have shorter : more.length < name.length := by
          rw [← whole, List.length_append, List.length_cons]
          omega
        have others : ValidParts false (more.splitOnP separates) := by
          have later := valid.2
          cases parts : more.splitOnP separates with
          | nil => exact absurd parts (List.splitOnP_ne_nil _ _)
          | cons head rest =>
            rw [parts, List.all_cons, Bool.and_eq_true] at later
            exact later
        obtain ⟨next, rest, rfl, nextValid, segments⟩ := ih _ shorter false more others rfl
        exact ⟨segment, _, whole.symm, valid.1, .more separator nextValid segments⟩
  · rintro ⟨segment, rest, rfl, valid, segments⟩
    induction segments generalizing first segment with
    | none =>
      rw [List.append_nil, List.splitOnP_eq_singleton (kept_of_valid valid)]
      exact ⟨valid, rfl⟩
    | @more mark next rest separator nextValid others ih =>
      rw [List.splitOnP_append_cons_of_forall_mem (kept_of_valid valid) mark separator]
      have later := ih false next nextValid
      refine ⟨valid, ?_⟩
      cases parts : (next ++ rest).splitOnP separates with
      | nil => exact absurd parts (List.splitOnP_ne_nil _ _)
      | cons head tail =>
        rw [parts] at later
        rw [List.all_cons, Bool.and_eq_true]
        exact later

/-- Octets any number of times. -/
theorem language_star (expression : Expression) (list : List UInt8) :
    Language (.star expression) (octets list) ↔ ∃ parts : List (List UInt8),
      list = parts.flatten ∧ ∀ part ∈ parts, Language expression (octets part) := by
  rw [Regex.Language]
  constructor
  · rintro ⟨parts, same, each⟩
    induction parts generalizing list with
    | nil => exact ⟨[], List.map_eq_nil_iff.mp same, by simp⟩
    | cons part rest ih =>
      rw [List.forall_mem_cons] at each
      obtain ⟨head, tail, rfl, rfl, whole⟩ := List.map_eq_append_iff.mp same
      obtain ⟨others, rfl, more⟩ := ih tail whole each.2
      refine ⟨head :: others, rfl, ?_⟩
      rw [List.forall_mem_cons]
      exact ⟨each.1, more⟩
  · rintro ⟨parts, rfl, each⟩
    refine ⟨parts.map octets, List.map_flatten, fun part listed => ?_⟩
    obtain ⟨source, member, rfl⟩ := List.mem_map.mp listed
    exact each source member

/-- A letter or a digit, by its number. -/
theorem alphanumeric_iff (b : UInt8) : inRanges [range 'a' 'z', range '0' '9'] b.toNat =
    (isAsciiLowercase b || isAsciiDigit b) := by
  rw [inRanges_cons, lowercase_iff, digit_iff]

/-- A segment behind the first is letters and digits, at least one. -/
theorem language_segment (list : List UInt8) :
    Language (plus alphanumeric) (octets list) ↔ validSegment false list = true := by
  rw [plus, language_seq]
  simp only [alphanumeric, language_octet, language_octets, alphanumeric_iff]
  constructor
  · rintro ⟨_, rest, rfl, ⟨head, rfl, shape⟩, others⟩
    simp only [List.singleton_append, validSegment, Bool.and_eq_true, List.all_eq_true]
    exact ⟨⟨rfl, shape⟩, others⟩
  · intro valid
    cases list with
    | nil => cases valid
    | cons head rest =>
      simp only [validSegment, Bool.and_eq_true, List.all_eq_true] at valid
      exact ⟨[head], rest, rfl, ⟨head, rfl, valid.1.2⟩, valid.2⟩

/-- More segments are the texts of their pattern. -/
theorem language_segments (list : List UInt8) :
    Language (.star (.seq (.set [one '.', one '-']) (plus alphanumeric))) (octets list) ↔
      Segments list := by
  have mark : ∀ b : UInt8, inRanges [one '.', one '-'] b.toNat = separates b := fun b => by
    rw [inRanges_cons, one_iff (by decide), one_iff (by decide), separates]
  simp only [language_star, language_seq, language_octet, language_segment, mark]
  constructor
  · rintro ⟨parts, rfl, each⟩
    induction parts with
    | nil => exact .none
    | cons part rest ih =>
      rw [List.forall_mem_cons] at each
      obtain ⟨⟨_, segment, rfl, ⟨b, rfl, separator⟩, valid⟩, others⟩ := each
      rw [List.flatten_cons, List.append_assoc]
      have more := Segments.more separator valid (ih others)
      exact more
  · intro segments
    induction segments with
    | none => exact ⟨[], rfl, by simp⟩
    | @more b segment rest separator valid _ ih =>
      obtain ⟨parts, rfl, each⟩ := ih
      refine ⟨(b :: segment) :: parts, rfl, ?_⟩
      rw [List.forall_mem_cons]
      exact ⟨⟨[b], segment, rfl, ⟨b, rfl, separator⟩, valid⟩, each⟩

/-- A list is split at a separator that does not occur again. -/
theorem rsplitOnce_append {separator : UInt8} {before after : List UInt8}
    (kept : ∀ b ∈ after, b ≠ separator) :
    rsplitOnce separator (before ++ separator :: after) = some (before, after) := by
  have skip : ∀ b ∈ after.reverse, decide (b ≠ separator) = true := fun b member =>
    decide_eq_true (kept b (List.mem_reverse.mp member))
  have reversed : (before ++ separator :: after).reverse =
      after.reverse ++ (separator :: before.reverse) := by
    simp
  have dropped : (separator :: before.reverse).dropWhile (fun b => decide (b ≠ separator)) =
      separator :: before.reverse := List.dropWhile_cons_of_neg (by simp)
  have taken : (separator :: before.reverse).takeWhile (fun b => decide (b ≠ separator)) = [] :=
    List.takeWhile_cons_of_neg (by simp)
  rw [rsplitOnce, reversed, List.dropWhile_append_of_pos skip, List.takeWhile_append_of_pos skip,
    dropped, taken]
  simp

/-- What the check asks of a version. -/
def validVersion (version : List UInt8) : Bool :=
  !version.isEmpty && decide (version.head? ≠ some (byte '0')) && version.all isAsciiDigit

/-- The versions are the texts of their pattern. -/
theorem language_version (list : List UInt8) :
    Language (.seq (.set [range '1' '9']) (.star (.set [range '0' '9']))) (octets list) ↔
      validVersion list = true := by
  have first : ∀ b : UInt8, inRanges [range '1' '9'] b.toNat = true ↔
      isAsciiDigit b = true ∧ b ≠ byte '0' := by
    intro b
    have bounds : (byte '0').toNat = 48 ∧ (byte '9').toNat = 57 := by decide
    have numbers : '1'.toNat = 49 ∧ '9'.toNat = 57 := by decide
    simp only [inRanges, range, isAsciiDigit, List.any_cons, List.any_nil, Bool.or_false,
      Bool.and_eq_true, decide_eq_true_eq, UInt8.le_iff_toNat_le, ne_eq, ← UInt8.toNat_inj,
      bounds, numbers]
    omega
  rw [language_seq]
  simp only [language_octet, language_octets, digit_iff, first, validVersion]
  constructor
  · rintro ⟨_, rest, rfl, ⟨head, rfl, digit, other⟩, others⟩
    simpa [digit, other] using others
  · intro valid
    cases list with
    | nil => cases valid
    | cons head rest =>
      simp only [Bool.and_eq_true, List.all_cons, List.all_eq_true, decide_eq_true_eq,
        List.head?_cons, ne_eq, Option.some.injEq] at valid
      obtain ⟨⟨-, other⟩, digit, others⟩ := valid
      exact ⟨[head], rest, rfl, ⟨head, rfl, digit, other⟩, others⟩

/-- The first segment begins with a letter. -/
theorem language_first (list : List UInt8) :
    Language (.seq (.set [range 'a' 'z']) (.star alphanumeric)) (octets list) ↔
      validSegment true list = true := by
  rw [language_seq]
  simp only [alphanumeric, language_octet, language_octets, alphanumeric_iff, lowercase_iff]
  constructor
  · rintro ⟨_, rest, rfl, ⟨head, rfl, letter⟩, others⟩
    simp only [List.singleton_append, validSegment, letter, Bool.true_or, Bool.not_true,
      Bool.false_or, Bool.true_and, List.all_eq_true]
    exact others
  · intro valid
    cases list with
    | nil => cases valid
    | cons head rest =>
      simp only [validSegment, Bool.not_true, Bool.false_or, Bool.and_eq_true,
        List.all_eq_true] at valid
      exact ⟨[head], rest, rfl, ⟨head, rfl, valid.1.1⟩, valid.2⟩

/-- The check of a capability, by its parts. -/
theorem isCapabilityId_iff (value : String) : isCapabilityId value = true ↔
    ∃ name version, bytes value = name ++ byte '/' :: version ∧ validVersion version = true ∧
      ValidParts true (name.splitOnP separates) := by
  have parts : ∀ name : List UInt8, (match name.splitOnP fun b => b = byte '.' || b = byte '-' with
      | [] => false
      | first :: segments => validSegment true first && segments.all (validSegment false)) =
        true ↔ ValidParts true (name.splitOnP separates) := by
    intro name
    change (match name.splitOnP separates with
      | [] => false
      | first :: segments => validSegment true first && segments.all (validSegment false)) =
        true ↔ _
    cases name.splitOnP separates with
    | nil => simp [ValidParts]
    | cons first segments => rw [Bool.and_eq_true, ValidParts]
  constructor
  · intro shape
    unfold isCapabilityId at shape
    split at shape
    · cases shape
    next name version split =>
      rw [Bool.and_eq_true] at shape
      exact ⟨name, version, rsplitOnce_eq split, shape.1, (parts name).mp shape.2⟩
  · rintro ⟨name, version, same, valid, segments⟩
    have kept : ∀ b ∈ version, b ≠ byte '/' := by
      have each := valid
      simp only [validVersion, Bool.and_eq_true, List.all_eq_true] at each
      rintro b member rfl
      exact absurd (each.2 _ member) (by decide)
    unfold isCapabilityId
    rw [same, rsplitOnce_append kept]
    exact Bool.and_eq_true _ _ |>.mpr ⟨valid, (parts name).mpr segments⟩

/-- The capabilities are the texts of their pattern. -/
theorem capability_language (value : String) :
    isCapabilityId value = true ↔ Language capabilityBody (octets (bytes value)) := by
  have slash := @language_text "/" (List.all_iff_forall_prop.mp (by decide))
  rw [isCapabilityId_iff, capabilityBody]
  simp only [validParts_iff]
  generalize bytes value = list
  constructor
  · rintro ⟨_, version, rfl, valid, segment, rest, rfl, first, segments⟩
    obtain ⟨head, body, rfl, letter, others⟩ :=
      (language_seq _ _ _).mp ((language_first _).mpr first)
    have last := (language_seq _ _ (byte '/' :: version)).mpr
      ⟨[byte '/'], version, rfl, (slash _).mpr rfl, (language_version _).mpr valid⟩
    have middle := (language_seq _ _ (rest ++ byte '/' :: version)).mpr
      ⟨rest, _, rfl, (language_segments _).mpr segments, last⟩
    have later := (language_seq _ _ (body ++ (rest ++ byte '/' :: version))).mpr
      ⟨body, _, rfl, others, middle⟩
    have whole := (language_seq _ _ (head ++ (body ++ (rest ++ byte '/' :: version)))).mpr
      ⟨head, _, rfl, letter, later⟩
    simpa only [List.append_assoc] using whole
  · intro accepted
    obtain ⟨head, _, rfl, letter, accepted⟩ := (language_seq _ _ _).mp accepted
    obtain ⟨body, _, rfl, others, accepted⟩ := (language_seq _ _ _).mp accepted
    obtain ⟨rest, _, rfl, segments, accepted⟩ := (language_seq _ _ _).mp accepted
    obtain ⟨mark, version, rfl, same, valid⟩ := (language_seq _ _ _).mp accepted
    obtain rfl := (slash _).mp same
    have first := (language_seq _ _ (head ++ body)).mpr ⟨head, body, rfl, letter, others⟩
    refine ⟨head ++ body ++ rest, version, ?_, (language_version _).mp valid, head ++ body,
      rest, rfl, (language_first _).mp first, (language_segments _).mp segments⟩
    simp only [List.append_assoc]
    rfl

/-! ## Indices and slices -/

/-- Whether a text may be cut at an offset: not inside a character. -/
def isCharBoundary (value : String) (offset : Nat) : Bool :=
  offset = 0 || match (bytes value)[offset]? with
    | some b => b.toNat < 0x80 || 0xC0 ≤ b.toNat
    | none => offset = (bytes value).length

/-- The bytes from an offset on. There are none when the text may not be cut there. -/
def sliceFrom (value : String) (offset : Nat) : Option (List UInt8) :=
  if isCharBoundary value offset then some ((bytes value).drop offset) else none

/-- The check of a reference, step by step; there is no result when a slice is refused. -/
def isSha256RefSteps (value : String) : Option Bool :=
  if (bytes value).length ≠ 71 then some false
  else if !(bytes "sha256:").isPrefixOf (bytes value) then some false
  else do
    let digits ← sliceFrom value 7
    some (digits.all isLowerHex)

/-- The check of the name of a node, step by step; there is no result when an index is refused. -/
def isNodeIdSteps (value : String) : Option Bool :=
  if !(bytes "fed:qsol:").isPrefixOf (bytes value) then some false
  else
    let tail := (bytes value).drop 9
    if tail.isEmpty || 128 < tail.length then some false
    else do
      let head ← tail[0]?
      if !isAsciiLowercase head && !isAsciiDigit head then some false
      else some (tail.all fun b =>
        isAsciiLowercase b || isAsciiDigit b || b = byte '.' || b = byte '_' || b = byte '-')

/-- Fixed characters at their places, one index after the other. -/
def marksSteps (text : List UInt8) : List (Nat × Char) → Option Bool
  | [] => some true
  | (index, mark) :: rest => do
    let b ← text[index]?
    if b ≠ byte mark then some false else marksSteps text rest

/-- The check of a timestamp, step by step; there is no result when an index is refused. -/
def isWireTimestampSteps (value : String) : Option Bool :=
  let text := bytes value
  if text.length ≠ 20 then some false
  else do
    let marks ← marksSteps text [(4, '-'), (7, '-'), (10, 'T'), (13, ':'), (16, ':'), (19, 'Z')]
    if !marks then some false
    else some (text.zipIdx.all fun (b, index) => index ∈ fixedPositions || isAsciiDigit b)

/-- The first byte of a character is small exactly for ASCII, and no continuation otherwise. -/
theorem head_utf8EncodeChar (c : Char) : ∃ first rest,
    String.utf8EncodeChar c = first :: rest ∧
      (Text.Ascii c ∨ (0xC0 ≤ first.toNat ∧ ¬Text.Ascii c)) := by
  by_cases ascii : Text.Ascii c
  · exact ⟨_, [], Text.utf8EncodeChar_ascii ascii, .inl ascii⟩
  · have large : ¬c.val.toNat ≤ 0x7f := fun narrow => ascii (Nat.lt_succ_of_le narrow)
    have byte_ : ∀ value, 0xC0 ≤ value → value < 256 → 0xC0 ≤ (UInt8.ofNat value).toNat := by
      intro value least most
      rwa [UInt8.toNat_ofNat_of_lt' most]
    by_cases two : c.val.toNat ≤ 0x7ff
    · refine ⟨_, _, by rw [String.utf8EncodeChar, if_neg large, if_pos two], .inr ⟨?_, ascii⟩⟩
      exact byte_ _ (by omega) (by omega)
    · by_cases three : c.val.toNat ≤ 0xffff
      · refine ⟨_, _, by rw [String.utf8EncodeChar, if_neg large, if_neg two, if_pos three],
          .inr ⟨?_, ascii⟩⟩
        exact byte_ _ (by omega) (by omega)
      · refine ⟨_, _, by rw [String.utf8EncodeChar, if_neg large, if_neg two, if_neg three],
          .inr ⟨?_, ascii⟩⟩
        exact byte_ _ (by omega) (by omega)

/-- Characters whose bytes begin with those of ASCII characters begin with these. -/
theorem chars_of_prefix {begins whole : List Char} (ascii : ∀ c ∈ begins, Text.Ascii c)
    (starts : begins.flatMap String.utf8EncodeChar <+: whole.flatMap String.utf8EncodeChar) :
    ∃ rest, whole = begins ++ rest := by
  induction begins generalizing whole with
  | nil => exact ⟨whole, rfl⟩
  | cons c others ih =>
    rw [List.forall_mem_cons] at ascii
    rw [List.flatMap_cons, Text.utf8EncodeChar_ascii ascii.1, List.singleton_append] at starts
    cases whole with
    | nil => simp at starts
    | cons d more =>
      obtain ⟨first, rest, encoded, shape⟩ := head_utf8EncodeChar d
      rw [List.flatMap_cons, encoded, List.cons_append, List.cons_prefix_cons] at starts
      obtain ⟨same, starts⟩ := starts
      have small : first.toNat < 0x80 := by
        rw [← same, Text.toNat_byte ascii.1]
        exact ascii.1
      have narrow : Text.Ascii d := shape.resolve_right fun wide => by omega
      rw [Text.utf8EncodeChar_ascii narrow] at encoded
      obtain ⟨rfl, rfl⟩ := List.cons.inj encoded
      have alike : c = d := by
        have numbers := congrArg UInt8.toNat same
        rw [Text.toNat_byte ascii.1, Text.toNat_byte narrow] at numbers
        exact Char.toNat_inj.mp numbers
      obtain ⟨tail, rfl⟩ := ih ascii.2 starts
      exact ⟨tail, by rw [alike]; rfl⟩

/-- A text may be cut behind an ASCII text that it begins with. -/
theorem boundary_of_prefix {begins value : String} (ascii : ∀ c ∈ begins.toList, Text.Ascii c)
    (starts : bytes begins <+: bytes value) :
    isCharBoundary value (bytes begins).length = true := by
  rw [Text.bytes_eq, Text.bytes_eq value] at starts
  obtain ⟨rest, whole⟩ := chars_of_prefix ascii starts
  have same : bytes value = bytes begins ++ rest.flatMap String.utf8EncodeChar := by
    rw [Text.bytes_eq value, whole, List.flatMap_append, ← Text.bytes_eq]
  rw [isCharBoundary, same, List.getElem?_append_right le_rfl, Nat.sub_self, Bool.or_eq_true]
  refine .inr ?_
  cases rest with
  | nil => simp
  | cons c more =>
    obtain ⟨first, tail, encoded, shape⟩ := head_utf8EncodeChar c
    rw [List.flatMap_cons, encoded]
    simp only [List.cons_append, List.getElem?_cons_zero, Bool.or_eq_true, decide_eq_true_eq]
    rcases shape with narrow | ⟨large, -⟩
    · rw [Text.utf8EncodeChar_ascii narrow] at encoded
      obtain ⟨rfl, -⟩ := List.cons.inj encoded
      rw [Text.toNat_byte narrow]
      exact .inl narrow
    · exact .inr large

/-- The check of a reference never slices inside a character. -/
theorem isSha256RefSteps_eq (value : String) :
    isSha256RefSteps value = some (isSha256Ref value) := by
  unfold isSha256RefSteps isSha256Ref
  by_cases length : (bytes value).length = 71
  · by_cases starts : (bytes "sha256:").isPrefixOf (bytes value) = true
    · have boundary : isCharBoundary value 7 = true :=
        boundary_of_prefix (List.all_iff_forall_prop.mp (by decide))
          (List.isPrefixOf_iff_prefix.mp starts)
      simp [length, starts, sliceFrom, boundary]
    · simp [length, starts]
  · simp [length]

/-- The check of the name of a node never indexes out of range. -/
theorem isNodeIdSteps_eq (value : String) : isNodeIdSteps value = some (isNodeId value) := by
  unfold isNodeIdSteps isNodeId
  by_cases starts : (bytes "fed:qsol:").isPrefixOf (bytes value) = true
  · cases tail : (bytes value).drop 9 with
    | nil => simp [starts]
    | cons head rest =>
      by_cases short : (head :: rest).length ≤ 128
      · have fits : ¬128 < (head :: rest).length := by omega
        cases first : isAsciiLowercase head || isAsciiDigit head with
        | true =>
          have kept : ¬(!isAsciiLowercase head && !isAsciiDigit head) = true := by
            rw [← Bool.not_or, first]
            decide
          simp only [starts, fits, short, first, kept, List.isEmpty_cons, decide_false,
            decide_true, Bool.or_self, Bool.not_true, Bool.and_self, Bool.true_and,
            List.getElem?_cons_zero, bind, Option.bind, if_false, Bool.false_eq_true]
        | false =>
          have refused : (!isAsciiLowercase head && !isAsciiDigit head) = true := by
            rw [← Bool.not_or, first]
            decide
          simp only [starts, fits, short, first, refused, List.isEmpty_cons, decide_false,
            decide_true, Bool.or_self, Bool.not_true, Bool.and_false, Bool.false_and,
            List.getElem?_cons_zero, bind, Option.bind, if_false, if_true, Bool.false_eq_true]
      · have long : 128 < (head :: rest).length := by omega
        simp only [starts, short, long, decide_true, decide_false, Bool.or_true, Bool.not_true,
          Bool.false_eq_true, if_false, if_true, Bool.false_and, Bool.and_false]
  · simp [starts]

/-- Marks at places of a text are looked up without fail. -/
theorem marksSteps_eq (text : List UInt8) (marks : List (Nat × Char))
    (inside : ∀ mark ∈ marks, mark.1 < text.length) :
    marksSteps text marks = some (marks.all fun mark => text[mark.1]? = some (byte mark.2)) := by
  induction marks with
  | nil => rfl
  | cons mark rest ih =>
    rw [List.forall_mem_cons] at inside
    have found := List.getElem?_eq_getElem inside.1
    simp only [marksSteps, found, bind, Option.bind, List.all_cons, ih inside.2]
    split_ifs with other
    · simp [other]
    · simp [not_not.mp other]

/-- The check of a timestamp never indexes out of range. -/
theorem isWireTimestampSteps_eq (value : String) :
    isWireTimestampSteps value = some (isWireTimestamp value) := by
  unfold isWireTimestampSteps isWireTimestamp
  by_cases length : (bytes value).length = 20
  · have marks := marksSteps_eq (bytes value)
      [(4, '-'), (7, '-'), (10, 'T'), (13, ':'), (16, ':'), (19, 'Z')] (by simp [length])
    simp only [List.all_cons, List.all_nil, Bool.and_true] at marks
    simp only [length, ne_eq, not_true, if_false, marks, bind, Option.bind, decide_true,
      Bool.true_and, ← Bool.and_assoc]
    cases _ : (_ : Bool) && decide ((bytes value)[19]? = some (byte 'Z')) with
    | false => simp
    | true => simp
  · simp [length]

/-! ## Agreement of the implementations -/

/-- The grammars that the kits check with a pattern. -/
inductive Grammar where
  /-- The name of a node. -/
  | nodeId
  /-- A reference. -/
  | sha256Ref
  /-- A capability. -/
  | capabilityId
  /-- A timestamp in whole seconds. -/
  | wireTimestamp
  deriving DecidableEq, Repr

/-- The check of the bytes. -/
def Grammar.accepts : Grammar → String → Bool
  | .nodeId => isNodeId
  | .sha256Ref => isSha256Ref
  | .capabilityId => isCapabilityId
  | .wireTimestamp => isWireTimestamp

/-- The check of the bytes with its indices and slices. That of a capability has none. -/
def Grammar.steps : Grammar → String → Option Bool
  | .nodeId => isNodeIdSteps
  | .sha256Ref => isSha256RefSteps
  | .capabilityId => some ∘ isCapabilityId
  | .wireTimestamp => isWireTimestampSteps

/-- What stands between the anchors of the pattern. -/
def Grammar.body : Grammar → Expression
  | .nodeId => nodeIdBody
  | .sha256Ref => sha256RefBody
  | .capabilityId => capabilityBody
  | .wireTimestamp => timestampBody

/-- The pattern, which both kits write with the same anchors. -/
def Grammar.pattern (grammar : Grammar) : Expression := anchored grammar.body

/-- No pattern has an anchor inside. -/
theorem Grammar.plain (grammar : Grammar) : Plain grammar.body := by
  cases grammar with
  | nodeId => simp [body, nodeIdBody, text, plain_literal, Plain]
  | sha256Ref => simp [body, sha256RefBody, reference, text, plain_literal, Plain]
  | capabilityId => simp [body, capabilityBody, alphanumeric, plus, text, plain_literal, Plain]
  | wireTimestamp => simp [body, timestampBody, digits, text, plain_literal, Plain]

/-- Every pattern has ASCII characters alone. -/
theorem Grammar.below (grammar : Grammar) : Below 0x80 grammar.body := by
  cases grammar with
  | nodeId => simp [body, nodeIdBody, text, literal, range, one, Below]
  | sha256Ref => simp [body, sha256RefBody, reference, text, literal, range, Below]
  | capabilityId =>
    simp [body, capabilityBody, alphanumeric, plus, text, literal, range, one, Below]
  | wireTimestamp => simp [body, timestampBody, digits, text, literal, range, Below]

/-- The check of the bytes accepts the language of the pattern. -/
theorem Grammar.accepts_iff (grammar : Grammar) (value : String) :
    grammar.accepts value = true ↔ Language grammar.body (octets (bytes value)) := by
  cases grammar with
  | nodeId => exact nodeId_language value
  | sha256Ref => exact sha256Ref_language value
  | capabilityId => exact capability_language value
  | wireTimestamp => exact timestamp_language value

/-- The check of the bytes never indexes out of range and never slices inside a character. -/
theorem Grammar.steps_eq (grammar : Grammar) (value : String) :
    grammar.steps value = some (grammar.accepts value) := by
  cases grammar with
  | nodeId => exact isNodeIdSteps_eq value
  | sha256Ref => exact isSha256RefSteps_eq value
  | capabilityId => rfl
  | wireTimestamp => exact isWireTimestampSteps_eq value

/-- A sequence of codes in the language of a pattern is that of a text. -/
theorem Grammar.exists_text {grammar : Grammar} {value : List Nat}
    (accepted : Language grammar.body value) :
    ∃ whole : String, codes whole = value ∧ units whole = value :=
  exists_codes (below_of_language grammar.below accepted)

/-- The implementations agree on every text: the check of the bytes, the match of the whole
sequence of code points and the search in the sequence of code units accept the same ones, and the
check of the bytes indexes and slices without fail. The engines accept no sequence that is not that
of a text. -/
theorem grammars_agree (grammar : Grammar) :
    (∀ value : String, (grammar.accepts value = true ↔ fullmatch grammar.pattern (codes value)) ∧
      (grammar.accepts value = true ↔ test grammar.pattern (units value)) ∧
      grammar.steps value = some (grammar.accepts value)) ∧
    (∀ value : List Nat, fullmatch grammar.pattern value →
      ∃ whole : String, codes whole = value ∧ grammar.accepts whole = true) ∧
    ∀ value : List Nat, test grammar.pattern value →
      ∃ whole : String, units whole = value ∧ grammar.accepts whole = true := by
  have language := language_encodings grammar.below
  refine ⟨fun value => ⟨?_, ?_, grammar.steps_eq value⟩, fun value found => ?_,
    fun value found => ?_⟩
  · rw [Grammar.pattern, fullmatch_iff grammar.plain, grammar.accepts_iff]
    exact (language value).1
  · rw [Grammar.pattern, test_iff grammar.plain, grammar.accepts_iff]
    exact (language value).2
  · have accepted := (fullmatch_iff grammar.plain value).mp found
    obtain ⟨whole, same, -⟩ := Grammar.exists_text accepted
    rw [← same, ← (language whole).1, ← grammar.accepts_iff] at accepted
    exact ⟨whole, same, accepted⟩
  · have accepted := (test_iff grammar.plain value).mp found
    obtain ⟨whole, -, same⟩ := Grammar.exists_text accepted
    rw [← same, ← (language whole).2, ← grammar.accepts_iff] at accepted
    exact ⟨whole, same, accepted⟩

end QsolFed.Wire.Grammars
