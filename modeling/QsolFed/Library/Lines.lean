import Mathlib.Algebra.Order.BigOperators.Group.List
import Mathlib.Algebra.Order.Ring.Nat
import Mathlib.Tactic.Common

/-!
# Lines of a text

Reading a text line by line. A line ends with a line feed, before which one carriage return is
left out. A text whose last line is terminated may be continued: its lines stay and the lines of
the continuation follow.
-/
namespace Lines

/-- A text in pieces that each end with a separator, the last one excepted. -/
def splitInclusive (separator : Char) : List Char → List (List Char)
  | [] => []
  | c :: rest =>
    if c = separator then [c] :: splitInclusive separator rest
    else
      match splitInclusive separator rest with
      | [] => [[c]]
      | piece :: others => (c :: piece) :: others

/-- A piece without one last character, if it is the given one. -/
def stripSuffix (last : Char) (piece : List Char) : Option (List Char) :=
  if piece.getLast? = some last then some piece.dropLast else none

/-- A line without its terminator. -/
def stripTerminator (piece : List Char) : List Char :=
  match stripSuffix '\n' piece with
  | none => piece
  | some line => (stripSuffix '\r' line).getD line

/-- The lines of a text. -/
def lines (text : List Char) : List (List Char) := (splitInclusive '\n' text).map stripTerminator

/-- What precedes and what follows the first separator. -/
def splitOnce (separator : Char) : List Char → Option (List Char × List Char)
  | [] => none
  | c :: rest =>
    if c = separator then some ([], rest)
    else (splitOnce separator rest).map fun (before, after) => (c :: before, after)

/-- The last line of a text is terminated. -/
def Terminated (text : List Char) : Prop := ∀ last ∈ text.getLast?, last = '\n'

/-- A terminated line is the first piece of a text. -/
theorem splitInclusive_line {separator : Char} {line : List Char} (clear : separator ∉ line)
    (rest : List Char) : splitInclusive separator (line ++ separator :: rest) =
      (line ++ [separator]) :: splitInclusive separator rest := by
  induction line with
  | nil => simp [splitInclusive]
  | cons c line ih =>
    simp only [List.mem_cons, not_or] at clear
    simp only [List.cons_append, splitInclusive, if_neg (Ne.symm clear.1), ih clear.2]

/-- The pieces of a terminated text stay when it is continued. -/
theorem splitInclusive_append {text : List Char} (terminated : Terminated text)
    (rest : List Char) : splitInclusive '\n' (text ++ rest) =
      splitInclusive '\n' text ++ splitInclusive '\n' rest := by
  induction text with
  | nil => rfl
  | cons c text ih =>
    cases text with
    | nil =>
      obtain rfl : c = '\n' := terminated c rfl
      simp [splitInclusive]
    | cons d text =>
      have continued := ih fun last ends => terminated last (by simpa using ends)
      have nonempty : splitInclusive '\n' (d :: text) ≠ [] := by
        simp only [splitInclusive]
        split
        · simp
        · split <;> simp
      rw [List.cons_append, splitInclusive, splitInclusive, continued]
      split
      · rfl
      · obtain ⟨piece, others, pieces⟩ := List.exists_cons_of_ne_nil nonempty
        rw [pieces]
        rfl

/-- A terminated line without its terminator. -/
theorem stripTerminator_line {line : List Char} (ends : line.getLast? ≠ some '\r') :
    stripTerminator (line ++ ['\n']) = line := by
  simp [stripTerminator, stripSuffix, ends]

/-- A further terminated line is the last line of the continued text. -/
theorem lines_append_line {text line : List Char} (terminated : Terminated text)
    (clear : '\n' ∉ line) (ends : line.getLast? ≠ some '\r') :
    lines (text ++ (line ++ ['\n'])) = lines text ++ [line] := by
  have last : splitInclusive '\n' (line ++ ['\n']) = [line ++ ['\n']] :=
    splitInclusive_line clear []
  rw [lines, splitInclusive_append terminated, last, List.map_append, List.map_singleton,
    stripTerminator_line ends, lines]

/-- A text that ends with a terminator is terminated. -/
theorem terminated_append_line (text line : List Char) : Terminated (text ++ (line ++ ['\n'])) := by
  intro last ends
  rw [← List.append_assoc, List.getLast?_concat] at ends
  exact (Option.some.inj ends).symm

/-- Two fields around a separator are told apart when the first one does not contain it. -/
theorem splitOnce_fields {separator : Char} {before : List Char} (clear : separator ∉ before)
    (after : List Char) : splitOnce separator (before ++ separator :: after) =
      some (before, after) := by
  induction before with
  | nil => simp [splitOnce]
  | cons c before ih =>
    simp only [List.mem_cons, not_or] at clear
    simp only [List.cons_append, splitOnce, if_neg (Ne.symm clear.1), ih clear.2, Option.map_some]

/-- What precedes and what follows the first separator make the text. -/
theorem eq_of_splitOnce {separator : Char} {text before after : List Char}
    (split : splitOnce separator text = some (before, after)) :
    text = before ++ separator :: after := by
  induction text generalizing before with
  | nil => cases split
  | cons c rest ih =>
    by_cases here : c = separator
    · simp only [splitOnce, if_pos here, Option.some.injEq, Prod.mk.injEq] at split
      obtain ⟨rfl, rfl⟩ := split
      rw [here, List.nil_append]
    · simp only [splitOnce, if_neg here, Option.map_eq_some_iff, Prod.mk.injEq] at split
      obtain ⟨⟨first, second⟩, found, rfl, rfl⟩ := split
      rw [ih found, List.cons_append]

/-- The pieces of a text make the text. -/
theorem flatten_splitInclusive (separator : Char) (text : List Char) :
    (splitInclusive separator text).flatten = text := by
  induction text with
  | nil => rfl
  | cons c rest ih =>
    rw [splitInclusive]
    split
    · rw [List.flatten_cons, ih, List.singleton_append]
    · split
      next none_ =>
        rw [none_] at ih
        rw [← ih]
        rfl
      next piece others pieces =>
        rw [pieces] at ih
        rw [List.flatten_cons, List.cons_append, ← List.flatten_cons, ih]

/-- Every piece of a terminated text ends with a terminator. -/
theorem getLast?_piece {text : List Char} (terminated : Terminated text) :
    ∀ piece ∈ splitInclusive '\n' text, piece.getLast? = some '\n' := by
  induction text with
  | nil => simp [splitInclusive]
  | cons c rest ih =>
    rw [splitInclusive]
    by_cases here : c = '\n'
    · rw [if_pos here, here]
      refine List.forall_mem_cons.mpr ⟨rfl, ih fun last ends => terminated last ?_⟩
      rw [List.getLast?_cons, Option.mem_def.mp ends]
      rfl
    · have nonempty : rest ≠ [] := by
        rintro rfl
        exact here (terminated c rfl)
      have later := ih fun last ends => terminated last <| by
        rw [List.getLast?_cons, Option.mem_def.mp ends]
        rfl
      rw [if_neg here]
      cases pieces : splitInclusive '\n' rest with
      | nil =>
        have whole := flatten_splitInclusive '\n' rest
        rw [pieces] at whole
        exact absurd whole.symm nonempty
      | cons piece others =>
        rw [pieces] at later
        obtain ⟨first, remaining⟩ := List.forall_mem_cons.mp later
        refine List.forall_mem_cons.mpr ⟨?_, remaining⟩
        rw [List.getLast?_cons, first]
        rfl

/-- A line is shorter than the piece that it is read from. -/
theorem length_stripTerminator {piece : List Char} (ends : piece.getLast? = some '\n') :
    (stripTerminator piece).length < piece.length := by
  have nonempty : piece ≠ [] := by
    rintro rfl
    cases ends
  have long := List.length_pos_iff.mpr nonempty
  have dropped : piece.dropLast.length < piece.length := by
    rw [List.length_dropLast]
    omega
  simp only [stripTerminator, stripSuffix, if_pos ends]
  split_ifs
  · rw [Option.getD_some, List.length_dropLast]
    omega
  · exact dropped

/-- A terminated text is not shorter than its lines with their terminators. -/
theorem length_lines_le {text : List Char} {length : Nat} (terminated : Terminated text)
    (each : ∀ line ∈ lines text, line.length = length) :
    (length + 1) * (lines text).length ≤ text.length := by
  have pieces : ∀ piece ∈ splitInclusive '\n' text, length + 1 ≤ piece.length := by
    intro piece member
    have line := each _ (List.mem_map_of_mem member)
    have shorter := length_stripTerminator (getLast?_piece terminated piece member)
    omega
  have total := List.card_nsmul_le_sum ((splitInclusive '\n' text).map List.length) (length + 1)
    (by simpa using pieces)
  rw [← List.length_flatten, flatten_splitInclusive, List.length_map, nsmul_eq_mul] at total
  rwa [lines, List.length_map, Nat.mul_comm]

end Lines
