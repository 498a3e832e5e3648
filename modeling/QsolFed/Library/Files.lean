import QsolFed.Library.Effect
import QsolFed.Library.OrderedMap
import Mathlib.Data.String.Basic

/-!
# Files of a directory

A directory holds files by name. A new file is put in place through a temporary one, so that its
name never shows a part of its contents: whoever is stopped in between leaves at most the temporary
file behind.
-/
universe v

/-- The files of a directory by name. -/
abbrev Files := OrderedMap String ByteArray

namespace Files

variable {ε : Type v}

/-- The name of the temporary file for a file. -/
def temporary (name : String) : String := "." ++ name ++ ".tmp"

/-- A temporary file has another name than its file. -/
theorem temporary_ne (name : String) : name ≠ temporary name := by
  intro same
  have lengths := congrArg String.length same
  simp only [temporary, String.length_append] at lengths
  have dots : ".".length = 1 ∧ ".tmp".length = 4 := ⟨rfl, rfl⟩
  omega

/-- Put a new file in place. -/
def place (name : String) (bytes : ByteArray) : Effect Files ε PUnit := do
  Effect.modify fun files => files.erase (temporary name)
  Effect.modify fun files => files.insert (temporary name) .empty
  Effect.modify fun files => files.insert (temporary name) bytes
  Effect.modify fun files => (files.erase (temporary name)).insert name bytes

/-- Where the placing of a file can be stopped: before it, with the temporary file, or after it. -/
theorem mem_states_place {name : String} {bytes : ByteArray} {files stopped : Files}
    (member : stopped ∈ (place name bytes : Effect Files ε PUnit).states files) :
    stopped = files ∨ stopped = files.erase (temporary name) ∨
      (∃ written, stopped = (files.erase (temporary name)).insert (temporary name) written) ∨
      stopped = (files.erase (temporary name)).insert name bytes := by
  have erased : ∀ written, (((files.erase (temporary name)).insert (temporary name) written).erase
      (temporary name)) = files.erase (temporary name) := by
    intro written
    ext1 other
    simp only [OrderedMap.get?_erase, OrderedMap.get?_insert]
    split_ifs <;> rfl
  have listed : (place name bytes : Effect Files ε PUnit).states files =
      [files, files.erase (temporary name),
        (files.erase (temporary name)).insert (temporary name) .empty,
        ((files.erase (temporary name)).insert (temporary name) .empty).insert (temporary name)
          bytes,
        ((((files.erase (temporary name)).insert (temporary name) .empty).insert (temporary name)
          bytes).erase (temporary name)).insert name bytes] := rfl
  rw [listed, OrderedMap.insert_insert, erased] at member
  simp only [List.mem_cons, List.not_mem_nil, or_false] at member
  rcases member with rfl | rfl | rfl | rfl | rfl
  · exact .inl rfl
  · exact .inr (.inl rfl)
  · exact .inr (.inr (.inl ⟨_, rfl⟩))
  · exact .inr (.inr (.inl ⟨_, rfl⟩))
  · exact .inr (.inr (.inr rfl))

/-- The placing of a file puts it there and takes the temporary file away. -/
theorem run_place (name : String) (bytes : ByteArray) (files : Files) :
    (place name bytes : Effect Files ε PUnit).run files =
      (.ok ⟨⟩, (files.erase (temporary name)).insert name bytes) := by
  have last : (place name bytes : Effect Files ε PUnit).run files = (.ok ⟨⟩,
      ((((files.erase (temporary name)).insert (temporary name) .empty).insert (temporary name)
        bytes).erase (temporary name)).insert name bytes) := rfl
  rw [last, OrderedMap.insert_insert]
  congr 2
  ext1 other
  simp only [OrderedMap.get?_erase, OrderedMap.get?_insert]
  split_ifs <;> rfl

end Files
