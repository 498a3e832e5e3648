import QsolFed.Store

/-!
# The disk of the object store

What the store shows are its files; directories without files do not matter. A write puts one file
in place and leaves all others, and where it is stopped in between it leaves at most a temporary
file behind, whose name is never the name of a file of the store.
-/
namespace QsolFed.FederationObjectStore

open Checked Json Canonical Peering

/-! ## Files -/

/-- The directories of a namespace are replaced for that namespace. -/
theorem namespaceRoot_withNamespaceRoot (store : FederationObjectStore)
    (one other : ForeignNamespace) (root : OrderedMap String Files) :
    (store.withNamespaceRoot one root).namespaceRoot other =
      if other = one then root else store.namespaceRoot other := by
  cases one <;> cases other <;> rfl

/-- Files are replaced in one directory. -/
theorem files_withFiles (store : FederationObjectStore) (one other : Directory)
    (contents : Files) : (store.withFiles one contents).files other =
      if other = one then contents else store.files other := by
  cases one with
  | attributions placement digest =>
    cases other with
    | attributions otherPlacement otherDigest =>
      simp only [files, directory?, withFiles, namespaceRoot_withNamespaceRoot,
        Directory.attributions.injEq]
      by_cases here : otherPlacement = placement
      · subst here
        simp only [↓reduceIte, OrderedMap.get?_insert, true_and]
        split_ifs <;> rfl
      · simp [here]
    | objects | provenance | descendants | transactions => cases placement <;> rfl
  | objects | provenance | descendants | transactions =>
    cases other with
    | attributions otherPlacement otherDigest => cases otherPlacement <;> rfl
    | objects | provenance | descendants | transactions => rfl

/-- A file after files were replaced in one directory. -/
theorem file?_withFiles (store : FederationObjectStore) (one other : Directory) (contents : Files)
    (name : String) : (store.withFiles one contents).file? other name =
      if other = one then contents.get? name else store.file? other name := by
  rw [file?, files_withFiles]
  split_ifs <;> rfl

/-- Replacing files twice keeps the second ones. -/
theorem withFiles_withFiles (store : FederationObjectStore) (directory : Directory)
    (first second : Files) :
    (store.withFiles directory first).withFiles directory second =
      store.withFiles directory second := by
  cases directory with
  | attributions placement digest =>
    cases placement <;>
      simp [withFiles, withNamespaceRoot, namespaceRoot, OrderedMap.insert_insert]
  | objects | provenance | descendants | transactions => rfl

/-- Taking an empty directory away changes no files. -/
theorem files_removeEmptyDirectory (store : FederationObjectStore) (placement : ForeignNamespace)
    (digest : String) (other : Directory) :
    (store.removeEmptyDirectory placement digest).files other = store.files other := by
  rw [removeEmptyDirectory]
  split_ifs with noFiles
  · cases other with
    | attributions otherPlacement otherDigest =>
      simp only [files, directory?, namespaceRoot_withNamespaceRoot] at noFiles ⊢
      by_cases same : otherPlacement = placement
      · subst same
        rw [if_pos rfl, OrderedMap.get?_erase]
        split_ifs with here
        · subst here
          cases stored : (store.namespaceRoot otherPlacement).get? otherDigest with
          | none => rfl
          | some contents =>
            rw [stored] at noFiles
            have void : contents.entries = [] := noFiles
            ext1 name
            show none = Entries.find name contents.entries
            rw [void]
            rfl
        · rfl
      · rw [if_neg same]
    | objects | provenance | descendants | transactions => cases placement <;> rfl
  · rfl

/-- Two stores show the same files. -/
def Same (one two : FederationObjectStore) : Prop :=
  ∀ directory, two.files directory = one.files directory

/-- A store shows the same files as itself. -/
theorem Same.refl (store : FederationObjectStore) : Same store store := fun _ => rfl

/-- Showing the same files is transitive. -/
theorem Same.trans {one two three : FederationObjectStore} (first : Same one two)
    (second : Same two three) : Same one three :=
  fun directory => (second directory).trans (first directory)

/-- Files that are the same show the same contents. -/
theorem Same.file? {one two : FederationObjectStore} (same : Same one two) (directory : Directory)
    (name : String) : two.file? directory name = one.file? directory name := by
  rw [FederationObjectStore.file?, same directory]
  rfl

/-- Creating a directory changes no files. -/
theorem same_withFiles (store : FederationObjectStore) (directory : Directory) :
    Same store (store.withFiles directory (store.files directory)) := by
  intro other
  rw [files_withFiles]
  split_ifs with here
  · rw [here]
  · rfl

/-! ## Names -/

/-- The digest of a reference is what follows its prefix. -/
theorem digestFromRef_ok_iff (reference digest : String) : digestFromRef reference = .ok digest ↔
    Wire.isSha256Ref reference = true ∧ String.ofList (reference.toList.drop 7) = digest := by
  simp only [digestFromRef, bind_ok_iff, ensure_ok_iff, exists_const, pure_ok_iff]

/-- A reference is its prefix and its digest. -/
theorem reference_of_digest {reference digest : String}
    (named : digestFromRef reference = .ok digest) : reference = "sha256:" ++ digest := by
  obtain ⟨shape, rfl⟩ := (digestFromRef_ok_iff ..).mp named
  have ascii := (plainText_of_sha256Ref shape).1
  simp only [Wire.isSha256Ref, Bool.and_eq_true] at shape
  obtain ⟨tail, split⟩ := List.isPrefixOf_iff_prefix.mp shape.1.2
  have each : Text.bytes reference = reference.toList.map fun c => c.val.toUInt8 := by
    have bytes := Text.bytes_ofList_ascii ascii
    rwa [String.ofList_toList] at bytes
  have head : (reference.toList.take 7).map (fun c => c.val.toUInt8) = Text.bytes "sha256:" := by
    rw [List.map_take, ← each, ← split]
    rfl
  have whole : Text.bytes reference =
      Text.bytes ("sha256:" ++ String.ofList (reference.toList.drop 7)) := by
    have rest : Text.bytes (String.ofList (reference.toList.drop 7)) =
        (reference.toList.drop 7).map fun c => c.val.toUInt8 :=
      Text.bytes_ofList_ascii fun c member => ascii c (List.mem_of_mem_drop member)
    rw [Text.bytes_append, rest, ← head, ← List.map_append, List.take_append_drop, each]
  exact Text.bytes_injective whole

/-- A digest is a digest of one reference. -/
theorem digestFromRef_inj {one two digest : String} (first : digestFromRef one = .ok digest)
    (second : digestFromRef two = .ok digest) : one = two :=
  (reference_of_digest first).trans (reference_of_digest second).symm

/-- A digest begins with a digit or a letter. -/
theorem digest_begins {reference digest : String} (named : digestFromRef reference = .ok digest) :
    ∃ c rest, digest.toList = c :: rest ∧ c ≠ '.' := by
  obtain ⟨shape, same⟩ := (digestFromRef_ok_iff ..).mp named
  have whole := reference_of_digest named
  have length := Wire.sha256Ref_length shape
  have hex := shape
  simp only [Wire.isSha256Ref, Bool.and_eq_true, List.all_eq_true] at hex
  have bytes : Text.bytes digest = (Text.bytes reference).drop 7 := by
    rw [whole, Text.bytes_append]
    rfl
  cases characters : digest.toList with
  | nil =>
    have void : Text.bytes digest = [] := by
      rw [Text.bytes_eq, characters]
      rfl
    rw [void] at bytes
    have short := congrArg List.length bytes
    rw [List.length_drop, length] at short
    simp at short
  | cons c rest =>
    refine ⟨c, rest, rfl, fun dot => ?_⟩
    subst dot
    have listed : Wire.byte '.' ∈ Text.bytes digest := by
      rw [Text.bytes_eq, characters]
      exact List.mem_append_left _ (by decide)
    rw [bytes] at listed
    exact absurd (hex.2 _ listed) (by decide)

/-- The names of files are digests with an ending. -/
def Named (suffix reference name : String) : Prop :=
  ∃ digest, digestFromRef reference = .ok digest ∧ digest ++ suffix = name

/-- The name of contents. -/
theorem contentName_ok_iff (reference name : String) :
    contentName reference = .ok name ↔ Named ".json" reference name := by
  simp only [contentName, map_ok_iff, Named]

/-- The name of a record. -/
theorem recordName_ok_iff (reference name : String) :
    recordName reference = .ok name ↔ Named ".record.json" reference name := by
  simp only [recordName, map_ok_iff, Named]

/-- The name of a marker. -/
theorem moveName_ok_iff (reference name : String) :
    moveName reference = .ok name ↔ Named ".move.json" reference name := by
  simp only [moveName, map_ok_iff, Named]

/-- A named reference is one. -/
theorem Named.shape {suffix reference name : String} (named : Named suffix reference name) :
    Wire.isSha256Ref reference = true := by
  obtain ⟨digest, derived, -⟩ := named
  exact ((digestFromRef_ok_iff ..).mp derived).1

/-- A name is the one of one reference. -/
theorem Named.inj {suffix one two name : String} (first : Named suffix one name)
    (second : Named suffix two name) : one = two := by
  obtain ⟨left, leftDerived, leftName⟩ := first
  obtain ⟨right, rightDerived, rightName⟩ := second
  have same : left = right := by
    have texts := congrArg String.toList (leftName.trans rightName.symm)
    rw [String.toList_append, String.toList_append] at texts
    exact String.toList_injective (List.append_cancel_right texts)
  exact digestFromRef_inj leftDerived (same ▸ rightDerived)

/-- A reference has one name. -/
theorem Named.unique {suffix reference one two : String} (first : Named suffix reference one)
    (second : Named suffix reference two) : one = two := by
  obtain ⟨left, leftDerived, rfl⟩ := first
  obtain ⟨right, rightDerived, rfl⟩ := second
  rw [leftDerived] at rightDerived
  rw [Except.ok.inj rightDerived]

/-- A name is not the name of a temporary file. -/
theorem Named.ne_temporary {suffix reference name : String} (named : Named suffix reference name)
    (other : String) : name ≠ Files.temporary other := by
  obtain ⟨digest, derived, rfl⟩ := named
  obtain ⟨c, rest, characters, apart⟩ := digest_begins derived
  intro same
  have texts := congrArg String.toList same
  simp only [Files.temporary, String.toList_append, characters, List.cons_append] at texts
  exact apart (List.cons.inj texts).1

/-- The reference that a name begins with is the one that names it. -/
theorem referenceFromName_ok_iff (name suffix error reference : String) :
    referenceFromName name suffix error = .ok reference ↔ Named suffix reference name := by
  simp only [referenceFromName, bind_ok_iff, ensure_ok_iff, exists_const, pure_ok_iff]
  constructor
  · rintro ⟨ends, shape, rfl⟩
    obtain ⟨stem, split⟩ := List.isSuffixOf_iff_suffix.mp ends
    have whole : String.ofList stem ++ suffix = name := by
      apply String.toList_injective
      rw [String.toList_append, String.toList_ofList, split]
    have begins : name.toList.take (name.length - suffix.length) = stem := by
      rw [← whole, String.toList_append, String.length_append, Nat.add_sub_cancel,
        ← String.length_toList, List.take_left, String.toList_ofList]
    rw [begins] at shape ⊢
    refine ⟨_, (digestFromRef_ok_iff ..).mpr ⟨shape, rfl⟩, ?_⟩
    rw [String.toList_append, List.drop_left' (by decide), String.ofList_toList]
    exact whole
  · intro named
    have shape := named.shape
    obtain ⟨digest, derived, rfl⟩ := named
    have ends : suffix.toList.isSuffixOf (digest ++ suffix).toList = true := by
      rw [String.toList_append, List.isSuffixOf_iff_suffix]
      exact List.suffix_append _ _
    have begins : String.ofList ((digest ++ suffix).toList.take
        ((digest ++ suffix).length - suffix.length)) = digest := by
      rw [String.toList_append, String.length_append, Nat.add_sub_cancel,
        ← String.length_toList, List.take_left, String.ofList_toList]
    have whole := reference_of_digest derived
    rw [begins, ← whole]
    exact ⟨ends, shape, rfl⟩

/-- The digest of a reference. -/
def digestOf (reference : String) : String := String.ofList (reference.toList.drop 7)

/-- The name of the file of a reference. -/
def fileOf (suffix reference : String) : String := digestOf reference ++ suffix

/-- A reference has its digest. -/
theorem digestFromRef_of_ref {reference : String} (shape : Wire.isSha256Ref reference = true) :
    digestFromRef reference = .ok (digestOf reference) :=
  (digestFromRef_ok_iff ..).mpr ⟨shape, rfl⟩

/-- A file is named after a reference. -/
theorem named_iff (suffix reference name : String) : Named suffix reference name ↔
    Wire.isSha256Ref reference = true ∧ fileOf suffix reference = name := by
  simp only [Named, digestFromRef_ok_iff, fileOf, digestOf]
  constructor
  · rintro ⟨digest, ⟨shape, rfl⟩, named⟩
    exact ⟨shape, named⟩
  · rintro ⟨shape, named⟩
    exact ⟨_, ⟨shape, rfl⟩, named⟩

/-- A reference names its file. -/
theorem named_fileOf (suffix : String) {reference : String}
    (shape : Wire.isSha256Ref reference = true) :
    Named suffix reference (fileOf suffix reference) := (named_iff ..).mpr ⟨shape, rfl⟩

/-- Two references with the same digest are the same. -/
theorem digestOf_inj {one two : String} (first : Wire.isSha256Ref one = true)
    (second : Wire.isSha256Ref two = true) (same : digestOf one = digestOf two) : one = two :=
  digestFromRef_inj (digestFromRef_of_ref first) (same ▸ digestFromRef_of_ref second)

/-- Two references with the same file are the same. -/
theorem fileOf_inj {suffix one two : String} (first : Wire.isSha256Ref one = true)
    (second : Wire.isSha256Ref two = true) (same : fileOf suffix one = fileOf suffix two) :
    one = two := (named_fileOf suffix first).inj (same ▸ named_fileOf suffix second)

/-! ## Writes -/

/-- The name of a file that lasts: it is not the name of a temporary file. -/
def Lasting (name : String) : Prop := ∀ other, name ≠ Files.temporary other

/-- The names of records and contents last. -/
theorem Named.lasting {suffix reference name : String} (named : Named suffix reference name) :
    Lasting name := named.ne_temporary

/-- Nothing but the temporary file of a file is changed. -/
def Pending (directory : Directory) (name : String) (before after : FederationObjectStore) : Prop :=
  ∀ other file, ¬(other = directory ∧ file = Files.temporary name) →
    after.file? other file = before.file? other file

/-- A store with a directory that certainly exists. -/
def made (directory : Directory) (store : FederationObjectStore) : FederationObjectStore :=
  store.withFiles directory (store.files directory)

/-- A store with a new file in a directory. -/
def placed (directory : Directory) (name : String) (bytes : ByteArray)
    (store : FederationObjectStore) : FederationObjectStore :=
  store.withFiles directory
    (((store.files directory).erase (Files.temporary name)).insert name bytes)

/-- Making a directory changes no files. -/
theorem same_made (directory : Directory) (store : FederationObjectStore) :
    Same store (made directory store) := same_withFiles store directory

/-- A new file is shown, its temporary file is not, and nothing else is changed. -/
theorem file?_placed (directory : Directory) (name : String) (bytes : ByteArray)
    (store : FederationObjectStore) (other : Directory) (file : String) :
    (placed directory name bytes store).file? other file =
      if other = directory ∧ file = name then some bytes
      else if other = directory ∧ file = Files.temporary name then none
      else store.file? other file := by
  rw [placed, file?_withFiles]
  by_cases here : other = directory
  · subst here
    simp only [↓reduceIte, OrderedMap.get?_insert, OrderedMap.get?_erase, true_and]
    rfl
  · simp [here]

/-- The files of a directory are a part of the store. -/
theorem files_part (directory : Directory) : Effect.Part (files directory) (withFiles directory) where
  get_put contents store := by rw [files_withFiles, if_pos rfl]
  put_put first second store := withFiles_withFiles store directory first second

/-- A directory that was made is put back as it is. -/
theorem withFiles_made (directory : Directory) (store : FederationObjectStore) :
    (made directory store).withFiles directory ((made directory store).files directory) =
      made directory store := by
  rw [made, withFiles_withFiles, files_withFiles, if_pos rfl]

/-- What a write comes to. -/
theorem run_writeExactOrSame (directory : Directory) (name : String) (bytes : ByteArray)
    (store : FederationObjectStore) : (writeExactOrSame directory name bytes).run store =
      match store.file? directory name with
      | some old => (ensure (old = bytes)
          (.code "content_address_collision_or_metadata_conflict"), made directory store)
      | none => (.ok ⟨⟩, placed directory name bytes store) := by
  have existing : (made directory store).file? directory name = store.file? directory name :=
    (same_made directory store).file? directory name
  simp only [writeExactOrSame, Effect.run_bind, Effect.run_modify, Effect.run_read]
  rw [show store.withFiles directory (store.files directory) = made directory store from rfl,
    existing]
  cases store.file? directory name with
  | some old => rfl
  | none =>
    rw [Effect.run_within (files_part directory) id _ (withFiles_made directory store),
      Files.run_place, same_made directory store directory, made, withFiles_withFiles]
    rfl

/-- A write succeeds when the file is absent or has the same contents. -/
theorem writeExactOrSame_ok_iff (directory : Directory) (name : String) (bytes : ByteArray)
    (before after : FederationObjectStore) :
    (writeExactOrSame directory name bytes).run before = (.ok ⟨⟩, after) ↔
      (before.file? directory name = some bytes ∧ after = made directory before) ∨
      (before.file? directory name = none ∧ after = placed directory name bytes before) := by
  rw [run_writeExactOrSame]
  cases before.file? directory name with
  | some old =>
    simp only [Prod.mk.injEq, ensure_ok_iff, Option.some.injEq, reduceCtorEq, false_and, or_false]
    exact and_congr Iff.rfl eq_comm
  | none =>
    simp only [Prod.mk.injEq, true_and, reduceCtorEq, false_and, false_or]
    exact eq_comm

/-- Where a write can be stopped: nothing was changed, the temporary file was, or it is over. -/
theorem mem_states_writeExactOrSame {directory : Directory} {name : String} {bytes : ByteArray}
    {store stopped : FederationObjectStore}
    (member : stopped ∈ (writeExactOrSame directory name bytes).states store) :
    Same store stopped ∨ (store.file? directory name = none ∧
      (Pending directory name store stopped ∨ stopped = placed directory name bytes store)) := by
  have existing : (made directory store).file? directory name = store.file? directory name :=
    (same_made directory store).file? directory name
  simp only [writeExactOrSame, Effect.mem_states_bind, Effect.run_modify, Effect.run_read,
    Prod.mk.injEq] at member
  rcases member with early | ⟨_, middle, ⟨-, rfl⟩, reading | ⟨found, between, ⟨read, rfl⟩, late⟩⟩
  · have listed : stopped = store ∨ stopped = made directory store := by
      simpa [Effect.modify, Effect.states, made] using early
    rcases listed with rfl | rfl
    · exact .inl (Same.refl _)
    · exact .inl (same_made directory store)
  · have only : stopped = made directory store := by
      simpa [Effect.read, Effect.states, made] using reading
    rw [only]
    exact .inl (same_made directory store)
  · change stopped ∈ Effect.states _ (made directory store) at late
    rw [show store.withFiles directory (store.files directory) = made directory store from rfl,
      existing] at read
    cases Except.ok.inj read
    cases absent : store.file? directory name with
    | some old =>
      rw [absent] at late
      have only : stopped = made directory store := by
        simpa [Effect.check, Effect.states] using late
      rw [only]
      exact .inl (same_made directory store)
    | none =>
      rw [absent] at late
      change stopped ∈ ((Files.place name bytes).within _ _ _).states _ at late
      rw [Effect.states_within (files_part directory) id _ (withFiles_made directory store)] at late
      obtain ⟨contents, listed, rfl⟩ := List.mem_map.mp late
      have here := Files.mem_states_place listed
      rw [same_made directory store directory] at here
      rw [made, withFiles_withFiles]
      rcases here with rfl | rfl | ⟨written, rfl⟩ | rfl
      · exact .inl (same_withFiles store directory)
      · refine .inr ⟨rfl, .inl fun other file apart => ?_⟩
        rw [file?_withFiles]
        split_ifs with same
        · subst same
          rw [OrderedMap.get?_erase, if_neg fun named => apart ⟨rfl, named⟩]
          rfl
        · rfl
      · refine .inr ⟨rfl, .inl fun other file apart => ?_⟩
        rw [file?_withFiles]
        split_ifs with same
        · subst same
          rw [OrderedMap.get?_insert, if_neg fun named => apart ⟨rfl, named⟩,
            OrderedMap.get?_erase, if_neg fun named => apart ⟨rfl, named⟩]
          rfl
        · rfl
      · exact .inr ⟨rfl, .inr rfl⟩

end QsolFed.FederationObjectStore
