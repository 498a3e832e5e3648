import QsolFed.Store.Foreign

/-!
# Repeated puts

A put that was stopped is done again. Between the store before a put and the store that it led to,
the put finds what it has written already and writes the rest: the store that the repeated put
leaves lies between the store that the put led to and every store that this one grew to.
-/
namespace QsolFed.FederationObjectStore

open Checked Json Canonical

variable {primitives : Primitives}

/-- An attribution that is found later was found or absent. -/
theorem findRecord_ungrown {before after : FederationObjectStore}
    (grown : Grown .quarantine before after) {objectRef attribution : String}
    (object : Wire.isSha256Ref objectRef = true) (named : Wire.isSha256Ref attribution = true)
    {record : ForeignObjectRecord}
    (found : after.findRecord primitives objectRef attribution = .ok (some record)) :
    before.findRecord primitives objectRef attribution = .ok (some record) ∨
      before.findRecord primitives objectRef attribution = .ok none := by
  have lasting := lasting_fileOf ".record.json" named
  rw [findRecord_eq before object named]
  rw [findRecord_eq after object named, grown.apart .foreign _ _ (by decide) lasting] at found
  cases foreign : before.file? (.attributions .foreign (digestOf objectRef))
      (fileOf ".record.json" attribution) with
  | some raw =>
    rw [foreign] at found
    exact .inl found
  | none =>
    rw [foreign] at found
    cases quarantine : before.file? (.attributions .quarantine (digestOf objectRef))
        (fileOf ".record.json" attribution) with
    | some raw =>
      rw [grown.keeps _ _ _ lasting quarantine] at found
      exact .inl found
    | none => exact .inr rfl

/-- What is held later fits before. -/
theorem Held.fits_below {observation : Observation} {record : ForeignObjectRecord}
    {before after : FederationObjectStore} (held : Held primitives observation record after)
    (grown : Grown .quarantine before after) : Fits primitives observation before := by
  have shape := observation.reference_shape primitives
  refine ⟨fun old found => ?_, fun raw present old found => ?_, ?_⟩
  · have there := grown.keeps _ _ _ (lasting_fileOf ".json" shape) found
    exact Option.some.inj (there.symm.trans held.object)
  · have there := grown.keeps _ _ _
      (lasting_fileOf ".json" (isSha256Ref_digest primitives raw)) found
    exact Option.some.inj (there.symm.trans (held.provenance raw present))
  · rcases findRecord_ungrown grown shape (observation.attribution_shape primitives)
      held.record with found | absent
    · exact ⟨_, found⟩
    · exact ⟨_, absent⟩

/-- Stores that grow into each other have the same lasting files. -/
theorem Grown.same {placement : ForeignNamespace} {one two : FederationObjectStore}
    (forth : Grown placement one two) (back : Grown placement two one) (directory : Directory)
    {name : String} (lasting : Lasting name) :
    two.file? directory name = one.file? directory name := by
  cases found : one.file? directory name with
  | some bytes => exact forth.keeps _ _ _ lasting found
  | none =>
    cases other : two.file? directory name with
    | none => rfl
    | some bytes =>
      rw [back.keeps _ _ _ lasting other] at found
      cases found

namespace Observation

variable {observation : Observation} {placement : ForeignNamespace} {receivedAt : String}
  {before after : FederationObjectStore} {record : ForeignObjectRecord}

/-- The file of the record of an attribution. -/
def recordFile (primitives : Primitives) (observation : Observation)
    (placement : ForeignNamespace) (store : FederationObjectStore) : Option ByteArray :=
  store.file? (.attributions placement (digestOf (observation.reference primitives)))
    (fileOf ".record.json" (observation.attribution primitives))

/-- A put leaves the file of a record that was found, and writes it otherwise. -/
theorem recordFile_put
    (ran : (observation.put primitives placement receivedAt).run before = (.ok record, after)) :
    (before.findRecord primitives (observation.reference primitives)
        (observation.attribution primitives) = .ok (some record) ∧
      recordFile primitives observation placement after =
        recordFile primitives observation placement before) ∨
    (before.findRecord primitives (observation.reference primitives)
        (observation.attribution primitives) = .ok none ∧
      ∃ raw, canonicalStruct primitives (Codecs.foreignRecord.encode
          (observation.record primitives placement receivedAt)) = .ok raw ∧
        recordFile primitives observation placement after = some raw) := by
  have shape := observation.reference_shape primitives
  have named := observation.attribution_shape primitives
  have lasting := lasting_fileOf ".record.json" named
  obtain ⟨-, -, one, two, stored, written, rest⟩ := (put_ok_iff ..).mp ran
  have kept : ∀ other, recordFile primitives observation other two =
      recordFile primitives observation other before := fun other =>
    (written.frame lasting (by nofun)).trans (stored.frame lasting (by nofun))
  have same : two.findRecord primitives (observation.reference primitives)
      (observation.attribution primitives) = before.findRecord primitives
        (observation.reference primitives) (observation.attribution primitives) :=
    findRecord_congr shape named kept
  rw [same] at rest
  rcases rest with ⟨found, rfl⟩ | ⟨absent, rfl, raw, encoded, rfl⟩
  · exact .inl ⟨found, kept placement⟩
  · refine .inr ⟨absent, raw, encoded, ?_⟩
    rw [recordFile, file?_placed, if_pos ⟨rfl, rfl⟩]

/-- A put between the store before the put and a store that the put led to stays below that store
and reaches what the put reached. -/
theorem put_between {middle whole : FederationObjectStore}
    (ran : (observation.put primitives .quarantine receivedAt).run before = (.ok record, after))
    (lower : Grown .quarantine before middle) (upper : Grown .quarantine middle whole)
    (rest : Grown .quarantine after whole) :
    ∃ found last, (observation.put primitives .quarantine receivedAt).run middle =
      (.ok found, last) ∧ Grown .quarantine after last ∧ Grown .quarantine last whole := by
  have shape := observation.reference_shape primitives
  have named := observation.attribution_shape primitives
  have lasting := lasting_fileOf ".record.json" named
  have held := (held_of_put ran).grown rest
  obtain ⟨accepted, received, -⟩ := (put_ok_iff ..).mp ran
  have fits := held.fits_below upper
  have ⟨found, last, again⟩ : ∃ found last,
      (observation.put primitives .quarantine receivedAt).run middle = (.ok found, last) :=
    put_of_fits accepted received fits
  have first : Grown .quarantine before after := by
    have between : Effect.Between (Grown .quarantine)
        (observation.put primitives .quarantine receivedAt) := between_put _ _
    have grown := between.run before
    rwa [ran] at grown
  have second : Grown .quarantine middle last := by
    have between : Effect.Between (Grown .quarantine)
        (observation.put primitives .quarantine receivedAt) := between_put _ _
    have grown := between.run middle
    rwa [again] at grown
  have heldLast := held_of_put again
  -- The record that the put wrote is there, or the repeated put writes it.
  have forth : ∀ raw, recordFile primitives observation .quarantine after = some raw →
      recordFile primitives observation .quarantine last = some raw := by
    intro raw there
    rcases recordFile_put ran with ⟨known, same⟩ | ⟨unknown, bytes, encoded, wrote⟩
    · exact second.keeps _ _ _ lasting (lower.keeps _ _ _ lasting (same.symm.trans there))
    · obtain rfl := Option.some.inj (there.symm.trans wrote)
      rcases recordFile_put again with ⟨known, same⟩ | ⟨-, other, encodedAgain, wroteAgain⟩
      · have absent := (findRecord_none_iff before shape named).mp unknown .foreign
        have foreign := (lower.apart .foreign _ _ (by decide) lasting).trans absent
        cases stored : recordFile primitives observation .quarantine middle with
        | none =>
          have none_ : middle.findRecord primitives (observation.reference primitives)
              (observation.attribution primitives) = .ok none :=
            (findRecord_none_iff middle shape named).mpr fun other => by
              cases other with
              | foreign => exact foreign
              | quarantine => exact stored
          rw [known] at none_
          cases none_
        | some bytes =>
          have whole_ := upper.keeps _ _ _ lasting stored
          have raw_ := rest.keeps _ _ _ lasting there
          rw [same, stored, Option.some.inj (whole_.symm.trans raw_)]
      · rw [wroteAgain, Except.ok.inj (encodedAgain.symm.trans encoded)]
  have back : ∀ raw, recordFile primitives observation .quarantine last = some raw →
      recordFile primitives observation .quarantine whole = some raw := by
    intro raw there
    rcases recordFile_put again with ⟨known, same⟩ | ⟨unknown, bytes, encoded, wrote⟩
    · exact upper.keeps _ _ _ lasting (same.symm.trans there)
    · obtain rfl := Option.some.inj (there.symm.trans wrote)
      rcases recordFile_put ran with ⟨known, -⟩ | ⟨-, other, encodedFirst, wroteFirst⟩
      · rw [findRecord_grown lower shape named known] at unknown
        cases unknown
      · obtain rfl := Except.ok.inj (encodedFirst.symm.trans encoded)
        exact rest.keeps _ _ _ lasting wroteFirst
  refine ⟨found, last, again, ⟨?_, ?_⟩, ?_, ?_⟩
  · intro directory name bytes lasts there
    rcases file?_put ran directory lasts with
      same | ⟨rfl, rfl, wrote⟩ | ⟨raw, present, rfl, rfl, wrote⟩ | ⟨rfl, rfl⟩
    · exact second.keeps _ _ _ lasts (lower.keeps _ _ _ lasts (same.symm.trans there))
    · rw [Option.some.inj (there.symm.trans wrote)]
      exact heldLast.object
    · rw [Option.some.inj (there.symm.trans wrote)]
      exact heldLast.provenance raw present
    · exact forth bytes there
  · intro other digest name different lasts
    rw [second.apart other digest name different lasts,
      lower.apart other digest name different lasts, first.apart other digest name different lasts]
  · intro directory name bytes lasts there
    rcases file?_put again directory lasts with
      same | ⟨rfl, rfl, wrote⟩ | ⟨raw, present, rfl, rfl, wrote⟩ | ⟨rfl, rfl⟩
    · exact upper.keeps _ _ _ lasts (same.symm.trans there)
    · rw [Option.some.inj (there.symm.trans wrote)]
      exact held.object
    · rw [Option.some.inj (there.symm.trans wrote)]
      exact held.provenance raw present
    · exact back bytes there
  · intro other digest name different lasts
    rw [upper.apart other digest name different lasts,
      second.apart other digest name different lasts]

end Observation

end QsolFed.FederationObjectStore
