import QsolFed.Store.Derivation
import QsolFed.Store.Stops

/-!
# Operations that are refused

Putting an object and deriving one write their files one after the other, each unless it is there.
The only refusal after the first write is a file with other contents in the place of a later one.
So a refused operation leaves every file as it was, except where one of its files was missing and a
later one clashed. A put gets there only when two contents have one digest; a derivation also when
the object was derived before with another parent, node or time.
-/
namespace QsolFed.FederationObjectStore

open Checked Json Canonical

variable {primitives : Primitives}

/-! ## Writes in order -/

/-- A file that an operation writes. -/
structure Filing where
  /-- The directory. -/
  directory : Directory
  /-- The name. -/
  name : String
  /-- The contents. -/
  bytes : ByteArray

namespace Filing

variable (filing : Filing) (store : FederationObjectStore)

/-- Nothing is in the place of the file. -/
def Missing : Prop := store.file? filing.directory filing.name = none

/-- The file is there. -/
def Stored : Prop := store.file? filing.directory filing.name = some filing.bytes

/-- Other contents are in the place of the file. -/
def Clashes : Prop :=
  ∃ old, store.file? filing.directory filing.name = some old ∧ old ≠ filing.bytes

/-- The file is written, or found as it is. -/
def Entered (before after : FederationObjectStore) : Prop :=
  Written filing.directory filing.name filing.bytes before after

end Filing

/-- Writing these files in order leaves some of them only: one of them is missing, those before it
are there, and one after it clashes. -/
def Torn : List Filing → FederationObjectStore → Prop
  | [], _ => False
  | filing :: rest, store =>
    (filing.Missing store ∧ ∃ other ∈ rest, other.Clashes store) ∨
      (filing.Stored store ∧ Torn rest store)

/-- What is left when writing these files in order comes to one that clashes. -/
inductive Refused : List Filing → FederationObjectStore → FederationObjectStore → Prop where
  /-- The first file clashes. -/
  | clash {filing : Filing} {rest : List Filing} {before : FederationObjectStore}
      (clashes : filing.Clashes before) :
      Refused (filing :: rest) before (made filing.directory before)
  /-- The first file is written and a later one clashes. -/
  | later {filing : Filing} {rest : List Filing} {before middle after : FederationObjectStore}
      (entered : filing.Entered before middle) (refused : Refused rest middle after) :
      Refused (filing :: rest) before after

/-- The files are in directories of their own, and last. -/
structure Separate (files : List Filing) : Prop where
  /-- No directory has two of them. -/
  apart : files.Pairwise fun one two => one.directory ≠ two.directory
  /-- Their names last. -/
  lasting : ∀ filing ∈ files, Lasting filing.name

/-- The files after the first one are separate. -/
theorem Separate.tail {filing : Filing} {rest : List Filing}
    (separate : Separate (filing :: rest)) : Separate rest :=
  ⟨(List.pairwise_cons.mp separate.apart).2,
    fun other member => separate.lasting other (List.mem_cons_of_mem _ member)⟩

/-- Writing the first file leaves the places of the others alone. -/
theorem Separate.frame {filing : Filing} {rest : List Filing}
    (separate : Separate (filing :: rest)) {before after : FederationObjectStore}
    (entered : filing.Entered before after) {other : Filing} (member : other ∈ rest) :
    after.file? other.directory other.name = before.file? other.directory other.name := by
  have lasting := separate.lasting other (List.mem_cons_of_mem _ member)
  have apart := (List.pairwise_cons.mp separate.apart).1 other member
  exact entered.outside other.directory lasting fun same => apart same.symm

/-- Refused writes leave the lasting files of other directories alone. -/
theorem Refused.outside {files : List Filing} {before after : FederationObjectStore}
    (refused : Refused files before after) {directory : Directory} {name : String}
    (lasting : Lasting name) (apart : ∀ filing ∈ files, directory ≠ filing.directory) :
    after.file? directory name = before.file? directory name := by
  induction refused with
  | clash clashes => exact (same_made _ _).file? directory name
  | later entered _ ih =>
    rw [ih fun filing member => apart filing (List.mem_cons_of_mem _ member)]
    exact entered.outside directory lasting (apart _ List.mem_cons_self)

/-- A file on which refused writes come to an end clashed before. -/
theorem Refused.clashes {files : List Filing} {before after : FederationObjectStore}
    (refused : Refused files before after) (separate : Separate files) :
    ∃ filing ∈ files, filing.Clashes before := by
  induction refused with
  | clash clashes => exact ⟨_, List.mem_cons_self, clashes⟩
  | later entered _ ih =>
    obtain ⟨filing, member, old, found, other⟩ := ih separate.tail
    rw [separate.frame entered member] at found
    exact ⟨filing, List.mem_cons_of_mem _ member, old, found, other⟩

/-- Writes are torn in stores that show the same files in the same places. -/
theorem torn_congr {files : List Filing} {one two : FederationObjectStore}
    (same : ∀ filing ∈ files, two.file? filing.directory filing.name =
      one.file? filing.directory filing.name) : Torn files two ↔ Torn files one := by
  induction files with
  | nil => exact Iff.rfl
  | cons filing rest ih =>
    have here := same filing List.mem_cons_self
    have there : ∀ other ∈ rest, two.file? other.directory other.name =
        one.file? other.directory other.name :=
      fun other member => same other (List.mem_cons_of_mem _ member)
    simp only [Torn, Filing.Missing, Filing.Stored, Filing.Clashes, here, ih there]
    refine or_congr (and_congr_right fun _ => exists_congr fun other => ?_) Iff.rfl
    refine and_congr_right fun member => ?_
    rw [there other member]

/-- Refused writes leave every file as it was exactly when they are not torn. -/
theorem Refused.same_iff {files : List Filing} {before after : FederationObjectStore}
    (refused : Refused files before after) (separate : Separate files) :
    Same before after ↔ ¬Torn files before := by
  induction refused with
  | @clash filing rest before clashes =>
    obtain ⟨old, found, other⟩ := clashes
    refine iff_of_true (same_made filing.directory before) ?_
    rintro (⟨missing, -⟩ | ⟨stored, -⟩)
    · exact nomatch found.symm.trans missing
    · exact other (Option.some.inj (found.symm.trans stored))
  | @later filing rest before middle after entered refused ih =>
    have frame := fun other member => @Separate.frame _ _ separate _ _ entered other member
    have ends := ih separate.tail
    rw [torn_congr frame] at ends
    have lasting := separate.lasting filing List.mem_cons_self
    have present : after.file? filing.directory filing.name = some filing.bytes := by
      rw [refused.outside lasting (List.pairwise_cons.mp separate.apart).1]
      exact entered.present
    cases found : before.file? filing.directory filing.name with
    | some old =>
      obtain rfl := entered.fits found
      have steady := entered.same found
      have back : Same middle before := fun directory => (steady directory).symm
      rw [show Same before after ↔ Same middle after from
        ⟨fun same => back.trans same, fun same => steady.trans same⟩, ends, not_iff_not]
      constructor
      · exact fun torn => .inr ⟨found, torn⟩
      · rintro (⟨missing, -⟩ | ⟨-, torn⟩)
        · exact nomatch found.symm.trans missing
        · exact torn
    | none =>
      obtain ⟨other, member, old, stored, different⟩ := refused.clashes separate.tail
      rw [frame other member] at stored
      refine iff_of_false (fun same => ?_) fun torn => torn (.inl ⟨found, other, member, old,
        stored, different⟩)
      rw [same.file?, found] at present
      cases present

/-- Contents that cannot be written are in the way of others. -/
theorem refused_writeContentAddressed {directory : Directory} {bytes : ByteArray}
    (canonical : requireExactCanonical primitives bytes = .ok ()) {error : StoreError}
    {before after : FederationObjectStore}
    (ran : (writeContentAddressed primitives directory (Digest.sha256Ref primitives bytes)
      bytes).run before = (.error error, after)) :
    Filing.Clashes ⟨directory, fileOf ".json" (Digest.sha256Ref primitives bytes), bytes⟩ before ∧
      after = made directory before := by
  have shape := isSha256Ref_digest primitives bytes
  have named := (contentName_ok_iff ..).mpr (named_fileOf ".json" shape)
  simp only [writeContentAddressed, objectId_of_canonical canonical, Effect.run_check_bind,
    ensure_pos, named, run_writeExactOrSame] at ran
  cases found : before.file? directory (fileOf ".json" (Digest.sha256Ref primitives bytes)) with
  | none =>
    rw [found] at ran
    cases (Prod.mk.inj ran).1
  | some old =>
    rw [found] at ran
    obtain ⟨refused, rfl⟩ := Prod.mk.inj ran
    refine ⟨⟨old, found, fun same => ?_⟩, rfl⟩
    rw [ensure_pos same] at refused
    cases refused

/-! ## Puts -/

/-- The files of the contents of an observation, in the order in which they are written. -/
def Observation.filings (primitives : Primitives) (observation : Observation) : List Filing :=
  (observation.provenance.toList.map fun raw =>
    ⟨.provenance, fileOf ".json" (Digest.sha256Ref primitives raw), raw⟩) ++
  [⟨.objects, fileOf ".json" (observation.reference primitives), observation.object⟩]

/-- The files of an observation are separate. -/
theorem Observation.separate (observation : Observation) :
    Separate (observation.filings primitives) := by
  have object := lasting_fileOf ".json" (observation.reference_shape primitives)
  have provenance : ∀ raw, Lasting (fileOf ".json" (Digest.sha256Ref primitives raw)) :=
    fun raw => lasting_fileOf ".json" (isSha256Ref_digest primitives raw)
  rw [filings]
  cases observation.provenance with
  | none => exact ⟨List.pairwise_singleton _ _, List.forall_mem_singleton.mpr object⟩
  | some raw =>
    refine ⟨List.pairwise_pair.mpr (by nofun), ?_⟩
    exact List.forall_mem_cons.mpr ⟨provenance raw, List.forall_mem_singleton.mpr object⟩

/-- The record of an attribution can be read in a legible store. -/
theorem Legible.readable {store : FederationObjectStore} (legible : Legible primitives store)
    {objectRef attribution : String} (object : Wire.isSha256Ref objectRef = true)
    (named : Wire.isSha256Ref attribution = true) :
    ∃ found, store.findRecord primitives objectRef attribution = .ok found := by
  have read : ∀ {placement : ForeignNamespace} {raw : ByteArray},
      store.file? (.attributions placement (digestOf objectRef))
        (fileOf ".record.json" attribution) = some raw →
      ∃ found, (some <$> readRecord primitives raw placement objectRef attribution) =
        .ok found := by
    intro placement raw stored
    have proper := legible _ _ raw (lasting_fileOf ".record.json" named) stored
    obtain ⟨record, decoded⟩ := proper.record placement _ _ object named rfl rfl
    exact ⟨some record, by rw [decoded]; rfl⟩
  rw [findRecord_eq store object named]
  cases foreign : store.file? (.attributions .foreign (digestOf objectRef))
      (fileOf ".record.json" attribution) with
  | some raw => exact read foreign
  | none =>
    cases quarantine : store.file? (.attributions .quarantine (digestOf objectRef))
        (fileOf ".record.json" attribution) with
    | some raw => exact read quarantine
    | none => exact ⟨none, rfl⟩

/-- A put into a legible store that is refused was not accepted, or came to contents that clash. -/
theorem Observation.put_refused {observation : Observation} {placement : ForeignNamespace}
    {receivedAt : String} {before after : FederationObjectStore} {error : StoreError}
    (legible : Legible primitives before)
    (ran : (observation.put primitives placement receivedAt).run before = (.error error, after)) :
    (¬(observation.Accepted primitives ∧ validTimestamp receivedAt = true) ∧ after = before) ∨
      (observation.Accepted primitives ∧ validTimestamp receivedAt = true ∧
        Refused (observation.filings primitives) before after) := by
  have shape := observation.reference_shape primitives
  have named := observation.attribution_shape primitives
  have unfit : observation.Accepted primitives → validTimestamp receivedAt = true →
      ¬Fits primitives observation before := by
    intro accepted received fits
    obtain ⟨record, final, succeeds⟩ := @Observation.put_of_fits _ _ placement receivedAt _
      accepted received fits
    rw [succeeds] at ran
    cases (Prod.mk.inj ran).1
  unfold put putForeign at ran
  rcases Effect.run_check_cases ran with ⟨_, refused, -, rfl⟩ | ⟨_, passed, ran⟩
  · refine .inl ⟨fun both => ?_, rfl⟩
    rw [ensure_pos ⟨both.1.node, both.2⟩] at refused
    cases refused
  obtain ⟨node, received⟩ := (ensure_ok_iff ..).mp passed
  rcases Effect.run_check_cases ran with ⟨_, refused, -, rfl⟩ | ⟨_, canonical, ran⟩
  · exact .inl ⟨fun both => (nomatch refused.symm.trans both.1.canonical), rfl⟩
  simp only [objectId_of_canonical canonical, Effect.check_ok_bind] at ran
  rcases Effect.run_bind_cases ran with ⟨_, failed, -⟩ | ⟨id, one, stored, ran⟩
  -- The provenance is not accepted, or it clashes.
  · cases given : observation.provenance with
    | none =>
      rw [given] at failed
      cases (Prod.mk.inj failed).1
    | some raw =>
      rw [given] at failed
      rcases Effect.run_check_cases failed with ⟨_, refused, -, rfl⟩ | ⟨reference, checked, later⟩
      · refine .inl ⟨fun both => ?_, rfl⟩
        exact nomatch refused.symm.trans (both.1.provenance raw given)
      · obtain ⟨own, -, rfl⟩ := (checkProvenance_ok_iff ..).mp checked
        have accepted : observation.Accepted primitives := by
          refine ⟨node, canonical, fun other present => ?_⟩
          obtain rfl := Option.some.inj (given.symm.trans present)
          exact checked
        rcases Effect.run_bind_cases later with ⟨_, wrote, -⟩ | ⟨_, _, -, done⟩
        · obtain ⟨clashes, rfl⟩ := refused_writeContentAddressed own wrote
          refine .inr ⟨accepted, received, ?_⟩
          rw [filings, given]
          exact .clash clashes
        · cases (Prod.mk.inj done).1
  obtain ⟨checked, -, kept⟩ := (putProvenance_ok_iff ..).mp stored
  have accepted : observation.Accepted primitives := ⟨node, canonical, checked⟩
  rcases Effect.run_bind_cases ran with ⟨_, wrote, -⟩ | ⟨_, two, wrote, -⟩
  -- The object clashes, after the provenance was written.
  · obtain ⟨clashes, rfl⟩ := refused_writeContentAddressed canonical wrote
    refine .inr ⟨accepted, received, ?_⟩
    rw [filings]
    cases given : observation.provenance with
    | none =>
      rw [given] at kept
      obtain rfl : one = before := kept
      exact .clash clashes
    | some raw => exact .later (kept.present given) (.clash clashes)
  -- The contents were written, so that they fit and nothing else is refused.
  · refine absurd ?_ (unfit accepted received)
    have written := (writeContentAddressed_ok_iff .objects canonical ..).mp wrote
    refine ⟨fun old found => ?_, fun raw given old found => (kept.present given).fits found,
      legible.readable shape named⟩
    rw [← kept.frame (lasting_fileOf ".json" shape) (by nofun)] at found
    exact written.fits found

/-! ## Derivations -/

variable (primitives) in
/-- The request for a derivation passes every check before the first write. -/
structure Requested (localNode parentForeignObject : String) (localObject : ByteArray)
    (createdAt : String) (store : FederationObjectStore) : Prop where
  /-- The local node is one. -/
  node : Wire.isNodeId localNode = true
  /-- The parent is a reference. -/
  parent : Wire.isSha256Ref parentForeignObject = true
  /-- The time is one. -/
  created : validTimestamp createdAt = true
  /-- The parent has records. -/
  foreign : ∃ records, store.foreignRecords primitives parentForeignObject = .ok records ∧
    records ≠ []
  /-- The object is canonical. -/
  canonical : requireExactCanonical primitives localObject = .ok ()
  /-- The object is not its own parent. -/
  apart : Digest.sha256Ref primitives localObject ≠ parentForeignObject

variable (primitives) in
/-- The bytes of the provenance of a local object. -/
def derivedProvenance (localNode parentForeignObject : String) (localObject : ByteArray)
    (createdAt : String) : ByteArray :=
  (canonicalStruct primitives (Codecs.provenance.encode (descendantProvenance localNode
    parentForeignObject (Digest.sha256Ref primitives localObject) createdAt))).toOption.getD .empty

variable (primitives) in
/-- The record of a local object. -/
def derivedRecord (localNode parentForeignObject : String) (localObject : ByteArray)
    (createdAt : String) : LocalDescendantRecord :=
  descendantRecord localNode parentForeignObject (Digest.sha256Ref primitives localObject)
    (Digest.sha256Ref primitives
      (derivedProvenance primitives localNode parentForeignObject localObject createdAt)) createdAt

variable (primitives) in
/-- The bytes of the record of a local object. -/
def derivedRecordBytes (localNode parentForeignObject : String) (localObject : ByteArray)
    (createdAt : String) : ByteArray :=
  (canonicalStruct primitives (Codecs.descendant.encode (derivedRecord primitives localNode
    parentForeignObject localObject createdAt))).toOption.getD .empty

variable (primitives) in
/-- The files of a derivation, in the order in which they are written. -/
def derivedFilings (localNode parentForeignObject : String) (localObject : ByteArray)
    (createdAt : String) : List Filing :=
  let provenance := derivedProvenance primitives localNode parentForeignObject localObject createdAt
  [⟨.objects, fileOf ".json" (Digest.sha256Ref primitives localObject), localObject⟩,
    ⟨.provenance, fileOf ".json" (Digest.sha256Ref primitives provenance), provenance⟩,
    ⟨.descendants, fileOf ".record.json" (Digest.sha256Ref primitives localObject),
      derivedRecordBytes primitives localNode parentForeignObject localObject createdAt⟩]

/-- The files of a derivation are separate. -/
theorem derived_separate (localNode parentForeignObject : String) (localObject : ByteArray)
    (createdAt : String) : Separate
      (derivedFilings primitives localNode parentForeignObject localObject createdAt) := by
  have object := isSha256Ref_digest primitives localObject
  have provenance := isSha256Ref_digest primitives
    (derivedProvenance primitives localNode parentForeignObject localObject createdAt)
  refine ⟨by simp [derivedFilings], ?_⟩
  simp only [derivedFilings, List.forall_mem_cons, List.not_mem_nil, false_imp_iff, implies_true,
    and_true]
  exact ⟨lasting_fileOf ".json" object, lasting_fileOf ".json" provenance,
    lasting_fileOf ".record.json" object⟩

/-- The provenance and the record of a request have canonical bytes. -/
theorem Requested.encoded {localNode parentForeignObject : String} {localObject : ByteArray}
    {createdAt : String} {store : FederationObjectStore}
    (requested : Requested primitives localNode parentForeignObject localObject createdAt store) :
    canonicalStruct primitives (Codecs.provenance.encode (descendantProvenance localNode
        parentForeignObject (Digest.sha256Ref primitives localObject) createdAt)) =
      .ok (derivedProvenance primitives localNode parentForeignObject localObject createdAt) ∧
    canonicalStruct primitives (Codecs.descendant.encode
        (derivedRecord primitives localNode parentForeignObject localObject createdAt)) =
      .ok (derivedRecordBytes primitives localNode parentForeignObject localObject createdAt) := by
  have shape := isSha256Ref_digest primitives localObject
  obtain ⟨bytes, provenance⟩ := @descendantProvenance_encoded primitives _ _ _ _ requested.node
    requested.parent shape requested.created
  have valid : DescendantValid
      (derivedRecord primitives localNode parentForeignObject localObject createdAt) :=
    ⟨rfl, shape, requested.node, requested.parent, isSha256Ref_digest primitives _,
      requested.created, rfl⟩
  obtain ⟨raw, record⟩ := @DescendantValid.encoded primitives _ valid
  constructor
  · rw [derivedProvenance, provenance]
    rfl
  · rw [derivedRecordBytes, record]
    rfl

/-- A derivation that is refused did not pass the checks, or came to a file that clashes. -/
theorem createLocalDescendant_refused {localNode parentForeignObject : String}
    {localObject : ByteArray} {createdAt : String} {before after : FederationObjectStore}
    {error : StoreError} (ran : (createLocalDescendant primitives localNode parentForeignObject
      localObject createdAt).run before = (.error error, after)) :
    (¬Requested primitives localNode parentForeignObject localObject createdAt before ∧
        after = before) ∨
      (Requested primitives localNode parentForeignObject localObject createdAt before ∧
        Refused (derivedFilings primitives localNode parentForeignObject localObject createdAt)
          before after) := by
  have shape := isSha256Ref_digest primitives localObject
  unfold createLocalDescendant at ran
  rcases Effect.run_check_cases ran with ⟨_, refused, -, rfl⟩ | ⟨_, passed, ran⟩
  · refine .inl ⟨fun requested => ?_, rfl⟩
    rw [ensure_pos ⟨requested.node, requested.parent, requested.created⟩] at refused
    cases refused
  obtain ⟨node, parent, created⟩ := (ensure_ok_iff ..).mp passed
  rcases Effect.run_read_cases ran with ⟨_, unread, -, rfl⟩ | ⟨records, listed, ran⟩
  · refine .inl ⟨fun requested => ?_, rfl⟩
    obtain ⟨records, listed, -⟩ := requested.foreign
    exact nomatch unread.symm.trans listed
  rcases Effect.run_check_cases ran with ⟨_, refused, -, rfl⟩ | ⟨_, some_, ran⟩
  · refine .inl ⟨fun requested => ?_, rfl⟩
    obtain ⟨others, again, filled⟩ := requested.foreign
    obtain rfl := Except.ok.inj (listed.symm.trans again)
    rw [ensure_pos filled] at refused
    cases refused
  rcases Effect.run_check_cases ran with ⟨_, refused, -, rfl⟩ | ⟨_, canonical, ran⟩
  · exact .inl ⟨fun requested => (nomatch refused.symm.trans requested.canonical), rfl⟩
  simp only [objectId_of_canonical canonical, Effect.check_ok_bind] at ran
  rcases Effect.run_check_cases ran with ⟨_, refused, -, rfl⟩ | ⟨_, apart, ran⟩
  · refine .inl ⟨fun requested => ?_, rfl⟩
    rw [ensure_pos requested.apart] at refused
    cases refused
  have requested : Requested primitives localNode parentForeignObject localObject createdAt
      before := ⟨node, parent, created, ⟨records, listed, (ensure_ok_iff ..).mp some_⟩, canonical,
    (ensure_ok_iff ..).mp apart⟩
  obtain ⟨encodedProvenance, encoded⟩ := requested.encoded
  unfold derivedRecord descendantRecord at encoded
  unfold derivedFilings
  generalize derivedRecordBytes primitives localNode parentForeignObject localObject createdAt = raw
    at encoded ⊢
  generalize derivedProvenance primitives localNode parentForeignObject localObject createdAt =
    bytes at encodedProvenance encoded ⊢
  have own := requireExactCanonical_of_struct encodedProvenance
  have named := (recordName_ok_iff ..).mpr (named_fileOf ".record.json" shape)
  refine .inr ⟨requested, ?_⟩
  rcases Effect.run_bind_cases ran with ⟨_, wrote, -⟩ | ⟨_, one, wrote, ran⟩
  · obtain ⟨clashes, rfl⟩ := refused_writeContentAddressed canonical wrote
    exact .clash clashes
  refine .later ((writeContentAddressed_ok_iff .objects canonical ..).mp wrote) ?_
  simp only [ensure_pos (descendantProvenance_valid node parent shape created), encodedProvenance,
    objectId_of_canonical own, Effect.check_ok_bind] at ran
  rcases Effect.run_bind_cases ran with ⟨_, wrote, -⟩ | ⟨_, two, wrote, ran⟩
  · obtain ⟨clashes, rfl⟩ := refused_writeContentAddressed own wrote
    exact .clash clashes
  refine .later ((writeContentAddressed_ok_iff .provenance own ..).mp wrote) ?_
  simp only [named, encoded, Effect.check_ok_bind] at ran
  rcases Effect.run_bind_cases ran with ⟨_, wrote, -⟩ | ⟨_, _, -, done⟩
  · rw [run_writeExactOrSame] at wrote
    cases stored : two.file? .descendants
        (fileOf ".record.json" (Digest.sha256Ref primitives localObject)) with
    | none =>
      rw [stored] at wrote
      cases (Prod.mk.inj wrote).1
    | some old =>
      rw [stored] at wrote
      obtain ⟨refused, rfl⟩ := Prod.mk.inj wrote
      refine .clash ⟨old, stored, fun same => ?_⟩
      rw [ensure_pos same] at refused
      cases refused
  · cases (Prod.mk.inj done).1

/-! ## Rejections -/

/-- In every store that operations are performed on, wherever they are stopped, an object that is
refused leaves every file as it was exactly when its put was not accepted or its contents are not
torn, and a derivation that is refused exactly when its request did not pass or its three files are
not torn. -/
theorem rejections_leave_no_trace_iff {events : List StoreEvent} {store : FederationObjectStore}
    (run : Run (StoppedStep primitives) empty events store) :
    (∀ observation placement receivedAt error after,
      (Observation.put primitives observation placement receivedAt).run store =
        (.error error, after) →
      (Same store after ↔ ¬(observation.Accepted primitives ∧ validTimestamp receivedAt = true ∧
        Torn (observation.filings primitives) store))) ∧
    ∀ localNode parentForeignObject localObject createdAt error after,
      (createLocalDescendant primitives localNode parentForeignObject localObject createdAt).run
        store = (.error error, after) →
      (Same store after ↔
        ¬(Requested primitives localNode parentForeignObject localObject createdAt store ∧
          Torn (derivedFilings primitives localNode parentForeignObject localObject createdAt)
            store)) := by
  have legible := legible_of_run run
  constructor
  · intro observation placement receivedAt error after ran
    rcases Observation.put_refused legible ran with ⟨refused, rfl⟩ | ⟨accepted, received, refused⟩
    · refine iff_of_true (Same.refl after) fun both => refused ⟨both.1, both.2.1⟩
    · rw [refused.same_iff observation.separate]
      exact not_congr ⟨fun torn => ⟨accepted, received, torn⟩, fun both => both.2.2⟩
  · intro localNode parentForeignObject localObject createdAt error after ran
    rcases createLocalDescendant_refused ran with ⟨refused, rfl⟩ | ⟨requested, refused⟩
    · exact iff_of_true (Same.refl after) fun both => refused both.1
    · rw [refused.same_iff (derived_separate ..)]
      exact not_congr ⟨fun torn => ⟨requested, torn⟩, fun both => both.2⟩

/-- An object that is to be made of itself is refused, and every file stays as it was. -/
theorem recorded_rejection : ∃ store after error,
    Run (StoppedStep mutualPrimitives) empty
      [.put emptyObservation .foreign "2026-08-23T00:01:00Z"] store ∧
    (createLocalDescendant mutualPrimitives "fed:qsol:local"
      (emptyObservation.reference mutualPrimitives) emptyObservation.object
      "2026-08-23T00:02:00Z").run store = (.error error, after) ∧ Same store after := by
  obtain ⟨record, store, next, made, ran, -⟩ :=
    mutual_distinct.derived (by decide : Wire.isNodeId "fed:qsol:local" = true)
      (by decide : validTimestamp "2026-08-23T00:01:00Z" = true)
      (by decide : validTimestamp "2026-08-23T00:02:00Z" = true)
  have step : StoreStep mutualPrimitives empty
      (.put emptyObservation .foreign "2026-08-23T00:01:00Z") store := (congrArg Prod.snd ran).symm
  have run : Run (StoppedStep mutualPrimitives) empty _ store := Run.single step.stopped
  rcases derived : (createLocalDescendant mutualPrimitives "fed:qsol:local"
      (emptyObservation.reference mutualPrimitives) emptyObservation.object
      "2026-08-23T00:02:00Z").run store with ⟨answer, after⟩
  cases answer with
  | ok record => exact absurd rfl ((createLocalDescendant_ok_iff ..).mp derived).2.2.2.1
  | error error =>
    have same := ((rejections_leave_no_trace_iff run).2 _ _ _ _ _ _ derived).mpr
      fun both => both.1.apart rfl
    exact ⟨store, after, error, run, derived, same⟩

/-- An object that was derived is derived once more at another time, when the digests of the two
provenances do not collide: the derivation is refused, and its provenance is left behind. -/
theorem Distinct.repeated {one two : Observation} (distinct : Distinct primitives one two)
    {localNode firstTime secondTime thirdTime : String} (node : Wire.isNodeId localNode = true)
    (first : validTimestamp firstTime = true) (second : validTimestamp secondTime = true)
    (third : validTimestamp thirdTime = true) (later : thirdTime ≠ secondTime)
    (provenances : ∀ left right, canonicalStruct primitives (Codecs.provenance.encode
        (descendantProvenance localNode (one.reference primitives) (two.reference primitives)
          secondTime)) = .ok left →
      canonicalStruct primitives (Codecs.provenance.encode
        (descendantProvenance localNode (one.reference primitives) (two.reference primitives)
          thirdTime)) = .ok right →
      Digest.sha256Ref primitives left ≠ Digest.sha256Ref primitives right) :
    ∃ store after error, Run (StoppedStep primitives) empty
        [.put one .foreign firstTime,
          .derived localNode (one.reference primitives) two.object secondTime] store ∧
      (createLocalDescendant primitives localNode (one.reference primitives) two.object
        thirdTime).run store = (.error error, after) ∧ ¬Same store after := by
  obtain ⟨record, introduced, store, descendant, ran, derived, files⟩ :=
    distinct.derived node first second
  have own := one.reference_shape primitives
  have shape := two.reference_shape primitives
  have put : StoreStep primitives empty (.put one .foreign firstTime) introduced :=
    (congrArg Prod.snd ran).symm
  obtain ⟨records, listed, some_⟩ := listed_of_put (Run.single put) ran
  have step : StoreStep primitives introduced
      (.derived localNode (one.reference primitives) two.object secondTime) store :=
    (congrArg Prod.snd derived).symm
  have run : Run (StoppedStep primitives) empty _ store :=
    (Run.single put.stopped).snoc step.stopped
  obtain ⟨_, made, derivation⟩ := (createLocalDescendant_cases derived).resolve_left nofun
  obtain rfl := Except.ok.inj made
  have requested : Requested primitives localNode (one.reference primitives) two.object thirdTime
      store := by
    have again := foreignRecords_of_files
      (fun placement name => derivation.elsewhere name nofun nofun nofun) listed
    exact ⟨node, own, third, ⟨records, again, some_⟩, distinct.second.canonical,
      distinct.apart.symm⟩
  obtain ⟨encodedProvenance, encoded⟩ := requested.encoded
  -- The record that is there was made at another time.
  have clashes : Filing.Clashes ⟨.descendants,
      fileOf ".record.json" (Digest.sha256Ref primitives two.object),
      derivedRecordBytes primitives localNode (one.reference primitives) two.object thirdTime⟩
      store := by
    obtain ⟨-, -, -, -, _, _, _, old, -, -, -, rfl, earlier, written⟩ :=
      (createLocalDescendant_ok_iff ..).mp derived
    refine ⟨old, written.present, fun same => ?_⟩
    have before := derivation.valid.read earlier
    have valid : DescendantValid (derivedRecord primitives localNode (one.reference primitives)
        two.object thirdTime) :=
      ⟨rfl, shape, node, own, isSha256Ref_digest primitives _, third, rfl⟩
    rw [same, valid.read encoded] at before
    exact later (congrArg LocalDescendantRecord.createdAt (Option.some.inj before))
  -- The new provenance is not there.
  have missing : Filing.Missing ⟨.provenance, fileOf ".json" (Digest.sha256Ref primitives
      (derivedProvenance primitives localNode (one.reference primitives) two.object thirdTime)),
      derivedProvenance primitives localNode (one.reference primitives) two.object thirdTime⟩
      store := by
    have named := isSha256Ref_digest primitives
      (derivedProvenance primitives localNode (one.reference primitives) two.object thirdTime)
    have lasting := lasting_fileOf ".json" named
    rcases file?_derived derived .provenance lasting with kept | ⟨other, -⟩ |
      ⟨-, bytes, earlier, other⟩ | ⟨other, -⟩
    · exact kept.trans (files .provenance _ lasting (fun same => nomatch same)
        fun _ same => nomatch same)
    · cases other
    · have same := fileOf_inj named (isSha256Ref_digest primitives bytes) other
      exact absurd same.symm (provenances _ _ earlier encodedProvenance)
    · cases other
  have torn : Torn (derivedFilings primitives localNode (one.reference primitives) two.object
      thirdTime) store := by
    refine .inr ⟨present_derived derived, .inl ⟨missing, ?_⟩⟩
    exact ⟨_, List.mem_singleton_self _, clashes⟩
  rcases again : (createLocalDescendant primitives localNode (one.reference primitives) two.object
      thirdTime).run store with ⟨answer, after⟩
  cases answer with
  | ok record =>
    obtain ⟨old, found, different⟩ := clashes
    have derivable := (derivable_iff ..).mpr ⟨record, after, again⟩
    unfold derivedRecord at encoded
    dsimp only at found different
    exact absurd (derivable.record _ _ encodedProvenance encoded old found) different
  | error error =>
    refine ⟨store, after, error, run, again, ?_⟩
    rcases createLocalDescendant_refused again with ⟨refused, -⟩ | ⟨-, refused⟩
    · exact absurd requested refused
    · exact fun same => (refused.same_iff (derived_separate ..)).mp same torn

/-- The digest of the provenance of the second object when it is derived once more. -/
theorem repeated_digest {raw : ByteArray}
    (encoded : canonicalStruct mutualPrimitives (Codecs.provenance.encode (descendantProvenance
      "fed:qsol:local" emptyReference otherReference "2026-08-23T00:04:00Z")) = .ok raw) :
    Digest.sha256Ref mutualPrimitives raw =
      "sha256:dd00000000000000000000000000000000000000000000000000000000000000" :=
  digest_of_visit (by decide) (by decide) (by decide)
    (rfl : visit mutualPrimitives.unicode (Codecs.provenance.encode (descendantProvenance
      "fed:qsol:local" emptyReference otherReference "2026-08-23T00:04:00Z")) =
        .ok (mutualProvenance emptyReference otherReference "2026-08-23T00:04:00Z"))
    (sha256Ref_tabulated (Text.bytes "\x7b\"created_at\":\"2026-08-23T00:04", "dd")
      (by decide) (by decide)) encoded

/-- An object that was derived is derived once more at a later time: the derivation is refused, and
its new provenance is left behind. -/
theorem recorded_trace : ∃ store after error,
    Run (StoppedStep mutualPrimitives) empty
      [.put emptyObservation .foreign "2026-08-23T00:01:00Z",
        .derived "fed:qsol:local" emptyReference otherObservation.object "2026-08-23T00:02:00Z"]
      store ∧
    (createLocalDescendant mutualPrimitives "fed:qsol:local" emptyReference otherObservation.object
      "2026-08-23T00:04:00Z").run store = (.error error, after) ∧ ¬Same store after := by
  have repeated := mutual_distinct.repeated (by decide : Wire.isNodeId "fed:qsol:local" = true)
    (by decide : validTimestamp "2026-08-23T00:01:00Z" = true)
    (by decide : validTimestamp "2026-08-23T00:02:00Z" = true)
    (by decide : validTimestamp "2026-08-23T00:04:00Z" = true) (by decide) (by
      rw [mutual_references.1, mutual_references.2]
      intro left right first second
      rw [mutual_first first, repeated_digest second]
      decide)
  rw [mutual_references.1] at repeated
  exact repeated

/-- A put whose contents are torn finds other contents with the digest of its object. -/
theorem collision_of_torn {events : List StoreEvent} {store : FederationObjectStore}
    (run : Run (StoppedStep primitives) empty events store) {observation : Observation}
    (torn : Torn (observation.filings primitives) store) :
    ∃ other, other ≠ observation.object ∧
      Digest.sha256Ref primitives other = observation.reference primitives := by
  have shape := observation.reference_shape primitives
  have clashes : Filing.Clashes ⟨.objects, fileOf ".json" (observation.reference primitives),
      observation.object⟩ store := by
    rw [Observation.filings] at torn
    cases given : observation.provenance with
    | none =>
      rw [given] at torn
      rcases torn with ⟨-, other, member, -⟩ | ⟨-, nothing⟩
      · cases member
      · cases nothing
    | some raw =>
      rw [given] at torn
      rcases torn with ⟨-, other, member, clashes⟩ | ⟨-, ⟨-, other, member, -⟩ | ⟨-, nothing⟩⟩
      · exact List.mem_singleton.mp member ▸ clashes
      · cases member
      · cases nothing
  obtain ⟨old, found, different⟩ := clashes
  have proper := legible_of_run run _ _ old (lasting_fileOf ".json" shape) found
  exact ⟨old, different, proper.contents _ shape (.inl rfl) rfl⟩

end QsolFed.FederationObjectStore
