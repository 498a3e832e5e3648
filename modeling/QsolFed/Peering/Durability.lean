import QsolFed.Peering.Trust

/-!
# Local decisions in memory and on disk

The trust registry and the policy for capabilities are kept alike: a request is staged, the file is
replaced, and then the value in memory. Both follow the rules for values kept in a file, so a
request that fails is without effect unless the file was renamed and the directory was not forced
out.
-/
namespace QsolFed

open Checked Json Canonical Crypto Peering

/-- The refusal of a step of a replacement, without the message of the file system. -/
def replaceRefusal : ReplaceStep → PeeringError
  | .remove => .code "registry_temp_remove"
  | .openTemporary => .code "registry_temp_open"
  | .write => .code "registry_write"
  | .flush => .code "registry_flush"
  | .sync => .code "registry_fsync"
  | .rename => .code "registry_rename"
  | .openParent => .code "registry_parent_open"
  | .syncParent => .code "registry_parent_fsync"

variable (primitives : Primitives)

/-- How the trust registry is kept: a request names a node and a level. -/
def TrustRegistry.kept : Persistence TrustRegistry (String × LocalTrustLevel) PeeringError where
  opens := TrustRegistry.openFile primitives
  stage request registry := registry.set primitives request.1 request.2
  refuse := replaceRefusal

/-- How the policy is kept: a request names a node, a capability and a decision. -/
def LocalCapabilityPolicy.kept :
    Persistence LocalCapabilityPolicy (String × String × CapabilityDecision) PeeringError where
  opens := LocalCapabilityPolicy.openFile primitives
  stage request policy := policy.set primitives request.1 request.2.1 request.2.2
  refuse := replaceRefusal

/-- The trust registry obeys the laws. -/
theorem TrustRegistry.lawful : (TrustRegistry.kept primitives).Lawful fun registry =>
    TrustRegistry.entriesValid registry.entries = true where
  opened := fun _ _ opened => TrustRegistry.entriesValid_openFile opened
  staged := by
    rintro ⟨nodeId, level⟩ registry bytes next valid staged
    obtain ⟨node, encoded, rfl⟩ := (TrustRegistry.set_ok_iff ..).mp staged
    have kept := TrustRegistry.entriesValid_staged valid level node
    exact ⟨kept, TrustRegistry.openFile_persisted kept encoded⟩

/-- The policy obeys the laws. -/
theorem LocalCapabilityPolicy.lawful : (LocalCapabilityPolicy.kept primitives).Lawful
    fun policy => LocalCapabilityPolicy.entriesValid policy.entries = true where
  opened := fun _ _ opened => LocalCapabilityPolicy.entriesValid_openFile opened
  staged := by
    rintro ⟨nodeId, capability, decision⟩ policy bytes next valid staged
    obtain ⟨⟨node, shape⟩, encoded, rfl⟩ := (LocalCapabilityPolicy.set_ok_iff ..).mp staged
    have kept := LocalCapabilityPolicy.entriesValid_staged valid decision node shape
    exact ⟨kept, LocalCapabilityPolicy.openFile_persisted kept encoded⟩

namespace LocalDecisions

open Persistence

/-! ## Failures -/

/-- In every run of requests from a file and the value that it is opened as, whatever goes wrong,
everything is faithful exactly when nothing is torn: a refused request is seen neither in memory nor
after opening the file, and an accepted one is seen in both, exactly when no request that changes
the value gets its file renamed and the directory not forced out. -/
theorem faithful_iff :
    (∀ start final events, (TrustRegistry.kept primitives).Agrees start →
      Run (TrustRegistry.kept primitives).Step start events final →
      ((TrustRegistry.kept primitives).FaithfulRun start events ↔
        (TrustRegistry.kept primitives).NeverTorn start events)) ∧
    ∀ start final events, (LocalCapabilityPolicy.kept primitives).Agrees start →
      Run (LocalCapabilityPolicy.kept primitives).Step start events final →
      ((LocalCapabilityPolicy.kept primitives).FaithfulRun start events ↔
        (LocalCapabilityPolicy.kept primitives).NeverTorn start events) :=
  ⟨fun _ _ _ agrees run => (TrustRegistry.lawful primitives).faithful_run_iff agrees run,
    fun _ _ _ agrees run => (LocalCapabilityPolicy.lawful primitives).faithful_run_iff agrees run⟩

/-- A registry without a file. -/
def freshTrust : Stored TrustRegistry := ⟨⟨.empty⟩, ⟨none, none⟩⟩

/-- Trust in a recorded node can be staged in a registry without a file. -/
theorem recorded_staged : ∃ bytes,
    (TrustRegistry.kept primitives).stage ("fed:qsol:remote", .trusted) freshTrust.live =
      .ok (bytes, ⟨TrustRegistry.staged ⟨.empty⟩ "fed:qsol:remote" .trusted⟩) := by
  have node : Wire.isNodeId "fed:qsol:remote" = true := by decide
  have valid : TrustRegistry.entriesValid
      (TrustRegistry.staged ⟨.empty⟩ "fed:qsol:remote" .trusted) = true :=
    TrustRegistry.entriesValid_staged rfl .trusted node
  have fits : TrustRegistry.Fits (TrustRegistry.staged ⟨.empty⟩ "fed:qsol:remote" .trusted) :=
    ⟨by decide, (size_writtenBytes_le _).trans (by decide)⟩
  obtain ⟨bytes, encoded⟩ :
      ∃ bytes, TrustRegistry.persisted primitives _ = .ok bytes :=
    (TrustRegistry.persisted_iff valid).mpr fits
  exact ⟨bytes, (TrustRegistry.set_ok_iff ..).mpr ⟨node, encoded, rfl⟩⟩

/-- Trust in a recorded node that is set without a failure is faithful. -/
theorem recorded_faithful : ∃ final,
    Run (TrustRegistry.kept (Digest.tabulated [] [])).Step freshTrust
      [.requested ("fed:qsol:remote", .trusted) .none (.ok ())] final ∧
    (TrustRegistry.kept (Digest.tabulated [] [])).FaithfulRun freshTrust
      [.requested ("fed:qsol:remote", .trusted) .none (.ok ())] := by
  obtain ⟨bytes, staged⟩ := recorded_staged (Digest.tabulated [] [])
  have settles : FileSlot.Settles .none := ⟨rfl, rfl⟩
  have renames : FileSlot.Renames .none freshTrust.slot := ⟨fun _ => rfl, fun _ _ => rfl⟩
  obtain ⟨answer, after, step, -, ⟨-, rfl, -⟩ | ⟨open_, -⟩⟩ := update_renamed staged renames
  · have agrees : (TrustRegistry.kept (Digest.tabulated [] [])).Agrees freshTrust := rfl
    refine ⟨after, .single step, ((faithful_iff _).1 _ _ _ agrees (.single step)).mpr ?_⟩
    rintro first event rest before same - torn
    obtain rfl : event = .requested ("fed:qsol:remote", .trusted) .none (.ok ()) := by
      have member : event ∈ first ++ event :: rest := by simp
      rw [← same] at member
      exact List.mem_singleton.mp member
    exact torn.2.1 settles
  · exact absurd settles open_

/-- Trust whose directory could not be forced out is refused, and still the file is opened with
it. -/
theorem recorded_torn : ∃ error after reopened,
    (TrustRegistry.kept (Digest.tabulated [] [])).Step freshTrust
      (.requested ("fed:qsol:remote", .trusted) ⟨fun step => step = .syncParent, .empty⟩
        (.error error)) after ∧
    after.live.get "fed:qsol:remote" = .unknown ∧
    TrustRegistry.openFile (Digest.tabulated [] []) after.slot.file = .ok reopened ∧
    reopened.get "fed:qsol:remote" = .trusted := by
  obtain ⟨bytes, staged⟩ := recorded_staged (Digest.tabulated [] [])
  have renames : FileSlot.Renames ⟨fun step => step = .syncParent, .empty⟩ freshTrust.slot :=
    ⟨fun _ => rfl, by decide⟩
  obtain ⟨answer, after, step, file, ⟨settles, -⟩ | ⟨-, ⟨error, rfl⟩, live⟩⟩ :=
    update_renamed staged renames
  · exact absurd settles.2 (by decide)
  · have reopens := ((TrustRegistry.lawful _).staged _ _ _ _ rfl staged).2
    refine ⟨error, after, ⟨TrustRegistry.staged ⟨.empty⟩ "fed:qsol:remote" .trusted⟩, step, ?_, ?_,
      ?_⟩
    · rw [live]
      rfl
    · rw [file]
      exact reopens
    · rw [TrustRegistry.get_staged, if_pos rfl]

/-! ## Recording -/

/-- In every run, a decision about a well-formed key whose file operations succeed is recorded
exactly when the decisions with it fit the canonical profile. Then it is the decision about its key,
every other key keeps its own, and the file is opened as the value in memory. -/
theorem recorded_iff :
    (∀ start state events, (TrustRegistry.kept primitives).Agrees start →
      Run (TrustRegistry.kept primitives).Step start events state →
      ∀ nodeId level faults answer after, Wire.isNodeId nodeId = true →
      (∀ step, faults.fails step = false) →
      (TrustRegistry.kept primitives).Step state
        (.requested (nodeId, level) faults answer) after →
      (answer = .ok () ↔ TrustRegistry.Fits (state.live.staged nodeId level)) ∧
      (answer = .ok () → (TrustRegistry.kept primitives).Agrees after ∧
        ∀ other, after.live.get other = if other = nodeId then level else state.live.get other)) ∧
    ∀ start state events, (LocalCapabilityPolicy.kept primitives).Agrees start →
      Run (LocalCapabilityPolicy.kept primitives).Step start events state →
      ∀ nodeId capability decision faults answer after, Wire.isNodeId nodeId = true →
      Wire.isCapabilityId capability = true → (∀ step, faults.fails step = false) →
      (LocalCapabilityPolicy.kept primitives).Step state
        (.requested (nodeId, capability, decision) faults answer) after →
      (answer = .ok () ↔
        LocalCapabilityPolicy.Fits (state.live.staged nodeId capability decision)) ∧
      (answer = .ok () → (LocalCapabilityPolicy.kept primitives).Agrees after ∧
        ∀ node name, after.live.decision node name =
          if node = nodeId ∧ name = capability then decision
          else state.live.decision node name) := by
  have quiet_renames : ∀ {faults : ReplaceFaults} (slot : FileSlot),
      (∀ step, faults.fails step = false) → FileSlot.Renames faults slot ∧
        FileSlot.Settles faults := by
    intro faults slot quiet
    have removed : faults.fails .remove = true → slot.temporary = none := by
      intro failing
      rw [quiet] at failing
      cases failing
    exact ⟨⟨removed, fun step _ => quiet step⟩, quiet _, quiet _⟩
  constructor
  · intro start state events agrees run nodeId level faults answer after node quiet step
    have valid := (TrustRegistry.lawful primitives).valid_of_run agrees run
    have later := TrustRegistry.entriesValid_staged valid level node
    obtain ⟨accepted, effect⟩ := update_ok_iff step
    constructor
    · rw [accepted, ← TrustRegistry.persisted_iff later]
      constructor
      · rintro ⟨⟨bytes, next, staged⟩, -⟩
        exact ⟨bytes, ((TrustRegistry.set_ok_iff ..).mp staged).2.1⟩
      · rintro ⟨bytes, encoded⟩
        exact ⟨⟨bytes, _, (TrustRegistry.set_ok_iff ..).mpr ⟨node, encoded, rfl⟩⟩,
          quiet_renames _ quiet⟩
    · intro same
      obtain ⟨bytes, staged, file⟩ := effect same
      refine ⟨?_, fun other => ?_⟩
      · rw [Agrees, file]
        exact ((TrustRegistry.lawful primitives).staged _ _ _ _ valid staged).2
      · rw [((TrustRegistry.set_ok_iff ..).mp staged).2.2, TrustRegistry.get_staged]
  · intro start state events agrees run nodeId capability decision faults answer after node shape
      quiet step
    have valid := (LocalCapabilityPolicy.lawful primitives).valid_of_run agrees run
    have later := LocalCapabilityPolicy.entriesValid_staged valid decision node shape
    obtain ⟨accepted, effect⟩ := update_ok_iff step
    constructor
    · rw [accepted, ← LocalCapabilityPolicy.persisted_iff later]
      constructor
      · rintro ⟨⟨bytes, next, staged⟩, -⟩
        exact ⟨bytes, ((LocalCapabilityPolicy.set_ok_iff ..).mp staged).2.1⟩
      · rintro ⟨bytes, encoded⟩
        exact ⟨⟨bytes, _, (LocalCapabilityPolicy.set_ok_iff ..).mpr
          ⟨⟨node, shape⟩, encoded, rfl⟩⟩, quiet_renames _ quiet⟩
    · intro same
      obtain ⟨bytes, staged, file⟩ := effect same
      refine ⟨?_, fun otherNode other => ?_⟩
      · rw [Agrees, file]
        exact ((LocalCapabilityPolicy.lawful primitives).staged _ _ _ _ valid staged).2
      · rw [((LocalCapabilityPolicy.set_ok_iff ..).mp staged).2.2,
          LocalCapabilityPolicy.decision_staged]

/-- A level for a recorded node fits a registry without a file and is recorded. -/
theorem recorded_level : ∃ after,
    (TrustRegistry.kept (Digest.tabulated [] [])).Step freshTrust
      (.requested ("fed:qsol:remote", .trusted) .none (.ok ())) after ∧
    (TrustRegistry.kept (Digest.tabulated [] [])).Agrees after ∧
    after.live.get "fed:qsol:remote" = .trusted ∧ after.live.get "fed:qsol:other" = .unknown := by
  obtain ⟨bytes, staged⟩ := recorded_staged (Digest.tabulated [] [])
  have settles : FileSlot.Settles .none := ⟨rfl, rfl⟩
  have renames : FileSlot.Renames .none freshTrust.slot := ⟨fun _ => rfl, fun _ _ => rfl⟩
  have agrees : (TrustRegistry.kept (Digest.tabulated [] [])).Agrees freshTrust := rfl
  obtain ⟨answer, after, step, -, ⟨-, rfl, -⟩ | ⟨open_, -⟩⟩ := update_renamed staged renames
  · obtain ⟨-, effect⟩ := (recorded_iff _).1 _ _ _ agrees .nil "fed:qsol:remote" .trusted .none _
      after (by decide) (fun _ => rfl) step
    obtain ⟨saved, levels⟩ := effect rfl
    refine ⟨after, step, saved, ?_, ?_⟩
    · rw [levels, if_pos rfl]
    · rw [levels, if_neg (by decide)]
      rfl
  · exact absurd settles open_

/-- A capability with a name of so many letters. -/
def longCapability (letters : Nat) : String :=
  String.ofList (List.replicate letters 'a' ++ ['/', '1'])

/-- The bytes of a capability with a long name. -/
theorem bytes_longCapability (letters : Nat) : Text.bytes (longCapability letters) =
    List.replicate letters (Wire.byte 'a') ++ [Wire.byte '/', Wire.byte '1'] := by
  have ascii : ∀ c ∈ List.replicate letters 'a' ++ ['/', '1'], Text.Ascii c := by
    intro c member
    rcases List.mem_append.mp member with letter | ending
    · rw [List.eq_of_mem_replicate letter]
      decide
    · simp only [List.mem_cons, List.not_mem_nil, or_false] at ending
      rcases ending with rfl | rfl <;> decide
  rw [longCapability, Text.bytes_ofList_ascii ascii, List.map_append, List.map_replicate]
  rfl

/-- A capability with a long name is well formed. -/
theorem isCapabilityId_long (letters : Nat) :
    Wire.isCapabilityId (longCapability (letters + 1)) = true := by
  have split : Wire.rsplitOnce (Wire.byte '/') (Text.bytes (longCapability (letters + 1))) =
      some (List.replicate (letters + 1) (Wire.byte 'a'), [Wire.byte '1']) := by
    have version : decide (Wire.byte '1' ≠ Wire.byte '/') = true := by decide
    have mark : decide (Wire.byte '/' ≠ Wire.byte '/') = false := by decide
    simp only [Wire.rsplitOnce, bytes_longCapability, List.reverse_append, List.reverse_cons,
      List.reverse_nil, List.nil_append, List.cons_append, List.dropWhile_cons,
      List.takeWhile_cons, version, mark, List.reverse_replicate, ↓reduceIte, Bool.false_eq_true]
  have whole : (List.replicate (letters + 1) (Wire.byte 'a')).splitOnP
      (fun b => b = Wire.byte '.' || b = Wire.byte '-') =
        [List.replicate (letters + 1) (Wire.byte 'a')] := by
    refine List.splitOnP_eq_singleton fun b member => ?_
    rw [List.eq_of_mem_replicate member]
    decide
  have letter : ∀ b ∈ List.replicate letters (Wire.byte 'a'),
      (Wire.isAsciiLowercase b || Wire.isAsciiDigit b) = true := by
    intro b member
    rw [List.eq_of_mem_replicate member]
    decide
  simp only [Wire.isCapabilityId, split, whole]
  rw [List.replicate_succ]
  simp only [Wire.validSegment, List.all_eq_true.mpr letter]
  decide

/-- A policy without a file refuses a well-formed capability whose name is too long for a canonical
text. -/
theorem recorded_refused : ∃ error after,
    (LocalCapabilityPolicy.kept (Digest.tabulated [] [])).Step ⟨⟨.empty⟩, ⟨none, none⟩⟩
      (.requested ("fed:qsol:remote", longCapability 8192, .allow) .none (.error error)) after ∧
    Wire.isNodeId "fed:qsol:remote" = true ∧
    Wire.isCapabilityId (longCapability 8192) = true := by
  have node : Wire.isNodeId "fed:qsol:remote" = true := by decide
  have shape := isCapabilityId_long 8191
  rcases ran : ((LocalCapabilityPolicy.kept (Digest.tabulated [] [])).update
    ("fed:qsol:remote", longCapability 8192, .allow) .none).run ⟨⟨.empty⟩, ⟨none, none⟩⟩ with
    ⟨answer, after⟩
  cases answer with
  | error error => exact ⟨error, after, ran, node, shape⟩
  | ok accepted =>
    obtain ⟨bytes, staged, -⟩ := (update_ok_iff ran).2 rfl
    obtain ⟨-, encoded, -⟩ := (LocalCapabilityPolicy.set_ok_iff ..).mp staged
    have valid := LocalCapabilityPolicy.entriesValid_staged
      (show LocalCapabilityPolicy.entriesValid OrderedMap.empty = true from rfl)
      CapabilityDecision.allow node shape
    obtain ⟨-, inner, -⟩ := (LocalCapabilityPolicy.persisted_iff valid).mp ⟨bytes, encoded⟩
    have short := (inner "fed:qsol:remote" _ (OrderedMap.get?_insert_self ..)).2
      (longCapability 8192) .allow (OrderedMap.get?_insert_self ..)
    rw [← Text.length_bytes, bytes_longCapability, List.length_append, List.length_replicate]
      at short
    exact absurd short (by decide)

end LocalDecisions

end QsolFed
