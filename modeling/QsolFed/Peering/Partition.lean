import QsolFed.Canonical.Size
import QsolFed.Peering.Registry

/-!
# Partitions

While a peer is in a partition its snapshot stays as it is, and only a successful rejoin, at that
snapshot or with an explicit reconciliation, ends the partition. A partition remembers the state
before it, unless the peer is put into the partition again while it lasts: then the state before
it is lost and no rejoin is possible any more.
-/
namespace QsolFed.PeerRegistry

open Checked Json Canonical Crypto Peering

variable {primitives : Primitives}

/-! ## Sovereignty -/

/-- A peer is in a partition with a snapshot. -/
def Partitioned (primitives : Primitives) (registry : PeerRegistry) (nodeId : String)
    (snapshot : Option String) : Prop :=
  ∃ record, registry.get primitives nodeId = .ok (some record) ∧ record.state = .disconnected ∧
    record.partitionSnapshot = snapshot

/-- A successful rejoin, at the snapshot of the partition or with an explicit reconciliation. -/
def Rejoins (nodeId : String) (snapshot : Option String)
    (event : Call × Except PeeringError Answer) : Prop :=
  ∃ remoteSnapshot explicitReconciliation updatedAt,
    event = (.confirmRejoin nodeId remoteSnapshot explicitReconciliation updatedAt, .ok .done) ∧
      (snapshot = some remoteSnapshot ∨ explicitReconciliation = true)

/-- A step keeps a partition and its snapshot, or it is a rejoin. -/
theorem Partitioned.step {registry next : PeerRegistry} {nodeId : String}
    {snapshot : Option String} {event : Call × Except PeeringError Answer}
    (partitioned : Partitioned primitives registry nodeId snapshot)
    (sound : Sound primitives registry) (stepped : Step primitives registry event next) :
    Partitioned primitives next nodeId snapshot ∨ Rejoins nodeId snapshot event := by
  obtain ⟨old, found, disconnected, rfl⟩ := partitioned
  obtain ⟨-, unchanged | ⟨before, record, read, listed, replaces⟩⟩ := step_effective sound stepped
  · exact .inl ⟨old, unchanged ▸ found, disconnected, rfl⟩
  by_cases same : nodeId = record.nodeId
  · subst same
    have kept : record.state = .disconnected → record.partitionSnapshot = old.partitionSnapshot →
        Partitioned primitives next record.nodeId old.partitionSnapshot := fun state snapshot =>
      ⟨record, (replaces _).trans (if_pos rfl), state, snapshot⟩
    rw [found] at read
    obtain rfl := Except.ok.inj read
    obtain ⟨call, answer⟩ := event
    cases listed with
    | extended | importedExtended =>
      exact .inl (kept disconnected (if_neg (not_not.mpr disconnected)))
    | attached | recorded => exact .inl (kept disconnected rfl)
    | transitioned _ target _ allowed =>
      have stays : target = .disconnected := by
        rw [disconnected] at allowed
        cases target <;> first | rfl | cases allowed
      exact .inl (kept stays rfl)
    | disconnected _ _ _ allowed => exact absurd (.inr disconnected) allowed
    | rejoined _ remoteSnapshot explicitReconciliation updatedAt _ asked =>
      exact .inr ⟨remoteSnapshot, explicitReconciliation, updatedAt, rfl, asked⟩
  · exact .inl ⟨old, (replaces nodeId).trans ((if_neg same).trans found), disconnected, rfl⟩

/-- The recorded peer after its introduction and the beginning of a partition. -/
theorem recorded_partitioned : ∃ registry,
    Run (Step peerPrimitives) empty [recordedIntroduction, recordedTransition .disconnected]
      registry ∧
    registry.get peerPrimitives Identity.recordedDocument.nodeId = .ok (some
      (recordedRecord .disconnected (some .introduced) (some recordedSnapshot) none 2)) := by
  obtain ⟨first, introduced, known⟩ := recorded_introduced
  obtain ⟨second, disconnected, found⟩ := recorded_transitioned known
    (show transitionAllowed .introduced .disconnected = true from rfl) nofun (by decide)
  exact ⟨second, .snoc (.single introduced) disconnected, found⟩

/-- A call does not put a peer into a partition that it is in already. -/
def Fresh (primitives : Primitives) (registry : PeerRegistry)
    (event : Call × Except PeeringError Answer) : Prop :=
  ∀ nodeId updatedAt, event.1 = .transition nodeId .disconnected updatedAt →
    ∀ record, registry.get primitives nodeId = .ok (some record) → record.state ≠ .disconnected

/-- A step that does not repeat a partition. -/
def FreshStep (primitives : Primitives) (registry : PeerRegistry)
    (event : Call × Except PeeringError Answer) (next : PeerRegistry) : Prop :=
  Step primitives registry event next ∧ Fresh primitives registry event

/-- Runs of such steps are runs. -/
theorem run_of_fresh {start final : PeerRegistry} {events : List (Call × Except PeeringError Answer)}
    (run : Run (FreshStep primitives) start events final) :
    Run (Step primitives) start events final := by
  induction run with
  | nil => exact .nil
  | snoc _ last ih => exact ih.snoc last.1

/-- The run of a partition: it began in a state at some step, and lasts since. -/
structure Partition (primitives : Primitives) (nodeId : String)
    (events : List (Call × Except PeeringError Answer)) (origin : PeerLifecycleState) : Prop where
  /-- The state is the one before the step that began the partition, and after that step and every
  further one the peer is in the partition. -/
  lasts : ∃ before event after start record, events = before ++ event :: after ∧
    Run (FreshStep primitives) empty before start ∧
    start.get primitives nodeId = .ok (some record) ∧ record.state = origin ∧
    ∀ head rest, after = head ++ rest → ∀ state,
      Run (FreshStep primitives) start (event :: head) state →
        ∃ snapshot, Partitioned primitives state nodeId snapshot
  /-- The peer was not in a partition before, and not revoked. -/
  open_ : origin = .introduced ∨ origin = .admitted ∨ origin = .quarantined

/-- Steps are determined by their calls. -/
theorem freshStep_functional (registry : PeerRegistry)
    (event : Call × Except PeeringError Answer) (left right : PeerRegistry)
    (one : FreshStep primitives registry event left)
    (two : FreshStep primitives registry event right) : left = right := by
  have same := one.1.symm.trans two.1
  exact congrArg Prod.snd same

/-- A partition that lasts after one more step. -/
theorem Partition.snoc {nodeId : String} {events : List (Call × Except PeeringError Answer)}
    {event : Call × Except PeeringError Answer} {origin : PeerLifecycleState}
    {registry next : PeerRegistry} {snapshot : Option String}
    (partition : Partition primitives nodeId events origin)
    (run : Run (FreshStep primitives) empty events registry)
    (last : FreshStep primitives registry event next)
    (stays : Partitioned primitives next nodeId snapshot) :
    Partition primitives nodeId (events ++ [event]) origin := by
  obtain ⟨before, first, after, start, record, rfl, began, found, state, lasts⟩ := partition.lasts
  refine ⟨⟨before, first, after ++ [event], start, record, by simp, began, found, state, ?_⟩,
    partition.open_⟩
  intro head rest split other reached
  rcases List.eq_nil_or_concat rest with rfl | ⟨initial, ending, rfl⟩
  · rw [List.append_nil] at split
    obtain ⟨middle, one, two⟩ := run.split
    obtain rfl := Run.unique freshStep_functional began one
    have whole := two.snoc last
    rw [List.cons_append, split] at whole
    obtain rfl := Run.unique freshStep_functional whole reached
    exact ⟨snapshot, stays⟩
  · rw [List.concat_eq_append, ← List.append_assoc] at split
    exact lasts head initial (List.append_inj' split rfl).1 other reached

/-- A partition that begins with a step. -/
theorem Partition.begin {nodeId : String} {events : List (Call × Except PeeringError Answer)}
    {event : Call × Except PeeringError Answer} {registry next : PeerRegistry}
    {record : PeerRecord} {snapshot : Option String}
    (run : Run (FreshStep primitives) empty events registry)
    (last : FreshStep primitives registry event next)
    (found : registry.get primitives nodeId = .ok (some record))
    (starts : Partitioned primitives next nodeId snapshot)
    (open_ : record.state ≠ .revoked ∧ record.state ≠ .disconnected) :
    Partition primitives nodeId (events ++ [event]) record.state := by
  refine ⟨⟨events, event, [], registry, record, rfl, run, found, rfl, ?_⟩, ?_⟩
  · intro head rest split state reached
    obtain ⟨rfl, rfl⟩ := List.append_eq_nil_iff.mp split.symm
    obtain rfl := Run.unique freshStep_functional (.single last) reached
    exact ⟨snapshot, starts⟩
  · cases state : record.state <;> simp_all

/-- In a run that repeats no partition every partition remembers the state before it. -/
theorem partition_remembers {registry : PeerRegistry}
    {events : List (Call × Except PeeringError Answer)}
    (run : Run (FreshStep primitives) empty events registry) {nodeId : String} {record : PeerRecord}
    (found : registry.get primitives nodeId = .ok (some record))
    (disconnected : record.state = .disconnected) :
    ∃ origin, record.preDisconnectState = some origin ∧
      Partition primitives nodeId events origin := by
  induction run generalizing record with
  | nil =>
    obtain ⟨rebuilt, stored⟩ := sound_empty.stored found
    have named : peerPath nodeId = .ok _ := (peerPath_ok_iff ..).mpr ⟨stored.node ▸
      stored.valid.isNodeId, rfl⟩
    simp only [get, named, bind_ok, empty, OrderedMap.get?_empty] at found
    cases found
  | snoc before last ih =>
    rename_i events middle final event
    have sound : Sound primitives middle := Reachable.sound ⟨_, run_of_fresh before⟩
    have lasts : ∀ old : PeerRecord, middle.get primitives nodeId = .ok (some old) →
        old.state = .disconnected → old.preDisconnectState = record.preDisconnectState →
        ∃ origin, record.preDisconnectState = some origin ∧
          Partition primitives nodeId (events ++ [event]) origin := by
      intro old read partitioned same
      obtain ⟨origin, remembered, partition⟩ := ih read partitioned
      exact ⟨origin, same ▸ remembered, partition.snoc before last ⟨record, found, disconnected, rfl⟩⟩
    have begins : ∀ old : PeerRecord, middle.get primitives nodeId = .ok (some old) →
        old.state ≠ .revoked ∧ old.state ≠ .disconnected →
        record.preDisconnectState = some old.state →
        ∃ origin, record.preDisconnectState = some origin ∧
          Partition primitives nodeId (events ++ [event]) origin := fun old read open_ same =>
      ⟨old.state, same, .begin before last read ⟨record, found, disconnected, rfl⟩ open_⟩
    obtain ⟨-, rfl | ⟨known, written, read, listed, replaces⟩⟩ := step_effective sound last.1
    · exact lasts record found disconnected rfl
    by_cases same : nodeId = written.nodeId
    · subst same
      rw [replaces, if_pos rfl] at found
      obtain rfl := Option.some.inj (Except.ok.inj found)
      have fresh := last.2
      obtain ⟨call, answer⟩ := event
      cases listed with
      | introduced | imported | importedOnly => cases disconnected
      | extended old | importedExtended old => exact lasts old read disconnected rfl
      | attached old | recorded old => exact lasts old read disconnected rfl
      | transitioned old target updatedAt allowed =>
        obtain rfl : target = .disconnected := disconnected
        have open_ := fresh _ _ rfl old read
        have notRevoked : old.state ≠ .revoked := by
          intro revoked
          rw [revoked] at allowed
          cases allowed
        exact begins old read ⟨notRevoked, open_⟩ rfl
      | disconnected old localSnapshot updatedAt allowed =>
        rw [not_or] at allowed
        exact begins old read allowed rfl
      | rejoined old remoteSnapshot explicitReconciliation updatedAt partitioned asked target =>
        rw [not_or] at target
        exact absurd disconnected target.2
    · have kept := (replaces nodeId).trans (if_neg same)
      exact lasts record (kept.symm.trans found) disconnected rfl

/-- One more is one more as long as that is small. -/
theorem saturatingSucc_toNat {value : UInt64} (small : (value.toNat : Int) ≤ safeIntegerMax) :
    (saturatingSucc value).toNat = value.toNat + 1 := by
  have limit : safeIntegerMax < 2 ^ 64 - 1 := by decide
  rw [saturatingSucc, UInt64.toNat_ofNat', Nat.min_eq_left (by omega)]
  omega

/-- A record after a partition is valid. -/
theorem rejoined_valid {record : PeerRecord} {rebuilt : IdentityState}
    (valid : RecordValid primitives record rebuilt) {target : PeerLifecycleState}
    {remoteSnapshot updatedAt : String} (open_ : target ≠ .disconnected)
    (snapshot : Wire.isSha256Ref remoteSnapshot = true)
    (updated : validTimestamp updatedAt = true) :
    RecordValid primitives (rejoinedRecord record target remoteSnapshot updatedAt) rebuilt where
  schema := valid.schema
  node := valid.node
  few := valid.few
  authority := valid.authority
  updated := updated
  snapshot := fun _ present => (Option.some.inj present) ▸ snapshot
  partition := fun same => absurd same open_
  identity := valid.identity
  sequence := valid.sequence
  fingerprint := valid.fingerprint
  advertisement := valid.advertisement

/-- A record after a partition takes no more bytes than in it. -/
theorem rejoined_fits {record : PeerRecord} {rebuilt : IdentityState}
    (valid : RecordValid primitives record rebuilt) (disconnected : record.state = .disconnected)
    (small : (record.localEventSequence.toNat : Int) ≤ safeIntegerMax)
    (target : PeerLifecycleState) {remoteSnapshot updatedAt : String}
    (snapshot : Wire.isSha256Ref remoteSnapshot = true)
    (updated : validTimestamp updatedAt = true) :
    writtenSize (Codecs.peerRecord.encode (rejoinedRecord record target remoteSnapshot updatedAt)) ≤
      writtenSize (Codecs.peerRecord.encode record) := by
  obtain ⟨remembers, hasSnapshot⟩ := valid.partition disconnected
  obtain ⟨origin, remembered⟩ := Option.isSome_iff_exists.mp remembers
  obtain ⟨old, stored⟩ := Option.isSome_iff_exists.mp hasSnapshot
  have before := (writtenSize_peerState origin).1
  have after := (writtenSize_peerState target).2
  have full : writtenSize (Codecs.peerState.encode .disconnected) = 14 := by
    rw [writtenSize_eq]
    decide
  have absent : writtenSize .null = 4 := by
    rw [writtenSize_eq]
    decide
  have oldSnapshot := writtenSize_sha256Ref (valid.snapshot old stored)
  have newSnapshot := writtenSize_sha256Ref snapshot
  have oldTime := writtenSize_timestamp (Bool.and_eq_true_iff.mp valid.updated).1
  have newTime := writtenSize_timestamp (Bool.and_eq_true_iff.mp updated).1
  have count := writtenSize_succ record.localEventSequence.toNat
  rw [← saturatingSucc_toNat small] at count
  rw [writtenSize_peerRecord, writtenSize_peerRecord]
  simp only [rejoinedRecord, touched, disconnected, remembered, stored, Codecs.nullablePeerState,
    Codecs.nullableString, Codec.nullable, Codec.string, Codec.uint64] at *
  omega

/-- A rejoin with an explicit reconciliation succeeds exactly when the number of changes can grow,
and restores the state before the partition. -/
theorem confirmRejoin_restores {registry : PeerRegistry} (sound : Sound primitives registry)
    {nodeId : String} {record : PeerRecord} {origin : PeerLifecycleState}
    (found : registry.get primitives nodeId = .ok (some record))
    (disconnected : record.state = .disconnected)
    (remembered : record.preDisconnectState = some origin)
    (open_ : origin = .introduced ∨ origin = .admitted ∨ origin = .quarantined)
    {remoteSnapshot updatedAt : String} (snapshot : Wire.isSha256Ref remoteSnapshot = true)
    (updated : validTimestamp updatedAt = true) :
    (∃ next restored,
      confirmRejoin primitives nodeId remoteSnapshot true updatedAt registry = .ok ((), next) ∧
      next.get primitives nodeId = .ok (some restored) ∧ restored.state = origin) ↔
      (record.localEventSequence.toNat : Int) < safeIntegerMax := by
  obtain ⟨rebuilt, stored⟩ := sound.stored found
  have target : record.preDisconnectState.getD .introduced = origin := by rw [remembered]; rfl
  have notRevoked : origin ≠ .revoked := by rintro rfl; simp at open_
  have notDisconnected : origin ≠ .disconnected := by rintro rfl; simp at open_
  have valid := rejoined_valid stored.valid notDisconnected snapshot updated
  have fits := rejoined_fits stored.valid disconnected stored.small origin snapshot updated
  have count := saturatingSucc_toNat stored.small
  have written := writePeer_iff valid registry
  constructor
  · rintro ⟨next, restored, confirmed, -, -⟩
    obtain ⟨-, -, other, again, -, -, -, write⟩ := (confirmRejoin_ok_iff ..).mp confirmed
    rw [found] at again
    obtain rfl := Option.some.inj (Except.ok.inj again)
    rw [target] at write
    have small := (written.mp ⟨next, write⟩).1
    change ((saturatingSucc record.localEventSequence).toNat : Int) ≤ _ at small
    omega
  · intro room
    obtain ⟨next, write⟩ := written.mpr ⟨by
      change ((saturatingSucc record.localEventSequence).toNat : Int) ≤ _
      omega, fits.trans stored.fits⟩
    refine ⟨next, rejoinedRecord record origin remoteSnapshot updatedAt, ?_, ?_, rfl⟩
    · refine (confirmRejoin_ok_iff ..).mpr ⟨updated, snapshot, record, found, disconnected,
        .inr rfl, ?_, ?_⟩
      · rw [target]
        simp [notRevoked, notDisconnected]
      · rw [target]
        exact write
    · rw [get_writePeer write, if_pos]
      exact stored.node.symm

end QsolFed.PeerRegistry
