import QsolFed.Library.Run
import QsolFed.Peering.Records

/-!
# The registry as a map from names to records

A node has its own file, so that a write replaces the record of one node and leaves the others.
Each call either leaves the record of a node as it was or writes one of the records listed here:
whatever holds of the listed records holds of every record that a run of calls leaves behind.
-/
namespace QsolFed.PeerRegistry

open Checked Json Canonical Crypto Peering

variable {primitives : Primitives}

/-! ## Files -/

/-- The name of a file is made of the name of a node. -/
theorem peerPath_ok_iff (nodeId path : String) : peerPath nodeId = .ok path ↔
    Wire.isNodeId nodeId = true ∧ String.ofList (nodeId.toList.drop 9) ++ ".json" = path := by
  simp only [peerPath, bind_ok_iff, ensure_ok_iff, exists_const, pure_ok_iff]

/-- Different nodes have different files. -/
theorem peerPath_inj {first second path : String} (one : peerPath first = .ok path)
    (two : peerPath second = .ok path) : first = second := by
  obtain ⟨firstShape, firstPath⟩ := (peerPath_ok_iff ..).mp one
  obtain ⟨secondShape, secondPath⟩ := (peerPath_ok_iff ..).mp two
  have whole : ∀ {nodeId}, Wire.isNodeId nodeId = true → Text.bytes nodeId =
      Text.bytes "fed:qsol:" ++ (nodeId.toList.drop 9).map fun c => c.val.toUInt8 := by
    intro nodeId shape
    have ascii := (plainText_of_nodeId shape).1
    have each : Text.bytes nodeId = nodeId.toList.map fun c => c.val.toUInt8 := by
      have bytes := Text.bytes_ofList_ascii ascii
      rwa [String.ofList_toList] at bytes
    simp only [Wire.isNodeId, Bool.and_eq_true] at shape
    obtain ⟨tail, split⟩ := List.isPrefixOf_iff_prefix.mp shape.1
    rw [List.map_drop, ← each, ← split]
    rfl
  have tails : first.toList.drop 9 = second.toList.drop 9 := by
    have texts := congrArg String.toList (firstPath.trans secondPath.symm)
    simpa using texts
  exact Text.bytes_injective (by rw [whole firstShape, whole secondShape, tails])

/-- A record is written exactly when it is valid and encoded. -/
theorem writePeer_ok_iff (registry next : PeerRegistry) (record : PeerRecord) :
    registry.writePeer primitives record = .ok next ↔
      ∃ rebuilt path raw, RecordValid primitives record rebuilt ∧
        peerPath record.nodeId = .ok path ∧
        canonicalStruct primitives (Codecs.peerRecord.encode record) = .ok raw ∧
        next = ⟨registry.peers.insert path raw⟩ := by
  simp only [writePeer, bind_ok_iff, pure_ok_iff]
  constructor
  · rintro ⟨⟨⟩, checked, path, named, raw, encoded, rfl⟩
    obtain ⟨rebuilt, valid⟩ := (validatePeerRecord_iff record).mp checked
    exact ⟨rebuilt, path, raw, valid, named, encoded, rfl⟩
  · rintro ⟨rebuilt, path, raw, valid, named, encoded, rfl⟩
    have checked := (validatePeerRecord_iff record).mpr ⟨rebuilt, valid⟩
    exact ⟨(), checked, path, named, raw, encoded, rfl⟩

/-- A valid record is written exactly when its number of changes is small and its text fits. -/
theorem writePeer_iff {record : PeerRecord} {rebuilt : IdentityState}
    (valid : RecordValid primitives record rebuilt) (registry : PeerRegistry) :
    (∃ next, registry.writePeer primitives record = .ok next) ↔
      (record.localEventSequence.toNat : Int) ≤ safeIntegerMax ∧
        (writtenBytes (Codecs.peerRecord.encode record)).size ≤ maxInputBytes := by
  rw [← canonicalStruct_record_iff valid]
  simp only [writePeer_ok_iff]
  constructor
  · rintro ⟨next, -, -, raw, -, -, encoded, -⟩
    exact ⟨raw, encoded⟩
  · rintro ⟨raw, encoded⟩
    exact ⟨_, rebuilt, _, raw, valid, (peerPath_ok_iff ..).mpr ⟨valid.isNodeId, rfl⟩, encoded, rfl⟩

/-- A file that holds an encoded record is read as that record. -/
theorem get_of_file {registry : PeerRegistry} {record : PeerRecord} {rebuilt : IdentityState}
    {path : String} {raw : ByteArray} (valid : RecordValid primitives record rebuilt)
    (named : peerPath record.nodeId = .ok path)
    (encoded : canonicalStruct primitives (Codecs.peerRecord.encode record) = .ok raw)
    (stored : registry.peers.get? path = some raw) :
    registry.get primitives record.nodeId = .ok (some record) := by
  obtain ⟨small, -⟩ := (canonicalStruct_record_iff valid).mp ⟨raw, encoded⟩
  have read := fromSlice_struct Codecs.peerRecord record (valid.plain small)
    ((nesting_peerRecord record).trans_lt (by decide)) encoded
  have checked := (validatePeerRecord_iff record).mpr ⟨rebuilt, valid⟩
  simp only [get, named, bind_ok, stored, requireExactCanonical_of_struct encoded, read, okOr,
    checked]
  rfl

/-- A write replaces the record of its node and leaves the others. -/
theorem get_writePeer {registry next : PeerRegistry} {record : PeerRecord}
    (written : registry.writePeer primitives record = .ok next) (nodeId : String) :
    next.get primitives nodeId =
      if nodeId = record.nodeId then .ok (some record) else registry.get primitives nodeId := by
  obtain ⟨rebuilt, path, raw, valid, named, encoded, rfl⟩ := (writePeer_ok_iff ..).mp written
  split_ifs with here
  · subst here
    exact get_of_file valid named encoded (OrderedMap.get?_insert_self ..)
  · unfold get
    cases other : peerPath nodeId with
    | error error => rfl
    | ok otherPath =>
      have apart : otherPath ≠ path := fun same => here (peerPath_inj other (same ▸ named))
      simp only [bind_ok, OrderedMap.get?_insert_of_ne _ _ apart]

/-- Every file of a registry is the one of a valid record. -/
def Sound (primitives : Primitives) (registry : PeerRegistry) : Prop :=
  ∀ path raw, registry.peers.get? path = some raw →
    ∃ record rebuilt, RecordValid primitives record rebuilt ∧
      peerPath record.nodeId = .ok path ∧
      canonicalStruct primitives (Codecs.peerRecord.encode record) = .ok raw

/-- The registry without peers is sound. -/
theorem sound_empty : Sound primitives empty := fun path raw stored => by
  simp [empty, OrderedMap.get?_empty] at stored

/-- A write keeps a registry sound. -/
theorem Sound.writePeer {registry next : PeerRegistry} {record : PeerRecord}
    (sound : Sound primitives registry)
    (written : registry.writePeer primitives record = .ok next) : Sound primitives next := by
  obtain ⟨rebuilt, path, raw, valid, named, encoded, rfl⟩ := (writePeer_ok_iff ..).mp written
  intro other otherRaw stored
  rw [OrderedMap.get?_insert] at stored
  split_ifs at stored with here
  · obtain rfl := Option.some.inj stored
    exact ⟨record, rebuilt, valid, here ▸ named, encoded⟩
  · exact sound other otherRaw stored

/-- The record of every node is read from a sound registry. -/
theorem Sound.get_total {registry : PeerRegistry} (sound : Sound primitives registry)
    {nodeId : String} (shape : Wire.isNodeId nodeId = true) :
    ∃ found, registry.get primitives nodeId = .ok found := by
  have named : peerPath nodeId = .ok _ := (peerPath_ok_iff ..).mpr ⟨shape, rfl⟩
  cases stored : registry.peers.get? (String.ofList (nodeId.toList.drop 9) ++ ".json") with
  | none => exact ⟨none, by simp only [get, named, bind_ok, stored]; rfl⟩
  | some raw =>
    obtain ⟨record, rebuilt, valid, path, encoded⟩ := sound _ raw stored
    obtain rfl := peerPath_inj path named
    exact ⟨some record, get_of_file valid path encoded stored⟩

/-- What a record that was read guarantees. -/
structure Stored (primitives : Primitives) (registry : PeerRegistry) (nodeId : String)
    (record : PeerRecord) (rebuilt : IdentityState) : Prop where
  /-- The record is read. -/
  found : registry.get primitives nodeId = .ok (some record)
  /-- It is the one of the node. -/
  node : record.nodeId = nodeId
  /-- It is valid. -/
  valid : RecordValid primitives record rebuilt
  /-- Its number of changes is small. -/
  small : (record.localEventSequence.toNat : Int) ≤ safeIntegerMax
  /-- Its text fits. -/
  fits : (writtenBytes (Codecs.peerRecord.encode record)).size ≤ maxInputBytes

/-- What a sound registry finds is a valid record of the node. -/
theorem Sound.stored {registry : PeerRegistry} (sound : Sound primitives registry)
    {nodeId : String} {record : PeerRecord}
    (found : registry.get primitives nodeId = .ok (some record)) :
    ∃ rebuilt, Stored primitives registry nodeId record rebuilt := by
  obtain ⟨path, named, -⟩ := (bind_ok_iff ..).mp found
  have read := found
  simp only [get, named, bind_ok] at read
  cases stored : registry.peers.get? path with
  | none =>
    rw [stored] at read
    cases read
  | some raw =>
    obtain ⟨other, rebuilt, valid, path, encoded⟩ := sound _ raw stored
    obtain rfl := peerPath_inj path named
    have same := get_of_file valid path encoded stored
    rw [found] at same
    obtain rfl := Option.some.inj (Except.ok.inj same)
    obtain ⟨small, fits⟩ := (canonicalStruct_record_iff valid).mp ⟨raw, encoded⟩
    exact ⟨rebuilt, found, rfl, valid, small, fits⟩

/-! ## What each call does -/

/-- A known record is found. -/
theorem getKnown_ok_iff (registry : PeerRegistry) (nodeId unknown : String) (record : PeerRecord) :
    registry.getKnown primitives nodeId unknown = .ok record ↔
      registry.get primitives nodeId = .ok (some record) := by
  simp only [getKnown, bind_ok_iff, okOr_ok_iff]
  constructor
  · rintro ⟨found, read, rfl⟩
    exact read
  · intro read
    exact ⟨_, read, rfl⟩

/-- A transition writes the record in another state. -/
theorem transition_ok_iff (registry next : PeerRegistry) (nodeId : String)
    (target : PeerLifecycleState) (updatedAt : String) :
    transition primitives nodeId target updatedAt registry = .ok ((), next) ↔
      validTimestamp updatedAt = true ∧ ∃ record,
        registry.get primitives nodeId = .ok (some record) ∧
        transitionAllowed record.state target = true ∧
        registry.writePeer primitives (transitionedRecord record target updatedAt) = .ok next := by
  simp only [transition, bind_ok_iff, ensure_ok_iff, exists_const, getKnown_ok_iff, pure_ok_iff,
    Prod.mk.injEq, true_and]
  constructor
  · rintro ⟨valid, record, found, allowed, _, written, rfl⟩
    exact ⟨valid, record, found, allowed, written⟩
  · rintro ⟨valid, record, found, allowed, written⟩
    exact ⟨valid, record, found, allowed, next, written, rfl⟩

/-- The beginning of a partition writes the record in the partition. -/
theorem disconnect_ok_iff (registry next : PeerRegistry) (nodeId localSnapshot updatedAt : String) :
    disconnect primitives nodeId localSnapshot updatedAt registry = .ok ((), next) ↔
      (Wire.isSha256Ref localSnapshot = true ∧ validTimestamp updatedAt = true) ∧ ∃ record,
        registry.get primitives nodeId = .ok (some record) ∧
        ¬(record.state = .revoked ∨ record.state = .disconnected) ∧
        registry.writePeer primitives (disconnectedRecord record localSnapshot updatedAt) =
          .ok next := by
  simp only [disconnect, bind_ok_iff, ensure_ok_iff, exists_const, getKnown_ok_iff, pure_ok_iff,
    Prod.mk.injEq, true_and]
  constructor
  · rintro ⟨valid, record, found, allowed, _, written, rfl⟩
    exact ⟨valid, record, found, allowed, written⟩
  · rintro ⟨valid, record, found, allowed, written⟩
    exact ⟨valid, record, found, allowed, next, written, rfl⟩

/-- A rejoin is proposed to a peer in a partition. -/
theorem proposeRejoin_ok_iff (registry : PeerRegistry) (nodeId remoteSnapshot : String)
    (disposition : RejoinDisposition) :
    registry.proposeRejoin primitives nodeId remoteSnapshot = .ok disposition ↔
      Wire.isSha256Ref remoteSnapshot = true ∧ ∃ record,
        registry.get primitives nodeId = .ok (some record) ∧ record.state = .disconnected ∧
        (if record.partitionSnapshot = some remoteSnapshot then RejoinDisposition.clean
          else .explicitReconciliationRequired) = disposition := by
  simp only [proposeRejoin, bind_ok_iff, ensure_ok_iff, exists_const, getKnown_ok_iff, pure_ok_iff]

/-- The end of a partition writes the record in the state before it. -/
theorem confirmRejoin_ok_iff (registry next : PeerRegistry) (nodeId remoteSnapshot : String)
    (explicitReconciliation : Bool) (updatedAt : String) :
    confirmRejoin primitives nodeId remoteSnapshot explicitReconciliation updatedAt registry =
        .ok ((), next) ↔
      validTimestamp updatedAt = true ∧ Wire.isSha256Ref remoteSnapshot = true ∧ ∃ record,
        registry.get primitives nodeId = .ok (some record) ∧ record.state = .disconnected ∧
        (record.partitionSnapshot = some remoteSnapshot ∨ explicitReconciliation = true) ∧
        ¬(record.preDisconnectState.getD .introduced = .revoked ∨
          record.preDisconnectState.getD .introduced = .disconnected) ∧
        registry.writePeer primitives (rejoinedRecord record
          (record.preDisconnectState.getD .introduced) remoteSnapshot updatedAt) = .ok next := by
  simp only [confirmRejoin, bind_ok_iff, ensure_ok_iff, exists_const, getKnown_ok_iff, pure_ok_iff,
    Prod.mk.injEq, true_and, proposeRejoin_ok_iff]
  constructor
  · rintro ⟨valid, disposition, ⟨shape, record, found, partitioned, rfl⟩, asked, other, again,
      target, _, written, rfl⟩
    rw [found] at again
    obtain rfl := Option.some.inj (Except.ok.inj again)
    refine ⟨valid, shape, record, found, partitioned, ?_, target, written⟩
    by_cases clean : record.partitionSnapshot = some remoteSnapshot
    · exact .inl clean
    · rw [if_neg clean] at asked
      simp only [true_and, Bool.not_eq_false] at asked
      exact .inr asked
  · rintro ⟨valid, shape, record, found, partitioned, asked, target, written⟩
    refine ⟨valid, _, ⟨shape, record, found, partitioned, rfl⟩, ?_, record, found, target, next,
      written, rfl⟩
    rcases asked with clean | explicit
    · simp [clean]
    · simp [explicit]

/-- An advertisement from an archive is stored already or written. -/
theorem attach_ok_iff (registry next : PeerRegistry) (nodeId : String)
    (advertisement : CapabilityAdvertisement) (updatedAt : String) :
    attachArchivalCapabilityAdvertisement primitives nodeId advertisement updatedAt registry =
        .ok ((), next) ↔
      (validTimestamp updatedAt = true ∧ advertisement.nodeId = nodeId) ∧ ∃ record,
        registry.get primitives nodeId = .ok (some record) ∧ ∃ identity,
        rebuildPeerIdentity primitives record.identity record.lifecycle = .ok identity ∧
        AdvertisementVerified primitives advertisement identity ∧
        ((isStoredAdvertisement primitives record advertisement = .ok true ∧ next = registry) ∨
          (isStoredAdvertisement primitives record advertisement = .ok false ∧
            registry.writePeer primitives (advertisedRecord record advertisement updatedAt) =
              .ok next)) := by
  simp only [attachArchivalCapabilityAdvertisement, bind_ok_iff, ensure_ok_iff, exists_const,
    getKnown_ok_iff]
  constructor
  · rintro ⟨valid, record, found, identity, rebuilt, ⟨⟩, verified, known, compared, rest⟩
    refine ⟨valid, record, found, identity, rebuilt,
      (verifyCapabilityAdvertisementSignature_iff ..).mp verified, ?_⟩
    cases known with
    | true =>
      simp only [↓reduceIte, pure_ok_iff, Prod.mk.injEq, true_and] at rest
      exact .inl ⟨compared, rest.symm⟩
    | false =>
      simp only [Bool.false_eq_true, ↓reduceIte, bind_ok_iff, pure_ok_iff, Prod.mk.injEq, true_and,
        exists_eq_right] at rest
      exact .inr ⟨compared, rest⟩
  · rintro ⟨valid, record, found, identity, rebuilt, verified, outcome⟩
    refine ⟨valid, record, found, identity, rebuilt, (),
      (verifyCapabilityAdvertisementSignature_iff ..).mpr verified, ?_⟩
    rcases outcome with ⟨compared, rfl⟩ | ⟨compared, written⟩
    · exact ⟨true, compared, rfl⟩
    · refine ⟨false, compared, ?_⟩
      simp only [Bool.false_eq_true, ↓reduceIte, written, bind_ok]
      rfl

/-- An advertisement of a peer is stored already or written. -/
theorem recordCapability_ok_iff (registry next : PeerRegistry)
    (advertisement : CapabilityAdvertisement) (nowUnix : Int) (updatedAt : String)
    (disposition : RegistryWriteDisposition) :
    recordCapabilityAdvertisement primitives advertisement nowUnix updatedAt registry =
        .ok (disposition, next) ↔
      validTimestamp updatedAt = true ∧ ∃ record,
        registry.get primitives advertisement.nodeId = .ok (some record) ∧ ∃ identity,
        rebuildPeerIdentity primitives record.identity record.lifecycle = .ok identity ∧
        verifyCapabilityAdvertisement primitives advertisement identity nowUnix = .ok () ∧
        ((isStoredAdvertisement primitives record advertisement = .ok true ∧
            disposition = .duplicate ∧ next = registry) ∨
          (isStoredAdvertisement primitives record advertisement = .ok false ∧
            disposition = .applied ∧
            registry.writePeer primitives (advertisedRecord record advertisement updatedAt) =
              .ok next)) := by
  simp only [recordCapabilityAdvertisement, bind_ok_iff, ensure_ok_iff, exists_const,
    getKnown_ok_iff]
  constructor
  · rintro ⟨valid, record, found, identity, rebuilt, ⟨⟩, verified, known, compared, rest⟩
    refine ⟨valid, record, found, identity, rebuilt, verified, ?_⟩
    cases known with
    | true =>
      simp only [↓reduceIte, pure_ok_iff, Prod.mk.injEq] at rest
      exact .inl ⟨compared, rest.1.symm, rest.2.symm⟩
    | false =>
      simp only [Bool.false_eq_true, ↓reduceIte, bind_ok_iff, pure_ok_iff, Prod.mk.injEq] at rest
      obtain ⟨_, written, rfl, rfl⟩ := rest
      exact .inr ⟨compared, rfl, written⟩
  · rintro ⟨valid, record, found, identity, rebuilt, verified, outcome⟩
    refine ⟨valid, record, found, identity, rebuilt, (), verified, ?_⟩
    rcases outcome with ⟨compared, rfl, rfl⟩ | ⟨compared, rfl, written⟩
    · exact ⟨true, compared, rfl⟩
    · refine ⟨false, compared, ?_⟩
      simp only [Bool.false_eq_true, ↓reduceIte, written, bind_ok]
      rfl

/-- An advertisement is stored already or written. -/
theorem recordCapability_cases {registry next : PeerRegistry}
    {advertisement : CapabilityAdvertisement} {nowUnix : Int} {updatedAt : String}
    {disposition : RegistryWriteDisposition}
    (recorded : recordCapabilityAdvertisement primitives advertisement nowUnix updatedAt registry =
      .ok (disposition, next)) :
    next = registry ∨ disposition = .applied ∧ ∃ record,
      registry.get primitives advertisement.nodeId = .ok (some record) ∧
      registry.writePeer primitives (advertisedRecord record advertisement updatedAt) =
        .ok next := by
  obtain ⟨-, record, found, identity, -, -, outcome⟩ := (recordCapability_ok_iff ..).mp recorded
  rcases outcome with ⟨-, -, unchanged⟩ | ⟨-, applied, written⟩
  · exact .inl unchanged
  · exact .inr ⟨applied, record, found, written⟩

/-- The stored document and the offered one have the same canonical bytes. -/
def SameDocument (primitives : Primitives) (old offered : NodeIdentityDocument) : Prop :=
  ∃ bytes, canonicalStruct primitives (Codecs.identity.encode old) = .ok bytes ∧
    canonicalStruct primitives (Codecs.identity.encode offered) = .ok bytes

/-- What becomes of an introduction, after the identity was rebuilt. -/
inductive Introduced (primitives : Primitives) (registry next : PeerRegistry)
    (identity : NodeIdentityDocument) (lifecycle : List PeerLifecycleRecord)
    (observedSnapshot : Option String) (updatedAt : String) (state : IdentityState)
    (fingerprint : String) : RegistryWriteDisposition → Prop where
  /-- The peer is new. -/
  | new (unknown : registry.get primitives identity.nodeId = .ok none)
      (written : registry.writePeer primitives (introducedRecord identity lifecycle observedSnapshot
        updatedAt fingerprint state.sequence) = .ok next) :
      Introduced primitives registry next identity lifecycle observedSnapshot updatedAt state
        fingerprint .applied
  /-- The peer shows what is stored. -/
  | duplicate (old : PeerRecord) (found : registry.get primitives identity.nodeId = .ok (some old))
      (open_ : old.state ≠ .revoked) (same : SameDocument primitives old.identity identity)
      (sequence : state.sequence = old.lifecycleSequence)
      (fingerprints : old.identityFingerprint = fingerprint) (unchanged : next = registry) :
      Introduced primitives registry next identity lifecycle observedSnapshot updatedAt state
        fingerprint .duplicate
  /-- The peer shows a longer lifecycle. -/
  | extended (old : PeerRecord) (found : registry.get primitives identity.nodeId = .ok (some old))
      (open_ : old.state ≠ .revoked) (same : SameDocument primitives old.identity identity)
      (sequence : old.lifecycleSequence < state.sequence)
      (extends_ : requireLifecyclePrefix primitives old.lifecycle lifecycle = .ok ())
      (written : registry.writePeer primitives (extendedRecord old lifecycle observedSnapshot
        updatedAt fingerprint state.sequence) = .ok next) :
      Introduced primitives registry next identity lifecycle observedSnapshot updatedAt state
        fingerprint .applied

/-- An introduction succeeds exactly in these ways. -/
theorem introduce_ok_iff (registry next : PeerRegistry) (identity : NodeIdentityDocument)
    (lifecycle : List PeerLifecycleRecord) (observedSnapshot : Option String) (updatedAt : String)
    (disposition : RegistryWriteDisposition) :
    introduce primitives identity lifecycle observedSnapshot updatedAt registry =
        .ok (disposition, next) ↔
      (lifecycle.length ≤ maxPeerLifecycleRecords ∧ validTimestamp updatedAt = true) ∧
      (∀ text ∈ observedSnapshot, Wire.isSha256Ref text = true) ∧
      ∃ state fingerprint, rebuildPeerIdentity primitives identity lifecycle = .ok state ∧
        identityFingerprint primitives identity lifecycle = .ok fingerprint ∧
        Introduced primitives registry next identity lifecycle observedSnapshot updatedAt state
          fingerprint disposition := by
  simp only [introduce, bind_ok_iff, ensure_ok_iff, exists_const, Option.all_eq_true]
  constructor
  · rintro ⟨limits, snapshot, state, rebuilt, fingerprint, computed, found, read, rest⟩
    refine ⟨limits, snapshot, state, fingerprint, rebuilt, computed, ?_⟩
    cases found with
    | none =>
      simp only [bind_ok_iff, pure_ok_iff, Prod.mk.injEq] at rest
      obtain ⟨_, written, rfl, rfl⟩ := rest
      exact .new read written
    | some old =>
      simp only [bind_ok_iff, ensure_ok_iff, exists_const] at rest
      obtain ⟨open_, stored, storedBytes, offered, offeredBytes, rfl, newer, rest⟩ := rest
      have same : SameDocument primitives old.identity identity :=
        ⟨stored, storedBytes, offeredBytes⟩
      by_cases equal : state.sequence = old.lifecycleSequence
      · simp only [if_pos equal, bind_ok_iff, ensure_ok_iff, exists_const, pure_ok_iff,
          Prod.mk.injEq] at rest
        obtain ⟨fingerprints, rfl, rfl⟩ := rest
        exact .duplicate old read open_ same equal fingerprints rfl
      · simp only [if_neg equal, bind_ok_iff, pure_ok_iff, Prod.mk.injEq] at rest
        obtain ⟨_, extends_, _, written, rfl, rfl⟩ := rest
        have longer : old.lifecycleSequence < state.sequence :=
          UInt64.lt_of_le_of_ne (UInt64.not_lt.mp newer) (Ne.symm equal)
        exact .extended old read open_ same longer extends_ written
  · rintro ⟨limits, snapshot, state, fingerprint, rebuilt, computed, outcome⟩
    refine ⟨limits, snapshot, state, rebuilt, fingerprint, computed, ?_⟩
    cases outcome with
    | new unknown written =>
      refine ⟨none, unknown, ?_⟩
      simp only [written, bind_ok]
      rfl
    | duplicate old found open_ same sequence fingerprints unchanged =>
      obtain ⟨bytes, stored, offered⟩ := same
      refine ⟨some old, found, ?_⟩
      have newer : ¬state.sequence < old.lifecycleSequence := sequence ▸ UInt64.lt_irrefl _
      simp only [ensure_pos open_, stored, offered, bind_ok, ensure_pos, ensure_pos newer,
        if_pos sequence, ensure_pos fingerprints, unchanged]
      rfl
    | extended old found open_ same sequence extends_ written =>
      obtain ⟨bytes, stored, offered⟩ := same
      refine ⟨some old, found, ?_⟩
      have newer : ¬state.sequence < old.lifecycleSequence := UInt64.lt_asymm sequence
      have longer : ¬state.sequence = old.lifecycleSequence := (UInt64.ne_of_lt sequence).symm
      simp only [ensure_pos open_, stored, offered, bind_ok, ensure_pos, ensure_pos newer,
        if_neg longer, extends_, written]
      rfl

/-! ## Runs of calls -/

/-- The records that a call writes over what was found before. -/
inductive Written : Call → Except PeeringError Answer → Option PeerRecord → PeerRecord → Prop where
  /-- A new peer is introduced. -/
  | introduced (identity lifecycle observedSnapshot updatedAt fingerprint sequence) :
      Written (.introduce identity lifecycle observedSnapshot updatedAt) (.ok (.written .applied))
        none
        (introducedRecord identity lifecycle observedSnapshot updatedAt fingerprint sequence)
  /-- A known peer shows a longer lifecycle. -/
  | extended (old identity lifecycle observedSnapshot updatedAt fingerprint sequence)
      (open_ : old.state ≠ .revoked) :
      Written (.introduce identity lifecycle observedSnapshot updatedAt) (.ok (.written .applied))
        (some old) (extendedRecord old lifecycle observedSnapshot updatedAt fingerprint sequence)
  /-- A new peer is imported. -/
  | imported (identity lifecycle updatedAt fingerprint sequence) :
      Written (.importQuarantined identity lifecycle updatedAt) (.ok (.written .applied)) none
        (transitionedRecord
          (introducedRecord identity lifecycle none updatedAt fingerprint sequence) .quarantined
          updatedAt)
  /-- A new peer is imported, but not quarantined. -/
  | importedOnly (identity lifecycle updatedAt fingerprint sequence error) :
      Written (.importQuarantined identity lifecycle updatedAt) (.error error) none
        (introducedRecord identity lifecycle none updatedAt fingerprint sequence)
  /-- A known peer is imported with a longer lifecycle. -/
  | importedExtended (old identity lifecycle updatedAt fingerprint sequence)
      (open_ : old.state ≠ .revoked) :
      Written (.importQuarantined identity lifecycle updatedAt) (.ok (.written .applied)) (some old)
        (extendedRecord old lifecycle none updatedAt fingerprint sequence)
  /-- An advertisement is attached. -/
  | attached (old advertisement updatedAt) :
      Written (.attachArchival old.nodeId advertisement updatedAt) (.ok .done) (some old)
        (advertisedRecord old advertisement updatedAt)
  /-- An advertisement is recorded. -/
  | recorded (old advertisement nowUnix updatedAt) :
      Written (.recordCapability advertisement nowUnix updatedAt) (.ok (.written .applied))
        (some old) (advertisedRecord old advertisement updatedAt)
  /-- The state is changed. -/
  | transitioned (old target updatedAt)
      (allowed : transitionAllowed old.state target = true) :
      Written (.transition old.nodeId target updatedAt) (.ok .done) (some old)
        (transitionedRecord old target updatedAt)
  /-- A partition begins. -/
  | disconnected (old localSnapshot updatedAt)
      (allowed : ¬(old.state = .revoked ∨ old.state = .disconnected)) :
      Written (.disconnect old.nodeId localSnapshot updatedAt) (.ok .done) (some old)
        (disconnectedRecord old localSnapshot updatedAt)
  /-- A partition ends. -/
  | rejoined (old remoteSnapshot explicitReconciliation updatedAt)
      (partitioned : old.state = .disconnected)
      (asked : old.partitionSnapshot = some remoteSnapshot ∨ explicitReconciliation = true)
      (target : ¬(old.preDisconnectState.getD .introduced = .revoked ∨
        old.preDisconnectState.getD .introduced = .disconnected)) :
      Written (.confirmRejoin old.nodeId remoteSnapshot explicitReconciliation updatedAt)
        (.ok .done) (some old)
        (rejoinedRecord old (old.preDisconnectState.getD .introduced) remoteSnapshot updatedAt)

/-- A call answers and leaves a registry. -/
def Step (primitives : Primitives) (registry : PeerRegistry)
    (event : Call × Except PeeringError Answer) (next : PeerRegistry) : Prop :=
  (event.1.effect primitives).run registry = (event.2, next)

/-- The registries that calls lead to. -/
def Reachable (primitives : Primitives) (registry : PeerRegistry) : Prop :=
  ∃ events, Run (Step primitives) empty events registry

/-- The record of one node is replaced, and the others are left. -/
def Replaces (primitives : Primitives) (registry : PeerRegistry) (record : PeerRecord)
    (next : PeerRegistry) : Prop :=
  ∀ nodeId, next.get primitives nodeId =
    if nodeId = record.nodeId then .ok (some record) else registry.get primitives nodeId

/-- What a call does: nothing, or it writes one of the listed records. -/
def Effective (primitives : Primitives) (registry : PeerRegistry)
    (event : Call × Except PeeringError Answer) (next : PeerRegistry) : Prop :=
  next = registry ∨ ∃ found record, registry.get primitives record.nodeId = .ok found ∧
    Written event.1 event.2 found record ∧ Replaces primitives registry record next

/-- A written record replaces the one of its node. -/
theorem effective_of_write {registry next : PeerRegistry} {found : Option PeerRecord}
    {record : PeerRecord} {call : Call} {answer : Except PeeringError Answer}
    (sound : Sound primitives registry)
    (write : registry.writePeer primitives record = .ok next)
    (listed : Written call answer found record)
    (read : registry.get primitives record.nodeId = .ok found) :
    Sound primitives next ∧ Effective primitives registry (call, answer) next :=
  ⟨sound.writePeer write, .inr ⟨found, record, read, listed, get_writePeer write⟩⟩

/-- The effect of an introduction. -/
theorem introduce_effective {registry next : PeerRegistry} {identity : NodeIdentityDocument}
    {lifecycle : List PeerLifecycleRecord} {observedSnapshot : Option String} {updatedAt : String}
    {disposition : RegistryWriteDisposition} (sound : Sound primitives registry)
    (ran : introduce primitives identity lifecycle observedSnapshot updatedAt registry =
      .ok (disposition, next)) :
    Sound primitives next ∧ Effective primitives registry
      (.introduce identity lifecycle observedSnapshot updatedAt, .ok (.written disposition)) next := by
  obtain ⟨-, -, state, fingerprint, -, -, outcome⟩ := (introduce_ok_iff ..).mp ran
  cases outcome with
  | new unknown written => exact effective_of_write sound written (.introduced ..) unknown
  | duplicate old found open_ same sequence fingerprints unchanged =>
    exact ⟨unchanged ▸ sound, .inl unchanged⟩
  | extended old found open_ same sequence extends_ written =>
    obtain ⟨rebuilt, stored⟩ := sound.stored found
    have node : old.nodeId = identity.nodeId := stored.node
    exact effective_of_write sound written (.extended _ _ _ _ _ _ _ open_) (node ▸ found)

/-- The effect of an import. -/
theorem importQuarantined_effective {registry next : PeerRegistry}
    {identity : NodeIdentityDocument} {lifecycle : List PeerLifecycleRecord} {updatedAt : String}
    {answer : Except PeeringError RegistryWriteDisposition} (sound : Sound primitives registry)
    (ran : (importQuarantined primitives identity lifecycle updatedAt).run registry =
      (answer, next)) :
    Sound primitives next ∧ Effective primitives registry
      (.importQuarantined identity lifecycle updatedAt, answer.map .written) next := by
  simp only [importQuarantined, Effect.run_bind, Effect.run_read, Effect.run_atomic] at ran
  cases read : registry.get primitives identity.nodeId with
  | error error =>
    simp only [read, Except.map] at ran
    obtain ⟨rfl, rfl⟩ := Prod.mk.inj ran
    exact ⟨sound, .inl rfl⟩
  | ok found =>
    simp only [read, Except.map] at ran
    cases introduced : introduce primitives identity lifecycle none updatedAt registry with
    | error error =>
      simp only [introduced] at ran
      obtain ⟨rfl, rfl⟩ := Prod.mk.inj ran
      exact ⟨sound, .inl rfl⟩
    | ok result =>
      obtain ⟨disposition, middle⟩ := result
      simp only [introduced] at ran
      obtain ⟨-, -, state, fingerprint, -, -, outcome⟩ := (introduce_ok_iff ..).mp introduced
      cases outcome with
      | new unknown written =>
        rw [read] at unknown
        obtain rfl := Except.ok.inj unknown
        have soundMiddle := sound.writePeer written
        have first : middle.get primitives identity.nodeId = .ok (some _) :=
          (get_writePeer written identity.nodeId).trans (if_pos rfl)
        simp only [Option.isSome_none, Bool.false_eq_true, ↓reduceIte, Effect.run_bind,
          Effect.run_atomic] at ran
        cases second : transition primitives identity.nodeId .quarantined updatedAt middle with
        | error error =>
          simp only [second] at ran
          obtain ⟨rfl, rfl⟩ := Prod.mk.inj ran
          exact effective_of_write sound written (.importedOnly _ _ _ _ _ error) read
        | ok result =>
          obtain ⟨⟨⟩, final⟩ := result
          simp only [second, Effect.run_pure] at ran
          obtain ⟨rfl, rfl⟩ := Prod.mk.inj ran
          obtain ⟨-, record, again, -, last⟩ := (transition_ok_iff ..).mp second
          rw [first] at again
          obtain rfl := Option.some.inj (Except.ok.inj again)
          refine ⟨soundMiddle.writePeer last, .inr ⟨none, _, read,
            .imported identity lifecycle updatedAt fingerprint state.sequence, fun nodeId => ?_⟩⟩
          rw [get_writePeer last, get_writePeer written]
          split_ifs with here other
          · rfl
          · exact absurd other here
          · rfl
      | duplicate old known open_ same sequence fingerprints unchanged =>
        rw [read] at known
        obtain rfl := Except.ok.inj known
        simp only [Option.isSome_some, ↓reduceIte, Effect.run_pure] at ran
        obtain ⟨-, rfl⟩ := Prod.mk.inj ran
        exact ⟨unchanged ▸ sound, .inl unchanged⟩
      | extended old known open_ same sequence extends_ written =>
        obtain ⟨rebuilt, stored⟩ := sound.stored known
        have node : old.nodeId = identity.nodeId := stored.node
        rw [known] at read
        obtain rfl := Except.ok.inj read
        simp only [Option.isSome_some, ↓reduceIte, Effect.run_pure] at ran
        obtain ⟨rfl, rfl⟩ := Prod.mk.inj ran
        exact effective_of_write sound written (.importedExtended _ _ _ _ _ _ open_) (node ▸ known)

/-- The effect of an atomic call: it fails and changes nothing, or its operation succeeds. -/
theorem atomic_effective {α : Type} {registry next : PeerRegistry} {call : Call}
    {operation : PeerRegistry → Except PeeringError (α × PeerRegistry)} {answer : α → Answer}
    {result : Except PeeringError Answer} (sound : Sound primitives registry)
    (ran : (answer <$> Effect.atomic operation).run registry = (result, next))
    (succeeded : ∀ value, operation registry = .ok (value, next) →
      Sound primitives next ∧ Effective primitives registry (call, .ok (answer value)) next) :
    Sound primitives next ∧ Effective primitives registry (call, result) next := by
  rcases Effect.run_map_atomic_cases ran with ⟨error, -, rfl⟩ | ⟨value, operated, rfl⟩
  · exact ⟨sound, .inl rfl⟩
  · exact succeeded value operated

/-- Every call of a sound registry leaves it sound and does one of the listed things. -/
theorem step_effective {registry next : PeerRegistry} {event : Call × Except PeeringError Answer}
    (sound : Sound primitives registry) (stepped : Step primitives registry event next) :
    Sound primitives next ∧ Effective primitives registry event next := by
  obtain ⟨call, result⟩ := event
  cases call with
  | introduce identity lifecycle observedSnapshot updatedAt =>
    exact atomic_effective sound stepped fun _ ran => introduce_effective sound ran
  | importQuarantined identity lifecycle updatedAt =>
    simp only [Step, Call.effect, Effect.run_map] at stepped
    obtain ⟨rfl, rfl⟩ := Prod.mk.inj stepped
    exact importQuarantined_effective sound rfl
  | attachArchival nodeId advertisement updatedAt =>
    refine atomic_effective sound stepped fun _ ran => ?_
    obtain ⟨-, record, found, identity, -, -, outcome⟩ := (attach_ok_iff ..).mp ran
    obtain ⟨rebuilt, stored⟩ := sound.stored found
    rcases outcome with ⟨-, unchanged⟩ | ⟨-, written⟩
    · exact ⟨unchanged ▸ sound, .inl unchanged⟩
    · obtain rfl := stored.node
      exact effective_of_write sound written (.attached ..) found
  | recordCapability advertisement nowUnix updatedAt =>
    refine atomic_effective sound stepped fun disposition ran => ?_
    rcases recordCapability_cases ran with unchanged | ⟨rfl, record, found, written⟩
    · exact ⟨unchanged ▸ sound, .inl unchanged⟩
    · obtain ⟨rebuilt, stored⟩ := sound.stored found
      have node : record.nodeId = advertisement.nodeId := stored.node
      exact effective_of_write sound written (.recorded ..) (node ▸ found)
  | transition nodeId target updatedAt =>
    refine atomic_effective sound stepped fun _ ran => ?_
    obtain ⟨-, record, found, allowed, written⟩ := (transition_ok_iff ..).mp ran
    obtain ⟨rebuilt, stored⟩ := sound.stored found
    obtain rfl := stored.node
    exact effective_of_write sound written
      (.transitioned _ _ _ allowed) found
  | disconnect nodeId localSnapshot updatedAt =>
    refine atomic_effective sound stepped fun _ ran => ?_
    obtain ⟨-, record, found, allowed, written⟩ := (disconnect_ok_iff ..).mp ran
    obtain ⟨rebuilt, stored⟩ := sound.stored found
    obtain rfl := stored.node
    exact effective_of_write sound written
      (.disconnected _ _ _ allowed) found
  | proposeRejoin nodeId remoteSnapshot =>
    simp only [Step, Call.effect, Effect.run_map, Effect.run_read] at stepped
    obtain ⟨-, rfl⟩ := Prod.mk.inj stepped
    exact ⟨sound, .inl rfl⟩
  | confirmRejoin nodeId remoteSnapshot explicitReconciliation updatedAt =>
    refine atomic_effective sound stepped fun _ ran => ?_
    obtain ⟨-, -, record, found, partitioned, asked, target, written⟩ :=
      (confirmRejoin_ok_iff ..).mp ran
    obtain ⟨rebuilt, stored⟩ := sound.stored found
    obtain rfl := stored.node
    exact effective_of_write sound written
      (.rejoined _ _ _ _ partitioned asked target) found

/-- Every reachable registry is sound. -/
theorem Reachable.sound {registry : PeerRegistry} (reachable : Reachable primitives registry) :
    Sound primitives registry := by
  obtain ⟨events, run⟩ := reachable
  exact run.invariant (fun _ registry => Sound primitives registry) sound_empty
    fun _ _ _ _ _ sound stepped => (step_effective sound stepped).1

/-! ## A recorded peer -/

/-- The beginning of the text that the fingerprint of the recorded peer digests. -/
def fingerprintMessage : List UInt8 := Text.bytes
  ("\x7b\"identity\":\x7b\"algorithm\":\"ed25519\",\"created_at\":\"2026-08-23T00:00:00Z\"," ++
    "\"node_id\":\"" ++ Identity.recordedDocument.nodeId ++ "\",\"operational_key_id\":\"" ++
    Identity.recordedDocument.operationalKeyId ++ "\",\"operational_public_key\":\"" ++
    Identity.recordedDocument.operationalPublicKey ++ "\",\"root_key_id\":\"" ++
    Identity.recordedDocument.rootKeyId ++ "\",\"root_public_key\":\"" ++
    Identity.recordedDocument.rootPublicKey ++ "\",\"root_signature\":\"" ++
    Identity.recordedDocument.rootSignature ++
    "\",\"schema\":\"qsol-fed-node-identity/1\"\x7d,\"lifecycle\":[")

/-- The digests of the recorded peer. -/
def peerDigests : List (List UInt8 × String) := Identity.recordedDigests ++ [
  (Text.bytes "\x7b\"capabilities\":[\"qsol.archive/1\"],\"expires_at\":\"2026-08-23T00:31:00Z\"",
    "ab75061d8dba8013e39a40b6ffbc0abb6b3d8b99b061ef6cbf278554f22b3031"),
  (Identity.envelopeMessage "2026-08-23T00:31:00Z",
    "7911990ab72bea97ba7f61385dcfb54b2ef81857290d2d8ea15f34cfc1e78603"),
  (fingerprintMessage ++ Text.bytes "]",
    "e22928bce8b156a332985a8ec888a6bcf40a9e13ad67650aed51468103f1e307"),
  (fingerprintMessage ++ Text.bytes "\x7b",
    "05dd803935818029e0e2588147080d2cb9b7e33a33b391aa2ccde410f1297dd2")]

/-- The signature of the recorded advertisement. -/
def advertisementSignature : String :=
  "23194fdda0c2fab89f48de24f68a40d47463b6ad6e5cc449851af0d4622459cc4b70308f372e4cd9d8d5a1e383c583871db2cdc336dd56ee93933e7b91522801"

/-- The primitives as they are on the data of the recorded peer. -/
def peerPrimitives : Primitives := Digest.tabulated peerDigests
  (Identity.recordedSignatures ++
    [(Identity.recordedDocument.operationalPublicKey, advertisementSignature)])

/-- The recorded advertisement. -/
def recordedAdvertisement : CapabilityAdvertisement where
  schema := "qsol-fed-capability-advertisement/1"
  nodeId := Identity.recordedDocument.nodeId
  sequence := 1
  issuedAt := "2026-08-23T00:01:00Z"
  expiresAt := "2026-08-23T00:31:00Z"
  capabilities := ["qsol.archive/1"]
  proof :=
    { schema := "qsol-fed-signed-envelope/1"
      algorithm := .ed25519
      nodeId := Identity.recordedDocument.nodeId
      keyId := Identity.recordedDocument.operationalKeyId
      envelope :=
        { protocol := "qsol-fed/1"
          messageId := "sha256:7911990ab72bea97ba7f61385dcfb54b2ef81857290d2d8ea15f34cfc1e78603"
          sender := Identity.recordedDocument.nodeId
          recipient := Identity.recordedDocument.nodeId
          messageClass := .capabilities
          payloadRef := "sha256:ab75061d8dba8013e39a40b6ffbc0abb6b3d8b99b061ef6cbf278554f22b3031"
          provenanceRef := none
          issuedAt := "2026-08-23T00:01:00Z"
          expiresAt := some "2026-08-23T00:31:00Z"
          authorityClaim := .none
          signature := () }
      signature := advertisementSignature }

/-- The recorded document verifies on the data of the recorded peer. -/
theorem peerDocument_verified :
    Identity.DocumentVerified peerPrimitives Identity.recordedDocument := by
  obtain ⟨payload, encoded⟩ := Identity.canonicalJson_of_check peerPrimitives
    (identityPayload Identity.recordedDocument) (by decide) (by decide) (by decide)
  exact ⟨rfl, by decide, rfl, rfl, rfl, ⟨1787443200, rfl⟩, ⟨payload, encoded,
    verifySignature_tabulated _ payload (by decide +kernel) (by decide +kernel)
      (by simp [Identity.recordedSignatures])⟩⟩

/-- The identity of the recorded peer. -/
theorem peerIdentity_rebuilt : rebuildPeerIdentity peerPrimitives Identity.recordedDocument [] =
    .ok (Identity.introduced Identity.recordedDocument 1787443200) :=
  (rebuildPeerIdentity_ok_iff ..).mpr ⟨_, (Identity.fromDocument_ok_iff ..).mpr
    ⟨(Identity.verifyIdentityDocument_iff _).mpr peerDocument_verified, _, rfl, rfl⟩, rfl⟩

/-- The members of the canonical form of the recorded envelope. -/
def recordedProofMembers : List (String × Node) := [
  ("authority_claim", .string "none"),
  ("expires_at", .string recordedAdvertisement.expiresAt),
  ("issued_at", .string recordedAdvertisement.issuedAt),
  ("message_class", .string "capabilities"),
  ("message_id", .string recordedAdvertisement.proof.envelope.messageId),
  ("payload_ref", .string recordedAdvertisement.proof.envelope.payloadRef),
  ("protocol", .string "qsol-fed/1"),
  ("provenance_ref", .null),
  ("recipient", .string recordedAdvertisement.nodeId),
  ("sender", .string recordedAdvertisement.nodeId),
  ("signature", .null)]

/-- The recorded envelope has canonical bytes. -/
theorem recordedProof_encoded : ∃ canonical,
    canonicalEnvelopeBytes peerPrimitives recordedAdvertisement.proof.envelope = .ok canonical :=
  FederationEnvelope.canonicalEnvelopeBytes_of_visit (by decide)
    (rfl : visit peerPrimitives.unicode
      (Codecs.envelope.encode recordedAdvertisement.proof.envelope) =
        .ok (.object recordedProofMembers))
    (by decide) (by decide) (by decide)
    (sha256Ref_tabulated (Identity.envelopeMessage "2026-08-23T00:31:00Z",
      "7911990ab72bea97ba7f61385dcfb54b2ef81857290d2d8ea15f34cfc1e78603")
      (by decide) (by decide))

/-- The tree of the payload of the recorded advertisement. -/
def recordedPayloadNode : Node := .object [
  ("capabilities", .array [.string "qsol.archive/1"]),
  ("expires_at", .string recordedAdvertisement.expiresAt),
  ("issued_at", .string recordedAdvertisement.issuedAt),
  ("node_id", .string recordedAdvertisement.nodeId),
  ("schema", .string recordedAdvertisement.schema),
  ("sequence", .integer 1)]

/-- The payload of the recorded advertisement has the identifier that is signed. -/
theorem recordedPayload_identified :
    structId peerPrimitives (advertisementPayload recordedAdvertisement) =
      .ok recordedAdvertisement.proof.envelope.payloadRef := by
  have digest : Digest.sha256Ref peerPrimitives ("".toByteArray ++
      writtenBytes recordedPayloadNode.toJson) = recordedAdvertisement.proof.envelope.payloadRef :=
    sha256Ref_tabulated (Text.bytes
      "\x7b\"capabilities\":[\"qsol.archive/1\"],\"expires_at\":\"2026-08-23T00:31:00Z\"",
      "ab75061d8dba8013e39a40b6ffbc0abb6b3d8b99b061ef6cbf278554f22b3031")
      (by decide) (by decide)
  have visited : visit peerPrimitives.unicode (advertisementPayload recordedAdvertisement) =
      .ok recordedPayloadNode := rfl
  have identified := structId_of_visit
    (plain_of_check (advertisementPayload recordedAdvertisement) (by decide)) (by decide)
    ((size_writtenBytes_le _).trans (by decide)) visited
  rw [show "".toByteArray = ByteArray.empty from rfl, ByteArray.empty_append] at digest
  rw [identified, digest]

/-- The recorded advertisement is verified under the recorded identity. -/
theorem recordedAdvertisement_verified : AdvertisementVerified peerPrimitives recordedAdvertisement
    (Identity.introduced Identity.recordedDocument 1787443200) := by
  obtain ⟨canonical, encoded⟩ := recordedProof_encoded
  refine ⟨rfl, by decide, by decide, rfl, rfl, rfl, ⟨rfl, rfl, rfl⟩,
    recordedPayload_identified, ⟨rfl, rfl⟩, ⟨1787445060, rfl⟩, 1787443260, rfl, rfl, rfl, rfl, rfl,
    Identity.recordedKey, 1787443260, canonical, OrderedMap.get?_insert_self .., rfl, rfl,
    by decide, by simp [Identity.recordedKey], encoded, ?_⟩
  exact verifySignature_tabulated _ canonical (by decide +kernel) (by decide +kernel)
    (by simp [Identity.recordedSignatures, recordedAdvertisement, Identity.recordedKey])

/-- The tree of what the fingerprint of the recorded peer covers. -/
def recordedSnapshotNode : Node := .object [
  ("identity", .object [
    ("algorithm", .string "ed25519"),
    ("created_at", .string Identity.recordedDocument.createdAt),
    ("node_id", .string Identity.recordedDocument.nodeId),
    ("operational_key_id", .string Identity.recordedDocument.operationalKeyId),
    ("operational_public_key", .string Identity.recordedDocument.operationalPublicKey),
    ("root_key_id", .string Identity.recordedDocument.rootKeyId),
    ("root_public_key", .string Identity.recordedDocument.rootPublicKey),
    ("root_signature", .string Identity.recordedDocument.rootSignature),
    ("schema", .string Identity.recordedDocument.schema)]),
  ("lifecycle", .array [])]

/-- The fingerprint of the recorded peer. -/
def recordedFingerprint : String :=
  Digest.sha256Ref peerPrimitives (writtenBytes recordedSnapshotNode.toJson)

set_option maxRecDepth 4096 in
/-- The recorded peer has its fingerprint. -/
theorem recordedFingerprint_computed : identityFingerprint peerPrimitives
    Identity.recordedDocument [] = .ok recordedFingerprint := by
  have visited : visit peerPrimitives.unicode
      (fingerprintSnapshot Identity.recordedDocument []) = .ok recordedSnapshotNode := rfl
  exact structId_of_visit
    (plain_of_check (fingerprintSnapshot Identity.recordedDocument []) (by decide))
    (by decide) ((size_writtenBytes_le _).trans (by decide)) visited

/-- A record of the recorded peer. -/
def recordedRecord (state : PeerLifecycleState) (before : Option PeerLifecycleState)
    (snapshot : Option String) (advertisement : Option CapabilityAdvertisement) (changes : UInt64) :
    PeerRecord where
  schema := "qsol-fed-peer-record/1"
  nodeId := Identity.recordedDocument.nodeId
  identity := Identity.recordedDocument
  lifecycle := []
  identityFingerprint := recordedFingerprint
  lifecycleSequence := 0
  state := state
  preDisconnectState := before
  partitionSnapshot := snapshot
  capabilityAdvertisement := advertisement
  localEventSequence := changes
  updatedAt := "2026-08-23T00:02:00Z"
  authority := "none"

/-- The time of the recorded changes. -/
theorem recordedTime_valid : validTimestamp "2026-08-23T00:02:00Z" = true := by decide

/-- The records of the recorded peer are valid. -/
theorem recordedRecord_valid (state : PeerLifecycleState) (before : Option PeerLifecycleState)
    {snapshot : Option String} {advertisement : Option CapabilityAdvertisement} (changes : UInt64)
    (references : ∀ text ∈ snapshot, Wire.isSha256Ref text = true)
    (partition : state = .disconnected → before.isSome = true ∧ snapshot.isSome = true)
    (advertised : ∀ value ∈ advertisement, value = recordedAdvertisement) :
    RecordValid peerPrimitives (recordedRecord state before snapshot advertisement changes)
      (Identity.introduced Identity.recordedDocument 1787443200) :=
  ⟨rfl, rfl, Nat.zero_le _, rfl, recordedTime_valid, references, partition, peerIdentity_rebuilt,
    rfl, recordedFingerprint_computed, fun value present =>
      advertised value present ▸ recordedAdvertisement_verified⟩

/-- The records of the recorded peer are written over any other. -/
theorem recordedRecord_written (registry : PeerRegistry) (state : PeerLifecycleState)
    (before : Option PeerLifecycleState) {snapshot : Option String}
    (advertisement : Option CapabilityAdvertisement) (changes : UInt64)
    (references : ∀ text ∈ snapshot, Wire.isSha256Ref text = true)
    (partition : state = .disconnected → before.isSome = true ∧ snapshot.isSome = true)
    (advertised : ∀ value ∈ advertisement, value = recordedAdvertisement)
    (small : (changes.toNat : Int) ≤ safeIntegerMax) :
    ∃ next, registry.writePeer peerPrimitives
      (recordedRecord state before snapshot advertisement changes) = .ok next := by
  have valid := recordedRecord_valid state before changes references partition advertised
  have size := valid.size_le
  have document : writtenSize (Codecs.identity.encode Identity.recordedDocument) ≤ 10000 :=
    (size_writtenBytes_le _).trans (by decide +kernel)
  have lifecycle : writtenSize (Codecs.lifecycleRecord.list.encode []) ≤ 10 :=
    (size_writtenBytes_le _).trans (by decide)
  have advertisement : writtenSize (Codecs.nullableAdvertisement.encode advertisement) ≤ 20000 := by
    cases advertisement with
    | none => exact (size_writtenBytes_le _).trans (by decide)
    | some value =>
      obtain rfl := advertised value rfl
      exact (size_writtenBytes_le _).trans (by decide +kernel)
  have limit : maxInputBytes = 65536 := rfl
  refine (writePeer_iff valid registry).mpr ⟨small, ?_⟩
  change writtenSize _ ≤ _
  simp only [recordedRecord] at size ⊢
  omega

/-- The snapshot of the recorded peer. -/
def recordedSnapshot : String :=
  "sha256:3333333333333333333333333333333333333333333333333333333333333333"

/-- The snapshot is a reference. -/
theorem recordedSnapshot_shape : ∀ text ∈ some recordedSnapshot, Wire.isSha256Ref text = true := by
  intro text present
  obtain rfl := Option.some.inj present
  decide

/-- A successful operation is a step. -/
theorem step_of_atomic {α : Type} {registry next : PeerRegistry} {call : Call}
    {operation : PeerRegistry → Except PeeringError (α × PeerRegistry)} (answer : α → Answer)
    {value : α} (operated : operation registry = .ok (value, next))
    (effect : call.effect primitives = answer <$> Effect.atomic operation) :
    Step primitives registry (call, .ok (answer value)) next := by
  rw [Step, effect, Effect.run_map, Effect.run_atomic, operated]
  rfl

/-- The introduction of the recorded peer. -/
def recordedIntroduction : Call × Except PeeringError Answer :=
  (.introduce Identity.recordedDocument [] (some recordedSnapshot) "2026-08-23T00:02:00Z",
    .ok (.written .applied))

/-- An empty registry knows no peer. -/
theorem get_empty {nodeId : String} (shape : Wire.isNodeId nodeId = true) :
    empty.get primitives nodeId = .ok none := by
  have named : peerPath nodeId = .ok _ := (peerPath_ok_iff ..).mpr ⟨shape, rfl⟩
  simp only [get, named, bind_ok, empty, OrderedMap.get?_empty]
  rfl

/-- The recorded peer is introduced. -/
theorem recorded_introduced : ∃ registry,
    Step peerPrimitives empty recordedIntroduction registry ∧
    registry.get peerPrimitives Identity.recordedDocument.nodeId =
      .ok (some (recordedRecord .introduced none (some recordedSnapshot) none 1)) := by
  obtain ⟨registry, written⟩ := recordedRecord_written empty .introduced none none 1
    recordedSnapshot_shape nofun nofun (by decide)
  have unknown : empty.get peerPrimitives Identity.recordedDocument.nodeId = .ok none :=
    get_empty (by decide)
  have introduced := (introduce_ok_iff empty registry Identity.recordedDocument []
    (some recordedSnapshot) "2026-08-23T00:02:00Z" .applied).mpr
    ⟨⟨Nat.zero_le _, recordedTime_valid⟩, recordedSnapshot_shape, _, _, peerIdentity_rebuilt,
      recordedFingerprint_computed, .new unknown written⟩
  exact ⟨registry, step_of_atomic .written introduced rfl, (get_writePeer written _).trans (if_pos rfl)⟩

/-- The change of the recorded peer to a state. -/
def recordedTransition (target : PeerLifecycleState) : Call × Except PeeringError Answer :=
  (.transition Identity.recordedDocument.nodeId target "2026-08-23T00:02:00Z", .ok .done)

/-- The state of the recorded peer is changed. -/
theorem recorded_transitioned {registry : PeerRegistry} {state target : PeerLifecycleState}
    {before : Option PeerLifecycleState} {advertisement : Option CapabilityAdvertisement}
    {changes : UInt64}
    (found : registry.get peerPrimitives Identity.recordedDocument.nodeId =
      .ok (some (recordedRecord state before (some recordedSnapshot) advertisement changes)))
    (allowed : transitionAllowed state target = true)
    (advertised : ∀ value ∈ advertisement, value = recordedAdvertisement)
    (small : ((saturatingSucc changes).toNat : Int) ≤ safeIntegerMax) :
    ∃ next, Step peerPrimitives registry (recordedTransition target) next ∧
      next.get peerPrimitives Identity.recordedDocument.nodeId =
        .ok (some (recordedRecord target
          (if target = .disconnected then some state
            else if state ≠ .disconnected then none else before)
          (some recordedSnapshot) advertisement (saturatingSucc changes))) := by
  obtain ⟨next, written⟩ := recordedRecord_written registry target
    (if target = .disconnected then some state
      else if state ≠ .disconnected then none else before)
    advertisement (saturatingSucc changes) recordedSnapshot_shape (fun same => ⟨by rw [if_pos same]; rfl, rfl⟩) advertised small
  have transitioned := (transition_ok_iff registry next Identity.recordedDocument.nodeId target
    "2026-08-23T00:02:00Z").mpr ⟨recordedTime_valid, _, found, allowed, written⟩
  exact ⟨next, step_of_atomic (fun _ => .done) transitioned rfl, (get_writePeer written _).trans (if_pos rfl)⟩

end QsolFed.PeerRegistry
