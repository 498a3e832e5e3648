import QsolFed.Identity.Windows
import QsolFed.Peering.Partition

/-!
# Longer lifecycles of known peers

A known peer shows a lifecycle that goes on from the stored one. The registry writes the whole
record again, so that the advertisement that it holds is verified once more under the keys of the
longer lifecycle: a record that ends the window of the key that signed the advertisement is refused
together with the advertisement.
-/
namespace QsolFed

open Checked Json Canonical Crypto

namespace Peering

variable {primitives : Primitives}

/-! ## Advertisements under more records -/

/-- The key that signed an advertisement is acceptable at the time of its issue. -/
def SignerAccepted (advertisement : CapabilityAdvertisement) (identity : IdentityState) : Prop :=
  ∃ key issued, identity.operationalKeys.get? advertisement.proof.keyId = some key ∧
    Crypto.parseTimestamp advertisement.issuedAt = .ok issued ∧ key.Accepts issued

/-- The signer of a verified advertisement is accepted. -/
theorem AdvertisementVerified.signerAccepted {advertisement : CapabilityAdvertisement}
    {identity : IdentityState}
    (verified : AdvertisementVerified primitives advertisement identity) :
    SignerAccepted advertisement identity := by
  obtain ⟨_, -, signed⟩ := verified.signed
  obtain ⟨key, issued, canonical, known, parsed, active, from_, until_, -⟩ := signed.signed
  rw [verified.times.1] at parsed
  exact ⟨key, issued, known, parsed, active, from_, until_⟩

/-- Under more records an advertisement is verified exactly when its signer is still accepted. -/
theorem AdvertisementVerified.extends_iff {advertisement : CapabilityAdvertisement}
    {before after : IdentityState}
    (verified : AdvertisementVerified primitives advertisement before)
    (coherent : Identity.Coherent before) (run : Identity.Extends primitives before after) :
    AdvertisementVerified primitives advertisement after ↔ SignerAccepted advertisement after := by
  constructor
  · exact signerAccepted
  · rintro ⟨later, issued, found, parsed, active, from_, until_⟩
    obtain ⟨node, narrowed⟩ := run.narrows coherent
    obtain ⟨time, timeParsed, signed⟩ := verified.signed
    obtain ⟨key, -, canonical, known, -, -, -, -, encoded, valid⟩ := signed.signed
    obtain ⟨other, otherFound, narrows⟩ := narrowed _ key known
    rw [found] at otherFound
    obtain rfl := Option.some.inj otherFound
    have same : Crypto.parseTimestamp advertisement.proof.envelope.issuedAt = .ok issued :=
      verified.times.1 ▸ parsed
    have again : Identity.Authenticated primitives advertisement.proof after time
        defaultClockPolicy :=
      { signed with
        node := signed.node.trans node.symm
        sender := signed.sender.trans node.symm
        signed := ⟨later, issued, canonical, found, same, active, from_, until_, encoded,
          narrows.publicKey ▸ valid⟩ }
    exact { verified with
      node := verified.node.trans node.symm
      signed := ⟨time, timeParsed, again⟩ }

/-! ## Fingerprints and prefixes -/

/-- The fingerprint of an identity exists exactly when what it covers fits the size limit. -/
theorem identityFingerprint_iff {identity : NodeIdentityDocument}
    {lifecycle : List PeerLifecycleRecord} {state : IdentityState}
    (rebuilt : Rebuilt primitives identity lifecycle state)
    (few : lifecycle.length ≤ maxPeerLifecycleRecords) :
    (∃ fingerprint, identityFingerprint primitives identity lifecycle = .ok fingerprint) ↔
      writtenSize (fingerprintSnapshot identity lifecycle) ≤ maxInputBytes := by
  have records : Plain (Codecs.lifecycleRecord.list.encode lifecycle) :=
    plain_list _ _ (few.trans (by decide)) rebuilt.records
  have names : PlainText "identity" ∧ PlainText "lifecycle" :=
    ⟨plainText_of_check (by decide), plainText_of_check (by decide)⟩
  have plain : Plain (fingerprintSnapshot identity lifecycle) :=
    ⟨show 2 ≤ 1024 by decide, show ["identity", "lifecycle"].Nodup by decide, names.1,
      rebuilt.document, names.2, records, trivial⟩
  have shallow : (fingerprintSnapshot identity lifecycle).nesting < maxDepth := by
    have listed := nesting_list Codecs.lifecycleRecord lifecycle 1 fun value _ =>
      Identity.nesting_lifecycleRecord value
    have document : (Codecs.identity.encode identity).nesting ≤ 1 := Nat.le_of_ble_eq_true rfl
    have members := (nestingMembers_le_iff [("identity", Codecs.identity.encode identity),
      ("lifecycle", Codecs.lifecycleRecord.list.encode lifecycle)] 2).mpr
        (by simp [document.trans (show 1 ≤ 2 by decide), listed])
    have depth : maxDepth = 32 := rfl
    change _ + 1 < _
    omega
  rw [writtenSize, ← @canonicalStruct_iff primitives _ plain shallow]
  constructor
  · rintro ⟨fingerprint, computed⟩
    obtain ⟨bytes, encoded, -⟩ := canonical_of_structId computed
    exact ⟨bytes, encoded⟩
  · rintro ⟨bytes, encoded⟩
    have again := canonicalize_canonical ((canonicalStruct_ok_iff ..).mp encoded)
    refine ⟨Digest.sha256Ref primitives bytes, ?_⟩
    simp only [identityFingerprint, structId, encoded, bind_ok, Digest.objectId, again]
    rfl

/-- What a fingerprint covers is smaller than a record of the peer. -/
theorem writtenSize_fingerprintSnapshot (record : PeerRecord) :
    writtenSize (fingerprintSnapshot record.identity record.lifecycle) ≤
      writtenSize (Codecs.peerRecord.encode record) := by
  have names : weigh Char.utf8Size (printText "identity") = 10 ∧
      weigh Char.utf8Size (printText "lifecycle") = 11 := by decide
  rw [writtenSize_peerRecord, fingerprintSnapshot, writtenSize_object]
  simp only [List.map_cons, List.map_nil, List.sum_cons, List.sum_nil, memberSize, names,
    List.length_cons, List.length_nil]
  omega

/-- The stored records are the beginning of a longer lifecycle. -/
theorem requireLifecyclePrefix_of_prefix {identity : NodeIdentityDocument}
    {stored lifecycle : List PeerLifecycleRecord} {state : IdentityState}
    (rebuilt : Rebuilt primitives identity stored state)
    (fits : writtenSize (Codecs.lifecycleRecord.list.encode stored) ≤ maxInputBytes)
    (extends_ : stored <+: lifecycle) :
    requireLifecyclePrefix primitives stored lifecycle = .ok () := by
  have encoded : ∀ record ∈ stored, ∃ bytes,
      canonicalStruct primitives (Codecs.lifecycleRecord.encode record) = .ok bytes := by
    intro record member
    have part : writtenSize (Codecs.lifecycleRecord.encode record) ≤
        writtenSize (Codecs.lifecycleRecord.list.encode stored) :=
      writtenSize_item (List.mem_map_of_mem member)
    have shallow : (Codecs.lifecycleRecord.encode record).nesting < maxDepth :=
      (Identity.nesting_lifecycleRecord record).trans_lt (by decide)
    exact (canonicalStruct_iff (rebuilt.records record member) shallow).mpr (part.trans fits)
  obtain ⟨more, rfl⟩ := extends_
  have length : stored.length ≤ (stored ++ more).length := by
    rw [List.length_append]
    omega
  simp only [requireLifecyclePrefix, ensure_pos length, bind_ok]
  clear rebuilt fits length
  induction stored with
  | nil => rfl
  | cons record rest ih =>
    obtain ⟨bytes, written⟩ := encoded record List.mem_cons_self
    have others := ih fun other member => encoded other (List.mem_cons_of_mem _ member)
    simp only [List.cons_append, requireSameRecords, written, bind_ok, ensure_pos, others]

end Peering

namespace PeerRegistry

open Peering

variable {primitives : Primitives}

/-! ## Known peers -/

/-- A record with a longer lifecycle, before its fingerprint and its time are renewed. -/
def lengthenedRecord (old : PeerRecord) (lifecycle : List PeerLifecycleRecord) : PeerRecord :=
  { old with
    lifecycle := lifecycle
    lifecycleSequence := UInt64.ofNat lifecycle.length
    localEventSequence := saturatingSucc old.localEventSequence }

/-- An introduction without a snapshot keeps the snapshot. -/
theorem extendedRecord_none (old : PeerRecord) (lifecycle : List PeerLifecycleRecord)
    (updatedAt fingerprint : String) (sequence : UInt64) :
    extendedRecord old lifecycle none updatedAt fingerprint sequence =
      touched
        { old with
          lifecycle := lifecycle
          identityFingerprint := fingerprint
          lifecycleSequence := sequence }
        updatedAt := by
  simp [extendedRecord]

/-- The record with a longer lifecycle is valid exactly when the signer of its advertisement is
still accepted. -/
theorem extended_valid_iff {old : PeerRecord} {before state : IdentityState}
    (valid : RecordValid primitives old before) {lifecycle : List PeerLifecycleRecord}
    (extends_ : old.lifecycle <+: lifecycle) (few : lifecycle.length ≤ maxPeerLifecycleRecords)
    (rebuilt : rebuildPeerIdentity primitives old.identity lifecycle = .ok state)
    {fingerprint updatedAt : String}
    (computed : identityFingerprint primitives old.identity lifecycle = .ok fingerprint)
    (updated : validTimestamp updatedAt = true) :
    RecordValid primitives
        (extendedRecord old lifecycle none updatedAt fingerprint state.sequence) state ↔
      ∀ advertisement ∈ old.capabilityAdvertisement, SignerAccepted advertisement state := by
  rw [extendedRecord_none]
  constructor
  · intro next advertisement present
    exact (next.advertisement advertisement present).signerAccepted
  · intro accepted
    obtain ⟨more, rfl⟩ := extends_
    obtain ⟨middle, start, applied⟩ := (rebuildPeerIdentity_append ..).mp rebuilt
    rw [valid.identity] at start
    obtain rfl := Except.ok.inj start
    obtain ⟨initial, described, first⟩ := (rebuildPeerIdentity_ok_iff ..).mp valid.identity
    have reachable : Identity.Reachable primitives before :=
      ⟨old.identity, initial, described, Identity.extends_of_foldlM first⟩
    exact
      { schema := valid.schema
        node := valid.node
        few := few
        authority := valid.authority
        updated := updated
        snapshot := valid.snapshot
        partition := valid.partition
        identity := rebuilt
        sequence := rfl
        fingerprint := computed
        advertisement := fun advertisement present =>
          ((valid.advertisement advertisement present).extends_iff reachable.coherent
            (Identity.extends_of_foldlM applied)).mpr (accepted advertisement present) }

/-- The size of the record with a longer lifecycle does not depend on its fingerprint and time. -/
theorem writtenSize_extended {old : PeerRecord} {before state : IdentityState}
    (valid : RecordValid primitives old before) {lifecycle : List PeerLifecycleRecord}
    (rebuilt : rebuildPeerIdentity primitives old.identity lifecycle = .ok state)
    {fingerprint updatedAt : String}
    (computed : identityFingerprint primitives old.identity lifecycle = .ok fingerprint)
    (updated : validTimestamp updatedAt = true) :
    writtenSize (Codecs.peerRecord.encode
        (extendedRecord old lifecycle none updatedAt fingerprint state.sequence)) =
      writtenSize (Codecs.peerRecord.encode (lengthenedRecord old lifecycle)) := by
  have reference : ∀ {identity records text}, identityFingerprint primitives identity records =
      .ok text → writtenSize (.string text) = 73 := by
    intro identity records text known
    obtain ⟨bytes, -, same⟩ := canonical_of_structId known
    exact writtenSize_sha256Ref (same ▸ isSha256Ref_digest primitives bytes)
  have oldFingerprint := reference valid.fingerprint
  have newFingerprint := reference computed
  have oldTime := writtenSize_timestamp (Bool.and_eq_true_iff.mp valid.updated).1
  have newTime := writtenSize_timestamp (Bool.and_eq_true_iff.mp updated).1
  have sequence : state.sequence = UInt64.ofNat lifecycle.length := by
    rw [← (rebuilt_of_ok rebuilt).sequence, UInt64.ofNat_toNat]
  rw [extendedRecord_none, writtenSize_peerRecord, writtenSize_peerRecord]
  simp only [lengthenedRecord, touched, sequence]
  omega

/-- A longer lifecycle adds little more than its own size to a record. -/
theorem writtenSize_lengthened_le (old : PeerRecord) (lifecycle : List PeerLifecycleRecord) :
    writtenSize (Codecs.peerRecord.encode (lengthenedRecord old lifecycle)) ≤
      writtenSize (Codecs.peerRecord.encode old) +
      writtenSize (Codecs.lifecycleRecord.list.encode lifecycle) + 40 := by
  have sequence := writtenSize_uint64 (UInt64.ofNat lifecycle.length)
  have changes := writtenSize_uint64 (saturatingSucc old.localEventSequence)
  rw [writtenSize_peerRecord, writtenSize_peerRecord]
  simp only [lengthenedRecord]
  omega

/-- A known peer has the same document as itself. -/
theorem sameDocument_refl {record : PeerRecord} {rebuilt : IdentityState}
    (valid : RecordValid primitives record rebuilt)
    (fits : writtenSize (Codecs.peerRecord.encode record) ≤ maxInputBytes) :
    SameDocument primitives record.identity record.identity := by
  have shallow : (Codecs.identity.encode record.identity).nesting < maxDepth := by
    have flat : (Codecs.identity.encode record.identity).nesting ≤ 1 := Nat.le_of_ble_eq_true rfl
    exact flat.trans_lt (by decide)
  have part : writtenSize (Codecs.identity.encode record.identity) ≤
      writtenSize (Codecs.peerRecord.encode record) := by
    rw [writtenSize_peerRecord]
    omega
  obtain ⟨bytes, encoded⟩ := (@canonicalStruct_iff primitives _
    (rebuilt_of_ok valid.identity).document shallow).mpr (part.trans fits)
  exact ⟨bytes, encoded, encoded⟩

/-- A known peer that is not revoked shows a longer lifecycle with success exactly when the signer
of the stored advertisement is still accepted, the number of changes can grow and the record
fits. -/
theorem introduce_longer_iff {registry : PeerRegistry} (sound : Sound primitives registry)
    {nodeId : String} {old : PeerRecord}
    (found : registry.get primitives nodeId = .ok (some old)) (open_ : old.state ≠ .revoked)
    {lifecycle : List PeerLifecycleRecord} (extends_ : old.lifecycle <+: lifecycle)
    (longer : lifecycle ≠ old.lifecycle) (few : lifecycle.length ≤ maxPeerLifecycleRecords)
    {state : IdentityState}
    (rebuilt : rebuildPeerIdentity primitives old.identity lifecycle = .ok state)
    {updatedAt : String} (updated : validTimestamp updatedAt = true) :
    (∃ next, introduce primitives old.identity lifecycle none updatedAt registry =
        .ok (.applied, next) ∧ next.identityState primitives nodeId = .ok (some state)) ↔
      (∀ advertisement ∈ old.capabilityAdvertisement, SignerAccepted advertisement state) ∧
      (old.localEventSequence.toNat : Int) < safeIntegerMax ∧
      writtenSize (Codecs.peerRecord.encode (lengthenedRecord old lifecycle)) ≤
        maxInputBytes := by
  obtain ⟨before, stored⟩ := sound.stored found
  have node : old.identity.nodeId = nodeId := stored.valid.node ▸ stored.node
  have counts : old.lifecycle.length < lifecycle.length := by
    have atMost := extends_.length_le
    have apart : old.lifecycle.length ≠ lifecycle.length := fun same =>
      longer (extends_.eq_of_length same).symm
    omega
  have sequence : old.lifecycleSequence < state.sequence := by
    have one := (rebuilt_of_ok stored.valid.identity).sequence
    have two := (rebuilt_of_ok rebuilt).sequence
    rw [stored.valid.sequence] at one
    rw [UInt64.lt_iff_toNat_lt]
    omega
  have grown := saturatingSucc_toNat stored.small
  constructor
  · rintro ⟨next, introduced, -⟩
    obtain ⟨-, -, other, fingerprint, again, computed, outcome⟩ :=
      (introduce_ok_iff ..).mp introduced
    rw [rebuilt] at again
    obtain rfl := Except.ok.inj again
    cases outcome with
    | new unknown written =>
      rw [node, found] at unknown
      cases unknown
    | extended record known _ _ _ _ written =>
      rw [node, found] at known
      obtain rfl := Option.some.inj (Except.ok.inj known)
      obtain ⟨identity, -, -, valid, -⟩ := (writePeer_ok_iff ..).mp written
      have same := valid.identity
      rw [extendedRecord_none] at same
      obtain rfl := Except.ok.inj (rebuilt.symm.trans same)
      obtain ⟨small, fits⟩ := (writePeer_iff valid registry).mp ⟨next, written⟩
      have accepted :=
        (extended_valid_iff stored.valid extends_ few rebuilt computed updated).mp valid
      have size := writtenSize_extended stored.valid rebuilt computed updated
      rw [extendedRecord_none] at small
      change ((saturatingSucc old.localEventSequence).toNat : Int) ≤ _ at small
      exact ⟨accepted, by omega, size ▸ fits⟩
  · rintro ⟨accepted, room, fits⟩
    have covered := (writtenSize_fingerprintSnapshot (lengthenedRecord old lifecycle)).trans fits
    obtain ⟨fingerprint, computed⟩ :=
      (identityFingerprint_iff (rebuilt_of_ok rebuilt) few).mpr covered
    have valid :=
      (extended_valid_iff stored.valid extends_ few rebuilt computed updated).mpr accepted
    have size := writtenSize_extended stored.valid rebuilt computed updated
    obtain ⟨next, written⟩ := (writePeer_iff valid registry).mpr ⟨by
      rw [extendedRecord_none]
      change ((saturatingSucc old.localEventSequence).toNat : Int) ≤ _
      omega, size.trans_le fits⟩
    have part : writtenSize (Codecs.lifecycleRecord.list.encode old.lifecycle) ≤ maxInputBytes := by
      have fits : writtenSize (Codecs.peerRecord.encode old) ≤ maxInputBytes := stored.fits
      rw [writtenSize_peerRecord] at fits
      omega
    have begins := requireLifecyclePrefix_of_prefix (rebuilt_of_ok stored.valid.identity) part
      extends_
    have introduced := (introduce_ok_iff registry next old.identity lifecycle none updatedAt
      .applied).mpr ⟨⟨few, updated⟩, nofun, state, fingerprint, rebuilt, computed,
        .extended old (node.symm ▸ found) open_ (sameDocument_refl stored.valid stored.fits)
          sequence begins written⟩
    refine ⟨next, introduced, ?_⟩
    have read := (get_writePeer written nodeId).trans (if_pos stored.node.symm)
    simp only [identityState, read, bind_ok, extendedRecord_none, touched, rebuilt]
    rfl

/-- A longer lifecycle of a known peer that is not revoked is recordable exactly when the key that
signed the stored advertisement is still acceptable at the time of its issue, the number of changes
can grow and the longer record fits the size limit. -/
theorem extension_recordable {registry : PeerRegistry} (reachable : Reachable primitives registry)
    {nodeId : String} {old : PeerRecord}
    (found : registry.get primitives nodeId = .ok (some old)) (open_ : old.state ≠ .revoked)
    {lifecycle : List PeerLifecycleRecord} (extends_ : old.lifecycle <+: lifecycle)
    (longer : lifecycle ≠ old.lifecycle) (few : lifecycle.length ≤ maxPeerLifecycleRecords)
    {state : IdentityState}
    (rebuilt : rebuildPeerIdentity primitives old.identity lifecycle = .ok state)
    {updatedAt : String} (updated : validTimestamp updatedAt = true) :
    (∃ next, introduce primitives old.identity lifecycle none updatedAt registry =
        .ok (.applied, next) ∧ next.identityState primitives nodeId = .ok (some state)) ↔
      (∀ advertisement ∈ old.capabilityAdvertisement, SignerAccepted advertisement state) ∧
      (old.localEventSequence.toNat : Int) < safeIntegerMax ∧
      writtenSize (Codecs.peerRecord.encode (lengthenedRecord old lifecycle)) ≤ maxInputBytes :=
  introduce_longer_iff reachable.sound found open_ extends_ longer few rebuilt updated

/-! ## The recorded declaration -/

/-- The lifecycle of the recorded peer after the declaration that its key is compromised. -/
def recordedLifecycle : List PeerLifecycleRecord := [.status Identity.recordedCompromise]

/-- The identity of the recorded peer after the declaration. -/
def compromisedIdentity : IdentityState :=
  Identity.restated (Identity.introduced Identity.recordedDocument 1787443200)
    Identity.recordedCompromise Identity.recordedKey 1787443500

/-- The declaration is accepted on the data of the recorded peer. -/
theorem recordedLifecycle_rebuilt : rebuildPeerIdentity peerPrimitives Identity.recordedDocument
    recordedLifecycle = .ok compromisedIdentity := by
  obtain ⟨payload, encoded⟩ := Identity.canonicalJson_of_check peerPrimitives
    (keyStatusPayload Identity.recordedCompromise) (by decide) (by decide)
    (by decide)
  have signed : verifySignature peerPrimitives Identity.recordedDocument.rootPublicKey
      keyStatusDomain payload Identity.recordedCompromise.rootSignature = .ok true :=
    verifySignature_tabulated _ payload (by decide +kernel) (by decide +kernel)
      (by simp [Identity.recordedSignatures])
  have accepted : Identity.StatusAccepted peerPrimitives
      (Identity.introduced Identity.recordedDocument 1787443200) Identity.recordedCompromise
      Identity.recordedKey 1787443500 :=
    ⟨rfl, rfl, rfl, by decide, rfl, OrderedMap.get?_insert_self .., by decide,
      ⟨payload, encoded, signed⟩⟩
  refine (rebuildPeerIdentity_append Identity.recordedDocument [] recordedLifecycle _).mpr
    ⟨_, peerIdentity_rebuilt, ?_⟩
  exact (foldlM_cons_ok_iff ..).mpr ⟨compromisedIdentity,
    (Identity.applyKeyStatus_ok_iff ..).mpr ⟨_, _, accepted, rfl⟩, rfl⟩

/-- The declaration is recordable for the recorded peer without an advertisement. -/
theorem recorded_extension_recordable : ∃ registry next,
    introduce peerPrimitives Identity.recordedDocument recordedLifecycle none
      "2026-08-23T00:02:00Z" registry = .ok (.applied, next) ∧
    next.identityState peerPrimitives Identity.recordedDocument.nodeId =
      .ok (some compromisedIdentity) := by
  obtain ⟨registry, introduced, found⟩ := recorded_introduced
  have reachable : Reachable peerPrimitives registry := ⟨_, .single introduced⟩
  have valid : RecordValid peerPrimitives
      (recordedRecord .introduced none (some recordedSnapshot) none 1) _ :=
    recordedRecord_valid .introduced none 1 recordedSnapshot_shape nofun nofun
  have document : writtenSize (Codecs.identity.encode Identity.recordedDocument) ≤ 10000 :=
    (size_writtenBytes_le _).trans (by decide +kernel)
  have before : writtenSize (Codecs.lifecycleRecord.list.encode []) ≤ 10 :=
    (size_writtenBytes_le _).trans (by decide)
  have after : writtenSize (Codecs.lifecycleRecord.list.encode recordedLifecycle) ≤ 10000 :=
    (size_writtenBytes_le _).trans (by decide +kernel)
  have absent : writtenSize (Codecs.nullableAdvertisement.encode none) ≤ 10 :=
    (size_writtenBytes_le _).trans (by decide)
  -- The sizes are variables to the arithmetic.
  have together : ∀ {total record document before absent after : Nat},
      record ≤ document + before + absent + 632 → total ≤ record + after + 40 →
      document ≤ 10000 → before ≤ 10 → absent ≤ 10 → after ≤ 10000 → total ≤ maxInputBytes := by
    have limit : maxInputBytes = 65536 := rfl
    omega
  have fits := together valid.size_le (writtenSize_lengthened_le _ recordedLifecycle) document
    before absent after
  have longer : recordedLifecycle ≠ [] := List.cons_ne_nil _ _
  have begins : [] <+: recordedLifecycle := List.nil_prefix
  obtain ⟨next, recorded⟩ := (extension_recordable reachable found nofun begins longer (by decide)
    recordedLifecycle_rebuilt recordedTime_valid).mpr ⟨nofun, by decide, fits⟩
  exact ⟨registry, next, recorded⟩

/-- The recorded advertisement is attached to the recorded peer. -/
def recordedAttachment : Call × Except PeeringError Answer :=
  (.attachArchival Identity.recordedDocument.nodeId recordedAdvertisement "2026-08-23T00:02:00Z",
    .ok .done)

/-- The recorded peer with its advertisement is known. -/
theorem recorded_advertised : ∃ registry,
    Run (Step peerPrimitives) empty [recordedIntroduction, recordedAttachment] registry ∧
    registry.get peerPrimitives Identity.recordedDocument.nodeId = .ok (some (recordedRecord
      .introduced none (some recordedSnapshot) (some recordedAdvertisement)
      (saturatingSucc 1))) := by
  obtain ⟨first, introduced, known⟩ := recorded_introduced
  have advertised : ∀ value ∈ some recordedAdvertisement, value = recordedAdvertisement :=
    fun value present => (Option.some.inj present).symm
  obtain ⟨second, written⟩ := recordedRecord_written first .introduced none
    (some recordedAdvertisement) (saturatingSucc 1) recordedSnapshot_shape nofun advertised
    (by decide)
  have attached := (attach_ok_iff first second Identity.recordedDocument.nodeId
    recordedAdvertisement "2026-08-23T00:02:00Z").mpr ⟨⟨recordedTime_valid, rfl⟩, _, known, _,
      peerIdentity_rebuilt, recordedAdvertisement_verified, .inr ⟨rfl, written⟩⟩
  exact ⟨second, .snoc (.single introduced) (step_of_atomic (fun _ => .done) attached rfl),
    (get_writePeer written _).trans (if_pos rfl)⟩

/-- The signer of the recorded advertisement is not accepted after the declaration. -/
theorem recordedSigner_rejected : ¬SignerAccepted recordedAdvertisement compromisedIdentity := by
  rintro ⟨key, issued, known, -, active, -⟩
  rw [compromisedIdentity, Identity.get?_restated, if_pos (by rfl)] at known
  obtain rfl := Option.some.inj known
  exact Identity.statusOf_ne_active Identity.recordedCompromise.status active

/-- The declaration that the key of the recorded peer is compromised is not recordable once the
registry holds the recorded advertisement. -/
theorem recorded_extension_refused : ∃ registry old,
    Reachable peerPrimitives registry ∧
    registry.get peerPrimitives Identity.recordedDocument.nodeId = .ok (some old) ∧
    old.state ≠ .revoked ∧ old.lifecycle <+: recordedLifecycle ∧
    recordedLifecycle ≠ old.lifecycle ∧ recordedLifecycle.length ≤ maxPeerLifecycleRecords ∧
    rebuildPeerIdentity peerPrimitives old.identity recordedLifecycle = .ok compromisedIdentity ∧
    validTimestamp "2026-08-23T00:02:00Z" = true ∧
    ¬∃ next, introduce peerPrimitives old.identity recordedLifecycle none "2026-08-23T00:02:00Z"
        registry = .ok (.applied, next) ∧
      next.identityState peerPrimitives Identity.recordedDocument.nodeId =
        .ok (some compromisedIdentity) := by
  obtain ⟨registry, run, found⟩ := recorded_advertised
  have reachable : Reachable peerPrimitives registry := ⟨_, run⟩
  have longer : recordedLifecycle ≠ [] := List.cons_ne_nil _ _
  have begins : [] <+: recordedLifecycle := List.nil_prefix
  refine ⟨registry, _, reachable, found, nofun, begins, longer, by decide,
    recordedLifecycle_rebuilt, recordedTime_valid, fun recorded => ?_⟩
  have accepted := ((introduce_longer_iff reachable.sound found nofun begins longer (by decide)
    recordedLifecycle_rebuilt recordedTime_valid).mp recorded).1
  exact recordedSigner_rejected (accepted recordedAdvertisement rfl)

end PeerRegistry

end QsolFed
