import QsolFed.Signing.Verdict

/-!
# Issuing lifecycle records

A node replaces its current key by a transition or, once this key is revoked or compromised, by a
recovery. Its root key also declares keys revoked or compromised. The issuing side and the applying
side check lists of their own: a record that the issuing side returns is applied exactly when the
new key was never used and the key it replaces is active, where it signs, and valid by then.
-/
namespace QsolFed

open Checked Canonical Crypto Identity

namespace LocalSigningKey

/-- The key does not collide with a public key. -/
def ApartFrom (primitives : Primitives) (key : LocalSigningKey) (publicKey : String) : Prop :=
  Set.InjOn primitives.sha256 {message | message = keyIdDomain.toByteArray ++ key.verifyingKey ∨
    ∃ bytes, Digest.decodeFixedHex 32 publicKey = .ok bytes ∧
      message = keyIdDomain.toByteArray ++ bytes}

end LocalSigningKey

namespace Identity

/-! ## The issuing side -/

section Issuing

variable (primitives : Primitives) (state : IdentityState)

/-- A record by which the current key hands over to the next one. -/
def createTransitionRotation (root previous next : LocalSigningKey)
    (notBefore overlapUntil : String) : Except CryptoError KeyRotationRecord := do
  ensure (root.keyId primitives = state.rootKeyId ∧ previous.keyId primitives = state.currentKeyId)
    (.code "rotation_signing_key_mismatch")
  ensure (next.keyId primitives ≠ state.rootKeyId ∧ next.keyId primitives ≠ state.currentKeyId)
    (.code "rotation_next_key_role_invalid")
  let notBeforeUnix ← parseTimestamp notBefore
  let overlapUntilUnix ← parseTimestamp overlapUntil
  ensure (notBeforeUnix ≤ overlapUntilUnix ∧
    overlapUntilUnix - notBeforeUnix ≤ maxRotationOverlapSeconds) (.code "rotation_overlap_invalid")
  ensureNoOtherOverlap state state.currentKeyId notBeforeUnix
  let record : KeyRotationRecord :=
    { schema := keyRotationSchemaV1
      nodeId := state.nodeId
      algorithm := .ed25519
      sequence := state.sequence + 1
      mode := .transition
      previousKeyId := previous.keyId primitives
      nextKeyId := next.keyId primitives
      nextPublicKey := next.publicKeyHex
      notBefore
      overlapUntil
      previousSignature := none
      nextSignature := ""
      rootSignature := "" }
  let payload ← canonicalJson primitives (rotationPayload record)
  pure { record with
    previousSignature := some (previous.signDomain keyRotationDomain payload)
    nextSignature := next.signDomain keyRotationDomain payload
    rootSignature := root.signDomain keyRotationDomain payload }

/-- A record by which the next key replaces a revoked or compromised one. -/
def createRecoveryRotation (root next : LocalSigningKey) (notBefore : String) :
    Except CryptoError KeyRotationRecord := do
  ensure (root.keyId primitives = state.rootKeyId) (.code "root_key_mismatch")
  ensure (next.keyId primitives ≠ state.rootKeyId ∧ next.keyId primitives ≠ state.currentKeyId)
    (.code "rotation_next_key_role_invalid")
  let previous ← okOr (state.operationalKeys.get? state.currentKeyId)
    (.code "current_operational_key_missing")
  ensure (previous.status = .revoked ∨ previous.status = .compromised)
    (.code "recovery_requires_revoked_or_compromised_key")
  let notBeforeUnix ← parseTimestamp notBefore
  ensureNoOtherOverlap state state.currentKeyId notBeforeUnix
  let record : KeyRotationRecord :=
    { schema := keyRotationSchemaV1
      nodeId := state.nodeId
      algorithm := .ed25519
      sequence := state.sequence + 1
      mode := .recovery
      previousKeyId := state.currentKeyId
      nextKeyId := next.keyId primitives
      nextPublicKey := next.publicKeyHex
      notBefore
      overlapUntil := notBefore
      previousSignature := none
      nextSignature := ""
      rootSignature := "" }
  let payload ← canonicalJson primitives (rotationPayload record)
  pure { record with
    nextSignature := next.signDomain keyRotationDomain payload
    rootSignature := root.signDomain keyRotationDomain payload }

/-- A record that declares a key revoked or compromised. -/
def createKeyStatusRecord (root : LocalSigningKey) (keyId : String) (status : KeyStatusKind)
    (effectiveAt : String) (reason : KeyStatusReason) : Except CryptoError KeyStatusRecord := do
  ensure (root.keyId primitives = state.rootKeyId ∧ keyId ≠ state.rootKeyId)
    (.code "status_root_or_target_invalid")
  let key ← okOr (state.operationalKeys.get? keyId) (.code "status_target_unknown")
  let effective ← parseTimestamp effectiveAt
  ensure (key.validFrom ≤ effective) (.code "status_before_key_activation")
  let record : KeyStatusRecord :=
    { schema := keyStatusSchemaV1
      nodeId := state.nodeId
      algorithm := .ed25519
      sequence := state.sequence + 1
      keyId
      status
      effectiveAt
      reason
      rootSignature := "" }
  let payload ← canonicalJson primitives (keyStatusPayload record)
  pure { record with rootSignature := root.signDomain keyStatusDomain payload }

end Issuing

variable {primitives : Primitives} {state : IdentityState}

/-! ## The root key -/

/-- The identifier of the root key of a reachable state is derived from it. -/
theorem Reachable.rootDerived (reachable : Reachable primitives state) :
    deriveKeyId primitives state.rootPublicKey = .ok state.rootKeyId :=
  reachable.invariant (fun state => deriveKeyId primitives state.rootPublicKey =
      .ok state.rootKeyId)
    (fun document _ verified _ => ((verifyIdentityDocument_iff document).mp verified).root)
    (fun _ _ _ _ _ derived _ => derived) fun _ _ _ _ derived _ => derived

/-- A state names the root key that it knows by the public key of the signing key. -/
theorem rootPublicKey_of_keyId {root : LocalSigningKey} (reachable : Reachable primitives state)
    (apart : root.ApartFrom primitives state.rootPublicKey)
    (same : root.keyId primitives = state.rootKeyId) : state.rootPublicKey = root.publicKeyHex := by
  have derived := reachable.rootDerived
  rw [← same] at derived
  exact root.publicKey_of_keyId primitives derived apart

/-! ## The conditions of the applying side -/

/-- A key may follow the current one: it was never used, and the current key is valid by then. -/
structure MayFollow (primitives : Primitives) (state : IdentityState) (next : LocalSigningKey)
    (notBefore : String) : Prop where
  /-- The key was never used. -/
  fresh : state.operationalKeys.get? (next.keyId primitives) = none
  /-- The current key is valid by then. -/
  activated : ∀ current start, state.operationalKeys.get? state.currentKeyId = some current →
    parseTimestamp notBefore = .ok start → current.validFrom ≤ start

/-- The current key is active. -/
def CurrentActive (state : IdentityState) : Prop :=
  ∀ current, state.operationalKeys.get? state.currentKeyId = some current →
    current.status = .active

/-- A transition that a reachable state issues is applied to it exactly when the next key may follow
and the current key is active. -/
theorem transition_applied_iff (reachable : Reachable primitives state)
    {root previous next : LocalSigningKey} {notBefore overlapUntil : String}
    {record : KeyRotationRecord}
    (created : createTransitionRotation primitives state root previous next notBefore overlapUntil =
      .ok record)
    (correct : ∀ payload, canonicalJson primitives (rotationPayload record) = .ok payload →
      ∀ key ∈ [root, previous, next],
        key.Signs primitives (keyRotationDomain.toByteArray ++ payload))
    (rootApart : root.ApartFrom primitives state.rootPublicKey)
    (previousApart : previous.Apart primitives state) :
    (∃ after, applyRotation primitives state record = .ok after) ↔
      MayFollow primitives state next notBefore ∧ CurrentActive state := by
  have represented := reachable.represented
  simp only [createTransitionRotation, ensureNoOtherOverlap, bind_ok_iff, ensure_ok_iff,
    exists_const, pure_ok_iff] at created
  obtain ⟨⟨rootId, previousId⟩, ⟨notRoot, -⟩, start, begins, finish, ends, ⟨forward, bounded⟩,
    apart, payload, encoded, rfl⟩ := created
  obtain ⟨current, known⟩ := represented.current
  have encodes := correct payload encoded
  simp only [List.forall_mem_cons] at encodes
  obtain ⟨rootSigns, previousSigns, nextSigns, -⟩ := encodes
  constructor
  · rintro ⟨after, applied⟩
    obtain ⟨replaced, start_, finish_, accepted, -⟩ := (applyRotation_ok_iff ..).mp applied
    have replacedKnown : state.operationalKeys.get? (previous.keyId primitives) = some replaced :=
      accepted.replaced
    rw [previousId, known] at replacedKnown
    obtain rfl := Option.some.inj replacedKnown
    obtain rfl := Except.ok.inj (accepted.start.symm.trans begins)
    obtain ⟨payload_, -, -, -, mode⟩ := accepted.signed
    have active : current.status = .active := by
      rcases mode with ⟨-, active, -⟩ | ⟨recovery, -⟩
      · exact active
      · cases recovery
    refine ⟨⟨accepted.fresh, fun other start_ found parsed => ?_⟩, fun other found => ?_⟩
    · obtain rfl := Option.some.inj (known.symm.trans found)
      obtain rfl := Except.ok.inj (begins.symm.trans parsed)
      exact accepted.activated
    · obtain rfl := Option.some.inj (known.symm.trans found)
      exact active
  · rintro ⟨⟨fresh, activated⟩, active⟩
    have found : state.operationalKeys.get? (previous.keyId primitives) = some current := by
      rw [previousId]
      exact known
    have rootVerified := rootSigns.verifies
    rw [← rootPublicKey_of_keyId reachable rootApart rootId] at rootVerified
    have previousVerified := previousSigns.verifies
    rw [← publicKey_of_known represented previousApart found] at previousVerified
    refine ⟨_, (applyRotation_ok_iff ..).mpr ⟨current, start, finish, ⟨rfl, rfl, rfl, previousId,
      notRoot, next.deriveKeyId_publicKeyHex primitives, fresh, begins, ends, forward, bounded, ?_,
      found, activated current start known begins, payload, encoded, rootVerified,
      nextSigns.verifies, .inl ⟨rfl, active current known, _, rfl, previousVerified⟩⟩, rfl⟩⟩
    rw [← previousId] at apart
    exact apart

/-- A recovery that a reachable state issues is applied to it exactly when the next key may
follow: a revoked or compromised key does not sign. -/
theorem recovery_applied_iff (reachable : Reachable primitives state)
    {root next : LocalSigningKey} {notBefore : String} {record : KeyRotationRecord}
    (created : createRecoveryRotation primitives state root next notBefore = .ok record)
    (correct : ∀ payload, canonicalJson primitives (rotationPayload record) = .ok payload →
      ∀ key ∈ [root, next], key.Signs primitives (keyRotationDomain.toByteArray ++ payload))
    (rootApart : root.ApartFrom primitives state.rootPublicKey) :
    (∃ after, applyRotation primitives state record = .ok after) ↔
      MayFollow primitives state next notBefore := by
  simp only [createRecoveryRotation, ensureNoOtherOverlap, bind_ok_iff, ensure_ok_iff, okOr_ok_iff,
    exists_const, pure_ok_iff] at created
  obtain ⟨rootId, ⟨notRoot, -⟩, current, known, inactive, start, begins, apart, payload, encoded,
    rfl⟩ := created
  have encodes := correct payload encoded
  simp only [List.forall_mem_cons] at encodes
  obtain ⟨rootSigns, nextSigns, -⟩ := encodes
  constructor
  · rintro ⟨after, applied⟩
    obtain ⟨replaced, start_, finish_, accepted, -⟩ := (applyRotation_ok_iff ..).mp applied
    obtain rfl := Option.some.inj (known.symm.trans accepted.replaced)
    refine ⟨accepted.fresh, fun other other_ found parsed => ?_⟩
    obtain rfl := Option.some.inj (known.symm.trans found)
    obtain rfl := Except.ok.inj (accepted.start.symm.trans parsed)
    exact accepted.activated
  · rintro ⟨fresh, activated⟩
    have rootVerified := rootSigns.verifies
    rw [← rootPublicKey_of_keyId reachable rootApart rootId] at rootVerified
    exact ⟨_, (applyRotation_ok_iff ..).mpr ⟨current, start, start, ⟨rfl, rfl, rfl, rfl, notRoot,
      next.deriveKeyId_publicKeyHex primitives, fresh, begins, begins, le_rfl,
      by rw [sub_self]; decide, apart, known, activated current start known begins, payload,
      encoded, rootVerified, nextSigns.verifies,
      .inr ⟨rfl, rfl, (status_inactive_iff _).mp inactive, rfl⟩⟩, rfl⟩⟩

/-- A status record that a reachable state issues is applied to it. -/
theorem status_applied (reachable : Reachable primitives state) {root : LocalSigningKey}
    {keyId effectiveAt : String} {status : KeyStatusKind} {reason : KeyStatusReason}
    {record : KeyStatusRecord}
    (created : createKeyStatusRecord primitives state root keyId status effectiveAt reason =
      .ok record)
    (correct : ∀ payload, canonicalJson primitives (keyStatusPayload record) = .ok payload →
      root.Signs primitives (keyStatusDomain.toByteArray ++ payload))
    (rootApart : root.ApartFrom primitives state.rootPublicKey) :
    ∃ after, applyKeyStatus primitives state record = .ok after := by
  simp only [createKeyStatusRecord, bind_ok_iff, ensure_ok_iff, okOr_ok_iff, exists_const,
    pure_ok_iff] at created
  obtain ⟨⟨rootId, notRoot⟩, key, known, effective, parsed, activated, payload, encoded, rfl⟩ :=
    created
  have rootVerified := (correct payload encoded).verifies
  rw [← rootPublicKey_of_keyId reachable rootApart rootId] at rootVerified
  exact ⟨_, (applyKeyStatus_ok_iff ..).mpr ⟨key, effective, ⟨rfl, rfl, rfl, notRoot, parsed, known,
    activated, payload, encoded, rootVerified⟩, rfl⟩⟩

/-- What a reachable state issues is applied to it in these cases: a transition when the next key
may follow and the current key is active, a recovery when the next key may follow, and a
declaration always. -/
theorem issued_applied_iff (primitives : Primitives) {state : IdentityState}
    (reachable : Reachable primitives state) {root : LocalSigningKey}
    (rootApart : root.ApartFrom primitives state.rootPublicKey) :
    (∀ previous next notBefore overlapUntil record,
      createTransitionRotation primitives state root previous next notBefore overlapUntil =
        .ok record → previous.Apart primitives state →
      (∀ payload, canonicalJson primitives (rotationPayload record) = .ok payload →
        ∀ key ∈ [root, previous, next],
          key.Signs primitives (keyRotationDomain.toByteArray ++ payload)) →
      ((∃ after, applyRotation primitives state record = .ok after) ↔
        MayFollow primitives state next notBefore ∧ CurrentActive state)) ∧
    (∀ next notBefore record,
      createRecoveryRotation primitives state root next notBefore = .ok record →
      (∀ payload, canonicalJson primitives (rotationPayload record) = .ok payload →
        ∀ key ∈ [root, next], key.Signs primitives (keyRotationDomain.toByteArray ++ payload)) →
      ((∃ after, applyRotation primitives state record = .ok after) ↔
        MayFollow primitives state next notBefore)) ∧
    ∀ keyId status effectiveAt reason record,
      createKeyStatusRecord primitives state root keyId status effectiveAt reason = .ok record →
      (∀ payload, canonicalJson primitives (keyStatusPayload record) = .ok payload →
        root.Signs primitives (keyStatusDomain.toByteArray ++ payload)) →
      ∃ after, applyKeyStatus primitives state record = .ok after := by
  refine ⟨?_, ?_, ?_⟩
  · intro previous next notBefore overlapUntil record created previousApart correct
    exact transition_applied_iff reachable created correct rootApart previousApart
  · intro next notBefore record created correct
    exact recovery_applied_iff reachable created correct rootApart
  · intro keyId status effectiveAt reason record created correct
    exact status_applied reachable created correct rootApart

/-! ## Recorded keys -/

/-- The root key of the recorded node. -/
def rootKey : LocalSigningKey :=
  heldKey recordedDocument.rootPublicKey recordedDocument.rootSignature (by decide)
    (by decide +kernel)

/-- The key that follows at the recorded node. -/
def followingKey : LocalSigningKey :=
  heldKey recordedFirst.nextPublicKey recordedFirst.nextSignature (by decide) (by decide +kernel)

/-- The identifier of the root key is that of the recorded document. -/
theorem keyId_rootKey : rootKey.keyId recordedPrimitives = recordedDocument.rootKeyId := by
  have derived := rootKey.deriveKeyId_publicKeyHex recordedPrimitives
  rw [rootKey, publicKeyHex_heldKey, recordedDocument_verified.root] at derived
  exact (Except.ok.inj derived).symm

/-- The identifier of the following key is that of the first recorded rotation. -/
theorem keyId_followingKey :
    followingKey.keyId recordedPrimitives = recordedFirst.nextKeyId := by
  have derived := followingKey.deriveKeyId_publicKeyHex recordedPrimitives
  rw [followingKey, publicKeyHex_heldKey, recordedFirst_accepted.derived] at derived
  exact (Except.ok.inj derived).symm

/-- A key does not collide with its own public key. -/
theorem apartFrom_publicKeyHex (primitives : Primitives) (key : LocalSigningKey) :
    key.ApartFrom primitives key.publicKeyHex := by
  have only : ∀ message, (message = keyIdDomain.toByteArray ++ key.verifyingKey ∨
      ∃ bytes, Digest.decodeFixedHex 32 key.publicKeyHex = .ok bytes ∧
        message = keyIdDomain.toByteArray ++ bytes) →
      message = keyIdDomain.toByteArray ++ key.verifyingKey := by
    rintro message (own | ⟨bytes, decoded, same⟩)
    · exact own
    · rw [same, Except.ok.inj (decoded.symm.trans key.decode_publicKeyHex)]
  intro one here two there _
  exact (only one here).trans (only two there).symm

/-- The root key does not collide with that of the recorded node. -/
theorem rootKey_apart : rootKey.ApartFrom recordedPrimitives
    (introduced recordedDocument 1787443200).rootPublicKey := by
  have apart := apartFrom_publicKeyHex recordedPrimitives rootKey
  rw [rootKey, publicKeyHex_heldKey] at apart
  exact apart

/-- The recorded keys sign. -/
theorem recorded_keys_sign (message : ByteArray) :
    ∀ key ∈ [rootKey, firstKey, followingKey], key.Signs recordedPrimitives message := by
  simp only [List.forall_mem_cons]
  refine ⟨signs_heldKey (by simp [recordedSignatures]) message,
    signs_heldKey (by simp [recordedSignatures, Api.firstSigned]) message,
    signs_heldKey (by simp [recordedSignatures]) message, ?_⟩
  intro key none_
  cases none_

/-- The recorded rotation at another time and without an overlap. -/
def rotationAt (time : String) : KeyRotationRecord :=
  { recordedFirst with notBefore := time, overlapUntil := time }

/-- The recorded node issues a transition at any time. -/
theorem recorded_transition {time : String} {start : Int}
    (begins : parseTimestamp time = .ok start)
    (plain : isPlain (rotationPayload (rotationAt time)) = true)
    (small : sizeBound (rotationPayload (rotationAt time)) ≤ maxInputBytes) :
    ∃ record, createTransitionRotation recordedPrimitives (introduced recordedDocument 1787443200)
      rootKey firstKey followingKey time time = .ok record := by
  obtain ⟨payload, encoded⟩ := canonicalJson_of_check recordedPrimitives
    (rotationPayload (rotationAt time)) plain (Nat.le_of_ble_eq_true rfl) small
  have clear : ensureNoOtherOverlap (introduced recordedDocument 1787443200)
      (introduced recordedDocument 1787443200).currentKeyId start = .ok () := by
    refine (ensure_ok_iff ..).mpr (apart_of_keys fun id key known => ?_)
    simp only [introduced, OrderedMap.get?_insert, OrderedMap.get?_empty] at known
    split_ifs at known
    obtain rfl := Option.some.inj known
    simp [overlaps]
  have digits : followingKey.publicKeyHex = recordedFirst.nextPublicKey := publicKeyHex_heldKey
  rw [createTransitionRotation, keyId_rootKey, keyId_firstKey, keyId_followingKey, digits,
    ensure_pos ⟨rfl, rfl⟩, bind_ok, ensure_pos ⟨by decide, by decide⟩, bind_ok, begins, bind_ok,
    bind_ok, ensure_pos ⟨le_rfl, by rw [sub_self]; decide⟩, bind_ok, clear, bind_ok]
  refine ⟨_, (bind_ok_iff ..).mpr ⟨payload, encoded, rfl⟩⟩

/-- What the recorded node issues ten minutes after it was created is applied. -/
theorem issued_applied_iff_recorded : ∃ record after,
    createTransitionRotation recordedPrimitives (introduced recordedDocument 1787443200) rootKey
      firstKey followingKey "2026-08-23T00:10:00Z" "2026-08-23T00:10:00Z" = .ok record ∧
    applyRotation recordedPrimitives (introduced recordedDocument 1787443200) record =
      .ok after := by
  obtain ⟨record, created⟩ := @recorded_transition "2026-08-23T00:10:00Z" 1787443800 rfl
    (by decide) (by decide)
  obtain ⟨transition, -, -⟩ := issued_applied_iff recordedPrimitives recordedDocument_reachable
    rootKey_apart
  have applied := transition firstKey followingKey _ _ record created (firstKey_apart _)
    (fun payload _ => recorded_keys_sign _)
  have known : ∀ current, (introduced recordedDocument 1787443200).operationalKeys.get?
      (introduced recordedDocument 1787443200).currentKeyId = some current →
      current = recordedKey := by
    intro current found
    exact (Option.some.inj found).symm
  have fresh : (introduced recordedDocument 1787443200).operationalKeys.get?
      (followingKey.keyId recordedPrimitives) = none := by
    rw [keyId_followingKey]
    rfl
  have activated : ∀ current start, (introduced recordedDocument 1787443200).operationalKeys.get?
      (introduced recordedDocument 1787443200).currentKeyId = some current →
      parseTimestamp "2026-08-23T00:10:00Z" = .ok start → current.validFrom ≤ start := by
    intro current start found parsed
    obtain rfl := known current found
    obtain rfl : 1787443800 = start := Except.ok.inj parsed
    decide
  have active : CurrentActive (introduced recordedDocument 1787443200) := by
    intro current found
    obtain rfl := known current found
    rfl
  obtain ⟨after, rotated⟩ := applied.mpr ⟨⟨fresh, activated⟩, active⟩
  exact ⟨record, after, created, rotated⟩

/-- What the recorded node issues for a time before it was created is not applied. -/
theorem early_transition_not_applied : ∃ record,
    createTransitionRotation recordedPrimitives (introduced recordedDocument 1787443200) rootKey
      firstKey followingKey "2026-08-22T00:00:00Z" "2026-08-22T00:00:00Z" = .ok record ∧
    (∀ message, ∀ key ∈ [rootKey, firstKey, followingKey],
      key.Signs recordedPrimitives message) ∧
    Reachable recordedPrimitives (introduced recordedDocument 1787443200) ∧
    ∀ after, applyRotation recordedPrimitives (introduced recordedDocument 1787443200) record ≠
      .ok after := by
  obtain ⟨record, created⟩ := @recorded_transition "2026-08-22T00:00:00Z" 1787356800 rfl
    (by decide) (by decide)
  refine ⟨record, created, recorded_keys_sign, recordedDocument_reachable, ?_⟩
  intro after applied
  have follows := ((transition_applied_iff recordedDocument_reachable created
    (fun payload _ => recorded_keys_sign _) rootKey_apart (firstKey_apart _)).mp
      ⟨after, applied⟩).1
  exact absurd (follows.activated recordedKey 1787356800 rfl rfl) (by decide)

end Identity

end QsolFed
