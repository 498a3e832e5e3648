import QsolFed.Bundle.Verified
import QsolFed.Peering.Extension

/-!
# The size of imported records

A bundle may embed the data of a peer in a shorter form than the one in which the registry writes
it. The limit for bundles still leaves room for the names of the fields, because embedded values
take two digits for each byte: the record of every peer of a verified bundle fits.
-/
namespace QsolFed.Bundle

open Checked Json Canonical Crypto Identity

variable {primitives : Primitives}

/-! ## Signatures -/

/-- A signature that verifies has 128 digits. -/
theorem writtenSize_signature {publicKey domain signature : String} {payload : ByteArray}
    {valid : Bool}
    (checked : verifySignature primitives publicKey domain payload signature = .ok valid) :
    writtenSize (.string signature) = 130 := by
  simp only [verifySignature, bind_ok_iff] at checked
  obtain ⟨_, _, _, decoded, -⟩ := checked
  simp only [Digest.decodeFixedHex, bind_ok_iff, ensure_ok_iff, List.all_eq_true] at decoded
  obtain ⟨_, ⟨length, hex⟩, -⟩ := decoded
  rw [writtenSize_string fun b member => unescaped_lowerHex (hex b member), length]

/-- A timestamp takes 22 bytes. -/
theorem writtenSize_parsed {value : String} {timestamp : Int}
    (parsed : Crypto.parseTimestamp value = .ok timestamp) : writtenSize (.string value) = 22 := by
  simp only [Crypto.parseTimestamp, bind_ok_iff, ensure_ok_iff] at parsed
  obtain ⟨_, shape, -⟩ := parsed
  exact writtenSize_timestamp shape

/-! ## Lifecycle records -/

/-- An accepted rotation record is not small. -/
theorem writtenSize_rotation_ge {state : IdentityState} {record : KeyRotationRecord}
    {previous : OperationalKeyState} {notBefore overlapUntil : Int}
    (accepted : RotationAccepted primitives state record previous notBefore overlapUntil) :
    478 ≤ writtenSize (Codecs.rotation.encode record) := by
  obtain ⟨payload, -, root, next, -⟩ := accepted.signed
  have rootSize := writtenSize_signature root
  have nextSize := writtenSize_signature next
  have start := writtenSize_parsed accepted.start
  have names : (Codecs.rotationFields.names.map fun name =>
      weigh Char.utf8Size (printText name) + 1).sum = 183 := by decide
  change 478 ≤ writtenSize (.object _)
  rw [writtenSize_object]
  simp only [Codecs.rotationFields, Fields.required, Fields.cons, Fields.nil, List.map_cons,
    List.map_nil, List.sum_cons, List.sum_nil, memberSize, List.length_cons, List.length_nil,
    Codec.string] at names ⊢
  generalize weigh Char.utf8Size = weighed at names ⊢
  generalize writtenSize = size at rootSize nextSize start ⊢
  omega

/-- An accepted status record is not small. -/
theorem writtenSize_status_ge {state : IdentityState} {record : KeyStatusRecord}
    {key : OperationalKeyState} {effectiveAt : Int}
    (accepted : StatusAccepted primitives state record key effectiveAt) :
    270 ≤ writtenSize (Codecs.status.encode record) := by
  obtain ⟨payload, -, root⟩ := accepted.signed
  have rootSize := writtenSize_signature root
  have start := writtenSize_parsed accepted.effective
  have schema : 20 ≤ writtenSize (.string record.schema) := by
    rw [accepted.schema, writtenSize_string (List.all_iff_forall_prop.mp (by decide))]
    decide
  have names : (Codecs.statusFields.names.map fun name =>
      weigh Char.utf8Size (printText name) + 1).sum = 101 := by decide
  change 270 ≤ writtenSize (.object _)
  rw [writtenSize_object]
  simp only [Codecs.statusFields, Fields.required, Fields.cons, Fields.nil, List.map_cons,
    List.map_nil, List.sum_cons, List.sum_nil, memberSize, List.length_cons, List.length_nil,
    Codec.string] at names ⊢
  generalize weigh Char.utf8Size = weighed at names ⊢
  generalize writtenSize = size at rootSize start schema ⊢
  omega

/-- The canonical bytes of an applied record are at least ten seventeenths of the written record. -/
theorem lifecycleRecord_size {state next : IdentityState} {record : PeerLifecycleRecord}
    (applied : applyRecord primitives state record = .ok next) {raw : ByteArray}
    (canonical : canonicalize primitives.unicode raw = .ok raw)
    (decoded : fromSlice Codecs.lifecycleRecord raw = some record) :
    10 * (writtenSize (Codecs.lifecycleRecord.encode record) + 1) ≤ 17 * raw.size := by
  obtain ⟨written, size, read⟩ := fromSlice_of_canonical canonical Codecs.lifecycleRecord
  rw [read] at decoded
  cases record with
  | rotation record =>
    obtain ⟨previous, notBefore, overlapUntil, accepted, -⟩ := (applyRotation_ok_iff ..).mp applied
    have large := writtenSize_rotation_ge accepted
    have grown : writtenSize (Codecs.rotation.encode record) ≤ writtenSize written + 196 := by
      refine grows_rotation written record ?_
      obtain ⟨inner, untagged, same⟩ := Option.map_eq_some_iff.mp decoded
      simp only [Codec.untagged] at untagged
      cases found : Codecs.rotation.decode written with
      | some other =>
        rw [found] at untagged
        cases untagged
        simp only [PeerLifecycleRecord.rotation.injEq] at same
        rw [same]
      | none =>
        rw [found] at untagged
        obtain ⟨other, -, rfl⟩ := Option.map_eq_some_iff.mp untagged
        cases same
    change 10 * (writtenSize (Codecs.rotation.encode record) + 1) ≤ _
    omega
  | status record =>
    obtain ⟨key, effectiveAt, accepted, -⟩ := (applyKeyStatus_ok_iff ..).mp applied
    have large := writtenSize_status_ge accepted
    have grown : writtenSize (Codecs.status.encode record) ≤ writtenSize written + 110 := by
      refine grows_status written record ?_
      obtain ⟨inner, untagged, same⟩ := Option.map_eq_some_iff.mp decoded
      simp only [Codec.untagged] at untagged
      cases found : Codecs.rotation.decode written with
      | some other =>
        rw [found] at untagged
        cases untagged
        cases same
      | none =>
        rw [found] at untagged
        obtain ⟨other, here, rfl⟩ := Option.map_eq_some_iff.mp untagged
        simp only [PeerLifecycleRecord.status.injEq] at same
        rw [here, same]
    change 10 * (writtenSize (Codecs.status.encode record) + 1) ≤ _
    omega

/-- The lifecycle of a peer is at most as large as its embedded records allow. -/
theorem lifecycle_size {encoded : List String} {lifecycle : List PeerLifecycleRecord}
    (embeds : List.Forall₂ (Embeds primitives Codecs.lifecycleRecord) encoded lifecycle)
    {state final : IdentityState}
    (applied : lifecycle.foldlM (applyRecord primitives) state = .ok final) :
    20 * writtenSize (Codecs.lifecycleRecord.list.encode lifecycle) ≤
      17 * (encoded.map fun text => (Text.bytes text).length).sum + 40 := by
  have records : 20 * (lifecycle.map fun record =>
        writtenSize (Codecs.lifecycleRecord.encode record) + 1).sum ≤
      17 * (encoded.map fun text => (Text.bytes text).length).sum := by
    induction embeds generalizing state with
    | nil => exact le_rfl
    | @cons text record texts rest here _ ih =>
      obtain ⟨middle, first, others⟩ := (foldlM_cons_ok_iff ..).mp applied
      obtain ⟨raw, decoded, canonical, read⟩ := here
      have one := lifecycleRecord_size first ((requireExactCanonical_ok_iff raw).mp canonical) read
      have size := size_decodeHex decoded
      have more := ih others
      simp only [List.map_cons, List.sum_cons]
      omega
  have marks : ∀ records : List PeerLifecycleRecord, (records.map fun record =>
        writtenSize (Codecs.lifecycleRecord.encode record) + 1).sum =
      ((records.map Codecs.lifecycleRecord.encode).map writtenSize).sum + records.length := by
    intro records
    induction records with
    | nil => rfl
    | cons record rest ih =>
      simp only [List.map_cons, List.sum_cons, List.length_cons] at ih ⊢
      omega
  rw [marks] at records
  change 20 * writtenSize (.array _) ≤ _
  rw [writtenSize_array, List.length_map]
  omega

/-! ## Peers -/

/-- The digits of the embedded values of a peer. -/
def embeddedDigits (peer : BundlePeer) : Nat :=
  (Text.bytes peer.identityHex).length +
    (peer.lifecycleHex.map fun text => (Text.bytes text).length).sum +
    peer.capabilityAdvertisementHex.elim 0 fun text => (Text.bytes text).length

/-- Decoded text is written as it is. -/
theorem writtenSize_decodeHex {value : String} {bytes : ByteArray}
    (decoded : decodeHex value = .ok bytes) :
    writtenSize (.string value) = (Text.bytes value).length + 2 := by
  obtain ⟨⟨-, -, -, hex⟩, -⟩ := (decodeHex_ok_iff ..).mp decoded
  exact writtenSize_string fun b member => unescaped_lowerHex (hex b member)

/-- A peer in a bundle takes at least the digits of its embedded values. -/
theorem PeerVerified.digits_le {peer : BundlePeer} {material : Material} {state : IdentityState}
    (verified : PeerVerified primitives peer material state) :
    embeddedDigits peer ≤ writtenSize (Codecs.bundlePeer.encode peer) := by
  have identity : writtenSize (.string peer.identityHex) =
      (Text.bytes peer.identityHex).length + 2 := by
    obtain ⟨bytes, decoded, -⟩ := verified.identity
    exact writtenSize_decodeHex decoded
  have lifecycle : (peer.lifecycleHex.map fun text => (Text.bytes text).length).sum ≤
      writtenSize ((Codec.list .string).encode peer.lifecycleHex) := by
    change _ ≤ writtenSize (.array _)
    rw [writtenSize_array]
    have each : ∀ {texts : List String} {records : List PeerLifecycleRecord},
        List.Forall₂ (Embeds primitives Codecs.lifecycleRecord) texts records →
        (texts.map fun text => (Text.bytes text).length).sum ≤
          ((texts.map Codec.string.encode).map writtenSize).sum := by
      intro texts records embeds
      induction embeds with
      | nil => exact le_rfl
      | @cons text record texts rest here _ ih =>
        obtain ⟨raw, decoded, -⟩ := here
        have one : writtenSize (Codec.string.encode text) = (Text.bytes text).length + 2 :=
          writtenSize_decodeHex decoded
        simp only [List.map_cons, List.sum_cons]
        omega
    have sum := each verified.lifecycle
    omega
  have advertisement : (peer.capabilityAdvertisementHex.elim 0 fun text =>
        (Text.bytes text).length) ≤
      writtenSize (Codecs.nullableString.encode peer.capabilityAdvertisementHex) := by
    have related := verified.advertisement
    generalize material.advertisement = found at related
    cases given : peer.capabilityAdvertisementHex with
    | none => exact Nat.zero_le _
    | some text =>
      rw [given] at related
      cases related with
      | some embedded =>
        obtain ⟨raw, decoded, -⟩ := embedded
        have one : writtenSize (Codecs.nullableString.encode (some text)) =
          (Text.bytes text).length + 2 := writtenSize_decodeHex decoded
        rw [one]
        exact Nat.le_add_right _ _
  change _ ≤ writtenSize (.object _)
  rw [writtenSize_object]
  simp only [embeddedDigits, Codecs.bundlePeerFields, Fields.required, Fields.cons, Fields.nil,
    List.map_cons, List.map_nil, List.sum_cons, List.sum_nil, memberSize, List.length_cons,
    List.length_nil]
  change writtenSize (Codec.string.encode peer.identityHex) = _ at identity
  generalize writtenSize = size at identity lifecycle advertisement ⊢
  omega

/-- Each peer of a verified bundle is small. -/
theorem BundleVerified.peer_size {raw : ByteArray} {bundle : PortableFederationBundle}
    (verified : BundleVerified primitives raw bundle) {peer : BundlePeer}
    (member : peer ∈ bundle.peers) :
    writtenSize (Codecs.bundlePeer.encode peer) ≤ maxBundleBytes + 98 := by
  have canonical := (requireExactCanonical_ok_iff raw).mp verified.canonical
  obtain ⟨written, size, read⟩ := fromSlice_of_canonical canonical Codecs.bundle
  have decoded := read.symm.trans verified.parsed
  obtain ⟨fields, here, same⟩ := Option.map_eq_some_iff.mp decoded
  have peers : HasPart Codecs.bundleFields (fun value => value.2.2.2.2.1) Codecs.bundlePeer.list :=
    hasPart_later <| hasPart_later <| hasPart_later <| hasPart_later <| hasPart_first ..
  obtain ⟨list, listSize, listed⟩ := record_part peers here
  have part : fields.2.2.2.2.1 = bundle.peers := by rw [← same]
  rw [part] at listed
  obtain ⟨item, itemSize, parsed⟩ := list_part listed member
  have grown := grows_bundlePeer item peer parsed
  have short := verified.short
  omega

/-- The record of a peer of a verified bundle fits. -/
theorem PeerVerified.fits {peer : BundlePeer} {material : Material} {state : IdentityState}
    (verified : PeerVerified primitives peer material state)
    (small : writtenSize (Codecs.bundlePeer.encode peer) ≤ maxBundleBytes + 98) :
    writtenSize (Codecs.identity.encode material.identity) +
      writtenSize (Codecs.lifecycleRecord.list.encode material.lifecycle) +
      writtenSize (Codecs.nullableAdvertisement.encode material.advertisement) + 632 ≤
        maxInputBytes := by
  have digits := verified.digits_le.trans small
  have identity : 2 * writtenSize (Codecs.identity.encode material.identity) ≤
      (Text.bytes peer.identityHex).length + 296 := by
    obtain ⟨bytes, decoded, canonical, read⟩ := verified.identity
    have grown := grows_identity.fromSlice ((requireExactCanonical_ok_iff bytes).mp canonical) read
    have size := size_decodeHex decoded
    omega
  have lifecycle : 20 * writtenSize (Codecs.lifecycleRecord.list.encode material.lifecycle) ≤
      17 * (peer.lifecycleHex.map fun text => (Text.bytes text).length).sum + 40 := by
    obtain ⟨initial, -, applied⟩ := (Peering.rebuildPeerIdentity_ok_iff ..).mp verified.rebuilt
    exact lifecycle_size verified.lifecycle applied
  have advertisement :
      2 * writtenSize (Codecs.nullableAdvertisement.encode material.advertisement) ≤
        (peer.capabilityAdvertisementHex.elim 0 fun text => (Text.bytes text).length) + 624 := by
    have related := verified.advertisement
    generalize material.advertisement = found at related ⊢
    cases given : peer.capabilityAdvertisementHex with
    | none =>
      rw [given] at related
      cases related
      have absent : writtenSize .null ≤ 100 := by
        rw [writtenSize_eq]
        decide
      change 2 * writtenSize .null ≤ 0 + 624
      omega
    | some text =>
      rw [given] at related
      cases related with
      | some embedded =>
        obtain ⟨bytes, decoded, canonical, read⟩ := embedded
        have grown :=
          grows_advertisement.fromSlice ((requireExactCanonical_ok_iff bytes).mp canonical) read
        have size := size_decodeHex decoded
        change 2 * writtenSize (Codecs.advertisement.encode _) ≤ (Text.bytes text).length + 624
        omega
  have limits : maxBundleBytes = 65536 ∧ maxInputBytes = 65536 := ⟨rfl, rfl⟩
  unfold embeddedDigits at digits
  omega

end QsolFed.Bundle
