import QsolFed.Bundle
import QsolFed.Encoding.Growth

/-!
# Embedded values

A bundle embeds canonical bytes as hexadecimal text. Decoding takes the encoding back, and the two
have the same size up to a factor of two. A peer that a bundle of the permitted size holds has a
record of the permitted size, however short its embedded values are written.
-/
namespace QsolFed.Bundle

open Checked Json Canonical Crypto

variable {primitives : Primitives}

/-! ## Hexadecimal -/

/-- Embedded bytes are decoded from an even number of digits that is not too large. -/
theorem decodeHex_ok_iff (value : String) (bytes : ByteArray) : decodeHex value = .ok bytes ↔
    (Text.bytes value ≠ [] ∧ (Text.bytes value).length ≤ maxBundleEmbeddedHexChars ∧
      (Text.bytes value).length % 2 = 0 ∧
      ∀ b ∈ Text.bytes value, Wire.isLowerHex b = true) ∧
    bytes = ⟨(Digest.fromHex (Text.bytes value)).toArray⟩ := by
  simp only [decodeHex, bind_ok_iff, ensure_ok_iff, exists_const, pure_ok_iff, List.all_eq_true]
  exact and_congr Iff.rfl eq_comm

/-- Embedded bytes have half as many bytes as digits. -/
theorem size_decodeHex {value : String} {bytes : ByteArray}
    (decoded : decodeHex value = .ok bytes) : bytes.size * 2 = (Text.bytes value).length := by
  obtain ⟨⟨-, -, even, -⟩, rfl⟩ := (decodeHex_ok_iff ..).mp decoded
  exact length_fromHex even

/-- Bytes are embedded when they are not too many. -/
theorem encodeHex_ok_iff (bytes : ByteArray) (value : String) : encodeHex bytes = .ok value ↔
    bytes.size * 2 ≤ maxBundleEmbeddedHexChars ∧
      value = Digest.lowercaseHex bytes.data.toList := by
  simp only [encodeHex, bind_ok_iff, ensure_ok_iff, exists_const, pure_ok_iff]
  exact and_congr Iff.rfl eq_comm

/-- Embedded bytes are decoded as these bytes. -/
theorem decodeHex_encodeHex {bytes : ByteArray} {value : String} (some_ : bytes.size ≠ 0)
    (encoded : encodeHex bytes = .ok value) : decodeHex value = .ok bytes := by
  obtain ⟨short, rfl⟩ := (encodeHex_ok_iff ..).mp encoded
  have length := length_lowercaseHex bytes.data.toList
  have size : bytes.data.toList.length = bytes.size := rfl
  have nonempty : Text.bytes (Digest.lowercaseHex bytes.data.toList) ≠ [] := by
    intro void
    rw [void, List.length_nil] at length
    omega
  refine (decodeHex_ok_iff ..).mpr ⟨⟨nonempty, by omega, by omega, isLowerHex_lowercaseHex _⟩, ?_⟩
  rw [fromHex_lowercaseHex]

/-! ## Growth of embedded values -/

/-- A document grows by the names of its fields. -/
theorem grows_identity : Grows Codecs.identity 148 := by
  refine (grows_iso (fun _ => rfl) <| grows_record <|
    fieldsGrow_required grows_string <| fieldsGrow_required grows_string <|
    fieldsGrow_required (grows_enumeration _ _ _) <| fieldsGrow_required grows_string <|
    fieldsGrow_required grows_string <| fieldsGrow_required grows_string <|
    fieldsGrow_required grows_string <| fieldsGrow_required grows_string <|
    fieldsGrow_required grows_string fieldsGrow_nil).mono ?_
  decide

/-- A rotation record grows by the names of its fields. -/
theorem grows_rotation : Grows Codecs.rotation 196 := by
  refine (grows_iso (fun _ => rfl) <| grows_record <|
    fieldsGrow_required grows_string <| fieldsGrow_required grows_string <|
    fieldsGrow_required (grows_enumeration _ _ _) <| fieldsGrow_required grows_uint64 <|
    fieldsGrow_required (grows_enumeration _ _ _) <| fieldsGrow_required grows_string <|
    fieldsGrow_required grows_string <| fieldsGrow_required grows_string <|
    fieldsGrow_required grows_string <| fieldsGrow_required grows_string <|
    fieldsGrow_required (grows_nullable grows_string) <| fieldsGrow_required grows_string <|
    fieldsGrow_required grows_string fieldsGrow_nil).mono ?_
  decide

/-- A status record grows by the names of its fields. -/
theorem grows_status : Grows Codecs.status 110 := by
  refine (grows_iso (fun _ => rfl) <| grows_record <|
    fieldsGrow_required grows_string <| fieldsGrow_required grows_string <|
    fieldsGrow_required (grows_enumeration _ _ _) <| fieldsGrow_required grows_uint64 <|
    fieldsGrow_required grows_string <| fieldsGrow_required (grows_enumeration _ _ _) <|
    fieldsGrow_required grows_string <| fieldsGrow_required (grows_enumeration _ _ _) <|
    fieldsGrow_required grows_string fieldsGrow_nil).mono ?_
  decide

/-- An envelope grows by the names of its fields. -/
theorem grows_envelope : Grows Codecs.envelope 158 := by
  refine (grows_iso (fun _ => rfl) <| grows_record <|
    fieldsGrow_required grows_string <| fieldsGrow_required grows_string <|
    fieldsGrow_required grows_string <| fieldsGrow_required grows_string <|
    fieldsGrow_required (grows_enumeration _ _ _) <| fieldsGrow_required grows_string <|
    fieldsGrow_required (grows_nullable grows_string) <| fieldsGrow_required grows_string <|
    fieldsGrow_required (grows_nullable grows_string) <|
    fieldsGrow_required (grows_enumeration _ _ _) <|
    fieldsGrow_required grows_unit fieldsGrow_nil).mono ?_
  decide

/-- A signed envelope grows by the names of its fields. -/
theorem grows_signedEnvelope : Grows Codecs.signedEnvelope 227 := by
  refine (grows_iso (fun _ => rfl) <| grows_record <|
    fieldsGrow_required grows_string <| fieldsGrow_required (grows_enumeration _ _ _) <|
    fieldsGrow_required grows_string <| fieldsGrow_required grows_string <|
    fieldsGrow_required grows_envelope <|
    fieldsGrow_required grows_string fieldsGrow_nil).mono ?_
  decide

/-- An advertisement grows by the names of its fields. -/
theorem grows_advertisement : Grows Codecs.advertisement 312 := by
  refine (grows_iso (fun _ => rfl) <| grows_record <|
    fieldsGrow_required grows_string <| fieldsGrow_required grows_string <|
    fieldsGrow_required grows_uint64 <| fieldsGrow_required grows_string <|
    fieldsGrow_required grows_string <| fieldsGrow_required (grows_list grows_string) <|
    fieldsGrow_required grows_signedEnvelope fieldsGrow_nil).mono ?_
  decide

/-- A peer in a bundle grows by the names of its fields. -/
theorem grows_bundlePeer : Grows Codecs.bundlePeer 98 := by
  have absent : ∀ value ∈ (some none : Option (Option String)),
      writtenSize (Codecs.nullableString.encode value) ≤ 4 := by
    intro value present
    cases present
    rw [writtenSize_eq]
    decide
  refine (grows_iso (fun _ => rfl) <| grows_record <|
    fieldsGrow_required grows_string <| fieldsGrow_required grows_string <|
    fieldsGrow_required (grows_list grows_string) <|
    fieldsGrow_cons (grows_nullable grows_string) absent <|
    fieldsGrow_required (grows_enumeration _ _ _) fieldsGrow_nil).mono ?_
  decide

end QsolFed.Bundle
