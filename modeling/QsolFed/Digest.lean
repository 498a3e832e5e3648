import QsolFed.Canonical
import QsolFed.Wire

/-!
# Digests and identifiers

Identifiers of the protocol are SHA-256 digests of canonical bytes under a domain prefix, written
in lowercase hexadecimal. The hash function and the signature scheme belong to libraries outside
the repository; together with Unicode normalisation they are the parameters of the model.
-/
namespace QsolFed

open Checked

/-- The functions of the cryptographic and Unicode libraries. -/
structure Primitives where
  /-- Unicode normalisation. -/
  unicode : Unicode
  /-- The SHA-256 digest. -/
  sha256 : ByteArray → ByteArray
  /-- A digest has 32 bytes. -/
  sha256_size : ∀ message, (sha256 message).size = 32
  /-- Some 32 bytes are an Ed25519 public key. -/
  isVerifyingKey : ByteArray → Bool
  /-- A signature of a message verifies strictly under a public key. -/
  verifyStrict : (key message signature : ByteArray) → Bool

/-- A refusal of the cryptographic layer. -/
inductive CryptoError where
  /-- A code of the layer. -/
  | code (text : String)
  /-- A refusal of the canonical profile, passed on. -/
  | canonical (error : CanonicalError)
  deriving DecidableEq, Repr

namespace Digest

/-- Bytes in lowercase hexadecimal. -/
def lowercaseHex (bytes : List UInt8) : String :=
  String.ofList (bytes.flatMap fun b =>
    [Nat.digitChar (b.toNat / 16), Nat.digitChar (b.toNat % 16)])

/-- The value of a lowercase hexadecimal digit. -/
def hexValue (b : UInt8) : Nat :=
  if Wire.isAsciiDigit b then b.toNat - 48 else b.toNat - 87

/-- The bytes of pairs of lowercase hexadecimal digits. -/
def fromHex : List UInt8 → List UInt8
  | high :: low :: rest => UInt8.ofNat (hexValue high * 16 + hexValue low) :: fromHex rest
  | _ => []

/-- A fixed number of bytes in lowercase hexadecimal. -/
def decodeFixedHex (size : Nat) (value : String) : Except CryptoError ByteArray := do
  ensure ((Text.bytes value).length = size * 2 ∧ (Text.bytes value).all Wire.isLowerHex)
    (.code ("expected_" ++ toString size ++ "_byte_lowercase_hex"))
  pure ⟨(fromHex (Text.bytes value)).toArray⟩

variable (primitives : Primitives)

/-- A digest in hexadecimal. -/
def sha256Hex (domain : String) (message : ByteArray) : String :=
  lowercaseHex (primitives.sha256 (domain.toByteArray ++ message)).data.toList

/-- A reference to bytes by their digest. -/
def sha256Ref (message : ByteArray) : String :=
  "sha256:" ++ lowercaseHex (primitives.sha256 message).data.toList

/-- The identifier of an object: the reference to its canonical bytes. -/
def objectId (raw : ByteArray) : Except CanonicalError String := do
  let canonical ← Canonical.canonicalize primitives.unicode raw
  pure (sha256Ref primitives canonical)

/-- The domain of message identifiers. -/
def messageIdDomain : String := "qsol-fed-message-id/1\x00"

/-- The members of an envelope that its identifier covers. -/
def projection (members : List (String × Node)) : List (String × Node) :=
  members.filter fun member => member.1 ≠ "message_id" && member.1 ≠ "signature"

/-- Leaving members out of an ordered tree keeps it ordered. -/
theorem projection_ordered {members : List (String × Node)}
    (ordered : (Node.object members).Ordered) : (Node.object (projection members)).Ordered := by
  obtain ⟨sorted, values⟩ := ordered
  refine ⟨sorted.filter _, ?_⟩
  rw [Canonical.orderedMembers_iff] at values ⊢
  exact fun member kept => values member (List.mem_filter.mp kept).1

/-- The identifier of an envelope: the digest of its canonical bytes without the identifier
itself and the signature. -/
def deriveMessageId (rawEnvelope : ByteArray) : Except CanonicalError String := do
  let value ← Canonical.parseCanonicalValue primitives.unicode rawEnvelope
  match value with
  | ⟨.object members, ordered⟩ =>
    ensure ((Entries.find "message_id" members).isSome ∧
      (Entries.find "signature" members).isSome) (.code "envelope_projection_fields_missing")
    let text ← Canonical.serializeCanonical primitives.unicode
      ⟨.object (projection members), projection_ordered ordered⟩
    pure (sha256Ref primitives (messageIdDomain.toByteArray ++ text.toByteArray))
  | _ => .error (.code "envelope_must_be_object")

/-- Primitives given by finite tables: the digest of a message that begins in a given way, and
the signatures that verify under a key. They run the model on recorded data. -/
def tabulated (digests : List (List UInt8 × String)) (signatures : List (String × String)) :
    Primitives where
  unicode := .plain
  sha256 message :=
    let found := digests.find? fun entry => entry.1.isPrefixOf message.data.toList
    let digest := found.elim [] fun entry => fromHex (Text.bytes entry.2)
    ⟨((List.range 32).map fun index => digest.getD index 0).toArray⟩
  sha256_size _ := by
    change (List.map _ (List.range 32)).length = 32
    rw [List.length_map, List.length_range]
  isVerifyingKey _ := true
  verifyStrict key _ signature := signatures.any fun entry =>
    key.data.toList = fromHex (Text.bytes entry.1) &&
      signature.data.toList = fromHex (Text.bytes entry.2)

end Digest

end QsolFed
