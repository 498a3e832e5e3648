import QsolFed.Envelope
import QsolFed.Library.Checked

/-!
# Signed records

Node identity documents, key rotation and key status records and signed envelopes: their fields,
their JSON forms, what their signatures cover and the clock policy of signed envelopes. A
signature covers the canonical bytes of a payload under a domain of its own.
-/
namespace QsolFed

open Checked Json

/-- The signature schemes. -/
inductive SigningAlgorithm where
  | ed25519
  deriving DecidableEq, Repr

/-- How a rotation replaces the current key. -/
inductive RotationMode where
  /-- The current key signs its successor. -/
  | transition
  /-- The current key is revoked or compromised. -/
  | recovery
  deriving DecidableEq, Repr

/-- What a status record makes of a key. -/
inductive KeyStatusKind where
  | revoked
  | compromised
  deriving DecidableEq, Repr

/-- Why a status record was issued. -/
inductive KeyStatusReason where
  | operatorRevocation
  | suspectedCompromise
  | confirmedCompromise
  deriving DecidableEq, Repr

/-- The self-signed description of a node. -/
structure NodeIdentityDocument where
  /-- The schema name. -/
  schema : String
  /-- The name of the node, derived from its root key. -/
  nodeId : String
  /-- The signature scheme. -/
  algorithm : SigningAlgorithm
  /-- The identifier of the root key. -/
  rootKeyId : String
  /-- The root key. -/
  rootPublicKey : String
  /-- The identifier of the first operational key. -/
  operationalKeyId : String
  /-- The first operational key. -/
  operationalPublicKey : String
  /-- When the document was created. -/
  createdAt : String
  /-- The signature of the root key. -/
  rootSignature : String
  deriving DecidableEq

/-- A record that replaces the current operational key. -/
structure KeyRotationRecord where
  /-- The schema name. -/
  schema : String
  /-- The node. -/
  nodeId : String
  /-- The signature scheme. -/
  algorithm : SigningAlgorithm
  /-- The position in the lifecycle. -/
  sequence : UInt64
  /-- How the key is replaced. -/
  mode : RotationMode
  /-- The key that is replaced. -/
  previousKeyId : String
  /-- The identifier of the new key. -/
  nextKeyId : String
  /-- The new key. -/
  nextPublicKey : String
  /-- When the new key becomes valid. -/
  notBefore : String
  /-- Until when the replaced key stays valid. -/
  overlapUntil : String
  /-- The signature of the replaced key. -/
  previousSignature : Option String
  /-- The signature of the new key. -/
  nextSignature : String
  /-- The signature of the root key. -/
  rootSignature : String
  deriving DecidableEq

/-- A record that revokes a key or declares it compromised. -/
structure KeyStatusRecord where
  /-- The schema name. -/
  schema : String
  /-- The node. -/
  nodeId : String
  /-- The signature scheme. -/
  algorithm : SigningAlgorithm
  /-- The position in the lifecycle. -/
  sequence : UInt64
  /-- The key. -/
  keyId : String
  /-- What becomes of it. -/
  status : KeyStatusKind
  /-- From when on. -/
  effectiveAt : String
  /-- Why. -/
  reason : KeyStatusReason
  /-- The signature of the root key. -/
  rootSignature : String
  deriving DecidableEq

/-- An envelope under the signature of an operational key. -/
structure SignedEnvelope where
  /-- The schema name. -/
  schema : String
  /-- The signature scheme. -/
  algorithm : SigningAlgorithm
  /-- The node that signs. -/
  nodeId : String
  /-- The key that signs. -/
  keyId : String
  /-- What is signed. -/
  envelope : FederationEnvelope
  /-- The signature. -/
  signature : String
  deriving DecidableEq

namespace Codecs

/-- A signature scheme by name. -/
def algorithm : Codec SigningAlgorithm :=
  .enumeration (fun _ => "ed25519") [.ed25519] (by intro value; cases value; decide)

/-- The wire name of a rotation mode. -/
def rotationModeName : RotationMode → String
  | .transition => "transition"
  | .recovery => "recovery"

/-- A rotation mode by name. -/
def rotationMode : Codec RotationMode :=
  .enumeration rotationModeName [.transition, .recovery] (by intro value; cases value <;> decide)

/-- The wire name of a key status. -/
def keyStatusName : KeyStatusKind → String
  | .revoked => "revoked"
  | .compromised => "compromised"

/-- A key status by name. -/
def keyStatus : Codec KeyStatusKind :=
  .enumeration keyStatusName [.revoked, .compromised] (by intro value; cases value <;> decide)

/-- The wire name of a reason. -/
def keyStatusReasonName : KeyStatusReason → String
  | .operatorRevocation => "operator_revocation"
  | .suspectedCompromise => "suspected_compromise"
  | .confirmedCompromise => "confirmed_compromise"

/-- A reason by name. -/
def keyStatusReason : Codec KeyStatusReason :=
  .enumeration keyStatusReasonName [.operatorRevocation, .suspectedCompromise, .confirmedCompromise]
    (by intro value; cases value <;> decide)

/-- The fields of an identity document. -/
def identityFields :=
  Fields.required "schema" .string <|
  Fields.required "node_id" .string <|
  Fields.required "algorithm" algorithm <|
  Fields.required "root_key_id" .string <|
  Fields.required "root_public_key" .string <|
  Fields.required "operational_key_id" .string <|
  Fields.required "operational_public_key" .string <|
  Fields.required "created_at" .string <|
  Fields.required "root_signature" .string .nil

/-- An identity document as an object. -/
def identity : Codec NodeIdentityDocument :=
  (Codec.record identityFields (by decide)).iso
    (fun (schema, nodeId, algorithm, rootKeyId, rootPublicKey, operationalKeyId,
        operationalPublicKey, createdAt, rootSignature, ()) =>
      { schema, nodeId, algorithm, rootKeyId, rootPublicKey, operationalKeyId,
        operationalPublicKey, createdAt, rootSignature })
    (fun value =>
      (value.schema, value.nodeId, value.algorithm, value.rootKeyId, value.rootPublicKey,
        value.operationalKeyId, value.operationalPublicKey, value.createdAt, value.rootSignature,
        ()))
    fun _ => rfl

/-- The fields of a rotation record. -/
def rotationFields :=
  Fields.required "schema" .string <|
  Fields.required "node_id" .string <|
  Fields.required "algorithm" algorithm <|
  Fields.required "sequence" .uint64 <|
  Fields.required "mode" rotationMode <|
  Fields.required "previous_key_id" .string <|
  Fields.required "next_key_id" .string <|
  Fields.required "next_public_key" .string <|
  Fields.required "not_before" .string <|
  Fields.required "overlap_until" .string <|
  Fields.required "previous_signature" nullableString <|
  Fields.required "next_signature" .string <|
  Fields.required "root_signature" .string .nil

/-- A rotation record as an object. -/
def rotation : Codec KeyRotationRecord :=
  (Codec.record rotationFields (by decide)).iso
    (fun (schema, nodeId, algorithm, sequence, mode, previousKeyId, nextKeyId, nextPublicKey,
        notBefore, overlapUntil, previousSignature, nextSignature, rootSignature, ()) =>
      { schema, nodeId, algorithm, sequence, mode, previousKeyId, nextKeyId, nextPublicKey,
        notBefore, overlapUntil, previousSignature, nextSignature, rootSignature })
    (fun value =>
      (value.schema, value.nodeId, value.algorithm, value.sequence, value.mode,
        value.previousKeyId, value.nextKeyId, value.nextPublicKey, value.notBefore,
        value.overlapUntil, value.previousSignature, value.nextSignature, value.rootSignature, ()))
    fun _ => rfl

/-- The fields of a status record. -/
def statusFields :=
  Fields.required "schema" .string <|
  Fields.required "node_id" .string <|
  Fields.required "algorithm" algorithm <|
  Fields.required "sequence" .uint64 <|
  Fields.required "key_id" .string <|
  Fields.required "status" keyStatus <|
  Fields.required "effective_at" .string <|
  Fields.required "reason" keyStatusReason <|
  Fields.required "root_signature" .string .nil

/-- A status record as an object. -/
def status : Codec KeyStatusRecord :=
  (Codec.record statusFields (by decide)).iso
    (fun (schema, nodeId, algorithm, sequence, keyId, status, effectiveAt, reason, rootSignature,
        ()) =>
      { schema, nodeId, algorithm, sequence, keyId, status, effectiveAt, reason, rootSignature })
    (fun value =>
      (value.schema, value.nodeId, value.algorithm, value.sequence, value.keyId, value.status,
        value.effectiveAt, value.reason, value.rootSignature, ()))
    fun _ => rfl

/-- The fields of a signed envelope. -/
def signedEnvelopeFields :=
  Fields.required "schema" .string <|
  Fields.required "algorithm" algorithm <|
  Fields.required "node_id" .string <|
  Fields.required "key_id" .string <|
  Fields.required "envelope" envelope <|
  Fields.required "signature" .string .nil

/-- A signed envelope as an object. -/
def signedEnvelope : Codec SignedEnvelope :=
  (Codec.record signedEnvelopeFields (by decide)).iso
    (fun (schema, algorithm, nodeId, keyId, envelope, signature, ()) =>
      { schema, algorithm, nodeId, keyId, envelope, signature })
    (fun value =>
      (value.schema, value.algorithm, value.nodeId, value.keyId, value.envelope, value.signature,
        ()))
    fun _ => rfl

end Codecs

namespace Crypto

/-- The schema of signed envelopes. -/
def signedEnvelopeSchemaV1 : String := "qsol-fed-signed-envelope/1"

/-- The schema of identity documents. -/
def nodeIdentitySchemaV1 : String := "qsol-fed-node-identity/1"

/-- The schema of rotation records. -/
def keyRotationSchemaV1 : String := "qsol-fed-key-rotation/1"

/-- The schema of status records. -/
def keyStatusSchemaV1 : String := "qsol-fed-key-status/1"

/-- The domain of envelope signatures. -/
def envelopeSignatureDomain : String := "qsol-fed-envelope-signature/1\x00"

/-- The domain of node names. -/
def nodeIdDomain : String := "qsol-fed-node-id/1\x00"

/-- The domain of key identifiers. -/
def keyIdDomain : String := "qsol-fed-key-id/1\x00"

/-- The domain of identity signatures. -/
def nodeIdentityDomain : String := "qsol-fed-node-identity/1\x00"

/-- The domain of rotation signatures. -/
def keyRotationDomain : String := "qsol-fed-key-rotation/1\x00"

/-- The domain of status signatures. -/
def keyStatusDomain : String := "qsol-fed-key-status/1\x00"

/-- How far clocks may differ. -/
def maxClockSkewSeconds : Int := 300

/-- How long a signed message lives at most. -/
def maxSignedMessageLifetimeSeconds : Int := 3600

/-- How long a replaced key stays valid at most. -/
def maxRotationOverlapSeconds : Int := 86400

variable (primitives : Primitives)

/-! ## Keys and signatures -/

/-- The identifier of a key. -/
def deriveKeyId (publicKeyHex : String) : Except CryptoError String := do
  let publicKey ← Digest.decodeFixedHex 32 publicKeyHex
  pure ("ed25519:" ++ Digest.sha256Hex primitives keyIdDomain publicKey)

/-- The name of a node. -/
def deriveNodeId (rootPublicKeyHex : String) : Except CryptoError String := do
  let publicKey ← Digest.decodeFixedHex 32 rootPublicKeyHex
  pure ("fed:qsol:" ++ Digest.sha256Hex primitives nodeIdDomain publicKey)

/-- Whether a signature of a payload under a domain verifies. -/
def verifySignature (publicKeyHex domain : String) (payload : ByteArray) (signatureHex : String) :
    Except CryptoError Bool := do
  let publicKey ← Digest.decodeFixedHex 32 publicKeyHex
  let signature ← Digest.decodeFixedHex 64 signatureHex
  ensure (primitives.isVerifyingKey publicKey) (.code "invalid_ed25519_public_key")
  pure (primitives.verifyStrict publicKey (domain.toByteArray ++ payload) signature)

/-- The canonical bytes of data. -/
def canonicalJson (value : Value String) : Except CryptoError ByteArray :=
  (Canonical.canonicalize primitives.unicode (String.ofList (print value)).toByteArray).mapError
    .canonical

/-- The second that a wire timestamp names. -/
def parseTimestamp (value : String) : Except CryptoError Int := do
  ensure (Wire.isWireTimestamp value) (.code "invalid_wire_timestamp")
  okOr (Wire.parseFromRfc3339 value) (.code "invalid_calendar_timestamp")

/-! ## Identity documents -/

/-- What the signature of an identity document covers. -/
def identityPayload (document : NodeIdentityDocument) : Value String :=
  .object [
    ("schema", .string document.schema),
    ("node_id", .string document.nodeId),
    ("algorithm", Codecs.algorithm.encode document.algorithm),
    ("root_key_id", .string document.rootKeyId),
    ("root_public_key", .string document.rootPublicKey),
    ("operational_key_id", .string document.operationalKeyId),
    ("operational_public_key", .string document.operationalPublicKey),
    ("created_at", .string document.createdAt)]

/-- Whether an identity document is what it claims to be. -/
def verifyIdentityDocument (document : NodeIdentityDocument) : Except CryptoError Bool :=
  if document.schema ≠ nodeIdentitySchemaV1 ∨ document.rootKeyId = document.operationalKeyId then
    pure false
  else do
    let nodeId ← deriveNodeId primitives document.rootPublicKey
    if document.nodeId ≠ nodeId then pure false
    else do
      let rootKeyId ← deriveKeyId primitives document.rootPublicKey
      if document.rootKeyId ≠ rootKeyId then pure false
      else do
        let operationalKeyId ← deriveKeyId primitives document.operationalPublicKey
        if document.operationalKeyId ≠ operationalKeyId then pure false
        else do
          let _ ← parseTimestamp document.createdAt
          let payload ← canonicalJson primitives (identityPayload document)
          verifySignature primitives document.rootPublicKey nodeIdentityDomain payload
            document.rootSignature

/-! ## Lifecycle records -/

/-- What the signatures of a rotation record cover. -/
def rotationPayload (record : KeyRotationRecord) : Value String :=
  .object [
    ("schema", .string record.schema),
    ("node_id", .string record.nodeId),
    ("algorithm", Codecs.algorithm.encode record.algorithm),
    ("sequence", Codec.uint64.encode record.sequence),
    ("mode", Codecs.rotationMode.encode record.mode),
    ("previous_key_id", .string record.previousKeyId),
    ("next_key_id", .string record.nextKeyId),
    ("next_public_key", .string record.nextPublicKey),
    ("not_before", .string record.notBefore),
    ("overlap_until", .string record.overlapUntil)]

/-- What the signature of a status record covers. -/
def keyStatusPayload (record : KeyStatusRecord) : Value String :=
  .object [
    ("schema", .string record.schema),
    ("node_id", .string record.nodeId),
    ("algorithm", Codecs.algorithm.encode record.algorithm),
    ("sequence", Codec.uint64.encode record.sequence),
    ("key_id", .string record.keyId),
    ("status", Codecs.keyStatus.encode record.status),
    ("effective_at", .string record.effectiveAt),
    ("reason", Codecs.keyStatusReason.encode record.reason)]

/-! ## Envelopes -/

/-- The canonical bytes of an envelope whose identifier is its own. -/
def canonicalEnvelopeBytes (envelope : FederationEnvelope) : Except CryptoError ByteArray := do
  ensure envelope.validateShape (.code "envelope_shape_invalid")
  let canonical ← canonicalJson primitives (Codecs.envelope.encode envelope)
  let derived ← (Digest.deriveMessageId primitives canonical).mapError .canonical
  ensure (derived = envelope.messageId) (.code "message_id_mismatch")
  pure canonical

/-- The bounds that a clock puts on signed envelopes. -/
structure ClockPolicy where
  /-- How far clocks may differ. -/
  maxClockSkewSeconds : Int
  /-- How long a message lives at most. -/
  maxSignedMessageLifetimeSeconds : Int
  deriving DecidableEq, Repr

/-- The policy of the protocol. -/
def defaultClockPolicy : ClockPolicy := ⟨maxClockSkewSeconds, maxSignedMessageLifetimeSeconds⟩

/-- An envelope is neither issued in the future nor expired nor too long-lived. -/
def ClockPolicy.validateEnvelope (policy : ClockPolicy) (envelope : FederationEnvelope)
    (nowUnix : Int) : Except CryptoError Unit := do
  let issued ← parseTimestamp envelope.issuedAt
  let expiresText ← okOr envelope.expiresAt (.code "signed_envelope_expiry_required")
  let expires ← parseTimestamp expiresText
  ensure (issued < expires) (.code "expiry_not_after_issue")
  ensure (expires - issued ≤ policy.maxSignedMessageLifetimeSeconds)
    (.code "signed_message_lifetime_exceeded")
  ensure (issued ≤ nowUnix + policy.maxClockSkewSeconds) (.code "issued_too_far_in_future")
  ensure (nowUnix - policy.maxClockSkewSeconds ≤ expires) (.code "signed_message_expired")

end Crypto

end QsolFed
