import QsolFed.Digest
import QsolFed.Library.Json.Codec

/-!
# Federation envelopes

The version 1 envelope: its fields, its JSON form and its shape. An envelope claims no authority
and carries no signature of its own; both are single-valued types here, as in the wire format.
-/
namespace QsolFed

open Json

/-- The protocol name. -/
def protocolV1 : String := "qsol-fed/1"

/-- The authority an envelope can claim. -/
inductive AuthorityClaim where
  | none
  deriving DecidableEq, Repr

/-- What an envelope carries. -/
inductive MessageClass where
  | hello
  | capabilities
  | evidenceOffer
  | evidenceRequest
  | hypothesis
  | challenge
  | response
  | councilReport
  | minorityReport
  | experimentReceipt
  | citation
  | publication
  deriving DecidableEq, Repr

/-- The wire name of a message class. -/
def MessageClass.name : MessageClass → String
  | .hello => "hello"
  | .capabilities => "capabilities"
  | .evidenceOffer => "evidence.offer"
  | .evidenceRequest => "evidence.request"
  | .hypothesis => "hypothesis"
  | .challenge => "challenge"
  | .response => "response"
  | .councilReport => "council.report"
  | .minorityReport => "minority.report"
  | .experimentReceipt => "experiment.receipt"
  | .citation => "citation"
  | .publication => "publication"

/-- Every message class. -/
def MessageClass.all : List MessageClass :=
  [.hello, .capabilities, .evidenceOffer, .evidenceRequest, .hypothesis, .challenge, .response,
    .councilReport, .minorityReport, .experimentReceipt, .citation, .publication]

/-- An envelope, version 1. -/
structure FederationEnvelope where
  /-- The protocol name. -/
  protocol : String
  /-- The identifier of the message. -/
  messageId : String
  /-- The node that sends it. -/
  sender : String
  /-- The node it is for. -/
  recipient : String
  /-- What it carries. -/
  messageClass : MessageClass
  /-- The object it refers to. -/
  payloadRef : String
  /-- The provenance of that object. -/
  provenanceRef : Option String
  /-- When it was issued. -/
  issuedAt : String
  /-- When it expires. -/
  expiresAt : Option String
  /-- The authority it claims. -/
  authorityClaim : AuthorityClaim
  /-- Always null. -/
  signature : Unit
  deriving DecidableEq

namespace Codecs

/-- An authority claim by name. -/
def authorityClaim : Codec AuthorityClaim :=
  .enumeration (fun _ => "none") [.none] (by intro value; cases value; decide)

/-- A message class by name. -/
def messageClass : Codec MessageClass :=
  .enumeration MessageClass.name MessageClass.all (by intro value; cases value <;> decide)

/-- A string or null. -/
def nullableString : Codec (Option String) :=
  .nullable .string fun _ same => by cases same

/-- The fields of an envelope. -/
def envelopeFields :=
  Fields.required "protocol" .string <|
  Fields.required "message_id" .string <|
  Fields.required "sender" .string <|
  Fields.required "recipient" .string <|
  Fields.required "message_class" messageClass <|
  Fields.required "payload_ref" .string <|
  Fields.required "provenance_ref" nullableString <|
  Fields.required "issued_at" .string <|
  Fields.required "expires_at" nullableString <|
  Fields.required "authority_claim" authorityClaim <|
  Fields.required "signature" .unit .nil

/-- An envelope as an object. -/
def envelope : Codec FederationEnvelope :=
  (Codec.record envelopeFields (by decide)).iso
    (fun (protocol, messageId, sender, recipient, messageClass, payloadRef, provenanceRef, issuedAt,
        expiresAt, authorityClaim, signature, ()) =>
      { protocol, messageId, sender, recipient, messageClass, payloadRef, provenanceRef, issuedAt,
        expiresAt, authorityClaim, signature })
    (fun value =>
      (value.protocol, value.messageId, value.sender, value.recipient, value.messageClass,
        value.payloadRef, value.provenanceRef, value.issuedAt, value.expiresAt,
        value.authorityClaim, value.signature, ()))
    fun _ => rfl

end Codecs

namespace FederationEnvelope

/-- The protocol is the one that this version speaks. -/
def hasSupportedWireProtocol (envelope : FederationEnvelope) : Bool := envelope.protocol = protocolV1

/-- Every field has the shape that its grammar asks for. -/
def validateShape (envelope : FederationEnvelope) : Bool :=
  envelope.hasSupportedWireProtocol && Wire.isSha256Ref envelope.messageId &&
    Wire.isNodeId envelope.sender && Wire.isNodeId envelope.recipient &&
    Wire.isSha256Ref envelope.payloadRef && envelope.provenanceRef.all Wire.isSha256Ref &&
    Wire.isWireTimestamp envelope.issuedAt && envelope.expiresAt.all Wire.isWireTimestamp

end FederationEnvelope

end QsolFed
