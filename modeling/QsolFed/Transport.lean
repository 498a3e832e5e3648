import QsolFed.Encoding
import QsolFed.Library.Effect
import Mathlib.Data.Finset.Erase
import Mathlib.Data.Finset.Insert

/-!
# Transport

The frames that carry messages between nodes, the receipts of the relays that forward them, and
the bounded queue in front of a transport. The identities of frames and receipts are references to
their canonical bytes without the identity itself. A chain of receipts is checked hop by hop
against its frame.
-/
namespace QsolFed

open Checked Json

/-- A refusal of the transport. -/
inductive TransportError where
  /-- A code of the transport. -/
  | code (text : String)
  /-- A refusal of the canonical profile, passed on. -/
  | canonical (error : CanonicalError)
  deriving DecidableEq, Repr

/-- The ways to deliver a frame. -/
inductive TransportProfile where
  | webSocket
  | quic
  | unixIpc
  | offlineSneakernet
  | storeForward
  deriving DecidableEq, Repr

/-- The wire name of a profile. -/
def TransportProfile.name : TransportProfile → String
  | .webSocket => "web_socket"
  | .quic => "quic"
  | .unixIpc => "unix_ipc"
  | .offlineSneakernet => "offline_sneakernet"
  | .storeForward => "store_forward"

/-- Every profile. -/
def TransportProfile.all : List TransportProfile :=
  [.webSocket, .quic, .unixIpc, .offlineSneakernet, .storeForward]

/-- A frame: what is delivered, between whom, and how. -/
structure TransportFrame where
  /-- The schema of the frame. -/
  schema : String
  /-- The identity of the frame. -/
  frameId : String
  /-- How it is delivered. -/
  profile : TransportProfile
  /-- The node that sends it. -/
  senderNodeId : String
  /-- The node it is for. -/
  recipientNodeId : String
  /-- The message that it carries. -/
  messageId : String
  /-- The object that the message refers to. -/
  payloadRef : String
  /-- The provenance of that object. -/
  provenanceRef : Option String
  /-- The place of the frame among those of the sender. -/
  sequence : UInt64
  /-- What the frame authorises. -/
  authorityEffect : String
  deriving DecidableEq

/-- What a relay attests when it forwards a frame. -/
structure RelayReceipt where
  /-- The schema of the receipt. -/
  schema : String
  /-- The identity of the receipt. -/
  relayReceiptId : String
  /-- The frame that was forwarded. -/
  frameId : String
  /-- The message of the frame. -/
  messageId : String
  /-- The object that the message refers to. -/
  payloadRef : String
  /-- The provenance of that object. -/
  provenanceRef : Option String
  /-- The place of the hop, counted from one. -/
  hopIndex : UInt16
  /-- The node that forwarded it. -/
  relayNodeId : String
  /-- The receipt of the hop before. -/
  previousRelayReceiptRef : Option String
  /-- How the frame arrived. -/
  ingressProfile : TransportProfile
  /-- How it left. -/
  egressProfile : TransportProfile
  /-- What the receipt authorises. -/
  authorityEffect : String
  deriving DecidableEq

namespace Codecs

/-- A profile by name. -/
def transportProfile : Codec TransportProfile :=
  .enumeration TransportProfile.name TransportProfile.all
    (by intro value; cases value <;> decide)

/-- A reference or null. -/
def optionalRef : Codec (Option String) := nullableString

/-- The fields of a frame. -/
def transportFrameFields :=
  Fields.required "schema" .string <|
  Fields.required "frame_id" .string <|
  Fields.required "profile" transportProfile <|
  Fields.required "sender_node_id" .string <|
  Fields.required "recipient_node_id" .string <|
  Fields.required "message_id" .string <|
  Fields.required "payload_ref" .string <|
  Fields.cons "provenance_ref" optionalRef (some none) <|
  Fields.required "sequence" .uint64 <|
  Fields.required "authority_effect" .string .nil

/-- The fields of a receipt. -/
def relayReceiptFields :=
  Fields.required "schema" .string <|
  Fields.required "relay_receipt_id" .string <|
  Fields.required "frame_id" .string <|
  Fields.required "message_id" .string <|
  Fields.required "payload_ref" .string <|
  Fields.cons "provenance_ref" optionalRef (some none) <|
  Fields.required "hop_index" .uint16 <|
  Fields.required "relay_node_id" .string <|
  Fields.cons "previous_relay_receipt_ref" optionalRef (some none) <|
  Fields.required "ingress_profile" transportProfile <|
  Fields.required "egress_profile" transportProfile <|
  Fields.required "authority_effect" .string .nil

/-- The fields of a frame, in order. -/
def transportFrameItems (value : TransportFrame) :=
  (value.schema, value.frameId, value.profile, value.senderNodeId, value.recipientNodeId,
    value.messageId, value.payloadRef, value.provenanceRef, value.sequence, value.authorityEffect,
    ())

/-- A frame as an object. -/
def transportFrame : Codec TransportFrame :=
  (Codec.record transportFrameFields (by decide)).iso
    (fun (schema, frameId, profile, senderNodeId, recipientNodeId, messageId, payloadRef,
        provenanceRef, sequence, authorityEffect, ()) =>
      { schema, frameId, profile, senderNodeId, recipientNodeId, messageId, payloadRef,
        provenanceRef, sequence, authorityEffect })
    transportFrameItems fun _ => rfl

/-- The fields of a receipt, in order. -/
def relayReceiptItems (value : RelayReceipt) :=
  (value.schema, value.relayReceiptId, value.frameId, value.messageId, value.payloadRef,
    value.provenanceRef, value.hopIndex, value.relayNodeId, value.previousRelayReceiptRef,
    value.ingressProfile, value.egressProfile, value.authorityEffect, ())

/-- A receipt as an object. -/
def relayReceipt : Codec RelayReceipt :=
  (Codec.record relayReceiptFields (by decide)).iso
    (fun (schema, relayReceiptId, frameId, messageId, payloadRef, provenanceRef, hopIndex,
        relayNodeId, previousRelayReceiptRef, ingressProfile, egressProfile, authorityEffect,
        ()) =>
      { schema, relayReceiptId, frameId, messageId, payloadRef, provenanceRef, hopIndex,
        relayNodeId, previousRelayReceiptRef, ingressProfile, egressProfile, authorityEffect })
    relayReceiptItems fun _ => rfl

end Codecs

namespace Transport

/-- The schema of frames. -/
def transportFrameSchemaV1 : String := "qsol-fed-transport-frame/1"

/-- The schema of receipts. -/
def relayReceiptSchemaV1 : String := "qsol-fed-relay-receipt/1"

/-- The size limit of a frame. -/
def transportFrameMaxBytes : Nat := 65536

/-- The limit of every queue. -/
def transportQueueMaxDepth : Nat := 1024

/-- How many hops a chain may have. -/
def transportMaxRelayHops : Nat := 16

variable (primitives : Primitives)

/-- The reference to the canonical bytes of a value. -/
def canonicalId (value : Value String) : Except TransportError String := do
  let canonical ← (Canonical.canonicalize primitives.unicode
    (Canonical.writtenBytes value)).mapError .canonical
  pure (Digest.sha256Ref primitives canonical)

/-- The reference to the canonical bytes of an object without one of its members. -/
def canonicalIdWithoutField (value : Value String) (field : String) :
    Except TransportError String :=
  match value with
  | .object members =>
    canonicalId primitives (.object (members.filter fun member => member.1 ≠ field))
  | _ => .error (.code "transport_identity_projection_invalid")

/-! ## Frames -/

/-- Refuse a frame with a field that is out of shape. -/
def validateTransportFrameShape (frame : TransportFrame) (requireId : Bool) :
    Except TransportError Unit := do
  ensure (frame.schema = transportFrameSchemaV1) (.code "transport_frame_schema_invalid")
  ensure ((requireId && !Wire.isSha256Ref frame.frameId) = false)
    (.code "transport_frame_id_invalid")
  ensure (Wire.isNodeId frame.senderNodeId ∧ Wire.isNodeId frame.recipientNodeId)
    (.code "transport_frame_node_id_invalid")
  ensure (Wire.isSha256Ref frame.messageId ∧ Wire.isSha256Ref frame.payloadRef)
    (.code "transport_frame_object_ref_invalid")
  ensure (frame.provenanceRef.all Wire.isSha256Ref)
    (.code "transport_frame_provenance_ref_invalid")
  ensure (frame.sequence ≠ 0 ∧ (frame.sequence.toNat : Int) ≤ Canonical.safeIntegerMax)
    (.code "transport_frame_sequence_invalid")
  ensure (frame.authorityEffect = "none") (.code "transport_frame_authority_forbidden")
  ensure ((toVec Codecs.transportFrame frame).size ≤ transportFrameMaxBytes)
    (.code "transport_frame_too_large")

/-- Refuse a frame that is out of shape or does not have its own identity. -/
def validateTransportFrame (frame : TransportFrame) : Except TransportError Unit := do
  validateTransportFrameShape frame true
  let expected ← canonicalIdWithoutField primitives (Codecs.transportFrame.encode frame) "frame_id"
  ensure (expected = frame.frameId) (.code "transport_frame_identity_mismatch")

/-- A new frame with its identity. -/
def TransportFrame.new (profile : TransportProfile) (senderNodeId recipientNodeId messageId
    payloadRef : String) (provenanceRef : Option String) (sequence : UInt64) :
    Except TransportError TransportFrame := do
  let frame : TransportFrame := {
    schema := transportFrameSchemaV1
    frameId := ""
    profile, senderNodeId, recipientNodeId, messageId, payloadRef, provenanceRef, sequence
    authorityEffect := "none" }
  validateTransportFrameShape frame false
  let frameId ← canonicalIdWithoutField primitives (Codecs.transportFrame.encode frame) "frame_id"
  let frame := { frame with frameId }
  validateTransportFrame primitives frame
  pure frame

/-! ## Relays -/

/-- The receipt of a hop. -/
def buildRelayReceipt (frame : TransportFrame) (hopIndex : UInt16) (relayNodeId : String)
    (previousRelayReceiptRef : Option String) (ingressProfile egressProfile : TransportProfile) :
    Except TransportError RelayReceipt := do
  validateTransportFrame primitives frame
  ensure (hopIndex ≠ 0 ∧ hopIndex.toNat ≤ transportMaxRelayHops ∧ Wire.isNodeId relayNodeId)
    (.code "relay_hop_invalid")
  ensure (previousRelayReceiptRef.all Wire.isSha256Ref) (.code "relay_previous_ref_invalid")
  let receipt : RelayReceipt := {
    schema := relayReceiptSchemaV1
    relayReceiptId := ""
    frameId := frame.frameId
    messageId := frame.messageId
    payloadRef := frame.payloadRef
    provenanceRef := frame.provenanceRef
    hopIndex, relayNodeId, previousRelayReceiptRef, ingressProfile, egressProfile
    authorityEffect := "none" }
  let relayReceiptId ← canonicalIdWithoutField primitives (Codecs.relayReceipt.encode receipt)
    "relay_receipt_id"
  pure { receipt with relayReceiptId }

/-- Refuse the hops from some index on if one does not continue the hops before. -/
def validateHops (frame : TransportFrame) :
    Nat → Option String → TransportProfile → List RelayReceipt → Except TransportError Unit
  | _, _, _, [] => pure ()
  | index, previous, expectedIngress, receipt :: rest => do
    ensure (receipt.schema = relayReceiptSchemaV1 ∧
      Wire.isSha256Ref receipt.relayReceiptId ∧
      receipt.hopIndex.toNat = index + 1 ∧
      receipt.frameId = frame.frameId ∧
      receipt.messageId = frame.messageId ∧
      receipt.payloadRef = frame.payloadRef ∧
      receipt.provenanceRef = frame.provenanceRef ∧
      receipt.ingressProfile = expectedIngress ∧
      receipt.authorityEffect = "none" ∧
      Wire.isNodeId receipt.relayNodeId ∧
      receipt.previousRelayReceiptRef = previous) (.code "relay_chain_invalid")
    let expected ← canonicalIdWithoutField primitives (Codecs.relayReceipt.encode receipt)
      "relay_receipt_id"
    ensure (expected = receipt.relayReceiptId) (.code "relay_receipt_identity_mismatch")
    validateHops frame (index + 1) (some receipt.relayReceiptId) receipt.egressProfile rest

/-- Refuse a chain of receipts that does not forward a frame hop by hop. -/
def validateRelayChain (frame : TransportFrame) (chain : List RelayReceipt) :
    Except TransportError Unit := do
  validateTransportFrame primitives frame
  ensure (chain.length ≤ transportMaxRelayHops) (.code "relay_chain_too_long")
  validateHops primitives frame 0 none frame.profile chain

/-! ## The queue -/

/-- Frames that wait for delivery, with an index of their identities. -/
structure BoundedTransportQueue where
  /-- The frames, the oldest first. -/
  queue : List TransportFrame
  /-- Their identities. -/
  queuedIds : Finset String
  /-- How many frames may wait. -/
  limit : Nat

namespace BoundedTransportQueue

/-- An empty queue. -/
def withLimit (limit : Nat) : BoundedTransportQueue := ⟨[], ∅, min limit transportQueueMaxDepth⟩

/-- Put a frame at the end. -/
def enqueue (frame : TransportFrame) : Effect BoundedTransportQueue TransportError PUnit := do
  Effect.check (validateTransportFrame primitives frame)
  Effect.read fun state => do
    ensure (state.queue.length < state.limit) (.code "transport_queue_limit_exceeded")
    ensure (frame.frameId ∉ state.queuedIds) (.code "transport_queue_duplicate_frame")
  Effect.modify fun state => { state with queuedIds := insert frame.frameId state.queuedIds }
  Effect.modify fun state => { state with queue := state.queue ++ [frame] }

/-- Take the oldest frame. -/
def dequeue : Effect BoundedTransportQueue TransportError (Option TransportFrame) := do
  let oldest ← Effect.read fun state => pure state.queue.head?
  match oldest with
  | none => pure none
  | some frame =>
    Effect.modify fun state => { state with queue := state.queue.tail }
    Effect.modify fun state => { state with queuedIds := state.queuedIds.erase frame.frameId }
    pure (some frame)

end BoundedTransportQueue

end Transport

end QsolFed
