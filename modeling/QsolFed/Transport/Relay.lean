import QsolFed.Encoding.Size
import QsolFed.Library.Linked
import QsolFed.Signed
import QsolFed.Transport

/-!
# Chains of relays

An accepted chain of receipts is linked: every receipt names the frame, its own place, the receipt
before it and the profile by which the frame left the hop before. The receipt of one more hop has
small plain data, so it can always be built, and it is linked to the chain. As the identity of a
receipt covers all its other fields, the identity of the last receipt determines the chain.
-/
namespace QsolFed.Transport

open Checked Json Canonical

variable {primitives : Primitives}

/-! ## Frames -/

/-- What an accepted frame guarantees. -/
structure Framed (frame : TransportFrame) : Prop where
  /-- The frame has a reference as its identity. -/
  frameId : Wire.isSha256Ref frame.frameId = true
  /-- So has its message. -/
  messageId : Wire.isSha256Ref frame.messageId = true
  /-- So has its object. -/
  payloadRef : Wire.isSha256Ref frame.payloadRef = true
  /-- So has its provenance, if it has one. -/
  provenanceRef : ∀ text ∈ frame.provenanceRef, Wire.isSha256Ref text = true

/-- An accepted frame is in shape. -/
theorem framed_of_accepted {frame : TransportFrame}
    (accepted : validateTransportFrame primitives frame = .ok ()) : Framed frame := by
  simp only [validateTransportFrame, validateTransportFrameShape, bind_ok_iff, ensure_ok_iff,
    exists_const] at accepted
  obtain ⟨⟨-, frameId, -, refs, provenance, -⟩, -⟩ := accepted
  exact ⟨by simpa using frameId, refs.1, refs.2, Option.all_eq_true _ _ |>.mp provenance⟩

/-- The name of a profile is small. -/
theorem small_profile (profile : TransportProfile) :
    Small 150 (Codecs.transportProfile.encode profile) := by
  cases profile <;> exact small_text (by decide) (by decide)

/-- A reference or null is small. -/
theorem small_optionalRef {value : Option String}
    (shape : ∀ text ∈ value, Wire.isSha256Ref text = true) :
    Small 73 (Codecs.optionalRef.encode value) := by
  cases value with
  | none => exact ⟨trivial, by decide⟩
  | some text => exact small_ref (shape text rfl)

/-- A frame of texts in shape that has or lacks an identity is small, and so is what its identity
covers. -/
theorem small_frame {frame : TransportFrame} (schema : frame.schema = transportFrameSchemaV1)
    (frameId : Small 73 (.string frame.frameId))
    (sender : Wire.isNodeId frame.senderNodeId = true)
    (recipient : Wire.isNodeId frame.recipientNodeId = true)
    (messageId : Wire.isSha256Ref frame.messageId = true)
    (payloadRef : Wire.isSha256Ref frame.payloadRef = true)
    (provenanceRef : ∀ text ∈ frame.provenanceRef, Wire.isSha256Ref text = true)
    (sequence : (frame.sequence.toNat : Int) ≤ safeIntegerMax)
    (authority : frame.authorityEffect = "none") :
    Small 4000 (Codecs.transportFrame.encode frame) ∧
      Small 4000 (.object ((Codecs.transportFrameFields.encode
        (Codecs.transportFrameItems frame)).filter fun member => member.1 ≠ "frame_id")) := by
  have name : Small 200 (.string frame.schema) := by
    rw [schema]
    exact small_text (by decide) (by decide)
  have effect : Small 50 (.string frame.authorityEffect) := by
    rw [authority]
    exact small_text (by decide) (by decide)
  have number : Small 20 (Codec.uint64.encode frame.sequence) :=
    ⟨plain_uint64 sequence, writtenSize_uint64 _⟩
  constructor
  · refine @small_object [("schema", 200), ("frame_id", 73), ("profile", 150),
      ("sender_node_id", 139), ("recipient_node_id", 139), ("message_id", 73), ("payload_ref", 73),
      ("provenance_ref", 73), ("sequence", 20), ("authority_effect", 50)] _ 4000 (by decide) ?_
    exact .cons ⟨rfl, name⟩ <|
      .cons ⟨rfl, frameId⟩ <|
      .cons ⟨rfl, small_profile _⟩ <|
      .cons ⟨rfl, small_node sender⟩ <|
      .cons ⟨rfl, small_node recipient⟩ <|
      .cons ⟨rfl, small_ref messageId⟩ <|
      .cons ⟨rfl, small_ref payloadRef⟩ <|
      .cons ⟨rfl, small_optionalRef provenanceRef⟩ <|
      .cons ⟨rfl, number⟩ <|
      .cons ⟨rfl, effect⟩ .nil
  · refine @small_object [("schema", 200), ("profile", 150), ("sender_node_id", 139),
      ("recipient_node_id", 139), ("message_id", 73), ("payload_ref", 73), ("provenance_ref", 73),
      ("sequence", 20), ("authority_effect", 50)] _ 4000 (by decide) ?_
    exact .cons ⟨rfl, name⟩ <|
      .cons ⟨rfl, small_profile _⟩ <|
      .cons ⟨rfl, small_node sender⟩ <|
      .cons ⟨rfl, small_node recipient⟩ <|
      .cons ⟨rfl, small_ref messageId⟩ <|
      .cons ⟨rfl, small_ref payloadRef⟩ <|
      .cons ⟨rfl, small_optionalRef provenanceRef⟩ <|
      .cons ⟨rfl, number⟩ <|
      .cons ⟨rfl, effect⟩ .nil

/-- A reference or null does not nest. -/
theorem nesting_optionalRef (value : Option String) :
    (Codecs.optionalRef.encode value).nesting ≤ 0 := by
  cases value <;> exact le_refl _

/-- Some members of an object of scalars nest once. -/
theorem nesting_filter {members : List (String × Value String)}
    (each : ∀ member ∈ members, member.2.nesting ≤ 0) (keep : String × Value String → Bool) :
    (Value.object (members.filter keep)).nesting < maxDepth := by
  have values : Value.nestingMembers (members.filter keep) ≤ 0 :=
    (nestingMembers_le_iff _ _).mpr fun member listed => each member (List.mem_filter.mp listed).1
  have deep : 2 ≤ maxDepth := by decide
  simp only [Value.nesting]
  omega

/-- A new frame of texts in shape is made, and it is accepted. -/
theorem new_accepted (primitives : Primitives) (profile : TransportProfile)
    {senderNodeId recipientNodeId messageId payloadRef : String} {provenanceRef : Option String}
    {sequence : UInt64} (sender : Wire.isNodeId senderNodeId = true)
    (recipient : Wire.isNodeId recipientNodeId = true)
    (message : Wire.isSha256Ref messageId = true) (payload : Wire.isSha256Ref payloadRef = true)
    (provenance : ∀ text ∈ provenanceRef, Wire.isSha256Ref text = true) (counted : sequence ≠ 0)
    (small : (sequence.toNat : Int) ≤ safeIntegerMax) : ∃ frame,
      TransportFrame.new primitives profile senderNodeId recipientNodeId messageId payloadRef
        provenanceRef sequence = .ok frame ∧
      validateTransportFrame primitives frame = .ok () := by
  let named : String → TransportFrame := fun frameId => {
    schema := transportFrameSchemaV1
    frameId, profile, senderNodeId, recipientNodeId, messageId, payloadRef, provenanceRef, sequence
    authorityEffect := "none" }
  have fits : ∀ frameId, Small 73 (.string frameId) → _ := fun frameId short =>
    @small_frame (named frameId) rfl short sender recipient message payload provenance small rfl
  obtain ⟨drafted, plain, short⟩ := fits "" (small_text (by decide) (by decide))
  have shallow : (Value.object ((Codecs.transportFrameFields.encode
      (Codecs.transportFrameItems (named ""))).filter fun member =>
        member.1 ≠ "frame_id")).nesting < maxDepth := by
    apply nesting_filter
    simp only [Codecs.transportFrameFields, Codecs.transportFrameItems, Fields.required,
      Fields.cons, Fields.nil, List.forall_mem_cons, List.not_mem_nil, false_imp_iff, implies_true,
      and_true]
    exact ⟨le_refl _, le_refl _, le_refl _, le_refl _, le_refl _, le_refl _, le_refl _,
      nesting_optionalRef _, le_refl _, le_refl _⟩
  obtain ⟨node, -, canonical, -⟩ := canonicalize_plain primitives.unicode plain shallow
    (short.trans (by decide))
  let frameId := Digest.sha256Ref primitives (writtenBytes node.toJson)
  have shape : Wire.isSha256Ref frameId = true := isSha256Ref_digest _ _
  -- The identity does not cover itself, so that it is the same before and after it is filled in.
  have identified : ∀ text, canonicalIdWithoutField primitives
      (Codecs.transportFrame.encode (named text)) "frame_id" = .ok frameId := by
    intro text
    change canonicalId primitives (.object ((Codecs.transportFrameFields.encode
      (Codecs.transportFrameItems (named ""))).filter fun member => member.1 ≠ "frame_id")) = _
    rw [canonicalId, canonical]
    rfl
  have shaped : ∀ text requireId, Small 73 (.string text) →
      (requireId && !Wire.isSha256Ref text) = false →
      validateTransportFrameShape (named text) requireId = .ok () := by
    intro text requireId short present
    simp only [validateTransportFrameShape, bind_ok_iff, ensure_ok_iff, exists_const]
    exact ⟨rfl, present, ⟨sender, recipient⟩, ⟨message, payload⟩,
      Option.all_eq_true _ _ |>.mpr provenance, ⟨counted, small⟩, rfl,
      (fits text short).1.2.trans (by decide)⟩
  have accepted : validateTransportFrame primitives (named frameId) = .ok () := by
    simp only [validateTransportFrame, bind_ok_iff, ensure_ok_iff]
    exact ⟨(), shaped frameId true (small_ref shape) (by simp [shape]), frameId, identified _, rfl⟩
  refine ⟨named frameId, ?_, accepted⟩
  simp only [TransportFrame.new, bind_ok_iff, pure_ok_iff]
  exact ⟨(), shaped "" false (small_text (by decide) (by decide)) rfl, frameId, identified "",
    (), accepted, rfl⟩

/-! ## The identity of a receipt -/

/-- The members of a receipt that its identity covers. -/
def covered (receipt : RelayReceipt) : List (String × Value String) :=
  (Codecs.relayReceiptFields.encode (Codecs.relayReceiptItems receipt)).filter
    fun member => member.1 ≠ "relay_receipt_id"

/-- The identity of a receipt digests these bytes. -/
def Identifies (primitives : Primitives) (receipt : RelayReceipt) (input : ByteArray) : Prop :=
  canonicalize primitives.unicode (writtenBytes (.object (covered receipt))) = .ok input

/-- The identity of a receipt is the reference to the bytes that it digests. -/
theorem receiptId_ok_iff (receipt : RelayReceipt) (identity : String) :
    canonicalIdWithoutField primitives (Codecs.relayReceipt.encode receipt) "relay_receipt_id" =
        .ok identity ↔
      ∃ input, Identifies primitives receipt input ∧
        Digest.sha256Ref primitives input = identity := by
  change canonicalId primitives (.object (covered receipt)) = _ ↔ _
  simp only [canonicalId, bind_ok_iff, mapError_ok_iff, pure_ok_iff, Identifies]

/-- A receipt whose texts are in shape. -/
structure Shaped (receipt : RelayReceipt) : Prop where
  /-- The schema is the one of receipts. -/
  schema : receipt.schema = relayReceiptSchemaV1
  /-- The frame is a reference. -/
  frameId : Wire.isSha256Ref receipt.frameId = true
  /-- The message is a reference. -/
  messageId : Wire.isSha256Ref receipt.messageId = true
  /-- The object is a reference. -/
  payloadRef : Wire.isSha256Ref receipt.payloadRef = true
  /-- The provenance is a reference, if there is one. -/
  provenanceRef : ∀ text ∈ receipt.provenanceRef, Wire.isSha256Ref text = true
  /-- The relay is a node. -/
  relayNodeId : Wire.isNodeId receipt.relayNodeId = true
  /-- The receipt before is a reference, if there is one. -/
  previous : ∀ text ∈ receipt.previousRelayReceiptRef, Wire.isSha256Ref text = true
  /-- The receipt authorises nothing. -/
  authorityEffect : receipt.authorityEffect = "none"

/-- The index of a hop is small. -/
theorem small_hop (index : UInt16) : Small 5 (Codec.uint16.encode index) := by
  have range : index.toNat < 2 ^ 16 := index.toNat_lt
  refine ⟨⟨index.toNat, rfl, le_trans (by decide) (Int.natCast_nonneg _), ?_⟩, ?_⟩
  · have bound : ((2 ^ 16 : Nat) : Int) ≤ safeIntegerMax := by decide
    omega
  · change writtenSize (.number (Number.ofInt index.toNat)) ≤ 5
    rw [writtenSize_natCast, Nat.length_toDigits_le_iff (by decide) (by decide)]
    omega

/-- What the identity of a receipt covers is small. -/
theorem Shaped.small {receipt : RelayReceipt} (shaped : Shaped receipt) :
    Small 4000 (.object (covered receipt)) := by
  have schema : Small 200 (.string receipt.schema) := by
    rw [shaped.schema]
    exact small_text (by decide) (by decide)
  have authority : Small 50 (.string receipt.authorityEffect) := by
    rw [shaped.authorityEffect]
    exact small_text (by decide) (by decide)
  refine @small_object [("schema", 200), ("frame_id", 73), ("message_id", 73), ("payload_ref", 73),
    ("provenance_ref", 73), ("hop_index", 5), ("relay_node_id", 139),
    ("previous_relay_receipt_ref", 73), ("ingress_profile", 150), ("egress_profile", 150),
    ("authority_effect", 50)] _ 4000 (by decide) ?_
  exact .cons ⟨rfl, schema⟩ <|
    .cons ⟨rfl, small_ref shaped.frameId⟩ <|
    .cons ⟨rfl, small_ref shaped.messageId⟩ <|
    .cons ⟨rfl, small_ref shaped.payloadRef⟩ <|
    .cons ⟨rfl, small_optionalRef shaped.provenanceRef⟩ <|
    .cons ⟨rfl, small_hop _⟩ <|
    .cons ⟨rfl, small_node shaped.relayNodeId⟩ <|
    .cons ⟨rfl, small_optionalRef shaped.previous⟩ <|
    .cons ⟨rfl, small_profile _⟩ <|
    .cons ⟨rfl, small_profile _⟩ <|
    .cons ⟨rfl, authority⟩ .nil

/-- What the identity of a receipt covers nests once. -/
theorem nesting_covered (receipt : RelayReceipt) :
    (Value.object (covered receipt)).nesting < maxDepth := by
  apply nesting_filter
  simp only [Codecs.relayReceiptFields, Codecs.relayReceiptItems, Fields.required, Fields.cons,
    Fields.nil, List.forall_mem_cons, List.not_mem_nil, false_imp_iff, implies_true, and_true]
  exact ⟨le_refl _, le_refl _, le_refl _, le_refl _, le_refl _, nesting_optionalRef _, le_refl _,
    le_refl _, nesting_optionalRef _, le_refl _, le_refl _, le_refl _⟩

/-- The bytes that the identity of a receipt in shape digests exist, and they are read as what
the identity covers up to order. -/
theorem Shaped.identifies {receipt : RelayReceipt} (shaped : Shaped receipt)
    (primitives : Primitives) : ∃ node : Node, Identifies primitives receipt (writtenBytes node.toJson) ∧
      Reorders (.object (covered receipt)) node.toJson ∧
      parseNode primitives.unicode (writtenBytes node.toJson) = .ok node := by
  obtain ⟨plain, short⟩ := shaped.small
  obtain ⟨node, -, accepted, same, -, -, -, parsed⟩ := canonicalize_plain primitives.unicode plain
    (nesting_covered receipt) (short.trans (by decide))
  exact ⟨node, accepted, same, parsed⟩

/-- Receipts with one identity that digest the same bytes are the same. -/
theorem Shaped.unique {one two : RelayReceipt} (first : Shaped one) (second : Shaped two)
    {input : ByteArray} (left : Identifies primitives one input)
    (right : Identifies primitives two input) (same : one.relayReceiptId = two.relayReceiptId) :
    one = two := by
  obtain ⟨node, identifies, reorders, parsed⟩ := first.identifies primitives
  obtain ⟨other, again, likewise, parsedAgain⟩ := second.identifies primitives
  rw [Identifies] at left right identifies again
  rw [left] at identifies
  rw [right] at again
  rw [← Except.ok.inj identifies] at parsed
  rw [← Except.ok.inj again, parsed] at parsedAgain
  obtain rfl := Except.ok.inj parsedAgain
  have items : Codecs.relayReceiptItems one = Codecs.relayReceiptItems two := by
    refine @Fields.agree _ Codecs.relayReceiptFields (by decide) _ _
      (fun name => decide (name ≠ "relay_receipt_id")) _ reorders likewise ?_
    have only : ∀ receipt : RelayReceipt,
        ((Codecs.relayReceiptFields.encode (Codecs.relayReceiptItems receipt)).filter
          fun member => !decide (member.1 ≠ "relay_receipt_id")) =
        [("relay_receipt_id", .string receipt.relayReceiptId)] := fun _ => rfl
    rw [only, only, same]
  cases one
  cases two
  simp only [Codecs.relayReceiptItems, Prod.mk.injEq] at items
  simp only [items]

/-! ## Chains -/

/-- A receipt continues a chain of receipts for a frame. -/
structure Follows (primitives : Primitives) (frame : TransportFrame) (chain : List RelayReceipt)
    (receipt : RelayReceipt) : Prop where
  /-- The schema is the one of receipts. -/
  schema : receipt.schema = relayReceiptSchemaV1
  /-- The identity is a reference. -/
  receiptId : Wire.isSha256Ref receipt.relayReceiptId = true
  /-- The hops are counted. -/
  hopIndex : receipt.hopIndex.toNat = chain.length + 1
  /-- The frame is the one that is forwarded. -/
  frameId : receipt.frameId = frame.frameId
  /-- So is its message. -/
  messageId : receipt.messageId = frame.messageId
  /-- So is its object. -/
  payloadRef : receipt.payloadRef = frame.payloadRef
  /-- So is its provenance. -/
  provenanceRef : receipt.provenanceRef = frame.provenanceRef
  /-- The frame arrives as it left the hop before. -/
  ingressProfile : receipt.ingressProfile =
    chain.getLast?.elim frame.profile RelayReceipt.egressProfile
  /-- The receipt authorises nothing. -/
  authorityEffect : receipt.authorityEffect = "none"
  /-- The relay is a node. -/
  relayNodeId : Wire.isNodeId receipt.relayNodeId = true
  /-- The receipt names the one before. -/
  previous : receipt.previousRelayReceiptRef = chain.getLast?.map RelayReceipt.relayReceiptId
  /-- The identity covers the other fields. -/
  identified : ∃ input, Identifies primitives receipt input ∧
    Digest.sha256Ref primitives input = receipt.relayReceiptId

/-- The hops after an accepted chain are accepted exactly when the whole chain is linked. -/
theorem validateHops_ok_iff (frame : TransportFrame) (rest : List RelayReceipt)
    (chain : List RelayReceipt) (linked : Linked (Follows primitives frame) chain) :
    validateHops primitives frame chain.length (chain.getLast?.map RelayReceipt.relayReceiptId)
        (chain.getLast?.elim frame.profile RelayReceipt.egressProfile) rest = .ok () ↔
      Linked (Follows primitives frame) (chain ++ rest) := by
  induction rest generalizing chain with
  | nil => simpa [validateHops] using linked
  | cons receipt rest ih =>
    have later := ih (chain ++ [receipt])
    simp only [List.length_append, List.length_singleton, List.getLast?_concat, Option.map_some,
      Option.elim_some, List.append_assoc, List.singleton_append] at later
    simp only [validateHops, bind_ok_iff, ensure_ok_iff, exists_const, receiptId_ok_iff]
    constructor
    · rintro ⟨⟨schema, receiptId, hopIndex, frameId, messageId, payloadRef, provenanceRef,
        ingress, authority, node, previous⟩, expected, ⟨input, identifies, digest⟩, same, hops⟩
      refine (later (.snoc linked ?_)).mp hops
      exact ⟨schema, receiptId, hopIndex, frameId, messageId, payloadRef, provenanceRef, ingress,
        authority, node, previous, input, identifies, digest.trans same⟩
    · intro whole
      have upTo : Linked (Follows primitives frame) (chain ++ [receipt]) := by
        apply Linked.shorten whole
        exact ⟨rest, by simp⟩
      have follows := (Linked.snoc_iff.mp upTo).2
      refine ⟨⟨follows.schema, follows.receiptId, follows.hopIndex, follows.frameId,
        follows.messageId, follows.payloadRef, follows.provenanceRef, follows.ingressProfile,
        follows.authorityEffect, follows.relayNodeId, follows.previous⟩, ?_⟩
      obtain ⟨input, identifies, digest⟩ := follows.identified
      exact ⟨receipt.relayReceiptId, ⟨input, identifies, digest⟩, rfl, (later upTo).mpr whole⟩

/-- A chain is accepted exactly when its frame is, it is short and it is linked. -/
theorem validateRelayChain_ok_iff (frame : TransportFrame) (chain : List RelayReceipt) :
    validateRelayChain primitives frame chain = .ok () ↔
      validateTransportFrame primitives frame = .ok () ∧ chain.length ≤ transportMaxRelayHops ∧
        Linked (Follows primitives frame) chain := by
  have hops := @validateHops_ok_iff primitives frame chain [] .nil
  simp only [List.length_nil, List.getLast?_nil, Option.map_none, Option.elim_none,
    List.nil_append] at hops
  simp only [validateRelayChain, bind_ok_iff, ensure_ok_iff, exists_const, hops]
  constructor
  · rintro ⟨_, valid, others⟩
    exact ⟨valid, others⟩
  · rintro ⟨valid, others⟩
    exact ⟨(), valid, others⟩

/-- A receipt that continues a chain is in shape. -/
theorem Follows.shaped {frame : TransportFrame} {chain : List RelayReceipt}
    {receipt : RelayReceipt} (framed : Framed frame)
    (linked : Linked (Follows primitives frame) chain)
    (follows : Follows primitives frame chain receipt) : Shaped receipt where
  schema := follows.schema
  frameId := follows.frameId ▸ framed.frameId
  messageId := follows.messageId ▸ framed.messageId
  payloadRef := follows.payloadRef ▸ framed.payloadRef
  provenanceRef := follows.provenanceRef ▸ framed.provenanceRef
  relayNodeId := follows.relayNodeId
  previous := by
    rw [follows.previous]
    intro text present
    obtain ⟨last, isLast, rfl⟩ := Option.map_eq_some_iff.mp present
    obtain ⟨_, earlier⟩ := linked.linked_of_mem (List.mem_of_getLast? isLast)
    exact earlier.receiptId
  authorityEffect := follows.authorityEffect

/-- Every receipt of a linked chain is in shape and has the identity of what it covers. -/
theorem shaped_of_mem {frame : TransportFrame} {chain : List RelayReceipt} (framed : Framed frame)
    (linked : Linked (Follows primitives frame) chain) {receipt : RelayReceipt}
    (member : receipt ∈ chain) : Shaped receipt ∧ ∃ input, Identifies primitives receipt input ∧
      Digest.sha256Ref primitives input = receipt.relayReceiptId := by
  induction linked with
  | nil => cases member
  | snoc before last ih =>
    rcases List.mem_append.mp member with earlier | here
    · exact ih earlier
    · rw [List.mem_singleton] at here
      subst here
      exact ⟨last.shaped framed before, last.identified⟩

/-- The receipt of one more hop is built, and it continues the chain. -/
theorem buildRelayReceipt_follows {frame : TransportFrame} {chain : List RelayReceipt}
    (accepted : validateTransportFrame primitives frame = .ok ())
    (linked : Linked (Follows primitives frame) chain) (room : chain.length < transportMaxRelayHops)
    {relayNodeId : String} (node : Wire.isNodeId relayNodeId = true)
    (egressProfile : TransportProfile) : ∃ receipt,
      buildRelayReceipt primitives frame (UInt16.ofNat (chain.length + 1)) relayNodeId
          (chain.getLast?.map RelayReceipt.relayReceiptId)
          (chain.getLast?.elim frame.profile RelayReceipt.egressProfile) egressProfile =
        .ok receipt ∧ Follows primitives frame chain receipt := by
  have framed := framed_of_accepted accepted
  have few : chain.length < 16 := room
  have index : (UInt16.ofNat (chain.length + 1)).toNat = chain.length + 1 := by
    rw [UInt16.toNat_ofNat', Nat.mod_eq_of_lt (by omega)]
  have counted : UInt16.ofNat (chain.length + 1) ≠ 0 := by
    intro none
    rw [none] at index
    exact absurd index (by simp)
  have previous : ∀ text ∈ chain.getLast?.map RelayReceipt.relayReceiptId,
      Wire.isSha256Ref text = true := by
    intro text present
    obtain ⟨last, isLast, rfl⟩ := Option.map_eq_some_iff.mp present
    obtain ⟨_, earlier⟩ := linked.linked_of_mem (List.mem_of_getLast? isLast)
    exact earlier.receiptId
  let draft : RelayReceipt := {
    schema := relayReceiptSchemaV1
    relayReceiptId := ""
    frameId := frame.frameId
    messageId := frame.messageId
    payloadRef := frame.payloadRef
    provenanceRef := frame.provenanceRef
    hopIndex := UInt16.ofNat (chain.length + 1)
    relayNodeId
    previousRelayReceiptRef := chain.getLast?.map RelayReceipt.relayReceiptId
    ingressProfile := chain.getLast?.elim frame.profile RelayReceipt.egressProfile
    egressProfile
    authorityEffect := "none" }
  have shaped : Shaped draft := ⟨rfl, framed.frameId, framed.messageId, framed.payloadRef,
    framed.provenanceRef, node, previous, rfl⟩
  obtain ⟨written, identifies, -⟩ := shaped.identifies primitives
  let identity := Digest.sha256Ref primitives (writtenBytes written.toJson)
  have identified : canonicalIdWithoutField primitives (Codecs.relayReceipt.encode draft)
      "relay_receipt_id" = .ok identity := (receiptId_ok_iff _ _).mpr ⟨_, identifies, rfl⟩
  refine ⟨{ draft with relayReceiptId := identity }, ?_, ?_⟩
  · simp only [buildRelayReceipt, bind_ok_iff, ensure_ok_iff, exists_const, pure_ok_iff, index]
    exact ⟨(), accepted, ⟨counted, room, node⟩, Option.all_eq_true _ _ |>.mpr previous, identity,
      identified, rfl⟩
  · exact ⟨rfl, isSha256Ref_digest _ _, index, rfl, rfl, rfl, rfl, rfl, rfl, node, rfl,
      _, identifies, rfl⟩

/-- An accepted chain is extended by the receipt of the next hop, its prefixes are accepted, and
while no two digests collide its last receipt determines it. -/
theorem relay_chains (frame : TransportFrame) (chain : List RelayReceipt)
    (accepted : validateRelayChain primitives frame chain = .ok ()) :
    (chain.length < transportMaxRelayHops → ∀ relayNodeId egressProfile,
      Wire.isNodeId relayNodeId = true → ∃ receipt,
        buildRelayReceipt primitives frame (UInt16.ofNat (chain.length + 1)) relayNodeId
            (chain.getLast?.map RelayReceipt.relayReceiptId)
            (chain.getLast?.elim frame.profile RelayReceipt.egressProfile) egressProfile =
          .ok receipt ∧
        validateRelayChain primitives frame (chain ++ [receipt]) = .ok ()) ∧
    (∀ shorter, shorter <+: chain → validateRelayChain primitives frame shorter = .ok ()) ∧
    (∀ other, validateRelayChain primitives frame other = .ok () →
      Set.InjOn (Digest.sha256Ref primitives)
        {input | ∃ receipt ∈ chain ++ other, Identifies primitives receipt input} →
      chain.getLast?.map RelayReceipt.relayReceiptId =
        other.getLast?.map RelayReceipt.relayReceiptId →
      chain = other) := by
  obtain ⟨valid, few, linked⟩ := (validateRelayChain_ok_iff frame chain).mp accepted
  have framed := framed_of_accepted valid
  refine ⟨?_, ?_, ?_⟩
  · intro room relayNodeId egressProfile node
    obtain ⟨receipt, built, follows⟩ :=
      buildRelayReceipt_follows valid linked room node egressProfile
    refine ⟨receipt, built, (validateRelayChain_ok_iff _ _).mpr ⟨valid, ?_, .snoc linked follows⟩⟩
    rw [List.length_append, List.length_singleton]
    exact room
  · intro shorter starts
    exact (validateRelayChain_ok_iff _ _).mpr
      ⟨valid, starts.length_le.trans few, linked.shorten starts⟩
  · intro other acceptedOther distinct same
    obtain ⟨-, -, linkedOther⟩ := (validateRelayChain_ok_iff frame other).mp acceptedOther
    refine linked.determined linkedOther ?_ ?_ same
    · intro left here right there names
      obtain ⟨first, input, identifies, digest⟩ := shaped_of_mem framed linked here
      obtain ⟨second, again, likewise, digestAgain⟩ := shaped_of_mem framed linkedOther there
      have bytes : input = again := distinct
        ⟨left, List.mem_append_left _ here, identifies⟩
        ⟨right, List.mem_append_right _ there, likewise⟩
        (by rw [digest, digestAgain, names])
      subst bytes
      exact first.unique second identifies likewise names
    · intro left right entry first second
      rw [← first.previous, second.previous]

/-- A frame for which a relay makes a receipt. -/
theorem relayed_frame : ∃ frame receipt,
    validateRelayChain (Digest.tabulated [] []) frame [] = .ok () ∧
    validateRelayChain (Digest.tabulated [] []) frame [receipt] = .ok () := by
  have reference : Wire.isSha256Ref
      "sha256:0000000000000000000000000000000000000000000000000000000000000000" = true := by decide
  have sender : Wire.isNodeId "fed:qsol:sender" = true := by decide
  have recipient : Wire.isNodeId "fed:qsol:recipient" = true := by decide
  have bare : ∀ text ∈ (none : Option String), Wire.isSha256Ref text = true := by simp
  obtain ⟨frame, -, accepted⟩ := new_accepted (Digest.tabulated [] []) .webSocket sender recipient
    reference reference bare (by decide : (1 : UInt64) ≠ 0) (by decide)
  have empty : validateRelayChain (Digest.tabulated [] []) frame [] = .ok () :=
    (validateRelayChain_ok_iff _ _).mpr ⟨accepted, by decide, .nil⟩
  obtain ⟨receipt, -, extended⟩ := (relay_chains frame [] empty).1 (by decide) "fed:qsol:relay"
    .storeForward (by decide)
  exact ⟨frame, receipt, empty, extended⟩

end QsolFed.Transport
