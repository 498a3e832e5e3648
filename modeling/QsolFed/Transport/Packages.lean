import QsolFed.Transport.Identified

/-!
# Offline packages

A package carries a frame and the receipts of its relays on a storage medium. Its identity covers
both. A chain that is accepted has at most sixteen small receipts, so that every accepted chain can
be packed, and a package is accepted exactly when it is the one that its own frame and chain give.
-/
namespace QsolFed

open Checked Json Canonical

/-- A frame with the receipts of its relays, as a file. -/
structure OfflinePackage where
  /-- The schema of the package. -/
  schema : String
  /-- The identity of the package. -/
  packageId : String
  /-- The frame that is carried. -/
  frame : TransportFrame
  /-- The receipts of the relays that forwarded it. -/
  relayChain : List RelayReceipt
  /-- What the package authorises. -/
  authorityEffect : String
  deriving DecidableEq

namespace Codecs

/-- The fields of a package. -/
def offlinePackageFields :=
  Fields.required "schema" .string <|
  Fields.required "package_id" .string <|
  Fields.required "frame" transportFrame <|
  Fields.required "relay_chain" relayReceipt.list <|
  Fields.required "authority_effect" .string .nil

/-- The fields of a package, in order. -/
def offlinePackageItems (value : OfflinePackage) :=
  (value.schema, value.packageId, value.frame, value.relayChain, value.authorityEffect, ())

/-- A package as an object. -/
def offlinePackage : Codec OfflinePackage :=
  (Codec.record offlinePackageFields (by decide)).iso
    (fun (schema, packageId, frame, relayChain, authorityEffect, ()) =>
      { schema, packageId, frame, relayChain, authorityEffect })
    offlinePackageItems fun _ => rfl

end Codecs

namespace Transport

/-- The schema of packages. -/
def offlinePackageSchemaV1 : String := "qsol-fed-offline-package/1"

variable (primitives : Primitives)

/-- The package of a frame and the receipts of its relays. -/
def buildOfflinePackage (frame : TransportFrame) (relayChain : List RelayReceipt) :
    Except TransportError OfflinePackage := do
  validateRelayChain primitives frame relayChain
  let package : OfflinePackage := {
    schema := offlinePackageSchemaV1
    packageId := ""
    frame, relayChain
    authorityEffect := "none" }
  let packageId ← canonicalIdWithoutField primitives (Codecs.offlinePackage.encode package)
    "package_id"
  let package := { package with packageId }
  ensure ((toVec Codecs.offlinePackage package).size ≤ transportFrameMaxBytes)
    (.code "offline_package_too_large")
  pure package

/-- Refuse a package that does not have its own identity or whose chain does not forward its
frame. -/
def validateOfflinePackage (package : OfflinePackage) : Except TransportError Unit := do
  ensure (package.schema = offlinePackageSchemaV1 ∧ package.authorityEffect = "none" ∧
    Wire.isSha256Ref package.packageId) (.code "offline_package_invalid")
  validateRelayChain primitives package.frame package.relayChain
  let expected ← canonicalIdWithoutField primitives (Codecs.offlinePackage.encode package)
    "package_id"
  ensure (expected = package.packageId) (.code "offline_package_identity_mismatch")

variable {primitives}

/-! ## Sizes -/

/-- An accepted frame is small. -/
theorem small_accepted {frame : TransportFrame}
    (accepted : validateTransportFrame primitives frame = .ok ()) :
    Small 4000 (Codecs.transportFrame.encode frame) := by
  simp only [validateTransportFrame, validateTransportFrameShape, bind_ok_iff, ensure_ok_iff,
    exists_const] at accepted
  obtain ⟨⟨schema, frameId, nodes, refs, provenance, sequence, authority, -⟩, -⟩ := accepted
  have identity : Wire.isSha256Ref frame.frameId = true := by simpa using frameId
  exact (small_frame schema (small_ref identity) nodes.1 nodes.2 refs.1 refs.2
    (Option.all_eq_true _ _ |>.mp provenance) sequence.2 authority).1

/-- A receipt in shape is small with its identity. -/
theorem Shaped.small_whole {receipt : RelayReceipt} (shaped : Shaped receipt)
    (identity : Wire.isSha256Ref receipt.relayReceiptId = true) :
    Small 2100 (Codecs.relayReceipt.encode receipt) := by
  have schema : Small 150 (.string receipt.schema) := by
    rw [shaped.schema]
    exact small_text (by decide) (by decide)
  have authority : Small 50 (.string receipt.authorityEffect) := by
    rw [shaped.authorityEffect]
    exact small_text (by decide) (by decide)
  refine @small_object [("schema", 150), ("relay_receipt_id", 73), ("frame_id", 73),
    ("message_id", 73), ("payload_ref", 73), ("provenance_ref", 73), ("hop_index", 5),
    ("relay_node_id", 139), ("previous_relay_receipt_ref", 73), ("ingress_profile", 150),
    ("egress_profile", 150), ("authority_effect", 50)] _ 2100 (by decide) ?_
  exact .cons ⟨rfl, schema⟩ <|
    .cons ⟨rfl, small_ref identity⟩ <|
    .cons ⟨rfl, small_ref shaped.frameId⟩ <|
    .cons ⟨rfl, small_ref shaped.messageId⟩ <|
    .cons ⟨rfl, small_ref shaped.payloadRef⟩ <|
    .cons ⟨rfl, small_optionalRef shaped.provenanceRef⟩ <|
    .cons ⟨rfl, small_hop _⟩ <|
    .cons ⟨rfl, small_node shaped.relayNodeId⟩ <|
    .cons ⟨rfl, small_optionalRef shaped.previous⟩ <|
    .cons ⟨rfl, small_profile _⟩ <|
    .cons ⟨rfl, small_profile _⟩ <|
    .cons ⟨rfl, authority⟩ .nil

/-- The receipts of a linked chain have references as identities. -/
theorem receiptId_of_mem {frame : TransportFrame} {chain : List RelayReceipt}
    (linked : Linked (Follows primitives frame) chain) {receipt : RelayReceipt}
    (member : receipt ∈ chain) : Wire.isSha256Ref receipt.relayReceiptId = true := by
  obtain ⟨_, follows⟩ := linked.linked_of_mem member
  exact follows.receiptId

/-- An accepted chain is small. -/
theorem small_chain {frame : TransportFrame} {chain : List RelayReceipt}
    (accepted : validateRelayChain primitives frame chain = .ok ()) :
    Small 34000 (Codecs.relayReceipt.list.encode chain) := by
  obtain ⟨valid, few, linked⟩ := (validateRelayChain_ok_iff frame chain).mp accepted
  have framed := framed_of_accepted valid
  have each : ∀ item ∈ chain.map Codecs.relayReceipt.encode, Small 2100 item := by
    intro item listed
    obtain ⟨receipt, member, rfl⟩ := List.mem_map.mp listed
    exact (shaped_of_mem framed linked member).1.small_whole (receiptId_of_mem linked member)
  have count : (chain.map Codecs.relayReceipt.encode).length ≤ 16 := by
    rw [List.length_map]
    exact few
  obtain ⟨plain, size⟩ := small_array count (by decide) each
  exact ⟨plain, size.trans (by decide)⟩

/-- An encoded frame nests once. -/
theorem nesting_frame (frame : TransportFrame) :
    (Codecs.transportFrame.encode frame).nesting ≤ 1 := by
  refine nesting_record Codecs.transportFrameFields (by decide) _ 0 ?_
  simp only [Codecs.transportFrameFields, Codecs.transportFrameItems, Fields.required, Fields.cons,
    Fields.nil, List.map_cons, List.map_nil, List.forall_mem_cons, List.not_mem_nil,
    false_imp_iff, implies_true, and_true]
  exact ⟨le_refl _, le_refl _, le_refl _, le_refl _, le_refl _, le_refl _, le_refl _,
    nesting_optionalRef _, le_refl _, le_refl _⟩

/-- An encoded receipt nests once. -/
theorem nesting_receipt (receipt : RelayReceipt) :
    (Codecs.relayReceipt.encode receipt).nesting ≤ 1 := by
  refine nesting_record Codecs.relayReceiptFields (by decide) _ 0 ?_
  simp only [Codecs.relayReceiptFields, Codecs.relayReceiptItems, Fields.required, Fields.cons,
    Fields.nil, List.map_cons, List.map_nil, List.forall_mem_cons, List.not_mem_nil,
    false_imp_iff, implies_true, and_true]
  exact ⟨le_refl _, le_refl _, le_refl _, le_refl _, le_refl _, nesting_optionalRef _, le_refl _,
    le_refl _, nesting_optionalRef _, le_refl _, le_refl _, le_refl _⟩

/-! ## Packages -/

/-- A package whose frame and chain are accepted. -/
structure Packed (primitives : Primitives) (package : OfflinePackage) : Prop where
  /-- The schema is the one of packages. -/
  schema : package.schema = offlinePackageSchemaV1
  /-- The package authorises nothing. -/
  authorityEffect : package.authorityEffect = "none"
  /-- The chain forwards the frame. -/
  chain : validateRelayChain primitives package.frame package.relayChain = .ok ()

/-- The frame of a packed chain is accepted. -/
theorem Packed.frame {package : OfflinePackage} (packed : Packed primitives package) :
    validateTransportFrame primitives package.frame = .ok () :=
  ((validateRelayChain_ok_iff _ _).mp packed.chain).1

/-- A packed chain is small with an identity of the package. -/
theorem Packed.small_whole {package : OfflinePackage} (packed : Packed primitives package)
    (identity : Small 73 (.string package.packageId)) :
    Small transportFrameMaxBytes (Codecs.offlinePackage.encode package) := by
  have schema : Small 200 (.string package.schema) := by
    rw [packed.schema]
    exact small_text (by decide) (by decide)
  have authority : Small 50 (.string package.authorityEffect) := by
    rw [packed.authorityEffect]
    exact small_text (by decide) (by decide)
  refine @small_object [("schema", 200), ("package_id", 73), ("frame", 4000),
    ("relay_chain", 34000), ("authority_effect", 50)] _ _ (by decide) ?_
  exact .cons ⟨rfl, schema⟩ <|
    .cons ⟨rfl, identity⟩ <|
    .cons ⟨rfl, small_accepted packed.frame⟩ <|
    .cons ⟨rfl, small_chain packed.chain⟩ <|
    .cons ⟨rfl, authority⟩ .nil

/-- An encoded package nests three times. -/
theorem nesting_package (package : OfflinePackage) :
    (Codecs.offlinePackage.encode package).nesting ≤ 3 := by
  refine nesting_record Codecs.offlinePackageFields (by decide) _ 2 ?_
  simp only [Codecs.offlinePackageFields, Codecs.offlinePackageItems, Fields.required, Fields.cons,
    Fields.nil, List.map_cons, List.map_nil, List.forall_mem_cons, List.not_mem_nil,
    false_imp_iff, implies_true, and_true]
  have chain := nesting_list Codecs.relayReceipt package.relayChain 1
    fun receipt _ => nesting_receipt receipt
  exact ⟨Nat.zero_le _, Nat.zero_le _, (nesting_frame _).trans (by decide), chain, Nat.zero_le _⟩

/-- What the identity of a packed chain covers is small and shallow. -/
theorem Packed.identifiable {package : OfflinePackage} (packed : Packed primitives package) :
    Identifiable Codecs.offlinePackageFields "package_id" (Codecs.offlinePackageItems package) := by
  have schema : Small 200 (.string package.schema) := by
    rw [packed.schema]
    exact small_text (by decide) (by decide)
  have authority : Small 50 (.string package.authorityEffect) := by
    rw [packed.authorityEffect]
    exact small_text (by decide) (by decide)
  constructor
  · refine @small_object [("schema", 200), ("frame", 4000), ("relay_chain", 34000),
      ("authority_effect", 50)] _ _ (by decide) ?_
    exact .cons ⟨rfl, schema⟩ <|
      .cons ⟨rfl, small_accepted packed.frame⟩ <|
      .cons ⟨rfl, small_chain packed.chain⟩ <|
      .cons ⟨rfl, authority⟩ .nil
  · have whole := nesting_package package
    change Value.nestingMembers _ + 1 ≤ 3 at whole
    have part : Value.nestingMembers (coveredBy Codecs.offlinePackageFields "package_id"
        (Codecs.offlinePackageItems package)) ≤ 2 :=
      (nestingMembers_le_iff _ _).mpr fun member listed =>
        (nestingMembers_le_iff _ _).mp (Nat.le_of_succ_le_succ whole) member
          (List.mem_filter.mp listed).1
    have deep : 4 ≤ maxDepth := by decide
    simp only [Value.nesting]
    omega

/-- The package of a frame and a chain that has some identity. -/
def packageOf (frame : TransportFrame) (relayChain : List RelayReceipt) (packageId : String) :
    OfflinePackage where
  schema := offlinePackageSchemaV1
  packageId := packageId
  frame := frame
  relayChain := relayChain
  authorityEffect := "none"

/-- A package is built exactly from an accepted chain, with the reference to what it covers. -/
theorem buildOfflinePackage_ok_iff (frame : TransportFrame) (chain : List RelayReceipt)
    (package : OfflinePackage) : buildOfflinePackage primitives frame chain = .ok package ↔
      validateRelayChain primitives frame chain = .ok () ∧ ∃ input,
        Digests primitives Codecs.offlinePackageFields "package_id"
          (Codecs.offlinePackageItems (packageOf frame chain "")) input ∧
        packageOf frame chain (Digest.sha256Ref primitives input) = package := by
  have identity := @identity_ok_iff _ primitives Codecs.offlinePackageFields "package_id"
    (Codecs.offlinePackageItems (packageOf frame chain ""))
  simp only [buildOfflinePackage, bind_ok_iff, ensure_ok_iff, pure_ok_iff, exists_const]
  constructor
  · rintro ⟨_, accepted, packageId, covered, -, rfl⟩
    obtain ⟨input, digests, rfl⟩ := (identity packageId).mp covered
    exact ⟨accepted, input, digests, rfl⟩
  · rintro ⟨accepted, input, digests, rfl⟩
    have packed : Packed primitives
        (packageOf frame chain (Digest.sha256Ref primitives input)) := ⟨rfl, rfl, accepted⟩
    have short := (packed.small_whole (small_ref (isSha256Ref_digest _ _))).2
    exact ⟨(), accepted, _, (identity _).mpr ⟨input, digests, rfl⟩, short, rfl⟩

/-- A package is accepted exactly when it is packed and its identity digests what it covers. -/
theorem validateOfflinePackage_ok_iff (package : OfflinePackage) :
    validateOfflinePackage primitives package = .ok () ↔
      Packed primitives package ∧ ∃ input,
        Digests primitives Codecs.offlinePackageFields "package_id"
          (Codecs.offlinePackageItems package) input ∧
        Digest.sha256Ref primitives input = package.packageId := by
  have identity := @identity_ok_iff _ primitives Codecs.offlinePackageFields "package_id"
    (Codecs.offlinePackageItems package)
  simp only [validateOfflinePackage, bind_ok_iff, ensure_ok_iff, exists_const]
  constructor
  · rintro ⟨⟨schema, authority, -⟩, _, accepted, expected, covered, rfl⟩
    obtain ⟨input, digests, same⟩ := (identity _).mp covered
    exact ⟨⟨schema, authority, accepted⟩, input, digests, same⟩
  · rintro ⟨packed, input, digests, same⟩
    have shape : Wire.isSha256Ref package.packageId = true := by
      rw [← same]
      exact isSha256Ref_digest _ _
    exact ⟨⟨packed.schema, packed.authorityEffect, shape⟩, (), packed.chain, package.packageId,
      (identity _).mpr ⟨input, digests, same⟩, rfl⟩

/-- Every accepted chain is packed. A package is accepted exactly when it is the one of its own
frame and chain, it is read back from its canonical bytes, and while no two digests collide its
identity determines it. -/
theorem offline_packages (primitives : Primitives) :
    (∀ frame chain, (∃ package, buildOfflinePackage primitives frame chain = .ok package) ↔
      validateRelayChain primitives frame chain = .ok ()) ∧
    (∀ package, validateOfflinePackage primitives package = .ok () ↔
      buildOfflinePackage primitives package.frame package.relayChain = .ok package) ∧
    (∀ package, validateOfflinePackage primitives package = .ok () → ∃ bytes,
      canonicalize primitives.unicode (toVec Codecs.offlinePackage package) = .ok bytes ∧
      fromSlice Codecs.offlinePackage bytes = some package) ∧
    ∀ one two, validateOfflinePackage primitives one = .ok () →
      validateOfflinePackage primitives two = .ok () →
      Set.InjOn (Digest.sha256Ref primitives) {input | ∃ package ∈ [one, two],
        Digests primitives Codecs.offlinePackageFields "package_id"
          (Codecs.offlinePackageItems package) input} →
      one.packageId = two.packageId → one = two := by
  refine ⟨?_, ?_, ?_, ?_⟩
  · intro frame chain
    constructor
    · rintro ⟨package, built⟩
      exact ((buildOfflinePackage_ok_iff ..).mp built).1
    · intro accepted
      have packed : Packed primitives (packageOf frame chain "") := ⟨rfl, rfl, accepted⟩
      obtain ⟨node, digests, -⟩ := packed.identifiable.digests primitives
      exact ⟨_, (buildOfflinePackage_ok_iff ..).mpr ⟨accepted, _, digests, rfl⟩⟩
  · intro package
    -- The identity does not cover itself, so that both functions digest the same members.
    have covered : ∀ packed : Packed primitives package,
        packageOf package.frame package.relayChain package.packageId = package := by
      intro packed
      cases package
      obtain ⟨rfl, rfl, -⟩ := packed
      rfl
    rw [validateOfflinePackage_ok_iff, buildOfflinePackage_ok_iff]
    constructor
    · rintro ⟨packed, input, digests, same⟩
      rw [← covered packed] at digests
      refine ⟨packed.chain, input, digests, ?_⟩
      rw [same]
      exact covered packed
    · rintro ⟨accepted, input, digests, same⟩
      have packed : Packed primitives package := by
        rw [← same]
        exact ⟨rfl, rfl, accepted⟩
      refine ⟨packed, input, ?_, congrArg OfflinePackage.packageId same⟩
      rw [← covered packed]
      exact digests
  · intro package accepted
    obtain ⟨packed, input, -, same⟩ := (validateOfflinePackage_ok_iff _).mp accepted
    have shape : Wire.isSha256Ref package.packageId = true := by
      rw [← same]
      exact isSha256Ref_digest _ _
    obtain ⟨plain, short⟩ := packed.small_whole (small_ref shape)
    have shallow : (Codecs.offlinePackage.encode package).nesting < maxDepth :=
      lt_of_le_of_lt (nesting_package package) (by decide)
    obtain ⟨node, -, canonical, -⟩ := canonicalize_plain primitives.unicode plain shallow
      (short.trans (by decide))
    exact ⟨_, canonical, fromSlice_canonical _ _ _ plain shallow canonical⟩
  · intro one two first second distinct same
    obtain ⟨packed, input, digests, identity⟩ := (validateOfflinePackage_ok_iff _).mp first
    obtain ⟨packedTwo, again, digestsTwo, identityTwo⟩ :=
      (validateOfflinePackage_ok_iff _).mp second
    have bytes : input = again := distinct ⟨one, by simp, digests⟩ ⟨two, by simp, digestsTwo⟩
      (by rw [identity, identityTwo, same])
    rw [← bytes] at digestsTwo
    have only : ∀ package : OfflinePackage, uncoveredBy Codecs.offlinePackageFields "package_id"
        (Codecs.offlinePackageItems package) = [("package_id", .string package.packageId)] :=
      fun _ => rfl
    have items := packed.identifiable.unique (by decide) packedTwo.identifiable digests digestsTwo
      (by rw [only, only, same])
    cases one
    cases two
    simp only [Codecs.offlinePackageItems, Prod.mk.injEq] at items
    simp only [items]

end Transport

end QsolFed
