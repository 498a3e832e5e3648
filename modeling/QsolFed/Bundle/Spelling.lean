import QsolFed.Bundle.Peers
import QsolFed.Library.Paired
import QsolFed.Signing.Wire

/-!
# Spelling of embedded data

Embedded data is canonical JSON that a reader accepts. The readers also take a list of fields for a
record, and an object with one null member for a name, and neither is written. Data is written as
it is embedded exactly when its records are spelled as objects and its names as texts.
-/
namespace QsolFed.Bundle

open Checked Json Canonical Peering

variable {primitives : Primitives}

/-- An identity document is an object, and its scheme is a text. -/
def IdentityForm : Value String → Prop :=
  IsRecord fun name => if name = "algorithm" then IsText else Any

/-- A lifecycle record is an object, and its scheme, its mode, its status and its reason are
texts. -/
def LifecycleForm : Value String → Prop :=
  IsRecord fun name =>
    if name = "algorithm" ∨ name = "mode" ∨ name = "status" ∨ name = "reason" then IsText else Any

/-- An advertisement is an object, and its proof has the form of a signed envelope. -/
def AdvertisementForm : Value String → Prop :=
  IsRecord fun name => if name = "proof" then SignedForm else Any

/-- A document is written in its form. -/
theorem writes_identity : Writes Codecs.identity IdentityForm := by
  refine writes_iso (fun _ => rfl) (writes_record ?_)
  refine writes_cons (fun _ => by simp) writes_string <|
    writes_cons (fun _ => by simp) writes_string <|
    writes_cons (fun _ => by simp) writes_enumeration <|
    writes_cons (fun _ => by simp) writes_string <|
    writes_cons (fun _ => by simp) writes_string <|
    writes_cons (fun _ => by simp) writes_string <|
    writes_cons (fun _ => by simp) writes_string <|
    writes_cons (fun _ => by simp) writes_string <|
    writes_cons (fun _ => by simp) writes_string writes_nil

/-- A rotation record is written in the form of lifecycle records. -/
theorem writes_rotation : Writes Codecs.rotation LifecycleForm := by
  refine writes_iso (fun _ => rfl) (writes_record ?_)
  refine writes_cons (fun _ => by simp) writes_string <|
    writes_cons (fun _ => by simp) writes_string <|
    writes_cons (fun _ => by simp) writes_enumeration <|
    writes_cons (fun _ => by simp) writes_uint64 <|
    writes_cons (fun _ => by simp) writes_enumeration <|
    writes_cons (fun _ => by simp) writes_string <|
    writes_cons (fun _ => by simp) writes_string <|
    writes_cons (fun _ => by simp) writes_string <|
    writes_cons (fun _ => by simp) writes_string <|
    writes_cons (fun _ => by simp) writes_string <|
    writes_cons (fun _ => by simp) (writes_nullable writes_string) <|
    writes_cons (fun _ => by simp) writes_string <|
    writes_cons (fun _ => by simp) writes_string writes_nil

/-- A status record is written in the form of lifecycle records. -/
theorem writes_status : Writes Codecs.status LifecycleForm := by
  refine writes_iso (fun _ => rfl) (writes_record ?_)
  refine writes_cons (fun _ => by simp) writes_string <|
    writes_cons (fun _ => by simp) writes_string <|
    writes_cons (fun _ => by simp) writes_enumeration <|
    writes_cons (fun _ => by simp) writes_uint64 <|
    writes_cons (fun _ => by simp) writes_string <|
    writes_cons (fun _ => by simp) writes_enumeration <|
    writes_cons (fun _ => by simp) writes_string <|
    writes_cons (fun _ => by simp) writes_enumeration <|
    writes_cons (fun _ => by simp) writes_string writes_nil

/-- A lifecycle record is written in its form. -/
theorem writes_lifecycleRecord : Writes Codecs.lifecycleRecord LifecycleForm := by
  refine writes_iso (fun record => ?_) (writes_untagged writes_rotation writes_status)
  cases record <;> rfl

/-- An advertisement is written in its form. -/
theorem writes_advertisement : Writes Codecs.advertisement AdvertisementForm := by
  refine writes_iso (fun _ => rfl) (writes_record ?_)
  refine writes_cons (fun _ => by simp) writes_string <|
    writes_cons (fun _ => by simp) writes_string <|
    writes_cons (fun _ => by simp) writes_uint64 <|
    writes_cons (fun _ => by simp) writes_string <|
    writes_cons (fun _ => by simp) writes_string <|
    writes_cons (fun _ => by simp) (writes_list writes_string) <|
    writes_cons (fun _ => by simp) writes_signedEnvelope writes_nil

/-- Embedded data whose text spells a value of a form. -/
def Spells (form : Value String → Prop) (encoded : String) : Prop :=
  ∃ bytes text value, decodeHex encoded = .ok bytes ∧ String.fromUTF8? bytes = some text ∧
    readDocument decodeText recursionLimit text.toList = some value ∧ form value

/-- Embedded bytes of a tree spell a value of a form exactly when the value of the tree has it. -/
theorem spells_iff {form : Value String → Prop} {encoded : String} {node : Node}
    (decoded : decodeHex encoded = .ok (writtenBytes node.toJson)) (fits : node.height ≤ maxDepth) :
    Spells form encoded ↔ form node.toJson := by
  have shallow : node.toJson.nesting ≤ recursionLimit :=
    (Node.nesting_toJson _).trans (fits.trans (by decide))
  have text : String.fromUTF8? (writtenBytes node.toJson) =
      some (String.ofList (print node.toJson)) := Text.fromUTF8_toByteArray _
  have found := readDocument_print node.toJson recursionLimit (Node.integral_toJson _) shallow
  constructor
  · rintro ⟨other, _, _, again, here, there, shape⟩
    obtain rfl := Except.ok.inj (decoded.symm.trans again)
    rw [text] at here
    obtain rfl := Option.some.inj here
    rw [String.toList_ofList, found] at there
    exact Option.some.inj there ▸ shape
  · intro shape
    exact ⟨_, _, _, decoded, text, by rw [String.toList_ofList]; exact found, shape⟩

/-- Data whose canonical bytes are the embedded ones. -/
def Rewrites (primitives : Primitives) {α : Type} (codec : Codec α) (encoded : String)
    (data : α) : Prop :=
  ∃ bytes, decodeHex encoded = .ok bytes ∧
    canonicalStruct primitives (codec.encode data) = .ok bytes

/-- What is embedded is written as it is embedded exactly when it has the form that is written. -/
theorem Embeds.rewrites_iff {α : Type} {codec : Codec α} {form : Value String → Prop}
    (writes : Writes codec form) {encoded : String} {data : α}
    (embeds : Embeds primitives codec encoded data) (plain : Plain (codec.encode data))
    (shallow : (codec.encode data).nesting < maxDepth)
    (short : writtenSize (codec.encode data) ≤ maxInputBytes) :
    Rewrites primitives codec encoded data ↔ Spells form encoded := by
  obtain ⟨bytes, decoded, canonical, read⟩ := embeds
  obtain ⟨value, -, rfl, normal, fits⟩ :=
    canonical_node ((requireExactCanonical_ok_iff _).mp canonical)
  rw [fromSlice_node codec fits] at read
  have written : Rewrites primitives codec encoded data ↔
      canonicalStruct primitives (codec.encode data) = .ok (writtenBytes value.node.toJson) := by
    constructor
    · rintro ⟨other, again, same⟩
      rwa [Except.ok.inj (decoded.symm.trans again)]
    · exact fun same => ⟨_, decoded, same⟩
  rw [written, spells_iff decoded fits, canonicalStruct, mapError_ok_iff,
    canonicalize_iff_reorders plain shallow short value.ordered fits, writes.iff read]

/-- A peer of a bundle whose data is spelled as it is written. -/
structure PeerSpelled (peer : BundlePeer) : Prop where
  /-- The document. -/
  identity : Spells IdentityForm peer.identityHex
  /-- The lifecycle. -/
  lifecycle : ∀ encoded ∈ peer.lifecycleHex, Spells LifecycleForm encoded
  /-- The advertisement. -/
  advertisement : ∀ encoded ∈ peer.capabilityAdvertisementHex, Spells AdvertisementForm encoded

/-- What is written of a peer is what is embedded. -/
structure PeerRewritten (primitives : Primitives) (peer : BundlePeer) (material : Material) :
    Prop where
  /-- The document. -/
  identity : Rewrites primitives Codecs.identity peer.identityHex material.identity
  /-- The lifecycle. -/
  lifecycle : List.Forall₂ (Rewrites primitives Codecs.lifecycleRecord) peer.lifecycleHex
    material.lifecycle
  /-- The advertisement. -/
  advertisement : Option.Rel (Rewrites primitives Codecs.advertisement)
    peer.capabilityAdvertisementHex material.advertisement

/-- A verified peer is written as it is embedded exactly when it is spelled as it is written. -/
theorem PeerVerified.rewritten_iff {peer : BundlePeer} {material : Material}
    {state : IdentityState} {fingerprint : String}
    (verified : PeerVerified primitives peer material state)
    (importable : Importable primitives material state fingerprint) :
    PeerRewritten primitives peer material ↔ PeerSpelled peer := by
  have parts := rebuilt_of_ok verified.rebuilt
  have fits := importable.fits
  have flat : (Codecs.identity.encode material.identity).nesting ≤ 1 := Nat.le_of_ble_eq_true rfl
  have identity := verified.identity.rewrites_iff writes_identity parts.document
    (flat.trans_lt (by decide)) (by omega)
  have lifecycle : List.Forall₂ (Rewrites primitives Codecs.lifecycleRecord) peer.lifecycleHex
      material.lifecycle ↔ ∀ encoded ∈ peer.lifecycleHex, Spells LifecycleForm encoded := by
    refine forall₂_iff_left verified.lifecycle fun encoded data member embeds => ?_
    have part : writtenSize (Codecs.lifecycleRecord.encode data) ≤
        writtenSize (Codecs.lifecycleRecord.list.encode material.lifecycle) :=
      writtenSize_item (List.mem_map_of_mem member)
    exact embeds.rewrites_iff writes_lifecycleRecord (parts.records data member)
      ((Identity.nesting_lifecycleRecord data).trans_lt (by decide)) (by omega)
  have advertisement : Option.Rel (Rewrites primitives Codecs.advertisement)
      peer.capabilityAdvertisementHex material.advertisement ↔
        ∀ encoded ∈ peer.capabilityAdvertisementHex, Spells AdvertisementForm encoded := by
    have related := verified.advertisement
    have signed := verified.signed
    generalize peer.capabilityAdvertisementHex = encoded at related ⊢
    generalize material.advertisement = offered at related signed fits ⊢
    cases related with
    | none => exact ⟨fun _ _ given => (by cases given), fun _ => .none⟩
    | @some encoded data embeds =>
      have same : writtenSize (Codecs.nullableAdvertisement.encode (some data)) =
          writtenSize (Codecs.advertisement.encode data) := rfl
      have exact_ := embeds.rewrites_iff writes_advertisement
        ((signed data rfl).plain parts.names)
        ((nesting_advertisement data).trans_lt (by decide)) (by omega)
      simp only [Option.rel_some_some, exact_, Option.mem_some_iff, forall_eq']
  constructor
  · intro rewritten
    exact ⟨identity.mp rewritten.identity, lifecycle.mp rewritten.lifecycle,
      advertisement.mp rewritten.advertisement⟩
  · intro spelled
    exact ⟨identity.mpr spelled.identity, lifecycle.mpr spelled.lifecycle,
      advertisement.mpr spelled.advertisement⟩

end QsolFed.Bundle
