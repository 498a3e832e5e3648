import QsolFed.Transport.Relay

/-!
# Records with their own identity

A record whose identity digests its other fields. When those fields are plain, shallow and short,
the identity exists, whatever it was before, and records with one identity are the same as long as
no two digests collide.
-/
namespace QsolFed.Transport

open Checked Json Canonical

variable {α : Type} {primitives : Primitives}

/-- The members of a record that an identity in one of its fields covers. -/
def coveredBy (fields : Fields α) (field : String) (value : α) : List (String × Value String) :=
  (fields.encode value).filter fun member => member.1 ≠ field

/-- The members of a record that an identity in one of its fields does not cover. -/
def uncoveredBy (fields : Fields α) (field : String) (value : α) : List (String × Value String) :=
  (fields.encode value).filter fun member => !decide (member.1 ≠ field)

/-- What the identity of a record covers is plain, shallow and short. -/
structure Identifiable (fields : Fields α) (field : String) (value : α) : Prop where
  /-- It is small data. -/
  small : Small maxInputBytes (.object (coveredBy fields field value))
  /-- It does not nest deeply. -/
  shallow : (Value.object (coveredBy fields field value)).nesting < maxDepth

/-- The identity of a record digests these bytes. -/
def Digests (primitives : Primitives) (fields : Fields α) (field : String) (value : α)
    (input : ByteArray) : Prop :=
  canonicalize primitives.unicode (writtenBytes (.object (coveredBy fields field value))) = .ok input

/-- An identity is the reference to the bytes that it digests. -/
theorem identity_ok_iff (fields : Fields α) (field : String) (value : α) (identity : String) :
    canonicalIdWithoutField primitives (.object (fields.encode value)) field = .ok identity ↔
      ∃ input, Digests primitives fields field value input ∧
        Digest.sha256Ref primitives input = identity := by
  change canonicalId primitives (.object (coveredBy fields field value)) = _ ↔ _
  simp only [canonicalId, bind_ok_iff, mapError_ok_iff, pure_ok_iff, Digests]

variable {fields : Fields α} {field : String} {value : α}

/-- The bytes that an identity digests exist, and they are read as what it covers up to order. -/
theorem Identifiable.digests (identifiable : Identifiable fields field value)
    (primitives : Primitives) : ∃ node : Node,
      Digests primitives fields field value (writtenBytes node.toJson) ∧
      Reorders (.object (coveredBy fields field value)) node.toJson ∧
      parseNode primitives.unicode (writtenBytes node.toJson) = .ok node := by
  obtain ⟨node, -, accepted, same, -, -, -, parsed⟩ := canonicalize_plain primitives.unicode
    identifiable.small.1 identifiable.shallow identifiable.small.2
  exact ⟨node, accepted, same, parsed⟩

/-- The identity of a record is a reference. -/
theorem Identifiable.identity (identifiable : Identifiable fields field value)
    (primitives : Primitives) : ∃ identity,
      canonicalIdWithoutField primitives (.object (fields.encode value)) field = .ok identity ∧
      Wire.isSha256Ref identity = true := by
  obtain ⟨node, digests, -⟩ := identifiable.digests primitives
  exact ⟨_, (identity_ok_iff ..).mpr ⟨_, digests, rfl⟩, isSha256Ref_digest _ _⟩

/-- Records that digest the same bytes and agree on what is not covered are the same. -/
theorem Identifiable.unique {one two : α} (distinct : fields.names.Nodup)
    (first : Identifiable fields field one) (second : Identifiable fields field two)
    {input : ByteArray} (left : Digests primitives fields field one input)
    (right : Digests primitives fields field two input)
    (same : uncoveredBy fields field one = uncoveredBy fields field two) : one = two := by
  obtain ⟨node, digests, reorders, parsed⟩ := first.digests primitives
  obtain ⟨other, again, likewise, parsedAgain⟩ := second.digests primitives
  have bytes : writtenBytes node.toJson = writtenBytes other.toJson := by
    rw [Digests] at left right digests again
    rw [left] at digests
    rw [right] at again
    rw [← Except.ok.inj digests, ← Except.ok.inj again]
  rw [bytes, parsedAgain] at parsed
  have nodes : node = other := (Except.ok.inj parsed).symm
  rw [nodes] at reorders
  exact @Fields.agree _ fields distinct _ _ (fun name => decide (name ≠ field)) _ reorders likewise
    same

end QsolFed.Transport
