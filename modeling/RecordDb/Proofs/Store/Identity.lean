import RecordDb.Proofs.Store.Runs
import RecordDb.Proofs.Wire.Telling

/-!
# When keys are filed under one id

A set and a user key are told apart from every other such pair by their packed form, up to whether
texts are geographic. A digest is filed as it is, so one that happens to be such a packed form is
filed under the same id as the user key.
-/
namespace RecordDb

open Codec
open Wire (Doc)

namespace Key

/-- What a user key is identified by, before it is packed. -/
def document (set : String) (userKey : Value) : Doc := .arr [.text set, toDoc userKey]

/-- No part of what is packed of the key is too long for its length to be written. -/
def isShort (k : Key) : Bool := k.userKey.all fun v => (document k.set v).isShort

/-- The part of an identity that is not the namespace agrees. The last two cases are the ones
of a digest that is the packed form of a set and a user key. -/
def Meets (a b : Key) : Prop :=
  match a.userKey, b.userKey with
  | some u, some v => a.set = b.set ∧ u.asRead = v.asRead
  | none, none => a.digest = b.digest
  | some u, none => b.digest = some (Wire.Packed.encode (document a.set u))
  | none, some v => a.digest = some (Wire.Packed.encode (document b.set v))

theorem document_eq_iff (set set' : String) (u v : Value) :
    document set u = document set' v ↔ set = set' ∧ u.asRead = v.asRead := by
  simp only [document, Doc.arr.injEq, List.cons.injEq, Doc.text.injEq, and_true]
  exact and_congr_right fun _ => Value.toDoc_eq_iff u v

theorem isWritten_document (set : String) (u : Value) : (document set u).isWritten := by
  simp [document, Doc.isWritten, Doc.isWrittenItems]

/-- Packing loses nothing of a set and a user key. -/
theorem encode_document_eq_iff {set set' : String} {u v : Value} (hs : (document set u).isShort)
    (hs' : (document set' v).isShort) :
    Wire.Packed.encode (document set u) = Wire.Packed.encode (document set' v) ↔
      set = set' ∧ u.asRead = v.asRead := by
  rw [← document_eq_iff]
  constructor
  · exact Wire.Packed.eq_of_encode_eq (isWritten_document set u) (isWritten_document set' v) hs hs'
  · exact congrArg Wire.Packed.encode

end Key

/-- Keys that can be filed are filed under one id if they meet in a namespace, and in no other
case. -/
theorem same_id_iff_meets (a b : Key) (i j : RecordId) (ha : a.isShort) (hb : b.isShort)
    (hi : RecordId.ofKey a = .ok i) (hj : RecordId.ofKey b = .ok j) :
    i = j ↔ a.ns = b.ns ∧ a.Meets b := by
  obtain ⟨ns, set, userKey, digest⟩ := a
  obtain ⟨ns', set', userKey', digest'⟩ := b
  cases userKey with
  | some u =>
    cases hi
    cases userKey' with
    | some v =>
      cases hj
      rw [RecordId.mk.injEq]
      exact and_congr_right fun _ => Key.encode_document_eq_iff ha hb
    | none =>
      cases digest' with
      | none => cases hj
      | some d =>
        cases hj
        simp [Key.Meets, Key.document, eq_comm]
  | none =>
    cases digest with
    | none => cases hi
    | some d =>
      cases hi
      cases userKey' with
      | some v =>
        cases hj
        simp [Key.Meets, Key.document]
      | none =>
        cases digest' with
        | none => cases hj
        | some d' =>
          cases hj
          simp [Key.Meets]

namespace Store

def demoKey (user : Value) : Key := ⟨"test", "demo", some user, none⟩

/-- The digest is the set and the user key 1, packed. -/
def demoDigest : Key := ⟨"test", "demo", none, some [0x92, 0xa4, 0x64, 0x65, 0x6d, 0x6f, 0x01]⟩

end Store

open Store

/-- The key with the digest counts as another record, but it is filed under the same id; the
user key 2 is not. -/
theorem same_id_iff_meets_digest :
    ∃ id, RecordId.ofKey demoDigest = .ok id ∧ RecordId.ofKey (demoKey (.int 1)) = .ok id ∧
      RecordId.ofKey (demoKey (.int 2)) ≠ .ok id ∧
      (demoKey (.int 1)).sameRecord demoDigest = false := by
  refine ⟨_, rfl, ?_, fun h => ?_, rfl⟩
  · exact congrArg Except.ok ((same_id_iff_meets (demoKey (.int 1)) demoDigest _ _ (by decide)
      rfl rfl rfl).mpr ⟨rfl, rfl⟩)
  · have hm := (same_id_iff_meets (demoKey (.int 2)) demoDigest _ _ (by decide) rfl h rfl).mp rfl
    exact absurd (Option.some.inj hm.2) (by decide)

end RecordDb
