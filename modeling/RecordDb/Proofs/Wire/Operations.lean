import RecordDb.Operation
import RecordDb.Proofs.Wire.Values

/-!
# Reading operations back

Operations of the three families are read back, each behind the name of its family.
-/
namespace RecordDb

open Codec
open Wire (Doc Reading)
open Wire.Fields

instance : NamesDiffer ScalarKind := ⟨fun a => by cases a <;> rfl⟩
instance : NamesDiffer ListKind := ⟨fun a => by cases a <;> rfl⟩
instance : NamesDiffer MapKind := ⟨fun a => by cases a <;> rfl⟩
instance : NamesDiffer ReturnType := ⟨fun a => by cases a <;> rfl⟩
instance : NamesDiffer MapOrder := ⟨fun a => by cases a <;> rfl⟩
instance : NamesDiffer WriteMode := ⟨fun a => by cases a <;> rfl⟩

instance : ReadsExactly MapPolicy where
  ofDoc?_toDoc r p _ := by
    simp only [toDoc, ofDoc?]
    rw [Follow.fields?]
    · simp [get?]
    · simp
    · decide
  isWritten_toDoc p := by simp [toDoc, Doc.isWritten]

instance : NeverNull MapPolicy := ⟨fun _ => nofun⟩

namespace ScalarOperation

def asRead (op : ScalarOperation) : ScalarOperation :=
  { op with value := Value.asReadField op.value }

def isOrdered (op : ScalarOperation) : Bool := op.value.all Value.isOrdered

theorem follow_toFields (op : ScalarOperation) : Follow op.toFields fieldNames := by
  simp [toFields, fieldNames]

theorem isWrittenFields_toFields (op : ScalarOperation) : Doc.isWrittenFields op.toFields := by
  simp [toFields]

theorem ofFields?_toFields (op : ScalarOperation) (h : op.isOrdered) (r : Reading) (family : Doc) :
    ofFields? ⟨r, ("family", family) :: op.toFields⟩ = some op.asRead := by
  have hv : ∀ v, op.value = some v → v.isOrdered := by
    simpa [isOrdered, Option.all_eq_true] using h
  simp [ofFields?, toFields, get?, required?, ofField?_value r op.value hv, asRead]

end ScalarOperation

namespace ListOperation

def asRead (op : ListOperation) : ListOperation := { op with value := Value.asReadField op.value }

def isOrdered (op : ListOperation) : Bool := op.value.all Value.isOrdered

theorem follow_toFields (op : ListOperation) : Follow op.toFields fieldNames := by
  simp [toFields, fieldNames]

theorem isWrittenFields_toFields (op : ListOperation) : Doc.isWrittenFields op.toFields := by
  simp [toFields]

theorem ofFields?_toFields (op : ListOperation) (h : op.isOrdered) (r : Reading) (family : Doc) :
    ofFields? ⟨r, ("family", family) :: op.toFields⟩ = some op.asRead := by
  have hv : ∀ v, op.value = some v → v.isOrdered := by
    simpa [isOrdered, Option.all_eq_true] using h
  simp [ofFields?, toFields, get?, required?, ofField?_value r op.value hv, asRead]

end ListOperation

namespace MapOperation

def asRead (op : MapOperation) : MapOperation :=
  { op with
    key := Value.asReadField op.key
    value := Value.asReadField op.value
    start := Value.asReadField op.start
    stop := Value.asReadField op.stop }

def isOrdered (op : MapOperation) : Bool :=
  op.key.all Value.isOrdered && op.value.all Value.isOrdered && op.start.all Value.isOrdered
    && op.stop.all Value.isOrdered

theorem follow_toFields (op : MapOperation) : Follow op.toFields fieldNames := by
  simp only [toFields, fieldNames, List.append_assoc, List.cons_append, List.nil_append,
    follow_cons]
  repeat apply follow_ofOption_append
  simp

theorem isWrittenFields_toFields (op : MapOperation) : Doc.isWrittenFields op.toFields := by
  simp [toFields]

theorem ofFields?_toFields (op : MapOperation) (h : op.isOrdered) (r : Reading) (family : Doc) :
    ofFields? ⟨r, ("family", family) :: op.toFields⟩ = some op.asRead := by
  simp only [isOrdered, Bool.and_eq_true, Option.all_eq_true] at h
  obtain ⟨⟨⟨hkey, hvalue⟩, hstart⟩, hstop⟩ := h
  simp [ofFields?, toFields, get?, required?, ofField?_value r op.key hkey,
    ofField?_value r op.value hvalue, ofField?_value r op.start hstart,
    ofField?_value r op.stop hstop, asRead]

end MapOperation

namespace Operation

def asRead : Operation → Operation
  | scalar op => scalar op.asRead
  | list op => list op.asRead
  | map op => map op.asRead

def isOrdered : Operation → Bool
  | scalar op => op.isOrdered
  | list op => op.isOrdered
  | map op => op.isOrdered

end Operation

instance : ReadsBack Operation (fun op => op.isOrdered) Operation.asRead where
  ofDoc?_toDoc r op h := by
    cases op with
    | scalar op | list op | map op =>
      simp only [toDoc, ofDoc?]
      rw [op.follow_toFields.tagged? r (by decide) (by decide) op.isWrittenFields_toFields]
      simp only [Option.bind_eq_bind, Option.bind_some]
      rw [op.follow_toFields.fields?_cons (by decide) .held (by decide), Option.bind_some,
        op.ofFields?_toFields h]
      rfl
  isWritten_toDoc op := by
    cases op with
    | scalar op | list op | map op =>
      simp [toDoc, Doc.isWritten, op.isWrittenFields_toFields]

end RecordDb
