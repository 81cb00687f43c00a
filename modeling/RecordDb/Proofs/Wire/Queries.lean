import RecordDb.Proofs.Wire.Values
import RecordDb.Query
import RecordDb.Query.Index

/-!
# Reading queries back

Filters, calls and query definitions are read back. A mode is a name with a call beside it, and the
lists of a definition are left out when they are empty.
-/
namespace RecordDb

open Codec
open Wire (Doc Reading)
open Wire.Fields

instance : NamesDiffer IndexType := ⟨fun a => by cases a <;> rfl⟩
instance : NamesDiffer Predicate := ⟨fun a => by cases a <;> rfl⟩
instance : NamesDiffer IndexCollection := ⟨fun a => by cases a <;> rfl⟩
instance : NamesDiffer UdfType := ⟨fun a => by cases a; rfl⟩

namespace UdfCall

def asRead (c : UdfCall) : UdfCall := { c with args := c.args.map Value.asRead }

def isOrdered (c : UdfCall) : Bool := c.args.all Value.isOrdered

end UdfCall

instance : ReadsBack UdfCall (fun c => c.isOrdered) UdfCall.asRead where
  ofDoc?_toDoc r c h := by
    have ha : ∀ v ∈ c.args, v.isOrdered := List.all_eq_true.mp h
    change (Doc.fields? r _ (.obj _)).bind _ = _
    rw [Follow.fields?]
    · simp [get?, required?, ReadsBack.ofDoc?_toDoc r c.args ha, UdfCall.asRead]
    · simp
    · decide
  isWritten_toDoc c := by
    change Doc.isWritten (.obj _)
    simp [Doc.isWritten]

namespace Filter

def asRead (f : Filter) : Filter := { f with operand := Value.asReadField f.operand }

def isOrdered (f : Filter) : Bool := f.operand.all Value.isOrdered

end Filter

instance : ReadsBack Filter (fun f => f.isOrdered) Filter.asRead where
  ofDoc?_toDoc r f h := by
    have ho : ∀ v, f.operand = some v → v.isOrdered := by
      simpa [Filter.isOrdered, Option.all_eq_true] using h
    change (Doc.fields? r _ (.obj _)).bind _ = _
    rw [Follow.fields?]
    · simp [get?, required?, ofField?_value r f.operand ho, Filter.asRead]
    · simp
    · decide
  isWritten_toDoc f := by
    change Doc.isWritten (.obj _)
    simp [Doc.isWritten]

namespace QueryMode

def asRead : QueryMode → QueryMode
  | foreach => foreach
  | aggregate call => aggregate call.asRead
  | background call => background call.asRead

def isOrdered : QueryMode → Bool
  | foreach => true
  | aggregate call | background call => call.isOrdered

/-- The name of a mode comes before its content, so the content is read as the whole is. -/
theorem parts?_call (r : Reading) {name : String} (h : name ∈ names) (content : Doc) :
    parts? r (.obj [("mode", .text name), ("udf", content)]) = some (name, some content, r) := by
  have hc : Doc.choice? r names (.text name) = some name := by
    rw [Doc.choice?, Wire.Label.among?_name h]
  rw [parts?, Follow.fields?]
  · simp [get?, hc]
  · simp
  · decide
  · nofun
  · nofun

end QueryMode

instance : ReadsBack QueryMode (fun m => m.isOrdered) QueryMode.asRead where
  ofDoc?_toDoc r m h := by
    cases m with
    | foreach => rfl
    | aggregate call | background call =>
      change (QueryMode.parts? r (.obj [_, ("udf", toDoc call)])).bind _ = _
      rw [QueryMode.parts?_call r (by decide)]
      change (ofDoc? r (toDoc call)).bind _ = _
      rw [ReadsBack.ofDoc?_toDoc r call h]
      rfl
  isWritten_toDoc m := by
    cases m with
    | foreach => rfl
    | aggregate call | background call =>
      change Doc.isWritten (.obj _)
      simp [Doc.isWritten]

namespace QuerySpec

def asRead (s : QuerySpec) : QuerySpec :=
  { s with filters := s.filters.map Filter.asRead, mode := s.mode.asRead }

def isOrdered (s : QuerySpec) : Bool := s.filters.all Filter.isOrdered && s.mode.isOrdered

end QuerySpec

instance : ReadsBack QuerySpec (fun s => s.isOrdered) QuerySpec.asRead where
  ofDoc?_toDoc r s h := by
    rw [QuerySpec.isOrdered, Bool.and_eq_true, List.all_eq_true] at h
    change (Doc.fields? r _ (.obj _)).bind _ = _
    rw [Follow.fields?]
    · simp [get?, h.2, ofFieldOr?_items r s.filters h.1,
        ofFieldOr?_items r s.select fun _ _ => trivial, QuerySpec.asRead]
    · simp
    · decide
  isWritten_toDoc s := by
    change Doc.isWritten (.obj _)
    simp [Doc.isWritten]

instance : ReadsExactly IndexOptions where
  ofDoc?_toDoc r o _ := by
    change (Doc.fields? r _ (.obj _)).bind _ = _
    rw [Follow.fields?]
    · simp [get?, required?]
    · simp
    · decide
  isWritten_toDoc o := by
    change Doc.isWritten (.obj _)
    simp [Doc.isWritten]

end RecordDb
