import RecordDb.Proofs.Wire.Values
import RecordDb.Response

/-!
# Reading records back

Keys, metadata and records are read back with their values as these are read.
-/
namespace RecordDb

open Codec
open Wire (Doc)
open Wire.Fields

instance : ReadsExactly StatusCode where
  ofDoc?_toDoc r c _ := by
    change (ofDoc? r (toDoc c.value)).map StatusCode.mk = _
    simp
  isWritten_toDoc c := ReadsBack.isWritten_toDoc c.value

namespace Key

def asRead (k : Key) : Key := { k with userKey := Value.asReadField k.userKey }

def isOrdered (k : Key) : Bool := k.userKey.all Value.isOrdered

end Key

instance : ReadsBack Key (fun k => k.isOrdered) Key.asRead where
  ofDoc?_toDoc r k h := by
    have hk : ∀ v, k.userKey = some v → v.isOrdered := by
      simpa [Key.isOrdered, Option.all_eq_true] using h
    change (Doc.fields? r _ (.obj _)).bind _ = _
    rw [Follow.fields?]
    · simp [get?, required?, ofField?_value r k.userKey hk, Key.asRead]
    · simp
    · decide
  isWritten_toDoc k := by
    change Doc.isWritten (.obj _)
    simp [Doc.isWritten]

instance : ReadsExactly Metadata where
  ofDoc?_toDoc r m _ := by
    simp only [toDoc, ofDoc?]
    rw [Follow.fields?]
    · simp [get?]
    · simp
    · decide
  isWritten_toDoc m := by simp [toDoc, Doc.isWritten]

instance : NeverNull Metadata := ⟨fun _ => nofun⟩

namespace Record

def asRead (r : Record) : Record := { r with key := r.key.asRead, bins := r.bins.asRead }

def isOrdered (r : Record) : Bool := r.key.isOrdered && r.bins.isOrdered

end Record

instance : ReadsBack Record (fun r => r.isOrdered) Record.asRead where
  ofDoc?_toDoc r a h := by
    rw [Record.isOrdered, Bool.and_eq_true] at h
    change (Doc.fields? r _ (.obj _)).bind _ = _
    rw [Follow.fields?]
    · simp [get?, required?, h, Record.asRead]
    · simp
    · decide
  isWritten_toDoc a := by
    change Doc.isWritten (.obj _)
    simp [Doc.isWritten]

namespace BatchRecord

def asRead (r : BatchRecord) : BatchRecord :=
  { r with key := r.key.asRead, bins := r.bins.map Bins.asRead }

def isOrdered (r : BatchRecord) : Bool := r.key.isOrdered && r.bins.all Bins.isOrdered

end BatchRecord

instance : ReadsBack BatchRecord (fun r => r.isOrdered) BatchRecord.asRead where
  ofDoc?_toDoc r a h := by
    rw [BatchRecord.isOrdered, Bool.and_eq_true] at h
    have hb : ∀ bins, a.bins = some bins → bins.isOrdered := by
      simpa [Option.all_eq_true] using h.2
    change (Doc.fields? r _ (.obj _)).bind _ = _
    rw [Follow.fields?]
    · simp [get?, required?, h.1, ofField?_toDoc r a.bins hb, BatchRecord.asRead]
    · simp
    · decide
  isWritten_toDoc a := by
    change Doc.isWritten (.obj _)
    simp [Doc.isWritten]

instance : ReadsExactly Host where
  ofDoc?_toDoc r h _ := by
    change (Doc.fields? r _ (.obj _)).bind _ = _
    rw [Follow.fields?]
    · simp [get?, required?]
    · simp
    · decide
  isWritten_toDoc h := by
    change Doc.isWritten (.obj _)
    simp [Doc.isWritten]

instance : NeverNull Host := ⟨fun _ => nofun⟩

instance : ReadsExactly InfoResponse where
  ofDoc?_toDoc r a _ := by
    change (Doc.fields? r _ (.obj _)).bind _ = _
    rw [Follow.fields?]
    · simp [get?, required?]
    · simp
    · decide
  isWritten_toDoc a := by
    change Doc.isWritten (.obj _)
    simp [Doc.isWritten]

end RecordDb
