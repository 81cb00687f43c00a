import RecordDb.Proofs.Wire.ReadingBack

/-!
# Reading plain data back

Texts, numbers, byte strings, names and lists are read back as they were.
-/
namespace RecordDb

open Codec
open Wire (Doc Reading)
open Wire.Fields

instance : ReadsExactly String where
  ofDoc?_toDoc _ _ _ := rfl
  isWritten_toDoc _ := rfl

instance : NeverNull String := ⟨fun _ => nofun⟩

instance : ReadsExactly Bool where
  ofDoc?_toDoc _ _ _ := rfl
  isWritten_toDoc _ := rfl

instance : NeverNull Bool := ⟨fun _ => nofun⟩

theorem Wire.Doc.inRange?_int {low high i : Int} (h : low ≤ i ∧ i ≤ high) :
    (Doc.int i).inRange? low high = some i := by
  simp [Doc.inRange?, Doc.int?, h]

theorem Wire.Doc.isWritten_int {i : Int} (h : -0x8000000000000000 ≤ i ∧ i < 0x10000000000000000) :
    (Doc.int i).isWritten := by
  simp [isWritten, h]

instance : ReadsExactly Int64 where
  ofDoc?_toDoc r i _ := by
    have hl := i.le_toInt
    have hu := i.toInt_lt
    simp only [toDoc, ofDoc?]
    rw [Doc.inRange?_int (by omega), Option.map_some, Int64.ofInt_toInt, id]
  isWritten_toDoc i := by
    have hl := i.le_toInt
    have hu := i.toInt_lt
    exact Doc.isWritten_int (by omega)

instance : NeverNull Int64 := ⟨fun _ => nofun⟩

instance : ReadsExactly Int32 where
  ofDoc?_toDoc r i _ := by
    have hl := i.le_toInt
    have hu := i.toInt_lt
    simp only [toDoc, ofDoc?]
    rw [Doc.inRange?_int (by omega), Option.map_some, Int32.ofInt_toInt, id]
  isWritten_toDoc i := by
    have hl := i.le_toInt
    have hu := i.toInt_lt
    exact Doc.isWritten_int (by omega)

instance : ReadsExactly UInt32 where
  ofDoc?_toDoc r n _ := by
    have hn := n.toNat_lt
    simp only [toDoc, ofDoc?]
    rw [Doc.inRange?_int (by omega), Option.map_some, Int.toNat_natCast, UInt32.ofNat_toNat, id]
  isWritten_toDoc n := by
    have hn := n.toNat_lt
    exact Doc.isWritten_int (by omega)

instance : NeverNull UInt32 := ⟨fun _ => nofun⟩

instance : ReadsExactly UInt16 where
  ofDoc?_toDoc r n _ := by
    have hn := n.toNat_lt
    simp only [toDoc, ofDoc?]
    rw [Doc.inRange?_int (by omega), Option.map_some, Int.toNat_natCast, UInt16.ofNat_toNat, id]
  isWritten_toDoc n := by
    have hn := n.toNat_lt
    exact Doc.isWritten_int (by omega)

instance : ReadsExactly ByteString where
  ofDoc?_toDoc r _ _ := by cases r <;> rfl
  isWritten_toDoc _ := rfl

instance : NeverNull ByteString := ⟨fun _ => nofun⟩

@[simp] theorem ofField?_byteString (r : Reading) (o : Option (List UInt8)) :
    ofField? r (o.map (toDoc ∘ ByteString.mk)) = some (o.map ByteString.mk) := by
  rw [← Option.map_map, ofField?_toDoc r _ fun _ _ => trivial, Option.map_id, id]

@[simp] theorem ByteString.bytes_comp_mk : ByteString.bytes ∘ ByteString.mk = id := rfl

/-- Finite types whose elements are told apart by their names. -/
class NamesDiffer (α : Type) [Enumeration α] : Prop where
  ofName?_name (a : α) : Enumeration.ofName? (Enumeration.name a) = some a

instance {α : Type} [Enumeration α] [NamesDiffer α] : ReadsExactly α where
  ofDoc?_toDoc r a _ := by
    have hn := NamesDiffer.ofName?_name a
    have hm : Enumeration.name a ∈ (Enumeration.all (α := α)).map Enumeration.name :=
      List.mem_map_of_mem (List.mem_of_find?_eq_some hn)
    simp only [toDoc, ofDoc?, Doc.choice?, Wire.Label.among?_name hm, Option.bind_some, hn, id]
  isWritten_toDoc _ := rfl

instance {α : Type} [Enumeration α] : NeverNull α := ⟨fun _ => nofun⟩

section Lists
variable {α : Type} [Codec α] {P : α → Prop} {f : α → α} [ReadsBack α P f]

theorem mapM_ofDoc?_toDoc (r : Reading) (items : List α) (h : ∀ a ∈ items, P a) :
    (items.map toDoc).mapM (ofDoc? r) = some (items.map f) :=
  Wire.Packed.mapM_map_eq_some fun a ha => ReadsBack.ofDoc?_toDoc r a (h a ha)

instance : ReadsBack (List α) (fun items => ∀ a ∈ items, P a) (List.map f) where
  ofDoc?_toDoc r items h := mapM_ofDoc?_toDoc r items h
  isWritten_toDoc items := Doc.isWrittenItems_map toDoc items ReadsBack.isWritten_toDoc

/-- A list that was left out because it is empty is taken for an empty one. -/
theorem ofFieldOr?_items (r : Reading) (items : List α) (h : ∀ a ∈ items, P a) :
    ofFieldOr? r [] (itemsDoc? items) = some (items.map f) := by
  cases items with
  | nil => rfl
  | cons a rest => exact mapM_ofDoc?_toDoc r (a :: rest) h

end Lists

@[simp] theorem isWrittenFields_ofItems {α : Type} [Codec α] {P : α → Prop} {f : α → α}
    [ReadsBack α P f] (name : String) (items : List α) :
    Doc.isWrittenFields (ofItems name items) := by
  cases items with
  | nil => rfl
  | cons a rest => simp [ofItems]

end RecordDb
