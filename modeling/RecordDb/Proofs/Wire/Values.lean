import RecordDb.Proofs.Dict.Ascending
import RecordDb.Proofs.Wire.Plain
import RecordDb.Value.Codec

/-!
# Reading values back

Values are read back up to what documents do not tell: a geographic text comes back as a text, and a
nil in a field that may be absent as no value. Dictionaries have to ascend.
-/
namespace RecordDb

open Codec
open Wire (Doc Reading)
open Wire.Fields

namespace Value

mutual

/-- The value with every geographic text taken for a text. -/
def asRead : Value → Value
  | list items => list (asReadItems items)
  | map entries => map (asReadEntries entries)
  | geo text => string text
  | v => v

def asReadItems : List Value → List Value
  | [] => []
  | v :: rest => asRead v :: asReadItems rest

def asReadEntries : List (String × Value) → List (String × Value)
  | [] => []
  | (k, v) :: rest => (k, asRead v) :: asReadEntries rest

end

/-- A nil does not differ from a field that was left out. -/
def asReadField (field : Option Value) : Option Value :=
  (field.filter fun v => !v.isNil).map asRead

mutual

/-- Maps ascend by name, at every depth. -/
def isOrdered : Value → Bool
  | list items => itemsOrdered items
  | map entries => decide (Dict.Ascending entries) && entriesOrdered entries
  | _ => true

def itemsOrdered : List Value → Bool
  | [] => true
  | v :: rest => isOrdered v && itemsOrdered rest

def entriesOrdered : List (String × Value) → Bool
  | [] => true
  | (_, v) :: rest => isOrdered v && entriesOrdered rest

end

theorem asReadEntries_eq_map (entries : List (String × Value)) :
    asReadEntries entries = entries.map fun e => (e.1, e.2.asRead) := by
  induction entries with
  | nil => rfl
  | cons e rest ih => rw [asReadEntries, ih, List.map_cons]

theorem ascending_asReadEntries {entries : Dict String Value} (h : Dict.Ascending entries) :
    Dict.Ascending (asReadEntries entries) := by
  rw [asReadEntries_eq_map]
  exact List.pairwise_map.mpr h

theorem ofInt?_toInt (i : Int64) : ofInt? i.toInt = some (int i) := by
  have hl := i.le_toInt
  have hu := i.toInt_lt
  rw [ofInt?, if_pos ⟨by omega, by omega⟩, Int64.ofInt_toInt]

mutual

theorem ofDoc?_toDoc (r : Reading) (v : Value) (h : v.isOrdered) :
    ofDoc? r (toDoc v) = some v.asRead := by
  cases v with
  | int i =>
    rw [toDoc, ofDoc?, ofInt?_toInt]
    rfl
  | list items =>
    rw [isOrdered] at h
    rw [toDoc, ofDoc?, ofDocs?_toDocs r items h, Option.map_some, asRead]
  | map entries =>
    rw [isOrdered, Bool.and_eq_true, decide_eq_true_eq] at h
    rw [toDoc, ofDoc?, ofFields?_toFields r entries h.2, Option.map_some, asRead,
      Dict.ofList_of_ascending (ascending_asReadEntries h.1)]
  | _ => rfl

theorem ofDocs?_toDocs (r : Reading) (items : List Value) (h : itemsOrdered items) :
    ofDocs? r (toDocs items) = some (asReadItems items) := by
  cases items with
  | nil => rfl
  | cons v rest =>
    rw [itemsOrdered, Bool.and_eq_true] at h
    simp only [toDocs, ofDocs?, asReadItems, ofDoc?_toDoc r v h.1, ofDocs?_toDocs r rest h.2]

theorem ofFields?_toFields (r : Reading) (entries : List (String × Value))
    (h : entriesOrdered entries) :
    ofFields? r (toFields entries) = some (asReadEntries entries) := by
  match entries with
  | [] => rfl
  | (k, v) :: rest =>
    rw [entriesOrdered, Bool.and_eq_true] at h
    simp only [toFields, ofFields?, asReadEntries, ofDoc?_toDoc r v h.1,
      ofFields?_toFields r rest h.2]

end

mutual

theorem isWritten_toDoc (v : Value) : (toDoc v).isWritten := by
  cases v with
  | int i =>
    have hl := i.le_toInt
    have hu := i.toInt_lt
    exact Doc.isWritten_int (by omega)
  | list items =>
    rw [toDoc, Doc.isWritten]
    exact isWrittenItems_toDocs items
  | map entries =>
    rw [toDoc, Doc.isWritten]
    exact isWrittenFields_toFields entries
  | _ => rfl

theorem isWrittenItems_toDocs (items : List Value) : Doc.isWrittenItems (toDocs items) := by
  cases items with
  | nil => rfl
  | cons v rest =>
    rw [toDocs, Doc.isWrittenItems, Bool.and_eq_true]
    exact ⟨isWritten_toDoc v, isWrittenItems_toDocs rest⟩

theorem isWrittenFields_toFields (entries : List (String × Value)) :
    Doc.isWrittenFields (toFields entries) := by
  match entries with
  | [] => rfl
  | (k, v) :: rest =>
    rw [toFields, Doc.isWrittenFields, Bool.and_eq_true]
    exact ⟨isWritten_toDoc v, isWrittenFields_toFields rest⟩

end

end Value

instance : ReadsBack Value (fun v => v.isOrdered) Value.asRead where
  ofDoc?_toDoc := Value.ofDoc?_toDoc
  isWritten_toDoc := Value.isWritten_toDoc

/-- An optional value is read as no value when it is a nil. -/
@[simp] theorem ofField?_value (r : Reading) (o : Option Value)
    (h : ∀ v, o = some v → v.isOrdered) :
    ofField? r (o.map toDoc) = some (Value.asReadField o) := by
  cases o with
  | none => rfl
  | some v =>
    cases hv : v.isNil with
    | true =>
      cases v with
      | nil => rfl
      | _ => cases hv
    | false =>
      have hn : toDoc v ≠ .null := by
        cases v with
        | nil => cases hv
        | _ => nofun
      rw [Option.map_some, ofField?_of_ne_null r hn, ReadsBack.ofDoc?_toDoc r v (h v rfl),
        Value.asReadField, Option.filter_some_pos (by simpa using hv)]
      rfl

namespace Bins

def asRead (bins : Bins) : Bins := Value.asReadEntries bins

def isOrdered (bins : Bins) : Bool := decide (Dict.Ascending bins) && Value.entriesOrdered bins

end Bins

instance : ReadsBack Bins (fun bins => bins.isOrdered) Bins.asRead where
  ofDoc?_toDoc r bins h := by
    rw [Bins.isOrdered, Bool.and_eq_true, decide_eq_true_eq] at h
    simp only [toDoc, ofDoc?]
    rw [Value.ofFields?_toFields r bins h.2, Option.map_some,
      Dict.ofList_of_ascending (Value.ascending_asReadEntries h.1), Bins.asRead]
  isWritten_toDoc := Value.isWrittenFields_toFields

instance : NeverNull Bins := ⟨fun _ => nofun⟩

end RecordDb
