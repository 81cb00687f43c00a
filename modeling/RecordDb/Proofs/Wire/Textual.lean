import RecordDb.Proofs.Json.Documents
import RecordDb.Proofs.Wire.Messages

/-!
# What a text can tell as it is

A blob does not come back from a list of numbers, nor does every float; all other values, and all
that holds only such values, are written with neither.
-/
namespace RecordDb

open Codec
open Wire (Doc)
open Wire.Fields

/-- Types whose elements are written without floats and bytes, as far as they are plain. -/
class Textual (α : Type) [Codec α] (plain : outParam (α → Prop)) : Prop where
  isTextual_toDoc (bytes : Bool) (a : α) : plain a → (toDoc a).isTextual bytes

/-- Types that hold no values. -/
abbrev AlwaysTextual (α : Type) [Codec α] : Prop := Textual α fun _ => True

attribute [simp] Textual.isTextual_toDoc

namespace Wire.Doc
variable (bytes : Bool)

@[simp] theorem isTextualFields_nil : isTextualFields bytes [] := rfl

@[simp] theorem isTextualFields_cons (name : String) (d : Doc) (rest : List (String × Doc)) :
    isTextualFields bytes ((name, d) :: rest)
      = (d.isTextual bytes && isTextualFields bytes rest) := by
  rw [isTextualFields]

@[simp] theorem isTextualFields_append (fs gs : List (String × Doc)) :
    isTextualFields bytes (fs ++ gs) = (isTextualFields bytes fs && isTextualFields bytes gs) := by
  induction fs with
  | nil => simp
  | cons e rest ih => simp [isTextualFields, ih, Bool.and_assoc]

theorem isTextualItems_map {α : Type} (f : α → Doc) (items : List α)
    (h : ∀ a ∈ items, (f a).isTextual bytes) : isTextualItems bytes (items.map f) := by
  induction items with
  | nil => rfl
  | cons a rest ih =>
    obtain ⟨ha, hrest⟩ := List.forall_mem_cons.mp h
    rw [List.map_cons, isTextualItems, ha, ih hrest, Bool.and_self]

end Wire.Doc

section Fields
variable {α : Type} [Codec α] {P : α → Prop} [Textual α P] (bytes : Bool)

@[simp] theorem isTextualFields_ofOption (name : String) (o : Option α)
    (h : ∀ a, o = some a → P a) : Doc.isTextualFields bytes (ofOption name o) := by
  cases o with
  | none => rfl
  | some a => simp [ofOption, Textual.isTextual_toDoc bytes a (h a rfl)]

instance : Textual (List α) fun items => ∀ a ∈ items, P a where
  isTextual_toDoc bytes items h :=
    Doc.isTextualItems_map bytes toDoc items fun a ha => Textual.isTextual_toDoc bytes a (h a ha)

@[simp] theorem isTextualFields_ofItems (name : String) (items : List α)
    (h : ∀ a ∈ items, P a) : Doc.isTextualFields bytes (ofItems name items) := by
  rw [ofItems]
  split
  · rfl
  · simp [Textual.isTextual_toDoc bytes items h]

end Fields

instance : AlwaysTextual String := ⟨fun _ _ _ => rfl⟩
instance : AlwaysTextual Bool := ⟨fun _ _ _ => rfl⟩
instance : AlwaysTextual Int64 := ⟨fun _ _ _ => rfl⟩
instance : AlwaysTextual Int32 := ⟨fun _ _ _ => rfl⟩
instance : AlwaysTextual UInt32 := ⟨fun _ _ _ => rfl⟩
instance : AlwaysTextual UInt16 := ⟨fun _ _ _ => rfl⟩
instance {α : Type} [Enumeration α] : AlwaysTextual α := ⟨fun _ _ _ => rfl⟩
instance : AlwaysTextual StatusCode := ⟨fun _ _ _ => rfl⟩

instance : AlwaysTextual ReadPolicy := ⟨fun _ _ _ => by simp [toDoc, Doc.isTextual]⟩
instance : AlwaysTextual WritePolicy := ⟨fun _ _ _ => by simp [toDoc, Doc.isTextual]⟩
instance : AlwaysTextual RemovePolicy := ⟨fun _ _ _ => by simp [toDoc, Doc.isTextual]⟩
instance : AlwaysTextual OperatePolicy := ⟨fun _ _ _ => by simp [toDoc, Doc.isTextual]⟩
instance : AlwaysTextual ApplyPolicy := ⟨fun _ _ _ => by simp [toDoc, Doc.isTextual]⟩
instance : AlwaysTextual BatchPolicy := ⟨fun _ _ _ => by simp [toDoc, Doc.isTextual]⟩
instance : AlwaysTextual InfoPolicy := ⟨fun _ _ _ => by simp [toDoc, Doc.isTextual]⟩
instance : AlwaysTextual QueryPolicy := ⟨fun _ _ _ => by simp [toDoc, Doc.isTextual]⟩
instance : AlwaysTextual UdfPolicy := ⟨fun _ _ _ => by simp [toDoc, Doc.isTextual]⟩
instance : AlwaysTextual IndexPolicy := ⟨fun _ _ _ => by simp [toDoc, Doc.isTextual]⟩
instance : AlwaysTextual Policies := ⟨fun _ _ _ => by simp [toDoc, Doc.isTextual]⟩
instance : AlwaysTextual MapPolicy := ⟨fun _ _ _ => by simp [toDoc, Doc.isTextual]⟩
instance : AlwaysTextual Metadata := ⟨fun _ _ _ => by simp [toDoc, Doc.isTextual]⟩
instance : AlwaysTextual IndexOptions := ⟨fun _ _ _ => by simp [toDoc, Doc.isTextual]⟩
instance : AlwaysTextual Host := ⟨fun _ _ _ => by simp [toDoc, Doc.isTextual]⟩
instance : AlwaysTextual InfoResponse := ⟨fun _ _ _ => by simp [toDoc, Doc.isTextual]⟩

namespace Value

mutual

/-- Whether no blob and no float is in a value. -/
def isTextual : Value → Bool
  | float _ | blob _ => false
  | list items => itemsTextual items
  | map entries => entriesTextual entries
  | _ => true

def itemsTextual : List Value → Bool
  | [] => true
  | v :: rest => isTextual v && itemsTextual rest

def entriesTextual : List (String × Value) → Bool
  | [] => true
  | (_, v) :: rest => isTextual v && entriesTextual rest

end

mutual

theorem isTextual_toDoc (bytes : Bool) (v : Value) (h : v.isTextual) :
    (toDoc v).isTextual bytes := by
  cases v with
  | list items =>
    rw [toDoc, Doc.isTextual]
    exact isTextualItems_toDocs bytes items h
  | map entries =>
    rw [toDoc, Doc.isTextual]
    exact isTextualFields_toFields bytes entries h
  | float | blob => cases h
  | _ => rfl

theorem isTextualItems_toDocs (bytes : Bool) (items : List Value) (h : itemsTextual items) :
    Doc.isTextualItems bytes (toDocs items) := by
  cases items with
  | nil => rfl
  | cons v rest =>
    rw [itemsTextual, Bool.and_eq_true] at h
    rw [toDocs, Doc.isTextualItems, Bool.and_eq_true]
    exact ⟨isTextual_toDoc bytes v h.1, isTextualItems_toDocs bytes rest h.2⟩

theorem isTextualFields_toFields (bytes : Bool) (entries : List (String × Value))
    (h : entriesTextual entries) : Doc.isTextualFields bytes (toFields entries) := by
  match entries with
  | [] => rfl
  | (k, v) :: rest =>
    rw [entriesTextual, Bool.and_eq_true] at h
    rw [toFields, Doc.isTextualFields, Bool.and_eq_true]
    exact ⟨isTextual_toDoc bytes v h.1, isTextualFields_toFields bytes rest h.2⟩

end

end Value

instance : Textual Value (fun v => v.isTextual) := ⟨Value.isTextual_toDoc⟩

theorem isTextualFields_value {o : Option Value} (h : o.all Value.isTextual) (bytes : Bool)
    (name : String) : Doc.isTextualFields bytes (ofOption name o) := by
  cases o with
  | none => rfl
  | some v => exact isTextualFields_ofOption bytes name (some v) (by simpa using h)

namespace Bins

def isTextual (bins : Bins) : Bool := Value.entriesTextual bins

end Bins

instance : Textual Bins (fun bins => bins.isTextual) := ⟨Value.isTextualFields_toFields⟩

namespace Operation

def isTextual : Operation → Bool
  | scalar op => op.value.all Value.isTextual
  | list op => op.value.all Value.isTextual
  | map op =>
    op.key.all Value.isTextual && op.value.all Value.isTextual && op.start.all Value.isTextual
      && op.stop.all Value.isTextual

end Operation

instance : Textual Operation (fun op => op.isTextual) where
  isTextual_toDoc bytes op h := by
    cases op with
    | scalar op =>
      have hvalue : op.value.all Value.isTextual := h
      simp [toDoc, Doc.isTextual, ScalarOperation.toFields, isTextualFields_value hvalue]
    | list op =>
      have hvalue : op.value.all Value.isTextual := h
      simp [toDoc, Doc.isTextual, ListOperation.toFields, isTextualFields_value hvalue]
    | map op =>
      simp only [Operation.isTextual, Bool.and_eq_true] at h
      obtain ⟨⟨⟨hkey, hvalue⟩, hstart⟩, hstop⟩ := h
      simp [toDoc, Doc.isTextual, MapOperation.toFields, isTextualFields_value hkey,
        isTextualFields_value hvalue, isTextualFields_value hstart, isTextualFields_value hstop]

def UdfCall.isTextual (c : UdfCall) : Bool := c.args.all Value.isTextual

instance : Textual UdfCall (fun c => c.isTextual) where
  isTextual_toDoc bytes c h := by
    have ha : ∀ v ∈ c.args, v.isTextual := List.all_eq_true.mp h
    change Doc.isTextual bytes (.obj _)
    simp [Doc.isTextual, Textual.isTextual_toDoc bytes c.args ha]

def Filter.isTextual (f : Filter) : Bool := f.operand.all Value.isTextual

instance : Textual Filter (fun f => f.isTextual) where
  isTextual_toDoc bytes f h := by
    have hoperand : f.operand.all Value.isTextual := h
    change Doc.isTextual bytes (.obj _)
    simp [Doc.isTextual, isTextualFields_value hoperand]

def QueryMode.isTextual : QueryMode → Bool
  | foreach => true
  | aggregate call | background call => call.isTextual

instance : Textual QueryMode (fun m => m.isTextual) where
  isTextual_toDoc bytes m h := by
    cases m with
    | foreach => rfl
    | aggregate call | background call =>
      change Doc.isTextual bytes (.obj _)
      simp [Doc.isTextual, Textual.isTextual_toDoc bytes call h]

def QuerySpec.isTextual (s : QuerySpec) : Bool := s.filters.all Filter.isTextual && s.mode.isTextual

instance : Textual QuerySpec (fun s => s.isTextual) where
  isTextual_toDoc bytes s h := by
    rw [QuerySpec.isTextual, Bool.and_eq_true, List.all_eq_true] at h
    change Doc.isTextual bytes (.obj _)
    simp [Doc.isTextual, isTextualFields_ofItems bytes "filters" s.filters h.1, h.2]

end RecordDb
