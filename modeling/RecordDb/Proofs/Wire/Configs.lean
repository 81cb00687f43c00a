import RecordDb.Client.Config
import RecordDb.Proofs.Wire.BothForms

/-!
# Reading configurations back

Configurations are read back from their texts as they were. All that they hold is written within a
few lists and maps, so no reader finds them nested too deep.
-/
namespace RecordDb

open Codec
open Wire (Doc Reading)
open Wire.Doc (nestingItems nestingFields)
open Wire.Fields

/-- Types whose documents nest no deeper than a number. -/
class NestsWithin (α : Type) [Codec α] (depth : outParam Nat) : Prop where
  nesting_toDoc_le (a : α) : (toDoc a).nesting ≤ depth

namespace Wire.Doc
variable {depth : Nat}

theorem nesting_obj_le {fields : List (String × Doc)} :
    (Doc.obj fields).nesting ≤ depth + 1 ↔ nestingFields fields ≤ depth :=
  Nat.succ_le_succ_iff

@[simp] theorem nestingFields_nil : nestingFields [] = 0 := rfl

@[simp high] theorem nestingFields_cons_le {name : String} {d : Doc} {rest : List (String × Doc)} :
    nestingFields ((name, d) :: rest) ≤ depth ↔ d.nesting ≤ depth ∧ nestingFields rest ≤ depth :=
  Nat.max_le

@[simp high] theorem nestingFields_append_le {fs gs : List (String × Doc)} :
    nestingFields (fs ++ gs) ≤ depth ↔ nestingFields fs ≤ depth ∧ nestingFields gs ≤ depth := by
  induction fs with
  | nil => simp
  | cons e rest ih =>
    obtain ⟨name, d⟩ := e
    simp [ih, and_assoc]

theorem nestingItems_map_le {α : Type} {f : α → Doc} (h : ∀ a, (f a).nesting ≤ depth)
    (items : List α) : nestingItems (items.map f) ≤ depth := by
  induction items with
  | nil => exact Nat.zero_le depth
  | cons a rest ih => exact Nat.max_le.mpr ⟨h a, ih⟩

end Wire.Doc

section Nesting
variable {α : Type} [Codec α] {depth bound : Nat} [NestsWithin α depth]

@[simp high] theorem nesting_toDoc_le (h : depth ≤ bound) (a : α) : (toDoc a).nesting ≤ bound :=
  (NestsWithin.nesting_toDoc_le a).trans h

@[simp high] theorem nestingFields_ofOption_le (h : depth ≤ bound) (name : String) (o : Option α) :
    nestingFields (ofOption name o) ≤ bound := by
  cases o with
  | none => exact Nat.zero_le bound
  | some a => simp [ofOption, nesting_toDoc_le h a]

instance : NestsWithin (List α) (depth + 1) where
  nesting_toDoc_le items :=
    Nat.succ_le_succ (Doc.nestingItems_map_le NestsWithin.nesting_toDoc_le items)

end Nesting

instance : NestsWithin String 0 := ⟨fun _ => Nat.le_refl 0⟩
instance : NestsWithin Bool 0 := ⟨fun _ => Nat.le_refl 0⟩
instance : NestsWithin Int32 0 := ⟨fun _ => Nat.le_refl 0⟩
instance : NestsWithin UInt32 0 := ⟨fun _ => Nat.le_refl 0⟩
instance : NestsWithin UInt16 0 := ⟨fun _ => Nat.le_refl 0⟩
instance {α : Type} [Enumeration α] : NestsWithin α 0 := ⟨fun _ => Nat.le_refl 0⟩

instance : NestsWithin ReadPolicy 1 := ⟨fun _ => Doc.nesting_obj_le.mpr (by simp)⟩
instance : NestsWithin WritePolicy 1 := ⟨fun _ => Doc.nesting_obj_le.mpr (by simp)⟩
instance : NestsWithin RemovePolicy 1 := ⟨fun _ => Doc.nesting_obj_le.mpr (by simp)⟩
instance : NestsWithin OperatePolicy 1 := ⟨fun _ => Doc.nesting_obj_le.mpr (by simp)⟩
instance : NestsWithin ApplyPolicy 1 := ⟨fun _ => Doc.nesting_obj_le.mpr (by simp)⟩
instance : NestsWithin BatchPolicy 1 := ⟨fun _ => Doc.nesting_obj_le.mpr (by simp)⟩
instance : NestsWithin InfoPolicy 1 := ⟨fun _ => Doc.nesting_obj_le.mpr (by simp)⟩
instance : NestsWithin QueryPolicy 1 := ⟨fun _ => Doc.nesting_obj_le.mpr (by simp)⟩
instance : NestsWithin Policies 2 := ⟨fun _ => Doc.nesting_obj_le.mpr (by simp)⟩
instance : NestsWithin Host 1 := ⟨fun _ => Doc.nesting_obj_le.mpr (by simp)⟩
instance : NestsWithin LogConfig 1 := ⟨fun _ => Doc.nesting_obj_le.mpr (by simp)⟩
instance : NestsWithin SharedMemoryConfig 1 := ⟨fun _ => Doc.nesting_obj_le.mpr (by simp)⟩
instance : NestsWithin Config 3 := ⟨fun _ => Doc.nesting_obj_le.mpr (by simp)⟩

instance : NamesDiffer LogLevel := ⟨fun a => by cases a <;> rfl⟩

instance : NeverNull Int32 := ⟨fun _ => nofun⟩

instance : ReadsExactly LogConfig where
  ofDoc?_toDoc r c _ := by
    simp only [toDoc, ofDoc?]
    rw [Follow.fields?]
    · simp [get?]
    · repeat apply follow_ofOption_append
      simp
    · decide
  isWritten_toDoc c := by simp [toDoc, Doc.isWritten]

instance : NeverNull LogConfig := ⟨fun _ => nofun⟩

instance : AlwaysTextual LogConfig := ⟨fun _ _ _ => by simp [toDoc, Doc.isTextual]⟩

instance : ReadsExactly SharedMemoryConfig where
  ofDoc?_toDoc r c _ := by
    simp only [toDoc, ofDoc?, List.append_assoc]
    rw [Follow.fields?]
    · simp [get?]
    · repeat apply follow_ofOption_append
      simp
    · decide
  isWritten_toDoc c := by simp [toDoc, Doc.isWritten]

instance : NeverNull SharedMemoryConfig := ⟨fun _ => nofun⟩

instance : AlwaysTextual SharedMemoryConfig := ⟨fun _ _ _ => by simp [toDoc, Doc.isTextual]⟩

namespace Config

/-- A list of hosts is tried as one before it is taken for a text. -/
theorem hosts?_toDoc (r : Reading) (hosts : List Host) : hosts? r (toDoc hosts) = some hosts := by
  have hw : (toDoc hosts).isWritten := ReadsBack.isWritten_toDoc hosts
  have hread : ofDoc? .held (toDoc hosts) = some hosts := by simp
  simp only [hosts?, Doc.holdable, Doc.storable_of_isWritten _ hw, hread, Bool.or_true,
    Bool.not_true, Bool.false_eq_true, if_false]

end Config

instance : ReadsExactly Config where
  ofDoc?_toDoc r c _ := by
    change (Doc.fields? r _ (.obj _)).bind _ = _
    simp only [List.append_assoc, List.cons_append, List.nil_append]
    rw [Follow.fields?]
    · simp [get?, Config.hostsField?, Config.hosts?_toDoc]
    · repeat apply follow_ofOption_append
      rw [follow_cons, follow_cons]
      repeat apply follow_ofOption_append
      simp
    · decide
  isWritten_toDoc c := by
    change Doc.isWritten (.obj _)
    simp [Doc.isWritten]

instance : AlwaysTextual Config where
  isTextual_toDoc bytes c _ := by
    change Doc.isTextual bytes (.obj _)
    simp [Doc.isTextual]

namespace Config
variable (env : Option String)

theorem defaultHosts_ne_nil : defaultHosts env ≠ [] := by
  rw [defaultHosts]
  split
  · exact List.cons_ne_nil _ _
  · assumption

theorem hosts_withDefaultHosts_ne_nil (c : Config) : (c.withDefaultHosts env).hosts ≠ [] := by
  rw [withDefaultHosts]
  by_cases h : c.hosts.isEmpty
  · rw [if_pos h]
    exact defaultHosts_ne_nil env
  · rw [if_neg h]
    exact fun hnil => h (List.isEmpty_iff.mpr hnil)

theorem withDefaultHosts_of_ne_nil {c : Config} (h : c.hosts ≠ []) : c.withDefaultHosts env = c :=
  if_neg fun hempty => h (List.isEmpty_iff.mp hempty)

/-- The text of a configuration with hosts is read as that configuration, whatever the hosts of the
environment are. There are hosts in every configuration that is new or read from a text. -/
theorem survives_own_text :
    (∀ c : Config, c.hosts ≠ [] → ofText env (toJson c) = .ok c) ∧ (new env).hosts ≠ [] ∧
    ∀ text c, ofText env text = .ok c → c.hosts ≠ [] := by
  refine ⟨?_, hosts_withDefaultHosts_ne_nil env bare, ?_⟩
  · intro c h
    have hnesting : (toDoc c).listed.nesting ≤ Wire.Json.depthLimit := by
      rw [listed_toDoc c trivial]
      exact nesting_toDoc_le (by decide) c
    have hread : ofJson? (toJson c) = some c := ofJson?_toJson c ⟨trivial, trivial⟩ hnesting
    simp only [ofText, hread, withDefaultHosts_of_ne_nil env h]
  · intro text c h
    cases hread : (ofJson? text : Option Config) with
    | none => simp [ofText, hread] at h
    | some read =>
      simp only [ofText, hread, Except.ok.injEq] at h
      exact h ▸ hosts_withDefaultHosts_ne_nil env read

/-- A cluster with a host name that a host list would take apart. -/
def cluster : Config :=
  { bare with
    user := some "a\"b\\", password := some "\t\x01é😀", hosts := [⟨"::1, x", 0⟩, ⟨"", 65535⟩]
    policies := { Policies.empty with
      write := some ⟨some 0, some .send, none, some .createOrReplace, none, some .once⟩
      info := some ⟨none, some false, none⟩ }
    log := some ⟨some .off, some (-1)⟩, connTimeoutMs := some 0xffffffff
    sharedMemory := some ⟨some Int32.minValue, none, some 0, none⟩ }

theorem survives_own_text_cluster :
    cluster.hosts ≠ [] ∧ ofText (some "10.0.0.1:3100") (toJson cluster) = .ok cluster ∧
    ∃ text, ofText (some "10.0.0.1:3100") text = .ok cluster ∧ cluster.hosts ≠ [] := by
  obtain ⟨hsurvives, -, hhosts⟩ := survives_own_text (some "10.0.0.1:3100")
  have h : cluster.hosts ≠ [] := List.cons_ne_nil _ _
  have hread := hsurvives cluster h
  exact ⟨h, hread, toJson cluster, hread, hhosts _ _ hread⟩

end Config

end RecordDb
