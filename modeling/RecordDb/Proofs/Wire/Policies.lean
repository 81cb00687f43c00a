import RecordDb.Policy
import RecordDb.Proofs.Wire.Plain

/-!
# Reading policies back

Policies are read back as they were, with the same fields set.
-/
namespace RecordDb

open Codec
open Wire (Doc)
open Wire.Fields

instance : NamesDiffer KeyPolicy := ⟨fun a => by cases a <;> rfl⟩
instance : NamesDiffer RetryPolicy := ⟨fun a => by cases a <;> rfl⟩
instance : NamesDiffer GenerationPolicy := ⟨fun a => by cases a <;> rfl⟩
instance : NamesDiffer ExistsPolicy := ⟨fun a => by cases a <;> rfl⟩
instance : NamesDiffer ReplicaPolicy := ⟨fun a => by cases a <;> rfl⟩
instance : NamesDiffer ConsistencyLevel := ⟨fun a => by cases a <;> rfl⟩
instance : NamesDiffer CommitLevel := ⟨fun a => by cases a <;> rfl⟩

instance : ReadsExactly ReadPolicy where
  ofDoc?_toDoc r p _ := by
    simp only [toDoc, ofDoc?, List.append_assoc]
    rw [Follow.fields?]
    · simp [get?]
    · repeat apply follow_ofOption_append
      simp
    · decide
  isWritten_toDoc p := by simp [toDoc, Doc.isWritten]

instance : NeverNull ReadPolicy := ⟨fun _ => nofun⟩

instance : ReadsExactly WritePolicy where
  ofDoc?_toDoc r p _ := by
    simp only [toDoc, ofDoc?, List.append_assoc]
    rw [Follow.fields?]
    · simp [get?]
    · repeat apply follow_ofOption_append
      simp
    · decide
  isWritten_toDoc p := by simp [toDoc, Doc.isWritten]

instance : NeverNull WritePolicy := ⟨fun _ => nofun⟩

instance : ReadsExactly RemovePolicy where
  ofDoc?_toDoc r p _ := by
    simp only [toDoc, ofDoc?, List.append_assoc]
    rw [Follow.fields?]
    · simp [get?]
    · repeat apply follow_ofOption_append
      simp
    · decide
  isWritten_toDoc p := by simp [toDoc, Doc.isWritten]

instance : NeverNull RemovePolicy := ⟨fun _ => nofun⟩

instance : ReadsExactly OperatePolicy where
  ofDoc?_toDoc r p _ := by
    simp only [toDoc, ofDoc?, List.append_assoc]
    rw [Follow.fields?]
    · simp [get?]
    · repeat apply follow_ofOption_append
      simp
    · decide
  isWritten_toDoc p := by simp [toDoc, Doc.isWritten]

instance : NeverNull OperatePolicy := ⟨fun _ => nofun⟩

instance : ReadsExactly ApplyPolicy where
  ofDoc?_toDoc r p _ := by
    simp only [toDoc, ofDoc?, List.append_assoc]
    rw [Follow.fields?]
    · simp [get?]
    · repeat apply follow_ofOption_append
      simp
    · decide
  isWritten_toDoc p := by simp [toDoc, Doc.isWritten]

instance : NeverNull ApplyPolicy := ⟨fun _ => nofun⟩

instance : ReadsExactly BatchPolicy where
  ofDoc?_toDoc r p _ := by
    simp only [toDoc, ofDoc?]
    rw [Follow.fields?]
    · simp [get?]
    · repeat apply follow_ofOption_append
      simp
    · decide
  isWritten_toDoc p := by simp [toDoc, Doc.isWritten]

instance : NeverNull BatchPolicy := ⟨fun _ => nofun⟩

instance : ReadsExactly InfoPolicy where
  ofDoc?_toDoc r p _ := by
    simp only [toDoc, ofDoc?, List.append_assoc]
    rw [Follow.fields?]
    · simp [get?]
    · repeat apply follow_ofOption_append
      simp
    · decide
  isWritten_toDoc p := by simp [toDoc, Doc.isWritten]

instance : NeverNull InfoPolicy := ⟨fun _ => nofun⟩

instance : ReadsExactly QueryPolicy where
  ofDoc?_toDoc r p _ := by
    simp only [toDoc, ofDoc?]
    rw [Follow.fields?]
    · simp [get?]
    · simp
    · decide
  isWritten_toDoc p := by simp [toDoc, Doc.isWritten]

instance : NeverNull QueryPolicy := ⟨fun _ => nofun⟩

instance : ReadsExactly UdfPolicy where
  ofDoc?_toDoc r p _ := by
    simp only [toDoc, ofDoc?]
    rw [Follow.fields?]
    · simp [get?]
    · simp
    · decide
  isWritten_toDoc p := by simp [toDoc, Doc.isWritten]

instance : NeverNull UdfPolicy := ⟨fun _ => nofun⟩

instance : ReadsExactly IndexPolicy where
  ofDoc?_toDoc r p _ := by
    simp only [toDoc, ofDoc?]
    rw [Follow.fields?]
    · simp [get?]
    · simp
    · decide
  isWritten_toDoc p := by simp [toDoc, Doc.isWritten]

instance : NeverNull IndexPolicy := ⟨fun _ => nofun⟩

instance : ReadsExactly Policies where
  ofDoc?_toDoc r p _ := by
    simp only [toDoc, ofDoc?, List.append_assoc]
    rw [Follow.fields?]
    · simp [get?]
    · repeat apply follow_ofOption_append
      simp
    · decide
  isWritten_toDoc p := by simp [toDoc, Doc.isWritten]

end RecordDb
