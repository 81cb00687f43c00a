import Mathlib.Data.List.DropRight
import RecordDb.Text.Blank
import RecordDb.Text.Split

/-!
# Laws of joining, cutting and trimming

A cut at a separator is a cut of what stands before it and of what stands after it; the parts hold
no separator and nothing that was not in the text. So parts without the separator come back when
they are joined and cut again. The digits of a number are neither separators nor blanks.
-/
namespace RecordDb.Text

section Cuts
variable {sep : Char} {cs part before after : List Char}

theorem splitAll_append (sep : Char) (before after : List Char) :
    splitAll sep (before ++ sep :: after) = splitAll sep before ++ splitAll sep after := by
  induction before with
  | nil => simp [splitAll]
  | cons c rest ih =>
    rw [List.cons_append, splitAll, splitAll, ih]
    split
    · rfl
    · cases h : splitAll sep rest with
      | nil => exact absurd h (splitAll_ne_nil sep rest)
      | cons part parts => rfl

theorem splitAll_of_not_mem (h : sep ∉ cs) : splitAll sep cs = [cs] := by
  induction cs with
  | nil => rfl
  | cons c rest ih =>
    rw [List.mem_cons, not_or] at h
    rw [splitAll, if_neg (Ne.symm h.1), ih h.2]

theorem sublist_of_mem_splitAll (h : part ∈ splitAll sep cs) : part.Sublist cs := by
  induction cs generalizing part with
  | nil =>
    rw [splitAll, List.mem_singleton] at h
    rw [h]
  | cons c rest ih =>
    rw [splitAll] at h
    split at h
    · rcases List.mem_cons.mp h with rfl | h
      · exact List.nil_sublist _
      · exact (ih h).cons c
    · split at h
      · rename_i hs
        exact absurd hs (splitAll_ne_nil sep rest)
      · rename_i first others hs
        rw [hs] at ih
        rcases List.mem_cons.mp h with rfl | h
        · exact (ih List.mem_cons_self).cons_cons c
        · exact (ih (List.mem_cons_of_mem _ h)).cons c

theorem not_mem_of_mem_splitAll (h : part ∈ splitAll sep cs) : sep ∉ part := by
  induction cs generalizing part with
  | nil =>
    rw [splitAll, List.mem_singleton] at h
    rw [h]
    exact List.not_mem_nil
  | cons c rest ih =>
    rw [splitAll] at h
    split at h
    · rcases List.mem_cons.mp h with rfl | h
      · exact List.not_mem_nil
      · exact ih h
    · rename_i hc
      split at h
      · rename_i hs
        exact absurd hs (splitAll_ne_nil sep rest)
      · rename_i first others hs
        rw [hs] at ih
        rcases List.mem_cons.mp h with rfl | h
        · rw [List.mem_cons, not_or]
          exact ⟨Ne.symm hc, ih List.mem_cons_self⟩
        · exact ih (List.mem_cons_of_mem _ h)

theorem splitFirst?_append (h : sep ∉ before) (after : List Char) :
    splitFirst? sep (before ++ sep :: after) = some (before, after) := by
  induction before with
  | nil => rw [List.nil_append, splitFirst?, if_pos rfl]
  | cons c rest ih =>
    rw [List.mem_cons, not_or] at h
    rw [List.cons_append, splitFirst?, if_neg (Ne.symm h.1), ih h.2]
    rfl

theorem eq_append_of_splitFirst? (h : splitFirst? sep cs = some (before, after)) :
    cs = before ++ sep :: after ∧ sep ∉ before := by
  induction cs generalizing before with
  | nil => cases h
  | cons c rest ih =>
    rw [splitFirst?] at h
    split at h
    · rename_i hc
      cases h
      rw [hc]
      exact ⟨rfl, List.not_mem_nil⟩
    · rename_i hc
      obtain ⟨⟨before, after⟩, hrest, heq⟩ := Option.map_eq_some_iff.mp h
      cases heq
      obtain ⟨rfl, hnot⟩ := ih hrest
      rw [List.mem_cons, not_or]
      exact ⟨rfl, Ne.symm hc, hnot⟩

theorem splitFirst?_eq_none_iff : splitFirst? sep cs = none ↔ sep ∉ cs := by
  induction cs with
  | nil => simp [splitFirst?]
  | cons c rest ih =>
    rw [splitFirst?, List.mem_cons, not_or]
    split
    · rename_i hc
      simp [hc]
    · rename_i hc
      rw [Option.map_eq_none_iff, ih]
      exact (and_iff_right (Ne.symm hc)).symm

theorem splitLast?_of_not_mem (h : sep ∉ cs) : splitLast? sep cs = none := by
  induction cs with
  | nil => rfl
  | cons c rest ih =>
    rw [List.mem_cons, not_or] at h
    rw [splitLast?, ih h.2]
    exact if_neg (Ne.symm h.1)

theorem splitLast?_append (before : List Char) (h : sep ∉ after) :
    splitLast? sep (before ++ sep :: after) = some (before, after) := by
  induction before with
  | nil =>
    rw [List.nil_append, splitLast?, splitLast?_of_not_mem h]
    exact if_pos rfl
  | cons c rest ih => rw [List.cons_append, splitLast?, ih]

theorem starts_of_splitLast? (h : splitLast? sep cs = some (before, after)) : before <+: cs := by
  induction cs generalizing before with
  | nil => cases h
  | cons c rest ih =>
    rw [splitLast?] at h
    cases hrest : splitLast? sep rest with
    | some cut =>
      rw [hrest] at h
      cases h
      exact (List.prefix_cons_inj c).mpr (ih hrest)
    | none =>
      rw [hrest] at h
      dsimp only at h
      split at h
      · cases h
        exact List.nil_prefix
      · cases h

end Cuts

section Joins
variable {c : Char} {sep : String}

theorem toList_joined (sep : String) (c : Char) (h : sep.toList = [c]) (before after : String) :
    (before ++ sep ++ after).toList = before.toList ++ c :: after.toList := by
  rw [String.toList_append, String.toList_append, h, List.append_assoc, List.singleton_append]

theorem not_mem_intercalate (hsep : c ∉ sep.toList) {texts : List String}
    (h : ∀ text ∈ texts, c ∉ text.toList) : c ∉ (sep.intercalate texts).toList := by
  induction texts with
  | nil =>
    rw [String.intercalate_nil]
    exact List.not_mem_nil
  | cons text rest ih =>
    have htext := h text List.mem_cons_self
    have hrest := ih fun text hmem => h text (List.mem_cons_of_mem _ hmem)
    cases rest with
    | nil => rwa [String.intercalate_singleton]
    | cons next rest =>
      rw [String.intercalate_cons_cons, String.toList_append, String.toList_append,
        List.mem_append, List.mem_append, not_or, not_or]
      exact ⟨⟨htext, hsep⟩, hrest⟩

theorem splitAll_intercalate (hsep : sep.toList = [c]) {texts : List String} (hne : texts ≠ [])
    (h : ∀ text ∈ texts, c ∉ text.toList) :
    splitAll c (sep.intercalate texts).toList = texts.map String.toList := by
  induction texts with
  | nil => exact absurd rfl hne
  | cons text rest ih =>
    have htext := splitAll_of_not_mem (h text List.mem_cons_self)
    have hrest : ∀ text ∈ rest, c ∉ text.toList := fun t ht => h t (List.mem_cons_of_mem _ ht)
    cases rest with
    | nil => rw [String.intercalate_singleton, htext, List.map_singleton]
    | cons next rest =>
      rw [String.intercalate_cons_cons, toList_joined sep c hsep, splitAll_append, htext,
        ih (List.cons_ne_nil _ _) hrest]
      rfl

/-- What is gathered alike on both sides of a separator is gathered part by part. -/
theorem flatMap_of_append {α : Type} {f : String → List α} (hnil : f "" = [])
    (happend : ∀ before after, f (before ++ sep ++ after) = f before ++ f after)
    (texts : List String) : f (sep.intercalate texts) = texts.flatMap f := by
  induction texts with
  | nil => rw [String.intercalate_nil, hnil, List.flatMap_nil]
  | cons text rest ih =>
    cases rest with
    | nil => rw [String.intercalate_singleton, List.flatMap_singleton]
    | cons next rest =>
      rw [String.intercalate_cons_cons, happend, ih]
      rfl

end Joins

section Digits
variable {c : Char}

theorem not_mem_toDigits (h : c.isDigit = false) (n : Nat) : c ∉ Nat.toDigits 10 n := by
  intro hc
  rw [Nat.isDigit_of_mem_toDigits (by decide) (by decide) hc] at h
  cases h

theorem isBlank_of_isDigit (h : c.isDigit = true) : isBlank c = false := by
  rw [Char.isDigit, Bool.and_eq_true, decide_eq_true_eq, decide_eq_true_eq] at h
  have hlow : 48 ≤ c.toNat := UInt32.le_iff_toNat_le.mp h.1
  have hhigh : c.toNat ≤ 57 := UInt32.le_iff_toNat_le.mp h.2
  simp only [isBlank, blankRanges, List.any_cons, List.any_nil, Bool.or_false,
    Bool.or_eq_false_iff, Bool.and_eq_false_iff, decide_eq_false_iff_not]
  omega

end Digits

section Lines
variable {cs line after : List Char}

theorem dropReturn_sublist (line : List Char) : (dropReturn line).Sublist line := by
  fun_induction dropReturn line with
  | case1 => exact .refl _
  | case2 => exact List.nil_sublist _
  | case3 c rest _ ih => exact ih.cons_cons c

theorem lines_of_not_mem (h : '\n' ∉ cs) : lines cs = [cs] := by
  rw [lines, splitAll_of_not_mem h]
  rfl

theorem not_mem_of_mem_lines (h : line ∈ lines cs) : '\n' ∉ line := by
  rw [lines] at h
  rcases List.mem_append.mp h with h | h
  · obtain ⟨part, hpart, rfl⟩ := List.mem_map.mp h
    exact fun hn => not_mem_of_mem_splitAll ((List.dropLast_sublist _).subset hpart)
      ((dropReturn_sublist part).subset hn)
  · exact not_mem_of_mem_splitAll (List.mem_of_getLast? (Option.mem_toList.mp h))

theorem dropReturn_append (before : List Char) (h : after ≠ []) :
    dropReturn (before ++ after) = before ++ dropReturn after := by
  induction before with
  | nil => rfl
  | cons c rest ih =>
    have hrest : rest ++ after ≠ [] := List.append_ne_nil_of_right_ne_nil _ h
    rw [List.cons_append, dropReturn, ih, List.cons_append]
    exact fun _ hnil => hrest hnil

theorem dropReturn_eq_self_iff : dropReturn cs = cs ↔ cs.getLast? ≠ some '\r' := by
  rcases List.eq_nil_or_concat cs with rfl | ⟨before, c, rfl⟩
  · exact iff_of_true rfl nofun
  · rw [List.concat_eq_append, dropReturn_append before (List.cons_ne_nil _ _),
      List.append_cancel_left_eq, List.getLast?_concat, Ne, Option.some.injEq]
    by_cases hc : c = '\r'
    · rw [hc]
      decide
    · simp [dropReturn, hc]

theorem lines_intercalate {texts : List String} (hne : texts ≠ [])
    (h : ∀ text ∈ texts, '\n' ∉ text.toList) :
    lines ("\n".intercalate texts).toList =
      (texts.dropLast.map fun text => dropReturn text.toList)
        ++ texts.getLast?.toList.map String.toList := by
  rw [lines, splitAll_intercalate rfl hne h, ← List.map_dropLast, List.map_map, List.getLast?_map,
    Option.toList_map]
  rfl

end Lines

section Trims
variable {cs before after : List Char}

theorem trimEnd_starts (cs : List Char) : trimEnd cs <+: cs := List.rdropWhile_prefix isBlank cs

theorem trim_sublist (cs : List Char) : (trim cs).Sublist cs :=
  (trimEnd_starts _).sublist.trans (List.dropWhile_sublist _)

/-- A trim of the end leaves the start as it is. -/
theorem trimStart_of_starts (h : trimStart cs = cs) (hb : before <+: cs) :
    trimStart before = before := by
  cases before with
  | nil => rfl
  | cons c rest =>
    obtain ⟨after, rfl⟩ := hb
    rw [trimStart, List.dropWhile_eq_self_iff] at h ⊢
    exact fun _ => h (Nat.succ_pos _)

theorem trimStart_trim (cs : List Char) : trimStart (trim cs) = trim cs :=
  trimStart_of_starts (List.dropWhile_idempotent isBlank _) (trimEnd_starts _)

/-- What is trimmed has no more to trim. -/
theorem trim_trim (cs : List Char) : trim (trim cs) = trim cs :=
  calc trim (trim cs)
      = trimEnd (trim cs) := congrArg trimEnd (trimStart_trim cs)
    _ = trim cs := List.rdropWhile_idempotent isBlank _

theorem trimEnd_append_blank (h : ∀ c ∈ after, isBlank c = true)
    (cs : List Char) : trimEnd (cs ++ after) = trimEnd cs := by
  have hafter : ∀ c ∈ after.reverse, isBlank c = true := fun c hc => h c (List.mem_reverse.mp hc)
  rw [trimEnd, List.reverse_append, List.dropWhile_append_of_pos hafter, trimEnd]

/-- A text of blanks alone. -/
def Blank (text : String) : Prop := ∀ c ∈ text.toList, isBlank c = true

instance (text : String) : Decidable (Blank text) := List.decidableBAll _ _

/-- Blanks around a text are trimmed with its own. -/
theorem trim_padded (hbefore : ∀ c ∈ before, isBlank c = true)
    (hafter : ∀ c ∈ after, isBlank c = true) (cs : List Char) :
    trim (before ++ cs ++ after) = trim cs := by
  rw [trim, trimStart, List.append_assoc, List.dropWhile_append_of_pos hbefore,
    List.dropWhile_append, trim, trimStart]
  -- If nothing but blanks stands in between, those after it are trimmed from the start as well.
  split
  · rename_i hempty
    rw [List.isEmpty_iff.mp hempty, List.dropWhile_eq_nil_iff.mpr hafter]
  · exact trimEnd_append_blank hafter _

/-- Nothing is trimmed from a text that starts and ends without a blank. -/
theorem trim_eq_self {c : Char} (hbefore : trimStart before = before) (hc : isBlank c = false)
    (hafter : ∀ d ∈ after, isBlank d = false) :
    trim (before ++ c :: after) = before ++ c :: after := by
  have hstart : trimStart (before ++ c :: after) = before ++ c :: after := by
    rw [trimStart] at hbefore
    rw [trimStart, List.dropWhile_append, hbefore,
      List.dropWhile_cons_of_neg (Bool.eq_false_iff.mp hc)]
    cases before <;> rfl
  have hend : trimEnd (before ++ c :: after) = before ++ c :: after := by
    apply List.rdropWhile_eq_self_iff.mpr
    intro hne
    rw [List.getLast_append_of_ne_nil _ (List.cons_ne_nil _ _)]
    rcases List.mem_cons.mp (List.getLast_mem (List.cons_ne_nil c after)) with h | h
    · rw [h, hc]
      exact Bool.false_ne_true
    · rw [hafter _ h]
      exact Bool.false_ne_true
  rw [trim, hstart, hend]

end Trims

end RecordDb.Text
