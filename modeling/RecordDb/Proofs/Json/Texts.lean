import RecordDb.Wire.Json.Parser
import RecordDb.Wire.Json.Printer

/-!
# Quoted texts

Every character, escaped or not, is read as the code unit that it is, and as no character is a
surrogate, the code units of a text are its code points.
-/
namespace RecordDb.Wire.Json

/-- Puts a code unit before what the rest of a string is read as. -/
def StringText.before (n : Nat) (read : Option (StringText × List Char)) :
    Option (StringText × List Char) :=
  read.map fun e => (e.1.cons n, e.2)

theorem string?_short {e c : Char} (he : e ≠ 'u') (hc : escaped? e = some c) (rest : List Char) :
    string? ('\\' :: e :: rest) = StringText.before c.toNat (string? rest) := by
  rw [string?, hc]
  · cases string? rest with
    | none => rfl
    | some t => rfl
  · rintro _ _ _ _ _ rfl
    exact absurd rfl he

theorem string?_unicode {a b c d : Char} {n : Nat} (h : hex4? a b c d = some n)
    (rest : List Char) :
    string? ('\\' :: 'u' :: a :: b :: c :: d :: rest) = StringText.before n (string? rest) := by
  rw [string?, h]
  cases string? rest with
  | none => rfl
  | some t => rfl

theorem string?_plain {c : Char} (hquote : c ≠ '"') (hslash : c ≠ '\\') (hc : 0x20 ≤ c.toNat)
    (rest : List Char) : string? (c :: rest) = StringText.before c.toNat (string? rest) := by
  rw [string?]
  · simp [hc, StringText.before, StringText.cons]
  · exact hquote
  · exact fun _ _ _ _ _ h => absurd h hslash
  · exact fun _ _ h => absurd h hslash

theorem hex4?_control {n : Nat} (h : n < 0x20) :
    hex4? '0' '0' (hexDigit (n / 16)) (hexDigit (n % 16)) = some n := by
  have hall : ∀ m < 0x20, hex4? '0' '0' (hexDigit (m / 16)) (hexDigit (m % 16)) = some m := by
    decide
  exact hall n h

/-- One character, in whatever way it is written. -/
theorem string?_escape (c : Char) (rest : List Char) :
    string? (escape c ++ rest) = StringText.before c.toNat (string? rest) := by
  unfold escape
  split
  · exact string?_short (by decide) rfl rest
  · exact string?_short (by decide) rfl rest
  · exact string?_short (by decide) rfl rest
  · exact string?_short (by decide) rfl rest
  · exact string?_short (by decide) rfl rest
  · exact string?_short (by decide) rfl rest
  · exact string?_short (by decide) rfl rest
  · rename_i hquote hslash _ _ _ _ _
    split
    · rename_i hc
      exact string?_unicode (hex4?_control hc) rest
    · rename_i hc
      exact string?_plain hquote hslash (Nat.le_of_not_lt hc) rest

theorem string?_text (cs rest : List Char) :
    string? (cs.flatMap escape ++ '"' :: rest) = some (⟨cs.map Char.toNat, true⟩, rest) := by
  induction cs with
  | nil => rfl
  | cons c cs ih =>
    rw [List.flatMap_cons, List.append_assoc, string?_escape, ih]
    rfl

theorem quoted_append (s : String) (rest : List Char) :
    quoted s ++ rest = '"' :: (s.toList.flatMap escape ++ '"' :: rest) := by
  simp [quoted]

theorem isSurrogate_toNat (c : Char) :
    isHighSurrogate c.toNat = false ∧ isLowSurrogate c.toNat = false := by
  have hc : c.toNat < 0xd800 ∨ 0xdfff < c.toNat ∧ c.toNat < 0x110000 := c.valid
  simp only [isHighSurrogate, isLowSurrogate, Bool.and_eq_false_imp, decide_eq_true_eq,
    decide_eq_false_iff_not]
  omega

theorem codePoints_text (cs : List Char) :
    codePoints (cs.map Char.toNat) = cs.map Char.toNat := by
  induction cs with
  | nil => rfl
  | cons c cs ih =>
    cases cs with
    | nil => rfl
    | cons c' cs =>
      rw [List.map_cons, List.map_cons, codePoints, (isSurrogate_toNat c).1, ← List.map_cons, ih]
      rfl

/-- What a text is written as is read as the text. -/
theorem doc_text (s : String) : (⟨s.toList.map Char.toNat, true⟩ : StringText).doc = .text s := by
  have hall : (s.toList.map Char.toNat).all
      (fun n => !isHighSurrogate n && !isLowSurrogate n) = true := by
    rw [List.all_map, List.all_eq_true]
    intro c _
    simp only [Function.comp_apply, isSurrogate_toNat c, Bool.not_false, Bool.and_true]
  have hchars : (s.toList.map Char.toNat).map Char.ofNat = s.toList := by
    rw [List.map_map]
    exact List.map_id'' Char.ofNat_toNat _
  rw [StringText.doc]
  dsimp only
  rw [codePoints_text, hall, Bool.and_self, if_pos rfl, hchars, String.ofList_toList]

end RecordDb.Wire.Json
