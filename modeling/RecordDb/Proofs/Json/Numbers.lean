import RecordDb.Wire.Json.Parser
import RecordDb.Wire.Json.Printer

/-!
# Integers in JSON texts

The digits of a number that fits 64 bits are taken in one by one without a loss, and what comes
after a value cannot go on with it.
-/
namespace RecordDb.Wire.Json

/-- What may come after a value: nothing, or a character that ends it. -/
inductive Ends : List Char → Prop where
  | nothing : Ends []
  | comma (rest : List Char) : Ends (',' :: rest)
  | list (rest : List Char) : Ends (']' :: rest)
  | record (rest : List Char) : Ends ('\x7d' :: rest)

theorem Ends.digits {rest : List Char} (h : Ends rest) :
    rest.takeWhile isDigit = [] ∧ rest.dropWhile isDigit = rest := by
  cases h <;> exact ⟨rfl, rfl⟩

theorem Ends.fraction? {rest : List Char} (h : Ends rest) : fraction? rest = some (none, rest) := by
  cases h <;> rfl

theorem Ends.exponent? {rest : List Char} (h : Ends rest) : exponent? rest = some (none, rest) := by
  cases h <;> rfl

theorem isDigit_of_mem {n : Nat} {c : Char} (h : c ∈ Nat.toDigits 10 n) : isDigit c = true := by
  have hc : c.isDigit = true := Nat.isDigit_of_mem_toDigits (by decide) (by decide) h
  rwa [Char.isDigit] at hc

theorem toDigits_eq_cons (n : Nat) : ∃ c cs, Nat.toDigits 10 n = c :: cs ∧ isDigit c = true := by
  cases h : Nat.toDigits 10 n with
  | nil => exact absurd h Nat.toDigits_ne_nil
  | cons c cs => exact ⟨c, cs, rfl, isDigit_of_mem (h ▸ List.mem_cons_self)⟩

/-- The values of the digits of a number. -/
def digitsOf (n : Nat) : List Nat := (Nat.toDigits 10 n).map fun c => c.toNat - '0'.toNat

theorem digits_toDigits (n : Nat) {rest : List Char} (h : Ends rest) :
    digits (Nat.toDigits 10 n ++ rest) = (digitsOf n, rest) := by
  have hall : ∀ c ∈ Nat.toDigits 10 n, isDigit c = true := fun _ => isDigit_of_mem
  rw [digits, List.takeWhile_append_of_pos hall, List.dropWhile_append_of_pos hall, h.digits.1,
    h.digits.2, List.append_nil, digitsOf]

/-- No number that is written starts with a zero, but for zero itself. -/
theorem toDigits_eq_cons_of_pos {n : Nat} (h : 0 < n) :
    ∃ c cs, Nat.toDigits 10 n = c :: cs ∧ c ≠ '0' := by
  induction n using Nat.strongRecOn with
  | ind n ih =>
    by_cases hn : n < 10
    · refine ⟨n.digitChar, [], Nat.toDigits_of_lt_base hn, ?_⟩
      rw [Ne, Nat.digitChar_eq_zero]
      omega
    · obtain ⟨c, cs, hcs, hc⟩ := ih (n / 10) (by omega) (by omega)
      refine ⟨c, cs ++ [(n % 10).digitChar], ?_, hc⟩
      rw [Nat.toDigits_of_base_le (by decide) (by omega), hcs, List.cons_append]

theorem whole?_toDigits (n : Nat) {rest : List Char} (h : Ends rest) :
    whole? (Nat.toDigits 10 n ++ rest) = some (digitsOf n, rest) := by
  rcases Nat.eq_zero_or_pos n with rfl | hn
  · rfl
  · obtain ⟨c, cs, hcs, hc⟩ := toDigits_eq_cons_of_pos hn
    have hd := digits_toDigits n h
    have hne : digitsOf n ≠ [] := by
      rw [digitsOf, hcs]
      exact List.cons_ne_nil _ _
    rw [whole?, hd]
    · cases hds : digitsOf n with
      | nil => exact absurd hds hne
      | cons d ds => rfl
    · rw [hcs, List.cons_append]
      intro rest' he
      exact hc (List.cons.inj he).1

theorem le_ofDigitChars (cs : List Char) (n : Nat) : n ≤ Nat.ofDigitChars 10 cs n := by
  induction cs generalizing n with
  | nil => exact Nat.le_of_eq Nat.ofDigitChars_nil.symm
  | cons c cs ih =>
    rw [Nat.ofDigitChars_cons]
    exact Nat.le_trans (by omega) (ih _)

/-- Within the limit nothing is left over: a part of the digits is no more than all of them. -/
theorem accumulate_of_le {limit : Nat} (cs : List Char) {n : Nat}
    (h : Nat.ofDigitChars 10 cs n ≤ limit) :
    accumulate limit n (cs.map fun c => c.toNat - '0'.toNat) = (Nat.ofDigitChars 10 cs n, 0) := by
  induction cs generalizing n with
  | nil => rfl
  | cons c cs ih =>
    rw [Nat.ofDigitChars_cons, Nat.mul_comm] at h
    rw [List.map_cons, accumulate, if_pos (Nat.le_trans (le_ofDigitChars cs _) h), ih h,
      Nat.ofDigitChars_cons, Nat.mul_comm 10]

theorem accumulate_digitsOf {limit n : Nat} (h : n ≤ limit) :
    accumulate limit 0 (digitsOf n) = (n, 0) := by
  have hn : Nat.ofDigitChars 10 (Nat.toDigits 10 n) 0 = n := Nat.ofDigitChars_ten_toDigits
  rw [digitsOf, accumulate_of_le _ (by rw [hn]; exact h), hn]

/-- The parts of the text of an integer. -/
def integer (i : Int) : NumberText := ⟨decide (i < 0), digitsOf i.natAbs, none, none⟩

theorem number?_intText (i : Int) {rest : List Char} (h : Ends rest) :
    number? (intText i ++ rest) = some (integer i, rest) := by
  have hwhole := whole?_toDigits i.natAbs h
  by_cases hi : i < 0
  · rw [intText, if_pos hi, List.cons_append, number?]
    simp only [hwhole, h.fraction?, h.exponent?, bind, Option.bind, pure, integer, hi,
      decide_true]
  · rw [intText, if_neg hi, number?]
    · simp only [hwhole, h.fraction?, h.exponent?, bind, Option.bind, pure, integer, hi,
        decide_false]
    · obtain ⟨c, cs, hcs, hc⟩ := toDigits_eq_cons i.natAbs
      rintro rest' he
      rw [hcs, List.cons_append, List.cons.injEq] at he
      rw [he.1] at hc
      cases hc

/-- A number begins unlike any other value. -/
def beginsNumber (c : Char) : Bool := c = '-' || isDigit c

theorem intText_eq_cons (i : Int) : ∃ c cs, intText i = c :: cs ∧ beginsNumber c = true := by
  by_cases hi : i < 0
  · exact ⟨'-', _, if_pos hi, rfl⟩
  · obtain ⟨c, cs, hcs, hc⟩ := toDigits_eq_cons i.natAbs
    refine ⟨c, cs, (if_neg hi).trans hcs, ?_⟩
    rw [beginsNumber, hc, Bool.or_true]

theorem doc_integer {i : Int} (h : -0x8000000000000000 ≤ i ∧ i < 0x10000000000000000) :
    (integer i).doc = .int i := by
  have hlimit : i.natAbs ≤ significandLimit := by
    rw [significandLimit]
    omega
  have hint : (integer i).int? = some i := by
    simp only [NumberText.int?, integer, accumulate_digitsOf hlimit]
    by_cases hi : i < 0
    · have hpos : 0 < i.natAbs ∧ i.natAbs ≤ 0x8000000000000000 := by omega
      have hneg : -(i.natAbs : Int) = i := by omega
      simp only [hi, decide_true, Bool.not_true, Bool.false_eq_true, if_false, hpos, and_self,
        if_true, hneg]
    · have hpos : (i.natAbs : Int) = i := by omega
      simp only [hi, decide_false, Bool.not_false, if_true, hpos]
  rw [NumberText.doc, hint]

end RecordDb.Wire.Json
