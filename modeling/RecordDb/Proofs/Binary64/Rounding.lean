import Mathlib.Algebra.Order.Group.Nat
import Mathlib.Data.Nat.Log
import RecordDb.Binary64

/-!
# Rounding to the nearest double

Rounding to the nearest double keeps the order of what it rounds, and leaves alone what a double
stands for already. So integers keep their order as doubles, though some of them meet.
-/
namespace RecordDb.Binary64

theorem divHalfEven_bounds (n d : Nat) : n / d ≤ divHalfEven n d ∧ divHalfEven n d ≤ n / d + 1 := by
  rw [divHalfEven]
  split <;> omega

theorem divHalfEven_mono {n m d : Nat} (h : n ≤ m) : divHalfEven n d ≤ divHalfEven m d := by
  have hq : n / d ≤ m / d := Nat.div_le_div_right h
  have hn := divHalfEven_bounds n d
  have hm := divHalfEven_bounds m d
  by_cases hqq : n / d = m / d
  · -- with one quotient the remainders are in order, so a carry below is a carry above
    have hn' := Nat.div_add_mod n d
    have hm' := Nat.div_add_mod m d
    rw [hqq] at hn'
    simp only [divHalfEven, hqq]
    split <;> split <;> omega
  · omega

theorem divHalfEven_mul (n : Nat) {d : Nat} (hd : 0 < d) : divHalfEven (n * d) d = n := by
  rw [divHalfEven, Nat.mul_div_cancel n hd, Nat.mul_mod_left]
  split <;> omega

/-- How many binary places of a whole number of units a double drops. -/
def dropped (n : Nat) : Nat := Nat.log2 n - 52

/-- The nearest pattern, were there no largest one. -/
def unboundedPattern (n : Nat) : Nat :=
  dropped n * exponentUnit + divHalfEven n (2 ^ dropped n)

theorem nearestPattern_one (n : Nat) :
    nearestPattern n 1 = min infinityPattern (unboundedPattern n) := by
  simp only [nearestPattern, unboundedPattern, dropped, Nat.div_one, Nat.one_shiftLeft]

theorem dropped_mono {n m : Nat} (h : n ≤ m) : dropped n ≤ dropped m := by
  have hl : Nat.log2 n ≤ Nat.log2 m := by
    simp only [Nat.log2_eq_log_two]
    exact Nat.log_mono_right h
  rw [dropped, dropped]
  omega

/-- What is kept of a number has 53 places at most. -/
theorem div_dropped_lt (n : Nat) : n / 2 ^ dropped n < 2 ^ 53 := by
  rw [Nat.div_lt_iff_lt_mul (Nat.two_pow_pos _), ← Nat.pow_add]
  calc n < 2 ^ (Nat.log2 n + 1) := Nat.lt_log2_self
    _ ≤ 2 ^ (53 + dropped n) := Nat.pow_le_pow_right (by decide) (by rw [dropped]; omega)

/-- It has exactly 53 places when any are dropped. -/
theorem le_div_dropped {n : Nat} (h : 0 < dropped n) : 2 ^ 52 ≤ n / 2 ^ dropped n := by
  have hl : 52 + dropped n = Nat.log2 n := by
    rw [dropped] at h ⊢
    omega
  have hn : n ≠ 0 := by
    rintro rfl
    simp [dropped] at h
  rw [Nat.le_div_iff_mul_le (Nat.two_pow_pos _), ← Nat.pow_add, hl]
  exact Nat.log2_self_le hn

theorem unboundedPattern_mono {n m : Nat} (h : n ≤ m) :
    unboundedPattern n ≤ unboundedPattern m := by
  rw [unboundedPattern, unboundedPattern]
  by_cases hd : dropped n = dropped m
  · rw [hd]
    exact Nat.add_le_add_left (divHalfEven_mono h) _
  · -- more places are dropped above, and the exponent makes up for the significand
    have hlt : dropped n + 1 ≤ dropped m := by
      have := dropped_mono h
      omega
    have hn := (divHalfEven_bounds n (2 ^ dropped n)).2
    have hm := (divHalfEven_bounds m (2 ^ dropped m)).1
    have hkept := div_dropped_lt n
    have hfull := le_div_dropped (n := m) (by omega)
    rw [exponentUnit]
    omega

theorem nearestPattern_mono {n m : Nat} (h : n ≤ m) : nearestPattern n 1 ≤ nearestPattern m 1 := by
  rw [nearestPattern_one, nearestPattern_one]
  exact min_le_min_left _ (unboundedPattern_mono h)

/-- The units of a normal pattern, by its significand and its exponent. -/
theorem unitsOf_normal {p : Nat} (h : exponentUnit ≤ p) :
    unitsOf p = (exponentUnit + p % exponentUnit) * 2 ^ (p / exponentUnit - 1) := by
  rw [unitsOf, if_neg (by omega), Nat.shiftLeft_eq]

theorem log2_unitsOf {p : Nat} (h : exponentUnit ≤ p) :
    Nat.log2 (unitsOf p) = 52 + (p / exponentUnit - 1) := by
  have hm : p % exponentUnit < exponentUnit := Nat.mod_lt _ (by decide)
  have hpos : 0 < 2 ^ (p / exponentUnit - 1) := Nat.two_pow_pos _
  rw [unitsOf_normal h, Nat.log2_eq_iff]
  · constructor
    · rw [Nat.pow_add]
      exact Nat.mul_le_mul_right _ (Nat.le_add_right _ _)
    · rw [Nat.add_right_comm, Nat.pow_add]
      apply Nat.mul_lt_mul_of_pos_right _ hpos
      rw [exponentUnit] at hm ⊢
      omega
  · apply Nat.mul_ne_zero
    · rw [exponentUnit]
      omega
    · omega

/-- What a pattern stands for is rounded to this pattern. -/
theorem unboundedPattern_unitsOf (p : Nat) : unboundedPattern (unitsOf p) = p := by
  by_cases h : exponentUnit ≤ p
  · have hp := Nat.div_add_mod p exponentUnit
    have hq : 1 ≤ p / exponentUnit := (Nat.one_le_div_iff (by decide)).mpr h
    have hd : dropped (unitsOf p) = p / exponentUnit - 1 := by
      rw [dropped, log2_unitsOf h, Nat.add_sub_cancel_left]
    rw [unboundedPattern, hd, unitsOf_normal h, divHalfEven_mul _ (Nat.two_pow_pos _)]
    rw [exponentUnit] at *
    omega
  · have hl : Nat.log2 p ≤ 52 := by
      by_cases hp : p = 0
      · simp [hp]
      · have := (Nat.log2_lt hp).mpr (show p < 2 ^ 52 by rw [exponentUnit] at h; omega)
        omega
    have hd : dropped p = 0 := by rw [dropped]; omega
    rw [unitsOf, if_pos (by omega), unboundedPattern, hd, Nat.pow_zero, Nat.zero_mul, Nat.zero_add]
    simpa using divHalfEven_mul p Nat.one_pos

/-- A finite double is the one nearest to what it stands for. -/
theorem nearestPattern_units {x : Binary64} (h : x.isFinite) : nearestPattern x.units 1 = x.pattern := by
  rw [isFinite, decide_eq_true_eq] at h
  rw [nearestPattern_one, units, unboundedPattern_unitsOf, Nat.min_eq_right h.le]

/-- A number whose dropped places are all zero is what its pattern stands for. -/
theorem unitsOf_unboundedPattern {n : Nat} (h : 2 ^ dropped n ∣ n) :
    unitsOf (unboundedPattern n) = n := by
  obtain ⟨q, hq⟩ := h
  have hpos : 0 < 2 ^ dropped n := Nat.two_pow_pos _
  have hkept : n / 2 ^ dropped n = q := Nat.div_eq_of_eq_mul_right hpos hq
  have hrounded : divHalfEven n (2 ^ dropped n) = q := by
    calc divHalfEven n (2 ^ dropped n)
      _ = divHalfEven (q * 2 ^ dropped n) (2 ^ dropped n) := by rw [Nat.mul_comm q, ← hq]
      _ = q := divHalfEven_mul q hpos
  have hlt : q < 2 ^ 53 := hkept ▸ div_dropped_lt n
  rw [unboundedPattern, hrounded]
  by_cases hd : dropped n = 0
  · rw [hd, Nat.pow_zero, Nat.one_mul] at hq
    rw [hd, hq, Nat.zero_mul, Nat.zero_add]
    by_cases hfull : exponentUnit ≤ q
    · rw [unitsOf_normal hfull]
      rw [exponentUnit] at hfull ⊢
      have hexponent : q / 4503599627370496 - 1 = 0 := by omega
      rw [hexponent]
      omega
    · rw [unitsOf, if_pos (by omega)]
  · have hfull : 2 ^ 52 ≤ q := hkept ▸ le_div_dropped (by omega)
    have hexponent : (dropped n * exponentUnit + q) / exponentUnit - 1 = dropped n := by
      rw [exponentUnit]
      omega
    have hsignificand : exponentUnit + (dropped n * exponentUnit + q) % exponentUnit = q := by
      rw [exponentUnit]
      omega
    rw [unitsOf_normal (by rw [exponentUnit]; omega), hexponent, hsignificand, Nat.mul_comm, ← hq]

section Integers

/-- The place of the double of an integer in numeric order. -/
def integerKey (i : Int) : Int :=
  if i < 0 then -(nearestPattern (i.natAbs <<< 1074) 1 : Int)
  else nearestPattern (i.natAbs <<< 1074) 1

theorem nearestPattern_le (n d : Nat) : nearestPattern n d ≤ infinityPattern := Nat.min_le_left _ _

theorem toNat_ofPattern {p : Nat} (h : p < signBit) (negative : Bool) :
    (ofPattern negative p).bits.toNat = p + if negative then signBit else 0 := by
  rw [ofPattern, UInt64.toNat_ofNat']
  apply Nat.mod_eq_of_lt
  rw [signBit] at *
  cases negative <;> simp <;> omega

theorem pattern_ofPattern {p : Nat} (h : p < signBit) (negative : Bool) :
    (ofPattern negative p).pattern = p := by
  rw [pattern, toNat_ofPattern h]
  cases negative
  · simpa using Nat.mod_eq_of_lt h
  · simpa using Nat.mod_eq_of_lt h

theorem isNegative_ofPattern {p : Nat} (h : p < signBit) (negative : Bool) :
    (ofPattern negative p).isNegative = negative := by
  rw [isNegative, toNat_ofPattern h]
  cases negative <;> simp [h]

theorem nearestPattern_lt_signBit (n d : Nat) : nearestPattern n d < signBit :=
  Nat.lt_of_le_of_lt (nearestPattern_le n d) (by decide)

theorem pattern_ofInt (i : Int) : (ofInt i).pattern = nearestPattern (i.natAbs <<< 1074) 1 :=
  pattern_ofPattern (nearestPattern_lt_signBit _ _) _

theorem isNegative_ofInt (i : Int) : (ofInt i).isNegative = decide (i < 0) :=
  isNegative_ofPattern (nearestPattern_lt_signBit _ _) _

theorem orderKey?_ofInt (i : Int) : (ofInt i).orderKey? = some (integerKey i) := by
  have hnan : (ofInt i).isNaN = false := by
    simpa [isNaN, pattern_ofInt] using nearestPattern_le (i.natAbs <<< 1074) 1
  simp only [orderKey?, hnan, pattern_ofInt, isNegative_ofInt, integerKey, Bool.false_eq_true,
    if_false, decide_eq_true_eq]

/-- Integers keep their order as doubles. -/
theorem integerKey_mono {i j : Int} (h : i ≤ j) : integerKey i ≤ integerKey j := by
  have hmono {m n : Nat} (hmn : m ≤ n) :
      nearestPattern (m <<< 1074) 1 ≤ nearestPattern (n <<< 1074) 1 := by
    rw [Nat.shiftLeft_eq, Nat.shiftLeft_eq]
    exact nearestPattern_mono (Nat.mul_le_mul_right _ hmn)
  rw [integerKey, integerKey]
  by_cases hi : i < 0
  · rw [if_pos hi]
    by_cases hj : j < 0
    · rw [if_pos hj]
      have := hmono (show j.natAbs ≤ i.natAbs by omega)
      omega
    · rw [if_neg hj]
      omega
  · rw [if_neg hi, if_neg (by omega)]
    exact Int.ofNat_le.mpr (hmono (by omega))

theorem shiftLeft_eq_mul (n k : Nat) : n <<< k = n * 1 <<< k := by
  rw [Nat.shiftLeft_eq, Nat.shiftLeft_eq, Nat.one_mul]

theorem one_shiftLeft_pos (k : Nat) : 0 < 1 <<< k := by
  rw [Nat.one_shiftLeft]
  exact Nat.two_pow_pos k

/-- How many units make one. -/
def unitsInOne : Nat := 1 <<< 1074

theorem shiftLeft_eq_units (n : Nat) : n <<< 1074 = n * unitsInOne := shiftLeft_eq_mul n _

theorem unitsInOne_pos : 0 < unitsInOne := one_shiftLeft_pos _

/-- Whether a double is an integer, as numbers. -/
def isInteger (x : Binary64) (i : Int) : Bool :=
  x.isFinite && x.signedUnits == i * unitsInOne

theorem isNaN_of_isFinite {x : Binary64} (h : x.isFinite) : x.isNaN = false := by
  rw [isFinite, decide_eq_true_eq] at h
  simpa [isNaN] using h.le

theorem isInteger_iff {x : Binary64} {i : Int} :
    x.isInteger i ↔ x.isFinite ∧ x.signedUnits = i * unitsInOne := by
  rw [isInteger, Bool.and_eq_true, beq_iff_eq]

/-- A double that is an integer is the double of this integer. -/
theorem orderKey?_of_isInteger {x : Binary64} {i : Int} (h : x.isInteger i) :
    x.orderKey? = some (integerKey i) := by
  obtain ⟨hfinite, hunits⟩ := isInteger_iff.mp h
  have hpos := unitsInOne_pos
  have hpattern : nearestPattern (i.natAbs <<< 1074) 1 = x.pattern := by
    have habs : x.units = i.natAbs * unitsInOne := by
      rw [← Int.natAbs_natCast unitsInOne, ← Int.natAbs_mul, ← hunits, signedUnits]
      split <;> simp
    rw [← nearestPattern_units hfinite, habs, shiftLeft_eq_units]
  rw [orderKey?, isNaN_of_isFinite hfinite, integerKey, hpattern]
  by_cases hi : i < 0
  · have hneg : x.isNegative := by
      by_contra hn
      have : i * unitsInOne < 0 := Int.mul_neg_of_neg_of_pos hi (by omega)
      rw [signedUnits, if_neg hn] at hunits
      omega
    simp [hi, hneg]
  · by_cases hneg : x.isNegative
    · -- a zero may have a sign, but its place is that of zero
      have hzero : i = 0 := by
        by_contra hn
        have : 0 < i * unitsInOne := Int.mul_pos (by omega) (by omega)
        rw [signedUnits, if_pos hneg] at hunits
        omega
      have hnone : x.pattern = 0 := by
        rw [← hpattern, hzero]
        rfl
      simp [hi, hnone]
    · simp [hi, hneg]

theorem dropped_shiftLeft_le {n : Nat} (h : n < 2 ^ 53) (k : Nat) : dropped (n <<< k) ≤ k := by
  rw [dropped, Nat.shiftLeft_eq]
  by_cases hn : n * 2 ^ k = 0
  · simp [hn]
  · have hlt : n * 2 ^ k < 2 ^ (53 + k) := by
      rw [Nat.pow_add]
      exact Nat.mul_lt_mul_of_pos_right h (Nat.two_pow_pos k)
    have := (Nat.log2_lt hn).mpr hlt
    omega

/-- A number of at most 53 places drops none but zeros. -/
theorem two_pow_dropped_dvd {n : Nat} (h : n < 2 ^ 53) (k : Nat) :
    2 ^ dropped (n <<< k) ∣ n <<< k := by
  have hpow : 2 ^ dropped (n <<< k) ∣ 2 ^ k := Nat.pow_dvd_pow 2 (dropped_shiftLeft_le h k)
  simpa [Nat.shiftLeft_eq] using Nat.dvd_mul_left_of_dvd hpow n

/-- Integers below `2 ^ 53` in size are doubles. -/
theorem isInteger_ofInt {i : Int} (h : i.natAbs < 2 ^ 53) : (ofInt i).isInteger i := by
  have hdropped := dropped_shiftLeft_le h 1074
  have hlt : unboundedPattern (i.natAbs <<< 1074) < infinityPattern := by
    have hkept := div_dropped_lt (i.natAbs <<< 1074)
    have hrounded := (divHalfEven_bounds (i.natAbs <<< 1074) (2 ^ dropped (i.natAbs <<< 1074))).2
    rw [unboundedPattern, infinityPattern, exponentUnit]
    omega
  have hpattern : (ofInt i).pattern = unboundedPattern (i.natAbs <<< 1074) := by
    rw [pattern_ofInt, nearestPattern_one, Nat.min_eq_right hlt.le]
  have hunits : (ofInt i).units = i.natAbs * unitsInOne := by
    rw [units, hpattern, unitsOf_unboundedPattern (two_pow_dropped_dvd h _), shiftLeft_eq_units]
  rw [isInteger_iff]
  constructor
  · simpa [isFinite, hpattern] using hlt
  · rw [signedUnits, isNegative_ofInt, hunits, Int.natCast_mul]
    by_cases hi : i < 0
    · rw [if_pos (by simpa using hi), ← Int.neg_mul, Int.ofNat_natAbs_of_nonpos hi.le, Int.neg_neg]
    · rw [if_neg (by simpa using hi), Int.natAbs_of_nonneg (by omega)]

/-- What a number stands for is told by its place in numeric order. -/
theorem signedUnits_of_orderKey? {x : Binary64} {k : Int} (h : x.orderKey? = some k) :
    x.signedUnits = if k < 0 then -(unitsOf k.natAbs : Int) else unitsOf k.natAbs := by
  rw [orderKey?] at h
  split at h
  · cases h
  · rw [Option.some.injEq] at h
    subst h
    rw [signedUnits, units]
    by_cases hneg : x.isNegative
    · by_cases hzero : x.pattern = 0
      · simp [hneg, hzero, unitsOf, exponentUnit]
      · simp [hneg, Nat.pos_of_ne_zero hzero]
    · simp [hneg]

theorem integerKey_inj {i j : Int} (hi : i.natAbs < 2 ^ 53) (hj : j.natAbs < 2 ^ 53)
    (h : integerKey i = integerKey j) : i = j := by
  have hunits : (ofInt i).signedUnits = (ofInt j).signedUnits := by
    rw [signedUnits_of_orderKey? (orderKey?_ofInt i), signedUnits_of_orderKey? (orderKey?_ofInt j), h]
  rw [(isInteger_iff.mp (isInteger_ofInt hi)).2, (isInteger_iff.mp (isInteger_ofInt hj)).2] at hunits
  exact Int.eq_of_mul_eq_mul_right (by have := unitsInOne_pos; omega) hunits

end Integers

end RecordDb.Binary64
