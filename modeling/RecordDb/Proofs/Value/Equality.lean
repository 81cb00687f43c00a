import RecordDb.Proofs.Value.Order

/-!
# Which values tie in the order of values

All that are equal do, and some more: maps of one size, numbers beside a NaN, and an integer beside
the double it is rounded to.
-/
namespace RecordDb.Value

mutual

/-- Equality of values, where integers and doubles are compared as numbers. A NaN equals nothing. -/
def equals : Value → Value → Bool
  | nil, nil => true
  | bool a, bool b => a == b
  | int a, int b => a == b
  | int a, float y => y.isInteger a.toInt
  | float x, int b => x.isInteger b.toInt
  | float x, float y => x.same y
  | string a, string b => a == b
  | blob a, blob b => a == b
  | list as, list bs => equalItems as bs
  | map as, map bs => equalEntries as bs
  | geo a, geo b => a == b
  | _, _ => false

def equalItems : List Value → List Value → Bool
  | [], [] => true
  | a :: as, b :: bs => equals a b && equalItems as bs
  | _, _ => false

def equalEntries : List (String × Value) → List (String × Value) → Bool
  | [], [] => true
  | (j, a) :: as, (k, b) :: bs => j == k && equals a b && equalEntries as bs
  | _, _ => false

end

mutual

/-- Whether two values differ though the order does not tell them apart: numbers of which one is a
NaN, an integer and a double next to it, two maps of one size, or two lists with such items where
they are not equal. -/
def confused : Value → Value → Bool
  | int a, float y => y.isNaN || ((Binary64.ofInt a.toInt).same y && !y.isInteger a.toInt)
  | float x, int b => x.isNaN || (x.same (.ofInt b.toInt) && !x.isInteger b.toInt)
  | float x, float y => x.isNaN || y.isNaN
  | list as, list bs => confusedItems as bs
  | map as, map bs => as.length == bs.length && !equalEntries as bs
  | _, _ => false

def confusedItems : List Value → List Value → Bool
  | a :: as, b :: bs =>
    (confused a b && (equalItems as bs || confusedItems as bs)) || (equals a b && confusedItems as bs)
  | _, _ => false

end

section Floats

theorem orderKey?_eq_none_iff {x : Binary64} : x.orderKey? = none ↔ x.isNaN := by
  simp [Binary64.orderKey?]

theorem same_iff_of_keys {x y : Binary64} {k l : Int} (hx : x.orderKey? = some k)
    (hy : y.orderKey? = some l) : x.same y ↔ k = l := by
  rw [← compareInts_eq_iff, ← compareFloats_of_keys hx hy]
  simp [Binary64.same, compareFloats, Binary64.compare?, hx, hy]

theorem compareFloats_eq_iff (x y : Binary64) :
    compareFloats x y = .eq ↔ x.isNaN ∨ y.isNaN ∨ x.same y := by
  rw [← orderKey?_eq_none_iff, ← orderKey?_eq_none_iff]
  cases hx : x.orderKey? with
  | none => simp [compareFloats_of_nan (.inl hx)]
  | some k =>
    cases hy : y.orderKey? with
    | none => simp [compareFloats_of_nan (.inr hy)]
    | some l => simp [compareFloats_of_keys hx hy, compareInts_eq_iff, same_iff_of_keys hx hy]

theorem isNaN_ofInt (i : Int) : (Binary64.ofInt i).isNaN = false := by
  rw [← Bool.not_eq_true, ← orderKey?_eq_none_iff, Binary64.orderKey?_ofInt]
  simp

/-- A double that is an integer ties with it. -/
theorem same_of_isInteger {x : Binary64} {i : Int} (h : x.isInteger i) :
    (Binary64.ofInt i).same x ∧ x.same (.ofInt i) := by
  have hx := Binary64.orderKey?_of_isInteger h
  have hi := Binary64.orderKey?_ofInt i
  exact ⟨(same_iff_of_keys hi hx).mpr rfl, (same_iff_of_keys hx hi).mpr rfl⟩

theorem isNaN_of_isInteger {x : Binary64} {i : Int} (h : x.isInteger i) : x.isNaN = false :=
  Binary64.isNaN_of_isFinite (Binary64.isInteger_iff.mp h).1

theorem isNaN_of_same {x y : Binary64} (h : x.same y) : x.isNaN = false ∧ y.isNaN = false := by
  constructor
  · by_contra hn
    have hx : x.orderKey? = none := orderKey?_eq_none_iff.mpr (by simpa using hn)
    simp [Binary64.same, Binary64.compare?, hx] at h
  · by_contra hn
    have hy : y.orderKey? = none := orderKey?_eq_none_iff.mpr (by simpa using hn)
    cases hx : x.orderKey? <;> simp [Binary64.same, Binary64.compare?, hx, hy] at h

end Floats

theorem length_of_equalEntries {as bs : List (String × Value)} (h : equalEntries as bs) :
    as.length = bs.length := by
  induction as generalizing bs with
  | nil =>
    cases bs with
    | nil => rfl
    | cons b bs => cases h
  | cons a as ih =>
    cases bs with
    | nil => cases h
    | cons b bs =>
      rw [equalEntries, Bool.and_eq_true] at h
      rw [List.length_cons, List.length_cons, ih h.2]

mutual

/-- The values that tie are the equal ones and the confused ones. -/
theorem compare_eq_iff (v w : Value) : v.compare w = .eq ↔ v.equals w ∨ v.confused w := by
  cases v with
  | list as =>
    cases w with
    | list bs => exact compareItems_eq_iff as bs
    | _ => simp [compare, equals, confused, kindRank, compareInts]
  | map as =>
    cases w with
    | map bs =>
      rw [compare, compareInts_eq_iff, Int.natCast_inj, equals, confused, Bool.and_eq_true, beq_iff_eq]
      by_cases hequal : equalEntries as bs
      · simp [hequal, length_of_equalEntries hequal]
      · simp [hequal]
    | _ => simp [compare, equals, confused, kindRank, compareInts]
  | int a =>
    cases w with
    | int b => simp [compare, compareInts_eq_iff, equals, confused, Int64.toInt_inj]
    | float y =>
      rw [compare, compareFloats_eq_iff, isNaN_ofInt, equals, confused]
      by_cases hinteger : y.isInteger a.toInt
      · simp [hinteger, (same_of_isInteger hinteger).1]
      · simp [hinteger]
    | _ => simp [compare, equals, confused, kindRank, compareInts]
  | float x =>
    cases w with
    | int b =>
      rw [compare, compareFloats_eq_iff, isNaN_ofInt, equals, confused]
      by_cases hinteger : x.isInteger b.toInt
      · simp [hinteger, (same_of_isInteger hinteger).2]
      · simp [hinteger]
    | float y =>
      rw [compare, compareFloats_eq_iff, equals, confused, Bool.or_eq_true, ← or_assoc]
      exact Or.comm
    | _ => simp [compare, equals, confused, kindRank, compareInts]
  | nil => cases w <;> simp [compare, equals, confused, kindRank, compareInts]
  | bool a =>
    cases w with
    | bool b => cases a <;> cases b <;> decide
    | _ => simp [compare, equals, confused, kindRank, compareInts]
  | string | blob | geo =>
    cases w <;> simp [compare, equals, confused, kindRank, compareInts, compareKeys_eq_iff]

theorem compareItems_eq_iff (as bs : List Value) :
    compareItems as bs = .eq ↔ equalItems as bs ∨ confusedItems as bs := by
  cases as with
  | nil => cases bs <;> simp [compareItems, equalItems, confusedItems]
  | cons a as =>
    cases bs with
    | nil => simp [compareItems, equalItems, confusedItems]
    | cons b bs =>
      rw [compareItems_cons, Ordering.then_eq_eq, compare_eq_iff a b, compareItems_eq_iff as bs]
      simp only [equalItems, confusedItems, Bool.and_eq_true, Bool.or_eq_true]
      tauto

end

mutual

theorem not_confused_of_equals (v w : Value) (h : v.equals w) : v.confused w = false := by
  cases v with
  | list as =>
    cases w with
    | list bs => exact not_confused_of_equalItems as bs h
    | _ => rfl
  | map as =>
    cases w with
    | map bs =>
      have hentries : equalEntries as bs := h
      simp [confused, hentries]
    | _ => rfl
  | int a =>
    cases w with
    | float y =>
      have hinteger : y.isInteger a.toInt := h
      simp [confused, hinteger, isNaN_of_isInteger hinteger]
    | _ => rfl
  | float x =>
    cases w with
    | int b =>
      have hinteger : x.isInteger b.toInt := h
      simp [confused, hinteger, isNaN_of_isInteger hinteger]
    | float y =>
      have hsame : x.same y := h
      simp [confused, isNaN_of_same hsame]
    | _ => rfl
  | _ => rfl

theorem not_confused_of_equalItems (as bs : List Value) (h : equalItems as bs) :
    confusedItems as bs = false := by
  cases as with
  | nil => rfl
  | cons a as =>
    cases bs with
    | nil => rfl
    | cons b bs =>
      rw [equalItems, Bool.and_eq_true] at h
      simp [confusedItems, not_confused_of_equals a b h.1, not_confused_of_equalItems as bs h.2]

end

theorem confused_iff (v w : Value) : v.confused w ↔ v.compare w = .eq ∧ v.equals w = false := by
  rw [compare_eq_iff]
  by_cases h : v.equals w
  · simp [h, not_confused_of_equals v w h]
  · simp [h]

end RecordDb.Value
