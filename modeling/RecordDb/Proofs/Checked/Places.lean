import RecordDb.Operation.Evaluation
import RecordDb.Proofs.Checked.Attempts

/-!
# Places worked out in integers of 64 bits

A length is below `2 ^ 63`, so that a negative index can be added to it and a place that is not
negative compared with it, however far outside it lies.
-/
namespace RecordDb.Checked

variable {length : Nat} {xs : List Value}

/-- The place that an index denotes, before any bound is checked. -/
def offset (length : Nat) (index : Int64) : Attempt Int64 :=
  if index < 0 then plus (Int64.ofNat length) index else pure index

/-- The place of an existing element. -/
def element? (length : Nat) (index : Int64) : Attempt (Option Nat) := do
  let i ← offset length index
  return if i < 0 ∨ Int64.ofNat length ≤ i then none else some (placeOf i)

/-- The place of an existing element, an error without one. -/
def element (xs : List Value) (index : Int64) : Attempt Nat := do
  match ← element? xs.length index with
  | some i => return i
  | none => settled (Evaluated.outOfBounds index)

/-- The elements from an index on, as many as counted or all, clamped to the sequence. -/
def span (length : Nat) (index : Int64) (count : Option Int64) : Attempt Place.Span := do
  let size := Int64.ofNat length
  let i ← offset length index
  let start := if index < 0 then max i 0 else min i size
  let stop := match count with
    | some c => min (saturatingPlus start (max c 0)) size
    | none => size
  return ⟨placeOf start, placeOf stop⟩

/-- Adds nils as long as the list is shorter than a place, for so many rounds at most. -/
def filled : Nat → Int64 → List Value → Attempt (List Value)
  | 0, i, xs => require (¬ Int64.ofNat xs.length < i) .endless xs
  | rounds + 1, i, xs =>
    if Int64.ofNat xs.length < i then filled rounds i (xs ++ [.nil]) else pure xs

/-- The place of an insertion and the list, filled up to it with nils. -/
def padded (xs : List Value) (index : Int64) : Attempt (Nat × List Value) := do
  let i ← offset xs.length index
  if i < 0 then settled (Evaluated.outOfBounds index)
  else
    let past ← minus i (Int64.ofNat xs.length)
    if Place.maxPadding < past.toInt then settled (Evaluated.outOfBounds index)
    else return (placeOf i, ← filled Place.maxPadding.toNat i xs)

theorem offset_eq (h : length < 2 ^ 63) (index : Int64) :
    ∃ i, offset length index = pure i ∧ i.toInt = Place.offset length index := by
  have hmin := index.le_toInt
  have hlength := Int64.toInt_ofNat_of_lt h
  simp only [offset, Place.offset, Int64.lt_iff_toInt_lt, Int64.toInt_zero]
  split
  · rw [← hlength]
    apply word_eq <;> omega
  · exact ⟨index, rfl, rfl⟩

theorem element?_eq (h : length < 2 ^ 63) (index : Int64) :
    element? length index = pure (Place.element? length index) := by
  obtain ⟨i, hi, htoInt⟩ := offset_eq h index
  have hlength := Int64.toInt_ofNat_of_lt h
  rw [element?, hi, Place.element?, ← htoInt]
  simp only [pure_bind, Int64.lt_iff_toInt_lt, Int64.le_iff_toInt_le, Int64.toInt_zero, hlength]
  congr 1
  by_cases hbounds : 0 ≤ i.toInt ∧ i.toInt < length
  · rw [if_neg (by omega), if_pos hbounds, placeOf_of_nonneg hbounds.1]
  · rw [if_pos (by omega), if_neg hbounds]

theorem element_eq (h : xs.length < 2 ^ 63) (index : Int64) :
    element xs index = settled (Evaluation.element xs index) := by
  rw [element, element?_eq h, pure_bind, Evaluation.element]
  cases Place.element? xs.length index <;> rfl

theorem span_eq (h : length < 2 ^ 63) (index : Int64) (count : Option Int64) :
    span length index count = pure (Place.span length index count) := by
  obtain ⟨i, hi, htoInt⟩ := offset_eq h index
  have hlength := Int64.toInt_ofNat_of_lt h
  have hstart : (if index < 0 then max i 0 else min i (Int64.ofNat length)).toInt
      = min (max (Place.offset length index) 0) length := by
    simp only [Place.offset, Int64.lt_iff_toInt_lt, Int64.toInt_zero] at htoInt ⊢
    split at htoInt
    · rw [if_pos ‹_›, if_pos ‹_›, toInt_max, Int64.toInt_zero]
      omega
    · rw [if_neg ‹_›, if_neg ‹_›, toInt_min, hlength]
      omega
  rw [span, hi, pure_bind]
  dsimp only
  generalize (if index < 0 then max i 0 else min i (Int64.ofNat length)) = start at hstart ⊢
  have hstop (c : Int64) : (min (saturatingPlus start (max c 0)) (Int64.ofNat length)).toInt
      = min (start.toInt.toNat + c.toInt.toNat) length := by
    rw [toInt_min, toInt_saturatingPlus, toInt_max, Int64.toInt_zero, hlength]
    omega
  cases count with
  | none =>
    have hnonneg : 0 ≤ (Int64.ofNat length).toInt := by omega
    rw [Place.span, ← hstart, placeOf_of_nonneg (by omega), placeOf_of_nonneg hnonneg, hlength,
      Int.toNat_natCast]
  | some c =>
    have hnonneg : 0 ≤ (min (saturatingPlus start (max c 0)) (Int64.ofNat length)).toInt := by
      rw [hstop]
      omega
    rw [Place.span, ← hstart, placeOf_of_nonneg (by omega), placeOf_of_nonneg hnonneg, hstop]
    norm_cast

/-- The loop ends once the list reaches up to the place, by induction on the rounds that it has. -/
theorem filled_eq {i : Int64} {rounds : Nat} (h : xs.length < 2 ^ 63)
    (hrounds : i.toInt ≤ xs.length + rounds) :
    filled rounds i xs = pure (xs ++ List.replicate (i.toInt.toNat - xs.length) .nil) := by
  have hmax := i.toInt_lt
  have hless {xs : List Value} (h : xs.length < 2 ^ 63) :
      Int64.ofNat xs.length < i ↔ (xs.length : Int) < i.toInt := by
    rw [Int64.lt_iff_toInt_lt, Int64.toInt_ofNat_of_lt h]
  induction rounds generalizing xs with
  | zero =>
    have hdone : ¬ Int64.ofNat xs.length < i := by
      rw [hless h]
      omega
    rw [filled, require_of hdone, Nat.sub_eq_zero_of_le (by omega), List.replicate_zero,
      List.append_nil]
  | succ rounds ih =>
    rw [filled]
    by_cases hshort : (xs.length : Int) < i.toInt
    · have hsize : (xs ++ [Value.nil]).length = xs.length + 1 := List.length_append
      have hleft : i.toInt.toNat - xs.length
          = i.toInt.toNat - (xs ++ [Value.nil]).length + 1 := by omega
      rw [if_pos ((hless h).mpr hshort), ih (by omega) (by omega), hleft, List.replicate_succ,
        List.append_assoc, List.singleton_append]
    · rw [if_neg (mt (hless h).mp hshort), Nat.sub_eq_zero_of_le (by omega), List.replicate_zero,
        List.append_nil]

theorem padded_eq (h : xs.length < 2 ^ 63) (index : Int64) :
    padded xs index = settled (Evaluation.padded xs index) := by
  obtain ⟨i, hi, htoInt⟩ := offset_eq h index
  have hlength := Int64.toInt_ofNat_of_lt h
  rw [padded, Evaluation.padded, Place.insertion?, ← htoInt, hi, pure_bind]
  simp only [Int64.lt_iff_toInt_lt, Int64.toInt_zero]
  by_cases hlow : i.toInt < 0
  · rw [if_pos hlow, if_neg (by omega)]
  · have hmax := i.toInt_lt
    obtain ⟨past, hpast, hdifference⟩ : ∃ past, minus i (Int64.ofNat xs.length) = pure past ∧
        past.toInt = i.toInt - xs.length := by
      rw [← hlength]
      apply word_eq <;> omega
    rw [if_neg hlow, hpast, pure_bind, hdifference]
    by_cases hhigh : Place.maxPadding < i.toInt - xs.length
    · rw [if_pos hhigh, if_neg (by omega)]
    · rw [if_neg hhigh, if_pos (by omega), placeOf_of_nonneg (by omega),
        filled_eq h (by rw [Place.maxPadding] at *; omega)]
      rfl

end RecordDb.Checked
