/-!
# Places in a sequence

Negative places count from the end.
-/
namespace RecordDb.Place

/-- The place that an index denotes, before any bound is checked. -/
def offset (length : Nat) (index : Int64) : Int :=
  if index.toInt < 0 then length + index.toInt else index.toInt

/-- The place of an existing element. -/
def element? (length : Nat) (index : Int64) : Option Nat :=
  let i := offset length index
  if 0 ≤ i ∧ i < length then some i.toNat else none

theorem lt_of_element?_eq_some {length : Nat} {index : Int64} {i : Nat}
    (h : element? length index = some i) : i < length := by
  unfold element? at h
  by_cases hb : 0 ≤ offset length index ∧ offset length index < length
  · rw [if_pos hb, Option.some.injEq] at h
    omega
  · rw [if_neg hb] at h
    cases h

/-- A run of elements, from `start` up to but without `stop`. -/
structure Span where
  start : Nat
  stop : Nat

def Span.size (s : Span) : Nat := s.stop - s.start

/-- The elements from an index on, as many as counted or all, clamped to the sequence. -/
def span (length : Nat) (index : Int64) (count : Option Int64) : Span :=
  let start := (min (max (offset length index) 0) length).toNat
  match count with
  | none => ⟨start, length⟩
  | some c => ⟨start, min (start + c.toInt.toNat) length⟩

theorem span_start_le (length : Nat) (index : Int64) (count : Option Int64) :
    (span length index count).start ≤ (span length index count).stop := by
  unfold span
  cases count with
  | none => simp only; omega
  | some c => simp only; omega

theorem span_stop_le (length : Nat) (index : Int64) (count : Option Int64) :
    (span length index count).stop ≤ length := by
  unfold span
  cases count with
  | none => exact Nat.le_refl _
  | some c => exact Nat.min_le_right _ _

/-- How far past the end an insertion may reach. -/
def maxPadding : Int := 65536

/-- The place of an insertion, which may lie past the end. -/
def insertion? (length : Nat) (index : Int64) : Option Nat :=
  let i := offset length index
  if 0 ≤ i ∧ i - length ≤ maxPadding then some i.toNat else none

variable {α : Type}

def Span.slice (s : Span) (xs : List α) : List α := (xs.take s.stop).drop s.start

/-- What is left when the run is taken out. -/
def Span.rest (s : Span) (xs : List α) : List α := xs.take s.start ++ xs.drop s.stop

theorem take_append_slice_append_drop (s : Span) (h : s.start ≤ s.stop) (xs : List α) :
    xs.take s.start ++ s.slice xs ++ xs.drop s.stop = xs := by
  have front : xs.take s.start = (xs.take s.stop).take s.start := by
    rw [List.take_take, Nat.min_eq_left h]
  rw [Span.slice, front, List.take_append_drop, List.take_append_drop]

end RecordDb.Place
