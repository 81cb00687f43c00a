import Mathlib.Algebra.Group.Int.Defs
import Mathlib.Algebra.Group.Nat.Defs
import Mathlib.Data.List.Basic
import RecordDb.Operation.Selection

/-!
# Computations that may fault

A step that takes an element at a place, cuts a list, subtracts lengths or adds integers faults
where it has no answer. A fault is no error of an operation, it is the end of the evaluator.
-/
namespace RecordDb.Checked

variable {α β : Type}

inductive Fault where
  /-- A place outside of a list, or a run that is not one of its runs. -/
  | place
  /-- A number that its type does not have. -/
  | overflow
  /-- A loop with more rounds than it may have. -/
  | endless

/-- An outcome, unless there is a fault on the way to it. -/
abbrev Attempt (α : Type) := ExceptT Status (Except Fault) α

def fault (f : Fault) : Attempt α := ExceptT.mk (.error f)

/-- An outcome without a fault, be it a result or an error. -/
def settled (x : Evaluated α) : Attempt α := ExceptT.mk (.ok x)

/-- Attempts that settle one after the other do so together. -/
theorem settled_bind {x : Evaluated α} {f : α → Attempt β} {g : α → Evaluated β}
    (h : ∀ a, x = .ok a → f a = settled (g a)) : settled x >>= f = settled (x >>= g) := by
  cases x with
  | error e => rfl
  | ok a => exact h a rfl

/-- A step that has an answer on a condition. -/
def require (p : Prop) [Decidable p] (f : Fault) (a : α) : Attempt α :=
  if p then pure a else fault f

theorem require_of {p : Prop} [Decidable p] {f : Fault} {a : α} (h : p) :
    require p f a = pure a := if_pos h

section Lists

variable {xs : List α} {s : Place.Span} {i : Nat} {a : α}

/-- The run starts and ends in a list of a length. -/
def Within (s : Place.Span) (length : Nat) : Prop := s.start ≤ s.stop ∧ s.stop ≤ length

instance (s : Place.Span) (length : Nat) : Decidable (Within s length) :=
  inferInstanceAs (Decidable (_ ∧ _))

def lookup (xs : List α) (i : Nat) : Attempt α :=
  match xs[i]? with
  | some a => pure a
  | none => fault .place

/-- The element at a place and the list without it. -/
def removeAt (xs : List α) (i : Nat) : Attempt (α × List α) :=
  match xs[i]? with
  | some a => pure (a, xs.eraseIdx i)
  | none => fault .place

def replaceAt (xs : List α) (i : Nat) (a : α) : Attempt (List α) :=
  require (i < xs.length) .place (xs.set i a)

def insertAt (xs : List α) (i : Nat) (a : α) : Attempt (List α) :=
  require (i ≤ xs.length) .place (xs.insertIdx i a)

def slice (xs : List α) (s : Place.Span) : Attempt (List α) :=
  require (Within s xs.length) .place (s.slice xs)

/-- The elements of a run and those that are left. -/
def drain (xs : List α) (s : Place.Span) : Attempt (List α × List α) :=
  require (Within s xs.length) .place (s.slice xs, s.rest xs)

/-- The list with other elements in the place of a run. -/
def splice (xs : List α) (s : Place.Span) (new : List α) : Attempt (List α) :=
  require (Within s xs.length) .place (xs.take s.start ++ new ++ xs.drop s.stop)

theorem lookup_of_getElem? (h : xs[i]? = some a) : lookup xs i = pure a := by
  rw [lookup, h]

theorem removeAt_of_getElem? (h : xs[i]? = some a) :
    removeAt xs i = pure (a, xs.eraseIdx i) := by
  rw [removeAt, h]

theorem within_span (length : Nat) (index : Int64) (count : Option Int64) :
    Within (Place.span length index count) length :=
  ⟨Place.span_start_le length index count, Place.span_stop_le length index count⟩

/-- Steps that all settle do so one after the other. -/
theorem mapM_eq_pure {as : List α} {f : α → Attempt β} {g : α → β}
    (h : ∀ a ∈ as, f a = pure (g a)) : as.mapM f = pure (as.map g) := by
  induction as with
  | nil => rfl
  | cons a rest ih =>
    rw [List.forall_mem_cons] at h
    rw [List.mapM_cons, h.1, ih h.2]
    rfl

/-- Elements at several places, each looked up. -/
theorem mapM_lookup {places : List Nat} (f : α → β) (h : ∀ i ∈ places, i < xs.length) :
    (places.mapM fun i => return f (← lookup xs i))
      = (pure ((places.filterMap (xs[·]?)).map f) : Attempt (List β)) := by
  induction places with
  | nil => rfl
  | cons i rest ih =>
    rw [List.forall_mem_cons] at h
    have hget : xs[i]? = some xs[i] := List.getElem?_eq_getElem h.1
    rw [List.mapM_cons, lookup_of_getElem? hget, ih h.2, List.filterMap_cons_some hget]
    rfl

end Lists

section Numbers

/-- A length less another. -/
def difference (m n : Nat) : Attempt Nat := require (n ≤ m) .overflow (m - n)

/-- An integer of 64 bits. -/
def word (z : Int) : Attempt Int64 := require (-2 ^ 63 ≤ z ∧ z < 2 ^ 63) .overflow (Int64.ofInt z)

def plus (a b : Int64) : Attempt Int64 := word (a.toInt + b.toInt)

def minus (a b : Int64) : Attempt Int64 := word (a.toInt - b.toInt)

def negated (a : Int64) : Attempt Int64 := word (-a.toInt)

/-- A sum, or the number next to it where there is none. -/
def saturatingPlus (a b : Int64) : Int64 := Int64.ofIntClamp (a.toInt + b.toInt)

/-- The place that the bits of an integer stand for. -/
def placeOf (i : Int64) : Nat := i.toUInt64.toNat

theorem word_eq {z : Int} (hmin : -2 ^ 63 ≤ z) (hmax : z < 2 ^ 63) :
    ∃ a : Int64, word z = pure a ∧ a.toInt = z :=
  ⟨Int64.ofInt z, require_of ⟨hmin, hmax⟩, Int64.toInt_ofInt_of_le hmin hmax⟩

theorem toInt_max (a b : Int64) : (max a b).toInt = max a.toInt b.toInt := by
  rw [Int.max_def, ← apply_ite Int64.toInt]
  simp only [← Int64.le_iff_toInt_le]
  rfl

theorem toInt_min (a b : Int64) : (min a b).toInt = min a.toInt b.toInt := by
  rw [Int.min_def, ← apply_ite Int64.toInt]
  simp only [← Int64.le_iff_toInt_le]
  rfl

theorem toInt_saturatingPlus (a b : Int64) :
    (saturatingPlus a b).toInt = max (-2 ^ 63) (min (a.toInt + b.toInt) (2 ^ 63 - 1)) := by
  have hmin : Int64.minValue.toInt = -2 ^ 63 := rfl
  have hmax : Int64.maxValue.toInt = 2 ^ 63 - 1 := rfl
  rw [saturatingPlus]
  by_cases hlow : Int64.minValue.toInt ≤ a.toInt + b.toInt
  · by_cases hhigh : a.toInt + b.toInt ≤ Int64.maxValue.toInt
    · rw [Int64.toInt_ofIntClamp hlow hhigh]
      omega
    · rw [Int64.ofIntClamp, dif_pos hlow, dif_neg hhigh]
      omega
  · rw [Int64.ofIntClamp, dif_neg hlow]
    omega

theorem placeOf_of_nonneg {i : Int64} (h : 0 ≤ i.toInt) : placeOf i = i.toInt.toNat :=
  Int64.toNat_toUInt64_of_le (Int64.le_iff_toInt_le.mpr h)

end Numbers

end RecordDb.Checked
