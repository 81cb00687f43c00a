import Mathlib.Data.List.Basic
import RecordDb.Operation.Place

/-!
# What places stand for in a list

It is said of the parts of the list. An index is the number of elements in front of the one that it
denotes, and a span the middle of three parts.
-/
namespace RecordDb.Place

variable {α : Type} {xs front run back : List α} {index : Int64} {count : Option Int64}

/-- The index counts the elements in front of `x`, or, as a negative number, `x` and those behind
it. -/
def Denotes (xs : List α) (index : Int64) (x : α) : Prop :=
  ∃ front back, xs = front ++ x :: back ∧
    (index.toInt = front.length ∨ index.toInt = -(back.length + 1 : Int))

/-- The list is three parts, of which an index and a count denote the middle one. The index is taken
from the end if it is negative, and to the nearest end if it lies outside. The run has as many
elements as are counted, none for a negative count and all for none, as far as there are any. -/
structure Cut (xs : List α) (index : Int64) (count : Option Int64) (front run back : List α) :
    Prop where
  parts : front ++ run ++ back = xs
  start : (front.length : Int)
    = max 0 (min (xs.length : Int)
      (if index.toInt < 0 then xs.length + index.toInt else index.toInt))
  size : run.length = count.elim (xs.length - front.length) fun c =>
    min c.toInt.toNat (xs.length - front.length)

theorem element?_eq_some_iff {length i : Nat} : element? length index = some i ↔
    i < length ∧ (index.toInt = i ∨ index.toInt = (i : Int) - length) := by
  simp only [element?, offset]
  split
  · split
    · simp only [Option.some.injEq]
      omega
    · simp only [reduceCtorEq, false_iff]
      omega
  · split
    · simp only [Option.some.injEq]
      omega
    · simp only [reduceCtorEq, false_iff]
      omega

theorem insertion?_eq_some_iff {length i : Nat} :
    insertion? length index = some i ↔ (i : Int) - length ≤ maxPadding ∧
      (index.toInt = i ∨ index.toInt < 0 ∧ index.toInt = (i : Int) - length) := by
  simp only [insertion?, offset, maxPadding]
  split
  · split
    · simp only [Option.some.injEq]
      omega
    · simp only [reduceCtorEq, false_iff]
      omega
  · split
    · simp only [Option.some.injEq]
      omega
    · simp only [reduceCtorEq, false_iff]
      omega

theorem denotes_iff {x : α} :
    Denotes xs index x ↔ (element? xs.length index).bind (xs[·]?) = some x := by
  constructor
  · rintro ⟨front, back, rfl, hindex⟩
    have helement : element? (front ++ x :: back).length index = some front.length := by
      apply element?_eq_some_iff.mpr
      rw [List.length_append, List.length_cons]
      omega
    rw [helement, Option.bind_some, List.getElem?_append_right (Nat.le_refl _), Nat.sub_self,
      List.getElem?_cons_zero]
  · intro h
    obtain ⟨i, hi, hx⟩ := Option.bind_eq_some_iff.mp h
    obtain ⟨hlt, rfl⟩ := List.getElem?_eq_some_iff.mp hx
    obtain ⟨-, hindex⟩ := element?_eq_some_iff.mp hi
    refine ⟨xs.take i, xs.drop (i + 1), ?_, ?_⟩
    · rw [← List.drop_eq_getElem_cons hlt, List.take_append_drop]
    · rw [List.length_take, List.length_drop, Nat.min_eq_left (Nat.le_of_lt hlt)]
      omega

theorem length_slice {s : Span} (h : s.stop ≤ xs.length) : (s.slice xs).length = s.size := by
  rw [Span.slice, List.length_drop, List.length_take, Nat.min_eq_left h, Span.size]

theorem cut_span (xs : List α) (index : Int64) (count : Option Int64) :
    let s := span xs.length index count
    Cut xs index count (xs.take s.start) (s.slice xs) (xs.drop s.stop) := by
  intro s
  have hstart : s.start ≤ s.stop := span_start_le xs.length index count
  have hstop : s.stop ≤ xs.length := span_stop_le xs.length index count
  have hfront : (xs.take s.start).length = s.start := by
    rw [List.length_take]
    omega
  constructor
  · exact take_append_slice_append_drop s hstart xs
  · rw [hfront]
    cases count <;> simp only [s, span, offset] <;> split <;> omega
  · rw [hfront, length_slice hstop, Span.size]
    cases count with
    | none => rfl
    | some c =>
      simp only [s, span, Option.elim_some]
      omega

namespace Cut

theorem length_sub (h : Cut xs index count front run back) :
    xs.length - run.length = front.length + back.length := by
  have hparts := congrArg List.length h.parts
  rw [List.length_append, List.length_append] at hparts
  omega

/-- An index and a count cut a list in one way only. -/
theorem unique {front' run' back' : List α} (h : Cut xs index count front run back)
    (h' : Cut xs index count front' run' back') : front = front' ∧ run = run' ∧ back = back' := by
  have hfront : front.length = front'.length := by
    have hstart := h.start.trans h'.start.symm
    omega
  have hrun : run.length = run'.length := by rw [h.size, h'.size, hfront]
  have hparts := h.parts.trans h'.parts.symm
  rw [List.append_assoc, List.append_assoc] at hparts
  obtain ⟨hfronts, hparts⟩ := List.append_inj hparts hfront
  obtain ⟨hruns, hbacks⟩ := List.append_inj hparts hrun
  exact ⟨hfronts, hruns, hbacks⟩

end Cut

end RecordDb.Place
