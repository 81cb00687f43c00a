import Mathlib.Data.List.Induction
import RecordDb.Sorting.Permutation.Short

/-!
# Insertion into a sorted list

Insertion puts a list into order. The order has to say which of two elements comes first where the
test does not, and there it has to be the order in which they come.
-/
namespace RecordDb.Sorting

variable {α : Type} {before : α → α → Bool} {r : α → α → Prop}

/-- A descending list still descends when an element is placed in it. -/
theorem pairwise_place {a : α} {descending : List α}
    (hlast : ∀ b ∈ descending, before a b = false → r b a)
    (hfirst : ∀ b ∈ descending, before a b → r a b)
    (htrans : ∀ b ∈ descending, ∀ c ∈ descending, r c b → r b a → r c a)
    (h : descending.Pairwise fun x y => r y x) :
    (place before a descending).Pairwise fun x y => r y x := by
  induction descending with
  | nil => exact List.pairwise_singleton _ _
  | cons b rest ih =>
    obtain ⟨hb, hrest⟩ := List.pairwise_cons.mp h
    by_cases hab : before a b
    · rw [place, if_pos hab]
      apply List.pairwise_cons.mpr
      constructor
      · intro c hc
        rcases List.mem_cons.mp ((place_perm before a rest).mem_iff.mp hc) with rfl | hc
        · exact hfirst b List.mem_cons_self hab
        · exact hb c hc
      · apply ih
        · exact fun c hc => hlast c (List.mem_cons_of_mem b hc)
        · exact fun c hc => hfirst c (List.mem_cons_of_mem b hc)
        · intro c hc d hd
          exact htrans c (List.mem_cons_of_mem b hc) d (List.mem_cons_of_mem b hd)
        · exact hrest
    · rw [place, if_neg hab]
      have hba : r b a := hlast b List.mem_cons_self (by simpa using hab)
      apply List.pairwise_cons.mpr
      constructor
      · intro c hc
        rcases List.mem_cons.mp hc with rfl | hc
        · exact hba
        · exact htrans b List.mem_cons_self c (List.mem_cons_of_mem b hc) (hb c hc) hba
      · exact h

/-- Insertion sorts a list, if the test is right about each two of its elements: the later one comes
first where the test says so, and else the earlier one. -/
theorem pairwise_insertAll {xs : List α}
    (htrans : ∀ x ∈ xs, ∀ y ∈ xs, ∀ z ∈ xs, r x y → r y z → r x z)
    (h : xs.Pairwise fun x y => if before y x then r y x else r x y) :
    (insertAll before [] xs).Pairwise r := by
  rw [insertAll, List.pairwise_reverse, List.reverse_nil]
  -- from the end, for the element that is placed last is compared with all others
  induction xs using List.reverseRecOn with
  | nil => exact List.Pairwise.nil
  | append_singleton xs a ih =>
    rw [List.pairwise_append] at h
    obtain ⟨hxs, -, ha⟩ := h
    rw [List.foldl_append, List.foldl_cons, List.foldl_nil]
    have hmem {b : α} (hb : b ∈ xs.foldl (fun ds x => place before x ds) []) : b ∈ xs :=
      (foldl_place_perm before [] xs).mem_iff.mp hb
    have hlisted {b : α} (hb : b ∈ xs) : b ∈ xs ++ [a] := List.mem_append_left [a] hb
    have hlast : a ∈ xs ++ [a] := List.mem_append_right xs (List.mem_singleton_self a)
    apply pairwise_place
    · intro b hb hab
      have hba := ha b (hmem hb) a (List.mem_singleton_self a)
      rwa [hab, if_neg Bool.false_ne_true] at hba
    · intro b hb hab
      have hba := ha b (hmem hb) a (List.mem_singleton_self a)
      rwa [if_pos hab] at hba
    · intro b hb c hc
      exact htrans c (hlisted (hmem hc)) b (hlisted (hmem hb)) a hlast
    · apply ih
      · intro x hx y hy z hz
        exact htrans x (hlisted hx) y (hlisted hy) z (hlisted hz)
      · exact hxs

end RecordDb.Sorting
