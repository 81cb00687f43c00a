import RecordDb.Sorting
import RecordDb.Sorting.Permutation.Runs

/-!
# Sorting permutes

The sort of a list is a permutation of it, whatever the test says.
-/
namespace RecordDb.Sorting

variable {α : Type} (before : α → α → Bool)

theorem sortEagerly_perm (xs : List α) : (sortEagerly before xs).Perm xs :=
  sortRuns_perm before _ (sortShort_perm before) true xs

theorem sortSplitting_perm (depth : Nat) (floor : Option α) (xs : List α) :
    (sortSplitting before depth floor xs).Perm xs := by
  induction depth generalizing floor xs with
  | zero =>
    unfold sortSplitting
    split
    · exact sortShort_perm before xs
    · exact sortEagerly_perm before xs
  | succ depth ih =>
    unfold sortSplitting
    split
    · exact sortShort_perm before xs
    · split
      · simp_all
      · exact sortEagerly_perm before xs
      · rename_i d pivot e _
        cases e
        simp only [List.partition_eq_filter_filter]
        split
        · exact ((ih none _).append_left _).trans (List.filter_append_perm _ _)
        · exact ((ih floor _).append (ih (some pivot) _)).trans (List.filter_append_perm _ _)

theorem sort_perm (xs : List α) : (sort before xs).Perm xs := by
  unfold sort
  split
  · exact insertAll_perm before [] xs
  · split
    · exact sortEagerly_perm before xs
    · exact sortRuns_perm before _ (fun part => sortSplitting_perm before _ none part) false xs

end RecordDb.Sorting
