import RecordDb.Sorting.Short

/-!
# Sorting short lists permutes

Sorting a short list keeps its elements, whatever the test says. Each lemma follows one definition,
from the insertion of an element to the merge of the halves.
-/
namespace RecordDb.Sorting

variable {α : Type} (before : α → α → Bool)

theorem place_perm (a : α) (xs : List α) : (place before a xs).Perm (a :: xs) := by
  induction xs with
  | nil => exact .refl _
  | cons b rest ih =>
    unfold place
    split
    · exact (ih.cons b).trans (.swap a b rest)
    · exact .refl _

theorem foldl_place_perm (descending rest : List α) :
    (rest.foldl (fun ds a => place before a ds) descending).Perm (descending ++ rest) := by
  induction rest generalizing descending with
  | nil => simp
  | cons a rest ih =>
    exact (ih _).trans
      (((place_perm before a descending).append_right rest).trans List.perm_middle.symm)

theorem insertAll_perm (done rest : List α) :
    (insertAll before done rest).Perm (done ++ rest) :=
  (List.reverse_perm _).trans
    ((foldl_place_perm before _ rest).trans ((List.reverse_perm done).append_right _))

theorem weave_perm (n : Nat) (left right : List α) :
    (weave before n left right).Perm (left ++ right) := by
  induction n generalizing left right with
  | zero =>
    unfold weave
    exact (List.reverse_perm _).trans ((List.merge_perm_append ..).trans
      ((List.reverse_perm left).append (List.reverse_perm right)))
  | succ n ih =>
    match left, right with
    | [], right => simp [weave]
    | a :: left, [] => simp [weave]
    | a :: left, b :: right =>
      unfold weave
      split
      · exact ((ih _ _).cons b).trans List.perm_middle.symm
      · exact (ih _ _).cons a

theorem four_perm (a b c d : α) :
    [a, c, b, d].Perm [a, b, c, d] ∧ [a, c, d, b].Perm [a, b, c, d] ∧
      [c, a, b, d].Perm [a, b, c, d] ∧ [c, d, a, b].Perm [a, b, c, d] ∧
      [c, a, d, b].Perm [a, b, c, d] := by
  classical
  simp only [List.perm_iff_count, List.count_cons, List.count_nil]
  refine ⟨?_, ?_, ?_, ?_, ?_⟩ <;> intro x <;> omega

/-- The two pairs of four elements, put together. -/
theorem mergePairs_perm (a b c d : α) :
    (match before c a, before d b with
      | false, false => if before c b then [a, c, b, d] else [a, b, c, d]
      | false, true => [a, c, d, b]
      | true, false => [c, a, b, d]
      | true, true => if before d a then [c, d, a, b] else [c, a, d, b]).Perm
      ([a, b] ++ [c, d]) := by
  obtain ⟨inner, last, first, swapped, outer⟩ := four_perm a b c d
  split
  · split
    · exact inner
    · exact .refl _
  · exact last
  · exact first
  · split
    · exact swapped
    · exact outer

theorem sortFour_perm (xs : List α) : (sortFour before xs).Perm xs := by
  have turned : ∀ p q : α, [q, p].Perm [p, q] := fun p q => .swap p q []
  unfold sortFour
  split
  · rename_i p q r s
    cases before q p <;> cases before s r
    · exact mergePairs_perm before p q r s
    · exact (mergePairs_perm before p q s r).trans ((turned r s).append_left [p, q])
    · exact (mergePairs_perm before q p r s).trans ((turned p q).append_right [r, s])
    · exact (mergePairs_perm before q p s r).trans ((turned p q).append (turned r s))
  · exact .refl _

theorem sortEight_perm (xs : List α) : (sortEight before xs).Perm xs := by
  have h := (weave_perm before 4 _ _).trans
    ((sortFour_perm before (xs.take 4)).append (sortFour_perm before (xs.drop 4)))
  rwa [List.take_append_drop] at h

theorem sortHalf_perm (n : Nat) (half : List α) : (sortHalf before n half).Perm half := by
  unfold sortHalf
  split
  · exact insertAll_perm before [] half
  · split
    · have h := (insertAll_perm before _ _).trans
        ((sortFour_perm before (half.take 4)).append_right (half.drop 4))
      rwa [List.take_append_drop] at h
    · have h := (insertAll_perm before _ _).trans
        ((sortEight_perm before (half.take 8)).append_right (half.drop 8))
      rwa [List.take_append_drop] at h

theorem sortShort_perm (xs : List α) : (sortShort before xs).Perm xs := by
  have h := (weave_perm before (xs.length / 2) _ _).trans
    ((sortHalf_perm before xs.length (xs.take (xs.length / 2))).append
      (sortHalf_perm before xs.length (xs.drop (xs.length / 2))))
  rwa [List.take_append_drop] at h

end RecordDb.Sorting
