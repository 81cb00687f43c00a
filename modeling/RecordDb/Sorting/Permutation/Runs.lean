import RecordDb.Sorting.Permutation.Short
import RecordDb.Sorting.Runs

/-!
# Sorting by runs permutes

Sorting by runs keeps the elements: the runs of a list laid out one after the other are a
permutation of it, and so is what is pending with what is still to come.
-/
namespace RecordDb.Sorting

variable {α : Type} (before : α → α → Bool)

theorem chain_append_drop (next : α → α → Bool) (a : α) (rest : List α) :
    chain next a rest ++ rest.drop (chain next a rest).length = rest := by
  induction rest generalizing a with
  | nil => simp [chain]
  | cons b rest ih =>
    unfold chain
    split
    · simp [ih b]
    · simp

theorem ordered_perm (xs : List α) :
    (ordered before xs ++ xs.drop (ordered before xs).length).Perm xs := by
  unfold ordered
  split
  · rename_i a b rest
    split
    · have h := chain_append_drop (fun x y => before y x) a (b :: rest)
      simp only [List.length_reverse, List.length_cons, List.drop_succ_cons]
      refine ((List.reverse_perm _).append_right _).trans ?_
      rw [List.cons_append, h]
    · have h := chain_append_drop (fun x y => !before y x) a (b :: rest)
      simp only [List.length_cons, List.drop_succ_cons]
      rw [List.cons_append, h]
  · simp

theorem take_append_drop_length (n : Nat) (xs : List α) :
    xs.take n ++ xs.drop (xs.take n).length = xs := by
  rw [List.length_take]
  rcases Nat.le_total n xs.length with h | h
  · rw [Nat.min_eq_left h, List.take_append_drop]
  · simp [Nat.min_eq_right h, List.take_of_length_le h]

theorem firstRun_perm (eager : Bool) (least : Nat) (xs : List α) :
    ((firstRun before eager least xs).items
      ++ xs.drop (firstRun before eager least xs).items.length).Perm xs := by
  simp only [firstRun]
  by_cases found : least ≤ (ordered before xs).length
  · simpa only [if_pos found] using ordered_perm before xs
  · cases eager
    · simp only [if_neg found, Bool.false_eq_true, if_false]
      rw [take_append_drop_length]
    · simp only [if_neg found, if_true]
      have h := sortShort_perm before (xs.take shortLength)
      rw [h.length_eq]
      refine (h.append_right _).trans ?_
      rw [take_append_drop_length]

theorem firstRun_length_pos (eager : Bool) (least : Nat) (pos : 0 < least) (a : α)
    (rest : List α) : 0 < (firstRun before eager least (a :: rest)).items.length := by
  simp only [firstRun]
  by_cases found : least ≤ (ordered before (a :: rest)).length
  · simp only [if_pos found]
    omega
  · cases eager
    · simp only [if_neg found, Bool.false_eq_true, if_false, List.length_take, List.length_cons]
      omega
    · simp only [if_neg found, if_true]
      rw [(sortShort_perm before _).length_eq]
      simp [shortLength]

theorem runs_perm (eager : Bool) (least : Nat) (pos : 0 < least) (xs : List α) :
    ((runs before eager least xs).flatMap Run.items).Perm xs := by
  match xs with
  | [] => simp [runs]
  | a :: rest =>
    rw [runs, List.flatMap_cons]
    have shorter : (rest.drop ((firstRun before eager least (a :: rest)).items.length - 1)).length <
        (a :: rest).length := by
      simp only [List.length_drop, List.length_cons]; omega
    have h := firstRun_perm before eager least (a :: rest)
    obtain ⟨k, e⟩ := Nat.exists_eq_succ_of_ne_zero
      (Nat.pos_iff_ne_zero.mp (firstRun_length_pos before eager least pos a rest))
    refine ((runs_perm eager least pos _).append_left _).trans ?_
    rw [e] at h ⊢
    simpa using h
termination_by xs.length

theorem leastRun_pos (n : Nat) (pos : 0 < n) : 0 < leastRun n := by
  unfold leastRun
  split
  · omega
  · have low : 1 ≤ n.log2 := (Nat.le_log2 (by omega)).mpr (by omega)
    have h : 1 < 1 <<< ((1 + n.log2) / 2) := by
      rw [Nat.one_shiftLeft]
      exact Nat.one_lt_two_pow (by omega)
    exact Nat.div_pos (Nat.le_add_right_of_le h) (by decide)

theorem settle_perm (finish : List α → List α) (keeps : ∀ xs, (finish xs).Perm xs)
    (run : Run α) : (run.settle finish).Perm run.items := by
  unfold Run.settle
  split
  · exact .refl _
  · exact keeps _

theorem join_perm (finish : List α → List α) (keeps : ∀ xs, (finish xs).Perm xs)
    (left right : Run α) :
    (left.join before finish right).items.Perm (left.items ++ right.items) := by
  unfold Run.join
  split
  · exact (weave_perm ..).trans
      ((settle_perm finish keeps left).append (settle_perm finish keeps right))
  · exact .refl _

/-- The elements of pending runs in the order of the list. -/
def pendingItems (pending : List (Run α × Nat)) : List α :=
  pending.reverse.flatMap fun entry => entry.1.items

theorem pendingItems_cons (run : Run α) (border : Nat) (pending : List (Run α × Nat)) :
    pendingItems ((run, border) :: pending) = pendingItems pending ++ run.items := by
  simp [pendingItems]

theorem collapse_perm (finish : List α → List α) (keeps : ∀ xs, (finish xs).Perm xs)
    (border : Nat) (pending : List (Run α × Nat)) (run : Run α) :
    (pendingItems (collapse before finish border pending run).1 ++
      (collapse before finish border pending run).2.items).Perm
      (pendingItems pending ++ run.items) := by
  induction pending generalizing run with
  | nil => exact .refl _
  | cons top pending ih =>
    unfold collapse
    split
    · refine (ih _).trans ?_
      rw [pendingItems_cons, List.append_assoc]
      exact (join_perm before finish keeps _ _).append_left _
    · exact .refl _

theorem collapse_zero_fst (finish : List α → List α) (pending : List (Run α × Nat))
    (run : Run α) : (collapse before finish 0 pending run).1 = [] := by
  induction pending generalizing run with
  | nil => rfl
  | cons top pending ih => simp [collapse, ih]

theorem joinRuns_perm (finish : List α → List α) (keeps : ∀ xs, (finish xs).Perm xs)
    (n : Nat) (pending : List (Run α × Nat)) (last : Run α) (start : Nat)
    (rest : List (Run α)) :
    (joinRuns before finish n pending last start rest).Perm
      (pendingItems pending ++ last.items ++ rest.flatMap Run.items) := by
  induction rest generalizing pending last start with
  | nil =>
    have h := collapse_perm before finish keeps 0 pending last
    rw [collapse_zero_fst before finish] at h
    refine (settle_perm finish keeps _).trans ?_
    simpa [pendingItems] using h
  | cons next rest ih =>
    unfold joinRuns
    refine (ih _ _ _).trans ?_
    rw [pendingItems_cons, List.flatMap_cons, List.append_assoc _ next.items]
    exact (collapse_perm before finish keeps _ pending last).append_right _

theorem sortRuns_perm (finish : List α → List α) (keeps : ∀ xs, (finish xs).Perm xs)
    (eager : Bool) (xs : List α) : (sortRuns before finish eager xs).Perm xs := by
  cases xs with
  | nil => simp [sortRuns, runs]
  | cons a rest =>
    have h := runs_perm before eager _ (leastRun_pos (a :: rest).length (by simp)) (a :: rest)
    unfold sortRuns
    split
    · rename_i e
      rwa [e] at h
    · rename_i first others e
      rw [e] at h
      exact (joinRuns_perm before finish keeps _ _ _ _ _).trans (by simpa [pendingItems] using h)

end RecordDb.Sorting
