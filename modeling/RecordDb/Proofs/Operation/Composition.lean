import RecordDb.Operation.Builders
import RecordDb.Proofs.Operation.Frames

/-!
# Composition of operation lists

Lists of operations in sequence. An operation sees the bins that the ones before it have left
and nothing else of what they have done. So a list may be run from a fresh start, and what it has
done laid over the results and the time to live of the lists before it.
-/
namespace RecordDb

/-- Whether an operation sets the time to live, be it to none. -/
def Operation.isTouch : Operation → Bool
  | .scalar op => op.kind == .touch
  | _ => false

namespace Evaluation

open Evaluated

variable {p q : Progress} {op : Operation}

/-- What has been done when some operations have run from the bins that were left, and for
themselves have done `q`. -/
def Progress.followedBy (p : Progress) (ops : List Operation) (q : Progress) : Progress where
  bins := q.bins
  results := Dict.insertAll p.results q.results
  ttl := if ops.any Operation.isTouch then q.ttl else p.ttl

/-- What three lists have done may be put together from either end. -/
theorem followedBy_followedBy (hp : Dict.Ascending p.results) (hq : Dict.Ascending q.results)
    (xs ys : List Operation) (r : Progress) :
    (p.followedBy xs q).followedBy ys r = p.followedBy (xs ++ ys) (q.followedBy ys r) := by
  simp only [Progress.followedBy, Dict.insertAll_insertAll hp hq, List.any_append]
  cases ys.any Operation.isTouch <;> simp

section Steps

variable (hop : op.isTouch = false)
include hop

theorem followedBy_of_not_touch (p : Progress) (bins results : Bins) :
    p.followedBy [op] ⟨bins, results, none⟩
      = ⟨bins, Dict.insertAll p.results results, p.ttl⟩ := by
  simp [Progress.followedBy, hop]

theorem followedBy_record (p : Progress) (bins : Bins) (bin : String) (result : Option Value) :
    p.followedBy [op] ((⟨bins, [], none⟩ : Progress).record bin result)
      = ({ p with bins } : Progress).record bin result := by
  cases result <;> exact followedBy_of_not_touch hop p bins _

theorem followedBy_written (p : Progress) (bin : String) (v : Value) (result : Option Value) :
    p.followedBy [op] ((⟨p.bins, [], none⟩ : Progress).written bin v result)
      = p.written bin v result :=
  followedBy_record hop p _ bin result

theorem collection_eq_map {α : Type} (p : Progress) (bin : String) (isWrite : Bool) (empty : α)
    (inside? : Value → Option α) (wrap : α → Value) (run : α → Evaluated (α × Option Value)) :
    (collection bin isWrite empty inside? wrap run).outcome p =
      ((collection bin isWrite empty inside? wrap run).outcome ⟨p.bins, [], none⟩).map
        (p.followedBy [op]) := by
  have hrun (a : α) : ((run a).map fun done => p.written bin (wrap done.1) done.2) =
      ((run a).map fun done => (⟨p.bins, [], none⟩ : Progress).written bin (wrap done.1) done.2).map
        (p.followedBy [op]) := by
    cases run a with
    | error e => rfl
    | ok done => exact congrArg Except.ok (followedBy_written hop p bin _ _).symm
  simp only [outcome_collection]
  cases Dict.get? p.bins bin with
  | none =>
    cases isWrite with
    | false => exact congrArg Except.ok (followedBy_record hop p p.bins bin _).symm
    | true => exact hrun empty
  | some v =>
    dsimp only
    cases inside? v with
    | none => rfl
    | some a => exact hrun a

end Steps

theorem combine_eq_map (p : Progress) {op : ScalarOperation}
    (hop : (Operation.scalar op).isTouch = false)
    (make : Option Value → Value → Option Value) :
    (combine op make).outcome p
      = ((combine op make).outcome ⟨p.bins, [], none⟩).map (p.followedBy [.scalar op]) := by
  simp only [outcome_combine]
  cases required "value" op.value with
  | error e => rfl
  | ok v =>
    simp only [bind, Except.bind]
    cases make (Dict.get? p.bins op.bin) v with
    | none => rfl
    | some w => exact congrArg Except.ok (followedBy_written hop p op.bin w none).symm

/-- Only the reading of all bins adds more than one result, and only a touch a time to live. -/
theorem scalar_eq_map (hp : Dict.Ascending p.results) (op : ScalarOperation) :
    (scalar op).outcome p
      = ((scalar op).outcome ⟨p.bins, [], none⟩).map (p.followedBy [.scalar op]) := by
  obtain ⟨kind, bin, value, ttl⟩ := op
  cases kind with
  | read =>
    have hop : (Operation.scalar ⟨.read, bin, value, ttl⟩).isTouch = false := rfl
    simp only [scalar, Effect.outcome_modify]
    split
    · have hall : Dict.insertAll p.results (Dict.insertAll [] p.bins)
          = Dict.insertAll p.results p.bins :=
        (Dict.insertAll_insertAll hp Dict.ascending_nil p.bins).symm
      have hfollowed := followedBy_of_not_touch hop p p.bins (Dict.insertAll [] p.bins)
      rw [hall] at hfollowed
      exact congrArg Except.ok hfollowed.symm
    · exact congrArg Except.ok (followedBy_record hop p p.bins bin _).symm
  | write =>
    have hop : (Operation.scalar ⟨.write, bin, value, ttl⟩).isTouch = false := rfl
    simp only [scalar, Effect.outcome_check_bind]
    cases required "value" value with
    | error e => rfl
    | ok v =>
      cases v <;> exact congrArg Except.ok (followedBy_of_not_touch hop p _ []).symm
  | incr | append | prepend => exact combine_eq_map p rfl _
  | touch => rfl

/-- A step adds to what has been done what it does from a fresh start on the same bins. -/
theorem step_eq_map (hp : Dict.Ascending p.results) (op : Operation) :
    step p op = (step ⟨p.bins, [], none⟩ op).map (p.followedBy [op]) := by
  cases op with
  | scalar op => exact scalar_eq_map hp op
  | list op | map op =>
    rw [step, step, perform]
    exact collection_eq_map rfl p _ _ _ _ _ _

theorem ascending_results_of_map {x : Evaluated Progress} {ops : List Operation}
    (hp : Dict.Ascending p.results) (h : x.map (p.followedBy ops) = .ok q) :
    Dict.Ascending q.results := by
  obtain ⟨r, -, rfl⟩ := exists_of_map_eq_ok h
  exact Dict.ascending_insertAll hp r.results

theorem ascending_results_step (hp : Dict.Ascending p.results) (h : step p op = .ok q) :
    Dict.Ascending q.results := by
  rw [step_eq_map hp] at h
  exact ascending_results_of_map hp h

/-- The same of a list of operations, by induction on it: the results ascend again after each. -/
theorem foldlM_step_eq_map (hp : Dict.Ascending p.results) (ops : List Operation) :
    ops.foldlM step p = (run p.bins ops).map (p.followedBy ops) := by
  induction ops generalizing p with
  | nil => rfl
  | cons op rest ih =>
    rw [run_eq_foldlM, List.foldlM_cons, List.foldlM_cons, step_eq_map hp]
    cases hstep : step ⟨p.bins, [], none⟩ op with
    | error e => rfl
    | ok q =>
      have hq : Dict.Ascending q.results := ascending_results_step Dict.ascending_nil hstep
      calc rest.foldlM step (p.followedBy [op] q)
        _ = (run q.bins rest).map ((p.followedBy [op] q).followedBy rest) :=
          ih (Dict.ascending_insertAll hp q.results)
        _ = ((run q.bins rest).map (q.followedBy rest)).map (p.followedBy (op :: rest)) := by
          cases run q.bins rest with
          | error e => rfl
          | ok r => exact congrArg Except.ok (followedBy_followedBy hp hq [op] rest r)
        _ = (rest.foldlM step q).map (p.followedBy (op :: rest)) := by rw [ih hq]

theorem ascending_results_run {bins : Bins} {ops : List Operation} (h : run bins ops = .ok q) :
    Dict.Ascending q.results := by
  rw [run_eq_foldlM, foldlM_step_eq_map Dict.ascending_nil] at h
  exact ascending_results_of_map Dict.ascending_nil h

theorem run_append (bins : Bins) (xs ys : List Operation) :
    run bins (xs ++ ys)
      = run bins xs >>= fun p => (run p.bins ys).map (p.followedBy ys) := by
  rw [run_eq_foldlM, List.foldlM_append, ← run_eq_foldlM]
  cases hrun : run bins xs with
  | error e => rfl
  | ok p => exact foldlM_step_eq_map (ascending_results_run hrun) ys

/-- Lists of operations compose. Two in sequence fail with the error of the first, or with the error
of the second on the bins that the first has left, and otherwise leave what the second leaves. The
results of the second stand before those of the first, bin by bin, and so does its time to live, if
it has set one. -/
theorem operation_lists_compose (bins : Bins) (xs ys : List Operation) :
    match run bins xs with
    | .error e => run bins (xs ++ ys) = .error e
    | .ok p =>
      match run p.bins ys with
      | .error e => run bins (xs ++ ys) = .error e
      | .ok q =>
        ∃ done, run bins (xs ++ ys) = .ok done ∧ done.bins = q.bins ∧
          done.results = Dict.insertAll p.results q.results ∧
          (∀ name, Dict.get? done.results name
            = (Dict.get? q.results name).or (Dict.get? p.results name)) ∧
          done.ttl = if ys.any Operation.isTouch then q.ttl else p.ttl := by
  rw [run_append]
  cases hxs : run bins xs with
  | error e => rfl
  | ok p =>
    dsimp only
    cases hys : run p.bins ys with
    | error e => simp [bind, Except.bind, hys, Except.map]
    | ok q =>
      have hdone : (run p.bins ys).map (p.followedBy ys) = .ok (p.followedBy ys q) := by
        rw [hys]
        rfl
      exact ⟨p.followedBy ys q, hdone, rfl, rfl,
        Dict.get?_insertAll p.results (ascending_results_run hys), rfl⟩

example : run [("x", .int 1)] ([.read "x", .touch "x" 5] ++ [.incr "x" (.int 1), .read ""])
    = .ok ⟨[("x", .int 2)], [("x", .int 2)], some 5⟩ := rfl

end Evaluation

end RecordDb
