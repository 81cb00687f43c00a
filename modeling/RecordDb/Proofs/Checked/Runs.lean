import RecordDb.Proofs.Checked.Lists
import RecordDb.Proofs.Checked.Maps
import RecordDb.Proofs.Operation.Bulk

/-!
# Checked lists of operations

Lists of operations, with every place, length and number that they use looked at. As long as the
lists and maps of a record fit into memory, nothing is found amiss. Whatever the operations are,
they end with a result or with an error.
-/
namespace RecordDb

open Evaluated Evaluation

namespace Checked

variable {p p' : Progress} {ops : List Operation}

/-- Runs an operation inside a collection. -/
def collection {α : Type} (p : Progress) (bin : String) (isWrite : Bool) (empty : α)
    (inside? : Value → Option α) (wrap : α → Value) (run : α → Attempt (α × Option Value)) :
    Attempt Progress := do
  match Dict.get? p.bins bin with
  | none =>
    if isWrite then
      let (a, result) ← run empty
      return p.written bin (wrap a) result
    else return p.record bin (some .nil)
  | some v =>
    match inside? v with
    | none => settled (incompatible bin)
    | some a =>
      let (a, result) ← run a
      return p.written bin (wrap a) result

/-- An operation on a whole bin has no place to look at. -/
def step (p : Progress) : Operation → Attempt Progress
  | .scalar op => settled ((scalar op).outcome p)
  | .list op =>
    collection p op.bin op.kind.isWrite [] Value.asList? .list fun xs => list xs op
  | .map op =>
    collection p op.bin op.kind.isWrite [] mapEntries? .map fun entries => map entries op

def run (bins : Bins) (ops : List Operation) : Attempt Progress :=
  ops.foldlM step ⟨bins, [], none⟩

/-- How many elements or entries a value has room for. -/
def extent : Value → Nat
  | .list xs => xs.length
  | .map entries => entries.length
  | _ => 0

/-- The lists and maps in the bins have lengths of 63 bits. -/
def InMemory (bins : Bins) : Prop := ∀ e ∈ bins, extent e.2 < 2 ^ 63

instance (bins : Bins) : Decidable (InMemory bins) :=
  inferInstanceAs (Decidable (∀ e ∈ bins, extent e.2 < 2 ^ 63))

section Steps

variable {α : Type} {bin : String} {isWrite : Bool} {empty : α} {inside? : Value → Option α}
  {wrap : α → Value} {run : α → Attempt (α × Option Value)}
  {run' : α → Evaluated (α × Option Value)}

theorem collection_eq (hempty : run empty = settled (run' empty))
    (hinside : ∀ v a, Dict.get? p.bins bin = some v → inside? v = some a →
      run a = settled (run' a)) :
    collection p bin isWrite empty inside? wrap run
      = settled ((Evaluation.collection bin isWrite empty inside? wrap run').outcome p) := by
  have hput {a : α} (ha : run a = settled (run' a)) :
      (run a >>= fun done => pure (p.written bin (wrap done.1) done.2)) =
        settled ((run' a).map fun done => p.written bin (wrap done.1) done.2) := by
    rw [ha]
    exact settled_bind fun done _ => rfl
  rw [collection, outcome_collection]
  cases hget : Dict.get? p.bins bin with
  | none =>
    cases isWrite with
    | false => rfl
    | true => exact hput hempty
  | some v =>
    dsimp only
    cases hv : inside? v with
    | none => rfl
    | some a => exact hput (hinside v a hget hv)

/-- An operation on bins that fit into memory settles. -/
theorem step_eq (h : InMemory p.bins) (op : Operation) :
    step p op = settled (Evaluation.step p op) := by
  have hfits {bin : String} {v : Value} (hget : Dict.get? p.bins bin = some v) :
      extent v < 2 ^ 63 := h _ (Dict.mem_of_get?_eq_some hget)
  cases op with
  | scalar op => rfl
  | list op =>
    rw [step, Evaluation.step, perform]
    apply collection_eq
    · exact list_eq (by decide)
    · intro v xs hget hv
      cases v <;> cases hv
      exact list_eq (hfits hget)
  | map op =>
    rw [step, Evaluation.step, perform]
    apply collection_eq
    · exact map_eq (by decide)
    · intro v entries hget hv
      cases v <;> cases hv
      exact map_eq (hfits hget)

/-- Each operation finds bins that fit into memory, by induction on the operations. -/
theorem foldlM_step_eq (h : ∀ before q, before <+: ops →
      before.foldlM Evaluation.step p = .ok q → InMemory q.bins) :
    ops.foldlM step p = settled (ops.foldlM Evaluation.step p) := by
  induction ops generalizing p with
  | nil => rfl
  | cons op rest ih =>
    rw [List.foldlM_cons, List.foldlM_cons, step_eq (h [] p List.nil_prefix rfl)]
    apply settled_bind
    intro q hq
    apply ih
    intro before q' hbefore hq'
    apply h (op :: before) q' ((List.prefix_cons_inj op).mpr hbefore)
    rw [List.foldlM_cons, hq]
    exact hq'

/-- An insertion and a replacement lengthen their list by the padding and their element at most. -/
theorem length_listIn_le {op : ListOperation} (hkind : op.kind = .insert ∨ op.kind = .set)
    (h : Evaluation.step p (.list op) = .ok p') :
    (listIn p'.bins op.bin).length ≤ (listIn p.bins op.bin).length + (2 ^ 16 + 1) := by
  have hwrite : op.kind.isWrite = true := by
    rcases hkind with hkind | hkind <;> rw [hkind] <;> rfl
  rw [Evaluation.step, perform, hwrite, collection_write] at h
  obtain ⟨xs, hxs, h⟩ := exists_of_bind_eq_ok h
  obtain ⟨done, hdone, rfl⟩ := exists_of_map_eq_ok h
  rw [listIn_of_contents_eq_ok hxs, bins_written, listIn, Dict.get?_insert_self]
  exact length_le_of_list_eq_ok hkind hdone

end Steps

end Checked

/-- Whatever operations are asked for, with whatever indexes, ranks, counts and values, evaluating
them uses no place outside of a list, takes no length from a shorter one and leaves no type of
integers, as long as the lists and maps that they go through fit into memory. So they end with the
result or the error that is theirs. An insertion or a replacement lengthens its list by the padding
and one element at most. -/
theorem evaluation_never_faults {bins : Bins} {ops : List Operation}
    (hmemory : ∀ before p, before <+: ops → run bins before = .ok p → Checked.InMemory p.bins) :
    Checked.run bins ops = Checked.settled (run bins ops) ∧
    ∀ (p p' : Progress) (op : ListOperation), op.kind = .insert ∨ op.kind = .set →
      step p (.list op) = .ok p' →
      (listIn p'.bins op.bin).length ≤ (listIn p.bins op.bin).length + (2 ^ 16 + 1) := by
  constructor
  · rw [Checked.run, run_eq_foldlM]
    apply Checked.foldlM_step_eq
    intro before p hbefore hp
    apply hmemory before p hbefore
    rw [run_eq_foldlM]
    exact hp
  · intro p p' op hkind h
    exact Checked.length_listIn_le hkind h

/-- A pop of all elements and a replacement behind the end, then a report on ranks from the end. A
place before the start is an error. -/
theorem evaluation_never_faults_extremes :
    let bins : Bins :=
      [("l", .list [.int 1, .nil]), ("m", .map [("a", .int 2), ("b", .int 1), ("c", .nil)])]
    let ops : List Operation := [.listPopRange "l" Int64.minValue (some Int64.maxValue),
      .listSet "l" 1 .nil, .mapRemoveByRankRange "m" (-2) (some Int64.maxValue) (some .reverseRank)]
    let left : Bins := [("l", .list [.nil, .nil]), ("m", .map [("c", .nil)])]
    let last : Operation := .listGet "l" Int64.minValue
    let results : Bins := [("l", .list [.int 1, .nil]), ("m", .list [.int 1, .int 0])]
    Checked.run bins ops = Checked.settled (.ok ⟨left, results, none⟩) ∧
    Checked.run bins (ops ++ [last]) = Checked.settled (outOfBounds Int64.minValue) ∧
    (listIn left "l").length ≤ 0 + (2 ^ 16 + 1) := by
  intro bins ops left last results
  have hmemory : ∀ before p, before <+: ops ++ [last] → run bins before = .ok p →
      Checked.InMemory p.bins := by
    intro before p hbefore hp
    simp only [ops, List.cons_append, List.nil_append, List.prefix_cons_iff, List.prefix_nil]
      at hbefore
    rcases hbefore with rfl | ⟨_, rfl, rfl | ⟨_, rfl, rfl | ⟨_, rfl, rfl | ⟨_, rfl, rfl⟩⟩⟩⟩
    all_goals cases hp <;> decide
  have hfirst : ∀ before p, before <+: ops → run bins before = .ok p →
      Checked.InMemory p.bins := fun before p hbefore =>
    hmemory before p (hbefore.trans (List.prefix_append ops [last]))
  obtain ⟨hrun, hgrowth⟩ := evaluation_never_faults hmemory
  refine ⟨?_, ?_, ?_⟩
  · rw [(evaluation_never_faults hfirst).1]
    rfl
  · rw [hrun]
    rfl
  · exact hgrowth ⟨[("l", .list []), ("m", .map [("c", .nil)])], [], none⟩ ⟨left, [], none⟩
      { ListOperation.new .set "l" with index := some 1, value := some .nil } (.inr rfl) rfl

end RecordDb
