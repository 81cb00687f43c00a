import RecordDb.Proofs.Operation.Sequences
import RecordDb.Proofs.Outcomes

/-!
# What an operation may touch

A write touches its own bin, and a reading none: it puts back what it has found in a collection.
Only a failure in a collection shows that it was taken out for a while.
-/
namespace RecordDb.Evaluation

open Evaluated Selection

variable {p p' : Progress} {op : Operation} {bins bins' : Bins} {name : String}

/-- The bins that an operation may leave. -/
inductive Leaves (bins : Bins) (op : Operation) : Bins → Prop
  | unchanged : Leaves bins op bins
  | erased : op.isWrite → Leaves bins op (Dict.erase bins op.bin)
  | written (v : Value) : op.isWrite → Leaves bins op (Dict.insert bins op.bin v)

namespace Leaves

theorem get?_of_ne (h : Leaves bins op bins') (hname : name ≠ op.bin) :
    Dict.get? bins' name = Dict.get? bins name := by
  cases h with
  | unchanged => rfl
  | erased => exact Dict.get?_erase_of_ne bins hname
  | written v => exact Dict.get?_insert_of_ne bins v hname

theorem eq_of_reading (h : Leaves bins op bins') (hread : op.isWrite = false) : bins' = bins := by
  cases h with
  | unchanged => rfl
  | erased hwrite | written _ hwrite =>
    rw [hread] at hwrite
    cases hwrite

theorem ascending (h : Leaves bins op bins') (hasc : Dict.Ascending bins) :
    Dict.Ascending bins' := by
  cases h with
  | unchanged => exact hasc
  | erased => exact Dict.ascending_erase hasc op.bin
  | written v => exact Dict.ascending_insert hasc op.bin v

end Leaves

theorem bins_record (p : Progress) (bin : String) (result : Option Value) :
    (p.record bin result).bins = p.bins := by
  cases result <;> rfl

theorem ttl_record (p : Progress) (bin : String) (result : Option Value) :
    (p.record bin result).ttl = p.ttl := by
  cases result <;> rfl

theorem eq_list_of_asList? (v : Value) (xs : List Value) (h : v.asList? = some xs) :
    v = .list xs := by
  cases v <;> cases h
  rfl

theorem eq_map_of_mapEntries? (v : Value) (entries : Dict String Value)
    (h : mapEntries? v = some entries) : v = .map entries := by
  cases v <;> cases h
  rfl

section Readings

/-- A reading inside a list leaves it as it has found it. -/
theorem fst_of_list_reading {op : ListOperation} {xs : List Value}
    {done : List Value × Option Value} (hread : op.kind.isWrite = false)
    (h : list xs op = .ok done) : done.1 = xs := by
  obtain ⟨kind, bin, index, count, value⟩ := op
  rw [list] at h
  cases kind with
  | get =>
    obtain ⟨index, -, h⟩ := exists_of_bind_eq_ok h
    obtain ⟨i, -, h⟩ := exists_of_bind_eq_ok h
    cases h
    rfl
  | getRange =>
    obtain ⟨s, -, h⟩ := exists_of_bind_eq_ok h
    cases h
    rfl
  | size =>
    cases h
    rfl
  | _ => cases hread

/-- A reading inside a map leaves it as it has found it. -/
theorem fst_of_map_reading {op : MapOperation} {entries : Dict String Value}
    {done : Dict String Value × Option Value} (hread : op.kind.isWrite = false)
    (h : map entries op = .ok done) : done.1 = entries := by
  obtain ⟨kind, bin, key, value, start, stop, index, rank, count, returnType, policy⟩ := op
  rw [Evaluation.map] at h
  cases kind with
  | size =>
    cases h
    rfl
  | getByKey | getByKeyRange | getByValue | getByValueRange | getByIndex | getByIndexRange
  | getByRank | getByRankRange =>
    obtain ⟨selected, -, h⟩ := exists_of_bind_eq_ok h
    cases returnType with
    | none => cases h
    | some returnType =>
      cases h
      rfl
  | _ => cases hread

end Readings

section Steps

theorem leaves_combine {op : ScalarOperation} {make : Option Value → Value → Option Value}
    (hwrite : op.kind.isWrite) (h : (combine op make).outcome p = .ok p') :
    Leaves p.bins (.scalar op) p'.bins := by
  rw [outcome_combine] at h
  obtain ⟨operand, -, h⟩ := exists_of_bind_eq_ok h
  split at h
  · cases h
    exact .written _ hwrite
  · cases h

theorem leaves_scalar {op : ScalarOperation} (h : (scalar op).outcome p = .ok p') :
    Leaves p.bins (.scalar op) p'.bins := by
  obtain ⟨kind, bin, value, ttl⟩ := op
  rw [scalar] at h
  cases kind with
  | read =>
    dsimp only at h
    rw [Effect.outcome_modify] at h
    split at h
    · cases h
      exact .unchanged
    · cases h
      rw [bins_record]
      exact .unchanged
  | write =>
    dsimp only at h
    rw [Effect.outcome_check_bind] at h
    obtain ⟨v, -, h⟩ := exists_of_bind_eq_ok h
    split at h
    · cases h
      exact .erased rfl
    · cases h
      exact .written _ rfl
  | incr | append | prepend => exact leaves_combine rfl h
  | touch =>
    cases h
    exact .unchanged

variable {α : Type} {bin : String} {isWrite : Bool} {empty : α} {inside? : Value → Option α}
  {wrap : α → Value} {run : α → Evaluated (α × Option Value)}

/-- What is left, if not only a nil has been read where there is no bin. -/
theorem exists_of_collection_eq_ok
    (h : (collection bin isWrite empty inside? wrap run).outcome p = .ok p') :
    (isWrite = false ∧ p' = p.record bin (some .nil)) ∨
    ∃ a done, run a = .ok done ∧ p' = p.written bin (wrap done.1) done.2 ∧
      (isWrite = true ∨ ∃ v, Dict.get? p.bins bin = some v ∧ inside? v = some a) := by
  rw [outcome_collection] at h
  split at h
  · cases isWrite with
    | false =>
      cases h
      exact .inl ⟨rfl, rfl⟩
    | true =>
      obtain ⟨done, hdone, rfl⟩ := exists_of_map_eq_ok h
      exact .inr ⟨empty, done, hdone, rfl, .inl rfl⟩
  · rename_i v hget
    split at h
    · cases h
    · rename_i a ha
      obtain ⟨done, hdone, rfl⟩ := exists_of_map_eq_ok h
      exact .inr ⟨a, done, hdone, rfl, .inr ⟨v, hget, ha⟩⟩

theorem bins_of_collection_write
    (h : (collection bin true empty inside? wrap run).outcome p = .ok p') :
    ∃ v, p'.bins = Dict.insert p.bins bin v := by
  obtain ⟨hread, -⟩ | ⟨a, done, -, rfl, -⟩ := exists_of_collection_eq_ok h
  · cases hread
  · exact ⟨wrap done.1, bins_written p bin (wrap done.1) done.2⟩

/-- A reading that leaves what is inside a collection leaves the bins. -/
theorem bins_of_collection_read (hinside : ∀ v a, inside? v = some a → v = wrap a)
    (hkeep : ∀ a done, run a = .ok done → done.1 = a)
    (h : (collection bin false empty inside? wrap run).outcome p = .ok p') :
    p'.bins = p.bins := by
  obtain ⟨-, rfl⟩ | ⟨a, done, hdone, rfl, hwrite | ⟨v, hget, hv⟩⟩ := exists_of_collection_eq_ok h
  · exact bins_record p bin _
  · cases hwrite
  · rw [bins_written, hkeep a done hdone, ← hinside v a hv]
    exact Dict.insert_eq_self hget

theorem leaves_collection (hbin : op.bin = bin) (hwrite : op.isWrite = isWrite)
    (hinside : ∀ v a, inside? v = some a → v = wrap a)
    (hkeep : isWrite = false → ∀ a done, run a = .ok done → done.1 = a)
    (h : (collection bin isWrite empty inside? wrap run).outcome p = .ok p') :
    Leaves p.bins op p'.bins := by
  cases isWrite with
  | false =>
    rw [bins_of_collection_read hinside (hkeep rfl) h]
    exact .unchanged
  | true =>
    obtain ⟨v, hv⟩ := bins_of_collection_write h
    rw [hv, ← hbin]
    exact .written v hwrite

/-- In bins that ascend, a collection that has been taken out is put back to its place, where it
would have been written had it stayed. -/
theorem written_erase (hasc : Dict.Ascending p.bins) (bin : String) (v : Value)
    (result : Option Value) :
    ({ p with bins := Dict.erase p.bins bin } : Progress).written bin v result
      = p.written bin v result := by
  simp only [Progress.written, Dict.insert_erase hasc]

/-- Whatever an operation does, it leaves the bins but its own, and a reading leaves them all. -/
theorem leaves_step (h : step p op = .ok p') : Leaves p.bins op p'.bins := by
  cases op with
  | scalar op => exact leaves_scalar h
  | list op =>
    rw [step, perform] at h
    refine leaves_collection rfl rfl eq_list_of_asList? ?_ h
    intro hread xs done hdone
    exact fst_of_list_reading hread hdone
  | map op =>
    rw [step, perform] at h
    refine leaves_collection rfl rfl eq_map_of_mapEntries? ?_ h
    intro hread entries done hdone
    exact fst_of_map_reading hread hdone

theorem ttl_of_collection (h : (collection bin isWrite empty inside? wrap run).outcome p = .ok p') :
    p'.ttl = p.ttl := by
  obtain ⟨-, rfl⟩ | ⟨a, done, -, rfl, -⟩ := exists_of_collection_eq_ok h
  · exact ttl_record p bin _
  · exact ttl_record _ bin done.2

/-- Only a write, a touch, sets a time to live. -/
theorem ttl_step_of_reading (hread : op.isWrite = false) (h : step p op = .ok p') :
    p'.ttl = p.ttl := by
  cases op with
  | scalar op =>
    obtain ⟨kind, bin, value, ttl⟩ := op
    cases kind with
    | read =>
      rw [step, perform, scalar, Effect.outcome_modify] at h
      split at h
      · cases h
        rfl
      · cases h
        exact ttl_record p bin _
    | _ => cases hread
  | list op | map op =>
    rw [step, perform] at h
    exact ttl_of_collection h

end Steps

section Failures

variable {e : Status}

theorem failsClean_combine (op : ScalarOperation) (make : Option Value → Value → Option Value) :
    Effect.FailsClean (combine op make) := by
  apply Effect.FailsClean.check_bind
  intro operand
  apply Effect.FailsClean.get_bind
  intro p
  split
  · exact Effect.failsClean_modify _
  · exact Effect.failsClean_check _

theorem failsClean_scalar (op : ScalarOperation) : Effect.FailsClean (scalar op) := by
  obtain ⟨kind, bin, value, ttl⟩ := op
  rw [scalar]
  cases kind with
  | read | touch => exact Effect.failsClean_modify _
  | write =>
    apply Effect.FailsClean.check_bind
    intro v
    split
    · exact Effect.failsClean_modify _
    · exact Effect.failsClean_modify _
  | incr | append | prepend => exact failsClean_combine _ _

/-- An operation that fails inside a collection leaves it out of the bins. -/
theorem bins_of_collection_eq_error {α : Type} {bin : String} {isWrite : Bool} {empty : α}
    {inside? : Value → Option α} {wrap : α → Value} {run : α → Evaluated (α × Option Value)}
    (h : (collection bin isWrite empty inside? wrap run).run p = .error e p') :
    p'.bins = Dict.erase p.bins bin := by
  have hput (a : α) : Effect.FailsClean (liftM (run a) >>= fun done =>
      set (p.written bin (wrap done.1) done.2) : Effect Progress PUnit) := by
    apply Effect.FailsClean.check_bind
    intro done
    exact Effect.failsClean_modify fun _ => p.written bin (wrap done.1) done.2
  rw [collection, Effect.run_get_bind, Effect.run_set_bind] at h
  split at h
  · cases isWrite with
    | true => rw [hput empty _ _ _ h]
    | false => cases h
  · split at h
    · cases h
      rfl
    · rename_i a _
      rw [hput a _ _ _ h]

/-- An operation that fails has taken its own bin out at most. -/
theorem bins_of_perform_eq_error (h : (perform op).run p = .error e p') :
    p'.bins = p.bins ∨ p'.bins = Dict.erase p.bins op.bin := by
  cases op with
  | scalar op =>
    rw [failsClean_scalar op p e p' h]
    exact .inl rfl
  | list op | map op =>
    rw [perform] at h
    exact .inr (bins_of_collection_eq_error h)

/-- Whether it succeeds or fails, an operation leaves all bins but its own. -/
theorem get?_perform (p : Progress) (hname : name ≠ op.bin) :
    Dict.get? ((perform op).on p).1.bins name = Dict.get? p.bins name := by
  rw [Effect.on]
  cases h : (perform op).run p with
  | ok _ left => exact (leaves_step (Effect.outcome_eq_ok_iff.mpr h)).get?_of_ne hname
  | error e left =>
    obtain hleft | hleft := bins_of_perform_eq_error h
    · rw [hleft]
    · rw [hleft]
      exact Dict.get?_erase_of_ne p.bins hname

/-- And so do operations that end with the first failure, by induction on them. -/
theorem get?_performAll {ops : List Operation} (p : Progress) (hname : ∀ op ∈ ops, name ≠ op.bin) :
    Dict.get? ((performAll ops).on p).1.bins name = Dict.get? p.bins name := by
  induction ops generalizing p with
  | nil => rfl
  | cons op rest ih =>
    rw [List.forall_mem_cons] at hname
    have hfirst := get?_perform p hname.1
    rw [performAll, List.forM_eq_forM, List.forM_cons, Effect.on_bind]
    cases h : (perform op).on p with
    | mk left result =>
      rw [h] at hfirst
      cases result with
      | error e => exact hfirst
      | ok _ => exact (ih left hname.2).trans hfirst

end Failures

section Runs

variable {ops : List Operation}

/-- A list of operations leaves the bins that none of them writes, by induction on the
operations. -/
theorem get?_foldlM_step (h : ops.foldlM step p = .ok p')
    (hname : ∀ op ∈ ops, op.isWrite → name ≠ op.bin) :
    Dict.get? p'.bins name = Dict.get? p.bins name := by
  induction ops generalizing p with
  | nil =>
    cases h
    rfl
  | cons op rest ih =>
    rw [List.forall_mem_cons] at hname
    rw [List.foldlM_cons] at h
    obtain ⟨q, hq, h⟩ := exists_of_bind_eq_ok h
    rw [ih h hname.2]
    cases hwrite : op.isWrite with
    | false => rw [(leaves_step hq).eq_of_reading hwrite]
    | true => exact (leaves_step hq).get?_of_ne (hname.1 hwrite)

/-- Readings set no time to live, by induction on them. -/
theorem ttl_foldlM_readings (hread : ∀ op ∈ ops, op.isWrite = false)
    (h : ops.foldlM step p = .ok p') : p'.ttl = p.ttl := by
  induction ops generalizing p with
  | nil =>
    cases h
    rfl
  | cons op rest ih =>
    rw [List.forall_mem_cons] at hread
    rw [List.foldlM_cons] at h
    obtain ⟨q, hq, h⟩ := exists_of_bind_eq_ok h
    rw [ih hread.2 h, ttl_step_of_reading hread.1 hq]

/-- Whoever sets a time to live writes. -/
theorem any_isWrite_of_ttl (h : run bins ops = .ok p) (httl : p.ttl.isSome) :
    ops.any Operation.isWrite := by
  rw [run_eq_foldlM] at h
  by_contra hread
  rw [Bool.not_eq_true, List.any_eq_false] at hread
  have hnone := ttl_foldlM_readings (fun op hop => by simpa using hread op hop) h
  rw [hnone] at httl
  cases httl

end Runs

end RecordDb.Evaluation
