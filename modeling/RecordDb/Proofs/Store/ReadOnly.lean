import RecordDb.Operation.Builders
import RecordDb.Proofs.Operation.Frames
import RecordDb.Proofs.Store.Background

/-!
# Requests that only read

A request to operate that only reads leaves the store as it is, and does not find a record that is
not there.
-/
namespace RecordDb

open Evaluation

namespace Store

variable {s s' : Store} {key : Key} {ops : List Operation} {metadata : Metadata}
  {policy : Option OperatePolicy} {response : Response}

variable (hread : ∀ op ∈ ops, op.isWrite = false)
include hread

theorem any_isWrite_of_readings : ops.any Operation.isWrite = false := by
  rw [List.any_eq_false]
  intro op hop
  simp [hread op hop]

theorem eq_of_operate_readings (h : (operate key ops metadata policy).run s = .ok response s') :
    s' = s := by
  obtain ⟨id, done, -, -, rfl, -, -⟩ := operate_eq_ok h
  rw [any_isWrite_of_readings hread]
  rfl

theorem operate_readings_of_find {e : Status} (h : s.find key = .error e) :
    ((operate key ops metadata policy).on s).2 = .error e := by
  rw [find] at h
  rw [operate]
  cases hid : RecordId.ofKey key with
  | error e' =>
    rw [hid] at h
    cases h
    rfl
  | ok id =>
    rw [hid] at h
    cases hr : Dict.get? s.records id with
    | some r =>
      simp only [bind, Except.bind, hr] at h
      cases h
    | none =>
      simp only [bind, Except.bind, hr, notFound] at h
      cases h
      simp only [Effect.on_check_bind, Effect.on_get_bind, hr, any_isWrite_of_readings hread]
      rfl

end Store

/-- An operation leaves all bins but its own, and a reading its own as well: what it finds in a list
or a map stays there. So a request to operate that only reads leaves the store as it is, and fails
where the record is not found. -/
theorem operations_touch_only_their_bin :
    (∀ (p p' : Progress) (op : Operation), step p op = .ok p' →
      (∀ name, name ≠ op.bin → Dict.get? p'.bins name = Dict.get? p.bins name) ∧
      (op.isWrite = false → p'.bins = p.bins)) ∧
    (∀ (op : ListOperation) xs left result, op.kind.isWrite = false →
      list xs op = .ok (left, result) → left = xs) ∧
    (∀ (op : MapOperation) entries left result, op.kind.isWrite = false →
      map entries op = .ok (left, result) → left = entries) ∧
    ∀ (c : Cluster) (s : Store) key ops metadata policy, (∀ op ∈ ops, op.isWrite = false) →
      let served := c.serve s (.operate key ops metadata policy)
      served.1 = s ∧ ∀ e, s.find key = .error e → served.2 = .error e := by
  refine ⟨?_, ?_, ?_, ?_⟩
  · intro p p' op h
    have hleaves := leaves_step h
    exact ⟨fun name hname => hleaves.get?_of_ne hname, hleaves.eq_of_reading⟩
  · intro op xs left result hread h
    exact fst_of_list_reading hread h
  · intro op entries left result hread h
    exact fst_of_map_reading hread h
  · intro c s key ops metadata policy hread
    constructor
    · refine (Store.failsClean_operate key ops _ policy).on_induction (P := (· = s)) rfl ?_
      intro response s' h
      exact Store.eq_of_operate_readings hread h
    · intro e he
      exact Store.operate_readings_of_find hread he

/-- A pop leaves the bin beside its own, and two readings leave the store and do not find a third
mark. -/
theorem operations_touch_only_their_bin_marks :
    let p : Progress := ⟨[("l", .list [.int 1, .nil]), ("x", .int 2)], [], none⟩
    let third : Key := ⟨"test", "marks", some (.int 3), none⟩
    let served := Cluster.sample.serve Store.marks
      (.operate third [.listGet "l" 0, .mapSize "m"] none none)
    (∃ p', step p (.listPop "l" (-1)) = .ok p' ∧ p'.bins ≠ p.bins ∧
      Dict.get? p'.bins "x" = some (.int 2)) ∧
    (∃ p', step p (.listSize "l") = .ok p' ∧ p'.bins = p.bins) ∧
    served.1 = Store.marks ∧ served.2 = Store.notFound third := by
  intro p third served
  obtain ⟨hstep, -, -, hserve⟩ := operations_touch_only_their_bin
  have hpop : step p (.listPop "l" (-1))
      = .ok ⟨[("l", .list [.int 1]), ("x", .int 2)], [("l", .nil)], none⟩ := rfl
  have hsize : step p (.listSize "l") = .ok ⟨p.bins, [("l", .int 2)], none⟩ := rfl
  have hread : ∀ op ∈ [Operation.listGet "l" 0, .mapSize "m"], op.isWrite = false := by
    decide
  obtain ⟨hstore, hmissing⟩ := hserve .sample Store.marks third _ none none hread
  refine ⟨⟨_, hpop, ?_, ?_⟩, ⟨_, hsize, ?_⟩, hstore, ?_⟩
  · intro hsame
    cases hsame
  · exact (hstep _ _ _ hpop).1 "x" (by decide)
  · exact (hstep _ _ _ hsize).2 rfl
  · exact hmissing _ rfl

end RecordDb
