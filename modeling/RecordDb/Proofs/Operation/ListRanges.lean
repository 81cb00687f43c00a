import RecordDb.Proofs.Operation.Removals
import RecordDb.Proofs.Place.Spans

/-!
# Operations on a range of a list

They all cut the list into the same three parts: one reads the run in the middle, two take it out
and one leaves nothing else.
-/
namespace RecordDb.Evaluation

open Evaluated Selection

variable {bins : Bins} {op : ListOperation} {xs front run back : List Value} {index : Int64}

/-- One operation on a bin that holds a list. -/
theorem run_list (op : ListOperation) (hbin : Dict.get? bins op.bin = some (.list xs)) :
    Evaluation.run bins [.list op] = (list xs op).map fun done =>
      ⟨Dict.insert bins op.bin (.list done.1), resultOf op.bin done.2, none⟩ := by
  have hop : perform (.list op) = collection op.bin op.kind.isWrite [] Value.asList? .list
      fun xs => list xs op := rfl
  exact run_collection hop hbin rfl

/-- What the operations on a range leave of a list that it cuts in three parts, and their results. -/
structure SharesCut (xs : List Value) (op : ListOperation) (front run back : List Value) : Prop where
  getRange : list xs { op with kind := .getRange } = .ok (xs, some (.list run))
  popRange : list xs { op with kind := .popRange } = .ok (front ++ back, some (.list run))
  removeRange : list xs { op with kind := .removeRange }
    = .ok (front ++ back, some (intOf run.length))
  trim : list xs { op with kind := .trim } = .ok (run, some (intOf (front.length + back.length)))

theorem sharesCut_span (hindex : op.index = some index) :
    let s := Place.span xs.length index op.count
    SharesCut xs op (xs.take s.start) (s.slice xs) (xs.drop s.stop) := by
  intro s
  have hrest : xs.length - (s.slice xs).length
      = (xs.take s.start).length + (xs.drop s.stop).length :=
    (Place.cut_span xs index op.count).length_sub
  constructor
  · simp only [list, hindex, required]
    rfl
  · simp only [list, hindex, required]
    rfl
  · simp only [list, hindex, required]
    rfl
  · rw [← hrest]
    simp only [list, hindex, required]
    rfl

/-- The four operations on a range of a list cut it in the same way. The run that a reading gives is
taken out and given by a pop, taken out and counted by a removal, and is all that a trim leaves,
which counts the rest. -/
theorem ranges_partition_lists (hbin : Dict.get? bins op.bin = some (.list xs))
    (hindex : op.index = some index) :
    ∃ front run back, Place.Cut xs index op.count front run back ∧
      Evaluation.run bins [.list { op with kind := .getRange }]
        = .ok ⟨bins, [(op.bin, .list run)], none⟩ ∧
      Evaluation.run bins [.list { op with kind := .popRange }]
        = .ok ⟨Dict.insert bins op.bin (.list (front ++ back)), [(op.bin, .list run)], none⟩ ∧
      Evaluation.run bins [.list { op with kind := .removeRange }]
        = .ok ⟨Dict.insert bins op.bin (.list (front ++ back)), [(op.bin, intOf run.length)], none⟩ ∧
      Evaluation.run bins [.list { op with kind := .trim }]
        = .ok ⟨Dict.insert bins op.bin (.list run),
            [(op.bin, intOf (front.length + back.length))], none⟩ := by
  have hcut := Place.cut_span xs index op.count
  have hshares : SharesCut xs op _ _ _ := sharesCut_span hindex
  obtain ⟨hget, hpop, hremove, htrim⟩ := hshares
  refine ⟨_, _, _, hcut, ?_, ?_, ?_, ?_⟩
  · rw [run_list { op with kind := .getRange } hbin, hget, Except.map, Dict.insert_eq_self hbin]
    rfl
  · rw [run_list { op with kind := .popRange } hbin, hpop]
    rfl
  · rw [run_list { op with kind := .removeRange } hbin, hremove]
    rfl
  · rw [run_list { op with kind := .trim } hbin, htrim]
    rfl

/-- From the last but one on, as many as an integer can count. -/
theorem ranges_partition_lists_clamped :
    let xs : Value := .list [.int 1, .nil, .string "a"]
    let op := { ListOperation.new .trim "l" with index := some (-2), count := some Int64.maxValue }
    Dict.get? [("l", xs)] op.bin = some xs ∧ op.index = some (-2) ∧
    Evaluation.run [("l", xs)] [.list op]
      = .ok ⟨[("l", .list [.nil, .string "a"])], [("l", .int 1)], none⟩ := by
  intro xs op
  have hbin : Dict.get? [("l", xs)] op.bin = some xs := rfl
  have hindex : op.index = some (-2) := rfl
  obtain ⟨front, run, back, hcut, -, -, -, htrim⟩ := ranges_partition_lists hbin hindex
  have hparts : Place.Cut [.int 1, .nil, .string "a"] (-2) op.count
      [Value.int 1] [Value.nil, Value.string "a"] [] := ⟨rfl, rfl, rfl⟩
  obtain ⟨rfl, rfl, rfl⟩ := hcut.unique hparts
  exact ⟨hbin, hindex, htrim⟩

end RecordDb.Evaluation
