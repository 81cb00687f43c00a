import RecordDb.Proofs.Operation.Addresses

/-!
# Removals beside readings

A removal finds what the reading with the same fields finds, answers the same about it, and leaves
the entries whose keys the reading does not list.
-/
namespace RecordDb

/-- The removal that goes with a reading. -/
def MapKind.removal? : MapKind → Option MapKind
  | .getByKey => some .removeByKey
  | .getByKeyRange => some .removeByKeyRange
  | .getByValue => some .removeByValue
  | .getByValueRange => some .removeByValueRange
  | .getByIndex => some .removeByIndex
  | .getByIndexRange => some .removeByIndexRange
  | .getByRank => some .removeByRank
  | .getByRankRange => some .removeByRankRange
  | _ => none

namespace Selection

variable {entries : Dict String Value} {op : MapOperation} {kind : MapKind} {selected : List Nat}

/-- The keys that an answer lists. -/
def listedKeys : Value → List String
  | .string key => [key]
  | .list keys => keys.filterMap Value.asString?
  | _ => []

theorem listedKeys_reported {single : Bool} {found : Dict String Value}
    (h : single → found.length ≤ 1) :
    listedKeys (reported single (found.map fun e => .string e.1)) = Dict.keys found := by
  cases single with
  | false =>
    rw [reported, listedKeys, List.filterMap_map, Dict.keys, ← List.filterMap_eq_map]
    rfl
  | true =>
    cases found with
    | nil => rfl
    | cons e rest =>
      cases rest with
      | nil => rfl
      | cons e' rest => simp at h

section Pairs

variable (hkind : op.kind.removal? = some kind)
include hkind

theorem isWrite_of_removal? : op.kind.isWrite = false ∧ kind.isWrite := by
  cases hget : op.kind <;> rw [hget] at hkind <;> cases hkind <;> exact ⟨rfl, rfl⟩

theorem isSingle_of_removal? : isSingle kind = isSingle op.kind := by
  cases hget : op.kind <;> rw [hget] at hkind <;> cases hkind <;> rfl

theorem select_of_removal? (entries : Dict String Value) :
    select entries { op with kind } = select entries op := by
  rw [select, select]
  cases hget : op.kind <;> rw [hget] at hkind <;> cases hkind <;> rfl

/-- Where nothing can be selected, neither of the two does anything. -/
theorem map_of_select_error {e : Status} (h : select entries op = .error e) :
    Evaluation.map entries op = .error e ∧ Evaluation.map entries { op with kind } = .error e := by
  have hremove := (select_of_removal? hkind entries).trans h
  rw [Evaluation.map, Evaluation.map]
  cases hget : op.kind <;> rw [hget] at hkind <;> cases hkind <;> rw [h, hremove] <;> exact ⟨rfl, rfl⟩

end Pairs

end Selection

namespace Evaluation

open Selection

variable {bins : Bins} {op : MapOperation} {entries : Dict String Value} {selected : List Nat}
  {returnType : ReturnType}

/-- The results of one operation. -/
def resultOf (bin : String) (result : Option Value) : Bins :=
  (result.map fun v => (bin, v)).toList

theorem record_eq (bins : Bins) (bin : String) (result : Option Value) :
    (⟨bins, [], none⟩ : Progress).record bin result = ⟨bins, resultOf bin result, none⟩ := by
  cases result <;> rfl

/-- One operation on a bin that holds a collection. -/
theorem run_collection {α : Type} {op : Operation} {bin : String} {isWrite : Bool} {empty a : α}
    {inside? : Value → Option α} {wrap : α → Value} {f : α → Evaluated (α × Option Value)} {v : Value}
    (hop : perform op = collection bin isWrite empty inside? wrap f)
    (hget : Dict.get? bins bin = some v) (hinside : inside? v = some a) :
    run bins [op] = (f a).map fun done =>
      ⟨Dict.insert bins bin (wrap done.1), resultOf bin done.2, none⟩ := by
  rw [run_eq_foldlM, List.foldlM_cons, step, hop, outcome_collection]
  simp only [hget, hinside]
  cases f a with
  | error e => rfl
  | ok done => exact congrArg Except.ok (record_eq _ bin done.2)

section Single

variable (op) (hbin : Dict.get? bins op.bin = some (.map entries))
include hbin

/-- One operation on a bin that holds a map. -/
theorem run_map : run bins [.map op] = (map entries op).map fun done =>
    ⟨Dict.insert bins op.bin (.map done.1), resultOf op.bin done.2, none⟩ := by
  have hop : perform (.map op) = collection op.bin op.kind.isWrite [] mapEntries? .map
      fun entries => map entries op := rfl
  exact run_collection hop hbin rfl

theorem run_map_of_select (hasc : Dict.Ascending entries) (h : select entries op = .ok selected)
    (hreturn : op.returnType = some returnType) :
    run bins [.map op] = .ok ⟨Dict.insert bins op.bin
        (.map (remaining entries op (addressed entries selected))),
      resultOf op.bin (report entries selected returnType (isSingle op.kind)), none⟩ := by
  rw [run_map op hbin, map_of_addressed hasc h hreturn]
  rfl

theorem run_reading (hasc : Dict.Ascending entries) (h : select entries op = .ok selected)
    (hreturn : op.returnType = some returnType) (hread : op.kind.isWrite = false) :
    run bins [.map op] = .ok ⟨bins,
      resultOf op.bin (report entries selected returnType (isSingle op.kind)), none⟩ := by
  rw [run_map_of_select op hbin hasc h hreturn, remaining, if_neg (by simp [hread]),
    Dict.insert_eq_self hbin]

theorem run_removal (hasc : Dict.Ascending entries) (h : select entries op = .ok selected)
    (hreturn : op.returnType = some returnType) (hwrite : op.kind.isWrite) :
    run bins [.map op] = .ok ⟨Dict.insert bins op.bin
        (.map (entries.filter fun e => e.1 ∉ Dict.keys (addressed entries selected))),
      resultOf op.bin (report entries selected returnType (isSingle op.kind)), none⟩ := by
  rw [run_map_of_select op hbin hasc h hreturn, remaining, if_pos hwrite]

end Single

/-- A removal fails exactly when the reading with the same fields does, and with the same error, or
has the same results. It leaves the entries whose keys the reading does not list, of which there are
as many as the reading does not count. -/
theorem removals_agree_with_readings {get : MapOperation} {kind : MapKind}
    (hbin : Dict.get? bins get.bin = some (.map entries)) (hasc : Dict.Ascending entries)
    (hkind : get.kind.removal? = some kind) (hreturn : get.returnType = some returnType) :
    let remove := { get with kind }
    (∃ e, run bins [.map get] = .error e ∧ run bins [.map remove] = .error e) ∨
    ∃ results keys count,
      let left := entries.filter fun e => e.1 ∉ listedKeys keys
      run bins [.map get] = .ok ⟨bins, results, none⟩ ∧
      run bins [.map { get with returnType := some .key }]
        = .ok ⟨bins, [(get.bin, keys)], none⟩ ∧
      run bins [.map { get with returnType := some .count }]
        = .ok ⟨bins, [(get.bin, intOf count)], none⟩ ∧
      run bins [.map remove] = .ok ⟨Dict.insert bins get.bin (.map left), results, none⟩ ∧
      count + left.length = entries.length := by
  intro remove
  obtain ⟨hread, hwrite⟩ := isWrite_of_removal? hkind
  cases hselect : select entries get with
  | error e =>
    obtain ⟨hget, hremove⟩ := map_of_select_error hkind hselect
    refine .inl ⟨e, ?_, ?_⟩
    · rw [run_map get hbin, hget]
      rfl
    · rw [run_map remove hbin, hremove]
      rfl
  | ok selected =>
    have haddresses := addresses_of_select hselect
    let keys := reported (isSingle get.kind)
      ((addressed entries selected).map fun e => .string e.1)
    have hlisted : listedKeys keys = Dict.keys (addressed entries selected) := by
      apply listedKeys_reported
      intro hsingle
      rw [length_addressed haddresses.lt]
      exact length_le_one_of_isSingle hselect hsingle
    have hanswer (t : ReturnType) : run bins [.map { get with returnType := some t }]
        = .ok ⟨bins, resultOf get.bin (report entries selected t (isSingle get.kind)), none⟩ :=
      run_reading { get with returnType := some t } hbin hasc hselect rfl hread
    refine .inr ⟨resultOf get.bin (report entries selected returnType (isSingle get.kind)), keys,
      selected.length, ?_, hanswer .key, hanswer .count, ?_, ?_⟩
    · exact run_reading get hbin hasc hselect hreturn hread
    · have hsame : select entries remove = .ok selected :=
        (select_of_removal? hkind entries).trans hselect
      rw [hlisted, ← isSingle_of_removal? hkind]
      exact run_removal remove hbin hasc hsame hreturn hwrite
    · rw [hlisted, ← removed_eq hasc haddresses]
      exact length_add_length_removed hasc haddresses

/-- The two middle ranks of four, with their ranks from the other end. -/
theorem removals_agree_with_readings_ranks :
    let entries : Dict String Value :=
      [("a", .int 3), ("b", .list [.int 1]), ("c", .int 3), ("d", .nil)]
    let get := { MapOperation.new .getByRankRange "m" with
      rank := some (-3), count := some 2, returnType := some .reverseRank }
    let results : Bins := [("m", .list [.int 2, .int 1])]
    Dict.Ascending entries ∧ get.kind.removal? = some .removeByRankRange ∧
    run [("m", .map entries)] [.map get] = .ok ⟨[("m", .map entries)], results, none⟩ ∧
    run [("m", .map entries)] [.map { get with kind := .removeByRankRange }]
      = .ok ⟨[("m", .map [("b", .list [.int 1]), ("d", .nil)])], results, none⟩ := by
  intro entries get results
  have hasc : Dict.Ascending entries := by decide +kernel
  have hbin : Dict.get? ([("m", .map entries)] : Bins) get.bin = some (.map entries) := rfl
  have hkind : get.kind.removal? = some .removeByRankRange := rfl
  have hreturn : get.returnType = some .reverseRank := rfl
  have hget : run [("m", .map entries)] [.map get]
      = .ok ⟨[("m", .map entries)], results, none⟩ := rfl
  have hkeys : run [("m", .map entries)] [.map { get with returnType := some .key }]
      = .ok ⟨[("m", .map entries)], [("m", .list [.string "a", .string "c"])], none⟩ := rfl
  refine ⟨hasc, hkind, hget, ?_⟩
  rcases removals_agree_with_readings hbin hasc hkind hreturn with
    ⟨e, herror, -⟩ | ⟨results', keys, count, hget', hkeys', -, hremove, -⟩
  · rw [hget] at herror
    cases herror
  · rw [hget] at hget'
    rw [hkeys] at hkeys'
    cases hget'
    cases hkeys'
    exact hremove

end Evaluation

end RecordDb
