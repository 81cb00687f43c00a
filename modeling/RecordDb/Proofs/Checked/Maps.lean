import RecordDb.Proofs.Checked.Places
import RecordDb.Proofs.Operation.Addresses

/-!
# Checked operations on a map

Operations on a map, with every index that they use looked at. The keys, the values, the ranks and
their order are vectors as long as the map, so that an index of an entry is a place in each.
-/
namespace RecordDb.Checked

open Evaluated Selection

variable {entries : Dict String Value} {op : MapOperation} {selected : List Nat}

section Indexes

/-- The entries with their indexes, each looked up at its own. -/
def indexed (entries : Dict String Value) : Attempt (List ((String × Value) × Nat)) :=
  (List.range entries.length).mapM fun i => do return (← lookup entries i, i)

def matching (entries : Dict String Value) (test : String → Value → Bool) :
    Attempt (List Nat) := do
  let found := (← indexed entries).filter fun e => test e.1.1 e.1.2
  return found.map Prod.snd

/-- The indexes of the entries in value order. -/
def rankOrder (entries : Dict String Value) : Attempt (List Nat) := do
  let pairs ← indexed entries
  let before := fun (a b : (String × Value) × Nat) => a.1.2.compare b.1.2 == .lt
  let ranked :=
    if entries.all fun e => e.2.floatless then Sorting.insertAll before [] pairs
    else Sorting.sort before pairs
  return ranked.map Prod.snd

theorem indexed_eq (entries : Dict String Value) : indexed entries = pure entries.zipIdx := by
  have hrange : List.range entries.length = entries.zipIdx.map Prod.snd := by
    rw [List.zipIdx_map_snd, List.range_eq_range']
  rw [indexed, hrange, List.mapM_map, mapM_eq_pure (g := id), List.map_id]
  intro e he
  rw [Function.comp_apply, lookup_of_getElem? (List.mem_zipIdx_iff_getElem?.mp he)]
  rfl

theorem matching_eq (entries : Dict String Value) (test : String → Value → Bool) :
    matching entries test = pure (Selection.matching entries test) := by
  rw [matching, indexed_eq]
  rfl

theorem rankOrder_eq (entries : Dict String Value) :
    rankOrder entries = pure (Selection.rankOrder entries) := by
  rw [rankOrder, indexed_eq]
  rfl

end Indexes

section Selections

/-- The indexes of the entries that an operation addresses. -/
def select (entries : Dict String Value) (op : MapOperation) : Attempt (List Nat) :=
  let start := settled (required "begin" op.start)
  let stop := settled (required "end" op.stop)
  match op.kind with
  | .removeByKey | .getByKey => do
    let key ← settled (mapKey (← settled (required "key" op.key)))
    return (entries.findIdx? fun e => e.1 = key).toList
  | .removeByKeyList => do
    let keys ← settled (items (← settled (required "key" op.key)))
    let wanted ← settled (keys.mapM mapKey)
    matching entries fun k _ => wanted.contains k
  | .removeByKeyRange | .getByKeyRange => do
    let start ← start
    let stop ← stop
    matching entries fun k _ => (Value.string k).inRange start stop
  | .removeByValue | .getByValue => do
    let value ← settled (required "value" op.value)
    matching entries fun _ v => v.compare value == .eq
  | .removeByValueList => do
    let wanted ← settled (items (← settled (required "value" op.value)))
    matching entries fun _ v => wanted.any fun w => v.compare w == .eq
  | .removeByValueRange | .getByValueRange => do
    let start ← start
    let stop ← stop
    matching entries fun _ v => v.inRange start stop
  | .removeByIndex | .getByIndex => do
    return (← element? entries.length (← settled (required "index" op.index))).toList
  | .removeByIndexRange | .getByIndexRange => do
    let s ← span entries.length (← settled (required "index" op.index)) op.count
    return List.range' s.start s.size
  | .removeByRank | .getByRank => do
    let order ← rankOrder entries
    match ← element? order.length (← settled (required "rank" op.rank)) with
    | some rank => return [← lookup order rank]
    | none => return []
  | .removeByRankRange | .getByRankRange => do
    let order ← rankOrder entries
    slice order (← span order.length (← settled (required "rank" op.rank)) op.count)
  | .setPolicy | .put | .putItems | .increment | .decrement | .clear | .size =>
    settled (invalid "operation does not select entries")

theorem slice_range {s : Place.Span} {length : Nat} (h : Within s length) :
    s.slice (List.range length) = List.range' s.start s.size := by
  rw [Place.Span.slice, List.take_range, Nat.min_eq_left h.2, List.range_eq_range',
    List.drop_range', Nat.zero_add, Nat.mul_one, Place.Span.size]

theorem select_eq (h : entries.length < 2 ^ 63) :
    select entries op = settled (Selection.select entries op) := by
  obtain ⟨kind, bin, key, value, start, stop, index, rank, count, returnType, policy⟩ := op
  rw [select, Selection.select]
  cases kind with
  | setPolicy | put | putItems | increment | decrement | clear | size => rfl
  | removeByKey | getByKey =>
    apply settled_bind
    intro key _
    exact settled_bind fun key _ => rfl
  | removeByKeyList =>
    apply settled_bind
    intro keys _
    apply settled_bind
    intro keys _
    apply settled_bind
    intro wanted _
    exact matching_eq entries _
  | removeByKeyRange | getByKeyRange | removeByValueRange | getByValueRange =>
    apply settled_bind
    intro start _
    apply settled_bind
    intro stop _
    exact matching_eq entries _
  | removeByValue | getByValue =>
    apply settled_bind
    intro value _
    exact matching_eq entries _
  | removeByValueList =>
    apply settled_bind
    intro wanted _
    apply settled_bind
    intro wanted _
    exact matching_eq entries _
  | removeByIndex | getByIndex =>
    apply settled_bind
    intro index _
    rw [element?_eq h]
    rfl
  | removeByIndexRange | getByIndexRange =>
    apply settled_bind
    intro index _
    rw [span_eq h, pure_bind, ← slice_range (within_span _ _ _)]
    rfl
  | removeByRank | getByRank =>
    dsimp only
    rw [rankOrder_eq, pure_bind]
    apply settled_bind
    intro rank _
    rw [length_rankOrder, element?_eq h, pure_bind]
    cases hplace : Place.element? entries.length rank with
    | none => rfl
    | some place =>
      have hlt : place < (Selection.rankOrder entries).length := by
        rw [length_rankOrder]
        exact Place.lt_of_element?_eq_some hplace
      have hget := List.getElem?_eq_getElem hlt
      dsimp only
      rw [lookup_of_getElem? hget, Option.bind_some, hget]
      rfl
  | removeByRankRange | getByRankRange =>
    dsimp only
    rw [rankOrder_eq, pure_bind]
    apply settled_bind
    intro rank _
    have hwithin := within_span (Selection.rankOrder entries).length rank count
    rw [span_eq (by rwa [length_rankOrder]), pure_bind, slice, require_of hwithin,
      length_rankOrder]
    rfl

end Selections

section Reports

/-- The place of each index in an order, each written at its index. -/
def ranks (order : List Nat) (length : Nat) : Attempt (List Nat) :=
  order.zipIdx.foldlM (fun ranks e => replaceAt ranks e.1 e.2) (List.replicate length 0)

/-- How many entries lie behind a place in a map of a length. -/
def behind (length i : Nat) : Attempt Nat := do difference (← difference length 1) i

/-- One report for an operation on a single entry, nil without one; else a list. -/
def reported (single : Bool) (selected : List Nat) (f : Nat → Attempt Value) :
    Attempt (Option Value) := do
  let values ← selected.mapM f
  if single then
    if values.length = 0 then return some .nil else return some (← removeAt values 0).1
  else return some (.list values)

/-- The report on the selected entries. -/
def report (entries : Dict String Value) (selected : List Nat) (returnType : ReturnType)
    (single : Bool) : Attempt (Option Value) := do
  -- All ranks are worked out first, also for a report that tells none of them.
  let ranks ← ranks (← rankOrder entries) entries.length
  match returnType with
  | .none => return none
  | .count => return some (intOf selected.length)
  | .index => reported single selected fun i => return intOf i
  | .reverseIndex => reported single selected fun i => return intOf (← behind entries.length i)
  | .rank => reported single selected fun i => return intOf (← lookup ranks i)
  | .reverseRank =>
    reported single selected fun i => return intOf (← behind entries.length (← lookup ranks i))
  | .key => reported single selected fun i => return .string (← lookup entries i).1
  | .value => reported single selected fun i => return (← lookup entries i).2
  | .keyValue => do
    let found ← selected.mapM (lookup entries)
    return some (.map (Dict.ofList found))

/-- Each write leaves what the others have written, by induction on the order. -/
theorem foldlM_replaceAt {order ranks : List Nat} (start : Nat) (hnodup : order.Nodup)
    (hlt : ∀ i ∈ order, i < ranks.length) :
    ∃ ranks', (order.zipIdx start).foldlM (fun ranks e => replaceAt ranks e.1 e.2) ranks
        = pure ranks' ∧
      ∀ i, ranks'[i]? = if i ∈ order then some (start + order.idxOf i) else ranks[i]? := by
  induction order generalizing start ranks with
  | nil => exact ⟨ranks, rfl, fun i => rfl⟩
  | cons j rest ih =>
    rw [List.forall_mem_cons] at hlt
    obtain ⟨hj, hrest⟩ := List.nodup_cons.mp hnodup
    have hlt' : ∀ i ∈ rest, i < (ranks.set j start).length := by
      rw [List.length_set]
      exact hlt.2
    obtain ⟨ranks', hranks', hget⟩ := ih (start + 1) hrest hlt'
    refine ⟨ranks', ?_, ?_⟩
    · rw [List.zipIdx_cons, List.foldlM_cons, replaceAt, require_of hlt.1, pure_bind, hranks']
    · intro i
      rw [hget]
      by_cases hi : i = j
      · subst hi
        rw [if_neg hj, if_pos List.mem_cons_self, List.idxOf_cons_self,
          List.getElem?_set_self hlt.1, Nat.add_zero]
      · have hmem : i ∈ j :: rest ↔ i ∈ rest := by
          rw [List.mem_cons, or_iff_right hi]
        rw [List.getElem?_set_ne (Ne.symm hi), List.idxOf_cons_ne rest (Ne.symm hi),
          Nat.succ_eq_one_add, ← Nat.add_assoc, if_congr hmem rfl rfl]

theorem ranks_eq (entries : Dict String Value) :
    ∃ rs, ranks (Selection.rankOrder entries) entries.length = pure rs ∧
      ∀ i, i < entries.length → rs[i]? = some ((Selection.rankOrder entries).idxOf i) := by
  have haddresses := addresses_rankOrder entries
  have hlt : ∀ i ∈ Selection.rankOrder entries, i < (List.replicate entries.length 0).length := by
    rw [List.length_replicate]
    exact haddresses.lt
  obtain ⟨rs, hrs, hget⟩ := foldlM_replaceAt 0 haddresses.nodup hlt
  refine ⟨rs, hrs, ?_⟩
  intro i hi
  rw [hget, if_pos (mem_rankOrder.mpr hi), Nat.zero_add]

theorem behind_eq {length i : Nat} (h : i < length) : behind length i = pure (length - 1 - i) := by
  rw [behind, difference, require_of (by omega), pure_bind, difference, require_of (by omega)]

theorem reported_eq {single : Bool} {f : Nat → Attempt Value} {values : List Value}
    (h : selected.mapM f = pure values) :
    reported single selected f = pure (some (Selection.reported single values)) := by
  rw [reported, h]
  cases single with
  | false => rfl
  | true => cases values <;> rfl

theorem report_eq (h : ∀ i ∈ selected, i < entries.length) (returnType : ReturnType)
    (single : Bool) : report entries selected returnType single
      = pure (Selection.report entries selected returnType single) := by
  obtain ⟨ranks, hranks, hget⟩ := ranks_eq entries
  have hrank (i : Nat) (hi : i < entries.length) :
      lookup ranks i = pure ((Selection.rankOrder entries).idxOf i) :=
    lookup_of_getElem? (hget i hi)
  have hlast (i : Nat) (hi : i < entries.length) :
      (Selection.rankOrder entries).idxOf i < entries.length := by
    rw [← length_rankOrder entries]
    exact List.idxOf_lt_length_of_mem (mem_rankOrder.mpr hi)
  rw [report, rankOrder_eq, pure_bind, hranks, pure_bind]
  cases returnType with
  | none | count => rfl
  | index => exact reported_eq (mapM_eq_pure fun i _ => rfl)
  | reverseIndex =>
    apply reported_eq
    apply mapM_eq_pure
    intro i hi
    rw [behind_eq (h i hi)]
    rfl
  | rank =>
    apply reported_eq
    apply mapM_eq_pure
    intro i hi
    rw [hrank i (h i hi)]
    rfl
  | reverseRank =>
    apply reported_eq
    apply mapM_eq_pure
    intro i hi
    rw [hrank i (h i hi), pure_bind, behind_eq (hlast i (h i hi))]
    rfl
  | key => exact reported_eq (mapM_lookup (fun e => Value.string e.1) h)
  | value => exact reported_eq (mapM_lookup Prod.snd h)
  | keyValue =>
    have hfound : selected.mapM (lookup entries) = pure (selected.filterMap (entries[·]?)) := by
      simpa only [id, bind_pure, List.map_id] using mapM_lookup id h
    dsimp only
    rw [hfound]
    rfl

end Reports

section Operations

/-- The number that a decrement leaves in an entry. -/
def decreased (bin : String) : Option Value → Value → Attempt Value
  | none, .int d =>
    if d = Int64.minValue then settled (invalid ("cannot negate " ++ toString d.toInt))
    else return .int (← negated d)
  | entry, operand => settled (Evaluation.decreased bin entry operand)

/-- The map that an operation leaves, and its result. The operations on one entry use no index. -/
def map (entries : Dict String Value) (op : MapOperation) :
    Attempt (Dict String Value × Option Value) :=
  match op.kind with
  | .setPolicy | .put | .putItems | .increment | .clear | .size =>
    settled (Evaluation.map entries op)
  | .decrement => do
    let key ← settled (mapKey (← settled (required "key" op.key)))
    let next ← decreased op.bin (Dict.get? entries key) (← settled (required "value" op.value))
    return (← settled (Evaluation.putEntry entries key next op), some next)
  | kind => do
    let selected ← select entries op
    if kind.isWrite then
      let returnType := op.returnType.getD .none
      return (removed entries selected, ← report entries selected returnType (isSingle kind))
    else
      match op.returnType with
      | some returnType =>
        return (entries, ← report entries selected returnType (isSingle kind))
      | none => settled (invalid "map read requires a return type")

theorem decreased_eq (bin : String) (entry : Option Value) (operand : Value) :
    decreased bin entry operand = settled (Evaluation.decreased bin entry operand) := by
  rw [decreased.eq_def]
  split
  · rename_i d
    rw [Evaluation.decreased]
    split
    · rfl
    · have hmin := d.le_toInt
      have hmax := d.toInt_lt
      have hne : d.toInt ≠ -2 ^ 63 := fun h => ‹¬ d = Int64.minValue› (Int64.toInt_inj.mp h)
      rw [negated, word, require_of (by omega), Int64.ofInt_neg, Int64.ofInt_toInt]
      rfl
  · rfl

/-- A map in memory has a length of 63 bits. Whatever an operation is then asked to do with it, it
uses no index and takes no number that is not there. -/
theorem map_eq (h : entries.length < 2 ^ 63) :
    map entries op = settled (Evaluation.map entries op) := by
  obtain ⟨kind, bin, key, value, start, stop, index, rank, count, returnType, policy⟩ := op
  rw [map, Evaluation.map]
  cases kind with
  | setPolicy | put | putItems | increment | clear | size => rfl
  | decrement =>
    apply settled_bind
    intro key _
    apply settled_bind
    intro key _
    apply settled_bind
    intro operand _
    rw [decreased_eq]
    apply settled_bind
    intro next _
    exact settled_bind fun left _ => rfl
  | removeByKey | removeByKeyList | removeByKeyRange | removeByValue | removeByValueList
  | removeByValueRange | removeByIndex | removeByIndexRange | removeByRank | removeByRankRange =>
    dsimp only
    rw [select_eq h]
    apply settled_bind
    intro selected hselected
    simp only [report_eq (addresses_of_select hselected).lt]
    rfl
  | getByKey | getByKeyRange | getByValue | getByValueRange | getByIndex | getByIndexRange
  | getByRank | getByRankRange =>
    dsimp only
    rw [select_eq h]
    apply settled_bind
    intro selected hselected
    simp only [report_eq (addresses_of_select hselected).lt]
    cases returnType <;> rfl

end Operations

end RecordDb.Checked
