import RecordDb.Proofs.Operation.Addresses
import RecordDb.Proofs.Place.Spans
import RecordDb.Proofs.Sorting.Insertion
import RecordDb.Proofs.Value.Order

/-!
# Selections by rank

Where no float occurs, entries are ranked by their values, and by their keys where the values tie,
and an operation by rank addresses what its places denote in that order.
-/
namespace RecordDb.Selection

variable {entries ranked : Dict String Value} {op : MapOperation}

/-- The value of the entry comes first, or the values tie and its key does. -/
def RanksBefore (a b : String × Value) : Prop :=
  a.2.compare b.2 = .lt ∨ a.2.compare b.2 = .eq ∧ KeyOrder.before a.1 b.1

/-- The entries by rank. -/
structure Ranks (entries ranked : Dict String Value) : Prop where
  perm : ranked.Perm entries
  ordered : ranked.Pairwise RanksBefore

section Order

theorem ranksBefore_iff_then {a b : String × Value} :
    RanksBefore a b ↔ (a.2.compare b.2).then (Value.compareKeys a.1 b.1) = .lt := by
  rw [RanksBefore, Ordering.then_eq_lt, Value.compareKeys_lt_iff]

theorem RanksBefore.asymm {a b : String × Value} (hab : RanksBefore a b) : ¬ RanksBefore b a := by
  intro hba
  rcases hab with hlt | ⟨heq, hkey⟩
  · rw [RanksBefore, Value.compare_swap b.2 a.2, hlt] at hba
    simp at hba
  · rw [RanksBefore, Value.compare_swap b.2 a.2, heq] at hba
    simp [LawfulKeyOrder.asymm hkey] at hba

mutual

theorem over_integers_of_floatless (v : Value) (h : v.floatless) :
    Value.Over {v | ∃ i, v = .int i} v := by
  cases v with
  | int i => exact ⟨i, rfl⟩
  | float x => cases h
  | list items => exact overItems_integers_of_floatless items h
  | _ => trivial

theorem overItems_integers_of_floatless (items : List Value) (h : Value.floatlessItems items) :
    Value.OverItems {v | ∃ i, v = .int i} items := by
  cases items with
  | nil => trivial
  | cons v rest =>
    rw [Value.floatlessItems, Bool.and_eq_true] at h
    exact ⟨over_integers_of_floatless v h.1, overItems_integers_of_floatless rest h.2⟩

end

theorem consistent_integers : Value.Consistent {v | ∃ i, v = .int i} := by
  constructor
  · rintro x ⟨i, hi⟩
    cases hi
  · rintro x i j ⟨k, hk⟩
    cases hk

theorem RanksBefore.trans {a b c : String × Value} (ha : a.2.floatless) (hb : b.2.floatless)
    (hc : c.2.floatless) (hab : RanksBefore a b) (hbc : RanksBefore b c) : RanksBefore a c := by
  rw [ranksBefore_iff_then] at hab hbc ⊢
  have hvalues := Value.compare_chained consistent_integers a.2 b.2 c.2
    (over_integers_of_floatless a.2 ha) (over_integers_of_floatless b.2 hb)
    (over_integers_of_floatless c.2 hc)
  have hkeys := Chained.of_transCmp Value.compareKeys a.1 b.1 c.1
  exact ((hvalues.lexicographic fun _ _ => hkeys).both (hab.trans hbc.symm)).trans hab

/-- There is but one way to rank entries. -/
theorem Ranks.unique {ranked' : Dict String Value} (h : Ranks entries ranked)
    (h' : Ranks entries ranked') : ranked = ranked' := by
  apply List.Perm.eq_of_pairwise _ h.ordered h'.ordered (h.perm.trans h'.perm.symm)
  intro a b _ _ hab hba
  exact absurd hba hab.asymm

/-- Without floats, the order of ranks is that of the values, where ties go by key. -/
theorem ranks_addressed_rankOrder (hasc : Dict.Ascending entries)
    (hfree : ∀ e ∈ entries, e.2.floatless) : Ranks entries (addressed entries (rankOrder entries))
    where
  perm := by
    have hperm := (rankOrder_perm entries).filterMap (entries[·]?)
    rwa [← addressed, ← addressed, addressed_range] at hperm
  ordered := by
    have hall : entries.all (fun e => e.2.floatless) := List.all_eq_true.mpr hfree
    rw [rankOrder, if_pos hall]
    generalize hsorted : Sorting.insertAll _ [] entries.zipIdx = sorted
    have hperm : sorted.Perm entries.zipIdx := hsorted ▸ Sorting.insertAll_perm _ [] entries.zipIdx
    have hmem {e : (String × Value) × Nat} (he : e ∈ entries.zipIdx) : e.1 ∈ entries :=
      List.mem_of_getElem? (List.mem_zipIdx_iff_getElem?.mp he)
    rw [addressed_map_snd fun e he => hperm.mem_iff.mp he, List.pairwise_map, ← hsorted]
    apply Sorting.pairwise_insertAll
    · intro x hx y hy z hz
      exact RanksBefore.trans (hfree _ (hmem hx)) (hfree _ (hmem hy)) (hfree _ (hmem hz))
    · have hkeys : (entries.zipIdx.map Prod.fst).Pairwise fun a b => KeyOrder.before a.1 b.1 := by
        rw [List.zipIdx_map_fst]
        exact hasc
      apply (List.pairwise_map.mp hkeys).imp
      intro x y hkey
      by_cases hlt : y.1.2.compare x.1.2 = .lt
      · rw [if_pos (by rw [hlt]; rfl)]
        exact .inl hlt
      · rw [if_neg (by simpa using hlt), RanksBefore, Value.compare_swap]
        cases hyx : y.1.2.compare x.1.2 with
        | lt => exact absurd hyx hlt
        | eq => exact .inr ⟨rfl, hkey⟩
        | gt => exact .inl rfl

end Order

section Places

variable {order front run back : List Nat} {rank : Int64} {count : Option Int64}

theorem cut_addressed (h : Addresses entries order)
    (hcut : Place.Cut order rank count front run back) :
    Place.Cut (addressed entries order) rank count (addressed entries front) (addressed entries run)
      (addressed entries back) := by
  obtain ⟨hparts, hstart, hsize⟩ := hcut
  have hlt {part : List Nat} (hpart : ∀ i ∈ part, i ∈ front ++ run ++ back) :
      ∀ i ∈ part, i < entries.length := by
    intro i hi
    exact h.lt i (hparts ▸ hpart i hi)
  have hfront := length_addressed (hlt fun i hi => List.mem_append_left _ (List.mem_append_left _ hi))
  have hrun := length_addressed (hlt fun i hi => List.mem_append_left _ (List.mem_append_right _ hi))
  constructor
  · rw [addressed, addressed, addressed, ← List.filterMap_append, ← List.filterMap_append, hparts,
      ← addressed]
  · rw [hfront, length_addressed h.lt]
    exact hstart
  · rw [hfront, hrun, length_addressed h.lt]
    exact hsize

/-- An operation by a range of ranks addresses a run of the entries by rank. -/
theorem map_by_rankRange (hasc : Dict.Ascending entries)
    (hkind : op.kind = .getByRankRange ∨ op.kind = .removeByRankRange) (hrank : op.rank = some rank)
    (hreturn : op.returnType = some .key) :
    ∃ front run back,
      Place.Cut (addressed entries (rankOrder entries)) rank op.count front run back ∧
      Evaluation.map entries op
        = .ok (remaining entries op run, some (.list (run.map fun e => .string e.1))) := by
  have hselect : select entries op
      = .ok ((Place.span entries.length rank op.count).slice (rankOrder entries)) := by
    rcases hkind with hkind | hkind <;> simp only [select, hkind, hrank, Evaluated.required] <;> rfl
  have hcut := Place.cut_span (rankOrder entries) rank op.count
  rw [length_rankOrder] at hcut
  refine ⟨_, _, _, cut_addressed (addresses_rankOrder entries) hcut, ?_⟩
  rw [map_of_addressed hasc hselect hreturn]
  rcases hkind with hkind | hkind <;> rw [hkind] <;> rfl

/-- An operation by rank addresses the entry that the rank denotes, if there is one. -/
theorem map_by_rank (hasc : Dict.Ascending entries)
    (hkind : op.kind = .getByRank ∨ op.kind = .removeByRank) (hrank : op.rank = some rank)
    (hreturn : op.returnType = some .key) :
    (∀ e, Place.Denotes (addressed entries (rankOrder entries)) rank e →
      Evaluation.map entries op = .ok (remaining entries op [e], some (.string e.1))) ∧
    ((¬ ∃ e, Place.Denotes (addressed entries (rankOrder entries)) rank e) →
      Evaluation.map entries op = .ok (entries, some .nil)) := by
  have hselect : select entries op
      = .ok ((Place.element? entries.length rank).bind ((rankOrder entries)[·]?)).toList := by
    rcases hkind with hkind | hkind <;> simp only [select, hkind, hrank, Evaluated.required] <;> rfl
  have horder := addresses_rankOrder entries
  have hlength : (addressed entries (rankOrder entries)).length = entries.length := by
    rw [length_addressed horder.lt, length_rankOrder]
  have hplace (e : String × Value) : Place.Denotes (addressed entries (rankOrder entries)) rank e ↔
      ((Place.element? entries.length rank).bind ((rankOrder entries)[·]?)).bind (entries[·]?)
        = some e := by
    rw [Place.denotes_iff, hlength, Option.bind_assoc]
    simp only [getElem?_addressed horder.lt]
  have hsingle : isSingle op.kind := by rcases hkind with hkind | hkind <;> rw [hkind] <;> rfl
  have hmap := map_of_addressed hasc hselect hreturn
  rw [report, ← addressed, addressed_toList, hsingle] at hmap
  constructor
  · intro e he
    rw [hmap, (hplace e).mp he]
    rfl
  · intro hnone
    have hplaces : ((Place.element? entries.length rank).bind ((rankOrder entries)[·]?)).bind
        (entries[·]?) = none := by
      apply Option.eq_none_iff_forall_ne_some.mpr
      intro e he
      exact hnone ⟨e, (hplace e).mpr he⟩
    rw [hmap, hplaces, remaining]
    simp [Dict.keys, reported]

end Places

/-- The entries of a map without floats have one order by value, where ties go by key. A range of
ranks addresses the run of that order that the rank and the count denote, and a rank the entry that
it denotes, or none. -/
theorem ranks_follow_value_order (hasc : Dict.Ascending entries)
    (hfree : ∀ e ∈ entries, e.2.floatless) :
    ∃ ranked, (∀ other, Ranks entries other ↔ other = ranked) ∧
      ∀ (op : MapOperation) (rank : Int64), op.rank = some rank → op.returnType = some .key →
        (op.kind = .getByRankRange ∨ op.kind = .removeByRankRange →
          ∃ front run back, Place.Cut ranked rank op.count front run back ∧
            Evaluation.map entries op
              = .ok (remaining entries op run, some (.list (run.map fun e => .string e.1)))) ∧
        (op.kind = .getByRank ∨ op.kind = .removeByRank →
          (∀ e, Place.Denotes ranked rank e →
            Evaluation.map entries op = .ok (remaining entries op [e], some (.string e.1))) ∧
          ((¬ ∃ e, Place.Denotes ranked rank e) →
            Evaluation.map entries op = .ok (entries, some .nil))) := by
  have hranks := ranks_addressed_rankOrder hasc hfree
  refine ⟨_, fun other => ⟨fun h => h.unique hranks, fun h => h ▸ hranks⟩, ?_⟩
  intro op rank hrank hreturn
  constructor
  · intro hkind
    exact map_by_rankRange hasc hkind hrank hreturn
  · intro hkind
    exact map_by_rank hasc hkind hrank hreturn

theorem ranks_follow_value_order_ties :
    let entries : Dict String Value :=
      [("a", .int 3), ("b", .list [.int 1]), ("c", .int 3), ("d", .nil)]
    let op := { MapOperation.new .removeByRankRange "m" with
      rank := some (-3), count := some 2, returnType := some .key }
    Dict.Ascending entries ∧ (∀ e ∈ entries, e.2.floatless) ∧
    ∃ ranked front run back, Ranks entries ranked ∧
      Place.Cut ranked (-3) (some 2) front run back ∧ run.map Prod.fst = ["a", "c"] ∧
      Evaluation.map entries op
        = .ok ([("b", .list [.int 1]), ("d", .nil)], some (.list [.string "a", .string "c"])) := by
  intro entries op
  have hasc : Dict.Ascending entries := by decide +kernel
  have hfree : ∀ e ∈ entries, e.2.floatless := by decide +kernel
  have heval : Evaluation.map entries op
      = .ok ([("b", .list [.int 1]), ("d", .nil)], some (.list [.string "a", .string "c"])) := by
    rfl
  obtain ⟨ranked, hranks, hops⟩ := ranks_follow_value_order hasc hfree
  obtain ⟨front, run, back, hcut, hmap⟩ := (hops op (-3) rfl rfl).1 (.inr rfl)
  have hkeys : run.map (fun e => Value.string e.1) = [.string "a", .string "c"] := by
    rw [heval] at hmap
    simp only [Except.ok.injEq, Prod.mk.injEq, Option.some.injEq, Value.list.injEq] at hmap
    exact hmap.2.symm
  refine ⟨hasc, hfree, ranked, front, run, back, (hranks ranked).mpr rfl, hcut, ?_, heval⟩
  have hfirst := congrArg (List.filterMap Value.asString?) hkeys
  rw [List.filterMap_map] at hfirst
  exact (List.filterMap_eq_map (f := Prod.fst)).symm ▸ hfirst

end RecordDb.Selection
