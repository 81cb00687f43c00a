import Mathlib.Data.List.Basic
import RecordDb.Operation.Evaluation

/-!
# Selections that go by a test

The entries that pass are reported in key order, and a removal leaves the others.
-/
namespace RecordDb.Selection

open Evaluated

variable {entries : Dict String Value} {op : MapOperation} {test test' : String × Value → Bool}

/-- The operation addresses the entries that pass a test. These it reports on, and a removal
leaves the others, while a reading leaves all. -/
structure PicksAt (entries : Dict String Value) (op : MapOperation) (test : String × Value → Bool)
    (selected : List Nat) : Prop where
  select_eq : select entries op = .ok selected
  found : selected.filterMap (entries[·]?) = entries.filter test
  removal : op.kind.isWrite → Evaluation.map entries op
    = .ok (entries.filter fun e => !test e,
        report entries selected (op.returnType.getD .none) (isSingle op.kind))
  reading : op.kind.isWrite = false → ∀ returnType, op.returnType = some returnType →
    Evaluation.map entries op = .ok (entries, report entries selected returnType (isSingle op.kind))

def Picks (entries : Dict String Value) (op : MapOperation) (test : String × Value → Bool) : Prop :=
  ∃ selected, PicksAt entries op test selected

/-- A selecting operation is evaluated on what it selects. -/
theorem map_of_select {selected : List Nat} (h : select entries op = .ok selected) :
    Evaluation.map entries op =
      if op.kind.isWrite then
        .ok (removed entries selected,
          report entries selected (op.returnType.getD .none) (isSingle op.kind))
      else match op.returnType with
        | some returnType => .ok (entries, report entries selected returnType (isSingle op.kind))
        | none => invalid "map read requires a return type" := by
  obtain ⟨kind, bin, key, value, start, stop, index, rank, count, returnType, policy⟩ := op
  cases kind with
  | setPolicy | put | putItems | increment | decrement | clear | size => cases h
  | _ =>
    simp only [Evaluation.map, h]
    rfl

theorem mem_matching {test : String → Value → Bool} {e : String × Value} {i : Nat}
    (h : (e, i) ∈ entries.zipIdx) : i ∈ matching entries test ↔ test e.1 e.2 := by
  rw [matching, List.mem_map]
  constructor
  · rintro ⟨⟨e', i'⟩, he', rfl⟩
    obtain ⟨hm, ht⟩ := List.mem_filter.mp he'
    rw [List.mk_mem_zipIdx_iff_getElem?] at h hm
    rw [h, Option.some.injEq] at hm
    exact hm ▸ ht
  · intro ht
    exact ⟨(e, i), List.mem_filter.mpr ⟨h, ht⟩, rfl⟩

theorem map_fst_filter_zipIdx (entries : Dict String Value) (test : String × Value → Bool) :
    (entries.zipIdx.filter fun e => test e.1).map Prod.fst = entries.filter test := by
  conv_rhs => rw [← List.zipIdx_map_fst 0 entries, List.filter_map]
  rfl

theorem filterMap_matching (test : String → Value → Bool) :
    (matching entries test).filterMap (entries[·]?) = entries.filter fun e => test e.1 e.2 := by
  rw [matching, List.filterMap_map, ← map_fst_filter_zipIdx, ← List.filterMap_eq_map]
  apply List.filterMap_congr
  intro e he
  exact List.mem_zipIdx_iff_getElem?.mp (List.mem_of_mem_filter he)

theorem removed_matching (test : String → Value → Bool) :
    removed entries (matching entries test) = entries.filter fun e => !test e.1 e.2 := by
  rw [removed, ← map_fst_filter_zipIdx]
  congr 1
  apply List.filter_congr
  intro e he
  rw [Bool.eq_iff_iff]
  simp [mem_matching he]

/-- What is selected by a test is picked by it. -/
theorem picks_of_matching {test : String → Value → Bool}
    (h : select entries op = .ok (matching entries test)) :
    Picks entries op fun e => test e.1 e.2 := by
  have hmap := map_of_select h
  refine ⟨_, h, filterMap_matching test, ?_, ?_⟩
  · intro hwrite
    rw [hmap, if_pos hwrite, removed_matching]
  · intro hread returnType hreturn
    rw [hmap, if_neg (by simp [hread]), hreturn]

/-- Two tests pick the same if they agree on the entries, and only then. -/
theorem Picks.iff_agree (h : Picks entries op test) :
    Picks entries op test' ↔ ∀ e ∈ entries, test e = test' e := by
  obtain ⟨selected, hselect, hfound, hremoval, hreading⟩ := h
  constructor
  · rintro ⟨selected', hselect', hfound', -, -⟩ e he
    rw [hselect, Except.ok.injEq] at hselect'
    subst hselect'
    have hsame : e ∈ entries.filter test ↔ e ∈ entries.filter test' := by
      rw [← hfound, hfound']
    simpa [List.mem_filter, he, ← Bool.eq_iff_iff] using hsame
  · intro hagree
    refine ⟨selected, hselect, ?_, ?_, hreading⟩
    · rw [hfound]
      exact List.filter_congr hagree
    · have hrest : (entries.filter fun e => !test e) = entries.filter fun e => !test' e :=
        List.filter_congr fun e he => by rw [hagree e he]
      rwa [← hrest]

end RecordDb.Selection
