import RecordDb.Proofs.Dict.Keys
import RecordDb.Proofs.Operation.Frames

/-!
# Operations that only take elements out

In the place of a bin that is absent they leave an empty list or map, and they create nothing else.
-/
namespace RecordDb

def ListKind.isRemoval : ListKind → Bool
  | .pop | .popRange | .remove | .removeRange | .clear | .trim => true
  | _ => false

def MapKind.isRemoval : MapKind → Bool
  | .clear | .removeByKey | .removeByKeyList | .removeByKeyRange | .removeByValue
  | .removeByValueList | .removeByValueRange | .removeByIndex | .removeByIndexRange
  | .removeByRank | .removeByRankRange => true
  | _ => false

namespace Operation

/-- Whether the operation only takes elements out of a collection. -/
def isRemoval : Operation → Bool
  | scalar _ => false
  | list op => op.kind.isRemoval
  | map op => op.kind.isRemoval

/-- Whether the operation takes out the element at an index, which has to be there. -/
def takesElement : Operation → Bool
  | list op => op.kind = .pop ∨ op.kind = .remove
  | _ => false

/-- The collection without elements that the operation works on when its bin is absent. -/
def bareCollection : Operation → Value
  | scalar _ => .nil
  | list _ => .list []
  | map _ => .map []

end Operation

namespace Evaluation

open Evaluated Selection

variable {p p' : Progress} {op : Operation} {ops : List Operation} {bins : Bins} {name : String}

section Collections

theorem element_nil (index : Int64) : element [] index = outOfBounds index := by
  have hnone : Place.element? ([] : List Value).length index = none := by
    apply Option.eq_none_iff_forall_ne_some.mpr
    intro i hi
    exact absurd (Place.lt_of_element?_eq_some hi) (Nat.not_lt_zero i)
  rw [element, hnone]

theorem rest_nil {α : Type} (s : Place.Span) : s.rest ([] : List α) = [] := by
  rw [Place.Span.rest, List.take_nil, List.drop_nil, List.append_nil]

theorem slice_nil {α : Type} (s : Place.Span) : s.slice ([] : List α) = [] := by
  rw [Place.Span.slice, List.take_nil, List.drop_nil]

/-- Nothing can be taken out of an empty list, and an element that has to be there is missing. -/
theorem list_removal_nil {op : ListOperation} {done : List Value × Option Value}
    (hop : op.kind.isRemoval) (h : list [] op = .ok done) :
    done.1 = [] ∧ (Operation.list op).takesElement = false := by
  obtain ⟨kind, bin, index, count, value⟩ := op
  rw [list] at h
  cases kind with
  | pop | remove =>
    obtain ⟨index, -, h⟩ := exists_of_bind_eq_ok h
    rw [element_nil] at h
    cases h
  | popRange | removeRange =>
    obtain ⟨s, -, h⟩ := exists_of_bind_eq_ok h
    cases h
    exact ⟨rest_nil s, rfl⟩
  | trim =>
    obtain ⟨s, -, h⟩ := exists_of_bind_eq_ok h
    cases h
    exact ⟨slice_nil s, rfl⟩
  | clear =>
    cases h
    exact ⟨rfl, rfl⟩
  | _ => cases hop

theorem map_removal_nil {op : MapOperation} {done : Dict String Value × Option Value}
    (hop : op.kind.isRemoval) (h : map [] op = .ok done) : done.1 = [] := by
  obtain ⟨kind, bin, key, value, start, stop, index, rank, count, returnType, policy⟩ := op
  rw [Evaluation.map] at h
  cases kind with
  | clear =>
    cases h
    rfl
  | setPolicy | put | putItems | increment | decrement | size | getByKey | getByKeyRange
  | getByValue | getByValueRange | getByIndex | getByIndexRange | getByRank | getByRankRange =>
    cases hop
  | _ =>
    obtain ⟨selected, -, h⟩ := exists_of_bind_eq_ok h
    cases h
    rfl

end Collections

/-- The bin is absent or holds a collection without elements. -/
def IsBare (bins : Bins) (name : String) : Prop :=
  ∀ v, Dict.get? bins name = some v → v = .list [] ∨ v = .map []

theorem isBare_of_absent (h : Dict.contains bins name = false) : IsBare bins name := by
  intro v hv
  rw [Dict.contains, hv] at h
  cases h

section Steps

variable {α : Type} {bin : String} {empty : α} {inside? : Value → Option α} {wrap : α → Value}
  {run : α → Evaluated (α × Option Value)}

/-- A write on a bare bin starts from the empty collection. -/
theorem collection_of_bare (hinside : ∀ v a, inside? v = some a → v = wrap a)
    (hempty : ∀ a, wrap a = .list [] ∨ wrap a = .map [] → a = empty) (hbare : IsBare p.bins bin)
    (h : (collection bin true empty inside? wrap run).outcome p = .ok p') :
    ∃ done, run empty = .ok done ∧ p'.bins = Dict.insert p.bins bin (wrap done.1) ∧
      ∀ old, Dict.get? p.bins bin = some old → old = wrap empty := by
  rw [collection_write] at h
  obtain ⟨a, ha, h⟩ := exists_of_bind_eq_ok h
  obtain ⟨done, hdone, rfl⟩ := exists_of_map_eq_ok h
  obtain ⟨hget, rfl⟩ | ⟨v, hget, hv⟩ := eq_of_contents_eq_ok ha
  · refine ⟨done, hdone, bins_written p bin _ _, ?_⟩
    intro old hold
    rw [hget] at hold
    cases hold
  · obtain rfl := hinside v a hv
    obtain rfl := hempty a (hbare _ hget)
    refine ⟨done, hdone, bins_written p bin _ _, ?_⟩
    intro old hold
    exact Option.some.inj (hold.symm.trans hget)

theorem isWrite_of_isRemoval (hop : op.isRemoval) : op.isWrite := by
  cases op with
  | scalar op => cases hop
  | list op | map op =>
    simp only [Operation.isRemoval, Operation.isWrite] at hop ⊢
    cases hkind : op.kind <;> rw [hkind] at hop <;> first | rfl | cases hop

theorem contains_step (hop : op.isRemoval) (h : step p op = .ok p') (name : String) :
    Dict.contains p'.bins name ↔ Dict.contains p.bins name ∨ op.bin = name := by
  have hwrite := isWrite_of_isRemoval hop
  have hleft : ∃ v, p'.bins = Dict.insert p.bins op.bin v := by
    cases op with
    | scalar op => cases hop
    | list op | map op =>
      rw [Operation.isWrite] at hwrite
      rw [step, perform, hwrite] at h
      exact bins_of_collection_write h
  obtain ⟨v, hv⟩ := hleft
  rw [hv, Dict.contains_insert_iff]

/-- A removal on a bare bin leaves it bare, and finds no element at an index. -/
theorem step_of_bare (hop : op.isRemoval) (hbare : IsBare p.bins op.bin)
    (h : step p op = .ok p') :
    p'.bins = Dict.insert p.bins op.bin op.bareCollection ∧ op.takesElement = false ∧
      ∀ old, Dict.get? p.bins op.bin = some old → old = op.bareCollection := by
  have hwrite := isWrite_of_isRemoval hop
  cases op with
  | scalar op => cases hop
  | list op =>
    rw [Operation.isWrite] at hwrite
    rw [step, perform, hwrite] at h
    obtain ⟨done, hdone, hleft, hold⟩ :=
      collection_of_bare eq_list_of_asList? (by simp) hbare h
    obtain ⟨hnil, htakes⟩ := list_removal_nil hop hdone
    rw [hnil] at hleft
    exact ⟨hleft, htakes, hold⟩
  | map op =>
    rw [Operation.isWrite] at hwrite
    rw [step, perform, hwrite] at h
    obtain ⟨done, hdone, hleft, hold⟩ :=
      collection_of_bare eq_map_of_mapEntries? (by simp) hbare h
    rw [map_removal_nil hop hdone] at hleft
    exact ⟨hleft, rfl, hold⟩

end Steps

section Runs

/-- What is bare stays as it is, by induction on the removals. -/
theorem get?_foldlM_of_bare {v : Value} (hops : ∀ op ∈ ops, op.isRemoval)
    (hv : v = .list [] ∨ v = .map []) (hget : Dict.get? p.bins name = some v)
    (h : ops.foldlM step p = .ok p') : Dict.get? p'.bins name = some v := by
  induction ops generalizing p with
  | nil =>
    cases h
    exact hget
  | cons op rest ih =>
    rw [List.forall_mem_cons] at hops
    rw [List.foldlM_cons] at h
    obtain ⟨q, hq, h⟩ := exists_of_bind_eq_ok h
    apply ih hops.2 _ h
    by_cases hname : name = op.bin
    · subst hname
      have hbare : IsBare p.bins op.bin := by
        intro old hold
        rw [hget, Option.some.injEq] at hold
        exact hold ▸ hv
      obtain ⟨hleft, -, hold⟩ := step_of_bare hops.1 hbare hq
      rw [hleft, Dict.get?_insert_self, hold v hget]
    · rw [(leaves_step hq).get?_of_ne hname]
      exact hget

theorem isBare_step (hop : op.isRemoval) (h : step p op = .ok p') (hbare : IsBare p.bins name) :
    IsBare p'.bins name := by
  by_cases hname : name = op.bin
  · subst hname
    intro v hv
    rw [(step_of_bare hop hbare h).1, Dict.get?_insert_self, Option.some.injEq] at hv
    subst hv
    cases op with
    | scalar op => cases hop
    | list op => exact .inl rfl
    | map op => exact .inr rfl
  · intro v hv
    rw [(leaves_step h).get?_of_ne hname] at hv
    exact hbare v hv

theorem contains_foldlM (hops : ∀ op ∈ ops, op.isRemoval) (h : ops.foldlM step p = .ok p')
    (name : String) :
    Dict.contains p'.bins name ↔ Dict.contains p.bins name ∨ ∃ op ∈ ops, op.bin = name := by
  induction ops generalizing p with
  | nil =>
    cases h
    simp
  | cons op rest ih =>
    rw [List.forall_mem_cons] at hops
    rw [List.foldlM_cons] at h
    obtain ⟨q, hq, h⟩ := exists_of_bind_eq_ok h
    rw [ih hops.2 h, contains_step hops.1 hq, or_assoc, List.exists_mem_cons_iff]

/-- Where a bin is bare at first, no removal takes an element out of it, and each of them leaves it
with its own kind of collection, by induction on the removals. -/
theorem get?_foldlM_removals (hops : ∀ op ∈ ops, op.isRemoval) (h : ops.foldlM step p = .ok p')
    (hop : op ∈ ops) (hbare : IsBare p.bins op.bin) :
    op.takesElement = false ∧ Dict.get? p'.bins op.bin = some op.bareCollection := by
  induction ops generalizing p with
  | nil => cases hop
  | cons first rest ih =>
    rw [List.forall_mem_cons] at hops
    rw [List.foldlM_cons] at h
    obtain ⟨q, hq, hrest⟩ := exists_of_bind_eq_ok h
    have hbareLeft := isBare_step hops.1 hq hbare
    rcases List.mem_cons.mp hop with rfl | hop
    · obtain ⟨hleft, htakes, -⟩ := step_of_bare hops.1 hbare hq
      have hget : Dict.get? q.bins op.bin = some op.bareCollection := by
        rw [hleft, Dict.get?_insert_self]
      exact ⟨htakes, get?_foldlM_of_bare hops.2 (hbareLeft _ hget) hget hrest⟩
    · exact ih hops.2 hrest hop hbareLeft

end Runs

end Evaluation

end RecordDb
