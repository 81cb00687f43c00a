import RecordDb.Operation.Builders
import RecordDb.Proofs.Operation.EmptyCollections
import RecordDb.Proofs.Store.Background
import RecordDb.Proofs.Store.Locality
import RecordDb.Proofs.Store.ReadOnly

/-!
# Removals on records that are not there

A request to operate that only takes elements out either fails on a record that is not there or
makes one of empty collections.
-/
namespace RecordDb

open Evaluation

namespace Store

variable {s : Store} {key : Key} {id : RecordId} {ops : List Operation} {metadata : Metadata}
  {policy : Option OperatePolicy} {response : Response}

theorem ne_nil_of_operate_absent (hid : RecordId.ofKey key = .ok id)
    (habsent : Dict.get? s.records id = none)
    (h : ((operate key ops metadata policy).on s).2 = .ok response) : ops ≠ [] := by
  rintro rfl
  obtain ⟨e, he⟩ : ∃ e, s.find key = .error e := ⟨_, find_eq_notFound hid habsent⟩
  rw [operate_readings_of_find (by simp) he] at h
  cases h

theorem any_isWrite_of_removals (hops : ∀ op ∈ ops, op.isRemoval) (hne : ops ≠ []) :
    ops.any Operation.isWrite := by
  obtain ⟨op, rest, rfl⟩ := List.exists_cons_of_ne_nil hne
  rw [List.any_eq_true]
  exact ⟨op, List.mem_cons_self, isWrite_of_isRemoval (hops op List.mem_cons_self)⟩

theorem get?_operate_absent (hops : ∀ op ∈ ops, op.isRemoval) (hid : RecordId.ofKey key = .ok id)
    (habsent : Dict.get? s.records id = none)
    (h : ((operate key ops metadata policy).on s).2 = .ok response) :
    ∃ done r, Evaluation.run [] ops = .ok done ∧
      Dict.get? ((operate key ops metadata policy).on s).1.records id = some r ∧
      r.bins = done.bins := by
  have hne := ne_nil_of_operate_absent hid habsent h
  have hserved := Effect.run_eq_ok_of_on h
  generalize ((operate key ops metadata policy).on s).1 = s' at hserved ⊢
  obtain ⟨id', done, hid', hdone, rfl, -, -⟩ := operate_eq_ok hserved
  obtain rfl : id = id' := Except.ok.inj (hid.symm.trans hid')
  have hnone : s.bins id = [] := by
    rw [bins, habsent]
    rfl
  rw [hnone] at hdone
  have hfull : done.bins ≠ [] := by
    obtain ⟨op, rest, rfl⟩ := List.exists_cons_of_ne_nil hne
    rw [run_eq_foldlM] at hdone
    have hop := (contains_foldlM hops hdone op.bin).mpr (.inr ⟨op, List.mem_cons_self, rfl⟩)
    intro hempty
    rw [hempty] at hop
    cases hop
  rw [if_pos (any_isWrite_of_removals hops hne), get?_commit_self, if_neg (by simpa using hfull)]
  exact ⟨done, _, hdone, rfl, rfl⟩

end Store

/-- Operations that only take elements out leave the bins that there are, and in the place of an
absent one an empty list or map; to take out an element at an index they need one. On a record that
is not there they fail, or make one of nothing but empty collections. -/
theorem removals_create_only_empty_collections {ops : List Operation}
    (hops : ∀ op ∈ ops, op.isRemoval) :
    (∀ bins done, Evaluation.run bins ops = .ok done →
      (∀ name, Dict.contains done.bins name ↔
        Dict.contains bins name ∨ ∃ op ∈ ops, op.bin = name) ∧
      ∀ op ∈ ops, Dict.contains bins op.bin = false →
        op.takesElement = false ∧ Dict.get? done.bins op.bin = some op.bareCollection) ∧
    ∀ (c : Cluster) (s : Store) key id metadata policy response, RecordId.ofKey key = .ok id →
      Dict.get? s.records id = none →
      let served := c.serve s (.operate key ops metadata policy)
      served.2 = .ok response → ∃ r, Dict.get? served.1.records id = some r ∧
        (∀ name, Dict.contains r.bins name ↔ ∃ op ∈ ops, op.bin = name) ∧
        ∀ op ∈ ops, op.takesElement = false ∧
          Dict.get? r.bins op.bin = some op.bareCollection := by
  have hrun : ∀ bins done, Evaluation.run bins ops = .ok done →
      (∀ name, Dict.contains done.bins name ↔
        Dict.contains bins name ∨ ∃ op ∈ ops, op.bin = name) ∧
      ∀ op ∈ ops, Dict.contains bins op.bin = false →
        op.takesElement = false ∧ Dict.get? done.bins op.bin = some op.bareCollection := by
    intro bins done h
    rw [run_eq_foldlM] at h
    refine ⟨contains_foldlM hops h, ?_⟩
    intro op hop habsent
    exact get?_foldlM_removals hops h hop (isBare_of_absent habsent)
  refine ⟨hrun, ?_⟩
  intro c s key id metadata policy response hid habsent served hserved
  obtain ⟨after, r, hafter, hr, hbins⟩ := Store.get?_operate_absent hops hid habsent hserved
  obtain ⟨hnames, hvalues⟩ := hrun [] after hafter
  refine ⟨r, hr, ?_, ?_⟩
  · intro name
    rw [hbins, hnames]
    simp [Dict.contains, Dict.get?]
  · intro op hop
    rw [hbins]
    exact hvalues op hop rfl

/-- A map is emptied and a list cleared twice, of a record with one of the two bins and of none. -/
theorem removals_create_only_empty_collections_marks :
    let ops : List Operation := [.listClear "l", .mapClear "m", .listRemoveRange "l" (-1) none]
    let third : Key := ⟨"test", "marks", some (.int 3), none⟩
    let id : RecordId := ⟨"test", Wire.Packed.encode (.arr [.text "marks", Codec.toDoc (Value.int 3)])⟩
    let served := Cluster.sample.serve Store.marks (.operate third ops none none)
    (∀ op ∈ ops, op.isRemoval) ∧
    (∃ done, Evaluation.run [("m", .map [("a", .nil)])] ops = .ok done ∧
      Dict.get? done.bins "l" = some (.list [])) ∧
    Dict.get? Store.marks.records id = none ∧
    ∃ r, Dict.get? served.1.records id = some r ∧ Dict.get? r.bins "m" = some (.map []) := by
  intro ops third id served
  have hops : ∀ op ∈ ops, op.isRemoval := by decide
  obtain ⟨hrun, hserve⟩ := removals_create_only_empty_collections hops
  have hid : RecordId.ofKey third = .ok id := rfl
  have habsent : Dict.get? Store.marks.records id = none := by decide +kernel
  refine ⟨hops, ?_, habsent, ?_⟩
  · have hdone : Evaluation.run [("m", .map [("a", .nil)])] ops
        = .ok ⟨[("l", .list []), ("m", .map [])], [("l", .int 0)], none⟩ := rfl
    have hl := (hrun _ _ hdone).2 (.listClear "l") List.mem_cons_self rfl
    exact ⟨_, hdone, hl.2⟩
  · obtain ⟨r, hr, -, hvalues⟩ := hserve .sample Store.marks third id none none _ hid habsent rfl
    exact ⟨r, hr, (hvalues (.mapClear "m") (List.mem_cons_of_mem _ List.mem_cons_self)).2⟩

/-- A list that is not there is cleared, which makes the bin, and the record if there is none. -/
theorem clear_creates_record :
    let op : Operation := .listClear "l"
    let first : Key := ⟨"test", "marks", some (.int 1), none⟩
    let served := Cluster.sample.serve Store.empty (.operate first [op] none none)
    op.isRemoval ∧ Dict.contains ([] : Bins) "l" = false ∧
    Evaluation.run [] [op] = .ok ⟨[("l", .list [])], [], none⟩ ∧
    Store.empty.find first = Store.notFound first ∧
    ∃ r, served.1.find first = .ok r ∧ r.bins = [("l", .list [])] :=
  ⟨rfl, rfl, rfl, rfl, _, rfl, rfl⟩

end RecordDb
