import RecordDb.Proofs.Store.Locking
import RecordDb.Proofs.Store.OwnKeys

/-!
# Records without bins

The filing of bins removes a record that is left with none, whichever command files them. A
background query changes the matches where they are, so a function that leaves one of them without
bins is the one way in which such a record comes to be.
-/
namespace RecordDb

namespace Store

/-- Every record has a bin. -/
def NoneEmpty (s : Store) : Prop := ∀ e ∈ s.records, e.2.bins ≠ []

theorem NoneEmpty.commit {s : Store} (h : s.NoneEmpty) (id : RecordId) (key : Key) (bins : Bins)
    (ttl : Option UInt32) : (s.commit id key bins ttl).1.NoneEmpty := by
  intro e he
  simp only [Store.commit] at he
  split at he
  · exact h e (Dict.mem_of_mem_erase he)
  · rename_i hb
    rcases Dict.mem_insert he with rfl | he
    · exact fun hn => hb (List.isEmpty_iff.mpr hn)
    · exact h e he

section Reached
variable (f : RecordFunction) (args : List Value)

/-- The matches that a function is applied to: the last one is the first on which it fails. -/
def reached : List (RecordId × StoredRecord) → List (RecordId × StoredRecord)
  | [] => []
  | m :: rest =>
    match (f m.2.bins args).2 with
    | .ok _ => m :: reached rest
    | .error _ => [m]

theorem reached_sublist (found : List (RecordId × StoredRecord)) :
    (reached f args found).Sublist found := by
  induction found with
  | nil => exact List.Sublist.refl _
  | cons m found ih =>
    rw [reached]
    split
    · exact ih.cons_cons m
    · exact (List.nil_sublist found).cons_cons m

/-- The induction is on the matches, which have different ids: what is done to one of them is
not undone by those that follow. -/
theorem get?_applyEach (found : List (RecordId × StoredRecord)) (hn : (found.map Prod.fst).Nodup)
    (records : Dict RecordId StoredRecord) (hf : ∀ m ∈ found, Dict.get? records m.1 = some m.2) :
    (∀ m ∈ reached f args found, ∃ gen,
      Dict.get? (applyEach f args (found.map Prod.fst) records).1 m.1
        = some { m.2 with bins := (f m.2.bins args).1, gen }) ∧
    ∀ id, id ∉ (reached f args found).map Prod.fst →
      Dict.get? (applyEach f args (found.map Prod.fst) records).1 id = Dict.get? records id := by
  induction found generalizing records with
  | nil => exact ⟨nofun, fun _ _ => rfl⟩
  | cons m found ih =>
    rw [List.map_cons, List.nodup_cons] at hn
    obtain ⟨hm, hf⟩ := List.forall_mem_cons.mp hf
    rw [reached, List.map_cons]
    cases hr : (f m.2.bins args).2 with
    | error e =>
      rw [applyEach_cons_of_error hm _ hr]
      refine ⟨List.forall_mem_cons.mpr ⟨⟨_, Dict.get?_insert_self _ _ _⟩, nofun⟩, fun id hid => ?_⟩
      exact Dict.get?_insert_of_ne _ _ fun he => hid (he ▸ List.mem_cons_self)
    | ok v =>
      rw [applyEach_cons_of_ok hm _ hr]
      obtain ⟨happ, hoth⟩ := ih hn.2 _ (get?_insert_of_rest hn.1 hf _)
      have hnot : m.1 ∉ (reached f args found).map Prod.fst :=
        fun h => hn.1 (((reached_sublist f args found).map Prod.fst).subset h)
      refine ⟨List.forall_mem_cons.mpr ⟨⟨m.2.gen + 1, ?_⟩, happ⟩, fun id hid => ?_⟩
      · rw [hoth m.1 hnot, Dict.get?_insert_self]
        rfl
      · rw [List.map_cons, List.mem_cons, not_or] at hid
        rw [hoth id hid.2, Dict.get?_insert_of_ne _ _ hid.1]

end Reached

/-- No record is left empty if the function leaves none of the matches that it gets to empty. -/
theorem noneEmpty_applyEach_iff {s : Store} (hs : s.Filed) (hne : s.NoneEmpty)
    (f : RecordFunction) (args : List Value) (ns : String) (set : Option String)
    (filters : List Filter) :
    (∀ e ∈ (applyEach f args ((s.scan ns set filters).map Prod.fst) s.records).1, e.2.bins ≠ []) ↔
      ∀ m ∈ reached f args (s.scan ns set filters), (f m.2.bins args).1 ≠ [] := by
  obtain ⟨happ, hoth⟩ := get?_applyEach f args (s.scan ns set filters)
    (hs.nodup_scan ns set filters) s.records (fun m hm => hs.get?_of_mem_scan hm)
  constructor
  · intro h m hm
    obtain ⟨gen, hg⟩ := happ m hm
    exact h _ (Dict.mem_of_get?_eq_some hg)
  · intro h e he
    have hg := Dict.get?_of_mem (ascending_applyEach f args _ hs) he
    by_cases hr : e.1 ∈ (reached f args (s.scan ns set filters)).map Prod.fst
    · obtain ⟨m, hm, heq⟩ := List.mem_map.mp hr
      obtain ⟨gen, hg'⟩ := happ m hm
      rw [heq, hg, Option.some.injEq] at hg'
      rw [hg']
      exact h m hm
    · rw [hoth e.1 hr] at hg
      exact hne e (Dict.mem_of_get?_eq_some hg)

end Store

open Store

namespace Cluster

/-- A background query whose function leaves a match that it gets to without bins. -/
inductive Empties (c : Cluster) (s : Store) : Request → Prop where
  | background {ns : String} {set : Option String} {spec : QuerySpec} {call : UdfCall}
      {f : RecordFunction} {m : RecordId × StoredRecord}
      (hi : spec.filters.forM (s.checkIndex ns) = .ok ()) (hm : spec.mode = .background call)
      (hf : function c.functions call = .ok f)
      (hr : m ∈ reached f call.args (s.scan ns set spec.filters))
      (he : (f m.2.bins call.args).1 = []) (policy : Option QueryPolicy) :
      Empties c s (.query ns set spec policy)

theorem Leaves.noneEmpty {c : Cluster} {s : Store} {q : Request}
    {records : Dict RecordId StoredRecord} (h : c.Leaves s q records) (hs : s.Filed)
    (hne : s.NoneEmpty) (hq : ¬ c.Empties s q) : ∀ e ∈ records, e.2.bins ≠ [] := by
  cases h with
  | unchanged => exact hne
  | committed _ _ bins ttl => exact hne.commit _ _ bins ttl
  | erased => exact fun e he => hne e (Dict.mem_of_mem_erase he)
  | updated hi hm hf policy =>
    exact (noneEmpty_applyEach_iff hs hne _ _ _ _ _).mpr
      fun m hr he => hq (.background hi hm hf hr he policy)

/-- One request keeps every record from being empty, unless it is such a query. -/
theorem noneEmpty_serve_iff (c : Cluster) {s : Store} (hs : s.Filed) (hne : s.NoneEmpty)
    (q : Request) : (c.serve s q).1.NoneEmpty ↔ ¬ c.Empties s q := by
  constructor
  · rintro h ⟨hi, hm, hf, hr, he, policy⟩
    simp only [NoneEmpty, serve, query, hi, hm, background, hf] at h
    exact (noneEmpty_applyEach_iff hs hne _ _ _ _ _).mp h _ hr he
  · exact (c.leaves_serve s q).noneEmpty hs hne

end Cluster

namespace Store

/-- The induction is on the run, from the state in which it starts. -/
theorem noneEmpty_passed_iff {s : Store} (hs : s.Filed) (hne : s.NoneEmpty)
    (run : List (Cluster × Request)) :
    (∀ t ∈ s.passed run, t.NoneEmpty) ↔ s.Throughout (fun c s q => ¬ c.Empties s q) run := by
  induction run generalizing s with
  | nil => simpa [passed, Throughout] using hne
  | cons e rest ih =>
    obtain ⟨c, q⟩ := e
    have hs' := c.filed_serve s q hs
    have hstep := c.noneEmpty_serve_iff hs hne q
    rw [passed, Throughout, List.forall_mem_cons]
    constructor
    · rintro ⟨-, h⟩
      have hne' := h _ (mem_passed_self _ rest)
      exact ⟨hstep.mp hne', (ih hs' hne').mp h⟩
    · rintro ⟨hq, h⟩
      exact ⟨hne, (ih hs' (hstep.mpr hq)).mpr h⟩

theorem Reachable.of_mem_passed {s t : Store} (h : s.Reachable) (run : List (Cluster × Request))
    (ht : t ∈ s.passed run) : t.Reachable := by
  induction run generalizing s with
  | nil => exact List.mem_singleton.mp ht ▸ h
  | cons e rest ih =>
    rcases List.mem_cons.mp ht with rfl | ht
    · exact h
    · exact ih (h.serve e.1 e.2) ht

/-- No command finds a record under the key, and none counts one. -/
structure Gone (s : Store) (key : Key) : Prop where
  get (c : Cluster) (policy : Option ReadPolicy) :
    (c.serve s (.get key policy)).2 = notFound key
  select (c : Cluster) (bins : List String) (policy : Option ReadPolicy) :
    (c.serve s (.select key bins policy)).2 = notFound key
  existence (c : Cluster) (policy : Option ReadPolicy) :
    (c.serve s (.existence key policy)).2 = notFound key
  batch (keys : List Key) (bins : StoredRecord → Option Bins) :
    ∀ entry ∈ s.batch keys bins, RecordId.ofKey entry.key ≠ RecordId.ofKey key
  scan (ns : String) (set : Option String) (filters : List Filter) :
    ∀ m ∈ s.scan ns set filters, RecordId.ofKey m.2.key ≠ RecordId.ofKey key
  counted : ∀ r ∈ Dict.values s.records, RecordId.ofKey r.key ≠ RecordId.ofKey key

theorem key_ne_of_get?_eq_none {s : Store} (hown : s.OwnKeyed) (hs : s.Filed) {key : Key}
    {id : RecordId} (hid : RecordId.ofKey key = .ok id) (hr : Dict.get? s.records id = none)
    {e : RecordId × StoredRecord} (he : e ∈ s.records) :
    RecordId.ofKey e.2.key ≠ RecordId.ofKey key := by
  intro heq
  rw [hown e he, hid, Except.ok.injEq] at heq
  have hg := Dict.get?_of_mem hs he
  rw [heq, hr] at hg
  cases hg

theorem gone_of_get?_eq_none {s : Store} (hown : s.OwnKeyed) (hs : s.Filed) {key : Key}
    {id : RecordId} (hid : RecordId.ofKey key = .ok id) (hr : Dict.get? s.records id = none) :
    s.Gone key := by
  have hfind := find_eq_notFound hid hr
  have hne {e : RecordId × StoredRecord} (he : e ∈ s.records) :=
    key_ne_of_get?_eq_none hown hs hid hr he
  constructor
  case get | select | existence =>
    intros
    simp only [Cluster.serve, Store.read, Store.existence, hfind]
    rfl
  case batch =>
    intro keys bins entry he heq
    obtain ⟨k, -, hk⟩ := List.mem_filterMap.mp he
    cases hf : s.find k with
    | error e =>
      rw [hf] at hk
      cases hk
    | ok r =>
      rw [hf] at hk
      cases hk
      obtain ⟨id', hid', hr'⟩ := (find_eq_ok_iff s k r).mp hf
      cases hid'.symm.trans (heq.trans hid)
      rw [hr] at hr'
      cases hr'
  case scan => exact fun ns set filters m hm => hne (List.mem_of_mem_filter hm)
  case counted =>
    intro r hr
    obtain ⟨e, he, rfl⟩ := List.mem_map.mp hr
    exact hne he

theorem NoneEmpty.get?_eq_none {s : Store} (h : s.NoneEmpty) {id : RecordId}
    (hb : s.bins id = []) : Dict.get? s.records id = none := by
  rw [bins] at hb
  cases hr : Dict.get? s.records id with
  | none => rfl
  | some r =>
    rw [hr] at hb
    exact absurd hb (h _ (Dict.mem_of_get?_eq_some hr))

end Store

/-- Every record has a bin in all the states of a run exactly if no background query of the run
leaves a match without bins. In such a run a key that has no bins has no record: nothing finds
it and nothing counts it. -/
theorem no_record_without_bins_iff (run : List (Cluster × Request)) :
    ((∀ t ∈ empty.passed run, ∀ e ∈ t.records, e.2.bins ≠ []) ↔
      empty.Throughout (fun c s q => ¬ c.Empties s q) run) ∧
    (empty.Throughout (fun c s q => ¬ c.Empties s q) run →
      ∀ t ∈ empty.passed run, ∀ key id, RecordId.ofKey key = .ok id → t.bins id = [] →
        t.Gone key) := by
  have hiff := noneEmpty_passed_iff reachable_empty.filed nofun run
  refine ⟨hiff, fun h t ht key id hid hb => ?_⟩
  have hreach := reachable_empty.of_mem_passed run ht
  exact gone_of_get?_eq_none hreach.ownKeyed hreach.filed hid
    ((hiff.mpr h t ht).get?_eq_none hb)

namespace Store

def putMark : Cluster × Request := (.sample, .put firstMark [("x", .int 1)] none none)

def wipe : UdfCall := ⟨"samples", "wipe", []⟩

end Store

/-- A call that removes all bins removes the record. The same function in a background query
leaves a record without bins. -/
theorem no_record_without_bins_iff_wipe :
    (empty.after [putMark, (.sample, .apply firstMark wipe none)]).Gone firstMark ∧
    ¬ ∀ t ∈ empty.passed [putMark,
        (.sample, .query "test" none ⟨[], [], .background wipe⟩ none)],
      ∀ e ∈ t.records, e.2.bins ≠ [] := by
  constructor
  · exact (no_record_without_bins_iff [putMark, (.sample, .apply firstMark wipe none)]).2
      ⟨nofun, nofun, trivial⟩ _
      (List.mem_cons_of_mem _ (List.mem_cons_of_mem _ List.mem_cons_self)) firstMark _ rfl rfl
  · intro h
    obtain ⟨-, hq, -⟩ := (no_record_without_bins_iff _).1.mp h
    exact hq (.background rfl rfl rfl List.mem_cons_self rfl none)

end RecordDb
