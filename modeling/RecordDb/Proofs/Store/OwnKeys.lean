import RecordDb.Proofs.Store.Background

/-!
# Records are filed under the ids of their own keys

A record keeps the key of its first writer, and whoever writes to it later may name it by another
key, but only by one that is filed under the same id. So what a query returns can be read back
through the keys that it returns.
-/
namespace RecordDb

namespace Store

def OwnKeyed (s : Store) : Prop := ∀ e ∈ s.records, RecordId.ofKey e.2.key = .ok e.1

theorem OwnKeyed.commit {s : Store} (h : s.OwnKeyed) {id : RecordId} {key : Key}
    (hid : RecordId.ofKey key = .ok id) (bins : Bins) (ttl : Option UInt32) :
    (s.commit id key bins ttl).1.OwnKeyed := by
  intro e he
  simp only [Store.commit] at he
  split at he
  · exact h e (Dict.mem_of_mem_erase he)
  · rcases Dict.mem_insert he with rfl | he
    · cases hr : Dict.get? s.records id with
      | none => exact hid
      | some r => exact h (id, r) (Dict.mem_of_get?_eq_some hr)
    · exact h e he

/-- A function applied in place changes the bins of records and their generations only. -/
theorem key_applyEach {P : RecordId → Key → Prop} (f : RecordFunction) (args : List Value)
    (ids : List RecordId) {records : Dict RecordId StoredRecord}
    (h : ∀ e ∈ records, P e.1 e.2.key) : ∀ e ∈ (applyEach f args ids records).1, P e.1 e.2.key := by
  induction ids generalizing records with
  | nil => exact h
  | cons id rest ih =>
    have hinsert {r : StoredRecord} (hr : Dict.get? records id = some r) (bins : Bins)
        (gen : UInt32) : ∀ e ∈ Dict.insert records id { r with bins, gen }, P e.1 e.2.key := by
      intro e he
      rcases Dict.mem_insert he with rfl | he
      · exact h (id, r) (Dict.mem_of_get?_eq_some hr)
      · exact h e he
    cases hr : Dict.get? records id with
    | none =>
      rw [applyEach, hr]
      exact ih h
    | some r =>
      cases hf : (f r.bins args).2 with
      | ok v =>
        rw [applyEach_cons_of_ok hr rest hf]
        exact ih (hinsert hr _ _)
      | error e =>
        rw [applyEach_cons_of_error hr rest hf]
        exact hinsert hr _ _

end Store

open Store

namespace Cluster

theorem Leaves.ownKeyed {c : Cluster} {s : Store} {q : Request}
    {records : Dict RecordId StoredRecord} (h : c.Leaves s q records) (hs : s.OwnKeyed) :
    ∀ e ∈ records, RecordId.ofKey e.2.key = .ok e.1 := by
  cases h with
  | unchanged => exact hs
  | committed _ hid bins ttl => exact hs.commit hid bins ttl
  | erased => exact fun e he => hs e (Dict.mem_of_mem_erase he)
  | updated =>
    exact key_applyEach (P := fun id key => RecordId.ofKey key = .ok id) _ _ _ hs

theorem ownKeyed_serve (c : Cluster) (s : Store) (q : Request) (h : s.OwnKeyed) :
    (c.serve s q).1.OwnKeyed :=
  (c.leaves_serve s q).ownKeyed h

end Cluster

namespace Store

theorem Reachable.ownKeyed {s : Store} (h : s.Reachable) : s.OwnKeyed := by
  obtain ⟨run, rfl⟩ := h
  have he : empty.OwnKeyed := nofun
  exact after_induction Cluster.ownKeyed_serve he run

theorem OwnKeyed.find {s : Store} (h : s.OwnKeyed) (hs : s.Filed) {e : RecordId × StoredRecord}
    (he : e ∈ s.records) : s.find e.2.key = .ok e.2 :=
  (find_eq_ok_iff s e.2.key e.2).mpr ⟨e.1, h e he, Dict.get?_of_mem hs he⟩

/-- A query that returns records has changed nothing, and has returned the matches. -/
theorem query_eq_records {functions : Functions} {s : Store} {ns : String} {set : Option String}
    {spec : QuerySpec} {found : List Record}
    (h : (s.query functions ns set spec).2 = .ok (.records found)) :
    (s.query functions ns set spec).1 = s ∧
      found = (s.scan ns set spec.filters).map fun e => e.2.toRecord spec.select := by
  rw [query] at h ⊢
  cases hi : spec.filters.forM (s.checkIndex ns) with
  | error e =>
    rw [hi] at h
    cases h
  | ok =>
    rw [hi] at h
    cases hm : spec.mode with
    | foreach =>
      rw [hm] at h
      cases h
      exact ⟨rfl, rfl⟩
    | aggregate call =>
      rw [hm] at h
      dsimp only [aggregate] at h
      obtain ⟨f, -, h⟩ := exists_of_bind_eq_ok h
      obtain ⟨v, -, h⟩ := exists_of_bind_eq_ok h
      cases h
    | background call =>
      rw [hm] at h
      dsimp only [background] at h
      split at h
      · cases h
      · obtain ⟨_, -, h⟩ := exists_of_map_eq_ok h
        cases h

end Store

/-- The read of a single record that takes the bins that a query takes. -/
def QuerySpec.readBack (spec : QuerySpec) (key : Key) (policy : Option ReadPolicy) : Request :=
  if spec.select.isEmpty then .get key policy else .select key spec.select policy

theorem Cluster.serve_readBack (c : Cluster) (s : Store) (spec : QuerySpec) (key : Key)
    (policy : Option ReadPolicy) :
    c.serve s (spec.readBack key policy) = (s, s.read key spec.select) := by
  rw [QuerySpec.readBack]
  split
  · rename_i he
    rw [List.isEmpty_iff.mp he]
    rfl
  · rfl

/-- Every record of a store that has been reached is filed under the id of its own key. What a
query returns are records of different ids, and a read through the key of any of them completes
with what was returned. -/
theorem records_own_their_keys (s : Store) (hs : s.Reachable) :
    (∀ e ∈ s.records, RecordId.ofKey e.2.key = .ok e.1) ∧
    ∀ (c : Cluster) ns set spec policy found,
      (c.serve s (.query ns set spec policy)).2 = .ok (.records found) →
      found.Pairwise (fun r r' => RecordId.ofKey r.key ≠ RecordId.ofKey r'.key) ∧
      ∀ r ∈ found, (∃ id, RecordId.ofKey r.key = .ok id) ∧
        ∀ (c' : Cluster) readPolicy, (c'.serve (c.serve s (.query ns set spec policy)).1
          (spec.readBack r.key readPolicy)).2 = .ok (.record r.bins r.metadata) := by
  have hown := hs.ownKeyed
  refine ⟨hown, fun c ns set spec policy found h => ?_⟩
  obtain ⟨hsame, rfl⟩ := query_eq_records h
  have hmem : ∀ e ∈ s.scan ns set spec.filters, e ∈ s.records := fun e => List.mem_of_mem_filter
  constructor
  · have hn : (s.scan ns set spec.filters).Pairwise fun e e' => e.1 ≠ e'.1 :=
      List.pairwise_map.mp (hs.filed.nodup_scan ns set spec.filters)
    refine List.pairwise_map.mpr (hn.imp_of_mem fun {e e'} he he' hne => ?_)
    simp only [StoredRecord.toRecord, hown e (hmem e he), hown e' (hmem e' he')]
    exact fun heq => hne (Except.ok.inj heq)
  · intro r hr
    obtain ⟨e, he, rfl⟩ := List.mem_map.mp hr
    refine ⟨⟨e.1, hown e (hmem e he)⟩, fun c' readPolicy => ?_⟩
    have hread : s.read e.2.key spec.select
        = .ok (.record (e.2.selected spec.select) e.2.metadata) := by
      rw [Store.read, hown.find hs.filed (hmem e he)]
      rfl
    have hs' : (c.serve s (.query ns set spec policy)).1 = s := hsame
    rw [c'.serve_readBack, hs']
    exact hread

/-- The first record is written again through a key with a digest; the query names it by the key
of the first writer. -/
theorem records_own_their_keys_marks :
    let s := (Cluster.sample.serve marks
      (.put (firstMark.withDigest [7]) [("x", .int 5)] none none)).1
    ∃ found, (Cluster.sample.serve s (.query "test" none ⟨[], ["x"], .foreach⟩ none)).2
        = .ok (.records found) ∧
      found.map Record.key = [firstMark, secondMark] ∧
      found.Pairwise (fun r r' => RecordId.ofKey r.key ≠ RecordId.ofKey r'.key) ∧
      (Cluster.sample.serve s (.select firstMark ["x"] none)).2
        = .ok (.record [("x", .int 5)] ⟨some 0, some 2⟩) := by
  refine ⟨_, rfl, rfl, ?_⟩
  obtain ⟨-, hq⟩ := records_own_their_keys (Cluster.sample.serve marks
    (.put (firstMark.withDigest [7]) [("x", .int 5)] none none)).1 (Reachable.serve ⟨_, rfl⟩ _ _)
  obtain ⟨hp, hr⟩ := hq .sample "test" none ⟨[], ["x"], .foreach⟩ none _ rfl
  exact ⟨hp, (hr _ List.mem_cons_self).2 .sample none⟩

end RecordDb
