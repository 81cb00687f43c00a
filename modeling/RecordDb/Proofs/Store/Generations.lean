import RecordDb.Operation.Builders
import RecordDb.Proofs.Store.Background
import RecordDb.Proofs.Store.Locality

/-!
# The generation of a record

Every write that keeps a record raises its generation by one, whether it goes through the filing of
new bins or changes the record in place, and a record that is new starts at one.
-/
namespace RecordDb

namespace Store

/-- What becomes of the record under an id in one request that succeeds. -/
inductive Advance : Option StoredRecord → Option StoredRecord → Prop where
  | unchanged (o : Option StoredRecord) : Advance o o
  | gone (o : Option StoredRecord) : Advance o none
  | created {r : StoredRecord} (hg : r.gen = 1) : Advance none (some r)
  | written {r r' : StoredRecord} (hk : r'.key = r.key) (hg : r'.gen = r.gen + 1) :
      Advance (some r) (some r')

namespace Advance
variable (s : Store) (id : RecordId) (key : Key) (bins : Bins) (ttl : Option UInt32)

theorem commit (other : RecordId) :
    Advance (Dict.get? s.records other)
      (Dict.get? (s.commit id key bins ttl).1.records other) := by
  by_cases ho : other = id
  · rw [ho, get?_commit_self]
    split
    · exact gone _
    · cases Dict.get? s.records id with
      | none => exact created rfl
      | some r => exact written rfl rfl
  · rw [get?_commit_of_ne s id key bins ttl ho]
    exact unchanged _

theorem erase (other : RecordId) :
    Advance (Dict.get? s.records other) (Dict.get? (Dict.erase s.records id) other) := by
  by_cases ho : other = id
  · rw [ho, Dict.get?_erase_self]
    exact gone _
  · rw [Dict.get?_erase_of_ne _ ho]
    exact unchanged _

end Advance

/-- After a function has succeeded on every match, each of them has been applied to once. The
induction is on the matches, which have different ids. -/
theorem applyEach_eq_ok (f : RecordFunction) (args : List Value)
    (found : List (RecordId × StoredRecord)) (hn : (found.map Prod.fst).Nodup)
    (records : Dict RecordId StoredRecord) (hf : ∀ m ∈ found, Dict.get? records m.1 = some m.2)
    (h : (applyEach f args (found.map Prod.fst) records).2 = .ok ()) :
    (∀ m ∈ found, Dict.get? (applyEach f args (found.map Prod.fst) records).1 m.1
        = some (applied f args m.2)) ∧
      ∀ other, other ∉ found.map Prod.fst →
        Dict.get? (applyEach f args (found.map Prod.fst) records).1 other
          = Dict.get? records other := by
  induction found generalizing records with
  | nil => exact ⟨by simp, fun _ _ => rfl⟩
  | cons m found ih =>
    rw [List.map_cons, List.nodup_cons] at hn
    obtain ⟨hm, hf⟩ := List.forall_mem_cons.mp hf
    rw [List.map_cons] at h ⊢
    cases hr : (f m.2.bins args).2 with
    | error e =>
      rw [applyEach_cons_of_error hm _ hr] at h
      cases h
    | ok v =>
      rw [applyEach_cons_of_ok hm _ hr] at h ⊢
      obtain ⟨happ, hoth⟩ := ih hn.2 _ (get?_insert_of_rest hn.1 hf _) h
      refine ⟨List.forall_mem_cons.mpr ⟨?_, happ⟩, fun other ho => ?_⟩
      · rw [hoth m.1 hn.1, Dict.get?_insert_self]
      · rw [List.mem_cons, not_or] at ho
        rw [hoth other ho.2, Dict.get?_insert_of_ne _ _ ho.1]

/-- A background query that succeeds has applied the function once to each match. -/
theorem advance_background {s : Store} (hs : s.Filed) {functions : Functions} {ns : String}
    {set : Option String} {spec : QuerySpec} {call : UdfCall} {response : Response}
    (h : (s.background functions ns set spec call).2 = .ok response) (id : RecordId) :
    Advance (Dict.get? s.records id)
      (Dict.get? (s.background functions ns set spec call).1.records id) := by
  simp only [background] at h ⊢
  cases hf : function functions call with
  | error e =>
    rw [hf] at h
    cases h
  | ok f =>
    rw [hf] at h
    dsimp only at h ⊢
    obtain ⟨_, hok, -⟩ := exists_of_map_eq_ok h
    obtain ⟨happ, hoth⟩ := applyEach_eq_ok f call.args _ (hs.nodup_scan ns set spec.filters)
      s.records (fun m hm => hs.get?_of_mem_scan hm) hok
    by_cases hid : id ∈ (s.scan ns set spec.filters).map Prod.fst
    · obtain ⟨m, hm, rfl⟩ := List.mem_map.mp hid
      rw [happ m hm, hs.get?_of_mem_scan hm]
      exact .written rfl rfl
    · rw [hoth id hid]
      exact .unchanged _

end Store

open Store

/-- One request that succeeds, of whatever kind. -/
theorem Cluster.advance_serve (c : Cluster) {s : Store} (hs : s.Filed) (q : Request)
    {response : Response} (h : (c.serve s q).2 = .ok response) (id : RecordId) :
    Advance (Dict.get? s.records id) (Dict.get? (c.serve s q).1.records id) := by
  have hl := c.leaves_serve s q
  generalize hr : (c.serve s q).1.records = records at hl ⊢
  cases hl with
  | unchanged => exact .unchanged _
  | committed => exact .commit _ _ _ _ _ _
  | erased => exact .erase _ _ _
  | updated hi hm hf policy =>
    rw [← hr]
    simp only [serve, query, hi, hm] at h ⊢
    exact advance_background hs h id

namespace Store

/-- What the filing of bins reports is what the record is filed with. -/
theorem metadata_commit {s : Store} {id : RecordId} {key : Key} {bins : Bins}
    {ttl : Option UInt32} {r : StoredRecord}
    (h : Dict.get? (s.commit id key bins ttl).1.records id = some r) :
    r.metadata = (s.commit id key bins ttl).2 := by
  rw [get?_commit_self] at h
  split at h
  · cases h
  · cases h
    rfl

/-- Operations report the generation and the time to live with which the record is left. -/
theorem operate_reports {s s' : Store} {key : Key} {ops : List Operation} {metadata : Metadata}
    {policy : Option OperatePolicy} {response : Response}
    (h : (operate key ops metadata policy).run s = .ok response s') :
    ∃ results reported, response = .record results reported ∧
      ∀ id r, RecordId.ofKey key = .ok id → Dict.get? s'.records id = some r →
        r.metadata = reported := by
  obtain ⟨id, done, hid, -, rfl, rfl, -⟩ := operate_eq_ok h
  refine ⟨_, _, rfl, ?_⟩
  intro id' r hid' hr
  cases hid.symm.trans hid'
  split at hr
  · rename_i hw
    rw [if_pos hw]
    exact metadata_commit hr
  · rename_i hw
    rw [if_neg hw, hr]
    rfl

end Store

/-- Every request that succeeds on a store with room in its generations leaves each record
as it was or one generation further under the same key, and starts new records at one.
Operations report what a read of the record then finds. -/
theorem generations_advance_by_one (c : Cluster) (s : Store) (hs : s.Reachable)
    (hroom : ∀ e ∈ s.records, e.2.gen.toNat < 0xffffffff) (q : Request) (response : Response)
    (h : (c.serve s q).2 = .ok response) :
    (∀ id r r', Dict.get? s.records id = some r →
      Dict.get? (c.serve s q).1.records id = some r' →
      r' = r ∨ r'.key = r.key ∧ r'.gen.toNat = r.gen.toNat + 1) ∧
    (∀ id r', Dict.get? s.records id = none →
      Dict.get? (c.serve s q).1.records id = some r' → r'.gen = 1) ∧
    ∀ key ops metadata policy, q = .operate key ops metadata policy →
      ∃ results reported, response = .record results reported ∧
        ∀ id r' readPolicy, RecordId.ofKey key = .ok id →
          Dict.get? (c.serve s q).1.records id = some r' →
          (c.serve (c.serve s q).1 (.get key readPolicy)).2 = .ok (.record r'.bins reported) := by
  refine ⟨fun id r r' hr hr' => ?_, fun id r' hr hr' => ?_, ?_⟩
  · have ha := c.advance_serve hs.filed q h id
    rw [hr, hr'] at ha
    cases ha with
    | unchanged => exact .inl rfl
    | written hk hg =>
      have hlt : r.gen.toNat < 0xffffffff := hroom (id, r) (Dict.mem_of_get?_eq_some hr)
      refine .inr ⟨hk, ?_⟩
      rw [hg, UInt32.toNat_add, UInt32.toNat_one]
      omega
  · have ha := c.advance_serve hs.filed q h id
    rw [hr, hr'] at ha
    cases ha with
    | created hg => exact hg
  · rintro key ops metadata policy rfl
    simp only [Cluster.serve] at h ⊢
    obtain ⟨results, reported, rfl, hrep⟩ := operate_reports (Effect.run_eq_ok_of_on h)
    refine ⟨results, reported, rfl, fun id r' _ hid hr' => ?_⟩
    have hfind := (find_eq_ok_iff _ _ _).mpr ⟨id, hid, hr'⟩
    simp only [Store.read, hfind, bind, Except.bind, pure, Except.pure]
    rw [hrep id r' hid hr']
    rfl

/-- A touch raises the generation as a write does, and reports it. -/
theorem generations_advance_by_one_touch :
    let s' := (Cluster.sample.serve marks (.operate firstMark [Operation.touch "x" 60] none none)).1
    ∃ r', s'.find firstMark = .ok r' ∧ r'.gen.toNat = 1 + 1 ∧
      (Cluster.sample.serve s' (.get firstMark none)).2
        = .ok (.record [("x", .int 1)] ⟨some 60, some 2⟩) := by
  obtain ⟨hadvance, -, hreport⟩ := generations_advance_by_one .sample marks ⟨_, rfl⟩ (by decide)
    (.operate firstMark [Operation.touch "x" 60] none none) _ rfl
  obtain ⟨results, reported, he, hget⟩ := hreport _ _ _ _ rfl
  cases he
  obtain ⟨id, hid, hr⟩ := (find_eq_ok_iff marks firstMark _).mp rfl
  obtain ⟨_, hid', hr'⟩ := (find_eq_ok_iff (Cluster.sample.serve marks
    (.operate firstMark [Operation.touch "x" 60] none none)).1 firstMark _).mp rfl
  cases hid.symm.trans hid'
  refine ⟨_, rfl, ?_, hget id _ none hid hr'⟩
  rcases hadvance id _ _ hr hr' with h | h
  · exact absurd (congrArg StoredRecord.gen h) (by decide)
  · exact h.2

end RecordDb
