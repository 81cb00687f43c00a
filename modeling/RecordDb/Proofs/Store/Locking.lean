import RecordDb.Proofs.Store.Failure
import RecordDb.Proofs.Store.Generations

/-!
# Writes that ask for a generation

A client that has read a record, and later writes it on condition that it still is of the generation
it had, overwrites nobody's work unless the record was gone in between: generations only rise while
a record is there.
-/
namespace RecordDb

open Store

/-- The check of a put, or of operations with a write among them, is that the record is of a
certain generation. -/
inductive Request.Demands (key : Key) (g : UInt32) : Request → Prop where
  | put {bins : Bins} {metadata : Metadata} {policy : WritePolicy} (hg : metadata.gen = some g)
      (hp : policy.gen = some .eq) : Demands key g (.put key bins (some metadata) (some policy))
  | operate {ops : List Operation} {metadata : Metadata} {policy : OperatePolicy}
      (hw : ops.any Operation.isWrite) (hg : metadata.gen = some g) (hp : policy.gen = some .eq) :
      Demands key g (.operate key ops (some metadata) (some policy))

/-- A background query that stops because the function fails on the record under an id, after it
has changed its bins. -/
inductive Cluster.StopsOn (c : Cluster) (s : Store) (id : RecordId) : Request → Prop where
  | background {ns : String} {set : Option String} {spec : QuerySpec}
      {policy : Option QueryPolicy} {call : UdfCall} {f : RecordFunction} {e : Status}
      {before rest : List (RecordId × StoredRecord)} {r : StoredRecord}
      (hi : spec.filters.forM (s.checkIndex ns) = .ok ()) (hm : spec.mode = .background call)
      (hf : function c.functions call = .ok f)
      (hsplit : s.scan ns set spec.filters = before ++ (id, r) :: rest)
      (hb : ∀ m ∈ before, ∃ v, (f m.2.bins call.args).2 = .ok v)
      (he : (f r.bins call.args).2 = .error e) (hc : (f r.bins call.args).1 ≠ r.bins) :
      StopsOn c s id (.query ns set spec policy)

namespace Store

/-- The states that a run goes through, from the first to the last. -/
def passed (s : Store) : List (Cluster × Request) → List Store
  | [] => [s]
  | (c, q) :: rest => s :: (c.serve s q).1.passed rest

/-- Something holds of every request of a run in the state that it meets. -/
def Throughout (P : Cluster → Store → Request → Prop) (s : Store) :
    List (Cluster × Request) → Prop
  | [] => True
  | (c, q) :: rest => P c s q ∧ (c.serve s q).1.Throughout P rest

theorem mem_passed_self (s : Store) (run : List (Cluster × Request)) : s ∈ s.passed run := by
  cases run with
  | nil => exact List.mem_cons_self
  | cons e rest => exact List.mem_cons_self

theorem checkCurrent_eq_ok {g : UInt32} {r : StoredRecord}
    (h : checkCurrent (some .eq) (some g) (some r) = .ok ()) : r.gen = g := by
  simp only [checkCurrent, checkGeneration] at h
  split at h
  · assumption
  · cases h

end Store

namespace Cluster

/-- A write that is served has found its record in the generation it asks for, or none. -/
theorem gen_of_demands (c : Cluster) (s : Store) {key : Key} {id : RecordId} {g : UInt32}
    (hid : RecordId.ofKey key = .ok id) {q : Request} (hq : q.Demands key g) {response : Response}
    (h : (c.serve s q).2 = .ok response) {r : StoredRecord}
    (hr : Dict.get? s.records id = some r) : r.gen = g := by
  cases hq with
  | put hg hp =>
    obtain ⟨id', old, hid', -, -, hc⟩ := put_eq_ok (Effect.run_eq_ok_of_on h)
    cases hid.symm.trans hid'
    rw [hr, Option.bind_some, hp, Option.getD_some, hg] at hc
    exact checkCurrent_eq_ok hc
  | operate _ hg hp =>
    obtain ⟨id', done, hid', -, -, -, hc⟩ := operate_eq_ok (Effect.run_eq_ok_of_on h)
    cases hid.symm.trans hid'
    rw [hr, Option.bind_some, hp, Option.getD_some, hg] at hc
    exact checkCurrent_eq_ok hc

/-- A background query that fails has got as far as a match on which the function failed. The
matches before it are one generation further, and the others as they were. So is the match itself,
if the function left its bins alone. -/
theorem advance_or_stopsOn (c : Cluster) {s : Store} (hs : s.Filed) {ns : String}
    {set : Option String} {spec : QuerySpec} {policy : Option QueryPolicy} {call : UdfCall}
    (hm : spec.mode = .background call) {e : Status}
    (h : (c.serve s (.query ns set spec policy)).2 = .error e) (id : RecordId) :
    Advance (Dict.get? s.records id)
        (Dict.get? (c.serve s (.query ns set spec policy)).1.records id) ∨
      c.StopsOn s id (.query ns set spec policy) := by
  simp only [serve, query, hm] at h ⊢
  cases hi : spec.filters.forM (s.checkIndex ns) with
  | error e' => exact .inl (.unchanged _)
  | ok =>
    rw [hi] at h
    simp only [background] at h ⊢
    cases hf : function c.functions call with
    | error e' => exact .inl (.unchanged _)
    | ok f =>
      rw [hf] at h
      dsimp only at h ⊢
      obtain ⟨before, id', r, rest, hsplit, hstop, hleft⟩ := applyEach_eq_error f call.args _
        (hs.nodup_scan ns set spec.filters) s.records (fun m hm => hs.get?_of_mem_scan hm)
        (eq_error_of_map_eq_error h)
      by_cases hid : id = id'
      · rw [hid]
        by_cases hc : (f r.bins call.args).1 = r.bins
        · have hfound : (id', r) ∈ s.scan ns set spec.filters := by
            rw [hsplit]
            exact List.mem_append_right _ List.mem_cons_self
          left
          rw [hleft, hc, hs.get?_of_mem_scan hfound]
          exact .unchanged _
        · exact .inr (.background hi hm hf hsplit hstop.succeeded hstop.failed hc)
      · by_cases hb : id ∈ before.map Prod.fst
        · obtain ⟨m, hmb, rfl⟩ := List.mem_map.mp hb
          have hfound : m ∈ s.scan ns set spec.filters := by
            rw [hsplit]
            exact List.mem_append_left _ hmb
          left
          rw [hstop.get?_before m hmb, hs.get?_of_mem_scan hfound]
          exact .written rfl rfl
        · left
          rw [hstop.get?_other id hb hid]
          exact .unchanged _

/-- Every request, whether it succeeds or not, unless it stops on the record. -/
theorem advance_of_not_stopsOn (c : Cluster) {s : Store} (hs : s.Filed) (q : Request)
    {id : RecordId} (hstop : ¬ c.StopsOn s id q) :
    Advance (Dict.get? s.records id) (Dict.get? (c.serve s q).1.records id) := by
  cases h : (c.serve s q).2 with
  | ok response => exact c.advance_serve hs q h id
  | error e =>
    cases hq : q.isBackground with
    | false =>
      rw [c.serve_eq_error s q hq h]
      exact .unchanged _
    | true =>
      cases q with
      | query ns set spec policy =>
        rw [Request.isBackground] at hq
        split at hq
        · rename_i call hm
          exact (c.advance_or_stopsOn hs hm h id).resolve_right hstop
        · cases hq
      | _ => cases hq

end Cluster

/-- As long as a record is there its generation counts the requests that changed it. The
induction is on the run, from the state in which it starts. -/
theorem Store.gen_after {s : Store} (hs : s.Filed) {id : RecordId}
    (run : List (Cluster × Request))
    (hstop : s.Throughout (fun c s q => ¬ c.StopsOn s id q) run)
    (hthere : ∀ t ∈ s.passed run, Dict.get? t.records id ≠ none) {r : StoredRecord}
    (hr : Dict.get? s.records id = some r) :
    ∃ n r', n ≤ run.length ∧ Dict.get? (s.after run).records id = some r' ∧
      r'.gen = r.gen + UInt32.ofNat n ∧
      (n = 0 → ∀ t ∈ s.passed run, Dict.get? t.records id = some r) := by
  induction run generalizing s r with
  | nil =>
    refine ⟨0, r, le_rfl, hr, (UInt32.add_zero _).symm, fun _ t ht => ?_⟩
    rw [List.mem_singleton.mp ht, hr]
  | cons e rest ih =>
    obtain ⟨c, q⟩ := e
    obtain ⟨hq, hstop⟩ := hstop
    have hs' := c.filed_serve s q hs
    have hthere' : ∀ t ∈ (c.serve s q).1.passed rest, Dict.get? t.records id ≠ none :=
      fun t ht => hthere t (List.mem_cons_of_mem _ ht)
    have hstep := c.advance_of_not_stopsOn hs q hq
    cases hr' : Dict.get? (c.serve s q).1.records id with
    | none => exact absurd hr' (hthere' _ (mem_passed_self _ _))
    | some r' =>
      obtain ⟨n, r'', hn, hafter, hgen, hzero⟩ := ih hs' hstop hthere' hr'
      rw [hr, hr'] at hstep
      cases hstep with
      | unchanged =>
        refine ⟨n, r'', hn.trans (Nat.le_succ _), hafter, hgen, fun h0 t ht => ?_⟩
        rcases List.mem_cons.mp ht with rfl | ht
        · exact hr
        · exact hzero h0 t ht
      | written hk hg =>
        refine ⟨n + 1, r'', Nat.succ_le_succ hn, hafter, ?_, fun h0 => absurd h0 (by omega)⟩
        rw [hgen, hg, UInt32.ofNat_add, UInt32.add_assoc, UInt32.add_comm 1]
        rfl

/-- A client reads a record, any requests of any clients follow, and then its write of the
generation that it has read succeeds: either the record was gone in some state in between,
or it was all the time what the client has read. -/
theorem checked_write_loses_no_update (s : Store) (hs : s.Reachable) (key : Key) (id : RecordId)
    (hid : RecordId.ofKey key = .ok id) (c : Cluster) (policy : Option ReadPolicy) (bins : Bins)
    (metadata : Metadata) (g : UInt32)
    (hget : (c.serve s (.get key policy)).2 = .ok (.record bins metadata))
    (hg : metadata.gen = some g) (between : List (Cluster × Request))
    (hlen : between.length < 0x100000000)
    (hstop : s.Throughout (fun c s q => ¬ c.StopsOn s id q) between) (c' : Cluster) (q : Request)
    (hq : q.Demands key g) (response : Response)
    (h : (c'.serve (s.after between) q).2 = .ok response) :
    (∃ t ∈ s.passed between, Dict.get? t.records id = none) ∨
    ∃ r, r.bins = bins ∧ r.metadata = metadata ∧
      ∀ t ∈ s.passed between, Dict.get? t.records id = some r := by
  by_cases hgone : ∃ t ∈ s.passed between, Dict.get? t.records id = none
  · exact .inl hgone
  right
  have hthere : ∀ t ∈ s.passed between, Dict.get? t.records id ≠ none :=
    fun t ht hn => hgone ⟨t, ht, hn⟩
  obtain ⟨r, hfind, hread⟩ := exists_of_bind_eq_ok hget
  cases hread
  cases hg
  obtain ⟨id', hid', hr⟩ := (find_eq_ok_iff s key r).mp hfind
  cases hid.symm.trans hid'
  obtain ⟨n, r', hn, hafter, hgen, hzero⟩ := gen_after hs.filed between hstop hthere hr
  have hsame : r.gen + UInt32.ofNat n = r.gen := by
    rw [← hgen]
    exact c'.gen_of_demands _ hid hq h hafter
  have h0 : n = 0 := by
    have hn0 := UInt32.toNat_inj.mpr (UInt32.add_eq_left.mp hsame)
    rw [UInt32.toNat_ofNat_of_lt' (hn.trans_lt hlen)] at hn0
    exact hn0
  exact ⟨r, rfl, rfl, hzero h0⟩

/-- Asks that the record is still of the first generation. -/
def Request.putIfFirst (key : Key) : Request :=
  .put key [("x", .int 2)] (some ⟨none, some 1⟩) (some ⟨none, none, some .eq, none, none, none⟩)

theorem Request.demands_putIfFirst (key : Key) : (putIfFirst key).Demands key 1 := .put rfl rfl

/-- Between the two another record is written, and a call fails on this one. -/
theorem checked_write_loses_no_update_marks :
    let between : List (Cluster × Request) :=
      [(.sample, .put secondMark [("x", .int 7)] none none),
        (.sample, .apply firstMark ⟨"samples", "fail", []⟩ none)]
    ∃ id, RecordId.ofKey firstMark = .ok id ∧
      ((∃ t ∈ marks.passed between, Dict.get? t.records id = none) ∨
      ∃ r, r.bins = [("x", .int 1)] ∧ r.metadata = ⟨some 0, some 1⟩ ∧
        ∀ t ∈ marks.passed between, Dict.get? t.records id = some r) := by
  refine ⟨_, rfl, ?_⟩
  exact checked_write_loses_no_update marks ⟨_, rfl⟩ firstMark _ rfl .sample none _ _ 1 rfl rfl _
    (by decide) ⟨nofun, nofun, trivial⟩ .sample (.putIfFirst firstMark)
    (Request.demands_putIfFirst _) (.written none) rfl

/-- A record that is removed and created again starts at the first generation again, and the
write that asks for it succeeds. -/
theorem checked_write_overwrites_recreated :
    ¬ ∀ s : Store, s.Reachable → ∀ key id, RecordId.ofKey key = .ok id →
      ∀ (c : Cluster) policy bins metadata g,
      (c.serve s (.get key policy)).2 = .ok (.record bins metadata) → metadata.gen = some g →
      ∀ (between : List (Cluster × Request)) (c' : Cluster) (q : Request), q.Demands key g →
      ∀ response, (c'.serve (s.after between) q).2 = .ok response →
      ∀ t ∈ s.passed between, Dict.get? t.records id = Dict.get? s.records id := by
  intro h
  have hgone := h marks ⟨_, rfl⟩ firstMark _ rfl .sample none _ _ 1 rfl rfl
    [(.sample, .remove firstMark none), (.sample, .put firstMark [("x", .int 7)] none none)]
    .sample (.putIfFirst firstMark) (Request.demands_putIfFirst _) (.written none) rfl
    (Cluster.sample.serve marks (.remove firstMark none)).1
    (List.mem_cons_of_mem _ List.mem_cons_self)
  exact absurd (congrArg Option.isSome hgone) (by decide)

end RecordDb
