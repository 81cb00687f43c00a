import RecordDb.Proofs.Store.Runs

/-!
# Background queries

The function of a background query is applied to the matches in the order in which they are filed,
and a failure ends the query where it is: the matches before it stay changed, and no other record is
touched.
-/
namespace RecordDb

namespace Store

/-- A record after a function that succeeded on it. -/
def applied (f : RecordFunction) (args : List Value) (r : StoredRecord) : StoredRecord :=
  { r with bins := (f r.bins args).1, gen := r.gen + 1 }

section Steps
variable {f : RecordFunction} {args : List Value} {records : Dict RecordId StoredRecord}
  {id : RecordId} {r : StoredRecord} (hr : Dict.get? records id = some r) (rest : List RecordId)
include hr

theorem applyEach_cons_of_ok {v : Value} (h : (f r.bins args).2 = .ok v) :
    applyEach f args (id :: rest) records
      = applyEach f args rest (Dict.insert records id (applied f args r)) := by
  have he : f r.bins args = ((f r.bins args).1, .ok v) := by rw [← h]
  rw [applyEach, hr]
  dsimp only
  rw [he, applied]

theorem applyEach_cons_of_error {e : Status} (h : (f r.bins args).2 = .error e) :
    applyEach f args (id :: rest) records
      = (Dict.insert records id { r with bins := (f r.bins args).1 }, .error e) := by
  have he : f r.bins args = ((f r.bins args).1, .error e) := by rw [← h]
  rw [applyEach, hr]
  dsimp only
  rw [he]

end Steps

/-- The matches to come are still filed as they were found, since no id occurs twice. -/
theorem get?_insert_of_rest {records : Dict RecordId StoredRecord}
    {found : List (RecordId × StoredRecord)} {id : RecordId} (hid : id ∉ found.map Prod.fst)
    (hf : ∀ m ∈ found, Dict.get? records m.1 = some m.2) (r : StoredRecord) :
    ∀ m ∈ found, Dict.get? (Dict.insert records id r) m.1 = some m.2 := by
  intro m hm
  have hne : m.1 ≠ id := fun heq => hid (heq ▸ List.mem_map_of_mem hm)
  rw [Dict.get?_insert_of_ne _ _ hne, hf m hm]

/-- How records look when a function succeeded on some matches and failed on the next. Which
bins the failed one is left with is up to the function. -/
structure StoppedAt (f : RecordFunction) (args : List Value) (e : Status)
    (before : List (RecordId × StoredRecord)) (id : RecordId) (r : StoredRecord)
    (old new : Dict RecordId StoredRecord) : Prop where
  succeeded : ∀ m ∈ before, ∃ v, (f m.2.bins args).2 = .ok v
  failed : (f r.bins args).2 = .error e
  get?_before : ∀ m ∈ before, Dict.get? new m.1 = some (applied f args m.2)
  get?_failed : ∃ bins, Dict.get? new id = some { r with bins }
  get?_other : ∀ other, other ∉ before.map Prod.fst → other ≠ id →
    Dict.get? new other = Dict.get? old other

namespace StoppedAt
variable {f : RecordFunction} {args : List Value} {e : Status} {id : RecordId} {r : StoredRecord}
  {records : Dict RecordId StoredRecord}

theorem at_once (h : (f r.bins args).2 = .error e) :
    StoppedAt f args e [] id r records
      (Dict.insert records id { r with bins := (f r.bins args).1 }) where
  succeeded := by simp
  failed := h
  get?_before := by simp
  get?_failed := ⟨_, Dict.get?_insert_self _ _ _⟩
  get?_other other _ hne := Dict.get?_insert_of_ne _ _ hne

/-- A success comes before the rest of the query. -/
theorem cons {m : RecordId × StoredRecord} {before : List (RecordId × StoredRecord)} {v : Value}
    {new : Dict RecordId StoredRecord} (hm : (f m.2.bins args).2 = .ok v)
    (hid : m.1 ≠ id) (hb : m.1 ∉ before.map Prod.fst)
    (h : StoppedAt f args e before id r (Dict.insert records m.1 (applied f args m.2)) new) :
    StoppedAt f args e (m :: before) id r records new where
  succeeded := List.forall_mem_cons.mpr ⟨⟨v, hm⟩, h.succeeded⟩
  failed := h.failed
  get?_before := by
    refine List.forall_mem_cons.mpr ⟨?_, h.get?_before⟩
    rw [h.get?_other m.1 hb hid, Dict.get?_insert_self]
  get?_failed := h.get?_failed
  get?_other other ho hne := by
    rw [List.map_cons, List.mem_cons, not_or] at ho
    rw [h.get?_other other ho.2 hne, Dict.get?_insert_of_ne _ _ ho.1]

/-- Every other entry is as it was: the ids of the entries before and of the failed one are
no other entry's. -/
theorem get?_of_mem {before : List (RecordId × StoredRecord)} {old new : Dict RecordId StoredRecord}
    (h : StoppedAt f args e before id r old new) (ho : Dict.Ascending old)
    (hb : ∀ m ∈ before, m ∈ old) (hr : (id, r) ∈ old) {m : RecordId × StoredRecord} (hm : m ∈ old)
    (hmb : m ∉ before) (hmr : m ≠ (id, r)) : Dict.get? new m.1 = some m.2 := by
  have hg := Dict.get?_of_mem ho hm
  have hsame : ∀ m' ∈ old, m'.1 = m.1 → m' = m := by
    intro m' hm' he
    have hg' := Dict.get?_of_mem ho hm'
    rw [he, hg, Option.some.injEq] at hg'
    exact Prod.ext he hg'.symm
  rw [h.get?_other m.1, hg]
  · intro hmem
    obtain ⟨m', hm', he⟩ := List.mem_map.mp hmem
    exact hmb (hsame m' (hb m' hm') he ▸ hm')
  · intro he
    exact hmr (hsame (id, r) hr he.symm).symm

end StoppedAt

theorem applyEach_eq_error (f : RecordFunction) (args : List Value)
    (found : List (RecordId × StoredRecord)) (hn : (found.map Prod.fst).Nodup)
    (records : Dict RecordId StoredRecord) (hf : ∀ m ∈ found, Dict.get? records m.1 = some m.2)
    {e : Status} (h : (applyEach f args (found.map Prod.fst) records).2 = .error e) :
    ∃ before id r rest, found = before ++ (id, r) :: rest ∧
      StoppedAt f args e before id r records
        (applyEach f args (found.map Prod.fst) records).1 ∧
      Dict.get? (applyEach f args (found.map Prod.fst) records).1 id
        = some { r with bins := (f r.bins args).1 } := by
  induction found generalizing records with
  | nil => cases h
  | cons m found ih =>
    rw [List.map_cons, List.nodup_cons] at hn
    obtain ⟨hm, hf⟩ := List.forall_mem_cons.mp hf
    rw [List.map_cons] at h ⊢
    cases hr : (f m.2.bins args).2 with
    | error e' =>
      rw [applyEach_cons_of_error hm _ hr] at h ⊢
      cases h
      exact ⟨[], m.1, m.2, found, rfl, StoppedAt.at_once hr, Dict.get?_insert_self _ _ _⟩
    | ok v =>
      rw [applyEach_cons_of_ok hm _ hr] at h ⊢
      obtain ⟨before, id, r, rest, hs, hstop, hleft⟩ :=
        ih hn.2 _ (get?_insert_of_rest hn.1 hf _) h
      have hnot := hn.1
      rw [hs, List.map_append, List.map_cons, List.mem_append, List.mem_cons, not_or, not_or]
        at hnot
      exact ⟨m :: before, id, r, rest, by rw [hs, List.cons_append],
        hstop.cons hr hnot.2.1 hnot.1, hleft⟩

theorem Filed.nodup_scan {s : Store} (h : s.Filed) (ns : String) (set : Option String)
    (filters : List Filter) : ((s.scan ns set filters).map Prod.fst).Nodup := by
  have hp : (s.records.map Prod.fst).Nodup :=
    List.pairwise_map.mpr (h.imp fun hb => LawfulKeyOrder.ne hb)
  exact hp.sublist (List.filter_sublist.map Prod.fst)

theorem Filed.get?_of_mem_scan {s : Store} (h : s.Filed) {ns : String} {set : Option String}
    {filters : List Filter} {m : RecordId × StoredRecord} (hm : m ∈ s.scan ns set filters) :
    Dict.get? s.records m.1 = some m.2 :=
  Dict.get?_of_mem h (List.mem_of_mem_filter hm)

end Store

open Store

namespace Store

def firstMark : Key := ⟨"test", "marks", some (.int 1), none⟩
def secondMark : Key := ⟨"test", "marks", some (.int 2), none⟩

/-- Two records, of which the second has its mark already. -/
def marks : Store :=
  empty.after [(.sample, .put firstMark [("x", .int 1)] none none),
    (.sample, .put secondMark [("once", .bool true)] none none)]

def markAll : UdfCall := ⟨"samples", "once", []⟩

end Store

/-- A background query that fails has either not begun, since an index is missing or the
function is unknown, or it has stopped at the first match on which the function failed. -/
theorem failed_background_query_stops (c : Cluster) (s : Store) (hs : s.Reachable) (ns : String)
    (set : Option String) (spec : QuerySpec) (policy : Option QueryPolicy) (call : UdfCall)
    (hm : spec.mode = .background call) (e : Status)
    (h : (c.serve s (.query ns set spec policy)).2 = .error e) :
    ((spec.filters.forM (s.checkIndex ns) = .error e ∨ function c.functions call = .error e) ∧
      (c.serve s (.query ns set spec policy)).1 = s) ∨
    ∃ f before id r rest records, c.functions call.module call.function = some f ∧
      s.scan ns set spec.filters = before ++ (id, r) :: rest ∧
      StoppedAt f call.args e before id r s.records records ∧
      (∀ m ∈ s.records, m ∉ before → m ≠ (id, r) → Dict.get? records m.1 = some m.2) ∧
      (c.serve s (.query ns set spec policy)).1 = { s with records } := by
  simp only [Cluster.serve, query, hm] at h ⊢
  cases hc : spec.filters.forM (s.checkIndex ns) with
  | error e' =>
    rw [hc] at h
    cases h
    exact .inl ⟨.inl rfl, rfl⟩
  | ok =>
    rw [hc] at h
    simp only [background] at h ⊢
    cases hf : function c.functions call with
    | error e' =>
      rw [hf] at h
      cases h
      exact .inl ⟨.inr rfl, rfl⟩
    | ok f =>
      rw [hf] at h
      dsimp only at h ⊢
      have he : (applyEach f call.args ((s.scan ns set spec.filters).map Prod.fst) s.records).2
          = .error e := by
        cases hr : (applyEach f call.args ((s.scan ns set spec.filters).map Prod.fst) s.records).2
          with
        | error e' =>
          rw [hr] at h
          cases h
          rfl
        | ok =>
          rw [hr] at h
          cases h
      obtain ⟨before, id, r, rest, hsplit, hstop, -⟩ := applyEach_eq_error f call.args _
        (hs.filed.nodup_scan ns set spec.filters) s.records
        (fun m hm => hs.filed.get?_of_mem_scan hm) he
      have hfound : ∀ m ∈ before ++ (id, r) :: rest, m ∈ s.records := by
        intro m hm
        rw [← hsplit] at hm
        exact List.mem_of_mem_filter hm
      have hother : ∀ m ∈ s.records, m ∉ before → m ≠ (id, r) → Dict.get? _ m.1 = some m.2 :=
        fun m => hstop.get?_of_mem hs.filed (fun m hm => hfound m (List.mem_append_left _ hm))
          (hfound (id, r) (List.mem_append_right _ List.mem_cons_self))
      exact .inr ⟨f, before, id, r, rest, _, function_eq_ok hf, hsplit, hstop, hother, rfl⟩

theorem failed_background_query_stops_marks :
    ∃ f before id r rest records, Cluster.sample.functions "samples" "once" = some f ∧
      marks.scan "test" none [] = before ++ (id, r) :: rest ∧
      StoppedAt f [] (.new .udf "already applied") before id r marks.records records ∧
      ∀ m ∈ marks.records, m ∉ before → m ≠ (id, r) → Dict.get? records m.1 = some m.2 := by
  rcases failed_background_query_stops .sample marks ⟨_, rfl⟩ "test" none
    ⟨[], [], .background markAll⟩ none markAll rfl (.new .udf "already applied") rfl
    with ⟨h | h, -⟩ | ⟨f, before, id, r, rest, records, hf, hs, hstop, hother, -⟩
  · cases h
  · cases h
  · exact ⟨f, before, id, r, rest, records, hf, hs, hstop, hother⟩

/-- The function marks the first record, fails on the second, and the first stays marked. -/
theorem failed_background_query_keeps_marks :
    ¬ ∀ (c : Cluster) (s : Store), s.Reachable → ∀ (ns : String) (set : Option String)
      (spec : QuerySpec) (policy : Option QueryPolicy) (call : UdfCall),
      spec.mode = .background call → ∀ e : Status,
      (c.serve s (.query ns set spec policy)).2 = .error e →
      (c.serve s (.query ns set spec policy)).1.records = s.records := by
  intro h
  have hr := h .sample marks ⟨_, rfl⟩ "test" none ⟨[], [], .background markAll⟩ none markAll rfl
    (.new .udf "already applied") rfl
  have hg := congrArg (fun records => records.map fun e => e.2.gen) hr
  exact absurd hg (by decide)

end RecordDb
