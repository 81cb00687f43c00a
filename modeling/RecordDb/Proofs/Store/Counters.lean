import Mathlib.Algebra.BigOperators.Group.List.Basic
import Mathlib.Algebra.Ring.Int.Defs
import RecordDb.Operation.Builders
import RecordDb.Proofs.Store.Commutation

/-!
# Counters

An increment reads and writes its bin in one request, so the increments of all clients add up,
whichever way they are spread over requests and interleaved.
-/
namespace RecordDb

open Store

/-- Where a counter stands: a bin that is missing counts from zero. -/
def counter? : Option Value → Option Int64
  | none => some 0
  | some (.int i) => some i
  | some _ => none

/-- The sum of integers, which may be out of their range. -/
def total (amounts : List Int64) : Int := (amounts.map Int64.toInt).sum

/-- A number that has grown by integers, modulo `2 ^ 64`. -/
def grown (start : Int64) (amounts : List Int64) : Int64 :=
  Int64.ofInt (start.toInt + total amounts)

theorem grown_singleton (start d : Int64) : grown start [d] = start + d := by
  simp [grown, total]

/-- It makes no difference whether the sum wraps at each step or once at the end. -/
theorem grown_append (start : Int64) (amounts amounts' : List Int64) :
    grown start (amounts ++ amounts') = grown (grown start amounts) amounts' := by
  simp only [grown, total, List.map_append, List.sum_append, Int64.ofInt_add,
    Int64.ofInt_toInt, Int64.add_assoc]

theorem grown_perm (start : Int64) {amounts amounts' : List Int64}
    (h : amounts.Perm amounts') : grown start amounts = grown start amounts' := by
  rw [grown, grown, total, total, (h.map Int64.toInt).sum_eq]

/-- What the bin of a counter holds after increments. Without any it may still be missing. -/
def counted (old : Option Value) (start : Int64) (amounts : List Int64) : Option Value :=
  if amounts.isEmpty then old else some (.int (grown start amounts))

theorem counted_append (old : Option Value) (start : Int64) {amounts : List Int64}
    (h : amounts ≠ []) (amounts' : List Int64) :
    counted (some (.int (grown start amounts))) (grown start amounts) amounts'
      = counted old start (amounts ++ amounts') := by
  cases amounts' with
  | nil => simp [counted, h]
  | cons d rest => simp [counted, grown_append]

theorem counted_perm (old : Option Value) (start : Int64) {amounts amounts' : List Int64}
    (h : amounts.Perm amounts') : counted old start amounts = counted old start amounts' := by
  rw [counted, counted, h.isEmpty_eq, grown_perm start h]

namespace Evaluation

theorem step_incr {p : Progress} {bin : String} {start : Int64}
    (h : counter? (Dict.get? p.bins bin) = some start) (d : Int64) :
    step p (.incr bin (.int d)) =
      .ok { p with bins := Dict.insert p.bins bin (.int (grown start [d])) } := by
  have hsum : sum? (Dict.get? p.bins bin) (.int d) = some (.int (grown start [d])) := by
    rw [grown_singleton]
    unfold counter? at h
    split at h
    · rename_i hb
      cases h
      rw [hb, sum?, Int64.zero_add]
    · rename_i hb
      cases h
      rw [hb, sum?]
    · cases h
  simp only [step, perform, Operation.incr, Operation.ofScalar, ScalarOperation.new, scalar,
    outcome_combine, Evaluated.required, bind, Except.bind, hsum]
  rfl

/-- Increments leave everything but their bin alone, and it only if there are any. -/
theorem foldlM_step_incr {p : Progress} {bin : String} {start : Int64}
    (h : counter? (Dict.get? p.bins bin) = some start) (amounts : List Int64) :
    ∃ bins, (amounts.map fun d => Operation.incr bin (.int d)).foldlM step p
        = .ok { p with bins } ∧
      Dict.get? bins bin = counted (Dict.get? p.bins bin) start amounts := by
  induction amounts generalizing p start with
  | nil => exact ⟨p.bins, rfl, rfl⟩
  | cons d rest ih =>
    have hd : Dict.get? (Dict.insert p.bins bin (.int (grown start [d]))) bin
        = some (.int (grown start [d])) := Dict.get?_insert_self _ _ _
    have hnow : counter? (Dict.get? (Dict.insert p.bins bin (.int (grown start [d]))) bin)
        = some (grown start [d]) := congrArg counter? hd
    obtain ⟨bins, hrun, hbin⟩ :=
      ih (p := { p with bins := Dict.insert p.bins bin (.int (grown start [d])) }) hnow
    refine ⟨bins, ?_, ?_⟩
    · rw [List.map_cons, List.foldlM_cons, step_incr h]
      exact hrun
    · rw [hbin, hd, counted_append _ _ (List.cons_ne_nil _ _), List.singleton_append]

end Evaluation

/-- Increments of one bin that a client sends as one request. -/
structure Addition where
  key : Key
  amounts : List Int64

namespace Addition

def operations (bin : String) (a : Addition) : List Operation :=
  a.amounts.map fun d => .incr bin (.int d)

def request (bin : String) (a : Addition) : Request :=
  .operate a.key (a.operations bin) none none

/-- The addition is to the record under the id, and is not empty. -/
structure To (id : RecordId) (a : Addition) : Prop where
  key : RecordId.ofKey a.key = .ok id
  amounts : a.amounts ≠ []

theorem To.any_isWrite {id : RecordId} {a : Addition} (h : a.To id) (bin : String) :
    (a.operations bin).any Operation.isWrite = true := by
  obtain ⟨d, rest, ha⟩ := List.exists_cons_of_ne_nil h.amounts
  rw [operations, ha]
  rfl

end Addition

/-- The amounts of a schedule of additions, in the order in which they are added. -/
def amountsOf {κ : Type} (schedule : List (κ × Addition)) : List Int64 :=
  schedule.flatMap fun e => e.2.amounts

theorem amountsOf_cons {κ : Type} (e : κ × Addition) (schedule : List (κ × Addition)) :
    amountsOf (e :: schedule) = e.2.amounts ++ amountsOf schedule := List.flatMap_cons

/-- The generation of the record under an id, zero if there is none. -/
def Store.generation (s : Store) (id : RecordId) : UInt32 :=
  ((Dict.get? s.records id).map StoredRecord.gen).getD 0

/-- Operations that write and run through are filed, if the request comes without conditions. -/
theorem Store.operate_of_run {s : Store} {key : Key} {id : RecordId}
    (hid : RecordId.ofKey key = .ok id) {ops : List Operation}
    (hw : ops.any Operation.isWrite = true) {done : Evaluation.Progress}
    (hrun : Evaluation.run (s.bins id) ops = .ok done) :
    (operate key ops .empty none).on s = ((s.commit id key done.bins done.ttl).1,
      .ok (.record done.results (s.commit id key done.bins done.ttl).2)) := by
  have hcurrent : checkCurrent none none (Dict.get? s.records id) = .ok () := by
    cases Dict.get? s.records id with
    | none => rfl
    | some r => rfl
  have hcopy := Effect.outcome_eq_ok_iff.mp hrun
  rw [Store.bins] at hcopy
  simp only [operate, hid, hw, hcurrent, hcopy, Effect.on_check_bind, Effect.on_get_bind,
    Bool.not_true, Bool.and_false, Bool.false_eq_true, if_false, Bool.true_or, if_true,
    Option.bind_none, Metadata.empty, Option.or_none]
  rfl

namespace Cluster
variable (c : Cluster) {s : Store} {id : RecordId} {bin : String} {start : Int64}

/-- One addition. The record may be missing before and is there afterwards, since the counter
is one of its bins. -/
theorem serve_addition (h : counter? (Dict.get? (s.bins id) bin) = some start) {a : Addition}
    (ha : a.To id) :
    ∃ s' response, c.serve s (a.request bin) = (s', .ok response) ∧
      Dict.get? (s'.bins id) bin = some (.int (grown start a.amounts)) ∧
      s'.generation id = s.generation id + 1 := by
  obtain ⟨bins, hrun, hbin⟩ :=
    Evaluation.foldlM_step_incr (p := ⟨s.bins id, [], none⟩) h a.amounts
  rw [counted, if_neg (by simpa using ha.amounts)] at hbin
  have hserve : c.serve s (a.request bin) = ((s.commit id a.key bins none).1,
      .ok (.record [] (s.commit id a.key bins none).2)) :=
    operate_of_run ha.key (ha.any_isWrite bin) ((Evaluation.run_eq_foldlM _ _).trans hrun)
  have hrecord := s.get?_commit_self id a.key bins none
  have hne : bins.isEmpty = false := by
    cases bins with
    | nil => cases hbin
    | cons e rest => rfl
  rw [hne] at hrecord
  refine ⟨_, _, hserve, ?_, ?_⟩
  · rw [Store.bins, hrecord]
    exact hbin
  · rw [generation, hrecord]
    rfl

/-- A schedule of additions, by induction on it: the counter is an integer again after each. -/
theorem storeAfter_additions {κ : Type} (h : counter? (Dict.get? (s.bins id) bin) = some start)
    (schedule : List (κ × Addition)) (hs : ∀ e ∈ schedule, e.2.To id) :
    let requests := schedule.map fun e => (e.1, e.2.request bin)
    (∀ e ∈ c.completions s requests, ∃ response, e.2 = .ok response) ∧
    Dict.get? ((c.storeAfter s requests).bins id) bin
      = counted (Dict.get? (s.bins id) bin) start (amountsOf schedule) ∧
    (c.storeAfter s requests).generation id
      = s.generation id + UInt32.ofNat schedule.length := by
  induction schedule generalizing s start with
  | nil => exact ⟨by simp [completions], rfl, (UInt32.add_zero _).symm⟩
  | cons e rest ih =>
    obtain ⟨he, hs⟩ := List.forall_mem_cons.mp hs
    obtain ⟨s', response, hserve, hbin, hgen⟩ := c.serve_addition h he
    have hnow : counter? (Dict.get? (s'.bins id) bin) = some (grown start e.2.amounts) :=
      congrArg counter? hbin
    obtain ⟨hok, hrest, hgens⟩ := ih hnow hs
    have hafter : c.storeAfter s ((e.1, e.2.request bin) ::
        rest.map fun e => (e.1, e.2.request bin))
        = c.storeAfter s' (rest.map fun e => (e.1, e.2.request bin)) := by
      rw [storeAfter, List.map_cons, after]
      rw [hserve]
      rfl
    refine ⟨?_, ?_, ?_⟩
    · simp only [List.map_cons, completions, hserve, List.forall_mem_cons]
      exact ⟨⟨response, rfl⟩, hok⟩
    · rw [List.map_cons, hafter, hrest, hbin, amountsOf_cons, counted_append _ _ he.amounts]
    · rw [List.map_cons, hafter, hgens, hgen, List.length_cons, UInt32.ofNat_add, UInt32.add_assoc]
      rw [UInt32.add_comm 1]
      rfl

end Cluster

/-- No increment is lost. However the increments of a counter are put into requests and the
requests of the clients are interleaved, all of them succeed, the counter ends at where it
started and their sum, modulo `2 ^ 64`, and the record is as many generations further as there
were requests. Another way to put and to interleave the same increments leaves the same. -/
theorem increments_never_lost (c : Cluster) (s : Store) (id : RecordId) (bin : String)
    (start : Int64) (h : counter? (Dict.get? (s.bins id) bin) = some start) {κ : Type}
    (schedule : List (κ × Addition)) (hs : ∀ e ∈ schedule, e.2.To id) :
    let requests := schedule.map fun e => (e.1, e.2.request bin)
    let s' := c.storeAfter s requests
    (∀ e ∈ c.completions s requests, ∃ response, e.2 = .ok response) ∧
    Dict.get? (s'.bins id) bin
      = counted (Dict.get? (s.bins id) bin) start (amountsOf schedule) ∧
    ((s.generation id).toNat + schedule.length < 2 ^ 32 →
      (s'.generation id).toNat = (s.generation id).toNat + schedule.length) ∧
    ∀ (κ' : Type) (schedule' : List (κ' × Addition)), (∀ e ∈ schedule', e.2.To id) →
      (amountsOf schedule).Perm (amountsOf schedule') →
      Dict.get? ((c.storeAfter s (schedule'.map fun e => (e.1, e.2.request bin))).bins id) bin
        = Dict.get? (s'.bins id) bin := by
  obtain ⟨hok, hbin, hgen⟩ := c.storeAfter_additions h schedule hs
  refine ⟨hok, hbin, fun hroom => ?_, fun κ' schedule' hs' hp => ?_⟩
  · rw [hgen, UInt32.toNat_add, UInt32.toNat_ofNat']
    omega
  · obtain ⟨-, hbin', -⟩ := c.storeAfter_additions h schedule' hs'
    rw [hbin, hbin', counted_perm _ _ hp]

/-- What the first record of `marks` is filed under. -/
def firstMarkId : RecordId :=
  ⟨"test", Wire.Packed.encode (.arr [.text "marks", Codec.toDoc (Value.int 1)])⟩

/-- Two clients count past the largest integer, one of them in two requests. -/
theorem increments_never_lost_wrapping :
    let requests := [(false, Request.operate firstMark [.incr "x" (.int Int64.maxValue)] none none),
      (true, .operate firstMark [.incr "x" (.int 3), .incr "x" (.int (-1))] none none),
      (false, .operate firstMark [.incr "x" (.int 5)] none none)]
    (∀ e ∈ Cluster.sample.completions marks requests, ∃ response, e.2 = .ok response) ∧
    Dict.get? ((Cluster.sample.storeAfter marks requests).bins firstMarkId) "x"
      = some (.int (Int64.minValue + 7)) ∧
    ((Cluster.sample.storeAfter marks requests).generation firstMarkId).toNat = 1 + 3 := by
  have hto (amounts : List Int64) (ha : amounts ≠ []) :
      (⟨firstMark, amounts⟩ : Addition).To firstMarkId := ⟨rfl, ha⟩
  obtain ⟨hok, hbin, hgen, -⟩ := increments_never_lost .sample marks firstMarkId "x" 1 rfl
    [(false, ⟨firstMark, [Int64.maxValue]⟩), (true, ⟨firstMark, [3, -1]⟩),
      (false, ⟨firstMark, [5]⟩)] (by simp [hto])
  exact ⟨hok, hbin.trans rfl, hgen (by decide)⟩

end RecordDb
