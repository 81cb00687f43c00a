import RecordDb.Proofs.Batch.Reads
import RecordDb.Proofs.Store.Runs

/-!
# Agreement of batch reads with single reads

How far batch reads agree with single reads. Where the identity of some keys is not coherent, a
store with one record and a batch of at most three of the keys tell the two reads apart.
-/
namespace RecordDb

namespace Session

/-- A connected client of a store with one record. -/
def holding (key : Key) (reversesBatches : Bool) : Session where
  cluster := { Cluster.sample with reversesBatches }
  transport :=
    { Transport.new with
      store := Store.empty.after [(.sample, .put key [("n", .int 1)] none none)]
      connected := true }
  active := 1
  handler := .default
  clients := [⟨.new none, none, true⟩]

section Holding
variable {key : Key} {id : RecordId} (hid : RecordId.ofKey key = .ok id) (reversesBatches : Bool)
include hid

theorem records_holding : (holding key reversesBatches).transport.store.records
    = [(id, ⟨key, [("n", .int 1)], 1, 0⟩)] := by
  simp only [holding, Store.after, Cluster.serve, Store.put, hid]
  rfl

theorem find_holding {other : Key} (h : RecordId.ofKey other = .ok id) :
    (holding key reversesBatches).transport.store.find other
      = .ok ⟨key, [("n", .int 1)], 1, 0⟩ := by
  rw [Store.find_eq_ok_iff, records_holding hid]
  exact ⟨id, h, if_pos rfl⟩

theorem find_holding_of_ne {other : Key} (h : RecordId.ofKey other ≠ .ok id) :
    ∃ e, (holding key reversesBatches).transport.store.find other = .error e := by
  cases hf : (holding key reversesBatches).transport.store.find other with
  | error e => exact ⟨e, rfl⟩
  | ok r =>
    rw [Store.find_eq_ok_iff, records_holding hid] at hf
    obtain ⟨id', hid', hr⟩ := hf
    rw [Dict.get?] at hr
    split at hr
    · rename_i he
      exact absurd (he ▸ hid') h
    · cases hr

end Holding

/-- The entry for a key of the one record. -/
def held (other : Key) : BatchRecord := .found other (some [("n", .int 1)]) ⟨some 0, some 1⟩

theorem reachable_holding (key : Key) (reversesBatches : Bool) :
    (holding key reversesBatches).transport.store.Reachable :=
  Store.reachable_empty.serve _ _

end Session

namespace Key

/-- Whatever store has been reached and in whatever order batches are answered, the batch
reads of keys among these agree with single reads. -/
def BatchesAgree (keys : List Key) : Prop :=
  ∀ (s : Session) (c : Nat), s.isConnected c → s.transport.prepared = [] →
    s.transport.store.Reachable → ∀ asked ⊆ keys, s.BatchAgrees c asked

namespace BatchesAgree
variable {keys : List Key} (h : BatchesAgree keys)
include h

theorem forall₂_holding (key : Key) (reversesBatches : Bool) (asked : List Key)
    (given : List BatchRecord) (ha : asked ⊆ keys)
    (hg : asked.filterMap ((Session.holding key reversesBatches).transport.store.answer?
      fun r => some r.bins) = given) :
    List.Forall₂ (fun k entry => Batch.Agrees
        ((Session.holding key reversesBatches).run 0 (.get k none)).2 k entry) asked
      (Batch.align asked (if reversesBatches then given.reverse else given)) := by
  subst hg
  exact Session.forall₂_of_batchAgrees (s := Session.holding key reversesBatches) (c := 0) rfl rfl
    (h _ 0 rfl rfl (Session.reachable_holding key reversesBatches) asked ha)

/-- Otherwise a stored key that is asked alone would not be found. -/
theorem refl {k : Key} (hk : k ∈ keys) {id : RecordId} (hid : RecordId.ofKey k = .ok id) :
    k.sameRecord k := by
  have hfind := Session.find_holding hid false hid
  by_contra hs
  have hall := h.forall₂_holding k false [k] [Session.held k]
    (by simpa using hk) (by rw [List.filterMap_cons, Store.answer?_of_found hfind]; rfl)
  have halign : Batch.align [k] [Session.held k] = [.notFound k] := by
    simp [Batch.align, Batch.alignFrom, Batch.entry, Batch.place?, Batch.answers, Session.held,
      BatchRecord.found, hs]
  rw [if_neg Bool.false_ne_true, halign, List.forall₂_cons] at hall
  exact Session.not_agrees_notFound rfl rfl hfind hall.1

/-- Otherwise a key whose record is not there would be given the record of another key. -/
theorem id_eq {j k : Key} (hj : j ∈ keys) (hk : k ∈ keys) (hs : j.sameRecord k) :
    RecordId.ofKey j = RecordId.ofKey k := by
  obtain ⟨id, hid⟩ := exists_id_of_sameRecord hs
  have hfind := Session.find_holding hid false hid
  by_contra hne
  rw [hid] at hne
  obtain ⟨e, he⟩ := Session.find_holding_of_ne hid false hne
  have hall := h.forall₂_holding k false [j, k] [Session.held k]
    (by simp [hj, hk])
    (by rw [List.filterMap_cons, Store.answer?_of_not_found he, List.filterMap_cons,
      Store.answer?_of_found hfind]; rfl)
  have hs' : k.sameRecord j := by rwa [sameRecord_comm]
  have halign : Batch.align [j, k] [Session.held k]
      = [{ Session.held k with key := j }, .notFound k] := by
    simp [Batch.align, Batch.alignFrom, Batch.entry, Batch.place?, Batch.answers, Session.held,
      BatchRecord.found, hs']
  rw [if_neg Bool.false_ne_true, halign, List.forall₂_cons] at hall
  exact Session.not_agrees_found rfl rfl he _ _ _ hall.1

/-- Otherwise, with the answers in reverse, the first of three keys would take the answer of
the second, the second that of the third, and the third would not be found. -/
theorem trans {i j k : Key} (hi : i ∈ keys) (hj : j ∈ keys) (hk : k ∈ keys)
    (hij : i.sameRecord j) (hik : i.sameRecord k) : j.sameRecord k := by
  obtain ⟨id, hid⟩ := exists_id_of_sameRecord hij
  have hidi : RecordId.ofKey i = .ok id := by rw [h.id_eq hi hj hij, hid]
  have hidk : RecordId.ofKey k = .ok id := by rw [← h.id_eq hi hk hik, hidi]
  have hfind {other : Key} (ho : RecordId.ofKey other = .ok id) :=
    Session.find_holding hid true ho
  by_contra hs
  have hall := h.forall₂_holding j true [j, i, k]
    [Session.held j, Session.held i, Session.held k] (by simp [hi, hj, hk])
    (by rw [List.filterMap_cons, Store.answer?_of_found (hfind hid), List.filterMap_cons,
      Store.answer?_of_found (hfind hidi), List.filterMap_cons,
      Store.answer?_of_found (hfind hidk)]; rfl)
  have hkj : k.sameRecord j = false := by
    rw [sameRecord_comm]
    exact Bool.not_eq_true _ |>.mp hs
  have hki : k.sameRecord i := by rwa [sameRecord_comm]
  have halign : Batch.align [j, i, k] [Session.held k, Session.held i, Session.held j]
      = [{ Session.held i with key := j }, { Session.held k with key := i }, .notFound k] := by
    simp [Batch.align, Batch.alignFrom, Batch.entry, Batch.place?, Batch.answers, Session.held,
      BatchRecord.found, hij, hkj, hki, hs, List.findIdx?_cons]
  rw [if_pos rfl] at hall
  simp only [List.reverse_cons, List.reverse_nil, List.nil_append, List.cons_append] at hall
  rw [halign, List.forall₂_cons, List.forall₂_cons, List.forall₂_cons] at hall
  exact Session.not_agrees_notFound rfl rfl (hfind hidk) hall.2.2.1

theorem coherent : Coherent keys where
  refl _ hk _ hid := h.refl hk hid
  id_eq _ hj _ hk hs := h.id_eq hj hk hs
  trans _ hi _ hj _ hk hij hik := h.trans hi hj hk hij hik

end BatchesAgree

/-- The exact extent to which batch reads agree with single reads. It does not cover a user
key with a NaN in it, which is not the same record as itself, nor keys with one digest and
different user keys, which are the same record and filed apart. -/
theorem batchesAgree_iff (keys : List Key) : BatchesAgree keys ↔ Coherent keys := by
  constructor
  · intro h
    exact h.coherent
  · intro h s c hc hp _ asked ha
    exact Session.batchAgrees_of_coherent hc hp (h.mono ha)

example : let k : Key := ⟨"test", "demo", some (.float .nan), none⟩
    k.sameRecord k = false := by decide

end Key

end RecordDb
