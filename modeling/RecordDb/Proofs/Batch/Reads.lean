import Mathlib.Data.List.Forall2
import RecordDb.Proofs.Batch.Align
import RecordDb.Proofs.Batch.SameRecord
import RecordDb.Proofs.Store.Runs
import RecordDb.Session

/-!
# Batch reads beside single reads

The store finds a record by what it is filed under, while answers are given out by the test for the
same record; the two reads agree for all keys on which these notions of identity do.
-/
namespace RecordDb

namespace Store

/-- The entry of a batch for one key. -/
def answer? (s : Store) (bins : StoredRecord → Option Bins) (key : Key) : Option BatchRecord :=
  match s.find key with
  | .ok r => some (.found key (bins r) r.metadata)
  | .error _ => none

theorem answer?_of_found {s : Store} {key : Key} {r : StoredRecord} (h : s.find key = .ok r)
    (bins : StoredRecord → Option Bins) :
    s.answer? bins key = some (.found key (bins r) r.metadata) := by
  rw [answer?, h]

theorem answer?_of_not_found {s : Store} {key : Key} {e : Status} (h : s.find key = .error e)
    (bins : StoredRecord → Option Bins) : s.answer? bins key = none := by
  rw [answer?, h]

/-- Keys that are filed under one id find the same record. -/
theorem answer?_of_id_eq (s : Store) (bins : StoredRecord → Option Bins) {j k : Key}
    (h : RecordId.ofKey j = RecordId.ofKey k) :
    s.answer? bins k = (s.answer? bins j).map fun a => { a with key := k } := by
  cases hj : s.find j with
  | ok r =>
    have hk : s.find k = .ok r := by
      rw [find_eq_ok_iff] at hj ⊢
      rwa [← h]
    rw [answer?_of_found hj, answer?_of_found hk]
    rfl
  | error e =>
    rw [answer?_of_not_found hj, Option.map_none]
    cases hk : s.find k with
    | error e => exact answer?_of_not_found hk bins
    | ok r =>
      rw [find_eq_ok_iff, ← h, ← find_eq_ok_iff, hj] at hk
      cases hk

theorem consistent_answer? (s : Store) (bins : StoredRecord → Option Bins) {asked : List Key}
    (h : Key.Coherent asked) : Batch.Consistent (s.answer? bins) asked where
  key_eq k a ha := by
    rw [answer?] at ha
    split at ha
    · cases ha
      rfl
    · cases ha
  refl k hk ha := by
    rw [answer?] at ha
    split at ha
    · rename_i r hr
      obtain ⟨id, hid, -⟩ := (find_eq_ok_iff s k r).mp hr
      exact h.refl k hk id hid
    · cases ha
  answer_eq j hj k hk hs := s.answer?_of_id_eq bins (h.id_eq j hj k hk hs)
  trans := h.trans

end Store

/-- An entry of a batch beside the single read of its key. -/
structure Batch.Agrees (single : Except Error Answer) (key : Key) (entry : BatchRecord) : Prop where
  key_eq : entry.key = key
  found_iff : ∀ bins metadata,
    (entry.isFound ∧ entry.bins = some bins ∧ entry.metadata = some metadata) ↔
      single = .ok (.record ⟨key, bins, metadata⟩)
  otherwise : (∀ bins metadata, single ≠ .ok (.record ⟨key, bins, metadata⟩)) →
    entry.status = .recordNotFound

namespace Session

/-- A client's batch read of some keys succeeds, and it has one entry for each key in order
that agrees with the client's read of that key. -/
def BatchAgrees (s : Session) (c : Nat) (keys : List Key) : Prop :=
  ∀ (batchPolicy : Option BatchPolicy) (readPolicy : Option ReadPolicy), ∃ entries,
    (s.run c (.batchGet keys batchPolicy)).2 = .ok (.batch entries) ∧
    List.Forall₂ (fun key entry => Batch.Agrees (s.run c (.get key readPolicy)).2 key entry)
      keys entries

/-- A connected client gets what the store makes of its request. -/
theorem run_of_connected {s : Session} {c : Nat} (hc : s.isConnected c)
    (hp : s.transport.prepared = []) (command : Command) :
    (s.run c command).2 = command.conclude
      ((s.cluster.serve s.transport.store (command.request (s.policies c))).2.mapError
        Error.ofStatus) := by
  simp only [run, dispatch, if_pos hc, Transport.submit, hp]

section Connected
variable {s : Session} {c : Nat} (hc : s.isConnected c) (hp : s.transport.prepared = [])
include hc hp

theorem run_get_of_found {key : Key} {r : StoredRecord} (h : s.transport.store.find key = .ok r)
    (policy : Option ReadPolicy) :
    (s.run c (.get key policy)).2 = .ok (.record ⟨key, r.bins, r.metadata⟩) := by
  rw [run_of_connected hc hp]
  simp only [Command.request, Cluster.serve, Store.read, h]
  rfl

theorem run_get_of_not_found {key : Key} {e : Status}
    (h : s.transport.store.find key = .error e) (policy : Option ReadPolicy) :
    (s.run c (.get key policy)).2 = .error (.ofStatus e) := by
  rw [run_of_connected hc hp]
  simp only [Command.request, Cluster.serve, Store.read, h]
  rfl

/-- The entries that the store has for some keys, in the order in which it gives them. -/
theorem run_batchGet (keys : List Key) (policy : Option BatchPolicy) :
    (s.run c (.batchGet keys policy)).2 = .ok (.batch (Batch.align keys
      (if s.cluster.reversesBatches then
        (keys.filterMap (s.transport.store.answer? fun r => some r.bins)).reverse
      else keys.filterMap (s.transport.store.answer? fun r => some r.bins)))) := by
  rw [run_of_connected hc hp]
  rfl

theorem agrees_expected (key : Key) (policy : Option ReadPolicy) :
    Batch.Agrees (s.run c (.get key policy)).2 key
      (Batch.expected (s.transport.store.answer? fun r => some r.bins) key) := by
  cases hf : s.transport.store.find key with
  | ok r =>
    rw [run_get_of_found hc hp hf, Batch.expected, Store.answer?_of_found hf, Option.getD_some]
    refine ⟨rfl, fun bins metadata => ⟨?_, ?_⟩, fun h => absurd rfl (h _ _)⟩
    · rintro ⟨-, hb, hm⟩
      cases hb
      cases hm
      rfl
    · intro h
      cases h
      exact ⟨rfl, rfl, rfl⟩
  | error e =>
    rw [run_get_of_not_found hc hp hf, Batch.expected, Store.answer?_of_not_found hf,
      Option.getD_none]
    refine ⟨rfl, fun bins metadata => ⟨?_, ?_⟩, fun _ => rfl⟩
    · rintro ⟨h, -⟩
      cases h
    · intro h
      cases h

theorem batchAgrees_of_coherent {keys : List Key} (h : Key.Coherent keys) :
    s.BatchAgrees c keys := by
  intro batchPolicy readPolicy
  have hperm : (if s.cluster.reversesBatches then
        (keys.filterMap (s.transport.store.answer? fun r => some r.bins)).reverse
      else keys.filterMap (s.transport.store.answer? fun r => some r.bins)).Perm
      (keys.filterMap (s.transport.store.answer? fun r => some r.bins)) := by
    split
    · exact List.reverse_perm _
    · exact List.Perm.refl _
  refine ⟨_, run_batchGet hc hp keys batchPolicy, ?_⟩
  rw [Batch.align_eq_map (s.transport.store.consistent_answer? _ h) hperm,
    List.forall₂_map_right_iff, List.forall₂_same]
  exact fun key _ => agrees_expected hc hp key readPolicy

theorem forall₂_of_batchAgrees {keys : List Key} (h : s.BatchAgrees c keys) :
    List.Forall₂ (fun key entry => Batch.Agrees (s.run c (.get key none)).2 key entry) keys
      (Batch.align keys (if s.cluster.reversesBatches then
        (keys.filterMap (s.transport.store.answer? fun r => some r.bins)).reverse
      else keys.filterMap (s.transport.store.answer? fun r => some r.bins))) := by
  obtain ⟨entries, he, hf⟩ := h none none
  rw [run_batchGet hc hp] at he
  cases he
  exact hf

/-- A record that is there must not be reported as not found. -/
theorem not_agrees_notFound {key : Key} {r : StoredRecord}
    (h : s.transport.store.find key = .ok r) :
    ¬ Batch.Agrees (s.run c (.get key none)).2 key (.notFound key) := by
  intro ha
  rw [run_get_of_found hc hp h] at ha
  obtain ⟨hf, -⟩ := (ha.found_iff r.bins r.metadata).mpr rfl
  cases hf

/-- Nor a record that is not there as another one that is. -/
theorem not_agrees_found {key : Key} {e : Status} (h : s.transport.store.find key = .error e)
    (other : Key) (bins : Bins) (metadata : Metadata) :
    ¬ Batch.Agrees (s.run c (.get key none)).2 key
      { BatchRecord.found other (some bins) metadata with key } := by
  intro ha
  rw [run_get_of_not_found hc hp h] at ha
  cases (ha.found_iff bins metadata).mp ⟨rfl, rfl, rfl⟩

end Connected

end Session

end RecordDb
