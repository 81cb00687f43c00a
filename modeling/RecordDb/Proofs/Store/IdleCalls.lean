import RecordDb.Proofs.Store.Background
import RecordDb.Proofs.Value.Reflexivity

/-!
# Calls of functions that leave the bins as they were

Whether there is something to file is told by comparing the bins, so such a call writes nothing,
unless there is a NaN in the bins. Then they differ from themselves and are filed again as they
were.
-/
namespace RecordDb

namespace Store

/-- Bins with something in them belong to a record. -/
theorem exists_of_hasNaN {s : Store} {id : RecordId} (h : Value.hasNaNEntries (s.bins id)) :
    ∃ r, Dict.get? s.records id = some r ∧ r.bins = s.bins id ∧ r.bins.isEmpty = false := by
  rw [bins] at h ⊢
  cases hr : Dict.get? s.records id with
  | none =>
    rw [hr] at h
    cases h
  | some r =>
    rw [hr] at h
    refine ⟨r, rfl, rfl, ?_⟩
    cases hbins : r.bins with
    | nil => simp [hbins, Value.hasNaNEntries] at h
    | cons e rest => rfl

/-- A record filed again with the bins that it has. -/
theorem commit_same {s : Store} {id : RecordId} {r : StoredRecord}
    (hr : Dict.get? s.records id = some r) (hbins : r.bins.isEmpty = false) (key : Key) :
    (s.commit id key r.bins none).1
      = { s with records := Dict.insert s.records id { r with gen := r.gen + 1 } } := by
  simp only [commit, hr, hbins]
  rfl

theorem advanced_ne {s : Store} {id : RecordId} {r : StoredRecord}
    (hr : Dict.get? s.records id = some r) :
    { s with records := Dict.insert s.records id { r with gen := r.gen + 1 } } ≠ s := by
  intro hs
  have hrecord := congrArg (fun s => Dict.get? (Store.records s) id) hs
  dsimp only at hrecord
  rw [Dict.get?_insert_self, hr] at hrecord
  have hgen : r.gen + 1 = r.gen := congrArg StoredRecord.gen (Option.some.inj hrecord)
  simp at hgen

theorem apply_of_idle {functions : Functions} {s : Store} {key : Key} {id : RecordId}
    {call : UdfCall} {f : RecordFunction} {v : Value}
    (hf : functions call.module call.function = some f) (hid : RecordId.ofKey key = .ok id)
    (hidle : f (s.bins id) call.args = (s.bins id, .ok v)) :
    (apply functions key call).on s =
      (if Value.hasNaNEntries (s.bins id) then (s.commit id key (s.bins id) none).1 else s,
        .ok (.value v)) := by
  rw [bins] at hidle ⊢
  simp only [apply, function, hf, hid, Effect.on_check_bind, Effect.on_get_bind, hidle,
    Value.sameEntries_self]
  cases Value.hasNaNEntries (((Dict.get? s.records id).map StoredRecord.bins).getD []) <;> rfl

end Store

open Store

/-- A call of a function that leaves the bins as they were gives its value and changes nothing
exactly if there is no NaN in the bins. If there is one, the record gets its next generation and is
otherwise as it was. A key that addresses no record is refused. -/
theorem idle_call_writes_nothing_iff (c : Cluster) (s : Store) (key : Key) (call : UdfCall)
    (policy : Option ApplyPolicy) (f : RecordFunction)
    (hf : c.functions call.module call.function = some f) :
    let served := c.serve s (.apply key call policy)
    (∀ e, RecordId.ofKey key = .error e → served = (s, .error e)) ∧
    ∀ id v, RecordId.ofKey key = .ok id → f (s.bins id) call.args = (s.bins id, .ok v) →
      served.2 = .ok (.value v) ∧
      (served.1 = s ↔ Value.hasNaNEntries (s.bins id) = false) ∧
      (Value.hasNaNEntries (s.bins id) → ∃ r, Dict.get? s.records id = some r ∧
        served.1 = { s with records := Dict.insert s.records id { r with gen := r.gen + 1 } }) := by
  refine ⟨?_, ?_⟩
  · intro e he
    simp only [Cluster.serve, apply, function, hf, he, Effect.on_check_bind]
  · intro id v hid hidle
    rw [Cluster.serve, apply_of_idle hf hid hidle]
    dsimp only
    cases hnan : Value.hasNaNEntries (s.bins id) with
    | false => simp
    | true =>
      obtain ⟨r, hr, hbins, hne⟩ := exists_of_hasNaN hnan
      rw [if_pos rfl, ← hbins, commit_same hr hne]
      refine ⟨rfl, ⟨fun hs => ?_, fun hnot => ?_⟩, fun _ => ⟨r, hr, rfl⟩⟩
      · exact absurd hs (advanced_ne hr)
      · cases hnot

/-- One record without a NaN, and one with a NaN in a list. -/
theorem idle_call_writes_nothing_iff_echo :
    let request : Request := .apply firstMark ⟨"samples", "echo", []⟩ none
    let odd : Store :=
      empty.after [(.sample, .put firstMark [("x", .list [.float .nan])] none none)]
    Cluster.sample.functions "samples" "echo" = some (SampleFunctions.echo "echo") ∧
    Cluster.sample.serve marks request = (marks, .ok (.value (.list [.string "echo"]))) ∧
    (Cluster.sample.serve odd request).2 = .ok (.value (.list [.string "echo"])) ∧
    (Cluster.sample.serve odd request).1 ≠ odd := by
  intro request odd
  obtain ⟨hvalue, hmarks, -⟩ :=
    (idle_call_writes_nothing_iff .sample marks firstMark ⟨"samples", "echo", []⟩ none _ rfl).2
      _ _ rfl rfl
  obtain ⟨hvalue', hodd, -⟩ :=
    (idle_call_writes_nothing_iff .sample odd firstMark ⟨"samples", "echo", []⟩ none _ rfl).2
      _ _ rfl rfl
  refine ⟨rfl, Prod.ext (hmarks.mpr rfl) hvalue, hvalue', fun hsame => ?_⟩
  cases hodd.mp hsame

end RecordDb
