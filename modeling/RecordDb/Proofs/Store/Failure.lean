import RecordDb.Operation.Builders
import RecordDb.Proofs.Store.Runs

/-!
# Requests that fail

A request that fails changes nothing but the log, unless it is a background query. Its checks come
before its change, and what operations or a function did before they failed was done to a copy.
-/
namespace RecordDb

def Request.isBackground : Request → Bool
  | .query _ _ spec _ =>
    match spec.mode with
    | .background _ => true
    | _ => false
  | _ => false

namespace Cluster
open Store

theorem serve_query_of_foreground (c : Cluster) (s : Store) (ns : String) (set : Option String)
    (spec : QuerySpec) (policy : Option QueryPolicy)
    (h : (Request.query ns set spec policy).isBackground = false) :
    (c.serve s (.query ns set spec policy)).1 = s := by
  simp only [serve, Store.query]
  split
  · rfl
  · split
    · rfl
    · rfl
    · rename_i call hm
      rw [Request.isBackground, hm] at h
      cases h

theorem serve_eq_error (c : Cluster) (s : Store) (q : Request) (hq : q.isBackground = false)
    {e : Status} (h : (c.serve s q).2 = .error e) : (c.serve s q).1 = s := by
  cases q with
  | put => exact (failsClean_put _ _ _ _).on_eq h
  | remove => exact (failsClean_remove _ _).on_eq h
  | operate => exact (failsClean_operate _ _ _ _).on_eq h
  | apply => exact (failsClean_apply _ _ _).on_eq h
  | query ns set spec policy => exact serve_query_of_foreground c s ns set spec policy hq
  | indexCreate options indexType policy =>
    rw [serve, on_createIndex] at h ⊢
    split at h
    · rename_i hthere
      rw [if_pos hthere]
    · cases h
  | indexRemove ns index policy =>
    rw [serve, on_removeIndex] at h ⊢
    split at h
    · cases h
    · rename_i hthere
      rw [if_neg hthere]
  | udfRemove module policy =>
    rw [serve, on_removeModule] at h ⊢
    split at h
    · cases h
    · rename_i hthere
      rw [if_neg hthere]
  | udfRegister => cases h
  | _ => rfl

end Cluster

namespace Store

/-- The part of a run that can have an effect: the requests that succeed, each in the state
that it meets, and the background queries. -/
def effective (s : Store) : List (Cluster × Request) → List (Cluster × Request)
  | [] => []
  | (c, q) :: rest =>
    if q.isBackground || (c.serve s q).2.isOk then (c, q) :: (c.serve s q).1.effective rest
    else s.effective rest

/-- The other requests of a run might as well not have been made. -/
theorem after_effective (s : Store) (run : List (Cluster × Request)) :
    s.after (s.effective run) = s.after run := by
  induction run generalizing s with
  | nil => rfl
  | cons e rest ih =>
    obtain ⟨c, q⟩ := e
    rw [effective]
    by_cases hq : (q.isBackground || (c.serve s q).2.isOk) = true
    · rw [if_pos hq, after, after, ih]
    · rw [if_neg hq, after, ih]
      rw [Bool.or_eq_true, not_or, Bool.not_eq_true] at hq
      cases hr : (c.serve s q).2 with
      | error e => rw [c.serve_eq_error s q hq.1 hr]
      | ok response => exact absurd (by rw [hr]; rfl) hq.2

end Store

namespace Transport

/-- Whatever state the transport is in, a request that completes with an error leaves behind
only its entry in the log, and the completion that was prepared for it, if one was, used up. -/
theorem failed_request_changes_nothing (c : Cluster) (t : Transport) (q : Request)
    (hq : q.isBackground = false) (e : Status) (h : (t.submit c q).2 = .error e) :
    (t.submit c q).1 = { t with log := t.log ++ [q], prepared := t.prepared.tail } := by
  rw [submit] at h ⊢
  cases hp : t.prepared with
  | cons completion rest => rw [List.tail_cons]
  | nil =>
    simp only [hp] at h ⊢
    rw [c.serve_eq_error t.store q hq h, List.tail_nil]

def counterKey : Key := ⟨"test", "counters", some (.int 1), none⟩

/-- A transport with one counter. -/
def counting : Transport := (new.submit .sample (.put counterKey [("n", .int 1)] none none)).1

/-- The operations have counted on and then taken the counter out of their copy of the bins, and the
function has marked its own, when they fail. -/
theorem failed_request_changes_nothing_halfway :
    let bins : Bins := [("n", .int 1)]
    let ops : List Operation := [.incr "n" (.int 1), .listAppend "n" .nil]
    let operate : Request := .operate counterKey ops none none
    let apply : Request := .apply counterKey ⟨"samples", "fail", []⟩ none
    (Evaluation.performAll ops).run ⟨bins, [], none⟩
      = .error (.new .binIncompatible "bin 'n' has an incompatible type") ⟨[], [], none⟩ ∧
    (counting.submit .sample operate).1
      = { counting with log := counting.log ++ [operate], prepared := [] } ∧
    SampleFunctions.fail bins []
      = ([("failed", .bool true), ("n", .int 1)], .error (.new .udf "nil")) ∧
    (counting.submit .sample apply).1
      = { counting with log := counting.log ++ [apply], prepared := [] } := by
  intro bins ops operate apply
  refine ⟨rfl, ?_, rfl, ?_⟩
  · exact failed_request_changes_nothing .sample counting operate rfl
      (.new .binIncompatible "bin 'n' has an incompatible type") rfl
  · exact failed_request_changes_nothing .sample counting apply rfl (.new .udf "nil") rfl

end Transport

end RecordDb
