import RecordDb.Proofs.Node.InfoText
import RecordDb.Session

/-!
# Polls of a cluster that is served from its store

All nodes answer alike and a poll changes nothing but the log, so one poll tells what every later
one would.
-/
namespace RecordDb.Session

/-- A client that is connected to at least one node, with no completion prepared. -/
structure Serves (s : Session) (c : Nat) : Prop where
  connected : s.isConnected c = true
  prepared : s.transport.prepared = []
  nodes : s.cluster.nodes ≠ []

namespace Serves
variable {s : Session} {c : Nat}

/-- The session after a request to all nodes. -/
theorem run_info (h : s.Serves c) (request : String) :
    s.run c (.info (some request) none none) =
      ({ s with transport := { s.transport with
          log := s.transport.log ++ [.info (some request) none (s.policies c).info] } },
        .ok (.info (s.cluster.nodes.map fun host =>
          ⟨host, s.transport.store.info (some request)⟩))) := by
  rw [run, dispatch, if_pos h.connected]
  dsimp only [Command.request, Transport.submit]
  rw [h.prepared]
  rfl

theorem poll_eq (h : s.Serves c) (request : String) (test : String → Bool) :
    s.poll c request test =
      ((s.run c (.info (some request) none none)).1,
        .ok ((s.transport.store.reported request).any test)) := by
  have hall (complete : Bool) : s.cluster.nodes.all (fun _ => complete) = complete := by
    obtain ⟨host, rest, hnodes⟩ := List.exists_cons_of_ne_nil h.nodes
    rw [hnodes]
    cases complete with
    | true => exact List.all_eq_true.mpr fun _ _ => rfl
    | false => rfl
  rw [poll, h.run_info]
  dsimp only
  rw [List.isEmpty_map, List.isEmpty_eq_false_iff.mpr h.nodes, List.all_map,
    Bool.not_false, Bool.true_and]
  simp only [Function.comp_def, InfoResponse.parse, hall]
  rw [Store.reported]

theorem after_poll (h : s.Serves c) (request : String) :
    (s.run c (.info (some request) none none)).1.Serves c ∧
      (s.run c (.info (some request) none none)).1.transport.store = s.transport.store := by
  rw [h.run_info]
  exact ⟨⟨h.connected, h.prepared, h.nodes⟩, rfl⟩

/-- However often a client polls, the first poll decides. -/
theorem pollUntil_snd (h : s.Serves c) (request : String) (test : String → Bool) (polls : Nat) :
    (s.pollUntil c request test (polls + 1)).2 =
      if (s.transport.store.reported request).any test then some (.ok ()) else none := by
  induction polls generalizing s with
  | zero =>
    rw [pollUntil, h.poll_eq]
    cases (s.transport.store.reported request).any test <;> rfl
  | succ polls ih =>
    obtain ⟨hserves, hstore⟩ := h.after_poll request
    have hlater := ih hserves
    rw [hstore] at hlater
    rw [pollUntil, h.poll_eq]
    cases htest : (s.transport.store.reported request).any test with
    | true => rfl
    | false =>
      rw [htest] at hlater
      exact hlater

end Serves

end RecordDb.Session
