import RecordDb.Proofs.Session.EventLoop

/-!
# Sessions in which every connect succeeds

The count of active clients is then that of the clients that are connected and one more for each
connect of a client that was connected already: a client that connects twice is counted twice, and
one close takes it away only once.
-/
namespace RecordDb.Session

/-- A connect or a close of one of some clients. -/
inductive Visit (clients : Nat) where
  | connect (c : Fin clients)
  | close (c : Fin clients)

variable {n : Nat}

def visit (s : Session) : Visit n → Session
  | .connect c => (s.connect c).1
  | .close c => s.close c

def afterVisits (s : Session) : List (Visit n) → Session
  | [] => s
  | v :: rest => afterVisits (s.visit v) rest

/-- Whether a visit is a connect of a client that is connected. -/
def repeats (s : Session) : Visit n → Bool
  | .connect c => s.isConnected c
  | .close _ => false

/-- How many connects of a run are made by a client that is connected already. -/
def repeatedConnects (s : Session) : List (Visit n) → Nat
  | [] => 0
  | v :: rest => (if s.repeats v then 1 else 0) + repeatedConnects (s.visit v) rest

def connectedClients (s : Session) : Nat := s.clients.countP Client.connected

theorem connectedClients_setConnected {s : Session} {c : Nat} (hc : c < s.clients.length)
    (connected : Bool) :
    (s.setConnected c connected).connectedClients + (if s.isConnected c then 1 else 0) =
      s.connectedClients + if connected then 1 else 0 := by
  obtain ⟨before, client, rest, hs, hl, hm⟩ :=
    List.exists_of_modify (fun client => { client with connected } : Client → Client) hc
  have hclient : s.isConnected c = client.connected := by
    rw [isConnected, hs, ← hl, List.getElem?_append_right (Nat.le_refl _), Nat.sub_self]
    rfl
  rw [connectedClients, setConnected, hm, hclient, connectedClients, hs]
  simp only [List.countP_append, List.countP_cons]
  omega

theorem connectedClients_pos {s : Session} {c : Nat} (h : s.isConnected c = true) :
    0 < s.connectedClients := by
  rw [isConnected, Option.any_eq_true] at h
  obtain ⟨client, hclient, hconnected⟩ := h
  exact List.countP_pos_iff.mpr ⟨client, List.mem_of_getElem? hclient, hconnected⟩

theorem connectedClients_eq_zero {s : Session} (h : ∀ c, s.isConnected c = false) :
    s.connectedClients = 0 := by
  refine List.countP_eq_zero.mpr fun client hclient hconnected => ?_
  obtain ⟨c, hc⟩ := List.getElem?_of_mem hclient
  have hno := h c
  rw [isConnected, hc] at hno
  exact Bool.false_ne_true (hno.symm.trans hconnected)

theorem connect_of_ok {s : Session} (h : s.cluster.connectStatus.isOk = true) (c : Nat) :
    (s.connect c).1 = s.startConnect.1.setConnected c true := by
  change (s.startConnect.1.finishConnect c s.cluster.connectStatus).1 = _
  rw [finishConnect, if_pos h]

@[simp] theorem cluster_release (s : Session) : s.release.cluster = s.cluster := by
  rcases s with ⟨_, _, _ | n, _, _⟩ <;> rfl

@[simp] theorem clients_release (s : Session) : s.release.clients = s.clients := by
  rcases s with ⟨_, _, _ | n, _, _⟩ <;> rfl

@[simp] theorem active_release (s : Session) : s.release.active = s.active - 1 := by
  rcases s with ⟨_, _, _ | n, _, _⟩ <;> rfl

/-- How a session with some clients stands when every connect has succeeded and some of them were
made by a client that was connected already. -/
structure Balanced (clients repeated : Nat) (s : Session) : Prop where
  answer : s.cluster.connectStatus.isOk = true
  length : s.clients.length = clients
  settled : s.eventLoop.Settled
  active : s.active = s.connectedClients + repeated

namespace Balanced
variable {repeated : Nat} {s : Session} (h : Balanced n repeated s)
include h

theorem connect {c : Nat} (hc : c < n) :
    Balanced n (repeated + if s.isConnected c then 1 else 0) (s.connect c).1 := by
  have hactive := h.active
  have hcount := connectedClients_setConnected (s := s.startConnect.1)
    (hc.trans_eq h.length.symm) true
  rw [connect_of_ok h.answer]
  refine ⟨h.answer, (List.length_modify _ _ _).trans h.length,
    (h.settled.act .startConnect).act (.finishConnect c .ok), ?_⟩
  change s.active + 1 = _
  change _ + (if s.isConnected c then 1 else 0) = s.connectedClients + 1 at hcount
  omega

theorem close {c : Nat} (hc : c < n) : Balanced n repeated (s.close c) := by
  have hsettled := h.settled.act (.close c)
  by_cases hconnected : s.isConnected c
  · have hactive := h.active
    have hpos := connectedClients_pos hconnected
    have hcount := connectedClients_setConnected (hc.trans_eq h.length.symm) false
    rw [if_pos hconnected, if_neg Bool.false_ne_true] at hcount
    rw [act] at hsettled
    rw [Session.close, if_pos hconnected] at hsettled ⊢
    refine ⟨?_, ?_, hsettled, ?_⟩
    · rw [cluster_release]
      exact h.answer
    · rw [clients_release]
      exact (List.length_modify _ _ _).trans h.length
    · rw [active_release, connectedClients, clients_release]
      change s.active - 1 = (s.setConnected c false).connectedClients + repeated
      omega
  · rw [Session.close, if_neg hconnected]
    exact h

theorem visit (v : Visit n) :
    Balanced n (repeated + if s.repeats v then 1 else 0) (s.visit v) := by
  cases v with
  | connect c => exact h.connect c.isLt
  | close c => exact h.close c.isLt

end Balanced

theorem Balanced.afterVisits {repeated : Nat} {s : Session} (h : Balanced n repeated s)
    (run : List (Visit n)) :
    Balanced n (repeated + s.repeatedConnects run) (s.afterVisits run) := by
  induction run generalizing s repeated with
  | nil => exact h
  | cons v rest ih =>
    rw [repeatedConnects, ← Nat.add_assoc]
    exact ih (h.visit v)

theorem Fresh.balanced {s : Session} (hs : s.Fresh) (hc : s.cluster.connectStatus.isOk = true) :
    Balanced s.clients.length 0 s where
  answer := hc
  length := rfl
  settled := hs.settled
  active := by rw [hs.active, connectedClients_eq_zero hs.closed]

/-- Once no client is connected any more, what is left of the count of active clients is the
number of connects that were made by a client that was connected already. So the count is zero and
the event loop given up exactly if there was none. -/
theorem repeated_connects_outlast_closes {s : Session} (hs : s.Fresh)
    (hc : s.cluster.connectStatus.isOk = true) (run : List (Visit s.clients.length))
    (hclosed : ∀ c, (s.afterVisits run).isConnected c = false) :
    (s.afterVisits run).active = s.repeatedConnects run ∧
      ((s.afterVisits run).transport.registered = true ↔ 0 < s.repeatedConnects run) := by
  have h := (hs.balanced hc).afterVisits run
  have hactive : (s.afterVisits run).active = s.repeatedConnects run := by
    rw [h.active, connectedClients_eq_zero hclosed, Nat.zero_add, Nat.zero_add]
  refine ⟨hactive, ?_⟩
  rw [← hactive]
  exact h.settled.registered_iff

/-- The first of two clients connects twice and closes; the second one comes and goes as it
should. -/
def connectedTwice : List (Visit 2) :=
  [.connect 0, .connect 1, .connect 0, .close 0, .close 1]

theorem repeated_connects_outlast_closes_twice :
    (clientPair.afterVisits connectedTwice).active = 1 ∧
      (clientPair.afterVisits connectedTwice).transport.registered = true := by
  have hclients : (clientPair.afterVisits connectedTwice).clients = clientPair.clients := rfl
  have hclosed (c : Nat) : (clientPair.afterVisits connectedTwice).isConnected c = false := by
    rw [isConnected, hclients]
    exact fresh_clientPair.closed c
  obtain ⟨hactive, hregistered⟩ :=
    repeated_connects_outlast_closes fresh_clientPair rfl connectedTwice hclosed
  exact ⟨hactive, hregistered.mpr (by decide)⟩

end RecordDb.Session
