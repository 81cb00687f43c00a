import RecordDb.Proofs.Session.Runs
import RecordDb.Proofs.Store.Runs

/-!
# The event loop of a session

It is registered by the first client to become active and given up by the last one to leave, in
every run. Only three things can happen to it and to the count of active clients in one action:
somebody enters, somebody leaves, or neither.
-/
namespace RecordDb.Session

/-- What a session and its transport keep about the event loop. -/
structure EventLoop where
  active : Nat
  registered : Bool
  registrations : Nat
  deregistrations : Nat

def eventLoop (s : Session) : EventLoop :=
  ⟨s.active, s.transport.registered, s.transport.registrations, s.transport.deregistrations⟩

/-- Whether an action counts one more active client. A connect does so before it is known to
succeed. -/
def Action.enters : Action → Bool
  | .startConnect | .acquire => true
  | _ => false

/-- Whether an action is to count one less active client. -/
def leaves (s : Session) : Action → Bool
  | .close c => s.isConnected c
  | .release => true
  | _ => false

theorem eventLoop_run (s : Session) (c : Nat) (command : Command) :
    (s.run c command).1.eventLoop = s.eventLoop := by
  cases hc : s.isConnected c with
  | false => rw [run_of_closed hc]
  | true =>
    rw [run_fst_of_connected hc, eventLoop, Transport.submit]
    split <;> rfl

theorem eventLoop_finishConnect (s : Session) (c : Nat) (answer : Status) :
    (s.finishConnect c answer).1.eventLoop = s.eventLoop := by
  rw [finishConnect]
  split <;> rfl

/-- A close leaves as a release does, whatever else it changes. -/
theorem eventLoop_close (s : Session) (c : Nat) :
    (s.close c).eventLoop = if s.isConnected c then s.release.eventLoop else s.eventLoop := by
  rw [close]
  split
  · rcases s with ⟨cluster, transport, _ | n, handler, clients⟩
    · rfl
    · by_cases hn : n = 0
      · subst hn
        rfl
      · simp only [release, setConnected, if_neg hn]
        rfl
  · rfl

theorem eventLoop_act (s : Session) (a : Action) :
    (s.act a).eventLoop =
      if a.enters then s.acquire.eventLoop
      else if s.leaves a then s.release.eventLoop
      else s.eventLoop := by
  cases a with
  | startConnect | acquire | release | setHandler | closeTransport => rfl
  | finishConnect c answer => exact s.eventLoop_finishConnect c answer
  | command c command => exact s.eventLoop_run c command
  | close c =>
    rw [if_neg (by exact Bool.false_ne_true)]
    exact s.eventLoop_close c

/-- The event loop is registered while some client is active, and each registration but the one
in force has been given up. -/
structure EventLoop.Settled (l : EventLoop) : Prop where
  registrations : l.registrations = l.deregistrations + if 0 < l.active then 1 else 0
  registered_iff : l.registered = true ↔ 0 < l.active

theorem EventLoop.Settled.acquire {s : Session} (h : s.eventLoop.Settled) :
    s.acquire.eventLoop.Settled := by
  have hr := h.registrations
  have hi := h.registered_iff
  by_cases hn : s.active = 0
  · constructor
    · simpa [eventLoop, Session.acquire, Transport.registerEventLoop, hn] using hr
    · simp [eventLoop, Session.acquire, Transport.registerEventLoop, hn]
  · have hp : 0 < s.active := Nat.pos_of_ne_zero hn
    constructor
    · simpa [eventLoop, Session.acquire, hn, hp] using hr
    · simpa [eventLoop, Session.acquire, hn, hp] using hi

theorem EventLoop.Settled.release {s : Session} (h : s.eventLoop.Settled) :
    s.release.eventLoop.Settled := by
  have hr := h.registrations
  have hi := h.registered_iff
  cases hs : s.active with
  | zero =>
    -- nobody is there to leave
    have he : s.release = s := by simp only [Session.release, hs]
    rwa [he]
  | succ n =>
    by_cases hn : n = 0
    · constructor
      · simpa [eventLoop, Session.release, Transport.deregisterEventLoop, hs, hn] using hr
      · simp [eventLoop, Session.release, Transport.deregisterEventLoop, hs, hn]
    · have hp : 0 < n := Nat.pos_of_ne_zero hn
      constructor
      · simpa [eventLoop, Session.release, hs, hn, hp] using hr
      · simpa [eventLoop, Session.release, hs, hn, hp] using hi

theorem EventLoop.Settled.act {s : Session} (h : s.eventLoop.Settled) (a : Action) :
    (s.act a).eventLoop.Settled := by
  rw [eventLoop_act]
  split
  · exact h.acquire
  · split
    · exact h.release
    · exact h

theorem Fresh.settled {s : Session} (h : s.Fresh) : s.eventLoop.Settled where
  registrations := by
    change s.transport.registrations = s.transport.deregistrations + if 0 < s.active then 1 else 0
    rw [h.registrations, h.deregistrations, h.active]
    rfl
  registered_iff := by
    change s.transport.registered = true ↔ 0 < s.active
    rw [h.registered, h.active]
    decide

/-- How many actions of a run count one less active client: those that are to, and find one. -/
def departures (s : Session) : List Action → Nat
  | [] => 0
  | a :: rest =>
    (if s.leaves a ∧ 0 < s.active then 1 else 0) + departures (s.act a) rest

theorem active_act (s : Session) (a : Action) :
    (s.act a).active + (if s.leaves a ∧ 0 < s.active then 1 else 0) =
      s.active + if a.enters then 1 else 0 := by
  have h := congrArg EventLoop.active (s.eventLoop_act a)
  change (s.act a).active = _ at h
  cases ha : a.enters with
  | true =>
    have hl : s.leaves a = false := by
      cases a with
      | startConnect | acquire => rfl
      | _ => cases ha
    rw [ha, if_pos rfl] at h
    rw [h, hl]
    simp [eventLoop, acquire]
  | false =>
    rw [ha, if_neg Bool.false_ne_true] at h
    cases hl : s.leaves a with
    | false =>
      rw [hl, if_neg Bool.false_ne_true] at h
      rw [h]
      simp [eventLoop]
    | true =>
      rw [hl, if_pos rfl] at h
      rw [h]
      cases hs : s.active with
      | zero => simp [eventLoop, release, hs]
      | succ n => simp [eventLoop, release, hs]

theorem active_after (s : Session) (run : List Action) :
    (s.after run).active + s.departures run = s.active + run.countP Action.enters := by
  induction run generalizing s with
  | nil => rfl
  | cons a rest ih =>
    have hstep := s.active_act a
    have hrest := ih (s.act a)
    rw [after, departures, List.countP_cons]
    omega

/-- Whatever clients and others do that share a session, connects that fail and releases too many
included, the event loop is registered exactly while some client counts as active, once more than
it was given up, and the count is that of the entries less that of the departures. -/
theorem event_loop_follows_active_count {s : Session} (hs : s.Fresh) (run : List Action) :
    (s.after run).transport.registrations =
        (s.after run).transport.deregistrations + (if 0 < (s.after run).active then 1 else 0) ∧
      ((s.after run).transport.registered = true ↔ 0 < (s.after run).active) ∧
      ((s.after run).active : Int) = run.countP Action.enters - s.departures run := by
  have hl : (s.after run).eventLoop.Settled :=
    after_induction (P := fun s => s.eventLoop.Settled) (fun _ a h => h.act a) hs.settled run
  have hc := s.active_after run
  rw [hs.active] at hc
  exact ⟨hl.registrations, hl.registered_iff, by omega⟩

/-- Two clients that have not connected yet. -/
def clientPair : Session :=
  ⟨.sample, .new, 0, .default, [⟨.new none, none, false⟩, ⟨.new none, none, false⟩]⟩

theorem fresh_clientPair : clientPair.Fresh where
  active := rfl
  closed
    | 0 | 1 | _ + 2 => rfl
  registered := rfl
  registrations := rfl
  deregistrations := rfl

/-- Both clients connect at once and only the first one succeeds. Both close, the first one twice,
there are two releases too many, and somebody else gets active. -/
def unpairedRun : List Action :=
  [.startConnect, .startConnect, .finishConnect 0 .ok, .finishConnect 1 (.new .timeout "timeout"),
    .close 0, .close 1, .close 0, .release, .release, .acquire]

theorem event_loop_follows_active_count_unpaired :
    (clientPair.after unpairedRun).transport.registrations = 2 ∧
      (clientPair.after unpairedRun).transport.registered = true ∧
      (clientPair.after unpairedRun).active = 1 := by
  obtain ⟨hr, hi, ha⟩ := event_loop_follows_active_count fresh_clientPair unpairedRun
  have hone : ((clientPair.after unpairedRun).active : Int) = 3 - 2 := ha
  exact ⟨hr, hi.mpr (by omega), by omega⟩

end RecordDb.Session
