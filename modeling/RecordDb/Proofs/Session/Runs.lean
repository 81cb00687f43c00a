import RecordDb.Session

/-!
# Runs of a session

The clients of a session and all who share its count of active clients take turns. A connect takes
two actions, since the client waits for the transport in between and others may act meanwhile; every
other action is taken at once.
-/
namespace RecordDb.Session

inductive Action where
  /-- Some client asks the transport to connect and counts as active from then on. -/
  | startConnect
  /-- A client gets the transport's answer. -/
  | finishConnect (client : Nat) (answer : Status)
  | close (client : Nat)
  | acquire
  | release
  | command (client : Nat) (command : Command)
  | setHandler (h : CallbackHandler)
  | closeTransport

def act (s : Session) : Action → Session
  | .startConnect => s.startConnect.1
  | .finishConnect c answer => (s.finishConnect c answer).1
  | .close c => s.close c
  | .acquire => s.acquire
  | .release => s.release
  | .command c command => (s.run c command).1
  | .setHandler h => { s with handler := h }
  | .closeTransport => { s with transport := s.transport.close }

/-- The session after some actions. -/
def after (s : Session) : List Action → Session
  | [] => s
  | a :: rest => after (s.act a) rest

/-- What every action keeps holds along every run. -/
theorem after_induction {P : Session → Prop} (hP : ∀ s a, P s → P (s.act a)) {s : Session}
    (h : P s) (run : List Action) : P (s.after run) := by
  induction run generalizing s with
  | nil => exact h
  | cons a rest ih => exact ih (hP s a h)

/-- The answer to a command of a client that is not connected, whatever the command. -/
theorem run_of_closed {s : Session} {c : Nat} (h : s.isConnected c = false) (command : Command) :
    s.run c command = (s, .error .notConnected) := by
  rw [run, dispatch, if_neg (by rw [h]; exact Bool.false_ne_true)]
  cases command <;> rfl

theorem run_fst_of_connected {s : Session} {c : Nat} (h : s.isConnected c = true)
    (command : Command) :
    (s.run c command).1 =
      { s with transport :=
          (s.transport.submit s.cluster (command.request (s.policies c))).1 } := by
  rw [run, dispatch, if_pos h]

/-- Nobody has been active yet. The transport may hold records already. -/
structure Fresh (s : Session) : Prop where
  active : s.active = 0
  closed : ∀ c, s.isConnected c = false
  registered : s.transport.registered = false
  registrations : s.transport.registrations = 0
  deregistrations : s.transport.deregistrations = 0

end RecordDb.Session
