import RecordDb.Proofs.Session.EventLoop

/-!
# The guard before the transport

A client that is not connected cannot reach it, and each command of one that is connected submits a
single request: to the keys of the command, under the policy that it brings or else under the one
that the client is configured with.
-/
namespace RecordDb

/-- A policy of some family of commands. -/
inductive AnyPolicy where
  | read (p : ReadPolicy)
  | write (p : WritePolicy)
  | remove (p : RemovePolicy)
  | operate (p : OperatePolicy)
  | apply (p : ApplyPolicy)
  | batch (p : BatchPolicy)
  | info (p : InfoPolicy)
  | query (p : QueryPolicy)
  | index (p : IndexPolicy)
  | udf (p : UdfPolicy)

namespace Request

/-- The keys that a request is addressed to. -/
def keys : Request → List Key
  | get key _ | select key _ _ | existence key _ | put key _ _ _ | remove key _
  | operate key _ _ _ | apply key _ _ => [key]
  | batchGet keys _ | batchExists keys _ | batchSelect keys _ _ => keys
  | _ => []

def policy? : Request → Option AnyPolicy
  | get _ p | select _ _ p | existence _ p => p.map .read
  | put _ _ _ p => p.map .write
  | remove _ p => p.map .remove
  | operate _ _ _ p => p.map .operate
  | apply _ _ p => p.map .apply
  | batchGet _ p | batchExists _ p | batchSelect _ _ p => p.map .batch
  | query _ _ _ p => p.map .query
  | indexCreate _ _ p | indexRemove _ _ p => p.map .index
  | udfRegister _ _ p | udfRemove _ p => p.map .udf
  | info _ _ p => p.map .info

end Request

namespace Command

/-- The keys that a command is given. -/
def keys : Command → List Key
  | get key _ | select key _ _ | existence key _ | put key _ _ _ | remove key _
  | operate key _ _ _ | apply key _ _ => [key]
  | batchGet keys _ | batchExists keys _ | batchSelect keys _ _ => keys
  | _ => []

/-- The policy that a command is given. -/
def policy? : Command → Option AnyPolicy
  | get _ p | select _ _ p | existence _ p => p.map .read
  | put _ _ _ p => p.map .write
  | remove _ p => p.map .remove
  | operate _ _ _ p => p.map .operate
  | apply _ _ p => p.map .apply
  | batchGet _ p | batchExists _ p | batchSelect _ _ p => p.map .batch
  | query _ _ _ p => p.map .query
  | indexCreate _ _ p | indexRemove _ _ p => p.map .index
  | udfRegister _ _ p | udfRemove _ p => p.map .udf
  | info _ _ p => p.map .info

/-- The default for the family of a command. There is none for indexes and function modules. -/
def default? (defaults : Policies) : Command → Option AnyPolicy
  | get .. | select .. | existence .. => defaults.read.map .read
  | put .. => defaults.write.map .write
  | remove .. => defaults.remove.map .remove
  | operate .. => defaults.operate.map .operate
  | apply .. => defaults.apply.map .apply
  | batchGet .. | batchExists .. | batchSelect .. => defaults.batch.map .batch
  | query .. => defaults.query.map .query
  | info .. => defaults.info.map .info
  | indexCreate .. | indexRemove .. | udfRegister .. | udfRemove .. => none

theorem keys_request (command : Command) (defaults : Policies) :
    (command.request defaults).keys = command.keys := by
  cases command <;> rfl

theorem policy?_request (command : Command) (defaults : Policies) :
    (command.request defaults).policy? = command.policy?.or (command.default? defaults) := by
  cases command with
  | indexCreate | indexRemove | udfRegister | udfRemove => exact Option.or_none.symm
  | _ => exact Option.map_or

end Command

namespace Session

theorem log_acquire (s : Session) : s.acquire.transport.log = s.transport.log := by
  rw [acquire]
  dsimp only
  split <;> rfl

theorem log_release (s : Session) : s.release.transport.log = s.transport.log := by
  rw [release]
  split
  · rfl
  · dsimp only
    split <;> rfl

theorem log_finishConnect (s : Session) (c : Nat) (answer : Status) :
    (s.finishConnect c answer).1.transport.log = s.transport.log := by
  rw [finishConnect]
  split <;> rfl

theorem log_close (s : Session) (c : Nat) : (s.close c).transport.log = s.transport.log := by
  rw [close]
  split
  · exact log_release _
  · rfl

/-- What an action submits to the transport. -/
def submits (s : Session) : Action → List Request
  | .command c command => if s.isConnected c then [command.request (s.policies c)] else []
  | _ => []

theorem log_act (s : Session) (a : Action) :
    (s.act a).transport.log = s.transport.log ++ s.submits a := by
  cases a with
  | command c command =>
    cases hc : s.isConnected c with
    | false => rw [act, run_of_closed hc, submits, hc, if_neg Bool.false_ne_true, List.append_nil]
    | true =>
      rw [act, run_fst_of_connected hc, submits, if_pos hc, Transport.submit]
      dsimp only
      split <;> rfl
  | startConnect | acquire => exact s.log_acquire.trans (List.append_nil _).symm
  | finishConnect c answer => exact (s.log_finishConnect c answer).trans (List.append_nil _).symm
  | close c => exact (s.log_close c).trans (List.append_nil _).symm
  | release => exact s.log_release.trans (List.append_nil _).symm
  | setHandler | closeTransport => exact (List.append_nil _).symm

/-- All that a run submits. -/
def submitted (s : Session) : List Action → List Request
  | [] => []
  | a :: rest => s.submits a ++ submitted (s.act a) rest

/-- Nothing but the commands of clients that are connected gets to the transport, and it sees
them in the order in which they are given. -/
theorem log_after (s : Session) (run : List Action) :
    (s.after run).transport.log = s.transport.log ++ s.submitted run := by
  induction run generalizing s with
  | nil => exact (List.append_nil _).symm
  | cons a rest ih => rw [after, ih, log_act, submitted, List.append_assoc]

/-- Every command of a client, whatever has happened in the session: if the client is not
connected, the command fails for that reason and nothing changes; if it is, one request goes to
the transport, to the keys of the command and under its policy or the client's default. -/
theorem connection_guards_every_command {s : Session} {c : Nat} {client : Client}
    (h : s.clients[c]? = some client) (command : Command) :
    (client.connected = false → ∃ status,
      s.run c command = (s, .error (.client status)) ∧
        status.code = .client ∧ status.message = "Not connected.") ∧
    (client.connected = true → ∃ request,
      (s.run c command).1.transport.log = s.transport.log ++ [request] ∧
        request.keys = command.keys ∧
        request.policy? = command.policy?.or (command.default? client.config.policies)) := by
  have hc : s.isConnected c = client.connected := by
    rw [isConnected, h]
    rfl
  have hp : s.policies c = client.config.policies := by
    rw [policies, h]
    rfl
  constructor
  · intro hno
    exact ⟨.client "Not connected.", run_of_closed (hc.trans hno) command, rfl, rfl⟩
  · intro hyes
    have hlog := s.log_act (.command c command)
    rw [submits, if_pos (hc.trans hyes), hp] at hlog
    exact ⟨_, hlog, command.keys_request _, command.policy?_request _⟩

/-- Reads by clients with this configuration time out after five units unless told otherwise. -/
def hasty : Config :=
  { Config.bare with
    policies := { Policies.empty with read := some ⟨some 5, none, none, none, none⟩ } }

/-- A client that is connected and one that is not. -/
def halfConnected : Session :=
  ⟨.sample, .new, 1, .default, [⟨hasty, none, true⟩, ⟨hasty, none, false⟩]⟩

def mark : Key := ⟨"test", "marks", some (.int 1), none⟩

def readMark : Command := .select mark ["x"] none

theorem connection_guards_every_command_mark :
    (∃ request,
      (halfConnected.run 0 readMark).1.transport.log = [request] ∧
        request.keys = [mark] ∧
        request.policy? = some (.read ⟨some 5, none, none, none, none⟩)) ∧
    (∃ status, halfConnected.run 1 readMark = (halfConnected, .error (.client status)) ∧
      status.code = .client ∧ status.message = "Not connected.") :=
  ⟨(connection_guards_every_command (s := halfConnected) (c := 0) rfl readMark).2 rfl,
    (connection_guards_every_command (s := halfConnected) (c := 1) rfl readMark).1 rfl⟩

end Session

end RecordDb
