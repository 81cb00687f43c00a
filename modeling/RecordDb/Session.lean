import RecordDb.Client.Callback
import RecordDb.Client.Command
import RecordDb.Client.Config
import RecordDb.Transport

/-!
# Sessions

The clients of a session share one transport and one count of active clients. The first one to
become active registers the event loop, the last one to leave deregisters it.
-/
namespace RecordDb

structure Client where
  config : Config
  /-- Overrides the convention of the session. -/
  handler : Option CallbackHandler
  connected : Bool

structure Session where
  cluster : Cluster
  transport : Transport
  /-- Clients that have announced themselves and not left. -/
  active : Nat
  handler : CallbackHandler
  clients : List Client

namespace Session

/-- Counts one more active client. -/
def acquire (s : Session) : Session :=
  { s with
    active := s.active + 1
    transport := if s.active = 0 then s.transport.registerEventLoop else s.transport }

/-- Counts one less active client; without any there is nothing to do. -/
def release (s : Session) : Session :=
  match s.active with
  | 0 => s
  | n + 1 =>
    { s with
      active := n
      transport := if n = 0 then s.transport.deregisterEventLoop else s.transport }

def isConnected (s : Session) (c : Nat) : Bool := (s.clients[c]?).any Client.connected

/-- Connected, and the transport still has its cluster. -/
def isHealthy (s : Session) (c : Nat) : Bool := s.isConnected c && s.transport.connected

def setConnected (s : Session) (c : Nat) (connected : Bool) : Session :=
  { s with clients := s.clients.modify c fun client => { client with connected } }

/-- The convention for a client's callbacks. -/
def callbackHandler (s : Session) (c : Nat) : CallbackHandler :=
  ((s.clients[c]?).bind Client.handler).getD s.handler

def policies (s : Session) (c : Nat) : Policies :=
  ((s.clients[c]?).map fun client => client.config.policies).getD .empty

/-- A client becomes active and asks the transport to connect. -/
def startConnect (s : Session) : Session × Status :=
  let s := s.acquire
  let (transport, status) := s.transport.connect s.cluster
  ({ s with transport }, status)

/-- A successful connect marks the client as connected. -/
def finishConnect (s : Session) (c : Nat) (status : Status) : Session × Except Error Unit :=
  if status.isOk then (s.setConnected c true, .ok ()) else (s, .error (.ofStatus status))

def connect (s : Session) (c : Nat) : Session × Except Error Unit :=
  let (s, status) := s.startConnect
  s.finishConnect c status

/-- Closing does nothing on a client that is not connected. -/
def close (s : Session) (c : Nat) : Session :=
  if s.isConnected c then
    let s := s.setConnected c false
    ({ s with transport := s.transport.close }).release
  else s

/-- Submits a request for a client that is connected. -/
def dispatch (s : Session) (c : Nat) (request : Request) : Session × Except Error Response :=
  if s.isConnected c then
    let (transport, completion) := s.transport.submit s.cluster request
    ({ s with transport }, completion.mapError Error.ofStatus)
  else (s, .error .notConnected)

def run (s : Session) (c : Nat) (command : Command) : Session × Except Error Answer :=
  let (s, result) := s.dispatch c (command.request (s.policies c))
  (s, command.conclude result)

/-- One poll: asks every node and tests the value each one gives under the request's own
name. Without any node there is no completion. -/
def poll (s : Session) (c : Nat) (request : String) (test : String → Bool) :
    Session × Except Error Bool :=
  let (s, result) := s.run c (.info (some request) none none)
  let complete (r : InfoResponse) : Bool := (Dict.get? r.parse request).any test
  match result with
  | .ok (.info responses) => (s, .ok (!responses.isEmpty && responses.all complete))
  | .ok _ => (s, .ok false)
  | .error e => (s, .error e)

/-- Polls until a poll completes or fails. Prepared completions are used up one a poll,
and the polls after them all give one answer; none if that is to go on. -/
def pollUntil (s : Session) (c : Nat) (request : String) (test : String → Bool) :
    (polls : Nat) → Session × Option (Except Error Unit)
  | 0 => (s, none)
  | n + 1 =>
    match s.poll c request test with
    | (s, .ok true) => (s, some (.ok ()))
    | (s, .ok false) => pollUntil s c request test n
    | (s, .error e) => (s, some (.error e))

def wait (s : Session) (c : Nat) (request : String) (test : String → Bool) :
    Session × Option (Except Error Unit) :=
  s.pollUntil c request test (s.transport.prepared.length + 1)

/-- Waits until every node has built an index. -/
def indexCreateWait (s : Session) (c : Nat) (ns index : String) :
    Session × Option (Except Error Unit) :=
  s.wait c (Index.statusCommand ns index) Index.buildComplete

/-- Waits until every node lists a module. -/
def udfRegisterWait (s : Session) (c : Nat) (module : String) :
    Session × Option (Except Error Unit) :=
  s.wait c "udf-list" fun list => UdfModule.isListed list (UdfModule.fileName module)

end Session

end RecordDb
