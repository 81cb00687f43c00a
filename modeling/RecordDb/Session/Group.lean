import RecordDb.Client.CallbackCall
import RecordDb.Client.LargeList
import RecordDb.Session

/-!
# Groups of steps

Steps of a session that come in groups. The calls of a group are all made before the first one
starts. Then each takes three turns: one that lets the caller return, one that starts its task and
one that tells the result. Turns are given in rounds, and the calls of a round that are not over
queue up again, the last one first.
-/
namespace RecordDb

/-- A call in callback form. Streams tell every record of a query, or every answer to an
info request, to one callback, and their end to another one that may be missing. -/
inductive Call where
  | command (call : CallbackCall)
  | connect (heard : Bool)
  | stream (command : Command) (heard : Bool)
  | largeList (list : LargeList) (policy : Option ApplyPolicy) (op : LargeListOperation)
      (args : List LargeListArgument)

inductive Step where
  | close (client : Nat)
  | closeTransport
  | setHandler (h : CallbackHandler)
  | acquire
  | release
  /-- Lets the next requests complete with these results. -/
  | prepare (completions : List Completion)
  /-- Shows the session as it is. -/
  | observe
  | call (client : Nat) (call : Call)

/-- What is left to do once a call has been made. -/
inductive Task where
  | command (c : Command)
  | connect
  /-- Refused already, yet told to the callback like any other failure. -/
  | refused (e : Error)

/-- Which callbacks are told of a result. -/
inductive Audience where
  | nobody
  | one
  | connection
  | items (heard : Bool)

/-- A call that was made: its client, the convention in force then, its task and those
who are told of the result. -/
structure Pending where
  client : Nat
  handler : CallbackHandler
  task : Task
  audience : Audience

/-- One element of a stream. -/
inductive Item where
  | record (r : Record)
  | node (r : InfoResponse)

def Answer.items : Answer → List Item
  | .records found => found.map .record
  | .info responses => responses.map .node
  | _ => []

/-- What came of a step. -/
inductive Told where
  | done
  | seen (s : Session)
  | refused (e : Error)
  /-- There was no callback to tell. -/
  | silence
  /-- A callback was there that will never be told. -/
  | dropped
  | result (arguments : CallbackArguments Answer)
  | connection (arguments : CallbackArguments Bool)
  | stream (items : List (CallbackArguments Item)) (done : Option (CallbackArguments Unit))

/-- A call that is pending, or what came of a step that is over. -/
inductive Made where
  | over (told : Told)
  | pending (p : Pending)

/-- A task that has started. -/
inductive Started where
  | finished (result : Except Error Answer)
  | connecting (status : Status)

/-- How far a call has come. -/
inductive Stage where
  | made
  | released
  | started (task : Started)

/-- A call that waits for its next turn, and its place among the steps. -/
structure Job where
  place : Nat
  call : Pending
  stage : Stage

namespace Session

def pending (s : Session) (c : Nat) (task : Task) (audience : Audience) : Made :=
  .pending ⟨c, s.callbackHandler c, task, audience⟩

/-- Making a call checks its arguments and nothing else. A large list gets no call at all
unless its last argument is a callback. -/
def makeCall (s : Session) (c : Nat) : Call → Made
  | .command call =>
    match call.command? with
    | .ok command => s.pending c (.command command) .one
    | .error e => .over (.refused e)
  | .connect heard => s.pending c .connect (if heard then .connection else .nobody)
  | .stream command heard => s.pending c (.command command) (.items heard)
  | .largeList list policy op args =>
    match list.invocation? op args with
    | none => .over (if args.any LargeListArgument.isCallback then .dropped else .silence)
    | some (.ok call) => s.pending c (.command (.apply list.key call policy)) .one
    | some (.error status) => s.pending c (.refused (.client status)) .one

def make (s : Session) : Step → Session × Made
  | .close c => (s.close c, .over .done)
  | .closeTransport => ({ s with transport := s.transport.close }, .over .done)
  | .setHandler h => ({ s with handler := h }, .over .done)
  | .acquire => (s.acquire, .over .done)
  | .release => (s.release, .over .done)
  | .prepare completions =>
    let prepared := s.transport.prepared ++ completions
    ({ s with transport := { s.transport with prepared } }, .over .done)
  | .observe => (s, .over (.seen s))
  | .call c call => (s, s.makeCall c call)

def makeAll (s : Session) : List Step → Session × List Made
  | [] => (s, [])
  | step :: rest =>
    let (s, made) := s.make step
    let (s, others) := makeAll s rest
    (s, made :: others)

def finish (s : Session) (p : Pending) : Started → Session × Except Error Answer
  | .finished result => (s, result)
  | .connecting status =>
    let (s, result) := s.finishConnect p.client status
    (s, result.map fun _ => .nothing)

/-- Tells the callbacks of a result. -/
def tell (s : Session) (p : Pending) (result : Except Error Answer) : Told :=
  match p.audience with
  | .nobody => .silence
  | .one => .result (p.handler.arguments result)
  | .connection => .connection (p.handler.arguments (result.map fun _ => s.isConnected p.client))
  | .items heard =>
    let events := p.handler.stream (result.map Answer.items)
    let items := events.filterMap CallbackHandler.Event.item?
    let done := events.findSome? CallbackHandler.Event.done?
    .stream items (if heard then done else none)

/-- One turn: the job comes back, or what came of its step is known. A refused task has
nothing to wait for and is over once it starts. -/
def turn (s : Session) (j : Job) : Session × (Job ⊕ Nat × Told) :=
  match j.stage, j.call.task with
  | .made, _ => (s, .inl { j with stage := .released })
  | .released, .command command =>
    let (s, result) := s.run j.call.client command
    (s, .inl { j with stage := .started (.finished result) })
  | .released, .connect =>
    let (s, status) := s.startConnect
    (s, .inl { j with stage := .started (.connecting status) })
  | .released, .refused e => (s, .inr (j.place, s.tell j.call (.error e)))
  | .started task, _ =>
    let (s, result) := s.finish j.call task
    (s, .inr (j.place, s.tell j.call result))

/-- A turn for each job. Those that are not over come back, the last one first. -/
def turns (s : Session) : List Job → Session × List Job × List (Nat × Told)
  | [] => (s, [], [])
  | job :: rest =>
    let (s, outcome) := s.turn job
    let (s, again, told) := turns s rest
    match outcome with
    | .inl job => (s, again ++ [job], told)
    | .inr known => (s, again, known :: told)

/-- Turns in one round. -/
def roundLength : Nat := 61

/-- Rounds until no job is left, or as many as are given. -/
def rounds (s : Session) : (count : Nat) → List Job → Session × List (Nat × Told)
  | 0, _ | _, [] => (s, [])
  | count + 1, queue =>
    let (s, again, told) := s.turns (queue.take roundLength)
    let (s, others) := rounds s count (queue.drop roundLength ++ again)
    (s, told ++ others)

/-- Runs a group of steps; what came of each one is listed in their order. A round gives
at least one of the three turns that each job takes. -/
def runGroup (s : Session) (steps : List Step) : Session × List Told :=
  let (s, made) := s.makeAll steps
  let placed := made.zipIdx
  let jobs : List Job := placed.filterMap fun
    | (.pending p, place) => some ⟨place, p, .made⟩
    | (.over _, _) => none
  let known : List (Nat × Told) := placed.filterMap fun
    | (.over told, place) => some (place, told)
    | (.pending _, _) => none
  let (s, told) := s.rounds (3 * jobs.length) jobs
  (s, (List.range made.length).filterMap fun place => (known ++ told).lookup place)

end Session

end RecordDb
