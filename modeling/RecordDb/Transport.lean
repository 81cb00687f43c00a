import RecordDb.Store.Info
import RecordDb.Store.Query

/-!
# Transport

The transport that serves requests from a store in memory. Every request is logged before it is
served; prepared completions are used up first, and a request that gets one does not reach the
store.
-/
namespace RecordDb

/-- What is fixed for the life of a transport. -/
structure Cluster where
  nodes : List Host
  connectStatus : Status
  /-- Batch entries come in reverse, as from sub-requests completed out of order. -/
  reversesBatches : Bool
  functions : Functions

namespace Cluster

def batchEntries (c : Cluster) (s : Store) (keys : List Key) (bins : StoredRecord → Option Bins) :
    Response :=
  let entries := s.batch keys bins
  .batch (if c.reversesBatches then entries.reverse else entries)

/-- The nodes that an info request goes to. -/
def targets (c : Cluster) : Option Host → Except Status (List Host)
  | none => .ok c.nodes
  | some host =>
    if c.nodes.contains host then .ok [host]
    else .error (.client ("unknown host " ++ host.display))

def createIndex (options : IndexOptions) (indexType : IndexType) : Effect Store Response := do
  let id : IndexId := ⟨options.ns, options.index⟩
  if Dict.contains (← get).indexes id then
    throw (.new .indexFound ("index " ++ options.index ++ " already exists"))
  modify fun s => { s with indexes := Dict.insert s.indexes id (options, indexType) }
  return .done

/-- Takes the index out and then sees whether it was there. -/
def removeIndex (ns index : String) : Effect Store Response := do
  let id : IndexId := ⟨ns, index⟩
  let removed ← modifyGet fun s =>
    (Dict.contains s.indexes id, { s with indexes := Dict.erase s.indexes id })
  if !removed then
    throw (.new .indexNotFound ("index " ++ index ++ " not found"))
  return .done

/-- Takes the module out and then sees whether it was there. -/
def removeModule (module : String) : Effect Store Response := do
  let removed ← modifyGet fun s =>
    (Dict.contains s.modules module, { s with modules := Dict.erase s.modules module })
  if !removed then
    throw (.new .udf ("module " ++ module ++ " not registered"))
  return .done

def serve (c : Cluster) (s : Store) : Request → Store × Except Status Response
  | .get key _ => (s, s.read key [])
  | .select key bins _ => (s, s.read key bins)
  | .existence key _ => (s, s.existence key)
  | .put key bins metadata policy => (Store.put key bins (metadata.getD .empty) policy).on s
  | .remove key policy => (Store.remove key policy).on s
  | .operate key ops metadata policy =>
    (Store.operate key ops (metadata.getD .empty) policy).on s
  | .apply key call _ => (Store.apply c.functions key call).on s
  | .batchGet keys _ => (s, .ok (c.batchEntries s keys fun r => some (r.selected [])))
  | .batchSelect keys bins _ => (s, .ok (c.batchEntries s keys fun r => some (r.selected bins)))
  | .batchExists keys _ => (s, .ok (c.batchEntries s keys fun _ => none))
  | .query ns set spec _ => s.query c.functions ns set spec
  | .indexCreate options indexType _ => (createIndex options indexType).on s
  | .indexRemove ns index _ => (removeIndex ns index).on s
  | .udfRegister path _ _ =>
    ({ s with modules := Dict.insert s.modules (UdfModule.fileName path) () }, .ok .done)
  | .udfRemove module _ => (removeModule module).on s
  | .info request host _ =>
    (s, (c.targets host).map fun hosts => .info (hosts.map fun h => ⟨h, s.info request⟩))

end Cluster

/-- A request's result: a response, or a status that is not success. -/
abbrev Completion := Except Status Response

/-- The state of a transport. -/
structure Transport where
  store : Store
  log : List Request
  prepared : List Completion
  connected : Bool
  registered : Bool
  registrations : Nat
  deregistrations : Nat

namespace Transport

def new : Transport := ⟨.empty, [], [], false, false, 0, 0⟩

def submit (c : Cluster) (t : Transport) (request : Request) : Transport × Completion :=
  let t := { t with log := t.log ++ [request] }
  match t.prepared with
  | completion :: rest => ({ t with prepared := rest }, completion)
  | [] =>
    let (store, completion) := c.serve t.store request
    ({ t with store }, completion)

/-- A connect that succeeds leaves the transport connected. -/
def connect (c : Cluster) (t : Transport) : Transport × Status :=
  ({ t with connected := t.connected || c.connectStatus.isOk }, c.connectStatus)

def close (t : Transport) : Transport := { t with connected := false }

def registerEventLoop (t : Transport) : Transport :=
  { t with registered := true, registrations := t.registrations + 1 }

def deregisterEventLoop (t : Transport) : Transport :=
  { t with registered := false, deregistrations := t.deregistrations + 1 }

end Transport

end RecordDb
