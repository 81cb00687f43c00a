import RecordDb.Operation.Evaluation
import RecordDb.Request
import RecordDb.Response

/-!
# Record stores

The state of a record store and the commands on single records. A command that writes makes its
checks first, works out the new bins on a copy and files them last.
-/
namespace RecordDb

open Codec

/-- What a record is filed under: the namespace and the bytes that identify it there. -/
structure RecordId where
  ns : String
  ident : List UInt8
  deriving DecidableEq

instance : KeyOrder RecordId where
  before a b :=
    KeyOrder.before a.ns b.ns || (a.ns == b.ns && KeyOrder.before a.ident b.ident)

namespace RecordId

/-- A user key identifies by its packed form beside the set, else the digest does. -/
def ofKey (key : Key) : Except Status RecordId :=
  match key.userKey, key.digest with
  | some userKey, _ =>
    .ok ⟨key.ns, Wire.Packed.encode (.arr [.text key.set, toDoc userKey])⟩
  | none, some digest => .ok ⟨key.ns, digest⟩
  | none, none => .error (.new .param "key has neither a user key nor a digest")

end RecordId

/-- A record with the key of its first writer. -/
structure StoredRecord where
  key : Key
  bins : Bins
  gen : UInt32
  ttl : UInt32

namespace StoredRecord

def metadata (r : StoredRecord) : Metadata := ⟨some r.ttl, some r.gen⟩

/-- The selected bins that exist; an empty selection takes all. -/
def selected (r : StoredRecord) (select : List String) : Bins :=
  if select.isEmpty then r.bins
  else Dict.ofList (select.filterMap fun name => (Dict.get? r.bins name).map (name, ·))

def toRecord (r : StoredRecord) (select : List String) : Record :=
  ⟨r.key, r.selected select, r.metadata⟩

end StoredRecord

/-- The name of an index in its namespace. -/
structure IndexId where
  ns : String
  index : String
  deriving DecidableEq

instance : KeyOrder IndexId where
  before a b := KeyOrder.before a.ns b.ns || (a.ns == b.ns && KeyOrder.before a.index b.index)

structure Store where
  records : Dict RecordId StoredRecord
  indexes : Dict IndexId (IndexOptions × IndexType)
  modules : Dict String Unit

/-- A record function gets the bins of a record and its arguments. It leaves changed bins
behind also when it fails. -/
abbrev RecordFunction := Bins → List Value → Bins × Except Status Value

/-- The functions that can be called, by module and name. -/
abbrev Functions := String → String → Option RecordFunction

namespace Store

def empty : Store := ⟨[], [], []⟩

def notFound {α : Type} (key : Key) : Except Status α :=
  .error (.new .recordNotFound ("record " ++ key.display ++ " not found"))

def find (s : Store) (key : Key) : Except Status StoredRecord := do
  match Dict.get? s.records (← RecordId.ofKey key) with
  | some r => return r
  | none => notFound key

def read (s : Store) (key : Key) (select : List String) : Except Status Response := do
  let r ← s.find key
  return .record (r.selected select) r.metadata

def existence (s : Store) (key : Key) : Except Status Response := do
  return .existence (← s.find key).metadata

/-- Files bins as the next generation of a record. A record without bins is removed, and
the key of a record that exists is kept. -/
def commit (s : Store) (id : RecordId) (key : Key) (bins : Bins) (ttl : Option UInt32) :
    Store × Metadata :=
  let current := Dict.get? s.records id
  let gen := (current.map StoredRecord.gen).getD 0 + 1
  let ttl := ttl.getD ((current.map StoredRecord.ttl).getD 0)
  let records :=
    if bins.isEmpty then Dict.erase s.records id
    else Dict.insert s.records id ⟨(current.map StoredRecord.key).getD key, bins, gen, ttl⟩
  ({ s with records }, ⟨some ttl, some gen⟩)

def policyName : GenerationPolicy → String
  | .ignore => "Ignore"
  | .eq => "Eq"
  | .gt => "Gt"

/-- Demands that the expected generation equals the record's, or is greater than it. -/
def checkGeneration (policy : Option GenerationPolicy) (expected : Option UInt32)
    (actual : UInt32) : Except Status Unit :=
  let failed (p : GenerationPolicy) : Except Status Unit :=
    .error (.new .recordGeneration ("generation " ++ toString actual.toNat
      ++ " does not satisfy Some(" ++ policyName p ++ ")"))
  match policy, expected with
  | some .eq, some e => if actual = e then .ok () else failed .eq
  | some .gt, some e => if actual < e then .ok () else failed .gt
  | _, _ => .ok ()

/-- The check on a write: a record that is there has to be of the generation asked for. -/
def checkCurrent (policy : Option GenerationPolicy) (expected : Option UInt32)
    (current : Option StoredRecord) : Except Status Unit :=
  match current with
  | some r => checkGeneration policy expected r.gen
  | none => .ok ()

def checkExistence (key : Key) (policy : Option ExistsPolicy) (isThere : Bool) :
    Except Status Unit :=
  match policy, isThere with
  | some .create, true =>
    .error (.new .recordExists ("record " ++ key.display ++ " already exists"))
  | some .update, false | some .replace, false => notFound key
  | _, _ => .ok ()

/-- Bins with others written over them; a nil removes its bin. -/
def merged (bins : Bins) (new : Bins) : Bins :=
  new.foldl (fun bins e =>
    if e.2.isNil then Dict.erase bins e.1 else Dict.insert bins e.1 e.2) bins

def put (key : Key) (bins : Bins) (metadata : Metadata) (policy : Option WritePolicy) :
    Effect Store Response := do
  let id ← RecordId.ofKey key
  let current := Dict.get? (← get).records id
  let existence := policy.bind WritePolicy.existence
  checkExistence key existence current.isSome
  checkCurrent (policy.bind WritePolicy.gen) metadata.gen current
  let old := match existence with
    | some .replace | some .createOrReplace => []
    | _ => (current.map StoredRecord.bins).getD []
  modify fun s => (s.commit id key (merged old bins) metadata.ttl).1
  return .written none

def remove (key : Key) (policy : Option RemovePolicy) : Effect Store Response := do
  let id ← RecordId.ofKey key
  match Dict.get? (← get).records id with
  | none => notFound key
  | some r =>
    checkGeneration (policy.bind RemovePolicy.gen) (policy.bind RemovePolicy.generation) r.gen
    modify fun s => { s with records := Dict.erase s.records id }
    return .done

/-- Operations that only read need a record; with a write among them they may make one. They
work on a copy of the bins, and the copy of operations that fail is left as it is. -/
def operate (key : Key) (ops : List Operation) (metadata : Metadata)
    (policy : Option OperatePolicy) : Effect Store Response := do
  let id ← RecordId.ofKey key
  let current := Dict.get? (← get).records id
  let writes := ops.any Operation.isWrite
  if current.isNone && !writes then notFound key
  checkCurrent (policy.bind OperatePolicy.gen) metadata.gen current
  let copy := (current.map StoredRecord.bins).getD []
  match (Evaluation.performAll ops).run ⟨copy, [], none⟩ with
  | .error e _ => throw e
  | .ok _ done =>
    if writes || done.ttl.isSome then
      let metadata ← modifyGet fun s =>
        (s.commit id key done.bins (done.ttl.or metadata.ttl)).swap
      return .record done.results metadata
    else
      let metadata := (current.map StoredRecord.metadata).getD ⟨some 0, some 0⟩
      return .record done.results metadata

def function (functions : Functions) (call : UdfCall) : Except Status RecordFunction :=
  match functions call.module call.function with
  | some f => .ok f
  | none => .error (.new .udf ("function not found: " ++ call.module ++ "." ++ call.function))

/-- Applies a function to a copy of the bins of a record and files it if it differs. -/
def apply (functions : Functions) (key : Key) (call : UdfCall) : Effect Store Response := do
  let f ← function functions call
  let id ← RecordId.ofKey key
  let before := ((Dict.get? (← get).records id).map StoredRecord.bins).getD []
  let (after, result) := f before call.args
  let v ← result
  if !Value.sameEntries after before then
    modify fun s => (s.commit id key after none).1
  return .value v

/-- The entries for the keys whose record exists. -/
def batch (s : Store) (keys : List Key) (bins : StoredRecord → Option Bins) : List BatchRecord :=
  keys.filterMap fun key =>
    match s.find key with
    | .ok r => some (.found key (bins r) r.metadata)
    | .error _ => none

end Store

end RecordDb
