import RecordDb.Operation.Builders
import RecordDb.Request
import RecordDb.Response

/-!
# Commands

What a client can be asked to do, the request that each command submits and what it makes of the
response.
-/
namespace RecordDb

inductive Command where
  | get (key : Key) (policy : Option ReadPolicy)
  | select (key : Key) (bins : List String) (policy : Option ReadPolicy)
  | existence (key : Key) (policy : Option ReadPolicy)
  | put (key : Key) (bins : Bins) (metadata : Option Metadata) (policy : Option WritePolicy)
  | remove (key : Key) (policy : Option RemovePolicy)
  | operate (key : Key) (ops : List Operation) (metadata : Option Metadata)
      (policy : Option OperatePolicy)
  | apply (key : Key) (call : UdfCall) (policy : Option ApplyPolicy)
  | batchGet (keys : List Key) (policy : Option BatchPolicy)
  | batchExists (keys : List Key) (policy : Option BatchPolicy)
  | batchSelect (keys : List Key) (bins : List String) (policy : Option BatchPolicy)
  /-- The mode decides whether records, a value or nothing comes back. -/
  | query (ns : String) (set : Option String) (spec : QuerySpec) (policy : Option QueryPolicy)
  | indexCreate (options : IndexOptions) (indexType : IndexType) (policy : Option IndexPolicy)
  | indexRemove (ns index : String) (policy : Option IndexPolicy)
  | udfRegister (path : String) (udfType : Option UdfType) (policy : Option UdfPolicy)
  | udfRemove (module : String) (policy : Option UdfPolicy)
  | info (request : Option String) (host : Option Host) (policy : Option InfoPolicy)

/-- What a command gives back. -/
inductive Answer where
  | record (r : Record)
  | metadata (m : Option Metadata)
  | key (k : Key)
  | value (v : Value)
  | batch (entries : List BatchRecord)
  | records (found : List Record)
  | info (responses : List InfoResponse)
  | nothing

namespace Command

/-- One operation a bin, in bin order. -/
def perBin (bins : Bins) (op : String → Value → Operation) : List Operation :=
  bins.map fun e => op e.1 e.2

def append (key : Key) (bins : Bins) (metadata : Option Metadata) (policy : Option OperatePolicy) :
    Command :=
  .operate key (perBin bins .append) metadata policy

def prepend (key : Key) (bins : Bins) (metadata : Option Metadata)
    (policy : Option OperatePolicy) : Command :=
  .operate key (perBin bins .prepend) metadata policy

/-- Adds to each bin its number. -/
def incr (key : Key) (bins : Bins) (metadata : Option Metadata) (policy : Option OperatePolicy) :
    Command :=
  .operate key (perBin bins .incr) metadata policy

/-- Another name for `incr`. -/
def add (key : Key) (bins : Bins) (metadata : Option Metadata) (policy : Option OperatePolicy) :
    Command :=
  incr key bins metadata policy

/-- The request of a command. Families with defaults use them where no policy is given. -/
def request (defaults : Policies) : Command → Request
  | .get key policy => .get key (policy.or defaults.read)
  | .select key bins policy => .select key bins (policy.or defaults.read)
  | .existence key policy => .existence key (policy.or defaults.read)
  | .put key bins metadata policy => .put key bins metadata (policy.or defaults.write)
  | .remove key policy => .remove key (policy.or defaults.remove)
  | .operate key ops metadata policy => .operate key ops metadata (policy.or defaults.operate)
  | .apply key call policy => .apply key call (policy.or defaults.apply)
  | .batchGet keys policy => .batchGet keys (policy.or defaults.batch)
  | .batchExists keys policy => .batchExists keys (policy.or defaults.batch)
  | .batchSelect keys bins policy => .batchSelect keys bins (policy.or defaults.batch)
  | .query ns set spec policy => .query ns set spec (policy.or defaults.query)
  | .indexCreate options indexType policy => .indexCreate options indexType policy
  | .indexRemove ns index policy => .indexRemove ns index policy
  | .udfRegister path udfType policy => .udfRegister path (udfType.getD .lua) policy
  | .udfRemove module policy => .udfRemove module policy
  | .info request host policy => .info request host (policy.or defaults.info)

/-- What a command makes of a response; one of the wrong kind is an error. -/
def answer? : Command → Response → Option Answer
  | .get key _, .record bins metadata => some (.record ⟨key, bins, metadata⟩)
  | .select key _ _, .record bins metadata => some (.record ⟨key, bins, metadata⟩)
  | .operate key _ _ _, .record bins metadata => some (.record ⟨key, bins, metadata⟩)
  | .existence _ _, .existence metadata => some (.metadata (some metadata))
  | .put key _ _ _, .written (some digest) => some (.key (key.withDigest digest))
  | .put key _ _ _, .written none => some (.key key)
  | .put key _ _ _, .done => some (.key key)
  | .remove key _, .done => some (.key key)
  | .apply _ _ _, .value v => some (.value v)
  | .batchGet keys _, .batch entries => some (.batch (Batch.align keys entries))
  | .batchExists keys _, .batch entries => some (.batch (Batch.align keys entries))
  | .batchSelect keys _ _, .batch entries => some (.batch (Batch.align keys entries))
  | .query _ _ ⟨_, _, .foreach⟩ _, .records found => some (.records found)
  | .query _ _ ⟨_, _, .aggregate _⟩ _, .value v => some (.value v)
  | .query _ _ ⟨_, _, .background _⟩ _, .done => some .nothing
  | .indexCreate _ _ _, .done => some .nothing
  | .indexRemove _ _ _, .done => some .nothing
  | .udfRegister _ _ _, .done => some .nothing
  | .udfRemove _ _, .done => some .nothing
  | .info _ _ _, .info responses => some (.info responses)
  | _, _ => none

/-- The name that errors give a command. -/
def name (c : Command) : String := (c.request .empty).commandName

/-- The result of a command. Only the question whether a record exists has an answer when
the record is not found. -/
def conclude (c : Command) : Except Error Response → Except Error Answer
  | .ok response =>
    match c.answer? response with
    | some answer => .ok answer
    | none => .error (.unexpectedResponse c.name response.kind)
  | .error e =>
    match c with
    | .existence _ _ => if e.isNotFound then .ok (.metadata none) else .error e
    | _ => .error e

end Command

/-- A query as it is put together, before it is run in some mode. -/
structure QueryBuilder where
  ns : String
  set : Option String
  spec : QuerySpec
  policy : Option QueryPolicy

namespace QueryBuilder

def filter (q : QueryBuilder) (f : Filter) : QueryBuilder :=
  { q with spec := { q.spec with filters := q.spec.filters ++ [f] } }

def select (q : QueryBuilder) (bins : List String) : QueryBuilder :=
  { q with spec := { q.spec with select := bins } }

def inMode (q : QueryBuilder) (mode : QueryMode) : Command :=
  .query q.ns q.set { q.spec with mode } q.policy

end QueryBuilder

end RecordDb
