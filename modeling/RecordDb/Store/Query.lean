import RecordDb.Store

/-!
# Queries over a store

Queries over the records of a namespace. Every filter needs an index; the matches come in the order
in which records are filed.
-/
namespace RecordDb.Store

def checkIndex (s : Store) (ns : String) (filter : Filter) : Except Status Unit :=
  let indexed := (Dict.values s.indexes).any fun (options, indexType) =>
    options.ns == ns && options.bin == filter.bin && indexType == filter.indexType
  if indexed then .ok ()
  else .error (.new .indexNotFound ("no index on bin " ++ filter.bin))

def isMatch (ns : String) (set : Option String) (filters : List Filter) (r : StoredRecord) : Bool :=
  r.key.ns == ns && set.all (· == r.key.set)
    && filters.all fun f => (Dict.get? r.bins f.bin).any f.holdsOf

def scan (s : Store) (ns : String) (set : Option String) (filters : List Filter) :
    List (RecordId × StoredRecord) :=
  s.records.filter fun e => isMatch ns set filters e.2

/-- Applies a function to the records of some ids in turn, up to the first failure. What
the function has done to a record stays also when it fails on it. -/
def applyEach (f : RecordFunction) (args : List Value) :
    List RecordId → Dict RecordId StoredRecord → Dict RecordId StoredRecord × Except Status Unit
  | [], records => (records, .ok ())
  | id :: rest, records =>
    match Dict.get? records id with
    | none => applyEach f args rest records
    | some r =>
      match f r.bins args with
      | (bins, .ok _) =>
        applyEach f args rest (Dict.insert records id { r with bins, gen := r.gen + 1 })
      | (bins, .error e) => (Dict.insert records id { r with bins }, .error e)

def foreach (s : Store) (ns : String) (set : Option String) (spec : QuerySpec) : Response :=
  .records ((s.scan ns set spec.filters).map fun e => e.2.toRecord spec.select)

/-- An aggregating function gets no bins, and the matches as its first argument. -/
def aggregate (functions : Functions) (s : Store) (ns : String) (set : Option String)
    (spec : QuerySpec) (call : UdfCall) : Except Status Response := do
  let f ← function functions call
  let stream := (s.scan ns set spec.filters).map fun e => Value.map (e.2.selected spec.select)
  return .value (← (f [] (.list stream :: call.args)).2)

def background (functions : Functions) (s : Store) (ns : String) (set : Option String)
    (spec : QuerySpec) (call : UdfCall) : Store × Except Status Response :=
  match function functions call with
  | .error e => (s, .error e)
  | .ok f =>
    let ids := (s.scan ns set spec.filters).map Prod.fst
    let (records, result) := applyEach f call.args ids s.records
    ({ s with records }, result.map fun _ => .done)

def query (functions : Functions) (s : Store) (ns : String) (set : Option String)
    (spec : QuerySpec) : Store × Except Status Response :=
  match spec.filters.forM (s.checkIndex ns) with
  | .error e => (s, .error e)
  | .ok _ =>
    match spec.mode with
    | .foreach => (s, .ok (s.foreach ns set spec))
    | .aggregate call => (s, s.aggregate functions ns set spec call)
    | .background call => s.background functions ns set spec call

end RecordDb.Store
