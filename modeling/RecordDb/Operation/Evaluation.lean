import RecordDb.Effect
import RecordDb.Operation
import RecordDb.Operation.Selection

/-!
# Evaluation of operations

Evaluating operation lists on the bins of one record. The operations run in order and see the bins
that the ones before them left; the first that fails ends the list, and leaves the bins as far as
they have been changed.
-/
namespace RecordDb.Evaluation

open Evaluated Selection

/-- What a list of operations has done so far: the bins, the results by bin and the time
to live that was asked for. -/
structure Progress where
  bins : Bins
  results : Bins
  ttl : Option UInt32

/-- The sum that an increment stores. Integers wrap; kinds do not mix. -/
def sum? : Option Value → Value → Option Value
  | none, .int d => some (.int d)
  | none, .float d => some (.float d)
  | some (.int a), .int d => some (.int (a + d))
  | some (.float a), .float d => some (.float (a.add d))
  | _, _ => none

/-- Two texts or two blobs, one after the other. -/
def joined? : Option Value → Value → Option Value
  | none, .string s => some (.string s)
  | none, .blob b => some (.blob b)
  | some (.string a), .string b => some (.string (a ++ b))
  | some (.blob a), .blob b => some (.blob (a ++ b))
  | _, _ => none

def preceded? : Option Value → Value → Option Value
  | some (.string a), .string b => some (.string (b ++ a))
  | some (.blob a), .blob b => some (.blob (b ++ a))
  | none, v => joined? none v
  | _, _ => none

/-- Keeps a result under the bin of its operation, in place of an earlier one. -/
def Progress.record (p : Progress) (bin : String) : Option Value → Progress
  | some v => { p with results := Dict.insert p.results bin v }
  | none => p

/-- What is left when a value has been put into a bin. -/
def Progress.written (p : Progress) (bin : String) (v : Value) (result : Option Value) : Progress :=
  ({ p with bins := Dict.insert p.bins bin v }).record bin result

/-- Stores what is made of the bin's value and the operand. -/
def combine (op : ScalarOperation) (make : Option Value → Value → Option Value) :
    Effect Progress Unit := do
  let operand ← required "value" op.value
  match make (Dict.get? (← get).bins op.bin) operand with
  | some v => modify fun p => p.written op.bin v none
  | none => incompatible op.bin

theorem outcome_combine (p : Progress) (op : ScalarOperation)
    (make : Option Value → Value → Option Value) :
    (combine op make).outcome p = required "value" op.value >>= fun operand =>
      match make (Dict.get? p.bins op.bin) operand with
      | some v => .ok (p.written op.bin v none)
      | none => incompatible op.bin := by
  rw [combine, Effect.outcome_check_bind]
  congr 1
  funext operand
  rw [Effect.outcome_get_bind]
  split <;> rfl

def scalar (op : ScalarOperation) : Effect Progress Unit :=
  match op.kind with
  | .read => modify fun p =>
    if op.bin = "" then { p with results := Dict.insertAll p.results p.bins }
    else p.record op.bin (Dict.get? p.bins op.bin)
  | .write => do
    match ← required "value" op.value with
    | .nil => modify fun p => { p with bins := Dict.erase p.bins op.bin }
    | v => modify fun p => p.written op.bin v none
  | .incr => combine op sum?
  | .append => combine op joined?
  | .prepend => combine op preceded?
  | .touch => modify fun p => { p with ttl := op.ttl }

/-- The place of an insertion and the list, filled up to it with nils. -/
def padded (items : List Value) (index : Int64) : Evaluated (Nat × List Value) :=
  match Place.insertion? items.length index with
  | some i => .ok (i, items ++ List.replicate (i - items.length) .nil)
  | none => outOfBounds index

def element (items : List Value) (index : Int64) : Evaluated Nat :=
  match Place.element? items.length index with
  | some i => .ok i
  | none => outOfBounds index

/-- The list that an operation leaves, and its result. -/
def list (xs : List Value) (op : ListOperation) : Evaluated (List Value × Option Value) :=
  let grown (xs : List Value) : List Value × Option Value := (xs, some (intOf xs.length))
  let span : Evaluated Place.Span := do
    return Place.span xs.length (← required "index" op.index) op.count
  match op.kind with
  | .append => do return grown (xs ++ [← required "value" op.value])
  | .appendItems => do return grown (xs ++ (← items (← required "value" op.value)))
  | .insert => do
    let (i, xs) ← padded xs (← required "index" op.index)
    return grown (xs.insertIdx i (← required "value" op.value))
  | .insertItems => do
    let (i, xs) ← padded xs (← required "index" op.index)
    let new ← items (← required "value" op.value)
    return grown (xs.take i ++ new ++ xs.drop i)
  | .pop => do
    let i ← element xs (← required "index" op.index)
    return (xs.eraseIdx i, xs[i]?)
  | .popRange => do
    let s ← span
    return (s.rest xs, some (.list (s.slice xs)))
  | .remove => do
    let i ← element xs (← required "index" op.index)
    return (xs.eraseIdx i, some (intOf 1))
  | .removeRange => do
    let s ← span
    return (s.rest xs, some (intOf (s.slice xs).length))
  | .clear => .ok ([], none)
  | .set => do
    let (i, xs) ← padded xs (← required "index" op.index)
    let v ← required "value" op.value
    return (xs.take i ++ v :: xs.drop (i + 1), none)
  | .trim => do
    let s ← span
    return (s.slice xs, some (intOf (xs.length - (s.slice xs).length)))
  | .get => do
    let i ← element xs (← required "index" op.index)
    return (xs, xs[i]?)
  | .getRange => do
    let s ← span
    return (xs, some (.list (s.slice xs)))
  | .size => .ok (xs, some (intOf xs.length))

/-- Writes an entry if the write mode admits it. -/
def putEntry (entries : Dict String Value) (key : String) (v : Value) (op : MapOperation) :
    Evaluated (Dict String Value) :=
  match op.policy.bind MapPolicy.writeMode, Dict.contains entries key with
  | some .updateOnly, false =>
    .error (.new .elementNotFound ("map key '" ++ key ++ "' not found"))
  | some .createOnly, true => .error (.new .elementExists ("map key '" ++ key ++ "' exists"))
  | _, _ => .ok (Dict.insert entries key v)

/-- The number that an increment leaves in an entry. -/
def increased (bin : String) : Option Value → Value → Evaluated Value
  | none, .int d => .ok (.int d)
  | none, .float d => .ok (.float d)
  | some (.int v), .int d => .ok (.int (v + d))
  | some (.float v), .float d => .ok (.float (v.add d))
  | _, _ => incompatible bin

/-- The number that a decrement leaves in an entry; the least integer has no negation. -/
def decreased (bin : String) : Option Value → Value → Evaluated Value
  | none, .int d =>
    if d = Int64.minValue then invalid ("cannot negate " ++ toString d.toInt) else .ok (.int (-d))
  | none, .float d => .ok (.float d.neg)
  | some (.int v), .int d => .ok (.int (v - d))
  | some (.float v), .float d => .ok (.float (v.sub d))
  | _, _ => incompatible bin

/-- Stores a number made of an entry and the operand, which is also the result. -/
def count (entries : Dict String Value) (op : MapOperation)
    (make : Option Value → Value → Evaluated Value) :
    Evaluated (Dict String Value × Option Value) := do
  let key ← mapKey (← required "key" op.key)
  let next ← make (Dict.get? entries key) (← required "value" op.value)
  return (← putEntry entries key next op, some next)

/-- The map that an operation leaves, and its result. -/
def map (entries : Dict String Value) (op : MapOperation) :
    Evaluated (Dict String Value × Option Value) :=
  let sized (entries : Dict String Value) : Dict String Value × Option Value :=
    (entries, some (intOf entries.length))
  match op.kind with
  | .setPolicy => .ok (entries, none)
  | .put => do
    let key ← mapKey (← required "key" op.key)
    return sized (← putEntry entries key (← required "value" op.value) op)
  | .putItems => do
    match ← required "value" op.value with
    | .map new => return sized (← new.foldlM (fun entries e => putEntry entries e.1 e.2 op) entries)
    | _ => invalid "put_items expects a map"
  | .increment => count entries op (increased op.bin)
  | .decrement => count entries op (decreased op.bin)
  | .clear => .ok ([], none)
  | .size => .ok (sized entries)
  | kind => do
    let selected ← select entries op
    if kind.isWrite then
      let returnType := op.returnType.getD .none
      return (removed entries selected, report entries selected returnType (isSingle kind))
    else
      match op.returnType with
      | some returnType => return (entries, report entries selected returnType (isSingle kind))
      | none => invalid "map read requires a return type"

def mapEntries? : Value → Option (Dict String Value)
  | .map entries => some entries
  | _ => none

/-- Runs an operation inside a collection, which is out of the bins until the operation has
succeeded. A missing bin reads as nil and is an empty collection for a write. -/
def collection {α : Type} (bin : String) (isWrite : Bool) (empty : α) (inside? : Value → Option α)
    (wrap : α → Value) (run : α → Evaluated (α × Option Value)) : Effect Progress Unit := do
  let p ← get
  set { p with bins := Dict.erase p.bins bin }
  match Dict.get? p.bins bin with
  | none =>
    if isWrite then
      let (a, result) ← run empty
      set (p.written bin (wrap a) result)
    else modify fun p => p.record bin (some .nil)
  | some v =>
    match inside? v with
    | none => incompatible bin
    | some a =>
      -- It is put back where it was, which in ascending bins is its place without it, too.
      let (a, result) ← run a
      set (p.written bin (wrap a) result)

/-- Of what is taken out of the bins, only a failure shows that it was out. -/
theorem outcome_collection {α : Type} (p : Progress) (bin : String) (isWrite : Bool) (empty : α)
    (inside? : Value → Option α) (wrap : α → Value) (run : α → Evaluated (α × Option Value)) :
    (collection bin isWrite empty inside? wrap run).outcome p =
      match Dict.get? p.bins bin with
      | none =>
        if isWrite then (run empty).map fun done => p.written bin (wrap done.1) done.2
        else .ok (p.record bin (some .nil))
      | some v =>
        match inside? v with
        | none => incompatible bin
        | some a => (run a).map fun done => p.written bin (wrap done.1) done.2 := by
  have hput (a : α) : (do
      let (a, result) ← run a
      set (p.written bin (wrap a) result) : Effect Progress Unit).outcome
        { p with bins := Dict.erase p.bins bin } =
      (run a).map fun done => p.written bin (wrap done.1) done.2 := by
    cases run a <;> rfl
  rw [collection, Effect.outcome_get_bind, Effect.outcome_bind]
  change Effect.outcome (match Dict.get? p.bins bin with | none => _ | some v => _) _ = _
  cases hget : Dict.get? p.bins bin with
  | none =>
    cases isWrite with
    | true => exact hput empty
    | false =>
      have hgone : Dict.erase p.bins bin = p.bins :=
        Dict.erase_of_not_contains (by rw [Dict.contains, hget]; rfl)
      simp [hgone]
  | some v =>
    dsimp only
    cases inside? v with
    | none => rfl
    | some a => exact hput a

def perform : Operation → Effect Progress Unit
  | .scalar op => scalar op
  | .list op =>
    collection op.bin op.kind.isWrite [] Value.asList? .list fun xs => list xs op
  | .map op =>
    collection op.bin op.kind.isWrite [] mapEntries? .map fun entries => map entries op

def performAll (ops : List Operation) : Effect Progress Unit := ops.forM perform

/-- What comes of one operation. -/
def step (p : Progress) (op : Operation) : Evaluated Progress := (perform op).outcome p

/-- What comes of operations on a copy of some bins. -/
def run (bins : Bins) (ops : List Operation) : Evaluated Progress :=
  (performAll ops).outcome ⟨bins, [], none⟩

/-- Each operation works on what the ones before it have left. -/
theorem run_eq_foldlM (bins : Bins) (ops : List Operation) :
    run bins ops = ops.foldlM step ⟨bins, [], none⟩ :=
  Effect.outcome_forM _ perform ops

end RecordDb.Evaluation
