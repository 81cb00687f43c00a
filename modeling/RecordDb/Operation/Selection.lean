import RecordDb.Operation.Map
import RecordDb.Operation.Place
import RecordDb.Sorting
import RecordDb.Status
import RecordDb.Value.Order

/-!
# Selections of map entries

Selecting entries of a map and reporting on them. Entries are named by their index, the place in key
order; the rank of an entry is its place in value order, where equal values keep their key order.
-/
namespace RecordDb

abbrev Evaluated (α : Type) := Except Status α

namespace Evaluated

def invalid {α : Type} (message : String) : Evaluated α :=
  .error (.new .requestInvalid message)

def incompatible {α : Type} (bin : String) : Evaluated α :=
  .error (.new .binIncompatible ("bin '" ++ bin ++ "' has an incompatible type"))

def outOfBounds {α : Type} (index : Int64) : Evaluated α :=
  invalid ("index " ++ toString index.toInt ++ " out of bounds")

def required {α : Type} (name : String) : Option α → Evaluated α
  | some a => .ok a
  | none => invalid ("missing operation field '" ++ name ++ "'")

def items : Value → Evaluated (List Value)
  | .list items => .ok items
  | v => invalid ("expected a list, got " ++ v.kind)

end Evaluated

namespace Selection

open Evaluated

/-- Map keys are texts; an integer stands for its decimal text. -/
def mapKey : Value → Evaluated String
  | .string s => .ok s
  | .int i => .ok (toString i.toInt)
  | v => invalid ("unsupported map key type " ++ v.kind)

/-- The indexes of the entries in value order. Values without floats are ordered
consistently, and their order is the same by any stable sort. A NaN equals every number,
so that with floats the sort itself decides. -/
def rankOrder (entries : Dict String Value) : List Nat :=
  let before := fun (a b : (String × Value) × Nat) => a.1.2.compare b.1.2 == .lt
  let ranked :=
    if entries.all fun e => e.2.floatless then Sorting.insertAll before [] entries.zipIdx
    else Sorting.sort before entries.zipIdx
  ranked.map Prod.snd

def matching (entries : Dict String Value) (test : String → Value → Bool) : List Nat :=
  (entries.zipIdx.filter fun e => test e.1.1 e.1.2).map Prod.snd

/-- The indexes of the entries that a reading or removing operation addresses, in the
order in which they are reported. -/
def select (entries : Dict String Value) (op : MapOperation) : Evaluated (List Nat) :=
  match op.kind with
  | .removeByKey | .getByKey => do
    let key ← mapKey (← required "key" op.key)
    return (entries.findIdx? fun e => e.1 = key).toList
  | .removeByKeyList => do
    let wanted ← (← items (← required "key" op.key)).mapM mapKey
    return matching entries fun k _ => wanted.contains k
  | .removeByKeyRange | .getByKeyRange => do
    let start ← required "begin" op.start
    let stop ← required "end" op.stop
    return matching entries fun k _ => (Value.string k).inRange start stop
  | .removeByValue | .getByValue => do
    let value ← required "value" op.value
    return matching entries fun _ v => v.compare value == .eq
  | .removeByValueList => do
    let wanted ← items (← required "value" op.value)
    return matching entries fun _ v => wanted.any fun w => v.compare w == .eq
  | .removeByValueRange | .getByValueRange => do
    let start ← required "begin" op.start
    let stop ← required "end" op.stop
    return matching entries fun _ v => v.inRange start stop
  | .removeByIndex | .getByIndex => do
    return (Place.element? entries.length (← required "index" op.index)).toList
  | .removeByIndexRange | .getByIndexRange => do
    let span := Place.span entries.length (← required "index" op.index) op.count
    return span.slice (List.range entries.length)
  | .removeByRank | .getByRank => do
    let rank ← required "rank" op.rank
    return ((Place.element? entries.length rank).bind ((rankOrder entries)[·]?)).toList
  | .removeByRankRange | .getByRankRange => do
    let span := Place.span entries.length (← required "rank" op.rank) op.count
    return span.slice (rankOrder entries)
  | .setPolicy | .put | .putItems | .increment | .decrement | .clear | .size =>
    invalid "operation does not select entries"

/-- Whether a kind addresses at most one entry. -/
def isSingle : MapKind → Bool
  | .removeByKey | .getByKey | .removeByIndex | .getByIndex | .removeByRank | .getByRank => true
  | _ => false

/-- One report for an operation on a single entry, nil without one; else a list. -/
def reported (single : Bool) (values : List Value) : Value :=
  match single, values with
  | true, [] => .nil
  | true, v :: _ => v
  | false, vs => .list vs

def intOf (n : Nat) : Value := .int (Int64.ofNat n)

/-- The report on the selected entries. -/
def report (entries : Dict String Value) (selected : List Nat) (returnType : ReturnType)
    (single : Bool) : Option Value :=
  let last := entries.length - 1
  let order := rankOrder entries
  let found := selected.filterMap (entries[·]?)
  match returnType with
  | .none => none
  | .count => some (intOf selected.length)
  | .index => some (reported single (selected.map intOf))
  | .reverseIndex => some (reported single (selected.map fun i => intOf (last - i)))
  | .rank => some (reported single (selected.map fun i => intOf (order.idxOf i)))
  | .reverseRank => some (reported single (selected.map fun i => intOf (last - order.idxOf i)))
  | .key => some (reported single (found.map fun e => .string e.1))
  | .value => some (reported single (found.map Prod.snd))
  | .keyValue => some (.map (Dict.ofList found))

/-- The entries whose index is not selected. -/
def removed (entries : Dict String Value) (selected : List Nat) : Dict String Value :=
  (entries.zipIdx.filter fun e => !selected.contains e.2).map Prod.fst

end Selection

end RecordDb
