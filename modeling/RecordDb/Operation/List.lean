import RecordDb.Value.Codec

/-!
# Operations on a list bin

An index counts from the end when it is negative, and a range without a count runs to the end.
-/
namespace RecordDb

open Codec Wire.Fields

inductive ListKind where
  | append
  | appendItems
  | insert
  | insertItems
  | pop
  | popRange
  | remove
  | removeRange
  | clear
  | set
  | trim
  | get
  | getRange
  | size
  deriving DecidableEq

instance : Enumeration ListKind where
  all := [.append, .appendItems, .insert, .insertItems, .pop, .popRange, .remove, .removeRange,
    .clear, .set, .trim, .get, .getRange, .size]
  name
    | .append => "APPEND"
    | .appendItems => "APPEND_ITEMS"
    | .insert => "INSERT"
    | .insertItems => "INSERT_ITEMS"
    | .pop => "POP"
    | .popRange => "POP_RANGE"
    | .remove => "REMOVE"
    | .removeRange => "REMOVE_RANGE"
    | .clear => "CLEAR"
    | .set => "SET"
    | .trim => "TRIM"
    | .get => "GET"
    | .getRange => "GET_RANGE"
    | .size => "SIZE"

def ListKind.isWrite : ListKind → Bool
  | .get | .getRange | .size => false
  | _ => true

/-- The value of the kinds for several items is a list. -/
structure ListOperation where
  kind : ListKind
  bin : String
  index : Option Int64
  count : Option Int64
  value : Option Value

namespace ListOperation

def new (kind : ListKind) (bin : String) : ListOperation := ⟨kind, bin, none, none, none⟩

def same (a b : ListOperation) : Bool :=
  a.kind == b.kind && a.bin == b.bin && a.index == b.index && a.count == b.count
    && sameField a.value b.value

def toFields (op : ListOperation) : List (String × Wire.Doc) :=
  [("op", toDoc op.kind), ("bin", toDoc op.bin)] ++ ofOption "index" op.index
    ++ ofOption "count" op.count ++ ofOption "value" op.value

def ofFields? (f : Wire.Fields) : Option ListOperation :=
  return ⟨← f.required? "op", ← f.required? "bin", ← f.optional? "index", ← f.optional? "count",
    ← f.optional? "value"⟩

def fieldNames : List String := ["op", "bin", "index", "count", "value"]

end ListOperation

end RecordDb
