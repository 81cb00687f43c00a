import RecordDb.Operation.List
import RecordDb.Operation.Map
import RecordDb.Operation.Scalar

/-!
# Operations

Operations on one bin of a record, of three families. On the wire the family comes first, as a field
of its own.
-/
namespace RecordDb

open Codec

inductive Operation where
  | scalar (op : ScalarOperation)
  | list (op : ListOperation)
  | map (op : MapOperation)

namespace Operation

def bin : Operation → String
  | scalar op => op.bin
  | list op => op.bin
  | map op => op.bin

/-- Whether the operation works inside a list or a map. -/
def isCollection : Operation → Bool
  | scalar _ => false
  | _ => true

def isWrite : Operation → Bool
  | scalar op => op.kind.isWrite
  | list op => op.kind.isWrite
  | map op => op.kind.isWrite

def same : Operation → Operation → Bool
  | scalar a, scalar b => a.same b
  | list a, list b => a.same b
  | map a, map b => a.same b
  | _, _ => false

end Operation

instance : Codec Operation where
  toDoc
    | .scalar op => .obj (("family", .text "scalar") :: op.toFields)
    | .list op => .obj (("family", .text "list") :: op.toFields)
    | .map op => .obj (("family", .text "map") :: op.toFields)
  ofDoc? r d := do
    let (family, d) ← d.tagged? r "family" ["scalar", "list", "map"]
    match family with
    | "scalar" =>
      return .scalar (← ScalarOperation.ofFields? (← d.fields? .held ScalarOperation.fieldNames))
    | "list" =>
      return .list (← ListOperation.ofFields? (← d.fields? .held ListOperation.fieldNames))
    | "map" => return .map (← MapOperation.ofFields? (← d.fields? .held MapOperation.fieldNames))
    | _ => none

end RecordDb
