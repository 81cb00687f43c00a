import RecordDb.Node.Info
import RecordDb.Query.Filter

/-!
# Secondary indexes

The definition of an index and the report on its build.
-/
namespace RecordDb

open Codec Wire.Fields

/-- Which part of a bin an index covers. -/
inductive IndexCollection where
  | whole
  | list
  | mapKeys
  | mapValues
  deriving DecidableEq

instance : Enumeration IndexCollection where
  all := [.whole, .list, .mapKeys, .mapValues]
  name
    | .whole => "DEFAULT"
    | .list => "LIST"
    | .mapKeys => "MAP_KEYS"
    | .mapValues => "MAP_VALUES"

/-- An index over a bin of one set, or of a whole namespace. -/
structure IndexOptions where
  ns : String
  set : Option String
  bin : String
  index : String
  collection : IndexCollection
  deriving DecidableEq

instance : Codec IndexOptions where
  toDoc o := .obj <| [("ns", toDoc o.ns)] ++ ofOption "set" o.set ++ [("bin", toDoc o.bin),
    ("index", toDoc o.index), ("collection_type", toDoc o.collection)]
  ofDoc? r d := do
    let f ← d.fields? r ["ns", "set", "bin", "index", "collection_type"]
    return ⟨← f.required? "ns", ← f.optional? "set", ← f.required? "bin", ← f.required? "index",
      ← f.orElse? "collection_type" .whole⟩

namespace Index

/-- The info command that reports on an index. -/
def statusCommand (ns index : String) : String := "sindex/" ++ ns ++ "/" ++ index

/-- An index is ready when all of it is loaded. -/
def buildComplete (response : String) : Bool :=
  (Info.pairs ';' response.toList).any fun (name, value) => name == "load_pct" && value == "100"

end Index

end RecordDb
