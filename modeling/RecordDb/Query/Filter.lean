import RecordDb.Geo
import RecordDb.Value.Codec

/-!
# Filters

Predicates on one bin, for queries over secondary indexes. The kind of the operand decides which
type of index a predicate asks for.
-/
namespace RecordDb

open Codec Wire.Fields

inductive IndexType where
  | numeric
  | string
  | geo2dsphere
  deriving DecidableEq

instance : Enumeration IndexType where
  all := [.numeric, .string, .geo2dsphere]
  name
    | .numeric => "NUMERIC"
    | .string => "STRING"
    | .geo2dsphere => "GEO2DSPHERE"

inductive Predicate where
  | equal
  | range
  deriving DecidableEq

instance : Enumeration Predicate where
  all := [.equal, .range]
  name
    | .equal => "EQUAL"
    | .range => "RANGE"

structure Filter where
  predicate : Predicate
  bin : String
  indexType : IndexType
  operand : Option Value
  min : Option Int64
  max : Option Int64

instance : Codec Filter where
  toDoc f := .obj <| [("predicate", toDoc f.predicate), ("bin", toDoc f.bin),
      ("type", toDoc f.indexType)]
    ++ ofOption "val" f.operand ++ ofOption "min" f.min ++ ofOption "max" f.max
  ofDoc? r d := do
    let f ← d.fields? r ["predicate", "bin", "type", "val", "min", "max"]
    return ⟨← f.required? "predicate", ← f.required? "bin", ← f.required? "type",
      ← f.optional? "val", ← f.optional? "min", ← f.optional? "max"⟩

namespace Filter

/-- Integers compare as such, any other pair of numbers as doubles. -/
def numbersEqual : Value → Value → Bool
  | .int a, .int b => a == b
  | a, b =>
    match a.asFloat?, b.asFloat? with
    | some x, some y => x.same y
    | _, _ => false

/-- Geographic predicates hold of identical texts only. -/
def geoMatches : Value → Value → Bool
  | .string a, .geo b => a == b
  | a, b => a.same b

def holdsOf (f : Filter) (v : Value) : Bool :=
  match f.predicate, f.indexType with
  | .equal, .string => f.operand.any (·.same v)
  | .equal, .numeric => f.operand.any (numbersEqual · v)
  | .range, .numeric =>
    match v.asInt?, f.min, f.max with
    | some i, some low, some high => decide (low ≤ i) && decide (i ≤ high)
    | _, _, _ => false
  | _, .geo2dsphere => f.operand.any (geoMatches · v)
  | .range, .string => false

def equal (bin : String) : Value → Except Error Filter
  | .string s => .ok ⟨.equal, bin, .string, some (.string s), none, none⟩
  | .int i => .ok ⟨.equal, bin, .numeric, some (.int i), none, none⟩
  | .float x => .ok ⟨.equal, bin, .numeric, some (.float x), none, none⟩
  | .geo _ => .error (.filterValue bin "geojson (use geo_within or geo_contains)")
  | v => .error (.filterValue bin v.kind)

def range (bin : String) (min max : Int64) : Filter :=
  ⟨.range, bin, .numeric, none, some min, some max⟩

/-- The points of a bin that lie in a region. -/
def geoWithin (bin text : String) : Filter :=
  ⟨.range, bin, .geo2dsphere, some (.string text), none, none⟩

/-- The regions of a bin that contain a point. -/
def geoContains (bin text : String) : Filter :=
  ⟨.equal, bin, .geo2dsphere, some (.string text), none, none⟩

end Filter

end RecordDb
