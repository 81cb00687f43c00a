import RecordDb.Value

/-!
# The order of values

The order of values in which ranks are counted: by kind first, numbers of both kinds together, lists
item by item, maps by their size alone. A NaN counts as equal to every number.
-/
namespace RecordDb.Value

def kindRank : Value → Nat
  | nil => 0
  | bool _ => 1
  | int _ | float _ => 2
  | string _ => 3
  | blob _ => 4
  | list _ => 5
  | map _ => 6
  | geo _ => 7

def compareInts (a b : Int) : Ordering := if a < b then .lt else if a = b then .eq else .gt

def compareKeys {κ : Type} [DecidableEq κ] [KeyOrder κ] (a b : κ) : Ordering :=
  if a = b then .eq else if KeyOrder.before a b then .lt else .gt

def compareFloats (x y : Binary64) : Ordering := (x.compare? y).getD .eq

mutual

def compare : Value → Value → Ordering
  | bool a, bool b => compareInts a.toNat b.toNat
  | int a, int b => compareInts a.toInt b.toInt
  | int a, float y => compareFloats (.ofInt a.toInt) y
  | float x, int b => compareFloats x (.ofInt b.toInt)
  | float x, float y => compareFloats x y
  | string a, string b => compareKeys a b
  | blob a, blob b => compareKeys a b
  | list a, list b => compareItems a b
  | map a, map b => compareInts a.length b.length
  | geo a, geo b => compareKeys a b
  | a, b => compareInts a.kindRank b.kindRank

/-- The first items that differ decide, then the lengths. -/
def compareItems : List Value → List Value → Ordering
  | [], [] => .eq
  | [], _ :: _ => .lt
  | _ :: _, [] => .gt
  | a :: as, b :: bs =>
    match compare a b with
    | .eq => compareItems as bs
    | decided => decided

end

mutual

/-- Whether no float occurs in the value, at any depth. -/
def floatless : Value → Bool
  | float _ => false
  | list items => floatlessItems items
  | map entries => floatlessEntries entries
  | _ => true

def floatlessItems : List Value → Bool
  | [] => true
  | v :: rest => floatless v && floatlessItems rest

def floatlessEntries : List (String × Value) → Bool
  | [] => true
  | (_, v) :: rest => floatless v && floatlessEntries rest

end

/-- The value lies in a range that takes in its start and not its stop; a nil bound
leaves its side open. -/
def inRange (v start stop : Value) : Bool :=
  (start.isNil || compare v start != .lt) && (stop.isNil || compare v stop == .lt)

end RecordDb.Value
