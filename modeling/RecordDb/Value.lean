import RecordDb.Binary64.Text
import RecordDb.Dict

/-!
# Values

The values that bins hold, their kinds, their equality and their display text.
-/
namespace RecordDb

inductive Value where
  | nil
  | bool (b : Bool)
  | int (i : Int64)
  | float (x : Binary64)
  | string (s : String)
  | blob (bytes : List UInt8)
  | list (items : List Value)
  | map (entries : List (String × Value))
  | geo (text : String)
  deriving Inhabited

/-- Bin values by bin name. -/
abbrev Bins := Dict String Value

namespace Value

def kind : Value → String
  | nil => "nil"
  | bool _ => "bool"
  | int _ => "integer"
  | float _ => "float"
  | string _ => "string"
  | blob _ => "blob"
  | list _ => "list"
  | map _ => "map"
  | geo _ => "geojson"

def isNil : Value → Bool
  | nil => true
  | _ => false

def asInt? : Value → Option Int64
  | int i => some i
  | _ => none

/-- Numbers as doubles, integers rounded to the nearest. -/
def asFloat? : Value → Option Binary64
  | int i => some (.ofInt i.toInt)
  | float x => some x
  | _ => none

def asString? : Value → Option String
  | string s => some s
  | _ => none

def asList? : Value → Option (List Value)
  | list items => some items
  | _ => none

mutual

/-- Equality of values of one kind; floats compare as numbers, so a value with a
NaN in it differs from itself. -/
def same : Value → Value → Bool
  | nil, nil => true
  | bool a, bool b => a == b
  | int a, int b => a == b
  | float a, float b => a.same b
  | string a, string b => a == b
  | blob a, blob b => a == b
  | list a, list b => sameItems a b
  | map a, map b => sameEntries a b
  | geo a, geo b => a == b
  | _, _ => false

def sameItems : List Value → List Value → Bool
  | [], [] => true
  | a :: as, b :: bs => same a b && sameItems as bs
  | _, _ => false

def sameEntries : List (String × Value) → List (String × Value) → Bool
  | [], [] => true
  | (j, a) :: as, (k, b) :: bs => j == k && same a b && sameEntries as bs
  | _, _ => false

end

mutual

def display : Value → String
  | nil => "nil"
  | bool b => if b then "true" else "false"
  | int i => toString i.toInt
  | float x => x.displayText
  | string s => s
  | blob bytes => "<" ++ toString bytes.length ++ " bytes>"
  | list items => "[" ++ ", ".intercalate (displayItems items) ++ "]"
  | map entries => "\x7b" ++ ", ".intercalate (displayEntries entries) ++ "\x7d"
  | geo text => text

def displayItems : List Value → List String
  | [] => []
  | v :: rest => display v :: displayItems rest

def displayEntries : List (String × Value) → List String
  | [] => []
  | (k, v) :: rest => (k ++ ": " ++ display v) :: displayEntries rest

end

end Value

/-- Equality of fields that may be absent. -/
def sameField : Option Value → Option Value → Bool
  | none, none => true
  | some a, some b => a.same b
  | _, _ => false

end RecordDb
