import RecordDb.Value
import RecordDb.Wire.Codec

/-!
# The wire form of values

The wire form of values carries no kind: a geographic text is a text, and reading takes the kind
from the document alone.
-/
namespace RecordDb

open Wire (Doc Reading)

namespace Value

mutual

def toDoc : Value → Doc
  | nil => .null
  | bool b => .bool b
  | int i => .int i.toInt
  | float x => .float x
  | string s => .text s
  | blob bytes => .bytes bytes
  | list items => .arr (toDocs items)
  | map entries => .obj (toFields entries)
  | geo text => .text text

def toDocs : List Value → List Doc
  | [] => []
  | v :: rest => toDoc v :: toDocs rest

def toFields : List (String × Value) → List (String × Doc)
  | [] => []
  | (k, v) :: rest => (k, toDoc v) :: toFields rest

end

def ofInt? (i : Int) : Option Value :=
  if -0x8000000000000000 ≤ i ∧ i < 0x8000000000000000 then some (int (.ofInt i)) else none

mutual

/-- Integers have to fit 64 bits, and of repeated names the last one counts. -/
def ofDoc? (r : Reading) : Doc → Option Value
  | .null => some nil
  | .bool b => some (bool b)
  | .int i => ofInt? i
  | .longInt n _ _ => ofInt? n
  | .float x => some (float x)
  | .text s => some (string s)
  | .bytes b => some (blob b)
  | .rawText b _ => if r = .json then none else some (blob b)
  | .arr items => (ofDocs? r items).map list
  | .obj fields => (ofFields? r fields).map fun entries => map (Dict.ofList entries)
  | .table _ | .alien => none

def ofDocs? (r : Reading) : List Doc → Option (List Value)
  | [] => some []
  | d :: rest =>
    match ofDoc? r d, ofDocs? r rest with
    | some v, some vs => some (v :: vs)
    | _, _ => none

def ofFields? (r : Reading) : List (String × Doc) → Option (List (String × Value))
  | [] => some []
  | (k, d) :: rest =>
    match ofDoc? r d, ofFields? r rest with
    | some v, some vs => some ((k, v) :: vs)
    | _, _ => none

end

end Value

instance : Codec Value := ⟨Value.toDoc, Value.ofDoc?⟩

/-- Bins are a document of one field a bin. -/
instance : Codec Bins where
  toDoc bins := .obj (Value.toFields bins)
  ofDoc?
    | r, .obj fields => (Value.ofFields? r fields).map Dict.ofList
    | _, _ => none

end RecordDb
