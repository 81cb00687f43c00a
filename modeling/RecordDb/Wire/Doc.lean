import RecordDb.Binary64
import RecordDb.Dict

/-!
# Wire documents

What the packed and the textual encoding have in common. Field order and repeated fields are kept,
since readers decide what they mean.
-/
namespace RecordDb.Wire

def utf8Text? (bytes : List UInt8) : Option String := String.fromUTF8? ⟨bytes.toArray⟩

/-- The last four cases are only read, never written. -/
inductive Doc where
  | null
  | bool (b : Bool)
  | int (i : Int)
  | float (x : Binary64)
  | text (s : String)
  | bytes (b : List UInt8)
  | arr (items : List Doc)
  | obj (fields : List (String × Doc))
  /-- A number from zero up in a packed form other than its shortest. -/
  | longInt (n width : Nat) (signed : Bool)
  /-- Contents of a text that are no proper text; of a JSON text, some can be read as
  bytes but not be passed over. -/
  | rawText (b : List UInt8) (passable : Bool)
  /-- A packed map with a key that is no text. -/
  | table (entries : List (Doc × Doc))
  /-- Well formed, but no reader accepts it: a number out of range, an extension. -/
  | alien
  deriving Inhabited

namespace Doc

mutual

/-- Whether a document of a JSON text can be held before its shape is known. -/
def storable : Doc → Bool
  | .alien | .rawText .. => false
  | .arr items => storableItems items
  | .obj fields => storableFields fields
  | _ => true

def storableItems : List Doc → Bool
  | [] => true
  | d :: rest => storable d && storableItems rest

def storableFields : List (String × Doc) → Bool
  | [] => true
  | (_, d) :: rest => storable d && storableFields rest

end

mutual

/-- Whether the document can be passed over unread. -/
def passable : Doc → Bool
  | .rawText _ p => p
  | .arr items => passableItems items
  | .obj fields => passableFields fields
  | _ => true

def passableItems : List Doc → Bool
  | [] => true
  | d :: rest => passable d && passableItems rest

def passableFields : List (String × Doc) → Bool
  | [] => true
  | (_, d) :: rest => passable d && passableFields rest

end

mutual

/-- Fields ascend by name and of repeated ones the last stays. -/
def sorted : Doc → Doc
  | .arr items => .arr (sortedItems items)
  | .obj fields => .obj (Dict.ofList (sortedFields fields))
  | d => d

def sortedItems : List Doc → List Doc
  | [] => []
  | d :: rest => sorted d :: sortedItems rest

def sortedFields : List (String × Doc) → List (String × Doc)
  | [] => []
  | (k, d) :: rest => (k, sorted d) :: sortedFields rest

end

/-- Text, also when it came as bytes. -/
def text? : Doc → Option String
  | .text s => some s
  | .bytes b => utf8Text? b
  | _ => none

def int? : Doc → Option Int
  | .int i => some i
  | .longInt n _ _ => some n
  | _ => none

def inRange? (low high : Int) (d : Doc) : Option Int :=
  d.int?.filter fun i => low ≤ i ∧ i ≤ high

end Doc

end RecordDb.Wire
