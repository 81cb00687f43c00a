import RecordDb.Wire.Doc

/-!
# Reading documents

Documents are read by declared names: the fields of a record, the kind of a tagged record, the
values of a finite type. A packed document may also give bytes for a name, or its place in the
declaration, and some of these forms are lost when a document is held back until its shape is known.
-/
namespace RecordDb.Wire

/-- How a document is read: straight from a JSON text, straight from packed bytes, or,
from either, after it was held back. -/
inductive Reading where
  | json
  | packed
  | held
  deriving DecidableEq

/-- What stands for a name; `nameless` contents are a name that nothing has. -/
inductive Label where
  | name (s : String)
  | place (n : Nat)
  | nameless

def Label.among? (names : List String) : Label → Option String
  | .name s => names.find? (· = s)
  | .place n => names[n]?
  | .nameless => none

/-- The fields of a record, and how each of them is read. -/
structure Fields where
  reading : Reading
  entries : List (String × Doc)

/-- The fields of a map. No known one comes twice, and the others are passed over. -/
def Fields.ofEntries? (r : Reading) (known : List String) (entries : List (String × Doc)) :
    Option Fields :=
  if known.all (fun name => (entries.filter fun e => e.1 = name).length ≤ 1)
      && entries.all (fun e => known.contains e.1 || e.2.passable) then
    some ⟨r, entries⟩
  else none

namespace Doc

def holdable (r : Reading) (d : Doc) : Bool := r ≠ .json || d.storable

/-- A place is an unsigned number, and a held one is as long as one byte or eight. -/
def label? (r : Reading) : Doc → Option Label
  | .text s => some (.name s)
  | .bytes b | .rawText b _ =>
    if r = .json then none else some <| ((utf8Text? b).map Label.name).getD .nameless
  | .int i =>
    if r = .json ∨ i < 0 ∨ (r = .held ∧ 0x100 ≤ i ∧ i < 0x100000000) then none
    else some (.place i.toNat)
  | .longInt n width signed =>
    if r = .json ∨ signed ∨ (r = .held ∧ width ≠ 1 ∧ width ≠ 8) then none else some (.place n)
  | _ => none

def name? (r : Reading) (names : List String) (d : Doc) : Option String :=
  (d.label? r).bind (Label.among? names)

/-- The content of a name that has none. -/
def isVoid (r : Reading) : Doc → Bool
  | .null => true
  | .obj [] => r = .held
  | _ => false

/-- One of the names, alone or with a void content. A name that was held back is a text
when it is alone. -/
def choice? (r : Reading) (names : List String) : Doc → Option String
  | .obj [(k, d)] => if d.isVoid r then (Label.name k).among? names else none
  | .table [(k, d)] => if d.isVoid r then k.name? r names else none
  | .text s => (Label.name s).among? names
  | d => if r = .held then none else d.name? r names

/-- The fields of a document. A list is taken as the first of the known fields, in their
order; packed bytes count as a list, but no field is a byte. -/
def fields? (r : Reading) (known : List String) : Doc → Option Fields
  | .obj entries => Fields.ofEntries? r known entries
  | .table entries => do
    let named ← entries.mapM fun (k, d) => (k.label? r).map fun l => (l.among? known).map (·, d)
    Fields.ofEntries? r known (named.filterMap id)
  | .arr items => if items.length ≤ known.length then some ⟨r, known.zip items⟩ else none
  | .bytes [] => if r = .packed then some ⟨r, []⟩ else none
  | _ => none

/-- The kind that the tag of a document names, and the document that is left to be read.
All of it has to be held until the kind is known. -/
def tagged? (r : Reading) (tag : String) (kinds : List String) (d : Doc) :
    Option (String × Doc) :=
  if !d.holdable r then none
  else match d with
    | .obj entries =>
      match entries.filter fun e => e.1 = tag with
      | [(_, t)] => (t.name? r kinds).map (·, d)
      | _ => none
    | .table entries =>
      match entries.filter fun e => e.1.text? = some tag with
      | [(_, t)] => (t.name? r kinds).map (·, d)
      | _ => none
    | .arr (t :: rest) => (t.name? r kinds).map (·, .arr rest)
    | _ => none

end Doc

end RecordDb.Wire
