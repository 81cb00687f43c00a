import RecordDb.Wire.Json.Parser
import RecordDb.Wire.Json.Printer
import RecordDb.Wire.Packed
import RecordDb.Wire.Reading

/-!
# Types with a wire form

A record is a document of named fields: unknown fields are passed over, a known field may not come
twice, and an optional one that is absent or null has no value.
-/
namespace RecordDb

open Wire (Doc Reading)

class Codec (α : Type) where
  toDoc : α → Doc
  ofDoc? : Reading → Doc → Option α

namespace Codec
variable {α : Type} [Codec α]

def pack (a : α) : List UInt8 := Wire.Packed.encode (toDoc a)

def unpack? (bytes : List UInt8) : Option α := (Wire.Packed.decode? bytes).bind (ofDoc? .packed)

def toJson (a : α) : String := Wire.Json.render (toDoc a)

def ofJson? (text : String) : Option α := (Wire.Json.parse? text).bind (ofDoc? .json)

end Codec

open Codec

instance : Codec String where
  toDoc s := .text s
  ofDoc? _ d := d.text?

instance : Codec Bool where
  toDoc b := .bool b
  ofDoc?
    | _, .bool b => some b
    | _, _ => none

instance : Codec Int64 where
  toDoc i := .int i.toInt
  ofDoc? _ d := (d.inRange? (-0x8000000000000000) 0x7fffffffffffffff).map Int64.ofInt

instance : Codec Int32 where
  toDoc i := .int i.toInt
  ofDoc? _ d := (d.inRange? (-0x80000000) 0x7fffffff).map Int32.ofInt

instance : Codec UInt32 where
  toDoc n := .int n.toNat
  ofDoc? _ d := (d.inRange? 0 0xffffffff).map fun i => UInt32.ofNat i.toNat

instance : Codec UInt16 where
  toDoc n := .int n.toNat
  ofDoc? _ d := (d.inRange? 0 0xffff).map fun i => UInt16.ofNat i.toNat

/-- Packed bytes also count as a list of numbers. -/
instance {α : Type} [Codec α] : Codec (List α) where
  toDoc items := .arr (items.map toDoc)
  ofDoc?
    | r, .arr items => items.mapM (ofDoc? r)
    | .packed, .bytes b => b.mapM fun n => ofDoc? .packed (.int n.toNat)
    | _, _ => none

/-- A plain byte string, also read from its text or from a list of byte numbers. -/
structure ByteString where
  bytes : List UInt8
  deriving DecidableEq

instance : Codec ByteString where
  toDoc b := .bytes b.bytes
  ofDoc?
    | _, .bytes b | _, .rawText b _ => some ⟨b⟩
    | _, .text s => some ⟨Wire.Packed.utf8 s⟩
    | _, .arr items =>
      (items.mapM (Doc.inRange? 0 255)).map fun ns => ⟨ns.map fun i => UInt8.ofNat i.toNat⟩
    | _, _ => none

/-- A finite type whose wire form is the name of a value, in the order of declaration. -/
class Enumeration (α : Type) where
  all : List α
  name : α → String

def Enumeration.ofName? {α : Type} [Enumeration α] (s : String) : Option α :=
  (Enumeration.all (α := α)).find? fun a => Enumeration.name a = s

instance {α : Type} [Enumeration α] : Codec α where
  toDoc a := .text (Enumeration.name a)
  ofDoc? r d :=
    (d.choice? r ((Enumeration.all (α := α)).map Enumeration.name)).bind Enumeration.ofName?

namespace Wire.Fields
variable {α : Type} [Codec α]

def get? (fields : Fields) (name : String) : Option Doc := Dict.get? fields.entries name

def required? (fields : Fields) (name : String) : Option α :=
  (fields.get? name).bind (ofDoc? fields.reading)

def optional? (fields : Fields) (name : String) : Option (Option α) :=
  match fields.get? name with
  | none => some none
  | some .null => some none
  | some d => (ofDoc? fields.reading d).map some

def orElse? (fields : Fields) (name : String) (default : α) : Option α :=
  match fields.get? name with
  | none => some default
  | some d => ofDoc? fields.reading d

/-- A field that is left out when it has no value. -/
def ofOption (name : String) : Option α → List (String × Doc)
  | none => []
  | some a => [(name, toDoc a)]

/-- A field that is left out when it has no items. -/
def ofItems (name : String) (items : List α) : List (String × Doc) :=
  if items.isEmpty then [] else [(name, toDoc items)]

end Wire.Fields

end RecordDb
