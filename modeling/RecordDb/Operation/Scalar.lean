import RecordDb.Value.Codec

/-!
# Operations on a whole bin
-/
namespace RecordDb

open Codec Wire.Fields

inductive ScalarKind where
  | read
  | write
  | incr
  | append
  | prepend
  | touch
  deriving DecidableEq

instance : Enumeration ScalarKind where
  all := [.read, .write, .incr, .append, .prepend, .touch]
  name
    | .read => "READ"
    | .write => "WRITE"
    | .incr => "INCR"
    | .append => "APPEND"
    | .prepend => "PREPEND"
    | .touch => "TOUCH"

def ScalarKind.isWrite (k : ScalarKind) : Bool := k ≠ .read

/-- A read of the bin with the empty name reads the whole record. -/
structure ScalarOperation where
  kind : ScalarKind
  bin : String
  value : Option Value
  ttl : Option UInt32

namespace ScalarOperation

def new (kind : ScalarKind) (bin : String) : ScalarOperation := ⟨kind, bin, none, none⟩

def same (a b : ScalarOperation) : Bool :=
  a.kind == b.kind && a.bin == b.bin && sameField a.value b.value && a.ttl == b.ttl

def toFields (op : ScalarOperation) : List (String × Wire.Doc) :=
  [("op", toDoc op.kind), ("bin", toDoc op.bin)]
    ++ ofOption "value" op.value ++ ofOption "ttl" op.ttl

def ofFields? (f : Wire.Fields) : Option ScalarOperation :=
  return ⟨← f.required? "op", ← f.required? "bin", ← f.optional? "value", ← f.optional? "ttl"⟩

def fieldNames : List String := ["op", "bin", "value", "ttl"]

end ScalarOperation

end RecordDb
