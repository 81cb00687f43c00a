import RecordDb.Node.Info
import RecordDb.Value.Codec

/-!
# Calls of record functions

Calls of functions in registered modules, and the names of module files.
-/
namespace RecordDb

open Codec Wire.Fields

structure UdfCall where
  module : String
  function : String
  args : List Value

instance : Codec UdfCall where
  toDoc c := .obj [("module", toDoc c.module), ("funcname", toDoc c.function),
    ("args", toDoc c.args)]
  ofDoc? r d := do
    let f ← d.fields? r ["module", "funcname", "args"]
    return ⟨← f.required? "module", ← f.required? "funcname", ← f.orElse? "args" []⟩

/-- The three positional values that a call takes up inside another one. -/
def UdfCall.triple (c : UdfCall) : List Value :=
  [.string c.module, .string c.function, .list c.args]

inductive UdfType where
  | lua
  deriving DecidableEq

instance : Enumeration UdfType where
  all := [.lua]
  name _ := "LUA"

namespace UdfModule

/-- The last part of a path, without regard to empty parts and single dots. A path that
ends in its parent, or has no part at all, is its own name. -/
def fileName (path : String) : String :=
  match ((Text.splitAll '/' path.toList).filter fun p => !p.isEmpty && p != ['.']).getLast? with
  | none => path
  | some ['.', '.'] => path
  | some part => String.ofList part

/-- Whether a module list names the module. Entries are cut at semicolons, their fields
at commas. -/
def isListed (list module : String) : Bool :=
  (Text.splitAll ';' list.toList).any fun entry =>
    (Info.pairs ',' entry).any fun (name, value) => name == "filename" && value == module

end UdfModule

end RecordDb
