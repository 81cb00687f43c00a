import RecordDb.Query.Filter
import RecordDb.Udf

/-!
# Query definitions

The predicates, the bins to return and what is done with a match.
-/
namespace RecordDb

open Codec Wire.Fields
open Wire (Doc Reading)

inductive QueryMode where
  /-- Returns the matches. -/
  | foreach
  /-- Returns what a function makes of all matches. -/
  | aggregate (call : UdfCall)
  /-- Applies a record function to every match. -/
  | background (call : UdfCall)

namespace QueryMode

def names : List String := ["foreach", "aggregate", "background"]

/-- The name of a mode, its content, and how the content is read. A list holds the bare
name and the content. In a map the name is a value of a finite type, and a content that
comes before it has to be held until the name is known. -/
def parts? (r : Reading) : Doc → Option (String × Option Doc × Reading)
  | .arr [name, content] => (name.name? r names).map (·, some content, r)
  | .arr _ => none
  | d => do
    let f ← d.fields? r ["mode", "udf"]
    let name ← (← f.get? "mode").choice? r names
    let content := f.get? "udf"
    if (f.entries.find? fun e => e.1 = "mode" ∨ e.1 = "udf").any (·.1 = "udf") then
      if content.all (·.holdable r) then some (name, content, .held) else none
    else some (name, content, r)

end QueryMode

/-- A mode is a name with the call as its content. -/
instance : Codec QueryMode where
  toDoc
    | .foreach => .obj [("mode", .text "foreach")]
    | .aggregate call => .obj [("mode", .text "aggregate"), ("udf", toDoc call)]
    | .background call => .obj [("mode", .text "background"), ("udf", toDoc call)]
  ofDoc? r d := do
    match ← QueryMode.parts? r d with
    | ("foreach", none, _) | ("foreach", some .null, _) => return .foreach
    | ("aggregate", some call, r) => return .aggregate (← ofDoc? r call)
    | ("background", some call, r) => return .background (← ofDoc? r call)
    | _ => none

/-- No filter scans everything, and no selection returns every bin. -/
structure QuerySpec where
  filters : List Filter
  select : List String
  mode : QueryMode

def QuerySpec.empty : QuerySpec := ⟨[], [], .foreach⟩

instance : Codec QuerySpec where
  toDoc s := .obj <| ofItems "filters" s.filters ++ ofItems "select" s.select
    ++ [("mode", toDoc s.mode)]
  ofDoc? r d := do
    let f ← d.fields? r ["filters", "select", "mode"]
    return ⟨← f.orElse? "filters" [], ← f.orElse? "select" [], ← f.orElse? "mode" .foreach⟩

end RecordDb
