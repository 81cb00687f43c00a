import RecordDb.Node.Host

/-!
# Info responses

A line is a name, a tab and a value, and values are often lists of pairs.
-/
namespace RecordDb

open Codec Wire.Fields

/-- One node's answer to an info request. -/
structure InfoResponse where
  host : Host
  response : String
  deriving DecidableEq

instance : Codec InfoResponse where
  toDoc r := .obj [("host", toDoc r.host), ("response", toDoc r.response)]
  ofDoc? r d := do
    let f ← d.fields? r ["host", "response"]
    return ⟨← f.required? "host", ← f.required? "response"⟩

namespace Info

/-- Values by name; a line without a tab is a name with an empty value. -/
def parse (text : String) : Dict String String :=
  Dict.ofList <| ((Text.lines text.toList).filter (!·.isEmpty)).map fun line =>
    match Text.splitFirst? '\t' line with
    | some (name, value) => (String.ofList name, String.ofList value)
    | none => (String.ofList line, "")

/-- The parts with a first `=`, as trimmed name and trimmed value. -/
def pairs (sep : Char) (text : List Char) : List (String × String) :=
  (Text.splitAll sep text).filterMap fun part =>
    (Text.splitFirst? '=' part).map fun (name, value) =>
      (String.ofList (Text.trim name), String.ofList (Text.trim value))

/-- Values by name of a list with semicolons; entries without `=` are left out. -/
def parsePairs (text : String) : Dict String String := Dict.ofList (pairs ';' text.toList)

end Info

def InfoResponse.parse (r : InfoResponse) : Dict String String := Info.parse r.response

end RecordDb
