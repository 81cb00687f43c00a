import RecordDb.Store

/-!
# Sample functions

A few record functions to try the store with.
-/
namespace RecordDb.SampleFunctions

def failed (code : StatusCode) (message : String) : Except Status Value :=
  .error (.new code message)

/-- Adds to a counter bin, one unless told otherwise, and returns the sum. -/
def bump : RecordFunction := fun bins args =>
  let step := match args with
    | .int i :: _ => i
    | _ => 1
  let old := match Dict.get? bins "n" with
    | some (.int i) => i
    | _ => 0
  (Dict.insert bins "n" (.int (old + step)), .ok (.int (old + step)))

/-- Returns its own name and arguments. -/
def echo (name : String) : RecordFunction := fun bins args =>
  (bins, .ok (.list (.string name :: args)))

/-- Returns the bins as a map. -/
def bins : RecordFunction := fun bins _ => (bins, .ok (.map bins))

/-- Stores a value in a named bin and returns the old one. -/
def set : RecordFunction := fun bins args =>
  match args with
  | .string name :: rest =>
    (Dict.insert bins name (rest.headD .nil), .ok ((Dict.get? bins name).getD .nil))
  | _ => (bins, failed .udf "bin name expected")

/-- Removes all bins. -/
def wipe : RecordFunction := fun _ _ => ([], .ok .nil)

/-- Marks the record and fails with the status it is given. -/
def fail : RecordFunction := fun bins args =>
  let code := match args with
    | .int i :: _ => ⟨i.toInt32⟩
    | _ => StatusCode.udf
  let message := match args with
    | _ :: v :: _ => v.display
    | _ => "nil"
  (Dict.insert bins "failed" (.bool true), failed code message)

/-- Fails on a record that it has been applied to before. -/
def once : RecordFunction := fun bins _ =>
  if Dict.contains bins "once" then (bins, failed .udf "already applied")
  else (Dict.insert bins "once" (.bool true), .ok .nil)

/-- The function of an implementation's name; `echo` is told its own. -/
def named? (implementation name : String) : Option RecordFunction :=
  match implementation with
  | "bump" => some bump
  | "echo" => some (echo name)
  | "bins" => some bins
  | "set" => some set
  | "wipe" => some wipe
  | "fail" => some fail
  | "once" => some once
  | _ => none

/-- Functions of a list of modules, names and functions; the last one of a name counts. -/
def table (entries : List (String × String × RecordFunction)) : Functions :=
  fun module name =>
    (entries.reverse.find? fun e => e.1 == module && e.2.1 == name).map fun e => e.2.2

end RecordDb.SampleFunctions
