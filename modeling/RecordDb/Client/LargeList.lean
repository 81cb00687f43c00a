import RecordDb.Record
import RecordDb.Udf

/-!
# Large lists

A large list is a list in one bin that only functions of a server module work on. Each operation
comes down to one call of such a function.
-/
namespace RecordDb

/-- The shape of an operation. Arities count the callback. -/
structure LargeListOperation where
  name : String
  arities : List Nat
  /-- Where a filter may stand. -/
  filterPlace : Option Nat
  function : String
  /-- The function for a first argument that is a list. -/
  bulkFunction : Option String

namespace LargeListOperation

def add : LargeListOperation := ⟨"add", [2], none, "add", some "add_all"⟩
def update : LargeListOperation := ⟨"update", [2], none, "update", some "update_all"⟩
def remove : LargeListOperation := ⟨"remove", [2], none, "remove", some "remove_all"⟩
def removeRange : LargeListOperation := ⟨"remove_range", [3], none, "remove_range", none⟩
def find : LargeListOperation := ⟨"find", [2, 3], some 1, "find", none⟩
def findRange : LargeListOperation := ⟨"find_range", [3, 4], some 2, "range", none⟩
def filter : LargeListOperation := ⟨"filter", [2], some 0, "filter", none⟩
def scan : LargeListOperation := ⟨"scan", [1], none, "scan", none⟩
def destroy : LargeListOperation := ⟨"destroy", [1], none, "destroy", none⟩
def size : LargeListOperation := ⟨"size", [1], none, "size", none⟩
def getConfig : LargeListOperation := ⟨"get_config", [1], none, "config", none⟩

def all : List LargeListOperation :=
  [add, update, remove, removeRange, find, findRange, filter, scan, destroy, size, getConfig]

end LargeListOperation

inductive LargeListArgument where
  | value (v : Value)
  /-- A filter function, which takes up three places in the call. -/
  | filter (call : UdfCall)
  | callback

def LargeListArgument.isCallback : LargeListArgument → Bool
  | callback => true
  | _ => false

structure LargeList where
  key : Key
  bin : String
  createModule : Option String

namespace LargeList

def module : String := "llist"

/-- The values that an argument takes up in the call, or why it may not stand there. -/
def positional (atFilter : Bool) (place : Nat) : LargeListArgument → Except String (List Value)
  | .filter call =>
    if atFilter then .ok call.triple
    else .error ("unexpected filter arguments at position " ++ toString place)
  | .value v =>
    if atFilter then .error ("expected filter arguments at position " ++ toString place)
    else .ok [v]
  | .callback => .error ("unexpected callback at position " ++ toString place)

/-- The values of all arguments from a place on; the first fault counts. -/
def positionals (op : LargeListOperation) : Nat → List LargeListArgument →
    Except String (List Value)
  | _, [] => .ok []
  | place, arg :: rest => do
    let front ← positional (op.filterPlace = some place) place arg
    return front ++ (← positionals op (place + 1) rest)

def functionFor (op : LargeListOperation) (args : List LargeListArgument) : String :=
  match op.bulkFunction, args with
  | some bulk, .value (.list _) :: _ => bulk
  | _, _ => op.function

/-- The call that the arguments before the callback come down to. -/
def call? (l : LargeList) (op : LargeListOperation) (args : List LargeListArgument) :
    Except String UdfCall := do
  let values ← positionals op 0 args
  let create := match l.createModule with
    | some m => Value.string m
    | none => .nil
  return ⟨module, functionFor op args, .string l.bin :: values ++ [create]⟩

/-- A list of numbers as it appears in a message. -/
def arityText (arities : List Nat) : String :=
  "[" ++ ", ".intercalate (arities.map toString) ++ "]"

/-- What an operation on some arguments amounts to: nothing without a callback as the
last one; else a call, or the status that the callback gets instead. -/
def invocation? (l : LargeList) (op : LargeListOperation) (args : List LargeListArgument) :
    Option (Except Status UdfCall) :=
  let refused (message : String) : Except Status UdfCall :=
    .error ((Status.new .param message).raisedBy op.name)
  match args.reverse with
  | .callback :: before =>
    if op.arities.contains args.length then
      match l.call? op before.reverse with
      | .ok call => some (.ok call)
      | .error message => some (refused message)
    else some (refused ("invalid argument count " ++ toString args.length ++ ", expected "
      ++ arityText op.arities))
  | _ => none

end LargeList

end RecordDb
