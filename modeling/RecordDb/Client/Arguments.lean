import RecordDb.Record

/-!
# Optional arguments

The optional arguments of callback calls. They are matched in order against the slots of the call's
shape; the last one that is not absent has to be the callback.
-/
namespace RecordDb

inductive CallArgument (π κ : Type) where
  | absent
  | metadata (m : Metadata)
  | policy (p : π)
  | callback (c : κ)

inductive Slot where
  | metadata
  | policy
  deriving DecidableEq

abbrev Shape := List Slot

namespace Shape

def policyOnly : Shape := [.policy]

def metadataPolicy : Shape := [.metadata, .policy]

end Shape

/-- The arguments of a call that fits its shape. -/
structure CallArguments (π κ : Type) where
  metadata : Option Metadata
  policy : Option π
  callback : κ

namespace CallArgument
variable {π κ : Type}

def isAbsent : CallArgument π κ → Bool
  | absent => true
  | _ => false

def describe : CallArgument π κ → String
  | absent => "absent"
  | metadata _ => "metadata"
  | policy _ => "policy"
  | callback _ => "callback"

def callbackRequired : String := "callback argument must be a function"

def dropTrailingAbsent (args : List (CallArgument π κ)) : List (CallArgument π κ) :=
  (args.reverse.dropWhile isAbsent).reverse

/-- The slots after the first one of a kind, if there is one. -/
def skipTo? (slot : Slot) : Shape → Option Shape
  | [] => none
  | s :: rest => if s = slot then some rest else skipTo? slot rest

/-- The slots left after an argument took its own, the first that fits it. -/
def take? (slots : Shape) : CallArgument π κ → Option Shape
  | absent => slots.tail?
  | metadata _ => skipTo? .metadata slots
  | policy _ => skipTo? .policy slots
  | callback _ => none

/-- Takes in the arguments before the callback one by one. -/
def fill (done : CallArguments π κ) : Shape → List (CallArgument π κ) →
    Except Error (CallArguments π κ)
  | _, [] => .ok done
  | slots, arg :: rest =>
    match take? slots arg with
    | none => .error (.callShape ("unexpected " ++ arg.describe ++ " argument"))
    | some slots =>
      match arg with
      | metadata m => fill { done with metadata := some m } slots rest
      | policy p => fill { done with policy := some p } slots rest
      | _ => fill done slots rest

def normalize (shape : Shape) (args : List (CallArgument π κ)) :
    Except Error (CallArguments π κ) :=
  match (dropTrailingAbsent args).reverse with
  | [] => .error (.callShape callbackRequired)
  | callback c :: before => fill ⟨none, none, c⟩ shape before.reverse
  | arg :: _ => .error (.callShape (callbackRequired ++ ", got " ++ arg.describe))

end CallArgument

end RecordDb
