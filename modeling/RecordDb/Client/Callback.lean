import RecordDb.Error
import RecordDb.Wire.Codec

/-!
# Callback conventions

How callbacks are told of a result. By default the status comes only with a failure; the legacy
convention always gives one, success included.
-/
namespace RecordDb

inductive CallbackHandler where
  | default
  | legacy
  deriving DecidableEq

instance : Enumeration CallbackHandler where
  all := [.default, .legacy]
  name
    | .default => "default"
    | .legacy => "legacy"

/-- What a callback is invoked with. -/
structure CallbackArguments (α : Type) where
  status : Option Status
  value : Option α

namespace CallbackHandler
variable {α : Type}

def arguments (h : CallbackHandler) : Except Error α → CallbackArguments α
  | .error e => ⟨some e.toStatus, none⟩
  | .ok a =>
    match h with
    | .default => ⟨none, some a⟩
    | .legacy => ⟨some .ok, some a⟩

/-- One invocation of a callback: of the one for items, or of the one for the end. -/
inductive Event (α : Type) where
  | item (arguments : CallbackArguments α)
  | done (arguments : CallbackArguments Unit)

def Event.item? : Event α → Option (CallbackArguments α)
  | .item a => some a
  | .done _ => none

def Event.done? : Event α → Option (CallbackArguments Unit)
  | .item _ => none
  | .done a => some a

/-- A result that is a list, told item by item and then ended. A failure is told once as
an item and once as the end. -/
def stream (h : CallbackHandler) (result : Except Error (List α)) : List (Event α) :=
  match result with
  | .ok items =>
    items.map (fun a => .item (h.arguments (.ok a))) ++ [.done (h.arguments (.ok ()))]
  | .error e => [.item ⟨some e.toStatus, none⟩, .done (h.arguments (.error e))]

end CallbackHandler

end RecordDb
