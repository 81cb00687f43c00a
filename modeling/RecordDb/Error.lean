import RecordDb.Status

/-!
# Errors of the command layer

Errors by cause, with their texts in one place.
-/
namespace RecordDb

inductive Error where
  /-- Raised by this layer: not connected, or a bad parameter. -/
  | client (status : Status)
  /-- Reported by the transport. -/
  | server (status : Status)
  /-- The arguments of a call do not fit its shape. -/
  | callShape (message : String)
  /-- No index holds values of this kind. -/
  | filterValue (bin kind : String)
  /-- A text that is not GeoJSON, with the reason if this layer gave it. -/
  | geoJson (reason : Option String)
  | unexpectedResponse (command response : String)
  | jsonText
  | packedBytes
  deriving DecidableEq

namespace Error

def notConnected : Error := .client (.client "Not connected.")

/-- Failures raised by the client side are told from those of the server by their code. -/
def ofStatus (status : Status) : Error :=
  if status.code = .client ∨ status.code = .param then .client status else .server status

def code : Error → StatusCode
  | client status => status.code
  | server status => status.code
  | callShape _ | filterValue _ _ | geoJson _ | jsonText => .param
  | unexpectedResponse _ _ | packedBytes => .client

def message : Error → String
  | client status => "Client error: " ++ status.display
  | server status => "Server error: " ++ status.display
  | callShape message => "TypeError: " ++ message
  | filterValue bin kind => "Unsupported filter value for bin '" ++ bin ++ "': " ++ kind
  | geoJson (some reason) => "Invalid GeoJSON: " ++ reason
  | geoJson none => "Invalid GeoJSON"
  | unexpectedResponse command response =>
    "Unexpected response to " ++ command ++ ": " ++ response
  | jsonText => "JSON error"
  | packedBytes => "MsgPack decode error"

/-- What a callback receives. -/
def toStatus : Error → Status
  | client status => status
  | server status => status
  | e => .new e.code e.message

def isNotFound (e : Error) : Bool := e.code = .recordNotFound

end Error

end RecordDb
