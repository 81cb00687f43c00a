import RecordDb.Wire.Codec

/-!
# Statuses

Status codes and the statuses that completions carry. Zero is success, negative codes are raised by
the client, positive ones by the server; codes without a name pass through unchanged.
-/
namespace RecordDb

open Codec Wire.Fields

structure StatusCode where
  value : Int32
  deriving DecidableEq, Inhabited

namespace StatusCode

def ok : StatusCode := ⟨0⟩
def client : StatusCode := ⟨-1⟩
def param : StatusCode := ⟨-2⟩
def server : StatusCode := ⟨1⟩
def recordNotFound : StatusCode := ⟨2⟩
def recordGeneration : StatusCode := ⟨3⟩
def requestInvalid : StatusCode := ⟨4⟩
def recordExists : StatusCode := ⟨5⟩
def timeout : StatusCode := ⟨9⟩
def binIncompatible : StatusCode := ⟨12⟩
def elementNotFound : StatusCode := ⟨23⟩
def elementExists : StatusCode := ⟨24⟩
def udf : StatusCode := ⟨100⟩
def indexFound : StatusCode := ⟨200⟩
def indexNotFound : StatusCode := ⟨201⟩

def isOk (c : StatusCode) : Bool := c = ok

def names : List (StatusCode × String) :=
  [(client, "AEROSPIKE_ERR_CLIENT"), (param, "AEROSPIKE_ERR_PARAM"), (ok, "AEROSPIKE_OK"),
    (server, "AEROSPIKE_ERR_SERVER"), (recordNotFound, "AEROSPIKE_ERR_RECORD_NOT_FOUND"),
    (recordGeneration, "AEROSPIKE_ERR_RECORD_GENERATION"),
    (requestInvalid, "AEROSPIKE_ERR_REQUEST_INVALID"),
    (recordExists, "AEROSPIKE_ERR_RECORD_EXISTS"), (timeout, "AEROSPIKE_ERR_TIMEOUT"),
    (binIncompatible, "AEROSPIKE_ERR_BIN_INCOMPATIBLE_TYPE"),
    (elementNotFound, "AEROSPIKE_ERR_FAIL_ELEMENT_NOT_FOUND"),
    (elementExists, "AEROSPIKE_ERR_FAIL_ELEMENT_EXISTS"), (udf, "AEROSPIKE_ERR_UDF"),
    (indexFound, "AEROSPIKE_ERR_INDEX_FOUND"), (indexNotFound, "AEROSPIKE_ERR_INDEX_NOT_FOUND")]

def name? (c : StatusCode) : Option String := Dict.get? names c

def display (c : StatusCode) : String :=
  match c.name? with
  | some name => name ++ " (" ++ toString c.value.toInt ++ ")"
  | none => "status " ++ toString c.value.toInt

end StatusCode

instance : Codec StatusCode where
  toDoc c := toDoc c.value
  ofDoc? r d := (ofDoc? r d).map StatusCode.mk

/-- A code with its description and, where known, the place that raised it. -/
structure Status where
  code : StatusCode
  message : String
  func : Option String
  file : Option String
  line : Option UInt32
  deriving DecidableEq

namespace Status

def new (code : StatusCode) (message : String) : Status := ⟨code, message, none, none, none⟩

def ok : Status := new .ok ""

def client (message : String) : Status := new .client message

def raisedBy (s : Status) (func : String) : Status := { s with func := some func }

def isOk (s : Status) : Bool := s.code.isOk

def display (s : Status) : String := s.message ++ " [" ++ s.code.display ++ "]"

end Status

instance : Codec Status where
  toDoc s := .obj <| [("code", toDoc s.code), ("message", toDoc s.message)]
    ++ ofOption "func" s.func ++ ofOption "file" s.file ++ ofOption "line" s.line
  ofDoc? r d := do
    let f ← d.fields? r ["code", "message", "func", "file", "line"]
    return ⟨← f.required? "code", ← f.required? "message", ← f.optional? "func",
      ← f.optional? "file", ← f.optional? "line"⟩

end RecordDb
