import RecordDb.Node.Info
import RecordDb.Record.Batch

/-!
# Responses

What a request completes with when it succeeds.
-/
namespace RecordDb

open Codec Wire.Fields

inductive Response where
  /-- Bins that were read, or what operations returned. -/
  | record (bins : Bins) (metadata : Metadata)
  | existence (metadata : Metadata)
  /-- The digest comes along when the transport computed one. -/
  | written (digest : Option (List UInt8))
  | batch (entries : List BatchRecord)
  /-- What a function returned. -/
  | value (v : Value)
  | records (found : List Record)
  /-- One answer for each node that was asked. -/
  | info (responses : List InfoResponse)
  | done

namespace Response

def kind : Response → String
  | record .. => "record"
  | existence .. => "exists"
  | written .. => "written"
  | batch .. => "batch"
  | value .. => "value"
  | records .. => "records"
  | info .. => "info"
  | done => "done"

def toFields : Response → List (String × Wire.Doc)
  | record bins metadata => [("bins", toDoc bins), ("meta", toDoc metadata)]
  | existence metadata => [("meta", toDoc metadata)]
  | written digest => ofOption "digest" (digest.map ByteString.mk)
  | batch entries => [("records", toDoc entries)]
  | value v => [("value", toDoc v)]
  | records found => [("records", toDoc found)]
  | info responses => [("responses", toDoc responses)]
  | done => []

/-- All kinds, in the order of declaration. -/
def kinds : List String :=
  ["record", "exists", "written", "batch", "value", "records", "info", "done"]

def fieldNames : String → List String
  | "record" => ["bins", "meta"]
  | "exists" => ["meta"]
  | "written" => ["digest"]
  | "batch" | "records" => ["records"]
  | "value" => ["value"]
  | "info" => ["responses"]
  | _ => []

def ofFields? (kind : String) (f : Wire.Fields) : Option Response :=
  match kind with
  | "record" => return .record (← f.required? "bins") (← f.required? "meta")
  | "exists" => return .existence (← f.required? "meta")
  | "written" => do
    let digest : Option ByteString ← f.optional? "digest"
    return .written (digest.map ByteString.bytes)
  | "batch" => return .batch (← f.required? "records")
  | "value" => return .value (← f.required? "value")
  | "records" => return .records (← f.required? "records")
  | "info" => return .info (← f.required? "responses")
  | "done" => return .done
  | _ => none

end Response

/-- A response with nothing to return passes over every field, whatever stands for its
name. -/
instance : Codec Response where
  toDoc r := .obj (("response", .text r.kind) :: r.toFields)
  ofDoc? r d := do
    let (kind, d) ← d.tagged? r "response" Response.kinds
    match kind, d with
    | "done", .table _ => return .done
    | _, _ => Response.ofFields? kind (← d.fields? .held (Response.fieldNames kind))

end RecordDb
