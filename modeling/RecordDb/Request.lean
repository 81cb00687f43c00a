import RecordDb.Operation
import RecordDb.Policy
import RecordDb.Query
import RecordDb.Query.Index
import RecordDb.Record

/-!
# Requests

There is one kind for each command that a transport serves, with all its arguments. On the wire the
kind is the field that comes first.
-/
namespace RecordDb

open Codec Wire.Fields

inductive Request where
  | get (key : Key) (policy : Option ReadPolicy)
  | select (key : Key) (bins : List String) (policy : Option ReadPolicy)
  | existence (key : Key) (policy : Option ReadPolicy)
  | put (key : Key) (bins : Bins) (metadata : Option Metadata) (policy : Option WritePolicy)
  | remove (key : Key) (policy : Option RemovePolicy)
  | operate (key : Key) (ops : List Operation) (metadata : Option Metadata)
      (policy : Option OperatePolicy)
  | apply (key : Key) (call : UdfCall) (policy : Option ApplyPolicy)
  | batchGet (keys : List Key) (policy : Option BatchPolicy)
  | batchExists (keys : List Key) (policy : Option BatchPolicy)
  | batchSelect (keys : List Key) (bins : List String) (policy : Option BatchPolicy)
  | query (ns : String) (set : Option String) (spec : QuerySpec) (policy : Option QueryPolicy)
  | indexCreate (options : IndexOptions) (indexType : IndexType) (policy : Option IndexPolicy)
  | indexRemove (ns index : String) (policy : Option IndexPolicy)
  | udfRegister (path : String) (udfType : UdfType) (policy : Option UdfPolicy)
  | udfRemove (module : String) (policy : Option UdfPolicy)
  | info (request : Option String) (host : Option Host) (policy : Option InfoPolicy)

namespace Request

/-- The name under which the transport knows the command. -/
def commandName : Request → String
  | get .. => "get_async"
  | select .. => "select_async"
  | existence .. => "exists_async"
  | put .. => "put_async"
  | remove .. => "remove_async"
  | operate .. => "operate_async"
  | apply .. => "apply_async"
  | batchGet .. => "batchGet"
  | batchExists .. => "batchExists"
  | batchSelect .. => "batchSelect"
  | query .. => "query"
  | indexCreate .. => "indexCreate"
  | indexRemove .. => "indexRemove"
  | udfRegister .. => "udfRegister"
  | udfRemove .. => "udfRemove"
  | info .. => "info"

/-- The key of a request for a single record. -/
def key? : Request → Option Key
  | get key _ | select key _ _ | existence key _ | put key _ _ _ | remove key _
  | operate key _ _ _ | apply key _ _ => some key
  | _ => none

/-- The tag on the wire. -/
def tag : Request → String
  | get .. => "get"
  | select .. => "select"
  | existence .. => "exists"
  | put .. => "put"
  | remove .. => "remove"
  | operate .. => "operate"
  | apply .. => "apply"
  | batchGet .. => "batch_get"
  | batchExists .. => "batch_exists"
  | batchSelect .. => "batch_select"
  | query .. => "query"
  | indexCreate .. => "index_create"
  | indexRemove .. => "index_remove"
  | udfRegister .. => "udf_register"
  | udfRemove .. => "udf_remove"
  | info .. => "info"

def toFields : Request → List (String × Wire.Doc)
  | get key policy => [("key", toDoc key)] ++ ofOption "policy" policy
  | select key bins policy =>
    [("key", toDoc key), ("bins", toDoc bins)] ++ ofOption "policy" policy
  | existence key policy => [("key", toDoc key)] ++ ofOption "policy" policy
  | put key bins metadata policy =>
    [("key", toDoc key), ("bins", toDoc bins)] ++ ofOption "meta" metadata
      ++ ofOption "policy" policy
  | remove key policy => [("key", toDoc key)] ++ ofOption "policy" policy
  | operate key ops metadata policy =>
    [("key", toDoc key), ("ops", toDoc ops)] ++ ofOption "meta" metadata
      ++ ofOption "policy" policy
  | apply key call policy => [("key", toDoc key), ("udf", toDoc call)] ++ ofOption "policy" policy
  | batchGet keys policy => [("keys", toDoc keys)] ++ ofOption "policy" policy
  | batchExists keys policy => [("keys", toDoc keys)] ++ ofOption "policy" policy
  | batchSelect keys bins policy =>
    [("keys", toDoc keys), ("bins", toDoc bins)] ++ ofOption "policy" policy
  | query ns set spec policy =>
    [("ns", toDoc ns)] ++ ofOption "set" set ++ [("spec", toDoc spec)] ++ ofOption "policy" policy
  | indexCreate options indexType policy =>
    [("options", toDoc options), ("index_type", toDoc indexType)] ++ ofOption "policy" policy
  | indexRemove ns index policy =>
    [("ns", toDoc ns), ("index", toDoc index)] ++ ofOption "policy" policy
  | udfRegister path udfType policy =>
    [("path", toDoc path), ("udf_type", toDoc udfType)] ++ ofOption "policy" policy
  | udfRemove module policy => [("module", toDoc module)] ++ ofOption "policy" policy
  | info request host policy =>
    ofOption "request" request ++ ofOption "host" host ++ ofOption "policy" policy

/-- All tags, in the order of declaration. -/
def tags : List String :=
  ["get", "select", "exists", "put", "remove", "operate", "apply", "batch_get", "batch_exists",
    "batch_select", "query", "index_create", "index_remove", "udf_register", "udf_remove", "info"]

/-- The names of the fields that a request of some tag may carry. -/
def fieldNames : String → List String
  | "get" | "exists" | "remove" => ["key", "policy"]
  | "select" => ["key", "bins", "policy"]
  | "put" => ["key", "bins", "meta", "policy"]
  | "operate" => ["key", "ops", "meta", "policy"]
  | "apply" => ["key", "udf", "policy"]
  | "batch_get" | "batch_exists" => ["keys", "policy"]
  | "batch_select" => ["keys", "bins", "policy"]
  | "query" => ["ns", "set", "spec", "policy"]
  | "index_create" => ["options", "index_type", "policy"]
  | "index_remove" => ["ns", "index", "policy"]
  | "udf_register" => ["path", "udf_type", "policy"]
  | "udf_remove" => ["module", "policy"]
  | "info" => ["request", "host", "policy"]
  | _ => []

def ofFields? (tag : String) (f : Wire.Fields) : Option Request :=
  match tag with
  | "get" => return .get (← f.required? "key") (← f.optional? "policy")
  | "select" =>
    return .select (← f.required? "key") (← f.required? "bins") (← f.optional? "policy")
  | "exists" => return .existence (← f.required? "key") (← f.optional? "policy")
  | "put" =>
    return .put (← f.required? "key") (← f.required? "bins") (← f.optional? "meta")
      (← f.optional? "policy")
  | "remove" => return .remove (← f.required? "key") (← f.optional? "policy")
  | "operate" =>
    return .operate (← f.required? "key") (← f.required? "ops") (← f.optional? "meta")
      (← f.optional? "policy")
  | "apply" => return .apply (← f.required? "key") (← f.required? "udf") (← f.optional? "policy")
  | "batch_get" => return .batchGet (← f.required? "keys") (← f.optional? "policy")
  | "batch_exists" => return .batchExists (← f.required? "keys") (← f.optional? "policy")
  | "batch_select" =>
    return .batchSelect (← f.required? "keys") (← f.required? "bins") (← f.optional? "policy")
  | "query" =>
    return .query (← f.required? "ns") (← f.optional? "set") (← f.required? "spec")
      (← f.optional? "policy")
  | "index_create" =>
    return .indexCreate (← f.required? "options") (← f.required? "index_type")
      (← f.optional? "policy")
  | "index_remove" =>
    return .indexRemove (← f.required? "ns") (← f.required? "index") (← f.optional? "policy")
  | "udf_register" =>
    return .udfRegister (← f.required? "path") (← f.required? "udf_type") (← f.optional? "policy")
  | "udf_remove" => return .udfRemove (← f.required? "module") (← f.optional? "policy")
  | "info" =>
    return .info (← f.optional? "request") (← f.optional? "host") (← f.optional? "policy")
  | _ => none

end Request

instance : Codec Request where
  toDoc r := .obj (("command", .text r.tag) :: r.toFields)
  ofDoc? r d := do
    let (tag, d) ← d.tagged? r "command" Request.tags
    Request.ofFields? tag (← d.fields? .held (Request.fieldNames tag))

end RecordDb
