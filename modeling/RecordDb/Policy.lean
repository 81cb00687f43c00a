import RecordDb.Wire.Codec

/-!
# Policies

A policy is a sparse set of overrides; there is one type for each family of commands. A field
without a value leaves the choice to the defaults and does not appear on the wire.
-/
namespace RecordDb

open Codec Wire.Fields

/-- How much of the key goes with a command. -/
inductive KeyPolicy where
  | digest
  | send
  deriving DecidableEq

instance : Enumeration KeyPolicy where
  all := [.digest, .send]
  name
    | .digest => "DIGEST"
    | .send => "SEND"

/-- How often a failed command is tried again. -/
inductive RetryPolicy where
  | never
  | once
  deriving DecidableEq

instance : Enumeration RetryPolicy where
  all := [.never, .once]
  name
    | .never => "NONE"
    | .once => "ONCE"

/-- The generation that a write demands of the record. -/
inductive GenerationPolicy where
  | ignore
  | eq
  | gt
  deriving DecidableEq

instance : Enumeration GenerationPolicy where
  all := [.ignore, .eq, .gt]
  name
    | .ignore => "IGNORE"
    | .eq => "EQ"
    | .gt => "GT"

/-- What a write demands of the record's existence. -/
inductive ExistsPolicy where
  | ignore
  | create
  | update
  | replace
  | createOrReplace
  deriving DecidableEq

instance : Enumeration ExistsPolicy where
  all := [.ignore, .create, .update, .replace, .createOrReplace]
  name
    | .ignore => "IGNORE"
    | .create => "CREATE"
    | .update => "UPDATE"
    | .replace => "REPLACE"
    | .createOrReplace => "CREATE_OR_REPLACE"

/-- Which replica answers a read. -/
inductive ReplicaPolicy where
  | master
  | any
  deriving DecidableEq

instance : Enumeration ReplicaPolicy where
  all := [.master, .any]
  name
    | .master => "MASTER"
    | .any => "ANY"

/-- How many replicas a read asks. -/
inductive ConsistencyLevel where
  | one
  | all
  deriving DecidableEq

instance : Enumeration ConsistencyLevel where
  all := [.one, .all]
  name
    | .one => "ONE"
    | .all => "ALL"

/-- How many replicas a write waits for. -/
inductive CommitLevel where
  | all
  | master
  deriving DecidableEq

instance : Enumeration CommitLevel where
  all := [.all, .master]
  name
    | .all => "ALL"
    | .master => "MASTER"

/-- For reading one record. -/
structure ReadPolicy where
  timeout : Option UInt32
  key : Option KeyPolicy
  replica : Option ReplicaPolicy
  consistencyLevel : Option ConsistencyLevel
  retry : Option RetryPolicy

instance : Codec ReadPolicy where
  toDoc p := .obj <| ofOption "timeout" p.timeout ++ ofOption "key" p.key
    ++ ofOption "replica" p.replica ++ ofOption "consistency_level" p.consistencyLevel
    ++ ofOption "retry" p.retry
  ofDoc? r d := do
    let f ← d.fields? r ["timeout", "key", "replica", "consistency_level", "retry"]
    return ⟨← f.optional? "timeout", ← f.optional? "key", ← f.optional? "replica",
      ← f.optional? "consistency_level", ← f.optional? "retry"⟩

/-- For writing bins. -/
structure WritePolicy where
  timeout : Option UInt32
  key : Option KeyPolicy
  gen : Option GenerationPolicy
  existence : Option ExistsPolicy
  commitLevel : Option CommitLevel
  retry : Option RetryPolicy

instance : Codec WritePolicy where
  toDoc p := .obj <| ofOption "timeout" p.timeout ++ ofOption "key" p.key ++ ofOption "gen" p.gen
    ++ ofOption "exists" p.existence ++ ofOption "commit_level" p.commitLevel
    ++ ofOption "retry" p.retry
  ofDoc? r d := do
    let f ← d.fields? r ["timeout", "key", "gen", "exists", "commit_level", "retry"]
    return ⟨← f.optional? "timeout", ← f.optional? "key", ← f.optional? "gen",
      ← f.optional? "exists", ← f.optional? "commit_level", ← f.optional? "retry"⟩

/-- For removing a record; the generation is the one that the check expects. -/
structure RemovePolicy where
  timeout : Option UInt32
  generation : Option UInt32
  key : Option KeyPolicy
  gen : Option GenerationPolicy
  commitLevel : Option CommitLevel
  retry : Option RetryPolicy

instance : Codec RemovePolicy where
  toDoc p := .obj <| ofOption "timeout" p.timeout ++ ofOption "generation" p.generation
    ++ ofOption "key" p.key ++ ofOption "gen" p.gen ++ ofOption "commit_level" p.commitLevel
    ++ ofOption "retry" p.retry
  ofDoc? r d := do
    let f ← d.fields? r ["timeout", "generation", "key", "gen", "commit_level", "retry"]
    return ⟨← f.optional? "timeout", ← f.optional? "generation", ← f.optional? "key",
      ← f.optional? "gen", ← f.optional? "commit_level", ← f.optional? "retry"⟩

/-- For operation lists. -/
structure OperatePolicy where
  timeout : Option UInt32
  key : Option KeyPolicy
  gen : Option GenerationPolicy
  replica : Option ReplicaPolicy
  consistencyLevel : Option ConsistencyLevel
  commitLevel : Option CommitLevel
  retry : Option RetryPolicy

instance : Codec OperatePolicy where
  toDoc p := .obj <| ofOption "timeout" p.timeout ++ ofOption "key" p.key ++ ofOption "gen" p.gen
    ++ ofOption "replica" p.replica ++ ofOption "consistency_level" p.consistencyLevel
    ++ ofOption "commit_level" p.commitLevel ++ ofOption "retry" p.retry
  ofDoc? r d := do
    let f ← d.fields? r ["timeout", "key", "gen", "replica", "consistency_level", "commit_level",
      "retry"]
    return ⟨← f.optional? "timeout", ← f.optional? "key", ← f.optional? "gen",
      ← f.optional? "replica", ← f.optional? "consistency_level", ← f.optional? "commit_level",
      ← f.optional? "retry"⟩

/-- For record functions. -/
structure ApplyPolicy where
  timeout : Option UInt32
  key : Option KeyPolicy
  commitLevel : Option CommitLevel

instance : Codec ApplyPolicy where
  toDoc p := .obj <| ofOption "timeout" p.timeout ++ ofOption "key" p.key
    ++ ofOption "commit_level" p.commitLevel
  ofDoc? r d := do
    let f ← d.fields? r ["timeout", "key", "commit_level"]
    return ⟨← f.optional? "timeout", ← f.optional? "key", ← f.optional? "commit_level"⟩

/-- For reading several records. -/
structure BatchPolicy where
  timeout : Option UInt32
  concurrent : Option Bool

instance : Codec BatchPolicy where
  toDoc p := .obj <| ofOption "timeout" p.timeout ++ ofOption "concurrent" p.concurrent
  ofDoc? r d := do
    let f ← d.fields? r ["timeout", "concurrent"]
    return ⟨← f.optional? "timeout", ← f.optional? "concurrent"⟩

/-- For info requests. -/
structure InfoPolicy where
  timeout : Option UInt32
  sendAsIs : Option Bool
  checkBounds : Option Bool

instance : Codec InfoPolicy where
  toDoc p := .obj <| ofOption "timeout" p.timeout ++ ofOption "send_as_is" p.sendAsIs
    ++ ofOption "check_bounds" p.checkBounds
  ofDoc? r d := do
    let f ← d.fields? r ["timeout", "send_as_is", "check_bounds"]
    return ⟨← f.optional? "timeout", ← f.optional? "send_as_is", ← f.optional? "check_bounds"⟩

/-- For queries. -/
structure QueryPolicy where
  timeout : Option UInt32

instance : Codec QueryPolicy where
  toDoc p := .obj (ofOption "timeout" p.timeout)
  ofDoc? r d := do
    let f ← d.fields? r ["timeout"]
    return ⟨← f.optional? "timeout"⟩

/-- For function modules. -/
structure UdfPolicy where
  timeout : Option UInt32

instance : Codec UdfPolicy where
  toDoc p := .obj (ofOption "timeout" p.timeout)
  ofDoc? r d := do
    let f ← d.fields? r ["timeout"]
    return ⟨← f.optional? "timeout"⟩

/-- For secondary indexes. -/
structure IndexPolicy where
  timeout : Option UInt32

instance : Codec IndexPolicy where
  toDoc p := .obj (ofOption "timeout" p.timeout)
  ofDoc? r d := do
    let f ← d.fields? r ["timeout"]
    return ⟨← f.optional? "timeout"⟩

/-- What each family of commands uses when a command brings no policy of its own. -/
structure Policies where
  read : Option ReadPolicy
  write : Option WritePolicy
  remove : Option RemovePolicy
  operate : Option OperatePolicy
  apply : Option ApplyPolicy
  batch : Option BatchPolicy
  info : Option InfoPolicy
  query : Option QueryPolicy

def Policies.empty : Policies := ⟨none, none, none, none, none, none, none, none⟩

instance : Codec Policies where
  toDoc p := .obj <| ofOption "read" p.read ++ ofOption "write" p.write
    ++ ofOption "remove" p.remove ++ ofOption "operate" p.operate ++ ofOption "apply" p.apply
    ++ ofOption "batch" p.batch ++ ofOption "info" p.info ++ ofOption "query" p.query
  ofDoc? r d := do
    let f ← d.fields? r ["read", "write", "remove", "operate", "apply", "batch", "info", "query"]
    return ⟨← f.optional? "read", ← f.optional? "write", ← f.optional? "remove",
      ← f.optional? "operate", ← f.optional? "apply", ← f.optional? "batch",
      ← f.optional? "info", ← f.optional? "query"⟩

end RecordDb
