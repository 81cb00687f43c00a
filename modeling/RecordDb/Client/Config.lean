import RecordDb.Error
import RecordDb.Node.Host
import RecordDb.Policy

/-!
# Client configuration

Hosts are given as a list or as a host list text; when none are given, those of the environment are
used, and the local host when it has none.
-/
namespace RecordDb

open Codec Wire.Fields
open Wire (Doc Reading)

inductive LogLevel where
  | off
  | error
  | warn
  | info
  | debug
  | trace
  deriving DecidableEq

instance : Enumeration LogLevel where
  all := [.off, .error, .warn, .info, .debug, .trace]
  name
    | .off => "off"
    | .error => "error"
    | .warn => "warn"
    | .info => "info"
    | .debug => "debug"
    | .trace => "trace"

structure LogConfig where
  level : Option LogLevel
  file : Option Int32

instance : Codec LogConfig where
  toDoc c := .obj <| ofOption "level" c.level ++ ofOption "file" c.file
  ofDoc? r d := do
    let f ← d.fields? r ["level", "file"]
    return ⟨← f.optional? "level", ← f.optional? "file"⟩

/-- Cluster tending through a shared memory segment. -/
structure SharedMemoryConfig where
  key : Option Int32
  maxNodes : Option UInt32
  maxNamespaces : Option UInt32
  takeoverThresholdSec : Option UInt32

instance : Codec SharedMemoryConfig where
  toDoc c := .obj <| ofOption "key" c.key ++ ofOption "maxNodes" c.maxNodes
    ++ ofOption "maxNamespaces" c.maxNamespaces
    ++ ofOption "takeoverThresholdSec" c.takeoverThresholdSec
  ofDoc? r d := do
    let f ← d.fields? r ["key", "maxNodes", "maxNamespaces", "takeoverThresholdSec"]
    return ⟨← f.optional? "key", ← f.optional? "maxNodes", ← f.optional? "maxNamespaces",
      ← f.optional? "takeoverThresholdSec"⟩

structure Config where
  user : Option String
  password : Option String
  hosts : List Host
  policies : Policies
  log : Option LogConfig
  connTimeoutMs : Option UInt32
  tenderInterval : Option UInt32
  sharedMemory : Option SharedMemoryConfig

namespace Config

/-- A configuration that sets nothing. -/
def bare : Config := ⟨none, none, [], .empty, none, none, none, none⟩

def hosts? (r : Reading) (d : Doc) : Option (List Host) :=
  if !d.holdable r then none
  else match (ofDoc? .held d : Option (List Host)) with
    | some hosts => some hosts
    | none => d.text?.map Host.parseList

def hostsField? (f : Wire.Fields) : Option (List Host) :=
  match f.get? "hosts" with
  | none => some []
  | some d => hosts? f.reading d

end Config

instance : Codec Config where
  toDoc c := .obj <| ofOption "user" c.user ++ ofOption "password" c.password
    ++ [("hosts", toDoc c.hosts), ("policies", toDoc c.policies)] ++ ofOption "log" c.log
    ++ ofOption "connTimeoutMs" c.connTimeoutMs ++ ofOption "tenderInterval" c.tenderInterval
    ++ ofOption "sharedMemory" c.sharedMemory
  ofDoc? r d := do
    let f ← d.fields? r ["user", "password", "hosts", "policies", "log", "connTimeoutMs",
      "tenderInterval", "sharedMemory"]
    return ⟨← f.optional? "user", ← f.optional? "password", ← Config.hostsField? f,
      ← f.orElse? "policies" .empty, ← f.optional? "log", ← f.optional? "connTimeoutMs",
      ← f.optional? "tenderInterval", ← f.optional? "sharedMemory"⟩

namespace Config

/-- The hosts of the environment's host list, or the local host. -/
def defaultHosts (env : Option String) : List Host :=
  match (env.map Host.parseList).getD [] with
  | [] => [.default]
  | hosts => hosts

def withDefaultHosts (env : Option String) (c : Config) : Config :=
  if c.hosts.isEmpty then { c with hosts := defaultHosts env } else c

def new (env : Option String) : Config := bare.withDefaultHosts env

def ofText (env : Option String) (text : String) : Except Error Config :=
  match (ofJson? text : Option Config) with
  | some c => .ok (c.withDefaultHosts env)
  | none => .error .jsonText

def withHosts (c : Config) (list : String) : Config := { c with hosts := Host.parseList list }

def withCredentials (c : Config) (user password : String) : Config :=
  { c with user := some user, password := some password }

end Config

end RecordDb
