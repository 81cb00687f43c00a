import RecordDb.Error
import RecordDb.Value.Codec

/-!
# Keys, record metadata and records
-/
namespace RecordDb

open Codec Wire.Fields

/-- A record's namespace and set, with the user key or the digest that names it there. -/
structure Key where
  ns : String
  set : String
  userKey : Option Value
  digest : Option (List UInt8)
  deriving Inhabited

namespace Key

def withDigest (k : Key) (digest : List UInt8) : Key := { k with digest := some digest }

/-- Two digests decide alone; otherwise set and user key have to agree. -/
def sameRecord (a b : Key) : Bool :=
  a.ns == b.ns &&
    match a.digest, b.digest with
    | some x, some y => x == y
    | _, _ => a.set == b.set && a.userKey.isSome && sameField a.userKey b.userKey

def same (a b : Key) : Bool :=
  a.ns == b.ns && a.set == b.set && sameField a.userKey b.userKey && a.digest == b.digest

def display (k : Key) : String :=
  k.ns ++ ":" ++ k.set ++ ":" ++
    match k.userKey with
    | some v => v.display
    | none => "<digest>"

end Key

instance : Codec Key where
  toDoc k := .obj <| [("ns", toDoc k.ns), ("set", toDoc k.set)]
    ++ ofOption "key" k.userKey ++ ofOption "digest" (k.digest.map ByteString.mk)
  ofDoc? r d := do
    let f ← d.fields? r ["ns", "set", "key", "digest"]
    let digest : Option ByteString ← f.optional? "digest"
    return ⟨← f.required? "ns", ← f.required? "set", ← f.optional? "key",
      digest.map ByteString.bytes⟩

/-- Time to live and generation; an absent field leaves the choice to the server. -/
structure Metadata where
  ttl : Option UInt32
  gen : Option UInt32
  deriving DecidableEq, Inhabited

namespace Metadata

def empty : Metadata := ⟨none, none⟩

def ofTtl (ttl : UInt32) : Metadata := ⟨some ttl, none⟩

end Metadata

instance : Codec Metadata where
  toDoc m := .obj <| ofOption "ttl" m.ttl ++ ofOption "gen" m.gen
  ofDoc? r d := do
    let f ← d.fields? r ["ttl", "gen"]
    return ⟨← f.optional? "ttl", ← f.optional? "gen"⟩

structure Record where
  key : Key
  bins : Bins
  metadata : Metadata
  deriving Inhabited

instance : Codec Record where
  toDoc r := .obj [("key", toDoc r.key), ("bins", toDoc r.bins), ("meta", toDoc r.metadata)]
  ofDoc? r d := do
    let f ← d.fields? r ["key", "bins", "meta"]
    return ⟨← f.required? "key", ← f.orElse? "bins" [], ← f.orElse? "meta" .empty⟩

end RecordDb
