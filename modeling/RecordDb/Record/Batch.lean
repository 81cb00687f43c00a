import RecordDb.Record

/-!
# Batch results

A batch answers with one entry a key, in the order of the keys, whatever order the transport
completed them in.
-/
namespace RecordDb

open Codec Wire.Fields

structure BatchRecord where
  status : StatusCode
  key : Key
  bins : Option Bins
  metadata : Option Metadata
  deriving Inhabited

instance : Codec BatchRecord where
  toDoc r := .obj <| [("status", toDoc r.status), ("key", toDoc r.key)]
    ++ ofOption "bins" r.bins ++ ofOption "meta" r.metadata
  ofDoc? r d := do
    let f ← d.fields? r ["status", "key", "bins", "meta"]
    return ⟨← f.required? "status", ← f.required? "key", ← f.optional? "bins",
      ← f.optional? "meta"⟩

namespace BatchRecord

def found (key : Key) (bins : Option Bins) (metadata : Metadata) : BatchRecord :=
  ⟨.ok, key, bins, some metadata⟩

def notFound (key : Key) : BatchRecord := ⟨.recordNotFound, key, none, none⟩

def isFound (r : BatchRecord) : Bool := r.status.isOk

/-- The record, when it was found and its bins were read. -/
def record? (r : BatchRecord) : Option Record :=
  match r.isFound, r.bins with
  | true, some bins => some ⟨r.key, bins, r.metadata.getD .empty⟩
  | _, _ => none

end BatchRecord

namespace Batch

/-- Answers that are still to be given out; a place is emptied when its answer is used. -/
abbrev Pool := List (Option BatchRecord)

def answers (key : Key) : Option BatchRecord → Bool
  | some a => a.key.sameRecord key
  | none => false

/-- The place of the answer for a key: its own place first, then the first that fits. -/
def place? (pool : Pool) (own : Nat) (key : Key) : Option Nat :=
  if (pool[own]?).any (answers key) then some own
  else pool.findIdx? (answers key)

def entry (pool : Pool) (own : Nat) (key : Key) : BatchRecord × Pool :=
  match place? pool own key with
  | none => (.notFound key, pool)
  | some i =>
    match pool[i]? with
    | some (some answer) => ({ answer with key }, pool.set i none)
    | _ => (.notFound key, pool)

def alignFrom (own : Nat) : List Key → Pool → List BatchRecord
  | [], _ => []
  | key :: rest, pool =>
    let (record, pool) := entry pool own key
    record :: alignFrom (own + 1) rest pool

/-- One entry a key, in key order. Each answer serves at most one key, and a key
without an answer is not found. -/
def align (keys : List Key) (answers : List BatchRecord) : List BatchRecord :=
  alignFrom 0 keys (answers.map some)

end Batch

end RecordDb
