import RecordDb.Text.Blank
import RecordDb.Text.Split
import RecordDb.Wire.Codec

/-!
# Hosts and host lists

The last colon of an entry starts its port.
-/
namespace RecordDb

open Codec Wire.Fields

structure Host where
  addr : String
  port : UInt16
  deriving DecidableEq

namespace Host

def defaultPort : UInt16 := 3000

def default : Host := ⟨"localhost", defaultPort⟩

def display (h : Host) : String := h.addr ++ ":" ++ toString h.port.toNat

def digitsValue? (cs : List Char) : Option Nat :=
  if cs.isEmpty || !cs.all Char.isDigit then none
  else some (cs.foldl (fun n c => n * 10 + (c.toNat - '0'.toNat)) 0)

/-- Decimal digits up to 65535, after at most one plus sign. -/
def port? (cs : List Char) : Option UInt16 :=
  let digits := match cs with
    | '+' :: rest => rest
    | cs => cs
  (digitsValue? digits).bind fun n => if n ≤ 65535 then some (UInt16.ofNat n) else none

def ofEntry? (entry : List Char) : Option Host :=
  match Text.splitLast? ':' entry with
  | some (addr, port) => (port? port).map (⟨String.ofList addr, ·⟩)
  | none => some ⟨String.ofList entry, defaultPort⟩

/-- Comma-separated entries; empty ones and those with a bad port are left out. -/
def parseList (text : String) : List Host :=
  (((Text.splitAll ',' text.toList).map Text.trim).filter (!·.isEmpty)).filterMap ofEntry?

end Host

instance : Codec Host where
  toDoc h := .obj [("addr", toDoc h.addr), ("port", toDoc h.port)]
  ofDoc? r d := do
    let f ← d.fields? r ["addr", "port"]
    return ⟨← f.required? "addr", ← f.orElse? "port" Host.defaultPort⟩

end RecordDb
