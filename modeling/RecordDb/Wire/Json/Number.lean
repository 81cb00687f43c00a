import RecordDb.Wire.Doc

/-!
# Numbers of JSON texts

An integer that fits 64 bits is kept; any other number is a double made from a 64-bit significand
and one multiplication or division by a power of ten, so digits that do not fit the significand only
count as places.
-/
namespace RecordDb.Wire.Json

/-- The parts of a number text. -/
structure NumberText where
  negative : Bool
  whole : List Nat
  fraction : Option (List Nat)
  exponent : Option (Bool × List Nat)

def significandLimit : Nat := 0xffffffffffffffff

def exponentLimit : Nat := 0x7fffffff

/-- Digits are taken in as long as the value stays within the limit; also the number
of digits left over. -/
def accumulate (limit : Nat) : Nat → List Nat → Nat × Nat
  | n, [] => (n, 0)
  | n, d :: rest =>
    if n * 10 + d ≤ limit then accumulate limit (n * 10 + d) rest else (n, rest.length + 1)

/-- Divides by `10 ^ places`, in steps that a double can express. -/
def shrink (x : Binary64) (places : Nat) : Binary64 :=
  if places ≤ 308 then x.div (.ofNat (Nat.pow 10 places))
  else if x.pattern = 0 then x
  else shrink (x.div (.ofNat (Nat.pow 10 308))) (places - 308)
termination_by places

/-- The double nearest to the significand, moved by the exponent; none on overflow. -/
def scaled? (significand : Nat) (exponent : Int) : Option Binary64 :=
  let x := Binary64.ofNat significand
  if exponent < 0 then some (shrink x exponent.natAbs)
  else if exponent ≤ 308 then
    let y := x.mul (.ofNat (Nat.pow 10 exponent.toNat))
    if y.isFinite then some y else none
  else if x.pattern = 0 then some x
  else none

/-- The magnitude of a number with a fraction, an exponent or a long integer part. An
exponent that does not fit 31 bits makes the number zero or too large. -/
def magnitude? (significand : Nat) (places : Int) : Option (Bool × List Nat) → Option Binary64
  | none => scaled? significand places
  | some (negative, digits) =>
    match accumulate exponentLimit 0 digits with
    | (e, 0) => scaled? significand (if negative then places - e else places + e)
    | _ => if significand ≠ 0 && !negative then none else some (.ofNat 0)

def NumberText.float? (t : NumberText) : Option Binary64 :=
  let (whole, dropped) := accumulate significandLimit 0 t.whole
  let fraction := t.fraction.getD []
  let (significand, ignored) := accumulate significandLimit whole fraction
  let places := (dropped : Int) - (fraction.length - ignored : Nat)
  (magnitude? significand places t.exponent).map fun x => if t.negative then x.neg else x

/-- The integer a number text stands for, if it is written as one and fits; minus
zero is no integer. -/
def NumberText.int? (t : NumberText) : Option Int :=
  match accumulate significandLimit 0 t.whole, t.fraction, t.exponent with
  | (n, 0), none, none =>
    if !t.negative then some n
    else if 0 < n ∧ n ≤ 0x8000000000000000 then some (-(n : Int))
    else none
  | _, _, _ => none

def NumberText.doc (t : NumberText) : Doc :=
  match t.int?, t.float? with
  | some i, _ => .int i
  | none, some x => .float x
  | none, none => .alien

end RecordDb.Wire.Json
