/-!
# Double-precision numbers

A double is told by its bits. A pattern is the bits without the sign; a finite one stands for a
whole number of units of 2^-1074, and every arithmetic result is the exact one rounded to the
nearest pattern, ties to the even one.
-/
namespace RecordDb

structure Binary64 where
  bits : UInt64
  deriving DecidableEq

namespace Binary64

/-- The bit of the sign. -/
def signBit : Nat := 0x8000000000000000

/-- The lowest bit of the exponent field. -/
def exponentUnit : Nat := 0x10000000000000

def infinityPattern : Nat := 2047 * exponentUnit

def pattern (x : Binary64) : Nat := x.bits.toNat % signBit

def isNegative (x : Binary64) : Bool := signBit ≤ x.bits.toNat

def isNaN (x : Binary64) : Bool := infinityPattern < x.pattern

def isFinite (x : Binary64) : Bool := x.pattern < infinityPattern

def ofPattern (negative : Bool) (pattern : Nat) : Binary64 :=
  ⟨UInt64.ofNat (pattern + if negative then signBit else 0)⟩

def nan : Binary64 := ⟨0x7ff8000000000000⟩

/-- Units of 2^-1074 in a pattern. -/
def unitsOf (pattern : Nat) : Nat :=
  if pattern < exponentUnit then pattern
  else (exponentUnit + pattern % exponentUnit) <<< (pattern / exponentUnit - 1)

def units (x : Binary64) : Nat := unitsOf x.pattern

def divHalfEven (n d : Nat) : Nat :=
  let q := n / d
  let r := n % d
  if d < 2 * r ∨ (2 * r = d ∧ q % 2 = 1) then q + 1 else q

/-- The pattern nearest to `n / d` units. From 2^53 units on, the significand keeps
53 bits and the exponent field counts the places dropped. -/
def nearestPattern (n d : Nat) : Nat :=
  let dropped := Nat.log2 (n / d) - 52
  min infinityPattern (dropped * exponentUnit + divHalfEven n (d <<< dropped))

def ofNat (n : Nat) : Binary64 := ofPattern false (nearestPattern (n <<< 1074) 1)

def ofInt (i : Int) : Binary64 :=
  ofPattern (decide (i < 0)) (nearestPattern (i.natAbs <<< 1074) 1)

/-- The numeric order as an integer: none for NaN, one value for both zeros. -/
def orderKey? (x : Binary64) : Option Int :=
  if x.isNaN then none else some (if x.isNegative then -(x.pattern : Int) else x.pattern)

/-- Numeric order; a pair with a NaN has none. -/
def compare? (x y : Binary64) : Option Ordering :=
  match x.orderKey?, y.orderKey? with
  | some a, some b => some (if a < b then .lt else if a = b then .eq else .gt)
  | _, _ => none

/-- Numeric equality: NaN differs from itself and the zeros are equal. -/
def same (x y : Binary64) : Bool := compare? x y == some .eq

def neg (x : Binary64) : Binary64 := ofPattern (!x.isNegative) x.pattern

def signedUnits (x : Binary64) : Int := if x.isNegative then -(x.units : Int) else x.units

/-- A sum of zero is positive unless both addends are negative zeros. -/
def add (x y : Binary64) : Binary64 :=
  if x.isNaN || y.isNaN then nan
  else if !x.isFinite then
    if !y.isFinite && x.isNegative != y.isNegative then nan else x
  else if !y.isFinite then y
  else
    let sum := x.signedUnits + y.signedUnits
    if sum = 0 then ofPattern (x.isNegative && y.isNegative) 0
    else ofPattern (decide (sum < 0)) (nearestPattern sum.natAbs 1)

def sub (x y : Binary64) : Binary64 := add x (neg y)

/-- Product of two finite numbers. -/
def mul (x y : Binary64) : Binary64 :=
  ofPattern (x.isNegative != y.isNegative) (nearestPattern (x.units * y.units) (1 <<< 1074))

/-- Quotient of two finite numbers, the second not zero. -/
def div (x y : Binary64) : Binary64 :=
  ofPattern (x.isNegative != y.isNegative) (nearestPattern (x.units <<< 1074) y.units)

/-- The double equal to a single-precision number, a NaN made quiet. -/
def ofSingle (bits : UInt32) : Binary64 :=
  let pattern := bits.toNat % 0x80000000
  let negative := decide (0x80000000 ≤ bits.toNat)
  let exponent := pattern / 0x800000
  let fraction := pattern % 0x800000
  if exponent = 255 then
    if fraction = 0 then ofPattern negative infinityPattern
    else ofPattern negative (infinityPattern + exponentUnit / 2 + (fraction % 0x400000) <<< 29)
  else
    let units := if exponent = 0 then fraction else (0x800000 + fraction) <<< (exponent - 1)
    ofPattern negative (nearestPattern (units <<< 925) 1)

end Binary64

end RecordDb
