import RecordDb.Binary64

/-!
# Shortest decimals

The shortest decimal of a double: on the coarsest power-of-ten grid that has a point among the reals
rounding to it, the point nearest to it. Lengths are counted in half units, 2^-1075, so that the
ends of the rounding interval are whole.
-/
namespace RecordDb.Binary64

/-- `digits * 10 ^ exponent`. -/
structure Decimal where
  digits : Nat
  exponent : Int

/-- Which of two equally near grid points is taken. -/
inductive Tie where
  | toEven
  | up

/-- The reals that round to one pattern, in half units; the ends belong to it when
the pattern is even. -/
structure Interval where
  low : Nat
  point : Nat
  high : Nat
  closed : Bool

def roundingInterval (pattern : Nat) : Interval where
  low := unitsOf (pattern - 1) + unitsOf pattern
  point := 2 * unitsOf pattern
  high := unitsOf pattern + unitsOf (pattern + 1)
  closed := pattern % 2 = 0

def Interval.contains (i : Interval) (n d : Nat) : Bool :=
  if i.closed then i.low * d ≤ n && n ≤ i.high * d else i.low * d < n && n < i.high * d

/-- The step of the grid `10 ^ k` in half units, as numerator and denominator. -/
def gridStep (k : Int) : Nat × Nat :=
  if 0 ≤ k then (Nat.pow 10 k.toNat <<< 1075, 1) else (1 <<< 1075, Nat.pow 10 (-k).toNat)

def Interval.onGrid? (tie : Tie) (i : Interval) (k : Int) : Option Nat :=
  let (step, den) := gridStep k
  let below := i.point * den / step
  let rest := i.point * den % step
  match i.contains (below * step) den, i.contains ((below + 1) * step) den with
  | false, false => none
  | true, false => some below
  | false, true => some (below + 1)
  | true, true =>
    if 2 * rest < step then some below
    else if step < 2 * rest then some (below + 1)
    else match tie with
      | .toEven => some (below + below % 2)
      | .up => some (below + 1)

/-- Every finite double lies on some grid from 10^309 down to 10^-324. -/
def grids : List Int := (List.range 634).map fun (i : Nat) => 309 - (i : Int)

def shortestDecimal (tie : Tie) (pattern : Nat) : Decimal :=
  let i := roundingInterval pattern
  (grids.findSome? fun k => (i.onGrid? tie k).map (⟨·, k⟩)).getD ⟨0, 0⟩

end RecordDb.Binary64
