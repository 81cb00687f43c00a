import RecordDb.Binary64.Shortest

/-!
# Texts of finite doubles

The texts are laid out from the shortest decimal.
-/
namespace RecordDb.Binary64

/-- What a format decides: the text that closes a whole number, which way ties go,
and for which places of the point (digits before it) the number is written out. -/
structure Layout where
  tie : Tie
  wholeEnd : String
  isPlain : Int → Bool

/-- Data texts keep whole numbers apart from integers and write out 1e-5 up to 1e16. -/
def Layout.data : Layout := ⟨.toEven, ".0", fun place => -5 < place && place ≤ 16⟩

/-- Display texts write every digit out. -/
def Layout.display : Layout := ⟨.up, "", fun _ => true⟩

def zeros (n : Nat) : String := String.ofList (List.replicate n '0')

def plainText (layout : Layout) (digits : List Char) (exponent : Int) : String :=
  let place := digits.length + exponent
  if 0 ≤ exponent then String.ofList digits ++ zeros exponent.toNat ++ layout.wholeEnd
  else if 0 < place then
    String.ofList (digits.take place.toNat) ++ "." ++ String.ofList (digits.drop place.toNat)
  else "0." ++ zeros (-place).toNat ++ String.ofList digits

def powerText (digits : List Char) (exponent : Int) : String :=
  let power := digits.length + exponent - 1
  let fraction := digits.drop 1
  String.ofList (digits.take 1)
    ++ (if fraction.isEmpty then "" else "." ++ String.ofList fraction)
    ++ "e" ++ (if power < 0 then "-" else "+") ++ toString power.natAbs

/-- The text of a finite double. -/
def text (layout : Layout) (x : Binary64) : String :=
  let sign := if x.isNegative then "-" else ""
  if x.pattern = 0 then sign ++ "0" ++ layout.wholeEnd
  else
    let decimal := shortestDecimal layout.tie x.pattern
    let digits := Nat.toDigits 10 decimal.digits
    if layout.isPlain (digits.length + decimal.exponent) then
      sign ++ plainText layout digits decimal.exponent
    else sign ++ powerText digits decimal.exponent

example : text .data ⟨0x430c6bf526340000⟩ = "1000000000000000.0" := by decide +kernel

example : text .data ⟨0x4341c37937e08000⟩ = "1e+16" := by decide +kernel

example : text .display ⟨0x4341c37937e08000⟩ = "10000000000000000" := by decide +kernel

example : text .data ⟨0x3ee4f8b588e368f1⟩ = "0.00001" := by decide +kernel

example : text .data ⟨0x3eb0c6f7a0b5ed8d⟩ = "1e-6" := by decide +kernel

example : text .data ⟨1⟩ = "5e-324" ∧ text .data ⟨0x8000000000000000⟩ = "-0.0" := by decide +kernel

/-- The display text of any double. -/
def displayText (x : Binary64) : String :=
  if x.isNaN then "NaN"
  else if x.isFinite then text .display x
  else if x.isNegative then "-inf" else "inf"

end RecordDb.Binary64
