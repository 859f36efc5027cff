/-! # The double nearest to a decimal

A decimal text is a whole number of digits and a power of ten. Powers so large
or small that the outcome is an infinity or a zero are settled first, by the
number of digits alone.
-/

namespace LossyLink.Decimal

/-- The whole number that decimal digits write. -/
def ofDigits (digits : List Char) : Nat :=
  digits.foldl (fun n c => 10 * n + (c.toNat - '0'.toNat)) 0

/-- The double nearest to `digits · 10^exponent`; halfway, the even one. -/
def nearest (negative : Bool) (digits : Nat) (exponent : Int) : Float :=
  let magnitude := (Nat.toDigits 10 digits).length + exponent
  let x : Float :=
    if digits = 0 ∨ magnitude < -330 then 0
    else if 320 < magnitude then 1 / 0
    else OfScientific.ofScientific digits (decide (exponent < 0)) exponent.natAbs
  if negative then -x else x

/-- A number with an optional sign, digits on at least one side of an optional
point, and an optional exponent. -/
structure Literal where
  negative : Bool := false
  whole : List Char
  fraction : List Char := []
  exponent : Int := 0

def Literal.toFloat (l : Literal) : Float :=
  nearest l.negative (ofDigits (l.whole ++ l.fraction)) (l.exponent - l.fraction.length)

end LossyLink.Decimal
