import LossyLink.Decimal.Nearest
import LossyLink.Text.Digit

/-! # Decimal numbers as they are typed

A sign, digits with an optional point among, before or behind them, and an
exponent; or the name of an infinity or of the number that is none.
-/

namespace LossyLink.Decimal

open Text (isDigit splitSign)

/-- The exponent behind the digits, if there is one; nothing may follow it. -/
def readExponent? : List Char → Option Int
  | [] => some 0
  | e :: cs =>
    if e = 'e' ∨ e = 'E' then
      let (negative, digits) := splitSign cs
      if digits.isEmpty || !digits.all isDigit then none
      else some (if negative then -(ofDigits digits : Int) else ofDigits digits)
    else none

/-- A number without its sign. -/
def Literal.read? (negative : Bool) (cs : List Char) : Option Literal :=
  let (whole, cs) := cs.span isDigit
  let (fraction, cs) := match cs with
    | '.' :: cs => cs.span isDigit
    | cs => ([], cs)
  if whole.isEmpty && fraction.isEmpty then none
  else (readExponent? cs).map fun exponent => { negative, whole, fraction, exponent }

/-- The double nearest to what is typed. -/
def read? (text : String) : Option Float :=
  let (negative, cs) := splitSign text.toList
  match String.ofList (cs.map Char.toLower) with
  | "inf" | "infinity" => some (if negative then -(1.0 / 0.0) else 1.0 / 0.0)
  | "nan" => some (0.0 / 0.0)
  | _ => (Literal.read? negative cs).map Literal.toFloat

end LossyLink.Decimal
