import LossyLink.Decimal.Nearest
import LossyLink.Json.Reader

/-! # The values of numbers

A number spelled without point and exponent is an integer if it fits in 64 bits,
and every other number is a double. The double is found in two roundings: as
many leading digits as fit in 64 bits are rounded, and then scaled by a power of
ten.
-/

namespace LossyLink.Json

inductive Number where
  | natural (n : Nat)
  /-- A number below zero, by its magnitude. -/
  | negative (magnitude : Nat)
  | real (x : Float)
  deriving DecidableEq, Repr

/-- Take digits in as long as the number stays below 2⁶⁴. -/
def takeDigits (n : Nat) : List Char → Nat × List Char
  | [] => (n, [])
  | c :: cs =>
    let next := 10 * n + (c.toNat - '0'.toNat)
    if next < UInt64.size then takeDigits next cs else (n, c :: cs)

def powerOfTen (n : Nat) : Float := OfScientific.ofScientific 1 false n

/-- Scale by a power of ten, in steps of at most 10³⁰⁸; too large a number has no double. -/
def scale? : Nat → Float → Int → Option Float
  | 0, x, _ => some x
  | fuel + 1, x, e =>
    if e.natAbs ≤ 308 then
      if 0 ≤ e then
        let y := x * powerOfTen e.natAbs
        if y.isInf then none else some y
      else some (x / powerOfTen e.natAbs)
    else if x == 0.0 then some x
    else if 0 ≤ e then none
    else scale? fuel (x / powerOfTen 308) (e + 308)

namespace NumberParts

/-- Exponents are read up to this; beyond, only their sign matters. -/
def exponentLimit : Nat := 1 <<< 31

/-- The double of the leading digits, scaled. -/
def approximate? (p : NumberParts) : Option Float :=
  let (n, wholeRest) := takeDigits 0 p.whole
  let (n, fractionRest) := takeDigits n p.fraction
  let shift : Int := wholeRest.length - (p.fraction.length - fractionRest.length : Nat)
  let magnitude : Option Float :=
    match p.exponent with
    | none => scale? 8 (Float.ofNat n) shift
    | some (negative, digits) =>
      let e := Decimal.ofDigits digits
      if e < exponentLimit then
        scale? 8 (Float.ofNat n) (if negative then shift - e else shift + e)
      else if n = 0 ∨ negative then some 0.0
      else none
  magnitude.map fun x => if p.negative then -x else x

def number? (p : NumberParts) : Option Number :=
  let n := Decimal.ofDigits p.whole
  if p.fraction.isEmpty && p.exponent.isNone then
    if p.negative then
      if 0 < n ∧ n ≤ 1 <<< 63 then some (.negative n) else p.approximate?.map .real
    else if n < UInt64.size then some (.natural n)
    else p.approximate?.map .real
  else p.approximate?.map .real

end NumberParts

/-- The parts of a spelling. -/
def partsOf? (spelling : String) : Option NumberParts :=
  match scanNumber? spelling.toList with
  | some (p, []) => some p
  | _ => none

/-- The value of a spelling, if it has one. -/
def Number.ofSpelling? (spelling : String) : Option Number :=
  (partsOf? spelling).bind NumberParts.number?

end LossyLink.Json
