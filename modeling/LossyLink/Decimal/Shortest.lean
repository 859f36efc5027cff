import LossyLink.Binary64

/-! # The fewest digits that read back

A double stands for every real number nearer to it than to its neighbours. Of
the decimal grids of 1, 2, 3, … significant digits the first with a point among
those reals is taken, and on it the point nearest to the double. All
comparisons are between whole numbers.
-/

namespace LossyLink.Decimal

/-- A power of ten. -/
def tenTo (n : Nat) : Nat := Nat.pow 10 n

/-- Which of two equally near decimals is taken. -/
inductive Tie | even | up
  deriving DecidableEq, Repr

/-- The digits `d₁d₂…dₙ` and the position `p` of the number `0.d₁d₂…dₙ · 10^p`. -/
structure Digits where
  digits : List Nat
  point : Int
  deriving DecidableEq, Repr

/-- A positive number `value / unit` with the ends of the interval that rounds to it. -/
structure Interval where
  low : Nat
  value : Nat
  high : Nat
  unit : Nat
  closed : Bool

/-- The reals that round to `significand · 2^exponent`, in quarters of the last
binary place. Below a power of two the gap is half as wide. -/
def Interval.ofBinary (significand : Nat) (exponent : Int) : Interval :=
  let narrow := significand = Binary64.leastNormal ∧ exponent ≠ Binary64.leastExponent
  let low := 4 * significand - if narrow then 1 else 2
  let up := (exponent - 2).toNat
  { low := low <<< up
    value := (4 * significand) <<< up
    high := (4 * significand + 2) <<< up
    unit := 1 <<< (2 - exponent).toNat
    closed := significand % 2 = 0 }

namespace Interval

/-- `n · 10^scale` rounds to the double. -/
def contains (i : Interval) (scale : Int) (n : Nat) : Bool :=
  let point := n * tenTo scale.toNat * i.unit
  let shrink := tenTo (-scale).toNat
  if i.closed then decide (i.low * shrink ≤ point) && decide (point ≤ i.high * shrink)
  else decide (i.low * shrink < point) && decide (point < i.high * shrink)

/-- The whole multiple of `10^scale` at or below the double, and twice what is left over,
compared with the grid's step. -/
def floorAt (i : Interval) (scale : Int) : Nat × Ordering :=
  let step := tenTo scale.toNat * i.unit
  let value := i.value * tenTo (-scale).toNat
  (value / step, compare (2 * (value % step)) step)

/-- The point of the grid `10^scale` that rounds to the double and is nearest to it. -/
def nearest? (tie : Tie) (i : Interval) (scale : Int) : Option Nat :=
  let (below, rest) := i.floorAt scale
  match i.contains scale below, i.contains scale (below + 1) with
  | true, true =>
    let above := match rest, tie with
      | .lt, _ => false
      | .gt, _ => true
      | .eq, .up => true
      | .eq, .even => below % 2 = 1
    some (if above then below + 1 else below)
  | true, false => some below
  | false, true => some (below + 1)
  | false, false => none

/-- How many digits stand before the point; for a number below one, minus the
number of zeros after it. -/
def magnitude (i : Interval) : Int :=
  let digitCount (n : Nat) : Nat := (Nat.toDigits 10 n).length
  if i.unit ≤ i.value then digitCount (i.value / i.unit)
  else
    let zeros := digitCount (i.unit / i.value) - 1
    if i.unit ≤ i.value * tenTo zeros then 1 - (zeros : Int) else -(zeros : Int)

/-- Try the grids of `count`, `count + 1`, … digits. -/
def search (tie : Tie) (i : Interval) (point : Int) : Nat → Nat → Nat × Int
  | 0, count => ((i.floorAt (point - count)).1, point - count)
  | tries + 1, count =>
    match i.nearest? tie (point - count) with
    | some n => (n, point - count)
    | none => search tie i point tries (count + 1)

end Interval

/-- Drop the zeros at the end. -/
def trimZeros (digits : List Nat) : List Nat := (digits.reverse.dropWhile (· = 0)).reverse

/-- The shortest digits of a positive double; seventeen always suffice. -/
def shortest (tie : Tie) (significand : Nat) (exponent : Int) : Digits :=
  let i := Interval.ofBinary significand exponent
  let (n, scale) := i.search tie i.magnitude 17 1
  let digits := (Nat.toDigits 10 n).map fun c => c.toNat - '0'.toNat
  { digits := trimZeros digits, point := scale + digits.length }

end LossyLink.Decimal
