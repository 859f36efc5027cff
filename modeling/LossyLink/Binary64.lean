/-! # The exact value of a double

A finite double is a whole significand times a power of two. Everything that
has to be decided about one (its digits, whether a random draw falls below it)
is decided on that pair, in exact arithmetic.
-/

namespace LossyLink

inductive Binary64 where
  | nan
  | infinite (negative : Bool)
  | finite (negative : Bool) (significand : Nat) (exponent : Int)
  deriving DecidableEq, Repr

namespace Binary64

/-- The least exponent, of the subnormal numbers. -/
def leastExponent : Int := -1074

/-- The significands of normal numbers start here. -/
def leastNormal : Nat := 1 <<< 52

def ofFloat (x : Float) : Binary64 :=
  let bits := x.toBits.toNat
  let negative := decide (1 <<< 63 ≤ bits)
  let biased := bits / leastNormal % 2048
  let fraction := bits % leastNormal
  if biased = 2047 then
    if fraction = 0 then infinite negative else nan
  else if biased = 0 then finite negative fraction leastExponent
  else finite negative (leastNormal + fraction) (leastExponent + (biased - 1 : Nat))

/-- The least whole number that is at least `m · 2^e`. -/
def ceilShift (m : Nat) : Int → Nat
  | .ofNat up => m <<< up
  | .negSucc down => (m + (1 <<< (down + 1) - 1)) >>> (down + 1)

@[simp] theorem ceilShift_zero (e : Int) : ceilShift 0 e = 0 := by
  cases e with
  | ofNat up => simp [ceilShift]
  | negSucc down =>
    have := Nat.two_pow_pos (down + 1)
    rw [ceilShift, Nat.shiftRight_eq_div_pow, Nat.shiftLeft_eq]
    exact Nat.div_eq_of_lt (by omega)

/-- `n / 2^places` is less than `x`; nothing is less than a NaN. -/
def exceeds (x : Binary64) (places n : Nat) : Bool :=
  match x with
  | nan => false
  | infinite negative => !negative
  | finite negative m e => !negative && decide (n < ceilShift m (e + places))

@[simp] theorem exceeds_zero (negative : Bool) (e : Int) (places n : Nat) :
    (finite negative 0 e).exceeds places n = false := by
  simp [exceeds]

theorem ofFloat_zero : ofFloat 0.0 = finite false 0 leastExponent := by decide +kernel

end Binary64

end LossyLink
