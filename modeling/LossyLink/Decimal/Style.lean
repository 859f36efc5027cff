import LossyLink.Decimal.Shortest

/-! # Ways of writing a double

All styles write the shortest digits that read back. They differ in when they
turn to an exponent, in whether a whole number keeps a `.0`, and in the names
of the numbers without digits.
-/

namespace LossyLink.Decimal

structure Style where
  /-- Point positions written without an exponent; without a range, all of them. -/
  positional : Option (Int × Int)
  /-- A whole number ends in `.0`. -/
  wholeHasFraction : Bool
  tie : Tie
  nan : String
  infinity : String
  deriving Repr

namespace Style

/-- Never an exponent, and no fraction where there is none. -/
def plain : Style := ⟨none, false, .up, "NaN", "inf"⟩

/-- As `plain`, but a finite number always shows a fraction. -/
def pointed : Style := { plain with wholeHasFraction := true }

/-- A JSON number: positional from 10⁻⁵ to below 10¹⁶. -/
def json : Style := ⟨some (-4, 16), true, .even, "null", "null"⟩

end Style

private def digitText (ds : List Nat) : String := String.ofList (ds.map Nat.digitChar)

private def zeros (n : Nat) : List Nat := List.replicate n 0

/-- Write the digits without an exponent. -/
def withoutExponent (wholeHasFraction : Bool) (d : Digits) : String :=
  let whole := d.digits ++ zeros (d.point - d.digits.length).toNat
  let (before, after) := whole.splitAt d.point.toNat
  let after := zeros (-d.point).toNat ++ after
  let before := if before.isEmpty then [0] else before
  if after.isEmpty then
    if wholeHasFraction then digitText before ++ ".0" else digitText before
  else digitText before ++ "." ++ digitText after

/-- Write one digit before the point, and an exponent with its sign. -/
def withExponent (d : Digits) : String :=
  let mantissa := match d.digits with
    | [] => "0"
    | [d₁] => digitText [d₁]
    | d₁ :: ds => digitText [d₁] ++ "." ++ digitText ds
  let e := d.point - 1
  mantissa ++ "e" ++ (if e < 0 then "-" else "+") ++ toString e.natAbs

def Style.digits (style : Style) (d : Digits) : String :=
  match style.positional with
  | none => withoutExponent style.wholeHasFraction d
  | some (least, greatest) =>
    if least ≤ d.point ∧ d.point ≤ greatest then withoutExponent style.wholeHasFraction d
    else withExponent d

/-- The text of a double. -/
def Style.write (style : Style) (x : Float) : String :=
  match Binary64.ofFloat x with
  | .nan => style.nan
  | .infinite negative => (if negative then "-" else "") ++ style.infinity
  | .finite negative m e =>
    let text :=
      if m = 0 then (if style.wholeHasFraction then "0.0" else "0")
      else style.digits (shortest style.tie m e)
    (if negative then "-" else "") ++ text

end LossyLink.Decimal
