import LossyLink.Data.Mismatch

/-! # Reading values of a type -/

namespace LossyLink

namespace Data

variable {α : Type}

def asText : Data → Except Mismatch String
  | text s => .ok s
  | d => .error (d.misfit "a string")

/-- A double, also from an integer. -/
def asReal : Data → Except Mismatch Float
  | real x => .ok x
  | integer n =>
    if isWide n then .error (.wrongType (integer n) "f64")
    else .ok (if n < 0 then -(Float.ofNat n.natAbs) else Float.ofNat n.natAbs)
  | d => .error (d.misfit "f64")

/-- A natural number of so many bits. -/
def asNat (bits : Nat) : Data → Except Mismatch Nat
  | integer n =>
    if isWide n then .error (.wrongType (integer n) s!"u{bits}")
    else if n < 0 ∨ 1 <<< bits ≤ n.toNat then .error (.wrongValue n s!"u{bits}")
    else .ok n.toNat
  | d => .error (d.misfit s!"u{bits}")

def asList (read : Data → Except Mismatch α) : Data → Except Mismatch (List α)
  | list items => items.mapM read
  | d => .error (d.misfit "a sequence")

/-- Refuse a value of which some part is refused. -/
def accept (refused : Data → Bool) (expected : String) (d : Data) : Except Mismatch Unit :=
  match d.find? refused with
  | some part => .error (part.misfit expected)
  | none => .ok ()

end Data

end LossyLink
