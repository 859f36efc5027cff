import LossyLink.Data.Basic
import LossyLink.Toml.Value

/-! # The meaning of TOML values

Integers have at most 128 bits and decimal numbers a finite double; other numbers
are too large. A moment is a table without fields.
-/

namespace LossyLink.Toml

/-- Integers with a sign go from minus this to below it. -/
def signedBound : Nat := 1 <<< 127

/-- Integers without a sign stay below this. -/
def unsignedBound : Nat := 1 <<< 128

mutual

def Value.toData : Value → Data
  | .text s => .text s
  | .boolean b => .boolean b
  | .integer (some n) =>
    if -signedBound ≤ n ∧ n < unsignedBound then .integer n else .beyond .integer
  | .integer none => .beyond .integer
  | .decimal l => if l.toFloat.isInf then .beyond .real else .real l.toFloat
  | .infinity negative => .real (if negative then -(1.0 / 0.0) else 1.0 / 0.0)
  | .nan => .real (0.0 / 0.0)
  | .moment => .table []
  | .array items => .list (itemsToData items)
  | .table entries => .ofFields (entriesToData entries)

def itemsToData : List Value → List Data
  | [] => []
  | v :: vs => v.toData :: itemsToData vs

def entriesToData : List (String × Value) → List (String × Data)
  | [] => []
  | e :: es => entryToData e :: entriesToData es

def entryToData : String × Value → String × Data
  | (key, v) => (key, v.toData)

end

end LossyLink.Toml
