import LossyLink.Data.Basic
import LossyLink.Decimal.Style
import LossyLink.Text.Quoted

/-! # Why a value does not fit -/

namespace LossyLink

inductive Mismatch where
  | wrongType (found : Data) (expected : String)
  | wrongValue (n : Int) (expected : String)
  | wrongLength (length : Nat) (expected : String)
  | missingField (name : String)
  | unknownVariant (name : String) (known : List String)
  | overflow (range : NumberOverflow)
  deriving Repr

/-- Why a value is not what is expected. -/
def Data.misfit (expected : String) : Data → Mismatch
  | beyond range => .overflow range
  | d => .wrongType d expected

/-- What notations for values do in their own ways. -/
structure Dialect where
  /-- How a double is written in a message. -/
  real : Decimal.Style
  /-- A tag of 2⁶³ or more is taken for the index of a variant. -/
  indexedTags : Bool

namespace Dialect

def toml : Dialect := ⟨.pointed, true⟩

def json : Dialect := ⟨.json, false⟩

end Dialect

private def code (text : String) : String := "\x60" ++ text ++ "\x60"

/-- What a value is, for a message. -/
def Data.describe (dialect : Dialect) : Data → String
  | null => "null"
  | boolean b => "boolean " ++ code (if b then "true" else "false")
  | integer n =>
    "integer " ++ code (toString n) ++
      (if (1 <<< 127 : Nat) ≤ n then " as u128" else if isWide n then " as i128" else "")
  | real x => "floating point " ++ code (dialect.real.write x)
  | text s => "string " ++ Text.quote s
  | list _ => "sequence"
  | table _ => "map"
  | beyond _ => "number"

def Mismatch.message (dialect : Dialect) : Mismatch → String
  | wrongType found expected => s!"invalid type: {found.describe dialect}, expected {expected}"
  | wrongValue n expected =>
    s!"invalid value: {(Data.integer n).describe dialect}, expected {expected}"
  | wrongLength length expected => s!"invalid length {length}, expected {expected}"
  | missingField name => "missing field " ++ code name
  | unknownVariant name known =>
    s!"unknown variant {code name}, expected one of " ++ ", ".intercalate (known.map code)
  | overflow .integer => "integer number overflowed"
  | overflow .real => "floating-point number overflowed"

end LossyLink
