import LossyLink.Decimal.Nearest

/-! # TOML values

Integers and decimals are kept as they are written, however large. The digits of
an integer are looked at last, and may turn out to write no number. Of dates and
times only that they are well formed is kept.
-/

namespace LossyLink.Toml

inductive Value where
  | text (s : String)
  | boolean (b : Bool)
  /-- An integer, unless its digits write none. -/
  | integer (n : Option Int)
  | decimal (l : Decimal.Literal)
  | infinity (negative : Bool)
  | nan
  | moment
  | array (items : List Value)
  | table (entries : List (String × Value))

end LossyLink.Toml
