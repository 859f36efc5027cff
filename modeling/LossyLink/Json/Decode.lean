import LossyLink.Json.Number

/-! # Reading values of a type

A record is written as an object or, with its fields in order, as an array. Of
the keys of an object every known one may stand once; values under other keys
only have to be legal.
-/

namespace LossyLink.Json.Value

def text? : Value → Option String
  | string ps => Json.text? ps
  | _ => none

/-- An integer from zero to below `bound`. -/
def natBelow? (bound : Nat) : Value → Option Nat
  | number spelling =>
    match Number.ofSpelling? spelling with
    | some (.natural n) => if n < bound then some n else none
    | _ => none
  | _ => none

/-- A double, also from an integer. -/
def float? : Value → Option Float
  | number spelling =>
    match Number.ofSpelling? spelling with
    | some (.natural n) => some (Float.ofNat n)
    | some (.negative n) => some (-(Float.ofNat n))
    | some (.real x) => some x
    | none => none
  | _ => none

/-- Bytes: an array of numbers below 256, or the bytes of a string. -/
def bytes? : Value → Option (List UInt8)
  | array items => items.mapM fun v => (v.natBelow? 256).map UInt8.ofNat
  | string ps => some (Json.bytes ps)
  | _ => none

/-- The fields of a record in order; a field that is not there is `none`. -/
def record? (names : List String) : Value → Option (List (Option Value))
  | array items =>
    if items.length ≤ names.length then
      some (items.map some ++ List.replicate (names.length - items.length) none)
    else none
  | object members => do
    let keyed ← members.mapM fun m => (Json.text? m.1).map fun key => (key, m.2)
    let known := keyed.filter fun m => names.contains m.1
    let others := keyed.filter fun m => !names.contains m.1
    if others.all (fun m => m.2.isLegal) && decide (known.map Prod.fst).Nodup then
      some (names.map fun name => known.lookup name)
    else none
  | _ => none

end LossyLink.Json.Value
