import LossyLink.Data.Basic
import LossyLink.Json.Number

/-! # The meaning of JSON values

Of the members of an object under one key the last one counts.
-/

namespace LossyLink.Json

def Number.toData : Number → Data
  | natural n => .integer n
  | negative n => .integer (-n)
  | real x => .real x

/-- The last field under each name. -/
def lastOnes : List (String × Data) → List (String × Data)
  | [] => []
  | f :: fs => if fs.any fun g => g.1 == f.1 then lastOnes fs else f :: lastOnes fs

mutual

def Value.toData? : Value → Option Data
  | .null => some .null
  | .bool b => some (.boolean b)
  | .number spelling => (Number.ofSpelling? spelling).map Number.toData
  | .string ps => (text? ps).map .text
  | .array items => (itemsToData? items).map .list
  | .object members => (membersToData? members).map fun fields => .ofFields (lastOnes fields)

def itemsToData? : List Value → Option (List Data)
  | [] => some []
  | v :: vs => do return (← v.toData?) :: (← itemsToData? vs)

def membersToData? : List (List Piece × Value) → Option (List (String × Data))
  | [] => some []
  | m :: ms => do return (← memberToData? m) :: (← membersToData? ms)

def memberToData? : List Piece × Value → Option (String × Data)
  | (key, v) => do return (← text? key, ← v.toData?)

end

end LossyLink.Json
