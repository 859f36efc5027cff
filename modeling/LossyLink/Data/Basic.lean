/-! # Values without a type

What a document says before anything is known of its meaning. Tables hold their
fields in the order of the names. A number too large for every type is no fault of
the document: it counts only where it is looked at.
-/

namespace LossyLink

/-- What a number is too large for. -/
inductive NumberOverflow | integer | real
  deriving DecidableEq, Repr

inductive Data where
  | null
  | boolean (b : Bool)
  | integer (n : Int)
  | real (x : Float)
  | text (s : String)
  | list (items : List Data)
  | table (fields : List (String × Data))
  /-- A number too large for every type. -/
  | beyond (range : NumberOverflow)
  deriving Repr, Inhabited

namespace Data

def ofFields (fields : List (String × Data)) : Data :=
  table (fields.mergeSort fun f g => f.1 ≤ g.1)

/-- An integer that fits in 64 bits neither with a sign nor without. -/
def isWide (n : Int) : Bool := n < Int64.minValue.toInt || UInt64.size ≤ n

/-- A number too large for every type. -/
def isBeyond : Data → Bool
  | beyond _ => true
  | _ => false

mutual

/-- The first value with a property among those in a value that are no list and no table. -/
def find? (p : Data → Bool) : Data → Option Data
  | list items => findItem? p items
  | table fields => findField? p fields
  | d => if p d then some d else none

def findItem? (p : Data → Bool) : List Data → Option Data
  | [] => none
  | d :: ds => (d.find? p).or (findItem? p ds)

def findField? (p : Data → Bool) : List (String × Data) → Option Data
  | [] => none
  | f :: fs => (findPair? p f).or (findField? p fs)

def findPair? (p : Data → Bool) : String × Data → Option Data
  | (_, d) => d.find? p

end

end Data

end LossyLink
