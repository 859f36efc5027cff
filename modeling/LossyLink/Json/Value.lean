import LossyLink.Decimal.Style

/-! # JSON documents

A document keeps its numbers as they are spelled and its strings as they are
written, since not every spelling has a value of every type: a string may hold
half of a surrogate pair, and a number may be too large.
-/

namespace LossyLink.Json

/-- A piece of a string: a character as it stands, or a 16-bit number escaped. -/
inductive Piece where
  | char (c : Char)
  | unit (code : Nat)
  deriving DecidableEq, Repr

inductive Value where
  | null
  | bool (b : Bool)
  | number (spelling : String)
  | string (pieces : List Piece)
  | array (items : List Value)
  | object (members : List (List Piece × Value))
  deriving Repr, Inhabited

def pieces (text : String) : List Piece := text.toList.map .char

namespace Value

def ofText (text : String) : Value := string (pieces text)

def ofNat (n : Nat) : Value := number (toString n)

/-- A double by its shortest digits; what has none is null. -/
def ofFloat (x : Float) : Value :=
  match Binary64.ofFloat x with
  | .finite .. => number (Decimal.Style.json.write x)
  | .infinite _ => null
  | .nan => null

/-- An object whose keys are plain texts. -/
def ofFields (fields : List (String × Value)) : Value :=
  object (fields.map fun f => (pieces f.1, f.2))

end Value

/-- Characters that may not stand in a string as they are. -/
def isControl (c : Char) : Bool := c.toNat < 0x20

def isLeading (code : Nat) : Bool := 0xD800 ≤ code && code ≤ 0xDBFF

def isTrailing (code : Nat) : Bool := 0xDC00 ≤ code && code ≤ 0xDFFF

/-- The code points that the pieces stand for. Halves of a surrogate pair side by
side are joined; a lone half stays. -/
def codePoints : List Piece → List Nat
  | .unit high :: .unit low :: rest =>
    if isLeading high && isTrailing low then
      (0x10000 + (high - 0xD800) * 0x400 + (low - 0xDC00)) :: codePoints rest
    else high :: codePoints (.unit low :: rest)
  | .unit code :: rest => code :: codePoints rest
  | .char c :: rest => c.toNat :: codePoints rest
  | [] => []

/-- No control character stands in the string as it is. -/
def isLegal (ps : List Piece) : Bool :=
  ps.all fun
    | .char c => !isControl c
    | .unit _ => true

/-- The text of a legal string without lone halves. -/
def text? (ps : List Piece) : Option String :=
  let codes := codePoints ps
  if isLegal ps && codes.all Nat.isValidChar then some (String.ofList (codes.map Char.ofNat))
  else none

/-- The bytes of a code point, in the scheme of UTF-8 also for a lone half. -/
def encodeCode (n : Nat) : List UInt8 :=
  let tail (shift : Nat) : UInt8 := .ofNat (0x80 + n >>> shift % 64)
  if n < 0x80 then [.ofNat n]
  else if n < 0x800 then [.ofNat (0xC0 + n / 64), tail 0]
  else if n < 0x10000 then [.ofNat (0xE0 + n / 4096), tail 6, tail 0]
  else [.ofNat (0xF0 + n / 262144), tail 12, tail 6, tail 0]

def bytes (ps : List Piece) : List UInt8 := (codePoints ps).flatMap encodeCode

mutual

/-- No string anywhere in the value holds a control character as it is. -/
def Value.isLegal : Value → Bool
  | .null => true
  | .bool _ => true
  | .number _ => true
  | .string ps => Json.isLegal ps
  | .array items => legalItems items
  | .object members => legalMembers members

def legalItems : List Value → Bool
  | [] => true
  | v :: vs => v.isLegal && legalItems vs

def legalMembers : List (List Piece × Value) → Bool
  | [] => true
  | m :: ms => legalMember m && legalMembers ms

def legalMember : List Piece × Value → Bool
  | (key, v) => Json.isLegal key && v.isLegal

end

end LossyLink.Json
