import LossyLink.Json.Value
import LossyLink.Text.Digit

/-! # Reading JSON

A reader by recursive descent. Its fuel is the length of the text: every call
that goes deeper or further has consumed a character.
-/

namespace LossyLink.Json

open Text (isDigit hexValue?)

def isBlank (c : Char) : Bool := c == ' ' || c == '\n' || c == '\r' || c == '\t'

def skipBlanks (cs : List Char) : List Char := cs.dropWhile isBlank

/-- At least one digit. -/
def digits1? (cs : List Char) : Option (List Char × List Char) :=
  match cs.span isDigit with
  | ([], _) => none
  | (digits, rest) => some (digits, rest)

/-- A number by its parts. -/
structure NumberParts where
  negative : Bool
  whole : List Char
  fraction : List Char
  /-- The sign and the digits of the exponent. -/
  exponent : Option (Bool × List Char)
  deriving DecidableEq, Repr

/-- The part before the point: a zero, or digits that begin with another one. -/
def scanWhole? (cs : List Char) : Option (List Char × List Char) :=
  match digits1? cs with
  | some ('0' :: _ :: _, _) => none
  | found => found

def scanFraction? : List Char → Option (List Char × List Char)
  | '.' :: cs => digits1? cs
  | cs => some ([], cs)

def scanExponent? : List Char → Option (Option (Bool × List Char) × List Char)
  | e :: cs =>
    if e = 'e' ∨ e = 'E' then
      let (negative, cs) := match cs with
        | '-' :: cs => (true, cs)
        | '+' :: cs => (false, cs)
        | cs => (false, cs)
      (digits1? cs).map fun (digits, rest) => (some (negative, digits), rest)
    else some (none, e :: cs)
  | [] => some (none, [])

def scanNumber? (cs : List Char) : Option (NumberParts × List Char) := do
  let (negative, cs) := match cs with
    | '-' :: cs => (true, cs)
    | cs => (false, cs)
  let (whole, cs) ← scanWhole? cs
  let (fraction, cs) ← scanFraction? cs
  let (exponent, cs) ← scanExponent? cs
  return ({ negative, whole, fraction, exponent }, cs)

/-- A character of a number. -/
def isNumberChar (c : Char) : Bool := isDigit c || c ∈ ['-', '+', '.', 'e', 'E']

/-- The spelling of a number, which goes on as long as characters of numbers follow. -/
def scanSpelling? (cs : List Char) : Option (String × List Char) :=
  let (spelling, rest) := cs.span isNumberChar
  match scanNumber? spelling with
  | some (_, []) => some (String.ofList spelling, rest)
  | _ => none

/-- The value of four hexadecimal digits. -/
def hex4? (a b c d : Char) : Option Nat := do
  return (((← hexValue? a) * 16 + (← hexValue? b)) * 16 + (← hexValue? c)) * 16 + (← hexValue? d)

/-- The character that stands behind a backslash for another one. -/
def simpleEscape? : Char → Option Char
  | '"' => some '"'
  | '\\' => some '\\'
  | '/' => some '/'
  | 'b' => some '\x08'
  | 'f' => some '\x0c'
  | 'n' => some '\n'
  | 'r' => some '\r'
  | 't' => some '\t'
  | _ => none

/-- The rest of a string, behind its opening quote. -/
def scanString? (pieces : List Piece) : List Char → Option (List Piece × List Char)
  | '"' :: cs => some (pieces.reverse, cs)
  | '\\' :: 'u' :: a :: b :: c :: d :: cs =>
    match hex4? a b c d with
    | some code => scanString? (.unit code :: pieces) cs
    | none => none
  | '\\' :: e :: cs =>
    match simpleEscape? e with
    | some c => scanString? (.unit c.toNat :: pieces) cs
    | none => none
  | ['\\'] => none
  | c :: cs => scanString? (.char c :: pieces) cs
  | [] => none

/-- Take a word from the front. -/
def word? (word cs : List Char) : Option (List Char) :=
  if word.isPrefixOf cs then some (cs.drop word.length) else none

mutual

def scanValue? : Nat → List Char → Option (Value × List Char)
  | 0, _ => none
  | fuel + 1, cs =>
    match skipBlanks cs with
    | '\x7b' :: cs =>
      match skipBlanks cs with
      | '\x7d' :: cs => some (.object [], cs)
      | cs => scanMembers? fuel [] cs
    | '[' :: cs =>
      match skipBlanks cs with
      | ']' :: cs => some (.array [], cs)
      | cs => scanItems? fuel [] cs
    | '"' :: cs => (scanString? [] cs).map fun (ps, rest) => (.string ps, rest)
    | 't' :: cs => (word? ['r', 'u', 'e'] cs).map fun rest => (.bool true, rest)
    | 'f' :: cs => (word? ['a', 'l', 's', 'e'] cs).map fun rest => (.bool false, rest)
    | 'n' :: cs => (word? ['u', 'l', 'l'] cs).map fun rest => (.null, rest)
    | cs => (scanSpelling? cs).map fun (spelling, rest) => (.number spelling, rest)

def scanItems? : Nat → List Value → List Char → Option (Value × List Char)
  | 0, _, _ => none
  | fuel + 1, items, cs =>
    match scanValue? fuel cs with
    | none => none
    | some (v, cs) =>
      match skipBlanks cs with
      | ',' :: cs => scanItems? fuel (v :: items) cs
      | ']' :: cs => some (.array (v :: items).reverse, cs)
      | _ => none

def scanMembers? : Nat → List (List Piece × Value) → List Char → Option (Value × List Char)
  | 0, _, _ => none
  | fuel + 1, members, cs =>
    match skipBlanks cs with
    | '"' :: cs =>
      match scanString? [] cs with
      | none => none
      | some (key, cs) =>
        match skipBlanks cs with
        | ':' :: cs =>
          match scanValue? fuel cs with
          | none => none
          | some (v, cs) =>
            match skipBlanks cs with
            | ',' :: cs => scanMembers? fuel ((key, v) :: members) cs
            | '\x7d' :: cs => some (.object ((key, v) :: members).reverse, cs)
            | _ => none
        | _ => none
    | _ => none

end

/-- Read a whole document; nothing but blanks may follow it. -/
def Value.read? (text : String) : Option Value :=
  let cs := text.toList
  match scanValue? (2 * cs.length + 2) cs with
  | some (v, rest) => if (skipBlanks rest).isEmpty then some v else none
  | none => none

end LossyLink.Json
