import LossyLink.Toml.Layout
import LossyLink.Toml.Moment
import LossyLink.Toml.Value

/-! # Values without quotes

Such a value is a boolean, an integer, a decimal number, or a moment. It goes on
as long as words follow, and blanks between them are part of it. Digits of a
number may be set apart by single underscores. Digits with an underscore behind
them are an integer whatever follows, and so is `0x`, `0o` or `0b` alone, but such
an integer may have no value.
-/

namespace LossyLink.Toml

open Text (isDigit splitSign)

/-- A character of a word: all but blanks, line ends and the signs that stand around values. -/
def isWordChar (c : Char) : Bool :=
  c ∉ ['=', ',', '[', ']', '\x7b', '\x7d', '#', ' ', '\t', '\r', '\n']

def isHexDigit (c : Char) : Bool := (Text.hexValue? c).isSome

/-- Drop the underscores of a nonempty row of digits. Each has a digit on both sides, be it
one of base sixteen. -/
def dropUnderscores? (cs : List Char) : Option (List Char) :=
  match cs with
  | [] => none
  | [c] => if c = '_' then none else some [c]
  | c :: '_' :: d :: rest =>
    if isHexDigit c ∧ isHexDigit d then (dropUnderscores? (d :: rest)).map (c :: ·) else none
  | c :: d :: rest => if c = '_' then none else (dropUnderscores? (d :: rest)).map (c :: ·)

/-- The integer that digits write behind a sign. -/
def signed (negative : Bool) (digits : List Char) : Int :=
  let n : Int := Decimal.ofDigits digits
  if negative then -n else n

def integerIn? (base : Nat) (cs : List Char) : Option (Option Int) :=
  if cs.isEmpty then some none
  else ((dropUnderscores? cs).bind (Text.ofDigits? base)).map fun n => some (Int.ofNat n)

/-- A character that makes a number a decimal. -/
def isDecimalMark (c : Char) : Bool := c == '.' || c == 'e' || c == 'E'

/-- Digits alone, or with an underscore behind them and anything but a space and the mark of
a decimal. A zero does not stand in front of others. -/
def isIntegerRow : List Char → Bool
  | [] => false
  | '0' :: _ :: _ => false
  | c :: cs =>
    let rest := cs.dropWhile isDigit
    isDigit c && (rest.isEmpty || rest.head? == some '_')
      && !rest.any (fun d => d == ' ' || isDecimalMark d)

/-- An integer, which has a value if nothing but digits is in it. -/
def integer? : List Char → Option (Option Int)
  | '0' :: 'x' :: cs => integerIn? 16 cs
  | '0' :: 'o' :: cs => integerIn? 8 cs
  | '0' :: 'b' :: cs => integerIn? 2 cs
  | cs =>
    let (negative, row) := splitSign cs
    if isIntegerRow row then
      (dropUnderscores? row).map fun digits =>
        if digits.all isDigit then some (signed negative digits) else none
    else none

/-- Digits behind a point or an `e`, which may begin with zeros. -/
def anyDigits? (cs : List Char) : Option (List Char) :=
  (dropUnderscores? cs).filter fun digits => digits.all isDigit

/-- The digits of a whole part; a zero does not stand in front of others. -/
def wholeDigits? (cs : List Char) : Option (List Char) :=
  match anyDigits? cs with
  | some ('0' :: _ :: _) => none
  | digits => digits

/-- An exponent, behind its `e`. -/
def exponent? (cs : List Char) : Option Int :=
  let (negative, cs) := splitSign cs
  (anyDigits? cs).map (signed negative)

/-- A whole part with a fraction, an exponent or both. -/
def decimal? (cs : List Char) : Option Decimal.Literal := do
  let (negative, cs) := splitSign cs
  let isDigitChar (c : Char) : Bool := isDigit c || c == '_'
  let isE (c : Char) : Bool := c == 'e' || c == 'E'
  let (whole, cs) := cs.span isDigitChar
  let whole ← wholeDigits? whole
  match cs with
  | '.' :: cs =>
    match cs.span isDigitChar with
    | (fraction, []) => return { negative, whole, fraction := ← anyDigits? fraction }
    | (fraction, c :: cs) =>
      if isE c then
        return { negative, whole, fraction := ← anyDigits? fraction, exponent := ← exponent? cs }
      else none
  | c :: cs => if isE c then return { negative, whole, exponent := ← exponent? cs } else none
  | [] => none

/-- The infinity and the number that is none, under a sign or without. -/
def special? (cs : List Char) : Option Value :=
  match splitSign cs with
  | (negative, ['i', 'n', 'f']) => some (.infinity negative)
  | (_, ['n', 'a', 'n']) => some .nan
  | _ => none

def ofWords? (cs : List Char) : Option Value :=
  if cs = ['t', 'r', 'u', 'e'] then some (.boolean true)
  else if cs = ['f', 'a', 'l', 's', 'e'] then some (.boolean false)
  else if isMoment cs then some .moment
  else (special? cs).or (((integer? cs).map .integer).or ((decimal? cs).map .decimal))

/-- Take words and the blanks between them off the front; `word` and `blanks` hold, from the
last one on, what was taken before. A quote behind blanks begins something else. -/
def takeWords (word blanks : List Char) : List Char → List Char × List Char
  | [] => (word.reverse, [])
  | c :: cs =>
    if isBlank c then takeWords word (c :: blanks) cs
    else if isWordChar c && (blanks.isEmpty || (c != '"' && c != '\'')) then
      takeWords (c :: (blanks ++ word)) [] cs
    else (word.reverse, c :: cs)

/-- Read a value without quotes, which ends where no more words follow. -/
def scanWords? (cs : List Char) : Option (Value × List Char) :=
  let (words, rest) := takeWords [] [] cs
  (ofWords? words).map (·, rest)

end LossyLink.Toml
