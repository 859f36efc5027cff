import LossyLink.Text.Hidden

/-! # Quoted text

Text between quotes on one line: quotes, backslashes and the common controls
are written with a backslash, every other hidden character by its number.
-/

namespace LossyLink.Text

def hexNumber (n : Nat) : List Char := Nat.toDigits 16 n

/-- How a character stands between quotes. -/
def quoteChar (c : Char) : List Char :=
  match c with
  | '"' => ['\\', '"']
  | '\\' => ['\\', '\\']
  | '\n' => ['\\', 'n']
  | '\r' => ['\\', 'r']
  | '\t' => ['\\', 't']
  | '\x00' => ['\\', '0']
  | c => if isHidden c then ['\\', 'u', '\x7b'] ++ hexNumber c.toNat ++ ['\x7d'] else [c]

def quote (text : String) : String :=
  String.ofList ('"' :: text.toList.flatMap quoteChar ++ ['"'])

/-- Quoted texts in brackets, with commas between them. -/
def quoteList (texts : List String) : String :=
  "[" ++ ", ".intercalate (texts.map quote) ++ "]"

end LossyLink.Text
