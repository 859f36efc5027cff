/-! # Blanks, line ends and comments

A line ends at a line feed, alone or behind a carriage return. A comment reaches
from `#` to the end of its line.
-/

namespace LossyLink.Toml

def isBlank (c : Char) : Bool := c == ' ' || c == '\t'

def skipBlanks (cs : List Char) : List Char := cs.dropWhile isBlank

/-- A character that may stand in a text or a comment as it is: no control but the tab. -/
def isPlain (c : Char) : Bool := c == '\t' || (0x20 ≤ c.toNat && c.toNat != 0x7F)

/-- Skip a line end at the front. -/
def lineEnd? : List Char → Option (List Char)
  | '\n' :: cs => some cs
  | '\r' :: '\n' :: cs => some cs
  | _ => none

/-- Skip blanks, line ends and comments. -/
def skipLayout? (inComment : Bool) : List Char → Option (List Char)
  | [] => some []
  | '\n' :: cs => skipLayout? false cs
  | '\r' :: '\n' :: cs => skipLayout? false cs
  | c :: cs =>
    if inComment then
      if isPlain c then skipLayout? true cs else none
    else if isBlank c then skipLayout? false cs
    else if c = '#' then skipLayout? true cs
    else some (c :: cs)

/-- Nothing but blanks and a comment may stand before the end of the line. Skip
to the next line that holds more than that. -/
def finishLine? (cs : List Char) : Option (List Char) :=
  let cs := skipBlanks cs
  match cs, lineEnd? cs with
  | [], _ => some []
  | '#' :: cs, _ => skipLayout? true cs
  | _, some cs => skipLayout? false cs
  | _, none => none

theorem length_skipBlanks_le (cs : List Char) : (skipBlanks cs).length ≤ cs.length :=
  (List.dropWhile_sublist isBlank).length_le

theorem length_lineEnd?_lt {cs rest : List Char} (h : lineEnd? cs = some rest) :
    rest.length < cs.length := by
  unfold lineEnd? at h
  split at h <;> cases h <;> simp only [List.length_cons] <;> omega

end LossyLink.Toml
