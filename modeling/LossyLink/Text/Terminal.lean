import LossyLink.Text.Utf8

/-! # Text for a terminal

A log shows the characters that begin or end a control sequence of a terminal by
their numbers. A message marks its parts by control sequences, and is stripped of
all of them where it does not go to a terminal.
-/

namespace LossyLink.Text

def terminalChar (c : Char) : List Char :=
  match c with
  | '\x07' => ['\\', 'x', '0', '7']
  | '\x08' => ['\\', 'x', '0', '8']
  | '\x0c' => ['\\', 'x', '0', 'c']
  | '\x1b' => ['\\', 'x', '1', 'b']
  | '\x7f' => ['\\', 'x', '7', 'f']
  | c =>
    if 0x80 ≤ c.toNat ∧ c.toNat ≤ 0x9f then
      ['\\', 'u', '\x7b'] ++ Nat.toDigits 16 c.toNat ++ ['\x7d']
    else [c]

def forTerminal (text : String) : String := String.ofList (text.toList.flatMap terminalChar)

/-- Text in a style of its own. -/
def emphasized (text : String) : String := "\x1b[1m" ++ text ++ "\x1b[0m"

/-- Where a reader of control sequences is. -/
inductive ControlState where
  /-- Outside of sequences. -/
  | ground
  /-- Behind an escape character. -/
  | escape
  /-- Behind an escape character and some of the signs from space to `/`. -/
  | designation
  /-- In the parameters of a sequence, behind a bracket. -/
  | parameters
  /-- At the head of a text for a device. -/
  | deviceHead
  /-- In the parameters of a text for a device. -/
  | deviceParameters
  /-- Behind signs from space to `/` in the head of a text for a device. -/
  | deviceDesignation
  /-- In a text for a device, or in one for nobody. -/
  | device
  /-- In a text for the terminal itself, which a bell ends. -/
  | command
  deriving DecidableEq, Repr

/-- The state behind an escape character and one more. -/
def ControlState.behindEscape (c : Char) : ControlState :=
  match c with
  | '[' => parameters
  | ']' => command
  | 'P' => deviceHead
  | 'X' => device
  | '^' => device
  | '_' => device
  | c =>
    if ' ' ≤ c ∧ c ≤ '/' then designation
    else if '0' ≤ c ∧ c ≤ '~' then ground
    else escape

/-- The state behind one more character of the head of a text for a device, where `s` is the
state that a parameter leads to and `t` the state behind the signs `<`, `=`, `>` and `?`. -/
def ControlState.behindHead (here s t : ControlState) (c : Char) : ControlState :=
  if ' ' ≤ c ∧ c ≤ '/' then deviceDesignation
  else if '0' ≤ c ∧ c ≤ ';' then s
  else if '<' ≤ c ∧ c ≤ '?' then t
  else if '@' ≤ c ∧ c ≤ '~' then device
  else here

/-- The state behind one more character. An escape character begins a new sequence
anywhere. The byte that ends a text for a device may be part of a longer character. -/
def ControlState.next (s : ControlState) (c : Char) : ControlState :=
  if c = '\x1b' then escape
  else if c = '\x18' ∨ c = '\x1a' then ground
  else
    match s with
    | ground => ground
    | escape => behindEscape c
    | designation => if '0' ≤ c ∧ c ≤ '~' then ground else designation
    | parameters => if '@' ≤ c ∧ c ≤ '~' then ground else parameters
    | deviceHead => behindHead deviceHead deviceParameters deviceParameters c
    | deviceParameters => behindHead deviceParameters deviceParameters device c
    | deviceDesignation => behindHead deviceDesignation device device c
    | device => if 0x9c ∈ encodeUtf8 (String.singleton c) then ground else device
    | command => if c = '\x07' then ground else command

/-- A control character that moves what follows. -/
def isSpacing (c : Char) : Bool := c ∈ ['\t', '\n', '\x0c', '\r']

def isControl (c : Char) : Bool := c < ' ' || c = '\x7f'

/-- Spacing is carried out also in sequences in this state. -/
def ControlState.interruptible : ControlState → Bool
  | ground | escape | designation | parameters => true
  | deviceHead | deviceParameters | deviceDesignation | device | command => false

/-- A character is text outside of sequences. Spacing in a sequence is text as well, and
so is what follows it, up to the next control character. -/
def isTextIn (s : ControlState) (behindText : Bool) (c : Char) : Bool :=
  if isControl c then isSpacing c && (behindText || s.interruptible)
  else behindText || s == .ground

/-- The text among control sequences. -/
def stripFrom (s : ControlState) (behindText : Bool) : List Char → List Char
  | [] => []
  | c :: cs =>
    if isTextIn s behindText c then c :: stripFrom (if c ≤ '~' then s else .ground) true cs
    else stripFrom (s.next c) false cs

def stripControls (text : String) : String :=
  String.ofList (stripFrom .ground false text.toList)

end LossyLink.Text
