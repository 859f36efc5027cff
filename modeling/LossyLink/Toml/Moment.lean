import LossyLink.Text.Digit

/-! # Dates and times

A moment is a date, a time of day, or both; with both, an offset from universal
time may follow. The seconds of a time may be left out.
-/

namespace LossyLink.Toml

open Text (ofDigits?)

def isLeapYear (year : Nat) : Bool :=
  year % 4 == 0 && (year % 100 != 0 || year % 400 == 0)

def daysInMonth (year month : Nat) : Nat :=
  if month = 2 then (if isLeapYear year then 29 else 28)
  else if month ∈ [4, 6, 9, 11] then 30
  else 31

/-- Two digits that write a number of at most `limit`. -/
def twoDigits? (limit : Nat) (a b : Char) : Option Nat :=
  (ofDigits? 10 [a, b]).filter (· ≤ limit)

/-- Skip a date at the front. -/
def skipDate? : List Char → Option (List Char)
  | y₁ :: y₂ :: y₃ :: y₄ :: '-' :: m₁ :: m₂ :: '-' :: d₁ :: d₂ :: cs => do
    let year ← ofDigits? 10 [y₁, y₂, y₃, y₄]
    let month ← twoDigits? 12 m₁ m₂
    let day ← twoDigits? (daysInMonth year month) d₁ d₂
    if 0 < month ∧ 0 < day then some cs else none
  | _ => none

def skipFraction? : List Char → Option (List Char)
  | '.' :: c :: cs => if Text.isDigit c then some (cs.dropWhile Text.isDigit) else none
  | ['.'] => none
  | cs => some cs

/-- Skip a time of day at the front. A minute may have a leap second. -/
def skipTime? : List Char → Option (List Char)
  | h₁ :: h₂ :: ':' :: m₁ :: m₂ :: cs => do
    let _ ← twoDigits? 23 h₁ h₂
    let _ ← twoDigits? 59 m₁ m₂
    match cs with
    | ':' :: s₁ :: s₂ :: cs =>
      let _ ← twoDigits? 60 s₁ s₂
      skipFraction? cs
    | cs => some cs
  | _ => none

/-- What is left behind date and time is an offset or nothing. -/
def isOffset : List Char → Bool
  | [] => true
  | ['Z'] => true
  | ['z'] => true
  | [sign, h₁, h₂, ':', m₁, m₂] =>
    (sign == '+' || sign == '-') && (twoDigits? 23 h₁ h₂).isSome && (twoDigits? 59 m₁ m₂).isSome
  | _ => false

def isMoment (cs : List Char) : Bool :=
  match skipDate? cs with
  | some [] => true
  | some (sep :: rest) =>
    (sep == 'T' || sep == 't' || sep == ' ') && ((skipTime? rest).map isOffset).getD false
  | none => skipTime? cs == some []

end LossyLink.Toml
