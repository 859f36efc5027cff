import LossyLink.Decimal.Reader
import LossyLink.Protocol.Catalog

/-! # Settings of the command line -/

namespace LossyLink.CommandLine

/-- An option that takes a value. -/
inductive Setting | sender | receiver | scenario | lossRate | corruptRate | seed | traceOut
  deriving DecidableEq, Repr

namespace Setting

def all : List Setting := [sender, receiver, scenario, lossRate, corruptRate, seed, traceOut]

def name : Setting → String
  | sender => "sender"
  | receiver => "receiver"
  | scenario => "scenario"
  | lossRate => "loss-rate"
  | corruptRate => "corrupt-rate"
  | seed => "seed"
  | traceOut => "trace-out"

/-- The option with a name for its value. -/
def usage (s : Setting) : String :=
  let placeholder := s.name.map fun c => if c = '-' then '_' else c.toUpper
  s!"--{s.name} <{placeholder}>"

def ofName? (name : String) : Option Setting := all.find? fun s => s.name == name

end Setting

structure Settings where
  sender : Protocol := .alternatingBit
  receiver : Protocol := .alternatingBit
  /-- The file of a scenario to run in place of the default. -/
  scenario : Option String := none
  lossRate : Float := 0.1
  corruptRate : Float := 0.0
  seed : UInt64 := 42
  /-- The file to write the report to. -/
  traceOut : Option String := none

/-- Why a text is no value of an option. -/
inductive ValueError where
  | unknownProtocol (cause : UnknownProtocol)
  | emptyInteger
  | invalidDigit
  | tooLarge
  | emptyReal
  | invalidReal
  deriving DecidableEq, Repr

def ValueError.message : ValueError → String
  | unknownProtocol cause => cause.message
  | emptyInteger => "cannot parse integer from empty string"
  | invalidDigit => "invalid digit found in string"
  | tooLarge => "number too large to fit in target type"
  | emptyReal => "cannot parse float from empty string"
  | invalidReal => "invalid float literal"

/-- The number that more digits make of `n`. The first fault from the left is reported. -/
def readDigits (n : Nat) : List Char → Except ValueError Nat
  | [] => .ok n
  | c :: cs =>
    if Text.isDigit c then
      let next := 10 * n + (c.toNat - '0'.toNat)
      if next < UInt64.size then readDigits next cs else .error .tooLarge
    else .error .invalidDigit

/-- A natural number of 64 bits; a plus may stand in front. -/
def readNatural (text : String) : Except ValueError Nat :=
  match text.toList with
  | [] => .error .emptyInteger
  | ['+'] => .error .invalidDigit
  | '+' :: cs => readDigits 0 cs
  | cs => readDigits 0 cs

def readReal (text : String) : Except ValueError Float :=
  if text.isEmpty then .error .emptyReal
  else
    match Decimal.read? text with
    | some x => .ok x
    | none => .error .invalidReal

def readProtocol (text : String) : Except ValueError Protocol :=
  (Protocol.ofName text).mapError .unknownProtocol

end LossyLink.CommandLine
