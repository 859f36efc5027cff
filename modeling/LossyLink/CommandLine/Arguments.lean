import LossyLink.CommandLine.Settings
import LossyLink.Text.Terminal

/-! # Arguments of the command line

A value stands behind its option, in the same argument after `=` or in the next
one. In the next argument it is read only once the following option or the end
is reached, so that an argument nobody knows is reported first.
-/

namespace LossyLink.CommandLine

open Text (emphasized stripControls)

inductive UsageError where
  | invalidValue (value : String) (setting : Setting) (cause : ValueError)
  | missingValue (setting : Setting)
  | repeated (setting : Setting)
  | unexpectedArgument (argument : String)
  | unexpectedValue (value flag : String)
  deriving DecidableEq, Repr

/-- What is wrong, with the parts that name something in a style of their own. -/
def UsageError.message : UsageError → String
  | invalidValue value setting cause =>
    s!"invalid value '{emphasized value}' for '{emphasized setting.usage}': {cause.message}"
  | missingValue setting =>
    s!"a value is required for '{emphasized setting.usage}' but none was supplied"
  | repeated setting =>
    s!"the argument '{emphasized setting.usage}' cannot be used multiple times"
  | unexpectedArgument argument => s!"unexpected argument '{emphasized argument}' found"
  | unexpectedValue value flag =>
    s!"unexpected value '{emphasized value}' for '{emphasized flag}' found; " ++
      "no more were expected"

/-- What is shown to the user, who may use no terminal. -/
def UsageError.report (e : UsageError) : String :=
  let hint := "For more information, try '" ++ emphasized "--help" ++ "'."
  stripControls (emphasized "error:" ++ " " ++ e.message ++ "\n\n" ++ hint)

inductive Request where
  | run (s : Settings)
  | help
  | version

/-- An argument by its form. -/
inductive Form where
  | plain (text : String)
  /-- Everything behind two dashes alone is plain. -/
  | dashes
  | long (name : String) (value : Option String)
  | short (letter : Char)
  deriving DecidableEq, Repr

/-- Split at the first sign of equality. -/
def splitValue (cs : List Char) : String × Option String :=
  match cs.span (· != '=') with
  | (name, _ :: value) => (String.ofList name, some (String.ofList value))
  | (name, []) => (String.ofList name, none)

def Form.ofText (text : String) : Form :=
  match text.toList with
  | ['-', '-'] => dashes
  | '-' :: '-' :: cs => long (splitValue cs).1 (splitValue cs).2
  | '-' :: letter :: _ => short letter
  | _ => plain text

/-- Arguments read in part: the settings made, the options given, and the option
whose value has not been read yet. -/
structure Progress where
  settings : Settings := {}
  given : List Setting := []
  pending : Option (Setting × Option String) := none

/-- A file is named by any text but the empty one. -/
def readPath (setting : Setting) (value : String) : Except UsageError String :=
  if value.isEmpty then .error (.missingValue setting) else .ok value

/-- Settings with one of them set to what a text says. -/
def Settings.set (s : Settings) (setting : Setting) (value : String) :
    Except UsageError Settings := do
  let checked {α : Type} (read : String → Except ValueError α) : Except UsageError α :=
    (read value).mapError (.invalidValue value setting)
  match setting with
  | .sender => return { s with sender := ← checked readProtocol }
  | .receiver => return { s with receiver := ← checked readProtocol }
  | .scenario => return { s with scenario := some (← readPath setting value) }
  | .lossRate => return { s with lossRate := ← checked readReal }
  | .corruptRate => return { s with corruptRate := ← checked readReal }
  | .seed => return { s with seed := .ofNat (← checked readNatural) }
  | .traceOut => return { s with traceOut := some (← readPath setting value) }

namespace Progress

/-- Take the value of an option, which may be given once. -/
def take (p : Progress) (setting : Setting) (value : String) : Except UsageError Progress :=
  if setting ∈ p.given then .error (.repeated setting)
  else do
    let settings ← p.settings.set setting value
    return { settings, given := setting :: p.given }

/-- Take the value of the pending option. -/
def resolve (p : Progress) : Except UsageError Progress :=
  match p.pending with
  | none => .ok p
  | some (setting, none) => .error (.missingValue setting)
  | some (setting, some value) => p.take setting value

/-- Answer a flag that takes no value. -/
def answer (p : Progress) (request : Request) (flag : String) :
    Option String → Except UsageError Request
  | some value => .error (.unexpectedValue value flag)
  | none => p.resolve.map fun _ => request

def finish (p : Progress) : Except UsageError Request :=
  p.resolve.map fun p => .run p.settings

def read (p : Progress) : List String → Except UsageError Request
  | [] => p.finish
  | argument :: rest =>
    match Form.ofText argument with
    | .dashes =>
      match rest with
      | [] => p.finish
      | first :: _ => .error (.unexpectedArgument first)
    | .long name value =>
      match Setting.ofName? name, value with
      | some setting, none => do
        read { ← p.resolve with pending := some (setting, none) } rest
      | some setting, some value => do read (← (← p.resolve).take setting value) rest
      | none, value =>
        if name = "help" then p.answer .help "--help" value
        else if name = "version" then p.answer .version "--version" value
        else .error (.unexpectedArgument s!"--{name}")
    | .short letter =>
      if letter = 'h' then p.answer .help "--help" none
      else if letter = 'V' then p.answer .version "--version" none
      else .error (.unexpectedArgument s!"-{letter}")
    | .plain text =>
      match p.pending with
      | some (setting, none) => read { p with pending := some (setting, some text) } rest
      | _ => .error (.unexpectedArgument text)

end Progress

def Request.ofArguments (arguments : List String) : Except UsageError Request :=
  Progress.read {} arguments

end LossyLink.CommandLine
