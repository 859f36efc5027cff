import LossyLink.Scenario.Decode
import LossyLink.Scenario.Run
import LossyLink.Toml.Data
import LossyLink.Toml.Document

/-! # Scenario files

A scenario is written in TOML. Reading one fails if the file cannot be read, if
its text is no TOML document, or if the document describes no scenario.
-/

namespace LossyLink

/-- Why a file cannot be read or written. -/
inductive FileFault
  | notFound | isDirectory | notDirectory | notPermitted | noSpace | nameTooLong | notText
  deriving DecidableEq, Repr

def FileFault.message : FileFault → String
  | notFound => "No such file or directory (os error 2)"
  | isDirectory => "Is a directory (os error 21)"
  | notDirectory => "Not a directory (os error 20)"
  | notPermitted => "Permission denied (os error 13)"
  | noSpace => "No space left on device (os error 28)"
  | nameTooLong => "File name too long (os error 36)"
  | notText => "stream did not contain valid UTF-8"

namespace Scenario

/-- Why a text is no scenario. -/
inductive TextError where
  | malformed
  | mismatch (cause : Mismatch)
  deriving Repr

namespace TextError

/-- A text that is no document is not explained. -/
def message? : TextError → Option String
  | malformed => none
  | mismatch cause => some (cause.message .toml)

/-- What is shown to the user. -/
def report (e : TextError) : String :=
  "TOML parse error" ++ ((e.message?.map (": " ++ ·)).getD "")

end TextError

def ofText (text : String) : Except TextError Scenario :=
  match Toml.read? text with
  | none => .error .malformed
  | some entries =>
    (ofData .toml (Toml.Value.table entries).toData).mapError .mismatch

/-- Why a file holds no scenario. -/
inductive FileError where
  | unreadable (path : String) (fault : FileFault)
  | unparsable (path : String) (cause : TextError)
  deriving Repr

namespace FileError

def summary : FileError → String
  | unreadable path _ => s!"Failed to read scenario file {path}"
  | unparsable path _ => s!"Failed to parse scenario file {path}"

/-- The messages of an error, from the most general to its cause. -/
def chain (e : FileError) : List String :=
  match e with
  | unreadable _ fault => [e.summary, fault.message]
  | unparsable _ cause => e.summary :: cause.message?.toList

/-- The same as shown to the user. -/
def report (e : FileError) : List String :=
  match e with
  | unreadable _ fault => [e.summary, fault.message]
  | unparsable _ cause => [e.summary, cause.report]

end FileError

/-- The scenario in a file, given what the file holds. -/
def ofFile (path : String) : Except FileFault String → Except FileError Scenario
  | .error fault => .error (.unreadable path fault)
  | .ok text => (ofText text).mapError (.unparsable path)

end Scenario

end LossyLink
