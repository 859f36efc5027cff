import LossyLink.CommandLine.Session
import LossyLink.Text.Terminal

/-! # The program -/

namespace LossyLink

def helpText : String := "\n".intercalate <|
  "Headless reliable-data-transfer simulator" :: "" :: "Options:" ::
    CommandLine.Setting.all.map (fun s => "  " ++ s.usage) ++ ["  --help", "  --version"]

/-- The kind of a fault of the file system. -/
def FileFault.ofError : IO.Error → FileFault
  | .noFileOrDirectory .. => notFound
  | .inappropriateType _ 20 _ => notDirectory
  | .inappropriateType .. => isDirectory
  | .permissionDenied .. => notPermitted
  | .resourceExhausted .. => noSpace
  | .invalidArgument .. => nameTooLong
  | _ => notText

def printNotice (n : Notice) : IO Unit :=
  let level := match n.level with
    | .info => " INFO"
    | .warn => " WARN"
  IO.println s!"{level} {Text.forTerminal n.text}"

/-- What a file holds. -/
def readFile (path : String) : IO (Except FileFault String) := do
  try
    return .ok (← IO.FS.readFile path)
  catch e =>
    return .error (.ofError e)

/-- Write a file; `none` if that succeeds. -/
def writeFile (path text : String) : IO (Option FileFault) := do
  try
    IO.FS.writeFile path text
    return none
  catch e =>
    return some (.ofError e)

def runSettings (s : CommandLine.Settings) : IO UInt32 := do
  let contents ← match s.scenario with
    | some path => readFile path
    | none => pure (.error .notFound)
  match s.run fun _ => contents with
  | .error o =>
    o.notices.forM printNotice
    IO.eprintln o.message
    return 101
  | .ok session =>
    session.notices.forM printNotice
    match session.result, s.traceOut with
    | .error messages, _ =>
      IO.eprintln (CommandLine.failureText messages)
      return 1
    | .ok _, none => return 0
    | .ok r, some path =>
      match ← writeFile path (CommandLine.traceText r) with
      | none => return 0
      | some fault =>
        IO.eprintln (CommandLine.failureText (CommandLine.writeFailure path fault))
        return 1

end LossyLink

def main (arguments : List String) : IO UInt32 :=
  match LossyLink.CommandLine.Request.ofArguments arguments with
  | .error e => do
    IO.eprintln e.report
    return 2
  | .ok .help => do
    IO.println LossyLink.helpText
    return 0
  | .ok .version => do
    IO.println "0.1.0"
    return 0
  | .ok (.run s) => LossyLink.runSettings s
