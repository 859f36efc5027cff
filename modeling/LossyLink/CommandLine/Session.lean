import LossyLink.CommandLine.Arguments
import LossyLink.Json.Printer
import LossyLink.Json.Report
import LossyLink.Scenario.File

/-! # One run of the program

The settings decide what is simulated: a scenario from a file, or three packets
over a channel with the given rates. A report is summed up in the log and, if
there is a file for it, written as a trace.
-/

namespace LossyLink

namespace Notice

def programStarted : Notice := info "rdt-lab-sim-cli starting…"

def defaultStarted (sender receiver : Protocol) : Notice :=
  info s!"Starting default headless simulation ({sender.name} -> {receiver.name})…"

/-- The summary of a report, and every text delivered with its number. -/
def ofReport (r : Report) : List Notice :=
  let summary := s!"Simulation finished at {r.duration}ms (completed: {r.completed}), " ++
    s!"{r.senderPackets} packets from sender, {r.delivered.length} messages delivered"
  info summary :: r.deliveredTexts.mapIdx fun i text => info s!"  #{i}: {Text.quote text}"

end Notice

namespace CommandLine

/-- What a run logs, and its report or the messages of its failure. -/
structure Session where
  notices : List Notice
  result : Except (List String) Report

/-- The messages of a failure as they are shown: each cause below what it caused. -/
def failureText : List String → String
  | [] => ""
  | [message] => s!"Error: {message}"
  | message :: causes =>
    let indented := causes.map fun cause => "    " ++ cause
    s!"Error: {message}\n\nCaused by:\n" ++ "\n".intercalate indented

def writeFailure (path : String) (fault : FileFault) : List String :=
  [s!"Failed to write trace file {path}", fault.message]

/-- The text of a trace file. -/
def traceText (r : Report) : String := r.toJson.pretty

namespace Settings

/-- The channel of the default run. -/
def config (s : Settings) : Config where
  lossRate := s.lossRate
  corruptRate := s.corruptRate
  minLatency := 100
  maxLatency := 500
  seed := s.seed

/-- What the default run submits, and when. -/
def submissions : List (Nat × String) :=
  [(1000, "Packet 1"), (5000, "Packet 2"), (10000, "Packet 3")]

def runDefault (s : Settings) : Except ClockOverflow Session := do
  let ⟨_, sender⟩ := s.sender.sender
  let ⟨_, receiver⟩ := s.receiver.receiver
  let ends := { sender, receiver }
  match Simulation.create s.config ends with
  | .error e => return ⟨[], .error ["Invalid channel parameters", e.message]⟩
  | .ok sim =>
    let sim := submissions.foldl (fun sim x => sim.submitAt x.1 (Text.encodeUtf8 x.2)) sim
    let started := Notice.defaultStarted s.sender s.receiver
    let (_, sim) ← (sim.run ends Simulation.defaultLimit).mapError (·.preceded [started])
    return ⟨started :: sim.notices.toList, .ok sim.report⟩

/-- Run the scenario in a file, given what the file holds. -/
def runScenario (s : Settings) (path : String) (contents : Except FileFault String) :
    Except ClockOverflow Session := do
  let ⟨_, sender⟩ := s.sender.sender
  let ⟨_, receiver⟩ := s.receiver.receiver
  match Scenario.ofFile path contents with
  | .error e => return ⟨[], .error e.report⟩
  | .ok c =>
    let outcome ← c.run { sender, receiver }
    return ⟨outcome.notices, outcome.result.mapError Scenario.Failure.chain⟩

/-- Run what the settings ask for. -/
def run (s : Settings) (read : String → Except FileFault String) :
    Except ClockOverflow Session := do
  let session := match s.scenario with
    | some path => s.runScenario path (read path)
    | none => s.runDefault
  let session ← session.mapError (·.preceded [.programStarted])
  let summary := match session.result with
    | .ok r => Notice.ofReport r
    | .error _ => []
  return ⟨.programStarted :: session.notices ++ summary, session.result⟩

end Settings

end CommandLine

end LossyLink
