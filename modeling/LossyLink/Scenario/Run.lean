import LossyLink.Scenario.Verdict

/-! # Running a scenario

A scenario is laid over the default channel, its actions are scheduled, the run
goes on until the queue is empty or the usual limit is reached, and the report
is judged.
-/

namespace LossyLink

/-- Why a scenario has no passing report. -/
inductive Scenario.Failure where
  | config (name : String) (cause : ConfigError)
  | violation (name : String) (cause : Scenario.Violation)
  deriving DecidableEq, Repr

/-- The messages of a failure, from the most general to its cause. -/
def Scenario.Failure.chain : Scenario.Failure → List String
  | config name cause => [s!"Invalid channel config in scenario '{name}'", cause.message]
  | violation name cause => [s!"Scenario '{name}' failed", cause.message]

namespace Notice

def scenarioStarted (name description : String) : Notice :=
  info s!"Running scenario '{name}': {description}"

def scenarioPassed (name : String) : Notice := info s!"Scenario '{name}' passed"

end Notice

namespace Scenario

variable {σ ρ : Type}

/-- What an action asks of a simulation. -/
def Action.preparation : Action → Preparation
  | .submit time data => .submit time (Text.encodeUtf8 data)
  | .dropSeq seq => .dropSeq seq
  | .dropAck ack => .dropAck ack

/-- The simulation of a scenario before its run. -/
def build (c : Scenario) (ends : Ends σ ρ) : Except ConfigError (Simulation σ ρ) :=
  (Simulation.create (Config.override {} c.config) ends).map fun s =>
    s.prepare (c.actions.map Action.preparation)

/-- The result of a scenario with the log of its run. -/
structure Outcome where
  result : Except Failure Report
  notices : List Notice

def run (c : Scenario) (ends : Ends σ ρ) : Except ClockOverflow Outcome :=
  let started := Notice.scenarioStarted c.name c.description
  match c.build ends with
  | .error e => .ok ⟨.error (.config c.name e), [started]⟩
  | .ok s =>
    match s.run ends Simulation.defaultLimit with
    | .error o => .error (o.preceded [started])
    | .ok (_, s) =>
      let notices := started :: s.notices.toList
      match judge s.report c.assertions with
      | .error v => .ok ⟨.error (.violation c.name v), notices⟩
      | .ok () => .ok ⟨.ok s.report, notices ++ [.scenarioPassed c.name]⟩

end Scenario

end LossyLink
