import LossyLink.Simulation.Run
import LossyLink.Text.Utf8

/-! # Reports

What is kept of a simulation once it is over.
-/

namespace LossyLink

/-- A metric with its values over time. -/
structure Series where
  name : String
  values : List (Nat × Float)
  deriving DecidableEq, Repr

structure Report where
  config : Config
  duration : Nat
  /-- The run emptied the queue and was not given up. -/
  completed : Bool
  delivered : List Payload
  senderPackets : Nat
  /-- The metrics in the order of their names. -/
  metrics : List Series
  links : List LinkEvent
  deriving DecidableEq, Repr

/-- The samples of each metric, sorted by name. -/
def Series.ofSamples (samples : List Sample) : List Series :=
  let names := (samples.map Sample.name).eraseDups.mergeSort
  names.map fun name =>
    ⟨name, (samples.filter fun x => x.name == name).map fun x => (x.time, x.value)⟩

def Simulation.report {σ ρ : Type} (s : Simulation σ ρ) : Report where
  config := s.config
  duration := s.clock
  completed := s.completed
  delivered := s.delivered.toList
  senderPackets := s.senderPackets
  metrics := Series.ofSamples s.samples.toList
  links := s.links.toList

/-- The messages delivered, read as text. -/
def Report.deliveredTexts (r : Report) : List String := r.delivered.map Text.decodeUtf8

end LossyLink
