import LossyLink.Channel.Config
import LossyLink.Random.Generator

/-! # What becomes of a packet

The channel draws once for loss, once for damage and once for the latency, in
that order. A lost packet ends the draws after the first; a rate of zero or a
single possible latency saves none.
-/

namespace LossyLink

inductive Fate where
  | lost
  | arrives (damaged : Bool) (latency : Nat)
  deriving DecidableEq, Repr

/-- A random fraction falls below the rate. -/
def Generator.hits (g : Generator) (rate : Float) : Bool × Generator :=
  let (parts, g) := g.fraction
  ((Binary64.ofFloat rate).exceeds 53 parts, g)

def Config.drawFate (c : Config) (g : Generator) : Fate × Generator :=
  let (lost, g) := g.hits c.lossRate
  if lost then (.lost, g)
  else
    let (damaged, g) := g.hits c.corruptRate
    let (latency, g) := g.between c.minLatency c.maxLatency
    (.arrives damaged latency, g)

theorem Generator.hits_zero (g : Generator) : (g.hits 0.0).1 = false := by
  simp [hits, Binary64.ofFloat_zero]

theorem Config.latency_of_drawFate {c : Config} (h : c.minLatency ≤ c.maxLatency)
    {g : Generator} {damaged : Bool} {latency : Nat}
    (hf : (c.drawFate g).1 = .arrives damaged latency) :
    c.minLatency ≤ latency ∧ latency ≤ c.maxLatency := by
  unfold drawFate at hf
  simp only at hf
  split at hf
  · cases hf
  · injection hf with _ hl
    exact hl ▸ Generator.between_mem h _

end LossyLink
