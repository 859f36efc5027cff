import LossyLink.Decimal.Style

/-! # Channel parameters

How often the channel loses and damages packets, how long the others take, and
the seed of its random choices.
-/

namespace LossyLink

structure Config where
  lossRate : Float := 0.0
  corruptRate : Float := 0.0
  minLatency : Nat := 10
  maxLatency : Nat := 100
  seed : UInt64 := 0
  deriving DecidableEq, Repr, Inhabited

/-- Why parameters describe no channel. -/
inductive ConfigError where
  | rateOutOfRange (name : String) (value : Float)
  | latencyRange (min max : Nat)
  deriving DecidableEq, Repr

namespace ConfigError

def message : ConfigError → String
  | rateOutOfRange name value =>
    s!"{name} must be within [0, 1], got {Decimal.Style.plain.write value}"
  | latencyRange min max => s!"min_latency ({min}) exceeds max_latency ({max})"

end ConfigError

/-- A probability: neither a NaN nor outside the closed unit interval. -/
def isProbability (x : Float) : Bool := 0.0 ≤ x && x ≤ 1.0

namespace Config

/-- The first fault, in the order of the fields. -/
def validate (c : Config) : Except ConfigError Unit :=
  if !isProbability c.lossRate then .error (.rateOutOfRange "loss_rate" c.lossRate)
  else if !isProbability c.corruptRate then .error (.rateOutOfRange "corrupt_rate" c.corruptRate)
  else if c.maxLatency < c.minLatency then .error (.latencyRange c.minLatency c.maxLatency)
  else .ok ()

structure Valid (c : Config) : Prop where
  lossRate : isProbability c.lossRate = true
  corruptRate : isProbability c.corruptRate = true
  latency : c.minLatency ≤ c.maxLatency

theorem validate_eq_ok_iff (c : Config) : c.validate = .ok () ↔ c.Valid := by
  unfold validate
  constructor
  · intro h
    split at h
    · cases h
    · split at h
      · cases h
      · split at h
        · cases h
        · exact ⟨by simp_all, by simp_all, by omega⟩
  · rintro ⟨hl, hc, hm⟩
    simp [hl, hc, Nat.not_lt.mpr hm]

/-- Parameters to set, leaving the others alone. -/
structure Override where
  lossRate : Option Float := none
  corruptRate : Option Float := none
  minLatency : Option Nat := none
  maxLatency : Option Nat := none
  seed : Option UInt64 := none
  deriving DecidableEq, Repr, Inhabited

def override (c : Config) (o : Override) : Config where
  lossRate := o.lossRate.getD c.lossRate
  corruptRate := o.corruptRate.getD c.corruptRate
  minLatency := o.minLatency.getD c.minLatency
  maxLatency := o.maxLatency.getD c.maxLatency
  seed := o.seed.getD c.seed

@[simp] theorem override_empty (c : Config) : c.override {} = c := rfl

end Config

end LossyLink
