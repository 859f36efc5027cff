import LossyLink.Channel.Config
import LossyLink.Json.Decode

/-! # Channel parameters in JSON -/

namespace LossyLink.Config

open Json (Value)

def toJson (c : Config) : Value :=
  .ofFields [("loss_rate", .ofFloat c.lossRate), ("corrupt_rate", .ofFloat c.corruptRate),
    ("min_latency", .ofNat c.minLatency), ("max_latency", .ofNat c.maxLatency),
    ("seed", .ofNat c.seed.toNat)]

/-- A field that is there has to be of its type; one that is not has its default. -/
def fieldOr {α : Type} (default : α) (read : Value → Option α) : Option Value → Option α
  | none => some default
  | some v => read v

def ofJson? (v : Value) : Option Config := do
  let base : Config := {}
  match ← v.record? ["loss_rate", "corrupt_rate", "min_latency", "max_latency", "seed"] with
  | [loss, corrupt, min, max, seed] =>
    return {
      lossRate := ← fieldOr base.lossRate Value.float? loss
      corruptRate := ← fieldOr base.corruptRate Value.float? corrupt
      minLatency := ← fieldOr base.minLatency (Value.natBelow? UInt64.size) min
      maxLatency := ← fieldOr base.maxLatency (Value.natBelow? UInt64.size) max
      seed := ← fieldOr base.seed
        (fun v => (v.natBelow? UInt64.size).map UInt64.ofNat) seed }
  | _ => none

end LossyLink.Config
