import LossyLink.Json.Config
import LossyLink.Report

/-! # Reports in JSON -/

namespace LossyLink

open Json (Value)

def LinkEvent.toJson (e : LinkEvent) : Value :=
  .ofFields [("time", .ofNat e.time), ("description", .ofText e.description)]

def Series.toJson (s : Series) : Value :=
  .array (s.values.map fun x => .array [.ofNat x.1, .ofFloat x.2])

def Report.toJson (r : Report) : Value :=
  .ofFields [
    ("config", r.config.toJson),
    ("duration_ms", .ofNat r.duration),
    ("completed", .bool r.completed),
    ("delivered_data", .array (r.delivered.map fun d => .array (d.map fun b => .ofNat b.toNat))),
    ("sender_packet_count", .ofNat r.senderPackets),
    ("metrics", .ofFields (r.metrics.map fun s => (s.name, s.toJson))),
    ("link_events", .array (r.links.map LinkEvent.toJson))]

end LossyLink
