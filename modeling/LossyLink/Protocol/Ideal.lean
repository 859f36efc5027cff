import LossyLink.Protocol.Endpoint

/-! # The protocol of an ideal channel

On a channel that loses and damages nothing it is enough to send every message
once and to deliver every packet. There are no checksums, acknowledgements or
timers.
-/

namespace LossyLink.Ideal

namespace Sender

def react : Stimulus → List Action
  | .init => [.log "RDT1 sender ready (ideal channel)"]
  | .packet p => [.log s!"RDT1 sender ignoring inbound packet seq={p.header.seq}"]
  | .timer _ => []
  | .app data =>
    [.log s!"RDT1 sender pushing {data.length} bytes to channel", .send { payload := data }]

end Sender

namespace Receiver

def react : Stimulus → List Action
  | .init => [.log "RDT1 receiver ready (ideal channel)"]
  | .packet p =>
    [.log s!"RDT1 receiver delivering {p.payload.length} bytes", .deliver p.payload]
  | .timer _ => []
  | .app data => [.log s!"RDT1 receiver ignoring outbound app data of len {data.length}"]

end Receiver

def sender : Endpoint Unit := { start := (), react := fun _ x _ => ((), Sender.react x) }

def receiver : Endpoint Unit := { start := (), react := fun _ x _ => ((), Receiver.react x) }

end LossyLink.Ideal
