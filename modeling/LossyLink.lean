import LossyLink.Json.Data
import LossyLink.Json.Packet
import LossyLink.Main
import LossyLink.Protocol.Recording
import LossyLink.Protocol.Scripted
import LossyLink.Proofs.Simulation.Situation
import LossyLink.Proofs.StopAndWait.Exchange
import LossyLink.Proofs.Simulation.Coherence
import LossyLink.Proofs.Simulation.History
import LossyLink.Proofs.StopAndWait.Sides
import LossyLink.Proofs.StopAndWait.Ticking
import LossyLink.Proofs.StopAndWait.Attendance
import LossyLink.Proofs.StopAndWait.Senders
import LossyLink.Proofs.Simulation.Posting
import LossyLink.Proofs.StopAndWait.Budget
import LossyLink.Proofs.StopAndWait.Termination
import LossyLink.Proofs.Queued.Termination
import LossyLink.Proofs.StopAndWait.Tracking
import LossyLink.Proofs.StopAndWait.Regime
import LossyLink.Proofs.StopAndWait.Delivery
import LossyLink.Proofs.AlternatingBit.Sides
import LossyLink.Proofs.Queued.Sides
import LossyLink.Proofs.Simulation.Submission
import LossyLink.Proofs.AlternatingBit.Delivery
import LossyLink.Proofs.Queued.Delivery
import LossyLink.Proofs.AlternatingBit.Overtaking
import LossyLink.Proofs.Simulation.Reference
import LossyLink.Proofs.Simulation.Lockstep
import LossyLink.Proofs.Simulation.TimerLog
import LossyLink.Proofs.Simulation.Replacement
import LossyLink.Proofs.Simulation.Passage
import LossyLink.Proofs.Simulation.LinkLog
import LossyLink.Proofs.Simulation.Conservation
import LossyLink.Proofs.StopAndWait.Course
import LossyLink.Proofs.StopAndWait.Following
import LossyLink.Proofs.StopAndWait.Accounting
import LossyLink.Proofs.AlternatingBit.Accounting
import LossyLink.Proofs.Queued.Accounting
import LossyLink.Proofs.AlternatingBit.Termination
import LossyLink.Proofs.Simulation.Congruence
import LossyLink.Proofs.Simulation.Channel
import LossyLink.Proofs.Simulation.Sequence
import LossyLink.Proofs.Simulation.Operation
import LossyLink.Proofs.Simulation.Clock
import LossyLink.Proofs.Ideal.Delivery
import LossyLink.Proofs.Simulation.Chance
import LossyLink.Proofs.Simulation.Rules
import LossyLink.Proofs.Simulation.Session
import LossyLink.Proofs.Simulation.Agenda
import LossyLink.Proofs.Scenario.Order
import LossyLink.Proofs.StopAndWait.Provenance
import LossyLink.Proofs.AlternatingBit.Integrity
import LossyLink.Proofs.Simulation.Records
import LossyLink.Proofs.Simulation.Bisimulation
import LossyLink.Proofs.Simulation.Renewal
import LossyLink.Proofs.Binary64.Whole
import LossyLink.Proofs.Protocol.Reaction
import LossyLink.Proofs.AlternatingBit.Environment
import LossyLink.Proofs.Queued.Environment
import LossyLink.Proofs.AlternatingBit.Reception
import LossyLink.Proofs.StopAndWait.Receivers
import LossyLink.Proofs.Packet.Codec
import LossyLink.Proofs.Packet.OnesComplement
import LossyLink.Proofs.Packet.Detection
import LossyLink.Proofs.Protocol.Frugal
import LossyLink.Proofs.Simulation.Headroom
import LossyLink.Proofs.Packet.Additive
import LossyLink.Proofs.Simulation.Limit
import LossyLink.Proofs.Scenario.Judgement
import LossyLink.Proofs.Simulation.Delay
