import LossyLink.Data.Record
import LossyLink.Scenario.Basic

/-! # Scenarios from values without a type -/

namespace LossyLink

open Data (asList asNat asReal asText Shape Variant)
open Data.Shape (optional required withDefault)

/-- Channel parameters to set, each of which may be left out of a table. -/
def Config.Override.ofData (d : Data) : Except Mismatch Config.Override :=
  d.asRecord "struct SimConfigOverride" <|
    Config.Override.mk <$> optional "loss_rate" asReal <*> optional "corrupt_rate" asReal
      <*> optional "min_latency" (asNat 64) <*> optional "max_latency" (asNat 64)
      <*> (Option.map UInt64.ofNat <$> optional "seed" (asNat 64))

namespace Scenario

namespace Action

def variants : List (Variant Action) := [
  { tag := "app_send"
    title := "TestAction::AppSend"
    shape := submit <$> required "time" (asNat 64) <*> required "data" asText },
  { tag := "drop_next_from_sender_seq"
    title := "TestAction::DropNextFromSenderSeq"
    shape := (fun n => dropSeq (.ofNat n)) <$> required "seq" (asNat 32) },
  { tag := "drop_next_from_receiver_ack"
    title := "TestAction::DropNextFromReceiverAck"
    shape := (fun n => dropAck (.ofNat n)) <$> required "ack" (asNat 32) }]

def ofData (dialect : Dialect) (d : Data) : Except Mismatch Action :=
  d.asTagged dialect "internally tagged enum TestAction" variants

end Action

namespace Assertion

def variants : List (Variant Assertion) := [
  { tag := "data_delivered"
    title := "TestAssertion::DataDelivered"
    shape := dataDelivered <$> required "data" asText },
  { tag := "sender_packet_count"
    title := "TestAssertion::SenderPacketCount"
    shape := senderPackets <$> required "min" (asNat 32) <*> optional "max" (asNat 32) },
  { tag := "max_duration"
    title := "TestAssertion::MaxDuration"
    shape := maxDuration <$> required "ms" (asNat 64) }]

def ofData (dialect : Dialect) (d : Data) : Except Mismatch Assertion :=
  d.asTagged dialect "internally tagged enum TestAssertion" variants

end Assertion

def ofData (dialect : Dialect) (d : Data) : Except Mismatch Scenario :=
  d.asRecord "struct TestScenario" <|
    Scenario.mk <$> required "name" asText <*> withDefault "description" "" asText
      <*> withDefault "config" {} Config.Override.ofData
      <*> withDefault "actions" [] (asList (Action.ofData dialect))
      <*> withDefault "assertions" [] (asList (Assertion.ofData dialect))

end Scenario

end LossyLink
