import Runnel.Protocol.BatchSize

/-!
# The size of a single message

The bound on the reply to a poll for one message measures every field, also
those that are left out on the wire, and the two envelopes at their real
length.
-/

namespace Runnel.Protocol

open Runnel.Engine Protobuf

/-- The message as a reply shows it: the token only to those who acknowledge with it. -/
def shown (message : Message) (includeDeliveryToken : Bool) : Message :=
  { message with deliveryToken := if includeDeliveryToken then message.deliveryToken else none }

def scalarReply (message : Message) (consumer : String) (member : Option String)
    (includeDeliveryToken : Bool) (outcome : Outcome) (stage : Stage) : ApplicationReply where
  response := .message (batchMessageResponse (shown message includeDeliveryToken) consumer member)
  outcome := some outcome
  stage := some stage
  items := []

section Scalar

variable (message : Message) (consumer : String) (member : Option String)
  (includeDeliveryToken : Bool) (outcome : Outcome) (stage : Stage)

def scalarMessage : List Field :=
  embedded 3 (optionalUint 1 (some (outcomeToWire outcome)) ++
    optionalUint 2 (some (stageToWire stage)) ++
    embedded 7 (batchMessageToWire
      (batchMessageResponse (shown message includeDeliveryToken) consumer member)).fields)

theorem serverFrameToWire_scalarReply :
    serverFrameToWire (.application
        (scalarReply message consumer member includeDeliveryToken outcome stage)) =
      .ok (scalarMessage message consumer member includeDeliveryToken outcome stage) := rfl

theorem length_scalarMessage :
    (encode (scalarMessage message consumer member includeDeliveryToken outcome stage)).length =
      itemLen (messageLen consumer member (shown message includeDeliveryToken)) := by
  have houtcome : varintLen (outcomeToWire outcome) = 1 := by cases outcome <;> rfl
  have hstage : varintLen (stageToWire stage) = 1 := by cases stage <;> rfl
  rw [scalarMessage, length_embedded (by decide), length_encode_append, length_encode_append,
    length_optionalUint (by decide), length_optionalUint (by decide), length_embedded (by decide),
    length_batchMessageToWire, Option.elim, Option.elim, houtcome, hstage, itemLen]

theorem pollMessageResponseUpperBound_eq :
    pollMessageResponseUpperBound message consumer member includeDeliveryToken =
      batchMessageItemUpperBound (shown message includeDeliveryToken) consumer member := by
  unfold pollMessageResponseUpperBound pollMessageResponseUpperBoundParts
    batchMessageItemUpperBound messageResultUpperBound shown
  cases includeDeliveryToken <;> cases message.deliveryToken <;> rfl

/-- The bound on a single message is at least the length of its reply, so a poll that is admitted
under the limit of a connection is answered within it. -/
theorem scalar_measure_bounds_reply :
    ∃ frame, serverFrameToWire (.application
        (scalarReply message consumer member includeDeliveryToken outcome stage)) = .ok frame ∧
      ((encode frame).length ≤ u64Max →
        (encode frame).length ≤
          pollMessageResponseUpperBound message consumer member includeDeliveryToken) ∧
      ∀ limit, limit ≤ maxServerToClientFrameBytes →
        pollMessageResponseUpperBound message consumer member includeDeliveryToken ≤ limit →
        writeApplicationReply
            (scalarReply message consumer member includeDeliveryToken outcome stage) limit =
          .ok ((Bytes.le 4 (encode frame).length).reverse ++ encode frame) ∧
        (encode frame).length ≤ limit := by
  have hmessage := serverFrameToWire_scalarReply message consumer member includeDeliveryToken
    outcome stage
  have hlength := length_scalarMessage message consumer member includeDeliveryToken outcome stage
  generalize scalarMessage message consumer member includeDeliveryToken outcome stage = frame
    at hmessage hlength
  have hmeasure : min (encode frame).length u64Max ≤
      pollMessageResponseUpperBound message consumer member includeDeliveryToken := by
    rw [pollMessageResponseUpperBound_eq, batchMessageItemUpperBound_eq, saturated, hlength]
    exact min_le_min_right _ (itemLen_mono (Nat.le_add_right _ _))
  have hpos : 0 < (encode frame).length := by
    rw [hlength, itemLen, delimitedLen]
    omega
  refine ⟨frame, hmessage, fun hword => by omega, fun limit hmax hadmitted => ?_⟩
  have hword : maxServerToClientFrameBytes < u64Max := by decide
  have hlimit : (encode frame).length ≤ limit := by omega
  exact ⟨(writeApplicationReply_of_le hmessage hpos hlimit hmax).2, hlimit⟩

end Scalar

/-- The reply to a member of a group, with its token. -/
theorem scalar_reply_within_measure :
    ∃ frame, serverFrameToWire (.application
        (scalarReply (payloadOf 200) "billing" (some "m") true .confirmed .durable)) = .ok frame ∧
      (encode frame).length ≤
        pollMessageResponseUpperBound (payloadOf 200) "billing" (some "m") true := by
  obtain ⟨frame, hframe, hmeasure, -⟩ :=
    scalar_measure_bounds_reply (payloadOf 200) "billing" (some "m") true .confirmed .durable
  refine ⟨frame, hframe, hmeasure ?_⟩
  obtain rfl := Except.ok.inj
    ((serverFrameToWire_scalarReply _ _ _ _ _ _).symm.trans hframe)
  rw [length_scalarMessage]
  decide +kernel

end Runnel.Protocol
