import Runnel.Engine.Types
import Runnel.Foundation.Json

/-!
# Durable consumer state

The progress of one consumer of a local stream and the events that change it. The
state is what a checkpoint holds; a journal holds events, and replaying them over
the checkpoint gives the state back.
-/

namespace Runnel.Local

open Runnel.Engine

structure RetrySchedule where
  retryNotBeforeMs : ℕ
  key : Option String
deriving DecidableEq, Repr

structure ConsumerState where
  stream : String
  consumer : String
  committedOffset : ℕ := 0
  acknowledgedOffsets : BTreeSet ℕ := ∅
  deliveryAttempts : BTreeMap ℕ ℕ := ∅
  policy : Option ConsumerPolicy := none
  deliveryPolicies : BTreeMap ℕ ConsumerPolicy := ∅
  retryNotBefore : BTreeMap ℕ RetrySchedule := ∅
deriving DecidableEq

structure RetryScheduleEvent where
  offset : ℕ
  retryNotBeforeMs : ℕ
  key : Option String
deriving DecidableEq, Repr

structure DeliveryAttempt where
  offset : ℕ
  attempt : ℕ
  policy : ConsumerPolicy
deriving DecidableEq, Repr

inductive ConsumerStateEvent where
  | deliveryAttempt (offset attempt : ℕ) (policy : ConsumerPolicy)
  | deliveryAttempts (attempts : List DeliveryAttempt)
  | retrySchedules (schedules : List RetryScheduleEvent)
  | acknowledge (offset : ℕ)
  | acknowledgeBatch (offsets : List ℕ)
  | policyConfigured (policy : ConsumerPolicy)
deriving DecidableEq, Repr

def invalidStateData (message : String) : BrokerError := .io ⟨.invalidData, message⟩

def validatePolicy (policy : ConsumerPolicy) : Except BrokerError Unit :=
  if policy.version = 0 ∨ policy.configured = false then
    .error (invalidStateData "persisted consumer policy must be configured with a positive version")
  else validateConsumerPolicy policy.ackTimeoutMs policy.maxDeliveryAttempts policy.retryDelayMs

namespace ConsumerState

variable (state : ConsumerState)

/-- The offset is behind the consumer: in the committed prefix or acknowledged beyond it. -/
def Acknowledged (offset : ℕ) : Prop :=
  offset < state.committedOffset ∨ offset ∈ state.acknowledgedOffsets

instance (offset : ℕ) : Decidable (state.Acknowledged offset) :=
  inferInstanceAs (Decidable (_ ∨ _))

/-- The loop that folds acknowledged offsets into the committed prefix; every iteration
removes one offset from the acknowledged set, whose size is the fuel. -/
def collapseAcknowledged : ℕ → ConsumerState → ConsumerState
  | 0, state => state
  | fuel + 1, state =>
    if state.committedOffset ∈ state.acknowledgedOffsets then
      collapseAcknowledged fuel
        { state with
          acknowledgedOffsets := state.acknowledgedOffsets.erase state.committedOffset
          deliveryAttempts := state.deliveryAttempts.erase state.committedOffset
          deliveryPolicies := state.deliveryPolicies.erase state.committedOffset
          committedOffset := state.committedOffset + 1 }
    else state

def acknowledge (offset : ℕ) : ConsumerState :=
  if state.Acknowledged offset then state
  else
    let released : ConsumerState :=
      { state with
        deliveryAttempts := state.deliveryAttempts.erase offset
        deliveryPolicies := state.deliveryPolicies.erase offset
        retryNotBefore := state.retryNotBefore.erase offset }
    if offset = released.committedOffset then
      collapseAcknowledged released.acknowledgedOffsets.size
        { released with committedOffset := released.committedOffset + 1 }
    else { released with acknowledgedOffsets := released.acknowledgedOffsets.insert offset }

def recordAttempt (attempt : DeliveryAttempt) : ConsumerState :=
  if state.Acknowledged attempt.offset then state
  else { state with
    deliveryAttempts := state.deliveryAttempts.insert attempt.offset
      (match state.deliveryAttempts[attempt.offset]? with
        | some current => max current attempt.attempt
        | none => attempt.attempt)
    retryNotBefore := state.retryNotBefore.erase attempt.offset
    deliveryPolicies := state.deliveryPolicies.insertIfNew attempt.offset attempt.policy }

def scheduleRetry (schedule : RetryScheduleEvent) : ConsumerState :=
  if state.Acknowledged schedule.offset ∨ schedule.offset ∉ state.deliveryAttempts then state
  else { state with
    retryNotBefore := state.retryNotBefore.insertIfNew schedule.offset
      ⟨schedule.retryNotBeforeMs, schedule.key⟩ }

def applyEvent : ConsumerStateEvent → Except BrokerError ConsumerState
  | .deliveryAttempt offset attempt policy =>
    if attempt = 0 then
      .error (invalidStateData "consumer delivery attempt must be greater than zero")
    else .ok (state.recordAttempt ⟨offset, attempt, policy⟩)
  | .deliveryAttempts attempts =>
    if attempts.any (fun attempt => attempt.attempt = 0) then
      .error (invalidStateData "consumer delivery attempt must be greater than zero")
    else .ok (attempts.foldl recordAttempt state)
  | .retrySchedules schedules => .ok (schedules.foldl scheduleRetry state)
  | .acknowledge offset => .ok (state.acknowledge offset)
  | .acknowledgeBatch offsets => .ok (offsets.foldl acknowledge state)
  | .policyConfigured policy => do
    validatePolicy policy
    return { state with policy := some policy }

/-- The events of a journal, one after the other. -/
def applyEvents (events : List ConsumerStateEvent) : Except BrokerError ConsumerState :=
  events.foldlM applyEvent state

def validate : Except BrokerError Unit :=
  if state.deliveryAttempts.toList.any (fun entry =>
        entry.2 = 0 ∨ entry.1 ∉ state.deliveryPolicies) ∨
      state.deliveryPolicies.keys.any (fun offset => offset ∉ state.deliveryAttempts) ∨
      state.retryNotBefore.keys.any (fun offset => offset ∉ state.deliveryAttempts) then
    .error (invalidStateData "persisted consumer retry state is inconsistent")
  else .ok ()

end ConsumerState

def optionToJson {α : Type} (toJson : α → Json) : Option α → Json
  | some a => toJson a
  | none => .null

/-- Numbers are written as texts where they are keys. -/
def mapToJson {ν : Type} (toJson : ν → Json) (map : BTreeMap ℕ ν) : Json :=
  .object (map.toList.map fun entry => (toString entry.1, toJson entry.2))

def policyToJson (policy : ConsumerPolicy) : Json :=
  .object [("version", .number policy.version),
    ("configured", .bool policy.configured),
    ("ack_timeout_ms", .number policy.ackTimeoutMs),
    ("max_delivery_attempts", optionToJson .number policy.maxDeliveryAttempts),
    ("retry_delay_ms", .number policy.retryDelayMs)]

def RetrySchedule.toJson (schedule : RetrySchedule) : Json :=
  .object [("retry_not_before_ms", .number schedule.retryNotBeforeMs),
    ("key", optionToJson .text schedule.key)]

def ConsumerState.toJson (state : ConsumerState) : Json :=
  .object [("stream", .text state.stream),
    ("consumer", .text state.consumer),
    ("committed_offset", .number state.committedOffset),
    ("acknowledged_offsets", .array (state.acknowledgedOffsets.toList.map .number)),
    ("delivery_attempts", mapToJson .number state.deliveryAttempts),
    ("policy", optionToJson policyToJson state.policy),
    ("delivery_policies", mapToJson policyToJson state.deliveryPolicies),
    ("retry_not_before", mapToJson RetrySchedule.toJson state.retryNotBefore)]

def RetryScheduleEvent.toJson (schedule : RetryScheduleEvent) : Json :=
  .object [("offset", .number schedule.offset),
    ("retry_not_before_ms", .number schedule.retryNotBeforeMs),
    ("key", optionToJson .text schedule.key)]

def DeliveryAttempt.toJson (attempt : DeliveryAttempt) : Json :=
  .object [("offset", .number attempt.offset),
    ("attempt", .number attempt.attempt),
    ("policy", policyToJson attempt.policy)]

namespace ConsumerStateEvent

def fields : ConsumerStateEvent → List (String × Json)
  | .deliveryAttempt offset attempt policy =>
    [("DeliveryAttempt", DeliveryAttempt.toJson ⟨offset, attempt, policy⟩)]
  | .deliveryAttempts attempts =>
    [("DeliveryAttempts", .object [("attempts", .array (attempts.map DeliveryAttempt.toJson))])]
  | .retrySchedules schedules =>
    [("RetrySchedules",
      .object [("schedules", .array (schedules.map RetryScheduleEvent.toJson))])]
  | .acknowledge offset => [("Acknowledge", .object [("offset", .number offset)])]
  | .acknowledgeBatch offsets =>
    [("AcknowledgeBatch", .object [("offsets", .array (offsets.map .number))])]
  | .policyConfigured policy =>
    [("PolicyConfigured", .object [("policy", policyToJson policy)])]

def text (event : ConsumerStateEvent) : Bytes := (Json.object event.fields).render

def line (event : ConsumerStateEvent) : Bytes := event.text ++ [0x0a]

end ConsumerStateEvent

def ConsumerState.text (state : ConsumerState) : Bytes := state.toJson.render ++ [0x0a]

end Runnel.Local
