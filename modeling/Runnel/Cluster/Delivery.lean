import Runnel.Foundation.Scan
import Runnel.Engine.ResponseSize
import Runnel.Cluster.State

/-!
# Consumer groups in the replicated state machine

Translation of the delivery module: leases, retry schedules, candidate selection,
dead-lettering and acknowledgement.
-/

namespace Runnel.Cluster

open Runnel.Engine

def deadLetterSuffix : String := ".dead-letter"

def deadLetterHashPrefix : String := "runnel.dead-letter."

def leaseExpired (deadlineMs nowMs : ℕ) : Bool := deadlineMs ≤ nowMs

def deadLetterStreamName (stream : String) : String :=
  let name := stream ++ deadLetterSuffix
  if name.utf8ByteSize ≤ 128 then name
  else deadLetterHashPrefix ++ hex16 (fnv1a stream.toUTF8.toList).toNat

def isDeadLetterStream (state : SnapshotState) (stream : String) : Bool :=
  if deadLetterSuffix.toList.isSuffixOf stream.toList then true
  else if !deadLetterHashPrefix.toList.isPrefixOf stream.toList then false
  else state.streams.keys.any (fun source => deadLetterStreamName source = stream)

def streamIdentity (stream : String) : String × String :=
  ("stream/" ++ stream, "group/" ++ stream ++ "/data")

theorem streamIdentity_group_injective {stream other : String}
    (h : (streamIdentity stream).2 = (streamIdentity other).2) : stream = other := by
  have hlists := congrArg String.toList h
  simp only [streamIdentity, String.toList_append] at hlists
  exact String.toList_inj.1 (List.append_cancel_left (List.append_cancel_right hlists))

def observeLeaseClock (state : SnapshotState) (observedMs : ℕ) : SnapshotState :=
  { state with leaseClockMs := max state.leaseClockMs observedMs }

namespace GroupConsumerState

variable (consumer : GroupConsumerState)

def attempts (offset : ℕ) : ℕ := (consumer.deliveryAttempts[offset]?).getD 0

def groupPolicyForOffset (offset : ℕ) (attempts : ℕ) (legacyPolicy : ConsumerPolicy)
    (policyVersion : Option ℕ) : Option ConsumerPolicy := do
  let policy ←
    if 0 < attempts then consumer.deliveryPolicies[offset]?
    else some ((consumer.deliveryPolicies[offset]? <|> consumer.policy).getD legacyPolicy)
  if policyVersion.any (fun version => consumer.policy.any (·.version = version)) then
    return policy
  if attempts = 0 then
    return consumer.policy.getD policy
  return policy

def observeExpired (nowMs : ℕ) (legacyPolicy : ConsumerPolicy) (consumer : GroupConsumerState)
    (expired : ℕ × GroupDelivery) : Option GroupConsumerState := do
  let offset := expired.1
  let consumer := { consumer with inFlight := consumer.inFlight.erase offset }
  if offset ∈ consumer.retryNotBefore then
    return consumer
  let attempts := consumer.attempts offset
  let policy ← consumer.groupPolicyForOffset offset attempts legacyPolicy none
  if policy.exhausted attempts || policy.retryDelayMs = 0 then
    return consumer
  return { consumer with
    retryNotBefore := consumer.retryNotBefore.insert offset
      { retryNotBeforeMs := satAdd64 nowMs policy.retryDelayMs
        key := expired.2.key } }

/-- Releases every expired lease and schedules its retry. -/
def observeExpiredDeliveries (nowMs : ℕ) (legacyPolicy : ConsumerPolicy) :
    Option GroupConsumerState :=
  (consumer.inFlight.toList.filter (fun entry => leaseExpired entry.2.deadlineMs nowMs)).foldlM
    (observeExpired nowMs legacyPolicy) consumer

def addRetry (nowMs : ℕ) (filter : BTreeSet ℕ × BTreeSet String)
    (entry : ℕ × GroupRetrySchedule) : BTreeSet ℕ × BTreeSet String :=
  if entry.2.retryNotBeforeMs ≤ nowMs then filter
  else (filter.1.insert entry.1,
    match entry.2.key with
    | some key => filter.2.insert key
    | none => filter.2)

/-- Offsets and keys that wait for their retry time. -/
def retryFilter (nowMs : ℕ) : BTreeSet ℕ × BTreeSet String :=
  consumer.retryNotBefore.toList.foldl (addRetry nowMs) (∅, ∅)

/-- The loop that folds acknowledged offsets into the committed prefix; every iteration
removes one offset from the acknowledged set, whose size is the fuel. -/
def collapseAcknowledged : ℕ → GroupConsumerState → GroupConsumerState
  | 0, consumer => consumer
  | fuel + 1, consumer =>
    if consumer.committedOffset ∈ consumer.acknowledgedOffsets then
      collapseAcknowledged fuel
        { consumer with
          acknowledgedOffsets := consumer.acknowledgedOffsets.erase consumer.committedOffset
          deliveryPolicies := consumer.deliveryPolicies.erase consumer.committedOffset
          retryNotBefore := consumer.retryNotBefore.erase consumer.committedOffset
          committedOffset := consumer.committedOffset + 1 }
    else consumer

def acknowledgeGroupOffset (offset : ℕ) : GroupConsumerState :=
  let released : GroupConsumerState :=
    { consumer with
      inFlight := consumer.inFlight.erase offset
      deliveryAttempts := consumer.deliveryAttempts.erase offset
      deliveryPolicies := consumer.deliveryPolicies.erase offset
      retryNotBefore := consumer.retryNotBefore.erase offset }
  if offset = released.committedOffset then
    collapseAcknowledged released.acknowledgedOffsets.size
      { released with committedOffset := released.committedOffset + 1 }
  else { released with acknowledgedOffsets := released.acknowledgedOffsets.insert offset }

def keyInFlight (key : String) : Bool :=
  consumer.inFlight.toList.any (fun entry => entry.2.key = some key)

end GroupConsumerState

/-- The record may be assigned: nobody holds it or its key, no retry time is pending for
either, and the current batch has selected neither. -/
def eligible (consumer : GroupConsumerState) (nowMs : ℕ) (selectedOffsets : BTreeSet ℕ)
    (selectedKeys : BTreeSet String) (entry : ℕ × StoredMessage) : Bool :=
  let filter := consumer.retryFilter nowMs
  if entry.1 ∈ consumer.acknowledgedOffsets ∨ entry.1 ∈ consumer.inFlight ∨
      entry.1 ∈ filter.1 ∨ entry.1 ∈ selectedOffsets then false
  else entry.2.key.all (fun key =>
    !(selectedKeys.contains key) && !(filter.2.contains key) && !(consumer.keyInFlight key))

/-- The lowest offset from the committed one on that may be assigned. The scalar poll has
selected nothing before. -/
def candidate (consumer : GroupConsumerState) (messages : List StoredMessage) (nowMs : ℕ)
    (selectedOffsets : BTreeSet ℕ) (selectedKeys : BTreeSet String) :
    Option (ℕ × StoredMessage) :=
  ((enumerate messages).filter (fun entry => consumer.committedOffset ≤ entry.1)).find?
    (eligible consumer nowMs selectedOffsets selectedKeys)

namespace SnapshotState

/-- The consumer of a key, created from the scalar progress map on first use. -/
def ensureConsumer (state : SnapshotState) (consumerKey : ConsumerKey) : SnapshotState :=
  if consumerKey ∈ state.groupConsumers then state
  else { state with
    groupConsumers := state.groupConsumers.insert consumerKey
      { committedOffset := (state.consumers[consumerKey]?).getD 0 } }

def setConsumer (state : SnapshotState) (consumerKey : ConsumerKey)
    (consumer : GroupConsumerState) : SnapshotState :=
  { state with groupConsumers := state.groupConsumers.insert consumerKey consumer }

def observeExpiredDeliveries (state : SnapshotState) (consumerKey : ConsumerKey) (nowMs : ℕ)
    (legacyPolicy : ConsumerPolicy) : Option SnapshotState := do
  let consumer ← state.groupConsumers[consumerKey]?
  let consumer ← consumer.observeExpiredDeliveries nowMs legacyPolicy
  return state.setConsumer consumerKey consumer

/-- Appends the record to the dead-letter stream and acknowledges it for the consumer. -/
def moveToDeadLetter (state : SnapshotState) (consumerKey : ConsumerKey) (offset : ℕ) :
    Option SnapshotState := do
  let streamState ← state.streams[consumerKey.1]?
  let original ← streamState.messages[offset]?
  let deadLetterStream := deadLetterStreamName consumerKey.1
  let identity := streamIdentity deadLetterStream
  let target := (state.streams[deadLetterStream]?).getD
    (StreamState.newActive identity.1 identity.2)
  let consumer ← state.groupConsumers[consumerKey]?
  return { state with
    streams := state.streams.insert deadLetterStream
      { target with messages := target.messages ++ [original] }
    groupConsumers := state.groupConsumers.insert consumerKey
      (consumer.acknowledgeGroupOffset offset)
    deadLetters := satAdd64 state.deadLetters 1 }

end SnapshotState

def groupPollMessage (stream : String) (offset : ℕ) (messages : List StoredMessage)
    (delivery : GroupDelivery) : CommandResponse :=
  match messages[offset]? with
  | none => .streamNotFound
  | some message => .groupPoll (.message
      { stream := stream
        offset := offset
        key := message.key
        payload := message.payload
        publishedAtMs := message.publishedAtMs
        deliveryToken := some delivery.deliveryToken
        deliveryAttempt := some delivery.deliveryAttempt })

end Runnel.Cluster
