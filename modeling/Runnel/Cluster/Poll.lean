import Runnel.Cluster.Delivery

/-!
# Group polls

The scalar poll, the batch poll and the read-only preview of a batch. The scalar
poll and the batch poll move exhausted records to the dead-letter stream while
they look for a deliverable one; the preview only counts such records.
-/

namespace Runnel.Cluster

open Runnel.Engine

namespace GroupConsumerState

def nextAttempt (consumer : GroupConsumerState) (offset : ℕ) : ℕ :=
  match consumer.deliveryAttempts[offset]? with
  | some attempt => satAdd32 attempt 1
  | none => 1

/-- Records an assignment: its attempt, the policy pinned at the first attempt, and the lease. -/
def assign (consumer : GroupConsumerState) (offset : ℕ) (attempt : ℕ)
    (policy : ConsumerPolicy) (delivery : GroupDelivery) : GroupConsumerState :=
  { consumer with
    deliveryAttempts := consumer.deliveryAttempts.insert offset attempt
    deliveryPolicies := consumer.deliveryPolicies.insertIfNew offset policy
    retryNotBefore := consumer.retryNotBefore.erase offset
    inFlight := consumer.inFlight.insert offset delivery }

end GroupConsumerState

/-- The lease clock, the consumer and its expired leases, as every group command observes
them before it does its own work. -/
def SnapshotState.openConsumer (state : SnapshotState) (consumerKey : ConsumerKey) (nowMs : ℕ)
    (legacyPolicy : ConsumerPolicy) : Option SnapshotState :=
  let state := observeLeaseClock state nowMs
  (state.ensureConsumer consumerKey).observeExpiredDeliveries consumerKey state.leaseClockMs
    legacyPolicy

/-- The lease a delivery gets: the caller's deadline only if the caller saw the policy in force. -/
def effectiveDeadlineMs (policyVersion : Option ℕ) (policy : ConsumerPolicy) (nowMs : ℕ)
    (leaseDeadlineMs : ℕ) : ℕ :=
  if policyVersion ≠ (if policy.configured then some policy.version else none) then
    satAdd64 nowMs policy.ackTimeoutMs
  else leaseDeadlineMs

namespace GroupPollRequest

variable (request : GroupPollRequest)

def consumerKey : ConsumerKey := (request.stream, request.consumer)

def legacyPolicy : ConsumerPolicy :=
  .legacy (request.legacyAckTimeoutMs.getD 0) request.maxDeliveryAttempts

def delivery (key : Option String) (attempt : ℕ) (token : String) (policy : ConsumerPolicy)
    (nowMs : ℕ) : GroupDelivery :=
  { member := request.member
    key := key
    deliveryAttempt := attempt
    deliveryToken := token
    requiresReceipt := false
    deadlineMs := effectiveDeadlineMs request.policyVersion policy nowMs request.leaseDeadlineMs }

/-- The size bound of the response that delivers a stored record. -/
def responseUpperBound (offset : ℕ) (stored : StoredMessage) (token : String)
    (attempt : ℕ) : ℕ :=
  pollMessageResponseUpperBoundParts
    { stream := request.stream
      consumer := request.consumer
      member := request.responseMember
      offset := offset
      key := stored.key
      payloadLen := stored.payload.length
      publishedAtMs := stored.publishedAtMs
      deliveryToken := some token
      deliveryAttempt := some attempt
      includeDeliveryToken := request.responseMember.isSome }

end GroupPollRequest

/-- The candidate of the size check, which looks at no retry schedule. -/
def upperBoundCandidate (consumer : GroupConsumerState) (messages : List StoredMessage) :
    Option (ℕ × StoredMessage) :=
  ((enumerate messages).filter (fun entry => consumer.committedOffset ≤ entry.1)).find?
    (fun entry =>
      if entry.1 ∈ consumer.acknowledgedOffsets ∨ entry.1 ∈ consumer.inFlight then false
      else entry.2.key.all (fun key => !(consumer.keyInFlight key)))

def upperBoundLoop (state : SnapshotState) (request : GroupPollRequest) (token : String)
    (messages : List StoredMessage) : ℕ → GroupConsumerState → Option (Option ℕ)
  | 0, _ => none
  | fuel + 1, consumer =>
    match upperBoundCandidate consumer messages with
    | none => some none
    | some (offset, stored) => do
      let attempts := consumer.attempts offset
      let policy ← consumer.groupPolicyForOffset offset attempts request.legacyPolicy
        request.policyVersion
      if policy.exhausted attempts && !isDeadLetterStream state request.stream then
        upperBoundLoop state request token messages fuel (consumer.acknowledgeGroupOffset offset)
      else
        return some (request.responseUpperBound offset stored token (satAdd32 attempts 1))

/-- The outer option is a panic, the inner one the source's own result. -/
def groupPollResponseUpperBound [ToString LogId] (state : SnapshotState)
    (request : GroupPollRequest) (logId : LogId) : Option (Option ℕ) :=
  match state.streams[request.stream]? with
  | none => some none
  | some streamState =>
    let nowMs := max state.leaseClockMs request.nowMs
    let consumer := (state.groupConsumers[request.consumerKey]?).getD
      { committedOffset := (state.consumers[request.consumerKey]?).getD 0 }
    let consumer := { consumer with
      inFlight := consumer.inFlight.filter (fun _ delivery =>
        !leaseExpired delivery.deadlineMs nowMs) }
    match consumer.inFlight.toList.find? (fun entry => entry.2.member = request.member) with
    | some (offset, delivery) =>
      match streamState.messages[offset]? with
      | none => some none
      | some stored => some (some (request.responseUpperBound offset stored
          delivery.deliveryToken delivery.deliveryAttempt))
    | none => upperBoundLoop state request ("raft-" ++ toString logId) streamState.messages
        (streamState.messages.length + 1) consumer

def groupPollLoop (request : GroupPollRequest) (token : String) (nowMs : ℕ) :
    ℕ → SnapshotState → Option (SnapshotState × CommandResponse)
  | 0, _ => none
  | fuel + 1, state => do
    let consumer ← state.groupConsumers[request.consumerKey]?
    let streamState ← state.streams[request.stream]?
    match candidate consumer streamState.messages nowMs ∅ ∅ with
    | none => return (state, .groupPoll .empty)
    | some (offset, stored) =>
      let attempts := consumer.attempts offset
      let policy ← consumer.groupPolicyForOffset offset attempts request.legacyPolicy
        request.policyVersion
      if policy.exhausted attempts && !isDeadLetterStream state request.stream then
        let state ← state.moveToDeadLetter request.consumerKey offset
        groupPollLoop request token nowMs fuel state
      else
        let deliveryAttempt := consumer.nextAttempt offset
        let delivery := request.delivery stored.key deliveryAttempt token policy nowMs
        let state := state.setConsumer request.consumerKey
          (consumer.assign offset deliveryAttempt policy delivery)
        let state := if 1 < deliveryAttempt then
            { state with redeliveries := satAdd64 state.redeliveries 1 } else state
        return (state, groupPollMessage request.stream offset streamState.messages delivery)

def applyGroupPoll [ToString LogId] (state : SnapshotState) (request : GroupPollRequest)
    (logId : LogId) (kind : GroupKind) : Option (SnapshotState × CommandResponse) := do
  if kind = .metadata then
    return (state, .streamNotFound)
  if !state.streamActive request.stream then
    return (state, .streamNotFound)
  let responseBytes ← groupPollResponseUpperBound state request logId
  if responseBytes.any (fun bytes => request.maxResponseBytes < bytes) then
    return (state, .groupPollResponseTooLarge request.maxResponseBytes)
  let nowMs := max state.leaseClockMs request.nowMs
  let state ← state.openConsumer request.consumerKey request.nowMs request.legacyPolicy
  let consumer ← state.groupConsumers[request.consumerKey]?
  let streamState ← state.streams[request.stream]?
  match consumer.inFlight.toList.find? (fun entry => entry.2.member = request.member) with
  | some (offset, delivery) =>
    return (state, groupPollMessage request.stream offset streamState.messages delivery)
  | none =>
    groupPollLoop request ("raft-" ++ toString logId) nowMs (streamState.messages.length + 1) state

namespace GroupBatchPollRequest

variable (request : GroupBatchPollRequest)

def consumerKey : ConsumerKey := (request.stream, request.consumer)

def legacyPolicy : ConsumerPolicy :=
  .legacy (request.legacyAckTimeoutMs.getD 0) request.maxDeliveryAttempts

def message (offset : ℕ) (stored : StoredMessage) (token : String) (attempt : ℕ) : Message :=
  { stream := request.stream
    offset := offset
    key := stored.key
    payload := stored.payload
    publishedAtMs := stored.publishedAtMs
    deliveryToken := some token
    deliveryAttempt := some attempt }

def token (offset : ℕ) : String := request.tokenSeed ++ "-" ++ hex offset

def delivery (offset : ℕ) (key : Option String) (attempt : ℕ) (policy : ConsumerPolicy)
    (nowMs : ℕ) : GroupDelivery :=
  { member := request.member
    key := key
    deliveryAttempt := attempt
    deliveryToken := request.token offset
    requiresReceipt := true
    deadlineMs := effectiveDeadlineMs request.policyVersion policy nowMs request.leaseDeadlineMs }

/-- The answer to a member that already holds live deliveries. -/
def existingResponse (messages : List StoredMessage)
    (existing : List (ℕ × GroupDelivery)) : CommandResponse :=
  if request.maxRecords < existing.length then .groupBatchPollActiveSetLimitExceeded
  else
    let delivered := existing.filterMap (fun entry =>
      (messages[entry.1]?).map (fun stored =>
        request.message entry.1 stored entry.2.deliveryToken entry.2.deliveryAttempt))
    if delivered.length ≠ existing.length ∨
        request.maxBytes < pollBatchResponseLen request.stream request.consumer
          request.responseMember delivered then .groupBatchPollActiveSetLimitExceeded
    else .groupBatchPoll delivered true 0

end GroupBatchPollRequest

/-- A record the batch has selected but not yet recorded. -/
structure PendingDelivery where
  message : Message
  delivery : GroupDelivery
  policy : ConsumerPolicy

/-- The locals of the batch loop. -/
structure BatchSelection where
  state : SnapshotState
  selectedOffsets : BTreeSet ℕ := ∅
  selectedKeys : BTreeSet String := ∅
  pending : List PendingDelivery := []
  sizer : PollBatchResponseSizer
  stoppedAtByteLimit : Bool := false
  terminalTransitions : ℕ := 0

/-- The selection loop of the batch poll; a response ends the whole poll early. -/
def groupBatchPollLoop (request : GroupBatchPollRequest) (nowMs : ℕ) :
    ℕ → BatchSelection → Option (BatchSelection × Option CommandResponse)
  | 0, _ => none
  | fuel + 1, selection =>
    if selection.pending.length < request.maxRecords ∧
        selection.sizer.encodedLen < request.maxBytes then do
      let consumer ← selection.state.groupConsumers[request.consumerKey]?
      let streamState ← selection.state.streams[request.stream]?
      match candidate consumer streamState.messages nowMs selection.selectedOffsets
          selection.selectedKeys with
      | none => return (selection, none)
      | some (offset, stored) =>
        let attempts := consumer.attempts offset
        let policy ← consumer.groupPolicyForOffset offset attempts request.legacyPolicy
          request.policyVersion
        if policy.exhausted attempts && !isDeadLetterStream selection.state request.stream then
          let state ← selection.state.moveToDeadLetter request.consumerKey offset
          groupBatchPollLoop request nowMs fuel
            { selection with
              state := state
              terminalTransitions := selection.terminalTransitions + 1 }
        else if request.transitionOnly then
          return (selection, none)
        else
          let deliveryAttempt := satAdd32 attempts 1
          let message := request.message offset stored (request.token offset) deliveryAttempt
          if request.maxBytes < selection.sizer.projectedLen message then
            if selection.pending.isEmpty then
              return (selection, some (.groupBatchPollRecordTooLarge request.maxBytes))
            else
              return ({ selection with stoppedAtByteLimit := true }, none)
          else
            groupBatchPollLoop request nowMs fuel
              { selection with
                sizer := selection.sizer.push message
                selectedOffsets := selection.selectedOffsets.insert offset
                selectedKeys := match stored.key with
                  | some key => selection.selectedKeys.insert key
                  | none => selection.selectedKeys
                pending := selection.pending ++ [
                  { message := message
                    delivery := request.delivery offset stored.key deliveryAttempt policy nowMs
                    policy := policy }] }
    else return (selection, none)

def commitPending (acc : GroupConsumerState × ℕ) (pending : PendingDelivery) :
    GroupConsumerState × ℕ :=
  let offset := pending.message.offset
  let attempt := match acc.1.deliveryAttempts[offset]? with
    | some attempt => max attempt pending.delivery.deliveryAttempt
    | none => pending.delivery.deliveryAttempt
  (acc.1.assign offset attempt pending.policy pending.delivery,
    if 1 < attempt then satAdd64 acc.2 1 else acc.2)

def applyGroupBatchPoll (state : SnapshotState) (request : GroupBatchPollRequest)
    (kind : GroupKind) : Option (SnapshotState × CommandResponse) := do
  if kind = .metadata then
    return (state, .streamNotFound)
  if request.maxRecords = 0 ∨ request.maxBytes = 0 then
    return (state, .groupBatchPollActiveSetLimitExceeded)
  if !state.streamActive request.stream then
    return (state, .streamNotFound)
  let nowMs := max state.leaseClockMs request.nowMs
  let state ← state.openConsumer request.consumerKey request.nowMs request.legacyPolicy
  let consumer ← state.groupConsumers[request.consumerKey]?
  let streamState ← state.streams[request.stream]?
  let existing := consumer.inFlight.toList.filter (fun entry => entry.2.member = request.member)
  if !existing.isEmpty then
    return (state, request.existingResponse streamState.messages existing)
  let (selection, early) ← groupBatchPollLoop request nowMs (streamState.messages.length + 1)
    { state := state
      sizer := .new request.stream request.consumer request.responseMember }
  match early with
  | some response => return (selection.state, response)
  | none =>
    if selection.pending.isEmpty then
      return (selection.state, .groupBatchPoll [] false selection.terminalTransitions)
    let consumer ← selection.state.groupConsumers[request.consumerKey]?
    let (consumer, redeliveries) := selection.pending.foldl commitPending
      (consumer, selection.state.redeliveries)
    let recordLimitReached := selection.pending.length = request.maxRecords
    return ({ selection.state.setConsumer request.consumerKey consumer with
        redeliveries := redeliveries },
      .groupBatchPoll (selection.pending.map PendingDelivery.message)
        (recordLimitReached || selection.stoppedAtByteLimit) selection.terminalTransitions)

end Runnel.Cluster
