import Runnel.Cluster.Poll

/-!
# Applying replicated commands

Acknowledgements and the remaining commands of the state machine. A group's
history is a run of `applyCommand` from the empty state.
-/

namespace Runnel.Cluster

open Runnel.Engine

def GroupAckRequest.consumerKey (request : GroupAckRequest) : ConsumerKey :=
  (request.stream, request.consumer)

def GroupBatchAckRequest.consumerKey (request : GroupBatchAckRequest) : ConsumerKey :=
  (request.stream, request.consumer)

def GroupConsumerState.acknowledge (consumer : GroupConsumerState) (request : GroupAckRequest) :
    GroupConsumerState × CommandResponse :=
  if request.offset < consumer.committedOffset ∨
      request.offset ∈ consumer.acknowledgedOffsets then
    (consumer, .groupAlreadyAcknowledged)
  else
    match consumer.inFlight[request.offset]? with
    | none =>
      -- Compatibility path: a scalar client acknowledges without a token and without a lease.
      if request.deliveryToken = "" ∧ request.member = request.consumer ∧
          request.offset = consumer.committedOffset then
        (consumer.acknowledgeGroupOffset request.offset, .groupAcknowledged)
      else if request.offset ∈ consumer.deliveryAttempts then
        (consumer, .groupStaleDelivery request.consumer request.offset)
      else (consumer, .groupAckNotInFlight request.consumer request.offset)
    | some delivery =>
      if delivery.member ≠ request.member ∨
          ((delivery.requiresReceipt = true ∨ request.deliveryToken ≠ "") ∧
            delivery.deliveryToken ≠ request.deliveryToken) then
        (consumer, .groupStaleDelivery request.consumer request.offset)
      else (consumer.acknowledgeGroupOffset request.offset, .groupAcknowledged)

def applyGroupAck (state : SnapshotState) (request : GroupAckRequest) (kind : GroupKind) :
    Option (SnapshotState × CommandResponse) := do
  if kind = .metadata then
    return (state, .streamNotFound)
  if !state.streamActive request.stream then
    return (state, .streamNotFound)
  let state ← state.openConsumer request.consumerKey request.nowMs (.legacy 0 none)
  let consumer ← state.groupConsumers[request.consumerKey]?
  let (consumer, response) := consumer.acknowledge request
  return (state.setConsumer request.consumerKey consumer, response)

/-- The outcome of one receipt, judged against the state before any of them is applied. -/
def GroupConsumerState.receiptOutcome (consumer : GroupConsumerState) (member : String)
    (receipt : DeliveryReceipt) : AckBatchOutcome :=
  if receipt.offset < consumer.committedOffset ∨
      receipt.offset ∈ consumer.acknowledgedOffsets then .alreadyConfirmed
  else if receipt.deliveryToken = "" then .rejected .staleDelivery
  else
    match consumer.inFlight[receipt.offset]? with
    | some delivery =>
      if delivery.member ≠ member ∨ delivery.deliveryToken ≠ receipt.deliveryToken then
        .rejected .staleDelivery
      else .confirmed
    | none =>
      if receipt.offset ∈ consumer.deliveryAttempts then .rejected .staleDelivery
      else .rejected .notInFlight

def applyGroupBatchAck (state : SnapshotState) (request : GroupBatchAckRequest)
    (kind : GroupKind) : Option (SnapshotState × CommandResponse) := do
  if kind = .metadata then
    return (state, .streamNotFound)
  if !state.streamActive request.stream then
    return (state, .streamNotFound)
  let state ← state.openConsumer request.consumerKey request.nowMs (.legacy 0 none)
  let consumer ← state.groupConsumers[request.consumerKey]?
  let outcomes := request.receipts.map (fun receipt =>
    { offset := receipt.offset
      outcome := consumer.receiptOutcome request.member receipt : AckBatchItem })
  let validOffsets := (outcomes.filter (fun item => item.outcome = .confirmed)).map
    AckBatchItem.offset
  return (state.setConsumer request.consumerKey
    (validOffsets.foldl GroupConsumerState.acknowledgeGroupOffset consumer),
    .groupBatchAcknowledged ⟨outcomes⟩)

def applyReplay (state : SnapshotState) (stream : String) (offset : ℕ)
    (kind : GroupKind) : CommandResponse :=
  if kind = .metadata then .streamNotFound
  else if !state.streamActive stream then .streamNotFound
  else
    match (state.messages stream)[offset]? with
    | none => .historyUnavailable offset 0 (state.messages stream).length
    | some message => .replay
        { stream := stream
          offset := offset
          key := message.key
          payload := message.payload
          publishedAtMs := message.publishedAtMs }

def applyCreateStream (state : SnapshotState) (stream : String)
    (streamId groupId : Option String) (kind : GroupKind) : SnapshotState × CommandResponse :=
  match kind with
  | .data _ _ _ => (state, .noop)
  | _ =>
    let derived := streamIdentity stream
    if stream ∈ state.streams then (state, .streamCreated false)
    else
      ({ state with
        streams := state.streams.insert stream
          { streamId := streamId.getD derived.1
            groupId := groupId.getD derived.2
            lifecycle := if kind = .metadata then .creating else .active
            messages := [] } }, .streamCreated true)

def applyInitializeDataStream (state : SnapshotState) (stream streamId groupId : String)
    (kind : GroupKind) : SnapshotState × CommandResponse :=
  match kind with
  | .data expectedStream expectedStreamId expectedGroupId =>
    if stream ≠ expectedStream ∨ streamId ≠ expectedStreamId ∨ groupId ≠ expectedGroupId then
      (state, .noop)
    else if stream ∈ state.streams then (state, .dataStreamInitialized false)
    else
      ({ state with
        streams := state.streams.insert stream (StreamState.newActive streamId groupId) },
        .dataStreamInitialized true)
  | _ => (state, .noop)

def applyActivateStream (state : SnapshotState) (stream : String) (kind : GroupKind) :
    SnapshotState × CommandResponse :=
  match kind with
  | .data _ _ _ => (state, .noop)
  | _ =>
    match state.streams[stream]? with
    | none => (state, .streamActivated false)
    | some streamState =>
      ({ state with
        streams := state.streams.insert stream { streamState with lifecycle := .active } },
        .streamActivated (streamState.lifecycle ≠ .active))

/-- The offset a retained request identity was published at. -/
def SnapshotState.dedupOffset (state : SnapshotState) (stream : String)
    (requestId : Option String) : Option ℕ := do
  let requestId ← requestId
  let requests ← state.dedup[stream]?
  requests[requestId]?

def applyPublish (state : SnapshotState) (stream : String) (key : Option String)
    (payload : Bytes) (publishedAtMs : ℕ) (requestId : Option String) (kind : GroupKind) :
    SnapshotState × CommandResponse :=
  if kind = .metadata then (state, .streamNotFound)
  else
    match state.dedupOffset stream requestId with
    | some offset =>
      match (state.messages stream)[offset]? with
      | none => (state, .noop)
      | some existing =>
        if existing.key.getD "" ≠ key.getD "" ∨ existing.payload ≠ payload then
          (state, .requestIdContentConflict)
        else (state, .published offset)
    | none =>
      let identity := streamIdentity stream
      let streamState := (state.streams[stream]?).getD
        (StreamState.newActive identity.1 identity.2)
      if !streamState.isActive then (state, .streamNotFound)
      else
        let offset := streamState.messages.length
        let dedup := match requestId with
          | some requestId => state.dedup.insert stream
              (((state.dedup[stream]?).getD ∅).insert requestId offset)
          | none => state.dedup
        ({ state with
          streams := state.streams.insert stream
            { streamState with
              messages := streamState.messages ++ [{ key, payload, publishedAtMs }] }
          dedup := dedup }, .published offset)

def applyAck (state : SnapshotState) (stream consumer : String) (offset : ℕ)
    (kind : GroupKind) : SnapshotState × CommandResponse :=
  if kind = .metadata then (state, .streamNotFound)
  else if !state.streamActive stream then (state, .streamNotFound)
  else
    let expected := (state.consumers[(stream, consumer)]?).getD 0
    if offset < expected then (state, .alreadyAcknowledged)
    else if expected < offset then (state, .outOfOrderAck expected offset)
    else
      ({ state with consumers := state.consumers.insert (stream, consumer) (offset + 1) },
        .acknowledged)

def applyConfigureConsumer (state : SnapshotState) (stream consumer : String)
    (ackTimeoutMs : ℕ) (maxDeliveryAttempts : Option ℕ) (retryDelayMs : ℕ) (kind : GroupKind) :
    SnapshotState × CommandResponse :=
  if kind = .metadata ∨ !state.streamActive stream then (state, .streamNotFound)
  else
    match validateConsumerPolicy ackTimeoutMs maxDeliveryAttempts retryDelayMs with
    | .error _ => (state, .noop)
    | .ok () =>
      let entry := (state.groupConsumers[(stream, consumer)]?).getD {}
      -- The entry exists from here on, also when the request changes nothing.
      let state := state.setConsumer (stream, consumer) entry
      match entry.policy.filter (fun current =>
          current.ackTimeoutMs = ackTimeoutMs ∧
          current.maxDeliveryAttempts = maxDeliveryAttempts ∧
          current.retryDelayMs = retryDelayMs) with
      | some current => (state, .consumerPolicy current)
      | none =>
        let version := entry.policy.elim 1 (fun policy => satAdd64 policy.version 1)
        if version = 0 then (state, .noop)
        else
          let policy := ConsumerPolicy.newConfigured version ackTimeoutMs maxDeliveryAttempts
            retryDelayMs
          (state.setConsumer (stream, consumer) { entry with policy := some policy },
            .consumerPolicy policy)

def applyCommand [ToString LogId] (state : SnapshotState) (command : Command)
    (kind : GroupKind) (logId : LogId) : Option (SnapshotState × CommandResponse) :=
  match command with
  | .createStream stream streamId groupId =>
    some (applyCreateStream state stream streamId groupId kind)
  | .initializeDataStream stream streamId groupId =>
    some (applyInitializeDataStream state stream streamId groupId kind)
  | .activateStream stream => some (applyActivateStream state stream kind)
  | .publish stream key payload publishedAtMs requestId =>
    some (applyPublish state stream key payload publishedAtMs requestId kind)
  | .ack stream consumer offset => some (applyAck state stream consumer offset kind)
  | .configureConsumer stream consumer ackTimeoutMs maxDeliveryAttempts retryDelayMs =>
    some (applyConfigureConsumer state stream consumer ackTimeoutMs maxDeliveryAttempts
      retryDelayMs kind)
  | .replay stream _ offset => some (state, applyReplay state stream offset kind)
  | .pollGroup request => applyGroupPoll state request logId kind
  | .pollGroupBatch request => applyGroupBatchPoll state request kind
  | .ackGroup request => applyGroupAck state request kind
  | .ackGroupBatch request => applyGroupBatchAck state request kind

end Runnel.Cluster
