import Runnel.Engine.Types

/-!
# Replicated state of a group

The persisted state of one Raft group and the commands that change it. Third
party log identifiers appear only through their fields and their printed form,
which is an instance parameter wherever a command prints one.
-/

namespace Runnel.Cluster

open Runnel.Engine

/-- A log position: leader term, leader node and index. -/
structure LogId where
  term : ℕ
  nodeId : ℕ
  index : ℕ
deriving DecidableEq, Repr

namespace LogId.Display

/-- The text that the consensus library prints for a position. -/
scoped instance : ToString LogId :=
  ⟨fun id => "T" ++ toString id.term ++ "-" ++ "N" ++ toString id.nodeId ++ "-" ++
    toString id.index⟩

end LogId.Display

structure GroupDelivery where
  member : String
  key : Option String
  deliveryAttempt : ℕ
  deliveryToken : String
  requiresReceipt : Bool
  deadlineMs : ℕ
deriving DecidableEq, Repr

structure GroupRetrySchedule where
  retryNotBeforeMs : ℕ
  key : Option String
deriving DecidableEq, Repr

/-- Progress and delivery state of one consumer of one stream. -/
structure GroupConsumerState where
  committedOffset : ℕ := 0
  acknowledgedOffsets : BTreeSet ℕ := ∅
  deliveryAttempts : BTreeMap ℕ ℕ := ∅
  policy : Option ConsumerPolicy := none
  deliveryPolicies : BTreeMap ℕ ConsumerPolicy := ∅
  inFlight : BTreeMap ℕ GroupDelivery := ∅
  retryNotBefore : BTreeMap ℕ GroupRetrySchedule := ∅

structure StoredMessage where
  key : Option String
  payload : Bytes
  publishedAtMs : ℕ
deriving DecidableEq, Repr

inductive StreamLifecycle where
  | creating
  | active
deriving DecidableEq, Repr

structure StreamState where
  streamId : String
  groupId : String
  lifecycle : StreamLifecycle
  messages : List StoredMessage
deriving DecidableEq, Repr

namespace StreamState

def newActive (streamId groupId : String) : StreamState where
  streamId := streamId
  groupId := groupId
  lifecycle := .active
  messages := []

def isActive (stream : StreamState) : Bool := stream.lifecycle = .active

end StreamState

inductive GroupKind where
  | combined
  | metadata
  | data (stream streamId groupId : String)
deriving DecidableEq, Repr

abbrev ConsumerKey := String × String

structure SnapshotState where
  streams : BTreeMap String StreamState := ∅
  consumers : BTreeMap ConsumerKey ℕ := ∅
  groupConsumers : BTreeMap ConsumerKey GroupConsumerState := ∅
  leaseClockMs : ℕ := 0
  dedup : BTreeMap String (BTreeMap String ℕ) := ∅
  redeliveries : ℕ := 0
  deadLetters : ℕ := 0

namespace SnapshotState

def messages (state : SnapshotState) (stream : String) : List StoredMessage :=
  (state.streams[stream]?).elim [] StreamState.messages

def streamActive (state : SnapshotState) (stream : String) : Bool :=
  (state.streams[stream]?).any StreamState.isActive

end SnapshotState

structure GroupPollRequest where
  stream : String
  consumer : String
  member : String
  responseMember : Option String
  maxResponseBytes : ℕ
  nowMs : ℕ
  leaseDeadlineMs : ℕ
  maxDeliveryAttempts : Option ℕ
  legacyAckTimeoutMs : Option ℕ
  policyVersion : Option ℕ
deriving DecidableEq, Repr

structure GroupAckRequest where
  stream : String
  consumer : String
  member : String
  offset : ℕ
  deliveryToken : String
  nowMs : ℕ
deriving DecidableEq, Repr

structure GroupBatchPollRequest where
  stream : String
  consumer : String
  member : String
  responseMember : Option String
  maxRecords : ℕ
  maxBytes : ℕ
  tokenSeed : String
  nowMs : ℕ
  leaseDeadlineMs : ℕ
  maxDeliveryAttempts : Option ℕ
  legacyAckTimeoutMs : Option ℕ
  policyVersion : Option ℕ
  transitionOnly : Bool
deriving DecidableEq, Repr

structure GroupBatchAckRequest where
  stream : String
  consumer : String
  member : String
  receipts : List DeliveryReceipt
  nowMs : ℕ
deriving DecidableEq, Repr

/-- The replicated commands. The group commands carry the request record their
handler takes, field by field the same. -/
inductive Command where
  | createStream (stream : String) (streamId groupId : Option String)
  | initializeDataStream (stream streamId groupId : String)
  | activateStream (stream : String)
  | publish (stream : String) (key : Option String) (payload : Bytes) (publishedAtMs : ℕ)
      (requestId : Option String)
  | ack (stream consumer : String) (offset : ℕ)
  | configureConsumer (stream consumer : String) (ackTimeoutMs : ℕ)
      (maxDeliveryAttempts : Option ℕ) (retryDelayMs : ℕ)
  | replay (stream consumer : String) (offset : ℕ)
  | pollGroup (request : GroupPollRequest)
  | pollGroupBatch (request : GroupBatchPollRequest)
  | ackGroup (request : GroupAckRequest)
  | ackGroupBatch (request : GroupBatchAckRequest)
deriving DecidableEq, Repr

inductive CommandResponse where
  | streamCreated (created : Bool)
  | dataStreamInitialized (initialized : Bool)
  | streamActivated (activated : Bool)
  | published (offset : ℕ)
  | requestIdContentConflict
  | acknowledged
  | consumerPolicy (policy : ConsumerPolicy)
  | alreadyAcknowledged
  | outOfOrderAck (expected received : ℕ)
  | groupPoll (result : PollResult)
  | groupPollResponseTooLarge (maxBytes : ℕ)
  | groupBatchPoll (messages : List Message) (collectionComplete : Bool)
      (terminalTransitions : ℕ)
  | groupBatchPollActiveSetLimitExceeded
  | groupBatchPollRecordTooLarge (maxBytes : ℕ)
  | replay (result : ReplayMessage)
  | historyUnavailable (requestedOffset earliestOffset nextOffset : ℕ)
  | groupAcknowledged
  | groupAlreadyAcknowledged
  | groupAckNotInFlight (consumer : String) (offset : ℕ)
  | groupStaleDelivery (consumer : String) (offset : ℕ)
  | groupBatchAcknowledged (result : AckBatchResult)
  | streamNotFound
  | noop
deriving DecidableEq, Repr

/-- A command is applied in one way. -/
theorem applied_inj {α β : Type} {applied : Option (α × β)} {a a' : α} {b b' : β}
    (h : applied = some (a, b)) (h' : applied = some (a', b')) : a = a' ∧ b = b' :=
  Prod.mk.inj (Option.some.inj (h.symm.trans h'))

end Runnel.Cluster
