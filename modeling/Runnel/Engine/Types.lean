import Runnel.Foundation.FaultyFile
import Runnel.Foundation.Machine

/-!
# Engine types

The vocabulary both engines share: consumer policies, messages and acknowledgement
outcomes, with the validation of a policy request.
-/

namespace Runnel.Engine

def maxConsumerPolicyAckTimeoutMs : ℕ := 7 * 24 * 60 * 60 * 1000

def maxConsumerPolicyRetryDelayMs : ℕ := maxConsumerPolicyAckTimeoutMs

/-- Durable retry settings of one named consumer. -/
structure ConsumerPolicy where
  version : ℕ
  configured : Bool
  ackTimeoutMs : ℕ
  maxDeliveryAttempts : Option ℕ
  retryDelayMs : ℕ
deriving DecidableEq, Repr

namespace ConsumerPolicy

def legacy (ackTimeoutMs : ℕ) (maxDeliveryAttempts : Option ℕ) : ConsumerPolicy where
  version := 0
  configured := false
  ackTimeoutMs := ackTimeoutMs
  maxDeliveryAttempts := maxDeliveryAttempts
  retryDelayMs := 0

/-- A configured policy with the supplied durable version. -/
def newConfigured (version ackTimeoutMs : ℕ) (maxDeliveryAttempts : Option ℕ)
    (retryDelayMs : ℕ) : ConsumerPolicy where
  version := version
  configured := true
  ackTimeoutMs := ackTimeoutMs
  maxDeliveryAttempts := maxDeliveryAttempts
  retryDelayMs := retryDelayMs

def exhausted (policy : ConsumerPolicy) (attempts : ℕ) : Bool :=
  policy.maxDeliveryAttempts.any (fun maximum => maximum ≤ attempts)

end ConsumerPolicy

/-- The step of a consumer-state persist that failed. -/
inductive ConsumerStatePersistStage where
  | beforeAppend
  | append
  | sync
deriving DecidableEq, Repr

def ConsumerStatePersistStage.display : ConsumerStatePersistStage → String
  | .beforeAppend => "BeforeAppend"
  | .append => "Append"
  | .sync => "Sync"

/-- The failures the engines report, with the data each carries. -/
inductive BrokerError where
  | invalidName (kind name : String)
  | invalidRecord (message : String)
  | streamNotFound (stream : String)
  | streamNotReady (stream : String)
  | ackNotInFlight (consumer : String) (offset : ℕ)
  | staleDelivery (consumer : String) (offset : ℕ)
  | outOfOrderAck (consumer : String) (expected received : ℕ)
  | historyUnavailable (stream : String) (requestedOffset earliestOffset nextOffset : ℕ)
  | corruptRecord (offset : ℕ)
  | io (error : IoError)
  | state (message : String)
  | consumerStatePersistence (stage : ConsumerStatePersistStage) (message : String)
  | requestIdContentConflict
  | lockPoisoned
  | configuration (message : String)
  | invalidBatchRequest (message : String)
  | consumeBatchRecordTooLarge (maxBytes : ℕ)
  | responseTooLarge (maxBytes : ℕ)
  | notLeader (leaderId : Option ℕ)
  | cluster (message : String)
  /-- Not an error of the source: an expectation of its code did not hold. -/
  | panicked (message : String)
deriving DecidableEq, Repr

def BrokerError.display : BrokerError → String
  | .invalidName kind name =>
    "invalid " ++ kind ++ " name '" ++ name ++
      "'; use 1-128 ASCII letters, digits, '.', '_', or '-'"
  | .invalidRecord message => "invalid message record: " ++ message
  | .streamNotFound stream => "stream '" ++ stream ++ "' does not exist"
  | .streamNotReady stream => "stream '" ++ stream ++ "' is not ready"
  | .ackNotInFlight consumer offset =>
    "consumer '" ++ consumer ++ "' has no in-flight message for offset " ++ toString offset
  | .staleDelivery consumer offset =>
    "consumer '" ++ consumer ++ "' has a stale delivery for offset " ++ toString offset
  | .outOfOrderAck consumer expected received =>
    "consumer '" ++ consumer ++ "' must acknowledge offset " ++ toString expected ++
      " before offset " ++ toString received
  | .historyUnavailable stream requestedOffset earliestOffset nextOffset =>
    "replay offset " ++ toString requestedOffset ++ " is unavailable for stream '" ++ stream ++
      "'; available offsets are [" ++ toString earliestOffset ++ ", " ++ toString nextOffset ++ ")"
  | .corruptRecord offset => "record log is malformed at offset " ++ toString offset
  | .io error => "I/O error: " ++ error.message
  | .state message => "consumer state error: " ++ message
  | .consumerStatePersistence stage message =>
    "consumer state persistence failed at " ++ stage.display ++ ": " ++ message
  | .requestIdContentConflict => "request ID was already used for different message content"
  | .lockPoisoned => "broker lock is poisoned"
  | .configuration message => "invalid broker configuration: " ++ message
  | .invalidBatchRequest message => "invalid consume-batch request: " ++ message
  | .consumeBatchRecordTooLarge maxBytes =>
    "the first eligible message cannot fit in the " ++ toString maxBytes ++
      "-byte consume-batch response bound"
  | .responseTooLarge maxBytes =>
    "the eligible message cannot fit in the " ++ toString maxBytes ++ "-byte response bound"
  | .notLeader leaderId =>
    "request must be sent to the elected leader " ++
      leaderId.elim "None" fun leader => "Some(" ++ toString leader ++ ")"
  | .cluster message => "cluster error: " ++ message
  | .panicked message => message

/-- The category of a failure, independent of where it came from. -/
inductive BrokerErrorKind where
  | invalidRequest
  | resourceNotFound
  | resourceNotReady
  | deliveryRejected
  | requestIdContentConflict
  | historyUnavailable
  | corruptData
  | storage
  | state
  | internal
  | configuration
  | routing
  | cluster
deriving DecidableEq, Repr

inductive BrokerErrorOutcome where
  | rejected
  | retryable
  | unknown
deriving DecidableEq, Repr

def BrokerError.kind : BrokerError → BrokerErrorKind
  | .invalidName .. | .invalidRecord _ => .invalidRequest
  | .streamNotFound _ => .resourceNotFound
  | .streamNotReady _ => .resourceNotReady
  | .ackNotInFlight .. | .staleDelivery .. | .outOfOrderAck .. => .deliveryRejected
  | .requestIdContentConflict => .requestIdContentConflict
  | .historyUnavailable .. => .historyUnavailable
  | .corruptRecord _ => .corruptData
  | .io _ => .storage
  | .state _ => .state
  | .consumerStatePersistence .. => .state
  | .lockPoisoned => .internal
  | .configuration _ => .configuration
  | .invalidBatchRequest _ | .consumeBatchRecordTooLarge _ | .responseTooLarge _ => .invalidRequest
  | .notLeader _ => .routing
  | .cluster _ => .cluster
  | .panicked _ => .internal

/-- What a failure says about its effect: none, none yet, or not known. -/
def BrokerError.outcome (error : BrokerError) : BrokerErrorOutcome :=
  match error with
  | .consumerStatePersistence .beforeAppend _ => .retryable
  | _ =>
    match error.kind with
    | .resourceNotReady | .routing => .retryable
    | .corruptData | .storage | .state | .internal | .cluster => .unknown
    | .invalidRequest | .resourceNotFound | .deliveryRejected | .requestIdContentConflict
    | .historyUnavailable | .configuration => .rejected

def validateConsumerPolicy (ackTimeoutMs : ℕ) (maxDeliveryAttempts : Option ℕ)
    (retryDelayMs : ℕ) : Except BrokerError Unit :=
  if maxConsumerPolicyAckTimeoutMs < ackTimeoutMs then
    .error (.configuration ("consumer acknowledgement timeout must not exceed " ++
      toString maxConsumerPolicyAckTimeoutMs ++ " milliseconds"))
  else if maxDeliveryAttempts = some 0 then
    .error (.configuration "max delivery attempts must be greater than zero")
  else if maxConsumerPolicyRetryDelayMs < retryDelayMs then
    .error (.configuration ("consumer retry delay must not exceed " ++
      toString maxConsumerPolicyRetryDelayMs ++ " milliseconds"))
  else .ok ()

structure Message where
  stream : String
  offset : ℕ
  key : Option String
  payload : Bytes
  publishedAtMs : ℕ
  deliveryToken : Option String
  deliveryAttempt : Option ℕ
deriving DecidableEq, Repr

structure PublishRecord where
  key : Option String
  payload : Bytes
  requestId : Option String
deriving DecidableEq, Repr

abbrev PublishRecordOutcome := Except BrokerError ℕ

structure ReplayMessage where
  stream : String
  offset : ℕ
  key : Option String
  payload : Bytes
  publishedAtMs : ℕ
deriving DecidableEq, Repr

inductive PollResult where
  | message (message : Message)
  | empty
deriving DecidableEq, Repr

structure DeliveryReceipt where
  offset : ℕ
  deliveryToken : String
deriving DecidableEq, Repr

inductive AckBatchRejection where
  | notInFlight
  | staleDelivery
deriving DecidableEq, Repr

inductive AckBatchOutcome where
  | confirmed
  | alreadyConfirmed
  | rejected (reason : AckBatchRejection)
deriving DecidableEq, Repr

structure AckBatchItem where
  offset : ℕ
  outcome : AckBatchOutcome
deriving DecidableEq, Repr

structure AckBatchResult where
  outcomes : List AckBatchItem
deriving DecidableEq, Repr

end Runnel.Engine
