import Runnel.Protocol.BatchSize

/-!
# Batches of writes

How the server answers a batch of records or of acknowledgements: the result of
every item becomes a response with its own outcome and stage.
-/

namespace Runnel.Server

open Runnel.Engine Runnel.Protocol Protobuf

def maxBatchDiagnosticBytes : ℕ := 256

def maxPublishBatchRecords : ℕ := 1024

inductive BatchWrite where
  | publishBatch (stream : String) (records : List PublishRecord)
  | ackBatch (stream consumer : String) (receipts : List DeliveryReceipt)
  | ackGroupBatch (stream consumer member : String) (receipts : List DeliveryReceipt)
deriving DecidableEq, Repr

structure BatchEngine where
  publishBatch : String → List PublishRecord → Except BrokerError (List PublishRecordOutcome)
  ackBatch : String → String → List DeliveryReceipt → Except BrokerError AckBatchResult
  ackGroupBatch : String → String → String → List DeliveryReceipt →
    Except BrokerError AckBatchResult

/-- An index at which a text can be cut: no byte there continues a character. -/
def isCharBoundary (text : Bytes) (index : ℕ) : Bool :=
  index == 0 || index == text.length || text[index]?.any fun byte => byte < 0x80 || 0xc0 ≤ byte

/-- The last index up to a given one at which the text can be cut. -/
def charBoundaryUpTo (text : Bytes) : ℕ → ℕ
  | 0 => 0
  | index + 1 => if isCharBoundary text (index + 1) then index + 1 else charBoundaryUpTo text index

def boundedDiagnostic (message : String) : String :=
  let text := utf8 message
  if text.length ≤ maxBatchDiagnosticBytes then message
  else (fromUtf8? (text.take (charBoundaryUpTo text maxBatchDiagnosticBytes))).getD ""

def errorCode : BrokerError → String
  | .invalidName .. => "invalid_name"
  | .invalidRecord _ => "invalid_record"
  | .streamNotFound _ => "stream_not_found"
  | .streamNotReady _ => "stream_not_ready"
  | .ackNotInFlight .. => "ack_not_in_flight"
  | .staleDelivery .. => "stale_delivery"
  | .requestIdContentConflict => "request_id_content_conflict"
  | .outOfOrderAck .. => "out_of_order_ack"
  | .historyUnavailable .. => "history_unavailable"
  | .corruptRecord _ => "corrupt_record"
  | .io _ => "storage_error"
  | .state _ => "consumer_state_error"
  | .consumerStatePersistence .beforeAppend _ => "consumer_state_retryable"
  | .consumerStatePersistence .. => "consumer_state_error"
  | .lockPoisoned => "internal_error"
  | .configuration _ => "invalid_configuration"
  | .invalidBatchRequest _ => "invalid_batch_request"
  | .consumeBatchRecordTooLarge _ => "consume_batch_record_too_large"
  | .responseTooLarge _ => "response_too_large"
  | .notLeader _ => "cluster_error"
  | .cluster _ => "cluster_error"
  | .panicked _ => "internal_error"

def errorResponse (error : BrokerError) : Response :=
  .error (errorCode error) (boundedDiagnostic error.display)

/-- The code of an error of one record: input that storage refuses is an invalid record. -/
def publishBatchErrorCode (error : BrokerError) : String :=
  match error with
  | .invalidRecord _ => "invalid_record"
  | .io ioError => if ioError.kind = .invalidInput then "invalid_record" else errorCode error
  | _ => errorCode error

def brokerOutcome : BrokerErrorOutcome → Outcome
  | .rejected => .rejected
  | .retryable => .retryable
  | .unknown => .unknown

/-- The response to one record, and its metadata. -/
def publishBatchItem : PublishRecordOutcome → PublishBatchRecordResponse × ItemMetadata
  | .ok offset => (.published offset, ⟨.confirmed, .durable⟩)
  | .error error =>
    (.error (publishBatchErrorCode error) (boundedDiagnostic error.display),
      ⟨brokerOutcome error.outcome, .executionStarted⟩)

def ackBatchItemResponse (item : AckBatchItem) : AckBatchItemResponse :=
  match item.outcome with
  | .confirmed => ⟨item.offset, .confirmed, none, none⟩
  | .alreadyConfirmed => ⟨item.offset, .alreadyConfirmed, none, none⟩
  | .rejected reason =>
    let (code, message) := match reason with
      | .notInFlight => ("ack_not_in_flight", "record has no delivery attempt")
      | .staleDelivery =>
        ("stale_delivery", "delivery receipt is stale or belongs to another member")
    ⟨item.offset, .rejected, some code, some message⟩

def ackBatchItemMetadata (item : AckBatchItem) : ItemMetadata :=
  match item.outcome with
  | .confirmed | .alreadyConfirmed => ⟨.confirmed, .durable⟩
  | .rejected _ => ⟨.rejected, .executionStarted⟩

def failedReply (error : BrokerError) : ApplicationReply :=
  .failed (errorResponse error) (brokerOutcome error.outcome) .executionStarted

def publishBatchReply (stream : String) (outcomes : List PublishRecordOutcome) :
    ApplicationReply :=
  let items := outcomes.map publishBatchItem
  .batch (.publishBatch stream (items.map Prod.fst)) (items.map Prod.snd)

def ackBatchReply (stream consumer : String) (items : List AckBatchItem) : ApplicationReply :=
  .batch (.ackBatch stream consumer (items.map ackBatchItemResponse))
    (items.map ackBatchItemMetadata)

def executedReply (engine : BatchEngine) : BatchWrite → ApplicationReply
  | .publishBatch stream records =>
    match engine.publishBatch stream records with
    | .ok outcomes =>
      if outcomes.length ≠ records.length then
        failedReply (.cluster "publish batch returned the wrong number of outcomes")
      else publishBatchReply stream outcomes
    | .error error => failedReply error
  | .ackBatch stream consumer receipts =>
    match engine.ackBatch stream consumer receipts with
    | .ok result => ackBatchReply stream consumer result.outcomes
    | .error error => failedReply error
  | .ackGroupBatch stream consumer member receipts =>
    match engine.ackGroupBatch stream consumer member receipts with
    | .ok result => ackBatchReply stream consumer result.outcomes
    | .error error => failedReply error

def encodedBodyLen (reply : ApplicationReply) : ℕ :=
  match encodeServerFrame (.application reply) with
  | .ok frame => frame.length - 4
  | .error _ => u64Max

/-- The text that a diagnostic is at its longest. -/
def worstDiagnostic : String := String.ofList (List.replicate maxBatchDiagnosticBytes 'x')

def worstPublishReply (stream : String) (count : ℕ) (item : PublishBatchRecordResponse)
    (metadata : ItemMetadata) : ApplicationReply :=
  .batch (.publishBatch stream (List.replicate count item)) (List.replicate count metadata)

def worstAckReply (stream consumer : String) (count : ℕ) (item : AckBatchItemResponse)
    (metadata : ItemMetadata) : ApplicationReply :=
  .batch (.ackBatch stream consumer (List.replicate count item)) (List.replicate count metadata)

/-- The bound for acknowledgements; a count that the engine refuses is not measured. -/
def ackBatchUpperBound (stream consumer : String) (count : ℕ) : Option ℕ :=
  if count = 0 ∨ maxConsumeBatchRecords < count then none
  else
    let rejectedReply := worstAckReply stream consumer count
      ⟨u64Max, .rejected, some "ack_not_in_flight", some worstDiagnostic⟩
      ⟨.rejected, .executionStarted⟩
    let confirmedReply := worstAckReply stream consumer count ⟨u64Max, .confirmed, none, none⟩
      ⟨.confirmed, .durable⟩
    some (max (encodedBodyLen rejectedReply) (encodedBodyLen confirmedReply))

def batchResponseUpperBound : BatchWrite → Option ℕ
  | .publishBatch stream records =>
    let errorReply := worstPublishReply stream records.length
      (.error "request_id_content_conflict" worstDiagnostic) ⟨.unknown, .executionStarted⟩
    let successReply := worstPublishReply stream records.length (.published u64Max)
      ⟨.confirmed, .durable⟩
    some (max (encodedBodyLen errorReply) (encodedBodyLen successReply))
  | .ackBatch stream consumer receipts => ackBatchUpperBound stream consumer receipts.length
  | .ackGroupBatch stream consumer _ receipts =>
    ackBatchUpperBound stream consumer receipts.length

def invalidRequestResponse (message : String) : Response := .error "invalid_request" message

/-- A publish batch of a size that no engine is asked to publish. -/
def invalidBatchSize : BatchWrite → Option Response
  | .publishBatch _ records =>
    if records.isEmpty then
      some (invalidRequestResponse "publish batch must contain at least one record")
    else if maxPublishBatchRecords < records.length then
      some (invalidRequestResponse
        s!"publish batch contains more than {maxPublishBatchRecords} records")
    else none
  | _ => none

/-- The request is refused if its reply might exceed the limit, and executed otherwise. -/
def handleRequestWithMetadata (engine : BatchEngine) (request : BatchWrite)
    (maxResponseBytes : ℕ) : ApplicationReply :=
  match invalidBatchSize request with
  | some response => .failed response .rejected .validated
  | none =>
    if (batchResponseUpperBound request).any (maxResponseBytes < ·) then
      .failed
        (.error "response_too_large" "request result could exceed the negotiated response bound")
        .rejected .validated
    else executedReply engine request

end Runnel.Server
