import Runnel.Protocol.ClientFrame

/-!
# Decoded replies

How a client reads a reply back from the messages that it is on the wire. Both
directions check which outcomes, stages and results may stand together, each in
its own way.
-/

namespace Runnel.Protocol

open Runnel.Engine Protobuf

def outcomeFromWire : ℕ → Except V2ProtocolError Outcome
  | 1 => .ok .confirmed
  | 2 => .ok .rejected
  | 3 => .ok .retryable
  | 4 => .ok .unknown
  | _ => .error .invalidResponse

def stageFromWire : ℕ → Except V2ProtocolError Stage
  | 1 => .ok .received
  | 2 => .ok .validated
  | 3 => .ok .executionStarted
  | 4 => .ok .durable
  | 5 => .ok .completed
  | 6 => .ok .unknown
  | _ => .error .invalidResponse

def metadataFromWire (outcome stage : ℕ) : Except V2ProtocolError ItemMetadata := do
  let outcome ← outcomeFromWire outcome
  let stage ← stageFromWire stage
  return { outcome, stage }

def payloadFromWire (payload : Bytes) : Payload := (fromUtf8? payload).elim (.bytes payload) .text

def messageFromWire (result : Wire.MessageResult) : MessageResponse where
  stream := result.stream
  consumer := result.consumer
  member := result.member
  offset := result.offset
  key := result.key
  payload := payloadFromWire result.payload
  publishedAtMs := result.publishedAtMs
  deliveryToken := result.deliveryToken
  deliveryAttempt := result.deliveryAttempt

def publishItemFromWire (item : Wire.PublishItemResult) :
    Except V2ProtocolError (PublishBatchRecordResponse × ItemMetadata) := do
  let metadata ← metadataFromWire item.outcome item.stage
  match item.offset with
  | some offset =>
    if metadata.outcome ≠ .confirmed ∨ item.code.isSome ∨ item.diagnostic.isSome then
      throw .invalidResponse
    return (.published offset, metadata)
  | none =>
    match item.code, item.diagnostic with
    | some code, some message =>
      if metadata.outcome = .confirmed then throw .invalidResponse
      return (.error code message, metadata)
    | _, _ => throw .invalidResponse

def messageItemFromWire (item : Wire.MessageItemResult) :
    Except V2ProtocolError (MessageResponse × ItemMetadata) := do
  let metadata ← metadataFromWire item.outcome item.stage
  if metadata.outcome ≠ .confirmed then throw .invalidResponse
  match item.message with
  | some message => return (messageFromWire message, metadata)
  | none => throw .invalidResponse

/-- The outcome of an item whose status agrees with the outcome of its metadata. -/
def ackStatusFromWire (status : ℕ) (outcome : Outcome) :
    Except V2ProtocolError AckBatchItemOutcome :=
  match status with
  | 1 => if outcome = .confirmed then .ok .confirmed else .error .invalidResponse
  | 2 => if outcome = .confirmed then .ok .alreadyConfirmed else .error .invalidResponse
  | 3 => if outcome ≠ .confirmed then .ok .rejected else .error .invalidResponse
  | _ => .error .invalidResponse

def ackItemFromWire (item : Wire.AckItemResult) :
    Except V2ProtocolError (AckBatchItemResponse × ItemMetadata) := do
  let metadata ← metadataFromWire item.outcome item.stage
  let outcome ← ackStatusFromWire item.status metadata.outcome
  let hasFailure := outcome == .rejected
  if hasFailure != (item.code.isSome && item.diagnostic.isSome) then throw .invalidResponse
  return ({ offset := item.offset, outcome, code := item.code, message := item.diagnostic },
    metadata)

def Wire.Result.isBatch : Wire.Result → Bool
  | .publishBatch .. | .pollBatch .. | .ackBatch .. => true
  | _ => false

/-- The response of a result, and the metadata of its items. -/
def responseFromWire : Wire.Result → Except V2ProtocolError (Response × List ItemMetadata)
  | .streamCreated stream created => .ok (.streamCreated stream created, [])
  | .published stream offset => .ok (.published stream offset, [])
  | .publishBatch stream items => do
    let items ← items.mapM publishItemFromWire
    return (.publishBatch stream (items.map Prod.fst), items.map Prod.snd)
  | .pollBatch stream consumer items => do
    let items ← items.mapM messageItemFromWire
    return (.pollBatch stream consumer (items.map Prod.fst), items.map Prod.snd)
  | .message message => .ok (.message (messageFromWire message), [])
  | .replay stream consumer offset key payload publishedAtMs =>
    .ok (.replayMessage stream consumer offset key (payloadFromWire payload) publishedAtMs, [])
  | .empty stream consumer => .ok (.empty stream consumer, [])
  | .acknowledged stream consumer offset alreadyAcknowledged =>
    .ok (.acknowledged stream consumer offset alreadyAcknowledged, [])
  | .ackBatch stream consumer items => do
    let items ← items.mapM ackItemFromWire
    return (.ackBatch stream consumer (items.map Prod.fst), items.map Prod.snd)
  | .consumerPolicy stream consumer policy => .ok (.consumerPolicy stream consumer policy, [])
  | .health status streams storageBytes => .ok (.health status streams storageBytes, [])
  | .error code diagnostic => .ok (.error code diagnostic, [])

def replyFromWire (reply : Wire.ApplicationResponse) : Except V2ProtocolError ApplicationReply :=
  match reply.result with
  | none => .error .invalidResponse
  | some result => do
    if result.isBatch ∧ (reply.outcome.isSome ∨ reply.stage.isSome) then throw .invalidResponse
    let (response, items) ← responseFromWire result
    if result.isBatch then return .batch response items
    match reply.outcome, reply.stage with
    | some outcome, some stage =>
      let outcome ← outcomeFromWire outcome
      let stage ← stageFromWire stage
      return { response, outcome := some outcome, stage := some stage, items }
    | _, _ => throw .invalidResponse

/-- Reads the body of a frame from a server; the messages are read by the protobuf library. -/
def decodeServerFrame (decode : Bytes → Option Wire.ServerFrame) (body : Bytes) (maxBytes : ℕ) :
    Except V2ProtocolError ServerFrame := do
  match (← decodeMessage decode body maxBytes).body with
  | none => throw .missingMessage
  | some .authenticated => return .authenticated
  | some .authenticationFailed => return .authenticationFailed
  | some (.application reply) => return .application (← replyFromWire reply)

end Runnel.Protocol
