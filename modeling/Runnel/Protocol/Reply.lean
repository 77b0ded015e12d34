import Runnel.Engine.Types
import Runnel.Foundation.Protobuf

/-!
# Replies on the wire

How the server writes an application reply: the reply becomes a message of the
protobuf library, the message the body of a frame that starts with its length.
-/

namespace Runnel.Protocol

open Runnel.Engine Protobuf

def maxServerToClientFrameBytes : ℕ := 65 * 1024 * 1024

inductive Outcome where
  | confirmed
  | rejected
  | retryable
  | unknown
deriving DecidableEq, Repr

inductive Stage where
  | received
  | validated
  | executionStarted
  | durable
  | completed
  | unknown
deriving DecidableEq, Repr

structure ItemMetadata where
  outcome : Outcome
  stage : Stage
deriving DecidableEq, Repr

inductive PublishBatchRecordResponse where
  | published (offset : ℕ)
  | error (code message : String)
deriving DecidableEq, Repr

/-- The bytes of a message, which travel as text where they are text. -/
inductive Payload where
  | text (value : String)
  | bytes (value : Bytes)
deriving DecidableEq, Repr

def Payload.asBytes : Payload → Bytes
  | .text value => utf8 value
  | .bytes value => value

structure MessageResponse where
  stream : String
  consumer : String
  member : Option String
  offset : ℕ
  key : Option String
  payload : Payload
  publishedAtMs : ℕ
  deliveryToken : Option String
  deliveryAttempt : Option ℕ
deriving DecidableEq, Repr

inductive AckBatchItemOutcome where
  | confirmed
  | alreadyConfirmed
  | rejected
deriving DecidableEq, Repr

structure AckBatchItemResponse where
  offset : ℕ
  outcome : AckBatchItemOutcome
  code : Option String
  message : Option String
deriving DecidableEq, Repr

inductive Response where
  | streamCreated (stream : String) (created : Bool)
  | published (stream : String) (offset : ℕ)
  | publishBatch (stream : String) (outcomes : List PublishBatchRecordResponse)
  | pollBatch (stream consumer : String) (messages : List MessageResponse)
  | message (message : MessageResponse)
  | replayMessage (stream consumer : String) (offset : ℕ) (key : Option String)
      (payload : Payload) (publishedAtMs : ℕ)
  | empty (stream consumer : String)
  | acknowledged (stream consumer : String) (offset : ℕ) (alreadyAcknowledged : Bool)
  | ackBatch (stream consumer : String) (outcomes : List AckBatchItemResponse)
  | consumerPolicy (stream consumer : String) (policy : ConsumerPolicy)
  | health (status : String) (streams storageBytes : ℕ)
  | error (code message : String)
deriving DecidableEq, Repr

structure ApplicationReply where
  response : Response
  outcome : Option Outcome
  stage : Option Stage
  items : List ItemMetadata
deriving DecidableEq, Repr

def ApplicationReply.failed (response : Response) (outcome : Outcome) (stage : Stage) :
    ApplicationReply :=
  { response, outcome := some outcome, stage := some stage, items := [] }

def ApplicationReply.batch (response : Response) (items : List ItemMetadata) : ApplicationReply :=
  { response, outcome := none, stage := none, items }

inductive V2ProtocolError where
  | invalidFrame
  | frameTooLarge
  | missingMessage
  | missingOperation
  | unsupportedOperation
  | invalidOperation
  | invalidResponse
  | invalidHello
deriving DecidableEq, Repr

def outcomeToWire : Outcome → ℕ
  | .confirmed => 1
  | .rejected => 2
  | .retryable => 3
  | .unknown => 4

def stageToWire : Stage → ℕ
  | .received => 1
  | .validated => 2
  | .executionStarted => 3
  | .durable => 4
  | .completed => 5
  | .unknown => 6

namespace Wire

structure MessageResult where
  stream : String
  consumer : String
  member : Option String
  offset : ℕ
  key : Option String
  payload : Bytes
  publishedAtMs : ℕ
  deliveryToken : Option String
  deliveryAttempt : Option ℕ
deriving DecidableEq, Repr

structure PublishItemResult where
  outcome : ℕ
  stage : ℕ
  offset : Option ℕ
  code : Option String
  diagnostic : Option String
deriving DecidableEq, Repr

structure MessageItemResult where
  outcome : ℕ
  stage : ℕ
  message : Option MessageResult
deriving DecidableEq, Repr

structure AckItemResult where
  offset : ℕ
  outcome : ℕ
  stage : ℕ
  status : ℕ
  code : Option String
  diagnostic : Option String
deriving DecidableEq, Repr

inductive Result where
  | streamCreated (stream : String) (created : Bool)
  | published (stream : String) (offset : ℕ)
  | publishBatch (stream : String) (items : List PublishItemResult)
  | pollBatch (stream consumer : String) (items : List MessageItemResult)
  | message (message : MessageResult)
  | replay (stream consumer : String) (offset : ℕ) (key : Option String) (payload : Bytes)
      (publishedAtMs : ℕ)
  | empty (stream consumer : String)
  | acknowledged (stream consumer : String) (offset : ℕ) (alreadyAcknowledged : Bool)
  | ackBatch (stream consumer : String) (items : List AckItemResult)
  | consumerPolicy (stream consumer : String) (policy : ConsumerPolicy)
  | health (status : String) (streams storageBytes : ℕ)
  | error (code diagnostic : String)
deriving DecidableEq, Repr

structure ApplicationResponse where
  outcome : Option ℕ
  stage : Option ℕ
  result : Option Result
deriving DecidableEq, Repr

inductive ServerBody where
  | authenticated
  | authenticationFailed
  | application (response : ApplicationResponse)
deriving DecidableEq, Repr

structure ServerFrame where
  body : Option ServerBody
deriving DecidableEq, Repr

def MessageResult.fields (message : MessageResult) : List Field :=
  implicitString 1 message.stream ++ implicitString 2 message.consumer ++
    optionalString 3 message.member ++ implicitUint 4 message.offset ++
    optionalString 5 message.key ++ implicitBytes 6 message.payload ++
    implicitUint 7 message.publishedAtMs ++ optionalString 8 message.deliveryToken ++
    optionalUint 9 message.deliveryAttempt

def PublishItemResult.fields (item : PublishItemResult) : List Field :=
  implicitUint 1 item.outcome ++ implicitUint 2 item.stage ++ optionalUint 3 item.offset ++
    optionalString 4 item.code ++ optionalString 5 item.diagnostic

def MessageItemResult.fields (item : MessageItemResult) : List Field :=
  implicitUint 1 item.outcome ++ implicitUint 2 item.stage ++
    item.message.elim [] fun message => embedded 3 message.fields

def AckItemResult.fields (item : AckItemResult) : List Field :=
  implicitUint 1 item.offset ++ implicitUint 2 item.outcome ++ implicitUint 3 item.stage ++
    implicitUint 4 item.status ++ optionalString 5 item.code ++ optionalString 6 item.diagnostic

def Result.fields : Result → List Field
  | .streamCreated stream created =>
    embedded 3 (implicitString 1 stream ++ implicitBool 2 created)
  | .published stream offset => embedded 4 (implicitString 1 stream ++ implicitUint 2 offset)
  | .publishBatch stream items =>
    embedded 5 (implicitString 1 stream ++ items.flatMap fun item => embedded 2 item.fields)
  | .pollBatch stream consumer items =>
    embedded 6 (implicitString 1 stream ++ implicitString 2 consumer ++
      items.flatMap fun item => embedded 3 item.fields)
  | .message result => embedded 7 result.fields
  | .replay stream consumer offset key payload publishedAtMs =>
    embedded 8 (implicitString 1 stream ++ implicitString 2 consumer ++ implicitUint 3 offset ++
      optionalString 4 key ++ implicitBytes 5 payload ++ implicitUint 6 publishedAtMs)
  | .empty stream consumer => embedded 9 (implicitString 1 stream ++ implicitString 2 consumer)
  | .acknowledged stream consumer offset alreadyAcknowledged =>
    embedded 10 (implicitString 1 stream ++ implicitString 2 consumer ++ implicitUint 3 offset ++
      implicitBool 4 alreadyAcknowledged)
  | .ackBatch stream consumer items =>
    embedded 11 (implicitString 1 stream ++ implicitString 2 consumer ++
      items.flatMap fun item => embedded 3 item.fields)
  | .consumerPolicy stream consumer policy =>
    embedded 12 (implicitString 1 stream ++ implicitString 2 consumer ++
      implicitUint 3 policy.version ++ implicitBool 4 policy.configured ++
      implicitUint 5 policy.ackTimeoutMs ++ optionalUint 6 policy.maxDeliveryAttempts ++
      implicitUint 7 policy.retryDelayMs)
  | .health status streams storageBytes =>
    embedded 13 (implicitString 1 status ++ implicitUint 2 streams ++ implicitUint 3 storageBytes)
  | .error code diagnostic => embedded 14 (implicitString 1 code ++ implicitString 2 diagnostic)

def ApplicationResponse.fields (response : ApplicationResponse) : List Field :=
  optionalUint 1 response.outcome ++ optionalUint 2 response.stage ++
    response.result.elim [] Result.fields

def ServerBody.fields : ServerBody → List Field
  | .authenticated => embedded 1 []
  | .authenticationFailed => embedded 2 []
  | .application response => embedded 3 response.fields

def ServerFrame.fields (frame : ServerFrame) : List Field := frame.body.elim [] ServerBody.fields

end Wire

def batchMessageToWire (message : MessageResponse) : Wire.MessageResult where
  stream := message.stream
  consumer := message.consumer
  member := message.member
  offset := message.offset
  key := message.key
  payload := message.payload.asBytes
  publishedAtMs := message.publishedAtMs
  deliveryToken := message.deliveryToken
  deliveryAttempt := message.deliveryAttempt

def messageItemResult (message : MessageResponse) (metadata : ItemMetadata) :
    Except V2ProtocolError Wire.MessageItemResult :=
  if metadata.outcome ≠ .confirmed then .error .invalidResponse
  else .ok {
    outcome := outcomeToWire metadata.outcome
    stage := stageToWire metadata.stage
    message := some (batchMessageToWire message) }

def publishItemResult (item : PublishBatchRecordResponse) (metadata : ItemMetadata) :
    Except V2ProtocolError Wire.PublishItemResult :=
  match item with
  | .published offset =>
    if metadata.outcome ≠ .confirmed then .error .invalidResponse
    else .ok {
      outcome := outcomeToWire metadata.outcome
      stage := stageToWire metadata.stage
      offset := some offset
      code := none
      diagnostic := none }
  | .error code message =>
    if metadata.outcome = .confirmed then .error .invalidResponse
    else .ok {
      outcome := outcomeToWire metadata.outcome
      stage := stageToWire metadata.stage
      offset := none
      code := some code
      diagnostic := some message }

/-- An item of an acknowledgement batch is written as it is, whatever it holds. -/
def ackItemResult (item : AckBatchItemResponse) (metadata : ItemMetadata) : Wire.AckItemResult :=
  let (status, code, diagnostic) := match item.outcome with
    | .confirmed => (1, none, none)
    | .alreadyConfirmed => (2, none, none)
    | .rejected => (3, item.code, item.message)
  { offset := item.offset
    outcome := outcomeToWire metadata.outcome
    stage := stageToWire metadata.stage
    status, code, diagnostic }

/-- The items of a completed batch, each with its own outcome and stage. -/
def batchToWire {α β : Type} (toWire : α → ItemMetadata → Except V2ProtocolError β)
    (reply : ApplicationReply) (items : List α) : Except V2ProtocolError (List β) :=
  if reply.outcome.isSome ∨ reply.stage.isSome ∨ reply.items.length ≠ items.length then
    .error .invalidResponse
  else (items.zip reply.items).mapM fun item => toWire item.1 item.2

def replyResult (reply : ApplicationReply) : Except V2ProtocolError (Wire.Result × Bool) :=
  match reply.response with
  | .streamCreated stream created => .ok (.streamCreated stream created, false)
  | .published stream offset => .ok (.published stream offset, false)
  | .publishBatch stream outcomes => do
    let items ← batchToWire publishItemResult reply outcomes
    return (.publishBatch stream items, true)
  | .pollBatch stream consumer messages => do
    let items ← batchToWire messageItemResult reply messages
    return (.pollBatch stream consumer items, true)
  | .message message => .ok (.message (batchMessageToWire message), false)
  | .replayMessage stream consumer offset key payload publishedAtMs =>
    .ok (.replay stream consumer offset key payload.asBytes publishedAtMs, false)
  | .empty stream consumer => .ok (.empty stream consumer, false)
  | .acknowledged stream consumer offset alreadyAcknowledged =>
    .ok (.acknowledged stream consumer offset alreadyAcknowledged, false)
  | .ackBatch stream consumer outcomes => do
    let items ← batchToWire (fun item metadata => .ok (ackItemResult item metadata)) reply outcomes
    return (.ackBatch stream consumer items, true)
  | .consumerPolicy stream consumer policy => .ok (.consumerPolicy stream consumer policy, false)
  | .health status streams storageBytes => .ok (.health status streams storageBytes, false)
  | .error code message => .ok (.error code message, false)

/-- The outcome and the stage of a reply that is not a batch. -/
def replyStatus (reply : ApplicationReply) : Except V2ProtocolError (Option ℕ × Option ℕ) :=
  if !reply.items.isEmpty then .error .invalidResponse
  else
    match reply.outcome, reply.stage with
    | some outcome, some stage => .ok (some (outcomeToWire outcome), some (stageToWire stage))
    | _, _ => .error .invalidResponse

def replyToWire (reply : ApplicationReply) :
    Except V2ProtocolError Wire.ApplicationResponse := do
  let (result, batched) ← replyResult reply
  let (outcome, stage) ← if batched then .ok (none, none) else replyStatus reply
  return { outcome, stage, result := some result }

inductive ServerFrame where
  | authenticated
  | authenticationFailed
  | application (reply : ApplicationReply)
deriving DecidableEq, Repr

def serverFrameToWire : ServerFrame → Except V2ProtocolError (List Field)
  | .authenticated => .ok (embedded 1 [])
  | .authenticationFailed => .ok (embedded 2 [])
  | .application reply => do
    let response ← replyToWire reply
    return embedded 3 response.fields

/-- A frame: the length of the body in four bytes, the most significant first, and the body. -/
def encodeMessage (message : List Field) (maxBytes : ℕ) : Except V2ProtocolError Bytes :=
  let body := encode message
  if body.length = 0 ∨ maxBytes < body.length ∨ u32Max < body.length then .error .frameTooLarge
  else .ok ((Bytes.le 4 body.length).reverse ++ body)

def encodeServerFrame (frame : ServerFrame) : Except V2ProtocolError Bytes := do
  let message ← serverFrameToWire frame
  encodeMessage message maxServerToClientFrameBytes

/-- The frame that is written for a reply on a connection with a limit for responses. -/
def writeApplicationReply (reply : ApplicationReply) (maxResponseBytes : ℕ) :
    Except IoError Bytes :=
  match encodeServerFrame (.application reply) with
  | .error _ => .error ⟨.other, "application response encoding failed"⟩
  | .ok frame =>
    if maxResponseBytes < frame.length - 4 then
      let tooLarge := ApplicationReply.failed
        (.error "response_too_large" "response exceeds the negotiated maximum") .unknown
        .executionStarted
      match encodeServerFrame (.application tooLarge) with
      | .error _ => .error ⟨.other, "bounded error response encoding failed"⟩
      | .ok bounded => .ok bounded
    else .ok frame

def batchMessageResponse (message : Message) (consumer : String) (member : Option String) :
    MessageResponse where
  stream := message.stream
  consumer := consumer
  member := member
  offset := message.offset
  key := message.key
  payload := (fromUtf8? message.payload).elim (.bytes message.payload) .text
  publishedAtMs := message.publishedAtMs
  deliveryToken := message.deliveryToken
  deliveryAttempt := message.deliveryAttempt

def confirmedBatch (stream consumer : String) (member : Option String)
    (deliveries : List (Message × Stage)) : ApplicationReply :=
  .batch
    (.pollBatch stream consumer
      (deliveries.map fun delivery => batchMessageResponse delivery.1 consumer member))
    (deliveries.map fun delivery => { outcome := .confirmed, stage := delivery.2 })

end Runnel.Protocol
