import Runnel.Engine.Types

/-!
# Bounds on encoded poll responses

Engines measure a response before they assign a delivery. Every sum saturates
at the width of a machine word.
-/

namespace Runnel.Engine

def maxConsumeBatchRecords : ℕ := 1024

def maxConsumeBatchResponseBytes : ℕ := 65 * 1024 * 1024

/-- Bytes of a base-128 varint; each step of the loop drops seven bits. -/
def protobufVarintLenFrom : ℕ → ℕ → ℕ
  | 0, _ => 1
  | fuel + 1, value => if 0x80 ≤ value then protobufVarintLenFrom fuel (value >>> 7) + 1 else 1

def protobufVarintLen (value : ℕ) : ℕ := protobufVarintLenFrom value value

def protobufBytesFieldUpperBound (valueLen : ℕ) : ℕ :=
  satAdd64 (satAdd64 1 (protobufVarintLen valueLen)) valueLen

def protobufStringFieldUpperBound (value : String) : ℕ :=
  protobufBytesFieldUpperBound value.utf8ByteSize

def protobufVarintFieldUpperBound (value : ℕ) : ℕ := satAdd64 1 (protobufVarintLen value)

def lengthDelimitedFieldUpperBound (valueLen : ℕ) : ℕ := protobufBytesFieldUpperBound valueLen

structure MessageResultMetadata where
  stream : String
  consumer : String
  member : Option String
  offset : ℕ
  key : Option String
  payloadLen : ℕ
  publishedAtMs : ℕ
  deliveryToken : Option String
  deliveryAttempt : Option ℕ
  includeDeliveryToken : Bool

def messageResultUpperBound (message : MessageResultMetadata) : ℕ :=
  let length := satAdd64 (satAdd64 (satAdd64 (satAdd64
    (protobufStringFieldUpperBound message.stream)
    (protobufStringFieldUpperBound message.consumer))
    (protobufVarintFieldUpperBound message.offset))
    (protobufBytesFieldUpperBound message.payloadLen))
    (protobufVarintFieldUpperBound message.publishedAtMs)
  let length := match message.member with
    | some member => satAdd64 length (protobufStringFieldUpperBound member)
    | none => length
  let length := match message.key with
    | some key => satAdd64 length (protobufStringFieldUpperBound key)
    | none => length
  let length := match message.includeDeliveryToken, message.deliveryToken with
    | true, some token => satAdd64 length (protobufStringFieldUpperBound token)
    | _, _ => length
  match message.deliveryAttempt with
  | some attempt => satAdd64 length (protobufVarintFieldUpperBound attempt)
  | none => length

def pollMessageResponseUpperBoundParts (metadata : MessageResultMetadata) : ℕ :=
  let messageLen := messageResultUpperBound metadata
  let applicationResponseLen := satAdd64 4 (lengthDelimitedFieldUpperBound messageLen)
  lengthDelimitedFieldUpperBound applicationResponseLen

def pollMessageResponseUpperBound (message : Message) (consumer : String) (member : Option String)
    (includeDeliveryToken : Bool) : ℕ :=
  pollMessageResponseUpperBoundParts
    { stream := message.stream
      consumer := consumer
      member := member
      offset := message.offset
      key := message.key
      payloadLen := message.payload.length
      publishedAtMs := message.publishedAtMs
      deliveryToken := message.deliveryToken
      deliveryAttempt := message.deliveryAttempt
      includeDeliveryToken := includeDeliveryToken }

def batchMessageItemUpperBound (message : Message) (consumer : String)
    (member : Option String) : ℕ :=
  let messageLen := messageResultUpperBound
    { stream := message.stream
      consumer := consumer
      member := member
      offset := message.offset
      key := message.key
      payloadLen := message.payload.length
      publishedAtMs := message.publishedAtMs
      deliveryToken := message.deliveryToken
      deliveryAttempt := message.deliveryAttempt
      includeDeliveryToken := message.deliveryToken.isSome }
  let itemLen := satAdd64 4 (lengthDelimitedFieldUpperBound messageLen)
  lengthDelimitedFieldUpperBound itemLen

/-- Incremental measure of an encoded poll-batch response. -/
structure PollBatchResponseSizer where
  consumer : String
  member : Option String
  encodedLen : ℕ

namespace PollBatchResponseSizer

def new (stream consumer : String) (member : Option String) : PollBatchResponseSizer :=
  let batchResultLen := satAdd64 (protobufStringFieldUpperBound stream)
    (protobufStringFieldUpperBound consumer)
  let applicationResponseLen := lengthDelimitedFieldUpperBound batchResultLen
  { consumer := consumer
    member := member
    encodedLen := lengthDelimitedFieldUpperBound applicationResponseLen }

def projectedLen (sizer : PollBatchResponseSizer) (message : Message) : ℕ :=
  satAdd64 sizer.encodedLen (batchMessageItemUpperBound message sizer.consumer sizer.member)

def push (sizer : PollBatchResponseSizer) (message : Message) : PollBatchResponseSizer :=
  { sizer with encodedLen := sizer.projectedLen message }

end PollBatchResponseSizer

def pollBatchResponseLen (stream consumer : String) (member : Option String)
    (messages : List Message) : ℕ :=
  (messages.foldl PollBatchResponseSizer.push
    (PollBatchResponseSizer.new stream consumer member)).encodedLen

end Runnel.Engine
