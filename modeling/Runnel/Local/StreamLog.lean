import Runnel.Local.Record

/-!
# The local stream log

One open log file with its bounded indexes: the newest records, a sparse index of
frame positions and the offsets of request identities.
-/

namespace Runnel.Local

open Runnel.Engine Bytes

def maxInMemoryRecords : ℕ := 1024

def sparseIndexStride : ℕ := 64

def maxSparseIndexEntries : ℕ := 1024

/-- Offsets by request identity, in one namespace for each kind. -/
structure RequestIdentityIndex where
  publicIds : BTreeMap String ℕ := ∅
  deadLetterMoves : BTreeMap String ℕ := ∅
deriving DecidableEq

namespace RequestIdentityIndex

def get (index : RequestIdentityIndex) (identity : String) : RequestIdentityKind → Option ℕ
  | .publicId => index.publicIds[identity]?
  | .deadLetterMove => index.deadLetterMoves[identity]?

def remember (index : RequestIdentityIndex) (identity : String) (offset : ℕ) :
    RequestIdentityKind → RequestIdentityIndex
  | .publicId => { index with publicIds := index.publicIds.insertIfNew identity offset }
  | .deadLetterMove =>
    { index with deadLetterMoves := index.deadLetterMoves.insertIfNew identity offset }

end RequestIdentityIndex

structure LogCheckpoint where
  offset : ℕ
  cursor : ℕ
deriving DecidableEq, Repr

structure SparseIndex where
  checkpoints : List LogCheckpoint := []
deriving DecidableEq, Repr

namespace SparseIndex

def remember (index : SparseIndex) (offset cursor : ℕ) : SparseIndex :=
  if offset % sparseIndexStride ≠ 0 then index
  else { checkpoints := pushBounded maxSparseIndexEntries index.checkpoints ⟨offset, cursor⟩ }

/-- The nearest position to scan from for an offset. -/
def startFor (index : SparseIndex) (offset : ℕ) : ℕ :=
  (index.checkpoints.reverse.find? fun checkpoint => checkpoint.offset ≤ offset).elim 0
    LogCheckpoint.cursor

end SparseIndex

/-- An open log. The clock lists what the system clock will return next. -/
structure StreamLog where
  file : File := {}
  records : List RecordIndex := []
  sparseIndex : SparseIndex := {}
  requestIds : RequestIdentityIndex := {}
  nextOffset : ℕ := 0
  clock : List ℕ := []
deriving DecidableEq

def recordLengths (keyLen payloadLen : ℕ) : Except BrokerError Unit :=
  if u32Max < keyLen then
    .error (.invalidRecord "message key length exceeds u32 storage representation")
  else if maxKeyLen < keyLen then
    .error (.invalidRecord
      s!"message key is {keyLen} bytes; stream record limit is {maxKeyLen} bytes")
  else if u32Max < payloadLen then
    .error (.invalidRecord "message payload length exceeds u32 storage representation")
  else if maxBodyLen < payloadLen then
    .error (.invalidRecord
      s!"message payload is {payloadLen} bytes; stream record limit is {maxBodyLen} bytes")
  else .ok ()

def requestIdLength (requestIdLen : ℕ) : Except BrokerError Unit :=
  if u32Max < requestIdLen then
    .error (.invalidRecord "request ID length exceeds u32 storage representation")
  else if maxRequestIdLen < requestIdLen then
    .error (.invalidRecord
      s!"request ID is {requestIdLen} bytes; stream record limit is {maxRequestIdLen} bytes")
  else .ok ()

/-- The limits a record is checked against before anything is written. -/
def checkLengths (key : Option String) (payload : Bytes) (identity : RecordIdentity) :
    Except BrokerError Unit := do
  recordLengths (keyBytes key).length payload.length
  requestIdLength identity.bytes.length

/-- A record that failed on its own and not the log. -/
def isPerRecordRejection : BrokerError → Bool
  | .invalidRecord _ => true
  | .io error => error.kind == .invalidInput
  | _ => false

/-- A record that is neither acknowledged nor excluded, by its offset or by its key. -/
def recordIsCandidate (record : RecordIndex) (acknowledgedOffsets : BTreeSet ℕ)
    (inFlight : Option (BTreeSet ℕ × BTreeSet String)) : Bool :=
  if record.offset ∈ acknowledgedOffsets ∨ inFlight.any (record.offset ∈ ·.1) then false
  else record.key.all fun key => inFlight.all fun filter => key ∉ filter.2

/-- The first record from the cursor on that is wanted. -/
def scanRecords (bytes : Bytes) (wanted : RecordIndex → Bool) :
    ℕ → ℕ → Except BrokerError (Option RecordIndex)
  | 0, _ => .ok none
  | fuel + 1, cursor =>
    match readNextRecord bytes cursor with
    | .error error => .error error
    | .ok none => .ok none
    | .ok (some parsed) =>
      if wanted parsed.index then .ok (some parsed.index)
      else scanRecords bytes wanted fuel parsed.nextCursor

namespace StreamLog

def remember (log : StreamLog) (cursor : ℕ) (index : RecordIndex) : StreamLog :=
  { log with
    sparseIndex := log.sparseIndex.remember index.offset cursor
    records := pushBounded maxInMemoryRecords log.records index
    requestIds :=
      match index.requestId, index.requestIdentityKind with
      | some requestId, some kind => log.requestIds.remember requestId index.offset kind
      | _, _ => log.requestIds }

@[simp] theorem remember_file (log : StreamLog) (cursor : ℕ) (index : RecordIndex) :
    (log.remember cursor index).file = log.file := rfl

def create : StreamLog := {}

/-- Reads the records from the cursor on into the indexes, up to the incomplete tail. -/
def inspectLoop : ℕ → StreamLog → ℕ → Except BrokerError (StreamLog × ℕ)
  | 0, log, cursor => .ok (log, cursor)
  | fuel + 1, log, cursor =>
    match readNextRecord log.file.bytes cursor with
    | .error error => .error error
    | .ok none => .ok (log, cursor)
    | .ok (some parsed) =>
      if parsed.index.offset ≠ log.nextOffset then
        .error (invalidRecordData "record offsets are not contiguous")
      else if u64Max < log.nextOffset + 1 then
        .error (invalidRecordData "record offset exceeds u64 range")
      else
        inspectLoop fuel
          { log.remember cursor parsed.index with nextOffset := log.nextOffset + 1 }
          parsed.nextCursor

/-- Opens an existing file, with the position of its incomplete tail. -/
def inspect (file : File) : Except BrokerError (StreamLog × Option ℕ) := do
  let (log, cursor) ← inspectLoop (file.bytes.length + 1) { file := file } 0
  return (log, if cursor ≠ file.bytes.length then some cursor else none)

def finishRecovery (log : StreamLog) (incompleteTail : Option ℕ) : StreamLog :=
  match incompleteTail with
  | some cursor => { log with file := log.file.setLen cursor }
  | none => log

def scanStart (log : StreamLog) (offset : ℕ) : ℕ := log.sparseIndex.startFor offset

def findRecord (log : StreamLog) (offset : ℕ) : Except BrokerError RecordIndex :=
  match log.records.find? (fun record => record.offset = offset) with
  | some record => .ok record
  | none =>
    match scanRecords log.file.bytes (fun record => record.offset = offset)
        (log.file.bytes.length + 1) (log.scanStart offset) with
    | .error error => .error error
    | .ok (some record) => .ok record
    | .ok none => .error (.corruptRecord offset)

def readPayload (log : StreamLog) (record : RecordIndex) : Except BrokerError Bytes :=
  if record.payloadOffset + record.payloadLen ≤ log.file.bytes.length then
    .ok (slice log.file.bytes record.payloadOffset record.payloadLen)
  else .error (.io ⟨.unexpectedEof, "failed to fill whole buffer"⟩)

def identityOffset (log : StreamLog) (identity : String) (kind : RequestIdentityKind) : Option ℕ :=
  log.requestIds.get identity kind

def requestOffset (log : StreamLog) (requestId : String) : Option ℕ :=
  log.identityOffset requestId .publicId

def deadLetterMoveOffset (log : StreamLog) (moveId : String) : Option ℕ :=
  log.identityOffset moveId .deadLetterMove

/-- The offset of a request that was appended before with the same content. -/
def requestOffsetForContent (log : StreamLog) (requestId : String) (key : Option String)
    (payload : Bytes) : Except BrokerError (Option ℕ) :=
  match log.requestOffset requestId with
  | none => .ok none
  | some offset => do
    let existing ← log.findRecord offset
    if keyBytes existing.key ≠ keyBytes key then throw .requestIdContentConflict
    else
      let stored ← log.readPayload existing
      if stored ≠ payload then throw .requestIdContentConflict
      else return some offset

/-- The search of the first record from an offset on among the records in memory. -/
def tailStartLoop (records : List RecordIndex) (offset : ℕ) : ℕ → ℕ → ℕ → ℕ
  | 0, low, _ => low
  | fuel + 1, low, high =>
    if low < high then
      let middle := low + (high - low) / 2
      if (records[middle]?).any (fun record => record.offset < offset) then
        tailStartLoop records offset fuel (middle + 1) high
      else tailStartLoop records offset fuel low middle
    else low

def tailStartIndex (log : StreamLog) (offset : ℕ) : ℕ :=
  tailStartLoop log.records offset log.records.length 0 log.records.length

/-- The first record from the committed offset on that may be delivered. -/
def findCandidate (log : StreamLog) (committedOffset : ℕ) (acknowledgedOffsets : BTreeSet ℕ)
    (inFlight : Option (BTreeSet ℕ × BTreeSet String)) :
    Except BrokerError (Option RecordIndex) :=
  match log.records.head? with
  | none => .ok none
  | some first =>
    if first.offset ≤ committedOffset then
      .ok ((log.records.drop (log.tailStartIndex committedOffset)).find? fun record =>
        recordIsCandidate record acknowledgedOffsets inFlight)
    else
      -- a consumer behind the records in memory is served from the file
      scanRecords log.file.bytes
        (fun record => committedOffset ≤ record.offset &&
          recordIsCandidate record acknowledgedOffsets inFlight)
        (log.file.bytes.length + 1) (log.scanStart committedOffset)

def readMessage (log : StreamLog) (stream : String) (offset : ℕ) :
    Except BrokerError Message := do
  let index ← log.findRecord offset
  let payload ← log.readPayload index
  return { stream := stream
           offset := index.offset
           key := index.key
           payload := payload
           publishedAtMs := index.publishedAtMs
           deliveryToken := none
           deliveryAttempt := none }

def readReplayMessage (log : StreamLog) (stream : String) (offset : ℕ) :
    Except BrokerError ReplayMessage :=
  if log.nextOffset ≤ offset then .error (.historyUnavailable stream offset 0 log.nextOffset)
  else do
    let index ← log.findRecord offset
    let payload ← log.readPayload index
    return { stream := stream
             offset := index.offset
             key := index.key
             payload := payload
             publishedAtMs := index.publishedAtMs }

def nowMs (log : StreamLog) : ℕ × StreamLog :=
  (log.clock.headD 0 % 2 ^ 64, { log with clock := log.clock.tail })

def writeFrame (file : File) (buffers : List Bytes) (sync : Bool) : File × Except IoError Unit :=
  match file.writeEach buffers with
  | (file, .error error) => (file, .error error)
  | (file, .ok ()) => if sync then file.syncData else (file, .ok ())

def appendRecordWithSync (log : StreamLog) (key : Option String) (payload : Bytes)
    (identity : RecordIdentity) (sync : Bool) : StreamLog × Except BrokerError ℕ :=
  let keyBytes := keyBytes key
  let requestIdBytes := identity.bytes
  match checkLengths key payload identity with
  | .error error => (log, .error error)
  | .ok () =>
    let offset := log.nextOffset
    let (publishedAtMs, log) := log.nowMs
    let header := recordHeader identity.flag offset publishedAtMs keyBytes requestIdBytes payload
    match writeFrame log.file [header, keyBytes, requestIdBytes, payload] sync with
    | (file, .error error) => ({ log with file := file }, .error (.io error))
    | (file, .ok ()) =>
      -- the file is opened for appending, so its position is its end
      let payloadOffset := file.bytes.length - payload.length
      let recordCursor := payloadOffset - requestIdBytes.length - keyBytes.length - recordHeaderLen
      let log := { log with file := file }.remember recordCursor
        { offset := offset
          payloadOffset := payloadOffset
          payloadLen := payload.length
          key := key
          requestId := identity.requestId
          requestIdentityKind := identity.kind
          publishedAtMs := publishedAtMs }
      ({ log with nextOffset := satAdd64 offset 1 }, .ok offset)

def append (log : StreamLog) (key : Option String) (payload : Bytes) :
    StreamLog × Except BrokerError ℕ :=
  log.appendRecordWithSync key payload .none true

def appendWithRequestId (log : StreamLog) (key : Option String) (payload : Bytes)
    (requestId : String) : StreamLog × Except BrokerError ℕ :=
  log.appendRecordWithSync key payload (.publicId requestId) true

/-- The offset of a move that was appended before, which must have the same content. -/
def moveOffsetForContent (log : StreamLog) (offset : ℕ) (key : Option String) (payload : Bytes) :
    Except BrokerError ℕ := do
  let existing ← log.findRecord offset
  if existing.key ≠ key then
    throw (invalidRecordData "dead-letter move identity has different key or payload")
  else
    let stored ← log.readPayload existing
    if stored ≠ payload then
      throw (invalidRecordData "dead-letter move identity has different key or payload")
    else return offset

def appendWithMoveId (log : StreamLog) (key : Option String) (payload : Bytes)
    (moveId : String) : StreamLog × Except BrokerError ℕ :=
  match log.deadLetterMoveOffset moveId with
  | some offset => (log, log.moveOffsetForContent offset key payload)
  | none => log.appendRecordWithSync key payload (.deadLetterMove moveId) true

def recordIdentity (record : PublishRecord) : RecordIdentity :=
  match record.requestId with
  | some requestId => .publicId requestId
  | none => .none

/-- The record of a batch that is not a repetition. -/
def appendBatchRecord (log : StreamLog) (record : PublishRecord) :
    StreamLog × Except BrokerError (PublishRecordOutcome × Bool) :=
  match log.appendRecordWithSync record.key record.payload (recordIdentity record) false with
  | (log, .ok offset) => (log, .ok (.ok offset, true))
  | (log, .error error) =>
    if isPerRecordRejection error then (log, .ok (.error error, false))
    else (log, .error error)

/-- One record of a batch: its outcome, and whether it was appended. -/
def appendBatchItem (log : StreamLog) (record : PublishRecord) :
    StreamLog × Except BrokerError (PublishRecordOutcome × Bool) :=
  match record.requestId with
  | none => log.appendBatchRecord record
  | some requestId =>
    match log.requestOffsetForContent requestId record.key record.payload with
    | .ok (some offset) => (log, .ok (.ok offset, false))
    | .ok none => log.appendBatchRecord record
    | .error .requestIdContentConflict => (log, .ok (.error .requestIdContentConflict, false))
    | .error error => (log, .error error)

def appendBatchLoop (log : StreamLog) :
    List PublishRecord → StreamLog × Except BrokerError (List PublishRecordOutcome × Bool)
  | [] => (log, .ok ([], false))
  | record :: rest =>
    match log.appendBatchItem record with
    | (log, .error error) => (log, .error error)
    | (log, .ok (outcome, wrote)) =>
      match appendBatchLoop log rest with
      | (log, .error error) => (log, .error error)
      | (log, .ok (outcomes, appended)) => (log, .ok (outcome :: outcomes, wrote || appended))

def appendBatch (log : StreamLog) (records : List PublishRecord) :
    StreamLog × Except BrokerError (List PublishRecordOutcome) :=
  match log.appendBatchLoop records with
  | (log, .error error) => (log, .error error)
  | (log, .ok (outcomes, false)) => (log, .ok outcomes)
  | (log, .ok (outcomes, true)) =>
    match log.file.syncData with
    | (file, .error error) => ({ log with file := file }, .error (.io error))
    | (file, .ok ()) => ({ log with file := file }, .ok outcomes)

end StreamLog

end Runnel.Local
