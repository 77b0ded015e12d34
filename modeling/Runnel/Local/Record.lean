import Runnel.Engine.Types

/-!
# Stream records

The frame of a record in a local stream log: a fixed header with a checksum, then
key, request identity and payload.
-/

namespace Runnel.Local

open Runnel.Engine Bytes

def recordMagic : Bytes := utf8 "RNL3"

def recordHeaderLen : ℕ := 48

def recordFormatVersion : UInt8 := 2

def noIdentityFlag : UInt8 := 2

def maxKeyLen : ℕ := 128

def maxBodyLen : ℕ := 64 * 1024 * 1024

def maxRequestIdLen : ℕ := 1024

inductive RequestIdentityKind where
  | publicId
  | deadLetterMove
deriving DecidableEq, Repr

def RequestIdentityKind.flag : RequestIdentityKind → UInt8
  | .publicId => 0
  | .deadLetterMove => 1

inductive RecordIdentity where
  | none
  | publicId (requestId : String)
  | deadLetterMove (moveId : String)
deriving DecidableEq, Repr

namespace RecordIdentity

def flag : RecordIdentity → UInt8
  | .none => noIdentityFlag
  | .publicId _ => RequestIdentityKind.publicId.flag
  | .deadLetterMove _ => RequestIdentityKind.deadLetterMove.flag

def requestId : RecordIdentity → Option String
  | .none => Option.none
  | .publicId requestId => some requestId
  | .deadLetterMove moveId => some moveId

def kind : RecordIdentity → Option RequestIdentityKind
  | .none => Option.none
  | .publicId _ => some .publicId
  | .deadLetterMove _ => some .deadLetterMove

def bytes (identity : RecordIdentity) : Bytes := utf8 (identity.requestId.getD "")

end RecordIdentity

def keyBytes (key : Option String) : Bytes := utf8 (key.getD "")

def crc32cBit (value : UInt32) : UInt32 :=
  if value &&& 1 = 1 then (value >>> 1) ^^^ 0x82f63b78 else value >>> 1

def crc32cTable (index : UInt32) : UInt32 :=
  crc32cBit (crc32cBit (crc32cBit
    (crc32cBit (crc32cBit (crc32cBit (crc32cBit (crc32cBit index)))))))

def crc32cStep (checksum : UInt32) (byte : UInt8) : UInt32 :=
  (checksum >>> 8) ^^^ crc32cTable ((checksum ^^^ byte.toUInt32) &&& 0xff)

def crc32cUpdate (checksum : UInt32) (bytes : Bytes) : UInt32 := bytes.foldl crc32cStep checksum

def crc32cFinalize (checksum : UInt32) : UInt32 := ~~~checksum

theorem crc32cUpdate_append (checksum : UInt32) (a b : Bytes) :
    crc32cUpdate checksum (a ++ b) = crc32cUpdate (crc32cUpdate checksum a) b :=
  List.foldl_append

def checksumHeader (header : Bytes) : Bytes := header.take 44 ++ [0, 0, 0, 0]

def recordChecksum (header key requestId body : Bytes) : UInt32 :=
  crc32cFinalize (crc32cUpdate (crc32cUpdate (crc32cUpdate
    (crc32cUpdate (~~~0) (checksumHeader header)) key) requestId) body)

/-- The checksum of a body that is read in pieces. -/
def crc32cPieces : ℕ → UInt32 → Bytes → UInt32
  | 0, checksum, _ => checksum
  | fuel + 1, checksum, body =>
    if body.isEmpty then checksum
    else crc32cPieces fuel (crc32cUpdate checksum (body.take 8192)) (body.drop 8192)

theorem crc32cPieces_eq (fuel : ℕ) (checksum : UInt32) {body : Bytes}
    (h : body.length ≤ fuel) : crc32cPieces fuel checksum body = crc32cUpdate checksum body := by
  induction fuel generalizing checksum body with
  | zero =>
    rw [List.length_eq_zero_iff.1 (Nat.le_zero.1 h)]
    rfl
  | succ fuel ih =>
    unfold crc32cPieces
    split_ifs with hempty
    · rw [List.isEmpty_iff.1 hempty]
      rfl
    · rw [ih _ (by rw [List.length_drop]; omega), ← crc32cUpdate_append, List.take_append_drop]

/-- The header with the checksum field still zero. -/
def headerPrologue (flag : UInt8) (offset publishedAtMs keyLen requestIdLen payloadLen : ℕ) :
    Bytes :=
  recordMagic ++ [recordFormatVersion, flag] ++ le 2 recordHeaderLen ++ le 4 payloadLen ++
    le 4 payloadLen ++ le 8 offset ++ le 8 publishedAtMs ++ le 4 keyLen ++ le 4 requestIdLen ++
    [0, 0, 0, 0]

def recordHeader (flag : UInt8) (offset publishedAtMs : ℕ) (key requestId payload : Bytes) :
    Bytes :=
  let prologue := headerPrologue flag offset publishedAtMs key.length requestId.length
    payload.length
  prologue ++ le 4 (recordChecksum (prologue ++ [0, 0, 0, 0]) key requestId payload).toNat

def invalidRecordData (message : String) : BrokerError := .io ⟨.invalidData, message⟩

/-- Where a record is and what its frame says about it. -/
structure RecordIndex where
  offset : ℕ
  payloadOffset : ℕ
  payloadLen : ℕ
  key : Option String
  requestId : Option String
  requestIdentityKind : Option RequestIdentityKind
  publishedAtMs : ℕ
deriving DecidableEq, Repr

structure ParsedRecord where
  index : RecordIndex
  nextCursor : ℕ
deriving DecidableEq, Repr

structure HeaderFields where
  identityKind : Option RequestIdentityKind
  storedLen : ℕ
  offset : ℕ
  publishedAtMs : ℕ
  keyLen : ℕ
  requestIdLen : ℕ
  checksum : ℕ
deriving DecidableEq, Repr

def readIdentityKind (flag : UInt8) : Except BrokerError (Option RequestIdentityKind) :=
  if flag = RequestIdentityKind.publicId.flag then .ok (some .publicId)
  else if flag = RequestIdentityKind.deadLetterMove.flag then .ok (some .deadLetterMove)
  else if flag = noIdentityFlag then .ok none
  else .error (invalidRecordData "unsupported RNL3 record identity flag")

/-- The checks on a header, in the order of the source. -/
def readHeader (header : Bytes) : Except BrokerError HeaderFields := do
  if header.getD 4 0 ≠ recordFormatVersion then
    throw (invalidRecordData "unsupported RNL3 record version")
  let identityKind ← readIdentityKind (header.getD 5 0)
  if ofLe (slice header 6 2) ≠ recordHeaderLen then
    throw (invalidRecordData "invalid RNL3 record header length")
  let storedLen := ofLe (slice header 8 4)
  let logicalLen := ofLe (slice header 12 4)
  let keyLen := ofLe (slice header 32 4)
  let requestIdLen := ofLe (slice header 36 4)
  if maxKeyLen < keyLen then
    throw (invalidRecordData "RNL3 record key exceeds storage limit")
  if maxRequestIdLen < requestIdLen then
    throw (invalidRecordData "RNL3 record ID exceeds storage limit")
  if maxBodyLen < storedLen ∨ maxBodyLen < logicalLen then
    throw (invalidRecordData "RNL3 record exceeds storage limit")
  if identityKind.isNone ∧ requestIdLen ≠ 0 then
    throw (invalidRecordData "RNL3 record without identity contains ID bytes")
  if logicalLen ≠ storedLen then
    throw (invalidRecordData "compressed RNL3 records are not supported")
  if slice header 40 4 ≠ [0, 0, 0, 0] then
    throw (invalidRecordData "unsupported RNL3 record header fields")
  return {
    identityKind := identityKind
    storedLen := storedLen
    offset := ofLe (slice header 16 8)
    publishedAtMs := ofLe (slice header 24 8)
    keyLen := keyLen
    requestIdLen := requestIdLen
    checksum := ofLe (slice header 44 4) }

def readText (bytes : Bytes) (message : String) : Except BrokerError String :=
  match fromUtf8? bytes with
  | some text => .ok text
  | none => .error (invalidRecordData message)

def readKey (bytes : Bytes) : Except BrokerError (Option String) :=
  if bytes.isEmpty then .ok none
  else some <$> readText bytes "RNL3 record key is not UTF-8"

def readRequestId (identityKind : Option RequestIdentityKind) (bytes : Bytes) :
    Except BrokerError (Option String) :=
  match identityKind with
  | none => .ok none
  | some _ => some <$> readText bytes "RNL3 record ID is not UTF-8"

def readFields (rest : Bytes) (cursor : ℕ) (fields : HeaderFields) :
    Except BrokerError (Option ParsedRecord) :=
  let recordLen := recordHeaderLen + fields.keyLen + fields.requestIdLen + fields.storedLen
  if u64Max < recordLen then
    .error (invalidRecordData "RNL3 record length overflows u64")
  else if rest.length < recordLen then .ok none
  else do
    let keyBytes := slice rest recordHeaderLen fields.keyLen
    let key ← readKey keyBytes
    let requestIdBytes := slice rest (recordHeaderLen + fields.keyLen) fields.requestIdLen
    let requestId ← readRequestId fields.identityKind requestIdBytes
    let body := slice rest (recordHeaderLen + fields.keyLen + fields.requestIdLen) fields.storedLen
    let checksum := crc32cUpdate (crc32cUpdate (crc32cUpdate (~~~0)
      (checksumHeader (rest.take recordHeaderLen))) keyBytes) requestIdBytes
    if (crc32cFinalize (crc32cPieces body.length checksum body)).toNat ≠ fields.checksum then
      throw (invalidRecordData "RNL3 record checksum mismatch")
    else
      return some
        { index :=
            { offset := fields.offset
              payloadOffset := cursor + recordHeaderLen + fields.keyLen + fields.requestIdLen
              payloadLen := fields.storedLen
              key := key
              requestId := requestId
              requestIdentityKind := fields.identityKind
              publishedAtMs := fields.publishedAtMs }
          nextCursor := cursor + recordLen }

/-- The record that `rest` starts with; `none` is an incomplete tail. -/
def readRecord (rest : Bytes) (cursor : ℕ) : Except BrokerError (Option ParsedRecord) :=
  if rest.length < recordHeaderLen then .ok none
  else do
    let fields ← readHeader (rest.take recordHeaderLen)
    readFields rest cursor fields

def readNextRecord (bytes : Bytes) (cursor : ℕ) : Except BrokerError (Option ParsedRecord) :=
  let rest := bytes.drop cursor
  if rest.length < 4 then .ok none
  else
    let magic := rest.take 4
    if magic = utf8 "RNL1" then
      .error (invalidRecordData "unsupported RNL1 stream format; this broker requires RNL3")
    else if magic = utf8 "RNL2" then
      .error (invalidRecordData "unsupported RNL2 stream format; this broker requires RNL3")
    else if magic ≠ recordMagic then
      .error (invalidRecordData "unsupported stream record magic")
    else readRecord rest cursor

end Runnel.Local
