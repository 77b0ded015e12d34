import Runnel.Foundation.Fallible
import Runnel.Engine.Types

/-!
# Segments of the Raft log

A segment file is a header and batches of entries, each batch framed by a header
with a checksum of its own, the entries with their lengths, and a trailer with a
checksum of the whole and an end marker.
-/

namespace Runnel.RaftLog

open Bytes

def formatVersion : ℕ := 3

def segmentMagic : Bytes := utf8 "RSG3"

def batchMagic : Bytes := utf8 "BAT3"

def batchEnd : Bytes := utf8 "END3"

def segmentHeaderLen : ℕ := 16

def batchHeaderLen : ℕ := 36

def batchTrailerLen : ℕ := 8

def invalidData (message : String) : IoError := ⟨.invalidData, message⟩

def crc32Bit (crc : UInt32) : UInt32 := (crc >>> 1) ^^^ (0xedb88320 &&& (0 - (crc &&& 1)))

def crc32Byte (crc : UInt32) (byte : UInt8) : UInt32 :=
  crc32Bit (crc32Bit (crc32Bit (crc32Bit (crc32Bit (crc32Bit (crc32Bit (crc32Bit
    (crc ^^^ byte.toUInt32))))))))

def crc32 (bytes : Bytes) : UInt32 := ~~~(bytes.foldl crc32Byte (~~~0))

def segmentHeader (startIndex : ℕ) : Bytes :=
  segmentMagic ++ le 4 formatVersion ++ le 8 startIndex

/-- The entries of a batch, each behind its length; their indices follow each other. -/
def encodeEntries (startIndex : ℕ) : ℕ → List (ℕ × Bytes) → Except IoError Bytes
  | _, [] => .ok []
  | ordinal, (index, bytes) :: entries =>
    let expectedIndex := startIndex + ordinal
    if u64Max < expectedIndex then .error (invalidData "Raft-log index overflow")
    else if index ≠ expectedIndex then
      .error (invalidData
        s!"non-contiguous Raft-log append: expected index {expectedIndex}, found {index}")
    else if u32Max < bytes.length then
      .error (invalidData "Raft-log entry exceeds the frame length field")
    else do
      let rest ← encodeEntries startIndex (ordinal + 1) entries
      return le 4 bytes.length ++ bytes ++ rest

def batchHead (generation startIndex count payloadLength : ℕ) : Bytes :=
  batchMagic ++ le 8 generation ++ le 8 startIndex ++ le 4 count ++ le 8 payloadLength

def batchBody (generation startIndex count : ℕ) (payload : Bytes) : Bytes :=
  let head := batchHead generation startIndex count payload.length
  head ++ le 4 (crc32 head).toNat ++ payload

def batchFrame (generation startIndex count : ℕ) (payload : Bytes) : Bytes :=
  let body := batchBody generation startIndex count payload
  body ++ le 4 (crc32 body).toNat ++ batchEnd

def encodeFrame (startGeneration startIndex : ℕ) (entries : List (ℕ × Bytes)) :
    Except IoError Bytes := do
  if u32Max < entries.length then
    throw (invalidData "Raft-log segment batch has too many entries")
  let payload ← encodeEntries startIndex 0 entries
  if u64Max < payload.length then
    throw (invalidData "Raft-log batch payload length overflow")
  return batchFrame startGeneration startIndex entries.length payload

/-- The state that the reader of the segments goes by. -/
structure ControlState where
  generation : ℕ
  truncationPendingFrom : Option ℕ
deriving DecidableEq, Repr

structure EntryRecord (E : Type) where
  generation : ℕ
  entry : E
deriving DecidableEq, Repr

structure ReadSegment (E : Type) where
  path : String
  startIndex : ℕ
  records : List (EntryRecord E)
  recordCount : ℕ
  validLength : ℕ
  incompleteTail : Bool
deriving DecidableEq, Repr

structure BatchHeader where
  generation : ℕ
  start : ℕ
  count : ℕ
  payloadLength : ℕ
deriving DecidableEq, Repr

/-- A batch that was read: the records that are kept, how many it has, and its length. -/
structure ReadBatch (E : Type) where
  records : List (EntryRecord E)
  count : ℕ
  length : ℕ
deriving DecidableEq, Repr

section Reading

variable {E : Type} (index : E → ℕ) (decode : Bytes → Except String E) (path : String)
  (state : ControlState)

/-- An entry, unless a truncation that is pending drops it. -/
def readEntry (generation batchStart ordinal : ℕ) (bytes : Bytes) :
    Except IoError (Option (EntryRecord E)) :=
  match decode bytes with
  | .error message => .error (invalidData message)
  | .ok entry =>
    let expectedIndex := batchStart + ordinal
    if u64Max < expectedIndex then .error (invalidData "Raft-log entry index overflow")
    else if index entry ≠ expectedIndex then
      .error (invalidData ("Raft-log entry index " ++ toString (index entry) ++
        " does not match batch index " ++ toString expectedIndex))
    else
      match state.truncationPendingFrom with
      | none => .ok (some ⟨generation, entry⟩)
      | some boundary =>
        if boundary ≤ expectedIndex then .ok none
        else if generation < state.generation then .ok (some ⟨generation, entry⟩)
        else .error (invalidData
          s!"Raft-log entry at index {expectedIndex} belongs to the pending truncation generation")

/-- As many entries as the batch says it has, from the payload that is left, and what is left
behind them. -/
def parseEntries (generation batchStart : ℕ) : ℕ → ℕ → ℕ → Bytes →
    Except IoError (List (EntryRecord E) × Bytes)
  | 0, _, _, rest => .ok ([], rest)
  | count + 1, ordinal, payloadOffset, rest =>
    if rest.length < 4 then
      .error (invalidData "truncated Raft-log entry frame in completed batch")
    else
      let entryLength := ofLe (rest.take 4)
      let entryEnd := payloadOffset + 4 + entryLength
      if u64Max < entryEnd then .error (invalidData "Raft-log entry frame length overflow")
      else if rest.length < 4 + entryLength then
        .error (invalidData "truncated Raft-log entry in completed batch")
      else do
        let record ← readEntry index decode state generation batchStart ordinal
          (slice rest 4 entryLength)
        let (records, rest) ← parseEntries generation batchStart count (ordinal + 1) entryEnd
          (rest.drop (4 + entryLength))
        return (record.toList ++ records, rest)

def readBatchHeader (offset : ℕ) (rest : Bytes) : Except IoError BatchHeader :=
  if rest.take 4 ≠ batchMagic then
    .error (invalidData s!"invalid Raft-log batch marker in '{path}' at byte {offset}")
  else if (crc32 (rest.take 32)).toNat ≠ ofLe (slice rest 32 4) then
    .error (invalidData s!"Raft-log batch header checksum mismatch in '{path}' at byte {offset}")
  else .ok {
    generation := ofLe (slice rest 4 8)
    start := ofLe (slice rest 12 8)
    count := ofLe (slice rest 20 4)
    payloadLength := ofLe (slice rest 24 8) }

def readBatchBody (offset : ℕ) (rest : Bytes) (header : BatchHeader) :
    Except IoError (Option (ReadBatch E)) :=
  let bodyLength := batchHeaderLen + header.payloadLength
  let frameLength := bodyLength + batchTrailerLen
  if u64Max < frameLength then .error (invalidData "Raft-log batch length overflow")
  else if rest.length < frameLength then .ok none
  else if slice rest (bodyLength + 4) 4 ≠ batchEnd then
    .error (invalidData
      s!"invalid Raft-log batch completion marker in '{path}' at byte {offset}")
  else if (crc32 (rest.take bodyLength)).toNat ≠ ofLe (slice rest bodyLength 4) then
    .error (invalidData s!"Raft-log batch checksum mismatch in '{path}' at byte {offset}")
  else if header.count = 0 then .error (invalidData "Raft-log batch cannot be empty")
  else do
    let (records, trailing) ← parseEntries index decode state header.generation header.start
      header.count 0 (offset + batchHeaderLen) (slice rest batchHeaderLen header.payloadLength)
    if !trailing.isEmpty then
      throw (invalidData "Raft-log batch has trailing entry payload bytes")
    return some { records, count := header.count, length := frameLength }

/-- The batch that `rest` starts with; `none` is a batch that was not written to its end. -/
def parseBatch (offset : ℕ) (rest : Bytes) : Except IoError (Option (ReadBatch E)) :=
  if rest.length < batchHeaderLen then .ok none
  else do
    let header ← readBatchHeader path offset rest
    readBatchBody index decode path state offset rest header

theorem parseBatch_length_pos {offset : ℕ} {rest : Bytes} {batch : ReadBatch E}
    (h : parseBatch index decode path state offset rest = .ok (some batch)) : 0 < batch.length := by
  unfold parseBatch at h
  split_ifs at h
  · cases h
  · obtain ⟨header, -, h⟩ := except_bind_eq_ok_iff.1 h
    unfold readBatchBody at h
    dsimp only at h
    split_ifs at h
    · cases h
    · obtain ⟨⟨records, trailing⟩, -, h⟩ := except_bind_eq_ok_iff.1 h
      split_ifs at h
      · cases h
      · obtain rfl := Option.some.inj (Except.ok.inj h)
        exact Nat.add_pos_right _ (by decide)

/-- What the batches of a segment amount to: the records, their number, the length up to the end of
the last complete batch, and whether anything is behind it. -/
structure ReadBatches (E : Type) where
  records : List (EntryRecord E)
  recordCount : ℕ
  validLength : ℕ
  incompleteTail : Bool
deriving DecidableEq, Repr

/-- The loop over the batches; nothing if the fuel does not last. -/
def parseBatches : ℕ → ℕ → Bytes → Option (Except IoError (ReadBatches E))
  | 0, _, _ => none
  | fuel + 1, offset, rest =>
    if rest.isEmpty then some (.ok ⟨[], 0, offset, false⟩)
    else
      match parseBatch index decode path state offset rest with
      | .error error => some (.error error)
      | .ok none => some (.ok ⟨[], 0, offset, true⟩)
      | .ok (some batch) =>
        (parseBatches fuel (offset + batch.length) (rest.drop batch.length)).map fun later =>
          later.map fun batches =>
            { batches with
              records := batch.records ++ batches.records
              recordCount := batch.count + batches.recordCount }

/-- Every batch takes a byte at least, so the length of the bytes is fuel enough. -/
theorem parseBatches_isSome (fuel offset : ℕ) (rest : Bytes) (h : rest.length < fuel) :
    (parseBatches index decode path state fuel offset rest).isSome := by
  induction fuel generalizing offset rest with
  | zero => omega
  | succ fuel ih =>
    rw [parseBatches]
    split_ifs with hempty
    · rfl
    · cases hbatch : parseBatch index decode path state offset rest with
      | error error => rfl
      | ok batch =>
        cases batch with
        | none => rfl
        | some batch =>
          have hpos := parseBatch_length_pos index decode path state hbatch
          have hlength : 0 < rest.length := List.length_pos_iff.2 (by simpa using hempty)
          have hrest := ih (offset + batch.length) (rest.drop batch.length) (by
            rw [List.length_drop]
            omega)
          rw [Option.isSome_map]
          exact hrest

def parseSegment (bytes : Bytes) (expectedStart : ℕ) : Except IoError (ReadSegment E) := do
  if bytes.length < segmentHeaderLen then
    throw (invalidData s!"truncated Raft-log segment header in '{path}'")
  if bytes.take 4 ≠ segmentMagic then
    throw (invalidData s!"invalid Raft-log segment magic in '{path}'")
  let version := ofLe (slice bytes 4 4)
  if version ≠ formatVersion then
    throw (invalidData s!"unsupported Raft-log segment version {version} in '{path}'")
  let startIndex := ofLe (slice bytes 8 8)
  if startIndex ≠ expectedStart then
    throw (invalidData (s!"Raft-log segment filename index {expectedStart} does not match " ++
      s!"header index {startIndex}"))
  let rest := bytes.drop segmentHeaderLen
  let batches ← (parseBatches index decode path state (rest.length + 1) segmentHeaderLen rest).get
    (parseBatches_isSome index decode path state _ _ _ (Nat.lt_succ_self _))
  if batches.recordCount = 0 then
    throw (invalidData s!"Raft-log segment '{path}' contains no complete batch")
  return {
    path
    startIndex
    records := batches.records
    recordCount := batches.recordCount
    validLength := batches.validLength
    incompleteTail := batches.incompleteTail }

end Reading

end Runnel.RaftLog
