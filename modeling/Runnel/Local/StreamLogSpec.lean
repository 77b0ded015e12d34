import Runnel.Local.LogLayout

/-!
# What a log stands for

An open log stands for a list of records: its file holds their frames, possibly
followed by the start of a frame that was never finished, and its indexes are
those of the list.
-/

namespace Runnel.Local

open Runnel.Engine Bytes

def RequestIdentityKind.identity (identity : String) : RequestIdentityKind → RecordIdentity
  | .publicId => .publicId identity
  | .deadLetterMove => .deadLetterMove identity

namespace RequestIdentityIndex

theorem get_remember (index : RequestIdentityIndex) (identity other : String) (offset : ℕ)
    (kind otherKind : RequestIdentityKind) :
    (index.remember identity offset kind).get other otherKind =
      (index.get other otherKind).or
        (if kind.identity identity = otherKind.identity other then some offset else none) := by
  cases kind <;> cases otherKind
  · simpa [remember, get, RequestIdentityKind.identity] using getElem?_insertIfNew_eq
      index.publicIds identity other offset
  · simp [remember, get, RequestIdentityKind.identity]
  · simp [remember, get, RequestIdentityKind.identity]
  · simpa [remember, get, RequestIdentityKind.identity] using getElem?_insertIfNew_eq
      index.deadLetterMoves identity other offset

end RequestIdentityIndex

structure Indexed (log : StreamLog) (records : List Record) : Prop where
  tail : log.records = (entries records).drop ((entries records).length - maxInMemoryRecords)
  checkpoint : ∀ checkpoint ∈ log.sparseIndex.checkpoints, checkpoint.offset < records.length ∧
    checkpoint.cursor = framesLen (records.take checkpoint.offset)
  identity : ∀ identity kind, log.requestIds.get identity kind =
    records.findIdx? fun record => record.identity = kind.identity identity
  nextOffset : log.nextOffset = records.length

namespace Indexed

variable {log : StreamLog} {records : List Record}

theorem nil (file : File) : Indexed { file := file } [] where
  tail := rfl
  checkpoint := by simp
  identity := by
    intro identity kind
    cases kind <;> simp [RequestIdentityIndex.get]
  nextOffset := rfl

theorem remember (h : Indexed log records) (record : Record) :
    Indexed { log.remember (framesLen records) (record.index records.length (framesLen records))
      with nextOffset := records.length + 1 } (records ++ [record]) where
  tail := by
    rw [entries_concat, ← pushBounded_drop (by decide), ← h.tail]
    rfl
  checkpoint := by
    have hold : ∀ checkpoint ∈ log.sparseIndex.checkpoints,
        checkpoint.offset < (records ++ [record]).length ∧
        checkpoint.cursor = framesLen ((records ++ [record]).take checkpoint.offset) := by
      intro checkpoint hmem
      obtain ⟨hlt, hcursor⟩ := h.checkpoint checkpoint hmem
      rw [List.take_append_of_le_length hlt.le, List.length_append]
      exact ⟨by omega, hcursor⟩
    intro checkpoint hmem
    simp only [StreamLog.remember, SparseIndex.remember] at hmem
    split_ifs at hmem
    · exact hold checkpoint hmem
    · rcases mem_of_mem_pushBounded hmem with hmem | rfl
      · exact hold checkpoint hmem
      · simp [Record.index]
  identity := by
    intro identity kind
    have hlast : ([record].findIdx? fun record => record.identity = kind.identity identity).map
        (· + records.length) =
        if record.identity = kind.identity identity then some records.length else none := by
      by_cases hsame : record.identity = kind.identity identity <;> simp [hsame]
    rw [List.findIdx?_append, ← h.identity identity kind, hlast]
    cases hrecord : record.identity with
    | none =>
      rw [if_neg (by cases kind <;> simp [RequestIdentityKind.identity]), Option.or_none]
      simp [StreamLog.remember, Record.index, hrecord, RecordIdentity.requestId]
    | publicId requestId =>
      simp only [StreamLog.remember, Record.index, hrecord]
      exact RequestIdentityIndex.get_remember _ _ _ _ .publicId _
    | deadLetterMove moveId =>
      simp only [StreamLog.remember, Record.index, hrecord]
      exact RequestIdentityIndex.get_remember _ _ _ _ .deadLetterMove _
  nextOffset := by simp

theorem exists_record (h : Indexed log records) {identity : String} {kind : RequestIdentityKind}
    {offset : ℕ} (hget : log.requestIds.get identity kind = some offset) :
    ∃ record, records[offset]? = some record ∧ record.identity = kind.identity identity := by
  rw [h.identity, List.findIdx?_eq_some_iff_getElem] at hget
  obtain ⟨hlt, hidentity, -⟩ := hget
  exact ⟨records[offset], List.getElem?_eq_getElem hlt, of_decide_eq_true hidentity⟩

theorem recordsEnd (h : Indexed log records) :
    (log.records.getLast?.elim 0 fun record => record.payloadOffset + record.payloadLen) =
      framesLen records := by
  rw [h.tail]
  rcases List.eq_nil_or_concat records with rfl | ⟨front, record, rfl⟩
  · rfl
  · rw [List.concat_eq_append, entries_concat, List.length_append,
      List.drop_append_of_le_length (by simp [maxInMemoryRecords])]
    simp [Record.index, Record.frameLen]
    omega

theorem scanStart (h : Indexed log records) (offset : ℕ) :
    ∃ front rest, records = front ++ rest ∧ front.length ≤ offset ∧
      log.scanStart offset = framesLen front := by
  unfold StreamLog.scanStart SparseIndex.startFor
  cases hfind : log.sparseIndex.checkpoints.reverse.find? fun checkpoint =>
      checkpoint.offset ≤ offset with
  | none => exact ⟨[], records, rfl, Nat.zero_le _, rfl⟩
  | some checkpoint =>
    obtain ⟨hlt, hcursor⟩ := h.checkpoint checkpoint
      (List.mem_reverse.1 (List.mem_of_find?_eq_some hfind))
    have hle : checkpoint.offset ≤ offset := by simpa using List.find?_some hfind
    refine ⟨records.take checkpoint.offset, records.drop checkpoint.offset, by simp, ?_, hcursor⟩
    rw [List.length_take]
    omega

theorem find?_records (h : Indexed log records) {front rest : List Record} {record : Record}
    (hsplit : records = front ++ record :: rest) :
    log.records.find? (fun entry => entry.offset = front.length) =
      if records.length - maxInMemoryRecords ≤ front.length
      then some (record.index front.length (framesLen front)) else none := by
  generalize hfirst : records.length - maxInMemoryRecords = first
  have hle : first ≤ records.length := by omega
  have htail : log.records =
      entriesFrom first (framesLen (records.take first)) (records.drop first) := by
    have hsplitAt := entriesFrom_append 0 0 (records.take first) (records.drop first)
    rw [List.take_append_drop, Nat.zero_add, Nat.zero_add, List.length_take,
      Nat.min_eq_left hle] at hsplitAt
    rw [h.tail, length_entries, hfirst, entries, hsplitAt, List.drop_left']
    rw [length_entriesFrom, List.length_take, Nat.min_eq_left hle]
  rw [htail]
  split_ifs with hwindow
  · have hdrop : records.drop first = front.drop first ++ record :: rest := by
      rw [hsplit, List.drop_append_of_le_length hwindow]
    have htake : records.take first = front.take first := by
      rw [hsplit, List.take_append_of_le_length hwindow]
    have hfound := find?_entriesFrom first (framesLen (front.take first)) (front.drop first)
      record rest
    rw [List.length_drop, Nat.add_sub_cancel' hwindow, ← framesLen_append,
      List.take_append_drop] at hfound
    rw [hdrop, htake]
    exact hfound
  · rw [List.find?_eq_none]
    intro entry hentry hsame
    obtain ⟨before, other, after, -, rfl⟩ := mem_entriesFrom hentry
    have hoffset : first + before.length = front.length := of_decide_eq_true hsame
    omega

end Indexed

variable {file : File} {records : List Record} {part : Bytes}

theorem File.length_lt (h : file.bytes = frames records ++ part) : records.length < 2 ^ 62 := by
  have hfile := file.length_le
  have hframes := length_le_framesLen records
  rw [h, List.length_append, length_frames] at hfile
  unfold maxFileLen at hfile
  unfold recordHeaderLen at hframes
  omega

/-- The log stands for the records; `part` is left of a frame that was never finished. -/
structure Represents (log : StreamLog) (records : List Record) (part : Bytes) : Prop where
  bytes : log.file.bytes = frames records ++ part
  indexed : Indexed log records
  unfinished : ∃ record : Record, part <+: record.frame records.length

namespace Represents

variable {log : StreamLog} {records : List Record} {part : Bytes}

theorem length_lt (h : Represents log records part) : records.length < 2 ^ 62 :=
  File.length_lt h.bytes

/-- A scan for an offset or later ones reports the first wanted record of the file. -/
theorem scanRecords_eq (h : Represents log records part) {offset : ℕ} {wanted : RecordIndex → Bool}
    (hwanted : ∀ entry, entry.offset < offset → wanted entry = false) :
    ∃ fuel, scanRecords log.file.bytes wanted (log.file.bytes.length + 1) (log.scanStart offset) =
      ((entries (records.map Record.stored)).find? wanted).elim
        (scanRecords log.file.bytes wanted (fuel + 1) (framesLen records))
        (fun found => .ok (some found)) := by
  obtain ⟨front, rest, rfl, hle, hstart⟩ := h.indexed.scanStart offset
  have hlen := h.length_lt
  have hfuel : log.file.bytes.length + 1 =
      log.file.bytes.length - rest.length + 1 + rest.length := by
    have hframes := length_le_framesLen (front ++ rest)
    rw [h.bytes, List.length_append, length_frames]
    unfold recordHeaderLen at hframes
    rw [List.length_append] at hframes
    omega
  refine ⟨log.file.bytes.length - rest.length, ?_⟩
  rw [List.map_append, find?_entries_append (by simpa using hle) hwanted, List.length_map,
    framesLen_stored, hstart, hfuel, h.bytes]
  exact scanRecords_frames wanted _ (by omega)

theorem scanRecords_eq_find? (h : Represents log records part)
    (hend : readNextRecord log.file.bytes (framesLen records) = .ok none) {offset : ℕ}
    {wanted : RecordIndex → Bool}
    (hwanted : ∀ entry, entry.offset < offset → wanted entry = false) :
    scanRecords log.file.bytes wanted (log.file.bytes.length + 1) (log.scanStart offset) =
      .ok ((entries (records.map Record.stored)).find? wanted) := by
  obtain ⟨fuel, hscan⟩ := h.scanRecords_eq hwanted
  rw [hscan]
  cases (entries (records.map Record.stored)).find? wanted with
  | none => rw [Option.elim_none, scanRecords, hend]
  | some found => rfl

variable {front rest : List Record} {record : Record}

/-- The entry a lookup returns: the one made by the append as long as it is in memory, and then
the one read from the file. -/
theorem findRecord_eq (h : Represents log records part)
    (hsplit : records = front ++ record :: rest) :
    log.findRecord front.length = .ok (if records.length - maxInMemoryRecords ≤ front.length
      then record.index front.length (framesLen front)
      else record.stored.index front.length (framesLen front)) := by
  unfold StreamLog.findRecord
  rw [h.indexed.find?_records hsplit]
  split_ifs
  · rfl
  · obtain ⟨fuel, hscan⟩ := @scanRecords_eq _ _ _ h front.length
      (fun entry => entry.offset = front.length) fun entry hlt => decide_eq_false hlt.ne
    have hentry := find?_entriesFrom 0 0 (front.map Record.stored) record.stored
      (rest.map Record.stored)
    rw [List.length_map, framesLen_stored, Nat.zero_add, Nat.zero_add, ← List.map_cons,
      ← List.map_append, ← hsplit] at hentry
    rw [entries, hentry] at hscan
    simp only [hscan, Option.elim_some]

theorem findRecord (h : Represents log records part) (hsplit : records = front ++ record :: rest) :
    log.findRecord front.length = .ok (record.index front.length (framesLen front)) ∨
      log.findRecord front.length = .ok (record.stored.index front.length (framesLen front)) := by
  rw [h.findRecord_eq hsplit]
  split_ifs
  · exact Or.inl rfl
  · exact Or.inr rfl

theorem readNextRecord_end (h : Represents log records []) :
    readNextRecord log.file.bytes (framesLen records) = .ok none := by
  obtain ⟨record, hpart⟩ := h.unfinished
  have hread := record.readNextRecord_part (h.length_lt.trans (by decide)) (frames records) hpart
    (lt_of_lt_of_le (by decide) record.recordHeaderLen_le_frameLen)
  rwa [length_frames, ← h.bytes] at hread

theorem readPayload (h : Represents log records part)
    (hsplit : records = front ++ record :: rest) {index : RecordIndex}
    (hoffset : index.payloadOffset = (record.index front.length (framesLen front)).payloadOffset)
    (hlen : index.payloadLen = record.payload.length) :
    log.readPayload index = .ok record.payload := by
  have hbytes : log.file.bytes = (frames front ++ record.header front.length ++
      keyBytes record.key ++ record.identity.bytes) ++ record.payload ++
        (framesFrom (front.length + 1) rest ++ part) := by
    rw [h.bytes, hsplit, frames_split, Record.frame]
    simp only [List.append_assoc]
  have hstart : (frames front ++ record.header front.length ++
      keyBytes record.key ++ record.identity.bytes).length = index.payloadOffset := by
    rw [hoffset]
    simp [Record.index]
    omega
  have hfits : index.payloadOffset + index.payloadLen ≤ log.file.bytes.length := by
    rw [hbytes, List.length_append, List.length_append, hstart, hlen]
    omega
  rw [StreamLog.readPayload, if_pos hfits, slice_eq hbytes hstart hlen.symm]

end Represents

/-- The file ends where the last indexed record ends: no unfinished frame is left in it. -/
def StreamLog.Clean (log : StreamLog) : Prop :=
  log.file.bytes.length =
    log.records.getLast?.elim 0 fun record => record.payloadOffset + record.payloadLen

instance (log : StreamLog) : Decidable log.Clean := inferInstanceAs (Decidable (_ = _))

theorem recordLengths_cases (keyLen payloadLen : ℕ) :
    (recordLengths keyLen payloadLen = .ok () ∧ keyLen ≤ maxKeyLen ∧ payloadLen ≤ maxBodyLen) ∨
    ∃ message, recordLengths keyLen payloadLen = .error (.invalidRecord message) := by
  unfold recordLengths
  split_ifs
  all_goals first
    | exact Or.inr ⟨_, rfl⟩
    | exact Or.inl ⟨rfl, by omega, by omega⟩

theorem requestIdLength_cases (requestIdLen : ℕ) :
    (requestIdLength requestIdLen = .ok () ∧ requestIdLen ≤ maxRequestIdLen) ∨
    ∃ message, requestIdLength requestIdLen = .error (.invalidRecord message) := by
  unfold requestIdLength
  split_ifs
  all_goals first
    | exact Or.inr ⟨_, rfl⟩
    | exact Or.inl ⟨rfl, by omega⟩

theorem checkLengths_cases (key : Option String) (payload : Bytes) (identity : RecordIdentity) :
    (checkLengths key payload identity = .ok () ∧ (keyBytes key).length ≤ maxKeyLen ∧
      payload.length ≤ maxBodyLen ∧ identity.bytes.length ≤ maxRequestIdLen) ∨
    ∃ message, checkLengths key payload identity = .error (.invalidRecord message) := by
  unfold checkLengths
  rcases recordLengths_cases (keyBytes key).length payload.length with ⟨hok, hkey, hpayload⟩ |
    ⟨message, herror⟩
  · rw [hok]
    rcases requestIdLength_cases identity.bytes.length with ⟨hid, hle⟩ | ⟨message, herror⟩
    · exact Or.inl ⟨hid, hkey, hpayload, hle⟩
    · exact Or.inr ⟨message, herror⟩
  · rw [herror]
    exact Or.inr ⟨message, rfl⟩

theorem writeFrame_spec (file : File) (buffers : List Bytes) (sync : Bool) :
    (∃ after, StreamLog.writeFrame file buffers sync = (after, .ok ()) ∧
      after.bytes = file.bytes ++ buffers.flatten) ∨
    ∃ after error written, StreamLog.writeFrame file buffers sync = (after, .error error) ∧
      written <+: buffers.flatten ∧ after.bytes = file.bytes ++ written := by
  unfold StreamLog.writeFrame
  rcases file.writeEach_spec buffers with ⟨after, hwrite, hbytes⟩ |
    ⟨after, error, written, hwrite, hpart, hbytes⟩
  · rw [hwrite]
    cases sync with
    | false => exact Or.inl ⟨after, rfl, hbytes⟩
    | true =>
      have hsynced := after.syncData_spec
      rw [hbytes] at hsynced
      cases hsync : after.syncData with
      | mk synced result =>
        rw [hsync] at hsynced
        cases result with
        | ok => exact Or.inl ⟨synced, hsync, hsynced⟩
        | error error => exact Or.inr ⟨synced, error, _, hsync, List.prefix_rfl, hsynced⟩
  · rw [hwrite]
    exact Or.inr ⟨after, error, written, rfl, hpart, hbytes⟩

namespace Represents

variable {log : StreamLog} {records : List Record} {part : Bytes}

theorem clean_iff (h : Represents log records part) : log.Clean ↔ part = [] := by
  rw [StreamLog.Clean, h.indexed.recordsEnd, h.bytes, List.length_append, length_frames,
    ← List.length_eq_zero_iff]
  omega

/-- An append is rejected by its limits, or fails and leaves the start of a frame, or adds
its record. -/
theorem appendRecord (h : Represents log records part) {key : Option String} {payload : Bytes}
    {identity : RecordIdentity} (hclean : checkLengths key payload identity = .ok () → log.Clean)
    (sync : Bool) :
    (∃ message, log.appendRecordWithSync key payload identity sync =
      (log, .error (.invalidRecord message))) ∨
    (∃ after error, ∃ record : Record, ∃ left, log.appendRecordWithSync key payload identity sync =
      (after, .error (.io error)) ∧ record.identity = identity ∧
      left <+: record.frame records.length ∧ Represents after records left) ∨
    ∃ after record, log.appendRecordWithSync key payload identity sync =
      (after, .ok records.length) ∧ record.key = key ∧ record.payload = payload ∧
      record.identity = identity ∧ record.publishedAtMs = log.nowMs.1 ∧
      Represents after (records ++ [record]) [] := by
  rcases checkLengths_cases key payload identity with ⟨hok, hkey, hpayload, hid⟩ | ⟨message, herror⟩
  · obtain rfl := h.clean_iff.1 (hclean hok)
    right
    let record : Record :=
      { key := key, payload := payload, identity := identity, publishedAtMs := log.nowMs.1
        key_le := hkey, payload_le := hpayload, identity_le := hid
        published_lt := Nat.mod_lt _ (by decide) }
    have hflatten : [recordHeader identity.flag log.nextOffset log.nowMs.1 (keyBytes key)
        identity.bytes payload, keyBytes key, identity.bytes, payload].flatten =
          record.frame records.length := by
      rw [h.indexed.nextOffset]
      simp [Record.frame]
      rfl
    have hfile : log.file.bytes = frames records := h.bytes.trans (List.append_nil _)
    rw [StreamLog.appendRecordWithSync, hok]
    simp only
    rcases writeFrame_spec log.nowMs.2.file [recordHeader identity.flag log.nextOffset log.nowMs.1
        (keyBytes key) identity.bytes payload, keyBytes key, identity.bytes, payload] sync with
      ⟨file, hwrite, hbytes⟩ | ⟨file, error, written, hwrite, hpart, hbytes⟩
    · rw [hflatten] at hbytes
      have hend : file.bytes.length = framesLen records + record.frameLen := by
        rw [hbytes, List.length_append, Record.length_frame]
        exact congrArg (· + _) (hfile ▸ length_frames records)
      have hpayloadOffset : file.bytes.length - payload.length = framesLen records +
          recordHeaderLen + (keyBytes key).length + identity.bytes.length := by
        rw [hend]
        simp only [Record.frameLen, record]
        omega
      have hcursor : framesLen records + recordHeaderLen + (keyBytes key).length +
          identity.bytes.length - identity.bytes.length - (keyBytes key).length - recordHeaderLen =
            framesLen records := by omega
      have hindexed : Indexed { log.nowMs.2 with file := file } records :=
        ⟨h.indexed.tail, h.indexed.checkpoint, h.indexed.identity, h.indexed.nextOffset⟩
      have hnext : satAdd64 records.length 1 = records.length + 1 :=
        satAdd64_eq (h.length_lt.trans_le (by decide))
      right
      rw [hwrite]
      simp only [hpayloadOffset, hcursor, h.indexed.nextOffset, hnext]
      refine ⟨_, record, rfl, rfl, rfl, rfl, rfl, ?_, hindexed.remember record, record,
        List.nil_prefix⟩
      rw [List.append_nil, frames_concat, ← hfile]
      exact hbytes
    · left
      rw [hwrite]
      exact ⟨_, error, record, written, rfl, rfl, hflatten ▸ hpart,
        { bytes := hfile ▸ hbytes
          indexed := ⟨h.indexed.tail, h.indexed.checkpoint, h.indexed.identity,
            h.indexed.nextOffset⟩
          unfinished := ⟨record, hflatten ▸ hpart⟩ }⟩
  · left
    exact ⟨message, by rw [StreamLog.appendRecordWithSync, herror]⟩

end Represents

theorem Represents.finishRecovery {log : StreamLog} (h : Represents log records part) :
    Represents (log.finishRecovery (if framesLen records ≠ log.file.bytes.length
      then some (framesLen records) else none)) records [] := by
  obtain ⟨record, -⟩ := h.unfinished
  have hlen : log.file.bytes.length = framesLen records + part.length := by
    rw [h.bytes, List.length_append, length_frames]
  by_cases htail : framesLen records = log.file.bytes.length
  · rw [if_neg (not_not.2 htail)]
    have hpart : part = [] := List.length_eq_zero_iff.1 (by omega)
    exact ⟨h.bytes.trans (by rw [hpart]), h.indexed, record, List.nil_prefix⟩
  · rw [if_pos htail]
    refine ⟨?_, ⟨h.indexed.tail, h.indexed.checkpoint, h.indexed.identity, h.indexed.nextOffset⟩,
      record, List.nil_prefix⟩
    change log.file.bytes.take (framesLen records) = frames records ++ []
    rw [h.bytes, List.append_nil, ← length_frames records, List.take_left']
    rfl

theorem inspectLoop_front {front rest : List Record} {part : Bytes} {log : StreamLog} (fuel : ℕ)
    (hbytes : log.file.bytes = frames (front ++ rest) ++ part)
    (hindexed : Indexed log (front.map Record.stored)) (hlen : (front ++ rest).length < 2 ^ 62) :
    ∃ after, StreamLog.inspectLoop (fuel + rest.length) log (framesLen front) =
        StreamLog.inspectLoop fuel after (framesLen (front ++ rest)) ∧
      after.file = log.file ∧ Indexed after ((front ++ rest).map Record.stored) := by
  induction rest generalizing front log with
  | nil =>
    rw [List.append_nil]
    exact ⟨log, rfl, rfl, hindexed⟩
  | cons record rest ih =>
    rw [List.length_append, List.length_cons] at hlen
    have hread : readNextRecord log.file.bytes (framesLen front) = _ :=
      hbytes ▸ readNextRecord_frames (by omega)
    have hnext : log.nextOffset = front.length := by
      rw [hindexed.nextOffset, List.length_map]
    have hoffset : (record.stored.index front.length (framesLen front)).offset = front.length := rfl
    have hfits : ¬ u64Max < front.length + 1 := by
      have : 2 ^ 62 ≤ u64Max := by decide
      omega
    have hremember := hindexed.remember record.stored
    rw [List.length_map, framesLen_stored] at hremember
    obtain ⟨after, hloop, hfile, hafter⟩ := @ih (front ++ [record])
      { log.remember (framesLen front) (record.stored.index front.length (framesLen front)) with
        nextOffset := front.length + 1 }
      (by simpa using hbytes) (by simpa using hremember) (by simp; omega)
    refine ⟨after, ?_, hfile, by simpa using hafter⟩
    rw [List.length_cons, ← Nat.add_assoc, StreamLog.inspectLoop, hread]
    simp only [hoffset, hnext]
    rw [if_neg (not_not.2 rfl), if_neg hfits, hloop]
    simp

theorem inspectLoop_frames {front rest : List Record} {part : Bytes} {log : StreamLog} (fuel : ℕ)
    (hbytes : log.file.bytes = frames (front ++ rest) ++ part)
    (hindexed : Indexed log (front.map Record.stored)) (hlen : (front ++ rest).length < 2 ^ 62)
    (hend : readNextRecord log.file.bytes (framesLen (front ++ rest)) = .ok none) :
    ∃ after, StreamLog.inspectLoop (fuel + 1 + rest.length) log (framesLen front) =
        .ok (after, framesLen (front ++ rest)) ∧
      after.file = log.file ∧ Indexed after ((front ++ rest).map Record.stored) := by
  obtain ⟨after, hloop, hfile, hafter⟩ := inspectLoop_front (fuel + 1) hbytes hindexed hlen
  refine ⟨after, ?_, hfile, hafter⟩
  rw [hloop, StreamLog.inspectLoop, hfile, hend]

/-- Recovery reports the end of the frames as the start of an incomplete tail. -/
theorem inspect_eq {record : Record} (hbytes : file.bytes = frames records ++ part)
    (hpart : part <+: record.frame records.length) (hshort : part.length < record.frameLen) :
    ∃ recovered, StreamLog.inspect file = .ok (recovered,
        if framesLen records ≠ file.bytes.length then some (framesLen records) else none) ∧
      recovered.file = file ∧ Represents recovered (records.map Record.stored) part := by
  have hlen := File.length_lt hbytes
  have hend : readNextRecord file.bytes (framesLen ([] ++ records)) = .ok none := by
    have hread := record.readNextRecord_part (by omega) (frames records) hpart hshort
    rwa [length_frames, ← hbytes] at hread
  have hfuel : file.bytes.length + 1 = file.bytes.length - records.length + 1 + records.length := by
    have hframes := length_le_framesLen records
    rw [hbytes, List.length_append, length_frames]
    unfold recordHeaderLen at hframes
    omega
  obtain ⟨recovered, hloop, hfile, hindexed⟩ :=
    @inspectLoop_frames [] records part { file := file } (file.bytes.length - records.length)
      hbytes (Indexed.nil file) hlen hend
  rw [← hfuel, framesLen_nil] at hloop
  rw [StreamLog.inspect, hloop]
  refine ⟨recovered, rfl, hfile, ?_, hindexed, record, ?_⟩
  · rw [hfile, frames_stored]
    exact hbytes
  · rwa [List.length_map]

theorem inspect_of_unfinished {file : File} {records : List Record} {part : Bytes}
    {record : Record} (hbytes : file.bytes = frames records ++ part)
    (hpart : part <+: record.frame records.length) (hshort : part.length < record.frameLen) :
    ∃ recovered tail, StreamLog.inspect file = .ok (recovered, tail) ∧
      Represents recovered (records.map Record.stored) part ∧
      Represents (recovered.finishRecovery tail) (records.map Record.stored) [] := by
  obtain ⟨recovered, hinspect, hfile, hrep⟩ := inspect_eq hbytes hpart hshort
  have hcut := hrep.finishRecovery
  rw [framesLen_stored, hfile] at hcut
  exact ⟨recovered, _, hinspect, hrep, hcut⟩

/-- A file of frames is recovered, with the record of a last frame that is complete. -/
theorem inspect_frames {record : Record}
    (hbytes : file.bytes = frames records ++ part) (hpart : part <+: record.frame records.length) :
    ∃ recovered tail all left, StreamLog.inspect file = .ok (recovered, tail) ∧
      (all = records ∨ all = records ++ [record]) ∧
      Represents recovered (all.map Record.stored) left ∧
      Represents (recovered.finishRecovery tail) (all.map Record.stored) [] := by
  by_cases hshort : part.length < record.frameLen
  · obtain ⟨recovered, tail, hinspect, hrep, hcut⟩ := inspect_of_unfinished hbytes hpart hshort
    exact ⟨recovered, tail, records, part, hinspect, Or.inl rfl, hrep, hcut⟩
  · have hframe : part = record.frame records.length := by
      refine hpart.eq_of_length_le ?_
      rw [Record.length_frame]
      omega
    have hall : file.bytes = frames (records ++ [record]) ++ [] := by
      rw [hbytes, hframe, frames_concat, List.append_nil]
    obtain ⟨recovered, tail, hinspect, hrep, hcut⟩ := @inspect_of_unfinished _ _ _ record hall
      List.nil_prefix (lt_of_lt_of_le (by decide) record.recordHeaderLen_le_frameLen)
    exact ⟨recovered, tail, records ++ [record], [], hinspect, Or.inr rfl, hrep, hcut⟩

end Runnel.Local
