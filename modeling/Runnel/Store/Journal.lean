import Runnel.Store.Types

/-!
# The state-machine journal

The write-ahead record of applied entries: length-prefixed JSON records that are
parsed up to an incomplete tail and replayed over a checkpoint or snapshot.
-/

namespace Runnel.Store

open Runnel.Cluster Runnel.Engine Bytes

/-- The serialization library at the types of the store: values round-trip, the version of a
record can be read on its own, and a checkpoint is written as an object that starts with its
version. -/
structure Serde where
  checkpoint : Codec PersistedState
  snapshotState : Codec PersistedSnapshotState
  snapshot : Codec StoredSnapshot
  entry : Codec JournalEntry
  recordVersion : Bytes → Except String ℕ
  recordVersion_encode : ∀ record, recordVersion (entry.encode record) = .ok record.version
  checkpoint_start : ∀ state, utf8 "\x7b\"version\":" <+: checkpoint.encode state

-- Every persisted type is countable, so that such a library exists.

deriving instance Countable for ConsumerPolicy, DeliveryReceipt
deriving instance Countable for LogId, GroupDelivery, GroupRetrySchedule, GroupConsumerState,
  StoredMessage, StreamLifecycle, StreamState, GroupPollRequest, GroupAckRequest,
  GroupBatchPollRequest, GroupBatchAckRequest, Command
deriving instance Countable for Membership, StoredMembership, EntryPayload, SnapshotMeta,
  PersistedConsumer, PersistedGroupConsumer, PersistedSnapshotState, PersistedState,
  StoredSnapshot, JournalEntry

/-- There is such a library, also one that writes the given entries in few bytes. -/
theorem exists_serde (short : List JournalEntry) :
    ∃ serde : Serde, ∀ entry ∈ short, (serde.entry.encode entry).length ≤ short.length := by
  obtain ⟨checkpoint, hstart, -⟩ := exists_codec PersistedState (utf8 "\x7b\"version\":") []
  obtain ⟨snapshotState, -⟩ := exists_codec PersistedSnapshotState [] []
  obtain ⟨snapshot, -⟩ := exists_codec StoredSnapshot [] []
  obtain ⟨entry, -, hshort⟩ := exists_codec JournalEntry [] short
  refine ⟨{ checkpoint := checkpoint
            snapshotState := snapshotState
            snapshot := snapshot
            entry := entry
            recordVersion := fun bytes => (entry.decode bytes).map JournalEntry.version
            recordVersion_encode := ?_
            checkpoint_start := hstart }, fun found hfound => ?_⟩
  · intro record
    rw [entry.decode_encode]
    rfl
  · simpa using hshort found hfound

instance : Nonempty Serde := ⟨(exists_serde []).choose⟩

def maxRecordSize : ℕ := 96 * 1024 * 1024

variable (serde : Serde)

/-- Parses the records from the cursor on, with the position of an incomplete tail. -/
def parseLoop (path : String) (bytes : Bytes) :
    ℕ → ℕ → Except BrokerError (List JournalEntry × Option ℕ)
  | 0, _ => .ok ([], none)
  | fuel + 1, cursor =>
    if bytes.length ≤ cursor then .ok ([], none)
    else if bytes.length - cursor < 4 then .ok ([], some cursor)
    else
      let recordLen := ofLe (slice bytes cursor 4)
      if maxRecordSize < recordLen then
        .error (.cluster s!"state-machine journal record is too large: {recordLen} bytes")
      else if bytes.length - (cursor + 4) < recordLen then .ok ([], some cursor)
      else
        let recordBytes := slice bytes (cursor + 4) recordLen
        match serde.recordVersion recordBytes with
        | .error error =>
          .error (.cluster s!"invalid state-machine journal record in '{path}': {error}")
        | .ok version =>
          if version ≠ formatVersion then
            .error (.cluster (s!"unsupported state-machine journal format version {version} " ++
              s!"in '{path}' (supported version {formatVersion})"))
          else
            match serde.entry.decode recordBytes with
            | .error error =>
              .error (.cluster s!"invalid state-machine journal record in '{path}': {error}")
            | .ok entry =>
              match parseLoop path bytes fuel (cursor + 4 + recordLen) with
              | .error error => .error error
              | .ok (entries, truncatedAt) => .ok (entry :: entries, truncatedAt)

def parse (path : String) (content : Option Bytes) :
    Except BrokerError (List JournalEntry × Option ℕ) :=
  match content with
  | none => .ok ([], none)
  | some bytes => parseLoop serde path bytes (bytes.length + 1) 0

def appendWrites (entry : JournalEntry) : Except IoError (List Bytes) :=
  let bytes := serde.entry.encode entry
  if maxRecordSize < bytes.length then
    .error ⟨.invalidInput, "state-machine journal record exceeds configured size"⟩
  else .ok [le 4 bytes.length, bytes]

/-- Applies one entry of the log; `none` is a panic of the state machine. -/
def applyEntry [ToString LogId] (kind : GroupKind) (data : StateMachineData) (logId : LogId) :
    EntryPayload → Option StateMachineData
  | .blank => some { data with lastAppliedLog := some logId }
  | .membership membership =>
    some { data with
      lastAppliedLog := some logId
      lastMembership := ⟨some logId, membership⟩ }
  | .normal command =>
    (applyCommand data.state command kind logId).map fun result =>
      { data with lastAppliedLog := some logId, state := result.1 }

def covered (data : StateMachineData) (logId : LogId) : Bool :=
  data.lastAppliedLog.any fun last => !isLogAfter logId last

def replay [ToString LogId] (kind : GroupKind) (data : StateMachineData)
    (entries : List JournalEntry) : Option StateMachineData :=
  entries.foldlM (fun data entry =>
    if covered data entry.logId then some data
    else applyEntry kind data entry.logId entry.payload) data

def recordFrame (entry : JournalEntry) : Bytes :=
  le 4 (serde.entry.encode entry).length ++ serde.entry.encode entry

def recordFrames (entries : List JournalEntry) : Bytes := entries.flatMap (recordFrame serde)

/-- A record that is accepted by the writer and by the reader. -/
def Fits (entry : JournalEntry) : Prop :=
  entry.version = formatVersion ∧ (serde.entry.encode entry).length ≤ maxRecordSize

/-- What a crash inside an append leaves: nothing, or the start of a record. -/
def Unfinished (part : Bytes) : Prop :=
  part = [] ∨ ∃ entry, Fits serde entry ∧ part <+: recordFrame serde entry ∧
    part.length < (recordFrame serde entry).length

variable {serde}

theorem exists_serde_fits (entries : List JournalEntry) (hlength : entries.length ≤ maxRecordSize)
    (hversion : ∀ entry ∈ entries, entry.version = formatVersion) :
    ∃ serde, ∀ entry ∈ entries, Fits serde entry := by
  obtain ⟨serde, hshort⟩ := exists_serde entries
  exact ⟨serde, fun entry hentry =>
    ⟨hversion entry hentry, (hshort entry hentry).trans hlength⟩⟩

theorem length_recordFrame (entry : JournalEntry) :
    (recordFrame serde entry).length = 4 + (serde.entry.encode entry).length := by
  simp [recordFrame]

theorem Fits.ofLe_length {entry : JournalEntry} (h : Fits serde entry) :
    ofLe (le 4 (serde.entry.encode entry).length) = (serde.entry.encode entry).length := by
  refine ofLe_le_of_lt (h.2.trans_lt ?_)
  unfold maxRecordSize
  omega

theorem parseLoop_frame (path : String) (front rest : Bytes) {entry : JournalEntry} (fuel : ℕ)
    (h : Fits serde entry) :
    parseLoop serde path (front ++ (recordFrame serde entry ++ rest)) (fuel + 1) front.length =
      (parseLoop serde path (front ++ (recordFrame serde entry ++ rest)) fuel
        (front ++ recordFrame serde entry).length).map
          fun result => (entry :: result.1, result.2) := by
  have hlen : (front ++ (recordFrame serde entry ++ rest)).length =
      front.length + 4 + (serde.entry.encode entry).length + rest.length := by
    simp [length_recordFrame]
    omega
  have hnext : (front ++ recordFrame serde entry).length =
      front.length + 4 + (serde.entry.encode entry).length := by
    simp [length_recordFrame]
    omega
  have hlength : slice (front ++ (recordFrame serde entry ++ rest)) front.length 4 =
      le 4 (serde.entry.encode entry).length :=
    slice_eq (c := serde.entry.encode entry ++ rest) (by simp [recordFrame]) rfl (by simp)
  have hrecord : slice (front ++ (recordFrame serde entry ++ rest)) (front.length + 4)
      (serde.entry.encode entry).length = serde.entry.encode entry :=
    slice_eq (a := front ++ le 4 (serde.entry.encode entry).length) (c := rest)
      (by simp [recordFrame]) (by simp) rfl
  rw [parseLoop, if_neg (by omega), if_neg (by omega)]
  simp only [hlength, h.ofLe_length, hrecord, serde.recordVersion_encode, h.1,
    serde.entry.decode_encode]
  rw [if_neg (Nat.not_lt.2 h.2), if_neg (by omega), if_neg (not_not.2 rfl), hnext]
  cases parseLoop serde path (front ++ (recordFrame serde entry ++ rest)) fuel
      (front.length + 4 + (serde.entry.encode entry).length) with
  | error error => rfl
  | ok result => rfl

theorem parseLoop_part (path : String) (front : Bytes) {part : Bytes} (fuel : ℕ)
    (hpart : Unfinished serde part) :
    parseLoop serde path (front ++ part) (fuel + 1) front.length =
      .ok ([], if part = [] then none else some front.length) := by
  have hlen : (front ++ part).length = front.length + part.length := List.length_append
  rw [parseLoop]
  by_cases hempty : part = []
  · rw [if_pos (by simp [hempty]), if_pos hempty]
  · obtain ⟨entry, h, hpart, hshort⟩ := hpart.resolve_left hempty
    have hpos : 0 < part.length := List.length_pos_iff.2 hempty
    rw [if_neg (by omega), if_neg hempty]
    by_cases hfour : part.length < 4
    · rw [if_pos (by omega)]
    · have hstart : le 4 (serde.entry.encode entry).length <+: part := by
        refine List.prefix_of_prefix_length_le (List.prefix_append _ _) hpart ?_
        rw [length_le]
        omega
      obtain ⟨rest, rfl⟩ := hstart
      have hlength : slice (front ++ (le 4 (serde.entry.encode entry).length ++ rest))
          front.length 4 = le 4 (serde.entry.encode entry).length :=
        slice_eq (c := rest) (by simp) rfl (by simp)
      rw [length_recordFrame] at hshort
      rw [if_neg (by omega)]
      simp only [hlength, h.ofLe_length]
      rw [if_neg (Nat.not_lt.2 h.2), if_pos (by omega)]

/-- What is parsed behind the front: every complete record, and where an unfinished one
starts. -/
theorem parseLoop_frames (path : String) (front : Bytes) {entries : List JournalEntry}
    {part : Bytes} (fuel : ℕ) (h : ∀ entry ∈ entries, Fits serde entry)
    (hpart : Unfinished serde part) :
    parseLoop serde path (front ++ (recordFrames serde entries ++ part))
        (fuel + 1 + entries.length) front.length =
      .ok (entries, if part = [] then none
        else some (front ++ recordFrames serde entries).length) := by
  induction entries generalizing front with
  | nil => simpa [recordFrames] using parseLoop_part path front fuel hpart
  | cons entry rest ih =>
    obtain ⟨hentry, hrest⟩ := List.forall_mem_cons.1 h
    have hloop := ih (front ++ recordFrame serde entry) hrest
    have hsplit : front ++ (recordFrames serde (entry :: rest) ++ part) =
        front ++ (recordFrame serde entry ++ (recordFrames serde rest ++ part)) := by
      simp [recordFrames]
    rw [hsplit, List.length_cons, ← Nat.add_assoc, parseLoop_frame path front _ _ hentry,
      ← List.append_assoc, hloop]
    simp [Except.map, recordFrames, List.append_assoc]

theorem length_le_recordFrames (entries : List JournalEntry) :
    entries.length ≤ (recordFrames serde entries).length := by
  induction entries with
  | nil => rfl
  | cons entry rest ih =>
    rw [recordFrames, List.flatMap_cons, List.length_append, length_recordFrame, ← recordFrames,
      List.length_cons]
    omega

theorem parse_frames (path : String) {entries : List JournalEntry} {part : Bytes}
    (h : ∀ entry ∈ entries, Fits serde entry) (hpart : Unfinished serde part) :
    parse serde path (some (recordFrames serde entries ++ part)) =
      .ok (entries, if part = [] then none else some (recordFrames serde entries).length) := by
  have hlen := @length_le_recordFrames serde entries
  have hfuel : (recordFrames serde entries ++ part).length + 1 =
      (recordFrames serde entries ++ part).length - entries.length + 1 + entries.length := by
    rw [List.length_append]
    omega
  rw [parse, hfuel]
  exact parseLoop_frames path [] _ h hpart

theorem parse_complete (path : String) {entries : List JournalEntry}
    (h : ∀ entry ∈ entries, Fits serde entry) :
    parse serde path (some (recordFrames serde entries)) = .ok (entries, none) := by
  have hparse := parse_frames path h (Or.inl rfl)
  rwa [List.append_nil, if_pos rfl] at hparse

end Runnel.Store
