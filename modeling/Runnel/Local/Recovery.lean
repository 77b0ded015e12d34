import Runnel.Foundation.Transition
import Runnel.Local.StreamLogSpec

/-!
# Confirmed appends survive a restart

Callers append to one open log while writes and syncs fail, and keep using it
after an error.
-/

namespace Runnel.Local

open Runnel.Engine Runnel.Transition

inductive LogCall where
  | append (key : Option String) (payload : Bytes)
  | appendWithRequestId (key : Option String) (payload : Bytes) (requestId : String)
  | appendWithMoveId (key : Option String) (payload : Bytes) (moveId : String)
  | appendBatch (records : List PublishRecord)
deriving DecidableEq, Repr

/-- A call with what its writes, its syncs and the clock will do. -/
structure Invocation (α : Type) where
  call : α
  faults : List (Option Fault) := []
  clock : List ℕ := []
deriving DecidableEq, Repr

abbrev LogInvocation := Invocation LogCall

structure ConfirmedAppend where
  offset : ℕ
  key : Option String
  payload : Bytes
  identity : RecordIdentity
deriving DecidableEq, Repr

def confirmedOffset (key : Option String) (payload : Bytes) (identity : RecordIdentity) :
    Except BrokerError ℕ → List ConfirmedAppend
  | .ok offset => [⟨offset, key, payload, identity⟩]
  | .error _ => []

/-- The confirmations in the outcomes of a batch. -/
def confirmedItems : List PublishRecord → List PublishRecordOutcome → List ConfirmedAppend
  | record :: records, outcome :: outcomes =>
    confirmedOffset record.key record.payload (StreamLog.recordIdentity record) outcome ++
      confirmedItems records outcomes
  | _, _ => []

def confirmedBatch (records : List PublishRecord) :
    Except BrokerError (List PublishRecordOutcome) → List ConfirmedAppend
  | .ok outcomes => confirmedItems records outcomes
  | .error _ => []

namespace StreamLog

/-- The log after a call and the appends it confirmed. -/
def perform (log : StreamLog) : LogCall → StreamLog × List ConfirmedAppend
  | .append key payload =>
    let (after, result) := log.append key payload
    (after, confirmedOffset key payload .none result)
  | .appendWithRequestId key payload requestId =>
    let (after, result) := log.appendWithRequestId key payload requestId
    (after, confirmedOffset key payload (.publicId requestId) result)
  | .appendWithMoveId key payload moveId =>
    let (after, result) := log.appendWithMoveId key payload moveId
    (after, confirmedOffset key payload (.deadLetterMove moveId) result)
  | .appendBatch records =>
    let (after, result) := log.appendBatch records
    (after, confirmedBatch records result)

/-- The environment of the next call: what its writes and syncs and the clock will do. -/
def facing (log : StreamLog) (faults : List (Option Fault)) (clock : List ℕ) :
    StreamLog :=
  { log with file := { log.file with faults := faults }, clock := clock }

def invoke (log : StreamLog) (invocation : LogInvocation) : StreamLog × List ConfirmedAppend :=
  (log.facing invocation.faults invocation.clock).perform invocation.call

/-- A record that passes its limits is written only behind the last indexed record. -/
def recordClean (log : StreamLog) (key : Option String) (payload : Bytes)
    (identity : RecordIdentity) : Bool :=
  !(checkLengths key payload identity).isOk || log.Clean

/-- Every record of a batch that is not a repetition is written behind the last indexed one. -/
def batchClean (log : StreamLog) : List PublishRecord → Bool
  | [] => true
  | record :: rest =>
    ((record.requestId.bind log.requestOffset).isSome ||
      log.recordClean record.key record.payload (recordIdentity record)) &&
    match log.appendBatchItem record with
    | (after, .ok _) => after.batchClean rest
    | (_, .error _) => true

def callClean (log : StreamLog) : LogCall → Bool
  | .append key payload => log.recordClean key payload .none
  | .appendWithRequestId key payload requestId => log.recordClean key payload (.publicId requestId)
  | .appendWithMoveId key payload moveId =>
    (log.deadLetterMoveOffset moveId).isSome ||
      log.recordClean key payload (.deadLetterMove moveId)
  | .appendBatch records => log.batchClean records

/-- The log has the confirmed record at its offset, with its key as far as that is the same. -/
def Has (same : Option String → Option String → Prop) (log : StreamLog)
    (confirmed : ConfirmedAppend) : Prop :=
  ∃ index, log.findRecord confirmed.offset = .ok index ∧ same index.key confirmed.key ∧
    log.readPayload index = .ok confirmed.payload ∧
    index.requestId = confirmed.identity.requestId ∧
    index.requestIdentityKind = confirmed.identity.kind

/-- The key is kept if it is absent or not empty. -/
def Holds (log : StreamLog) (confirmed : ConfirmedAppend) : Prop :=
  log.Has (fun found key => key ≠ some "" → found = key) confirmed

end StreamLog

def InvokeStep (before : StreamLog) (invocation : LogInvocation) (after : StreamLog) : Prop :=
  (before.invoke invocation).1 = after

/-- Whatever the call writes, it writes behind the last indexed record. -/
def WritesClean (log : StreamLog) (invocation : LogInvocation) : Prop :=
  (log.facing invocation.faults invocation.clock).callClean invocation.call = true

/-- A confirmed append is one of the records, with its key up to emptiness. -/
def Recorded (records : List Record) (confirmed : ConfirmedAppend) : Prop :=
  ∃ record, records[confirmed.offset]? = some record ∧
    keyBytes record.key = keyBytes confirmed.key ∧ record.payload = confirmed.payload ∧
    record.identity = confirmed.identity

theorem Recorded.mono {records more : List Record} {confirmed : ConfirmedAppend}
    (hsub : records <+: more) (h : Recorded records confirmed) : Recorded more confirmed := by
  obtain ⟨record, hget, hrest⟩ := h
  obtain ⟨tail, rfl⟩ := hsub
  refine ⟨record, ?_, hrest⟩
  rw [List.getElem?_append_left (List.getElem?_eq_some_iff.1 hget).1, hget]

/-- A log that stands for at least the given records, with every confirmed append among its
own. -/
def Extends (records : List Record) (log : StreamLog) (confirmed : List ConfirmedAppend) : Prop :=
  ∃ all part, records <+: all ∧ Represents log all part ∧ ∀ append ∈ confirmed, Recorded all append

namespace Represents

variable {log : StreamLog} {records : List Record} {part : Bytes}

theorem extends_nil (h : Represents log records part) : Extends records log [] :=
  ⟨records, part, List.prefix_rfl, h, by simp⟩

theorem congr (h : Represents log records part) {file : File} (hfile : file.bytes = log.file.bytes)
    (clock : List ℕ) : Represents { log with file := file, clock := clock } records part where
  bytes := hfile.trans h.bytes
  indexed := ⟨h.indexed.tail, h.indexed.checkpoint, h.indexed.identity, h.indexed.nextOffset⟩
  unfinished := h.unfinished

theorem facing (h : Represents log records part) (faults : List (Option Fault)) (clock : List ℕ) :
    Represents (log.facing faults clock) records part :=
  @congr log records part h { log.file with faults := faults } rfl clock

theorem appendRecord_extends (h : Represents log records part) {key : Option String}
    {payload : Bytes} {identity : RecordIdentity} (hclean : log.recordClean key payload identity)
    (sync : Bool) :
    Extends records (log.appendRecordWithSync key payload identity sync).1
      (confirmedOffset key payload identity
        (log.appendRecordWithSync key payload identity sync).2) := by
  have hclean' : checkLengths key payload identity = .ok () → log.Clean := by
    intro hok
    simpa [StreamLog.recordClean, hok, Except.isOk, Except.toBool] using hclean
  rcases h.appendRecord hclean' sync with ⟨message, happend⟩ |
    ⟨after, error, record, left, happend, -, -, hafter⟩ |
    ⟨after, record, happend, rfl, rfl, rfl, -, hafter⟩
  · rw [happend]
    exact h.extends_nil
  · rw [happend]
    exact hafter.extends_nil
  · rw [happend]
    refine ⟨_, _, List.prefix_append _ _, hafter, ?_⟩
    simp [confirmedOffset, Recorded]

theorem found (h : Represents log records part) {offset : ℕ} {record : Record}
    (hget : records[offset]? = some record) :
    ∃ index, log.findRecord offset = .ok index ∧ log.readPayload index = .ok record.payload ∧
      keyBytes index.key = keyBytes record.key ∧ index.requestId = record.identity.requestId ∧
      index.requestIdentityKind = record.identity.kind := by
  obtain ⟨front, rest, hsplit, rfl⟩ := exists_split hget
  rcases h.findRecord hsplit with hfind | hfind
  · exact ⟨_, hfind, h.readPayload hsplit rfl rfl, rfl, rfl, rfl⟩
  · refine ⟨_, hfind, h.readPayload hsplit ?_ rfl, keyBytes_storedKey _, rfl, rfl⟩
    rw [Record.index_stored]

theorem existing (h : Represents log records part) {identity : String}
    {kind : RequestIdentityKind} {offset : ℕ}
    (hoffset : log.identityOffset identity kind = some offset) :
    ∃ record index, records[offset]? = some record ∧ record.identity = kind.identity identity ∧
      log.findRecord offset = .ok index ∧ log.readPayload index = .ok record.payload ∧
      keyBytes index.key = keyBytes record.key := by
  obtain ⟨record, hget, hidentity⟩ := h.indexed.exists_record hoffset
  obtain ⟨index, hfind, hpayload, hkey, -⟩ := h.found hget
  exact ⟨record, index, hget, hidentity, hfind, hpayload, hkey⟩

theorem recorded_of_move (h : Represents log records part) {moveId : String} {offset found : ℕ}
    {key : Option String} {payload : Bytes}
    (hoffset : log.deadLetterMoveOffset moveId = some offset)
    (hmove : log.moveOffsetForContent offset key payload = .ok found) :
    Recorded records ⟨found, key, payload, .deadLetterMove moveId⟩ := by
  obtain ⟨record, index, hget, hidentity, hfind, hpayload, hkey⟩ := h.existing hoffset
  unfold StreamLog.moveOffsetForContent at hmove
  rw [hfind] at hmove
  change (if index.key ≠ key then _ else _) = _ at hmove
  split_ifs at hmove with hsame
  rw [hpayload] at hmove
  change (if record.payload ≠ payload then _ else _) = _ at hmove
  split_ifs at hmove with hequal
  obtain rfl : offset = found := Except.ok.inj hmove
  exact ⟨record, hget, by rw [← hkey, not_not.1 hsame], not_not.1 hequal, hidentity⟩

/-- A request identity that is indexed is judged by the content of its record. -/
theorem requestOffsetForContent_eq (h : Represents log records part) {requestId : String}
    {offset : ℕ} {record : Record} (hoffset : log.requestOffset requestId = some offset)
    (hget : records[offset]? = some record) (key : Option String) (payload : Bytes) :
    log.requestOffsetForContent requestId key payload =
      if keyBytes key = keyBytes record.key ∧ payload = record.payload then .ok (some offset)
      else .error .requestIdContentConflict := by
  obtain ⟨index, hfind, hpayload, hkey, -⟩ := h.found hget
  unfold StreamLog.requestOffsetForContent
  rw [hoffset]
  simp only [hfind]
  change (if keyBytes index.key ≠ keyBytes key then _ else _) = _
  rw [hkey, hpayload]
  by_cases hsame : keyBytes record.key = keyBytes key
  · rw [if_neg (not_not.2 hsame)]
    change (if record.payload ≠ payload then _ else _) = _
    by_cases hequal : record.payload = payload
    · rw [if_neg (not_not.2 hequal), if_pos ⟨hsame.symm, hequal.symm⟩]
      rfl
    · rw [if_pos hequal, if_neg (by tauto)]
      rfl
  · have hdiffers : ¬ (keyBytes key = keyBytes record.key ∧ payload = record.payload) := by tauto
    rw [if_pos hsame, if_neg hdiffers]
    rfl

/-- A request identity is new, or is refused with other content, or leads to its record. -/
theorem request_cases (h : Represents log records part) (requestId : String) (key : Option String)
    (payload : Bytes) :
    (log.requestOffset requestId = none ∧
      log.requestOffsetForContent requestId key payload = .ok none) ∨
    log.requestOffsetForContent requestId key payload = .error .requestIdContentConflict ∨
    ∃ offset, log.requestOffsetForContent requestId key payload = .ok (some offset) ∧
      Recorded records ⟨offset, key, payload, .publicId requestId⟩ := by
  cases hoffset : log.requestOffset requestId with
  | none =>
    refine Or.inl ⟨rfl, ?_⟩
    rw [StreamLog.requestOffsetForContent, hoffset]
  | some offset =>
    obtain ⟨record, _, hget, hidentity, -⟩ := h.existing hoffset
    right
    rw [h.requestOffsetForContent_eq hoffset hget]
    by_cases hsame : keyBytes key = keyBytes record.key ∧ payload = record.payload
    · rw [if_pos hsame]
      exact Or.inr ⟨offset, rfl, record, hget, hsame.1.symm, hsame.2.symm, hidentity⟩
    · rw [if_neg hsame]
      exact Or.inl rfl

def itemConfirmed (record : PublishRecord) :
    Except BrokerError (PublishRecordOutcome × Bool) → List ConfirmedAppend
  | .ok (outcome, _) =>
    confirmedOffset record.key record.payload (StreamLog.recordIdentity record) outcome
  | .error _ => []

theorem appendBatchRecord_extends (h : Represents log records part) {record : PublishRecord}
    (hclean : log.recordClean record.key record.payload (StreamLog.recordIdentity record)) :
    Extends records (log.appendBatchRecord record).1
      (itemConfirmed record (log.appendBatchRecord record).2) := by
  have hrecord := h.appendRecord_extends hclean false
  unfold StreamLog.appendBatchRecord
  cases happend : log.appendRecordWithSync record.key record.payload
      (StreamLog.recordIdentity record) false with
  | mk after result =>
    rw [happend] at hrecord
    cases result with
    | ok offset => exact hrecord
    | error error =>
      simp only
      split_ifs
      · exact hrecord
      · exact hrecord

theorem appendBatchItem_extends (h : Represents log records part) {record : PublishRecord}
    (hclean : (record.requestId.bind log.requestOffset).isSome ||
      log.recordClean record.key record.payload (StreamLog.recordIdentity record)) :
    Extends records (log.appendBatchItem record).1
      (itemConfirmed record (log.appendBatchItem record).2) := by
  unfold StreamLog.appendBatchItem
  cases hid : record.requestId with
  | none => exact h.appendBatchRecord_extends (by simpa [hid] using hclean)
  | some requestId =>
    have hidentity : StreamLog.recordIdentity record = .publicId requestId := by
      rw [StreamLog.recordIdentity, hid]
    simp only
    rcases h.request_cases requestId record.key record.payload with ⟨hnew, hrequest⟩ | hrequest |
      ⟨offset, hrequest, hrecorded⟩
    · rw [hrequest]
      exact h.appendBatchRecord_extends (by simpa [hid, hnew] using hclean)
    · rw [hrequest]
      exact h.extends_nil
    · rw [hrequest]
      refine ⟨records, part, List.prefix_rfl, h, ?_⟩
      simpa [itemConfirmed, confirmedOffset, hidentity] using hrecorded

def loopConfirmed (items : List PublishRecord) :
    Except BrokerError (List PublishRecordOutcome × Bool) → List ConfirmedAppend
  | .ok (outcomes, _) => confirmedItems items outcomes
  | .error _ => []

theorem appendBatchLoop_extends (h : Represents log records part) {items : List PublishRecord}
    (hclean : log.batchClean items) :
    Extends records (log.appendBatchLoop items).1
      (loopConfirmed items (log.appendBatchLoop items).2) := by
  induction items generalizing log records part with
  | nil => exact h.extends_nil
  | cons item rest ih =>
    rw [StreamLog.batchClean, Bool.and_eq_true] at hclean
    obtain ⟨all, left, hall, hrep, hrecorded⟩ := h.appendBatchItem_extends hclean.1
    rw [StreamLog.appendBatchLoop]
    cases hitem : log.appendBatchItem item with
    | mk after result =>
      rw [hitem] at hrep hrecorded hclean
      cases result with
      | error error => exact ⟨all, left, hall, hrep, by simp [loopConfirmed]⟩
      | ok outcome =>
        obtain ⟨final, last, hfinal, hlast, hrest⟩ := ih hrep hclean.2
        simp only
        cases hloop : after.appendBatchLoop rest with
        | mk done outcomes =>
          rw [hloop] at hlast hrest
          cases outcomes with
          | error error => exact ⟨final, last, hall.trans hfinal, hlast, by simp [loopConfirmed]⟩
          | ok outcomes =>
            refine ⟨final, last, hall.trans hfinal, hlast, ?_⟩
            intro append happend
            rcases List.mem_append.1 happend with happend | happend
            · exact (hrecorded append happend).mono hfinal
            · exact hrest append happend

theorem appendBatch_extends (h : Represents log records part) {items : List PublishRecord}
    (hclean : log.batchClean items) :
    Extends records (log.appendBatch items).1
      (confirmedBatch items (log.appendBatch items).2) := by
  obtain ⟨all, left, hall, hrep, hrecorded⟩ := h.appendBatchLoop_extends hclean
  unfold StreamLog.appendBatch
  cases hloop : log.appendBatchLoop items with
  | mk after result =>
    rw [hloop] at hrep hrecorded
    rcases result with error | ⟨outcomes, appended⟩
    · exact ⟨all, left, hall, hrep, by simp [confirmedBatch]⟩
    · cases appended with
      | false => exact ⟨all, left, hall, hrep, hrecorded⟩
      | true =>
        have hsynced := after.file.syncData_spec
        cases hsync : after.file.syncData with
        | mk synced result =>
          rw [hsync] at hsynced
          simp only [hsync]
          cases result with
          | ok => exact ⟨all, left, hall, hrep.congr hsynced _, hrecorded⟩
          | error error =>
            exact ⟨all, left, hall, hrep.congr hsynced _, by simp [confirmedBatch]⟩

/-- One call keeps the records, and its confirmed appends are among those after it. -/
theorem perform_extends (h : Represents log records part) {call : LogCall}
    (hclean : log.callClean call) : Extends records (log.perform call).1 (log.perform call).2 := by
  cases call with
  | append key payload => exact h.appendRecord_extends hclean true
  | appendWithRequestId key payload requestId => exact h.appendRecord_extends hclean true
  | appendBatch items => exact h.appendBatch_extends hclean
  | appendWithMoveId key payload moveId =>
    change Extends records (log.appendWithMoveId key payload moveId).1 (confirmedOffset key payload
      (.deadLetterMove moveId) (log.appendWithMoveId key payload moveId).2)
    unfold StreamLog.appendWithMoveId
    cases hoffset : log.deadLetterMoveOffset moveId with
    | none =>
      exact h.appendRecord_extends (by simpa [StreamLog.callClean, hoffset] using hclean) true
    | some offset =>
      refine ⟨records, part, List.prefix_rfl, h, ?_⟩
      intro append happend
      cases hmove : log.moveOffsetForContent offset key payload with
      | error error => simp [hmove, confirmedOffset] at happend
      | ok found =>
        obtain rfl : append = ⟨found, key, payload, .deadLetterMove moveId⟩ := by
          simpa [hmove, confirmedOffset] using happend
        exact h.recorded_of_move hoffset hmove

theorem holds {all : List Record} (h : Represents log (all.map Record.stored) part)
    {confirmed : ConfirmedAppend} (hrecorded : Recorded all confirmed) : log.Holds confirmed := by
  obtain ⟨record, hget, hkey, hpayload, hidentity⟩ := hrecorded
  have hget' : (all.map Record.stored)[confirmed.offset]? = some record.stored := by
    rw [List.getElem?_map, hget]
    rfl
  obtain ⟨front, rest, hsplit, hlen⟩ := exists_split hget'
  have hstored : storedKey record.key = storedKey confirmed.key := storedKey_eq hkey
  have hgiven : confirmed.key ≠ some "" → storedKey confirmed.key = confirmed.key := storedKey_of_ne
  rw [StreamLog.Holds, StreamLog.Has, ← hlen, ← hpayload, ← hidentity]
  rcases h.findRecord hsplit with hfind | hfind
  · exact ⟨_, hfind, fun hne => hstored.trans (hgiven hne), h.readPayload hsplit rfl rfl, rfl, rfl⟩
  · refine ⟨_, hfind, fun hne => ?_, h.readPayload hsplit ?_ rfl, rfl, rfl⟩
    · exact (storedKey_eq ((keyBytes_storedKey _).trans hkey)).trans (hgiven hne)
    · rw [Record.index_stored]

end Represents

theorem represents_create : Represents StreamLog.create [] [] where
  bytes := rfl
  indexed := Indexed.nil {}
  unfinished :=
    ⟨{ key := none, payload := [], identity := .none, publishedAtMs := 0, key_le := by decide,
       payload_le := by decide, identity_le := by decide, published_lt := by decide },
      List.nil_prefix⟩

/-- Along a run of clean writes the log stands for a list with every confirmed append. -/
theorem run_extends {past : List (StreamLog × LogInvocation)} {log : StreamLog}
    (h : Run (· = StreamLog.create) (guarded WritesClean InvokeStep) past log) :
    Extends [] log (past.flatMap fun step => (step.1.invoke step.2).2) := by
  induction h with
  | start hinit => exact hinit ▸ represents_create.extends_nil
  | next _ hstep ih =>
    obtain ⟨all, part, -, hrep, hrecorded⟩ := ih
    obtain ⟨hclean, rfl⟩ := hstep
    obtain ⟨final, last, hfinal, hlast, hnew⟩ := (hrep.facing _ _).perform_extends hclean
    refine ⟨final, last, List.nil_prefix, hlast, ?_⟩
    intro append happend
    rcases List.mem_append.1 happend with happend | happend
    · exact hnew append happend
    · exact (hrecorded append happend).mono hfinal

/-- If every record is written behind the last indexed one, then the file is recovered and
holds every append that was confirmed during the run. -/
theorem confirmed_appends_recovered {past : List (StreamLog × LogInvocation)} {log : StreamLog}
    (h : Run (· = StreamLog.create) (guarded WritesClean InvokeStep) past log) :
    ∃ recovered tail, StreamLog.inspect log.file = .ok (recovered, tail) ∧
      ∀ step ∈ past, ∀ confirmed ∈ (step.1.invoke step.2).2, recovered.Holds confirmed := by
  obtain ⟨records, part, -, hrep, hrecorded⟩ := run_extends h
  obtain ⟨record, hpart⟩ := hrep.unfinished
  obtain ⟨recovered, tail, all, left, hinspect, hall, hrecovered, -⟩ :=
    inspect_frames hrep.bytes hpart
  have hkept : records <+: all := by
    rcases hall with rfl | rfl
    · exact List.prefix_rfl
    · exact List.prefix_append _ _
  refine ⟨recovered, tail, hinspect, fun step hstep confirmed hconfirmed => ?_⟩
  exact hrecovered.holds
    ((hrecorded confirmed (List.mem_flatMap.2 ⟨step, hstep, hconfirmed⟩)).mono hkept)

/-- The steps of a list of calls, newest first, and the log after them. -/
def performAll (invocations : List LogInvocation) : List (StreamLog × LogInvocation) × StreamLog :=
  (follow (fun log invocation => some (log.invoke invocation).1) invocations []
    StreamLog.create).getD ([], StreamLog.create)

def repeatedMove : List LogInvocation :=
  [{ call := .appendWithMoveId (some "k") [1] "m", clock := [5] },
   { call := .append none [2], faults := [some ⟨10, .other, "disk"⟩] },
   { call := .appendWithMoveId (some "k") [1] "m" }]

theorem repeated_move_recovered :
    ∃ recovered tail, StreamLog.inspect (performAll repeatedMove).2.file = .ok (recovered, tail) ∧
      ∀ step ∈ (performAll repeatedMove).1, ∀ confirmed ∈ (step.1.invoke step.2).2,
        recovered.Holds confirmed :=
  confirmed_appends_recovered (.next (.next (.next (.start rfl)
    ⟨by unfold WritesClean; decide +kernel, rfl⟩) ⟨by unfold WritesClean; decide +kernel, rfl⟩)
    ⟨by unfold WritesClean; decide +kernel, rfl⟩)

example : ((performAll repeatedMove).1.flatMap fun step => (step.1.invoke step.2).2).length =
    2 := by
  decide +kernel

/-- Two appends, the first of which fails in its sync. -/
def unsyncedAppend : List LogInvocation :=
  [{ call := .append none [1], faults := [none, none, some ⟨0, .other, "disk"⟩] },
   { call := .append none [2] }]

/-- The second append is confirmed at the offset that the frame of the first one already
has in the file. -/
theorem unsynced_append_breaks_recovery :
    Run (· = StreamLog.create) InvokeStep (performAll unsyncedAppend).1
      (performAll unsyncedAppend).2 ∧
    ((performAll unsyncedAppend).1.flatMap fun step => (step.1.invoke step.2).2) =
      [⟨0, none, [2], .none⟩] ∧
    StreamLog.inspect (performAll unsyncedAppend).2.file =
      .error (invalidRecordData "record offsets are not contiguous") :=
  ⟨.next (.next (.start rfl) rfl) rfl, by decide +kernel, by decide +kernel⟩

end Runnel.Local
