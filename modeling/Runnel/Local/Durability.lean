import Runnel.Local.Publish

/-!
# Confirmed publishes are durable

Callers publish to one open log while writes and syncs fail. What a successful
sync covered survives a crash.
-/

namespace Runnel.Local

open Runnel.Engine Runnel.Transition

abbrev PublishInvocation := Invocation PublishCall

/-- What a publish asks of the log. -/
def PublishCall.logCall : PublishCall → LogCall
  | .publish key payload none => .append key payload
  | .publish key payload (some requestId) => .appendWithRequestId key payload requestId
  | .publishBatch records => .appendBatch records
  | .move key payload moveId => .appendWithMoveId key payload moveId

namespace StreamLog

def publishing (log : StreamLog) (invocation : PublishInvocation) : StreamLog × PublishResponse :=
  (log.facing invocation.faults invocation.clock).handle invocation.call

def published (log : StreamLog) (invocation : PublishInvocation) : List ConfirmedAppend :=
  invocation.call.confirmed (log.publishing invocation).2

def answers (log : StreamLog) : PublishCall → Bool
  | .publish _ _ requestId => (requestId.bind log.requestOffset).isSome
  | .publishBatch records => maxPublishBatchRecords < records.length
  | .move _ _ _ => false

/-- Whatever the call writes, it writes behind the last indexed record. -/
def handleClean (log : StreamLog) (call : PublishCall) : Bool :=
  log.answers call || log.callClean call.logCall

def repeated (log : StreamLog) : PublishCall → List ℕ
  | .publish _ _ requestId => (requestId.bind log.requestOffset).toList
  | .publishBatch records => records.filterMap fun record => record.requestId.bind log.requestOffset
  | .move _ _ moveId => (log.deadLetterMoveOffset moveId).toList

def Covers (log : StreamLog) (offset : ℕ) : Prop :=
  ∀ index, log.findRecord offset = .ok index →
    index.payloadOffset + index.payloadLen ≤ log.file.synced

instance (log : StreamLog) (offset : ℕ) : Decidable (log.Covers offset) :=
  match h : log.findRecord offset with
  | .ok index =>
    decidable_of_iff (index.payloadOffset + index.payloadLen ≤ log.file.synced)
      (by simp [Covers, h])
  | .error _ => isTrue (by simp [Covers, h])

end StreamLog

def PublishStep (before : StreamLog) (invocation : PublishInvocation) (after : StreamLog) : Prop :=
  (before.publishing invocation).1 = after

/-- The call writes behind the last indexed record, and every indexed record whose identity it
repeats is covered by a sync. -/
def PublishesSafely (log : StreamLog) (invocation : PublishInvocation) : Prop :=
  (log.facing invocation.faults invocation.clock).handleClean invocation.call = true ∧
    ∀ offset ∈ log.repeated invocation.call, log.Covers offset

theorem writeFrame_synced (file : File) (buffers : List Bytes) (sync : Bool) :
    (∃ after error, StreamLog.writeFrame file buffers sync = (after, .error error) ∧
      after.synced = file.synced) ∨
    ∃ after, StreamLog.writeFrame file buffers sync = (after, .ok ()) ∧
      file.synced ≤ after.synced ∧
      after.synced = if sync then after.bytes.length else file.synced := by
  have hwritten := file.writeEach_synced buffers
  unfold StreamLog.writeFrame
  split
  · rename_i after error hwrite
    rw [hwrite] at hwritten
    exact Or.inl ⟨after, error, rfl, hwritten⟩
  · rename_i after hwrite
    rw [hwrite] at hwritten
    cases sync with
    | false => exact Or.inr ⟨after, rfl, hwritten.ge, hwritten⟩
    | true =>
      have hbytes := after.syncData_spec
      rcases after.syncData_synced with ⟨hok, hsynced⟩ | ⟨error, hfailed, hsynced⟩
      · refine Or.inr ⟨after.syncData.1, Prod.ext rfl hok, ?_,
          hsynced.trans (congrArg List.length hbytes.symm)⟩
        exact (hwritten.ge.trans after.synced_le).trans hsynced.ge
      · exact Or.inl ⟨after.syncData.1, error, Prod.ext rfl hfailed, hsynced.trans hwritten⟩

namespace StreamLog

/-- An append that fails leaves the indexes as they are; one that asks for a sync succeeds only
with it. -/
theorem appendRecord_synced (log : StreamLog) (key : Option String) (payload : Bytes)
    (identity : RecordIdentity) (sync : Bool) :
    (∃ after error, log.appendRecordWithSync key payload identity sync = (after, .error error) ∧
      after.nextOffset = log.nextOffset ∧ after.requestIds = log.requestIds ∧
      after.file.synced = log.file.synced) ∨
    ∃ after offset, log.appendRecordWithSync key payload identity sync = (after, .ok offset) ∧
      log.file.synced ≤ after.file.synced ∧
      after.file.synced = if sync then after.file.bytes.length else log.file.synced := by
  unfold appendRecordWithSync
  cases hlengths : checkLengths key payload identity with
  | error error => exact Or.inl ⟨log, error, rfl, rfl, rfl, rfl⟩
  | ok =>
    dsimp only
    rcases writeFrame_synced log.nowMs.2.file [recordHeader identity.flag log.nextOffset
      log.nowMs.1 (keyBytes key) identity.bytes payload, keyBytes key, identity.bytes, payload] sync
      with ⟨file, error, hwrite, hsynced⟩ | ⟨file, hwrite, hle, hsynced⟩
    · rw [hwrite]
      exact Or.inl ⟨_, _, rfl, rfl, rfl, hsynced⟩
    · rw [hwrite]
      exact Or.inr ⟨_, _, rfl, hle, hsynced⟩

/-- What two checks let through is what is returned behind them. -/
theorem eq_of_checked {ε α β γ : Type} {first : Except ε α} {second : α → Except ε β}
    {p : α → Prop} {q : β → Prop} [DecidablePred p] [DecidablePred q] {error : ε} {value answer : γ}
    (h : (do
      let a ← first
      if p a then throw error
      else
        let b ← second a
        if q b then throw error
        else return value) = Except.ok answer) : value = answer := by
  cases first with
  | error => cases h
  | ok a =>
    change (if p a then _ else _) = _ at h
    split_ifs at h
    cases hsecond : second a with
    | error =>
      rw [hsecond] at h
      cases h
    | ok b =>
      rw [hsecond] at h
      change (if q b then _ else _) = _ at h
      split_ifs at h
      exact Except.ok.inj h

theorem requestOffset_eq {log : StreamLog} {requestId : String} {key : Option String}
    {payload : Bytes} {offset : ℕ}
    (h : log.requestOffsetForContent requestId key payload = .ok (some offset)) :
    log.requestOffset requestId = some offset := by
  cases hoffset : log.requestOffset requestId with
  | none => simp [requestOffsetForContent, hoffset] at h
  | some found =>
    rw [requestOffsetForContent, hoffset] at h
    exact eq_of_checked h

/-- What a batch item that appended nothing leaves alone. -/
structure SameIndex (before after : StreamLog) : Prop where
  nextOffset : after.nextOffset = before.nextOffset
  requestIds : after.requestIds = before.requestIds

theorem appendBatchRecord_synced (log : StreamLog) (record : PublishRecord) :
    (log.appendBatchRecord record).1.file.synced = log.file.synced ∧
    ∀ outcome, (log.appendBatchRecord record).2 = .ok (outcome, false) →
      SameIndex log (log.appendBatchRecord record).1 ∧ ∀ offset, outcome ≠ .ok offset := by
  unfold appendBatchRecord
  rcases log.appendRecord_synced record.key record.payload (recordIdentity record) false with
    ⟨after, error, happend, hnext, hids, hsynced⟩ | ⟨after, offset, happend, -, hsynced⟩
  · rw [happend]
    dsimp only
    split_ifs
    · refine ⟨hsynced, ?_⟩
      intro outcome houtcome
      obtain ⟨rfl, -⟩ := Prod.mk.inj (Except.ok.inj houtcome)
      exact ⟨⟨hnext, hids⟩, by simp⟩
    · exact ⟨hsynced, by simp⟩
  · rw [happend]
    exact ⟨hsynced, by simp⟩

theorem appendBatchItem_synced (log : StreamLog) (record : PublishRecord) :
    (log.appendBatchItem record).1.file.synced = log.file.synced ∧
    ∀ outcome, (log.appendBatchItem record).2 = .ok (outcome, false) →
      SameIndex log (log.appendBatchItem record).1 ∧
      ∀ offset, outcome = .ok offset → record.requestId.bind log.requestOffset = some offset := by
  have hrecord := log.appendBatchRecord_synced record
  unfold appendBatchItem
  cases hid : record.requestId with
  | none =>
    refine ⟨hrecord.1, fun outcome houtcome => ?_⟩
    obtain ⟨hsame, hnot⟩ := hrecord.2 outcome houtcome
    exact ⟨hsame, fun offset hok => absurd hok (hnot offset)⟩
  | some requestId =>
    dsimp only
    split
    · rename_i offset hfound
      refine ⟨rfl, fun outcome houtcome => ⟨⟨rfl, rfl⟩, fun other hother => ?_⟩⟩
      obtain ⟨rfl, -⟩ := Prod.mk.inj (Except.ok.inj houtcome)
      rw [← Except.ok.inj hother]
      exact requestOffset_eq hfound
    · refine ⟨hrecord.1, fun outcome houtcome => ?_⟩
      obtain ⟨hsame, hnot⟩ := hrecord.2 outcome houtcome
      exact ⟨hsame, fun offset hok => absurd hok (hnot offset)⟩
    · refine ⟨rfl, fun outcome houtcome => ⟨⟨rfl, rfl⟩, fun offset hok => ?_⟩⟩
      obtain ⟨rfl, -⟩ := Prod.mk.inj (Except.ok.inj houtcome)
      cases hok
    · exact ⟨rfl, by simp⟩

/-- A batch that appended nothing confirms only identities that were indexed before it. -/
theorem appendBatchLoop_synced (log : StreamLog) (items : List PublishRecord) :
    (log.appendBatchLoop items).1.file.synced = log.file.synced ∧
    ∀ outcomes, (log.appendBatchLoop items).2 = .ok (outcomes, false) →
      SameIndex log (log.appendBatchLoop items).1 ∧
      ∀ append ∈ confirmedItems items outcomes,
        append.offset ∈ log.repeated (.publishBatch items) := by
  induction items generalizing log with
  | nil =>
    refine ⟨rfl, fun outcomes houtcomes => ⟨⟨rfl, rfl⟩, ?_⟩⟩
    simp [confirmedItems]
  | cons item rest ih =>
    obtain ⟨hsynced, hitem⟩ := log.appendBatchItem_synced item
    rw [appendBatchLoop]
    cases happend : log.appendBatchItem item with
    | mk after result =>
      rw [happend] at hsynced hitem
      cases result with
      | error error => exact ⟨hsynced, by simp⟩
      | ok pair =>
        obtain ⟨outcome, wrote⟩ := pair
        obtain ⟨hrest, hunwritten⟩ := ih after
        dsimp only
        cases hloop : after.appendBatchLoop rest with
        | mk final result =>
          rw [hloop] at hrest hunwritten
          cases result with
          | error error => exact ⟨hrest.trans hsynced, by simp⟩
          | ok pair =>
            obtain ⟨outcomes, appended⟩ := pair
            refine ⟨hrest.trans hsynced, ?_⟩
            intro all hall
            obtain ⟨rfl, hflag⟩ := Prod.mk.inj (Except.ok.inj hall)
            obtain ⟨rfl, rfl⟩ := Bool.or_eq_false_iff.1 hflag
            obtain ⟨hsame, hfirst⟩ := hitem outcome rfl
            obtain ⟨hafter, hlater⟩ := hunwritten outcomes rfl
            refine ⟨⟨hafter.nextOffset.trans hsame.nextOffset,
              hafter.requestIds.trans hsame.requestIds⟩, ?_⟩
            intro append happend
            have hoffsets : after.requestOffset = log.requestOffset := by
              funext requestId
              rw [requestOffset, identityOffset, hsame.requestIds]
              rfl
            rw [repeated, List.mem_filterMap]
            rcases List.mem_append.1 happend with hnow | hthen
            · cases outcome with
              | ok offset =>
                obtain rfl := List.mem_singleton.1 hnow
                exact ⟨item, List.mem_cons_self, hfirst offset rfl⟩
              | error error => cases hnow
            · have hrepeated := hlater append hthen
              rw [repeated, hoffsets, List.mem_filterMap] at hrepeated
              obtain ⟨found, hfound, hid⟩ := hrepeated
              exact ⟨found, List.mem_cons_of_mem _ hfound, hid⟩

end StreamLog

/-- A call keeps the records and what was covered, and what it confirms is covered. -/
def Secures (records : List Record) (before after : StreamLog)
    (confirmed : List ConfirmedAppend) : Prop :=
  ∃ all part, records <+: all ∧ Represents after all part ∧
    before.file.synced ≤ after.file.synced ∧
    ∀ append ∈ confirmed, Recorded all append ∧
      framesLen (all.take (append.offset + 1)) ≤ after.file.synced

theorem framesLen_take_le (records : List Record) (count : ℕ) :
    framesLen (records.take count) ≤ framesLen records := by
  conv_rhs => rw [← List.take_append_drop count records, framesLen_append]
  exact Nat.le_add_right _ _

namespace Represents

variable {log : StreamLog} {records : List Record} {part : Bytes}

theorem framesLen_le (h : Represents log records part) :
    framesLen records ≤ log.file.bytes.length := by
  rw [h.bytes, List.length_append, length_frames]
  exact Nat.le_add_right _ _

theorem covered (h : Represents log records part) {append : ConfirmedAppend}
    (hrecorded : Recorded records append) (hcovers : log.Covers append.offset) :
    framesLen (records.take (append.offset + 1)) ≤ log.file.synced := by
  obtain ⟨record, hget, -⟩ := hrecorded
  obtain ⟨front, rest, hsplit, hlen⟩ := exists_split hget
  have htake : records.take (append.offset + 1) = front ++ [record] := by
    rw [hsplit, ← hlen, List.take_length_add_append]
    rfl
  have hends : ∃ index, log.findRecord append.offset = .ok index ∧
      index.payloadOffset + index.payloadLen = framesLen (front ++ [record]) := by
    rw [← hlen]
    rcases h.findRecord hsplit with hfind | hfind
    · refine ⟨_, hfind, ?_⟩
      simp [Record.index, Record.frameLen]
      omega
    · refine ⟨_, hfind, ?_⟩
      rw [Record.index_stored]
      simp [Record.index, Record.frameLen]
      omega
  obtain ⟨index, hfind, hend⟩ := hends
  rw [htake, ← hend]
  exact hcovers index hfind

theorem secures_same (h : Represents log records part) {confirmed : List ConfirmedAppend}
    (hcovers : ∀ append ∈ confirmed, log.Covers append.offset)
    (hrecorded : ∀ append ∈ confirmed, Recorded records append) :
    Secures records log log confirmed :=
  ⟨records, part, List.prefix_rfl, h, le_refl _, fun append happend =>
    ⟨hrecorded append happend, h.covered (hrecorded append happend) (hcovers append happend)⟩⟩

variable {key : Option String} {payload : Bytes}

theorem secures_append (h : Represents log records part)
    {identity : RecordIdentity} (hclean : log.recordClean key payload identity) :
    Secures records log (log.appendRecordWithSync key payload identity true).1
      (confirmedOffset key payload identity
        (log.appendRecordWithSync key payload identity true).2) := by
  obtain ⟨all, left, hall, hrep, hrecorded⟩ := h.appendRecord_extends hclean true
  rcases log.appendRecord_synced key payload identity true with
    ⟨after, error, happend, -, -, hsynced⟩ | ⟨after, offset, happend, hle, hsynced⟩
  · rw [happend] at hrep hrecorded ⊢
    exact ⟨all, left, hall, hrep, hsynced.ge, by simp [confirmedOffset]⟩
  · rw [happend] at hrep hrecorded ⊢
    refine ⟨all, left, hall, hrep, hle, fun append hmem => ⟨hrecorded append hmem, ?_⟩⟩
    exact (framesLen_take_le all _).trans (hrep.framesLen_le.trans hsynced.ge)

theorem secures_publish (h : Represents log records part)
    {requestId : Option String} (hclean : log.handleClean (.publish key payload requestId) = true)
    (hcovers : ∀ offset ∈ log.repeated (.publish key payload requestId), log.Covers offset) :
    Secures records log (log.handle (.publish key payload requestId)).1
      ((PublishCall.publish key payload requestId).confirmed
        (log.handle (.publish key payload requestId)).2) := by
  cases requestId with
  | none => exact h.secures_append hclean
  | some requestId =>
    simp only [StreamLog.handle, StreamLog.publishWithRequestId]
    rcases h.request_cases requestId key payload with ⟨hnew, hrequest⟩ | hrequest |
      ⟨offset, hrequest, hrecorded⟩
    · rw [hrequest]
      exact h.secures_append (by
        simpa [StreamLog.handleClean, StreamLog.answers, PublishCall.logCall, StreamLog.callClean,
          hnew] using hclean)
    · rw [hrequest]
      exact h.secures_same (by simp [PublishCall.confirmed, confirmedOffset])
        (by simp [PublishCall.confirmed, confirmedOffset])
    · rw [hrequest]
      refine h.secures_same ?_ ?_
      · intro append happend
        obtain rfl := List.mem_singleton.1 happend
        exact hcovers offset (by simp [StreamLog.repeated, StreamLog.requestOffset_eq hrequest])
      · simpa [PublishCall.confirmed, confirmedOffset, StreamLog.recordIdentity] using hrecorded

theorem moveOffsetForContent_eq {offset found : ℕ}
    (h : log.moveOffsetForContent offset key payload = .ok found) : found = offset :=
  (StreamLog.eq_of_checked h).symm

theorem secures_move (h : Represents log records part)
    {moveId : String} (hclean : log.handleClean (.move key payload moveId) = true)
    (hcovers : ∀ offset ∈ log.repeated (.move key payload moveId), log.Covers offset) :
    Secures records log (log.handle (.move key payload moveId)).1
      ((PublishCall.move key payload moveId).confirmed
        (log.handle (.move key payload moveId)).2) := by
  simp only [StreamLog.handle, StreamLog.appendWithMoveId]
  cases hoffset : log.deadLetterMoveOffset moveId with
  | none => exact h.secures_append (by
      simpa [StreamLog.handleClean, StreamLog.answers, PublishCall.logCall, StreamLog.callClean,
        hoffset] using hclean)
  | some offset =>
    have hmoved : ∀ append ∈ confirmedOffset key payload (.deadLetterMove moveId)
        (log.moveOffsetForContent offset key payload),
        append.offset = offset ∧ Recorded records append := by
      intro append happend
      cases hmove : log.moveOffsetForContent offset key payload with
      | error error => simp [hmove, confirmedOffset] at happend
      | ok found =>
        obtain rfl : append = ⟨found, key, payload, .deadLetterMove moveId⟩ := by
          simpa [hmove, confirmedOffset] using happend
        exact ⟨moveOffsetForContent_eq hmove, h.recorded_of_move hoffset hmove⟩
    refine h.secures_same ?_ fun append happend => (hmoved append happend).2
    intro append happend
    rw [(hmoved append happend).1]
    exact hcovers offset (by simp [StreamLog.repeated, hoffset])

theorem secures_batch (h : Represents log records part) {items : List PublishRecord}
    (hclean : log.handleClean (.publishBatch items) = true)
    (hcovers : ∀ offset ∈ log.repeated (.publishBatch items), log.Covers offset) :
    Secures records log (log.handle (.publishBatch items)).1
      ((PublishCall.publishBatch items).confirmed (log.handle (.publishBatch items)).2) := by
  simp only [StreamLog.handle, StreamLog.publishBatch]
  by_cases hlarge : maxPublishBatchRecords < items.length
  · simp only [if_pos hlarge]
    exact h.secures_same (by simp [PublishCall.confirmed, confirmedBatch])
      (by simp [PublishCall.confirmed, confirmedBatch])
  · simp only [if_neg hlarge]
    have hclean' : log.batchClean items := by
      simpa [StreamLog.handleClean, StreamLog.answers, PublishCall.logCall, StreamLog.callClean,
        hlarge] using hclean
    obtain ⟨all, left, hall, hrep, hrecorded⟩ := h.appendBatchLoop_extends hclean'
    obtain ⟨hsynced, hunwritten⟩ := log.appendBatchLoop_synced items
    unfold StreamLog.appendBatch
    cases hloop : log.appendBatchLoop items with
    | mk after result =>
      rw [hloop] at hrep hrecorded hsynced hunwritten
      rcases result with error | ⟨outcomes, appended⟩
      · exact ⟨all, left, hall, hrep, hsynced.ge, by simp [PublishCall.confirmed, confirmedBatch]⟩
      · cases appended with
        | false =>
          -- nothing was appended, so the records are those that were covered before
          obtain ⟨hsame, hrepeated⟩ := hunwritten outcomes rfl
          have hlength : all.length = records.length := by
            rw [← hrep.indexed.nextOffset, ← h.indexed.nextOffset, hsame.nextOffset]
          obtain rfl := hall.eq_of_length hlength.symm
          refine ⟨records, left, hall, hrep, hsynced.ge, fun append happend => ?_⟩
          have hfound := hrecorded append happend
          exact ⟨hfound, (h.covered hfound (hcovers _ (hrepeated append happend))).trans hsynced.ge⟩
        | true =>
          have hbytes := after.file.syncData_spec
          rcases after.file.syncData_synced with ⟨hok, hcovered⟩ | ⟨error, hfailed, hcovered⟩
          · have hsync : after.file.syncData = (after.file.syncData.1, .ok ()) := Prod.ext rfl hok
            simp only
            rw [hsync]
            refine ⟨all, left, hall, hrep.congr hbytes after.clock, ?_, fun append happend =>
              ⟨hrecorded append happend, ?_⟩⟩
            · exact (hsynced.ge.trans after.file.synced_le).trans hcovered.ge
            · exact (framesLen_take_le all _).trans (hrep.framesLen_le.trans hcovered.ge)
          · have hsync : after.file.syncData = (after.file.syncData.1, .error error) :=
              Prod.ext rfl hfailed
            simp only
            rw [hsync]
            exact ⟨all, left, hall, hrep.congr hbytes after.clock, (hcovered.trans hsynced).ge,
              by simp [PublishCall.confirmed, confirmedBatch]⟩

theorem secures (h : Represents log records part) {call : PublishCall}
    (hclean : log.handleClean call = true)
    (hcovers : ∀ offset ∈ log.repeated call, log.Covers offset) :
    Secures records log (log.handle call).1 (call.confirmed (log.handle call).2) := by
  cases call with
  | publish key payload requestId => exact h.secures_publish hclean hcovers
  | publishBatch items => exact h.secures_batch hclean hcovers
  | move key payload moveId => exact h.secures_move hclean hcovers

end Represents

theorem Recorded.offset_lt {records : List Record} {confirmed : ConfirmedAppend}
    (h : Recorded records confirmed) : confirmed.offset < records.length := by
  obtain ⟨record, hget, -⟩ := h
  exact (List.getElem?_eq_some_iff.1 hget).1

theorem Recorded.take {records : List Record} {confirmed : ConfirmedAppend} {count : ℕ}
    (h : Recorded records confirmed) (hlt : confirmed.offset + 1 ≤ count) :
    Recorded (records.take count) confirmed := by
  obtain ⟨record, hget, hrest⟩ := h
  refine ⟨record, ?_, hrest⟩
  rw [List.getElem?_take_of_lt hlt, hget]

/-- A file that is cut behind some of its records still holds them, and what is left of the
others is again records with an unfinished frame. By induction on the records behind the cut. -/
theorem take_frames {durable rest : List Record} {part : Bytes} {last : Record} {n : ℕ}
    (hpart : part <+: last.frame (durable ++ rest).length) (hn : framesLen durable ≤ n) :
    ∃ more left, ∃ record : Record,
      (frames (durable ++ rest) ++ part).take n = frames (durable ++ more) ++ left ∧
      left <+: record.frame (durable ++ more).length := by
  induction rest generalizing durable with
  | nil =>
    refine ⟨[], part.take (n - framesLen durable), last, ?_, ?_⟩
    · rw [List.append_nil, List.take_append, length_frames,
        List.take_of_length_le (by simpa using hn)]
    · exact (List.take_prefix _ _).trans hpart
  | cons record rest ih =>
    by_cases hnext : framesLen (durable ++ [record]) ≤ n
    · obtain ⟨more, left, found, htake, hleft⟩ :=
        @ih (durable ++ [record]) (by simpa using hpart) hnext
      refine ⟨record :: more, left, found, ?_, ?_⟩
      · simpa using htake
      · simpa using hleft
    · refine ⟨[], (record.frame durable.length).take (n - framesLen durable), record, ?_, ?_⟩
      · rw [framesLen_append, framesLen_cons, framesLen_nil] at hnext
        rw [frames_split, List.append_nil]
        simp only [List.append_assoc]
        rw [List.take_append, length_frames, List.take_of_length_le (by simpa using hn),
          List.take_append_of_le_length (by rw [Record.length_frame]; omega)]
      · rw [List.append_nil]
        exact List.take_prefix _ _

/-- The log of a run: every confirmed append is one of its records, and is covered by a sync. -/
def Durable (past : List (StreamLog × PublishInvocation)) (log : StreamLog) : Prop :=
  ∃ records part, Represents log records part ∧
    ∀ step ∈ past, ∀ append ∈ step.1.published step.2, Recorded records append ∧
      framesLen (records.take (append.offset + 1)) ≤ log.file.synced

theorem Durable.step {past : List (StreamLog × PublishInvocation)} {log after : StreamLog}
    {invocation : PublishInvocation} (h : Durable past log)
    (hsafe : PublishesSafely log invocation) (hstep : PublishStep log invocation after) :
    Durable ((log, invocation) :: past) after := by
  obtain ⟨records, part, hrep, hpast⟩ := h
  obtain ⟨hclean, hcovers⟩ := hsafe
  obtain rfl : (log.publishing invocation).1 = after := hstep
  obtain ⟨all, left, hall, hafter, hle, hconfirmed⟩ :=
    (hrep.facing invocation.faults invocation.clock).secures hclean hcovers
  refine ⟨all, left, hafter, List.forall_mem_cons.2 ⟨hconfirmed, ?_⟩⟩
  intro step hmem append happend
  obtain ⟨hrecorded, hcovered⟩ := hpast step hmem append happend
  refine ⟨hrecorded.mono hall, ?_⟩
  obtain ⟨more, rfl⟩ := hall
  rw [List.take_append_of_le_length hrecorded.offset_lt]
  exact hcovered.trans hle

theorem durable_run {past : List (StreamLog × PublishInvocation)} {log : StreamLog}
    (h : Run (· = StreamLog.create) (guarded PublishesSafely PublishStep) past log) :
    Durable past log := by
  apply h.history_invariant
  · rintro _ rfl
    exact ⟨[], [], represents_create, by simp⟩
  · rintro past log invocation after hdurable ⟨hsafe, hstep⟩
    exact hdurable.step hsafe hstep

/-- In every run of safe publishes, a crash that keeps the bytes covered by the last successful
sync, and perhaps some more, leaves a file that is recovered with every confirmed append. -/
theorem confirmed_publishes_durable {past : List (StreamLog × PublishInvocation)} {log : StreamLog}
    (h : Run (· = StreamLog.create) (guarded PublishesSafely PublishStep) past log) {kept : ℕ}
    (hkept : log.file.synced ≤ kept) :
    ∃ recovered tail, StreamLog.inspect (log.file.setLen kept) = .ok (recovered, tail) ∧
      ∀ step ∈ past, ∀ confirmed ∈ step.1.published step.2, recovered.Holds confirmed := by
  obtain ⟨records, part, hrep, hpast⟩ := durable_run h
  obtain ⟨last, hpart⟩ := hrep.unfinished
  -- the records that are kept whole
  let count := Nat.findGreatest (fun count => framesLen (records.take count) ≤ kept) records.length
  have hcount : framesLen (records.take count) ≤ kept :=
    Nat.findGreatest_spec (P := fun count => framesLen (records.take count) ≤ kept)
      (Nat.zero_le _) (by simp)
  obtain ⟨more, left, record, htake, hleft⟩ := @take_frames (records.take count)
    (records.drop count) part last kept (by rwa [List.take_append_drop]) hcount
  have hbytes : (log.file.setLen kept).bytes = frames (records.take count ++ more) ++ left := by
    rw [← htake, List.take_append_drop, ← hrep.bytes]
    rfl
  obtain ⟨recovered, tail, all, _, hinspect, hall, hrecovered, -⟩ := inspect_frames hbytes hleft
  refine ⟨recovered, tail, hinspect, ?_⟩
  intro step hmem confirmed hconfirmed
  obtain ⟨hrecorded, hcovered⟩ := hpast step hmem confirmed hconfirmed
  apply hrecovered.holds
  have hwhole : confirmed.offset + 1 ≤ count :=
    Nat.le_findGreatest hrecorded.offset_lt (hcovered.trans hkept)
  refine (hrecorded.take hwhole).mono ?_
  rcases hall with rfl | rfl
  · exact List.prefix_append _ _
  · exact (List.prefix_append _ _).trans (List.prefix_append _ _)

/-- The steps of a list of publishes, newest first, and the log after them. -/
def publishAll (invocations : List PublishInvocation) :
    List (StreamLog × PublishInvocation) × StreamLog :=
  (follow (fun log invocation => some (log.publishing invocation).1) invocations []
    StreamLog.create).getD ([], StreamLog.create)

/-- A batch, another one that fails in its sync, and a repetition of the record of the first. -/
def settledRepetition : List PublishInvocation :=
  [{ call := .publishBatch [⟨none, [1], some "r"⟩], clock := [5] },
   { call := .publishBatch [⟨none, [2], some "s"⟩],
     faults := [none, none, none, some ⟨0, .other, "disk"⟩] },
   { call := .publish none [1] (some "r") }]

/-- The repeated record survives a crash that cuts off the batch that failed. -/
theorem settled_repetition_durable :
    ((publishAll settledRepetition).1.flatMap fun step => step.1.published step.2) =
      [⟨0, none, [1], .publicId "r"⟩, ⟨0, none, [1], .publicId "r"⟩] ∧
    (publishAll settledRepetition).2.file.synced = 50 ∧
    ∃ recovered tail, StreamLog.inspect ((publishAll settledRepetition).2.file.setLen 50) =
        .ok (recovered, tail) ∧
      ∀ step ∈ (publishAll settledRepetition).1, ∀ confirmed ∈ step.1.published step.2,
        recovered.Holds confirmed := by
  refine ⟨by decide +kernel, by decide +kernel, ?_⟩
  exact confirmed_publishes_durable (.next (.next (.next (.start rfl)
    ⟨by unfold PublishesSafely; decide +kernel, rfl⟩)
    ⟨by unfold PublishesSafely; decide +kernel, rfl⟩)
    ⟨by unfold PublishesSafely; decide +kernel, rfl⟩) (by decide +kernel)

/-- A batch that fails in its sync, and a repetition of its record. -/
def unsettledRepetition : List PublishInvocation :=
  [{ call := .publishBatch [⟨none, [1], some "r"⟩],
     faults := [none, none, none, some ⟨0, .other, "disk"⟩] },
   { call := .publish none [1] (some "r") }]

/-- The repetition is confirmed although no sync has succeeded: a crash leaves an empty log. -/
theorem unsettled_repetition_lost :
    Run (· = StreamLog.create) PublishStep (publishAll unsettledRepetition).1
      (publishAll unsettledRepetition).2 ∧
    ((publishAll unsettledRepetition).1.flatMap fun step => step.1.published step.2) =
      [⟨0, none, [1], .publicId "r"⟩] ∧
    (publishAll unsettledRepetition).2.file.synced = 0 ∧
    (StreamLog.inspect ((publishAll unsettledRepetition).2.file.setLen 0)).toOption.any
      (fun result => result.1.nextOffset = 0) := by
  refine ⟨.next (.next (.start rfl) rfl) rfl, ?_, ?_, ?_⟩
  · decide +kernel
  · decide +kernel
  · decide +kernel

end Runnel.Local
