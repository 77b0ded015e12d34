import Runnel.Foundation.Fallible
import Runnel.Local.Recovery

/-!
# Publishing to a local stream

The publish calls of the broker on one stream, and what happens between them: the
broker is closed and opened again, or it stops inside a call and the file keeps
some part of what the call wrote.
-/

namespace Runnel.Local

open Runnel.Engine Runnel.Transition

def maxPublishBatchRecords : ℕ := 1024

namespace StreamLog

def publishWithRequestId (log : StreamLog) (key : Option String) (payload : Bytes)
    (requestId : Option String) : StreamLog × Except BrokerError ℕ :=
  match requestId with
  | none => log.append key payload
  | some requestId =>
    match log.requestOffsetForContent requestId key payload with
    | .error error => (log, .error error)
    | .ok (some offset) => (log, .ok offset)
    | .ok none => log.appendWithRequestId key payload requestId

def publishBatch (log : StreamLog) (records : List PublishRecord) :
    StreamLog × Except BrokerError (List PublishRecordOutcome) :=
  if maxPublishBatchRecords < records.length then
    (log, .error (.configuration
      s!"publish batch contains more than {maxPublishBatchRecords} records"))
  else log.appendBatch records

/-- Opens a stream file: its records are read and an incomplete tail is cut off. -/
def reopen (file : File) : Except BrokerError StreamLog := do
  let (log, incompleteTail) ← inspect file
  return log.finishRecovery incompleteTail

end StreamLog

/-- A call on a stream: a publish, or the internal append of a dead-letter move. -/
inductive PublishCall where
  | publish (key : Option String) (payload : Bytes) (requestId : Option String)
  | publishBatch (records : List PublishRecord)
  | move (key : Option String) (payload : Bytes) (moveId : String)
deriving DecidableEq, Repr

inductive PublishResponse where
  | offset (result : Except BrokerError ℕ)
  | outcomes (result : Except BrokerError (List PublishRecordOutcome))
deriving DecidableEq

def PublishResponse.ioFailed : PublishResponse → Bool
  | .offset (.error (.io _)) => true
  | .outcomes (.error (.io _)) => true
  | _ => false

def PublishCall.confirmed : PublishCall → PublishResponse → List ConfirmedAppend
  | .publish key payload requestId, .offset result =>
    confirmedOffset key payload (StreamLog.recordIdentity ⟨key, payload, requestId⟩) result
  | .publishBatch records, .outcomes result => confirmedBatch records result
  | .move key payload moveId, .offset result =>
    confirmedOffset key payload (.deadLetterMove moveId) result
  | _, _ => []

def StreamLog.handle (log : StreamLog) : PublishCall → StreamLog × PublishResponse
  | .publish key payload requestId =>
    let (after, result) := log.publishWithRequestId key payload requestId
    (after, .offset result)
  | .publishBatch records =>
    let (after, result) := log.publishBatch records
    (after, .outcomes result)
  | .move key payload moveId =>
    let (after, result) := log.appendWithMoveId key payload moveId
    (after, .offset result)

/-- The process stops in one of the file operations of a call, after some bytes of it. -/
def interruption (operations written : ℕ) : List (Option Fault) :=
  List.replicate operations none ++ [some ⟨written, .other, "interrupted"⟩]

inductive LogEvent where
  | call (call : PublishCall) (clock : List ℕ)
  | reopen
  | crash (call : PublishCall) (operations written : ℕ) (clock : List ℕ)
deriving DecidableEq, Repr

/-- A call without an I/O error, a clean reopening, or one after the broker stopped in a call. -/
def LogStep (before : StreamLog) : LogEvent → StreamLog → Prop
  | .call call clock, after =>
    ∃ response, (before.facing [] clock).handle call = (after, response) ∧ response.ioFailed = false
  | .reopen, after => StreamLog.reopen before.file = .ok after
  | .crash call operations written clock, after =>
    StreamLog.reopen ((before.facing (interruption operations written) clock).handle call).1.file =
      .ok after

def UniqueIds (records : List Record) : Prop :=
  records.Pairwise fun first second => first.identity ≠ .none → first.identity ≠ second.identity

namespace UniqueIds

variable {records : List Record}

theorem concat (h : UniqueIds records) {record : Record}
    (hfresh : record.identity = .none ∨ record.identity ∉ records.map Record.identity) :
    UniqueIds (records ++ [record]) := by
  refine List.pairwise_append.2 ⟨h, List.pairwise_singleton _ _, ?_⟩
  intro first hfirst second hsecond hsome hsame
  obtain rfl := List.mem_singleton.1 hsecond
  rcases hfresh with hnone | hnew
  · exact hsome (hsame.trans hnone)
  · exact hnew (List.mem_map.2 ⟨first, hfirst, hsame⟩)

theorem stored (h : UniqueIds records) : UniqueIds (records.map Record.stored) :=
  List.pairwise_map.2 h

theorem of_append {more : List Record} (h : UniqueIds (records ++ more)) : UniqueIds records :=
  (List.pairwise_append.1 h).1

theorem eq_of_identity (h : UniqueIds records) {i j : ℕ} {first second : Record}
    (hfirst : records[i]? = some first) (hsecond : records[j]? = some second)
    (hsome : first.identity ≠ .none) (hsame : first.identity = second.identity) : i = j := by
  obtain ⟨hi, rfl⟩ := List.getElem?_eq_some_iff.1 hfirst
  obtain ⟨hj, rfl⟩ := List.getElem?_eq_some_iff.1 hsecond
  have hpairs := List.pairwise_iff_getElem.1 h
  rcases Nat.lt_trichotomy i j with hlt | heq | hgt
  · exact absurd hsame (hpairs i j hi hj hlt hsome)
  · exact heq
  · exact absurd hsame.symm (hpairs j i hj hi hgt (hsame ▸ hsome))

end UniqueIds

/-- The log stands for the records, nothing is left behind them and their identities differ. -/
structure Consistent (log : StreamLog) (records : List Record) : Prop where
  represents : Represents log records []
  unique : UniqueIds records

/-- A stopped call may leave the start of one more frame, whose identity is not taken either. -/
def Interrupted (log : StreamLog) (records : List Record) : Prop :=
  ∃ part record, Represents log records part ∧ part <+: record.frame records.length ∧
    UniqueIds (records ++ [record])

namespace Consistent

variable {log : StreamLog} {records : List Record}

theorem interrupted (h : Consistent log records) : Interrupted log records := by
  let blank : Record :=
    { key := none, payload := [], identity := .none, publishedAtMs := 0, key_le := by decide,
      payload_le := by decide, identity_le := by decide, published_lt := by decide }
  exact ⟨[], blank, h.represents, List.nil_prefix, h.unique.concat (Or.inl rfl)⟩

theorem clean (h : Consistent log records) : log.Clean :=
  h.represents.clean_iff.2 rfl

theorem fresh (h : Consistent log records) {identity : String} {kind : RequestIdentityKind}
    (hnone : log.identityOffset identity kind = none) :
    kind.identity identity ∉ records.map Record.identity := by
  intro hmem
  obtain ⟨record, hrecord, hidentity⟩ := List.mem_map.1 hmem
  rw [StreamLog.identityOffset, h.represents.indexed.identity, List.findIdx?_eq_none_iff] at hnone
  simpa [hidentity] using hnone record hrecord

theorem appendRecord (h : Consistent log records) {identity : RecordIdentity}
    (hfresh : identity = .none ∨ identity ∉ records.map Record.identity) (key : Option String)
    (payload : Bytes) (sync : Bool) :
    (∃ message, log.appendRecordWithSync key payload identity sync =
      (log, .error (.invalidRecord message))) ∨
    (∃ after error, log.appendRecordWithSync key payload identity sync =
      (after, .error (.io error)) ∧ Interrupted after records) ∨
    ∃ after all, log.appendRecordWithSync key payload identity sync =
      (after, .ok records.length) ∧ records <+: all ∧ Consistent after all ∧
      Recorded all ⟨records.length, key, payload, identity⟩ := by
  have happends := @Represents.appendRecord log records [] h.represents key payload identity
    (fun _ => h.clean) sync
  rcases happends with hrejected |
    ⟨after, error, record, left, happend, rfl, hleft, hafter⟩ |
    ⟨after, record, happend, rfl, rfl, rfl, -, hafter⟩
  · exact Or.inl hrejected
  · exact Or.inr (Or.inl ⟨after, error, happend, left, record, hafter, hleft,
      h.unique.concat hfresh⟩)
  · refine Or.inr (Or.inr ⟨after, records ++ [record], happend, List.prefix_append _ _,
      ⟨hafter, h.unique.concat hfresh⟩, record, ?_, rfl, rfl, rfl⟩)
    exact List.getElem?_concat_length

end Consistent

/-- No failure of the file looks like the rejection of a single record. -/
def StreamLog.Halts (log : StreamLog) : Prop :=
  log.file.Fails fun error => error.kind ≠ .invalidInput

theorem writeFrame_fails {p : IoError → Prop} {file : File} (h : file.Fails p)
    (buffers : List Bytes) (sync : Bool) :
    (StreamLog.writeFrame file buffers sync).1.Fails p ∧
      ∀ error, (StreamLog.writeFrame file buffers sync).2 = .error error → p error := by
  obtain ⟨hfile, herror⟩ := h.writeEach buffers
  unfold StreamLog.writeFrame
  split
  · rename_i after error hwrite
    rw [hwrite] at hfile herror
    exact ⟨hfile, herror⟩
  · rename_i after hwrite
    rw [hwrite] at hfile
    split_ifs
    · exact hfile.syncData
    · exact ⟨hfile, by simp⟩

theorem StreamLog.Halts.appendRecord {log : StreamLog} (h : log.Halts) (key : Option String)
    (payload : Bytes) (identity : RecordIdentity) (sync : Bool) :
    (log.appendRecordWithSync key payload identity sync).1.Halts ∧
      ∀ error, (log.appendRecordWithSync key payload identity sync).2 = .error (.io error) →
        error.kind ≠ .invalidInput := by
  rcases checkLengths_cases key payload identity with ⟨hok, -⟩ | ⟨message, hrejected⟩
  · have hfile : log.nowMs.2.file.Fails fun error => error.kind ≠ .invalidInput := h
    obtain ⟨hafter, herror⟩ := writeFrame_fails hfile [recordHeader identity.flag log.nextOffset
      log.nowMs.1 (keyBytes key) identity.bytes payload, keyBytes key, identity.bytes, payload] sync
    simp only [appendRecordWithSync, hok]
    split
    · rename_i file failure hwrite
      rw [hwrite] at hafter herror
      refine ⟨hafter, ?_⟩
      intro error heq
      obtain rfl := BrokerError.io.inj (Except.error.inj heq)
      exact herror failure rfl
    · rename_i file hwrite
      rw [hwrite] at hafter
      exact ⟨hafter, by simp⟩
  · simp only [appendRecordWithSync, hrejected]
    exact ⟨h, by simp⟩

namespace Consistent

variable {log : StreamLog} {records : List Record}

theorem appendBatchRecord (h : Consistent log records) (hhalts : log.Halts) (item : PublishRecord)
    (hfresh : StreamLog.recordIdentity item = .none ∨
      StreamLog.recordIdentity item ∉ records.map Record.identity) :
    (∃ after error, log.appendBatchRecord item = (after, .error (.io error)) ∧
      Interrupted after records) ∨
    ∃ after outcome wrote all, log.appendBatchRecord item = (after, .ok (outcome, wrote)) ∧
      records <+: all ∧ Consistent after all ∧ after.Halts ∧
      ∀ confirmed ∈ confirmedOffset item.key item.payload (StreamLog.recordIdentity item) outcome,
        Recorded all confirmed := by
  obtain ⟨hnext, herror⟩ := hhalts.appendRecord item.key item.payload
    (StreamLog.recordIdentity item) false
  unfold StreamLog.appendBatchRecord
  rcases h.appendRecord hfresh item.key item.payload false with ⟨message, happend⟩ |
    ⟨after, error, happend, hleft⟩ | ⟨after, all, happend, hall, hafter, hrecorded⟩
  · rw [happend]
    exact Or.inr ⟨log, .error (.invalidRecord message), false, records, rfl, List.prefix_rfl, h,
      hhalts, by simp [confirmedOffset]⟩
  · rw [happend] at herror ⊢
    have hkind : isPerRecordRejection (.io error) = false := by
      simpa [isPerRecordRejection] using herror error rfl
    refine Or.inl ⟨after, error, ?_, hleft⟩
    simp only [hkind]
    rfl
  · rw [happend] at hnext ⊢
    refine Or.inr ⟨after, .ok records.length, true, all, rfl, hall, hafter, hnext, ?_⟩
    simpa [confirmedOffset] using hrecorded

theorem appendBatchItem (h : Consistent log records) (hhalts : log.Halts) (item : PublishRecord) :
    (∃ after error, log.appendBatchItem item = (after, .error (.io error)) ∧
      Interrupted after records) ∨
    ∃ after outcome wrote all, log.appendBatchItem item = (after, .ok (outcome, wrote)) ∧
      records <+: all ∧ Consistent after all ∧ after.Halts ∧
      ∀ confirmed ∈ confirmedOffset item.key item.payload (StreamLog.recordIdentity item) outcome,
        Recorded all confirmed := by
  unfold StreamLog.appendBatchItem
  cases hid : item.requestId with
  | none => exact h.appendBatchRecord hhalts item (Or.inl (by rw [StreamLog.recordIdentity, hid]))
  | some requestId =>
    have hidentity : StreamLog.recordIdentity item = .publicId requestId := by
      rw [StreamLog.recordIdentity, hid]
    dsimp only
    rcases h.represents.request_cases requestId item.key item.payload with ⟨hnew, hrequest⟩ |
      hrequest | ⟨offset, hrequest, hrecorded⟩
    · rw [hrequest]
      refine h.appendBatchRecord hhalts item (Or.inr ?_)
      rw [hidentity]
      exact @fresh log records h requestId .publicId hnew
    · rw [hrequest]
      exact Or.inr ⟨log, _, false, records, rfl, List.prefix_rfl, h, hhalts,
        by simp [confirmedOffset]⟩
    · rw [hrequest]
      refine Or.inr ⟨log, .ok offset, false, records, rfl, List.prefix_rfl, h, hhalts, ?_⟩
      simpa [confirmedOffset, hidentity] using hrecorded

/-- The loop over a batch, by induction on its records: as long as no item fails, the log stands
for records with different identities. -/
theorem appendBatchLoop (h : Consistent log records) (hhalts : log.Halts)
    (items : List PublishRecord) :
    (∃ after error all, log.appendBatchLoop items = (after, .error (.io error)) ∧
      records <+: all ∧ Interrupted after all) ∨
    ∃ after outcomes wrote all, log.appendBatchLoop items = (after, .ok (outcomes, wrote)) ∧
      records <+: all ∧ Consistent after all ∧ after.Halts ∧
      ∀ confirmed ∈ confirmedItems items outcomes, Recorded all confirmed := by
  induction items generalizing log records with
  | nil =>
    exact Or.inr ⟨log, [], false, records, rfl, List.prefix_rfl, h, hhalts,
      by simp [confirmedItems]⟩
  | cons item rest ih =>
    rw [StreamLog.appendBatchLoop]
    rcases h.appendBatchItem hhalts item with ⟨after, error, hitem, hleft⟩ |
      ⟨after, outcome, wrote, all, hitem, hall, hafter, hnext, hrecorded⟩
    · rw [hitem]
      exact Or.inl ⟨after, error, records, rfl, List.prefix_rfl, hleft⟩
    · rw [hitem]
      dsimp only
      rcases ih hafter hnext with ⟨final, error, more, hloop, hmore, hleft⟩ |
        ⟨final, outcomes, appended, more, hloop, hmore, hfinal, hlast, hrest⟩
      · rw [hloop]
        exact Or.inl ⟨final, error, more, rfl, hall.trans hmore, hleft⟩
      · rw [hloop]
        refine Or.inr ⟨final, outcome :: outcomes, _, more, rfl, hall.trans hmore, hfinal, hlast,
          ?_⟩
        intro confirmed hconfirmed
        rcases List.mem_append.1 hconfirmed with hmem | hmem
        · exact (hrecorded confirmed hmem).mono hmore
        · exact hrest confirmed hmem

theorem facing (h : Consistent log records) (faults : List (Option Fault)) (clock : List ℕ) :
    Consistent (log.facing faults clock) records :=
  ⟨h.represents.facing faults clock, h.unique⟩

end Consistent

/-- What a call leaves behind: if it did not fail, a log with all that it confirmed. -/
def Handled (records : List Record) (call : PublishCall) (result : StreamLog × PublishResponse) :
    Prop :=
  ∃ all, records <+: all ∧ Interrupted result.1 all ∧
    (result.2.ioFailed = false → Consistent result.1 all ∧
      ∀ confirmed ∈ call.confirmed result.2, Recorded all confirmed)

namespace Handled

variable {log : StreamLog} {records : List Record} {call : PublishCall}
  {response : PublishResponse}

theorem same (h : Consistent log records)
    (hconfirmed : ∀ confirmed ∈ call.confirmed response, Recorded records confirmed) :
    Handled records call (log, response) :=
  ⟨records, List.prefix_rfl, h.interrupted, fun _ => ⟨h, hconfirmed⟩⟩

theorem failed {all : List Record} (hall : records <+: all) (h : Interrupted log all)
    (hfailed : response.ioFailed = true) : Handled records call (log, response) :=
  ⟨all, hall, h, fun hnot => absurd hfailed (by simp [hnot])⟩

theorem succeeded {all : List Record} (hall : records <+: all) (h : Consistent log all)
    (hconfirmed : ∀ confirmed ∈ call.confirmed response, Recorded all confirmed) :
    Handled records call (log, response) :=
  ⟨all, hall, h.interrupted, fun _ => ⟨h, hconfirmed⟩⟩

end Handled

namespace Consistent

variable {log : StreamLog} {records : List Record}

theorem handled_append (h : Consistent log records) {call : PublishCall}
    {identity : RecordIdentity} {key : Option String} {payload : Bytes}
    (hfresh : identity = .none ∨ identity ∉ records.map Record.identity)
    (hcall : ∀ result, call.confirmed (.offset result) =
      confirmedOffset key payload identity result) :
    Handled records call ((log.appendRecordWithSync key payload identity true).1,
      .offset (log.appendRecordWithSync key payload identity true).2) := by
  rcases h.appendRecord hfresh key payload true with ⟨message, happend⟩ |
    ⟨after, error, happend, hleft⟩ | ⟨after, all, happend, hall, hafter, hrecorded⟩
  · rw [happend]
    exact .same h (by simp [hcall, confirmedOffset])
  · rw [happend]
    exact .failed List.prefix_rfl hleft rfl
  · rw [happend]
    exact .succeeded hall hafter (by simpa [hcall, confirmedOffset] using hrecorded)

theorem handled_publish (h : Consistent log records) (key : Option String) (payload : Bytes)
    (requestId : Option String) :
    Handled records (.publish key payload requestId)
      (log.handle (.publish key payload requestId)) := by
  cases requestId with
  | none => exact h.handled_append (Or.inl rfl) fun _ => rfl
  | some requestId =>
    simp only [StreamLog.handle, StreamLog.publishWithRequestId]
    rcases h.represents.request_cases requestId key payload with ⟨hnew, hrequest⟩ | hrequest |
      ⟨offset, hrequest, hrecorded⟩
    · rw [hrequest]
      exact h.handled_append (Or.inr (@fresh log records h requestId .publicId hnew)) fun _ => rfl
    · rw [hrequest]
      exact .same h (by simp [PublishCall.confirmed, confirmedOffset])
    · rw [hrequest]
      exact .same h
        (by simpa [PublishCall.confirmed, confirmedOffset, StreamLog.recordIdentity] using
          hrecorded)

theorem handled_move (h : Consistent log records) (key : Option String) (payload : Bytes)
    (moveId : String) :
    Handled records (.move key payload moveId) (log.handle (.move key payload moveId)) := by
  simp only [StreamLog.handle, StreamLog.appendWithMoveId]
  cases hoffset : log.deadLetterMoveOffset moveId with
  | none =>
    exact h.handled_append (Or.inr (@fresh log records h moveId .deadLetterMove hoffset))
      fun _ => rfl
  | some offset =>
    apply Handled.same h
    intro confirmed hconfirmed
    cases hmove : log.moveOffsetForContent offset key payload with
    | error error => simp [hmove, PublishCall.confirmed, confirmedOffset] at hconfirmed
    | ok found =>
      obtain rfl : confirmed = ⟨found, key, payload, .deadLetterMove moveId⟩ := by
        simpa [hmove, PublishCall.confirmed, confirmedOffset] using hconfirmed
      exact h.represents.recorded_of_move hoffset hmove

theorem syncFile (h : Consistent log records) : Consistent
    { log with file := log.file.syncData.1 } records :=
  ⟨h.represents.congr log.file.syncData_spec log.clock, h.unique⟩

theorem handled_batch (h : Consistent log records) (hhalts : log.Halts)
    (items : List PublishRecord) :
    Handled records (.publishBatch items) (log.handle (.publishBatch items)) := by
  simp only [StreamLog.handle, StreamLog.publishBatch, StreamLog.appendBatch]
  split_ifs
  · exact .same h (by simp [PublishCall.confirmed, confirmedBatch])
  · rcases h.appendBatchLoop hhalts items with ⟨after, error, all, hloop, hall, hleft⟩ |
      ⟨after, outcomes, wrote, all, hloop, hall, hafter, -, hrecorded⟩
    · rw [hloop]
      exact .failed hall hleft rfl
    · rw [hloop]
      cases wrote with
      | false => exact .succeeded hall hafter hrecorded
      | true =>
        have hsynced := hafter.syncFile
        dsimp only
        cases hsync : after.file.syncData with
        | mk file result =>
          rw [hsync] at hsynced
          cases result with
          | error error => exact .failed hall hsynced.interrupted rfl
          | ok => exact .succeeded hall hsynced hrecorded

theorem handle (h : Consistent log records) (hhalts : log.Halts) (call : PublishCall) :
    Handled records call (log.handle call) := by
  cases call with
  | publish key payload requestId => exact h.handled_publish key payload requestId
  | publishBatch items => exact h.handled_batch hhalts items
  | move key payload moveId => exact h.handled_move key payload moveId

end Consistent

section Runs

variable {log : StreamLog} {records : List Record}

theorem Recorded.stored {confirmed : ConfirmedAppend} (h : Recorded records confirmed) :
    Recorded (records.map Record.stored) confirmed := by
  obtain ⟨record, hget, hkey, hpayload, hidentity⟩ := h
  refine ⟨record.stored, ?_, (keyBytes_storedKey _).trans hkey, hpayload, hidentity⟩
  rw [List.getElem?_map, hget]
  rfl

theorem Interrupted.reopen (h : Interrupted log records) :
    ∃ after all, StreamLog.reopen log.file = .ok after ∧ records <+: all ∧
      Consistent after (all.map Record.stored) := by
  obtain ⟨part, record, hrep, hpart, hunique⟩ := h
  obtain ⟨recovered, tail, all, left, hinspect, hall, -, hcut⟩ := inspect_frames hrep.bytes hpart
  refine ⟨_, all, by rw [StreamLog.reopen, hinspect]; rfl, ?_, hcut, ?_⟩
  · rcases hall with rfl | rfl
    · exact List.prefix_rfl
    · exact List.prefix_append _ _
  · rcases hall with rfl | rfl
    · exact hunique.of_append.stored
    · exact hunique.stored

theorem halts_facing (log : StreamLog) {faults : List (Option Fault)} (clock : List ℕ)
    (h : ∀ fault, some fault ∈ faults → fault.error.kind ≠ .invalidInput) :
    (log.facing faults clock).Halts :=
  ⟨by decide, h⟩

theorem halts_interruption (log : StreamLog) (operations written : ℕ) (clock : List ℕ) :
    (log.facing (interruption operations written) clock).Halts := by
  apply halts_facing
  intro fault hmem
  simp only [interruption, List.mem_append, List.mem_replicate, reduceCtorEq, and_false,
    List.mem_singleton, Option.some.injEq, false_or] at hmem
  simp [hmem]

def LogEvent.confirmed (log : StreamLog) : LogEvent → List ConfirmedAppend
  | .call made clock => made.confirmed ((log.facing [] clock).handle made).2
  | _ => []

def Serves (past : List (StreamLog × LogEvent)) (log : StreamLog) : Prop :=
  ∃ records, Consistent log records ∧
    ∀ step ∈ past, ∀ confirmed ∈ step.2.confirmed step.1, Recorded records confirmed

theorem Serves.step {past : List (StreamLog × LogEvent)} {after : StreamLog} {event : LogEvent}
    (h : Serves past log) (hstep : LogStep log event after) :
    Serves ((log, event) :: past) after := by
  obtain ⟨records, hlog, hpast⟩ := h
  -- the earlier confirmations stay recorded in every longer list, read from the file or not
  have hkept : ∀ all, Consistent after all → (∀ confirmed, Recorded records confirmed →
      Recorded all confirmed) → (∀ confirmed ∈ event.confirmed log, Recorded all confirmed) →
      Serves ((log, event) :: past) after := by
    intro all hafter hmono hnew
    refine ⟨all, hafter, List.forall_mem_cons.2 ⟨hnew, ?_⟩⟩
    intro step hmem confirmed hconfirmed
    exact hmono confirmed (hpast step hmem confirmed hconfirmed)
  cases event with
  | call call clock =>
    obtain ⟨response, hhandle, hok⟩ := hstep
    obtain ⟨all, hall, -, hdone⟩ := (hlog.facing [] clock).handle
      (halts_facing log clock (by simp)) call
    rw [hhandle] at hdone
    obtain ⟨hafter, hconfirmed⟩ := hdone hok
    refine hkept all hafter (fun _ hrecorded => hrecorded.mono hall) ?_
    rw [LogEvent.confirmed, hhandle]
    exact hconfirmed
  | reopen =>
    obtain ⟨found, all, hreopen, hall, hafter⟩ := hlog.interrupted.reopen
    obtain rfl := Except.ok.inj (hreopen.symm.trans hstep)
    exact hkept _ hafter (fun _ hrecorded => (hrecorded.mono hall).stored) (by
      simp [LogEvent.confirmed])
  | crash call operations written clock =>
    obtain ⟨all, hall, hleft, -⟩ := (hlog.facing _ clock).handle
      (halts_interruption log operations written clock) call
    obtain ⟨found, more, hreopen, hmore, hafter⟩ := hleft.reopen
    obtain rfl := Except.ok.inj (hreopen.symm.trans hstep)
    exact hkept _ hafter (fun _ hrecorded => (hrecorded.mono (hall.trans hmore)).stored) (by
      simp [LogEvent.confirmed])

theorem serves_run {past : List (StreamLog × LogEvent)}
    (h : Run (· = StreamLog.create) LogStep past log) : Serves past log := by
  apply h.history_invariant
  · rintro _ rfl
    exact ⟨[], ⟨represents_create, List.Pairwise.nil⟩, by simp⟩
  · intro past log event after hserves hstep
    exact hserves.step hstep

end Runs

namespace StreamLog

/-- The record at an offset of the log was published under the request identity. -/
def Carries (log : StreamLog) (offset : ℕ) (index : RecordIndex) (requestId : String) : Prop :=
  offset < log.nextOffset ∧ log.findRecord offset = .ok index ∧
    index.requestId = some requestId ∧ index.requestIdentityKind = some .publicId

/-- The log has the confirmed record at its offset; absent and empty keys are the same. -/
def Retains (log : StreamLog) (confirmed : ConfirmedAppend) : Prop :=
  log.Has (fun found key => keyBytes found = keyBytes key) confirmed

end StreamLog

namespace Consistent

variable {log : StreamLog} {records : List Record}

theorem retains (h : Consistent log records) {confirmed : ConfirmedAppend}
    (hrecorded : Recorded records confirmed) : log.Retains confirmed := by
  obtain ⟨record, hget, hkey, hpayload, hidentity⟩ := hrecorded
  obtain ⟨index, hfind, hread, hsame, hid, hkind⟩ := h.represents.found hget
  exact ⟨index, hfind, hsame.trans hkey, hpayload ▸ hread, hidentity ▸ hid, hidentity ▸ hkind⟩

variable {requestId : String} {offset : ℕ} {index : RecordIndex}

theorem carries_iff (h : Consistent log records) (hcarries : log.Carries offset index requestId) :
    ∃ record, records[offset]? = some record ∧ record.identity = .publicId requestId ∧
      keyBytes index.key = keyBytes record.key ∧ log.readPayload index = .ok record.payload := by
  obtain ⟨hlt, hfind, hid, hkind⟩ := hcarries
  rw [h.represents.indexed.nextOffset] at hlt
  have hget := List.getElem?_eq_getElem hlt
  obtain ⟨found, hfound, hread, hkey, hfoundId, hfoundKind⟩ := h.represents.found hget
  obtain rfl := Except.ok.inj (hfind.symm.trans hfound)
  refine ⟨records[offset], hget, ?_, hkey, hread⟩
  rw [hfoundId] at hid
  rw [hfoundKind] at hkind
  cases hidentity : records[offset].identity with
  | none => simp [hidentity, RecordIdentity.kind] at hkind
  | deadLetterMove moveId => simp [hidentity, RecordIdentity.kind] at hkind
  | publicId found => simpa [hidentity, RecordIdentity.requestId] using hid

theorem carries_unique (h : Consistent log records) {offset' : ℕ}
    {index' : RecordIndex} (hfirst : log.Carries offset index requestId)
    (hsecond : log.Carries offset' index' requestId) : offset = offset' := by
  obtain ⟨record, hget, hidentity, -⟩ := h.carries_iff hfirst
  obtain ⟨record', hget', hidentity', -⟩ := h.carries_iff hsecond
  exact h.unique.eq_of_identity hget hget' (by simp [hidentity]) (hidentity.trans hidentity'.symm)

theorem requestOffset_of_carries (h : Consistent log records)
    {record : Record} (hget : records[offset]? = some record)
    (hidentity : record.identity = .publicId requestId) :
    log.requestOffset requestId = some offset := by
  cases hoffset : log.requestOffset requestId with
  | none =>
    have hfresh := @fresh log records h requestId .publicId hoffset
    exact absurd (List.mem_map.2 ⟨record, List.mem_of_getElem? hget, hidentity⟩) hfresh
  | some found =>
    obtain ⟨record', _, hget', hidentity', -⟩ := h.represents.existing hoffset
    rw [h.unique.eq_of_identity hget' hget (by simp [hidentity', RequestIdentityKind.identity])
      (hidentity'.trans hidentity.symm)]

/-- A repeated identity is judged by the content of its record and nothing is appended. -/
theorem repeated (h : Consistent log records) (hcarries : log.Carries offset index requestId) :
    ∃ stored, log.readPayload index = .ok stored ∧ ∀ key payload,
      log.publishWithRequestId key payload (some requestId) =
        (log, if keyBytes key = keyBytes index.key ∧ payload = stored then .ok offset
          else .error .requestIdContentConflict) ∧
      log.appendBatchItem ⟨key, payload, some requestId⟩ =
        (log, .ok (if keyBytes key = keyBytes index.key ∧ payload = stored then .ok offset
          else .error .requestIdContentConflict, false)) := by
  obtain ⟨record, hget, hidentity, hkey, hread⟩ := h.carries_iff hcarries
  have hoffset := h.requestOffset_of_carries hget hidentity
  refine ⟨record.payload, hread, ?_⟩
  intro key payload
  have hjudged := h.represents.requestOffsetForContent_eq hoffset hget key payload
  rw [hkey, StreamLog.publishWithRequestId, StreamLog.appendBatchItem]
  simp only [hjudged]
  by_cases hsame : keyBytes key = keyBytes record.key ∧ payload = record.payload
  · simp only [if_pos hsame, and_self]
  · simp only [if_neg hsame, and_self]

/-- An identity that no published record carries is appended, whatever moves carry it. -/
theorem appended (h : Consistent log records)
    (hnone : ∀ offset index, ¬ log.Carries offset index requestId) (key : Option String)
    (payload : Bytes) :
    log.publishWithRequestId key payload (some requestId) =
      log.appendWithRequestId key payload requestId ∧
    log.appendBatchItem ⟨key, payload, some requestId⟩ =
      log.appendBatchRecord ⟨key, payload, some requestId⟩ := by
  have hoffset : log.requestOffset requestId = none := by
    cases hoffset : log.requestOffset requestId with
    | none => rfl
    | some offset =>
      obtain ⟨record, _, hget, hidentity, -⟩ := h.represents.existing hoffset
      obtain ⟨index, hfind, -, -, hid, hkind⟩ := h.represents.found hget
      rw [hidentity] at hid hkind
      have hlt : offset < log.nextOffset := by
        rw [h.represents.indexed.nextOffset]
        exact (List.getElem?_eq_some_iff.1 hget).1
      exact absurd ⟨hlt, hfind, hid, hkind⟩ (hnone offset index)
  have hjudged : log.requestOffsetForContent requestId key payload = .ok none := by
    rw [StreamLog.requestOffsetForContent, hoffset]
  rw [StreamLog.publishWithRequestId, StreamLog.appendBatchItem]
  simp only [hjudged, and_self]

end Consistent

/-- In every run of publishes, moves, clean reopenings and reopenings after the broker stopped in
a call, and also between the items of a batch: every confirmed append is retained, at most one
published record carries a request identity, a repetition is answered from that record without an
append, and an identity that only moves carry is free. -/
theorem local_publish_idempotent {past : List (StreamLog × LogEvent)} {log current : StreamLog}
    {front : List PublishRecord} {clock : List ℕ} {outcomes : List PublishRecordOutcome}
    {wrote : Bool} (h : Run (· = StreamLog.create) LogStep past log)
    (hfront : (log.facing [] clock).appendBatchLoop front = (current, .ok (outcomes, wrote))) :
    (∀ step ∈ past, ∀ confirmed ∈ step.2.confirmed step.1, current.Retains confirmed) ∧
    (∀ confirmed ∈ confirmedItems front outcomes, current.Retains confirmed) ∧
    (∀ requestId offset offset' index index', current.Carries offset index requestId →
      current.Carries offset' index' requestId → offset = offset') ∧
    (∀ requestId offset index, current.Carries offset index requestId →
      ∃ stored, current.readPayload index = .ok stored ∧ ∀ key payload,
        current.publishWithRequestId key payload (some requestId) =
          (current, if keyBytes key = keyBytes index.key ∧ payload = stored then .ok offset
            else .error .requestIdContentConflict) ∧
        current.appendBatchItem ⟨key, payload, some requestId⟩ =
          (current, .ok (if keyBytes key = keyBytes index.key ∧ payload = stored then .ok offset
            else .error .requestIdContentConflict, false))) ∧
    ∀ requestId, (∀ offset index, ¬ current.Carries offset index requestId) → ∀ key payload,
      current.publishWithRequestId key payload (some requestId) =
        current.appendWithRequestId key payload requestId ∧
      current.appendBatchItem ⟨key, payload, some requestId⟩ =
        current.appendBatchRecord ⟨key, payload, some requestId⟩ := by
  obtain ⟨records, hlog, hpast⟩ := serves_run h
  obtain ⟨after, error, all, hloop, -⟩ |
      ⟨after, found, wrote', all, hloop, hall, hafter, -, hnew⟩ :=
    (hlog.facing [] clock).appendBatchLoop (halts_facing log clock (by simp)) front
  · simp [hloop] at hfront
  · obtain ⟨rfl, hresult⟩ := Prod.mk.inj (hloop.symm.trans hfront)
    obtain ⟨rfl, rfl⟩ := Prod.mk.inj (Except.ok.inj hresult)
    refine ⟨?_, fun confirmed hmem => hafter.retains (hnew confirmed hmem), ?_, ?_, ?_⟩
    · intro step hmem confirmed hconfirmed
      exact hafter.retains ((hpast step hmem confirmed hconfirmed).mono hall)
    · intro requestId offset offset' index index' hfirst hsecond
      exact hafter.carries_unique hfirst hsecond
    · intro requestId offset index hcarries
      exact hafter.repeated hcarries
    · intro requestId hnone key payload
      exact hafter.appended hnone key payload

/-- The log after an event, if the event is possible. -/
def StreamLog.next? (log : StreamLog) : LogEvent → Option StreamLog
  | .call call clock =>
    let (after, response) := (log.facing [] clock).handle call
    if response.ioFailed then none else some after
  | .reopen => (StreamLog.reopen log.file).toOption
  | .crash call operations written clock => (StreamLog.reopen
      ((log.facing (interruption operations written) clock).handle call).1.file).toOption

theorem logStep_of_next? {log after : StreamLog} {event : LogEvent}
    (h : log.next? event = some after) : LogStep log event after := by
  cases event with
  | call call clock =>
    simp only [StreamLog.next?] at h
    split_ifs at h with hfailed
    exact ⟨_, Prod.ext (Option.some.inj h) rfl, by simpa using hfailed⟩
  | reopen => exact eq_ok_of_toOption h
  | crash call operations written clock => exact eq_ok_of_toOption h

/-- A publish, a stop inside the next one, and a move under the same identity. -/
def repeatedRequest : List LogEvent :=
  [.call (.publish none [1] (some "r")) [5],
   .crash (.publish (some "k") [2] (some "s")) 1 0 [6],
   .call (.move none [3] "r") [7]]

def firstRequestIndex : RecordIndex where
  offset := 0
  payloadOffset := 49
  payloadLen := 1
  key := none
  requestId := some "r"
  requestIdentityKind := some .publicId
  publishedAtMs := 5

/-- After these events the publish is answered with its first offset, also with an empty key. -/
theorem repeated_request_answered :
    ∃ past log, Run (· = StreamLog.create) LogStep past log ∧
      past.map Prod.snd = repeatedRequest.reverse ∧
      (log.facing [] []).publishWithRequestId (some "") [1] (some "r") =
        (log.facing [] [], .ok 0) := by
  have hsome : (follow StreamLog.next? repeatedRequest [] StreamLog.create).any fun result =>
      result.1.map Prod.snd = repeatedRequest.reverse ∧ 0 < result.2.nextOffset ∧
      (result.2.facing [] []).findRecord 0 = .ok firstRequestIndex ∧
      (result.2.facing [] []).readPayload firstRequestIndex = .ok [1] := by
    decide +kernel
  obtain ⟨⟨past, log⟩, hfollow, hfacts⟩ := (Option.any_eq_true _ _).1 hsome
  obtain ⟨hevents, hlt, hfind, hread⟩ := of_decide_eq_true hfacts
  have hrun : Run (· = StreamLog.create) LogStep past log :=
    Run.of_follow (fun _ _ _ _ => logStep_of_next?) (.start rfl) hfollow
  have hfront : (log.facing [] []).appendBatchLoop [] = (log.facing [] [], .ok ([], false)) := rfl
  refine ⟨past, log, hrun, hevents, ?_⟩
  obtain ⟨stored, hstored, hanswer⟩ := (local_publish_idempotent hrun hfront).2.2.2.1 "r" 0
    firstRequestIndex ⟨hlt, hfind, rfl, rfl⟩
  obtain rfl := Except.ok.inj (hread.symm.trans hstored)
  rw [(hanswer (some "") [1]).1, if_pos (by decide)]

end Runnel.Local
