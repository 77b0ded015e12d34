import Runnel.Local.TornTail

/-!
# Batches and single publishes

A batch is published to a stream, or the same records are published one by one.
Both answer every record in the same way and leave the same log, except for the
times at which the records were written.
-/

namespace Runnel.Local

open Runnel.Engine Runnel.Transition

def StreamLog.publishEach (log : StreamLog) :
    List (PublishRecord × List ℕ) → StreamLog × List PublishRecordOutcome
  | [] => (log, [])
  | (record, clock) :: rest =>
    let (log, result) := (log.facing [] clock).publishWithRequestId record.key record.payload
      record.requestId
    let (log, results) := publishEach log rest
    (log, result :: results)

/-- An index entry without the time of its record. -/
def RecordIndex.untimed (index : RecordIndex) : RecordIndex := { index with publishedAtMs := 0 }

/-- What the log holds at an offset, without its time. -/
def StreamLog.contentAt (log : StreamLog) (offset : ℕ) :
    Except BrokerError (RecordIndex × Bytes) := do
  let index ← log.findRecord offset
  let payload ← log.readPayload index
  return (index.untimed, payload)

/-- Two logs that differ in the times of their records only. -/
structure StreamLog.SameContents (first second : StreamLog) : Prop where
  length : first.file.bytes.length = second.file.bytes.length
  records : first.records.map RecordIndex.untimed = second.records.map RecordIndex.untimed
  sparseIndex : first.sparseIndex = second.sparseIndex
  requestIds : first.requestIds = second.requestIds
  nextOffset : first.nextOffset = second.nextOffset
  content : ∀ offset, first.contentAt offset = second.contentAt offset

namespace Record

def untimed (record : Record) : Record :=
  { record with publishedAtMs := 0, published_lt := Nat.zero_lt_of_lt record.published_lt }

theorem untimed_eq_iff {first second : Record} : first.untimed = second.untimed ↔
    first.key = second.key ∧ first.payload = second.payload ∧ first.identity = second.identity := by
  simp [untimed]

@[simp] theorem frameLen_untimed (record : Record) :
    record.untimed.frameLen = record.frameLen := rfl

@[simp] theorem identity_untimed (record : Record) :
    record.untimed.identity = record.identity := rfl

end Record

theorem framesLen_untimed (records : List Record) :
    framesLen (records.map Record.untimed) = framesLen records := by
  simp [framesLen, Function.comp_def]

theorem entriesFrom_untimed (offset cursor : ℕ) (records : List Record) :
    (entriesFrom offset cursor records).map RecordIndex.untimed =
      entriesFrom offset cursor (records.map Record.untimed) := by
  induction records generalizing offset cursor with
  | nil => rfl
  | cons record rest ih =>
    rw [entriesFrom, List.map_cons, ih, List.map_cons, entriesFrom]
    rfl

theorem RequestIdentityIndex.ext_get {first second : RequestIdentityIndex}
    (h : ∀ identity kind, first.get identity kind = second.get identity kind) : first = second := by
  cases first with
  | mk publicIds deadLetterMoves =>
    cases second with
    | mk otherIds otherMoves =>
      have hids : publicIds = otherIds :=
        Std.ExtTreeMap.ext_getElem? fun identity => h identity .publicId
      have hmoves : deadLetterMoves = otherMoves :=
        Std.ExtTreeMap.ext_getElem? fun identity => h identity .deadLetterMove
      rw [hids, hmoves]

/-- Two logs that stand for the same records up to their times. -/
structure Paired (first second : StreamLog) (records others : List Record) : Prop where
  left : Consistent first records
  right : Consistent second others
  records : records.map Record.untimed = others.map Record.untimed
  sparseIndex : first.sparseIndex = second.sparseIndex

namespace Paired

variable {first second : StreamLog} {records others : List Record}

theorem length_eq (h : Paired first second records others) : records.length = others.length := by
  simpa using congrArg List.length h.records

theorem framesLen_eq (h : Paired first second records others) :
    framesLen records = framesLen others := by
  rw [← framesLen_untimed, h.records, framesLen_untimed]

theorem bytes_length (h : Paired first second records others) :
    first.file.bytes.length = framesLen records ∧ second.file.bytes.length = framesLen records := by
  constructor
  · rw [h.left.represents.bytes, List.append_nil, length_frames]
  · rw [h.right.represents.bytes, List.append_nil, length_frames, h.framesLen_eq]

theorem identities (h : Paired first second records others) :
    records.map Record.identity = others.map Record.identity := by
  simpa [Function.comp_def] using congrArg (List.map Record.identity) h.records

theorem requestIds (h : Paired first second records others) :
    first.requestIds = second.requestIds := by
  apply RequestIdentityIndex.ext_get
  intro identity kind
  have hmap : ∀ list : List Record,
      (list.findIdx? fun record => record.identity = kind.identity identity) =
        (list.map Record.identity).findIdx? fun known => known = kind.identity identity := by
    intro list
    rw [List.findIdx?_map]
    rfl
  rw [h.left.represents.indexed.identity, h.right.represents.indexed.identity, hmap, hmap,
    h.identities]

theorem get_untimed (h : Paired first second records others) {offset : ℕ} {record : Record}
    (hget : records[offset]? = some record) :
    ∃ other, others[offset]? = some other ∧ record.untimed = other.untimed := by
  have hsame := congrArg (·[offset]?) h.records
  simp only [List.getElem?_map, hget, Option.map_some] at hsame
  obtain ⟨other, hother, hequal⟩ := Option.map_eq_some_iff.1 hsame.symm
  exact ⟨other, hother, hequal.symm⟩

theorem contentAt_eq {log : StreamLog} {list : List Record} (h : Consistent log list)
    {offset : ℕ} {record : Record} (hget : list[offset]? = some record) :
    log.contentAt offset = .ok (if list.length - maxInMemoryRecords ≤ offset
      then record.untimed.index offset (framesLen ((list.map Record.untimed).take offset))
      else record.untimed.stored.index offset (framesLen ((list.map Record.untimed).take offset)),
      record.payload) := by
  obtain ⟨front, rest, rfl, rfl⟩ := exists_split hget
  have hfind := h.represents.findRecord_eq rfl
  have hfront : framesLen (((front ++ record :: rest).map Record.untimed).take front.length) =
      framesLen front := by
    rw [← List.map_take, framesLen_untimed, List.take_left']
    rfl
  rw [StreamLog.contentAt, hfind, hfront]
  split_ifs
  · change Except.bind (log.readPayload _) _ = _
    rw [h.represents.readPayload rfl rfl rfl]
    rfl
  · change Except.bind (log.readPayload _) _ = _
    rw [h.represents.readPayload rfl (by rw [Record.index_stored]) rfl]
    rfl

theorem contentAt_absent {log : StreamLog} {list : List Record} (h : Consistent log list)
    {offset : ℕ} (hoffset : list.length ≤ offset) :
    log.contentAt offset = .error (.corruptRecord offset) := by
  rw [StreamLog.contentAt,
    h.represents.findRecord_absent h.represents.readNextRecord_end hoffset]
  rfl

theorem sameContents (h : Paired first second records others) : first.SameContents second where
  length := by rw [h.bytes_length.1, h.bytes_length.2]
  records := by
    rw [h.left.represents.indexed.tail, h.right.represents.indexed.tail, List.map_drop,
      List.map_drop, entries, entries, entriesFrom_untimed, entriesFrom_untimed, h.records,
      length_entriesFrom, length_entriesFrom, h.length_eq]
  sparseIndex := h.sparseIndex
  requestIds := h.requestIds
  nextOffset := by
    rw [h.left.represents.indexed.nextOffset, h.right.represents.indexed.nextOffset, h.length_eq]
  content := by
    intro offset
    cases hget : records[offset]? with
    | none =>
      have hoffset := List.getElem?_eq_none_iff.1 hget
      rw [contentAt_absent h.left hoffset, contentAt_absent h.right (h.length_eq ▸ hoffset)]
    | some record =>
      obtain ⟨other, hother, hsame⟩ := h.get_untimed hget
      have hpayload : record.payload = other.payload := (Record.untimed_eq_iff.1 hsame).2.1
      rw [contentAt_eq h.left hget, contentAt_eq h.right hother, h.records, hsame, h.length_eq,
        hpayload]

theorem requestOffsetForContent (h : Paired first second records others) (requestId : String)
    (key : Option String) (payload : Bytes) :
    first.requestOffsetForContent requestId key payload =
      second.requestOffsetForContent requestId key payload := by
  have hoffsets : first.requestOffset requestId = second.requestOffset requestId := by
    rw [StreamLog.requestOffset, StreamLog.identityOffset, h.requestIds]
    rfl
  cases hoffset : first.requestOffset requestId with
  | none =>
    rw [hoffset] at hoffsets
    rw [StreamLog.requestOffsetForContent, StreamLog.requestOffsetForContent, hoffset, ← hoffsets]
  | some offset =>
    obtain ⟨record, _, hget, -⟩ := h.left.represents.existing hoffset
    obtain ⟨other, hother, hsame⟩ := h.get_untimed hget
    obtain ⟨hkey, hpayload, -⟩ := Record.untimed_eq_iff.1 hsame
    rw [h.left.represents.requestOffsetForContent_eq hoffset hget,
      h.right.represents.requestOffsetForContent_eq (hoffsets ▸ hoffset) hother, hkey, hpayload]

end Paired

theorem appendRecord_sparseIndex {log after : StreamLog} {key : Option String} {payload : Bytes}
    {identity : RecordIdentity} {sync : Bool} {offset : ℕ}
    (h : log.appendRecordWithSync key payload identity sync = (after, .ok offset)) :
    after.sparseIndex = log.sparseIndex.remember log.nextOffset (after.file.bytes.length -
      payload.length - identity.bytes.length - (keyBytes key).length - recordHeaderLen) := by
  rw [StreamLog.appendRecordWithSync] at h
  split at h
  · simp at h
  · dsimp only at h
    split at h
    · simp at h
    · obtain ⟨rfl, -⟩ := Prod.mk.inj h
      rfl

theorem appendRecord_not_rejected {log after : StreamLog} {key : Option String} {payload : Bytes}
    {identity : RecordIdentity} {sync : Bool} {message : String}
    (hok : checkLengths key payload identity = .ok ()) :
    log.appendRecordWithSync key payload identity sync ≠
      (after, .error (.invalidRecord message)) := by
  rw [StreamLog.appendRecordWithSync, hok]
  dsimp only
  split
  all_goals simp

namespace Paired

variable {first second : StreamLog} {records others : List Record}

theorem appendRecord (h : Paired first second records others) (hfaults : first.file.faults = [])
    {identity : RecordIdentity}
    (hfresh : identity = .none ∨ identity ∉ others.map Record.identity) {key : Option String}
    {payload : Bytes} (sync : Bool) {sync' : Bool} {after : StreamLog}
    {result : Except BrokerError ℕ}
    (hsecond : second.appendRecordWithSync key payload identity sync' = (after, result))
    (hio : ∀ error, result ≠ .error (.io error)) :
    ∃ next records' others', first.appendRecordWithSync key payload identity sync = (next, result) ∧
      Paired next after records' others' ∧ next.file.faults = [] ∧
      ∀ error, result = .error error → isPerRecordRejection error = true := by
  rcases checkLengths_cases key payload identity with ⟨hok, -⟩ | ⟨message, hrejected⟩
  · have hright := @Represents.appendRecord second others [] h.right.represents key payload identity
      (fun _ => h.right.clean) sync'
    rcases hright with
      ⟨message, happend⟩ | ⟨failed, error, _, _, happend, -⟩ |
      ⟨final, other, happend, rfl, rfl, rfl, -, hfinal⟩
    · exact absurd happend (appendRecord_not_rejected hok)
    · rw [hsecond] at happend
      exact absurd (congrArg Prod.snd happend) (hio error)
    · rw [hsecond] at happend
      obtain ⟨rfl, rfl⟩ := Prod.mk.inj happend
      -- the record fits into the other file, so it fits into this one
      have hlen : after.file.bytes.length = framesLen records + other.frameLen := by
        rw [hfinal.bytes, List.append_nil, length_frames, framesLen_append, h.framesLen_eq]
        simp
      have hfits : first.file.bytes.length + other.frameLen ≤ maxFileLen := by
        have := after.file.length_le
        rw [h.bytes_length.1]
        omega
      obtain ⟨hnext, hnot⟩ := appendRecord_of_faults_nil hfaults other sync
      have hleft := @Represents.appendRecord first records [] h.left.represents other.key
        other.payload other.identity (fun _ => h.left.clean) sync
      rcases hleft with
        ⟨message, happend⟩ | ⟨failed, error, _, _, happend, -⟩ |
        ⟨next, record, happend, hkey, hpayload, hidentity, -, hrecord⟩
      · exact absurd happend (appendRecord_not_rejected hok)
      · rw [happend] at hnot
        exact absurd rfl (hnot hfits error)
      · rw [happend] at hnext
        have hsame : record.untimed = other.untimed :=
          Record.untimed_eq_iff.2 ⟨hkey, hpayload, hidentity⟩
        have hfresh' : record.identity = .none ∨ record.identity ∉ records.map Record.identity := by
          rwa [hidentity, h.identities]
        have hnextLen : next.file.bytes.length = after.file.bytes.length := by
          have hframe : record.untimed.frameLen = other.untimed.frameLen :=
            congrArg Record.frameLen hsame
          rw [hlen, hrecord.bytes, List.append_nil, length_frames, framesLen_append]
          simpa using hframe
        refine ⟨next, records ++ [record], others ++ [other], by rw [happend, h.length_eq],
          ⟨⟨hrecord, h.left.unique.concat hfresh'⟩, ⟨hfinal, h.right.unique.concat hfresh⟩, ?_, ?_⟩,
          hnext, by simp⟩
        · simp [h.records, hsame]
        · rw [appendRecord_sparseIndex happend, appendRecord_sparseIndex hsecond, hnextLen,
            h.sparseIndex, h.left.represents.indexed.nextOffset,
            h.right.represents.indexed.nextOffset, h.length_eq]
  · rw [StreamLog.appendRecordWithSync, hrejected] at hsecond
    obtain ⟨rfl, rfl⟩ := Prod.mk.inj hsecond
    refine ⟨first, records, others, by rw [StreamLog.appendRecordWithSync, hrejected], h, hfaults,
      ?_⟩
    intro error herror
    obtain rfl := Except.error.inj herror
    rfl

theorem facing (h : Paired first second records others) (clock : List ℕ) :
    Paired first (second.facing [] clock) records others :=
  ⟨h.left, h.right.facing [] clock, h.records, h.sparseIndex⟩

theorem appendBatchRecord (h : Paired first second records others)
    (hfaults : first.file.faults = []) {record : PublishRecord}
    (hfresh : StreamLog.recordIdentity record = .none ∨
      StreamLog.recordIdentity record ∉ others.map Record.identity)
    {after : StreamLog} {result : Except BrokerError ℕ}
    (hsecond : second.appendRecordWithSync record.key record.payload
      (StreamLog.recordIdentity record) true = (after, result))
    (hio : ∀ error, result ≠ .error (.io error)) :
    ∃ next wrote records' others', first.appendBatchRecord record = (next, .ok (result, wrote)) ∧
      Paired next after records' others' ∧ next.file.faults = [] := by
  obtain ⟨next, records', others', hfirst, hnext, hclear, hrejection⟩ :=
    h.appendRecord hfaults hfresh false hsecond hio
  rw [StreamLog.appendBatchRecord, hfirst]
  cases result with
  | ok offset => exact ⟨next, true, records', others', rfl, hnext, hclear⟩
  | error error =>
    refine ⟨next, false, records', others', ?_, hnext, hclear⟩
    dsimp only
    rw [if_pos (hrejection error rfl)]

/-- A record that is published by a call of its own is published by the batch. -/
theorem publish (h : Paired first second records others) (hfaults : first.file.faults = [])
    {record : PublishRecord} {after : StreamLog} {result : Except BrokerError ℕ}
    (hsecond : second.publishWithRequestId record.key record.payload record.requestId =
      (after, result)) (hio : ∀ error, result ≠ .error (.io error)) :
    ∃ next wrote records' others', first.appendBatchItem record = (next, .ok (result, wrote)) ∧
      Paired next after records' others' ∧ next.file.faults = [] := by
  unfold StreamLog.appendBatchItem
  unfold StreamLog.publishWithRequestId at hsecond
  cases hid : record.requestId with
  | none =>
    have hidentity : StreamLog.recordIdentity record = .none := by
      rw [StreamLog.recordIdentity, hid]
    rw [hid] at hsecond
    refine h.appendBatchRecord hfaults (Or.inl hidentity) ?_ hio
    rw [hidentity]
    exact hsecond
  | some requestId =>
    have hidentity : StreamLog.recordIdentity record = .publicId requestId := by
      rw [StreamLog.recordIdentity, hid]
    rw [hid] at hsecond
    dsimp only at hsecond ⊢
    rw [h.requestOffsetForContent]
    rcases h.right.represents.request_cases requestId record.key record.payload with
      ⟨hnew, hrequest⟩ | hrequest | ⟨offset, hrequest, -⟩
    · rw [hrequest] at hsecond ⊢
      refine h.appendBatchRecord hfaults (Or.inr ?_) ?_ hio
      · rw [hidentity]
        exact @Consistent.fresh second others h.right requestId .publicId hnew
      · rw [hidentity]
        exact hsecond
    · rw [hrequest] at hsecond ⊢
      obtain ⟨rfl, rfl⟩ := Prod.mk.inj hsecond
      exact ⟨first, false, records, others, rfl, h, hfaults⟩
    · rw [hrequest] at hsecond ⊢
      obtain ⟨rfl, rfl⟩ := Prod.mk.inj hsecond
      exact ⟨first, false, records, others, rfl, h, hfaults⟩

/-- The loop over a batch and the single calls in lock-step, by induction on the calls. -/
theorem publishEach (h : Paired first second records others) (hfaults : first.file.faults = [])
    {calls : List (PublishRecord × List ℕ)}
    (hio : ∀ result ∈ (second.publishEach calls).2, ∀ error, result ≠ .error (.io error)) :
    ∃ next wrote records' others', first.appendBatchLoop (calls.map Prod.fst) =
        (next, .ok ((second.publishEach calls).2, wrote)) ∧
      Paired next (second.publishEach calls).1 records' others' ∧ next.file.faults = [] := by
  induction calls generalizing first second records others with
  | nil => exact ⟨first, false, records, others, rfl, h, hfaults⟩
  | cons call rest ih =>
    obtain ⟨record, clock⟩ := call
    cases hcall : (second.facing [] clock).publishWithRequestId record.key record.payload
        record.requestId with
    | mk after result =>
      have heach : second.publishEach ((record, clock) :: rest) =
          ((after.publishEach rest).1, result :: (after.publishEach rest).2) := by
        rw [StreamLog.publishEach, hcall]
      rw [heach] at hio ⊢
      obtain ⟨middle, wrote, records', others', hitem, hmiddle, hclear⟩ :=
        (h.facing clock).publish hfaults hcall (hio result List.mem_cons_self)
      obtain ⟨next, appended, final, finals, hloop, hnext, hlast⟩ := ih hmiddle hclear
        fun other hmem => hio other (List.mem_cons_of_mem _ hmem)
      refine ⟨next, wrote || appended, final, finals, ?_, hnext, hlast⟩
      rw [List.map_cons, StreamLog.appendBatchLoop, hitem]
      dsimp only
      rw [hloop]

theorem appendBatch (h : Paired first second records others) (hfaults : first.file.faults = [])
    {calls : List (PublishRecord × List ℕ)}
    (hio : ∀ result ∈ (second.publishEach calls).2, ∀ error, result ≠ .error (.io error)) :
    ∃ next records' others', first.appendBatch (calls.map Prod.fst) =
        (next, .ok (second.publishEach calls).2) ∧
      Paired next (second.publishEach calls).1 records' others' := by
  obtain ⟨next, wrote, records', others', hloop, hnext, hclear⟩ := h.publishEach hfaults hio
  rw [StreamLog.appendBatch, hloop]
  cases wrote with
  | false => exact ⟨next, records', others', rfl, hnext⟩
  | true =>
    obtain ⟨-, hsync⟩ := File.syncData_of_faults_nil hclear
    have hsynced := hnext.left.syncFile
    dsimp only
    cases hfile : next.file.syncData with
    | mk file outcome =>
      rw [hfile] at hsync hsynced
      obtain rfl : outcome = .ok () := hsync
      exact ⟨_, records', others', rfl, hsynced, hnext.right, hnext.records, hnext.sparseIndex⟩

end Paired

/-- In every state of a stream that publishes, moves, reopenings and stops inside a call lead to: a
batch answers every record as publishing the records one after the other does, if none of these
calls fails in the file, and leaves the same log up to the times of the records. -/
theorem batch_publish_eq_each {past : List (StreamLog × LogEvent)} {log : StreamLog}
    (h : Run (· = StreamLog.create) LogStep past log) {calls : List (PublishRecord × List ℕ)}
    (hcount : calls.length ≤ maxPublishBatchRecords) (clock : List ℕ)
    (hio : ∀ result ∈ (log.publishEach calls).2, ∀ error, result ≠ .error (.io error)) :
    ((log.facing [] clock).publishBatch (calls.map Prod.fst)).2 = .ok (log.publishEach calls).2 ∧
    ((log.facing [] clock).publishBatch (calls.map Prod.fst)).1.SameContents
      (log.publishEach calls).1 := by
  obtain ⟨records, hlog, -⟩ := serves_run h
  have hpair : Paired (log.facing [] clock) log records records :=
    ⟨hlog.facing [] clock, hlog, rfl, rfl⟩
  obtain ⟨next, records', others', hbatch, hnext⟩ := hpair.appendBatch rfl hio
  have hle : ¬ maxPublishBatchRecords < (calls.map Prod.fst).length := by
    rw [List.length_map]
    omega
  rw [StreamLog.publishBatch, if_neg hle, hbatch]
  exact ⟨rfl, hnext.sameContents⟩

/-- A new record, its repetition, another content under its identity and a key that is too long. -/
def mixedCalls : List (PublishRecord × List ℕ) :=
  [(⟨some "a", [1], some "q"⟩, [8]), (⟨some "a", [1], some "q"⟩, [9]),
   (⟨none, [2], some "q"⟩, [10]),
   (⟨some (String.ofList (List.replicate 129 'k')), [3], none⟩, [11]),
   (⟨none, [4], some "r"⟩, [12])]

def mixedOutcomes : List PublishRecordOutcome :=
  [.ok 2, .ok 2, .error .requestIdContentConflict,
   .error (.invalidRecord "message key is 129 bytes; stream record limit is 128 bytes"),
   .error .requestIdContentConflict]

/-- After a publish, a stop inside a call and a move, a batch is answered record by record. -/
theorem mixed_batch_answered :
    ∃ past log, Run (· = StreamLog.create) LogStep past log ∧
      past.map Prod.snd = repeatedRequest.reverse ∧
      ((log.facing [] [20]).publishBatch (mixedCalls.map Prod.fst)).2 = .ok mixedOutcomes ∧
      ((log.facing [] [20]).publishBatch (mixedCalls.map Prod.fst)).1.SameContents
        (log.publishEach mixedCalls).1 := by
  have hsome : (follow StreamLog.next? repeatedRequest [] StreamLog.create).any fun result =>
      result.1.map Prod.snd = repeatedRequest.reverse ∧
      (result.2.publishEach mixedCalls).2 = mixedOutcomes := by
    decide +kernel
  obtain ⟨⟨past, log⟩, hfollow, hfacts⟩ := (Option.any_eq_true _ _).1 hsome
  obtain ⟨hevents, houtcomes⟩ := of_decide_eq_true hfacts
  have hrun : Run (· = StreamLog.create) LogStep past log :=
    Run.of_follow (fun _ _ _ _ => logStep_of_next?) (.start rfl) hfollow
  have hio : ∀ result ∈ (log.publishEach mixedCalls).2, ∀ error, result ≠ .error (.io error) := by
    rw [houtcomes]
    simp [mixedOutcomes]
  have hbatch := batch_publish_eq_each hrun (by decide : mixedCalls.length ≤ _) [20] hio
  exact ⟨past, log, hrun, hevents, houtcomes ▸ hbatch.1, hbatch.2⟩

end Runnel.Local
