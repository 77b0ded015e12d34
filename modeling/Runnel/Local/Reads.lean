import Runnel.Local.Publish

/-!
# Reading records back

A record is served from the records in memory, from a scan of the file once it has
left them, or from what recovery read after a reopening.
-/

namespace Runnel.Local

open Runnel.Engine Runnel.Transition

structure Appended where
  key : Option String
  payload : Bytes
  publishedAtMs : ℕ
deriving DecidableEq, Repr

/-- An append with what its writes, its sync and the clock do, or a reopening. Every append of
the log ends in `appendRecordWithSync`. -/
inductive AppendEvent where
  | append (key : Option String) (payload : Bytes) (identity : RecordIdentity) (sync : Bool)
      (faults : List (Option Fault)) (clock : List ℕ)
  | reopen
deriving DecidableEq, Repr

/-- A successful append, or a reopening of the file. -/
def AppendStep (before : StreamLog) : AppendEvent → StreamLog → Prop
  | .append key payload identity sync faults clock, after =>
    ∃ offset, (before.facing faults clock).appendRecordWithSync key payload identity sync =
      (after, .ok offset)
  | .reopen, after => StreamLog.reopen before.file = .ok after

def AppendEvent.appended? : AppendEvent → Option Appended
  | .append key payload _ _ _ clock => some ⟨key, payload, clock.headD 0 % 2 ^ 64⟩
  | .reopen => none

def AppendEvent.identity? : AppendEvent → Option RecordIdentity
  | .append _ _ identity _ _ _ => some identity
  | .reopen => none

def appended (past : List (StreamLog × AppendEvent)) : List Appended :=
  past.reverse.filterMap fun step => step.2.appended?

def identities (past : List (StreamLog × AppendEvent)) : List RecordIdentity :=
  past.reverse.filterMap fun step => step.2.identity?

/-- The read of an offset returns the record as it was appended. -/
def StreamLog.ReadsBack (log : StreamLog) (offset : ℕ) (record : Appended) : Prop :=
  ∀ stream,
    log.readMessage stream offset = .ok
      { stream := stream, offset := offset, key := record.key, payload := record.payload
        publishedAtMs := record.publishedAtMs, deliveryToken := none, deliveryAttempt := none } ∧
    log.readReplayMessage stream offset = .ok
      { stream := stream, offset := offset, key := record.key, payload := record.payload
        publishedAtMs := record.publishedAtMs }

/-- A record of the log is the appended one, with its key or with the key its frame keeps. -/
structure Keeps (record : Record) (appended : Appended) : Prop where
  key : record.key = appended.key ∨ record.key = storedKey appended.key
  payload : record.payload = appended.payload
  publishedAtMs : record.publishedAtMs = appended.publishedAtMs

theorem Keeps.storedKey_eq {record : Record} {appended : Appended} (h : Keeps record appended) :
    storedKey record.key = storedKey appended.key := by
  rcases h.key with hkey | hkey
  · rw [hkey]
  · rw [hkey, storedKey_storedKey]

theorem Keeps.stored {record : Record} {appended : Appended} (h : Keeps record appended) :
    Keeps record.stored appended :=
  ⟨Or.inr h.storedKey_eq, h.payload, h.publishedAtMs⟩

/-- A read returns the record at its offset, with its key or with the key its frame keeps. -/
theorem Represents.reads {log : StreamLog} {records : List Record} {part : Bytes}
    (h : Represents log records part) {offset : ℕ} {record : Record}
    (hget : records[offset]? = some record) :
    ∃ key, (key = record.key ∨ key = storedKey record.key) ∧
      log.ReadsBack offset ⟨key, record.payload, record.publishedAtMs⟩ := by
  obtain ⟨front, rest, hsplit, rfl⟩ := exists_split hget
  have hbelow : ¬ log.nextOffset ≤ front.length := by
    rw [h.indexed.nextOffset, hsplit, List.length_append, List.length_cons]
    omega
  have hreads : ∀ index, log.findRecord front.length = .ok index →
      index.payloadOffset = (record.index front.length (framesLen front)).payloadOffset →
      index.payloadLen = record.payload.length → index.offset = front.length →
      index.publishedAtMs = record.publishedAtMs →
      log.ReadsBack front.length ⟨index.key, record.payload, record.publishedAtMs⟩ := by
    intro index hfind hposition hlen hoffset htime stream
    have hpayload := h.readPayload hsplit hposition hlen
    constructor
    · rw [StreamLog.readMessage, hfind, ← hoffset, ← htime]
      change Except.bind (log.readPayload index) _ = _
      rw [hpayload]
      rfl
    · rw [StreamLog.readReplayMessage, if_neg hbelow, hfind, ← hoffset, ← htime]
      change Except.bind (log.readPayload index) _ = _
      rw [hpayload]
      rfl
  rcases h.findRecord hsplit with hfind | hfind
  · exact ⟨record.key, Or.inl rfl, hreads _ hfind rfl rfl rfl rfl⟩
  · refine ⟨storedKey record.key, Or.inr rfl, hreads _ hfind ?_ rfl rfl rfl⟩
    rw [Record.index_stored]

def Reproduces (log : StreamLog) (contents : List Appended) : Prop :=
  ∃ records, Represents log records [] ∧ List.Forall₂ Keeps records contents

section Steps

variable {log after : StreamLog} {contents : List Appended}

theorem Represents.reopen {records : List Record} (h : Represents log records []) :
    ∃ reopened, StreamLog.reopen log.file = .ok reopened ∧
      Represents reopened (records.map Record.stored) [] := by
  obtain ⟨record, hpart⟩ := h.unfinished
  have hshort : ([] : Bytes).length < record.frameLen :=
    lt_of_lt_of_le (by decide) record.recordHeaderLen_le_frameLen
  obtain ⟨recovered, tail, hinspect, -, hcut⟩ := inspect_of_unfinished h.bytes hpart hshort
  refine ⟨recovered.finishRecovery tail, ?_, hcut⟩
  rw [StreamLog.reopen, hinspect]
  rfl

theorem AppendStep.represents {records : List Record} (h : Represents log records [])
    {event : AppendEvent} (hstep : AppendStep log event after) :
    (Represents after (records.map Record.stored) [] ∧ event = .reopen) ∨
      ∃ record, Represents after (records ++ [record]) [] ∧
        event.appended? = some ⟨record.key, record.payload, record.publishedAtMs⟩ ∧
        event.identity? = some record.identity := by
  cases event with
  | append key payload identity sync faults clock =>
    obtain ⟨offset, happend⟩ := hstep
    have hfacing : Represents (log.facing faults clock) records [] :=
      @Represents.congr log records [] h { log.file with faults := faults } rfl clock
    rcases @Represents.appendRecord _ records [] hfacing key payload identity
        (fun _ => hfacing.clean_iff.2 rfl) sync with ⟨message, hrejected⟩ |
      ⟨_, error, _, _, hfailed, -⟩ |
      ⟨found, record, hwritten, hkey, hpayload, hidentity, htime, hafter⟩
    · rw [hrejected] at happend
      cases happend
    · rw [hfailed] at happend
      cases happend
    · rw [hwritten] at happend
      obtain ⟨rfl, -⟩ := Prod.mk.inj happend
      refine Or.inr ⟨record, hafter, ?_, congrArg some hidentity.symm⟩
      rw [hkey, hpayload, htime]
      rfl
  | reopen =>
    obtain ⟨reopened, hreopen, hrep⟩ := h.reopen
    obtain rfl : reopened = after := Except.ok.inj (hreopen.symm.trans hstep)
    exact Or.inl ⟨hrep, rfl⟩

theorem Reproduces.reopen (h : Reproduces log contents) :
    ∃ reopened, StreamLog.reopen log.file = .ok reopened ∧ ∃ records,
      Represents reopened (records.map Record.stored) [] ∧ List.Forall₂ Keeps records contents := by
  obtain ⟨records, hrep, hkeeps⟩ := h
  obtain ⟨reopened, hreopen, hafter⟩ := hrep.reopen
  exact ⟨reopened, hreopen, records, hafter, hkeeps⟩

theorem AppendStep.keeps {records : List Record} (hrep : Represents log records [])
    (hkeeps : List.Forall₂ Keeps records contents) {event : AppendEvent}
    (hstep : AppendStep log event after) :
    ∃ stored, Represents after stored [] ∧
      List.Forall₂ Keeps stored (contents ++ event.appended?.toList) ∧
      stored.map Record.identity = records.map Record.identity ++ event.identity?.toList := by
  rcases hstep.represents hrep with ⟨hafter, rfl⟩ | ⟨record, hafter, happended, hidentity⟩
  · rw [AppendEvent.appended?, AppendEvent.identity?, Option.toList_none, Option.toList_none,
      List.append_nil, List.append_nil]
    exact ⟨_, hafter, List.forall₂_map_left_iff.2 (hkeeps.imp fun _ _ h => h.stored),
      List.map_map⟩
  · rw [happended, hidentity, Option.toList_some, Option.toList_some]
    exact ⟨_, hafter, List.rel_append hkeeps (.cons ⟨Or.inl rfl, rfl, rfl⟩ .nil), List.map_append⟩

theorem filterMap_reverse_cons {α β : Type} (f : α → Option β) (x : α) (xs : List α) :
    (x :: xs).reverse.filterMap f = xs.reverse.filterMap f ++ (f x).toList := by
  rw [List.reverse_cons, List.filterMap_append]
  cases hx : f x with
  | none => simp [hx]
  | some y => simp [hx]

theorem appended_append (more past : List (StreamLog × AppendEvent)) :
    appended (more ++ past) = appended past ++ appended more := by
  simp [appended]

theorem Run.exists_records {past : List (StreamLog × AppendEvent)}
    (h : Run (· = StreamLog.create) AppendStep past log) :
    ∃ records, Represents log records [] ∧ List.Forall₂ Keeps records (appended past) ∧
      records.map Record.identity = identities past := by
  induction h with
  | start hinit => exact ⟨[], hinit ▸ represents_create, .nil, rfl⟩
  | next _ hstep ih =>
    obtain ⟨records, hrep, hkeeps, hidentities⟩ := ih
    obtain ⟨stored, hafter, hkept, hidentity⟩ := hstep.keeps hrep hkeeps
    rw [appended, identities, filterMap_reverse_cons, filterMap_reverse_cons]
    exact ⟨stored, hafter, hkept, by rw [hidentity, hidentities, identities]⟩

theorem Run.reproduces {past : List (StreamLog × AppendEvent)}
    (h : Run (· = StreamLog.create) AppendStep past log) : Reproduces log (appended past) := by
  obtain ⟨records, hrep, hkeeps, -⟩ := Run.exists_records h
  exact ⟨records, hrep, hkeeps⟩

theorem Reproduces.reads (h : Reproduces log contents) {offset : ℕ} {record : Appended}
    (hget : contents[offset]? = some record) :
    ∃ key, (key = record.key ∨ key = storedKey record.key) ∧
      log.ReadsBack offset { record with key := key } := by
  obtain ⟨records, hrep, hkeeps⟩ := h
  obtain ⟨hlt, rfl⟩ := List.getElem?_eq_some_iff.1 hget
  have hlen : offset < records.length := hkeeps.length_eq ▸ hlt
  have hkept : Keeps records[offset] contents[offset] := hkeeps.get hlen hlt
  obtain ⟨key, hkey, hreads⟩ := hrep.reads (List.getElem?_eq_getElem hlen)
  rw [hkept.payload, hkept.publishedAtMs] at hreads
  refine ⟨key, ?_, hreads⟩
  rcases hkey with rfl | rfl
  · exact hkept.key
  · exact Or.inr hkept.storedKey_eq

theorem Reproduces.reads_reopened (h : Reproduces log contents) {reopened : StreamLog}
    (hreopen : StreamLog.reopen log.file = .ok reopened) {offset : ℕ} {record : Appended}
    (hget : contents[offset]? = some record) :
    reopened.ReadsBack offset { record with key := storedKey record.key } := by
  obtain ⟨found, hfound, records, hrep, hkeeps⟩ := h.reopen
  obtain rfl : found = reopened := Except.ok.inj (hfound.symm.trans hreopen)
  obtain ⟨hlt, rfl⟩ := List.getElem?_eq_some_iff.1 hget
  have hlen : offset < records.length := hkeeps.length_eq ▸ hlt
  have hkept : Keeps records[offset] contents[offset] := hkeeps.get hlen hlt
  have hstored : (records.map Record.stored)[offset]? = some records[offset].stored := by
    rw [List.getElem?_map, List.getElem?_eq_getElem hlen, Option.map_some]
  obtain ⟨key, hkey, hreads⟩ := hrep.reads hstored
  have hframe : key = storedKey contents[offset].key := by
    rcases hkey with hsame | hsame
    · exact hsame.trans hkept.storedKey_eq
    · exact (hsame.trans (storedKey_storedKey _)).trans hkept.storedKey_eq
  have hpayload : records[offset].stored.payload = contents[offset].payload := hkept.payload
  have htime : records[offset].stored.publishedAtMs = contents[offset].publishedAtMs :=
    hkept.publishedAtMs
  rwa [hpayload, htime, hframe] at hreads

end Steps

/-- A record that an append stored is read back with its key, its payload and its time after
whatever further appends and reopenings, from wherever it is served, exactly if its key is not the
empty string. -/
theorem reads_back_iff {past : List (StreamLog × AppendEvent)} {log : StreamLog}
    (hrun : Run (· = StreamLog.create) AppendStep past log) {offset : ℕ} {record : Appended}
    (hrecord : (appended past)[offset]? = some record) :
    (∀ more later, Run (· = StreamLog.create) AppendStep (more ++ past) later →
      later.ReadsBack offset record) ↔ record.key ≠ some "" := by
  have hretains := Run.reproduces hrun
  constructor
  · intro hreads hempty
    obtain ⟨reopened, hreopen, -⟩ := hretains.reopen
    have hback := hreads [(log, .reopen)] reopened (hrun.next hreopen)
    have hlost := hretains.reads_reopened hreopen hrecord
    have hmessage := Except.ok.inj ((hback "").1.symm.trans (hlost "").1)
    have hkey : record.key = storedKey record.key := congrArg Message.key hmessage
    rw [hempty] at hkey
    cases hkey
  · intro hkey more later hlater
    have hfound : (appended (more ++ past))[offset]? = some record := by
      rw [appended_append, List.getElem?_append_left (List.getElem?_eq_some_iff.1 hrecord).1]
      exact hrecord
    obtain ⟨key, hsame, hreads⟩ := (Run.reproduces hlater).reads hfound
    rw [storedKey_of_ne hkey, or_self] at hsame
    rwa [hsame] at hreads

section Examples

/-- The log after an event, if the append or the reopening succeeds. -/
def appendNext? (log : StreamLog) : AppendEvent → Option StreamLog
  | .append key payload identity sync faults clock =>
    match (log.facing faults clock).appendRecordWithSync key payload identity sync with
    | (after, .ok _) => some after
    | (_, .error _) => none
  | .reopen => (StreamLog.reopen log.file).toOption

theorem appendStep_of_next? {log after : StreamLog} {event : AppendEvent}
    (h : appendNext? log event = some after) : AppendStep log event after := by
  cases event with
  | append key payload identity sync faults clock =>
    rw [appendNext?] at h
    split at h
    · next offset heq =>
      obtain rfl := Option.some.inj h
      exact ⟨offset, heq⟩
    · cases h
  | reopen => exact eq_ok_of_toOption h

def keyedLog (key : Option String) : StreamLog :=
  ((StreamLog.create.facing [] [5]).appendRecordWithSync key [7] .none true).1

theorem keyedLog_run {key : Option String}
    (h : ((StreamLog.create.facing [] [5]).appendRecordWithSync key [7] .none true).2 = .ok 0) :
    Run (· = StreamLog.create) AppendStep
      [(StreamLog.create, .append key [7] .none true [] [5])] (keyedLog key) :=
  .next (.start rfl) ⟨0, Prod.ext rfl h⟩

/-- A record with a key is read back after everything that may follow. -/
theorem keyed_record_reads_back :
    ∃ past log, Run (· = StreamLog.create) AppendStep past log ∧
      (appended past)[0]? = some ⟨some "a", [7], 5⟩ ∧
      ∀ more later, Run (· = StreamLog.create) AppendStep (more ++ past) later →
        later.ReadsBack 0 ⟨some "a", [7], 5⟩ := by
  have hrun := @keyedLog_run (some "a") (by decide +kernel)
  exact ⟨_, _, hrun, rfl, (reads_back_iff hrun rfl).2 (by decide)⟩

/-- A record with an empty key is read with it from memory and without a key after a
reopening. -/
theorem empty_key_lost_by_reopening :
    ∃ past log reopened, Run (· = StreamLog.create) AppendStep past log ∧
      (appended past)[0]? = some ⟨some "", [7], 5⟩ ∧
      StreamLog.reopen log.file = .ok reopened ∧
      (log.readMessage "events" 0).map Message.key = .ok (some "") ∧
      (reopened.readMessage "events" 0).map Message.key = .ok none := by
  have hreopened : (StreamLog.reopen (keyedLog (some "")).file).toOption.any fun reopened =>
      (reopened.readMessage "events" 0).map Message.key = .ok none := by
    decide +kernel
  obtain ⟨reopened, hreopen, hlost⟩ := (Option.any_eq_true _ _).1 hreopened
  exact ⟨_, keyedLog (some ""), reopened, keyedLog_run (by decide +kernel), rfl,
    eq_ok_of_toOption hreopen, by decide +kernel, of_decide_eq_true hlost⟩

end Examples

end Runnel.Local
