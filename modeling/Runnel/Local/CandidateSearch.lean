import Runnel.Local.Broker
import Runnel.Local.DeliveryIndex
import Runnel.Local.Reads

/-!
# The search for a candidate

A consumer that is not behind the records in memory is served from them, from the
place that a binary search finds; one that is behind them is served from the file,
from the nearest checkpoint on.
-/

namespace Runnel.Local

open Runnel.Engine Runnel.Transition

/-- Among consecutive offsets the search finds the position of the given one. -/
theorem tailStartLoop_eq {records : List RecordIndex} {first offset : ℕ}
    (hoffset : ∀ (i : ℕ) record, records[i]? = some record → record.offset = first + i)
    (fuel low high : ℕ) (hle : low ≤ high) (hfuel : high - low ≤ fuel)
    (hlen : high ≤ records.length) :
    StreamLog.tailStartLoop records offset fuel low high = max low (min high (offset - first)) := by
  induction fuel generalizing low high with
  | zero =>
    rw [StreamLog.tailStartLoop]
    omega
  | succ fuel ih =>
    rw [StreamLog.tailStartLoop]
    split_ifs with hlt
    · generalize hmiddle : low + (high - low) / 2 = middle
      have hbounds : low ≤ middle ∧ middle < high := by omega
      have hget := List.getElem?_eq_getElem (hbounds.2.trans_le hlen)
      simp only [hget, Option.any_some, decide_eq_true_eq, hoffset middle _ hget]
      split_ifs
      · rw [ih (middle + 1) high (by omega) (by omega) hlen]
        omega
      · rw [ih low middle (by omega) (by omega) (by omega)]
        omega
    · omega

theorem find?_and_eq_drop {α : Type} {xs : List α} {p q : α → Bool} {start : ℕ}
    (h : ∀ (i : ℕ) x, xs[i]? = some x → p x = decide (start ≤ i)) :
    xs.find? (fun x => p x && q x) = (xs.drop start).find? q := by
  have hfront : (xs.take start).find? (fun x => p x && q x) = none := by
    rw [List.find?_eq_none]
    intro x hmem
    obtain ⟨i, hi⟩ := List.mem_iff_getElem?.1 hmem
    rw [List.getElem?_take] at hi
    split_ifs at hi with hlt
    simp [h i x hi, hlt]
  have hrest : ∀ x ∈ xs.drop start, (p x && q x) = q x := by
    intro x hmem
    obtain ⟨i, hi⟩ := List.mem_iff_getElem?.1 hmem
    rw [List.getElem?_drop] at hi
    simp [h _ x hi]
  calc
    xs.find? (fun x => p x && q x)
      = (xs.take start ++ xs.drop start).find? (fun x => p x && q x) := by
        rw [List.take_append_drop]
    _ = (xs.drop start).find? (fun x => p x && q x) := by
        rw [List.find?_append, hfront, Option.none_or]
    _ = (xs.drop start).find? q := List.find?_congr hrest

/-- The test of a search for the first record that may be delivered. -/
def isCandidateFrom (committed : ℕ) (acknowledged : BTreeSet ℕ)
    (inFlight : Option (BTreeSet ℕ × BTreeSet String)) (record : RecordIndex) : Bool :=
  committed ≤ record.offset && recordIsCandidate record acknowledged inFlight

section Search

variable {log : StreamLog} {records : List Record} (committed : ℕ) (acknowledged : BTreeSet ℕ)
  (inFlight : Option (BTreeSet ℕ × BTreeSet String))

theorem offset_of_entries {i : ℕ} {entry : RecordIndex}
    (h : (entries records)[i]? = some entry) : entry.offset = i := by
  rw [entries, getElem?_entriesFrom, Option.map_eq_some_iff] at h
  obtain ⟨record, -, rfl⟩ := h
  exact Nat.zero_add i

/-- Where the records in memory reach back far enough, the search in them is one of the log. -/
theorem Indexed.drop_tailStartIndex (h : Indexed log records)
    (hfirst : records.length - maxInMemoryRecords ≤ committed) :
    log.records.drop (log.tailStartIndex committed) = (entries records).drop committed := by
  generalize hstart : records.length - maxInMemoryRecords = first at hfirst
  have htail : log.records = (entries records).drop first := by
    rw [h.tail, length_entries, hstart]
  have hoffset : ∀ (i : ℕ) record, log.records[i]? = some record → record.offset = first + i := by
    intro i record hget
    rw [htail, List.getElem?_drop] at hget
    exact offset_of_entries hget
  have hindex := @tailStartLoop_eq _ _ committed hoffset log.records.length 0
    log.records.length (Nat.zero_le _) le_rfl le_rfl
  rw [StreamLog.tailStartIndex, hindex, htail, List.drop_drop, List.length_drop, length_entries,
    Nat.zero_max]
  by_cases hlen : committed ≤ records.length
  · have hsum : first + min (records.length - first) (committed - first) = committed := by omega
    rw [hsum]
  · rw [List.drop_of_length_le, List.drop_of_length_le] <;> rw [length_entries] <;> omega

/-- The search answers from the records the log stands for, wherever it looks. -/
theorem Represents.findCandidate_eq (h : Represents log records [])
    (hstored : records.map Record.stored = records) :
    log.findCandidate committed acknowledged inFlight =
      .ok ((entries records).find? (isCandidateFrom committed acknowledged inFlight)) := by
  have hhead : log.records.head? = (entries records)[records.length - maxInMemoryRecords]? := by
    rw [h.indexed.tail, List.head?_drop, length_entries]
  unfold StreamLog.findCandidate
  rw [hhead]
  cases hfirst : (entries records)[records.length - maxInMemoryRecords]? with
  | none =>
    -- only an empty log has no records in memory
    rw [List.getElem?_eq_none_iff, length_entries] at hfirst
    have hempty : records = [] := by
      rw [← List.length_eq_zero_iff]
      unfold maxInMemoryRecords at hfirst
      omega
    rw [hempty]
    rfl
  | some first =>
    simp only [offset_of_entries hfirst]
    split_ifs with hmemory
    · rw [h.indexed.drop_tailStartIndex committed hmemory]
      refine congrArg Except.ok (find?_and_eq_drop ?_).symm
      intro i entry hentry
      rw [offset_of_entries hentry]
    · have hscan := @Represents.scanRecords_eq_find? _ _ _ h h.readNextRecord_end committed
        (isCandidateFrom committed acknowledged inFlight) ?_
      · rw [hstored] at hscan
        exact hscan
      · intro entry hlt
        rw [isCandidateFrom, decide_eq_false (Nat.not_le.2 hlt), Bool.false_and]

end Search

/-- The offset may be delivered: it is not committed, not acknowledged and not excluded, and its
key is not excluded either. -/
def Eligible (contents : List Appended) (committed : ℕ) (acknowledged : BTreeSet ℕ)
    (inFlight : Option (BTreeSet ℕ × BTreeSet String)) (offset : ℕ) : Prop :=
  ∃ record, contents[offset]? = some record ∧ committed ≤ offset ∧ offset ∉ acknowledged ∧
    ∀ offsets keys, inFlight = some (offsets, keys) →
      offset ∉ offsets ∧ ∀ key, record.key = some key → key ∉ keys

theorem recordIsCandidate_iff {record : RecordIndex} {acknowledged : BTreeSet ℕ}
    {inFlight : Option (BTreeSet ℕ × BTreeSet String)} :
    recordIsCandidate record acknowledged inFlight = true ↔
      record.offset ∉ acknowledged ∧ ∀ offsets keys, inFlight = some (offsets, keys) →
        record.offset ∉ offsets ∧ ∀ key, record.key = some key → key ∉ keys := by
  unfold recordIsCandidate
  cases inFlight with
  | none => cases record.key <;> simp
  | some filter =>
    obtain ⟨offsets, keys⟩ := filter
    cases record.key <;> simp [and_assoc]

def Record.appended (record : Record) : Appended :=
  ⟨record.key, record.payload, record.publishedAtMs⟩

theorem map_appended_of_keeps {records : List Record} {contents : List Appended}
    (hkeeps : List.Forall₂ Keeps records contents)
    (hkeys : ∀ record ∈ contents, record.key ≠ some "") :
    records.map Record.appended = contents := by
  induction hkeeps with
  | nil => rfl
  | @cons record content records contents hkept _ ih =>
    obtain ⟨hkey, hrest⟩ := List.forall_mem_cons.1 hkeys
    have hsame := hkept.key
    rw [storedKey_of_ne hkey, or_self] at hsame
    rw [List.map_cons, ih hrest, Record.appended, hsame, hkept.payload, hkept.publishedAtMs]

section Records

variable {log : StreamLog} {records : List Record}

theorem Represents.findRecord_of_stored (h : Represents log records [])
    (hstored : records.map Record.stored = records) {offset : ℕ} {record : Record}
    (hget : records[offset]? = some record) :
    ∃ cursor, (entries records)[offset]? = some (record.index offset cursor) ∧
      log.findRecord offset = .ok (record.index offset cursor) ∧
      log.readPayload (record.index offset cursor) = .ok record.payload := by
  obtain ⟨front, rest, rfl, rfl⟩ := exists_split hget
  have hrecord : record.stored = record := by
    have hmap := congrArg (fun list => list[front.length]?) hstored
    simpa using hmap
  refine ⟨framesLen front, ?_, ?_, h.readPayload rfl rfl rfl⟩
  · simp [entries, getElem?_entriesFrom]
  · rw [h.findRecord_eq rfl, hrecord, ite_self]

theorem eligible_iff {committed : ℕ} {acknowledged : BTreeSet ℕ}
    {inFlight : Option (BTreeSet ℕ × BTreeSet String)} {offset : ℕ} :
    Eligible (records.map Record.appended) committed acknowledged inFlight offset ↔
      ∃ entry, (entries records)[offset]? = some entry ∧
        isCandidateFrom committed acknowledged inFlight entry = true := by
  rw [Eligible, entries, getElem?_entriesFrom, List.getElem?_map]
  cases records[offset]? with
  | none => simp
  | some record =>
    simp [isCandidateFrom, recordIsCandidate_iff, Record.index, Record.appended]

theorem Represents.findCandidate (h : Represents log records [])
    (hstored : records.map Record.stored = records) (committed : ℕ) (acknowledged : BTreeSet ℕ)
    (inFlight : Option (BTreeSet ℕ × BTreeSet String)) :
    ∃ found, log.findCandidate committed acknowledged inFlight = .ok found ∧
      (∀ index, found = some index → log.findRecord index.offset = .ok index ∧
        IsLeast { offset | Eligible (records.map Record.appended) committed acknowledged inFlight
          offset } index.offset) ∧
      (found = none → ∀ offset,
        ¬ Eligible (records.map Record.appended) committed acknowledged inFlight offset) := by
  refine ⟨_, h.findCandidate_eq committed acknowledged inFlight hstored, ?_, ?_⟩
  · intro index hfound
    obtain ⟨hwanted, offset, hlt, hentry, hbefore⟩ := List.find?_eq_some_iff_getElem.1 hfound
    have hget : (entries records)[offset]? = some index :=
      List.getElem?_eq_some_iff.2 ⟨hlt, hentry⟩
    rw [offset_of_entries hget]
    refine ⟨?_, eligible_iff.2 ⟨index, hget, hwanted⟩, ?_⟩
    · rw [length_entries] at hlt
      obtain ⟨cursor, hsame, hfind, -⟩ :=
        h.findRecord_of_stored hstored (List.getElem?_eq_getElem hlt)
      rw [hfind, Option.some.inj (hget.symm.trans hsame)]
    · intro other hother
      obtain ⟨entry, hother, hcandidate⟩ := eligible_iff.1 hother
      by_contra hsmaller
      obtain ⟨hbound, rfl⟩ := List.getElem?_eq_some_iff.1 hother
      have hnot := hbefore other (Nat.lt_of_not_le hsmaller)
      rw [hcandidate] at hnot
      cases hnot
  · intro hnone offset heligible
    obtain ⟨entry, hentry, hcandidate⟩ := eligible_iff.1 heligible
    exact List.find?_eq_none.1 hnone entry (List.mem_of_getElem? hentry) hcandidate

end Records

/-- The records that the log of a run stands for are the appended ones, in memory and in the
file. -/
theorem Run.exists_stored_records {past : List (StreamLog × AppendEvent)} {log : StreamLog}
    (hrun : Run (· = StreamLog.create) AppendStep past log)
    (hkeys : ∀ record ∈ appended past, record.key ≠ some "") :
    ∃ records, Represents log records [] ∧ records.map Record.stored = records ∧
      records.map Record.appended = appended past ∧
      records.map Record.identity = identities past := by
  obtain ⟨records, hrep, hkeeps, hidentities⟩ := Run.exists_records hrun
  have hcontents := map_appended_of_keeps hkeeps hkeys
  refine ⟨records, hrep, ?_, hcontents, hidentities⟩
  apply (List.map_congr_left ?_).trans (List.map_id records)
  intro record hmem
  apply Record.stored_of_ne
  exact hkeys record.appended (hcontents ▸ List.mem_map_of_mem hmem)

/-- Whatever was appended under keys that are absent or not empty, the search reports the least
offset that may be delivered, or none if there is none, and a lookup finds every record below the
next offset. -/
theorem candidate_search_exact {past : List (StreamLog × AppendEvent)} {log : StreamLog}
    (hrun : Run (· = StreamLog.create) AppendStep past log)
    (hkeys : ∀ record ∈ appended past, record.key ≠ some "") :
    (∀ committed acknowledged inFlight, ∃ found,
      log.findCandidate committed acknowledged inFlight = .ok found ∧
      (∀ index, found = some index → log.findRecord index.offset = .ok index ∧
        IsLeast { offset | Eligible (appended past) committed acknowledged inFlight offset }
          index.offset) ∧
      (found = none → ∀ offset,
        ¬ Eligible (appended past) committed acknowledged inFlight offset)) ∧
    ∀ offset < log.nextOffset, ∃ index record identity,
      log.findRecord offset = .ok index ∧ (appended past)[offset]? = some record ∧
      (identities past)[offset]? = some identity ∧ index.offset = offset ∧
      index.key = record.key ∧ index.publishedAtMs = record.publishedAtMs ∧
      log.readPayload index = .ok record.payload ∧ index.requestId = identity.requestId ∧
      index.requestIdentityKind = identity.kind := by
  obtain ⟨records, hrep, hstored, hcontents, hidentities⟩ := Run.exists_stored_records hrun hkeys
  rw [← hcontents, ← hidentities]
  refine ⟨hrep.findCandidate hstored, ?_⟩
  intro offset hlt
  rw [hrep.indexed.nextOffset] at hlt
  have hget := List.getElem?_eq_getElem hlt
  obtain ⟨cursor, -, hfind, hpayload⟩ := hrep.findRecord_of_stored hstored hget
  refine ⟨_, records[offset].appended, records[offset].identity, hfind, ?_, ?_, rfl, rfl, rfl,
    hpayload, rfl, rfl⟩
  · rw [List.getElem?_map, hget, Option.map_some]
  · rw [List.getElem?_map, hget, Option.map_some]

/-- Eight records, with a reopening after the second. -/
def searchedEvents : List AppendEvent :=
  [.append (some "j") [1] .none true [] [5], .append none [2] .none false [] [6], .reopen,
    .append none [3] .none true [] [7], .append (some "k") [4] .none true [] [8],
    .append (some "k") [5] .none true [] [9], .append (some "m") [6] .none true [] [10],
    .append (some "n") [7] .none true [] [11], .append (some "p") [8] .none true [] [12]]

/-- Of the records from the committed offset on, one is acknowledged, one has an excluded offset
and two have an excluded key; the candidate is behind them. -/
theorem searched_record_is_candidate :
    ∃ past log index, follow appendNext? searchedEvents [] StreamLog.create = some (past, log) ∧
      log.findCandidate 1 (.ofList [1, 7]) (some (.ofList [2], .ofList ["k", "q"])) =
        .ok (some index) ∧
      index.offset = 5 ∧ index.key = some "m" ∧
      IsLeast { offset | Eligible (appended past) 1 (.ofList [1, 7])
        (some (.ofList [2], .ofList ["k", "q"])) offset } index.offset := by
  have hsome : (follow appendNext? searchedEvents [] StreamLog.create).any fun result =>
      (appended result.1).all (fun record => record.key ≠ some "") ∧
      (result.2.findCandidate 1 (.ofList [1, 7])
        (some (.ofList [2], .ofList ["k", "q"])) |>.toOption |>.join).any
          (fun index => index.offset = 5 ∧ index.key = some "m") := by
    decide +kernel
  obtain ⟨⟨past, log⟩, hfollow, hfacts⟩ := (Option.any_eq_true _ _).1 hsome
  obtain ⟨hall, hanswer⟩ := of_decide_eq_true hfacts
  have hkeys : ∀ record ∈ appended past, record.key ≠ some "" := by simpa using hall
  have hrun : Run (· = StreamLog.create) AppendStep past log :=
    .of_follow (fun _ _ _ _ => appendStep_of_next?) (.start rfl) hfollow
  obtain ⟨found, hfound, hleast, -⟩ := (candidate_search_exact hrun hkeys).1 1 (.ofList [1, 7])
    (some (.ofList [2], .ofList ["k", "q"]))
  rw [hfound, Except.toOption, Option.join_some, Option.any_eq_true] at hanswer
  obtain ⟨index, rfl, hindex⟩ := hanswer
  obtain ⟨hoffset, hkey⟩ := of_decide_eq_true hindex
  exact ⟨past, log, index, hfollow, hfound, hoffset, hkey, (hleast index rfl).2⟩

theorem findCandidate_none (log : StreamLog) (committed : ℕ) (acknowledged : BTreeSet ℕ) :
    log.findCandidate committed acknowledged none =
      log.findCandidate committed acknowledged (some (∅, ∅)) := by
  have hsame : ∀ record, recordIsCandidate record acknowledged none =
      recordIsCandidate record acknowledged (some (∅, ∅)) := by
    intro record
    simp [recordIsCandidate]
  simp only [StreamLog.findCandidate, hsame]

namespace StreamState

variable (state : StreamState) (consumer : String) (committed : ℕ)
  (acknowledged extraOffsets : BTreeSet ℕ) (extraKeys : BTreeSet String)

/-- The search leaves out the deliveries of the consumer and the extra exclusions. -/
theorem findCandidateExcluding_eq :
    state.findCandidateExcluding consumer committed acknowledged extraOffsets extraKeys =
      state.log.findCandidate committed acknowledged
        (some ((state.delivery.consumerIndex consumer).offsets ∪ extraOffsets,
          (state.delivery.consumerIndex consumer).keys ∪ extraKeys)) := by
  unfold findCandidateExcluding DeliveryState.inFlightFilter DeliveryState.consumerIndex
  cases state.delivery.inFlightByConsumer[consumer]? with
  | none =>
    simp only [Option.map_none, Option.getD_none]
    split_ifs with hempty
    · obtain ⟨hoffsets, hkeys⟩ := hempty
      rw [Std.ExtTreeSet.isEmpty_iff.1 hoffsets, Std.ExtTreeSet.isEmpty_iff.1 hkeys,
        findCandidate_none]
      simp
    · simp
  | some index =>
    simp only [Option.map_some, Option.getD_some]
    split_ifs with hempty
    · obtain ⟨hoffsets, hkeys⟩ := hempty
      rw [Std.ExtTreeSet.isEmpty_iff.1 hoffsets, Std.ExtTreeSet.isEmpty_iff.1 hkeys]
      simp
    · rfl

/-- The offset is not behind the consumer, and neither it nor its key is excluded or in the hands
of a member. -/
def Waiting (contents : List Appended) (offset : ℕ) : Prop :=
  ∃ record, contents[offset]? = some record ∧ committed ≤ offset ∧ offset ∉ acknowledged ∧
    state.delivery.getInFlight consumer offset = none ∧ offset ∉ extraOffsets ∧
    ∀ key, record.key = some key →
      (∀ other inFlight, state.delivery.getInFlight consumer other = some inFlight →
        inFlight.key ≠ some key) ∧ key ∉ extraKeys

variable {state}

theorem eligible_iff_waiting (h : state.delivery.Mirrored) (contents : List Appended) (offset : ℕ) :
    Eligible contents committed acknowledged
        (some ((state.delivery.consumerIndex consumer).offsets ∪ extraOffsets,
          (state.delivery.consumerIndex consumer).keys ∪ extraKeys)) offset ↔
      state.Waiting consumer committed acknowledged extraOffsets extraKeys contents offset := by
  simp only [Eligible, Waiting, Option.some.injEq, Prod.mk.injEq, and_imp, forall_apply_eq_imp_iff,
    forall_eq', Std.ExtTreeSet.mem_union_iff, h.indexed.offsets, h.keys consumer, not_or,
    Option.isSome_iff_ne_none, not_not, not_exists, not_and, ne_eq, and_assoc]

/-- In every state that appends and deliveries lead to, the next record of a consumer is the first
that waits for it. -/
theorem findCandidateExcluding_exact {past : List (StreamLog × AppendEvent)}
    {calls : List (DeliveryState × DeliveryCall)}
    (hlog : Run (· = StreamLog.create) AppendStep past state.log)
    (hkeys : ∀ record ∈ appended past, record.key ≠ some "")
    (hdelivery : Run (· = {}) (guarded DeliveryState.Fresh DeliveryState.Step) calls
      state.delivery) :
    ∃ found, state.findCandidateExcluding consumer committed acknowledged extraOffsets extraKeys =
        .ok found ∧
      (∀ index, found = some index → IsLeast { offset | state.Waiting consumer committed
        acknowledged extraOffsets extraKeys (appended past) offset } index.offset) ∧
      (found = none → ∀ offset, ¬ state.Waiting consumer committed acknowledged extraOffsets
        extraKeys (appended past) offset) := by
  obtain ⟨records, hrep, hstored, hcontents, -⟩ := Run.exists_stored_records hlog hkeys
  obtain ⟨found, hfound, hleast, hnone⟩ := hrep.findCandidate hstored committed acknowledged
    (some ((state.delivery.consumerIndex consumer).offsets ∪ extraOffsets,
      (state.delivery.consumerIndex consumer).keys ∪ extraKeys))
  rw [← findCandidateExcluding_eq] at hfound
  simp only [hcontents, eligible_iff_waiting _ _ _ _ _ (DeliveryState.Run.mirrored hdelivery)]
    at hleast hnone
  exact ⟨found, hfound, fun index hindex => (hleast index hindex).2, hnone⟩

/-- Two records stay in flight for the consumer, one of them with the key of a later record. A
third delivery is over, and a fourth is that of another consumer. -/
def deliveryCalls : List DeliveryCall :=
  [.insert "billing" ⟨"a", 0, some "j", 1, "t0", true, 50⟩,
    .insert "billing" ⟨"a", 1, none, 1, "t1", true, 50⟩,
    .insert "audit" ⟨"c", 7, some "p", 1, "t2", true, 60⟩, .remove "billing" 0,
    .insert "billing" ⟨"b", 3, some "k", 2, "t3", true, 70⟩]

/-- The next record is behind two deliveries in flight, an acknowledged record, one whose key is in
flight, and two that the caller excludes by offset and by key. -/
theorem searched_record_is_next :
    ∃ past calls index, ∃ state : StreamState,
      follow appendNext? searchedEvents [] StreamLog.create = some (past, state.log) ∧
      follow (allowed DeliveryState.Fresh DeliveryState.next?) deliveryCalls [] {} =
        some (calls, state.delivery) ∧
      state.findCandidateExcluding "billing" 1 (.ofList [2]) (.ofList [5]) (.ofList ["n"]) =
        .ok (some index) ∧
      index.offset = 7 ∧
      IsLeast { offset | state.Waiting "billing" 1 (.ofList [2]) (.ofList [5]) (.ofList ["n"])
        (appended past) offset } index.offset := by
  have hsome : (follow appendNext? searchedEvents [] StreamLog.create).any fun appends =>
      (follow (allowed DeliveryState.Fresh DeliveryState.next?) deliveryCalls [] {}).any
        fun result =>
        (appended appends.1).all (fun record => record.key ≠ some "") ∧
        ((StreamState.mk appends.2 result.2).findCandidateExcluding "billing" 1 (.ofList [2])
          (.ofList [5]) (.ofList ["n"]) |>.toOption |>.join).any
            (fun index => index.offset = 7) := by
    decide +kernel
  obtain ⟨⟨past, log⟩, hlog, hrest⟩ := (Option.any_eq_true _ _).1 hsome
  obtain ⟨⟨calls, delivery⟩, hdelivery, hfacts⟩ := (Option.any_eq_true _ _).1 hrest
  obtain ⟨hall, hanswer⟩ := of_decide_eq_true hfacts
  have hkeys : ∀ record ∈ appended past, record.key ≠ some "" := by simpa using hall
  obtain ⟨found, hfound, hleast, -⟩ := @findCandidateExcluding_exact ⟨log, delivery⟩ "billing" 1
    (.ofList [2]) (.ofList [5]) (.ofList ["n"]) past calls
    (.of_follow (fun _ _ _ _ => appendStep_of_next?) (.start rfl) hlog) hkeys
    (.of_follow (fun _ _ _ _ => guarded_of_allowed DeliveryState.step_of_next?) (.start rfl)
      hdelivery)
  rw [hfound, Except.toOption, Option.join_some, Option.any_eq_true] at hanswer
  obtain ⟨index, rfl, hindex⟩ := hanswer
  exact ⟨past, calls, index, ⟨log, delivery⟩, hlog, hdelivery, hfound, of_decide_eq_true hindex,
    hleast index rfl⟩

end StreamState

end Runnel.Local
