import Runnel.Cluster.PreviewExact

/-!
# The response limit of a scalar poll

A scalar poll measures its response before it changes anything. The size check
searches the stream again on a copy of the consumer; its search looks at live
leases but at no retry delay, so it may measure another record than the one the
poll delivers.
-/

namespace Runnel.Cluster

open Runnel.Engine GroupConsumerState

/-- The record is pending, and no held record stands in its place or has its key. -/
structure Free (messages : List StoredMessage) (consumer : GroupConsumerState)
    (held : ℕ → Prop) (offset : ℕ) : Prop where
  stored : offset < messages.length
  pending : ¬ consumer.Acknowledged offset
  notHeld : ¬ held offset
  keyFree : ∀ key, keyAt messages offset = some key →
    ∀ other, held other → keyAt messages other ≠ some key

/-- The record is free and does not leave for the dead-letter stream. -/
def Deliverable (messages : List StoredMessage) (terms : PollTerms) (isDeadLetter : Bool)
    (consumer : GroupConsumerState) (held : ℕ → Prop) (offset : ℕ) : Prop :=
  Free messages consumer held offset ∧
    ¬ (consumer.exhaustedAt terms offset && !isDeadLetter) = true

section Deliverable

variable {messages : List StoredMessage} {terms : PollTerms} {isDeadLetter : Bool}
  {consumer : GroupConsumerState} {held held' : ℕ → Prop} {offset other : ℕ}

theorem Free.congr (hheld : ∀ other, held' other ↔ held other)
    {consumer' : GroupConsumerState}
    (hacknowledged : consumer'.Acknowledged offset ↔ consumer.Acknowledged offset) :
    Free messages consumer' held' offset ↔ Free messages consumer held offset := by
  constructor
  · rintro ⟨hstored, hpending, hnot, hkeys⟩
    exact ⟨hstored, fun h => hpending (hacknowledged.2 h), fun h => hnot ((hheld _).2 h),
      fun key hkey other h => hkeys key hkey other ((hheld other).2 h)⟩
  · rintro ⟨hstored, hpending, hnot, hkeys⟩
    exact ⟨hstored, fun h => hpending (hacknowledged.1 h), fun h => hnot ((hheld _).1 h),
      fun key hkey other h => hkeys key hkey other ((hheld other).1 h)⟩

theorem deliverable_acknowledge_iff
    (hleaves : (consumer.exhaustedAt terms offset && !isDeadLetter) = true)
    (hheld : ∀ other, held' other ↔ held other) :
    Deliverable messages terms isDeadLetter (consumer.acknowledgeGroupOffset offset) held' other ↔
      Deliverable messages terms isDeadLetter consumer held other := by
  have hspec := acknowledgeGroupOffset_spec consumer offset
  by_cases hsame : other = offset
  · subst hsame
    refine iff_of_false ?_ fun h => h.2 hleaves
    rintro ⟨hfree, -⟩
    exact hfree.pending ((hspec.acknowledged_iff other).2 (Or.inr rfl))
  · have hacknowledged : (consumer.acknowledgeGroupOffset offset).Acknowledged other ↔
        consumer.Acknowledged other := by
      rw [hspec.acknowledged_iff, or_iff_left hsame]
    unfold Deliverable
    rw [Free.congr hheld hacknowledged]
    apply and_congr_right
    intro hfree
    rw [exhaustedAt_acknowledge consumer terms hsame hfree.pending]

theorem isLeast_deliverable (hleast : IsLeast {other | Free messages consumer held other} offset)
    (hstays : ¬ (consumer.exhaustedAt terms offset && !isDeadLetter) = true) :
    IsLeast {other | Deliverable messages terms isDeadLetter consumer held other} offset :=
  ⟨⟨hleast.1, hstays⟩, fun _ h => hleast.2 h.1⟩

end Deliverable

section SizeCheck

variable {messages : List StoredMessage} {consumer : GroupConsumerState}

theorem free_iff_sizeTest (hwf : WellFormed messages consumer) {offset : ℕ}
    {stored : StoredMessage} (hget : messages[offset]? = some stored) :
    Free messages consumer (· ∈ consumer.inFlight) offset ↔
      consumer.committedOffset ≤ offset ∧
      (if offset ∈ consumer.acknowledgedOffsets ∨ offset ∈ consumer.inFlight then false
        else stored.key.all (fun key => !(consumer.keyInFlight key))) = true := by
  have hkeyAt : keyAt messages offset = stored.key := by
    rw [keyAt, hget, Option.bind_some]
  have hkeys : ∀ key, consumer.keyInFlight key = true ↔
      ∃ other, other ∈ consumer.inFlight ∧ keyAt messages other = some key := by
    intro key
    rw [keyInFlight_iff]
    constructor
    · rintro ⟨other, delivery, hdelivery, hkey⟩
      exact ⟨other, mem_iff_exists_getElem?.2 ⟨delivery, hdelivery⟩,
        (hwf.inFlight other delivery hdelivery).2.symm.trans hkey⟩
    · rintro ⟨other, hmem, hkey⟩
      obtain ⟨delivery, hdelivery⟩ := mem_iff_exists_getElem?.1 hmem
      exact ⟨other, delivery, hdelivery, (hwf.inFlight other delivery hdelivery).2.trans hkey⟩
  constructor
  · rintro ⟨-, hpending, hnot, hfree⟩
    rw [Acknowledged, not_or, Nat.not_lt] at hpending
    refine ⟨hpending.1, ?_⟩
    rw [if_neg (not_or.2 ⟨hpending.2, hnot⟩), Option.all_eq_true]
    intro key hkey
    rw [Bool.not_eq_true', ← Bool.not_eq_true, hkeys]
    rintro ⟨other, hmem, hother⟩
    exact hfree key (hkeyAt.trans hkey) other hmem hother
  · rintro ⟨hcommitted, htest⟩
    split_ifs at htest with hblocked
    obtain ⟨hacked, hflight⟩ := not_or.1 hblocked
    rw [Option.all_eq_true] at htest
    refine ⟨(List.getElem?_eq_some_iff.1 hget).1, ?_, hflight, ?_⟩
    · rintro (hlt | hmem)
      · omega
      · exact hacked hmem
    · intro key hkey other hmem hother
      have hnone := htest key (hkeyAt.symm.trans hkey)
      rw [Bool.not_eq_true', ← Bool.not_eq_true, hkeys] at hnone
      exact hnone ⟨other, hmem, hother⟩

/-- The size check measures the first deliverable record, as the live leases alone leave it. -/
theorem upperBoundLoop_spec (state : SnapshotState) (request : GroupPollRequest) (token : String)
    (nowMs fuel : ℕ) (hwf : WellFormed messages consumer)
    (hfuel : (pendingOffsets messages consumer ∅).card < fuel) :
    (upperBoundLoop state request token messages fuel consumer = some none ∧
      ∀ offset, ¬ Deliverable messages (request.terms nowMs)
        (isDeadLetterStream state request.stream) consumer (· ∈ consumer.inFlight) offset) ∨
    ∃ offset stored,
      upperBoundLoop state request token messages fuel consumer =
        some (some (request.responseUpperBound offset stored token
          (satAdd32 (consumer.attempts offset) 1))) ∧
      messages[offset]? = some stored ∧
      IsLeast {offset | Deliverable messages (request.terms nowMs)
        (isDeadLetterStream state request.stream) consumer (· ∈ consumer.inFlight) offset}
        offset := by
  induction fuel generalizing consumer with
  | zero => omega
  | succ fuel ih =>
    rw [upperBoundLoop]
    cases hcandidate : upperBoundCandidate consumer messages with
    | none =>
      refine Or.inl ⟨rfl, fun offset hdeliverable => ?_⟩
      exact not_of_find?_enumerate (fun _ _ hget => free_iff_sizeTest hwf hget)
        (fun _ hfree => hfree.stored) hcandidate offset hdeliverable.1
    | some found =>
      obtain ⟨offset, stored⟩ := found
      obtain ⟨hget, hleast⟩ := isLeast_of_find?_enumerate
        (fun _ _ hget => free_iff_sizeTest hwf hget) (fun _ hfree => hfree.stored) hcandidate
      obtain ⟨policy, hpolicy⟩ := hwf.exists_policy offset request.legacyPolicy
        request.policyVersion
      have hexhausted : consumer.exhaustedAt (request.terms nowMs) offset =
          policy.exhausted (consumer.attempts offset) := by
        simp [exhaustedAt, GroupPollRequest.terms, hpolicy]
      simp only [hpolicy, Option.bind_eq_bind, Option.bind_some, Option.pure_def]
      rw [← hexhausted]
      by_cases hleaves : (consumer.exhaustedAt (request.terms nowMs) offset &&
          !isDeadLetterStream state request.stream) = true
      · -- The check acknowledges the record on its copy and searches again.
        have hflight := inFlight_acknowledge_of_notMem hleast.1.notHeld
        have hfewer := card_pendingOffsets_acknowledge (List.getElem?_eq_some_iff.1 hget).1
          hleast.1.pending Std.ExtTreeSet.not_mem_empty
        have hsame : ∀ other, Deliverable messages (request.terms nowMs)
            (isDeadLetterStream state request.stream) (consumer.acknowledgeGroupOffset offset)
            (· ∈ (consumer.acknowledgeGroupOffset offset).inFlight) other ↔
            Deliverable messages (request.terms nowMs)
              (isDeadLetterStream state request.stream) consumer (· ∈ consumer.inFlight) other :=
          fun other => deliverable_acknowledge_iff hleaves fun _ => by rw [hflight]
        rw [if_pos hleaves]
        have hrest := ih (hwf.acknowledge offset) (hfewer.trans_le (Nat.lt_succ_iff.1 hfuel))
        simp only [hsame] at hrest
        rcases hrest with hnone | ⟨next, record, hloop, hrecord, hnext⟩
        · exact Or.inl hnone
        · refine Or.inr ⟨next, record, ?_, hrecord, hnext⟩
          have hne : next ≠ offset := by
            rintro rfl
            exact hnext.1.2 hleaves
          rw [hloop, attempts_acknowledge consumer hne]
      · rw [if_neg hleaves]
        exact Or.inr ⟨offset, stored, rfl, hget, isLeast_deliverable hleast hleaves⟩

end SizeCheck

section Poll

theorem free_iff_eligible {messages : List StoredMessage} {consumer : GroupConsumerState}
    {nowMs : ℕ} (hwf : WellFormed messages consumer) (hlive : consumer.AllLive nowMs)
    {offset : ℕ} {stored : StoredMessage} (hget : messages[offset]? = some stored) :
    Free messages consumer (consumer.Blocked nowMs) offset ↔
      consumer.committedOffset ≤ offset ∧ eligible consumer nowMs ∅ ∅ (offset, stored) = true := by
  have hkeyAt : keyAt messages offset = stored.key := by
    rw [keyAt, hget, Option.bind_some]
  have htest := searched_iff hwf hlive ∅ ∅ (offset, stored)
  rw [Bool.and_eq_true, decide_eq_true_eq] at htest
  rw [htest]
  constructor
  · rintro ⟨-, hpending, hnot, hfree⟩
    exact ⟨hpending, hnot, by simp, fun key hkey =>
      ⟨by simp, hfree key (hkeyAt.trans hkey)⟩⟩
  · rintro ⟨hpending, hnot, -, hfree⟩
    exact ⟨(List.getElem?_eq_some_iff.1 hget).1, hpending, hnot, fun key hkey =>
      (hfree key (hkeyAt.symm.trans hkey)).2⟩

/-- The poll delivers the first deliverable record, as live leases and retry delays leave it. -/
theorem groupPollLoop_answer (request : GroupPollRequest) (token : String) (nowMs fuel : ℕ)
    {state : SnapshotState} (hwf : state.WellFormed) {consumer : GroupConsumerState}
    (hconsumer : state.groupConsumers[request.consumerKey]? = some consumer)
    (hlive : consumer.AllLive nowMs) {streamState : StreamState}
    (hstream : state.streams[request.stream]? = some streamState)
    (hfuel : (pendingOffsets streamState.messages consumer ∅).card < fuel) :
    (∃ after, groupPollLoop request token nowMs fuel state = some (after, .groupPoll .empty) ∧
      ∀ offset, ¬ Deliverable streamState.messages (request.terms nowMs)
        (isDeadLetterStream state request.stream) consumer (consumer.Blocked nowMs) offset) ∨
    ∃ after offset stored delivery,
      groupPollLoop request token nowMs fuel state =
        some (after, groupPollMessage request.stream offset streamState.messages delivery) ∧
      delivery.deliveryToken = token ∧
      delivery.deliveryAttempt = satAdd32 (consumer.attempts offset) 1 ∧
      streamState.messages[offset]? = some stored ∧
      IsLeast {offset | Deliverable streamState.messages (request.terms nowMs)
        (isDeadLetterStream state request.stream) consumer (consumer.Blocked nowMs) offset}
        offset := by
  induction fuel generalizing state consumer with
  | zero => omega
  | succ fuel ih =>
    have hmessages : state.messages request.consumerKey.1 = streamState.messages :=
      SnapshotState.messages_of_getElem? hstream
    have hwf' : WellFormed streamState.messages consumer :=
      hmessages ▸ hwf request.consumerKey consumer hconsumer
    rw [groupPollLoop, hconsumer, hstream]
    simp only [Option.bind_eq_bind, Option.bind_some, Option.pure_def]
    cases hcandidate : candidate consumer streamState.messages nowMs ∅ ∅ with
    | none =>
      refine Or.inl ⟨state, rfl, fun offset hdeliverable => ?_⟩
      exact not_of_find?_enumerate (fun _ _ hget => free_iff_eligible hwf' hlive hget)
        (fun _ hfree => hfree.stored) hcandidate offset hdeliverable.1
    | some found =>
      obtain ⟨offset, stored⟩ := found
      obtain ⟨hget, hleast⟩ := isLeast_of_find?_enumerate
        (fun _ _ hget => free_iff_eligible hwf' hlive hget) (fun _ hfree => hfree.stored)
        hcandidate
      obtain ⟨policy, hpolicy⟩ := hwf'.exists_policy offset request.legacyPolicy
        request.policyVersion
      have hexhausted : consumer.exhaustedAt (request.terms nowMs) offset =
          policy.exhausted (consumer.attempts offset) := by
        simp [exhaustedAt, GroupPollRequest.terms, hpolicy]
      simp only [hpolicy, Option.bind_some]
      rw [← hexhausted]
      by_cases hleaves : (consumer.exhaustedAt (request.terms nowMs) offset &&
          !isDeadLetterStream state request.stream) = true
      · -- The record moves away and the search goes on.
        obtain ⟨hspent, hlively⟩ := Bool.and_eq_true_iff.1 hleaves
        have hkept : isDeadLetterStream state request.consumerKey.1 = false :=
          Bool.not_eq_true' _ ▸ hlively
        have hwaiting : offset ∉ (consumer.retryFilter nowMs).1 :=
          fun hmem => hleast.1.notHeld (Or.inl hmem)
        have hflight : offset ∉ consumer.inFlight :=
          fun hmem => hleast.1.notHeld (Or.inr ((hlive.live_iff offset).2 hmem))
        have hsettled : Settled (request.terms nowMs) [offset] consumer
            (consumer.acknowledgeGroupOffset offset) :=
          .acknowledge hwf' hleast.1.pending hflight hwaiting hspent
        obtain ⟨next, hmove, -, hnext, hconsumer', hstream', hdead⟩ :=
          @moves_candidate _ hwf _ _ (request.terms nowMs) hconsumer _ _ (by simp) _ _
            (hmessages ▸ hcandidate) hspent hkept
        have hnextLive : (consumer.acknowledgeGroupOffset offset).AllLive nowMs := by
          intro other delivery hdelivery
          rw [hsettled.inFlight] at hdelivery
          exact hlive other delivery hdelivery
        have hsame : ∀ other, Deliverable streamState.messages (request.terms nowMs)
            (isDeadLetterStream next request.stream) (consumer.acknowledgeGroupOffset offset)
            ((consumer.acknowledgeGroupOffset offset).Blocked nowMs) other ↔
            Deliverable streamState.messages (request.terms nowMs)
              (isDeadLetterStream state request.stream) consumer (consumer.Blocked nowMs)
              other := by
          intro other
          rw [show isDeadLetterStream next request.stream =
            isDeadLetterStream state request.stream from hdead.trans hkept.symm]
          exact deliverable_acknowledge_iff hleaves hsettled.blocked_iff
        have hfewer := card_pendingOffsets_acknowledge (List.getElem?_eq_some_iff.1 hget).1
          hleast.1.pending Std.ExtTreeSet.not_mem_empty
        have hrest := ih hnext hconsumer' hnextLive (hstream'.trans hstream)
          (hfewer.trans_le (Nat.lt_succ_iff.1 hfuel))
        rw [if_pos hleaves, hmove, Option.bind_some]
        simp only [hsame] at hrest
        rcases hrest with hnone | ⟨after, found, record, delivery, hloop, htoken, hattempt,
          hrecord, hfound⟩
        · exact Or.inl hnone
        · have hne : found ≠ offset := by
            rintro rfl
            exact hfound.1.2 hleaves
          rw [attempts_acknowledge consumer hne] at hattempt
          exact Or.inr ⟨after, found, record, delivery, hloop, htoken, hattempt, hrecord, hfound⟩
      · rw [if_neg hleaves]
        refine Or.inr ⟨_, offset, stored, _, rfl, rfl, ?_, hget,
          isLeast_deliverable hleast hleaves⟩
        simp only [GroupPollRequest.delivery, nextAttempt, attempts]
        cases consumer.deliveryAttempts[offset]? <;> rfl

end Poll

namespace GroupPollRequest

/-- The bound of a returned message under the poll's response settings. -/
def messageUpperBound (request : GroupPollRequest) (message : Message) : ℕ :=
  pollMessageResponseUpperBound message request.consumer request.responseMember
    request.responseMember.isSome

/-- The same poll without a limit: a bound is never more than a machine word. -/
def unlimited (request : GroupPollRequest) : GroupPollRequest :=
  { request with maxResponseBytes := u64Max }

theorem responseUpperBound_le (request : GroupPollRequest) (offset : ℕ) (stored : StoredMessage)
    (token : String) (attempt : ℕ) :
    request.responseUpperBound offset stored token attempt ≤ u64Max :=
  satAdd64_le _ _

end GroupPollRequest

/-- The limit is honoured exactly: no returned message is above it, the poll is refused
exactly when the message it would return without a limit is above it, and a refused poll
leaves the state alone. -/
structure HonoursLimit [ToString LogId] (kind : GroupKind) (state : SnapshotState)
    (request : GroupPollRequest) (logId : LogId) : Prop where
  within : ∀ after message,
    applyCommand state (.pollGroup request) kind logId =
      some (after, .groupPoll (.message message)) →
    request.messageUpperBound message ≤ request.maxResponseBytes
  refused_iff :
    (∃ after, applyCommand state (.pollGroup request) kind logId =
      some (after, .groupPollResponseTooLarge request.maxResponseBytes)) ↔
    ∃ after message, applyCommand state (.pollGroup request.unlimited) kind logId =
        some (after, .groupPoll (.message message)) ∧
      request.maxResponseBytes < request.messageUpperBound message
  unchanged : ∀ after maxBytes,
    applyCommand state (.pollGroup request) kind logId =
      some (after, .groupPollResponseTooLarge maxBytes) → after = state

/-- The retry schedule an offset has once the expired leases are observed. -/
def GroupConsumerState.retryAfterRelease (consumer : GroupConsumerState) (nowMs offset : ℕ) :
    Option GroupRetrySchedule :=
  consumer.retryNotBefore[offset]? <|>
    ((consumer.inFlight[offset]?).filter (fun delivery =>
      leaseExpired delivery.deadlineMs nowMs)).bind (consumer.scheduleOf nowMs offset)

def GroupConsumerState.Waiting (consumer : GroupConsumerState) (nowMs offset : ℕ) : Prop :=
  ∃ schedule, consumer.retryAfterRelease nowMs offset = some schedule ∧
    nowMs < schedule.retryNotBeforeMs

section Limit

variable (state : SnapshotState) (request : GroupPollRequest)

/-- The record could go to the member if retry delays are left out of account: it is pending,
neither it nor its key is under a live lease, and it has attempts left. -/
def Offered (offset : ℕ) : Prop :=
  Deliverable (state.messages request.stream)
    (request.terms (max state.leaseClockMs request.nowMs))
    (isDeadLetterStream state request.stream) (state.consumerOf request.consumerKey)
    ((state.consumerOf request.consumerKey).Live (max state.leaseClockMs request.nowMs)) offset

/-- A retry delay holds the record back, by its offset or by its key. -/
def Delayed (offset : ℕ) : Prop :=
  ∃ other, (state.consumerOf request.consumerKey).Waiting
      (max state.leaseClockMs request.nowMs) other ∧
    (other = offset ∨ ∃ key, keyAt (state.messages request.stream) other = some key ∧
      keyAt (state.messages request.stream) offset = some key)

/-- The response with this record would be above the limit of the request. -/
def OverLimit [ToString LogId] (logId : LogId) (offset : ℕ) : Prop :=
  ∃ stored, (state.messages request.stream)[offset]? = some stored ∧
    request.maxResponseBytes < request.responseUpperBound offset stored
      ("raft-" ++ toString logId)
      (satAdd32 ((state.consumerOf request.consumerKey).attempts offset) 1)

/-- The first record with the delays left out of account and the first record that is not
delayed are both above the limit, or neither is. -/
def DelaysKeepSize [ToString LogId] (logId : LogId) : Prop :=
  (∃ offset, IsLeast {offset | Offered state request offset} offset ∧
      OverLimit state request logId offset) ↔
    ∃ offset, IsLeast {offset | Offered state request offset ∧ ¬ Delayed state request offset}
        offset ∧ OverLimit state request logId offset

variable {state request}

/-- On the size check's copy of the consumer the leases in flight are the live ones. -/
theorem deliverable_copy_iff {streamState : StreamState}
    (hstream : state.streams[request.stream]? = some streamState) (offset : ℕ) :
    Deliverable streamState.messages (request.terms (max state.leaseClockMs request.nowMs))
        (isDeadLetterStream state request.stream)
        { state.consumerOf request.consumerKey with
          inFlight := (state.consumerOf request.consumerKey).inFlight.filter (fun _ delivery =>
            !leaseExpired delivery.deadlineMs (max state.leaseClockMs request.nowMs)) }
        (· ∈ (state.consumerOf request.consumerKey).inFlight.filter (fun _ delivery =>
            !leaseExpired delivery.deadlineMs (max state.leaseClockMs request.nowMs))) offset ↔
      Offered state request offset := by
  have hlive : ∀ other : ℕ,
      other ∈ (state.consumerOf request.consumerKey).inFlight.filter (fun _ delivery =>
        !leaseExpired delivery.deadlineMs (max state.leaseClockMs request.nowMs)) ↔
      (state.consumerOf request.consumerKey).Live (max state.leaseClockMs request.nowMs)
        other := by
    intro other
    simp only [mem_iff_exists_getElem?, Std.ExtTreeMap.getElem?_filter', Option.filter_eq_some_iff,
      Bool.not_eq_true', Live]
  unfold Offered Deliverable
  rw [SnapshotState.messages_of_getElem? hstream]
  exact and_congr (Free.congr hlive Iff.rfl) Iff.rfl

/-- After the release the poll looks for an offered record that is not delayed. -/
theorem deliverable_released_iff {streamState : StreamState}
    (hstream : state.streams[request.stream]? = some streamState) {released : GroupConsumerState}
    (hreleased : Released (max state.leaseClockMs request.nowMs)
      (state.consumerOf request.consumerKey) released) (offset : ℕ) :
    Deliverable streamState.messages (request.terms (max state.leaseClockMs request.nowMs))
        (isDeadLetterStream state request.stream) released
        (released.Blocked (max state.leaseClockMs request.nowMs)) offset ↔
      Offered state request offset ∧ ¬ Delayed state request offset := by
  have hblocked : ∀ other : ℕ, released.Blocked (max state.leaseClockMs request.nowMs) other ↔
      (state.consumerOf request.consumerKey).Waiting (max state.leaseClockMs request.nowMs) other ∨
      (state.consumerOf request.consumerKey).Live (max state.leaseClockMs request.nowMs)
        other := by
    intro other
    rw [Blocked, hreleased.live_iff, mem_retryFilter_offsets, Waiting, retryAfterRelease]
    simp only [hreleased.retry]
  unfold Offered Delayed Deliverable
  rw [SnapshotState.messages_of_getElem? hstream, Free.congr hblocked
    (hreleased.same.acknowledged_iff offset), hreleased.same.exhaustedAt_eq]
  constructor
  · rintro ⟨⟨hstored, hpending, hnot, hkeys⟩, hstays⟩
    refine ⟨⟨⟨hstored, hpending, fun hlive => hnot (Or.inr hlive), fun key hkey other hlive =>
      hkeys key hkey other (Or.inr hlive)⟩, hstays⟩, ?_⟩
    rintro ⟨other, hwaiting, rfl | ⟨key, hother, hkey⟩⟩
    · exact hnot (Or.inl hwaiting)
    · exact hkeys key hkey other (Or.inl hwaiting) hother
  · rintro ⟨⟨⟨hstored, hpending, hnot, hkeys⟩, hstays⟩, hdelayed⟩
    refine ⟨⟨hstored, hpending, ?_, ?_⟩, hstays⟩
    · rintro (hwaiting | hlive)
      · exact hdelayed ⟨offset, hwaiting, Or.inl rfl⟩
      · exact hnot hlive
    · rintro key hkey other (hwaiting | hlive) hother
      · exact hdelayed ⟨other, hwaiting, Or.inr ⟨key, hother, hkey⟩⟩
      · exact hkeys key hkey other hlive hother

end Limit

section Exact

variable {state : SnapshotState} {request : GroupPollRequest} {streamState : StreamState}

theorem upperBoundLoop_limit (token : String) (messages : List StoredMessage) (fuel limit : ℕ)
    (consumer : GroupConsumerState) :
    upperBoundLoop state { request with maxResponseBytes := limit } token messages fuel consumer =
      upperBoundLoop state request token messages fuel consumer := by
  induction fuel generalizing consumer with
  | zero => rfl
  | succ fuel ih =>
    simp only [upperBoundLoop, ih]
    rfl

theorem groupPollLoop_limit (token : String) (nowMs fuel limit : ℕ) (state : SnapshotState) :
    groupPollLoop { request with maxResponseBytes := limit } token nowMs fuel state =
      groupPollLoop request token nowMs fuel state := by
  induction fuel generalizing state with
  | zero => rfl
  | succ fuel ih =>
    simp only [groupPollLoop, ih]
    rfl

def ReturnsOver (request : GroupPollRequest) (response : CommandResponse) : Prop :=
  ∃ message, response = .groupPoll (.message message) ∧
    request.maxResponseBytes < request.messageUpperBound message

theorem returnsOver_groupPollMessage {messages : List StoredMessage} {offset : ℕ}
    {stored : StoredMessage} (hget : messages[offset]? = some stored) (delivery : GroupDelivery) :
    ReturnsOver request (groupPollMessage request.stream offset messages delivery) ↔
      request.maxResponseBytes < request.responseUpperBound offset stored delivery.deliveryToken
        delivery.deliveryAttempt := by
  simp only [ReturnsOver, groupPollMessage, hget, CommandResponse.groupPoll.injEq,
    PollResult.message.injEq, exists_eq_left']
  rfl

variable [ToString LogId] {logId : LogId}

theorem overLimit_least_iff {offsets : Set ℕ} {offset : ℕ} {stored : StoredMessage}
    (hleast : IsLeast offsets offset)
    (hget : (state.messages request.stream)[offset]? = some stored) :
    (∃ offset, IsLeast offsets offset ∧ OverLimit state request logId offset) ↔
      request.maxResponseBytes < request.responseUpperBound offset stored
        ("raft-" ++ toString logId)
        (satAdd32 ((state.consumerOf request.consumerKey).attempts offset) 1) := by
  constructor
  · rintro ⟨offset', hleast', stored', hget', hover⟩
    obtain rfl := hleast'.unique hleast
    obtain rfl := Option.some.inj (hget'.symm.trans hget)
    exact hover
  · exact fun hover => ⟨offset, hleast, stored, hget, hover⟩

def pollWithinLimit (state : SnapshotState) (request : GroupPollRequest) (logId : LogId) :
    Option (SnapshotState × CommandResponse) := do
  let nowMs := max state.leaseClockMs request.nowMs
  let state ← state.openConsumer request.consumerKey request.nowMs request.legacyPolicy
  let consumer ← state.groupConsumers[request.consumerKey]?
  let streamState ← state.streams[request.stream]?
  match consumer.inFlight.toList.find? (fun entry => entry.2.member = request.member) with
  | some (offset, delivery) =>
    return (state, groupPollMessage request.stream offset streamState.messages delivery)
  | none =>
    groupPollLoop request ("raft-" ++ toString logId) nowMs (streamState.messages.length + 1) state

theorem applyGroupPoll_eq_check {kind : GroupKind} (hkind : kind ≠ .metadata)
    (hactive : state.streamActive request.stream = true) (limit : ℕ) :
    applyGroupPoll state { request with maxResponseBytes := limit } logId kind =
      (groupPollResponseUpperBound state request logId).bind fun bound =>
        if bound.any (fun bytes => limit < bytes) then
          some (state, .groupPollResponseTooLarge limit)
        else pollWithinLimit state request logId := by
  have hcheck : groupPollResponseUpperBound state { request with maxResponseBytes := limit } logId =
      groupPollResponseUpperBound state request logId := by
    simp only [groupPollResponseUpperBound, upperBoundLoop_limit]
    rfl
  unfold applyGroupPoll pollWithinLimit
  simp only [if_neg hkind, hactive, hcheck, groupPollLoop_limit, Bool.not_true, Bool.false_eq_true,
    if_false]
  rfl

/-- What the size check finds: the member's own lease, or the first offered record. -/
theorem sizeCheck_spec (hwf : state.WellFormed)
    (hstream : state.streams[request.stream]? = some streamState) :
    ∃ bound, groupPollResponseUpperBound state request logId = some bound ∧
      (∀ bytes, bound = some bytes → bytes ≤ u64Max) ∧
      (∀ offset delivery rest, (state.consumerOf request.consumerKey).liveOf
          (max state.leaseClockMs request.nowMs) request.member = (offset, delivery) :: rest →
        ∃ stored, streamState.messages[offset]? = some stored ∧
          bound = some (request.responseUpperBound offset stored delivery.deliveryToken
            delivery.deliveryAttempt)) ∧
      ((state.consumerOf request.consumerKey).liveOf (max state.leaseClockMs request.nowMs)
          request.member = [] →
        (bound.any (fun bytes => request.maxResponseBytes < bytes) = true ↔
          ∃ offset, IsLeast {offset | Offered state request offset} offset ∧
            OverLimit state request logId offset)) := by
  have hmessages := SnapshotState.messages_of_getElem? hstream
  have hwf' : WellFormed streamState.messages (state.consumerOf request.consumerKey) :=
    hmessages ▸ hwf.consumerOf request.consumerKey
  unfold groupPollResponseUpperBound
  rw [hstream]
  dsimp only
  rw [← SnapshotState.consumerOf, Std.ExtTreeMap.toList_filter, ← List.head?_filter, ← liveOf]
  cases hlive : (state.consumerOf request.consumerKey).liveOf (max state.leaseClockMs request.nowMs)
      request.member with
  | cons entry rest =>
    obtain ⟨offset, delivery⟩ := entry
    have hmem : (offset, delivery) ∈ (state.consumerOf request.consumerKey).liveOf
        (max state.leaseClockMs request.nowMs) request.member := by
      rw [hlive]
      exact List.mem_cons_self
    have hdelivery := Std.ExtTreeMap.mem_toList_iff_getElem?_eq_some.1
      (List.mem_filter.1 (List.mem_filter.1 hmem).1).1
    have hturn := hwf'.inTurn offset
      (hwf'.attempted_of_inFlight (mem_iff_exists_getElem?.2 ⟨_, hdelivery⟩))
    have hget := List.getElem?_eq_getElem hturn.stored
    dsimp only [List.head?_cons]
    rw [hget]
    refine ⟨_, rfl, ?_, ?_, fun hnil => absurd hnil (List.cons_ne_nil _ _)⟩
    · intro bytes hbytes
      rw [← Option.some.inj hbytes]
      exact request.responseUpperBound_le _ _ _ _
    · rintro offset' delivery' rest' ⟨⟩
      exact ⟨_, hget, rfl⟩
  | nil =>
    dsimp only [List.head?_nil]
    have hcheck := upperBoundLoop_spec state request ("raft-" ++ toString logId)
      (max state.leaseClockMs request.nowMs) (streamState.messages.length + 1)
      (hwf'.filter_inFlight (fun delivery =>
        !leaseExpired delivery.deadlineMs (max state.leaseClockMs request.nowMs)))
      (Nat.lt_succ_of_le (card_pendingOffsets_le _ _ _))
    simp only [deliverable_copy_iff hstream] at hcheck
    rcases hcheck with ⟨hloop, hnone⟩ | ⟨offset, stored, hloop, hget, hleast⟩
    · refine ⟨none, hloop, by simp, by simp, fun _ => iff_of_false (by simp) ?_⟩
      rintro ⟨offset, hleast, -⟩
      exact hnone offset hleast.1
    · refine ⟨_, hloop, ?_, by simp, fun _ => ?_⟩
      · intro bytes hbytes
        rw [← Option.some.inj hbytes]
        exact request.responseUpperBound_le _ _ _ _
      · rw [Option.any_some, decide_eq_true_eq]
        exact (overLimit_least_iff hleast (hmessages ▸ hget)).symm

/-- What the poll returns: the member's own lease, or the first record offered and not
delayed. -/
theorem pollWithinLimit_spec (hwf : state.WellFormed)
    (hstream : state.streams[request.stream]? = some streamState) :
    ∃ after response, pollWithinLimit state request logId = some (after, response) ∧
      (∀ maxBytes, response ≠ .groupPollResponseTooLarge maxBytes) ∧
      (∀ offset delivery rest, (state.consumerOf request.consumerKey).liveOf
          (max state.leaseClockMs request.nowMs) request.member = (offset, delivery) :: rest →
        response = groupPollMessage request.stream offset streamState.messages delivery) ∧
      ((state.consumerOf request.consumerKey).liveOf (max state.leaseClockMs request.nowMs)
          request.member = [] →
        (ReturnsOver request response ↔
          ∃ offset, IsLeast {offset | Offered state request offset ∧
              ¬ Delayed state request offset} offset ∧
            OverLimit state request logId offset)) := by
  obtain ⟨released, hopen, hreleased⟩ := openConsumer_spec hwf request.consumerKey
    request.nowMs request.legacyPolicy
  have hmessages := SnapshotState.messages_of_getElem? hstream
  have hconsumer := state.opened_getElem? request.consumerKey request.nowMs released
  have hstream' : (state.opened request.consumerKey request.nowMs
      released).streams[request.stream]? = some streamState := hstream
  have hrefuses : ∀ offset delivery maxBytes,
      groupPollMessage request.stream offset streamState.messages delivery ≠
        .groupPollResponseTooLarge maxBytes := by
    intro offset delivery maxBytes
    unfold groupPollMessage
    split <;> simp
  unfold pollWithinLimit
  simp only [hopen, Option.bind_eq_bind, Option.bind_some, Option.pure_def]
  rw [← SnapshotState.opened, hconsumer, hstream', Option.bind_some, Option.bind_some,
    ← List.head?_filter, hreleased.filter_member]
  cases hlive : (state.consumerOf request.consumerKey).liveOf (max state.leaseClockMs request.nowMs)
      request.member with
  | cons entry rest =>
    obtain ⟨offset, delivery⟩ := entry
    refine ⟨_, _, rfl, hrefuses offset delivery, ?_, fun hnil => absurd hnil (List.cons_ne_nil _ _)⟩
    rintro offset' delivery' rest' ⟨⟩
    rfl
  | nil =>
    dsimp only [List.head?_nil]
    have hpoll := groupPollLoop_answer request ("raft-" ++ toString logId)
      (max state.leaseClockMs request.nowMs) (streamState.messages.length + 1)
      (hwf.opened hreleased) hconsumer hreleased.allLive hstream'
      (Nat.lt_succ_of_le (card_pendingOffsets_le _ _ _))
    rw [show isDeadLetterStream (state.opened request.consumerKey request.nowMs released)
      request.stream = isDeadLetterStream state request.stream from rfl] at hpoll
    simp only [deliverable_released_iff hstream hreleased] at hpoll
    rcases hpoll with ⟨after, hloop, hnone⟩ | ⟨after, offset, stored, delivery, hloop, htoken,
      hattempt, hget, hleast⟩
    · refine ⟨after, _, hloop, by simp, by simp, fun _ => iff_of_false ?_ ?_⟩
      · rintro ⟨message, hmessage, -⟩
        cases hmessage
      · rintro ⟨offset, hleast, -⟩
        exact hnone offset hleast.1
    · refine ⟨after, _, hloop, hrefuses offset delivery, by simp, fun _ => ?_⟩
      have hattempts : released.attempts offset =
          (state.consumerOf request.consumerKey).attempts offset := by
        simp only [GroupConsumerState.attempts, hreleased.same.attempts]
      rw [returnsOver_groupPollMessage hget, htoken, hattempt, hattempts,
        overLimit_least_iff hleast (hmessages ▸ hget)]

theorem honoursLimit_iff_agree {kind : GroupKind} (hkind : kind ≠ .metadata)
    (hactive : state.streamActive request.stream = true) {bound : Option ℕ}
    (hbound : groupPollResponseUpperBound state request logId = some bound)
    (hword : ∀ bytes, bound = some bytes → bytes ≤ u64Max) {after : SnapshotState}
    {response : CommandResponse}
    (hpoll : pollWithinLimit state request logId = some (after, response))
    (hanswers : ∀ maxBytes, response ≠ .groupPollResponseTooLarge maxBytes) :
    HonoursLimit kind state request logId ↔
      (bound.any (fun bytes => request.maxResponseBytes < bytes) = true ↔
        ReturnsOver request response) := by
  have hcheck : ∀ limit, applyCommand state
      (.pollGroup { request with maxResponseBytes := limit }) kind logId =
        if bound.any (fun bytes => limit < bytes) then
          some (state, .groupPollResponseTooLarge limit)
        else some (after, response) := by
    intro limit
    refine (applyGroupPoll_eq_check hkind hactive limit).trans ?_
    rw [hbound, Option.bind_some, hpoll]
  have hlimited : applyCommand state (.pollGroup request) kind logId =
      if bound.any (fun bytes => request.maxResponseBytes < bytes) then
        some (state, .groupPollResponseTooLarge request.maxResponseBytes)
      else some (after, response) := hcheck request.maxResponseBytes
  have hunlimited : applyCommand state (.pollGroup request.unlimited) kind logId =
      some (after, response) := by
    refine (hcheck u64Max).trans (if_neg ?_)
    rw [Option.any_eq_true]
    rintro ⟨bytes, hbytes, hover⟩
    exact absurd (hword bytes hbytes) (by simpa using hover)
  have hover : (∃ last message, applyCommand state (.pollGroup request.unlimited) kind logId =
      some (last, .groupPoll (.message message)) ∧
      request.maxResponseBytes < request.messageUpperBound message) ↔
      ReturnsOver request response := by
    rw [hunlimited]
    constructor
    · rintro ⟨last, message, heq, hlarge⟩
      exact ⟨message, (Prod.mk.inj (Option.some.inj heq)).2, hlarge⟩
    · rintro ⟨message, rfl, hlarge⟩
      exact ⟨after, message, rfl, hlarge⟩
  cases hlarge : bound.any (fun bytes => request.maxResponseBytes < bytes) with
  | true =>
    rw [hlarge, if_pos rfl] at hlimited
    constructor
    · intro h
      exact ⟨fun _ => hover.1 (h.refused_iff.1 ⟨state, hlimited⟩), fun _ => rfl⟩
    · intro h
      refine ⟨?_, ⟨fun _ => hover.2 (h.1 rfl), fun _ => ⟨state, hlimited⟩⟩, ?_⟩
      · intro last message heq
        cases hlimited.symm.trans heq
      · intro last maxBytes heq
        exact (applied_inj hlimited heq).1.symm
  | false =>
    rw [hlarge, if_neg (by simp)] at hlimited
    have hpassed : ¬ ∃ last, applyCommand state (.pollGroup request) kind logId =
        some (last, .groupPollResponseTooLarge request.maxResponseBytes) := by
      rintro ⟨last, heq⟩
      exact hanswers _ (applied_inj hlimited heq).2
    constructor
    · intro h
      exact iff_of_false (by simp) fun hreturns => hpassed (h.refused_iff.2 (hover.2 hreturns))
    · intro h
      have hwithin : ¬ ReturnsOver request response := fun hreturns => by simpa using h.2 hreturns
      refine ⟨?_, iff_of_false hpassed (fun hreturns => hwithin (hover.1 hreturns)), ?_⟩
      · intro last message heq
        by_contra hlarge
        exact hwithin ⟨message, (applied_inj hlimited heq).2,
          Nat.lt_of_not_le hlarge⟩
      · intro last maxBytes heq
        exact absurd (applied_inj hlimited heq).2 (hanswers maxBytes)

theorem honoursLimit_of_inactive {kind : GroupKind}
    (hinactive : state.streamActive request.stream = false) :
    HonoursLimit kind state request logId := by
  have hanswer : ∀ limit, applyCommand state
      (.pollGroup { request with maxResponseBytes := limit }) kind logId =
        some (state, .streamNotFound) := by
    intro limit
    simp [applyCommand, applyGroupPoll, hinactive]
  have hlimited : applyCommand state (.pollGroup request) kind logId =
      some (state, .streamNotFound) := hanswer request.maxResponseBytes
  have hunlimited : applyCommand state (.pollGroup request.unlimited) kind logId =
      some (state, .streamNotFound) := hanswer u64Max
  refine ⟨?_, ?_, ?_⟩
  · intro after message heq
    cases hlimited.symm.trans heq
  · rw [hlimited, hunlimited]
    simp
  · intro after maxBytes heq
    cases hlimited.symm.trans heq

theorem honoursLimit_iff {kind : GroupKind} (hkind : kind ≠ .metadata) (hwf : state.WellFormed) :
    HonoursLimit kind state request logId ↔
      (state.streamActive request.stream = true →
        (state.consumerOf request.consumerKey).liveOf (max state.leaseClockMs request.nowMs)
          request.member = [] →
        DelaysKeepSize state request logId) := by
  cases hactive : state.streamActive request.stream with
  | false => exact iff_of_true (honoursLimit_of_inactive hactive) (by simp)
  | true =>
    obtain ⟨streamState, hstream, -⟩ := SnapshotState.streamActive_iff.1 hactive
    obtain ⟨bound, hbound, hword, hheld, hfirst⟩ := @sizeCheck_spec _ request _ _ logId hwf hstream
    obtain ⟨after, response, hpoll, hanswers, hheld', hfirst'⟩ :=
      @pollWithinLimit_spec _ request _ _ logId hwf hstream
    rw [honoursLimit_iff_agree hkind hactive hbound hword hpoll hanswers]
    cases hlive : (state.consumerOf request.consumerKey).liveOf
        (max state.leaseClockMs request.nowMs) request.member with
    | nil =>
      rw [hfirst hlive, hfirst' hlive]
      exact ⟨fun h _ _ => h, fun h => h rfl rfl⟩
    | cons entry rest =>
      -- The member holds a lease: both sides measure the record it was given for.
      obtain ⟨stored, hget, rfl⟩ := hheld entry.1 entry.2 rest hlive
      rw [hheld' entry.1 entry.2 rest hlive, returnsOver_groupPollMessage hget, Option.any_some,
        decide_eq_true_eq]
      exact iff_of_true Iff.rfl (by simp)

theorem delaysKeepSize_of_not_delayed (h : ∀ offset, ¬ Delayed state request offset) :
    DelaysKeepSize state request logId := by
  unfold DelaysKeepSize
  simp only [h, not_false_eq_true, and_true]

end Exact

/-- In every reachable state of a data group a scalar poll honours its response limit exactly
if and only if the retry delays do not matter for the size: the member holds a live lease, or
the first record with the delays left out of account is above the limit just when the first
record that is not delayed is. -/
theorem poll_limit_exact_iff [ToString LogId] {source streamId groupId : String}
    {state : SnapshotState} (hreachable : Reachable (.data source streamId groupId) state)
    (request : GroupPollRequest) (logId : LogId) :
    HonoursLimit (.data source streamId groupId) state request logId ↔
      (state.streamActive request.stream = true →
        (state.consumerOf request.consumerKey).liveOf (max state.leaseClockMs request.nowMs)
          request.member = [] →
        DelaysKeepSize state request logId) := by
  obtain ⟨past, hrun⟩ := hreachable
  exact honoursLimit_iff (by simp) (Run.wellFormed hrun)

section Examples

open scoped LogId.Display

/-- A short record in front of a long one, under a policy with a retry delay. -/
def photoHistory : List (Command × LogId) :=
  [(.initializeDataStream "photos" "stream/photos" "group/photos/data", ⟨1, 1, 1⟩),
   (.configureConsumer "photos" "viewers" 40 none 30, ⟨1, 1, 2⟩),
   (.publish "photos" none [7] 3 none, ⟨1, 1, 3⟩),
   (.publish "photos" none (List.replicate 100 8) 4 none, ⟨1, 1, 4⟩)]

def photoPoll (member : String) (nowMs : ℕ) : GroupPollRequest :=
  ⟨"photos", "viewers", member, some member, 80, nowMs, nowMs + 40, none, none, some 1⟩

def photoState : SnapshotState :=
  (applyAll (.data "photos" "stream/photos" "group/photos/data") photoHistory {}).getD {}

/-- The first poll finds no delay, so its limit is honoured. -/
theorem first_photo_within_limit :
    HonoursLimit (.data "photos" "stream/photos" "group/photos/data") photoState
      (photoPoll "a" 5) ⟨1, 1, 5⟩ := by
  have hreachable : Reachable (.data "photos" "stream/photos" "group/photos/data") photoState :=
    reachable_getD (by decide +kernel)
  have hretry : (photoState.consumerOf ("photos", "viewers")).retryNotBefore = ∅ :=
    Std.ExtTreeMap.isEmpty_iff.1 (by decide +kernel)
  have hflight : (photoState.consumerOf ("photos", "viewers")).inFlight = ∅ :=
    Std.ExtTreeMap.isEmpty_iff.1 (by decide +kernel)
  apply (poll_limit_exact_iff hreachable (photoPoll "a" 5) ⟨1, 1, 5⟩).2
  intro _ _
  apply delaysKeepSize_of_not_delayed
  rintro offset ⟨other, ⟨schedule, hschedule, -⟩, -⟩
  simp [retryAfterRelease, photoPoll, GroupPollRequest.consumerKey, hretry, hflight] at hschedule

/-- Once the lease on the short record has expired and its retry waits, the size check still
measures the short record, and the poll returns the long one above the limit. -/
theorem delayed_photo_above_limit :
    ∃ state after message,
      Reachable (.data "photos" "stream/photos" "group/photos/data") state ∧
      applyCommand state (.pollGroup (photoPoll "b" 60))
        (.data "photos" "stream/photos" "group/photos/data") ⟨1, 1, 6⟩ =
          some (after, .groupPoll (.message message)) ∧
      (photoPoll "b" 60).maxResponseBytes < (photoPoll "b" 60).messageUpperBound message := by
  have hsome : (applyAll (.data "photos" "stream/photos" "group/photos/data")
      (photoHistory ++ [(.pollGroup (photoPoll "a" 5), ⟨1, 1, 5⟩)]) {}).any fun state =>
        (applyCommand state (.pollGroup (photoPoll "b" 60))
          (.data "photos" "stream/photos" "group/photos/data") ⟨1, 1, 6⟩).any fun result =>
            match result.2 with
            | .groupPoll (.message message) =>
              (photoPoll "b" 60).maxResponseBytes < (photoPoll "b" 60).messageUpperBound message
            | _ => false := by
    decide +kernel
  obtain ⟨state, hstate, hrest⟩ := Option.any_eq_true _ _ |>.1 hsome
  obtain ⟨⟨after, response⟩, hafter, hlarge⟩ := Option.any_eq_true _ _ |>.1 hrest
  cases response with
  | groupPoll result =>
    cases result with
    | message message =>
      exact ⟨state, after, message, reachable_of_applyAll hstate, hafter, by simpa using hlarge⟩
    | _ => cases hlarge
  | _ => cases hlarge

end Examples

end Runnel.Cluster
