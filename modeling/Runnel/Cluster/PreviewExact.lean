import Runnel.Cluster.PreviewCompare

/-!
# The preview and the poll in step

The preview of a batch simulates what the poll does to the state: the expired
leases it releases, the retry schedules it writes, the records it moves away and
the committed offset that follows them.
-/

namespace Runnel.Cluster

open Runnel.Engine GroupConsumerState

section Clock

variable {messages : List StoredMessage} {before released : GroupConsumerState} {nowMs : ℕ}

/-- Every retry delay that a delivery of the consumer was given ends before the clock
saturates. -/
def GroupConsumerState.BelowSaturation (consumer : GroupConsumerState) (nowMs : ℕ) : Prop :=
  ∀ (offset : ℕ) policy, consumer.deliveryPolicies[offset]? = some policy →
    nowMs + policy.retryDelayMs < u64Max

theorem GroupConsumerState.BelowSaturation.lt_schedule {consumer : GroupConsumerState}
    (h : consumer.BelowSaturation nowMs) {offset : ℕ} {delivery : GroupDelivery}
    {schedule : GroupRetrySchedule}
    (hschedule : consumer.scheduleOf nowMs offset delivery = some schedule) :
    nowMs < schedule.retryNotBeforeMs := by
  obtain ⟨policy, hpolicy, hdelay⟩ := Option.bind_eq_some_iff.1 hschedule
  have hlt := h offset policy hpolicy
  split_ifs at hdelay with hnone
  rw [← Option.some.inj hdelay]
  simp only [Bool.or_eq_true, decide_eq_true_eq, not_or] at hnone
  change nowMs < satAdd64 nowMs policy.retryDelayMs
  rw [satAdd64_eq hlt.le]
  omega

theorem GroupConsumerState.Released.blocked_of_lacking (h : Released nowMs before released)
    (hclock : before.BelowSaturation nowMs) {offset : ℕ} {delivery : GroupDelivery}
    (hlacking : before.Lacking nowMs offset delivery) : released.Blocked nowMs offset := by
  obtain ⟨hget, hlacks⟩ := hlacking
  simp only [lacksSchedule, Bool.and_eq_true, Bool.not_eq_true'] at hlacks
  obtain ⟨⟨hexpired, hnone⟩, hsome⟩ := hlacks
  obtain ⟨schedule, hschedule⟩ := Option.isSome_iff_exists.1 hsome
  refine Or.inl (mem_retryFilter_offsets.2 ⟨schedule, ?_, hclock.lt_schedule hschedule⟩)
  have habsent : before.retryNotBefore[offset]? = none := by
    rwa [Std.ExtTreeMap.contains_eq_isSome_getElem?, Option.isSome_eq_false_iff,
      Option.isNone_iff_eq_none] at hnone
  rw [h.retry, habsent, hget]
  simp [Option.filter, hexpired, hschedule]

theorem GroupConsumerState.Released.blocked_iff_held (h : Released nowMs before released)
    (hclock : before.BelowSaturation nowMs) (offset : ℕ) :
    released.Blocked nowMs offset ↔ before.Held nowMs offset := by
  constructor
  · exact h.held_of_blocked
  · intro hheld
    rcases h.blocked_or_lacking hheld with hblocked | ⟨delivery, hlacking⟩
    · exact hblocked
    · exact h.blocked_of_lacking hclock hlacking

end Clock

theorem searched_iff {messages : List StoredMessage} {consumer : GroupConsumerState} {nowMs : ℕ}
    (hwf : WellFormed messages consumer) (hlive : consumer.AllLive nowMs)
    (selectedOffsets : BTreeSet ℕ) (selectedKeys : BTreeSet String) (entry : ℕ × StoredMessage) :
    (decide (consumer.committedOffset ≤ entry.1) &&
        eligible consumer nowMs selectedOffsets selectedKeys entry) = true ↔
      ¬ consumer.Acknowledged entry.1 ∧ ¬ consumer.Blocked nowMs entry.1 ∧
      entry.1 ∉ selectedOffsets ∧ ∀ key, entry.2.key = some key → key ∉ selectedKeys ∧
        ∀ other : ℕ, consumer.Blocked nowMs other → keyAt messages other ≠ some key := by
  have hkeyHeld : ∀ key : String, (key ∉ (consumer.retryFilter nowMs).2 ∧
      ¬ consumer.keyInFlight key = true) ↔
      ∀ other : ℕ, consumer.Blocked nowMs other → keyAt messages other ≠ some key := by
    intro key
    rw [mem_retryFilter_keys_iff hwf, ← hlive.liveKeyInFlight_iff, liveKeyInFlight_iff hwf]
    simp only [Blocked]
    grind
  rw [Bool.and_eq_true, decide_eq_true_eq, eligible_iff]
  simp only [hkeyHeld, Blocked, hlive.live_iff, Acknowledged]
  rw [not_or, Nat.not_lt, not_or]
  tauto

def BatchSelection.asPreview (selection : BatchSelection) (terminalOffsets : BTreeSet ℕ) :
    PreviewSelection where
  terminalOffsets := terminalOffsets
  selectedOffsets := selection.selectedOffsets
  selectedKeys := selection.selectedKeys
  messages := selection.pending.map PendingDelivery.message
  sizer := selection.sizer
  stoppedAtByteLimit := selection.stoppedAtByteLimit
  terminalTransitions := selection.terminalTransitions

/-- What the poll answers once its loop has ended. -/
def batchAnswer (request : GroupBatchPollRequest)
    (result : BatchSelection × Option CommandResponse) : CommandResponse :=
  previewAnswer request (result.1.asPreview ∅, result.2)

section Steps

variable {request : GroupBatchPollRequest} {context : PreviewContext} {streamState : StreamState}
  {before released current : GroupConsumerState} {offsets : List ℕ}

structure Describes (request : GroupBatchPollRequest) (streamState : StreamState)
    (before : GroupConsumerState) (context : PreviewContext) : Prop where
  consumer : context.consumer = some before
  committed : context.committedOffset = before.committedOffset
  messages : context.messages = streamState.messages
  filter : before.previewRetryFilter context.nowMs request.legacyPolicy request.policyVersion =
    some (context.retryOffsets, context.retryKeys)
  wellFormed : WellFormed streamState.messages before

/-- The two loops are at the same point: the poll has moved the records away that the preview
has counted. -/
structure InStep (request : GroupBatchPollRequest) (context : PreviewContext)
    (streamState : StreamState) (before released : GroupConsumerState)
    (selection : BatchSelection) (terminalOffsets : BTreeSet ℕ) (current : GroupConsumerState)
    (offsets : List ℕ) : Prop where
  selecting : Selecting request.consumerKey context.nowMs streamState selection current
  transitioned : Transitioned (request.terms context.nowMs) offsets before released current
  deadLetter : isDeadLetterStream selection.state request.stream = context.isDeadLetter
  terminal : ∀ offset : ℕ, offset ∈ terminalOffsets ↔ offset ∈ offsets

variable {selection : BatchSelection} {terminalOffsets : BTreeSet ℕ}

theorem InStep.candidate_eq (hdescribes : Describes request streamState before context)
    (hclock : before.BelowSaturation context.nowMs)
    (h : InStep request context streamState before released selection terminalOffsets current
      offsets) :
    candidate current streamState.messages context.nowMs selection.selectedOffsets
        selection.selectedKeys =
      previewCandidate context (selection.asPreview terminalOffsets) := by
  have hblocked : ∀ offset, current.Blocked context.nowMs offset ↔
      before.Held context.nowMs offset := fun offset =>
    (h.transitioned.settled.blocked_iff offset).trans
      (h.transitioned.release.blocked_iff_held hclock offset)
  have htest : ∀ entry, (decide (current.committedOffset ≤ entry.1) &&
      eligible current context.nowMs selection.selectedOffsets selection.selectedKeys entry) =
      searchTest context (selection.asPreview terminalOffsets) entry := by
    intro entry
    have hlive : current.AllLive context.nowMs := h.transitioned.allLive
    have hfree := @batchView_free_iff_held _ before (request.terms context.nowMs)
      hdescribes.wellFormed _ hdescribes.filter context.isDeadLetter entry
    rw [Bool.eq_iff_iff, searchTest_iff request hdescribes.consumer hdescribes.committed,
      PreviewContext.view, hfree, searched_iff h.selecting.wellFormed_consumer hlive]
    simp only [hblocked, h.transitioned.acknowledged_iff, BatchSelection.asPreview, h.terminal,
      GroupBatchPollRequest.terms_nowMs]
    grind
  rw [candidate, previewCandidate, List.find?_filter, List.find?_filter, hdescribes.messages]
  congr 1
  funext entry
  simpa [searchTest] using htest entry

theorem exhaustedAt_eq_of_policy {consumer : GroupConsumerState} (nowMs : ℕ) {offset : ℕ}
    {policy : ConsumerPolicy}
    (h : consumer.groupPolicyForOffset offset (consumer.attempts offset) request.legacyPolicy
      request.policyVersion = some policy) :
    consumer.exhaustedAt (request.terms nowMs) offset =
      policy.exhausted (consumer.attempts offset) := by
  simp [exhaustedAt, GroupBatchPollRequest.terms, h]

theorem InStep.move (h : InStep request context streamState before released selection
      terminalOffsets current offsets) {offset : ℕ} {stored : StoredMessage}
    (hcandidate : candidate current streamState.messages context.nowMs selection.selectedOffsets
      selection.selectedKeys = some (offset, stored))
    (hexhausted : current.exhaustedAt (request.terms context.nowMs) offset = true)
    (hlive : isDeadLetterStream selection.state request.stream = false) :
    ∃ next, selection.state.moveToDeadLetter request.consumerKey offset = some next ∧
      InStep request context streamState before released
        { selection with
          state := next, terminalTransitions := selection.terminalTransitions + 1 }
        (terminalOffsets.insert offset) (current.acknowledgeGroupOffset offset)
        (offsets ++ [offset]) := by
  have hmessages := h.selecting.messages_eq
  obtain ⟨-, -, heligible, -⟩ := candidate_eq_some hcandidate
  obtain ⟨-, hflight, hretry, hnot, -⟩ := eligible_iff.1 heligible
  have hturn := inTurn_of_candidate h.selecting.wellFormed_consumer h.selecting.keys hcandidate
  obtain ⟨next, hmove, -, hnext, hconsumer, hstream, hkept⟩ :=
    @moves_candidate _ h.selecting.wellFormed _ _ (request.terms context.nowMs)
      h.selecting.getConsumer _ _ (hmessages ▸ h.selecting.keys) _ _ (hmessages ▸ hcandidate)
      hexhausted hlive
  refine ⟨next, hmove, h.selecting.move hnot hnext hconsumer hstream _,
    ⟨h.transitioned.release, h.transitioned.settled.trans (.acknowledge
      h.selecting.wellFormed_consumer hturn.pending hflight hretry hexhausted)⟩, ?_, ?_⟩
  · rw [← h.deadLetter, hlive]
    exact hkept
  · intro other
    rw [Std.ExtTreeSet.mem_insert, Nat.compare_eq_eq, h.terminal, List.mem_append,
      List.mem_singleton]
    tauto

theorem InStep.answer_eq (hdescribes : Describes request streamState before context)
    (hclock : before.BelowSaturation context.nowMs) (fuel : ℕ)
    (h : InStep request context streamState before released selection terminalOffsets current
      offsets) :
    (groupBatchPollLoop request context.nowMs fuel selection).map (batchAnswer request) =
      (previewLoop request context fuel (selection.asPreview terminalOffsets)).map
        (previewAnswer request) := by
  induction fuel generalizing selection terminalOffsets current offsets with
  | zero => rfl
  | succ fuel ih =>
    have hstream : selection.state.streams[request.stream]? = some streamState :=
      h.selecting.getStream
    rw [groupBatchPollLoop, previewLoop, ← h.candidate_eq hdescribes hclock]
    have hlength : (selection.asPreview terminalOffsets).messages.length =
        selection.pending.length := List.length_map _
    have hempty : (selection.asPreview terminalOffsets).messages.isEmpty =
        selection.pending.isEmpty := List.isEmpty_map
    rw [hlength, show (selection.asPreview terminalOffsets).sizer = selection.sizer from rfl]
    by_cases hroom : selection.pending.length < request.maxRecords ∧
        selection.sizer.encodedLen < request.maxBytes
    case neg =>
      rw [if_neg hroom, if_neg hroom]
      rfl
    rw [if_pos hroom, if_pos hroom, h.selecting.getConsumer, hstream]
    simp only [Option.bind_eq_bind, Option.bind_some, Option.pure_def]
    cases hcandidate : candidate current streamState.messages context.nowMs
        selection.selectedOffsets selection.selectedKeys with
    | none => rfl
    | some found =>
      obtain ⟨offset, stored⟩ := found
      have hturn := inTurn_of_candidate h.selecting.wellFormed_consumer h.selecting.keys hcandidate
      obtain ⟨policy, hpolicy⟩ := h.selecting.wellFormed_consumer.exists_policy offset
        request.legacyPolicy request.policyVersion
      obtain ⟨policy', hpolicy'⟩ := hdescribes.wellFormed.exists_policy offset
        request.legacyPolicy request.policyVersion
      have hattempts := h.transitioned.attempts_eq hturn.pending
      have hexhausted : policy'.exhausted (before.attempts offset) =
          policy.exhausted (current.attempts offset) := by
        rw [← exhaustedAt_eq_of_policy context.nowMs hpolicy,
          ← exhaustedAt_eq_of_policy context.nowMs hpolicy',
          h.transitioned.exhaustedAt_eq hturn.pending]
      rw [← hattempts] at hpolicy' hexhausted
      simp only [hdescribes.consumer, Option.elim_some, ← hattempts, hpolicy, hpolicy',
        Option.bind_some, hexhausted, ← h.deadLetter, hempty]
      by_cases hterminal : (policy.exhausted (current.attempts offset) &&
          !isDeadLetterStream selection.state request.stream) = true
      · obtain ⟨hspent, hlive⟩ := Bool.and_eq_true_iff.1 hterminal
        obtain ⟨next, hmove, hnext⟩ := h.move hcandidate
          ((exhaustedAt_eq_of_policy context.nowMs hpolicy).trans hspent) (by simpa using hlive)
        rw [if_pos hterminal, if_pos hterminal, hmove, Option.bind_some]
        exact ih hnext
      · rw [if_neg hterminal, if_neg hterminal]
        split_ifs with htransition hlarge hnone
        · rfl
        · rfl
        · rfl
        · have hnext := h.selecting.select hcandidate
            ⟨request.message offset stored (request.token offset)
                (satAdd32 (current.attempts offset) 1),
              request.delivery offset stored.key (satAdd32 (current.attempts offset) 1)
                policy context.nowMs, policy⟩ rfl rfl rfl
            (selection.sizer.push (request.message offset stored (request.token offset)
              (satAdd32 (current.attempts offset) 1)))
          refine (ih ⟨hnext, h.transitioned, h.deadLetter, h.terminal⟩).trans ?_
          cases stored.key <;>
            simp only [BatchSelection.asPreview, List.map_append, List.map_cons, List.map_nil]

end Steps

section Responses

variable {state : SnapshotState} {request : GroupBatchPollRequest} {kind : GroupKind}
  {streamState : StreamState}

theorem applyGroupBatchPoll_eq_loop (hkind : kind ≠ .metadata)
    (hlimits : ¬ (request.maxRecords = 0 ∨ request.maxBytes = 0))
    (hactive : state.streamActive request.stream = true) (hwf : state.WellFormed)
    {released : GroupConsumerState}
    (hopen : state.openConsumer request.consumerKey request.nowMs request.legacyPolicy =
      some (state.opened request.consumerKey request.nowMs released))
    (hreleased : Released (max state.leaseClockMs request.nowMs)
      (state.consumerOf request.consumerKey) released)
    (hstream : state.streams[request.stream]? = some streamState) :
    (applyGroupBatchPoll state request kind).map Prod.snd =
      if ((state.consumerOf request.consumerKey).liveOf (max state.leaseClockMs request.nowMs)
          request.member).isEmpty then
        (groupBatchPollLoop request (max state.leaseClockMs request.nowMs)
          (streamState.messages.length + 1)
          { state := state.opened request.consumerKey request.nowMs released
            sizer := .new request.stream request.consumer request.responseMember }).map
            (batchAnswer request)
      else some (request.existingResponse streamState.messages
        ((state.consumerOf request.consumerKey).liveOf (max state.leaseClockMs request.nowMs)
          request.member)) := by
  have hconsumer := state.opened_getElem? request.consumerKey request.nowMs released
  have hstream' : (state.opened request.consumerKey request.nowMs
      released).streams[request.stream]? = some streamState := hstream
  unfold applyGroupBatchPoll
  rw [if_neg hkind, if_neg hlimits, hactive]
  simp only [hopen, Option.bind_eq_bind, Option.bind_some, Option.pure_def, Bool.not_true,
    Bool.false_eq_true, if_false, hconsumer, hstream', hreleased.filter_member]
  cases ((state.consumerOf request.consumerKey).liveOf (max state.leaseClockMs request.nowMs)
    request.member).isEmpty with
  | false => rfl
  | true =>
    simp only [Bool.not_true, Bool.false_eq_true, if_false, if_true]
    have hselecting := Selecting.opened hwf hreleased hstream
      (max state.leaseClockMs request.nowMs)
      (.new request.stream request.consumer request.responseMember)
    obtain ⟨selection, early, consumer, offsets, hloop, -, hselecting', -⟩ :=
      groupBatchPollLoop_spec request _ (streamState.messages.length + 1) hselecting (by simp)
        (Nat.lt_succ_of_le (card_pendingOffsets_le _ _ _))
    simp only [hloop, Option.bind_some, Option.map_some]
    cases early with
    | some response => rfl
    | none =>
      dsimp only
      split_ifs with hempty
      · simp [batchAnswer, previewAnswer, BatchSelection.asPreview, List.isEmpty_iff.1 hempty]
      · rw [hselecting'.getConsumer]
        simp [batchAnswer, previewAnswer, BatchSelection.asPreview, hempty]

theorem inStep_first (hwf : state.WellFormed) {released : GroupConsumerState}
    (hreleased : Released (max state.leaseClockMs request.nowMs)
      (state.consumerOf request.consumerKey) released)
    (hstream : state.streams[request.stream]? = some streamState)
    (filter : BTreeSet ℕ × BTreeSet String) :
    InStep request (previewContext state request streamState filter) streamState
      (state.consumerOf request.consumerKey) released
      { state := state.opened request.consumerKey request.nowMs released
        sizer := .new request.stream request.consumer request.responseMember } ∅ released [] where
  selecting := .opened hwf hreleased hstream _ _
  transitioned := ⟨hreleased, .refl _ _⟩
  deadLetter := rfl
  terminal := by simp

theorem applyGroupBatchPoll_response (hwf : state.WellFormed)
    (hclock : (state.consumerOf request.consumerKey).BelowSaturation
      (max state.leaseClockMs request.nowMs)) :
    (applyGroupBatchPoll state request kind).map Prod.snd =
      previewGroupBatch state request kind := by
  by_cases hkind : kind = .metadata
  · simp [applyGroupBatchPoll, previewGroupBatch, hkind]
  by_cases hlimits : request.maxRecords = 0 ∨ request.maxBytes = 0
  · simp [applyGroupBatchPoll, previewGroupBatch, hkind, hlimits]
  cases hactive : state.streamActive request.stream with
  | false =>
    have hnone : (state.streams[request.stream]?).filter StreamState.isActive = none := by
      cases hstream : state.streams[request.stream]? with
      | none => rfl
      | some streamState =>
        rw [SnapshotState.streamActive, hstream] at hactive
        simpa [Option.filter] using hactive
    simp [applyGroupBatchPoll, previewGroupBatch, hkind, hlimits, hactive, hnone]
  | true =>
    obtain ⟨released, hopen, hreleased⟩ := openConsumer_spec hwf request.consumerKey
      request.nowMs request.legacyPolicy
    obtain ⟨streamState, hstream, hstreamActive⟩ := SnapshotState.streamActive_iff.1 hactive
    have hconsumerWF : WellFormed streamState.messages (state.consumerOf request.consumerKey) := by
      have hold := hwf.consumerOf request.consumerKey
      rwa [show request.consumerKey.1 = request.stream from rfl,
        SnapshotState.messages_of_getElem? hstream] at hold
    obtain ⟨filter, hfilter, -, -⟩ := previewRetryFilter_spec hconsumerWF
      (request.terms (max state.leaseClockMs request.nowMs))
    have hdescribes : Describes request streamState (state.consumerOf request.consumerKey)
        (previewContext state request streamState filter) :=
      ⟨rfl, rfl, rfl, hfilter, hconsumerWF⟩
    rw [applyGroupBatchPoll_eq_loop hkind hlimits hactive hwf hopen hreleased hstream,
      previewGroupBatch_eq_loop hkind hlimits hstream hstreamActive hfilter]
    have hanswer := (inStep_first hwf hreleased hstream filter).answer_eq hdescribes hclock
      (streamState.messages.length + 1)
    rw [show (previewContext state request streamState filter).nowMs =
      max state.leaseClockMs request.nowMs from rfl] at hanswer
    rw [hanswer]
    rfl

end Responses

/-- In every reachable state of a data group, as long as no retry delay in force reaches the
end of the clock, the preview of a batch poll on the unchanged state is the answer that the
poll gives. -/
theorem preview_eq_execution [ToString LogId] {source streamId groupId : String}
    {state : SnapshotState} (hreachable : Reachable (.data source streamId groupId) state)
    (request : GroupBatchPollRequest)
    (hclock : ∀ (offset : ℕ) policy,
      (state.consumerOf request.consumerKey).deliveryPolicies[offset]? = some policy →
        max state.leaseClockMs request.nowMs < u64Max - policy.retryDelayMs) (logId : LogId) :
    ∃ after response,
      applyCommand state (.pollGroupBatch request) (.data source streamId groupId) logId =
        some (after, response) ∧
      previewGroupBatch state request (.data source streamId groupId) = some response := by
  obtain ⟨past, hrun⟩ := hreachable
  have hwf := Run.wellFormed hrun
  obtain ⟨after, response, happly, -⟩ := applyGroupBatchPoll_step hwf request
    (.data source streamId groupId)
  refine ⟨after, response, happly, ?_⟩
  rw [← applyGroupBatchPoll_response hwf, happly]
  · rfl
  · intro offset policy hpolicy
    have hlt := hclock offset policy hpolicy
    omega

section Examples

open scoped LogId.Display

/-- Two records, of which the first is delivered under a policy with a retry delay. -/
def delayedHistory : List (Command × LogId) :=
  [(.initializeDataStream "mail" "stream/mail" "group/mail/data", ⟨1, 1, 1⟩),
   (.configureConsumer "mail" "senders" 40 (some 3) 30, ⟨1, 1, 2⟩),
   (.publish "mail" (some "k") [7] 3 none, ⟨1, 1, 3⟩),
   (.publish "mail" none [8] 4 none, ⟨1, 1, 4⟩),
   (.pollGroupBatch ⟨"mail", "senders", "a", none, 1, 10000, "seed", 5, 45, none, none, some 1,
      false⟩, ⟨1, 1, 5⟩)]

/-- A poll of another member after the lease has expired. -/
def laterPoll : GroupBatchPollRequest :=
  ⟨"mail", "senders", "b", none, 4, 10000, "next", 60, 100, none, none, some 1, false⟩

def delayedState : SnapshotState :=
  (applyAll (.data "mail" "stream/mail" "group/mail/data") delayedHistory {}).getD {}

/-- The delayed record is left out and the next one delivered. -/
def laterAnswer : CommandResponse :=
  .groupBatchPoll [⟨"mail", 1, none, [8], 4, some "next-1", some 1⟩] false 0

/-- The preview leaves the delayed record out, as the poll does. -/
theorem delayed_preview_eq :
    ∃ after, applyCommand delayedState (.pollGroupBatch laterPoll)
        (.data "mail" "stream/mail" "group/mail/data") ⟨1, 1, 6⟩ = some (after, laterAnswer) ∧
      previewGroupBatch delayedState laterPoll (.data "mail" "stream/mail" "group/mail/data") =
        some laterAnswer := by
  have hclock : ∀ entry ∈ (delayedState.consumerOf laterPoll.consumerKey).deliveryPolicies.toList,
      max delayedState.leaseClockMs laterPoll.nowMs < u64Max - entry.2.retryDelayMs := by
    decide +kernel
  have hanswer : previewGroupBatch delayedState laterPoll
      (.data "mail" "stream/mail" "group/mail/data") = some laterAnswer := by
    decide +kernel
  obtain ⟨after, response, happly, hpreview⟩ := preview_eq_execution
    (reachable_getD (by decide +kernel)) laterPoll
    (fun offset policy hget => hclock (offset, policy)
      (Std.ExtTreeMap.mem_toList_iff_getElem?_eq_some.2 hget)) ⟨1, 1, 6⟩
  obtain rfl := Option.some.inj (hpreview.symm.trans hanswer)
  exact ⟨after, happly, hanswer⟩

end Examples

end Runnel.Cluster
