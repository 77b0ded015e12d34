import Runnel.Cluster.PollSpec

/-!
# What a command does

`Effect` lists everything a replicated command can do to a well-formed state.
Applying a command always succeeds there, with one of these effects, so the
invariants of whole histories follow from the list alone.
-/

namespace Runnel.Cluster

open Runnel.Engine GroupConsumerState

def Command.poll? : Command → Option (ConsumerKey × ℕ)
  | .pollGroup request => some (request.consumerKey, request.nowMs)
  | .pollGroupBatch request => some (request.consumerKey, request.nowMs)
  | _ => none

/-- The state a group command continues with once a consumer's expired leases are observed. -/
def SnapshotState.opened (state : SnapshotState) (key : ConsumerKey) (nowMs : ℕ)
    (consumer : GroupConsumerState) : SnapshotState :=
  (observeLeaseClock state nowMs).setConsumer key consumer

theorem SnapshotState.opened_getElem? (state : SnapshotState) (key : ConsumerKey) (nowMs : ℕ)
    (consumer : GroupConsumerState) :
    (state.opened key nowMs consumer).groupConsumers[key]? = some consumer :=
  SnapshotState.setConsumer_getElem?_self _ _ _

inductive Effect (state : SnapshotState) : Command → SnapshotState → Prop
  | unchanged (command : Command) : Effect state command state
  | streams {command : Command} {after : SnapshotState} :
      after.groupConsumers = state.groupConsumers →
      after.consumers = state.consumers →
      after.leaseClockMs = state.leaseClockMs →
      (∀ stream, state.messages stream <+: after.messages stream) →
      Effect state command after
  | ack {stream consumer : String} {offset : ℕ} :
      state.streamActive stream = true →
      offset = (state.consumers[(stream, consumer)]?).getD 0 →
      Effect state (.ack stream consumer offset)
        { state with consumers := state.consumers.insert (stream, consumer) (offset + 1) }
  | configure {command : Command} (key : ConsumerKey) (policy : Option ConsumerPolicy) :
      command.poll? = none →
      Effect state command (state.setConsumer key
        { (state.groupConsumers[key]?).getD {} with policy := policy })
  | poll {command : Command} {key : ConsumerKey} {nowMs : ℕ} {consumer : GroupConsumerState}
      {terms : PollTerms} {after : SnapshotState} :
      command.poll? = some (key, nowMs) →
      terms.nowMs = max state.leaseClockMs nowMs →
      Released (max state.leaseClockMs nowMs) (state.consumerOf key) consumer →
      PollOutcome key terms (state.opened key nowMs consumer) after →
      Effect state command after
  | acknowledge {command : Command} {key : ConsumerKey} {nowMs : ℕ}
      {consumer : GroupConsumerState} {offsets : List ℕ} :
      command.poll? = none →
      Released (max state.leaseClockMs nowMs) (state.consumerOf key) consumer →
      (∀ offset ∈ offsets, offset ∈ consumer.inFlight) →
      Effect state command
        (state.opened key nowMs (offsets.foldl acknowledgeGroupOffset consumer))
  | tokenless {request : GroupAckRequest} {consumer : GroupConsumerState} :
      state.streamActive request.stream = true →
      Released (max state.leaseClockMs request.nowMs) (state.consumerOf request.consumerKey)
        consumer →
      request.deliveryToken = "" →
      request.member = request.consumer →
      request.offset = consumer.committedOffset →
      request.offset ∉ consumer.acknowledgedOffsets →
      request.offset ∉ consumer.inFlight →
      Effect state (.ackGroup request)
        (state.opened request.consumerKey request.nowMs
          (consumer.acknowledgeGroupOffset request.offset))

section Polls

variable {state : SnapshotState}

variable {consumer : GroupConsumerState}

theorem WellFormed.filter_inFlight {messages : List StoredMessage}
    (h : WellFormed messages consumer) (p : GroupDelivery → Bool) :
    WellFormed messages
      { consumer with inFlight := consumer.inFlight.filter (fun _ delivery => p delivery) } where
  pinned := h.pinned
  attempts := h.attempts
  inFlight offset delivery hget := by
    rw [Std.ExtTreeMap.getElem?_filter'] at hget
    exact h.inFlight offset delivery (Option.filter_eq_some_iff.1 hget).1
  retry offset schedule hget := by
    obtain ⟨hmem, hnot, hkey⟩ := h.retry offset schedule hget
    refine ⟨hmem, fun hin => hnot ?_, hkey⟩
    obtain ⟨delivery, hdelivery⟩ := mem_iff_exists_getElem?.1 hin
    rw [Std.ExtTreeMap.getElem?_filter'] at hdelivery
    exact mem_iff_exists_getElem?.2 ⟨delivery, (Option.filter_eq_some_iff.1 hdelivery).1⟩
  inTurn offset hmem := (h.inTurn offset hmem).of_acknowledged (fun _ h => h)
    (h.inTurn offset hmem).pending

theorem upperBoundLoop_total (request : GroupPollRequest) (token : String)
    (messages : List StoredMessage) (fuel : ℕ)
    (hwf : WellFormed messages consumer)
    (hfuel : (pendingOffsets messages consumer ∅).card < fuel) :
    ∃ bound, upperBoundLoop state request token messages fuel consumer = some bound := by
  induction fuel generalizing consumer with
  | zero => omega
  | succ fuel ih =>
    rw [upperBoundLoop]
    cases hcandidate : upperBoundCandidate consumer messages with
    | none => exact ⟨none, rfl⟩
    | some found =>
      obtain ⟨offset, stored⟩ := found
      obtain ⟨policy, hpolicy⟩ := hwf.exists_policy offset request.legacyPolicy
        request.policyVersion
      simp only [hpolicy, Option.bind_eq_bind, Option.bind_some, Option.pure_def]
      split_ifs with hterminal
      · obtain ⟨hget, hcommitted, htest, -⟩ := find?_enumerate_eq_some hcandidate
        have hpending : ¬ consumer.Acknowledged offset := by
          rintro (hlt | hmem)
          · omega
          · simp [hmem] at htest
        have hfewer := card_pendingOffsets_acknowledge (List.getElem?_eq_some_iff.1 hget).1 hpending
          Std.ExtTreeSet.not_mem_empty
        exact ih (hwf.acknowledge offset) (hfewer.trans_le (Nat.lt_succ_iff.1 hfuel))
      · exact ⟨_, rfl⟩

theorem groupPollResponseUpperBound_total [ToString LogId] (hwf : state.WellFormed)
    (request : GroupPollRequest) (logId : LogId) :
    ∃ bound, groupPollResponseUpperBound state request logId = some bound := by
  unfold groupPollResponseUpperBound
  cases hstream : state.streams[request.stream]? with
  | none => exact ⟨none, rfl⟩
  | some streamState =>
    dsimp only
    have hmessages : state.messages request.consumerKey.1 = streamState.messages :=
      SnapshotState.messages_of_getElem? hstream
    split
    · split <;> exact ⟨_, rfl⟩
    · exact upperBoundLoop_total request _ _ _
        ((hmessages ▸ hwf.consumerOf request.consumerKey).filter_inFlight _)
        (Nat.lt_succ_of_le (card_pendingOffsets_le _ _ _))

variable {key : ConsumerKey} {nowMs : ℕ}

theorem SnapshotState.WellFormed.opened (hwf : state.WellFormed)
    (hreleased : Released (max state.leaseClockMs nowMs) (state.consumerOf key) consumer) :
    (state.opened key nowMs consumer).WellFormed :=
  SnapshotState.WellFormed.setConsumer (hwf.observeLeaseClock nowMs)
    ((hwf.consumerOf key).released hreleased)

theorem Selecting.opened (hwf : state.WellFormed)
    (hreleased : Released (max state.leaseClockMs nowMs) (state.consumerOf key) consumer)
    {streamState : StreamState} (hstream : state.streams[key.1]? = some streamState) (pollMs : ℕ)
    (sizer : PollBatchResponseSizer) :
    Selecting key pollMs streamState
      { state := state.opened key nowMs consumer, sizer := sizer } consumer :=
  ⟨hwf.opened hreleased, state.opened_getElem? key nowMs consumer, hstream, by simp, by simp,
    by simp, by simp, .nil⟩

/-- A poll on an active stream: the clock and the expired leases are observed, then records
move away and are assigned. -/
def PollStep (state : SnapshotState) (key : ConsumerKey) (nowMs : ℕ) (offsets : List ℕ)
    (assignments : List Assignment) (after : SnapshotState) : Prop :=
  ∃ (consumer : GroupConsumerState) (terms : PollTerms),
    terms.nowMs = max state.leaseClockMs nowMs ∧
    Released (max state.leaseClockMs nowMs) (state.consumerOf key) consumer ∧
    PollTrace key terms (state.opened key nowMs consumer) offsets assignments after

theorem PollStep.effect {offsets : List ℕ}
    {assignments : List Assignment} {after : SnapshotState} {command : Command}
    (h : PollStep state key nowMs offsets assignments after)
    (hpoll : command.poll? = some (key, nowMs)) : Effect state command after := by
  obtain ⟨consumer, terms, hterms, hreleased, htrace⟩ := h
  exact .poll hpoll hterms hreleased htrace.outcome

/-- A scalar poll assigns at most one record, to its member and under the token of its log
position. -/
theorem applyGroupPoll_step [ToString LogId] (hwf : state.WellFormed)
    (request : GroupPollRequest) (logId : LogId) (kind : GroupKind) :
    ∃ after response, applyGroupPoll state request logId kind = some (after, response) ∧
      (after = state ∨ ∃ offsets assignments,
        PollStep state request.consumerKey request.nowMs offsets assignments after ∧
        assignments.length ≤ 1 ∧ ∀ a ∈ assignments, a.delivery.member = request.member ∧
          a.delivery.deliveryToken = "raft-" ++ toString logId) := by
  unfold applyGroupPoll
  split_ifs with hkind hactive
  · exact ⟨state, _, rfl, Or.inl rfl⟩
  · exact ⟨state, _, rfl, Or.inl rfl⟩
  · obtain ⟨bound, hbound⟩ := groupPollResponseUpperBound_total hwf request logId
    simp only [hbound, Option.bind_eq_bind, Option.bind_some, Option.pure_def]
    split_ifs with hlarge
    · exact ⟨state, _, rfl, Or.inl rfl⟩
    · obtain ⟨consumer, hopen, hreleased⟩ := openConsumer_spec hwf request.consumerKey
        request.nowMs request.legacyPolicy
      obtain ⟨streamState, hstream, -⟩ := SnapshotState.streamActive_iff.1
        (Bool.not_eq_false _ ▸ Bool.not_eq_true' _ ▸ hactive)
      have hconsumer := state.opened_getElem? request.consumerKey request.nowMs consumer
      have hstream' : (state.opened request.consumerKey request.nowMs
          consumer).streams[request.stream]? = some streamState := hstream
      simp only [hopen, Option.bind_some]
      rw [← SnapshotState.opened, hconsumer, hstream', Option.bind_some, Option.bind_some]
      split
      · exact ⟨_, _, rfl, Or.inr ⟨[], [], ⟨consumer, _, request.terms_nowMs _, hreleased,
          .of_moves (.done _) hconsumer⟩, by simp, by simp⟩⟩
      · obtain ⟨after, response, offsets, assignments, hloop, htrace, hissued⟩ :=
          groupPollLoop_spec request ("raft-" ++ toString logId)
            (max state.leaseClockMs request.nowMs) (streamState.messages.length + 1)
            (hwf.opened hreleased) hconsumer hstream'
            (Nat.lt_succ_of_le (card_pendingOffsets_le _ _ _))
        exact ⟨after, response, hloop, Or.inr ⟨offsets, assignments,
          ⟨consumer, _, request.terms_nowMs _, hreleased, htrace⟩, hissued⟩⟩

theorem applyGroupPoll_effect [ToString LogId] (hwf : state.WellFormed)
    (request : GroupPollRequest) (logId : LogId) (kind : GroupKind) :
    ∃ after response, applyGroupPoll state request logId kind = some (after, response) ∧
      Effect state (.pollGroup request) after := by
  obtain ⟨after, response, happly, hstep⟩ := applyGroupPoll_step hwf request logId kind
  refine ⟨after, response, happly, ?_⟩
  obtain rfl | ⟨offsets, assignments, hpoll, -⟩ := hstep
  · exact .unchanged _
  · exact hpoll.effect rfl

/-- Recording the selected deliveries of a batch is assigning them one after the other. -/
theorem foldl_commitPending {messages : List StoredMessage}
    (hwf : WellFormed messages consumer) (pending : List PendingDelivery)
    (hdistinct : pending.Pairwise (·.message.offset ≠ ·.message.offset))
    (current : GroupConsumerState)
    (hcurrent : ∀ p ∈ pending, current.deliveryAttempts[p.message.offset]? =
      consumer.deliveryAttempts[p.message.offset]?)
    (hattempt : ∀ p ∈ pending,
      p.delivery.deliveryAttempt = satAdd32 (consumer.attempts p.message.offset) 1)
    (redeliveries : ℕ) :
    (pending.foldl commitPending (current, redeliveries)).1 =
      assignAll current (pending.map PendingDelivery.assignment) := by
  induction pending generalizing current redeliveries with
  | nil => rfl
  | cons head rest ih =>
    obtain ⟨hhead, hrest⟩ := List.pairwise_cons.1 hdistinct
    obtain ⟨hcurrentHead, hcurrentRest⟩ := List.forall_mem_cons.1 hcurrent
    obtain ⟨hattemptHead, hattemptRest⟩ := List.forall_mem_cons.1 hattempt
    have hcommit : (commitPending (current, redeliveries) head).1 =
        current.assign head.message.offset head.delivery.deliveryAttempt head.policy
          head.delivery := by
      unfold commitPending
      dsimp only
      rw [hcurrentHead]
      cases hget : consumer.deliveryAttempts[head.message.offset]? with
      | none => rfl
      | some attempt =>
        have hle := (hwf.attempts _ attempt hget).2
        have hmax : max attempt head.delivery.deliveryAttempt = head.delivery.deliveryAttempt := by
          rw [hattemptHead, GroupConsumerState.attempts, hget, Option.getD_some, satAdd32]
          omega
        simp only [hmax]
    have hpair : commitPending (current, redeliveries) head =
        (current.assign head.message.offset head.delivery.deliveryAttempt head.policy
          head.delivery, (commitPending (current, redeliveries) head).2) :=
      Prod.ext hcommit rfl
    rw [List.foldl_cons, List.map_cons, hpair]
    refine ih hrest _ (fun p hp => ?_) hattemptRest _
    rw [← hcurrentRest p hp]
    simp [GroupConsumerState.assign, Std.ExtTreeMap.getElem?_insert, hhead p hp]

/-- A batch poll assigns to its member, each record under its own token of the batch. -/
theorem applyGroupBatchPoll_step (hwf : state.WellFormed) (request : GroupBatchPollRequest)
    (kind : GroupKind) :
    ∃ after response, applyGroupBatchPoll state request kind = some (after, response) ∧
      (after = state ∨ ∃ offsets assignments,
        PollStep state request.consumerKey request.nowMs offsets assignments after ∧
        ∀ a ∈ assignments, a.delivery.member = request.member ∧
          a.delivery.deliveryToken = request.token a.offset) := by
  unfold applyGroupBatchPoll
  split_ifs with hkind hlimits hactive
  · exact ⟨state, _, rfl, Or.inl rfl⟩
  · exact ⟨state, _, rfl, Or.inl rfl⟩
  · exact ⟨state, _, rfl, Or.inl rfl⟩
  · obtain ⟨consumer, hopen, hreleased⟩ := openConsumer_spec hwf request.consumerKey
      request.nowMs request.legacyPolicy
    obtain ⟨streamState, hstream, -⟩ := SnapshotState.streamActive_iff.1
      (Bool.not_eq_false _ ▸ Bool.not_eq_true' _ ▸ hactive)
    have hconsumer := state.opened_getElem? request.consumerKey request.nowMs consumer
    have hstream' : (state.opened request.consumerKey request.nowMs
        consumer).streams[request.stream]? = some streamState := hstream
    simp only [hopen, Option.bind_eq_bind, Option.bind_some, Option.pure_def]
    rw [← SnapshotState.opened, hconsumer, hstream', Option.bind_some, Option.bind_some]
    split_ifs with hexisting
    · exact ⟨_, _, rfl, Or.inr ⟨[], [], ⟨consumer, _, request.terms_nowMs _, hreleased,
        .of_moves (.done _) hconsumer⟩, by simp⟩⟩
    · have hselecting := Selecting.opened hwf hreleased hstream
        (max state.leaseClockMs request.nowMs)
        (.new request.stream request.consumer request.responseMember)
      obtain ⟨selection, early, consumer', offsets, hloop, hmoves, hselecting', hissues⟩ :=
        groupBatchPollLoop_spec request _ (streamState.messages.length + 1) hselecting (by simp)
          (Nat.lt_succ_of_le (card_pendingOffsets_le _ _ _))
      have hnothing : PollStep state request.consumerKey request.nowMs offsets []
          selection.state :=
        ⟨consumer, _, request.terms_nowMs _, hreleased,
          .of_moves hmoves hselecting'.getConsumer⟩
      simp only [hloop, Option.bind_some]
      cases early with
      | some response => exact ⟨_, _, rfl, Or.inr ⟨offsets, [], hnothing, by simp⟩⟩
      | none =>
        dsimp only
        split_ifs with hempty
        · exact ⟨_, _, rfl, Or.inr ⟨offsets, [], hnothing, by simp⟩⟩
        · rw [hselecting'.getConsumer, Option.bind_some]
          refine ⟨_, _, rfl, Or.inr ⟨offsets, selection.pending.map PendingDelivery.assignment,
            ⟨consumer, _, request.terms_nowMs _, hreleased, selection.state, consumer', _, hmoves,
              hselecting'.getConsumer, ?_, List.pairwise_map.2 hselecting'.distinct, by
                rw [foldl_commitPending hselecting'.wellFormed_consumer _ hselecting'.distinct
                  consumer' (fun _ _ => rfl) hselecting'.attempt]⟩, ?_⟩⟩
          · intro a ha
            obtain ⟨p, hp, rfl⟩ := List.mem_map.1 ha
            rw [hselecting'.messages_eq]
            exact hselecting'.assignable p hp
          · intro a ha
            obtain ⟨p, hp, rfl⟩ := List.mem_map.1 ha
            exact hissues p hp

theorem applyGroupBatchPoll_effect (hwf : state.WellFormed) (request : GroupBatchPollRequest)
    (kind : GroupKind) :
    ∃ after response, applyGroupBatchPoll state request kind = some (after, response) ∧
      Effect state (.pollGroupBatch request) after := by
  obtain ⟨after, response, happly, hstep⟩ := applyGroupBatchPoll_step hwf request kind
  refine ⟨after, response, happly, ?_⟩
  obtain rfl | ⟨offsets, assignments, hpoll, -⟩ := hstep
  · exact .unchanged _
  · exact hpoll.effect rfl

end Polls

/-- An acknowledgement is accepted for a pending offset that is in flight for the member, under
the token if the request carries one, or without a token for the next offset. -/
theorem acknowledge_cases (consumer : GroupConsumerState) (request : GroupAckRequest) :
    ((consumer.acknowledge request).1 = consumer ∧
      (consumer.acknowledge request).2 ≠ .groupAcknowledged) ∨
    consumer.acknowledge request =
        (consumer.acknowledgeGroupOffset request.offset, .groupAcknowledged) ∧
      ¬ consumer.Acknowledged request.offset ∧
      ((∃ delivery, consumer.inFlight[request.offset]? = some delivery ∧
          delivery.member = request.member ∧
          (request.deliveryToken ≠ "" → delivery.deliveryToken = request.deliveryToken)) ∨
        request.deliveryToken = "" ∧ request.member = request.consumer ∧
        request.offset = consumer.committedOffset ∧ request.offset ∉ consumer.inFlight) := by
  unfold GroupConsumerState.acknowledge
  by_cases hdone : request.offset < consumer.committedOffset ∨
      request.offset ∈ consumer.acknowledgedOffsets
  · rw [if_pos hdone]
    exact Or.inl ⟨rfl, by simp⟩
  · rw [if_neg hdone]
    cases hflight : consumer.inFlight[request.offset]? with
    | none =>
      have hnot : request.offset ∉ consumer.inFlight := by
        simp [Std.ExtTreeMap.mem_iff_isSome_getElem?, hflight]
      dsimp only
      split_ifs with htokenless hattempted
      · exact Or.inr ⟨rfl, hdone, Or.inr ⟨htokenless.1, htokenless.2.1, htokenless.2.2, hnot⟩⟩
      · exact Or.inl ⟨rfl, by simp⟩
      · exact Or.inl ⟨rfl, by simp⟩
    | some delivery =>
      dsimp only
      split_ifs with hstale
      · exact Or.inl ⟨rfl, by simp⟩
      · push Not at hstale
        refine Or.inr ⟨rfl, hdone, Or.inl ⟨delivery, rfl, hstale.1, ?_⟩⟩
        intro htoken
        exact hstale.2 (Or.inr htoken)

variable {state : SnapshotState} {consumer : GroupConsumerState}

theorem Effect.observed {command : Command} {key : ConsumerKey}
    {nowMs : ℕ} (hcommand : command.poll? = none)
    (hreleased : Released (max state.leaseClockMs nowMs) (state.consumerOf key) consumer) :
    Effect state command (state.opened key nowMs consumer) :=
  have hnone : ∀ offset ∈ ([] : List ℕ), offset ∈ consumer.inFlight := by simp
  Effect.acknowledge hcommand hreleased hnone

/-- An acknowledgement on an active stream observes the expired leases and then judges its
offset. -/
theorem applyGroupAck_step (hwf : state.WellFormed) (request : GroupAckRequest) (kind : GroupKind) :
    applyGroupAck state request kind = some (state, .streamNotFound) ∨
    state.streamActive request.stream = true ∧ ∃ consumer,
      Released (max state.leaseClockMs request.nowMs) (state.consumerOf request.consumerKey)
        consumer ∧
      applyGroupAck state request kind =
        some (state.opened request.consumerKey request.nowMs (consumer.acknowledge request).1,
          (consumer.acknowledge request).2) := by
  unfold applyGroupAck
  split_ifs with hkind hactive
  · exact Or.inl rfl
  · exact Or.inl rfl
  · refine Or.inr ⟨by simpa using hactive, ?_⟩
    obtain ⟨consumer, hopen, hreleased⟩ := openConsumer_spec hwf request.consumerKey
      request.nowMs (.legacy 0 none)
    have hconsumer := state.opened_getElem? request.consumerKey request.nowMs consumer
    refine ⟨consumer, hreleased, ?_⟩
    simp only [hopen, Option.bind_eq_bind, Option.bind_some, Option.pure_def]
    rw [← SnapshotState.opened, hconsumer, Option.bind_some, SnapshotState.opened,
      SnapshotState.setConsumer_setConsumer, ← SnapshotState.opened]

theorem applyGroupAck_effect (hwf : state.WellFormed)
    (request : GroupAckRequest) (kind : GroupKind) :
    ∃ after response, applyGroupAck state request kind = some (after, response) ∧
      Effect state (.ackGroup request) after := by
  obtain happly | ⟨hactive, consumer, hreleased, happly⟩ := applyGroupAck_step hwf request kind
  · exact ⟨_, _, happly, .unchanged _⟩
  · refine ⟨_, _, happly, ?_⟩
    rcases acknowledge_cases consumer request with ⟨heq, -⟩ | ⟨heq, hpending, hflight | htokenless⟩
    · rw [heq]
      exact .observed rfl hreleased
    · rw [heq]
      obtain ⟨delivery, hdelivery, -⟩ := hflight
      have hall : ∀ offset ∈ [request.offset], offset ∈ consumer.inFlight := by
        simpa using mem_iff_exists_getElem?.2 ⟨delivery, hdelivery⟩
      exact .acknowledge rfl hreleased hall
    · rw [heq]
      obtain ⟨htoken, hmember, hoffset, hflight⟩ := htokenless
      exact .tokenless hactive hreleased htoken hmember hoffset
        (fun hmem => hpending (Or.inr hmem)) hflight

theorem receiptOutcome_confirmed {member : String}
    {receipt : DeliveryReceipt} (h : consumer.receiptOutcome member receipt = .confirmed) :
    ¬ consumer.Acknowledged receipt.offset ∧ receipt.deliveryToken ≠ "" ∧
      ∃ delivery, consumer.inFlight[receipt.offset]? = some delivery ∧
        delivery.member = member ∧ delivery.deliveryToken = receipt.deliveryToken := by
  unfold GroupConsumerState.receiptOutcome at h
  cases hflight : consumer.inFlight[receipt.offset]? with
  | none =>
    rw [hflight] at h
    split_ifs at h
  | some delivery =>
    rw [hflight] at h
    dsimp only at h
    split_ifs at h with hdone htoken hstale
    push Not at hstale
    exact ⟨hdone, htoken, delivery, rfl, hstale⟩

def GroupBatchAckRequest.outcomes (request : GroupBatchAckRequest)
    (consumer : GroupConsumerState) : List AckBatchItem :=
  request.receipts.map fun receipt =>
    { offset := receipt.offset
      outcome := consumer.receiptOutcome request.member receipt }

def confirmedOffsets (items : List AckBatchItem) : List ℕ :=
  (items.filter fun item => item.outcome = .confirmed).map AckBatchItem.offset

theorem mem_confirmedOffsets {request : GroupBatchAckRequest}
    {offset : ℕ} : offset ∈ confirmedOffsets (request.outcomes consumer) ↔
      ∃ receipt ∈ request.receipts, receipt.offset = offset ∧
        consumer.receiptOutcome request.member receipt = .confirmed := by
  simp only [confirmedOffsets, GroupBatchAckRequest.outcomes, List.mem_map, List.mem_filter,
    decide_eq_true_eq]
  constructor
  · rintro ⟨item, ⟨⟨receipt, hreceipt, rfl⟩, hconfirmed⟩, rfl⟩
    exact ⟨receipt, hreceipt, rfl, hconfirmed⟩
  · rintro ⟨receipt, hreceipt, rfl, hconfirmed⟩
    exact ⟨_, ⟨⟨receipt, hreceipt, rfl⟩, hconfirmed⟩, rfl⟩

theorem nodup_confirmedOffsets {request : GroupBatchAckRequest} (consumer : GroupConsumerState)
    (h : (request.receipts.map DeliveryReceipt.offset).Nodup) :
    (confirmedOffsets (request.outcomes consumer)).Nodup := by
  refine List.Nodup.sublist ?_ h
  have hall : (request.outcomes consumer).map AckBatchItem.offset =
      request.receipts.map DeliveryReceipt.offset := by
    simp [GroupBatchAckRequest.outcomes]
  rw [← hall]
  exact List.filter_sublist.map _

/-- A batch acknowledgement judges every receipt before it acknowledges the confirmed ones. -/
theorem applyGroupBatchAck_step (hwf : state.WellFormed)
    (request : GroupBatchAckRequest) (kind : GroupKind) :
    applyGroupBatchAck state request kind = some (state, .streamNotFound) ∨
    ∃ consumer,
      Released (max state.leaseClockMs request.nowMs) (state.consumerOf request.consumerKey)
        consumer ∧
      applyGroupBatchAck state request kind =
        some (state.opened request.consumerKey request.nowMs
            ((confirmedOffsets (request.outcomes consumer)).foldl acknowledgeGroupOffset consumer),
          .groupBatchAcknowledged ⟨request.outcomes consumer⟩) := by
  unfold applyGroupBatchAck
  split_ifs with hkind hactive
  · exact Or.inl rfl
  · exact Or.inl rfl
  · obtain ⟨consumer, hopen, hreleased⟩ := openConsumer_spec hwf request.consumerKey
      request.nowMs (.legacy 0 none)
    have hconsumer := state.opened_getElem? request.consumerKey request.nowMs consumer
    refine Or.inr ⟨consumer, hreleased, ?_⟩
    simp only [hopen, Option.bind_eq_bind, Option.bind_some, Option.pure_def]
    rw [← SnapshotState.opened, hconsumer, Option.bind_some, SnapshotState.opened,
      SnapshotState.setConsumer_setConsumer, ← SnapshotState.opened]
    rfl

theorem applyGroupBatchAck_effect (hwf : state.WellFormed)
    (request : GroupBatchAckRequest) (kind : GroupKind) :
    ∃ after response, applyGroupBatchAck state request kind = some (after, response) ∧
      Effect state (.ackGroupBatch request) after := by
  obtain happly | ⟨consumer, hreleased, happly⟩ := applyGroupBatchAck_step hwf request kind
  · exact ⟨_, _, happly, .unchanged _⟩
  · refine ⟨_, _, happly, .acknowledge rfl hreleased ?_⟩
    intro offset hmem
    obtain ⟨receipt, -, rfl, hconfirmed⟩ := mem_confirmedOffsets.1 hmem
    obtain ⟨-, -, delivery, hdelivery, -⟩ := receiptOutcome_confirmed hconfirmed
    exact mem_iff_exists_getElem?.2 ⟨delivery, hdelivery⟩

section Others

variable (state : SnapshotState)

theorem insert_messages_grow {stream : String} {streamState : StreamState}
    (h : state.messages stream <+: streamState.messages) (other : String) :
    state.messages other <+:
      ({ state with streams := state.streams.insert stream streamState } :
        SnapshotState).messages other := by
  unfold SnapshotState.messages at *
  simp only [Std.ExtTreeMap.getElem?_insert, Std.LawfulEqCmp.compare_eq_iff_eq]
  split_ifs with heq
  · exact heq ▸ h
  · exact List.prefix_refl _

theorem applyCreateStream_effect (stream : String) (streamId groupId : Option String)
    (kind : GroupKind) (command : Command) :
    Effect state command (applyCreateStream state stream streamId groupId kind).1 := by
  unfold applyCreateStream
  split
  · exact .unchanged _
  · by_cases hmem : stream ∈ state.streams
    · simpa only [hmem, if_true] using .unchanged _
    · simp only [hmem, if_false]
      refine .streams rfl rfl rfl (insert_messages_grow state ?_)
      simp [SnapshotState.messages, Std.ExtTreeMap.getElem?_eq_none hmem]

theorem applyInitializeDataStream_effect (stream streamId groupId : String) (kind : GroupKind)
    (command : Command) :
    Effect state command (applyInitializeDataStream state stream streamId groupId kind).1 := by
  unfold applyInitializeDataStream
  split
  · split_ifs with hother hmem
    · exact .unchanged _
    · exact .unchanged _
    · refine .streams rfl rfl rfl (insert_messages_grow state ?_)
      simp [SnapshotState.messages, Std.ExtTreeMap.getElem?_eq_none hmem]
  · exact .unchanged _

theorem applyActivateStream_effect (stream : String) (kind : GroupKind) (command : Command) :
    Effect state command (applyActivateStream state stream kind).1 := by
  unfold applyActivateStream
  split
  · exact .unchanged _
  · cases hstream : state.streams[stream]? with
    | none => exact .unchanged _
    | some streamState =>
      refine .streams rfl rfl rfl (insert_messages_grow state ?_)
      rw [SnapshotState.messages_of_getElem? hstream]

theorem applyPublish_effect (stream : String) (key : Option String) (payload : Bytes)
    (publishedAtMs : ℕ) (requestId : Option String) (kind : GroupKind) (command : Command) :
    Effect state command
      (applyPublish state stream key payload publishedAtMs requestId kind).1 := by
  unfold applyPublish
  split_ifs with hkind
  · exact .unchanged _
  · cases state.dedupOffset stream requestId with
    | some offset =>
      dsimp only
      cases (state.messages stream)[offset]? with
      | none => exact .unchanged _
      | some existing =>
        dsimp only
        split_ifs <;> exact .unchanged _
    | none =>
      dsimp only
      split_ifs with hactive
      · exact .unchanged _
      · refine .streams rfl rfl rfl (insert_messages_grow state ?_)
        cases hstream : state.streams[stream]? with
        | none => simp [SnapshotState.messages, hstream]
        | some streamState =>
          rw [SnapshotState.messages_of_getElem? hstream]
          exact List.prefix_append _ _

theorem applyAck_effect (stream consumer : String) (offset : ℕ) (kind : GroupKind) :
    Effect state (.ack stream consumer offset)
      (applyAck state stream consumer offset kind).1 := by
  unfold applyAck
  split_ifs with hkind hactive
  · exact .unchanged _
  · exact .unchanged _
  · dsimp only
    split_ifs with hless hmore
    · exact .unchanged _
    · exact .unchanged _
    · exact .ack (by simpa using hactive) (by omega)

theorem applyCreateStream_eq (stream : String) (streamId groupId : Option String)
    (kind : GroupKind) :
    ∃ streams, (applyCreateStream state stream streamId groupId kind).1 =
      { state with streams := streams } := by
  unfold applyCreateStream
  split
  · exact ⟨_, rfl⟩
  · dsimp only
    split_ifs <;> exact ⟨_, rfl⟩

theorem applyInitializeDataStream_eq (stream streamId groupId : String) (kind : GroupKind) :
    ∃ streams, (applyInitializeDataStream state stream streamId groupId kind).1 =
      { state with streams := streams } := by
  unfold applyInitializeDataStream
  split
  · split_ifs <;> exact ⟨_, rfl⟩
  · exact ⟨_, rfl⟩

theorem applyActivateStream_eq (stream : String) (kind : GroupKind) :
    ∃ streams, (applyActivateStream state stream kind).1 = { state with streams := streams } := by
  unfold applyActivateStream
  split
  · exact ⟨_, rfl⟩
  · split <;> exact ⟨_, rfl⟩

theorem applyPublish_eq (stream : String) (key : Option String) (payload : Bytes)
    (publishedAtMs : ℕ) (requestId : Option String) (kind : GroupKind) :
    ∃ streams dedup, (applyPublish state stream key payload publishedAtMs requestId kind).1 =
      { state with streams := streams, dedup := dedup } := by
  unfold applyPublish
  dsimp only
  repeat' split
  all_goals exact ⟨_, _, rfl⟩

theorem applyAck_eq (stream consumer : String) (offset : ℕ) (kind : GroupKind) :
    ∃ consumers, (applyAck state stream consumer offset kind).1 =
      { state with consumers := consumers } := by
  unfold applyAck
  dsimp only
  split_ifs <;> exact ⟨_, rfl⟩

/-- A configuration is refused, or it opens the entry from what the entry itself holds. -/
theorem applyConfigureConsumer_cases (state : SnapshotState) (stream consumer : String)
    (ackTimeoutMs : ℕ) (maxDeliveryAttempts : Option ℕ) (retryDelayMs : ℕ) (kind : GroupKind) :
    (applyConfigureConsumer state stream consumer ackTimeoutMs maxDeliveryAttempts retryDelayMs
        kind).1 = state ∧
      ¬ (kind ≠ .metadata ∧ state.streamActive stream = true ∧
        validateConsumerPolicy ackTimeoutMs maxDeliveryAttempts retryDelayMs = .ok ()) ∨
    (kind ≠ .metadata ∧ state.streamActive stream = true ∧
        validateConsumerPolicy ackTimeoutMs maxDeliveryAttempts retryDelayMs = .ok ()) ∧
      ∃ policy, (applyConfigureConsumer state stream consumer ackTimeoutMs maxDeliveryAttempts
          retryDelayMs kind).1 =
        state.setConsumer (stream, consumer)
          { (state.groupConsumers[(stream, consumer)]?).getD {} with policy := policy } := by
  unfold applyConfigureConsumer
  split_ifs with hkind
  · refine Or.inl ⟨rfl, ?_⟩
    rintro ⟨hdata, hactive, -⟩
    simp [hdata, hactive] at hkind
  · split
    · rename_i hpolicy
      refine Or.inl ⟨rfl, ?_⟩
      rintro ⟨-, -, hvalid⟩
      rw [hvalid] at hpolicy
      cases hpolicy
    · rename_i hpolicy
      refine Or.inr ⟨⟨?_, ?_, hpolicy⟩, ?_⟩
      · exact fun h => hkind (Or.inl h)
      · simpa using fun h => hkind (Or.inr h)
      dsimp only
      split
      · exact ⟨_, rfl⟩
      · split_ifs
        · exact ⟨_, rfl⟩
        · exact ⟨_, SnapshotState.setConsumer_setConsumer _ _ _ _⟩

theorem applyConfigureConsumer_effect (stream consumer : String) (ackTimeoutMs : ℕ)
    (maxDeliveryAttempts : Option ℕ) (retryDelayMs : ℕ) (kind : GroupKind) {command : Command}
    (hcommand : command.poll? = none) :
    Effect state command (applyConfigureConsumer state stream consumer ackTimeoutMs
      maxDeliveryAttempts retryDelayMs kind).1 := by
  obtain ⟨heq, -⟩ | ⟨-, policy, heq⟩ := applyConfigureConsumer_cases state stream consumer
    ackTimeoutMs maxDeliveryAttempts retryDelayMs kind
  · rw [heq]
    exact .unchanged _
  · rw [heq]
    exact .configure (stream, consumer) policy hcommand

end Others

/-- Every command succeeds on a well-formed state, with one of the listed effects. -/
theorem applyCommand_effect [ToString LogId] (hwf : state.WellFormed)
    (command : Command) (kind : GroupKind) (logId : LogId) :
    ∃ after response, applyCommand state command kind logId = some (after, response) ∧
      Effect state command after := by
  cases command with
  | createStream stream streamId groupId =>
    exact ⟨_, _, rfl, applyCreateStream_effect state stream streamId groupId kind _⟩
  | initializeDataStream stream streamId groupId =>
    exact ⟨_, _, rfl, applyInitializeDataStream_effect state stream streamId groupId kind _⟩
  | activateStream stream => exact ⟨_, _, rfl, applyActivateStream_effect state stream kind _⟩
  | publish stream key payload publishedAtMs requestId =>
    exact ⟨_, _, rfl, applyPublish_effect state stream key payload publishedAtMs requestId kind _⟩
  | ack stream consumer offset =>
    exact ⟨_, _, rfl, applyAck_effect state stream consumer offset kind⟩
  | configureConsumer stream consumer ackTimeoutMs maxDeliveryAttempts retryDelayMs =>
    exact ⟨_, _, rfl, applyConfigureConsumer_effect state stream consumer ackTimeoutMs
      maxDeliveryAttempts retryDelayMs kind rfl⟩
  | replay stream consumer offset => exact ⟨_, _, rfl, .unchanged _⟩
  | pollGroup request => exact applyGroupPoll_effect hwf request logId kind
  | pollGroupBatch request => exact applyGroupBatchPoll_effect hwf request kind
  | ackGroup request => exact applyGroupAck_effect hwf request kind
  | ackGroupBatch request => exact applyGroupBatchAck_effect hwf request kind

end Runnel.Cluster
