import Runnel.Cluster.PreviewSpec

/-!
# The transition-only poll

A poll that only makes transitions releases the expired leases and moves exhausted
records away until the first record that could be delivered.
-/

namespace Runnel.Cluster

open Runnel.Engine GroupConsumerState Search

section Held

variable {messages : List StoredMessage} {consumer : GroupConsumerState} {terms : PollTerms}

/-- A running schedule or a live lease holds the offset back. -/
def GroupConsumerState.Blocked (consumer : GroupConsumerState) (nowMs offset : ℕ) : Prop :=
  offset ∈ (consumer.retryFilter nowMs).1 ∨ consumer.Live nowMs offset

/-- The offset is held back now, or will be once its schedule is written. -/
def GroupConsumerState.Held (consumer : GroupConsumerState) (nowMs offset : ℕ) : Prop :=
  consumer.Blocked nowMs offset ∨ ∃ delivery, consumer.Lacking nowMs offset delivery

variable {nowMs : ℕ} {key : String}

theorem liveKeyInFlight_iff (hwf : WellFormed messages consumer) :
    consumer.liveKeyInFlight nowMs key = true ↔
      ∃ offset : ℕ, consumer.Live nowMs offset ∧ keyAt messages offset = some key := by
  simp only [liveKeyInFlight, List.any_eq_true, Prod.exists, Bool.and_eq_true, Bool.not_eq_true',
    decide_eq_true_eq, Std.ExtTreeMap.mem_toList_iff_getElem?_eq_some, Live]
  constructor
  · rintro ⟨offset, delivery, hget, hlive, hkey⟩
    exact ⟨offset, ⟨delivery, hget, hlive⟩, (hwf.inFlight offset delivery hget).2 ▸ hkey⟩
  · rintro ⟨offset, ⟨delivery, hget, hlive⟩, hkey⟩
    exact ⟨offset, delivery, hget, hlive, (hwf.inFlight offset delivery hget).2.trans hkey⟩

theorem mem_retryFilter_keys_iff (hwf : WellFormed messages consumer) :
    key ∈ (consumer.retryFilter nowMs).2 ↔
      ∃ offset : ℕ, offset ∈ (consumer.retryFilter nowMs).1 ∧ keyAt messages offset = some key := by
  simp only [mem_retryFilter_keys, mem_retryFilter_offsets]
  constructor
  · rintro ⟨offset, schedule, hget, hkey, hlater⟩
    exact ⟨offset, ⟨schedule, hget, hlater⟩, (hwf.retry offset schedule hget).2.2 ▸ hkey⟩
  · rintro ⟨offset, ⟨schedule, hget, hlater⟩, hkey⟩
    exact ⟨offset, schedule, hget, (hwf.retry offset schedule hget).2.2.trans hkey, hlater⟩

theorem lacking_key_iff (hwf : WellFormed messages consumer) :
    (∃ offset delivery, consumer.Lacking nowMs offset delivery ∧ delivery.key = some key) ↔
      ∃ offset : ℕ, (∃ delivery, consumer.Lacking nowMs offset delivery) ∧
        keyAt messages offset = some key := by
  constructor
  · rintro ⟨offset, delivery, hlacking, hkey⟩
    exact ⟨offset, ⟨delivery, hlacking⟩, (hwf.inFlight offset delivery hlacking.1).2 ▸ hkey⟩
  · rintro ⟨offset, ⟨delivery, hlacking⟩, hkey⟩
    exact ⟨offset, delivery, hlacking, (hwf.inFlight offset delivery hlacking.1).2.trans hkey⟩

/-- A record is free if nothing holds it back and nothing holds its key back. -/
theorem batchView_free_iff_held (hwf : WellFormed messages consumer)
    {filter : BTreeSet ℕ × BTreeSet String}
    (hfilter : consumer.previewRetryFilter terms.nowMs terms.legacyPolicy terms.policyVersion =
      some filter) {isDeadLetter : Bool} {entry : ℕ × StoredMessage} :
    (consumer.batchView terms filter isDeadLetter).free entry = true ↔
      ¬ consumer.Acknowledged entry.1 ∧ ¬ consumer.Held terms.nowMs entry.1 ∧
      ∀ key, entry.2.key = some key → ∀ other : ℕ, consumer.Held terms.nowMs other →
        keyAt messages other ≠ some key := by
  obtain ⟨filter', hfilter', hoffsets, hkeys⟩ := previewRetryFilter_spec hwf terms
  obtain rfl : filter' = filter := Option.some.inj (hfilter'.symm.trans hfilter)
  have hheldKey : ∀ key : String, (key ∉ filter'.2 ∧
      ¬ consumer.liveKeyInFlight terms.nowMs key = true) ↔
      ∀ other : ℕ, consumer.Held terms.nowMs other → keyAt messages other ≠ some key := by
    intro key
    rw [hkeys, liveKeyInFlight_iff hwf, mem_retryFilter_keys_iff hwf, lacking_key_iff hwf]
    simp only [Held, Blocked]
    grind
  rw [batchView_free_iff]
  simp only [hheldKey, hoffsets, Held, Blocked]
  tauto

end Held

section Released

variable {messages : List StoredMessage} {before after : GroupConsumerState} {nowMs : ℕ}

/-- Every lease in flight is live, so no schedule is missing. -/
def GroupConsumerState.AllLive (consumer : GroupConsumerState) (nowMs : ℕ) : Prop :=
  ∀ (offset : ℕ) (delivery : GroupDelivery), consumer.inFlight[offset]? = some delivery →
    leaseExpired delivery.deadlineMs nowMs = false

variable {consumer : GroupConsumerState}

theorem GroupConsumerState.AllLive.not_lacking
    (h : consumer.AllLive nowMs) (offset : ℕ) (delivery : GroupDelivery) :
    ¬ consumer.Lacking nowMs offset delivery := by
  rintro ⟨hget, hlacks⟩
  simp [lacksSchedule, h offset delivery hget] at hlacks

theorem GroupConsumerState.AllLive.held_iff (h : consumer.AllLive nowMs) (offset : ℕ) :
    consumer.Held nowMs offset ↔ consumer.Blocked nowMs offset := by
  constructor
  · rintro (hblocked | ⟨delivery, hlacking⟩)
    · exact hblocked
    · exact absurd hlacking (h.not_lacking offset delivery)
  · exact Or.inl

theorem GroupConsumerState.AllLive.live_iff (h : consumer.AllLive nowMs) (offset : ℕ) :
    consumer.Live nowMs offset ↔ offset ∈ consumer.inFlight := by
  rw [mem_iff_exists_getElem?]
  exact ⟨fun ⟨delivery, hget, _⟩ => ⟨delivery, hget⟩,
    fun ⟨delivery, hget⟩ => ⟨delivery, hget, h offset delivery hget⟩⟩

theorem GroupConsumerState.AllLive.liveKeyInFlight_iff (h : consumer.AllLive nowMs) (key : String) :
    consumer.liveKeyInFlight nowMs key = true ↔ consumer.keyInFlight key = true := by
  simp only [liveKeyInFlight, List.any_eq_true, Prod.exists, Bool.and_eq_true, Bool.not_eq_true',
    decide_eq_true_eq, Std.ExtTreeMap.mem_toList_iff_getElem?_eq_some, keyInFlight_iff]
  constructor
  · rintro ⟨offset, delivery, hget, -, hkey⟩
    exact ⟨offset, delivery, hget, hkey⟩
  · rintro ⟨offset, delivery, hget, hkey⟩
    exact ⟨offset, delivery, hget, h offset delivery hget, hkey⟩

theorem GroupConsumerState.Released.allLive (h : Released nowMs before after) :
    after.AllLive nowMs := by
  intro offset delivery hget
  rw [h.inFlight, Option.filter_eq_some_iff] at hget
  simpa using hget.2

theorem GroupConsumerState.Released.live_iff (h : Released nowMs before after) (offset : ℕ) :
    after.Live nowMs offset ↔ before.Live nowMs offset := by
  simp only [Live, h.inFlight, Option.filter_eq_some_iff, Bool.not_eq_true']
  constructor
  · rintro ⟨delivery, ⟨hget, -⟩, hlive⟩
    exact ⟨delivery, hget, hlive⟩
  · rintro ⟨delivery, hget, hlive⟩
    exact ⟨delivery, ⟨hget, hlive⟩, hlive⟩

variable {offset : ℕ}

theorem GroupConsumerState.Released.held_of_blocked (h : Released nowMs before after)
    (hblocked : after.Blocked nowMs offset) : before.Held nowMs offset := by
  rcases hblocked with hwaiting | hlive
  · obtain ⟨schedule, hget, hlater⟩ := mem_retryFilter_offsets.1 hwaiting
    rw [h.retry, Option.orElse_eq_orElse, Option.orElse_eq_or, Option.or_eq_some_iff] at hget
    rcases hget with hget | ⟨hnone, hget⟩
    · exact Or.inl (Or.inl (mem_retryFilter_offsets.2 ⟨schedule, hget, hlater⟩))
    · obtain ⟨delivery, hdelivery, hschedule⟩ := Option.bind_eq_some_iff.1 hget
      rw [Option.filter_eq_some_iff] at hdelivery
      exact Or.inr ⟨delivery, hdelivery.1, by
        simp [lacksSchedule, hdelivery.2, hnone, hschedule,
          Std.ExtTreeMap.contains_eq_isSome_getElem?]⟩
  · exact Or.inl (Or.inr ((h.live_iff offset).1 hlive))

theorem GroupConsumerState.Released.blocked_or_lacking (h : Released nowMs before after)
    (hheld : before.Held nowMs offset) :
    after.Blocked nowMs offset ∨ ∃ delivery, before.Lacking nowMs offset delivery := by
  rcases hheld with (hwaiting | hlive) | hlacking
  · obtain ⟨schedule, hget, hlater⟩ := mem_retryFilter_offsets.1 hwaiting
    refine Or.inl (Or.inl (mem_retryFilter_offsets.2 ⟨schedule, ?_, hlater⟩))
    rw [h.retry, hget]
    rfl
  · exact Or.inl (Or.inr ((h.live_iff offset).2 hlive))
  · exact Or.inr hlacking

/-- Below the largest time a schedule that is written now lies in the future. -/
theorem GroupConsumerState.Released.blocked_of_held (h : Released nowMs before after)
    (hclock : nowMs < u64Max) (hheld : before.Held nowMs offset) :
    after.Blocked nowMs offset := by
  rcases h.blocked_or_lacking hheld with hblocked | ⟨delivery, hget, hlacks⟩
  · exact hblocked
  · simp only [lacksSchedule, Bool.and_eq_true, Bool.not_eq_true'] at hlacks
    obtain ⟨⟨hexpired, hnone⟩, hsome⟩ := hlacks
    obtain ⟨schedule, hschedule⟩ := Option.isSome_iff_exists.1 hsome
    rw [Std.ExtTreeMap.contains_eq_isSome_getElem?, Option.isSome_eq_false_iff,
      Option.isNone_iff_eq_none] at hnone
    refine Or.inl (mem_retryFilter_offsets.2 ⟨schedule, ?_, ?_⟩)
    · rw [h.retry, hnone, hget, Option.filter_some, if_pos hexpired, Option.bind_some,
        hschedule]
      rfl
    · obtain ⟨policy, -, hpolicy⟩ := Option.bind_eq_some_iff.1 hschedule
      obtain ⟨hskip, hpolicy⟩ := Option.ite_none_left_eq_some.1 hpolicy
      rw [← Option.some.inj hpolicy]
      simp only [Bool.or_eq_true, decide_eq_true_eq, not_or] at hskip
      have hdelay : 0 < policy.retryDelayMs := Nat.pos_of_ne_zero hskip.2
      exact lt_min (Nat.lt_add_of_pos_right hdelay) hclock

theorem GroupConsumerState.Lacking.not_exhausted
    (hwf : WellFormed messages consumer) {delivery : GroupDelivery}
    (h : consumer.Lacking nowMs offset delivery) (terms : PollTerms) :
    consumer.exhaustedAt terms offset = false := by
  obtain ⟨hget, hlacks⟩ := h
  have hattempted := hwf.attempted_of_inFlight (mem_iff_exists_getElem?.2 ⟨_, hget⟩)
  obtain ⟨hpos, policy, hpolicy⟩ := hwf.pinned_of_mem hattempted
  have hfound : consumer.groupPolicyForOffset offset (consumer.attempts offset)
      terms.legacyPolicy terms.policyVersion = consumer.deliveryPolicies[offset]? :=
    groupPolicyForOffset_of_pos hpos _ _
  simp only [lacksSchedule, scheduleOf, hpolicy, Option.bind_some, Bool.and_eq_true] at hlacks
  rw [exhaustedAt, hfound, hpolicy, Option.any_some]
  cases hexhausted : policy.exhausted (consumer.attempts offset) with
  | false => rfl
  | true => simp [hexhausted] at hlacks

end Released

section DeadLettering

variable {messages : List StoredMessage} {before after : GroupConsumerState} {terms : PollTerms}

/-- What the moves of a poll leave of the consumer: nothing but the moved offsets changes. -/
structure Settled (terms : PollTerms) (offsets : List ℕ) (before after : GroupConsumerState) :
    Prop where
  acknowledged_iff : ∀ offset, after.Acknowledged offset ↔
    before.Acknowledged offset ∨ offset ∈ offsets
  pending : ∀ offset ∈ offsets, ¬ before.Acknowledged offset
  exhausted : ∀ offset ∈ offsets, before.exhaustedAt terms offset = true
  inFlight : after.inFlight = before.inFlight
  blocked_iff : ∀ offset, after.Blocked terms.nowMs offset ↔ before.Blocked terms.nowMs offset
  attempts : ∀ offset, ¬ after.Acknowledged offset → after.attempts offset = before.attempts offset
  exhaustedAt : ∀ offset, ¬ after.Acknowledged offset →
    after.exhaustedAt terms offset = before.exhaustedAt terms offset

theorem Settled.refl (terms : PollTerms) (consumer : GroupConsumerState) :
    Settled terms [] consumer consumer := by
  constructor <;> simp

theorem Settled.trans {first second third : GroupConsumerState} {offsets offsets' : List ℕ}
    (h : Settled terms offsets first second) (h' : Settled terms offsets' second third) :
    Settled terms (offsets ++ offsets') first third := by
  have hback : ∀ offset, ¬ third.Acknowledged offset → ¬ second.Acknowledged offset :=
    fun offset hnot hacked => hnot ((h'.acknowledged_iff offset).2 (Or.inl hacked))
  refine ⟨fun offset => ?_, fun offset hmem => ?_, fun offset hmem => ?_,
    h'.inFlight.trans h.inFlight,
    fun offset => (h'.blocked_iff offset).trans (h.blocked_iff offset),
    fun offset hnot => (h'.attempts offset hnot).trans (h.attempts offset (hback offset hnot)),
      fun offset hnot => (h'.exhaustedAt offset hnot).trans
        (h.exhaustedAt offset (hback offset hnot))⟩
  · rw [h'.acknowledged_iff, h.acknowledged_iff, List.mem_append, or_assoc]
  · rcases List.mem_append.1 hmem with hmem | hmem
    · exact h.pending offset hmem
    · exact fun hacked => h'.pending offset hmem ((h.acknowledged_iff offset).2 (Or.inl hacked))
  · rcases List.mem_append.1 hmem with hmem | hmem
    · exact h.exhausted offset hmem
    · rw [← h.exhaustedAt offset (h'.pending offset hmem)]
      exact h'.exhausted offset hmem

theorem Settled.acknowledge {consumer : GroupConsumerState} (hwf : WellFormed messages consumer)
    {offset : ℕ} (hpending : ¬ consumer.Acknowledged offset) (hflight : offset ∉ consumer.inFlight)
    (hwaiting : offset ∉ (consumer.retryFilter terms.nowMs).1)
    (hexhausted : consumer.exhaustedAt terms offset = true) :
    Settled terms [offset] consumer (consumer.acknowledgeGroupOffset offset) := by
  have hspec := acknowledgeGroupOffset_spec consumer offset
  have hinFlight := inFlight_acknowledge_of_notMem hflight
  have hother : ∀ other, ¬ (consumer.acknowledgeGroupOffset offset).Acknowledged other →
      other ≠ offset ∧ ¬ consumer.Acknowledged other := by
    intro other hnot
    rw [hspec.acknowledged_iff] at hnot
    tauto
  have hattempts : ∀ other, ¬ (consumer.acknowledgeGroupOffset offset).Acknowledged other →
      (consumer.acknowledgeGroupOffset offset).attempts other = consumer.attempts other :=
    fun other hnot => attempts_acknowledge consumer (hother other hnot).1
  refine ⟨fun other => ?_, by simpa using hpending, by simpa using hexhausted, hinFlight,
    fun other => or_congr ?_ ?_, hattempts, fun other hnot => ?_⟩
  · rw [hspec.acknowledged_iff, List.mem_singleton]
  · rw [mem_retryFilter_offsets, mem_retryFilter_offsets]
    constructor
    · rintro ⟨schedule, hget, hlater⟩
      exact ⟨schedule, (hspec.retry_subset other schedule hget).2, hlater⟩
    · rintro ⟨schedule, hget, hlater⟩
      refine ⟨schedule, ?_, hlater⟩
      rw [hspec.retry other ?_ (hwf.inTurn other (hwf.retry other schedule hget).1).pending]
      · exact hget
      · rintro rfl
        exact hwaiting (mem_retryFilter_offsets.2 ⟨schedule, hget, hlater⟩)
  · rw [Live, hinFlight]
    rfl
  · exact exhaustedAt_acknowledge consumer terms (hother other hnot).1 (hother other hnot).2

theorem DeadLettered.settled {key : ConsumerKey} {state state' : SnapshotState}
    {offsets : List ℕ} (h : DeadLettered key terms state offsets state')
    (hwf : state.WellFormed) {consumer : GroupConsumerState}
    (hget : state.groupConsumers[key]? = some consumer) :
    ∃ consumer', state'.groupConsumers[key]? = some consumer' ∧
      Settled terms offsets consumer consumer' := by
  induction h generalizing consumer with
  | done => exact ⟨consumer, hget, .refl _ _⟩
  | @move state next after consumer' offset offsets hget' hturn hflight hwaiting hexhausted _ hmoved
      _ ih =>
    obtain rfl : consumer' = consumer := Option.some.inj (hget'.symm.trans hget)
    obtain ⟨consumer'', hget'', hconsumers⟩ := hmoved.consumer
    obtain rfl : consumer'' = consumer' := Option.some.inj (hget''.symm.trans hget)
    have hnext : next.groupConsumers[key]? = some (consumer''.acknowledgeGroupOffset offset) := by
      rw [hconsumers]
      exact SnapshotState.setConsumer_getElem?_self _ _ _
    obtain ⟨final, hfinal, hsettled⟩ := ih (hmoved.wellFormed hwf) hnext
    exact ⟨final, hfinal, (Settled.acknowledge (hwf key consumer'' hget) hturn.pending hflight
      hwaiting hexhausted).trans hsettled⟩

end DeadLettering

section Apply

variable {state : SnapshotState} {request : GroupBatchPollRequest} {kind : GroupKind}

theorem groupBatchPollLoop_transitionOnly (htransition : request.transitionOnly = true)
    {nowMs fuel : ℕ} {selection selection' : BatchSelection} {early : Option CommandResponse}
    (h : groupBatchPollLoop request nowMs fuel selection = some (selection', early)) :
    selection'.pending = selection.pending ∧ early = none := by
  induction fuel generalizing selection with
  | zero => cases h
  | succ fuel ih =>
    rw [groupBatchPollLoop] at h
    split_ifs at h with hroom
    · obtain ⟨consumer, -, h⟩ := Option.bind_eq_some_iff.1 h
      obtain ⟨streamState, -, h⟩ := Option.bind_eq_some_iff.1 h
      split at h
      · obtain ⟨rfl, rfl⟩ := Prod.mk.inj (Option.some.inj h)
        exact ⟨rfl, rfl⟩
      · obtain ⟨policy, -, h⟩ := Option.bind_eq_some_iff.1 h
        split_ifs at h
        · obtain ⟨next, -, h⟩ := Option.bind_eq_some_iff.1 h
          have hrest := ih h
          exact hrest
        · obtain ⟨rfl, rfl⟩ := Prod.mk.inj (Option.some.inj h)
          exact ⟨rfl, rfl⟩
    · obtain ⟨rfl, rfl⟩ := Prod.mk.inj (Option.some.inj h)
      exact ⟨rfl, rfl⟩

/-- The first candidate of a poll has used up its attempts and may leave. -/
def FirstLeaves (request : GroupBatchPollRequest) (nowMs : ℕ) (state : SnapshotState)
    (consumer : GroupConsumerState) (offset : ℕ) : Prop :=
  (∃ stored, candidate consumer (state.messages request.stream) nowMs ∅ ∅ =
    some (offset, stored)) ∧
  consumer.exhaustedAt (request.terms nowMs) offset = true ∧
  isDeadLetterStream state request.stream = false

section Loop

variable {nowMs : ℕ} {consumer : GroupConsumerState} {streamState : StreamState}
  {selection : BatchSelection}

theorem transitionLoop_idle (htransition : request.transitionOnly = true)
    (h : Selecting request.consumerKey nowMs streamState selection consumer)
    (hoffsets : selection.selectedOffsets = ∅) (hkeys : selection.selectedKeys = ∅)
    (hfirst : ∀ offset, ¬ FirstLeaves request nowMs selection.state consumer offset) (fuel : ℕ) :
    groupBatchPollLoop request nowMs (fuel + 1) selection = some (selection, none) := by
  have hmessages : selection.state.messages request.stream = streamState.messages := h.messages_eq
  have hstream : selection.state.streams[request.stream]? = some streamState := h.getStream
  rw [groupBatchPollLoop]
  split_ifs with hready
  · rw [h.getConsumer, hstream, hoffsets, hkeys]
    simp only [Option.bind_eq_bind, Option.bind_some, Option.pure_def]
    cases hcandidate : candidate consumer streamState.messages nowMs ∅ ∅ with
    | none => rfl
    | some found =>
      obtain ⟨offset, stored⟩ := found
      obtain ⟨policy, hpolicy⟩ := h.wellFormed_consumer.exists_policy offset request.legacyPolicy
        request.policyVersion
      simp only [hpolicy, Option.bind_some]
      rw [if_neg]
      intro hterminal
      rw [Bool.and_eq_true, Bool.not_eq_true'] at hterminal
      refine hfirst offset ⟨⟨stored, hmessages ▸ hcandidate⟩, ?_, hterminal.2⟩
      simpa [exhaustedAt, GroupBatchPollRequest.terms, hpolicy] using hterminal.1
  · rfl

theorem transitionLoop_first
    (h : Selecting request.consumerKey nowMs streamState selection consumer)
    (hoffsets : selection.selectedOffsets = ∅) (hkeys : selection.selectedKeys = ∅)
    (hready : selection.pending.length < request.maxRecords ∧
      selection.sizer.encodedLen < request.maxBytes)
    {offset : ℕ} (hfirst : FirstLeaves request nowMs selection.state consumer offset) :
    ∃ selection' early offsets,
      groupBatchPollLoop request nowMs (streamState.messages.length + 1) selection =
        some (selection', early) ∧
      DeadLettered request.consumerKey (request.terms nowMs) selection.state (offset :: offsets)
        selection'.state := by
  obtain ⟨⟨stored, hcandidate⟩, hexhausted, hlive⟩ := hfirst
  have hmessages : selection.state.messages request.stream = streamState.messages := h.messages_eq
  have hstream : selection.state.streams[request.stream]? = some streamState := h.getStream
  have hwf := h.wellFormed_consumer
  obtain ⟨policy, hpolicy⟩ := hwf.exists_policy offset request.legacyPolicy request.policyVersion
  have hterminal : (policy.exhausted (consumer.attempts offset) &&
      !isDeadLetterStream selection.state request.stream) = true := by
    simpa [exhaustedAt, GroupBatchPollRequest.terms, hpolicy, hlive] using hexhausted
  have hfound : candidate consumer (selection.state.messages request.consumerKey.1)
      (request.terms nowMs).nowMs ∅ ∅ = some (offset, stored) := hcandidate
  obtain ⟨next, hmove, hmoves, hnext, hconsumer', hstream', -⟩ :=
    moves_candidate h.wellFormed h.getConsumer (by simp) hfound hexhausted hlive
  rw [hmessages] at hcandidate
  have hturn := inTurn_of_candidate hwf (by simp) hcandidate
  have hnot : offset ∉ selection.selectedOffsets := by simp [hoffsets]
  have hfewer := card_pendingOffsets_acknowledge hturn.stored hturn.pending hnot
  have hnothing : ∀ p ∈ selection.pending, request.Issues p := by
    intro p hp
    have hselected := (h.selected p.message.offset).2 ⟨p, hp, rfl⟩
    simp [hoffsets] at hselected
  obtain ⟨selection', early, consumer', offsets, hloop, hmoves', -⟩ :=
    groupBatchPollLoop_spec request nowMs streamState.messages.length
      (h.move hnot hnext hconsumer' hstream' (selection.terminalTransitions + 1)) hnothing
      (hfewer.trans_le (card_pendingOffsets_le _ _ _))
  refine ⟨selection', early, offsets, ?_, (hmoves.trans hmoves').deadLettered⟩
  rw [groupBatchPollLoop, if_pos hready, h.getConsumer, hstream, hoffsets, hkeys]
  simp only [Option.bind_eq_bind, Option.bind_some, Option.pure_def, hcandidate, hpolicy, hterminal,
    if_true]
  rw [hmove, ← hloop, hoffsets, hkeys]
  rfl

theorem transitionLoop_spec (htransition : request.transitionOnly = true)
    {sizer : PollBatchResponseSizer}
    (h : Selecting request.consumerKey nowMs streamState { state := state, sizer := sizer }
      consumer)
    (hrecords : 0 < request.maxRecords) :
    ∃ selection early offsets,
      groupBatchPollLoop request nowMs (streamState.messages.length + 1)
        { state := state, sizer := sizer } = some (selection, early) ∧
      DeadLettered request.consumerKey (request.terms nowMs) state offsets selection.state ∧
      (sizer.encodedLen < request.maxBytes →
        ∀ offset, FirstLeaves request nowMs state consumer offset → offset ∈ offsets) ∧
      ((∀ offset, ¬ FirstLeaves request nowMs state consumer offset) → offsets = []) := by
  by_cases hfirst : ∃ offset, FirstLeaves request nowMs state consumer offset
  · obtain ⟨offset, hfirst⟩ := hfirst
    by_cases hready : sizer.encodedLen < request.maxBytes
    · obtain ⟨selection, early, offsets, hloop, hdead⟩ :=
        transitionLoop_first h rfl rfl ⟨hrecords, hready⟩ hfirst
      refine ⟨selection, early, offset :: offsets, hloop, hdead, fun _ other hother => ?_,
        fun hnone => absurd hfirst (hnone offset)⟩
      obtain ⟨⟨stored, hcandidate⟩, -⟩ := hfirst
      obtain ⟨⟨stored', hcandidate'⟩, -⟩ := hother
      have hsame := Option.some.inj (hcandidate'.symm.trans hcandidate)
      rw [(Prod.mk.inj hsame).1]
      exact List.mem_cons_self
    · refine ⟨{ state := state, sizer := sizer }, none, [], ?_, .done _, fun h => absurd h hready,
        fun _ => rfl⟩
      rw [groupBatchPollLoop, if_neg fun h => hready h.2]
      rfl
  · have hnone : ∀ offset, ¬ FirstLeaves request nowMs state consumer offset :=
      fun offset h => hfirst ⟨offset, h⟩
    exact ⟨_, none, [], transitionLoop_idle htransition h rfl rfl hnone _, .done _,
      fun _ offset h => absurd h (hnone offset), fun _ => rfl⟩

end Loop

theorem GroupConsumerState.Released.filter_member {before after : GroupConsumerState} {nowMs : ℕ}
    (h : Released nowMs before after) (member : String) :
    after.inFlight.toList.filter (fun entry => entry.2.member = member) =
      before.liveOf nowMs member := by
  have hmap : after.inFlight = before.inFlight.filter (fun _ delivery =>
      !leaseExpired delivery.deadlineMs nowMs) := by
    refine Std.ExtTreeMap.ext_getElem? fun offset => ?_
    rw [h.inFlight, Std.ExtTreeMap.getElem?_filter']
  rw [hmap, liveOf, Std.ExtTreeMap.toList_filter]

theorem applyTransition_spec (hwf : state.WellFormed) (hkind : kind ≠ .metadata)
    (hrecords : 0 < request.maxRecords) (hbytes : 0 < request.maxBytes)
    (htransition : request.transitionOnly = true)
    (hactive : state.streamActive request.stream = true) :
    ∃ consumer offsets after response,
      applyGroupBatchPoll state request kind = some (after, response) ∧
      Released (max state.leaseClockMs request.nowMs) (state.consumerOf request.consumerKey)
        consumer ∧
      DeadLettered request.consumerKey (request.terms (max state.leaseClockMs request.nowMs))
        (state.opened request.consumerKey request.nowMs consumer) offsets after ∧
      ((state.consumerOf request.consumerKey).liveOf (max state.leaseClockMs request.nowMs)
          request.member = [] →
        (PollBatchResponseSizer.new request.stream request.consumer
          request.responseMember).encodedLen < request.maxBytes →
        ∀ offset, FirstLeaves request (max state.leaseClockMs request.nowMs) state consumer offset →
          offset ∈ offsets) ∧
      ((∀ offset, ¬ FirstLeaves request (max state.leaseClockMs request.nowMs) state consumer
        offset) → offsets = []) := by
  obtain ⟨consumer, hopen, hreleased⟩ := openConsumer_spec hwf request.consumerKey
    request.nowMs request.legacyPolicy
  obtain ⟨streamState, hstream, -⟩ := SnapshotState.streamActive_iff.1 hactive
  have hlimits : ¬ (request.maxRecords = 0 ∨ request.maxBytes = 0) := by omega
  have hconsumer := state.opened_getElem? request.consumerKey request.nowMs consumer
  have hstream' : (state.opened request.consumerKey request.nowMs
      consumer).streams[request.stream]? = some streamState := hstream
  have hselecting := Selecting.opened hwf hreleased hstream
    (max state.leaseClockMs request.nowMs)
    (.new request.stream request.consumer request.responseMember)
  have hmember := hreleased.filter_member request.member
  unfold applyGroupBatchPoll
  rw [if_neg hkind, if_neg hlimits, hactive]
  simp only [Bool.not_true, Bool.false_eq_true, if_false, hopen, Option.bind_eq_bind,
    Option.bind_some, Option.pure_def]
  rw [← SnapshotState.opened, hconsumer, hstream', Option.bind_some, Option.bind_some]
  split_ifs with hexisting
  · refine ⟨consumer, [], _, _, rfl, hreleased, .done _, fun hlive => ?_, fun _ => rfl⟩
    rw [hmember.trans hlive] at hexisting
    simp at hexisting
  · obtain ⟨selection, early, offsets, hloop, hdead, hfirst, hidle⟩ :=
      transitionLoop_spec htransition hselecting hrecords
    obtain ⟨hpending, rfl⟩ := groupBatchPollLoop_transitionOnly htransition hloop
    refine ⟨consumer, offsets, selection.state,
      .groupBatchPoll [] false selection.terminalTransitions, ?_, hreleased, hdead,
      fun _ => hfirst, hidle⟩
    rw [hloop]
    simp [hpending]

end Apply

end Runnel.Cluster
