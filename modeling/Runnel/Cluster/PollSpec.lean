import Runnel.Cluster.Effects

/-!
# Polls as dead-lettering followed by assignment

Both poll loops end, and what they leave is a run of dead-lettered records
followed by assignments of records in their turn.
-/

namespace Runnel.Cluster

open Runnel.Engine GroupConsumerState

theorem satAdd32_pos {a b : ℕ} (h : 0 < a + b) : 0 < satAdd32 a b := by
  unfold satAdd32 u32Max
  omega

theorem satAdd32_le (a b : ℕ) : satAdd32 a b ≤ u32Max := Nat.min_le_right _ _

theorem GroupConsumerState.nextAttempt_pos (consumer : GroupConsumerState) (offset : ℕ) :
    0 < consumer.nextAttempt offset := by
  unfold nextAttempt
  split
  · exact satAdd32_pos (by omega)
  · exact Nat.one_pos

theorem GroupConsumerState.nextAttempt_le (consumer : GroupConsumerState) (offset : ℕ) :
    consumer.nextAttempt offset ≤ u32Max := by
  unfold nextAttempt
  split
  · exact satAdd32_le _ _
  · unfold u32Max
    omega

theorem ite_redeliveries (p : Prop) [Decidable p] (state : SnapshotState) (n : ℕ) :
    (if p then { state with redeliveries := n } else state) =
      { state with redeliveries := if p then n else state.redeliveries } := by
  split_ifs <;> rfl

theorem assignable_of_candidate {messages : List StoredMessage} {consumer : GroupConsumerState}
    (hwf : WellFormed messages consumer) {nowMs : ℕ} {selectedOffsets : BTreeSet ℕ}
    {selectedKeys : BTreeSet String}
    (hselected : ∀ offset ∈ selectedOffsets, ∀ key, keyAt messages offset = some key →
      key ∈ selectedKeys)
    (a : Assignment) {stored : StoredMessage}
    (h : candidate consumer messages nowMs selectedOffsets selectedKeys = some (a.offset, stored))
    (hkey : a.delivery.key = stored.key) (hpos : 0 < a.delivery.deliveryAttempt)
    (hle : a.delivery.deliveryAttempt ≤ u32Max) : Assignable messages consumer nowMs a := by
  obtain ⟨hget, -, heligible, -⟩ := candidate_eq_some h
  obtain ⟨-, hflight, hretry, -, hkeys⟩ := eligible_iff.1 heligible
  refine ⟨inTurn_of_candidate hwf hselected h, hpos, hle, by simp [hkey, keyAt, hget], hflight,
    hretry, fun key hk => ?_⟩
  exact (hkeys key (hkey ▸ hk)).2

def GroupPollRequest.terms (request : GroupPollRequest) (nowMs : ℕ) : PollTerms :=
  ⟨nowMs, request.legacyPolicy, request.policyVersion⟩

def GroupBatchPollRequest.terms (request : GroupBatchPollRequest) (nowMs : ℕ) : PollTerms :=
  ⟨nowMs, request.legacyPolicy, request.policyVersion⟩

@[simp] theorem GroupPollRequest.terms_nowMs (request : GroupPollRequest) (nowMs : ℕ) :
    (request.terms nowMs).nowMs = nowMs := rfl

@[simp] theorem GroupBatchPollRequest.terms_nowMs (request : GroupBatchPollRequest) (nowMs : ℕ) :
    (request.terms nowMs).nowMs = nowMs := rfl

/-- What a poll does to the state once the expired leases are observed. -/
def PollOutcome (key : ConsumerKey) (terms : PollTerms) (before after : SnapshotState) : Prop :=
  ∃ (offsets : List ℕ) (middle : SnapshotState) (consumer : GroupConsumerState)
    (assignments : List Assignment) (redeliveries : ℕ),
    DeadLettered key terms before offsets middle ∧
    middle.groupConsumers[key]? = some consumer ∧
    (∀ a ∈ assignments, Assignable (middle.messages key.1) consumer terms.nowMs a) ∧
    assignments.Pairwise (·.offset ≠ ·.offset) ∧
    after = { middle.setConsumer key (assignAll consumer assignments) with
      redeliveries := redeliveries }

/-- A poll with the records it moves away, in order, and the ones it assigns. -/
def PollTrace (key : ConsumerKey) (terms : PollTerms) (before : SnapshotState) (offsets : List ℕ)
    (assignments : List Assignment) (after : SnapshotState) : Prop :=
  ∃ (middle : SnapshotState) (consumer : GroupConsumerState) (redeliveries : ℕ),
    Moves key terms before offsets middle ∧
    middle.groupConsumers[key]? = some consumer ∧
    (∀ a ∈ assignments, Assignable (middle.messages key.1) consumer terms.nowMs a) ∧
    assignments.Pairwise (·.offset ≠ ·.offset) ∧
    after = { middle.setConsumer key (assignAll consumer assignments) with
      redeliveries := redeliveries }

namespace PollTrace

variable {key : ConsumerKey} {terms : PollTerms} {before after : SnapshotState}
  {offsets : List ℕ} {assignments : List Assignment}

theorem outcome (h : PollTrace key terms before offsets assignments after) :
    PollOutcome key terms before after := by
  obtain ⟨middle, consumer, redeliveries, hmoves, hrest⟩ := h
  exact ⟨offsets, middle, consumer, assignments, redeliveries, hmoves.deadLettered, hrest⟩

theorem of_moves {consumer : GroupConsumerState} (h : Moves key terms before offsets after)
    (hget : after.groupConsumers[key]? = some consumer) :
    PollTrace key terms before offsets [] after := by
  refine ⟨after, consumer, after.redeliveries, h, hget, by simp, .nil, ?_⟩
  rw [assignAll, List.foldl_nil, SnapshotState.setConsumer_self hget]

theorem after_moves {middle : SnapshotState} {moved : List ℕ}
    (h : Moves key terms before moved middle)
    (h' : PollTrace key terms middle offsets assignments after) :
    PollTrace key terms before (moved ++ offsets) assignments after := by
  obtain ⟨last, consumer, redeliveries, hmoves, hrest⟩ := h'
  exact ⟨last, consumer, redeliveries, h.trans hmoves, hrest⟩

end PollTrace

theorem moves_candidate {state : SnapshotState} (hwf : state.WellFormed)
    {key : ConsumerKey} {consumer : GroupConsumerState} {terms : PollTerms}
    (hconsumer : state.groupConsumers[key]? = some consumer)
    {selectedOffsets : BTreeSet ℕ} {selectedKeys : BTreeSet String}
    (hselected : ∀ offset ∈ selectedOffsets, ∀ k, keyAt (state.messages key.1) offset = some k →
      k ∈ selectedKeys)
    {offset : ℕ} {stored : StoredMessage}
    (h : candidate consumer (state.messages key.1) terms.nowMs selectedOffsets selectedKeys =
      some (offset, stored))
    (hexhausted : consumer.exhaustedAt terms offset = true)
    (hlive : isDeadLetterStream state key.1 = false) :
    ∃ next, state.moveToDeadLetter key offset = some next ∧
      Moves key terms state [offset] next ∧ next.WellFormed ∧
      next.groupConsumers[key]? = some (consumer.acknowledgeGroupOffset offset) ∧
      next.streams[key.1]? = state.streams[key.1]? ∧
      isDeadLetterStream next key.1 = false := by
  obtain ⟨hget, -, heligible, -⟩ := candidate_eq_some h
  obtain ⟨-, hflight, hretry, -, -⟩ := eligible_iff.1 heligible
  obtain ⟨next, hmove, hmoved⟩ := moveToDeadLetter_spec hconsumer hget
  refine ⟨next, hmove, .move hconsumer
    (inTurn_of_candidate (hwf key consumer hconsumer) hselected h)
    hflight hretry hexhausted hlive hmove (.done _), hmoved.wellFormed hwf, ?_,
    hmoved.stream_eq hlive, hmoved.isDeadLetterStream_eq hlive⟩
  obtain ⟨consumer', hconsumer', hconsumers⟩ := hmoved.consumer
  obtain rfl : consumer' = consumer := Option.some.inj (hconsumer'.symm.trans hconsumer)
  rw [hconsumers, SnapshotState.setConsumer_getElem?_self]

/-- The scalar poll ends, and assigns at most one record, under the token of the command. -/
theorem groupPollLoop_spec (request : GroupPollRequest) (token : String) (nowMs : ℕ) (fuel : ℕ)
    {state : SnapshotState} (hwf : state.WellFormed) {consumer : GroupConsumerState}
    (hconsumer : state.groupConsumers[request.consumerKey]? = some consumer)
    {streamState : StreamState} (hstream : state.streams[request.stream]? = some streamState)
    (hfuel : (pendingOffsets streamState.messages consumer ∅).card < fuel) :
    ∃ after response offsets assignments,
      groupPollLoop request token nowMs fuel state = some (after, response) ∧
      PollTrace request.consumerKey (request.terms nowMs) state offsets assignments after ∧
      assignments.length ≤ 1 ∧
      ∀ a ∈ assignments, a.delivery.member = request.member ∧ a.delivery.deliveryToken = token := by
  induction fuel generalizing state consumer with
  | zero => omega
  | succ fuel ih =>
    have hmessages : state.messages request.consumerKey.1 = streamState.messages :=
      SnapshotState.messages_of_getElem? hstream
    have hwf' : WellFormed streamState.messages consumer :=
      hmessages ▸ hwf request.consumerKey consumer hconsumer
    rw [groupPollLoop, hconsumer, hstream]
    simp only [Option.bind_eq_bind, Option.bind_some, Option.pure_def]
    cases hcandidate : candidate consumer streamState.messages nowMs ∅ ∅ with
    | none => exact ⟨state, _, [], [], rfl, .of_moves (.done _) hconsumer, by simp, by simp⟩
    | some found =>
      obtain ⟨offset, stored⟩ := found
      obtain ⟨policy, hpolicy⟩ := hwf'.exists_policy offset request.legacyPolicy
        request.policyVersion
      simp only [hpolicy, Option.bind_some]
      by_cases hterminal : (policy.exhausted (consumer.attempts offset) &&
          !isDeadLetterStream state request.stream) = true
      · -- Exhausted: the record moves away and the search goes on.
        have hlive : isDeadLetterStream state request.consumerKey.1 = false :=
          Bool.not_eq_true' _ ▸ (Bool.and_eq_true_iff.1 hterminal).2
        have hexhausted : consumer.exhaustedAt (request.terms nowMs) offset = true := by
          simpa [exhaustedAt, GroupPollRequest.terms, hpolicy] using
            (Bool.and_eq_true_iff.1 hterminal).1
        obtain ⟨next, hmove, hmoves, hnext, hconsumer', hstream', -⟩ :=
          moves_candidate hwf hconsumer (by simp) (hmessages ▸ hcandidate) hexhausted hlive
        have hturn := inTurn_of_candidate hwf' (by simp) hcandidate
        have hfewer := card_pendingOffsets_acknowledge hturn.stored hturn.pending
          Std.ExtTreeSet.not_mem_empty
        obtain ⟨after, response, offsets, assignments, hloop, htrace, hissued⟩ :=
          ih hnext hconsumer'
          (hstream'.trans hstream) (hfewer.trans_le (Nat.lt_succ_iff.1 hfuel))
        refine ⟨after, response, offset :: offsets, assignments, ?_, .after_moves hmoves htrace,
          hissued⟩
        rw [if_pos hterminal, hmove]
        exact hloop
      · rw [if_neg hterminal]
        refine ⟨_, _, [], [⟨offset, policy, request.delivery stored.key
          (consumer.nextAttempt offset) token policy nowMs⟩], rfl, ⟨state, consumer, _, .done _,
          hconsumer, ?_, List.pairwise_singleton _ _, ite_redeliveries _ _ _⟩, by simp, ?_⟩
        case refine_2 =>
          intro a ha
          obtain rfl := List.mem_singleton.1 ha
          exact ⟨rfl, rfl⟩
        intro a ha
        obtain rfl := List.mem_singleton.1 ha
        rw [hmessages]
        exact assignable_of_candidate hwf' (by simp) _ hcandidate rfl
          (consumer.nextAttempt_pos offset)
          (consumer.nextAttempt_le offset)

theorem GroupConsumerState.attempts_acknowledge (consumer : GroupConsumerState) {offset other : ℕ}
    (hne : other ≠ offset) :
    (consumer.acknowledgeGroupOffset offset).attempts other = consumer.attempts other := by
  unfold attempts
  rw [(acknowledgeGroupOffset_spec consumer offset).attempts, Std.ExtTreeMap.getElem?_erase]
  simp [Ne.symm hne]

theorem GroupConsumerState.exhaustedAt_acknowledge (consumer : GroupConsumerState)
    (terms : PollTerms) {offset other : ℕ} (hne : other ≠ offset)
    (hpending : ¬ consumer.Acknowledged other) :
    (consumer.acknowledgeGroupOffset offset).exhaustedAt terms other =
      consumer.exhaustedAt terms other := by
  have hspec := acknowledgeGroupOffset_spec consumer offset
  simp only [exhaustedAt, groupPolicyForOffset, attempts_acknowledge consumer hne,
    hspec.policies other hne hpending, hspec.policy]

theorem Assignable.acknowledge {messages : List StoredMessage} {consumer : GroupConsumerState}
    {nowMs : ℕ} {a : Assignment} (h : Assignable messages consumer nowMs a) {offset : ℕ}
    (hne : a.offset ≠ offset) :
    Assignable messages (consumer.acknowledgeGroupOffset offset) nowMs a := by
  have hspec := acknowledgeGroupOffset_spec consumer offset
  refine ⟨h.inTurn.of_acknowledged (fun other h => (hspec.acknowledged_iff other).2 (Or.inl h)) ?_,
    h.attempt_pos, h.attempt_le, h.key, ?_, ?_, fun key hkey => ⟨?_, ?_⟩⟩
  · rw [hspec.acknowledged_iff]
    rintro (hacked | heq)
    · exact h.inTurn.pending hacked
    · exact hne heq
  · rw [hspec.inFlight, Std.ExtTreeMap.mem_erase]
    exact fun hmem => h.notInFlight hmem.2
  · rw [mem_retryFilter_offsets]
    rintro ⟨schedule, hget, hlater⟩
    exact h.notWaiting (mem_retryFilter_offsets.2
      ⟨schedule, (hspec.retry_subset _ _ hget).2, hlater⟩)
  · rw [mem_retryFilter_keys]
    rintro ⟨other, schedule, hget, hk, hlater⟩
    exact (h.keyFree key hkey).1 (mem_retryFilter_keys.2
      ⟨other, schedule, (hspec.retry_subset _ _ hget).2, hk, hlater⟩)
  · rw [keyInFlight_iff]
    rintro ⟨other, delivery, hget, hk⟩
    rw [hspec.inFlight, Std.ExtTreeMap.getElem?_erase] at hget
    split_ifs at hget
    exact (h.keyFree key hkey).2 (keyInFlight_iff.2 ⟨other, delivery, hget, hk⟩)

def PendingDelivery.assignment (pending : PendingDelivery) : Assignment :=
  ⟨pending.message.offset, pending.policy, pending.delivery⟩

/-- The loop invariant of the batch: what is selected is assignable to the consumer. -/
structure Selecting (key : ConsumerKey) (nowMs : ℕ) (streamState : StreamState)
    (selection : BatchSelection) (consumer : GroupConsumerState) : Prop where
  wellFormed : selection.state.WellFormed
  getConsumer : selection.state.groupConsumers[key]? = some consumer
  getStream : selection.state.streams[key.1]? = some streamState
  selected : ∀ offset : ℕ, offset ∈ selection.selectedOffsets ↔
    ∃ p ∈ selection.pending, p.message.offset = offset
  keys : ∀ offset ∈ selection.selectedOffsets, ∀ k, keyAt streamState.messages offset = some k →
    k ∈ selection.selectedKeys
  assignable : ∀ p ∈ selection.pending,
    Assignable streamState.messages consumer nowMs p.assignment
  attempt : ∀ p ∈ selection.pending,
    p.delivery.deliveryAttempt = satAdd32 (consumer.attempts p.message.offset) 1
  distinct : selection.pending.Pairwise (·.message.offset ≠ ·.message.offset)

namespace Selecting

variable {key : ConsumerKey} {nowMs : ℕ} {streamState : StreamState} {selection : BatchSelection}
  {consumer : GroupConsumerState}

theorem messages_eq (h : Selecting key nowMs streamState selection consumer) :
    selection.state.messages key.1 = streamState.messages :=
  SnapshotState.messages_of_getElem? h.getStream

theorem wellFormed_consumer (h : Selecting key nowMs streamState selection consumer) :
    WellFormed streamState.messages consumer :=
  h.messages_eq ▸ h.wellFormed key consumer h.getConsumer

theorem move (h : Selecting key nowMs streamState selection consumer) {offset : ℕ}
    (hnot : offset ∉ selection.selectedOffsets) {next : SnapshotState} (hnext : next.WellFormed)
    (hconsumer : next.groupConsumers[key]? = some (consumer.acknowledgeGroupOffset offset))
    (hstream : next.streams[key.1]? = selection.state.streams[key.1]?) (transitions : ℕ) :
    Selecting key nowMs streamState
      { selection with state := next, terminalTransitions := transitions }
      (consumer.acknowledgeGroupOffset offset) where
  wellFormed := hnext
  getConsumer := hconsumer
  getStream := hstream.trans h.getStream
  selected := h.selected
  keys := h.keys
  assignable p hp := by
    refine (h.assignable p hp).acknowledge fun heq => hnot ((h.selected offset).2 ⟨p, hp, heq⟩)
  attempt p hp := by
    rw [attempts_acknowledge]
    · exact h.attempt p hp
    · exact fun heq => hnot ((h.selected offset).2 ⟨p, hp, heq⟩)
  distinct := h.distinct

theorem select (h : Selecting key nowMs streamState selection consumer) {offset : ℕ}
    {stored : StoredMessage}
    (hcandidate : candidate consumer streamState.messages nowMs selection.selectedOffsets
      selection.selectedKeys = some (offset, stored))
    (pending : PendingDelivery) (hoffset : pending.message.offset = offset)
    (hkey : pending.delivery.key = stored.key)
    (hattempt : pending.delivery.deliveryAttempt = satAdd32 (consumer.attempts offset) 1)
    (sizer : PollBatchResponseSizer) :
    Selecting key nowMs streamState
      { selection with
        sizer := sizer
        selectedOffsets := selection.selectedOffsets.insert offset
        selectedKeys := match stored.key with
          | some key => selection.selectedKeys.insert key
          | none => selection.selectedKeys
        pending := selection.pending ++ [pending] } consumer := by
  obtain ⟨hget, -, heligible, -⟩ := candidate_eq_some hcandidate
  obtain ⟨-, -, -, hnot, -⟩ := eligible_iff.1 heligible
  refine ⟨h.wellFormed, h.getConsumer, h.getStream, fun other => ?_, fun other hmem k hk => ?_,
    fun p hp => ?_, fun p hp => ?_, ?_⟩
  · simp only [Std.ExtTreeSet.mem_insert, Nat.compare_eq_eq, h.selected, List.mem_append,
      List.mem_singleton, or_and_right, exists_or, exists_eq_left, hoffset]
    exact or_comm
  · simp only [Std.ExtTreeSet.mem_insert, Nat.compare_eq_eq] at hmem
    rcases hmem with rfl | hmem
    · have hk' : stored.key = some k := by simpa [keyAt, hget] using hk
      simp [hk']
    · have hold := h.keys other hmem k hk
      cases stored.key <;> simp [hold]
  · rcases List.mem_append.1 hp with hp | hp
    · exact h.assignable p hp
    · obtain rfl := List.mem_singleton.1 hp
      have hcandidate' : candidate consumer streamState.messages nowMs selection.selectedOffsets
          selection.selectedKeys = some (p.assignment.offset, stored) := by
        rw [hcandidate, ← hoffset]
        rfl
      refine assignable_of_candidate h.wellFormed_consumer h.keys _ hcandidate' hkey ?_ ?_
      · exact hattempt ▸ satAdd32_pos (by omega)
      · exact hattempt ▸ satAdd32_le _ _
  · rcases List.mem_append.1 hp with hp | hp
    · exact h.attempt p hp
    · obtain rfl := List.mem_singleton.1 hp
      rw [hattempt, hoffset]
  · refine List.pairwise_append.2 ⟨h.distinct, List.pairwise_singleton _ _, fun p hp q hq => ?_⟩
    obtain rfl := List.mem_singleton.1 hq
    rw [hoffset]
    exact fun heq => hnot ((h.selected offset).2 ⟨p, hp, heq⟩)

end Selecting

/-- The delivery goes to the member of the request, under a token of the batch. -/
def GroupBatchPollRequest.Issues (request : GroupBatchPollRequest) (pending : PendingDelivery) :
    Prop :=
  pending.delivery.member = request.member ∧
    pending.delivery.deliveryToken = request.token pending.message.offset

theorem groupBatchPollLoop_spec (request : GroupBatchPollRequest) (nowMs : ℕ) (fuel : ℕ)
    {selection : BatchSelection} {consumer : GroupConsumerState} {streamState : StreamState}
    (h : Selecting request.consumerKey nowMs streamState selection consumer)
    (hissues : ∀ p ∈ selection.pending, request.Issues p)
    (hfuel : (pendingOffsets streamState.messages consumer selection.selectedOffsets).card < fuel) :
    ∃ selection' early consumer' offsets,
      groupBatchPollLoop request nowMs fuel selection = some (selection', early) ∧
      Moves request.consumerKey (request.terms nowMs) selection.state offsets selection'.state ∧
      Selecting request.consumerKey nowMs streamState selection' consumer' ∧
      ∀ p ∈ selection'.pending, request.Issues p := by
  induction fuel generalizing selection consumer with
  | zero => omega
  | succ fuel ih =>
    have hstream : selection.state.streams[request.stream]? = some streamState := h.getStream
    rw [groupBatchPollLoop]
    by_cases hroom : selection.pending.length < request.maxRecords ∧
        selection.sizer.encodedLen < request.maxBytes
    case neg =>
      rw [if_neg hroom]
      exact ⟨selection, none, consumer, [], rfl, .done _, h, hissues⟩
    rw [if_pos hroom, h.getConsumer, hstream]
    simp only [Option.bind_eq_bind, Option.bind_some, Option.pure_def]
    cases hcandidate : candidate consumer streamState.messages nowMs selection.selectedOffsets
        selection.selectedKeys with
    | none => exact ⟨selection, none, consumer, [], rfl, .done _, h, hissues⟩
    | some found =>
      obtain ⟨offset, stored⟩ := found
      obtain ⟨policy, hpolicy⟩ := h.wellFormed_consumer.exists_policy offset request.legacyPolicy
        request.policyVersion
      have hturn := inTurn_of_candidate h.wellFormed_consumer h.keys hcandidate
      have hnot := (eligible_iff.1 (candidate_eq_some hcandidate).2.2.1).2.2.2.1
      simp only [hpolicy, Option.bind_some]
      by_cases hterminal : (policy.exhausted (consumer.attempts offset) &&
          !isDeadLetterStream selection.state request.stream) = true
      · have hlive : isDeadLetterStream selection.state request.consumerKey.1 = false :=
          Bool.not_eq_true' _ ▸ (Bool.and_eq_true_iff.1 hterminal).2
        have hexhausted : consumer.exhaustedAt (request.terms nowMs) offset = true := by
          simpa [exhaustedAt, GroupBatchPollRequest.terms, hpolicy] using
            (Bool.and_eq_true_iff.1 hterminal).1
        obtain ⟨next, hmove, hmoves, hnext, hconsumer', hstream', -⟩ :=
          moves_candidate h.wellFormed h.getConsumer (h.messages_eq ▸ h.keys)
            (h.messages_eq ▸ hcandidate) hexhausted hlive
        have hfewer := card_pendingOffsets_acknowledge hturn.stored hturn.pending hnot
        obtain ⟨selection', early, consumer', offsets, hloop, hmoves', hselecting⟩ :=
          ih (h.move hnot hnext hconsumer' hstream' (selection.terminalTransitions + 1)) hissues
            (hfewer.trans_le (Nat.lt_succ_iff.1 hfuel))
        refine ⟨selection', early, consumer', offset :: offsets, ?_, hmoves.trans hmoves',
          hselecting⟩
        rw [if_pos hterminal, hmove]
        exact hloop
      · rw [if_neg hterminal]
        split_ifs with htransition hlarge hempty
        · exact ⟨selection, none, consumer, [], rfl, .done _, h, hissues⟩
        · exact ⟨selection, _, consumer, [], rfl, .done _, h, hissues⟩
        · exact ⟨_, none, consumer, [], rfl, .done _, ⟨h.wellFormed, h.getConsumer, h.getStream,
            h.selected, h.keys, h.assignable, h.attempt, h.distinct⟩, hissues⟩
        · obtain ⟨selection', early, consumer', offsets, hloop, hmoves, hselecting⟩ :=
            ih (h.select hcandidate
                ⟨request.message offset stored (request.token offset)
                    (satAdd32 (consumer.attempts offset) 1),
                  request.delivery offset stored.key (satAdd32 (consumer.attempts offset) 1)
                    policy nowMs, policy⟩ rfl rfl rfl (selection.sizer.push _))
              (List.forall_mem_append.2 ⟨hissues, by simp [GroupBatchPollRequest.Issues,
                GroupBatchPollRequest.delivery, GroupBatchPollRequest.message]⟩)
              (lt_of_lt_of_le (card_pendingOffsets_lt hturn.stored hturn.pending hnot
                (fun _ h => h) (fun _ h => Std.ExtTreeSet.mem_insert.2 (Or.inr h))
                (Or.inr Std.ExtTreeSet.mem_insert_self)) (Nat.lt_succ_iff.1 hfuel))
          exact ⟨selection', early, consumer', offsets, hloop, hmoves, hselecting⟩

end Runnel.Cluster
