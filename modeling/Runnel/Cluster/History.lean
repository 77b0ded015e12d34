import Runnel.Foundation.Transition
import Runnel.Cluster.CommandSpec

/-!
# Histories of a group

A history applies replicated commands to the empty state, one after the other.
Every reachable state is well formed, so no command panics, and the effect of a
command on the consumers is known.
-/

namespace Runnel.Cluster

open Runnel.Engine GroupConsumerState Transition

def ApplyStep [ToString LogId] (kind : GroupKind) (state : SnapshotState)
    (entry : Command × LogId) (after : SnapshotState) : Prop :=
  ∃ response, applyCommand state entry.1 kind entry.2 = some (after, response)

def Empty (state : SnapshotState) : Prop := state = {}

def Reachable [ToString LogId] (kind : GroupKind) (state : SnapshotState) : Prop :=
  ∃ past, Run Empty (ApplyStep kind) past state

/-- The receipts of a batch acknowledgement name different offsets. -/
def Command.DistinctReceipts : Command → Prop
  | .ackGroupBatch request => (request.receipts.map DeliveryReceipt.offset).Nodup
  | _ => True

section Acknowledging

variable {consumer : GroupConsumerState} {offsets : List ℕ}

theorem acknowledged_foldl {offset : ℕ} :
    (offsets.foldl acknowledgeGroupOffset consumer).Acknowledged offset ↔
      consumer.Acknowledged offset ∨ offset ∈ offsets := by
  induction offsets generalizing consumer with
  | nil => simp
  | cons head rest ih =>
    rw [List.foldl_cons, ih, (acknowledgeGroupOffset_spec consumer head).acknowledged_iff,
      List.mem_cons, or_assoc]

theorem mem_attempts_foldl {offset : ℕ}
    (h : offset ∈ (offsets.foldl acknowledgeGroupOffset consumer).deliveryAttempts) :
    offset ∈ consumer.deliveryAttempts ∧ offset ∉ offsets := by
  induction offsets generalizing consumer with
  | nil => simpa using h
  | cons head rest ih =>
    obtain ⟨hmem, hnot⟩ := ih h
    rw [(acknowledgeGroupOffset_spec consumer head).attempts, Std.ExtTreeMap.mem_erase, ne_eq,
      Nat.compare_eq_eq] at hmem
    exact ⟨hmem.2, by simp [hnot, Ne.symm hmem.1]⟩

theorem WellFormed.acknowledgeAll {messages : List StoredMessage}
    (h : WellFormed messages consumer) :
    WellFormed messages (offsets.foldl acknowledgeGroupOffset consumer) := by
  induction offsets generalizing consumer with
  | nil => exact h
  | cons head rest ih => exact ih (h.acknowledge head)

end Acknowledging

section Assigning

variable {consumer : GroupConsumerState} {assignments : List Assignment}

theorem acknowledged_assignAll (offset : ℕ) :
    (assignAll consumer assignments).Acknowledged offset ↔ consumer.Acknowledged offset := by
  induction assignments generalizing consumer with
  | nil => rfl
  | cons head rest ih => exact ih

variable {offset : ℕ}

theorem mem_attempts_assignAll :
    offset ∈ (assignAll consumer assignments).deliveryAttempts ↔
      offset ∈ consumer.deliveryAttempts ∨ ∃ a ∈ assignments, a.offset = offset := by
  induction assignments generalizing consumer with
  | nil => simp [assignAll]
  | cons head rest ih =>
    rw [assignAll, List.foldl_cons, ← assignAll, ih]
    simp only [GroupConsumerState.assign, Std.ExtTreeMap.mem_insert, Nat.compare_eq_eq,
      List.exists_mem_cons_iff]
    tauto

theorem mem_inFlight_assignAll :
    offset ∈ (assignAll consumer assignments).inFlight ↔
      offset ∈ consumer.inFlight ∨ ∃ a ∈ assignments, a.offset = offset := by
  induction assignments generalizing consumer with
  | nil => simp [assignAll]
  | cons head rest ih =>
    rw [assignAll, List.foldl_cons, ← assignAll, ih]
    simp only [GroupConsumerState.assign, Std.ExtTreeMap.mem_insert, Nat.compare_eq_eq,
      List.exists_mem_cons_iff]
    tauto

theorem retry_assignAll (h : ∀ a ∈ assignments, a.offset ≠ offset) :
    (assignAll consumer assignments).retryNotBefore[offset]? =
      consumer.retryNotBefore[offset]? := by
  induction assignments generalizing consumer with
  | nil => rfl
  | cons head rest ih =>
    obtain ⟨hhead, hrest⟩ := List.forall_mem_cons.1 h
    rw [assignAll, List.foldl_cons, ← assignAll, ih hrest]
    simp [GroupConsumerState.assign, Std.ExtTreeMap.getElem?_erase, hhead]

theorem WellFormed.assignAll {messages : List StoredMessage} {nowMs : ℕ}
    (h : WellFormed messages consumer)
    (hassignable : ∀ a ∈ assignments, Assignable messages consumer nowMs a) :
    WellFormed messages (assignAll consumer assignments) := by
  suffices hturns : ∀ current, WellFormed messages current →
      (∀ offset, current.Acknowledged offset ↔ consumer.Acknowledged offset) →
      WellFormed messages (Cluster.assignAll current assignments) from
    hturns consumer h fun _ => Iff.rfl
  induction assignments with
  | nil => exact fun current hcurrent _ => hcurrent
  | cons head rest ih =>
    obtain ⟨hhead, hrest⟩ := List.forall_mem_cons.1 hassignable
    intro current hcurrent hiff
    refine ih hrest _ (hcurrent.assign (hhead.inTurn.of_acknowledged
      (fun other => (hiff other).2) (mt (hiff head.offset).1 hhead.inTurn.pending))
      hhead.attempt_pos hhead.attempt_le hhead.key) hiff

end Assigning

variable {key : ConsumerKey} {after : SnapshotState}

theorem PollOutcome.wellFormed {terms : PollTerms} {before : SnapshotState}
    (h : PollOutcome key terms before after) (hwf : before.WellFormed) : after.WellFormed := by
  obtain ⟨offsets, middle, consumer, assignments, redeliveries, hdead, hget, hassignable, -, rfl⟩ :=
    h
  have hmiddle := hdead.wellFormed hwf
  exact (hmiddle.setConsumer ((hmiddle key consumer hget).assignAll hassignable)).grow rfl
    (fun _ => List.prefix_refl _)

variable {state : SnapshotState}

theorem Effect.wellFormed {command : Command}
    (h : Effect state command after) (hwf : state.WellFormed) : after.WellFormed := by
  cases h with
  | unchanged => exact hwf
  | streams hconsumers _ _ hgrow => exact hwf.grow hconsumers hgrow
  | ack => exact hwf.grow rfl (fun _ => List.prefix_refl _)
  | configure key policy _ =>
    refine hwf.setConsumer ?_
    cases hget : state.groupConsumers[key]? with
    | none => exact (Cluster.WellFormed.initial _ 0).setPolicy policy
    | some consumer => exact (hwf key consumer hget).setPolicy policy
  | poll _ _ hreleased houtcome => exact houtcome.wellFormed (hwf.opened hreleased)
  | acknowledge _ hreleased =>
    exact SnapshotState.WellFormed.setConsumer (hwf.observeLeaseClock _)
      ((hwf.consumerOf _).released hreleased).acknowledgeAll
  | tokenless _ hreleased =>
    exact SnapshotState.WellFormed.setConsumer (hwf.observeLeaseClock _)
      (((hwf.consumerOf _).released hreleased).acknowledge _)

section Consumers

variable {state : SnapshotState} {key other : ConsumerKey}

theorem consumerOf_setConsumer (state : SnapshotState) (key other : ConsumerKey)
    (consumer : GroupConsumerState) :
    (state.setConsumer key consumer).consumerOf other =
      if key = other then consumer else state.consumerOf other := by
  unfold SnapshotState.consumerOf
  rw [SnapshotState.setConsumer_getElem?]
  split_ifs <;> rfl

theorem consumerOf_opened (state : SnapshotState) (key other : ConsumerKey) (nowMs : ℕ)
    (consumer : GroupConsumerState) :
    (state.opened key nowMs consumer).consumerOf other =
      if key = other then consumer else state.consumerOf other :=
  consumerOf_setConsumer _ _ _ _

theorem consumerOf_of_getElem? {consumer : GroupConsumerState}
    (h : state.groupConsumers[key]? = some consumer) : state.consumerOf key = consumer := by
  rw [SnapshotState.consumerOf, h, Option.getD_some]

variable {after : SnapshotState}

/-- The consumers after a poll: one has acknowledged the dead-lettered records and holds the
assigned ones. -/
theorem PollOutcome.consumerOf {terms : PollTerms} {before : SnapshotState}
    (h : PollOutcome key terms before after) {consumer : GroupConsumerState}
    (hget : before.groupConsumers[key]? = some consumer) :
    ∃ offsets assignments middle,
      DeadLettered key terms before offsets middle ∧
      (∀ stream, after.messages stream = middle.messages stream) ∧
      after.consumerOf key =
        assignAll (offsets.foldl acknowledgeGroupOffset consumer) assignments ∧
      ∀ other, key ≠ other → after.consumerOf other = before.consumerOf other := by
  obtain ⟨offsets, middle, current, assignments, _, hdead, hcurrent, -, -, rfl⟩ := h
  have hconsumers := hdead.groupConsumers_eq hget
  have heq : current = offsets.foldl acknowledgeGroupOffset consumer := by
    rw [hconsumers, SnapshotState.setConsumer_getElem?_self] at hcurrent
    exact (Option.some.inj hcurrent).symm
  refine ⟨offsets, assignments, middle, hdead, fun _ => rfl, ?_, fun other hne => ?_⟩
  · rw [← heq]
    exact (consumerOf_setConsumer middle key key _).trans (if_pos rfl)
  · refine ((consumerOf_setConsumer middle key other _).trans (if_neg hne)).trans ?_
    unfold SnapshotState.consumerOf
    rw [hconsumers, SnapshotState.setConsumer_getElem?, if_neg hne, hdead.consumers_eq]

theorem PollStep.consumerOf {nowMs : ℕ} {offsets : List ℕ} {assignments : List Assignment}
    (h : PollStep state key nowMs offsets assignments after) :
    ∃ consumer, Released (max state.leaseClockMs nowMs) (state.consumerOf key) consumer ∧
      after.consumerOf key =
        assignAll (offsets.foldl acknowledgeGroupOffset consumer) assignments ∧
      (∀ other, key ≠ other → after.consumerOf other = state.consumerOf other) ∧
      offsets.Nodup ∧
      ∀ offset ∈ offsets, ¬ consumer.Acknowledged offset ∧
        offset < (state.messages key.1).length := by
  obtain ⟨consumer, terms, -, hreleased, middle, current, _, hmoves, hcurrent, -, -, rfl⟩ := h
  have hget := state.opened_getElem? key nowMs consumer
  have hconsumers := hmoves.deadLettered.groupConsumers_eq hget
  have heq : current = offsets.foldl acknowledgeGroupOffset consumer := by
    rw [hconsumers, SnapshotState.setConsumer_getElem?_self] at hcurrent
    exact (Option.some.inj hcurrent).symm
  obtain ⟨hnodup, hpending⟩ := hmoves.pending hget
  refine ⟨consumer, hreleased, ?_, ?_, hnodup, ?_⟩
  · rw [← heq]
    exact (consumerOf_setConsumer middle key key _).trans (if_pos rfl)
  · intro other hne
    refine ((consumerOf_setConsumer middle key other _).trans (if_neg hne)).trans ?_
    unfold SnapshotState.consumerOf
    rw [hconsumers, SnapshotState.setConsumer_getElem?, if_neg hne,
      hmoves.deadLettered.consumers_eq, SnapshotState.opened, SnapshotState.setConsumer_getElem?,
      if_neg hne]
    rfl
  · intro offset hmem
    refine ⟨hpending offset hmem, ?_⟩
    obtain ⟨moved, -, hall⟩ := hmoves.deadLettered.moved
    have hstored := List.mem_map_of_mem (f := fun offset =>
      ((state.opened key nowMs consumer).messages key.1)[offset]?) hmem
    rw [hall] at hstored
    obtain ⟨stored, -, hsome⟩ := List.mem_map.1 hstored
    exact (List.getElem?_eq_some_iff.1 hsome.symm).1

inductive ConsumerStep (state : SnapshotState) : Command → SnapshotState → Prop
  | kept {command : Command} {after : SnapshotState} :
      after.groupConsumers = state.groupConsumers → ConsumerStep state command after
  | configured {stream consumer : String} {ackTimeoutMs : ℕ} {maxDeliveryAttempts : Option ℕ}
      {retryDelayMs : ℕ} (policy : Option ConsumerPolicy) :
      ConsumerStep state
        (.configureConsumer stream consumer ackTimeoutMs maxDeliveryAttempts retryDelayMs)
        (state.setConsumer (stream, consumer)
          { (state.groupConsumers[(stream, consumer)]?).getD {} with policy := policy })
  | polled {command : Command} {key : ConsumerKey} {nowMs : ℕ} {offsets : List ℕ}
      {assignments : List Assignment} {after : SnapshotState} :
      command.poll? = some (key, nowMs) →
      PollStep state key nowMs offsets assignments after → ConsumerStep state command after
  | acknowledged {request : GroupAckRequest} {consumer : GroupConsumerState} :
      Released (max state.leaseClockMs request.nowMs) (state.consumerOf request.consumerKey)
        consumer →
      ConsumerStep state (.ackGroup request)
        (state.opened request.consumerKey request.nowMs (consumer.acknowledge request).1)
  | batchAcknowledged {request : GroupBatchAckRequest} {consumer : GroupConsumerState} :
      Released (max state.leaseClockMs request.nowMs) (state.consumerOf request.consumerKey)
        consumer →
      ConsumerStep state (.ackGroupBatch request)
        (state.opened request.consumerKey request.nowMs
          ((confirmedOffsets (request.outcomes consumer)).foldl acknowledgeGroupOffset consumer))

theorem applyCommand_consumerStep [ToString LogId] (hwf : state.WellFormed) {command : Command}
    {kind : GroupKind} {logId : LogId} {response : CommandResponse}
    (happly : applyCommand state command kind logId = some (after, response)) :
    ConsumerStep state command after := by
  cases command with
  | createStream stream streamId groupId =>
    obtain rfl : _ = after := congrArg Prod.fst (Option.some.inj happly)
    obtain ⟨streams, heq⟩ := applyCreateStream_eq state stream streamId groupId kind
    exact .kept (by rw [heq])
  | initializeDataStream stream streamId groupId =>
    obtain rfl : _ = after := congrArg Prod.fst (Option.some.inj happly)
    obtain ⟨streams, heq⟩ := applyInitializeDataStream_eq state stream streamId groupId kind
    exact .kept (by rw [heq])
  | activateStream stream =>
    obtain rfl : _ = after := congrArg Prod.fst (Option.some.inj happly)
    obtain ⟨streams, heq⟩ := applyActivateStream_eq state stream kind
    exact .kept (by rw [heq])
  | publish stream key payload publishedAtMs requestId =>
    obtain rfl : _ = after := congrArg Prod.fst (Option.some.inj happly)
    obtain ⟨streams, dedup, heq⟩ :=
      applyPublish_eq state stream key payload publishedAtMs requestId kind
    exact .kept (by rw [heq])
  | ack stream consumer offset =>
    obtain rfl : _ = after := congrArg Prod.fst (Option.some.inj happly)
    obtain ⟨consumers, heq⟩ := applyAck_eq state stream consumer offset kind
    exact .kept (by rw [heq])
  | configureConsumer stream consumer ackTimeoutMs maxDeliveryAttempts retryDelayMs =>
    obtain rfl : _ = after := congrArg Prod.fst (Option.some.inj happly)
    obtain ⟨heq, -⟩ | ⟨-, policy, heq⟩ := applyConfigureConsumer_cases state stream consumer
      ackTimeoutMs maxDeliveryAttempts retryDelayMs kind
    · exact .kept (by rw [heq])
    · rw [heq]
      exact .configured policy
  | replay stream consumer offset =>
    obtain rfl : state = after := congrArg Prod.fst (Option.some.inj happly)
    exact .kept rfl
  | pollGroup request =>
    obtain ⟨found, _, happly', hstep⟩ := applyGroupPoll_step hwf request logId kind
    obtain ⟨rfl, -⟩ := applied_inj happly' happly
    obtain rfl | ⟨offsets, assignments, hpoll, -⟩ := hstep
    · exact .kept rfl
    · exact .polled rfl hpoll
  | pollGroupBatch request =>
    obtain ⟨found, _, happly', hstep⟩ := applyGroupBatchPoll_step hwf request kind
    obtain ⟨rfl, -⟩ := applied_inj happly' happly
    obtain rfl | ⟨offsets, assignments, hpoll, -⟩ := hstep
    · exact .kept rfl
    · exact .polled rfl hpoll
  | ackGroup request =>
    obtain hrefused | ⟨-, consumer, hreleased, hjudged⟩ := applyGroupAck_step hwf request kind
    · obtain ⟨rfl, -⟩ := applied_inj hrefused happly
      exact .kept rfl
    · obtain ⟨rfl, -⟩ := applied_inj hjudged happly
      exact .acknowledged hreleased
  | ackGroupBatch request =>
    obtain hrefused | ⟨consumer, hreleased, hjudged⟩ := applyGroupBatchAck_step hwf request kind
    · obtain ⟨rfl, -⟩ := applied_inj hrefused happly
      exact .kept rfl
    · obtain ⟨rfl, -⟩ := applied_inj hjudged happly
      exact .batchAcknowledged hreleased

end Consumers

/-- Every stream of the group accepts work. -/
def SnapshotState.AllActive (state : SnapshotState) : Prop :=
  ∀ (stream : String) (streamState : StreamState),
    state.streams[stream]? = some streamState → streamState.isActive = true

theorem SnapshotState.AllActive.insert (h : state.AllActive)
    {stream : String} {streamState : StreamState} (hactive : streamState.isActive = true) :
    ({ state with streams := state.streams.insert stream streamState } :
      SnapshotState).AllActive := by
  intro other found hfound
  simp only [Std.ExtTreeMap.getElem?_insert, Std.LawfulEqCmp.compare_eq_iff_eq] at hfound
  split_ifs at hfound with heq
  · rw [← Option.some.inj hfound]
    exact hactive
  · exact h other found hfound

theorem DeadLettered.allActive {terms : PollTerms} {before : SnapshotState} {offsets : List ℕ}
    (h : DeadLettered key terms before offsets after) (hactive : before.AllActive) :
    after.AllActive := by
  induction h with
  | done => exact hactive
  | @move state next after consumer offset offsets _ _ _ _ _ _ hmoved _ ih =>
    refine ih fun stream streamState hget => ?_
    by_cases hname : stream = deadLetterStreamName key.1
    · rw [hname] at hget
      have htarget := hmoved.target streamState hget
      cases hold : state.streams[deadLetterStreamName key.1]? with
      | none =>
        rw [hold, Option.elim_none] at htarget
        simp [StreamState.isActive, htarget]
      | some old =>
        rw [hold, Option.elim_some] at htarget
        have holdActive := hactive _ old hold
        rwa [StreamState.isActive, htarget]
    · rw [hmoved.other stream hname] at hget
      exact hactive stream streamState hget

theorem PollStep.allActive {nowMs : ℕ} {offsets : List ℕ} {assignments : List Assignment}
    (h : PollStep state key nowMs offsets assignments after) (hactive : state.AllActive) :
    after.AllActive := by
  obtain ⟨consumer, terms, -, -, htrace⟩ := h
  obtain ⟨moved, middle, consumer', assigned, redeliveries, hdead, -, -, -, rfl⟩ :=
    htrace.outcome
  have hopened : (state.opened key nowMs consumer).AllActive := hactive
  exact hdead.allActive hopened

section Runs

variable [ToString LogId] {kind : GroupKind}

/-- The state after a command, if it does not panic. -/
def applyNext? (kind : GroupKind) (state : SnapshotState) (entry : Command × LogId) :
    Option SnapshotState :=
  (applyCommand state entry.1 kind entry.2).map Prod.fst

variable {state after : SnapshotState} {entry : Command × LogId}

theorem applyStep_of_applyNext?
    (h : applyNext? kind state entry = some after) : ApplyStep kind state entry after := by
  obtain ⟨⟨_, response⟩, happly, rfl⟩ := Option.map_eq_some_iff.1 h
  exact ⟨response, happly⟩

/-- Applies commands one after the other; `none` if one of them panics. -/
def applyAll (kind : GroupKind) (entries : List (Command × LogId)) (state : SnapshotState) :
    Option SnapshotState :=
  (follow (applyNext? kind) entries [] state).map Prod.snd

variable {entries : List (Command × LogId)}

theorem reachable_of_applyAll
    (h : applyAll kind entries {} = some after) : Reachable kind after := by
  obtain ⟨⟨past, _⟩, hfollow, rfl⟩ := Option.map_eq_some_iff.1 h
  exact ⟨past, .of_follow (fun _ _ _ _ => applyStep_of_applyNext?) (.start rfl) hfollow⟩

theorem reachable_getD (h : (applyAll kind entries {}).isSome) :
    Reachable kind ((applyAll kind entries {}).getD {}) := by
  obtain ⟨after, hafter⟩ := Option.isSome_iff_exists.1 h
  rw [hafter]
  exact reachable_of_applyAll hafter

theorem ApplyStep.effect (h : ApplyStep kind state entry after) (hwf : state.WellFormed) :
    Effect state entry.1 after := by
  obtain ⟨response, happly⟩ := h
  obtain ⟨after', response', happly', heffect⟩ := applyCommand_effect hwf entry.1 kind entry.2
  rw [happly', Option.some.injEq, Prod.mk.injEq] at happly
  exact happly.1 ▸ heffect

variable {past : List (SnapshotState × Command × LogId)}

theorem Run.wellFormed (h : Run Empty (ApplyStep kind) past state) : state.WellFormed := by
  refine h.invariant ?_ (fun state entry after hwf hstep => (hstep.effect hwf).wellFormed hwf)
  rintro _ rfl
  intro key consumer hget
  simp at hget

theorem guarded_run_of_follow {init : SnapshotState → Prop}
    {guard : SnapshotState → Command × LogId → Prop}
    {past' : List (SnapshotState × Command × LogId)}
    (h : Run init (guarded guard (ApplyStep kind)) past state)
    (hguard : ∀ entry ∈ entries, ∀ state, guard state entry)
    (hfollow : follow (applyNext? kind) entries past state = some (past', after)) :
    Run init (guarded guard (ApplyStep kind)) past' after := by
  refine h.of_follow (fun entry hentry state _ hnext => ?_) hfollow
  exact ⟨hguard entry hentry state, applyStep_of_applyNext? hnext⟩

theorem ApplyStep.allActive
    (h : ApplyStep kind state entry after) (hkind : kind ≠ .metadata) (hwf : state.WellFormed)
    (hactive : state.AllActive) : after.AllActive := by
  obtain ⟨command, logId⟩ := entry
  obtain ⟨response, happly⟩ := h
  cases command with
  | createStream stream streamId groupId =>
    rw [show after = (applyCreateStream state stream streamId groupId kind).1 from
      (congrArg Prod.fst (Option.some.inj happly)).symm]
    unfold applyCreateStream
    split
    · exact hactive
    · dsimp only
      split_ifs
      · exact hactive
      · exact hactive.insert (by simp [StreamState.isActive])
  | initializeDataStream stream streamId groupId =>
    rw [show after = (applyInitializeDataStream state stream streamId groupId kind).1 from
      (congrArg Prod.fst (Option.some.inj happly)).symm]
    unfold applyInitializeDataStream
    split
    · split_ifs
      · exact hactive
      · exact hactive
      · exact hactive.insert rfl
    · exact hactive
  | activateStream stream =>
    rw [show after = (applyActivateStream state stream kind).1 from
      (congrArg Prod.fst (Option.some.inj happly)).symm]
    unfold applyActivateStream
    split
    · exact hactive
    · split
      · exact hactive
      · exact hactive.insert rfl
  | publish stream key payload publishedAtMs requestId =>
    rw [show after = (applyPublish state stream key payload publishedAtMs requestId kind).1 from
      (congrArg Prod.fst (Option.some.inj happly)).symm]
    unfold applyPublish
    rw [if_neg hkind]
    dsimp only
    split
    · split
      · exact hactive
      · split_ifs <;> exact hactive
    · split_ifs with hclosed
      · exact hactive
      · exact hactive.insert (by simpa [StreamState.isActive] using hclosed)
  | ack stream consumer offset =>
    rw [show after = (applyAck state stream consumer offset kind).1 from
      (congrArg Prod.fst (Option.some.inj happly)).symm]
    obtain ⟨consumers, hconsumers⟩ := applyAck_eq state stream consumer offset kind
    rw [hconsumers]
    exact hactive
  | configureConsumer stream consumer ackTimeoutMs maxDeliveryAttempts retryDelayMs =>
    rw [show after = (applyConfigureConsumer state stream consumer ackTimeoutMs
        maxDeliveryAttempts retryDelayMs kind).1 from
      (congrArg Prod.fst (Option.some.inj happly)).symm]
    obtain ⟨heq, -⟩ | ⟨-, policy, heq⟩ := applyConfigureConsumer_cases state stream consumer
      ackTimeoutMs maxDeliveryAttempts retryDelayMs kind
    · rwa [heq]
    · rw [heq]
      exact hactive
  | replay stream consumer offset =>
    obtain ⟨rfl, -⟩ := Prod.mk.inj (Option.some.inj happly)
    exact hactive
  | pollGroup request =>
    obtain ⟨after', response', happly', hstep⟩ := applyGroupPoll_step hwf request logId kind
    obtain ⟨rfl, -⟩ := applied_inj happly' happly
    obtain rfl | ⟨offsets, assignments, hpoll, -⟩ := hstep
    · exact hactive
    · exact hpoll.allActive hactive
  | pollGroupBatch request =>
    obtain ⟨after', response', happly', hstep⟩ := applyGroupBatchPoll_step hwf request kind
    obtain ⟨rfl, -⟩ := applied_inj happly' happly
    obtain rfl | ⟨offsets, assignments, hpoll, -⟩ := hstep
    · exact hactive
    · exact hpoll.allActive hactive
  | ackGroup request =>
    obtain hrefused | ⟨-, consumer, hreleased, hjudged⟩ := applyGroupAck_step hwf request kind
    · obtain ⟨rfl, -⟩ := applied_inj hrefused happly
      exact hactive
    · obtain ⟨rfl, -⟩ := applied_inj hjudged happly
      exact hactive
  | ackGroupBatch request =>
    obtain hrefused | ⟨consumer, hreleased, hjudged⟩ := applyGroupBatchAck_step hwf request kind
    · obtain ⟨rfl, -⟩ := applied_inj hrefused happly
      exact hactive
    · obtain ⟨rfl, -⟩ := applied_inj hjudged happly
      exact hactive

theorem Run.allActive
    (h : Run Empty (ApplyStep kind) past state) (hkind : kind ≠ .metadata) : state.AllActive := by
  refine (h.invariant (I := fun state => state.WellFormed ∧ state.AllActive) ?_ ?_).2
  · rintro _ rfl
    exact ⟨Run.wellFormed (.start rfl : Run Empty (ApplyStep kind) [] {}), by
      intro stream streamState hget
      simp at hget⟩
  · intro state entry after hstate hstep
    exact ⟨(hstep.effect hstate.1).wellFormed hstate.1, hstep.allActive hkind hstate.1 hstate.2⟩

theorem Reachable.applyCommand_isSome (h : Reachable kind state)
    (command : Command) (logId : LogId) : (applyCommand state command kind logId).isSome := by
  obtain ⟨past, hrun⟩ := h
  obtain ⟨after, response, happly, -⟩ :=
    applyCommand_effect (Run.wellFormed hrun) command kind logId
  rw [happly]
  rfl

end Runs

end Runnel.Cluster
