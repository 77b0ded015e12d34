import Runnel.Cluster.History

/-!
# The progress of a consumer

A consumer's progress is kept in two places: in its group entry once it has one,
and in the map of the plain acknowledgements before that.
-/

namespace Runnel.Cluster

open Runnel.Engine GroupConsumerState Transition

/-- The committed offset that counts: the entry's where there is one, the plain one otherwise. -/
def SnapshotState.effectiveCommitted (state : SnapshotState) (key : ConsumerKey) : ℕ :=
  match state.groupConsumers[key]? with
  | some consumer => consumer.committedOffset
  | none => (state.consumers[key]?).getD 0

theorem SnapshotState.effectiveCommitted_eq (state : SnapshotState) (key : ConsumerKey) :
    state.effectiveCommitted key = (state.consumerOf key).committedOffset := by
  unfold SnapshotState.effectiveCommitted SnapshotState.consumerOf
  cases state.groupConsumers[key]? <;> rfl

def SnapshotState.Advances (before after : SnapshotState) : Prop :=
  ∀ key, before.effectiveCommitted key ≤ after.effectiveCommitted key

namespace SnapshotState.Advances

variable {before after : SnapshotState} {key : ConsumerKey} {nowMs : ℕ}

theorem refl (state : SnapshotState) : state.Advances state := fun _ => le_rfl

theorem trans {middle : SnapshotState} (h : before.Advances middle) (h' : middle.Advances after) :
    before.Advances after :=
  fun key => (h key).trans (h' key)

theorem of_consumer (hkey : (before.consumerOf key).committedOffset ≤
      (after.consumerOf key).committedOffset)
    (hother : ∀ other, key ≠ other → after.consumerOf other = before.consumerOf other) :
    before.Advances after := by
  intro other
  rw [effectiveCommitted_eq, effectiveCommitted_eq]
  by_cases hsame : key = other
  · subst hsame
    exact hkey
  · rw [hother other hsame]

theorem opened {consumer : GroupConsumerState}
    (h : (before.consumerOf key).committedOffset ≤ consumer.committedOffset) :
    before.Advances (before.opened key nowMs consumer) := by
  apply @of_consumer _ _ key
  · rw [consumerOf_opened, if_pos rfl]
    exact h
  · intro other hne
    rw [consumerOf_opened, if_neg hne]

end SnapshotState.Advances

section Acknowledging

variable {consumer : GroupConsumerState}

theorem committed_le_foldl (offsets : List ℕ) :
    consumer.committedOffset ≤
      (offsets.foldl acknowledgeGroupOffset consumer).committedOffset := by
  induction offsets generalizing consumer with
  | nil => exact le_rfl
  | cons head rest ih =>
    exact (acknowledgeGroupOffset_spec consumer head).committed_le.trans ih

theorem committed_assignAll (assignments : List Assignment) :
    (assignAll consumer assignments).committedOffset = consumer.committedOffset := by
  induction assignments generalizing consumer with
  | nil => rfl
  | cons head rest ih => exact ih

end Acknowledging

section Commands

variable {state after : SnapshotState} {response : CommandResponse} {kind : GroupKind}

theorem PollStep.advances {key : ConsumerKey} {nowMs : ℕ} {offsets : List ℕ}
    {assignments : List Assignment} (h : PollStep state key nowMs offsets assignments after) :
    state.Advances after := by
  obtain ⟨consumer, hreleased, hkey, hother, -, -⟩ := h.consumerOf
  apply SnapshotState.Advances.of_consumer _ hother
  rw [hkey, committed_assignAll, ← hreleased.same.committed]
  exact committed_le_foldl offsets

theorem applyGroupAck_advances (hwf : state.WellFormed) {request : GroupAckRequest}
    (happly : applyGroupAck state request kind = some (after, response)) :
    state.Advances after := by
  obtain hrefused | ⟨-, consumer, hreleased, hjudged⟩ := applyGroupAck_step hwf request kind
  · obtain ⟨rfl, -⟩ := applied_inj hrefused happly
    exact .refl _
  · obtain ⟨rfl, -⟩ := applied_inj hjudged happly
    apply SnapshotState.Advances.opened
    rw [← hreleased.same.committed]
    rcases acknowledge_cases consumer request with ⟨heq, -⟩ | ⟨heq, -⟩
    · rw [heq]
    · rw [heq]
      exact (acknowledgeGroupOffset_spec consumer request.offset).committed_le

theorem applyGroupBatchAck_advances (hwf : state.WellFormed) {request : GroupBatchAckRequest}
    (happly : applyGroupBatchAck state request kind = some (after, response)) :
    state.Advances after := by
  obtain hrefused | ⟨consumer, hreleased, hjudged⟩ := applyGroupBatchAck_step hwf request kind
  · obtain ⟨rfl, -⟩ := applied_inj hrefused happly
    exact .refl _
  · obtain ⟨rfl, -⟩ := applied_inj hjudged happly
    apply SnapshotState.Advances.opened
    rw [← hreleased.same.committed]
    exact committed_le_foldl _

theorem applyAck_advances (stream consumer : String) (offset : ℕ) :
    state.Advances (applyAck state stream consumer offset kind).1 := by
  unfold applyAck
  dsimp only
  split_ifs with hkind hactive hless hmore
  · exact .refl _
  · exact .refl _
  · exact .refl _
  · exact .refl _
  · intro key
    unfold SnapshotState.effectiveCommitted
    cases state.groupConsumers[key]? with
    | some entry => exact le_rfl
    | none =>
      dsimp only
      rw [Std.ExtTreeMap.getElem?_insert]
      split_ifs with hsame
      · rw [← Std.LawfulEqCmp.eq_of_compare hsame, Option.getD_some]
        omega
      · exact le_rfl

/-- The command is an accepted configuration that opens the entry of a consumer known by its
plain acknowledgements only. -/
def Command.OpensUnseeded (kind : GroupKind) (state : SnapshotState) : Command → Prop
  | .configureConsumer stream consumer ackTimeoutMs maxDeliveryAttempts retryDelayMs =>
    kind ≠ .metadata ∧ state.streamActive stream = true ∧
      validateConsumerPolicy ackTimeoutMs maxDeliveryAttempts retryDelayMs = .ok () ∧
      state.groupConsumers[(stream, consumer)]? = none ∧
      0 < (state.consumers[(stream, consumer)]?).getD 0
  | _ => False

theorem effectiveCommitted_configure (state : SnapshotState) (key : ConsumerKey)
    (policy : Option ConsumerPolicy) :
    (state.setConsumer key { (state.groupConsumers[key]?).getD {} with
      policy := policy }).effectiveCommitted key =
      ((state.groupConsumers[key]?).getD {}).committedOffset := by
  rw [SnapshotState.effectiveCommitted, SnapshotState.setConsumer_getElem?_self]

theorem applyConfigureConsumer_advances_iff (stream consumer : String) (ackTimeoutMs : ℕ)
    (maxDeliveryAttempts : Option ℕ) (retryDelayMs : ℕ) :
    state.Advances (applyConfigureConsumer state stream consumer ackTimeoutMs maxDeliveryAttempts
        retryDelayMs kind).1 ↔
      ¬ (Command.configureConsumer stream consumer ackTimeoutMs maxDeliveryAttempts
        retryDelayMs).OpensUnseeded kind state := by
  obtain ⟨heq, hrefused⟩ | ⟨⟨hkind, hactive, hvalid⟩, policy, heq⟩ := applyConfigureConsumer_cases
    state stream consumer ackTimeoutMs maxDeliveryAttempts retryDelayMs kind
  · rw [heq]
    refine iff_of_true (.refl _) ?_
    rintro ⟨hkind, hactive, hvalid, -⟩
    exact hrefused ⟨hkind, hactive, hvalid⟩
  · rw [heq]
    constructor
    · rintro hadvances ⟨-, -, -, hnone, hpos⟩
      have hfallen := hadvances (stream, consumer)
      rw [effectiveCommitted_configure, SnapshotState.effectiveCommitted, hnone] at hfallen
      exact absurd hfallen (not_le.2 hpos)
    · intro hseeded
      apply @SnapshotState.Advances.of_consumer _ _ (stream, consumer)
      · rw [← SnapshotState.effectiveCommitted_eq, ← SnapshotState.effectiveCommitted_eq,
          effectiveCommitted_configure]
        unfold SnapshotState.effectiveCommitted
        cases hentry : state.groupConsumers[(stream, consumer)]? with
        | some entry => exact le_rfl
        | none =>
          by_contra hpos
          exact hseeded ⟨hkind, hactive, hvalid, hentry, not_le.1 hpos⟩
      · intro other hne
        rw [consumerOf_setConsumer, if_neg hne]

theorem advances_of_frame {streams : BTreeMap String StreamState}
    {dedup : BTreeMap String (BTreeMap String ℕ)}
    (h : after = { state with streams := streams, dedup := dedup }) : state.Advances after := by
  subst h
  exact .refl state

/-- A command sets a consumer back exactly when it opens an entry that ignores the plain
progress. -/
theorem applyCommand_advances_iff [ToString LogId] {command : Command} {logId : LogId}
    (hwf : state.WellFormed)
    (happly : applyCommand state command kind logId = some (after, response)) :
    state.Advances after ↔ ¬ command.OpensUnseeded kind state := by
  have hkept : ∀ {command : Command}, state.Advances after →
      (command.OpensUnseeded kind state → False) →
      (state.Advances after ↔ ¬ command.OpensUnseeded kind state) :=
    fun hadvances hnot => iff_of_true hadvances hnot
  cases command with
  | createStream stream streamId groupId =>
    obtain ⟨streams, heq⟩ := applyCreateStream_eq state stream streamId groupId kind
    exact hkept (advances_of_frame
      ((congrArg Prod.fst (Option.some.inj happly)).symm.trans heq)) id
  | initializeDataStream stream streamId groupId =>
    obtain ⟨streams, heq⟩ := applyInitializeDataStream_eq state stream streamId groupId kind
    exact hkept (advances_of_frame
      ((congrArg Prod.fst (Option.some.inj happly)).symm.trans heq)) id
  | activateStream stream =>
    obtain ⟨streams, heq⟩ := applyActivateStream_eq state stream kind
    exact hkept (advances_of_frame
      ((congrArg Prod.fst (Option.some.inj happly)).symm.trans heq)) id
  | publish stream key payload publishedAtMs requestId =>
    obtain ⟨streams, dedup, heq⟩ :=
      applyPublish_eq state stream key payload publishedAtMs requestId kind
    exact hkept (advances_of_frame
      ((congrArg Prod.fst (Option.some.inj happly)).symm.trans heq)) id
  | ack stream consumer offset =>
    obtain rfl : _ = after := congrArg Prod.fst (Option.some.inj happly)
    exact hkept (applyAck_advances stream consumer offset) id
  | configureConsumer stream consumer ackTimeoutMs maxDeliveryAttempts retryDelayMs =>
    obtain rfl : _ = after := congrArg Prod.fst (Option.some.inj happly)
    exact applyConfigureConsumer_advances_iff stream consumer ackTimeoutMs maxDeliveryAttempts
      retryDelayMs
  | replay stream consumer offset =>
    obtain rfl : state = after := congrArg Prod.fst (Option.some.inj happly)
    exact hkept (.refl _) id
  | pollGroup request =>
    obtain ⟨found, _, happly', hstep⟩ := applyGroupPoll_step hwf request logId kind
    obtain ⟨rfl, -⟩ := applied_inj happly' happly
    obtain rfl | ⟨offsets, assignments, hpoll, -⟩ := hstep
    · exact hkept (.refl _) id
    · exact hkept hpoll.advances id
  | pollGroupBatch request =>
    obtain ⟨found, _, happly', hstep⟩ := applyGroupBatchPoll_step hwf request kind
    obtain ⟨rfl, -⟩ := applied_inj happly' happly
    obtain rfl | ⟨offsets, assignments, hpoll, -⟩ := hstep
    · exact hkept (.refl _) id
    · exact hkept hpoll.advances id
  | ackGroup request => exact hkept (applyGroupAck_advances hwf happly) id
  | ackGroupBatch request => exact hkept (applyGroupBatchAck_advances hwf happly) id

end Commands

theorem Run.advances [ToString LogId] {kind : GroupKind}
    {past : List (SnapshotState × Command × LogId)} {state : SnapshotState}
    (h : Run Empty (guarded (fun before entry => ¬ entry.1.OpensUnseeded kind before)
      (ApplyStep kind)) past state) :
    ∀ step ∈ past, step.1.Advances state := by
  induction h with
  | start => simp
  | next hrun hstep ih =>
    obtain ⟨hseeded, response, happly⟩ := hstep
    have hadvances := (applyCommand_advances_iff (Run.wellFormed hrun.of_guarded) happly).2 hseeded
    rintro step (_ | ⟨_, hmem⟩)
    · exact hadvances
    · exact (ih step hmem).trans hadvances

/-- From every reachable state a command keeps the progress of every consumer exactly when it
is not a configuration that opens the entry of a consumer with plain progress; so histories
without such configurations are monotone. -/
theorem progress_monotone_iff [ToString LogId] {source streamId groupId : String} :
    (∀ state entry after, Reachable (.data source streamId groupId) state →
      ApplyStep (.data source streamId groupId) state entry after →
      ((∀ key, state.effectiveCommitted key ≤ after.effectiveCommitted key) ↔
        ¬ entry.1.OpensUnseeded (.data source streamId groupId) state)) ∧
    ∀ past state, Run Empty (guarded (fun before entry =>
        ¬ entry.1.OpensUnseeded (.data source streamId groupId) before)
        (ApplyStep (.data source streamId groupId))) past state →
      ∀ step ∈ past, ∀ key, step.1.effectiveCommitted key ≤ state.effectiveCommitted key := by
  constructor
  · rintro state entry after ⟨past, hrun⟩ ⟨response, happly⟩
    exact applyCommand_advances_iff (Run.wellFormed hrun) happly
  · intro past state hrun
    exact Run.advances hrun

section Examples

open scoped LogId.Display

def acknowledgedOrder : List (Command × LogId) :=
  [(.initializeDataStream "orders" "stream/orders" "group/orders/data", ⟨1, 1, 1⟩),
   (.publish "orders" none [7] 3 none, ⟨1, 1, 2⟩),
   (.ack "orders" "billing" 0, ⟨1, 1, 3⟩)]

/-- Configuring the consumer afterwards sets it back to the first record. -/
theorem configured_consumer_falls_back :
    ∃ state after, Reachable (.data "orders" "stream/orders" "group/orders/data") state ∧
      ApplyStep (.data "orders" "stream/orders" "group/orders/data") state
        (.configureConsumer "orders" "billing" 1000 (some 3) 0, ⟨1, 1, 4⟩) after ∧
      state.effectiveCommitted ("orders", "billing") = 1 ∧
      after.effectiveCommitted ("orders", "billing") = 0 := by
  have hsome : (applyAll (.data "orders" "stream/orders" "group/orders/data") acknowledgedOrder
      {}).any fun state => state.effectiveCommitted ("orders", "billing") = 1 ∧
        (applyCommand state (.configureConsumer "orders" "billing" 1000 (some 3) 0)
          (.data "orders" "stream/orders" "group/orders/data") ⟨1, 1, 4⟩).any fun result =>
            result.1.effectiveCommitted ("orders", "billing") = 0 := by
    decide +kernel
  obtain ⟨state, hstate, hfacts⟩ := Option.any_eq_true _ _ |>.1 hsome
  obtain ⟨hbefore, hrest⟩ := of_decide_eq_true hfacts
  obtain ⟨⟨after, response⟩, hafter, hfallen⟩ := Option.any_eq_true _ _ |>.1 hrest
  exact ⟨state, after, reachable_of_applyAll hstate, ⟨response, hafter⟩, hbefore,
    of_decide_eq_true hfallen⟩

end Examples

end Runnel.Cluster
