import Runnel.Foundation.Text
import Runnel.Cluster.History

/-!
# Delivery tokens fence acknowledgements

A delivery in flight is the one that the most recent assignment of its offset
issued, and it has been in flight ever since.
-/

namespace Runnel.Cluster

open Runnel.Engine GroupConsumerState Transition

structure PresentedReceipt where
  key : ConsumerKey
  member : String
  receipt : DeliveryReceipt
deriving DecidableEq

/-- The receipts of an acknowledgement that its response accepts or confirms. -/
def acceptedBy : Command → CommandResponse → List PresentedReceipt
  | .ackGroup request, .groupAcknowledged =>
    [⟨request.consumerKey, request.member, ⟨request.offset, request.deliveryToken⟩⟩]
  | .ackGroupBatch request, .groupBatchAcknowledged result =>
    ((request.receipts.zip result.outcomes).filter fun item => item.2.outcome = .confirmed).map
      fun item => ⟨request.consumerKey, request.member, item.1⟩
  | _, _ => []

def Command.acknowledgesGroup : Command → Bool
  | .ackGroup _ => true
  | .ackGroupBatch _ => true
  | _ => false

def Command.tokenSeed? : Command → Option String
  | .pollGroupBatch request => some request.tokenSeed
  | _ => none

/-- The delivery that a poll of a history put in flight at an offset. -/
def assignedBy [ToString LogId] (kind : GroupKind) (key : ConsumerKey) (offset : ℕ)
    (step : SnapshotState × Command × LogId) : Option GroupDelivery :=
  step.2.1.poll?.bind fun polled =>
    (applyCommand step.1 step.2.1 kind step.2.2).bind fun result =>
      if polled.1 = key ∧ (result.1.consumerOf key).inFlight[offset]? ≠
          (step.1.consumerOf key).inFlight[offset]?
      then (result.1.consumerOf key).inFlight[offset]?
      else none

/-- Log positions and batch seeds occur once, and no seed looks like the token of a scalar
poll. -/
structure DistinctTokens (entries : List (Command × LogId)) : Prop where
  logIds : (entries.map Prod.snd).Nodup
  seeds : (entries.filterMap fun entry => entry.1.tokenSeed?).Nodup
  notScalar : ∀ entry ∈ entries, ∀ seed, entry.1.tokenSeed? = some seed →
    ¬ "raft-".toList <+: seed.toList

/-- What the printed form of log positions is assumed to be: different for different positions,
with a dash between its parts. -/
structure LogIdText [ToString LogId] : Prop where
  injective : Function.Injective (toString : LogId → String)
  dash : ∀ logId : LogId, '-' ∈ (toString logId).toList

section InFlight

variable {consumer : GroupConsumerState} {offset : ℕ} {delivery : GroupDelivery}

theorem inFlight_of_foldl {offsets : List ℕ}
    (h : (offsets.foldl acknowledgeGroupOffset consumer).inFlight[offset]? = some delivery) :
    consumer.inFlight[offset]? = some delivery := by
  induction offsets generalizing consumer with
  | nil => exact h
  | cons head rest ih =>
    have hget := ih h
    rw [(acknowledgeGroupOffset_spec consumer head).inFlight, Std.ExtTreeMap.getElem?_erase] at hget
    split_ifs at hget
    exact hget

theorem inFlight_of_assignAll {assignments : List Assignment}
    (h : (assignAll consumer assignments).inFlight[offset]? = some delivery) :
    consumer.inFlight[offset]? = some delivery ∨
      ∃ a ∈ assignments, a.offset = offset ∧ a.delivery = delivery := by
  induction assignments generalizing consumer with
  | nil => exact Or.inl h
  | cons head rest ih =>
    rw [assignAll, List.foldl_cons, ← assignAll] at h
    rcases ih h with hget | ⟨a, ha, hfound⟩
    · simp only [GroupConsumerState.assign, Std.ExtTreeMap.getElem?_insert,
        Nat.compare_eq_eq] at hget
      split_ifs at hget with hsame
      · exact Or.inr ⟨head, List.mem_cons_self, hsame, Option.some.inj hget⟩
      · exact Or.inl hget
    · exact Or.inr ⟨a, List.mem_cons_of_mem _ ha, hfound⟩

theorem GroupConsumerState.Released.inFlight_of {nowMs : ℕ} {before : GroupConsumerState}
    (h : Released nowMs before consumer) (hget : consumer.inFlight[offset]? = some delivery) :
    before.inFlight[offset]? = some delivery ∧ nowMs < delivery.deadlineMs := by
  rw [h.inFlight] at hget
  obtain ⟨hbefore, hlive⟩ := Option.filter_eq_some_iff.1 hget
  simp only [leaseExpired, Bool.not_eq_true', decide_eq_false_iff_not] at hlive
  exact ⟨hbefore, Nat.lt_of_not_le hlive⟩

end InFlight

section Steps

variable {state after : SnapshotState} {command : Command} {key : ConsumerKey} {offset : ℕ}
  {delivery : GroupDelivery}

theorem SnapshotState.WellFormed.pending_of_inFlight (h : state.WellFormed)
    (hget : (state.consumerOf key).inFlight[offset]? = some delivery) :
    ¬ (state.consumerOf key).Acknowledged offset :=
  ((h.consumerOf key).inTurn offset ((h.consumerOf key).attempted_of_inFlight
    (mem_iff_exists_getElem?.2 ⟨delivery, hget⟩))).pending

theorem Effect.inFlight_kept (h : Effect state command after)
    (hpoll : ∀ nowMs, command.poll? ≠ some (key, nowMs))
    (hget : (after.consumerOf key).inFlight[offset]? = some delivery) :
    (state.consumerOf key).inFlight[offset]? = some delivery := by
  cases h with
  | unchanged => exact hget
  | streams hgroup hconsumers _ _ =>
    unfold SnapshotState.consumerOf at hget ⊢
    rwa [hgroup, hconsumers] at hget
  | ack =>
    unfold SnapshotState.consumerOf at hget ⊢
    dsimp only at hget
    cases hgroup : state.groupConsumers[key]? with
    | none => simp [hgroup] at hget
    | some consumer => simpa [hgroup] using hget
  | configure changed policy _ =>
    rw [consumerOf_setConsumer] at hget
    split_ifs at hget with hsame
    · subst hsame
      unfold SnapshotState.consumerOf
      cases hgroup : state.groupConsumers[changed]? with
      | none => simp [hgroup] at hget
      | some consumer => simpa [hgroup] using hget
    · exact hget
  | @poll _ polled nowMs consumer _ _ hpolled _ hreleased houtcome =>
    have hne : polled ≠ key := by
      rintro rfl
      exact hpoll nowMs hpolled
    obtain ⟨_, _, _, -, -, -, hothers⟩ :=
      houtcome.consumerOf (SnapshotState.setConsumer_getElem?_self _ _ _)
    rw [hothers key hne, consumerOf_opened, if_neg hne] at hget
    exact hget
  | @acknowledge _ acked nowMs consumer offsets _ hreleased _ =>
    rw [consumerOf_opened] at hget
    split_ifs at hget with hsame
    · subst hsame
      exact (hreleased.inFlight_of (inFlight_of_foldl hget)).1
    · exact hget
  | @tokenless request consumer _ hreleased =>
    rw [consumerOf_opened] at hget
    split_ifs at hget with hsame
    · subst hsame
      have hall : ([request.offset].foldl acknowledgeGroupOffset consumer).inFlight[offset]? =
          some delivery := hget
      exact (hreleased.inFlight_of (inFlight_of_foldl hall)).1
    · exact hget

theorem Effect.clock_le (h : Effect state command after) :
    state.leaseClockMs ≤ after.leaseClockMs := by
  cases h with
  | unchanged => exact le_refl _
  | streams _ _ hclock _ => exact hclock.ge
  | ack => exact le_refl _
  | configure => exact le_refl _
  | poll _ _ _ houtcome =>
    obtain ⟨offsets, middle, consumer, assignments, _, hdead, -, -, -, rfl⟩ := houtcome
    exact (Nat.le_max_left _ _).trans hdead.leaseClockMs_eq.ge
  | acknowledge => exact Nat.le_max_left _ _
  | tokenless => exact Nat.le_max_left _ _

theorem PollStep.assigned {nowMs : ℕ} {offsets : List ℕ} {assignments : List Assignment}
    (h : PollStep state key nowMs offsets assignments after)
    (hget : (after.consumerOf key).inFlight[offset]? = some delivery)
    (hnew : (state.consumerOf key).inFlight[offset]? ≠ some delivery) :
    ∃ a ∈ assignments, a.offset = offset ∧ a.delivery = delivery := by
  obtain ⟨consumer, hreleased, hconsumer, -⟩ := h.consumerOf
  rw [hconsumer] at hget
  rcases inFlight_of_assignAll hget with hkept | hassigned
  · exact absurd (hreleased.inFlight_of (inFlight_of_foldl hkept)).1 hnew
  · exact hassigned

theorem mem_acceptedBy_batch {request : GroupBatchAckRequest} {consumer : GroupConsumerState}
    {item : PresentedReceipt} :
    item ∈ acceptedBy (.ackGroupBatch request)
        (.groupBatchAcknowledged ⟨request.outcomes consumer⟩) ↔
      ∃ receipt ∈ request.receipts,
        consumer.receiptOutcome request.member receipt = .confirmed ∧
        item = ⟨request.consumerKey, request.member, receipt⟩ := by
  have hzip : request.receipts.zip (request.outcomes consumer) = request.receipts.map
      fun receipt => (receipt,
        ⟨receipt.offset, consumer.receiptOutcome request.member receipt⟩) := by
    rw [GroupBatchAckRequest.outcomes, List.zip_map_right, List.zip_eq_zipWith, List.zipWith_self,
      List.map_map]
    rfl
  simp only [acceptedBy, hzip, List.mem_map, List.mem_filter, decide_eq_true_eq]
  constructor
  · rintro ⟨_, ⟨⟨receipt, hreceipt, rfl⟩, hconfirmed⟩, rfl⟩
    exact ⟨receipt, hreceipt, hconfirmed, rfl⟩
  · rintro ⟨receipt, hreceipt, hconfirmed, rfl⟩
    exact ⟨_, ⟨⟨receipt, hreceipt, rfl⟩, hconfirmed⟩, rfl⟩

variable [ToString LogId] {kind : GroupKind} {logId : LogId} {response : CommandResponse}

theorem assignedBy_eq_some :
    assignedBy kind key offset (state, command, logId) = some delivery ↔
      ∃ nowMs after response, command.poll? = some (key, nowMs) ∧
        applyCommand state command kind logId = some (after, response) ∧
        (after.consumerOf key).inFlight[offset]? = some delivery ∧
        (state.consumerOf key).inFlight[offset]? ≠ some delivery := by
  simp only [assignedBy, Option.bind_eq_some_iff]
  constructor
  · rintro ⟨⟨polled, nowMs⟩, hpoll, ⟨after, response⟩, happly, hget⟩
    split_ifs at hget with hchanged
    obtain ⟨rfl, hne⟩ := hchanged
    exact ⟨nowMs, after, response, hpoll, happly, hget, fun hsame => hne (hget.trans hsame.symm)⟩
  · rintro ⟨nowMs, after, response, hpoll, happly, hget, hne⟩
    refine ⟨(key, nowMs), hpoll, (after, response), happly, ?_⟩
    rw [if_pos ⟨rfl, fun hsame => hne (hsame.symm.trans hget)⟩, hget]

/-- A delivery in flight after a command was put there by it or was in flight before. -/
theorem inFlight_step (hwf : state.WellFormed)
    (happly : applyCommand state command kind logId = some (after, response))
    (hget : (after.consumerOf key).inFlight[offset]? = some delivery) :
    assignedBy kind key offset (state, command, logId) = some delivery ∨
      assignedBy kind key offset (state, command, logId) = none ∧
        (state.consumerOf key).inFlight[offset]? = some delivery := by
  have hstep : ApplyStep kind state (command, logId) after := ⟨response, happly⟩
  by_cases hpoll : ∃ nowMs, command.poll? = some (key, nowMs)
  · obtain ⟨nowMs, hpoll⟩ := hpoll
    by_cases hsame : (state.consumerOf key).inFlight[offset]? = some delivery
    · refine Or.inr ⟨?_, hsame⟩
      simp [assignedBy, hpoll, happly, hget, hsame]
    · exact Or.inl (assignedBy_eq_some.2 ⟨nowMs, after, response, hpoll, happly, hget, hsame⟩)
  · push Not at hpoll
    refine Or.inr ⟨?_, (hstep.effect hwf).inFlight_kept hpoll hget⟩
    cases hassigned : assignedBy kind key offset (state, command, logId) with
    | none => rfl
    | some found =>
      obtain ⟨nowMs, _, _, hpolled, -⟩ := assignedBy_eq_some.1 hassigned
      exact absurd hpolled (hpoll nowMs)

/-- The token of an assignment names the log position of a scalar poll, or the seed of a batch
and the offset; a scalar poll assigns one offset. -/
theorem assignedBy_cases (hwf : state.WellFormed)
    (h : assignedBy kind key offset (state, command, logId) = some delivery) :
    (∃ request, command = .pollGroup request ∧ key = request.consumerKey ∧
      delivery.deliveryToken = "raft-" ++ toString logId ∧
      ∀ other found, assignedBy kind key other (state, command, logId) = some found →
        other = offset) ∨
    ∃ request, command = .pollGroupBatch request ∧ key = request.consumerKey ∧
      delivery.deliveryToken = request.token offset := by
  obtain ⟨nowMs, after, response, hpoll, happly, hget, hnew⟩ := assignedBy_eq_some.1 h
  cases command with
  | pollGroup request =>
    left
    obtain ⟨rfl, rfl⟩ := Prod.mk.inj (Option.some.inj hpoll)
    obtain ⟨found, _, happly', hstep⟩ := applyGroupPoll_step hwf request logId kind
    obtain ⟨rfl, -⟩ := applied_inj happly' happly
    obtain rfl | ⟨offsets, assignments, hpollStep, hone, hissued⟩ := hstep
    · exact absurd hget hnew
    · obtain ⟨a, ha, hoffset, rfl⟩ := hpollStep.assigned hget hnew
      refine ⟨request, rfl, rfl, (hissued a ha).2, ?_⟩
      intro other second hsecond
      obtain ⟨_, found', _, -, happly'', hget', hnew'⟩ := assignedBy_eq_some.1 hsecond
      obtain ⟨rfl, -⟩ := applied_inj happly happly''
      obtain ⟨b, hb, hother, -⟩ := hpollStep.assigned hget' hnew'
      obtain ⟨only, rfl⟩ := List.length_eq_one_iff.1
        (le_antisymm hone (List.length_pos_of_mem ha))
      rw [← hoffset, ← hother, List.mem_singleton.1 ha, List.mem_singleton.1 hb]
  | pollGroupBatch request =>
    right
    obtain ⟨rfl, rfl⟩ := Prod.mk.inj (Option.some.inj hpoll)
    obtain ⟨found, _, happly', hstep⟩ := applyGroupBatchPoll_step hwf request kind
    obtain ⟨rfl, -⟩ := applied_inj happly' happly
    obtain rfl | ⟨offsets, assignments, hpollStep, hissued⟩ := hstep
    · exact absurd hget hnew
    · obtain ⟨a, ha, rfl, rfl⟩ := hpollStep.assigned hget hnew
      exact ⟨request, rfl, rfl, (hissued a ha).2⟩
  | _ => simp [Command.poll?] at hpoll

/-- An accepted receipt with a token is of a delivery that is in flight for its member under that
token and has not expired. -/
theorem acceptedBy_spec (hwf : state.WellFormed)
    (happly : applyCommand state command kind logId = some (after, response))
    {item : PresentedReceipt} (hitem : item ∈ acceptedBy command response)
    (htoken : item.receipt.deliveryToken ≠ "") :
    ∃ delivery, (state.consumerOf item.key).inFlight[item.receipt.offset]? = some delivery ∧
      delivery.deliveryToken = item.receipt.deliveryToken ∧ delivery.member = item.member ∧
      after.leaseClockMs < delivery.deadlineMs := by
  cases command with
  | ackGroup request =>
    obtain hrefused | ⟨-, consumer, hreleased, hjudged⟩ := applyGroupAck_step hwf request kind
    · obtain ⟨rfl, rfl⟩ := applied_inj hrefused happly
      simp [acceptedBy] at hitem
    · obtain ⟨rfl, rfl⟩ := applied_inj hjudged happly
      rcases acknowledge_cases consumer request with ⟨-, hnot⟩ | ⟨heq, -, hheld⟩
      · revert hitem hnot
        cases (consumer.acknowledge request).2 <;> simp [acceptedBy]
      · rw [heq] at hitem ⊢
        obtain rfl := List.mem_singleton.1 hitem
        obtain ⟨delivery, hget, hmember, hsame⟩ :=
          hheld.resolve_right fun hnone => htoken hnone.1
        obtain ⟨hbefore, hlive⟩ := hreleased.inFlight_of hget
        exact ⟨delivery, hbefore, hsame htoken, hmember, hlive⟩
  | ackGroupBatch request =>
    obtain hrefused | ⟨consumer, hreleased, hjudged⟩ := applyGroupBatchAck_step hwf request kind
    · obtain ⟨rfl, rfl⟩ := applied_inj hrefused happly
      simp [acceptedBy] at hitem
    · obtain ⟨rfl, rfl⟩ := applied_inj hjudged happly
      obtain ⟨receipt, -, hconfirmed, rfl⟩ := mem_acceptedBy_batch.1 hitem
      obtain ⟨-, -, delivery, hget, hmember, hsame⟩ := receiptOutcome_confirmed hconfirmed
      obtain ⟨hbefore, hlive⟩ := hreleased.inFlight_of hget
      exact ⟨delivery, hbefore, hsame, hmember, hlive⟩
  | _ => simp [acceptedBy] at hitem

/-- What an acknowledgement puts behind a consumer is an accepted receipt of it. -/
theorem exists_acceptedBy (hwf : state.WellFormed) (hacks : command.acknowledgesGroup = true)
    (happly : applyCommand state command kind logId = some (after, response))
    (hbefore : ¬ (state.consumerOf key).Acknowledged offset)
    (hafter : (after.consumerOf key).Acknowledged offset) :
    ∃ item ∈ acceptedBy command response, item.key = key ∧ item.receipt.offset = offset := by
  cases command with
  | ackGroup request =>
    obtain hrefused | ⟨-, consumer, hreleased, hjudged⟩ := applyGroupAck_step hwf request kind
    · obtain ⟨rfl, rfl⟩ := applied_inj hrefused happly
      exact absurd hafter hbefore
    · obtain ⟨rfl, rfl⟩ := applied_inj hjudged happly
      rw [consumerOf_opened] at hafter
      split_ifs at hafter with hsame
      · subst hsame
        rcases acknowledge_cases consumer request with ⟨heq, -⟩ | ⟨heq, -, -⟩
        · rw [heq, hreleased.same.acknowledged_iff] at hafter
          exact absurd hafter hbefore
        · rw [heq] at hafter ⊢
          rw [(acknowledgeGroupOffset_spec consumer request.offset).acknowledged_iff,
            hreleased.same.acknowledged_iff] at hafter
          exact ⟨_, List.mem_singleton_self _, rfl, (hafter.resolve_left hbefore).symm⟩
      · exact absurd hafter hbefore
  | ackGroupBatch request =>
    obtain hrefused | ⟨consumer, hreleased, hjudged⟩ := applyGroupBatchAck_step hwf request kind
    · obtain ⟨rfl, rfl⟩ := applied_inj hrefused happly
      exact absurd hafter hbefore
    · obtain ⟨rfl, rfl⟩ := applied_inj hjudged happly
      rw [consumerOf_opened] at hafter
      split_ifs at hafter with hsame
      · subst hsame
        rw [acknowledged_foldl, hreleased.same.acknowledged_iff] at hafter
        obtain ⟨receipt, hreceipt, rfl, hconfirmed⟩ :=
          mem_confirmedOffsets.1 (hafter.resolve_left hbefore)
        exact ⟨_, mem_acceptedBy_batch.2 ⟨receipt, hreceipt, hconfirmed, rfl⟩, rfl, rfl⟩
      · exact absurd hafter hbefore
  | _ => simp [Command.acknowledgesGroup] at hacks

end Steps

section Tokens

def Apart (first second : Command × LogId) : Prop :=
  first.2 ≠ second.2 ∧
    ∀ seed, first.1.tokenSeed? = some seed → second.1.tokenSeed? ≠ some seed

theorem DistinctTokens.pairwise {entries : List (Command × LogId)} (h : DistinctTokens entries) :
    entries.Pairwise Apart := by
  have hseeds := List.pairwise_filterMap.1 h.seeds
  refine (List.pairwise_map.1 h.logIds).and hseeds |>.imp ?_
  rintro first second ⟨hids, hseed⟩
  exact ⟨hids, fun seed hfirst hsecond => hseed seed hfirst seed hsecond rfl⟩

theorem DistinctTokens.tail {entry : Command × LogId} {entries : List (Command × LogId)}
    (h : DistinctTokens (entry :: entries)) : DistinctTokens entries where
  logIds := (List.nodup_cons.1 h.logIds).2
  seeds := h.seeds.sublist ((List.sublist_cons_self entry entries).filterMap _)
  notScalar other hmem := h.notScalar other (List.mem_cons_of_mem _ hmem)

theorem batch_token_inj {first second : GroupBatchPollRequest} {offset other : ℕ}
    (h : first.token offset = second.token other) :
    first.tokenSeed = second.tokenSeed ∧ offset = other := by
  obtain ⟨hseed, hdigits⟩ := append_dash_inj (dash_notMem_hex offset) (dash_notMem_hex other) h
  exact ⟨hseed, hex_injective hdigits⟩

variable [ToString LogId]

theorem scalar_ne_batch (htext : LogIdText) (logId : LogId) {request : GroupBatchPollRequest}
    (hseed : ¬ "raft-".toList <+: request.tokenSeed.toList) (offset : ℕ) :
    "raft-" ++ toString logId ≠ request.token offset := by
  intro heq
  have hlists := congrArg String.toList heq
  simp only [GroupBatchPollRequest.token, String.toList_append] at hlists
  rw [List.append_assoc] at hlists
  rcases List.append_eq_append_iff.1 hlists with ⟨more, hmore, -⟩ | ⟨more, hmore, hrest⟩
  · exact hseed ⟨more, hmore.symm⟩
  · -- the digits of the offset would hold the whole position, and with it a dash
    cases more with
    | nil => exact hseed ⟨[], by simpa using hmore⟩
    | cons head digits =>
      have hdigits : (hex offset).toList = digits ++ (toString logId).toList :=
        (List.cons.inj hrest).2
      apply dash_notMem_hex offset
      rw [hdigits]
      exact List.mem_append_right _ (htext.dash logId)

variable {kind : GroupKind} {first second : SnapshotState × Command × LogId}
  {key other : ConsumerKey} {offset offset' : ℕ} {delivery delivery' : GroupDelivery}

theorem not_apart_of_token (htext : LogIdText)
    (hfirst : first.1.WellFormed) (hsecond : second.1.WellFormed)
    (hseed : ∀ seed, first.2.1.tokenSeed? = some seed → ¬ "raft-".toList <+: seed.toList)
    (hseed' : ∀ seed, second.2.1.tokenSeed? = some seed → ¬ "raft-".toList <+: seed.toList)
    (h : assignedBy kind key offset first = some delivery)
    (h' : assignedBy kind other offset' second = some delivery')
    (htoken : delivery.deliveryToken = delivery'.deliveryToken) : ¬ Apart first.2 second.2 := by
  obtain ⟨state, command, logId⟩ := first
  obtain ⟨state', command', logId'⟩ := second
  rintro ⟨hids, hseeds⟩
  rcases assignedBy_cases hfirst h with ⟨request, rfl, -, hissued, -⟩ |
    ⟨request, rfl, -, hissued⟩ <;>
    rcases assignedBy_cases hsecond h' with
      ⟨request', rfl, -, hissued', -⟩ | ⟨request', rfl, -, hissued'⟩
  · rw [hissued, hissued', String.append_right_inj] at htoken
    exact hids (htext.injective htoken)
  · rw [hissued, hissued'] at htoken
    exact scalar_ne_batch htext logId (hseed' _ rfl) _ htoken
  · rw [hissued, hissued'] at htoken
    exact scalar_ne_batch htext logId' (hseed _ rfl) _ htoken.symm
  · rw [hissued, hissued'] at htoken
    exact hseeds _ rfl (congrArg some (batch_token_inj htoken).1.symm)

theorem assignedBy_inj (hwf : first.1.WellFormed)
    (h : assignedBy kind key offset first = some delivery)
    (h' : assignedBy kind other offset' first = some delivery')
    (htoken : delivery.deliveryToken = delivery'.deliveryToken) :
    key = other ∧ offset = offset' ∧ delivery = delivery' := by
  obtain ⟨state, command, logId⟩ := first
  obtain ⟨_, _, _, hpoll, -⟩ := assignedBy_eq_some.1 h
  obtain ⟨_, _, _, hpoll', -⟩ := assignedBy_eq_some.1 h'
  obtain ⟨rfl, -⟩ := applied_inj hpoll hpoll'
  have hoffset : offset = offset' := by
    rcases assignedBy_cases hwf h with ⟨request, rfl, -, -, hone⟩ | ⟨request, rfl, -, hissued⟩
    · exact (hone offset' delivery' h').symm
    · rcases assignedBy_cases hwf h' with ⟨request', hcommand, -⟩ |
        ⟨request', hcommand, -, hissued'⟩
      · cases hcommand
      · obtain rfl := Command.pollGroupBatch.inj hcommand
        rw [hissued, hissued'] at htoken
        exact (batch_token_inj htoken).2
  subst hoffset
  exact ⟨rfl, rfl, Option.some.inj (h.symm.trans h')⟩

theorem assignedBy_token_ne (hwf : first.1.WellFormed)
    (h : assignedBy kind key offset first = some delivery) : delivery.deliveryToken ≠ "" := by
  obtain ⟨state, command, logId⟩ := first
  intro hempty
  have hlist := congrArg String.toList hempty
  rcases assignedBy_cases hwf h with ⟨request, rfl, -, hissued, -⟩ | ⟨request, rfl, -, hissued⟩
  · rw [hissued, String.toList_append] at hlist
    simp at hlist
  · rw [hissued, GroupBatchPollRequest.token, String.toList_append, String.toList_append] at hlist
    simp at hlist

end Tokens

theorem split_unique {α : Type*} {r : α → α → Prop} {front front' back back' : List α} {a b : α}
    (h : (front ++ a :: back).Pairwise r) (heq : front ++ a :: back = front' ++ b :: back')
    (hab : ¬ r a b) (hba : ¬ r b a) : front = front' ∧ a = b := by
  rcases List.append_eq_append_iff.1 heq with ⟨more, rfl, hrest⟩ | ⟨more, rfl, hrest⟩
  · cases more with
    | nil => exact ⟨by simp, (List.cons.inj hrest).1⟩
    | cons head rest =>
      obtain ⟨rfl, rfl⟩ := List.cons.inj hrest
      have hpairs := (List.pairwise_cons.1 (List.pairwise_append.1 h).2.1).1
      exact absurd (hpairs b (by simp)) hab
  · cases more with
    | nil => exact ⟨by simp, (List.cons.inj hrest).1.symm⟩
    | cons head rest =>
      obtain ⟨rfl, rfl⟩ := List.cons.inj hrest
      have hpairs := (List.pairwise_append.1 h).2.2
      exact absurd (hpairs b (by simp) a List.mem_cons_self) hba

section Runs

variable [ToString LogId] {kind : GroupKind} {past : List (SnapshotState × Command × LogId)}
  {state after : SnapshotState} {entry : Command × LogId}

/-- Every delivery in flight was put there by some poll and has been in flight since. -/
structure FenceInvariant (kind : GroupKind) (past : List (SnapshotState × Command × LogId))
    (state : SnapshotState) : Prop where
  wellFormed : ∀ earlier ∈ state :: past.map Prod.fst, earlier.WellFormed
  clock : ∀ earlier ∈ past.map Prod.fst, earlier.leaseClockMs ≤ state.leaseClockMs
  held : ∀ key offset delivery, (state.consumerOf key).inFlight[offset]? = some delivery →
    ∃ later issue earlier, past = later ++ issue :: earlier ∧
      assignedBy kind key offset issue = some delivery ∧
      ∀ step ∈ later, assignedBy kind key offset step = none ∧
        (step.1.consumerOf key).inFlight[offset]? = some delivery

theorem FenceInvariant.step (h : FenceInvariant kind past state)
    (hstep : ApplyStep kind state entry after) :
    FenceInvariant kind ((state, entry) :: past) after := by
  have hwf : state.WellFormed := h.wellFormed state List.mem_cons_self
  have heffect := hstep.effect hwf
  obtain ⟨response, happly⟩ := hstep
  refine ⟨?_, ?_, ?_⟩
  · intro earlier hmem
    rcases List.mem_cons.1 hmem with rfl | hmem
    · exact heffect.wellFormed hwf
    · exact h.wellFormed earlier hmem
  · intro earlier hmem
    rcases List.mem_cons.1 hmem with rfl | hmem
    · exact heffect.clock_le
    · exact (h.clock earlier hmem).trans heffect.clock_le
  · intro key offset delivery hget
    rcases inFlight_step hwf happly hget with hassigned | ⟨hnone, hbefore⟩
    · exact ⟨[], (state, entry), past, rfl, hassigned, by simp⟩
    · obtain ⟨later, issue, earlier, rfl, hissue, hlater⟩ := h.held key offset delivery hbefore
      exact ⟨(state, entry) :: later, issue, earlier, rfl, hissue,
        List.forall_mem_cons.2 ⟨⟨hnone, hbefore⟩, hlater⟩⟩

theorem fenceInvariant_run (h : Run Empty (ApplyStep kind) past state) :
    FenceInvariant kind past state := by
  apply h.history_invariant
  · rintro _ rfl
    refine ⟨?_, by simp, ?_⟩
    · intro earlier hmem
      obtain rfl := List.mem_singleton.1 hmem
      intro key consumer hget
      simp at hget
    · intro key offset delivery hget
      simp [SnapshotState.consumerOf] at hget
  · intro past state entry after hinvariant hstep
    exact hinvariant.step hstep

/-- The assignment that an accepted token was issued by is still the current one. -/
theorem FenceInvariant.current (h : FenceInvariant kind past state) (htext : LogIdText)
    (hdistinct : DistinctTokens (past.map Prod.snd))
    {later earlier : List (SnapshotState × Command × LogId)}
    {issue : SnapshotState × Command × LogId} {key other : ConsumerKey} {offset offset' : ℕ}
    {delivery delivery' : GroupDelivery} (hpast : past = later ++ issue :: earlier)
    (hissue : assignedBy kind key offset issue = some delivery)
    (hget : (state.consumerOf other).inFlight[offset']? = some delivery')
    (htoken : delivery.deliveryToken = delivery'.deliveryToken) :
    key = other ∧ offset = offset' ∧ delivery = delivery' ∧
      ∀ step ∈ later, assignedBy kind key offset step = none ∧
        (step.1.consumerOf key).inFlight[offset]? = some delivery := by
  obtain ⟨later', issue', earlier', hpast', hissue', hlater'⟩ := h.held other offset' delivery' hget
  have hmem : issue ∈ past := by simp [hpast]
  have hmem' : issue' ∈ past := by simp [hpast']
  have hwf : ∀ step ∈ past, step.1.WellFormed := fun step hstep =>
    h.wellFormed step.1 (List.mem_cons_of_mem _ (List.mem_map_of_mem hstep))
  have hseed : ∀ step ∈ past, ∀ seed, step.2.1.tokenSeed? = some seed →
      ¬ "raft-".toList <+: seed.toList := fun step hstep =>
    hdistinct.notScalar step.2 (List.mem_map_of_mem hstep)
  have hpairs := List.pairwise_map.1 hdistinct.pairwise
  rw [hpast] at hpairs
  obtain ⟨rfl, rfl⟩ := split_unique hpairs (hpast.symm.trans hpast')
    (not_apart_of_token htext (hwf _ hmem) (hwf _ hmem') (hseed _ hmem) (hseed _ hmem') hissue
      hissue' htoken)
    (not_apart_of_token htext (hwf _ hmem') (hwf _ hmem) (hseed _ hmem') (hseed _ hmem) hissue'
      hissue htoken.symm)
  obtain ⟨rfl, rfl, rfl⟩ := assignedBy_inj (hwf _ hmem) hissue hissue' htoken
  exact ⟨rfl, rfl, rfl, hlater'⟩

end Runs

/-- In every history whose log positions and batch seeds are distinct, the next command accepts a
receipt with a token only if the most recent assignment of its offset issued that token to the
member and has not expired by the clock the command leaves. A token is not accepted once its
delivery expired, was acknowledged or was assigned again, and the clock never goes back. -/
theorem token_fencing [ToString LogId] (htext : LogIdText) {source streamId groupId : String}
    {past : List (SnapshotState × Command × LogId)} {state after : SnapshotState}
    {entry : Command × LogId} {response : CommandResponse}
    (hrun : Run Empty (ApplyStep (.data source streamId groupId)) past state)
    (hdistinct : DistinctTokens (entry :: past.map Prod.snd))
    (happly : applyCommand state entry.1 (.data source streamId groupId) entry.2 =
      some (after, response)) :
    (entry.1.acknowledgesGroup = true → ∀ key offset,
      ¬ (state.consumerOf key).Acknowledged offset → (after.consumerOf key).Acknowledged offset →
      ∃ item ∈ acceptedBy entry.1 response, item.key = key ∧ item.receipt.offset = offset) ∧
    (∀ item ∈ acceptedBy entry.1 response, item.receipt.deliveryToken ≠ "" →
      ∃ delivery, past.findSome? (assignedBy (.data source streamId groupId) item.key
          item.receipt.offset) = some delivery ∧
        delivery.deliveryToken = item.receipt.deliveryToken ∧ delivery.member = item.member ∧
        after.leaseClockMs < delivery.deadlineMs) ∧
    (∀ later issue earlier key offset delivery, past = later ++ issue :: earlier →
      assignedBy (.data source streamId groupId) key offset issue = some delivery →
      ((∃ seen ∈ state :: later.map Prod.fst, delivery.deadlineMs ≤ seen.leaseClockMs ∨
          (seen.consumerOf key).Acknowledged offset) ∨
        ∃ step ∈ later, (assignedBy (.data source streamId groupId) key offset step).isSome) →
      ∀ item ∈ acceptedBy entry.1 response,
        item.receipt.deliveryToken ≠ delivery.deliveryToken) ∧
    ∀ earlier ∈ state :: past.map Prod.fst, earlier.leaseClockMs ≤ after.leaseClockMs := by
  have hinvariant := fenceInvariant_run hrun
  have hwf : state.WellFormed := Run.wellFormed hrun
  have hclock := (fenceInvariant_run (hrun.next ⟨response, happly⟩)).clock
  refine ⟨fun hacks key offset => exists_acceptedBy hwf hacks happly, ?_, ?_, hclock⟩
  · intro item hitem htoken
    obtain ⟨delivery, hget, hsame, hmember, hlive⟩ := acceptedBy_spec hwf happly hitem htoken
    obtain ⟨later, issue, earlier, hpast, hissue, hlater⟩ := hinvariant.held _ _ _ hget
    refine ⟨delivery, ?_, hsame, hmember, hlive⟩
    exact List.findSome?_eq_some_iff.2
      ⟨later, issue, earlier, hpast, hissue, fun step hstep => (hlater step hstep).1⟩
  · intro later issue earlier key offset delivery hpast hissue hgone item hitem hsame
    have hmem : issue ∈ past := by simp [hpast]
    have htoken : item.receipt.deliveryToken ≠ "" := by
      rw [hsame]
      exact assignedBy_token_ne
        (hinvariant.wellFormed issue.1 (List.mem_cons_of_mem _ (List.mem_map_of_mem hmem))) hissue
    obtain ⟨current, hget, hcurrent, -, hlive⟩ := acceptedBy_spec hwf happly hitem htoken
    have hdistinct' : DistinctTokens (past.map Prod.snd) := hdistinct.tail
    obtain ⟨rfl, rfl, rfl, hlater⟩ := hinvariant.current htext hdistinct' hpast hissue hget
      (hsame.symm.trans hcurrent.symm)
    have hsub : ∀ seen ∈ state :: later.map Prod.fst, seen ∈ state :: past.map Prod.fst := by
      rw [hpast, List.map_append]
      exact fun seen hseen => List.mem_append_left _ hseen
    rcases hgone with ⟨seen, hseen, hexpired | hacked⟩ | ⟨step, hstep, hagain⟩
    · exact absurd (hexpired.trans (hclock seen (hsub seen hseen))) (Nat.not_le_of_lt hlive)
    · have hheld : (seen.consumerOf item.key).inFlight[item.receipt.offset]? = some delivery := by
        rcases List.mem_cons.1 hseen with rfl | hseen
        · exact hget
        · obtain ⟨step, hstep, rfl⟩ := List.mem_map.1 hseen
          exact (hlater step hstep).2
      exact (hinvariant.wellFormed seen (hsub seen hseen)).pending_of_inFlight hheld hacked
    · rw [(hlater step hstep).1] at hagain
      cases hagain

def Command.consumer? : Command → Option ConsumerKey
  | .configureConsumer stream consumer _ _ _ => some (stream, consumer)
  | .pollGroup request => some request.consumerKey
  | .pollGroupBatch request => some request.consumerKey
  | .ackGroup request => some request.consumerKey
  | .ackGroupBatch request => some request.consumerKey
  | _ => none

theorem ConsumerStep.other {state after : SnapshotState} {command : Command} {key : ConsumerKey}
    (h : ConsumerStep state command after) (hother : command.consumer? ≠ some key) :
    after.groupConsumers[key]? = state.groupConsumers[key]? := by
  have hset : ∀ {changed : ConsumerKey} (state : SnapshotState) consumer, changed ≠ key →
      (state.setConsumer changed consumer).groupConsumers[key]? = state.groupConsumers[key]? :=
    fun state consumer hne => by rw [SnapshotState.setConsumer_getElem?, if_neg hne]
  cases h with
  | kept hsame => rw [hsame]
  | configured => exact hset _ _ fun heq => hother (congrArg some heq)
  | @polled _ polled nowMs _ _ _ hpoll hstep =>
    have hne : polled ≠ key := by
      rintro rfl
      cases command <;> simp_all [Command.poll?, Command.consumer?]
    obtain ⟨consumer, terms, -, -, middle, _, _, hmoves, -, -, -, rfl⟩ := hstep
    have hmoved := hmoves.deadLettered.groupConsumers_eq
        (state.opened_getElem? polled nowMs consumer)
    exact (hset middle _ hne).trans ((congrArg (·[key]?) hmoved).trans
      ((hset _ _ hne).trans (hset _ _ hne)))
  | acknowledged => exact hset _ _ fun heq => hother (congrArg some heq)
  | batchAcknowledged => exact hset _ _ fun heq => hother (congrArg some heq)

/-- Commands that do not name a consumer group leave all of it as it is: its progress, policy,
deliveries and retries, although they share the log and the lease clock. -/
theorem consumers_isolated [ToString LogId] {kind : GroupKind} {key : ConsumerKey}
    {past later : List (SnapshotState × Command × LogId)} {state after : SnapshotState}
    (hrun : Run Empty (ApplyStep kind) past state)
    (hlater : Run (· = state) (ApplyStep kind) later after)
    (hother : ∀ step ∈ later, step.2.1.consumer? ≠ some key) :
    after.groupConsumers[key]? = state.groupConsumers[key]? := by
  suffices h : after.WellFormed ∧ after.groupConsumers[key]? = state.groupConsumers[key]? from h.2
  induction hlater with
  | start heq => exact ⟨heq ▸ Run.wellFormed hrun, by rw [heq]⟩
  | next _ hstep ih =>
    obtain ⟨hnow, hbefore⟩ := List.forall_mem_cons.1 hother
    obtain ⟨hwf, hsame⟩ := ih hbefore
    have hwf' := (hstep.effect hwf).wellFormed hwf
    obtain ⟨response, happly⟩ := hstep
    exact ⟨hwf', ((applyCommand_consumerStep hwf happly).other hnow).trans hsame⟩

section Examples

open scoped LogId.Display

theorem logId_text : LogIdText where
  injective := by
    rintro ⟨term, node, index⟩ ⟨term', node', index'⟩ h
    obtain ⟨hleader, rfl⟩ := append_toString_inj (c := '-') (by decide) h
    obtain ⟨hterm, rfl⟩ := append_toString_inj (c := 'N') (by decide) hleader
    have hsame : "" ++ String.singleton 'T' ++ toString term =
        "" ++ String.singleton 'T' ++ toString term' := by
      simpa using hterm
    rw [(append_toString_inj (by decide) hsame).2]
  dash id := by
    show '-' ∈ ("T" ++ toString id.term ++ "-" ++ "N" ++ toString id.nodeId ++ "-" ++
      toString id.index).toList
    simp

def parcelsGroup : GroupKind := .data "parcels" "stream/parcels" "group/parcels/data"

/-- One record is delivered to member `a`, which acknowledges it. -/
def parcelDelivery : List (Command × LogId) :=
  [(.initializeDataStream "parcels" "stream/parcels" "group/parcels/data", ⟨1, 1, 1⟩),
   (.publish "parcels" none [7] 3 none, ⟨1, 1, 2⟩),
   (.pollGroup ⟨"parcels", "workers", "a", none, 10000, 5, 50, some 2, some 45, none⟩, ⟨1, 1, 3⟩)]

def parcelReceipt : Command × LogId :=
  (.ackGroup ⟨"parcels", "workers", "a", 0, "raft-T1-N1-3", 6⟩, ⟨1, 1, 4⟩)

/-- The receipt of the delivered record is accepted under the token of its assignment. -/
theorem parcel_token_current :
    ∃ past state after, Run Empty (ApplyStep parcelsGroup) past state ∧
      DistinctTokens (parcelReceipt :: past.map Prod.snd) ∧
      applyCommand state parcelReceipt.1 parcelsGroup parcelReceipt.2 =
        some (after, .groupAcknowledged) ∧
      ∃ delivery, past.findSome? (assignedBy parcelsGroup ("parcels", "workers") 0) =
          some delivery ∧
        delivery.deliveryToken = "raft-T1-N1-3" ∧ delivery.member = "a" ∧
        after.leaseClockMs < delivery.deadlineMs := by
  have hsome : (follow (applyNext? parcelsGroup) parcelDelivery [] {}).any fun result =>
      result.1.map Prod.snd = parcelDelivery.reverse ∧
      ((applyCommand result.2 parcelReceipt.1 parcelsGroup parcelReceipt.2).map Prod.snd) =
        some .groupAcknowledged := by
    decide +kernel
  obtain ⟨⟨past, state⟩, happly, hfacts⟩ := Option.any_eq_true _ _ |>.1 hsome
  obtain ⟨hentries, hresponse⟩ := of_decide_eq_true hfacts
  obtain ⟨⟨after, response⟩, hreceipt, rfl⟩ := Option.map_eq_some_iff.1 hresponse
  have hguarded : Run Empty (guarded (fun _ _ => True) (ApplyStep parcelsGroup)) past state :=
    guarded_run_of_follow (.start rfl) (fun _ _ _ => trivial) happly
  have hrun := hguarded.of_guarded
  have hdistinct : DistinctTokens (parcelReceipt :: past.map Prod.snd) := by
    rw [hentries]
    refine ⟨by decide, by decide, ?_⟩
    intro entry hentry seed hseed
    simp only [parcelDelivery, parcelReceipt, List.reverse_cons, List.reverse_nil, List.nil_append,
      List.cons_append, List.mem_cons, List.not_mem_nil, or_false] at hentry
    rcases hentry with rfl | rfl | rfl | rfl <;> cases hseed
  refine ⟨past, state, after, hrun, hdistinct, hreceipt, ?_⟩
  exact (token_fencing logId_text hrun hdistinct hreceipt).2.1 _
    (List.mem_singleton_self _) (by decide)

/-- The auditors are given two records and acknowledge the first. -/
def auditHistory : List (Command × LogId) :=
  [(.initializeDataStream "parcels" "stream/parcels" "group/parcels/data", ⟨1, 1, 1⟩),
   (.publish "parcels" none [7] 3 none, ⟨1, 1, 2⟩),
   (.publish "parcels" (some "k") [8] 4 none, ⟨1, 1, 3⟩),
   (.pollGroupBatch ⟨"parcels", "auditors", "a", none, 2, 10000, "audit", 5, 50, some 2, some 45,
      none, false⟩, ⟨1, 1, 4⟩),
   (.ackGroupBatch ⟨"parcels", "auditors", "a", [⟨0, "audit-0"⟩], 6⟩, ⟨1, 1, 5⟩)]

/-- The workers get a policy, take both records after the lease of the auditors has expired, and
acknowledge one of them. -/
def workHistory : List (Command × LogId) :=
  [(.configureConsumer "parcels" "workers" 40 (some 3) 30, ⟨1, 1, 6⟩),
   (.publish "parcels" (some "k") [9] 5 none, ⟨1, 1, 7⟩),
   (.pollGroupBatch ⟨"parcels", "workers", "b", none, 3, 10000, "work", 100, 140, none, none,
      some 1, false⟩, ⟨1, 1, 8⟩),
   (.ackGroupBatch ⟨"parcels", "workers", "b", [⟨1, "work-1"⟩], 101⟩, ⟨1, 1, 9⟩)]

/-- The auditors keep their progress, and the attempt and the delivery of the second record, while
the workers are served and the lease clock passes the deadline of that delivery. -/
theorem auditors_untouched :
    ∃ past state later after,
      follow (applyNext? parcelsGroup) auditHistory [] {} = some (past, state) ∧
      follow (applyNext? parcelsGroup) workHistory [] state = some (later, after) ∧
      (state.groupConsumers[(("parcels", "auditors") : ConsumerKey)]?).any (fun consumer =>
        consumer.committedOffset = 1 ∧ consumer.deliveryAttempts.toList = [(1, 1)] ∧
        consumer.inFlight.toList.map (fun entry => (entry.1, entry.2.deadlineMs)) = [(1, 50)]) ∧
      after.leaseClockMs = 101 ∧
      (after.consumerOf ("parcels", "workers")).inFlight.keys = [0] ∧
      after.groupConsumers[(("parcels", "auditors") : ConsumerKey)]? =
        state.groupConsumers[(("parcels", "auditors") : ConsumerKey)]? := by
  have hsome : (follow (applyNext? parcelsGroup) auditHistory [] {}).any fun before =>
      (follow (applyNext? parcelsGroup) workHistory [] before.2).any fun result =>
        (before.2.groupConsumers[(("parcels", "auditors") : ConsumerKey)]?).any (fun consumer =>
          consumer.committedOffset = 1 ∧ consumer.deliveryAttempts.toList = [(1, 1)] ∧
          consumer.inFlight.toList.map (fun entry => (entry.1, entry.2.deadlineMs)) =
            [(1, 50)]) ∧
        result.2.leaseClockMs = 101 ∧
        (result.2.consumerOf ("parcels", "workers")).inFlight.keys = [0] := by
    decide +kernel
  obtain ⟨⟨past, state⟩, hbefore, hlater⟩ := (Option.any_eq_true _ _).1 hsome
  obtain ⟨⟨later, after⟩, hafter, hfacts⟩ := (Option.any_eq_true _ _).1 hlater
  obtain ⟨haudited, hclock, hworked⟩ := of_decide_eq_true hfacts
  have hrun : Run Empty (ApplyStep parcelsGroup) past state :=
    .of_follow (fun _ _ _ _ => applyStep_of_applyNext?) (.start rfl) hbefore
  have hother : ∀ entry ∈ workHistory, entry.1.consumer? ≠ some ("parcels", "auditors") := by
    decide
  have hserved : Run (· = state) (guarded (fun _ entry =>
      entry.1.consumer? ≠ some ("parcels", "auditors")) (ApplyStep parcelsGroup)) later after :=
    guarded_run_of_follow (.start rfl) (fun entry hentry _ => hother entry hentry) hafter
  exact ⟨past, state, later, after, hbefore, hafter, haudited, hclock, hworked,
    consumers_isolated hrun hserved.of_guarded hserved.guard_of_mem⟩

end Examples

end Runnel.Cluster
