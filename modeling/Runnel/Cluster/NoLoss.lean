import Runnel.Cluster.History

/-!
# Nothing is lost silently

Every offset behind a consumer got there in one of two ways: an acknowledgement
that was accepted named it, or a poll appended its record to the dead-letter
stream.
-/

namespace Runnel.Cluster

open Runnel.Engine GroupConsumerState Transition

/-- The stored offsets that are behind a consumer now and were not before. -/
def newlyAcknowledged (state after : SnapshotState) (key : ConsumerKey) : List ℕ :=
  (List.range (state.messages key.1).length).filter fun offset =>
    ¬ (state.consumerOf key).Acknowledged offset ∧ (after.consumerOf key).Acknowledged offset

/-- The acknowledgement items of a command that its response accepts or confirms. -/
def confirmedBy : Command → CommandResponse → List (ConsumerKey × ℕ)
  | .ackGroup request, .groupAcknowledged => [(request.consumerKey, request.offset)]
  | .ackGroupBatch request, .groupBatchAcknowledged result =>
    (confirmedOffsets result.outcomes).map (Prod.mk request.consumerKey)
  | _, _ => []

/-- The stored offsets that a poll put behind its consumer. -/
def movedBy (state : SnapshotState) (command : Command) (after : SnapshotState) :
    List (ConsumerKey × ℕ) :=
  match command.poll? with
  | some (key, _) => (newlyAcknowledged state after key).map (Prod.mk key)
  | none => []

section Account

variable [ToString LogId] (kind : GroupKind) (step : SnapshotState × Command × LogId)

def confirmedItems : List (ConsumerKey × ℕ) :=
  (applyCommand step.1 step.2.1 kind step.2.2).elim [] fun result => confirmedBy step.2.1 result.2

/-- The items that a step of a history moved to the dead-letter stream. -/
def movedItems : List (ConsumerKey × ℕ) :=
  (applyCommand step.1 step.2.1 kind step.2.2).elim [] fun result =>
    movedBy step.1 step.2.1 result.1

end Account

/-- Commands as the engine builds them: no scalar acknowledgement, and the receipts of a batch
name different offsets. -/
def Constructed (entry : Command × LogId) : Prop :=
  match entry.1 with
  | .ack _ _ _ => False
  | command => command.DistinctReceipts

/-- The items of a step are new and are all that it put behind the consumers. -/
structure Accounted (state after : SnapshotState) (items : List (ConsumerKey × ℕ)) : Prop where
  nodup : items.Nodup
  fresh : ∀ item ∈ items, ¬ (state.consumerOf item.1).Acknowledged item.2
  acknowledged_iff : ∀ key offset, (after.consumerOf key).Acknowledged offset ↔
    (state.consumerOf key).Acknowledged offset ∨ (key, offset) ∈ items

namespace Accounted

variable {state after : SnapshotState} {key : ConsumerKey} {items : List (ConsumerKey × ℕ)}

theorem of_same (h : ∀ key offset, (after.consumerOf key).Acknowledged offset ↔
    (state.consumerOf key).Acknowledged offset) : Accounted state after [] :=
  ⟨.nil, by simp, fun key offset => by simp [h key offset]⟩

theorem of_consumer {offsets : List ℕ} (hnodup : offsets.Nodup)
    (hfresh : ∀ offset ∈ offsets, ¬ (state.consumerOf key).Acknowledged offset)
    (hkey : ∀ offset, (after.consumerOf key).Acknowledged offset ↔
      (state.consumerOf key).Acknowledged offset ∨ offset ∈ offsets)
    (hothers : ∀ other, key ≠ other → after.consumerOf other = state.consumerOf other) :
    Accounted state after (offsets.map (Prod.mk key)) := by
  refine ⟨hnodup.map (Prod.mk_right_injective key), ?_, ?_⟩
  · intro item hitem
    obtain ⟨offset, hoffset, rfl⟩ := List.mem_map.1 hitem
    exact hfresh offset hoffset
  · intro other offset
    by_cases hsame : key = other
    · subst hsame
      rw [hkey]
      simp
    · rw [hothers other hsame]
      simp [hsame]

theorem count_add (h : Accounted state after items) (key : ConsumerKey) (offset : ℕ) :
    items.count (key, offset) + (if (state.consumerOf key).Acknowledged offset then 1 else 0) =
      if (after.consumerOf key).Acknowledged offset then 1 else 0 := by
  have hiff := h.acknowledged_iff key offset
  by_cases hmem : (key, offset) ∈ items
  · rw [List.count_eq_one_of_mem h.nodup hmem, if_neg (h.fresh _ hmem),
      if_pos (hiff.2 (Or.inr hmem))]
  · rw [List.count_eq_zero_of_not_mem hmem, Nat.zero_add]
    by_cases hacked : (state.consumerOf key).Acknowledged offset
    · rw [if_pos hacked, if_pos (hiff.2 (Or.inl hacked))]
    · rw [if_neg hacked, if_neg]
      rw [hiff]
      exact not_or.2 ⟨hacked, hmem⟩

end Accounted

theorem Accounted.of_opened {state : SnapshotState} {key : ConsumerKey} {nowMs : ℕ}
    {consumer : GroupConsumerState} {offsets : List ℕ}
    (hreleased : Released (max state.leaseClockMs nowMs) (state.consumerOf key) consumer)
    (hnodup : offsets.Nodup) (hpending : ∀ offset ∈ offsets, ¬ consumer.Acknowledged offset) :
    Accounted state (state.opened key nowMs (offsets.foldl acknowledgeGroupOffset consumer))
      (offsets.map (Prod.mk key)) := by
  apply Accounted.of_consumer hnodup
  · intro offset hmem hacked
    exact hpending offset hmem ((hreleased.same.acknowledged_iff offset).2 hacked)
  · intro offset
    rw [consumerOf_opened, if_pos rfl, acknowledged_foldl, hreleased.same.acknowledged_iff]
  · intro other hne
    rw [consumerOf_opened, if_neg hne]

/-- The state in which a history without scalar acknowledgements can be. -/
structure Unseeded (state : SnapshotState) : Prop where
  wellFormed : state.WellFormed
  consumers : state.consumers = ∅
  counted : state.deadLetters ≤ u64Max

/-- What one command adds to the account. -/
structure StepAccount (state after : SnapshotState) (command : Command)
    (confirmed moved : List (ConsumerKey × ℕ)) : Prop where
  accounted : Accounted state after (confirmed ++ moved)
  consumers : after.consumers = state.consumers
  counted : after.deadLetters = min (state.deadLetters + moved.length) u64Max
  appended : ∀ key nowMs, command.poll? = some (key, nowMs) →
    ∃ records, after.messages (deadLetterStreamName key.1) =
        state.messages (deadLetterStreamName key.1) ++ records ∧
      (records.map some).Perm (moved.map fun item => (state.messages key.1)[item.2]?)

section Steps

variable {state after : SnapshotState} {command : Command}

theorem StepAccount.of_same (hpoll : command.poll? = none) (hcounted : state.deadLetters ≤ u64Max)
    (hsame : ∀ key offset, (after.consumerOf key).Acknowledged offset ↔
      (state.consumerOf key).Acknowledged offset)
    (hconsumers : after.consumers = state.consumers)
    (hdeadLetters : after.deadLetters = state.deadLetters) :
    StepAccount state after command [] [] where
  accounted := .of_same hsame
  consumers := hconsumers
  counted := by simp [hdeadLetters, hcounted]
  appended key nowMs h := by simp [hpoll] at h

theorem StepAccount.of_opened {key : ConsumerKey} {nowMs : ℕ} {consumer : GroupConsumerState}
    {offsets : List ℕ} (hpoll : command.poll? = none) (hcounted : state.deadLetters ≤ u64Max)
    (hreleased : Released (max state.leaseClockMs nowMs) (state.consumerOf key) consumer)
    (hnodup : offsets.Nodup) (hpending : ∀ offset ∈ offsets, ¬ consumer.Acknowledged offset) :
    StepAccount state (state.opened key nowMs (offsets.foldl acknowledgeGroupOffset consumer))
      command (offsets.map (Prod.mk key)) [] where
  accounted := by
    rw [List.append_nil]
    exact .of_opened hreleased hnodup hpending
  consumers := rfl
  counted := by
    rw [List.length_nil, Nat.add_zero, Nat.min_eq_left hcounted]
    rfl
  appended key nowMs h := by simp [hpoll] at h

variable {key : ConsumerKey} {nowMs : ℕ} {offsets : List ℕ} {assignments : List Assignment}

theorem PollStep.newlyAcknowledged_perm
    (h : PollStep state key nowMs offsets assignments after) :
    (newlyAcknowledged state after key).Perm offsets := by
  obtain ⟨consumer, hreleased, hconsumer, -, hnodup, hpending⟩ := h.consumerOf
  refine (List.perm_ext_iff_of_nodup (List.nodup_range.filter _) hnodup).2 ?_
  intro offset
  simp only [List.mem_filter, List.mem_range, decide_eq_true_eq, hconsumer, acknowledged_assignAll,
    acknowledged_foldl, hreleased.same.acknowledged_iff]
  constructor
  · rintro ⟨-, hbefore, hacked | hmem⟩
    · exact absurd hacked hbefore
    · exact hmem
  · intro hmem
    obtain ⟨hnot, hstored⟩ := hpending offset hmem
    exact ⟨hstored, fun hacked => hnot ((hreleased.same.acknowledged_iff offset).2 hacked),
      Or.inr hmem⟩

theorem PollStep.appended (h : PollStep state key nowMs offsets assignments after)
    (hcounted : state.deadLetters ≤ u64Max) :
    after.consumers = state.consumers ∧
    after.deadLetters = min (state.deadLetters + offsets.length) u64Max ∧
    ∃ records, after.messages (deadLetterStreamName key.1) =
        state.messages (deadLetterStreamName key.1) ++ records ∧
      records.map some = offsets.map fun offset => (state.messages key.1)[offset]? := by
  obtain ⟨consumer, terms, -, -, middle, current, _, hmoves, -, -, -, rfl⟩ := h
  obtain ⟨records, hrecords, hall⟩ := hmoves.deadLettered.moved
  exact ⟨hmoves.deadLettered.consumers_eq, hmoves.deadLetters_eq hcounted, records, hrecords,
    hall.symm⟩

theorem StepAccount.of_poll (hpoll : command.poll? = some (key, nowMs))
    (hcounted : state.deadLetters ≤ u64Max)
    (h : PollStep state key nowMs offsets assignments after) :
    StepAccount state after command []
      ((newlyAcknowledged state after key).map (Prod.mk key)) := by
  have hperm := h.newlyAcknowledged_perm
  obtain ⟨hconsumers, hdeadLetters, records, hrecords, hall⟩ := h.appended hcounted
  refine ⟨?_, hconsumers, ?_, ?_⟩
  · obtain ⟨consumer, hreleased, hconsumer, hothers, -, -⟩ := h.consumerOf
    refine .of_consumer (List.nodup_range.filter _) ?_ ?_ hothers
    · intro offset hmem
      simp only [newlyAcknowledged, List.mem_filter, decide_eq_true_eq] at hmem
      exact hmem.2.1
    · intro offset
      rw [hperm.mem_iff, hconsumer, acknowledged_assignAll, acknowledged_foldl,
        hreleased.same.acknowledged_iff]
  · rw [hdeadLetters, List.length_map, hperm.length_eq]
  · intro key' nowMs' hpoll'
    obtain ⟨rfl, rfl⟩ := applied_inj hpoll hpoll'
    refine ⟨records, hrecords, ?_⟩
    rw [hall, List.map_map]
    exact (hperm.map fun offset => (state.messages key.1)[offset]?).symm

theorem StepAccount.of_refused (hcounted : state.deadLetters ≤ u64Max) :
    StepAccount state state command []
      ((newlyAcknowledged state state key).map (Prod.mk key)) := by
  have hnone : newlyAcknowledged state state key = [] := by
    simp only [newlyAcknowledged, List.filter_eq_nil_iff, decide_eq_true_eq]
    exact fun offset _ h => h.1 h.2
  rw [hnone]
  exact ⟨.of_same fun _ _ => Iff.rfl, rfl, by simp [hcounted], fun _ _ _ => ⟨[], by simp, .nil⟩⟩

end Steps

section Commands

variable {kind : GroupKind} {state after : SnapshotState} {command : Command}
  {response : CommandResponse}

theorem confirmedBy_ack {request : GroupAckRequest} (h : response ≠ .groupAcknowledged) :
    confirmedBy (.ackGroup request) response = [] := by
  cases response with
  | groupAcknowledged => exact absurd rfl h
  | _ => rfl

theorem stepAccount_ack {request : GroupAckRequest} (h : Unseeded state)
    (happly : applyGroupAck state request kind = some (after, response)) :
    StepAccount state after (.ackGroup request) (confirmedBy (.ackGroup request) response) [] := by
  obtain hrefused | ⟨-, consumer, hreleased, hjudged⟩ :=
    applyGroupAck_step h.wellFormed request kind
  · obtain ⟨rfl, rfl⟩ := applied_inj happly hrefused
    exact .of_same rfl h.counted (fun _ _ => Iff.rfl) rfl rfl
  · obtain ⟨rfl, rfl⟩ := applied_inj happly hjudged
    rcases acknowledge_cases consumer request with ⟨heq, hnot⟩ | ⟨heq, hpending, -⟩
    · rw [confirmedBy_ack hnot, heq]
      exact @StepAccount.of_opened state (.ackGroup request) _ _ _ [] rfl h.counted hreleased .nil
        (by simp)
    · rw [heq]
      exact @StepAccount.of_opened state (.ackGroup request) _ _ _ [request.offset] rfl h.counted
        hreleased (List.nodup_singleton _) (by simpa using hpending)

theorem stepAccount_ackBatch {request : GroupBatchAckRequest} (h : Unseeded state)
    (hdistinct : (request.receipts.map DeliveryReceipt.offset).Nodup)
    (happly : applyGroupBatchAck state request kind = some (after, response)) :
    StepAccount state after (.ackGroupBatch request)
      (confirmedBy (.ackGroupBatch request) response) [] := by
  obtain hrefused | ⟨consumer, hreleased, hjudged⟩ :=
    applyGroupBatchAck_step h.wellFormed request kind
  · obtain ⟨rfl, rfl⟩ := applied_inj happly hrefused
    exact .of_same rfl h.counted (fun _ _ => Iff.rfl) rfl rfl
  · obtain ⟨rfl, rfl⟩ := applied_inj happly hjudged
    apply StepAccount.of_opened rfl h.counted hreleased
    · exact nodup_confirmedOffsets consumer hdistinct
    · intro offset hmem
      obtain ⟨receipt, -, rfl, hconfirmed⟩ := mem_confirmedOffsets.1 hmem
      exact (receiptOutcome_confirmed hconfirmed).1

theorem acknowledged_configure (h : Unseeded state) (key other : ConsumerKey)
    (policy : Option ConsumerPolicy) (offset : ℕ) :
    ((state.setConsumer key { (state.groupConsumers[key]?).getD {} with
      policy := policy }).consumerOf other).Acknowledged offset ↔
      (state.consumerOf other).Acknowledged offset := by
  rw [consumerOf_setConsumer]
  split_ifs with hsame
  · subst hsame
    have hentry : (state.groupConsumers[key]?).getD {} = state.consumerOf key := by
      rw [SnapshotState.consumerOf, h.consumers]
      rfl
    rw [hentry]
    exact Iff.rfl
  · exact Iff.rfl

theorem stepAccount [ToString LogId] {logId : LogId} (h : Unseeded state)
    (hconstructed : Constructed (command, logId))
    (happly : applyCommand state command kind logId = some (after, response)) :
    StepAccount state after command (confirmedBy command response)
      (movedBy state command after) := by
  have hframe : ∀ {streams dedup}, after = { state with streams := streams, dedup := dedup } →
      command.poll? = none → StepAccount state after command [] [] := by
    rintro streams dedup rfl hpoll
    exact .of_same hpoll h.counted (fun _ _ => Iff.rfl) rfl rfl
  cases command with
  | ack => exact hconstructed.elim
  | createStream stream streamId groupId =>
    obtain ⟨streams, heq⟩ := applyCreateStream_eq state stream streamId groupId kind
    exact hframe ((congrArg Prod.fst (Option.some.inj happly)).symm.trans heq) rfl
  | initializeDataStream stream streamId groupId =>
    obtain ⟨streams, heq⟩ := applyInitializeDataStream_eq state stream streamId groupId kind
    exact hframe ((congrArg Prod.fst (Option.some.inj happly)).symm.trans heq) rfl
  | activateStream stream =>
    obtain ⟨streams, heq⟩ := applyActivateStream_eq state stream kind
    exact hframe ((congrArg Prod.fst (Option.some.inj happly)).symm.trans heq) rfl
  | publish stream key payload publishedAtMs requestId =>
    obtain ⟨streams, dedup, heq⟩ :=
      applyPublish_eq state stream key payload publishedAtMs requestId kind
    exact hframe ((congrArg Prod.fst (Option.some.inj happly)).symm.trans heq) rfl
  | replay stream consumer offset =>
    exact hframe (congrArg Prod.fst (Option.some.inj happly)).symm rfl
  | configureConsumer stream consumer ackTimeoutMs maxDeliveryAttempts retryDelayMs =>
    have hafter := (congrArg Prod.fst (Option.some.inj happly)).symm
    obtain ⟨heq, -⟩ | ⟨-, policy, heq⟩ := applyConfigureConsumer_cases state stream consumer
      ackTimeoutMs maxDeliveryAttempts retryDelayMs kind
    · exact hframe (hafter.trans heq) rfl
    · obtain rfl : after = _ := hafter.trans heq
      exact .of_same rfl h.counted (acknowledged_configure h (stream, consumer) · policy) rfl rfl
  | pollGroup request =>
    obtain ⟨found, _, happly', hstep⟩ := applyGroupPoll_step h.wellFormed request logId kind
    obtain ⟨rfl, -⟩ := applied_inj happly' happly
    obtain rfl | ⟨offsets, assignments, hpoll, -⟩ := hstep
    · exact .of_refused h.counted
    · exact .of_poll rfl h.counted hpoll
  | pollGroupBatch request =>
    obtain ⟨found, _, happly', hstep⟩ := applyGroupBatchPoll_step h.wellFormed request kind
    obtain ⟨rfl, -⟩ := applied_inj happly' happly
    obtain rfl | ⟨offsets, assignments, hpoll, -⟩ := hstep
    · exact .of_refused h.counted
    · exact .of_poll rfl h.counted hpoll
  | ackGroup request => exact stepAccount_ack h happly
  | ackGroupBatch request => exact stepAccount_ackBatch h hconstructed happly

end Commands

section Runs

variable [ToString LogId] {kind : GroupKind} {past : List (SnapshotState × Command × LogId)}
  {state after : SnapshotState} {entry : Command × LogId}

/-- What the account of a history says about the state it reaches. -/
structure AccountInvariant (kind : GroupKind) (past : List (SnapshotState × Command × LogId))
    (state : SnapshotState) : Prop where
  unseeded : Unseeded state
  once : ∀ key offset, (past.flatMap (confirmedItems kind)).count (key, offset) +
      (past.flatMap (movedItems kind)).count (key, offset) =
    if (state.consumerOf key).Acknowledged offset then 1 else 0
  counted : state.deadLetters = min (past.flatMap (movedItems kind)).length u64Max
  appended : ∀ step ∈ past, ∀ key nowMs, step.2.1.poll? = some (key, nowMs) →
    ∃ after response records,
      applyCommand step.1 step.2.1 kind step.2.2 = some (after, response) ∧
      after.messages (deadLetterStreamName key.1) =
        step.1.messages (deadLetterStreamName key.1) ++ records ∧
      (records.map some).Perm
        ((movedItems kind step).map fun item => (step.1.messages key.1)[item.2]?)

theorem AccountInvariant.step (h : AccountInvariant kind past state)
    (hconstructed : Constructed entry) (hstep : ApplyStep kind state entry after) :
    AccountInvariant kind ((state, entry) :: past) after := by
  have heffect := hstep.effect h.unseeded.wellFormed
  obtain ⟨response, happly⟩ := hstep
  have haccount := stepAccount h.unseeded hconstructed happly
  have hconfirmed : confirmedItems kind (state, entry) = confirmedBy entry.1 response := by
    simp only [confirmedItems, happly, Option.elim_some]
  have hmoved : movedItems kind (state, entry) = movedBy state entry.1 after := by
    simp only [movedItems, happly, Option.elim_some]
  refine ⟨⟨heffect.wellFormed h.unseeded.wellFormed, ?_, ?_⟩, ?_, ?_, ?_⟩
  · rw [haccount.consumers, h.unseeded.consumers]
  · rw [haccount.counted]
    exact Nat.min_le_right _ _
  · intro key offset
    have hcount := haccount.accounted.count_add key offset
    rw [← h.once key offset, List.count_append] at hcount
    rw [List.flatMap_cons, List.flatMap_cons, List.count_append, List.count_append, hconfirmed,
      hmoved, ← hcount]
    omega
  · rw [List.flatMap_cons, List.length_append, hmoved, haccount.counted, h.counted]
    omega
  · intro step hmem key nowMs hpoll
    rcases List.mem_cons.1 hmem with rfl | hmem
    · obtain ⟨records, hrecords, hperm⟩ := haccount.appended key nowMs hpoll
      exact ⟨after, response, records, happly, hrecords, hmoved ▸ hperm⟩
    · exact h.appended step hmem key nowMs hpoll

theorem accountInvariant_run
    (h : Run Empty (guarded (fun _ entry => Constructed entry) (ApplyStep kind)) past state) :
    AccountInvariant kind past state := by
  apply h.history_invariant
  · rintro _ rfl
    refine ⟨⟨?_, rfl, Nat.zero_le _⟩, ?_, rfl, by simp⟩
    · intro key consumer hget
      simp at hget
    · intro key offset
      rw [if_neg]
      · rfl
      · simp [SnapshotState.consumerOf, GroupConsumerState.Acknowledged]
  · rintro past state entry after hinvariant ⟨hconstructed, hstep⟩
    exact hinvariant.step hconstructed hstep

end Runs

/-- In every history of commands as the engine builds them, an offset is behind a consumer exactly
if the account of the history holds it, and the account holds it once: as an accepted item of an
acknowledgement, or as a record that a poll appended unchanged to the dead-letter stream. The
dead-letter count is the number of those records. -/
theorem acknowledged_exactly_once [ToString LogId] {source streamId groupId : String}
    {past : List (SnapshotState × Command × LogId)} {state : SnapshotState}
    (h : Run Empty (guarded (fun _ entry => Constructed entry)
      (ApplyStep (.data source streamId groupId))) past state) :
    (∀ key offset,
      (past.flatMap (confirmedItems (.data source streamId groupId))).count (key, offset) +
        (past.flatMap (movedItems (.data source streamId groupId))).count (key, offset) =
      if (state.consumerOf key).Acknowledged offset then 1 else 0) ∧
    (∀ step ∈ past, ∀ key nowMs, step.2.1.poll? = some (key, nowMs) →
      ∃ after response records,
        applyCommand step.1 step.2.1 (.data source streamId groupId) step.2.2 =
          some (after, response) ∧
        after.messages (deadLetterStreamName key.1) =
          step.1.messages (deadLetterStreamName key.1) ++ records ∧
        (records.map some).Perm ((movedItems (.data source streamId groupId) step).map
          fun item => (step.1.messages key.1)[item.2]?)) ∧
    state.deadLetters =
      min (past.flatMap (movedItems (.data source streamId groupId))).length u64Max := by
  have hinvariant := accountInvariant_run h
  exact ⟨hinvariant.once, hinvariant.appended, hinvariant.counted⟩

section Examples

open scoped LogId.Display

def tasksGroup : GroupKind := .data "tasks" "stream/tasks" "group/tasks/data"

/-- One record of a stream is delivered in a batch. -/
def deliveredTask : List (Command × LogId) :=
  [(.initializeDataStream "tasks" "stream/tasks" "group/tasks/data", ⟨1, 1, 1⟩),
   (.publish "tasks" none [7] 3 none, ⟨1, 1, 2⟩),
   (.pollGroupBatch ⟨"tasks", "workers", "a", none, 10, 10000, "seed", 5, 50, some 2, some 45, none,
      false⟩, ⟨1, 1, 3⟩)]

/-- A batch acknowledgement of the delivered record with the given receipts. -/
def acknowledgeTask (receipts : List DeliveryReceipt) : Command × LogId :=
  (.ackGroupBatch ⟨"tasks", "workers", "a", receipts, 6⟩, ⟨1, 1, 4⟩)

/-- The acknowledged record is in the account once. -/
theorem receipt_accounted_once :
    ∃ past state, Run Empty (guarded (fun _ entry => Constructed entry)
        (ApplyStep tasksGroup)) past state ∧
      (state.consumerOf ("tasks", "workers")).Acknowledged 0 ∧
      (past.flatMap (confirmedItems tasksGroup)).count (("tasks", "workers"), 0) +
        (past.flatMap (movedItems tasksGroup)).count (("tasks", "workers"), 0) = 1 := by
  have hsome : (follow (applyNext? tasksGroup) (deliveredTask ++ [acknowledgeTask [⟨0, "seed-0"⟩]])
      []
      {}).any fun result => (result.2.consumerOf ("tasks", "workers")).Acknowledged 0 := by
    decide +kernel
  obtain ⟨⟨past, state⟩, happly, hacked⟩ := Option.any_eq_true _ _ |>.1 hsome
  have hrun : Run Empty (guarded (fun _ entry => Constructed entry) (ApplyStep tasksGroup))
      past state := by
    refine guarded_run_of_follow (.start rfl) ?_ happly
    intro entry hentry _
    simp only [deliveredTask, acknowledgeTask, List.cons_append, List.nil_append, List.mem_cons,
      List.not_mem_nil, or_false] at hentry
    rcases hentry with rfl | rfl | rfl | rfl
    · trivial
    · trivial
    · trivial
    · exact List.nodup_singleton _
  have honce := (acknowledged_exactly_once hrun).1 ("tasks", "workers") 0
  rw [if_pos (of_decide_eq_true hacked)] at honce
  exact ⟨past, state, hrun, of_decide_eq_true hacked, honce⟩

/-- A batch that names one offset twice gets it confirmed twice. -/
theorem repeated_receipt_confirmed_twice :
    ∃ past state, Run Empty (guarded (fun _ entry => ∀ stream consumer offset,
        entry.1 ≠ .ack stream consumer offset) (ApplyStep tasksGroup)) past state ∧
      (state.consumerOf ("tasks", "workers")).Acknowledged 0 ∧
      (past.flatMap (confirmedItems tasksGroup)).count (("tasks", "workers"), 0) = 2 := by
  have hsome : (follow (applyNext? tasksGroup)
      (deliveredTask ++ [acknowledgeTask [⟨0, "seed-0"⟩, ⟨0, "seed-0"⟩]]) [] {}).any fun result =>
        (result.2.consumerOf ("tasks", "workers")).Acknowledged 0 ∧
        (result.1.flatMap (confirmedItems tasksGroup)).count (("tasks", "workers"), 0) = 2 := by
    decide +kernel
  obtain ⟨⟨past, state⟩, happly, hfacts⟩ := Option.any_eq_true _ _ |>.1 hsome
  obtain ⟨hacked, htwice⟩ := of_decide_eq_true hfacts
  refine ⟨past, state, guarded_run_of_follow (.start rfl) ?_ happly, hacked, htwice⟩
  intro entry hentry _
  simp only [deliveredTask, acknowledgeTask, List.cons_append, List.nil_append, List.mem_cons,
    List.not_mem_nil, or_false] at hentry
  rcases hentry with rfl | rfl | rfl | rfl <;> simp

end Examples

end Runnel.Cluster
