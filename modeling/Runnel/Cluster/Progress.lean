import Runnel.Cluster.History

/-!
# Consumer progress and the log

Progress stays within the log as long as an acknowledgement that carries no
delivery token names a delivered record.
-/

namespace Runnel.Cluster

open Runnel.Engine GroupConsumerState Transition

/-- An acknowledgement without a lease names a record that was delivered: a tokenless group
acknowledgement of the next offset has a recorded attempt, and a scalar acknowledgement comes
after the consumer's first group command. Streams that are not active are left out. -/
def AckGuard (state : SnapshotState) (entry : Command × LogId) : Prop :=
  match entry.1 with
  | .ack stream consumer offset =>
    state.streamActive stream = true ∧ offset = (state.consumers[(stream, consumer)]?).getD 0 →
      (stream, consumer) ∈ state.groupConsumers
  | .ackGroup request =>
    state.streamActive request.stream = true ∧ request.deliveryToken = "" ∧
        request.member = request.consumer ∧
        request.offset = (state.consumerOf request.consumerKey).committedOffset →
      request.offset ∈ (state.consumerOf request.consumerKey).deliveryAttempts
  | _ => True

instance (state : SnapshotState) : (entry : Command × LogId) → Decidable (AckGuard state entry)
  | (.ack _ _ _, _) => inferInstanceAs (Decidable (_ ∧ _ → _))
  | (.ackGroup _, _) => inferInstanceAs (Decidable (_ ∧ _ ∧ _ ∧ _ → _))
  | (.createStream _ _ _, _) | (.initializeDataStream _ _ _, _) | (.activateStream _, _)
  | (.publish _ _ _ _ _, _) | (.configureConsumer _ _ _ _ _, _) | (.replay _ _ _, _)
  | (.pollGroup _, _) | (.pollGroupBatch _, _) | (.ackGroupBatch _, _) => .isTrue trivial

/-- The consumer held the offset in this state or an earlier one. -/
def EarlierAssigned (past : List (SnapshotState × Command × LogId)) (state : SnapshotState)
    (key : ConsumerKey) (offset : ℕ) : Prop :=
  ∃ earlier ∈ state :: past.map Prod.fst, offset ∈ (earlier.consumerOf key).inFlight

/-- The step appends the record to the dead-letter stream. -/
def DeadLetteredBy (state after : SnapshotState) (key : ConsumerKey) (offset : ℕ) : Prop :=
  ∃ stored moved, (state.messages key.1)[offset]? = some stored ∧ stored ∈ moved ∧
    after.messages (deadLetterStreamName key.1) =
      state.messages (deadLetterStreamName key.1) ++ moved

def ScalarKnown (state : SnapshotState) : Prop :=
  ∀ key : ConsumerKey, key ∉ state.groupConsumers → state.consumers[key]? = none

/-- What one guarded command does to a consumer: it keeps the log, acknowledges only attempted
or dead-lettered records, and attempts only what it puts in flight. -/
structure GuardedStep (state after : SnapshotState) (key : ConsumerKey) : Prop where
  messages : state.messages key.1 <+: after.messages key.1
  acknowledged : ∀ offset, (after.consumerOf key).Acknowledged offset →
    (state.consumerOf key).Acknowledged offset ∨
    offset ∈ (state.consumerOf key).deliveryAttempts ∨ DeadLetteredBy state after key offset
  attempts : ∀ offset, offset ∈ (after.consumerOf key).deliveryAttempts →
    offset ∈ (state.consumerOf key).deliveryAttempts ∨ offset ∈ (after.consumerOf key).inFlight

variable {state after : SnapshotState} {key : ConsumerKey}

theorem GuardedStep.of_same (hmessages : state.messages key.1 <+: after.messages key.1)
    (hacknowledged : ∀ offset, (after.consumerOf key).Acknowledged offset →
      (state.consumerOf key).Acknowledged offset)
    (hattempts : (after.consumerOf key).deliveryAttempts =
      (state.consumerOf key).deliveryAttempts) : GuardedStep state after key :=
  ⟨hmessages, fun offset h => Or.inl (hacknowledged offset h),
    fun _ h => Or.inl (hattempts ▸ h)⟩

variable {other : ConsumerKey} {nowMs : ℕ} {consumer : GroupConsumerState}

/-- The step of a command that opened a consumer and acknowledged some attempted offsets. -/
theorem GuardedStep.of_acknowledge {offsets : List ℕ}
    (hreleased : Released (max state.leaseClockMs nowMs) (state.consumerOf key) consumer)
    (hattempted : ∀ offset ∈ offsets, offset ∈ consumer.deliveryAttempts) :
    GuardedStep state
      (state.opened key nowMs (offsets.foldl acknowledgeGroupOffset consumer)) other := by
  by_cases hkey : key = other
  · subst hkey
    refine ⟨List.prefix_refl _, fun offset h => ?_, fun offset h => ?_⟩
    · rw [consumerOf_opened, if_pos rfl, acknowledged_foldl] at h
      rcases h with h | h
      · exact Or.inl ((hreleased.same.acknowledged_iff offset).1 h)
      · exact Or.inr (Or.inl (hreleased.same.attempts ▸ hattempted offset h))
    · rw [consumerOf_opened, if_pos rfl] at h
      exact Or.inl (hreleased.same.attempts ▸ (mem_attempts_foldl h).1)
  · have hsame := consumerOf_opened state key other nowMs
      (offsets.foldl acknowledgeGroupOffset consumer)
    rw [if_neg hkey] at hsame
    exact .of_same (List.prefix_refl _) (fun offset h => hsame ▸ h) (by rw [hsame])

/-- The step of a poll: dead-lettered records are acknowledged, assigned ones are in flight. -/
theorem GuardedStep.of_poll {terms : PollTerms}
    (hreleased : Released (max state.leaseClockMs nowMs) (state.consumerOf key) consumer)
    (houtcome : PollOutcome key terms (state.opened key nowMs consumer) after) :
    GuardedStep state after other := by
  obtain ⟨offsets, assignments, middle, hdead, hmessages, hconsumer, hothers⟩ :=
    houtcome.consumerOf (SnapshotState.setConsumer_getElem?_self _ _ _)
  have hgrow : state.messages other.1 <+: after.messages other.1 := by
    rw [hmessages]
    exact hdead.messages_grow other.1
  by_cases hkey : key = other
  · subst hkey
    refine ⟨hgrow, fun offset h => ?_, fun offset h => ?_⟩
    · rw [hconsumer, acknowledged_assignAll, acknowledged_foldl] at h
      rcases h with h | h
      · exact Or.inl ((hreleased.same.acknowledged_iff offset).1 h)
      · obtain ⟨moved, hmoved, hall⟩ := hdead.moved
        have hmem := List.mem_map_of_mem (f := fun offset =>
          ((state.opened key nowMs consumer).messages key.1)[offset]?) h
        rw [hall] at hmem
        obtain ⟨stored, hstored, hget⟩ := List.mem_map.1 hmem
        exact Or.inr (Or.inr ⟨stored, moved, hget.symm, hstored, by rw [hmessages, hmoved]; rfl⟩)
    · rw [hconsumer] at h ⊢
      rcases mem_attempts_assignAll.1 h with h | h
      · exact Or.inl (hreleased.same.attempts ▸ (mem_attempts_foldl h).1)
      · exact Or.inr (mem_inFlight_assignAll.2 (Or.inr h))
  · have hsame : after.consumerOf other = state.consumerOf other := by
      rw [hothers other hkey, consumerOf_opened, if_neg hkey]
    exact .of_same hgrow (fun offset h => hsame ▸ h) (by rw [hsame])

theorem Effect.guardedStep {entry : Command × LogId}
    (h : Effect state entry.1 after) (hwf : state.WellFormed) (hscalar : ScalarKnown state)
    (hguard : AckGuard state entry) (key : ConsumerKey) : GuardedStep state after key := by
  obtain ⟨command, logId⟩ := entry
  cases h with
  | unchanged => exact .of_same (List.prefix_refl _) (fun _ h => h) rfl
  | streams hgroup hconsumers _ hgrow =>
    have hsame : after.consumerOf key = state.consumerOf key := by
      rw [SnapshotState.consumerOf, SnapshotState.consumerOf, hgroup, hconsumers]
    exact .of_same (hgrow key.1) (fun offset h => hsame ▸ h) (by rw [hsame])
  | @ack stream name offset hactive hoffset =>
    -- The consumer is known already, so scalar progress no longer seeds it.
    obtain ⟨consumer, hget⟩ := mem_iff_exists_getElem?.1 (hguard ⟨hactive, hoffset⟩)
    have hsame : ({ state with consumers := state.consumers.insert (stream, name) (offset + 1) } :
        SnapshotState).consumerOf key = state.consumerOf key := by
      by_cases hkey : (stream, name) = key
      · subst hkey
        rw [consumerOf_of_getElem? hget]
        exact consumerOf_of_getElem? hget
      · simp [SnapshotState.consumerOf, Std.ExtTreeMap.getElem?_insert, hkey]
    exact .of_same (List.prefix_refl _) (fun offset h => hsame ▸ h) (by rw [hsame])
  | configure key' policy =>
    have hentry : (state.groupConsumers[key']?).getD {} = state.consumerOf key' := by
      unfold SnapshotState.consumerOf
      cases hget : state.groupConsumers[key']? with
      | some consumer => rfl
      | none =>
        have hnot : key' ∉ state.groupConsumers := by
          simp [Std.ExtTreeMap.mem_iff_isSome_getElem?, hget]
        rw [hscalar key' hnot]
        rfl
    rw [hentry]
    by_cases hkey : key' = key
    · subst hkey
      refine .of_same (List.prefix_refl _) (fun offset h => ?_) ?_
      · rw [consumerOf_setConsumer, if_pos rfl] at h
        exact h
      · rw [consumerOf_setConsumer, if_pos rfl]
    · have hsame := consumerOf_setConsumer state key' key
        { state.consumerOf key' with policy := policy }
      rw [if_neg hkey] at hsame
      exact .of_same (List.prefix_refl _) (fun offset h => hsame ▸ h) (by rw [hsame])
  | poll _ _ hreleased houtcome => exact .of_poll hreleased houtcome
  | acknowledge _ hreleased hflight =>
    have hconsumer := (hwf.consumerOf _).released hreleased
    exact .of_acknowledge hreleased
      (fun offset hmem => hconsumer.attempted_of_inFlight (hflight offset hmem))
  | @tokenless request consumer hactive hreleased htoken hmember hoffset =>
    have hattempted : request.offset ∈ consumer.deliveryAttempts := by
      rw [hreleased.same.attempts]
      exact hguard ⟨hactive, htoken, hmember, by rw [hoffset, hreleased.same.committed]⟩
    have hall : ∀ offset ∈ [request.offset], offset ∈ consumer.deliveryAttempts := by
      simpa using hattempted
    exact .of_acknowledge hreleased hall

theorem mem_opened (h : other ∈ state.groupConsumers) :
    other ∈ (state.opened key nowMs consumer).groupConsumers :=
  Std.ExtTreeMap.mem_insert.2 (Or.inr h)

/-- Group commands only add consumers, and a guarded scalar acknowledgement needs one. -/
theorem Effect.scalarKnown {entry : Command × LogId}
    (h : Effect state entry.1 after) (hscalar : ScalarKnown state)
    (hguard : AckGuard state entry) : ScalarKnown after := by
  obtain ⟨command, logId⟩ := entry
  intro key hnot
  cases h with
  | unchanged => exact hscalar key hnot
  | streams hgroup hconsumers =>
    rw [hconsumers]
    exact hscalar key (hgroup ▸ hnot)
  | @ack stream name offset hactive hoffset =>
    have hne : (stream, name) ≠ key := by
      rintro rfl
      exact hnot (hguard ⟨hactive, hoffset⟩)
    simpa [Std.ExtTreeMap.getElem?_insert, hne] using hscalar key hnot
  | configure key' policy =>
    exact hscalar key fun hmem => hnot (Std.ExtTreeMap.mem_insert.2 (Or.inr hmem))
  | poll _ _ hreleased houtcome =>
    obtain ⟨offsets, middle, current, assignments, _, hdead, -, -, -, rfl⟩ := houtcome
    have hconsumers := hdead.groupConsumers_eq (SnapshotState.setConsumer_getElem?_self _ _ _)
    refine (congrArg (·[key]?) hdead.consumers_eq).trans (hscalar key fun hmem => hnot ?_)
    refine Std.ExtTreeMap.mem_insert.2 (Or.inr ?_)
    rw [hconsumers]
    exact Std.ExtTreeMap.mem_insert.2 (Or.inr (mem_opened hmem))
  | acknowledge => exact hscalar key fun hmem => hnot (mem_opened hmem)
  | tokenless => exact hscalar key fun hmem => hnot (mem_opened hmem)

theorem GuardedStep.stored {state after : SnapshotState} {key : ConsumerKey}
    (h : GuardedStep state after key) (hwf : state.WellFormed) {offset : ℕ}
    (hafter : (after.consumerOf key).Acknowledged offset)
    (hbefore : ¬ (state.consumerOf key).Acknowledged offset) :
    offset < (state.messages key.1).length ∧
      (offset ∈ (state.consumerOf key).deliveryAttempts ∨
        DeadLetteredBy state after key offset) := by
  rcases h.acknowledged offset hafter with hacked | hattempted | hdead
  · exact absurd hacked hbefore
  · exact ⟨((hwf.consumerOf key).inTurn offset hattempted).stored, Or.inl hattempted⟩
  · obtain ⟨stored, moved, hget, hmoved⟩ := hdead
    exact ⟨(List.getElem?_eq_some_iff.1 hget).1, Or.inr ⟨stored, moved, hget, hmoved⟩⟩

section Runs

variable [ToString LogId] {kind : GroupKind}

/-- What every guarded history keeps. -/
structure ProgressInvariant (past : List (SnapshotState × Command × LogId))
    (state : SnapshotState) : Prop where
  wellFormed : state.WellFormed
  scalarKnown : ScalarKnown state
  bounded : ∀ (key : ConsumerKey) (offset : ℕ), (state.consumerOf key).Acknowledged offset →
    offset < (state.messages key.1).length
  assigned : ∀ (key : ConsumerKey) (offset : ℕ),
    offset ∈ (state.consumerOf key).deliveryAttempts → EarlierAssigned past state key offset

variable {past : List (SnapshotState × Command × LogId)}

theorem progressInvariant_step {state after : SnapshotState} {entry : Command × LogId}
    (h : ProgressInvariant past state)
    (hstep : guarded AckGuard (ApplyStep kind) state entry after) :
    ProgressInvariant ((state, entry) :: past) after := by
  have heffect := hstep.2.effect h.wellFormed
  have hguarded := fun key => heffect.guardedStep h.wellFormed h.scalarKnown hstep.1 key
  refine ⟨heffect.wellFormed h.wellFormed, heffect.scalarKnown h.scalarKnown hstep.1,
    fun key offset hacked => ?_, fun key offset hattempted => ?_⟩
  · refine lt_of_lt_of_le ?_ (hguarded key).messages.length_le
    by_cases hbefore : (state.consumerOf key).Acknowledged offset
    · exact h.bounded key offset hbefore
    · exact ((hguarded key).stored h.wellFormed hacked hbefore).1
  · rcases (hguarded key).attempts offset hattempted with hold | hnew
    · obtain ⟨earlier, hmem, hflight⟩ := h.assigned key offset hold
      exact ⟨earlier, by simpa using Or.inr hmem, hflight⟩
    · exact ⟨after, List.mem_cons_self, hnew⟩

theorem progressInvariant_run
    {state : SnapshotState} (h : Run Empty (guarded AckGuard (ApplyStep kind)) past state) :
    ProgressInvariant past state := by
  refine h.history_invariant ?_ fun _ _ _ _ => progressInvariant_step
  rintro _ rfl
  refine ⟨fun key consumer hget => by simp at hget, fun key _ => by simp,
    fun key offset hacked => ?_, fun key offset hattempted => ?_⟩
  · simp [SnapshotState.consumerOf, Acknowledged] at hacked
  · simp [SnapshotState.consumerOf] at hattempted

/-- In a guarded history progress never outruns the log: the committed prefix and every
acknowledged offset are within the stream, what a step acknowledges exists and was assigned
before or moves to the dead-letter stream, and what a step appends is not acknowledged yet. -/
theorem guarded_progress_within_log {past : List (SnapshotState × Command × LogId)}
    {state : SnapshotState} (h : Run Empty (guarded AckGuard (ApplyStep kind)) past state)
    (stream name : String) :
    (state.consumerOf (stream, name)).committedOffset ≤ (state.messages stream).length ∧
    (∀ offset ∈ (state.consumerOf (stream, name)).acknowledgedOffsets,
      offset < (state.messages stream).length) ∧
    (∀ entry after, guarded AckGuard (ApplyStep kind) state entry after →
      (∀ offset, (after.consumerOf (stream, name)).Acknowledged offset →
        ¬ (state.consumerOf (stream, name)).Acknowledged offset →
        offset < (state.messages stream).length ∧
          (EarlierAssigned past state (stream, name) offset ∨
            DeadLetteredBy state after (stream, name) offset)) ∧
      ∀ offset, (state.messages stream).length ≤ offset →
        offset < (after.messages stream).length →
        ¬ (after.consumerOf (stream, name)).Acknowledged offset) := by
  have hinv := progressInvariant_run h
  have hbounded := hinv.bounded (stream, name)
  refine ⟨?_, fun offset hmem => hbounded offset (Or.inr hmem), fun entry after hstep => ?_⟩
  · by_contra hlt
    exact lt_irrefl _ (hbounded (state.messages stream).length (Or.inl (by omega)))
  · have hguarded := (hstep.2.effect hinv.wellFormed).guardedStep hinv.wellFormed hinv.scalarKnown
      hstep.1 (stream, name)
    refine ⟨fun offset hafter hbefore => ?_, fun offset hle _ hafter => ?_⟩
    · obtain ⟨hstored, hattempted | hdead⟩ := hguarded.stored hinv.wellFormed hafter hbefore
      · exact ⟨hstored, Or.inl (hinv.assigned _ offset hattempted)⟩
      · exact ⟨hstored, Or.inr hdead⟩
    · by_cases hbefore : (state.consumerOf (stream, name)).Acknowledged offset
      · exact absurd (hbounded offset hbefore) (by simpa using hle)
      · exact absurd (hguarded.stored hinv.wellFormed hafter hbefore).1 (by simpa using hle)

end Runs

section Examples

open scoped LogId.Display

def eventsGroup : GroupKind := .data "events" "stream/events" "group/events/data"

/-- A record is published, delivered, and acknowledged with its receipt. -/
def receiptHistory : List (Command × LogId) :=
  [(.initializeDataStream "events" "stream/events" "group/events/data", ⟨1, 1, 1⟩),
   (.publish "events" none [1] 0 none, ⟨1, 1, 2⟩),
   (.publish "events" none [2] 0 none, ⟨1, 1, 3⟩),
   (.pollGroup
      { stream := "events"
        consumer := "workers"
        member := "a"
        responseMember := none
        maxResponseBytes := 1000
        nowMs := 5
        leaseDeadlineMs := 50
        maxDeliveryAttempts := none
        legacyAckTimeoutMs := none
        policyVersion := none }, ⟨1, 1, 4⟩),
   (.ackGroup ⟨"events", "workers", "a", 0, "raft-T1-N1-4", 6⟩, ⟨1, 1, 5⟩)]

theorem progress_after_receipt :
    ∃ past state, Run Empty (guarded AckGuard (ApplyStep eventsGroup)) past state ∧
      follow (allowed AckGuard (applyNext? eventsGroup)) receiptHistory [] {} =
        some (past, state) ∧
      (state.consumerOf ("events", "workers")).committedOffset ≤
        (state.messages "events").length := by
  have hsome : (follow (allowed AckGuard (applyNext? eventsGroup)) receiptHistory []
      {}).isSome := by
    decide +kernel
  obtain ⟨⟨past, state⟩, hfollow⟩ := Option.isSome_iff_exists.1 hsome
  have hrun : Run Empty (guarded AckGuard (ApplyStep eventsGroup)) past state :=
    .of_follow (fun _ _ _ _ => guarded_of_allowed applyStep_of_applyNext?) (.start rfl) hfollow
  exact ⟨past, state, hrun, hfollow, (guarded_progress_within_log hrun "events" "workers").1⟩

/-- A tokenless acknowledgement of an empty stream. -/
def tokenlessHistory : List (Command × LogId) :=
  [(.initializeDataStream "events" "stream/events" "group/events/data", ⟨1, 1, 1⟩),
   (.ackGroup ⟨"events", "workers", "workers", 0, "", 5⟩, ⟨1, 1, 2⟩)]

/-- Without the guard progress outruns the log, and the record published next is skipped. -/
theorem tokenless_ack_outruns_log :
    ∃ state after, Reachable eventsGroup state ∧
      ApplyStep eventsGroup state (.publish "events" none [1] 0 none, ⟨1, 1, 3⟩) after ∧
      (state.messages "events").length <
        (state.consumerOf ("events", "workers")).committedOffset ∧
      0 < (after.messages "events").length ∧
      (after.consumerOf ("events", "workers")).Acknowledged 0 := by
  have hsome : (applyAll eventsGroup tokenlessHistory {}).isSome := by decide +kernel
  refine ⟨_, ((applyCommand ((applyAll eventsGroup tokenlessHistory {}).getD {})
    (.publish "events" none [1] 0 none) eventsGroup ⟨1, 1, 3⟩).map Prod.fst).getD {},
    reachable_getD hsome, ⟨_, rfl⟩, by decide +kernel, by decide +kernel, by decide +kernel⟩

end Examples

end Runnel.Cluster
