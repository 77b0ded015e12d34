import Runnel.Cluster.History

/-!
# Per-key exclusion and order in the cluster

Messages with one key are delivered one at a time and in offset order, and a
pending retry holds its key back.
-/

namespace Runnel.Cluster

open Runnel.Engine GroupConsumerState Transition

namespace WellFormed

variable {messages : List StoredMessage} {consumer : GroupConsumerState}

theorem inFlight_key_unique (h : WellFormed messages consumer) {key : String} {a b : ℕ}
    (ha : a ∈ consumer.inFlight) (hb : b ∈ consumer.inFlight)
    (hkeyA : keyAt messages a = some key) (hkeyB : keyAt messages b = some key) : a = b :=
  (h.inTurn a (h.attempted_of_inFlight ha)).eq_of_key (h.inTurn b (h.attempted_of_inFlight hb))
    hkeyA hkeyB

theorem retry_key_eq (h : WellFormed messages consumer) {key : String} {offset other : ℕ}
    {schedule : GroupRetrySchedule} (hflight : offset ∈ consumer.inFlight)
    (hretry : consumer.retryNotBefore[other]? = some schedule)
    (hkey : keyAt messages offset = some key) (hother : keyAt messages other = some key) :
    other = offset :=
  (h.inTurn other (h.retry other schedule hretry).1).eq_of_key
    (h.inTurn offset (h.attempted_of_inFlight hflight)) hother hkey

end WellFormed

theorem DeadLettered.retry_of_later {key : ConsumerKey} {terms : PollTerms}
    {before after : SnapshotState} {offsets : List ℕ}
    (h : DeadLettered key terms before offsets after) (hwf : before.WellFormed)
    {consumer consumer' : GroupConsumerState} {offset : ℕ} {schedule : GroupRetrySchedule}
    (hget : before.groupConsumers[key]? = some consumer)
    (hget' : after.groupConsumers[key]? = some consumer')
    (hretry : consumer.retryNotBefore[offset]? = some schedule)
    (hlater : terms.nowMs < schedule.retryNotBeforeMs) :
    consumer'.retryNotBefore[offset]? = some schedule := by
  induction h generalizing consumer with
  | done state =>
    obtain rfl : consumer = consumer' := Option.some.inj (hget.symm.trans hget')
    exact hretry
  | @move state next after current moved rest hcurrent _ _ hwaiting _ _ hmoved _ ih =>
    obtain rfl : current = consumer := Option.some.inj (hcurrent.symm.trans hget)
    obtain ⟨consumer'', hget'', hconsumers⟩ := hmoved.consumer
    obtain rfl : consumer'' = current := Option.some.inj (hget''.symm.trans hget)
    have hne : offset ≠ moved := by
      rintro rfl
      exact hwaiting (mem_retryFilter_offsets.2 ⟨schedule, hretry, hlater⟩)
    have hpending := ((hwf key consumer'' hget).inTurn offset
      ((hwf key consumer'' hget).retry offset schedule hretry).1).pending
    have hnext : next.groupConsumers[key]? = some (consumer''.acknowledgeGroupOffset moved) := by
      rw [hconsumers, SnapshotState.setConsumer_getElem?_self]
    refine ih (hmoved.wellFormed hwf) hnext hget' ?_
    rw [(acknowledgeGroupOffset_spec consumer'' moved).retry offset hne hpending, hretry]

/-- A schedule that is not due when a poll arrives is still there when the poll is done. -/
theorem Effect.retry_of_later {state after : SnapshotState} {command : Command}
    {key : ConsumerKey} {nowMs : ℕ} (h : Effect state command after) (hwf : state.WellFormed)
    (hpoll : command.poll? = some (key, nowMs)) {consumer : GroupConsumerState}
    (hget : after.groupConsumers[key]? = some consumer) {offset : ℕ}
    {schedule : GroupRetrySchedule}
    (hretry : (state.consumerOf key).retryNotBefore[offset]? = some schedule)
    (hlater : max state.leaseClockMs nowMs < schedule.retryNotBeforeMs) :
    consumer.retryNotBefore[offset]? = some schedule := by
  have hsame : state.groupConsumers[key]? = some consumer →
      consumer.retryNotBefore[offset]? = some schedule := by
    intro hstate
    simpa [SnapshotState.consumerOf, hstate] using hretry
  cases h with
  | unchanged => exact hsame hget
  | streams hconsumers => exact hsame (hconsumers ▸ hget)
  | ack => cases hpoll
  | configure _ _ hnone => exact absurd (hnone.symm.trans hpoll) (by simp)
  | acknowledge hnone => exact absurd (hnone.symm.trans hpoll) (by simp)
  | tokenless => cases hpoll
  | @poll _ key' nowMs' opened terms _ hpoll' hterms hreleased houtcome =>
    obtain ⟨rfl, rfl⟩ := applied_inj hpoll' hpoll
    rw [← hterms] at hlater
    obtain ⟨offsets, middle, current, assignments, _, hdead, hcurrent, hassignable, -, rfl⟩ :=
      houtcome
    have hopened := state.opened_getElem? key' nowMs' opened
    have hretryOpened : opened.retryNotBefore[offset]? = some schedule := by
      rw [hreleased.retry, hretry]
      rfl
    have hretryCurrent := hdead.retry_of_later (hwf.opened hreleased) hopened hcurrent
      hretryOpened hlater
    obtain rfl : assignAll current assignments = consumer :=
      Option.some.inj ((SnapshotState.setConsumer_getElem?_self _ _ _).symm.trans hget)
    rw [retry_assignAll, hretryCurrent]
    rintro a ha rfl
    exact (hassignable a ha).notWaiting
      (mem_retryFilter_offsets.2 ⟨schedule, hretryCurrent, hlater⟩)

/-- The poll assigned the offset: it is in flight afterwards, and was not under a live lease
before. -/
def AssignedBy (state after : SnapshotState) (key : ConsumerKey) (nowMs offset : ℕ) : Prop :=
  (∃ consumer, after.groupConsumers[key]? = some consumer ∧ offset ∈ consumer.inFlight) ∧
  ∀ delivery, (state.consumerOf key).inFlight[offset]? = some delivery →
    leaseExpired delivery.deadlineMs nowMs = true

/-- Exclusion and order per key, in every reachable state and at every assignment. The retry
times are those the poll found and those it left, against the clock it decided by. -/
theorem reachable_keyOrder [ToString LogId] (kind : GroupKind) {state : SnapshotState}
    (h : Reachable kind state) (stream name key : String) :
    (∀ consumer, state.groupConsumers[(stream, name)]? = some consumer →
      (∀ a b : ℕ, a ∈ consumer.inFlight → b ∈ consumer.inFlight →
        keyAt (state.messages stream) a = some key → keyAt (state.messages stream) b = some key →
        a = b) ∧
      (∀ offset : ℕ, offset ∈ consumer.inFlight →
        keyAt (state.messages stream) offset = some key →
        ∀ lower < offset, keyAt (state.messages stream) lower = some key →
          lower < consumer.committedOffset ∨ lower ∈ consumer.acknowledgedOffsets)) ∧
    (∀ (command : Command) (logId : LogId) (after : SnapshotState) (nowMs : ℕ),
      ApplyStep kind state (command, logId) after →
      command.poll? = some ((stream, name), nowMs) →
      ∀ offset : ℕ, AssignedBy state after (stream, name) (max state.leaseClockMs nowMs) offset →
      keyAt (after.messages stream) offset = some key →
      ¬ ∃ (other : ℕ) (schedule : GroupRetrySchedule),
        other ≠ offset ∧ keyAt (after.messages stream) other = some key ∧
        ((state.consumerOf (stream, name)).retryNotBefore[other]? = some schedule ∨
          (after.consumerOf (stream, name)).retryNotBefore[other]? = some schedule) ∧
        max state.leaseClockMs nowMs < schedule.retryNotBeforeMs) := by
  obtain ⟨past, hrun⟩ := h
  have hwf := Run.wellFormed hrun
  refine ⟨fun consumer hget => ?_, ?_⟩
  · have hconsumer := hwf (stream, name) consumer hget
    refine ⟨fun a b ha hb hkeyA hkeyB => hconsumer.inFlight_key_unique ha hb hkeyA hkeyB,
      fun offset hflight hkey lower hlt hlower => ?_⟩
    exact (hconsumer.inTurn offset (hconsumer.attempted_of_inFlight hflight)).lower key hkey lower
      hlt hlower
  · rintro command logId after nowMs hstep hpoll offset hassigned hkey
      ⟨other, schedule, hne, hother, hretry, hlater⟩
    have heffect := hstep.effect hwf
    obtain ⟨⟨consumer, hget, hflight⟩, -⟩ := hassigned
    have hconsumer := heffect.wellFormed hwf (stream, name) consumer hget
    -- A schedule that is not due is there after the poll too, next to the assigned offset.
    have hafter : consumer.retryNotBefore[other]? = some schedule := by
      rcases hretry with hretry | hretry
      · exact heffect.retry_of_later hwf hpoll hget hretry hlater
      · simpa [SnapshotState.consumerOf, hget] using hretry
    exact hne (hconsumer.retry_key_eq hflight hafter hkey hother)

section Witness

open scoped LogId.Display

def workerPoll (member : String) (nowMs leaseDeadlineMs : ℕ) : Command :=
  .pollGroup
    { stream := "events"
      consumer := "workers"
      member := member
      responseMember := none
      maxResponseBytes := 1000
      nowMs := nowMs
      leaseDeadlineMs := leaseDeadlineMs
      maxDeliveryAttempts := none
      legacyAckTimeoutMs := none
      policyVersion := none }

/-- Two records with one key; the first is delivered and acknowledged. -/
def keyedHistory : List (Command × LogId) :=
  [(.publish "events" (some "k") [1] 0 none, ⟨1, 1, 1⟩),
   (.publish "events" (some "k") [2] 0 none, ⟨1, 1, 2⟩),
   (workerPoll "a" 5 50, ⟨1, 1, 3⟩),
   (.ackGroup ⟨"events", "workers", "a", 0, "raft-T1-N1-3", 6⟩, ⟨1, 1, 4⟩)]

def keyedState : SnapshotState := (applyAll .combined keyedHistory {}).getD {}

def keyedAfter : SnapshotState :=
  ((applyCommand keyedState (workerPoll "b" 7 60) .combined ⟨1, 1, 5⟩).map Prod.fst).getD {}

/-- The second record is assigned once the first is acknowledged. -/
theorem keyOrder_second_record :
    ApplyStep .combined keyedState (workerPoll "b" 7 60, ⟨1, 1, 5⟩) keyedAfter ∧
    AssignedBy keyedState keyedAfter ("events", "workers") (max keyedState.leaseClockMs 7) 1 ∧
    ¬ ∃ (other : ℕ) (schedule : GroupRetrySchedule),
      other ≠ 1 ∧ keyAt (keyedAfter.messages "events") other = some "k" ∧
      ((keyedState.consumerOf ("events", "workers")).retryNotBefore[other]? = some schedule ∨
        (keyedAfter.consumerOf ("events", "workers")).retryNotBefore[other]? = some schedule) ∧
      max keyedState.leaseClockMs 7 < schedule.retryNotBeforeMs := by
  have hstep : ApplyStep .combined keyedState (workerPoll "b" 7 60, ⟨1, 1, 5⟩) keyedAfter := by
    have hsome : (applyCommand keyedState (workerPoll "b" 7 60) .combined ⟨1, 1, 5⟩).isSome := by
      decide +kernel
    obtain ⟨⟨after, response⟩, hafter⟩ := Option.isSome_iff_exists.1 hsome
    refine ⟨response, hafter.trans ?_⟩
    rw [keyedAfter, hafter]
    rfl
  have hassigned : AssignedBy keyedState keyedAfter ("events", "workers")
      (max keyedState.leaseClockMs 7) 1 := by
    have hflight : (keyedAfter.groupConsumers[("events", "workers")]?).any
        (fun consumer => consumer.inFlight.contains 1) = true := by decide +kernel
    have hbefore : (keyedState.consumerOf ("events", "workers")).inFlight[1]? = none := by
      decide +kernel
    obtain ⟨consumer, hget, hmem⟩ := (Option.any_eq_true _ _).1 hflight
    exact ⟨⟨consumer, hget, Std.ExtTreeMap.contains_iff_mem.1 hmem⟩, by simp [hbefore]⟩
  refine ⟨hstep, hassigned, (reachable_keyOrder .combined (reachable_getD (by decide +kernel))
    "events" "workers" "k").2 _ _ keyedAfter 7 hstep rfl 1 hassigned (by decide +kernel)⟩

end Witness

end Runnel.Cluster
