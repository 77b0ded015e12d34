import Runnel.Local.ConsumerState

/-!
# What the events do to a consumer

An acknowledgement only adds to the acknowledged offsets, and what a list of
events does to a pending offset is one of two things: it keeps its deliveries and
may schedule a retry, or it records an attempt and leaves whatever retry was
scheduled behind it.
-/

namespace Runnel.Local

open Runnel.Engine

namespace ConsumerState

/-- The collapse loop moves acknowledged offsets into the prefix and touches nothing else but
what is recorded for them. -/
structure Collapsed (before after : ConsumerState) : Prop where
  acknowledged_iff : ∀ offset, after.Acknowledged offset ↔ before.Acknowledged offset
  attempts : ∀ offset, ¬ before.Acknowledged offset →
    after.deliveryAttempts[offset]? = before.deliveryAttempts[offset]?
  policies : ∀ offset, ¬ before.Acknowledged offset →
    after.deliveryPolicies[offset]? = before.deliveryPolicies[offset]?
  attempts_subset : ∀ offset ∈ after.deliveryAttempts, offset ∈ before.deliveryAttempts
  policies_subset : ∀ offset ∈ after.deliveryPolicies, offset ∈ before.deliveryPolicies
  retry : after.retryNotBefore = before.retryNotBefore
  policy : after.policy = before.policy
  stream : after.stream = before.stream
  consumer : after.consumer = before.consumer

theorem Collapsed.refl (state : ConsumerState) : Collapsed state state :=
  ⟨fun _ => Iff.rfl, fun _ _ => rfl, fun _ _ => rfl, fun _ h => h, fun _ h => h, rfl, rfl, rfl, rfl⟩

theorem Collapsed.trans {a b c : ConsumerState} (h : Collapsed a b) (h' : Collapsed b c) :
    Collapsed a c where
  acknowledged_iff offset := (h'.acknowledged_iff offset).trans (h.acknowledged_iff offset)
  attempts offset hnot :=
    (h'.attempts offset (mt (h.acknowledged_iff offset).1 hnot)).trans (h.attempts offset hnot)
  policies offset hnot :=
    (h'.policies offset (mt (h.acknowledged_iff offset).1 hnot)).trans (h.policies offset hnot)
  attempts_subset offset hmem := h.attempts_subset offset (h'.attempts_subset offset hmem)
  policies_subset offset hmem := h.policies_subset offset (h'.policies_subset offset hmem)
  retry := h'.retry.trans h.retry
  policy := h'.policy.trans h.policy
  stream := h'.stream.trans h.stream
  consumer := h'.consumer.trans h.consumer

variable {state : ConsumerState}

theorem collapsed_step (hmem : state.committedOffset ∈ state.acknowledgedOffsets) :
    Collapsed state
      { state with
        acknowledgedOffsets := state.acknowledgedOffsets.erase state.committedOffset
        deliveryAttempts := state.deliveryAttempts.erase state.committedOffset
        deliveryPolicies := state.deliveryPolicies.erase state.committedOffset
        committedOffset := state.committedOffset + 1 } := by
  have hne : ∀ offset, ¬ state.Acknowledged offset → state.committedOffset ≠ offset := by
    rintro offset hnot rfl
    exact hnot (Or.inr hmem)
  constructor
  · exact lt_succ_or_mem_erase hmem
  · intro offset hnot
    simp [Std.ExtTreeMap.getElem?_erase, hne offset hnot]
  · intro offset hnot
    simp [Std.ExtTreeMap.getElem?_erase, hne offset hnot]
  · intro offset hin
    exact (Std.ExtTreeMap.mem_erase.1 hin).2
  · intro offset hin
    exact (Std.ExtTreeMap.mem_erase.1 hin).2
  all_goals rfl

theorem collapseAcknowledged_spec (fuel : ℕ) (state : ConsumerState) :
    Collapsed state (collapseAcknowledged fuel state) := by
  induction fuel generalizing state with
  | zero => exact Collapsed.refl state
  | succ fuel ih =>
    rw [collapseAcknowledged]
    split_ifs with hmem
    · exact (collapsed_step hmem).trans (ih _)
    · exact Collapsed.refl state

/-- Offsets that are acknowledged beyond the prefix do not touch it. -/
def IsCollapsed (state : ConsumerState) : Prop :=
  ∀ offset ∈ state.acknowledgedOffsets, state.committedOffset < offset

theorem isCollapsed_collapseAcknowledged (fuel : ℕ) (state : ConsumerState)
    (hfuel : state.acknowledgedOffsets.size ≤ fuel)
    (hbeyond : ∀ offset ∈ state.acknowledgedOffsets, state.committedOffset ≤ offset) :
    (collapseAcknowledged fuel state).IsCollapsed := by
  induction fuel generalizing state with
  | zero =>
    intro offset hmem
    rw [collapseAcknowledged,
      Std.ExtTreeSet.eq_empty_iff_size_eq_zero.2 (Nat.le_zero.1 hfuel)] at hmem
    simp at hmem
  | succ fuel ih =>
    rw [collapseAcknowledged]
    split_ifs with hmem
    · apply ih
      · rw [Std.ExtTreeSet.size_erase, if_pos (Std.ExtTreeSet.mem_iff_contains.1 hmem)]
        exact Nat.sub_le_of_le_add hfuel
      · intro offset hin
        rw [Std.ExtTreeSet.mem_erase] at hin
        exact Nat.lt_of_le_of_ne (hbeyond offset hin.2) (by simpa using hin.1)
    · intro offset hin
      apply Nat.lt_of_le_of_ne (hbeyond offset hin)
      rintro rfl
      exact hmem hin

theorem IsCollapsed.acknowledge {state : ConsumerState} (h : state.IsCollapsed) (offset : ℕ) :
    (state.acknowledge offset).IsCollapsed := by
  unfold ConsumerState.acknowledge
  dsimp only
  split_ifs with hack hcommitted
  · exact h
  · apply isCollapsed_collapseAcknowledged
    · exact le_rfl
    · exact h
  · intro other hmem
    simp only [Std.ExtTreeSet.mem_insert, Nat.compare_eq_eq] at hmem
    rcases hmem with rfl | hmem
    · apply Nat.lt_of_le_of_ne _ (Ne.symm hcommitted)
      exact Nat.le_of_not_lt fun hlt => hack (Or.inl hlt)
    · exact h other hmem

theorem IsCollapsed.isLeast (h : state.IsCollapsed) :
    IsLeast { offset | ¬ state.Acknowledged offset } state.committedOffset := by
  constructor
  · rintro (hlt | hmem)
    · exact lt_irrefl _ hlt
    · exact lt_irrefl _ (h _ hmem)
  · intro offset hnot
    exact Nat.le_of_not_lt fun hlt => hnot (Or.inl hlt)

theorem IsCollapsed.mem_iff (h : state.IsCollapsed) (offset : ℕ) :
    offset ∈ state.acknowledgedOffsets ↔
      state.Acknowledged offset ∧ state.committedOffset < offset := by
  constructor
  · intro hmem
    exact ⟨Or.inr hmem, h offset hmem⟩
  · rintro ⟨hlt | hmem, hbeyond⟩
    · omega
    · exact hmem

theorem IsCollapsed.progress_eq {a b : ConsumerState} (ha : a.IsCollapsed) (hb : b.IsCollapsed)
    (h : ∀ offset, b.Acknowledged offset ↔ a.Acknowledged offset) :
    b.committedOffset = a.committedOffset ∧ b.acknowledgedOffsets = a.acknowledgedOffsets := by
  have hcommitted : b.committedOffset = a.committedOffset := by
    have hleast := hb.isLeast
    simp only [h] at hleast
    exact hleast.unique ha.isLeast
  refine ⟨hcommitted, Std.ExtTreeSet.ext_mem fun offset => ?_⟩
  rw [ha.mem_iff, hb.mem_iff, h, hcommitted]

structure Acknowledges (offset : ℕ) (before after : ConsumerState) : Prop where
  acknowledged_iff : ∀ other, after.Acknowledged other ↔ other = offset ∨ before.Acknowledged other
  attempts : ∀ other, ¬ after.Acknowledged other →
    after.deliveryAttempts[other]? = before.deliveryAttempts[other]?
  policies : ∀ other, ¬ after.Acknowledged other →
    after.deliveryPolicies[other]? = before.deliveryPolicies[other]?
  retry : after.retryNotBefore = before.retryNotBefore.erase offset
  attempts_subset : ∀ other ∈ after.deliveryAttempts,
    other ≠ offset ∧ other ∈ before.deliveryAttempts
  policies_subset : ∀ other ∈ after.deliveryPolicies,
    other ≠ offset ∧ other ∈ before.deliveryPolicies
  policy : after.policy = before.policy
  stream : after.stream = before.stream
  consumer : after.consumer = before.consumer

theorem acknowledge_of_acknowledged {offset : ℕ}
    (h : state.Acknowledged offset) : state.acknowledge offset = state := if_pos h

theorem acknowledge_spec {offset : ℕ} (h : ¬ state.Acknowledged offset) :
    Acknowledges offset state (state.acknowledge offset) := by
  unfold acknowledge
  rw [if_neg h]
  dsimp only
  split_ifs with hcommitted
  · -- the prefix grows by the offset and by whatever was acknowledged behind it
    have hcollapsed := collapseAcknowledged_spec state.acknowledgedOffsets.size
      { state with
        committedOffset := state.committedOffset + 1
        deliveryAttempts := state.deliveryAttempts.erase offset
        deliveryPolicies := state.deliveryPolicies.erase offset
        retryNotBefore := state.retryNotBefore.erase offset }
    have hfront : ∀ other, (other < state.committedOffset + 1 ∨
        other ∈ state.acknowledgedOffsets) ↔ other = offset ∨ state.Acknowledged other := by
      intro other
      rw [Acknowledged, Nat.lt_succ_iff_lt_or_eq, hcommitted]
      tauto
    have hiff := fun other => (hcollapsed.acknowledged_iff other).trans (hfront other)
    have hpending : ∀ other, ¬ (collapseAcknowledged _ _).Acknowledged other → offset ≠ other :=
      fun other hnot heq => hnot ((hiff other).2 (Or.inl heq.symm))
    constructor
    · exact hiff
    · intro other hnot
      rw [hcollapsed.attempts other (mt (hcollapsed.acknowledged_iff other).2 hnot)]
      simp [Std.ExtTreeMap.getElem?_erase, hpending other hnot]
    · intro other hnot
      rw [hcollapsed.policies other (mt (hcollapsed.acknowledged_iff other).2 hnot)]
      simp [Std.ExtTreeMap.getElem?_erase, hpending other hnot]
    · exact hcollapsed.retry
    · intro other hmem
      have hmem := Std.ExtTreeMap.mem_erase.1 (hcollapsed.attempts_subset other hmem)
      exact ⟨fun heq => hmem.1 (by simp [heq]), hmem.2⟩
    · intro other hmem
      have hmem := Std.ExtTreeMap.mem_erase.1 (hcollapsed.policies_subset other hmem)
      exact ⟨fun heq => hmem.1 (by simp [heq]), hmem.2⟩
    · exact hcollapsed.policy
    · exact hcollapsed.stream
    · exact hcollapsed.consumer
  · have hiff : ∀ other, (other < state.committedOffset ∨
        other ∈ state.acknowledgedOffsets.insert offset) ↔
          other = offset ∨ state.Acknowledged other := by
      intro other
      simp only [Acknowledged, Std.ExtTreeSet.mem_insert, Nat.compare_eq_eq]
      tauto
    constructor
    · exact hiff
    · intro other hnot
      have hne : offset ≠ other := fun heq => hnot ((hiff other).2 (Or.inl heq.symm))
      simp [Std.ExtTreeMap.getElem?_erase, hne]
    · intro other hnot
      have hne : offset ≠ other := fun heq => hnot ((hiff other).2 (Or.inl heq.symm))
      simp [Std.ExtTreeMap.getElem?_erase, hne]
    · rfl
    · intro other hmem
      have hmem := Std.ExtTreeMap.mem_erase.1 hmem
      exact ⟨fun heq => hmem.1 (by simp [heq]), hmem.2⟩
    · intro other hmem
      have hmem := Std.ExtTreeMap.mem_erase.1 hmem
      exact ⟨fun heq => hmem.1 (by simp [heq]), hmem.2⟩
    all_goals rfl

end ConsumerState

inductive Change where
  | attempt (delivery : DeliveryAttempt)
  | retry (schedule : RetryScheduleEvent)
  | acknowledge (offset : ℕ)
  | policy (configured : ConsumerPolicy)

namespace ConsumerState

def change (state : ConsumerState) : Change → ConsumerState
  | .attempt attempt => state.recordAttempt attempt
  | .retry schedule => state.scheduleRetry schedule
  | .acknowledge offset => state.acknowledge offset
  | .policy policy => { state with policy := some policy }

end ConsumerState

namespace ConsumerStateEvent

/-- Whether a replay accepts the event, which does not depend on the state. -/
def check : ConsumerStateEvent → Except BrokerError Unit
  | .deliveryAttempt _ attempt _ =>
    if attempt = 0 then
      .error (invalidStateData "consumer delivery attempt must be greater than zero")
    else .ok ()
  | .deliveryAttempts attempts =>
    if attempts.any (fun attempt => attempt.attempt = 0) then
      .error (invalidStateData "consumer delivery attempt must be greater than zero")
    else .ok ()
  | .policyConfigured policy => validatePolicy policy
  | _ => .ok ()

def changes : ConsumerStateEvent → List Change
  | .deliveryAttempt offset attempt policy => [.attempt ⟨offset, attempt, policy⟩]
  | .deliveryAttempts attempts => attempts.map .attempt
  | .retrySchedules schedules => schedules.map .retry
  | .acknowledge offset => [.acknowledge offset]
  | .acknowledgeBatch offsets => offsets.map .acknowledge
  | .policyConfigured policy => [.policy policy]

end ConsumerStateEvent

namespace ConsumerState

theorem applyEvent_eq (state : ConsumerState) (event : ConsumerStateEvent) :
    state.applyEvent event = event.check.map fun _ => event.changes.foldl change state := by
  cases event with
  | deliveryAttempt offset attempt policy =>
    simp only [applyEvent, ConsumerStateEvent.check]
    split_ifs <;> rfl
  | deliveryAttempts attempts =>
    simp only [applyEvent, ConsumerStateEvent.check, ConsumerStateEvent.changes, List.foldl_map]
    split_ifs <;> rfl
  | retrySchedules schedules =>
    simp only [applyEvent, ConsumerStateEvent.check, ConsumerStateEvent.changes, List.foldl_map]
    rfl
  | acknowledge offset => rfl
  | acknowledgeBatch offsets =>
    simp only [applyEvent, ConsumerStateEvent.check, ConsumerStateEvent.changes, List.foldl_map]
    rfl
  | policyConfigured policy =>
    simp only [applyEvent, ConsumerStateEvent.check]
    cases validatePolicy policy <;> rfl

theorem applyEvents_eq_ok {state after : ConsumerState} {events : List ConsumerStateEvent} :
    state.applyEvents events = .ok after ↔
      (∀ event ∈ events, event.check = .ok ()) ∧
        (events.flatMap ConsumerStateEvent.changes).foldl change state = after := by
  induction events generalizing state with
  | nil => simp [applyEvents, pure, Except.pure]
  | cons event events ih =>
    have hcons : state.applyEvents (event :: events) =
        (state.applyEvent event).bind fun next => next.applyEvents events := rfl
    rw [hcons, applyEvent_eq, List.flatMap_cons, List.foldl_append, List.forall_mem_cons]
    cases hcheck : event.check with
    | error error => simp [Except.map, Except.bind]
    | ok _ => simpa [Except.map, Except.bind] using ih

end ConsumerState

/-- What a consumer keeps about one pending offset. -/
@[ext] structure DeliveryCell where
  attempts : Option ℕ := none
  policy : Option ConsumerPolicy := none
  retry : Option RetrySchedule := none

/-- What a list of changes does to a pending offset: it may schedule a retry, or it records
attempts, pins a policy and leaves what was scheduled behind the last attempt. -/
inductive CellEffect where
  | schedule (retry : Option RetrySchedule)
  | deliver (attempt : ℕ) (policy : ConsumerPolicy) (retry : Option RetrySchedule)

namespace CellEffect

def apply : CellEffect → DeliveryCell → DeliveryCell
  | .schedule retry, cell =>
    if cell.attempts.isSome then { cell with retry := cell.retry.or retry } else cell
  | .deliver attempt policy retry, cell =>
    { attempts := some (cell.attempts.elim attempt fun current => max current attempt)
      policy := cell.policy.or (some policy)
      retry := retry }

def andThen : CellEffect → CellEffect → CellEffect
  | .schedule retry, .schedule retry' => .schedule (retry.or retry')
  | .deliver attempt policy retry, .schedule retry' => .deliver attempt policy (retry.or retry')
  | .schedule _, .deliver attempt policy retry => .deliver attempt policy retry
  | .deliver attempt policy _, .deliver attempt' _ retry =>
    .deliver (max attempt attempt') policy retry

theorem apply_andThen (first second : CellEffect) (cell : DeliveryCell) :
    (first.andThen second).apply cell = second.apply (first.apply cell) := by
  obtain ⟨attempts, policy, retry⟩ := cell
  cases first with
  | schedule scheduled =>
    cases attempts <;> cases second <;> simp [andThen, apply, Option.or_assoc]
  | deliver attempt pinned scheduled =>
    cases attempts <;> cases policy <;> cases second <;>
      simp [andThen, apply, max_assoc]

theorem apply_apply (effect : CellEffect) (cell : DeliveryCell) :
    effect.apply (effect.apply cell) = effect.apply cell := by
  obtain ⟨attempts, policy, retry⟩ := cell
  cases effect with
  | schedule scheduled => cases attempts <;> cases retry <;> simp [apply]
  | deliver attempt pinned scheduled => cases attempts <;> cases policy <;> simp [apply]

end CellEffect

/-- What a change does to the offset while it stays pending. -/
def Change.effect (offset : ℕ) : Change → CellEffect
  | .attempt delivery =>
    if delivery.offset = offset then .deliver delivery.attempt delivery.policy none
    else .schedule none
  | .retry schedule =>
    if schedule.offset = offset then .schedule (some ⟨schedule.retryNotBeforeMs, schedule.key⟩)
    else .schedule none
  | .acknowledge _ => .schedule none
  | .policy _ => .schedule none

theorem CellEffect.apply_nothing (cell : DeliveryCell) : (schedule none).apply cell = cell := by
  simp [apply]

namespace ConsumerState

variable {state : ConsumerState}

def cell (state : ConsumerState) (offset : ℕ) : DeliveryCell where
  attempts := state.deliveryAttempts[offset]?
  policy := state.deliveryPolicies[offset]?
  retry := state.retryNotBefore[offset]?

theorem acknowledged_change_iff (state : ConsumerState) (c : Change) (offset : ℕ) :
    (state.change c).Acknowledged offset ↔
      state.Acknowledged offset ∨ c = .acknowledge offset := by
  cases c with
  | attempt attempt =>
    simp only [change, recordAttempt, reduceCtorEq, or_false]
    split_ifs <;> exact Iff.rfl
  | retry schedule =>
    simp only [change, scheduleRetry, reduceCtorEq, or_false]
    split_ifs <;> exact Iff.rfl
  | acknowledge other =>
    simp only [change, Change.acknowledge.injEq]
    by_cases hother : state.Acknowledged other
    · rw [acknowledge_of_acknowledged hother]
      exact (or_iff_left_of_imp fun heq => heq ▸ hother).symm
    · rw [(acknowledge_spec hother).acknowledged_iff, or_comm, eq_comm]
  | policy policy =>
    simp only [reduceCtorEq, or_false]
    exact Iff.rfl

theorem acknowledged_foldl_iff (changes : List Change) (state : ConsumerState) (offset : ℕ) :
    (changes.foldl change state).Acknowledged offset ↔
      state.Acknowledged offset ∨ Change.acknowledge offset ∈ changes := by
  induction changes generalizing state with
  | nil => simp
  | cons c changes ih =>
    rw [List.foldl_cons, ih, acknowledged_change_iff, List.mem_cons, or_assoc, eq_comm]

variable {offset : ℕ}

theorem Acknowledged.change (h : state.Acknowledged offset) (c : Change) :
    (state.change c).Acknowledged offset :=
  (acknowledged_change_iff state c offset).2 (Or.inl h)

theorem Acknowledged.foldl_change (h : state.Acknowledged offset)
    (changes : List Change) : (changes.foldl ConsumerState.change state).Acknowledged offset :=
  (acknowledged_foldl_iff changes state offset).2 (Or.inl h)

theorem cell_recordAttempt {attempt : DeliveryAttempt} (h : ¬ state.Acknowledged offset) :
    (state.recordAttempt attempt).cell offset =
      ((Change.attempt attempt).effect offset).apply (state.cell offset) := by
  simp only [recordAttempt, Change.effect]
  by_cases hsame : attempt.offset = offset
  · subst hsame
    rw [if_neg h, if_pos rfl]
    ext1
    · simp only [cell, CellEffect.apply, Std.ExtTreeMap.getElem?_insert_self]
      cases state.deliveryAttempts[attempt.offset]? <;> rfl
    · simp only [cell, CellEffect.apply, getElem?_insertIfNew_eq, if_true]
    · simp [cell, CellEffect.apply]
  · rw [if_neg hsame, CellEffect.apply_nothing]
    split_ifs
    · rfl
    · simp [cell, Std.ExtTreeMap.getElem?_insert, getElem?_insertIfNew_eq,
        Std.ExtTreeMap.getElem?_erase, hsame]

theorem cell_scheduleRetry {schedule : RetryScheduleEvent} (h : ¬ state.Acknowledged offset) :
    (state.scheduleRetry schedule).cell offset =
      ((Change.retry schedule).effect offset).apply (state.cell offset) := by
  simp only [scheduleRetry, Change.effect]
  by_cases hsame : schedule.offset = offset
  · subst hsame
    rw [if_pos rfl]
    by_cases hmem : schedule.offset ∈ state.deliveryAttempts
    · rw [if_neg (by simp [h, hmem])]
      obtain ⟨attempts, hattempts⟩ := mem_iff_exists_getElem?.1 hmem
      simp only [cell, CellEffect.apply, hattempts, getElem?_insertIfNew_eq, if_true,
        Option.isSome_some]
    · rw [if_pos (Or.inr hmem)]
      simp [cell, CellEffect.apply, Std.ExtTreeMap.getElem?_eq_none hmem]
  · rw [if_neg hsame, CellEffect.apply_nothing]
    split_ifs
    · rfl
    · simp [cell, getElem?_insertIfNew_eq, hsame]

theorem cell_change {c : Change} (h : ¬ (state.change c).Acknowledged offset) :
    (state.change c).cell offset = (c.effect offset).apply (state.cell offset) := by
  have hbefore : ¬ state.Acknowledged offset := fun hack => h (hack.change c)
  cases c with
  | attempt attempt => exact cell_recordAttempt hbefore
  | retry schedule => exact cell_scheduleRetry hbefore
  | acknowledge other =>
    rw [Change.effect, CellEffect.apply_nothing]
    simp only [change] at h ⊢
    by_cases hother : state.Acknowledged other
    · rw [acknowledge_of_acknowledged hother]
    · have hspec := acknowledge_spec hother
      have hne : other ≠ offset :=
        fun heq => h ((hspec.acknowledged_iff offset).2 (Or.inl heq.symm))
      ext1
      · exact hspec.attempts offset h
      · exact hspec.policies offset h
      · simp [cell, hspec.retry, Std.ExtTreeMap.getElem?_erase, hne]
  | policy policy =>
    rw [Change.effect, CellEffect.apply_nothing]
    rfl

theorem exists_effect (changes : List Change) (offset : ℕ) : ∃ effect : CellEffect,
    ∀ state : ConsumerState, ¬ (changes.foldl change state).Acknowledged offset →
      (changes.foldl change state).cell offset = effect.apply (state.cell offset) := by
  induction changes with
  | nil => exact ⟨.schedule none, fun state _ => (CellEffect.apply_nothing _).symm⟩
  | cons c changes ih =>
    obtain ⟨effect, heffect⟩ := ih
    refine ⟨(c.effect offset).andThen effect, ?_⟩
    intro state hpending
    have hfirst : ¬ (state.change c).Acknowledged offset :=
      fun hack => hpending (hack.foldl_change changes)
    rw [List.foldl_cons, heffect _ hpending, cell_change hfirst, CellEffect.apply_andThen]

end ConsumerState

/-- The attempts, the pinned policy and the retry of an offset go together. -/
structure DeliveryCell.Consistent (cell : DeliveryCell) : Prop where
  attempts_pos : ∀ attempts, cell.attempts = some attempts → 0 < attempts
  policy_iff : cell.policy.isSome ↔ cell.attempts.isSome
  retry : cell.retry.isSome → cell.attempts.isSome

theorem DeliveryCell.consistent_empty : DeliveryCell.Consistent {} := by
  constructor <;> simp

def Change.policy? : Change → Option ConsumerPolicy
  | .policy configured => some configured
  | _ => none

def Change.Sound : Change → Prop
  | .attempt delivery => 0 < delivery.attempt
  | _ => True

theorem DeliveryCell.Consistent.effect {cell : DeliveryCell} (h : cell.Consistent) {c : Change}
    (hc : c.Sound) (offset : ℕ) : ((c.effect offset).apply cell).Consistent := by
  have hschedule : ∀ retry, ((CellEffect.schedule retry).apply cell).Consistent := by
    intro retry
    simp only [CellEffect.apply]
    split_ifs with hattempts
    · exact ⟨h.attempts_pos, h.policy_iff, fun _ => hattempts⟩
    · exact h
  cases c with
  | attempt delivery =>
    simp only [Change.effect]
    split_ifs
    · constructor
      · intro attempts hsome
        obtain rfl := Option.some.inj hsome
        cases hcell : cell.attempts with
        | none => exact hc
        | some current => exact Nat.lt_of_lt_of_le hc (le_max_right _ _)
      · simp [CellEffect.apply]
      · intro hretry
        rfl
    · exact hschedule none
  | retry schedule =>
    simp only [Change.effect]
    split_ifs
    · exact hschedule _
    · exact hschedule none
  | acknowledge other => exact hschedule none
  | policy policy => exact hschedule none

namespace ConsumerState

/-- Every pending offset is consistent and nothing is kept about the others. -/
structure WellFormed (state : ConsumerState) : Prop where
  consistent : ∀ offset, (state.cell offset).Consistent
  acknowledged : ∀ offset, state.Acknowledged offset → state.cell offset = {}
  collapsed : state.IsCollapsed

variable {state : ConsumerState}

theorem WellFormed.fresh (stream consumer : String) :
    WellFormed { stream := stream, consumer := consumer } := by
  constructor
  · intro offset
    simpa [cell] using DeliveryCell.consistent_empty
  · intro offset _
    simp [cell]
  · intro offset hmem
    simp at hmem

variable {c : Change}

theorem WellFormed.cell_eq_empty (h : state.WellFormed) {offset : ℕ}
    (hack : (state.change c).Acknowledged offset) : (state.change c).cell offset = {} := by
  cases c with
  | attempt delivery =>
    simp only [change, recordAttempt] at hack ⊢
    split_ifs at hack ⊢ with hdelivery
    · exact h.acknowledged offset hack
    · have hne : delivery.offset ≠ offset := fun heq => hdelivery (heq ▸ hack)
      rw [← h.acknowledged offset hack]
      simp [cell, Std.ExtTreeMap.getElem?_insert, getElem?_insertIfNew_eq,
        Std.ExtTreeMap.getElem?_erase, hne]
  | retry schedule =>
    simp only [change, scheduleRetry] at hack ⊢
    split_ifs at hack ⊢ with hskip
    · exact h.acknowledged offset hack
    · have hne : schedule.offset ≠ offset := fun heq => hskip (Or.inl (heq ▸ hack))
      rw [← h.acknowledged offset hack]
      simp [cell, getElem?_insertIfNew_eq, hne]
  | acknowledge other =>
    simp only [change] at hack ⊢
    by_cases hother : state.Acknowledged other
    · rw [acknowledge_of_acknowledged hother] at hack ⊢
      exact h.acknowledged offset hack
    · have hspec := acknowledge_spec hother
      have hempty : offset ≠ other → state.cell offset = {} := fun hne =>
        h.acknowledged offset (((hspec.acknowledged_iff offset).1 hack).resolve_left hne)
      have hattempts : offset ∉ (state.acknowledge other).deliveryAttempts := by
        intro hmem
        obtain ⟨hne, hmem⟩ := hspec.attempts_subset offset hmem
        obtain ⟨attempts, hget⟩ := mem_iff_exists_getElem?.1 hmem
        have := congrArg DeliveryCell.attempts (hempty hne)
        simp [cell, hget] at this
      have hpolicies : offset ∉ (state.acknowledge other).deliveryPolicies := by
        intro hmem
        obtain ⟨hne, hmem⟩ := hspec.policies_subset offset hmem
        obtain ⟨policy, hget⟩ := mem_iff_exists_getElem?.1 hmem
        have := congrArg DeliveryCell.policy (hempty hne)
        simp [cell, hget] at this
      ext1
      · exact Std.ExtTreeMap.getElem?_eq_none hattempts
      · exact Std.ExtTreeMap.getElem?_eq_none hpolicies
      · simp only [cell, hspec.retry, Std.ExtTreeMap.getElem?_erase, Nat.compare_eq_eq]
        split_ifs with hsame
        · rfl
        · exact congrArg DeliveryCell.retry (hempty (Ne.symm hsame))
  | policy policy => exact h.acknowledged offset hack

theorem IsCollapsed.change (h : state.IsCollapsed) (c : Change) : (state.change c).IsCollapsed := by
  cases c with
  | attempt delivery =>
    simp only [ConsumerState.change, recordAttempt]
    split_ifs <;> exact h
  | retry schedule =>
    simp only [ConsumerState.change, scheduleRetry]
    split_ifs <;> exact h
  | acknowledge offset => exact h.acknowledge offset
  | policy policy => exact h

theorem WellFormed.change (h : state.WellFormed) (hc : c.Sound) : (state.change c).WellFormed := by
  constructor
  · intro offset
    by_cases hack : (state.change c).Acknowledged offset
    · rw [h.cell_eq_empty hack]
      exact DeliveryCell.consistent_empty
    · rw [cell_change hack]
      exact (h.consistent offset).effect hc offset
  · intro offset hack
    exact h.cell_eq_empty hack
  · exact h.collapsed.change c

variable {changes : List Change}

theorem WellFormed.foldl_change (h : state.WellFormed) (hchanges : ∀ c ∈ changes, c.Sound) :
    (changes.foldl ConsumerState.change state).WellFormed := by
  induction changes generalizing state with
  | nil => exact h
  | cons c changes ih =>
    exact ih (h.change (hchanges c List.mem_cons_self))
      fun other hmem => hchanges other (List.mem_cons_of_mem _ hmem)

theorem WellFormed.validate (h : state.WellFormed) : state.validate = .ok () := by
  have hattempts : ∀ entry ∈ state.deliveryAttempts.toList,
      ¬ (entry.2 = 0 ∨ entry.1 ∉ state.deliveryPolicies) := by
    rintro ⟨offset, attempts⟩ hmem
    have hget := Std.ExtTreeMap.mem_toList_iff_getElem?_eq_some.1 hmem
    have hpos := (h.consistent offset).attempts_pos attempts hget
    have hpolicy : (state.cell offset).policy.isSome := by
      rw [(h.consistent offset).policy_iff]
      simp [cell, hget]
    rintro (hzero | hnot)
    · exact hpos.ne' hzero
    · exact hnot (Std.ExtTreeMap.mem_iff_isSome_getElem?.2 hpolicy)
  have hpolicies : ∀ offset ∈ state.deliveryPolicies, offset ∈ state.deliveryAttempts := by
    intro offset hmem
    exact Std.ExtTreeMap.mem_iff_isSome_getElem?.2 ((h.consistent offset).policy_iff.1
      (Std.ExtTreeMap.mem_iff_isSome_getElem?.1 hmem))
  have hretry : ∀ offset ∈ state.retryNotBefore, offset ∈ state.deliveryAttempts := by
    intro offset hmem
    exact Std.ExtTreeMap.mem_iff_isSome_getElem?.2 ((h.consistent offset).retry
      (Std.ExtTreeMap.mem_iff_isSome_getElem?.1 hmem))
  unfold ConsumerState.validate
  rw [if_neg]
  simp only [List.any_eq_true, decide_eq_true_eq, Std.ExtTreeMap.mem_keys]
  rintro (⟨entry, hmem, hbad⟩ | ⟨offset, hmem, hbad⟩ | ⟨offset, hmem, hbad⟩)
  · exact hattempts entry hmem hbad
  · exact hbad (hpolicies offset hmem)
  · exact hbad (hretry offset hmem)

theorem acknowledged_of_mem {changes : List Change} {offset : ℕ}
    (h : Change.acknowledge offset ∈ changes) :
    (changes.foldl change state).Acknowledged offset :=
  (acknowledged_foldl_iff changes state offset).2 (Or.inr h)

/-- What does not depend on single offsets. -/
structure SameProgress (before after : ConsumerState) : Prop where
  committed : after.committedOffset = before.committedOffset
  acknowledged : after.acknowledgedOffsets = before.acknowledgedOffsets
  stream : after.stream = before.stream
  consumer : after.consumer = before.consumer

theorem SameProgress.refl (state : ConsumerState) : SameProgress state state :=
  ⟨rfl, rfl, rfl, rfl⟩

theorem SameProgress.acknowledged_iff {before after : ConsumerState}
    (h : SameProgress before after) (offset : ℕ) :
    after.Acknowledged offset ↔ before.Acknowledged offset := by
  rw [Acknowledged, Acknowledged, h.committed, h.acknowledged]

theorem SameProgress.trans {a b c : ConsumerState} (h : SameProgress a b)
    (h' : SameProgress b c) : SameProgress a c :=
  ⟨h'.committed.trans h.committed, h'.acknowledged.trans h.acknowledged,
    h'.stream.trans h.stream, h'.consumer.trans h.consumer⟩

theorem sameProgress_change (h : ∀ offset, c = .acknowledge offset → state.Acknowledged offset) :
    SameProgress state (state.change c) := by
  cases c with
  | attempt delivery =>
    simp only [change, recordAttempt]
    split_ifs <;> exact ⟨rfl, rfl, rfl, rfl⟩
  | retry schedule =>
    simp only [change, scheduleRetry]
    split_ifs <;> exact ⟨rfl, rfl, rfl, rfl⟩
  | acknowledge offset =>
    rw [change, acknowledge_of_acknowledged (h offset rfl)]
    exact SameProgress.refl state
  | policy policy => exact ⟨rfl, rfl, rfl, rfl⟩

theorem sameProgress_foldl
    (h : ∀ offset, Change.acknowledge offset ∈ changes → state.Acknowledged offset) :
    SameProgress state (changes.foldl change state) := by
  induction changes generalizing state with
  | nil => exact SameProgress.refl state
  | cons c changes ih =>
    have hfirst : SameProgress state (state.change c) := by
      apply sameProgress_change
      rintro offset rfl
      exact h offset List.mem_cons_self
    refine hfirst.trans (ih ?_)
    intro offset hmem
    exact (h offset (List.mem_cons_of_mem _ hmem)).change c

theorem policy_change (state : ConsumerState) (c : Change) :
    (state.change c).policy = c.policy?.or state.policy := by
  cases c with
  | attempt delivery =>
    simp only [change, recordAttempt, Change.policy?]
    split_ifs <;> rfl
  | retry schedule =>
    simp only [change, scheduleRetry, Change.policy?]
    split_ifs <;> rfl
  | acknowledge offset =>
    simp only [change, Change.policy?, Option.none_or]
    by_cases hack : state.Acknowledged offset
    · rw [acknowledge_of_acknowledged hack]
    · exact (acknowledge_spec hack).policy
  | policy policy => rfl

theorem policy_foldl (changes : List Change) (state : ConsumerState) :
    (changes.foldl change state).policy =
      (changes.reverse.findSome? Change.policy?).or state.policy := by
  induction changes generalizing state with
  | nil => rfl
  | cons c changes ih =>
    rw [List.foldl_cons, ih, policy_change, List.reverse_cons, List.findSome?_append,
      Option.or_assoc, List.findSome?_singleton]

theorem eq_of_cells {a b : ConsumerState} (hprogress : SameProgress a b)
    (hpolicy : b.policy = a.policy) (hcells : ∀ offset, b.cell offset = a.cell offset) : b = a := by
  have hattempts : b.deliveryAttempts = a.deliveryAttempts :=
    Std.ExtTreeMap.ext_getElem? fun {offset} => congrArg DeliveryCell.attempts (hcells offset)
  have hpolicies : b.deliveryPolicies = a.deliveryPolicies :=
    Std.ExtTreeMap.ext_getElem? fun {offset} => congrArg DeliveryCell.policy (hcells offset)
  have hretry : b.retryNotBefore = a.retryNotBefore :=
    Std.ExtTreeMap.ext_getElem? fun {offset} => congrArg DeliveryCell.retry (hcells offset)
  obtain ⟨hcommitted, hacknowledged, hstream, hconsumer⟩ := hprogress
  cases a
  cases b
  simp_all

theorem WellFormed.foldl_change_again (h : state.WellFormed) (hchanges : ∀ c ∈ changes, c.Sound) :
    changes.foldl ConsumerState.change (changes.foldl ConsumerState.change state) =
      changes.foldl ConsumerState.change state := by
  have hafter := h.foldl_change hchanges
  have hprogress := sameProgress_foldl fun offset => @acknowledged_of_mem state changes offset
  apply eq_of_cells hprogress
  · rw [policy_foldl, policy_foldl, ← Option.or_assoc, Option.or_self]
  · intro offset
    by_cases hack : (changes.foldl ConsumerState.change state).Acknowledged offset
    · rw [hafter.acknowledged offset hack]
      exact (hafter.foldl_change hchanges).acknowledged offset (hack.foldl_change changes)
    · -- one effect, twice
      obtain ⟨effect, heffect⟩ := exists_effect changes offset
      have hagain := mt (hprogress.acknowledged_iff offset).1 hack
      rw [heffect _ hagain, heffect state hack, CellEffect.apply_apply]

end ConsumerState

theorem ConsumerStateEvent.sound_of_check {event : ConsumerStateEvent} (h : event.check = .ok ()) :
    ∀ c ∈ event.changes, c.Sound := by
  intro c hmem
  cases event with
  | deliveryAttempt offset attempt policy =>
    obtain rfl := List.mem_singleton.1 hmem
    simp only [check] at h
    split_ifs at h with hzero
    exact Nat.pos_of_ne_zero hzero
  | deliveryAttempts attempts =>
    obtain ⟨delivery, hdelivery, rfl⟩ := List.mem_map.1 hmem
    simp only [check] at h
    split_ifs at h with hzero
    apply Nat.pos_of_ne_zero
    intro hattempt
    exact hzero (List.any_eq_true.2 ⟨delivery, hdelivery, decide_eq_true hattempt⟩)
  | retrySchedules schedules =>
    obtain ⟨schedule, -, rfl⟩ := List.mem_map.1 hmem
    trivial
  | acknowledge offset =>
    obtain rfl := List.mem_singleton.1 hmem
    trivial
  | acknowledgeBatch offsets =>
    obtain ⟨offset, -, rfl⟩ := List.mem_map.1 hmem
    trivial
  | policyConfigured policy =>
    obtain rfl := List.mem_singleton.1 hmem
    trivial

namespace ConsumerState

variable {state after : ConsumerState} {events : List ConsumerStateEvent}

theorem sound_of_applyEvents (h : state.applyEvents events = .ok after) :
    ∀ c ∈ events.flatMap ConsumerStateEvent.changes, c.Sound := by
  intro c hmem
  obtain ⟨event, hevent, hc⟩ := List.mem_flatMap.1 hmem
  exact ConsumerStateEvent.sound_of_check ((applyEvents_eq_ok.1 h).1 event hevent) c hc

theorem WellFormed.applyEvents (hstate : state.WellFormed)
    (h : state.applyEvents events = .ok after) :
    after.WellFormed := by
  obtain ⟨-, rfl⟩ := applyEvents_eq_ok.1 h
  exact hstate.foldl_change (sound_of_applyEvents h)

theorem WellFormed.applyEvents_again (hstate : state.WellFormed)
    (h : state.applyEvents events = .ok after) : after.applyEvents events = .ok after := by
  obtain ⟨hchecks, rfl⟩ := applyEvents_eq_ok.1 h
  exact applyEvents_eq_ok.2 ⟨hchecks, hstate.foldl_change_again (sound_of_applyEvents h)⟩

theorem names_change (state : ConsumerState) (c : Change) :
    (state.change c).stream = state.stream ∧ (state.change c).consumer = state.consumer := by
  cases c with
  | attempt delivery =>
    simp only [change, recordAttempt]
    split_ifs <;> exact ⟨rfl, rfl⟩
  | retry schedule =>
    simp only [change, scheduleRetry]
    split_ifs <;> exact ⟨rfl, rfl⟩
  | acknowledge offset =>
    simp only [change]
    by_cases hack : state.Acknowledged offset
    · rw [acknowledge_of_acknowledged hack]
      exact ⟨rfl, rfl⟩
    · exact ⟨(acknowledge_spec hack).stream, (acknowledge_spec hack).consumer⟩
  | policy policy => exact ⟨rfl, rfl⟩

theorem names_foldl (changes : List Change) (state : ConsumerState) :
    (changes.foldl change state).stream = state.stream ∧
      (changes.foldl change state).consumer = state.consumer := by
  induction changes generalizing state with
  | nil => exact ⟨rfl, rfl⟩
  | cons c changes ih =>
    exact ⟨(ih _).1.trans (names_change state c).1, (ih _).2.trans (names_change state c).2⟩

theorem names_applyEvents (h : state.applyEvents events = .ok after) :
    after.stream = state.stream ∧ after.consumer = state.consumer := by
  obtain ⟨-, rfl⟩ := applyEvents_eq_ok.1 h
  exact names_foldl _ state

theorem applyEvents_concat (state : ConsumerState) (events : List ConsumerStateEvent)
    (event : ConsumerStateEvent) : state.applyEvents (events ++ [event]) =
      (state.applyEvents events).bind fun middle => middle.applyEvent event := by
  rw [applyEvents, List.foldlM_append]
  change (applyEvents state events).bind _ = _
  congr 1
  funext middle
  rw [List.foldlM_cons]
  change (middle.applyEvent event).bind Except.ok = _
  cases middle.applyEvent event <;> rfl

end ConsumerState

def ConsumerStateEvent.acknowledges : ConsumerStateEvent → List ℕ
  | .acknowledge offset => [offset]
  | .acknowledgeBatch offsets => offsets
  | _ => []

theorem ConsumerStateEvent.acknowledge_mem_changes (event : ConsumerStateEvent) (offset : ℕ) :
    Change.acknowledge offset ∈ event.changes ↔ offset ∈ event.acknowledges := by
  cases event <;> simp [changes, acknowledges, eq_comm]

/-- The offsets that a list of events acknowledges, in any order and however often. -/
def acknowledgedBy (events : List ConsumerStateEvent) : Set ℕ :=
  { offset | ∃ event ∈ events, offset ∈ event.acknowledges }

namespace ConsumerState

variable {stream consumer : String} {events : List ConsumerStateEvent} {after : ConsumerState}

theorem acknowledged_iff_of_fresh
    (h : applyEvents { stream := stream, consumer := consumer } events = .ok after) (offset : ℕ) :
    after.Acknowledged offset ↔ offset ∈ acknowledgedBy events := by
  obtain ⟨-, rfl⟩ := applyEvents_eq_ok.1 h
  rw [acknowledged_foldl_iff]
  simp only [Acknowledged, Nat.not_lt_zero, Std.ExtTreeSet.not_mem_empty, or_self, false_or,
    List.mem_flatMap, ConsumerStateEvent.acknowledge_mem_changes, acknowledgedBy, Set.mem_ofPred_eq]

/-- The progress of a consumer is the canonical form of the set of offsets its events
acknowledge: the committed offset is the least that is not in the set and the acknowledged
offsets are the members above it. -/
theorem applyEvents_canonical
    (h : applyEvents { stream := stream, consumer := consumer } events = .ok after) :
    after.validate = .ok () ∧
      (∀ offset ∈ after.acknowledgedOffsets, after.committedOffset < offset) ∧
      IsLeast (acknowledgedBy events)ᶜ after.committedOffset ∧
      (∀ offset, offset ∈ after.acknowledgedOffsets ↔
        offset ∈ acknowledgedBy events ∧ after.committedOffset < offset) ∧
      ∀ others other, applyEvents { stream := stream, consumer := consumer } others = .ok other →
        acknowledgedBy others = acknowledgedBy events →
          other.committedOffset = after.committedOffset ∧
            other.acknowledgedOffsets = after.acknowledgedOffsets := by
  have hformed := (WellFormed.fresh stream consumer).applyEvents h
  have hnamed := acknowledged_iff_of_fresh h
  refine ⟨hformed.validate, hformed.collapsed, ?_, ?_, ?_⟩
  · have hleast := hformed.collapsed.isLeast
    simp only [hnamed] at hleast
    exact hleast
  · intro offset
    rw [hformed.collapsed.mem_iff, hnamed]
  · intro others other hother hsame
    apply hformed.collapsed.progress_eq
      ((WellFormed.fresh stream consumer).applyEvents hother).collapsed
    intro offset
    rw [acknowledged_iff_of_fresh hother, hsame, hnamed]

/-- Acknowledged out of order, in a batch and again: the offsets 0, 1 and 3 leave the
committed offset at 2. -/
theorem applyEvents_canonical_replayed :
    ∃ after, applyEvents { stream := "orders", consumer := "billing" }
        [.acknowledge 3, .acknowledgeBatch [1, 0, 3], .acknowledge 1] = .ok after ∧
      after.committedOffset = 2 ∧ after.acknowledgedOffsets.toList = [3] ∧
      IsLeast (acknowledgedBy
        [.acknowledge 3, .acknowledgeBatch [1, 0, 3], .acknowledge 1])ᶜ after.committedOffset :=
  ⟨_, rfl, by decide +kernel, by decide +kernel, (applyEvents_canonical rfl).2.2.1⟩

end ConsumerState

end Runnel.Local
