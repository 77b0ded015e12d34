import Runnel.Cluster.Poll

/-!
# What the consumer operations do

One description per operation of a consumer's delivery state: acknowledgement with
its prefix collapse, lease expiry, the retry filter and candidate selection.
-/

namespace Runnel.Cluster

open Runnel.Engine

namespace GroupConsumerState

/-- The offset is behind the consumer: in the committed prefix or acknowledged beyond it. -/
def Acknowledged (consumer : GroupConsumerState) (offset : ℕ) : Prop :=
  offset < consumer.committedOffset ∨ offset ∈ consumer.acknowledgedOffsets

instance (consumer : GroupConsumerState) (offset : ℕ) :
    Decidable (consumer.Acknowledged offset) :=
  inferInstanceAs (Decidable (_ ∨ _))

/-- The consumer keeps everything but its leases and retry schedules. -/
structure SameProgress (before after : GroupConsumerState) : Prop where
  committed : after.committedOffset = before.committedOffset
  acknowledged : after.acknowledgedOffsets = before.acknowledgedOffsets
  attempts : after.deliveryAttempts = before.deliveryAttempts
  policies : after.deliveryPolicies = before.deliveryPolicies
  policy : after.policy = before.policy

theorem SameProgress.refl (consumer : GroupConsumerState) : SameProgress consumer consumer :=
  ⟨rfl, rfl, rfl, rfl, rfl⟩

theorem SameProgress.trans {a b c : GroupConsumerState} (h : SameProgress a b)
    (h' : SameProgress b c) : SameProgress a c :=
  ⟨h'.committed.trans h.committed, h'.acknowledged.trans h.acknowledged,
    h'.attempts.trans h.attempts, h'.policies.trans h.policies, h'.policy.trans h.policy⟩

variable {before after : GroupConsumerState}

theorem SameProgress.acknowledged_iff (h : SameProgress before after) (offset : ℕ) :
    after.Acknowledged offset ↔ before.Acknowledged offset := by
  simp only [Acknowledged, h.committed, h.acknowledged]

/-- What the collapse loop leaves: the same acknowledged offsets in a longer prefix, and no
delivery state lost but for the offsets that entered the prefix. -/
structure Collapsed (before after : GroupConsumerState) : Prop where
  acknowledged_iff : ∀ offset : ℕ, after.Acknowledged offset ↔ before.Acknowledged offset
  committed_le : before.committedOffset ≤ after.committedOffset
  attempts : after.deliveryAttempts = before.deliveryAttempts
  inFlight : after.inFlight = before.inFlight
  policy : after.policy = before.policy
  policies : ∀ offset : ℕ, ¬ before.Acknowledged offset →
    after.deliveryPolicies[offset]? = before.deliveryPolicies[offset]?
  policies_subset : ∀ offset : ℕ, offset ∈ after.deliveryPolicies → offset ∈ before.deliveryPolicies
  retry : ∀ offset : ℕ, ¬ before.Acknowledged offset →
    after.retryNotBefore[offset]? = before.retryNotBefore[offset]?
  retry_subset : ∀ (offset : ℕ) schedule, after.retryNotBefore[offset]? = some schedule →
    before.retryNotBefore[offset]? = some schedule

theorem Collapsed.refl (consumer : GroupConsumerState) : Collapsed consumer consumer where
  acknowledged_iff _ := Iff.rfl
  committed_le := le_rfl
  attempts := rfl
  inFlight := rfl
  policy := rfl
  policies _ _ := rfl
  policies_subset _ h := h
  retry _ _ := rfl
  retry_subset _ _ h := h

theorem Collapsed.trans {a b c : GroupConsumerState} (h : Collapsed a b) (h' : Collapsed b c) :
    Collapsed a c where
  acknowledged_iff offset := (h'.acknowledged_iff offset).trans (h.acknowledged_iff offset)
  committed_le := h.committed_le.trans h'.committed_le
  attempts := h'.attempts.trans h.attempts
  inFlight := h'.inFlight.trans h.inFlight
  policy := h'.policy.trans h.policy
  policies offset hnot := (h'.policies offset (mt (h.acknowledged_iff offset).1 hnot)).trans
    (h.policies offset hnot)
  policies_subset _ hmem := h.policies_subset _ (h'.policies_subset _ hmem)
  retry offset hnot := (h'.retry offset (mt (h.acknowledged_iff offset).1 hnot)).trans
    (h.retry offset hnot)
  retry_subset _ _ hget := h.retry_subset _ _ (h'.retry_subset _ _ hget)

variable {consumer : GroupConsumerState}

theorem collapsed_step (hmem : consumer.committedOffset ∈ consumer.acknowledgedOffsets) :
    Collapsed consumer
      { consumer with
        acknowledgedOffsets := consumer.acknowledgedOffsets.erase consumer.committedOffset
        deliveryPolicies := consumer.deliveryPolicies.erase consumer.committedOffset
        retryNotBefore := consumer.retryNotBefore.erase consumer.committedOffset
        committedOffset := consumer.committedOffset + 1 } where
  acknowledged_iff := lt_succ_or_mem_erase hmem
  committed_le := Nat.le_succ _
  attempts := rfl
  inFlight := rfl
  policy := rfl
  policies offset hnot := by
    have hne : consumer.committedOffset ≠ offset := fun h => hnot (Or.inr (h ▸ hmem))
    simp [Std.ExtTreeMap.getElem?_erase, hne]
  policies_subset offset h := by
    rw [Std.ExtTreeMap.mem_erase] at h
    exact h.2
  retry offset hnot := by
    have hne : consumer.committedOffset ≠ offset := fun h => hnot (Or.inr (h ▸ hmem))
    simp [Std.ExtTreeMap.getElem?_erase, hne]
  retry_subset offset schedule h := by
    rw [Std.ExtTreeMap.getElem?_erase] at h
    split at h
    · cases h
    · exact h

theorem collapseAcknowledged_spec (fuel : ℕ) (consumer : GroupConsumerState) :
    Collapsed consumer (collapseAcknowledged fuel consumer) := by
  induction fuel generalizing consumer with
  | zero => exact .refl _
  | succ fuel ih =>
    unfold collapseAcknowledged
    split_ifs with hmem
    · exact (collapsed_step hmem).trans (ih _)
    · exact .refl _

/-- What an acknowledgement leaves. -/
structure AcknowledgedAt (offset : ℕ) (before after : GroupConsumerState) : Prop where
  acknowledged_iff : ∀ other : ℕ,
    after.Acknowledged other ↔ before.Acknowledged other ∨ other = offset
  committed_le : before.committedOffset ≤ after.committedOffset
  attempts : after.deliveryAttempts = before.deliveryAttempts.erase offset
  inFlight : after.inFlight = before.inFlight.erase offset
  policy : after.policy = before.policy
  policies : ∀ other : ℕ, other ≠ offset → ¬ before.Acknowledged other →
    after.deliveryPolicies[other]? = before.deliveryPolicies[other]?
  policies_subset : ∀ other : ℕ, other ∈ after.deliveryPolicies →
    other ≠ offset ∧ other ∈ before.deliveryPolicies
  retry : ∀ other : ℕ, other ≠ offset → ¬ before.Acknowledged other →
    after.retryNotBefore[other]? = before.retryNotBefore[other]?
  retry_subset : ∀ (other : ℕ) schedule, after.retryNotBefore[other]? = some schedule →
    other ≠ offset ∧ before.retryNotBefore[other]? = some schedule

theorem acknowledgeGroupOffset_spec (consumer : GroupConsumerState) (offset : ℕ) :
    AcknowledgedAt offset consumer (consumer.acknowledgeGroupOffset offset) := by
  unfold acknowledgeGroupOffset
  dsimp only
  split_ifs with hoffset
  · -- The prefix grows by one and then swallows what was acknowledged beyond it.
    have hspec := collapseAcknowledged_spec consumer.acknowledgedOffsets.size
      { consumer with
        inFlight := consumer.inFlight.erase offset
        deliveryAttempts := consumer.deliveryAttempts.erase offset
        deliveryPolicies := consumer.deliveryPolicies.erase offset
        retryNotBefore := consumer.retryNotBefore.erase offset
        committedOffset := consumer.committedOffset + 1 }
    have hiff : ∀ other : ℕ, (GroupConsumerState.Acknowledged
        { consumer with
          inFlight := consumer.inFlight.erase offset
          deliveryAttempts := consumer.deliveryAttempts.erase offset
          deliveryPolicies := consumer.deliveryPolicies.erase offset
          retryNotBefore := consumer.retryNotBefore.erase offset
          committedOffset := consumer.committedOffset + 1 } other) ↔
        consumer.Acknowledged other ∨ other = offset := by
      intro other
      simp only [Acknowledged]
      rw [hoffset, Nat.lt_succ_iff_lt_or_eq]
      tauto
    refine ⟨fun other => (hspec.acknowledged_iff other).trans (hiff other),
      (Nat.le_succ _).trans hspec.committed_le, hspec.attempts, hspec.inFlight, hspec.policy,
      fun other hne hnot => ?_, fun other h => ?_, fun other hne hnot => ?_,
        fun other schedule h => ?_⟩
    · rw [hspec.policies other (by rw [hiff]; tauto)]
      simp [Std.ExtTreeMap.getElem?_erase, Ne.symm hne]
    · have := hspec.policies_subset other h
      simp only [Std.ExtTreeMap.mem_erase, ne_eq, Nat.compare_eq_eq] at this
      exact ⟨Ne.symm this.1, this.2⟩
    · rw [hspec.retry other (by rw [hiff]; tauto)]
      simp [Std.ExtTreeMap.getElem?_erase, Ne.symm hne]
    · have := hspec.retry_subset other schedule h
      simp only [Std.ExtTreeMap.getElem?_erase, Nat.compare_eq_eq] at this
      split_ifs at this with heq
      exact ⟨Ne.symm heq, this⟩
  · refine ⟨fun other => ?_, le_rfl, rfl, rfl, rfl, fun other hne _ => ?_,
      fun other h => ?_, fun other hne _ => ?_, fun other schedule h => ?_⟩
    · simp only [Acknowledged, Std.ExtTreeSet.mem_insert, Nat.compare_eq_eq]
      tauto
    · simp [Std.ExtTreeMap.getElem?_erase, Ne.symm hne]
    · simp only [Std.ExtTreeMap.mem_erase, ne_eq, Nat.compare_eq_eq] at h
      exact ⟨Ne.symm h.1, h.2⟩
    · simp [Std.ExtTreeMap.getElem?_erase, Ne.symm hne]
    · simp only [Std.ExtTreeMap.getElem?_erase, Nat.compare_eq_eq] at h
      split_ifs at h with heq
      exact ⟨Ne.symm heq, h⟩

variable {offset : ℕ}

theorem inFlight_acknowledge_of_notMem (h : offset ∉ consumer.inFlight) :
    (consumer.acknowledgeGroupOffset offset).inFlight = consumer.inFlight := by
  refine Std.ExtTreeMap.ext_getElem? fun other => ?_
  rw [(acknowledgeGroupOffset_spec consumer offset).inFlight, Std.ExtTreeMap.getElem?_erase]
  split_ifs with heq
  · obtain rfl := Nat.compare_eq_eq.1 heq
    exact (Std.ExtTreeMap.getElem?_eq_none h).symm
  · rfl

theorem groupPolicyForOffset_of_pos {attempts : ℕ}
    (h : 0 < attempts) (legacyPolicy : ConsumerPolicy) (policyVersion : Option ℕ) :
    consumer.groupPolicyForOffset offset attempts legacyPolicy policyVersion =
      consumer.deliveryPolicies[offset]? := by
  unfold groupPolicyForOffset
  have hne : attempts ≠ 0 := by omega
  cases consumer.deliveryPolicies[offset]? <;> simp [h, hne]

/-- The schedule that the expiry of a delivery writes, if its policy asks for one. -/
def scheduleOf (consumer : GroupConsumerState) (nowMs : ℕ) (offset : ℕ)
    (delivery : GroupDelivery) : Option GroupRetrySchedule :=
  (consumer.deliveryPolicies[offset]?).bind (fun policy =>
    if policy.exhausted (consumer.attempts offset) || policy.retryDelayMs = 0 then none
    else some
      { retryNotBeforeMs := satAdd64 nowMs policy.retryDelayMs
        key := delivery.key })

theorem SameProgress.scheduleOf_eq
    (h : SameProgress before after) : after.scheduleOf = before.scheduleOf := by
  funext nowMs offset delivery
  unfold scheduleOf GroupConsumerState.attempts
  rw [h.policies, h.attempts]

theorem observeExpired_spec {policy : ConsumerPolicy} (hattempts : 0 < consumer.attempts offset)
    (hpinned : consumer.deliveryPolicies[offset]? = some policy) (nowMs : ℕ)
    (legacyPolicy : ConsumerPolicy) (delivery : GroupDelivery) :
    ∃ after, observeExpired nowMs legacyPolicy consumer (offset, delivery) = some after ∧
      SameProgress consumer after ∧ after.inFlight = consumer.inFlight.erase offset ∧
      (∀ other, other ≠ offset →
        after.retryNotBefore[other]? = consumer.retryNotBefore[other]?) ∧
      after.retryNotBefore[offset]? =
        (consumer.retryNotBefore[offset]? <|> consumer.scheduleOf nowMs offset delivery) := by
  have hpolicy : GroupConsumerState.groupPolicyForOffset
      { consumer with inFlight := consumer.inFlight.erase offset } offset
      (consumer.attempts offset) legacyPolicy none = some policy := by
    rw [groupPolicyForOffset_of_pos hattempts]
    exact hpinned
  have hsame : ∀ retry inFlight,
      SameProgress consumer { consumer with inFlight := inFlight, retryNotBefore := retry } :=
    fun _ _ => ⟨rfl, rfl, rfl, rfl, rfl⟩
  by_cases hretry : offset ∈ consumer.retryNotBefore
  · obtain ⟨schedule, hschedule⟩ := mem_iff_exists_getElem?.1 hretry
    refine ⟨{ consumer with inFlight := consumer.inFlight.erase offset }, ?_, hsame _ _, rfl,
      fun _ _ => rfl, ?_⟩
    · simp only [observeExpired, hretry, if_true, Option.pure_def]
    · simp [hschedule]
  · have hnone : consumer.retryNotBefore[offset]? = none :=
      Std.ExtTreeMap.getElem?_eq_none hretry
    by_cases hskip : policy.exhausted (consumer.attempts offset) || policy.retryDelayMs = 0
    · refine ⟨{ consumer with inFlight := consumer.inFlight.erase offset }, ?_, hsame _ _, rfl,
        fun _ _ => rfl, ?_⟩
      · simp only [observeExpired, hretry, if_false, Option.pure_def, Option.bind_eq_bind]
        rw [show GroupConsumerState.attempts
          { consumer with inFlight := consumer.inFlight.erase offset } offset =
            consumer.attempts offset from rfl, hpolicy]
        simp only [Option.bind_some, hskip, if_true]
      · simp only [scheduleOf, hpinned, Option.bind_some, hskip, if_true, hnone,
          Option.orElse_eq_orElse, Option.orElse_eq_or, Option.or_none]
    · refine ⟨{ consumer with
          inFlight := consumer.inFlight.erase offset
          retryNotBefore := consumer.retryNotBefore.insert offset
            { retryNotBeforeMs := satAdd64 nowMs policy.retryDelayMs
              key := delivery.key } }, ?_, hsame _ _, rfl, fun other hne => ?_, ?_⟩
      · simp only [observeExpired, hretry, if_false, Option.pure_def, Option.bind_eq_bind]
        rw [show GroupConsumerState.attempts
          { consumer with inFlight := consumer.inFlight.erase offset } offset =
            consumer.attempts offset from rfl, hpolicy]
        simp only [Option.bind_some, hskip, if_false, Bool.false_eq_true]
      · simp [Std.ExtTreeMap.getElem?_insert, Ne.symm hne]
      · simp only [scheduleOf, hpinned, Option.bind_some, hskip, if_false, hnone,
          Option.orElse_eq_orElse, Option.orElse_eq_or, Option.none_or, Bool.false_eq_true,
          Std.ExtTreeMap.getElem?_insert_self]

def Pinned (consumer : GroupConsumerState) (offset : ℕ) : Prop :=
  0 < consumer.attempts offset ∧ ∃ policy, consumer.deliveryPolicies[offset]? = some policy

theorem SameProgress.pinned (h : SameProgress before after)
    (hpinned : before.Pinned offset) : after.Pinned offset := by
  simpa only [Pinned, GroupConsumerState.attempts, h.attempts, h.policies] using hpinned

theorem foldlM_observeExpired (nowMs : ℕ) (legacyPolicy : ConsumerPolicy)
    (expired : List (ℕ × GroupDelivery)) (hdistinct : expired.Pairwise (·.1 ≠ ·.1))
    (consumer : GroupConsumerState) (hpinned : ∀ entry ∈ expired, consumer.Pinned entry.1) :
    ∃ after, expired.foldlM (observeExpired nowMs legacyPolicy) consumer = some after ∧
      SameProgress consumer after ∧
      (∀ other, (∀ entry ∈ expired, entry.1 ≠ other) →
        after.inFlight[other]? = consumer.inFlight[other]? ∧
        after.retryNotBefore[other]? = consumer.retryNotBefore[other]?) ∧
      (∀ entry ∈ expired, after.inFlight[entry.1]? = none ∧
        after.retryNotBefore[entry.1]? = (consumer.retryNotBefore[entry.1]? <|>
          consumer.scheduleOf nowMs entry.1 entry.2)) := by
  induction expired generalizing consumer with
  | nil =>
    exact ⟨consumer, rfl, .refl _, fun _ _ => ⟨rfl, rfl⟩, fun _ h => absurd h List.not_mem_nil⟩
  | cons head rest ih =>
    obtain ⟨hhead, hrest⟩ := List.pairwise_cons.1 hdistinct
    obtain ⟨hpos, policy, hpolicy⟩ := hpinned head List.mem_cons_self
    obtain ⟨middle, hstep, hsame, hflight, hother, hself⟩ :=
      observeExpired_spec hpos hpolicy nowMs legacyPolicy head.2
    obtain ⟨after, hfold, hsame', hmiss, hhit⟩ := ih hrest middle (fun entry hmem =>
      hsame.pinned (hpinned entry (List.mem_cons_of_mem _ hmem)))
    refine ⟨after, ?_, hsame.trans hsame', fun other hnot => ?_, fun entry hmem => ?_⟩
    · rw [List.foldlM_cons, hstep]
      exact hfold
    · obtain ⟨hne, hnot⟩ := List.forall_mem_cons.1 hnot
      obtain ⟨hflight', hretry'⟩ := hmiss other hnot
      refine ⟨?_, hretry'.trans (hother other (Ne.symm hne))⟩
      rw [hflight', hflight]
      simp [Std.ExtTreeMap.getElem?_erase, hne]
    · rcases List.mem_cons.1 hmem with rfl | hmem
      · obtain ⟨hflight', hretry'⟩ := hmiss entry.1 (fun e he => Ne.symm (hhead e he))
        refine ⟨?_, hretry'.trans hself⟩
        rw [hflight', hflight]
        simp
      · obtain ⟨hflight', hretry'⟩ := hhit entry hmem
        refine ⟨hflight', ?_⟩
        rw [hretry', hsame.scheduleOf_eq, hother entry.1 (Ne.symm (hhead entry hmem))]

/-- What observing the expired leases leaves: the live ones in flight, and a schedule for
each expired one whose policy asks for it. -/
structure Released (nowMs : ℕ) (before after : GroupConsumerState) : Prop where
  same : SameProgress before after
  inFlight : ∀ offset : ℕ, after.inFlight[offset]? =
    (before.inFlight[offset]?).filter (fun delivery => !leaseExpired delivery.deadlineMs nowMs)
  retry : ∀ offset : ℕ, after.retryNotBefore[offset]? =
    (before.retryNotBefore[offset]? <|>
      ((before.inFlight[offset]?).filter (fun delivery =>
        leaseExpired delivery.deadlineMs nowMs)).bind (before.scheduleOf nowMs offset))

theorem observeExpiredDeliveries_spec (consumer : GroupConsumerState) (nowMs : ℕ)
    (legacyPolicy : ConsumerPolicy)
    (hpinned : ∀ offset ∈ consumer.inFlight, consumer.Pinned offset) :
    ∃ after, consumer.observeExpiredDeliveries nowMs legacyPolicy = some after ∧
      Released nowMs consumer after := by
  have hmem : ∀ entry, entry ∈ consumer.inFlight.toList.filter (fun entry =>
      leaseExpired entry.2.deadlineMs nowMs) ↔
      consumer.inFlight[entry.1]? = some entry.2 ∧ leaseExpired entry.2.deadlineMs nowMs := by
    intro entry
    rw [List.mem_filter, ← Std.ExtTreeMap.mem_toList_iff_getElem?_eq_some]
  have hdistinct : (consumer.inFlight.toList.filter (fun entry =>
      leaseExpired entry.2.deadlineMs nowMs)).Pairwise (·.1 ≠ ·.1) := by
    refine List.Pairwise.filter _ (Std.ExtTreeMap.distinct_keys_toList.imp ?_)
    simp
  obtain ⟨after, hfold, hsame, hmiss, hhit⟩ := foldlM_observeExpired nowMs legacyPolicy _ hdistinct
    consumer (fun entry h => hpinned entry.1 (mem_iff_exists_getElem?.2 ⟨_, ((hmem entry).1 h).1⟩))
  refine ⟨after, hfold, hsame, fun offset => ?_, fun offset => ?_⟩
  all_goals
    cases hget : consumer.inFlight[offset]? with
    | none =>
      obtain ⟨hflight, hretry⟩ := hmiss offset (by
        rintro entry hentry rfl
        rw [((hmem entry).1 hentry).1] at hget
        cases hget)
      simp [hflight, hretry, hget]
    | some delivery =>
      by_cases hexpired : leaseExpired delivery.deadlineMs nowMs
      · obtain ⟨hflight, hretry⟩ := hhit (offset, delivery) ((hmem _).2 ⟨hget, hexpired⟩)
        simp [hflight, hretry, hexpired, Option.filter]
      · obtain ⟨hflight, hretry⟩ := hmiss offset (by
          rintro entry hentry rfl
          obtain ⟨hget', hexpired'⟩ := (hmem entry).1 hentry
          rw [hget, Option.some.injEq] at hget'
          exact hexpired (hget' ▸ hexpired'))
        simp [hflight, hretry, hget, hexpired, Option.filter]

variable {nowMs : ℕ} {filter : BTreeSet ℕ × BTreeSet String} {entry : ℕ × GroupRetrySchedule}

theorem mem_addRetry_offsets :
    offset ∈ (addRetry nowMs filter entry).1 ↔
      offset ∈ filter.1 ∨ entry.1 = offset ∧ nowMs < entry.2.retryNotBeforeMs := by
  unfold addRetry
  split_ifs with hdue
  · simp [hdue]
  · simp [Nat.lt_of_not_le hdue, or_comm]

variable {key : String}

theorem mem_addRetry_keys :
    key ∈ (addRetry nowMs filter entry).2 ↔
      key ∈ filter.2 ∨ entry.2.key = some key ∧ nowMs < entry.2.retryNotBeforeMs := by
  unfold addRetry
  split_ifs with hdue
  · simp [hdue]
  · cases hkey : entry.2.key with
    | none => simp
    | some other => simp [Nat.lt_of_not_le hdue, or_comm]

theorem mem_foldl_addRetry (nowMs : ℕ) (entries : List (ℕ × GroupRetrySchedule))
    (filter : BTreeSet ℕ × BTreeSet String) :
    (∀ offset : ℕ, offset ∈ (entries.foldl (addRetry nowMs) filter).1 ↔ offset ∈ filter.1 ∨
      ∃ entry ∈ entries, entry.1 = offset ∧ nowMs < entry.2.retryNotBeforeMs) ∧
    (∀ key : String, key ∈ (entries.foldl (addRetry nowMs) filter).2 ↔ key ∈ filter.2 ∨
      ∃ entry ∈ entries, entry.2.key = some key ∧ nowMs < entry.2.retryNotBeforeMs) := by
  induction entries generalizing filter with
  | nil => simp
  | cons head rest ih =>
    simp only [List.foldl_cons, ih, mem_addRetry_offsets, mem_addRetry_keys,
      List.exists_mem_cons_iff, or_assoc, implies_true, and_self]

theorem mem_retryFilter_offsets :
    offset ∈ (consumer.retryFilter nowMs).1 ↔
      ∃ schedule, consumer.retryNotBefore[offset]? = some schedule ∧
        nowMs < schedule.retryNotBeforeMs := by
  rw [retryFilter, (mem_foldl_addRetry nowMs _ _).1]
  simp [Std.ExtTreeMap.mem_toList_iff_getElem?_eq_some]

theorem mem_retryFilter_keys :
    key ∈ (consumer.retryFilter nowMs).2 ↔
      ∃ (offset : ℕ) (schedule : GroupRetrySchedule),
        consumer.retryNotBefore[offset]? = some schedule ∧
        schedule.key = some key ∧ nowMs < schedule.retryNotBeforeMs := by
  rw [retryFilter, (mem_foldl_addRetry nowMs _ _).2]
  simp [Std.ExtTreeMap.mem_toList_iff_getElem?_eq_some]

theorem keyInFlight_iff :
    consumer.keyInFlight key = true ↔
      ∃ (offset : ℕ) (delivery : GroupDelivery),
        consumer.inFlight[offset]? = some delivery ∧ delivery.key = some key := by
  simp [keyInFlight, Std.ExtTreeMap.mem_toList_iff_getElem?_eq_some]

end GroupConsumerState

theorem eligible_iff {consumer : GroupConsumerState} {nowMs : ℕ} {selectedOffsets : BTreeSet ℕ}
    {selectedKeys : BTreeSet String} {offset : ℕ} {stored : StoredMessage} :
    eligible consumer nowMs selectedOffsets selectedKeys (offset, stored) = true ↔
      offset ∉ consumer.acknowledgedOffsets ∧ offset ∉ consumer.inFlight ∧
      offset ∉ (consumer.retryFilter nowMs).1 ∧ offset ∉ selectedOffsets ∧
      ∀ key, stored.key = some key → key ∉ selectedKeys ∧
        key ∉ (consumer.retryFilter nowMs).2 ∧ ¬ consumer.keyInFlight key = true := by
  unfold eligible
  dsimp only
  split_ifs with hblocked
  · simp only [false_iff]
    tauto
  · push Not at hblocked
    simp [hblocked, Option.all_eq_true, and_assoc, ← Std.ExtTreeSet.contains_iff_mem]

theorem candidate_eq_some {consumer : GroupConsumerState} {messages : List StoredMessage}
    {nowMs : ℕ} {selectedOffsets : BTreeSet ℕ} {selectedKeys : BTreeSet String} {offset : ℕ}
    {stored : StoredMessage}
    (h : candidate consumer messages nowMs selectedOffsets selectedKeys = some (offset, stored)) :
    messages[offset]? = some stored ∧ consumer.committedOffset ≤ offset ∧
      eligible consumer nowMs selectedOffsets selectedKeys (offset, stored) = true ∧
      ∀ other stored', consumer.committedOffset ≤ other → other < offset →
        messages[other]? = some stored' →
        eligible consumer nowMs selectedOffsets selectedKeys (other, stored') = false :=
  find?_enumerate_eq_some h

end Runnel.Cluster
