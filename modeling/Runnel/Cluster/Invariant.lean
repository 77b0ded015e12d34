import Runnel.Cluster.Consumer

/-!
# The delivery invariant of a consumer

`WellFormed` says when a consumer's delivery state fits the messages of its
stream: attempts carry pinned policies, leases and schedules belong to attempted
offsets, and an offset is attempted only after every lower offset of its key.
-/

namespace Runnel.Cluster

open Runnel.Engine GroupConsumerState

def keyAt (messages : List StoredMessage) (offset : ℕ) : Option String :=
  (messages[offset]?).bind StoredMessage.key

variable {messages : List StoredMessage} {offset : ℕ}

theorem keyAt_append (h : offset < messages.length)
    (more : List StoredMessage) : keyAt (messages ++ more) offset = keyAt messages offset := by
  rw [keyAt, List.getElem?_append_left h, keyAt]

/-- The offset may be delivered now as far as order goes: it is stored and pending, and every
lower offset with its key is behind the consumer. -/
structure InTurn (messages : List StoredMessage) (consumer : GroupConsumerState) (offset : ℕ) :
    Prop where
  stored : offset < messages.length
  pending : ¬ consumer.Acknowledged offset
  lower : ∀ key, keyAt messages offset = some key → ∀ other < offset,
    keyAt messages other = some key → consumer.Acknowledged other

theorem InTurn.append {consumer : GroupConsumerState}
    (h : InTurn messages consumer offset) (more : List StoredMessage) :
    InTurn (messages ++ more) consumer offset where
  stored := h.stored.trans_le (by simp)
  pending := h.pending
  lower key hkey other hlt hother := by
    rw [keyAt_append h.stored] at hkey
    rw [keyAt_append (hlt.trans h.stored)] at hother
    exact h.lower key hkey other hlt hother

theorem InTurn.of_acknowledged
    {before after : GroupConsumerState} (h : InTurn messages before offset)
    (hmono : ∀ other, before.Acknowledged other → after.Acknowledged other)
    (hpending : ¬ after.Acknowledged offset) : InTurn messages after offset where
  stored := h.stored
  pending := hpending
  lower key hkey other hlt hother := hmono other (h.lower key hkey other hlt hother)

theorem InTurn.eq_of_key {consumer : GroupConsumerState}
    {a b : ℕ} {key : String} (ha : InTurn messages consumer a) (hb : InTurn messages consumer b)
    (hkeyA : keyAt messages a = some key) (hkeyB : keyAt messages b = some key) : a = b := by
  rcases Nat.lt_trichotomy a b with hlt | heq | hlt
  · exact absurd (hb.lower key hkeyB a hlt hkeyA) ha.pending
  · exact heq
  · exact absurd (ha.lower key hkeyA b hlt hkeyB) hb.pending

structure WellFormed (messages : List StoredMessage) (consumer : GroupConsumerState) : Prop where
  pinned : ∀ offset : ℕ, offset ∈ consumer.deliveryAttempts ↔ offset ∈ consumer.deliveryPolicies
  attempts : ∀ (offset n : ℕ), consumer.deliveryAttempts[offset]? = some n → 0 < n ∧ n ≤ u32Max
  inFlight : ∀ (offset : ℕ) (delivery : GroupDelivery),
    consumer.inFlight[offset]? = some delivery →
      consumer.deliveryAttempts[offset]? = some delivery.deliveryAttempt ∧
      delivery.key = keyAt messages offset
  retry : ∀ (offset : ℕ) (schedule : GroupRetrySchedule),
    consumer.retryNotBefore[offset]? = some schedule →
      offset ∈ consumer.deliveryAttempts ∧ offset ∉ consumer.inFlight ∧
      schedule.key = keyAt messages offset
  inTurn : ∀ offset : ℕ, offset ∈ consumer.deliveryAttempts → InTurn messages consumer offset

namespace WellFormed

variable {messages : List StoredMessage} {consumer : GroupConsumerState}

variable {offset : ℕ}

theorem attempts_pos (h : WellFormed messages consumer)
    (hmem : offset ∈ consumer.deliveryAttempts) : 0 < consumer.attempts offset := by
  obtain ⟨n, hn⟩ := mem_iff_exists_getElem?.1 hmem
  simpa [GroupConsumerState.attempts, hn] using (h.attempts offset n hn).1

theorem pinned_of_mem (h : WellFormed messages consumer)
    (hmem : offset ∈ consumer.deliveryAttempts) : consumer.Pinned offset :=
  ⟨h.attempts_pos hmem, mem_iff_exists_getElem?.1 ((h.pinned offset).1 hmem)⟩

theorem attempted_of_inFlight (h : WellFormed messages consumer)
    (hmem : offset ∈ consumer.inFlight) : offset ∈ consumer.deliveryAttempts := by
  obtain ⟨delivery, hget⟩ := mem_iff_exists_getElem?.1 hmem
  exact mem_iff_exists_getElem?.2 ⟨_, (h.inFlight offset delivery hget).1⟩

theorem initial (messages : List StoredMessage) (committedOffset : ℕ) :
    WellFormed messages { committedOffset := committedOffset } := by
  constructor <;> simp

theorem append (h : WellFormed messages consumer) (more : List StoredMessage) :
    WellFormed (messages ++ more) consumer where
  pinned := h.pinned
  attempts := h.attempts
  inFlight offset delivery hget := by
    obtain ⟨hattempt, hkey⟩ := h.inFlight offset delivery hget
    have hmem : offset ∈ consumer.deliveryAttempts := mem_iff_exists_getElem?.2 ⟨_, hattempt⟩
    exact ⟨hattempt, by rw [keyAt_append (h.inTurn offset hmem).stored, hkey]⟩
  retry offset schedule hget := by
    obtain ⟨hmem, hnot, hkey⟩ := h.retry offset schedule hget
    exact ⟨hmem, hnot, by rw [keyAt_append (h.inTurn offset hmem).stored, hkey]⟩
  inTurn offset hmem := (h.inTurn offset hmem).append more

theorem setPolicy (h : WellFormed messages consumer) (policy : Option ConsumerPolicy) :
    WellFormed messages { consumer with policy := policy } where
  pinned := h.pinned
  attempts := h.attempts
  inFlight := h.inFlight
  retry := h.retry
  inTurn offset hmem := (h.inTurn offset hmem).of_acknowledged (fun _ h => h)
    (h.inTurn offset hmem).pending

theorem released (h : WellFormed messages consumer) {nowMs : ℕ} {after : GroupConsumerState}
    (hafter : Released nowMs consumer after) : WellFormed messages after where
  pinned offset := by
    rw [hafter.same.attempts, hafter.same.policies]
    exact h.pinned offset
  attempts offset n hn := h.attempts offset n (by rwa [hafter.same.attempts] at hn)
  inFlight offset delivery hget := by
    rw [hafter.inFlight, Option.filter_eq_some_iff] at hget
    rw [hafter.same.attempts]
    exact h.inFlight offset delivery hget.1
  retry offset schedule hget := by
    rw [hafter.retry, Option.orElse_eq_orElse, Option.orElse_eq_or, Option.or_eq_some_iff] at hget
    rw [hafter.same.attempts]
    have hflight : offset ∈ after.inFlight → ∃ delivery,
        consumer.inFlight[offset]? = some delivery ∧
        leaseExpired delivery.deadlineMs nowMs = false := by
      intro hmem
      obtain ⟨delivery, hdelivery⟩ := mem_iff_exists_getElem?.1 hmem
      rw [hafter.inFlight, Option.filter_eq_some_iff] at hdelivery
      exact ⟨delivery, hdelivery.1, by simpa using hdelivery.2⟩
    rcases hget with hget | ⟨-, hget⟩
    · -- An old schedule: its offset was not in flight before and is not now.
      obtain ⟨hmem, hnot, hkey⟩ := h.retry offset schedule hget
      refine ⟨hmem, fun hin => hnot ?_, hkey⟩
      obtain ⟨delivery, hdelivery, -⟩ := hflight hin
      exact mem_iff_exists_getElem?.2 ⟨delivery, hdelivery⟩
    · -- A new schedule: its lease has just expired.
      obtain ⟨delivery, hdelivery, hschedule⟩ := Option.bind_eq_some_iff.1 hget
      rw [Option.filter_eq_some_iff] at hdelivery
      obtain ⟨hdelivery, hexpired⟩ := hdelivery
      have hin : offset ∈ consumer.inFlight := mem_iff_exists_getElem?.2 ⟨delivery, hdelivery⟩
      refine ⟨h.attempted_of_inFlight hin, fun hin' => ?_, ?_⟩
      · obtain ⟨delivery', hdelivery', hlive⟩ := hflight hin'
        rw [hdelivery, Option.some.injEq] at hdelivery'
        rw [← hdelivery', hexpired] at hlive
        cases hlive
      · obtain ⟨policy, -, hpolicy⟩ := Option.bind_eq_some_iff.1 hschedule
        split_ifs at hpolicy
        rw [← Option.some.inj hpolicy]
        exact (h.inFlight offset delivery hdelivery).2
  inTurn offset hmem := by
    rw [hafter.same.attempts] at hmem
    exact (h.inTurn offset hmem).of_acknowledged
      (fun other => (hafter.same.acknowledged_iff other).2)
      (mt (hafter.same.acknowledged_iff offset).1 (h.inTurn offset hmem).pending)

theorem acknowledge (h : WellFormed messages consumer) (offset : ℕ) :
    WellFormed messages (consumer.acknowledgeGroupOffset offset) := by
  have hspec := acknowledgeGroupOffset_spec consumer offset
  have hattempted : ∀ other : ℕ,
      other ∈ (consumer.acknowledgeGroupOffset offset).deliveryAttempts ↔
        other ≠ offset ∧ other ∈ consumer.deliveryAttempts := by
    intro other
    rw [hspec.attempts, Std.ExtTreeMap.mem_erase, ne_eq, Nat.compare_eq_eq, ← ne_eq, ne_comm]
  refine ⟨fun other => ?_, fun other n hn => ?_, fun other delivery hget => ?_,
    fun other schedule hget => ?_, fun other hmem => ?_⟩
  · rw [hattempted]
    constructor
    · rintro ⟨hne, hmem⟩
      rw [Std.ExtTreeMap.mem_iff_isSome_getElem?,
        hspec.policies other hne (h.inTurn other hmem).pending,
        ← Std.ExtTreeMap.mem_iff_isSome_getElem?]
      exact (h.pinned other).1 hmem
    · intro hmem
      obtain ⟨hne, hmem⟩ := hspec.policies_subset other hmem
      exact ⟨hne, (h.pinned other).2 hmem⟩
  · rw [hspec.attempts, Std.ExtTreeMap.getElem?_erase] at hn
    split_ifs at hn
    exact h.attempts other n hn
  · rw [hspec.inFlight, Std.ExtTreeMap.getElem?_erase] at hget
    split_ifs at hget with hne
    rw [hspec.attempts, Std.ExtTreeMap.getElem?_erase, if_neg hne]
    exact h.inFlight other delivery hget
  · obtain ⟨hne, hget⟩ := hspec.retry_subset other schedule hget
    obtain ⟨hmem, hnot, hkey⟩ := h.retry other schedule hget
    refine ⟨(hattempted other).2 ⟨hne, hmem⟩, fun hin => hnot ?_, hkey⟩
    rw [hspec.inFlight, Std.ExtTreeMap.mem_erase] at hin
    exact hin.2
  · obtain ⟨hne, hmem⟩ := (hattempted other).1 hmem
    refine (h.inTurn other hmem).of_acknowledged
      (fun lower hlower => (hspec.acknowledged_iff lower).2 (Or.inl hlower)) ?_
    rw [hspec.acknowledged_iff]
    rintro (hacked | heq)
    · exact (h.inTurn other hmem).pending hacked
    · exact hne heq

theorem assign (h : WellFormed messages consumer) {policy : ConsumerPolicy}
    {delivery : GroupDelivery} (hturn : InTurn messages consumer offset)
    (hpos : 0 < delivery.deliveryAttempt) (hle : delivery.deliveryAttempt ≤ u32Max)
    (hkey : delivery.key = keyAt messages offset) :
    WellFormed messages (consumer.assign offset delivery.deliveryAttempt policy delivery) where
  pinned other := by
    simp only [GroupConsumerState.assign, Std.ExtTreeMap.mem_insert, Std.ExtTreeMap.mem_insertIfNew,
      h.pinned]
  attempts other n hn := by
    simp only [GroupConsumerState.assign, Std.ExtTreeMap.getElem?_insert] at hn
    split_ifs at hn
    · rw [← Option.some.inj hn]
      exact ⟨hpos, hle⟩
    · exact h.attempts other n hn
  inFlight other delivery' hget := by
    simp only [GroupConsumerState.assign, Std.ExtTreeMap.getElem?_insert,
      Nat.compare_eq_eq] at hget ⊢
    split_ifs at hget ⊢ with heq
    · subst heq
      rw [← Option.some.inj hget]
      exact ⟨rfl, hkey⟩
    · exact h.inFlight other delivery' hget
  retry other schedule hget := by
    simp only [GroupConsumerState.assign, Std.ExtTreeMap.getElem?_erase, Nat.compare_eq_eq] at hget
    split_ifs at hget with hne
    obtain ⟨hmem, hnot, hkey⟩ := h.retry other schedule hget
    simp only [GroupConsumerState.assign, Std.ExtTreeMap.mem_insert, Nat.compare_eq_eq]
    exact ⟨Or.inr hmem, by tauto, hkey⟩
  inTurn other hmem := by
    simp only [GroupConsumerState.assign, Std.ExtTreeMap.mem_insert, Nat.compare_eq_eq] at hmem
    rcases hmem with rfl | hmem
    · exact hturn.of_acknowledged (fun _ h => h) hturn.pending
    · exact (h.inTurn other hmem).of_acknowledged (fun _ h => h) (h.inTurn other hmem).pending

end WellFormed

end Runnel.Cluster
