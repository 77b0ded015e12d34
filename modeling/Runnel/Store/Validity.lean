import Runnel.Cluster.PreviewSpec
import Runnel.Store.Open

/-!
# Reachable states are valid

The delivery state of every consumer that commands can produce passes the
validation of persisted states, so that what a store writes from a reachable state
can be read back.
-/

namespace Runnel.Cluster

open Runnel.Engine GroupConsumerState Transition

namespace GroupConsumerState

/-- Offsets are acknowledged on their own only beyond the committed prefix. -/
def Ahead (consumer : GroupConsumerState) : Prop :=
  ∀ offset ∈ consumer.acknowledgedOffsets, consumer.committedOffset < offset

/-- The collapse loop has enough fuel to stop before an offset that is not acknowledged. -/
theorem ahead_collapseAcknowledged {fuel : ℕ} {consumer : GroupConsumerState}
    (hfuel : consumer.acknowledgedOffsets.size ≤ fuel)
    (hle : ∀ offset ∈ consumer.acknowledgedOffsets, consumer.committedOffset ≤ offset) :
    (collapseAcknowledged fuel consumer).Ahead := by
  induction fuel generalizing consumer with
  | zero =>
    intro offset hmem
    have hempty := Std.ExtTreeSet.eq_empty_iff_size_eq_zero.2 (Nat.le_zero.1 hfuel)
    simp [collapseAcknowledged, hempty] at hmem
  | succ fuel ih =>
    unfold collapseAcknowledged
    split_ifs with hmem
    · apply ih
      · dsimp only
        rw [Std.ExtTreeSet.size_erase, if_pos (Std.ExtTreeSet.contains_iff_mem.2 hmem)]
        omega
      · intro offset hoffset
        rw [Std.ExtTreeSet.mem_erase, ne_eq, Nat.compare_eq_eq] at hoffset
        exact Nat.lt_of_le_of_ne (hle offset hoffset.2) hoffset.1
    · intro offset hoffset
      exact Nat.lt_of_le_of_ne (hle offset hoffset) fun heq => hmem (heq ▸ hoffset)

theorem Ahead.acknowledge {consumer : GroupConsumerState} (h : consumer.Ahead) {offset : ℕ}
    (hpending : ¬ consumer.Acknowledged offset) :
    (consumer.acknowledgeGroupOffset offset).Ahead := by
  unfold acknowledgeGroupOffset
  dsimp only
  split_ifs with hnext
  · exact ahead_collapseAcknowledged le_rfl h
  · intro other hother
    rcases Std.ExtTreeSet.mem_insert.1 hother with heq | hmem
    · rw [← Std.LawfulEqCmp.eq_of_compare heq]
      exact Nat.lt_of_le_of_ne (Nat.le_of_not_lt fun hlt => hpending (Or.inl hlt)) (Ne.symm hnext)
    · exact h other hmem

theorem Ahead.acknowledgeAll {consumer : GroupConsumerState} (h : consumer.Ahead)
    {offsets : List ℕ} (hnodup : offsets.Nodup)
    (hpending : ∀ offset ∈ offsets, ¬ consumer.Acknowledged offset) :
    (offsets.foldl acknowledgeGroupOffset consumer).Ahead := by
  induction offsets generalizing consumer with
  | nil => exact h
  | cons head rest ih =>
    obtain ⟨hhead, hrest⟩ := List.forall_mem_cons.1 hpending
    obtain ⟨hfresh, hnodup⟩ := List.nodup_cons.1 hnodup
    apply ih (h.acknowledge hhead) hnodup
    intro offset hmem hacked
    rcases ((acknowledgeGroupOffset_spec consumer head).acknowledged_iff offset).1 hacked with
      hacked | rfl
    · exact hrest offset hmem hacked
    · exact hfresh hmem

theorem Ahead.assignAll {consumer : GroupConsumerState} (h : consumer.Ahead)
    (assignments : List Assignment) : (assignAll consumer assignments).Ahead := by
  induction assignments generalizing consumer with
  | nil => exact h
  | cons head rest ih => exact ih h

theorem Ahead.released {consumer after : GroupConsumerState} (h : consumer.Ahead) {nowMs : ℕ}
    (hreleased : Released nowMs consumer after) : after.Ahead := by
  intro offset hoffset
  rw [hreleased.same.acknowledged] at hoffset
  rw [hreleased.same.committed]
  exact h offset hoffset

end GroupConsumerState

def SnapshotState.Ahead (state : SnapshotState) : Prop :=
  ∀ (key : ConsumerKey) (consumer : GroupConsumerState),
    state.groupConsumers[key]? = some consumer → consumer.Ahead

section Commands

variable {state after : SnapshotState} {command : Command}

theorem SnapshotState.Ahead.consumerOf (h : state.Ahead) (key : ConsumerKey) :
    (state.consumerOf key).Ahead := by
  unfold SnapshotState.consumerOf
  cases hget : state.groupConsumers[key]? with
  | some consumer => exact h key consumer hget
  | none =>
    intro offset hoffset
    simp at hoffset

theorem SnapshotState.Ahead.setConsumer (h : state.Ahead) (key : ConsumerKey)
    {consumer : GroupConsumerState} (hconsumer : consumer.Ahead) :
    (state.setConsumer key consumer).Ahead := by
  intro other found hget
  rw [SnapshotState.setConsumer_getElem?] at hget
  split_ifs at hget with hsame
  · rw [← Option.some.inj hget]
    exact hconsumer
  · exact h other found hget

theorem ahead_of_consumerOf (h : ∀ key, (state.consumerOf key).Ahead) : state.Ahead := by
  intro key consumer hget
  rw [← consumerOf_of_getElem? hget]
  exact h key

theorem ConsumerStep.ahead (h : ConsumerStep state command after) (hahead : state.Ahead)
    (hdistinct : command.DistinctReceipts) : after.Ahead := by
  cases h with
  | kept hconsumers =>
    intro key consumer hget
    rw [hconsumers] at hget
    exact hahead key consumer hget
  | @configured stream name _ _ _ policy =>
    apply hahead.setConsumer
    cases hget : state.groupConsumers[(stream, name)]? with
    | some consumer => exact hahead _ consumer hget
    | none =>
      intro offset hoffset
      simp at hoffset
  | @polled _ key _ _ _ _ _ hstep =>
    obtain ⟨consumer, hreleased, hkey, hother, hnodup, hpending⟩ := hstep.consumerOf
    apply ahead_of_consumerOf
    intro other
    by_cases hsame : key = other
    · rw [← hsame, hkey]
      apply GroupConsumerState.Ahead.assignAll
      apply GroupConsumerState.Ahead.acknowledgeAll _ hnodup fun offset hmem =>
        (hpending offset hmem).1
      exact (hahead.consumerOf _).released hreleased
    · rw [hother other hsame]
      exact hahead.consumerOf other
  | @acknowledged request consumer hreleased =>
    have hobserved : (observeLeaseClock state request.nowMs).Ahead := hahead
    apply hobserved.setConsumer
    have hconsumer := (hahead.consumerOf _).released hreleased
    rcases acknowledge_cases consumer request with ⟨heq, -⟩ | ⟨heq, hpending, -⟩
    · rw [heq]
      exact hconsumer
    · rw [heq]
      exact hconsumer.acknowledge hpending
  | @batchAcknowledged request consumer hreleased =>
    have hobserved : (observeLeaseClock state request.nowMs).Ahead := hahead
    apply hobserved.setConsumer
    apply ((hahead.consumerOf _).released hreleased).acknowledgeAll
      (nodup_confirmedOffsets consumer hdistinct)
    intro offset hmem
    obtain ⟨receipt, -, rfl, hconfirmed⟩ := mem_confirmedOffsets.1 hmem
    exact (receiptOutcome_confirmed hconfirmed).1

end Commands

section Previews

variable {state : SnapshotState} {request : GroupBatchPollRequest} {kind : GroupKind}

theorem previewLoop_isSome_of_full {context : PreviewContext} {fuel : ℕ}
    {selection : PreviewSelection} (htransition : request.transitionOnly = true)
    (h : (previewLoop { request with transitionOnly := false } context fuel selection).isSome) :
    (previewLoop request context fuel selection).isSome := by
  induction fuel generalizing selection with
  | zero => cases h
  | succ fuel ih =>
    rw [previewLoop] at h ⊢
    dsimp only at h
    by_cases hready : selection.messages.length < request.maxRecords ∧
        selection.sizer.encodedLen < request.maxBytes
    · rw [if_pos hready] at h ⊢
      cases hfound : previewCandidate context selection with
      | none => rfl
      | some found =>
        rw [hfound] at h
        obtain ⟨result, hresult⟩ := Option.isSome_iff_exists.1 h
        obtain ⟨policy, hpolicy, hrest⟩ := Option.bind_eq_some_iff.1 hresult
        have hsame : (context.consumer.elim (some request.legacyPolicy) fun consumer =>
            consumer.groupPolicyForOffset found.1
              (context.consumer.elim 0 fun consumer => consumer.attempts found.1)
              request.legacyPolicy request.policyVersion) = some policy := hpolicy
        simp only [hsame, Option.bind_eq_bind, Option.bind_some]
        by_cases hterminal : (policy.exhausted
            (context.consumer.elim 0 fun consumer => consumer.attempts found.1) &&
              !context.isDeadLetter) = true
        · rw [if_pos hterminal] at hrest ⊢
          exact ih (Option.isSome_iff_exists.2 ⟨result, hrest⟩)
        · rw [if_neg hterminal] at hrest ⊢
          rw [if_pos htransition]
          rfl
    · rw [if_neg hready]
      rfl

theorem previewLoop_isSome (hwf : state.WellFormed) (streamState : StreamState)
    (filter : BTreeSet ℕ × BTreeSet String) (sizer : PollBatchResponseSizer) :
    (previewLoop request (previewContext state request streamState filter)
      (streamState.messages.length + 1) { sizer := sizer }).isSome := by
  have hconsumer : WellFormed (state.messages request.stream)
      (state.consumerOf request.consumerKey) := hwf.consumerOf request.consumerKey
  have hscan : ∀ full : GroupBatchPollRequest, full.transitionOnly = false →
      (previewLoop full (previewContext state request streamState filter)
        (streamState.messages.length + 1) { sizer := sizer }).isSome := by
    intro full hfull
    have hloop := @previewLoop_eq_scan full (previewContext state request streamState filter)
      (state.consumerOf request.consumerKey) rfl rfl
      (fun offset => hconsumer.exists_policy offset _ _) hfull sizer
    exact Option.isSome_iff_exists.2 ⟨_, hloop⟩
  cases htransition : request.transitionOnly with
  | false => exact hscan request htransition
  | true => exact previewLoop_isSome_of_full htransition (hscan _ rfl)

theorem previewGroupBatch_isSome (hwf : state.WellFormed) :
    (previewGroupBatch state request kind).isSome := by
  by_cases hkind : kind = .metadata
  · simp [previewGroupBatch, hkind]
  by_cases hlimits : request.maxRecords = 0 ∨ request.maxBytes = 0
  · simp [previewGroupBatch, hkind, hlimits]
  cases hactive : (state.streams[request.stream]?).filter StreamState.isActive with
  | none =>
    unfold previewGroupBatch
    rw [if_neg hkind, if_neg hlimits, hactive]
    rfl
  | some streamState =>
    obtain ⟨hstream, hlive⟩ := Option.filter_eq_some_iff.1 hactive
    obtain ⟨filter, hfilter, -⟩ := previewRetryFilter_spec (hwf.consumerOf request.consumerKey)
      (request.terms (max state.leaseClockMs request.nowMs))
    rw [previewGroupBatch_eq_loop hkind hlimits hstream hlive hfilter]
    split_ifs
    · rw [Option.isSome_map]
      exact previewLoop_isSome hwf streamState filter _
    · rfl

end Previews

end Runnel.Cluster

namespace Runnel.Store

open Runnel.Cluster Runnel.Engine GroupConsumerState Transition

/-- What the store relies on in a state: every consumer passes its validation and has its
acknowledged offsets apart from its leases, commands and previews do not panic, and what is
written of the state is accepted and read back as the same state. -/
structure Valid [ToString LogId] (serde : Serde) (kind : GroupKind) (state : SnapshotState) :
    Prop where
  pinned : ∀ (key : ConsumerKey) (consumer : GroupConsumerState),
    state.groupConsumers[key]? = some consumer → validatePinnedPolicies consumer = .ok ()
  disjoint : ∀ (key : ConsumerKey) (consumer : GroupConsumerState),
    state.groupConsumers[key]? = some consumer →
      ∀ offset ∈ consumer.acknowledgedOffsets, offset ∉ consumer.inFlight
  policy : ∀ (key : ConsumerKey) (consumer : GroupConsumerState),
    state.groupConsumers[key]? = some consumer → ∀ offset legacy version,
      (consumer.groupPolicyForOffset offset (consumer.attempts offset) legacy version).isSome
  applies : ∀ command logId, (applyCommand state command kind logId).isSome
  previews : ∀ request, (previewGroupBatch state request kind).isSome
  snapshot : ∃ persisted,
    validateSnapshotData serde (serde.snapshotState.encode (.ofState state)) = .ok persisted ∧
      persisted.toState = state
  checkpoint : ∀ path lastAppliedLog lastMembership, ∃ persisted,
    readPersistedState serde path (some (serde.checkpoint.encode
      (.ofData ⟨lastAppliedLog, lastMembership, state⟩))) = .ok (some persisted) ∧
      persisted.toData = ⟨lastAppliedLog, lastMembership, state⟩

section Reachable

variable [ToString LogId] {kind : GroupKind} {state : SnapshotState}

theorem Valid.of_reachable (serde : Serde) (h : Reachable kind state) : Valid serde kind state := by
  obtain ⟨past, hrun⟩ := h
  have hwf : state.WellFormed := Run.wellFormed hrun
  constructor
  · intro key consumer hget
    exact validatePinnedPolicies_of_wellFormed (hwf key consumer hget)
  · intro key consumer hget offset hacked hflight
    have hattempted := (hwf key consumer hget).attempted_of_inFlight hflight
    exact ((hwf key consumer hget).inTurn offset hattempted).pending (Or.inr hacked)
  · intro key consumer hget offset legacy version
    exact Option.isSome_iff_exists.2 ((hwf key consumer hget).exists_policy offset legacy version)
  · intro command logId
    exact Reachable.applyCommand_isSome ⟨past, hrun⟩ command logId
  · intro request
    exact previewGroupBatch_isSome hwf
  · exact ⟨_, validateSnapshotData_encode hwf, toState_ofState state⟩
  · intro path lastAppliedLog lastMembership
    exact ⟨_, readPersistedState_encode path hwf, toData_ofData _⟩

theorem ahead_of_run {past : List (SnapshotState × Command × LogId)}
    (h : Run Empty (ApplyStep kind) past state)
    (hdistinct : ∀ step ∈ past, step.2.1.DistinctReceipts) : state.Ahead := by
  induction h with
  | start hempty =>
    obtain rfl := hempty
    intro key consumer hget
    simp at hget
  | next hrun hstep ih =>
    obtain ⟨hlast, hearlier⟩ := List.forall_mem_cons.1 hdistinct
    obtain ⟨response, happly⟩ := hstep
    exact (applyCommand_consumerStep (Run.wellFormed hrun) happly).ahead (ih hearlier) hlast

/-- Every state that commands reach is valid, and if no batch of the history named one offset
twice, its consumers have their acknowledged offsets beyond the committed one. -/
theorem reachable_state_valid (serde : Serde) {past : List (SnapshotState × Command × LogId)}
    (h : Run Empty (ApplyStep kind) past state) :
    Valid serde kind state ∧
    ((∀ step ∈ past, step.2.1.DistinctReceipts) →
      ∀ (key : ConsumerKey) (consumer : GroupConsumerState),
        state.groupConsumers[key]? = some consumer →
          ∀ offset ∈ consumer.acknowledgedOffsets, consumer.committedOffset < offset) :=
  ⟨.of_reachable serde ⟨past, h⟩, ahead_of_run h⟩

end Reachable

section Examples

open scoped LogId.Display

def mailGroup : GroupKind := .data "mail" "stream/mail" "group/mail/data"

/-- Two records are delivered in a batch and acknowledged by the given receipts. -/
def acknowledgedMail (receipts : List DeliveryReceipt) : List (Command × LogId) :=
  [(.initializeDataStream "mail" "stream/mail" "group/mail/data", ⟨1, 1, 1⟩),
   (.publish "mail" none [7] 3 none, ⟨1, 1, 2⟩),
   (.publish "mail" none [8] 4 none, ⟨1, 1, 3⟩),
   (.pollGroupBatch ⟨"mail", "workers", "a", none, 10, 10000, "seed", 5, 50, some 2, some 45, none,
      false⟩, ⟨1, 1, 4⟩),
   (.ackGroupBatch ⟨"mail", "workers", "a", receipts, 6⟩, ⟨1, 1, 5⟩)]

theorem acknowledgedMail_runs {receipts : List DeliveryReceipt}
    {past : List (SnapshotState × Command × LogId)} {state : SnapshotState}
    (h : follow (applyNext? mailGroup) (acknowledgedMail receipts) [] {} = some (past, state)) :
    Run Empty (guarded (fun _ entry => (receipts.map DeliveryReceipt.offset).Nodup →
      entry.1.DistinctReceipts) (ApplyStep mailGroup)) past state := by
  refine guarded_run_of_follow (.start rfl) ?_ h
  intro entry hentry _ hnodup
  simp only [acknowledgedMail, List.mem_cons, List.not_mem_nil, or_false] at hentry
  rcases hentry with rfl | rfl | rfl | rfl | rfl
  · trivial
  · trivial
  · trivial
  · trivial
  · exact hnodup

/-- A record acknowledged out of order is beyond the committed offset. -/
theorem later_receipt_ahead :
    Nonempty Serde ∧ ∃ past state consumer, Run Empty (ApplyStep mailGroup) past state ∧
      (∀ serde, Valid serde mailGroup state) ∧
      state.groupConsumers[("mail", "workers")]? = some consumer ∧
      1 ∈ consumer.acknowledgedOffsets ∧ consumer.committedOffset < 1 := by
  have hsome : (follow (applyNext? mailGroup) (acknowledgedMail [⟨1, "seed-1"⟩]) [] {}).any
      fun result =>
      (result.2.groupConsumers[("mail", "workers")]?).any fun consumer =>
        1 ∈ consumer.acknowledgedOffsets := by
    decide +kernel
  obtain ⟨⟨past, state⟩, happly, hfound⟩ := (Option.any_eq_true _ _).1 hsome
  obtain ⟨consumer, hget, hmem⟩ := (Option.any_eq_true _ _).1 hfound
  have hrun := acknowledgedMail_runs happly
  have hvalid := fun serde => reachable_state_valid serde hrun.of_guarded
  have hdistinct : ∀ step ∈ past, step.2.1.DistinctReceipts :=
    fun step hstep => hrun.guard_of_mem step hstep (List.nodup_singleton _)
  exact ⟨inferInstance, past, state, consumer, hrun.of_guarded, fun serde => (hvalid serde).1, hget,
    of_decide_eq_true hmem,
    (hvalid (Classical.arbitrary Serde)).2 hdistinct _ consumer hget 1 (of_decide_eq_true hmem)⟩

/-- A batch that names one offset twice leaves it acknowledged below the committed offset. -/
theorem repeated_receipt_behind :
    ∃ past state consumer, Run Empty (ApplyStep mailGroup) past state ∧
      state.groupConsumers[("mail", "workers")]? = some consumer ∧
      0 ∈ consumer.acknowledgedOffsets ∧ consumer.committedOffset = 1 := by
  have hsome : (follow (applyNext? mailGroup) (acknowledgedMail [⟨0, "seed-0"⟩, ⟨0, "seed-0"⟩]) []
      {}).any
      fun result => (result.2.groupConsumers[("mail", "workers")]?).any fun consumer =>
        0 ∈ consumer.acknowledgedOffsets ∧ consumer.committedOffset = 1 := by
    decide +kernel
  obtain ⟨⟨past, state⟩, happly, hfound⟩ := (Option.any_eq_true _ _).1 hsome
  obtain ⟨consumer, hget, hfacts⟩ := (Option.any_eq_true _ _).1 hfound
  exact ⟨past, state, consumer, (acknowledgedMail_runs happly).of_guarded, hget,
    of_decide_eq_true hfacts⟩

end Examples

end Runnel.Store
