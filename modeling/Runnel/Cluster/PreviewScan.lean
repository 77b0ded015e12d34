import Runnel.Foundation.Search
import Runnel.Cluster.Preview
import Runnel.Cluster.History

/-!
# The preview as one pass

The preview loop restarts its search in every round. Here it becomes a single
pass over the stored messages, driven by a view that says which records are free
and which of them are exhausted.
-/

namespace Runnel.Cluster

open Runnel.Engine GroupConsumerState Search

/-- What a batch preview reads of the state. -/
structure BatchView where
  free : ℕ × StoredMessage → Bool
  terminal : ℕ → Bool
  attempts : ℕ → ℕ

namespace BatchView

variable (request : GroupBatchPollRequest) (view : BatchView)

def message (entry : ℕ × StoredMessage) : Message :=
  request.message entry.1 entry.2 (request.token entry.1) (satAdd32 (view.attempts entry.1) 1)

def countTerminal (selection : PreviewSelection) (offset : ℕ) : PreviewSelection :=
  { selection with
    terminalOffsets := selection.terminalOffsets.insert offset
    terminalTransitions := selection.terminalTransitions + 1 }

def select (selection : PreviewSelection) (entry : ℕ × StoredMessage) : PreviewSelection :=
  { selection with
    sizer := selection.sizer.push (view.message request entry)
    selectedOffsets := selection.selectedOffsets.insert entry.1
    selectedKeys := match entry.2.key with
      | some key => selection.selectedKeys.insert key
      | none => selection.selectedKeys
    messages := selection.messages ++ [view.message request entry] }

def program : Program (ℕ × StoredMessage) PreviewSelection
    (PreviewSelection × Option CommandResponse) where
  ready selection := selection.messages.length < request.maxRecords ∧
    selection.sizer.encodedLen < request.maxBytes
  eligible selection entry := view.free entry &&
    entry.2.key.all (fun key => !(selection.selectedKeys.contains key))
  act selection entry :=
    if view.terminal entry.1 then .inl (countTerminal selection entry.1)
    else if request.maxBytes < selection.sizer.projectedLen (view.message request entry) then
      if selection.messages.isEmpty then
        .inr (selection, some (.groupBatchPollRecordTooLarge request.maxBytes))
      else .inr ({ selection with stoppedAtByteLimit := true }, none)
    else .inl (view.select request selection entry)
  finish selection := (selection, none)

end BatchView

/-- The view of a consumer whose retry filter is known. -/
def GroupConsumerState.batchView (consumer : GroupConsumerState) (terms : PollTerms)
    (filter : BTreeSet ℕ × BTreeSet String) (isDeadLetter : Bool) : BatchView where
  free entry := !decide (consumer.Acknowledged entry.1) && !filter.1.contains entry.1 &&
    !(consumer.inFlight[entry.1]?).any (fun delivery =>
      !leaseExpired delivery.deadlineMs terms.nowMs) &&
    entry.2.key.all (fun key =>
      !filter.2.contains key && !consumer.liveKeyInFlight terms.nowMs key)
  terminal offset := consumer.exhaustedAt terms offset && !isDeadLetter
  attempts := consumer.attempts

def GroupConsumerState.Live (consumer : GroupConsumerState) (nowMs offset : ℕ) : Prop :=
  ∃ delivery, consumer.inFlight[offset]? = some delivery ∧
    leaseExpired delivery.deadlineMs nowMs = false

theorem any_live_iff {consumer : GroupConsumerState} {nowMs offset : ℕ} :
    (consumer.inFlight[offset]?).any (fun delivery => !leaseExpired delivery.deadlineMs nowMs) =
      true ↔ consumer.Live nowMs offset := by
  simp [Option.any_eq_true, GroupConsumerState.Live]

theorem GroupConsumerState.batchView_free_iff {consumer : GroupConsumerState} {terms : PollTerms}
    {filter : BTreeSet ℕ × BTreeSet String} {isDeadLetter : Bool} {entry : ℕ × StoredMessage} :
    (consumer.batchView terms filter isDeadLetter).free entry = true ↔
      ¬ consumer.Acknowledged entry.1 ∧ entry.1 ∉ filter.1 ∧ ¬ consumer.Live terms.nowMs entry.1 ∧
      ∀ key, entry.2.key = some key → key ∉ filter.2 ∧
        ¬ consumer.liveKeyInFlight terms.nowMs key = true := by
  unfold batchView
  simp only [Bool.and_eq_true, Bool.not_eq_true', Option.all_eq_true, ← Bool.not_eq_true,
    any_live_iff, Std.ExtTreeSet.contains_iff_mem, decide_eq_true_eq, and_assoc]

section Advance

variable (consumer : GroupConsumerState) (terminalOffsets : BTreeSet ℕ)

theorem advancePreviewCommittedOffset_spec (fuel committed : ℕ) :
    committed ≤ advancePreviewCommittedOffset (some consumer) terminalOffsets fuel committed ∧
    ∀ offset, committed ≤ offset →
      offset < advancePreviewCommittedOffset (some consumer) terminalOffsets fuel committed →
      offset ∈ consumer.acknowledgedOffsets ∨ offset ∈ terminalOffsets := by
  induction fuel generalizing committed with
  | zero =>
    exact ⟨le_rfl,
      fun offset hle hlt => absurd hlt (by simpa [advancePreviewCommittedOffset] using hle)⟩
  | succ fuel ih =>
    unfold advancePreviewCommittedOffset
    split_ifs with hstop
    · exact ⟨le_rfl, fun offset hle hlt => absurd hlt (by omega)⟩
    · obtain ⟨hle, hpassed⟩ := ih (committed + 1)
      refine ⟨by omega, fun offset hge hlt => ?_⟩
      by_cases heq : offset = committed
      · subst heq
        simp only [Option.any_some, Bool.and_eq_true, Bool.not_eq_true', not_and,
          Bool.not_eq_false] at hstop
        by_cases hacked : consumer.acknowledgedOffsets.contains offset
        · exact Or.inl (Std.ExtTreeSet.contains_iff_mem.1 hacked)
        · exact Or.inr (Std.ExtTreeSet.contains_iff_mem.1
            (hstop (Bool.eq_false_of_not_eq_true hacked)))
      · exact hpassed offset (by omega) hlt

end Advance

section Pass

variable {request : GroupBatchPollRequest} {context : PreviewContext}
  {consumer : GroupConsumerState}

def PreviewContext.view (request : GroupBatchPollRequest) (context : PreviewContext)
    (consumer : GroupConsumerState) : BatchView :=
  consumer.batchView (request.terms context.nowMs) (context.retryOffsets, context.retryKeys)
    context.isDeadLetter

def searchTest (context : PreviewContext) (selection : PreviewSelection)
    (entry : ℕ × StoredMessage) : Bool :=
  decide (effectiveCommittedOffset context selection ≤ entry.1) &&
    previewEligible context selection entry

variable {selection : PreviewSelection} {entry : ℕ × StoredMessage}

theorem previewEligible_iff (hconsumer : context.consumer = some consumer) :
    previewEligible context selection entry = true ↔
      entry.1 ∉ consumer.acknowledgedOffsets ∧ entry.1 ∉ context.retryOffsets ∧
      ¬ consumer.Live context.nowMs entry.1 ∧
      entry.1 ∉ selection.terminalOffsets ∧ entry.1 ∉ selection.selectedOffsets ∧
      ∀ key, entry.2.key = some key → key ∉ selection.selectedKeys ∧ key ∉ context.retryKeys ∧
        ¬ consumer.liveKeyInFlight context.nowMs key = true := by
  unfold previewEligible
  rw [hconsumer]
  simp only [Option.any_some]
  split_ifs with hblocked
  all_goals
    simp only [Bool.or_eq_true, any_live_iff, Std.ExtTreeSet.contains_iff_mem] at hblocked
  · simp only [false_iff]
    tauto
  · simp only [not_or] at hblocked
    obtain ⟨⟨⟨⟨hacked, hretry⟩, hlive⟩, hterminal⟩, hselected⟩ := hblocked
    simp only [Option.all_eq_true, Bool.and_eq_true, Bool.not_eq_true', ← Bool.not_eq_true,
      Std.ExtTreeSet.contains_iff_mem, and_assoc]
    exact ⟨fun h => ⟨hacked, hretry, hlive, hterminal, hselected, h⟩, fun h => h.2.2.2.2.2⟩

/-- A record passes the search exactly if it is free, was not dealt with before, and its key
was not selected. -/
theorem searchTest_iff (request : GroupBatchPollRequest)
    (hconsumer : context.consumer = some consumer)
    (hcommitted : context.committedOffset = consumer.committedOffset)
    (selection : PreviewSelection) (entry : ℕ × StoredMessage) :
    searchTest context selection entry = true ↔
      (context.view request consumer).free entry = true ∧
      entry.1 ∉ selection.terminalOffsets ∧ entry.1 ∉ selection.selectedOffsets ∧
      ∀ key, entry.2.key = some key → key ∉ selection.selectedKeys := by
  obtain ⟨hle, hpassed⟩ := advancePreviewCommittedOffset_spec consumer selection.terminalOffsets
    (consumer.acknowledgedOffsets.size + selection.terminalOffsets.size) consumer.committedOffset
  have heffective : effectiveCommittedOffset context selection =
      advancePreviewCommittedOffset (some consumer) selection.terminalOffsets
        (consumer.acknowledgedOffsets.size + selection.terminalOffsets.size)
        consumer.committedOffset := by
    rw [effectiveCommittedOffset, hconsumer, hcommitted, Option.elim_some]
  rw [← heffective] at hle hpassed
  rw [searchTest, Bool.and_eq_true, decide_eq_true_eq, previewEligible_iff hconsumer,
    PreviewContext.view, batchView_free_iff]
  constructor
  · rintro ⟨hge, hacked, hretry, hlive, hterminal, hselected, hkeys⟩
    refine ⟨⟨?_, hretry, hlive, fun key hkey => (hkeys key hkey).2⟩, hterminal, hselected,
      fun key hkey => (hkeys key hkey).1⟩
    rintro (hlt | hmem)
    · omega
    · exact hacked hmem
  · rintro ⟨⟨hpending, hretry, hlive, hkeys⟩, hterminal, hselected, hselectedKeys⟩
    refine ⟨?_, fun hmem => hpending (Or.inr hmem), hretry, hlive, hterminal, hselected,
      fun key hkey => ⟨hselectedKeys key hkey, hkeys key hkey⟩⟩
    by_contra hlt
    rcases Nat.lt_or_ge entry.1 consumer.committedOffset with hbelow | habove
    · exact hpending (Or.inl hbelow)
    · rcases hpassed entry.1 habove (by omega) with hmem | hmem
      · exact hpending (Or.inr hmem)
      · exact hterminal hmem

theorem previewLoop_eq_loop (hconsumer : context.consumer = some consumer)
    (hpolicy : ∀ offset, ∃ policy, consumer.groupPolicyForOffset offset (consumer.attempts offset)
      request.legacyPolicy request.policyVersion = some policy)
    (htransition : request.transitionOnly = false) (fuel : ℕ) (selection : PreviewSelection) :
    previewLoop request context fuel selection =
      loop { (context.view request consumer).program request with
        eligible := searchTest context } (enumerate context.messages) fuel selection := by
  induction fuel generalizing selection with
  | zero => rfl
  | succ fuel ih =>
    have hcandidate : previewCandidate context selection =
        (enumerate context.messages).find? (searchTest context selection) := by
      rw [previewCandidate, List.find?_filter]
      congr 1
      funext entry
      simp [searchTest]
    by_cases hready : selection.messages.length < request.maxRecords ∧
        selection.sizer.encodedLen < request.maxBytes
    · rw [previewLoop, loop, hcandidate, if_pos hready]
      simp only [BatchView.program, hready, and_self, decide_true, if_true]
      cases (enumerate context.messages).find? (searchTest context selection) with
      | none => rfl
      | some entry =>
        obtain ⟨policy, hget⟩ := hpolicy entry.1
        have hterminal : (context.view request consumer).terminal entry.1 =
            (policy.exhausted (consumer.attempts entry.1) && !context.isDeadLetter) := by
          simp [PreviewContext.view, batchView, exhaustedAt, GroupBatchPollRequest.terms, hget]
        have hmessage : (context.view request consumer).message request entry =
            request.message entry.1 entry.2 (request.token entry.1)
              (satAdd32 (consumer.attempts entry.1) 1) := rfl
        simp only [hconsumer, Option.elim_some, hget, Option.bind_eq_bind, Option.bind_some,
          Option.pure_def, htransition, hterminal, hmessage, ih, Bool.false_eq_true, if_false]
        split_ifs <;> rfl
    · rw [previewLoop, loop, if_neg hready]
      simp [BatchView.program, hready]

def Behind (before : List (ℕ × StoredMessage)) (selection : PreviewSelection) : Prop :=
  ∀ offset : ℕ, offset ∈ selection.terminalOffsets ∨ offset ∈ selection.selectedOffsets →
    ∃ entry ∈ before, entry.1 = offset

variable {view : BatchView}

theorem program_act_inl {selection' : PreviewSelection}
    (h : (view.program request).act selection entry = .inl selection') :
    view.terminal entry.1 = true ∧ selection' = BatchView.countTerminal selection entry.1 ∨
    view.terminal entry.1 = false ∧ selection' = view.select request selection entry := by
  simp only [BatchView.program] at h
  split_ifs at h with hterminal hlarge hempty
  · exact Or.inl ⟨hterminal, (Sum.inl.inj h).symm⟩
  · exact Or.inr ⟨by simpa using hterminal, (Sum.inl.inj h).symm⟩

theorem mem_select_offsets {offset : ℕ} :
    offset ∈ (view.select request selection entry).selectedOffsets ↔
      entry.1 = offset ∨ offset ∈ selection.selectedOffsets := by
  simp [BatchView.select]

theorem mem_countTerminal_offsets {offset other : ℕ} :
    other ∈ (BatchView.countTerminal selection offset).terminalOffsets ↔
      offset = other ∨ other ∈ selection.terminalOffsets := by
  simp [BatchView.countTerminal]

theorem mem_select_keys {key : String} :
    key ∈ (view.select request selection entry).selectedKeys ↔
      entry.2.key = some key ∨ key ∈ selection.selectedKeys := by
  unfold BatchView.select
  cases entry.2.key <;> simp

theorem onePass_preview (hconsumer : context.consumer = some consumer)
    (hcommitted : context.committedOffset = consumer.committedOffset) :
    OnePass { (context.view request consumer).program request with
        eligible := searchTest context }
      ((context.view request consumer).program request).eligible (enumerate context.messages)
      Behind where
  onPass_eq before entry after selection hsplit hbehind := by
    have hfresh : entry.1 ∉ selection.terminalOffsets ∧ entry.1 ∉ selection.selectedOffsets := by
      have hsorted := pairwise_enumerate context.messages
      rw [hsplit, List.pairwise_append] at hsorted
      have hnot : ¬ ∃ other ∈ before, other.1 = entry.1 := by
        rintro ⟨other, hmem, heq⟩
        have := hsorted.2.2 other hmem entry List.mem_cons_self
        omega
      exact ⟨fun hmem => hnot (hbehind _ (Or.inl hmem)), fun hmem => hnot (hbehind _ (Or.inr hmem))⟩
    rw [Bool.eq_iff_iff]
    refine (searchTest_iff request hconsumer hcommitted selection entry).trans ?_
    simp only [hfresh, not_false_eq_true, true_and, BatchView.program, Bool.and_eq_true,
      Option.all_eq_true, Bool.not_eq_true', ← Bool.not_eq_true, Std.ExtTreeSet.contains_iff_mem]
  skip before entry selection hbehind offset hoffset := by
    obtain ⟨other, hmem, heq⟩ := hbehind offset hoffset
    exact ⟨other, List.mem_append_left _ hmem, heq⟩
  act before entry selection selection' hbehind haction offset hoffset := by
    have hcases : entry.1 = offset ∨ offset ∈ selection.terminalOffsets ∨
        offset ∈ selection.selectedOffsets := by
      rcases program_act_inl haction with ⟨-, rfl⟩ | ⟨-, rfl⟩
      · rw [mem_countTerminal_offsets] at hoffset
        exact or_assoc.1 hoffset
      · rw [mem_select_offsets] at hoffset
        exact or_left_comm.1 hoffset
    rcases hcases with heq | hoffset
    · exact ⟨entry, by simp, heq⟩
    · obtain ⟨other, hmem, heq⟩ := hbehind offset hoffset
      exact ⟨other, List.mem_append_left _ hmem, heq⟩
  mono selection entry selection' other haction htest := by
    obtain ⟨hfree, hterminal, hselected, hkeys⟩ :=
      (searchTest_iff request hconsumer hcommitted selection' other).1 htest
    refine (searchTest_iff request hconsumer hcommitted selection other).2
      ⟨hfree, ?_, ?_, fun key hkey => ?_⟩
    all_goals
      rcases program_act_inl haction with ⟨-, rfl⟩ | ⟨-, rfl⟩
    · exact fun hmem => hterminal (mem_countTerminal_offsets.2 (Or.inr hmem))
    · exact hterminal
    · exact hselected
    · exact fun hmem => hselected (mem_select_offsets.2 (Or.inr hmem))
    · exact hkeys key hkey
    · exact fun hmem => hkeys key hkey (mem_select_keys.2 (Or.inr hmem))
  gone selection entry selection' haction := by
    rw [← Bool.not_eq_true]
    intro htest
    obtain ⟨-, hterminal, hselected, -⟩ :=
      (searchTest_iff request hconsumer hcommitted selection' entry).1 htest
    rcases program_act_inl haction with ⟨-, rfl⟩ | ⟨-, rfl⟩
    · exact hterminal (mem_countTerminal_offsets.2 (Or.inl rfl))
    · exact hselected (mem_select_offsets.2 (Or.inl rfl))

theorem previewLoop_eq_scan (hconsumer : context.consumer = some consumer)
    (hcommitted : context.committedOffset = consumer.committedOffset)
    (hpolicy : ∀ offset, ∃ policy, consumer.groupPolicyForOffset offset (consumer.attempts offset)
      request.legacyPolicy request.policyVersion = some policy)
    (htransition : request.transitionOnly = false) (sizer : PollBatchResponseSizer) :
    previewLoop request context (context.messages.length + 1) { sizer := sizer } =
      some (scan ((context.view request consumer).program request) (enumerate context.messages)
        { sizer := sizer }) := by
  rw [previewLoop_eq_loop hconsumer hpolicy htransition]
  refine (onePass_preview hconsumer hcommitted).loop_eq_scan ?_ ?_
  · intro offset hoffset
    simp at hoffset
  · simp [enumerate]

end Pass

end Runnel.Cluster
