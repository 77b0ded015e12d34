import Runnel.Cluster.PreviewScan

/-!
# What the preview reports

For a well-formed state the preview never panics. Its answer is the pass over the
view of the consumer, with the schedules that the next transition will write
counted as written.
-/

namespace Runnel.Cluster

open Runnel.Engine GroupConsumerState Search

section RetrySchedules

variable {messages : List StoredMessage} {consumer : GroupConsumerState}

/-- The expired lease of an in-flight offset still lacks the schedule its policy asks for. -/
def GroupConsumerState.lacksSchedule (consumer : GroupConsumerState) (nowMs : ℕ)
    (entry : ℕ × GroupDelivery) : Bool :=
  leaseExpired entry.2.deadlineMs nowMs && !consumer.retryNotBefore.contains entry.1 &&
    (consumer.scheduleOf nowMs entry.1 entry.2).isSome

theorem needsRetrySchedule_eq (hwf : WellFormed messages consumer) (terms : PollTerms)
    {entry : ℕ × GroupDelivery} (hmem : entry ∈ consumer.inFlight.toList) :
    consumer.needsRetrySchedule terms.nowMs terms.legacyPolicy terms.policyVersion entry =
      some (consumer.lacksSchedule terms.nowMs entry) := by
  have hget := Std.ExtTreeMap.mem_toList_iff_getElem?_eq_some.1 hmem
  have hattempted := hwf.attempted_of_inFlight (mem_iff_exists_getElem?.2 ⟨_, hget⟩)
  obtain ⟨hpos, policy, hpolicy⟩ := hwf.pinned_of_mem hattempted
  unfold needsRetrySchedule lacksSchedule
  split_ifs with hskip
  · rcases Bool.or_eq_true_iff.1 hskip with h | h <;> simp_all
  · simp only [Bool.or_eq_true, Bool.not_eq_true', not_or, Bool.not_eq_false,
      Bool.not_eq_true] at hskip
    have hfound : consumer.groupPolicyForOffset entry.1 (consumer.attempts entry.1)
        terms.legacyPolicy terms.policyVersion = consumer.deliveryPolicies[entry.1]? :=
      groupPolicyForOffset_of_pos hpos _ _
    simp only [hfound, hpolicy, scheduleOf, hskip, Option.bind_eq_bind, Option.bind_some,
      Option.pure_def, Bool.true_and, Bool.not_false]
    cases policy.exhausted (consumer.attempts entry.1) <;>
      by_cases hdelay : policy.retryDelayMs = 0 <;> simp [hdelay]

def GroupConsumerState.Lacking (consumer : GroupConsumerState) (nowMs offset : ℕ)
    (delivery : GroupDelivery) : Prop :=
  consumer.inFlight[offset]? = some delivery ∧
    consumer.lacksSchedule nowMs (offset, delivery) = true

theorem foldlM_previewRetry (hwf : WellFormed messages consumer) (terms : PollTerms)
    (entries : List (ℕ × GroupDelivery)) (hentries : ∀ entry ∈ entries,
      entry ∈ consumer.inFlight.toList) (filter : BTreeSet ℕ × BTreeSet String) :
    ∃ result, entries.foldlM (fun filter entry => do
        let needed ← consumer.needsRetrySchedule terms.nowMs terms.legacyPolicy
          terms.policyVersion entry
        if needed then
          return (filter.1.insert entry.1,
            match entry.2.key with
            | some key => filter.2.insert key
            | none => filter.2)
        else return filter) filter = some result ∧
      (∀ offset : ℕ, offset ∈ result.1 ↔ offset ∈ filter.1 ∨
        ∃ entry ∈ entries, entry.1 = offset ∧ consumer.lacksSchedule terms.nowMs entry = true) ∧
      (∀ key : String, key ∈ result.2 ↔ key ∈ filter.2 ∨
        ∃ entry ∈ entries, entry.2.key = some key ∧
          consumer.lacksSchedule terms.nowMs entry = true) := by
  induction entries generalizing filter with
  | nil => exact ⟨filter, rfl, by simp, by simp⟩
  | cons head rest ih =>
    obtain ⟨hhead, hrest⟩ := List.forall_mem_cons.1 hentries
    rw [List.foldlM_cons, needsRetrySchedule_eq hwf terms hhead]
    simp only [Option.bind_eq_bind, Option.bind_some, Option.pure_def, List.exists_mem_cons_iff]
    cases hlacks : consumer.lacksSchedule terms.nowMs head with
    | false =>
      obtain ⟨result, hfold, hoffsets, hkeys⟩ := ih hrest filter
      exact ⟨result, hfold, by simpa using hoffsets, by simpa using hkeys⟩
    | true =>
      obtain ⟨result, hfold, hoffsets, hkeys⟩ := ih hrest (filter.1.insert head.1,
        match head.2.key with
        | some key => filter.2.insert key
        | none => filter.2)
      refine ⟨result, hfold, fun offset => (hoffsets offset).trans ?_,
        fun key => (hkeys key).trans ?_⟩
      · simp only [Std.ExtTreeSet.mem_insert, Nat.compare_eq_eq, and_true]
        tauto
      · cases head.2.key with
        | none => simp
        | some other =>
          simp only [Std.ExtTreeSet.mem_insert, Std.LawfulEqCmp.compare_eq_iff_eq, and_true,
            Option.some.injEq]
          tauto

/-- The preview's filter: what waits now, and what will wait once the schedules are written. -/
theorem previewRetryFilter_spec (hwf : WellFormed messages consumer) (terms : PollTerms) :
    ∃ filter, consumer.previewRetryFilter terms.nowMs terms.legacyPolicy terms.policyVersion =
        some filter ∧
      (∀ offset : ℕ, offset ∈ filter.1 ↔ offset ∈ (consumer.retryFilter terms.nowMs).1 ∨
        ∃ delivery, consumer.Lacking terms.nowMs offset delivery) ∧
      (∀ key : String, key ∈ filter.2 ↔ key ∈ (consumer.retryFilter terms.nowMs).2 ∨
        ∃ offset delivery, consumer.Lacking terms.nowMs offset delivery ∧
          delivery.key = some key) := by
  obtain ⟨filter, hfold, hoffsets, hkeys⟩ := foldlM_previewRetry hwf terms
    consumer.inFlight.toList (fun _ h => h) (consumer.retryFilter terms.nowMs)
  refine ⟨filter, hfold, fun offset => (hoffsets offset).trans (or_congr_right ?_),
    fun key => (hkeys key).trans (or_congr_right ?_)⟩
  · simp only [Prod.exists, Std.ExtTreeMap.mem_toList_iff_getElem?_eq_some, Lacking]
    constructor
    · rintro ⟨_, delivery, hget, rfl, hlacks⟩
      exact ⟨delivery, hget, hlacks⟩
    · rintro ⟨delivery, hget, hlacks⟩
      exact ⟨offset, delivery, hget, rfl, hlacks⟩
  · simp only [Prod.exists, Std.ExtTreeMap.mem_toList_iff_getElem?_eq_some, Lacking]
    constructor
    · rintro ⟨offset, delivery, hget, hkey, hlacks⟩
      exact ⟨offset, delivery, ⟨hget, hlacks⟩, hkey⟩
    · rintro ⟨offset, delivery, ⟨hget, hlacks⟩, hkey⟩
      exact ⟨offset, delivery, hget, hkey, hlacks⟩

theorem anyM_eq_some_any {α : Type*} {f : α → Option Bool} {g : α → Bool} {xs : List α}
    (h : ∀ x ∈ xs, f x = some (g x)) : xs.anyM f = some (xs.any g) := by
  induction xs with
  | nil => rfl
  | cons x xs ih =>
    obtain ⟨hhead, hrest⟩ := List.forall_mem_cons.1 h
    rw [List.anyM, hhead, List.any_cons]
    cases g x with
    | true => rfl
    | false => simpa using ih hrest

end RetrySchedules

section Response

variable {state : SnapshotState} {request : GroupBatchPollRequest} {kind : GroupKind}

def GroupConsumerState.liveOf (consumer : GroupConsumerState) (nowMs : ℕ) (member : String) :
    List (ℕ × GroupDelivery) :=
  (consumer.inFlight.toList.filter (fun entry =>
    !leaseExpired entry.2.deadlineMs nowMs)).filter (fun entry => entry.2.member = member)

def previewAnswer (request : GroupBatchPollRequest)
    (result : PreviewSelection × Option CommandResponse) : CommandResponse :=
  match result.2 with
  | some response => response
  | none => .groupBatchPoll result.1.messages
      (!result.1.messages.isEmpty &&
        (result.1.messages.length = request.maxRecords || result.1.stoppedAtByteLimit))
      result.1.terminalTransitions

/-- The context of a consumer that has no record yet, with the record it would get. -/
def PreviewContext.withNew (context : PreviewContext) : PreviewContext :=
  { context with consumer := some { committedOffset := context.committedOffset } }

section NewConsumer

variable {context : PreviewContext}

theorem advancePreviewCommittedOffset_none (terminalOffsets : BTreeSet ℕ)
    (start fuel committed : ℕ) :
    advancePreviewCommittedOffset (some { committedOffset := start }) terminalOffsets fuel
        committed =
      advancePreviewCommittedOffset none terminalOffsets fuel committed := by
  induction fuel generalizing committed with
  | zero => rfl
  | succ fuel ih =>
    unfold advancePreviewCommittedOffset
    rw [ih]
    simp

theorem effectiveCommittedOffset_withNew (hnone : context.consumer = none)
    (selection : PreviewSelection) :
    effectiveCommittedOffset context.withNew selection =
      effectiveCommittedOffset context selection := by
  unfold effectiveCommittedOffset PreviewContext.withNew
  rw [advancePreviewCommittedOffset_none, hnone]
  simp

theorem previewEligible_withNew (hnone : context.consumer = none)
    (hoffsets : context.retryOffsets = ∅) (selection : PreviewSelection) :
    previewEligible context.withNew selection = previewEligible context selection := by
  funext entry
  simp [previewEligible, PreviewContext.withNew, hnone, hoffsets, liveKeyInFlight]

theorem previewLoop_withNew (hnone : context.consumer = none)
    (hoffsets : context.retryOffsets = ∅) (fuel : ℕ) (selection : PreviewSelection) :
    previewLoop request context.withNew fuel selection =
      previewLoop request context fuel selection := by
  induction fuel generalizing selection with
  | zero => rfl
  | succ fuel ih =>
    have hcandidate : previewCandidate context.withNew selection =
        previewCandidate context selection := by
      rw [previewCandidate, previewCandidate, effectiveCommittedOffset_withNew hnone,
        previewEligible_withNew hnone hoffsets]
      rfl
    have hattempts : ∀ offset, (context.withNew.consumer.elim 0 fun c => c.attempts offset) = 0 :=
      fun offset => by simp [PreviewContext.withNew, attempts]
    have hpolicy : ∀ offset, (context.withNew.consumer.elim (some request.legacyPolicy)
        fun c => c.groupPolicyForOffset offset 0 request.legacyPolicy request.policyVersion) =
          some request.legacyPolicy := by
      intro offset
      simp [PreviewContext.withNew, groupPolicyForOffset]
    rw [previewLoop, previewLoop, hcandidate]
    simp only [hattempts, hpolicy, hnone, Option.elim_none, ih]
    rfl

end NewConsumer

/-- The values the preview of a poll works with, for a consumer that may have no entry yet. -/
def previewContext (state : SnapshotState) (request : GroupBatchPollRequest)
    (streamState : StreamState) (filter : BTreeSet ℕ × BTreeSet String) : PreviewContext where
  consumer := some (state.consumerOf request.consumerKey)
  messages := streamState.messages
  nowMs := max state.leaseClockMs request.nowMs
  committedOffset := (state.consumerOf request.consumerKey).committedOffset
  retryOffsets := filter.1
  retryKeys := filter.2
  isDeadLetter := isDeadLetterStream state request.stream

theorem previewGroupBatch_eq_loop (hkind : kind ≠ .metadata)
    (hlimits : ¬ (request.maxRecords = 0 ∨ request.maxBytes = 0))
    (hstream : state.streams[request.stream]? = some streamState)
    (hactive : streamState.isActive = true) {filter : BTreeSet ℕ × BTreeSet String}
    (hfilter : (state.consumerOf request.consumerKey).previewRetryFilter
      (max state.leaseClockMs request.nowMs) request.legacyPolicy request.policyVersion =
        some filter) :
    previewGroupBatch state request kind =
      if ((state.consumerOf request.consumerKey).liveOf (max state.leaseClockMs request.nowMs)
          request.member).isEmpty then
        (previewLoop request (previewContext state request streamState filter)
          (streamState.messages.length + 1)
          { sizer := .new request.stream request.consumer request.responseMember }).map
            (previewAnswer request)
      else some (request.existingResponse streamState.messages
        ((state.consumerOf request.consumerKey).liveOf (max state.leaseClockMs request.nowMs)
          request.member)) := by
  have hanswer : ∀ result : Option (PreviewSelection × Option CommandResponse),
      (result.bind fun found => match found.2 with
        | some response => some response
        | none => some (.groupBatchPoll found.1.messages
            (!found.1.messages.isEmpty &&
              (found.1.messages.length = request.maxRecords || found.1.stoppedAtByteLimit))
            found.1.terminalTransitions)) = result.map (previewAnswer request) := by
    intro result
    cases result with
    | none => rfl
    | some found =>
      simp only [Option.bind_some, Option.map_some, previewAnswer]
      cases found.2 <;> rfl
  unfold previewGroupBatch
  rw [if_neg hkind, if_neg hlimits, hstream]
  simp only [Option.filter, hactive, if_true]
  cases hget : state.groupConsumers[request.consumerKey]? with
  | some consumer =>
    have hof : state.consumerOf request.consumerKey = consumer := by
      rw [SnapshotState.consumerOf, hget, Option.getD_some]
    rw [hof] at hfilter
    simp only [Option.elim_some, hfilter, hof, Option.bind_eq_bind, Option.bind_some,
      Option.pure_def, previewContext]
    rw [← GroupConsumerState.liveOf]
    cases (consumer.liveOf (max state.leaseClockMs request.nowMs) request.member).isEmpty with
    | false => rfl
    | true =>
      simp only [Bool.not_true, Bool.false_eq_true, if_false, if_true]
      exact hanswer _
  | none =>
    have hof : state.consumerOf request.consumerKey =
        { committedOffset := (state.consumers[request.consumerKey]?).getD 0 } := by
      rw [SnapshotState.consumerOf, hget, Option.getD_none]
    have hempty : filter = (∅, ∅) := by
      rw [hof] at hfilter
      simpa [previewRetryFilter, retryFilter] using hfilter.symm
    simp only [Option.elim_none, Option.bind_eq_bind, Option.bind_some, Option.pure_def, hof,
      GroupConsumerState.liveOf, toList_empty, List.filter_nil, List.isEmpty_nil, if_true,
      Bool.not_true, Bool.false_eq_true, if_false]
    rw [← previewLoop_withNew rfl rfl]
    simp only [previewContext, PreviewContext.withNew, hempty, hof]
    exact hanswer _

theorem previewGroupBatch_eq (hwf : state.WellFormed) (hkind : kind ≠ .metadata)
    (hrecords : 0 < request.maxRecords) (hbytes : 0 < request.maxBytes)
    (htransition : request.transitionOnly = false) {streamState : StreamState}
    (hstream : state.streams[request.stream]? = some streamState)
    (hactive : streamState.isActive = true) {filter : BTreeSet ℕ × BTreeSet String}
    (hfilter : (state.consumerOf request.consumerKey).previewRetryFilter
      (max state.leaseClockMs request.nowMs) request.legacyPolicy request.policyVersion =
        some filter) :
    previewGroupBatch state request kind =
      some (
        let consumer := state.consumerOf request.consumerKey
        let nowMs := max state.leaseClockMs request.nowMs
        let existing := consumer.liveOf nowMs request.member
        if existing.isEmpty then
          previewAnswer request (scan
            ((consumer.batchView (request.terms nowMs) filter
              (isDeadLetterStream state request.stream)).program request)
            (enumerate streamState.messages)
            { sizer := .new request.stream request.consumer request.responseMember })
        else request.existingResponse streamState.messages existing) := by
  have hlimits : ¬ (request.maxRecords = 0 ∨ request.maxBytes = 0) := by omega
  have hconsumerWF : WellFormed streamState.messages (state.consumerOf request.consumerKey) := by
    have := hwf.consumerOf request.consumerKey
    rwa [show request.consumerKey.1 = request.stream from rfl,
      SnapshotState.messages_of_getElem? hstream] at this
  have hscan := @previewLoop_eq_scan request (previewContext state request streamState filter)
    (state.consumerOf request.consumerKey) rfl rfl
    (fun offset => hconsumerWF.exists_policy offset _ _) htransition
    (.new request.stream request.consumer request.responseMember)
  rw [previewGroupBatch_eq_loop hkind hlimits hstream hactive hfilter]
  dsimp only
  split_ifs
  · exact congrArg (Option.map (previewAnswer request)) hscan
  · rfl

end Response

end Runnel.Cluster
