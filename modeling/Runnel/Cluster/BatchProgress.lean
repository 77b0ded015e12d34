import Runnel.Cluster.PreviewCompare

/-!
# Progress of the batch-poll loop

The leader's loop previews a batch and, as long as transitions are pending,
replicates a transition-only poll and previews again.
-/

namespace Runnel.Cluster

open Runnel.Engine GroupConsumerState Search Transition

def CommandResponse.terminalTransitions : CommandResponse → ℕ
  | .groupBatchPoll _ _ terminalTransitions => terminalTransitions
  | _ => 0

namespace SnapshotState

/-- In-flight offsets whose expired lease still needs its retry schedule. -/
def unscheduled (state : SnapshotState) (request : GroupBatchPollRequest) : ℕ :=
  (state.groupConsumers[request.consumerKey]?).elim 0 (fun consumer =>
    consumer.inFlight.toList.countP (fun entry =>
      consumer.needsRetrySchedule (max state.leaseClockMs request.nowMs) request.legacyPolicy
        request.policyVersion entry = some true))

/-- What is left to do before the loop answers, as a preview reports it. -/
def pendingTransitions (state : SnapshotState) (request : GroupBatchPollRequest)
    (kind : GroupKind) : Option ℕ :=
  (storePreviewGroupBatch state request kind).map (fun preview =>
    preview.1.terminalTransitions + state.unscheduled request)

def batchView (state : SnapshotState) (request : GroupBatchPollRequest) : Option BatchView :=
  ((state.consumerOf request.consumerKey).previewRetryFilter (max state.leaseClockMs request.nowMs)
    request.legacyPolicy request.policyVersion).map (fun filter =>
      (state.consumerOf request.consumerKey).batchView
        (request.terms (max state.leaseClockMs request.nowMs)) filter
        (isDeadLetterStream state request.stream))

/-- The first record that nothing holds back has used up its attempts. -/
def firstFreeExhausted (state : SnapshotState) (request : GroupBatchPollRequest) : Bool :=
  (state.batchView request).any (fun view =>
    ((enumerate (state.messages request.stream)).find? view.free).any (fun entry =>
      view.terminal entry.1))

/-- The preview reports a terminal transition or that a retry schedule is needed. -/
def reportsWork (state : SnapshotState) (request : GroupBatchPollRequest) (kind : GroupKind) :
    Bool :=
  (storePreviewGroupBatch state request kind).any (fun preview =>
    preview.2 || 0 < preview.1.terminalTransitions)

/-- The leases and the pending records of a consumer. -/
def remaining (state : SnapshotState) (key : ConsumerKey) : ℕ :=
  (state.consumerOf key).inFlight.toList.length +
    (pendingOffsets (state.messages key.1) (state.consumerOf key) ∅).card

end SnapshotState

def GroupBatchPollRequest.transition (request : GroupBatchPollRequest) : GroupBatchPollRequest :=
  { request with transitionOnly := true }

/-- The request of a round, with the time the round starts at. -/
def GroupBatchPollRequest.sampled (request : GroupBatchPollRequest) (ackTimeoutMs nowMs : ℕ) :
    GroupBatchPollRequest :=
  { request with
    nowMs := nowMs
    leaseDeadlineMs := satAdd64 nowMs ackTimeoutMs }

/-- One round of the loop that submits a transition; its label is the time it reads. -/
def TransitionRound (request : GroupBatchPollRequest) (ackTimeoutMs : ℕ) (kind : GroupKind)
    (state : SnapshotState) (nowMs : ℕ) (after : SnapshotState) : Prop :=
  (storePreviewGroupBatch state (request.sampled ackTimeoutMs nowMs) kind).map decideBatchPoll =
    some .transition ∧
  ∃ response, applyGroupBatchPoll state (request.sampled ackTimeoutMs nowMs).transition kind =
    some (after, response)

section Scheduling

variable {state : SnapshotState} {request : GroupBatchPollRequest} {kind : GroupKind}

theorem needsSchedule_eq (hwf : state.WellFormed) (request : GroupBatchPollRequest) :
    ((state.groupConsumers[request.consumerKey]?).elim (some false) fun consumer =>
      consumer.inFlight.toList.anyM (consumer.needsRetrySchedule
        (max state.leaseClockMs request.nowMs) request.legacyPolicy request.policyVersion)) =
      some ((state.consumerOf request.consumerKey).inFlight.toList.any
        ((state.consumerOf request.consumerKey).lacksSchedule
          (max state.leaseClockMs request.nowMs))) := by
  cases hget : state.groupConsumers[request.consumerKey]? with
  | none =>
    rw [SnapshotState.consumerOf, hget]
    simp
  | some consumer =>
    rw [SnapshotState.consumerOf, hget, Option.getD_some, Option.elim_some]
    exact anyM_eq_some_any fun entry hmem =>
      needsRetrySchedule_eq (hwf _ _ hget) (request.terms _) hmem

theorem unscheduled_eq (hwf : state.WellFormed) (request : GroupBatchPollRequest) :
    state.unscheduled request = (state.consumerOf request.consumerKey).inFlight.toList.countP
      ((state.consumerOf request.consumerKey).lacksSchedule
        (max state.leaseClockMs request.nowMs)) := by
  unfold SnapshotState.unscheduled
  cases hget : state.groupConsumers[request.consumerKey]? with
  | none =>
    rw [SnapshotState.consumerOf, hget]
    simp
  | some consumer =>
    rw [SnapshotState.consumerOf, hget, Option.getD_some, Option.elim_some]
    refine List.countP_congr fun entry hmem => ?_
    have heq := needsRetrySchedule_eq (hwf _ _ hget)
      (request.terms (max state.leaseClockMs request.nowMs)) hmem
    simp only [GroupBatchPollRequest.terms] at heq
    simp [heq]

theorem any_lacksSchedule_iff (hwf : state.WellFormed) (request : GroupBatchPollRequest) :
    (state.consumerOf request.consumerKey).inFlight.toList.any
      ((state.consumerOf request.consumerKey).lacksSchedule
        (max state.leaseClockMs request.nowMs)) = true ↔ 0 < state.unscheduled request := by
  rw [unscheduled_eq hwf, List.countP_pos_iff, List.any_eq_true]

theorem unscheduled_of_allLive (hwf : state.WellFormed)
    (hlive : (state.consumerOf request.consumerKey).AllLive
      (max state.leaseClockMs request.nowMs)) : state.unscheduled request = 0 := by
  rw [unscheduled_eq hwf, List.countP_eq_zero]
  intro entry hmem hlacks
  exact hlive.not_lacking entry.1 entry.2
    ⟨Std.ExtTreeMap.mem_toList_iff_getElem?_eq_some.1 hmem, hlacks⟩

end Scheduling

section Round

variable {state : SnapshotState} {request : GroupBatchPollRequest} {kind : GroupKind}

def firstSelection (request : GroupBatchPollRequest) : PreviewSelection :=
  { sizer := .new request.stream request.consumer request.responseMember }

theorem exists_batchView (hwf : state.WellFormed) (request : GroupBatchPollRequest) :
    ∃ filter, (state.consumerOf request.consumerKey).previewRetryFilter
        (max state.leaseClockMs request.nowMs) request.legacyPolicy request.policyVersion =
          some filter ∧
      state.batchView request = some ((state.consumerOf request.consumerKey).batchView
        (request.terms (max state.leaseClockMs request.nowMs)) filter
        (isDeadLetterStream state request.stream)) := by
  obtain ⟨filter, hfilter, -⟩ := previewRetryFilter_spec (hwf.consumerOf request.consumerKey)
    (request.terms (max state.leaseClockMs request.nowMs))
  refine ⟨filter, hfilter, ?_⟩
  simp only [GroupBatchPollRequest.terms] at hfilter
  rw [SnapshotState.batchView, hfilter, Option.map_some]

theorem storePreviewGroupBatch_eq (hwf : state.WellFormed) (hkind : kind ≠ .metadata)
    (hrecords : 0 < request.maxRecords) (hbytes : 0 < request.maxBytes)
    (htransition : request.transitionOnly = false) {streamState : StreamState}
    (hstream : state.streams[request.stream]? = some streamState)
    (hactive : streamState.isActive = true) {view : BatchView}
    (hview : state.batchView request = some view) :
    storePreviewGroupBatch state request kind = some (
      if ((state.consumerOf request.consumerKey).liveOf (max state.leaseClockMs request.nowMs)
          request.member).isEmpty then
        previewAnswer request (scan (view.program request) (enumerate streamState.messages)
          (firstSelection request))
      else request.existingResponse streamState.messages
        ((state.consumerOf request.consumerKey).liveOf (max state.leaseClockMs request.nowMs)
          request.member),
      (state.consumerOf request.consumerKey).inFlight.toList.any
        ((state.consumerOf request.consumerKey).lacksSchedule
          (max state.leaseClockMs request.nowMs))) := by
  obtain ⟨filter, hfilter, hview'⟩ := exists_batchView hwf request
  obtain rfl := Option.some.inj (hview'.symm.trans hview)
  unfold storePreviewGroupBatch
  simp only [needsSchedule_eq hwf request, Option.bind_eq_bind, Option.bind_some, Option.pure_def]
  rw [previewGroupBatch_eq hwf hkind hrecords hbytes htransition hstream hactive hfilter]
  rfl

theorem streamActive_of_preview {messages : List Message} {collectionComplete : Bool}
    {terminal : ℕ}
    (h : previewGroupBatch state request kind =
      some (.groupBatchPoll messages collectionComplete terminal)) :
    kind ≠ .metadata ∧ state.streamActive request.stream = true := by
  unfold previewGroupBatch at h
  split_ifs at h with hkind hlimits
  · cases Option.some.inj h
  · cases Option.some.inj h
  · refine ⟨hkind, ?_⟩
    cases hstream : (state.streams[request.stream]?).filter StreamState.isActive with
    | none =>
      rw [hstream] at h
      cases Option.some.inj h
    | some streamState =>
      rw [Option.filter_eq_some_iff] at hstream
      exact SnapshotState.streamActive_iff.2 ⟨streamState, hstream⟩

theorem transition_cases
    (h : (storePreviewGroupBatch state request kind).map decideBatchPoll = some .transition) :
    ∃ messages collectionComplete terminal needs,
      storePreviewGroupBatch state request kind =
        some (.groupBatchPoll messages collectionComplete terminal, needs) ∧
      (needs = true ∨ 0 < terminal) ∧ kind ≠ .metadata ∧
      state.streamActive request.stream = true := by
  obtain ⟨⟨response, needs⟩, hpreview, hdecision⟩ := Option.map_eq_some_iff.1 h
  cases response with
  | groupBatchPoll messages collectionComplete terminal =>
    refine ⟨messages, collectionComplete, terminal, needs, hpreview, ?_, ?_⟩
    · simp only [decideBatchPoll] at hdecision
      split_ifs at hdecision with hpending
      simpa using hpending
    · unfold storePreviewGroupBatch at hpreview
      obtain ⟨needed, -, hpreview⟩ := Option.bind_eq_some_iff.1 hpreview
      obtain ⟨response, hresponse, heq⟩ := Option.bind_eq_some_iff.1 hpreview
      obtain ⟨rfl, -⟩ := Prod.mk.inj (Option.some.inj heq)
      exact streamActive_of_preview hresponse
  | _ => cases hdecision

theorem existingResponse_terminalTransitions (messages : List StoredMessage)
    (existing : List (ℕ × GroupDelivery)) :
    (request.existingResponse messages existing).terminalTransitions = 0 := by
  unfold GroupBatchPollRequest.existingResponse
  dsimp only
  split_ifs <;> rfl

theorem scan_response (view : BatchView) (rest : List (ℕ × StoredMessage))
    (selection : PreviewSelection) :
    (scan (view.program request) rest selection).2 = none ∨
    (scan (view.program request) rest selection).2 =
      some (.groupBatchPollRecordTooLarge request.maxBytes) := by
  induction rest generalizing selection with
  | nil => exact Or.inl rfl
  | cons entry rest ih =>
    unfold scan
    split_ifs
    · cases hact : (view.program request).act selection entry with
      | inl next => exact ih next
      | inr result =>
        simp only [BatchView.program] at hact
        split_ifs at hact
        · rw [← Sum.inr.inj hact]
          exact Or.inr rfl
        · rw [← Sum.inr.inj hact]
          exact Or.inl rfl
    · exact ih selection
    · exact Or.inl rfl

theorem previewAnswer_terminalTransitions_le
    (result : PreviewSelection × Option CommandResponse)
    (h : result.2 = none ∨ result.2 = some (.groupBatchPollRecordTooLarge request.maxBytes)) :
    (previewAnswer request result).terminalTransitions ≤ result.1.terminalTransitions := by
  unfold previewAnswer
  rcases h with h | h
  · rw [h]
    exact le_rfl
  · rw [h]
    exact Nat.zero_le _

theorem previewAnswer_of_none {result : PreviewSelection × Option CommandResponse}
    (h : result.2 = none) :
    (previewAnswer request result).terminalTransitions = result.1.terminalTransitions := by
  rw [previewAnswer, h]
  rfl

theorem previewAnswer_of_tooLarge {result : PreviewSelection × Option CommandResponse}
    (h : result.2 = some (.groupBatchPollRecordTooLarge request.maxBytes)) :
    previewAnswer request result = .groupBatchPollRecordTooLarge request.maxBytes := by
  rw [previewAnswer, h]

theorem scan_terminalTransitions_of_none (view : BatchView)
    (hnone : ∀ offset, view.terminal offset = false) (rest : List (ℕ × StoredMessage))
    (selection : PreviewSelection) :
    (scan (view.program request) rest selection).1.terminalTransitions =
      selection.terminalTransitions := by
  induction rest generalizing selection with
  | nil => rfl
  | cons entry rest ih =>
    unfold scan
    split_ifs
    · cases hact : (view.program request).act selection entry with
      | inl next =>
        obtain ⟨rfl, -⟩ := BatchView.program_act_inl_of_not_terminal (hnone entry.1) hact
        exact ih _
      | inr result => exact (BatchView.program_act_inr hact).1
    · exact ih selection
    · rfl

structure AfterTransition (request : GroupBatchPollRequest) (state after : SnapshotState)
    (released consumer : GroupConsumerState) (offsets : List ℕ) : Prop where
  wellFormed : after.WellFormed
  stream : after.streams[request.stream]? = state.streams[request.stream]?
  clock : max after.leaseClockMs request.nowMs = max state.leaseClockMs request.nowMs
  consumerOf : after.consumerOf request.consumerKey = consumer
  transitioned : Transitioned (request.terms (max state.leaseClockMs request.nowMs)) offsets
    (state.consumerOf request.consumerKey) released consumer
  moves : ∀ offset ∈ offsets, isDeadLetterStream state request.stream = false
  idle : offsets = [] → consumer = released ∧
    isDeadLetterStream after request.stream = isDeadLetterStream state request.stream
  first : (state.consumerOf request.consumerKey).liveOf (max state.leaseClockMs request.nowMs)
      request.member = [] → (firstSelection request).sizer.encodedLen < request.maxBytes →
    ∀ offset, FirstLeaves request (max state.leaseClockMs request.nowMs) state released offset →
      offset ∈ offsets
  none : (∀ offset, ¬ FirstLeaves request (max state.leaseClockMs request.nowMs) state released
    offset) → offsets = []

theorem exists_afterTransition (hwf : state.WellFormed) (hkind : kind ≠ .metadata)
    (hrecords : 0 < request.maxRecords) (hbytes : 0 < request.maxBytes)
    (hactive : state.streamActive request.stream = true) :
    ∃ after response released consumer offsets,
      applyGroupBatchPoll state request.transition kind = some (after, response) ∧
      AfterTransition request state after released consumer offsets := by
  obtain ⟨released, offsets, after, response, happly, hreleased, hdead, hfirst, hnone⟩ :=
    @applyTransition_spec state request.transition kind hwf hkind hrecords hbytes rfl hactive
  have hopened := hwf.opened hreleased
  have hget := state.opened_getElem? request.consumerKey request.nowMs released
  obtain ⟨consumer, hconsumer, hsettled⟩ := hdead.settled hopened hget
  refine ⟨after, response, released, consumer, offsets, happly, hdead.wellFormed hopened,
    hdead.stream_eq, ?_, ?_, ⟨hreleased, hsettled⟩, ?_, ?_, hfirst, hnone⟩
  · rw [hdead.leaseClockMs_eq]
    exact max_eq_left (le_max_right _ _)
  · rw [SnapshotState.consumerOf]
    exact congrArg (Option.getD · _) hconsumer
  · intro offset hmem
    cases hdead with
    | done => cases hmem
    | move _ _ _ _ _ hlive _ _ => exact hlive
  · rintro rfl
    cases hdead
    exact ⟨Option.some.inj (hconsumer.symm.trans hget), rfl⟩

def previewPass (request : GroupBatchPollRequest) (messages : List StoredMessage)
    (view : BatchView) : PreviewSelection × Option CommandResponse :=
  scan (view.program request) (enumerate messages) (firstSelection request)

theorem ahead_first (entries seen : List (ℕ × StoredMessage)) (before after : BatchView)
    (hseen : ∀ x ∈ seen, after.free x = false) {s : PreviewSelection}
    (hmessages : s.messages = []) (hkeys : s.selectedKeys = ∅)
    (hsizer : s.sizer = (firstSelection request).sizer) {d : ℕ}
    (hcount : d ≤ s.terminalTransitions) :
    Ahead entries seen before after d s (firstSelection request) where
  count := by simpa [firstSelection] using hcount
  length := by simp [hmessages]
  consumer := by rw [hsizer]
  member := by rw [hsizer]
  size := by rw [hsizer]
  bounded := satAdd64_le _ _
  keys key hkey := by simp [hkeys] at hkey
  extra key hkey := by simp [firstSelection] at hkey
  taken y hy hfree := by
    rw [hseen y hy] at hfree
    cases hfree

namespace AfterTransition

variable {after : SnapshotState} {released consumer : GroupConsumerState} {offsets : List ℕ}

theorem liveOf_eq_nil (h : AfterTransition request state after released consumer offsets) :
    (after.consumerOf request.consumerKey).liveOf (max after.leaseClockMs request.nowMs)
        request.member = [] ↔
      (state.consumerOf request.consumerKey).liveOf (max state.leaseClockMs request.nowMs)
        request.member = [] := by
  have hlive := h.transitioned.allLive
  have hfilter := h.transitioned.release.filter_member request.member
  rw [h.clock, h.consumerOf]
  simp only [GroupBatchPollRequest.terms_nowMs] at hlive hfilter
  have hall : consumer.inFlight.toList.filter (fun entry =>
      !leaseExpired entry.2.deadlineMs (max state.leaseClockMs request.nowMs)) =
      consumer.inFlight.toList := by
    refine List.filter_eq_self.2 fun entry hmem => ?_
    rw [Bool.not_eq_true']
    exact hlive entry.1 entry.2 (Std.ExtTreeMap.mem_toList_iff_getElem?_eq_some.1 hmem)
  rw [← hfilter, liveOf, hall, h.transitioned.settled.inFlight]

theorem views (h : AfterTransition request state after released consumer offsets)
    (hwf : state.WellFormed) {view view' : BatchView}
    (hview : state.batchView request = some view) (hview' : after.batchView request = some view') :
    ∃ filter filter',
      (state.consumerOf request.consumerKey).previewRetryFilter
        (max state.leaseClockMs request.nowMs) request.legacyPolicy request.policyVersion =
          some filter ∧
      consumer.previewRetryFilter (max state.leaseClockMs request.nowMs) request.legacyPolicy
        request.policyVersion = some filter' ∧
      view = (state.consumerOf request.consumerKey).batchView
        (request.terms (max state.leaseClockMs request.nowMs)) filter
        (isDeadLetterStream state request.stream) ∧
      view' = consumer.batchView (request.terms (max state.leaseClockMs request.nowMs)) filter'
        (isDeadLetterStream after request.stream) := by
  obtain ⟨filter, hfilter, heq⟩ := exists_batchView hwf request
  obtain ⟨filter', hfilter', heq'⟩ := exists_batchView h.wellFormed request
  rw [h.clock, h.consumerOf] at hfilter' heq'
  exact ⟨filter, filter', hfilter, hfilter', Option.some.inj (hview.symm.trans heq),
    Option.some.inj (hview'.symm.trans heq')⟩

theorem wellFormed_consumers (h : AfterTransition request state after released consumer offsets)
    (hwf : state.WellFormed) :
    Cluster.WellFormed (state.messages request.stream) (state.consumerOf request.consumerKey) ∧
      Cluster.WellFormed (state.messages request.stream) consumer := by
  refine ⟨hwf.consumerOf request.consumerKey, ?_⟩
  have hafter := h.wellFormed.consumerOf request.consumerKey
  rw [h.consumerOf, SnapshotState.messages] at hafter
  rw [SnapshotState.messages, ← h.stream]
  exact hafter

section Counts

variable (h : AfterTransition request state after released consumer offsets)
  (hwf : state.WellFormed) {view view' : BatchView}
  (hview : state.batchView request = some view) (hview' : after.batchView request = some view')
include h hwf hview hview'

theorem thinned :
    (∀ offset, view'.terminal offset = false) ∨
      BatchView.Thinned (enumerate (state.messages request.stream)) view view' := by
  obtain ⟨filter, filter', hfilter, hfilter', rfl, rfl⟩ := h.views hwf hview hview'
  cases hafter : isDeadLetterStream after request.stream with
  | true =>
    refine Or.inl fun offset => ?_
    simp [GroupConsumerState.batchView]
  | false =>
    have hbefore : isDeadLetterStream state request.stream = false := by
      cases hoffsets : offsets with
      | nil => rw [← (h.idle hoffsets).2, hafter]
      | cons offset _ => exact h.moves offset (by simp [hoffsets])
    rw [hbefore]
    obtain ⟨hwf₁, hwf₂⟩ := h.wellFormed_consumers hwf
    exact Or.inr (h.transitioned.thinned hwf₁ hwf₂ hfilter hfilter' (fun _ _ => rfl))

theorem count_le :
    (scan (view'.program request) (enumerate (state.messages request.stream))
        (firstSelection request)).1.terminalTransitions ≤
      (scan (view.program request) (enumerate (state.messages request.stream))
        (firstSelection request)).1.terminalTransitions := by
  rcases h.thinned hwf hview hview' with hnone | hthin
  · rw [scan_terminalTransitions_of_none view' hnone]
    exact Nat.zero_le _
  · exact hthin.scan_le (pairwise_enumerate _) _ [] rfl
      (ahead_first _ _ _ _ (by simp) rfl rfl rfl (Nat.zero_le 0))

/-- With every schedule written, neither what was not free nor what left is free. -/
theorem not_free (hlacking : ∀ offset delivery, ¬ (state.consumerOf request.consumerKey).Lacking
      (max state.leaseClockMs request.nowMs) offset delivery)
    {before : List (ℕ × StoredMessage)} {entry : ℕ × StoredMessage} (hmem : entry.1 ∈ offsets)
    (hbefore : ∀ x ∈ before, view.free x = false) {x : ℕ × StoredMessage}
    (hx : x ∈ before ++ [entry]) : view'.free x = false := by
  obtain ⟨filter, filter', hfilter, hfilter', rfl, rfl⟩ := h.views hwf hview hview'
  obtain ⟨hwf₁, hwf₂⟩ := h.wellFormed_consumers hwf
  rw [← Bool.not_eq_true]
  intro hin
  rcases List.mem_append.1 hx with hx | hx
  · have hnot := hbefore x hx
    rw [h.transitioned.free_of_free hwf₁ hwf₂ hfilter hfilter'
      (h.transitioned.kept_of_scheduled hlacking) hin] at hnot
    cases hnot
  · obtain rfl := List.mem_singleton.1 hx
    exact ((batchView_free_iff_held hwf₂ hfilter').1 hin).1
      ((h.transitioned.acknowledged_iff _).2 (Or.inr hmem))

/-- With every schedule written, the first free record's departure is one less to count. -/
theorem count_lt (hlacking : ∀ offset delivery, ¬ (state.consumerOf request.consumerKey).Lacking
      (max state.leaseClockMs request.nowMs) offset delivery)
    {entry : ℕ × StoredMessage}
    (hfind : (enumerate (state.messages request.stream)).find? view.free = some entry)
    (hterminal : view.terminal entry.1 = true) (hmem : entry.1 ∈ offsets)
    (hready : (view.program request).ready (firstSelection request) = true) :
    (scan (view'.program request) (enumerate (state.messages request.stream))
        (firstSelection request)).1.terminalTransitions <
      (scan (view.program request) (enumerate (state.messages request.stream))
        (firstSelection request)).1.terminalTransitions := by
  obtain ⟨hfree, before, rest, hsplit, hbefore⟩ := List.find?_eq_some_iff_append.1 hfind
  have hskip : ∀ x ∈ before ++ [entry], view'.free x = false :=
    fun x hx => h.not_free hwf hview hview' hlacking hmem (fun y hy => by simpa using hbefore y hy)
      hx
  have hpassBefore : ∀ x ∈ before, (view.program request).eligible (firstSelection request) x =
      false := by
    intro x hx
    rw [← Bool.not_eq_true, view.eligible_iff]
    have := hbefore x hx
    simp_all
  have hpassAfter : ∀ x ∈ before ++ [entry],
      (view'.program request).eligible (firstSelection request) x = false := by
    intro x hx
    rw [← Bool.not_eq_true, view'.eligible_iff, hskip x hx]
    simp
  have hacts : (view.program request).eligible (firstSelection request) entry = true :=
    (view.eligible_iff _ _).2 ⟨hfree, by simp [firstSelection]⟩
  have hsplit' : enumerate (state.messages request.stream) = (before ++ [entry]) ++ rest := by
    simp [hsplit]
  have hcount : (scan (view.program request) (enumerate (state.messages request.stream))
      (firstSelection request)) = scan (view.program request) rest
        (BatchView.countTerminal (firstSelection request) entry.1) := by
    rw [hsplit, scan_append_of_forall hpassBefore,
      scan_cons_of_act hready hacts (BatchView.act_of_terminal hterminal _)]
  rw [hcount]
  rcases h.thinned hwf hview hview' with hnone | hthin
  · rw [scan_terminalTransitions_of_none view' hnone]
    have hone : (BatchView.countTerminal (firstSelection request) entry.1).terminalTransitions ≤
        (scan (view.program request) rest
          (BatchView.countTerminal (firstSelection request) entry.1)).1.terminalTransitions :=
      BatchView.terminalTransitions_le_scan view rest _
    exact Nat.lt_of_lt_of_le (Nat.lt_succ_self _) hone
  · have hahead : Ahead (enumerate (state.messages request.stream)) (before ++ [entry]) view view' 1
        (BatchView.countTerminal (firstSelection request) entry.1) (firstSelection request) :=
      ahead_first _ _ _ _ hskip (s := BatchView.countTerminal (firstSelection request) entry.1)
        rfl rfl rfl (Nat.le_refl 1)
    rw [hsplit', scan_append_of_forall hpassAfter]
    exact hthin.scan_le (pairwise_enumerate _) rest _ hsplit' hahead

theorem view_eq (hlacking : ∀ offset delivery, ¬ (state.consumerOf request.consumerKey).Lacking
      (max state.leaseClockMs request.nowMs) offset delivery) (hoffsets : offsets = []) :
    view' = view := by
  obtain ⟨filter, filter', hfilter, hfilter', rfl, rfl⟩ := h.views hwf hview hview'
  obtain ⟨rfl, hdead⟩ := h.idle hoffsets
  rw [hdead]
  exact h.transitioned.release.batchView_eq (h.wellFormed_consumers hwf).1 hfilter hfilter' hlacking

end Counts

/-- With every schedule written, the first record to leave is the first free one. -/
theorem firstLeaves_iff (h : AfterTransition request state after released consumer offsets)
    (hwf : state.WellFormed) {view : BatchView} (hview : state.batchView request = some view)
    (hlacking : ∀ offset delivery, ¬ (state.consumerOf request.consumerKey).Lacking
      (max state.leaseClockMs request.nowMs) offset delivery) (offset : ℕ) :
    FirstLeaves request (max state.leaseClockMs request.nowMs) state released offset ↔
      ∃ entry, (enumerate (state.messages request.stream)).find? view.free = some entry ∧
        entry.1 = offset ∧ view.terminal entry.1 = true := by
  obtain ⟨filter, hfilter, heq⟩ := exists_batchView hwf request
  obtain rfl := Option.some.inj (heq.symm.trans hview)
  have hrelease := h.transitioned.release
  have hwf₁ := (h.wellFormed_consumers hwf).1
  have hwf₂ : Cluster.WellFormed (state.messages request.stream) released := hwf₁.released hrelease
  obtain ⟨filter', hfilter', -⟩ := previewRetryFilter_spec hwf₂
    (request.terms (max state.leaseClockMs request.nowMs))
  have hcandidate : candidate released (state.messages request.stream)
      (max state.leaseClockMs request.nowMs) ∅ ∅ =
      (enumerate (state.messages request.stream)).find? (released.batchView
        (request.terms (max state.leaseClockMs request.nowMs)) filter'
        (isDeadLetterStream state request.stream)).free :=
    candidate_eq_find? hwf₂ hrelease.allLive hfilter'
  rw [hrelease.batchView_eq hwf₁ hfilter hfilter' hlacking] at hcandidate
  rw [FirstLeaves, hrelease.same.exhaustedAt_eq, hcandidate]
  simp only [GroupConsumerState.batchView, Bool.and_eq_true, Bool.not_eq_true']
  constructor
  · rintro ⟨⟨stored, hfind⟩, hexhausted, hlive⟩
    exact ⟨(offset, stored), hfind, rfl, hexhausted, hlive⟩
  · rintro ⟨⟨_, stored⟩, hfind, rfl, hexhausted, hlive⟩
    exact ⟨⟨stored, hfind⟩, hexhausted, hlive⟩

section Answers

variable (h : AfterTransition request state after released consumer offsets)
  (hwf : state.WellFormed) {view view' : BatchView}
  (hview : state.batchView request = some view) (hview' : after.batchView request = some view')
include h hwf hview

/-- With every schedule written, an exhausted first record leaves if the preview counts any. -/
theorem first_moved (hlacking : ∀ offset delivery,
      ¬ (state.consumerOf request.consumerKey).Lacking (max state.leaseClockMs request.nowMs)
        offset delivery)
    (hidle : (state.consumerOf request.consumerKey).liveOf (max state.leaseClockMs request.nowMs)
      request.member = [])
    (hcounted : 0 < (previewAnswer request
      (previewPass request (state.messages request.stream) view)).terminalTransitions)
    {entry : ℕ × StoredMessage}
    (hfind : (enumerate (state.messages request.stream)).find? view.free = some entry)
    (hexhausted : view.terminal entry.1 = true) :
    (view.program request).ready (firstSelection request) = true ∧ entry.1 ∈ offsets := by
  have hready : (view.program request).ready (firstSelection request) = true := by
    by_contra hno
    rw [previewPass, scan_of_not_ready (by simpa using hno)] at hcounted
    exact absurd hcounted (lt_irrefl 0)
  refine ⟨hready, h.first hidle ?_ entry.1
    ((h.firstLeaves_iff hwf hview hlacking entry.1).2 ⟨entry, hfind, rfl, hexhausted⟩)⟩
  simp only [BatchView.program, decide_eq_true_eq] at hready
  exact hready.2

include hview'

/-- The answer after the transition reports no more, unless a record is too large and a schedule
is due as soon as it is written. -/
theorem answer_le
    (hclock : max state.leaseClockMs request.nowMs < u64Max ∨
      (previewPass request (state.messages request.stream) view).2 = Option.none) :
    (previewAnswer request
      (previewPass request (state.messages request.stream) view')).terminalTransitions ≤
    (previewAnswer request
      (previewPass request (state.messages request.stream) view)).terminalTransitions := by
  have hless := @previewAnswer_terminalTransitions_le request
    (previewPass request (state.messages request.stream) view') (scan_response _ _ _)
  rcases scan_response view (enumerate (state.messages request.stream))
    (firstSelection request) with
    hnone | hlarge
  · calc _ ≤ _ := hless
      _ ≤ _ := h.count_le hwf hview hview'
      _ = _ := (previewAnswer_of_none hnone).symm
  · have hbefore : (previewPass request (state.messages request.stream) view).2 ≠ Option.none := by
      rw [previewPass, hlarge]
      simp
    rcases h.thinned hwf hview hview' with hnone | hthin
    · rw [previewPass, scan_terminalTransitions_of_none view' hnone] at hless
      exact hless.trans (Nat.zero_le _)
    · have hafter : (previewPass request (state.messages request.stream) view').2 =
          some (.groupBatchPollRecordTooLarge request.maxBytes) := by
        refine hthin.tooLarge (fun x _ hfree => ?_) _ (fun _ hx => hx) ⟨rfl, rfl⟩ ⟨rfl, rfl⟩ rfl
          hlarge
        obtain ⟨filter, filter', hfilter, hfilter', rfl, rfl⟩ := h.views hwf hview hview'
        obtain ⟨hwf₁, hwf₂⟩ := h.wellFormed_consumers hwf
        exact h.transitioned.free_of_free hwf₁ hwf₂ hfilter hfilter'
          (h.transitioned.kept_of_lt (hclock.resolve_right hbefore)) hfree
      rw [previewAnswer_of_tooLarge hafter]
      exact Nat.zero_le _

/-- With every schedule written, the next preview reports less exactly if the first free record
is exhausted. -/
theorem answer_lt_iff (hlacking : ∀ offset delivery,
      ¬ (state.consumerOf request.consumerKey).Lacking (max state.leaseClockMs request.nowMs)
        offset delivery)
    (hidle : (state.consumerOf request.consumerKey).liveOf (max state.leaseClockMs request.nowMs)
      request.member = [])
    (hcounted : 0 < (previewAnswer request
      (previewPass request (state.messages request.stream) view)).terminalTransitions) :
    (previewAnswer request
      (previewPass request (state.messages request.stream) view')).terminalTransitions <
        (previewAnswer request
          (previewPass request (state.messages request.stream) view)).terminalTransitions ↔
      state.firstFreeExhausted request = true := by
  have hnone : (previewPass request (state.messages request.stream) view).2 = Option.none := by
    refine (scan_response _ _ _).resolve_right fun hlarge => ?_
    rw [previewPass, previewAnswer_of_tooLarge hlarge] at hcounted
    exact absurd hcounted (lt_irrefl 0)
  rw [SnapshotState.firstFreeExhausted, hview, Option.any_some, Option.any_eq_true]
  constructor
  · intro hless
    by_contra hno
    have hoffsets : offsets = [] := h.none fun offset hleaves => by
      obtain ⟨entry, hfind, -, hexhausted⟩ :=
        (h.firstLeaves_iff hwf hview hlacking offset).1 hleaves
      exact hno ⟨entry, hfind, hexhausted⟩
    rw [h.view_eq hwf hview hview' hlacking hoffsets] at hless
    exact absurd hless (lt_irrefl _)
  · rintro ⟨entry, hfind, hexhausted⟩
    obtain ⟨hready, hmem⟩ := h.first_moved hwf hview hlacking hidle hcounted hfind hexhausted
    calc _ ≤ _ := previewAnswer_terminalTransitions_le _ (scan_response _ _ _)
      _ < _ := h.count_lt hwf hview hview' hlacking hfind hexhausted hmem hready
      _ = _ := (previewAnswer_of_none hnone).symm

end Answers

section Remaining

variable (h : AfterTransition request state after released consumer offsets)
include h

theorem inFlight_toList : consumer.inFlight.toList =
    (state.consumerOf request.consumerKey).inFlight.toList.filter (fun entry =>
      !leaseExpired entry.2.deadlineMs (max state.leaseClockMs request.nowMs)) := by
  have hmap : released.inFlight = (state.consumerOf request.consumerKey).inFlight.filter
      (fun _ delivery => !leaseExpired delivery.deadlineMs
        (max state.leaseClockMs request.nowMs)) := by
    refine Std.ExtTreeMap.ext_getElem? fun offset => ?_
    rw [h.transitioned.release.inFlight, Std.ExtTreeMap.getElem?_filter']
    rfl
  rw [h.transitioned.settled.inFlight, hmap, Std.ExtTreeMap.toList_filter]

theorem messages_eq : after.messages request.stream = state.messages request.stream := by
  rw [SnapshotState.messages, h.stream, SnapshotState.messages]

theorem inFlight_le : (after.consumerOf request.consumerKey).inFlight.toList.length ≤
    (state.consumerOf request.consumerKey).inFlight.toList.length := by
  rw [h.consumerOf, h.inFlight_toList]
  exact List.length_filter_le _ _

theorem inFlight_lt {offset : ℕ} {delivery : GroupDelivery}
    (hlacking : (state.consumerOf request.consumerKey).Lacking
      (max state.leaseClockMs request.nowMs) offset delivery) :
    (after.consumerOf request.consumerKey).inFlight.toList.length <
      (state.consumerOf request.consumerKey).inFlight.toList.length := by
  obtain ⟨hget, hlacks⟩ := hlacking
  simp only [lacksSchedule, Bool.and_eq_true] at hlacks
  rw [h.consumerOf, h.inFlight_toList, List.length_filter_lt_length_iff_exists]
  exact ⟨(offset, delivery), Std.ExtTreeMap.mem_toList_iff_getElem?_eq_some.2 hget, by
    simp [hlacks.1.1]⟩

theorem pending_le :
    (pendingOffsets (after.messages request.stream) (after.consumerOf request.consumerKey) ∅).card ≤
      (pendingOffsets (state.messages request.stream) (state.consumerOf request.consumerKey)
        ∅).card := by
  rw [h.messages_eq, h.consumerOf]
  refine Finset.card_le_card fun offset hmem => ?_
  simp only [pendingOffsets, Finset.mem_filter] at hmem ⊢
  exact ⟨hmem.1, fun hin => hmem.2.1 ((h.transitioned.acknowledged_iff offset).2 (Or.inl hin)),
    hmem.2.2⟩

theorem pending_lt {offset : ℕ} (hstored : offset < (state.messages request.stream).length)
    (hmem : offset ∈ offsets) :
    (pendingOffsets (after.messages request.stream) (after.consumerOf request.consumerKey) ∅).card <
      (pendingOffsets (state.messages request.stream) (state.consumerOf request.consumerKey)
        ∅).card := by
  rw [h.messages_eq, h.consumerOf]
  refine card_pendingOffsets_lt hstored (fun hin => ?_) Std.ExtTreeSet.not_mem_empty
    (fun other hin => (h.transitioned.acknowledged_iff other).2 (Or.inl hin)) (fun _ hin => hin)
    (Or.inl ((h.transitioned.acknowledged_iff offset).2 (Or.inr hmem)))
  exact h.transitioned.settled.pending offset hmem
    ((h.transitioned.release.same.acknowledged_iff offset).2 hin)

end Remaining

end AfterTransition

theorem pendingTransitions_of_live (hwf : state.WellFormed) (hkind : kind ≠ .metadata)
    (hrecords : 0 < request.maxRecords) (hbytes : 0 < request.maxBytes)
    (htransition : request.transitionOnly = false)
    (hactive : state.streamActive request.stream = true)
    (hlive : (state.consumerOf request.consumerKey).liveOf (max state.leaseClockMs request.nowMs)
      request.member ≠ []) :
    state.pendingTransitions request kind = some (0 + state.unscheduled request) := by
  obtain ⟨streamState, hstream, hactive⟩ := SnapshotState.streamActive_iff.1 hactive
  obtain ⟨filter, -, hview⟩ := exists_batchView hwf request
  rw [SnapshotState.pendingTransitions, storePreviewGroupBatch_eq hwf hkind hrecords hbytes
    htransition hstream hactive hview, if_neg (by simpa using hlive), Option.map_some,
    existingResponse_terminalTransitions]

theorem pendingTransitions_of_idle (hwf : state.WellFormed) (hkind : kind ≠ .metadata)
    (hrecords : 0 < request.maxRecords) (hbytes : 0 < request.maxBytes)
    (htransition : request.transitionOnly = false)
    (hactive : state.streamActive request.stream = true)
    (hidle : (state.consumerOf request.consumerKey).liveOf (max state.leaseClockMs request.nowMs)
      request.member = []) {view : BatchView} (hview : state.batchView request = some view) :
    state.pendingTransitions request kind = some ((previewAnswer request
      (previewPass request (state.messages request.stream) view)).terminalTransitions +
        state.unscheduled request) := by
  obtain ⟨streamState, hstream, hactive⟩ := SnapshotState.streamActive_iff.1 hactive
  rw [SnapshotState.pendingTransitions, storePreviewGroupBatch_eq hwf hkind hrecords hbytes
    htransition hstream hactive hview, if_pos (by simp [hidle]), Option.map_some, previewPass,
    SnapshotState.messages_of_getElem? hstream]

theorem not_lacking_of_unscheduled (hwf : state.WellFormed) (h : state.unscheduled request = 0)
    (offset : ℕ) (delivery : GroupDelivery) :
    ¬ (state.consumerOf request.consumerKey).Lacking (max state.leaseClockMs request.nowMs) offset
      delivery := by
  rintro ⟨hget, hlacks⟩
  rw [unscheduled_eq hwf, List.countP_eq_zero] at h
  exact h (offset, delivery) (Std.ExtTreeMap.mem_toList_iff_getElem?_eq_some.2 hget) hlacks

/-- What a preview reports of an active stream, and what the transition after it changes. -/
theorem transition_effect (hwf : state.WellFormed) (hkind : kind ≠ .metadata)
    (hrecords : 0 < request.maxRecords) (hbytes : 0 < request.maxBytes)
    (htransition : request.transitionOnly = false)
    (hactive : state.streamActive request.stream = true) :
    ∃ preview after response released consumer offsets terminal',
      storePreviewGroupBatch state request kind = some preview ∧
      (preview.2 = true ↔ 0 < state.unscheduled request) ∧
      applyGroupBatchPoll state request.transition kind = some (after, response) ∧
      AfterTransition request state after released consumer offsets ∧
      after.pendingTransitions request kind = some terminal' ∧
      (max state.leaseClockMs request.nowMs < u64Max ∨ decideBatchPoll preview = .transition →
        terminal' ≤ preview.1.terminalTransitions) ∧
      (state.unscheduled request = 0 → 0 < preview.1.terminalTransitions →
        (terminal' < preview.1.terminalTransitions ↔ state.firstFreeExhausted request = true) ∧
        (state.firstFreeExhausted request = true →
          ∃ offset ∈ offsets, offset < (state.messages request.stream).length)) := by
  obtain ⟨streamState, hstream, hstreamActive⟩ := SnapshotState.streamActive_iff.1 hactive
  obtain ⟨after, response, released, consumer, offsets, happly, hafter⟩ :=
    exists_afterTransition hwf hkind hrecords hbytes hactive
  have hactive' : after.streamActive request.stream = true := by
    rw [SnapshotState.streamActive, hafter.stream]
    exact hactive
  obtain ⟨view, hview⟩ : ∃ view, state.batchView request = some view :=
    ⟨_, (exists_batchView hwf request).choose_spec.2⟩
  obtain ⟨view', hview'⟩ : ∃ view, after.batchView request = some view :=
    ⟨_, (exists_batchView hafter.wellFormed request).choose_spec.2⟩
  have hunscheduled : after.unscheduled request = 0 := by
    refine unscheduled_of_allLive hafter.wellFormed ?_
    rw [hafter.clock, hafter.consumerOf]
    exact hafter.transitioned.allLive
  have hpreview := storePreviewGroupBatch_eq hwf hkind hrecords hbytes htransition hstream
    hstreamActive hview
  by_cases hidle : (state.consumerOf request.consumerKey).liveOf
      (max state.leaseClockMs request.nowMs) request.member = []
  · rw [if_pos (by simp [hidle]), ← SnapshotState.messages_of_getElem? hstream] at hpreview
    have hafterwards := pendingTransitions_of_idle hafter.wellFormed hkind hrecords hbytes
      htransition hactive' (hafter.liveOf_eq_nil.2 hidle) hview'
    rw [hunscheduled, hafter.messages_eq] at hafterwards
    refine ⟨_, after, response, released, consumer, offsets, _, hpreview,
      any_lacksSchedule_iff hwf request, happly, hafter, hafterwards, fun hclock => ?_,
      fun hscheduled hcounted => ?_⟩
    · refine hafter.answer_le hwf hview hview' (hclock.imp_right fun hdecision => ?_)
      refine (scan_response _ _ _).resolve_right fun hlarge => ?_
      rw [previewAnswer_of_tooLarge hlarge] at hdecision
      cases hdecision
    · have hlacking := not_lacking_of_unscheduled hwf hscheduled
      refine ⟨hafter.answer_lt_iff hwf hview hview' hlacking hidle hcounted, fun hfirst => ?_⟩
      rw [SnapshotState.firstFreeExhausted, hview, Option.any_some, Option.any_eq_true] at hfirst
      obtain ⟨entry, hfind, hexhausted⟩ := hfirst
      refine ⟨entry.1,
        (hafter.first_moved hwf hview hlacking hidle hcounted hfind hexhausted).2, ?_⟩
      have hget := mem_enumerate.1 (List.mem_of_find?_eq_some hfind)
      exact (List.getElem?_eq_some_iff.1 hget).1
  · -- The member's own deliveries answer the poll, so only a schedule can be pending.
    rw [if_neg (by simpa using hidle)] at hpreview
    have hafterwards := pendingTransitions_of_live hafter.wellFormed hkind hrecords hbytes
      htransition hactive' (mt hafter.liveOf_eq_nil.1 hidle)
    rw [hunscheduled] at hafterwards
    refine ⟨_, after, response, released, consumer, offsets, _, hpreview,
      any_lacksSchedule_iff hwf request, happly, hafter, hafterwards, fun _ => Nat.zero_le _,
      fun _ hcounted => ?_⟩
    rw [existingResponse_terminalTransitions] at hcounted
    exact absurd hcounted (lt_irrefl 0)

def MakesProgress (request : GroupBatchPollRequest) (kind : GroupKind) (state : SnapshotState) :
    Prop :=
  ∃ after response before' after',
    applyGroupBatchPoll state request.transition kind = some (after, response) ∧
    state.pendingTransitions request kind = some before' ∧
    after.pendingTransitions request kind = some after' ∧ after' < before'

/-- A stream of which a preview reports work is there, and so it is active. -/
theorem streamActive_of_reportsWork (hwf : state.WellFormed) (hactive : state.AllActive)
    (hkind : kind ≠ .metadata) (hrecords : 0 < request.maxRecords)
    (hbytes : 0 < request.maxBytes) (hreports : state.reportsWork request kind = true) :
    state.streamActive request.stream = true := by
  cases hstream : state.streams[request.stream]? with
  | some streamState =>
    exact SnapshotState.streamActive_iff.2 ⟨streamState, hstream, hactive _ streamState hstream⟩
  | none =>
    have hempty : state.messages request.consumerKey.1 = [] := by
      rw [SnapshotState.messages, show request.consumerKey.1 = request.stream from rfl, hstream]
      rfl
    have hnothing : (state.consumerOf request.consumerKey).inFlight.toList.any
        ((state.consumerOf request.consumerKey).lacksSchedule
          (max state.leaseClockMs request.nowMs)) = false := by
      rw [List.any_eq_false]
      intro entry hmem
      have hconsumer := hwf.consumerOf request.consumerKey
      have hattempted := hconsumer.attempted_of_inFlight
        (mem_iff_exists_getElem?.2 ⟨_, Std.ExtTreeMap.mem_toList_iff_getElem?_eq_some.1 hmem⟩)
      have hstored := (hconsumer.inTurn entry.1 hattempted).stored
      rw [hempty] at hstored
      cases hstored
    have hpreview : previewGroupBatch state request kind = some .streamNotFound := by
      have hlimits : ¬ (request.maxRecords = 0 ∨ request.maxBytes = 0) := by omega
      simp [previewGroupBatch, hkind, hlimits, hstream]
    rw [SnapshotState.reportsWork, storePreviewGroupBatch] at hreports
    simp [needsSchedule_eq hwf request, hnothing, hpreview,
      CommandResponse.terminalTransitions] at hreports

/-- What a preview reports is progress exactly if a schedule is missing or the first free record
is exhausted. -/
theorem makesProgress_iff (hwf : state.WellFormed) (hkind : kind ≠ .metadata)
    (hrecords : 0 < request.maxRecords) (hbytes : 0 < request.maxBytes)
    (htransition : request.transitionOnly = false)
    (hactive : state.streamActive request.stream = true)
    (hreports : state.reportsWork request kind = true)
    (hclock : max state.leaseClockMs request.nowMs < u64Max ∨
      (storePreviewGroupBatch state request kind).map decideBatchPoll = some .transition) :
    MakesProgress request kind state ↔
      0 < state.unscheduled request ∨ state.firstFreeExhausted request = true := by
  obtain ⟨preview, after, response, released, consumer, offsets, terminal', hpreview, hneeds,
    happly, -, hafter, hle, hfirst⟩ :=
    transition_effect hwf hkind hrecords hbytes htransition hactive
  rw [SnapshotState.reportsWork, hpreview, Option.any_some, Bool.or_eq_true, hneeds,
    decide_eq_true_eq] at hreports
  rw [hpreview, Option.map_some, Option.some.injEq] at hclock
  have hbefore : state.pendingTransitions request kind =
      some (preview.1.terminalTransitions + state.unscheduled request) := by
    rw [SnapshotState.pendingTransitions, hpreview, Option.map_some]
  have hprogress : MakesProgress request kind state ↔
      terminal' < preview.1.terminalTransitions + state.unscheduled request := by
    constructor
    · rintro ⟨after₂, response₂, m, m', happly₂, hm, hm', hlt⟩
      rw [happly, Option.some.injEq, Prod.mk.injEq] at happly₂
      rw [hbefore, Option.some.injEq] at hm
      rw [← happly₂.1, hafter, Option.some.injEq] at hm'
      omega
    · exact fun hlt => ⟨after, response, _, _, happly, hbefore, hafter, hlt⟩
  rw [hprogress]
  have hle := hle hclock
  rcases Nat.eq_zero_or_pos (state.unscheduled request) with hzero | hpos
  · have hcounted : 0 < preview.1.terminalTransitions := hreports.resolve_left (by omega)
    rw [hzero, Nat.add_zero, (hfirst hzero hcounted).1]
    simp
  · simp only [hpos, true_or, iff_true]
    omega

/-- A round that writes a schedule ends a lease, any other one puts a record behind its consumer. -/
theorem remaining_lt (hwf : state.WellFormed) (hrecords : 0 < request.maxRecords)
    (hbytes : 0 < request.maxBytes) (htransition : request.transitionOnly = false)
    (hdecision : (storePreviewGroupBatch state request kind).map decideBatchPoll =
      some .transition)
    (hcondition : 0 < state.unscheduled request ∨ state.firstFreeExhausted request = true)
    {after : SnapshotState} {response : CommandResponse}
    (happly : applyGroupBatchPoll state request.transition kind = some (after, response)) :
    after.WellFormed ∧
      after.remaining request.consumerKey < state.remaining request.consumerKey := by
  obtain ⟨messages, complete, terminal, needs, hpreview, hpending, hkind, hactive⟩ :=
    transition_cases hdecision
  obtain ⟨preview, after', response', released, consumer, offsets, terminal', hpreview', hneeds,
    happly', hafter, -, -, hfirst⟩ :=
      transition_effect hwf hkind hrecords hbytes htransition hactive
  obtain rfl : after' = after := (applied_inj happly' happly).1
  obtain rfl : preview = (.groupBatchPoll messages complete terminal, needs) :=
    Option.some.inj (hpreview'.symm.trans hpreview)
  refine ⟨hafter.wellFormed, ?_⟩
  have hleases := hafter.inFlight_le
  have hrecordsLeft := hafter.pending_le
  unfold SnapshotState.remaining
  rcases Nat.eq_zero_or_pos (state.unscheduled request) with hzero | hpos
  · have hcounted : 0 < terminal := hpending.resolve_left fun hneeded => by
      have := hneeds.1 hneeded
      omega
    obtain ⟨offset, hmem, hstored⟩ :=
      (hfirst hzero hcounted).2 (hcondition.resolve_left (by omega))
    exact Nat.add_lt_add_of_le_of_lt hleases (hafter.pending_lt hstored hmem)
  · rw [gt_iff_lt, unscheduled_eq hwf, List.countP_pos_iff] at hpos
    obtain ⟨entry, hmem, hlacks⟩ := hpos
    exact Nat.add_lt_add_of_lt_of_le (hafter.inFlight_lt
      ⟨Std.ExtTreeMap.mem_toList_iff_getElem?_eq_some.1 hmem, hlacks⟩) hrecordsLeft

/-- Rounds that all make progress are no more than what remains at first. -/
theorem rounds_le (hwf : state.WellFormed) (hrecords : 0 < request.maxRecords)
    (hbytes : 0 < request.maxBytes) (htransition : request.transitionOnly = false)
    {ackTimeoutMs : ℕ} {past : List (SnapshotState × ℕ)} {final : SnapshotState}
    (hrun : Run (· = state) (guarded (fun state nowMs =>
        0 < state.unscheduled (request.sampled ackTimeoutMs nowMs) ∨
        state.firstFreeExhausted (request.sampled ackTimeoutMs nowMs) = true)
      (TransitionRound request ackTimeoutMs kind)) past final) :
    past.length ≤ state.remaining request.consumerKey := by
  have hinv : final.WellFormed ∧
      past.length + final.remaining request.consumerKey ≤ state.remaining request.consumerKey := by
    refine hrun.history_invariant (P := fun past final => final.WellFormed ∧
      past.length + final.remaining request.consumerKey ≤ state.remaining request.consumerKey) ?_ ?_
    · rintro _ rfl
      exact ⟨hwf, by simp⟩
    · rintro past s nowMs t ⟨hs, hle⟩ ⟨hguard, hdecision, response, happly⟩
      obtain ⟨ht, hlt⟩ := @remaining_lt s (request.sampled ackTimeoutMs nowMs) kind hs hrecords
        hbytes htransition hdecision hguard _ _ happly
      refine ⟨ht, ?_⟩
      rw [List.length_cons]
      have : t.remaining request.consumerKey < s.remaining request.consumerKey := hlt
      omega
  omega

/-- In every reachable state of a data group of which the preview reports work, applying the
request as a transition leaves the next preview less to report exactly if a retry schedule is
missing or the first free record is exhausted, unless a schedule is due as soon as it is written.
The loop, with a time of its own in every round, submits only finitely many transitions in a row
as long as every round meets this condition. -/
theorem transition_round_progress [ToString LogId] (hreachable : Reachable kind state)
    (hkind : kind ≠ .metadata) (hrecords : 0 < request.maxRecords)
    (hbytes : 0 < request.maxBytes) (htransition : request.transitionOnly = false) :
    (state.reportsWork request kind = true →
      max state.leaseClockMs request.nowMs < u64Max ∨
        (storePreviewGroupBatch state request kind).map decideBatchPoll = some .transition →
      (MakesProgress request kind state ↔
        0 < state.unscheduled request ∨ state.firstFreeExhausted request = true)) ∧
    ∀ ackTimeoutMs past final, Run (· = state) (guarded (fun state nowMs =>
        0 < state.unscheduled (request.sampled ackTimeoutMs nowMs) ∨
        state.firstFreeExhausted (request.sampled ackTimeoutMs nowMs) = true)
      (TransitionRound request ackTimeoutMs kind)) past final →
      past.length ≤ (state.consumerOf request.consumerKey).inFlight.size +
        (state.messages request.stream).length := by
  obtain ⟨past, hrun⟩ := hreachable
  have hwf := Run.wellFormed hrun
  refine ⟨fun hreports hclock => makesProgress_iff hwf hkind hrecords hbytes htransition
    (streamActive_of_reportsWork hwf (Run.allActive hrun hkind) hkind hrecords hbytes hreports)
    hreports hclock, fun ackTimeoutMs rounds final hrounds => ?_⟩
  calc rounds.length ≤ state.remaining request.consumerKey :=
        rounds_le hwf hrecords hbytes htransition hrounds
    _ ≤ _ := Nat.add_le_add Std.ExtTreeMap.length_toList.le (card_pendingOffsets_le _ _ _)

end Round

section Examples

open scoped LogId.Display

def ordersGroup : GroupKind := .data "orders" "stream/orders" "group/orders/data"

def singleAttemptPoll (member : String) (nowMs leaseDeadlineMs : ℕ) : Command :=
  .pollGroup
    { stream := "orders"
      consumer := "workers"
      member := member
      responseMember := none
      maxResponseBytes := 1000
      nowMs := nowMs
      leaseDeadlineMs := leaseDeadlineMs
      maxDeliveryAttempts := some 1
      legacyAckTimeoutMs := none
      policyVersion := none }

def batchPoll (maxBytes nowMs : ℕ) (policyVersion : Option ℕ) : GroupBatchPollRequest :=
  { stream := "orders"
    consumer := "workers"
    member := "e"
    responseMember := none
    maxRecords := 2
    maxBytes := maxBytes
    tokenSeed := "seed"
    nowMs := nowMs
    leaseDeadlineMs := nowMs + 50
    maxDeliveryAttempts := policyVersion.elim (some 1) fun _ => none
    legacyAckTimeoutMs := none
    policyVersion := policyVersion
    transitionOnly := false }

/-- Members `a`, `b` and `c` hold the only attempt at a record each, the lease of the third for
longer. A policy with a retry delay is configured, under which member `d` is given the fourth
record. The last record is large. -/
def stalledHistory : List (Command × LogId) :=
  [(.initializeDataStream "orders" "stream/orders" "group/orders/data", ⟨1, 1, 1⟩),
   (.publish "orders" (some "a") [1] 0 none, ⟨1, 1, 2⟩),
   (.publish "orders" (some "b") [2] 0 none, ⟨1, 1, 3⟩),
   (.publish "orders" (some "c") [3] 0 none, ⟨1, 1, 4⟩),
   (.publish "orders" (some "d") [4] 0 none, ⟨1, 1, 5⟩),
   (.publish "orders" none (List.replicate 200 5) 0 none, ⟨1, 1, 6⟩),
   (singleAttemptPoll "a" 5 50, ⟨1, 1, 7⟩),
   (singleAttemptPoll "b" 6 50, ⟨1, 1, 8⟩),
   (singleAttemptPoll "c" 7 150, ⟨1, 1, 9⟩),
   (.configureConsumer "orders" "workers" 40 (some 3) 30, ⟨1, 1, 10⟩),
   (.pollGroup
      { stream := "orders"
        consumer := "workers"
        member := "d"
        responseMember := none
        maxResponseBytes := 1000
        nowMs := 8
        leaseDeadlineMs := 60
        maxDeliveryAttempts := none
        legacyAckTimeoutMs := none
        policyVersion := some 1 }, ⟨1, 1, 11⟩)]

def stalledState : SnapshotState := (applyAll ordersGroup stalledHistory {}).getD {}

/-- The state after a round at the given time, if the round submits a transition. -/
def transitionNext? (request : GroupBatchPollRequest) (ackTimeoutMs : ℕ) (kind : GroupKind)
    (state : SnapshotState) (nowMs : ℕ) : Option SnapshotState :=
  if (storePreviewGroupBatch state (request.sampled ackTimeoutMs nowMs) kind).map
      decideBatchPoll = some .transition then
    (applyGroupBatchPoll state (request.sampled ackTimeoutMs nowMs).transition kind).map Prod.fst
  else none

theorem transitionRound_of_next? {request : GroupBatchPollRequest} {ackTimeoutMs nowMs : ℕ}
    {kind : GroupKind} {state after : SnapshotState}
    (h : transitionNext? request ackTimeoutMs kind state nowMs = some after) :
    TransitionRound request ackTimeoutMs kind state nowMs after := by
  rw [transitionNext?] at h
  split_ifs at h with hdecision
  obtain ⟨⟨_, response⟩, happly, rfl⟩ := Option.map_eq_some_iff.1 h
  exact ⟨hdecision, response, happly⟩

/-- A request that the large record does not fit into still finds work, and its transition makes
progress. Two rounds at different times move what has expired by then. -/
theorem expired_round_progress :
    storePreviewGroupBatch stalledState (batchPoll 100 100 (some 1)) ordersGroup =
      some (.groupBatchPollRecordTooLarge 100, true) ∧
    MakesProgress (batchPoll 100 100 (some 1)) ordersGroup stalledState ∧
    ∃ past final, follow (allowed (fun state nowMs =>
          0 < state.unscheduled ((batchPoll 10000 100 (some 1)).sampled 50 nowMs) ∨
          state.firstFreeExhausted ((batchPoll 10000 100 (some 1)).sampled 50 nowMs) = true)
        (transitionNext? (batchPoll 10000 100 (some 1)) 50 ordersGroup)) [100, 200] []
        stalledState = some (past, final) ∧
      past.length ≤ (stalledState.consumerOf ("orders", "workers")).inFlight.size +
        (stalledState.messages "orders").length := by
  have hreachable : Reachable ordersGroup stalledState := reachable_getD (by decide +kernel)
  have hsome : (follow (allowed (fun state nowMs =>
          0 < state.unscheduled ((batchPoll 10000 100 (some 1)).sampled 50 nowMs) ∨
          state.firstFreeExhausted ((batchPoll 10000 100 (some 1)).sampled 50 nowMs) = true)
        (transitionNext? (batchPoll 10000 100 (some 1)) 50 ordersGroup)) [100, 200] []
        stalledState).isSome := by
    decide +kernel
  obtain ⟨⟨past, final⟩, hfollow⟩ := Option.isSome_iff_exists.1 hsome
  refine ⟨by decide +kernel, ?_, past, final, hfollow, ?_⟩
  · exact ((@transition_round_progress stalledState (batchPoll 100 100 (some 1)) ordersGroup _
      hreachable (by decide) (by decide) (by decide) rfl).1 (by decide +kernel)
      (Or.inl (by decide +kernel))).2 (Or.inl (by decide +kernel))
  · exact (@transition_round_progress stalledState (batchPoll 10000 100 (some 1)) ordersGroup _
      hreachable (by decide) (by decide) (by decide) rfl).2 50 past final
      (.of_follow (fun _ _ _ _ => guarded_of_allowed transitionRound_of_next?) (.start rfl) hfollow)

/-- Two records with key `a` and one with key `b`. Member `a` has acknowledged the first, and
member `b` has let its only attempt at the third expire. -/
def expiredHistory : List (Command × LogId) :=
  [(.initializeDataStream "orders" "stream/orders" "group/orders/data", ⟨1, 1, 1⟩),
   (.publish "orders" (some "a") [1] 0 none, ⟨1, 1, 2⟩),
   (.publish "orders" (some "a") [2] 0 none, ⟨1, 1, 3⟩),
   (.publish "orders" (some "b") [3] 0 none, ⟨1, 1, 4⟩),
   (singleAttemptPoll "a" 5 50, ⟨1, 1, 5⟩),
   (singleAttemptPoll "b" 6 50, ⟨1, 1, 6⟩)]

def acknowledgeFirst : Command × LogId :=
  (.ackGroup ⟨"orders", "workers", "a", 0, "raft-T1-N1-5", 7⟩, ⟨1, 1, 7⟩)

def blockedState : SnapshotState :=
  (applyAll ordersGroup (expiredHistory ++ [acknowledgeFirst]) {}).getD {}

/-- With it, a deliverable record precedes the exhausted one, and the round changes nothing that
the preview reports. -/
theorem deliverable_record_blocks_transition :
    Reachable ordersGroup blockedState ∧
    (storePreviewGroupBatch blockedState (batchPoll 10000 100 none) ordersGroup).map
      decideBatchPoll =
      some .transition ∧
    ∃ after response,
      applyGroupBatchPoll blockedState (batchPoll 10000 100 none).transition ordersGroup =
        some (after, response) ∧
      blockedState.pendingTransitions (batchPoll 10000 100 none) ordersGroup = some 1 ∧
      after.pendingTransitions (batchPoll 10000 100 none) ordersGroup = some 1 := by
  have hafter : ((applyGroupBatchPoll blockedState (batchPoll 10000 100 none).transition
      ordersGroup).bind
      (fun result => result.1.pendingTransitions (batchPoll 10000 100 none) ordersGroup)) =
        some 1 := by
    decide +kernel
  obtain ⟨⟨after, response⟩, happly, hpending⟩ := Option.bind_eq_some_iff.1 hafter
  exact ⟨reachable_getD (by decide +kernel), by decide +kernel, after, response, happly,
    by decide +kernel, hpending⟩

end Examples

end Runnel.Cluster
