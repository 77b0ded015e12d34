import Runnel.Cluster.History

/-!
# Published records and request identities

Streams only grow, and a recorded request identity always names the record that
its first publish stored.
-/

namespace Runnel.Cluster

open Runnel.Engine GroupConsumerState Transition

variable {state after : SnapshotState}

theorem Effect.messages_grow {command : Command}
    (h : Effect state command after) (stream : String) :
    state.messages stream <+: after.messages stream := by
  cases h with
  | unchanged | ack | configure | acknowledge | tokenless => exact List.prefix_refl _
  | streams _ _ _ hgrow => exact hgrow stream
  | poll _ _ _ houtcome =>
    obtain ⟨offsets, middle, consumer, assignments, _, hdead, -, -, -, rfl⟩ := houtcome
    exact hdead.messages_grow stream

theorem dedupOffset_congr (h : after.dedup = state.dedup)
    (stream : String) (requestId : Option String) :
    after.dedupOffset stream requestId = state.dedupOffset stream requestId := by
  simp only [SnapshotState.dedupOffset, h]

theorem dedupOffset_record {stream id : String} {offset : ℕ}
    (h : after.dedup = state.dedup.insert stream
      (((state.dedup[stream]?).getD ∅).insert id offset)) (stream' id' : String) :
    after.dedupOffset stream' (some id') =
      if stream = stream' ∧ id = id' then some offset
      else state.dedupOffset stream' (some id') := by
  simp only [SnapshotState.dedupOffset, h, Option.bind_eq_bind, Option.bind_some,
    Std.ExtTreeMap.getElem?_insert, Std.LawfulEqCmp.compare_eq_iff_eq]
  by_cases hstream : stream = stream'
  · subst hstream
    rw [if_pos rfl, Option.bind_some, Std.ExtTreeMap.getElem?_insert]
    cases state.dedup[stream]? <;> simp
  · rw [if_neg hstream, if_neg fun heq => hstream heq.1]

section Publishing

variable {state after : SnapshotState} {stream : String} {key : Option String} {payload : Bytes}
  {publishedAtMs : ℕ} {requestId : Option String} {kind : GroupKind} {response : CommandResponse}

/-- A publish without a recorded identity stores its record unless the stream is inactive. -/
theorem applyPublish_of_fresh (hfresh : state.dedupOffset stream requestId = none)
    (happly : applyPublish state stream key payload publishedAtMs requestId kind =
      (after, response)) :
    after = state ∧ response = .streamNotFound ∨
    response = .published (state.messages stream).length ∧
      after.messages stream = state.messages stream ++ [⟨key, payload, publishedAtMs⟩] ∧
      after.dedup = requestId.elim state.dedup fun id => state.dedup.insert stream
        (((state.dedup[stream]?).getD ∅).insert id (state.messages stream).length) := by
  have hmessages : ((state.streams[stream]?).getD (StreamState.newActive (streamIdentity stream).1
      (streamIdentity stream).2)).messages = state.messages stream := by
    rw [SnapshotState.messages]
    cases state.streams[stream]? <;> rfl
  unfold applyPublish at happly
  rw [hfresh] at happly
  split_ifs at happly with hkind
  · obtain ⟨rfl, rfl⟩ := Prod.mk.inj happly
    exact Or.inl ⟨rfl, rfl⟩
  · simp only [hmessages] at happly
    split_ifs at happly
    · obtain ⟨rfl, rfl⟩ := Prod.mk.inj happly
      exact Or.inl ⟨rfl, rfl⟩
    · obtain ⟨rfl, rfl⟩ := Prod.mk.inj happly
      refine Or.inr ⟨rfl, ?_, ?_⟩
      · simp [SnapshotState.messages]
      · cases requestId <;> rfl

theorem applyPublish_state_of_recorded {offset : ℕ}
    (hrecorded : state.dedupOffset stream requestId = some offset)
    (happly : applyPublish state stream key payload publishedAtMs requestId kind =
      (after, response)) : after = state := by
  unfold applyPublish at happly
  rw [hrecorded] at happly
  dsimp only at happly
  repeat' split at happly
  all_goals exact (Prod.mk.inj happly).1.symm

theorem applyPublish_of_recorded {offset : ℕ} {existing : StoredMessage}
    (hkind : kind ≠ .metadata) (hrecorded : state.dedupOffset stream requestId = some offset)
    (hget : (state.messages stream)[offset]? = some existing) :
    applyPublish state stream key payload publishedAtMs requestId kind =
      (state, if key.getD "" = existing.key.getD "" ∧ payload = existing.payload
        then .published offset else .requestIdContentConflict) := by
  unfold applyPublish
  rw [if_neg hkind, hrecorded]
  simp only [hget]
  by_cases hsame : key.getD "" = existing.key.getD "" ∧ payload = existing.payload
  · rw [if_pos hsame, if_neg]
    rintro (hkey | hpayload)
    · exact hkey hsame.1.symm
    · exact hpayload hsame.2.symm
  · rw [if_neg hsame, if_pos]
    by_contra hnot
    push Not at hnot
    exact hsame ⟨hnot.1.symm, hnot.2.symm⟩

end Publishing

theorem PollStep.dedup_eq {key : ConsumerKey} {nowMs : ℕ}
    {offsets : List ℕ} {assignments : List Assignment}
    (h : PollStep state key nowMs offsets assignments after) : after.dedup = state.dedup := by
  obtain ⟨consumer, terms, -, -, middle, _, _, hmoves, -, -, -, rfl⟩ := h
  exact hmoves.dedup_eq

structure Records (state : SnapshotState) (command : Command) (response : CommandResponse)
    (after : SnapshotState) (stream id : String) (stored : StoredMessage) : Prop where
  command : command = .publish stream stored.key stored.payload stored.publishedAtMs (some id)
  fresh : state.dedupOffset stream (some id) = none
  response : response = .published (state.messages stream).length
  messages : after.messages stream = state.messages stream ++ [stored]
  dedup : after.dedup = state.dedup.insert stream
    (((state.dedup[stream]?).getD ∅).insert id (state.messages stream).length)

section Commands

variable [ToString LogId] {state after : SnapshotState} {command : Command} {kind : GroupKind}
  {logId : LogId} {response : CommandResponse}

theorem applyCommand_dedup (hwf : state.WellFormed)
    (happly : applyCommand state command kind logId = some (after, response)) :
    after.dedup = state.dedup ∨
      ∃ stream id stored, Records state command response after stream id stored := by
  cases command with
  | createStream stream streamId groupId =>
    obtain rfl := congrArg Prod.fst (Option.some.inj happly)
    obtain ⟨_, heq⟩ := applyCreateStream_eq state stream streamId groupId kind
    exact Or.inl ((congrArg SnapshotState.dedup heq).trans rfl)
  | initializeDataStream stream streamId groupId =>
    obtain rfl := congrArg Prod.fst (Option.some.inj happly)
    obtain ⟨_, heq⟩ := applyInitializeDataStream_eq state stream streamId groupId kind
    exact Or.inl ((congrArg SnapshotState.dedup heq).trans rfl)
  | activateStream stream =>
    obtain rfl := congrArg Prod.fst (Option.some.inj happly)
    obtain ⟨_, heq⟩ := applyActivateStream_eq state stream kind
    exact Or.inl ((congrArg SnapshotState.dedup heq).trans rfl)
  | ack stream consumer offset =>
    obtain rfl := congrArg Prod.fst (Option.some.inj happly)
    obtain ⟨_, heq⟩ := applyAck_eq state stream consumer offset kind
    exact Or.inl ((congrArg SnapshotState.dedup heq).trans rfl)
  | configureConsumer stream consumer ackTimeoutMs maxDeliveryAttempts retryDelayMs =>
    obtain rfl := congrArg Prod.fst (Option.some.inj happly)
    obtain ⟨heq, -⟩ | ⟨-, _, heq⟩ := applyConfigureConsumer_cases state stream consumer
      ackTimeoutMs maxDeliveryAttempts retryDelayMs kind
    · exact Or.inl ((congrArg SnapshotState.dedup heq).trans rfl)
    · exact Or.inl ((congrArg SnapshotState.dedup heq).trans rfl)
  | replay stream consumer offset =>
    obtain rfl := congrArg Prod.fst (Option.some.inj happly)
    exact Or.inl rfl
  | publish stream key payload publishedAtMs requestId =>
    have hpublish := Option.some.inj happly
    cases hrecorded : state.dedupOffset stream requestId with
    | some offset =>
      obtain rfl : after = state := applyPublish_state_of_recorded hrecorded hpublish
      exact Or.inl rfl
    | none =>
      obtain ⟨rfl, -⟩ | ⟨hresponse, hmessages, hdedup⟩ := applyPublish_of_fresh hrecorded hpublish
      · exact Or.inl rfl
      · cases requestId with
        | none => exact Or.inl hdedup
        | some id =>
          exact Or.inr ⟨stream, id, ⟨key, payload, publishedAtMs⟩, rfl, hrecorded, hresponse,
            hmessages, hdedup⟩
  | pollGroup request =>
    obtain ⟨found, _, happly', hstep⟩ := applyGroupPoll_step hwf request logId kind
    obtain ⟨rfl, -⟩ := applied_inj happly' happly
    obtain rfl | ⟨offsets, assignments, hpoll, -⟩ := hstep
    · exact Or.inl rfl
    · exact Or.inl hpoll.dedup_eq
  | pollGroupBatch request =>
    obtain ⟨found, _, happly', hstep⟩ := applyGroupBatchPoll_step hwf request kind
    obtain ⟨rfl, -⟩ := applied_inj happly' happly
    obtain rfl | ⟨offsets, assignments, hpoll, -⟩ := hstep
    · exact Or.inl rfl
    · exact Or.inl hpoll.dedup_eq
  | ackGroup request =>
    obtain happly' | ⟨-, consumer, -, happly'⟩ := applyGroupAck_step hwf request kind
    · obtain ⟨rfl, -⟩ := applied_inj happly' happly
      exact Or.inl rfl
    · obtain ⟨rfl, -⟩ := applied_inj happly' happly
      exact Or.inl rfl
  | ackGroupBatch request =>
    obtain happly' | ⟨consumer, -, happly'⟩ := applyGroupBatchAck_step hwf request kind
    · obtain ⟨rfl, -⟩ := applied_inj happly' happly
      exact Or.inl rfl
    · obtain ⟨rfl, -⟩ := applied_inj happly' happly
      exact Or.inl rfl

end Commands

section Runs

variable [ToString LogId] {kind : GroupKind} {past : List (SnapshotState × Command × LogId)}
  {state after : SnapshotState} {entry : Command × LogId}

/-- An earlier publish of the history stored the record under the identity, at this offset. -/
def RecordedAt (kind : GroupKind) (past : List (SnapshotState × Command × LogId))
    (stream id : String) (offset : ℕ) (stored : StoredMessage) : Prop :=
  ∃ before entry next, (before, entry) ∈ past ∧
    applyCommand before entry.1 kind entry.2 = some (next, .published offset) ∧
    offset = (before.messages stream).length ∧
    Records before entry.1 (.published offset) next stream id stored

/-- What every history keeps about streams and recorded identities. -/
structure PublishInvariant (kind : GroupKind) (past : List (SnapshotState × Command × LogId))
    (state : SnapshotState) : Prop where
  wellFormed : state.WellFormed
  grown : ∀ earlier ∈ past, ∀ stream, earlier.1.messages stream <+: state.messages stream
  recorded : ∀ stream id offset, state.dedupOffset stream (some id) = some offset →
    ∃ stored, (state.messages stream)[offset]? = some stored ∧
      RecordedAt kind past stream id offset stored
  published : ∀ before logId next stream key payload publishedAtMs id offset,
    (before, .publish stream key payload publishedAtMs (some id), logId) ∈ past →
    applyCommand before (.publish stream key payload publishedAtMs (some id)) kind logId =
      some (next, .published offset) →
    state.dedupOffset stream (some id) = some offset

variable {stream id : String} {offset : ℕ}

theorem RecordedAt.mono {stored : StoredMessage}
    (h : RecordedAt kind past stream id offset stored) (step : SnapshotState × Command × LogId) :
    RecordedAt kind (step :: past) stream id offset stored := by
  obtain ⟨before, entry, next, hmem, hrest⟩ := h
  exact ⟨before, entry, next, List.mem_cons_of_mem _ hmem, hrest⟩

theorem dedupOffset_kept {response : CommandResponse} (hwf : state.WellFormed)
    (happly : applyCommand state entry.1 kind entry.2 = some (after, response))
    (h : state.dedupOffset stream (some id) = some offset) :
    after.dedupOffset stream (some id) = some offset := by
  obtain hsame | ⟨stream', id', stored, hrecords⟩ := applyCommand_dedup hwf happly
  · rw [dedupOffset_congr hsame, h]
  · rw [dedupOffset_record hrecords.dedup, if_neg, h]
    rintro ⟨rfl, rfl⟩
    rw [hrecords.fresh] at h
    cases h

theorem PublishInvariant.dedupOffset_of_published (h : PublishInvariant kind past state)
    {logId : LogId} {key : Option String} {payload : Bytes}
    {publishedAtMs : ℕ}
    (happly : applyCommand state (.publish stream key payload publishedAtMs (some id)) kind logId =
      some (after, .published offset)) :
    after.dedupOffset stream (some id) = some offset := by
  have hpublish : applyPublish state stream key payload publishedAtMs (some id) kind =
      (after, .published offset) := Option.some.inj happly
  cases hrecorded : state.dedupOffset stream (some id) with
  | none =>
    obtain ⟨-, hresponse⟩ | ⟨hresponse, -, hdedup⟩ := applyPublish_of_fresh hrecorded hpublish
    · cases hresponse
    · obtain rfl : offset = (state.messages stream).length :=
        CommandResponse.published.inj hresponse
      rw [dedupOffset_record hdedup, if_pos ⟨rfl, rfl⟩]
  | some found =>
    obtain rfl := applyPublish_state_of_recorded hrecorded hpublish
    obtain ⟨existing, hget, -⟩ := h.recorded stream id found hrecorded
    have hkind : kind ≠ .metadata := by
      rintro rfl
      rw [applyPublish, if_pos rfl] at hpublish
      cases (Prod.mk.inj hpublish).2
    rw [applyPublish_of_recorded hkind hrecorded hget] at hpublish
    have hresponse := (Prod.mk.inj hpublish).2
    split_ifs at hresponse
    rw [hrecorded, CommandResponse.published.inj hresponse]

theorem PublishInvariant.step (h : PublishInvariant kind past state)
    (hstep : ApplyStep kind state entry after) :
    PublishInvariant kind ((state, entry) :: past) after := by
  have heffect := hstep.effect h.wellFormed
  obtain ⟨response, happly⟩ := hstep
  refine ⟨heffect.wellFormed h.wellFormed, ?_, ?_, ?_⟩
  · intro earlier hmem stream
    rcases List.mem_cons.1 hmem with rfl | hmem
    · exact heffect.messages_grow stream
    · exact (h.grown earlier hmem stream).trans (heffect.messages_grow stream)
  · intro stream id offset hoffset
    have hold : state.dedupOffset stream (some id) = some offset →
        ∃ stored, (after.messages stream)[offset]? = some stored ∧
          RecordedAt kind ((state, entry) :: past) stream id offset stored := by
      intro hbefore
      obtain ⟨stored, hget, hrecorded⟩ := h.recorded stream id offset hbefore
      obtain ⟨more, hmore⟩ := heffect.messages_grow stream
      refine ⟨stored, ?_, hrecorded.mono _⟩
      rw [← hmore, List.getElem?_append_left (List.getElem?_eq_some_iff.1 hget).1, hget]
    obtain hsame | ⟨stream', id', stored, hrecords⟩ := applyCommand_dedup h.wellFormed happly
    · exact hold (dedupOffset_congr hsame stream (some id) ▸ hoffset)
    · rw [dedupOffset_record hrecords.dedup] at hoffset
      split_ifs at hoffset with hnew
      · obtain ⟨rfl, rfl⟩ := hnew
        obtain rfl := Option.some.inj hoffset
        have hresponse := hrecords.response
        subst hresponse
        refine ⟨stored, ?_, state, entry, after, List.mem_cons_self, happly, rfl, hrecords⟩
        rw [hrecords.messages]
        simp
      · exact hold hoffset
  · intro before logId next stream key payload publishedAtMs id offset hmem hpublish
    rcases List.mem_cons.1 hmem with heq | hmem
    · obtain ⟨rfl, rfl⟩ := Prod.mk.inj heq
      obtain ⟨rfl, rfl⟩ := applied_inj hpublish happly
      exact h.dedupOffset_of_published hpublish
    · exact dedupOffset_kept h.wellFormed happly
        (h.published before logId next stream key payload publishedAtMs id offset hmem hpublish)

theorem publishInvariant_run (h : Run Empty (ApplyStep kind) past state) :
    PublishInvariant kind past state := by
  apply h.history_invariant
  · rintro _ rfl
    refine ⟨?_, by simp, ?_, by simp⟩
    · intro key consumer hget
      simp at hget
    · intro stream id offset hoffset
      simp [SnapshotState.dedupOffset] at hoffset
  · intro past state entry after hinvariant hstep
    exact hinvariant.step hstep

end Runs

/-- In every history of a data group: streams only grow; a recorded identity names the record
that the publish which recorded it stored, and every further publish of the identity gets that
record's offset or the conflict and changes nothing; publishes of one identity that report an
offset report the same one. -/
theorem publish_idempotent [ToString LogId] {source streamId groupId : String}
    {past : List (SnapshotState × Command × LogId)} {state : SnapshotState}
    (h : Run Empty (ApplyStep (.data source streamId groupId)) past state) :
    (∀ earlier ∈ past, ∀ stream, earlier.1.messages stream <+: state.messages stream) ∧
    (∀ stream id offset, state.dedupOffset stream (some id) = some offset →
      ∃ stored, (state.messages stream)[offset]? = some stored ∧
        RecordedAt (.data source streamId groupId) past stream id offset stored ∧
        ∀ key payload publishedAtMs logId,
          applyCommand state (.publish stream key payload publishedAtMs (some id))
              (.data source streamId groupId) logId =
            some (state, if key.getD "" = stored.key.getD "" ∧ payload = stored.payload
              then .published offset else .requestIdContentConflict)) ∧
    ∀ stream id (first second : SnapshotState × Command × LogId) (next next' : SnapshotState)
        (key key' : Option String) (payload payload' : Bytes) (time time' offset offset' : ℕ),
      first ∈ past → second ∈ past →
      first.2.1 = .publish stream key payload time (some id) →
      second.2.1 = .publish stream key' payload' time' (some id) →
      applyCommand first.1 first.2.1 (.data source streamId groupId) first.2.2 =
        some (next, .published offset) →
      applyCommand second.1 second.2.1 (.data source streamId groupId) second.2.2 =
        some (next', .published offset') →
      offset = offset' := by
  have hinvariant := publishInvariant_run h
  refine ⟨hinvariant.grown, ?_, ?_⟩
  · intro stream id offset hoffset
    obtain ⟨stored, hget, hrecorded⟩ := hinvariant.recorded stream id offset hoffset
    refine ⟨stored, hget, hrecorded, ?_⟩
    intro key payload publishedAtMs logId
    exact congrArg some (applyPublish_of_recorded (by simp) hoffset hget)
  · rintro stream id ⟨before, _, logId⟩ ⟨before', _, logId'⟩ next next' key key' payload payload'
      time time' offset offset' hfirst hsecond rfl rfl hpublished hpublished'
    have hone := hinvariant.published before logId next stream key payload time id offset hfirst
      hpublished
    have htwo := hinvariant.published before' logId' next' stream key' payload' time' id offset'
      hsecond hpublished'
    exact Option.some.inj (hone.symm.trans htwo)

section Examples

open scoped LogId.Display

def requestHistory : List (Command × LogId) :=
  [(.initializeDataStream "jobs" "stream/jobs" "group/jobs/data", ⟨1, 1, 1⟩),
   (.publish "jobs" none [7] 3 (some "r1"), ⟨1, 1, 2⟩)]

/-- The same request again, with an empty key in place of none, gets the offset of the first. -/
theorem repeated_request_unchanged :
    ∃ past state, Run Empty (ApplyStep (.data "jobs" "stream/jobs" "group/jobs/data")) past state ∧
      state.dedupOffset "jobs" (some "r1") = some 0 ∧
      applyCommand state (.publish "jobs" (some "") [7] 9 (some "r1"))
          (.data "jobs" "stream/jobs" "group/jobs/data") ⟨1, 1, 3⟩ =
            some (state, .published 0) := by
  have hsome : (applyAll (.data "jobs" "stream/jobs" "group/jobs/data") requestHistory {}).any
      (fun state => state.dedupOffset "jobs" (some "r1") = some 0 ∧
        (state.messages "jobs")[0]? = some ⟨none, [7], 3⟩) := by
    decide +kernel
  obtain ⟨state, hstate, hfacts⟩ := Option.any_eq_true _ _ |>.1 hsome
  obtain ⟨hoffset, hfirst⟩ := of_decide_eq_true hfacts
  obtain ⟨past, hrun⟩ := reachable_of_applyAll hstate
  obtain ⟨stored, hget, -, hrepeat⟩ :=
    (publish_idempotent hrun).2.1 "jobs" "r1" 0 hoffset
  obtain rfl := Option.some.inj (hfirst.symm.trans hget)
  exact ⟨past, state, hrun, hoffset, hrepeat (some "") [7] 9 ⟨1, 1, 3⟩⟩

end Examples

end Runnel.Cluster
