import Runnel.Foundation.Text
import Runnel.Cluster.Apply
import Runnel.Cluster.Invariant

/-!
# What the group commands do to the state

Every group command observes the clock and the expired leases of one consumer
first. A poll then moves exhausted records to the dead-letter stream and assigns
records in their turn; an acknowledgement acknowledges some offsets.
-/

namespace Runnel.Cluster

open Runnel.Engine GroupConsumerState

namespace SnapshotState

/-- Every consumer fits the messages of its stream. -/
def WellFormed (state : SnapshotState) : Prop :=
  ∀ (key : ConsumerKey) (consumer : GroupConsumerState),
    state.groupConsumers[key]? = some consumer → Cluster.WellFormed (state.messages key.1) consumer

/-- The consumer a group command works on, created from the scalar progress on first use. -/
def consumerOf (state : SnapshotState) (key : ConsumerKey) : GroupConsumerState :=
  (state.groupConsumers[key]?).getD { committedOffset := (state.consumers[key]?).getD 0 }

variable {state : SnapshotState}

theorem WellFormed.consumerOf (h : state.WellFormed) (key : ConsumerKey) :
    Cluster.WellFormed (state.messages key.1) (state.consumerOf key) := by
  unfold SnapshotState.consumerOf
  cases hget : state.groupConsumers[key]? with
  | none => exact Cluster.WellFormed.initial _ _
  | some consumer => exact h key consumer hget

theorem WellFormed.setConsumer (h : state.WellFormed) {key : ConsumerKey}
    {consumer : GroupConsumerState} (hnew : Cluster.WellFormed (state.messages key.1) consumer) :
    (state.setConsumer key consumer).WellFormed := by
  intro other consumer' hget
  simp only [SnapshotState.setConsumer, Std.ExtTreeMap.getElem?_insert,
    Std.LawfulEqCmp.compare_eq_iff_eq] at hget
  split_ifs at hget with heq
  · subst heq
    rw [← Option.some.inj hget]
    exact hnew
  · exact h other consumer' hget

theorem WellFormed.grow {before after : SnapshotState} (h : before.WellFormed)
    (hconsumers : after.groupConsumers = before.groupConsumers)
    (hgrow : ∀ stream, before.messages stream <+: after.messages stream) : after.WellFormed := by
  intro key consumer hget
  rw [hconsumers] at hget
  obtain ⟨more, hmore⟩ := hgrow key.1
  rw [← hmore]
  exact (h key consumer hget).append more

theorem setConsumer_getElem? (state : SnapshotState) (key other : ConsumerKey)
    (consumer : GroupConsumerState) :
    (state.setConsumer key consumer).groupConsumers[other]? =
      if key = other then some consumer else state.groupConsumers[other]? := by
  simp [SnapshotState.setConsumer, Std.ExtTreeMap.getElem?_insert]

@[simp] theorem setConsumer_getElem?_self (state : SnapshotState) (key : ConsumerKey)
    (consumer : GroupConsumerState) :
    (state.setConsumer key consumer).groupConsumers[key]? = some consumer := by
  simp [setConsumer_getElem?]

theorem setConsumer_self {key : ConsumerKey}
    {consumer : GroupConsumerState} (h : state.groupConsumers[key]? = some consumer) :
    state.setConsumer key consumer = state := by
  have hmap : state.groupConsumers.insert key consumer = state.groupConsumers := by
    refine Std.ExtTreeMap.ext_getElem? fun other => ?_
    rw [Std.ExtTreeMap.getElem?_insert]
    split_ifs with heq
    · rw [← Std.LawfulEqCmp.eq_of_compare heq, h]
    · rfl
  rw [SnapshotState.setConsumer, hmap]

theorem setConsumer_setConsumer (state : SnapshotState) (key : ConsumerKey)
    (first second : GroupConsumerState) :
    (state.setConsumer key first).setConsumer key second = state.setConsumer key second := by
  have hmap : (state.groupConsumers.insert key first).insert key second =
      state.groupConsumers.insert key second := by
    refine Std.ExtTreeMap.ext_getElem? fun other => ?_
    simp only [Std.ExtTreeMap.getElem?_insert]
    split_ifs <;> rfl
  rw [SnapshotState.setConsumer, SnapshotState.setConsumer, hmap]
  rfl

theorem messages_of_getElem? {stream : String} {streamState : StreamState}
    (h : state.streams[stream]? = some streamState) :
    state.messages stream = streamState.messages := by
  simp [messages, h]

theorem streamActive_iff {stream : String} :
    state.streamActive stream = true ↔
      ∃ streamState, state.streams[stream]? = some streamState ∧ streamState.isActive = true := by
  simp [streamActive, Option.any_eq_true]

end SnapshotState

variable {state : SnapshotState}

/-- The state after a group command observed the clock and a consumer's expired leases. -/
theorem openConsumer_spec (h : state.WellFormed) (key : ConsumerKey)
    (nowMs : ℕ) (legacyPolicy : ConsumerPolicy) :
    ∃ consumer, state.openConsumer key nowMs legacyPolicy =
        some ((observeLeaseClock state nowMs).setConsumer key consumer) ∧
      Released (max state.leaseClockMs nowMs) (state.consumerOf key) consumer := by
  obtain ⟨consumer, hconsumer, hreleased⟩ := observeExpiredDeliveries_spec (state.consumerOf key)
    (max state.leaseClockMs nowMs) legacyPolicy
    (fun offset hmem => (h.consumerOf key).pinned_of_mem
      ((h.consumerOf key).attempted_of_inFlight hmem))
  have hget : ((observeLeaseClock state nowMs).ensureConsumer key).groupConsumers[key]? =
      some (state.consumerOf key) := by
    unfold SnapshotState.ensureConsumer SnapshotState.consumerOf
    by_cases hmem : key ∈ state.groupConsumers
    · simp [observeLeaseClock, hmem]
    · simp [observeLeaseClock, hmem]
  have hset : ((observeLeaseClock state nowMs).ensureConsumer key).setConsumer key consumer =
      (observeLeaseClock state nowMs).setConsumer key consumer := by
    unfold SnapshotState.ensureConsumer
    split_ifs
    · rfl
    · exact SnapshotState.setConsumer_setConsumer _ _ _ _
  refine ⟨consumer, ?_, hreleased⟩
  rw [SnapshotState.openConsumer, SnapshotState.observeExpiredDeliveries, hget]
  simp only [Option.bind_eq_bind, Option.bind_some, Option.pure_def]
  rw [show (observeLeaseClock state nowMs).leaseClockMs = max state.leaseClockMs nowMs from rfl,
    hconsumer, Option.bind_some, hset]

theorem SnapshotState.WellFormed.observeLeaseClock (h : state.WellFormed) (nowMs : ℕ) :
    (Cluster.observeLeaseClock state nowMs).WellFormed :=
  h.grow rfl (fun _ => List.prefix_refl _)

/-- A stream that is not itself a dead-letter stream does not receive its own records. -/
theorem deadLetterStreamName_ne {stream : String}
    (hlive : isDeadLetterStream state stream = false) (hmem : stream ∈ state.streams) :
    deadLetterStreamName stream ≠ stream := by
  intro heq
  have hkeys : state.streams.keys.any
      (fun source => decide (deadLetterStreamName source = stream)) = true :=
    List.any_eq_true.2 ⟨stream, Std.ExtTreeMap.mem_keys.2 hmem, by simpa using heq⟩
  unfold isDeadLetterStream at hlive
  rw [hkeys] at hlive
  unfold deadLetterStreamName at heq
  dsimp only at heq
  split_ifs at heq hlive with hshort
  · have hlen := congrArg String.length heq
    simp [deadLetterSuffix] at hlen
  · rename_i hsuffix hgrow
    rw [← heq, String.toList_append,
      List.isPrefixOf_iff_prefix.2 (List.prefix_append _ _)] at hgrow
    simp at hgrow

theorem utf8ByteSize_hashed_le (hash : UInt64) :
    (deadLetterHashPrefix ++ hex16 hash.toNat).utf8ByteSize ≤ 83 := by
  have hhex := utf8ByteSize_hex16_le hash
  have hfront : deadLetterHashPrefix.utf8ByteSize = 19 := by decide
  rw [String.utf8ByteSize_append, hfront]
  omega

/-- Deriving a name twice does not lead back: a hashed name is short enough to be derived
from by its suffix. -/
theorem deadLetterStreamName_twice_ne {stream : String}
    (hsuffix : deadLetterSuffix.toList.isSuffixOf stream.toList = false) :
    deadLetterStreamName (deadLetterStreamName stream) ≠ stream := by
  intro heq
  have hlong : deadLetterSuffix.utf8ByteSize = 12 := by decide
  have hshort : (deadLetterStreamName stream ++ deadLetterSuffix).utf8ByteSize ≤ 128 := by
    rw [String.utf8ByteSize_append, hlong]
    by_contra hover
    have hstream : stream.utf8ByteSize ≤ 83 := by
      rw [← heq, deadLetterStreamName]
      simp only [String.utf8ByteSize_append, hlong, hover, if_false]
      rw [← String.utf8ByteSize_append]
      exact utf8ByteSize_hashed_le _
    have hname : (deadLetterStreamName stream).utf8ByteSize ≤ 95 := by
      rw [deadLetterStreamName]
      simp only [String.utf8ByteSize_append, hlong, show stream.utf8ByteSize + 12 ≤ 128 by omega,
        if_true]
      omega
    omega
  rw [deadLetterStreamName] at heq
  simp only [hshort, if_true] at heq
  rw [← heq, String.toList_append,
    List.isSuffixOf_iff_suffix.2 (List.suffix_append _ _)] at hsuffix
  cases hsuffix

structure MovedToDeadLetter (key : ConsumerKey) (offset : ℕ) (before after : SnapshotState) :
    Prop where
  consumer : ∃ consumer, before.groupConsumers[key]? = some consumer ∧
    after.groupConsumers =
      (before.setConsumer key (consumer.acknowledgeGroupOffset offset)).groupConsumers
  moved : ∃ original, (before.messages key.1)[offset]? = some original ∧
    after.messages (deadLetterStreamName key.1) =
      before.messages (deadLetterStreamName key.1) ++ [original]
  other : ∀ stream, stream ≠ deadLetterStreamName key.1 →
    after.streams[stream]? = before.streams[stream]?
  target : ∀ streamState, after.streams[deadLetterStreamName key.1]? = some streamState →
    streamState.lifecycle =
      (before.streams[deadLetterStreamName key.1]?).elim .active StreamState.lifecycle
  consumers : after.consumers = before.consumers
  clock : after.leaseClockMs = before.leaseClockMs

variable {offset : ℕ} {consumer : GroupConsumerState}

theorem moveToDeadLetter_spec {key : ConsumerKey} {original : StoredMessage}
    (hconsumer : state.groupConsumers[key]? = some consumer)
    (horiginal : (state.messages key.1)[offset]? = some original) :
    ∃ after, state.moveToDeadLetter key offset = some after ∧
      MovedToDeadLetter key offset state after := by
  cases hstream : state.streams[key.1]? with
  | none => simp [SnapshotState.messages, hstream] at horiginal
  | some streamState =>
    have hget : streamState.messages[offset]? = some original := by
      rwa [SnapshotState.messages_of_getElem? hstream] at horiginal
    refine ⟨_, by simp [SnapshotState.moveToDeadLetter, hstream, hget, hconsumer]; rfl, ?_⟩
    refine ⟨⟨consumer, hconsumer, rfl⟩, ⟨original, horiginal, ?_⟩, ?_, ?_, rfl, rfl⟩
    · simp only [SnapshotState.messages, Std.ExtTreeMap.getElem?_insert_self, Option.elim_some]
      cases state.streams[deadLetterStreamName key.1]? <;> rfl
    · intro other hne
      simp [Std.ExtTreeMap.getElem?_insert, Ne.symm hne]
    · intro target htarget
      rw [Std.ExtTreeMap.getElem?_insert_self, Option.some.injEq] at htarget
      rw [← htarget]
      cases state.streams[deadLetterStreamName key.1]? <;> rfl

/-- What a poll decides by: the clock, the fallback policy and the policy version it saw. -/
structure PollTerms where
  nowMs : ℕ
  legacyPolicy : ConsumerPolicy
  policyVersion : Option ℕ

/-- The offset has used up the attempts its policy allows. -/
def GroupConsumerState.exhaustedAt (consumer : GroupConsumerState) (terms : PollTerms)
    (offset : ℕ) : Bool :=
  (consumer.groupPolicyForOffset offset (consumer.attempts offset) terms.legacyPolicy
    terms.policyVersion).any (·.exhausted (consumer.attempts offset))

/-- Exhausted records leave for the dead-letter stream one after the other, each in its turn. -/
inductive DeadLettered (key : ConsumerKey) (terms : PollTerms) :
    SnapshotState → List ℕ → SnapshotState → Prop
  | done (state : SnapshotState) : DeadLettered key terms state [] state
  | move {state next after : SnapshotState} {consumer : GroupConsumerState} {offset : ℕ}
      {offsets : List ℕ} :
      state.groupConsumers[key]? = some consumer →
      InTurn (state.messages key.1) consumer offset →
      offset ∉ consumer.inFlight →
      offset ∉ (consumer.retryFilter terms.nowMs).1 →
      consumer.exhaustedAt terms offset = true →
      isDeadLetterStream state key.1 = false →
      MovedToDeadLetter key offset state next →
      DeadLettered key terms next offsets after →
      DeadLettered key terms state (offset :: offsets) after

namespace MovedToDeadLetter

variable {key : ConsumerKey} {offset : ℕ} {before after : SnapshotState}

theorem messages_grow (h : MovedToDeadLetter key offset before after) (stream : String) :
    before.messages stream <+: after.messages stream := by
  by_cases hstream : stream = deadLetterStreamName key.1
  · obtain ⟨original, -, hmoved⟩ := h.moved
    rw [hstream, hmoved]
    exact List.prefix_append _ _
  · rw [SnapshotState.messages, SnapshotState.messages, h.other stream hstream]

theorem stream_eq (h : MovedToDeadLetter key offset before after)
    (hlive : isDeadLetterStream before key.1 = false) :
    after.streams[key.1]? = before.streams[key.1]? := by
  have hmem : key.1 ∈ before.streams := by
    obtain ⟨original, horiginal, -⟩ := h.moved
    by_contra hnot
    simp [SnapshotState.messages, Std.ExtTreeMap.getElem?_eq_none hnot] at horiginal
  exact h.other key.1 (Ne.symm (deadLetterStreamName_ne hlive hmem))

theorem isDeadLetterStream_eq (h : MovedToDeadLetter key offset before after)
    (hlive : isDeadLetterStream before key.1 = false) :
    isDeadLetterStream after key.1 = false := by
  unfold isDeadLetterStream at hlive ⊢
  split_ifs at hlive ⊢ with hsuffix hgrow
  · rfl
  · rw [List.any_eq_false] at hlive ⊢
    intro source hsource
    by_cases hname : source = deadLetterStreamName key.1
    · rw [hname, decide_eq_true_eq]
      exact deadLetterStreamName_twice_ne (Bool.eq_false_of_not_eq_true hsuffix)
    · apply hlive source
      rw [Std.ExtTreeMap.mem_keys, Std.ExtTreeMap.mem_iff_isSome_getElem?] at hsource ⊢
      rwa [h.other source hname] at hsource

theorem wellFormed (h : MovedToDeadLetter key offset before after) (hwf : before.WellFormed) :
    after.WellFormed := by
  obtain ⟨consumer, hget, hconsumers⟩ := h.consumer
  have hset := hwf.setConsumer ((hwf key consumer hget).acknowledge offset)
  exact hset.grow hconsumers h.messages_grow

end MovedToDeadLetter

namespace DeadLettered

variable {key : ConsumerKey} {terms : PollTerms} {before after : SnapshotState}
  {offsets : List ℕ}

theorem wellFormed (h : DeadLettered key terms before offsets after) (hwf : before.WellFormed) :
    after.WellFormed := by
  induction h with
  | done => exact hwf
  | move _ _ _ _ _ _ hmoved _ ih => exact ih (hmoved.wellFormed hwf)

theorem messages_grow (h : DeadLettered key terms before offsets after) (stream : String) :
    before.messages stream <+: after.messages stream := by
  induction h with
  | done => exact List.prefix_refl _
  | move _ _ _ _ _ _ hmoved _ ih => exact (hmoved.messages_grow stream).trans ih

theorem stream_eq (h : DeadLettered key terms before offsets after) :
    after.streams[key.1]? = before.streams[key.1]? := by
  induction h with
  | done => rfl
  | move _ _ _ _ _ hlive hmoved _ ih => exact ih.trans (hmoved.stream_eq hlive)

theorem groupConsumers_eq (h : DeadLettered key terms before offsets after)
    {consumer : GroupConsumerState} (hget : before.groupConsumers[key]? = some consumer) :
    after.groupConsumers =
      (before.setConsumer key (offsets.foldl acknowledgeGroupOffset consumer)).groupConsumers := by
  induction h generalizing consumer with
  | done state => rw [List.foldl_nil, SnapshotState.setConsumer_self hget]
  | @move state next after consumer' offset offsets hget' _ _ _ _ _ hmoved _ ih =>
    obtain ⟨consumer'', hget'', hconsumers⟩ := hmoved.consumer
    obtain rfl : consumer'' = consumer := Option.some.inj (hget''.symm.trans hget)
    have hnext : next.groupConsumers[key]? = some (consumer''.acknowledgeGroupOffset offset) := by
      rw [hconsumers]
      exact SnapshotState.setConsumer_getElem?_self _ _ _
    rw [ih hnext, List.foldl_cons]
    simp only [SnapshotState.setConsumer, hconsumers]
    exact congrArg SnapshotState.groupConsumers
      (SnapshotState.setConsumer_setConsumer state key _ _)

theorem consumers_eq (h : DeadLettered key terms before offsets after) :
    after.consumers = before.consumers := by
  induction h with
  | done => rfl
  | move _ _ _ _ _ _ hmoved _ ih => exact ih.trans hmoved.consumers

theorem leaseClockMs_eq (h : DeadLettered key terms before offsets after) :
    after.leaseClockMs = before.leaseClockMs := by
  induction h with
  | done => rfl
  | move _ _ _ _ _ _ hmoved _ ih => exact ih.trans hmoved.clock

theorem moved (h : DeadLettered key terms before offsets after) :
    ∃ moved, after.messages (deadLetterStreamName key.1) =
        before.messages (deadLetterStreamName key.1) ++ moved ∧
      offsets.map (fun offset => (before.messages key.1)[offset]?) = moved.map some := by
  induction h with
  | done => exact ⟨[], by simp, rfl⟩
  | move _ _ _ _ _ hlive hmoved _ ih =>
    obtain ⟨original, horiginal, happend⟩ := hmoved.moved
    obtain ⟨rest, hrest, hall⟩ := ih
    rw [SnapshotState.messages, hmoved.stream_eq hlive, ← SnapshotState.messages] at hall
    exact ⟨original :: rest, by rw [hrest, happend, List.append_assoc, List.singleton_append],
      by rw [List.map_cons, List.map_cons, hall, horiginal]⟩

end DeadLettered

theorem moveToDeadLetter_moved {next : SnapshotState} {key : ConsumerKey}
    (h : state.moveToDeadLetter key offset = some next) :
    MovedToDeadLetter key offset state next ∧ next.dedup = state.dedup ∧
      next.deadLetters = satAdd64 state.deadLetters 1 := by
  have hcopy := h
  simp only [SnapshotState.moveToDeadLetter, Option.bind_eq_bind, Option.bind_eq_some_iff,
    Option.pure_def, Option.some.injEq] at h
  obtain ⟨streamState, hstream, original, horiginal, consumer, hconsumer, rfl⟩ := h
  have hmessage : (state.messages key.1)[offset]? = some original := by
    rw [SnapshotState.messages_of_getElem? hstream, horiginal]
  obtain ⟨after, hafter, hmoved⟩ := moveToDeadLetter_spec hconsumer hmessage
  rw [hcopy] at hafter
  obtain rfl := Option.some.inj hafter
  exact ⟨hmoved, rfl, rfl⟩

/-- Dead-lettering by the state machine's own move, which also keeps the counters. -/
inductive Moves (key : ConsumerKey) (terms : PollTerms) :
    SnapshotState → List ℕ → SnapshotState → Prop
  | done (state : SnapshotState) : Moves key terms state [] state
  | move {state next after : SnapshotState} {consumer : GroupConsumerState} {offset : ℕ}
      {offsets : List ℕ} :
      state.groupConsumers[key]? = some consumer →
      InTurn (state.messages key.1) consumer offset →
      offset ∉ consumer.inFlight →
      offset ∉ (consumer.retryFilter terms.nowMs).1 →
      consumer.exhaustedAt terms offset = true →
      isDeadLetterStream state key.1 = false →
      state.moveToDeadLetter key offset = some next →
      Moves key terms next offsets after →
      Moves key terms state (offset :: offsets) after

namespace Moves

variable {key : ConsumerKey} {terms : PollTerms} {before middle after : SnapshotState}
  {offsets others : List ℕ} {consumer : GroupConsumerState}

theorem deadLettered (h : Moves key terms before offsets after) :
    DeadLettered key terms before offsets after := by
  induction h with
  | done => exact .done _
  | move hget hturn hflight hretry hexhausted hlive hmove _ ih =>
    exact .move hget hturn hflight hretry hexhausted hlive (moveToDeadLetter_moved hmove).1 ih

theorem trans (h : Moves key terms before offsets middle)
    (h' : Moves key terms middle others after) :
    Moves key terms before (offsets ++ others) after := by
  induction h with
  | done => exact h'
  | move hget hturn hflight hretry hexhausted hlive hmove _ ih =>
    exact .move hget hturn hflight hretry hexhausted hlive hmove (ih h')

theorem dedup_eq (h : Moves key terms before offsets after) : after.dedup = before.dedup := by
  induction h with
  | done => rfl
  | move _ _ _ _ _ _ hmove _ ih => exact ih.trans (moveToDeadLetter_moved hmove).2.1

theorem pending (h : Moves key terms before offsets after)
    (hget : before.groupConsumers[key]? = some consumer) :
    offsets.Nodup ∧ ∀ offset ∈ offsets, ¬ consumer.Acknowledged offset := by
  induction h generalizing consumer with
  | done => exact ⟨.nil, by simp⟩
  | @move state next after current offset offsets hcurrent hturn _ _ _ _ hmove _ ih =>
    obtain rfl : current = consumer := Option.some.inj (hcurrent.symm.trans hget)
    obtain ⟨found, hfound, hconsumers⟩ := (moveToDeadLetter_moved hmove).1.consumer
    obtain rfl : found = current := Option.some.inj (hfound.symm.trans hget)
    have hnext : next.groupConsumers[key]? = some (found.acknowledgeGroupOffset offset) := by
      rw [hconsumers]
      exact SnapshotState.setConsumer_getElem?_self _ _ _
    obtain ⟨hnodup, hrest⟩ := ih hnext
    have hspec := acknowledgeGroupOffset_spec found offset
    refine ⟨List.nodup_cons.2 ⟨?_, hnodup⟩, List.forall_mem_cons.2 ⟨hturn.pending, ?_⟩⟩
    · intro hmem
      exact hrest offset hmem ((hspec.acknowledged_iff offset).2 (Or.inr rfl))
    · intro other hother hacked
      exact hrest other hother ((hspec.acknowledged_iff other).2 (Or.inl hacked))

theorem deadLetters_eq (h : Moves key terms before offsets after)
    (hbefore : before.deadLetters ≤ u64Max) :
    after.deadLetters = min (before.deadLetters + offsets.length) u64Max := by
  induction h with
  | done => simp [hbefore]
  | @move state next after _ offset offsets _ _ _ _ _ _ hmove _ ih =>
    obtain ⟨-, -, hcount⟩ := moveToDeadLetter_moved hmove
    have hnext : next.deadLetters = min (state.deadLetters + 1) u64Max := hcount
    rw [ih (hnext ▸ Nat.min_le_right _ _), hnext, List.length_cons]
    omega

end Moves

/-- One record on its way to a member. -/
structure Assignment where
  offset : ℕ
  policy : ConsumerPolicy
  delivery : GroupDelivery

def assignAll (consumer : GroupConsumerState) (assignments : List Assignment) :
    GroupConsumerState :=
  assignments.foldl (fun consumer a =>
    consumer.assign a.offset a.delivery.deliveryAttempt a.policy a.delivery) consumer

/-- The assignment is the consumer's next one for its key, and nothing holds it back. -/
structure Assignable (messages : List StoredMessage) (consumer : GroupConsumerState) (nowMs : ℕ)
    (a : Assignment) : Prop where
  inTurn : InTurn messages consumer a.offset
  attempt_pos : 0 < a.delivery.deliveryAttempt
  attempt_le : a.delivery.deliveryAttempt ≤ u32Max
  key : a.delivery.key = keyAt messages a.offset
  notInFlight : a.offset ∉ consumer.inFlight
  notWaiting : a.offset ∉ (consumer.retryFilter nowMs).1
  keyFree : ∀ key, a.delivery.key = some key →
    key ∉ (consumer.retryFilter nowMs).2 ∧ ¬ consumer.keyInFlight key = true

variable {messages : List StoredMessage}

theorem inTurn_of_candidate
    (hwf : WellFormed messages consumer) {nowMs : ℕ} {selectedOffsets : BTreeSet ℕ}
    {selectedKeys : BTreeSet String}
    (hselected : ∀ offset ∈ selectedOffsets, ∀ key, keyAt messages offset = some key →
      key ∈ selectedKeys)
    {stored : StoredMessage}
    (h : candidate consumer messages nowMs selectedOffsets selectedKeys = some (offset, stored)) :
    InTurn messages consumer offset := by
  obtain ⟨hget, hcommitted, heligible, hleast⟩ := candidate_eq_some h
  obtain ⟨hacked, -, -, -, hkeys⟩ := eligible_iff.1 heligible
  refine ⟨(List.getElem?_eq_some_iff.1 hget).1, ?_, fun key hkey other hlt hother => ?_⟩
  · rintro (hlt | hmem)
    · omega
    · exact hacked hmem
  · by_contra hpending
    -- A pending lower offset of the key is held back by something that holds the key back too.
    obtain ⟨hselectedKey, hretryKey, hflightKey⟩ := hkeys key (by simpa [keyAt, hget] using hkey)
    obtain ⟨stored', hget', hkey'⟩ := Option.bind_eq_some_iff.1 hother
    have hfail := hleast other stored' (by
      by_contra hnot
      exact hpending (Or.inl (by omega))) hlt hget'
    refine absurd (eligible_iff.2 ⟨fun hmem => hpending (Or.inr hmem), fun hmem => ?_,
      fun hmem => ?_, fun hmem => hselectedKey (hselected other hmem key hother),
      fun key' hkey'' => ?_⟩) (by rw [hfail]; simp)
    · obtain ⟨delivery, hdelivery⟩ := mem_iff_exists_getElem?.1 hmem
      exact hflightKey (keyInFlight_iff.2
        ⟨other, delivery, hdelivery, (hwf.inFlight other delivery hdelivery).2.trans hother⟩)
    · obtain ⟨schedule, hschedule, hlater⟩ := mem_retryFilter_offsets.1 hmem
      exact hretryKey (mem_retryFilter_keys.2 ⟨other, schedule, hschedule,
        (hwf.retry other schedule hschedule).2.2.trans hother, hlater⟩)
    · obtain rfl : key' = key := Option.some.inj (hkey''.symm.trans hkey')
      exact ⟨hselectedKey, hretryKey, hflightKey⟩

theorem WellFormed.exists_policy
    (h : WellFormed messages consumer) (offset : ℕ) (legacyPolicy : ConsumerPolicy)
    (policyVersion : Option ℕ) :
    ∃ policy, consumer.groupPolicyForOffset offset (consumer.attempts offset) legacyPolicy
      policyVersion = some policy := by
  by_cases hpos : 0 < consumer.attempts offset
  · rw [groupPolicyForOffset_of_pos hpos]
    have hmem : offset ∈ consumer.deliveryAttempts := by
      by_contra hnot
      simp [GroupConsumerState.attempts, Std.ExtTreeMap.getElem?_eq_none hnot] at hpos
    exact mem_iff_exists_getElem?.1 ((h.pinned offset).1 hmem)
  · have hzero : consumer.attempts offset = 0 := by omega
    rw [hzero]
    unfold groupPolicyForOffset
    simp only [lt_irrefl, if_false, Option.bind_eq_bind, Option.bind_some, Option.pure_def, if_true]
    split_ifs <;> exact ⟨_, rfl⟩

def pendingOffsets (messages : List StoredMessage) (consumer : GroupConsumerState)
    (selectedOffsets : BTreeSet ℕ) : Finset ℕ :=
  (Finset.range messages.length).filter (fun offset =>
    ¬ consumer.Acknowledged offset ∧ offset ∉ selectedOffsets)

theorem card_pendingOffsets_le (messages : List StoredMessage) (consumer : GroupConsumerState)
    (selectedOffsets : BTreeSet ℕ) :
    (pendingOffsets messages consumer selectedOffsets).card ≤ messages.length :=
  (Finset.card_filter_le _ _).trans_eq (Finset.card_range _)

theorem card_pendingOffsets_lt {before after : GroupConsumerState} {selected selected' : BTreeSet ℕ}
    (hstored : offset < messages.length) (hpending : ¬ before.Acknowledged offset)
    (hnot : offset ∉ selected)
    (hmono : ∀ other, before.Acknowledged other → after.Acknowledged other)
    (hsub : ∀ other ∈ selected, other ∈ selected')
    (hgone : after.Acknowledged offset ∨ offset ∈ selected') :
    (pendingOffsets messages after selected').card <
      (pendingOffsets messages before selected).card := by
  refine Finset.card_lt_card ⟨fun other hmem => ?_, fun hsubset => ?_⟩
  · simp only [pendingOffsets, Finset.mem_filter] at hmem ⊢
    exact ⟨hmem.1, fun h => hmem.2.1 (hmono other h), fun h => hmem.2.2 (hsub other h)⟩
  · have hin : offset ∈ pendingOffsets messages before selected := by
      simp [pendingOffsets, hstored, hpending, hnot]
    have := hsubset hin
    simp only [pendingOffsets, Finset.mem_filter] at this
    tauto

theorem card_pendingOffsets_acknowledge {selected : BTreeSet ℕ}
    (hstored : offset < messages.length) (hpending : ¬ consumer.Acknowledged offset)
    (hnot : offset ∉ selected) :
    (pendingOffsets messages (consumer.acknowledgeGroupOffset offset) selected).card <
      (pendingOffsets messages consumer selected).card := by
  have hspec := (GroupConsumerState.acknowledgeGroupOffset_spec consumer offset).acknowledged_iff
  exact card_pendingOffsets_lt hstored hpending hnot (fun other h => (hspec other).2 (Or.inl h))
    (fun _ h => h) (Or.inl ((hspec offset).2 (Or.inr rfl)))

end Runnel.Cluster
