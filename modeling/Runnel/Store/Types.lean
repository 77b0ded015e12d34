import Runnel.Cluster.History
import Runnel.Foundation.Codec
import Runnel.Foundation.FileSystem

/-!
# Persisted forms of the state machine

What a state-machine store keeps in memory and what it writes: checkpoints,
snapshots and journal entries.
-/

namespace Runnel.Store

open Runnel.Cluster Runnel.Engine

def formatVersion : ℕ := 3

structure Membership where
  configs : List (BTreeSet ℕ) := []
  nodes : BTreeMap ℕ String := ∅

structure StoredMembership where
  logId : Option LogId := none
  membership : Membership := {}

structure StateMachineData where
  lastAppliedLog : Option LogId := none
  lastMembership : StoredMembership := {}
  state : SnapshotState := {}

inductive EntryPayload where
  | blank
  | normal (command : Command)
  | membership (membership : Membership)

structure Entry where
  logId : LogId
  payload : EntryPayload

structure SnapshotMeta where
  lastLogId : Option LogId
  lastMembership : StoredMembership
  snapshotId : String

def isLogAfter (candidate current : LogId) : Bool :=
  current.term < candidate.term ∨ (current.term = candidate.term ∧ current.index < candidate.index)

def isOptionalLogAfter : Option LogId → Option LogId → Bool
  | some candidate, some current => isLogAfter candidate current
  | some _, none => true
  | none, _ => false

structure PersistedConsumer where
  stream : String
  consumer : String
  offset : ℕ

structure PersistedGroupConsumer where
  stream : String
  consumer : String
  state : GroupConsumerState

structure PersistedSnapshotState where
  version : ℕ
  streams : BTreeMap String StreamState
  consumers : List PersistedConsumer
  groupConsumers : List PersistedGroupConsumer
  leaseClockMs : ℕ
  dedup : BTreeMap String (BTreeMap String ℕ)
  redeliveries : ℕ
  deadLetters : ℕ

/-- A checkpoint: the state together with its position. -/
structure PersistedState where
  lastAppliedLog : Option LogId
  lastMembership : StoredMembership
  body : PersistedSnapshotState

structure StoredSnapshot where
  snapshotMeta : SnapshotMeta
  data : Bytes

structure JournalEntry where
  version : ℕ
  logId : LogId
  payload : EntryPayload

def JournalEntry.fromEntry (entry : Entry) : JournalEntry where
  version := formatVersion
  logId := entry.logId
  payload := entry.payload

namespace PersistedSnapshotState

def ofState (state : SnapshotState) : PersistedSnapshotState where
  version := formatVersion
  streams := state.streams
  consumers := state.consumers.toList.map fun entry => ⟨entry.1.1, entry.1.2, entry.2⟩
  groupConsumers := state.groupConsumers.toList.map fun entry => ⟨entry.1.1, entry.1.2, entry.2⟩
  leaseClockMs := state.leaseClockMs
  dedup := state.dedup
  redeliveries := state.redeliveries
  deadLetters := state.deadLetters

/-- The state of a persisted one; a later entry of a consumer replaces an earlier one. -/
def toState (persisted : PersistedSnapshotState) : SnapshotState where
  streams := persisted.streams
  consumers := Std.ExtTreeMap.ofList
    (persisted.consumers.map fun entry => ((entry.stream, entry.consumer), entry.offset))
  groupConsumers := Std.ExtTreeMap.ofList
    (persisted.groupConsumers.map fun entry => ((entry.stream, entry.consumer), entry.state))
  leaseClockMs := persisted.leaseClockMs
  dedup := persisted.dedup
  redeliveries := persisted.redeliveries
  deadLetters := persisted.deadLetters

end PersistedSnapshotState

namespace PersistedState

def ofData (data : StateMachineData) : PersistedState where
  lastAppliedLog := data.lastAppliedLog
  lastMembership := data.lastMembership
  body := .ofState data.state

def toData (persisted : PersistedState) : StateMachineData where
  lastAppliedLog := persisted.lastAppliedLog
  lastMembership := persisted.lastMembership
  state := persisted.body.toState

end PersistedState

theorem toState_ofState (state : SnapshotState) :
    (PersistedSnapshotState.ofState state).toState = state := by
  simp only [PersistedSnapshotState.toState, PersistedSnapshotState.ofState, List.map_map,
    Function.comp_def, Prod.mk.eta, List.map_id', ofList_toList]

theorem toData_ofData (data : StateMachineData) : (PersistedState.ofData data).toData = data := by
  rw [PersistedState.ofData, PersistedState.toData, toState_ofState]

/-- The delivery state of a consumer is coherent. -/
def validatePinnedPolicies (consumer : GroupConsumerState) : Except String Unit :=
  if consumer.deliveryAttempts.keys ≠ consumer.deliveryPolicies.keys then
    .error "delivery attempts and pinned policies must have identical offsets"
  else if consumer.deliveryAttempts.toList.any fun entry => entry.2 = 0 then
    .error "delivery attempts must be positive"
  else if consumer.inFlight.toList.any fun entry =>
      consumer.deliveryAttempts[entry.1]? ≠ some entry.2.deliveryAttempt then
    .error "in-flight delivery must match its pinned attempt"
  else if consumer.retryNotBefore.keys.any fun offset =>
      offset ∉ consumer.deliveryAttempts ∨ offset ∈ consumer.inFlight then
    .error "retry schedule must belong to a non-in-flight attempted offset"
  else if consumer.inFlight.keys.any (· < consumer.committedOffset) ∨
      consumer.deliveryAttempts.keys.any (· < consumer.committedOffset) then
    .error "uncommitted delivery state must be at or after the committed offset"
  else .ok ()

def validateGroupConsumerEntries :
    List (String × String × GroupConsumerState) → Except String Unit
  | [] => .ok ()
  | (stream, consumer, state) :: rest =>
    match validatePinnedPolicies state with
    | .error error => .error s!"consumer '{stream}/{consumer}': {error}"
    | .ok () => validateGroupConsumerEntries rest

theorem validatePinnedPolicies_of_wellFormed {messages : List StoredMessage}
    {consumer : GroupConsumerState} (h : WellFormed messages consumer) :
    validatePinnedPolicies consumer = .ok () := by
  have hkeys : consumer.deliveryAttempts.keys = consumer.deliveryPolicies.keys :=
    keys_eq_of_mem_iff h.pinned
  have hpositive : ¬ consumer.deliveryAttempts.toList.any fun entry => entry.2 = 0 := by
    simp only [List.any_eq_true, decide_eq_true_eq, not_exists, not_and]
    intro entry hmem hzero
    have hpos := (h.attempts entry.1 entry.2
      (Std.ExtTreeMap.mem_toList_iff_getElem?_eq_some.1 hmem)).1
    omega
  have hinFlight : ¬ consumer.inFlight.toList.any fun entry =>
      consumer.deliveryAttempts[entry.1]? ≠ some entry.2.deliveryAttempt := by
    simp only [List.any_eq_true, decide_eq_true_eq, not_exists, not_and, not_not]
    intro entry hmem
    exact (h.inFlight entry.1 entry.2 (Std.ExtTreeMap.mem_toList_iff_getElem?_eq_some.1 hmem)).1
  have hretry : ¬ consumer.retryNotBefore.keys.any fun offset =>
      offset ∉ consumer.deliveryAttempts ∨ offset ∈ consumer.inFlight := by
    simp only [List.any_eq_true, decide_eq_true_eq, not_exists, not_and, not_or, not_not]
    intro offset hmem
    obtain ⟨schedule, hschedule⟩ := mem_iff_exists_getElem?.1 (Std.ExtTreeMap.mem_keys.1 hmem)
    obtain ⟨hattempted, hnot, -⟩ := h.retry offset schedule hschedule
    exact ⟨hattempted, hnot⟩
  have hpending : ∀ offset ∈ consumer.deliveryAttempts, ¬ offset < consumer.committedOffset :=
    fun offset hmem hlt => (h.inTurn offset hmem).pending (Or.inl hlt)
  have hcommitted : ¬ (consumer.inFlight.keys.any (· < consumer.committedOffset) ∨
      consumer.deliveryAttempts.keys.any (· < consumer.committedOffset)) := by
    simp only [List.any_eq_true, decide_eq_true_eq, not_or, not_exists, not_and]
    exact ⟨fun offset hmem =>
        hpending offset (h.attempted_of_inFlight (Std.ExtTreeMap.mem_keys.1 hmem)),
      fun offset hmem => hpending offset (Std.ExtTreeMap.mem_keys.1 hmem)⟩
  rw [validatePinnedPolicies, if_neg (not_not.2 hkeys), if_neg hpositive, if_neg hinFlight,
    if_neg hretry, if_neg hcommitted]

theorem validateGroupConsumerEntries_of_wellFormed
    {entries : List (String × String × GroupConsumerState)}
    (h : ∀ entry ∈ entries, ∃ messages, WellFormed messages entry.2.2) :
    validateGroupConsumerEntries entries = .ok () := by
  induction entries with
  | nil => rfl
  | cons entry rest ih =>
    obtain ⟨messages, hwf⟩ := h entry List.mem_cons_self
    rw [validateGroupConsumerEntries, validatePinnedPolicies_of_wellFormed hwf]
    exact ih fun other hother => h other (List.mem_cons_of_mem _ hother)

end Runnel.Store
