import Runnel.Cluster.Poll

/-!
# The leader's preview of a batch poll

The leader answers a batch poll from a loop: a read-only preview decides whether
a transition must be replicated first, whether to wait, or whether to assign.
-/

namespace Runnel.Cluster

open Runnel.Engine

/-- Moves the committed offset over acknowledged and terminal offsets; every iteration
passes one of them, so their number is enough fuel. -/
def advancePreviewCommittedOffset (consumer : Option GroupConsumerState)
    (terminalOffsets : BTreeSet ℕ) : ℕ → ℕ → ℕ
  | 0, committedOffset => committedOffset
  | fuel + 1, committedOffset =>
    if !(consumer.any (fun consumer => consumer.acknowledgedOffsets.contains committedOffset)) &&
        !(terminalOffsets.contains committedOffset) then committedOffset
    else advancePreviewCommittedOffset consumer terminalOffsets fuel (committedOffset + 1)

/-- The locals of the preview loop. -/
structure PreviewSelection where
  terminalOffsets : BTreeSet ℕ := ∅
  selectedOffsets : BTreeSet ℕ := ∅
  selectedKeys : BTreeSet String := ∅
  messages : List Message := []
  sizer : PollBatchResponseSizer
  stoppedAtByteLimit : Bool := false
  terminalTransitions : ℕ := 0

namespace GroupConsumerState

variable (consumer : GroupConsumerState)

/-- A live delivery holds the key at the given time. -/
def liveKeyInFlight (nowMs : ℕ) (key : String) : Bool :=
  consumer.inFlight.toList.any (fun entry =>
    !leaseExpired entry.2.deadlineMs nowMs && entry.2.key = some key)

/-- The lease of an in-flight delivery has expired without a retry schedule, although its
policy asks for one. -/
def needsRetrySchedule (nowMs : ℕ) (legacyPolicy : ConsumerPolicy) (policyVersion : Option ℕ)
    (entry : ℕ × GroupDelivery) : Option Bool :=
  if !leaseExpired entry.2.deadlineMs nowMs || consumer.retryNotBefore.contains entry.1 then
    some false
  else do
    let attempts := consumer.attempts entry.1
    let policy ← consumer.groupPolicyForOffset entry.1 attempts legacyPolicy policyVersion
    return !(policy.retryDelayMs = 0 || policy.exhausted attempts)

/-- The retry filter after the schedules that the next transition will write. -/
def previewRetryFilter (nowMs : ℕ) (legacyPolicy : ConsumerPolicy)
    (policyVersion : Option ℕ) : Option (BTreeSet ℕ × BTreeSet String) :=
  consumer.inFlight.toList.foldlM (fun filter entry => do
    let needed ← consumer.needsRetrySchedule nowMs legacyPolicy policyVersion entry
    if needed then
      return (filter.1.insert entry.1,
        match entry.2.key with
        | some key => filter.2.insert key
        | none => filter.2)
    else return filter) (consumer.retryFilter nowMs)

end GroupConsumerState

/-- The values the preview loop reads and never changes. -/
structure PreviewContext where
  consumer : Option GroupConsumerState
  messages : List StoredMessage
  nowMs : ℕ
  committedOffset : ℕ
  retryOffsets : BTreeSet ℕ
  retryKeys : BTreeSet String
  isDeadLetter : Bool

/-- The record may be previewed: the test of a candidate against the state as the next
transition will leave it. -/
def previewEligible (context : PreviewContext) (selection : PreviewSelection)
    (entry : ℕ × StoredMessage) : Bool :=
  if context.consumer.any (fun consumer =>
        consumer.acknowledgedOffsets.contains entry.1 ||
        context.retryOffsets.contains entry.1 ||
        (consumer.inFlight[entry.1]?).any (fun delivery =>
          !leaseExpired delivery.deadlineMs context.nowMs)) ||
      selection.terminalOffsets.contains entry.1 ||
      selection.selectedOffsets.contains entry.1 then false
  else entry.2.key.all (fun key =>
    !(selection.selectedKeys.contains key) && !(context.retryKeys.contains key) &&
    !(context.consumer.any (fun consumer => consumer.liveKeyInFlight context.nowMs key)))

/-- The committed offset as the previewed terminal transitions will leave it. -/
def effectiveCommittedOffset (context : PreviewContext) (selection : PreviewSelection) : ℕ :=
  advancePreviewCommittedOffset context.consumer selection.terminalOffsets
    ((context.consumer.elim 0 (·.acknowledgedOffsets.size)) + selection.terminalOffsets.size)
    context.committedOffset

def previewCandidate (context : PreviewContext) (selection : PreviewSelection) :
    Option (ℕ × StoredMessage) :=
  ((enumerate context.messages).filter (fun entry =>
    effectiveCommittedOffset context selection ≤ entry.1)).find?
      (previewEligible context selection)

def previewLoop (request : GroupBatchPollRequest) (context : PreviewContext) :
    ℕ → PreviewSelection → Option (PreviewSelection × Option CommandResponse)
  | 0, _ => none
  | fuel + 1, selection =>
    if selection.messages.length < request.maxRecords ∧
        selection.sizer.encodedLen < request.maxBytes then
      match previewCandidate context selection with
      | none => some (selection, none)
      | some (offset, stored) => do
        let attempts := context.consumer.elim 0 (·.attempts offset)
        let policy ← context.consumer.elim (some request.legacyPolicy) (fun consumer =>
          consumer.groupPolicyForOffset offset attempts request.legacyPolicy
            request.policyVersion)
        if policy.exhausted attempts && !context.isDeadLetter then
          previewLoop request context fuel
            { selection with
              terminalOffsets := selection.terminalOffsets.insert offset
              terminalTransitions := selection.terminalTransitions + 1 }
        else if request.transitionOnly then
          return (selection, none)
        else
          let message := request.message offset stored (request.token offset)
            (satAdd32 attempts 1)
          if request.maxBytes < selection.sizer.projectedLen message then
            if selection.messages.isEmpty then
              return (selection, some (.groupBatchPollRecordTooLarge request.maxBytes))
            else
              return ({ selection with stoppedAtByteLimit := true }, none)
          else
            previewLoop request context fuel
              { selection with
                sizer := selection.sizer.push message
                selectedOffsets := selection.selectedOffsets.insert offset
                selectedKeys := match stored.key with
                  | some key => selection.selectedKeys.insert key
                  | none => selection.selectedKeys
                messages := selection.messages ++ [message] }
    else some (selection, none)

def previewGroupBatch (state : SnapshotState) (request : GroupBatchPollRequest)
    (kind : GroupKind) : Option CommandResponse := do
  if kind = .metadata then
    return .streamNotFound
  if request.maxRecords = 0 ∨ request.maxBytes = 0 then
    return .groupBatchPollActiveSetLimitExceeded
  match (state.streams[request.stream]?).filter StreamState.isActive with
  | none => return .streamNotFound
  | some streamState =>
    let nowMs := max state.leaseClockMs request.nowMs
    let consumer := state.groupConsumers[request.consumerKey]?
    let committedOffset := consumer.elim ((state.consumers[request.consumerKey]?).getD 0)
      GroupConsumerState.committedOffset
    let existing := consumer.elim [] (fun consumer =>
      (consumer.inFlight.toList.filter (fun entry =>
        !leaseExpired entry.2.deadlineMs nowMs)).filter (fun entry =>
          entry.2.member = request.member))
    if !existing.isEmpty then
      return request.existingResponse streamState.messages existing
    let (retryOffsets, retryKeys) ← consumer.elim (some (∅, ∅)) (fun consumer =>
      consumer.previewRetryFilter nowMs request.legacyPolicy request.policyVersion)
    let (selection, early) ← previewLoop request
      { consumer := consumer
        messages := streamState.messages
        nowMs := nowMs
        committedOffset := committedOffset
        retryOffsets := retryOffsets
        retryKeys := retryKeys
        isDeadLetter := isDeadLetterStream state request.stream }
      (streamState.messages.length + 1)
      { sizer := .new request.stream request.consumer request.responseMember }
    match early with
    | some response => return response
    | none =>
      let collectionComplete := !selection.messages.isEmpty &&
        (selection.messages.length = request.maxRecords || selection.stoppedAtByteLimit)
      return .groupBatchPoll selection.messages collectionComplete selection.terminalTransitions

/-- What the store reports to the polling loop: the previewed response and whether some
expired lease still needs its retry schedule. -/
def storePreviewGroupBatch (state : SnapshotState) (request : GroupBatchPollRequest)
    (kind : GroupKind) : Option (CommandResponse × Bool) := do
  let nowMs := max state.leaseClockMs request.nowMs
  let needed ← (state.groupConsumers[request.consumerKey]?).elim (some false) (fun consumer =>
    consumer.inFlight.toList.anyM
      (consumer.needsRetrySchedule nowMs request.legacyPolicy request.policyVersion))
  let response ← previewGroupBatch state request kind
  return (response, needed)

/-- What the leader's loop does after a preview. -/
inductive BatchPollDecision where
  | answer (response : CommandResponse)
  | transition
  | assignOrWait (messages : List Message) (collectionComplete : Bool)
deriving DecidableEq, Repr

/-- The decision of the loop: it submits a transition and looks again as long as a retry
schedule is missing or a record is to leave for the dead-letter stream. -/
def decideBatchPoll : CommandResponse × Bool → BatchPollDecision
  | (.groupBatchPoll messages collectionComplete terminalTransitions, needsRetrySchedule) =>
    if needsRetrySchedule || 0 < terminalTransitions then .transition
    else .assignOrWait messages collectionComplete
  | (response, _) => .answer response

end Runnel.Cluster
