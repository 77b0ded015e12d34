import Runnel.Local.Broker

/-!
# Storage lanes

Operations on one stream run one at a time: each reserves a place in the lane of
its stream and waits until the one before it hands the lane over.
-/

namespace Runnel.Local

open Runnel.Engine

/-- The notification of a single task by the runtime: its operations, and what is documented of
them. Polling the future of a wait answers whether the wait is over. -/
class NotifyLibrary where
  Notify : Type
  decidableEq : DecidableEq Notify
  new : Notify
  notifyOne : Notify → Notify
  poll : Notify → Bool × Notify
  /-- A permit is kept, or the task was woken and has not been polled since. -/
  Permitted : Notify → Prop
  permitted_notifyOne : ∀ notify, Permitted (notifyOne notify)
  poll_of_permitted : ∀ notify, Permitted notify → (poll notify).1 = true

instance [NotifyLibrary] : DecidableEq NotifyLibrary.Notify := NotifyLibrary.decidableEq

/-- The notification of a waiter. Whether it was ever notified is recorded beside it; no operation
reads that. -/
structure Waiter [NotifyLibrary] where
  notify : NotifyLibrary.Notify := NotifyLibrary.new
  notified : Bool := false
deriving DecidableEq

namespace Waiter

variable [NotifyLibrary]

def notifyOne (waiter : Waiter) : Waiter where
  notify := NotifyLibrary.notifyOne waiter.notify
  notified := true

def poll (waiter : Waiter) : Bool × Waiter :=
  let (ready, notify) := NotifyLibrary.poll waiter.notify
  (ready, { waiter with notify })

end Waiter

inductive LaneOwnership where
  | idle
  | held
  /-- Released: the front waiter must claim the lane. -/
  | handoff
deriving DecidableEq, Repr

/-- A waiter is named by the number of its dispatch. -/
structure StorageLaneState where
  ownership : LaneOwnership := .idle
  waiters : List ℕ := []
deriving DecidableEq, Repr

inductive LaneReservation where
  | active
  | queued
deriving DecidableEq, Repr

namespace StorageLaneState

def reserve (state : StorageLaneState) (queueCapacity : ℕ) (waiterPermit : Bool) (waiter : ℕ) :
    Except BrokerError (LaneReservation × StorageLaneState) :=
  if state.ownership = .idle ∧ state.waiters.isEmpty then
    .ok (.active, { state with ownership := .held })
  else if queueCapacity ≤ state.waiters.length then
    .error (.io ⟨.wouldBlock, "storage stream queue is full"⟩)
  else if !waiterPermit then .error (.io ⟨.wouldBlock, "storage stream queue is full"⟩)
  else .ok (.queued, { state with waiters := state.waiters ++ [waiter] })

def claim (state : StorageLaneState) (waiter : ℕ) : Bool × StorageLaneState :=
  if state.ownership ≠ .handoff then (false, state)
  else if state.waiters.head? ≠ some waiter then (false, state)
  else (true, { ownership := .held, waiters := state.waiters.tail })

/-- The lane without a waiter, and the waiter to notify. -/
def cancel (state : StorageLaneState) (waiter : ℕ) : StorageLaneState × Option ℕ :=
  match state.waiters.idxOf? waiter with
  | none => (state, none)
  | some position =>
    let waiters := state.waiters.eraseIdx position
    let ownership :=
      if state.ownership = .handoff ∧ waiters.isEmpty then .idle else state.ownership
    ({ ownership, waiters }, if position = 0 then waiters.head? else none)

def release (state : StorageLaneState) : StorageLaneState × Option ℕ :=
  match state.waiters.head? with
  | some next => ({ state with ownership := .handoff }, some next)
  | none => ({ state with ownership := .idle }, none)

end StorageLaneState

/-- A waiter is about to claim the lane, or awaits its notification. -/
inductive WaitPhase where
  | claiming
  | awaiting
deriving DecidableEq, Repr

inductive Stance [NotifyLibrary] where
  /-- It has its lane but no place in it. -/
  | admitted
  | queued (waiter : Waiter) (phase : WaitPhase)
  /-- It holds the permit of the lane. -/
  | holding
  | finished
deriving DecidableEq

structure Dispatch [NotifyLibrary] where
  stream : String
  lane : ℕ
  stance : Stance
deriving DecidableEq

/-- Lanes and dispatches are numbered in the order in which they came to be. -/
structure StorageExecutor [NotifyLibrary] where
  streamQueueCapacity : ℕ
  lanes : List StorageLaneState := []
  streamLanes : BTreeMap String ℕ := ∅
  dispatches : List Dispatch := []

inductive LaneEvent where
  | dispatch (stream : String)
  | reserve (id : ℕ) (waiterPermit : Bool)
  | claim (id : ℕ)
  /-- The runtime polls the future that a waiter awaits. -/
  | poll (id : ℕ)
  /-- The dispatch is dropped before it has the lane. -/
  | cancel (id : ℕ)
  | release (id : ℕ)
deriving DecidableEq, Repr

namespace StorageExecutor

variable [NotifyLibrary]

def referred (executor : StorageExecutor) (lane : ℕ) : Bool :=
  executor.dispatches.any fun dispatch => dispatch.lane = lane ∧ dispatch.stance ≠ .finished

def streamLane (executor : StorageExecutor) (stream : String) : ℕ × StorageExecutor :=
  let streamLanes := executor.streamLanes.filter fun _ lane => executor.referred lane
  match streamLanes[stream]? with
  | some lane => (lane, { executor with streamLanes })
  | none =>
    let lane := executor.lanes.length
    (lane, { executor with
      lanes := executor.lanes ++ [{}]
      streamLanes := streamLanes.insert stream lane })

def dispatchStream (executor : StorageExecutor) (stream : String) : StorageExecutor :=
  match validateName "stream" stream with
  | .error _ => executor
  | .ok () =>
    let (lane, executor) := executor.streamLane stream
    { executor with
      dispatches := executor.dispatches ++ [{ stream, lane, stance := .admitted }] }

def setLane (executor : StorageExecutor) (lane : ℕ) (state : StorageLaneState) :
    StorageExecutor :=
  { executor with lanes := executor.lanes.set lane state }

def setStance (executor : StorageExecutor) (id : ℕ) (stance : Stance) : StorageExecutor :=
  { executor with
    dispatches := executor.dispatches.modify id fun dispatch => { dispatch with stance } }

def notify (executor : StorageExecutor) (id : ℕ) : StorageExecutor :=
  { executor with
    dispatches := executor.dispatches.modify id fun dispatch =>
      match dispatch.stance with
      | .queued waiter phase => { dispatch with stance := .queued waiter.notifyOne phase }
      | _ => dispatch }

def notifyAny (executor : StorageExecutor) : Option ℕ → StorageExecutor
  | some id => executor.notify id
  | none => executor

def find? (executor : StorageExecutor) (id : ℕ) : Option (Dispatch × StorageLaneState) := do
  let dispatch ← executor.dispatches[id]?
  let state ← executor.lanes[dispatch.lane]?
  return (dispatch, state)

/-- The executor after an event, if the dispatch is at a point where it can happen. -/
def next? (executor : StorageExecutor) : LaneEvent → Option StorageExecutor
  | .dispatch stream => some (executor.dispatchStream stream)
  | .reserve id waiterPermit => do
    let (dispatch, state) ← executor.find? id
    match dispatch.stance with
    | .admitted =>
      match state.reserve executor.streamQueueCapacity waiterPermit id with
      | .ok (.active, state) => some ((executor.setLane dispatch.lane state).setStance id .holding)
      | .ok (.queued, state) =>
        some ((executor.setLane dispatch.lane state).setStance id (.queued {} .claiming))
      | .error _ => some (executor.setStance id .finished)
    | _ => none
  | .claim id => do
    let (dispatch, state) ← executor.find? id
    match dispatch.stance with
    | .queued waiter .claiming =>
      match state.claim id with
      | (true, state) => some ((executor.setLane dispatch.lane state).setStance id .holding)
      | (false, _) => some (executor.setStance id (.queued waiter .awaiting))
    | _ => none
  | .poll id => do
    let dispatch ← executor.dispatches[id]?
    match dispatch.stance with
    | .queued waiter .awaiting =>
      match waiter.poll with
      | (true, waiter) => some (executor.setStance id (.queued waiter .claiming))
      | (false, waiter) => some (executor.setStance id (.queued waiter .awaiting))
    | _ => none
  | .cancel id => do
    let (dispatch, state) ← executor.find? id
    match dispatch.stance with
    | .admitted => some (executor.setStance id .finished)
    | .queued _ _ =>
      let (state, notified) := state.cancel id
      some (((executor.setLane dispatch.lane state).setStance id .finished).notifyAny notified)
    | _ => none
  | .release id => do
    let (dispatch, state) ← executor.find? id
    match dispatch.stance with
    | .holding =>
      let (state, notified) := state.release
      some (((executor.setLane dispatch.lane state).setStance id .finished).notifyAny notified)
    | _ => none

def IsNew (executor : StorageExecutor) : Prop :=
  executor.lanes = [] ∧ executor.streamLanes = ∅ ∧ executor.dispatches = []

def Step (executor : StorageExecutor) (event : LaneEvent) (after : StorageExecutor) : Prop :=
  executor.next? event = some after

end StorageExecutor

end Runnel.Local
