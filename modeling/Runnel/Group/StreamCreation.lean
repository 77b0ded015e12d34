import Runnel.Cluster.Apply
import Runnel.Foundation.Fallible
import Runnel.Foundation.Transition
import Runnel.Group.StorageSpec

/-!
# Creating a stream in a cluster

The metadata leader creates a stream in steps: an entry in the metadata group, a
data group on every node, the group's first configuration, the stream inside the
group, and at last the activation of the entry.
-/

namespace Runnel.Group

open Runnel.Engine Runnel.Cluster Transition

/-- What a log store finds: nothing, the directory of its segments without the marker that
selects it, or a log with its marker. -/
inductive LogStage where
  | absent
  | unselected
  | selected
deriving DecidableEq, Repr

/-- A node, as far as the data group of the stream is concerned. -/
structure Replica where
  tree : FileTree
  log : LogStage := .absent
  isOpen : Bool := false

/-- How a step of an attempt goes wrong. -/
inductive Fault where
  /-- Nothing happens. -/
  | lost
  /-- The step takes effect, but the attempt does not go on. -/
  | applied
  /-- The step may take effect later. -/
  | deferred
  /-- The file system fails after some steps. -/
  | cut (steps : ℕ)
  /-- The file system fails while the log is made. -/
  | logCut
  /-- The log is there, but the replica is not started. -/
  | startCut
deriving DecidableEq, Repr

def ioFailure : BrokerError := .io ⟨.other, "Input/output error (os error 5)"⟩

/-- Opens the storage of a group whose manifest is there and starts its replica. -/
def startReplica (files : NodeFiles) (manifest : DataGroupManifest) (fault : Option Fault)
    (replica : Replica) : Replica × Except BrokerError Unit :=
  match fault, replica.log with
  | some (.cut _), _ => (replica, .error ioFailure)
  | _, .unselected =>
    (replica, .error (unselectedFamily files (dataGroupDirectory manifest.stream)))
  | some .logCut, .absent => ({ replica with log := .unselected }, .error ioFailure)
  | some .startCut, _ => ({ replica with log := .selected }, .error ioFailure)
  | _, _ => ({ replica with log := .selected, isOpen := true }, .ok ())

def possibleSteps (fault : Option Fault) (steps : List FileStep) : List FileStep :=
  match fault with
  | some (.cut count) => steps.take count
  | _ => steps

/-- What a node does to have the data group of a stream. -/
def ensureReplica (files : NodeFiles) (manifest : DataGroupManifest) (fault : Option Fault)
    (replica : Replica) : Replica × Except BrokerError Unit :=
  if replica.isOpen then (replica, .ok ())
  else
    match ensureDataGroupLocal files replica.tree [] manifest with
    | .error error => (replica, .error error)
    | .ok steps =>
      let (tree, complete) := replica.tree.run (possibleSteps fault steps)
      let replica := { replica with tree := tree }
      if complete then startReplica files manifest fault replica
      else (replica, .error (.io ⟨.other, "File name too long (os error 36)"⟩))

/-- What the metadata leader asks for: commands of the two groups, and the data group on a node. -/
inductive Request where
  | createStream
  | ensure (node : ℕ)
  | initializeDataStream
  | activateStream
deriving DecidableEq, Repr

/-- The replicated states, the nodes, requests that may still take effect, and what happens at
the next points where an attempt waits. -/
structure CreationState where
  metadata : SnapshotState
  data : SnapshotState
  initialized : Bool
  replica : ℕ → Replica
  pending : List Request := []
  faults : List (Option Fault) := []

/-- Letters, digits, dots, underscores and dashes. -/
def isNameByte (byte : UInt8) : Bool :=
  (0x30 ≤ byte && byte ≤ 0x39) || (0x41 ≤ byte && byte ≤ 0x5a) || (0x61 ≤ byte && byte ≤ 0x7a) ||
    byte = 0x2e || byte = 0x5f || byte = 0x2d

def validateName (kind name : String) : Except BrokerError Unit :=
  if 1 ≤ (utf8 name).length ∧ (utf8 name).length ≤ 128 ∧ (utf8 name).all isNameByte then .ok ()
  else .error (.invalidName kind name)

section Creation

variable (files : ℕ → NodeFiles) (stream : String) (leader : ℕ) (peers : List ℕ)

def serve (fault : Option Fault) (state : CreationState) :
    Request → CreationState × Except BrokerError Bool
  | .createStream =>
    let (streamId, groupId) := streamIdentity stream
    let (metadata, response) :=
      applyCreateStream state.metadata stream (some streamId) (some groupId) .metadata
    ({ state with metadata := metadata }, .ok (response = .streamCreated true))
  | .ensure node =>
    let (replica, result) :=
      ensureReplica (files node) (.ofStream stream) fault (state.replica node)
    ({ state with replica := Function.update state.replica node replica },
      result.map fun _ => true)
  | .initializeDataStream =>
    let (streamId, groupId) := streamIdentity stream
    let (data, response) := applyInitializeDataStream state.data stream streamId groupId
      (.data stream streamId groupId)
    ({ state with data := data }, .ok (response = .dataStreamInitialized true))
  | .activateStream =>
    let (metadata, response) := applyActivateStream state.metadata stream .metadata
    ({ state with metadata := metadata }, .ok (response = .streamActivated true))

abbrev CreationM := EStateM BrokerError CreationState

def interrupted : BrokerError := .cluster "interrupted"

def nextFault : CreationM (Option Fault) :=
  modifyGet fun state => (state.faults.head?.join, { state with faults := state.faults.tail })

/-- A point where an attempt waits without asking for anything. -/
def awaitPoint : CreationM Unit := do
  match ← nextFault with
  | none => return
  | some _ => throw interrupted

def serveNow (fault : Option Fault) (request : Request) : CreationM Bool := do
  let result ← modifyGet fun state =>
    let (after, result) := serve files stream fault state request
    (result, after)
  MonadExcept.ofExcept result

def send (request : Request) : CreationM Bool := do
  match ← nextFault with
  | some .lost => throw interrupted
  | some .deferred =>
    modify fun state => { state with pending := state.pending ++ [request] }
    throw interrupted
  | some .applied =>
    let _ ← serveNow files stream none request
    throw interrupted
  | fault => serveNow files stream fault request

def ensurePeers : List ℕ → CreationM Unit
  | [] => return
  | node :: rest => do
    let _ ← send files stream (.ensure node)
    ensurePeers rest

/-- Gives the data group its first configuration and waits for its election. -/
def initializeGroup : CreationM Unit := do
  if (← get).initialized then return
  else
    match ← nextFault with
    | none =>
      modify fun state => { state with initialized := true }
      awaitPoint
    | some .applied =>
      modify fun state => { state with initialized := true }
      throw interrupted
    | some _ => throw interrupted

def initializeStream : CreationM Unit := do
  if ((← get).data.streams[stream]?).isSome then return
  else
    let _ ← send files stream .initializeDataStream

def reconcileStream : CreationM Unit := do
  awaitPoint
  let _ ← send files stream (.ensure leader)
  ensurePeers files stream (peers.filter (· ≠ leader))
  initializeGroup
  initializeStream files stream
  let _ ← send files stream .activateStream

def createStreamLocal : CreationM Bool := do
  MonadExcept.ofExcept (validateName "stream" stream)
  let created ← send files stream .createStream
  match (← get).metadata.streams[stream]? with
  | none => throw (.streamNotFound stream)
  | some metadata =>
    let _ ← send files stream (.ensure leader)
    if metadata.lifecycle = .creating then
      reconcileStream files stream leader peers
      return created
    else return created

def afterAttempt (faults : List (Option Fault)) (state : CreationState) : CreationState :=
  (execute (createStreamLocal files stream leader peers) { state with faults := faults }).2

inductive CreationEvent where
  | attempt (faults : List (Option Fault))
  | deliver (request : Request) (fault : Option Fault)

def CreationStep (before : CreationState) (event : CreationEvent) (after : CreationState) : Prop :=
  match event with
  | .attempt faults => after = afterAttempt files stream leader peers faults before
  | .deliver request fault => request ∈ before.pending ∧
    after = { (serve files stream fault before request).1 with
      pending := before.pending.erase request }

/-- A cluster that does not know the stream yet; its nodes have their directories. -/
structure BeforeCreation (state : CreationState) : Prop where
  metadata : state.metadata.streams[stream]? = none
  data : state.data.streams[stream]? = none
  pending : state.pending = []
  groups : ∀ node, (state.replica node).tree.node groupsDirectory = some .directory
  dataGroups : ∀ node, (state.replica node).tree.node dataGroupsDirectory = none ∨
    (state.replica node).tree.node dataGroupsDirectory = some .directory
  directory : ∀ node, (state.replica node).tree.node (dataGroupDirectory stream) = none
  log : ∀ node, (state.replica node).log = .absent
  closed : ∀ node, (state.replica node).isOpen = false

/-- The stream is active in the metadata under its identity, and so it is in its data group. -/
def Converged (state : CreationState) : Prop :=
  ∃ entry stored, state.metadata.streams[stream]? = some entry ∧
    state.data.streams[stream]? = some stored ∧
    entry.lifecycle = .active ∧ (entry.streamId, entry.groupId) = streamIdentity stream ∧
    stored.lifecycle = .active ∧ (stored.streamId, stored.groupId) = streamIdentity stream

/-- A node that has not opened the group and never will: its directory for the group has
entries but no manifest, or its log was not finished. -/
def Blocked (replica : Replica) : Prop :=
  replica.isOpen = false ∧
    ((replica.tree.exists? (dataGroupDirectory stream) ∧
      ¬ replica.tree.exists? (dataGroupDirectory stream ++ [manifestFile]) ∧
      replica.tree.readDir (dataGroupDirectory stream) ≠ []) ∨
    replica.log = .unselected)

end Creation

end Runnel.Group
