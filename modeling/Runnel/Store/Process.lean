import Runnel.Foundation.Transition
import Runnel.Store.Open

/-!
# Steps on an open store

Building a snapshot, installing one and applying entries, cut into the atomic
steps between which another task may run or the process may die: taking and
releasing a lock, and each single operation on a file.
-/

namespace Runnel.Store

open Runnel.Cluster Runnel.Engine Bytes Transition

/-- One atomic step of a task. -/
inductive Action where
  | capture
  | lockState
  | unlockState
  | setState (data : StateMachineData)
  | applyEntries (entries : List Entry)
  | publish (snapshot : StoredSnapshot)
  | create (target : FileName)
  | write (bytes : Bytes)
  | syncAll
  | rename (target : FileName)
  | syncDirectory
  | lockJournal
  | readJournal (lastAppliedLog : Option LogId)
  | appendJournal (bytes : Bytes)
  | syncData
  | reopenJournal
  | unlockJournal
  | fail (error : IoError)

structure TemporaryFile where
  name : FileName
  inode : ℕ
  position : ℕ
deriving DecidableEq, Repr

structure Process where
  todo : List Action := []
  file : Option TemporaryFile := none
  error : Option IoError := none

/-- A store with the task that builds snapshots and the one that changes the state. -/
structure System where
  store : StateMachineStore
  builder : Process := {}
  worker : Process := {}

namespace System

def process (system : System) : Actor → Process
  | .builder => system.builder
  | .worker => system.worker

def setProcess (system : System) (process : Process) : Actor → System
  | .builder => { system with builder := process }
  | .worker => { system with worker := process }

end System

section Programs

variable (serde : Serde)

/-- Writes a file next to its target and moves it there. -/
def atomicWrite (target : FileName) (bytes : Bytes) : List Action :=
  [.create target, .write bytes, .syncAll, .rename target, .syncDirectory]

def persistSnapshot (snapshot : StoredSnapshot) : List Action :=
  atomicWrite snapshotFile (serde.snapshot.encode snapshot)

def persistCheckpoint (data : StateMachineData) : List Action :=
  atomicWrite checkpointFile (serde.checkpoint.encode (.ofData data))

def compactJournal (lastAppliedLog : Option LogId) : List Action :=
  [.lockJournal, .readJournal lastAppliedLog]

/-- The writes of one record, each by the given action. -/
def appendActions (write : Bytes → Action) (entry : JournalEntry) : List Action :=
  match appendWrites serde entry with
  | .ok writes => writes.map write
  | .error error => [.fail error]

/-- What a compaction does once it knows the entries to keep. -/
def rewriteJournal (retained : List JournalEntry) : List Action :=
  .create journalFile :: retained.flatMap (appendActions serde .write) ++
    [.syncAll, .rename journalFile, .syncDirectory, .reopenJournal, .unlockJournal]

def persistJournal (entries : List Entry) : List Action :=
  .lockJournal ::
    entries.flatMap (fun entry => appendActions serde .appendJournal (.fromEntry entry)) ++
      [.syncData, .unlockJournal]

def buildSnapshot : List Action := [.capture]

/-- What a build does once it has encoded the state. -/
def storeSnapshot (snapshot : StoredSnapshot) : List Action :=
  persistSnapshot serde snapshot ++ compactJournal snapshot.snapshotMeta.lastLogId ++
    [.publish snapshot]

def apply (entries : List Entry) : List Action :=
  .lockState :: (if entries.isEmpty then [] else persistJournal serde entries) ++
    [.applyEntries entries, .unlockState]

/-- A snapshot that does not validate is refused before anything is locked. -/
def installSnapshot (snapshot : StoredSnapshot) : List Action :=
  match validateSnapshotData serde snapshot.data with
  | .error error => [.fail ⟨.invalidData, error⟩]
  | .ok persisted =>
    let nextState : StateMachineData :=
      { lastAppliedLog := snapshot.snapshotMeta.lastLogId
        lastMembership := snapshot.snapshotMeta.lastMembership
        state := persisted.toState }
    .lockState :: persistSnapshot serde snapshot ++ persistCheckpoint serde nextState ++
      compactJournal nextState.lastAppliedLog ++
      [.setState nextState, .unlockState, .publish snapshot]

end Programs

namespace StateMachineStore

def snapshotOf (serde : Serde) (store : StateMachineStore) : StoredSnapshot where
  snapshotMeta :=
    { lastLogId := store.state.lastAppliedLog
      lastMembership := store.state.lastMembership
      snapshotId := "snapshot-" ++ toString (store.snapshotIdx + 1) }
  data := serde.snapshotState.encode (.ofState store.state.state)

def release (store : StateMachineStore) (actor : Actor) : StateMachineStore :=
  { store with
    stateLocked := store.stateLocked && actor ≠ .worker
    journalOwner := store.journalOwner.filter (· ≠ actor) }

end StateMachineStore

/-- The error of a journal that cannot be read, as the consensus library sees it. -/
def journalError : BrokerError → IoError
  | .cluster message => ⟨.other, "cluster error: " ++ message⟩
  | _ => ⟨.other, ""⟩

def failed (store : StateMachineStore) (actor : Actor) (error : IoError) :
    StateMachineStore × Process :=
  (store.release actor, { error := some error })

/-- Takes one action; `none` if it has to wait or cannot be taken. -/
def perform [ToString LogId] (serde : Serde) (actor : Actor) (store : StateMachineStore)
    (process : Process) (todo : List Action) : Action → Option (StateMachineStore × Process)
  | .capture =>
    if store.stateLocked then none
    else
      let snapshot := store.snapshotOf serde
      some ({ store with snapshotIdx := store.snapshotIdx + 1 },
        { process with todo := storeSnapshot serde snapshot ++ todo })
  | .lockState =>
    if store.stateLocked then none
    else some ({ store with stateLocked := true }, { process with todo })
  | .unlockState => some ({ store with stateLocked := false }, { process with todo })
  | .setState data => some ({ store with state := data }, { process with todo })
  | .applyEntries entries =>
    (entries.foldlM (fun data entry => applyEntry store.kind data entry.logId entry.payload)
      store.state).map fun state => ({ store with state := state }, { process with todo })
  | .publish snapshot =>
    some ({ store with currentSnapshot := some snapshot }, { process with todo })
  | .create target =>
    let name := FileName.temporary target store.processId
    let (fs, inode) := store.fs.create name
    some ({ store with fs := fs }, { process with todo, file := some ⟨name, inode, 0⟩ })
  | .write bytes =>
    process.file.map fun file =>
      ({ store with fs := store.fs.writeAt file.inode file.position bytes },
        { process with todo, file := some { file with position := file.position + bytes.length } })
  | .syncAll | .syncDirectory | .syncData => some (store, { process with todo })
  | .rename target =>
    match store.fs.rename (FileName.temporary target store.processId) target with
    | none => some (failed store actor ⟨.other, "No such file or directory (os error 2)"⟩)
    | some fs => some ({ store with fs := fs }, { process with todo, file := none })
  | .lockJournal =>
    if store.journalOwner.isSome then none
    else some ({ store with journalOwner := some actor }, { process with todo })
  | .readJournal lastAppliedLog =>
    match parse serde (journalFile.display store.path) (store.fs.read journalFile) with
    | .error error => some (failed store actor (journalError error))
    | .ok (entries, truncatedAt) =>
      let retained := entries.filter fun entry =>
        lastAppliedLog.all fun last => isLogAfter entry.logId last
      some ({ store with fs := truncatedAt.elim store.fs (store.fs.setLen journalFile) },
        { process with todo := rewriteJournal serde retained ++ todo })
  | .appendJournal bytes =>
    some ({ store with fs := store.fs.append store.journal bytes }, { process with todo })
  | .reopenJournal =>
    let (fs, journal) := store.fs.openAppend journalFile
    some ({ store with fs := fs, journal := journal }, { process with todo })
  | .unlockJournal => some ({ store with journalOwner := none }, { process with todo })
  | .fail error => some (failed store actor error)

inductive Event where
  | build
  | apply (entries : List Entry)
  | install (snapshot : StoredSnapshot)
  | step (actor : Actor)

/-- The system after an event, if the event is possible. -/
def System.next [ToString LogId] (serde : Serde) (system : System) : Event → Option System
  | .build =>
    if system.builder.todo.isEmpty then
      some { system with builder := { todo := buildSnapshot } }
    else none
  | .apply entries =>
    if system.worker.todo.isEmpty then
      some { system with worker := { todo := Store.apply serde entries } }
    else none
  | .install snapshot =>
    if system.worker.todo.isEmpty then
      some { system with worker := { todo := installSnapshot serde snapshot } }
    else none
  | .step actor =>
    match (system.process actor).todo with
    | [] => none
    | action :: todo =>
      (perform serde actor system.store (system.process actor) todo action).map fun result =>
        { system with store := result.1 }.setProcess result.2 actor

def SystemStep [ToString LogId] (serde : Serde) (before : System) (event : Event)
    (after : System) : Prop :=
  before.next serde event = some after

end Runnel.Store
