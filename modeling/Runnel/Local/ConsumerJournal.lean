import Runnel.Foundation.Fallible
import Runnel.Local.ConsumerStateSpec

/-!
# The files of a consumer

A checkpoint and a journal of the events behind it. An event is appended to the
journal as a line; before the journal would outgrow its bound the current state
becomes the checkpoint and the journal starts again.
-/

namespace Runnel.Local

open Runnel.Engine Bytes

def maxConsumerStateJournalBytes : ℕ := 1024 * 1024

/-- What the serialization library reads: a text that was written is read back, and the text of
an event that is cut off is no value at all. -/
structure ConsumerStateReader where
  isValue : Bytes → Bool
  readEvent : Bytes → Except String ConsumerStateEvent
  readState : Bytes → Except String ConsumerState
  readEvent_text : ∀ event, readEvent event.text = .ok event
  readState_text : ∀ state, readState state.text = .ok state
  isValue_part : ∀ (event : ConsumerStateEvent) (part : Bytes), part <+: event.text →
    part ≠ event.text → isValue part = false

structure ConsumerFiles where
  checkpoint : Option Bytes := none
  temporary : Option Bytes := none
  journal : Option Bytes := none
deriving DecidableEq, Repr

/-- The stream and the name of a consumer, where its files are. -/
abbrev ConsumerPath := String × String

/-- The consumer files and what the environment will do with the next operations on them. -/
structure ConsumerStore where
  files : BTreeMap ConsumerPath ConsumerFiles := ∅
  faults : List (Option Fault) := []
deriving DecidableEq

abbrev FileM := EStateM IoError ConsumerStore

abbrev StoreM := EStateM BrokerError ConsumerStore

namespace ConsumerStore

def read (store : ConsumerStore) (path : ConsumerPath) : ConsumerFiles :=
  (store.files[path]?).getD {}

def write (store : ConsumerStore) (path : ConsumerPath) (files : ConsumerFiles) : ConsumerStore :=
  { store with files := store.files.insert path files }

end ConsumerStore

def readFiles {ε : Type} (path : ConsumerPath) : EStateM ε ConsumerStore ConsumerFiles := do
  return (← get).read path

/-- One operation: it has its effect, or it fails and has another one. -/
def fileOperation (path : ConsumerPath) (effect : ConsumerFiles → ConsumerFiles)
    (torn : ℕ → ConsumerFiles → ConsumerFiles) : FileM Unit := fun store =>
  match store.faults with
  | some fault :: faults =>
    .error fault.error
      { store.write path (torn fault.written (store.read path)) with faults := faults }
  | faults => .ok () { store.write path (effect (store.read path)) with faults := faults.tail }

/-- An operation that changes no byte, such as a sync. -/
def quietOperation (path : ConsumerPath) : FileM Unit := fileOperation path id fun _ => id

def writeTemporary (path : ConsumerPath) (data : Bytes) : FileM Unit :=
  fileOperation path
    (fun files => { files with temporary := files.temporary.map (· ++ data) })
    fun written files => { files with temporary := files.temporary.map (· ++ data.take written) }

def ConsumerFiles.append (files : ConsumerFiles) (data : Bytes) : ConsumerFiles :=
  { files with journal := files.journal.map (· ++ data) }

def ConsumerFiles.truncate (files : ConsumerFiles) (length : ℕ) : ConsumerFiles :=
  { files with journal := files.journal.map (·.take length) }

def writeJournal (path : ConsumerPath) (data : Bytes) : FileM Unit :=
  fileOperation path (·.append data) fun written files => files.append (data.take written)

def truncateConsumerStateJournal (path : ConsumerPath) (length : ℕ) : FileM Unit := do
  if (← readFiles path).journal.isNone then
    throw ⟨.notFound, "No such file or directory (os error 2)"⟩
  quietOperation path
  fileOperation path (·.truncate length) fun _ => id
  quietOperation path

def asIo {α : Type} : FileM α → StoreM α := EStateM.adaptExcept .io

/-- Publishes a checkpoint: a temporary file is written, synced and renamed. -/
def persistConsumerState (state : ConsumerState) : StoreM Unit := do
  let path := (state.stream, state.consumer)
  asIo (quietOperation path)
  asIo (fileOperation path (fun files => { files with temporary := some [] }) fun _ => id)
  EStateM.adaptExcept (fun error => .state error.message)
    (writeTemporary path state.toJson.render)
  asIo (writeTemporary path [0x0a])
  asIo (quietOperation path)
  asIo (fileOperation path
    (fun files => { files with checkpoint := files.temporary, temporary := none }) fun _ => id)

/-- The events whose failures carry the stage that failed. -/
def ConsumerStateEvent.isBatch : ConsumerStateEvent → Bool
  | .deliveryAttempts _ | .retrySchedules _ | .acknowledgeBatch _ => true
  | _ => false

def mapIoFailure (stage : ConsumerStatePersistStage) (batchEvent : Bool) (error : IoError) :
    BrokerError :=
  if batchEvent then .consumerStatePersistence stage error.message else .io error

def mapBrokerFailure (stage : ConsumerStatePersistStage) (batchEvent : Bool)
    (error : BrokerError) : BrokerError :=
  if batchEvent then .consumerStatePersistence stage error.display else error

/-- The current state becomes the checkpoint before the journal is emptied, so that a process
that stops in between replays events the checkpoint has already. -/
def compactJournal (stream consumer : String) (currentState : ConsumerState)
    (batchEvent : Bool) : StoreM Unit := do
  EStateM.adaptExcept (mapBrokerFailure .beforeAppend batchEvent)
    (persistConsumerState { currentState with stream := stream, consumer := consumer })
  EStateM.adaptExcept (mapBrokerFailure .beforeAppend batchEvent)
    (asIo (truncateConsumerStateJournal (stream, consumer) 0))

/-- Opens the journal, appends the line of the event and syncs it. -/
def appendConsumerEvent (path : ConsumerPath) (event : ConsumerStateEvent) : StoreM Unit := do
  EStateM.adaptExcept (mapIoFailure .beforeAppend event.isBatch) (quietOperation path)
  EStateM.adaptExcept (mapIoFailure .beforeAppend event.isBatch)
    (fileOperation path (fun files => { files with journal := some (files.journal.getD []) })
      fun _ => id)
  EStateM.adaptExcept (mapIoFailure .append event.isBatch) (writeJournal path event.line)
  EStateM.adaptExcept (mapIoFailure .sync event.isBatch) (quietOperation path)

def persistConsumerEvent (stream consumer : String) (currentState : ConsumerState)
    (event : ConsumerStateEvent) : StoreM Unit := do
  let journalLen := ((← readFiles (stream, consumer)).journal.getD []).length
  if maxConsumerStateJournalBytes < satAdd64 journalLen event.line.length then
    compactJournal stream consumer currentState event.isBatch
  appendConsumerEvent (stream, consumer) event

/-- Replays the lines of a journal, and counts the bytes of the complete ones. -/
def replayLines (reader : ConsumerStateReader) :
    ConsumerState → ℕ → List Bytes → Except BrokerError (ConsumerState × ℕ)
  | state, validLength, [] => .ok (state, validLength)
  | state, validLength, line :: lines =>
    if line.getLast? ≠ some 0x0a then
      if reader.isValue line ∧ (reader.readEvent line).toOption.isNone then
        .error (invalidStateData "consumer state journal contains a complete unsupported record")
      else .ok (state, validLength)
    else do
      let event ← (reader.readEvent line.dropLast).mapError .state
      let state ← state.applyEvent event
      replayLines reader state (validLength + line.length) lines

def replayConsumerStateJournal (reader : ConsumerStateReader) (path : ConsumerPath)
    (state : ConsumerState) : StoreM ConsumerState := do
  match (← readFiles path).journal with
  | none => return state
  | some bytes =>
    if maxConsumerStateJournalBytes < bytes.length then
      throw (invalidStateData "consumer state journal exceeds its configured bound")
    let (state, validLength) ← MonadExcept.ofExcept
      (replayLines reader state 0 (splitInclusive 0x0a bytes))
    if validLength ≠ bytes.length then
      asIo (truncateConsumerStateJournal path validLength)
    return state

/-- The checkpoint, or the fresh state if there is none. -/
def loadCheckpoint (reader : ConsumerStateReader) (path : ConsumerPath) : StoreM ConsumerState := do
  match (← readFiles path).checkpoint with
  | some bytes => MonadExcept.ofExcept ((reader.readState bytes).mapError .state)
  | none => return { stream := path.1, consumer := path.2 }

def loadConsumerState (reader : ConsumerStateReader) (stream consumer : String) :
    StoreM ConsumerState := do
  let base ← loadCheckpoint reader (stream, consumer)
  let state ← replayConsumerStateJournal reader (stream, consumer) base
  MonadExcept.ofExcept state.validate
  return state

end Runnel.Local
