import Runnel.Foundation.Locks
import Runnel.Local.Broker

/-!
# The locks of the local broker

A lock guards the table of streams, and each stream has a mutex. The table only
grows and no entry is replaced, so a name stands for its mutex.
-/

namespace Runnel.Local.Locking

open Runnel.Engine Runnel.Locks Runnel.Locks.Program

inductive Lock
  | table
  | stream (name : String)
deriving DecidableEq, Repr

abbrev Table := BTreeSet String

abbrev Op := Program Lock Table

variable {α : Type}

def locked (lock : Lock) (mode : Mode) (body : Op α) : Op α :=
  holding lock mode (fallible >>= fun _ => body)

def lockStream (stream : String) (body : Op α) : Op α := locked (.stream stream) .write body

def getStream (stream : String) : Op Unit :=
  locked .table .read do
    let streams ← read
    require (streams.contains stream)

/-- A stream that is missing is created, if its log is. -/
def insertStream (stream : String) : Op Unit := do
  let streams ← read
  if streams.contains stream then return
  else do
    fallible
    modify (·.insert stream)

def getOrCreateStream (stream : String) : Op Unit := do
  let found ← locked .table .read do
    let streams ← read
    return streams.contains stream
  if found then return
  else locked .table .write (insertStream stream)

def validName (kind name : String) : Op Unit := require (validateName kind name).isOk

/-- Only a name with the prefix of hashed names needs the table. -/
def isDeadLetterStream (stream : String) : Op Bool :=
  if deadLetterSuffix.toList.isSuffixOf stream.toList then return true
  else if !deadLetterHashPrefix.toList.isPrefixOf stream.toList then return false
  else locked .table .read do
    let streams ← read
    return streams.toList.any fun source =>
      match deadLetterStreamName source with
      | .ok target => target = stream
      | .error _ => false

def deadLetterRecord (stream : String) : Op Unit :=
  match deadLetterStreamName stream with
  | .error _ => .failed
  | .ok target => do
    -- the identity of the move, and the record
    fallible
    getOrCreateStream target
    lockStream target fallible

def persistPendingDeadLetters (stream : String) : ℕ → Op Unit
  | 0 => return
  | candidates + 1 => do
    deadLetterRecord stream
    fallible
    persistPendingDeadLetters stream candidates

/-- The attempts are used up, and the stream is not a dead-letter stream. -/
def isTerminal (stream : String) : Op Bool := do
  let exhausted ← undecided
  if exhausted then do
    let isDeadLetter ← isDeadLetterStream stream
    return !isDeadLetter
  else return false

/-- The retry of an orphan is scheduled, and lies in the future. -/
def orphanDelayed : Op Bool := do
  fallible
  undecided

def preflightPollResponse (stream : String) : Op Unit := do
  fallible
  let delivered ← undecided
  if delivered then fallible
  else do
    let _ ← isDeadLetterStream stream
    fallible

/-- The loop over the candidates, with the number of those to move; a poll of more rounds
than these is told by a larger number. -/
def pollRounds (stream : String) : ℕ → ℕ → Op Unit
  | 0, _ => .failed
  | rounds + 1, terminalCandidates => do
    fallible
    let found ← undecided
    if found then do
      let delayed ← orphanDelayed
      if delayed then pollRounds stream rounds terminalCandidates
      else do
        let terminal ← isTerminal stream
        if terminal then pollRounds stream rounds (terminalCandidates + 1)
        else do
          fallible
          persistPendingDeadLetters stream terminalCandidates
          fallible
    else persistPendingDeadLetters stream terminalCandidates

def pollGroupInner (stream consumer member : String) (maxResponseBytes : Option ℕ) :
    Op Unit := do
  validName "stream" stream
  validName "consumer" consumer
  validName "member" member
  fallible
  getStream stream
  lockStream stream do
    fallible
    if maxResponseBytes.isSome then preflightPollResponse stream else pure ()
    fallible
    let delivered ← undecided
    if delivered then fallible
    else do
      let rounds ← answer
      pollRounds stream rounds 0

def pollBatchRounds (stream : String) : ℕ → Op Unit
  | 0 => .failed
  | rounds + 1 => do
    fallible
    let found ← undecided
    if found then do
      let delayed ← orphanDelayed
      if delayed then pollBatchRounds stream rounds
      else do
        let terminal ← isTerminal stream
        if terminal then do
          deadLetterRecord stream
          fallible
          pollBatchRounds stream rounds
        else do
          fallible
          pollBatchRounds stream rounds
    else fallible

def pollBatchStep (stream : String) : Op Unit := do
  getStream stream
  lockStream stream do
    fallible
    let delivered ← undecided
    if delivered then fallible
    else do
      let rounds ← answer
      pollBatchRounds stream rounds

def pollBatchSteps (stream : String) : ℕ → Op Unit
  | 0 => return
  | steps + 1 => do
    pollBatchStep stream
    pollBatchSteps stream steps

def pollBatchWait (stream consumer member : String) : Op Unit := do
  validName "stream" stream
  validName "consumer" consumer
  validName "member" member
  fallible
  getStream stream
  lockStream stream (return)
  fallible
  let steps ← answer
  pollBatchSteps stream steps

def createStream (stream : String) : Op Unit := do
  validName "stream" stream
  locked .table .write (insertStream stream)

def publishWithRequestId (stream : String) : Op Unit := do
  validName "stream" stream
  getOrCreateStream stream
  lockStream stream fallible

def publishBatch (stream : String) : Op Unit := do
  fallible
  validName "stream" stream
  getOrCreateStream stream
  lockStream stream fallible

/-- What takes one stream that exists, after the other checks of the request. -/
def onStream (stream : String) : Op Unit := do
  fallible
  getStream stream
  lockStream stream fallible

def configureConsumer (stream consumer : String) : Op Unit := do
  validName "stream" stream
  validName "consumer" consumer
  onStream stream

def inspectConsumer (stream consumer : String) : Op Unit := do
  validName "stream" stream
  validName "consumer" consumer
  onStream stream

def replay (stream consumer : String) : Op Unit := do
  validName "stream" stream
  validName "consumer" consumer
  onStream stream

def ackGroup (stream consumer member : String) : Op Unit := do
  validName "stream" stream
  validName "consumer" consumer
  validName "member" member
  onStream stream

def ackBatch (stream consumer member : String) : Op Unit := do
  validName "stream" stream
  validName "consumer" consumer
  validName "member" member
  onStream stream

/-- One stream after the other, with the table free. -/
def sumStreams : List String → Op Unit
  | [] => return
  | stream :: streams => do
    lockStream stream fallible
    sumStreams streams

def health : Op Unit := do
  let streams ← locked .table .read do
    let streams ← read
    let order ← answer
    return (streams.toList.permutations[order]?).getD streams.toList
  sumStreams streams

inductive Operation
  | createStream (stream : String)
  | publish (stream : String)
  | publishBatch (stream : String)
  | configureConsumer (stream consumer : String)
  | inspectConsumer (stream consumer : String)
  | replay (stream consumer : String)
  | pollGroup (stream consumer member : String) (maxResponseBytes : Option ℕ)
  | pollBatch (stream consumer member : String)
  | ackGroup (stream consumer member : String)
  | ackBatch (stream consumer member : String)
  | health

def Operation.program : Operation → Op Unit
  | .createStream stream => Locking.createStream stream
  | .publish stream => publishWithRequestId stream
  | .publishBatch stream => Locking.publishBatch stream
  | .configureConsumer stream consumer => Locking.configureConsumer stream consumer
  | .inspectConsumer stream consumer => Locking.inspectConsumer stream consumer
  | .replay stream consumer => Locking.replay stream consumer
  | .pollGroup stream consumer member maxResponseBytes =>
    pollGroupInner stream consumer member maxResponseBytes
  | .pollBatch stream consumer member => pollBatchWait stream consumer member
  | .ackGroup stream consumer member => Locking.ackGroup stream consumer member
  | .ackBatch stream consumer member => Locking.ackBatch stream consumer member
  | .health => Locking.health

abbrev Broker := System Lock Table

def Broker.opened (streams : Table) : Broker := { data := streams }

abbrev Run (streams : Table) := Transition.Run (· = Broker.opened streams)
  fun broker event broker' => next? Operation.program broker event = some broker'

end Runnel.Local.Locking
