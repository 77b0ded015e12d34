import Runnel.Local.DeliveryState
import Runnel.Local.Publish

/-!
# Streams of the local broker

The names that a broker accepts and those it makes for dead letters, and a stream
with its log and its deliveries.
-/

namespace Runnel.Local

open Runnel.Engine

def deadLetterSuffix : String := ".dead-letter"

def deadLetterHashPrefix : String := "runnel.dead-letter."

/-- Letters, digits, dots, underscores and dashes. -/
def isNameByte (byte : UInt8) : Bool :=
  (0x30 ≤ byte && byte ≤ 0x39) || (0x41 ≤ byte && byte ≤ 0x5a) || (0x61 ≤ byte && byte ≤ 0x7a) ||
    byte = 0x2e || byte = 0x5f || byte = 0x2d

def validateName (kind name : String) : Except BrokerError Unit :=
  if 1 ≤ (utf8 name).length ∧ (utf8 name).length ≤ 128 ∧ (utf8 name).all isNameByte then .ok ()
  else .error (.invalidName kind name)

def deadLetterStreamName (stream : String) : Except BrokerError String :=
  let name := stream ++ deadLetterSuffix
  if (utf8 name).length ≤ 128 then do
    validateName "dead-letter stream" name
    return name
  else do
    let fallback := deadLetterHashPrefix ++ hex16 (fnv1a (utf8 stream)).toNat
    validateName "dead-letter stream" fallback
    return fallback

structure StreamState where
  log : StreamLog := {}
  delivery : DeliveryState := {}
deriving DecidableEq

namespace StreamState

variable (state : StreamState) (consumer : String) (committedOffset : ℕ)
  (acknowledgedOffsets : BTreeSet ℕ) (extraOffsets : BTreeSet ℕ) (extraKeys : BTreeSet String)

def findCandidateExcluding : Except BrokerError (Option RecordIndex) :=
  match state.delivery.inFlightFilter consumer with
  | none =>
    if extraOffsets.isEmpty ∧ extraKeys.isEmpty then
      state.log.findCandidate committedOffset acknowledgedOffsets none
    else
      state.log.findCandidate committedOffset acknowledgedOffsets (some (extraOffsets, extraKeys))
  | some (currentOffsets, currentKeys) =>
    if extraOffsets.isEmpty ∧ extraKeys.isEmpty then
      state.log.findCandidate committedOffset acknowledgedOffsets
        (some (currentOffsets, currentKeys))
    else
      state.log.findCandidate committedOffset acknowledgedOffsets
        (some (currentOffsets ∪ extraOffsets, currentKeys ∪ extraKeys))

end StreamState

end Runnel.Local
