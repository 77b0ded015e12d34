import Runnel.Foundation.Text
import Runnel.Local.ConsumerJournal

/-!
# Deliveries of a stream

What a broker keeps in memory for the consumers of a stream: deliveries that wait
for their acknowledgement, with an index by deadline and one by consumer, and a
cache of the durable consumer states.
-/

namespace Runnel.Local

open Runnel.Engine

abbrev DeliveryKey := String × ℕ

structure InFlight where
  member : String
  offset : ℕ
  key : Option String
  deliveryAttempt : ℕ
  deliveryToken : String
  requiresReceipt : Bool
  deadline : ℕ
deriving DecidableEq, Repr

structure ConsumerInFlightIndex where
  offsets : BTreeSet ℕ := ∅
  keys : BTreeSet String := ∅
  members : BTreeMap String (BTreeSet ℕ) := ∅
deriving DecidableEq

structure DeliveryState where
  consumerStates : BTreeMap String ConsumerState := ∅
  inFlight : BTreeMap DeliveryKey InFlight := ∅
  inFlightDeadlines : BTreeMap ℕ (List DeliveryKey) := ∅
  inFlightByConsumer : BTreeMap String ConsumerInFlightIndex := ∅
  consumersNeedingReconcile : BTreeSet String := ∅
deriving DecidableEq

namespace ConsumerInFlightIndex

def add (index : ConsumerInFlightIndex) (inFlight : InFlight) : ConsumerInFlightIndex where
  offsets := index.offsets.insert inFlight.offset
  keys := match inFlight.key with
    | some key => index.keys.insert key
    | none => index.keys
  members := index.members.insert inFlight.member
    (((index.members[inFlight.member]?).getD ∅).insert inFlight.offset)

def drop (index : ConsumerInFlightIndex) (offset : ℕ) (inFlight : InFlight) :
    ConsumerInFlightIndex where
  offsets := index.offsets.erase offset
  keys := match inFlight.key with
    | some key => index.keys.erase key
    | none => index.keys
  members := match index.members[inFlight.member]? with
    | some offsets =>
      if (offsets.erase offset).isEmpty then index.members.erase inFlight.member
      else index.members.insert inFlight.member (offsets.erase offset)
    | none => index.members

end ConsumerInFlightIndex

namespace DeliveryState

variable (delivery : DeliveryState)

def expiredDeliveries (consumer : String) (now : ℕ) : List InFlight :=
  ((((delivery.inFlightDeadlines.toList.filter (fun entry => entry.1 ≤ now)).flatMap
    (fun entry => entry.2)).filter (fun key => key.1 = consumer)).filterMap
      (fun key => delivery.inFlight[key]?)).filter (fun inFlight => inFlight.deadline ≤ now)

def memberOffsets (consumer member : String) : List ℕ :=
  match (delivery.inFlightByConsumer[consumer]?).bind (fun index => index.members[member]?) with
  | some offsets => offsets.toList
  | none => []

def getInFlight (consumer : String) (offset : ℕ) : Option InFlight :=
  delivery.inFlight[(consumer, offset)]?

def indexedDelivery (consumer : String) (offset : ℕ) : Except BrokerError InFlight :=
  match delivery.getInFlight consumer offset with
  | some inFlight => .ok inFlight
  | none => .error (.corruptRecord offset)

def memberDelivery (consumer member : String) : Except BrokerError (Option InFlight) :=
  match (delivery.memberOffsets consumer member).head? with
  | none => .ok none
  | some offset => (delivery.indexedDelivery consumer offset).map some

def memberDeliveries (consumer member : String) : Except BrokerError (List InFlight) :=
  (delivery.memberOffsets consumer member).mapM (delivery.indexedDelivery consumer)

def inFlightFilter (consumer : String) : Option (BTreeSet ℕ × BTreeSet String) :=
  (delivery.inFlightByConsumer[consumer]?).map fun index => (index.offsets, index.keys)

def insert (consumer : String) (inFlight : InFlight) : DeliveryState :=
  { delivery with
    inFlight := delivery.inFlight.insert (consumer, inFlight.offset) inFlight
    inFlightDeadlines := delivery.inFlightDeadlines.insert inFlight.deadline
      ((delivery.inFlightDeadlines[inFlight.deadline]?).getD [] ++ [(consumer, inFlight.offset)])
    inFlightByConsumer := delivery.inFlightByConsumer.insert consumer
      (((delivery.inFlightByConsumer[consumer]?).getD {}).add inFlight) }

def withoutKey (keys : List DeliveryKey) (key : DeliveryKey) : List DeliveryKey :=
  match keys.findIdx? (fun other => other = key) with
  | some index => swapRemove keys index
  | none => keys

def dropDeadline (deadlines : BTreeMap ℕ (List DeliveryKey)) (deadline : ℕ) (key : DeliveryKey) :
    BTreeMap ℕ (List DeliveryKey) :=
  match deadlines[deadline]? with
  | none => deadlines
  | some deliveries =>
    let rest := withoutKey deliveries key
    if rest.isEmpty then deadlines.erase deadline else deadlines.insert deadline rest

def dropConsumer (consumers : BTreeMap String ConsumerInFlightIndex) (key : DeliveryKey)
    (inFlight : InFlight) : BTreeMap String ConsumerInFlightIndex :=
  match consumers[key.1]? with
  | none => consumers
  | some index =>
    if (index.drop key.2 inFlight).offsets.isEmpty then consumers.erase key.1
    else consumers.insert key.1 (index.drop key.2 inFlight)

def remove (consumer : String) (offset : ℕ) : DeliveryState :=
  match delivery.inFlight[(consumer, offset)]? with
  | none => delivery
  | some inFlight =>
    { delivery with
      inFlight := delivery.inFlight.erase (consumer, offset)
      inFlightDeadlines :=
        dropDeadline delivery.inFlightDeadlines inFlight.deadline (consumer, offset)
      inFlightByConsumer := dropConsumer delivery.inFlightByConsumer (consumer, offset) inFlight }

end DeliveryState

/-- Tokens name the start of a broker and count what it has issued. -/
structure DeliveryTokenGenerator where
  epoch : ℕ
  nextId : ℕ := 0
deriving DecidableEq, Repr

namespace DeliveryTokenGenerator

variable (tokens other : DeliveryTokenGenerator)

def next : String × DeliveryTokenGenerator :=
  let nextId := (tokens.nextId + 1) % 2 ^ 64
  (hex tokens.epoch ++ "-" ++ hex nextId, { tokens with nextId := nextId })

def issued : ℕ → DeliveryTokenGenerator → List String
  | 0, _ => []
  | n + 1, tokens => tokens.next.1 :: issued n tokens.next.2

theorem issued_eq (n : ℕ) : issued n tokens = (List.range n).map fun i =>
    hex tokens.epoch ++ "-" ++ hex ((tokens.nextId + 1 + i) % 2 ^ 64) := by
  induction n generalizing tokens with
  | zero => rfl
  | succ n ih =>
    rw [issued, ih, List.range_succ_eq_map, List.map_cons, List.map_map]
    refine congrArg₂ _ rfl (List.map_congr_left fun i _ => ?_)
    have hcount : ((tokens.nextId + 1) % 2 ^ 64 + 1 + i) % 2 ^ 64 =
        (tokens.nextId + 1 + (i + 1)) % 2 ^ 64 := by omega
    simp only [next, hcount, Function.comp_apply]

/-- A broker repeats no token before its counter wraps around, and it issues none of the tokens of
a broker that started at another time. -/
theorem tokens_unique {n : ℕ} (hn : n ≤ 2 ^ 64) (m : ℕ) :
    (issued n tokens).Nodup ∧
      (tokens.epoch ≠ other.epoch → (issued n tokens).Disjoint (issued m other)) := by
  have hsplit : ∀ {epoch epoch' id id' : ℕ},
      hex epoch ++ "-" ++ hex id = hex epoch' ++ "-" ++ hex id' → epoch = epoch' ∧ id = id' :=
    fun h => (append_dash_inj (dash_notMem_hex _) (dash_notMem_hex _) h).imp
      (hex_injective ·) (hex_injective ·)
  rw [issued_eq, issued_eq]
  constructor
  · refine List.Nodup.map_on (fun i hi j hj h => ?_) List.nodup_range
    have hcount := (hsplit h).2
    rw [List.mem_range] at hi hj
    omega
  · intro hepoch token htoken htoken'
    obtain ⟨i, -, rfl⟩ := List.mem_map.1 htoken
    obtain ⟨j, -, h⟩ := List.mem_map.1 htoken'
    exact hepoch (hsplit h).1.symm

/-- Two brokers, each with two tokens. -/
theorem tokens_unique_two : (issued 2 ⟨7, 0⟩).Nodup ∧
    (issued 2 ⟨7, 0⟩).Disjoint (issued 2 ⟨8, 0⟩) :=
  (tokens_unique ⟨7, 0⟩ ⟨8, 0⟩ (by decide) 2).imp_right fun h => h (by decide)

end DeliveryTokenGenerator

end Runnel.Local
