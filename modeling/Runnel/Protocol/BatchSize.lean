import Runnel.Protocol.Reply
import Runnel.Engine.ResponseSize

/-!
# The size of a batch of messages

An engine measures a batch before it assigns the deliveries, with the envelope of
the empty batch and the encoded length of each item.
-/

namespace Runnel.Protocol

open Runnel.Engine Protobuf

theorem protobufVarintLen_eq (value : ℕ) : protobufVarintLen value = varintLen value := by
  suffices hfuel : ∀ fuel value, protobufVarintLenFrom fuel value =
      (varintFrom fuel value).length by
    exact hfuel value value
  intro fuel
  induction fuel with
  | zero =>
    intro value
    rfl
  | succ fuel ih =>
    intro value
    rw [protobufVarintLenFrom, varintFrom]
    split_ifs
    · rw [ih, Nat.shiftRight_eq_div_pow, List.length_cons]
    · rfl

def saturated (length : ℕ) : ℕ := min length u64Max

theorem satAdd64_saturated (a b : ℕ) :
    satAdd64 (saturated a) (saturated b) = saturated (a + b) := by
  unfold satAdd64 saturated
  omega

theorem bytesField_saturated (length : ℕ) :
    protobufBytesFieldUpperBound length = saturated (delimitedLen length) := by
  rw [protobufBytesFieldUpperBound, protobufVarintLen_eq, delimitedLen]
  unfold satAdd64 saturated
  omega

theorem stringField_saturated (value : String) :
    protobufStringFieldUpperBound value = saturated (delimitedLen (utf8 value).length) :=
  bytesField_saturated _

theorem varintField_saturated (value : ℕ) :
    protobufVarintFieldUpperBound value = saturated (1 + varintLen value) := by
  rw [protobufVarintFieldUpperBound, protobufVarintLen_eq]
  rfl

theorem delimitedField_saturated (length : ℕ) :
    lengthDelimitedFieldUpperBound (saturated length) = saturated (delimitedLen length) := by
  rw [lengthDelimitedFieldUpperBound, bytesField_saturated]
  by_cases hfits : length ≤ u64Max
  · rw [show saturated length = length from Nat.min_eq_left hfits]
  · -- Both are at the bound, whatever the envelopes add.
    have hover := Nat.le_of_not_le hfits
    have hshort : u64Max ≤ delimitedLen u64Max := Nat.le_add_left _ _
    have hlong : length ≤ delimitedLen length := Nat.le_add_left _ _
    rw [show saturated length = u64Max from Nat.min_eq_right hover, saturated, saturated,
      Nat.min_eq_right hshort, Nat.min_eq_right (hover.trans hlong)]

theorem envelope_saturated (length : ℕ) :
    satAdd64 4 (saturated length) = saturated (4 + length) :=
  satAdd64_saturated 4 length

/-- The length of a field that is left out where its value is empty. -/
def presentLen (length : ℕ) : ℕ := if length = 0 then 0 else delimitedLen length

/-- The length of a field that is left out where its value is zero. -/
def numberLen (value : ℕ) : ℕ := if value = 0 then 0 else 1 + varintLen value

/-- One where a field is left out, for the length or the value of the field. -/
def leftOut (value : ℕ) : ℕ := if value = 0 then 1 else 0

def textLen (value : Option String) : ℕ := value.elim 0 fun text => delimitedLen (utf8 text).length

section Message

variable (consumer : String) (member : Option String) (message : Message)

def messageLen : ℕ :=
  presentLen (utf8 message.stream).length + presentLen (utf8 consumer).length + textLen member +
    numberLen message.offset + textLen message.key + presentLen message.payload.length +
    numberLen message.publishedAtMs + textLen message.deliveryToken +
    message.deliveryAttempt.elim 0 fun attempt => 1 + varintLen attempt

/-- How many fields of a message are left out because they have their default value. -/
def defaultFields : ℕ :=
  leftOut (utf8 message.stream).length + leftOut (utf8 consumer).length + leftOut message.offset +
    leftOut message.payload.length + leftOut message.publishedAtMs

/-- An item of a batch: the message below its outcome and its stage, two bytes each. -/
def itemLen (length : ℕ) : ℕ := delimitedLen (4 + delimitedLen length)

/-- Bytes of an item that are measured and not written. -/
def itemOmitted : ℕ :=
  itemLen (messageLen consumer member message + 2 * defaultFields consumer message) -
    itemLen (messageLen consumer member message)

end Message

section Batch

variable (stream consumer : String) (member : Option String) (messages : List Message)

def batchLen : ℕ :=
  presentLen (utf8 stream).length + presentLen (utf8 consumer).length +
    (messages.map fun message => itemLen (messageLen consumer member message)).sum

/-- The length of the batch result that the measure starts from. -/
def headerLen : ℕ := delimitedLen (utf8 stream).length + delimitedLen (utf8 consumer).length

def omittedLen : ℕ :=
  2 * (leftOut (utf8 stream).length + leftOut (utf8 consumer).length) +
    (messages.map (itemOmitted consumer member)).sum

/-- The lengths that the two envelopes of a batch result write before their content. -/
def envelopeLens (length : ℕ) : ℕ := varintLen length + varintLen (delimitedLen length)

/-- The envelopes of the batch write lengths no longer than those of the empty batch, up to
the fields that are left out. -/
def EnvelopesFit : Prop :=
  envelopeLens (batchLen stream consumer member messages) ≤
    envelopeLens (headerLen stream consumer) + omittedLen stream consumer member messages

instance : Decidable (EnvelopesFit stream consumer member messages) :=
  inferInstanceAs (Decidable (_ ≤ _))

end Batch

theorem delimitedLen_delimitedLen (length : ℕ) :
    delimitedLen (delimitedLen length) = 2 + envelopeLens length + length := by
  rw [envelopeLens, delimitedLen, delimitedLen]
  omega

theorem presentLen_add (length : ℕ) :
    presentLen length + 2 * leftOut length = delimitedLen length := by
  unfold presentLen leftOut
  split_ifs with hzero
  · rw [hzero]
    rfl
  · rfl

theorem numberLen_add (value : ℕ) : numberLen value + 2 * leftOut value = 1 + varintLen value := by
  unfold numberLen leftOut
  split_ifs with hzero
  · rw [hzero]
    rfl
  · rfl

theorem itemLen_mono {a b : ℕ} (h : a ≤ b) : itemLen a ≤ itemLen b :=
  delimitedLen_mono (Nat.add_le_add_left (delimitedLen_mono h) 4)

section Measure

variable (stream consumer : String) (member : Option String) (message : Message)
  (messages : List Message)

theorem messageLen_add :
    messageLen consumer member message + 2 * defaultFields consumer message =
      delimitedLen (utf8 message.stream).length + delimitedLen (utf8 consumer).length +
        (1 + varintLen message.offset) + delimitedLen message.payload.length +
        (1 + varintLen message.publishedAtMs) + textLen member + textLen message.key +
        textLen message.deliveryToken +
        message.deliveryAttempt.elim 0 fun attempt => 1 + varintLen attempt := by
  have hstream := presentLen_add (utf8 message.stream).length
  have hconsumer := presentLen_add (utf8 consumer).length
  have hoffset := numberLen_add message.offset
  have hpayload := presentLen_add message.payload.length
  have hpublished := numberLen_add message.publishedAtMs
  unfold messageLen defaultFields
  omega

theorem batchMessageItemUpperBound_eq :
    batchMessageItemUpperBound message consumer member = saturated
      (itemLen (messageLen consumer member message + 2 * defaultFields consumer message)) := by
  rw [messageLen_add, itemLen, ← delimitedField_saturated, ← envelope_saturated,
    ← delimitedField_saturated]
  unfold batchMessageItemUpperBound messageResultUpperBound textLen
  cases member <;> cases message.key <;> cases message.deliveryToken <;>
    cases message.deliveryAttempt <;>
    simp only [stringField_saturated, varintField_saturated, bytesField_saturated,
      satAdd64_saturated, Option.isSome, Option.elim, Nat.add_zero]

theorem encodedLen_foldl (sizer : PollBatchResponseSizer) (length : ℕ)
    (h : sizer.encodedLen = saturated length) :
    (messages.foldl PollBatchResponseSizer.push sizer).encodedLen = saturated (length +
      (messages.map fun message => itemLen (messageLen sizer.consumer sizer.member message +
        2 * defaultFields sizer.consumer message)).sum) := by
  induction messages generalizing sizer length with
  | nil => exact h
  | cons message messages ih =>
    have hpush : (sizer.push message).encodedLen = saturated (length +
        itemLen (messageLen sizer.consumer sizer.member message +
          2 * defaultFields sizer.consumer message)) := by
      rw [PollBatchResponseSizer.push, PollBatchResponseSizer.projectedLen, h,
        batchMessageItemUpperBound_eq, satAdd64_saturated]
    rw [List.foldl_cons, ih _ _ hpush, List.map_cons, List.sum_cons, Nat.add_assoc]
    rfl

theorem pollBatchResponseLen_eq :
    pollBatchResponseLen stream consumer member messages =
      saturated (delimitedLen (delimitedLen (headerLen stream consumer)) +
        (messages.map fun message => itemLen (messageLen consumer member message +
          2 * defaultFields consumer message)).sum) := by
  apply encodedLen_foldl
  rw [PollBatchResponseSizer.new, stringField_saturated, stringField_saturated,
    satAdd64_saturated, delimitedField_saturated, delimitedField_saturated]
  rfl

theorem sum_itemLen_add :
    (messages.map fun message => itemLen (messageLen consumer member message)).sum +
        (messages.map (itemOmitted consumer member)).sum =
      (messages.map fun message => itemLen (messageLen consumer member message +
        2 * defaultFields consumer message)).sum := by
  induction messages with
  | nil => rfl
  | cons message messages ih =>
    have hitem : itemLen (messageLen consumer member message) +
        itemOmitted consumer member message =
        itemLen (messageLen consumer member message + 2 * defaultFields consumer message) :=
      Nat.add_sub_cancel' (itemLen_mono (Nat.le_add_right _ _))
    rw [List.map_cons, List.map_cons, List.map_cons, List.sum_cons, List.sum_cons, List.sum_cons,
      ← ih, ← hitem]
    omega

theorem envelopesFit_iff :
    EnvelopesFit stream consumer member messages ↔
      delimitedLen (delimitedLen (batchLen stream consumer member messages)) ≤
        delimitedLen (delimitedLen (headerLen stream consumer)) +
          (messages.map fun message => itemLen (messageLen consumer member message +
            2 * defaultFields consumer message)).sum := by
  have hstream := presentLen_add (utf8 stream).length
  have hconsumer := presentLen_add (utf8 consumer).length
  have hitems := sum_itemLen_add consumer member messages
  rw [delimitedLen_delimitedLen, delimitedLen_delimitedLen, EnvelopesFit, ← hitems]
  unfold batchLen headerLen omittedLen
  omega

end Measure

section Wire

variable (stream consumer : String) (member : Option String) (message : Message)

theorem asBytes_batchMessageResponse :
    (batchMessageResponse message consumer member).payload.asBytes = message.payload := by
  rw [batchMessageResponse]
  cases htext : fromUtf8? message.payload with
  | none => rfl
  | some text => exact utf8_of_fromUtf8? htext

theorem length_string {number : ℕ} (hnumber : number ≤ 15) (value : String) :
    (encode (implicitString number value)).length = presentLen (utf8 value).length := by
  rw [implicitString, length_implicitBytes hnumber, presentLen]
  exact if_congr List.length_eq_zero_iff.symm rfl rfl

theorem length_bytes {number : ℕ} (hnumber : number ≤ 15) (value : Bytes) :
    (encode (implicitBytes number value)).length = presentLen value.length := by
  rw [length_implicitBytes hnumber, presentLen]
  exact if_congr List.length_eq_zero_iff.symm rfl rfl

theorem length_batchMessageToWire :
    (encode (batchMessageToWire (batchMessageResponse message consumer member)).fields).length =
      messageLen consumer member message := by
  simp only [Wire.MessageResult.fields, batchMessageToWire, length_encode_append]
  rw [asBytes_batchMessageResponse, length_string (by decide), length_string (by decide),
    length_optionalString (by decide), length_implicitUint (by decide), length_optionalString (by decide), length_bytes (by decide),
    length_implicitUint (by decide), length_optionalString (by decide),
    length_optionalUint (by decide)]
  rfl

def confirmedItem (delivery : Message × Stage) : Wire.MessageItemResult where
  outcome := outcomeToWire .confirmed
  stage := stageToWire delivery.2
  message := some (batchMessageToWire (batchMessageResponse delivery.1 consumer member))

theorem length_confirmedItem (delivery : Message × Stage) :
    (encode (embedded 3 (confirmedItem consumer member delivery).fields)).length =
      itemLen (messageLen consumer member delivery.1) := by
  have hstage : (encode (implicitUint 2 (stageToWire delivery.2))).length = 2 := by
    cases delivery.2 <;> rfl
  have hitem : (encode (confirmedItem consumer member delivery).fields).length =
      4 + delimitedLen (messageLen consumer member delivery.1) := by
    rw [confirmedItem, Wire.MessageItemResult.fields, length_encode_append, length_encode_append,
      hstage, Option.elim, length_embedded (by decide), length_batchMessageToWire]
    rfl
  rw [length_embedded (by decide), hitem, itemLen]

variable (deliveries : List (Message × Stage))

def batchMessage : List Field :=
  embedded 3 (embedded 6 (implicitString 1 stream ++ implicitString 2 consumer ++
    (deliveries.map (confirmedItem consumer member)).flatMap fun item => embedded 3 item.fields))

theorem batchToWire_confirmedBatch :
    batchToWire messageItemResult (confirmedBatch stream consumer member deliveries)
        (deliveries.map fun delivery => batchMessageResponse delivery.1 consumer member) =
      .ok (deliveries.map (confirmedItem consumer member)) := by
  rw [batchToWire, if_neg (by simp [confirmedBatch, ApplicationReply.batch])]
  rw [confirmedBatch, ApplicationReply.batch, List.zip_map', List.mapM_map]
  exact List.mapM_pure

theorem serverFrameToWire_confirmedBatch :
    serverFrameToWire (.application (confirmedBatch stream consumer member deliveries)) =
      .ok (batchMessage stream consumer member deliveries) := by
  have hitems := batchToWire_confirmedBatch stream consumer member deliveries
  have hresult : replyResult (confirmedBatch stream consumer member deliveries) =
      (batchToWire messageItemResult (confirmedBatch stream consumer member deliveries)
        (deliveries.map fun delivery => batchMessageResponse delivery.1 consumer member)).bind
      fun items => .ok (.pollBatch stream consumer items, true) := rfl
  rw [hitems] at hresult
  rw [serverFrameToWire, replyToWire, hresult]
  rfl

theorem length_flatMap_confirmedItem :
    (encode ((deliveries.map (confirmedItem consumer member)).flatMap
        fun item => embedded 3 item.fields)).length =
      ((deliveries.map Prod.fst).map fun message =>
        itemLen (messageLen consumer member message)).sum := by
  induction deliveries with
  | nil => rfl
  | cons delivery deliveries ih =>
    rw [List.map_cons, List.flatMap_cons, length_encode_append, length_confirmedItem, ih]
    rfl

theorem length_batchMessage :
    (encode (batchMessage stream consumer member deliveries)).length =
      delimitedLen (delimitedLen (batchLen stream consumer member (deliveries.map Prod.fst))) := by
  rw [batchMessage, length_embedded (by decide), length_embedded (by decide),
    length_encode_append, length_encode_append, length_string (by decide),
    length_string (by decide), length_flatMap_confirmedItem, batchLen]

theorem writeApplicationReply_of_le {reply : ApplicationReply} {message : List Field} {limit : ℕ}
    (hmessage : serverFrameToWire (.application reply) = .ok message)
    (hpos : 0 < (encode message).length) (hlimit : (encode message).length ≤ limit)
    (hmax : limit ≤ maxServerToClientFrameBytes) :
    encodeServerFrame (.application reply) =
        .ok ((Bytes.le 4 (encode message).length).reverse ++ encode message) ∧
      writeApplicationReply reply limit =
        .ok ((Bytes.le 4 (encode message).length).reverse ++ encode message) := by
  have hword : maxServerToClientFrameBytes ≤ u32Max := by decide
  have hframe : encodeServerFrame (.application reply) =
      .ok ((Bytes.le 4 (encode message).length).reverse ++ encode message) := by
    rw [encodeServerFrame, hmessage]
    change encodeMessage message maxServerToClientFrameBytes = _
    rw [encodeMessage, if_neg (by omega)]
  refine ⟨hframe, ?_⟩
  rw [writeApplicationReply, hframe]
  apply if_neg
  rw [List.length_append, List.length_reverse, Bytes.length_le]
  omega

theorem writeApplicationReply_of_lt {reply : ApplicationReply} {message : List Field} {limit : ℕ}
    {bounded : Bytes} (hmessage : serverFrameToWire (.application reply) = .ok message)
    (hlimit : limit < (encode message).length)
    (hmax : (encode message).length ≤ maxServerToClientFrameBytes)
    (hbounded : encodeServerFrame (.application (.failed
      (.error "response_too_large" "response exceeds the negotiated maximum") .unknown
      .executionStarted)) = .ok bounded) :
    writeApplicationReply reply limit = .ok bounded := by
  have hframe := (writeApplicationReply_of_le hmessage (by omega) le_rfl hmax).1
  rw [writeApplicationReply, hframe]
  refine (if_pos ?_).trans ?_
  · rw [List.length_append, List.length_reverse, Bytes.length_le]
    omega
  · simp only [hbounded]

/-- The measure of a batch bounds its reply exactly where the envelopes write lengths no longer
than those of the empty batch, up to the fields that are left out. There a batch admitted under
the limit of a connection is written within it. -/
theorem batch_measure_bounds_reply_iff
    (hword : (encode (batchMessage stream consumer member deliveries)).length ≤ u64Max) :
    serverFrameToWire (.application (confirmedBatch stream consumer member deliveries)) =
        .ok (batchMessage stream consumer member deliveries) ∧
      ((encode (batchMessage stream consumer member deliveries)).length ≤
          pollBatchResponseLen stream consumer member (deliveries.map Prod.fst) ↔
        EnvelopesFit stream consumer member (deliveries.map Prod.fst)) ∧
      (EnvelopesFit stream consumer member (deliveries.map Prod.fst) →
        ∀ limit, limit ≤ maxServerToClientFrameBytes →
          pollBatchResponseLen stream consumer member (deliveries.map Prod.fst) ≤ limit →
          ∃ frame,
            encodeServerFrame (.application (confirmedBatch stream consumer member deliveries)) =
              .ok frame ∧
            frame.length - 4 ≤ limit ∧
            writeApplicationReply (confirmedBatch stream consumer member deliveries) limit =
              .ok frame) := by
  have hmessage := serverFrameToWire_confirmedBatch stream consumer member deliveries
  have hlength := length_batchMessage stream consumer member deliveries
  have hbound : (encode (batchMessage stream consumer member deliveries)).length ≤
      pollBatchResponseLen stream consumer member (deliveries.map Prod.fst) ↔
        EnvelopesFit stream consumer member (deliveries.map Prod.fst) := by
    rw [pollBatchResponseLen_eq, envelopesFit_iff, saturated, Nat.le_min, ← hlength]
    exact and_iff_left hword
  refine ⟨hmessage, hbound, ?_⟩
  intro hfit limit hmax hadmitted
  have hlimit := (hbound.2 hfit).trans hadmitted
  have hpos : 0 < (encode (batchMessage stream consumer member deliveries)).length := by
    rw [hlength, delimitedLen]
    omega
  obtain ⟨hframe, hwritten⟩ := writeApplicationReply_of_le hmessage hpos hlimit hmax
  refine ⟨_, hframe, ?_, hwritten⟩
  rw [List.length_append, List.length_reverse, Bytes.length_le]
  omega

end Wire

def payloadOf (length : ℕ) : Message where
  stream := "orders"
  offset := 1
  key := none
  payload := List.replicate length 0
  publishedAtMs := 1
  deliveryToken := some "1-0-1"
  deliveryAttempt := some 1

theorem short_batch_within_measure :
    EnvelopesFit "orders" "billing" none [payloadOf 16] ∧
      (encode (batchMessage "orders" "billing" none [(payloadOf 16, .durable)])).length ≤
        pollBatchResponseLen "orders" "billing" none [payloadOf 16] := by
  have hword : (encode (batchMessage "orders" "billing" none
      [(payloadOf 16, Stage.durable)])).length ≤ u64Max := by
    rw [length_batchMessage]
    decide
  have hfit : EnvelopesFit "orders" "billing" none [payloadOf 16] := by decide
  exact ⟨hfit, (batch_measure_bounds_reply_iff "orders" "billing" none _ hword).2.1.2 hfit⟩

/-- A batch admitted at exactly its measure is answered with an error: the envelopes of its 200
bytes write two lengths of two bytes where those of the empty batch are one byte each. -/
theorem long_batch_exceeds_measure :
    let reply := confirmedBatch "orders" "billing" none [(payloadOf 200, .durable)]
    let measure := pollBatchResponseLen "orders" "billing" none [payloadOf 200]
    (∃ message, serverFrameToWire (.application reply) = .ok message ∧
      (encode message).length = measure + 2) ∧
    ∃ bounded, encodeServerFrame (.application (.failed
        (.error "response_too_large" "response exceeds the negotiated maximum") .unknown
        .executionStarted)) = .ok bounded ∧
      writeApplicationReply reply measure = .ok bounded := by
  have hmessage := serverFrameToWire_confirmedBatch "orders" "billing" none
    [(payloadOf 200, .durable)]
  have hlength : (encode (batchMessage "orders" "billing" none
      [(payloadOf 200, .durable)])).length =
        pollBatchResponseLen "orders" "billing" none [payloadOf 200] + 2 := by
    rw [length_batchMessage]
    decide +kernel
  have hmax : pollBatchResponseLen "orders" "billing" none [payloadOf 200] + 2 ≤
      maxServerToClientFrameBytes := by decide +kernel
  refine ⟨⟨_, hmessage, hlength⟩, _, rfl, ?_⟩
  exact writeApplicationReply_of_lt hmessage (by omega) (by omega) rfl

end Runnel.Protocol
