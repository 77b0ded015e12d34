import Runnel.Foundation.Base64
import Runnel.Group.StreamCreation
import Runnel.Protocol.BatchSize

/-!
# Batches forwarded between nodes

A node that is not the leader asks the leader for a batch and gets it as one JSON
frame. Payloads and keys are written as they are where they need no escapes, and as
base64 otherwise, so a frame is at most a third longer than what was measured for
the public response, and some more bytes for every message.
-/

namespace Runnel.Network

open Runnel.Engine Json

def maxFrameSize : ℕ := 96 * 1024 * 1024

/-- From the blank to the tilde, without quotes and backslashes. -/
def isCompactByte (byte : UInt8) : Bool :=
  0x20 ≤ byte && byte ≤ 0x7e && !(byte = 0x22 || byte = 0x5c)

def compactPeerText (bytes : Bytes) : Option String := do
  let text ← fromUtf8? bytes
  if (utf8 text).all isCompactByte then some text else none

def compactToJson (bytes : Bytes) : Json :=
  match compactPeerText bytes with
  | some plain => .text plain
  | none => .object [("base64", .text (Base64.encode bytes))]

def forwardedPayload (payload : Bytes) : Json := compactToJson payload

def forwardedKey : Option String → Json
  | some key => compactToJson (utf8 key)
  | none => .null

def forwardedToken : Option String → Json
  | some token => .text token
  | none => .null

def forwardedAttempt : Option ℕ → Json
  | some attempt => .number attempt
  | none => .null

def forwardedBatchMessage (message : Message) : Json :=
  .object [("stream", .text message.stream), ("offset", .number message.offset),
    ("key", forwardedKey message.key), ("payload", forwardedPayload message.payload),
    ("published_at_ms", .number message.publishedAtMs),
    ("delivery_token", forwardedToken message.deliveryToken),
    ("delivery_attempt", forwardedAttempt message.deliveryAttempt)]

def forwardedBatchResponse (messages : List Message) : Json :=
  .object [("Forward", .object [("PollGroupBatch",
    .object [("Ok", .array (messages.map forwardedBatchMessage))])])]

def forwardedBatchResponseFrameLen (messages : List Message) : Except String ℕ :=
  if (render (forwardedBatchResponse messages)).length ≤ u64Max then
    .ok (render (forwardedBatchResponse messages)).length
  else .error "serialized frame length overflow"

def ensureForwardedBatchResponseFits (messages : List Message) : Except BrokerError Unit :=
  match forwardedBatchResponseFrameLen messages with
  | .error error =>
    .error (.cluster ("could not size forwarded consume-batch response: " ++ error))
  | .ok frameLen =>
    if maxFrameSize < frameLen then
      .error (.cluster ("forwarded consume-batch response is " ++ toString frameLen ++
        " bytes, above the " ++ toString maxFrameSize ++ " byte peer frame limit"))
    else .ok ()

theorem notMem_special_of_compact {byte : UInt8} (h : isCompactByte byte) : byte ∉ special := by
  have hall : (special.all fun byte => !isCompactByte byte) = true := by decide +kernel
  intro hmem
  have hnot := List.all_eq_true.1 hall byte hmem
  rw [h] at hnot
  cases hnot

theorem length_quote_of_compact {text : String} (h : (utf8 text).all isCompactByte) :
    (quote text).length = (utf8 text).length + 2 :=
  length_quote_of_plain fun byte hmem => notMem_special_of_compact (List.all_eq_true.1 h byte hmem)

theorem compactPeerText_eq_some {bytes : Bytes} {text : String}
    (h : compactPeerText bytes = some text) :
    utf8 text = bytes ∧ (utf8 text).all isCompactByte := by
  obtain ⟨read, hread, hif⟩ := Option.bind_eq_some_iff.1 h
  split_ifs at hif with hall
  obtain rfl := Option.some.inj hif
  exact ⟨utf8_of_fromUtf8? hread, hall⟩

theorem length_compactToJson_le (bytes : Bytes) :
    3 * (render (compactToJson bytes)).length ≤ 4 * bytes.length + 47 := by
  unfold compactToJson
  cases htext : compactPeerText bytes with
  | some text =>
    obtain ⟨hbytes, hcompact⟩ := compactPeerText_eq_some htext
    have hquote := length_quote_of_compact hcompact
    rw [hbytes] at hquote
    simp only [render]
    omega
  | none =>
    obtain ⟨hlength, hplain⟩ := Base64.utf8_encode bytes
    have hquote := length_quote_of_plain hplain
    have hname : (quote "base64").length = 8 := by decide
    simp only [render, renderFields, List.length_cons, List.length_append, List.length_nil, hname]
    omega

theorem length_number_le {n : ℕ} (h : n ≤ u64Max) : (decimal n).length ≤ 20 :=
  length_decimal_le (by decide) (h.trans_lt (by decide))

theorem length_forwardedKey_le (key : Option String) :
    3 * (render (forwardedKey key)).length ≤ 4 * (key.elim 0 fun key => (utf8 key).length) +
      47 := by
  cases key with
  | none => decide
  | some key => exact length_compactToJson_le (utf8 key)

theorem length_forwardedAttempt_le {attempt : Option ℕ} (h : ∀ n ∈ attempt, n ≤ u32Max) :
    (render (forwardedAttempt attempt)).length ≤ 10 := by
  cases attempt with
  | none => decide
  | some n =>
    rw [forwardedAttempt, render]
    exact length_decimal_le (by decide) ((h n rfl).trans_lt (by decide))

theorem length_forwardedToken_le {token : Option String}
    (h : ∀ text ∈ token, (utf8 text).all isCompactByte) :
    (render (forwardedToken token)).length ≤
      (token.elim 0 fun token => (utf8 token).length) + 4 := by
  cases token with
  | none => decide
  | some token =>
    have hquote := length_quote_of_compact (h token rfl)
    rw [forwardedToken, render, hquote]
    exact Nat.add_le_add_left (by decide) _

/-- A message as an engine delivers it: a valid stream, numbers of their width, and a token that
needs no escapes. Key and payload are arbitrary. -/
structure Deliverable (message : Message) : Prop where
  stream : Group.validateName "stream" message.stream = .ok ()
  offset : message.offset ≤ u64Max
  publishedAtMs : message.publishedAtMs ≤ u64Max
  token : ∀ token ∈ message.deliveryToken, (utf8 token).all isCompactByte
  attempt : ∀ attempt ∈ message.deliveryAttempt, attempt ≤ u32Max

/-- The bytes of a message that a response carries. -/
def contentLen (message : Message) : ℕ :=
  (utf8 message.stream).length + (message.key.elim 0 fun key => (utf8 key).length) +
    message.payload.length + message.deliveryToken.elim 0 fun token => (utf8 token).length

theorem all_compact_of_valid {kind name : String} (h : Group.validateName kind name = .ok ()) :
    (utf8 name).all isCompactByte := by
  unfold Group.validateName at h
  split_ifs at h with hvalid
  refine List.all_eq_true.2 fun byte hmem => ?_
  have hname := List.all_eq_true.1 hvalid.2.2 byte hmem
  have hall : ((List.range 256).all fun n =>
      !Group.isNameByte (UInt8.ofNat n) || isCompactByte (UInt8.ofNat n)) = true := by
    decide +kernel
  have hbyte := List.all_eq_true.1 hall byte.toNat (List.mem_range.2 byte.toNat_lt)
  rw [UInt8.ofNat_toNat, hname] at hbyte
  exact hbyte

theorem Deliverable.length_le {message : Message} (h : Deliverable message) :
    3 * (render (forwardedBatchMessage message)).length ≤ 4 * contentLen message + 550 := by
  have hstream := length_quote_of_compact (all_compact_of_valid h.stream)
  have hoffset := length_number_le h.offset
  have hkey := length_forwardedKey_le message.key
  have hpayload := length_compactToJson_le message.payload
  have hpublished := length_number_le h.publishedAtMs
  have htoken := length_forwardedToken_le h.token
  have hattempt := length_forwardedAttempt_le h.attempt
  have hnames : (quote "stream").length = 8 ∧ (quote "offset").length = 8 ∧
      (quote "key").length = 5 ∧ (quote "payload").length = 9 ∧
      (quote "published_at_ms").length = 17 ∧ (quote "delivery_token").length = 16 ∧
      (quote "delivery_attempt").length = 18 := by decide
  simp only [forwardedBatchMessage, render, renderFields, List.length_cons, List.length_append,
    List.length_nil, hnames, forwardedPayload, contentLen]
  omega

theorem contentLen_le (consumer : String) (member : Option String) (message : Message) :
    contentLen message ≤ Protocol.itemLen (Protocol.messageLen consumer member message +
      2 * Protocol.defaultFields consumer message) := by
  have htext : ∀ text : Option String,
      (text.elim 0 fun text => (utf8 text).length) ≤ Protocol.textLen text := by
    intro text
    cases text with
    | none => exact le_rfl
    | some text => exact Nat.le_add_left _ _
  have hkey := htext message.key
  have htoken := htext message.deliveryToken
  rw [Protocol.messageLen_add]
  simp only [Protocol.itemLen, Protobuf.delimitedLen, contentLen]
  omega

theorem sum_length_le {messages : List Message} (h : ∀ message ∈ messages, Deliverable message) :
    3 * ((messages.map forwardedBatchMessage).map fun item => (render item).length + 1).sum ≤
      4 * (messages.map contentLen).sum + 553 * messages.length := by
  induction messages with
  | nil => exact le_rfl
  | cons message messages ih =>
    have hfirst := (h message List.mem_cons_self).length_le
    have hrest := ih fun other hmem => h other (List.mem_cons_of_mem _ hmem)
    simp only [List.map_cons, List.sum_cons, List.length_cons]
    omega

theorem length_forwardedBatchResponse_le {messages : List Message}
    (h : ∀ message ∈ messages, Deliverable message) :
    3 * (render (forwardedBatchResponse messages)).length ≤
      4 * (messages.map contentLen).sum + 553 * messages.length + 120 := by
  have harray := length_array_le (messages.map forwardedBatchMessage)
  have hsum := sum_length_le h
  have hnames : (quote "Forward").length = 9 ∧ (quote "PollGroupBatch").length = 16 ∧
      (quote "Ok").length = 4 := by decide
  simp only [forwardedBatchResponse] at harray ⊢
  rw [render, render, render]
  simp only [renderFields, List.length_cons, List.length_append, List.length_nil, hnames]
  omega

theorem sum_contentLen_le {stream consumer : String} {member : Option String}
    {messages : List Message}
    (h : pollBatchResponseLen stream consumer member messages ≤ maxConsumeBatchResponseBytes) :
    (messages.map contentLen).sum ≤ maxConsumeBatchResponseBytes := by
  have hitems : (messages.map contentLen).sum ≤ (messages.map fun message =>
      Protocol.itemLen (Protocol.messageLen consumer member message +
        2 * Protocol.defaultFields consumer message)).sum :=
    List.sum_le_sum fun message _ => contentLen_le consumer member message
  have hword : maxConsumeBatchResponseBytes < u64Max := by decide
  rw [Protocol.pollBatchResponseLen_eq, Protocol.saturated] at h
  omega

/-- A batch that is admitted under the public limit fits the frame of a peer, whatever its keys
and payloads are, and the length that is checked is the one of the frame. -/
theorem admitted_batch_forwardable {stream consumer : String} {member : Option String}
    {messages : List Message} (hcount : messages.length ≤ maxConsumeBatchRecords)
    (hmessages : ∀ message ∈ messages, Deliverable message)
    (hadmitted : pollBatchResponseLen stream consumer member messages ≤
      maxConsumeBatchResponseBytes) :
    (∃ frameLen, forwardedBatchResponseFrameLen messages = .ok frameLen ∧
      frameLen = (render (forwardedBatchResponse messages)).length ∧ frameLen ≤ maxFrameSize) ∧
    ensureForwardedBatchResponseFits messages = .ok () := by
  have hlength := length_forwardedBatchResponse_le hmessages
  have hcontent := sum_contentLen_le hadmitted
  have hfits : (render (forwardedBatchResponse messages)).length ≤ maxFrameSize := by
    simp only [maxConsumeBatchRecords, maxConsumeBatchResponseBytes, maxFrameSize] at *
    omega
  have hframe : forwardedBatchResponseFrameLen messages =
      .ok (render (forwardedBatchResponse messages)).length :=
    if_pos (hfits.trans (by decide))
  refine ⟨⟨_, hframe, rfl, hfits⟩, ?_⟩
  rw [ensureForwardedBatchResponseFits, hframe]
  exact if_neg (Nat.not_lt.2 hfits)

/-- Key and payload are text that a frame holds as it is. -/
def textMessage : Message where
  stream := "orders"
  offset := 8
  key := some "order-17"
  payload := utf8 "paid"
  publishedAtMs := 123
  deliveryToken := some "receipt-a"
  deliveryAttempt := some 1

/-- Neither the key nor the payload can be written as they are. -/
def binaryMessage : Message where
  stream := "orders"
  offset := 9
  key := some "control\u0000key"
  payload := [0x00, 0xff, 0x0a]
  publishedAtMs := 124
  deliveryToken := some "receipt-b"
  deliveryAttempt := some 5

/-- No key, and a payload of text with a quote. -/
def unkeyedMessage : Message where
  stream := "orders"
  offset := 10
  key := none
  payload := utf8 "12\" pipe"
  publishedAtMs := 125
  deliveryToken := some "receipt-c"
  deliveryAttempt := some 2

theorem mixed_batch_forwardable :
    let messages := [textMessage, binaryMessage, unkeyedMessage]
    pollBatchResponseLen "orders" "billing" none messages ≤ maxConsumeBatchResponseBytes ∧
    (∃ frameLen, forwardedBatchResponseFrameLen messages = .ok frameLen ∧
      frameLen = (render (forwardedBatchResponse messages)).length ∧ frameLen ≤ maxFrameSize) ∧
    ensureForwardedBatchResponseFits messages = .ok () := by
  intro messages
  have hadmitted : pollBatchResponseLen "orders" "billing" none messages ≤
      maxConsumeBatchResponseBytes := by decide +kernel
  refine ⟨hadmitted, admitted_batch_forwardable (by decide) ?_ hadmitted⟩
  intro message hmem
  simp only [messages, List.mem_cons, List.not_mem_nil, or_false] at hmem
  rcases hmem with rfl | rfl | rfl
  all_goals exact
    { stream := by decide +kernel
      offset := by decide
      publishedAtMs := by decide
      token := by
        rintro token ⟨⟩
        decide +kernel
      attempt := by
        rintro attempt ⟨⟩
        decide }

end Runnel.Network
