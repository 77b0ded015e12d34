import Runnel.Protocol.ReplyRoundTrip
import Runnel.Server.BatchAdmission

/-!
# What a client learns of a batch

How the client turns the reply to a batch into the outcomes of its items. It
checks once more that the reply is the one it asked for.
-/

namespace Runnel.Client

open Runnel.Engine Runnel.Protocol Runnel.Server Protobuf

/-- The errors of the client itself that the reading of a reply can have. -/
inductive ClientError where
  | authenticationFailed
  | protocol
  | invalidResponse
  | unexpectedResponse (operation responseKind : String)
deriving DecidableEq, Repr

def ClientError.display : ClientError → String
  | .authenticationFailed => "server authentication failed"
  | .protocol => "v2 protocol frame is invalid"
  | .invalidResponse => "broker returned an invalid v2 response"
  | .unexpectedResponse operation responseKind =>
    "unexpected " ++ responseKind ++ " response for " ++ operation

inductive AttemptFailure where
  | broker (response : Response)
  | client (error : ClientError)
deriving DecidableEq, Repr

inductive AttemptOutcome where
  | confirmed (response : Response)
  | rejected (failure : AttemptFailure)
  | retryable (failure : AttemptFailure)
  | unknown (failure : AttemptFailure)
deriving DecidableEq, Repr

def AttemptOutcome.fromClientError (error : ClientError) : AttemptOutcome :=
  match error with
  | .authenticationFailed => .rejected (.client error)
  | _ => .unknown (.client error)

def responseKind : Response → String
  | .streamCreated .. => "stream_created"
  | .published .. => "published"
  | .publishBatch .. => "publish_batch"
  | .pollBatch .. => "poll_batch"
  | .message message =>
    match message.payload with
    | .text _ => "message"
    | .bytes _ => "message_bytes"
  | .replayMessage _ _ _ _ payload _ =>
    match payload with
    | .text _ => "replay_message"
    | .bytes _ => "replay_message_bytes"
  | .empty .. => "empty"
  | .acknowledged .. => "acknowledged"
  | .ackBatch .. => "ack_batch"
  | .consumerPolicy .. => "consumer_policy"
  | .health .. => "health"
  | .error .. => "error"

def isError : Response → Bool
  | .error .. => true
  | _ => false

def classifyV2Reply (reply : ApplicationReply) : AttemptOutcome :=
  match reply.outcome with
  | some .confirmed =>
    if isError reply.response then .unknown (.broker reply.response) else .confirmed reply.response
  | some .rejected => .rejected (.broker reply.response)
  | some .retryable => .retryable (.broker reply.response)
  | some .unknown => .unknown (.broker reply.response)
  | none => .unknown (.broker reply.response)

def readReply (decode : Bytes → Option Wire.ServerFrame) (frame : Bytes) (maxResponseBytes : ℕ) :
    Except ClientError ApplicationReply :=
  match decodeServerFrame decode (frame.drop 4) maxResponseBytes with
  | .ok (.application reply) => .ok reply
  | .ok .authenticationFailed => .error .authenticationFailed
  | .ok .authenticated => .error .protocol
  | .error _ => .error .invalidResponse

def unexpectedResponse (operation : String) (response : Response) : AttemptFailure :=
  .client (.unexpectedResponse operation (responseKind response))

structure PublishReceipt where
  stream : String
  offset : ℕ
deriving DecidableEq, Repr

inductive PublishBatchOutcome where
  | confirmed (receipt : PublishReceipt)
  | rejected (code message : String)
  | retryable (code message : String)
  | unknown (code message : String)
deriving DecidableEq, Repr

structure PublishBatchAttempt where
  outcomes : List PublishBatchOutcome
  attempt : Option AttemptFailure
deriving DecidableEq, Repr

def attemptFailureDetails : AttemptFailure → String × String
  | .broker (.error code message) => (code, message)
  | .broker response =>
    ("unexpected_response", "unexpected " ++ responseKind response ++ " response")
  | .client error => ("client_error", error.display)

def publishBatchFailure (recordCount : ℕ) (outcome : String → String → PublishBatchOutcome)
    (failure : AttemptFailure) : PublishBatchAttempt :=
  let (code, message) := attemptFailureDetails failure
  { outcomes := List.replicate recordCount (outcome code message), attempt := some failure }

def publishBatchUnexpected (recordCount : ℕ) (response : Response) : PublishBatchAttempt :=
  publishBatchFailure recordCount .unknown (unexpectedResponse "publish_batch" response)

def publishBatchAttempt (recordCount : ℕ) : AttemptOutcome → PublishBatchAttempt
  | .confirmed response => publishBatchUnexpected recordCount response
  | .rejected failure => publishBatchFailure recordCount .rejected failure
  | .retryable failure => publishBatchFailure recordCount .retryable failure
  | .unknown failure => publishBatchFailure recordCount .unknown failure

/-- The outcome of a record, if its response and its metadata agree. -/
def publishBatchRecord (stream : String) (metadata : ItemMetadata) :
    PublishBatchRecordResponse → Option PublishBatchOutcome
  | .published offset =>
    match metadata.outcome with
    | .confirmed => some (.confirmed ⟨stream, offset⟩)
    | _ => none
  | .error code message =>
    match metadata.outcome with
    | .confirmed => none
    | .rejected => some (.rejected code message)
    | .retryable => some (.retryable code message)
    | .unknown => some (.unknown code message)

def publishBatchReply (stream : String) (recordCount : ℕ) (reply : ApplicationReply) :
    PublishBatchAttempt :=
  if reply.outcome.isSome then publishBatchAttempt recordCount (classifyV2Reply reply)
  else
    match reply.response with
    | .publishBatch responseStream wireOutcomes =>
      if responseStream ≠ stream ∨ reply.items.length ≠ recordCount ∨
          wireOutcomes.length ≠ recordCount then
        publishBatchUnexpected recordCount (.publishBatch responseStream wireOutcomes)
      else
        match (reply.items.zip wireOutcomes).mapM fun item =>
          publishBatchRecord stream item.1 item.2 with
        | some outcomes => { outcomes, attempt := none }
        | none => publishBatchUnexpected recordCount (.publishBatch responseStream [])
    | response => publishBatchUnexpected recordCount response

/-- What the client answers once the frame with the reply is there. -/
def publishBatch (decode : Bytes → Option Wire.ServerFrame) (stream : String) (recordCount : ℕ)
    (frame : Bytes) (maxResponseBytes : ℕ) : PublishBatchAttempt :=
  match readReply decode frame maxResponseBytes with
  | .ok reply => publishBatchReply stream recordCount reply
  | .error error => publishBatchAttempt recordCount (.fromClientError error)

inductive BatchAcknowledgementOutcome where
  | confirmed
  | alreadyConfirmed
  | rejected (code message : String)
deriving DecidableEq, Repr

structure BatchAcknowledgementItem where
  offset : ℕ
  outcome : BatchAcknowledgementOutcome
deriving DecidableEq, Repr

/-- The request for a batch of acknowledgements, of a member of a group or not. -/
def ackBatchRequest (stream consumer : String) (member : Option String)
    (receipts : List DeliveryReceipt) : BatchWrite :=
  match member with
  | some member => .ackGroupBatch stream consumer member receipts
  | none => .ackBatch stream consumer receipts

def batchAcknowledgementItem (item : AckBatchItemResponse) : BatchAcknowledgementItem where
  offset := item.offset
  outcome :=
    match item.outcome with
    | .confirmed => .confirmed
    | .alreadyConfirmed => .alreadyConfirmed
    | .rejected => .rejected (item.code.getD "rejected")
        (item.message.getD "broker rejected the acknowledgement receipt")

/-- The acknowledgements of a response that is for these offsets, in this order. -/
def parseAckBatch (stream consumer : String) (expectedOffsets : List ℕ) :
    Response → Except Response (List BatchAcknowledgementItem)
  | .ackBatch responseStream responseConsumer outcomes =>
    if responseStream = stream ∧ responseConsumer = consumer ∧
        outcomes.length = expectedOffsets.length ∧
        (outcomes.zip expectedOffsets).all fun item => item.1.offset = item.2 then
      .ok (outcomes.map batchAcknowledgementItem)
    else .error (.ackBatch responseStream responseConsumer outcomes)
  | response => .error response

/-- The metadata of the items says of each the same as its response. -/
def batchReplyMetadataMatches (response : Response) (items : List ItemMetadata) : Bool :=
  match response with
  | .pollBatch _ _ messages =>
    messages.length == items.length && items.all fun item => item.outcome == .confirmed
  | .publishBatch _ outcomes =>
    outcomes.length == items.length && (outcomes.zip items).all fun item =>
      match item.1 with
      | .published _ => item.2.outcome == .confirmed
      | .error .. => item.2.outcome != .confirmed
  | .ackBatch _ _ outcomes =>
    outcomes.length == items.length && (outcomes.zip items).all fun item =>
      match item.1.outcome with
      | .confirmed | .alreadyConfirmed => item.2.outcome == .confirmed
      | .rejected => item.2.outcome != .confirmed
  | _ => false

section TypedReply

variable {α : Type} (operation : String) (parse : Response → Except Response α)

def parsed (response : Response) : Except AttemptOutcome α :=
  match parse response with
  | .ok value => .ok value
  | .error response => .error (.unknown (unexpectedResponse operation response))

def typedResponse : AttemptOutcome → Except AttemptOutcome α
  | .confirmed response => parsed operation parse response
  | outcome => .error outcome

def typedReply : Except ClientError ApplicationReply → Except AttemptOutcome α
  | .error error => typedResponse operation parse (.fromClientError error)
  | .ok reply =>
    if reply.outcome.isSome then typedResponse operation parse (classifyV2Reply reply)
    else if !batchReplyMetadataMatches reply.response reply.items then
      .error (.unknown (unexpectedResponse operation reply.response))
    else parsed operation parse reply.response

end TypedReply

/-- What the client answers once the frame with the reply is there. -/
def ackBatch (operation : String) (decode : Bytes → Option Wire.ServerFrame)
    (stream consumer : String) (receipts : List DeliveryReceipt) (frame : Bytes)
    (maxResponseBytes : ℕ) : Except AttemptOutcome (List BatchAcknowledgementItem) :=
  typedReply operation (parseAckBatch stream consumer (receipts.map DeliveryReceipt.offset))
    (readReply decode frame maxResponseBytes)

theorem eq_publishBatch_of_asBytes {response : Response} {stream : String}
    {outcomes : List PublishBatchRecordResponse}
    (h : response.asBytes = .publishBatch stream outcomes) :
    response = .publishBatch stream outcomes := by
  cases response <;> first | exact h | cases h

theorem eq_ackBatch_of_asBytes {response : Response} {stream consumer : String}
    {outcomes : List AckBatchItemResponse}
    (h : response.asBytes = .ackBatch stream consumer outcomes) :
    response = .ackBatch stream consumer outcomes := by
  cases response <;> first | exact h | cases h

theorem reply_received {decode : Bytes → Option Wire.ServerFrame} {reply : ApplicationReply}
    {limit : ℕ} (hmax : limit ≤ maxServerToClientFrameBytes) (hprost : ReadsBack decode reply)
    (hfits : encodedBodyLen reply ≤ limit) (hconsistent : reply.AcksConsistent)
    (hplain : ∀ response : Response, response.asBytes = reply.response.asBytes →
      response = reply.response) :
    ∃ frame, writeApplicationReply reply limit = .ok frame ∧
      readReply decode frame limit = .ok reply := by
  obtain ⟨frame, hencode, hlength, hwrite⟩ := written_of_encodedBodyLen_le hfits hmax
  refine ⟨frame, hwrite, ?_⟩
  have hbody : (frame.drop 4).length ≤ limit := List.length_drop.trans_le hlength
  obtain ⟨response, hresponse, hdecode⟩ := decodeServerFrame_eq hencode hbody hprost
  obtain ⟨decoded, hread, hsame⟩ := (replyFromWire_iff hresponse).2 hconsistent
  have heq : decoded = reply := by
    obtain ⟨decodedResponse, outcome, stage, items⟩ := decoded
    obtain ⟨replyResponse, _, _, _⟩ := reply
    simp only [ApplicationReply.asBytes, ApplicationReply.mk.injEq] at hsame ⊢
    exact ⟨hplain _ hsame.1, hsame.2⟩
  rw [readReply, hdecode, hread, heq]
  rfl

def receivedOutcome (stream : String) : PublishRecordOutcome → PublishBatchOutcome
  | .ok offset => .confirmed ⟨stream, offset⟩
  | .error error =>
    let code := publishBatchErrorCode error
    let message := boundedDiagnostic error.display
    match error.outcome with
    | .rejected => .rejected code message
    | .retryable => .retryable code message
    | .unknown => .unknown code message

theorem publishBatchRecord_publishBatchItem (stream : String) (outcome : PublishRecordOutcome) :
    publishBatchRecord stream (publishBatchItem outcome).2 (publishBatchItem outcome).1 =
      some (receivedOutcome stream outcome) := by
  cases outcome with
  | ok offset => rfl
  | error error =>
    rw [publishBatchItem, publishBatchRecord, receivedOutcome]
    cases error.outcome <;> rfl

theorem publishBatchReply_received (stream : String) (outcomes : List PublishRecordOutcome) :
    publishBatchReply stream outcomes.length (Server.publishBatchReply stream outcomes) =
      ⟨outcomes.map (receivedOutcome stream), none⟩ := by
  have hitems : (((outcomes.map publishBatchItem).map Prod.snd).zip
      ((outcomes.map publishBatchItem).map Prod.fst)).mapM (fun item =>
        publishBatchRecord stream item.1 item.2) =
      some (outcomes.map (receivedOutcome stream)) := by
    induction outcomes with
    | nil => rfl
    | cons outcome outcomes ih =>
      simp only [List.map_cons, List.zip_cons_cons, List.mapM_cons,
        publishBatchRecord_publishBatchItem, ih]
      rfl
  simp only [publishBatchReply, Server.publishBatchReply, ApplicationReply.batch,
    Option.isSome_none, Bool.false_eq_true, if_false, List.length_map, ne_eq, not_true_eq_false,
    or_self, hitems]

def Reports (stream : String) (outcome : PublishRecordOutcome) (received : PublishBatchOutcome) :
    Prop :=
  (∀ offset, received = .confirmed ⟨stream, offset⟩ ↔ outcome = .ok offset) ∧
    ((∃ code message, received = .rejected code message) ↔
      ∃ error, outcome = .error error ∧ error.outcome = .rejected) ∧
    ((∃ code message, received = .retryable code message) ↔
      ∃ error, outcome = .error error ∧ error.outcome = .retryable) ∧
    ((∃ code message, received = .unknown code message) ↔
      ∃ error, outcome = .error error ∧ error.outcome = .unknown)

theorem reports_receivedOutcome (stream : String) (outcome : PublishRecordOutcome) :
    Reports stream outcome (receivedOutcome stream outcome) := by
  cases outcome with
  | ok offset => simp [Reports, receivedOutcome]
  | error error => cases houtcome : error.outcome <;> simp [Reports, receivedOutcome, houtcome]

/-- The client reports of an acknowledgement what the engine said of it. -/
def ReportsAck (item : AckBatchItem) (received : BatchAcknowledgementItem) : Prop :=
  received.offset = item.offset ∧
    (received.outcome = .confirmed ↔ item.outcome = .confirmed) ∧
    (received.outcome = .alreadyConfirmed ↔ item.outcome = .alreadyConfirmed) ∧
    ((∃ code message, received.outcome = .rejected code message) ↔
      ∃ reason, item.outcome = .rejected reason)

theorem reportsAck_batchAcknowledgementItem (item : AckBatchItem) :
    ReportsAck item (batchAcknowledgementItem (ackBatchItemResponse item)) := by
  obtain ⟨offset, outcome⟩ := item
  cases outcome with
  | confirmed => simp [ReportsAck, batchAcknowledgementItem, ackBatchItemResponse]
  | alreadyConfirmed => simp [ReportsAck, batchAcknowledgementItem, ackBatchItemResponse]
  | rejected reason => simp [ReportsAck, batchAcknowledgementItem, ackBatchItemResponse]

theorem consistent_ackBatchItem (item : AckBatchItem) :
    (ackBatchItemResponse item).Consistent (ackBatchItemMetadata item) := by
  obtain ⟨offset, outcome⟩ := item
  cases outcome with
  | confirmed => exact ⟨rfl, rfl, rfl⟩
  | alreadyConfirmed => exact ⟨rfl, rfl, rfl⟩
  | rejected reason => exact ⟨nofun, rfl, rfl⟩

theorem ackBatchReply_received (operation stream consumer : String) (items : List AckBatchItem)
    {receipts : List DeliveryReceipt}
    (hoffsets : items.map AckBatchItem.offset = receipts.map DeliveryReceipt.offset) :
    typedReply operation (parseAckBatch stream consumer (receipts.map DeliveryReceipt.offset))
        (.ok (ackBatchReply stream consumer items)) =
      .ok (items.map fun item => batchAcknowledgementItem (ackBatchItemResponse item)) := by
  have hmetadata : batchReplyMetadataMatches (ackBatchReply stream consumer items).response
      (ackBatchReply stream consumer items).items = true := by
    simp only [ackBatchReply, ApplicationReply.batch, batchReplyMetadataMatches, List.length_map,
      beq_self_eq_true, Bool.true_and, List.zip_map', List.all_map, List.all_eq_true]
    intro item _
    obtain ⟨offset, outcome⟩ := item
    cases outcome <;> rfl
  have hparse : parseAckBatch stream consumer (items.map AckBatchItem.offset)
      (ackBatchReply stream consumer items).response =
      .ok (items.map fun item => batchAcknowledgementItem (ackBatchItemResponse item)) := by
    have hplaces : (((items.map ackBatchItemResponse).zip (items.map AckBatchItem.offset)).all
        fun item => item.1.offset = item.2) = true := by
      rw [List.zip_map', List.all_map, List.all_eq_true]
      intro item _
      obtain ⟨offset, outcome⟩ := item
      cases outcome <;> exact decide_eq_true rfl
    have hcount : (items.map ackBatchItemResponse).length =
        (items.map AckBatchItem.offset).length := by
      rw [List.length_map, List.length_map]
    refine (if_pos ⟨rfl, rfl, hcount, hplaces⟩).trans ?_
    rw [List.map_map]
    rfl
  rw [← hoffsets, typedReply, if_neg (by simp [ackBatchReply, ApplicationReply.batch]), hmetadata]
  simp only [Bool.not_true, Bool.false_eq_true, if_false, parsed, hparse]

theorem acksConsistent_ackBatchReply (stream consumer : String) (items : List AckBatchItem) :
    (ackBatchReply stream consumer items).AcksConsistent := by
  rintro _ _ _ ⟨⟩ item hitem
  rw [ackBatchReply, ApplicationReply.batch, List.zip_map'] at hitem
  obtain ⟨item, -, rfl⟩ := List.mem_map.1 hitem
  exact consistent_ackBatchItem item

/-- What the engine answers to a batch of acknowledgements, of a member of a group or not. -/
def ackAnswer (engine : BatchEngine) (stream consumer : String) (member : Option String)
    (receipts : List DeliveryReceipt) : Except BrokerError AckBatchResult :=
  match member with
  | some member => engine.ackGroupBatch stream consumer member receipts
  | none => engine.ackBatch stream consumer receipts

theorem executedReply_ackBatchRequest {engine : BatchEngine} {stream consumer : String}
    {member : Option String} {receipts : List DeliveryReceipt} {result : AckBatchResult}
    (h : ackAnswer engine stream consumer member receipts = .ok result) :
    executedReply engine (ackBatchRequest stream consumer member receipts) =
      ackBatchReply stream consumer result.outcomes := by
  cases member with
  | none =>
    change engine.ackBatch stream consumer receipts = _ at h
    rw [ackBatchRequest, executedReply, h]
  | some member =>
    change engine.ackGroupBatch stream consumer member receipts = _ at h
    rw [ackBatchRequest, executedReply, h]

/-- A batch that is executed and whose reply fits the limit of the connection: the client reports
of every record, and of every acknowledgement in its place, what the engine said of it. -/
theorem batch_outcomes_survive (decode : Bytes → Option Wire.ServerFrame) (engine : BatchEngine)
    {limit : ℕ} (hmax : limit ≤ maxServerToClientFrameBytes) :
    (∀ stream records outcomes, engine.publishBatch stream records = .ok outcomes →
      outcomes.length = records.length →
      ReadsBack decode (executedReply engine (.publishBatch stream records)) →
      encodedBodyLen (executedReply engine (.publishBatch stream records)) ≤ limit →
      ∃ frame received,
        writeApplicationReply (executedReply engine (.publishBatch stream records)) limit =
          .ok frame ∧
        publishBatch decode stream records.length frame limit = ⟨received, none⟩ ∧
        List.Forall₂ (Reports stream) outcomes received) ∧
    ∀ operation stream consumer member receipts result,
      ackAnswer engine stream consumer member receipts = .ok result →
      result.outcomes.map AckBatchItem.offset = receipts.map DeliveryReceipt.offset →
      ReadsBack decode (executedReply engine (ackBatchRequest stream consumer member receipts)) →
      encodedBodyLen (executedReply engine (ackBatchRequest stream consumer member receipts)) ≤
        limit →
      ∃ frame received,
        writeApplicationReply
            (executedReply engine (ackBatchRequest stream consumer member receipts)) limit =
          .ok frame ∧
        ackBatch operation decode stream consumer receipts frame limit = .ok received ∧
        List.Forall₂ ReportsAck result.outcomes received := by
  constructor
  · intro stream records outcomes hanswer hlength hprost hfits
    have hreply : executedReply engine (.publishBatch stream records) =
        Server.publishBatchReply stream outcomes := by
      rw [executedReply, hanswer]
      exact if_neg (not_not.2 hlength)
    rw [hreply] at hprost hfits ⊢
    obtain ⟨frame, hwrite, hread⟩ := reply_received hmax hprost hfits
      (by rintro _ _ _ ⟨⟩) fun _ => eq_publishBatch_of_asBytes
    refine ⟨frame, outcomes.map (receivedOutcome stream), hwrite, ?_, ?_⟩
    · rw [publishBatch, hread, ← hlength]
      exact publishBatchReply_received stream outcomes
    · rw [List.forall₂_map_right_iff, List.forall₂_same]
      exact fun outcome _ => reports_receivedOutcome stream outcome
  · intro operation stream consumer member receipts result hanswer hoffsets hprost hfits
    have hreply := executedReply_ackBatchRequest hanswer
    rw [hreply] at hprost hfits ⊢
    obtain ⟨frame, hwrite, hread⟩ := reply_received hmax hprost hfits
      (acksConsistent_ackBatchReply stream consumer result.outcomes) fun _ => eq_ackBatch_of_asBytes
    refine ⟨frame, result.outcomes.map fun item =>
      batchAcknowledgementItem (ackBatchItemResponse item), hwrite, ?_, ?_⟩
    · rw [ackBatch, hread]
      exact ackBatchReply_received operation stream consumer result.outcomes hoffsets
    · rw [List.forall₂_map_right_iff, List.forall₂_same]
      exact fun item _ => reportsAck_batchAcknowledgementItem item

/-- A record that is stored and one in conflict with an earlier one. -/
theorem conflict_reported : ∃ decode frame received,
    writeApplicationReply (Server.publishBatchReply "orders"
        [.ok 7, .error .requestIdContentConflict]) 1024 = .ok frame ∧
      publishBatch decode "orders" 2 frame 1024 = ⟨received, none⟩ ∧
      List.Forall₂ (Reports "orders") [.ok 7, .error .requestIdContentConflict] received := by
  have hfits : encodedBodyLen (executedReply conflictEngine
      (.publishBatch "orders" [⟨none, [1], none⟩, ⟨none, [2], none⟩])) ≤ 1024 := by
    decide +kernel
  obtain ⟨frame, received, hwrite, hreceived, hreports⟩ := (batch_outcomes_survive
    (knownDecoder (executedReply conflictEngine
      (.publishBatch "orders" [⟨none, [1], none⟩, ⟨none, [2], none⟩]))) conflictEngine
    (show 1024 ≤ maxServerToClientFrameBytes by decide)).1 "orders"
      [⟨none, [1], none⟩, ⟨none, [2], none⟩] _ rfl rfl (readsBack_knownDecoder _) hfits
  exact ⟨_, frame, received, hwrite, hreceived, hreports⟩

end Runnel.Client
