import Runnel.Protocol.ReplyCodec

/-!
# Replies there and back

A reply that the encoder accepts is read back as it was, with one exception: the
encoder writes the items of an acknowledgement batch as they are, and the decoder
expects that they agree with their metadata.
-/

namespace Runnel.Protocol

open Runnel.Engine Protobuf

def replyFrame (response : Wire.ApplicationResponse) : Wire.ServerFrame :=
  ⟨some (.application response)⟩

variable {reply : ApplicationReply}

theorem encodeServerFrame_eq_ok {bytes : Bytes}
    (h : encodeServerFrame (.application reply) = .ok bytes) :
    ∃ response, replyToWire reply = .ok response ∧
      bytes.drop 4 = encode (replyFrame response).fields ∧ bytes.drop 4 ≠ [] ∧
      (bytes.drop 4).length ≤ maxServerToClientFrameBytes ∧ (bytes.drop 4).length ≤ u32Max := by
  obtain ⟨fields, hfields, hmessage⟩ := except_bind_eq_ok_iff.1 h
  obtain ⟨response, hresponse, hframe⟩ := except_bind_eq_ok_iff.1 hfields
  obtain rfl := Except.ok.inj hframe
  unfold encodeMessage at hmessage
  dsimp only at hmessage
  split_ifs at hmessage with hsize
  obtain rfl := Except.ok.inj hmessage
  simp only [not_or, Nat.not_lt] at hsize
  have hdrop : ∀ body : Bytes,
      ((Bytes.le 4 body.length).reverse ++ body).drop 4 = body := fun body => by
    rw [List.drop_append_of_le_length (by simp), List.drop_of_length_le (by simp)]
    rfl
  rw [hdrop]
  exact ⟨response, hresponse, rfl, fun hnil => hsize.1 (by rw [hnil]; rfl), hsize.2.1, hsize.2.2⟩

@[simp] theorem outcomeFromWire_outcomeToWire (outcome : Outcome) :
    outcomeFromWire (outcomeToWire outcome) = .ok outcome := by
  cases outcome <;> rfl

@[simp] theorem stageFromWire_stageToWire (stage : Stage) :
    stageFromWire (stageToWire stage) = .ok stage := by
  cases stage <;> rfl

@[simp] theorem metadataFromWire_toWire (metadata : ItemMetadata) :
    metadataFromWire (outcomeToWire metadata.outcome) (stageToWire metadata.stage) =
      .ok metadata := by
  rw [metadataFromWire, outcomeFromWire_outcomeToWire, stageFromWire_stageToWire]
  rfl

@[simp] theorem asBytes_payloadFromWire (payload : Bytes) :
    (payloadFromWire payload).asBytes = payload := by
  unfold payloadFromWire
  cases htext : fromUtf8? payload with
  | none => rfl
  | some text => exact utf8_of_fromUtf8? htext

theorem publishItemFromWire_of_ok {item : PublishBatchRecordResponse} {metadata : ItemMetadata}
    {written : Wire.PublishItemResult} (h : publishItemResult item metadata = .ok written) :
    publishItemFromWire written = .ok (item, metadata) := by
  cases item with
  | published offset =>
    rw [publishItemResult] at h
    split_ifs at h with houtcome
    obtain rfl := Except.ok.inj h
    rw [publishItemFromWire, metadataFromWire_toWire]
    simp [houtcome, bind, Except.bind, pure, Except.pure]
  | error code message =>
    rw [publishItemResult] at h
    split_ifs at h with houtcome
    obtain rfl := Except.ok.inj h
    rw [publishItemFromWire, metadataFromWire_toWire]
    simp [houtcome, bind, Except.bind, pure, Except.pure]

theorem messageItemFromWire_of_ok {message : MessageResponse} {metadata : ItemMetadata}
    {written : Wire.MessageItemResult} (h : messageItemResult message metadata = .ok written) :
    messageItemFromWire written = .ok (messageFromWire (batchMessageToWire message), metadata) := by
  rw [messageItemResult] at h
  split_ifs at h with houtcome
  obtain rfl := Except.ok.inj h
  rw [messageItemFromWire, metadataFromWire_toWire]
  simp [houtcome, bind, Except.bind, pure, Except.pure]

/-- An item of an acknowledgement batch that agrees with its metadata: one that is confirmed says
nothing more, one that is rejected says why. -/
def AckBatchItemResponse.Consistent (item : AckBatchItemResponse) (metadata : ItemMetadata) :
    Prop :=
  match item.outcome with
  | .confirmed | .alreadyConfirmed =>
    metadata.outcome = .confirmed ∧ item.code = none ∧ item.message = none
  | .rejected => metadata.outcome ≠ .confirmed ∧ item.code.isSome ∧ item.message.isSome

theorem ackItemFromWire_eq_iff (item : AckBatchItemResponse) (metadata : ItemMetadata) :
    ackItemFromWire (ackItemResult item metadata) = .ok (item, metadata) ↔
      item.Consistent metadata := by
  obtain ⟨offset, outcome, code, message⟩ := item
  have hmetadata := metadataFromWire_toWire metadata
  cases outcome with
  | confirmed =>
    simp only [ackItemFromWire, ackItemResult, hmetadata, ackStatusFromWire,
      AckBatchItemResponse.Consistent]
    by_cases houtcome : metadata.outcome = .confirmed
    · simp [houtcome, bind, Except.bind, pure, Except.pure, eq_comm (a := none)]
    · simp [houtcome, bind, Except.bind]
  | alreadyConfirmed =>
    simp only [ackItemFromWire, ackItemResult, hmetadata, ackStatusFromWire,
      AckBatchItemResponse.Consistent]
    by_cases houtcome : metadata.outcome = .confirmed
    · simp [houtcome, bind, Except.bind, pure, Except.pure, eq_comm (a := none)]
    · simp [houtcome, bind, Except.bind]
  | rejected =>
    simp only [ackItemFromWire, ackItemResult, hmetadata, ackStatusFromWire,
      AckBatchItemResponse.Consistent]
    by_cases houtcome : metadata.outcome = .confirmed
    · simp [houtcome, bind, Except.bind]
    · cases code <;> cases message <;>
        simp [houtcome, bind, Except.bind, pure, Except.pure, throw, throwThe, MonadExceptOf.throw]

variable {α : Type}

theorem batchToWire_eq_ok {β : Type} {toWire : α → ItemMetadata → Except V2ProtocolError β}
    {items : List α} {written : List β}
    (h : batchToWire toWire reply items = .ok written) :
    reply.outcome = none ∧ reply.stage = none ∧ reply.items.length = items.length ∧
      List.Forall₂ (fun item result => toWire item.1 item.2 = .ok result)
        (items.zip reply.items) written := by
  unfold batchToWire at h
  split_ifs at h with hinvalid
  simp only [not_or, Bool.not_eq_true, Option.isSome_eq_false_iff, Option.isNone_iff_eq_none,
    ne_eq, not_not] at hinvalid
  exact ⟨hinvalid.1, hinvalid.2.1, hinvalid.2.2, forall₂_of_mapM h⟩

theorem mapM_fromWire {β γ : Type} {toWire : α → ItemMetadata → Except V2ProtocolError β}
    {fromWire : β → Except V2ProtocolError (γ × ItemMetadata)} (change : α → γ)
    {items : List (α × ItemMetadata)} {written : List β}
    (hwritten : List.Forall₂ (fun item result => toWire item.1 item.2 = .ok result) items written)
    (hread : ∀ item metadata result, toWire item metadata = .ok result →
      fromWire result = .ok (change item, metadata)) :
    written.mapM fromWire = .ok (items.map fun item => (change item.1, item.2)) := by
  apply mapM_of_forall₂
  rw [List.forall₂_map_right_iff]
  exact hwritten.flip.imp fun result item hitem => hread _ _ _ hitem

theorem map_fst_zip {γ : Type} {items : List α} {metadata : List ItemMetadata}
    (change : α → γ) (h : metadata.length = items.length) :
    ((items.zip metadata).map fun item => (change item.1, item.2)).map Prod.fst =
        items.map change ∧
      ((items.zip metadata).map fun item => (change item.1, item.2)).map Prod.snd =
        metadata := by
  rw [List.map_map, List.map_map]
  constructor
  · rw [show (Prod.fst ∘ fun item : α × ItemMetadata => (change item.1, item.2)) =
        change ∘ Prod.fst from rfl, ← List.map_map, List.map_fst_zip h.ge]
  · exact List.map_snd_zip h.le

theorem mapM_ackItemFromWire_iff (items : List (AckBatchItemResponse × ItemMetadata)) :
    (items.map fun item => ackItemResult item.1 item.2).mapM ackItemFromWire = .ok items ↔
      ∀ item ∈ items, item.1.Consistent item.2 := by
  constructor
  · intro h
    have hall := forall₂_of_mapM h
    rw [List.forall₂_map_left_iff, List.forall₂_same] at hall
    exact fun item hitem => (ackItemFromWire_eq_iff _ _).1 (hall item hitem)
  · intro h
    apply mapM_of_forall₂
    rw [List.forall₂_map_left_iff, List.forall₂_same]
    exact fun item hitem => (ackItemFromWire_eq_iff _ _).2 (h item hitem)

section Batches

variable {reply : ApplicationReply} (stream consumer : String)

theorem responseFromWire_publishBatch {outcomes : List PublishBatchRecordResponse}
    {written : List Wire.PublishItemResult}
    (h : batchToWire publishItemResult reply outcomes = .ok written) :
    responseFromWire (.publishBatch stream written) =
      .ok (.publishBatch stream outcomes, reply.items) := by
  obtain ⟨-, -, hlength, hitems⟩ := batchToWire_eq_ok h
  have hread := mapM_fromWire id hitems fun _ _ _ => publishItemFromWire_of_ok
  obtain ⟨hfst, hsnd⟩ := map_fst_zip id hlength
  rw [responseFromWire, hread]
  simp only [bind, Except.bind, pure, Except.pure, hfst, hsnd, List.map_id]

theorem responseFromWire_pollBatch {messages : List MessageResponse}
    {written : List Wire.MessageItemResult}
    (h : batchToWire messageItemResult reply messages = .ok written) :
    responseFromWire (.pollBatch stream consumer written) = .ok (.pollBatch stream consumer
      (messages.map fun message => messageFromWire (batchMessageToWire message)), reply.items) := by
  obtain ⟨-, -, hlength, hitems⟩ := batchToWire_eq_ok h
  have hread := mapM_fromWire (fun message => messageFromWire (batchMessageToWire message)) hitems
    fun _ _ _ => messageItemFromWire_of_ok
  obtain ⟨hfst, hsnd⟩ :=
    map_fst_zip (fun message => messageFromWire (batchMessageToWire message)) hlength
  rw [responseFromWire, hread]
  simp only [bind, Except.bind, pure, Except.pure, hfst, hsnd]

theorem responseFromWire_ackBatch_iff {outcomes : List AckBatchItemResponse}
    {written : List Wire.AckItemResult}
    (h : batchToWire (fun item metadata => .ok (ackItemResult item metadata)) reply outcomes =
      .ok written) :
    responseFromWire (.ackBatch stream consumer written) =
        .ok (.ackBatch stream consumer outcomes, reply.items) ↔
      ∀ item ∈ outcomes.zip reply.items, item.1.Consistent item.2 := by
  obtain ⟨-, -, hlength, hitems⟩ := batchToWire_eq_ok h
  have hwritten : written = (outcomes.zip reply.items).map fun item =>
      ackItemResult item.1 item.2 := by
    have hsame := List.forall₂_map_left_iff.2 (hitems.imp fun _ _ => Except.ok.inj)
    rw [List.forall₂_eq_eq_eq] at hsame
    exact hsame.symm
  rw [← mapM_ackItemFromWire_iff, ← hwritten, responseFromWire]
  cases hread : written.mapM ackItemFromWire with
  | error error => simp [bind, Except.bind]
  | ok items =>
    simp only [bind, Except.bind, pure, Except.pure, Except.ok.injEq, Prod.mk.injEq,
      Response.ackBatch.injEq, true_and]
    constructor
    · rintro ⟨rfl, hmetadata⟩
      exact List.zip_of_prod rfl hmetadata
    · rintro rfl
      exact ⟨List.map_fst_zip hlength.ge, List.map_snd_zip hlength.le⟩

end Batches

def MessageResponse.asBytes (message : MessageResponse) : MessageResponse :=
  { message with payload := .bytes message.payload.asBytes }

def Response.asBytes : Response → Response
  | .pollBatch stream consumer messages =>
    .pollBatch stream consumer (messages.map MessageResponse.asBytes)
  | .message result => .message result.asBytes
  | .replayMessage stream consumer offset key payload publishedAtMs =>
    .replayMessage stream consumer offset key (.bytes payload.asBytes) publishedAtMs
  | response => response

/-- A reply with its payloads as bytes, whether they travel as text or not. -/
def ApplicationReply.asBytes (reply : ApplicationReply) : ApplicationReply :=
  { reply with response := reply.response.asBytes }

/-- The items of an acknowledgement batch agree with their metadata. -/
def ApplicationReply.AcksConsistent (reply : ApplicationReply) : Prop :=
  ∀ stream consumer outcomes, reply.response = .ackBatch stream consumer outcomes →
    ∀ item ∈ outcomes.zip reply.items, item.1.Consistent item.2

theorem asBytes_messageFromWire (message : MessageResponse) :
    (messageFromWire (batchMessageToWire message)).asBytes = message.asBytes := by
  unfold MessageResponse.asBytes messageFromWire batchMessageToWire
  rw [asBytes_payloadFromWire]

theorem replyStatus_eq_ok {status : Option ℕ × Option ℕ} (h : replyStatus reply = .ok status) :
    ∃ outcome stage, reply.outcome = some outcome ∧ reply.stage = some stage ∧ reply.items = [] ∧
      status = (some (outcomeToWire outcome), some (stageToWire stage)) := by
  unfold replyStatus at h
  split_ifs at h with hitems
  simp only [Bool.not_eq_true, Bool.not_eq_false', List.isEmpty_iff] at hitems
  cases houtcome : reply.outcome with
  | none =>
    rw [houtcome] at h
    cases h
  | some outcome =>
    cases hstage : reply.stage with
    | none =>
      rw [houtcome, hstage] at h
      cases h
    | some stage =>
      rw [houtcome, hstage] at h
      exact ⟨outcome, stage, rfl, rfl, hitems, (Except.ok.inj h).symm⟩

theorem replyResult_of_scalar {result : Wire.Result} (h : replyResult reply = .ok (result, false)) :
    result.isBatch = false ∧ reply.AcksConsistent ∧
      ∃ response, responseFromWire result = .ok (response, []) ∧
        response.asBytes = reply.response.asBytes := by
  unfold replyResult at h
  unfold ApplicationReply.AcksConsistent
  cases hresponse : reply.response with
  | publishBatch stream outcomes =>
    rw [hresponse] at h
    obtain ⟨items, -, hitems⟩ := except_bind_eq_ok_iff.1 h
    cases hitems
  | pollBatch stream consumer messages =>
    rw [hresponse] at h
    obtain ⟨items, -, hitems⟩ := except_bind_eq_ok_iff.1 h
    cases hitems
  | ackBatch stream consumer outcomes =>
    rw [hresponse] at h
    obtain ⟨items, -, hitems⟩ := except_bind_eq_ok_iff.1 h
    cases hitems
  | message message =>
    rw [hresponse] at h
    obtain rfl := congrArg Prod.fst (Except.ok.inj h)
    exact ⟨rfl, nofun, _, rfl, congrArg Response.message (asBytes_messageFromWire message)⟩
  | replayMessage stream consumer offset key payload publishedAtMs =>
    rw [hresponse] at h
    obtain rfl := congrArg Prod.fst (Except.ok.inj h)
    refine ⟨rfl, nofun, _, rfl, ?_⟩
    simp only [Response.asBytes, asBytes_payloadFromWire]
  | _ =>
    rw [hresponse] at h
    obtain rfl := congrArg Prod.fst (Except.ok.inj h)
    exact ⟨rfl, nofun, _, rfl, rfl⟩

theorem replyResult_of_batch {result : Wire.Result} (h : replyResult reply = .ok (result, true)) :
    result.isBatch = true ∧ reply.outcome = none ∧ reply.stage = none ∧
      ((∃ response, responseFromWire result = .ok (response, reply.items) ∧
        response.asBytes = reply.response.asBytes) ↔ reply.AcksConsistent) := by
  unfold replyResult at h
  unfold ApplicationReply.AcksConsistent
  cases hresponse : reply.response with
  | publishBatch stream outcomes =>
    rw [hresponse] at h
    obtain ⟨written, hwritten, hresult⟩ := except_bind_eq_ok_iff.1 h
    obtain rfl := congrArg Prod.fst (Except.ok.inj hresult)
    obtain ⟨houtcome, hstage, -, -⟩ := batchToWire_eq_ok hwritten
    have hread := responseFromWire_publishBatch stream hwritten
    exact ⟨rfl, houtcome, hstage, iff_of_true ⟨_, hread, rfl⟩ nofun⟩
  | pollBatch stream consumer messages =>
    rw [hresponse] at h
    obtain ⟨written, hwritten, hresult⟩ := except_bind_eq_ok_iff.1 h
    obtain rfl := congrArg Prod.fst (Except.ok.inj hresult)
    obtain ⟨houtcome, hstage, -, -⟩ := batchToWire_eq_ok hwritten
    have hread := responseFromWire_pollBatch stream consumer hwritten
    refine ⟨rfl, houtcome, hstage, iff_of_true ⟨_, hread, ?_⟩ nofun⟩
    simp only [Response.asBytes, List.map_map, Function.comp_def, asBytes_messageFromWire]
  | ackBatch stream consumer outcomes =>
    rw [hresponse] at h
    obtain ⟨written, hwritten, hresult⟩ := except_bind_eq_ok_iff.1 h
    obtain rfl := congrArg Prod.fst (Except.ok.inj hresult)
    obtain ⟨houtcome, hstage, -, -⟩ := batchToWire_eq_ok hwritten
    have hiff := responseFromWire_ackBatch_iff stream consumer hwritten
    refine ⟨rfl, houtcome, hstage, ?_⟩
    constructor
    · rintro ⟨response, hread, hsame⟩ _ _ _ ⟨⟩
      -- A response that equals a batch up to the payloads is that batch.
      obtain ⟨items, -, hitems⟩ := except_bind_eq_ok_iff.1 hread
      have hitems := congrArg Prod.fst (Except.ok.inj hitems)
      dsimp only at hitems
      subst hitems
      simp only [Response.asBytes] at hsame
      rw [hsame] at hread
      exact hiff.1 hread
    · intro hconsistent
      exact ⟨_, hiff.2 (hconsistent _ _ _ rfl), rfl⟩
  | _ =>
    rw [hresponse] at h
    cases h

theorem replyFromWire_iff {written : Wire.ApplicationResponse}
    (h : replyToWire reply = .ok written) :
    (∃ decoded, replyFromWire written = .ok decoded ∧ decoded.asBytes = reply.asBytes) ↔
      reply.AcksConsistent := by
  obtain ⟨⟨result, batched⟩, hresult, h⟩ := except_bind_eq_ok_iff.1 h
  cases batched with
  | true =>
    obtain rfl := Except.ok.inj h
    obtain ⟨hbatch, houtcome, hstage, hiff⟩ := replyResult_of_batch hresult
    rw [← hiff]
    simp only [replyFromWire, hbatch]
    cases hread : responseFromWire result with
    | error error => simp [bind, Except.bind]
    | ok read =>
      obtain ⟨response, items⟩ := read
      simp [bind, Except.bind, pure, Except.pure, ApplicationReply.asBytes,
        ApplicationReply.batch, houtcome, hstage, and_comm]
  | false =>
    obtain ⟨hscalar, hconsistent, response, hread, hsame⟩ := replyResult_of_scalar hresult
    obtain ⟨status, hstatus, h⟩ := except_bind_eq_ok_iff.1 h
    obtain rfl := Except.ok.inj h
    obtain ⟨outcome, stage, houtcome, hstage, hitems, rfl⟩ := replyStatus_eq_ok hstatus
    refine iff_of_true ?_ hconsistent
    simp [replyFromWire, hscalar, hread, bind, Except.bind, pure, Except.pure,
      ApplicationReply.asBytes, hsame, houtcome, hstage, hitems]

/-- The protobuf library reads the message of a reply as it was written. -/
def ReadsBack (decode : Bytes → Option Wire.ServerFrame) (reply : ApplicationReply) : Prop :=
  ∀ response, replyToWire reply = .ok response →
    decode (encode (replyFrame response).fields) = some (replyFrame response)

theorem decodeServerFrame_eq {bytes : Bytes} {limit : ℕ} {decode : Bytes → Option Wire.ServerFrame}
    (hencode : encodeServerFrame (.application reply) = .ok bytes)
    (hlimit : (bytes.drop 4).length ≤ limit) (hprost : ReadsBack decode reply) :
    ∃ response, replyToWire reply = .ok response ∧
      decodeServerFrame decode (bytes.drop 4) limit =
        (replyFromWire response).map ServerFrame.application := by
  obtain ⟨response, hresponse, hbody, hnonempty, -, hword⟩ := encodeServerFrame_eq_ok hencode
  refine ⟨response, hresponse, ?_⟩
  have hmessage : decodeMessage decode (bytes.drop 4) limit = .ok (replyFrame response) := by
    have hfits : ¬((bytes.drop 4).isEmpty ∨ limit < (bytes.drop 4).length ∨
        u32Max < (bytes.drop 4).length) := by
      simp only [List.isEmpty_iff, hnonempty, false_or]
      omega
    rw [decodeMessage, if_neg hfits, hbody, hprost _ hresponse]
  rw [decodeServerFrame, hmessage]
  change (replyFromWire response >>= fun decoded => pure (ServerFrame.application decoded)) = _
  cases replyFromWire response <;> rfl

/-- A reply that is written is read back as it was, up to how its payloads are represented, exactly
if the items of an acknowledgement batch agree with their metadata. -/
theorem reply_round_trips_iff {reply : ApplicationReply} {bytes : Bytes}
    (decode : Bytes → Option Wire.ServerFrame)
    (hencode : encodeServerFrame (.application reply) = .ok bytes)
    (hprost : ReadsBack decode reply) :
    (∃ decoded, decodeServerFrame decode (bytes.drop 4) maxServerToClientFrameBytes =
        .ok (.application decoded) ∧ decoded.asBytes = reply.asBytes) ↔
      reply.AcksConsistent := by
  obtain ⟨-, -, -, -, hmax, -⟩ := encodeServerFrame_eq_ok hencode
  obtain ⟨response, hresponse, hdecode⟩ := decodeServerFrame_eq hencode hmax hprost
  rw [← replyFromWire_iff hresponse, hdecode]
  cases replyFromWire response with
  | error error => simp [Except.map]
  | ok decoded => simp [Except.map]

/-- A batch with one acknowledgement that is confirmed, with the outcome that its metadata has. -/
def oneAck (outcome : Outcome) : ApplicationReply :=
  .batch (.ackBatch "orders" "billing" [⟨7, .confirmed, none, none⟩]) [⟨outcome, .durable⟩]

theorem oneAck_written (outcome : Outcome) :
    ∃ bytes, encodeServerFrame (.application (oneAck outcome)) = .ok bytes := by
  have hok : (encodeServerFrame (.application (oneAck outcome))).toOption.isSome = true := by
    cases outcome <;> decide +kernel
  cases hencode : encodeServerFrame (.application (oneAck outcome)) with
  | error error =>
    rw [hencode] at hok
    cases hok
  | ok bytes => exact ⟨bytes, rfl⟩

def knownDecoder (reply : ApplicationReply) (_ : Bytes) : Option Wire.ServerFrame :=
  (replyToWire reply).toOption.map replyFrame

theorem readsBack_knownDecoder (reply : ApplicationReply) :
    ReadsBack (knownDecoder reply) reply := by
  intro response hresponse
  rw [knownDecoder, hresponse]
  rfl

theorem confirmed_ack_round_trips : ∃ bytes decode decoded,
    encodeServerFrame (.application (oneAck .confirmed)) = .ok bytes ∧
      decodeServerFrame decode (bytes.drop 4) maxServerToClientFrameBytes =
        .ok (.application decoded) ∧ decoded.asBytes = (oneAck .confirmed).asBytes := by
  obtain ⟨bytes, hencode⟩ := oneAck_written .confirmed
  have hconsistent : (oneAck .confirmed).AcksConsistent := by
    rintro stream consumer outcomes ⟨⟩ item hitem
    obtain rfl := List.mem_singleton.1 hitem
    exact ⟨rfl, rfl, rfl⟩
  obtain ⟨decoded, hdecode, hsame⟩ := (reply_round_trips_iff
    (knownDecoder (oneAck .confirmed)) hencode (readsBack_knownDecoder _)).2 hconsistent
  exact ⟨bytes, _, decoded, hencode, hdecode, hsame⟩

/-- An acknowledgement that is confirmed, with metadata that says it is rejected, is written and
cannot be read. -/
theorem contradictory_ack_rejected : ∃ bytes,
    encodeServerFrame (.application (oneAck .rejected)) = .ok bytes ∧
      ∀ decode, ReadsBack decode (oneAck .rejected) →
        decodeServerFrame decode (bytes.drop 4) maxServerToClientFrameBytes =
          .error .invalidResponse := by
  obtain ⟨bytes, hencode⟩ := oneAck_written .rejected
  refine ⟨bytes, hencode, fun decode hprost => ?_⟩
  obtain ⟨-, -, -, -, hmax, -⟩ := encodeServerFrame_eq_ok hencode
  obtain ⟨response, hresponse, hdecode⟩ := decodeServerFrame_eq hencode hmax hprost
  rw [hdecode, ← Except.ok.inj hresponse]
  rfl

end Runnel.Protocol
