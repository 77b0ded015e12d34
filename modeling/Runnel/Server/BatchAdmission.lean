import Runnel.Foundation.Text
import Runnel.Server.BatchWrite

/-!
# The bound on the reply to a batch of writes

Every item of a reply is at most as long as the item that the bound is computed
with: its code, its diagnostic and its numbers are.
-/

namespace Runnel.Server

open Runnel.Engine Runnel.Protocol Protobuf

theorem charBoundaryUpTo_le (text : Bytes) (index : ℕ) : charBoundaryUpTo text index ≤ index := by
  induction index with
  | zero => exact Nat.le_refl _
  | succ index ih =>
    rw [charBoundaryUpTo]
    split_ifs
    · exact Nat.le_refl _
    · exact ih.trans (Nat.le_succ _)

theorem length_boundedDiagnostic_le (message : String) :
    (utf8 (boundedDiagnostic message)).length ≤ maxBatchDiagnosticBytes := by
  unfold boundedDiagnostic
  dsimp only
  split_ifs with hshort
  · exact hshort
  · cases hcut : fromUtf8? ((utf8 message).take
        (charBoundaryUpTo (utf8 message) maxBatchDiagnosticBytes)) with
    | none => exact Nat.zero_le _
    | some text =>
      rw [Option.getD_some, utf8_of_fromUtf8? hcut, List.length_take]
      exact (Nat.min_le_left _ _).trans (charBoundaryUpTo_le _ _)

theorem length_worstDiagnostic : (utf8 worstDiagnostic).length = maxBatchDiagnosticBytes := by
  decide +kernel

def WordError : BrokerError → Prop
  | .consumeBatchRecordTooLarge maxBytes => maxBytes ≤ u64Max
  | _ => True

def textsLen (code message : String) : ℕ :=
  delimitedLen (utf8 code).length + delimitedLen (utf8 message).length

def worstTextsLen : ℕ := textsLen "request_id_content_conflict" worstDiagnostic

theorem worstTextsLen_eq : worstTextsLen = 288 := by
  rw [worstTextsLen, textsLen, length_worstDiagnostic]
  decide

theorem textsLen_le {code : String} (message : String)
    (hcode : (utf8 code).length ≤ (utf8 "request_id_content_conflict").length) :
    textsLen code (boundedDiagnostic message) ≤ worstTextsLen :=
  Nat.add_le_add (delimitedLen_mono hcode)
    (delimitedLen_mono ((length_boundedDiagnostic_le message).trans length_worstDiagnostic.ge))

theorem textsLen_recordTooLarge_le {maxBytes : ℕ} (h : maxBytes ≤ u64Max) :
    textsLen "consume_batch_record_too_large"
      (boundedDiagnostic (BrokerError.consumeBatchRecordTooLarge maxBytes).display) ≤
      worstTextsLen := by
  have hdigits : (utf8 (toString maxBytes)).length ≤ 80 := by
    have hcount : (Nat.toDigits 10 maxBytes).length ≤ 20 :=
      (Nat.length_toDigits_le_iff (by decide) (by decide)).2 (h.trans_lt (by decide))
    have hsize := utf8ByteSize_ofList_le (Nat.toDigits 10 maxBytes)
    rw [← Nat.toString_eq_ofList_toDigits] at hsize
    exact hsize.trans (by omega)
  have hdisplay :
      (utf8 (BrokerError.consumeBatchRecordTooLarge maxBytes).display).length ≤ 200 := by
    have hparts : ∀ first digits last : String, (utf8 (first ++ digits ++ last)).length =
        (utf8 first).length + (utf8 digits).length + (utf8 last).length := by
      intro first digits last
      rw [utf8_append, utf8_append, List.length_append, List.length_append]
    have hfirst : (utf8 "the first eligible message cannot fit in the ").length ≤ 60 := by
      decide
    have hlast : (utf8 "-byte consume-batch response bound").length ≤ 60 := by decide
    calc (utf8 (BrokerError.consumeBatchRecordTooLarge maxBytes).display).length
        = (utf8 "the first eligible message cannot fit in the ").length +
            (utf8 (toString maxBytes)).length +
            (utf8 "-byte consume-batch response bound").length := hparts _ _ _
      _ ≤ 60 + 80 + 60 := Nat.add_le_add (Nat.add_le_add hfirst hdigits) hlast
  have hwhole : boundedDiagnostic (BrokerError.consumeBatchRecordTooLarge maxBytes).display =
      (BrokerError.consumeBatchRecordTooLarge maxBytes).display :=
    if_pos (hdisplay.trans (by decide))
  have hcode : delimitedLen (utf8 "consume_batch_record_too_large").length = 32 := by
    decide
  have hworst : delimitedLen 200 + 32 ≤ worstTextsLen := by
    rw [worstTextsLen_eq]
    decide
  rw [textsLen, hwhole, hcode]
  have hmessage := delimitedLen_mono hdisplay
  omega

variable {error : BrokerError}

theorem textsLen_errorCode_le (h : WordError error) :
    textsLen (errorCode error) (boundedDiagnostic error.display) ≤ worstTextsLen := by
  cases error with
  | consumeBatchRecordTooLarge maxBytes => exact textsLen_recordTooLarge_le h
  | consumerStatePersistence stage message =>
    cases stage <;> exact textsLen_le _ (by simp only [errorCode]; decide)
  | _ => exact textsLen_le _ (by simp only [errorCode]; decide)

theorem publishBatchErrorCode_cases (error : BrokerError) :
    publishBatchErrorCode error = "invalid_record" ∨
      publishBatchErrorCode error = errorCode error := by
  unfold publishBatchErrorCode
  split
  · exact Or.inl rfl
  · split_ifs
    · exact Or.inl rfl
    · exact Or.inr rfl
  · exact Or.inr rfl

theorem textsLen_publishBatchErrorCode_le (h : WordError error) :
    textsLen (publishBatchErrorCode error) (boundedDiagnostic error.display) ≤ worstTextsLen := by
  rcases publishBatchErrorCode_cases error with hcode | hcode
  · rw [hcode]
    exact textsLen_le _ (by decide)
  · rw [hcode]
    exact textsLen_errorCode_le h

theorem varintLen_le_of_word {value : ℕ} (h : value ≤ u64Max) : varintLen value ≤ 10 :=
  (varintLen_mono h).trans (by decide)

theorem numberLen_le_of_word {value : ℕ} (h : value ≤ u64Max) : numberLen value ≤ 11 := by
  have hlen := varintLen_le_of_word h
  unfold numberLen
  split_ifs <;> omega

theorem length_outcomeToWire {number : ℕ} (hnumber : number ≤ 15) (outcome : Outcome) :
    (encode (implicitUint number (outcomeToWire outcome))).length = 2 := by
  rw [length_implicitUint hnumber]
  cases outcome <;> rfl

theorem length_stageToWire {number : ℕ} (hnumber : number ≤ 15) (stage : Stage) :
    (encode (implicitUint number (stageToWire stage))).length = 2 := by
  rw [length_implicitUint hnumber]
  cases stage <;> rfl

/-- A record that is published is confirmed, and no other is. -/
def Admissible (item : PublishBatchRecordResponse × ItemMetadata) : Prop :=
  match item.1 with
  | .published _ => item.2.outcome = .confirmed
  | .error .. => item.2.outcome ≠ .confirmed

def publishItemLen (item : PublishBatchRecordResponse) : ℕ :=
  4 + match item with
    | .published offset => 1 + varintLen offset
    | .error code message => textsLen code message

theorem publishItemLen_published (offset : ℕ) :
    publishItemLen (.published offset) = 4 + (1 + varintLen offset) := rfl

theorem publishItemLen_error (code message : String) :
    publishItemLen (.error code message) = 4 + textsLen code message := rfl

theorem length_publishItem {item : PublishBatchRecordResponse × ItemMetadata}
    (h : Admissible item) : ∃ written, publishItemResult item.1 item.2 = .ok written ∧
      (encode written.fields).length = publishItemLen item.1 := by
  obtain ⟨item, metadata⟩ := item
  cases item with
  | published offset =>
    refine ⟨_, if_neg (not_not.2 h), ?_⟩
    simp only [Wire.PublishItemResult.fields, length_encode_append]
    rw [length_outcomeToWire (by decide), length_stageToWire (by decide),
      length_optionalUint (by decide)]
    rfl
  | error code message =>
    refine ⟨_, if_neg h, ?_⟩
    simp only [Wire.PublishItemResult.fields, length_encode_append]
    rw [length_outcomeToWire (by decide), length_stageToWire (by decide),
      length_optionalString (by decide), length_optionalString (by decide), Nat.add_assoc]
    rfl

/-- The length of the result of an acknowledgement. -/
def ackItemLen (item : AckBatchItemResponse) : ℕ :=
  6 + numberLen item.offset + match item.outcome with
    | .confirmed | .alreadyConfirmed => 0
    | .rejected => textLen item.code + textLen item.message

theorem length_ackItem (item : AckBatchItemResponse × ItemMetadata) :
    (encode (ackItemResult item.1 item.2).fields).length = ackItemLen item.1 := by
  obtain ⟨⟨offset, outcome, code, message⟩, metadata⟩ := item
  have hstatus : ∀ status ∈ [1, 2, 3], (encode (implicitUint 4 status)).length = 2 := by decide
  have hstate : (encode (implicitUint 1 offset ++ implicitUint 2 (outcomeToWire metadata.outcome) ++
      implicitUint 3 (stageToWire metadata.stage))).length = numberLen offset + 4 := by
    rw [length_encode_append, length_encode_append, length_implicitUint (by decide),
      length_outcomeToWire (by decide), length_stageToWire (by decide)]
    rfl
  rw [Wire.AckItemResult.fields, length_encode_append, length_encode_append, length_encode_append,
    length_optionalString (by decide), length_optionalString (by decide)]
  cases outcome with
  | confirmed =>
    rw [ackItemResult, hstate, hstatus 1 (by decide)]
    simp only [ackItemLen, Option.elim]
    omega
  | alreadyConfirmed =>
    rw [ackItemResult, hstate, hstatus 2 (by decide)]
    simp only [ackItemLen, Option.elim]
    omega
  | rejected =>
    rw [ackItemResult, hstate, hstatus 3 (by decide)]
    simp only [ackItemLen, textLen]
    omega

/-- A batch whose items can be written is written, and the lengths of its items add up. -/
theorem batchToWire_of_items {α β : Type}
    {toWire : α → ItemMetadata → Except V2ProtocolError β} {fields : β → List Field}
    {itemLen : α → ℕ} {number : ℕ} (hnumber : number ≤ 15) (response : Response)
    (items : List (α × ItemMetadata))
    (hitems : ∀ item ∈ items, ∃ written, toWire item.1 item.2 = .ok written ∧
      (encode (fields written)).length = itemLen item.1) :
    ∃ written, batchToWire toWire (.batch response (items.map Prod.snd)) (items.map Prod.fst) =
        .ok written ∧
      (encode (written.flatMap fun item => embedded number (fields item))).length =
        (items.map fun item => delimitedLen (itemLen item.1)).sum := by
  suffices hmap : ∃ written, (items.mapM fun item => toWire item.1 item.2) = .ok written ∧
      (encode (written.flatMap fun item => embedded number (fields item))).length =
        (items.map fun item => delimitedLen (itemLen item.1)).sum by
    obtain ⟨written, hwritten, hlength⟩ := hmap
    refine ⟨written, ?_, hlength⟩
    rw [batchToWire, if_neg (by simp [ApplicationReply.batch]), ApplicationReply.batch,
      ← List.zip_of_prod rfl rfl, hwritten]
  induction items with
  | nil => exact ⟨[], rfl, rfl⟩
  | cons item items ih =>
    obtain ⟨first, hfirst, hlength⟩ := hitems item List.mem_cons_self
    obtain ⟨written, hwritten, hrest⟩ := ih fun item h => hitems item (List.mem_cons_of_mem _ h)
    refine ⟨first :: written, ?_, ?_⟩
    · rw [List.mapM_cons, hfirst, hwritten]
      rfl
    · rw [List.flatMap_cons, length_encode_append, length_embedded hnumber, hlength, hrest,
        List.map_cons, List.sum_cons]

/-- The length of a batch result, from the lengths of what comes before the items and of the
items. -/
def batchBodyLen (header items : ℕ) : ℕ := delimitedLen (delimitedLen (header + items))

variable {header : ℕ}

theorem batchBodyLen_mono {a b : ℕ} (h : a ≤ b) :
    batchBodyLen header a ≤ batchBodyLen header b :=
  delimitedLen_mono (delimitedLen_mono (Nat.add_le_add_left h _))

theorem length_publishReply (stream : String)
    (items : List (PublishBatchRecordResponse × ItemMetadata))
    (hitems : ∀ item ∈ items, Admissible item) :
    ∃ message, serverFrameToWire (.application (.batch
        (.publishBatch stream (items.map Prod.fst)) (items.map Prod.snd))) = .ok message ∧
      (encode message).length = batchBodyLen (presentLen (utf8 stream).length)
        (items.map fun item => delimitedLen (publishItemLen item.1)).sum := by
  obtain ⟨written, hwritten, hlength⟩ := batchToWire_of_items (show 2 ≤ 15 by decide)
    (.publishBatch stream (items.map Prod.fst)) items fun item h =>
      length_publishItem (hitems item h)
  have hresult : replyResult (.batch (.publishBatch stream (items.map Prod.fst))
      (items.map Prod.snd)) = .ok (.publishBatch stream written, true) := by
    simp only [replyResult, ApplicationReply.batch] at hwritten ⊢
    rw [hwritten]
    rfl
  refine ⟨embedded 3 (Wire.Result.publishBatch stream written).fields, ?_, ?_⟩
  · rw [serverFrameToWire, replyToWire, hresult]
    rfl
  · rw [length_embedded (by decide), Wire.Result.fields, length_embedded (by decide),
      length_encode_append, length_string (by decide), hlength, batchBodyLen]

theorem length_ackReply (stream consumer : String)
    (items : List (AckBatchItemResponse × ItemMetadata)) :
    ∃ message, serverFrameToWire (.application (.batch
        (.ackBatch stream consumer (items.map Prod.fst)) (items.map Prod.snd))) = .ok message ∧
      (encode message).length =
        batchBodyLen (presentLen (utf8 stream).length + presentLen (utf8 consumer).length)
          (items.map fun item => delimitedLen (ackItemLen item.1)).sum := by
  have hitems : ∀ item ∈ items, ∃ written, Except.ok (ackItemResult item.1 item.2) =
      (.ok written : Except V2ProtocolError _) ∧
      (encode written.fields).length = ackItemLen item.1 :=
    fun item _ => ⟨_, rfl, length_ackItem item⟩
  obtain ⟨written, hwritten, hlength⟩ := @batchToWire_of_items _ _
    (fun item metadata => .ok (ackItemResult item metadata)) _ _ 3 (by decide)
    (.ackBatch stream consumer (items.map Prod.fst)) items hitems
  have hresult : replyResult (.batch (.ackBatch stream consumer (items.map Prod.fst))
      (items.map Prod.snd)) = .ok (.ackBatch stream consumer written, true) := by
    simp only [replyResult, ApplicationReply.batch] at hwritten ⊢
    rw [hwritten]
    rfl
  refine ⟨embedded 3 (Wire.Result.ackBatch stream consumer written).fields, ?_, ?_⟩
  · rw [serverFrameToWire, replyToWire, hresult]
    rfl
  · rw [length_embedded (by decide), Wire.Result.fields, length_embedded (by decide),
      length_encode_append, length_encode_append, length_string (by decide),
      length_string (by decide), hlength, batchBodyLen]

theorem length_failedReply (error : BrokerError) :
    ∃ message, serverFrameToWire (.application (failedReply error)) = .ok message ∧
      0 < (encode message).length ∧
      (encode message).length ≤ delimitedLen (4 + delimitedLen
        (textsLen (errorCode error) (boundedDiagnostic error.display))) := by
  have hoptional : ∀ (number value : ℕ), number ≤ 15 → value < 0x80 →
      (encode (optionalUint number (some value))).length = 2 := by
    intro number value hnumber hvalue
    rw [length_optionalUint hnumber, Option.elim, varintLen_of_lt hvalue]
  have hpresent : ∀ length, presentLen length ≤ delimitedLen length := by
    intro length
    unfold presentLen
    split_ifs
    · exact Nat.zero_le _
    · exact Nat.le_refl _
  have houtcome : outcomeToWire (brokerOutcome error.outcome) < 0x80 := by
    cases error.outcome <;> decide
  refine ⟨_, rfl, ?_⟩
  rw [length_embedded (by decide), Wire.ApplicationResponse.fields, length_encode_append,
    length_encode_append, hoptional 1 _ (by decide) houtcome, hoptional 2 _ (by decide) (by decide),
    Option.elim, Wire.Result.fields, length_embedded (by decide), length_encode_append,
    length_string (by decide), length_string (by decide)]
  refine ⟨by rw [delimitedLen]; omega, ?_⟩
  exact delimitedLen_mono (Nat.add_le_add_left
    (delimitedLen_mono (Nat.add_le_add (hpresent _) (hpresent _))) _)

variable {reply : ApplicationReply} {message : List Field}

theorem encodedBodyLen_eq (h : serverFrameToWire (.application reply) = .ok message)
    (hpos : 0 < (encode message).length) :
    encodedBodyLen reply =
      if (encode message).length ≤ maxServerToClientFrameBytes then (encode message).length
      else u64Max := by
  have hword : maxServerToClientFrameBytes ≤ u32Max := by decide
  have hframe : encodeServerFrame (.application reply) =
      encodeMessage message maxServerToClientFrameBytes := by
    rw [encodeServerFrame, h]
    rfl
  rw [encodedBodyLen, hframe, encodeMessage]
  by_cases hfits : (encode message).length ≤ maxServerToClientFrameBytes
  · rw [if_neg (by omega), if_pos hfits]
    simp only [List.length_append, List.length_reverse, Bytes.length_le]
    omega
  · rw [if_pos (by omega), if_neg hfits]

variable {worst : ApplicationReply}

theorem encodedBodyLen_le {worstMessage : List Field}
    (hreply : serverFrameToWire (.application reply) = .ok message)
    (hworst : serverFrameToWire (.application worst) = .ok worstMessage)
    (hpos : 0 < (encode message).length)
    (hle : (encode message).length ≤ (encode worstMessage).length) :
    encodedBodyLen reply ≤ encodedBodyLen worst := by
  have hword : maxServerToClientFrameBytes ≤ u64Max := by decide
  rw [encodedBodyLen_eq hreply hpos, encodedBodyLen_eq hworst (hpos.trans_le hle)]
  split_ifs <;> omega

theorem encodedBodyLen_batch_le {worstMessage : List Field} {items worstItems : ℕ}
    (hreply : serverFrameToWire (.application reply) = .ok message)
    (hworst : serverFrameToWire (.application worst) = .ok worstMessage)
    (hlength : (encode message).length = batchBodyLen header items)
    (hworstLength : (encode worstMessage).length = batchBodyLen header worstItems)
    (hle : items ≤ worstItems) : encodedBodyLen reply ≤ encodedBodyLen worst := by
  refine encodedBodyLen_le hreply hworst ?_ ?_
  · rw [hlength, batchBodyLen, delimitedLen]
    omega
  · rw [hlength, hworstLength]
    exact batchBodyLen_mono hle

theorem sum_le_replicate {α : Type} {items : List (α × ItemMetadata)} {itemLen : α → ℕ}
    {worst : α × ItemMetadata} (h : ∀ item ∈ items, itemLen item.1 ≤ itemLen worst.1) :
    (items.map fun item => delimitedLen (itemLen item.1)).sum ≤
      ((List.replicate items.length worst).map fun item => delimitedLen (itemLen item.1)).sum := by
  have hsum := List.sum_le_card_nsmul (items.map fun item => delimitedLen (itemLen item.1))
    (delimitedLen (itemLen worst.1)) fun length hlength => by
      obtain ⟨item, hitem, rfl⟩ := List.mem_map.1 hlength
      exact delimitedLen_mono (h item hitem)
  rw [List.length_map] at hsum
  rw [List.map_replicate, List.sum_replicate]
  exact hsum

def WordOutcome : PublishRecordOutcome → Prop
  | .ok offset => offset ≤ u64Max
  | .error error => WordError error

theorem admissible_publishBatchItem (outcome : PublishRecordOutcome) :
    Admissible (publishBatchItem outcome) := by
  cases outcome with
  | ok offset => rfl
  | error error =>
    change brokerOutcome error.outcome ≠ .confirmed
    cases error.outcome <;> decide

theorem publishItemLen_le {outcome : PublishRecordOutcome} (h : WordOutcome outcome) :
    publishItemLen (publishBatchItem outcome).1 ≤
      publishItemLen (.error "request_id_content_conflict" worstDiagnostic) := by
  cases outcome with
  | ok offset =>
    have hnumber := varintLen_le_of_word h
    have hworst := worstTextsLen_eq
    rw [publishItemLen_error, ← worstTextsLen, publishBatchItem, publishItemLen_published]
    omega
  | error error =>
    rw [publishItemLen_error, ← worstTextsLen, publishBatchItem, publishItemLen_error]
    exact Nat.add_le_add_left (textsLen_publishBatchErrorCode_le h) 4

theorem ackItemLen_worst :
    ackItemLen ⟨u64Max, .rejected, some "ack_not_in_flight", some worstDiagnostic⟩ = 295 := by
  simp only [ackItemLen, textLen, Option.elim_some, length_worstDiagnostic]
  decide

theorem ackItemLen_le {item : AckBatchItem} (h : item.offset ≤ u64Max) :
    ackItemLen (ackBatchItemResponse item) ≤
      ackItemLen ⟨u64Max, .rejected, some "ack_not_in_flight", some worstDiagnostic⟩ := by
  obtain ⟨offset, outcome⟩ := item
  have hnumber : numberLen offset ≤ 11 := numberLen_le_of_word h
  have hworst : 6 + 11 + 100 ≤
      ackItemLen ⟨u64Max, .rejected, some "ack_not_in_flight", some worstDiagnostic⟩ := by
    rw [ackItemLen_worst]
    decide
  refine le_trans ?_ hworst
  cases outcome with
  | confirmed =>
    exact Nat.add_le_add (Nat.add_le_add_left hnumber 6) (Nat.zero_le _)
  | alreadyConfirmed =>
    exact Nat.add_le_add (Nat.add_le_add_left hnumber 6) (Nat.zero_le _)
  | rejected reason =>
    cases reason with
    | notInFlight =>
      have htexts : textLen (some "ack_not_in_flight") +
          textLen (some "record has no delivery attempt") ≤ 100 := by decide
      exact Nat.add_le_add (Nat.add_le_add_left hnumber 6) htexts
    | staleDelivery =>
      have htexts : textLen (some "stale_delivery") +
          textLen (some "delivery receipt is stale or belongs to another member") ≤ 100 := by
        decide
      exact Nat.add_le_add (Nat.add_le_add_left hnumber 6) htexts

theorem encodedBodyLen_publish_le (stream : String)
    {items : List (PublishBatchRecordResponse × ItemMetadata)}
    (worst : PublishBatchRecordResponse × ItemMetadata)
    (hitems : ∀ item ∈ items, Admissible item ∧ publishItemLen item.1 ≤ publishItemLen worst.1)
    (hworst : Admissible worst) :
    encodedBodyLen (.batch (.publishBatch stream (items.map Prod.fst)) (items.map Prod.snd)) ≤
      encodedBodyLen (worstPublishReply stream items.length worst.1 worst.2) := by
  obtain ⟨message, hmessage, hlength⟩ :=
    length_publishReply stream items fun item hitem => (hitems item hitem).1
  obtain ⟨worstMessage, hworstMessage, hworstLength⟩ :=
    length_publishReply stream (List.replicate items.length worst) fun item hitem =>
      List.eq_of_mem_replicate hitem ▸ hworst
  rw [List.map_replicate, List.map_replicate] at hworstMessage
  exact encodedBodyLen_batch_le hmessage hworstMessage hlength hworstLength
    (sum_le_replicate fun item hitem => (hitems item hitem).2)

theorem encodedBodyLen_ack_le (stream consumer : String)
    {items : List (AckBatchItemResponse × ItemMetadata)}
    (worst : AckBatchItemResponse × ItemMetadata)
    (hitems : ∀ item ∈ items, ackItemLen item.1 ≤ ackItemLen worst.1) :
    encodedBodyLen (.batch (.ackBatch stream consumer (items.map Prod.fst))
        (items.map Prod.snd)) ≤
      encodedBodyLen (worstAckReply stream consumer items.length worst.1 worst.2) := by
  obtain ⟨message, hmessage, hlength⟩ := length_ackReply stream consumer items
  obtain ⟨worstMessage, hworstMessage, hworstLength⟩ :=
    length_ackReply stream consumer (List.replicate items.length worst)
  rw [List.map_replicate, List.map_replicate] at hworstMessage
  exact encodedBodyLen_batch_le hmessage hworstMessage hlength hworstLength
    (sum_le_replicate hitems)

theorem encodedBodyLen_failedReply_le (h : WordError error) {items : ℕ}
    (hworst : serverFrameToWire (.application worst) = .ok message)
    (hlength : (encode message).length = batchBodyLen header items)
    (hitems : 4 + delimitedLen worstTextsLen ≤ items) :
    encodedBodyLen (failedReply error) ≤ encodedBodyLen worst := by
  obtain ⟨failed, hfailed, hpos, hshort⟩ := length_failedReply error
  have hinner : 4 + delimitedLen (textsLen (errorCode error) (boundedDiagnostic error.display)) ≤
      delimitedLen (header + items) := by
    have htexts := delimitedLen_mono (textsLen_errorCode_le h)
    have henvelope : header + items ≤ delimitedLen (header + items) := Nat.le_add_left _ _
    omega
  refine encodedBodyLen_le hfailed hworst hpos ?_
  rw [hlength]
  exact hshort.trans (delimitedLen_mono hinner)

def BatchEngine.Completes (engine : BatchEngine) : BatchWrite → Prop
  | .publishBatch stream records => ∃ outcomes,
    engine.publishBatch stream records = .ok outcomes ∧ outcomes.length = records.length ∧
      ∀ outcome ∈ outcomes, WordOutcome outcome
  | .ackBatch stream consumer receipts => ∃ result,
    engine.ackBatch stream consumer receipts = .ok result ∧
      result.outcomes.length = receipts.length ∧ ∀ item ∈ result.outcomes, item.offset ≤ u64Max
  | .ackGroupBatch stream consumer member receipts => ∃ result,
    engine.ackGroupBatch stream consumer member receipts = .ok result ∧
      result.outcomes.length = receipts.length ∧ ∀ item ∈ result.outcomes, item.offset ≤ u64Max

def BatchEngine.Fails (engine : BatchEngine) (request : BatchWrite) : Prop :=
  ∃ error, WordError error ∧ match request with
    | .publishBatch stream records => engine.publishBatch stream records = .error error
    | .ackBatch stream consumer receipts =>
      engine.ackBatch stream consumer receipts = .error error
    | .ackGroupBatch stream consumer member receipts =>
      engine.ackGroupBatch stream consumer member receipts = .error error

section Executed

variable (stream consumer : String)

theorem publishBatchReply_le {outcomes : List PublishRecordOutcome}
    (hwords : ∀ outcome ∈ outcomes, WordOutcome outcome) :
    encodedBodyLen (publishBatchReply stream outcomes) ≤
      encodedBodyLen (worstPublishReply stream outcomes.length
        (.error "request_id_content_conflict" worstDiagnostic) ⟨.unknown, .executionStarted⟩) := by
  have hitems : ∀ item ∈ outcomes.map publishBatchItem, Admissible item ∧
      publishItemLen item.1 ≤
        publishItemLen (.error "request_id_content_conflict" worstDiagnostic) := by
    intro item hitem
    obtain ⟨outcome, houtcome, rfl⟩ := List.mem_map.1 hitem
    exact ⟨admissible_publishBatchItem outcome, publishItemLen_le (hwords outcome houtcome)⟩
  have hle := encodedBodyLen_publish_le stream (_, ⟨.unknown, .executionStarted⟩) hitems nofun
  rw [List.length_map] at hle
  exact hle

theorem ackBatchReply_le {items : List AckBatchItem}
    (hwords : ∀ item ∈ items, item.offset ≤ u64Max) :
    encodedBodyLen (ackBatchReply stream consumer items) ≤
      encodedBodyLen (worstAckReply stream consumer items.length
        ⟨u64Max, .rejected, some "ack_not_in_flight", some worstDiagnostic⟩
        ⟨.rejected, .executionStarted⟩) := by
  have hitems : ∀ item ∈ items.map fun item =>
      (ackBatchItemResponse item, ackBatchItemMetadata item), ackItemLen item.1 ≤
        ackItemLen ⟨u64Max, .rejected, some "ack_not_in_flight", some worstDiagnostic⟩ := by
    intro item hitem
    obtain ⟨item, hmem, rfl⟩ := List.mem_map.1 hitem
    exact ackItemLen_le (hwords item hmem)
  have hle := encodedBodyLen_ack_le stream consumer (_, ⟨.rejected, .executionStarted⟩) hitems
  rw [List.length_map, List.map_map, List.map_map] at hle
  exact hle

variable {count : ℕ}

theorem failedReply_le_publish {error : BrokerError} (h : WordError error) (hcount : 0 < count) :
    encodedBodyLen (failedReply error) ≤ encodedBodyLen (worstPublishReply stream count
      (.error "request_id_content_conflict" worstDiagnostic) ⟨.unknown, .executionStarted⟩) := by
  obtain ⟨message, hmessage, hlength⟩ := length_publishReply stream
    (List.replicate count (.error "request_id_content_conflict" worstDiagnostic,
      ⟨.unknown, .executionStarted⟩)) fun item hitem =>
        List.eq_of_mem_replicate hitem ▸ (nofun : Outcome.unknown ≠ .confirmed)
  rw [List.map_replicate, List.map_replicate] at hmessage
  refine encodedBodyLen_failedReply_le h hmessage hlength ?_
  have hone : 4 + delimitedLen worstTextsLen ≤
      delimitedLen (publishItemLen (.error "request_id_content_conflict" worstDiagnostic)) := by
    rw [publishItemLen_error, ← worstTextsLen, worstTextsLen_eq]
    decide
  rw [List.map_replicate, List.sum_replicate]
  exact hone.trans (Nat.le_mul_of_pos_left _ hcount)

theorem failedReply_le_ack {error : BrokerError} (h : WordError error) (hcount : 0 < count) :
    encodedBodyLen (failedReply error) ≤ encodedBodyLen (worstAckReply stream consumer count
      ⟨u64Max, .rejected, some "ack_not_in_flight", some worstDiagnostic⟩
      ⟨.rejected, .executionStarted⟩) := by
  obtain ⟨message, hmessage, hlength⟩ := length_ackReply stream consumer
    (List.replicate count (⟨u64Max, .rejected, some "ack_not_in_flight", some worstDiagnostic⟩,
      ⟨.rejected, .executionStarted⟩))
  rw [List.map_replicate, List.map_replicate] at hmessage
  refine encodedBodyLen_failedReply_le h hmessage hlength ?_
  have hone : 4 + delimitedLen worstTextsLen ≤ delimitedLen
      (ackItemLen ⟨u64Max, .rejected, some "ack_not_in_flight", some worstDiagnostic⟩) := by
    rw [worstTextsLen_eq, ackItemLen_worst]
    decide
  rw [List.map_replicate, List.sum_replicate]
  exact hone.trans (Nat.le_mul_of_pos_left _ hcount)

theorem ackBatchUpperBound_sound {bound : ℕ}
    (hbound : ackBatchUpperBound stream consumer count = some bound) :
    (∀ items : List AckBatchItem, items.length = count → (∀ item ∈ items, item.offset ≤ u64Max) →
        encodedBodyLen (ackBatchReply stream consumer items) ≤ bound) ∧
      ∀ error, WordError error → encodedBodyLen (failedReply error) ≤ bound := by
  unfold ackBatchUpperBound at hbound
  split_ifs at hbound with hcount
  obtain rfl := Option.some.inj hbound
  constructor
  · rintro items rfl hwords
    exact (ackBatchReply_le stream consumer hwords).trans (Nat.le_max_left _ _)
  · intro error hword
    exact (failedReply_le_ack stream consumer hword (by omega)).trans (Nat.le_max_left _ _)

end Executed

theorem executedReply_le_bound {engine : BatchEngine} {request : BatchWrite} {bound : ℕ}
    (hanswer : engine.Completes request ∨ invalidBatchSize request = none ∧ engine.Fails request)
    (hbound : batchResponseUpperBound request = some bound) :
    encodedBodyLen (executedReply engine request) ≤ bound := by
  cases request with
  | publishBatch stream records =>
    obtain rfl := Option.some.inj hbound
    refine le_trans ?_ (Nat.le_max_left _ _)
    rcases hanswer with ⟨outcomes, houtcomes, hlength, hwords⟩ | ⟨hsize, error, hword, herror⟩
    · rw [executedReply, houtcomes, ← hlength]
      dsimp only
      rw [if_neg (not_not.2 rfl)]
      exact publishBatchReply_le stream hwords
    · rw [executedReply, herror]
      refine failedReply_le_publish stream hword (List.length_pos_iff.2 ?_)
      rintro rfl
      cases hsize
  | ackBatch stream consumer receipts =>
    obtain ⟨hcompleted, hfailed⟩ := ackBatchUpperBound_sound stream consumer hbound
    rcases hanswer with ⟨result, hresult, hlength, hwords⟩ | ⟨-, error, hword, herror⟩
    · rw [executedReply, hresult]
      exact hcompleted _ hlength hwords
    · rw [executedReply, herror]
      exact hfailed error hword
  | ackGroupBatch stream consumer member receipts =>
    obtain ⟨hcompleted, hfailed⟩ := ackBatchUpperBound_sound stream consumer hbound
    rcases hanswer with ⟨result, hresult, hlength, hwords⟩ | ⟨-, error, hword, herror⟩
    · rw [executedReply, hresult]
      exact hcompleted _ hlength hwords
    · rw [executedReply, herror]
      exact hfailed error hword

theorem written_of_encodedBodyLen_le {limit : ℕ}
    (h : encodedBodyLen reply ≤ limit) (hmax : limit ≤ maxServerToClientFrameBytes) :
    ∃ frame, encodeServerFrame (.application reply) = .ok frame ∧ frame.length - 4 ≤ limit ∧
      writeApplicationReply reply limit = .ok frame := by
  have hword : maxServerToClientFrameBytes < u64Max := by decide
  unfold encodedBodyLen at h
  cases hframe : encodeServerFrame (.application reply) with
  | error error =>
    rw [hframe] at h
    dsimp only at h
    omega
  | ok frame =>
    rw [hframe] at h
    dsimp only at h
    refine ⟨frame, rfl, h, ?_⟩
    rw [writeApplicationReply, hframe]
    exact if_neg (Nat.not_lt.2 h)

/-- The bound that is computed from a request is at least the length of its reply, whatever the
outcomes of its items are. So a request that is admitted under the limit of a connection is
executed and answered within it. -/
theorem batch_bound_sound {engine : BatchEngine} {request : BatchWrite} {bound : ℕ}
    (hanswer : engine.Completes request ∨ invalidBatchSize request = none ∧ engine.Fails request)
    (hbound : batchResponseUpperBound request = some bound) :
    encodedBodyLen (executedReply engine request) ≤ bound ∧
      ∀ limit, limit ≤ maxServerToClientFrameBytes → bound ≤ limit →
        invalidBatchSize request = none →
        handleRequestWithMetadata engine request limit = executedReply engine request ∧
        ∃ frame, encodeServerFrame (.application (executedReply engine request)) = .ok frame ∧
          frame.length - 4 ≤ limit ∧
          writeApplicationReply (executedReply engine request) limit = .ok frame := by
  have hle := executedReply_le_bound hanswer hbound
  refine ⟨hle, fun limit hmax hadmitted hsize => ⟨?_, ?_⟩⟩
  · rw [handleRequestWithMetadata, hsize, hbound]
    exact if_neg (by simpa using hadmitted)
  · exact written_of_encodedBodyLen_le (hle.trans hadmitted) hmax

/-- An engine that stores the first of two records and finds the second one in conflict. -/
def conflictEngine : BatchEngine where
  publishBatch _ _ := .ok [.ok 7, .error .requestIdContentConflict]
  ackBatch _ _ _ := .ok ⟨[]⟩
  ackGroupBatch _ _ _ _ := .ok ⟨[]⟩

theorem conflict_reply_within_bound :
    ∃ bound, batchResponseUpperBound
        (.publishBatch "orders" [⟨none, [1], none⟩, ⟨none, [2], some "r"⟩]) = some bound ∧
      encodedBodyLen (publishBatchReply "orders" [.ok 7, .error .requestIdContentConflict]) ≤
        bound := by
  have hcompletes : conflictEngine.Completes
      (.publishBatch "orders" [⟨none, [1], none⟩, ⟨none, [2], some "r"⟩]) := by
    refine ⟨_, rfl, rfl, fun outcome houtcome => ?_⟩
    rcases List.mem_pair.1 houtcome with rfl | rfl
    · exact (by decide : 7 ≤ u64Max)
    · trivial
  exact ⟨_, rfl, (batch_bound_sound (Or.inl hcompletes) rfl).1⟩

end Runnel.Server
