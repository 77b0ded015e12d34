import Runnel.RaftLog.Segment

/-!
# Segments are read back

A segment gives back the entries of the batches that were written to it, with
their generations.
-/

namespace Runnel.RaftLog

open Bytes

theorem batchMagic_eq : batchMagic = [66, 65, 84, 51] := by decide

theorem length_batchHead (generation startIndex count payloadLength : ℕ) :
    (batchHead generation startIndex count payloadLength).length = 32 := by
  rw [batchHead, batchMagic_eq]
  rfl

theorem slices_batchHead (generation startIndex count payloadLength checksum : ℕ) (tail : Bytes) :
    let rest := batchHead generation startIndex count payloadLength ++ le 4 checksum ++ tail
    rest.take 4 = batchMagic ∧ slice rest 4 8 = le 8 generation ∧
    slice rest 12 8 = le 8 startIndex ∧ slice rest 20 4 = le 4 count ∧
    slice rest 24 8 = le 8 payloadLength ∧ slice rest 32 4 = le 4 checksum ∧
    rest.take 32 = batchHead generation startIndex count payloadLength := by
  rw [batchHead, batchMagic_eq]
  exact ⟨rfl, rfl, rfl, rfl, rfl, rfl, rfl⟩

theorem ofLe_le_of_u64 {value : ℕ} (h : value ≤ u64Max) : ofLe (le 8 value) = value :=
  ofLe_le_of_lt (h.trans_lt (by decide))

theorem ofLe_le_of_u32 {value : ℕ} (h : value ≤ u32Max) : ofLe (le 4 value) = value :=
  ofLe_le_of_lt (h.trans_lt (by decide))

theorem ofLe_le_checksum (checksum : UInt32) : ofLe (le 4 checksum.toNat) = checksum.toNat :=
  ofLe_le_of_lt checksum.toNat_lt

theorem readBatchHeader_eq (path : String) {generation startIndex count payloadLength : ℕ}
    (hgeneration : generation ≤ u64Max) (hstart : startIndex ≤ u64Max) (hcount : count ≤ u32Max)
    (hpayload : payloadLength ≤ u64Max) (offset : ℕ) (tail : Bytes) :
    readBatchHeader path offset (batchHead generation startIndex count payloadLength ++
        le 4 (crc32 (batchHead generation startIndex count payloadLength)).toNat ++ tail) =
      .ok ⟨generation, startIndex, count, payloadLength⟩ := by
  obtain ⟨hmagic, hslice4, hslice12, hslice20, hslice24, hslice32, htake⟩ :=
    slices_batchHead generation startIndex count payloadLength
      (crc32 (batchHead generation startIndex count payloadLength)).toNat tail
  rw [readBatchHeader, if_neg (not_not.2 hmagic), htake, hslice32, ofLe_le_checksum,
    if_neg (not_not.2 rfl), hslice4, hslice12, hslice20, hslice24, ofLe_le_of_u64 hgeneration,
    ofLe_le_of_u64 hstart, ofLe_le_of_u32 hcount, ofLe_le_of_u64 hpayload]

section Batch

variable {E : Type} {index : E → ℕ} {encode : E → Bytes} {decode : Bytes → Except String E}
  {state : ControlState} (path : String)

variable {generation startIndex offset : ℕ} {payload : Bytes}

theorem parseEntries_encoded (hstate : state.truncationPendingFrom = none) {entries : List E}
    (hserde : ∀ entry ∈ entries, decode (encode entry) = .ok entry) {ordinal : ℕ}
    (after : Bytes)
    (hencode : encodeEntries startIndex ordinal
      (entries.map fun entry => (index entry, encode entry)) = .ok payload)
    (hword : offset + payload.length ≤ u64Max) :
    parseEntries index decode state generation startIndex entries.length ordinal offset
        (payload ++ after) =
      .ok (entries.map fun entry => ⟨generation, entry⟩, after) := by
  induction entries generalizing ordinal offset payload with
  | nil =>
    obtain rfl := Except.ok.inj hencode
    rfl
  | cons entry entries ih =>
    rw [List.map_cons, encodeEntries] at hencode
    split_ifs at hencode with hoverflow hindex hlong
    obtain ⟨rest, hrest, hpayload⟩ := except_bind_eq_ok_iff.1 hencode
    obtain rfl := Except.ok.inj hpayload
    rw [not_lt] at hoverflow hlong
    rw [not_not] at hindex
    have hlength := ofLe_le_of_u32 hlong
    have htake : (le 4 (encode entry).length ++ encode entry ++ rest ++ after).take 4 =
        le 4 (encode entry).length := rfl
    have hslice : slice (le 4 (encode entry).length ++ encode entry ++ rest ++ after) 4
        (encode entry).length = encode entry :=
      slice_eq (by rw [List.append_assoc _ rest after]) rfl rfl
    have hdrop : (le 4 (encode entry).length ++ encode entry ++ rest ++ after).drop
        (4 + (encode entry).length) = rest ++ after := by
      rw [List.append_assoc _ rest after]
      exact List.drop_left' (by rw [List.length_append, length_le])
    simp only [List.length_append, length_le] at hword
    have hread : readEntry index decode state generation startIndex ordinal (encode entry) =
        .ok (some ⟨generation, entry⟩) := by
      rw [readEntry, hserde entry List.mem_cons_self]
      dsimp only
      rw [if_neg (Nat.not_lt.2 hoverflow), if_neg (not_not.2 hindex), hstate]
    have hlater := ih (fun entry h => hserde entry (List.mem_cons_of_mem _ h)) hrest
      (show offset + 4 + (encode entry).length + rest.length ≤ u64Max by omega)
    rw [List.length_cons, parseEntries, if_neg (by simp), htake, hlength]
    dsimp only
    rw [if_neg (by omega), if_neg (by simp only [List.length_append, length_le]; omega), hslice,
      hdrop, hread]
    simp only [bind, Except.bind, hlater]
    rfl

variable {entries : List (ℕ × Bytes)} {frame : Bytes}

theorem encodeFrame_eq_ok (h : encodeFrame generation startIndex entries = .ok frame) :
    ∃ payload, encodeEntries startIndex 0 entries = .ok payload ∧ entries.length ≤ u32Max ∧
      payload.length ≤ u64Max ∧
      frame = batchFrame generation startIndex entries.length payload := by
  unfold encodeFrame at h
  split_ifs at h with hcount
  · cases h
  · obtain ⟨payload, hpayload, h⟩ := except_bind_eq_ok_iff.1 h
    split_ifs at h with hlong
    · cases h
    · exact ⟨payload, hpayload, Nat.not_lt.1 hcount, Nat.not_lt.1 hlong, (Except.ok.inj h).symm⟩

theorem startIndex_le_of_encodeEntries {ordinal : ℕ} {entry : ℕ × Bytes}
    (h : encodeEntries startIndex ordinal (entry :: entries) = .ok payload) :
    startIndex ≤ u64Max := by
  rw [encodeEntries] at h
  split_ifs at h with hoverflow
  omega

theorem length_batchBody (generation startIndex count : ℕ) (payload : Bytes) :
    (batchBody generation startIndex count payload).length = batchHeaderLen + payload.length := by
  rw [batchBody, List.length_append, List.length_append, length_batchHead, length_le]
  rfl

theorem length_batchFrame (generation startIndex count : ℕ) (payload : Bytes) :
    (batchFrame generation startIndex count payload).length =
      batchHeaderLen + payload.length + batchTrailerLen := by
  rw [batchFrame, List.length_append, List.length_append, length_batchBody, length_le]
  rfl

theorem length_batchHeader (generation startIndex count payloadLength : ℕ) :
    (batchHead generation startIndex count payloadLength ++
      le 4 (crc32 (batchHead generation startIndex count payloadLength)).toNat).length =
        batchHeaderLen := by
  rw [List.length_append, length_batchHead, length_le]
  rfl

/-- The parts of a written frame behind its header are where the reader looks for them. -/
theorem slices_batchFrame (generation startIndex count : ℕ) (payload after : Bytes) :
    let body := batchBody generation startIndex count payload
    let rest := batchFrame generation startIndex count payload ++ after
    rest.take (batchHeaderLen + payload.length) = body ∧
    slice rest batchHeaderLen payload.length = payload ∧
    slice rest (batchHeaderLen + payload.length) 4 = le 4 (crc32 body).toNat ∧
    slice rest (batchHeaderLen + payload.length + 4) 4 = batchEnd := by
  intro body rest
  have hbody : body.length = batchHeaderLen + payload.length :=
    length_batchBody generation startIndex count payload
  have hchecksum : rest = body ++ le 4 (crc32 body).toNat ++ (batchEnd ++ after) := by
    simp only [rest, batchFrame, List.append_assoc, body]
  have hend : rest = (body ++ le 4 (crc32 body).toNat) ++ batchEnd ++ after := by
    simp only [rest, batchFrame, List.append_assoc, body]
  have hpayload : rest = (batchHead generation startIndex count payload.length ++
      le 4 (crc32 (batchHead generation startIndex count payload.length)).toNat) ++ payload ++
        (le 4 (crc32 body).toNat ++ batchEnd ++ after) := by
    simp only [rest, batchFrame, batchBody, List.append_assoc, body]
  refine ⟨?_, slice_eq hpayload (length_batchHeader _ _ _ _) rfl,
    slice_eq hchecksum hbody (length_le _ _), slice_eq hend ?_ (by decide)⟩
  · rw [hchecksum, List.append_assoc]
    exact List.take_left' hbody
  · rw [List.length_append, hbody, length_le]

theorem batchFrame_eq (generation startIndex count : ℕ) (payload : Bytes) :
    batchFrame generation startIndex count payload =
      batchHead generation startIndex count payload.length ++
        le 4 (crc32 (batchHead generation startIndex count payload.length)).toNat ++
        (payload ++ le 4 (crc32 (batchBody generation startIndex count payload)).toNat ++
          batchEnd) := by
  simp only [batchFrame, batchBody, List.append_assoc]

theorem readBatchHeader_frame {count : ℕ}
    (hgeneration : generation ≤ u64Max) (hstart : startIndex ≤ u64Max) (hcount : count ≤ u32Max)
    (hpayload : payload.length ≤ u64Max) (offset : ℕ) (after : Bytes) :
    readBatchHeader path offset (batchFrame generation startIndex count payload ++ after) =
      .ok ⟨generation, startIndex, count, payload.length⟩ := by
  rw [batchFrame_eq, List.append_assoc]
  exact readBatchHeader_eq path hgeneration hstart hcount hpayload offset _

theorem parseBatch_encoded (hstate : state.truncationPendingFrom = none)
    {entries : List E} (hgeneration : generation ≤ u64Max) (hentries : entries ≠ [])
    (hserde : ∀ entry ∈ entries, decode (encode entry) = .ok entry)
    (hencode : encodeFrame generation startIndex
      (entries.map fun entry => (index entry, encode entry)) = .ok frame)
    (hword : offset + frame.length ≤ u64Max) (after : Bytes) :
    parseBatch index decode path state offset (frame ++ after) =
      .ok (some ⟨entries.map fun entry => ⟨generation, entry⟩, entries.length, frame.length⟩) := by
  obtain ⟨payload, hpayload, hcount, hlong, rfl⟩ := encodeFrame_eq_ok hencode
  rw [List.length_map] at hcount hword ⊢
  have hstart : startIndex ≤ u64Max := by
    obtain ⟨entry, rest, rfl⟩ := List.exists_cons_of_ne_nil hentries
    exact startIndex_le_of_encodeEntries hpayload
  have hlength := length_batchFrame generation startIndex entries.length payload
  rw [hlength] at hword
  have hheader := readBatchHeader_frame path hgeneration hstart hcount hlong offset after
  obtain ⟨htake, hslice, hchecksum, hend⟩ :=
    slices_batchFrame generation startIndex entries.length payload after
  have hread : parseEntries index decode state generation startIndex entries.length 0
      (offset + batchHeaderLen) (payload ++ []) =
      .ok (entries.map fun entry => ⟨generation, entry⟩, []) :=
    parseEntries_encoded hstate hserde [] hpayload (by omega)
  rw [List.append_nil] at hread
  have hrest : ¬ (batchFrame generation startIndex entries.length payload ++ after).length <
      batchHeaderLen + payload.length + batchTrailerLen := by
    rw [List.length_append, hlength]
    omega
  rw [parseBatch, if_neg (by omega), hheader]
  change readBatchBody index decode path state offset _ _ = _
  rw [readBatchBody]
  dsimp only
  rw [if_neg (by omega), if_neg hrest, if_neg (not_not.2 hend), htake, hchecksum,
    ofLe_le_checksum, if_neg (not_not.2 rfl), if_neg (by simpa using hentries), hslice, hread,
      hlength]
  rfl

theorem parseBatch_cut (hgeneration : generation ≤ u64Max) (hentries : entries ≠ [])
    (hencode : encodeFrame generation startIndex entries = .ok frame)
    (hword : offset + frame.length ≤ u64Max) {length : ℕ} (hlength : length < frame.length) :
    parseBatch index decode path state offset (frame.take length) = .ok none := by
  obtain ⟨payload, hpayload, hcount, hlong, rfl⟩ := encodeFrame_eq_ok hencode
  have hstart : startIndex ≤ u64Max := by
    obtain ⟨entry, rest, rfl⟩ := List.exists_cons_of_ne_nil hentries
    exact startIndex_le_of_encodeEntries hpayload
  rw [length_batchFrame] at hword hlength
  have hcut : ((batchFrame generation startIndex entries.length payload).take length).length =
      length := by
    rw [List.length_take, length_batchFrame]
    omega
  by_cases hshort : length < batchHeaderLen
  · rw [parseBatch, if_pos (by omega)]
  · -- The header is whole, so the reader knows how long the batch would be.
    have hsplit : (batchFrame generation startIndex entries.length payload).take length =
        batchHead generation startIndex entries.length payload.length ++
          le 4 (crc32 (batchHead generation startIndex entries.length payload.length)).toNat ++
          (payload ++ le 4 (crc32 (batchBody generation startIndex entries.length payload)).toNat ++
            batchEnd).take (length - batchHeaderLen) := by
      rw [batchFrame_eq, List.take_append, length_batchHeader,
        List.take_of_length_le (by rw [length_batchHeader]; omega)]
    have hheader := readBatchHeader_eq path hgeneration hstart hcount hlong offset
      ((payload ++ le 4 (crc32 (batchBody generation startIndex entries.length payload)).toNat ++
        batchEnd).take (length - batchHeaderLen))
    rw [← hsplit] at hheader
    rw [parseBatch, if_neg (by omega), hheader]
    change readBatchBody index decode path state offset _ _ = _
    rw [readBatchBody]
    dsimp only
    rw [if_neg (by omega), if_pos (by omega)]

end Batch

/-- Entries that are written together; there is one at least. -/
structure Batch (E : Type) where
  generation : ℕ
  entries : List E
  nonempty : entries ≠ []
  generation_le : generation ≤ u64Max

section Segment

variable {E : Type} (index : E → ℕ) (encode : E → Bytes)

def Batch.records (batch : Batch E) : List (EntryRecord E) :=
  batch.entries.map fun entry => ⟨batch.generation, entry⟩

/-- A batch starts at the index of its first entry; the encoder refuses it unless the indices of
the others follow. -/
def Batch.frame (batch : Batch E) : Except IoError Bytes :=
  encodeFrame batch.generation (index (batch.entries.head batch.nonempty))
    (batch.entries.map fun entry => (index entry, encode entry))

def encodeSegment (startIndex : ℕ) (batches : List (Batch E)) : Except IoError Bytes := do
  let frames ← batches.mapM (Batch.frame index encode)
  return segmentHeader startIndex ++ frames.flatten

variable {index encode} {decode : Bytes → Except String E} {state : ControlState} (path : String)

theorem Batch.frame_ne_nil {batch : Batch E} {frame : Bytes}
    (h : batch.frame index encode = .ok frame) : 0 < frame.length := by
  obtain ⟨payload, -, -, -, rfl⟩ := encodeFrame_eq_ok h
  rw [length_batchFrame]
  exact Nat.add_pos_right _ (by decide)

theorem segmentHeader_eq (startIndex : ℕ) :
    segmentHeader startIndex = [82, 83, 71, 51] ++ le 4 formatVersion ++ le 8 startIndex := by
  rw [segmentHeader, show segmentMagic = [82, 83, 71, 51] by decide]

theorem length_segmentHeader (startIndex : ℕ) :
    (segmentHeader startIndex).length = segmentHeaderLen := by
  rw [segmentHeader_eq]
  rfl

theorem slices_segmentHeader {startIndex : ℕ} (hstart : startIndex ≤ u64Max) (body : Bytes) :
    slice (segmentHeader startIndex ++ body) 0 4 = segmentMagic ∧
      ofLe (slice (segmentHeader startIndex ++ body) 4 4) = formatVersion ∧
      ofLe (slice (segmentHeader startIndex ++ body) 8 8) = startIndex := by
  rw [segmentHeader_eq, show segmentMagic = [82, 83, 71, 51] by decide]
  exact ⟨rfl, ofLe_le_of_u32 (by decide), ofLe_le_of_u64 hstart⟩

variable {batches : List (Batch E)}

/-- The batches of a segment are read back, if the reader stops where they end. -/
theorem parseBatches_frames (hstate : state.truncationPendingFrom = none) {frames : List Bytes}
    (hframes : List.Forall₂ (fun batch frame => batch.frame index encode = .ok frame) batches
      frames)
    (hserde : ∀ batch ∈ batches, ∀ entry ∈ batch.entries, decode (encode entry) = .ok entry)
    {tail : Bytes} {incomplete : Bool} {offset fuel : ℕ}
    (hword : offset + frames.flatten.length ≤ u64Max)
    (htail : ∀ fuel, parseBatches index decode path state (fuel + 1)
        (offset + frames.flatten.length) tail =
      some (.ok ⟨[], 0, offset + frames.flatten.length, incomplete⟩))
    (hfuel : frames.length < fuel) :
    parseBatches index decode path state fuel offset (frames.flatten ++ tail) =
      some (.ok ⟨batches.flatMap Batch.records, (batches.map fun batch => batch.entries.length).sum,
        offset + frames.flatten.length, incomplete⟩) := by
  induction hframes generalizing offset fuel with
  | nil =>
    obtain ⟨fuel, rfl⟩ := Nat.exists_eq_succ_of_ne_zero (Nat.ne_of_gt hfuel)
    exact htail fuel
  | @cons batch frame batches frames hframe hframes ih =>
    obtain ⟨fuel, rfl⟩ := Nat.exists_eq_succ_of_ne_zero (Nat.ne_zero_of_lt hfuel)
    have hpos := Batch.frame_ne_nil hframe
    rw [List.flatten_cons, List.length_append, ← Nat.add_assoc] at hword htail
    have hbatch := parseBatch_encoded path hstate batch.generation_le batch.nonempty
      (hserde batch List.mem_cons_self) hframe (show offset + frame.length ≤ u64Max by omega)
      (frames.flatten ++ tail)
    have hlater := ih (fun batch h => hserde batch (List.mem_cons_of_mem _ h)) hword htail
      (Nat.lt_of_succ_lt_succ hfuel)
    have hne : ¬ (frame ++ (frames.flatten ++ tail)).isEmpty := by
      rw [List.isEmpty_iff, List.append_eq_nil_iff]
      rintro ⟨rfl, -⟩
      cases hpos
    rw [List.flatten_cons, List.append_assoc, parseBatches, if_neg hne, hbatch]
    dsimp only
    rw [List.drop_left, hlater, List.length_append, Nat.add_assoc]
    rfl

theorem parseSegment_of_batches {startIndex : ℕ} (hstart : startIndex ≤ u64Max) {body : Bytes}
    {batches : ReadBatches E}
    (h : parseBatches index decode path state (body.length + 1) segmentHeaderLen body =
      some (.ok batches)) (hcount : batches.recordCount ≠ 0) :
    parseSegment index decode path state (segmentHeader startIndex ++ body) startIndex =
      .ok ⟨path, startIndex, batches.records, batches.recordCount, batches.validLength,
        batches.incompleteTail⟩ := by
  have hlength : ¬ (segmentHeader startIndex ++ body).length < segmentHeaderLen := by
    rw [List.length_append, length_segmentHeader]
    omega
  obtain ⟨hmagic, hversion, hindex⟩ := slices_segmentHeader hstart body
  rw [slice, List.drop_zero] at hmagic
  have hdrop : (segmentHeader startIndex ++ body).drop segmentHeaderLen = body :=
    List.drop_left' (length_segmentHeader startIndex)
  simp only [parseSegment, hlength, hmagic, hversion, hindex, hdrop, h, ne_eq, not_true_eq_false,
    if_false, Option.get_some]
  exact if_neg hcount

theorem parseBatches_nil (fuel offset : ℕ) :
    parseBatches index decode path state (fuel + 1) offset [] =
      some (.ok ⟨[], 0, offset, false⟩) := rfl

theorem parseBatches_cut {batch : Batch E} {frame : Bytes}
    (hframe : batch.frame index encode = .ok frame) {offset length : ℕ}
    (hword : offset + frame.length ≤ u64Max) (hpos : 0 < length) (hlength : length < frame.length)
    (fuel : ℕ) :
    parseBatches index decode path state (fuel + 1) offset (frame.take length) =
      some (.ok ⟨[], 0, offset, true⟩) := by
  have hcut : parseBatch index decode path state offset (frame.take length) = .ok none :=
    parseBatch_cut path batch.generation_le (by simpa using batch.nonempty) hframe hword hlength
  have hne : ¬ (frame.take length).isEmpty := by
    rw [List.isEmpty_iff, List.take_eq_nil_iff, not_or]
    exact ⟨Nat.ne_of_gt hpos, List.ne_nil_of_length_pos (hpos.trans hlength)⟩
  rw [parseBatches, if_neg hne, hcut]

theorem entries_sum_ne_zero (h : batches ≠ []) :
    (batches.map fun batch => batch.entries.length).sum ≠ 0 := by
  obtain ⟨batch, rest, rfl⟩ := List.exists_cons_of_ne_nil h
  have hpos := List.length_pos_iff.2 batch.nonempty
  rw [List.map_cons, List.sum_cons]
  omega

theorem length_le_flatten {frames : List Bytes}
    (hframes : List.Forall₂ (fun batch frame => batch.frame index encode = .ok frame) batches
      frames) : frames.length ≤ frames.flatten.length := by
  induction hframes with
  | nil => exact Nat.le_refl _
  | cons hframe _ ih =>
    have hpos := Batch.frame_ne_nil hframe
    rw [List.flatten_cons, List.length_append, List.length_cons]
    omega

/-- A segment gives back the entries of its batches. One that is cut inside a batch behind the
first gives back those of the batches before it, and where they end. -/
theorem segment_read_back (hstate : state.truncationPendingFrom = none) {startIndex : ℕ}
    (hstart : startIndex ≤ u64Max) {batches : List (Batch E)} (hbatches : batches ≠ [])
    (hserde : ∀ batch ∈ batches, ∀ entry ∈ batch.entries, decode (encode entry) = .ok entry)
    {segment : Bytes} (hencode : encodeSegment index encode startIndex batches = .ok segment)
    (hword : segment.length ≤ u64Max) :
    parseSegment index decode path state segment startIndex =
        .ok ⟨path, startIndex, batches.flatMap Batch.records,
          (batches.map fun batch => batch.entries.length).sum, segment.length, false⟩ ∧
      ∀ complete batch rest, batches = complete ++ batch :: rest → complete ≠ [] →
        ∃ ended frame, encodeSegment index encode startIndex complete = .ok ended ∧
          batch.frame index encode = .ok frame ∧
          ∀ length, ended.length < length → length < ended.length + frame.length →
            parseSegment index decode path state (segment.take length) startIndex =
              .ok ⟨path, startIndex, complete.flatMap Batch.records,
                (complete.map fun batch => batch.entries.length).sum, ended.length, true⟩ := by
  obtain ⟨frames, hmap, hsegment⟩ := except_bind_eq_ok_iff.1 hencode
  obtain rfl := Except.ok.inj hsegment
  rw [List.length_append, length_segmentHeader] at hword
  constructor
  · have hframes := forall₂_of_mapM hmap
    have hread := parseBatches_frames path hstate hframes hserde hword
      (fun fuel => parseBatches_nil path fuel _)
      (Nat.lt_succ_of_le (length_le_flatten hframes))
    rw [List.append_nil] at hread
    rw [parseSegment_of_batches path hstart hread (entries_sum_ne_zero hbatches),
      List.length_append, length_segmentHeader]
  · rintro complete batch rest rfl hcomplete
    rw [List.mapM_append] at hmap
    obtain ⟨first, hfirst, hmap⟩ := except_bind_eq_ok_iff.1 hmap
    obtain ⟨last, hlast, hmap⟩ := except_bind_eq_ok_iff.1 hmap
    obtain rfl := Except.ok.inj hmap
    rw [List.mapM_cons] at hlast
    obtain ⟨frame, hframe, hlast⟩ := except_bind_eq_ok_iff.1 hlast
    obtain ⟨others, -, hlast⟩ := except_bind_eq_ok_iff.1 hlast
    obtain rfl := Except.ok.inj hlast
    refine ⟨segmentHeader startIndex ++ first.flatten, frame, ?_, hframe, ?_⟩
    · rw [encodeSegment, hfirst]
      rfl
    · intro length hafter hbefore
      have hfirsts := forall₂_of_mapM hfirst
      have hended : (segmentHeader startIndex ++ first.flatten).length =
          segmentHeaderLen + first.flatten.length := by
        rw [List.length_append, length_segmentHeader]
      rw [hended] at hafter hbefore ⊢
      have htake : (segmentHeader startIndex ++ (first ++ frame :: others).flatten).take length =
          segmentHeader startIndex ++ (first.flatten ++
            frame.take (length - (segmentHeaderLen + first.flatten.length))) := by
        rw [List.flatten_append, List.flatten_cons, ← List.append_assoc, List.take_append, hended,
          List.take_of_length_le (by omega), List.take_append_of_le_length (by omega),
          List.append_assoc]
      rw [List.flatten_append, List.flatten_cons, List.length_append, List.length_append] at hword
      have hcut : ∀ fuel, parseBatches index decode path state (fuel + 1)
          (segmentHeaderLen + first.flatten.length)
          (frame.take (length - (segmentHeaderLen + first.flatten.length))) =
          some (.ok ⟨[], 0, segmentHeaderLen + first.flatten.length, true⟩) :=
        parseBatches_cut path hframe (by omega) (by omega) (by omega)
      have hfuel : first.length < (first.flatten ++
          frame.take (length - (segmentHeaderLen + first.flatten.length))).length + 1 := by
        have hshort := length_le_flatten hfirsts
        rw [List.length_append]
        omega
      have hread := parseBatches_frames path hstate hfirsts
        (fun batch h => hserde batch (List.mem_append_left _ h)) (by omega) hcut hfuel
      rw [htake, parseSegment_of_batches path hstart hread (entries_sum_ne_zero hcomplete)]

end Segment

section Examples

def blankEntry (index : ℕ) : Bytes :=
  utf8 ("\x7b\"log_id\":\x7b\"leader_id\":\x7b\"term\":1,\"node_id\":1\x7d,\"index\":" ++
    toString index ++ "\x7d,\"payload\":\"Blank\"\x7d")

/-- Finds the index of a blank entry below the bound. -/
def readBlankEntry (bound : ℕ) (bytes : Bytes) : Except String ℕ :=
  match (List.range bound).find? (blankEntry · = bytes) with
  | some index => .ok index
  | none => .error "expected value at line 1 column 1"

def twoBatches : List (Batch ℕ) :=
  [⟨1, [4, 5], List.cons_ne_nil _ _, by decide⟩, ⟨2, [6], List.cons_ne_nil _ _, by decide⟩]

/-- The segment as it was written, and cut one byte behind its first batch. -/
theorem twoBatches_read_back : ∃ segment ended,
    encodeSegment id blankEntry 4 twoBatches = .ok segment ∧
    encodeSegment id blankEntry 4 (twoBatches.take 1) = .ok ended ∧
    parseSegment id (readBlankEntry 10) "segment" ⟨0, none⟩ segment 4 =
      .ok ⟨"segment", 4, [⟨1, 4⟩, ⟨1, 5⟩, ⟨2, 6⟩], 3, segment.length, false⟩ ∧
    parseSegment id (readBlankEntry 10) "segment" ⟨0, none⟩ (segment.take (ended.length + 1)) 4 =
      .ok ⟨"segment", 4, [⟨1, 4⟩, ⟨1, 5⟩], 2, ended.length, true⟩ := by
  have hsegment : (encodeSegment id blankEntry 4 twoBatches).toOption.any
      (fun segment => segment.length ≤ u64Max) = true := by
    decide +kernel
  obtain ⟨segment, hencode, hlength⟩ := (Option.any_eq_true _ _).1 hsegment
  have hencode := eq_ok_of_toOption hencode
  have hstate : (⟨0, none⟩ : ControlState).truncationPendingFrom = none := rfl
  have hserde : ∀ batch ∈ twoBatches, ∀ entry ∈ batch.entries,
      readBlankEntry 10 (blankEntry entry) = .ok entry := by decide +kernel
  obtain ⟨hwhole, hcut⟩ := segment_read_back "segment" hstate (by decide) (List.cons_ne_nil _ _)
    hserde hencode (of_decide_eq_true hlength)
  obtain ⟨ended, frame, hended, hframe, hread⟩ :=
    hcut (twoBatches.take 1) ⟨2, [6], List.cons_ne_nil _ _, by decide⟩ [] rfl (List.cons_ne_nil _ _)
  have hlong : (Batch.frame id blankEntry ⟨2, [6], List.cons_ne_nil _ _, by decide⟩).toOption.any
      (fun frame => 1 < frame.length) = true := by
    decide +kernel
  rw [hframe] at hlong
  have hshort : 1 < frame.length := of_decide_eq_true hlong
  exact ⟨segment, ended, hencode, hended, hwhole, hread _ (by omega) (by omega)⟩

end Examples

end Runnel.RaftLog
