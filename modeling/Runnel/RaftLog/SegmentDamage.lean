import Mathlib.Data.Nat.Bitwise
import Runnel.Foundation.ChangedByte
import Runnel.RaftLog.SegmentSpec

/-!
# A changed byte in a segment

One byte of a complete segment is changed. The fields of the segment header are
compared with what they must be, and every byte of a batch is under one of its two
checksums, in the end marker, or in a checksum itself.
-/

namespace Runnel.RaftLog

open Bytes

theorem toNat_crc32Bit (crc : UInt32) :
    (crc32Bit crc).toNat = (crc.toNat / 2) ^^^ (if crc.toNat % 2 = 1 then 0xedb88320 else 0) := by
  have hlow : (crc &&& 1).toNat = crc.toNat % 2 := Nat.and_one_is_mod _
  have hshift : (crc >>> 1).toNat = crc.toNat / 2 := Nat.shiftRight_eq_div_pow _ 1
  rw [crc32Bit, UInt32.toNat_xor, hshift]
  rcases Nat.mod_two_eq_zero_or_one crc.toNat with hbit | hbit
  · obtain hzero : crc &&& 1 = 0 := UInt32.toNat_inj.1 (hlow.trans hbit)
    rw [hzero, hbit]
    rfl
  · obtain hone : crc &&& 1 = 1 := UInt32.toNat_inj.1 (hlow.trans hbit)
    rw [hone, hbit]
    rfl

theorem crc32Bit_injective : Function.Injective crc32Bit := by
  intro a b h
  have hnat := congrArg UInt32.toNat h
  rw [toNat_crc32Bit, toNat_crc32Bit] at hnat
  have hhigh : ∀ crc : UInt32, (crc.toNat / 2).testBit 31 = false := fun crc =>
    Nat.testBit_lt_two_pow (Nat.div_lt_of_lt_mul crc.toNat_lt)
  have hbit := congrArg (Nat.testBit · 31) hnat
  simp only [Nat.testBit_xor, hhigh, Bool.false_xor] at hbit
  have hlow : a.toNat % 2 = b.toNat % 2 := by
    rcases Nat.mod_two_eq_zero_or_one a.toNat with ha | ha <;>
      rcases Nat.mod_two_eq_zero_or_one b.toNat with hb | hb
    · rw [ha, hb]
    · rw [ha, hb] at hbit
      exact absurd hbit (by decide)
    · rw [ha, hb] at hbit
      exact absurd hbit (by decide)
    · rw [ha, hb]
  rw [hlow] at hnat
  apply UInt32.toNat_inj.1
  rw [← Nat.div_add_mod a.toNat 2, ← Nat.div_add_mod b.toNat 2, Nat.xor_left_injective hnat, hlow]

theorem crc32Byte_injective {a b : UInt32} {byte byte' : UInt8}
    (h : crc32Byte a byte = crc32Byte b byte') : a ^^^ byte.toUInt32 = b ^^^ byte'.toUInt32 := by
  unfold crc32Byte at h
  iterate 8 replace h := crc32Bit_injective h
  exact h

theorem crc32_set_ne {bytes : Bytes} {position : ℕ} {old new : UInt8}
    (hold : bytes[position]? = some old) (hne : old ≠ new) :
    (crc32 (bytes.set position new)).toNat ≠ (crc32 bytes).toNat := by
  intro h
  refine foldl_set_ne ?_ ?_ hold hne _ (UInt32.not_inj.1 (UInt32.toNat_inj.1 h))
  · exact fun byte a b h => (UInt32.xor_left_inj _).1 (crc32Byte_injective h)
  · exact fun crc a b h => UInt8.toUInt32_inj.1 ((UInt32.xor_right_inj _).1 (crc32Byte_injective h))

theorem checksum_set_ne {bytes : Bytes} {length position : ℕ} {old new : UInt8}
    (hchecksum : (crc32 (bytes.take length)).toNat = ofLe (slice bytes length 4))
    (hold : bytes[position]? = some old) (hne : old ≠ new) (hposition : position < length + 4) :
    (crc32 ((bytes.set position new).take length)).toNat ≠
      ofLe (slice (bytes.set position new) length 4) := by
  by_cases hcovered : position < length
  · rw [slice_set_outside (Or.inl hcovered), ← hchecksum, List.take_set]
    apply crc32_set_ne _ hne
    rw [List.getElem?_take, if_pos hcovered]
    exact hold
  · rw [List.take_set_of_le (Nat.le_of_not_lt hcovered), hchecksum]
    exact (ofLe_slice_set_ne hold hne (Nat.le_of_not_lt hcovered) hposition).symm

section Batch

variable {E : Type} {index : E → ℕ} {decode : Bytes → Except String E} {state : ControlState}
  {path : String} {offset position : ℕ} {rest : Bytes} {old new : UInt8}

theorem readBatchHeader_checksum {header : BatchHeader}
    (h : readBatchHeader path offset rest = .ok header) :
    (crc32 (rest.take 32)).toNat = ofLe (slice rest 32 4) := by
  unfold readBatchHeader at h
  split_ifs at h with hmagic hchecksum
  exact not_not.1 hchecksum

theorem readBatchHeader_set (hposition : batchHeaderLen ≤ position) :
    readBatchHeader path offset (rest.set position new) = readBatchHeader path offset rest := by
  have hslice : ∀ start length, start + length ≤ batchHeaderLen →
      slice (rest.set position new) start length = slice rest start length :=
    fun start length hle => slice_set_outside (Or.inr (hle.trans hposition))
  unfold batchHeaderLen at hposition
  simp only [readBatchHeader, List.take_set_of_le (show 4 ≤ position by omega),
    List.take_set_of_le (show 32 ≤ position by omega), hslice 32 4 (by decide),
    hslice 4 8 (by decide), hslice 12 8 (by decide), hslice 20 4 (by decide),
    hslice 24 8 (by decide)]

theorem readBatchBody_eq_ok {header : BatchHeader} {result : Option (ReadBatch E)}
    (h : readBatchBody index decode path state offset rest header = .ok result)
    (hlength : batchHeaderLen + header.payloadLength + batchTrailerLen ≤ rest.length) :
    slice rest (batchHeaderLen + header.payloadLength + 4) 4 = batchEnd ∧
      (crc32 (rest.take (batchHeaderLen + header.payloadLength))).toNat =
        ofLe (slice rest (batchHeaderLen + header.payloadLength) 4) ∧
      ∃ batch, result = some batch ∧
        batch.length = batchHeaderLen + header.payloadLength + batchTrailerLen := by
  unfold readBatchBody at h
  dsimp only at h
  split_ifs at h with hoverflow hshort hend hchecksum hcount
  · omega
  · obtain ⟨⟨records, trailing⟩, -, h⟩ := except_bind_eq_ok_iff.1 h
    split_ifs at h
    · cases h
    · exact ⟨not_not.1 hend, not_not.1 hchecksum, _, (Except.ok.inj h).symm, rfl⟩

theorem parseBatch_eq_ok {result : Option (ReadBatch E)}
    (h : parseBatch index decode path state offset rest = .ok result)
    (hlength : batchHeaderLen ≤ rest.length) :
    ∃ header, readBatchHeader path offset rest = .ok header ∧
      readBatchBody index decode path state offset rest header = .ok result := by
  rw [parseBatch, if_neg (Nat.not_lt.2 hlength)] at h
  exact except_bind_eq_ok_iff.1 h

variable {generation startIndex count : ℕ} {payload : Bytes} (hgeneration : generation ≤ u64Max)
  (hstart : startIndex ≤ u64Max) (hcount : count ≤ u32Max) (hpayload : payload.length ≤ u64Max)

include hgeneration hstart hcount hpayload

theorem parseBatch_intact {after : Bytes} {result : Option (ReadBatch E)}
    (h : parseBatch index decode path state offset
      (batchFrame generation startIndex count payload ++ after) = .ok result) :
    ∃ batch, result = some batch ∧
      batch.length = (batchFrame generation startIndex count payload).length := by
  have hlength := length_batchFrame generation startIndex count payload
  obtain ⟨header, hheader, hbody⟩ := parseBatch_eq_ok h (by rw [List.length_append]; omega)
  rw [readBatchHeader_frame path hgeneration hstart hcount hpayload] at hheader
  obtain rfl := Except.ok.inj hheader
  obtain ⟨-, -, batch, hbatch, hend⟩ := readBatchBody_eq_ok hbody
    (by rw [List.length_append, hlength]; exact Nat.le_add_right _ _)
  exact ⟨batch, hbatch, hend.trans hlength.symm⟩

theorem parseBatch_damaged {after : Bytes} {result : Option (ReadBatch E)}
    (hold : (batchFrame generation startIndex count payload)[position]? = some old)
    (hne : old ≠ new) :
    parseBatch index decode path state offset
      ((batchFrame generation startIndex count payload ++ after).set position new) ≠
        .ok result := by
  have hlength := length_batchFrame generation startIndex count payload
  have hlt : position < batchHeaderLen + payload.length + batchTrailerLen := by
    rw [← hlength]
    exact (List.getElem?_eq_some_iff.1 hold).1
  have hheader := readBatchHeader_frame path hgeneration hstart hcount hpayload offset after
  obtain ⟨htake, -, hchecksum, hend⟩ :=
    slices_batchFrame generation startIndex count payload after
  generalize hrest : batchFrame generation startIndex count payload ++ after = rest at *
  have hold : rest[position]? = some old := by
    rw [← hrest, List.getElem?_append_left (List.getElem?_eq_some_iff.1 hold).1, hold]
  have hlong : batchHeaderLen + payload.length + batchTrailerLen ≤
      (rest.set position new).length := by
    rw [List.length_set, ← hrest, List.length_append, hlength]
    exact Nat.le_add_right _ _
  intro h
  obtain ⟨header, hread, hbody⟩ := parseBatch_eq_ok h (by omega)
  by_cases hhead : position < batchHeaderLen
  · exact checksum_set_ne (readBatchHeader_checksum hheader) hold hne hhead
      (readBatchHeader_checksum hread)
  · rw [readBatchHeader_set (Nat.le_of_not_lt hhead), hheader] at hread
    obtain rfl := Except.ok.inj hread
    obtain ⟨hmarker, hsum, -⟩ := readBatchBody_eq_ok hbody hlong
    by_cases hcovered : position < batchHeaderLen + payload.length + 4
    · refine checksum_set_ne ?_ hold hne hcovered hsum
      rw [htake, hchecksum, ofLe_le_checksum]
    · -- only the end marker is left
      have hchanged := @ofLe_slice_set_ne _ _ _ 4 _ _ hold hne (Nat.le_of_not_lt hcovered) hlt
      exact hchanged (by rw [hmarker, hend])

end Batch

section Segment

variable {E : Type} {index : E → ℕ} {encode : E → Bytes} {decode : Bytes → Except String E}
  {state : ControlState} {path : String} {old new : UInt8}

theorem Batch.frame_eq_ok {batch : Batch E} {frame : Bytes}
    (h : batch.frame index encode = .ok frame) :
    ∃ startIndex count payload, frame = batchFrame batch.generation startIndex count payload ∧
      startIndex ≤ u64Max ∧ count ≤ u32Max ∧ payload.length ≤ u64Max := by
  obtain ⟨payload, hpayload, hcount, hlong, rfl⟩ := encodeFrame_eq_ok h
  refine ⟨_, _, payload, rfl, ?_, hcount, hlong⟩
  obtain ⟨entry, rest, hentries⟩ : ∃ entry rest,
      (batch.entries.map fun entry => (index entry, encode entry)) = entry :: rest :=
    List.exists_cons_of_ne_nil (by simpa using batch.nonempty)
  rw [hentries] at hpayload
  exact startIndex_le_of_encodeEntries hpayload

/-- Where the reader of the batches gets to an end, it has got behind the first batch. -/
theorem parseBatches_eq_ok {fuel offset : ℕ} {rest : Bytes} {result : ReadBatches E}
    (h : parseBatches index decode path state fuel offset rest = some (.ok result))
    (hne : rest ≠ []) :
    parseBatch index decode path state offset rest = .ok none ∨
      ∃ batch fuel later, parseBatch index decode path state offset rest = .ok (some batch) ∧
        parseBatches index decode path state fuel (offset + batch.length)
          (rest.drop batch.length) = some (.ok later) := by
  cases fuel with
  | zero => cases h
  | succ fuel =>
    rw [parseBatches, if_neg (mt List.isEmpty_iff.1 hne)] at h
    cases hparse : parseBatch index decode path state offset rest with
    | error error =>
      rw [hparse] at h
      cases h
    | ok read =>
      cases read with
      | none => exact Or.inl rfl
      | some batch =>
        rw [hparse] at h
        obtain ⟨later, hlater, hmap⟩ := Option.map_eq_some_iff.1 h
        cases later with
        | error error => cases hmap
        | ok later => exact Or.inr ⟨batch, fuel, later, rfl, hlater⟩

/-- Batches in front of the changed byte are passed, if they are accepted at all, and the batch
that has it is refused. -/
theorem parseBatches_damaged {batches : List (Batch E)} {frames : List Bytes}
    (hframes : List.Forall₂ (fun batch frame => batch.frame index encode = .ok frame) batches
      frames) {position : ℕ} (hold : frames.flatten[position]? = some old) (hne : old ≠ new)
    (fuel offset : ℕ) (result : ReadBatches E) :
    parseBatches index decode path state fuel offset (frames.flatten.set position new) ≠
      some (.ok result) := by
  induction hframes generalizing position fuel offset result with
  | nil => simp at hold
  | @cons batch frame batches frames hframe _ ih =>
    intro h
    have hpos := Batch.frame_ne_nil hframe
    obtain ⟨startIndex, count, payload, rfl, hstart, hcount, hpayload⟩ := Batch.frame_eq_ok hframe
    rw [List.flatten_cons] at hold h
    have hnil : (batchFrame batch.generation startIndex count payload ++ frames.flatten).set
        position new ≠ [] := by
      apply List.ne_nil_of_length_pos
      rw [List.length_set, List.length_append]
      omega
    by_cases hhere : position < (batchFrame batch.generation startIndex count payload).length
    · rw [List.getElem?_append_left hhere] at hold
      have hdamaged : ∀ result, parseBatch index decode path state offset
          ((batchFrame batch.generation startIndex count payload ++ frames.flatten).set position
            new) ≠ .ok result := fun result =>
        parseBatch_damaged batch.generation_le hstart hcount hpayload hold hne
      rcases parseBatches_eq_ok h hnil with hparse | ⟨read, -, -, hparse, -⟩
      · exact hdamaged _ hparse
      · exact hdamaged _ hparse
    · have hbehind := Nat.le_of_not_lt hhere
      rw [List.getElem?_append_right hbehind] at hold
      rw [List.set_append_right _ _ hbehind] at h hnil
      rcases parseBatches_eq_ok h hnil with hparse | ⟨read, fuel, later, hparse, hlater⟩
      · obtain ⟨_, hread, -⟩ :=
          parseBatch_intact batch.generation_le hstart hcount hpayload hparse
        cases hread
      · obtain ⟨_, hread, hlength⟩ :=
          parseBatch_intact batch.generation_le hstart hcount hpayload hparse
        obtain rfl := Option.some.inj hread
        rw [hlength, List.drop_left] at hlater
        exact ih hold fuel _ later hlater

theorem parseSegment_eq_ok {bytes : Bytes} {expectedStart : ℕ} {read : ReadSegment E}
    (h : parseSegment index decode path state bytes expectedStart = .ok read) :
    slice bytes 0 4 = segmentMagic ∧ ofLe (slice bytes 4 4) = formatVersion ∧
      ofLe (slice bytes 8 8) = expectedStart ∧
      ∃ fuel batches, parseBatches index decode path state fuel segmentHeaderLen
        (bytes.drop segmentHeaderLen) = some (.ok batches) := by
  unfold parseSegment at h
  dsimp only at h
  by_cases hlength : bytes.length < segmentHeaderLen
  · rw [if_pos hlength] at h
    cases h
  by_cases hmagic : bytes.take 4 ≠ segmentMagic
  · rw [if_neg hlength, if_pos hmagic] at h
    cases h
  by_cases hversion : ofLe (slice bytes 4 4) ≠ formatVersion
  · rw [if_neg hlength, if_neg hmagic, if_pos hversion] at h
    cases h
  by_cases hindex : ofLe (slice bytes 8 8) ≠ expectedStart
  · rw [if_neg hlength, if_neg hmagic, if_neg hversion, if_pos hindex] at h
    cases h
  rw [if_neg hlength, if_neg hmagic, if_neg hversion, if_neg hindex] at h
  obtain ⟨batches, hbatches, -⟩ := except_bind_eq_ok_iff.1 h
  exact ⟨not_not.1 hmagic, not_not.1 hversion, not_not.1 hindex, _, batches,
    (Option.some_get _).symm.trans (congrArg some hbatches)⟩

/-- Whatever byte of a complete segment is changed, the segment is refused. -/
theorem changed_segment_refused (path : String) (state : ControlState)
    (decode : Bytes → Except String E) {startIndex : ℕ} (hstart : startIndex ≤ u64Max)
    {batches : List (Batch E)} {segment : Bytes}
    (hencode : encodeSegment index encode startIndex batches = .ok segment) {position : ℕ}
    (hold : segment[position]? = some old) (hne : old ≠ new) :
    ∃ error, parseSegment index decode path state (segment.set position new) startIndex =
      .error error := by
  obtain ⟨frames, hmap, hsegment⟩ := except_bind_eq_ok_iff.1 hencode
  obtain rfl := Except.ok.inj hsegment
  cases hparse : parseSegment index decode path state
      ((segmentHeader startIndex ++ frames.flatten).set position new) startIndex with
  | error error => exact ⟨error, rfl⟩
  | ok read =>
    exfalso
    obtain ⟨hmagic, hversion, hindex, fuel, result, hbatches⟩ := parseSegment_eq_ok hparse
    obtain ⟨hmagic', hversion', hindex'⟩ := slices_segmentHeader hstart frames.flatten
    by_cases hheader : position < segmentHeaderLen
    · -- each field of the header is compared with the one that was written
      have hchanged := fun start length hle hlt =>
        @ofLe_slice_set_ne _ position start length _ _ hold hne hle hlt
      unfold segmentHeaderLen at hheader
      rcases Nat.lt_or_ge position 4 with hlt | hle
      · exact hchanged 0 4 (Nat.zero_le _) hlt (by rw [hmagic, hmagic'])
      rcases Nat.lt_or_ge position 8 with hlt | hle'
      · exact hchanged 4 4 hle hlt (hversion.trans hversion'.symm)
      · exact hchanged 8 8 hle' hheader (hindex.trans hindex'.symm)
    · have hbehind : (segmentHeader startIndex).length ≤ position := by
        rw [length_segmentHeader]
        exact Nat.le_of_not_lt hheader
      rw [List.getElem?_append_right hbehind] at hold
      rw [List.set_append_right _ _ hbehind, List.drop_left' (length_segmentHeader startIndex)]
        at hbatches
      exact parseBatches_damaged (forall₂_of_mapM hmap) hold hne fuel _ result hbatches

end Segment

/-- The index of an entry of a complete segment is changed to another digit, and the entry would
still decode. -/
theorem changed_twoBatches_refused : ∃ segment error,
    encodeSegment id blankEntry 4 twoBatches = .ok segment ∧ segment[110]? = some 0x34 ∧
      parseSegment id (readBlankEntry 10) "segment" ⟨0, none⟩ (segment.set 110 0x35) 4 =
        .error error := by
  have hsegment : (encodeSegment id blankEntry 4 twoBatches).toOption.any
      (fun segment => segment[110]? = some 0x34) = true := by
    decide +kernel
  obtain ⟨segment, hencode, hold⟩ := (Option.any_eq_true _ _).1 hsegment
  have hencode := eq_ok_of_toOption hencode
  have hold := of_decide_eq_true hold
  obtain ⟨error, herror⟩ := changed_segment_refused "segment" ⟨0, none⟩ (readBlankEntry 10)
    (by decide) hencode hold (by decide : (0x34 : UInt8) ≠ 0x35)
  exact ⟨segment, error, hencode, hold, herror⟩

end Runnel.RaftLog
