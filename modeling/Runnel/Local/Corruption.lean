import Mathlib.Data.Nat.Bitwise
import Runnel.Foundation.ChangedByte
import Runnel.Local.RecordReading
import Runnel.Local.TornTail

/-!
# A changed byte in a log

One byte of a complete log is changed. The checksum and the checks on the header
notice it, with one exception: a changed length of the key or of the identity
moves the end of the record.
-/

namespace Runnel.Local

open Runnel.Engine Bytes

theorem crc32cTable_nodup :
    ((List.range 256).map fun index => (crc32cTable (UInt32.ofNat index)).toNat >>> 24).Nodup := by
  decide +kernel

theorem crc32cTable_inj {a b : ℕ} (ha : a < 256) (hb : b < 256)
    (h : (crc32cTable (UInt32.ofNat a)).toNat >>> 24 =
      (crc32cTable (UInt32.ofNat b)).toNat >>> 24) :
    a = b :=
  List.inj_on_of_nodup_map crc32cTable_nodup (List.mem_range.2 ha) (List.mem_range.2 hb) h

theorem crc32c_index (c : UInt32) (b : UInt8) :
    (c ^^^ b.toUInt32) &&& 0xff = UInt32.ofNat ((c.toNat % 256) ^^^ b.toNat) ∧
      (c.toNat % 256) ^^^ b.toNat < 256 := by
  have hlt : (c.toNat % 256) ^^^ b.toNat < 2 ^ 8 :=
    Nat.xor_lt_two_pow (Nat.mod_lt _ (by decide)) b.toNat_lt
  refine ⟨?_, hlt⟩
  apply UInt32.toNat_inj.1
  rw [UInt32.toNat_and, UInt32.toNat_xor, UInt8.toNat_toUInt32, UInt32.toNat_ofNat',
    show (0xff : UInt32).toNat = 2 ^ 8 - 1 from rfl, Nat.and_two_pow_sub_one_eq_mod,
    Nat.xor_mod_two_pow, Nat.mod_eq_of_lt (b.toNat_lt : _ < 2 ^ 8),
    Nat.mod_eq_of_lt (hlt.trans (by decide))]

/-- A step keeps the higher bytes, and the lowest one mixed with the byte that was read. -/
theorem crc32cStep_inj {c c' : UInt32} {b b' : UInt8} (h : crc32cStep c b = crc32cStep c' b') :
    c.toNat / 256 = c'.toNat / 256 ∧
      (c.toNat % 256) ^^^ b.toNat = (c'.toNat % 256) ^^^ b'.toNat := by
  obtain ⟨hx, hxlt⟩ := crc32c_index c b
  obtain ⟨hy, hylt⟩ := crc32c_index c' b'
  rw [crc32cStep, crc32cStep, hx, hy] at h
  have hnat := congrArg UInt32.toNat h
  rw [UInt32.toNat_xor, UInt32.toNat_xor, UInt32.toNat_shiftRight, UInt32.toNat_shiftRight] at hnat
  have hshift : ∀ c : UInt32, c.toNat >>> ((8 : UInt32).toNat % 32) = c.toNat / 256 := by
    intro c
    exact Nat.shiftRight_eq_div_pow _ 8
  have hhigh : ∀ c : UInt32, (c.toNat / 256) >>> 24 = 0 := by
    intro c
    have := c.toNat_lt
    rw [Nat.shiftRight_eq_div_pow]
    omega
  rw [hshift, hshift] at hnat
  have htop := congrArg (· >>> 24) hnat
  simp only [Nat.shiftRight_xor_distrib, hhigh, Nat.zero_xor] at htop
  have hsame := crc32cTable_inj hxlt hylt htop
  rw [hsame] at hnat
  exact ⟨Nat.xor_left_injective hnat, hsame⟩

theorem crc32cStep_left_inj {c c' : UInt32} {b : UInt8} (h : crc32cStep c b = crc32cStep c' b) :
    c = c' := by
  obtain ⟨hhigh, hlow⟩ := crc32cStep_inj h
  have hmod := Nat.xor_left_injective hlow
  apply UInt32.toNat_inj.1
  rw [← Nat.div_add_mod c.toNat 256, ← Nat.div_add_mod c'.toNat 256, hhigh, hmod]

theorem crc32cStep_right_inj {c : UInt32} {b b' : UInt8} (h : crc32cStep c b = crc32cStep c b') :
    b = b' := by
  obtain ⟨-, hlow⟩ := crc32cStep_inj h
  rw [Nat.xor_comm, Nat.xor_comm _ b'.toNat] at hlow
  exact UInt8.toNat_inj.1 (Nat.xor_left_injective hlow)

theorem crc32cUpdate_set_ne {bytes : Bytes} {position : ℕ} {old new : UInt8}
    (hold : bytes[position]? = some old) (hne : old ≠ new) (c : UInt32) :
    crc32cUpdate c (bytes.set position new) ≠ crc32cUpdate c bytes := by
  apply foldl_set_ne _ _ hold hne
  · exact fun byte c c' h => crc32cStep_left_inj h
  · exact fun c b b' h => crc32cStep_right_inj h

theorem finalized_inj {a b : UInt32} (h : (crc32cFinalize a).toNat = (crc32cFinalize b).toNat) :
    a = b := by
  rw [crc32cFinalize, crc32cFinalize] at h
  exact UInt32.not_inj.1 (UInt32.toNat_inj.1 h)

section Covered

variable {rest : Bytes} {position recordLen : ℕ} {old new : UInt8}

/-- The covered bytes are those of the record, with zeros in place of its checksum. -/
theorem getElem?_coveredBytes (hlen : recordHeaderLen ≤ rest.length)
    (hrecord : recordHeaderLen ≤ recordLen) (index : ℕ) :
    (coveredBytes rest recordLen)[index]? =
      if index < 44 then rest[index]? else if index < 48 then some 0
      else if index < recordLen then rest[index]? else none := by
  have hheader : (rest.take recordHeaderLen).take 44 = rest.take 44 := by
    rw [List.take_take]
    rfl
  have hshort : (rest.take 44).length = 44 := by
    rw [List.length_take]
    unfold recordHeaderLen at hlen
    omega
  unfold recordHeaderLen at hrecord
  rw [coveredBytes, checksumHeader, hheader]
  split_ifs with hfirst hzero hlast
  · rw [List.append_assoc, List.getElem?_append_left (by omega), List.getElem?_take, if_pos hfirst]
  · rw [List.append_assoc, List.getElem?_append_right (by omega), hshort,
      List.getElem?_append_left (by simp; omega)]
    obtain rfl | rfl | rfl | rfl : index = 44 ∨ index = 45 ∨ index = 46 ∨ index = 47 := by omega
    all_goals rfl
  · rw [List.getElem?_append_right (by simp [hshort]; omega), getElem?_slice]
    simp only [List.length_append, hshort, List.length_cons, List.length_nil]
    unfold recordHeaderLen
    rw [if_pos (by omega), show 48 + (index - (44 + (0 + 1 + 1 + 1 + 1))) = index by omega]
  · rw [List.getElem?_append_right (by simp [hshort]; omega), getElem?_slice]
    simp only [List.length_append, hshort, List.length_cons, List.length_nil]
    unfold recordHeaderLen
    rw [if_neg (by omega)]

variable (hlen : recordHeaderLen ≤ rest.length) (hrecord : recordHeaderLen ≤ recordLen)

include hlen hrecord

theorem coveredBytes_set_checksum (h : 44 ≤ position) (h' : position < 48) :
    coveredBytes (rest.set position new) recordLen = coveredBytes rest recordLen := by
  apply List.ext_getElem?
  intro index
  rw [getElem?_coveredBytes (by simpa using hlen) hrecord, getElem?_coveredBytes hlen hrecord]
  split_ifs
  · rw [List.getElem?_set_ne (by omega)]
  · rfl
  · rw [List.getElem?_set_ne (by omega)]
  · rfl

theorem getElem?_coveredBytes_position (h : position < 44 ∨ 48 ≤ position)
    (h' : position < recordLen) : (coveredBytes rest recordLen)[position]? = rest[position]? := by
  rw [getElem?_coveredBytes hlen hrecord]
  split_ifs
  · rfl
  · omega
  · rfl

theorem coveredBytes_set (hold : rest[position]? = some old) (h : position < 44 ∨ 48 ≤ position)
    (h' : position < recordLen) : coveredBytes (rest.set position new) recordLen =
      (coveredBytes rest recordLen).set position new := by
  have hlen' : recordHeaderLen ≤ (rest.set position new).length := by simpa using hlen
  have hcovered := getElem?_coveredBytes_position hlen hrecord h h'
  rw [hold] at hcovered
  obtain ⟨hlt, -⟩ := List.getElem?_eq_some_iff.1 hold
  obtain ⟨hlt', -⟩ := List.getElem?_eq_some_iff.1 hcovered
  apply List.ext_getElem?
  intro index
  by_cases hindex : index = position
  · subst hindex
    rw [getElem?_coveredBytes_position hlen' hrecord h h', List.getElem?_set_self hlt,
      List.getElem?_set_self hlt']
  · rw [getElem?_coveredBytes hlen' hrecord, List.getElem?_set_ne (Ne.symm hindex),
      List.getElem?_set_ne (Ne.symm hindex), getElem?_coveredBytes hlen hrecord]

theorem coveredChecksum_set_ne (hold : rest[position]? = some old) (hne : old ≠ new)
    (h : position < 44 ∨ 48 ≤ position) (h' : position < recordLen) :
    coveredChecksum (rest.set position new) recordLen ≠ coveredChecksum rest recordLen := by
  intro heq
  have hsum := finalized_inj heq
  rw [coveredBytes_set hlen hrecord hold h h'] at hsum
  refine crc32cUpdate_set_ne ?_ hne _ hsum
  rw [getElem?_coveredBytes_position hlen hrecord h h', hold]

end Covered

/-- The length that the bytes of a record announce for it. -/
def announcedLen (rest : Bytes) : ℕ :=
  recordHeaderLen + ofLe (slice rest 32 4) + ofLe (slice rest 36 4) + ofLe (slice rest 8 4)

/-- The checksum that the bytes of a record carry. -/
def storedChecksum (rest : Bytes) : ℕ := ofLe (slice rest 44 4)

theorem HeaderReads.of_take {rest : Bytes} {fields : HeaderFields}
    (h : HeaderReads (rest.take recordHeaderLen) fields) :
    fields.recordLen = announcedLen rest ∧ fields.checksum = storedChecksum rest ∧
      ofLe (slice rest 8 4) = ofLe (slice rest 12 4) := by
  have hslice : ∀ start len, start + len ≤ recordHeaderLen →
      slice (rest.take recordHeaderLen) start len = slice rest start len := by
    intro start len hle
    rw [slice, slice, List.drop_take, List.take_take, Nat.min_eq_left (by omega)]
  have hstored := h.storedLen
  have hlogical := h.logicalLen
  have hkey := h.keyLen
  have hid := h.requestIdLen
  have hsum := h.checksum
  rw [hslice _ _ (by decide)] at hstored hlogical hkey hid hsum
  refine ⟨?_, hsum.symm, hstored.trans hlogical.symm⟩
  rw [announcedLen, hstored, hkey, hid, HeaderFields.recordLen]

/-- A frame with one changed byte is an error, unless the byte is one of the lengths of key and
identity and the record is misread. -/
theorem readNextRecord_changed {record : Record} {offset : ℕ} (hoffset : offset < 256 ^ 8)
    {tail : Bytes} {position : ℕ} {old new : UInt8} (hposition : position < record.frameLen)
    (hold : (record.frame offset ++ tail)[position]? = some old) (hne : old ≠ new) {bytes : Bytes}
    {cursor : ℕ} (hbytes : bytes.drop cursor = (record.frame offset ++ tail).set position new)
    {result : Option ParsedRecord} (h : readNextRecord bytes cursor = .ok result) :
    32 ≤ position ∧ position < 40 ∧
      ((result = none ∧ ((record.frame offset ++ tail).set position new).length <
          announcedLen ((record.frame offset ++ tail).set position new)) ∨
        coveredChecksum ((record.frame offset ++ tail).set position new)
            (announcedLen ((record.frame offset ++ tail).set position new)) =
          storedChecksum ((record.frame offset ++ tail).set position new)) := by
  have hheader : HeaderReads ((record.frame offset ++ tail).take recordHeaderLen)
      (record.headerFields offset) := by
    apply headerReads_of_readHeader
    rw [record.take_header offset (record.header_frame offset tail)]
    exact record.readHeader_header offset hoffset
  obtain ⟨hframe, hstored, hlens⟩ := hheader.of_take
  have hchecksum : coveredChecksum (record.frame offset ++ tail) record.frameLen =
      storedChecksum (record.frame offset ++ tail) := by
    rcases readFields_cases (record.readFields_frame offset tail 0) with ⟨hnone, -⟩ |
      ⟨parsed, -, -, -, -, hsum, -⟩
    · cases hnone
    · exact hsum.trans hstored
  have hframeLen : announcedLen (record.frame offset ++ tail) = record.frameLen := hframe.symm
  have hlong : record.frameLen ≤ (record.frame offset ++ tail).length := by simp
  have hmin := record.recordHeaderLen_le_frameLen
  generalize record.frame offset ++ tail = rest at *
  rcases readNextRecord_cases h with ⟨-, hshort⟩ | ⟨fields, -, hread, -, hfields⟩
  · rw [hbytes, List.length_set] at hshort
    omega
  · rw [hbytes] at hread hfields
    obtain ⟨hchanged, hsum', hlens'⟩ := (headerReads_of_readHeader hread).of_take
    have hmisread : (result = none ∧ (rest.set position new).length <
        announcedLen (rest.set position new)) ∨ coveredChecksum (rest.set position new)
          (announcedLen (rest.set position new)) = storedChecksum (rest.set position new) := by
      rcases readFields_cases hfields with ⟨hnone, hshort⟩ | ⟨parsed, -, -, -, -, hsum, -⟩
      · exact Or.inl ⟨hnone, hchanged ▸ hshort⟩
      · exact Or.inr (by rw [← hchanged, hsum, hsum'])
    by_cases hlength : 32 ≤ position ∧ position < 40
    · exact ⟨hlength.1, hlength.2, hmisread⟩
    · exfalso
      -- the stored length is written twice, so it has not changed
      have hnotStored : ¬ (8 ≤ position ∧ position < 12) := by
        rintro ⟨hge, hlt⟩
        apply ofLe_slice_set_ne hold hne hge (by omega : position < 8 + 4)
        rw [hlens', slice_set_outside (Or.inl hlt), hlens]
      have hsame : announcedLen (rest.set position new) = record.frameLen := by
        rw [← hframeLen, announcedLen, announcedLen, slice_set_outside (by omega),
          slice_set_outside (by omega), slice_set_outside (by omega)]
      rcases hmisread with ⟨-, hshort⟩ | hsum
      · rw [hsame, List.length_set] at hshort
        omega
      · rw [hsame] at hsum
        by_cases hfield : 44 ≤ position ∧ position < 48
        · rw [coveredChecksum, coveredBytes_set_checksum (hmin.trans hlong) hmin hfield.1 hfield.2]
            at hsum
          exact ofLe_slice_set_ne hold hne hfield.1 hfield.2 (hsum.symm.trans hchecksum)
        · have hstill : storedChecksum (rest.set position new) = storedChecksum rest := by
            rw [storedChecksum, slice_set_outside (by omega), storedChecksum]
          apply coveredChecksum_set_ne (hmin.trans hlong) hmin hold hne (by omega) hposition
          rw [hsum, hstill, hchecksum]

theorem exists_record_at {records : List Record} {position : ℕ} (h : position < framesLen records) :
    ∃ front record rest, records = front ++ record :: rest ∧ framesLen front ≤ position ∧
      position < framesLen front + record.frameLen := by
  induction records generalizing position with
  | nil => simp at h
  | cons first others ih =>
    by_cases hfirst : position < first.frameLen
    · exact ⟨[], first, others, rfl, by simp, by simpa using hfirst⟩
    · rw [framesLen_cons] at h
      obtain ⟨front, record, rest, rfl, hle, hlt⟩ := @ih (position - first.frameLen) (by omega)
      refine ⟨first :: front, record, rest, rfl, ?_, ?_⟩
      · rw [framesLen_cons]
        omega
      · rw [framesLen_cons]
        omega

theorem inspect_front {file : File} {front : List Record} {part : Bytes}
    (hbytes : file.bytes = frames front ++ part) (hlen : front.length < 2 ^ 62) :
    ∃ reached, ((∀ error, readNextRecord file.bytes (framesLen front) = .error error →
        StreamLog.inspect file = .error error) ∧
      (readNextRecord file.bytes (framesLen front) = .ok none →
        framesLen front ≠ file.bytes.length →
        StreamLog.inspect file = .ok (reached, some (framesLen front)))) ∧
      (reached.finishRecovery (some (framesLen front))).HasRecords front := by
  have hfuel : file.bytes.length + 1 = file.bytes.length - front.length + 1 + front.length := by
    have hframes := length_le_framesLen front
    rw [hbytes, List.length_append, length_frames]
    unfold recordHeaderLen at hframes
    omega
  obtain ⟨reached, hloop, hfile, hindexed⟩ := @inspectLoop_front [] front part { file := file }
    (file.bytes.length - front.length + 1) hbytes (Indexed.nil file) hlen
  rw [← hfuel, framesLen_nil, List.nil_append] at hloop
  refine ⟨reached, ⟨?_, ?_⟩, ?_⟩
  · intro error hread
    have hstops : StreamLog.inspectLoop (file.bytes.length - front.length + 1) reached
        (framesLen front) = .error error := by
      rw [StreamLog.inspectLoop, hfile, hread]
    rw [StreamLog.inspect, hloop, hstops]
    rfl
  · intro hread hne
    have hstops : StreamLog.inspectLoop (file.bytes.length - front.length + 1) reached
        (framesLen front) = .ok (reached, framesLen front) := by
      rw [StreamLog.inspectLoop, hfile, hread]
    rw [StreamLog.inspect, hloop, hstops]
    change Except.ok (reached, if framesLen front ≠ file.bytes.length then _ else _) = _
    rw [if_pos hne]
  · have hcut : (reached.finishRecovery (some (framesLen front))).file.bytes = frames front := by
      change reached.file.bytes.take (framesLen front) = frames front
      rw [hfile]
      change file.bytes.take (framesLen front) = frames front
      rw [hbytes, ← length_frames front, List.take_left']
      rfl
    have hrep : Represents (reached.finishRecovery (some (framesLen front)))
        (front.map Record.stored) [] := by
      refine ⟨?_, ⟨hindexed.tail, hindexed.checkpoint, hindexed.identity, hindexed.nextOffset⟩,
        default, List.nil_prefix⟩
      rw [hcut, frames_stored, List.append_nil]
    have hend := hrep.readNextRecord_end
    rw [framesLen_stored] at hend
    exact hrep.hasRecords hend

/-- One byte of a complete log is changed. Opening it fails, or the byte is one of the lengths of
the key and of the identity of a record. Then the record seems to reach behind the end of the file
and is cut off with all that follows, or its checksum holds by chance. -/
theorem changed_byte_detected {sync : Bool} {records : List Record} {log : StreamLog}
    {offsets : List ℕ} (happended : StreamLog.create.appendEach sync records = (log, .ok offsets))
    {position : ℕ} {old new : UInt8} (hold : log.file.bytes[position]? = some old) (hne : old ≠ new)
    {file : File} (hfile : file.bytes = log.file.bytes.set position new) :
    (∃ error, StreamLog.inspect file = .error error) ∨
    ∃ front record rest, records = front ++ record :: rest ∧
      framesLen front + 32 ≤ position ∧ position < framesLen front + 40 ∧
      (((file.bytes.drop (framesLen front)).length <
          announcedLen (file.bytes.drop (framesLen front)) ∧
        ∃ recovered, StreamLog.inspect file = .ok (recovered, some (framesLen front)) ∧
          (recovered.finishRecovery (some (framesLen front))).HasRecords front) ∨
      coveredChecksum (file.bytes.drop (framesLen front))
          (announcedLen (file.bytes.drop (framesLen front))) =
        storedChecksum (file.bytes.drop (framesLen front))) := by
  have hlog := represents_create.of_appendEach happended
  rw [List.nil_append] at hlog
  have hbytes : log.file.bytes = frames records := hlog.bytes.trans (List.append_nil _)
  obtain ⟨hlt, -⟩ := List.getElem?_eq_some_iff.1 hold
  rw [hbytes, length_frames] at hlt
  obtain ⟨front, record, rest, rfl, hle, hwithin⟩ := exists_record_at hlt
  have hlen := hlog.length_lt
  rw [List.length_append, List.length_cons] at hlen
  rw [hbytes, frames_split] at hold hfile
  have hindex : position = (frames front).length + (position - framesLen front) := by
    rw [length_frames]
    omega
  rw [hindex, List.getElem?_append_right (Nat.le_add_right _ _), Nat.add_sub_cancel_left] at hold
  rw [hindex, List.set_append_right _ _ (Nat.le_add_right _ _), Nat.add_sub_cancel_left] at hfile
  have hdrop : file.bytes.drop (framesLen front) =
      (record.frame front.length ++ framesFrom (front.length + 1) rest).set
        (position - framesLen front) new := by
    rw [hfile, ← length_frames front, List.drop_left]
  obtain ⟨reached, hinspect, hcut⟩ := inspect_front hfile (by omega)
  cases hread : readNextRecord file.bytes (framesLen front) with
  | error error => exact Or.inl ⟨error, hinspect.1 error hread⟩
  | ok result =>
    right
    obtain ⟨hfrom, hto, hmisread⟩ :=
      readNextRecord_changed (by omega) (by omega) hold hne hdrop hread
    refine ⟨front, record, rest, rfl, by omega, by omega, ?_⟩
    rw [← hdrop] at hmisread
    rcases hmisread with ⟨rfl, hshort⟩ | hsum
    · have hnonempty : framesLen front ≠ file.bytes.length := by
        have hmin := record.recordHeaderLen_le_frameLen
        have hpos : file.bytes.length - framesLen front =
            record.frameLen + (framesFrom (front.length + 1) rest).length := by
          rw [← List.length_drop, hdrop, List.length_set, List.length_append, Record.length_frame]
        unfold recordHeaderLen at hmin
        omega
      exact Or.inl ⟨hshort, reached, hinspect.2 hread hnonempty, hcut⟩
    · exact Or.inr hsum

def changeByte (file : File) (position : ℕ) (value : UInt8) : File where
  bytes := file.bytes.set position value
  synced := file.synced
  length_le := by rw [List.length_set]; exact file.length_le
  synced_le := by rw [List.length_set]; exact file.synced_le

/-- A changed payload byte of the first of two records is noticed. -/
theorem changed_payload_detected : ∃ error, StreamLog.inspect
    (changeByte (StreamLog.create.appendEach true twoRecords).1.file 50 7) = .error error := by
  have happended : StreamLog.create.appendEach true twoRecords =
      ((StreamLog.create.appendEach true twoRecords).1, .ok [0, 1]) :=
    Prod.ext rfl (by decide +kernel)
  have hold : (StreamLog.create.appendEach true twoRecords).1.file.bytes[50]? = some 1 := by
    decide +kernel
  have hfile : (changeByte (StreamLog.create.appendEach true twoRecords).1.file 50 7).bytes =
      (StreamLog.create.appendEach true twoRecords).1.file.bytes.set 50 7 := rfl
  rcases changed_byte_detected happended hold (by decide) hfile with herror |
    ⟨front, record, rest, hsplit, hle, hlt, -⟩
  · exact herror
  · -- no record starts so that the position is one of its lengths
    match front with
    | [] => simp at hlt
    | [first] =>
      obtain ⟨rfl, -⟩ := List.cons.inj hsplit
      exact absurd hle (by decide +kernel)
    | _ :: _ :: _ => simp [twoRecords] at hsplit

/-- With another key length the second of two records is taken for an incomplete tail: the file is
opened without an error and the record is cut off. -/
theorem changed_key_length_silent : ∃ recovered, StreamLog.inspect
    (changeByte (StreamLog.create.appendEach true twoRecords).1.file 83 100) =
      .ok (recovered, some 51) ∧ recovered.nextOffset = 1 ∧ twoRecords.length = 2 := by
  have hsome : (StreamLog.inspect
      (changeByte (StreamLog.create.appendEach true twoRecords).1.file 83 100)).toOption.any
        fun result => result.2 = some 51 ∧ result.1.nextOffset = 1 := by
    decide +kernel
  obtain ⟨⟨recovered, tail⟩, hresult, hfacts⟩ := (Option.any_eq_true _ _).1 hsome
  obtain ⟨htail, hnext⟩ := of_decide_eq_true hfacts
  cases hinspect : StreamLog.inspect
      (changeByte (StreamLog.create.appendEach true twoRecords).1.file 83 100) with
  | error error => rw [hinspect] at hresult; cases hresult
  | ok found =>
    rw [hinspect] at hresult
    obtain rfl := Option.some.inj hresult
    exact ⟨recovered, by rw [← htail], hnext, rfl⟩

end Runnel.Local
