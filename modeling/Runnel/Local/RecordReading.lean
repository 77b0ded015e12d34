import Runnel.Local.RecordSpec

/-!
# What a read says about the bytes

Whatever is read at a position, and not only a frame that was written: the checks
that its header passed, the bytes that its checksum covers, and where it ends.
-/

namespace Runnel.Local

open Runnel.Engine Bytes

/-- The fields of a header that passed every check. -/
structure HeaderReads (header : Bytes) (fields : HeaderFields) : Prop where
  version : header.getD 4 0 = recordFormatVersion
  identityKind : readIdentityKind (header.getD 5 0) = .ok fields.identityKind
  headerLen : ofLe (slice header 6 2) = recordHeaderLen
  storedLen : ofLe (slice header 8 4) = fields.storedLen
  logicalLen : ofLe (slice header 12 4) = fields.storedLen
  offset : ofLe (slice header 16 8) = fields.offset
  publishedAtMs : ofLe (slice header 24 8) = fields.publishedAtMs
  keyLen : ofLe (slice header 32 4) = fields.keyLen
  requestIdLen : ofLe (slice header 36 4) = fields.requestIdLen
  reserved : slice header 40 4 = [0, 0, 0, 0]
  checksum : ofLe (slice header 44 4) = fields.checksum
  keyLen_le : fields.keyLen ≤ maxKeyLen
  requestIdLen_le : fields.requestIdLen ≤ maxRequestIdLen
  storedLen_le : fields.storedLen ≤ maxBodyLen
  noIdentity : fields.identityKind = none → fields.requestIdLen = 0

variable {fields : HeaderFields}

theorem headerReads_of_readHeader {header : Bytes}
    (h : readHeader header = .ok fields) : HeaderReads header fields := by
  unfold readHeader at h
  simp only [bind, Except.bind, throw, throwThe, MonadExceptOf.throw, pure, Except.pure] at h
  cases hkind : readIdentityKind (header.getD 5 0) with
  | error error =>
    rw [hkind] at h
    dsimp only at h
    split_ifs at h
  | ok kind =>
    rw [hkind] at h
    dsimp only at h
    split_ifs at h with hversion hlen hkey hid hmax hnone hsame hreserved
    obtain rfl := Except.ok.inj h
    refine ⟨not_not.1 hversion, hkind, not_not.1 hlen, rfl, not_not.1 hsame, rfl, rfl, rfl, rfl,
      not_not.1 hreserved, rfl, Nat.le_of_not_lt hkey, Nat.le_of_not_lt hid,
      Nat.le_of_not_lt (not_or.1 hmax).1, ?_⟩
    intro hkindNone
    by_contra hne
    exact hnone ⟨Option.isNone_iff_eq_none.2 hkindNone, hne⟩

theorem flag_of_readIdentityKind {flag : UInt8} {identity : RecordIdentity}
    (h : readIdentityKind flag = .ok identity.kind) : flag = identity.flag := by
  unfold readIdentityKind at h
  split_ifs at h with hpublic hmove hnone
  all_goals
    cases identity <;> cases h
    assumption

variable {bytes : Bytes}

theorem utf8_of_readText {message text : String}
    (h : readText bytes message = .ok text) : utf8 text = bytes := by
  unfold readText at h
  split at h
  · rename_i hread
    rw [← Except.ok.inj h]
    exact utf8_of_fromUtf8? hread
  · cases h

theorem keyBytes_of_readKey {key : Option String} (h : readKey bytes = .ok key) :
    keyBytes key = bytes := by
  unfold readKey at h
  split_ifs at h with hempty
  · rw [← Except.ok.inj h, List.isEmpty_iff.1 hempty]
    rfl
  · cases hread : readText bytes "RNL3 record key is not UTF-8" with
    | error error => rw [hread] at h; cases h
    | ok text =>
      rw [hread] at h
      rw [← Except.ok.inj h]
      exact utf8_of_readText hread

theorem identity_of_readRequestId {kind : Option RequestIdentityKind}
    {requestId : Option String} (h : readRequestId kind bytes = .ok requestId)
    (hnone : kind = none → bytes = []) :
    ∃ identity : RecordIdentity, identity.kind = kind ∧ identity.bytes = bytes := by
  cases kind with
  | none => exact ⟨.none, rfl, (hnone rfl).symm⟩
  | some kind =>
    cases hread : readText bytes "RNL3 record ID is not UTF-8" with
    | error error =>
      rw [readRequestId, hread] at h
      cases h
    | ok text =>
      have htext := utf8_of_readText hread
      cases kind with
      | publicId => exact ⟨.publicId text, rfl, htext⟩
      | deadLetterMove => exact ⟨.deadLetterMove text, rfl, htext⟩

/-- The length that a header announces for its record. -/
def HeaderFields.recordLen (fields : HeaderFields) : ℕ :=
  recordHeaderLen + fields.keyLen + fields.requestIdLen + fields.storedLen

def coveredBytes (rest : Bytes) (recordLen : ℕ) : Bytes :=
  checksumHeader (rest.take recordHeaderLen) ++
    slice rest recordHeaderLen (recordLen - recordHeaderLen)

def coveredChecksum (rest : Bytes) (recordLen : ℕ) : ℕ :=
  (crc32cFinalize (crc32cUpdate (~~~0) (coveredBytes rest recordLen))).toNat

theorem coveredBytes_fields (rest : Bytes) (fields : HeaderFields) :
    coveredBytes rest fields.recordLen = checksumHeader (rest.take recordHeaderLen) ++
      slice rest recordHeaderLen fields.keyLen ++
      slice rest (recordHeaderLen + fields.keyLen) fields.requestIdLen ++
      slice rest (recordHeaderLen + fields.keyLen + fields.requestIdLen) fields.storedLen := by
  have hlen : fields.recordLen - recordHeaderLen =
      fields.keyLen + (fields.requestIdLen + fields.storedLen) := by
    unfold HeaderFields.recordLen
    omega
  rw [coveredBytes, hlen, slice_add, slice_add]
  simp only [List.append_assoc]

variable {cursor : ℕ}

/-- The part behind a header: a record that is not all there, or one whose checksum holds. -/
theorem readFields_cases {rest : Bytes}
    {result : Option ParsedRecord} (h : readFields rest cursor fields = .ok result) :
    (result = none ∧ rest.length < fields.recordLen) ∨
    ∃ parsed, result = some parsed ∧ fields.recordLen ≤ rest.length ∧
      parsed.nextCursor = cursor + fields.recordLen ∧ parsed.index.offset = fields.offset ∧
      coveredChecksum rest fields.recordLen = fields.checksum ∧
      readKey (slice rest recordHeaderLen fields.keyLen) = .ok parsed.index.key ∧
      readRequestId fields.identityKind
        (slice rest (recordHeaderLen + fields.keyLen) fields.requestIdLen) =
          .ok parsed.index.requestId := by
  unfold readFields at h
  simp only [bind, Except.bind, throw, throwThe, MonadExceptOf.throw, pure, Except.pure] at h
  split_ifs at h with hmax hshort hsum
  · exact Or.inl ⟨(Except.ok.inj h).symm, hshort⟩
  · -- a checksum that does not match is an error, whatever key and identity are
    split at h
    · cases h
    · split at h <;> cases h
  · split at h
    · cases h
    · rename_i hkey
      split at h
      · cases h
      · rename_i hid
        refine Or.inr ⟨_, (Except.ok.inj h).symm, Nat.le_of_not_lt hshort, rfl, rfl, ?_, hkey, hid⟩
        rw [coveredChecksum, coveredBytes_fields, crc32cUpdate_append, crc32cUpdate_append,
          crc32cUpdate_append, ← crc32cPieces_eq _ _ le_rfl]
        exact not_not.1 hsum

theorem readFields_congr {rest rest' : Bytes}
    (hlen : fields.recordLen ≤ rest.length) (hlen' : fields.recordLen ≤ rest'.length)
    (hsame : rest'.take fields.recordLen = rest.take fields.recordLen) :
    readFields rest' cursor fields = readFields rest cursor fields := by
  have hslice : ∀ start len, start + len ≤ fields.recordLen →
      slice rest' start len = slice rest start len := by
    intro start len hle
    have hcut : ∀ bytes : Bytes, slice bytes start len =
        slice (bytes.take fields.recordLen) start len := by
      intro bytes
      rw [slice, slice, List.drop_take, List.take_take, Nat.min_eq_left (by omega)]
    rw [hcut, hsame, ← hcut]
  have hheader : rest'.take recordHeaderLen = rest.take recordHeaderLen :=
    hslice 0 recordHeaderLen (by unfold HeaderFields.recordLen; omega)
  have hkey := hslice recordHeaderLen fields.keyLen (by unfold HeaderFields.recordLen; omega)
  have hid := hslice (recordHeaderLen + fields.keyLen) fields.requestIdLen
    (by unfold HeaderFields.recordLen; omega)
  have hbody := hslice (recordHeaderLen + fields.keyLen + fields.requestIdLen) fields.storedLen
      le_rfl
  unfold HeaderFields.recordLen at hlen hlen'
  unfold readFields
  simp only [hheader, hkey, hid, hbody, Nat.not_lt.2 hlen, Nat.not_lt.2 hlen']

theorem readNextRecord_cases {result : Option ParsedRecord}
    (h : readNextRecord bytes cursor = .ok result) :
    (result = none ∧ (bytes.drop cursor).length < recordHeaderLen) ∨
    ∃ fields, (bytes.drop cursor).take 4 = recordMagic ∧
      readHeader ((bytes.drop cursor).take recordHeaderLen) = .ok fields ∧
      recordHeaderLen ≤ (bytes.drop cursor).length ∧
      readFields (bytes.drop cursor) cursor fields = .ok result := by
  unfold readNextRecord at h
  dsimp only at h
  split_ifs at h with hshort hold holder hmagic
  · left
    exact ⟨(Except.ok.inj h).symm, lt_of_lt_of_le hshort (by decide)⟩
  · unfold readRecord at h
    split_ifs at h with hheader
    · exact Or.inl ⟨(Except.ok.inj h).symm, hheader⟩
    · right
      cases hfields : readHeader ((bytes.drop cursor).take recordHeaderLen) with
      | error error => rw [hfields] at h; cases h
      | ok fields =>
        rw [hfields] at h
        exact ⟨fields, not_not.1 hmagic, rfl, Nat.le_of_not_lt hheader, h⟩

theorem readNextRecord_bounds {parsed : ParsedRecord}
    (h : readNextRecord bytes cursor = .ok (some parsed)) :
    cursor + recordHeaderLen ≤ parsed.nextCursor ∧ parsed.nextCursor ≤ bytes.length := by
  rcases readNextRecord_cases h with ⟨hnone, -⟩ | ⟨fields, -, -, hheader, hread⟩
  · cases hnone
  · rcases readFields_cases hread with ⟨hnone, -⟩ | ⟨found, hfound, hlen, hnext, -⟩
    · cases hnone
    · obtain rfl := Option.some.inj hfound
      rw [List.length_drop] at hlen hheader
      unfold HeaderFields.recordLen at hlen hnext
      unfold recordHeaderLen at *
      omega

theorem readNextRecord_congr {bytes' : Bytes} {parsed : ParsedRecord}
    (h : readNextRecord bytes cursor = .ok (some parsed))
    (hlen : parsed.nextCursor ≤ bytes'.length)
    (hsame : bytes'.take parsed.nextCursor = bytes.take parsed.nextCursor) :
    readNextRecord bytes' cursor = .ok (some parsed) := by
  obtain ⟨hbehind, hwithin⟩ := readNextRecord_bounds h
  rcases readNextRecord_cases h with ⟨hnone, -⟩ | ⟨fields, hmagic, hheader, hlong, hread⟩
  · cases hnone
  · rcases readFields_cases hread with ⟨hnone, -⟩ | ⟨found, hfound, hfits, hnext, -⟩
    · cases hnone
    · obtain rfl := Option.some.inj hfound
      have hrest : (bytes'.drop cursor).take fields.recordLen =
          (bytes.drop cursor).take fields.recordLen := by
        have hdrop := congrArg (List.drop cursor) hsame
        rw [List.drop_take, List.drop_take, hnext, Nat.add_sub_cancel_left] at hdrop
        exact hdrop
      have hpart : ∀ n, n ≤ fields.recordLen →
          (bytes'.drop cursor).take n = (bytes.drop cursor).take n := by
        intro n hle
        have htake := congrArg (List.take n) hrest
        rwa [List.take_take, List.take_take, Nat.min_eq_left hle] at htake
      have hmin : recordHeaderLen ≤ fields.recordLen := by
        unfold HeaderFields.recordLen
        omega
      have hlen' : fields.recordLen ≤ (bytes'.drop cursor).length := by
        rw [List.length_drop]
        omega
      rw [Record.readNextRecord_of_magic
        (by rw [hpart 4 (le_trans (by decide) hmin)]; exact hmagic), readRecord,
          if_neg (Nat.not_lt.2 (hmin.trans hlen')), hpart recordHeaderLen hmin, hheader]
      exact (readFields_congr hfits hlen' hrest).trans hread

section Written

/-- A header that passed every check is the one that its fields are written as. -/
theorem HeaderReads.eq_written {header : Bytes} {fields : HeaderFields} {identity : RecordIdentity}
    (h : HeaderReads header fields) (hlen : header.length = recordHeaderLen)
    (hmagic : header.take 4 = recordMagic) (hkind : identity.kind = fields.identityKind) :
    header = headerPrologue identity.flag fields.offset fields.publishedAtMs fields.keyLen
      fields.requestIdLen fields.storedLen ++ le 4 fields.checksum := by
  unfold recordHeaderLen at hlen
  have hnumber : ∀ {start width value : ℕ}, start + width ≤ 48 →
      ofLe (slice header start width) = value → slice header start width = le width value := by
    rintro start width value hle rfl
    have hwidth : (slice header start width).length = width := by
      rw [length_slice, hlen]
      omega
    conv_lhs => rw [← le_ofLe (slice header start width), hwidth]
  have hflags : slice header 4 2 = [recordFormatVersion, identity.flag] := by
    have hflag := flag_of_readIdentityKind (hkind ▸ h.identityKind)
    rw [← h.version, ← hflag, slice, List.drop_eq_getElem_cons (by omega),
      List.drop_eq_getElem_cons (by omega), List.take_succ_cons, List.take_succ_cons,
      List.take_zero]
    simp [List.getD_eq_getElem?_getD, hlen]
  -- one slice for each field, in the order of the header
  have hsplit : header = slice header 0 4 ++ (slice header 4 2 ++ (slice header 6 2 ++
      (slice header 8 4 ++ (slice header 12 4 ++ (slice header 16 8 ++ (slice header 24 8 ++
      (slice header 32 4 ++ (slice header 36 4 ++
      (slice header 40 4 ++ slice header 44 4))))))))) := by
    rw [← slice_add _ 40, ← slice_add _ 36, ← slice_add _ 32, ← slice_add _ 24, ← slice_add _ 16,
      ← slice_add _ 12, ← slice_add _ 8, ← slice_add _ 6, ← slice_add _ 4, ← slice_add _ 0]
    exact (List.take_of_length_le hlen.le).symm
  have hstart : slice header 0 4 = recordMagic := hmagic
  rw [hsplit, hstart, hflags, hnumber (by decide) h.headerLen, hnumber (by decide) h.storedLen,
    hnumber (by decide) h.logicalLen, hnumber (by decide) h.offset,
    hnumber (by decide) h.publishedAtMs, hnumber (by decide) h.keyLen,
    hnumber (by decide) h.requestIdLen, h.reserved, hnumber (by decide) h.checksum]
  simp only [headerPrologue, List.append_assoc]

variable {bytes : Bytes} {cursor : ℕ} {parsed : ParsedRecord}

/-- Whatever is read is the frame of a record: the reader accepts nothing that is not written. -/
theorem exists_frame_of_read (h : readNextRecord bytes cursor = .ok (some parsed)) :
    parsed.index.offset < 256 ^ 8 ∧ ∃ record : Record,
      (bytes.drop cursor).take record.frameLen = record.frame parsed.index.offset ∧
      parsed.nextCursor = cursor + record.frameLen := by
  rcases readNextRecord_cases h with ⟨hnone, -⟩ | ⟨fields, hmagic, hheader, hlong, hread⟩
  · cases hnone
  rcases readFields_cases hread with ⟨hnone, -⟩ |
    ⟨found, hfound, hfits, hnext, hoffset, hsum, hkey, hid⟩
  · cases hnone
  obtain rfl := Option.some.inj hfound
  generalize bytes.drop cursor = rest at *
  have hreads := headerReads_of_readHeader hheader
  have hlimit : ∀ {start width : ℕ}, start + width ≤ recordHeaderLen →
      ofLe (slice (rest.take recordHeaderLen) start width) < 256 ^ width := by
    intro start width hle
    refine lt_of_lt_of_le (ofLe_lt _) (Nat.pow_le_pow_right (by decide) ?_)
    rw [length_slice]
    exact min_le_left _ _
  have hkeyBytes := keyBytes_of_readKey hkey
  obtain ⟨identity, hkind, hidentity⟩ := identity_of_readRequestId hid (by
    intro hnone
    rw [hreads.noIdentity hnone]
    rfl)
  have hlengths : (keyBytes parsed.index.key).length = fields.keyLen ∧
      identity.bytes.length = fields.requestIdLen ∧
      (slice rest (recordHeaderLen + fields.keyLen + fields.requestIdLen) fields.storedLen).length =
        fields.storedLen := by
    rw [hkeyBytes, hidentity, length_slice, length_slice, length_slice]
    unfold HeaderFields.recordLen at hfits
    omega
  obtain ⟨hkeyLen, hidLen, hpayloadLen⟩ := hlengths
  let record : Record :=
    { key := parsed.index.key
      payload := slice rest (recordHeaderLen + fields.keyLen + fields.requestIdLen) fields.storedLen
      identity := identity
      publishedAtMs := fields.publishedAtMs
      key_le := hkeyLen.trans_le hreads.keyLen_le
      payload_le := hpayloadLen.trans_le hreads.storedLen_le
      identity_le := hidLen.trans_le hreads.requestIdLen_le
      published_lt := hreads.publishedAtMs ▸ hlimit (by decide) }
  have hframeLen : record.frameLen = fields.recordLen := by
    simp only [Record.frameLen, record, hkeyLen, hidLen, hpayloadLen, HeaderFields.recordLen]
  have hprologue : rest.take recordHeaderLen =
      record.prologue fields.offset ++ le 4 fields.checksum := by
    have hwritten := hreads.eq_written (List.length_take_of_le hlong)
      (by rw [List.take_take, Nat.min_eq_left (by decide), hmagic]) hkind
    simpa only [Record.prologue, record, hkeyLen, hidLen, hpayloadLen] using hwritten
  have hchecksum : (record.checksum fields.offset).toNat = fields.checksum := by
    rw [← hsum, coveredChecksum, coveredBytes_fields, hprologue, checksumHeader,
      List.take_left' (record.length_prologue _), crc32cUpdate_append, crc32cUpdate_append,
      crc32cUpdate_append, Record.checksum, recordChecksum, checksumHeader,
      List.take_left' (record.length_prologue _), ← hkeyBytes, ← hidentity]
  rw [hoffset, hnext]
  refine ⟨hreads.offset ▸ hlimit (by decide), record, ?_, by rw [hframeLen]⟩
  calc rest.take record.frameLen
      = slice rest 0 (recordHeaderLen +
        (fields.keyLen + (fields.requestIdLen + fields.storedLen))) := by
        rw [hframeLen, slice, List.drop_zero, HeaderFields.recordLen]
        simp only [Nat.add_assoc]
    _ = rest.take recordHeaderLen ++
      (keyBytes record.key ++ (identity.bytes ++ record.payload)) := by
        rw [slice_add, slice_add, slice_add, Nat.zero_add, hkeyBytes, hidentity]
        rfl
    _ = record.frame fields.offset := by
        rw [hprologue, Record.frame, Record.header, hchecksum]
        simp only [List.append_assoc, record]

end Written

end Runnel.Local
