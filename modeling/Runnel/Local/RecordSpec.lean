import Runnel.Local.Record

/-!
# Frames are read back

A record within the storage limits is read back from its frame, whatever
follows it, and a part of a frame is an incomplete tail and never an error.
-/

namespace Runnel.Local

open Runnel.Engine Bytes

/-- A key as it is read back: the frame does not tell an empty key from an absent one. -/
def storedKey (key : Option String) : Option String := key.filter (· ≠ "")

theorem keyBytes_storedKey (key : Option String) : keyBytes (storedKey key) = keyBytes key := by
  cases key with
  | none => rfl
  | some key =>
    by_cases hempty : key = ""
    · subst hempty
      rfl
    · rw [storedKey, Option.filter_some_pos (by simpa using hempty)]

structure Record where
  key : Option String
  payload : Bytes
  identity : RecordIdentity
  publishedAtMs : ℕ
  key_le : (keyBytes key).length ≤ maxKeyLen
  payload_le : payload.length ≤ maxBodyLen
  identity_le : identity.bytes.length ≤ maxRequestIdLen
  published_lt : publishedAtMs < 256 ^ 8

theorem recordMagic_eq : recordMagic = [82, 78, 76, 51] := by decide

theorem readIdentityKind_flag (identity : RecordIdentity) :
    readIdentityKind identity.flag = .ok identity.kind := by
  cases identity <;> rfl

theorem readKey_keyBytes (key : Option String) :
    readKey (keyBytes key) = .ok (storedKey key) := by
  unfold readKey
  by_cases hempty : key.getD "" = ""
  · have hstored : storedKey key = none := by
      cases key with
      | none => rfl
      | some key => simpa [storedKey] using hempty
    rw [hstored, keyBytes, hempty]
    rfl
  · obtain ⟨key, rfl⟩ : ∃ text, key = some text := by
      cases key with
      | none => exact absurd rfl hempty
      | some key => exact ⟨key, rfl⟩
    have hstored : storedKey (some key) = some key := by simpa [storedKey] using hempty
    rw [hstored, if_neg (by simpa [keyBytes] using mt utf8_eq_nil_iff.1 hempty), readText, keyBytes,
      Option.getD_some, fromUtf8?_utf8]
    rfl

theorem storedKey_eq {key other : Option String} (h : keyBytes key = keyBytes other) :
    storedKey key = storedKey other := by
  have hread := readKey_keyBytes key
  rw [h, readKey_keyBytes] at hread
  exact (Except.ok.inj hread).symm

theorem storedKey_storedKey (key : Option String) : storedKey (storedKey key) = storedKey key :=
  storedKey_eq (keyBytes_storedKey key)

theorem storedKey_of_ne {key : Option String} (h : key ≠ some "") : storedKey key = key := by
  cases key with
  | none => rfl
  | some key => exact Option.filter_some_pos (by simpa using fun hempty => h (congrArg some hempty))

theorem readRequestId_bytes (identity : RecordIdentity) :
    readRequestId identity.kind identity.bytes = .ok identity.requestId := by
  have htext : ∀ text : String, readText (utf8 text) "RNL3 record ID is not UTF-8" = .ok text := by
    intro text
    rw [readText, fromUtf8?_utf8]
  cases identity with
  | none => rfl
  | publicId requestId =>
    change some <$> readText (utf8 requestId) _ = _
    rw [htext]
    rfl
  | deadLetterMove moveId =>
    change some <$> readText (utf8 moveId) _ = _
    rw [htext]
    rfl

section Header

variable (flag : UInt8) (offset publishedAtMs keyLen requestIdLen payloadLen checksum : ℕ)

theorem headerPrologue_eq :
    headerPrologue flag offset publishedAtMs keyLen requestIdLen payloadLen =
      [82, 78, 76, 51, recordFormatVersion, flag] ++ le 2 recordHeaderLen ++ le 4 payloadLen ++
        le 4 payloadLen ++ le 8 offset ++ le 8 publishedAtMs ++ le 4 keyLen ++ le 4 requestIdLen ++
        [0, 0, 0, 0] := by
  rw [headerPrologue, recordMagic_eq]
  rfl

theorem slices_header :
    let header := headerPrologue flag offset publishedAtMs keyLen requestIdLen payloadLen ++
      le 4 checksum
    header.getD 4 0 = recordFormatVersion ∧ header.getD 5 0 = flag ∧
    slice header 6 2 = le 2 recordHeaderLen ∧ slice header 8 4 = le 4 payloadLen ∧
    slice header 12 4 = le 4 payloadLen ∧ slice header 16 8 = le 8 offset ∧
    slice header 24 8 = le 8 publishedAtMs ∧ slice header 32 4 = le 4 keyLen ∧
    slice header 36 4 = le 4 requestIdLen ∧ slice header 40 4 = [0, 0, 0, 0] ∧
    slice header 44 4 = le 4 checksum := by
  rw [headerPrologue_eq]
  exact ⟨rfl, rfl, rfl, rfl, rfl, rfl, rfl, rfl, rfl, rfl, rfl⟩

variable {flag offset publishedAtMs keyLen requestIdLen payloadLen checksum}

theorem readHeader_eq {kind : Option RequestIdentityKind}
    (hflag : readIdentityKind flag = .ok kind) (hoffset : offset < 256 ^ 8)
    (hpublished : publishedAtMs < 256 ^ 8) (hkey : keyLen ≤ maxKeyLen)
    (hrequestId : requestIdLen ≤ maxRequestIdLen) (hkind : kind = none → requestIdLen = 0)
    (hpayload : payloadLen ≤ maxBodyLen) (hchecksum : checksum < 256 ^ 4) :
    readHeader (headerPrologue flag offset publishedAtMs keyLen requestIdLen payloadLen ++
        le 4 checksum) =
      .ok { identityKind := kind, storedLen := payloadLen, offset := offset,
            publishedAtMs := publishedAtMs, keyLen := keyLen, requestIdLen := requestIdLen,
            checksum := checksum } := by
  obtain ⟨h₁, h₂, h₃, h₄, h₅, h₆, h₇, h₈, h₉, h₁₀, h₁₁⟩ :=
    slices_header flag offset publishedAtMs keyLen requestIdLen payloadLen checksum
  have hlen : ofLe (le 2 recordHeaderLen) = recordHeaderLen := by decide
  have hkeyLen : ofLe (le 4 keyLen) = keyLen := ofLe_le_of_lt (by unfold maxKeyLen at hkey; omega)
  have hidLen : ofLe (le 4 requestIdLen) = requestIdLen :=
    ofLe_le_of_lt (by unfold maxRequestIdLen at hrequestId; omega)
  have hpayloadLen : ofLe (le 4 payloadLen) = payloadLen :=
    ofLe_le_of_lt (by unfold maxBodyLen at hpayload; omega)
  unfold readHeader
  simp only [h₁, h₂, h₃, h₄, h₅, h₆, h₇, h₈, h₉, h₁₀, h₁₁, hflag, hlen, hkeyLen, hidLen,
    hpayloadLen, ofLe_le_of_lt hoffset, ofLe_le_of_lt hpublished, ofLe_le_of_lt hchecksum]
  have hidentity : ¬ (kind.isNone = true ∧ requestIdLen ≠ 0) := by
    rintro ⟨hnone, hne⟩
    exact hne (hkind (Option.isNone_iff_eq_none.1 hnone))
  simp only [ne_eq, not_true_eq_false, if_false, Nat.not_lt.2 hkey, Nat.not_lt.2 hrequestId,
    Nat.not_lt.2 hpayload, or_self]
  exact if_neg hidentity

end Header

namespace Record

variable (offset : ℕ) (record : Record)

def prologue : Bytes :=
  headerPrologue record.identity.flag offset record.publishedAtMs (keyBytes record.key).length
    record.identity.bytes.length record.payload.length

def checksum : UInt32 :=
  recordChecksum (record.prologue offset ++ [0, 0, 0, 0]) (keyBytes record.key)
    record.identity.bytes record.payload

def header : Bytes := record.prologue offset ++ le 4 (record.checksum offset).toNat

def frame : Bytes :=
  record.header offset ++ keyBytes record.key ++ record.identity.bytes ++ record.payload

/-- Length of the frame, which does not depend on the offset. -/
def frameLen : ℕ :=
  recordHeaderLen + (keyBytes record.key).length + record.identity.bytes.length +
    record.payload.length

def stored : Record :=
  { record with
    key := storedKey record.key
    key_le := by rw [keyBytes_storedKey]; exact record.key_le }

/-- The index entry of the record at an offset whose frame starts at the cursor. -/
def index (cursor : ℕ) : RecordIndex where
  offset := offset
  payloadOffset := cursor + recordHeaderLen + (keyBytes record.key).length +
    record.identity.bytes.length
  payloadLen := record.payload.length
  key := record.key
  requestId := record.identity.requestId
  requestIdentityKind := record.identity.kind
  publishedAtMs := record.publishedAtMs

theorem eq_of_fields {first second : Record} (hkey : first.key = second.key)
    (hpayload : first.payload = second.payload) (hidentity : first.identity = second.identity)
    (hpublished : first.publishedAtMs = second.publishedAtMs) : first = second := by
  cases first
  cases second
  simp_all

@[simp] theorem stored_stored : record.stored.stored = record.stored :=
  eq_of_fields (storedKey_storedKey record.key) rfl rfl rfl

variable {record} in
theorem stored_of_ne (h : record.key ≠ some "") : record.stored = record :=
  eq_of_fields (storedKey_of_ne h) rfl rfl rfl

theorem index_stored (cursor : ℕ) :
    record.stored.index offset cursor =
      { record.index offset cursor with key := storedKey record.key } := by
  unfold index stored
  simp only [keyBytes_storedKey]

@[simp] theorem length_prologue : (record.prologue offset).length = 44 := by
  simp [prologue, headerPrologue_eq]

@[simp] theorem length_header : (record.header offset).length = recordHeaderLen := by
  simp [header, recordHeaderLen]

@[simp] theorem length_frame : (record.frame offset).length = record.frameLen := by
  simp [frame, frameLen]
  omega

def headerFields : HeaderFields where
  identityKind := record.identity.kind
  storedLen := record.payload.length
  offset := offset
  publishedAtMs := record.publishedAtMs
  keyLen := (keyBytes record.key).length
  requestIdLen := record.identity.bytes.length
  checksum := (record.checksum offset).toNat

theorem readHeader_header (hoffset : offset < 256 ^ 8) :
    readHeader (record.header offset) = .ok (record.headerFields offset) := by
  refine readHeader_eq (readIdentityKind_flag _) hoffset record.published_lt record.key_le
    record.identity_le ?_ record.payload_le (UInt32.toNat_lt _)
  intro hnone
  cases hidentity : record.identity <;> rw [hidentity] at hnone
  · rfl
  all_goals cases hnone

theorem checksumHeader_header :
    checksumHeader (record.header offset) = record.prologue offset ++ [0, 0, 0, 0] := by
  rw [checksumHeader, header, List.take_left' (by simp)]

theorem take_header {rest : Bytes} (h : record.header offset <+: rest) :
    rest.take recordHeaderLen = record.header offset := by
  obtain ⟨tail, rfl⟩ := h
  rw [List.take_left' (record.length_header offset)]

theorem take_magic {rest : Bytes} (h : record.header offset <+: rest) :
    rest.take 4 = recordMagic := by
  obtain ⟨tail, rfl⟩ := h
  rw [header, prologue, headerPrologue_eq, recordMagic_eq]
  rfl

theorem header_frame (tail : Bytes) : record.header offset <+: record.frame offset ++ tail := by
  simp [frame, List.append_assoc]

theorem slices_frame (tail : Bytes) :
    slice (record.frame offset ++ tail) recordHeaderLen (keyBytes record.key).length =
      keyBytes record.key ∧
    slice (record.frame offset ++ tail) (recordHeaderLen + (keyBytes record.key).length)
      record.identity.bytes.length = record.identity.bytes ∧
    slice (record.frame offset ++ tail) (recordHeaderLen + (keyBytes record.key).length +
      record.identity.bytes.length) record.payload.length = record.payload := by
  refine ⟨slice_eq (a := record.header offset)
    (c := record.identity.bytes ++ record.payload ++ tail)
      (by simp [frame]) (by simp) rfl,
    slice_eq (a := record.header offset ++ keyBytes record.key) (c := record.payload ++ tail)
      (by simp [frame]) (by simp) rfl,
    slice_eq (c := tail) rfl (by simp; omega) rfl⟩

theorem frameLen_le : record.frameLen ≤ 67110064 := by
  have hkey := record.key_le
  have hid := record.identity_le
  have hpayload := record.payload_le
  unfold maxKeyLen at hkey
  unfold maxRequestIdLen at hid
  unfold maxBodyLen at hpayload
  unfold frameLen recordHeaderLen
  omega

theorem readFields_frame (tail : Bytes) (cursor : ℕ) :
    readFields (record.frame offset ++ tail) cursor (record.headerFields offset) =
      .ok (some ⟨record.stored.index offset cursor, cursor + record.frameLen⟩) := by
  obtain ⟨hkey, hid, hbody⟩ := record.slices_frame offset tail
  have hlen : ¬ u64Max < record.frameLen := by
    have := record.frameLen_le
    unfold u64Max
    omega
  have hlong : ¬ (record.frame offset ++ tail).length < record.frameLen := by simp
  have hsum : (crc32cFinalize (crc32cPieces record.payload.length
      (crc32cUpdate (crc32cUpdate (crc32cUpdate (~~~0)
        (checksumHeader ((record.frame offset ++ tail).take recordHeaderLen)))
        (keyBytes record.key)) record.identity.bytes) record.payload)).toNat =
      (record.checksum offset).toNat := by
    rw [record.take_header offset (record.header_frame offset tail), crc32cPieces_eq _ _ le_rfl,
      checksumHeader_header, checksum, recordChecksum, checksumHeader,
      List.take_left' (record.length_prologue offset)]
  unfold readFields
  simp only [headerFields, hkey, hid, hbody, readKey_keyBytes, readRequestId_bytes]
  refine (if_neg hlen).trans ((if_neg hlong).trans ((if_neg (not_not.2 hsum)).trans ?_))
  rw [index_stored]
  rfl

theorem readFields_part {part : Bytes} (cursor : ℕ) (hshort : part.length < record.frameLen) :
    readFields part cursor (record.headerFields offset) = .ok none := by
  have hlen : ¬ u64Max < record.frameLen := by
    have := record.frameLen_le
    unfold u64Max
    omega
  unfold readFields
  exact (if_neg hlen).trans (if_pos hshort)

variable {offset}

theorem readRecord_header (hoffset : offset < 256 ^ 8) {rest : Bytes} (cursor : ℕ)
    (h : record.header offset <+: rest) :
    readRecord rest cursor = readFields rest cursor (record.headerFields offset) := by
  have hlen : ¬ rest.length < recordHeaderLen := by
    have := h.length_le
    rw [length_header] at this
    omega
  rw [readRecord, if_neg hlen, record.take_header offset h, record.readHeader_header offset hoffset]
  rfl

theorem recordMagic_ne : recordMagic ≠ utf8 "RNL1" ∧ recordMagic ≠ utf8 "RNL2" := by decide

theorem readNextRecord_of_magic {bytes : Bytes} {cursor : ℕ}
    (h : (bytes.drop cursor).take 4 = recordMagic) :
    readNextRecord bytes cursor = readRecord (bytes.drop cursor) cursor := by
  have hlen : ¬ (bytes.drop cursor).length < 4 := by
    have hfour : ((bytes.drop cursor).take 4).length = 4 := by rw [h]; decide
    rw [List.length_take] at hfour
    omega
  unfold readNextRecord
  simp only [h]
  rw [if_neg hlen, if_neg recordMagic_ne.1, if_neg recordMagic_ne.2, if_neg (not_not.2 rfl)]

theorem readNextRecord_frame (hoffset : offset < 256 ^ 8) (front tail : Bytes) :
    readNextRecord (front ++ (record.frame offset ++ tail)) front.length =
      .ok (some ⟨record.stored.index offset front.length, front.length + record.frameLen⟩) := by
  have hrest : (front ++ (record.frame offset ++ tail)).drop front.length =
      record.frame offset ++ tail := List.drop_left
  have hheader := record.header_frame offset tail
  rw [readNextRecord_of_magic (by rw [hrest]; exact record.take_magic offset hheader), hrest,
    record.readRecord_header hoffset _ hheader, readFields_frame]

theorem readNextRecord_part (hoffset : offset < 256 ^ 8) (front : Bytes) {part : Bytes}
    (hpart : part <+: record.frame offset) (hshort : part.length < record.frameLen) :
    readNextRecord (front ++ part) front.length = .ok none := by
  have hrest : (front ++ part).drop front.length = part := List.drop_left
  have hprefix : record.header offset <+: record.frame offset := by
    simpa using record.header_frame offset []
  by_cases hheader : recordHeaderLen ≤ part.length
  · have hstart : record.header offset <+: part :=
      List.prefix_of_prefix_length_le hprefix hpart (by rwa [length_header])
    rw [readNextRecord_of_magic (by rw [hrest]; exact record.take_magic offset hstart), hrest,
      record.readRecord_header hoffset _ hstart, readFields_part _ _ _ hshort]
  · by_cases hmagic : part.length < 4
    · unfold readNextRecord
      simp only [hrest]
      exact if_pos hmagic
    · have htake : part.take 4 = recordMagic := by
        rw [← record.take_magic offset hprefix]
        exact List.prefix_iff_eq_take.1 hpart ▸ by simp [List.take_take]; omega
      rw [readNextRecord_of_magic (by rw [hrest]; exact htake), hrest, readRecord,
        if_pos (Nat.lt_of_not_le hheader)]

end Record

end Runnel.Local
