import Runnel.Local.Publish

/-!
# A log that was cut

Records are appended one after the other and the file is then cut at any byte.
It is opened again with exactly the records whose frames it still holds
completely, the rest is cut off, and later appends go on from there.
-/

namespace Runnel.Local

open Runnel.Engine Bytes

def StreamLog.appendEach (sync : Bool) (log : StreamLog) :
    List Record → StreamLog × Except BrokerError (List ℕ)
  | [] => (log, .ok [])
  | record :: rest =>
    match (log.facing [] [record.publishedAtMs]).appendRecordWithSync record.key record.payload
        record.identity sync with
    | (log, .error error) => (log, .error error)
    | (log, .ok offset) =>
      match appendEach sync log rest with
      | (log, .error error) => (log, .error error)
      | (log, .ok offsets) => (log, .ok (offset :: offsets))

/-- The records whose frames lie within the first `len` bytes of the file. -/
def wholeRecords (len : ℕ) : List Record → List Record
  | [] => []
  | record :: rest =>
    if record.frameLen ≤ len then record :: wholeRecords (len - record.frameLen) rest else []

structure StreamLog.HasRecords (log : StreamLog) (records : List Record) : Prop where
  nextOffset : log.nextOffset = records.length
  found : ∀ offset record, records[offset]? = some record → ∃ index,
    log.findRecord offset = .ok index ∧ index.offset = offset ∧
    index.key = storedKey record.key ∧ log.readPayload index = .ok record.payload ∧
    index.requestId = record.identity.requestId ∧
    index.requestIdentityKind = record.identity.kind ∧
    index.publishedAtMs = record.publishedAtMs
  absent : ∀ offset, records.length ≤ offset →
    log.findRecord offset = .error (.corruptRecord offset)
  identity : ∀ identity kind, log.identityOffset identity kind =
    records.findIdx? fun record => record.identity = kind.identity identity

namespace Record

theorem checkLengths_ok (record : Record) :
    checkLengths record.key record.payload record.identity = .ok () := by
  have hkey := record.key_le
  have hpayload := record.payload_le
  have hidentity := record.identity_le
  have hmax : maxKeyLen ≤ u32Max ∧ maxBodyLen ≤ u32Max ∧ maxRequestIdLen ≤ u32Max := by decide
  have hlengths : recordLengths (keyBytes record.key).length record.payload.length = .ok () := by
    unfold recordLengths
    rw [if_neg (by omega), if_neg (by omega), if_neg (by omega), if_neg (by omega)]
  have hid : requestIdLength record.identity.bytes.length = .ok () := by
    unfold requestIdLength
    rw [if_neg (by omega), if_neg (by omega)]
  rw [checkLengths, hlengths]
  exact hid

end Record

theorem writeFrame_of_faults_nil {file : File} (hfaults : file.faults = []) (buffers : List Bytes)
    (sync : Bool) :
    (StreamLog.writeFrame file buffers sync).1.faults = [] ∧
      (file.bytes.length + buffers.flatten.length ≤ maxFileLen →
        (StreamLog.writeFrame file buffers sync).2 = .ok ()) := by
  obtain ⟨hafter, hok⟩ := File.writeEach_of_faults_nil hfaults buffers
  unfold StreamLog.writeFrame
  split
  · rename_i after error hwrite
    rw [hwrite] at hafter hok
    exact ⟨hafter, hok⟩
  · rename_i after hwrite
    rw [hwrite] at hafter
    split_ifs
    · obtain ⟨hsynced, hsync⟩ := File.syncData_of_faults_nil hafter
      exact ⟨hsynced, fun _ => hsync⟩
    · exact ⟨hafter, fun _ => rfl⟩

theorem appendRecord_of_faults_nil {log : StreamLog} (hfaults : log.file.faults = [])
    (record : Record) (sync : Bool) :
    (log.appendRecordWithSync record.key record.payload record.identity sync).1.file.faults = [] ∧
    (log.file.bytes.length + record.frameLen ≤ maxFileLen → ∀ error,
      (log.appendRecordWithSync record.key record.payload record.identity sync).2 ≠
        .error (.io error)) := by
  have hlen : [recordHeader record.identity.flag log.nextOffset log.nowMs.1 (keyBytes record.key)
      record.identity.bytes record.payload, keyBytes record.key, record.identity.bytes,
      record.payload].flatten.length = record.frameLen := by
    simp [Record.frameLen, recordHeader, headerPrologue_eq, recordHeaderLen]
    omega
  obtain ⟨hafter, hwritten⟩ := @writeFrame_of_faults_nil log.nowMs.2.file hfaults
    [recordHeader record.identity.flag log.nextOffset log.nowMs.1 (keyBytes record.key)
      record.identity.bytes record.payload, keyBytes record.key, record.identity.bytes,
      record.payload] sync
  rw [hlen] at hwritten
  rw [StreamLog.appendRecordWithSync, record.checkLengths_ok]
  dsimp only
  split
  · rename_i file failure hwrite
    rw [hwrite] at hafter hwritten
    refine ⟨hafter, fun hfits => ?_⟩
    cases hwritten hfits
  · rename_i file hwrite
    rw [hwrite] at hafter
    exact ⟨hafter, by simp⟩

namespace Represents

variable {log : StreamLog} {records : List Record}

theorem append_record (h : Represents log records []) (record : Record) (sync : Bool) :
    (∃ after error, (log.facing [] [record.publishedAtMs]).appendRecordWithSync record.key
      record.payload record.identity sync = (after, .error (.io error))) ∨
    ∃ after, (log.facing [] [record.publishedAtMs]).appendRecordWithSync record.key
      record.payload record.identity sync = (after, .ok records.length) ∧
      Represents after (records ++ [record]) [] := by
  have hready := h.facing [] [record.publishedAtMs]
  have hclock : (log.facing [] [record.publishedAtMs]).nowMs.1 = record.publishedAtMs :=
    Nat.mod_eq_of_lt record.published_lt
  rcases hready.appendRecord (fun _ => hready.clean_iff.2 rfl) sync with ⟨message, hrejected⟩ |
    ⟨after, error, other, left, hfailed, -⟩ |
    ⟨after, appended, happend, hkey, hpayload, hidentity, hpublished, hafter⟩
  · rw [StreamLog.appendRecordWithSync, record.checkLengths_ok] at hrejected
    dsimp only at hrejected
    split at hrejected
    all_goals
      have := congrArg Prod.snd hrejected
      simp at this
  · exact Or.inl ⟨after, error, hfailed⟩
  · obtain rfl := Record.eq_of_fields hkey hpayload hidentity (hpublished.trans hclock)
    exact Or.inr ⟨after, happend, hafter⟩

theorem appendEach_of_fits (h : Represents log records []) (sync : Bool) {more : List Record}
    (hfits : framesLen (records ++ more) ≤ maxFileLen) :
    ∃ after, log.appendEach sync more = (after, .ok (List.range' records.length more.length)) ∧
      Represents after (records ++ more) [] := by
  induction more generalizing log records with
  | nil => exact ⟨log, rfl, by rwa [List.append_nil]⟩
  | cons record rest ih =>
    have hlen : log.file.bytes.length = framesLen records := by
      rw [h.bytes, List.append_nil, length_frames]
    rw [framesLen_append, framesLen_cons] at hfits
    rcases h.append_record record sync with ⟨after, error, hfailed⟩ | ⟨after, happend, hafter⟩
    · have hfit : (log.facing [] [record.publishedAtMs]).file.bytes.length + record.frameLen ≤
          maxFileLen := by
        change log.file.bytes.length + _ ≤ _
        omega
      have hnot := (appendRecord_of_faults_nil rfl record sync).2 hfit error
      rw [hfailed] at hnot
      exact absurd rfl hnot
    · obtain ⟨final, hrest, hfinal⟩ := ih hafter (by simp; omega)
      refine ⟨final, ?_, by simpa using hfinal⟩
      rw [StreamLog.appendEach, happend]
      dsimp only
      rw [hrest, List.length_append, List.length_singleton, List.length_cons, List.range'_succ]

theorem of_appendEach (h : Represents log records []) {sync : Bool} {more : List Record}
    {after : StreamLog} {offsets : List ℕ}
    (happended : log.appendEach sync more = (after, .ok offsets)) :
    Represents after (records ++ more) [] := by
  induction more generalizing log records offsets with
  | nil =>
    obtain ⟨rfl, -⟩ := Prod.mk.inj happended
    rwa [List.append_nil]
  | cons record rest ih =>
    rw [StreamLog.appendEach] at happended
    rcases h.append_record record sync with ⟨middle, error, hfailed⟩ | ⟨middle, happend, hmiddle⟩
    · rw [hfailed] at happended
      simp at happended
    · rw [happend] at happended
      dsimp only at happended
      split at happended
      · simp at happended
      · rename_i final rest' hrest
        obtain ⟨rfl, -⟩ := Prod.mk.inj happended
        simpa using ih hmiddle hrest

end Represents

instance : Inhabited Record :=
  ⟨{ key := none, payload := [], identity := .none, publishedAtMs := 0, key_le := by decide,
     payload_le := by decide, identity_le := by decide, published_lt := by decide }⟩

/-- The first bytes of the frames: those of the whole records, and a proper part of one frame. -/
theorem take_framesFrom (offset len : ℕ) (records : List Record) :
    ∃ part, ∃ record : Record,
      (framesFrom offset records).take len =
        framesFrom offset (wholeRecords len records) ++ part ∧
      part <+: record.frame (offset + (wholeRecords len records).length) ∧
      part.length < record.frameLen := by
  induction records generalizing offset len with
  | nil =>
    exact ⟨[], default, by simp [framesFrom, wholeRecords], List.nil_prefix,
      lt_of_lt_of_le (by decide) (default : Record).recordHeaderLen_le_frameLen⟩
  | cons record rest ih =>
    rw [framesFrom, wholeRecords]
    split_ifs with hwhole
    · -- the frame is complete, and the rest of the bytes is taken from the other frames
      obtain ⟨part, next, htake, hpart, hshort⟩ := ih (offset + 1) (len - record.frameLen)
      refine ⟨part, next, ?_, ?_, hshort⟩
      · rw [List.take_append, Record.length_frame, htake, framesFrom, List.append_assoc,
          List.take_of_length_le (by rwa [Record.length_frame])]
      · rwa [List.length_cons, Nat.add_comm _ 1, ← Nat.add_assoc]
    · refine ⟨(record.frame offset).take len, record, ?_, List.take_prefix _ _, ?_⟩
      · have hfit : len ≤ (record.frame offset).length := by rw [Record.length_frame]; omega
        rw [List.take_append_of_le_length hfit]
        rfl
      · rw [List.length_take, Record.length_frame]
        omega

theorem Represents.findRecord_absent {log : StreamLog} {records : List Record} {part : Bytes}
    (h : Represents log records part)
    (hend : readNextRecord log.file.bytes (framesLen records) = .ok none) {offset : ℕ}
    (hoffset : records.length ≤ offset) :
    log.findRecord offset = .error (.corruptRecord offset) := by
  have hnone : ∀ list : List Record, list.length ≤ offset →
      ∀ entry ∈ entries list, ¬ decide (entry.offset = offset) = true := by
    intro list hle entry hentry hsame
    obtain ⟨front, record, rest, rfl, rfl⟩ := mem_entries hentry
    have heq : front.length = offset := of_decide_eq_true hsame
    rw [List.length_append, List.length_cons] at hle
    omega
  have hmemory : log.records.find? (fun entry => entry.offset = offset) = none := by
    rw [h.indexed.tail, List.find?_eq_none]
    exact fun entry hentry => hnone records hoffset entry (List.mem_of_mem_drop hentry)
  have hfile : (entries (records.map Record.stored)).find? (fun entry => entry.offset = offset) =
      none := List.find?_eq_none.2 (hnone _ (by simpa using hoffset))
  have hscan := @Represents.scanRecords_eq_find? _ _ _ h hend offset
    (fun entry => entry.offset = offset) fun entry hlt => decide_eq_false hlt.ne
  rw [hfile] at hscan
  unfold StreamLog.findRecord
  simp only [hmemory, hscan]

theorem Represents.hasRecords {log : StreamLog} {records : List Record} {part : Bytes}
    (h : Represents log (records.map Record.stored) part)
    (hend : readNextRecord log.file.bytes (framesLen records) = .ok none) :
    log.HasRecords records where
  nextOffset := by rw [h.indexed.nextOffset, List.length_map]
  found := by
    intro offset record hget
    obtain ⟨front, rest, hsplit, rfl⟩ := exists_split hget
    have hstored : records.map Record.stored =
        front.map Record.stored ++ record.stored :: rest.map Record.stored := by
      rw [hsplit, List.map_append, List.map_cons]
    have hfind : log.findRecord front.length =
        .ok (record.stored.index front.length (framesLen front)) := by
      rcases h.findRecord hstored with hfind | hfind
      · simpa using hfind
      · simpa using hfind
    refine ⟨_, hfind, rfl, rfl, h.readPayload hstored ?_ rfl, rfl, rfl, rfl⟩
    rw [List.length_map, framesLen_stored]
  absent := by
    intro offset hoffset
    apply h.findRecord_absent (by rwa [framesLen_stored])
    rwa [List.length_map]
  identity := by
    intro identity kind
    rw [StreamLog.identityOffset, h.indexed.identity, List.findIdx?_map]
    rfl

/-- Records are appended and the file is cut at any byte. It is recovered with exactly the records
that it holds completely, the position behind them is reported if bytes follow, and once these are
cut off any further records get the next offsets and the file is the one that appending all of
them would have made. -/
theorem torn_tail_exact {sync : Bool} {records : List Record} {log : StreamLog}
    {offsets : List ℕ} (happended : StreamLog.create.appendEach sync records = (log, .ok offsets))
    {file : File} (hcut : file.bytes <+: log.file.bytes) :
    ∃ recovered tail, StreamLog.inspect file = .ok (recovered, tail) ∧
      recovered.HasRecords (wholeRecords file.bytes.length records) ∧
      tail = (if framesLen (wholeRecords file.bytes.length records) < file.bytes.length
        then some (framesLen (wholeRecords file.bytes.length records)) else none) ∧
      (recovered.finishRecovery tail).HasRecords (wholeRecords file.bytes.length records) ∧
      ∀ more, framesLen (wholeRecords file.bytes.length records ++ more) ≤ maxFileLen →
        ∃ after fresh, (recovered.finishRecovery tail).appendEach sync more = (after,
            .ok (List.range' (wholeRecords file.bytes.length records).length more.length)) ∧
          StreamLog.create.appendEach sync (wholeRecords file.bytes.length records ++ more) =
            (fresh, .ok (List.range (wholeRecords file.bytes.length records ++ more).length)) ∧
          after.file.bytes = fresh.file.bytes := by
  have hlog := represents_create.of_appendEach happended
  rw [List.nil_append] at hlog
  obtain ⟨part, record, htake, hpart, hshort⟩ := take_framesFrom 0 file.bytes.length records
  rw [Nat.zero_add] at hpart
  generalize wholeRecords file.bytes.length records = whole at *
  have hbytes : file.bytes = frames whole ++ part := by
    rw [List.prefix_iff_eq_take.1 hcut, hlog.bytes, List.append_nil]
    exact htake
  have hlt : whole.length < 256 ^ 8 := (File.length_lt hbytes).trans (by decide)
  have hlen : file.bytes.length = framesLen whole + part.length := by
    rw [hbytes, List.length_append, length_frames]
  obtain ⟨recovered, hinspect, hfile, hrep⟩ := inspect_eq hbytes hpart hshort
  have hclean := hrep.finishRecovery
  rw [framesLen_stored, hfile] at hclean
  have hend : readNextRecord recovered.file.bytes (framesLen whole) = .ok none := by
    have hread := record.readNextRecord_part hlt (frames whole) hpart hshort
    rwa [length_frames, ← hbytes, ← hfile] at hread
  refine ⟨recovered, _, hinspect, hrep.hasRecords hend, ?_, hclean.hasRecords ?_, ?_⟩
  · by_cases htail : framesLen whole = file.bytes.length
    · rw [if_neg (not_not.2 htail), if_neg (by omega)]
    · rw [if_pos htail, if_pos (by omega)]
  · have hread := hclean.readNextRecord_end
    rwa [framesLen_stored] at hread
  · intro more hfits
    obtain ⟨after, hmore, hafter⟩ := hclean.appendEach_of_fits sync
      (by simpa [framesLen_append] using hfits : framesLen (whole.map Record.stored ++ more) ≤ _)
    obtain ⟨fresh, hall, hfresh⟩ := represents_create.appendEach_of_fits sync
      (by simpa using hfits : framesLen ([] ++ (whole ++ more)) ≤ _)
    refine ⟨after, fresh, by rw [hmore, List.length_map], ?_, ?_⟩
    · rw [hall, List.length_nil, List.range_eq_range']
    · rw [hafter.bytes, hfresh.bytes, List.append_nil, List.append_nil, List.nil_append, frames,
        framesFrom_append, List.length_map, framesFrom_stored, ← framesFrom_append]
      rfl

/-- A record with key and request identity, and one with neither. -/
def twoRecords : List Record :=
  [{ key := some "k", payload := [1], identity := .publicId "r", publishedAtMs := 5,
     key_le := by decide, payload_le := by decide, identity_le := by decide,
     published_lt := by decide },
   { key := none, payload := [2, 3], identity := .none, publishedAtMs := 6,
     key_le := by decide, payload_le := by decide, identity_le := by decide,
     published_lt := by decide }]

/-- A cut inside the header of the second record leaves the first one. -/
theorem torn_header_leaves_first :
    ∃ recovered, StreamLog.inspect
      ((StreamLog.create.appendEach true twoRecords).1.file.setLen 60) =
        .ok (recovered, some 51) ∧ recovered.HasRecords (twoRecords.take 1) := by
  have happended : StreamLog.create.appendEach true twoRecords =
      ((StreamLog.create.appendEach true twoRecords).1, .ok [0, 1]) :=
    Prod.ext rfl (by decide +kernel)
  have hlen : ((StreamLog.create.appendEach true twoRecords).1.file.setLen 60).bytes.length =
      60 := by
    decide +kernel
  have hcut : ((StreamLog.create.appendEach true twoRecords).1.file.setLen 60).bytes <+:
      (StreamLog.create.appendEach true twoRecords).1.file.bytes := List.take_prefix 60 _
  obtain ⟨recovered, tail, hinspect, hrecords, htail, -⟩ := torn_tail_exact happended hcut
  have hwhole : wholeRecords 60 twoRecords = twoRecords.take 1 := rfl
  rw [hlen, hwhole] at hrecords htail
  obtain rfl : tail = some 51 := htail
  exact ⟨recovered, hinspect, hrecords⟩

end Runnel.Local
