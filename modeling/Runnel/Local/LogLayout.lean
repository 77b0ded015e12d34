import Runnel.Local.RecordSpec
import Runnel.Local.StreamLog

/-!
# Layout of a log

The records a log stands for, as a list: the frame and the index entry of each one
follow from the ones before it.
-/

namespace Runnel.Local

open Runnel.Engine Bytes

def framesFrom (offset : ℕ) : List Record → Bytes
  | [] => []
  | record :: rest => record.frame offset ++ framesFrom (offset + 1) rest

def entriesFrom (offset cursor : ℕ) : List Record → List RecordIndex
  | [] => []
  | record :: rest =>
    record.index offset cursor :: entriesFrom (offset + 1) (cursor + record.frameLen) rest

def frames (records : List Record) : Bytes := framesFrom 0 records

def entries (records : List Record) : List RecordIndex := entriesFrom 0 0 records

def framesLen (records : List Record) : ℕ := (records.map Record.frameLen).sum

@[simp] theorem framesLen_nil : framesLen [] = 0 := rfl

@[simp] theorem framesLen_cons (record : Record) (rest : List Record) :
    framesLen (record :: rest) = record.frameLen + framesLen rest := by
  simp [framesLen]

@[simp] theorem framesLen_append (front rest : List Record) :
    framesLen (front ++ rest) = framesLen front + framesLen rest := by
  simp [framesLen]

theorem length_framesFrom (offset : ℕ) (records : List Record) :
    (framesFrom offset records).length = framesLen records := by
  induction records generalizing offset with
  | nil => rfl
  | cons record rest ih => simp [framesFrom, ih]

@[simp] theorem length_frames (records : List Record) :
    (frames records).length = framesLen records := length_framesFrom 0 records

theorem framesFrom_append (offset : ℕ) (front rest : List Record) :
    framesFrom offset (front ++ rest) =
      framesFrom offset front ++ framesFrom (offset + front.length) rest := by
  induction front generalizing offset with
  | nil => rfl
  | cons record front ih =>
    rw [List.cons_append, framesFrom, framesFrom, ih, List.append_assoc, List.length_cons,
      Nat.add_assoc, Nat.add_comm 1]

theorem entriesFrom_append (offset cursor : ℕ) (front rest : List Record) :
    entriesFrom offset cursor (front ++ rest) = entriesFrom offset cursor front ++
      entriesFrom (offset + front.length) (cursor + framesLen front) rest := by
  induction front generalizing offset cursor with
  | nil => rfl
  | cons record front ih =>
    rw [List.cons_append, entriesFrom, entriesFrom, ih, List.cons_append, List.length_cons,
      framesLen_cons, Nat.add_assoc, Nat.add_comm 1, Nat.add_assoc cursor]

theorem frames_concat (records : List Record) (record : Record) :
    frames (records ++ [record]) = frames records ++ record.frame records.length := by
  rw [frames, framesFrom_append, Nat.zero_add]
  simp [framesFrom, frames]

theorem frames_split (front : List Record) (record : Record) (rest : List Record) :
    frames (front ++ record :: rest) =
      frames front ++ (record.frame front.length ++ framesFrom (front.length + 1) rest) := by
  rw [frames, framesFrom_append, Nat.zero_add]
  rfl

theorem entries_concat (records : List Record) (record : Record) :
    entries (records ++ [record]) =
      entries records ++ [record.index records.length (framesLen records)] := by
  rw [entries, entriesFrom_append, Nat.zero_add, Nat.zero_add]
  rfl

theorem getElem?_entriesFrom (offset cursor : ℕ) (records : List Record) (i : ℕ) :
    (entriesFrom offset cursor records)[i]? = (records[i]?).map fun record =>
      record.index (offset + i) (cursor + framesLen (records.take i)) := by
  induction records generalizing offset cursor i with
  | nil => rfl
  | cons record rest ih =>
    cases i with
    | zero => rfl
    | succ i =>
      rw [entriesFrom, List.getElem?_cons_succ, List.getElem?_cons_succ, ih, List.take_succ_cons,
        framesLen_cons, Nat.add_assoc, Nat.add_comm 1, Nat.add_assoc cursor]

theorem length_entriesFrom (offset cursor : ℕ) (records : List Record) :
    (entriesFrom offset cursor records).length = records.length := by
  induction records generalizing offset cursor with
  | nil => rfl
  | cons record rest ih => simp [entriesFrom, ih]

@[simp] theorem length_entries (records : List Record) :
    (entries records).length = records.length := length_entriesFrom 0 0 records

theorem mem_entriesFrom {offset cursor : ℕ} {records : List Record} {entry : RecordIndex}
    (h : entry ∈ entriesFrom offset cursor records) :
    ∃ front record rest, records = front ++ record :: rest ∧
      entry = record.index (offset + front.length) (cursor + framesLen front) := by
  induction records generalizing offset cursor with
  | nil => cases h
  | cons record rest ih =>
    rcases List.mem_cons.1 h with rfl | h
    · exact ⟨[], record, rest, rfl, rfl⟩
    · obtain ⟨front, later, tail, rfl, rfl⟩ := ih h
      refine ⟨record :: front, later, tail, rfl, ?_⟩
      rw [List.length_cons, framesLen_cons, Nat.add_assoc, Nat.add_comm 1, Nat.add_assoc cursor]

theorem mem_entries {records : List Record} {entry : RecordIndex} (h : entry ∈ entries records) :
    ∃ front record rest, records = front ++ record :: rest ∧
      entry = record.index front.length (framesLen front) := by
  simpa using mem_entriesFrom h

theorem exists_split {records : List Record} {offset : ℕ} {record : Record}
    (h : records[offset]? = some record) :
    ∃ front rest, records = front ++ record :: rest ∧ front.length = offset := by
  obtain ⟨hlt, rfl⟩ := List.getElem?_eq_some_iff.1 h
  refine ⟨records.take offset, records.drop (offset + 1), ?_, by rw [List.length_take]; omega⟩
  rw [← List.drop_eq_getElem_cons hlt, List.take_append_drop]

theorem find?_entriesFrom (offset cursor : ℕ) (front : List Record) (record : Record)
    (rest : List Record) :
    (entriesFrom offset cursor (front ++ record :: rest)).find?
        (fun entry => entry.offset = offset + front.length) =
      some (record.index (offset + front.length) (cursor + framesLen front)) := by
  have hfront : (entriesFrom offset cursor front).find?
      (fun entry => entry.offset = offset + front.length) = none := by
    rw [List.find?_eq_none]
    intro entry hentry
    obtain ⟨before, other, after, hsplit, rfl⟩ := mem_entriesFrom hentry
    have hlen : front.length = before.length + (after.length + 1) := by
      rw [hsplit, List.length_append, List.length_cons]
    have hne : offset + before.length ≠ offset + front.length := by omega
    simpa [Record.index] using hne
  rw [entriesFrom_append, List.find?_append, hfront, Option.none_or, entriesFrom,
    List.find?_cons_of_pos (by simp [Record.index])]

theorem find?_entries_append {front : List Record} {offset : ℕ} (hle : front.length ≤ offset)
    {wanted : RecordIndex → Bool} (hwanted : ∀ entry, entry.offset < offset → wanted entry = false)
    (rest : List Record) : (entries (front ++ rest)).find? wanted =
      (entriesFrom front.length (framesLen front) rest).find? wanted := by
  have hfront : (entriesFrom 0 0 front).find? wanted = none := by
    rw [List.find?_eq_none]
    intro entry hentry
    obtain ⟨before, record, after, rfl, rfl⟩ := mem_entries hentry
    rw [hwanted]
    · exact Bool.false_ne_true
    · rw [List.length_append, List.length_cons] at hle
      change before.length < offset
      omega
  rw [entries, entriesFrom_append, List.find?_append, hfront, Option.none_or, Nat.zero_add,
    Nat.zero_add]

namespace Record

theorem recordHeaderLen_le_frameLen (record : Record) : recordHeaderLen ≤ record.frameLen := by
  unfold frameLen
  omega

@[simp] theorem frameLen_stored (record : Record) : record.stored.frameLen = record.frameLen := by
  simp [frameLen, stored, keyBytes_storedKey]

@[simp] theorem frame_stored (record : Record) (offset : ℕ) :
    record.stored.frame offset = record.frame offset := by
  simp only [frame, header, prologue, checksum, stored, keyBytes_storedKey]

end Record

theorem framesFrom_stored (offset : ℕ) (records : List Record) :
    framesFrom offset (records.map Record.stored) = framesFrom offset records := by
  induction records generalizing offset with
  | nil => rfl
  | cons record rest ih => rw [List.map_cons, framesFrom, framesFrom, ih, Record.frame_stored]

@[simp] theorem frames_stored (records : List Record) :
    frames (records.map Record.stored) = frames records := framesFrom_stored 0 records

theorem length_le_framesLen (records : List Record) :
    recordHeaderLen * records.length ≤ framesLen records := by
  induction records with
  | nil => rfl
  | cons record rest ih =>
    have := record.recordHeaderLen_le_frameLen
    rw [List.length_cons, framesLen_cons, Nat.mul_succ]
    omega

@[simp] theorem framesLen_stored (records : List Record) :
    framesLen (records.map Record.stored) = framesLen records := by
  simp [framesLen, Function.comp_def]

section Scan

variable {front rest : List Record} {part : Bytes}

theorem readNextRecord_frames {record : Record} (hoffset : front.length < 256 ^ 8) :
    readNextRecord (frames (front ++ record :: rest) ++ part) (framesLen front) =
      .ok (some ⟨record.stored.index front.length (framesLen front),
        framesLen (front ++ [record])⟩) := by
  have hread := record.readNextRecord_frame hoffset (frames front)
    (framesFrom (front.length + 1) rest ++ part)
  rw [length_frames] at hread
  rw [frames_split, List.append_assoc, List.append_assoc, hread]
  simp

/-- A scan reports the first wanted record of the list, and goes on behind the list if it has
none. -/
theorem scanRecords_frames (wanted : RecordIndex → Bool) (fuel : ℕ)
    (hoffset : (front ++ rest).length ≤ 256 ^ 8) :
    scanRecords (frames (front ++ rest) ++ part) wanted (fuel + rest.length) (framesLen front) =
      ((entriesFrom front.length (framesLen front) (rest.map Record.stored)).find? wanted).elim
        (scanRecords (frames (front ++ rest) ++ part) wanted fuel (framesLen (front ++ rest)))
        (fun found => .ok (some found)) := by
  induction rest generalizing front with
  | nil => simp [entriesFrom]
  | cons record rest ih =>
    have hlen : front.length < 256 ^ 8 := by
      rw [List.length_append, List.length_cons] at hoffset
      omega
    rw [List.length_cons, ← Nat.add_assoc, scanRecords, readNextRecord_frames hlen, List.map_cons,
      entriesFrom, List.find?_cons]
    simp only
    cases wanted (record.stored.index front.length (framesLen front)) with
    | true => rfl
    | false =>
      have hrest := @ih (front ++ [record]) (by simpa using hoffset)
      simpa using hrest

end Scan

end Runnel.Local
