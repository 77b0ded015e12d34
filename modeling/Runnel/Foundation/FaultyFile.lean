import Runnel.Foundation.Bytes

/-!
# Files whose writes may fail

An append-only file together with what the environment will do with the next
writes and syncs.
-/

namespace Runnel

inductive IoErrorKind where
  | notFound
  | invalidInput
  | invalidData
  | unexpectedEof
  | wouldBlock
  | other
deriving DecidableEq, Repr

structure IoError where
  kind : IoErrorKind
  message : String
deriving DecidableEq, Repr

/-- A failure: how many bytes of a write reach the file, and the error reported. -/
structure Fault where
  written : ℕ
  error : IoError
deriving DecidableEq, Repr

/-- The largest length of a file, the range of a signed 64-bit position. -/
def maxFileLen : ℕ := 2 ^ 63 - 1

def IoError.fileTooLarge : IoError := ⟨.other, "File too large (os error 27)"⟩

structure File where
  bytes : Bytes := []
  faults : List (Option Fault) := []
  /-- How many bytes the last successful sync covered. -/
  synced : ℕ := 0
  length_le : bytes.length ≤ maxFileLen := by decide
  synced_le : synced ≤ bytes.length := by decide
deriving DecidableEq, Repr

namespace File

/-- The file with as much of the data behind it as fits. -/
def extend (file : File) (data : Bytes) (faults : List (Option Fault)) : File where
  bytes := file.bytes ++ data.take (maxFileLen - file.bytes.length)
  faults := faults
  synced := file.synced
  length_le := by
    have := file.length_le
    simp only [List.length_append, List.length_take]
    omega
  synced_le := file.synced_le.trans (by simp)

/-- Appends a buffer; an empty buffer takes no system call. -/
def writeAll (file : File) (data : Bytes) : File × Except IoError Unit :=
  if data.isEmpty then (file, .ok ())
  else
    match file.faults with
    | some fault :: faults => (file.extend (data.take fault.written) faults, .error fault.error)
    | faults =>
      (file.extend data faults.tail,
        if file.bytes.length + data.length ≤ maxFileLen then .ok () else .error .fileTooLarge)

/-- Appends buffers one after the other, up to the first failure. -/
def writeEach (file : File) : List Bytes → File × Except IoError Unit
  | [] => (file, .ok ())
  | data :: rest =>
    match file.writeAll data with
    | (file, .ok ()) => writeEach file rest
    | (file, .error error) => (file, .error error)

def syncData (file : File) : File × Except IoError Unit :=
  match file.faults with
  | some fault :: faults => ({ file with faults := faults }, .error fault.error)
  | faults =>
    ({ file with
        faults := faults.tail
        synced := file.bytes.length
        synced_le := le_refl _ }, .ok ())

def setLen (file : File) (len : ℕ) : File where
  bytes := file.bytes.take len
  faults := file.faults
  synced := min file.synced len
  length_le := (List.length_take_le' _ _).trans file.length_le
  synced_le := by
    have := file.synced_le
    rw [List.length_take]
    omega

theorem extend_of_le {file : File} {data : Bytes} {faults : List (Option Fault)}
    (h : file.bytes.length + data.length ≤ maxFileLen) :
    (file.extend data faults).bytes = file.bytes ++ data := by
  change file.bytes ++ data.take _ = _
  rw [List.take_of_length_le (by omega)]

theorem writeAll_spec (file : File) (data : Bytes) :
    (∃ after, file.writeAll data = (after, .ok ()) ∧ after.bytes = file.bytes ++ data) ∨
    ∃ after error written, file.writeAll data = (after, .error error) ∧ written <+: data ∧
      after.bytes = file.bytes ++ written := by
  unfold writeAll
  by_cases hempty : data.isEmpty
  · rw [if_pos hempty]
    exact Or.inl ⟨file, rfl, by simp [List.isEmpty_iff.1 hempty]⟩
  · rw [if_neg hempty]
    split
    · exact Or.inr ⟨_, _, _, rfl, (List.take_prefix _ _).trans (List.take_prefix _ _), rfl⟩
    · split_ifs with hfits
      · exact Or.inl ⟨_, rfl, extend_of_le hfits⟩
      · exact Or.inr ⟨_, _, _, rfl, List.take_prefix _ _, rfl⟩

/-- Buffers reach the file completely, or some part of them does and the write fails. -/
theorem writeEach_spec (file : File) (buffers : List Bytes) :
    (∃ after, file.writeEach buffers = (after, .ok ()) ∧
      after.bytes = file.bytes ++ buffers.flatten) ∨
    ∃ after error written, file.writeEach buffers = (after, .error error) ∧
      written <+: buffers.flatten ∧ after.bytes = file.bytes ++ written := by
  induction buffers generalizing file with
  | nil => exact Or.inl ⟨file, rfl, by simp⟩
  | cons data rest ih =>
    rw [List.flatten_cons]
    rcases file.writeAll_spec data with ⟨after, hwrite, hbytes⟩ |
      ⟨after, error, written, hwrite, hpart, hbytes⟩
    · rw [writeEach, hwrite]
      rcases ih after with ⟨final, hrest, hfinal⟩ | ⟨final, error, written, hrest, hpart, hfinal⟩
      · exact Or.inl ⟨final, hrest, by rw [hfinal, hbytes, List.append_assoc]⟩
      · exact Or.inr ⟨final, error, data ++ written, hrest,
          (List.prefix_append_right_inj _).2 hpart, by rw [hfinal, hbytes, List.append_assoc]⟩
    · rw [writeEach, hwrite]
      exact Or.inr ⟨after, error, written, rfl, hpart.trans (List.prefix_append _ _), hbytes⟩

theorem syncData_spec (file : File) :
    (file.syncData).1.bytes = file.bytes := by
  unfold syncData
  cases file.faults with
  | nil => rfl
  | cons head faults => cases head <;> rfl

theorem syncData_synced (file : File) :
    ((file.syncData).2 = .ok () ∧ (file.syncData).1.synced = file.bytes.length) ∨
    ∃ error, (file.syncData).2 = .error error ∧ (file.syncData).1.synced = file.synced := by
  unfold syncData
  cases file.faults with
  | nil => exact Or.inl ⟨rfl, rfl⟩
  | cons head faults =>
    cases head with
    | none => exact Or.inl ⟨rfl, rfl⟩
    | some fault => exact Or.inr ⟨fault.error, rfl, rfl⟩

theorem writeAll_synced (file : File) (data : Bytes) :
    (file.writeAll data).1.synced = file.synced := by
  unfold writeAll
  by_cases hempty : data.isEmpty
  · rw [if_pos hempty]
  · rw [if_neg hempty]
    split <;> rfl

theorem writeEach_synced (file : File) (buffers : List Bytes) :
    (file.writeEach buffers).1.synced = file.synced := by
  induction buffers generalizing file with
  | nil => rfl
  | cons data rest ih =>
    have hdata := file.writeAll_synced data
    rw [writeEach]
    split
    · rename_i after hwrite
      rw [hwrite] at hdata
      exact (ih after).trans hdata
    · rename_i after error hwrite
      rw [hwrite] at hdata
      exact hdata

theorem writeAll_of_faults_nil {file : File} (hfaults : file.faults = []) (data : Bytes) :
    (file.writeAll data).1.faults = [] ∧
      (file.bytes.length + data.length ≤ maxFileLen → (file.writeAll data).2 = .ok ()) := by
  unfold writeAll
  by_cases hempty : data.isEmpty
  · rw [if_pos hempty]
    exact ⟨hfaults, fun _ => rfl⟩
  · rw [if_neg hempty]
    simp only [hfaults]
    exact ⟨rfl, fun hfits => if_pos hfits⟩

theorem writeEach_of_faults_nil {file : File} (hfaults : file.faults = []) (buffers : List Bytes) :
    (file.writeEach buffers).1.faults = [] ∧
      (file.bytes.length + buffers.flatten.length ≤ maxFileLen →
        (file.writeEach buffers).2 = .ok ()) := by
  induction buffers generalizing file with
  | nil => exact ⟨hfaults, fun _ => rfl⟩
  | cons data rest ih =>
    obtain ⟨hafter, hwritten⟩ := writeAll_of_faults_nil hfaults data
    rw [List.flatten_cons, List.length_append]
    rcases file.writeAll_spec data with ⟨after, hwrite, hbytes⟩ | ⟨after, error, written, hwrite, -⟩
    · rw [hwrite] at hafter
      rw [writeEach, hwrite]
      obtain ⟨hfinal, hrest⟩ := ih hafter
      refine ⟨hfinal, fun hfits => hrest ?_⟩
      rw [hbytes, List.length_append]
      omega
    · rw [hwrite] at hafter hwritten
      rw [writeEach, hwrite]
      refine ⟨hafter, fun hfits => ?_⟩
      cases hwritten (by omega)

theorem syncData_of_faults_nil {file : File} (hfaults : file.faults = []) :
    file.syncData.1.faults = [] ∧ file.syncData.2 = .ok () := by
  rw [syncData, hfaults]
  exact ⟨rfl, rfl⟩

structure Fails (p : IoError → Prop) (file : File) : Prop where
  tooLarge : p .fileTooLarge
  scripted : ∀ fault, some fault ∈ file.faults → p fault.error

namespace Fails

variable {p : IoError → Prop} {file : File}

theorem of_subset (h : file.Fails p) {after : File} (hsub : after.faults ⊆ file.faults) :
    after.Fails p :=
  ⟨h.tooLarge, fun fault hmem => h.scripted fault (hsub hmem)⟩

theorem error {fault : Fault} {faults : List (Option Fault)} (h : file.Fails p)
    (hfaults : file.faults = some fault :: faults) : p fault.error :=
  h.scripted fault (by simp [hfaults])

theorem writeAll (h : file.Fails p) (data : Bytes) :
    (file.writeAll data).1.Fails p ∧ ∀ error, (file.writeAll data).2 = .error error → p error := by
  unfold File.writeAll
  by_cases hempty : data.isEmpty
  · rw [if_pos hempty]
    exact ⟨h, by simp⟩
  · rw [if_neg hempty]
    split
    · rename_i fault faults hfaults
      refine ⟨h.of_subset (hfaults ▸ List.subset_cons_self _ _), fun error herror => ?_⟩
      obtain rfl := Except.error.inj herror
      exact h.error hfaults
    · refine ⟨h.of_subset (List.tail_subset _), fun error herror => ?_⟩
      dsimp only at herror
      split_ifs at herror
      obtain rfl := Except.error.inj herror
      exact h.tooLarge

theorem writeEach (h : file.Fails p) (buffers : List Bytes) :
    (file.writeEach buffers).1.Fails p ∧
      ∀ error, (file.writeEach buffers).2 = .error error → p error := by
  induction buffers generalizing file with
  | nil => exact ⟨h, by simp [File.writeEach]⟩
  | cons data rest ih =>
    obtain ⟨hfile, herror⟩ := h.writeAll data
    rw [File.writeEach]
    split
    · rename_i after hwrite
      rw [hwrite] at hfile
      exact ih hfile
    · rename_i after error hwrite
      rw [hwrite] at hfile herror
      exact ⟨hfile, herror⟩

theorem syncData (h : file.Fails p) :
    file.syncData.1.Fails p ∧ ∀ error, file.syncData.2 = .error error → p error := by
  unfold File.syncData
  split
  · rename_i fault faults hfaults
    refine ⟨h.of_subset (hfaults ▸ List.subset_cons_self _ _), fun error herror => ?_⟩
    obtain rfl := Except.error.inj herror
    exact h.error hfaults
  · exact ⟨h.of_subset (List.tail_subset _), by simp⟩

end Fails

end File

end Runnel
