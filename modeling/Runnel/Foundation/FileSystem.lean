import Runnel.Foundation.Bytes

/-!
# A directory of files

Names lead to inodes and inodes hold bytes, so that a file that is renamed or
emptied while somebody else has it open behaves as it does on a real file
system: an open handle keeps its inode, whatever the name does.
-/

namespace Runnel

structure FileSystem (π : Type) where
  names : π → Option ℕ := fun _ => none
  inodes : ℕ → Bytes := fun _ => []
  fresh : ℕ := 0

namespace FileSystem

variable {π : Type}

def read (fs : FileSystem π) (name : π) : Option Bytes := (fs.names name).map fs.inodes

/-- Every name has an inode of its own. -/
structure WellFormed (fs : FileSystem π) : Prop where
  bounded : ∀ name inode, fs.names name = some inode → inode < fs.fresh
  injective : ∀ name other inode, fs.names name = some inode → fs.names other = some inode →
    name = other

variable {fs : FileSystem π} {name other source target : π} {inode : ℕ}

theorem read_of_names (h : fs.names name = some inode) : fs.read name = some (fs.inodes inode) := by
  rw [read, h]
  rfl

theorem WellFormed.ne_inode (h : fs.WellFormed) (hname : fs.names name = some inode)
    (hne : other ≠ name) : fs.names other ≠ some inode :=
  fun hother => hne (h.injective other name inode hother hname)

theorem WellFormed.of_names (h : fs.WellFormed) (inodes : ℕ → Bytes) :
    WellFormed { fs with inodes := inodes } := ⟨h.bounded, h.injective⟩

variable [DecidableEq π]

def allocate (fs : FileSystem π) (name : π) : FileSystem π where
  names := Function.update fs.names name (some fs.fresh)
  inodes := Function.update fs.inodes fs.fresh []
  fresh := fs.fresh + 1

/-- Opens a file for writing; one that exists is emptied and keeps its inode. -/
def create (fs : FileSystem π) (name : π) : FileSystem π × ℕ :=
  match fs.names name with
  | some inode => ({ fs with inodes := Function.update fs.inodes inode [] }, inode)
  | none => (fs.allocate name, fs.fresh)

def openAppend (fs : FileSystem π) (name : π) : FileSystem π × ℕ :=
  match fs.names name with
  | some inode => (fs, inode)
  | none => (fs.allocate name, fs.fresh)

/-- Bytes written over what is at a position; a gap is filled with zeros. -/
def overlay (bytes : Bytes) (position : ℕ) (data : Bytes) : Bytes :=
  bytes.take position ++ List.replicate (position - bytes.length) 0 ++ data ++
    bytes.drop (position + data.length)

theorem overlay_length (bytes data : Bytes) :
    overlay bytes bytes.length data = bytes ++ data := by
  simp [overlay, List.drop_eq_nil_of_le]

def writeAt (fs : FileSystem π) (inode position : ℕ) (data : Bytes) : FileSystem π :=
  { fs with inodes := Function.update fs.inodes inode (overlay (fs.inodes inode) position data) }

def append (fs : FileSystem π) (inode : ℕ) (data : Bytes) : FileSystem π :=
  { fs with inodes := Function.update fs.inodes inode (fs.inodes inode ++ data) }

/-- Gives a file another name, in place of the file that has it; `none` if there is no file. -/
def rename (fs : FileSystem π) (source target : π) : Option (FileSystem π) :=
  (fs.names source).map fun inode =>
    if source = target then fs
    else { fs with
      names := Function.update (Function.update fs.names target (some inode)) source none }

def setLen (fs : FileSystem π) (name : π) (len : ℕ) : FileSystem π :=
  match fs.names name with
  | some inode =>
    { fs with inodes := Function.update fs.inodes inode ((fs.inodes inode).take len) }
  | none => fs

theorem WellFormed.allocate (h : fs.WellFormed) (name : π) : (fs.allocate name).WellFormed where
  bounded other inode hother := by
    simp only [FileSystem.allocate, Function.update_apply] at hother ⊢
    split_ifs at hother
    · obtain rfl := Option.some.inj hother
      exact Nat.lt_succ_self _
    · exact (h.bounded other inode hother).trans (Nat.lt_succ_self _)
  injective a b inode ha hb := by
    simp only [FileSystem.allocate, Function.update_apply] at ha hb
    split_ifs at ha hb with ha' hb' hb'
    · rw [ha', hb']
    · obtain rfl := Option.some.inj ha
      exact absurd (h.bounded b _ hb) (lt_irrefl _)
    · obtain rfl := Option.some.inj hb
      exact absurd (h.bounded a _ ha) (lt_irrefl _)
    · exact h.injective a b inode ha hb

theorem inodes_allocate (h : inode < fs.fresh) :
    (fs.allocate name).inodes inode = fs.inodes inode := by
  simp [allocate, h.ne]

theorem names_allocate (hne : other ≠ name) :
    (fs.allocate name).names other = fs.names other := by
  simp [allocate, hne]

theorem create_spec (h : fs.WellFormed) (name : π) :
    (fs.create name).1.WellFormed ∧
    (fs.create name).1.names name = some (fs.create name).2 ∧
    (fs.create name).1.inodes (fs.create name).2 = [] ∧
    (∀ other, other ≠ name → (fs.create name).1.names other = fs.names other) ∧
    ∀ inode, inode < fs.fresh → fs.names name ≠ some inode →
      (fs.create name).1.inodes inode = fs.inodes inode := by
  unfold create
  cases hname : fs.names name with
  | some found =>
    refine ⟨h.of_names _, hname, by simp, fun _ _ => rfl, fun inode _ hne => ?_⟩
    have hdiff : inode ≠ found := fun heq => hne (by rw [heq])
    simp [hdiff]
  | none =>
    exact ⟨h.allocate name, by simp [allocate], by simp [allocate],
      fun other hne => names_allocate hne, fun inode hlt _ => inodes_allocate hlt⟩

theorem openAppend_spec (h : fs.WellFormed) (name : π) :
    (fs.openAppend name).1.WellFormed ∧
    (fs.openAppend name).1.names name = some (fs.openAppend name).2 ∧
    (fs.openAppend name).1.read name = some ((fs.read name).getD []) ∧
    (∀ other, other ≠ name → (fs.openAppend name).1.names other = fs.names other) ∧
    ∀ inode, inode < fs.fresh → (fs.openAppend name).1.inodes inode = fs.inodes inode := by
  unfold openAppend
  cases hname : fs.names name with
  | some found =>
    exact ⟨h, hname, by simp [read, hname], fun _ _ => rfl, fun _ _ => rfl⟩
  | none =>
    exact ⟨h.allocate name, by simp [allocate], by simp [read, hname, allocate],
      fun other hne => names_allocate hne, fun inode hlt => inodes_allocate hlt⟩

/-- A renamed file is read under its new name, and only the two names changed. -/
theorem rename_spec (h : fs.WellFormed) (hne : source ≠ target)
    (hsource : fs.names source = some inode) :
    ∃ after, fs.rename source target = some after ∧ after.WellFormed ∧
      after.names target = some inode ∧ after.names source = none ∧
      (∀ other, other ≠ source → other ≠ target → after.names other = fs.names other) ∧
      after.inodes = fs.inodes ∧ after.fresh = fs.fresh := by
  refine ⟨{ fs with
      names := Function.update (Function.update fs.names target (some inode)) source none },
    by rw [rename, hsource, Option.map_some, if_neg hne], ⟨?_, ?_⟩, ?_, ?_, ?_, rfl, rfl⟩
  · intro name found hname
    simp only [Function.update_apply] at hname
    split_ifs at hname with hname' hname''
    · obtain rfl := Option.some.inj hname
      exact h.bounded source inode hsource
    · exact h.bounded name found hname
  · have hcase : ∀ name found,
        Function.update (Function.update fs.names target (some inode)) source none name =
          some found → (name = target ∧ found = inode) ∨
            (name ≠ source ∧ fs.names name = some found) := by
      intro name found hname
      simp only [Function.update_apply] at hname
      split_ifs at hname with hname' hname''
      · exact Or.inl ⟨hname'', (Option.some.inj hname).symm⟩
      · exact Or.inr ⟨hname', hname⟩
    intro a b found ha hb
    rcases hcase a found ha with ⟨ha', hfound⟩ | ⟨hane, ha'⟩ <;>
      rcases hcase b found hb with ⟨hb', hfound'⟩ | ⟨hbne, hb'⟩
    · rw [ha', hb']
    · exact absurd (h.injective b source found hb' (hfound ▸ hsource)) hbne
    · exact absurd (h.injective a source found ha' (hfound' ▸ hsource)) hane
    · exact h.injective a b found ha' hb'
  · simp [hne.symm]
  · simp
  · intro other hother hother'
    simp [hother, hother']

theorem isSome_allocate (h : (fs.names other).isSome) (name : π) :
    ((fs.allocate name).names other).isSome := by
  by_cases hsame : other = name
  · simp [allocate, hsame]
  · rwa [names_allocate hsame]

theorem isSome_create (h : (fs.names other).isSome) (name : π) :
    ((fs.create name).1.names other).isSome := by
  unfold create
  split
  · exact h
  · exact isSome_allocate h name

theorem isSome_openAppend (h : (fs.names other).isSome) (name : π) :
    ((fs.openAppend name).1.names other).isSome := by
  unfold openAppend
  split
  · exact h
  · exact isSome_allocate h name

theorem isSome_rename {after : FileSystem π} (h : (fs.names other).isSome) (hne : other ≠ source)
    (hrename : fs.rename source target = some after) : (after.names other).isSome := by
  obtain ⟨inode, -, rfl⟩ := Option.map_eq_some_iff.1 hrename
  split_ifs
  · exact h
  · simp only [Function.update_apply, if_neg hne]
    split_ifs
    · rfl
    · exact h

omit [DecidableEq π] in
theorem names_setLen (fs : FileSystem π) (name : π) (len : ℕ) :
    (fs.setLen name len).names = fs.names := by
  unfold setLen
  split <;> rfl

end FileSystem

end Runnel
