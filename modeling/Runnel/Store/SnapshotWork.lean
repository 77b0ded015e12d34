import Runnel.Store.Process

/-!
# Steps of concurrent snapshot work

A build and an install work on one store at the same time. `Safe` says that
every file of the store holds complete content of its own kind and that each
task's open temporary file is its own; one step of a task that does not create
the other's temporary file keeps it so.
-/

namespace Runnel.Store

open Runnel.Cluster Runnel.Engine Bytes Transition

inductive Complete (serde : Serde) : FileName → Bytes → Prop
  | checkpoint (data : StateMachineData) : data.state.WellFormed →
      Complete serde checkpointFile (serde.checkpoint.encode (.ofData data))
  | snapshot (snapshot : ValidSnapshot serde) :
      Complete serde snapshotFile (serde.snapshot.encode snapshot.stored)
  | journal (entries : List JournalEntry) : (∀ entry ∈ entries, Fits serde entry) →
      Complete serde journalFile (recordFrames serde entries)

variable {serde : Serde} {name : FileName} {bytes : Bytes}

theorem Complete.exists_entries (h : Complete serde name bytes) (hname : name = journalFile) :
    ∃ entries, (∀ entry ∈ entries, Fits serde entry) ∧ bytes = recordFrames serde entries := by
  cases h with
  | checkpoint => exact absurd hname (by decide)
  | snapshot => exact absurd hname (by decide)
  | journal entries hfits => exact ⟨entries, hfits, rfl⟩

theorem Complete.exists_data (h : Complete serde name bytes) (hname : name = checkpointFile) :
    ∃ data : StateMachineData, data.state.WellFormed ∧
      bytes = serde.checkpoint.encode (.ofData data) := by
  cases h with
  | checkpoint data hwf => exact ⟨data, hwf, rfl⟩
  | snapshot => exact absurd hname (by decide)
  | journal => exact absurd hname (by decide)

theorem Complete.exists_snapshot (h : Complete serde name bytes) (hname : name = snapshotFile) :
    ∃ snapshot : ValidSnapshot serde, bytes = serde.snapshot.encode snapshot.stored := by
  cases h with
  | checkpoint => exact absurd hname (by decide)
  | snapshot snapshot => exact ⟨snapshot, rfl⟩
  | journal => exact absurd hname (by decide)

def storeFiles : List FileName := [checkpointFile, snapshotFile, journalFile]

theorem Complete.mem_storeFiles (h : Complete serde name bytes) : name ∈ storeFiles := by
  cases h <;> simp [storeFiles]

theorem temporary_ne (h : name ∈ storeFiles) (target : FileName)
    (processId : ℕ) : FileName.temporary target processId ≠ name := by
  have hother : ∀ name ∈ storeFiles, ¬ utf8 ".tmp-" <:+: name := by decide +kernel
  rintro rfl
  refine hother _ h ⟨FileName.stem target, utf8 (toString processId), ?_⟩
  rw [FileName.temporary_eq, List.append_assoc]

/-- The actions a task still has to take finish what they started: what it has written so far
to a temporary file and what it will still write is complete content of the target when the
file is moved there. -/
def Finishes (serde : Serde) : Option (FileName × Bytes) → List Action → Prop
  | none, [] => True
  | none, .create target :: todo => target ∈ storeFiles ∧ Finishes serde (some (target, [])) todo
  | some (target, written), .write bytes :: todo =>
    Finishes serde (some (target, written ++ bytes)) todo
  | some file, .syncAll :: todo => Finishes serde (some file) todo
  | some (target, written), .rename name :: todo =>
    name = target ∧ Complete serde target written ∧ Finishes serde none todo
  | none, .setState data :: todo => data.state.WellFormed ∧ Finishes serde none todo
  | none, .capture :: todo => Finishes serde none todo
  | none, .lockState :: todo => Finishes serde none todo
  | none, .unlockState :: todo => Finishes serde none todo
  | none, .publish _ :: todo => Finishes serde none todo
  | none, .syncDirectory :: todo => Finishes serde none todo
  | none, .lockJournal :: todo => Finishes serde none todo
  | none, .readJournal _ :: todo => Finishes serde none todo
  | none, .reopenJournal :: todo => Finishes serde none todo
  | none, .unlockJournal :: todo => Finishes serde none todo
  | none, .fail _ :: _ => True
  | _, _ => False

section Programs

variable {serde : Serde}

variable {todo : List Action}

theorem finishes_atomicWrite {target : FileName} {bytes : Bytes}
    (hcomplete : Complete serde target bytes) (htodo : Finishes serde none todo) :
    Finishes serde none (atomicWrite target bytes ++ todo) := by
  simpa [atomicWrite, Finishes, hcomplete.mem_storeFiles, hcomplete] using htodo

theorem finishes_records {target : FileName} {written : Bytes} {entries : List JournalEntry}
    (h : ∀ entry ∈ entries, Fits serde entry)
    (htodo : Finishes serde (some (target, written ++ recordFrames serde entries)) todo) :
    Finishes serde (some (target, written))
      (entries.flatMap (appendActions serde .write) ++ todo) := by
  induction entries generalizing written with
  | nil => simpa [recordFrames] using htodo
  | cons entry rest ih =>
    obtain ⟨hentry, hrest⟩ := List.forall_mem_cons.1 h
    have hactions : appendActions serde .write entry =
        [.write (le 4 (serde.entry.encode entry).length), .write (serde.entry.encode entry)] := by
      rw [appendActions, appendWrites, if_neg (Nat.not_lt.2 hentry.2)]
      rfl
    rw [List.flatMap_cons, hactions, List.append_assoc]
    refine ih hrest ?_
    simpa [recordFrames, recordFrame] using htodo

theorem finishes_rewriteJournal {entries : List JournalEntry}
    (h : ∀ entry ∈ entries, Fits serde entry) (htodo : Finishes serde none todo) :
    Finishes serde none (rewriteJournal serde entries ++ todo) := by
  refine ⟨by simp [storeFiles], ?_⟩
  change Finishes serde _ ((_ ++ _) ++ todo)
  rw [List.append_assoc]
  refine finishes_records h ?_
  simpa [Finishes] using ⟨Complete.journal entries h, htodo⟩

end Programs

/-- The open temporary file of a task is where its name leads and holds what the task wrote. -/
def Owned (serde : Serde) (fs : Directory) (processId : ℕ) (process : Process) : Prop :=
  match process.file with
  | none => Finishes serde none process.todo
  | some file => ∃ target, file.name = FileName.temporary target processId ∧
      fs.names file.name = some file.inode ∧ file.position = (fs.inodes file.inode).length ∧
      Finishes serde (some (target, fs.inodes file.inode)) process.todo

/-- Complete files, and two tasks that write to files of their own. -/
structure Safe (serde : Serde) (fs : Directory) (processId : ℕ) (mine other : Process) : Prop where
  wellFormed : fs.WellFormed
  complete : ∀ name ∈ storeFiles, ∀ bytes, fs.read name = some bytes → Complete serde name bytes
  ownedMine : Owned serde fs processId mine
  ownedOther : Owned serde fs processId other
  apart : ∀ file ∈ mine.file, ∀ file' ∈ other.file, file.name ≠ file'.name

namespace Safe

variable {serde : Serde} {fs after : Directory} {processId : ℕ} {mine other next : Process}

theorem symm (h : Safe serde fs processId mine other) : Safe serde fs processId other mine where
  wellFormed := h.wellFormed
  complete := h.complete
  ownedMine := h.ownedOther
  ownedOther := h.ownedMine
  apart file hfile file' hfile' := (h.apart file' hfile' file hfile).symm

variable {todo : List Action}

theorem of_todo (h : Safe serde fs processId mine other)
    (htodo : Finishes serde none todo) (error : Option IoError) :
    Safe serde fs processId { todo := todo, error := error } other where
  wellFormed := h.wellFormed
  complete := h.complete
  ownedMine := htodo
  ownedOther := h.ownedOther
  apart := by simp

theorem owned_frame (h : Owned serde fs processId other)
    (hframe : ∀ file ∈ other.file, after.names file.name = fs.names file.name ∧
      after.inodes file.inode = fs.inodes file.inode) : Owned serde after processId other := by
  unfold Owned at h ⊢
  cases hfile : other.file with
  | none => simpa only [hfile] using h
  | some file =>
    simp only [hfile] at h ⊢
    obtain ⟨hnames, hinodes⟩ := hframe file hfile
    rw [hnames, hinodes]
    exact h

theorem names_other (h : Safe serde fs processId mine other) {file : TemporaryFile}
    (hfile : other.file = some file) :
    fs.names file.name = some file.inode ∧
      ∃ target : FileName, file.name = FileName.temporary target processId := by
  have howned := h.ownedOther
  simp only [Owned, hfile] at howned
  obtain ⟨target, hname, hnames, -⟩ := howned
  exact ⟨hnames, target, hname⟩

theorem complete_frame (h : Safe serde fs processId mine other) {name : FileName}
    (hstore : name ∈ storeFiles) (hnames : after.names name = fs.names name)
    (hinodes : ∀ inode, fs.names name = some inode → after.inodes inode = fs.inodes inode)
    {bytes : Bytes} (hread : after.read name = some bytes) : Complete serde name bytes := by
  refine h.complete name hstore bytes ?_
  rw [FileSystem.read, hnames] at hread
  rw [FileSystem.read]
  cases hinode : fs.names name with
  | none => simp [hinode] at hread
  | some inode => rwa [hinode, Option.map_some, hinodes inode hinode] at hread

variable {target : FileName}

theorem create (h : Safe serde fs processId mine other)
    (hmine : Finishes serde none (.create target :: todo))
    (hclash : ∀ file ∈ other.file, file.name ≠ FileName.temporary target processId)
    (error : Option IoError) :
    Safe serde (fs.create (FileName.temporary target processId)).1 processId
      { todo := todo
        file := some ⟨FileName.temporary target processId,
          (fs.create (FileName.temporary target processId)).2, 0⟩
        error := error } other := by
  obtain ⟨hwf, hname, hempty, hnames, hinodes⟩ :=
    FileSystem.create_spec h.wellFormed (FileName.temporary target processId)
  have hframe : ∀ name inode, name ≠ FileName.temporary target processId →
      fs.names name = some inode →
      (fs.create (FileName.temporary target processId)).1.inodes inode = fs.inodes inode := by
    intro name inode hne hinode
    exact hinodes inode (h.wellFormed.bounded name inode hinode)
      (h.wellFormed.ne_inode hinode hne.symm)
  refine ⟨hwf, ?_, ?_, ?_, ?_⟩
  · intro name hstore bytes hread
    have hne : name ≠ FileName.temporary target processId :=
      (temporary_ne hstore target processId).symm
    exact h.complete_frame hstore (hnames name hne) (fun inode => hframe name inode hne) hread
  · exact ⟨target, rfl, hname, by simp [hempty], by rw [hempty]; exact hmine.2⟩
  · refine owned_frame h.ownedOther fun file hfile => ?_
    have hne := hclash file hfile
    exact ⟨hnames _ hne, hframe _ _ hne (h.names_other hfile).1⟩
  · intro file hfile file' hfile'
    obtain rfl := Option.some.inj hfile
    exact (hclash file' hfile').symm

theorem write (h : Safe serde fs processId mine other) {file : TemporaryFile} {bytes : Bytes}
    (hfile : mine.file = some file) (htodo : mine.todo = .write bytes :: todo)
    (error : Option IoError) :
    Safe serde (fs.writeAt file.inode file.position bytes) processId
      { todo := todo
        file := some { file with position := file.position + bytes.length }
        error := error } other := by
  have howned := h.ownedMine
  simp only [Owned, hfile, htodo] at howned
  obtain ⟨target, hname, hnames, hposition, hfinishes⟩ := howned
  have hcontent : (fs.writeAt file.inode file.position bytes).inodes file.inode =
      fs.inodes file.inode ++ bytes := by
    simp [FileSystem.writeAt, hposition, FileSystem.overlay_length]
  have hsame : ∀ name, (fs.writeAt file.inode file.position bytes).names name = fs.names name :=
    fun _ => rfl
  have hframe : ∀ name inode, name ≠ file.name → fs.names name = some inode →
      (fs.writeAt file.inode file.position bytes).inodes inode = fs.inodes inode := by
    intro name inode hne hinode
    have hdiff : inode ≠ file.inode := fun heq =>
      h.wellFormed.ne_inode hnames hne (heq ▸ hinode)
    simp [FileSystem.writeAt, hdiff]
  refine ⟨h.wellFormed.of_names _, ?_, ?_, ?_, ?_⟩
  · intro name hstore content hread
    have hne : name ≠ file.name := hname ▸ (temporary_ne hstore target processId).symm
    exact h.complete_frame hstore (hsame name) (fun inode => hframe name inode hne) hread
  · refine ⟨target, hname, hnames, ?_, ?_⟩
    · change file.position + bytes.length = List.length _
      rw [hcontent, List.length_append, hposition]
    · simp only [hcontent]
      exact hfinishes
  · refine owned_frame h.ownedOther fun file' hfile' => ⟨rfl, ?_⟩
    exact hframe _ _ (h.apart file hfile file' hfile').symm (h.names_other hfile').1
  · intro file' hfile'
    obtain rfl := Option.some.inj hfile'
    exact h.apart file hfile

theorem rename_own (h : Safe serde fs processId mine other)
    (htodo : mine.todo = .rename target :: todo) :
    ∃ file, mine.file = some file ∧ file.name = FileName.temporary target processId ∧
      fs.names (FileName.temporary target processId) = some file.inode ∧
      Complete serde target (fs.inodes file.inode) ∧ Finishes serde none todo := by
  have howned := h.ownedMine
  cases hfile : mine.file with
  | none => simp [Owned, hfile, htodo, Finishes] at howned
  | some file =>
    simp only [Owned, hfile, htodo, Finishes] at howned
    obtain ⟨target', hname, hnames, -, rfl, hcomplete, hrest⟩ := howned
    exact ⟨file, rfl, hname, hname ▸ hnames, hcomplete, hrest⟩

theorem rename (h : Safe serde fs processId mine other)
    (htodo : mine.todo = .rename target :: todo) (error : Option IoError) :
    ∃ after, fs.rename (FileName.temporary target processId) target = some after ∧
      Safe serde after processId { todo := todo, error := error } other := by
  obtain ⟨file, hfile, hname, hnames, hcomplete, hrest⟩ := h.rename_own htodo
  have hstore := hcomplete.mem_storeFiles
  obtain ⟨after, hrename, hwf, htarget, -, hothers, hinodes, -⟩ :=
    FileSystem.rename_spec h.wellFormed (temporary_ne hstore target processId) hnames
  refine ⟨after, hrename, hwf, ?_, hrest, ?_, by simp⟩
  · intro name hstore' bytes hread
    by_cases hsame : name = target
    · subst hsame
      rw [FileSystem.read_of_names htarget, hinodes] at hread
      exact Option.some.inj hread ▸ hcomplete
    · refine h.complete_frame hstore' (hothers name ?_ hsame) (fun inode _ => by rw [hinodes]) hread
      exact (temporary_ne hstore' target processId).symm
  · refine owned_frame h.ownedOther fun file' hfile' => ⟨hothers _ ?_ ?_, by rw [hinodes]⟩
    · exact hname ▸ (h.apart file hfile file' hfile').symm
    · obtain ⟨-, target', hname'⟩ := h.names_other hfile'
      exact hname' ▸ temporary_ne hstore target' processId

theorem reopen (h : Safe serde fs processId mine other)
    (htodo : Finishes serde none todo) (error : Option IoError) :
    Safe serde (fs.openAppend journalFile).1 processId { todo := todo, error := error } other := by
  have hjournal : journalFile ∈ storeFiles := by simp [storeFiles]
  obtain ⟨hwf, -, hread, hnames, hinodes⟩ := FileSystem.openAppend_spec h.wellFormed journalFile
  refine ⟨hwf, ?_, htodo, ?_, by simp⟩
  · intro name hstore bytes hbytes
    by_cases hsame : name = journalFile
    · subst hsame
      rw [hread] at hbytes
      obtain rfl := Option.some.inj hbytes
      cases hold : fs.read journalFile with
      | none => exact .journal [] (by simp)
      | some content => exact h.complete _ hjournal content hold
    · exact h.complete_frame hstore (hnames name hsame)
        (fun inode hinode => hinodes inode (h.wellFormed.bounded name inode hinode)) hbytes
  · refine owned_frame h.ownedOther fun file hfile => ?_
    obtain ⟨hname, target, htarget⟩ := h.names_other hfile
    exact ⟨hnames _ (htarget ▸ temporary_ne hjournal target processId),
      hinodes _ (h.wellFormed.bounded _ _ hname)⟩

theorem parse_journal (h : Safe serde fs processId mine other) (path : String) :
    ∃ entries, parse serde path (fs.read journalFile) = .ok (entries, none) ∧
      ∀ entry ∈ entries, Fits serde entry := by
  cases hread : fs.read journalFile with
  | none => exact ⟨[], rfl, by simp⟩
  | some bytes =>
    obtain ⟨entries, hfits, rfl⟩ :=
      (h.complete journalFile (by simp [storeFiles]) bytes hread).exists_entries rfl
    exact ⟨entries, parse_complete path hfits, hfits⟩

end Safe

section Steps

variable {serde : Serde} {store : StateMachineStore}

theorem complete_snapshotOf (h : store.state.state.WellFormed) :
    Complete serde snapshotFile (serde.snapshot.encode (store.snapshotOf serde)) :=
  .snapshot
    { stored := store.snapshotOf serde
      persisted := .ofState store.state.state
      valid := validateSnapshotData_encode h
      wellFormed := by rw [toState_ofState]; exact h }

variable {todo : List Action}

theorem finishes_storeSnapshot (h : store.state.state.WellFormed)
    (htodo : Finishes serde none todo) :
    Finishes serde none (storeSnapshot serde (store.snapshotOf serde) ++ todo) := by
  rw [storeSnapshot, persistSnapshot, List.append_assoc, List.append_assoc]
  refine finishes_atomicWrite (complete_snapshotOf h) ?_
  simpa [compactJournal, Finishes] using htodo

variable [ToString LogId]

variable {actor : Actor} {after : Process} {action : Action} {next : StateMachineStore}

theorem perform_open_safe {other : Process} {file : TemporaryFile} {error : Option IoError}
    (h : Safe serde store.fs store.processId ⟨action :: todo, some file, error⟩ other)
    (hstate : store.state.state.WellFormed)
    (hperform : perform serde actor store ⟨action :: todo, some file, error⟩ todo action =
      some (next, after)) :
    Safe serde next.fs next.processId after other ∧ next.state.state.WellFormed := by
  have howned := h.ownedMine
  cases action
  case write bytes =>
    obtain ⟨rfl, rfl⟩ := Prod.mk.inj (Option.some.inj hperform)
    exact ⟨h.write rfl rfl error, hstate⟩
  case syncAll =>
    obtain ⟨rfl, rfl⟩ := Prod.mk.inj (Option.some.inj hperform)
    exact ⟨⟨h.wellFormed, h.complete, howned, h.ownedOther, h.apart⟩, hstate⟩
  case rename target =>
    obtain ⟨fs, hrename, hsafe⟩ := h.rename rfl error
    rw [perform, hrename] at hperform
    obtain ⟨rfl, rfl⟩ := Prod.mk.inj (Option.some.inj hperform)
    exact ⟨hsafe, hstate⟩
  all_goals simp [Owned, Finishes] at howned

/-- One step of a task without an open file that does not create the other's temporary file. -/
theorem perform_closed_safe {other : Process} {error : Option IoError}
    (h : Safe serde store.fs store.processId ⟨action :: todo, none, error⟩ other)
    (hstate : store.state.state.WellFormed)
    (hclash : ∀ target, action = .create target → ∀ temporary ∈ other.file,
      temporary.name ≠ FileName.temporary target store.processId)
    (hperform : perform serde actor store ⟨action :: todo, none, error⟩ todo action =
      some (next, after)) :
    Safe serde next.fs next.processId after other ∧ next.state.state.WellFormed := by
  have howned : Finishes serde none (action :: todo) := h.ownedMine
  cases action
  case write | syncAll | rename | appendJournal | applyEntries | syncData =>
    simp [Finishes] at howned
  case create target =>
    obtain ⟨rfl, rfl⟩ := Prod.mk.inj (Option.some.inj hperform)
    exact ⟨h.create howned (hclash target rfl) error, hstate⟩
  case setState data =>
    obtain ⟨hdata, hrest⟩ : _ ∧ _ := by simpa only [Finishes] using howned
    obtain ⟨rfl, rfl⟩ := Prod.mk.inj (Option.some.inj hperform)
    exact ⟨h.of_todo hrest error, hdata⟩
  case fail reason =>
    obtain ⟨rfl, rfl⟩ := Prod.mk.inj (Option.some.inj hperform)
    exact ⟨h.of_todo (show Finishes serde none [] by simp [Finishes]) (some reason), hstate⟩
  all_goals have hrest : Finishes serde none todo := by simpa only [Finishes] using howned
  case reopenJournal =>
    obtain ⟨rfl, rfl⟩ := Prod.mk.inj (Option.some.inj hperform)
    exact ⟨h.reopen hrest error, hstate⟩
  case readJournal lastAppliedLog =>
    obtain ⟨entries, hparse, hfits⟩ := h.parse_journal (journalFile.display store.path)
    rw [perform, hparse] at hperform
    obtain ⟨rfl, rfl⟩ := Prod.mk.inj (Option.some.inj hperform)
    exact ⟨h.of_todo (finishes_rewriteJournal
      (fun entry hentry => hfits entry (List.mem_of_mem_filter hentry)) hrest) error, hstate⟩
  case capture =>
    rw [perform] at hperform
    split_ifs at hperform
    obtain ⟨rfl, rfl⟩ := Prod.mk.inj (Option.some.inj hperform)
    exact ⟨h.of_todo (finishes_storeSnapshot hstate hrest) error, hstate⟩
  case lockState | lockJournal =>
    rw [perform] at hperform
    split_ifs at hperform
    obtain ⟨rfl, rfl⟩ := Prod.mk.inj (Option.some.inj hperform)
    exact ⟨h.of_todo hrest error, hstate⟩
  all_goals
    obtain ⟨rfl, rfl⟩ := Prod.mk.inj (Option.some.inj hperform)
    exact ⟨h.of_todo hrest error, hstate⟩

theorem perform_keeps_files {process : Process} {name : FileName} (hname : name ∈ storeFiles)
    (hsome : (store.fs.names name).isSome)
    (hperform : perform serde actor store process todo action = some (next, after)) :
    (next.fs.names name).isSome := by
  cases action
  case create target =>
    obtain ⟨rfl, rfl⟩ := Prod.mk.inj (Option.some.inj hperform)
    exact FileSystem.isSome_create hsome _
  case reopenJournal =>
    obtain ⟨rfl, rfl⟩ := Prod.mk.inj (Option.some.inj hperform)
    exact FileSystem.isSome_openAppend hsome _
  case rename target =>
    rw [perform] at hperform
    split at hperform
    · obtain ⟨rfl, rfl⟩ := Prod.mk.inj (Option.some.inj hperform)
      exact hsome
    · next fs hrename =>
      obtain ⟨rfl, rfl⟩ := Prod.mk.inj (Option.some.inj hperform)
      exact FileSystem.isSome_rename hsome (temporary_ne hname target _).symm hrename
  case readJournal lastAppliedLog =>
    rw [perform] at hperform
    split at hperform
    · obtain ⟨rfl, rfl⟩ := Prod.mk.inj (Option.some.inj hperform)
      exact hsome
    · next entries truncatedAt hparse =>
      obtain ⟨rfl, rfl⟩ := Prod.mk.inj (Option.some.inj hperform)
      cases truncatedAt with
      | none => exact hsome
      | some len => exact (FileSystem.names_setLen _ _ _).symm ▸ hsome
  case write bytes | applyEntries entries =>
    rw [perform] at hperform
    obtain ⟨result, -, hresult⟩ := Option.map_eq_some_iff.1 hperform
    obtain ⟨rfl, rfl⟩ := Prod.mk.inj hresult
    exact hsome
  case capture | lockState | lockJournal =>
    rw [perform] at hperform
    split_ifs at hperform
    obtain ⟨rfl, rfl⟩ := Prod.mk.inj (Option.some.inj hperform)
    exact hsome
  all_goals
    obtain ⟨rfl, rfl⟩ := Prod.mk.inj (Option.some.inj hperform)
    exact hsome

end Steps

end Runnel.Store
