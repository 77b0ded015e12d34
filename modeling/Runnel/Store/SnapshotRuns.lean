import Runnel.Store.SnapshotWork

/-!
# Runs of concurrent snapshot work

As long as neither of a build and an install creates a temporary file that the
other has created and not yet moved to its target, every file of the store holds
complete content of its own kind after every step, each rename moves the task's
own file, and the store can be opened again.
-/

namespace Runnel.Store

open Runnel.Cluster Runnel.Engine Bytes Transition

/-- Nothing of the store is damaged. -/
structure Intact (serde : Serde) (system : System) : Prop where
  safe : Safe serde system.store.fs system.store.processId system.builder system.worker
  wellFormed : system.store.state.state.WellFormed

/-- A store on which nothing runs, with complete files. -/
structure Idle (serde : Serde) (system : System) : Prop where
  builder : system.builder = {}
  worker : system.worker = {}
  wellFormed : system.store.fs.WellFormed
  complete : ∀ name ∈ storeFiles, ∀ bytes, system.store.fs.read name = some bytes →
    Complete serde name bytes
  state : system.store.state.state.WellFormed

/-- Snapshot work only: builds, and installs of snapshots that another node built. -/
def IsSnapshotWork (serde : Serde) : Event → Prop
  | .build => True
  | .apply _ => False
  | .install snapshot => ∀ persisted, validateSnapshotData serde snapshot.data = .ok persisted →
      persisted.toState.WellFormed
  | .step _ => True

def SnapshotStep [ToString LogId] (serde : Serde) : System → Event → System → Prop :=
  guarded (fun _ event => IsSnapshotWork serde event) (SystemStep serde)

def Actor.other : Actor → Actor
  | .builder => .worker
  | .worker => .builder

/-- A task does not create a temporary file that the other one has open. -/
def NoClash (system : System) : Event → Prop
  | .step actor => ∀ target todo, (system.process actor).todo = .create target :: todo →
      ∀ file ∈ (system.process actor.other).file,
        file.name ≠ FileName.temporary target system.store.processId
  | _ => True

section Runs

variable {serde : Serde} {system start : System}

theorem Idle.intact (h : Idle serde system) : Intact serde system where
  safe :=
    { wellFormed := h.wellFormed
      complete := h.complete
      ownedMine := by rw [h.builder]; simp [Owned, Finishes]
      ownedOther := by rw [h.worker]; simp [Owned, Finishes]
      apart := by simp [h.builder] }
  wellFormed := h.state

theorem finishes_installSnapshot {snapshot : StoredSnapshot}
    (h : IsSnapshotWork serde (.install snapshot)) :
    Finishes serde none (installSnapshot serde snapshot) := by
  rw [installSnapshot]
  split
  · simp [Finishes]
  · next persisted hvalid =>
    have hwf := h persisted hvalid
    simp only [persistSnapshot, persistCheckpoint, List.cons_append, List.append_assoc]
    simp only [Finishes]
    refine finishes_atomicWrite (.snapshot ⟨snapshot, persisted, hvalid, hwf⟩) ?_
    refine finishes_atomicWrite (.checkpoint _ hwf) ?_
    simp [compactJournal, Finishes, hwf]

variable [ToString LogId]

theorem perform_safe {actor : Actor} {mine other after : Process} {todo : List Action}
    {action : Action} {store next : StateMachineStore}
    (h : Safe serde store.fs store.processId mine other) (hstate : store.state.state.WellFormed)
    (htodo : mine.todo = action :: todo)
    (hclash : ∀ target, action = .create target → ∀ temporary ∈ other.file,
      temporary.name ≠ FileName.temporary target store.processId)
    (hperform : perform serde actor store mine todo action = some (next, after)) :
    Safe serde next.fs next.processId after other ∧ next.state.state.WellFormed := by
  obtain ⟨_, file, error⟩ := mine
  obtain rfl := htodo
  cases file with
  | some file => exact perform_open_safe h hstate hperform
  | none => exact perform_closed_safe h hstate hclash hperform

theorem Intact.step {event : Event} {after : System} (h : Intact serde system)
    (hclash : NoClash system event) (hstep : SnapshotStep serde system event after) :
    Intact serde after := by
  obtain ⟨hwork, hnext⟩ := hstep
  obtain ⟨hsafe, hstate⟩ := h
  cases event with
  | apply entries => exact hwork.elim
  | build =>
    rw [SystemStep, System.next] at hnext
    split_ifs at hnext
    obtain rfl := Option.some.inj hnext
    exact ⟨hsafe.of_todo (show Finishes serde none [.capture] by simp [Finishes]) none, hstate⟩
  | install snapshot =>
    rw [SystemStep, System.next] at hnext
    split_ifs at hnext
    obtain rfl := Option.some.inj hnext
    exact ⟨(hsafe.symm.of_todo (finishes_installSnapshot hwork) none).symm, hstate⟩
  | step actor =>
    rw [SystemStep, System.next] at hnext
    split at hnext
    · cases hnext
    · next action todo htodo =>
      obtain ⟨⟨store, process⟩, hperform, rfl⟩ := Option.map_eq_some_iff.1 hnext
      have hfree : ∀ target, action = .create target →
          ∀ file ∈ (system.process actor.other).file,
            file.name ≠ FileName.temporary target system.store.processId := by
        intro target heq
        exact hclash target todo (heq ▸ htodo)
      cases actor with
      | builder =>
        obtain ⟨hafter, hwf⟩ := perform_safe hsafe hstate htodo hfree hperform
        exact ⟨hafter, hwf⟩
      | worker =>
        obtain ⟨hafter, hwf⟩ := perform_safe hsafe.symm hstate htodo hfree hperform
        exact ⟨hafter.symm, hwf⟩

theorem SnapshotStep.keeps_files {event : Event} {after : System} {name : FileName}
    (hname : name ∈ storeFiles) (hsome : (system.store.fs.names name).isSome)
    (hstep : SnapshotStep serde system event after) : (after.store.fs.names name).isSome := by
  obtain ⟨-, hnext⟩ := hstep
  cases event with
  | build | apply | install =>
    rw [SystemStep, System.next] at hnext
    split_ifs at hnext
    obtain rfl := Option.some.inj hnext
    exact hsome
  | step actor =>
    rw [SystemStep, System.next] at hnext
    split at hnext
    · cases hnext
    · obtain ⟨⟨store, process⟩, hperform, rfl⟩ := Option.map_eq_some_iff.1 hnext
      have hkept := perform_keeps_files hname hsome hperform
      cases actor <;> exact hkept

omit [ToString LogId] in
theorem Intact.exists_contents (h : Intact serde system) :
    ∃ contents : Contents serde, contents.WrittenIn system.store.fs := by
  have hcomplete := h.safe.complete
  obtain ⟨checkpoint, hcheckpoint⟩ : ∃ checkpoint :
      Option { data : StateMachineData // data.state.WellFormed },
      system.store.fs.read checkpointFile =
        checkpoint.map fun data => serde.checkpoint.encode (.ofData data.1) := by
    cases hread : system.store.fs.read checkpointFile with
    | none => exact ⟨none, rfl⟩
    | some bytes =>
      obtain ⟨data, hwf, rfl⟩ :=
        (hcomplete checkpointFile (by simp [storeFiles]) bytes hread).exists_data rfl
      exact ⟨some ⟨data, hwf⟩, rfl⟩
  obtain ⟨snapshot, hsnapshot⟩ : ∃ snapshot : Option (ValidSnapshot serde),
      system.store.fs.read snapshotFile =
        snapshot.map fun snapshot => serde.snapshot.encode snapshot.stored := by
    cases hread : system.store.fs.read snapshotFile with
    | none => exact ⟨none, rfl⟩
    | some bytes =>
      obtain ⟨snapshot, rfl⟩ :=
        (hcomplete snapshotFile (by simp [storeFiles]) bytes hread).exists_snapshot rfl
      exact ⟨some snapshot, rfl⟩
  obtain ⟨entries, hfits, hjournal⟩ : ∃ entries, (∀ entry ∈ entries, Fits serde entry) ∧
      (system.store.fs.read journalFile).getD [] = recordFrames serde entries := by
    cases hread : system.store.fs.read journalFile with
    | none => exact ⟨[], by simp, rfl⟩
    | some bytes =>
      exact (hcomplete journalFile (by simp [storeFiles]) bytes hread).exists_entries rfl
  refine ⟨{ checkpoint := checkpoint
            snapshot := snapshot
            entries := entries.pmap Subtype.mk hfits }, hcheckpoint, hsnapshot, ?_⟩
  rw [hjournal, List.append_nil, Contents.journal, List.map_pmap]
  simp

theorem intact_of_run {past : List (System × Event)} (hstart : Idle serde start)
    (h : Run (· = start) (guarded NoClash (SnapshotStep serde)) past system) :
    Intact serde system := by
  apply h.invariant
  · rintro _ rfl
    exact hstart.intact
  · intro before event after hintact hstep
    exact hintact.step hstep.1 hstep.2

/-- Snapshot work whose tasks never create a temporary file that the other one has open leaves
every file of the store as it was or with complete new content, moves only files of the task's
own, and leaves a store that opens again, whatever step it is interrupted after. -/
theorem snapshot_work_keeps_store {past : List (System × Event)} (hstart : Idle serde start)
    (h : Run (· = start) (guarded NoClash (SnapshotStep serde)) past system) :
    (∀ name ∈ storeFiles, system.store.fs.read name = start.store.fs.read name ∨
      ∃ bytes, system.store.fs.read name = some bytes ∧ Complete serde name bytes) ∧
    (∀ actor target todo, (system.process actor).todo = .rename target :: todo →
      ∃ file, (system.process actor).file = some file ∧
        system.store.fs.names (FileName.temporary target system.store.processId) = some file.inode ∧
        Complete serde target (system.store.fs.inodes file.inode)) ∧
    ∀ path processId kind, ∃ store,
      openStore serde path processId kind system.store.fs = some (.ok store) := by
  have hintact := intact_of_run hstart h
  refine ⟨?_, ?_, ?_⟩
  · intro name hname
    cases hread : system.store.fs.read name with
    | some bytes => exact Or.inr ⟨bytes, rfl, hintact.safe.complete name hname bytes hread⟩
    | none =>
      -- a file that is missing now was missing at the start
      refine Or.inl (Eq.symm ?_)
      by_contra hthere
      have hsome : (start.store.fs.names name).isSome := by
        rw [← Option.isSome_map (f := start.store.fs.inodes)]
        exact Option.isSome_iff_ne_none.2 hthere
      have hkept : (system.store.fs.names name).isSome := by
        apply h.invariant (I := fun system => (system.store.fs.names name).isSome)
        · rintro _ rfl
          exact hsome
        · intro before event after hbefore hstep
          exact hstep.2.keeps_files hname hbefore
      rw [← Option.isSome_map (f := system.store.fs.inodes)] at hkept
      exact Option.isSome_iff_ne_none.1 hkept hread
  · intro actor target todo htodo
    have hown : ∀ {mine other : Process},
        Safe serde system.store.fs system.store.processId mine other →
        mine.todo = .rename target :: todo → ∃ file, mine.file = some file ∧
          system.store.fs.names (FileName.temporary target system.store.processId) =
            some file.inode ∧
          Complete serde target (system.store.fs.inodes file.inode) := by
      intro mine other hsafe hmine
      obtain ⟨file, hfile, -, hnames, hcomplete, -⟩ := hsafe.rename_own hmine
      exact ⟨file, hfile, hnames, hcomplete⟩
    cases actor with
    | builder => exact hown hintact.safe htodo
    | worker => exact hown hintact.safe.symm htodo
  · intro path processId kind
    obtain ⟨contents, hwritten⟩ := hintact.exists_contents
    obtain ⟨store, hopen, -⟩ := openStore_of_contents path processId hwritten
    exact ⟨store, hopen⟩

end Runs

section Examples

open scoped LogId.Display

instance (system : System) : ∀ event, Decidable (NoClash system event)
  | .step actor =>
    match h : (system.process actor).todo with
    | .create target :: _ =>
      decidable_of_iff (∀ file ∈ (system.process actor.other).file,
          file.name ≠ FileName.temporary target system.store.processId) <| by
        simp only [NoClash, h, List.cons.injEq, Action.create.injEq]
        exact ⟨fun hfree _ _ heq => heq.1 ▸ hfree, fun hfree => hfree target _ ⟨rfl, rfl⟩⟩
    | [] | .capture :: _ | .lockState :: _ | .unlockState :: _ | .setState _ :: _
    | .applyEntries _ :: _ | .publish _ :: _ | .write _ :: _ | .syncAll :: _ | .rename _ :: _
    | .syncDirectory :: _ | .lockJournal :: _ | .readJournal _ :: _ | .appendJournal _ :: _
    | .syncData :: _ | .reopenJournal :: _ | .unlockJournal :: _ | .fail _ :: _ =>
      isTrue (by simp [NoClash, h])
  | .build => isTrue trivial
  | .apply _ => isTrue trivial
  | .install _ => isTrue trivial

section Tasks

variable {serde : Serde} {system : System} {data : StateMachineData}

def withInstall (serde : Serde) (data : StateMachineData) (system : System) : System :=
  { system with
    worker := { todo := .lockState :: persistSnapshot serde (data.snapshot serde "snapshot-1") ++
      persistCheckpoint serde data ++ compactJournal data.lastAppliedLog ++
      [.setState data, .unlockState, .publish (data.snapshot serde "snapshot-1")] } }

theorem next_install (hwf : data.state.WellFormed) (h : system.worker.todo = []) :
    system.next serde (.install (data.snapshot serde "snapshot-1")) =
      some (withInstall serde data system) := by
  rw [System.next, h, installSnapshot, StateMachineData.snapshot, validateSnapshotData_encode hwf]
  simp only [toState_ofState]
  rfl

theorem isSnapshotWork_install (hwf : data.state.WellFormed) :
    IsSnapshotWork serde (.install (data.snapshot serde "snapshot-1")) := by
  intro persisted hvalid
  rw [StateMachineData.snapshot, validateSnapshotData_encode hwf] at hvalid
  obtain rfl := Except.ok.inj hvalid
  rwa [toState_ofState]

/-- The system whose build has read a journal of which nothing is retained. -/
def withJournalRead (serde : Serde) (todo : List Action) (system : System) : System :=
  { system with builder := { system.builder with todo := rewriteJournal serde [] ++ todo } }

theorem next_readJournal {last : Option LogId} {todo : List Action} {entries : List JournalEntry}
    (htodo : system.builder.todo = .readJournal last :: todo)
    (hread : system.store.fs.read journalFile = some (recordFrames serde entries))
    (hfits : ∀ entry ∈ entries, Fits serde entry)
    (hcovered : ∀ entry ∈ entries, last.all (isLogAfter entry.logId) = false) :
    system.next serde (.step .builder) = some (withJournalRead serde todo system) := by
  have hretained : entries.filter (fun entry => last.all fun last => isLogAfter entry.logId last) =
      [] := by
    simpa [List.filter_eq_nil_iff] using hcovered
  rw [System.next, System.process, htodo]
  simp only [perform, hread, parse_complete _ hfits, hretained]
  rfl

end Tasks

theorem step_of_next {serde : Serde} {events : List Event}
    (hevents : ∀ event ∈ events, event = .build ∨ ∃ actor, event = .step actor) :
    ∀ event ∈ events, ∀ before after, System.next serde before event = some after →
      SnapshotStep serde before event after := by
  intro event hevent before after hnext
  refine ⟨?_, hnext⟩
  rcases hevents event hevent with rfl | ⟨actor, rfl⟩
  · trivial
  · trivial

/-- A store whose checkpoint and snapshot hold the first two entries of a log and whose journal
holds the two entries behind them. -/
def lettersStore (serde : Serde) : System where
  store :=
    { fs := filledDirectory serde (lettersData 2) (lettersData 2)
        (recordFrames serde ((lettersLog.take 4).drop 2))
      path := ""
      processId := 7
      kind := lettersGroup
      state := lettersData 4
      currentSnapshot := some ((lettersData 2).snapshot serde "snapshot-1")
      snapshotIdx := 1
      journal := 2 }

theorem filledDirectory_wellFormed (serde : Serde) (checkpoint snapshot : StateMachineData)
    (journal : Bytes) : (filledDirectory serde checkpoint snapshot journal).WellFormed where
  bounded name inode h := by
    simp only [filledDirectory] at h ⊢
    split_ifs at h <;> simp_all <;> omega
  injective name other inode h h' := by
    simp only [filledDirectory] at h h'
    split_ifs at h <;> split_ifs at h' <;> simp only [Option.some.injEq] at h h' <;>
      first | omega | simp_all

theorem lettersStore_idle {serde : Serde} (hfits : ∀ entry ∈ lettersLog, Fits serde entry) :
    Idle serde (lettersStore serde) where
  builder := rfl
  worker := rfl
  wellFormed := filledDirectory_wellFormed serde _ _ _
  complete := by
    have hwf := (lettersData_spec 2).2
    intro name hname bytes hread
    simp only [storeFiles, List.mem_cons, List.not_mem_nil, or_false] at hname
    rcases hname with rfl | rfl | rfl <;> obtain rfl := Option.some.inj hread
    · exact .checkpoint _ hwf
    · exact .snapshot ((lettersData 2).validSnapshot serde "snapshot-1" hwf)
    · exact .journal _ fun entry hentry =>
        hfits entry (List.mem_of_mem_take (List.mem_of_mem_drop hentry))
  state := (lettersData_spec 4).2

theorem overlay_nil (data : Bytes) : FileSystem.overlay [] 0 data = data :=
  FileSystem.overlay_length [] data

/-- A build up to the point where it reads the journal. -/
def buildEvents : List Event := .build :: List.replicate 7 (.step .builder)

/-- The build rewrites the journal while the install writes its snapshot. The install creates its
temporary checkpoint once the build has moved its temporary journal, and rewrites the journal once
the build has given it free. -/
def overlapEvents : List Event :=
  [.step .builder, .step .worker, .step .worker, .step .builder, .step .worker, .step .builder] ++
    List.replicate 7 (.step .worker) ++ List.replicate 4 (.step .builder) ++
    List.replicate 12 (.step .worker)

/-- A build and an install that overlap without a clash: at one time both have a temporary file
open, and in the end both are done and the store holds what was installed. -/
theorem overlapping_work_keeps_store :
    (∃ serde, ∀ entry ∈ lettersLog, Fits serde entry) ∧
    ∀ serde, (∀ entry ∈ lettersLog, Fits serde entry) → ∃ past system,
      Run (· = lettersStore serde) (guarded NoClash (SnapshotStep serde)) past system ∧
      (∃ left ∈ past, left.1.builder.file.isSome ∧ left.1.worker.file.isSome) ∧
      system.builder.todo.isEmpty ∧ system.worker.todo.isEmpty ∧
      system.store.fs.read checkpointFile =
        some (serde.checkpoint.encode (.ofData (lettersData 7))) ∧
      system.store.fs.read journalFile = some [] ∧
      ∃ store, openStore serde "" 7 lettersGroup system.store.fs = some (.ok store) := by
  refine ⟨exists_serde_letters, fun serde hfits => ?_⟩
  let snapshot : StoredSnapshot := (lettersData 4).snapshot serde "snapshot-2"
  -- up to the read of the journal, whose records no computation can take apart
  have hbuilt : (follow (allowed NoClash (System.next serde)) buildEvents []
      (lettersStore serde)).map (fun result => (result.2.builder.todo, result.2.worker.todo,
        result.2.store.fs.read journalFile)) =
      some ([.readJournal (lettersData 4).lastAppliedLog, .publish snapshot], [],
        some (recordFrames serde ((lettersLog.take 4).drop 2))) := by
    with_unfolding_all rfl
  have hoverlapped : ((follow (allowed NoClash (System.next serde)) buildEvents []
      (lettersStore serde)).bind fun result =>
        follow (allowed NoClash (System.next serde)) overlapEvents
          ((withJournalRead serde [.publish snapshot] result.2,
              .install ((lettersData 7).snapshot serde "snapshot-1")) ::
            (result.2, .step .builder) :: result.1)
          (withInstall serde (lettersData 7)
            (withJournalRead serde [.publish snapshot] result.2))).map (fun result =>
        (result.1.any (fun left => left.1.builder.file.isSome && left.1.worker.file.isSome),
          result.2.builder.todo.isEmpty, result.2.worker.todo.isEmpty,
          result.2.store.fs.read checkpointFile, result.2.store.fs.read journalFile)) =
      some (true, true, true,
        some (FileSystem.overlay [] 0 (serde.checkpoint.encode (.ofData (lettersData 7)))),
        some []) := by
    with_unfolding_all rfl
  obtain ⟨⟨past, built⟩, hfollow, hfacts⟩ := Option.map_eq_some_iff.1 hbuilt
  rw [hfollow, Option.bind_some] at hoverlapped
  obtain ⟨⟨later, system⟩, hlater, hended⟩ := Option.map_eq_some_iff.1 hoverlapped
  obtain ⟨htodo, hidle, hread⟩ : _ ∧ _ ∧ _ := by simpa only [Prod.mk.injEq] using hfacts
  obtain ⟨hboth, hbuilder, hworker, hcheckpoint, hjournal⟩ : _ ∧ _ ∧ _ ∧ _ ∧ _ := by
    simpa only [Prod.mk.injEq, overlay_nil] using hended
  have hrun : Run (· = lettersStore serde) (guarded NoClash (SnapshotStep serde)) past built :=
    .of_follow (fun event hevent before after => guarded_of_allowed
      (step_of_next (by simp [buildEvents]) event hevent before after)) (.start rfl) hfollow
  have hreadStep : guarded NoClash (SnapshotStep serde) built (.step .builder)
      (withJournalRead serde [.publish snapshot] built) := by
    refine ⟨?_, trivial, next_readJournal htodo hread ?_ ?_⟩
    · intro target todo hcreate
      rw [System.process, htodo] at hcreate
      cases hcreate
    · exact fun entry hentry => hfits entry (List.mem_of_mem_take (List.mem_of_mem_drop hentry))
    · decide +kernel
  have hinstallStep := (hrun.next hreadStep).next
    (show guarded NoClash (SnapshotStep serde) _
        (.install ((lettersData 7).snapshot serde "snapshot-1")) _ from
      ⟨trivial, isSnapshotWork_install (lettersData_spec 7).2,
        next_install (lettersData_spec 7).2 hidle⟩)
  have hwhole := Run.of_follow (fun event hevent before after => guarded_of_allowed
    (step_of_next (by simp [overlapEvents]) event hevent before after)) hinstallStep hlater
  obtain ⟨left, hmem, hopen⟩ := List.any_eq_true.1 hboth
  exact ⟨later, system, hwhole, ⟨left, hmem, by simpa using hopen⟩, hbuilder, hworker, hcheckpoint,
    hjournal, (snapshot_work_keeps_store (lettersStore_idle hfits) hwhole).2.2 "" 7 lettersGroup⟩

def emptyStore : System where
  store :=
    { fs := (FileSystem.openAppend {} journalFile).1
      path := ""
      processId := 7
      kind := .combined
      state := {}
      currentSnapshot := none
      journal := 0 }

/-- The empty state at a later position. -/
def installedData : StateMachineData := { lastAppliedLog := some ⟨1, 1, 5⟩ }

theorem wellFormed_empty : SnapshotState.WellFormed {} := by
  intro key consumer hget
  simp at hget

theorem emptyStore_idle (serde : Serde) : Idle serde emptyStore where
  builder := rfl
  worker := rfl
  wellFormed := by
    refine (FileSystem.openAppend_spec ⟨?_, ?_⟩ journalFile).1
    · intro name inode hname
      cases hname
    · intro name other inode hname
      cases hname
  complete := by
    intro name hname bytes hread
    by_cases hjournal : name = journalFile
    · subst hjournal
      obtain rfl : [] = bytes := Option.some.inj hread
      exact .journal [] (by simp)
    · have hnone : emptyStore.store.fs.read name = none := by
        have hnames : emptyStore.store.fs.names name = none :=
          Function.update_of_ne hjournal _ _
        rw [FileSystem.read, hnames]
        rfl
      rw [hnone] at hread
      cases hread
  state := wellFormed_empty

/-- The install creates its temporary checkpoint, the build creates its temporary journal under
the same name, the install writes, and the build moves the file to the journal. -/
def clashEvents : List Event :=
  List.replicate 7 (.step .worker) ++
    [.step .builder, .step .worker, .step .builder, .step .builder]

theorem parse_checkpoint (serde : Serde) (path : String) (state : PersistedState) :
    parse serde path (some (serde.checkpoint.encode state)) =
      .error (.cluster "state-machine journal record is too large: 1702240891 bytes") := by
  obtain ⟨rest, hrest⟩ := serde.checkpoint_start state
  have hstart : utf8 "\x7b\"version\":" = utf8 "\x7b\"ve" ++ utf8 "rsion\":" := by decide
  have hbytes : serde.checkpoint.encode state =
      [] ++ utf8 "\x7b\"ve" ++ (utf8 "rsion\":" ++ rest) := by
    rw [← hrest, hstart]
    simp
  have hslice : slice (serde.checkpoint.encode state) 0 4 = utf8 "\x7b\"ve" :=
    slice_eq hbytes rfl (by decide)
  have hlen : 4 ≤ (serde.checkpoint.encode state).length := by
    have hfour : (utf8 "\x7b\"ve").length = 4 := by decide
    rw [hbytes]
    simp only [List.length_append, hfour]
    omega
  have hvalue : ofLe (utf8 "\x7b\"ve") = 1702240891 := by decide
  rw [parse, parseLoop, if_neg (by omega), if_neg (by omega)]
  simp only [hslice, hvalue]
  rw [if_pos (by decide)]
  rfl

/-- A build and an install that overlap: the journal ends up with the install's checkpoint, and
the store does not open again. -/
theorem shared_temporary_file_damages_journal :
    Nonempty Serde ∧ ∀ serde, ∃ past system, Idle serde emptyStore ∧
      Run (· = emptyStore) (SnapshotStep serde) past system ∧
      system.store.fs.read journalFile =
        some (serde.checkpoint.encode (.ofData installedData)) ∧
      openStore serde "" 7 .combined system.store.fs =
        some (.error (.cluster "state-machine journal record is too large: 1702240891 bytes")) := by
  refine ⟨inferInstance, fun serde => ?_⟩
  let snapshot : StoredSnapshot := installedData.snapshot serde "snapshot-1"
  have hbuilt : (follow (System.next serde) (buildEvents ++ [.step .builder]) [] emptyStore).map
      (fun result => result.2.worker.todo) = some [] := by
    with_unfolding_all rfl
  have hclashed : ((follow (System.next serde) (buildEvents ++ [.step .builder]) []
      emptyStore).bind fun result => follow (System.next serde) clashEvents
        ((result.2, .install snapshot) :: result.1)
        (withInstall serde installedData result.2)).map (fun result =>
          (result.2.store.fs.read checkpointFile, result.2.store.fs.read snapshotFile,
            result.2.store.fs.read journalFile)) =
      some (none, some (FileSystem.overlay [] 0 (serde.snapshot.encode snapshot)),
        some (FileSystem.overlay [] 0 (serde.checkpoint.encode (.ofData installedData)))) := by
    with_unfolding_all rfl
  obtain ⟨⟨past, built⟩, hfollow, hidle⟩ := Option.map_eq_some_iff.1 hbuilt
  rw [hfollow, Option.bind_some] at hclashed
  obtain ⟨⟨later, system⟩, hlater, hfiles⟩ := Option.map_eq_some_iff.1 hclashed
  obtain ⟨hcheckpoint, hsnapshot, hjournal⟩ : _ ∧ _ ∧ _ := by
    simpa only [Prod.mk.injEq, overlay_nil] using hfiles
  have hbuilding : Run (· = emptyStore) (SnapshotStep serde) past built :=
    .of_follow (step_of_next (by simp [buildEvents])) (.start rfl) hfollow
  have hrun : Run (· = emptyStore) (SnapshotStep serde) later system :=
    .of_follow (step_of_next (by simp [clashEvents])) (hbuilding.next
      ⟨isSnapshotWork_install wellFormed_empty, next_install wellFormed_empty hidle⟩) hlater
  refine ⟨later, system, emptyStore_idle serde, hrun, hjournal, ?_⟩
  have hbase : loadBase serde "" system.store.fs =
      chooseBase serde (snapshotFile.display "") {} (some snapshot) := by
    rw [loadBase, hcheckpoint, hsnapshot, readPersistedSnapshot_encode]
    rfl
  have hchoice : chooseBase serde (snapshotFile.display "") {} (some snapshot) =
      .ok (installedData, some snapshot) := by
    have hvalid : validateSnapshotData serde snapshot.data = .ok (.ofState {}) :=
      validateSnapshotData_encode wellFormed_empty
    rw [chooseBase, hvalid]
    simp only [toState_ofState]
    rfl
  rw [openStore, hbase, hchoice]
  simp only [hjournal, parse_checkpoint]

end Examples

end Runnel.Store
