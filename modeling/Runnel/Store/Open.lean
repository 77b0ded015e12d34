import Runnel.Foundation.Path
import Runnel.Store.Journal

/-!
# Opening a store

A store is recovered from its checkpoint or its snapshot, whichever is later, and
the journal behind it.
-/

namespace Runnel.Store

open Runnel.Cluster Runnel.Engine Bytes

abbrev FileName := Bytes

namespace FileName

def display (path : String) (name : FileName) : String :=
  path ++ "/" ++ (fromUtf8? name).getD ""

end FileName

def checkpointFile : FileName := utf8 "state-machine.json"

def journalFile : FileName := utf8 "state-machine.log"

def snapshotFile : FileName := utf8 "snapshot.json"

abbrev Directory := FileSystem FileName

variable (serde : Serde)

def groupConsumerEntries (consumers : List PersistedGroupConsumer) :
    List (String × String × GroupConsumerState) :=
  consumers.map fun consumer => (consumer.stream, consumer.consumer, consumer.state)

def readPersistedState (path : String) :
    Option Bytes → Except BrokerError (Option PersistedState)
  | none => .ok none
  | some bytes =>
    match serde.checkpoint.decode bytes with
    | .error error => .error (.cluster s!"invalid persisted state-machine '{path}': {error}")
    | .ok persisted =>
      if persisted.body.version ≠ formatVersion then
        let version := persisted.body.version
        .error (.cluster (s!"unsupported state-machine format version {version} in '{path}' " ++
          s!"(checkpoint; supported version {formatVersion})"))
      else
        match validateGroupConsumerEntries (groupConsumerEntries persisted.body.groupConsumers) with
        | .error error => .error (.cluster s!"invalid persisted state-machine '{path}': {error}")
        | .ok () => .ok (some persisted)

def readPersistedSnapshot (path : String) :
    Option Bytes → Except BrokerError (Option StoredSnapshot)
  | none => .ok none
  | some bytes =>
    match serde.snapshot.decode bytes with
    | .error error => .error (.cluster s!"invalid persisted snapshot '{path}': {error}")
    | .ok snapshot => .ok (some snapshot)

def validateSnapshotData (data : Bytes) : Except String PersistedSnapshotState :=
  match serde.snapshotState.decode data with
  | .error error => .error error
  | .ok persisted =>
    if persisted.version ≠ formatVersion then
      let version := persisted.version
      .error s!"unsupported snapshot format version {version} (supported version {formatVersion})"
    else
      match validateGroupConsumerEntries (groupConsumerEntries persisted.groupConsumers) with
      | .error error => .error error
      | .ok () => .ok persisted

/-- The checkpoint, or the state of the snapshot if that is later. -/
def chooseBase (path : String) (state : StateMachineData) :
    Option StoredSnapshot → Except BrokerError (StateMachineData × Option StoredSnapshot)
  | none => .ok (state, none)
  | some snapshot =>
    match validateSnapshotData serde snapshot.data with
    | .error error => .error (.cluster s!"invalid persisted snapshot '{path}': {error}")
    | .ok persisted =>
      if isOptionalLogAfter snapshot.snapshotMeta.lastLogId state.lastAppliedLog then
        .ok ({ lastAppliedLog := snapshot.snapshotMeta.lastLogId
               lastMembership := snapshot.snapshotMeta.lastMembership
               state := persisted.toState }, some snapshot)
      else .ok (state, some snapshot)

def loadBase (path : String) (fs : Directory) :
    Except BrokerError (StateMachineData × Option StoredSnapshot) := do
  let persisted ← readPersistedState serde (checkpointFile.display path) (fs.read checkpointFile)
  let snapshot ← readPersistedSnapshot serde (snapshotFile.display path) (fs.read snapshotFile)
  chooseBase serde (snapshotFile.display path) (persisted.elim {} PersistedState.toData) snapshot

/-- Whoever runs steps on the store. -/
inductive Actor where
  | builder
  | worker
deriving DecidableEq, Repr

/-- An open store with its directory. The journal is held by its inode; the state is locked
by the worker, the journal by whoever writes it. -/
structure StateMachineStore where
  fs : Directory
  path : String
  processId : ℕ
  kind : GroupKind
  state : StateMachineData
  currentSnapshot : Option StoredSnapshot
  snapshotIdx : ℕ := 0
  journal : ℕ
  stateLocked : Bool := false
  journalOwner : Option Actor := none

/-- Opens a directory; `none` is a panic while entries are replayed. -/
def openStore [ToString LogId] (path : String) (processId : ℕ) (kind : GroupKind) (fs : Directory) :
    Option (Except BrokerError StateMachineStore) :=
  match loadBase serde path fs with
  | .error error => some (.error error)
  | .ok (base, currentSnapshot) =>
    match parse serde (journalFile.display path) (fs.read journalFile) with
    | .error error => some (.error error)
    | .ok (entries, truncatedAt) =>
      let fs := truncatedAt.elim fs (fs.setLen journalFile)
      (replay kind base entries).map fun state =>
        match validateGroupConsumerEntries
            (state.state.groupConsumers.toList.map fun entry =>
              (entry.1.1, entry.1.2, entry.2)) with
        | .error error =>
          .error (.cluster s!"invalid recovered state-machine '{path}': {error}")
        | .ok () =>
          let (fs, journal) := fs.openAppend journalFile
          .ok { fs, path, processId, kind, state, currentSnapshot, journal }

/-- A snapshot whose data is accepted. -/
structure ValidSnapshot where
  stored : StoredSnapshot
  persisted : PersistedSnapshotState
  valid : validateSnapshotData serde stored.data = .ok persisted
  wellFormed : persisted.toState.WellFormed

def ValidSnapshot.data {serde : Serde} (snapshot : ValidSnapshot serde) : StateMachineData where
  lastAppliedLog := snapshot.stored.snapshotMeta.lastLogId
  lastMembership := snapshot.stored.snapshotMeta.lastMembership
  state := snapshot.persisted.toState

/-- What the files of a directory stand for; the journal may end in an unfinished record. -/
structure Contents where
  checkpoint : Option { data : StateMachineData // data.state.WellFormed } := none
  snapshot : Option (ValidSnapshot serde) := none
  entries : List { entry : JournalEntry // Fits serde entry } := []
  part : { part : Bytes // Unfinished serde part } := ⟨[], Or.inl rfl⟩

namespace Contents

variable {serde} (contents : Contents serde)

/-- The recovered data before the journal is replayed. -/
def base : StateMachineData :=
  let checkpoint := contents.checkpoint.elim {} Subtype.val
  match contents.snapshot with
  | none => checkpoint
  | some snapshot =>
    if isOptionalLogAfter snapshot.data.lastAppliedLog checkpoint.lastAppliedLog then snapshot.data
    else checkpoint

def journal : List JournalEntry := contents.entries.map Subtype.val

/-- The directory holds the contents; a missing journal is an empty one. -/
structure WrittenIn (fs : Directory) : Prop where
  checkpoint : fs.read checkpointFile =
    contents.checkpoint.map fun data => serde.checkpoint.encode (.ofData data.1)
  snapshot : fs.read snapshotFile =
    contents.snapshot.map fun snapshot => serde.snapshot.encode snapshot.stored
  journal : (fs.read journalFile).getD [] = recordFrames serde contents.journal ++ contents.part.1

theorem base_wellFormed : contents.base.state.WellFormed := by
  have hcheckpoint : (contents.checkpoint.elim {} Subtype.val).state.WellFormed := by
    cases contents.checkpoint with
    | none => intro key consumer hget; simp at hget
    | some data => exact data.2
  unfold base
  split
  · exact hcheckpoint
  · simp only
    split_ifs
    · exact ValidSnapshot.wellFormed _
    · exact hcheckpoint

end Contents

variable {serde}

theorem validateGroupConsumerEntries_of_state {state : SnapshotState} (h : state.WellFormed) :
    validateGroupConsumerEntries
      (state.groupConsumers.toList.map fun entry => (entry.1.1, entry.1.2, entry.2)) = .ok () := by
  refine validateGroupConsumerEntries_of_wellFormed fun entry hentry => ?_
  obtain ⟨⟨key, consumer⟩, hmem, rfl⟩ := List.mem_map.1 hentry
  exact ⟨_, h key consumer (Std.ExtTreeMap.mem_toList_iff_getElem?_eq_some.1 hmem)⟩

theorem groupConsumerEntries_ofState (state : SnapshotState) :
    groupConsumerEntries (PersistedSnapshotState.ofState state).groupConsumers =
      state.groupConsumers.toList.map fun entry => (entry.1.1, entry.1.2, entry.2) := by
  simp [groupConsumerEntries, PersistedSnapshotState.ofState]

theorem readPersistedState_encode (path : String) {data : StateMachineData}
    (h : data.state.WellFormed) :
    readPersistedState serde path (some (serde.checkpoint.encode (.ofData data))) =
      .ok (some (.ofData data)) := by
  rw [readPersistedState, serde.checkpoint.decode_encode]
  simp only [PersistedState.ofData, groupConsumerEntries_ofState,
    validateGroupConsumerEntries_of_state h]
  exact if_neg (not_not.2 rfl)

theorem readPersistedSnapshot_encode (path : String) (snapshot : StoredSnapshot) :
    readPersistedSnapshot serde path (some (serde.snapshot.encode snapshot)) =
      .ok (some snapshot) := by
  rw [readPersistedSnapshot, serde.snapshot.decode_encode]

theorem validateSnapshotData_encode {state : SnapshotState} (h : state.WellFormed) :
    validateSnapshotData serde (serde.snapshotState.encode (.ofState state)) =
      .ok (.ofState state) := by
  rw [validateSnapshotData, serde.snapshotState.decode_encode]
  simp only [groupConsumerEntries_ofState, validateGroupConsumerEntries_of_state h]
  exact if_neg (not_not.2 rfl)

theorem loadBase_of_contents (path : String) {contents : Contents serde} {fs : Directory}
    (h : contents.WrittenIn fs) :
    loadBase serde path fs =
      .ok (contents.base, contents.snapshot.map ValidSnapshot.stored) := by
  have hcheckpoint : readPersistedState serde (checkpointFile.display path)
      (fs.read checkpointFile) =
        .ok (contents.checkpoint.map fun data => PersistedState.ofData data.1) := by
    rw [h.checkpoint]
    cases contents.checkpoint with
    | none => rfl
    | some data => exact readPersistedState_encode _ data.2
  have hstate : (contents.checkpoint.map fun data => PersistedState.ofData data.1).elim {}
      PersistedState.toData = contents.checkpoint.elim {} Subtype.val := by
    cases contents.checkpoint with
    | none => rfl
    | some data => exact toData_ofData data.1
  have hsnapshot : readPersistedSnapshot serde (snapshotFile.display path)
      (fs.read snapshotFile) = .ok (contents.snapshot.map ValidSnapshot.stored) := by
    rw [h.snapshot]
    cases contents.snapshot with
    | none => rfl
    | some snapshot => exact readPersistedSnapshot_encode _ snapshot.stored
  rw [loadBase, hcheckpoint, hsnapshot]
  change chooseBase serde (snapshotFile.display path) _ _ = _
  rw [hstate, Contents.base]
  cases contents.snapshot with
  | none => rfl
  | some snapshot =>
    simp only [Option.map_some, chooseBase, snapshot.valid]
    by_cases hlater : isOptionalLogAfter snapshot.data.lastAppliedLog
        (contents.checkpoint.elim {} Subtype.val).lastAppliedLog = true
    · rw [if_pos hlater]
      exact if_pos hlater
    · rw [if_neg hlater]
      exact if_neg hlater

section Recovery

variable [ToString LogId] {kind : GroupKind}

theorem applyEntry_wellFormed {data : StateMachineData} (h : data.state.WellFormed)
    (logId : LogId) (payload : EntryPayload) :
    ∃ after, applyEntry kind data logId payload = some after ∧ after.state.WellFormed ∧
      after.lastAppliedLog = some logId := by
  cases payload with
  | blank => exact ⟨_, rfl, h, rfl⟩
  | membership membership => exact ⟨_, rfl, h, rfl⟩
  | normal command =>
    obtain ⟨state, response, happly, heffect⟩ := applyCommand_effect h command kind logId
    exact ⟨_, by rw [applyEntry, happly, Option.map_some], heffect.wellFormed h, rfl⟩

theorem replay_wellFormed {data : StateMachineData} (h : data.state.WellFormed)
    (entries : List JournalEntry) :
    ∃ after, replay kind data entries = some after ∧ after.state.WellFormed := by
  induction entries generalizing data with
  | nil => exact ⟨data, rfl, h⟩
  | cons entry rest ih =>
    rw [replay, List.foldlM_cons]
    split_ifs with hcovered
    · exact ih h
    · obtain ⟨next, hnext, hwf, -⟩ := applyEntry_wellFormed h entry.logId entry.payload
      rw [hnext]
      exact ih hwf

/-- A directory with complete contents opens, at the state that the journal leads to. -/
theorem openStore_of_contents (path : String) (processId : ℕ) {contents : Contents serde}
    {fs : Directory} (h : contents.WrittenIn fs) :
    ∃ store, openStore serde path processId kind fs = some (.ok store) ∧
      replay kind contents.base contents.journal = some store.state ∧
      store.state.state.WellFormed := by
  obtain ⟨state, hreplay, hwf⟩ := @replay_wellFormed _ kind _ contents.base_wellFormed
    contents.journal
  obtain ⟨truncatedAt, hparse⟩ : ∃ truncatedAt, parse serde (journalFile.display path)
      (fs.read journalFile) = .ok (contents.journal, truncatedAt) := by
    have hfits : ∀ entry ∈ contents.journal, Fits serde entry := by
      intro entry hentry
      obtain ⟨found, -, rfl⟩ := List.mem_map.1 hentry
      exact found.2
    have hjournal := h.journal
    cases hread : fs.read journalFile with
    | some bytes =>
      rw [hread, Option.getD_some] at hjournal
      rw [hjournal]
      exact ⟨_, parse_frames _ hfits contents.part.2⟩
    | none =>
      rw [hread, Option.getD_none] at hjournal
      have hempty := (List.append_eq_nil_iff.1 hjournal.symm).1
      have hlen := @length_le_recordFrames serde contents.journal
      rw [hempty, List.length_nil] at hlen
      rw [List.length_eq_zero_iff.1 (Nat.le_zero.1 hlen)]
      exact ⟨none, rfl⟩
  rw [openStore, loadBase_of_contents path h]
  simp only [hparse, hreplay, Option.map_some, validateGroupConsumerEntries_of_state hwf]
  exact ⟨_, rfl, rfl, hwf⟩

end Recovery

section History

variable [ToString LogId] {kind : GroupKind} {data after : StateMachineData}
  {entries : List JournalEntry}

/-- Applies the entries of a log in their order, as the open store does. -/
def applyEntries (kind : GroupKind) (data : StateMachineData) (entries : List JournalEntry) :
    Option StateMachineData :=
  entries.foldlM (fun data entry => applyEntry kind data entry.logId entry.payload) data

/-- Some part of the history, from its start, leads to the data. -/
def Reached (kind : GroupKind) (history : List JournalEntry) (data : StateMachineData) : Prop :=
  ∃ applied, applied <+: history ∧ applyEntries kind {} applied = some data

theorem lastAppliedLog_applyEntry {logId : LogId} {payload : EntryPayload}
    (h : applyEntry kind data logId payload = some after) : after.lastAppliedLog = some logId := by
  cases payload with
  | blank => exact Option.some.inj h ▸ rfl
  | membership membership => exact Option.some.inj h ▸ rfl
  | normal command =>
    obtain ⟨result, -, rfl⟩ := Option.map_eq_some_iff.1 h
    rfl

theorem covered_replay {logId : LogId} (hreplay : replay kind data entries = some after)
    (h : covered data logId ∨ ∃ entry ∈ entries, entry.logId = logId) : covered after logId := by
  induction entries generalizing data with
  | nil =>
    obtain rfl := Option.some.inj hreplay
    simpa using h
  | cons entry rest ih =>
    rw [replay, List.foldlM_cons] at hreplay
    split_ifs at hreplay with hcovered
    · refine ih hreplay ?_
      obtain hdata | ⟨found, hfound, rfl⟩ := h
      · exact Or.inl hdata
      · rcases List.mem_cons.1 hfound with rfl | hrest
        · exact Or.inl hcovered
        · exact Or.inr ⟨found, hrest, rfl⟩
    · obtain ⟨next, hnext, hlater⟩ := Option.bind_eq_some_iff.1 hreplay
      refine ih hlater ?_
      have hlast := lastAppliedLog_applyEntry hnext
      obtain hdata | ⟨found, hfound, rfl⟩ := h
      · left
        cases hbefore : data.lastAppliedLog with
        | none => simp [covered, hbefore] at hdata
        | some last =>
          simp only [covered, hbefore, hlast, Option.any_some, isLogAfter, Bool.not_eq_true',
            decide_eq_false_iff_not, not_not] at hdata hcovered ⊢
          omega
      · rcases List.mem_cons.1 hfound with rfl | hrest
        · exact Or.inl (by simp [covered, hlast, isLogAfter])
        · exact Or.inr ⟨found, hrest, rfl⟩

theorem replay_of_covered (h : ∀ entry ∈ entries, covered data entry.logId) :
    replay kind data entries = some data := by
  induction entries with
  | nil => rfl
  | cons entry rest ih =>
    obtain ⟨hentry, hrest⟩ := List.forall_mem_cons.1 h
    rw [replay, List.foldlM_cons, if_pos hentry]
    exact ih hrest

theorem replay_append (first later : List JournalEntry) :
    replay kind data (first ++ later) =
      (replay kind data first).bind fun data => replay kind data later :=
  List.foldlM_append

theorem replay_eq_applyEntries
    (hordered : entries.Pairwise fun first later => isLogAfter later.logId first.logId)
    (hnew : ∀ entry ∈ entries, ¬ covered data entry.logId) :
    replay kind data entries = applyEntries kind data entries := by
  induction entries generalizing data with
  | nil => rfl
  | cons entry rest ih =>
    obtain ⟨hlater, hrest⟩ := List.pairwise_cons.1 hordered
    rw [replay, applyEntries, List.foldlM_cons, List.foldlM_cons,
      if_neg (hnew entry List.mem_cons_self)]
    cases hnext : applyEntry kind data entry.logId entry.payload with
    | none => rfl
    | some next =>
      refine ih hrest fun later hmem => ?_
      simp [covered, lastAppliedLog_applyEntry hnext, hlater later hmem]

theorem Contents.reached_base (contents : Contents serde) {history : List JournalEntry}
    (hcheckpoint : ∀ data ∈ contents.checkpoint, Reached kind history data.1)
    (hsnapshot : ∀ snapshot ∈ contents.snapshot, Reached kind history snapshot.data) :
    Reached kind history contents.base := by
  have hchecked : Reached kind history (contents.checkpoint.elim {} Subtype.val) := by
    cases hsome : contents.checkpoint with
    | none => exact ⟨[], List.nil_prefix, rfl⟩
    | some data => exact hcheckpoint data hsome
  unfold base
  split
  · exact hchecked
  · rename_i snapshot hsome
    dsimp only
    split_ifs
    · exact hsnapshot snapshot hsome
    · exact hchecked

/-- Whichever parts of the history the checkpoint and the snapshot hold, opening the directory leads
to the whole history, as long as they cover what the journal does not have: entries that were cut
off, and entries behind a snapshot that was installed over an old journal. -/
theorem open_recovers_history (path : String) (processId : ℕ) {contents : Contents serde}
    {fs : Directory} (hfiles : contents.WrittenIn fs) {history cut missing : List JournalEntry}
    (hordered : history.Pairwise fun first later => isLogAfter later.logId first.logId)
    (hcheckpoint : ∀ data ∈ contents.checkpoint, Reached kind history data.1)
    (hsnapshot : ∀ snapshot ∈ contents.snapshot, Reached kind history snapshot.data)
    (hjournal : history = cut ++ (contents.journal ++ missing))
    (hcut : ∀ entry ∈ cut, covered contents.base entry.logId)
    (hmissing : ∀ entry ∈ missing, covered contents.base entry.logId) :
    ∃ store, openStore serde path processId kind fs = some (.ok store) ∧
      applyEntries kind {} history = some store.state := by
  have happlied : ∀ applied, applied <+: history →
      replay kind {} applied = applyEntries kind {} applied := fun applied hprefix =>
    replay_eq_applyEntries (hordered.sublist hprefix.sublist) (by simp [covered])
  obtain ⟨applied, hprefix, hbase⟩ := contents.reached_base hcheckpoint hsnapshot
  rw [← happlied applied hprefix] at hbase
  obtain ⟨rest, hrest⟩ := hprefix
  obtain ⟨store, hopen, hreplay, -⟩ := @openStore_of_contents serde _ kind path processId _ _ hfiles
  refine ⟨store, hopen, ?_⟩
  have hskipped : replay kind contents.base applied = some contents.base :=
    replay_of_covered fun entry hmem => covered_replay hbase (Or.inr ⟨entry, hmem, rfl⟩)
  have hended : replay kind store.state missing = some store.state :=
    replay_of_covered fun entry hmem => covered_replay hreplay (Or.inl (hmissing entry hmem))
  calc applyEntries kind {} history
      = replay kind {} (applied ++ rest) := by rw [hrest, happlied history List.prefix_rfl]
    _ = replay kind contents.base (applied ++ rest) := by
        rw [replay_append, replay_append, hbase, hskipped]
    _ = (replay kind contents.base contents.journal).bind (replay kind · missing) := by
        rw [hrest, hjournal, replay_append, replay_of_covered hcut, Option.bind_some, replay_append]
    _ = some store.state := by rw [hreplay, Option.bind_some, hended]

end History

section Examples

open scoped LogId.Display

def StateMachineData.snapshot (serde : Serde) (id : String) (data : StateMachineData) :
    StoredSnapshot where
  snapshotMeta := ⟨data.lastAppliedLog, data.lastMembership, id⟩
  data := serde.snapshotState.encode (.ofState data.state)

def StateMachineData.validSnapshot (serde : Serde) (id : String) (data : StateMachineData)
    (h : data.state.WellFormed) : ValidSnapshot serde where
  stored := data.snapshot serde id
  persisted := .ofState data.state
  valid := validateSnapshotData_encode h
  wellFormed := by rwa [toState_ofState]

theorem data_validSnapshot {id : String} {data : StateMachineData} (h : data.state.WellFormed) :
    (data.validSnapshot serde id h).data = data := by
  rw [ValidSnapshot.data, StateMachineData.validSnapshot, toState_ofState]
  rfl

/-- A directory with a checkpoint, a snapshot and a journal. -/
def filledDirectory (serde : Serde) (checkpoint snapshot : StateMachineData) (journal : Bytes) :
    Directory where
  names name :=
    if name = checkpointFile then some 0
    else if name = snapshotFile then some 1
    else if name = journalFile then some 2
    else none
  inodes
    | 0 => serde.checkpoint.encode (.ofData checkpoint)
    | 1 => serde.snapshot.encode (snapshot.snapshot serde "snapshot-1")
    | _ => journal
  fresh := 3

def lettersGroup : GroupKind := .data "letters" "stream/letters" "group/letters/data"

/-- Two terms of a log. A record is published, delivered and acknowledged; under the next leader
the members change and two more records are published. -/
def lettersLog : List JournalEntry :=
  List.map JournalEntry.fromEntry
    [⟨⟨1, 1, 1⟩, .normal (.initializeDataStream "letters" "stream/letters" "group/letters/data")⟩,
     ⟨⟨1, 1, 2⟩, .normal (.publish "letters" none [7] 3 none)⟩,
     ⟨⟨1, 1, 3⟩, .normal (.pollGroupBatch ⟨"letters", "workers", "a", none, 10, 10000, "seed", 5,
        50, some 2, some 45, none, false⟩)⟩,
     ⟨⟨1, 1, 4⟩, .normal (.ackGroupBatch ⟨"letters", "workers", "a", [⟨0, "seed-0"⟩], 6⟩)⟩,
     ⟨⟨2, 2, 5⟩, .blank⟩,
     ⟨⟨2, 2, 6⟩, .membership { configs := [.ofList [1, 2, 3]] }⟩,
     ⟨⟨2, 2, 7⟩, .normal (.publish "letters" (some "k") [8] 4 none)⟩,
     ⟨⟨2, 2, 8⟩, .normal (.publish "letters" none [9] 5 none)⟩]

theorem lettersLog_ordered :
    lettersLog.Pairwise fun first later => isLogAfter later.logId first.logId := by decide

theorem exists_serde_letters : ∃ serde, ∀ entry ∈ lettersLog, Fits serde entry := by
  refine exists_serde_fits lettersLog (by decide) fun entry hentry => ?_
  obtain ⟨_, -, rfl⟩ := List.mem_map.1 hentry
  rfl

/-- The data after the first entries of the log. -/
def lettersData (count : ℕ) : StateMachineData :=
  (applyEntries lettersGroup {} (lettersLog.take count)).getD {}

theorem lettersData_spec (count : ℕ) :
    applyEntries lettersGroup {} (lettersLog.take count) = some (lettersData count) ∧
      (lettersData count).state.WellFormed := by
  have hempty : ({} : StateMachineData).state.WellFormed := fun key consumer hget => by simp at hget
  obtain ⟨data, hreplay, hwf⟩ :=
    @replay_wellFormed _ lettersGroup {} hempty (lettersLog.take count)
  rw [replay_eq_applyEntries (lettersLog_ordered.sublist (List.take_sublist _ _))
    (by simp [covered])] at hreplay
  rw [lettersData, hreplay]
  exact ⟨rfl, hwf⟩

/-- A checkpoint after two entries and a snapshot after four, with a journal that starts at the
second entry, goes on to the seventh and breaks off inside the eighth. -/
def lettersFiles (serde : Serde) : Directory :=
  filledDirectory serde (lettersData 2) (lettersData 4)
    (recordFrames serde ((lettersLog.take 7).drop 1) ++
      ((lettersLog.drop 7).flatMap (recordFrame serde)).take 3)

/-- Opening those files leads to the first seven entries, two of them published records. -/
theorem letters_recovered :
    (∃ serde, ∀ entry ∈ lettersLog, Fits serde entry) ∧
    ∀ serde, (∀ entry ∈ lettersLog, Fits serde entry) → ∃ store,
      openStore serde "" 7 lettersGroup (lettersFiles serde) = some (.ok store) ∧
      applyEntries lettersGroup {} (lettersLog.take 7) = some store.state ∧
      (store.state.state.messages "letters").length = 2 := by
  refine ⟨exists_serde_letters, fun serde hfits => ?_⟩
  have hjournal : ∀ entry ∈ (lettersLog.take 7).drop 1, Fits serde entry := fun entry hentry =>
    hfits entry (List.mem_of_mem_take (List.mem_of_mem_drop hentry))
  have hpart : Unfinished serde (((lettersLog.drop 7).flatMap (recordFrame serde)).take 3) := by
    obtain ⟨last, hlast⟩ : ∃ last, lettersLog.drop 7 = [last] := ⟨_, rfl⟩
    have hmem : last ∈ lettersLog.drop 7 := by simp [hlast]
    refine Or.inr ⟨last, hfits last (List.mem_of_mem_drop hmem), ?_, ?_⟩
    · rw [hlast, List.flatMap_singleton]
      exact List.take_prefix _ _
    · rw [hlast, List.flatMap_singleton, List.length_take, length_recordFrame]
      omega
  let contents : Contents serde :=
    { checkpoint := some ⟨lettersData 2, (lettersData_spec 2).2⟩
      snapshot := some ((lettersData 4).validSnapshot serde "snapshot-1" (lettersData_spec 4).2)
      entries := ((lettersLog.take 7).drop 1).pmap Subtype.mk hjournal
      part := ⟨_, hpart⟩ }
  have hentries : contents.journal = (lettersLog.take 7).drop 1 := by
    simp [contents, Contents.journal, List.map_pmap]
  have hfiles : contents.WrittenIn (lettersFiles serde) := by
    refine ⟨rfl, rfl, ?_⟩
    rw [hentries]
    rfl
  have hreached : ∀ count ≤ 7,
      Reached lettersGroup (lettersLog.take 7) (lettersData count) := fun count hle =>
    ⟨lettersLog.take count, List.take_prefix_take_left hle, (lettersData_spec count).1⟩
  have hbase : contents.base = lettersData 4 := by
    have hlater : isOptionalLogAfter (lettersData 4).lastAppliedLog
        (lettersData 2).lastAppliedLog = true := by
      decide +kernel
    rw [Contents.base]
    simp only [contents, data_validSnapshot, Option.elim_some]
    exact if_pos hlater
  obtain ⟨store, hopen, hstate⟩ := @open_recovers_history serde _ lettersGroup "" 7 contents
    (lettersFiles serde) hfiles (lettersLog.take 7) ((lettersLog.take 7).take 1) []
    (lettersLog_ordered.sublist (List.take_sublist _ _))
    (fun data hdata => Option.some.inj hdata ▸ hreached 2 (by decide))
    (fun snapshot hsnapshot => by
      rw [← Option.some.inj hsnapshot, data_validSnapshot]
      exact hreached 4 (by decide))
    (by rw [hentries, List.append_nil, List.take_append_drop])
    (by rw [hbase]; decide +kernel) (by simp)
  refine ⟨store, hopen, hstate, ?_⟩
  have hcount : (applyEntries lettersGroup {} (lettersLog.take 7)).any fun data =>
      (data.state.messages "letters").length = 2 := by
    decide +kernel
  rw [hstate] at hcount
  exact of_decide_eq_true hcount

end Examples

end Runnel.Store
