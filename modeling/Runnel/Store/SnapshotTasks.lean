import Mathlib.Data.Prod.Lex
import Mathlib.Order.WithBot
import Runnel.Store.SnapshotRuns

/-!
# Snapshots in whole steps

A store serves its current snapshot from memory and keeps it in a file. Here a
build, the application of entries and an install are interleaved with every
persist as a single step, and the positions of the two snapshots are followed.
-/

namespace Runnel.Store

open Runnel.Cluster Runnel.Engine Bytes Transition

abbrev Position := WithBot (ℕ ×ₗ ℕ)

def position : Option LogId → Position
  | none => ⊥
  | some logId => ((toLex (logId.term, logId.index) : ℕ ×ₗ ℕ) : Position)

def snapshotPosition (snapshot : Option StoredSnapshot) : Position :=
  position (snapshot.bind fun stored => stored.snapshotMeta.lastLogId)

theorem isLogAfter_iff (candidate current : LogId) :
    isLogAfter candidate current ↔ position (some current) < position (some candidate) := by
  simp [isLogAfter, position, WithBot.coe_lt_coe, Prod.Lex.toLex_lt_toLex]

theorem isOptionalLogAfter_iff (candidate current : Option LogId) :
    isOptionalLogAfter candidate current ↔ position current < position candidate := by
  cases candidate with
  | none => simp [isOptionalLogAfter, position]
  | some candidate =>
    cases current with
    | none => simp [isOptionalLogAfter, position]
    | some current => exact isLogAfter_iff candidate current

/-- One step of a task, with each persist in one piece. -/
inductive SnapshotAction where
  | capture
  | lockState
  | unlockState
  | setState (data : StateMachineData)
  | applyEntries (entries : List Entry)
  | persistSnapshot (snapshot : StoredSnapshot)
  | persistCheckpoint (data : StateMachineData)
  | persistJournal (entries : List Entry)
  | compactJournal (lastAppliedLog : Option LogId)
  | publish (snapshot : StoredSnapshot)

/-- An open store, what its snapshot file holds, and the two tasks. -/
structure SnapshotSystem where
  store : StateMachineStore
  stored : Option StoredSnapshot
  builder : List SnapshotAction := []
  worker : List SnapshotAction := []

namespace SnapshotAction

/-- What a build does once it has encoded the state. -/
def storeSnapshot (snapshot : StoredSnapshot) : List SnapshotAction :=
  [persistSnapshot snapshot, compactJournal snapshot.snapshotMeta.lastLogId, publish snapshot]

def apply (entries : List Entry) : List SnapshotAction :=
  .lockState :: (if entries.isEmpty then [] else [persistJournal entries]) ++
    [applyEntries entries, unlockState]

/-- A snapshot that does not validate is refused and nothing is done. -/
def installSnapshot (serde : Serde) (snapshot : StoredSnapshot) : List SnapshotAction :=
  match validateSnapshotData serde snapshot.data with
  | .error _ => []
  | .ok persisted =>
    let nextState : StateMachineData :=
      { lastAppliedLog := snapshot.snapshotMeta.lastLogId
        lastMembership := snapshot.snapshotMeta.lastMembership
        state := persisted.toState }
    [lockState, persistSnapshot snapshot, persistCheckpoint nextState,
      compactJournal nextState.lastAppliedLog, setState nextState, unlockState, publish snapshot]

end SnapshotAction

namespace SnapshotSystem

/-- A store right after it was opened: the served snapshot is the one in the file. -/
def ofStore (store : StateMachineStore) : SnapshotSystem where
  store := store
  stored := store.currentSnapshot

def actions (system : SnapshotSystem) : Actor → List SnapshotAction
  | .builder => system.builder
  | .worker => system.worker

def setActions (system : SnapshotSystem) (actions : List SnapshotAction) :
    Actor → SnapshotSystem
  | .builder => { system with builder := actions }
  | .worker => { system with worker := actions }

/-- Takes one action of a task that goes on with `todo`; `none` if it has to wait. The files
other than the snapshot are not followed. -/
def perform [ToString LogId] (serde : Serde) (system : SnapshotSystem) (actor : Actor)
    (todo : List SnapshotAction) : SnapshotAction → Option SnapshotSystem
  | .capture =>
    if system.store.stateLocked then none
    else
      let snapshot := system.store.snapshotOf serde
      let store := { system.store with snapshotIdx := system.store.snapshotIdx + 1 }
      some ({ system with store := store }.setActions
        (SnapshotAction.storeSnapshot snapshot ++ todo) actor)
  | .lockState =>
    if system.store.stateLocked then none
    else
      let store := { system.store with stateLocked := true }
      some ({ system with store := store }.setActions todo actor)
  | .unlockState =>
    let store := { system.store with stateLocked := false }
    some ({ system with store := store }.setActions todo actor)
  | .setState data =>
    let store := { system.store with state := data }
    some ({ system with store := store }.setActions todo actor)
  | .applyEntries entries =>
    (entries.foldlM
      (fun data entry => applyEntry system.store.kind data entry.logId entry.payload)
      system.store.state).map fun state =>
        let store := { system.store with state := state }
        { system with store := store }.setActions todo actor
  | .persistSnapshot snapshot =>
    some ({ system with stored := some snapshot }.setActions todo actor)
  | .persistCheckpoint _ | .persistJournal _ | .compactJournal _ =>
    some (system.setActions todo actor)
  | .publish snapshot =>
    let store := { system.store with currentSnapshot := some snapshot }
    some ({ system with store := store }.setActions todo actor)

/-- The system after an event, if the event is possible. -/
def next [ToString LogId] (serde : Serde) (system : SnapshotSystem) :
    Event → Option SnapshotSystem
  | .build =>
    if system.builder.isEmpty then some { system with builder := [.capture] } else none
  | .apply entries =>
    if system.worker.isEmpty then some { system with worker := SnapshotAction.apply entries }
    else none
  | .install snapshot =>
    if system.worker.isEmpty then
      some { system with worker := SnapshotAction.installSnapshot serde snapshot }
    else none
  | .step actor =>
    match system.actions actor with
    | [] => none
    | action :: todo => system.perform serde actor todo action

def applied (system : SnapshotSystem) : Position :=
  position system.store.state.lastAppliedLog

def storedPosition (system : SnapshotSystem) : Position := snapshotPosition system.stored

def servedPosition (system : SnapshotSystem) : Position :=
  snapshotPosition system.store.currentSnapshot

/-- Neither snapshot goes back from one state to the other. -/
def NotBehind (before after : SnapshotSystem) : Prop :=
  before.storedPosition ≤ after.storedPosition ∧ before.servedPosition ≤ after.servedPosition

/-- Entries come in log order and behind what is applied, and so do installed snapshots. -/
def InOrder (system : SnapshotSystem) : Event → Prop
  | .apply entries =>
    (∀ entry ∈ entries,
      isOptionalLogAfter (some entry.logId) system.store.state.lastAppliedLog) ∧
    entries.Pairwise fun earlier later => isLogAfter later.logId earlier.logId
  | .install snapshot =>
    isOptionalLogAfter snapshot.snapshotMeta.lastLogId system.store.state.lastAppliedLog
  | .build | .step _ => True

end SnapshotSystem

abbrev SnapshotHistory := List (SnapshotSystem × Event)

def Opened [ToString LogId] (serde : Serde) (system : SnapshotSystem) : Prop :=
  ∃ path processId kind fs store, openStore serde path processId kind fs = some (.ok store) ∧
    system = .ofStore store

def OrderedStep [ToString LogId] (serde : Serde) :
    SnapshotSystem → Event → SnapshotSystem → Prop :=
  guarded SnapshotSystem.InOrder fun before event after => before.next serde event = some after

def nextAction (system : SnapshotSystem) : Event → Option (Actor × SnapshotAction)
  | .step actor => (system.actions actor).head?.map fun action => (actor, action)
  | _ => none

section Opening

variable {serde : Serde}

theorem snapshotPosition_le_of_loadBase {path : String} {fs : Directory} {base : StateMachineData}
    {snapshot : Option StoredSnapshot} (h : loadBase serde path fs = .ok (base, snapshot)) :
    snapshotPosition snapshot ≤ position base.lastAppliedLog := by
  simp only [loadBase, bind, Except.bind] at h
  split at h
  · cases h
  split at h
  · cases h
  rename_i persisted _ read _
  cases read with
  | none =>
    obtain ⟨rfl, rfl⟩ := Prod.mk.inj (Except.ok.inj h)
    exact bot_le
  | some stored =>
    rw [chooseBase] at h
    split at h
    · cases h
    split_ifs at h with hlater
    · obtain ⟨rfl, rfl⟩ := Prod.mk.inj (Except.ok.inj h)
      exact le_rfl
    · obtain ⟨rfl, rfl⟩ := Prod.mk.inj (Except.ok.inj h)
      rw [isOptionalLogAfter_iff] at hlater
      exact not_lt.1 hlater

variable [ToString LogId] {kind : GroupKind}

theorem le_applied_of_foldlM {entries : List Entry} {data after : StateMachineData}
    {bound : Position} (hdata : bound ≤ position data.lastAppliedLog)
    (hlater : ∀ entry ∈ entries, bound < position (some entry.logId))
    (h : entries.foldlM (fun data entry => applyEntry kind data entry.logId entry.payload) data =
      some after) :
    bound ≤ position after.lastAppliedLog := by
  induction entries generalizing data with
  | nil =>
    obtain rfl := Option.some.inj h
    exact hdata
  | cons entry rest ih =>
    obtain ⟨hfirst, hrest⟩ := List.forall_mem_cons.1 hlater
    rw [List.foldlM_cons] at h
    obtain ⟨next, hnext, h⟩ := Option.bind_eq_some_iff.1 h
    refine ih ?_ hrest h
    rw [lastAppliedLog_applyEntry hnext]
    exact hfirst.le

theorem applied_le_of_replay {entries : List JournalEntry} {data after : StateMachineData}
    (h : replay kind data entries = some after) :
    position data.lastAppliedLog ≤ position after.lastAppliedLog := by
  induction entries generalizing data with
  | nil =>
    obtain rfl := Option.some.inj h
    exact le_rfl
  | cons entry rest ih =>
    rw [replay, List.foldlM_cons] at h
    obtain ⟨next, hnext, h⟩ := Option.bind_eq_some_iff.1 h
    refine le_trans ?_ (ih h)
    split_ifs at hnext with hcovered
    · obtain rfl := Option.some.inj hnext
      exact le_rfl
    · rw [lastAppliedLog_applyEntry hnext]
      cases hlast : data.lastAppliedLog with
      | none => exact bot_le
      | some last =>
        rw [covered, hlast] at hcovered
        simp only [Option.any_some, Bool.not_eq_true', Bool.not_eq_false] at hcovered
        exact ((isLogAfter_iff _ _).1 hcovered).le

theorem servedPosition_le_of_openStore {path : String} {processId : ℕ} {fs : Directory}
    {store : StateMachineStore} (h : openStore serde path processId kind fs = some (.ok store)) :
    snapshotPosition store.currentSnapshot ≤ position store.state.lastAppliedLog ∧
      store.stateLocked = false := by
  rw [openStore] at h
  cases hbase : loadBase serde path fs with
  | error error =>
    rw [hbase] at h
    cases h
  | ok result =>
    obtain ⟨base, snapshot⟩ := result
    rw [hbase] at h
    cases hparse : parse serde (journalFile.display path) (fs.read journalFile) with
    | error error =>
      rw [hparse] at h
      cases h
    | ok parsed =>
      rw [hparse] at h
      obtain ⟨state, hreplay, h⟩ := Option.map_eq_some_iff.1 h
      split at h
      · cases h
      · obtain rfl := Except.ok.inj h
        exact ⟨(snapshotPosition_le_of_loadBase hbase).trans (applied_le_of_replay hreplay), rfl⟩

end Opening

section Steps

variable {serde : Serde} {system after : SnapshotSystem} {event : Event}

@[simp]
theorem stored_setActions (actions : List SnapshotAction) (actor : Actor) :
    (system.setActions actions actor).stored = system.stored := by
  cases actor <;> rfl

@[simp]
theorem store_setActions (actions : List SnapshotAction) (actor : Actor) :
    (system.setActions actions actor).store = system.store := by
  cases actor <;> rfl

/-- Only the write of a snapshot changes the file, and only a publication what is served. -/
theorem snapshots_of_next [ToString LogId] (hnext : system.next serde event = some after) :
    (after.stored = match nextAction system event with
      | some (_, .persistSnapshot snapshot) => some snapshot
      | _ => system.stored) ∧
    after.store.currentSnapshot = match nextAction system event with
      | some (_, .publish snapshot) => some snapshot
      | _ => system.store.currentSnapshot := by
  cases event with
  | build | apply entries | install snapshot =>
    simp only [SnapshotSystem.next] at hnext
    split_ifs at hnext
    obtain rfl := Option.some.inj hnext
    exact ⟨rfl, rfl⟩
  | step actor =>
    cases hactions : system.actions actor with
    | nil => simp [SnapshotSystem.next, hactions] at hnext
    | cons action todo =>
      simp only [SnapshotSystem.next, hactions] at hnext
      have hnextAction : nextAction system (.step actor) = some (actor, action) := by
        simp [nextAction, hactions]
      rw [hnextAction]
      cases action with
      | capture | lockState =>
        simp only [SnapshotSystem.perform] at hnext
        split_ifs at hnext
        obtain rfl := Option.some.inj hnext
        simp
      | applyEntries entries =>
        obtain ⟨state, -, rfl⟩ := Option.map_eq_some_iff.1 hnext
        simp
      | unlockState | setState _ | persistSnapshot _ | persistCheckpoint _ | persistJournal _
      | compactJournal _ | publish _ =>
        obtain rfl := Option.some.inj hnext
        simp

theorem actions_of_nextAction {actor : Actor} {action : SnapshotAction}
    (h : nextAction system event = some (actor, action)) :
    ∃ todo, system.actions actor = action :: todo := by
  cases event with
  | build | apply entries | install snapshot => cases h
  | step other =>
    obtain ⟨first, hfirst, heq⟩ := Option.map_eq_some_iff.1 h
    obtain ⟨rfl, rfl⟩ := Prod.mk.inj heq
    exact ⟨_, (List.cons_head?_tail hfirst).symm⟩

end Steps

end Runnel.Store
