import Runnel.Store.SnapshotTasks

/-!
# The order of snapshots

The task that applies entries and installs snapshots never takes the stored or the
served snapshot back.
-/

namespace Runnel.Store

open Runnel.Cluster Runnel.Engine Bytes Transition

/-- Since the last capture an install has written its snapshot. -/
def InstallWrote : SnapshotHistory → Prop
  | [] => False
  | (before, event) :: past =>
    match nextAction before event with
    | some (.builder, .capture) => False
    | some (.worker, .persistSnapshot _) => True
    | _ => InstallWrote past

/-- Since the last capture an install has written its snapshot and then published it. -/
def InstallPublished : SnapshotHistory → Prop
  | [] => False
  | (before, event) :: past =>
    match nextAction before event with
    | some (.builder, .capture) => False
    | some (.worker, .publish _) => InstallWrote past
    | _ => InstallPublished past

/-- A build is about to write or to publish, and an install has done so since the capture. -/
def Overtaken (past : SnapshotHistory) (system : SnapshotSystem) (event : Event) : Prop :=
  match nextAction system event with
  | some (.builder, .persistSnapshot _) => InstallWrote past
  | some (.builder, .publish _) => InstallPublished past
  | _ => False

/-- No step of the history was taken by an overtaken build. -/
def NeverOvertaken : SnapshotHistory → Prop
  | [] => True
  | (before, event) :: past => ¬ Overtaken past before event ∧ NeverOvertaken past

def written : SnapshotHistory → Position
  | [] => ⊥
  | (before, event) :: past =>
    match nextAction before event with
    | some (.worker, .persistSnapshot snapshot) => position snapshot.snapshotMeta.lastLogId
    | _ => written past

/-- What the rest of an application or an install relies on: whether the state is locked, how
far entries are applied, and what the last install wrote. -/
def WorkerReady : Bool → Position → Position → List SnapshotAction → Prop
  | locked, _, _, [] => locked = false
  | _, applied, last, .lockState :: todo => WorkerReady true applied last todo
  | _, applied, last, .unlockState :: todo => last ≤ applied ∧ WorkerReady false applied last todo
  | locked, applied, last, .setState data :: todo =>
    locked ∧ applied ≤ position data.lastAppliedLog ∧
      WorkerReady locked (position data.lastAppliedLog) last todo
  | locked, applied, last, .applyEntries entries :: todo =>
    locked ∧ (∀ entry ∈ entries, applied < position (some entry.logId)) ∧
      ∀ later, applied ≤ later → WorkerReady locked later last todo
  | locked, applied, last, .persistSnapshot snapshot :: todo =>
    locked ∧ last ≤ applied ∧ applied < position snapshot.snapshotMeta.lastLogId ∧
      WorkerReady locked applied (position snapshot.snapshotMeta.lastLogId) todo
  | locked, applied, last, .publish snapshot :: todo =>
    applied = last ∧ last = position snapshot.snapshotMeta.lastLogId ∧
      WorkerReady locked applied last todo
  | locked, applied, last, .persistCheckpoint _ :: todo
  | locked, applied, last, .persistJournal _ :: todo
  | locked, applied, last, .compactJournal _ :: todo => WorkerReady locked applied last todo
  | _, _, _, .capture :: _ => False

structure Captured (past : SnapshotHistory) (system : SnapshotSystem) (snapshot : StoredSnapshot) :
    Prop where
  applied : position snapshot.snapshotMeta.lastLogId ≤ system.applied
  wrote : InstallWrote past ↔ position snapshot.snapshotMeta.lastLogId < written past
  published : InstallPublished past ↔
    position snapshot.snapshotMeta.lastLogId < system.servedPosition

/-- The points of a build. -/
inductive BuilderAt (past : SnapshotHistory) (system : SnapshotSystem) :
    List SnapshotAction → Prop
  | idle : BuilderAt past system []
  | capture : BuilderAt past system [.capture]
  | persist {snapshot} : Captured past system snapshot →
      (InstallWrote past ↔ position snapshot.snapshotMeta.lastLogId < system.storedPosition) →
      BuilderAt past system (SnapshotAction.storeSnapshot snapshot)
  | compact {snapshot last} : Captured past system snapshot →
      BuilderAt past system [.compactJournal last, .publish snapshot]
  | publish {snapshot} : Captured past system snapshot → BuilderAt past system [.publish snapshot]

structure Ordered (past : SnapshotHistory) (system : SnapshotSystem) : Prop where
  worker : WorkerReady system.store.stateLocked system.applied (written past) system.worker
  unlocked : system.store.stateLocked = false → written past ≤ system.applied
  stored : system.storedPosition ≤ max system.applied (written past)
  served : system.servedPosition ≤ system.applied
  published : InstallPublished past → InstallWrote past
  builder : BuilderAt past system system.builder

theorem ordered_of_opened [ToString LogId] {serde : Serde} {system : SnapshotSystem}
    (h : Opened serde system) :
    Ordered [] system := by
  obtain ⟨path, processId, kind, fs, store, hopen, rfl⟩ := h
  obtain ⟨hserved, hunlocked⟩ := servedPosition_le_of_openStore hopen
  exact {
    worker := hunlocked
    unlocked := fun _ => bot_le
    stored := hserved.trans (le_max_left _ _)
    served := hserved
    published := id
    builder := .idle }

section Steps

variable {serde : Serde} {past : SnapshotHistory} {system after : SnapshotSystem} {event : Event}
  {todo : List SnapshotAction}

/-- An event that is neither a capture nor the write or publication of an install. -/
def Quiet (system : SnapshotSystem) (event : Event) : Prop :=
  match nextAction system event with
  | some (.builder, .capture) | some (.worker, .persistSnapshot _) | some (.worker, .publish _) =>
    False
  | _ => True

theorem Quiet.history (h : Quiet system event) :
    (InstallWrote ((system, event) :: past) ↔ InstallWrote past) ∧
    (InstallPublished ((system, event) :: past) ↔ InstallPublished past) ∧
    written ((system, event) :: past) = written past := by
  unfold Quiet at h
  simp only [InstallWrote, InstallPublished, written]
  rcases hnext : nextAction system event with _ | ⟨_ | _, _ | _⟩ <;> simp_all

variable {snapshot : StoredSnapshot}

theorem Captured.of_quiet (h : Captured past system snapshot)
    (hquiet : Quiet system event) (happlied : system.applied ≤ after.applied)
    (hserved : after.servedPosition = system.servedPosition) :
    Captured ((system, event) :: past) after snapshot := by
  obtain ⟨hwrote, hpublished, hwritten⟩ := @Quiet.history past system event hquiet
  exact {
    applied := h.applied.trans happlied
    wrote := by rw [hwrote, hwritten, h.wrote]
    published := by rw [hpublished, hserved, h.published] }

theorem BuilderAt.transfer {later : SnapshotHistory} (h : BuilderAt past system todo)
    (hcaptured : ∀ snapshot, Captured past system snapshot → Captured later after snapshot)
    (hwrote : ∀ snapshot, Captured past system snapshot →
      (InstallWrote past ↔ position snapshot.snapshotMeta.lastLogId < system.storedPosition) →
      (InstallWrote later ↔ position snapshot.snapshotMeta.lastLogId < after.storedPosition)) :
    BuilderAt later after todo := by
  cases h with
  | idle => exact .idle
  | capture => exact .capture
  | persist hold hstored => exact .persist (hcaptured _ hold) (hwrote _ hold hstored)
  | compact hold => exact .compact (hcaptured _ hold)
  | publish hold => exact .publish (hcaptured _ hold)

theorem BuilderAt.of_quiet (h : BuilderAt past system todo) (hquiet : Quiet system event)
    (happlied : system.applied ≤ after.applied)
    (hstored : after.storedPosition = system.storedPosition)
    (hserved : after.servedPosition = system.servedPosition) :
    BuilderAt ((system, event) :: past) after todo := by
  refine h.transfer (fun _ hold => hold.of_quiet hquiet happlied hserved) ?_
  intro snapshot _ hwrote
  rw [hquiet.history.1, hstored, hwrote]

theorem Ordered.of_quiet (h : Ordered past system) (hquiet : Quiet system event)
    (hworker : WorkerReady after.store.stateLocked after.applied (written past) after.worker)
    (hunlocked : after.store.stateLocked = false → written past ≤ after.applied)
    (hstored : after.storedPosition ≤ max after.applied (written past))
    (hserved : after.servedPosition ≤ after.applied)
    (hbuilder : BuilderAt ((system, event) :: past) after after.builder) :
    Ordered ((system, event) :: past) after := by
  obtain ⟨hwrote, hpublished, hwritten⟩ := @Quiet.history past system event hquiet
  exact {
    worker := hwritten.symm ▸ hworker
    unlocked := hwritten.symm ▸ hunlocked
    stored := hwritten.symm ▸ hstored
    served := hserved
    published := fun hafter => hwrote.2 (h.published (hpublished.1 hafter))
    builder := hbuilder }

theorem workerReady_apply {applied last : Position} {entries : List Entry} (hlast : last ≤ applied)
    (hlater : ∀ entry ∈ entries, applied < position (some entry.logId)) (locked : Bool) :
    WorkerReady locked applied last (SnapshotAction.apply entries) := by
  have happly : WorkerReady true applied last [.applyEntries entries, .unlockState] :=
    ⟨rfl, hlater, fun later happlied => ⟨hlast.trans happlied, rfl⟩⟩
  unfold SnapshotAction.apply
  split_ifs
  · exact happly
  · exact happly

theorem workerReady_install {applied last : Position}
    (hlast : last ≤ applied) (hlater : applied < position snapshot.snapshotMeta.lastLogId) :
    WorkerReady false applied last (SnapshotAction.installSnapshot serde snapshot) := by
  unfold SnapshotAction.installSnapshot
  split
  · exact rfl
  · exact ⟨rfl, hlast, hlater, rfl, hlater.le, le_rfl, rfl, rfl, rfl⟩

theorem Ordered.build (h : Ordered past system) :
    Ordered ((system, .build) :: past) { system with builder := [.capture] } :=
  h.of_quiet trivial h.worker h.unlocked h.stored h.served .capture

theorem Ordered.start_worker (h : Ordered past system) (hquiet : Quiet system event)
    (hready : WorkerReady system.store.stateLocked system.applied (written past) todo) :
    Ordered ((system, event) :: past) { system with worker := todo } :=
  h.of_quiet hquiet hready h.unlocked h.stored h.served (h.builder.of_quiet hquiet le_rfl rfl rfl)

theorem Ordered.capture (h : Ordered past system) (hbuilder : system.builder = [.capture])
    (hunlocked : system.store.stateLocked = false) :
    Ordered ((system, .step .builder) :: past)
      { system with
        store := { system.store with snapshotIdx := system.store.snapshotIdx + 1 }
        builder := SnapshotAction.storeSnapshot (system.store.snapshotOf serde) } := by
  have hnext : nextAction system (.step .builder) = some (.builder, .capture) := by
    simp [nextAction, SnapshotSystem.actions, hbuilder]
  have hwritten : written ((system, .step .builder) :: past) = written past := by
    simp only [written, hnext]
  have hwrote : ¬ InstallWrote ((system, .step .builder) :: past) := by
    simp [InstallWrote, hnext]
  have hpublished : ¬ InstallPublished ((system, .step .builder) :: past) := by
    simp [InstallPublished, hnext]
  have hlast : written past ≤ system.applied := h.unlocked hunlocked
  have hstored : system.storedPosition ≤ system.applied := h.stored.trans (max_le le_rfl hlast)
  exact {
    worker := hwritten.symm ▸ h.worker
    unlocked := hwritten.symm ▸ h.unlocked
    stored := hwritten.symm ▸ h.stored
    served := h.served
    published := fun hafter => absurd hafter hpublished
    builder := .persist
      { applied := le_rfl
        wrote := iff_of_false hwrote (hwritten.symm ▸ not_lt.2 hlast)
        published := iff_of_false hpublished (not_lt.2 h.served) }
      (iff_of_false hwrote (not_lt.2 hstored)) }

theorem Ordered.worker_persist (h : Ordered past system)
    (hworker : system.worker = .persistSnapshot snapshot :: todo) :
    Ordered ((system, .step .worker) :: past)
      { system with stored := some snapshot, worker := todo } := by
  have hnext : nextAction system (.step .worker) = some (.worker, .persistSnapshot snapshot) := by
    simp [nextAction, SnapshotSystem.actions, hworker]
  have hready := h.worker
  rw [hworker] at hready
  obtain ⟨hlocked, hlast, hlater, hready⟩ := hready
  have hwritten : written ((system, .step .worker) :: past) =
      position snapshot.snapshotMeta.lastLogId := by
    simp only [written, hnext]
  have hwrote : InstallWrote ((system, .step .worker) :: past) := by
    simp [InstallWrote, hnext]
  have hpublished : InstallPublished ((system, .step .worker) :: past) ↔
      InstallPublished past := by
    simp only [InstallPublished, hnext]
  have hcaptured : ∀ captured, Captured past system captured →
      Captured ((system, .step .worker) :: past)
        { system with stored := some snapshot, worker := todo } captured := by
    intro captured hcaptured
    exact {
      applied := hcaptured.applied
      wrote := iff_of_true hwrote (hwritten.symm ▸ hcaptured.applied.trans_lt hlater)
      published := hpublished.trans hcaptured.published }
  exact {
    worker := hwritten.symm ▸ hready
    unlocked := fun hunlocked => absurd hlocked (Bool.not_eq_true _ ▸ hunlocked)
    stored := hwritten.symm ▸ le_max_right _ _
    served := h.served
    published := fun _ => hwrote
    builder := h.builder.transfer hcaptured fun _ hold _ =>
      iff_of_true hwrote (hold.applied.trans_lt hlater) }

/-- The publication of an install passes the snapshots that its write has passed. -/
theorem Ordered.worker_publish (h : Ordered past system)
    (hworker : system.worker = .publish snapshot :: todo) :
    Ordered ((system, .step .worker) :: past)
      { system with
        store := { system.store with currentSnapshot := some snapshot }
        worker := todo } := by
  have hnext : nextAction system (.step .worker) = some (.worker, .publish snapshot) := by
    simp [nextAction, SnapshotSystem.actions, hworker]
  have hready := h.worker
  rw [hworker] at hready
  obtain ⟨happlied, hlast, hready⟩ := hready
  have hwritten : written ((system, .step .worker) :: past) = written past := by
    simp only [written, hnext]
  have hwrote : InstallWrote ((system, .step .worker) :: past) ↔ InstallWrote past := by
    simp only [InstallWrote, hnext]
  have hpublished : InstallPublished ((system, .step .worker) :: past) ↔ InstallWrote past := by
    simp only [InstallPublished, hnext]
  exact {
    worker := hwritten.symm ▸ hready
    unlocked := hwritten.symm ▸ h.unlocked
    stored := hwritten.symm ▸ h.stored
    served := (happlied.trans hlast).ge
    published := fun hafter => hwrote.2 (hpublished.1 hafter)
    builder := by
      refine h.builder.transfer ?_ fun _ _ hstored => hwrote.trans hstored
      intro captured hold
      have hpassed := hold.wrote
      rw [hlast] at hpassed
      exact {
        applied := hold.applied
        wrote := hwritten.symm ▸ hwrote.trans hold.wrote
        published := hpublished.trans hpassed } }

theorem Ordered.worker_quiet (h : Ordered past system) {store : StateMachineStore}
    (hquiet : Quiet system (.step .worker))
    (happlied : system.applied ≤ position store.state.lastAppliedLog)
    (hserved : store.currentSnapshot = system.store.currentSnapshot)
    (hready : WorkerReady store.stateLocked (position store.state.lastAppliedLog) (written past)
      todo)
    (hunlocked : store.stateLocked = false → written past ≤ position store.state.lastAppliedLog) :
    Ordered ((system, .step .worker) :: past) { system with store := store, worker := todo } := by
  have hsame : snapshotPosition store.currentSnapshot = system.servedPosition := by
    rw [hserved]
    rfl
  refine h.of_quiet hquiet hready hunlocked ?_ ?_ ?_
  · exact h.stored.trans (max_le_max happlied le_rfl)
  · exact hsame.le.trans (h.served.trans happlied)
  · exact h.builder.of_quiet hquiet happlied rfl hsame

theorem Ordered.wrote_iff (h : Ordered past system)
    (hbuilder : system.builder = .persistSnapshot snapshot :: todo) :
    InstallWrote past ↔ position snapshot.snapshotMeta.lastLogId < system.storedPosition := by
  have hat := h.builder
  rw [hbuilder] at hat
  cases hat with
  | persist _ hwrote => exact hwrote

theorem Ordered.published_iff (h : Ordered past system)
    (hbuilder : system.builder = .publish snapshot :: todo) :
    InstallPublished past ↔
      position snapshot.snapshotMeta.lastLogId < system.servedPosition := by
  have hat := h.builder
  rw [hbuilder] at hat
  cases hat with
  | publish hcaptured => exact hcaptured.published

variable [ToString LogId]

theorem Ordered.builder_step (h : Ordered past system)
    (hnext : system.next serde (.step .builder) = some after) :
    Ordered ((system, .step .builder) :: past) after := by
  obtain ⟨store, stored, builder, worker⟩ := system
  obtain ⟨hworker, hunlocked, hstored, hserved, hpublished, hbuilder⟩ := id h
  simp only at hbuilder
  cases hbuilder with
  | idle => cases hnext
  | capture =>
    simp only [SnapshotSystem.next, SnapshotSystem.actions, SnapshotSystem.perform] at hnext
    split_ifs at hnext with hlocked
    obtain rfl := Option.some.inj hnext
    exact h.capture rfl (Bool.not_eq_true _ ▸ hlocked)
  | persist hcaptured hwrote =>
    obtain rfl := Option.some.inj hnext
    refine h.of_quiet trivial hworker hunlocked ?_ hserved
      (.compact (hcaptured.of_quiet trivial le_rfl rfl))
    exact hcaptured.applied.trans (le_max_left _ _)
  | compact hcaptured =>
    obtain rfl := Option.some.inj hnext
    exact h.of_quiet trivial hworker hunlocked hstored hserved
      (.publish (hcaptured.of_quiet trivial le_rfl rfl))
  | publish hcaptured =>
    obtain rfl := Option.some.inj hnext
    exact h.of_quiet trivial hworker hunlocked hstored hcaptured.applied .idle

theorem Ordered.worker_step (h : Ordered past system)
    (hnext : system.next serde (.step .worker) = some after) :
    Ordered ((system, .step .worker) :: past) after := by
  cases hworker : system.worker with
  | nil => simp [SnapshotSystem.next, SnapshotSystem.actions, hworker] at hnext
  | cons action todo =>
    have hready := h.worker
    rw [hworker] at hready
    have hstep : system.perform serde .worker todo action = some after := by
      simpa [SnapshotSystem.next, SnapshotSystem.actions, hworker] using hnext
    have hquiet : nextAction system (.step .worker) = some (.worker, action) := by
      simp [nextAction, SnapshotSystem.actions, hworker]
    cases action with
    | capture => cases hready
    | lockState =>
      rw [SnapshotSystem.perform] at hstep
      split_ifs at hstep
      obtain rfl := Option.some.inj hstep
      exact h.worker_quiet (by simp [Quiet, hquiet]) le_rfl rfl hready (by rintro ⟨⟩)
    | unlockState =>
      obtain rfl := Option.some.inj hstep
      exact h.worker_quiet (by simp [Quiet, hquiet]) le_rfl rfl hready.2 fun _ => hready.1
    | setState data =>
      obtain rfl := Option.some.inj hstep
      obtain ⟨hlocked, hlater, hready⟩ := hready
      refine h.worker_quiet (by simp [Quiet, hquiet]) hlater rfl hready ?_
      intro hunlocked
      exact absurd hlocked (Bool.not_eq_true _ ▸ hunlocked)
    | applyEntries entries =>
      obtain ⟨state, happly, rfl⟩ := Option.map_eq_some_iff.1 hstep
      obtain ⟨hlocked, hlater, hready⟩ := hready
      have happlied := le_applied_of_foldlM le_rfl hlater happly
      refine h.worker_quiet (by simp [Quiet, hquiet]) happlied rfl (hready _ happlied) ?_
      intro hunlocked
      exact absurd hlocked (Bool.not_eq_true _ ▸ hunlocked)
    | persistSnapshot snapshot =>
      obtain rfl := Option.some.inj hstep
      exact h.worker_persist hworker
    | publish snapshot =>
      obtain rfl := Option.some.inj hstep
      exact h.worker_publish hworker
    | persistCheckpoint data =>
      obtain rfl := Option.some.inj hstep
      exact h.worker_quiet (by simp [Quiet, hquiet]) le_rfl rfl hready h.unlocked
    | persistJournal entries =>
      obtain rfl := Option.some.inj hstep
      exact h.worker_quiet (by simp [Quiet, hquiet]) le_rfl rfl hready h.unlocked
    | compactJournal last =>
      obtain rfl := Option.some.inj hstep
      exact h.worker_quiet (by simp [Quiet, hquiet]) le_rfl rfl hready h.unlocked

theorem Ordered.step (h : Ordered past system) (hstep : OrderedStep serde system event after) :
    Ordered ((system, event) :: past) after := by
  obtain ⟨horder, hnext⟩ := hstep
  cases event with
  | build =>
    simp only [SnapshotSystem.next] at hnext
    split_ifs at hnext
    obtain rfl := Option.some.inj hnext
    exact h.build
  | apply entries =>
    simp only [SnapshotSystem.next, List.isEmpty_iff] at hnext
    split_ifs at hnext with hidle
    obtain rfl := Option.some.inj hnext
    have hready := h.worker
    rw [hidle] at hready
    refine h.start_worker trivial (workerReady_apply (h.unlocked hready) ?_ _)
    exact fun entry hentry => (isOptionalLogAfter_iff _ _).1 (horder.1 entry hentry)
  | install snapshot =>
    simp only [SnapshotSystem.next, List.isEmpty_iff] at hnext
    split_ifs at hnext with hidle
    obtain rfl := Option.some.inj hnext
    have hready := h.worker
    rw [hidle] at hready
    refine h.start_worker trivial ?_
    rw [show system.store.stateLocked = false from hready]
    exact workerReady_install (h.unlocked hready) ((isOptionalLogAfter_iff _ _).1 horder)
  | step actor =>
    cases actor with
    | builder => exact h.builder_step hnext
    | worker => exact h.worker_step hnext

theorem ordered_of_run (h : Run (Opened serde) (OrderedStep serde) past system) :
    Ordered past system :=
  h.history_invariant (fun _ hstart => ordered_of_opened hstart)
    fun _ _ _ _ hold hstep => hold.step hstep

theorem Ordered.notBehind_iff (h : Ordered past system)
    (hstep : OrderedStep serde system event after) :
    system.NotBehind after ↔ ¬ Overtaken past system event := by
  obtain ⟨hstored, hserved⟩ := snapshots_of_next hstep.2
  unfold SnapshotSystem.NotBehind Overtaken SnapshotSystem.storedPosition
    SnapshotSystem.servedPosition
  rw [hstored, hserved]
  cases hnext : nextAction system event with
  | none => simp
  | some taken =>
    obtain ⟨actor, action⟩ := taken
    obtain ⟨todo, hactions⟩ := actions_of_nextAction hnext
    cases action with
    | persistSnapshot snapshot =>
      cases actor with
      | builder =>
        simp only [le_refl, and_true]
        rw [h.wrote_iff hactions, not_lt]
        rfl
      | worker =>
        have hready := h.worker
        rw [show system.worker = _ from hactions] at hready
        obtain ⟨-, hlast, hlater, -⟩ := hready
        simp only [le_refl, and_true, not_false_eq_true, iff_true]
        exact h.stored.trans ((max_le le_rfl hlast).trans hlater.le)
    | publish snapshot =>
      cases actor with
      | builder =>
        simp only [le_refl, true_and]
        rw [h.published_iff hactions, not_lt]
        rfl
      | worker =>
        have hready := h.worker
        rw [show system.worker = _ from hactions] at hready
        obtain ⟨happlied, hlast, -⟩ := hready
        simp only [le_refl, true_and, not_false_eq_true, iff_true]
        exact h.served.trans (happlied.trans hlast).le
    | capture | lockState | unlockState | setState _ | applyEntries _ | persistCheckpoint _
    | persistJournal _ | compactJournal _ => cases actor <;> simp

/-- In every interleaving of a build with applications and installs in log order, a step takes
the stored or the served snapshot back exactly if a build takes it that an install has overtaken
since the capture. While that has not happened, neither is behind an earlier one, so
that the served snapshot covers every installed one. -/
theorem snapshots_in_order (h : Run (Opened serde) (OrderedStep serde) past system) :
    (∀ event after, OrderedStep serde system event after →
      (system.NotBehind after ↔ ¬ Overtaken past system event)) ∧
    (NeverOvertaken past → ∀ earlier event, (earlier, event) ∈ past →
      earlier.NotBehind system ∧
      ∀ snapshot, nextAction earlier event = some (.worker, .publish snapshot) →
        position snapshot.snapshotMeta.lastLogId ≤ system.servedPosition) := by
  refine ⟨fun event after => (ordered_of_run h).notBehind_iff, ?_⟩
  induction h with
  | start _ => exact fun _ _ _ hmem => absurd hmem List.not_mem_nil
  | @next past before taken after hrun hstep ih =>
    rintro ⟨hlast, hnever⟩ earlier event hmem
    have hforward := ((ordered_of_run hrun).notBehind_iff hstep).2 hlast
    rcases List.mem_cons.1 hmem with heq | hmem
    · obtain ⟨rfl, rfl⟩ := Prod.mk.inj heq
      refine ⟨hforward, fun snapshot hpublish => ?_⟩
      have hserved := (snapshots_of_next hstep.2).2
      rw [hpublish] at hserved
      rw [SnapshotSystem.servedPosition, hserved]
      exact le_rfl
    · obtain ⟨hkept, hcovered⟩ := ih hnever earlier event hmem
      exact ⟨⟨hkept.1.trans hforward.1, hkept.2.trans hforward.2⟩,
        fun snapshot hpublish => (hcovered snapshot hpublish).trans hforward.2⟩

end Steps

section Examples

open scoped LogId.Display

def emptySystem : SnapshotSystem := .ofStore emptyStore.store

theorem opened_emptySystem (serde : Serde) : Opened serde emptySystem :=
  ⟨"", 7, .combined, {}, emptyStore.store, rfl, rfl⟩

def emptySnapshot (serde : Serde) : StoredSnapshot := installedData.snapshot serde "snapshot-1"

def emptyInstall (serde : Serde) : List SnapshotAction :=
  [.lockState, .persistSnapshot (emptySnapshot serde), .persistCheckpoint installedData,
    .compactJournal installedData.lastAppliedLog, .setState installedData, .unlockState,
    .publish (emptySnapshot serde)]

theorem installSnapshot_empty (serde : Serde) :
    SnapshotAction.installSnapshot serde (emptySnapshot serde) = emptyInstall serde := by
  have hvalid : validateSnapshotData serde (emptySnapshot serde).data = .ok (.ofState {}) :=
    validateSnapshotData_encode wellFormed_empty
  rw [SnapshotAction.installSnapshot, hvalid]
  simp only [toState_ofState]
  rfl

/-- An install of the empty snapshot over an empty log, followed by steps of the two tasks. -/
theorem run_of_install {serde : Serde} {past later : SnapshotHistory}
    {system after : SnapshotSystem} {labels : List Event}
    (h : Run (Opened serde) (OrderedStep serde) past system)
    (hidle : system.worker = []) (hempty : system.store.state.lastAppliedLog = none)
    (hlabels : ∀ event ∈ labels, event = .build ∨ ∃ actor, event = .step actor)
    (hfollow : follow (SnapshotSystem.next serde) labels
      ((system, .install (emptySnapshot serde)) :: past)
      { system with worker := emptyInstall serde } = some (later, after)) :
    Run (Opened serde) (OrderedStep serde) later after := by
  have hinstall : OrderedStep serde system (.install (emptySnapshot serde))
      { system with worker := emptyInstall serde } := by
    refine ⟨?_, ?_⟩
    · rw [SnapshotSystem.InOrder, hempty]
      rfl
    · simp [SnapshotSystem.next, hidle, installSnapshot_empty]
  refine Run.of_follow ?_ (h.next hinstall) hfollow
  intro event hevent before next hnext
  refine ⟨?_, hnext⟩
  rcases hlabels event hevent with rfl | ⟨actor, rfl⟩
  · trivial
  · trivial

/-- A build behind an install leaves the installed snapshot covered. -/
theorem build_after_install_covers :
    Nonempty Serde ∧ ∀ serde, ∃ past system, Run (Opened serde) (OrderedStep serde) past system ∧
      NeverOvertaken past ∧ system.builder = [] ∧
      position (some ⟨1, 1, 5⟩) ≤ system.servedPosition := by
  refine ⟨inferInstance, fun serde => ?_⟩
  let labels : List Event :=
    List.replicate 7 (.step .worker) ++ .build :: List.replicate 4 (.step .builder)
  obtain ⟨past, system, hfollow, hnever, hidle, earlier, hmem, hpublish⟩ :
      ∃ past system, follow (SnapshotSystem.next serde) labels
        [(emptySystem, .install (emptySnapshot serde))]
        { emptySystem with worker := emptyInstall serde } = some (past, system) ∧
      NeverOvertaken past ∧ system.builder = [] ∧ ∃ earlier, (earlier, .step .worker) ∈ past ∧
      nextAction earlier (.step .worker) = some (.worker, .publish (emptySnapshot serde)) := by
    refine ⟨_, _, rfl, ?_, rfl, ?_⟩
    · exact ⟨id, id, id, id, id, id, id, id, id, id, id, id, id, trivial⟩
    · exact ⟨_, List.mem_of_getElem? (i := 5) rfl, rfl⟩
  have hrun := run_of_install (.start (opened_emptySystem serde)) rfl rfl
    (by simp [labels]) hfollow
  exact ⟨past, system, hrun, hnever, hidle,
    ((snapshots_in_order hrun).2 hnever earlier _ hmem).2 _ hpublish⟩

/-- A build that captured the empty log writes and publishes its snapshot after an install at a
later position, and takes both snapshots back. -/
theorem overtaken_build_goes_back :
    Nonempty Serde ∧ ∀ serde, ∃ past system earlier event,
      Run (Opened serde) (OrderedStep serde) past system ∧
      (earlier, event) ∈ past ∧
      earlier.stored = some (emptySnapshot serde) ∧
      earlier.store.currentSnapshot = some (emptySnapshot serde) ∧
      system.storedPosition < earlier.storedPosition ∧
      system.servedPosition < earlier.servedPosition := by
  refine ⟨inferInstance, fun serde => ?_⟩
  let labels : List Event := List.replicate 7 (.step .worker) ++ List.replicate 3 (.step .builder)
  obtain ⟨building, captured, past, system, hcapture, hidle, hempty, hfollow, hpositions⟩ :
      ∃ building captured past system,
        follow (SnapshotSystem.next serde) [.build, .step .builder] [] emptySystem =
          some (building, captured) ∧
        captured.worker = [] ∧ captured.store.state.lastAppliedLog = none ∧
        follow (SnapshotSystem.next serde) labels
          ((captured, .install (emptySnapshot serde)) :: building)
          { captured with worker := emptyInstall serde } = some (past, system) ∧
        ∃ earlier, (earlier, .step .builder) ∈ past ∧
          earlier.stored = some (emptySnapshot serde) ∧
          earlier.store.currentSnapshot = some (emptySnapshot serde) ∧
          system.storedPosition < earlier.storedPosition ∧
          system.servedPosition < earlier.servedPosition := by
    refine ⟨_, _, _, _, rfl, rfl, rfl, rfl, _, List.mem_of_getElem? (i := 2) rfl, rfl, rfl, ?_, ?_⟩
    · exact WithBot.bot_lt_coe _
    · exact WithBot.bot_lt_coe _
  have hbuilding : Run (Opened serde) (OrderedStep serde) building captured := by
    refine Run.of_follow ?_ (.start (opened_emptySystem serde)) hcapture
    intro event hevent before next hnext
    refine ⟨?_, hnext⟩
    obtain rfl | rfl : event = .build ∨ event = .step .builder := by simpa using hevent
    · trivial
    · trivial
  have hrun := run_of_install hbuilding hidle hempty (by simp [labels]) hfollow
  obtain ⟨earlier, hmem, hrest⟩ := hpositions
  exact ⟨past, system, earlier, _, hrun, hmem, hrest⟩

end Examples

end Runnel.Store
