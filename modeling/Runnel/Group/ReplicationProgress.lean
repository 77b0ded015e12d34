import Mathlib.Algebra.Order.Floor.Div
import Mathlib.Data.String.Basic
import Runnel.Foundation.Rotation
import Runnel.Foundation.Text
import Runnel.Group.StorageSpec

/-!
# Sampling replication progress

A scrape reads the raft metrics of the metadata group and of a bounded window of
data groups.
-/

namespace Runnel.Group

def maxReplicationProgressGroups : ℕ := 256

def maxReplicationProgressPeers : ℕ := 32

structure RaftMetrics where
  lastLogIndex : Option ℕ
  /-- The index up to which each peer's log matches; leaders only. -/
  replication : Option (BTreeMap ℕ (Option ℕ))

structure ReplicationProgressSnapshot where
  groupsTotal : ℕ
  groupsObserved : ℕ
  groupsWithLocalLeadership : ℕ
  configuredReplicaPeers : ℕ
  peerLagEntries : BTreeMap ℕ ℕ

/-- What scrapes use of a manager, over any kind of handle to a group. -/
structure GroupManager (γ : Type) where
  nodeId : ℕ
  peers : BTreeMap ℕ String
  groups : BTreeMap String γ
  replicationProgressCursor : Option String

def replicationLagEntries (lastLogIndex matchedLogIndex : Option ℕ) : ℕ :=
  let leaderNextIndex := lastLogIndex.elim 0 fun index => satAdd64 index 1
  let matchedNextIndex := matchedLogIndex.elim 0 fun index => satAdd64 index 1
  leaderNextIndex - matchedNextIndex

/-- The lag of a peer in one group; the largest of all groups is kept. -/
def observePeer (lastLogIndex : Option ℕ) (snapshot : ReplicationProgressSnapshot)
    (peer : ℕ × Option ℕ) : ReplicationProgressSnapshot :=
  let lagEntries := replicationLagEntries lastLogIndex peer.2
  match snapshot.peerLagEntries[peer.1]? with
  | some lag =>
    { snapshot with peerLagEntries := snapshot.peerLagEntries.insert peer.1 (max lag lagEntries) }
  | none =>
    if snapshot.peerLagEntries.size < maxReplicationProgressPeers then
      { snapshot with peerLagEntries := snapshot.peerLagEntries.insert peer.1 lagEntries }
    else snapshot

def observeGroup (snapshot : ReplicationProgressSnapshot) (metrics : RaftMetrics) :
    ReplicationProgressSnapshot :=
  match metrics.replication with
  | some replication =>
    (replication.toList.take maxReplicationProgressPeers).foldl (observePeer metrics.lastLogIndex)
      { snapshot with groupsWithLocalLeadership := snapshot.groupsWithLocalLeadership + 1 }
  | none => snapshot

section Observation

variable {snapshot : ReplicationProgressSnapshot}

/-- Every lag of the snapshot is one that was read. -/
def ReplicationProgressSnapshot.LagsIn (snapshot : ReplicationProgressSnapshot)
    (read : ℕ → ℕ → Prop) : Prop :=
  ∀ peer lag, snapshot.peerLagEntries[peer]? = some lag → read peer lag

/-- What the metrics of a group say about the lag of a peer. -/
def RaftMetrics.Lags (metrics : RaftMetrics) (peer lag : ℕ) : Prop :=
  ∃ replication ∈ metrics.replication, ∃ matchedLogIndex,
    replication[peer]? = some matchedLogIndex ∧
      lag = replicationLagEntries metrics.lastLogIndex matchedLogIndex

theorem observePeer_counts (lastLogIndex : Option ℕ) (snapshot : ReplicationProgressSnapshot)
    (peer : ℕ × Option ℕ) :
    (observePeer lastLogIndex snapshot peer).groupsObserved = snapshot.groupsObserved ∧
    (observePeer lastLogIndex snapshot peer).groupsWithLocalLeadership =
      snapshot.groupsWithLocalLeadership := by
  unfold observePeer
  dsimp only
  split
  · exact ⟨rfl, rfl⟩
  · split_ifs <;> exact ⟨rfl, rfl⟩

theorem lagsIn_observePeer {read : ℕ → ℕ → Prop} {lastLogIndex : Option ℕ} {peer : ℕ × Option ℕ}
    (h : snapshot.LagsIn read) (hpeer : read peer.1 (replicationLagEntries lastLogIndex peer.2)) :
    (observePeer lastLogIndex snapshot peer).LagsIn read := by
  have hinsert : ∀ lag, read peer.1 lag →
      ({ snapshot with peerLagEntries := snapshot.peerLagEntries.insert peer.1 lag } :
        ReplicationProgressSnapshot).LagsIn read := by
    intro lag hlag other found hfound
    dsimp only at hfound
    rw [Std.ExtTreeMap.getElem?_insert] at hfound
    split_ifs at hfound with hsame
    · obtain rfl := compare_eq_iff_eq.1 hsame
      obtain rfl := Option.some.inj hfound
      exact hlag
    · exact h other found hfound
  unfold observePeer
  dsimp only
  split
  · rename_i lag hlag
    apply hinsert
    rcases max_choice lag (replicationLagEntries lastLogIndex peer.2) with hmax | hmax
    · rw [hmax]
      exact h peer.1 lag hlag
    · rw [hmax]
      exact hpeer
  · split_ifs
    · exact hinsert _ hpeer
    · exact h

/-- A group is counted as led if its metrics say so, and only the lags of its metrics are added. -/
theorem observeGroup_spec (snapshot : ReplicationProgressSnapshot) (metrics : RaftMetrics) :
    (observeGroup snapshot metrics).groupsObserved = snapshot.groupsObserved ∧
    (observeGroup snapshot metrics).groupsWithLocalLeadership =
      snapshot.groupsWithLocalLeadership + (if metrics.replication.isSome then 1 else 0) ∧
    ∀ read : ℕ → ℕ → Prop, snapshot.LagsIn read →
      (∀ peer lag, metrics.Lags peer lag → read peer lag) →
      (observeGroup snapshot metrics).LagsIn read := by
  unfold observeGroup
  cases hreplication : metrics.replication with
  | none => exact ⟨rfl, rfl, fun _ h _ => h⟩
  | some replication =>
    dsimp only
    refine ⟨?_, ?_, fun read hlags hread => ?_⟩
    · refine List.foldlRecOn
        (motive := fun (after : ReplicationProgressSnapshot) => after.groupsObserved = _) _ _ rfl ?_
      intro after hafter peer _
      rw [(observePeer_counts _ _ _).1, hafter]
    · refine List.foldlRecOn
        (motive := fun (after : ReplicationProgressSnapshot) => after.groupsWithLocalLeadership = _)
          _ _ rfl ?_
      intro after hafter peer _
      rw [(observePeer_counts _ _ _).2, hafter]
    · refine List.foldlRecOn
        (motive := fun (after : ReplicationProgressSnapshot) => after.LagsIn read) _ _ hlags ?_
      intro after hafter peer hpeer
      refine lagsIn_observePeer hafter (hread _ _ ⟨replication, hreplication, peer.2, ?_, rfl⟩)
      exact Std.ExtTreeMap.mem_toList_iff_getElem?_eq_some.1 (List.mem_of_mem_take hpeer)

theorem foldl_observeGroup_spec (read : List RaftMetrics) (snapshot : ReplicationProgressSnapshot) :
    (read.foldl observeGroup snapshot).groupsObserved = snapshot.groupsObserved ∧
    (read.foldl observeGroup snapshot).groupsWithLocalLeadership =
      snapshot.groupsWithLocalLeadership + read.countP (·.replication.isSome) ∧
    ∀ lags : ℕ → ℕ → Prop, snapshot.LagsIn lags →
      (∀ metrics ∈ read, ∀ peer lag, metrics.Lags peer lag → lags peer lag) →
      (read.foldl observeGroup snapshot).LagsIn lags := by
  induction read generalizing snapshot with
  | nil => exact ⟨rfl, rfl, fun _ h _ => h⟩
  | cons metrics read ih =>
    obtain ⟨hobserved, hleading, hlags⟩ := observeGroup_spec snapshot metrics
    obtain ⟨hobserved', hleading', hlags'⟩ := ih (observeGroup snapshot metrics)
    rw [List.foldl_cons]
    refine ⟨hobserved'.trans hobserved, ?_, fun lags h hread => ?_⟩
    · rw [hleading', hleading, List.countP_cons, Nat.add_assoc, Nat.add_comm (List.countP _ _)]
    · exact hlags' lags (hlags lags h (hread metrics List.mem_cons_self))
        fun later hmem => hread later (List.mem_cons_of_mem _ hmem)

end Observation

variable {γ : Type}

def isDataGroup (entry : String × γ) : Bool := entry.1 ≠ metadataGroupId

namespace GroupManager

/-- The data groups after the cursor and, if there is room, those up to it. -/
def dataSample (manager : GroupManager γ) : List (String × γ) :=
  let dataGroupLimit := maxReplicationProgressGroups - 1
  match manager.replicationProgressCursor with
  | some lastGroupId =>
    let after := ((manager.groups.toList.filter (lastGroupId < ·.1)).filter isDataGroup).take
      dataGroupLimit
    if after.length < dataGroupLimit then
      after ++ ((manager.groups.toList.filter (·.1 ≤ lastGroupId)).filter isDataGroup).take
        (dataGroupLimit - after.length)
    else after
  | none => (manager.groups.toList.filter isDataGroup).take dataGroupLimit

def sampled (manager : GroupManager γ) : List (String × γ) :=
  match manager.groups[metadataGroupId]? with
  | some metadata => (metadataGroupId, metadata) :: manager.dataSample
  | none => manager.dataSample

/-- The manager after a scrape: the cursor names the last data group sampled. -/
def advanced (manager : GroupManager γ) : GroupManager γ :=
  match manager.dataSample.getLast? with
  | some last => { manager with replicationProgressCursor := some last.1 }
  | none => manager

def replicationProgress (metrics : γ → RaftMetrics) (manager : GroupManager γ) :
    ReplicationProgressSnapshot × GroupManager γ :=
  let snapshot : ReplicationProgressSnapshot :=
    { groupsTotal := manager.groups.size
      groupsObserved := manager.sampled.length
      groupsWithLocalLeadership := 0
      configuredReplicaPeers := (manager.peers.keys.filter (· ≠ manager.nodeId)).length
      peerLagEntries := ∅ }
  ((manager.sampled.map fun group => metrics group.2).foldl observeGroup snapshot, manager.advanced)

/-- What each of a sequence of scrapes samples; each scrape has its own metrics. -/
def samples : GroupManager γ → List (γ → RaftMetrics) → List (List (String × γ))
  | _, [] => []
  | manager, metrics :: scrapes =>
    manager.sampled :: samples (manager.replicationProgress metrics).2 scrapes

/-- What each of a sequence of scrapes reports. -/
def snapshots : GroupManager γ → List (γ → RaftMetrics) → List ReplicationProgressSnapshot
  | _, [] => []
  | manager, metrics :: scrapes =>
    (manager.replicationProgress metrics).1 ::
      snapshots (manager.replicationProgress metrics).2 scrapes

/-- A report on a sample: the groups and the leaders in it are counted, and every lag is one of a
group in it. -/
structure Reports (sample : List (String × γ)) (metrics : γ → RaftMetrics)
    (snapshot : ReplicationProgressSnapshot) : Prop where
  observed : snapshot.groupsObserved = sample.length
  leading : snapshot.groupsWithLocalLeadership =
    sample.countP fun group => (metrics group.2).replication.isSome
  lags : snapshot.LagsIn fun peer lag => ∃ group ∈ sample, (metrics group.2).Lags peer lag

theorem reports_replicationProgress (manager : GroupManager γ) (metrics : γ → RaftMetrics) :
    Reports manager.sampled metrics (manager.replicationProgress metrics).1 := by
  obtain ⟨hobserved, hleading, hlags⟩ := foldl_observeGroup_spec
    (manager.sampled.map fun group => metrics group.2)
    { groupsTotal := manager.groups.size
      groupsObserved := manager.sampled.length
      groupsWithLocalLeadership := 0
      configuredReplicaPeers := (manager.peers.keys.filter (· ≠ manager.nodeId)).length
      peerLagEntries := ∅ }
  refine ⟨hobserved, hleading.trans ?_, hlags _ ?_ ?_⟩
  · rw [Nat.zero_add, List.countP_map]
    rfl
  · intro peer lag hget
    rw [Std.ExtTreeMap.getElem?_empty] at hget
    cases hget
  · intro read hread peer lag hlag
    obtain ⟨group, hgroup, rfl⟩ := List.mem_map.1 hread
    exact ⟨group, hgroup, hlag⟩

theorem reports_snapshots (manager : GroupManager γ) (scrapes : List (γ → RaftMetrics)) :
    List.Forall₂ (fun scrape snapshot => Reports scrape.1 scrape.2 snapshot)
      ((manager.samples scrapes).zip scrapes) (manager.snapshots scrapes) := by
  induction scrapes generalizing manager with
  | nil => exact .nil
  | cons metrics scrapes ih => exact .cons (manager.reports_replicationProgress metrics) (ih _)

def dataGroups (manager : GroupManager γ) : List (String × γ) :=
  manager.groups.toList.filter isDataGroup

theorem sorted_dataGroups (manager : GroupManager γ) :
    manager.dataGroups.Pairwise fun a b => a.1 < b.1 := by
  have hordered : manager.groups.toList.Pairwise fun a b => a.1 < b.1 :=
    Std.ExtTreeMap.ordered_keys_toList.imp fun h => compare_lt_iff_lt.1 h
  exact hordered.filter _

variable {manager : GroupManager γ} {entry : String × γ}

theorem mem_dataGroups :
    entry ∈ manager.dataGroups ↔
      manager.groups[entry.1]? = some entry.2 ∧ entry.1 ≠ metadataGroupId := by
  rw [dataGroups, List.mem_filter, Std.ExtTreeMap.mem_toList_iff_getElem?_eq_some, isDataGroup,
    decide_eq_true_eq]

theorem dataSample_eq_window (manager : GroupManager γ) :
    manager.dataSample = Rotation.window Prod.fst (maxReplicationProgressGroups - 1)
      manager.replicationProgressCursor manager.dataGroups := by
  rw [dataSample, Rotation.window]
  cases manager.replicationProgressCursor with
  | none => rfl
  | some last =>
    have hafter := List.filter_comm isDataGroup (fun entry => decide (last < entry.1))
      manager.groups.toList
    have hupTo := List.filter_comm isDataGroup (fun entry => decide (entry.1 ≤ last))
      manager.groups.toList
    simp only [Rotation.turned, dataGroups, List.take_append, hafter, hupTo, List.length_take]
    split_ifs with hroom
    · congr 2
      omega
    · have hfull : maxReplicationProgressGroups - 1 -
          ((manager.groups.toList.filter isDataGroup).filter (last < ·.1)).length = 0 := by
        omega
      rw [hfull, List.take_zero, List.append_nil]

theorem cursor_advanced (manager : GroupManager γ) :
    manager.advanced.replicationProgressCursor =
      Rotation.next Prod.fst (maxReplicationProgressGroups - 1) manager.dataGroups
        manager.replicationProgressCursor := by
  rw [advanced, Rotation.next, ← dataSample_eq_window]
  cases manager.dataSample.getLast? with
  | none => rfl
  | some last => rfl

@[simp] theorem groups_advanced (manager : GroupManager γ) :
    manager.advanced.groups = manager.groups := by
  unfold advanced
  split <;> rfl

theorem mem_sampled :
    entry ∈ manager.sampled ↔
      (entry.1 = metadataGroupId ∧ manager.groups[metadataGroupId]? = some entry.2) ∨
        entry ∈ manager.dataSample := by
  unfold sampled
  cases hmetadata : manager.groups[metadataGroupId]? with
  | none => simp
  | some metadata =>
    rw [List.mem_cons]
    apply or_congr_left
    rw [Prod.ext_iff, Option.some_inj, eq_comm (a := metadata)]

theorem dataSample_subset (h : entry ∈ manager.dataSample) : entry ∈ manager.dataGroups := by
  rw [dataSample_eq_window] at h
  exact Rotation.mem_of_mem_window h

theorem nodup_sampled (manager : GroupManager γ) : (manager.sampled.map Prod.fst).Nodup := by
  have hdata : (manager.dataSample.map Prod.fst).Nodup := by
    rw [dataSample_eq_window]
    exact Rotation.nodup_window manager.sorted_dataGroups
  unfold sampled
  cases manager.groups[metadataGroupId]? with
  | none => exact hdata
  | some metadata =>
    rw [List.map_cons, List.nodup_cons]
    refine ⟨fun hmem => ?_, hdata⟩
    obtain ⟨entry, hentry, hid⟩ := List.mem_map.1 hmem
    exact (mem_dataGroups.1 (dataSample_subset hentry)).2 hid

theorem length_dataSample_le (manager : GroupManager γ) : manager.dataSample.length ≤ 255 := by
  rw [dataSample_eq_window]
  exact List.length_take_le _ _

theorem mem_samples {scrapes : List (γ → RaftMetrics)}
    {sample : List (String × γ)} (h : sample ∈ manager.samples scrapes) :
    ∃ later : GroupManager γ, later.groups = manager.groups ∧ sample = later.sampled := by
  induction scrapes generalizing manager with
  | nil => cases h
  | cons metrics scrapes ih =>
    rcases List.mem_cons.1 h with rfl | h
    · exact ⟨manager, rfl, rfl⟩
    · obtain ⟨later, hgroups, rfl⟩ := ih h
      exact ⟨later, hgroups.trans manager.groups_advanced, rfl⟩

theorem window_mem_samples (manager : GroupManager γ) (scrapes : List (γ → RaftMetrics))
    {round : ℕ} (hround : round < scrapes.length) :
    ∃ sample ∈ manager.samples scrapes,
      ∀ entry ∈ Rotation.window Prod.fst (maxReplicationProgressGroups - 1)
        ((Rotation.next Prod.fst (maxReplicationProgressGroups - 1) manager.dataGroups)^[round]
          manager.replicationProgressCursor) manager.dataGroups, entry ∈ sample := by
  induction scrapes generalizing manager round with
  | nil => cases hround
  | cons metrics scrapes ih =>
    cases round with
    | zero =>
      refine ⟨manager.sampled, List.mem_cons_self, fun entry hentry => ?_⟩
      rw [Function.iterate_zero, id, ← dataSample_eq_window] at hentry
      exact mem_sampled.2 (Or.inr hentry)
    | succ round =>
      obtain ⟨sample, hsample, hmem⟩ := ih manager.advanced (Nat.lt_of_succ_lt_succ hround)
      refine ⟨sample, List.mem_cons_of_mem _ hsample, fun entry hentry => hmem entry ?_⟩
      have hdata : manager.advanced.dataGroups = manager.dataGroups := by
        rw [dataGroups, groups_advanced, ← dataGroups]
      rw [Function.iterate_succ_apply, ← cursor_advanced] at hentry
      rw [hdata]
      exact hentry

/-- Every scrape samples the metadata group and at most 255 data groups, each once, and reports
on what it samples. Consecutive scrapes, as many as windows fill the data groups, sample every data
group, whatever the cursor says when they start. -/
theorem samples_cover (manager : GroupManager γ) (scrapes : List (γ → RaftMetrics))
    (hmetadata : metadataGroupId ∈ manager.groups) :
    (∀ sample ∈ manager.samples scrapes,
      metadataGroupId ∈ sample.map Prod.fst ∧ (sample.map Prod.fst).Nodup ∧
      (sample.filter isDataGroup).length ≤ 255 ∧
      ∀ entry ∈ sample, manager.groups[entry.1]? = some entry.2) ∧
    List.Forall₂ (fun scrape snapshot => Reports scrape.1 scrape.2 snapshot)
      ((manager.samples scrapes).zip scrapes) (manager.snapshots scrapes) ∧
    (max 1 (manager.dataGroups.length ⌈/⌉ 255) ≤ scrapes.length →
      ∀ group ∈ manager.groups, group ≠ metadataGroupId →
        ∃ sample ∈ manager.samples scrapes, group ∈ sample.map Prod.fst) := by
  refine ⟨?_, manager.reports_snapshots scrapes, ?_⟩
  · intro sample hsample
    obtain ⟨later, hgroups, rfl⟩ := mem_samples hsample
    rw [← hgroups] at hmetadata ⊢
    obtain ⟨metadata, hget⟩ := mem_iff_exists_getElem?.1 hmetadata
    refine ⟨?_, later.nodup_sampled, ?_, ?_⟩
    · exact List.mem_map.2 ⟨(metadataGroupId, metadata), mem_sampled.2 (Or.inl ⟨rfl, hget⟩), rfl⟩
    · have hfilter : later.sampled.filter isDataGroup = later.dataSample.filter isDataGroup := by
        rw [sampled, hget]
        exact List.filter_cons_of_neg (by simp [isDataGroup])
      rw [hfilter]
      exact (List.length_filter_le _ _).trans later.length_dataSample_le
    · intro entry hentry
      rcases mem_sampled.1 hentry with ⟨hid, hvalue⟩ | hdata
      · rw [hid]
        exact hvalue
      · exact (mem_dataGroups.1 (dataSample_subset hdata)).1
  · intro hscrapes group hgroup hdata
    obtain ⟨handle, hhandle⟩ := mem_iff_exists_getElem?.1 hgroup
    have hentry : (group, handle) ∈ manager.dataGroups := mem_dataGroups.2 ⟨hhandle, hdata⟩
    have hlength : manager.dataGroups.length ≤
        max 1 (manager.dataGroups.length ⌈/⌉ 255) * (maxReplicationProgressGroups - 1) := by
      rw [Nat.ceilDiv_eq_add_pred_div, maxReplicationProgressGroups]
      omega
    obtain ⟨round, hround, hmem⟩ := Rotation.exists_mem_window manager.replicationProgressCursor
      manager.sorted_dataGroups (by omega) hlength hentry
    obtain ⟨sample, hsample, hwindow⟩ :=
      manager.window_mem_samples scrapes (hround.trans_le hscrapes)
    exact ⟨sample, hsample, List.mem_map.2 ⟨_, hwindow _ hmem, rfl⟩⟩

/-- The data groups of three hundred streams. -/
def manyGroups : List (String × ℕ) :=
  (List.range 300).map fun number =>
    ((Cluster.streamIdentity ("orders-" ++ toString number)).2, number)

/-- A node with more data groups than a scrape reads, and a cursor that names none of them. -/
def withStaleCursor : GroupManager ℕ where
  nodeId := 1
  peers := ∅
  groups := .ofList ((metadataGroupId, 300) :: manyGroups)
  replicationProgressCursor := some (Cluster.streamIdentity "payments").2

theorem nodup_manyGroups : (((metadataGroupId, 300) :: manyGroups).map Prod.fst).Nodup := by
  rw [List.map_cons, List.nodup_cons, manyGroups, List.map_map]
  constructor
  · intro hmem
    obtain ⟨number, -, hid⟩ := List.mem_map.1 hmem
    exact groupId_ne_metadata _ hid
  · refine List.nodup_range.map fun first second hid => ?_
    have hname := Cluster.streamIdentity_group_injective hid
    rw [show "orders-" = "orders" ++ String.singleton '-' by decide] at hname
    exact (append_toString_inj (by decide) hname).2

theorem size_withStaleCursor : withStaleCursor.groups.size = 301 := by
  rw [withStaleCursor, Std.ExtTreeMap.size_ofList]
  · simp [manyGroups]
  · have hne := List.pairwise_map.1 nodup_manyGroups
    exact hne.imp fun hne hsame => hne (compare_eq_iff_eq.1 hsame)

/-- Two scrapes read every group of the node. -/
theorem stale_cursor_covered : withStaleCursor.groups.size = 301 ∧
    ∀ first second : ℕ → RaftMetrics, ∀ group ∈ withStaleCursor.groups, group ≠ metadataGroupId →
      ∃ sample ∈ withStaleCursor.samples [first, second], group ∈ sample.map Prod.fst := by
  refine ⟨size_withStaleCursor, fun first second => ?_⟩
  have hmetadata : metadataGroupId ∈ withStaleCursor.groups :=
    Std.ExtTreeMap.mem_ofList.2 (by simp)
  have hlength : withStaleCursor.dataGroups.length ≤ 301 := by
    rw [← size_withStaleCursor, ← Std.ExtTreeMap.length_toList]
    exact List.length_filter_le _ _
  apply (samples_cover withStaleCursor [first, second] hmetadata).2.2
  rw [Nat.ceilDiv_eq_add_pred_div, List.length_cons, List.length_singleton]
  omega

end GroupManager

end Runnel.Group
