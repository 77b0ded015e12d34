import Runnel.Cluster.Publish

/-!
# Routing to data groups

One metadata group lists the streams of the cluster; each stream has a data group
of its own.
-/

namespace Runnel.Cluster

open Runnel.Engine GroupConsumerState Transition

structure DataGroup where
  stream : String
  streamId : String
  state : SnapshotState

/-- The metadata group and the data groups under their identifiers. -/
structure ClusterState where
  metadata : SnapshotState := {}
  groups : BTreeMap String DataGroup := ∅

/-- The metadata entry of the first stream, in the order of names, whose dead letters go to
the given name. -/
def SnapshotState.deadLetterSource (state : SnapshotState) (deadLetterStream : String) :
    Option (String × StreamState) :=
  state.streams.toList.find? (fun entry => deadLetterStreamName entry.1 = deadLetterStream)

namespace ClusterState

/-- The identifier of the data group that serves a stream. -/
def dataGroupForStream (cluster : ClusterState) (stream : String) : Except BrokerError String := do
  let metadata ← match cluster.metadata.streams[stream]? with
    | some metadata => .ok metadata
    | none =>
      match cluster.metadata.deadLetterSource stream with
      | some (_, metadata) => .ok metadata
      | none => .error (.streamNotFound stream)
  if metadata.lifecycle ≠ .active then
    throw (.streamNotReady stream)
  return metadata.groupId

/-- Opens the data group of a stream that the metadata lists, unless it is open. -/
def ensureDataGroupLocal (cluster : ClusterState) (stream : String) (metadata : StreamState) :
    ClusterState :=
  if metadata.groupId ∈ cluster.groups then cluster
  else
    { cluster with
      groups := cluster.groups.insert metadata.groupId
        { stream := stream, streamId := metadata.streamId, state := {} } }

end ClusterState

/-- What happens in a cluster: a command of the metadata group, the opening of a data group,
or a command of a data group. -/
inductive ClusterEvent where
  | metadata (command : Command) (logId : LogId)
  | ensureDataGroup (stream : String)
  | data (groupId : String) (command : Command) (logId : LogId)

section Steps

variable [ToString LogId]

def ClusterState.next? (cluster : ClusterState) : ClusterEvent → Option ClusterState
  | .metadata command logId =>
    (applyCommand cluster.metadata command .metadata logId).map fun result =>
      { cluster with metadata := result.1 }
  | .ensureDataGroup stream =>
    (cluster.metadata.streams[stream]?).map (cluster.ensureDataGroupLocal stream)
  | .data groupId command logId =>
    (cluster.groups[groupId]?).bind fun group =>
      (applyCommand group.state command (.data group.stream group.streamId groupId) logId).map
        fun result =>
          { cluster with groups := cluster.groups.insert groupId { group with state := result.1 } }

def ClusterStep (before : ClusterState) (event : ClusterEvent) (after : ClusterState) : Prop :=
  before.next? event = some after

end Steps

/-- A stream is created under the identifiers derived from its name, as the engine does. -/
def ClusterEvent.Identified : ClusterEvent → Prop
  | .metadata (.createStream stream streamId groupId) _ =>
    streamId.getD (streamIdentity stream).1 = (streamIdentity stream).1 ∧
      groupId.getD (streamIdentity stream).2 = (streamIdentity stream).2
  | _ => True

def NoStreams (cluster : ClusterState) : Prop := cluster = {}

section Metadata

variable [ToString LogId] {state after : SnapshotState} {command : Command} {logId : LogId}
  {response : CommandResponse}

/-- The metadata group creates streams and activates them; every other command is refused. -/
inductive MetadataEffect (state : SnapshotState) : Command → SnapshotState → Prop
  | unchanged (command : Command) : MetadataEffect state command state
  | create (stream : String) (streamId groupId : Option String) (entry : StreamState)
      (hgroup : entry.groupId = groupId.getD (streamIdentity stream).2) :
      MetadataEffect state (.createStream stream streamId groupId)
        { state with streams := state.streams.insert stream entry }
  | activate (stream : String) (entry : StreamState)
    (hentry : state.streams[stream]? = some entry) :
      MetadataEffect state (.activateStream stream)
        { state with streams := state.streams.insert stream { entry with lifecycle := .active } }

theorem applyCommand_metadata
    (happly : applyCommand state command .metadata logId = some (after, response)) :
    MetadataEffect state command after := by
  have hrefused : applyCommand state command .metadata logId = some (state, .streamNotFound) →
      MetadataEffect state command after := by
    intro heq
    obtain rfl : state = after := congrArg Prod.fst (Option.some.inj (heq.symm.trans happly))
    exact .unchanged _
  cases command with
  | createStream stream streamId groupId =>
    obtain rfl : _ = after := congrArg Prod.fst (Option.some.inj happly)
    simp only [applyCreateStream]
    split_ifs with hmem
    · exact .unchanged _
    · exact .create stream streamId groupId _ rfl
  | initializeDataStream =>
    obtain rfl : state = after := congrArg Prod.fst (Option.some.inj happly)
    exact .unchanged _
  | activateStream stream =>
    obtain rfl : _ = after := congrArg Prod.fst (Option.some.inj happly)
    simp only [applyActivateStream]
    split
    · exact .unchanged _
    · exact .activate stream _ (by assumption)
  | replay =>
    obtain rfl : state = after := congrArg Prod.fst (Option.some.inj happly)
    exact .unchanged _
  | publish => exact hrefused rfl
  | ack => exact hrefused rfl
  | configureConsumer => exact hrefused (by simp [applyCommand, applyConfigureConsumer])
  | pollGroup => exact hrefused rfl
  | pollGroupBatch => exact hrefused rfl
  | ackGroup => exact hrefused rfl
  | ackGroupBatch => exact hrefused rfl

end Metadata

/-- Every listed stream names the group derived from it, and every open group serves a listed
stream. -/
structure Placed (cluster : ClusterState) : Prop where
  derived : ∀ stream entry, cluster.metadata.streams[stream]? = some entry →
    entry.groupId = (streamIdentity stream).2
  listed : ∀ (groupId : String) (group : DataGroup), cluster.groups[groupId]? = some group →
    group.stream ∈ cluster.metadata.streams ∧ groupId = (streamIdentity group.stream).2
  wellFormed : ∀ (groupId : String) (group : DataGroup), cluster.groups[groupId]? = some group →
    group.state.WellFormed

/-- Groups stay open for their stream, and their streams only grow. -/
def Keeps (before after : ClusterState) : Prop :=
  ∀ (groupId : String) (group : DataGroup), before.groups[groupId]? = some group →
    ∃ current : DataGroup, after.groups[groupId]? = some current ∧ current.stream = group.stream ∧
      ∀ stream, group.state.messages stream <+: current.state.messages stream

theorem Keeps.refl (cluster : ClusterState) : Keeps cluster cluster :=
  fun _ group h => ⟨group, h, rfl, fun _ => List.prefix_refl _⟩

theorem Keeps.trans {first second third : ClusterState} (h : Keeps first second)
    (h' : Keeps second third) : Keeps first third := by
  intro groupId group hgroup
  obtain ⟨middle, hmiddle, hstream, hgrow⟩ := h groupId group hgroup
  obtain ⟨current, hcurrent, hstream', hgrow'⟩ := h' groupId middle hmiddle
  exact ⟨current, hcurrent, hstream'.trans hstream,
    fun stream => (hgrow stream).trans (hgrow' stream)⟩

theorem placed_empty : Placed {} where
  derived _ _ h := by simp at h
  listed _ _ h := by simp at h
  wellFormed _ _ h := by simp at h

section Placement

variable {cluster after : ClusterState}

theorem Placed.metadata (h : Placed cluster) {state : SnapshotState} {command : Command}
    {logId : LogId} (hidentified : (ClusterEvent.metadata command logId).Identified)
    (heffect : MetadataEffect cluster.metadata command state) :
    Placed { cluster with metadata := state } := by
  cases heffect with
  | unchanged => exact h
  | create stream streamId groupId entry hgroup =>
    refine ⟨fun other found hget => ?_, fun id group hget => ?_, h.wellFormed⟩
    · rw [Std.ExtTreeMap.getElem?_insert] at hget
      split_ifs at hget with hsame
      · obtain rfl := Std.LawfulEqCmp.eq_of_compare hsame
        rw [← Option.some.inj hget, hgroup]
        exact hidentified.2
      · exact h.derived other found hget
    · exact ⟨Std.ExtTreeMap.mem_insert.2 (Or.inr (h.listed id group hget).1),
        (h.listed id group hget).2⟩
  | activate stream entry hentry =>
    refine ⟨fun other found hget => ?_, fun id group hget => ?_, h.wellFormed⟩
    · rw [Std.ExtTreeMap.getElem?_insert] at hget
      split_ifs at hget with hsame
      · obtain rfl := Std.LawfulEqCmp.eq_of_compare hsame
        rw [← Option.some.inj hget]
        exact h.derived stream entry hentry
      · exact h.derived other found hget
    · exact ⟨Std.ExtTreeMap.mem_insert.2 (Or.inr (h.listed id group hget).1),
        (h.listed id group hget).2⟩

theorem Placed.ensureDataGroupLocal (h : Placed cluster) {stream : String}
    {metadata : StreamState} (hlisted : cluster.metadata.streams[stream]? = some metadata) :
    Placed (cluster.ensureDataGroupLocal stream metadata) ∧
      Keeps cluster (cluster.ensureDataGroupLocal stream metadata) := by
  unfold ClusterState.ensureDataGroupLocal
  split_ifs with hopen
  · exact ⟨h, Keeps.refl cluster⟩
  · have hinsert : ∀ groupId group, (cluster.groups.insert metadata.groupId
        { stream := stream, streamId := metadata.streamId, state := {} })[groupId]? = some group →
        metadata.groupId = groupId ∧
          group = { stream := stream, streamId := metadata.streamId, state := {} } ∨
        cluster.groups[groupId]? = some group := by
      intro groupId group hget
      rw [Std.ExtTreeMap.getElem?_insert] at hget
      split_ifs at hget with hsame
      · exact Or.inl ⟨Std.LawfulEqCmp.eq_of_compare hsame, (Option.some.inj hget).symm⟩
      · exact Or.inr hget
    refine ⟨⟨h.derived, fun groupId group hget => ?_, fun groupId group hget => ?_⟩,
      fun groupId group hget => ⟨group, ?_, rfl, fun _ => List.prefix_refl _⟩⟩
    · rcases hinsert groupId group hget with ⟨rfl, rfl⟩ | hget
      · exact ⟨mem_iff_exists_getElem?.2 ⟨metadata, hlisted⟩, h.derived stream metadata hlisted⟩
      · exact h.listed groupId group hget
    · rcases hinsert groupId group hget with ⟨-, rfl⟩ | hget
      · intro key consumer hconsumer
        simp at hconsumer
      · exact h.wellFormed groupId group hget
    · rw [Std.ExtTreeMap.getElem?_insert, if_neg]
      · exact hget
      · intro hsame
        obtain rfl := Std.LawfulEqCmp.eq_of_compare hsame
        exact hopen (mem_iff_exists_getElem?.2 ⟨group, hget⟩)

theorem Placed.data (h : Placed cluster) {groupId : String} {group : DataGroup}
    (hgroup : cluster.groups[groupId]? = some group) {command : Command} {state : SnapshotState}
    (heffect : Effect group.state command state) :
    Placed { cluster with groups := cluster.groups.insert groupId { group with state := state } } ∧
      Keeps cluster
        { cluster with groups := cluster.groups.insert groupId { group with state := state } } := by
  have hget : ∀ other, (cluster.groups.insert groupId { group with state := state })[other]? =
      if groupId = other then some { group with state := state } else cluster.groups[other]? := by
    intro other
    simp only [Std.ExtTreeMap.getElem?_insert, Std.LawfulEqCmp.compare_eq_iff_eq]
  refine ⟨⟨h.derived, fun other found hfound => ?_, fun other found hfound => ?_⟩,
    fun other found hfound => ?_⟩
  · rw [hget] at hfound
    split_ifs at hfound with hsame
    · rw [← hsame, ← Option.some.inj hfound]
      exact h.listed groupId group hgroup
    · exact h.listed other found hfound
  · rw [hget] at hfound
    split_ifs at hfound with hsame
    · rw [← Option.some.inj hfound]
      exact heffect.wellFormed (h.wellFormed groupId group hgroup)
    · exact h.wellFormed other found hfound
  · rw [hget]
    split_ifs with hsame
    · subst hsame
      obtain rfl := Option.some.inj (hgroup.symm.trans hfound)
      exact ⟨_, rfl, rfl, heffect.messages_grow⟩
    · exact ⟨found, hfound, rfl, fun _ => List.prefix_refl _⟩

theorem Placed.step [ToString LogId] (h : Placed cluster) {event : ClusterEvent}
    (hidentified : event.Identified)
    (hstep : ClusterStep cluster event after) : Placed after ∧ Keeps cluster after := by
  cases event with
  | metadata command logId =>
    obtain ⟨⟨state, response⟩, happly, rfl⟩ := Option.map_eq_some_iff.1 hstep
    exact ⟨h.metadata hidentified (applyCommand_metadata happly), Keeps.refl cluster⟩
  | ensureDataGroup stream =>
    obtain ⟨metadata, hlisted, rfl⟩ := Option.map_eq_some_iff.1 hstep
    exact h.ensureDataGroupLocal hlisted
  | data groupId command logId =>
    obtain ⟨group, hgroup, happly⟩ := Option.bind_eq_some_iff.1 hstep
    obtain ⟨⟨state, response⟩, hresult, rfl⟩ := Option.map_eq_some_iff.1 happly
    have happlied : ApplyStep (.data group.stream group.streamId groupId) group.state
        (command, logId) state := ⟨response, hresult⟩
    exact h.data hgroup (happlied.effect (h.wellFormed groupId group hgroup))

end Placement

/-- The dead letters of a stream are routed to its group: it is active, and no stream was
created that takes the derived name over or claims it first. -/
def RoutesDeadLetters (metadata : SnapshotState) (source : String) : Prop :=
  metadata.streamActive source ∧
    (deadLetterStreamName source = source ∨
      deadLetterStreamName source ∉ metadata.streams ∧
        ∀ other ∈ metadata.streams, compare other source = .lt →
          deadLetterStreamName other ≠ deadLetterStreamName source)

theorem deadLetterSource_eq_some {state : SnapshotState} {name stream : String}
    {entry : StreamState} (h : state.deadLetterSource name = some (stream, entry)) :
    state.streams[stream]? = some entry ∧ deadLetterStreamName stream = name ∧
      ∀ other ∈ state.streams, compare other stream = .lt → deadLetterStreamName other ≠ name := by
  have : Std.Asymm (fun a b : String × StreamState => compare a.1 b.1 = .lt) :=
    ⟨fun _ _ hlt hgt => by rw [Std.OrientedCmp.gt_of_lt hlt] at hgt; cases hgt⟩
  obtain ⟨hmem, hname, hleast⟩ :=
    find?_eq_some_of_pairwise Std.ExtTreeMap.ordered_keys_toList h
  refine ⟨Std.ExtTreeMap.mem_toList_iff_getElem?_eq_some.1 hmem, of_decide_eq_true hname, ?_⟩
  intro other hother hlt
  obtain ⟨found, hfound⟩ := mem_iff_exists_getElem?.1 hother
  exact of_decide_eq_false
    (hleast (other, found) (Std.ExtTreeMap.mem_toList_iff_getElem?_eq_some.2 hfound) hlt)

/-- A listed stream with the derived name is found, and it is the given one exactly if no smaller
name has the same derived name. -/
theorem exists_deadLetterSource {state : SnapshotState} {source : String}
    (h : source ∈ state.streams) :
    ∃ stream entry, state.deadLetterSource (deadLetterStreamName source) = some (stream, entry) ∧
      (stream = source ↔ ∀ other ∈ state.streams, compare other source = .lt →
        deadLetterStreamName other ≠ deadLetterStreamName source) := by
  obtain ⟨entry, hentry⟩ := mem_iff_exists_getElem?.1 h
  cases hfound : state.deadLetterSource (deadLetterStreamName source) with
  | none =>
    have hnot := List.find?_eq_none.1 hfound (source, entry)
      (Std.ExtTreeMap.mem_toList_iff_getElem?_eq_some.2 hentry)
    simp at hnot
  | some found =>
    obtain ⟨hget, hname, hleast⟩ := deadLetterSource_eq_some hfound
    refine ⟨found.1, found.2, rfl, fun heq => heq ▸ hleast, fun hfirst => ?_⟩
    by_contra hne
    rcases hcompare : compare found.1 source with _ | _ | _
    · exact hfirst found.1 (mem_iff_exists_getElem?.2 ⟨_, hget⟩) hcompare hname
    · exact hne (Std.LawfulEqCmp.eq_of_compare hcompare)
    · exact hleast source h (Std.OrientedCmp.lt_of_gt hcompare) rfl

section Route

variable {cluster : ClusterState} {name : String}

theorem dataGroupForStream_of_entry {entry : StreamState}
    (h : cluster.metadata.streams[name]? = some entry) :
    cluster.dataGroupForStream name =
      if entry.lifecycle ≠ .active then .error (.streamNotReady name) else .ok entry.groupId := by
  rw [ClusterState.dataGroupForStream, h]
  rfl

theorem dataGroupForStream_of_source {stream : String} {entry : StreamState}
    (h : cluster.metadata.streams[name]? = none)
    (hsource : cluster.metadata.deadLetterSource name = some (stream, entry)) :
    cluster.dataGroupForStream name =
      if entry.lifecycle ≠ .active then .error (.streamNotReady name) else .ok entry.groupId := by
  rw [ClusterState.dataGroupForStream, h]
  simp only [hsource]
  rfl

theorem Placed.leads_iff (h : Placed cluster) {stream source : String} {entry : StreamState}
    (hentry : cluster.metadata.streams[stream]? = some entry) :
    (if entry.lifecycle ≠ .active then .error (.streamNotReady name) else .ok entry.groupId :
        Except BrokerError String) = .ok (streamIdentity source).2 ↔
      cluster.metadata.streamActive source ∧ stream = source := by
  rw [SnapshotState.streamActive_iff, h.derived stream entry hentry]
  constructor
  · intro hok
    split_ifs at hok with hactive
    obtain rfl := streamIdentity_group_injective (Except.ok.inj hok)
    exact ⟨⟨entry, hentry, by simpa [StreamState.isActive] using hactive⟩, rfl⟩
  · rintro ⟨⟨found, hfound, hactive⟩, rfl⟩
    obtain rfl := Option.some.inj (hentry.symm.trans hfound)
    have hlifecycle : entry.lifecycle = .active := by simpa [StreamState.isActive] using hactive
    rw [if_neg (not_not.2 hlifecycle)]

theorem dataGroupForStream_deadLetters (h : Placed cluster) {source : String}
    (hsource : source ∈ cluster.metadata.streams) :
    cluster.dataGroupForStream (deadLetterStreamName source) = .ok (streamIdentity source).2 ↔
      RoutesDeadLetters cluster.metadata source := by
  cases hget : cluster.metadata.streams[deadLetterStreamName source]? with
  | some entry =>
    have hmem : deadLetterStreamName source ∈ cluster.metadata.streams :=
      mem_iff_exists_getElem?.2 ⟨entry, hget⟩
    rw [dataGroupForStream_of_entry hget, h.leads_iff hget, RoutesDeadLetters]
    simp only [hmem, not_true_eq_false, false_and, or_false]
  | none =>
    have hmem : deadLetterStreamName source ∉ cluster.metadata.streams := by
      rw [mem_iff_exists_getElem?, hget]
      rintro ⟨_, ⟨⟩⟩
    have hne : deadLetterStreamName source ≠ source := fun heq => hmem (heq.symm ▸ hsource)
    obtain ⟨stream, entry, hfound, hfirst⟩ := exists_deadLetterSource hsource
    rw [dataGroupForStream_of_source hget hfound,
      h.leads_iff (deadLetterSource_eq_some hfound).1, hfirst, RoutesDeadLetters]
    simp only [hmem, hne, not_false_eq_true, true_and, false_or]

end Route

section Runs

variable [ToString LogId] {past : List (ClusterState × ClusterEvent)} {cluster : ClusterState}

theorem Run.placed
    (h : Run NoStreams (guarded (fun _ event => event.Identified) ClusterStep) past cluster) :
    Placed cluster := by
  refine h.invariant ?_ fun cluster event after hplaced hstep => (hplaced.step hstep.1 hstep.2).1
  rintro _ rfl
  exact placed_empty

theorem Run.keeps
    (h : Run NoStreams (guarded (fun _ event => event.Identified) ClusterStep) past cluster)
    {before after : ClusterState} {event : ClusterEvent} (hpast : (before, event) ∈ past)
    (hstep : ClusterStep before event after) : Keeps after cluster := by
  have hinit : ∀ start, NoStreams start → Placed start := by
    rintro _ rfl
    exact placed_empty
  obtain ⟨-, after', hafter, hkeeps⟩ := h.later hinit
    (fun cluster event after hplaced hstep => hplaced.step hstep.1 hstep.2) Keeps.refl
    (fun _ _ _ hfirst hsecond => hfirst.trans hsecond) hpast
  obtain rfl : after = after' := Option.some.inj (hstep.symm.trans hafter.2)
  exact hkeeps

/-- Every record that a command of a data group left in the dead-letter stream of the group's
source is still in that group, and a read of the derived name is routed to the group exactly if
the source is active and no other stream of the metadata takes the name. -/
theorem dead_letters_routed_iff
    (hrun : Run NoStreams (guarded (fun _ event => event.Identified) ClusterStep) past cluster)
    {before after : ClusterState} {groupId : String} {command : Command} {logId : LogId}
    (hpast : (before, .data groupId command logId) ∈ past)
    (hstep : ClusterStep before (.data groupId command logId) after) {group : DataGroup}
    (hgroup : after.groups[groupId]? = some group) {offset : ℕ} {record : StoredMessage}
    (hrecord : (group.state.messages (deadLetterStreamName group.stream))[offset]? = some record) :
    (∃ current, cluster.groups[groupId]? = some current ∧
      (current.state.messages (deadLetterStreamName group.stream))[offset]? = some record) ∧
    (cluster.dataGroupForStream (deadLetterStreamName group.stream) = .ok groupId ↔
      RoutesDeadLetters cluster.metadata group.stream) := by
  obtain ⟨current, hcurrent, hstream, hgrow⟩ := Run.keeps hrun hpast hstep groupId group hgroup
  have hplaced := Run.placed hrun
  obtain ⟨hlisted, hderived⟩ := hplaced.listed groupId current hcurrent
  obtain ⟨hlength, rfl⟩ := List.getElem?_eq_some_iff.1 hrecord
  refine ⟨⟨current, hcurrent, List.prefix_iff_getElem?.1 (hgrow _) offset hlength⟩, ?_⟩
  rw [hderived, ← hstream]
  exact dataGroupForStream_deadLetters hplaced hlisted

end Runs

section Examples

open scoped LogId.Display

def deliveredJob : List ClusterEvent :=
  [.metadata (.createStream "jobs" none none) ⟨1, 1, 1⟩,
   .metadata (.activateStream "jobs") ⟨1, 1, 2⟩,
   .ensureDataGroup "jobs",
   .data "group/jobs/data" (.initializeDataStream "jobs" "stream/jobs" "group/jobs/data") ⟨1, 1, 1⟩,
   .data "group/jobs/data" (.publish "jobs" none [7] 3 none) ⟨1, 1, 2⟩,
   .data "group/jobs/data"
     (.pollGroup ⟨"jobs", "workers", "a", none, 10000, 5, 50, some 1, some 45, none⟩) ⟨1, 1, 3⟩]

/-- The poll that finds the lease expired and the budget used up. -/
def exhaustingPoll : ClusterEvent :=
  .data "group/jobs/data"
    (.pollGroup ⟨"jobs", "workers", "a", none, 10000, 60, 105, some 1, some 45, none⟩) ⟨1, 1, 4⟩

theorem deliveredJob_identified : ∀ event ∈ deliveredJob, event.Identified := by
  intro event hevent
  simp only [deliveredJob, List.mem_cons, List.not_mem_nil, or_false] at hevent
  rcases hevent with rfl | rfl | rfl | rfl | rfl | rfl
  · exact ⟨rfl, rfl⟩
  all_goals trivial

/-- The dead-letter stream of the jobs created as a stream of its own. -/
def takenName : List ClusterEvent :=
  [.metadata (.createStream "jobs.dead-letter" none none) ⟨1, 1, 3⟩,
   .metadata (.activateStream "jobs.dead-letter") ⟨1, 1, 4⟩]

theorem takenName_identified : ∀ event ∈ takenName, event.Identified := by
  intro event hevent
  simp only [takenName, List.mem_cons, List.not_mem_nil, or_false] at hevent
  rcases hevent with rfl | rfl
  · exact ⟨rfl, rfl⟩
  · trivial

theorem run_of_follow {events : List ClusterEvent} {past past' : List (ClusterState × ClusterEvent)}
    {cluster after : ClusterState} (hidentified : ∀ event ∈ events, event.Identified)
    (h : Run NoStreams (guarded (fun _ event => event.Identified) ClusterStep) past cluster)
    (hfollow : follow ClusterState.next? events past cluster = some (past', after)) :
    Run NoStreams (guarded (fun _ event => event.Identified) ClusterStep) past' after :=
  Run.of_follow (fun event hevent _ _ hnext => ⟨hidentified event hevent, hnext⟩) h hfollow

/-- The exhausting poll leaves the job in the dead-letter stream of its group, which is read
there until the name is created. -/
theorem exists_dead_letter :
    ∃ past before after group,
      Run NoStreams (guarded (fun _ event => event.Identified) ClusterStep) past before ∧
      ClusterStep before exhaustingPoll after ∧
      after.groups["group/jobs/data"]? = some group ∧ group.stream = "jobs" ∧
      (group.state.messages "jobs.dead-letter")[0]? = some ⟨none, [7], 3⟩ ∧
      after.dataGroupForStream "jobs.dead-letter" = .ok "group/jobs/data" ∧
      ∃ past' taken,
        follow ClusterState.next? takenName ((before, exhaustingPoll) :: past) after =
          some (past', taken) ∧
        taken.dataGroupForStream "jobs.dead-letter" = .ok "group/jobs.dead-letter/data" := by
  have hsome : (follow ClusterState.next? deliveredJob [] {}).any fun result =>
      (result.2.next? exhaustingPoll).any fun after =>
        ((after.groups["group/jobs/data"]?).any fun group => group.stream = "jobs" ∧
          (group.state.messages "jobs.dead-letter")[0]? = some ⟨none, [7], 3⟩) ∧
        after.dataGroupForStream "jobs.dead-letter" = .ok "group/jobs/data" ∧
        (follow ClusterState.next? takenName ((result.2, exhaustingPoll) :: result.1) after).any
          fun taken =>
            taken.2.dataGroupForStream "jobs.dead-letter" = .ok "group/jobs.dead-letter/data" := by
    decide +kernel
  obtain ⟨⟨past, before⟩, hfollow, hafter⟩ := (Option.any_eq_true _ _).1 hsome
  obtain ⟨after, hstep, hfacts⟩ := (Option.any_eq_true _ _).1 hafter
  obtain ⟨hgroup, hroute, htaken⟩ := of_decide_eq_true hfacts
  obtain ⟨group, hget, hstored⟩ := (Option.any_eq_true _ _).1 hgroup
  obtain ⟨hstream, hrecord⟩ := of_decide_eq_true hstored
  obtain ⟨⟨past', taken⟩, hlater, hhidden⟩ := (Option.any_eq_true _ _).1 htaken
  exact ⟨past, before, after, group, run_of_follow deliveredJob_identified (.start rfl) hfollow,
    hstep, hget, hstream, hrecord, hroute, past', taken, hlater, of_decide_eq_true hhidden⟩

/-- Before the name is created, a read of it is routed to the dead letter. -/
theorem dead_letter_routed_to_source :
    ∃ past cluster,
      Run NoStreams (guarded (fun _ event => event.Identified) ClusterStep) past cluster ∧
      cluster.dataGroupForStream "jobs.dead-letter" = .ok "group/jobs/data" ∧
      RoutesDeadLetters cluster.metadata "jobs" := by
  obtain ⟨past, before, after, group, hrun, hstep, hget, hstream, hrecord, hroute, -⟩ :=
    exists_dead_letter
  have hname : deadLetterStreamName group.stream = "jobs.dead-letter" := by
    rw [hstream]
    decide +kernel
  have hnext := hrun.next (a := exhaustingPoll) ⟨trivial, hstep⟩
  have hiff := (dead_letters_routed_iff hnext (List.mem_cons_self ..) hstep hget
    (hname.symm ▸ hrecord)).2
  rw [hname, hstream] at hiff
  exact ⟨_, after, hnext, hroute, hiff.1 hroute⟩

/-- Once a stream with the derived name is created, a read of the name is routed to the group of
that stream, and the dead letter in the source's group is out of reach. -/
theorem created_stream_hides_dead_letter :
    ∃ past before after group cluster,
      Run NoStreams (guarded (fun _ event => event.Identified) ClusterStep) past cluster ∧
      (before, exhaustingPoll) ∈ past ∧ ClusterStep before exhaustingPoll after ∧
      after.groups["group/jobs/data"]? = some group ∧ group.stream = "jobs" ∧
      (group.state.messages (deadLetterStreamName "jobs"))[0]? = some ⟨none, [7], 3⟩ ∧
      cluster.dataGroupForStream (deadLetterStreamName "jobs") ≠ .ok "group/jobs/data" := by
  obtain ⟨past, before, after, group, hrun, hstep, hget, hstream, hrecord, -, past', taken, hlater,
    hhidden⟩ := exists_dead_letter
  have hname : deadLetterStreamName "jobs" = "jobs.dead-letter" := by decide +kernel
  have hnext := hrun.next (a := exhaustingPoll) ⟨trivial, hstep⟩
  refine ⟨past', before, after, group, taken, run_of_follow takenName_identified hnext hlater,
    (suffix_of_follow hlater).mem (List.mem_cons_self ..), hstep, hget, hstream, ?_, ?_⟩
  · rw [hname]
    exact hrecord
  · rw [hname, hhidden]
    decide

end Examples

end Runnel.Cluster
