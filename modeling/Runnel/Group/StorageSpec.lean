import Runnel.Foundation.Fallible
import Runnel.Group.Storage

/-!
# What opening accepts

The checks of a group read its own directory only, and the check of all groups
accepts exactly if it accepts every entry, in whatever order they are listed.
-/

namespace Runnel.Group

open Runnel.Engine Runnel.Cluster

def unhex (digits : Bytes) : UInt8 :=
  digits.foldl (fun value digit =>
    value * 16 + if digit < 0x3a then digit - 0x30 else digit - 0x57) 0

theorem unhex_hexByte (byte : UInt8) : unhex (hexByte byte) = byte := by
  have hall : ∀ value : Fin 256, unhex (hexByte (UInt8.ofFin value)) = UInt8.ofFin value := by
    decide +kernel
  exact hall byte.toFin

theorem hexByte_injective : Function.Injective hexByte :=
  Function.LeftInverse.injective unhex_hexByte

theorem length_pathComponent (value : String) :
    (pathComponent value).length = 2 * (utf8 value).length := by
  have hlen : ∀ byte, (hexByte byte).length = 2 := fun _ => rfl
  simp only [pathComponent, List.length_flatMap, hlen, List.map_const', List.sum_replicate,
    smul_eq_mul, mul_comm]

theorem pathComponent_injective : Function.Injective pathComponent := by
  have hbytes : Function.Injective fun bytes : Bytes => bytes.flatMap hexByte := by
    intro first second h
    induction first generalizing second with
    | nil =>
      cases second with
      | nil => rfl
      | cons byte rest => cases h
    | cons byte rest ih =>
      cases second with
      | nil => cases h
      | cons byte' rest' =>
        obtain ⟨hbyte, hrest⟩ := List.append_inj h rfl
        rw [hexByte_injective hbyte, ih hrest]
  intro a b h
  exact utf8_injective (hbytes h)

theorem groupId_ne_metadata (stream : String) : (streamIdentity stream).2 ≠ metadataGroupId := by
  intro h
  have hbytes := congrArg (fun text => (utf8 text).take 1) h
  simp only [streamIdentity, utf8_append, List.append_assoc] at hbytes
  revert hbytes
  rw [show utf8 "group/" = utf8 "g" ++ utf8 "roup/" by decide, List.append_assoc,
    List.take_append_of_le_length (by decide)]
  decide

section Acceptance

variable {files : NodeFiles} {tree : FileTree}

/-- The nodes of a group directory with no log and no state machine. -/
structure Fresh (nodes : GroupNodes) : Prop where
  marker : nodes [markerFile] = none
  family : nodes [segmentsDirectory] = none
  stateMachine : nodes [stateMachineDirectory] = none

theorem validatePersistedGroupStorage_of_fresh {directory : List Bytes} {nodes : GroupNodes}
    (h : Fresh nodes) (hdirectory : nodes [] = some .directory) :
    validatePersistedGroupStorage files directory nodes = .ok () := by
  simp [validatePersistedGroupStorage, validateLog, validateStateMachineStorage, hdirectory,
    h.marker, h.family, h.stateMachine, bind, Except.bind]

theorem openGroup_of_fresh {directory : List Bytes} (h : Fresh (tree.below directory))
    (kind : GroupKind) : openGroup files tree directory kind = .ok () := by
  simp [openGroup, openLog, openStateMachine, h.marker, h.family, h.stateMachine, bind, Except.bind]

structure Entry (files : NodeFiles) (path : List Bytes) (nodes : GroupNodes)
    (manifest : DataGroupManifest) : Prop where
  directory : nodes [] = some .directory
  bytes : ∃ bytes, nodes [manifestFile] = some (.file bytes) ∧
    files.manifest.decode bytes = .ok manifest
  stream : path = dataGroupDirectory manifest.stream
  identity : (manifest.streamId, manifest.groupId) = streamIdentity manifest.stream
  storage : validatePersistedGroupStorage files path nodes = .ok ()

theorem readManifest_eq_ok_iff {path : List Bytes} {nodes : GroupNodes}
    {invalid : String → BrokerError} {manifest : DataGroupManifest} :
    readManifest files path nodes invalid = .ok manifest ↔
      nodes [] = some .directory ∧ ∃ bytes, nodes [manifestFile] = some (.file bytes) ∧
        files.manifest.decode bytes = .ok manifest := by
  unfold readManifest
  by_cases hdirectory : nodes [] = some .directory
  · simp only [hdirectory, ne_eq, not_true_eq_false, if_false, true_and]
    cases hnode : nodes [manifestFile] with
    | none => simp
    | some node =>
      cases node with
      | directory => simp
      | file bytes => cases hdecode : files.manifest.decode bytes <;> simp [hdecode]
  · simp [hdirectory]

theorem validateEntry_eq_ok_iff {path : List Bytes} {nodes : GroupNodes} :
    validateEntry files path nodes = .ok () ↔ ∃ manifest, Entry files path nodes manifest := by
  constructor
  · intro h
    obtain ⟨manifest, hmanifest, h⟩ := except_bind_eq_ok_iff.1 h
    obtain ⟨hdirectory, hbytes⟩ := readManifest_eq_ok_iff.1 hmanifest
    split_ifs at h with hpath hidentity
    exact ⟨manifest, hdirectory, hbytes, not_not.1 hpath, not_not.1 hidentity, h⟩
  · rintro ⟨manifest, h⟩
    have hmanifest := fun invalid => (@readManifest_eq_ok_iff files path nodes invalid manifest).2
      ⟨h.directory, h.bytes⟩
    simp only [validateEntry, hmanifest, bind, Except.bind]
    rw [if_neg (not_not.2 h.stream), if_neg (not_not.2 h.identity)]
    exact h.storage

variable {names : List Bytes}

theorem validateEntries_eq_ok_iff :
    validateEntries files tree names = .ok () ↔ ∀ name ∈ names, ∃ manifest,
      Entry files (dataGroupsDirectory ++ [name]) (tree.below (dataGroupsDirectory ++ [name]))
        manifest := by
  induction names with
  | nil => simp [validateEntries]
  | cons name rest ih =>
    rw [List.forall_mem_cons, ← ih, ← validateEntry_eq_ok_iff, validateEntries,
      except_bind_eq_ok_iff]
    constructor
    · rintro ⟨_, hfirst, hrest⟩
      exact ⟨hfirst, hrest⟩
    · rintro ⟨hfirst, hrest⟩
      exact ⟨(), hfirst, hrest⟩

def DataGroupManifest.kind (manifest : DataGroupManifest) : GroupKind :=
  .data manifest.stream manifest.streamId manifest.groupId

abbrev Manifests := Bytes → DataGroupManifest

def Accepted (files : NodeFiles) (tree : FileTree) (manifests : Manifests) (names : List Bytes) :
    Prop :=
  ∀ name ∈ names, Entry files (dataGroupsDirectory ++ [name])
    (tree.below (dataGroupsDirectory ++ [name])) (manifests name)

theorem Entry.ensure {path : List Bytes} {manifest : DataGroupManifest}
    (h : Entry files path (tree.below path) manifest) (groups : List String) :
    ensureDataGroupLocal files tree groups manifest = .ok [] := by
  obtain ⟨bytes, hbytes, -⟩ := h.bytes
  have hdirectory : tree.node path = some .directory := by
    have hself := h.directory
    rwa [FileTree.below, List.append_nil] at hself
  have hmanifest : tree.exists? (path ++ [manifestFile]) = true := by
    rw [FileTree.exists?, show tree.node (path ++ [manifestFile]) = _ from hbytes]
    rfl
  rw [h.stream] at hdirectory hmanifest
  simp [ensureDataGroupLocal, hdirectory, hmanifest]

variable {manifests : Manifests}

theorem Accepted.groupId_inj
    (h : Accepted files tree manifests names) {name other : Bytes} (hname : name ∈ names)
    (hother : other ∈ names) (hsame : (manifests name).groupId = (manifests other).groupId) :
    name = other := by
  have hidentity := congrArg Prod.snd (h name hname).identity
  have hidentity' := congrArg Prod.snd (h other hother).identity
  have hstream := streamIdentity_group_injective (hidentity.symm.trans (hsame.trans hidentity'))
  have hpath := (h name hname).stream
  rw [hstream, ← (h other hother).stream] at hpath
  exact (FileTree.concat_eq_concat.1 hpath).2

variable {groups : List String}

theorem restoreDataGroups_cons {name : Bytes} {rest : List Bytes}
    (h : Entry files (dataGroupsDirectory ++ [name])
      (tree.below (dataGroupsDirectory ++ [name])) (manifests name)) :
    restoreDataGroups files tree groups (name :: rest) =
      if (manifests name).groupId ∈ groups then restoreDataGroups files tree groups rest
      else
        openGroup files tree (dataGroupsDirectory ++ [name]) (manifests name).kind >>= fun _ =>
          restoreDataGroups files tree (groups ++ [(manifests name).groupId]) rest := by
  have hmanifest := (@readManifest_eq_ok_iff files (dataGroupsDirectory ++ [name]) _
    BrokerError.state _).2 ⟨h.directory, h.bytes⟩
  have hpath : dataGroupDirectory (manifests name).stream = dataGroupsDirectory ++ [name] :=
    h.stream.symm
  have hsteps : tree.steps [] = some tree := rfl
  simp only [restoreDataGroups, hmanifest, h.ensure, hsteps, hpath, bind, Except.bind]
  rfl

/-- Restoring accepted entries opens each of their groups that is not there yet. -/
theorem Accepted.of_restore {groups' : List String} (h : Accepted files tree manifests names)
    (hrestore : restoreDataGroups files tree groups names = .ok groups') :
    (∀ name ∈ names, (manifests name).groupId ∈ groups ∨
      openGroup files tree (dataGroupsDirectory ++ [name]) (manifests name).kind = .ok ()) ∧
    ∀ id, id ∈ groups' ↔ id ∈ groups ∨ ∃ name ∈ names, id = (manifests name).groupId := by
  induction names generalizing groups with
  | nil =>
    obtain rfl := Except.ok.inj hrestore
    simp
  | cons name rest ih =>
    have hrest : Accepted files tree manifests rest := fun other hother =>
      h other (List.mem_cons_of_mem _ hother)
    rw [restoreDataGroups_cons (h name List.mem_cons_self)] at hrestore
    split_ifs at hrestore with hthere
    · obtain ⟨hopened, hids⟩ := ih hrest hrestore
      refine ⟨List.forall_mem_cons.2 ⟨Or.inl hthere, hopened⟩, fun id => ?_⟩
      rw [hids, List.exists_mem_cons_iff]
      constructor
      · rintro (hid | hid)
        · exact Or.inl hid
        · exact Or.inr (Or.inr hid)
      · rintro (hid | rfl | hid)
        · exact Or.inl hid
        · exact Or.inl hthere
        · exact Or.inr hid
    · obtain ⟨_, hopen, hrestore⟩ := except_bind_eq_ok_iff.1 hrestore
      obtain ⟨hopened, hids⟩ := ih hrest hrestore
      refine ⟨List.forall_mem_cons.2 ⟨Or.inr hopen, fun other hother => ?_⟩, fun id => ?_⟩
      · rcases hopened other hother with hid | hid
        · rcases List.mem_append.1 hid with hid | hid
          · exact Or.inl hid
          · have hsame := h.groupId_inj (List.mem_cons_of_mem _ hother) List.mem_cons_self
              (List.mem_singleton.1 hid)
            exact Or.inr (hsame ▸ hopen)
        · exact Or.inr hid
      · rw [hids, List.mem_append, List.mem_singleton, List.exists_mem_cons_iff, or_assoc]

theorem Accepted.restore (h : Accepted files tree manifests names) (hopen : ∀ name ∈ names,
      openGroup files tree (dataGroupsDirectory ++ [name]) (manifests name).kind = .ok ())
    (groups : List String) :
    ∃ groups', restoreDataGroups files tree groups names = .ok groups' := by
  induction names generalizing groups with
  | nil => exact ⟨groups, rfl⟩
  | cons name rest ih =>
    obtain ⟨hfirst, hothers⟩ := List.forall_mem_cons.1 hopen
    have hrest : Accepted files tree manifests rest := fun other hother =>
      h other (List.mem_cons_of_mem _ hother)
    rw [restoreDataGroups_cons (h name List.mem_cons_self)]
    split_ifs
    · exact ih hrest hothers groups
    · obtain ⟨groups', hrestore⟩ := ih hrest hothers (groups ++ [(manifests name).groupId])
      exact ⟨groups', except_bind_eq_ok_iff.2 ⟨(), hfirst, hrestore⟩⟩

/-- What a node with a metadata group needs to start, whatever the order of its listings. -/
structure Startable (files : NodeFiles) (tree : FileTree) (manifests : Manifests) : Prop where
  metadata : validatePersistedGroupStorage files metadataDirectory
    (tree.below metadataDirectory) = .ok ()
  metadataOpens : openGroup files tree metadataDirectory .metadata = .ok ()
  dataGroups : tree.node dataGroupsDirectory = none ∨
    tree.node dataGroupsDirectory = some .directory
  entries : ∀ name, (tree.node (dataGroupsDirectory ++ [name])).isSome →
    Entry files (dataGroupsDirectory ++ [name]) (tree.below (dataGroupsDirectory ++ [name]))
      (manifests name) ∧
    openGroup files tree (dataGroupsDirectory ++ [name]) (manifests name).kind = .ok ()

/-- The groups of a node: that of the metadata and those of the entries. -/
def IsGroup (tree : FileTree) (manifests : Manifests) (id : String) : Prop :=
  id = metadataGroupId ∨
    ∃ name, (tree.node (dataGroupsDirectory ++ [name])).isSome ∧ id = (manifests name).groupId

theorem IsGroup.mem_iff (h : Accepted files tree manifests (tree.readDir dataGroupsDirectory))
    (hrestore : restoreDataGroups files tree [metadataGroupId] (tree.readDir dataGroupsDirectory) =
      .ok groups) (id : String) : id ∈ groups ↔ IsGroup tree manifests id := by
  rw [(h.of_restore hrestore).2, List.mem_singleton, IsGroup]
  simp only [tree.mem_readDir]

theorem validateDataGroups_eq_ok_iff :
    validateDataGroups files tree = .ok () ↔
      (tree.node dataGroupsDirectory = none ∨ tree.node dataGroupsDirectory = some .directory) ∧
      ∀ name, (tree.node (dataGroupsDirectory ++ [name])).isSome → ∃ manifest,
        Entry files (dataGroupsDirectory ++ [name]) (tree.below (dataGroupsDirectory ++ [name]))
          manifest := by
  simp only [← tree.mem_readDir, ← validateEntries_eq_ok_iff, validateDataGroups]
  cases hnode : tree.node dataGroupsDirectory with
  | none =>
    have hempty : tree.readDir dataGroupsDirectory = [] := by
      refine List.eq_nil_iff_forall_not_mem.2 fun name hname => ?_
      have hparent := tree.parent _ _ ((tree.mem_readDir _ _).1 hname)
      rw [hnode] at hparent
      cases hparent
    simp [hempty, validateEntries]
  | some node => cases node <;> simp

theorem validatePersistedClusterStorage_eq
    (hmetadata : tree.node metadataDirectory = some .directory) :
    validatePersistedClusterStorage files tree =
      validatePersistedGroupStorage files metadataDirectory (tree.below metadataDirectory) >>=
        fun _ => validateDataGroups files tree := by
  have hgroups : tree.node groupsDirectory = some .directory := by
    refine tree.parent groupsDirectory (utf8 metadataGroupId) ?_
    rw [show tree.node (groupsDirectory ++ [utf8 metadataGroupId]) = _ from hmetadata]
    rfl
  have hexists : tree.exists? metadataDirectory = true := by
    rw [FileTree.exists?, hmetadata]
    rfl
  simp only [validatePersistedClusterStorage, hgroups, hexists]
  rfl

theorem openManager_of_startable (hmetadata : tree.node metadataDirectory = some .directory)
    (h : Startable files tree manifests) :
    ∃ groups, openManager files tree = .ok groups ∧
      ∀ id, id ∈ groups ↔ IsGroup tree manifests id := by
  have haccepted : Accepted files tree manifests (tree.readDir dataGroupsDirectory) :=
    fun name hname => (h.entries name ((tree.mem_readDir _ _).1 hname)).1
  have hvalid : validatePersistedClusterStorage files tree = .ok () := by
    rw [validatePersistedClusterStorage_eq hmetadata, h.metadata]
    exact validateDataGroups_eq_ok_iff.2
      ⟨h.dataGroups, fun name hname => ⟨_, (h.entries name hname).1⟩⟩
  obtain ⟨groups, hrestore⟩ := haccepted.restore
    (fun name hname => (h.entries name ((tree.mem_readDir _ _).1 hname)).2) [metadataGroupId]
  refine ⟨groups, ?_, IsGroup.mem_iff haccepted hrestore⟩
  exact except_bind_eq_ok_iff.2 ⟨(), hvalid,
    except_bind_eq_ok_iff.2 ⟨(), h.metadataOpens, hrestore⟩⟩

theorem startable_of_openManager (hmetadata : tree.node metadataDirectory = some .directory)
    (h : openManager files tree = .ok groups) :
    ∃ manifests, Startable files tree manifests ∧
      ∀ id, id ∈ groups ↔ IsGroup tree manifests id := by
  obtain ⟨_, hvalid, h⟩ := except_bind_eq_ok_iff.1 h
  obtain ⟨_, hopens, hrestore⟩ := except_bind_eq_ok_iff.1 h
  rw [validatePersistedClusterStorage_eq hmetadata] at hvalid
  obtain ⟨_, hstorage, hdata⟩ := except_bind_eq_ok_iff.1 hvalid
  obtain ⟨hdirectory, hentries⟩ := validateDataGroups_eq_ok_iff.1 hdata
  have : Nonempty DataGroupManifest := ⟨⟨"", "", ""⟩⟩
  choose! manifests hmanifests using hentries
  have haccepted : Accepted files tree manifests (tree.readDir dataGroupsDirectory) :=
    fun name hname => hmanifests name ((tree.mem_readDir _ _).1 hname)
  refine ⟨manifests, ⟨hstorage, hopens, hdirectory, fun name hname => ?_⟩,
    IsGroup.mem_iff haccepted hrestore⟩
  refine ⟨hmanifests name hname, ?_⟩
  rcases (haccepted.of_restore hrestore).1 name ((tree.mem_readDir _ _).2 hname) with hid | hopen
  · have hidentity := congrArg Prod.snd (hmanifests name hname).identity
    rw [List.mem_singleton.1 hid] at hidentity
    exact absurd hidentity.symm (groupId_ne_metadata _)
  · exact hopen

end Acceptance

end Runnel.Group
