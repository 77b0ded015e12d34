import Runnel.Group.StorageSpec

/-!
# Crashes while a data group is created

A node creates a data group by making its directory and moving a manifest into
it. A crash in between leaves a directory without a manifest, and the node does
not start any more; a crash at any other point leaves a tree that it accepts.
-/

namespace Runnel.Group

open Runnel.Engine Runnel.Cluster

def makeDirectory (stream : String) : FileStep :=
  .createDir dataGroupsDirectory (pathComponent stream)

def publishManifest (files : NodeFiles) (stream : String) : FileStep :=
  .rename (dataGroupDirectory stream) (FileName.temporary manifestFile files.processId) manifestFile

section Creation

variable {files : NodeFiles} {tree : FileTree} {manifests : Manifests} {stream : String}

/-- What is written before the manifest is published. -/
def draftSteps (files : NodeFiles) (stream : String) : List FileStep :=
  let directory := dataGroupDirectory stream
  let temporary := FileName.temporary manifestFile files.processId
  .create directory temporary ::
    (files.writes (files.manifest.encode (.ofStream stream))).map (.write directory temporary) ++
      [.sync (directory ++ [temporary])]

def parentSteps (tree : FileTree) : List FileStep :=
  if tree.exists? dataGroupsDirectory then [] else [.createDir groupsDirectory (utf8 "data")]

theorem node_dataGroupDirectory_of_new (h : Startable files tree manifests)
    (hnew : ¬ IsGroup tree manifests (streamIdentity stream).2) :
    tree.node (dataGroupDirectory stream) = none := by
  by_contra hnode
  have hsome := Option.isSome_iff_ne_none.2 hnode
  have hentry := (h.entries (pathComponent stream) hsome).1
  have hstream : stream = (manifests (pathComponent stream)).stream :=
    pathComponent_injective (FileTree.concat_eq_concat.1 hentry.stream).2
  refine hnew (Or.inr ⟨pathComponent stream, hsome, ?_⟩)
  have hidentity := congrArg Prod.snd hentry.identity
  rw [← hstream] at hidentity
  exact hidentity.symm

theorem node_below_of_none {directory : List Bytes} (h : tree.node directory = none)
    (name : Bytes) :
    tree.node (directory ++ [name]) = none := by
  by_contra hnode
  have hparent := tree.parent directory name (Option.isSome_iff_ne_none.2 hnode)
  rw [h] at hparent
  cases hparent

theorem ensureDataGroupLocal_of_new (hmetadata : tree.node metadataDirectory = some .directory)
    (hdirectory : tree.node (dataGroupDirectory stream) = none) {groups : List String}
    (hnew : (streamIdentity stream).2 ∉ groups) :
    ensureDataGroupLocal files tree groups (.ofStream stream) =
      .ok (parentSteps tree ++ makeDirectory stream :: draftSteps files stream ++
        [publishManifest files stream, .sync (dataGroupDirectory stream)]) := by
  have hgroups : tree.exists? groupsDirectory = true := by
    have hparent := tree.parent groupsDirectory (utf8 metadataGroupId)
      (by rw [show tree.node (groupsDirectory ++ [utf8 metadataGroupId]) = _ from hmetadata]; rfl)
    rw [FileTree.exists?, hparent]
    rfl
  have hmissing : tree.exists? (dataGroupDirectory stream) = false := by
    rw [FileTree.exists?, hdirectory]
    rfl
  have hmanifest : tree.exists? (dataGroupDirectory stream ++ [manifestFile]) = false := by
    rw [FileTree.exists?, node_below_of_none hdirectory]
    rfl
  have hparents : createDirAll tree [] (dataGroupDirectory stream) =
      parentSteps tree ++ [makeDirectory stream] := by
    have hfirst : tree.exists? [utf8 "groups"] = true := hgroups
    have hlast : tree.exists? [utf8 "groups", utf8 "data", pathComponent stream] = false := hmissing
    simp only [dataGroupDirectory, dataGroupsDirectory, groupsDirectory, List.cons_append,
      List.nil_append, createDirAll, hfirst, hlast, parentSteps, makeDirectory]
    rfl
  have hsteps : atomicWrite files tree (dataGroupDirectory stream) manifestFile
      (files.manifest.encode (.ofStream stream)) =
        parentSteps tree ++ makeDirectory stream :: draftSteps files stream ++
          [publishManifest files stream, .sync (dataGroupDirectory stream)] := by
    rw [atomicWrite, hparents, draftSteps, publishManifest]
    simp only [List.append_assoc, List.cons_append, List.nil_append]
  have hstream : (DataGroupManifest.ofStream stream).stream = stream := rfl
  rw [← hsteps, ensureDataGroupLocal,
    if_neg (show (DataGroupManifest.ofStream stream).groupId ∉ groups from hnew)]
  simp only [hstream, hmissing, hmanifest, Bool.false_eq_true, false_and, if_false]

theorem temporary_manifestFile (processId : ℕ) :
    FileName.temporary manifestFile processId = utf8 "group.tmp-" ++ utf8 (toString processId) := by
  have hstem : FileName.stem manifestFile ++ utf8 ".tmp-" = utf8 "group.tmp-" := by decide
  rw [FileName.temporary_eq, ← List.append_assoc, hstem]

theorem temporary_ne_name {name : Bytes} (h : name.take 10 ≠ utf8 "group.tmp-") (processId : ℕ) :
    name ≠ FileName.temporary manifestFile processId := by
  rintro rfl
  refine h ?_
  rw [temporary_manifestFile, List.take_append_of_le_length (by decide)]
  decide

theorem makeDirectory_notMem_parentSteps : makeDirectory stream ∉ parentSteps tree := by
  unfold parentSteps makeDirectory
  split_ifs
  · exact List.not_mem_nil
  · intro hmem
    have hname := congrArg (fun step => match step with
      | .createDir directory _ => directory.length
      | _ => 0) (List.mem_singleton.1 hmem)
    cases hname

theorem publishManifest_notMem_draftSteps :
    publishManifest files stream ∉ draftSteps files stream := by
  simp [publishManifest, draftSteps]

theorem publishManifest_notMem_parentSteps : publishManifest files stream ∉ parentSteps tree := by
  unfold parentSteps publishManifest
  split_ifs <;> simp

variable {step : FileStep} {path : List Bytes}

theorem written_draftSteps (h : step ∈ draftSteps files stream) (hpath : path ∈ step.written) :
    path = dataGroupDirectory stream ++ [FileName.temporary manifestFile files.processId] := by
  simp only [draftSteps, List.cons_append, List.mem_cons, List.mem_append, List.mem_map,
    List.not_mem_nil, or_false] at h
  rcases h with rfl | ⟨piece, -, rfl⟩ | rfl
  · simpa [FileStep.written] using hpath
  · simpa [FileStep.written] using hpath
  · cases hpath

theorem written_ne_directory (h : step ∈ draftSteps files stream ++
      [publishManifest files stream, .sync (dataGroupDirectory stream)])
    (hpath : path ∈ step.written) : path ≠ dataGroupDirectory stream := by
  simp only [List.mem_append, List.mem_cons, List.not_mem_nil, or_false] at h
  rcases h with h | rfl | rfl
  · rw [written_draftSteps h hpath]
    simp
  · simp only [publishManifest, FileStep.written, List.mem_cons, List.not_mem_nil, or_false]
      at hpath
    rcases hpath with rfl | rfl <;> simp
  · cases hpath

/-- The steps of a creation touch the directory of all data groups and that of the new one. -/
theorem written_creation
    (h : step ∈ parentSteps tree ++ makeDirectory stream :: draftSteps files stream ++
      [publishManifest files stream, .sync (dataGroupDirectory stream)])
    (hpath : path ∈ step.written) :
    path = dataGroupsDirectory ∨ dataGroupDirectory stream <+: path := by
  simp only [List.mem_append, List.mem_cons, List.not_mem_nil, or_false] at h
  rcases h with (h | rfl | h) | rfl | rfl
  · unfold parentSteps at h
    split_ifs at h
    · cases h
    · obtain rfl := List.mem_singleton.1 h
      exact Or.inl (List.mem_singleton.1 hpath)
  · exact Or.inr (List.mem_singleton.1 hpath ▸ List.prefix_refl _)
  · exact Or.inr (written_draftSteps h hpath ▸ List.prefix_append _ _)
  · simp only [publishManifest, FileStep.written, List.mem_cons, List.not_mem_nil, or_false]
      at hpath
    rcases hpath with rfl | rfl
    · exact Or.inr (List.prefix_append _ _)
    · exact Or.inr (List.prefix_append _ _)
  · cases hpath

/-- A tree that differs in the new group only can be started if that group can. -/
theorem Startable.extend {restart : FileTree} (h : Startable files tree manifests)
    (hframe : ∀ path, path ≠ dataGroupsDirectory → ¬ dataGroupDirectory stream <+: path →
      restart.node path = tree.node path)
    (hdata : restart.node dataGroupsDirectory = none ∨
      restart.node dataGroupsDirectory = some .directory)
    (hown : restart.node (dataGroupDirectory stream) = none ∨
      Entry files (dataGroupDirectory stream) (restart.below (dataGroupDirectory stream))
        (.ofStream stream) ∧
      openGroup files restart (dataGroupDirectory stream)
        (DataGroupManifest.ofStream stream).kind = .ok ()) :
    Startable files restart
      (Function.update manifests (pathComponent stream) (.ofStream stream)) := by
  have hmetadata : restart.below metadataDirectory = tree.below metadataDirectory := by
    funext rest
    refine hframe _ ?_ ?_
    · intro heq
      have hsecond := congrArg (fun path => path[1]?) heq
      revert hsecond
      simp only [metadataDirectory, dataGroupsDirectory, groupsDirectory, List.cons_append,
        List.nil_append, List.getElem?_cons_succ, List.getElem?_cons_zero]
      decide
    · rintro ⟨rest', heq⟩
      have hsecond := congrArg (fun path => path[1]?) heq
      revert hsecond
      simp only [metadataDirectory, dataGroupDirectory, dataGroupsDirectory, groupsDirectory,
        List.cons_append, List.nil_append, List.getElem?_cons_succ, List.getElem?_cons_zero]
      decide
  have hother : ∀ name, name ≠ pathComponent stream →
      restart.below (dataGroupsDirectory ++ [name]) =
        tree.below (dataGroupsDirectory ++ [name]) := by
    intro name hname
    funext rest
    refine hframe _ ?_ ?_
    · intro heq
      have hlen := congrArg List.length heq
      simp at hlen
    · intro hprefix
      rw [dataGroupDirectory, List.append_assoc, List.prefix_append_right_inj] at hprefix
      exact hname (List.cons_prefix_cons.1 hprefix).1.symm
  refine ⟨?_, ?_, hdata, fun name hname => ?_⟩
  · rw [hmetadata]
    exact h.metadata
  · rw [openGroup, hmetadata]
    exact h.metadataOpens
  · by_cases hnew : name = pathComponent stream
    · subst hnew
      rw [Function.update_self]
      rcases hown with hnone | hown
      · rw [show restart.node (dataGroupsDirectory ++ [pathComponent stream]) = none from hnone]
          at hname
        cases hname
      · exact hown
    · have hself := congrFun (hother name hnew) []
      simp only [FileTree.below, List.append_nil] at hself
      rw [hself] at hname
      rw [Function.update_of_ne hnew, openGroup, hother name hnew]
      exact h.entries name hname

variable {crashed : FileTree}

/-- Before the directory of the group is made, the tree has at most the directory of all data
groups more. -/
theorem node_of_parentSteps {taken : List FileStep} (hdata : tree.node dataGroupsDirectory = none ∨
      tree.node dataGroupsDirectory = some .directory)
    (htaken : taken <+: parentSteps tree) (h : tree.steps taken = some crashed) :
    (crashed.node dataGroupsDirectory = none ∨
      crashed.node dataGroupsDirectory = some .directory) ∧
    ∀ path, path ≠ dataGroupsDirectory → crashed.node path = tree.node path := by
  unfold parentSteps at htaken
  split_ifs at htaken
  · obtain rfl := List.prefix_nil.1 htaken
    obtain rfl := Option.some.inj h
    exact ⟨hdata, fun _ _ => rfl⟩
  · rcases @prefix_append_cons_cases _ taken [] [] _ htaken with hnil | ⟨rest, rfl, hrest⟩
    · obtain rfl := List.prefix_nil.1 hnil
      obtain rfl := Option.some.inj h
      exact ⟨hdata, fun _ _ => rfl⟩
    · obtain rfl := List.prefix_nil.1 hrest
      obtain ⟨middle, hmiddle, hlast⟩ := Option.bind_eq_some_iff.1 h
      obtain rfl := Option.some.inj hlast
      rw [(FileTree.step_createDir hmiddle).1]
      exact ⟨Or.inr (Function.update_self _ _ _), fun path hpath => Function.update_of_ne hpath _ _⟩

/-- Once the directory of the group is made, it is there and holds what the further steps put
into it. -/
theorem node_of_makeDirectory {rest : List FileStep}
    (hdirectory : tree.node (dataGroupDirectory stream) = none)
    (hdata : tree.node dataGroupsDirectory = none ∨
      tree.node dataGroupsDirectory = some .directory)
    (h : tree.steps (parentSteps tree ++ makeDirectory stream :: rest) = some crashed) :
    ∃ made : FileTree, made.steps rest = some crashed ∧
      made.node (dataGroupDirectory stream) = some .directory ∧
      ∀ name, made.node (dataGroupDirectory stream ++ [name]) = none := by
  rw [FileTree.steps_append] at h
  obtain ⟨parents, hparents, h⟩ := Option.bind_eq_some_iff.1 h
  rw [FileTree.steps, List.foldlM_cons] at h
  obtain ⟨made, hmade, h⟩ := Option.bind_eq_some_iff.1 h
  have hnode := (FileTree.step_createDir hmade).1
  obtain ⟨-, hframe⟩ := node_of_parentSteps hdata (List.prefix_refl _) hparents
  refine ⟨made, h, ?_, fun name => ?_⟩
  · rw [hnode]
    exact Function.update_self _ _ _
  · have hne : dataGroupDirectory stream ++ [name] ≠ dataGroupsDirectory ++
      [pathComponent stream] := by
      intro heq
      have hlen := congrArg List.length heq
      simp [dataGroupDirectory] at hlen
    have hother : dataGroupDirectory stream ++ [name] ≠ dataGroupsDirectory := by
      intro heq
      have hlen := congrArg List.length heq
      simp [dataGroupDirectory] at hlen
    rw [hnode, Function.update_of_ne hne, hframe _ hother, node_below_of_none hdirectory]

/-- A published manifest stands in its file, and nothing else is in the group's directory. -/
theorem node_of_publishManifest {rest : List FileStep} {made : FileTree}
    (hempty : ∀ name, made.node (dataGroupDirectory stream ++ [name]) = none)
    (hrest : rest <+: [.sync (dataGroupDirectory stream)])
    (h : made.steps (draftSteps files stream ++ publishManifest files stream :: rest) =
      some crashed) :
    crashed.node (dataGroupDirectory stream ++ [manifestFile]) =
        some (.file (files.manifest.encode (.ofStream stream))) ∧
      ∀ name, name ≠ manifestFile → name ≠ FileName.temporary manifestFile files.processId →
        crashed.node (dataGroupDirectory stream ++ [name]) = none := by
  set directory := dataGroupDirectory stream with hdirectory
  set temporary := FileName.temporary manifestFile files.processId with htemporary
  rw [FileTree.steps_append] at h
  obtain ⟨drafted, hdrafted, h⟩ := Option.bind_eq_some_iff.1 h
  rw [FileTree.steps, List.foldlM_cons] at h
  obtain ⟨published, hpublished, h⟩ := Option.bind_eq_some_iff.1 h
  obtain rfl : published = crashed := by
    rcases @prefix_append_cons_cases _ rest [] [] _ hrest with hnil | ⟨last, rfl, hlast⟩
    · obtain rfl := List.prefix_nil.1 hnil
      exact Option.some.inj h
    · obtain rfl := List.prefix_nil.1 hlast
      exact Option.some.inj h
  have hcontent : drafted.node (directory ++ [temporary]) =
      some (.file (files.manifest.encode (.ofStream stream))) := by
    have hdraft : draftSteps files stream = .create directory temporary ::
        ((files.writes (files.manifest.encode (.ofStream stream))).map
          (.write directory temporary) ++ [.sync (directory ++ [temporary])]) := rfl
    rw [hdraft, FileTree.steps, List.foldlM_cons] at hdrafted
    obtain ⟨created, hcreated, hdrafted⟩ := Option.bind_eq_some_iff.1 hdrafted
    have hsplit : created.steps (_ ++ _) = some drafted := hdrafted
    rw [FileTree.steps_append] at hsplit
    obtain ⟨written, hwritten, hsync⟩ := Option.bind_eq_some_iff.1 hsplit
    obtain rfl := Option.some.inj hsync
    have hstart : created.node (directory ++ [temporary]) = some (.file []) := by
      rw [FileTree.step_create hcreated, Function.update_self]
    rw [FileTree.node_of_writes hstart hwritten, List.nil_append, files.flatten_writes]
  obtain ⟨content, hsource, hne, hnode⟩ := FileTree.step_rename hpublished
  obtain rfl := FileNode.file.inj (Option.some.inj (hsource.symm.trans hcontent))
  refine ⟨by rw [hnode, Function.update_self], fun name hname hother => ?_⟩
  have hframe : drafted.node (directory ++ [name]) = made.node (directory ++ [name]) := by
    refine FileTree.node_of_steps hdrafted fun step hstep hmem => ?_
    exact hother (FileTree.concat_eq_concat.1 (written_draftSteps hstep hmem)).2
  rw [hnode, Function.update_of_ne fun heq => hname (FileTree.concat_eq_concat.1 heq).2,
    Function.update_of_ne fun heq => hother (FileTree.concat_eq_concat.1 heq).2, hframe,
    hempty]

/-- A tree that differs in the new group only opens with all the groups that were there. -/
theorem Startable.reopens {restart : FileTree} {groups : List String}
    (hmetadata : restart.node metadataDirectory = some .directory)
    (hgroups : ∀ id, id ∈ groups ↔ IsGroup tree manifests id)
    (hdirectory : tree.node (dataGroupDirectory stream) = none)
    (hframe : ∀ path, path ≠ dataGroupsDirectory → ¬ dataGroupDirectory stream <+: path →
      restart.node path = tree.node path)
    (h : Startable files restart
      (Function.update manifests (pathComponent stream) (.ofStream stream))) :
    ∃ groups', openManager files restart = .ok groups' ∧ ∀ id ∈ groups, id ∈ groups' := by
  obtain ⟨groups', hopen, hgroups'⟩ := openManager_of_startable hmetadata h
  refine ⟨groups', hopen, fun id hid => (hgroups' id).2 ?_⟩
  rcases (hgroups id).1 hid with hmeta | ⟨name, hname, rfl⟩
  · exact Or.inl hmeta
  · have hne : name ≠ pathComponent stream := by
      rintro rfl
      rw [show tree.node (dataGroupsDirectory ++ [pathComponent stream]) = none from hdirectory]
        at hname
      cases hname
    refine Or.inr ⟨name, ?_, by rw [Function.update_of_ne hne]⟩
    rwa [hframe]
    · simp
    · rw [dataGroupDirectory, List.prefix_append_right_inj]
      intro hprefix
      exact hne (List.cons_prefix_cons.1 hprefix).1.symm

/-- From storage that opens, let a node create the data group of a new stream and crash after
any of the file steps up to the publication of the manifest. Then the node opens again, with all
its groups, exactly if the directory of the group was not made yet or its manifest was already
published. -/
theorem creation_crash_opens_iff {groups : List String}
    (hmetadata : tree.node metadataDirectory = some .directory)
    (hopen : openManager files tree = .ok groups) (hnew : (streamIdentity stream).2 ∉ groups)
    {steps taken : List FileStep}
    (hensure : ensureDataGroupLocal files tree groups (.ofStream stream) = .ok steps)
    (htaken : taken <+: steps) {crashed restart : FileTree}
    (hcrash : tree.steps taken = some crashed) (hrestart : restart.node = crashed.node) :
    (∃ groups', openManager files restart = .ok groups' ∧ ∀ id ∈ groups, id ∈ groups') ↔
      makeDirectory stream ∉ taken ∨ publishManifest files stream ∈ taken := by
  obtain ⟨manifests, hstartable, hgroups⟩ := startable_of_openManager hmetadata hopen
  rw [hgroups] at hnew
  have hdirectory := node_dataGroupDirectory_of_new hstartable hnew
  rw [ensureDataGroupLocal_of_new hmetadata hdirectory (fun hmem => hnew ((hgroups _).1 hmem))]
    at hensure
  obtain rfl := Except.ok.inj hensure
  have hframe : ∀ path, path ≠ dataGroupsDirectory → ¬ dataGroupDirectory stream <+: path →
      restart.node path = tree.node path := by
    intro path hpath hown
    rw [hrestart]
    refine FileTree.node_of_steps hcrash fun step hstep hmem => ?_
    rcases written_creation (htaken.subset hstep) hmem with heq | hprefix
    · exact hpath heq
    · exact hown hprefix
  have hmetadata' : restart.node metadataDirectory = some .directory := by
    rw [hframe _ (by decide) ?_, hmetadata]
    intro hprefix
    have hlen := hprefix.length_le
    simp [dataGroupDirectory, dataGroupsDirectory, metadataDirectory, groupsDirectory] at hlen
  have hreopens := fun hdata hown => Startable.reopens hmetadata' hgroups hdirectory hframe
    (hstartable.extend hframe hdata hown)
  rw [List.append_assoc, List.cons_append] at htaken
  rcases prefix_append_cons_cases htaken with hbefore | ⟨rest, rfl, hrest⟩
  · have hnot : makeDirectory stream ∉ taken := fun hmem =>
      makeDirectory_notMem_parentSteps (hbefore.subset hmem)
    obtain ⟨hdata, hsame⟩ := node_of_parentSteps hstartable.dataGroups hbefore hcrash
    refine iff_of_true (hreopens (hrestart ▸ hdata) (Or.inl ?_)) (Or.inl hnot)
    rw [hrestart, hsame _ (by simp [dataGroupDirectory]), hdirectory]
  · obtain ⟨made, hmade, hown, hempty⟩ := node_of_makeDirectory hdirectory hstartable.dataGroups
      hcrash
    have hdirectory' : restart.node (dataGroupDirectory stream) = some .directory := by
      rw [hrestart, FileTree.node_of_steps hmade, hown]
      intro step hstep hmem
      exact written_ne_directory (hrest.subset hstep) hmem rfl
    rcases prefix_append_cons_cases hrest with hdraft | ⟨last, rfl, hlast⟩
    · have hnot : publishManifest files stream ∉
          parentSteps tree ++ makeDirectory stream :: rest := by
        intro hmem
        rcases List.mem_append.1 hmem with hmem | hmem
        · exact publishManifest_notMem_parentSteps hmem
        · rcases List.mem_cons.1 hmem with heq | hmem
          · cases heq
          · exact publishManifest_notMem_draftSteps (hdraft.subset hmem)
      have hmanifest : restart.node (dataGroupDirectory stream ++ [manifestFile]) = none := by
        rw [hrestart, FileTree.node_of_steps hmade, hempty]
        intro step hstep hmem
        have heq := written_draftSteps (hdraft.subset hstep) hmem
        exact temporary_ne_name (by decide) _ (FileTree.concat_eq_concat.1 heq).2
      refine iff_of_false ?_ (by simp [hnot])
      rintro ⟨groups', hopen', -⟩
      obtain ⟨manifests', hstartable', -⟩ := startable_of_openManager hmetadata' hopen'
      have hentry := (hstartable'.entries (pathComponent stream)
        (by rw [show restart.node (_ ++ _) = _ from hdirectory']; rfl)).1
      obtain ⟨bytes, hbytes, -⟩ := hentry.bytes
      rw [FileTree.below, show restart.node (_ ++ _ ++ _) = none from hmanifest] at hbytes
      cases hbytes
    · obtain ⟨hmanifest, hnone⟩ := node_of_publishManifest hempty hlast hmade
      rw [← hrestart] at hmanifest hnone
      have hfresh : Fresh (restart.below (dataGroupDirectory stream)) :=
        ⟨hnone _ (by decide) (temporary_ne_name (by decide) _),
          hnone _ (by decide) (temporary_ne_name (by decide) _),
          hnone _ (by decide) (temporary_ne_name (by decide) _)⟩
      have hself : restart.below (dataGroupDirectory stream) [] = some .directory := by
        rw [FileTree.below, List.append_nil, hdirectory']
      refine iff_of_true (hreopens (Or.inr ?_) (Or.inr ⟨?_, ?_⟩)) (Or.inr (by simp))
      · exact restart.parent dataGroupsDirectory (pathComponent stream)
          (by rw [show restart.node (_ ++ _) = _ from hdirectory']; rfl)
      · exact {
          directory := hself
          bytes := ⟨_, hmanifest, files.manifest.decode_encode _⟩
          stream := rfl
          identity := rfl
          storage := validatePersistedGroupStorage_of_fresh hfresh hself }
      · exact openGroup_of_fresh hfresh _

end Creation

section Examples

deriving instance Countable for DataGroupManifest

instance : Nonempty (Codec DataGroupManifest) := ⟨(exists_codec DataGroupManifest [] []).choose⟩

/-- A path of plain letters and digits below the data directory of the node. -/
def shown (path : List Bytes) : String :=
  String.intercalate "/" ("/data" :: path.map fun component =>
    String.ofList (component.map fun byte => Char.ofNat byte.toNat))

/-- A node whose existing logs and state machines are all in order. -/
def orderlyFiles (codec : Codec DataGroupManifest) : NodeFiles where
  processId := 7
  processId_lt := by decide
  display := shown
  manifest := codec
  writes bytes := [bytes]
  flatten_writes := by simp
  storageError := id
  validateSegments _ := .ok ()
  openSegments _ := .ok ()
  validateState _ := .ok ()
  openState _ _ := .ok ()

/-- The tree of a node that has opened its metadata group and nothing else. -/
def newNode : FileTree :=
  (FileTree.empty.insert [] (utf8 "groups") .directory rfl (Or.inl rfl)).insert groupsDirectory
    (utf8 metadataGroupId) .directory (by decide) (Or.inl rfl)

theorem openManager_newNode (codec : Codec DataGroupManifest) :
    openManager (orderlyFiles codec) newNode = .ok [metadataGroupId] := by
  rfl

/-- The steps that create the group of the stream `orders` on the new node. -/
def ordersSteps (codec : Codec DataGroupManifest) : List FileStep :=
  [.createDir groupsDirectory (utf8 "data"), makeDirectory "orders"] ++
    draftSteps (orderlyFiles codec) "orders" ++
      [publishManifest (orderlyFiles codec) "orders", .sync (dataGroupDirectory "orders")]

theorem ensure_ordersSteps (codec : Codec DataGroupManifest) :
    ensureDataGroupLocal (orderlyFiles codec) newNode [metadataGroupId] (.ofStream "orders") =
      .ok (ordersSteps codec) := by
  rfl

/-- A node that crashes right after the publication of a manifest opens again. -/
theorem crash_after_publication_opens :
    Nonempty (Codec DataGroupManifest) ∧ ∀ codec, ∃ taken crashed,
      taken <+: ordersSteps codec ∧ newNode.steps taken = some crashed ∧
      publishManifest (orderlyFiles codec) "orders" ∈ taken ∧
      ∃ groups, openManager (orderlyFiles codec) crashed = .ok groups ∧
        metadataGroupId ∈ groups := by
  refine ⟨inferInstance, fun codec => ?_⟩
  have hpossible : (newNode.steps (ordersSteps codec)).isSome = true := by
    with_unfolding_all rfl
  obtain ⟨crashed, hcrash⟩ := Option.isSome_iff_exists.1 hpossible
  have hpublished : publishManifest (orderlyFiles codec) "orders" ∈ ordersSteps codec := by
    simp [ordersSteps]
  obtain ⟨groups, hopen, hkept⟩ := (creation_crash_opens_iff rfl (openManager_newNode codec)
    (by decide) (ensure_ordersSteps codec) (List.prefix_refl _) hcrash rfl).2 (Or.inr hpublished)
  exact ⟨_, crashed, List.prefix_refl _, hcrash, hpublished, groups, hopen,
    hkept _ List.mem_cons_self⟩

/-- A node that crashes between the two does not open again. -/
theorem crash_before_publication_refused :
    Nonempty (Codec DataGroupManifest) ∧ ∀ codec, ∃ taken crashed,
      openManager (orderlyFiles codec) newNode = .ok [metadataGroupId] ∧
      ensureDataGroupLocal (orderlyFiles codec) newNode [metadataGroupId] (.ofStream "orders") =
        .ok (ordersSteps codec) ∧
      taken <+: ordersSteps codec ∧ newNode.steps taken = some crashed ∧
      openManager (orderlyFiles codec) crashed =
        .error (.cluster
          "missing data-group manifest '/data/groups/data/6f7264657273/group.json'") := by
  refine ⟨inferInstance, fun codec => ?_⟩
  refine ⟨[.createDir groupsDirectory (utf8 "data"), makeDirectory "orders"], _,
    openManager_newNode codec, ensure_ordersSteps codec, List.prefix_append _ _, rfl, rfl⟩

end Examples

end Runnel.Group
