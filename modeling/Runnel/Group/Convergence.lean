import Runnel.Foundation.Text
import Runnel.Group.CreationCrash
import Runnel.Group.StreamCreation

/-!
# Stream creation converges

Attempts to create a stream may be repeated until one goes through: whatever the
earlier ones left, the next one completes it, unless a node can never have the
data group.
-/

namespace Runnel.Group

open Runnel.Engine Runnel.Cluster Transition

section Files

variable {files : NodeFiles} {stream : String} {tree after : FileTree}

/-- What attempts leave in the files of a node. -/
structure TreeWellFormed (stream : String) (tree : FileTree) : Prop where
  groups : tree.node groupsDirectory = some .directory
  dataGroups : tree.node dataGroupsDirectory = none ∨
    tree.node dataGroupsDirectory = some .directory
  directory : tree.node (dataGroupDirectory stream) = none ∨
    tree.node (dataGroupDirectory stream) = some .directory
  short : tree.node (dataGroupDirectory stream) = some .directory →
    (pathComponent stream).length ≤ FileTree.nameLimit
  noDirectory : ∀ name, tree.node (dataGroupDirectory stream ++ [name]) ≠ some .directory

/-- A file step of an attempt on a node. -/
inductive IsCreationStep (files : NodeFiles) (stream : String) : FileStep → Prop
  | parent : IsCreationStep files stream (.createDir groupsDirectory (utf8 "data"))
  | directory : IsCreationStep files stream (makeDirectory stream)
  | draft {step} : step ∈ draftSteps files stream → IsCreationStep files stream step
  | publish : IsCreationStep files stream (publishManifest files stream)
  | sync (path) : IsCreationStep files stream (.sync path)

theorem groupsDirectory_ne : groupsDirectory ≠ dataGroupsDirectory := by decide

theorem dataGroupDirectory_ne (directory : List Bytes) (h : directory.length ≤ 2) :
    directory ≠ dataGroupDirectory stream := by
  rintro rfl
  simp [dataGroupDirectory, dataGroupsDirectory, groupsDirectory] at h

theorem concat_ne_of_length {directory : List Bytes} {name : Bytes} (other : List Bytes)
    (h : other.length ≤ directory.length) : other ≠ directory ++ [name] := by
  rintro rfl
  simp at h

theorem length_dataGroupDirectory : (dataGroupDirectory stream).length = 3 := by
  simp [dataGroupDirectory, dataGroupsDirectory, groupsDirectory]

theorem TreeWellFormed.of_inside (h : TreeWellFormed stream tree)
    (houtside : ∀ path, path.length ≤ 3 → after.node path = tree.node path)
    (hinside : ∀ name, after.node (dataGroupDirectory stream ++ [name]) ≠ some .directory) :
    TreeWellFormed stream after where
  groups := by rw [houtside _ (by decide), h.groups]
  dataGroups := by rw [houtside _ (by decide)]; exact h.dataGroups
  directory := by rw [houtside _ length_dataGroupDirectory.le]; exact h.directory
  short := by rw [houtside _ length_dataGroupDirectory.le]; exact h.short
  noDirectory := hinside

theorem TreeWellFormed.createParent (h : TreeWellFormed stream tree)
    (hstep : tree.step (.createDir groupsDirectory (utf8 "data")) = some after) :
    TreeWellFormed stream after := by
  have hnode : after.node = Function.update tree.node dataGroupsDirectory (some .directory) :=
    (FileTree.step_createDir hstep).1
  have hown : after.node (dataGroupDirectory stream) = tree.node (dataGroupDirectory stream) := by
    rw [hnode, Function.update_of_ne (dataGroupDirectory_ne _ (by decide)).symm]
  refine ⟨?_, Or.inr ?_, by rw [hown]; exact h.directory, by rw [hown]; exact h.short, ?_⟩
  · rw [hnode, Function.update_of_ne groupsDirectory_ne, h.groups]
  · rw [hnode, Function.update_self]
  · intro name
    have hne : dataGroupDirectory stream ++ [name] ≠ dataGroupsDirectory :=
      (concat_ne_of_length _ (by rw [length_dataGroupDirectory]; decide)).symm
    rw [hnode, Function.update_of_ne hne]
    exact h.noDirectory name

theorem TreeWellFormed.makeDirectory (h : TreeWellFormed stream tree)
    (hstep : tree.step (makeDirectory stream) = some after) : TreeWellFormed stream after := by
  obtain ⟨hnode, -, hshort⟩ := FileTree.step_createDir hstep
  have hnode : after.node = Function.update tree.node (dataGroupDirectory stream)
      (some .directory) := hnode
  refine ⟨?_, ?_, Or.inr ?_, fun _ => hshort, fun name => ?_⟩
  · rw [hnode, Function.update_of_ne (dataGroupDirectory_ne _ (by decide)), h.groups]
  · rw [hnode, Function.update_of_ne (dataGroupDirectory_ne _ (by decide))]
    exact h.dataGroups
  · rw [hnode, Function.update_self]
  · rw [hnode, Function.update_of_ne (concat_ne_of_length _ le_rfl).symm]
    exact h.noDirectory name

theorem TreeWellFormed.update (h : TreeWellFormed stream tree) {name : Bytes}
    {value : Option FileNode}
    (hnode : after.node = Function.update tree.node (dataGroupDirectory stream ++ [name]) value)
    (hvalue : value ≠ some .directory) :
    TreeWellFormed stream after := by
  refine h.of_inside (fun path hpath => ?_) fun other => ?_
  · rw [hnode, Function.update_of_ne]
    exact concat_ne_of_length _ (by rw [length_dataGroupDirectory]; exact hpath)
  · by_cases hother : other = name
    · rw [hother, hnode, Function.update_self]
      exact hvalue
    · rw [hnode, Function.update_of_ne fun heq => hother (FileTree.concat_eq_concat.1 heq).2]
      exact h.noDirectory other

theorem TreeWellFormed.step {step : FileStep} (h : TreeWellFormed stream tree)
    (hcreation : IsCreationStep files stream step) (hstep : tree.step step = some after) :
    TreeWellFormed stream after := by
  cases hcreation with
  | parent => exact h.createParent hstep
  | directory => exact h.makeDirectory hstep
  | draft hdraft =>
    simp only [draftSteps, List.cons_append, List.mem_cons, List.mem_append, List.mem_map,
      List.not_mem_nil, or_false] at hdraft
    rcases hdraft with rfl | ⟨piece, -, rfl⟩ | rfl
    · exact h.update (FileTree.step_create hstep) (by rintro ⟨⟩)
    · obtain ⟨content, -, hnode⟩ := FileTree.step_write hstep
      exact h.update hnode (by rintro ⟨⟩)
    · obtain rfl := Option.some.inj hstep
      exact h
  | publish =>
    obtain ⟨content, -, hne, hnode⟩ := FileTree.step_rename hstep
    refine h.of_inside (fun path hpath => ?_) fun other => ?_
    · rw [hnode, Function.update_of_ne, Function.update_of_ne] <;>
        exact concat_ne_of_length _ (by rw [length_dataGroupDirectory]; exact hpath)
    · rw [hnode]
      by_cases hmanifest : other = manifestFile
      · rw [hmanifest, Function.update_self]
        rintro ⟨⟩
      · rw [Function.update_of_ne fun heq => hmanifest (FileTree.concat_eq_concat.1 heq).2]
        by_cases hsource : other = FileName.temporary manifestFile files.processId
        · rw [hsource, Function.update_self]
          rintro ⟨⟩
        · rw [Function.update_of_ne fun heq => hsource (FileTree.concat_eq_concat.1 heq).2]
          exact h.noDirectory other
  | sync path =>
    obtain rfl := Option.some.inj hstep
    exact h

theorem TreeWellFormed.steps {list : List FileStep} (h : TreeWellFormed stream tree)
    (hcreation : ∀ step ∈ list, IsCreationStep files stream step)
    (hsteps : tree.steps list = some after) : TreeWellFormed stream after := by
  induction list generalizing tree with
  | nil =>
    obtain rfl := Option.some.inj hsteps
    exact h
  | cons first rest ih =>
    obtain ⟨hfirst, hrest⟩ := List.forall_mem_cons.1 hcreation
    rw [FileTree.steps, List.foldlM_cons] at hsteps
    obtain ⟨middle, hmiddle, hsteps⟩ := Option.bind_eq_some_iff.1 hsteps
    exact ih (h.step hfirst hmiddle) hrest hsteps

theorem createDirAll_eq (h : TreeWellFormed stream tree) :
    createDirAll tree [] (dataGroupDirectory stream) = parentSteps tree ++
      if tree.exists? (dataGroupDirectory stream) then [] else [makeDirectory stream] := by
  have hgroups : tree.exists? [utf8 "groups"] = true := by
    rw [FileTree.exists?, show tree.node [utf8 "groups"] = _ from h.groups]
    rfl
  simp only [dataGroupDirectory, dataGroupsDirectory, groupsDirectory, List.cons_append,
    List.nil_append, createDirAll, hgroups, parentSteps, Group.makeDirectory, if_true,
    List.append_nil]
  rfl

/-- An existing manifest is kept, entries without a manifest are refused, and else the
manifest is written. -/
theorem ensureDataGroupLocal_eq (h : TreeWellFormed stream tree) :
    ensureDataGroupLocal files tree [] (.ofStream stream) =
      if tree.exists? (dataGroupDirectory stream ++ [manifestFile]) then .ok []
      else if tree.exists? (dataGroupDirectory stream) ∧
          tree.readDir (dataGroupDirectory stream) ≠ [] then
        .error (.cluster ("missing data-group manifest '" ++
          files.display (dataGroupDirectory stream ++ [manifestFile]) ++ "'"))
      else .ok (createDirAll tree [] (dataGroupDirectory stream) ++ draftSteps files stream ++
        [publishManifest files stream, .sync (dataGroupDirectory stream)]) := by
  have hkind : ¬ (tree.exists? (dataGroupDirectory stream) ∧
      tree.node (dataGroupDirectory stream) ≠ some .directory) := by
    rintro ⟨hexists, hnode⟩
    rcases h.directory with hnone | hdirectory
    · rw [FileTree.exists?, hnone] at hexists
      cases hexists
    · exact hnode hdirectory
  have hwrite : atomicWrite files tree (dataGroupDirectory stream) manifestFile
      (files.manifest.encode (.ofStream stream)) =
        createDirAll tree [] (dataGroupDirectory stream) ++ draftSteps files stream ++
          [publishManifest files stream, .sync (dataGroupDirectory stream)] := by
    rw [atomicWrite, draftSteps, publishManifest]
    simp only [List.append_assoc, List.cons_append, List.nil_append]
  have hstream : (DataGroupManifest.ofStream stream).stream = stream := rfl
  rw [← hwrite, ensureDataGroupLocal, if_neg List.not_mem_nil]
  simp only [hstream, if_neg hkind]
  cases hmanifest : tree.exists? (dataGroupDirectory stream ++ [manifestFile]) with
  | true => simp
  | false =>
    simp only [Bool.false_eq_true, not_false_eq_true, true_and, if_false]
    rfl

theorem isCreationStep_of_createDirAll (h : TreeWellFormed stream tree) :
    ∀ step ∈ createDirAll tree [] (dataGroupDirectory stream),
      IsCreationStep files stream step := by
  intro step hstep
  rw [createDirAll_eq h] at hstep
  rcases List.mem_append.1 hstep with hstep | hstep
  · unfold parentSteps at hstep
    split_ifs at hstep
    · cases hstep
    · obtain rfl := List.mem_singleton.1 hstep
      exact .parent
  · split_ifs at hstep
    · cases hstep
    · obtain rfl := List.mem_singleton.1 hstep
      exact .directory

theorem isCreationStep_of_ensure (h : TreeWellFormed stream tree) {steps : List FileStep}
    (hensure : ensureDataGroupLocal files tree [] (.ofStream stream) = .ok steps) :
    ∀ step ∈ steps, IsCreationStep files stream step := by
  intro step hstep
  rw [ensureDataGroupLocal_eq h] at hensure
  split_ifs at hensure
  · obtain rfl := Except.ok.inj hensure
    cases hstep
  · obtain rfl := Except.ok.inj hensure
    simp only [List.mem_append, List.mem_cons, List.not_mem_nil, or_false] at hstep
    rcases hstep with (hstep | hstep) | rfl | rfl
    · exact isCreationStep_of_createDirAll h step hstep
    · exact .draft hstep
    · exact .publish
    · exact .sync _

theorem length_temporaryName : (FileName.temporary manifestFile files.processId).length ≤ 255 := by
  have hdigits : (Nat.toDigits 10 files.processId).length ≤ 10 :=
    (Nat.length_toDigits_le_iff (by decide) (by decide)).2
      (files.processId_lt.trans (by decide))
  have hsize := utf8ByteSize_ofList_le (Nat.toDigits 10 files.processId)
  have hlen : (utf8 (toString files.processId)).length ≤ 40 := by
    rw [Nat.toString_eq_ofList_toDigits]
    exact hsize.trans (by omega)
  have hfront : (utf8 "group.tmp-").length = 10 := by decide
  rw [temporary_manifestFile, List.length_append, hfront]
  omega

theorem exists_steps_draft (h : TreeWellFormed stream tree)
    (hdirectory : tree.node (dataGroupDirectory stream) = some .directory) :
    ∃ after, tree.steps (draftSteps files stream ++
      [publishManifest files stream, .sync (dataGroupDirectory stream)]) = some after := by
  obtain ⟨created, hcreated⟩ := FileTree.exists_step_create (@length_temporaryName files)
    hdirectory (h.noDirectory _)
  have hempty : created.node (dataGroupDirectory stream ++
      [FileName.temporary manifestFile files.processId]) = some (.file []) := by
    rw [FileTree.step_create hcreated, Function.update_self]
  obtain ⟨written, hwritten⟩ := FileTree.exists_steps_writes hempty
    (files.writes (files.manifest.encode (.ofStream stream)))
  have hdraft : tree.steps (draftSteps files stream) = some written := by
    rw [draftSteps, List.cons_append, FileTree.steps, List.foldlM_cons, hcreated]
    change created.steps (_ ++ _) = some written
    rw [FileTree.steps_append, hwritten]
    rfl
  have hformed : TreeWellFormed stream written :=
    h.steps (fun _ hstep => .draft hstep) hdraft
  obtain ⟨published, hpublished⟩ := FileTree.exists_step_rename
    (FileTree.node_of_writes hempty hwritten) (temporary_ne_name (by decide) _).symm
    (hformed.noDirectory manifestFile) (by decide)
  rw [FileTree.steps_append, hdraft]
  exact FileTree.exists_steps_cons hpublished ⟨published, rfl⟩

theorem exists_steps_parent (h : TreeWellFormed stream tree) :
    ∃ after, tree.steps (parentSteps tree) = some after ∧
      after.node dataGroupsDirectory = some .directory := by
  unfold parentSteps
  rcases h.dataGroups with hnone | hdirectory
  · have hmissing : ¬ tree.exists? dataGroupsDirectory = true := by
      rw [FileTree.exists?, hnone]
      exact Bool.false_ne_true
    obtain ⟨after, hafter⟩ := FileTree.exists_step_createDir (by decide) h.groups hnone
    refine ⟨after, ?_, ?_⟩
    · rw [if_neg hmissing, FileTree.steps, List.foldlM_cons, hafter]
      rfl
    · rw [(FileTree.step_createDir hafter).1]
      exact Function.update_self _ _ _
  · have hexists : tree.exists? dataGroupsDirectory = true := by
      rw [FileTree.exists?, hdirectory]
      rfl
    exact ⟨tree, by rw [if_pos hexists]; rfl, hdirectory⟩

theorem exists_steps_directory (h : TreeWellFormed stream tree)
    (hshort : (pathComponent stream).length ≤ FileTree.nameLimit) :
    ∃ after, tree.steps (createDirAll tree [] (dataGroupDirectory stream)) = some after ∧
      after.node (dataGroupDirectory stream) = some .directory := by
  obtain ⟨parents, hparents, hparent⟩ := exists_steps_parent h
  have hframe : parents.node (dataGroupDirectory stream) =
      tree.node (dataGroupDirectory stream) := by
    have hsame := (node_of_parentSteps h.dataGroups (List.prefix_refl _) hparents).2
    exact hsame _ (dataGroupDirectory_ne _ (by decide)).symm
  rw [createDirAll_eq h, FileTree.steps_append, hparents]
  rcases h.directory with hnone | hdirectory
  · have hmissing : ¬ tree.exists? (dataGroupDirectory stream) = true := by
      rw [FileTree.exists?, hnone]
      exact Bool.false_ne_true
    obtain ⟨after, hafter⟩ := FileTree.exists_step_createDir hshort hparent (hframe.trans hnone)
    refine ⟨after, ?_, ?_⟩
    · rw [if_neg hmissing]
      change (parents.step _).bind _ = _
      rw [Group.makeDirectory, hafter]
      rfl
    · rw [(FileTree.step_createDir hafter).1]
      exact Function.update_self _ _ _
  · have hexists : tree.exists? (dataGroupDirectory stream) = true := by
      rw [FileTree.exists?, hdirectory]
      rfl
    exact ⟨parents, by rw [if_pos hexists]; rfl, hframe.trans hdirectory⟩

/-- With a name that is not too long, a node without left-over entries can take all steps. -/
theorem exists_steps_ensure (h : TreeWellFormed stream tree)
    (hshort : (pathComponent stream).length ≤ FileTree.nameLimit)
    (hfree : ¬ (tree.exists? (dataGroupDirectory stream) ∧
      ¬ tree.exists? (dataGroupDirectory stream ++ [manifestFile]) ∧
      tree.readDir (dataGroupDirectory stream) ≠ [])) :
    ∃ steps after, ensureDataGroupLocal files tree [] (.ofStream stream) = .ok steps ∧
      tree.steps steps = some after := by
  rw [ensureDataGroupLocal_eq h]
  split_ifs with hmanifest hblocked
  · exact ⟨[], tree, rfl, rfl⟩
  · exact absurd ⟨hblocked.1, hmanifest, hblocked.2⟩ hfree
  · obtain ⟨made, hmade, hdirectory⟩ := exists_steps_directory h hshort
    have hformed : TreeWellFormed stream made :=
      h.steps (@isCreationStep_of_createDirAll files stream tree h) hmade
    obtain ⟨after, hafter⟩ := @exists_steps_draft files stream made hformed hdirectory
    refine ⟨_, after, rfl, ?_⟩
    rw [List.append_assoc, FileTree.steps_append, hmade]
    exact hafter

end Files

section Replica

variable {files : NodeFiles} {stream : String} {replica : Replica} {fault : Option Fault}

/-- What attempts leave on a node: its files are in order, and a group that is open has its
directory. -/
structure ReplicaWellFormed (stream : String) (replica : Replica) : Prop where
  tree : TreeWellFormed stream replica.tree
  opened : replica.isOpen = true → replica.tree.node (dataGroupDirectory stream) = some .directory

theorem ensureReplica_of_open (h : replica.isOpen = true) :
    ensureReplica files (.ofStream stream) fault replica = (replica, .ok ()) := by
  rw [ensureReplica, if_pos h]

theorem startReplica_tree :
    (startReplica files (.ofStream stream) fault replica).1.tree = replica.tree := by
  unfold startReplica
  split <;> rfl

theorem startReplica_unselected (h : replica.log = .unselected) :
    ∃ error, startReplica files (.ofStream stream) fault replica = (replica, .error error) := by
  unfold startReplica
  rw [h]
  rcases fault with _ | _ | _ | _ | _ | _ | _ <;> exact ⟨_, rfl⟩

theorem startReplica_ok (h : (startReplica files (.ofStream stream) fault replica).2 = .ok ()) :
    (startReplica files (.ofStream stream) fault replica).1.isOpen = true := by
  revert h
  unfold startReplica
  split
  · nofun
  · nofun
  · nofun
  · nofun
  · exact fun _ => rfl

theorem startReplica_of_selectable (h : replica.log ≠ .unselected) :
    (startReplica files (.ofStream stream) none replica).2 = .ok () := by
  unfold startReplica
  cases hlog : replica.log with
  | unselected => exact absurd hlog h
  | absent => rfl
  | selected => rfl

/-- A node either refuses, or takes some of its file steps and then stops or starts the group. -/
theorem ensureReplica_cases (h : replica.isOpen = false) :
    (∃ error, ensureDataGroupLocal files replica.tree [] (.ofStream stream) = .error error ∧
      ensureReplica files (.ofStream stream) fault replica = (replica, .error error)) ∨
    ∃ steps taken tree, ensureDataGroupLocal files replica.tree [] (.ofStream stream) = .ok steps ∧
      taken <+: steps ∧ replica.tree.steps taken = some tree ∧
      ((∃ error, ensureReplica files (.ofStream stream) fault replica =
        ({ replica with tree := tree }, .error error)) ∨
      ensureReplica files (.ofStream stream) fault replica =
        startReplica files (.ofStream stream) fault { replica with tree := tree } ∧
        ((∃ count, fault = some (.cut count)) ∨ taken = steps)) := by
  unfold ensureReplica
  rw [if_neg (Bool.eq_false_iff.1 h)]
  cases hensure : ensureDataGroupLocal files replica.tree [] (.ofStream stream) with
  | error error => exact Or.inl ⟨error, rfl, rfl⟩
  | ok steps =>
    obtain ⟨taken, hprefix, htaken, hcomplete⟩ :=
      FileTree.exists_steps_of_run replica.tree (possibleSteps fault steps)
    have hpossible : possibleSteps fault steps <+: steps := by
      unfold possibleSteps
      split
      · exact List.take_prefix _ _
      · exact List.prefix_refl _
    refine Or.inr ⟨steps, taken, _, rfl, hprefix.trans hpossible, htaken, ?_⟩
    simp only
    split_ifs with hall
    · refine Or.inr ⟨rfl, ?_⟩
      have hpossible := hcomplete hall
      unfold possibleSteps at hpossible
      split at hpossible
      · exact Or.inl ⟨_, rfl⟩
      · exact Or.inr hpossible
    · exact Or.inl ⟨_, rfl⟩

theorem ensureDataGroupLocal_of_entries {tree : FileTree}
    (hexists : tree.exists? (dataGroupDirectory stream))
    (hmanifest : ¬ tree.exists? (dataGroupDirectory stream ++ [manifestFile]))
    (hentries : tree.readDir (dataGroupDirectory stream) ≠ []) :
    ∃ error, ensureDataGroupLocal files tree [] (.ofStream stream) = .error error := by
  have hstream : (DataGroupManifest.ofStream stream).stream = stream := rfl
  rw [ensureDataGroupLocal, if_neg List.not_mem_nil]
  simp only [hstream]
  split_ifs with hkind hblocked
  · exact ⟨_, rfl⟩
  · exact ⟨_, rfl⟩
  · exact absurd ⟨hexists, hmanifest, hentries⟩ hblocked

theorem Blocked.ensureReplica (h : Blocked stream replica) :
    Blocked stream (ensureReplica files (.ofStream stream) fault replica).1 := by
  obtain ⟨hclosed, hblocked⟩ := h
  rcases @ensureReplica_cases files stream replica fault hclosed with
    ⟨error, -, heq⟩ | ⟨steps, taken, tree, hensure, -, -, hresult⟩
  · rw [heq]
    exact ⟨hclosed, hblocked⟩
  · rcases hblocked with ⟨hexists, hmanifest, hentries⟩ | hlog
    · obtain ⟨error, herror⟩ :=
        @ensureDataGroupLocal_of_entries files stream replica.tree hexists hmanifest hentries
      rw [hensure] at herror
      cases herror
    · rcases hresult with ⟨error, heq⟩ | ⟨heq, -⟩
      · rw [heq]
        exact ⟨hclosed, Or.inr hlog⟩
      · obtain ⟨error, hstart⟩ := @startReplica_unselected files stream
          { replica with tree := tree } fault hlog
        rw [heq, hstart]
        exact ⟨hclosed, Or.inr hlog⟩

theorem TreeWellFormed.exists_manifest {tree after : FileTree} {steps : List FileStep}
    (h : TreeWellFormed stream tree)
    (hensure : ensureDataGroupLocal files tree [] (.ofStream stream) = .ok steps)
    (hsteps : tree.steps steps = some after) :
    (after.node (dataGroupDirectory stream ++ [manifestFile])).isSome := by
  rw [ensureDataGroupLocal_eq h] at hensure
  split_ifs at hensure with hmanifest
  · obtain rfl := Except.ok.inj hensure
    obtain rfl := Option.some.inj hsteps
    exact hmanifest
  · obtain rfl := Except.ok.inj hensure
    rw [FileTree.steps_append] at hsteps
    obtain ⟨drafted, -, hsteps⟩ := Option.bind_eq_some_iff.1 hsteps
    obtain ⟨published, hpublished, hsync⟩ := Option.bind_eq_some_iff.1 hsteps
    obtain rfl := Option.some.inj hsync
    obtain ⟨content, -, -, hnode⟩ := FileTree.step_rename hpublished
    rw [hnode, Function.update_self]
    rfl

theorem ReplicaWellFormed.ensureReplica (h : ReplicaWellFormed stream replica) :
    ReplicaWellFormed stream (ensureReplica files (.ofStream stream) fault replica).1 := by
  cases hopen : replica.isOpen with
  | true =>
    rw [ensureReplica_of_open hopen]
    exact h
  | false =>
    rcases @ensureReplica_cases files stream replica fault hopen with
      ⟨error, -, heq⟩ | ⟨steps, taken, tree, hensure, htaken, hsteps, hresult⟩
    · rw [heq]
      exact h
    · have hformed : TreeWellFormed stream tree :=
        h.tree.steps (fun step hstep => isCreationStep_of_ensure h.tree hensure step
          (htaken.subset hstep)) hsteps
      rcases hresult with ⟨error, heq⟩ | ⟨heq, hall⟩
      · rw [heq]
        exact ⟨hformed, fun hopened => absurd hopened (Bool.eq_false_iff.1 hopen)⟩
      · rw [heq]
        refine ⟨by rw [startReplica_tree]; exact hformed, fun hopened => ?_⟩
        rw [startReplica_tree]
        rcases hall with ⟨count, rfl⟩ | rfl
        · exact absurd hopened (Bool.eq_false_iff.1 hopen)
        · exact tree.parent _ _ (h.tree.exists_manifest hensure hsteps)

theorem isOpen_of_ensureReplica_ok
    (h : (ensureReplica files (.ofStream stream) fault replica).2 = .ok ()) :
    (ensureReplica files (.ofStream stream) fault replica).1.isOpen = true := by
  cases hopen : replica.isOpen with
  | true =>
    rw [ensureReplica_of_open hopen]
    exact hopen
  | false =>
    rcases @ensureReplica_cases files stream replica fault hopen with
      ⟨error, -, heq⟩ | ⟨steps, taken, tree, -, -, -, ⟨error, heq⟩ | ⟨heq, -⟩⟩
    · rw [heq] at h
      cases h
    · rw [heq] at h
      cases h
    · rw [heq] at h ⊢
      exact startReplica_ok h

theorem ReplicaWellFormed.ensureReplica_of_free (h : ReplicaWellFormed stream replica)
    (hshort : (pathComponent stream).length ≤ FileTree.nameLimit)
    (hfree : ¬ Blocked stream replica) :
    (Group.ensureReplica files (.ofStream stream) none replica).2 = .ok () := by
  cases hopen : replica.isOpen with
  | true => rw [ensureReplica_of_open hopen]
  | false =>
    obtain ⟨steps, after, hensure, hsteps⟩ := @exists_steps_ensure files stream replica.tree h.tree
      hshort fun hentries => hfree ⟨hopen, Or.inl hentries⟩
    rw [Group.ensureReplica, if_neg (Bool.eq_false_iff.1 hopen), hensure]
    simp only [possibleSteps, FileTree.run_of_steps hsteps, if_true]
    exact startReplica_of_selectable fun hlog => hfree ⟨hopen, Or.inr hlog⟩

end Replica

section Cluster

variable {files : ℕ → NodeFiles} {stream : String} {leader : ℕ} {peers : List ℕ}
  {state before middle after : CreationState}

/-- The data group is on every node and holds the stream. -/
structure Ready (stream : String) (peers : List ℕ) (state : CreationState) : Prop where
  data : (state.data.streams[stream]?).isSome
  opened : ∀ node ∈ peers, (state.replica node).isOpen = true

/-- What attempts leave in the cluster: the stream has its identity wherever it is, and it is
activated only when its data group is ready. -/
structure Consistent (stream : String) (peers : List ℕ) (state : CreationState) : Prop where
  metadata : ∀ entry, state.metadata.streams[stream]? = some entry →
    (entry.streamId, entry.groupId) = streamIdentity stream
  data : ∀ stored, state.data.streams[stream]? = some stored →
    stored.lifecycle = .active ∧ (stored.streamId, stored.groupId) = streamIdentity stream
  active : ∀ entry, state.metadata.streams[stream]? = some entry → entry.lifecycle = .active →
    Ready stream peers state
  pending : .activateStream ∈ state.pending → Ready stream peers state
  replicas : ∀ node, ReplicaWellFormed stream (state.replica node)

/-- What is there stays, and so does a node that is blocked. -/
structure Grows (stream : String) (before after : CreationState) : Prop where
  metadata : ∀ entry, before.metadata.streams[stream]? = some entry →
    ∃ later, after.metadata.streams[stream]? = some later ∧
      (entry.lifecycle = .active → later.lifecycle = .active)
  data : (before.data.streams[stream]?).isSome → (after.data.streams[stream]?).isSome
  opened : ∀ node, (before.replica node).isOpen = true → (after.replica node).isOpen = true
  blocked : ∀ node, Blocked stream (before.replica node) → Blocked stream (after.replica node)

/-- Nothing is going to fail, and every node can have the data group. -/
structure Free (stream : String) (peers : List ℕ) (state : CreationState) : Prop where
  faults : state.faults = []
  short : (pathComponent stream).length ≤ FileTree.nameLimit
  free : ∀ node ∈ peers, ¬ Blocked stream (state.replica node)

theorem Grows.of_eq (hmetadata : after.metadata = before.metadata)
    (hdata : after.data = before.data)
    (hreplica : after.replica = before.replica) : Grows stream before after := by
  refine ⟨fun entry hentry => ⟨entry, ?_, id⟩, ?_, ?_, ?_⟩
  · rw [hmetadata, hentry]
  · rw [hdata]
    exact id
  · rw [hreplica]
    exact fun _ => id
  · rw [hreplica]
    exact fun _ => id

theorem Grows.refl (state : CreationState) : Grows stream state state := .of_eq rfl rfl rfl

theorem Grows.trans (h : Grows stream before middle) (h' : Grows stream middle after) :
    Grows stream before after := by
  refine ⟨fun entry hentry => ?_, fun hdata => h'.data (h.data hdata),
    fun node hopen => h'.opened node (h.opened node hopen),
    fun node hblocked => h'.blocked node (h.blocked node hblocked)⟩
  obtain ⟨later, hlater, hactive⟩ := h.metadata entry hentry
  obtain ⟨last, hlast, hactive'⟩ := h'.metadata later hlater
  exact ⟨last, hlast, fun hlive => hactive' (hactive hlive)⟩

theorem Ready.grows (h : Ready stream peers before) (hgrows : Grows stream before after) :
    Ready stream peers after :=
  ⟨hgrows.data h.data, fun node hnode => hgrows.opened node (h.opened node hnode)⟩

/-- What a request that was served has brought about. -/
def Done (stream : String) (state : CreationState) : Request → Prop
  | .createStream => (state.metadata.streams[stream]?).isSome
  | .ensure node => (state.replica node).isOpen = true
  | .initializeDataStream => (state.data.streams[stream]?).isSome
  | .activateStream => ∀ entry, state.metadata.streams[stream]? = some entry →
    entry.lifecycle = .active

theorem createStream_entry {metadata : SnapshotState} :
    ∃ entry, (applyCreateStream metadata stream (some (streamIdentity stream).1)
        (some (streamIdentity stream).2) .metadata).1.streams[stream]? = some entry ∧
      (metadata.streams[stream]? = some entry ∨
        (entry.streamId, entry.groupId) = streamIdentity stream ∧ entry.lifecycle = .creating) := by
  simp only [applyCreateStream]
  split_ifs with hmem
  · obtain ⟨entry, hentry⟩ := mem_iff_exists_getElem?.1 hmem
    exact ⟨entry, hentry, Or.inl hentry⟩
  · refine ⟨_, Std.ExtTreeMap.getElem?_insert_self, Or.inr ⟨rfl, rfl⟩⟩

theorem initializeDataStream_entry {data : SnapshotState} :
    ∃ stored, (applyInitializeDataStream data stream (streamIdentity stream).1
        (streamIdentity stream).2 (.data stream (streamIdentity stream).1
          (streamIdentity stream).2)).1.streams[stream]? = some stored ∧
      (data.streams[stream]? = some stored ∨
        stored.lifecycle = .active ∧
          (stored.streamId, stored.groupId) = streamIdentity stream) := by
  simp only [applyInitializeDataStream, ne_eq, not_true_eq_false, or_self, if_false]
  split_ifs with hmem
  · obtain ⟨stored, hstored⟩ := mem_iff_exists_getElem?.1 hmem
    exact ⟨stored, hstored, Or.inl hstored⟩
  · refine ⟨_, Std.ExtTreeMap.getElem?_insert_self, Or.inr ⟨rfl, rfl⟩⟩

theorem activateStream_entry {metadata : SnapshotState} {entry : StreamState}
    (h : (applyActivateStream metadata stream .metadata).1.streams[stream]? = some entry) :
    ∃ old, metadata.streams[stream]? = some old ∧ entry = { old with lifecycle := .active } := by
  simp only [applyActivateStream] at h
  split at h
  · rename_i hnone
    rw [hnone] at h
    cases h
  · rename_i old hold
    rw [Std.ExtTreeMap.getElem?_insert_self] at h
    exact ⟨old, hold, (Option.some.inj h).symm⟩

theorem Consistent.serve_createStream (h : Consistent stream peers state) (fault : Option Fault) :
    Consistent stream peers (serve files stream fault state .createStream).1 ∧
      Grows stream state (serve files stream fault state .createStream).1 := by
  obtain ⟨entry, hentry, hcase⟩ := @createStream_entry stream state.metadata
  have hgrows : Grows stream state (serve files stream fault state .createStream).1 := by
    refine ⟨fun old hold => ?_, id, fun _ => id, fun _ => id⟩
    have hmem : stream ∈ state.metadata.streams := mem_iff_exists_getElem?.2 ⟨old, hold⟩
    refine ⟨old, ?_, id⟩
    simp only [serve, applyCreateStream, if_pos hmem]
    exact hold
  refine ⟨⟨fun found hfound => ?_, h.data, fun found hfound hactive => ?_, fun hpending =>
    (h.pending hpending).grows hgrows, h.replicas⟩, hgrows⟩
  · obtain rfl := Option.some.inj (hentry.symm.trans hfound)
    rcases hcase with hold | ⟨hidentity, -⟩
    · exact h.metadata _ hold
    · exact hidentity
  · obtain rfl := Option.some.inj (hentry.symm.trans hfound)
    rcases hcase with hold | ⟨-, hcreating⟩
    · exact (h.active _ hold hactive).grows hgrows
    · rw [hcreating] at hactive
      cases hactive

theorem Consistent.serve_ensure (h : Consistent stream peers state) (fault : Option Fault)
    (node : ℕ) :
    Consistent stream peers (serve files stream fault state (.ensure node)).1 ∧
      Grows stream state (serve files stream fault state (.ensure node)).1 := by
  have hreplica : ∀ other, (serve files stream fault state (.ensure node)).1.replica other =
      if other = node then (ensureReplica (files node) (.ofStream stream) fault
        (state.replica node)).1 else state.replica other := by
    intro other
    exact Function.update_apply _ _ _ _
  have hgrows : Grows stream state (serve files stream fault state (.ensure node)).1 := by
    refine ⟨fun entry hentry => ⟨entry, hentry, id⟩, id, fun other hopen => ?_,
      fun other hblocked => ?_⟩
    · rw [hreplica]
      split_ifs with hother
      · subst hother
        rw [ensureReplica_of_open hopen]
        exact hopen
      · exact hopen
    · rw [hreplica]
      split_ifs with hother
      · subst hother
        exact hblocked.ensureReplica
      · exact hblocked
  refine ⟨⟨h.metadata, h.data, fun found hfound hactive => (h.active found hfound hactive).grows
    hgrows, fun hpending => (h.pending hpending).grows hgrows, fun other => ?_⟩, hgrows⟩
  rw [hreplica]
  split_ifs
  · exact (h.replicas node).ensureReplica
  · exact h.replicas other

theorem Consistent.serve_initializeDataStream (h : Consistent stream peers state)
    (fault : Option Fault) :
    Consistent stream peers (serve files stream fault state .initializeDataStream).1 ∧
      Grows stream state (serve files stream fault state .initializeDataStream).1 := by
  obtain ⟨stored, hstored, hcase⟩ := @initializeDataStream_entry stream state.data
  have hgrows : Grows stream state (serve files stream fault state .initializeDataStream).1 := by
    refine ⟨fun entry hentry => ⟨entry, hentry, id⟩, fun _ => ?_, fun _ => id, fun _ => id⟩
    exact Option.isSome_iff_exists.2 ⟨stored, hstored⟩
  refine ⟨⟨h.metadata, fun found hfound => ?_, fun found hfound hactive =>
    (h.active found hfound hactive).grows hgrows, fun hpending =>
    (h.pending hpending).grows hgrows, h.replicas⟩, hgrows⟩
  obtain rfl := Option.some.inj (hstored.symm.trans hfound)
  rcases hcase with hold | hnew
  · exact h.data _ hold
  · exact hnew

theorem Consistent.serve_activateStream (h : Consistent stream peers state) (fault : Option Fault)
    (hready : Ready stream peers state) :
    Consistent stream peers (serve files stream fault state .activateStream).1 ∧
      Grows stream state (serve files stream fault state .activateStream).1 := by
  have hgrows : Grows stream state (serve files stream fault state .activateStream).1 := by
    refine ⟨fun entry hentry => ⟨{ entry with lifecycle := .active }, ?_, fun _ => rfl⟩, id,
      fun _ => id, fun _ => id⟩
    simp only [serve, applyActivateStream, hentry]
    exact Std.ExtTreeMap.getElem?_insert_self
  refine ⟨⟨fun found hfound => ?_, h.data, fun _ _ _ => hready.grows hgrows, fun _ =>
    hready.grows hgrows, h.replicas⟩, hgrows⟩
  obtain ⟨old, hold, rfl⟩ := activateStream_entry hfound
  exact h.metadata old hold

/-- Serving a request keeps the cluster consistent; an activation waits for the data group. -/
theorem Consistent.serve (h : Consistent stream peers state) (fault : Option Fault)
    {request : Request} (hready : request = .activateStream → Ready stream peers state) :
    Consistent stream peers (serve files stream fault state request).1 ∧
      Grows stream state (serve files stream fault state request).1 := by
  cases request with
  | createStream => exact h.serve_createStream fault
  | ensure node => exact h.serve_ensure fault node
  | initializeDataStream => exact h.serve_initializeDataStream fault
  | activateStream => exact h.serve_activateStream fault (hready rfl)

theorem done_of_serve {fault : Option Fault} {request : Request} {answer : Bool}
    (h : (serve files stream fault state request).2 = .ok answer) :
    Done stream (serve files stream fault state request).1 request := by
  cases request with
  | createStream =>
    obtain ⟨entry, hentry, -⟩ := @createStream_entry stream state.metadata
    exact Option.isSome_iff_exists.2 ⟨entry, hentry⟩
  | ensure node =>
    have hok : (ensureReplica (files node) (.ofStream stream) fault (state.replica node)).2 =
        .ok () := by
      cases hresult : (ensureReplica (files node) (.ofStream stream) fault
          (state.replica node)).2 with
      | ok _ => rfl
      | error error =>
        simp only [Group.serve, hresult] at h
        cases h
    have hopen := isOpen_of_ensureReplica_ok hok
    simp only [Done, Group.serve, Function.update_self]
    exact hopen
  | initializeDataStream =>
    obtain ⟨stored, hstored, -⟩ := @initializeDataStream_entry stream state.data
    exact Option.isSome_iff_exists.2 ⟨stored, hstored⟩
  | activateStream =>
    intro entry hentry
    obtain ⟨old, -, rfl⟩ := activateStream_entry hentry
    rfl

theorem exists_answer_of_free (h : Consistent stream peers state) (hfree : Free stream peers state)
    {request : Request} (hnode : ∀ node, request = .ensure node → node ∈ peers) :
    ∃ answer, (serve files stream none state request).2 = .ok answer := by
  cases request with
  | createStream => exact ⟨_, rfl⟩
  | ensure node =>
    have hok := @ReplicaWellFormed.ensureReplica_of_free (files node) stream _
      (h.replicas node) hfree.short (hfree.free node (hnode node rfl))
    refine ⟨true, ?_⟩
    simp only [serve, hok]
    rfl
  | initializeDataStream => exact ⟨_, rfl⟩
  | activateStream => exact ⟨_, rfl⟩

theorem Free.serve (h : Free stream peers state) {fault : Option Fault} {request : Request}
    {answer : Bool} (hok : (serve files stream fault state request).2 = .ok answer) :
    Free stream peers (serve files stream fault state request).1 := by
  have hdone := done_of_serve hok
  cases request with
  | createStream => exact ⟨h.faults, h.short, h.free⟩
  | ensure node =>
    refine ⟨h.faults, h.short, fun other hother hblocked => ?_⟩
    by_cases hsame : other = node
    · subst hsame
      exact absurd hdone (Bool.eq_false_iff.1 hblocked.1)
    · have hreplica : (Group.serve files stream fault state (.ensure node)).1.replica other =
          state.replica other := Function.update_of_ne hsame _ _
      rw [hreplica] at hblocked
      exact h.free other hother hblocked
  | initializeDataStream => exact ⟨h.faults, h.short, h.free⟩
  | activateStream => exact ⟨h.faults, h.short, h.free⟩

/-- A part of an attempt keeps the cluster consistent, whether it returns or fails. It fails only
if something goes wrong or a node cannot have the data group. -/
def Attempts (stream : String) (peers : List ℕ) {α : Type} (part : CreationM α)
    (state : CreationState) (post : α → CreationState → Prop) : Prop :=
  Ensures part state
    (fun answer after => Consistent stream peers after ∧ Grows stream state after ∧
      (Free stream peers state → Free stream peers after) ∧ post answer after)
    fun _ after => Consistent stream peers after ∧ Grows stream state after ∧
      ¬ Free stream peers state

theorem Attempts.bind {α β : Type} {part : CreationM α} {next : α → CreationM β}
    {post : α → CreationState → Prop} {post' : β → CreationState → Prop}
    (h : Attempts stream peers part state post)
    (hnext : ∀ answer after, Consistent stream peers after → Grows stream state after →
      post answer after → Attempts stream peers (next answer) after post') :
    Attempts stream peers (part >>= next) state post' := by
  refine ensures_bind.2 (Ensures.mono h ?_ fun _ _ hfails => hfails)
  rintro answer middle ⟨hconsistent, hgrows, hfree, hpost⟩
  refine (hnext answer middle hconsistent hgrows hpost).mono ?_ ?_
  · rintro result after ⟨hconsistent', hgrows', hfree', hpost'⟩
    exact ⟨hconsistent', hgrows.trans hgrows', fun h => hfree' (hfree h), hpost'⟩
  · rintro error after ⟨hconsistent', hgrows', hnot⟩
    exact ⟨hconsistent', hgrows.trans hgrows', fun h => hnot (hfree h)⟩

theorem Attempts.mono {α : Type} {part : CreationM α} {post post' : α → CreationState → Prop}
    (h : Attempts stream peers part state post)
    (himp : ∀ answer after, Consistent stream peers after → Grows stream state after →
      post answer after → post' answer after) : Attempts stream peers part state post' := by
  refine Ensures.mono h ?_ fun _ _ hfails => hfails
  rintro answer after ⟨hconsistent, hgrows, hfree, hpost⟩
  exact ⟨hconsistent, hgrows, hfree, himp answer after hconsistent hgrows hpost⟩

theorem attempts_pure {α : Type} {answer : α} {post : α → CreationState → Prop}
    (h : Consistent stream peers state) (hpost : post answer state) :
    Attempts stream peers (pure answer) state post :=
  ⟨h, Grows.refl state, id, hpost⟩

theorem Consistent.of_eq (h : Consistent stream peers state)
    (hmetadata : after.metadata = state.metadata) (hdata : after.data = state.data)
    (hreplica : after.replica = state.replica)
    (hpending : .activateStream ∈ after.pending → Ready stream peers state) :
    Consistent stream peers after ∧ Grows stream state after := by
  have hgrows : Grows stream state after := .of_eq hmetadata hdata hreplica
  refine ⟨⟨?_, ?_, ?_, fun hmem => (hpending hmem).grows hgrows, ?_⟩, hgrows⟩
  · rw [hmetadata]
    exact h.metadata
  · rw [hdata]
    exact h.data
  · rw [hmetadata]
    exact fun entry hentry hactive => (h.active entry hentry hactive).grows hgrows
  · rw [hreplica]
    exact h.replicas

/-- Going on after the next fault was taken: without a fault nothing has changed, and with one
something goes wrong. -/
theorem attempts_nextFault_bind {α : Type} {next : Option Fault → CreationM α}
    {post : α → CreationState → Prop} (h : Consistent stream peers state)
    (hnone : Consistent stream peers { state with faults := state.faults.tail } →
      Attempts stream peers (next none) { state with faults := state.faults.tail } post)
    (hsome : ∀ fault, Consistent stream peers { state with faults := state.faults.tail } →
      Ensures (next (some fault)) { state with faults := state.faults.tail }
        (fun answer after => Consistent stream peers after ∧
          Grows stream { state with faults := state.faults.tail } after ∧ post answer after)
        fun _ after => Consistent stream peers after ∧
          Grows stream { state with faults := state.faults.tail } after) :
    Attempts stream peers (nextFault >>= next) state post := by
  have hsame : Consistent stream peers { state with faults := state.faults.tail } :=
    (@Consistent.of_eq stream peers state { state with faults := state.faults.tail } h rfl rfl rfl
      h.pending).1
  have hgrows : Grows stream state { state with faults := state.faults.tail } := .of_eq rfl rfl rfl
  refine ensures_bind.2 ?_
  rw [nextFault, ensures_modifyGet]
  cases hfault : state.faults.head?.join with
  | none =>
    have hfree : Free stream peers state →
        Free stream peers { state with faults := state.faults.tail } := by
      intro hfree
      refine ⟨?_, hfree.short, hfree.free⟩
      rw [hfree.faults]
      rfl
    refine Ensures.mono (hnone hsame) ?_ ?_
    · rintro answer after ⟨hconsistent, hgrows', hfree', hpost⟩
      exact ⟨hconsistent, hgrows.trans hgrows', fun h => hfree' (hfree h), hpost⟩
    · rintro error after ⟨hconsistent, hgrows', hnot⟩
      exact ⟨hconsistent, hgrows.trans hgrows', fun h => hnot (hfree h)⟩
  | some fault =>
    have hnot : ¬ Free stream peers state := by
      intro hfree
      rw [hfree.faults] at hfault
      cases hfault
    refine (hsome fault hsame).mono ?_ ?_
    · rintro answer after ⟨hconsistent, hgrows', hpost⟩
      exact ⟨hconsistent, hgrows.trans hgrows', fun h => absurd h hnot, hpost⟩
    · rintro error after ⟨hconsistent, hgrows'⟩
      exact ⟨hconsistent, hgrows.trans hgrows', hnot⟩

theorem attempts_awaitPoint (h : Consistent stream peers state) :
    Attempts stream peers awaitPoint state fun _ _ => True := by
  refine attempts_nextFault_bind h (fun hsame => attempts_pure hsame trivial) fun fault hsame => ?_
  exact ⟨hsame, Grows.refl _⟩

theorem ensures_serveNow (h : Consistent stream peers state) (fault : Option Fault)
    {request : Request} (hready : request = .activateStream → Ready stream peers state) :
    Ensures (serveNow files stream fault request) state
      (fun answer after => after = (serve files stream fault state request).1 ∧
        (serve files stream fault state request).2 = .ok answer ∧
        Consistent stream peers after ∧ Grows stream state after ∧ Done stream after request)
      fun _ after => Consistent stream peers after ∧ Grows stream state after ∧
        ∃ error, (serve files stream fault state request).2 = .error error := by
  obtain ⟨hconsistent, hgrows⟩ := @Consistent.serve files stream peers state h fault request hready
  refine ensures_bind.2 ?_
  rw [ensures_modifyGet, ensures_ofExcept]
  refine ⟨fun answer hanswer => ?_, fun error herror => ?_⟩
  · exact ⟨rfl, hanswer, hconsistent, hgrows, done_of_serve hanswer⟩
  · exact ⟨hconsistent, hgrows, error, herror⟩

theorem attempts_send (h : Consistent stream peers state) {request : Request}
    (hready : request = .activateStream → Ready stream peers state)
    (hnode : ∀ node, request = .ensure node → node ∈ peers) :
    Attempts stream peers (send files stream request) state fun _ after =>
      Done stream after request := by
  have hready' : request = .activateStream →
      Ready stream peers { state with faults := state.faults.tail } := fun hactivate =>
    ⟨(hready hactivate).data, (hready hactivate).opened⟩
  refine attempts_nextFault_bind h (fun hsame => ?_) fun fault hsame => ?_
  · refine (ensures_serveNow hsame none hready').mono ?_ ?_
    · rintro answer after ⟨rfl, hanswer, hconsistent, hgrows, hdone⟩
      exact ⟨hconsistent, hgrows, fun hfree => hfree.serve hanswer, hdone⟩
    · rintro error after ⟨hconsistent, hgrows, error', herror⟩
      refine ⟨hconsistent, hgrows, fun hfree => ?_⟩
      obtain ⟨answer, hanswer⟩ := exists_answer_of_free hsame hfree hnode
      rw [herror] at hanswer
      cases hanswer
  · have hserve := fun fault => (@ensures_serveNow files stream peers _ hsame fault request
      hready').mono
        (fun _ _ hafter => (⟨hafter.2.2.1, hafter.2.2.2.1, hafter.2.2.2.2⟩ : _ ∧ _ ∧ _))
        fun _ _ hafter => (⟨hafter.1, hafter.2.1⟩ : _ ∧ _)
    cases fault with
    | lost => exact ⟨hsame, Grows.refl _⟩
    | deferred =>
      refine hsame.of_eq rfl rfl rfl fun hmem => ?_
      rcases List.mem_append.1 hmem with hmem | hmem
      · exact hsame.pending hmem
      · exact hready' (List.mem_singleton.1 hmem).symm
    | applied =>
      refine ensures_bind.2 ((hserve none).mono ?_ fun _ _ hfails => hfails)
      rintro answer after ⟨hconsistent, hgrows, -⟩
      exact ⟨hconsistent, hgrows⟩
    | cut count => exact hserve _
    | logCut => exact hserve _
    | startCut => exact hserve _

theorem attempts_ensure {node : ℕ} (h : Consistent stream peers state) (hnode : node ∈ peers) :
    Attempts stream peers (send files stream (.ensure node)) state fun _ after =>
      (after.replica node).isOpen = true := by
  have hready : Request.ensure node = .activateStream → Ready stream peers state := nofun
  refine attempts_send h hready fun other hother => ?_
  obtain rfl := Request.ensure.inj hother
  exact hnode

theorem attempts_ensurePeers {nodes : List ℕ} (h : Consistent stream peers state)
    (hnodes : ∀ node ∈ nodes, node ∈ peers) :
    Attempts stream peers (ensurePeers files stream nodes) state fun _ after =>
      ∀ node ∈ nodes, (after.replica node).isOpen = true := by
  induction nodes generalizing state with
  | nil => exact attempts_pure h (by simp)
  | cons node rest ih =>
    obtain ⟨hfirst, hrest⟩ := List.forall_mem_cons.1 hnodes
    refine (attempts_ensure h hfirst).bind fun _ middle hmiddle _ hopen => ?_
    refine (ih hmiddle hrest).mono fun _ after _ hgrows hopened => ?_
    exact List.forall_mem_cons.2 ⟨hgrows.opened node hopen, hopened⟩

theorem attempts_initializeGroup (h : Consistent stream peers state) :
    Attempts stream peers initializeGroup state fun _ _ => True := by
  refine ensures_bind.2 (ensures_get.2 ?_)
  split_ifs
  · exact attempts_pure h trivial
  · refine attempts_nextFault_bind h (fun hsame => ?_) fun fault hsame => ?_
    · set configured : CreationState :=
        { state with faults := state.faults.tail, initialized := true }
      have hmodify : Attempts stream peers
          (modify fun state : CreationState => { state with initialized := true })
          { state with faults := state.faults.tail } fun _ _ => True := by
        obtain ⟨hconsistent, hgrows⟩ := @Consistent.of_eq stream peers
          { state with faults := state.faults.tail } configured hsame rfl rfl rfl hsame.pending
        exact ⟨hconsistent, hgrows, fun hfree => ⟨hfree.faults, hfree.short, hfree.free⟩, trivial⟩
      exact hmodify.bind fun _ _ hmiddle _ _ => attempts_awaitPoint hmiddle
    · cases fault with
      | applied =>
        exact @Consistent.of_eq stream peers { state with faults := state.faults.tail }
          { state with faults := state.faults.tail, initialized := true } hsame rfl rfl rfl
          hsame.pending
      | lost | deferred | cut _ | logCut | startCut => exact ⟨hsame, Grows.refl _⟩

theorem attempts_initializeStream (h : Consistent stream peers state) :
    Attempts stream peers (initializeStream files stream) state fun _ after =>
      (after.data.streams[stream]?).isSome := by
  refine ensures_bind.2 (ensures_get.2 ?_)
  split_ifs with hdata
  · exact attempts_pure h hdata
  · have hready : Request.initializeDataStream = .activateStream → Ready stream peers state := nofun
    exact (attempts_send h hready nofun).bind fun _ _ hmiddle _ hdone => attempts_pure hmiddle hdone

theorem attempts_reconcileStream (h : Consistent stream peers state) (hleader : leader ∈ peers) :
    Attempts stream peers (reconcileStream files stream leader peers) state fun _ after =>
      Done stream after .activateStream := by
  refine (attempts_awaitPoint h).bind fun _ first hfirst _ _ => ?_
  refine (attempts_ensure hfirst hleader).bind fun _ own hown _ hopen => ?_
  refine (attempts_ensurePeers hown fun node hnode => (List.mem_filter.1 hnode).1).bind
    fun _ prepared hprepared hgrows hopened => ?_
  refine (attempts_initializeGroup hprepared).bind fun _ configured hconfigured hgrows' _ => ?_
  refine (attempts_initializeStream hconfigured).bind fun _ filled hfilled hgrows'' hdata => ?_
  have hready : Ready stream peers filled := by
    refine ⟨hdata, fun node hnode => ?_⟩
    refine (hgrows'.trans hgrows'').opened node ?_
    by_cases hsame : node = leader
    · rw [hsame]
      exact hgrows.opened leader hopen
    · exact hopened node (List.mem_filter.2 ⟨hnode, by simpa using hsame⟩)
  have hnode : ∀ node, Request.activateStream = .ensure node → node ∈ peers := nofun
  exact (attempts_send hfilled (fun _ => hready) hnode).bind fun _ _ hafter _ hdone =>
    attempts_pure hafter hdone

theorem Consistent.converged (h : Consistent stream peers state)
    (hentry : (state.metadata.streams[stream]?).isSome)
    (hactive : Done stream state .activateStream) : Converged stream state := by
  obtain ⟨entry, hentry⟩ := Option.isSome_iff_exists.1 hentry
  have hready := h.active entry hentry (hactive entry hentry)
  obtain ⟨stored, hstored⟩ := Option.isSome_iff_exists.1 hready.data
  obtain ⟨hlive, hidentity⟩ := h.data stored hstored
  exact ⟨entry, stored, hentry, hstored, hactive entry hentry, h.metadata entry hentry, hlive,
    hidentity⟩

/-- An attempt that returns has converged, and it fails only if something goes wrong or a node
cannot have the data group. -/
theorem attempts_createStreamLocal (h : Consistent stream peers state) (hleader : leader ∈ peers)
    (hname : validateName "stream" stream = .ok ()) :
    Attempts stream peers (createStreamLocal files stream leader peers) state fun _ after =>
      Converged stream after := by
  have hready : Request.createStream = .activateStream → Ready stream peers state := nofun
  have hnode : ∀ node, Request.createStream = .ensure node → node ∈ peers := nofun
  unfold createStreamLocal
  rw [hname]
  refine (attempts_send h hready hnode).bind fun created known hknown _ hentry => ?_
  obtain ⟨entry, hentry⟩ := Option.isSome_iff_exists.1 hentry
  refine ensures_bind.2 (ensures_get.2 ?_)
  simp only [hentry]
  refine (attempts_ensure hknown hleader).bind fun _ own hown hgrows _ => ?_
  obtain ⟨held, hheld, hlive⟩ := hgrows.metadata entry hentry
  split_ifs with hcreating
  · refine (attempts_reconcileStream hown hleader).bind fun _ after hafter hgrows' hdone => ?_
    obtain ⟨last, hlast, -⟩ := hgrows'.metadata held hheld
    exact attempts_pure hafter (hafter.converged (Option.isSome_iff_exists.2 ⟨last, hlast⟩) hdone)
  · -- an entry that is not being created is active and stays so
    have hactive : entry.lifecycle = .active := by
      cases hstage : entry.lifecycle with
      | creating => exact absurd hstage hcreating
      | active => rfl
    refine attempts_pure hown (hown.converged (Option.isSome_iff_exists.2 ⟨held, hheld⟩) ?_)
    intro found hfound
    obtain rfl := Option.some.inj (hheld.symm.trans hfound)
    exact hlive hactive

theorem consistent_of_beforeCreation (h : BeforeCreation stream state) :
    Consistent stream peers state where
  metadata entry hentry := by
    rw [h.metadata] at hentry
    cases hentry
  data stored hstored := by
    rw [h.data] at hstored
    cases hstored
  active entry hentry := by
    rw [h.metadata] at hentry
    cases hentry
  pending hmem := by
    rw [h.pending] at hmem
    cases hmem
  replicas node := {
    tree := {
      groups := h.groups node
      dataGroups := h.dataGroups node
      directory := Or.inl (h.directory node)
      short := by
        rw [h.directory node]
        nofun
      noDirectory := fun name hname => by
        rw [node_below_of_none (h.directory node) name] at hname
        cases hname }
    opened := fun hopen => absurd hopen (Bool.eq_false_iff.1 (h.closed node)) }

theorem Consistent.afterAttempt (h : Consistent stream peers state) (hleader : leader ∈ peers)
    (hname : validateName "stream" stream = .ok ()) (faults : List (Option Fault)) :
    Consistent stream peers (afterAttempt files stream leader peers faults state) ∧
      Grows stream state (afterAttempt files stream leader peers faults state) ∧
      (Free stream peers { state with faults := faults } →
        Converged stream (Group.afterAttempt files stream leader peers faults state)) := by
  obtain ⟨hsame, hgrows⟩ := @Consistent.of_eq stream peers state { state with faults := faults } h
    rfl rfl rfl h.pending
  have hattempt := @attempts_createStreamLocal files stream leader peers _ hsame hleader hname
  unfold Group.afterAttempt
  rcases hattempt.execute with
    ⟨created, after, heq, hafter, hgrows', -, hconverged⟩ |
      ⟨error, after, heq, hafter, hgrows', hnot⟩
  · rw [heq]
    exact ⟨hafter, hgrows.trans hgrows', fun _ => hconverged⟩
  · rw [heq]
    exact ⟨hafter, hgrows.trans hgrows', fun hfree => absurd hfree hnot⟩

theorem Consistent.step {event : CreationEvent} (h : Consistent stream peers before)
    (hleader : leader ∈ peers) (hname : validateName "stream" stream = .ok ())
    (hstep : CreationStep files stream leader peers before event after) :
    Consistent stream peers after := by
  cases event with
  | attempt faults =>
    obtain rfl := hstep
    exact (h.afterAttempt hleader hname faults).1
  | deliver request fault =>
    obtain ⟨hmem, rfl⟩ := hstep
    obtain ⟨hserved, hgrows⟩ := @Consistent.serve files stream peers before h fault request
      fun hactivate => h.pending (hactivate ▸ hmem)
    have hpending : .activateStream ∈ before.pending.erase request →
        Ready stream peers (Group.serve files stream fault before request).1 := fun hmem =>
      (h.pending (List.mem_of_mem_erase hmem)).grows hgrows
    exact (@Consistent.of_eq stream peers _
      { (Group.serve files stream fault before request).1 with
        pending := before.pending.erase request } hserved rfl rfl rfl hpending).1

theorem Consistent.of_run {past : List (CreationState × CreationEvent)} (hleader : leader ∈ peers)
    (hname : validateName "stream" stream = .ok ())
    (hrun : Run (BeforeCreation stream) (CreationStep files stream leader peers) past state) :
    Consistent stream peers state :=
  hrun.invariant (fun _ => consistent_of_beforeCreation) fun _ _ _ h hstep =>
    h.step hleader hname hstep

theorem Consistent.ready_of_converged (h : Consistent stream peers state)
    (hconverged : Converged stream state) : Ready stream peers state := by
  obtain ⟨entry, -, hentry, -, hactive, -⟩ := hconverged
  exact h.active entry hentry hactive

theorem dataGroupDirectory_injective {other : String}
    (h : dataGroupDirectory other = dataGroupDirectory stream) : other = stream :=
  pathComponent_injective (FileTree.concat_eq_concat.1 h).2

/-- After any attempts that failed or were dropped wherever they waited, an attempt in which
nothing goes wrong makes the stream active, in the metadata and in its data group and under the
identity it had, exactly if the name has at most 127 bytes and no node is blocked. Streams never
share a directory. -/
theorem creation_converges_iff (hname : validateName "stream" stream = .ok ())
    (hleader : leader ∈ peers) {past : List (CreationState × CreationEvent)}
    (hrun : Run (BeforeCreation stream) (CreationStep files stream leader peers) past state) :
    (Converged stream (afterAttempt files stream leader peers [] state) ↔
      (utf8 stream).length ≤ 127 ∧ ∀ node ∈ peers, ¬ Blocked stream (state.replica node)) ∧
    (∀ entry, state.metadata.streams[stream]? = some entry →
      (entry.streamId, entry.groupId) = streamIdentity stream) ∧
    ∀ other, validateName "stream" other = .ok () →
      dataGroupDirectory other = dataGroupDirectory stream → other = stream := by
  have hconsistent := Consistent.of_run hleader hname hrun
  obtain ⟨hafter, hgrows, hconverges⟩ := @Consistent.afterAttempt files stream leader peers state
    hconsistent hleader hname []
  have hshort : (utf8 stream).length ≤ 127 ↔
      (pathComponent stream).length ≤ FileTree.nameLimit := by
    rw [length_pathComponent, FileTree.nameLimit]
    omega
  refine ⟨⟨fun hconverged => ?_, fun ⟨hlength, hfree⟩ => ?_⟩, hconsistent.metadata,
    fun other _ hsame => dataGroupDirectory_injective hsame⟩
  · have hready := hafter.ready_of_converged hconverged
    refine ⟨hshort.2 ?_, fun node hnode hblocked => ?_⟩
    · have hleads := hafter.replicas leader
      exact hleads.tree.short (hleads.opened (hready.opened leader hleader))
    · have hclosed := (hgrows.blocked node hblocked).1
      exact absurd (hready.opened node hnode) (Bool.eq_false_iff.1 hclosed)
  · exact hconverges ⟨rfl, hshort.1 hlength, hfree⟩

end Cluster

section Examples

/-- Three nodes that have opened their metadata groups and nothing else. -/
def newCluster : CreationState where
  metadata := {}
  data := {}
  initialized := false
  replica _ := { tree := newNode }

theorem beforeCreation_newCluster (stream : String) : BeforeCreation stream newCluster where
  metadata := Std.ExtTreeMap.getElem?_empty
  data := Std.ExtTreeMap.getElem?_empty
  pending := rfl
  groups _ := rfl
  dataGroups _ := Or.inl rfl
  directory _ := rfl
  log _ := rfl
  closed _ := rfl

/-- An attempt that is dropped once the leader has the data group does no harm. -/
theorem dropped_creation_converges :
    Nonempty (Codec DataGroupManifest) ∧ ∀ codec,
      Converged "orders" (afterAttempt (fun _ => orderlyFiles codec) "orders" 1 [1, 2, 3] []
      (afterAttempt (fun _ => orderlyFiles codec) "orders" 1 [1, 2, 3] [none, none, some .lost]
        newCluster)) := by
  refine ⟨inferInstance, fun codec => ?_⟩
  set files : ℕ → NodeFiles := fun _ => orderlyFiles codec
  set state := afterAttempt files "orders" 1 [1, 2, 3] [none, none, some .lost] newCluster
  have hrun : Run (BeforeCreation "orders") (CreationStep files "orders" 1 [1, 2, 3])
      [(newCluster, .attempt [none, none, some .lost])] state :=
    .next (.start (beforeCreation_newCluster "orders")) rfl
  have hopen : (state.replica 1).isOpen = true := by with_unfolding_all rfl
  have hother : ∀ node, node = 2 ∨ node = 3 → state.replica node = { tree := newNode } := by
    rintro node (rfl | rfl)
    · with_unfolding_all rfl
    · with_unfolding_all rfl
  refine (creation_converges_iff rfl List.mem_cons_self hrun).1.2 ⟨by decide, ?_⟩
  intro node hnode hblocked
  simp only [List.mem_cons, List.not_mem_nil, or_false] at hnode
  rcases hnode with rfl | hnode
  · exact absurd hopen (Bool.eq_false_iff.1 hblocked.1)
  · rw [hother node hnode] at hblocked
    rcases hblocked.2 with ⟨hexists, -⟩ | hlog
    · exact absurd hexists (by decide)
    · cases hlog

def longName : String := String.ofList (List.replicate 128 'a')

/-- No attempt makes a stream active whose name has 128 bytes, although the name is accepted. -/
theorem long_name_never_active :
    validateName "stream" longName = .ok () ∧ BeforeCreation longName newCluster ∧
      Nonempty (Codec DataGroupManifest) ∧ ∀ codec past state, Run (BeforeCreation longName)
        (CreationStep (fun _ => orderlyFiles codec) longName 1 [1, 2, 3]) past state →
        ¬ Converged longName
          (afterAttempt (fun _ => orderlyFiles codec) longName 1 [1, 2, 3] [] state) := by
  have hname : validateName "stream" longName = .ok () := by decide +kernel
  refine ⟨hname, beforeCreation_newCluster longName, inferInstance,
    fun codec past state hrun hconverged => ?_⟩
  have hconsistent := Consistent.of_run List.mem_cons_self hname hrun
  obtain ⟨hafter, -⟩ := @Consistent.afterAttempt (fun _ => orderlyFiles codec) longName 1 [1, 2, 3]
    state hconsistent List.mem_cons_self hname []
  have hready := hafter.ready_of_converged hconverged
  have hleads := hafter.replicas 1
  have hshort := hleads.tree.short (hleads.opened (hready.opened 1 List.mem_cons_self))
  revert hshort
  decide +kernel

end Examples

end Runnel.Group
