import Mathlib.Tactic
import Runnel.Foundation.Bytes

/-!
# Trees of files and directories

A tree holds nodes at paths, each below a directory, and lists the names in a
directory in some order.
-/

namespace Runnel

inductive FileNode where
  | file (content : Bytes)
  | directory
deriving DecidableEq, Repr

/-- Nodes by their paths from the root, with the listings of the directories. -/
structure FileTree where
  node : List Bytes → Option FileNode
  readDir : List Bytes → List Bytes
  mem_readDir : ∀ directory name, name ∈ readDir directory ↔ (node (directory ++ [name])).isSome
  parent : ∀ directory name, (node (directory ++ [name])).isSome → node directory = some .directory

/-- One operation of a program on a tree. -/
inductive FileStep where
  | createDir (directory : List Bytes) (name : Bytes)
  | create (directory : List Bytes) (name : Bytes)
  | write (directory : List Bytes) (name : Bytes) (bytes : Bytes)
  | rename (directory : List Bytes) (source target : Bytes)
  | sync (path : List Bytes)
deriving DecidableEq, Repr

namespace FileTree

def nameLimit : ℕ := 255

def exists? (tree : FileTree) (path : List Bytes) : Bool := (tree.node path).isSome

def below (tree : FileTree) (path : List Bytes) : List Bytes → Option FileNode :=
  fun rest => tree.node (path ++ rest)

def empty : FileTree where
  node path := if path = [] then some .directory else none
  readDir _ := []
  mem_readDir := by simp
  parent := by simp

theorem concat_eq_concat {directory other : List Bytes} {name name' : Bytes} :
    directory ++ [name] = other ++ [name'] ↔ directory = other ∧ name = name' := by
  constructor
  · intro h
    obtain ⟨hdirectory, hname⟩ := List.append_inj' h rfl
    exact ⟨hdirectory, List.head_eq_of_cons_eq hname⟩
  · rintro ⟨rfl, rfl⟩
    rfl

/-- A node that nothing is below, or a directory, is put into a directory. -/
def insert (tree : FileTree) (directory : List Bytes) (name : Bytes) (value : FileNode)
    (hdirectory : tree.node directory = some .directory)
    (hvalue : value = .directory ∨ tree.node (directory ++ [name]) ≠ some .directory) :
    FileTree where
  node := Function.update tree.node (directory ++ [name]) (some value)
  readDir other :=
    if other = directory ∧ name ∉ tree.readDir directory then tree.readDir other ++ [name]
    else tree.readDir other
  mem_readDir := by
    intro other entry
    by_cases hsame : other ++ [entry] = directory ++ [name]
    · rw [hsame, Function.update_self]
      obtain ⟨rfl, rfl⟩ := concat_eq_concat.1 hsame
      by_cases hmem : entry ∈ tree.readDir other <;> simp [hmem]
    · rw [Function.update_of_ne hsame, ← tree.mem_readDir]
      split_ifs with h
      · have hne : entry ≠ name := by
          rintro rfl
          exact hsame (concat_eq_concat.2 ⟨h.1, rfl⟩)
        simp [hne]
      · rfl
  parent := by
    intro other entry hsome
    have hother : tree.node other = some .directory := by
      by_cases hsame : other ++ [entry] = directory ++ [name]
      · obtain ⟨rfl, -⟩ := concat_eq_concat.1 hsame
        exact hdirectory
      · rw [Function.update_of_ne hsame] at hsome
        exact tree.parent other entry hsome
    by_cases hsame : other = directory ++ [name]
    · subst hsame
      rw [Function.update_self]
      rcases hvalue with rfl | hvalue
      · rfl
      · exact absurd hother hvalue
    · rw [Function.update_of_ne hsame, hother]

/-- A node that nothing is below is taken out of its directory. -/
def erase (tree : FileTree) (directory : List Bytes) (name : Bytes)
    (hvalue : tree.node (directory ++ [name]) ≠ some .directory) : FileTree where
  node := Function.update tree.node (directory ++ [name]) none
  readDir other :=
    if other = directory then (tree.readDir other).filter (· ≠ name) else tree.readDir other
  mem_readDir := by
    intro other entry
    by_cases hsame : other ++ [entry] = directory ++ [name]
    · rw [hsame, Function.update_self]
      obtain ⟨rfl, rfl⟩ := concat_eq_concat.1 hsame
      simp
    · rw [Function.update_of_ne hsame, ← tree.mem_readDir]
      split_ifs with h
      · have hne : entry ≠ name := by
          rintro rfl
          exact hsame (concat_eq_concat.2 ⟨h, rfl⟩)
        simp [hne]
      · rfl
  parent := by
    intro other entry hsome
    have hsame : other ++ [entry] ≠ directory ++ [name] := by
      intro hsame
      rw [hsame, Function.update_self] at hsome
      cases hsome
    rw [Function.update_of_ne hsame] at hsome
    have hother := tree.parent other entry hsome
    have hne : other ≠ directory ++ [name] := by
      rintro rfl
      exact hvalue hother
    rw [Function.update_of_ne hne, hother]

def step (tree : FileTree) : FileStep → Option FileTree
  | .createDir directory name =>
    if h : name.length ≤ nameLimit ∧ tree.node directory = some .directory ∧
        tree.node (directory ++ [name]) = none then
      some (tree.insert directory name .directory h.2.1 (Or.inl rfl))
    else none
  | .create directory name =>
    if h : name.length ≤ nameLimit ∧ tree.node directory = some .directory ∧
        tree.node (directory ++ [name]) ≠ some .directory then
      some (tree.insert directory name (.file []) h.2.1 (Or.inr h.2.2))
    else none
  | .write directory name bytes =>
    match h : tree.node (directory ++ [name]) with
    | some (.file content) =>
      some (tree.insert directory name (.file (content ++ bytes))
        (tree.parent directory name (by rw [h]; rfl)) (Or.inr (by rw [h]; nofun)))
    | _ => none
  | .rename directory source target =>
    match h : tree.node (directory ++ [source]) with
    | some (.file content) =>
      if htarget : source ≠ target ∧ tree.node (directory ++ [target]) ≠ some .directory ∧
          target.length ≤ nameLimit then
        let erased := tree.erase directory source (by rw [h]; nofun)
        have hne : directory ++ [target] ≠ directory ++ [source] := fun heq =>
          htarget.1 (concat_eq_concat.1 heq).2.symm
        some (erased.insert directory target (.file content)
          (by
            have hdirectory : directory ≠ directory ++ [source] := by simp
            exact (Function.update_of_ne hdirectory _ _).trans
              (tree.parent directory source (by rw [h]; rfl)))
          (Or.inr (by
            intro hdirectory
            exact htarget.2.1 ((Function.update_of_ne hne _ _).symm.trans hdirectory))))
      else none
    | _ => none
  | .sync _ => some tree

def steps (tree : FileTree) (list : List FileStep) : Option FileTree :=
  list.foldlM FileTree.step tree

/-- Takes the steps up to the first one that is refused, and tells whether all were taken. -/
def run (tree : FileTree) : List FileStep → FileTree × Bool
  | [] => (tree, true)
  | first :: rest =>
    match tree.step first with
    | none => (tree, false)
    | some after => after.run rest

end FileTree

/-- The path that a step gives a new node, if it does. -/
def FileStep.written : FileStep → List (List Bytes)
  | .createDir directory name => [directory ++ [name]]
  | .create directory name => [directory ++ [name]]
  | .write directory name _ => [directory ++ [name]]
  | .rename directory source target => [directory ++ [source], directory ++ [target]]
  | .sync _ => []

namespace FileTree

variable {tree after : FileTree}

variable {directory : List Bytes} {name : Bytes}

theorem step_createDir (h : tree.step (.createDir directory name) = some after) :
    after.node = Function.update tree.node (directory ++ [name]) (some .directory) ∧
      tree.node (directory ++ [name]) = none ∧ name.length ≤ nameLimit := by
  simp only [step] at h
  split_ifs at h with hpossible
  obtain rfl := Option.some.inj h
  exact ⟨rfl, hpossible.2.2, hpossible.1⟩

theorem step_create (h : tree.step (.create directory name) = some after) :
    after.node = Function.update tree.node (directory ++ [name]) (some (.file [])) := by
  simp only [step] at h
  split_ifs at h
  obtain rfl := Option.some.inj h
  rfl

theorem step_write {bytes : Bytes} (h : tree.step (.write directory name bytes) = some after) :
    ∃ content, tree.node (directory ++ [name]) = some (.file content) ∧
      after.node = Function.update tree.node (directory ++ [name])
        (some (.file (content ++ bytes))) := by
  simp only [step] at h
  split at h
  · rename_i content hcontent
    obtain rfl := Option.some.inj h
    exact ⟨content, hcontent, rfl⟩
  · cases h

theorem step_rename {source target : Bytes}
    (h : tree.step (.rename directory source target) = some after) :
    ∃ content, tree.node (directory ++ [source]) = some (.file content) ∧ source ≠ target ∧
      after.node = Function.update (Function.update tree.node (directory ++ [source]) none)
        (directory ++ [target]) (some (.file content)) := by
  simp only [step] at h
  split at h
  · rename_i content hcontent
    split_ifs at h with htarget
    obtain rfl := Option.some.inj h
    exact ⟨content, hcontent, htarget.1, rfl⟩
  · cases h

theorem node_of_step {taken : FileStep} (h : tree.step taken = some after) {path : List Bytes}
    (hpath : path ∉ taken.written) : after.node path = tree.node path := by
  cases taken with
  | createDir directory name =>
    rw [(step_createDir h).1, Function.update_of_ne (by simpa [FileStep.written] using hpath)]
  | create directory name =>
    rw [step_create h, Function.update_of_ne (by simpa [FileStep.written] using hpath)]
  | write directory name bytes =>
    obtain ⟨content, -, hnode⟩ := step_write h
    rw [hnode, Function.update_of_ne (by simpa [FileStep.written] using hpath)]
  | rename directory source target =>
    obtain ⟨content, -, -, hnode⟩ := step_rename h
    simp only [FileStep.written, List.mem_cons, List.not_mem_nil, or_false, not_or] at hpath
    rw [hnode, Function.update_of_ne hpath.2, Function.update_of_ne hpath.1]
  | sync path =>
    obtain rfl := Option.some.inj h
    rfl

theorem node_of_steps {list : List FileStep} (h : tree.steps list = some after)
    {path : List Bytes} (hpath : ∀ taken ∈ list, path ∉ taken.written) :
    after.node path = tree.node path := by
  induction list generalizing tree with
  | nil =>
    obtain rfl := Option.some.inj h
    rfl
  | cons first rest ih =>
    rw [steps, List.foldlM_cons] at h
    obtain ⟨middle, hmiddle, hrest⟩ := Option.bind_eq_some_iff.1 h
    obtain ⟨hfirst, hothers⟩ := List.forall_mem_cons.1 hpath
    rw [ih hrest hothers, node_of_step hmiddle hfirst]

theorem steps_append {front back : List FileStep} :
    tree.steps (front ++ back) = (tree.steps front).bind fun middle => middle.steps back := by
  simp only [steps, List.foldlM_append]
  rfl

/-- What was taken before a refusal is a part of the steps from their start on. -/
theorem exists_steps_of_run (tree : FileTree) (list : List FileStep) :
    ∃ taken, taken <+: list ∧ tree.steps taken = some (tree.run list).1 ∧
      ((tree.run list).2 = true → taken = list) := by
  induction list generalizing tree with
  | nil => exact ⟨[], List.prefix_refl _, rfl, fun _ => rfl⟩
  | cons first rest ih =>
    cases hfirst : tree.step first with
    | none =>
      refine ⟨[], List.nil_prefix, ?_, ?_⟩
      · simp [run, hfirst, steps]
      · simp [run, hfirst]
    | some after =>
      obtain ⟨taken, hprefix, hsteps, hall⟩ := ih after
      refine ⟨first :: taken, List.cons_prefix_cons.2 ⟨rfl, hprefix⟩, ?_, ?_⟩
      · rw [run, hfirst, steps, List.foldlM_cons, hfirst]
        exact hsteps
      · rw [run, hfirst]
        intro hcomplete
        rw [hall hcomplete]

theorem run_of_steps {list : List FileStep} (h : tree.steps list = some after) :
    tree.run list = (after, true) := by
  induction list generalizing tree with
  | nil =>
    obtain rfl := Option.some.inj h
    rfl
  | cons first rest ih =>
    rw [steps, List.foldlM_cons] at h
    obtain ⟨middle, hmiddle, hrest⟩ := Option.bind_eq_some_iff.1 h
    rw [run, hmiddle]
    exact ih hrest

theorem exists_step_createDir
    (hname : name.length ≤ nameLimit) (hdirectory : tree.node directory = some .directory)
    (hnone : tree.node (directory ++ [name]) = none) :
    ∃ after, tree.step (.createDir directory name) = some after :=
  ⟨_, dif_pos ⟨hname, hdirectory, hnone⟩⟩

theorem exists_step_create
    (hname : name.length ≤ nameLimit) (hdirectory : tree.node directory = some .directory)
    (hnode : tree.node (directory ++ [name]) ≠ some .directory) :
    ∃ after, tree.step (.create directory name) = some after :=
  ⟨_, dif_pos ⟨hname, hdirectory, hnode⟩⟩

variable {content : Bytes}

theorem exists_step_write
    (hnode : tree.node (directory ++ [name]) = some (.file content)) (bytes : Bytes) :
    ∃ after, tree.step (.write directory name bytes) = some after := by
  simp only [step]
  split
  · exact ⟨_, rfl⟩
  · rename_i hnot
    exact absurd hnode (hnot content)

theorem exists_step_rename {source target : Bytes}
    (hsource : tree.node (directory ++ [source]) = some (.file content)) (hne : source ≠ target)
    (htarget : tree.node (directory ++ [target]) ≠ some .directory)
    (hname : target.length ≤ nameLimit) :
    ∃ after, tree.step (.rename directory source target) = some after := by
  simp only [step]
  split
  · exact ⟨_, dif_pos ⟨hne, htarget, hname⟩⟩
  · rename_i hnot
    exact absurd hsource (hnot content)

theorem exists_steps_cons {first : FileStep} {rest : List FileStep} {middle : FileTree}
    (hfirst : tree.step first = some middle) (hrest : ∃ after, middle.steps rest = some after) :
    ∃ after, tree.steps (first :: rest) = some after := by
  obtain ⟨after, hrest⟩ := hrest
  refine ⟨after, ?_⟩
  rw [steps, List.foldlM_cons, hfirst]
  exact hrest

theorem exists_steps_writes
    (hnode : tree.node (directory ++ [name]) = some (.file content)) (pieces : List Bytes) :
    ∃ after, tree.steps (pieces.map (.write directory name)) = some after := by
  induction pieces generalizing tree content with
  | nil => exact ⟨tree, rfl⟩
  | cons piece rest ih =>
    obtain ⟨middle, hmiddle⟩ := exists_step_write hnode piece
    obtain ⟨found, -, hupdate⟩ := step_write hmiddle
    have hnext : middle.node (directory ++ [name]) = some (.file (found ++ piece)) := by
      rw [hupdate, Function.update_self]
    exact exists_steps_cons hmiddle (ih hnext)

theorem node_of_writes {pieces : List Bytes}
    (hnode : tree.node (directory ++ [name]) = some (.file content))
    (h : tree.steps (pieces.map (.write directory name)) = some after) :
    after.node (directory ++ [name]) = some (.file (content ++ pieces.flatten)) := by
  induction pieces generalizing tree content with
  | nil =>
    obtain rfl := Option.some.inj h
    rw [hnode, List.flatten_nil, List.append_nil]
  | cons piece rest ih =>
    rw [List.map_cons, steps, List.foldlM_cons] at h
    obtain ⟨middle, hmiddle, hrest⟩ := Option.bind_eq_some_iff.1 h
    obtain ⟨found, hfound, hupdate⟩ := step_write hmiddle
    obtain rfl : found = content := FileNode.file.inj (Option.some.inj (hfound.symm.trans hnode))
    have hnext : middle.node (directory ++ [name]) = some (.file (found ++ piece)) := by
      rw [hupdate, Function.update_self]
    rw [ih hnext hrest, List.flatten_cons, List.append_assoc]

end FileTree

theorem prefix_append_cons_cases {α : Type*} {taken front back : List α} {a : α}
    (h : taken <+: front ++ a :: back) :
    taken <+: front ∨ ∃ rest, taken = front ++ a :: rest ∧ rest <+: back := by
  rcases List.prefix_or_prefix_of_prefix h (List.prefix_append front (a :: back)) with
    hbefore | hbehind
  · exact Or.inl hbefore
  · obtain ⟨rest, rfl⟩ := hbehind
    rw [List.prefix_append_right_inj] at h
    cases rest with
    | nil => exact Or.inl (by rw [List.append_nil])
    | cons b rest =>
      obtain ⟨rfl, hrest⟩ := List.cons_prefix_cons.1 h
      exact Or.inr ⟨rest, rfl, hrest⟩

end Runnel
