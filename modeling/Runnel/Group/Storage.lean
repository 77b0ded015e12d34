import Runnel.Cluster.Delivery
import Runnel.Foundation.Codec
import Runnel.Foundation.FileTree
import Runnel.Foundation.Path

/-!
# The files of data groups

A node keeps every replicated group in a directory of its own below the data
directory; the directory of a data group is named after its stream and holds a
manifest.
-/

namespace Runnel.Group

open Runnel.Engine Runnel.Cluster

def hexDigit (value : UInt8) : UInt8 := if value < 10 then 0x30 + value else 0x57 + value

def hexByte (byte : UInt8) : Bytes := [hexDigit (byte / 16), hexDigit (byte % 16)]

def pathComponent (value : String) : Bytes := (utf8 value).flatMap hexByte

def metadataGroupId : String := "metadata"

def groupsDirectory : List Bytes := [utf8 "groups"]

def metadataDirectory : List Bytes := groupsDirectory ++ [utf8 metadataGroupId]

def dataGroupsDirectory : List Bytes := groupsDirectory ++ [utf8 "data"]

def dataGroupDirectory (stream : String) : List Bytes :=
  dataGroupsDirectory ++ [pathComponent stream]

def manifestFile : Bytes := utf8 "group.json"

def markerFile : Bytes := utf8 "raft-log.json"

def segmentsDirectory : Bytes := FileName.withExtension markerFile (utf8 "segments")

def stateMachineDirectory : Bytes := utf8 "state-machine"

structure DataGroupManifest where
  stream : String
  streamId : String
  groupId : String
deriving DecidableEq, Repr

def DataGroupManifest.ofStream (stream : String) : DataGroupManifest where
  stream := stream
  streamId := (streamIdentity stream).1
  groupId := (streamIdentity stream).2

abbrev GroupNodes := List Bytes → Option FileNode

/-- A node's process and the components that it calls: how paths are shown, the serialization
of manifests, how the system cuts a write into pieces, and what the raft log and the state
machine make of files that are there. -/
structure NodeFiles where
  processId : ℕ
  processId_lt : processId < 2 ^ 32
  display : List Bytes → String
  manifest : Codec DataGroupManifest
  writes : Bytes → List Bytes
  flatten_writes : ∀ bytes, (writes bytes).flatten = bytes
  storageError : String → String
  validateSegments : GroupNodes → Except String Unit
  openSegments : GroupNodes → Except String Unit
  validateState : GroupNodes → Except BrokerError Unit
  openState : GroupKind → GroupNodes → Except BrokerError Unit

/-- The steps that make the missing directories of a path, from a directory that exists. -/
def createDirAll (tree : FileTree) (done : List Bytes) : List Bytes → List FileStep
  | [] => []
  | name :: rest =>
    (if tree.exists? (done ++ [name]) then [] else [.createDir done name]) ++
      createDirAll tree (done ++ [name]) rest

variable (files : NodeFiles)

/-- Writes a file beside its target and moves it there. -/
def atomicWrite (tree : FileTree) (directory : List Bytes) (name bytes : Bytes) : List FileStep :=
  let temporary := FileName.temporary name files.processId
  createDirAll tree [] directory ++ .create directory temporary ::
    (files.writes bytes).map (.write directory temporary) ++
      [.sync (directory ++ [temporary]), .rename directory temporary name, .sync directory]

/-- The checks and the file steps of a node that is to have a data group, up to the manifest. -/
def ensureDataGroupLocal (tree : FileTree) (groups : List String) (manifest : DataGroupManifest) :
    Except BrokerError (List FileStep) :=
  let directory := dataGroupDirectory manifest.stream
  let manifestPath := directory ++ [manifestFile]
  if manifest.groupId ∈ groups then .ok []
  else if tree.exists? directory ∧ tree.node directory ≠ some .directory then
    .error (.cluster (s!"invalid data-group storage '{files.display directory}': " ++
      "expected a directory"))
  else if tree.exists? directory ∧ ¬ tree.exists? manifestPath ∧ tree.readDir directory ≠ [] then
    .error (.cluster s!"missing data-group manifest '{files.display manifestPath}'")
  else if tree.exists? manifestPath then .ok []
  else .ok (atomicWrite files tree directory manifestFile (files.manifest.encode manifest))

/-- The error of a log whose segments have no marker. -/
def unselectedFamily (directory : List Bytes) : BrokerError :=
  let family := files.display (directory ++ [segmentsDirectory])
  let marker := files.display (directory ++ [markerFile])
  .cluster (files.storageError
    s!"unselected Raft-log segment family '{family}' without marker '{marker}'")

def openLog (directory : List Bytes) (nodes : GroupNodes) : Except BrokerError Unit :=
  if (nodes [markerFile]).isSome then
    match files.openSegments nodes with
    | .error error => .error (.cluster (files.storageError error))
    | .ok () => .ok ()
  else if (nodes [segmentsDirectory]).isSome then .error (unselectedFamily files directory)
  else .ok ()

def openStateMachine (kind : GroupKind) (nodes : GroupNodes) : Except BrokerError Unit :=
  if (nodes [stateMachineDirectory]).isSome then files.openState kind nodes else .ok ()

def openGroup (tree : FileTree) (directory : List Bytes) (kind : GroupKind) :
    Except BrokerError Unit := do
  openLog files directory (tree.below directory)
  openStateMachine files kind (tree.below directory)

def readManifest (path : List Bytes) (nodes : GroupNodes) (invalid : String → BrokerError) :
    Except BrokerError DataGroupManifest :=
  let manifestPath := path ++ [manifestFile]
  if nodes [] ≠ some .directory then
    .error (.cluster s!"invalid data-group entry '{files.display path}': expected a directory")
  else
    match nodes [manifestFile] with
    | none => .error (.cluster s!"missing data-group manifest '{files.display manifestPath}'")
    | some .directory => .error (.io ⟨.other, "Is a directory (os error 21)"⟩)
    | some (.file bytes) =>
      match files.manifest.decode bytes with
      | .error error => .error (invalid error)
      | .ok manifest => .ok manifest

/-- Restores the listed data groups. Opening a group writes in its own directory only, which no
other entry of the listing reads. -/
def restoreDataGroups (tree : FileTree) (groups : List String) :
    List Bytes → Except BrokerError (List String)
  | [] => .ok groups
  | name :: rest => do
    let path := dataGroupsDirectory ++ [name]
    let manifest ← readManifest files path (tree.below path) .state
    if manifest.groupId ∈ groups then restoreDataGroups tree groups rest
    else
      let steps ← ensureDataGroupLocal files tree groups manifest
      match tree.steps steps with
      | none => throw (.io ⟨.other, "File name too long (os error 36)"⟩)
      | some after =>
        openGroup files after (dataGroupDirectory manifest.stream)
          (.data manifest.stream manifest.streamId manifest.groupId)
        restoreDataGroups after (groups ++ [manifest.groupId]) rest

def validateLog (directory : List Bytes) (nodes : GroupNodes) : Except BrokerError Unit :=
  if (nodes [markerFile]).isSome then
    match files.validateSegments nodes with
    | .error error => .error (.cluster (files.storageError error))
    | .ok () => .ok ()
  else if (nodes [segmentsDirectory]).isSome then
    let family := files.display (directory ++ [segmentsDirectory])
    .error (.cluster (files.storageError s!"unselected Raft-log segment family '{family}'"))
  else .ok ()

def validateStateMachineStorage (directory : List Bytes) (nodes : GroupNodes) :
    Except BrokerError Unit :=
  match nodes [stateMachineDirectory] with
  | none => .ok ()
  | some (.file _) =>
    let shown := files.display (directory ++ [stateMachineDirectory])
    .error (.cluster s!"invalid state-machine storage '{shown}': expected a directory")
  | some .directory => files.validateState nodes

def validatePersistedGroupStorage (directory : List Bytes) (nodes : GroupNodes) :
    Except BrokerError Unit :=
  match nodes [] with
  | none => .ok ()
  | some (.file _) =>
    let shown := files.display directory
    .error (.cluster s!"invalid clustered group storage '{shown}': expected a directory")
  | some .directory => do
    validateLog files directory nodes
    validateStateMachineStorage files directory nodes

/-- Checks one entry of the directory of the data groups. -/
def validateEntry (path : List Bytes) (nodes : GroupNodes) : Except BrokerError Unit := do
  let shown := files.display (path ++ [manifestFile])
  let manifest ← readManifest files path nodes fun error =>
    .cluster s!"invalid data-group manifest '{shown}': {error}"
  if path ≠ dataGroupDirectory manifest.stream then
    let directory := files.display path
    .error (.cluster s!"data-group manifest '{shown}' does not match its directory '{directory}'")
  else if (manifest.streamId, manifest.groupId) ≠ streamIdentity manifest.stream then
    .error (.cluster s!"data-group manifest '{shown}' has incompatible stream/group identity")
  else validatePersistedGroupStorage files path nodes

def validateEntries (tree : FileTree) : List Bytes → Except BrokerError Unit
  | [] => .ok ()
  | name :: rest => do
    let path := dataGroupsDirectory ++ [name]
    validateEntry files path (tree.below path)
    validateEntries tree rest

def validateDataGroups (tree : FileTree) : Except BrokerError Unit :=
  match tree.node dataGroupsDirectory with
  | none => .ok ()
  | some (.file _) =>
    let shown := files.display dataGroupsDirectory
    .error (.cluster s!"invalid clustered storage '{shown}': expected a data-groups directory")
  | some .directory => validateEntries files tree (tree.readDir dataGroupsDirectory)

def validatePersistedClusterStorage (tree : FileTree) : Except BrokerError Unit :=
  match tree.node groupsDirectory with
  | none => .ok ()
  | some (.file _) =>
    let shown := files.display groupsDirectory
    .error (.cluster s!"invalid clustered storage '{shown}': expected a groups directory")
  | some .directory =>
    if ¬ tree.exists? metadataDirectory then
      let shown := files.display metadataDirectory
      .error (.cluster (s!"missing metadata group storage '{shown}'; refusing to open a partial " ++
        "clustered layout"))
    else do
      validatePersistedGroupStorage files metadataDirectory (tree.below metadataDirectory)
      validateDataGroups files tree

/-- Starts the node on its files: everything is validated, then the metadata group is opened and
the data groups are restored. -/
def openManager (tree : FileTree) : Except BrokerError (List String) := do
  validatePersistedClusterStorage files tree
  openGroup files tree metadataDirectory .metadata
  restoreDataGroups files tree [metadataGroupId] (tree.readDir dataGroupsDirectory)

end Runnel.Group
