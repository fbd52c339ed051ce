import CyberWorkbench.FileCommands
import CyberWorkbench.RemoteReplace

/-!
# Files of a remote workspace

`service/sandbox/remote_files`, with `normalize_remote_path` and
`remote_sftp_root` of `remote_runtime`, as actions on the host's tree of files.
A path is the list of its parts; a relative path in a request is one below the
root of the workspace.

The connection lasts here.  What becomes of a replacement when it is lost is
the subject of `RemoteReplace`, whose program does the same over a connection
that carries enough operations (`replaceFileAtomic_carries`).

Left to parameters are what the server and the clock add: attributes, whether a
directory's listing has `.` and `..` in it, the names from `uuid4`, digests and
media types.
-/

namespace Workbench.RemoteFiles

open FileTree FileTree.Action
open RemoteReplace (Bytes FileProblem NewAttrs backupDir backupName tempName)

/-- What the operations raise themselves. -/
inductive Problem where
  | file (problem : FileProblem)
  | valueError (text : String)
  | fileExistsError (name : String)
  | runtimeError (text : String)
  | recursionError
  deriving DecidableEq, Repr

/-- `PermissionError` -/
def permissionError (text : String) : Problem := .file (.permissionError text)

/-- The host and what the operations take from outside.  A name from `uuid4` is
one that nothing has. -/
structure Server (α : Type) where
  attrs : NewAttrs α
  listsDots : Bool
  uuid : FileTree α Bytes → String
  stamp : FileTree α Bytes → String
  lower : String → String
  sha256 : Bytes → String
  guessType : String → Option String
  recursionLimit : Nat
  stderr : String
  uuid_unused : ∀ (t : FileTree α Bytes) (k : RealPath), t.get? (k ++ [tempName (uuid t)]) = none

/-! ### Paths -/

/-- The parts of a text, with `\` for `/`. -/
def pathParts (text : String) : List String :=
  ((text.toList.map fun c => if c = '\\' then '/' else c).splitOn '/').map String.ofList

/-- `normalize_remote_path`: `none` where it raises. -/
def normalizeRemotePath (rawPath : String) : Option (List String) :=
  let parts := (pathParts (if rawPath.isEmpty then "/" else rawPath)).filter fun part =>
    part != "" && part != "."
  if parts.contains ".." then none else some parts

/-- `remote_workspace_relative`, below the home directory. -/
def remoteRoot (home : RealPath) (containerId : Nat) : List String :=
  home ++ [".zj", "sandboxes", toString containerId, "workspace"]

/-- `source.filename.replace("\\", "/").rsplit("/", 1)[-1]`, where it is a name. -/
def fileName (filename : String) : Option String :=
  let name := (pathParts filename).getLastD ""
  if name = "" ∨ name = "." ∨ name = ".." then none else some name

/-- `normpath` of an absolute path. -/
def normpath (done : List String) : List String → List String
  | [] => done
  | name :: rest =>
      if name = "" ∨ name = "." then normpath done rest
      else if name = ".." then normpath done.dropLast rest
      else normpath (done ++ [name]) rest

/-- How many first parts two paths share. -/
def commonParts : List String → List String → Nat
  | first :: path, second :: start => if first = second then commonParts path start + 1 else 0
  | _, _ => 0

/-- `posixpath.relpath` -/
def relpath (path start : List String) : List String :=
  let path := normpath [] path
  let start := normpath [] start
  let common := commonParts path start
  List.replicate (start.length - common) ".." ++ path.drop common

/-- `_display` -/
def display (root path : List String) : String :=
  match relpath path root with
  | [] => "/"
  | relative => "/" ++ "/".intercalate relative

/-- `_is_within`, of two real paths. -/
def isWithin (root path : RealPath) : Bool := root.isPrefixOf path

/-! ### What the operations return -/

inductive FileKind where
  | file
  | directory
  | symlink
  deriving DecidableEq, Repr

/-- `ContainerFileInfo`: the size, the times, the owner and the permissions are
read off the attributes.  `place` is where the object stands. -/
structure FileInfo (α : Type) where
  name : String
  kind : FileKind
  attrs : α
  path : String
  place : RealPath

/-- `_info` -/
def info {α : Type} (root : List String) (name : String) (path : List String)
    (found : Found α Bytes) : FileInfo α :=
  match found.object with
  | .link attrs _ => ⟨name, .symlink, attrs, display root path, found.place⟩
  | .dir attrs _ => ⟨name, .directory, attrs, display root path, found.place⟩
  | .file attrs _ => ⟨name, .file, attrs, display root path, found.place⟩

/-- The content of the file that stands at a place, or a part of it. -/
structure Content where
  name : String
  place : RealPath
  data : Bytes

/-- `ContainerFileUploadItem` -/
structure UploadItem where
  name : String
  path : String
  size : Nat
  sha256 : String
  backupPath : String

structure UploadSource where
  filename : String
  data : Bytes

structure Download where
  filename : String
  mediaType : String
  contents : List Content

/-! ### Replacing a file -/

section Replacing

variable {ε α : Type} (attrs : NewAttrs α) (stamp uuid : FileTree α Bytes → String)

/-- `lstat`, where nothing may be there. -/
def lstatIfThere (path : List String) : Action ε α Bytes (Option (Found α Bytes)) :=
  handle (do
      let found ← lstat path
      pure (some found)) fun error =>
    match error with
    | .noSuchFile => pure none
    | error => fail error

/-- `_backup_existing_file`. -/
def backupExistingFile (root target : List String) :
    Action FileProblem α Bytes (Option (List String)) := do
  let found ← lstatIfThere target
  match found with
  | none => pure none
  | some found =>
      if found.object.isLink then raise (.permissionError "refusing to overwrite a symbolic link")
      else if !found.object.isFile then raise (.isADirectoryError target)
      else do
        makedirs attrs.dir (backupDir root)
        let stamp ← look fun t => .ok (stamp t)
        let backup := backupDir root ++ [backupName stamp (target.getLastD "")]
        rename target backup
        pure (some backup)

/-- `except asyncssh.SFTPNoSuchFile: pass` -/
def ignoringMissing (a : Action FileProblem α Bytes Unit) : Action FileProblem α Bytes Unit :=
  handle a fun error =>
    match error with
    | .noSuchFile => pure ()
    | error => fail error

/-- What `_write_bytes_atomic` tries: write the temporary file, and rename it. -/
def writeAndRename (tempPath target : List String) (data : Bytes) :
    Action FileProblem α Bytes Unit := do
  write attrs.file tempPath []
  write attrs.file tempPath data
  rename tempPath target

/-- `_write_bytes_atomic`. -/
def writeBytesAtomic (target : List String) (data : Bytes) : Action FileProblem α Bytes Unit := do
  let directory := target.dropLast
  makedirs attrs.dir directory
  let uuid ← look fun t => .ok (uuid t)
  let tempPath := directory ++ [tempName uuid]
  ensuring (writeAndRename attrs tempPath target data) (ignoringMissing (remove tempPath))

/-- After an error the backup is renamed back, if that can be done. -/
def putBack (backup : Option (List String)) (target : List String) :
    Action FileProblem α Bytes Unit :=
  match backup with
  | some backup => handle (rename backup target) fun _ => pure ()
  | none => pure ()

/-- `_replace_file_atomic`. -/
def replaceFileAtomic (root target : List String) (data : Bytes) :
    Action FileProblem α Bytes (Option (List String)) := do
  let backup ← backupExistingFile attrs stamp root target
  handle (writeBytesAtomic attrs uuid target data) fun error => do
    putBack backup target
    fail error
  pure backup

end Replacing

/-! ### The checks and the commands -/

section Operations

variable {α : Type} (server : Server α)

/-- `_path` -/
def toPath (root : List String) (rawPath : String) : Action Problem α Bytes (List String) :=
  match normalizeRemotePath rawPath with
  | none => raise (permissionError "path escapes the portable workspace")
  | some relative => pure (root ++ relative)

/-- `[_path(root, raw_path) for raw_path in raw_paths]` -/
def toPaths (root : List String) : List String → Action Problem α Bytes (List (List String))
  | [] => pure []
  | rawPath :: rest => do
      let path ← toPath root rawPath
      let paths ← toPaths root rest
      pure (path :: paths)

/-- `_real_existing_path` -/
def realExistingPath (root path : List String) : Action Problem α Bytes RealPath := do
  let realRoot ← realpath root
  let realPath ← realpath path
  if !isWithin realRoot realPath then raise (permissionError "path escapes the portable workspace")
  else pure realPath

/-- `_real_existing_path` of one path after the other. -/
def realExistingPaths (root : List String) : List (List String) → Action Problem α Bytes (List RealPath)
  | [] => pure []
  | path :: rest => do
      let realPath ← realExistingPath root path
      let realPaths ← realExistingPaths root rest
      pure (realPath :: realPaths)

/-- `_ensure_parent_within` -/
def ensureParentWithin (root path : List String) : Action Problem α Bytes Unit := do
  let realRoot ← realpath root
  let parent := path.dropLast
  makedirs server.attrs.dir parent
  let realParent ← realpath parent
  if !isWithin realRoot realParent then
    raise (permissionError "path escapes the portable workspace")
  else pure ()

/-- `sftp.scandir`: a server may list the directory itself and the one above. -/
def scandir (path : List String) : Action Problem α Bytes (List (String × Found α Bytes)) := do
  let entries ← readdir path
  if server.listsDots then do
    let here ← stat path
    let above ← stat (path ++ [".."])
    pure ((".", here) :: ("..", above) :: entries)
  else pure entries

/-- `connection.run(command)`, and the error for a status other than 0. -/
def runCommand (command : Action Problem α Bytes Unit) (otherwise : String) :
    Action Problem α Bytes Unit :=
  handle command fun _ =>
    raise (.runtimeError (if server.stderr.isEmpty then otherwise else server.stderr))

/-- `_sftp_session`: the root of the workspace, made where it is missing. -/
def sftpSession (home : RealPath) (containerId : Nat) : Action Problem α Bytes (List String) :=
  if containerId = 0 then raise (.valueError "workspace id must be positive")
  else do
    makedirs server.attrs.dir (remoteRoot home containerId)
    pure (remoteRoot home containerId)

/-! ### The operations -/

section Session

variable (root : List String)

/-- `list_files` -/
def listFiles (rawPath : String) : Action Problem α Bytes (List (FileInfo α)) := do
  let path ← toPath root rawPath
  let directory ← realExistingPath root path
  let entries ← scandir server directory
  pure ((entries.mergeSort fun first second => decide (server.lower first.1 ≤ server.lower second.1)).map
    fun entry => info root entry.1 (directory ++ [entry.1]) entry.2)

/-- `file_info` -/
def fileInfo (rawPath : String) : Action Problem α Bytes (Option (FileInfo α)) := do
  let path ← toPath root rawPath
  let found ← lstatIfThere path
  pure (found.map fun found => info root (path.getLastD "/") path found)

/-- `read_file`, as the bytes from which its text is made. -/
def readFile (rawPath : String) (maxBytes : Nat) : Action Problem α Bytes Content := do
  let path ← toPath root rawPath
  let path ← realExistingPath root path
  let found ← read path
  pure ⟨path.getLastD "", found.1, found.2.take maxBytes⟩

/-- The loop of `upload_files`. -/
def uploadEach (directory : List String) (overwrite : Bool) :
    List UploadSource → Action Problem α Bytes (List UploadItem)
  | [] => pure []
  | source :: rest =>
      match fileName source.filename with
      | none => raise (.valueError "file name is required")
      | some name => do
          let target := directory ++ [name]
          ensureParentWithin server root target
          let found ← if overwrite then pure none else lstatIfThere target
          match found with
          | some _ => raise (.fileExistsError name)
          | none => do
              let backup ← mapError .file
                (replaceFileAtomic server.attrs server.stamp server.uuid root target source.data)
              let items ← uploadEach directory overwrite rest
              pure (⟨name, display root target, source.data.length, server.sha256 source.data,
                (backup.map (display root)).getD ""⟩ :: items)

/-- `upload_files` -/
def uploadFiles (rawPath : String) (sources : List UploadSource) (overwrite : Bool) :
    Action Problem α Bytes (List UploadItem) := do
  let directory ← toPath root rawPath
  makedirs server.attrs.dir directory
  uploadEach server root directory overwrite sources

/-- The loop over the entries of a directory in `_append_to_zip`. -/
def appendEach (append : List String → Action Problem α Bytes (List Content)) (path : List String) :
    List (String × Found α Bytes) → Action Problem α Bytes (List Content)
  | [] => pure []
  | entry :: rest => do
      let first ← append (path ++ [entry.1])
      let others ← appendEach append path rest
      pure (first ++ others)

/-- `_append_to_zip`, which calls itself so many times at most. -/
def appendToZip (base : List String) : Nat → List String → Action Problem α Bytes (List Content)
  | 0, _ => raise .recursionError
  | calls + 1, path => do
      let found ← lstat path
      if found.object.isDir then do
        let entries ← scandir server path
        appendEach (appendToZip base calls) path entries
      else if found.object.isFile then do
        let content ← read path
        pure [⟨"/".intercalate (relpath path base), content.1, content.2⟩]
      else pure []

/-- The archive of `download_paths`. -/
def zipEach : List (List String) → Action Problem α Bytes (List Content)
  | [] => pure []
  | path :: rest => do
      let first ← appendToZip server path.dropLast server.recursionLimit path
      let others ← zipEach rest
      pure (first ++ others)

/-- A single file is downloaded as it is. -/
def singleFile : List RealPath → Action Problem α Bytes (Option RealPath)
  | [path] => do
      let found ← lstat path
      pure (if found.object.isFile then some path else none)
  | _ => pure none

/-- `download_paths` -/
def downloadPaths (rawPaths : List String) : Action Problem α Bytes Download := do
  let paths ← toPaths root rawPaths
  let realPaths ← realExistingPaths root paths
  let single ← singleFile realPaths
  match single with
  | some path => do
      let content ← read path
      let filename := path.getLastD ""
      pure ⟨filename, (server.guessType filename).getD "application/octet-stream",
        [⟨filename, content.1, content.2⟩]⟩
  | none => do
      let contents ← zipEach server realPaths
      pure ⟨"workspace-download.zip", "application/zip", contents⟩

/-- `write_file` -/
def writeFile (rawPath : String) (content : Bytes) : Action Problem α Bytes Unit := do
  let target ← toPath root rawPath
  ensureParentWithin server root target
  let _ ← mapError .file
    (replaceFileAtomic server.attrs server.stamp server.uuid root target content)
  pure ()

/-- What `cp` and `mv` do: the last operand is the directory. -/
def intoDirectory (operation : List String → List String → Action Problem α Bytes Unit)
    (target : List String) (sources : List (List String)) : Action Problem α Bytes Unit :=
  if sources.isEmpty then fail .failure else forOperands (operation target) sources

/-- `_run_file_command` -/
def runFileCommand (operation : List String → List String → Action Problem α Bytes Unit)
    (sources : List String) (destination : String) : Action Problem α Bytes Unit := do
  let target ← toPath root destination
  ensureParentWithin server root (target ++ [".zj-target-check"])
  let sourcePaths ← toPaths root sources
  let _ ← realExistingPaths root sourcePaths
  runCommand server (do
      makedirs server.attrs.dir target
      intoDirectory operation target sourcePaths) "remote file operation failed"

/-- `copy_files` -/
def copyFiles (sources : List String) (destination : String) : Action Problem α Bytes Unit :=
  runFileCommand server root cpInto sources destination

/-- `move_files` -/
def moveFiles (sources : List String) (destination : String) : Action Problem α Bytes Unit :=
  runFileCommand server root mvInto sources destination

/-- `delete_files` -/
def deleteFiles (rawPaths : List String) : Action Problem α Bytes Unit := do
  let paths ← toPaths root rawPaths
  if paths.contains root then raise (permissionError "workspace root cannot be deleted")
  else do
    let _ ← realExistingPaths root paths
    runCommand server (forOperands rm paths) "remote delete failed"

/-- `make_directory` -/
def makeDirectory (rawPath : String) : Action Problem α Bytes Unit := do
  let target ← toPath root rawPath
  ensureParentWithin server root target
  makedirs server.attrs.dir target

end Session

end Operations

/-! ### The replacement over a connection -/

section Lasting

variable {α : Type} (attrs : NewAttrs α) (stamp uuid : String) (root target : List String)

theorem lstatIfThere_carries : Remote.Carries
    (((do
      let found ← Remote.whole (lstat target)
      pure (some found)) : Remote FileProblem α Bytes (Option (Found α Bytes))).orElse fun error =>
        match error with
        | .server .noSuchFile => pure none
        | error => Remote.throw error) (lstatIfThere target) 1 := by
  refine Remote.carries_orElse (n := 1) (m := 0)
    (Remote.carries_bind (Remote.carries_request _ _) fun found => Remote.carries_pure _) fun error => ?_
  cases error with
  | noSuchFile => exact Remote.carries_pure _
  | failure => exact Remote.carries_throw _
  | raised error => exact Remote.carries_throw _

theorem backupExistingFile_carries : Remote.Carries
    (RemoteReplace.backupExistingFile attrs root target stamp)
    (backupExistingFile attrs (fun _ => stamp) root target) 3 := by
  refine Remote.carries_bind (n := 1) (m := 2) (lstatIfThere_carries target) fun found => ?_
  cases found with
  | none => exact (Remote.carries_pure _).mono (by omega)
  | some found =>
      simp only
      split
      · exact (Remote.carries_throw _).mono (by omega)
      · split
        · exact (Remote.carries_throw _).mono (by omega)
        · refine Remote.carries_bind (n := 1) (m := 1) (Remote.carries_request _ _) fun _ => ?_
          exact Remote.carries_bind (n := 1) (m := 0) (Remote.carries_request _ _)
            fun _ => Remote.carries_pure _

theorem ignoringMissing_carries (path : List String) : Remote.Carries
    (RemoteReplace.ignoringMissing (Remote.whole (remove path) : Remote FileProblem α Bytes Unit))
    (ignoringMissing (remove path)) 1 := by
  refine Remote.carries_orElse (n := 1) (m := 0) (Remote.carries_request _ _) fun error => ?_
  cases error with
  | noSuchFile => exact Remote.carries_pure _
  | failure => exact Remote.carries_throw _
  | raised error => exact Remote.carries_throw _

variable (data : Bytes)

theorem writeAndRename_carries (tempPath : List String) : Remote.Carries
    (RemoteReplace.writeAndRename attrs tempPath target data)
    (writeAndRename attrs tempPath target data) 4 := by
  refine Remote.carries_bind (n := 1) (m := 3) (Remote.carries_request _ _) fun _ => ?_
  refine Remote.carries_bind (n := 2) (m := 1) ?_ fun _ => Remote.carries_request _ _
  -- the file is closed, which changes nothing
  intro t left part hleft
  obtain ⟨left', hle, hrun⟩ := Remote.carries_ensuring (n := 1) (m := 1)
    (Remote.carries_request (write attrs.file tempPath data) fun part =>
      write attrs.file tempPath (data.take part))
    (Remote.carries_request (pure ()) fun _ => pure ()) t left part hleft
  rw [ensuring_run_ok (t := t) (a := write attrs.file tempPath data) (b := pure ()) rfl] at hrun
  exact ⟨left', hle, hrun⟩

theorem writeBytesAtomic_carries : Remote.Carries
    (RemoteReplace.writeBytesAtomic attrs target uuid data)
    (writeBytesAtomic attrs (fun _ => uuid) target data) 6 := by
  refine Remote.carries_bind (n := 1) (m := 5) (Remote.carries_request _ _) fun _ => ?_
  exact Remote.carries_ensuring (n := 4) (m := 1) (writeAndRename_carries attrs target data _)
    (ignoringMissing_carries _)

theorem putBack_carries (backup : Option (List String)) (error : FileError FileProblem) :
    Remote.Carries
      ((do
        match backup with
        | some backup => (Remote.whole (rename backup target)).orElse fun _ => pure ()
        | none => pure ()
        Remote.throw (.server error)) : Remote FileProblem α Bytes Unit)
      (do
        putBack backup target
        fail error) 1 := by
  cases backup with
  | none => exact (Remote.carries_throw error).mono (by omega)
  | some backup =>
      refine Remote.carries_bind (n := 1) (m := 0) ?_ fun _ => Remote.carries_throw error
      exact Remote.carries_orElse (n := 1) (m := 0) (Remote.carries_request _ _)
        fun _ => Remote.carries_pure _

/-- **Over a connection that carries ten operations, a replacement is the
action.** -/
theorem replaceFileAtomic_carries : Remote.Carries
    (RemoteReplace.replaceFileAtomic attrs root target stamp uuid data)
    (replaceFileAtomic attrs (fun _ => stamp) (fun _ => uuid) root target data) 10 := by
  refine Remote.carries_bind (n := 3) (m := 7) (backupExistingFile_carries attrs stamp root target)
    fun backup => ?_
  refine Remote.carries_bind (n := 7) (m := 0) ?_ fun _ => Remote.carries_pure _
  exact Remote.carries_orElse (n := 6) (m := 1) (writeBytesAtomic_carries attrs uuid target data)
    fun error => putBack_carries target backup error

end Lasting

end Workbench.RemoteFiles
