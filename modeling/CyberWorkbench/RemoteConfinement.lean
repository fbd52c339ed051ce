import CyberWorkbench.RemoteFiles

/-!
# What the operations on a remote workspace reach

An operation is confined if all that it creates, changes or deletes, and all of
which it returns the content or the metadata, stands at or below the place
where the root of the workspace leads.

* Reading and downloading are confined for every tree (`confined_readFile`,
  `confined_downloadPaths`).
* Looking up one entry is not checked at all, and a listing of the root has the
  directory above in it where the server lists it.
* Directories are made before the check, so the first one that is missing may
  be outside, behind a link; then the check raises.
* The check follows a link at the end of an operand, and the commands do not;
  `cp` writes along the links that it finds in its destination.

`Allowed` is the exact condition.  `RemoteWrites` has the operations that replace
files, and puts all of them together.
-/

namespace Workbench.RemoteFiles

open FileTree FileTree.Action
open RemoteReplace (Bytes FileProblem NewAttrs backupDir backupName tempName)

variable {α : Type}

/-- The operations of `remote_files`. -/
inductive Operation where
  | listFiles (rawPath : String)
  | fileInfo (rawPath : String)
  | readFile (rawPath : String) (maxBytes : Nat)
  | uploadFiles (rawPath : String) (sources : List UploadSource) (overwrite : Bool)
  | downloadPaths (rawPaths : List String)
  | writeFile (rawPath : String) (content : Bytes)
  | copyFiles (sources : List String) (destination : String)
  | moveFiles (sources : List String) (destination : String)
  | deleteFiles (rawPaths : List String)
  | makeDirectory (rawPath : String)

/-- What they return. -/
inductive Answer (α : Type) where
  | infos (infos : List (FileInfo α))
  | info (info : Option (FileInfo α))
  | content (content : Content)
  | items (items : List UploadItem)
  | download (download : Download)
  | done

/-- The objects of which an answer has the content or the metadata. -/
def Answer.shown : Answer α → List RealPath
  | .infos listing => listing.map (·.place)
  | .info found => found.toList.map (·.place)
  | .content found => [found.place]
  | .items _ => []
  | .download found => found.contents.map (·.place)
  | .done => []

/-- An operation, from the root of the workspace on. -/
def performAt (server : Server α) (root : List String) : Operation → Action Problem α Bytes (Answer α)
  | .listFiles rawPath => do
      let infos ← listFiles server root rawPath
      pure (.infos infos)
  | .fileInfo rawPath => do
      let info ← fileInfo root rawPath
      pure (.info info)
  | .readFile rawPath maxBytes => do
      let content ← readFile root rawPath maxBytes
      pure (.content content)
  | .uploadFiles rawPath sources overwrite => do
      let items ← uploadFiles server root rawPath sources overwrite
      pure (.items items)
  | .downloadPaths rawPaths => do
      let download ← downloadPaths server root rawPaths
      pure (.download download)
  | .writeFile rawPath content => do
      writeFile server root rawPath content
      pure .done
  | .copyFiles sources destination => do
      copyFiles server root sources destination
      pure .done
  | .moveFiles sources destination => do
      moveFiles server root sources destination
      pure .done
  | .deleteFiles rawPaths => do
      deleteFiles server root rawPaths
      pure .done
  | .makeDirectory rawPath => do
      makeDirectory server root rawPath
      pure .done

/-- An operation in a session of its own. -/
def perform (server : Server α) (home : RealPath) (containerId : Nat) (operation : Operation) :
    Action Problem α Bytes (Answer α) := do
  let root ← sftpSession server home containerId
  performAt server root operation

/-- A host with a workspace: its root is there, and leads to a place. -/
structure Workspace (α : Type) where
  tree : FileTree α Bytes
  home : RealPath
  containerId : Nat
  place : RealPath
  home_proper : ∀ name ∈ home, Proper name
  positive : containerId ≠ 0
  leads : LeadsToDir tree (remoteRoot home containerId) place

namespace Workspace

variable (server : Server α) (ws : Workspace α)

def root : List String := remoteRoot ws.home ws.containerId

/-- At or below the root of the workspace. -/
def Inside (k : RealPath) : Prop := ws.place <+: k

/-- **Confined.**  All that the operation touches is inside, and so is all that
its answer shows. -/
def Confined (operation : Operation) : Prop :=
  Stays ws.Inside (perform server ws.home ws.containerId operation) ws.tree ∧
    ∀ answer, ((perform server ws.home ws.containerId operation).run ws.tree).result = .ok answer →
      ∀ k ∈ answer.shown, ws.Inside k

/-! ### When an operation is confined -/

/-- The first directory that is made for a path is inside. -/
def MakesInside (path : List String) : Prop :=
  ∀ k, firstMissing ws.tree [] path = some k → ws.Inside k

/-- The tree with the directories of a path made. -/
def made (path : List String) : FileTree α Bytes :=
  ((makedirs server.attrs.dir path : Action Problem α Bytes Unit).run ws.tree).tree

/-- The check of a path passes: it leads inside. -/
def Checked (t : FileTree α Bytes) (path : List String) : Prop :=
  ∃ k, canonical t path = some k ∧ ws.Inside k

/-- Where a file is replaced in a directory, its backup is inside: the directory
of the backups leads inside, or the file cannot be moved there. -/
def BackupInside (t : FileTree α Bytes) (directory : RealPath) (name : String) : Prop :=
  ∀ attrs content, t.get? (directory ++ [name]) = some (.file attrs content) →
    ∀ b, LeadsToDir t (backupDir ws.root) b →
      t.get? (b ++ [backupName (server.stamp t) name]) = none → ws.Inside b

/-- The same for one file after the other, each on the tree as those before it
left it. -/
def UploadsInside (path : List String) (directory : RealPath) (overwrite : Bool) :
    FileTree α Bytes → List UploadSource → Prop
  | _, [] => True
  | t, source :: rest => ∀ name, fileName source.filename = some name →
      overwrite = true ∨ t.get? (directory ++ [name]) = none →
        ws.BackupInside server t directory name ∧
        let replaced := (replaceFileAtomic server.attrs server.stamp server.uuid ws.root
          (path ++ [name]) source.data).run t
        ∀ backup, replaced.result = .ok backup →
          UploadsInside path directory overwrite replaced.tree rest

/-- The paths of a request. -/
def pathOf (rawPath : String) : Option (List String) :=
  (normalizeRemotePath rawPath).map (ws.root ++ ·)

def pathsOf : List String → Option (List (List String))
  | [] => some []
  | rawPath :: rest => (ws.pathOf rawPath).bind fun path => (pathsOf rest).map (path :: ·)

/-- What a file command asks of its destination and its operands. -/
def CommandInside
    (operation : List String → List String → Action Problem α Bytes Unit)
    (good : List String → FileTree α Bytes → List String → Prop) (sources : List String)
    (destination : String) : Prop :=
  ∀ target, ws.pathOf destination = some target → ws.MakesInside target ∧
    ∀ d, LeadsToDir (ws.made server target) target d → ws.Inside d →
      ∀ paths, ws.pathsOf sources = some paths →
        (∀ path ∈ paths, ws.Checked (ws.made server target) path) →
          AtEachOperand (operation target) (good target) (ws.made server target) paths

/-- **When an operation is confined.** -/
def Allowed : Operation → Prop
  | .listFiles rawPath => ∀ path, ws.pathOf rawPath = some path → server.listsDots = true →
      ∀ d, LeadsToDir ws.tree path d → ws.Inside d → ws.Inside d.dropLast
  | .fileInfo rawPath => ∀ path, ws.pathOf rawPath = some path →
      ∀ k, locate ws.tree path = some k → ws.tree.get? k ≠ none → ws.Inside k
  | .readFile _ _ => True
  | .uploadFiles rawPath sources overwrite => ∀ path, ws.pathOf rawPath = some path →
      ws.MakesInside path ∧ ∀ d, LeadsToDir (ws.made server path) path d → ws.Inside d →
        ws.UploadsInside server path d overwrite (ws.made server path) sources
  | .downloadPaths _ => True
  | .writeFile rawPath _ => ∀ path, ws.pathOf rawPath = some path → ws.MakesInside path.dropLast ∧
      ∀ d, LeadsToDir ws.tree path.dropLast d → ws.Inside d →
        ws.BackupInside server ws.tree d (path.getLastD "")
  | .copyFiles sources destination => ws.CommandInside server cpInto
      (CpInside Problem ws.Inside) sources destination
  | .moveFiles sources destination => ws.CommandInside server mvInto
      (MvInside ws.Inside) sources destination
  | .deleteFiles rawPaths => ∀ paths, ws.pathsOf rawPaths = some paths → ws.root ∉ paths →
      (∀ path ∈ paths, ws.Checked ws.tree path) →
        AtEachOperand (rm : List String → Action Problem α Bytes Unit) (RmInside ws.Inside)
          ws.tree paths
  | .makeDirectory rawPath => ∀ path, ws.pathOf rawPath = some path → ws.MakesInside path.dropLast

/-! ### Paths of a workspace -/

section Paths

variable {ws : Workspace α} {server : Server α} {t : FileTree α Bytes}

theorem inside_append {k : RealPath} (h : ws.Inside k) (more : List String) :
    ws.Inside (k ++ more) := h.trans (List.prefix_append k more)

theorem rooted : ws.tree.DirAt [] := DirAt.prefix_dirAt (k := []) ws.leads.2

/-- A number is a name. -/
theorem toString_proper (n : Nat) : Proper (toString n) := by
  have hdigits : (toString n).toList = Nat.toDigits 10 n := Nat.toList_repr
  have hne : (toString n).toList ≠ [] := by
    rw [hdigits]
    exact Nat.toDigits_ne_nil
  obtain ⟨c, rest, hlist⟩ := List.exists_cons_of_ne_nil hne
  have hmem : c ∈ (toString n).toList := by
    rw [hlist]
    exact List.mem_cons_self
  refine RemoteReplace.Replacement.proper_of_mem hmem ?_
  rintro rfl
  rw [hdigits] at hmem
  exact absurd (Nat.isDigit_of_mem_toDigits (by decide) (by decide) hmem) (by decide)

theorem root_proper : ∀ name ∈ ws.root, Proper name := by
  intro name hname
  rcases List.mem_append.mp hname with hhome | hrest
  · exact ws.home_proper name hhome
  · simp only [List.mem_cons, List.not_mem_nil, or_false] at hrest
    rcases hrest with rfl | rfl | rfl | rfl
    · decide
    · decide
    · exact toString_proper _
    · decide

theorem root_ne_nil : ws.root ≠ [] := by
  unfold root remoteRoot
  simp

/-- The parts of a request are names. -/
theorem normalizeRemotePath_proper {rawPath : String} {parts : List String}
    (h : normalizeRemotePath rawPath = some parts) : ∀ name ∈ parts, Proper name := by
  unfold normalizeRemotePath at h
  simp only [Option.ite_none_left_eq_some] at h
  obtain ⟨hup, hparts⟩ := h
  rw [Option.some.inj hparts] at hup
  intro name hname
  have hmem := hname
  rw [← Option.some.inj hparts] at hmem
  have hkept := (List.mem_filter.mp hmem).2
  rw [Bool.and_eq_true, bne_iff_ne, bne_iff_ne] at hkept
  refine ⟨hkept.1, hkept.2, ?_⟩
  rintro rfl
  exact hup (List.contains_iff_mem.mpr hname)

theorem pathOf_proper {rawPath : String} {path : List String}
    (h : ws.pathOf rawPath = some path) : ∀ name ∈ path, Proper name := by
  obtain ⟨parts, hparts, rfl⟩ := Option.map_eq_some_iff.mp h
  intro name hname
  rcases List.mem_append.mp hname with hroot | hrest
  · exact root_proper name hroot
  · exact normalizeRemotePath_proper hparts name hrest

/-- A path of the workspace is an entry of its parent. -/
theorem pathOf_split {rawPath : String} {path : List String} (h : ws.pathOf rawPath = some path) :
    ∃ parent name, path = parent ++ [name] := by
  obtain ⟨parts, -, rfl⟩ := Option.map_eq_some_iff.mp h
  have hne : ws.root ++ parts ≠ [] := by simp [root_ne_nil]
  exact ⟨_, _, (List.dropLast_concat_getLast hne).symm⟩

/-! ### Requests -/

theorem looks_toPath (rawPath : String) :
    Looks (toPath ws.root rawPath : Action Problem α Bytes (List String)) t := by
  unfold toPath
  cases normalizeRemotePath rawPath with
  | none => exact looks_look _
  | some relative => exact looks_look _

theorem toPath_ok {rawPath : String} {path : List String} :
    ((toPath ws.root rawPath : Action Problem α Bytes (List String)).run t).result = .ok path ↔
      ws.pathOf rawPath = some path := by
  unfold toPath pathOf
  cases normalizeRemotePath rawPath with
  | none =>
      constructor
      · intro h
        cases h
      · intro h
        cases h
  | some relative =>
      rw [Option.map_some, Option.some.injEq]
      exact ⟨Except.ok.inj, congrArg Except.ok⟩

theorem looks_toPaths (rawPaths : List String) :
    Looks (toPaths ws.root rawPaths : Action Problem α Bytes (List (List String))) t := by
  induction rawPaths with
  | nil => exact looks_look _
  | cons rawPath rest ih =>
      exact looks_bind (looks_toPath rawPath) fun path _ =>
        looks_bind ih fun paths _ => looks_look _

theorem toPaths_ok {rawPaths : List String} {paths : List (List String)} :
    ((toPaths ws.root rawPaths : Action Problem α Bytes (List (List String))).run t).result =
        .ok paths ↔ ws.pathsOf rawPaths = some paths := by
  induction rawPaths generalizing paths with
  | nil =>
      unfold toPaths pathsOf
      rw [Option.some.injEq]
      exact ⟨Except.ok.inj, congrArg Except.ok⟩
  | cons rawPath rest ih =>
      unfold toPaths pathsOf
      rw [bind_ok_of_looks (looks_toPath rawPath), Option.bind_eq_some_iff]
      refine exists_congr fun path => and_congr toPath_ok ?_
      rw [bind_ok_of_looks (looks_toPaths rest), Option.map_eq_some_iff]
      refine exists_congr fun others => and_congr ih ?_
      exact ⟨Except.ok.inj, congrArg Except.ok⟩

/-! ### Checks -/

theorem isWithin_iff {k : RealPath} : isWithin ws.place k = true ↔ ws.Inside k :=
  List.isPrefixOf_iff_prefix

theorem looks_realExistingPath (path : List String) :
    Looks (realExistingPath ws.root path : Action Problem α Bytes RealPath) t := by
  unfold realExistingPath
  refine looks_bind (looks_look _) fun realRoot _ => looks_bind (looks_look _) fun realPath _ => ?_
  split
  · exact looks_look _
  · exact looks_look _

/-- **The check of a path**: it leads inside. -/
theorem realExistingPath_ok (hroot : LeadsToDir t ws.root ws.place) {path : List String}
    {k : RealPath} :
    ((realExistingPath ws.root path : Action Problem α Bytes RealPath).run t).result = .ok k ↔
      canonical t path = some k ∧ ws.Inside k := by
  unfold realExistingPath
  rw [bind_ok_of_looks (a := realpath ws.root) (looks_look _)]
  constructor
  · rintro ⟨realRoot, hrealRoot, h⟩
    obtain rfl := Option.some.inj (hroot.1.symm.trans (realpath_ok.mp hrealRoot))
    rw [bind_ok_of_looks (a := realpath path) (looks_look _)] at h
    obtain ⟨realPath, hrealPath, h⟩ := h
    split at h
    · cases h
    · rename_i hwithin
      obtain rfl := Except.ok.inj h
      exact ⟨realpath_ok.mp hrealPath, isWithin_iff.mp (by simpa using hwithin)⟩
  · rintro ⟨hcanonical, hinside⟩
    refine ⟨ws.place, realpath_ok.mpr hroot.1, ?_⟩
    rw [bind_ok_of_looks (a := realpath path) (looks_look _)]
    refine ⟨k, realpath_ok.mpr hcanonical, ?_⟩
    rw [isWithin_iff.mpr hinside]
    rfl

theorem looks_realExistingPaths (paths : List (List String)) :
    Looks (realExistingPaths ws.root paths : Action Problem α Bytes (List RealPath)) t := by
  induction paths with
  | nil => exact looks_look _
  | cons path rest ih =>
      exact looks_bind (looks_realExistingPath path) fun realPath _ =>
        looks_bind ih fun realPaths _ => looks_look _

/-- The checks of several paths: all of them lead inside. -/
theorem realExistingPaths_ok (hroot : LeadsToDir t ws.root ws.place) (paths : List (List String)) :
    (∃ ks, ((realExistingPaths ws.root paths : Action Problem α Bytes (List RealPath)).run
        t).result = .ok ks) ↔ ∀ path ∈ paths, ws.Checked t path := by
  induction paths with
  | nil => exact ⟨fun _ path hpath => absurd hpath List.not_mem_nil, fun _ => ⟨[], rfl⟩⟩
  | cons path rest ih =>
      unfold realExistingPaths
      simp only [bind_ok_of_looks (looks_realExistingPath path),
        bind_ok_of_looks (looks_realExistingPaths rest), realExistingPath_ok hroot]
      rw [List.forall_mem_cons, ← ih]
      constructor
      · rintro ⟨ks, k, hk, others, hothers, -⟩
        exact ⟨⟨k, hk⟩, others, hothers⟩
      · rintro ⟨⟨k, hk⟩, others, hothers⟩
        exact ⟨k :: others, k, hk, others, hothers, rfl⟩

/-- What the checks return leads inside. -/
theorem realExistingPaths_mem (hroot : LeadsToDir t ws.root ws.place) {paths : List (List String)}
    {ks : List RealPath}
    (h : ((realExistingPaths ws.root paths : Action Problem α Bytes (List RealPath)).run
      t).result = .ok ks) : ∀ k ∈ ks, ∃ path, canonical t path = some k ∧ ws.Inside k := by
  induction paths generalizing ks with
  | nil =>
      obtain rfl := Except.ok.inj h
      intro k hk
      cases hk
  | cons path rest ih =>
      unfold realExistingPaths at h
      rw [bind_ok_of_looks (looks_realExistingPath path)] at h
      obtain ⟨k, hk, h⟩ := h
      rw [bind_ok_of_looks (looks_realExistingPaths rest)] at h
      obtain ⟨others, hothers, h⟩ := h
      obtain rfl := Except.ok.inj h
      rw [List.forall_mem_cons]
      exact ⟨⟨path, (realExistingPath_ok hroot).mp hk⟩, ih hothers⟩

/-! ### Sessions -/

/-- The root is there: a session makes nothing. -/
theorem sftpSession_run : (sftpSession server ws.home ws.containerId :
    Action Problem α Bytes (List String)).run ws.tree = ⟨.ok ws.root, ws.tree, []⟩ := by
  have hmade : (makedirs server.attrs.dir ws.root : Action Problem α Bytes Unit).run ws.tree =
      ⟨.ok (), ws.tree, []⟩ := makedirs_there root_proper ws.leads
  unfold sftpSession
  rw [if_neg ws.positive]
  show ((makedirs server.attrs.dir ws.root >>= fun _ => pure ws.root) :
    Action Problem α Bytes (List String)).run ws.tree = _
  rw [run_bind_ok (by rw [hmade]) (by rw [hmade]), hmade]
  rfl

/-- An operation is confined if it is so from the root on. -/
theorem confined_performAt {operation : Operation} : ws.Confined server operation ↔
    Stays ws.Inside (performAt server ws.root operation) ws.tree ∧
      ∀ answer, ((performAt server ws.root operation).run ws.tree).result = .ok answer →
        ∀ k ∈ answer.shown, ws.Inside k := by
  have hlooks : Looks (sftpSession server ws.home ws.containerId) ws.tree :=
    ⟨by rw [sftpSession_run], by rw [sftpSession_run]⟩
  have hok : ∀ root, ((sftpSession server ws.home ws.containerId :
      Action Problem α Bytes (List String)).run ws.tree).result = .ok root ↔ ws.root = root := by
    intro root
    rw [sftpSession_run, Except.ok.injEq]
  unfold Confined perform
  rw [stays_bind_of_looks hlooks]
  simp only [bind_ok_of_looks hlooks, hok, forall_eq', exists_eq_left']

/-- Making directories stays inside if the first one does. -/
theorem stays_makedirs {path : List String} (hproper : ∀ name ∈ path, Proper name) :
    Stays ws.Inside (makedirs server.attrs.dir path : Action Problem α Bytes Unit) t ↔
      ∀ k, firstMissing t [] path = some k → ws.Inside k :=
  stays_makedirsFrom hproper (fun _ more (hk : ws.Inside _) => inside_append hk more) []

/-- `_ensure_parent_within`, with the root resolved. -/
def ensureWithin (server : Server α) (place : RealPath) (parent : List String) :
    Action Problem α Bytes Unit := do
  makedirs server.attrs.dir parent
  let realParent ← realpath parent
  if !isWithin place realParent then
    raise (permissionError "path escapes the portable workspace")
  else pure ()

theorem ensureParentWithin_run (hroot : LeadsToDir t ws.root ws.place) (path : List String) :
    (ensureParentWithin server ws.root path).run t =
      (ensureWithin server ws.place path.dropLast).run t := by
  have hreal : ((realpath ws.root : Action Problem α Bytes RealPath).run t).result =
      .ok ws.place := realpath_ok.mpr hroot.1
  unfold ensureParentWithin
  rw [run_bind_ok hreal rfl]
  rfl

/-- The check of the parent only looks. -/
theorem looks_check (place : RealPath) (parent : List String) : Looks (do
    let realParent ← realpath parent
    if !isWithin place realParent then
      raise (permissionError "path escapes the portable workspace")
    else pure () : Action Problem α Bytes Unit) t := by
  refine looks_bind (looks_look _) fun realParent _ => ?_
  split
  · exact looks_look _
  · exact looks_look _

theorem stays_ensureParentWithin (hroot : LeadsToDir t ws.root ws.place) {path : List String}
    (hproper : ∀ name ∈ path.dropLast, Proper name) :
    Stays ws.Inside (ensureParentWithin server ws.root path) t ↔
      ∀ k, firstMissing t [] path.dropLast = some k → ws.Inside k := by
  have hrun : Stays ws.Inside (ensureParentWithin server ws.root path) t ↔
      Stays ws.Inside (ensureWithin server ws.place path.dropLast) t := by
    unfold Stays
    rw [ensureParentWithin_run hroot]
  rw [hrun, ensureWithin, stays_bind, stays_makedirs hproper]
  exact and_iff_left fun _ _ => (looks_check _ _).stays

/-- The directories are made before the parent is checked. -/
theorem ensureParentWithin_tree (server : Server α) (hroot : LeadsToDir t ws.root ws.place) (path : List String) :
    ((ensureParentWithin server ws.root path).run t).tree =
      ((makedirs server.attrs.dir path.dropLast : Action Problem α Bytes Unit).run t).tree := by
  rw [ensureParentWithin_run hroot, ensureWithin]
  cases hresult : ((makedirs server.attrs.dir path.dropLast : Action Problem α Bytes Unit).run
      t).result with
  | error error => rw [bind_run_error hresult]
  | ok x =>
      rw [bind_run hresult]
      exact (looks_check _ _).1

/-- **The check of a parent**: with its directories made it leads inside. -/
theorem ensureParentWithin_ok (server : Server α) (hroot : LeadsToDir t ws.root ws.place)
    {path : List String}
    (hproper : ∀ name ∈ path.dropLast, Proper name) :
    ((ensureParentWithin server ws.root path).run t).result = .ok () ↔
      ∃ d, LeadsToDir ((makedirs server.attrs.dir path.dropLast :
        Action Problem α Bytes Unit).run t).tree path.dropLast d ∧ ws.Inside d := by
  have hrooted : t.DirAt [] := DirAt.prefix_dirAt (k := []) hroot.2
  rw [ensureParentWithin_run hroot, ensureWithin]
  constructor
  · intro h
    obtain ⟨⟨⟩, hmade, h, -⟩ := bind_ok h
    obtain ⟨d, hd⟩ := (makedirs_ok_iff hrooted hproper).mp hmade
    refine ⟨d, hd, ?_⟩
    rw [bind_ok_of_looks (a := realpath path.dropLast) (looks_look _)] at h
    obtain ⟨realParent, hreal, h⟩ := h
    obtain rfl := Option.some.inj (hd.1.symm.trans (realpath_ok.mp hreal))
    split at h
    · cases h
    · rename_i hwithin
      exact isWithin_iff.mp (by simpa using hwithin)
  · rintro ⟨d, hd, hinside⟩
    rw [bind_run ((makedirs_ok_iff hrooted hproper).mpr ⟨d, hd⟩)]
    refine (bind_ok_of_looks (a := realpath path.dropLast) (looks_look _)).mpr
      ⟨d, realpath_ok.mpr hd.1, ?_⟩
    rw [isWithin_iff.mpr hinside]
    rfl

/-- Making directories leaves the root where it is. -/
theorem root_makedirs (server : Server α) (hroot : LeadsToDir t ws.root ws.place) {path : List String}
    (hproper : ∀ name ∈ path, Proper name) :
    LeadsToDir ((makedirs server.attrs.dir path : Action Problem α Bytes Unit).run t).tree
      ws.root ws.place :=
  hroot.keeps (makedirs_keeps (DirAt.prefix_dirAt (k := []) hroot.2) hproper)

/-- What an operation does and what its answer shows. -/
theorem confined_iff_of_bind {operation : Operation} {γ : Type} {a : Action Problem α Bytes γ}
    {f : γ → Answer α} (h : performAt server ws.root operation = (a >>= fun x => pure (f x))) :
    ws.Confined server operation ↔ Stays ws.Inside a ws.tree ∧
      ∀ x, (a.run ws.tree).result = .ok x → ∀ k ∈ (f x).shown, ws.Inside k := by
  rw [confined_performAt, h, stays_bind_pure]
  refine and_congr_right fun _ => ?_
  constructor
  · exact fun hall x hx => hall (f x) (bind_pure_ok.mpr ⟨x, hx, rfl⟩)
  · intro hall answer hanswer
    obtain ⟨x, hx, rfl⟩ := bind_pure_ok.mp hanswer
    exact hall x hx

/-- The answer shows nothing. -/
theorem confined_iff_stays {operation : Operation} {γ : Type} {a : Action Problem α Bytes γ}
    {f : γ → Answer α} (h : performAt server ws.root operation = (a >>= fun x => pure (f x)))
    (hshown : ∀ x, (f x).shown = []) :
    ws.Confined server operation ↔ Stays ws.Inside a ws.tree := by
  rw [confined_iff_of_bind h]
  refine and_iff_left fun x _ k hk => ?_
  rw [hshown] at hk
  cases hk

/-- The operation only looks. -/
theorem confined_iff_shown {operation : Operation} {γ : Type} {a : Action Problem α Bytes γ}
    {f : γ → Answer α} (h : performAt server ws.root operation = (a >>= fun x => pure (f x)))
    (hlooks : Looks a ws.tree) : ws.Confined server operation ↔
      ∀ x, (a.run ws.tree).result = .ok x → ∀ k ∈ (f x).shown, ws.Inside k := by
  rw [confined_iff_of_bind h]
  exact and_iff_right hlooks.stays

/-! ### Making a directory -/

/-- `make_directory` is confined if the directories above are made inside. -/
theorem confined_makeDirectory {rawPath : String} :
    ws.Confined server (.makeDirectory rawPath) ↔ ws.Allowed server (.makeDirectory rawPath) := by
  refine (confined_iff_stays (a := makeDirectory server ws.root rawPath) rfl fun _ => rfl).trans ?_
  unfold makeDirectory Allowed
  rw [stays_bind_of_looks (looks_toPath rawPath)]
  simp only [toPath_ok]
  refine forall_congr' fun path => imp_congr_right fun hpath => ?_
  have hproper := pathOf_proper hpath
  obtain ⟨parent, name, rfl⟩ := pathOf_split hpath
  have hparent : ∀ other ∈ (parent ++ [name]).dropLast, Proper other := fun other hother =>
    hproper other (List.dropLast_subset _ hother)
  rw [stays_bind, stays_ensureParentWithin ws.leads hparent]
  refine and_iff_left ?_
  intro _ hok
  obtain ⟨d, hd, hinside⟩ := (ensureParentWithin_ok server ws.leads hparent).mp hok
  rw [ensureParentWithin_tree server ws.leads, stays_makedirs hproper]
  rw [List.dropLast_concat] at hparent hd ⊢
  intro k hk
  -- only the last directory can be missing, and it is made below the parent
  rw [firstMissing_concat hparent (hproper name (by simp)) hd hk]
  exact inside_append hinside [name]

/-! ### Looking -/

/-- **`read_file` is confined for every tree.** -/
theorem confined_readFile {rawPath : String} {maxBytes : Nat} :
    ws.Confined server (.readFile rawPath maxBytes) := by
  have hlooks : Looks (readFile ws.root rawPath maxBytes : Action Problem α Bytes Content) ws.tree :=
    looks_bind (looks_toPath rawPath) fun path _ =>
      looks_bind (looks_realExistingPath path) fun k _ =>
        looks_bind (looks_look _) fun _ _ => looks_look _
  refine (confined_iff_shown rfl hlooks).mpr ?_
  intro content hcontent k hk
  unfold readFile at hcontent
  rw [bind_ok_of_looks (looks_toPath rawPath)] at hcontent
  obtain ⟨path, -, h⟩ := hcontent
  rw [bind_ok_of_looks (looks_realExistingPath path)] at h
  obtain ⟨real, hreal, h⟩ := h
  obtain ⟨hcanonical, hinside⟩ := (realExistingPath_ok ws.leads).mp hreal
  obtain ⟨found, hfound, rfl⟩ := bind_pure_ok.mp h
  obtain rfl := List.mem_singleton.mp hk
  -- the real path leads to itself
  have hself := (resolve_eq_some.mp (read_ok hfound)).1
  rw [canonical_of_canonical (canonical_canonical rooted hcanonical)] at hself
  rw [← Option.some.inj hself]
  exact hinside

/-- What `lstat` finds, if anything. -/
theorem lstatIfThere_ok {ε : Type} {path : List String} {found : Option (Found α Bytes)} :
    ((lstatIfThere path : Action ε α Bytes (Option (Found α Bytes))).run t).result =
        .ok found ↔
      ((locate t path).bind fun k => (t.get? k).map (Found.mk k)) = found := by
  cases hfound : (locate t path).bind fun k => (t.get? k).map (Found.mk k) with
  | none =>
      have hlstat : ((do
          let found ← lstat path
          pure (some found) : Action ε α Bytes (Option (Found α Bytes))).run t) =
            ⟨.error .noSuchFile, t, []⟩ := by
        have hrun : ((lstat path : Action ε α Bytes (Found α Bytes)).run t).result =
            .error .noSuchFile := by simp [lstat, look, hfound]
        rw [bind_run_error hrun]
        rfl
      unfold lstatIfThere
      rw [handle_run_error (by rw [hlstat]), hlstat]
      exact ⟨Except.ok.inj, congrArg Except.ok⟩
  | some x =>
      have hlstat : ((do
          let found ← lstat path
          pure (some found) : Action ε α Bytes (Option (Found α Bytes))).run t).result =
            .ok (some x) := bind_pure_ok.mpr ⟨x, by simp [lstat, look, hfound], rfl⟩
      unfold lstatIfThere
      rw [handle_run_ok hlstat]
      exact ⟨Except.ok.inj, congrArg Except.ok⟩

theorem looks_lstatIfThere {ε : Type} (path : List String) :
    Looks (lstatIfThere path : Action ε α Bytes (Option (Found α Bytes))) t := by
  unfold lstatIfThere
  refine looks_handle (looks_bind (looks_look _) fun _ _ => looks_look _) fun error _ => ?_
  cases error with
  | noSuchFile => exact looks_look _
  | failure => exact looks_look _
  | raised error => exact looks_look _

@[simp] theorem info_place (root : List String) (name : String) (path : List String)
    (found : Found α Bytes) : (info root name path found).place = found.place := by
  unfold info
  split
  · rfl
  · rfl
  · rfl

/-- `file_info` is confined if the entry stands inside. -/
theorem confined_fileInfo {rawPath : String} :
    ws.Confined server (.fileInfo rawPath) ↔ ws.Allowed server (.fileInfo rawPath) := by
  have hlooks : Looks (fileInfo ws.root rawPath : Action Problem α Bytes (Option (FileInfo α)))
      ws.tree :=
    looks_bind (looks_toPath rawPath) fun path _ =>
      looks_bind (looks_lstatIfThere path) fun _ _ => looks_look _
  refine (confined_iff_shown rfl hlooks).trans ?_
  unfold fileInfo Allowed
  simp only [bind_ok_of_looks (looks_toPath rawPath), toPath_ok]
  constructor
  · intro h path hpath k hk hget
    obtain ⟨x, hx⟩ := Option.ne_none_iff_exists'.mp hget
    refine h (some (info ws.root (path.getLastD "/") path ⟨k, x⟩)) ⟨path, hpath, ?_⟩ k ?_
    · refine bind_pure_ok.mpr ⟨some ⟨k, x⟩, lstatIfThere_ok.mpr ?_, rfl⟩
      rw [hk, Option.bind_some, hx]
      rfl
    · simp [Answer.shown]
  · rintro h shown ⟨path, hpath, hshown⟩ k hk
    obtain ⟨found, hfound, rfl⟩ := bind_pure_ok.mp hshown
    cases found with
    | none => cases hk
    | some found =>
        obtain ⟨k', hk', hobject⟩ := Option.bind_eq_some_iff.mp (lstatIfThere_ok.mp hfound)
        obtain ⟨x, hx, rfl⟩ := Option.map_eq_some_iff.mp hobject
        obtain rfl : k = k' := by simpa [Answer.shown] using hk
        exact h path hpath k hk' (by rw [hx]; exact Option.some_ne_none x)

/-! ### Listing -/

theorem looks_scandir (path : List String) :
    Looks (scandir server path : Action Problem α Bytes (List (String × Found α Bytes))) t := by
  refine looks_bind (looks_look _) fun entries _ => ?_
  split
  · exact looks_bind (looks_look _) fun _ _ => looks_bind (looks_look _) fun _ _ => looks_look _
  · exact looks_look _

/-- Only a directory is listed. -/
theorem scandir_ok {path : List String} {listing : List (String × Found α Bytes)}
    (h : ((scandir server path : Action Problem α Bytes (List (String × Found α Bytes))).run
      t).result = .ok listing) : ∃ d, LeadsToDir t path d := by
  rw [scandir, bind_ok_of_looks (a := readdir path) (looks_look _)] at h
  obtain ⟨entries, hentries, -⟩ := h
  exact readdir_ok hentries

/-- **What a directory lists**: its entries, after itself and the directory
above where the server lists these. -/
theorem scandir_dir (server : Server α) {path : List String} {d : RealPath}
    (h : LeadsToDir t path d) :
    ∃ entries here above, (∀ entry ∈ entries, Proper entry.1 ∧ entry.2.place = d ++ [entry.1]) ∧
      ((scandir server path : Action Problem α Bytes (List (String × Found α Bytes))).run
        t).result = .ok (if server.listsDots
          then (".", ⟨d, here⟩) :: ("..", ⟨d.dropLast, above⟩) :: entries else entries) := by
  obtain ⟨entries, hentries, hplaces⟩ := readdir_dir (ε := Problem) h
  obtain ⟨here, hhere⟩ := stat_dir (ε := Problem) h
  obtain ⟨above, habove⟩ := stat_dir (ε := Problem) h.up
  refine ⟨entries, here, above, hplaces, ?_⟩
  rw [scandir, bind_ok_of_looks (a := readdir path) (looks_look _)]
  refine ⟨entries, by rw [hentries], ?_⟩
  cases server.listsDots with
  | false => rfl
  | true =>
      rw [if_pos rfl, if_pos rfl, bind_ok_of_looks (a := stat path) (looks_look _)]
      refine ⟨⟨d, here⟩, by rw [hhere], ?_⟩
      rw [bind_ok_of_looks (a := stat (path ++ [".."])) (looks_look _)]
      exact ⟨⟨d.dropLast, above⟩, by rw [habove], rfl⟩

/-- What `list_files` shows: the places of what the directory lists. -/
theorem listFiles_ok {rawPath : String} {infos : List (FileInfo α)} :
    ((listFiles server ws.root rawPath : Action Problem α Bytes (List (FileInfo α))).run
        ws.tree).result = .ok infos ↔
      ∃ path d listing, ws.pathOf rawPath = some path ∧ canonical ws.tree path = some d ∧
        ws.Inside d ∧
        ((scandir server d : Action Problem α Bytes (List (String × Found α Bytes))).run
          ws.tree).result = .ok listing ∧
        (listing.mergeSort fun first second =>
          decide (server.lower first.1 ≤ server.lower second.1)).map
            (fun entry => info ws.root entry.1 (d ++ [entry.1]) entry.2) = infos := by
  unfold listFiles
  simp only [bind_ok_of_looks (looks_toPath rawPath), toPath_ok,
    bind_ok_of_looks (looks_realExistingPath _), realExistingPath_ok ws.leads, bind_pure_ok]
  constructor
  · rintro ⟨path, hpath, d, ⟨hd, hinside⟩, listing, hlisting, heq⟩
    exact ⟨path, d, listing, hpath, hd, hinside, hlisting, heq⟩
  · rintro ⟨path, d, listing, hpath, hd, hinside, hlisting, heq⟩
    exact ⟨path, hpath, d, ⟨hd, hinside⟩, listing, hlisting, heq⟩

theorem mem_places {listing : List (String × Found α Bytes)} {d : RealPath} {k : RealPath} :
    k ∈ (((listing.mergeSort fun first second =>
        decide (server.lower first.1 ≤ server.lower second.1)).map
          (fun entry => info ws.root entry.1 (d ++ [entry.1]) entry.2)).map (·.place)) ↔
      ∃ entry ∈ listing, entry.2.place = k := by
  simp [List.mem_mergeSort]

/-- `list_files` is confined if the directory above, where it is listed, is
inside. -/
theorem confined_listFiles {rawPath : String} :
    ws.Confined server (.listFiles rawPath) ↔ ws.Allowed server (.listFiles rawPath) := by
  have hlooks : Looks (listFiles server ws.root rawPath : Action Problem α Bytes
      (List (FileInfo α))) ws.tree :=
    looks_bind (looks_toPath rawPath) fun path _ =>
      looks_bind (looks_realExistingPath path) fun k _ =>
        looks_bind (looks_scandir k) fun _ _ => looks_look _
  refine (confined_iff_shown rfl hlooks).trans ?_
  unfold Allowed
  constructor
  · intro h path hpath hdots d hd hinside
    have hself : LeadsToDir ws.tree d d := hd.self
    obtain ⟨entries, here, above, -, hlisting⟩ := scandir_dir server hself
    rw [if_pos hdots] at hlisting
    refine h _ (listFiles_ok.mpr ⟨path, d, _, hpath, hd.1, hinside, hlisting, rfl⟩) d.dropLast ?_
    exact mem_places.mpr ⟨("..", ⟨d.dropLast, above⟩), by simp, rfl⟩
  · intro h infos hinfos k hk
    obtain ⟨path, d, listing, hpath, hd, hinside, hlisting, rfl⟩ := listFiles_ok.mp hinfos
    obtain ⟨entry, hentry, rfl⟩ := mem_places.mp hk
    obtain ⟨d', hd'⟩ := scandir_ok hlisting
    -- a real path leads to itself
    obtain rfl : d' = d := by
      have hself := canonical_of_canonical (canonical_canonical rooted hd)
      exact Option.some.inj (hd'.1.symm.trans hself)
    obtain ⟨entries, here, above, hplaces, hlisted⟩ := scandir_dir server hd'
    obtain rfl := Except.ok.inj (hlisting.symm.trans hlisted)
    have hentries : ∀ entry ∈ entries, ws.Inside entry.2.place := fun entry hmem =>
      (hplaces entry hmem).2 ▸ inside_append hinside [entry.1]
    cases hdots : server.listsDots with
    | false =>
        rw [hdots] at hentry
        exact hentries entry hentry
    | true =>
        rw [hdots, if_pos rfl, List.mem_cons, List.mem_cons] at hentry
        rcases hentry with rfl | rfl | hmem
        · exact hinside
        · exact h path hpath hdots d' ⟨hd, hd'.2⟩ hinside
        · exact hentries entry hmem

/-! ### Commands -/

theorem stays_runCommand {command : Action Problem α Bytes Unit} {otherwise : String} :
    Stays ws.Inside (runCommand server command otherwise) t ↔ Stays ws.Inside command t := by
  unfold runCommand
  rw [stays_handle]
  exact and_iff_left fun error _ => stays_raise _

/-- What a command does with paths that were checked. -/
theorem stays_checked (hroot : LeadsToDir t ws.root ws.place) {paths : List (List String)}
    {command : Action Problem α Bytes Unit} {otherwise : String} :
    Stays ws.Inside (do
        let _ ← realExistingPaths ws.root paths
        runCommand server command otherwise) t ↔
      ((∀ path ∈ paths, ws.Checked t path) → Stays ws.Inside command t) := by
  rw [stays_bind_of_looks (looks_realExistingPaths paths), ← realExistingPaths_ok hroot paths]
  constructor
  · rintro h ⟨ks, hks⟩
    exact stays_runCommand.mp (h ks hks)
  · exact fun h ks hks => stays_runCommand.mpr (h ⟨ks, hks⟩)

/-- `delete_files` is confined if each entry that `rm` takes away is inside. -/
theorem confined_deleteFiles {rawPaths : List String} :
    ws.Confined server (.deleteFiles rawPaths) ↔ ws.Allowed server (.deleteFiles rawPaths) := by
  refine (confined_iff_stays (a := deleteFiles server ws.root rawPaths) rfl fun _ => rfl).trans ?_
  unfold deleteFiles Allowed
  rw [stays_bind_of_looks (looks_toPaths rawPaths)]
  simp only [toPaths_ok]
  refine forall_congr' fun paths => imp_congr_right fun _ => ?_
  split
  · rename_i hmem
    exact iff_of_true (stays_raise _) fun hnot => absurd (List.contains_iff_mem.mp hmem) hnot
  · rename_i hcontains
    have hnot : ws.root ∉ paths := fun hmem => hcontains (List.contains_iff_mem.mpr hmem)
    rw [stays_checked ws.leads, stays_forOperands (fun t path => stays_rm)]
    exact ⟨fun h _ => h, fun h => h hnot⟩

/-- A command that puts its operands into a directory. -/
theorem stays_runFileCommand
    {operation : List String → List String → Action Problem α Bytes Unit}
    {good : List String → FileTree α Bytes → List String → Prop}
    (hgood : ∀ target t path, Stays ws.Inside (operation target path) t ↔ good target t path)
    {sources : List String} {destination : String} :
    Stays ws.Inside (runFileCommand server ws.root operation sources destination) ws.tree ↔
      ws.CommandInside server operation good sources destination := by
  unfold runFileCommand CommandInside
  rw [stays_bind_of_looks (looks_toPath destination)]
  simp only [toPath_ok]
  refine forall_congr' fun target => imp_congr_right fun htarget => ?_
  have hproper := pathOf_proper htarget
  have hparent : ∀ name ∈ (target ++ [".zj-target-check"]).dropLast, Proper name := by
    rw [List.dropLast_concat]
    exact hproper
  have htree := ensureParentWithin_tree server ws.leads (target ++ [".zj-target-check"])
  have hok := ensureParentWithin_ok server ws.leads hparent
  rw [List.dropLast_concat] at htree hok
  rw [stays_bind, stays_ensureParentWithin ws.leads hparent, List.dropLast_concat, htree]
  refine and_congr_right fun _ => ?_
  have hrest : ∀ d, LeadsToDir (ws.made server target) target d →
      (Stays ws.Inside (do
          let sourcePaths ← toPaths ws.root sources
          let _ ← realExistingPaths ws.root sourcePaths
          runCommand server (do
            makedirs server.attrs.dir target
            intoDirectory operation target sourcePaths) "remote file operation failed")
        (ws.made server target) ↔
      ∀ paths, ws.pathsOf sources = some paths →
        (∀ path ∈ paths, ws.Checked (ws.made server target) path) →
          AtEachOperand (operation target) (good target) (ws.made server target) paths) := by
    intro d hd
    rw [stays_bind_of_looks (looks_toPaths sources)]
    simp only [toPaths_ok]
    refine forall_congr' fun paths => imp_congr_right fun _ => ?_
    have hroot : LeadsToDir (ws.made server target) ws.root ws.place :=
      root_makedirs server ws.leads hproper
    rw [stays_checked hroot]
    refine imp_congr_right fun _ => ?_
    have hthere : (makedirs server.attrs.dir target : Action Problem α Bytes Unit).run
        (ws.made server target) = ⟨.ok (), ws.made server target, []⟩ := makedirs_there hproper hd
    have hlooks : Looks (makedirs server.attrs.dir target : Action Problem α Bytes Unit)
        (ws.made server target) := ⟨by rw [hthere], by rw [hthere]⟩
    rw [stays_bind_of_looks hlooks, hthere]
    simp only [forall_const]
    unfold intoDirectory
    split
    · rename_i hempty
      rw [List.isEmpty_iff.mp hempty]
      exact iff_of_true (stays_fail _) trivial
    · exact stays_forOperands (fun t path => hgood target t path) paths
  constructor
  · intro h d hd hinside
    exact (hrest d hd).mp (h () (hok.mpr ⟨d, hd, hinside⟩))
  · intro h _ hresult
    obtain ⟨d, hd, hinside⟩ := hok.mp hresult
    exact (hrest d hd).mpr (h d hd hinside)

theorem confined_copyFiles {sources : List String} {destination : String} :
    ws.Confined server (.copyFiles sources destination) ↔
      ws.Allowed server (.copyFiles sources destination) := by
  refine (confined_iff_stays (a := copyFiles server ws.root sources destination) rfl
    fun _ => rfl).trans ?_
  exact stays_runFileCommand fun target t path => stays_cpInto

theorem confined_moveFiles {sources : List String} {destination : String} :
    ws.Confined server (.moveFiles sources destination) ↔
      ws.Allowed server (.moveFiles sources destination) := by
  refine (confined_iff_stays (a := moveFiles server ws.root sources destination) rfl
    fun _ => rfl).trans ?_
  exact stays_runFileCommand fun target t path => stays_mvInto

/-! ### Downloads -/

theorem looks_appendEach {append : List String → Action Problem α Bytes (List Content)}
    (happend : ∀ path, Looks (append path) t) (path : List String)
    (entries : List (String × Found α Bytes)) : Looks (appendEach append path entries) t := by
  induction entries with
  | nil => exact looks_look _
  | cons entry rest ih =>
      exact looks_bind (happend _) fun first _ => looks_bind ih fun others _ => looks_look _

theorem looks_appendToZip (base : List String) (calls : Nat) (path : List String) :
    Looks (appendToZip server base calls path : Action Problem α Bytes (List Content)) t := by
  induction calls generalizing path with
  | zero => exact looks_look _
  | succ calls ih =>
      unfold appendToZip
      refine looks_bind (looks_look _) fun found _ => ?_
      split
      · exact looks_bind (looks_scandir path) fun entries _ => looks_appendEach ih path entries
      · split
        · exact looks_bind (looks_look _) fun content _ => looks_look _
        · exact looks_look _

/-- What is read entry after entry is inside if it is so for each. -/
theorem appendEach_inside {append : List String → Action Problem α Bytes (List Content)}
    (hlooks : ∀ path, Looks (append path) t) {path : List String}
    {entries : List (String × Found α Bytes)}
    (hinside : ∀ entry ∈ entries, ∀ contents,
      ((append (path ++ [entry.1])).run t).result = .ok contents →
        ∀ content ∈ contents, ws.Inside content.place) {contents : List Content}
    (h : ((appendEach append path entries).run t).result = .ok contents) :
    ∀ content ∈ contents, ws.Inside content.place := by
  induction entries generalizing contents with
  | nil =>
      obtain rfl := Except.ok.inj h
      intro content hcontent
      cases hcontent
  | cons entry rest ih =>
      unfold appendEach at h
      rw [bind_ok_of_looks (hlooks _)] at h
      obtain ⟨first, hfirst, h⟩ := h
      obtain ⟨others, hothers, rfl⟩ := bind_pure_ok.mp h
      intro content hcontent
      rcases List.mem_append.mp hcontent with hmem | hmem
      · exact hinside entry List.mem_cons_self first hfirst content hmem
      · exact ih (fun other hother => hinside other (List.mem_cons_of_mem _ hother)) hothers
          content hmem

/-- **A directory that lists itself is never read to its end.** -/
theorem appendToZip_dots (hdots : server.listsDots = true) (base : List String) (calls : Nat)
    {path : List String} {d : RealPath} (hd : LeadsToDir t path d)
    (hlocate : locate t path = some d) (contents : List Content) :
    ((appendToZip server base calls path : Action Problem α Bytes (List Content)).run
      t).result ≠ .ok contents := by
  induction calls generalizing path contents with
  | zero =>
      intro h
      cases h
  | succ calls ih =>
      intro h
      unfold appendToZip at h
      rw [bind_ok_of_looks (a := lstat path) (looks_look _)] at h
      obtain ⟨found, hfound, h⟩ := h
      obtain ⟨hplace, hobject⟩ := lstat_ok hfound
      obtain ⟨attrs, entries, hdir⟩ := hd.2
      rw [← Option.some.inj (hlocate.symm.trans hplace), hdir] at hobject
      have hisDir : (FileTree.dir attrs entries).isDir = true := rfl
      rw [← Option.some.inj hobject, if_pos hisDir, bind_ok_of_looks (looks_scandir path)] at h
      obtain ⟨listing, hlisting, h⟩ := h
      obtain ⟨listed, here, above, -, hlisted⟩ := scandir_dir server hd
      obtain rfl := Except.ok.inj (hlisting.symm.trans hlisted)
      rw [if_pos hdots, appendEach, bind_ok_of_looks (looks_appendToZip _ _ _)] at h
      obtain ⟨first, hfirst, -⟩ := h
      -- the first entry is the directory itself
      have hdot : LeadsToDir t (path ++ ["."]) d := hd.dots 1
      refine ih hdot ?_ first hfirst
      unfold locate
      rw [List.getLast?_concat]
      simp only [show ¬ Proper "." from by decide, if_false]
      exact hdot.resolve

/-- **An archive has only what stands at or below its paths.** -/
theorem appendToZip_inside (base : List String) (calls : Nat) {path : List String}
    (hinside : ws.Inside path) (hplaced : Placed t path) {contents : List Content}
    (h : ((appendToZip server base calls path : Action Problem α Bytes (List Content)).run
      t).result = .ok contents) : ∀ content ∈ contents, ws.Inside content.place := by
  induction calls generalizing path contents with
  | zero => cases h
  | succ calls ih =>
      have hall := h
      unfold appendToZip at h
      rw [bind_ok_of_looks (a := lstat path) (looks_look _)] at h
      obtain ⟨found, hfound, h⟩ := h
      obtain ⟨hplace, hobject⟩ := lstat_ok hfound
      obtain rfl : path = found.place := Option.some.inj (hplaced.locate.symm.trans hplace)
      split at h
      · rename_i hdir
        have hdirAt : t.DirAt found.place := by
          cases hobj : found.object with
          | dir attrs entries => exact ⟨attrs, entries, hobj ▸ hobject⟩
          | file attrs content => rw [hobj] at hdir; cases hdir
          | link attrs target => rw [hobj] at hdir; cases hdir
        have hleads := hplaced.leadsToDir hdirAt
        cases hdots : server.listsDots with
        | true => exact absurd hall (appendToZip_dots hdots base _ hleads hplaced.locate contents)
        | false =>
            rw [bind_ok_of_looks (looks_scandir _)] at h
            obtain ⟨listing, hlisting, h⟩ := h
            obtain ⟨entries, here, above, hentries, hlisted⟩ := scandir_dir server hleads
            obtain rfl := Except.ok.inj (hlisting.symm.trans hlisted)
            rw [hdots] at h
            refine appendEach_inside (fun _ => looks_appendToZip _ _ _) ?_ h
            intro entry hentry others hothers
            exact ih (inside_append hinside [entry.1])
              (.inr ⟨_, entry.1, rfl, (hentries entry hentry).1, hleads⟩) hothers
      · split at h
        · rename_i hfile
          obtain ⟨content, hcontent, rfl⟩ := bind_pure_ok.mp h
          intro c hc
          obtain rfl := List.mem_singleton.mp hc
          have hread := read_ok hcontent
          cases hobj : found.object with
          | dir attrs entries => rw [hobj] at hfile; cases hfile
          | link attrs target => rw [hobj] at hfile; cases hfile
          | file attrs bytes =>
              rw [hobj] at hobject
              rw [hplaced.resolve hobject] at hread
              rw [← Option.some.inj hread]
              exact hinside
        · obtain rfl := Except.ok.inj h
          intro content hcontent
          cases hcontent

theorem looks_zipEach (paths : List (List String)) :
    Looks (zipEach server paths : Action Problem α Bytes (List Content)) t := by
  induction paths with
  | nil => exact looks_look _
  | cons path rest ih =>
      exact looks_bind (looks_appendToZip _ _ _) fun first _ =>
        looks_bind ih fun others _ => looks_look _

theorem zipEach_inside {paths : List (List String)}
    (hpaths : ∀ path ∈ paths, ws.Inside path ∧ Placed t path) {contents : List Content}
    (h : ((zipEach server paths : Action Problem α Bytes (List Content)).run t).result =
      .ok contents) : ∀ content ∈ contents, ws.Inside content.place := by
  induction paths generalizing contents with
  | nil =>
      obtain rfl := Except.ok.inj h
      intro content hcontent
      cases hcontent
  | cons path rest ih =>
      unfold zipEach at h
      rw [bind_ok_of_looks (looks_appendToZip _ _ _)] at h
      obtain ⟨first, hfirst, h⟩ := h
      obtain ⟨others, hothers, rfl⟩ := bind_pure_ok.mp h
      obtain ⟨hinside, hplaced⟩ := hpaths path List.mem_cons_self
      intro content hcontent
      rcases List.mem_append.mp hcontent with hmem | hmem
      · exact appendToZip_inside _ _ hinside hplaced hfirst content hmem
      · exact ih (fun other hother => hpaths other (List.mem_cons_of_mem _ hother)) hothers
          content hmem

theorem looks_singleFile (paths : List RealPath) :
    Looks (singleFile paths : Action Problem α Bytes (Option RealPath)) t := by
  unfold singleFile
  split
  · exact looks_bind (looks_look _) fun _ _ => looks_look _
  · exact looks_look _

/-- The single file of a download is one of its paths, and a file. -/
theorem singleFile_ok {paths : List RealPath} {path : RealPath}
    (h : ((singleFile paths : Action Problem α Bytes (Option RealPath)).run t).result =
      .ok (some path)) (hplaced : ∀ k ∈ paths, Placed t k) :
    path ∈ paths ∧ ∃ attrs content, t.get? path = some (.file attrs content) := by
  unfold singleFile at h
  split at h
  · rename_i only
    obtain ⟨found, hfound, heq⟩ := bind_pure_ok.mp h
    obtain ⟨hplace, hobject⟩ := lstat_ok hfound
    rw [(hplaced only List.mem_cons_self).locate] at hplace
    split at heq
    · rename_i hfile
      obtain rfl := Option.some.inj heq
      refine ⟨List.mem_cons_self, ?_⟩
      rw [← Option.some.inj hplace] at hobject
      cases hobj : found.object with
      | file attrs content => exact ⟨attrs, content, hobj ▸ hobject⟩
      | dir attrs entries => rw [hobj] at hfile; cases hfile
      | link attrs target => rw [hobj] at hfile; cases hfile
    · cases heq
  · exact absurd (Except.ok.inj h) (by simp)

/-- **`download_paths` is confined for every tree.** -/
theorem confined_downloadPaths {rawPaths : List String} :
    ws.Confined server (.downloadPaths rawPaths) := by
  have hlooks : Looks (downloadPaths server ws.root rawPaths : Action Problem α Bytes Download)
      ws.tree := by
    refine looks_bind (looks_toPaths rawPaths) fun paths _ =>
      looks_bind (looks_realExistingPaths paths) fun ks _ =>
        looks_bind (looks_singleFile ks) fun single _ => ?_
    cases single with
    | some path => exact looks_bind (looks_look _) fun _ _ => looks_look _
    | none => exact looks_bind (looks_zipEach ks) fun _ _ => looks_look _
  refine (confined_iff_shown rfl hlooks).mpr ?_
  intro download hdownload k hk
  unfold downloadPaths at hdownload
  rw [bind_ok_of_looks (looks_toPaths rawPaths)] at hdownload
  obtain ⟨paths, -, h⟩ := hdownload
  rw [bind_ok_of_looks (looks_realExistingPaths paths)] at h
  obtain ⟨ks, hks, h⟩ := h
  have hreal := realExistingPaths_mem ws.leads hks
  have hplaced : ∀ k ∈ ks, Placed ws.tree k := by
    intro k hk
    obtain ⟨path, hcanonical, -⟩ := hreal k hk
    exact (canonical_canonical rooted hcanonical).placed
  have hinside : ∀ k ∈ ks, ws.Inside k := fun k hk => (hreal k hk).choose_spec.2
  rw [bind_ok_of_looks (looks_singleFile ks)] at h
  obtain ⟨single, hsingle, h⟩ := h
  cases single with
  | some path =>
      obtain ⟨content, hcontent, rfl⟩ := bind_pure_ok.mp h
      obtain rfl := List.mem_singleton.mp hk
      obtain ⟨hmem, attrs, bytes, hfile⟩ := singleFile_ok hsingle hplaced
      have hread := read_ok hcontent
      rw [(hplaced path hmem).resolve hfile] at hread
      rw [← Option.some.inj hread]
      exact hinside path hmem
  | none =>
      obtain ⟨contents, hcontents, rfl⟩ := bind_pure_ok.mp h
      obtain ⟨content, hcontent, rfl⟩ := List.mem_map.mp hk
      exact zipEach_inside (fun k hk => ⟨hinside k hk, hplaced k hk⟩) hcontents content hcontent

end Paths

end Workspace

end Workbench.RemoteFiles
