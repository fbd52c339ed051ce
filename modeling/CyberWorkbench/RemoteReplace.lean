import CyberWorkbench.LostConnection

/-!
# Replacing a file over SFTP

`service/sandbox/remote_files._replace_file_atomic`: the old file is renamed to
a backup, the new one is written under a temporary name and renamed to the
target; after an error the backup is renamed back.

The rename that puts the backup back needs the connection that is lost, so
between the two renames a lost connection leaves no file at the target
(`replaceFileAtomic_atomic_iff`).  A target that was missing, a link or a
directory is never harmed.

The names from the clock and from `uuid4` are parameters, and so are the
attributes of new files and directories.
-/

namespace Workbench.RemoteReplace

open FileTree FileTree.Remote
open FileTree.Action hiding run_bind_ok

abbrev Bytes := List UInt8

/-- What the functions raise themselves. -/
inductive FileProblem where
  | permissionError (text : String)
  | isADirectoryError (path : List String)
  deriving DecidableEq, Repr

/-- Attributes that the server gives to what is made. -/
structure NewAttrs (α : Type) where
  dir : α
  file : α

/-! ### The functions -/

section Functions

variable {α : Type} (attrs : NewAttrs α)

/-- `posixpath.join(root, ".zj-backups")` -/
def backupDir (root : List String) : List String := root ++ [".zj-backups"]

/-- `f"{timestamp}-{uuid4().hex[:8]}-{basename}"`, for the first two as one stamp. -/
def backupName (stamp name : String) : String := stamp ++ "-" ++ name

/-- `f".zj-upload-{uuid4().hex}.tmp"` -/
def tempName (uuid : String) : String := ".zj-upload-" ++ uuid ++ ".tmp"

/-- `sftp.makedirs(path, exist_ok=True)` -/
def sftpMakedirs (path : List String) : Remote FileProblem α Bytes Unit :=
  request (makedirs attrs.dir path) fun part => makedirs attrs.dir (path.take part)

/-- `stream.write(data)` -/
def sftpWrite (path : List String) (data : Bytes) : Remote FileProblem α Bytes Unit :=
  request (write attrs.file path data) fun part => write attrs.file path (data.take part)

/-- `_backup_existing_file`. -/
def backupExistingFile (root target : List String) (stamp : String) :
    Remote FileProblem α Bytes (Option (List String)) := do
  let found ← ((do
      let found ← whole (lstat target)
      pure (some found)) : Remote FileProblem α Bytes (Option (Found α Bytes))).orElse fun error =>
    match error with
    | .server .noSuchFile => pure none
    | error => throw error
  match found with
  | none => pure none
  | some found =>
      if found.object.isLink then
        throw (.server (.raised (.permissionError "refusing to overwrite a symbolic link")))
      else if !found.object.isFile then throw (.server (.raised (.isADirectoryError target)))
      else do
        sftpMakedirs attrs (backupDir root)
        let backup := backupDir root ++ [backupName stamp (target.getLastD "")]
        whole (rename target backup)
        pure (some backup)

/-- `except asyncssh.SFTPNoSuchFile: pass` -/
def ignoringMissing (a : Remote FileProblem α Bytes Unit) : Remote FileProblem α Bytes Unit :=
  a.orElse fun error =>
    match error with
    | .server .noSuchFile => pure ()
    | error => throw error

/-- What `_write_bytes_atomic` tries: write the temporary file, and rename it. -/
def writeAndRename (tempPath target : List String) (data : Bytes) :
    Remote FileProblem α Bytes Unit := do
  whole (write attrs.file tempPath [])
  (sftpWrite attrs tempPath data).ensuring (whole (pure ()))
  whole (rename tempPath target)

/-- `_write_bytes_atomic`. -/
def writeBytesAtomic (target : List String) (uuid : String) (data : Bytes) :
    Remote FileProblem α Bytes Unit := do
  let directory := target.dropLast
  sftpMakedirs attrs directory
  let tempPath := directory ++ [tempName uuid]
  (writeAndRename attrs tempPath target data).ensuring (ignoringMissing (whole (remove tempPath)))

/-- `_replace_file_atomic`. -/
def replaceFileAtomic (root target : List String) (stamp uuid : String) (data : Bytes) :
    Remote FileProblem α Bytes (Option (List String)) := do
  let backup ← backupExistingFile attrs root target stamp
  (writeBytesAtomic attrs target uuid data).orElse fun error => do
    match backup with
    | some backup => (whole (rename backup target)).orElse fun _ => pure ()
    | none => pure ()
    throw error
  pure backup

end Functions

/-! ### A replacement -/

/-- A file to be replaced.  The paths are normalised, and the name of the
temporary file is one that nothing has. -/
structure Replacement (α : Type) where
  tree : FileTree α Bytes
  root : List String
  directory : List String
  name : String
  stamp : String
  uuid : String
  data : Bytes
  rooted : tree.DirAt []
  rootProper : ∀ other ∈ root, Proper other
  directoryProper : ∀ other ∈ directory, Proper other
  nameProper : Proper name
  unused : ∀ k, tree.get? (k ++ [tempName uuid]) = none
  unlike : tempName uuid ∉ name :: backupName stamp name :: root

namespace Replacement

variable {α : Type} (attrs : NewAttrs α) (r : Replacement α)

def target : List String := r.directory ++ [r.name]

def tempPath : List String := r.directory ++ [tempName r.uuid]

def backup : List String := backupDir r.root ++ [backupName r.stamp r.name]

/-- The tree after the replacement, where the connection carries `after`
operations out and a part of the next one. -/
def result (after part : Nat) : FileTree α Bytes :=
  ((replaceFileAtomic attrs r.root r.target r.stamp r.uuid r.data).run
    ⟨r.tree, some after, part⟩).2.tree

/-- **Atomic.**  The target is as it was, or it is the new file. -/
def Atomic (t : FileTree α Bytes) : Prop :=
  objectAt t r.target = objectAt r.tree r.target ∨
    ∃ attrs, objectAt t r.target = some (.file attrs r.data)

/-- The server can move the old file to the backup. -/
def CanBackUp : Prop :=
  ((makedirs attrs.dir (backupDir r.root) : Action FileProblem α Bytes Unit).run r.tree).result =
      .ok () ∧
    objectAt ((makedirs attrs.dir (backupDir r.root) :
      Action FileProblem α Bytes Unit).run r.tree).tree r.backup = none

/-- The old file is at its backup, and the new one not at the target yet, when
the connection is lost: after the third operation and before the eighth. -/
def Exposed (after : Nat) : Prop :=
  (∃ fileAttrs content, objectAt r.tree r.target = some (.file fileAttrs content)) ∧
    r.CanBackUp attrs ∧ 3 ≤ after ∧ after ≤ 7

/-! ### Names -/

theorem proper_of_mem {text : String} {c : Char} (h : c ∈ text.toList) (hc : c ≠ '.') :
    Proper text := by
  refine ⟨?_, ?_, ?_⟩
  · rintro rfl
    cases h
  · rintro rfl
    exact hc (List.mem_singleton.mp h)
  · rintro rfl
    have hdots : c ∈ ['.', '.'] := h
    simp [hc] at hdots

theorem tempName_proper (uuid : String) : Proper (tempName uuid) := by
  refine proper_of_mem (c := '-') ?_ (by decide)
  unfold tempName
  rw [String.toList_append, String.toList_append]
  exact List.mem_append_left _ (List.mem_append_left _ (by decide))

theorem backupName_proper (stamp name : String) : Proper (backupName stamp name) := by
  refine proper_of_mem (c := '-') ?_ (by decide)
  unfold backupName
  rw [String.toList_append, String.toList_append]
  exact List.mem_append_left _ (List.mem_append_right _ (by decide))

theorem tempName_ne_backups (uuid : String) : tempName uuid ≠ ".zj-backups" := by
  intro h
  have hlist := congrArg String.toList h
  unfold tempName at hlist
  rw [String.toList_append, String.toList_append, List.append_assoc] at hlist
  have hfront := congrArg (List.take 5) hlist
  have hupload : ".zj-upload-".toList = ".zj-u".toList ++ "pload-".toList := by decide
  rw [hupload, List.append_assoc, List.take_left' (by decide)] at hfront
  revert hfront
  decide

/-! ### Writing the temporary file -/

section Temporary

variable {t : FileTree α Bytes} {d : RealPath}

/-- The directory of the target, with no target and no temporary file in it. -/
structure Vacant (t : FileTree α Bytes) (d : RealPath) : Prop where
  leads : LeadsToDir t r.directory d
  target : t.get? (d ++ [r.name]) = none
  temp : t.get? (d ++ [tempName r.uuid]) = none

theorem name_ne_temp : tempName r.uuid ≠ r.name := fun h => r.unlike (h ▸ List.mem_cons_self)

theorem not_below {first second : String} (h : first ≠ second) (d : RealPath) :
    ¬ d ++ [first] <+: d ++ [second] := by
  rw [List.prefix_append_right_inj]
  intro hbelow
  exact h (List.cons_prefix_cons.mp hbelow).1

/-- The temporary file with its content, and no target yet. -/
structure Holding (t : FileTree α Bytes) (d : RealPath) (content : Bytes) : Prop where
  leads : LeadsToDir t r.directory d
  target : t.get? (d ++ [r.name]) = none
  temp : ∃ fileAttrs, t.get? (d ++ [tempName r.uuid]) = some (.file fileAttrs content)

theorem Vacant.absent {r : Replacement α} (h : r.Vacant t d) : objectAt t r.target = none := by
  unfold Replacement.target
  rw [objectAt_concat r.nameProper h.leads]
  exact h.target

theorem Holding.absent {r : Replacement α} {content : Bytes} (h : r.Holding t d content) :
    objectAt t r.target = none := by
  unfold Replacement.target
  rw [objectAt_concat r.nameProper h.leads]
  exact h.target

/-- Writing the temporary file, whether it is there or not. -/
theorem holding_update (hleads : LeadsToDir t r.directory d) (htarget : t.get? (d ++ [r.name]) = none)
    (hfile : ∀ y, t.get? (d ++ [tempName r.uuid]) = some y → y.isFile = true) (fileAttrs : α)
    (content : Bytes) :
    r.Holding (t.update (d ++ [tempName r.uuid]) (some (.file fileAttrs content))) d content := by
  refine ⟨hleads.keeps (keepsPaths_update _ hfile), ?_, fileAttrs, get?_update _ hleads.2 []⟩
  have hlabel := label_update (t := t) (some (.file fileAttrs content)) (not_below r.name_ne_temp d)
  rw [htarget] at hlabel
  exact Option.map_eq_none_iff.mp hlabel

theorem open_run (h : r.Vacant t d) (content : Bytes) : ∃ t',
    (write attrs.file r.tempPath content : Action FileProblem α Bytes Unit).run t =
      ⟨.ok (), t', [d ++ [tempName r.uuid]]⟩ ∧ r.Holding t' d content := by
  have hcanonical : canonical t r.tempPath = some (d ++ [tempName r.uuid]) :=
    canonical_concat h.leads.1 h.leads.2 (tempName_proper r.uuid)
      fun _ _ hlink => by rw [h.temp] at hlink; cases hlink
  exact ⟨_, write_new hcanonical h.temp,
    r.holding_update h.leads h.target (fun y hy => by rw [h.temp] at hy; cases hy) _ _⟩

theorem write_run {content : Bytes} (h : r.Holding t d content) (content' : Bytes) : ∃ t',
    (write attrs.file r.tempPath content' : Action FileProblem α Bytes Unit).run t =
      ⟨.ok (), t', [d ++ [tempName r.uuid]]⟩ ∧ r.Holding t' d content' := by
  obtain ⟨fileAttrs, htemp⟩ := h.temp
  have hcanonical : canonical t r.tempPath = some (d ++ [tempName r.uuid]) :=
    canonical_concat h.leads.1 h.leads.2 (tempName_proper r.uuid)
      fun _ _ hlink => by rw [htemp] at hlink; cases hlink
  exact ⟨_, write_file hcanonical htemp,
    r.holding_update h.leads h.target (fun y hy => by rw [htemp] at hy; cases hy; rfl) _ _⟩

/-- The rename to the target: the new file is there, and nothing at the
temporary name. -/
theorem rename_temp {content : Bytes} (h : r.Holding t d content) : ∃ t' fileAttrs,
    ((rename r.tempPath r.target : Action FileProblem α Bytes Unit).run t).result = .ok () ∧
      ((rename r.tempPath r.target : Action FileProblem α Bytes Unit).run t).tree = t' ∧
      objectAt t' r.target = some (.file fileAttrs content) ∧ objectAt t' r.tempPath = none := by
  obtain ⟨fileAttrs, htemp⟩ := h.temp
  have hlocate : locate t r.tempPath = some (d ++ [tempName r.uuid]) :=
    (locate_concat (tempName_proper r.uuid)).mpr ⟨d, h.leads, rfl⟩
  have hlocate' : locate t r.target = some (d ++ [r.name]) :=
    (locate_concat r.nameProper).mpr ⟨d, h.leads, rfl⟩
  have hrun := rename_run (ε := FileProblem) hlocate hlocate' htemp (not_below r.name_ne_temp d)
    h.target
  have hremoved : KeepsPaths t (t.update (d ++ [tempName r.uuid]) none) :=
    keepsPaths_update _ fun y hy => by rw [htemp] at hy; cases hy; rfl
  have hfree : (t.update (d ++ [tempName r.uuid]) none).get? (d ++ [r.name]) = none := by
    have hlabel := label_update (t := t) none (not_below r.name_ne_temp d)
    rw [h.target] at hlabel
    exact Option.map_eq_none_iff.mp hlabel
  have hkeeps := hremoved.trans (keepsPaths_update (some (.file fileAttrs content))
    fun y hy => by rw [hfree] at hy; cases hy)
  have hleads := h.leads.keeps hkeeps
  refine ⟨_, fileAttrs, by rw [hrun], by rw [hrun], ?_, ?_⟩
  · unfold Replacement.target
    rw [objectAt_concat r.nameProper hleads]
    exact get?_update _ (hremoved.dirAt h.leads.2) []
  · unfold tempPath
    rw [objectAt_concat (tempName_proper r.uuid) hleads]
    have hlabel := label_update (t := t.update (d ++ [tempName r.uuid]) none)
      (some (.file fileAttrs content)) (not_below r.name_ne_temp.symm d)
    rw [get?_update _ h.leads.2 []] at hlabel
    exact Option.map_eq_none_iff.mp hlabel

theorem close_run (t : FileTree α Bytes) (left part : Nat) :
    (whole (pure ()) : Remote FileProblem α Bytes Unit).run ⟨t, some (left + 1), part⟩ =
      (.ok (), ⟨t, some left, part⟩) := rfl

theorem remove_lost (t : FileTree α Bytes) (part : Nat) (path : List String) :
    (ignoringMissing (whole (remove path))).run ⟨t, none, part⟩ =
      (.error .connectionLost, ⟨t, none, part⟩) := by
  unfold ignoringMissing
  rw [run_orElse_error whole_lost]
  rfl

theorem remove_cut (t : FileTree α Bytes) (part : Nat) (path : List String) :
    (ignoringMissing (whole (remove path))).run ⟨t, some 0, part⟩ =
      (.error .connectionLost, ⟨t, none, part⟩) := by
  unfold ignoringMissing
  rw [run_orElse_error whole_cut]
  rfl

theorem remove_missing {path : List String} (h : objectAt t path = none) (left part : Nat) :
    (ignoringMissing (whole (remove path))).run ⟨t, some (left + 1), part⟩ =
      (.ok (), ⟨t, some left, part⟩) := by
  have hrun := remove_none (ε := FileProblem) h
  have hrefused : (whole (remove path) : Remote FileProblem α Bytes Unit).run
      ⟨t, some (left + 1), part⟩ = (.error (.server .noSuchFile), ⟨t, some left, part⟩) :=
    request_refused (congrArg Ended.result hrun) (congrArg Ended.tree hrun)
  unfold ignoringMissing
  rw [run_orElse_error hrefused]
  rfl

/-- **The second rename is the point of no return**: a connection lost before
it leaves no target. -/
theorem writeAndRename_lost (h : r.Vacant t d) {left : Nat} (hleft : left ≤ 3) (part : Nat) : ∃ t',
    (writeAndRename attrs r.tempPath r.target r.data).run ⟨t, some left, part⟩ =
      (.error .connectionLost, ⟨t', none, part⟩) ∧ objectAt t' r.target = none := by
  obtain ⟨t₁, hopen, h₁⟩ := r.open_run attrs h []
  obtain ⟨t₂, hwrite, h₂⟩ := r.write_run attrs h₁ r.data
  obtain ⟨t₂', hpart, h₂'⟩ := r.write_run attrs h₁ (r.data.take part)
  have hopened : ∀ left, (whole (write attrs.file r.tempPath []) : Remote FileProblem α Bytes Unit).run
      ⟨t, some (left + 1), part⟩ = (.ok (), ⟨t₁, some left, part⟩) := fun left =>
    request_ok (congrArg Ended.result hopen) (congrArg Ended.tree hopen)
  have hwritten : ∀ left, (sftpWrite attrs r.tempPath r.data).run ⟨t₁, some (left + 1), part⟩ =
      (.ok (), ⟨t₂, some left, part⟩) := fun left =>
    request_ok (congrArg Ended.result hwrite) (congrArg Ended.tree hwrite)
  unfold writeAndRename
  obtain rfl | rfl | rfl | rfl : left = 0 ∨ left = 1 ∨ left = 2 ∨ left = 3 := by omega
  · exact ⟨t, run_bind_error whole_cut, h.absent⟩
  · have hcut : (sftpWrite attrs r.tempPath r.data).run ⟨t₁, some 0, part⟩ =
          (.error .connectionLost, ⟨t₂', none, part⟩) := by
        unfold sftpWrite
        rw [request_cut, hpart]
    refine ⟨t₂', ?_, h₂'.absent⟩
    rw [run_bind_ok (hopened 0)]
    exact run_bind_error (run_ensuring_error hcut whole_lost)
  · refine ⟨t₂, ?_, h₂.absent⟩
    rw [run_bind_ok (hopened 1)]
    exact run_bind_error (run_ensuring_error (hwritten 0) whole_cut)
  · refine ⟨t₂, ?_, h₂.absent⟩
    rw [run_bind_ok (hopened 2), run_bind_ok (run_ensuring_ok (hwritten 1) (close_run t₂ 0 part))]
    exact whole_cut

/-- With the second rename carried out, the target is the new file. -/
theorem writeAndRename_done (h : r.Vacant t d) (left part : Nat) : ∃ t' fileAttrs,
    (writeAndRename attrs r.tempPath r.target r.data).run ⟨t, some (left + 4), part⟩ =
      (.ok (), ⟨t', some left, part⟩) ∧ objectAt t' r.target = some (.file fileAttrs r.data) ∧
      objectAt t' r.tempPath = none := by
  obtain ⟨t₁, hopen, h₁⟩ := r.open_run attrs h []
  obtain ⟨t₂, hwrite, h₂⟩ := r.write_run attrs h₁ r.data
  obtain ⟨t₃, fileAttrs, hrename, htree, htarget, htemp⟩ := r.rename_temp h₂
  have hopened : (whole (write attrs.file r.tempPath []) : Remote FileProblem α Bytes Unit).run
      ⟨t, some (left + 4), part⟩ = (.ok (), ⟨t₁, some (left + 3), part⟩) :=
    request_ok (congrArg Ended.result hopen) (congrArg Ended.tree hopen)
  have hwritten : (sftpWrite attrs r.tempPath r.data).run ⟨t₁, some (left + 3), part⟩ =
      (.ok (), ⟨t₂, some (left + 2), part⟩) :=
    request_ok (congrArg Ended.result hwrite) (congrArg Ended.tree hwrite)
  refine ⟨t₃, fileAttrs, ?_, htarget, htemp⟩
  unfold writeAndRename
  rw [run_bind_ok hopened, run_bind_ok (run_ensuring_ok hwritten (close_run t₂ (left + 1) part))]
  exact request_ok hrename htree

/-- The directory of the target is there: making it changes nothing. -/
theorem makedirs_part (hleads : LeadsToDir t r.directory d) (part : Nat) :
    (makedirs attrs.dir (r.directory.take part) : Action FileProblem α Bytes Unit).run t =
      ⟨.ok (), t, []⟩ := by
  have hwhole : LeadsToDir t (r.directory.take part ++ r.directory.drop part) d := by
    rw [List.take_append_drop]
    exact hleads
  obtain ⟨d', hd'⟩ := hwhole.front
  exact makedirsFrom_there (fun other hmem => r.directoryProper other (List.mem_of_mem_take hmem)) hd'

theorem makedirs_ok (hleads : LeadsToDir t r.directory d) (left part : Nat) :
    (sftpMakedirs attrs r.directory).run ⟨t, some (left + 1), part⟩ =
      (.ok (), ⟨t, some left, part⟩) := by
  have hrun := r.makedirs_part attrs hleads r.directory.length
  rw [List.take_length] at hrun
  exact request_ok (congrArg Ended.result hrun) (congrArg Ended.tree hrun)

/-- The target after `_write_bytes_atomic`, whose first operation makes the
directory. -/
theorem writeBytesAtomic_lost (h : r.Vacant t d) {left : Nat} (hleft : left ≤ 4) (part : Nat) :
    ∃ t', (writeBytesAtomic attrs r.target r.uuid r.data).run ⟨t, some left, part⟩ =
      (.error .connectionLost, ⟨t', none, part⟩) ∧ objectAt t' r.target = none := by
  have hdirectory : r.target.dropLast = r.directory := List.dropLast_concat
  unfold writeBytesAtomic
  simp only [hdirectory]
  cases left with
  | zero =>
      refine ⟨t, run_bind_error ?_, h.absent⟩
      unfold sftpMakedirs
      rw [request_cut, r.makedirs_part attrs h.leads]
  | succ left =>
      obtain ⟨t', hrun, habsent⟩ := r.writeAndRename_lost attrs h (Nat.le_of_succ_le_succ hleft) part
      refine ⟨t', ?_, habsent⟩
      rw [run_bind_ok (r.makedirs_ok attrs h.leads left part)]
      exact run_ensuring_error hrun (remove_lost t' part _)

theorem writeBytesAtomic_done (h : r.Vacant t d) (left part : Nat) : ∃ result t' link fileAttrs,
    (writeBytesAtomic attrs r.target r.uuid r.data).run ⟨t, some (left + 5), part⟩ =
      (result, ⟨t', link, part⟩) ∧ objectAt t' r.target = some (.file fileAttrs r.data) ∧
      (result = .ok () ∨ ∃ error, result = .error error ∧ link = none) := by
  have hdirectory : r.target.dropLast = r.directory := List.dropLast_concat
  obtain ⟨t', fileAttrs, hrun, hpresent, htemp⟩ := r.writeAndRename_done attrs h left part
  unfold writeBytesAtomic
  simp only [hdirectory]
  rw [run_bind_ok (r.makedirs_ok attrs h.leads (left + 4) part)]
  cases left with
  | zero =>
      exact ⟨_, t', none, fileAttrs, run_ensuring_error hrun (remove_cut t' part _), hpresent,
        .inr ⟨_, rfl, rfl⟩⟩
  | succ left =>
      exact ⟨_, t', some left, fileAttrs, run_ensuring_ok hrun (remove_missing htemp left part),
        hpresent, .inl rfl⟩

end Temporary

/-! ### A target that is missing -/

section Missing

variable {t : FileTree α Bytes}

/-- The target is missing, or it is the new file. -/
def MissingOrNew (t : FileTree α Bytes) : Prop :=
  objectAt t r.target = none ∨ ∃ fileAttrs, objectAt t r.target = some (.file fileAttrs r.data)

/-- Nothing has the name of the temporary file. -/
theorem tempPath_missing : objectAt r.tree r.tempPath = none := by
  rw [Option.eq_none_iff_forall_not_mem]
  intro x hx
  obtain ⟨d, -, hget⟩ := (objectAt_concat_eq_some (tempName_proper r.uuid)).mp hx
  rw [r.unused d] at hget
  cases hget

theorem writeBytesAtomic_missing (h : objectAt r.tree r.target = none) (left : Option Nat)
    (part : Nat) : ∃ result s,
    (writeBytesAtomic attrs r.target r.uuid r.data).run ⟨r.tree, left, part⟩ = (result, s) ∧
      r.MissingOrNew s.tree := by
  have hdirectory : r.target.dropLast = r.directory := List.dropLast_concat
  unfold writeBytesAtomic
  simp only [hdirectory]
  cases left with
  | none => exact ⟨_, _, run_bind_error request_lost, .inl h⟩
  | some left =>
      cases left with
      | zero =>
          refine ⟨_, _, run_bind_error request_cut, .inl ?_⟩
          have hsplit : r.target = r.directory.take part ++ r.directory.drop part ++ [r.name] := by
            rw [List.take_append_drop]
            rfl
          rw [hsplit] at h ⊢
          exact objectAt_makedirs r.rooted
            (fun other hmem => r.directoryProper other (List.mem_of_mem_take hmem))
            (fun other hmem => r.directoryProper other (List.mem_of_mem_drop hmem)) r.nameProper h
      | succ left =>
          have habsent : ∀ name, Proper name → objectAt r.tree (r.directory ++ [name]) = none →
              objectAt ((makedirs attrs.dir r.directory : Action FileProblem α Bytes Unit).run
                r.tree).tree (r.directory ++ [name]) = none := by
            intro name hname hnone
            rw [← List.append_nil r.directory] at hnone
            have hmade : objectAt ((makedirs attrs.dir r.directory : Action FileProblem α Bytes
                Unit).run r.tree).tree (r.directory ++ [] ++ [name]) = none :=
              objectAt_makedirs r.rooted r.directoryProper (fun _ hmem => by cases hmem) hname hnone
            rwa [List.append_nil] at hmade
          unfold sftpMakedirs
          cases hresult : ((makedirs attrs.dir r.directory : Action FileProblem α Bytes Unit).run
              r.tree).result with
          | error error =>
              exact ⟨_, _, run_bind_error (request_refused hresult rfl), .inl (habsent _ r.nameProper h)⟩
          | ok made =>
              obtain ⟨d, hd⟩ := (makedirs_ok_iff r.rooted r.directoryProper).mp hresult
              have hvacant : r.Vacant ((makedirs attrs.dir r.directory :
                  Action FileProblem α Bytes Unit).run r.tree).tree d := by
                refine ⟨hd, ?_, ?_⟩
                · rw [← objectAt_concat r.nameProper hd]
                  exact habsent _ r.nameProper h
                · rw [← objectAt_concat (tempName_proper r.uuid) hd]
                  exact habsent _ (tempName_proper r.uuid) r.tempPath_missing
              rw [run_bind_ok (request_ok hresult rfl)]
              by_cases hleft : left ≤ 3
              · obtain ⟨t', hrun, hmissing⟩ := r.writeAndRename_lost attrs hvacant hleft part
                exact ⟨_, _, run_ensuring_error hrun (remove_lost t' part _), .inl hmissing⟩
              · obtain ⟨rest, rfl⟩ : ∃ rest, left = rest + 4 := ⟨left - 4, by omega⟩
                obtain ⟨t', fileAttrs, hrun, hpresent, htemp⟩ :=
                  r.writeAndRename_done attrs hvacant rest part
                cases rest with
                | zero =>
                    exact ⟨_, _, run_ensuring_error hrun (remove_cut t' part _), .inr ⟨_, hpresent⟩⟩
                | succ rest =>
                    exact ⟨_, _, run_ensuring_ok hrun (remove_missing htemp rest part),
                      .inr ⟨_, hpresent⟩⟩

end Missing

/-! ### A target that is a file -/

section Existing

variable {d : RealPath} {oldAttrs : α} {content : Bytes}

theorem backupDir_proper : ∀ other ∈ backupDir r.root, Proper other := by
  intro other hmem
  rcases List.mem_append.mp hmem with hmem | hmem
  · exact r.rootProper other hmem
  · rw [List.mem_singleton.mp hmem]
    decide

theorem tempName_not_mem_backupDir : tempName r.uuid ∉ backupDir r.root := by
  intro hmem
  rcases List.mem_append.mp hmem with hmem | hmem
  · exact r.unlike (List.mem_cons_of_mem _ (List.mem_cons_of_mem _ hmem))
  · exact tempName_ne_backups r.uuid (List.mem_singleton.mp hmem)

theorem eq_of_label {x : Option (FileTree α Bytes)}
    (h : x.map label = some (FileTree.file oldAttrs content).label) :
    x = some (.file oldAttrs content) := by
  obtain ⟨y, rfl, hy⟩ := Option.map_eq_some_iff.mp h
  cases y with
  | file attrs' content' =>
      cases hy
      rfl
  | link attrs' target => cases hy
  | dir attrs' entries => cases hy

/-- The tree once the directory of the backups is made, or a part of its path. -/
theorem file_makedirs (hleads : LeadsToDir r.tree r.directory d)
    (hget : r.tree.get? (d ++ [r.name]) = some (.file oldAttrs content)) (part : Nat) :
    LeadsToDir ((makedirs attrs.dir ((backupDir r.root).take part) :
        Action FileProblem α Bytes Unit).run r.tree).tree r.directory d ∧
      ((makedirs attrs.dir ((backupDir r.root).take part) :
        Action FileProblem α Bytes Unit).run r.tree).tree.get? (d ++ [r.name]) =
        some (.file oldAttrs content) := by
  have hproper : ∀ other ∈ (backupDir r.root).take part, Proper other :=
    fun other hmem => r.backupDir_proper other (List.mem_of_mem_take hmem)
  exact ⟨hleads.keeps (makedirs_keeps r.rooted hproper),
    eq_of_label (get?_makedirs r.rooted hproper hget)⟩

/-- The old file at its backup, and the target vacant. -/
theorem vacant_rename {t : FileTree α Bytes} (hleads : LeadsToDir t r.directory d)
    (hget : t.get? (d ++ [r.name]) = some (.file oldAttrs content))
    (htemp : t.get? (d ++ [tempName r.uuid]) = none) {b : RealPath}
    (hb : LeadsToDir t (backupDir r.root) b)
    (hfree : t.get? (b ++ [backupName r.stamp r.name]) = none) : ∃ t' touched,
    (rename r.target r.backup : Action FileProblem α Bytes Unit).run t = ⟨.ok (), t', touched⟩ ∧
      r.Vacant t' d := by
  have hlocate : locate t r.target = some (d ++ [r.name]) :=
    (locate_concat r.nameProper).mpr ⟨d, hleads, rfl⟩
  have hlocate' : locate t r.backup = some (b ++ [backupName r.stamp r.name]) :=
    (locate_concat (backupName_proper r.stamp r.name)).mpr ⟨b, hb, rfl⟩
  -- nothing that is there is below the new place
  have habove : ∀ other, t.get? (d ++ [other]) ≠ none ∨ other ≠ backupName r.stamp r.name →
      ¬ b ++ [backupName r.stamp r.name] <+: d ++ [other] := by
    intro other hother hbelow
    rcases List.prefix_concat_iff.mp hbelow with heq | ⟨more, rfl⟩
    · rcases hother with hthere | hne
      · rw [← heq] at hthere
        exact hthere hfree
      · exact hne (List.singleton_inj.mp (List.append_inj' heq rfl).2).symm
    · obtain ⟨attrs', entries, hdir⟩ := hleads.2
      rw [get?_below_none hfree] at hdir
      cases hdir
  have hbelow : ¬ d ++ [r.name] <+: b ++ [backupName r.stamp r.name] := by
    intro hbelow
    rcases List.prefix_concat_iff.mp hbelow with heq | ⟨more, hmore⟩
    · rw [heq, hfree] at hget
      cases hget
    · obtain ⟨attrs', entries, hdir⟩ := hb.2
      rw [← hmore, get?_append, hget] at hdir
      cases more with
      | nil => cases hdir
      | cons first more => cases hdir
  have hremoved : KeepsPaths t (t.update (d ++ [r.name]) none) :=
    keepsPaths_update _ fun y hy => by rw [hget] at hy; cases hy; rfl
  have hfree' : (t.update (d ++ [r.name]) none).get? (b ++ [backupName r.stamp r.name]) = none := by
    have hlabel := label_update (t := t) none hbelow
    rw [hfree] at hlabel
    exact Option.map_eq_none_iff.mp hlabel
  have hkeeps := hremoved.trans (keepsPaths_update
    (some (FileTree.file oldAttrs content)) fun y hy => by rw [hfree'] at hy; cases hy)
  refine ⟨_, _, rename_run hlocate hlocate' hget hbelow hfree, hleads.keeps hkeeps, ?_, ?_⟩
  · have hlabel := label_update (t := t.update (d ++ [r.name]) none)
      (some (.file oldAttrs content)) (habove r.name (.inl (by rw [hget]; exact Option.some_ne_none _)))
    rw [get?_update _ hleads.2 []] at hlabel
    exact Option.map_eq_none_iff.mp hlabel
  · have hne : tempName r.uuid ≠ backupName r.stamp r.name := fun heq =>
      r.unlike (List.mem_cons_of_mem _ (heq ▸ List.mem_cons_self))
    have hlabel := label_update (t := t.update (d ++ [r.name]) none)
      (some (.file oldAttrs content)) (habove (tempName r.uuid) (.inr hne))
    have hlabel' := label_update (t := t) none (not_below r.name_ne_temp.symm d)
    rw [htemp] at hlabel'
    rw [hlabel'] at hlabel
    exact Option.map_eq_none_iff.mp hlabel

end Existing

/-! ### The replacement -/

section Result

variable {s s' : Link α Bytes}

theorem replace_of_error {error : RemoteError FileProblem}
    (h : (backupExistingFile attrs r.root r.target r.stamp).run s = (.error error, s')) :
    ((replaceFileAtomic attrs r.root r.target r.stamp r.uuid r.data).run s).2.tree = s'.tree := by
  unfold replaceFileAtomic
  rw [run_bind_error h]

/-- After the backup the tree is what `_write_bytes_atomic` leaves, unless the
backup is renamed back. -/
theorem replace_of_ok {backup : Option (List String)} {s'' : Link α Bytes}
    {result : Except (RemoteError FileProblem) Unit}
    (h : (backupExistingFile attrs r.root r.target r.stamp).run s = (.ok backup, s'))
    (hwrite : (writeBytesAtomic attrs r.target r.uuid r.data).run s' = (result, s''))
    (hback : result = .ok () ∨ backup = none ∨ s''.left = none) :
    ((replaceFileAtomic attrs r.root r.target r.stamp r.uuid r.data).run s).2.tree = s''.tree := by
  unfold replaceFileAtomic
  rw [run_bind_ok h]
  cases result with
  | ok _ =>
      rw [run_bind_ok (run_orElse_ok hwrite)]
      rfl
  | error error =>
      rcases hback with hok | rfl | hleft
      · cases hok
      · have hrun := run_orElse_error (f := fun error => (throw error : Remote FileProblem α Bytes Unit))
          hwrite
        rw [run_bind_error hrun]
      · obtain ⟨tree, left, part⟩ := s''
        obtain rfl : left = none := hleft
        cases backup with
        | none =>
            have hrun := run_orElse_error
              (f := fun error => (throw error : Remote FileProblem α Bytes Unit)) hwrite
            rw [run_bind_error hrun]
        | some backup =>
            have hrun := run_orElse_error (f := fun error => (do
                (whole (rename backup r.target)).orElse fun _ => pure ()
                throw error : Remote FileProblem α Bytes Unit)) hwrite
            rw [run_bind_error hrun]

variable (after part : Nat)

theorem backup_missing (h : objectAt r.tree r.target = none) :
    (backupExistingFile attrs r.root r.target r.stamp).run ⟨r.tree, some (after + 1), part⟩ =
      (.ok none, ⟨r.tree, some after, part⟩) := by
  have hrun := lstat_none (ε := FileProblem) h
  have hrefused : (whole (lstat r.target) : Remote FileProblem α Bytes (Found α Bytes)).run
      ⟨r.tree, some (after + 1), part⟩ = (.error (.server .noSuchFile), ⟨r.tree, some after, part⟩) :=
    request_refused (congrArg Ended.result hrun) (congrArg Ended.tree hrun)
  unfold backupExistingFile
  rw [run_bind_ok (run_orElse_error (run_bind_error hrefused))]
  rfl

theorem backup_lost : (backupExistingFile attrs r.root r.target r.stamp).run ⟨r.tree, some 0, part⟩ =
    (.error .connectionLost, ⟨r.tree, none, part⟩) := by
  unfold backupExistingFile
  rw [run_bind_error (run_orElse_error (run_bind_error whole_cut))]

/-- What is found at the target. -/
theorem lstat_found {d : RealPath} {x : FileTree α Bytes} (hleads : LeadsToDir r.tree r.directory d)
    (hget : r.tree.get? (d ++ [r.name]) = some x) :
    ((do
      let found ← whole (lstat r.target)
      pure (some found)) : Remote FileProblem α Bytes (Option (Found α Bytes))).run
        ⟨r.tree, some (after + 1), part⟩ = (.ok (some ⟨d ++ [r.name], x⟩), ⟨r.tree, some after, part⟩) := by
  have hrun := lstat_some (ε := FileProblem) ((locate_concat r.nameProper).mpr ⟨d, hleads, rfl⟩) hget
  exact run_bind_ok (request_ok (congrArg Ended.result hrun) (congrArg Ended.tree hrun))

/-- A link or a directory is refused. -/
theorem backup_refused {d : RealPath} {x : FileTree α Bytes}
    (hleads : LeadsToDir r.tree r.directory d) (hget : r.tree.get? (d ++ [r.name]) = some x)
    (hx : x.isFile = false) : ∃ error,
    (backupExistingFile attrs r.root r.target r.stamp).run ⟨r.tree, some (after + 1), part⟩ =
      (.error error, ⟨r.tree, some after, part⟩) := by
  unfold backupExistingFile
  rw [run_bind_ok (run_orElse_ok (r.lstat_found after part hleads hget))]
  cases x with
  | file attrs' content => cases hx
  | link attrs' target => exact ⟨_, rfl⟩
  | dir attrs' entries => exact ⟨_, rfl⟩

variable {d : RealPath} {oldAttrs : α} {content : Bytes}

/-- The backup of a file, after it was found. -/
theorem backup_file (hleads : LeadsToDir r.tree r.directory d)
    (hget : r.tree.get? (d ++ [r.name]) = some (.file oldAttrs content)) :
    (backupExistingFile attrs r.root r.target r.stamp).run ⟨r.tree, some (after + 1), part⟩ =
      ((do
        sftpMakedirs attrs (backupDir r.root)
        whole (rename r.target r.backup)
        pure (some r.backup)) : Remote FileProblem α Bytes (Option (List String))).run
          ⟨r.tree, some after, part⟩ := by
  have hname : r.target.getLastD "" = r.name := by
    unfold Replacement.target
    rw [List.getLastD_concat]
  unfold backupExistingFile
  rw [run_bind_ok (run_orElse_ok (r.lstat_found after part hleads hget)), hname]
  rfl

/-- The old file stays where it is until the rename to the backup. -/
theorem backup_early (hleads : LeadsToDir r.tree r.directory d)
    (hget : r.tree.get? (d ++ [r.name]) = some (.file oldAttrs content))
    (h : after ≤ 1 ∨ ¬ r.CanBackUp attrs) : ∃ error s,
    (backupExistingFile attrs r.root r.target r.stamp).run ⟨r.tree, some (after + 1), part⟩ =
      (.error error, s) ∧ objectAt s.tree r.target = some (.file oldAttrs content) := by
  have hkept : ∀ part, objectAt ((makedirs attrs.dir ((backupDir r.root).take part) :
      Action FileProblem α Bytes Unit).run r.tree).tree r.target = some (.file oldAttrs content) := by
    intro part
    obtain ⟨hleads', hget'⟩ := r.file_makedirs attrs hleads hget part
    unfold Replacement.target
    rw [objectAt_concat r.nameProper hleads', hget']
  have hkept' := hkept (backupDir r.root).length
  rw [List.take_length] at hkept'
  rw [r.backup_file attrs after part hleads hget]
  cases after with
  | zero => exact ⟨_, _, run_bind_error request_cut, hkept part⟩
  | succ after =>
      cases hresult : ((makedirs attrs.dir (backupDir r.root) :
          Action FileProblem α Bytes Unit).run r.tree).result with
      | error error => exact ⟨_, _, run_bind_error (request_refused hresult rfl), hkept'⟩
      | ok made =>
          have hmade : (sftpMakedirs attrs (backupDir r.root)).run ⟨r.tree, some (after + 1), part⟩ =
              (.ok (), ⟨((makedirs attrs.dir (backupDir r.root) :
                Action FileProblem α Bytes Unit).run r.tree).tree, some after, part⟩) :=
            request_ok hresult rfl
          rw [run_bind_ok hmade]
          cases after with
          | zero => exact ⟨_, _, run_bind_error whole_cut, hkept'⟩
          | succ after =>
              have hcannot : ¬ r.CanBackUp attrs := h.resolve_left (by omega)
              have htaken : ∀ k, locate ((makedirs attrs.dir (backupDir r.root) :
                  Action FileProblem α Bytes Unit).run r.tree).tree r.backup = some k →
                  ((makedirs attrs.dir (backupDir r.root) :
                    Action FileProblem α Bytes Unit).run r.tree).tree.get? k ≠ none := by
                intro k hk hnone
                refine hcannot ⟨hresult, ?_⟩
                unfold objectAt
                rw [hk, Option.bind_some, hnone]
              obtain ⟨error, hrun⟩ := rename_refused (ε := FileProblem) htaken
              exact ⟨_, _, run_bind_error (request_refused (congrArg Ended.result hrun)
                (congrArg Ended.tree hrun)), hkept'⟩

/-- Where the server can move it, the third operation leaves the target vacant. -/
theorem backup_late (hleads : LeadsToDir r.tree r.directory d)
    (hget : r.tree.get? (d ++ [r.name]) = some (.file oldAttrs content)) (h : r.CanBackUp attrs) :
    ∃ t', (backupExistingFile attrs r.root r.target r.stamp).run ⟨r.tree, some (after + 3), part⟩ =
      (.ok (some r.backup), ⟨t', some after, part⟩) ∧ r.Vacant t' d := by
  obtain ⟨hresult, hfree⟩ := h
  obtain ⟨b, hb⟩ := (makedirs_ok_iff r.rooted r.backupDir_proper).mp hresult
  have hmade : (sftpMakedirs attrs (backupDir r.root)).run ⟨r.tree, some (after + 2), part⟩ =
      (.ok (), ⟨((makedirs attrs.dir (backupDir r.root) :
        Action FileProblem α Bytes Unit).run r.tree).tree, some (after + 1), part⟩) :=
    request_ok hresult rfl
  obtain ⟨hleads', hget'⟩ := r.file_makedirs attrs hleads hget (backupDir r.root).length
  rw [List.take_length] at hleads' hget'
  have htemp : ((makedirs attrs.dir (backupDir r.root) : Action FileProblem α Bytes Unit).run
      r.tree).tree.get? (d ++ [tempName r.uuid]) = none :=
    get?_makedirs_none r.rooted r.backupDir_proper hleads.2 r.tempName_not_mem_backupDir (r.unused d)
  unfold Replacement.backup at hfree
  rw [objectAt_concat (backupName_proper r.stamp r.name) hb] at hfree
  obtain ⟨t', touched, hrun, hvacant⟩ := r.vacant_rename hleads' hget' htemp hb hfree
  refine ⟨t', ?_, hvacant⟩
  rw [r.backup_file attrs (after + 2) part hleads hget, run_bind_ok hmade]
  exact run_bind_ok (request_ok (congrArg Ended.result hrun) (congrArg Ended.tree hrun))

end Result

/-- A missing target stays missing, or is the new file. -/
theorem result_missing (h : objectAt r.tree r.target = none) (after part : Nat) :
    r.MissingOrNew (r.result attrs after part) := by
  unfold result
  cases after with
  | zero =>
      rw [r.replace_of_error attrs (r.backup_lost attrs part)]
      exact .inl h
  | succ after =>
      obtain ⟨result, s, hwrite, hs⟩ := r.writeBytesAtomic_missing attrs h (some after) part
      rw [r.replace_of_ok attrs (r.backup_missing attrs after part h) hwrite (.inr (.inl rfl))]
      exact hs

/-- **The replacement is atomic unless it is cut between its two renames.** -/
theorem replaceFileAtomic_atomic_iff (after part : Nat) :
    r.Atomic (r.result attrs after part) ↔ ¬ r.Exposed attrs after := by
  cases htarget : objectAt r.tree r.target with
  | none =>
      constructor
      · rintro - ⟨⟨fileAttrs, content, hfile⟩, -⟩
        rw [htarget] at hfile
        cases hfile
      · intro _
        rcases r.result_missing attrs htarget after part with hmissing | hnew
        · exact .inl (hmissing.trans htarget.symm)
        · exact .inr hnew
  | some x =>
      obtain ⟨d, hleads, hget⟩ := (objectAt_concat_eq_some r.nameProper).mp htarget
      by_cases hx : x.isFile = true
      · obtain ⟨oldAttrs, content, rfl⟩ : ∃ oldAttrs content, x = .file oldAttrs content := by
          cases x with
          | file oldAttrs content => exact ⟨oldAttrs, content, rfl⟩
          | link oldAttrs target => cases hx
          | dir oldAttrs entries => cases hx
        by_cases hearly : after ≤ 2 ∨ ¬ r.CanBackUp attrs
        · refine iff_of_true (.inl ?_) ?_
          · unfold result
            rw [htarget]
            cases after with
            | zero =>
                rw [r.replace_of_error attrs (r.backup_lost attrs part)]
                exact htarget
            | succ after =>
                obtain ⟨error, s, hrun, hkept⟩ := r.backup_early attrs after part hleads hget
                  (hearly.imp_left fun hle => by omega)
                rw [r.replace_of_error attrs hrun]
                exact hkept
          · rintro ⟨-, hcan, hle, -⟩
            rcases hearly with hle' | hcannot
            · omega
            · exact hcannot hcan
        · rw [not_or, Classical.not_not] at hearly
          obtain ⟨hlate, hcan⟩ := hearly
          obtain ⟨left, rfl⟩ : ∃ left, after = left + 3 := ⟨after - 3, by omega⟩
          obtain ⟨t', hrun, hvacant⟩ := r.backup_late attrs left part hleads hget hcan
          unfold result
          by_cases hle : left ≤ 4
          · obtain ⟨t'', hwrite, habsent⟩ := r.writeBytesAtomic_lost attrs hvacant hle part
            rw [r.replace_of_ok attrs hrun hwrite (.inr (.inr rfl))]
            refine iff_of_false ?_ (not_not_intro
              ⟨⟨oldAttrs, content, htarget⟩, hcan, by omega, by omega⟩)
            rintro (hold | ⟨fileAttrs, hnew⟩)
            · rw [habsent, htarget] at hold
              cases hold
            · rw [habsent] at hnew
              cases hnew
          · obtain ⟨rest, rfl⟩ : ∃ rest, left = rest + 5 := ⟨left - 5, by omega⟩
            obtain ⟨result, t'', link, fileAttrs, hwrite, hnew, hback⟩ :=
              r.writeBytesAtomic_done attrs hvacant rest part
            rw [r.replace_of_ok attrs hrun hwrite (hback.imp_right fun ⟨_, _, hlink⟩ => .inr hlink)]
            exact iff_of_true (.inr ⟨fileAttrs, hnew⟩) fun hexposed => by
              have := hexposed.2.2.2
              omega
      · refine iff_of_true (.inl ?_) ?_
        · unfold result
          cases after with
          | zero => rw [r.replace_of_error attrs (r.backup_lost attrs part)]
          | succ after =>
              obtain ⟨error, hrun⟩ := r.backup_refused attrs after part hleads hget
                (Bool.not_eq_true _ ▸ hx)
              rw [r.replace_of_error attrs hrun]
        · rintro ⟨⟨fileAttrs, content, hfile⟩, -⟩
          rw [htarget] at hfile
          obtain rfl := Option.some.inj hfile
          exact hx rfl

/-! ### A file that is lost -/

/-- A workspace with one file. -/
def sampleTree : FileTree Unit Bytes := .dir () [("w", .dir () [("a", .file () [1])])]

theorem sampleTree_rooted : sampleTree.DirAt [] := ⟨(), _, rfl⟩

theorem proper_w : ∀ other ∈ ["w"], Proper other := by decide

theorem proper_a : Proper "a" := by decide

theorem sampleTree_unused (k : RealPath) : sampleTree.get? (k ++ [tempName "0"]) = none := by
  have htemp : tempName "0" = ".zj-upload-0.tmp" := by decide
  rw [htemp]
  cases k with
  | nil => decide
  | cons first k =>
      by_cases hw : "w" = first
      · subst hw
        cases k with
        | nil => decide
        | cons second k =>
            by_cases ha : "a" = second
            · subst ha
              cases k <;> rfl
            · simp [sampleTree, get?, LastWrite.lookup, ha]
      · simp [sampleTree, get?, LastWrite.lookup, hw]

theorem sample_unlike : tempName "0" ∉ "a" :: backupName "20260101-000000-0" "a" :: ["w"] := by decide

/-- The file is to be replaced. -/
def sample : Replacement Unit where
  tree := sampleTree
  root := ["w"]
  directory := ["w"]
  name := "a"
  stamp := "20260101-000000-0"
  uuid := "0"
  data := [2]
  rooted := sampleTree_rooted
  rootProper := proper_w
  directoryProper := proper_w
  nameProper := proper_a
  unused := sampleTree_unused
  unlike := sample_unlike

/-- The connection is lost while the temporary file is written: then there is no
file at the target. -/
theorem lost_between_renames : ¬ sample.Atomic (sample.result ⟨(), ()⟩ 5 1) := by
  have habsent : objectAt (sample.result ⟨(), ()⟩ 5 1) sample.target = none := by rfl
  have hold : (objectAt sample.tree sample.target).isSome = true := by rfl
  rintro (hsame | ⟨fileAttrs, hnew⟩)
  · rw [← hsame, habsent] at hold
    cases hold
  · rw [habsent] at hnew
    cases hnew

end Replacement

end Workbench.RemoteReplace
