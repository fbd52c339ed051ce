import CyberWorkbench.RemoteConfinement

/-!
# What the writing operations reach

`write_file` and `upload_files` make directories, check the parent, and replace
the file.  All of a replacement happens in the directory of the target but the
backup, so past the check only a linked `.zj-backups` leads outside
(`stays_replaceFileAtomic`), and every path leads where it led, so that the
checks of the next file meet the same directory.

`confined_iff` puts the operations together, and `check_after_making` is the
request that makes a directory outside and then raises `PermissionError`.
-/

namespace Workbench.RemoteFiles

open FileTree FileTree.Action
open RemoteReplace (Bytes FileProblem NewAttrs backupDir backupName tempName)
open RemoteReplace.Replacement (tempName_proper backupName_proper eq_of_label)

variable {α : Type}

namespace Workspace

section Replacing

variable {ws : Workspace α} {server : Server α} {t : FileTree α Bytes}

/-! ### Writing the new file -/

/-- The temporary file is written in the directory, and then renamed. -/
theorem writeAndRename_run {parent : List String} {d : RealPath} (h : LeadsToDir t parent d)
    {temp : String} (htemp : Proper temp) (hnone : t.get? (d ++ [temp]) = none)
    (attrs : NewAttrs α) (target : List String) (data : Bytes) :
    ∃ t', KeepsPaths t t' ∧ t'.get? (d ++ [temp]) = some (.file attrs.file data) ∧
      (writeAndRename attrs (parent ++ [temp]) target data).run t =
        ⟨((rename (parent ++ [temp]) target : Action FileProblem α Bytes Unit).run t').result,
          ((rename (parent ++ [temp]) target : Action FileProblem α Bytes Unit).run t').tree,
          (d ++ [temp]) :: (d ++ [temp]) ::
            ((rename (parent ++ [temp]) target : Action FileProblem α Bytes Unit).run
              t').touched⟩ := by
  have hcanonical : canonical t (parent ++ [temp]) = some (d ++ [temp]) :=
    canonical_concat h.1 h.2 htemp fun _ _ hlink => by rw [hnone] at hlink; cases hlink
  have hkeeps : KeepsPaths t (t.update (d ++ [temp]) (some (.file attrs.file []))) :=
    keepsPaths_update _ fun y hy => by rw [hnone] at hy; cases hy
  have hopened : (t.update (d ++ [temp]) (some (.file attrs.file []))).get? (d ++ [temp]) =
      some (.file attrs.file []) := get?_update _ h.2 []
  have hleads := h.keeps hkeeps
  have hcanonical' : canonical (t.update (d ++ [temp]) (some (.file attrs.file [])))
      (parent ++ [temp]) = some (d ++ [temp]) :=
    canonical_concat hleads.1 hleads.2 htemp fun _ _ hlink => by rw [hopened] at hlink; cases hlink
  have hopen : (write attrs.file (parent ++ [temp]) [] : Action FileProblem α Bytes Unit).run t =
      ⟨.ok (), _, _⟩ := write_new hcanonical hnone
  have hwrite : (write attrs.file (parent ++ [temp]) data : Action FileProblem α Bytes Unit).run
      (t.update (d ++ [temp]) (some (.file attrs.file []))) = ⟨.ok (), _, _⟩ :=
    write_file hcanonical' hopened
  refine ⟨(t.update (d ++ [temp]) (some (.file attrs.file []))).update (d ++ [temp])
    (some (.file attrs.file data)), hkeeps.trans (keepsPaths_update _ fun y hy => ?_),
    get?_update _ hleads.2 [], ?_⟩
  · rw [hopened] at hy
    exact Option.some.inj hy ▸ rfl
  · unfold writeAndRename
    rw [bind_run (congrArg Ended.result hopen), hopen, bind_run (congrArg Ended.result hwrite), hwrite]
    rfl

/-- The new file is written and renamed, and what is left under its temporary
name removed: all of it in the directory, and every path leads where it led. -/
theorem writeThenRemove_spec {parent : List String} {d : RealPath} (h : LeadsToDir t parent d)
    (hd : ws.Inside d) {temp name : String} (htemp : Proper temp) (hname : Proper name)
    (hnone : t.get? (d ++ [temp]) = none) (attrs : NewAttrs α) (data : Bytes) :
    Stays ws.Inside (ensuring (writeAndRename attrs (parent ++ [temp]) (parent ++ [name]) data)
        (ignoringMissing (remove (parent ++ [temp])))) t ∧
      Keeps (ensuring (writeAndRename attrs (parent ++ [temp]) (parent ++ [name]) data)
        (ignoringMissing (remove (parent ++ [temp])))) t := by
  obtain ⟨t', hkeeps, hwritten, hrun⟩ := writeAndRename_run h htemp hnone attrs
    (parent ++ [name]) data
  have hleads := h.keeps hkeeps
  have hplace : ∀ {t : FileTree α Bytes}, LeadsToDir t parent d → ∀ {other : String},
      Proper other → ∀ k, locate t (parent ++ [other]) = some k → k = d ++ [other] := by
    intro t h other hother k hk
    obtain ⟨d', hd', rfl⟩ := (locate_concat hother).mp hk
    rw [h.unique hd']
  have hrenamed : Keeps (rename (parent ++ [temp]) (parent ++ [name]) :
      Action FileProblem α Bytes Unit) t' := by
    refine keeps_rename fun k hk x hx => ?_
    rw [hplace hleads htemp k hk, hwritten] at hx
    exact Option.some.inj hx ▸ rfl
  have hleft := hleads.keeps hrenamed
  constructor
  · rw [stays_ensuring]
    constructor
    · unfold Stays
      rw [hrun]
      have hstays : Stays ws.Inside (rename (parent ++ [temp]) (parent ++ [name]) :
          Action FileProblem α Bytes Unit) t' := by
        refine stays_renameOver.mpr fun k hk k' hk' _ _ _ _ => ?_
        rw [hplace hleads htemp k hk, hplace hleads hname k' hk']
        exact ⟨inside_append hd [temp], inside_append hd [name]⟩
      intro k hk
      simp only [List.mem_cons] at hk
      rcases hk with rfl | rfl | hk
      · exact inside_append hd [temp]
      · exact inside_append hd [temp]
      · exact hstays k hk
    · rw [hrun]
      refine stays_handle.mpr ⟨stays_remove.mpr fun k hk _ _ _ => ?_, fun error _ => ?_⟩
      · rw [hplace hleft htemp k hk]
        exact inside_append hd [temp]
      · cases error with
        | noSuchFile => exact stays_pure ()
        | failure => exact stays_fail _
        | raised error => exact stays_fail _
  · refine keeps_ensuring ?_ ?_
    · unfold Keeps
      rw [hrun]
      exact hkeeps.trans hrenamed
    · rw [hrun]
      refine keeps_handle (keeps_remove fun k hk x hx => ?_) fun error _ => ?_
      · -- the rename may have been refused: then the file is still there
        rw [hplace hleft htemp k hk] at hx
        exact rename_entry htemp hname hleads hwritten hx
      · cases error with
        | noSuchFile => exact keeps_look _
        | failure => exact keeps_look _
        | raised error => exact keeps_look _

/-- **`_write_bytes_atomic` reaches only the directory of its target**, and every
path leads where it led. -/
theorem writeBytesAtomic_spec (server : Server α) {parent : List String}
    (hparent : ∀ other ∈ parent, Proper other)
    {d : RealPath} (h : LeadsToDir t parent d) (hd : ws.Inside d) {name : String}
    (hname : Proper name) (data : Bytes) :
    Stays ws.Inside (writeBytesAtomic server.attrs server.uuid (parent ++ [name]) data) t ∧
      Keeps (writeBytesAtomic server.attrs server.uuid (parent ++ [name]) data) t := by
  have hthere : (makedirs server.attrs.dir parent : Action FileProblem α Bytes Unit).run t =
      ⟨.ok (), t, []⟩ := makedirs_there hparent h
  have hspec := writeThenRemove_spec h hd (tempName_proper (server.uuid t)) hname
    (server.uuid_unused t d) server.attrs data
  have hrun : (writeBytesAtomic server.attrs server.uuid (parent ++ [name]) data).run t =
      (ensuring (writeAndRename server.attrs (parent ++ [tempName (server.uuid t)])
          (parent ++ [name]) data)
        (ignoringMissing (remove (parent ++ [tempName (server.uuid t)])))).run t := by
    unfold writeBytesAtomic
    simp only [List.dropLast_concat]
    rw [run_bind_ok (by rw [hthere]) (by rw [hthere]), hthere]
    exact run_bind_ok rfl rfl
  unfold Stays Keeps at hspec ⊢
  rw [hrun]
  exact hspec

/-! ### The backup -/

/-- The old file is renamed to its backup: that stays inside if the backup is
inside, or cannot be made. -/
theorem stays_renameToBackup {parent : List String} {d : RealPath} (h : LeadsToDir t parent d)
    (hd : ws.Inside d) {name : String} (hname : Proper name) {attrs : α} {content : Bytes}
    (hfile : t.get? (d ++ [name]) = some (.file attrs content))
    (hplace : t.DirAt ws.place) {directory : List String} {b : RealPath}
    (hb : LeadsToDir t directory b) {backup : String} (hbackup : Proper backup) :
    Stays ws.Inside (rename (parent ++ [name]) (directory ++ [backup]) :
        Action FileProblem α Bytes Unit) t ↔
      (t.get? (b ++ [backup]) = none → ws.Inside b) := by
  unfold rename
  rw [stays_renameOver, (locate_concat hname).mpr ⟨d, h, rfl⟩,
    (locate_concat hbackup).mpr ⟨b, hb, rfl⟩]
  simp only [Option.some.injEq, forall_eq']
  constructor
  · intro hstays hfree
    have hnot : (d ++ [name]).isPrefixOf (b ++ [backup]) = false := by
      rw [← Bool.not_eq_true, List.isPrefixOf_iff_prefix, List.prefix_concat_iff]
      rintro (heq | hbelow)
      · rw [heq, hfree] at hfile
        cases hfile
      · -- the file would be a directory above
        obtain ⟨more, rfl⟩ := hbelow
        obtain ⟨attrs', entries, hdir⟩ := DirAt.prefix_dirAt hb.2
        rw [hfile] at hdir
        cases hdir
    obtain ⟨-, hinside⟩ := hstays _ hfile hnot (by rw [hfree]; rfl)
    rcases List.prefix_concat_iff.mp hinside with heq | hbelow
    · obtain ⟨attrs', entries, hdir⟩ := hplace
      rw [heq, hfree] at hdir
      cases hdir
    · exact hbelow
  · intro hinside x _ _ hover
    refine ⟨inside_append hd [name], inside_append (hinside ?_) [backup]⟩
    cases hget : t.get? (b ++ [backup]) with
    | none => rfl
    | some y =>
        rw [hget] at hover
        cases hover

/-- After the file was found: make the directory of the backups and rename. -/
def moveToBackup (server : Server α) (root target : List String) :
    Action FileProblem α Bytes (Option (List String)) := do
  makedirs server.attrs.dir (backupDir root)
  let stamp ← look fun t => .ok (server.stamp t)
  let backup := backupDir root ++ [backupName stamp (target.getLastD "")]
  rename target backup
  pure (some backup)

theorem proper_backups : Proper ".zj-backups" := by decide

theorem backupDir_proper : ∀ name ∈ backupDir ws.root, Proper name := by
  intro name hname
  rcases List.mem_append.mp hname with hroot | hlast
  · exact root_proper name hroot
  · exact List.mem_singleton.mp hlast ▸ proper_backups

theorem backupExistingFile_run {parent : List String} {d : RealPath} (h : LeadsToDir t parent d)
    {name : String} (hname : Proper name) {attrs : α} {content : Bytes}
    (hfile : t.get? (d ++ [name]) = some (.file attrs content)) :
    (backupExistingFile server.attrs server.stamp ws.root (parent ++ [name])).run t =
      (moveToBackup server ws.root (parent ++ [name])).run t := by
  have hfound : ((lstatIfThere (parent ++ [name]) :
      Action FileProblem α Bytes (Option (Found α Bytes))).run t).result =
        .ok (some ⟨d ++ [name], .file attrs content⟩) := by
    rw [lstatIfThere_ok, (locate_concat hname).mpr ⟨d, h, rfl⟩, Option.bind_some, hfile]
    rfl
  have hlooks := looks_lstatIfThere (ε := FileProblem) (t := t) (parent ++ [name])
  unfold backupExistingFile
  rw [run_bind_ok hfound hlooks.2, hlooks.1]
  rfl

/-- A target that is no file is not moved. -/
theorem looks_backupExistingFile (server : Server α) (ws : Workspace α) {parent : List String}
    {d : RealPath} (h : LeadsToDir t parent d) {name : String} (hname : Proper name)
    (hno : ∀ attrs content, t.get? (d ++ [name]) ≠ some (.file attrs content)) :
    Looks (backupExistingFile server.attrs server.stamp ws.root (parent ++ [name])) t ∧
      ∀ backup, ((backupExistingFile server.attrs server.stamp ws.root
        (parent ++ [name])).run t).result ≠ .ok (some backup) := by
  have hresult : ((lstatIfThere (parent ++ [name]) :
      Action FileProblem α Bytes (Option (Found α Bytes))).run t).result =
        .ok ((t.get? (d ++ [name])).map (Found.mk (d ++ [name]))) := by
    rw [lstatIfThere_ok, (locate_concat hname).mpr ⟨d, h, rfl⟩, Option.bind_some]
  have hlooks := looks_lstatIfThere (ε := FileProblem) (t := t) (parent ++ [name])
  unfold backupExistingFile
  unfold Looks
  rw [run_bind_ok hresult hlooks.2, hlooks.1]
  cases hget : t.get? (d ++ [name]) with
  | none => exact ⟨⟨rfl, rfl⟩, fun _ hok => by cases hok⟩
  | some x =>
      cases x with
      | file attrs content => exact absurd hget (hno attrs content)
      | link attrs target => exact ⟨⟨rfl, rfl⟩, fun _ hok => by cases hok⟩
      | dir attrs entries => exact ⟨⟨rfl, rfl⟩, fun _ hok => by cases hok⟩

/-- With the directory of the backups made, the rename decides. -/
theorem stays_moveToBackup {parent : List String} {d : RealPath} (hd : ws.Inside d) {name : String}
    (hname : Proper name) {t' : FileTree α Bytes} {touched : List RealPath}
    (hrun : (makedirs server.attrs.dir (backupDir ws.root) : Action FileProblem α Bytes Unit).run t =
      ⟨.ok (), t', touched⟩) (htouched : ∀ k ∈ touched, ws.Inside k) (h : LeadsToDir t' parent d)
    {attrs : α} {content : Bytes} (hfile : t'.get? (d ++ [name]) = some (.file attrs content))
    (hplace : t'.DirAt ws.place) {b : RealPath} (hb : LeadsToDir t' (backupDir ws.root) b) :
    Stays ws.Inside (moveToBackup server ws.root (parent ++ [name])) t ↔
      (t'.get? (b ++ [backupName (server.stamp t') name]) = none → ws.Inside b) := by
  have hmakes : Stays ws.Inside (makedirs server.attrs.dir (backupDir ws.root) :
      Action FileProblem α Bytes Unit) t := by
    unfold Stays
    rw [hrun]
    exact htouched
  unfold moveToBackup
  rw [stays_bind, hrun, and_iff_right hmakes]
  simp only [forall_const, List.getLastD_concat]
  rw [stays_bind_of_looks (looks_look _)]
  unfold look
  simp only [Except.ok.injEq, forall_eq']
  exact (stays_bind_pure (f := fun _ => some (backupDir ws.root ++
    [backupName (server.stamp t') name]))).trans (stays_renameToBackup h hd hname hfile hplace hb (backupName_proper _ _))

/-- Where the backup is moved: into the directory of the backups, where nothing
had its name. -/
theorem moveToBackup_ok {parent : List String} {name : String} {t' : FileTree α Bytes}
    {touched : List RealPath}
    (hrun : (makedirs server.attrs.dir (backupDir ws.root) : Action FileProblem α Bytes Unit).run t =
      ⟨.ok (), t', touched⟩) {backup : List String}
    (h : ((moveToBackup server ws.root (parent ++ [name])).run t).result = .ok (some backup)) :
    backup = backupDir ws.root ++ [backupName (server.stamp t') name] ∧
      ∀ b, LeadsToDir t' (backupDir ws.root) b →
        t'.get? (b ++ [backupName (server.stamp t') name]) = none := by
  unfold moveToBackup at h
  rw [bind_run (congrArg Ended.result hrun), hrun] at h
  simp only [List.getLastD_concat] at h
  rw [bind_ok_of_looks (looks_look _)] at h
  obtain ⟨stamp, hstamp, h⟩ := h
  obtain rfl := Except.ok.inj hstamp
  obtain ⟨⟨⟩, hrenamed, hback, -⟩ := bind_ok h
  refine ⟨(Option.some.inj (Except.ok.inj hback)).symm, fun b hb => ?_⟩
  cases hget : t'.get? (b ++ [backupName (server.stamp t') name]) with
  | none => rfl
  | some x =>
      obtain ⟨error, hrefused⟩ : ∃ error, (rename (parent ++ [name])
          (backupDir ws.root ++ [backupName (server.stamp t') name]) :
            Action FileProblem α Bytes Unit).run t' = ⟨.error error, t', []⟩ := by
        refine rename_refused fun k hk => ?_
        obtain ⟨b', hb', rfl⟩ := (locate_concat (backupName_proper _ _)).mp hk
        obtain rfl := hb.unique hb'
        rw [hget]
        exact Option.some_ne_none x
      rw [hrefused] at hrenamed
      cases hrenamed

/-- The old file is moved, and every path leads where it led. -/
theorem keepsPaths_moveToBackup {parent : List String} {d : RealPath} {name : String}
    (hname : Proper name) {t' : FileTree α Bytes} {touched : List RealPath}
    (hrun : (makedirs server.attrs.dir (backupDir ws.root) : Action FileProblem α Bytes Unit).run t =
      ⟨.ok (), t', touched⟩) (h : LeadsToDir t' parent d) {attrs : α} {content : Bytes}
    (hfile : t'.get? (d ++ [name]) = some (.file attrs content)) :
    KeepsPaths t' ((moveToBackup server ws.root (parent ++ [name])).run t).tree := by
  unfold moveToBackup
  rw [bind_run (congrArg Ended.result hrun), hrun]
  refine keeps_bind (keeps_look _) fun stamp _ =>
    keeps_bind (keeps_rename fun k hk x hx => ?_) fun _ _ => keeps_look _
  obtain ⟨d', hd', rfl⟩ := (locate_concat hname).mp hk
  obtain rfl := h.unique hd'
  exact Option.some.inj (hfile.symm.trans hx) ▸ rfl

/-- **The backup stays inside exactly when the directory of the backups leads
inside**, or the old file cannot be moved there. -/
theorem moveToBackup_spec (hroot : LeadsToDir t ws.root ws.place) {parent : List String}
    {d : RealPath} (h : LeadsToDir t parent d) (hd : ws.Inside d) {name : String}
    (hname : Proper name) {attrs : α} {content : Bytes}
    (hfile : t.get? (d ++ [name]) = some (.file attrs content)) :
    (Stays ws.Inside (moveToBackup server ws.root (parent ++ [name])) t ↔
        ws.BackupInside server t d name) ∧
      Keeps (moveToBackup server ws.root (parent ++ [name])) t ∧
      ∀ backup, ((moveToBackup server ws.root (parent ++ [name])).run t).result =
          .ok (some backup) → ws.BackupInside server t d name →
        ∃ b stamp, backup = backupDir ws.root ++ [backupName stamp name] ∧
          LeadsToDir ((moveToBackup server ws.root (parent ++ [name])).run t).tree
            (backupDir ws.root) b ∧ ws.Inside b := by
  rcases makedirs_concat (ε := FileProblem) server.attrs.dir root_proper proper_backups hroot with ⟨b, hb, hrun⟩ | ⟨hnone, hnot, hrun⟩ | ⟨hnot, error, hrun⟩
  · have hstays : Stays ws.Inside (moveToBackup server ws.root (parent ++ [name])) t ↔ _ :=
      stays_moveToBackup hd hname hrun (fun k hk => by cases hk) h hfile hroot.2 hb
    have hinside : ws.BackupInside server t d name ↔
        (t.get? (b ++ [backupName (server.stamp t) name]) = none → ws.Inside b) := by
      constructor
      · exact fun hall => hall attrs content hfile b hb
      · intro hfree _ _ _ b' hb' hget
        obtain rfl := hb.unique hb'
        exact hfree hget
    have hkeeps : KeepsPaths t ((moveToBackup server ws.root (parent ++ [name])).run t).tree :=
      keepsPaths_moveToBackup hname hrun h hfile
    refine ⟨hstays.trans hinside.symm, hkeeps, fun backup hok hall => ?_⟩
    obtain ⟨rfl, hfree⟩ := moveToBackup_ok hrun hok
    exact ⟨b, _, rfl, hb.keeps hkeeps, hall attrs content hfile b hb (hfree b hb)⟩
  · -- the directory of the backups is made in the root
    have hvacant : ws.BackupInside server t d name := fun _ _ _ b hb => absurd hb (hnot b)
    have hmade : KeepsPaths t (t.update (ws.place ++ [".zj-backups"])
        (some (.dir server.attrs.dir []))) :=
      keepsPaths_update _ fun y hy => by rw [hnone] at hy; cases hy
    have hb : LeadsToDir (t.update (ws.place ++ [".zj-backups"])
        (some (.dir server.attrs.dir []))) (backupDir ws.root) (ws.place ++ [".zj-backups"]) :=
      (hroot.keeps hmade).concat proper_backups ⟨_, [], get?_update _ hroot.2 []⟩
    have hfile' : (((makedirs server.attrs.dir (backupDir ws.root) :
        Action FileProblem α Bytes Unit).run t).tree.get? (d ++ [name])).map label = _ :=
      get?_makedirs (DirAt.prefix_dirAt (k := []) hroot.2) backupDir_proper hfile
    have hrun' : (makedirs server.attrs.dir (backupDir ws.root) :
        Action FileProblem α Bytes Unit).run t = _ := hrun
    rw [hrun'] at hfile'
    have hinside : ws.Inside (ws.place ++ [".zj-backups"]) :=
      inside_append (List.prefix_refl ws.place) [".zj-backups"]
    have hkeeps := keepsPaths_moveToBackup hname hrun (h.keeps hmade) (eq_of_label hfile')
    refine ⟨iff_of_true ?_ hvacant, hmade.trans hkeeps, fun backup hok _ => ?_⟩
    · refine (stays_moveToBackup hd hname hrun (fun k hk => ?_) (h.keeps hmade) (eq_of_label hfile')
        (hmade.dirAt hroot.2) hb).mpr fun _ => hinside
      obtain rfl := List.mem_singleton.mp hk
      exact hinside
    · obtain ⟨rfl, -⟩ := moveToBackup_ok hrun hok
      exact ⟨ws.place ++ [".zj-backups"], _, rfl, hb.keeps hkeeps, hinside⟩
  · have hvacant : ws.BackupInside server t d name := fun _ _ _ b hb => absurd hb (hnot b)
    have hends : (moveToBackup server ws.root (parent ++ [name])).run t = ⟨.error error, t, []⟩ := by
      have hrun' : (makedirs server.attrs.dir (backupDir ws.root) :
          Action FileProblem α Bytes Unit).run t = ⟨.error error, t, []⟩ := hrun
      unfold moveToBackup
      rw [bind_run_error (congrArg Ended.result hrun'), hrun']
    refine ⟨iff_of_true ?_ hvacant, ?_, fun backup hok => ?_⟩
    · unfold Stays
      rw [hends]
      exact fun k hk => by cases hk
    · unfold Keeps
      rw [hends]
      exact KeepsPaths.refl
    · rw [hends] at hok
      cases hok

/-- **`_backup_existing_file`**, whatever stands at the target. -/
theorem backupExistingFile_spec (server : Server α) (hroot : LeadsToDir t ws.root ws.place)
    {parent : List String} {d : RealPath} (h : LeadsToDir t parent d) (hd : ws.Inside d) {name : String}
    (hname : Proper name) :
    (Stays ws.Inside (backupExistingFile server.attrs server.stamp ws.root (parent ++ [name])) t ↔
        ws.BackupInside server t d name) ∧
      Keeps (backupExistingFile server.attrs server.stamp ws.root (parent ++ [name])) t ∧
      ∀ backup, ((backupExistingFile server.attrs server.stamp ws.root
          (parent ++ [name])).run t).result = .ok (some backup) → ws.BackupInside server t d name →
        ∃ b stamp, backup = backupDir ws.root ++ [backupName stamp name] ∧
          LeadsToDir ((backupExistingFile server.attrs server.stamp ws.root
            (parent ++ [name])).run t).tree (backupDir ws.root) b ∧ ws.Inside b := by
  by_cases hfile : ∃ attrs content, t.get? (d ++ [name]) = some (.file attrs content)
  · obtain ⟨attrs, content, hfile⟩ := hfile
    unfold Stays Keeps
    rw [backupExistingFile_run h hname hfile]
    exact moveToBackup_spec hroot h hd hname hfile
  · have hno : ∀ attrs content, t.get? (d ++ [name]) ≠ some (.file attrs content) :=
      fun attrs content hget => hfile ⟨attrs, content, hget⟩
    obtain ⟨hlooks, hnone⟩ := looks_backupExistingFile server ws h hname hno
    refine ⟨iff_of_true hlooks.stays fun attrs content hget => absurd hget (hno attrs content), ?_,
      fun backup hok => absurd hok (hnone backup)⟩
    unfold Keeps
    rw [hlooks.1]
    exact KeepsPaths.refl

/-! ### The replacement -/

/-- The backup goes back to where it was. -/
theorem stays_putBack {parent : List String} {d : RealPath} (h : LeadsToDir t parent d)
    (hd : ws.Inside d) {name : String} (hname : Proper name) {backup : Option (List String)}
    (hbackup : ∀ path, backup = some path → ∃ b stamp,
      path = backupDir ws.root ++ [backupName stamp name] ∧ LeadsToDir t (backupDir ws.root) b ∧
        ws.Inside b) : Stays ws.Inside (putBack backup (parent ++ [name])) t := by
  cases backup with
  | none => exact stays_pure ()
  | some path =>
      obtain ⟨b, stamp, rfl, hb, hinside⟩ := hbackup path rfl
      refine stays_handle.mpr ⟨stays_renameOver.mpr fun k hk k' hk' _ _ _ _ => ?_,
        fun _ _ => stays_pure ()⟩
      obtain ⟨b', hb', rfl⟩ := (locate_concat (backupName_proper _ _)).mp hk
      obtain ⟨d', hd', rfl⟩ := (locate_concat hname).mp hk'
      obtain rfl := hb.unique hb'
      obtain rfl := h.unique hd'
      exact ⟨inside_append hinside _, inside_append hd _⟩

/-- **A replacement reaches past the directory of its target only with the
backup.** -/
theorem stays_replaceFileAtomic (hroot : LeadsToDir t ws.root ws.place) {parent : List String}
    (hparent : ∀ other ∈ parent, Proper other) {d : RealPath} (h : LeadsToDir t parent d)
    (hd : ws.Inside d) {name : String} (hname : Proper name) (data : Bytes) :
    Stays ws.Inside (replaceFileAtomic server.attrs server.stamp server.uuid ws.root
      (parent ++ [name]) data) t ↔ ws.BackupInside server t d name := by
  obtain ⟨hstays, hkeeps, hmoved⟩ := backupExistingFile_spec server hroot h hd hname
  unfold replaceFileAtomic
  rw [stays_bind, hstays]
  refine and_iff_left_of_imp fun hinside backup hbackup => ?_
  have hleads := h.keeps hkeeps
  obtain ⟨hwrites, hkept⟩ := writeBytesAtomic_spec server hparent hleads hd hname data
  refine stays_bind.mpr ⟨stays_handle.mpr ⟨hwrites, fun error _ => ?_⟩, fun _ _ => stays_pure _⟩
  refine stays_bind.mpr ⟨stays_putBack (hleads.keeps hkept) hd hname fun path hpath => ?_,
    fun _ _ => stays_fail _⟩
  obtain ⟨b, stamp, hname', hb, hbinside⟩ := hmoved path (hpath ▸ hbackup) hinside
  exact ⟨b, stamp, hname', hb.keeps hkept, hbinside⟩

/-- A replacement that ends well leaves every path where it led. -/
theorem keepsPaths_replaceFileAtomic (hroot : LeadsToDir t ws.root ws.place) {parent : List String}
    (hparent : ∀ other ∈ parent, Proper other) {d : RealPath} (h : LeadsToDir t parent d)
    (hd : ws.Inside d) {name : String} (hname : Proper name) (data : Bytes)
    {backup : Option (List String)}
    (hok : ((replaceFileAtomic server.attrs server.stamp server.uuid ws.root (parent ++ [name])
      data).run t).result = .ok backup) :
    KeepsPaths t ((replaceFileAtomic server.attrs server.stamp server.uuid ws.root
      (parent ++ [name]) data).run t).tree := by
  obtain ⟨-, hkeeps, -⟩ := backupExistingFile_spec server hroot h hd hname
  obtain ⟨-, hkept⟩ := writeBytesAtomic_spec server hparent (h.keeps hkeeps) hd hname data
  unfold replaceFileAtomic at hok ⊢
  obtain ⟨backup', hbackup, hok, htree⟩ := bind_ok hok
  rw [htree]
  obtain ⟨⟨⟩, hwritten, -, htree'⟩ := bind_ok hok
  rw [htree']
  refine hkeeps.trans ?_
  cases hresult : ((writeBytesAtomic server.attrs server.uuid (parent ++ [name]) data).run
      ((backupExistingFile server.attrs server.stamp ws.root (parent ++ [name])).run
        t).tree).result with
  | ok x =>
      show KeepsPaths _ ((handle _ _).run _).tree
      rw [handle_run_ok hresult]
      exact hkept
  | error error =>
      rw [handle_run_error hresult] at hwritten
      obtain ⟨⟨⟩, -, hfailed, -⟩ := bind_ok hwritten
      cases hfailed

/-! ### Writing a file -/

/-- `write_file` is confined if the directories above are made inside, and the
backup is. -/
theorem confined_writeFile {rawPath : String} {content : Bytes} :
    ws.Confined server (.writeFile rawPath content) ↔
      ws.Allowed server (.writeFile rawPath content) := by
  refine (confined_iff_stays (a := writeFile server ws.root rawPath content) rfl
    fun _ => rfl).trans ?_
  unfold writeFile Allowed
  rw [stays_bind_of_looks (looks_toPath rawPath)]
  simp only [toPath_ok]
  refine forall_congr' fun path => imp_congr_right fun hpath => ?_
  have hproper := pathOf_proper hpath
  obtain ⟨parent, name, rfl⟩ := pathOf_split hpath
  have hname : Proper name := hproper name (by simp)
  have hparent : ∀ other ∈ (parent ++ [name]).dropLast, Proper other := fun other hother =>
    hproper other (List.dropLast_subset _ hother)
  have htree := ensureParentWithin_tree server ws.leads (parent ++ [name])
  have hok := ensureParentWithin_ok server ws.leads hparent
  rw [stays_bind, stays_ensureParentWithin ws.leads hparent, htree]
  rw [List.dropLast_concat] at hparent hok ⊢
  rw [List.getLastD_concat]
  refine and_congr_right fun _ => ?_
  have hroot := root_makedirs server ws.leads hparent
  have hreplace : ∀ d, LeadsToDir (ws.made server parent) parent d → ws.Inside d →
      (Stays ws.Inside (do
          let _ ← mapError .file (replaceFileAtomic server.attrs server.stamp server.uuid ws.root
            (parent ++ [name]) content)
          pure () : Action Problem α Bytes Unit) (ws.made server parent) ↔
        ws.BackupInside server (ws.made server parent) d name) := by
    intro d hd hinside
    exact (stays_bind_pure (f := fun _ => ())).trans
      (stays_replaceFileAtomic hroot hparent hd hinside hname content)
  by_cases hthere : ∃ d, LeadsToDir ws.tree parent d
  · obtain ⟨d, hd⟩ := hthere
    have hmade : ws.made server parent = ws.tree :=
      congrArg Ended.tree (makedirs_there (ε := Problem) hparent hd)
    constructor
    · intro h d' hd' hinside
      rw [← hmade] at hd' ⊢
      exact (hreplace d' hd' hinside).mp (h () (hok.mpr ⟨d', hd', hinside⟩))
    · intro h _ hresult
      obtain ⟨d', hd', hinside⟩ := hok.mp hresult
      refine (hreplace d' hd' hinside).mpr ?_
      change LeadsToDir (ws.made server parent) parent d' at hd'
      rw [hmade] at hd' ⊢
      exact h d' hd' hinside
  · -- a new directory has no file in it
    refine iff_of_true (fun _ hresult => ?_) fun d hd => absurd ⟨d, hd⟩ hthere
    obtain ⟨d, hd, hinside⟩ := hok.mp hresult
    refine (hreplace d hd hinside).mpr fun attrs old hfile => ?_
    have habsent : objectAt ws.tree (parent ++ [] ++ [name]) = none := by
      rw [List.append_nil, Option.eq_none_iff_forall_not_mem]
      intro x hx
      obtain ⟨d', hd', -⟩ := (objectAt_concat_eq_some hname).mp hx
      exact hthere ⟨d', hd'⟩
    have hstill : objectAt (ws.made server parent) (parent ++ [] ++ [name]) = none :=
      objectAt_makedirs rooted hparent (by simp) hname habsent
    rw [List.append_nil] at hstill
    have hnone := (objectAt_concat hname hd).symm.trans hstill
    exact absurd (hnone.symm.trans hfile) (by simp)

/-! ### Uploads -/

/-- The check of a directory that is there changes nothing. -/
theorem ensureParentWithin_there (server : Server α) (hroot : LeadsToDir t ws.root ws.place)
    {parent : List String} (hparent : ∀ other ∈ parent, Proper other) {d : RealPath} (h : LeadsToDir t parent d)
    (name : String) : Looks (ensureParentWithin server ws.root (parent ++ [name])) t ∧
      (((ensureParentWithin server ws.root (parent ++ [name])).run t).result = .ok () ↔
        ws.Inside d) := by
  have hthere : (makedirs server.attrs.dir parent : Action Problem α Bytes Unit).run t =
      ⟨.ok (), t, []⟩ := makedirs_there hparent h
  constructor
  · unfold Looks
    rw [ensureParentWithin_run hroot, List.dropLast_concat, ensureWithin,
      run_bind_ok (by rw [hthere]) (by rw [hthere]), hthere]
    exact looks_check _ _
  · have hproper : ∀ other ∈ (parent ++ [name]).dropLast, Proper other := by
      rw [List.dropLast_concat]
      exact hparent
    rw [ensureParentWithin_ok server hroot hproper, List.dropLast_concat, hthere]
    constructor
    · rintro ⟨d', hd', hinside⟩
      obtain rfl := h.unique hd'
      exact hinside
    · exact fun hinside => ⟨d, h, hinside⟩

theorem fileName_proper {filename name : String} (h : fileName filename = some name) :
    Proper name := by
  unfold fileName at h
  simp only [Option.ite_none_left_eq_some, Option.some.injEq] at h
  obtain ⟨hnot, rfl⟩ := h
  simp only [not_or] at hnot
  exact hnot

/-- What is looked up at the target, unless it may be overwritten. -/
def existing (target : List String) (overwrite : Bool) :
    Action Problem α Bytes (Option (Found α Bytes)) :=
  if overwrite then pure none else lstatIfThere target

theorem looks_existing (target : List String) (overwrite : Bool) :
    Looks (existing target overwrite : Action Problem α Bytes (Option (Found α Bytes))) t := by
  cases overwrite with
  | true => exact looks_look _
  | false => exact looks_lstatIfThere target

theorem existing_none {parent : List String} {d : RealPath} (h : LeadsToDir t parent d)
    {name : String} (hname : Proper name) (overwrite : Bool) :
    ((existing (parent ++ [name]) overwrite :
        Action Problem α Bytes (Option (Found α Bytes))).run t).result = .ok none ↔
      overwrite = true ∨ t.get? (d ++ [name]) = none := by
  cases overwrite with
  | true => exact iff_of_true rfl (.inl rfl)
  | false =>
      unfold existing
      rw [if_neg Bool.false_ne_true, lstatIfThere_ok, (locate_concat hname).mpr ⟨d, h, rfl⟩,
        Option.bind_some, Option.map_eq_none_iff]
      exact (or_iff_right Bool.false_ne_true).symm

/-- Where nothing may be there, what follows is carried out only if nothing is. -/
theorem stays_bind_existing {parent : List String} {d : RealPath} (h : LeadsToDir t parent d)
    {name : String} (hname : Proper name) (overwrite : Bool) {γ : Type}
    {f : Option (Found α Bytes) → Action Problem α Bytes γ}
    (hfound : ∀ x, Stays ws.Inside (f (some x)) t) :
    Stays ws.Inside (existing (parent ++ [name]) overwrite >>= f) t ↔
      (overwrite = true ∨ t.get? (d ++ [name]) = none → Stays ws.Inside (f none) t) := by
  rw [stays_bind_of_looks (looks_existing _ _), ← existing_none h hname overwrite]
  constructor
  · exact fun hall hnone => hall none hnone
  · intro hall found hresult
    cases found with
    | some x => exact hfound x
    | none => exact hall hresult

/-- A source that may be written: its target is replaced, and the loop goes on. -/
def uploadNext (server : Server α) (root directory : List String) (overwrite : Bool)
    (source : UploadSource) (rest : List UploadSource) (name : String) :
    Action Problem α Bytes (List UploadItem) := do
  let backup ← mapError .file (replaceFileAtomic server.attrs server.stamp server.uuid root
    (directory ++ [name]) source.data)
  let items ← uploadEach server root directory overwrite rest
  pure (⟨name, display root (directory ++ [name]), source.data.length, server.sha256 source.data,
    (backup.map (display root)).getD ""⟩ :: items)

/-- The replacement of one target, and what the loop does after it. -/
theorem stays_uploadNext (server : Server α) (source : UploadSource)
    (hroot : LeadsToDir t ws.root ws.place) {path : List String}
    (hpath : ∀ other ∈ path, Proper other) {d : RealPath} (h : LeadsToDir t path d)
    (hd : ws.Inside d) {name : String} (hname : Proper name) {overwrite : Bool}
    {rest : List UploadSource}
    (hrest : ∀ t', KeepsPaths t t' →
      (Stays ws.Inside (uploadEach server ws.root path overwrite rest) t' ↔
        ws.UploadsInside server path d overwrite t' rest)) :
    Stays ws.Inside (uploadNext server ws.root path overwrite source rest name) t ↔
      ws.BackupInside server t d name ∧ ∀ backup,
        ((replaceFileAtomic server.attrs server.stamp server.uuid ws.root (path ++ [name])
          source.data).run t).result = .ok backup →
        ws.UploadsInside server path d overwrite
          ((replaceFileAtomic server.attrs server.stamp server.uuid ws.root (path ++ [name])
            source.data).run t).tree rest := by
  unfold uploadNext
  rw [stays_bind]
  refine and_congr (stays_replaceFileAtomic hroot hpath h hd hname source.data) ?_
  refine forall_congr' fun backup => ?_
  rw [mapError_ok]
  refine imp_congr_right fun hbackup => ?_
  have hkept := keepsPaths_replaceFileAtomic hroot hpath h hd hname source.data hbackup
  exact stays_bind_pure.trans (hrest _ hkept)

/-- **The loop over the sources**: past the check each of them is a replacement
in the directory. -/
theorem stays_uploadEach {path : List String} (hpath : ∀ other ∈ path, Proper other)
    (overwrite : Bool) (sources : List UploadSource) {t : FileTree α Bytes}
    (hroot : LeadsToDir t ws.root ws.place) {d : RealPath} (h : LeadsToDir t path d) :
    Stays ws.Inside (uploadEach server ws.root path overwrite sources) t ↔
      (ws.Inside d → ws.UploadsInside server path d overwrite t sources) := by
  induction sources generalizing t with
  | nil => exact iff_of_true (stays_look _) fun _ => trivial
  | cons source rest ih =>
      unfold uploadEach UploadsInside
      cases hsource : fileName source.filename with
      | none => exact iff_of_true (stays_raise _) fun _ _ hname => by cases hname
      | some name =>
          have hname := fileName_proper hsource
          obtain ⟨hlooks, hok⟩ := ensureParentWithin_there server hroot hpath h name
          simp only [Option.some.injEq, forall_eq']
          rw [stays_bind_of_looks hlooks]
          by_cases hd : ws.Inside d
          · have hnext := stays_uploadNext server source hroot hpath h hd hname fun t' hkept =>
                (ih (hroot.keeps hkept) (h.keeps hkept)).trans
                  ⟨fun hall => hall hd, fun hall _ => hall⟩
            refine Iff.trans ⟨fun hall => hall () (hok.mpr hd), fun hall _ _ => hall⟩ ?_
            refine Iff.trans ?_ (forall_prop_of_true hd).symm
            cases overwrite with
            | true =>
                rw [if_pos rfl]
                exact Iff.trans (stays_bind_existing h hname true fun x => stays_raise _)
                  (imp_congr_right fun _ => hnext)
            | false =>
                rw [if_neg Bool.false_ne_true]
                exact Iff.trans (stays_bind_existing h hname false fun x => stays_raise _)
                  (imp_congr_right fun _ => hnext)
          · exact iff_of_true (fun _ hresult => absurd (hok.mp hresult) hd) fun hinside =>
              absurd hinside hd

/-- `upload_files` is confined if the directory is made inside, and each backup
is. -/
theorem confined_uploadFiles {rawPath : String} {sources : List UploadSource} {overwrite : Bool} :
    ws.Confined server (.uploadFiles rawPath sources overwrite) ↔
      ws.Allowed server (.uploadFiles rawPath sources overwrite) := by
  refine (confined_iff_stays (a := uploadFiles server ws.root rawPath sources overwrite) rfl
    fun _ => rfl).trans ?_
  unfold uploadFiles Allowed
  rw [stays_bind_of_looks (looks_toPath rawPath)]
  simp only [toPath_ok]
  refine forall_congr' fun path => imp_congr_right fun hpath => ?_
  have hproper := pathOf_proper hpath
  have hroot : LeadsToDir (ws.made server path) ws.root ws.place := root_makedirs server ws.leads hproper
  have hrooted : ws.tree.DirAt [] := rooted
  have hmade : ((makedirs server.attrs.dir path : Action Problem α Bytes Unit).run
      ws.tree).result = .ok () ↔ _ := makedirs_ok_iff hrooted hproper
  rw [stays_bind, stays_makedirs hproper]
  refine and_congr_right fun _ => ?_
  constructor
  · intro h d hd hinside
    exact (stays_uploadEach hproper overwrite sources hroot hd).mp
      (h () (hmade.mpr ⟨d, hd⟩)) hinside
  · intro h _ hresult
    obtain ⟨d, hd⟩ := hmade.mp hresult
    exact (stays_uploadEach hproper overwrite sources hroot hd).mpr (h d hd)

/-- **An operation is confined exactly when what it makes before its check, where
it moves a backup, and what it does with the entries it names, is inside.** -/
theorem confined_iff (server : Server α) (ws : Workspace α) (operation : Operation) :
    ws.Confined server operation ↔ ws.Allowed server operation := by
  cases operation with
  | listFiles rawPath => exact confined_listFiles
  | fileInfo rawPath => exact confined_fileInfo
  | readFile rawPath maxBytes => exact iff_of_true confined_readFile trivial
  | uploadFiles rawPath sources overwrite => exact confined_uploadFiles
  | downloadPaths rawPaths => exact iff_of_true confined_downloadPaths trivial
  | writeFile rawPath content => exact confined_writeFile
  | copyFiles sources destination => exact confined_copyFiles
  | moveFiles sources destination => exact confined_moveFiles
  | deleteFiles rawPaths => exact confined_deleteFiles
  | makeDirectory rawPath => exact confined_makeDirectory

end Replacing

/-! ### A directory that is made outside -/

theorem tempName_unused (t : FileTree α Bytes) (k : RealPath) :
    t.get? (k ++ [tempName (unusedName t)]) = none := by
  cases hget : t.get? (k ++ [tempName (unusedName t)]) with
  | none => rfl
  | some x =>
      have hle := length_le_weight (hget.symm ▸ Option.some_ne_none x)
      unfold tempName at hle
      rw [String.length_append, String.length_append, length_unusedName] at hle
      omega

/-- A server that adds nothing of its own. -/
def plainServer : Server Unit where
  attrs := ⟨(), ()⟩
  listsDots := false
  uuid := unusedName
  stamp := unusedName
  lower := id
  sha256 := fun _ => ""
  guessType := fun _ => none
  recursionLimit := 1000
  stderr := ""
  uuid_unused := tempName_unused

/-- A workspace with a link to a directory outside. -/
def linkedTree : FileTree Unit Bytes :=
  .dir () [("etc", .dir () []), ("h", .dir () [(".zj", .dir () [("sandboxes", .dir () [("1",
    .dir () [("workspace", .dir () [("out", .link () ⟨true, ["etc"]⟩)])])])])])]

theorem linkedTree_leads : LeadsToDir linkedTree (remoteRoot ["h"] 1)
    ["h", ".zj", "sandboxes", "1", "workspace"] := ⟨by decide, (), _, rfl⟩

theorem proper_home : ∀ name ∈ ["h"], Proper name := by decide

def linked : Workspace Unit where
  tree := linkedTree
  home := ["h"]
  containerId := 1
  place := ["h", ".zj", "sandboxes", "1", "workspace"]
  home_proper := proper_home
  positive := Nat.one_ne_zero
  leads := linkedTree_leads

theorem linked_path : linked.pathOf "/out/sub/x" =
    some ["h", ".zj", "sandboxes", "1", "workspace", "out", "sub", "x"] := by decide

theorem linked_missing : firstMissing linkedTree []
    ["h", ".zj", "sandboxes", "1", "workspace", "out", "sub"] = some ["etc", "sub"] := by decide

/-- The tree with the directory that is made. -/
def linkedMade : FileTree Unit Bytes := linkedTree.update ["etc", "sub"] (some (.dir () []))

theorem linked_made : (makedirs () ["h", ".zj", "sandboxes", "1", "workspace", "out", "sub"] :
    Action Problem Unit Bytes Unit).run linkedTree = ⟨.ok (), linkedMade, [["etc", "sub"]]⟩ := by
  rfl

theorem linked_led : canonical linkedMade
    ["h", ".zj", "sandboxes", "1", "workspace", "out", "sub"] = some ["etc", "sub"] := by decide

/-- The parent is checked after it is made. -/
theorem linked_checked : (ensureParentWithin plainServer linked.root
    ["h", ".zj", "sandboxes", "1", "workspace", "out", "sub", "x"]).run linked.tree =
      ⟨.error (.raised (permissionError "path escapes the portable workspace")), linkedMade,
        [["etc", "sub"]]⟩ := by
  have hmade : (makedirs plainServer.attrs.dir
      ["h", ".zj", "sandboxes", "1", "workspace", "out", "sub"] :
        Action Problem Unit Bytes Unit).run linked.tree = ⟨.ok (), linkedMade, [["etc", "sub"]]⟩ :=
    linked_made
  have hled := realpath_ok (ε := Problem) |>.mpr linked_led
  have hwithin : isWithin linked.place ["etc", "sub"] = false := by decide
  rw [ensureParentWithin_run linked.leads]
  show (ensureWithin plainServer linked.place
    ["h", ".zj", "sandboxes", "1", "workspace", "out", "sub"]).run linked.tree = _
  unfold ensureWithin
  rw [bind_run (congrArg Ended.result hmade), hmade]
  simp only
  rw [run_bind_ok hled rfl, hwithin]
  rfl

theorem linked_refused : ((perform plainServer linked.home linked.containerId
    (.makeDirectory "/out/sub/x")).run linked.tree).result =
      .error (.raised (permissionError "path escapes the portable workspace")) := by
  have hsession : (sftpSession plainServer linked.home linked.containerId :
      Action Problem Unit Bytes (List String)).run linked.tree = ⟨.ok linked.root, linked.tree, []⟩ :=
    sftpSession_run
  have hpath := (toPath_ok (t := linked.tree)).mpr linked_path
  have hlooks : Looks (toPath linked.root "/out/sub/x" : Action Problem Unit Bytes (List String))
      linked.tree := looks_toPath _
  unfold perform
  rw [run_bind_ok (by rw [hsession]) (by rw [hsession]), hsession]
  have hmakes : ((makeDirectory plainServer linked.root "/out/sub/x").run linked.tree).result =
      .error (.raised (permissionError "path escapes the portable workspace")) := by
    unfold makeDirectory
    rw [run_bind_ok hpath hlooks.2, hlooks.1, bind_run_error (congrArg Ended.result linked_checked)]
  unfold performAt
  rw [bind_run_error hmakes]

/-- `make_directory` raises `PermissionError`, and has made a directory outside. -/
theorem check_after_making : ¬ linked.Confined plainServer (.makeDirectory "/out/sub/x") ∧
    ((perform plainServer linked.home linked.containerId
      (.makeDirectory "/out/sub/x")).run linked.tree).result =
        .error (.raised (permissionError "path escapes the portable workspace")) := by
  refine ⟨fun hconfined => ?_, linked_refused⟩
  have hinside : linked.place <+: ["etc", "sub"] :=
    confined_makeDirectory.mp hconfined _ linked_path ["etc", "sub"] linked_missing
  have houtside : ¬ ["h", ".zj", "sandboxes", "1", "workspace"] <+: ["etc", "sub"] := by decide
  exact houtside hinside

end Workspace

end Workbench.RemoteFiles
