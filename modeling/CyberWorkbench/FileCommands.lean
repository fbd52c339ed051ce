import CyberWorkbench.FileActions

/-!
# The file commands of a shell

`rm -rf`, `mv` and `cp -a` with several operands, as actions on a tree of
files.  A command takes its operands in turn, and one that fails does not stop
the others.

`rm` and `mv` deal with the entry that an operand names, which may be a link.
`cp -a` copies a link as a link, but it opens the file that it writes, and goes
into the directory that it finds, along the links of the destination.
-/

namespace FileTree

variable {ε α β : Type}

namespace Action

variable {inside : RealPath → Prop} {t : FileTree α β}

/-- A command ends well if all its parts do. -/
def both (first others : Except (FileError ε) Unit) : Action ε α β Unit :=
  match first, others with
  | .ok (), .ok () => pure ()
  | _, _ => fail .failure

theorem stays_both (first others : Except (FileError ε) Unit) (t : FileTree α β) :
    Stays inside (both first others : Action ε α β Unit) t := by
  unfold both
  split
  · exact stays_pure ()
  · exact stays_fail _

/-- Carry out an action for one operand after the other. -/
def forOperands (act : List String → Action ε α β Unit) : List (List String) → Action ε α β Unit
  | [] => pure ()
  | path :: rest => do
      let first ← attempt (act path)
      let others ← attempt (forOperands act rest)
      both first others

/-- What holds of each operand, on the tree as the operands before it left
it. -/
def AtEachOperand (act : List String → Action ε α β Unit) (good : FileTree α β → List String → Prop) :
    FileTree α β → List (List String) → Prop
  | _, [] => True
  | t, path :: rest => good t path ∧ AtEachOperand act good ((act path).run t).tree rest

theorem stays_forOperands {act : List String → Action ε α β Unit}
    {good : FileTree α β → List String → Prop}
    (hgood : ∀ t path, Stays inside (act path) t ↔ good t path) (paths : List (List String)) :
    Stays inside (forOperands act paths) t ↔ AtEachOperand act good t paths := by
  induction paths generalizing t with
  | nil => simp [forOperands, AtEachOperand]
  | cons path rest ih =>
      unfold forOperands AtEachOperand
      rw [stays_bind, stays_attempt, hgood]
      refine and_congr_right fun _ => ?_
      constructor
      · intro h
        exact ih.mp ((stays_bind.mp (h _ rfl)).1)
      · intro h first hfirst
        exact stays_bind.mpr ⟨ih.mpr h, fun others _ => stays_both first others _⟩

/-! ### Removing and moving -/

/-- `rm -rf` of one operand. -/
def rm (path : List String) : Action ε α β Unit :=
  withTree fun t =>
    match (locate t path).filter fun k => (t.get? k).isSome with
    | none => pure ()
    | some k => replace k none

/-- The entry that `rm` takes away is inside. -/
def RmInside (inside : RealPath → Prop) (t : FileTree α β) (path : List String) : Prop :=
  ∀ k, locate t path = some k → t.get? k ≠ none → inside k

theorem stays_rm {path : List String} :
    Stays inside (rm path : Action ε α β Unit) t ↔ RmInside inside t path := by
  unfold rm RmInside
  rw [stays_withTree]
  cases hlocate : locate t path with
  | none => simp
  | some k =>
      cases hget : t.get? k with
      | none => simp [hget, Option.filter]
      | some x => simp [hget, Option.filter, stays_replace]

/-- What `mv` may replace: a directory that is empty, and what is none, by one
of its kind. -/
def mvOver : FileTree α β → FileTree α β → Bool
  | .dir .., .dir _ entries => entries.isEmpty
  | .dir .., _ => false
  | _, y => !y.isDir

/-- The path that an operand gets in a directory. -/
def pathInto (target path : List String) : List String := target ++ [path.getLastD ""]

/-- `mv` of one operand into a directory. -/
def mvInto (target path : List String) : Action ε α β Unit := renameOver mvOver path (pathInto target path)

/-- Where `mv` takes the entry from and where it puts it is inside. -/
def MvInside (inside : RealPath → Prop) (target : List String) (t : FileTree α β)
    (path : List String) : Prop :=
  ∀ k, locate t path = some k → ∀ k', locate t (pathInto target path) = some k' →
    ∀ x, t.get? k = some x → k.isPrefixOf k' = false → (t.get? k').all (mvOver x) = true →
    inside k ∧ inside k'

theorem stays_mvInto {target path : List String} :
    Stays inside (mvInto target path : Action ε α β Unit) t ↔ MvInside inside target t path :=
  stays_renameOver

/-! ### Copying -/

/-- Make a link, in the place of whatever is no directory. -/
def copyLink (attrs : α) (target : LinkTarget) (path : List String) : Action ε α β Unit :=
  withTree fun t =>
    match locate t path with
    | none => fail .noSuchFile
    | some k => if (t.get? k).any isDir then fail .failure else replace k (some (.link attrs target))

/-- Write a file, along a link at the end of the path. -/
def copyFile (attrs : α) (content : β) (path : List String) : Action ε α β Unit :=
  withTree fun t =>
    match canonical t path with
    | none => fail .noSuchFile
    | some k =>
        if (t.get? k).all isFile then replace k (some (.file attrs content)) else fail .failure

/-- Go into a directory, made if nothing is there. -/
def copyDir (attrs : α) (path : List String) : Action ε α β Unit :=
  withTree fun t =>
    if ((resolve t path).bind t.get?).any isDir then pure () else mkdir attrs path

mutual

/-- Copy an object to a path: a link as a link, a directory with its entries. -/
def copyNode : FileTree α β → List String → Action ε α β Unit
  | .link attrs target, path => copyLink attrs target path
  | .file attrs content, path => copyFile attrs content path
  | .dir attrs entries, path => do
      copyDir attrs path
      copyEntries entries path

def copyEntries : List (String × FileTree α β) → List String → Action ε α β Unit
  | [], _ => pure ()
  | (name, x) :: rest, path => do
      let first ← attempt (copyNode x (path ++ [name]))
      let others ← attempt (copyEntries rest path)
      both first others

end

mutual

/-- All that copying an object writes is inside: where a link is put, where the
path of a file leads, where a directory is made. -/
def CopyInside (ε : Type) (inside : RealPath → Prop) :
    FileTree α β → List String → FileTree α β → Prop
  | .link _ _, path, t =>
      ∀ k, locate t path = some k → (t.get? k).any isDir = false → inside k
  | .file _ _, path, t =>
      ∀ k, canonical t path = some k → (t.get? k).all isFile = true → inside k
  | .dir attrs entries, path, t =>
      (((resolve t path).bind t.get?).any isDir = false →
        ∀ k, locate t path = some k → t.get? k = none → inside k) ∧
      (((copyDir attrs path : Action ε α β Unit).run t).result = .ok () →
        CopyEntriesInside ε inside entries path ((copyDir attrs path : Action ε α β Unit).run t).tree)

def CopyEntriesInside (ε : Type) (inside : RealPath → Prop) :
    List (String × FileTree α β) → List String → FileTree α β → Prop
  | [], _, _ => True
  | (name, x) :: rest, path, t =>
      CopyInside ε inside x (path ++ [name]) t ∧
      CopyEntriesInside ε inside rest path
        ((copyNode x (path ++ [name]) : Action ε α β Unit).run t).tree

end

theorem stays_copyLink {attrs : α} {target : LinkTarget} {path : List String} :
    Stays inside (copyLink attrs target path : Action ε α β Unit) t ↔
      ∀ k, locate t path = some k → (t.get? k).any isDir = false → inside k := by
  unfold copyLink
  rw [stays_withTree]
  cases hlocate : locate t path with
  | none => simp
  | some k =>
      cases hany : (t.get? k).any isDir with
      | true => simp [hany]
      | false => simp [hany, stays_replace]

theorem stays_copyFile {attrs : α} {content : β} {path : List String} :
    Stays inside (copyFile attrs content path : Action ε α β Unit) t ↔
      ∀ k, canonical t path = some k → (t.get? k).all isFile = true → inside k := by
  unfold copyFile
  rw [stays_withTree]
  cases hcanonical : canonical t path with
  | none => simp
  | some k =>
      cases hall : (t.get? k).all isFile with
      | true => simp [hall, stays_replace]
      | false => simp [hall]

theorem stays_copyDir {attrs : α} {path : List String} :
    Stays inside (copyDir attrs path : Action ε α β Unit) t ↔
      (((resolve t path).bind t.get?).any isDir = false →
        ∀ k, locate t path = some k → t.get? k = none → inside k) := by
  unfold copyDir
  rw [stays_withTree]
  cases hany : ((resolve t path).bind t.get?).any isDir with
  | true => simp
  | false => simp [stays_mkdir]

mutual

/-- **Copying stays inside exactly when all that it writes is inside.** -/
theorem stays_copyNode (x : FileTree α β) (path : List String) (t : FileTree α β) :
    Stays inside (copyNode x path : Action ε α β Unit) t ↔ CopyInside ε inside x path t := by
  cases x with
  | link attrs target =>
      unfold copyNode CopyInside
      exact stays_copyLink
  | file attrs content =>
      unfold copyNode CopyInside
      exact stays_copyFile
  | dir attrs entries =>
      unfold copyNode CopyInside
      rw [stays_bind, stays_copyDir]
      refine and_congr_right fun _ => ⟨fun h hok => ?_, fun h _ hok => ?_⟩
      · exact (stays_copyEntries entries path _).mp (h () hok)
      · exact (stays_copyEntries entries path _).mpr (h hok)

theorem stays_copyEntries (entries : List (String × FileTree α β)) (path : List String)
    (t : FileTree α β) :
    Stays inside (copyEntries entries path : Action ε α β Unit) t ↔
      CopyEntriesInside ε inside entries path t := by
  cases entries with
  | nil =>
      unfold copyEntries CopyEntriesInside
      simp
  | cons entry rest =>
      obtain ⟨name, x⟩ := entry
      unfold copyEntries CopyEntriesInside
      rw [stays_bind, stays_attempt, stays_copyNode x (path ++ [name]) t]
      refine and_congr_right fun _ => ⟨fun h => ?_, fun h first _ => ?_⟩
      · exact (stays_copyEntries rest path _).mp ((stays_bind.mp (h _ rfl)).1)
      · exact stays_bind.mpr ⟨(stays_copyEntries rest path _).mpr h, fun others _ => stays_both _ _ _⟩

end

/-- The operand is a directory that holds the one it is to be copied into. -/
def copiesIntoItself (t : FileTree α β) (target : List String) (found : Found α β) : Bool :=
  found.object.isDir && (canonical t target).any (found.place.isPrefixOf ·)

/-- `cp -a` of one operand into a directory; a directory is not copied into
itself. -/
def cpInto (target path : List String) : Action ε α β Unit :=
  withTree fun t =>
    match (locate t path).bind fun k => (t.get? k).map (Found.mk k) with
    | none => fail .noSuchFile
    | some found =>
        if copiesIntoItself t target found then fail .failure
        else copyNode found.object (pathInto target path)

/-- All that `cp` writes for an operand is inside. -/
def CpInside (ε : Type) (inside : RealPath → Prop) (target : List String) (t : FileTree α β)
    (path : List String) : Prop :=
  ∀ k, locate t path = some k → ∀ x, t.get? k = some x →
    copiesIntoItself t target ⟨k, x⟩ = false → CopyInside ε inside x (pathInto target path) t

theorem stays_cpInto {target path : List String} :
    Stays inside (cpInto target path : Action ε α β Unit) t ↔ CpInside ε inside target t path := by
  unfold cpInto CpInside
  rw [stays_withTree]
  cases hlocate : locate t path with
  | none => simp
  | some k =>
      cases hget : t.get? k with
      | none => simp [hget]
      | some x =>
          cases hself : copiesIntoItself t target ⟨k, x⟩ with
          | true => simp [hget, hself]
          | false => simp [hget, hself, stays_copyNode]

end Action

end FileTree
