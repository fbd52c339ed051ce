import CyberWorkbench.FileTree

/-!
# Actions on a tree of files

An action runs on a tree and ends with a result or an error, a tree, and a
record of the real paths it *touched*: created, changed or deleted, with
everything below.  The record is complete by construction: an action carries
the proof that every object it has not touched is what it was.

`Stays inside a t` says that all the action touches from `t` is inside some
place.  For a sequence of actions that is exactly that each of them stays where
it is carried out (`stays_bind`), so conditions for a program are assembled
from those for its steps.

The steps are those of a POSIX file system: they follow the links of a path,
and creating, renaming and removing do not follow one at its end.
-/

namespace FileTree

/-- Why an action ended early: nothing there, a refusal of the file system, or
an error that the program raised. -/
inductive FileError (ε : Type) where
  | noSuchFile
  | failure
  | raised (error : ε)
  deriving DecidableEq, Repr

/-- How an action ends. -/
structure Ended (ε α β γ : Type) where
  result : Except (FileError ε) γ
  tree : FileTree α β
  touched : List RealPath := []

/-- An action, with the proof that what it has not touched stays. -/
structure Action (ε α β γ : Type) where
  run : FileTree α β → Ended ε α β γ
  frame : ∀ (t : FileTree α β) (k' : RealPath), (∀ k ∈ (run t).touched, ¬ k <+: k') →
    ((run t).tree.get? k').map label = (t.get? k').map label

namespace Action

variable {ε α β γ δ : Type}

/-- An action that only looks. -/
def look (f : FileTree α β → Except (FileError ε) γ) : Action ε α β γ where
  run t := ⟨f t, t, []⟩
  frame _ _ _ := rfl

protected def pure (a : γ) : Action ε α β γ := look fun _ => .ok a

/-- Raise an error. -/
def raise (error : ε) : Action ε α β γ := look fun _ => .error (.raised error)

/-- End with an error. -/
def fail (error : FileError ε) : Action ε α β γ := look fun _ => .error error

/-- One action after the other. -/
protected def bind (a : Action ε α β γ) (f : γ → Action ε α β δ) : Action ε α β δ where
  run t :=
    match (a.run t).result with
    | .error error => ⟨.error error, (a.run t).tree, (a.run t).touched⟩
    | .ok x => ⟨((f x).run (a.run t).tree).result, ((f x).run (a.run t).tree).tree,
        (a.run t).touched ++ ((f x).run (a.run t).tree).touched⟩
  frame t k' h := by
    cases hresult : (a.run t).result with
    | error error =>
        simp only [hresult] at h ⊢
        exact a.frame t k' h
    | ok x =>
        simp only [hresult] at h ⊢
        rw [(f x).frame _ k' fun k hk => h k (List.mem_append_right _ hk)]
        exact a.frame t k' fun k hk => h k (List.mem_append_left _ hk)

instance : Monad (Action ε α β) where
  pure := Action.pure
  bind := Action.bind

/-- The action as one that does not end early: `try`. -/
def attempt (a : Action ε α β γ) : Action ε α β (Except (FileError ε) γ) where
  run t := ⟨.ok (a.run t).result, (a.run t).tree, (a.run t).touched⟩
  frame := a.frame

/-- Replace what stands at a real path. -/
def replace (k : RealPath) (x : Option (FileTree α β)) : Action ε α β Unit where
  run t := ⟨.ok (), t.update k x, [k]⟩
  frame t k' h := label_update x (h k (List.mem_singleton_self k))

/-! ### Staying inside -/

/-- All that the action touches is inside. -/
def Stays (inside : RealPath → Prop) (a : Action ε α β γ) (t : FileTree α β) : Prop :=
  ∀ k ∈ (a.run t).touched, inside k

variable {inside : RealPath → Prop} {t : FileTree α β}

@[simp] theorem stays_look (f : FileTree α β → Except (FileError ε) γ) :
    Stays inside (look f) t := fun _ h => by cases h

@[simp] theorem stays_pure (a : γ) : Stays inside (pure a : Action ε α β γ) t :=
  fun _ h => by cases h

@[simp] theorem stays_raise (error : ε) : Stays inside (raise error : Action ε α β γ) t :=
  fun _ h => by cases h

@[simp] theorem stays_fail (error : FileError ε) :
    Stays inside (fail error : Action ε α β γ) t := fun _ h => by cases h

@[simp] theorem stays_attempt (a : Action ε α β γ) :
    Stays inside a.attempt t ↔ Stays inside a t := Iff.rfl

@[simp] theorem replace_run (k : RealPath) (x : Option (FileTree α β)) :
    (replace k x : Action ε α β Unit).run t = ⟨.ok (), t.update k x, [k]⟩ := rfl

theorem stays_replace {k : RealPath} {x : Option (FileTree α β)} :
    Stays inside (replace k x : Action ε α β Unit) t ↔ inside k := by
  unfold Stays replace
  simp

/-- **A sequence stays inside exactly when each part does.** -/
theorem stays_bind {a : Action ε α β γ} {f : γ → Action ε α β δ} :
    Stays inside (a >>= f) t ↔ Stays inside a t ∧
      ∀ x, (a.run t).result = .ok x → Stays inside (f x) (a.run t).tree := by
  show Stays inside (Action.bind a f) t ↔ _
  unfold Stays Action.bind
  cases hresult : (a.run t).result with
  | error error => simp [hresult]
  | ok x =>
      simp only [hresult, Except.ok.injEq, forall_eq']
      constructor
      · intro h
        exact ⟨fun k hk => h k (List.mem_append_left _ hk),
          fun k hk => h k (List.mem_append_right _ hk)⟩
      · rintro ⟨ha, hf⟩ k hk
        exact (List.mem_append.mp hk).elim (ha k) (hf k)

/-- What a sequence that ends well has done. -/
theorem bind_ok {a : Action ε α β γ} {f : γ → Action ε α β δ} {y : δ}
    (h : ((a >>= f).run t).result = .ok y) :
    ∃ x, (a.run t).result = .ok x ∧ ((f x).run (a.run t).tree).result = .ok y ∧
      ((a >>= f).run t).tree = ((f x).run (a.run t).tree).tree := by
  change ((Action.bind a f).run t).result = .ok y at h
  show ∃ x, _ ∧ _ ∧ ((Action.bind a f).run t).tree = _
  unfold Action.bind at h ⊢
  cases hresult : (a.run t).result with
  | error error => simp [hresult] at h
  | ok x =>
      simp only [hresult] at h ⊢
      exact ⟨x, rfl, h, rfl⟩

/-- A sequence whose first part ends with a value. -/
theorem run_bind_ok {a : Action ε α β γ} {f : γ → Action ε α β δ} {x : γ}
    (h : (a.run t).result = .ok x) (hnothing : (a.run t).touched = []) :
    (a >>= f).run t = (f x).run (a.run t).tree := by
  show (Action.bind a f).run t = _
  unfold Action.bind
  simp [h, hnothing]

/-- An action that stays inside leaves every object outside what it was. -/
theorem Stays.outside {a : Action ε α β γ} (h : Stays inside a t) {k' : RealPath}
    (hout : ∀ k, inside k → ¬ k <+: k') :
    ((a.run t).tree.get? k').map label = (t.get? k').map label :=
  a.frame t k' fun k hk => hout k (h k hk)

/-- What an action that keeps every path keeps. -/
def Keeps (a : Action ε α β γ) (t : FileTree α β) : Prop := KeepsPaths t (a.run t).tree

theorem keeps_look (f : FileTree α β → Except (FileError ε) γ) :
    Keeps (look f) t := KeepsPaths.refl

theorem keeps_bind {a : Action ε α β γ} {f : γ → Action ε α β δ} (ha : Keeps a t)
    (hf : ∀ x, (a.run t).result = .ok x → Keeps (f x) (a.run t).tree) : Keeps (a >>= f) t := by
  show KeepsPaths t ((Action.bind a f).run t).tree
  unfold Action.bind
  cases hresult : (a.run t).result with
  | error error =>
      simp only [hresult]
      exact ha
  | ok x =>
      simp only [hresult]
      exact KeepsPaths.trans ha (hf x hresult)

/-! ### Errors, and actions that only look -/

/-- A sequence whose first part ends with an error. -/
theorem bind_run_error {a : Action ε α β γ} {f : γ → Action ε α β δ} {error : FileError ε}
    (h : (a.run t).result = .error error) :
    (a >>= f).run t = ⟨.error error, (a.run t).tree, (a.run t).touched⟩ := by
  show (Action.bind a f).run t = _
  unfold Action.bind
  simp [h]

/-- A sequence whose first part ends with a value, whatever it has touched. -/
theorem bind_run {a : Action ε α β γ} {f : γ → Action ε α β δ} {x : γ}
    (h : (a.run t).result = .ok x) :
    (a >>= f).run t = ⟨((f x).run (a.run t).tree).result, ((f x).run (a.run t).tree).tree,
      (a.run t).touched ++ ((f x).run (a.run t).tree).touched⟩ := by
  show (Action.bind a f).run t = _
  unfold Action.bind
  simp only [h]

/-- `except`: go on after an error. -/
def handle (a : Action ε α β γ) (f : FileError ε → Action ε α β γ) : Action ε α β γ := do
  match (← attempt a) with
  | .ok x => pure x
  | .error error => f error

/-- `finally`: do another thing in any case. -/
def ensuring (a : Action ε α β γ) (b : Action ε α β Unit) : Action ε α β γ := do
  let result ← attempt a
  b
  look fun _ => result

/-- The action with its own errors renamed. -/
def mapError {ε' : Type} (rename : ε → ε') (a : Action ε α β γ) : Action ε' α β γ where
  run t :=
    ⟨(a.run t).result.mapError fun error =>
        match error with
        | .noSuchFile => .noSuchFile
        | .failure => .failure
        | .raised error => .raised (rename error),
      (a.run t).tree, (a.run t).touched⟩
  frame := a.frame

theorem handle_run_ok {a : Action ε α β γ} {f : FileError ε → Action ε α β γ} {x : γ}
    (h : (a.run t).result = .ok x) :
    (handle a f).run t = ⟨.ok x, (a.run t).tree, (a.run t).touched⟩ := by
  unfold handle
  rw [bind_run (a := attempt a) rfl]
  unfold attempt
  simp only [h]
  show Ended.mk _ _ ((a.run t).touched ++ []) = _
  rw [List.append_nil]
  rfl

theorem handle_run_error {a : Action ε α β γ} {f : FileError ε → Action ε α β γ}
    {error : FileError ε} (h : (a.run t).result = .error error) :
    (handle a f).run t = ⟨((f error).run (a.run t).tree).result, ((f error).run (a.run t).tree).tree,
      (a.run t).touched ++ ((f error).run (a.run t).tree).touched⟩ := by
  unfold handle
  rw [bind_run (a := attempt a) rfl]
  unfold attempt
  simp only [h]

theorem ensuring_run_ok {a : Action ε α β γ} {b : Action ε α β Unit}
    (h : (b.run (a.run t).tree).result = .ok ()) :
    (ensuring a b).run t = ⟨(a.run t).result, (b.run (a.run t).tree).tree,
      (a.run t).touched ++ (b.run (a.run t).tree).touched⟩ := by
  unfold ensuring
  rw [bind_run (a := attempt a) rfl]
  unfold attempt
  simp only
  rw [bind_run h]
  show Ended.mk _ _ ((a.run t).touched ++ ((b.run (a.run t).tree).touched ++ [])) = _
  rw [List.append_nil]
  rfl

theorem ensuring_run_error {a : Action ε α β γ} {b : Action ε α β Unit} {error : FileError ε}
    (h : (b.run (a.run t).tree).result = .error error) :
    (ensuring a b).run t = ⟨.error error, (b.run (a.run t).tree).tree,
      (a.run t).touched ++ (b.run (a.run t).tree).touched⟩ := by
  unfold ensuring
  rw [bind_run (a := attempt a) rfl]
  unfold attempt
  simp only
  rw [bind_run_error h]

theorem stays_handle {a : Action ε α β γ} {f : FileError ε → Action ε α β γ} :
    Stays inside (handle a f) t ↔ Stays inside a t ∧
      ∀ error, (a.run t).result = .error error → Stays inside (f error) (a.run t).tree := by
  unfold handle
  rw [stays_bind, stays_attempt]
  refine and_congr_right fun _ => ?_
  constructor
  · exact fun h error herror => h (.error error) (congrArg Except.ok herror)
  · intro h result hresult
    cases result with
    | ok x => exact stays_pure x
    | error error => exact h error (Except.ok.inj hresult)

theorem stays_ensuring {a : Action ε α β γ} {b : Action ε α β Unit} :
    Stays inside (ensuring a b) t ↔ Stays inside a t ∧ Stays inside b (a.run t).tree := by
  unfold ensuring
  rw [stays_bind, stays_attempt]
  refine and_congr_right fun _ => ?_
  constructor
  · exact fun h => (stays_bind.mp (h _ rfl)).1
  · exact fun h result _ => stays_bind.mpr ⟨h, fun _ _ => stays_look _⟩

theorem stays_mapError {ε' : Type} {rename : ε → ε'} {a : Action ε α β γ} :
    Stays inside (a.mapError rename) t ↔ Stays inside a t := Iff.rfl

theorem mapError_ok {ε' : Type} {rename : ε → ε'} {a : Action ε α β γ} {x : γ} :
    ((a.mapError rename).run t).result = .ok x ↔ (a.run t).result = .ok x := by
  unfold mapError
  cases hresult : (a.run t).result with
  | ok y =>
      simp only [hresult]
      constructor
      · intro h
        exact congrArg Except.ok (Except.ok.inj h)
      · intro h
        exact congrArg Except.ok (Except.ok.inj h)
  | error error =>
      simp only [hresult]
      constructor
      · intro h
        cases h
      · intro h
        cases h

theorem keeps_handle {a : Action ε α β γ} {f : FileError ε → Action ε α β γ} (ha : Keeps a t)
    (hf : ∀ error, (a.run t).result = .error error → Keeps (f error) (a.run t).tree) :
    Keeps (handle a f) t := by
  refine keeps_bind (a := attempt a) ha fun result hresult => ?_
  cases result with
  | ok x => exact KeepsPaths.refl
  | error error => exact hf error (Except.ok.inj hresult)

theorem keeps_ensuring {a : Action ε α β γ} {b : Action ε α β Unit} (ha : Keeps a t)
    (hb : Keeps b (a.run t).tree) : Keeps (ensuring a b) t :=
  keeps_bind (a := attempt a) ha fun _ _ => keeps_bind hb fun _ _ => KeepsPaths.refl

/-- The action changes nothing. -/
def Looks (a : Action ε α β γ) (t : FileTree α β) : Prop :=
  (a.run t).tree = t ∧ (a.run t).touched = []

theorem looks_look (f : FileTree α β → Except (FileError ε) γ) : Looks (look f) t := ⟨rfl, rfl⟩

theorem looks_bind {a : Action ε α β γ} {f : γ → Action ε α β δ} (ha : Looks a t)
    (hf : ∀ x, (a.run t).result = .ok x → Looks (f x) t) : Looks (a >>= f) t := by
  cases hresult : (a.run t).result with
  | error error =>
      unfold Looks
      rw [bind_run_error hresult]
      exact ha
  | ok x =>
      unfold Looks
      rw [run_bind_ok hresult ha.2, ha.1]
      exact hf x hresult

theorem looks_handle {a : Action ε α β γ} {f : FileError ε → Action ε α β γ} (ha : Looks a t)
    (hf : ∀ error, (a.run t).result = .error error → Looks (f error) t) : Looks (handle a f) t := by
  refine looks_bind (a := attempt a) ha fun result hresult => ?_
  cases result with
  | ok x => exact looks_look _
  | error error => exact hf error (Except.ok.inj hresult)

theorem Looks.stays {a : Action ε α β γ} (h : Looks a t) : Stays inside a t := by
  unfold Stays
  rw [h.2]
  exact fun _ hmem => by cases hmem

/-- After an action that only looks. -/
theorem stays_bind_of_looks {a : Action ε α β γ} {f : γ → Action ε α β δ} (ha : Looks a t) :
    Stays inside (a >>= f) t ↔ ∀ x, (a.run t).result = .ok x → Stays inside (f x) t := by
  rw [stays_bind, ha.1]
  exact and_iff_right ha.stays

/-- What a sequence ends with after an action that only looks. -/
theorem bind_ok_of_looks {a : Action ε α β γ} {f : γ → Action ε α β δ} (ha : Looks a t) {y : δ} :
    ((a >>= f).run t).result = .ok y ↔
      ∃ x, (a.run t).result = .ok x ∧ ((f x).run t).result = .ok y := by
  constructor
  · intro h
    obtain ⟨x, hx, hy, -⟩ := bind_ok h
    rw [ha.1] at hy
    exact ⟨x, hx, hy⟩
  · rintro ⟨x, hx, hy⟩
    rw [run_bind_ok hx ha.2, ha.1]
    exact hy

/-- A result that is only put in another form. -/
theorem stays_bind_pure {a : Action ε α β γ} {f : γ → δ} :
    Stays inside (a >>= fun x => pure (f x)) t ↔ Stays inside a t := by
  rw [stays_bind]
  exact and_iff_left fun x _ => stays_pure (f x)

theorem bind_pure_ok {a : Action ε α β γ} {f : γ → δ} {y : δ} :
    ((a >>= fun x => pure (f x)).run t).result = .ok y ↔ ∃ x, (a.run t).result = .ok x ∧ f x = y := by
  cases hresult : (a.run t).result with
  | error error =>
      rw [bind_run_error hresult]
      simp
  | ok x =>
      rw [bind_run hresult]
      simp only [Except.ok.injEq, exists_eq_left']
      exact ⟨Except.ok.inj, congrArg Except.ok⟩

/-! ### The steps -/

/-- An object, and the real path where it stands. -/
structure Found (α β : Type) where
  place : RealPath
  object : FileTree α β

/-- `realpath` -/
def realpath (path : List String) : Action ε α β RealPath :=
  look fun t => (canonical t path).elim (.error .noSuchFile) .ok

/-- `lstat` -/
def lstat (path : List String) : Action ε α β (Found α β) :=
  look fun t => ((locate t path).bind fun k => (t.get? k).map (Found.mk k)).elim
    (.error .noSuchFile) .ok

/-- `stat` -/
def stat (path : List String) : Action ε α β (Found α β) :=
  look fun t => ((resolve t path).bind fun k => (t.get? k).map (Found.mk k)).elim
    (.error .noSuchFile) .ok

/-- The entries of a directory. -/
def readdir (path : List String) : Action ε α β (List (String × Found α β)) :=
  look fun t =>
    match resolve t path with
    | none => .error .noSuchFile
    | some k =>
        match t.get? k with
        | some (.dir _ entries) =>
            .ok ((entries.filter fun entry => decide (Proper entry.1)).map fun entry =>
              (entry.1, ⟨k ++ [entry.1], entry.2⟩))
        | _ => .error .failure

/-- Open a file and read it. -/
def read (path : List String) : Action ε α β (RealPath × β) :=
  look fun t =>
    match resolve t path with
    | none => .error .noSuchFile
    | some k =>
        match t.get? k with
        | some (.file _ content) => .ok (k, content)
        | _ => .error .failure

/-- Look at the tree and go on. -/
def withTree (f : FileTree α β → Action ε α β γ) : Action ε α β γ where
  run t := (f t).run t
  frame t := (f t).frame t

/-- `mkdir` -/
def mkdir (attrs : α) (path : List String) : Action ε α β Unit :=
  withTree fun t =>
    match locate t path with
    | none => fail .noSuchFile
    | some k => if (t.get? k).isSome then fail .failure else replace k (some (.dir attrs []))

/-- Give an object another path.  `replaces` says what it may replace there; a
directory does not go below itself. -/
def renameOver (replaces : FileTree α β → FileTree α β → Bool) (path path' : List String) :
    Action ε α β Unit :=
  withTree fun t =>
    match locate t path, locate t path' with
    | some k, some k' =>
        match t.get? k with
        | none => fail .noSuchFile
        | some x =>
            if k.isPrefixOf k' || !(t.get? k').all (replaces x) then fail .failure
            else do
              replace k none
              replace k' (some x)
    | _, _ => fail .noSuchFile

/-- `rename`, where nothing may stand at the new path. -/
def rename (path path' : List String) : Action ε α β Unit := renameOver (fun _ _ => false) path path'

/-- `remove` a file or a link. -/
def remove (path : List String) : Action ε α β Unit :=
  withTree fun t =>
    match locate t path with
    | none => fail .noSuchFile
    | some k =>
        match t.get? k with
        | none => fail .noSuchFile
        | some (.dir _ _) => fail .failure
        | some _ => replace k none

/-- Open a file for writing, created if it is missing, and write it.  A link
at the end of the path is followed. -/
def write (attrs : α) (path : List String) (content : β) : Action ε α β Unit :=
  withTree fun t =>
    match canonical t path with
    | none => fail .noSuchFile
    | some k =>
        match t.get? k with
        | none => replace k (some (.file attrs content))
        | some (.file attrs' _) => replace k (some (.file attrs' content))
        | some _ => fail .failure

/-! ### What the steps touch -/

section Steps

variable {attrs : α} {path path' : List String}

theorem withTree_run (f : FileTree α β → Action ε α β γ) (t : FileTree α β) :
    (withTree f).run t = (f t).run t := rfl

theorem stays_withTree {f : FileTree α β → Action ε α β γ} :
    Stays inside (withTree f) t ↔ Stays inside (f t) t := Iff.rfl

theorem stays_mkdir : Stays inside (mkdir attrs path : Action ε α β Unit) t ↔
    ∀ k, locate t path = some k → t.get? k = none → inside k := by
  unfold mkdir
  rw [stays_withTree]
  cases hlocate : locate t path with
  | none => simp
  | some k =>
      cases hget : t.get? k with
      | none => simp [hget, stays_replace]
      | some x => simp [hget]

theorem stays_renameOver {replaces : FileTree α β → FileTree α β → Bool} :
    Stays inside (renameOver replaces path path' : Action ε α β Unit) t ↔
      ∀ k, locate t path = some k → ∀ k', locate t path' = some k' → ∀ x, t.get? k = some x →
        k.isPrefixOf k' = false → (t.get? k').all (replaces x) = true → inside k ∧ inside k' := by
  unfold renameOver
  rw [stays_withTree]
  cases hlocate : locate t path with
  | none => simp
  | some k =>
      cases hlocate' : locate t path' with
      | none => simp
      | some k' =>
          cases hget : t.get? k with
          | none => simp [hget]
          | some x =>
              cases hbelow : k.isPrefixOf k' with
              | true => simp [hget, hbelow]
              | false =>
                  cases hover : (t.get? k').all (replaces x) with
                  | false => simp [hget, hbelow, hover]
                  | true => simp [hget, hbelow, hover, stays_bind, stays_replace]

theorem stays_remove : Stays inside (remove path : Action ε α β Unit) t ↔
    ∀ k, locate t path = some k → ∀ x, t.get? k = some x → x.isDir = false → inside k := by
  unfold remove
  rw [stays_withTree]
  cases hlocate : locate t path with
  | none => simp
  | some k =>
      cases hget : t.get? k with
      | none => simp [hget]
      | some x =>
          cases x with
          | file attrs' content => simp [hget, stays_replace, isDir]
          | link attrs' target => simp [hget, stays_replace, isDir]
          | dir attrs' entries => simp [hget, isDir]

theorem stays_write {content : β} :
    Stays inside (write attrs path content : Action ε α β Unit) t ↔
      ∀ k, canonical t path = some k → (∀ x, t.get? k = some x → x.isFile = true) → inside k := by
  unfold write
  rw [stays_withTree]
  cases hcanonical : canonical t path with
  | none => simp
  | some k =>
      cases hget : t.get? k with
      | none => simp [hget, stays_replace]
      | some x =>
          cases x with
          | file attrs' content' => simp [hget, stays_replace, isFile]
          | link attrs' target => simp [hget, isFile]
          | dir attrs' entries => simp [hget, isFile]

theorem keeps_replace {k : RealPath} {x : Option (FileTree α β)}
    (hk : ∀ y, t.get? k = some y → y.isFile = true) :
    Keeps (replace k x : Action ε α β Unit) t := keepsPaths_update x hk

theorem keeps_mkdir : Keeps (mkdir attrs path : Action ε α β Unit) t := by
  show KeepsPaths t ((mkdir attrs path : Action ε α β Unit).run t).tree
  unfold mkdir
  rw [withTree_run]
  cases locate t path with
  | none => exact KeepsPaths.refl
  | some k =>
      cases hget : t.get? k with
      | none =>
          simp only [hget, Option.isSome_none, Bool.false_eq_true, if_false]
          exact keeps_replace (ε := ε) fun y hy => by rw [hget] at hy; cases hy
      | some x =>
          simp only [hget, Option.isSome_some, if_true]
          exact KeepsPaths.refl

theorem keeps_write {content : β} : Keeps (write attrs path content : Action ε α β Unit) t := by
  show KeepsPaths t ((write attrs path content : Action ε α β Unit).run t).tree
  unfold write
  rw [withTree_run]
  cases canonical t path with
  | none => exact KeepsPaths.refl
  | some k =>
      simp only
      split
      · rename_i hget
        exact keeps_replace (ε := ε) fun y hy => by rw [hget] at hy; cases hy
      · rename_i hget
        exact keeps_replace (ε := ε) fun y hy => by rw [hget] at hy; cases hy; rfl
      · exact KeepsPaths.refl

theorem keeps_rename (hfile : ∀ k, locate t path = some k → ∀ x, t.get? k = some x → x.isFile = true) :
    Keeps (rename path path' : Action ε α β Unit) t := by
  show KeepsPaths t ((rename path path' : Action ε α β Unit).run t).tree
  unfold rename renameOver
  rw [withTree_run]
  cases hlocate : locate t path with
  | none => exact KeepsPaths.refl
  | some k =>
      cases hlocate' : locate t path' with
      | none => exact KeepsPaths.refl
      | some k' =>
          simp only
          split
          · exact KeepsPaths.refl
          · rename_i x hget
            have hx := hfile k hlocate x hget
            split
            · exact KeepsPaths.refl
            · rename_i hfree
              simp only [Bool.or_eq_true, not_or, Bool.not_eq_true, Bool.not_eq_false',
                Option.all_eq_true, Bool.false_eq_true] at hfree
              have hno : ¬ k <+: k' := by
                rw [← List.isPrefixOf_iff_prefix, hfree.1]
                exact Bool.false_ne_true
              refine keeps_bind (keeps_replace fun y hy => ?_) fun _ _ => keeps_replace fun y hy => ?_
              · rw [hget] at hy
                exact Option.some.inj hy ▸ hx
              · -- nothing stood at the new path, and nothing does now
                exfalso
                have hlabel := label_update (t := t) none hno
                change ((t.update k none).get? k') = some y at hy
                rw [hy] at hlabel
                cases hget' : t.get? k' with
                | none =>
                    rw [hget'] at hlabel
                    cases hlabel
                | some z => exact hfree.2 z hget'

theorem keeps_remove (hfile : ∀ k, locate t path = some k → ∀ x, t.get? k = some x → x.isFile = true) :
    Keeps (remove path : Action ε α β Unit) t := by
  show KeepsPaths t ((remove path : Action ε α β Unit).run t).tree
  unfold remove
  rw [withTree_run]
  cases hlocate : locate t path with
  | none => exact KeepsPaths.refl
  | some k =>
      simp only
      split
      · exact KeepsPaths.refl
      · exact KeepsPaths.refl
      · rename_i x _ hget
        refine keeps_replace (ε := ε) fun y hy => ?_
        rw [hget] at hy
        exact Option.some.inj hy ▸ hfile k hlocate x hget

end Steps

/-! ### Making directories -/

/-- Make the directories of a path below its front, where they are missing.
Where one is there already, it has to be a directory. -/
def makedirsFrom (attrs : α) (front : List String) : List String → Action ε α β Unit
  | [] => pure ()
  | name :: rest => do
      match (← attempt (mkdir attrs (front ++ [name]))) with
      | .ok () => makedirsFrom attrs (front ++ [name]) rest
      | .error _ =>
          let found ← stat (front ++ [name])
          if found.object.isDir then makedirsFrom attrs (front ++ [name]) rest else fail .failure

/-- `makedirs`, where the directory may exist. -/
def makedirs (attrs : α) (path : List String) : Action ε α β Unit := makedirsFrom attrs [] path

/-- The first directory that would be made. -/
def firstMissing (t : FileTree α β) (front : List String) : List String → Option RealPath
  | [] => none
  | name :: rest =>
      match locate t (front ++ [name]) with
      | none => none
      | some k =>
          if (t.get? k).isNone then some k
          else if ((resolve t (front ++ [name])).bind t.get?).any isDir then
            firstMissing t (front ++ [name]) rest
          else none

section Makedirs

variable {attrs : α}

theorem mkdir_missing {path : List String} {k : RealPath} (hlocate : locate t path = some k)
    (hget : t.get? k = none) :
    (mkdir attrs path : Action ε α β Unit).run t = ⟨.ok (), t.update k (some (.dir attrs [])), [k]⟩ := by
  unfold mkdir
  rw [withTree_run, hlocate]
  simp [hget]

theorem mkdir_present {path : List String} {k : RealPath} {x : FileTree α β}
    (hlocate : locate t path = some k) (hget : t.get? k = some x) :
    (mkdir attrs path : Action ε α β Unit).run t = ⟨.error .failure, t, []⟩ := by
  unfold mkdir
  rw [withTree_run, hlocate]
  simp only [hget]
  rfl

theorem mkdir_nowhere {path : List String} (hlocate : locate t path = none) :
    (mkdir attrs path : Action ε α β Unit).run t = ⟨.error .noSuchFile, t, []⟩ := by
  unfold mkdir
  rw [withTree_run, hlocate]
  rfl

/-- The step of `makedirs` that makes a directory. -/
theorem makedirsFrom_missing {front rest : List String} {name : String} {k : RealPath}
    (hlocate : locate t (front ++ [name]) = some k) (hget : t.get? k = none) :
    (makedirsFrom attrs front (name :: rest) : Action ε α β Unit).run t =
      ⟨((makedirsFrom attrs (front ++ [name]) rest : Action ε α β Unit).run
          (t.update k (some (.dir attrs [])))).result,
        ((makedirsFrom attrs (front ++ [name]) rest : Action ε α β Unit).run
          (t.update k (some (.dir attrs [])))).tree,
        k :: ((makedirsFrom attrs (front ++ [name]) rest : Action ε α β Unit).run
          (t.update k (some (.dir attrs [])))).touched⟩ := by
  rw [makedirsFrom]
  show (Action.bind _ _).run t = _
  unfold Action.bind attempt
  simp only [mkdir_missing hlocate hget]
  rfl

/-- The step of `makedirs` that finds a directory. -/
theorem makedirsFrom_present {front rest : List String} {name : String} {d : RealPath}
    (hname : Proper name) (hdir : LeadsToDir t (front ++ [name]) d) :
    (makedirsFrom attrs front (name :: rest) : Action ε α β Unit).run t =
      (makedirsFrom attrs (front ++ [name]) rest : Action ε α β Unit).run t := by
  obtain ⟨k, x, hlocate, hget⟩ : ∃ k x, locate t (front ++ [name]) = some k ∧ t.get? k = some x := by
    obtain ⟨d', hd'⟩ := hdir.front
    refine ⟨d' ++ [name], ?_⟩
    cases hget : t.get? (d' ++ [name]) with
    | some x => exact ⟨x, (locate_concat hname).mpr ⟨d', hd', rfl⟩, rfl⟩
    | none =>
        -- then the path would lead to where the directory is missing
        have hthere := canonical_concat hd'.1 hd'.2 hname
          (fun attrs target hlink => by rw [hget] at hlink; cases hlink)
        obtain rfl := Option.some.inj (hthere.symm.trans hdir.1)
        obtain ⟨attrs', entries, hd⟩ := hdir.2
        rw [hget] at hd
        cases hd
  obtain ⟨attrs', entries, hd⟩ := hdir.2
  have hstat : (stat (front ++ [name]) : Action ε α β (Found α β)).run t =
      ⟨.ok ⟨d, .dir attrs' entries⟩, t, []⟩ := by
    unfold stat look
    simp [hdir.resolve, hd]
  rw [makedirsFrom]
  show (Action.bind _ _).run t = _
  unfold Action.bind attempt
  simp only [mkdir_present hlocate hget]
  show (Ended.mk _ _ _) = _
  have hnext : ((do
      let found ← stat (front ++ [name])
      if found.object.isDir then makedirsFrom attrs (front ++ [name]) rest else fail .failure) :
      Action ε α β Unit).run t = (makedirsFrom attrs (front ++ [name]) rest : Action ε α β Unit).run t := by
    rw [run_bind_ok (by rw [hstat]) (by rw [hstat]), hstat]
    simp [isDir]
  simp only [List.nil_append]
  rw [hnext]

/-- The step of `makedirs` that finds no directory and cannot make one. -/
theorem makedirsFrom_refused {front rest : List String} {name : String}
    (hnot : ∀ k, locate t (front ++ [name]) = some k → t.get? k ≠ none)
    (hdir : ∀ d, ¬ LeadsToDir t (front ++ [name]) d) :
    ∃ error, (makedirsFrom attrs front (name :: rest) : Action ε α β Unit).run t =
      ⟨.error error, t, []⟩ := by
  have hmkdir : ∃ error, (mkdir attrs (front ++ [name]) : Action ε α β Unit).run t =
      ⟨.error error, t, []⟩ := by
    cases hlocate : locate t (front ++ [name]) with
    | none => exact ⟨_, mkdir_nowhere hlocate⟩
    | some k =>
        cases hget : t.get? k with
        | none => exact absurd hget (hnot k hlocate)
        | some x => exact ⟨_, mkdir_present hlocate hget⟩
  obtain ⟨error, hmkdir⟩ := hmkdir
  rw [makedirsFrom]
  show ∃ error, (Action.bind _ _).run t = _
  unfold Action.bind attempt
  simp only [hmkdir]
  show ∃ error, Ended.mk _ _ _ = _
  have hnext : ∃ error, ((do
      let found ← stat (front ++ [name])
      if found.object.isDir then makedirsFrom attrs (front ++ [name]) rest else fail .failure) :
      Action ε α β Unit).run t = ⟨.error error, t, []⟩ := by
    cases hstat : ((stat (front ++ [name]) : Action ε α β (Found α β)).run t).result with
    | error error =>
        refine ⟨error, ?_⟩
        show (Action.bind _ _).run t = _
        unfold Action.bind
        simp only [hstat]
        rfl
    | ok found =>
        refine ⟨.failure, ?_⟩
        rw [run_bind_ok hstat rfl]
        have hnotdir : found.object.isDir = false := by
          cases hisDir : found.object.isDir with
          | false => rfl
          | true =>
              exfalso
              unfold stat look at hstat
              simp only at hstat
              cases hresolve : resolve t (front ++ [name]) with
              | none => simp [hresolve] at hstat
              | some k =>
                  cases hget : t.get? k with
                  | none => simp [hresolve, hget] at hstat
                  | some x =>
                      simp only [hresolve, hget, Option.bind_some, Option.map_some,
                        Option.elim_some, Except.ok.injEq] at hstat
                      subst hstat
                      exact hdir k (leadsToDir_iff.mpr ⟨hresolve, by simp [hget, hisDir]⟩)
        simp only [hnotdir, Bool.false_eq_true, if_false]
        rfl
  obtain ⟨error, hnext⟩ := hnext
  refine ⟨error, ?_⟩
  simp only [List.nil_append]
  rw [hnext]

/-- Below a new directory everything is new. -/
theorem stays_makedirsFrom_new {rest : List String} (hrest : ∀ name ∈ rest, Proper name)
    (hinside : ∀ k more, inside k → inside (k ++ more)) {t : FileTree α β} {front : List String}
    {d : RealPath} {attrs' : α} (hpath : LeadsToDir t front d)
    (hempty : t.get? d = some (.dir attrs' [])) (hd : inside d) :
    Stays inside (makedirsFrom attrs front rest : Action ε α β Unit) t := by
  induction rest generalizing t front d attrs' with
  | nil => exact stays_pure ()
  | cons name rest ih =>
      have hname := hrest name List.mem_cons_self
      have hmissing : t.get? (d ++ [name]) = none := by
        rw [get?_append, hempty]
        rfl
      have hlocate := (locate_concat (k := d ++ [name]) hname).mpr ⟨d, hpath, rfl⟩
      have hkeeps : KeepsPaths t (t.update (d ++ [name]) (some (.dir attrs []))) :=
        keepsPaths_update _ fun y hy => by rw [hmissing] at hy; cases hy
      have hnew : (t.update (d ++ [name]) (some (.dir attrs []))).get? (d ++ [name]) =
          some (.dir attrs []) := get?_update _ hpath.2 []
      unfold Stays
      rw [makedirsFrom_missing hlocate hmissing]
      intro k hk
      rcases List.mem_cons.mp hk with rfl | hk
      · exact hinside d [name] hd
      · exact ih (fun other hmem => hrest other (List.mem_cons_of_mem _ hmem))
          ((hpath.keeps hkeeps).concat hname ⟨attrs, [], hnew⟩) hnew (hinside d [name] hd) k hk

/-- **`makedirs` stays inside exactly when the first directory it makes is
inside.** -/
theorem stays_makedirsFrom {rest : List String} (hrest : ∀ name ∈ rest, Proper name)
    (hinside : ∀ k more, inside k → inside (k ++ more)) (front : List String) :
    Stays inside (makedirsFrom attrs front rest : Action ε α β Unit) t ↔
      ∀ k, firstMissing t front rest = some k → inside k := by
  induction rest generalizing front with
  | nil =>
      unfold makedirsFrom firstMissing
      simp
  | cons name rest ih =>
      have hname := hrest name List.mem_cons_self
      have hrest' := fun other hmem => hrest other (List.mem_cons_of_mem _ hmem)
      unfold firstMissing
      cases hlocate : locate t (front ++ [name]) with
      | none =>
          obtain ⟨error, hrun⟩ : ∃ error, (makedirsFrom attrs front (name :: rest) :
              Action ε α β Unit).run t = ⟨.error error, t, []⟩ := makedirsFrom_refused
            (fun k hk => by rw [hlocate] at hk; cases hk)
            (fun d hd => by
              obtain ⟨d', hd'⟩ := hd.front
              rw [(locate_concat hname).mpr ⟨d', hd', rfl⟩] at hlocate
              cases hlocate)
          unfold Stays
          rw [hrun]
          simp
      | some k =>
          obtain ⟨d, hd, rfl⟩ := (locate_concat hname).mp hlocate
          cases hget : t.get? (d ++ [name]) with
          | none =>
              simp only [hget, Option.isNone_none, if_true, Option.some.injEq, forall_eq']
              have hkeeps : KeepsPaths t (t.update (d ++ [name]) (some (.dir attrs []))) :=
                keepsPaths_update _ fun y hy => by rw [hget] at hy; cases hy
              have hnew : (t.update (d ++ [name]) (some (.dir attrs []))).get? (d ++ [name]) =
                  some (.dir attrs []) := get?_update _ hd.2 []
              unfold Stays
              rw [makedirsFrom_missing hlocate hget]
              constructor
              · exact fun h => h _ List.mem_cons_self
              · intro hin k hk
                rcases List.mem_cons.mp hk with rfl | hk
                · exact hin
                · exact stays_makedirsFrom_new hrest' hinside
                    ((hd.keeps hkeeps).concat hname ⟨attrs, [], hnew⟩) hnew hin k hk
          | some x =>
              simp only [hget, Option.isNone_some, Bool.false_eq_true, if_false]
              by_cases hdir : ((resolve t (front ++ [name])).bind t.get?).any isDir = true
              · rw [if_pos hdir]
                obtain ⟨d', hleads⟩ : ∃ d', LeadsToDir t (front ++ [name]) d' := by
                  cases hresolve : resolve t (front ++ [name]) with
                  | none => simp [hresolve] at hdir
                  | some d' =>
                      rw [hresolve, Option.bind_some] at hdir
                      exact ⟨d', leadsToDir_iff.mpr ⟨hresolve, hdir⟩⟩
                rw [← ih hrest' (front ++ [name])]
                unfold Stays
                rw [makedirsFrom_present hname hleads]
              · rw [if_neg hdir]
                obtain ⟨error, hrun⟩ : ∃ error, (makedirsFrom attrs front (name :: rest) :
                    Action ε α β Unit).run t = ⟨.error error, t, []⟩ := makedirsFrom_refused
                  (fun k hk => by
                    rw [hlocate] at hk
                    obtain rfl := Option.some.inj hk
                    rw [hget]
                    exact Option.some_ne_none x)
                  (fun d' hd' => hdir (by
                    rw [hd'.resolve, Option.bind_some]
                    exact (leadsToDir_iff.mp hd').2))
                unfold Stays
                rw [hrun]
                simp

/-- Where the path leads to a directory, nothing is made. -/
theorem makedirsFrom_there {rest : List String} (hrest : ∀ name ∈ rest, Proper name)
    {front : List String} {d : RealPath} (h : LeadsToDir t (front ++ rest) d) :
    (makedirsFrom attrs front rest : Action ε α β Unit).run t = ⟨.ok (), t, []⟩ := by
  induction rest generalizing front with
  | nil => rfl
  | cons name rest ih =>
      have hassoc : front ++ name :: rest = (front ++ [name]) ++ rest := by simp
      rw [hassoc] at h
      obtain ⟨d', hd'⟩ := h.front
      rw [makedirsFrom_present (hrest name List.mem_cons_self) hd']
      exact ih (fun other hmem => hrest other (List.mem_cons_of_mem _ hmem)) h

/-- **Making directories** keeps every path, and ends well exactly where the
path leads to a directory then. -/
theorem makedirsFrom_spec {rest : List String} (hrest : ∀ name ∈ rest, Proper name)
    {t : FileTree α β} {front : List String} {d : RealPath} (hfront : LeadsToDir t front d) :
    KeepsPaths t ((makedirsFrom attrs front rest : Action ε α β Unit).run t).tree ∧
      (((makedirsFrom attrs front rest : Action ε α β Unit).run t).result = .ok () ↔
        ∃ d', LeadsToDir ((makedirsFrom attrs front rest : Action ε α β Unit).run t).tree
          (front ++ rest) d') := by
  induction rest generalizing t front d with
  | nil =>
      refine ⟨KeepsPaths.refl, fun _ => ⟨d, ?_⟩, fun _ => rfl⟩
      rw [List.append_nil]
      exact hfront
  | cons name rest ih =>
      have hname := hrest name List.mem_cons_self
      have hrest' := fun other hmem => hrest other (List.mem_cons_of_mem _ hmem)
      have hassoc : front ++ name :: rest = (front ++ [name]) ++ rest := by simp
      rw [hassoc]
      have hlocate := (locate_concat (k := d ++ [name]) hname).mpr ⟨d, hfront, rfl⟩
      cases hget : t.get? (d ++ [name]) with
      | none =>
          have hkeeps : KeepsPaths t (t.update (d ++ [name]) (some (.dir attrs []))) :=
            keepsPaths_update _ fun y hy => by rw [hget] at hy; cases hy
          have hnew : (t.update (d ++ [name]) (some (.dir attrs []))).get? (d ++ [name]) =
              some (.dir attrs []) := get?_update _ hfront.2 []
          rw [makedirsFrom_missing hlocate hget]
          obtain ⟨hkept, hleads⟩ := ih hrest' ((hfront.keeps hkeeps).concat hname ⟨attrs, [], hnew⟩)
          exact ⟨hkeeps.trans hkept, hleads⟩
      | some x =>
          by_cases hdir : ∃ d', LeadsToDir t (front ++ [name]) d'
          · obtain ⟨d', hd'⟩ := hdir
            rw [makedirsFrom_present hname hd']
            exact ih hrest' hd'
          · obtain ⟨error, hrun⟩ : ∃ error, (makedirsFrom attrs front (name :: rest) :
     Action ε α β Unit).run t = ⟨.error error, t, []⟩ := makedirsFrom_refused
              (fun k hk => by
                rw [hlocate] at hk
                obtain rfl := Option.some.inj hk
                rw [hget]
                exact Option.some_ne_none x)
              (fun d' hd' => hdir ⟨d', hd'⟩)
            rw [hrun]
            refine ⟨KeepsPaths.refl, ?_, ?_⟩
            · intro h
              cases h
            · rintro ⟨d', hd'⟩
              exact absurd hd'.front hdir

theorem makedirs_there {path : List String} (hpath : ∀ name ∈ path, Proper name) {d : RealPath}
    (h : LeadsToDir t path d) : (makedirs attrs path : Action ε α β Unit).run t = ⟨.ok (), t, []⟩ := by
  have hfront : LeadsToDir t ([] ++ path) d := h
  exact makedirsFrom_there hpath hfront

/-- What is missing is below a front that leads to a directory. -/
theorem firstMissing_append {middle rest : List String} (hmiddle : ∀ name ∈ middle, Proper name)
    {front : List String} {d : RealPath} (h : LeadsToDir t (front ++ middle) d) :
    firstMissing t front (middle ++ rest) = firstMissing t (front ++ middle) rest := by
  induction middle generalizing front with
  | nil => simp
  | cons name middle ih =>
      have hname := hmiddle name List.mem_cons_self
      have hassoc : front ++ name :: middle = (front ++ [name]) ++ middle := by simp
      rw [hassoc] at h ⊢
      obtain ⟨d', hd'⟩ := h.front
      obtain ⟨d'', hd''⟩ := hd'.front
      have hthere := hd''.below hname hd'
      rw [List.cons_append, firstMissing, (locate_concat hname).mpr ⟨d'', hd'', rfl⟩]
      obtain ⟨attrs', entries, hdir⟩ := hd'.2
      simp only [Option.isNone_iff_eq_none, hthere, if_false, hd'.resolve, Option.bind_some, hdir,
        Option.any_some, isDir, if_true]
      exact ih (fun other hmem => hmiddle other (List.mem_cons_of_mem _ hmem)) h

/-- Directories are made below a front that leads to one. -/
theorem makedirsFrom_append {middle rest : List String} (hmiddle : ∀ name ∈ middle, Proper name)
    {front : List String} {d : RealPath} (h : LeadsToDir t (front ++ middle) d) :
    (makedirsFrom attrs front (middle ++ rest) : Action ε α β Unit).run t =
      (makedirsFrom attrs (front ++ middle) rest : Action ε α β Unit).run t := by
  induction middle generalizing front with
  | nil => rw [List.nil_append, List.append_nil]
  | cons name middle ih =>
      have hassoc : front ++ name :: middle = (front ++ [name]) ++ middle := by simp
      rw [hassoc] at h ⊢
      obtain ⟨d', hd'⟩ := h.front
      rw [List.cons_append, makedirsFrom_present (hmiddle name List.mem_cons_self) hd']
      exact ih (fun other hmem => hmiddle other (List.mem_cons_of_mem _ hmem)) h

/-- **One more directory**: it is there, it is made, or it cannot be. -/
theorem makedirs_concat (attrs : α) {front : List String} (hfront : ∀ name ∈ front, Proper name)
    {name : String} (hname : Proper name) {d : RealPath} (h : LeadsToDir t front d) :
    (∃ b, LeadsToDir t (front ++ [name]) b ∧
      (makedirs attrs (front ++ [name]) : Action ε α β Unit).run t = ⟨.ok (), t, []⟩) ∨
    (t.get? (d ++ [name]) = none ∧ (∀ b, ¬ LeadsToDir t (front ++ [name]) b) ∧
      (makedirs attrs (front ++ [name]) : Action ε α β Unit).run t =
        ⟨.ok (), t.update (d ++ [name]) (some (.dir attrs [])), [d ++ [name]]⟩) ∨
    ((∀ b, ¬ LeadsToDir t (front ++ [name]) b) ∧
      ∃ error, (makedirs attrs (front ++ [name]) : Action ε α β Unit).run t =
        ⟨.error error, t, []⟩) := by
  have hnil : LeadsToDir t ([] ++ front) d := h
  have hlocate := (locate_concat (k := d ++ [name]) hname).mpr ⟨d, h, rfl⟩
  unfold makedirs
  rw [makedirsFrom_append hfront hnil, List.nil_append]
  by_cases hthere : ∃ b, LeadsToDir t (front ++ [name]) b
  · obtain ⟨b, hb⟩ := hthere
    exact .inl ⟨b, hb, by rw [makedirsFrom_present hname hb]; rfl⟩
  · have hnot : ∀ b, ¬ LeadsToDir t (front ++ [name]) b := fun b hb => hthere ⟨b, hb⟩
    cases hget : t.get? (d ++ [name]) with
    | none => exact .inr (.inl ⟨rfl, hnot, by rw [makedirsFrom_missing hlocate hget]; rfl⟩)
    | some x =>
        refine .inr (.inr ⟨hnot, makedirsFrom_refused ?_ hnot⟩)
        intro k hk
        rw [← Option.some.inj (hlocate.symm.trans hk), hget]
        exact Option.some_ne_none x

/-- Below a path that leads to a directory, only one more name can be missing. -/
theorem firstMissing_concat {front : List String} (hfront : ∀ name ∈ front, Proper name)
    {name : String} (hname : Proper name) {d k : RealPath} (h : LeadsToDir t front d)
    (hk : firstMissing t [] (front ++ [name]) = some k) : k = d ++ [name] := by
  have hnil : LeadsToDir t ([] ++ front) d := h
  rw [firstMissing_append hfront hnil, List.nil_append] at hk
  unfold firstMissing at hk
  rw [(locate_concat hname).mpr ⟨d, h, rfl⟩] at hk
  simp only at hk
  split at hk
  · exact (Option.some.inj hk).symm
  · split at hk
    · cases hk
    · cases hk

end Makedirs

end Action

/-! ### The object at a path -/

variable {α β : Type}

/-- The object that a path names. -/
def objectAt (t : FileTree α β) (path : List String) : Option (FileTree α β) :=
  (locate t path).bind t.get?

section ObjectAt

variable {t : FileTree α β} {path : List String} {name : String}

theorem objectAt_concat {d : RealPath} (hname : Proper name) (h : LeadsToDir t path d) :
    objectAt t (path ++ [name]) = t.get? (d ++ [name]) := by
  unfold objectAt
  rw [(locate_concat hname).mpr ⟨d, h, rfl⟩]
  rfl

theorem objectAt_concat_eq_some (hname : Proper name) {x : FileTree α β} :
    objectAt t (path ++ [name]) = some x ↔ ∃ d, LeadsToDir t path d ∧ t.get? (d ++ [name]) = some x := by
  unfold objectAt
  rw [Option.bind_eq_some_iff]
  constructor
  · rintro ⟨k, hk, hget⟩
    obtain ⟨d, hd, rfl⟩ := (locate_concat hname).mp hk
    exact ⟨d, hd, hget⟩
  · rintro ⟨d, hd, hget⟩
    exact ⟨_, (locate_concat hname).mpr ⟨d, hd, rfl⟩, hget⟩

/-- Nothing is named below an empty directory. -/
theorem objectAt_below_empty {d : RealPath} {attrs : α} (h : LeadsToDir t path d)
    (hempty : t.get? d = some (.dir attrs [])) {more : List String}
    (hmore : ∀ other ∈ more, Proper other) (hname : Proper name) :
    objectAt t (path ++ more ++ [name]) = none := by
  have hbelow : ∀ other rest, t.get? (d ++ other :: rest) = none := by
    intro other rest
    rw [get?_append, hempty]
    rfl
  cases more with
  | nil =>
      rw [List.append_nil, objectAt_concat hname h]
      exact hbelow name []
  | cons first more =>
      rw [Option.eq_none_iff_forall_not_mem]
      intro x hx
      obtain ⟨d', hd', -⟩ := (objectAt_concat_eq_some hname).mp hx
      have hassoc : path ++ first :: more = (path ++ [first]) ++ more := by simp
      rw [hassoc] at hd'
      obtain ⟨d₁, hcanonical, attrs₁, entries₁, hdir⟩ := hd'.front
      -- the path leads to where the directory would be
      have hthere := canonical_concat h.1 h.2 (hmore first List.mem_cons_self)
        (fun attrs target hlink => by rw [hbelow first []] at hlink; cases hlink)
      obtain rfl := Option.some.inj (hthere.symm.trans hcanonical)
      rw [hbelow first []] at hdir
      cases hdir

end ObjectAt

namespace Action

section Objects

variable {ε : Type} {attrs : α} {t : FileTree α β} {path path' : List String}

theorem lstat_some {k : RealPath} {x : FileTree α β} (hlocate : locate t path = some k)
    (hget : t.get? k = some x) : (lstat path : Action ε α β (Found α β)).run t = ⟨.ok ⟨k, x⟩, t, []⟩ := by
  unfold lstat look
  simp [hlocate, hget]

theorem lstat_none (h : objectAt t path = none) :
    (lstat path : Action ε α β (Found α β)).run t = ⟨.error .noSuchFile, t, []⟩ := by
  unfold lstat look
  unfold objectAt at h
  cases hlocate : locate t path with
  | none => simp [hlocate]
  | some k =>
      rw [hlocate, Option.bind_some] at h
      simp [hlocate, h]

theorem realpath_ok {k : RealPath} :
    ((realpath path : Action ε α β RealPath).run t).result = .ok k ↔ canonical t path = some k := by
  unfold realpath look
  cases hcanonical : canonical t path with
  | none => simp [hcanonical]
  | some k' => simp [hcanonical]

theorem stat_dir {d : RealPath} (h : LeadsToDir t path d) : ∃ x,
    (stat path : Action ε α β (Found α β)).run t = ⟨.ok ⟨d, x⟩, t, []⟩ := by
  obtain ⟨attrs, entries, hdir⟩ := h.2
  refine ⟨.dir attrs entries, ?_⟩
  unfold stat look
  simp [h.resolve, hdir]

/-- The entries that are listed stand in the directory. -/
theorem readdir_dir {d : RealPath} (h : LeadsToDir t path d) : ∃ listing,
    (readdir path : Action ε α β (List (String × Found α β))).run t = ⟨.ok listing, t, []⟩ ∧
      ∀ entry ∈ listing, Proper entry.1 ∧ entry.2.place = d ++ [entry.1] := by
  obtain ⟨attrs, entries, hdir⟩ := h.2
  refine ⟨(entries.filter fun entry => decide (Proper entry.1)).map fun entry =>
    (entry.1, ⟨d ++ [entry.1], entry.2⟩), ?_, ?_⟩
  · unfold readdir look
    simp only [h.resolve, hdir]
  · intro entry hmem
    obtain ⟨inner, hinner, rfl⟩ := List.mem_map.mp hmem
    exact ⟨of_decide_eq_true (List.mem_filter.mp hinner).2, rfl⟩

/-- Only a directory is listed. -/
theorem readdir_ok {listing : List (String × Found α β)}
    (h : ((readdir path : Action ε α β (List (String × Found α β))).run t).result = .ok listing) :
    ∃ d, LeadsToDir t path d := by
  unfold readdir look at h
  simp only at h
  cases hresolve : resolve t path with
  | none => simp [hresolve] at h
  | some k =>
      cases hget : t.get? k with
      | none => simp [hresolve, hget] at h
      | some x =>
          cases x with
          | file attrs' content => simp [hresolve, hget] at h
          | link attrs' target => simp [hresolve, hget] at h
          | dir attrs' entries =>
              exact ⟨k, leadsToDir_iff.mpr ⟨hresolve, by rw [hget]; rfl⟩⟩

theorem read_ok {found : RealPath × β}
    (h : ((read path : Action ε α β (RealPath × β)).run t).result = .ok found) :
    resolve t path = some found.1 := by
  unfold read look at h
  simp only at h
  cases hresolve : resolve t path with
  | none => simp [hresolve] at h
  | some k =>
      simp only [hresolve] at h
      split at h
      · obtain rfl := Except.ok.inj h
        rfl
      · cases h

theorem lstat_ok {found : Found α β}
    (h : ((lstat path : Action ε α β (Found α β)).run t).result = .ok found) :
    locate t path = some found.place ∧ t.get? found.place = some found.object := by
  unfold lstat look at h
  simp only at h
  cases hlocate : locate t path with
  | none => simp [hlocate] at h
  | some k =>
      cases hget : t.get? k with
      | none => simp [hlocate, hget] at h
      | some x =>
          simp only [hlocate, hget, Option.bind_some, Option.map_some, Option.elim_some,
            Except.ok.injEq] at h
          subst h
          exact ⟨rfl, hget⟩

theorem rename_run {k k' : RealPath} {x : FileTree α β} (hlocate : locate t path = some k)
    (hlocate' : locate t path' = some k') (hget : t.get? k = some x) (hbelow : ¬ k <+: k')
    (hfree : t.get? k' = none) :
    (rename path path' : Action ε α β Unit).run t =
      ⟨.ok (), (t.update k none).update k' (some x), [k, k']⟩ := by
  have hnot : k.isPrefixOf k' = false := by
    rw [← Bool.not_eq_true, List.isPrefixOf_iff_prefix]
    exact hbelow
  unfold rename renameOver
  rw [withTree_run]
  simp only [hlocate, hlocate', hget, hfree, hnot, Option.all_none]
  rfl

/-- Something stands at the new path already, or there is no directory for it. -/
theorem rename_refused (h : ∀ k', locate t path' = some k' → t.get? k' ≠ none) :
    ∃ error, (rename path path' : Action ε α β Unit).run t = ⟨.error error, t, []⟩ := by
  unfold rename renameOver
  rw [withTree_run]
  cases hlocate : locate t path with
  | none => exact ⟨_, rfl⟩
  | some k =>
      cases hlocate' : locate t path' with
      | none => exact ⟨_, rfl⟩
      | some k' =>
          cases hget : t.get? k with
          | none =>
              simp only [hget]
              exact ⟨_, rfl⟩
          | some x =>
              cases hget' : t.get? k' with
              | none => exact absurd hget' (h k' hlocate')
              | some y =>
                  simp only [hget, hget', Option.all_some, Bool.not_false, Bool.or_true, if_true]
                  exact ⟨_, rfl⟩

/-- A file that gets another name in its directory: its old name is gone, or is
a file still. -/
theorem rename_entry {first second : String} (hfirst : Proper first) (hsecond : Proper second)
    {d : RealPath} (h : LeadsToDir t path d) {attrs' : α} {content : β}
    (hfile : t.get? (d ++ [first]) = some (.file attrs' content)) {y : FileTree α β}
    (hy : ((rename (path ++ [first]) (path ++ [second]) : Action ε α β Unit).run t).tree.get?
      (d ++ [first]) = some y) : y.isFile = true := by
  have hlocate := (locate_concat (k := d ++ [first]) hfirst).mpr ⟨d, h, rfl⟩
  have hlocate' := (locate_concat (k := d ++ [second]) hsecond).mpr ⟨d, h, rfl⟩
  cases hget : t.get? (d ++ [second]) with
  | some x =>
      obtain ⟨error, hrun⟩ : ∃ error, (rename (path ++ [first]) (path ++ [second]) :
          Action ε α β Unit).run t = ⟨.error error, t, []⟩ := by
        refine rename_refused fun k hk => ?_
        rw [← Option.some.inj (hlocate'.symm.trans hk), hget]
        exact Option.some_ne_none x
      rw [hrun, hfile] at hy
      rw [← Option.some.inj hy]
      rfl
  | none =>
      have hne : first ≠ second := by
        rintro rfl
        rw [hfile] at hget
        cases hget
      have hbelow : ∀ {a b : String}, a ≠ b → ¬ d ++ [a] <+: d ++ [b] := by
        intro a b hab
        rw [List.prefix_append_right_inj]
        exact fun hprefix => hab (List.cons_prefix_cons.mp hprefix).1
      rw [rename_run hlocate hlocate' hfile (hbelow hne) hget] at hy
      have hlabel := label_update (t := t.update (d ++ [first]) none)
        (some (.file attrs' content)) (hbelow hne.symm)
      have hgone : (t.update (d ++ [first]) none).get? (d ++ [first]) = none :=
        get?_update none h.2 []
      rw [hy, hgone] at hlabel
      cases hlabel

theorem write_new {k : RealPath} {content : β} (hcanonical : canonical t path = some k)
    (hget : t.get? k = none) : (write attrs path content : Action ε α β Unit).run t =
      ⟨.ok (), t.update k (some (.file attrs content)), [k]⟩ := by
  unfold write
  rw [withTree_run, hcanonical]
  simp [hget]

theorem write_file {k : RealPath} {content content' : β} {attrs' : α}
    (hcanonical : canonical t path = some k) (hget : t.get? k = some (.file attrs' content')) :
    (write attrs path content : Action ε α β Unit).run t =
      ⟨.ok (), t.update k (some (.file attrs' content)), [k]⟩ := by
  unfold write
  rw [withTree_run, hcanonical]
  simp [hget]

theorem remove_none (h : objectAt t path = none) :
    (remove path : Action ε α β Unit).run t = ⟨.error .noSuchFile, t, []⟩ := by
  unfold objectAt at h
  unfold remove
  rw [withTree_run]
  cases hlocate : locate t path with
  | none => rfl
  | some k =>
      rw [hlocate, Option.bind_some] at h
      simp only [h]
      rfl

/-- The places of the directories that are made: nothing was there, and their
names are on the path. -/
theorem touched_makedirsFrom {rest : List String} (hrest : ∀ name ∈ rest, Proper name)
    {t : FileTree α β} {front : List String} {d : RealPath} (hfront : LeadsToDir t front d) :
    ∀ k ∈ ((makedirsFrom attrs front rest : Action ε α β Unit).run t).touched,
      t.get? k = none ∧ ∃ d', ∃ name ∈ rest, k = d' ++ [name] := by
  induction rest generalizing t front d with
  | nil => intro k hk; cases hk
  | cons name rest ih =>
      have hname := hrest name List.mem_cons_self
      have hrest' := fun other hmem => hrest other (List.mem_cons_of_mem _ hmem)
      have hlocate := (locate_concat (k := d ++ [name]) hname).mpr ⟨d, hfront, rfl⟩
      cases hget : t.get? (d ++ [name]) with
      | none =>
          have hkeeps : KeepsPaths t (t.update (d ++ [name]) (some (.dir attrs []))) :=
            keepsPaths_update _ fun y hy => by rw [hget] at hy; cases hy
          have hnew : (t.update (d ++ [name]) (some (.dir attrs []))).get? (d ++ [name]) =
              some (.dir attrs []) := get?_update _ hfront.2 []
          rw [makedirsFrom_missing hlocate hget]
          intro k hk
          rcases List.mem_cons.mp hk with rfl | hk
          · exact ⟨hget, d, name, List.mem_cons_self, rfl⟩
          · obtain ⟨hnone, d', other, hother, rfl⟩ :=
              ih hrest' ((hfront.keeps hkeeps).concat hname ⟨attrs, [], hnew⟩) k hk
            refine ⟨?_, d', other, List.mem_cons_of_mem _ hother, rfl⟩
            -- what is new is at or below the directory just made
            by_cases hbelow : d ++ [name] <+: d' ++ [other]
            · obtain ⟨more, hmore⟩ := hbelow
              rw [← hmore]
              exact get?_below_none hget more
            · have hlabel := label_update (t := t) (some (.dir attrs [])) hbelow
              rw [hnone] at hlabel
              exact Option.map_eq_none_iff.mp hlabel.symm
      | some x =>
          by_cases hdir : ∃ d', LeadsToDir t (front ++ [name]) d'
          · obtain ⟨d', hd'⟩ := hdir
            rw [makedirsFrom_present hname hd']
            intro k hk
            obtain ⟨hnone, d'', other, hother, heq⟩ := ih hrest' hd' k hk
            exact ⟨hnone, d'', other, List.mem_cons_of_mem _ hother, heq⟩
          · obtain ⟨error, hrun⟩ : ∃ error, (makedirsFrom attrs front (name :: rest) :
                Action ε α β Unit).run t = ⟨.error error, t, []⟩ := makedirsFrom_refused
              (fun k hk => by
                rw [hlocate] at hk
                obtain rfl := Option.some.inj hk
                rw [hget]
                exact Option.some_ne_none x)
              (fun d' hd' => hdir ⟨d', hd'⟩)
            rw [hrun]
            intro k hk
            cases hk

/-- What is there stays what it is. -/
theorem get?_makedirsFrom {rest : List String} (hrest : ∀ name ∈ rest, Proper name)
    {front : List String} {d : RealPath} (hfront : LeadsToDir t front d) {k : RealPath}
    {x : FileTree α β} (hget : t.get? k = some x) :
    (((makedirsFrom attrs front rest : Action ε α β Unit).run t).tree.get? k).map label =
      some x.label := by
  rw [(makedirsFrom attrs front rest : Action ε α β Unit).frame t k fun k' hk' hbelow => ?_, hget]
  · rfl
  · obtain ⟨more, rfl⟩ := hbelow
    rw [get?_below_none (touched_makedirsFrom hrest hfront k' hk').1] at hget
    cases hget

/-- A name in a directory that was there: it is not made, if it is not on the
path. -/
theorem get?_makedirsFrom_none {rest : List String} (hrest : ∀ name ∈ rest, Proper name)
    {front : List String} {d : RealPath} (hfront : LeadsToDir t front d) {k : RealPath}
    (hdir : t.DirAt k) {name : String} (hname : name ∉ rest) (hget : t.get? (k ++ [name]) = none) :
    ((makedirsFrom attrs front rest : Action ε α β Unit).run t).tree.get? (k ++ [name]) = none := by
  rw [← Option.map_eq_none_iff (f := label),
    (makedirsFrom attrs front rest : Action ε α β Unit).frame t _ fun k' hk' hbelow => ?_, hget]
  · rfl
  · obtain ⟨hnone, d', other, hother, rfl⟩ := touched_makedirsFrom hrest hfront k' hk'
    rcases List.prefix_concat_iff.mp hbelow with heq | ⟨more, rfl⟩
    · obtain ⟨-, hsame⟩ := List.append_inj' heq rfl
      exact hname (List.singleton_inj.mp hsame ▸ hother)
    · obtain ⟨attrs', entries, hdir⟩ := hdir
      rw [get?_below_none hnone] at hdir
      cases hdir

/-- **What a path does not name is not named afterwards**, where the path goes
on below the directories that are made. -/
theorem objectAt_makedirsFrom {rest more : List String} {name : String}
    (hrest : ∀ other ∈ rest, Proper other) (hmore : ∀ other ∈ more, Proper other)
    (hname : Proper name) {t : FileTree α β} {front : List String} {d : RealPath}
    (hfront : LeadsToDir t front d) (h : objectAt t (front ++ rest ++ more ++ [name]) = none) :
    objectAt ((makedirsFrom attrs front rest : Action ε α β Unit).run t).tree
      (front ++ rest ++ more ++ [name]) = none := by
  induction rest generalizing t front d with
  | nil => exact h
  | cons first rest ih =>
      have hfirst := hrest first List.mem_cons_self
      have hrest' := fun other hmem => hrest other (List.mem_cons_of_mem _ hmem)
      have hassoc : front ++ first :: rest = (front ++ [first]) ++ rest := by simp
      rw [hassoc] at h ⊢
      have hlocate := (locate_concat (k := d ++ [first]) hfirst).mpr ⟨d, hfront, rfl⟩
      cases hget : t.get? (d ++ [first]) with
      | none =>
          have hkeeps : KeepsPaths t (t.update (d ++ [first]) (some (.dir attrs []))) :=
            keepsPaths_update _ fun y hy => by rw [hget] at hy; cases hy
          have hnew : (t.update (d ++ [first]) (some (.dir attrs []))).get? (d ++ [first]) =
              some (.dir attrs []) := get?_update _ hfront.2 []
          have hleads := (hfront.keeps hkeeps).concat hfirst ⟨attrs, [], hnew⟩
          rw [makedirsFrom_missing hlocate hget]
          refine ih hrest' hleads ?_
          rw [List.append_assoc (front ++ [first])]
          refine objectAt_below_empty hleads hnew (fun other hmem => ?_) hname
          exact (List.mem_append.mp hmem).elim (hrest' other) (hmore other)
      | some x =>
          by_cases hdir : ∃ d', LeadsToDir t (front ++ [first]) d'
          · obtain ⟨d', hd'⟩ := hdir
            rw [makedirsFrom_present hfirst hd']
            exact ih hrest' hd' h
          · obtain ⟨error, hrun⟩ : ∃ error, (makedirsFrom attrs front (first :: rest) :
                Action ε α β Unit).run t = ⟨.error error, t, []⟩ := makedirsFrom_refused
              (fun k hk => by
                rw [hlocate] at hk
                obtain rfl := Option.some.inj hk
                rw [hget]
                exact Option.some_ne_none x)
              (fun d' hd' => hdir ⟨d', hd'⟩)
            rw [hrun]
            exact h

theorem makedirs_ok_iff (hrooted : t.DirAt []) (hpath : ∀ name ∈ path, Proper name) :
    ((makedirs attrs path : Action ε α β Unit).run t).result = .ok () ↔
      ∃ d, LeadsToDir ((makedirs attrs path : Action ε α β Unit).run t).tree path d :=
  (makedirsFrom_spec hpath (leadsToDir_nil hrooted)).2

theorem makedirs_keeps (hrooted : t.DirAt []) (hpath : ∀ name ∈ path, Proper name) :
    Keeps (makedirs attrs path : Action ε α β Unit) t :=
  (makedirsFrom_spec hpath (leadsToDir_nil hrooted)).1

theorem get?_makedirs (hrooted : t.DirAt []) (hpath : ∀ name ∈ path, Proper name) {k : RealPath}
    {x : FileTree α β} (hget : t.get? k = some x) :
    (((makedirs attrs path : Action ε α β Unit).run t).tree.get? k).map label = some x.label :=
  get?_makedirsFrom hpath (leadsToDir_nil hrooted) hget

theorem get?_makedirs_none (hrooted : t.DirAt []) (hpath : ∀ name ∈ path, Proper name)
    {k : RealPath} (hdir : t.DirAt k) {name : String} (hname : name ∉ path)
    (hget : t.get? (k ++ [name]) = none) :
    ((makedirs attrs path : Action ε α β Unit).run t).tree.get? (k ++ [name]) = none :=
  get?_makedirsFrom_none hpath (leadsToDir_nil hrooted) hdir hname hget

theorem objectAt_makedirs (hrooted : t.DirAt []) {more : List String} {name : String}
    (hpath : ∀ other ∈ path, Proper other) (hmore : ∀ other ∈ more, Proper other)
    (hname : Proper name) (h : objectAt t (path ++ more ++ [name]) = none) :
    objectAt ((makedirs attrs path : Action ε α β Unit).run t).tree (path ++ more ++ [name]) = none :=
  objectAt_makedirsFrom hpath hmore hname (leadsToDir_nil hrooted) h

end Objects

end Action

end FileTree
