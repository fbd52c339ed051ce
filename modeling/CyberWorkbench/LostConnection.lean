import CyberWorkbench.FileActions

/-!
# A connection that may be lost

Actions on a tree of files that a client asks for over a connection.  The
connection carries a number of operations out and is lost during the next one:
that operation fails, perhaps after a part of its work, and so does every later
one.  An error of either kind can be caught.
-/

namespace FileTree

/-- Why an operation failed: the server refused it, or there is no connection. -/
inductive RemoteError (ε : Type) where
  | server (error : FileError ε)
  | connectionLost
  deriving DecidableEq, Repr

/-- The server's tree, and the connection: how many operations are still
carried out (`none` once it is lost), and how much of the one that is cut. -/
structure Link (α β : Type) where
  tree : FileTree α β
  left : Option Nat
  part : Nat

/-- A program that works over the connection. -/
structure Remote (ε α β γ : Type) where
  run : Link α β → Except (RemoteError ε) γ × Link α β

namespace Remote

variable {ε α β γ δ : Type}

protected def bind (a : Remote ε α β γ) (f : γ → Remote ε α β δ) : Remote ε α β δ :=
  ⟨fun s =>
    match a.run s with
    | (.error error, s') => (.error error, s')
    | (.ok x, s') => (f x).run s'⟩

instance : Monad (Remote ε α β) where
  pure a := ⟨fun s => (.ok a, s)⟩
  bind := Remote.bind

/-- Raise an error. -/
def throw (error : RemoteError ε) : Remote ε α β γ := ⟨fun s => (.error error, s)⟩

/-- Go on after an error. -/
def orElse (a : Remote ε α β γ) (f : RemoteError ε → Remote ε α β γ) : Remote ε α β γ :=
  ⟨fun s =>
    match a.run s with
    | (.error error, s') => (f error).run s'
    | (.ok x, s') => (.ok x, s')⟩

/-- Do one thing, and another one at the end in any case. -/
def ensuring (a : Remote ε α β γ) (b : Remote ε α β Unit) : Remote ε α β γ :=
  ⟨fun s =>
    match a.run s with
    | (result, s') =>
        match b.run s' with
        | (.error error, s'') => (.error error, s'')
        | (.ok _, s'') => (result, s'')⟩

/-- An operation: `cut` is what it has done when the connection is lost. -/
def request (a : Action ε α β γ) (cut : Nat → Action ε α β Unit) : Remote ε α β γ :=
  ⟨fun s =>
    match s.left with
    | none => (.error .connectionLost, s)
    | some 0 => (.error .connectionLost, ⟨((cut s.part).run s.tree).tree, none, s.part⟩)
    | some (left + 1) =>
        ((a.run s.tree).result.mapError .server, ⟨(a.run s.tree).tree, some left, s.part⟩)⟩

/-- An operation that does all or nothing. -/
def whole (a : Action ε α β γ) : Remote ε α β γ := request a fun _ => pure ()

section Rules

variable {s s' : Link α β} {a : Remote ε α β γ}

@[simp] theorem run_pure (x : γ) (s : Link α β) : (pure x : Remote ε α β γ).run s = (.ok x, s) := rfl

@[simp] theorem run_throw (error : RemoteError ε) (s : Link α β) :
    (throw error : Remote ε α β γ).run s = (.error error, s) := rfl

theorem run_bind_ok {f : γ → Remote ε α β δ} {x : γ} (h : a.run s = (.ok x, s')) :
    (a >>= f).run s = (f x).run s' := by
  show (Remote.bind a f).run s = _
  unfold Remote.bind
  simp only [h]

theorem run_bind_error {f : γ → Remote ε α β δ} {error : RemoteError ε}
    (h : a.run s = (.error error, s')) : (a >>= f).run s = (.error error, s') := by
  show (Remote.bind a f).run s = _
  unfold Remote.bind
  simp only [h]

theorem run_orElse_ok {f : RemoteError ε → Remote ε α β γ} {x : γ} (h : a.run s = (.ok x, s')) :
    (a.orElse f).run s = (.ok x, s') := by
  unfold orElse
  simp only [h]

theorem run_orElse_error {f : RemoteError ε → Remote ε α β γ} {error : RemoteError ε}
    (h : a.run s = (.error error, s')) : (a.orElse f).run s = (f error).run s' := by
  unfold orElse
  simp only [h]

theorem run_ensuring_ok {b : Remote ε α β Unit} {result : Except (RemoteError ε) γ} {s'' : Link α β}
    (h : a.run s = (result, s')) (hb : b.run s' = (.ok (), s'')) :
    (a.ensuring b).run s = (result, s'') := by
  unfold ensuring
  simp only [h, hb]

theorem run_ensuring_error {b : Remote ε α β Unit} {result : Except (RemoteError ε) γ}
    {s'' : Link α β} {error : RemoteError ε} (h : a.run s = (result, s'))
    (hb : b.run s' = (.error error, s'')) : (a.ensuring b).run s = (.error error, s'') := by
  unfold ensuring
  simp only [h, hb]

variable {t t' : FileTree α β} {part left : Nat} {act : Action ε α β γ}
  {cut : Nat → Action ε α β Unit}

theorem request_lost :
    (request act cut).run ⟨t, none, part⟩ = (.error .connectionLost, ⟨t, none, part⟩) := rfl

theorem request_cut : (request act cut).run ⟨t, some 0, part⟩ =
    (.error .connectionLost, ⟨((cut part).run t).tree, none, part⟩) := rfl

theorem request_ok {x : γ} (hresult : (act.run t).result = .ok x) (htree : (act.run t).tree = t') :
    (request act cut).run ⟨t, some (left + 1), part⟩ = (.ok x, ⟨t', some left, part⟩) := by
  show ((act.run t).result.mapError RemoteError.server, (⟨(act.run t).tree, _, _⟩ : Link α β)) = _
  rw [hresult, htree]
  rfl

theorem request_refused {error : FileError ε} (hresult : (act.run t).result = .error error)
    (htree : (act.run t).tree = t') :
    (request act cut).run ⟨t, some (left + 1), part⟩ =
      (.error (.server error), ⟨t', some left, part⟩) := by
  show ((act.run t).result.mapError RemoteError.server, (⟨(act.run t).tree, _, _⟩ : Link α β)) = _
  rw [hresult, htree]
  rfl

theorem whole_cut : (whole act).run ⟨t, some 0, part⟩ = (.error .connectionLost, ⟨t, none, part⟩) := rfl

theorem whole_lost :
    (whole act).run ⟨t, none, part⟩ = (.error .connectionLost, ⟨t, none, part⟩) := rfl

end Rules

/-! ### A connection that lasts -/

/-- The program does what the action does, over a connection that carries so
many operations. -/
def Carries (r : Remote ε α β γ) (a : Action ε α β γ) (n : Nat) : Prop :=
  ∀ t left part, n ≤ left → ∃ left', left ≤ left' + n ∧
    r.run ⟨t, some left, part⟩ =
      ((a.run t).result.mapError .server, ⟨(a.run t).tree, some left', part⟩)

section Lasting

variable {r : Remote ε α β γ} {a : Action ε α β γ} {n m : Nat}

theorem Carries.mono (h : Carries r a n) (hle : n ≤ m) : Carries r a m := by
  intro t left part hleft
  obtain ⟨left', hle', hrun⟩ := h t left part (Nat.le_trans hle hleft)
  exact ⟨left', by omega, hrun⟩

theorem carries_pure (x : γ) : Carries (pure x : Remote ε α β γ) (pure x) 0 :=
  fun _ left _ _ => ⟨left, Nat.le_refl left, rfl⟩

theorem carries_throw (error : FileError ε) :
    Carries (throw (.server error) : Remote ε α β γ) (Action.fail error) 0 :=
  fun _ left _ _ => ⟨left, Nat.le_refl left, rfl⟩

theorem carries_request (act : Action ε α β γ) (cut : Nat → Action ε α β Unit) :
    Carries (request act cut) act 1 := by
  intro t left part hleft
  obtain ⟨left, rfl⟩ : ∃ rest, left = rest + 1 := ⟨left - 1, by omega⟩
  exact ⟨left, Nat.le_refl _, rfl⟩

theorem carries_bind {r' : γ → Remote ε α β δ} {f : γ → Action ε α β δ} (h : Carries r a n)
    (hf : ∀ x, Carries (r' x) (f x) m) : Carries (r >>= r') (a >>= f) (n + m) := by
  intro t left part hleft
  obtain ⟨left', hle, hrun⟩ := h t left part (by omega)
  cases hresult : (a.run t).result with
  | error error =>
      rw [hresult] at hrun
      rw [run_bind_error hrun, Action.bind_run_error hresult]
      exact ⟨left', by omega, rfl⟩
  | ok x =>
      rw [hresult] at hrun
      rw [run_bind_ok hrun]
      obtain ⟨left'', hle', hrun'⟩ := hf x (a.run t).tree left' part (by omega)
      refine ⟨left'', by omega, ?_⟩
      rw [hrun', Action.bind_run hresult]

theorem carries_orElse {r' : RemoteError ε → Remote ε α β γ} {f : FileError ε → Action ε α β γ}
    (h : Carries r a n) (hf : ∀ error, Carries (r' (.server error)) (f error) m) :
    Carries (r.orElse r') (Action.handle a f) (n + m) := by
  intro t left part hleft
  obtain ⟨left', hle, hrun⟩ := h t left part (by omega)
  cases hresult : (a.run t).result with
  | ok x =>
      rw [hresult] at hrun
      rw [run_orElse_ok hrun, Action.handle_run_ok hresult]
      exact ⟨left', by omega, rfl⟩
  | error error =>
      rw [hresult] at hrun
      rw [run_orElse_error hrun, Action.handle_run_error hresult]
      obtain ⟨left'', hle', hrun'⟩ := hf error (a.run t).tree left' part (by omega)
      exact ⟨left'', by omega, hrun'⟩

theorem carries_ensuring {r' : Remote ε α β Unit} {b : Action ε α β Unit} (h : Carries r a n)
    (hb : Carries r' b m) : Carries (r.ensuring r') (Action.ensuring a b) (n + m) := by
  intro t left part hleft
  obtain ⟨left', hle, hrun⟩ := h t left part (by omega)
  obtain ⟨left'', hle', hrun'⟩ := hb (a.run t).tree left' part (by omega)
  refine ⟨left'', by omega, ?_⟩
  cases hresult : (b.run (a.run t).tree).result with
  | error error =>
      rw [hresult] at hrun'
      rw [run_ensuring_error hrun hrun', Action.ensuring_run_error hresult]
      rfl
  | ok done =>
      rw [hresult] at hrun'
      rw [run_ensuring_ok hrun hrun', Action.ensuring_run_ok hresult]

end Lasting

end Remote

end FileTree
