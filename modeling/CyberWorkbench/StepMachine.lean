/-!
# Partial step machines and their runs

A machine is a set of start states and a *partial* step function: `step s a`
is `none` exactly when the action `a` is not enabled in `s`.  Every source of
nondeterminism (which task the event loop resumes, what the environment
delivers, which fresh identifier is drawn) is part of the action, so a finite
list of actions is one interleaving, and `exec` replays it.

Three rules carry every result about runs:

* `exec_invariant` — what holds initially and is kept by every step that meets
  a side condition holds after any run whose steps meet it;
* `stepsMeet_of_invariant` — under such an invariant a property of single
  steps follows along the whole run;
* `History.invariant` — the run rule for statements about the past of a state.

Because the step function is computable, a concrete interleaving is replayed
by `decide`, and so is a decidable condition on its steps.
-/

namespace StepMachine

universe u v

/-- A labelled machine with a partial, deterministic step function. -/
structure Machine (σ : Type u) (α : Type v) where
  Start : σ → Prop
  step : σ → α → Option σ

variable {σ : Type u} {α : Type v} (m : Machine σ α)

/-- Replay a list of actions; `none` as soon as one of them is not enabled. -/
def exec : σ → List α → Option σ
  | s, [] => some s
  | s, a :: rest =>
      match m.step s a with
      | none => none
      | some next => exec next rest

/-- A state some run reaches from a start state. -/
def Reachable (t : σ) : Prop :=
  ∃ s acts, m.Start s ∧ exec m s acts = some t

/-- Every step taken along `acts` from `s` satisfies `P`. -/
def StepsMeet (P : σ → α → σ → Prop) : σ → List α → Prop
  | _, [] => True
  | s, a :: rest =>
      ∀ next, m.step s a = some next → P s a next ∧ StepsMeet P next rest

variable {m}

/-- A decidable condition is decided along a run. -/
instance decidableStepsMeet {P : σ → α → σ → Prop} [∀ s a t, Decidable (P s a t)] :
    ∀ (s : σ) (acts : List α), Decidable (StepsMeet m P s acts)
  | _, [] => .isTrue trivial
  | s, a :: rest =>
      match hstep : m.step s a with
      | none => .isTrue (fun next h => by simp [hstep] at h)
      | some next =>
          have : Decidable (StepsMeet m P next rest) := decidableStepsMeet next rest
          decidable_of_iff (P s a next ∧ StepsMeet m P next rest) ⟨
            fun h next' h' => Option.some.inj (hstep.symm.trans h') ▸ h,
            fun h => h next hstep⟩

@[simp] theorem exec_nil (s : σ) : exec m s [] = some s := rfl

/-- The first step of a successful run, and the run that follows it. -/
theorem exec_cons_some {s t : σ} {a : α} {rest : List α}
    (h : exec m s (a :: rest) = some t) :
    ∃ next, m.step s a = some next ∧ exec m next rest = some t := by
  unfold exec at h
  cases hstep : m.step s a with
  | none => simp [hstep] at h
  | some next => exact ⟨next, rfl, by simpa [hstep] using h⟩

theorem exec_cons_of_step {s next : σ} {a : α} (rest : List α)
    (h : m.step s a = some next) : exec m s (a :: rest) = exec m next rest := by
  simp [exec, h]

/-- Runs compose. -/
theorem exec_append {s mid : σ} {left : List α} (right : List α)
    (h : exec m s left = some mid) :
    exec m s (left ++ right) = exec m mid right := by
  induction left generalizing s with
  | nil =>
      have hs : s = mid := by simpa using h
      simp [hs]
  | cons a rest ih =>
      obtain ⟨next, hstep, hrest⟩ := exec_cons_some h
      rw [List.cons_append, exec_cons_of_step _ hstep]
      exact ih hrest

/-- One more step keeps a state reachable. -/
theorem Reachable.step {s t : σ} {a : α} (h : Reachable m s)
    (hstep : m.step s a = some t) : Reachable m t := by
  obtain ⟨start, acts, hstart, hexec⟩ := h
  refine ⟨start, acts ++ [a], hstart, ?_⟩
  rw [exec_append [a] hexec]
  simp [exec, hstep]

theorem Reachable.start {s : σ} (h : m.Start s) : Reachable m s :=
  ⟨s, [], h, rfl⟩

@[simp] theorem stepsMeet_nil (P : σ → α → σ → Prop) (s : σ) :
    StepsMeet m P s [] := trivial

theorem StepsMeet.head {P : σ → α → σ → Prop} {s next : σ} {a : α} {rest : List α}
    (h : StepsMeet m P s (a :: rest)) (hstep : m.step s a = some next) :
    P s a next :=
  (h next hstep).1

theorem StepsMeet.tail {P : σ → α → σ → Prop} {s next : σ} {a : α} {rest : List α}
    (h : StepsMeet m P s (a :: rest)) (hstep : m.step s a = some next) :
    StepsMeet m P next rest :=
  (h next hstep).2

/-- A step of a given run, with the condition it meets. -/
theorem stepsMeet_cons {P : σ → α → σ → Prop} {s next : σ} {a : α} {rest : List α}
    (hstep : m.step s a = some next) (hhere : P s a next) (hrest : StepsMeet m P next rest) :
    StepsMeet m P s (a :: rest) := by
  intro other hother
  rw [hstep] at hother
  obtain rfl := Option.some.inj hother
  exact ⟨hhere, hrest⟩

/-- The condition that every step meets. -/
theorem stepsMeet_true (s : σ) (acts : List α) : StepsMeet m (fun _ _ _ => True) s acts := by
  induction acts generalizing s with
  | nil => trivial
  | cons a rest ih => exact fun next _ => ⟨trivial, ih next⟩

/-- Two conditions on the steps of a run. -/
theorem stepsMeet_and {P Q : σ → α → σ → Prop} {s : σ} {acts : List α}
    (hp : StepsMeet m P s acts) (hq : StepsMeet m Q s acts) :
    StepsMeet m (fun s a t => P s a t ∧ Q s a t) s acts := by
  induction acts generalizing s with
  | nil => trivial
  | cons a rest ih =>
      intro next hstep
      exact ⟨⟨hp.head hstep, hq.head hstep⟩, ih (hp.tail hstep) (hq.tail hstep)⟩

/-- The steps of a run are the steps of its two halves. -/
theorem stepsMeet_append {P : σ → α → σ → Prop} {s mid : σ} {left right : List α}
    (h : exec m s left = some mid) :
    StepsMeet m P s (left ++ right) ↔
      StepsMeet m P s left ∧ StepsMeet m P mid right := by
  induction left generalizing s with
  | nil =>
      have hs : s = mid := by simpa using h
      simp [hs]
  | cons a rest ih =>
      obtain ⟨next, hstep, hrest⟩ := exec_cons_some h
      simp [StepsMeet, hstep, ih hrest, and_assoc]

/-- **Run rule.**  An invariant that every side-conditioned step keeps holds
after every run whose steps meet the side condition. -/
theorem exec_invariant {I : σ → Prop} {C : σ → α → σ → Prop}
    (keep : ∀ s a t, I s → C s a t → m.step s a = some t → I t)
    {s t : σ} {acts : List α} (hs : I s) (hok : StepsMeet m C s acts)
    (h : exec m s acts = some t) : I t := by
  induction acts generalizing s with
  | nil =>
      have hst : s = t := by simpa using h
      exact hst ▸ hs
  | cons a rest ih =>
      obtain ⟨next, hstep, hrest⟩ := exec_cons_some h
      exact ih (keep s a next hs (hok.head hstep) hstep) (hok.tail hstep) hrest

/-- The run rule without a side condition, for reachable states. -/
theorem reachable_invariant {I : σ → Prop}
    (start : ∀ s, m.Start s → I s)
    (keep : ∀ s a t, I s → m.step s a = some t → I t)
    {t : σ} (h : Reachable m t) : I t := by
  obtain ⟨s, acts, hs, hexec⟩ := h
  exact exec_invariant (C := fun _ _ _ => True)
    (fun s a t hs _ hstep => keep s a t hs hstep) (start s hs) (stepsMeet_true s acts) hexec

/-- **Step rule.**  Under an invariant, a side condition on steps yields a
property of steps along the whole run. -/
theorem stepsMeet_of_invariant {I : σ → Prop} {C P : σ → α → σ → Prop}
    (keep : ∀ s a t, I s → C s a t → m.step s a = some t → I t)
    (local_ : ∀ s a t, I s → C s a t → m.step s a = some t → P s a t)
    {s : σ} {acts : List α} (hs : I s) (hok : StepsMeet m C s acts) :
    StepsMeet m P s acts := by
  induction acts generalizing s with
  | nil => trivial
  | cons a rest ih =>
      intro next hstep
      have hhead := hok.head hstep
      exact ⟨local_ s a next hs hhead hstep,
        ih (keep s a next hs hhead hstep) (hok.tail hstep)⟩

/-- Two step properties that agree at every state of an invariant agree along
every run. -/
theorem stepsMeet_congr {I : σ → Prop} {P Q : σ → α → σ → Prop}
    (keep : ∀ s a t, I s → m.step s a = some t → I t)
    (agree : ∀ s a t, I s → m.step s a = some t → (P s a t ↔ Q s a t))
    {s : σ} {acts : List α} (hs : I s) :
    StepsMeet m P s acts ↔ StepsMeet m Q s acts := by
  constructor
  · exact stepsMeet_of_invariant (fun s a t hi _ => keep s a t hi)
      (fun s a t hi hp hstep => (agree s a t hi hstep).1 hp) hs
  · exact stepsMeet_of_invariant (fun s a t hi _ => keep s a t hi)
      (fun s a t hi hq hstep => (agree s a t hi hstep).2 hq) hs

/-- A property of states that each step keeps exactly when it meets a condition: the
states of a run have it exactly when its steps meet the condition. -/
theorem stepsMeet_kept_iff {I K : σ → Prop} {Q : σ → α → σ → Prop}
    (keep : ∀ s a t, I s → m.step s a = some t → I t)
    (kept : ∀ s a t, I s → K s → m.step s a = some t → (K t ↔ Q s a t))
    {s : σ} {acts : List α} (hs : I s) (hk : K s) :
    StepsMeet m (fun _ _ t => K t) s acts ↔ StepsMeet m Q s acts := by
  induction acts generalizing s with
  | nil => exact Iff.rfl
  | cons a rest ih =>
      constructor
      · intro h next hstep
        have hnext := h.head hstep
        exact ⟨(kept s a next hs hk hstep).mp hnext,
          (ih (keep s a next hs hstep) hnext).mp (h.tail hstep)⟩
      · intro h next hstep
        have hnext : K next := (kept s a next hs hk hstep).mpr (h.head hstep)
        exact ⟨hnext, (ih (keep s a next hs hstep) hnext).mpr (h.tail hstep)⟩

/-! ### Parts

A state keeps its parts in lists, and a step replaces one of them. -/

/-- What stands in a list after a replacement. -/
theorem getElem?_set_cases {α : Type} {l : List α} {i j : Nat} {x y : α}
    (h : (l.set i x)[j]? = some y) : (j = i ∧ y = x) ∨ (j ≠ i ∧ l[j]? = some y) := by
  rw [List.getElem?_set] at h
  split at h
  · rename_i hij
    split at h
    · exact .inl ⟨hij.symm, (Option.some.inj h).symm⟩
    · cases h
  · rename_i hij
    exact .inr ⟨fun hji => hij hji.symm, h⟩

/-- What stands in a list after a part was added at its end. -/
theorem getElem?_concat_cases {α : Type} {l : List α} {j : Nat} {x y : α}
    (h : (l ++ [x])[j]? = some y) : l[j]? = some y ∨ y = x := by
  rw [List.getElem?_append] at h
  split at h
  · exact .inl h
  · rw [List.getElem?_singleton] at h
    split at h
    · exact .inr (Option.some.inj h).symm
    · cases h

/-- A part other than the one replaced is still there. -/
theorem mem_set_of_ne {α : Type} {l : List α} {i : Nat} {x y z : α} (hi : l[i]? = some x)
    (hz : z ∈ l) (hne : z ≠ x) : z ∈ l.set i y := by
  obtain ⟨j, hj⟩ := List.mem_iff_getElem?.mp hz
  refine List.mem_iff_getElem?.mpr ⟨j, ?_⟩
  rw [List.getElem?_set_ne]
  · exact hj
  · rintro rfl
    rw [hi] at hj
    exact hne (Option.some.inj hj).symm

/-! ### Histories

A history records every action of a run with the state it led to, so a
statement about *when* something happened can name the moment. -/

/-- `h` is a history of a run from `s` to `t`, oldest action first. -/
inductive History (m : Machine σ α) (s : σ) : List (α × σ) → σ → Prop
  | start : History m s [] s
  | step {h : List (α × σ)} {t u : σ} {a : α} (past : History m s h t)
      (next : m.step t a = some u) : History m s (h ++ [(a, u)]) u

/-- The actions of a history replay it. -/
theorem History.exec {s t : σ} {h : List (α × σ)} (past : History m s h t) :
    exec m s (h.map Prod.fst) = some t := by
  induction past with
  | start => rfl
  | step past next ih =>
      rw [List.map_append, exec_append _ ih]
      simp [StepMachine.exec, next]

/-- Every run has a history. -/
theorem exists_history {s t : σ} {acts : List α} (h : exec m s acts = some t) :
    ∃ past, past.map Prod.fst = acts ∧ History m s past t := by
  suffices hfrom : ∀ (acts : List α) (r : σ) (past : List (α × σ)), History m s past r →
      exec m r acts = some t →
        ∃ past', past'.map Prod.fst = past.map Prod.fst ++ acts ∧ History m s past' t by
    obtain ⟨past, hpast⟩ := hfrom acts s [] .start h
    exact ⟨past, by simpa using hpast⟩
  intro acts
  induction acts with
  | nil =>
      intro r past hpast hexec
      have hr : r = t := by simpa using hexec
      exact ⟨past, by simp, hr ▸ hpast⟩
  | cons a rest ih =>
      intro r past hpast hexec
      obtain ⟨next, hstep, hrest⟩ := exec_cons_some hexec
      obtain ⟨past', hacts, hpast'⟩ := ih next _ (hpast.step hstep) hrest
      exact ⟨past', by simpa using hacts, hpast'⟩

/-- The state reached is that of the last step, wherever the history is cut
before it. -/
theorem History.last_mem {s t : σ} {before rest : List (α × σ)} {x : α × σ}
    (past : History m s (before ++ x :: rest) t) : ∃ y ∈ x :: rest, y.2 = t := by
  generalize hh : before ++ x :: rest = h at past
  cases past with
  | start => simp at hh
  | @step h' _ _ a past next =>
      refine ⟨(a, t), ?_, rfl⟩
      have hlast : (before ++ x :: rest).getLast? = (h' ++ [(a, t)]).getLast? := by rw [hh]
      rw [List.getLast?_concat, List.getLast?_append,
        List.getLast?_eq_some_getLast (List.cons_ne_nil x rest), Option.some_or] at hlast
      exact Option.some.inj hlast ▸ List.getLast_mem (List.cons_ne_nil x rest)

/-- **History rule.**  What holds at the start and is kept by every step of a
history holds of the whole history and the state it leads to. -/
theorem History.invariant {s t : σ} {h : List (α × σ)} {I : List (α × σ) → σ → Prop}
    (start : I [] s)
    (keep : ∀ h t a u, History m s h t → I h t → m.step t a = some u → I (h ++ [(a, u)]) u)
    (past : History m s h t) : I h t := by
  induction past with
  | start => exact start
  | step past next ih => exact keep _ _ _ _ past ih next

end StepMachine
