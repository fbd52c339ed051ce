import CyberWorkbench.StepMachine

/-!
# Fair runs

An infinite run of a machine, and the rule by which something happens in it
after all.  A run is fair to the actions of the machine's own parts: what stays
possible is done.  What the environment does is not bound by it.

`leads_to`: as long as the goal is not reached, one action helps; it stays
possible and the same until a rank falls, and doing it lowers the rank.
-/

namespace StepMachine

universe u v

variable {σ : Type u} {α : Type v} {m : Machine σ α}

/-- An infinite run from a start state. -/
structure InfiniteRun (m : Machine σ α) where
  state : Nat → σ
  action : Nat → α
  start : m.Start (state 0)
  next : ∀ n, m.step (state n) (action n) = some (state (n + 1))

/-- An action of a part that stays possible from some moment on is done. -/
def InfiniteRun.Fair (run : InfiniteRun m) (own : α → Prop) : Prop :=
  ∀ a, own a → ∀ n, (∀ k, n ≤ k → (m.step (run.state k) a).isSome = true) →
    ∃ k, n ≤ k ∧ run.action k = a

/-- The state after the first steps of a run. -/
theorem exec_take {s t : σ} {acts : List α} (h : exec m s acts = some t) (n : Nat) :
    ∃ mid, exec m s (acts.take n) = some mid ∧ exec m mid (acts.drop n) = some t := by
  induction n generalizing s acts with
  | zero => exact ⟨s, rfl, h⟩
  | succ n ih =>
      cases acts with
      | nil => exact ⟨s, rfl, h⟩
      | cons a rest =>
          obtain ⟨next, hstep, hrest⟩ := exec_cons_some h
          obtain ⟨mid, htake, hdrop⟩ := ih hrest
          exact ⟨mid, (exec_cons_of_step _ hstep).trans htake, hdrop⟩

/-- A step of a run. -/
theorem exec_take_succ {s t : σ} {acts : List α} (h : exec m s acts = some t) {n : Nat}
    (hn : n < acts.length) : ∃ mid next, exec m s (acts.take n) = some mid ∧
      exec m s (acts.take (n + 1)) = some next ∧ m.step mid acts[n] = some next := by
  obtain ⟨mid, htake, hdrop⟩ := exec_take h n
  rw [List.drop_eq_getElem_cons hn] at hdrop
  obtain ⟨next, hstep, -⟩ := exec_cons_some hdrop
  refine ⟨mid, next, htake, ?_, hstep⟩
  rw [List.take_succ_eq_append_getElem hn, exec_append _ htake, exec_cons_of_step _ hstep]
  rfl

theorem exec_take_all {s t : σ} {acts : List α} (h : exec m s acts = some t) {n : Nat}
    (hn : acts.length ≤ n) : exec m s (acts.take n) = some t := by
  rw [List.take_of_length_le hn, h]

/-- A finite run, in whose last state the machine idles for ever. -/
def InfiniteRun.idling {s t : σ} {acts : List α} {a : α} (hstart : m.Start s)
    (hexec : exec m s acts = some t) (hidle : m.step t a = some t) : InfiniteRun m where
  state n := (exec m s (acts.take n)).getD t
  action n := acts[n]?.getD a
  start := hstart
  next n := by
    by_cases hn : n < acts.length
    · obtain ⟨mid, next, htake, hafter, hstep⟩ := exec_take_succ hexec hn
      rw [htake, hafter, List.getElem?_eq_getElem hn]
      exact hstep
    · have hle := Nat.le_of_not_lt hn
      rw [exec_take_all hexec hle, exec_take_all hexec (Nat.le_succ_of_le hle),
        List.getElem?_eq_none hle]
      exact hidle

/-- Where no part can do anything more, idling is fair. -/
theorem InfiniteRun.idling_fair {s t : σ} {acts : List α} {a : α} {own : α → Prop}
    (hstart : m.Start s) (hexec : exec m s acts = some t) (hidle : m.step t a = some t)
    (hrest : ∀ b, own b → m.step t b = none) : (InfiniteRun.idling hstart hexec hidle).Fair own := by
  intro b hb n hpossible
  have hlast : (InfiniteRun.idling hstart hexec hidle).state (n + acts.length) = t := by
    unfold InfiniteRun.idling
    simp only
    rw [exec_take_all hexec (Nat.le_add_left _ _)]
    rfl
  have hsome := hpossible (n + acts.length) (Nat.le_add_right _ _)
  rw [hlast, hrest b hb] at hsome
  cases hsome

/-- What the steps of a finite run meet, and idling. -/
theorem InfiniteRun.idling_meets {s t : σ} {acts : List α} {a : α} {C : σ → α → σ → Prop}
    (hstart : m.Start s) (hexec : exec m s acts = some t) (hidle : m.step t a = some t)
    (hok : StepsMeet m C s acts) (hrest : C t a t) (n : Nat) :
    C ((InfiniteRun.idling hstart hexec hidle).state n)
      ((InfiniteRun.idling hstart hexec hidle).action n)
      ((InfiniteRun.idling hstart hexec hidle).state (n + 1)) := by
  unfold InfiniteRun.idling
  simp only
  by_cases hn : n < acts.length
  · obtain ⟨mid, next, htake, hafter, hstep⟩ := exec_take_succ hexec hn
    rw [← List.take_append_drop n acts, stepsMeet_append htake, List.drop_eq_getElem_cons hn] at hok
    rw [htake, hafter, List.getElem?_eq_getElem hn]
    exact hok.2.head hstep
  · have hle := Nat.le_of_not_lt hn
    rw [exec_take_all hexec hle, exec_take_all hexec (Nat.le_succ_of_le hle),
      List.getElem?_eq_none hle]
    exact hrest

/-- What every step keeps that meets a side condition, holds along the run. -/
theorem InfiniteRun.invariant (run : InfiniteRun m) {I : σ → Prop} {C : σ → α → σ → Prop}
    (keep : ∀ s a t, I s → C s a t → m.step s a = some t → I t) (hstart : I (run.state 0))
    (hok : ∀ n, C (run.state n) (run.action n) (run.state (n + 1))) (n : Nat) : I (run.state n) := by
  induction n with
  | zero => exact hstart
  | succ n ih => exact keep _ _ _ ih (hok n) (run.next n)

/-- A step brings the goal nearer, or leaves the helpful action as it is
without doing it. -/
def Advances (waits goal : σ → Prop) (rank : σ → Nat) (helpful : σ → α) (s : σ) (a : α) (t : σ) :
    Prop :=
  goal t ∨ (waits t ∧ (rank t < rank s ∨ (rank t = rank s ∧ helpful t = helpful s ∧ a ≠ helpful s)))

/-- **Response.** -/
theorem InfiniteRun.leads_to (run : InfiniteRun m) {own : α → Prop} (hfair : run.Fair own)
    {waits goal : σ → Prop} (rank : σ → Nat) (helpful : σ → α)
    (hown : ∀ n, waits (run.state n) → own (helpful (run.state n)))
    (hpossible : ∀ n, waits (run.state n) →
      (m.step (run.state n) (helpful (run.state n))).isSome = true)
    (hstep : ∀ n, waits (run.state n) →
      Advances waits goal rank helpful (run.state n) (run.action n) (run.state (n + 1)))
    (n : Nat) (hwaits : waits (run.state n)) : ∃ k, n ≤ k ∧ goal (run.state k) := by
  -- by induction on the rank: the helpful action is done, if the rank does not fall before
  induction hrank : rank (run.state n) using Nat.strongRecOn generalizing n with
  | ind r ih =>
      refine Classical.byContradiction fun hnever => ?_
      have hstays : ∀ d, waits (run.state (n + d)) ∧ rank (run.state (n + d)) = r ∧
          helpful (run.state (n + d)) = helpful (run.state n) ∧
          run.action (n + d) ≠ helpful (run.state n) := by
        have hone : ∀ k, n ≤ k → waits (run.state k) → rank (run.state k) = r →
            waits (run.state (k + 1)) ∧ rank (run.state (k + 1)) = r ∧
              helpful (run.state (k + 1)) = helpful (run.state k) ∧
              run.action k ≠ helpful (run.state k) := by
          intro k hk hwaits hr
          rcases hstep k hwaits with hgoal | ⟨hwaits', hless | ⟨hsame, hhelpful, hne⟩⟩
          · exact absurd ⟨k + 1, by omega, hgoal⟩ hnever
          · obtain ⟨k', hk', hgoal⟩ := ih _ (hr ▸ hless) (k + 1) hwaits' rfl
            exact absurd ⟨k', by omega, hgoal⟩ hnever
          · exact ⟨hwaits', hsame.trans hr, hhelpful, hne⟩
        intro d
        induction d with
        | zero =>
            obtain ⟨-, -, -, hne⟩ := hone n (Nat.le_refl n) hwaits hrank
            exact ⟨hwaits, hrank, rfl, hne⟩
        | succ d ihd =>
            obtain ⟨hw, hr, hh, -⟩ := ihd
            obtain ⟨hw', hr', hh', -⟩ := hone (n + d) (by omega) hw hr
            obtain ⟨-, -, -, hne⟩ := hone (n + d + 1) (by omega) hw' hr'
            rw [hh', hh] at hne
            exact ⟨hw', hr', hh'.trans hh, hne⟩
      have hpossible' : ∀ k, n ≤ k → (m.step (run.state k) (helpful (run.state n))).isSome = true := by
        intro k hk
        obtain ⟨d, rfl⟩ := Nat.exists_eq_add_of_le hk
        obtain ⟨hw, -, hh, -⟩ := hstays d
        rw [← hh]
        exact hpossible (n + d) hw
      obtain ⟨k, hk, hdone⟩ := hfair _ (hown n hwaits) n hpossible'
      obtain ⟨d, rfl⟩ := Nat.exists_eq_add_of_le hk
      exact (hstays d).2.2.2 hdone

end StepMachine
