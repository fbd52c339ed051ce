import CyberWorkbench.PermissionSafety

/-!
# What a permission answer is worth

`decide` answers a request that is still in `_pending`, sets the event and
returns; the waiter resumes later, takes the lock to leave `_pending`, and only
then reads the mode and the decision.  In between the decision can be replaced,
the timeout can still fire, and the mode can change.

`decision_stands`: an answer takes effect when none of these happens to it.
`rejected_call_returns`: a rejection that the same user overwrites before the
waiter resumes does not.
-/

namespace Workbench.RuntimePermissions

open PythonValues KeyedTable StepMachine

variable {urlsplit : String → Except String SplitResult}

/-! ### Answers -/

/-- The status `decide` returns is ALLOWED rather than REJECTED. -/
def RuntimePermissionDecision.allowed (d : RuntimePermissionDecision) : Bool :=
  Decidable.decide (d ≠ .reject)

/-- `PermissionError`, as `require_permission` raises it. -/
def CallOutcome.isPermissionError : CallOutcome → Bool
  | .returned => false
  | .raised message =>
      Decidable.decide (message = "授权请求已超时" ∨ message = "用户拒绝了该操作")

/-- The outcome is what the answer said. -/
def CallOutcome.Honours (outcome : CallOutcome) (allowed : Bool) : Prop :=
  if allowed then outcome = .returned else outcome.isPermissionError = true

/-- `decide` finds the request and returns it. -/
def AnswersTo (s : GateState) (requestId : Nat) (requesterId : Int) (r : CallRecord) : Prop :=
  s.calls.get? requestId = some r ∧ r.registered = true ∧ r.request.requesterId = requesterId

/-- The call has not ended, and an allowed one has not timed out. -/
def CallRecord.TakesUp (r : CallRecord) (allowed : Bool) : Prop :=
  r.phase = .waiting ∨ r.phase = .leaving false ∨ (allowed = false ∧ r.phase = .leaving true)

instance (r : CallRecord) (allowed : Bool) : Decidable (r.TakesUp allowed) :=
  inferInstanceAs (Decidable (_ ∨ _))

/-- The waiter has still to read the mode and the decision. -/
def CallRecord.Undecided (r : CallRecord) : Prop :=
  r.registered = true ∧ (r.phase = .waiting ∨ r.phase = .leaving false)

instance (r : CallRecord) : Decidable r.Undecided := inferInstanceAs (Decidable (_ ∧ _))

/-- **Nothing overtakes the answer.**  The call is not cancelled; an allowed one
does not time out; and until the waiter has read them no decision for the
request says otherwise, and full access does not override a rejection. -/
def Upholds (requestId : Nat) (allowed : Bool) (s : GateState) (a : GateAction)
    (_ : GateState) : Prop :=
  match a with
  | .expire other => other = requestId → allowed = true →
      ∀ r ∈ s.calls.get? requestId, r.phase ≠ .waiting
  | .cancel other => other = requestId →
      ∀ r ∈ s.calls.get? requestId, r.phase ≠ .waiting ∧ ∀ late, r.phase ≠ .leaving late
  | .decide other requesterId d => other = requestId →
      ∀ r ∈ s.calls.get? requestId, r.Undecided → r.request.requesterId = requesterId →
        d.allowed = allowed
  | .updateMode mode => allowed = false →
      ∀ r ∈ s.calls.get? requestId, r.Undecided → mode ≠ .fullAccess
  | .leave other => other = requestId → allowed = false →
      ∀ r ∈ s.calls.get? requestId, r.phase = .leaving false → s.mode ≠ .fullAccess
  | .applyConfig _ | .authorize .. | .register _ | .wake _ | .clearRules => True

instance (requestId : Nat) (allowed : Bool) : ∀ s a t, Decidable (Upholds requestId allowed s a t)
  | _, .expire _, _ | _, .cancel _, _ | _, .decide .., _ | _, .updateMode _, _ | _, .leave _, _ => by
      unfold Upholds
      infer_instance
  | _, .applyConfig _, _ | _, .authorize .., _ | _, .register _, _ | _, .wake _, _
  | _, .clearRules, _ => .isTrue trivial

/-- An answered call whose waiter has not read the answer yet. -/
structure Pending (r : CallRecord) (allowed : Bool) : Prop where
  event : r.event = true
  phase : r.phase = .waiting ∨ r.phase = .leaving false
  decision : ∃ d, r.decision = some d ∧ d.allowed = allowed

/-- Where an answered call can be. -/
def CallRecord.KeepsAnswer (r : CallRecord) (allowed : Bool) : Prop :=
  Pending r allowed ∨ (allowed = false ∧ r.phase = .leaving true) ∨
    ∃ outcome, r.phase = .ended outcome ∧ outcome.Honours allowed

/-- **The invariant of an answer.** -/
def Stands (requestId : Nat) (allowed : Bool) (s : GateState) : Prop :=
  ∃ r, s.calls.get? requestId = some r ∧ r.KeepsAnswer allowed

/-! ### What a step does to one call -/

theorem get?_setCall (s : GateState) (requestId other : Nat) (f : CallRecord → CallRecord)
    (hf : ∀ r, (f r).requestId = r.requestId) :
    (s.setCall requestId f hf).calls.get? other =
      if other = requestId then (s.calls.get? other).map f else s.calls.get? other := by
  change (Table.updateWhere s.calls _ f hf).get? other = _
  rw [Table.get?_updateWhere]
  cases hget : s.calls.get? other with
  | none => simp
  | some r =>
      have hid : r.requestId = other := (Table.get?_eq_some hget).2
      by_cases heq : other = requestId
      · simp [hid, heq]
      · simp [hid, heq]

theorem get?_setPhase {s : GateState} {requestId : Nat} {r : CallRecord}
    (hget : s.calls.get? requestId = some r) (phase : CallPhase) (registered : Bool) :
    (s.setPhase requestId phase registered).calls.get? requestId =
      some { r with phase := phase, registered := registered } := by
  unfold GateState.setPhase
  rw [get?_setCall, if_pos rfl, hget]
  rfl

/-- A call that concludes after the event does what its answer said. -/
theorem conclude_honours {s : GateState} {r : CallRecord} {allowed : Bool}
    (h : Pending r allowed) (hmode : allowed = false → s.mode ≠ .fullAccess) :
    (s.conclude r).1.Honours allowed := by
  obtain ⟨d, hdecision, hallowed⟩ := h.decision
  unfold GateState.conclude
  simp only [hdecision]
  by_cases hfull : s.mode = .fullAccess
  · rw [if_pos hfull]
    cases allowed with
    | true => rfl
    | false => exact absurd hfull (hmode rfl)
  · rw [if_neg hfull]
    cases d with
    | allowOnce | alwaysAllow =>
        obtain rfl : true = allowed := hallowed
        rfl
    | reject =>
        obtain rfl : false = allowed := hallowed
        rfl

/-- A step that leaves the call as it was. -/
theorem Stands.kept {requestId : Nat} {allowed : Bool} {s t : GateState}
    (h : Stands requestId allowed s)
    (hcall : ∀ r, s.calls.get? requestId = some r → t.calls.get? requestId = some r) :
    Stands requestId allowed t := by
  obtain ⟨r, hget, hkeeps⟩ := h
  exact ⟨r, hcall r hget, hkeeps⟩

/-- A step of another call. -/
theorem Stands.other {requestId other : Nat} {allowed : Bool} {s t : GateState}
    (h : Stands requestId allowed s) (hne : requestId ≠ other) {f : CallRecord → CallRecord}
    {hf : ∀ r, (f r).requestId = r.requestId} (hcalls : t.calls = (s.setCall other f hf).calls) :
    Stands requestId allowed t := by
  refine h.kept ?_
  intro r hget
  rw [hcalls, get?_setCall, if_neg hne]
  exact hget

/-- A step of the answered call itself. -/
theorem Stands.own {requestId : Nat} {allowed : Bool} {s t : GateState} {r : CallRecord}
    (hget : s.calls.get? requestId = some r) {f : CallRecord → CallRecord}
    {hf : ∀ r, (f r).requestId = r.requestId}
    (hcalls : t.calls = (s.setCall requestId f hf).calls)
    (hnext : (f r).KeepsAnswer allowed) : Stands requestId allowed t := by
  refine ⟨f r, ?_, hnext⟩
  rw [hcalls, get?_setCall, if_pos rfl, hget]
  rfl

/-- What `decide` does to the calls, where it does not raise. -/
theorem decide_calls {s : GateState} {requestId : Nat} {requesterId : Int}
    {d : RuntimePermissionDecision} {r : CallRecord} (h : AnswersTo s requestId requesterId r) :
    (s.decide requestId requesterId d).calls = (s.setCall requestId
      (fun r => { r with
        decision := some d
        status := if d = .reject then .rejected else .allowed
        event := true }) (fun _ => rfl)).calls := by
  obtain ⟨hget, hregistered, huser⟩ := h
  unfold GateState.decide
  rw [hget]
  simp only
  rw [if_neg (by simp [hregistered, huser])]
  by_cases halways : d = .alwaysAllow
  · rw [if_pos halways]
    rfl
  · rw [if_neg halways]

/-- `decide` raises and changes nothing, or answers the request. -/
theorem decide_answers (s : GateState) (requestId : Nat) (requesterId : Int)
    (d : RuntimePermissionDecision) :
    s.decide requestId requesterId d = s ∨ ∃ r, AnswersTo s requestId requesterId r := by
  unfold GateState.decide
  split
  · exact .inl rfl
  · rename_i r hget
    split
    · exact .inl rfl
    · rename_i hguard
      simp only [not_or, Bool.not_eq_false, ne_eq, Decidable.not_not] at hguard
      exact .inr ⟨r, hget, hguard.1, hguard.2⟩

/-- An answer that the call can take up stands. -/
theorem stands_of_decide {s : GateState} {requestId : Nat} {requesterId : Int}
    {d : RuntimePermissionDecision} {r : CallRecord} (h : AnswersTo s requestId requesterId r)
    (htakes : r.TakesUp d.allowed) :
    Stands requestId d.allowed (s.decide requestId requesterId d) := by
  refine Stands.own h.1 (decide_calls h) ?_
  rcases htakes with hwaiting | hleaving | ⟨hrejected, hlate⟩
  · exact .inl ⟨rfl, .inl hwaiting, d, rfl, rfl⟩
  · exact .inl ⟨rfl, .inr hleaving, d, rfl, rfl⟩
  · exact .inr (.inl ⟨hrejected, hlate⟩)

/-- The request is decided once more. -/
theorem Stands.decide {requestId other : Nat} {allowed : Bool} {s : GateState} {requesterId : Int}
    {d : RuntimePermissionDecision} (h : Stands requestId allowed s)
    (hok : Upholds requestId allowed s (.decide other requesterId d)
      (s.decide other requesterId d)) : Stands requestId allowed (s.decide other requesterId d) := by
  rcases decide_answers s other requesterId d with hsame | ⟨q, hq⟩
  · rw [hsame]
    exact h
  · by_cases heq : requestId = other
    · subst heq
      obtain ⟨r, hget, hkeeps⟩ := h
      obtain rfl := Option.some.inj (hget.symm.trans hq.1)
      refine Stands.own hget (decide_calls hq) ?_
      rcases hkeeps with hpending | hrest
      · have hsaid := hok rfl r hget ⟨hq.2.1, hpending.phase⟩ hq.2.2
        exact .inl ⟨rfl, hpending.phase, d, rfl, hsaid⟩
      · exact .inr hrest
    · exact h.other heq (decide_calls hq)

theorem updateMode_eq (s : GateState) (mode : PermissionMode) :
    s.updateMode mode = if mode = .fullAccess then
        { s with
          mode := mode
          calls := s.calls.updateWhere CallRecord.registered
            (fun r => { r with decision := some .allowOnce, status := .allowed, event := true })
            (fun _ => rfl) }
      else { s with mode := mode } := rfl

/-- The mode is set while an answered request is open. -/
theorem Stands.updateMode {requestId : Nat} {allowed : Bool} {s : GateState}
    {mode : PermissionMode} (h : Stands requestId allowed s)
    (hok : Upholds requestId allowed s (.updateMode mode) (s.updateMode mode)) :
    Stands requestId allowed (s.updateMode mode) := by
  rw [updateMode_eq]
  by_cases hfull : mode = .fullAccess
  · rw [if_pos hfull]
    obtain ⟨r, hget, hkeeps⟩ := h
    refine ⟨if r.registered then
      { r with decision := some .allowOnce, status := .allowed, event := true } else r, ?_, ?_⟩
    · rw [Table.get?_updateWhere, hget]
      rfl
    · cases hregistered : r.registered with
      | false => exact hkeeps
      | true =>
          rcases hkeeps with hpending | hrest
          · cases allowed with
            | true => exact .inl ⟨rfl, hpending.phase, .allowOnce, rfl, rfl⟩
            | false => exact absurd hfull (hok rfl r hget ⟨hregistered, hpending.phase⟩)
          · exact .inr hrest
  · rw [if_neg hfull]
    exact h.kept (fun _ hget => hget)

/-- **The step lemma.**  An answer that nothing overtakes stands. -/
theorem Stands.step {requestId : Nat} {allowed : Bool} {s t : GateState} {a : GateAction}
    (h : Stands requestId allowed s) (hok : Upholds requestId allowed s a t)
    (hstep : gateStep urlsplit s a = some t) : Stands requestId allowed t := by
  obtain ⟨r, hget, hkeeps⟩ := id h
  cases a with
  | authorize other call =>
      obtain ⟨calls, hinsert, rfl⟩ := Option.map_eq_some_iff.mp hstep
      exact h.kept (fun r hget => Table.get?_of_insert hinsert hget)
  | register other =>
      simp only [gateStep] at hstep
      split at hstep
      · rename_i q hq
        split at hstep
        · rename_i hphase
          obtain rfl := Option.some.inj hstep
          by_cases heq : requestId = other
          · -- An answered call has registered before.
            subst heq
            obtain rfl := Option.some.inj (hget.symm.trans hq)
            rcases hkeeps with ⟨-, hw | hl, -⟩ | ⟨-, hl⟩ | ⟨outcome, hended, -⟩
            · cases hphase.symm.trans hw
            · cases hphase.symm.trans hl
            · cases hphase.symm.trans hl
            · cases hphase.symm.trans hended
          · exact h.other heq rfl
        · cases hstep
      · cases hstep
  | wake other =>
      simp only [gateStep] at hstep
      split at hstep
      · rename_i q hq
        split at hstep
        · rename_i hphase
          obtain rfl := Option.some.inj hstep
          by_cases heq : requestId = other
          · subst heq
            obtain rfl := Option.some.inj (hget.symm.trans hq)
            refine Stands.own hget rfl ?_
            rcases hkeeps with hpending | ⟨-, hl⟩ | ⟨outcome, hended, -⟩
            · exact .inl ⟨hpending.event, .inr rfl, hpending.decision⟩
            · cases hphase.1.symm.trans hl
            · cases hphase.1.symm.trans hended
          · exact h.other heq rfl
        · cases hstep
      · cases hstep
  | expire other =>
      simp only [gateStep] at hstep
      split at hstep
      · rename_i q hq
        split at hstep
        · rename_i hphase
          obtain rfl := Option.some.inj hstep
          by_cases heq : requestId = other
          · subst heq
            obtain rfl := Option.some.inj (hget.symm.trans hq)
            have hrejected : allowed = false := by
              cases allowed with
              | false => rfl
              | true => exact absurd hphase (hok rfl rfl r hget)
            exact Stands.own (s := s) hget rfl (.inr (.inl ⟨hrejected, rfl⟩))
          · exact h.other heq rfl
        · cases hstep
      · cases hstep
  | leave other =>
      simp only [gateStep] at hstep
      split at hstep
      · rename_i q hq
        split at hstep
        · rename_i hphase
          obtain rfl := Option.some.inj hstep
          by_cases heq : requestId = other
          · subst heq
            obtain rfl := Option.some.inj (hget.symm.trans hq)
            refine Stands.own hget rfl ?_
            rcases hkeeps with ⟨-, hw | hl, -⟩ | ⟨hrejected, -⟩ | ⟨outcome, hended, -⟩
            · cases hphase.symm.trans hw
            · cases hphase.symm.trans hl
            · subst hrejected
              exact .inr (.inr ⟨_, rfl, rfl⟩)
            · cases hphase.symm.trans hended
          · exact h.other heq rfl
        · rename_i hphase
          obtain rfl := Option.some.inj hstep
          by_cases heq : requestId = other
          · subst heq
            obtain rfl := Option.some.inj (hget.symm.trans hq)
            refine Stands.own (s := s) hget rfl ?_
            rcases hkeeps with hpending | ⟨-, hl⟩ | ⟨outcome, hended, -⟩
            · exact .inr (.inr ⟨_, rfl, conclude_honours hpending
                (fun hrejected => hok rfl hrejected r hget hphase)⟩)
            · cases hphase.symm.trans hl
            · cases hphase.symm.trans hended
          · exact h.other heq rfl
        · cases hstep
      · cases hstep
  | cancel other =>
      simp only [gateStep] at hstep
      split at hstep
      · rename_i q hq
        by_cases heq : requestId = other
        · subst heq
          obtain rfl := Option.some.inj (hget.symm.trans hq)
          obtain ⟨hwaiting, hleaving⟩ := hok rfl r hget
          rcases hkeeps with ⟨-, hw | hl, -⟩ | ⟨-, hl⟩ | ⟨outcome, hended, -⟩
          · exact absurd hw hwaiting
          · exact absurd hl (hleaving _)
          · exact absurd hl (hleaving _)
          · rw [hended] at hstep
            cases hstep
        · split at hstep
          · obtain rfl := Option.some.inj hstep
            exact h.other heq rfl
          · obtain rfl := Option.some.inj hstep
            exact h.other heq rfl
          · obtain rfl := Option.some.inj hstep
            exact h.other heq rfl
          · cases hstep
      · cases hstep
  | decide other requesterId d =>
      obtain rfl := Option.some.inj hstep
      exact h.decide hok
  | updateMode mode =>
      obtain rfl := Option.some.inj hstep
      exact h.updateMode hok
  | applyConfig mode =>
      obtain rfl := Option.some.inj hstep
      exact h.kept (fun _ hget => hget)
  | clearRules =>
      obtain rfl := Option.some.inj hstep
      exact h.kept (fun _ hget => hget)

/-! ### What the waiter still does -/

/-- The call ends as answered, by its own steps alone. -/
def EndsAsAnswered (urlsplit : String → Except String SplitResult) (requestId : Nat)
    (allowed : Bool) (s : GateState) : Prop :=
  ∃ acts t r outcome, (∀ a ∈ acts, a = .wake requestId ∨ a = .leave requestId) ∧
    exec (gateMachine urlsplit) s acts = some t ∧ t.calls.get? requestId = some r ∧
    r.phase = .ended outcome ∧ outcome.Honours allowed

/-- An ended call takes no more steps. -/
theorem endsAsAnswered_of_ended {requestId : Nat} {allowed : Bool} {s : GateState}
    {r : CallRecord} {outcome : CallOutcome} (hget : s.calls.get? requestId = some r)
    (hended : r.phase = .ended outcome) (hhonours : outcome.Honours allowed) :
    EndsAsAnswered urlsplit requestId allowed s :=
  ⟨[], s, r, outcome, fun a ha => absurd ha List.not_mem_nil, rfl, hget, hended, hhonours⟩

/-- One more step of the call's own. -/
theorem EndsAsAnswered.cons {requestId : Nat} {allowed : Bool} {s t : GateState} {a : GateAction}
    (hown : a = .wake requestId ∨ a = .leave requestId)
    (hstep : gateStep urlsplit s a = some t) (h : EndsAsAnswered urlsplit requestId allowed t) :
    EndsAsAnswered urlsplit requestId allowed s := by
  obtain ⟨acts, u, r, outcome, howns, hexec, hrest⟩ := h
  refine ⟨a :: acts, u, r, outcome, ?_, ?_, hrest⟩
  · intro b hb
    rcases List.mem_cons.mp hb with rfl | hb
    · exact hown
    · exact howns b hb
  · rw [exec_cons_of_step acts hstep]
    exact hexec

/-- The waiter that takes the lock ends. -/
theorem Stands.leaves {requestId : Nat} {allowed : Bool} {s : GateState} {r : CallRecord}
    {late : Bool} (h : Stands requestId allowed s) (hget : s.calls.get? requestId = some r)
    (hphase : r.phase = .leaving late) (hmode : allowed = false → s.mode ≠ .fullAccess) :
    EndsAsAnswered urlsplit requestId allowed s := by
  have henabled : ∃ t, gateStep urlsplit s (.leave requestId) = some t ∧
      ∃ q outcome, t.calls.get? requestId = some q ∧ q.phase = .ended outcome := by
    cases late with
    | true =>
        refine ⟨s.setPhase requestId (.ended (.raised "授权请求已超时")) false, ?_, _, _,
          get?_setPhase hget _ _, rfl⟩
        simp only [gateStep, hget, hphase]
    | false =>
        have haudited : GateState.calls { s with audits := s.audits ++ (s.conclude r).2 } =
            s.calls := rfl
        refine ⟨GateState.setPhase { s with audits := s.audits ++ (s.conclude r).2 } requestId
          (.ended (s.conclude r).1) false, ?_, _, _, get?_setPhase (haudited ▸ hget) _ _, rfl⟩
        simp only [gateStep, hget, hphase]
  obtain ⟨t, hstep, q, outcome, hq, hended⟩ := henabled
  refine .cons (.inr rfl) hstep ?_
  have hok : Upholds requestId allowed s (.leave requestId) t :=
    fun _ hrejected _ _ _ => hmode hrejected
  obtain ⟨q', hq', hkeeps⟩ := h.step hok hstep
  obtain rfl := Option.some.inj (hq.symm.trans hq')
  rcases hkeeps with ⟨-, hw | hl, -⟩ | ⟨-, hl⟩ | ⟨outcome', hended', hhonours⟩
  · cases hended.symm.trans hw
  · cases hended.symm.trans hl
  · cases hended.symm.trans hl
  · exact endsAsAnswered_of_ended hq' hended' hhonours

/-- **A standing answer takes effect**, unless a rejected call is about to
leave in full access. -/
theorem Stands.endsAsAnswered {requestId : Nat} {allowed : Bool} {s : GateState}
    (h : Stands requestId allowed s) (hmode : allowed = false → s.mode ≠ .fullAccess) :
    EndsAsAnswered urlsplit requestId allowed s := by
  obtain ⟨r, hget, hkeeps⟩ := id h
  rcases hkeeps with ⟨hevent, hw | hl, -⟩ | ⟨-, hl⟩ | ⟨outcome, hended, hhonours⟩
  · have hstep : gateStep urlsplit s (.wake requestId) =
        some (s.setPhase requestId (.leaving false) true) := by
      simp only [gateStep, hget]
      rw [if_pos ⟨hw, hevent⟩]
    have hok : Upholds requestId allowed s (.wake requestId)
        (s.setPhase requestId (.leaving false) true) := trivial
    exact .cons (.inl rfl) hstep ((h.step hok hstep).leaves (get?_setPhase hget _ _) rfl hmode)
  · exact h.leaves hget hl hmode
  · exact h.leaves hget hl hmode
  · exact endsAsAnswered_of_ended hget hended hhonours

/-- **A permission decision stands.**  In every run in which `decide` answers a
request whose call can take the answer up, and nothing overtakes the answer
afterwards: a call that has ended did as the answer said; and one that has not
ends so by its own steps, a rejected one as long as full access is off. -/
theorem decision_stands (urlsplit : String → Except String SplitResult) {s asked t : GateState}
    {before after : List GateAction} {requestId : Nat} {requesterId : Int}
    {d : RuntimePermissionDecision} {r : CallRecord} (_hstart : (gateMachine urlsplit).Start s)
    (_hbefore : exec (gateMachine urlsplit) s before = some asked)
    (hanswers : AnswersTo asked requestId requesterId r) (htakes : r.TakesUp d.allowed)
    (hrun : exec (gateMachine urlsplit) (asked.decide requestId requesterId d) after = some t)
    (hok : StepsMeet (gateMachine urlsplit) (Upholds requestId d.allowed)
      (asked.decide requestId requesterId d) after) :
    (∀ q outcome, t.calls.get? requestId = some q → q.phase = .ended outcome →
      outcome.Honours d.allowed) ∧
    ((d.allowed = false → t.mode ≠ .fullAccess) →
      EndsAsAnswered urlsplit requestId d.allowed t) := by
  have hstands : Stands requestId d.allowed t :=
    exec_invariant (fun s a t hi hok hstep => hi.step hok hstep) (stands_of_decide hanswers htakes)
      hok hrun
  refine ⟨?_, hstands.endsAsAnswered⟩
  intro q outcome hget hended
  obtain ⟨q', hq', hkeeps⟩ := hstands
  obtain rfl := Option.some.inj (hget.symm.trans hq')
  rcases hkeeps with ⟨-, hw | hl, -⟩ | ⟨-, hl⟩ | ⟨outcome', hended', hhonours⟩
  · cases hended.symm.trans hw
  · cases hended.symm.trans hl
  · cases hended.symm.trans hl
  · obtain rfl : outcome = outcome' := by
      have hsame := hended.symm.trans hended'
      injection hsame
    exact hhonours

/-- The command of the host waits for the user. -/
def hostCommandAsked : GateState :=
  { mode := .normal, rules := [],
    calls := ⟨[{ requestId := 7, call := hostCommand, phase := .waiting, registered := true }],
      by simp⟩ }

theorem hostCommandAsked_run :
    exec (gateMachine (fun _ => .error "")) { mode := .normal, rules := [] }
      [.authorize 7 hostCommand, .register 7] = some hostCommandAsked := rfl

/-- The user rejects the command, and it raises. -/
theorem command_rejected :
    ∃ t, exec (gateMachine (fun _ => .error "")) (hostCommandAsked.decide 7 1 .reject)
        [.wake 7, .leave 7] = some t ∧
      (∀ q outcome, t.calls.get? 7 = some q → q.phase = .ended outcome →
        outcome.Honours false) ∧ EndsAsAnswered (fun _ => .error "") 7 false t := by
  have hstart : (gateMachine (fun _ => .error "")).Start { mode := .normal, rules := [] } := rfl
  have hanswers : AnswersTo hostCommandAsked 7 1
      { requestId := 7, call := hostCommand, phase := .waiting, registered := true } :=
    ⟨rfl, rfl, rfl⟩
  have hok : StepsMeet (gateMachine (fun _ => .error "")) (Upholds 7 false)
      (hostCommandAsked.decide 7 1 .reject) [.wake 7, .leave 7] := by decide
  refine ⟨_, rfl, ?_⟩
  obtain ⟨hended, hends⟩ := decision_stands (fun _ => .error "") hstart hostCommandAsked_run
    (d := .reject) hanswers (.inl rfl) rfl hok
  exact ⟨hended, hends (fun _ => by decide)⟩

/-- **A rejected call returns.**  In normal mode the user rejects the command
and, before the waiter resumes, allows it once; both decisions are returned,
and the call does not raise. -/
theorem rejected_call_returns :
    ∃ t q, exec (gateMachine (fun _ => .error "")) { mode := .normal, rules := [] }
        [.authorize 7 hostCommand, .register 7] = some hostCommandAsked ∧
      (∃ r, AnswersTo hostCommandAsked 7 1 r ∧ r.TakesUp false) ∧
      exec (gateMachine (fun _ => .error "")) (hostCommandAsked.decide 7 1 .reject)
        [.decide 7 1 .allowOnce, .wake 7, .leave 7] = some t ∧
      t.mode = .normal ∧ t.calls.get? 7 = some q ∧ q.phase = .ended .returned ∧
      ¬ CallOutcome.Honours .returned RuntimePermissionDecision.reject.allowed := by
  refine ⟨_, _, rfl, ⟨_, ⟨rfl, rfl, rfl⟩, .inl rfl⟩, rfl, rfl, rfl, rfl, ?_⟩
  intro hhonours
  cases hhonours

end Workbench.RuntimePermissions
