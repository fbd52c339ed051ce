import CyberWorkbench.PermissionGate

/-!
# No action without a grant

What one step may do to a call is `RowChange`; from it follows, along any
history, why a call that returns was let through (`permission_gate_safe`).  A
decision reaches a call only through `_pending`, under its own request id and
from its own user, or through the switch to full access.
-/

namespace Workbench.RuntimePermissions

open PythonValues KeyedTable StepMachine

variable {urlsplit : String → Except String SplitResult}

/-! ### Scope -/

/-- The action is inside the scope its session declared. -/
def GateCall.InScope (urlsplit : String → Except String SplitResult) (call : GateCall) : Prop :=
  match call.gate with
  | .network =>
      (∃ item ∈ call.context.allowedTargets,
        sameTarget urlsplit call.requestedTarget item = .ok true) ∧
      (call.context.allowedActionTypes = [] ∨
        call.actionType ∈ call.context.allowedActionTypes) ∧
      (call.risk = .l0 ∨ call.risk = .l1)
  | .localHost =>
      (call.risk = .l0 ∨ call.risk = .l1) ∧
      (call.actionType = "host.local.diagnostic" ∨
        call.actionType ∈ call.context.allowedActionTypes)

theorem risk_low {risk : RiskLevel} (h : ¬ (risk = .l2 ∨ risk = .l3)) :
    risk = .l0 ∨ risk = .l1 := by
  cases risk <;> simp at h ⊢

theorem anySameTarget_true {actual : String} {items : List String}
    (h : anySameTarget urlsplit actual items = .ok true) :
    ∃ item ∈ items, sameTarget urlsplit actual item = .ok true := by
  induction items with
  | nil => cases h
  | cons item rest ih =>
      rw [anySameTarget] at h
      cases hitem : sameTarget urlsplit actual item with
      | error message =>
          rw [hitem] at h
          cases h
      | ok same =>
          rw [hitem] at h
          cases same with
          | true => exact ⟨item, List.mem_cons_self, hitem⟩
          | false =>
              obtain ⟨found, hfound, hsame⟩ := ih h
              exact ⟨found, List.mem_cons_of_mem _ hfound, hsame⟩

/-- The gate lets an action through by itself only in full access, or inside
the declared scope. -/
theorem authorizeRuntime_ok {mode : PermissionMode} {call : GateCall} {verdict : GateVerdict}
    (h : authorizeRuntime urlsplit mode call = .ok verdict) :
    (verdict = .fullAccess ∧ mode = .fullAccess) ∨
      (∃ line, verdict = .allow line ∧ call.InScope urlsplit) ∨ verdict = .askUser := by
  unfold authorizeRuntime at h
  unfold GateCall.InScope GateCall.requestedTarget
  cases hgate : call.gate with
  | network =>
      simp only [hgate, authorizeNetworkActionRuntime] at h ⊢
      split at h
      · cases h
      split at h
      · rename_i hmode
        exact .inl ⟨(Except.ok.inj h).symm, hmode⟩
      cases hdeclared : anySameTarget urlsplit (strip call.target) call.context.allowedTargets with
      | error message =>
          rw [hdeclared] at h
          cases h
      | ok declared =>
          rw [hdeclared] at h
          change (if _ then _ else _) = _ at h
          split at h
          · exact .inr (.inr (Except.ok.inj h).symm)
          · rename_i hscope
            simp only [not_or, Bool.not_eq_false] at hscope
            obtain ⟨rfl, hactions, hrisk⟩ := hscope
            refine .inr (.inl ⟨_, (Except.ok.inj h).symm, anySameTarget_true hdeclared, ?_,
              risk_low (by simpa using hrisk)⟩)
            by_cases hempty : call.context.allowedActionTypes = []
            · exact .inl hempty
            · exact .inr (Decidable.of_not_not fun hno => hactions ⟨hempty, hno⟩)
  | localHost =>
      simp only [hgate, authorizeLocalActionRuntime] at h ⊢
      split at h
      · rename_i hmode
        exact .inl ⟨(Except.ok.inj h).symm, hmode⟩
      split at h
      · exact .inr (.inr (Except.ok.inj h).symm)
      rename_i hrisk
      unfold authorizeLocalDiagnostic at h
      split at h
      · rename_i haction
        exact .inr (.inl ⟨_, (Except.ok.inj h).symm, risk_low hrisk, haction⟩)
      · cases h

theorem ruleMatches_iff {rules : List RuntimePermissionRule} {actionType target : String} :
    ruleMatches rules actionType target = true ↔ ⟨actionType, target⟩ ∈ rules := by
  unfold ruleMatches
  rw [List.any_eq_true]
  constructor
  · rintro ⟨rule, hrule, hmatch⟩
    obtain ⟨rfl, rfl⟩ := of_decide_eq_true hmatch
    exact hrule
  · exact fun hrule => ⟨_, hrule, decide_eq_true ⟨rfl, rfl⟩⟩

/-! ### What a step does to a call -/

/-- The call has ended. -/
def CallRecord.Ended (r : CallRecord) : Prop := ∃ outcome, r.phase = .ended outcome

/-- The call has returned without raising. -/
def CallRecord.Returned (r : CallRecord) : Prop := r.phase = .ended .returned

theorem CallRecord.not_ended {r : CallRecord} {phase : CallPhase} (h : r.phase = phase)
    (hphase : ∀ outcome, phase ≠ .ended outcome) : ¬ r.Ended :=
  fun ⟨outcome, hended⟩ => hphase outcome (h.symm.trans hended)

theorem CallRecord.Returned.ended {r : CallRecord} (h : r.Returned) : r.Ended := ⟨_, h⟩

/-- How a new call enters: it may have returned at once. -/
structure Enters (urlsplit : String → Except String SplitResult) (s : GateState)
    (requestId : Nat) (call : GateCall) (r : CallRecord) : Prop where
  id : r.requestId = requestId
  sameCall : r.call = call
  decision : r.decision = none
  granted : r.Returned → s.mode = .fullAccess ∨ call.InScope urlsplit ∨
    ⟨call.actionType, call.requestedTarget⟩ ∈ s.rules

/-- How an existing call changes in a step. -/
inductive RowChange (s : GateState) (a : GateAction) (t : GateState) (r : CallRecord) :
    CallRecord → Prop
  | same : RowChange s a t r r
  | moved (phase : CallPhase) (registered : Bool) (status : RuntimePermissionStatus)
      (open_ : ¬ r.Ended) (raises : phase ≠ .ended .returned) :
      RowChange s a t r { r with phase := phase, registered := registered, status := status }
  | returned (open_ : ¬ r.Ended)
      (granted : s.mode = .fullAccess ∨ ∃ d, r.decision = some d ∧ d.Allows) :
      RowChange s a t r { r with phase := .ended .returned, registered := false }
  | decided (d : RuntimePermissionDecision) (status : RuntimePermissionStatus)
      (byUser : a = .decide r.requestId r.call.context.userId d) :
      RowChange s a t r { r with decision := some d, status := status, event := true }
  | released (full : t.mode = .fullAccess) :
      RowChange s a t r { r with decision := some .allowOnce, status := .allowed, event := true }

theorem authorize_enters (urlsplit : String → Except String SplitResult) (s : GateState)
    (requestId : Nat) (call : GateCall) :
    Enters urlsplit s requestId call (s.authorize urlsplit requestId call).1 := by
  unfold GateState.authorize
  simp only
  split
  · exact ⟨rfl, rfl, rfl, by simp [CallRecord.Returned]⟩
  · rename_i hverdict
    refine ⟨rfl, rfl, rfl, fun _ => .inl ?_⟩
    rcases authorizeRuntime_ok hverdict with ⟨-, hmode⟩ | ⟨line, hline, -⟩ | hask
    · exact hmode
    · cases hline
    · cases hask
  · rename_i hverdict
    refine ⟨rfl, rfl, rfl, fun _ => .inr (.inl ?_)⟩
    rcases authorizeRuntime_ok hverdict with ⟨hfull, -⟩ | ⟨_, -, hscope⟩ | hask
    · cases hfull
    · exact hscope
    · cases hask
  · split
    · rename_i hmode
      exact ⟨rfl, rfl, rfl, fun _ => .inl hmode⟩
    · split
      · rename_i hrule
        exact ⟨rfl, rfl, rfl, fun _ => .inr (.inr (ruleMatches_iff.mp hrule))⟩
      · exact ⟨rfl, rfl, rfl, by simp [CallRecord.Returned]⟩

/-- A call that concludes by returning was allowed, or the mode is full
access. -/
theorem conclude_returned {s : GateState} {r : CallRecord}
    (h : (s.conclude r).1 = .returned) :
    s.mode = .fullAccess ∨ ∃ d, r.decision = some d ∧ d.Allows := by
  unfold GateState.conclude at h
  simp only at h
  split at h
  · exact .inl ‹_›
  · split at h
    · exact .inr ⟨_, ‹_›, .inl rfl⟩
    · exact .inr ⟨_, ‹_›, .inr rfl⟩
    · cases h

/-- Rows after one call was changed. -/
theorem setCall_rows {s t : GateState} {a : GateAction} {requestId : Nat}
    {f : CallRecord → CallRecord} {hf : ∀ r, (f r).requestId = r.requestId} {r : CallRecord}
    (hget : s.calls.get? requestId = some r) (hchange : RowChange s a t r (f r))
    {r' : CallRecord} (h : r' ∈ (s.setCall requestId f hf).calls.rows) :
    ∃ r ∈ s.calls.rows, RowChange s a t r r' := by
  change r' ∈ (Table.updateWhere s.calls _ f hf).rows at h
  obtain ⟨x, hx, rfl⟩ := Table.mem_updateWhere.mp h
  obtain ⟨hr, hid⟩ := Table.get?_eq_some hget
  refine ⟨x, hx, ?_⟩
  by_cases hkey : x.requestId = requestId
  · obtain rfl := Table.eq_of_key_eq hx hr (hkey.trans hid.symm)
    rw [if_pos (by simpa using hkey)]
    exact hchange
  · rw [if_neg (by simpa using hkey)]
    exact .same

theorem setPhase_rows {s t : GateState} {a : GateAction} {requestId : Nat} {phase : CallPhase}
    {registered : Bool} {r : CallRecord} (hget : s.calls.get? requestId = some r)
    (hopen : ¬ r.Ended) (hraises : phase ≠ .ended .returned) {r' : CallRecord}
    (h : r' ∈ (s.setPhase requestId phase registered).calls.rows) :
    ∃ r ∈ s.calls.rows, RowChange s a t r r' :=
  setCall_rows hget (.moved phase registered r.status hopen hraises) h

/-- `decide` reaches the call with this request id, from its own user. -/
theorem decide_rows {s t : GateState} {requestId : Nat} {requesterId : Int}
    {d : RuntimePermissionDecision} {r' : CallRecord}
    (h : r' ∈ (s.decide requestId requesterId d).calls.rows) :
    ∃ r ∈ s.calls.rows, RowChange s (.decide requestId requesterId d) t r r' := by
  unfold GateState.decide at h
  split at h
  · exact ⟨r', h, .same⟩
  · rename_i r hget
    split at h
    · exact ⟨r', h, .same⟩
    · rename_i hguard
      simp only [not_or, Decidable.not_not] at hguard
      obtain ⟨-, hid⟩ := Table.get?_eq_some hget
      have hchange : RowChange s (.decide requestId requesterId d) t r
          { r with decision := some d, status := if d = .reject then .rejected else .allowed,
                   event := true } := by
        refine .decided d _ ?_
        rw [← hguard.2, ← hid]
        rfl
      simp only at h
      split at h
      · exact setCall_rows (s := s) hget hchange h
      · exact setCall_rows hget hchange h

theorem updateMode_mode (s : GateState) (mode : PermissionMode) :
    (s.updateMode mode).mode = mode := by
  unfold GateState.updateMode
  simp only
  split <;> rfl

theorem updateMode_rows {s : GateState} {a : GateAction} {mode : PermissionMode}
    {r' : CallRecord} (h : r' ∈ (s.updateMode mode).calls.rows) :
    ∃ r ∈ s.calls.rows, RowChange s a (s.updateMode mode) r r' := by
  have hmode := updateMode_mode s mode
  generalize hnext : s.updateMode mode = t at h hmode ⊢
  unfold GateState.updateMode at hnext
  simp only at hnext
  split at hnext
  · rename_i hfull
    subst hnext
    obtain ⟨x, hx, rfl⟩ := List.mem_map.mp h
    refine ⟨x, hx, ?_⟩
    split
    · exact .released hfull
    · exact .same
  · subst hnext
    exact ⟨r', h, .same⟩

/-- **One step.**  Every call after a step entered in it or changed as
`RowChange` says. -/
theorem gateStep_rows {s t : GateState} {a : GateAction} (h : gateStep urlsplit s a = some t)
    {r' : CallRecord} (hr' : r' ∈ t.calls.rows) :
    (∃ requestId call, a = .authorize requestId call ∧ Enters urlsplit s requestId call r' ∧
      ∀ r ∈ s.calls.rows, r.requestId ≠ requestId) ∨
    ∃ r ∈ s.calls.rows, RowChange s a t r r' := by
  cases a with
  | authorize requestId call =>
      obtain ⟨calls, hinsert, rfl⟩ := Option.map_eq_some_iff.mp h
      have henters := authorize_enters urlsplit s requestId call
      rcases (Table.mem_insert hinsert).mp hr' with hold | rfl
      · exact .inr ⟨r', hold, .same⟩
      · refine .inl ⟨requestId, call, rfl, henters, fun r hr hid => ?_⟩
        have hnone := (Table.insert_eq_some hinsert).1
        have hsome := Table.mem_rows_iff_get?.mp hr
        rw [hid, ← henters.id] at hsome
        cases hnone.symm.trans hsome
  | register requestId =>
      simp only [gateStep] at h
      split at h
      · rename_i r hget
        split at h
        · rename_i hphase
          obtain rfl := Option.some.inj h
          exact .inr (setPhase_rows hget (r.not_ended hphase (by simp)) (by simp) hr')
        · cases h
      · cases h
  | wake requestId =>
      simp only [gateStep] at h
      split at h
      · rename_i r hget
        split at h
        · rename_i hphase
          obtain rfl := Option.some.inj h
          exact .inr (setPhase_rows hget (r.not_ended hphase.1 (by simp)) (by simp) hr')
        · cases h
      · cases h
  | expire requestId =>
      simp only [gateStep] at h
      split at h
      · rename_i r hget
        split at h
        · rename_i hphase
          obtain rfl := Option.some.inj h
          exact .inr (setCall_rows (s := s) hget
            (.moved _ r.registered _ (r.not_ended hphase (by simp)) (by simp)) hr')
        · cases h
      · cases h
  | leave requestId =>
      simp only [gateStep] at h
      split at h
      · rename_i r hget
        split at h
        · rename_i hphase
          obtain rfl := Option.some.inj h
          exact .inr (setPhase_rows hget (r.not_ended hphase (by simp)) (by simp) hr')
        · rename_i hphase
          have hopen := r.not_ended hphase (by simp)
          obtain rfl := Option.some.inj h
          cases hconclude : (s.conclude r).1 with
          | returned =>
              refine .inr (setCall_rows (s := s) hget ?_ hr')
              rw [hconclude]
              exact .returned hopen (conclude_returned hconclude)
          | raised message =>
              refine .inr (setPhase_rows (s := s) hget hopen ?_ hr')
              simp [hconclude]
        · cases h
      · cases h
  | cancel requestId =>
      simp only [gateStep] at h
      split at h
      · rename_i r hget
        split at h
        · rename_i hphase
          obtain rfl := Option.some.inj h
          exact .inr (setPhase_rows hget (r.not_ended hphase (by simp)) (by simp) hr')
        · rename_i hphase
          obtain rfl := Option.some.inj h
          exact .inr (setPhase_rows hget (r.not_ended hphase (by simp)) (by simp) hr')
        · rename_i hphase
          obtain rfl := Option.some.inj h
          exact .inr (setPhase_rows hget (r.not_ended hphase (by simp)) (by simp) hr')
        · cases h
      · cases h
  | decide requestId requesterId d =>
      obtain rfl := Option.some.inj h
      exact .inr (decide_rows hr')
  | updateMode mode =>
      obtain rfl := Option.some.inj h
      exact .inr (updateMode_rows hr')
  | applyConfig mode =>
      obtain rfl := Option.some.inj h
      exact .inr ⟨r', hr', .same⟩
  | clearRules =>
      obtain rfl := Option.some.inj h
      exact .inr ⟨r', hr', .same⟩

/-! ### Along a history -/

/-- The call was made in the state `called`; `during` is what happened from
then on, up to the end of the history. -/
def CalledAt (urlsplit : String → Except String SplitResult) (start : GateState)
    (h : List (GateAction × GateState)) (requestId : Nat) (call : GateCall) (called : GateState)
    (during : List (GateAction × GateState)) : Prop :=
  ∃ before next rest, History (gateMachine urlsplit) start before called ∧
    during = (.authorize requestId call, next) :: rest ∧ h = before ++ during

/-- The user of the call allowed this request. -/
def UserGranted (during : List (GateAction × GateState)) (requestId : Nat) (call : GateCall) :
    Prop :=
  ∃ d next, RuntimePermissionDecision.Allows d ∧
    (.decide requestId call.context.userId d, next) ∈ during

/-- The mode was full access at some moment of the call. -/
def FullAccessDuring (called : GateState) (during : List (GateAction × GateState)) : Prop :=
  called.mode = .fullAccess ∨ ∃ x ∈ during, x.2.mode = .fullAccess

theorem CalledAt.append {start called : GateState} {h during : List (GateAction × GateState)}
    {requestId : Nat} {call : GateCall} (hcall : CalledAt urlsplit start h requestId call called during)
    (x : GateAction × GateState) :
    CalledAt urlsplit start (h ++ [x]) requestId call called (during ++ [x]) := by
  obtain ⟨before, next, rest, hbefore, rfl, rfl⟩ := hcall
  exact ⟨before, next, rest ++ [x], hbefore, rfl, by simp⟩

theorem UserGranted.append {during : List (GateAction × GateState)} {requestId : Nat}
    {call : GateCall} (h : UserGranted during requestId call) (x : GateAction × GateState) :
    UserGranted (during ++ [x]) requestId call := by
  obtain ⟨d, next, hallows, hmem⟩ := h
  exact ⟨d, next, hallows, List.mem_append_left _ hmem⟩

theorem FullAccessDuring.append {called : GateState} {during : List (GateAction × GateState)}
    (h : FullAccessDuring called during) (x : GateAction × GateState) :
    FullAccessDuring called (during ++ [x]) :=
  h.imp_right (fun ⟨y, hy, hmode⟩ => ⟨y, List.mem_append_left _ hy, hmode⟩)

/-- Why the decision of a call that has not ended would let it through. -/
def Justified (urlsplit : String → Except String SplitResult) (start : GateState)
    (h : List (GateAction × GateState)) (r : CallRecord) : Prop :=
  ∃ called during, CalledAt urlsplit start h r.requestId r.call called during ∧
    ∀ d, r.decision = some d → d.Allows →
      UserGranted during r.requestId r.call ∨ FullAccessDuring called during

theorem Justified.append {start : GateState} {h : List (GateAction × GateState)} {r : CallRecord}
    (hr : Justified urlsplit start h r) (x : GateAction × GateState) :
    Justified urlsplit start (h ++ [x]) r := by
  obtain ⟨called, during, hcall, hdecision⟩ := hr
  exact ⟨called, during ++ [x], hcall.append x, fun d hd hallows =>
    (hdecision d hd hallows).imp (fun hgrant => hgrant.append x) (fun hfull => hfull.append x)⟩

/-- A change keeps a call justified. -/
theorem RowChange.justified {start s t : GateState} {h : List (GateAction × GateState)}
    {a : GateAction} {r r' : CallRecord} (hchange : RowChange s a t r r')
    (hr : ¬ r.Ended → Justified urlsplit start h r) (hopen : ¬ r'.Ended) :
    Justified urlsplit start (h ++ [(a, t)]) r' := by
  cases hchange with
  | same => exact (hr hopen).append _
  | moved phase registered status hopen' => exact (hr hopen').append (a, t)
  | returned => exact absurd ⟨_, rfl⟩ hopen
  | decided d status hby =>
      obtain ⟨called, during, hcall, -⟩ := hr hopen
      refine ⟨called, during ++ [(a, t)], hcall.append _, fun d' hd hallows => .inl ?_⟩
      obtain rfl := Option.some.inj hd
      exact ⟨d, t, hallows, by simp [hby]⟩
  | released hfull =>
      obtain ⟨called, during, hcall, -⟩ := hr hopen
      exact ⟨called, during ++ [(a, t)], hcall.append _,
        fun _ _ _ => .inr (.inr ⟨(a, t), by simp, hfull⟩)⟩

/-- Every call that has not ended is justified, along any history. -/
theorem calls_justified {start s : GateState} {h : List (GateAction × GateState)}
    (hstart : (gateMachine urlsplit).Start start)
    (hrun : History (gateMachine urlsplit) start h s) :
    ∀ r ∈ s.calls.rows, ¬ r.Ended → Justified urlsplit start h r := by
  refine hrun.invariant
    (I := fun h s => ∀ r ∈ s.calls.rows, ¬ r.Ended → Justified urlsplit start h r) ?_ ?_
  · intro r hr
    have hempty : start.calls = .empty := hstart
    rw [hempty] at hr
    cases hr
  · intro h s a t hpast hinv hstep r' hr' hopen
    rcases gateStep_rows hstep hr' with ⟨requestId, call, rfl, henters, -⟩ | ⟨r, hr, hchange⟩
    · obtain ⟨rfl, rfl, hdecision, -⟩ := henters
      refine ⟨s, [_], ⟨h, t, [], hpast, rfl, rfl⟩, fun d hd => ?_⟩
      rw [hdecision] at hd
      cases hd
    · exact hchange.justified (hinv r hr) hopen

/-- The call returns without raising in the step from `s` to `t`. -/
def ReturnsIn (s t : GateState) (requestId : Nat) (call : GateCall) : Prop :=
  (∃ r ∈ t.calls.rows, r.requestId = requestId ∧ r.call = call ∧ r.Returned) ∧
    ∀ r ∈ s.calls.rows, r.requestId = requestId → ¬ r.Returned

/-- A decision leaves every call alone but the one with its request id, and
that one too unless its user decides. -/
theorem decide_others {s : GateState} {requestId : Nat} {requesterId : Int}
    {d : RuntimePermissionDecision} {r : CallRecord} (hr : r ∈ s.calls.rows)
    (hother : r.requestId ≠ requestId ∨ r.request.requesterId ≠ requesterId) :
    r ∈ (s.decide requestId requesterId d).calls.rows := by
  unfold GateState.decide
  split
  · exact hr
  · rename_i x hget
    split
    · exact hr
    · rename_i hguard
      simp only [not_or, Decidable.not_not] at hguard
      have hid : r.requestId ≠ requestId := by
        intro hid
        obtain ⟨hx, hxid⟩ := Table.get?_eq_some hget
        obtain rfl := Table.eq_of_key_eq hr hx (hid.trans hxid.symm)
        rcases hother with hne | hne
        · exact hne hid
        · exact hne hguard.2
      have hkeep : ∀ f hf, r ∈ (s.setCall requestId f hf).calls.rows := fun f hf =>
        List.mem_map.mpr ⟨r, hr, if_neg (by simpa using hid)⟩
      simp only
      split <;> exact hkeep _ _

/-- **Permission gate safety.**  Whenever a call returns without raising, it
was inside the declared scope, or a rule for exactly its action and target
existed when it was made, or its own user allowed this very request, or the
mode was full access at some moment of the call.  A decision for one request,
or by another user, leaves every other call as it is. -/
theorem permission_gate_safe (urlsplit : String → Except String SplitResult)
    {start s t : GateState} {h : List (GateAction × GateState)} {a : GateAction}
    (hstart : (gateMachine urlsplit).Start start)
    (hrun : History (gateMachine urlsplit) start h s)
    (hstep : (gateMachine urlsplit).step s a = some t) :
    (∀ requestId call, ReturnsIn s t requestId call →
      ∃ called during, CalledAt urlsplit start (h ++ [(a, t)]) requestId call called during ∧
        (call.InScope urlsplit ∨ ⟨call.actionType, call.requestedTarget⟩ ∈ called.rules ∨
          UserGranted during requestId call ∨ FullAccessDuring called during)) ∧
    (∀ requestId requesterId d, a = .decide requestId requesterId d → ∀ r ∈ s.calls.rows,
      (r.requestId ≠ requestId ∨ r.request.requesterId ≠ requesterId) → r ∈ t.calls.rows) := by
  constructor
  · rintro requestId call ⟨⟨r', hr', rfl, rfl, hreturned⟩, hbefore⟩
    rcases gateStep_rows hstep hr' with ⟨requestId, call, rfl, henters, -⟩ | ⟨r, hr, hchange⟩
    · obtain ⟨rfl, rfl, -, hgranted⟩ := henters
      refine ⟨s, [_], ⟨h, t, [], hrun, rfl, rfl⟩, ?_⟩
      rcases hgranted hreturned with hfull | hscope | hrule
      · exact .inr (.inr (.inr (.inl hfull)))
      · exact .inl hscope
      · exact .inr (.inl hrule)
    · cases hchange with
      | same => exact absurd hreturned (hbefore _ hr rfl)
      | moved phase registered status hopen hraises => exact absurd hreturned hraises
      | decided d status hby => exact absurd hreturned (hbefore r hr rfl)
      | released hfull => exact absurd hreturned (hbefore r hr rfl)
      | returned hopen hgranted =>
          obtain ⟨called, during, hcall, hdecision⟩ := calls_justified hstart hrun r hr hopen
          refine ⟨called, during ++ [(a, t)], hcall.append _, .inr (.inr ?_)⟩
          rcases hgranted with hfull | ⟨d, hd, hallows⟩
          · -- The state before the last step was reached during the call.
            obtain ⟨before, next, rest, -, rfl, rfl⟩ := hcall
            obtain ⟨y, hy, rfl⟩ := hrun.last_mem
            exact .inr (.inr ⟨y, List.mem_append_left _ hy, hfull⟩)
          · exact (hdecision d hd hallows).imp (fun hgrant => hgrant.append _)
              (fun hfull => hfull.append _)
  · rintro requestId requesterId d rfl r hr hother
    obtain rfl := Option.some.inj hstep
    exact decide_others hr hother

/-- A command of level L2 on the host. -/
def hostCommand : GateCall :=
  { gate := .localHost, context := { sessionId := "s", userId := 1 },
    actionType := "workspace.command.execute", target := "workspace://1", risk := .l2 }

/-- The gates while the command leaves, allowed once. -/
def allowedCommand : GateState :=
  { mode := .normal, rules := [],
    calls := ⟨[{ requestId := 7, call := hostCommand, phase := .leaving false,
                 registered := true, event := true, decision := some .allowOnce,
                 status := .allowed }], by simp⟩ }

/-- The user allows the command once, and it returns. -/
theorem command_allowed_once :
    ∃ (h : List (GateAction × GateState)) (t called : GateState)
      (during : List (GateAction × GateState)),
      gateStep (fun _ => .error "") allowedCommand (.leave 7) = some t ∧
      CalledAt (fun _ => .error "") { mode := .normal, rules := [] } (h ++ [(.leave 7, t)]) 7
        hostCommand called during ∧
      (hostCommand.InScope (fun _ => .error "") ∨
        ⟨hostCommand.actionType, hostCommand.requestedTarget⟩ ∈ called.rules ∨
        UserGranted during 7 hostCommand ∨ FullAccessDuring called during) := by
  have hexec : exec (gateMachine (fun _ => .error "")) { mode := .normal, rules := [] }
      [.authorize 7 hostCommand, .register 7, .decide 7 1 .allowOnce, .wake 7] =
        some allowedCommand := rfl
  obtain ⟨h, -, hrun⟩ := exists_history hexec
  have hstart : (gateMachine (fun _ => .error "")).Start { mode := .normal, rules := [] } := rfl
  obtain ⟨hgranted, -⟩ := permission_gate_safe (fun _ => .error "") hstart hrun
    (a := .leave 7) rfl
  have hreturns : ReturnsIn allowedCommand
      ((allowedCommand.setPhase 7 (.ended .returned) false)) 7 hostCommand := by
    unfold ReturnsIn CallRecord.Returned
    decide
  obtain ⟨called, during, hcall, hwhy⟩ := hgranted 7 hostCommand hreturns
  exact ⟨h, _, called, during, rfl, hcall, hwhy⟩

end Workbench.RuntimePermissions
