import CyberWorkbench.ApprovalGate

/-!
# The policy engine

`core/policy_engine` with the datetimes that its models accept: a datetime is
naive, or it carries an offset, and Python does not order one of each.  The
time of an evaluation is naive unless the caller gives one.

`Violated` is what a scope forbids, said without the engine; `Wider` compares
two scopes.  Where every datetime is naive the engine is the one that the
approvals use (`evaluateAction_naive`).
-/

namespace Workbench.PolicyEngine

open RuntimePermissions (RiskLevel)
open Approvals (ProposedAction PolicyEffect riskOrder exceeds)

/-! ### Datetimes -/

/-- A `datetime`: microseconds, in UTC where it is aware of its offset. -/
structure DateTime where
  aware : Bool
  microseconds : Int
  deriving DecidableEq, Repr

/-- What `datetime.now()` reads. -/
def DateTime.naive (microseconds : Int) : DateTime := ⟨false, microseconds⟩

/-- The order of datetimes of one kind. -/
instance : LT DateTime := ⟨fun a b => a.aware = b.aware ∧ a.microseconds < b.microseconds⟩

instance : LE DateTime := ⟨fun a b => a.aware = b.aware ∧ a.microseconds ≤ b.microseconds⟩

/-- "can't compare offset-naive and offset-aware datetimes" -/
inductive TypeError where
  | datetimes
  deriving DecidableEq, Repr

/-- `a < b` -/
def DateTime.less (a b : DateTime) : Except TypeError Bool :=
  if a.aware = b.aware then .ok (decide (a.microseconds < b.microseconds)) else .error .datetimes

/-- `a >= b` -/
def DateTime.atLeast (a b : DateTime) : Except TypeError Bool :=
  if a.aware = b.aware then .ok (decide (b.microseconds ≤ a.microseconds)) else .error .datetimes

/-! ### Scopes and decisions -/

/-- `TargetEnvironment`. -/
inductive TargetEnvironment where
  | development
  | test
  | staging
  | production
  deriving DecidableEq, Repr

/-- `AuthorizationScope`, as `validate_window` lets it pass. -/
structure AuthorizationScope where
  allowedTargetIds : List Nat := []
  allowedActionTypes : List String := []
  maximumRiskLevel : RiskLevel := .l1
  validFrom : Option DateTime := none
  validUntil : Option DateTime := none
  maxLoadTestRps : Option Nat := none
  maxLoadTestConcurrency : Option Nat := none
  maxLoadTestDurationSeconds : Option Nat := none
  window : ∀ validFrom' ∈ validFrom, ∀ validUntil' ∈ validUntil, validFrom' < validUntil' := by simp

/-- `_scope_constraints`. -/
structure ScopeConstraints where
  maximumRiskLevel : RiskLevel
  maxLoadTestRps : Option Nat
  maxLoadTestConcurrency : Option Nat
  maxLoadTestDurationSeconds : Option Nat
  deriving DecidableEq, Repr

def scopeConstraints (scope : AuthorizationScope) : ScopeConstraints where
  maximumRiskLevel := scope.maximumRiskLevel
  maxLoadTestRps := scope.maxLoadTestRps
  maxLoadTestConcurrency := scope.maxLoadTestConcurrency
  maxLoadTestDurationSeconds := scope.maxLoadTestDurationSeconds

/-- `PolicyDecision`. -/
structure PolicyDecision where
  effect : PolicyEffect
  riskLevel : RiskLevel
  reasonCodes : List String
  constraints : ScopeConstraints
  approvalTtlSeconds : Option Int := none
  decidedAt : DateTime
  deriving DecidableEq, Repr

/-! ### The engine -/

/-- What a load test asks for, with the limit and the reason to refuse it. -/
def loadTestChecks (action : ProposedAction) (scope : AuthorizationScope) :
    List (String × Option Nat × Option Nat) :=
  [("load_test_rps_exceeded", action.requestedRps, scope.maxLoadTestRps),
    ("load_test_concurrency_exceeded", action.requestedConcurrency, scope.maxLoadTestConcurrency),
    ("load_test_duration_exceeded", action.requestedDurationSeconds,
      scope.maxLoadTestDurationSeconds)]

/-- `_load_test_violations`. -/
def loadTestViolations (action : ProposedAction) (scope : AuthorizationScope) : List String :=
  if !action.isLoadTest then []
  else ((loadTestChecks action scope).filter fun check => exceeds check.2.1 check.2.2).map (·.1)

/-- A reason, if it applies. -/
def reasonIf (applies : Bool) (reason : String) : List String := if applies then [reason] else []

/-- Whether the scope is not valid yet. -/
def notYetValid (scope : AuthorizationScope) (evaluatedAt : DateTime) : Except TypeError Bool :=
  match scope.validFrom with
  | none => .ok false
  | some validFrom => evaluatedAt.less validFrom

/-- Whether the scope is valid no more. -/
def expired (scope : AuthorizationScope) (evaluatedAt : DateTime) : Except TypeError Bool :=
  match scope.validUntil with
  | none => .ok false
  | some validUntil => evaluatedAt.atLeast validUntil

/-- The reasons that `evaluate_action` collects, in its order. -/
def collectReasons (action : ProposedAction) (scope : AuthorizationScope) (evaluatedAt : DateTime) :
    Except TypeError (List String) := do
  let early ← notYetValid scope evaluatedAt
  let late ← expired scope evaluatedAt
  pure <|
    reasonIf (action.targetId ∉ scope.allowedTargetIds) "target_out_of_scope" ++
    reasonIf (action.actionType ∉ scope.allowedActionTypes) "action_type_out_of_scope" ++
    reasonIf early "scope_not_yet_valid" ++
    reasonIf late "scope_expired" ++
    reasonIf (riskOrder scope.maximumRiskLevel < riskOrder action.riskLevel) "risk_exceeds_scope" ++
    reasonIf (action.isWrite && action.rollbackSteps.isEmpty) "write_missing_rollback" ++
    loadTestViolations action scope

/-- `requires_approval` -/
def requiresApproval (action : ProposedAction) (environment : TargetEnvironment) : Bool :=
  decide (riskOrder .l2 ≤ riskOrder action.riskLevel) ||
    (decide (environment = .production) && action.isWrite)

/-- The decision of `evaluate_action` for the reasons it has collected. -/
def decisionFor (action : ProposedAction) (scope : AuthorizationScope)
    (environment : TargetEnvironment) (evaluatedAt : DateTime) (reasons : List String) :
    PolicyDecision :=
  if reasons ≠ [] then
    { effect := .deny, riskLevel := action.riskLevel, reasonCodes := reasons,
      constraints := scopeConstraints scope, decidedAt := evaluatedAt }
  else if requiresApproval action environment then
    { effect := .requireApproval, riskLevel := action.riskLevel,
      reasonCodes := ["approval_required"], constraints := scopeConstraints scope,
      approvalTtlSeconds := some 300, decidedAt := evaluatedAt }
  else
    { effect := .allow, riskLevel := action.riskLevel,
      reasonCodes := ["scope_and_policy_satisfied"], constraints := scopeConstraints scope,
      decidedAt := evaluatedAt }

/-- `evaluated_at`.  `clock` is what `datetime.now()` reads. -/
def evaluationTime (now : Option DateTime) (clock : Int) : DateTime := now.getD (.naive clock)

/-- `evaluate_action`. -/
def evaluateAction (action : ProposedAction) (scope : AuthorizationScope)
    (environment : TargetEnvironment) (now : Option DateTime) (clock : Int) :
    Except TypeError PolicyDecision := do
  let reasons ← collectReasons action scope (evaluationTime now clock)
  pure (decisionFor action scope environment (evaluationTime now clock) reasons)

/-! ### What a scope forbids -/

/-- The request of a load test is within the limit: both are there. -/
def WithinLimit (requested maximum : Option Nat) : Prop :=
  ∃ r m, requested = some r ∧ maximum = some m ∧ r ≤ m

/-- The time is within the validity window. -/
def WithinWindow (scope : AuthorizationScope) (time : DateTime) : Prop :=
  (∀ validFrom ∈ scope.validFrom, ¬ time < validFrom) ∧
  (∀ validUntil ∈ scope.validUntil, ¬ validUntil ≤ time)

/-- **A violation of the scope by the action at a time.** -/
def Violated (action : ProposedAction) (scope : AuthorizationScope) (time : DateTime) : Prop :=
  action.targetId ∉ scope.allowedTargetIds ∨
  action.actionType ∉ scope.allowedActionTypes ∨
  ¬ WithinWindow scope time ∨
  riskOrder scope.maximumRiskLevel < riskOrder action.riskLevel ∨
  (action.isWrite = true ∧ action.rollbackSteps = []) ∨
  (action.isLoadTest = true ∧
    ¬ (WithinLimit action.requestedRps scope.maxLoadTestRps ∧
      WithinLimit action.requestedConcurrency scope.maxLoadTestConcurrency ∧
      WithinLimit action.requestedDurationSeconds scope.maxLoadTestDurationSeconds))

/-- The limit stays, or grows. -/
def LimitWider (maximum maximum' : Option Nat) : Prop :=
  ∀ m ∈ maximum, ∃ m' ∈ maximum', m ≤ m'

/-- **The second scope is at least as wide.**  A bound of its window is open or
lies further out. -/
structure Wider (scope scope' : AuthorizationScope) : Prop where
  targets : scope.allowedTargetIds ⊆ scope'.allowedTargetIds
  types : scope.allowedActionTypes ⊆ scope'.allowedActionTypes
  risk : riskOrder scope.maximumRiskLevel ≤ riskOrder scope'.maximumRiskLevel
  validFrom : ∀ later ∈ scope'.validFrom, ∃ validFrom ∈ scope.validFrom, later ≤ validFrom
  validUntil : ∀ later ∈ scope'.validUntil, ∃ validUntil ∈ scope.validUntil, validUntil ≤ later
  rps : LimitWider scope.maxLoadTestRps scope'.maxLoadTestRps
  concurrency : LimitWider scope.maxLoadTestConcurrency scope'.maxLoadTestConcurrency
  duration : LimitWider scope.maxLoadTestDurationSeconds scope'.maxLoadTestDurationSeconds

/-- The bounds of the window are datetimes of the kind of the time. -/
def SameKind (scope : AuthorizationScope) (time : DateTime) : Prop :=
  (∀ validFrom ∈ scope.validFrom, validFrom.aware = time.aware) ∧
  (∀ validUntil ∈ scope.validUntil, validUntil.aware = time.aware)

/-! ### The reasons are the violations -/

section Reasons

variable {action : ProposedAction} {scope scope' : AuthorizationScope} {time : DateTime}
  {environment : TargetEnvironment}

theorem reasonIf_eq_nil {applies : Bool} {reason : String} :
    reasonIf applies reason = [] ↔ applies = false := by
  cases applies with
  | false => simp [reasonIf]
  | true => simp [reasonIf]

theorem reasonIf_decide {p : Prop} [Decidable p] {reason : String} :
    reasonIf (decide p) reason = if p then [reason] else [] := by
  unfold reasonIf
  by_cases hp : p
  · simp [hp]
  · simp [hp]

theorem exceeds_eq_false {requested maximum : Option Nat} :
    exceeds requested maximum = false ↔ WithinLimit requested maximum := by
  unfold exceeds WithinLimit
  cases requested with
  | none => simp
  | some r =>
      cases maximum with
      | none => simp
      | some m => simp

theorem loadTestViolations_eq_nil : loadTestViolations action scope = [] ↔
    ¬ (action.isLoadTest = true ∧
      ¬ (WithinLimit action.requestedRps scope.maxLoadTestRps ∧
        WithinLimit action.requestedConcurrency scope.maxLoadTestConcurrency ∧
        WithinLimit action.requestedDurationSeconds scope.maxLoadTestDurationSeconds)) := by
  simp only [← exceeds_eq_false]
  unfold loadTestViolations loadTestChecks
  cases action.isLoadTest with
  | false => simp
  | true => simp

theorem notYetValid_of_sameKind (h : SameKind scope time) :
    ∃ early, notYetValid scope time = .ok early ∧
      (early = false ↔ ∀ validFrom ∈ scope.validFrom, ¬ time < validFrom) := by
  unfold notYetValid
  cases hfrom : scope.validFrom with
  | none => exact ⟨false, rfl, by simp⟩
  | some validFrom =>
      have hkind := h.1 validFrom hfrom
      refine ⟨decide (time.microseconds < validFrom.microseconds), ?_, ?_⟩
      · simp [DateTime.less, hkind]
      · simp only [decide_eq_false_iff_not, Option.mem_some_iff, forall_eq']
        exact not_congr ⟨fun hlt => ⟨hkind.symm, hlt⟩, fun hlt => hlt.2⟩

theorem expired_of_sameKind (h : SameKind scope time) :
    ∃ late, expired scope time = .ok late ∧
      (late = false ↔ ∀ validUntil ∈ scope.validUntil, ¬ validUntil ≤ time) := by
  unfold expired
  cases huntil : scope.validUntil with
  | none => exact ⟨false, rfl, by simp⟩
  | some validUntil =>
      have hkind := h.2 validUntil huntil
      refine ⟨decide (validUntil.microseconds ≤ time.microseconds), ?_, ?_⟩
      · simp [DateTime.atLeast, hkind]
      · simp only [decide_eq_false_iff_not, Option.mem_some_iff, forall_eq']
        exact not_congr ⟨fun hle => ⟨hkind, hle⟩, fun hle => hle.2⟩

/-- Where the datetimes are of one kind, there is a reason exactly for a
violation. -/
theorem collectReasons_of_sameKind (action : ProposedAction) (h : SameKind scope time) :
    ∃ reasons, collectReasons action scope time = .ok reasons ∧
      (reasons = [] ↔ ¬ Violated action scope time) := by
  obtain ⟨early, hearly, hearlyIff⟩ := notYetValid_of_sameKind h
  obtain ⟨late, hlate, hlateIff⟩ := expired_of_sameKind h
  unfold collectReasons
  rw [hearly, hlate]
  refine ⟨_, rfl, ?_⟩
  unfold Violated WithinWindow
  simp only [List.append_eq_nil_iff, reasonIf_eq_nil, hearlyIff, hlateIff,
    loadTestViolations_eq_nil, not_or, decide_eq_false_iff_not, Bool.and_eq_false_iff,
    List.isEmpty_eq_false_iff, not_and]
  constructor
  · rintro ⟨⟨⟨⟨⟨⟨htarget, htype⟩, hfrom⟩, huntil⟩, hrisk⟩, hwrite⟩, hload⟩
    refine ⟨htarget, htype, fun hnot => hnot hfrom huntil, hrisk, fun hw => ?_, hload⟩
    rcases hwrite with hwrite | hwrite
    · rw [hwrite] at hw
      cases hw
    · exact hwrite
  · rintro ⟨htarget, htype, hwindow, hrisk, hwrite, hload⟩
    obtain ⟨hfrom, huntil⟩ : _ ∧ _ :=
      Classical.byContradiction fun hnot => hwindow fun hfrom huntil => hnot ⟨hfrom, huntil⟩
    refine ⟨⟨⟨⟨⟨⟨htarget, htype⟩, hfrom⟩, huntil⟩, hrisk⟩, ?_⟩, hload⟩
    cases hw : action.isWrite with
    | false => exact .inl rfl
    | true => exact .inr (hwrite hw)

/-- Where a bound is a datetime of the other kind, nothing is decided. -/
theorem sameKind_of_collectReasons {reasons : List String}
    (h : collectReasons action scope time = .ok reasons) : SameKind scope time := by
  unfold collectReasons at h
  cases hearly : notYetValid scope time with
  | error error => simp [hearly, bind, Except.bind] at h
  | ok early =>
      cases hlate : expired scope time with
      | error error => simp [hearly, hlate, bind, Except.bind] at h
      | ok late =>
          constructor
          · intro validFrom hfrom
            refine Classical.byContradiction fun hne => ?_
            simp [notYetValid, Option.mem_def.mp hfrom, DateTime.less, Ne.symm hne] at hearly
          · intro validUntil huntil
            refine Classical.byContradiction fun hne => ?_
            simp [expired, Option.mem_def.mp huntil, DateTime.atLeast, Ne.symm hne] at hlate

theorem evaluateAction_eq_ok {now : Option DateTime} {clock : Int} {decision : PolicyDecision} :
    evaluateAction action scope environment now clock = .ok decision ↔
      ∃ reasons, collectReasons action scope (evaluationTime now clock) = .ok reasons ∧
        decisionFor action scope environment (evaluationTime now clock) reasons = decision := by
  unfold evaluateAction
  cases hreasons : collectReasons action scope (evaluationTime now clock) with
  | error error => simp [bind, Except.bind]
  | ok reasons => simp [bind, Except.bind, pure, Except.pure]

theorem decisionFor_deny {reasons : List String} :
    (decisionFor action scope environment time reasons).effect = .deny ↔ reasons ≠ [] := by
  unfold decisionFor
  split
  · rename_i hreasons
    simp [hreasons]
  · rename_i hreasons
    split
    · simpa using hreasons
    · simpa using hreasons

/-- Without a reason the effect does not depend on the scope. -/
theorem decisionFor_nil : (decisionFor action scope environment time []).effect =
    if requiresApproval action environment then .requireApproval else .allow := by
  unfold decisionFor
  simp only [ne_eq, not_true_eq_false, if_false]
  split
  · rfl
  · rfl

/-! ### Wider scopes -/

theorem WithinLimit.wider {requested maximum maximum' : Option Nat}
    (h : WithinLimit requested maximum) (hwider : LimitWider maximum maximum') :
    WithinLimit requested maximum' := by
  obtain ⟨r, m, hr, hm, hle⟩ := h
  obtain ⟨m', hm', hmore⟩ := hwider m hm
  exact ⟨r, m', hr, hm', Nat.le_trans hle hmore⟩

theorem SameKind.wider (h : SameKind scope time) (hwider : Wider scope scope') :
    SameKind scope' time := by
  constructor
  · intro later hlater
    obtain ⟨validFrom, hfrom, hle⟩ := hwider.validFrom later hlater
    exact hle.1.trans (h.1 validFrom hfrom)
  · intro later hlater
    obtain ⟨validUntil, huntil, hle⟩ := hwider.validUntil later hlater
    exact hle.1.symm.trans (h.2 validUntil huntil)

theorem WithinWindow.wider (h : WithinWindow scope time) (hwider : Wider scope scope') :
    WithinWindow scope' time := by
  constructor
  · rintro later hlater ⟨hkind, hlt⟩
    obtain ⟨validFrom, hfrom, hle⟩ := hwider.validFrom later hlater
    exact h.1 validFrom hfrom ⟨hkind.trans hle.1, Int.lt_of_lt_of_le hlt hle.2⟩
  · rintro later hlater ⟨hkind, hle'⟩
    obtain ⟨validUntil, huntil, hle⟩ := hwider.validUntil later hlater
    exact h.2 validUntil huntil ⟨hle.1.trans hkind, Int.le_trans hle.2 hle'⟩

/-- **A wider scope forbids no more.** -/
theorem Violated.narrower (hwider : Wider scope scope') (h : Violated action scope' time) :
    Violated action scope time := by
  rcases h with htarget | htype | hwindow | hrisk | hwrite | ⟨hload, hlimits⟩
  · exact .inl fun hmem => htarget (hwider.targets hmem)
  · exact .inr (.inl fun hmem => htype (hwider.types hmem))
  · exact .inr (.inr (.inl fun hwithin => hwindow (hwithin.wider hwider)))
  · exact .inr (.inr (.inr (.inl (Nat.lt_of_le_of_lt hwider.risk hrisk))))
  · exact .inr (.inr (.inr (.inr (.inl hwrite))))
  · refine .inr (.inr (.inr (.inr (.inr ⟨hload, fun hwithin => hlimits ?_⟩))))
    exact ⟨hwithin.1.wider hwider.rps, hwithin.2.1.wider hwider.concurrency,
      hwithin.2.2.wider hwider.duration⟩

end Reasons

/-! ### Naive datetimes -/

/-- The environment, as far as the approvals tell it apart. -/
def TargetEnvironment.plain : TargetEnvironment → Approvals.TargetEnvironment
  | .production => .production
  | _ => .other

/-- The scope with the numbers of its datetimes. -/
def AuthorizationScope.plain (scope : AuthorizationScope) : Approvals.AuthorizationScope where
  allowedTargetIds := scope.allowedTargetIds
  allowedActionTypes := scope.allowedActionTypes
  maximumRiskLevel := scope.maximumRiskLevel
  validFrom := scope.validFrom.map (·.microseconds)
  validUntil := scope.validUntil.map (·.microseconds)
  maxLoadTestRps := scope.maxLoadTestRps
  maxLoadTestConcurrency := scope.maxLoadTestConcurrency
  maxLoadTestDurationSeconds := scope.maxLoadTestDurationSeconds

section Plain

variable {action : ProposedAction} {scope : AuthorizationScope} {environment : TargetEnvironment}

theorem loadTestViolations_plain :
    loadTestViolations action scope = Approvals.loadTestViolations action scope.plain := by
  unfold loadTestViolations Approvals.loadTestViolations loadTestChecks AuthorizationScope.plain
  cases action.isLoadTest with
  | false => rfl
  | true =>
      cases hrps : exceeds action.requestedRps scope.maxLoadTestRps <;>
      cases hconcurrency : exceeds action.requestedConcurrency scope.maxLoadTestConcurrency <;>
      cases hduration : exceeds action.requestedDurationSeconds scope.maxLoadTestDurationSeconds <;>
      simp [List.filter_cons, hrps, hconcurrency, hduration]

theorem notYetValid_plain {clock : Int} (h : SameKind scope (.naive clock)) :
    notYetValid scope (.naive clock) =
      .ok (scope.plain.validFrom.any fun validFrom => decide (clock < validFrom)) := by
  unfold notYetValid AuthorizationScope.plain
  cases hfrom : scope.validFrom with
  | none => rfl
  | some validFrom =>
      have hkind : false = validFrom.aware := (h.1 validFrom hfrom).symm
      exact if_pos hkind

theorem expired_plain {clock : Int} (h : SameKind scope (.naive clock)) :
    expired scope (.naive clock) =
      .ok (scope.plain.validUntil.any fun validUntil => decide (validUntil ≤ clock)) := by
  unfold expired AuthorizationScope.plain
  cases huntil : scope.validUntil with
  | none => rfl
  | some validUntil =>
      have hkind : false = validUntil.aware := (h.2 validUntil huntil).symm
      exact if_pos hkind

/-- **Where every datetime is naive, the engine is the one of the approvals.** -/
theorem evaluateAction_naive {clock : Int} (h : SameKind scope (.naive clock)) :
    ∃ decision, evaluateAction action scope environment none clock = .ok decision ∧
      decision.effect = (Approvals.evaluateAction action scope.plain environment.plain clock).effect ∧
      decision.reasonCodes =
        (Approvals.evaluateAction action scope.plain environment.plain clock).reasonCodes := by
  have hreasons : collectReasons action scope (.naive clock) =
      .ok (Approvals.policyReasons action scope.plain clock) := by
    unfold collectReasons Approvals.policyReasons
    rw [notYetValid_plain h, expired_plain h, loadTestViolations_plain]
    simp only [bind, Except.bind, pure, Except.pure, reasonIf_decide]
    rfl
  refine ⟨_, evaluateAction_eq_ok.mpr ⟨_, hreasons, rfl⟩, ?_⟩
  have hplain : requiresApproval action environment = true ↔ riskOrder .l2 ≤ riskOrder action.riskLevel ∨
      (environment.plain = .production ∧ action.isWrite = true) := by
    unfold requiresApproval
    cases environment <;> simp [TargetEnvironment.plain]
  unfold decisionFor Approvals.evaluateAction
  by_cases hnil : Approvals.policyReasons action scope.plain clock = []
  · by_cases happroval : requiresApproval action environment = true
    · simp [hnil, happroval, hplain.mp happroval]
    · simp only [hnil, happroval, mt hplain.mpr happroval]
      exact ⟨rfl, rfl⟩
  · simp [hnil]

end Plain

/-! ### Exactness and monotonicity -/

/-- The engine decides, and denies exactly what the scope forbids. -/
def DeniesExactly (action : ProposedAction) (scope : AuthorizationScope)
    (environment : TargetEnvironment) (now : Option DateTime) (clock : Int) : Prop :=
  ∃ decision, evaluateAction action scope environment now clock = .ok decision ∧
    (decision.effect = .deny ↔ Violated action scope (evaluationTime now clock))

/-- What is not denied has the same effect under every wider scope. -/
def KeptByWider (action : ProposedAction) (scope : AuthorizationScope)
    (environment : TargetEnvironment) (now : Option DateTime) (clock : Int) : Prop :=
  ∀ scope', Wider scope scope' → ∀ decision,
    evaluateAction action scope environment now clock = .ok decision → decision.effect ≠ .deny →
    ∃ decision', evaluateAction action scope' environment now clock = .ok decision' ∧
      decision'.effect = decision.effect

theorem deniesExactly_iff (action : ProposedAction) (scope : AuthorizationScope)
    (environment : TargetEnvironment) (now : Option DateTime) (clock : Int) :
    DeniesExactly action scope environment now clock ↔
      SameKind scope (evaluationTime now clock) := by
  constructor
  · rintro ⟨decision, hdecision, -⟩
    obtain ⟨reasons, hreasons, -⟩ := evaluateAction_eq_ok.mp hdecision
    exact sameKind_of_collectReasons hreasons
  · intro hkind
    obtain ⟨reasons, hreasons, hiff⟩ := collectReasons_of_sameKind action hkind
    refine ⟨_, evaluateAction_eq_ok.mpr ⟨reasons, hreasons, rfl⟩, ?_⟩
    rw [decisionFor_deny, ne_eq, hiff, Classical.not_not]

theorem keptByWider (action : ProposedAction) (scope : AuthorizationScope)
    (environment : TargetEnvironment) (now : Option DateTime) (clock : Int) :
    KeptByWider action scope environment now clock := by
  intro scope' hwider decision hdecision hnot
  obtain ⟨reasons, hreasons, rfl⟩ := evaluateAction_eq_ok.mp hdecision
  have hkind := sameKind_of_collectReasons hreasons
  obtain ⟨reasons₁, hreasons₁, hiff⟩ := collectReasons_of_sameKind action hkind
  obtain rfl : reasons = reasons₁ := Except.ok.inj (hreasons.symm.trans hreasons₁)
  have hnil : reasons = [] :=
    Classical.byContradiction fun hne => hnot (decisionFor_deny.mpr hne)
  obtain ⟨reasons', hreasons', hiff'⟩ :=
    collectReasons_of_sameKind action (hkind.wider hwider)
  have hnil' : reasons' = [] := hiff'.mpr fun hviolated => hiff.mp hnil (hviolated.narrower hwider)
  refine ⟨_, evaluateAction_eq_ok.mpr ⟨reasons', hreasons', rfl⟩, ?_⟩
  rw [hnil, hnil', decisionFor_nil, decisionFor_nil]

/-- **The engine is exact, and monotone in the scope, where it can compare the
datetimes.** -/
theorem evaluation_exact_iff (action : ProposedAction) (scope : AuthorizationScope)
    (environment : TargetEnvironment) (now : Option DateTime) (clock : Int) :
    (DeniesExactly action scope environment now clock ∧
      KeptByWider action scope environment now clock) ↔
      SameKind scope (evaluationTime now clock) := by
  rw [deniesExactly_iff]
  exact and_iff_left (keptByWider action scope environment now clock)

/-- A scope that is valid from a time with an offset on. -/
def scopeWithOffset : AuthorizationScope where
  allowedTargetIds := [7]
  allowedActionTypes := ["linux.service.status"]
  validFrom := some ⟨true, 0⟩

/-- An action on a target that the scope does not name. -/
def actionElsewhere : ProposedAction where
  id := 1
  projectId := 1
  incidentId := 1
  targetId := 8
  actionType := "linux.service.status"
  riskLevel := .l0
  reason := "Read service state"

/-- Without a time from the caller such a scope is compared with the naive
clock, which raises: the target out of scope is not denied. -/
theorem offset_scope_raises :
    evaluateAction actionElsewhere scopeWithOffset .test none 0 = .error .datetimes ∧
      Violated actionElsewhere scopeWithOffset (evaluationTime none 0) ∧
      ¬ DeniesExactly actionElsewhere scopeWithOffset .test none 0 := by
  refine ⟨rfl, .inl (by decide), ?_⟩
  rintro ⟨decision, hdecision, -⟩
  cases hdecision

end Workbench.PolicyEngine
