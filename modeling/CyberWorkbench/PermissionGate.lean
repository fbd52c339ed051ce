import CyberWorkbench.StepMachine
import CyberWorkbench.KeyedTable
import CyberWorkbench.PythonValues

/-!
# The permission gate

`core/execution_guard` decides whether an action runs at once, is refused, or
waits for the user; `service/runtime_permissions` holds the requests that wait.
An authorization call is one row of a table from its first step to its
outcome.  It suspends where it takes the lock, where it waits for the event,
and where it takes the lock again to leave; decisions, mode switches and
timeouts fall anywhere in between.

`urlsplit` is a parameter, and the request id of a call is drawn with it.  The
time a request waits and the times written to the log are left open.
-/

namespace Workbench.RuntimePermissions

open PythonValues KeyedTable

/-! ### Data -/

/-- `PermissionMode`. -/
inductive PermissionMode where
  | normal
  | fullAccess
  deriving DecidableEq, Repr

/-- `RiskLevel`. -/
inductive RiskLevel where
  | l0
  | l1
  | l2
  | l3
  deriving DecidableEq, Repr

/-- `RuntimePermissionDecision`. -/
inductive RuntimePermissionDecision where
  | reject
  | allowOnce
  | alwaysAllow
  deriving DecidableEq, Repr

/-- The value of the enumeration. -/
def RuntimePermissionDecision.value : RuntimePermissionDecision → String
  | .reject => "reject"
  | .allowOnce => "allow_once"
  | .alwaysAllow => "always_allow"

/-- `decision in {ALLOW_ONCE, ALWAYS_ALLOW}`. -/
def RuntimePermissionDecision.Allows (d : RuntimePermissionDecision) : Prop :=
  d = .allowOnce ∨ d = .alwaysAllow

instance (d : RuntimePermissionDecision) : Decidable d.Allows :=
  inferInstanceAs (Decidable (_ ∨ _))

/-- `RuntimePermissionStatus`. -/
inductive RuntimePermissionStatus where
  | pending
  | allowed
  | rejected
  | expired
  deriving DecidableEq, Repr

/-- `RuntimePermissionRule`. -/
structure RuntimePermissionRule where
  actionType : String
  target : String
  deriving DecidableEq, Repr

/-- What the gate reads of `AgentRuntimeContext`. -/
structure GateContext where
  sessionId : String
  userId : Int
  agentCode : String := ""
  allowedTargets : List String := []
  allowedActionTypes : List String := []
  scopeId : String := ""
  deriving DecidableEq, Repr

/-- Which of the two gates is called. -/
inductive Gate where
  | network
  | localHost
  deriving DecidableEq, Repr

/-- The arguments of `authorize_network_action_runtime` and
`authorize_local_action_runtime`. -/
structure GateCall where
  gate : Gate
  context : GateContext
  actionType : String
  target : String
  risk : RiskLevel
  reason : String := ""
  details : Dict := []
  deriving DecidableEq

/-- The target the gate works with: the network gate strips it. -/
def GateCall.requestedTarget (call : GateCall) : String :=
  match call.gate with
  | .network => strip call.target
  | .localHost => call.target

/-- How a call ended: it returned, or it raised. -/
inductive CallOutcome where
  | returned
  | raised (message : String)
  deriving DecidableEq, Repr

/-- Where a call is suspended, or how it ended. -/
inductive CallPhase where
  | registering
  | waiting
  | leaving (timedOut : Bool)
  | ended (outcome : CallOutcome)
  deriving DecidableEq, Repr

/-- A call with its `_PendingPermission`; `registered` says that `_pending`
holds it. -/
structure CallRecord where
  requestId : Nat
  call : GateCall
  phase : CallPhase
  registered : Bool := false
  event : Bool := false
  decision : Option RuntimePermissionDecision := none
  status : RuntimePermissionStatus := .pending
  deriving DecidableEq

/-- `RuntimePermissionRequest`. -/
structure RuntimePermissionRequest where
  id : Nat
  sessionId : String
  agentCode : String
  agentName : String
  requesterId : Int
  actionType : String
  target : String
  reason : String
  riskLevel : RiskLevel
  details : Dict
  status : RuntimePermissionStatus

/-- The request `require_permission` builds for a call. -/
def CallRecord.request (r : CallRecord) : RuntimePermissionRequest :=
  { id := r.requestId
    sessionId := r.call.context.sessionId
    agentCode := r.call.context.agentCode
    agentName := r.call.context.agentCode
    requesterId := r.call.context.userId
    actionType := r.call.actionType
    target := r.call.requestedTarget
    reason := r.call.reason
    riskLevel := r.call.risk
    details := r.call.details
    status := r.status }

/-- A line of one of the two audit files. -/
structure AuditLine where
  file : String
  context : GateContext
  actionType : String
  target : String
  effect : String
  source : List String
  deriving DecidableEq, Repr

abbrev CallTable : Type := Table CallRecord CallRecord.requestId

/-- Everything the gates share. -/
structure GateState where
  mode : PermissionMode
  rules : List RuntimePermissionRule
  calls : CallTable := .empty
  audits : List AuditLine := []

/-! ### Targets -/

/-- What `urlsplit` returns; reading the port may raise. -/
structure SplitResult where
  scheme : String
  hostname : Option String
  port : Except String (Option Nat)

/-- `_default_port`. -/
def defaultPort (scheme : String) : Nat := if scheme = "https" then 443 else 80

/-- `url.port or _default_port(url.scheme)`. -/
def SplitResult.effectivePort (url : SplitResult) : Except String Nat := do
  match ← url.port with
  | some (port + 1) => return port + 1
  | _ => return defaultPort url.scheme

/-- `_same_target`. -/
def sameTarget (urlsplit : String → Except String SplitResult) (actual declared : String) :
    Except String Bool := do
  let a ← urlsplit actual
  let d ← urlsplit declared
  if a.scheme = d.scheme ∧ a.hostname = d.hostname then
    return decide ((← a.effectivePort) = (← d.effectivePort))
  else return false

/-- `any(_same_target(normalized, item) for item in allowed_targets)`. -/
def anySameTarget (urlsplit : String → Except String SplitResult) (actual : String) :
    List String → Except String Bool
  | [] => return false
  | item :: rest => do
      if ← sameTarget urlsplit actual item then return true
      else anySameTarget urlsplit actual rest

/-! ### The gates -/

/-- What a gate does before anything is awaited. -/
inductive GateVerdict where
  | fullAccess
  | allow (line : AuditLine)
  | askUser
  deriving DecidableEq, Repr

/-- `_record`. -/
def record (context : GateContext) (actionType target effect : String) (reasons : List String) :
    AuditLine :=
  ⟨"executions.jsonl", context, actionType, target, effect, reasons⟩

/-- `_audit`. -/
def audit (context : GateContext) (actionType target effect source : String) : AuditLine :=
  ⟨"permissions.jsonl", context, actionType, target, effect, [source]⟩

/-- `authorize_local_diagnostic`. -/
def authorizeLocalDiagnostic (context : GateContext) (actionType : String) :
    Except String AuditLine :=
  if actionType = "host.local.diagnostic" ∨ actionType ∈ context.allowedActionTypes then
    .ok (record context actionType "local://workspace" "allow" ["scope_and_policy_satisfied"])
  else .error "本机诊断工具未被当前 Scope 授权"

/-- `authorize_network_action_runtime`, up to `require_permission`. -/
def authorizeNetworkActionRuntime (urlsplit : String → Except String SplitResult)
    (mode : PermissionMode) (call : GateCall) : Except String GateVerdict := do
  let normalized := strip call.target
  if normalized = "" then throw "目标不能为空"
  if mode = .fullAccess then return .fullAccess
  let declared ← anySameTarget urlsplit normalized call.context.allowedTargets
  let allowedActions := call.context.allowedActionTypes
  if declared = false ∨ (allowedActions ≠ [] ∧ call.actionType ∉ allowedActions) ∨
      call.risk = .l2 ∨ call.risk = .l3 then return .askUser
  return .allow (record call.context call.actionType normalized "allow"
    ["scope_and_policy_satisfied"])

/-- `authorize_local_action_runtime`, up to `require_permission`. -/
def authorizeLocalActionRuntime (mode : PermissionMode) (call : GateCall) :
    Except String GateVerdict := do
  if mode = .fullAccess then return .fullAccess
  if call.risk = .l2 ∨ call.risk = .l3 then return .askUser
  return .allow (← authorizeLocalDiagnostic call.context call.actionType)

/-- The gate that is called, up to `require_permission`. -/
def authorizeRuntime (urlsplit : String → Except String SplitResult) (mode : PermissionMode)
    (call : GateCall) : Except String GateVerdict :=
  match call.gate with
  | .network => authorizeNetworkActionRuntime urlsplit mode call
  | .localHost => authorizeLocalActionRuntime mode call

/-- `_rule_matches`. -/
def ruleMatches (rules : List RuntimePermissionRule) (actionType target : String) : Bool :=
  rules.any (fun rule => decide (rule.actionType = actionType ∧ rule.target = target))

/-- `_add_rule`. -/
def addRule (rules : List RuntimePermissionRule) (actionType target : String) :
    List RuntimePermissionRule :=
  if ruleMatches rules actionType target then rules else rules ++ [⟨actionType, target⟩]

/-! ### Steps -/

/-- What can happen.  `applyConfig` is a settings reload: it changes the mode
and releases nobody. -/
inductive GateAction where
  | authorize (requestId : Nat) (call : GateCall)
  | register (requestId : Nat)
  | wake (requestId : Nat)
  | expire (requestId : Nat)
  | leave (requestId : Nat)
  | cancel (requestId : Nat)
  | decide (requestId : Nat) (requesterId : Int) (decision : RuntimePermissionDecision)
  | updateMode (mode : PermissionMode)
  | applyConfig (mode : PermissionMode)
  | clearRules

/-- One call changes, the others stay. -/
def GateState.setCall (s : GateState) (requestId : Nat) (f : CallRecord → CallRecord)
    (hf : ∀ r, (f r).requestId = r.requestId) : GateState :=
  let calls := s.calls.updateWhere (fun r => decide (r.requestId = requestId)) f hf
  { s with calls := calls }

/-- The call moves on. -/
def GateState.setPhase (s : GateState) (requestId : Nat) (phase : CallPhase)
    (registered : Bool) : GateState :=
  s.setCall requestId (fun r => { r with phase := phase, registered := registered })
    (fun _ => rfl)

/-- A gate is called: everything up to the first await. -/
def GateState.authorize (urlsplit : String → Except String SplitResult) (s : GateState)
    (requestId : Nat) (call : GateCall) : CallRecord × List AuditLine :=
  let target := call.requestedTarget
  match authorizeRuntime urlsplit s.mode call with
  | .error message => ({ requestId, call, phase := .ended (.raised message) }, [])
  | .ok .fullAccess => ({ requestId, call, phase := .ended .returned }, [])
  | .ok (.allow line) => ({ requestId, call, phase := .ended .returned }, [line])
  | .ok .askUser =>
      -- `require_permission`; no await separates it from the caller.
      if s.mode = .fullAccess then ({ requestId, call, phase := .ended .returned }, [])
      else if ruleMatches s.rules call.actionType target then
        ({ requestId, call, phase := .ended .returned },
          [audit call.context call.actionType target "allow" "always_allow",
            record call.context call.actionType target "allow" ["always_allow"]])
      else ({ requestId, call, phase := .registering }, [])

/-- The end of `require_permission` and of its caller, after the event. -/
def GateState.conclude (s : GateState) (r : CallRecord) : CallOutcome × List AuditLine :=
  let context := r.call.context
  let actionType := r.call.actionType
  let target := r.call.requestedTarget
  if s.mode = .fullAccess then (.returned, [])
  else
    match r.decision with
    | some .allowOnce =>
        (.returned, [audit context actionType target "allow" "allow_once",
          record context actionType target "allow" ["allow_once"]])
    | some .alwaysAllow =>
        (.returned, [audit context actionType target "allow" "always_allow",
          record context actionType target "allow" ["always_allow"]])
    | _ => (.raised "用户拒绝了该操作", [audit context actionType target "deny" "user_rejected"])

/-- `decide`; where it raises nothing changes. -/
def GateState.decide (s : GateState) (requestId : Nat) (requesterId : Int)
    (decision : RuntimePermissionDecision) : GateState :=
  match s.calls.get? requestId with
  | none => s
  | some r =>
      if r.registered = false ∨ r.request.requesterId ≠ requesterId then s
      else
        let s := if decision = .alwaysAllow then
            { s with rules := addRule s.rules r.request.actionType r.request.target }
          else s
        s.setCall requestId
          (fun r => { r with
            decision := some decision
            status := if decision = .reject then .rejected else .allowed
            event := true }) (fun _ => rfl)

/-- `update_mode`. -/
def GateState.updateMode (s : GateState) (mode : PermissionMode) : GateState :=
  let s := { s with mode := mode }
  if mode = .fullAccess then
    let calls := s.calls.updateWhere CallRecord.registered
      (fun r => { r with decision := some .allowOnce, status := .allowed, event := true })
      (fun _ => rfl)
    { s with calls := calls }
  else s

/-- One step of the gates. -/
def gateStep (urlsplit : String → Except String SplitResult) (s : GateState) :
    GateAction → Option GateState
  | .authorize requestId call =>
      let (r, lines) := s.authorize urlsplit requestId call
      (s.calls.insert r).map (fun calls =>
        { s with calls := calls, audits := s.audits ++ lines })
  | .register requestId =>
      match s.calls.get? requestId with
      | some r => if r.phase = .registering then some (s.setPhase requestId .waiting true) else none
      | none => none
  | .wake requestId =>
      match s.calls.get? requestId with
      | some r =>
          if r.phase = .waiting ∧ r.event = true then
            some (s.setPhase requestId (.leaving false) true)
          else none
      | none => none
  | .expire requestId =>
      match s.calls.get? requestId with
      | some r =>
          if r.phase = .waiting then
            let line := audit r.call.context r.call.actionType r.call.requestedTarget "deny"
              "expired"
            let s := { s with audits := s.audits ++ [line] }
            some (s.setCall requestId
              (fun r => { r with phase := .leaving true, status := .expired }) (fun _ => rfl))
          else none
      | none => none
  | .leave requestId =>
      match s.calls.get? requestId with
      | some r =>
          match r.phase with
          | .leaving true => some (s.setPhase requestId (.ended (.raised "授权请求已超时")) false)
          | .leaving false =>
              let (outcome, lines) := s.conclude r
              let s := { s with audits := s.audits ++ lines }
              some (s.setPhase requestId (.ended outcome) false)
          | _ => none
      | none => none
  | .cancel requestId =>
      -- A call cancelled while it takes the lock to leave stays in `_pending`.
      match s.calls.get? requestId with
      | some r =>
          match r.phase with
          | .registering | .waiting =>
              some (s.setPhase requestId (.ended (.raised "CancelledError")) false)
          | .leaving _ =>
              some (s.setPhase requestId (.ended (.raised "CancelledError")) true)
          | .ended _ => none
      | none => none
  | .decide requestId requesterId decision => some (s.decide requestId requesterId decision)
  | .updateMode mode => some (s.updateMode mode)
  | .applyConfig mode => some { s with mode := mode }
  | .clearRules => some { s with rules := [] }

/-- The gates as a machine; it starts in any mode, with any rules and no
calls. -/
def gateMachine (urlsplit : String → Except String SplitResult) :
    StepMachine.Machine GateState GateAction :=
  { Start := fun s => s.calls = .empty, step := gateStep urlsplit }

end Workbench.RuntimePermissions
