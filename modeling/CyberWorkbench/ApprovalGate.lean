import CyberWorkbench.StepMachine
import CyberWorkbench.PermissionGate

/-!
# Approvals and their tokens

`service/approval` keeps one file for each action id: `create` writes it,
`decide` grants it and issues a token, `consume` spends the token.
`core/approval_gate` signs the claims of a token and checks them;
`core/policy_engine` decides whether an action may be approved at all.

Times are microseconds.  The clock is read by each call, and what it reads is
part of the call.  Serialization, the signature and the action's digest are
parameters; a token carries nothing but its signed claims.
-/

namespace Workbench.Approvals

open PythonValues StepMachine
open RuntimePermissions (RiskLevel)

/-! ### Actions and policy -/

/-- `ProposedAction`. -/
structure ProposedAction where
  id : Nat
  projectId : Nat
  incidentId : Nat
  targetId : Nat
  actionType : String
  arguments : Dict := []
  riskLevel : RiskLevel
  reason : String := ""
  isWrite : Bool := false
  isLoadTest : Bool := false
  prechecks : List String := []
  verificationSteps : List String := []
  rollbackSteps : List String := []
  requestedRps : Option Nat := none
  requestedConcurrency : Option Nat := none
  requestedDurationSeconds : Option Nat := none
  deriving DecidableEq

/-- `TargetEnvironment`, as far as the policy tells them apart. -/
inductive TargetEnvironment where
  | production
  | other
  deriving DecidableEq, Repr

/-- `AuthorizationScope`. -/
structure AuthorizationScope where
  allowedTargetIds : List Nat
  allowedActionTypes : List String
  maximumRiskLevel : RiskLevel
  validFrom : Option Int := none
  validUntil : Option Int := none
  maxLoadTestRps : Option Nat := none
  maxLoadTestConcurrency : Option Nat := none
  maxLoadTestDurationSeconds : Option Nat := none

/-- `_RISK_ORDER`. -/
def riskOrder : RiskLevel → Nat
  | .l0 => 0
  | .l1 => 1
  | .l2 => 2
  | .l3 => 3

/-- `PolicyEffect`. -/
inductive PolicyEffect where
  | allow
  | requireApproval
  | deny
  deriving DecidableEq, Repr

/-- `PolicyDecision`. -/
structure PolicyDecision where
  effect : PolicyEffect
  riskLevel : RiskLevel
  reasonCodes : List String
  approvalTtlSeconds : Option Int
  decidedAt : Int
  deriving DecidableEq, Repr

/-- One check of a load test against its limit. -/
def exceeds (requested maximum : Option Nat) : Bool :=
  match requested, maximum with
  | some requested, some maximum => decide (maximum < requested)
  | _, _ => true

/-- `_load_test_violations`. -/
def loadTestViolations (action : ProposedAction) (scope : AuthorizationScope) : List String :=
  if !action.isLoadTest then []
  else
    (if exceeds action.requestedRps scope.maxLoadTestRps then ["load_test_rps_exceeded"]
      else []) ++
    (if exceeds action.requestedConcurrency scope.maxLoadTestConcurrency then
      ["load_test_concurrency_exceeded"] else []) ++
    (if exceeds action.requestedDurationSeconds scope.maxLoadTestDurationSeconds then
      ["load_test_duration_exceeded"] else [])

/-- The reasons `evaluate_action` collects. -/
def policyReasons (action : ProposedAction) (scope : AuthorizationScope) (evaluatedAt : Int) :
    List String :=
  (if action.targetId ∉ scope.allowedTargetIds then ["target_out_of_scope"] else []) ++
  (if action.actionType ∉ scope.allowedActionTypes then ["action_type_out_of_scope"] else []) ++
  (if scope.validFrom.any (fun validFrom => decide (evaluatedAt < validFrom)) then
    ["scope_not_yet_valid"] else []) ++
  (if scope.validUntil.any (fun validUntil => decide (validUntil ≤ evaluatedAt)) then
    ["scope_expired"] else []) ++
  (if riskOrder scope.maximumRiskLevel < riskOrder action.riskLevel then ["risk_exceeds_scope"]
    else []) ++
  (if action.isWrite && action.rollbackSteps.isEmpty then ["write_missing_rollback"] else []) ++
  loadTestViolations action scope

/-- `evaluate_action`. -/
def evaluateAction (action : ProposedAction) (scope : AuthorizationScope)
    (environment : TargetEnvironment) (evaluatedAt : Int) : PolicyDecision :=
  let reasons := policyReasons action scope evaluatedAt
  if reasons ≠ [] then ⟨.deny, action.riskLevel, reasons, none, evaluatedAt⟩
  else if riskOrder .l2 ≤ riskOrder action.riskLevel ∨
      (environment = .production ∧ action.isWrite = true) then
    ⟨.requireApproval, action.riskLevel, ["approval_required"], some 300, evaluatedAt⟩
  else ⟨.allow, action.riskLevel, ["scope_and_policy_satisfied"], none, evaluatedAt⟩

/-! ### Tokens -/

/-- `ApprovalClaims`. -/
structure ApprovalClaims where
  approvalId : Nat
  projectId : Nat
  incidentId : Nat
  actionId : Nat
  actionHash : String
  targetId : Nat
  approverId : Nat
  expiresAt : Int
  deriving DecidableEq, Repr

/-- How a token is written: JSON, HMAC, base64 around a dot, and the digest of
an action.  What was written is read back. -/
structure TokenCodec (Token Bytes : Type) where
  dump : ApprovalClaims → Bytes
  validate : Bytes → Option ApprovalClaims
  hmac : Bytes → Bytes
  join : Bytes → Bytes → Token
  split : Token → Option (Bytes × Bytes)
  actionHash : ProposedAction → String
  secretLength : Nat
  validate_dump : ∀ claims, validate (dump claims) = some claims
  split_join : ∀ body signature, split (join body signature) = some (body, signature)

section Codec

variable {Token Bytes : Type} [DecidableEq Bytes] (codec : TokenCodec Token Bytes)

/-- `_validate_secret`. -/
def validateSecret : Except String Unit :=
  if codec.secretLength < 32 then
    .error "approval token secret must contain at least 32 bytes"
  else .ok ()

/-- `issue_approval_token`. -/
def issueApprovalToken (claims : ApprovalClaims) : Except String Token := do
  validateSecret codec
  let body := codec.dump claims
  return codec.join body (codec.hmac body)

/-- The claims of a token whose signature is right. -/
def readToken (token : Token) : Except String ApprovalClaims := do
  validateSecret codec
  match codec.split token with
  | none => throw "malformed approval token"
  | some (body, signature) =>
      if signature ≠ codec.hmac body then throw "invalid approval token signature"
      match codec.validate body with
      | none => throw "invalid approval token claims"
      | some claims => return claims

/-- `verify_approval_token`. -/
def verifyApprovalToken (token : Token) (action : ProposedAction) (approverId : Nat)
    (evaluatedAt : Int) : Except String ApprovalClaims := do
  let claims ← readToken codec token
  if claims.expiresAt ≤ evaluatedAt then throw "approval token expired"
  if claims.actionId ≠ action.id ∨ claims.actionHash ≠ codec.actionHash action then
    throw "approval token does not match action"
  if claims.targetId ≠ action.targetId ∨ claims.incidentId ≠ action.incidentId then
    throw "approval token does not match target or incident"
  if claims.projectId ≠ action.projectId ∨ claims.approverId ≠ approverId then
    throw "approval token does not match project or approver"
  return claims

/-! ### Records -/

/-- `ApprovalStatus`. -/
inductive ApprovalStatus where
  | pending
  | granted
  | rejected
  | expired
  | consumed
  deriving DecidableEq, Repr

/-- The statuses that end an approval. -/
def ApprovalStatus.isFinal : ApprovalStatus → Bool
  | .rejected | .expired | .consumed => true
  | .pending | .granted => false

/-- `ApprovalRecord`. -/
structure ApprovalRecord where
  approvalId : Nat
  action : ProposedAction
  decision : PolicyDecision
  status : ApprovalStatus
  requesterId : Nat
  approverId : Nat
  createdAt : Int
  expiresAt : Int
  deriving DecidableEq

/-- The approval files, one for each approval id. -/
abbrev ApprovalFiles : Type := List ApprovalRecord

/-- `get`. -/
def getRecord (files : ApprovalFiles) (approvalId : Nat) : Option ApprovalRecord :=
  files.find? (fun record => decide (record.approvalId = approvalId))

/-- `_write`. -/
def writeRecord (files : ApprovalFiles) (record : ApprovalRecord) : ApprovalFiles :=
  record :: files.filter (fun r => decide (r.approvalId ≠ record.approvalId))

/-- `ApprovalCreateRequest`. -/
structure ApprovalCreateRequest where
  action : ProposedAction
  scope : AuthorizationScope
  environment : TargetEnvironment := .other
  approverId : Option Nat := none

/-- `decision.approval_ttl_seconds or 300`, in microseconds. -/
def approvalLifetime (decision : PolicyDecision) : Int :=
  let seconds := match decision.approvalTtlSeconds with
    | some seconds => if seconds = 0 then 300 else seconds
    | none => 300
  seconds * 1000000

/-- `create`; the policy reads the clock first. -/
def create (files : ApprovalFiles) (request : ApprovalCreateRequest)
    (requesterId defaultApproverId : Nat) (evaluatedAt now : Int) :
    Except String ApprovalRecord × ApprovalFiles :=
  let decision := evaluateAction request.action request.scope request.environment evaluatedAt
  if decision.effect = .deny then
    (.error ("策略拒绝该操作：" ++ String.intercalate "," decision.reasonCodes), files)
  else
    let record : ApprovalRecord :=
      { approvalId := request.action.id
        action := request.action
        decision := decision
        status := .pending
        requesterId := requesterId
        approverId := request.approverId.getD defaultApproverId
        createdAt := now
        expiresAt := now + approvalLifetime decision }
    (.ok record, writeRecord files record)

/-- The claims `decide` issues for a record. -/
def ApprovalRecord.claims (record : ApprovalRecord) (approverId : Nat) : ApprovalClaims :=
  { approvalId := record.approvalId
    projectId := record.action.projectId
    incidentId := record.action.incidentId
    actionId := record.action.id
    actionHash := codec.actionHash record.action
    targetId := record.action.targetId
    approverId := approverId
    expiresAt := record.expiresAt }

/-- `decide`; a token comes with a grant only. -/
def decide (files : ApprovalFiles) (approvalId approverId : Nat) (approved : Bool) (now : Int) :
    Except String (Option Token) × ApprovalFiles :=
  match getRecord files approvalId with
  | none => (.error "approval not found", files)
  | some record =>
      if record.approverId ≠ approverId then
        (.error "approval belongs to another approver", files)
      else if record.expiresAt ≤ now then
        (.error "approval expired", writeRecord files { record with status := .expired })
      else if record.status ≠ .pending then (.error "approval is no longer pending", files)
      else if approved = false then
        (.ok none, writeRecord files { record with status := .rejected })
      else
        let files := writeRecord files { record with status := .granted }
        match issueApprovalToken codec (record.claims codec approverId) with
        | .error message => (.error message, files)
        | .ok token => (.ok (some token), files)

/-- `consume`. -/
def consume (files : ApprovalFiles) (action : ProposedAction) (token : Token) (approverId : Nat)
    (now : Int) : Except String ApprovalClaims × ApprovalFiles :=
  match verifyApprovalToken codec token action approverId now with
  | .error message => (.error message, files)
  | .ok claims =>
      match getRecord files claims.approvalId with
      | none => (.error "approval is not granted", files)
      | some record =>
          if record.status ≠ .granted then (.error "approval is not granted", files)
          else (.ok claims, writeRecord files { record with status := .consumed })

/-! ### Runs -/

/-- The calls, each with what it reads from the clock. -/
inductive ApprovalCall (Token : Type) where
  | create (request : ApprovalCreateRequest) (requesterId defaultApproverId : Nat)
      (evaluatedAt now : Int)
  | decide (approvalId approverId : Nat) (approved : Bool) (now : Int)
  | consume (action : ProposedAction) (token : Token) (approverId : Nat) (now : Int)

/-- The clock a call reads last. -/
def ApprovalCall.now {Token : Type} : ApprovalCall Token → Int
  | .create _ _ _ _ now => now
  | .decide _ _ _ now => now
  | .consume _ _ _ now => now

/-- The files, and what the calls returned: tokens issued and tokens accepted,
each with its claims, and the latest clock. -/
structure ApprovalState (Token : Type) where
  files : ApprovalFiles := []
  issued : List (Token × ApprovalClaims) := []
  accepted : List (Token × ApprovalClaims) := []
  clock : Option Int := none

/-- One call. -/
def approvalStep (s : ApprovalState Token) (call : ApprovalCall Token) : ApprovalState Token :=
  let s := { s with clock := some call.now }
  match call with
  | .create request requesterId defaultApproverId evaluatedAt now =>
      { s with files :=
          (create s.files request requesterId defaultApproverId evaluatedAt now).2 }
  | .decide approvalId approverId approved now =>
      let result := decide codec s.files approvalId approverId approved now
      let issued := match result.1, getRecord s.files approvalId with
        | .ok (some token), some record => [(token, record.claims codec approverId)]
        | _, _ => []
      { s with files := result.2, issued := s.issued ++ issued }
  | .consume action token approverId now =>
      let result := consume codec s.files action token approverId now
      let accepted := match result.1 with
        | .ok claims => [(token, claims)]
        | .error _ => []
      { s with files := result.2, accepted := s.accepted ++ accepted }

/-- The approvals as a machine: no files at first. -/
def approvalMachine : Machine (ApprovalState Token) (ApprovalCall Token) :=
  { Start := fun s => s.files = [] ∧ s.issued = [] ∧ s.accepted = []
    step := fun s call => some (approvalStep codec s call) }

end Codec

end Workbench.Approvals
