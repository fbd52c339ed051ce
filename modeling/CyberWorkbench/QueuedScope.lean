import CyberWorkbench.ChatTranscript
import CyberWorkbench.Notifications
import CyberWorkbench.PermissionGate

/-!
# The scope a user message runs under

A message submitted to an idle session runs in the context built for it
(`service/agent/runtime`).  A message submitted while a driver runs is stored
as a notification, with the scope of that context in its payload, and its turn
runs in the driver's context merged with the stored scope
(`core/runtime/session`).  The merge takes an empty tuple for a missing one:
`queued_scope_iff` says exactly when the two paths agree.
-/

namespace Workbench

open PythonValues RuntimePermissions

/-! ### Targets in a text -/

/-- `[^\s<>'\"]`. -/
def isUrlChar (c : Char) : Bool :=
  !isSpace c && !(c == '<' || c == '>' || c == '\'' || c == '"')

/-- `https?://` with `re.IGNORECASE`, which lets the long s match. -/
def matchScheme : List Char → Option (List Char × List Char)
  | h :: t :: u :: p :: rest =>
      if (h == 'h' || h == 'H') && (t == 't' || t == 'T') && (u == 't' || u == 'T') &&
          (p == 'p' || p == 'P') then
        match rest with
        | ':' :: '/' :: '/' :: rest => some ([h, t, u, p, ':', '/', '/'], rest)
        | s :: ':' :: '/' :: '/' :: rest =>
            if s == 's' || s == 'S' || s == 'ſ' then
              some ([h, t, u, p, s, ':', '/', '/'], rest)
            else none
        | _ => none
      else none
  | _ => none

/-- `_URL_RE` at the start of a text: the match and what follows it. -/
def matchUrl (text : List Char) : Option (List Char × List Char) :=
  match matchScheme text with
  | none => none
  | some (scheme, rest) =>
      let body := rest.takeWhile isUrlChar
      if body = [] then none else some (scheme ++ body, rest.dropWhile isUrlChar)

/-- `_URL_RE.findall`; every round leaves less of the text, so its length is
fuel enough. -/
def findUrls : Nat → List Char → List (List Char)
  | 0, _ => []
  | _ + 1, [] => []
  | fuel + 1, c :: rest =>
      match matchUrl (c :: rest) with
      | some (found, after) => found :: findUrls fuel after
      | none => findUrls fuel rest

/-- `raw.rstrip(".,，。；;)")`. -/
def stripUrlEnd (raw : List Char) : String :=
  String.ofList
    (raw.reverse.dropWhile (fun c => ['.', ',', '，', '。', '；', ';', ')'].contains c)).reverse

/-- The loop of `extract_urls`; `urlsplit` may raise. -/
def collectUrls (urlsplit : String → Except String SplitResult) :
    List (List Char) → List String → Except String (List String)
  | [], values => return values
  | raw :: rest, values => do
      let url := stripUrlEnd raw
      let parsed ← urlsplit url
      if (parsed.scheme = "http" ∨ parsed.scheme = "https") ∧ parsed.hostname.getD "" ≠ "" ∧
          url ∉ values then
        collectUrls urlsplit rest (values ++ [url])
      else collectUrls urlsplit rest values

/-- `extract_urls`. -/
def extractUrls (urlsplit : String → Except String SplitResult) (text : String) :
    Except String (List String) :=
  collectUrls urlsplit (findUrls text.toList.length text.toList) []

/-! ### Messages -/

/-- `part.model_dump()`. -/
def AgentInputPart.modelDump : AgentInputPart → Value
  | .text body => .dict [("type", .str "text"), ("text", .str body)]
  | .image mediaType data detail =>
      .dict [("type", .str "image"), ("media_type", .str mediaType), ("data", .str data),
        ("detail", .str detail)]

/-- `retrieval_text_from_content`. -/
def retrievalTextFromContent (content : List AgentInputPart) : String :=
  String.intercalate "\n\n" (content.filterMap (fun part =>
    match part with
    | .text body => if strip body = "" then none else some (strip body)
    | .image .. => none))

/-- `display_text_from_content`. -/
def displayTextFromContent (content : List AgentInputPart) : String :=
  let text := retrievalTextFromContent content
  if text ≠ "" then text
  else
    let imageCount := (content.filter (fun part =>
      match part with
      | .image .. => true
      | .text _ => false)).length
    if imageCount = 1 then "[Image]" else "[" ++ toString imageCount ++ " images]"

/-! ### Contexts -/

/-- `AgentRuntimeContext`. -/
structure AgentRuntimeContext where
  sessionId : String
  userId : Nat
  agentCode : String := ""
  agentInstanceId : String := ""
  nestedForAgentCode : String := ""
  nestedCallId : String := ""
  workProjectId : Option Nat := none
  sandboxContainerId : Option Nat := none
  sandboxContainerGeneration : Nat := 0
  sandboxSkillMetadata : List String := []
  allowedTargets : List String := []
  allowedActionTypes : List String := []
  scopeId : String := ""
  deriving DecidableEq, Repr

/-- A message as it is submitted, with what the database says about its
session's workspace. -/
structure Submission where
  sessionId : String
  userId : Nat
  agentCode : String
  content : List AgentInputPart
  workProjectId : Option Nat := none
  sandboxContainerId : Option Nat := none
  sandboxContainerGeneration : Nat := 0
  sandboxSkillMetadata : List String := []

/-- The action types `build_runtime_context` allows. -/
def sessionActionTypes : List String :=
  ["web.http.health", "web.http.headers", "web.tls.inspect", "security.web.scan",
    "network.dns.lookup", "network.ping", "network.port.probe",
    "host.local.diagnostic", "ssh.command"]

/-- `build_runtime_context`. -/
def buildRuntimeContext (submission : Submission) (allowedTargets : List String) :
    AgentRuntimeContext :=
  { sessionId := submission.sessionId
    userId := submission.userId
    agentCode := submission.agentCode
    agentInstanceId :=
      if submission.agentCode = "" then ""
      else mainAgentInstanceId submission.sessionId submission.userId submission.agentCode
    workProjectId := submission.workProjectId
    sandboxContainerId := submission.sandboxContainerId
    sandboxContainerGeneration := submission.sandboxContainerGeneration
    sandboxSkillMetadata := submission.sandboxSkillMetadata
    allowedTargets := allowedTargets
    allowedActionTypes := sessionActionTypes
    scopeId := "session:" ++ submission.sessionId }

/-- `submit_turn`, up to `start_turn`. -/
def submitTurn (urlsplit : String → Except String SplitResult) (submission : Submission) :
    Except String AgentRuntimeContext := do
  let allowedTargets ← extractUrls urlsplit (displayTextFromContent submission.content)
  return buildRuntimeContext submission allowedTargets

/-- The context of a turn that `start_turn` starts at once: `_drive` fills in
the agent. -/
def idleTurnContext (submission : Submission) (context : AgentRuntimeContext) :
    AgentRuntimeContext :=
  { context with
    agentCode := submission.agentCode
    agentInstanceId :=
      if context.agentInstanceId = "" then
        mainAgentInstanceId context.sessionId context.userId submission.agentCode
      else context.agentInstanceId }

/-- `_enqueue_user_message`: the arguments of the notification. -/
def enqueueUserMessage (id runId : String) (submission : Submission)
    (context : AgentRuntimeContext) : UserMessageRequest :=
  { id := id
    runId := runId
    sessionId := context.sessionId
    targetAgentCode := submission.agentCode
    targetAgentInstanceId :=
      if context.agentInstanceId = "" then
        mainAgentInstanceId context.sessionId context.userId submission.agentCode
      else context.agentInstanceId
    userContent := submission.content.map AgentInputPart.modelDump
    userDisplayText := displayTextFromContent submission.content
    userRequestedAgentCode := submission.agentCode
    sandboxContainerId := context.sandboxContainerId
    sandboxContainerGeneration := context.sandboxContainerGeneration
    sandboxSkillMetadata := context.sandboxSkillMetadata
    scope := ⟨context.allowedTargets, context.allowedActionTypes, context.scopeId⟩ }

/-- `_coerce_string_tuple`. -/
def coerceStringTuple : Value → List String
  | .list items => items.filterMap (fun item =>
      match item with
      | .str text => some text
      | _ => none)
  | _ => []

/-- The runtime scope in `snapshot_from_notification`. -/
def snapshotScope (notification : AgentNotification) : RuntimeScope :=
  let runtimeScope := runtimeScopePayload notification.payload
  { allowedTargets := coerceStringTuple (Dict.get runtimeScope "allowed_targets")
    allowedActionTypes := coerceStringTuple (Dict.get runtimeScope "allowed_action_types")
    scopeId := (Dict.get runtimeScope "scope_id").textOrEmpty }

/-- `_notification_sandbox_scope`. -/
def notificationSandboxScope (base : AgentRuntimeContext) (notification : AgentNotification) :
    Option Nat × Nat × List String :=
  let kept := (base.sandboxContainerId, base.sandboxContainerGeneration,
    base.sandboxSkillMetadata)
  if notification.sandboxContainerId = none then kept
  else if notification.sandboxContainerId ≠ base.sandboxContainerId then (none, 0, [])
  else kept

/-- `_context_for_notification`; an empty field of the notification falls back
to the driver's. -/
def contextForNotification (base : AgentRuntimeContext) (notification : AgentNotification) :
    AgentRuntimeContext :=
  let scope := snapshotScope notification
  let sandbox := notificationSandboxScope base notification
  { sessionId := base.sessionId
    userId := base.userId
    agentCode := notification.targetAgentCode
    agentInstanceId := notification.targetAgentInstanceId
    nestedForAgentCode := notification.nestedForAgentCode
    nestedCallId := notification.nestedCallId
    sandboxContainerId := sandbox.1
    sandboxContainerGeneration := sandbox.2.1
    sandboxSkillMetadata := sandbox.2.2
    workProjectId := base.workProjectId
    allowedTargets :=
      if scope.allowedTargets = [] then base.allowedTargets else scope.allowedTargets
    allowedActionTypes :=
      if scope.allowedActionTypes = [] then base.allowedActionTypes
      else scope.allowedActionTypes
    scopeId := if scope.scopeId = "" then base.scopeId else scope.scopeId }

/-- The context of a queued message's turn, under the running driver's. -/
def queuedTurnContext (base : AgentRuntimeContext) (id runId : String) (now : Time)
    (submission : Submission) (context : AgentRuntimeContext) : AgentRuntimeContext :=
  contextForNotification base ((enqueueUserMessage id runId submission context).row now)

/-! ### Reading the scope back -/

theorem coerceStringTuple_list (items : List String) :
    coerceStringTuple (.list (items.map .str)) = items := by
  induction items with
  | nil => rfl
  | cons item rest ih =>
      have hcons : coerceStringTuple (.list ((item :: rest).map .str)) =
          item :: coerceStringTuple (.list (rest.map .str)) := rfl
      rw [hcons, ih]

/-- **A stored scope is read back.** -/
theorem snapshotScope_row (request : UserMessageRequest) (now : Time) :
    snapshotScope (request.row now) = request.scope := by
  unfold snapshotScope UserMessageRequest.row payloadWithRuntimeScope
  generalize request.scope = scope
  obtain ⟨targets, actionTypes, scopeId⟩ := scope
  simp only
  split
  · simp [runtimeScopePayload, runtimeScopeKey, Dict.get, Dict.set, coerceStringTuple_list,
      Value.textOrEmpty]
  · rename_i hempty
    simp only [not_or, Decidable.not_not] at hempty
    obtain ⟨rfl, rfl, rfl⟩ := hempty
    rfl

/-- The targets of a queued message's turn: the message's own, unless it has
none. -/
theorem queuedTurnContext_allowedTargets (base : AgentRuntimeContext) (id runId : String)
    (now : Time) (submission : Submission) (context : AgentRuntimeContext) :
    (queuedTurnContext base id runId now submission context).allowedTargets =
      if context.allowedTargets = [] then base.allowedTargets else context.allowedTargets := by
  unfold queuedTurnContext contextForNotification
  simp only [snapshotScope_row]
  rfl

/-- What `submit_turn` passes on: the targets are those of the text. -/
theorem submitTurn_ok {urlsplit : String → Except String SplitResult} {submission : Submission}
    {context : AgentRuntimeContext} (h : submitTurn urlsplit submission = .ok context) :
    extractUrls urlsplit (displayTextFromContent submission.content) =
      .ok context.allowedTargets := by
  unfold submitTurn at h
  cases hurls : extractUrls urlsplit (displayTextFromContent submission.content) with
  | error message =>
      rw [hurls] at h
      cases h
  | ok urls =>
      rw [hurls] at h
      obtain rfl := Except.ok.inj h
      rfl

/-- **The scope of a queued message.**  A message runs under exactly the
targets its text names, whether the session is idle or a driver runs, if and
only if it names a target or the driver has none. -/
theorem queued_scope_iff (urlsplit : String → Except String SplitResult)
    (base : AgentRuntimeContext) (id runId : String) (now : Time) (submission : Submission)
    {context : AgentRuntimeContext} (h : submitTurn urlsplit submission = .ok context) :
    (extractUrls urlsplit (displayTextFromContent submission.content) =
        .ok (idleTurnContext submission context).allowedTargets ∧
      extractUrls urlsplit (displayTextFromContent submission.content) =
        .ok (queuedTurnContext base id runId now submission context).allowedTargets) ↔
      extractUrls urlsplit (displayTextFromContent submission.content) ≠ .ok [] ∨
        base.allowedTargets = [] := by
  have hurls := submitTurn_ok h
  have hidle : (idleTurnContext submission context).allowedTargets = context.allowedTargets := rfl
  rw [hurls, hidle, queuedTurnContext_allowedTargets]
  by_cases hnone : context.allowedTargets = []
  · rw [if_pos hnone, hnone]
    constructor
    · intro hboth
      exact .inr (Except.ok.inj hboth.2).symm
    · intro hbase
      exact ⟨rfl, congrArg _ (hbase.resolve_left (fun hne => hne rfl)).symm⟩
  · rw [if_neg hnone]
    refine iff_of_true ⟨rfl, rfl⟩ (.inl ?_)
    intro hempty
    exact hnone (Except.ok.inj hempty)

/-- A driver that works on one target. -/
def scanningDriver : AgentRuntimeContext :=
  { sessionId := "s", userId := 1, agentCode := "cso", allowedTargets := ["https://a.test"] }

/-- A message that names no target. -/
def plainMessage : Submission :=
  { sessionId := "s", userId := 1, agentCode := "cso", content := [.text "hello"] }

/-- The message is queued and inherits the driver's target. -/
theorem plain_message_inherits_target :
    extractUrls (fun _ => .error "") (displayTextFromContent plainMessage.content) = .ok [] ∧
      (idleTurnContext plainMessage (buildRuntimeContext plainMessage [])).allowedTargets = [] ∧
      (queuedTurnContext scanningDriver "n" "r" 0 plainMessage
        (buildRuntimeContext plainMessage [])).allowedTargets = ["https://a.test"] :=
  ⟨rfl, rfl, rfl⟩

/-- With no target on the driver's side the two paths agree. -/
theorem queued_scope_iff_plain :
    extractUrls (fun _ => .error "") (displayTextFromContent plainMessage.content) =
        .ok (idleTurnContext plainMessage (buildRuntimeContext plainMessage [])).allowedTargets ∧
      extractUrls (fun _ => .error "") (displayTextFromContent plainMessage.content) =
        .ok (queuedTurnContext { sessionId := "s", userId := 1 } "n" "r" 0 plainMessage
          (buildRuntimeContext plainMessage [])).allowedTargets := by
  have hsubmit : submitTurn (fun _ => .error "") plainMessage =
      .ok (buildRuntimeContext plainMessage []) := rfl
  exact (queued_scope_iff (fun _ => .error "") { sessionId := "s", userId := 1 } "n" "r" 0
    plainMessage hsubmit).mpr (.inr rfl)

end Workbench
