import CyberWorkbench.KeyedTable
import CyberWorkbench.PythonValues

/-!
# The runtime's durable records

The three tables the agent runtime synchronises through: notifications (the
durable inbox of every agent instance), delegated subagent tasks, and sandbox
async jobs.  Field names and defaults are those of `model/agent` and
`model/sandbox`; statuses are those of the matching `schema` enumerations.

Subagent tasks and async jobs have the same four statuses, so both use
`WorkStatus`.
-/

namespace Workbench

open KeyedTable PythonValues

/-- A moment, as `datetime.now()` returns it. -/
abbrev Time := Nat

/-- `AgentSubordinateStatus` and `SandboxAsyncJobStatus`. -/
inductive WorkStatus where
  | running
  | completed
  | failed
  | canceled
  deriving DecidableEq, Repr

/-- `TERMINAL_SUBAGENT_STATUSES`, `TERMINAL_ASYNC_JOB_STATUSES`. -/
def WorkStatus.isTerminal : WorkStatus → Bool
  | .running => false
  | .completed | .failed | .canceled => true

/-- `_PARENT_WAKING_STATUSES`, `_OWNER_WAKING_STATUSES`: the outcomes whose
result the owner must integrate. -/
def WorkStatus.wakesOwner : WorkStatus → Bool
  | .completed | .failed => true
  | .running | .canceled => false

/-- The `.value` of the string enumeration. -/
def WorkStatus.value : WorkStatus → String
  | .running => "running"
  | .completed => "completed"
  | .failed => "failed"
  | .canceled => "canceled"

theorem WorkStatus.isTerminal_iff {s : WorkStatus} : s.isTerminal = true ↔ s ≠ .running := by
  cases s <;> simp [isTerminal]

/-- `AgentNotificationKind`. -/
inductive NotificationKind where
  | subagentFinished
  | sandboxAsyncJobFinished
  | userMessage
  deriving DecidableEq, Repr

/-- `AgentNotificationStatus`. -/
inductive NotificationStatus where
  | awaiting
  | pending
  | processing
  | completed
  | failed
  | canceled
  deriving DecidableEq, Repr

/-- `_TERMINAL_NOTIFICATION_STATUSES`. -/
def NotificationStatus.isTerminal : NotificationStatus → Bool
  | .completed | .failed | .canceled => true
  | .awaiting | .pending | .processing => false

/-- `OUTSTANDING_NOTIFICATION_STATUSES`: work the session must still wait for. -/
def NotificationStatus.isOutstanding : NotificationStatus → Bool
  | .awaiting | .pending | .processing => true
  | .completed | .failed | .canceled => false

/-- `_ACTIVE_CANCELABLE_VALUES`. -/
def NotificationStatus.isActiveCancelable : NotificationStatus → Bool
  | .pending | .processing => true
  | .awaiting | .completed | .failed | .canceled => false

/-- `USER_MESSAGE_PRIORITY`. -/
def userMessagePriority : Nat := 10

/-- `SYSTEM_NOTIFICATION_PRIORITY`. -/
def systemNotificationPriority : Nat := 0

/-- Durable inbox item for agent turn resumption. -/
structure AgentNotification where
  id : String
  sessionId : String
  targetAgentCode : String := ""
  targetAgentInstanceId : String := ""
  nestedForAgentCode : String := ""
  nestedCallId : String := ""
  sandboxContainerId : Option Nat := none
  sandboxContainerGeneration : Nat := 0
  sandboxSkillMetadata : List String := []
  kind : NotificationKind := .subagentFinished
  status : NotificationStatus := .pending
  priority : Nat := systemNotificationPriority
  runId : String := ""
  payload : Dict := []
  error : String := ""
  createdAt : Time
  updatedAt : Time
  startedAt : Option Time := none
  finishedAt : Option Time := none
  deriving DecidableEq

/-- Persistent lifecycle row for a delegated subagent run. -/
structure AgentSubordinateTask where
  runId : String
  sessionId : String
  parentAgentCode : String := ""
  parentAgentInstanceId : String := ""
  agentCode : String := ""
  agentName : String := ""
  status : WorkStatus := .running
  brief : String := ""
  result : String := ""
  error : String := ""
  progress : String := ""
  nestedCallId : String := ""
  ownerId : Nat := 0
  createdAt : Time
  updatedAt : Time
  startedAt : Option Time := none
  finishedAt : Option Time := none
  deriving DecidableEq, Repr

/-- Persistent lifecycle row for a sandbox async command. -/
structure SandboxAsyncJob where
  runId : String
  sessionId : String
  agentCode : String := ""
  agentInstanceId : String := ""
  command : String := ""
  outputFile : String := ""
  status : WorkStatus := .running
  exitCode : Option Int := none
  outputBytes : Nat := 0
  outputLines : Nat := 0
  error : String := ""
  nestedForAgentCode : String := ""
  nestedCallId : String := ""
  sandboxContainerId : Option Nat := none
  sandboxContainerGeneration : Nat := 0
  sandboxSkillMetadata : List String := []
  createdAt : Time
  updatedAt : Time
  startedAt : Option Time := none
  finishedAt : Option Time := none
  deriving DecidableEq, Repr

/-- `agent_notifications`, by primary key. -/
abbrev NotificationTable := Table AgentNotification AgentNotification.id

/-- `agent_subordinates`, by primary key. -/
abbrev TaskTable := Table AgentSubordinateTask AgentSubordinateTask.runId

/-- `sandbox_async_jobs`, by primary key. -/
abbrev JobTable := Table SandboxAsyncJob SandboxAsyncJob.runId

/-- The tables the runtime's transactions read and write. -/
structure Database where
  tasks : TaskTable
  jobs : JobTable
  notifications : NotificationTable

/-- The database before anything ran. -/
def Database.empty : Database := ⟨Table.empty, Table.empty, Table.empty⟩

/-- `MAIN_AGENT_INSTANCE_PREFIX`. -/
def mainAgentInstancePrefix : String := "main:"

/-- `SUBAGENT_INSTANCE_PREFIX`. -/
def subagentInstancePrefix : String := "subagent:"

/-- `main_agent_instance_id`. -/
def mainAgentInstanceId (sessionId : String) (userId : Nat) (agentCode : String) : String :=
  mainAgentInstancePrefix ++ sessionId ++ ":" ++ toString userId ++ ":" ++ agentCode

/-- `subagent_instance_id`. -/
def subagentInstanceId (runId : String) : String :=
  subagentInstancePrefix ++ runId

/-- SQL `column LIKE 'main:%'`; the comparison ignores ASCII case. -/
def isMainAgentTarget (instanceId : String) : Bool :=
  mainAgentInstancePrefix.toList.isPrefixOf (instanceId.toList.map Char.toLower)

/-- Every main-agent instance id is a main-agent target. -/
theorem isMainAgentTarget_mainAgentInstanceId (sessionId : String) (userId : Nat)
    (agentCode : String) :
    isMainAgentTarget (mainAgentInstanceId sessionId userId agentCode) = true := by
  have hinitial : mainAgentInstancePrefix.toList.map Char.toLower =
      mainAgentInstancePrefix.toList := by decide
  unfold isMainAgentTarget mainAgentInstanceId
  simp only [String.toList_append, List.map_append, List.append_assoc, hinitial]
  exact List.isPrefixOf_iff_prefix.mpr (List.prefix_append _ _)

end Workbench
