import CyberWorkbench.Notifications

/-!
# Background work

Delegated subagent tasks (`service/agent/subordinates`) and sandbox async jobs
(`service/sandbox/async_jobs`) are the same machine twice: a row is born
RUNNING together with the AWAITING obligation of its owner, a single-record
finisher settles it by an UPDATE that re-tests RUNNING, and bulk writers
settle every row a SELECT returned.  Whoever settles a row resolves its
obligation in the same transaction.

The machine is written once, over a `WorkKind`; each function of the two
services is then that machine at its own columns.
-/

namespace Workbench

open KeyedTable PythonValues

/-! ### One machine for both kinds -/

/-- How a kind of background work is stored: its status, its error, what it
produced, the notification its owner waits for and that notification's body. -/
structure WorkKind (ρ : Type) (key : ρ → String) where
  status : ρ → WorkStatus
  error : ρ → String
  product : ρ → Value
  obligation : NotificationKind
  payload : ρ → Dict

variable {ρ : Type} {key : ρ → String}

/-- The SET clause of a finisher. -/
structure Settlement (K : WorkKind ρ key) where
  outcome : WorkStatus
  error : String
  set : ρ → ρ
  outcomeTerminal : outcome.isTerminal = true
  keepsKey : ∀ r, key (set r) = key r
  setsStatus : ∀ r, K.status (set r) = outcome

/-- The assignments of a bulk writer.  `write loaded current` is the row after
the flush; `write loaded loaded` is the object in memory. -/
structure BulkSettlement (K : WorkKind ρ key) where
  outcome : WorkStatus
  error : String
  ready : Bool
  carriesPayload : Bool
  write : ρ → ρ → ρ
  outcomeTerminal : outcome.isTerminal = true
  readyMatches : ready = outcome.wakesOwner
  keepsKey : ∀ l c, key (write l c) = key c
  setsStatus : ∀ l c, K.status (write l c) = writtenField (K.status l) outcome (K.status c)
  setsError : ∀ l c, K.error (write l c) = writtenField (K.error l) error (K.error c)
  keepsProduct : ∀ l c, K.product (write l c) = K.product c

/-- Insert a work row and, in the same transaction, its obligation. -/
def createWork (row : ρ) (obligation : Option ObligationRequest) (now : Time)
    (work : Table ρ key) (notifications : NotificationTable) :
    Option (Table ρ key × NotificationTable) :=
  match work.insert row, obligation with
  | none, _ => none
  | some work, none => some (work, notifications)
  | some work, some request =>
      match addObligationInSession request now notifications with
      | none => none
      | some notifications => some (work, notifications)

/-- A finisher goes on to its UPDATE when it read a row that is not terminal. -/
def finishWorkRead (K : WorkKind ρ key) (runId : String) (work : Table ρ key) : Bool :=
  match work.get? runId with
  | none => false
  | some row => !(K.status row).isTerminal

/-- `WHERE run_id = … AND status = RUNNING`. -/
def isRunningRun (K : WorkKind ρ key) (runId : String) (row : ρ) : Bool :=
  decide (key row = runId) && decide (K.status row = .running)

/-- The UPDATE of a finisher and the resolution that commits with it; when no
row matched, the transaction is rolled back. -/
def finishWorkWrite (K : WorkKind ρ key) (runId : String) (s : Settlement K) (resolvedAt : Time)
    (work : Table ρ key) (notifications : NotificationTable) :
    Table ρ key × NotificationTable :=
  match work.rows.find? (isRunningRun K runId) with
  | none => (work, notifications)
  | some row =>
      (work.updateWhere (isRunningRun K runId) s.set s.keepsKey,
        resolveObligationInSession K.obligation runId s.outcome.wakesOwner
          (some (K.payload (s.set row))) s.error resolvedAt notifications)

/-- The obligation a bulk writer resolves after it assigned one row. -/
def resolveLoaded (K : WorkKind ρ key) (b : BulkSettlement K) (resolvedAt : Time) (loaded : ρ)
    (notifications : NotificationTable) : NotificationTable :=
  resolveObligationInSession K.obligation (key loaded) b.ready
    (if b.carriesPayload then some (K.payload (b.write loaded loaded)) else none)
    b.error resolvedAt notifications

/-- The loop of a bulk writer over the rows it read, and its commit. -/
def settleLoadedWrite (K : WorkKind ρ key) (b : BulkSettlement K) (resolvedAt : Time) :
    List ρ → Table ρ key → NotificationTable → Table ρ key × NotificationTable
  | [], work, notifications => (work, notifications)
  | l :: rest, work, notifications =>
      settleLoadedWrite K b resolvedAt rest
        (work.updateWhere (fun r => decide (key r = key l)) (b.write l) (b.keepsKey l))
        (resolveLoaded K b resolvedAt l notifications)

/-- The loop writes the rows back and resolves their obligations; neither
half looks at the other. -/
theorem settleLoadedWrite_eq (K : WorkKind ρ key) (b : BulkSettlement K) (resolvedAt : Time)
    (loaded : List ρ) (work : Table ρ key) (notifications : NotificationTable) :
    settleLoadedWrite K b resolvedAt loaded work notifications =
      (work.writeBack loaded b.write b.keepsKey,
        loaded.foldl (fun ns l => resolveLoaded K b resolvedAt l ns) notifications) := by
  induction loaded generalizing work notifications with
  | nil => rfl
  | cons l rest ih =>
      rw [settleLoadedWrite, ih]
      rfl

/-! ### Subagent tasks -/

/-- `_subagent_obligation_payload`. -/
def subagentObligationPayload (task : AgentSubordinateTask) : Dict :=
  [("run_id", .str task.runId),
    ("agent_code", .str task.agentCode),
    ("agent_name", .str task.agentName),
    ("status", .str task.status.value)]

/-- Delegated subagent runs. -/
def subagentWork : WorkKind AgentSubordinateTask AgentSubordinateTask.runId where
  status := AgentSubordinateTask.status
  error := AgentSubordinateTask.error
  product task := .str task.result
  obligation := .subagentFinished
  payload := subagentObligationPayload

/-- The arguments of `create_subagent_task`, with the identifiers `uuid4()`
draws for the run and for the obligation. -/
structure SubagentTaskRequest where
  runId : String
  obligationId : String
  sessionId : String
  parentAgentCode : String
  parentAgentInstanceId : String
  agentCode : String
  agentName : String
  brief : String
  nestedCallId : String
  ownerId : Nat
  scope : RuntimeScope := {}

/-- The task row `create_subagent_task` adds. -/
def SubagentTaskRequest.task (request : SubagentTaskRequest) (now : Time) :
    AgentSubordinateTask where
  runId := request.runId
  sessionId := request.sessionId
  parentAgentCode := request.parentAgentCode
  parentAgentInstanceId := request.parentAgentInstanceId
  agentCode := request.agentCode
  agentName := request.agentName
  status := .running
  brief := request.brief
  nestedCallId := request.nestedCallId
  ownerId := request.ownerId
  createdAt := now
  updatedAt := now
  startedAt := some now

/-- The obligation `create_subagent_task` registers: none without a parent. -/
def SubagentTaskRequest.obligation (request : SubagentTaskRequest) : Option ObligationRequest :=
  if request.parentAgentCode = "" then none
  else some {
    id := request.obligationId
    kind := .subagentFinished
    sessionId := request.sessionId
    targetAgentCode := request.parentAgentCode
    targetAgentInstanceId := request.parentAgentInstanceId
    runId := request.runId
    payload := some [
      ("run_id", .str request.runId),
      ("agent_code", .str request.agentCode),
      ("agent_name", .str request.agentName)]
    scope := request.scope }

/-- The UPDATE of `_finish_subagent_task`. -/
def finishSubagentTask (outcome : WorkStatus) (outcomeTerminal : outcome.isTerminal = true)
    (result error : String) (now : Time) : Settlement subagentWork where
  outcome := outcome
  error := error
  set task := { task with
    status := outcome
    result := result
    error := error
    progress := ""
    updatedAt := now
    finishedAt := some now }
  outcomeTerminal := outcomeTerminal
  keepsKey _ := rfl
  setsStatus _ := rfl

/-- `complete_subagent_task`. -/
def completeSubagentTask (result : String) (now : Time) : Settlement subagentWork :=
  finishSubagentTask .completed rfl result "" now

/-- `fail_subagent_task`. -/
def failSubagentTask (error : String) (now : Time) : Settlement subagentWork :=
  finishSubagentTask .failed rfl "" error now

/-- `cancel_subagent_task_record`. -/
def cancelSubagentTaskRecord (error : String) (now : Time) : Settlement subagentWork :=
  finishSubagentTask .canceled rfl "" error now

/-- The filter arguments of `_cancel_running_subagent_tasks`. -/
structure TaskFilter where
  sessionId : Option String := none
  parentAgentInstanceId : Option String := none

/-- The WHERE clause of `_cancel_running_subagent_tasks`. -/
def TaskFilter.selects (f : TaskFilter) (task : AgentSubordinateTask) : Bool :=
  decide (task.status = .running) && matchesOption f.sessionId task.sessionId &&
    matchesOption f.parentAgentInstanceId task.parentAgentInstanceId

/-- The assignments of `_cancel_running_subagent_tasks`. -/
def cancelRunningSubagentTasks (error : String) (now : Time) : BulkSettlement subagentWork where
  outcome := .canceled
  error := error
  ready := false
  carriesPayload := false
  write loaded current := { current with
    status := writtenField loaded.status .canceled current.status
    error := writtenField loaded.error error current.error
    progress := writtenField loaded.progress "" current.progress
    updatedAt := writtenField loaded.updatedAt now current.updatedAt
    finishedAt := writtenField loaded.finishedAt (some now) current.finishedAt }
  outcomeTerminal := rfl
  readyMatches := rfl
  keepsKey _ _ := rfl
  setsStatus _ _ := rfl
  setsError _ _ := rfl
  keepsProduct _ _ := rfl

/-- `restart_error` of `mark_stale_running_subagent_tasks_failed`. -/
def subagentRestartError : String := "Subagent task was interrupted by backend restart."

/-- The assignments of `mark_stale_running_subagent_tasks_failed`. -/
def markStaleRunningSubagentTasksFailed (now : Time) : BulkSettlement subagentWork where
  outcome := .failed
  error := subagentRestartError
  ready := true
  carriesPayload := true
  write loaded current := { current with
    status := writtenField loaded.status .failed current.status
    error := writtenField loaded.error subagentRestartError current.error
    updatedAt := writtenField loaded.updatedAt now current.updatedAt
    finishedAt := writtenField loaded.finishedAt (some now) current.finishedAt }
  outcomeTerminal := rfl
  readyMatches := rfl
  keepsKey _ _ := rfl
  setsStatus _ _ := rfl
  setsError _ _ := rfl
  keepsProduct _ _ := rfl

/-- The write-back of `update_subagent_progress`. -/
def updateSubagentProgressWrite (loaded : AgentSubordinateTask) (progress : String) (now : Time)
    (tasks : TaskTable) : TaskTable :=
  tasks.updateWhere (fun task => decide (task.runId = loaded.runId))
    (fun current => { current with
      progress := writtenField loaded.progress progress current.progress
      updatedAt := writtenField loaded.updatedAt now current.updatedAt })
    (fun _ => rfl)

/-- Progress is not part of a task's verdict. -/
theorem updateSubagentProgressWrite_rowwise (loaded : AgentSubordinateTask) (progress : String)
    (now : Time) (tasks : TaskTable) :
    tasks.Rowwise
      (fun t t' => t'.status = t.status ∧ t'.result = t.result ∧ t'.error = t.error)
      (updateSubagentProgressWrite loaded progress now tasks) := by
  refine (Table.rowwise_updateWhere _ _ _ _).mono ?_
  rintro _ t t' - rfl
  split
  · exact ⟨rfl, rfl, rfl⟩
  · exact ⟨rfl, rfl, rfl⟩

/-! ### Sandbox async jobs -/

/-- `_async_job_obligation_payload`. -/
def asyncJobObligationPayload (job : SandboxAsyncJob) : Dict :=
  [("status", .str job.status.value),
    ("output_file", .str job.outputFile),
    ("output_bytes", .number job.outputBytes 0),
    ("output_lines", .number job.outputLines 0),
    ("exit_code", exitCodeValue job.exitCode),
    ("error", .str job.error)]
where
  exitCodeValue : Option Int → Value
    | none => .none
    | some code => .number code 0

/-- Sandbox async commands. -/
def asyncJobWork : WorkKind SandboxAsyncJob SandboxAsyncJob.runId where
  status := SandboxAsyncJob.status
  error := SandboxAsyncJob.error
  product job := asyncJobObligationPayload.exitCodeValue job.exitCode
  obligation := .sandboxAsyncJobFinished
  payload := asyncJobObligationPayload

/-- The arguments of `create_async_job`, with the identifier `uuid4()` draws
for the obligation. -/
structure AsyncJobRequest where
  runId : String
  obligationId : String
  sessionId : String
  agentCode : String
  agentInstanceId : String
  command : String
  outputFile : String
  nestedForAgentCode : String
  nestedCallId : String
  sandboxContainerId : Option Nat
  sandboxContainerGeneration : Nat
  sandboxSkillMetadata : List String
  scope : RuntimeScope := {}

/-- The job row `create_async_job` adds. -/
def AsyncJobRequest.job (request : AsyncJobRequest) (now : Time) : SandboxAsyncJob where
  runId := request.runId
  sessionId := request.sessionId
  agentCode := request.agentCode
  agentInstanceId := request.agentInstanceId
  command := request.command
  outputFile := request.outputFile
  status := .running
  nestedForAgentCode := request.nestedForAgentCode
  nestedCallId := request.nestedCallId
  sandboxContainerId := request.sandboxContainerId
  sandboxContainerGeneration := request.sandboxContainerGeneration
  sandboxSkillMetadata := request.sandboxSkillMetadata
  createdAt := now
  updatedAt := now
  startedAt := some now

/-- The obligation `create_async_job` registers. -/
def AsyncJobRequest.obligation (request : AsyncJobRequest) : ObligationRequest where
  id := request.obligationId
  kind := .sandboxAsyncJobFinished
  sessionId := request.sessionId
  targetAgentCode := request.agentCode
  targetAgentInstanceId := request.agentInstanceId
  runId := request.runId
  nestedForAgentCode := request.nestedForAgentCode
  nestedCallId := request.nestedCallId
  sandboxContainerId := request.sandboxContainerId
  sandboxContainerGeneration := request.sandboxContainerGeneration
  sandboxSkillMetadata := request.sandboxSkillMetadata
  scope := request.scope

/-- The UPDATE of `_finish_async_job`. -/
def finishAsyncJob (outcome : WorkStatus) (outcomeTerminal : outcome.isTerminal = true)
    (exitCode : Option Int) (outputBytes outputLines : Nat) (error : String) (now : Time) :
    Settlement asyncJobWork where
  outcome := outcome
  error := error
  set job := { job with
    status := outcome
    exitCode := exitCode
    outputBytes := outputBytes
    outputLines := outputLines
    error := error
    updatedAt := now
    finishedAt := some now }
  outcomeTerminal := outcomeTerminal
  keepsKey _ := rfl
  setsStatus _ := rfl

/-- `complete_async_job`. -/
def completeAsyncJob (exitCode : Int) (outputBytes outputLines : Nat) (now : Time) :
    Settlement asyncJobWork :=
  finishAsyncJob .completed rfl (some exitCode) outputBytes outputLines "" now

/-- `fail_async_job`. -/
def failAsyncJob (error : String) (outputBytes outputLines : Nat) (now : Time) :
    Settlement asyncJobWork :=
  finishAsyncJob .failed rfl none outputBytes outputLines error now

/-- `cancel_async_job`. -/
def cancelAsyncJob (error : String) (outputBytes outputLines : Nat) (now : Time) :
    Settlement asyncJobWork :=
  finishAsyncJob .canceled rfl none outputBytes outputLines error now

/-- The filter arguments of `_cancel_running_async_jobs`. -/
structure JobFilter where
  sessionId : Option String := none
  agentInstanceId : Option String := none
  sandboxContainerId : Option Nat := none

/-- The WHERE clause of `_cancel_running_async_jobs`. -/
def JobFilter.selects (f : JobFilter) (job : SandboxAsyncJob) : Bool :=
  decide (job.status = .running) && matchesOption f.sessionId job.sessionId &&
    matchesOption f.agentInstanceId job.agentInstanceId &&
    (f.sandboxContainerId.isNone || decide (job.sandboxContainerId = f.sandboxContainerId))

/-- The assignments of `_cancel_running_async_jobs`. -/
def cancelRunningAsyncJobs (error : String) (now : Time) : BulkSettlement asyncJobWork where
  outcome := .canceled
  error := error
  ready := false
  carriesPayload := false
  write loaded current := { current with
    status := writtenField loaded.status .canceled current.status
    error := writtenField loaded.error error current.error
    updatedAt := writtenField loaded.updatedAt now current.updatedAt
    finishedAt := writtenField loaded.finishedAt (some now) current.finishedAt }
  outcomeTerminal := rfl
  readyMatches := rfl
  keepsKey _ _ := rfl
  setsStatus _ _ := rfl
  setsError _ _ := rfl
  keepsProduct _ _ := rfl

/-- `restart_error` of `mark_stale_running_async_jobs_failed`. -/
def asyncJobRestartError : String := "Sandbox async job was interrupted by backend restart."

/-- The assignments of `mark_stale_running_async_jobs_failed`. -/
def markStaleRunningAsyncJobsFailed (now : Time) : BulkSettlement asyncJobWork where
  outcome := .failed
  error := asyncJobRestartError
  ready := true
  carriesPayload := true
  write loaded current := { current with
    status := writtenField loaded.status .failed current.status
    error := writtenField loaded.error asyncJobRestartError current.error
    updatedAt := writtenField loaded.updatedAt now current.updatedAt
    finishedAt := writtenField loaded.finishedAt (some now) current.finishedAt }
  outcomeTerminal := rfl
  readyMatches := rfl
  keepsKey _ _ := rfl
  setsStatus _ _ := rfl
  setsError _ _ := rfl
  keepsProduct _ _ := rfl

end Workbench
