import CyberWorkbench.WorkOwners

/-!
# Async sandbox commands

`core/sandbox/command_jobs` runs a command of the agent as an asyncio task of
its own.  The job row is committed first, then the task is created, and only
then, under `_jobs_lock`, does the job enter `_jobs`.  The task launches the
process, waits for it and records the outcome; every await of it is a step, and
so are the exit of the process and the delivery of a cancellation.

A cancellation takes the matching jobs out of `_jobs` in one step.  Then, one
after another and in an order that is left open, it kills the job's process,
waits for the exit and cancels the task; it waits for the tasks, and all but
`cancel_async_sandbox_command` go on to a bulk cancellation in the database.

The database is that of `ObligationLockstep`, whose transactions are atomic.
-/

namespace Workbench

open KeyedTable PythonValues StepMachine

/-! ### Data -/

/-- How far `start_async_sandbox_command` got after the commit of the row. -/
inductive StartPhase where
  | creating
  | registering
  | started
  | abandoned
  deriving DecidableEq, Repr

/-- How `execute_sandbox_container_command` ends. -/
inductive CommandEnding where
  | ended
  | timedOut
  | canceled
  deriving DecidableEq, Repr

/-- Where the task of `_run_async` is suspended.  `closing` is the `finally` of
the execution; `resuming` is `_resume_owner`, inside the `try` or in a
handler. -/
inductive CommandTask where
  | absent
  | unstarted
  | launching
  | communicating
  | killing
  | closing (ending : CommandEnding)
  | completing
  | failing
  | canceling
  | resuming (inTry : Bool)
  | done
  deriving DecidableEq, Repr

/-- There is a task, and it is not `done()`. -/
def CommandTask.isLive : CommandTask → Bool
  | .absent | .done => false
  | _ => true

/-- `_running_processes` holds the process while it is communicated with. -/
def CommandTask.holdsProcess : CommandTask → Bool
  | .communicating | .killing => true
  | _ => false

/-- The process of a job. -/
inductive CommandProcess where
  | none
  | running
  | exited
  deriving DecidableEq, Repr

/-- Where the `_AsyncCommandJob` of a job is: nowhere, in `_jobs`, or in the
`selected` of a cancellation, before or after its turn in the loop. -/
inductive JobEntry where
  | absent
  | listed
  | taken (callId : Nat)
  | passed (callId : Nat)
  deriving DecidableEq, Repr

/-- How far a job is. -/
structure JobProgress where
  start : StartPhase := .creating
  task : CommandTask := .absent
  cancelRequested : Bool := false
  process : CommandProcess := .none
  entry : JobEntry := .absent
  deriving DecidableEq, Repr

/-- A job as the backend process sees it. -/
structure AsyncCommandJob where
  runId : String
  sessionId : String
  agentInstanceId : String
  progress : JobProgress := {}
  deriving DecidableEq

/-- Which jobs a cancellation is for. -/
inductive CancelScope where
  | run (runId : String)
  | agent (sessionId agentInstanceId : String)
  | session (sessionId : String)
  deriving DecidableEq, Repr

/-- The predicate given to `_cancel_runtime_jobs`. -/
def CancelScope.selects (scope : CancelScope) (r : AsyncCommandJob) : Bool :=
  match scope with
  | .run runId => decide (r.runId = runId)
  | .agent sessionId agentInstanceId =>
      decide (r.sessionId = sessionId ∧ r.agentInstanceId = agentInstanceId)
  | .session sessionId => decide (r.sessionId = sessionId)

/-- The scope of `cancel_async_sandbox_command`. -/
def CancelScope.isRun : CancelScope → Bool
  | .run _ => true
  | .agent .. | .session _ => false

/-- Where a cancellation is suspended. -/
inductive CancelPhase where
  | requested
  | canceling
  | killing (runId : String)
  | recording
  | returned
  deriving DecidableEq, Repr

/-- A call of `cancel_async_sandbox_command`,
`cancel_agent_async_sandbox_commands` or
`cancel_session_async_sandbox_commands`. -/
structure CancelCall where
  callId : Nat
  scope : CancelScope
  phase : CancelPhase := .requested
  deriving DecidableEq

/-- Everything the jobs share. -/
structure CommandState where
  db : Database := Database.empty
  jobs : Table AsyncCommandJob AsyncCommandJob.runId := .empty
  cancels : Table CancelCall CancelCall.callId := .empty

/-! ### The task of a job -/

/-- The steps of `_run_async`.  `raised` is an exception of the execution or of
`_write_output`; `cancelled` is the delivery of a CancelledError. -/
inductive TaskMove where
  | begin
  | launched
  | raised
  | ended
  | timedOut
  | killed
  | closed
  | committed
  | resumed
  | cancelled
  deriving DecidableEq, Repr

/-- Where a CancelledError leaves the task: a task that has not begun runs no
line of `_run_async`, and an exception in a handler leaves the coroutine. -/
def CommandTask.cancelled : CommandTask → Option CommandTask
  | .absent | .done => none
  | .unstarted | .failing | .canceling | .resuming false => some .done
  | .launching | .closing _ | .completing | .resuming true => some .canceling
  | .communicating | .killing => some (.closing .canceled)

/-- One step of the task. -/
def JobProgress.move (p : JobProgress) (move : TaskMove) : Option JobProgress :=
  if p.cancelRequested then
    -- Whatever was awaited, the next step throws the CancelledError.
    if move = .cancelled then
      p.task.cancelled.map (fun task => { p with task := task, cancelRequested := false })
    else none
  else
    match p.task, move with
    | .unstarted, .begin => some { p with task := .launching }
    | .launching, .launched => some { p with task := .communicating, process := .running }
    | .launching, .raised => some { p with task := .failing }
    | .communicating, .ended =>
        if p.process = .exited then some { p with task := .closing .ended } else none
    | .communicating, .timedOut => some { p with task := .killing }
    | .killing, .killed =>
        if p.process = .exited then some { p with task := .closing .timedOut } else none
    | .closing .ended, .closed => some { p with task := .completing }
    | .closing .ended, .raised => some { p with task := .failing }
    | .closing .timedOut, .closed => some { p with task := .failing }
    | .closing .canceled, .closed => some { p with task := .canceling }
    | .completing, .committed => some { p with task := .resuming true }
    | .failing, .committed => some { p with task := .resuming false }
    | .canceling, .committed => some { p with task := .resuming false }
    | .resuming _, .resumed => some { p with task := .done }
    | _, _ => none

/-- The values a transaction of the task writes. -/
structure TaskResult where
  exitCode : Int := 0
  outputBytes : Nat := 0
  outputLines : Nat := 0
  error : String := ""

/-- The transaction that a step of the task commits. -/
def AsyncCommandJob.transaction (r : AsyncCommandJob) (move : TaskMove) (result : TaskResult) :
    Option Transaction :=
  match r.progress.task, move with
  | .completing, .committed =>
      some (.completeAsyncJob r.runId result.exitCode result.outputBytes result.outputLines)
  | .failing, .committed => some (.failAsyncJob r.runId result.error 0 0)
  | .canceling, .committed => some (.cancelAsyncJob r.runId "任务已取消" 0 0)
  | _, _ => none

/-! ### Steps -/

/-- What can happen. -/
inductive JobAction where
  | create (request : AsyncJobRequest) (now : Time)
  | spawn (runId : String)
  | register (runId : String)
  | abandon (runId : String)
  | task (runId : String) (move : TaskMove) (result : TaskResult) (now : Time)
  | exit (runId : String)
  | forget (runId : String)
  | request (callId : Nat) (scope : CancelScope)
  | select (callId : Nat)
  | cancel (callId : Nat) (runId : String)
  | resume (callId : Nat)
  | gather (callId : Nat)
  | record (callId : Nat) (now : Time)

/-- One transaction, alone. -/
def CommandState.transact (s : CommandState) (transaction : Transaction) (now : Time) :
    Option CommandState :=
  (transactionMachine.step s.db ⟨transaction, now, now⟩).map (fun db => { s with db := db })

/-- One job gets on. -/
def CommandState.setProgress (s : CommandState) (runId : String) (p : JobProgress) :
    CommandState :=
  let jobs := s.jobs.updateWhere (fun r => decide (r.runId = runId))
    (fun r => { r with progress := p }) (fun _ => rfl)
  { s with jobs := jobs }

/-- One cancellation moves on. -/
def CommandState.setPhase (s : CommandState) (callId : Nat) (phase : CancelPhase) : CommandState :=
  let cancels := s.cancels.updateWhere (fun k => decide (k.callId = callId))
    (fun k => { k with phase := phase }) (fun _ => rfl)
  { s with cancels := cancels }

/-- `create_task`. -/
def JobProgress.spawn (p : JobProgress) : Option JobProgress :=
  if p.start = .creating then some { p with start := .registering, task := .unstarted } else none

/-- `_jobs[run_id] = …`. -/
def JobProgress.register (p : JobProgress) : Option JobProgress :=
  if p.start = .registering then some { p with start := .started, entry := .listed } else none

/-- The start is cancelled at one of its awaits. -/
def JobProgress.abandon (p : JobProgress) : Option JobProgress :=
  if p.start = .creating ∨ p.start = .registering then some { p with start := .abandoned } else none

/-- The process ends, by itself or killed. -/
def JobProgress.exit (p : JobProgress) : Option JobProgress :=
  if p.process = .running then some { p with process := .exited } else none

/-- `_finish_async_job`, the callback of the task. -/
def JobProgress.forget (p : JobProgress) : Option JobProgress :=
  if p.task = .done ∧ p.entry = .listed then some { p with entry := .absent } else none

/-- The end of a turn of the loop: `if not job.task.done(): job.task.cancel()`. -/
def JobProgress.cancelBy (callId : Nat) (p : JobProgress) : JobProgress :=
  { p with entry := .passed callId, cancelRequested := p.cancelRequested || p.task.isLive }

/-- The job does what it decides alone. -/
def CommandState.advance (s : CommandState) (runId : String)
    (f : JobProgress → Option JobProgress) : Option CommandState :=
  match s.jobs.get? runId with
  | none => none
  | some r => (f r.progress).map (s.setProgress runId)

/-- `selected`, popped from `_jobs`. -/
def CommandState.take (s : CommandState) (call : CancelCall) : CommandState :=
  let jobs := s.jobs.updateWhere
    (fun r => decide (r.progress.entry = .listed) && call.scope.selects r)
    (fun r => { r with progress := { r.progress with entry := .taken call.callId } }) (fun _ => rfl)
  { s with jobs := jobs }

/-- Every task of `selected` is done. -/
def CommandState.gathered (s : CommandState) (callId : Nat) : Bool :=
  s.jobs.rows.all (fun r =>
    decide (r.progress.entry ≠ .taken callId ∧
      (r.progress.entry = .passed callId → r.progress.task = .done)))

/-- The transaction at the end of a cancellation. -/
def CancelScope.transaction : CancelScope → Transaction
  | .run runId => .cancelAsyncJob runId "任务已取消" 0 0
  | .agent sessionId agentInstanceId =>
      .cancelRunningAsyncJobs { sessionId := some sessionId, agentInstanceId := some agentInstanceId }
        "任务已取消"
  | .session sessionId => .cancelRunningAsyncJobs { sessionId := some sessionId } "任务已取消"

/-- One step of the jobs and their cancellations. -/
def commandStep (s : CommandState) : JobAction → Option CommandState
  | .create request now =>
      match s.transact (.createAsyncJob request) now with
      | none => none
      | some s =>
          (s.jobs.insert { runId := request.runId, sessionId := request.sessionId,
                           agentInstanceId := request.agentInstanceId }).map
            (fun jobs => { s with jobs := jobs })
  | .spawn runId => s.advance runId JobProgress.spawn
  | .register runId => s.advance runId JobProgress.register
  | .abandon runId => s.advance runId JobProgress.abandon
  | .exit runId => s.advance runId JobProgress.exit
  | .forget runId => s.advance runId JobProgress.forget
  | .task runId move result now =>
      match s.jobs.get? runId with
      | none => none
      | some r =>
          match r.progress.move move with
          | none => none
          | some p =>
              match r.transaction move result with
              | none => some (s.setProgress runId p)
              | some transaction =>
                  (s.transact transaction now).map (fun s => s.setProgress runId p)
  | .request callId scope =>
      (s.cancels.insert { callId, scope }).map (fun cancels => { s with cancels := cancels })
  | .select callId =>
      match s.cancels.get? callId with
      | none => none
      | some call =>
          if call.phase = .requested then
            if s.jobs.rows.any (fun r => decide (r.progress.entry = .listed) && call.scope.selects r)
            then some ((s.take call).setPhase callId .canceling)
            else some (s.setPhase callId .recording)
          else none
  | .cancel callId runId =>
      match s.cancels.get? callId, s.jobs.get? runId with
      | some call, some r =>
          if call.phase = .canceling ∧ r.progress.entry = .taken callId then
            -- `cancel_running_process` kills the process and waits for it.
            if r.progress.task.holdsProcess then some (s.setPhase callId (.killing runId))
            else some (s.setProgress runId (r.progress.cancelBy callId))
          else none
      | _, _ => none
  | .resume callId =>
      match s.cancels.get? callId with
      | none => none
      | some call =>
          match call.phase with
          | .killing runId =>
              match s.jobs.get? runId with
              | none => none
              | some r =>
                  if r.progress.process ≠ .running ∧ r.progress.entry = .taken callId then
                    some ((s.setProgress runId (r.progress.cancelBy callId)).setPhase callId
                      .canceling)
                  else none
          | _ => none
  | .gather callId =>
      match s.cancels.get? callId with
      | none => none
      | some call =>
          if call.phase = .canceling ∧ s.gathered callId = true then
            some (s.setPhase callId (if call.scope.isRun then .returned else .recording))
          else none
  | .record callId now =>
      match s.cancels.get? callId with
      | none => none
      | some call =>
          if call.phase = .recording then
            (s.transact call.scope.transaction now).map (fun s => s.setPhase callId .returned)
          else none

/-- The jobs of a backend process.  It starts without jobs, on a database in
which the start-up left none RUNNING. -/
def commandMachine : Machine CommandState JobAction where
  Start s := s.jobs = .empty ∧ s.cancels = .empty ∧ Reachable transactionMachine s.db ∧
    ∀ row ∈ s.db.jobs.rows, row.status ≠ .running
  step := commandStep

end Workbench
