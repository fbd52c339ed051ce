import CyberWorkbench.StepMachine
import CyberWorkbench.ToolOutput

/-!
# Runs of tools

`service/toolpack`: `start_tool_run` creates a task and registers it; the task
executes a command and stores a result; `cancel_tool_run` kills the run's
process, waits for it, and then cancels the task.  Whatever the task stores
while the cancel waits stays, and a task that is cancelled before it has begun
stores nothing.

`tool_runs_terminal`: where neither happens, and no task ends before its run is
registered, every ended run has a terminal snapshot and a cancel that returns
leaves it canceled.

The registry's lock is never held where anything is awaited, so each of its
sections is one step with what follows.  Creation and registration are two
steps all the same, with others between them.  A cancelled task that waits
raises `CancelledError` there; closing a connection raises nothing.
-/

namespace Workbench.Toolpack

open PythonValues StepMachine

/-! ### Data -/

instance : DecidableEq RunId := fun a b =>
  decidable_of_iff (a.text = b.text) ⟨fun h => by cases a; cases b; cases h; rfl, congrArg _⟩

/-- `ToolRunStatus`. -/
inductive ToolRunStatus where
  | running
  | completed
  | failed
  | canceled
  deriving DecidableEq, Repr

/-- `ToolRunSnapshot`. -/
structure ToolRunSnapshot where
  runId : RunId
  toolId : String
  sandboxContainerId : Nat
  status : ToolRunStatus
  result : Option ExecutionResult := none
  startedAt : Nat
  finishedAt : Option Nat := none

/-- What the execution may raise, by the clause that catches it. -/
inductive RunException where
  | cancelled
  | commandTimeout
  | permission (message : String)
  | value (message : String)
  | notImplemented (message : String)
  | hostKeyNotVerifiable
  | sshPermissionDenied
  | osOrSsh (message : String)
  | other (message : String)
  deriving DecidableEq, Repr

/-- The except clauses of `_execute_tool_run`. -/
def RunException.caught : RunException → ExecutionErrorCode × String × ToolRunStatus
  | .cancelled => (.canceled, "tool run canceled", .canceled)
  | .commandTimeout => (.timeout, "tool run timed out", .failed)
  | .permission message => (.policyDenied, message, .failed)
  | .value message => (.policyDenied, message, .failed)
  | .notImplemented message => (.platformUnsupported, message, .failed)
  | .hostKeyNotVerifiable => (.hostKeyChanged, "SSH host key is not trusted", .failed)
  | .sshPermissionDenied => (.authFailed, "SSH authentication failed", .failed)
  | .osOrSsh message =>
      (.connectFailed, if message = "" then "connection failed" else message, .failed)
  | .other message =>
      (.processFailed, if message = "" then "tool run failed" else message, .failed)

/-- What the execution comes to. -/
inductive Outcome where
  | missing
  | output (text : String) (exitCode : Int)
  | raised (exception : RunException)
  deriving DecidableEq, Repr

/-- Where a task is suspended, or whether it has ended. -/
inductive TaskPhase where
  /-- Scheduled, and not begun. -/
  | created
  /-- Before the process is there. -/
  | preparing
  /-- At `wait_for(process.communicate())`. -/
  | communicating
  /-- After a timeout, at `_wait_process`. -/
  | timedOut
  /-- Where the connection is closed. -/
  | closing (outcome : Outcome)
  | ended
  deriving DecidableEq, Repr

/-- The process of a run. -/
inductive ProcessState where
  | absent
  | running
  | exited
  deriving DecidableEq, Repr

/-- A run with its task and process: `registered` says that `_runs` holds it,
`listed` that `_running_processes` holds its process, and `remote` that the
process has a connection. -/
structure ToolRun where
  snapshot : ToolRunSnapshot
  tool : ToolManifest
  registered : Bool := false
  phase : TaskPhase := .created
  cancelRequested : Bool := false
  process : ProcessState := .absent
  listed : Bool := false
  remote : Bool := false

/-- Where a call of `cancel_tool_run` is, or what it returned. -/
inductive CancelPhase where
  | unknownRun
  /-- At `_wait_process`. -/
  | killing
  /-- Where the connection is closed. -/
  | closing
  /-- At `gather(running.task)`. -/
  | joining
  | returned (status : ToolRunStatus)
  deriving DecidableEq, Repr

/-- A call of `cancel_tool_run`; `wasTerminal` says what the snapshot was when it
came. -/
structure CancelCall where
  runId : RunId
  phase : CancelPhase
  wasTerminal : Bool
  deriving DecidableEq

/-- Runs and calls by their ids, and the artifacts. -/
structure ToolpackState where
  runs : RunId → Option ToolRun
  calls : Nat → Option CancelCall
  files : ArtifactFiles

/-! ### The task -/

/-- What a task does when it runs. -/
inductive TaskMove where
  | waits
  | missing
  | spawns (remote : Bool)
  | outputs (text : String) (exitCode : Int)
  | timesOut
  | raises (exception : RunException)
  | proceeds
  deriving DecidableEq, Repr

/-- The `finally` of `execute_sandbox_container_command`. -/
def ToolRun.leaveCommand (run : ToolRun) (outcome : Outcome) : ToolRun × Option Outcome :=
  if run.remote then ({ run with listed := false, phase := .closing outcome }, none)
  else ({ run with listed := false, phase := .ended }, some outcome)

/-- What a task does when it runs on, with the outcome if it has come to one.  A
task that was cancelled raises where it waits, and nothing if it has not begun. -/
def ToolRun.taskMove (run : ToolRun) (move : TaskMove) : Option (ToolRun × Option Outcome) :=
  if run.cancelRequested then
    let raising := { run with cancelRequested := false }
    match run.phase with
    | .created => some ({ raising with phase := .ended }, none)
    | .preparing => some ({ raising with phase := .ended }, some (.raised .cancelled))
    | .communicating => some (raising.leaveCommand (.raised .cancelled))
    | .timedOut => some (raising.leaveCommand (.raised .cancelled))
    | .closing _ => some ({ raising with phase := .ended }, some (.raised .cancelled))
    | .ended => none
  else
    match run.phase, move with
    | .created, .waits => some ({ run with phase := .preparing }, none)
    | .preparing, .waits => some (run, none)
    | .created, .missing => some ({ run with phase := .ended }, some .missing)
    | .preparing, .missing => some ({ run with phase := .ended }, some .missing)
    | .created, .raises e => some ({ run with phase := .ended }, some (.raised e))
    | .preparing, .raises e => some ({ run with phase := .ended }, some (.raised e))
    | .preparing, .spawns remote =>
        some ({ run with
          phase := .communicating, process := .running, listed := true, remote := remote }, none)
    | .communicating, .outputs text exitCode =>
        if run.process = .exited then some (run.leaveCommand (.output text exitCode)) else none
    | .communicating, .raises e => some (run.leaveCommand (.raised e))
    | .communicating, .timesOut => some ({ run with phase := .timedOut }, none)
    | .timedOut, .proceeds =>
        if run.process = .exited then some (run.leaveCommand (.raised .commandTimeout)) else none
    | .timedOut, .raises e => some (run.leaveCommand (.raised e))
    | .closing outcome, .proceeds => some ({ run with phase := .ended }, some outcome)
    | _, _ => none

/-- The result of an exception. -/
def caughtResult (runId : RunId) (startedAt now : Nat) (e : RunException) :
    ExecutionResult × ToolRunStatus :=
  (errorResult runId startedAt now e.caught.1 e.caught.2.1, e.caught.2.2)

/-- The result of an outcome, with its status. -/
def outcomeResult (loads : String → Except JsonFailure Value) (files : ArtifactFiles)
    (run : ToolRun) (now : Nat) : Outcome → ArtifactFiles × ExecutionResult × ToolRunStatus
  | .missing =>
      (files, errorResult run.snapshot.runId run.snapshot.startedAt now .toolMissing
        (run.tool.executable ++ " is not installed"), .failed)
  | .output text exitCode =>
      let written := resultFromCommand loads files run.snapshot.runId run.tool ⟨text, exitCode⟩
        run.snapshot.startedAt now
      match written.2 with
      | .ok result => (written.1, result, if result.ok then .completed else .failed)
      | .error .valueError =>
          (written.1, caughtResult run.snapshot.runId run.snapshot.startedAt now (.value ""))
      | .error (.other message) =>
          (written.1, caughtResult run.snapshot.runId run.snapshot.startedAt now (.other message))
  | .raised e => (files, caughtResult run.snapshot.runId run.snapshot.startedAt now e)

/-- `_store_result`: a run that is not registered keeps its snapshot. -/
def ToolRun.storeResult (run : ToolRun) (result : ExecutionResult) (status : ToolRunStatus) :
    ToolRun :=
  if run.registered then
    { run with
      snapshot := { run.snapshot with
        status := status, result := some result, finishedAt := some result.finishedAt } }
  else run

/-! ### Cancelling -/

/-- `if not running.task.done(): running.task.cancel()`. -/
def ToolRun.requestCancel (run : ToolRun) : ToolRun :=
  if run.phase = .ended then run else { run with cancelRequested := true }

/-- `cancel_tool_run` up to where it first waits. -/
def ToolRun.cancelled (run : ToolRun) : ToolRun × CancelPhase :=
  if run.listed then
    if run.process = .running then (run, .killing)
    else if run.remote then (run, .closing)
    else (run.requestCancel, .joining)
  else (run.requestCancel, .joining)

/-! ### The machine -/

/-- What happens next. -/
inductive ToolpackAction where
  | startToolRun (runId : RunId) (tool : ToolManifest) (sandboxContainerId now : Nat)
  | register (runId : RunId)
  | task (runId : RunId) (move : TaskMove) (now : Nat)
  | processExits (runId : RunId)
  | cancelToolRun (call : Nat) (runId : RunId)
  | cancelGoesOn (call : Nat)

namespace ToolpackState

/-- A run changes. -/
def setRun (s : ToolpackState) (runId : RunId) (run : ToolRun) : ToolpackState :=
  { s with runs := Function.update s.runs runId (some run) }

/-- A call changes. -/
def setCall (s : ToolpackState) (id : Nat) (call : CancelCall) : ToolpackState :=
  { s with calls := Function.update s.calls id (some call) }

theorem runs_setRun (s : ToolpackState) (runId : RunId) (run : ToolRun) :
    (s.setRun runId run).runs runId = some run :=
  Function.update_self ..

theorem runs_setRun_ne (s : ToolpackState) {runId other : RunId} (h : other ≠ runId)
    (run : ToolRun) : (s.setRun runId run).runs other = s.runs other :=
  Function.update_of_ne h ..

theorem calls_setCall (s : ToolpackState) (id : Nat) (call : CancelCall) :
    (s.setCall id call).calls id = some call :=
  Function.update_self ..

theorem calls_setCall_ne (s : ToolpackState) {id other : Nat} (h : other ≠ id)
    (call : CancelCall) : (s.setCall id call).calls other = s.calls other :=
  Function.update_of_ne h ..

/-- `_runs.get(run_id)`. -/
def registeredRun (s : ToolpackState) (runId : RunId) : Option ToolRun :=
  match s.runs runId with
  | some run => if run.registered then some run else none
  | none => none

/-- One step. -/
def step (loads : String → Except JsonFailure Value) (s : ToolpackState) :
    ToolpackAction → Option ToolpackState
  | .startToolRun runId tool sandboxContainerId now =>
      match s.runs runId with
      | some _ => none
      | none => some (s.setRun runId
          { snapshot := {
              runId := runId
              toolId := tool.id
              sandboxContainerId := sandboxContainerId
              status := .running
              startedAt := now }
            tool := tool })
  | .register runId =>
      match s.runs runId with
      | some run =>
          if run.registered then none else some (s.setRun runId { run with registered := true })
      | none => none
  | .task runId move now =>
      match s.runs runId with
      | some run =>
          match run.taskMove move with
          | some (next, none) => some (s.setRun runId next)
          | some (next, some outcome) =>
              let stored := outcomeResult loads s.files run now outcome
              some { s.setRun runId (next.storeResult stored.2.1 stored.2.2) with
                files := stored.1 }
          | none => none
      | none => none
  | .processExits runId =>
      match s.runs runId with
      | some run =>
          if run.process = .running then some (s.setRun runId { run with process := .exited })
          else none
      | none => none
  | .cancelToolRun id runId =>
      match s.calls id with
      | some _ => none
      | none =>
          match s.registeredRun runId with
          | some run => some ((s.setRun runId run.cancelled.1).setCall id
              ⟨runId, run.cancelled.2, decide (run.snapshot.status ≠ .running)⟩)
          | none => some (s.setCall id ⟨runId, .unknownRun, false⟩)
  | .cancelGoesOn id =>
      match s.calls id with
      | some call =>
          match s.runs call.runId with
          | some run =>
              match call.phase with
              | .killing =>
                  if run.process = .exited then
                    if run.remote then some (s.setCall id { call with phase := .closing })
                    else some ((s.setRun call.runId run.requestCancel).setCall id
                      { call with phase := .joining })
                  else none
              | .closing => some ((s.setRun call.runId run.requestCancel).setCall id
                  { call with phase := .joining })
              | .joining =>
                  if run.phase = .ended then
                    some (s.setCall id { call with phase := .returned run.snapshot.status })
                  else none
              | _ => none
          | none => none
      | none => none

end ToolpackState

/-- No runs and no calls at first. -/
def toolpackMachine (loads : String → Except JsonFailure Value) :
    Machine ToolpackState ToolpackAction where
  Start s := (∀ runId, s.runs runId = none) ∧ ∀ id, s.calls id = none
  step := ToolpackState.step loads

/-! ### What a step needs -/

/-- **The condition on a step.**  A task that comes to an outcome is registered,
and has been cancelled if a cancel waits for its process; a task that is
cancelled has begun. -/
def Timely (s : ToolpackState) : ToolpackAction → ToolpackState → Prop
  | .task runId move _, _ => ∀ run next outcome, s.runs runId = some run →
      run.taskMove move = some (next, some outcome) →
        run.registered = true ∧ ∀ id call, s.calls id = some call → call.runId = runId →
          call.phase = .killing ∨ call.phase = .closing → outcome = .raised .cancelled
  | .cancelToolRun _ runId, _ => ∀ run, s.runs runId = some run → run.registered = true →
      run.phase ≠ .created
  | _, _ => True

/-- Every ended task of a started run has left a terminal snapshot. -/
def SnapshotsTerminal (s : ToolpackState) : Prop :=
  ∀ runId run, s.runs runId = some run → run.phase = .ended → run.registered = true →
    run.snapshot.status ≠ .running

/-- Every cancel that returned for a known run has left a terminal snapshot, and
a canceled one unless it was terminal before. -/
def CancelWins (s : ToolpackState) : Prop :=
  ∀ id call status, s.calls id = some call → call.phase = .returned status →
    ∃ run, s.runs call.runId = some run ∧ run.snapshot.status = status ∧ status ≠ .running ∧
      (call.wasTerminal = false → status = .canceled)

/-! ### Runs -/

/-- What holds of every run. -/
structure RunInv (run : ToolRun) : Prop where
  running : run.phase ≠ .ended → run.snapshot.status = .running
  ended : run.phase = .ended → run.registered = true ∧ run.snapshot.status ≠ .running
  requested : run.cancelRequested = true → run.phase ≠ .created ∧ run.phase ≠ .ended
  listed : run.listed = true → run.phase = .communicating ∨ run.phase = .timedOut

/-- The task will store that it was cancelled. -/
def ToolRun.Cancelling (run : ToolRun) : Prop :=
  run.cancelRequested = true ∨ run.phase = .closing (.raised .cancelled)

/-- What a move of a task leaves. -/
structure Moved (run next : ToolRun) (outcome : Option Outcome) : Prop where
  snapshot : next.snapshot = run.snapshot
  registered : next.registered = run.registered
  before : run.phase ≠ .ended
  requested : next.cancelRequested = false
  begun : next.phase ≠ .created
  listed : next.listed = true → next.phase = .communicating ∨ next.phase = .timedOut
  ended : next.phase = .ended ↔ outcome ≠ none
  cancelling : run.Cancelling →
    outcome = some (.raised .cancelled) ∨ next.phase = .closing (.raised .cancelled)

theorem leaveCommand_moved {run start next : ToolRun} {outcome : Outcome} {o : Option Outcome}
    (hsnapshot : start.snapshot = run.snapshot) (hregistered : start.registered = run.registered)
    (hbefore : run.phase ≠ .ended) (hrequested : start.cancelRequested = false)
    (hcancelling : run.Cancelling → outcome = .raised .cancelled)
    (h : start.leaveCommand outcome = (next, o)) : Moved run next o := by
  unfold ToolRun.leaveCommand at h
  split at h
  · obtain ⟨rfl, rfl⟩ := Prod.mk.inj h
    exact ⟨hsnapshot, hregistered, hbefore, hrequested, by simp, by simp, by simp,
      fun hc => .inr (by rw [hcancelling hc])⟩
  · obtain ⟨rfl, rfl⟩ := Prod.mk.inj h
    exact ⟨hsnapshot, hregistered, hbefore, hrequested, by simp, by simp, by simp,
      fun hc => .inl (by rw [hcancelling hc])⟩

/-- A cancellation is raised where the task waits. -/
theorem taskMove_cancelled {run next : ToolRun} {move : TaskMove} {outcome : Option Outcome}
    (hinv : RunInv run) (hcancel : run.cancelRequested = true)
    (h : run.taskMove move = some (next, outcome)) : Moved run next outcome := by
  obtain ⟨hbegun, hbefore⟩ := hinv.requested hcancel
  unfold ToolRun.taskMove at h
  rw [if_pos hcancel] at h
  cases hphase : run.phase with
  | created => exact absurd hphase hbegun
  | ended => exact absurd hphase hbefore
  | communicating =>
      simp only [hphase] at h
      exact leaveCommand_moved (by rfl) (by rfl) hbefore (by rfl) (fun _ => rfl)
        (Option.some.inj h)
  | timedOut =>
      simp only [hphase] at h
      exact leaveCommand_moved (by rfl) (by rfl) hbefore (by rfl) (fun _ => rfl)
        (Option.some.inj h)
  | preparing =>
      simp only [hphase] at h
      obtain ⟨rfl, rfl⟩ := Prod.mk.inj (Option.some.inj h)
      refine ⟨rfl, rfl, hbefore, rfl, by simp, fun hl => ?_, by simp, fun _ => .inl rfl⟩
      rcases hinv.listed hl with hother | hother <;> rw [hphase] at hother <;> cases hother
  | closing outcome' =>
      simp only [hphase] at h
      obtain ⟨rfl, rfl⟩ := Prod.mk.inj (Option.some.inj h)
      refine ⟨rfl, rfl, hbefore, rfl, by simp, fun hl => ?_, by simp, fun _ => .inl rfl⟩
      rcases hinv.listed hl with hother | hother <;> rw [hphase] at hother <;> cases hother

/-- A task that was not cancelled ends, without a process or after it. -/
theorem ends_moved {run : ToolRun} {outcome : Outcome} (hbefore : run.phase ≠ .ended)
    (hcancel : run.cancelRequested = false) (hlisted : run.listed = false)
    (hclosing : ∀ o, run.phase = .closing o → outcome = o) :
    Moved run { run with phase := .ended } (some outcome) := by
  refine ⟨rfl, rfl, hbefore, hcancel, by simp, by simp [hlisted], by simp, ?_⟩
  rintro (hrequest | hphase)
  · rw [hcancel] at hrequest
    cases hrequest
  · exact .inl (by rw [hclosing _ hphase])

/-- **What a task does when it runs on.** -/
theorem taskMove_moved {run next : ToolRun} {move : TaskMove} {outcome : Option Outcome}
    (hinv : RunInv run) (h : run.taskMove move = some (next, outcome)) :
    Moved run next outcome := by
  by_cases hcancel : run.cancelRequested = true
  · exact taskMove_cancelled hinv hcancel h
  have hfalse : run.cancelRequested = false := by simpa using hcancel
  have hunlisted : run.phase ≠ .communicating → run.phase ≠ .timedOut → run.listed = false := by
    intro hc ht
    cases hl : run.listed with
    | false => rfl
    | true => exact ((hinv.listed hl).elim hc ht).elim
  have hquiet : (∀ o, run.phase ≠ .closing o) → ¬ run.Cancelling := by
    rintro hne (hrequest | hclosing)
    · exact hcancel hrequest
    · exact hne _ hclosing
  unfold ToolRun.taskMove at h
  rw [if_neg hcancel] at h
  cases hphase : run.phase with
  | ended => simp [hphase] at h
  | created =>
      have hnot : ¬ run.Cancelling := hquiet (by simp [hphase])
      have hl : run.listed = false := hunlisted (by simp [hphase]) (by simp [hphase])
      cases move <;> simp only [hphase, reduceCtorEq] at h
      case waits =>
        obtain ⟨rfl, rfl⟩ := Prod.mk.inj (Option.some.inj h)
        exact ⟨rfl, rfl, by simp [hphase], hfalse, by simp, by simp [hl], by simp,
          fun hc => absurd hc hnot⟩
      all_goals
        obtain ⟨rfl, rfl⟩ := Prod.mk.inj (Option.some.inj h)
        exact ends_moved (by simp [hphase]) hfalse hl (by simp [hphase])
  | preparing =>
      have hnot : ¬ run.Cancelling := hquiet (by simp [hphase])
      have hl : run.listed = false := hunlisted (by simp [hphase]) (by simp [hphase])
      cases move <;> simp only [hphase, reduceCtorEq] at h
      case waits =>
        obtain ⟨rfl, rfl⟩ := Prod.mk.inj (Option.some.inj h)
        exact ⟨rfl, rfl, by simp [hphase], hfalse, by simp [hphase], by simp [hl], by simp [hphase],
          fun hc => absurd hc hnot⟩
      case spawns remote =>
        obtain ⟨rfl, rfl⟩ := Prod.mk.inj (Option.some.inj h)
        exact ⟨rfl, rfl, by simp [hphase], hfalse, by simp, by simp, by simp,
          fun hc => absurd hc hnot⟩
      all_goals
        obtain ⟨rfl, rfl⟩ := Prod.mk.inj (Option.some.inj h)
        exact ends_moved (by simp [hphase]) hfalse hl (by simp [hphase])
  | communicating =>
      have hnot : ¬ run.Cancelling := hquiet (by simp [hphase])
      cases move <;> simp only [hphase, reduceCtorEq] at h
      case outputs text exitCode =>
        split at h
        · exact leaveCommand_moved rfl rfl (by simp [hphase]) hfalse (fun hc => absurd hc hnot)
            (Option.some.inj h)
        · cases h
      case timesOut =>
        obtain ⟨rfl, rfl⟩ := Prod.mk.inj (Option.some.inj h)
        exact ⟨rfl, rfl, by simp [hphase], hfalse, by simp, by simp, by simp,
          fun hc => absurd hc hnot⟩
      case raises e =>
        exact leaveCommand_moved rfl rfl (by simp [hphase]) hfalse (fun hc => absurd hc hnot)
          (Option.some.inj h)
  | timedOut =>
      have hnot : ¬ run.Cancelling := hquiet (by simp [hphase])
      cases move <;> simp only [hphase, reduceCtorEq] at h
      case proceeds =>
        split at h
        · exact leaveCommand_moved rfl rfl (by simp [hphase]) hfalse (fun hc => absurd hc hnot)
            (Option.some.inj h)
        · cases h
      case raises e =>
        exact leaveCommand_moved rfl rfl (by simp [hphase]) hfalse (fun hc => absurd hc hnot)
          (Option.some.inj h)
  | closing outcome' =>
      have hl : run.listed = false := hunlisted (by simp [hphase]) (by simp [hphase])
      cases move <;> simp only [hphase, reduceCtorEq] at h
      case proceeds =>
        obtain ⟨rfl, rfl⟩ := Prod.mk.inj (Option.some.inj h)
        refine ends_moved (by simp [hphase]) hfalse hl (fun o ho => ?_)
        rw [hphase] at ho
        cases ho
        rfl

/-- The status that is stored for a cancelled task. -/
theorem outcomeResult_cancelled (loads : String → Except JsonFailure Value)
    (files : ArtifactFiles) (run : ToolRun) (now : Nat) :
    (outcomeResult loads files run now (.raised .cancelled)).2.2 = .canceled :=
  rfl

theorem caught_ne_running (e : RunException) : e.caught.2.2 ≠ .running := by
  cases e <;> simp [RunException.caught]

/-- Whatever is stored is terminal. -/
theorem outcomeResult_ne_running (loads : String → Except JsonFailure Value)
    (files : ArtifactFiles) (run : ToolRun) (now : Nat) (outcome : Outcome) :
    (outcomeResult loads files run now outcome).2.2 ≠ .running := by
  cases outcome with
  | missing => simp [outcomeResult]
  | raised e => exact caught_ne_running e
  | output text exitCode =>
      unfold outcomeResult
      simp only
      split
      · split <;> simp
      · exact caught_ne_running _
      · exact caught_ne_running _

theorem storeResult_registered {run : ToolRun} (h : run.registered = true)
    (result : ExecutionResult) (status : ToolRunStatus) :
    (run.storeResult result status).snapshot.status = status ∧
      (run.storeResult result status).phase = run.phase ∧
      (run.storeResult result status).registered = true ∧
      (run.storeResult result status).cancelRequested = run.cancelRequested ∧
      (run.storeResult result status).listed = run.listed := by
  unfold ToolRun.storeResult
  rw [if_pos h]
  exact ⟨rfl, rfl, h, rfl, rfl⟩

theorem RunInv.moved {run next : ToolRun} (hinv : RunInv run) (h : Moved run next none) :
    RunInv next where
  running _ := by rw [h.snapshot]; exact hinv.running h.before
  ended hended := absurd rfl (h.ended.mp hended)
  requested hrequest := by rw [h.requested] at hrequest; cases hrequest
  listed := h.listed

theorem RunInv.stored {run next : ToolRun} {outcome : Outcome} {result : ExecutionResult}
    {status : ToolRunStatus} (h : Moved run next (some outcome))
    (hregistered : run.registered = true) (hstatus : status ≠ .running) :
    RunInv (next.storeResult result status) := by
  have hended : next.phase = .ended := h.ended.mpr (by simp)
  obtain ⟨hsnapshot, hphase, hreg, hrequested, hlisted⟩ :=
    storeResult_registered (h.registered.trans hregistered) result status
  refine ⟨fun hne => absurd (hphase.trans hended) hne, fun _ => ⟨hreg, by rw [hsnapshot]; exact hstatus⟩,
    fun hrequest => ?_, fun hl => ?_⟩
  · rw [hrequested, h.requested] at hrequest
    cases hrequest
  · rw [hphase]
    exact h.listed (hlisted ▸ hl)

theorem RunInv.requestCancel {run : ToolRun} (hinv : RunInv run) (h : run.phase ≠ .created) :
    RunInv run.requestCancel := by
  unfold ToolRun.requestCancel
  split
  · exact hinv
  · rename_i hne
    exact ⟨hinv.running, hinv.ended, fun _ => ⟨h, hne⟩, hinv.listed⟩

/-! ### Calls -/

/-- What a call knows of its run. -/
def CallInv (call : CancelCall) (run : ToolRun) : Prop :=
  match call.phase with
  | .unknownRun => True
  | .killing => call.wasTerminal = false ∧ run.phase ≠ .created ∧
      (run.phase = .ended → run.snapshot.status = .canceled)
  | .closing => call.wasTerminal = false ∧ run.phase ≠ .created ∧
      (run.phase = .ended → run.snapshot.status = .canceled)
  | .joining => (call.wasTerminal = true → run.phase = .ended) ∧
      (call.wasTerminal = false → (run.phase ≠ .ended ∧ run.Cancelling) ∨
        (run.phase = .ended ∧ run.snapshot.status = .canceled))
  | .returned status => run.phase = .ended ∧ run.snapshot.status = status ∧ status ≠ .running ∧
      (call.wasTerminal = false → status = .canceled)

/-- A call keeps what it knows while the task is where it was. -/
theorem CallInv.same {call : CancelCall} {run next : ToolRun} (h : CallInv call run)
    (hphase : next.phase = run.phase) (hsnapshot : next.snapshot = run.snapshot)
    (hcancelling : run.Cancelling → next.Cancelling) : CallInv call next := by
  unfold CallInv at h ⊢
  cases hcall : call.phase with
  | unknownRun => trivial
  | killing => simpa only [hcall, hphase, hsnapshot] using h
  | closing => simpa only [hcall, hphase, hsnapshot] using h
  | returned status => simpa only [hcall, hphase, hsnapshot] using h
  | joining =>
      simp only [hcall, hphase, hsnapshot] at h ⊢
      exact ⟨h.1, fun hfirst => (h.2 hfirst).imp (fun hc => ⟨hc.1, hcancelling hc.2⟩) id⟩

/-- The task runs on without coming to an outcome. -/
theorem CallInv.moved {call : CancelCall} {run next : ToolRun} (h : CallInv call run)
    (hmoved : Moved run next none) : CallInv call next := by
  have hnot : next.phase ≠ .ended := fun hended => hmoved.ended.mp hended rfl
  unfold CallInv at h ⊢
  cases hcall : call.phase with
  | unknownRun => trivial
  | killing =>
      simp only [hcall] at h ⊢
      exact ⟨h.1, hmoved.begun, fun hended => absurd hended hnot⟩
  | closing =>
      simp only [hcall] at h ⊢
      exact ⟨h.1, hmoved.begun, fun hended => absurd hended hnot⟩
  | returned status =>
      simp only [hcall] at h
      exact absurd h.1 hmoved.before
  | joining =>
      simp only [hcall] at h ⊢
      refine ⟨fun hterminal => absurd (h.1 hterminal) hmoved.before, fun hfirst => .inl ⟨hnot, ?_⟩⟩
      rcases h.2 hfirst with ⟨-, hcancelling⟩ | ⟨hended, -⟩
      · rcases hmoved.cancelling hcancelling with hnone | hclosing
        · cases hnone
        · exact .inr hclosing
      · exact absurd hended hmoved.before

/-- The task stores an outcome, and a call that waits finds it canceled. -/
theorem CallInv.stored {call : CancelCall} {run next : ToolRun} {outcome : Outcome}
    {result : ExecutionResult} {status : ToolRunStatus} (h : CallInv call run)
    (hmoved : Moved run next (some outcome)) (hregistered : run.registered = true)
    (hstatus : outcome = .raised .cancelled → status = .canceled)
    (hwaits : call.phase = .killing ∨ call.phase = .closing → outcome = .raised .cancelled) :
    CallInv call (next.storeResult result status) := by
  have hended : next.phase = .ended := hmoved.ended.mpr (by simp)
  obtain ⟨hsnapshot, hphase, -, -, -⟩ :=
    storeResult_registered (hmoved.registered.trans hregistered) result status
  unfold CallInv at h ⊢
  cases hcall : call.phase with
  | unknownRun => trivial
  | killing =>
      simp only [hcall, hphase, hsnapshot, hended] at h ⊢
      exact ⟨h.1, by simp, fun _ => hstatus (hwaits (.inl hcall))⟩
  | closing =>
      simp only [hcall, hphase, hsnapshot, hended] at h ⊢
      exact ⟨h.1, by simp, fun _ => hstatus (hwaits (.inr hcall))⟩
  | returned status =>
      simp only [hcall] at h
      exact absurd h.1 hmoved.before
  | joining =>
      simp only [hcall, hphase, hsnapshot, hended] at h ⊢
      refine ⟨fun _ => trivial, fun hfirst => .inr ⟨trivial, ?_⟩⟩
      rcases h.2 hfirst with ⟨-, hcancelling⟩ | ⟨hbefore, -⟩
      · rcases hmoved.cancelling hcancelling with hsome | hclosing
        · exact hstatus (Option.some.inj hsome)
        · rw [hended] at hclosing
          cases hclosing
      · exact absurd hbefore hmoved.before

/-! ### The invariant -/

/-- Every run and every call knows what it should. -/
structure ToolpackInv (s : ToolpackState) : Prop where
  runs : ∀ runId run, s.runs runId = some run → RunInv run
  calls : ∀ id call, s.calls id = some call → call.phase ≠ .unknownRun →
    ∃ run, s.runs call.runId = some run ∧ run.registered = true ∧ CallInv call run

theorem ToolpackInv.setRun {s : ToolpackState} {runId : RunId} {run next : ToolRun}
    (hinv : ToolpackInv s) (hrun : s.runs runId = some run) (hnext : RunInv next)
    (hregistered : run.registered = true → next.registered = true)
    (hcalls : ∀ id call, s.calls id = some call → call.runId = runId → run.registered = true →
      CallInv call run → CallInv call next) : ToolpackInv (s.setRun runId next) := by
  constructor
  · intro other r hr
    by_cases hother : other = runId
    · rw [hother] at hr
      obtain rfl : next = r := Option.some.inj ((s.runs_setRun runId next).symm.trans hr)
      exact hnext
    · exact hinv.runs other r ((s.runs_setRun_ne hother next).symm.trans hr)
  · intro id call hcall hknown
    obtain ⟨r, hr, hreg, hcallInv⟩ := hinv.calls id call hcall hknown
    by_cases hother : call.runId = runId
    · rw [hother, hrun] at hr
      obtain rfl := Option.some.inj hr
      refine ⟨next, ?_, hregistered hreg, hcalls id call hcall hother hreg hcallInv⟩
      rw [hother]
      exact s.runs_setRun runId next
    · exact ⟨r, (s.runs_setRun_ne hother next).trans hr, hreg, hcallInv⟩

theorem ToolpackInv.setCall {s : ToolpackState} {id : Nat} {call : CancelCall}
    (hinv : ToolpackInv s) (hcall : call.phase ≠ .unknownRun →
      ∃ run, s.runs call.runId = some run ∧ run.registered = true ∧ CallInv call run) :
    ToolpackInv (s.setCall id call) := by
  refine ⟨hinv.runs, fun other c hc hknown => ?_⟩
  by_cases hother : other = id
  · rw [hother] at hc
    obtain rfl : call = c := Option.some.inj ((s.calls_setCall id call).symm.trans hc)
    exact hcall hknown
  · exact hinv.calls other c ((s.calls_setCall_ne hother call).symm.trans hc) hknown

theorem ToolpackInv.setFiles {s : ToolpackState} (hinv : ToolpackInv s) (files : ArtifactFiles) :
    ToolpackInv { s with files := files } :=
  ⟨hinv.runs, hinv.calls⟩

theorem requestCancel_same (run : ToolRun) : run.requestCancel.phase = run.phase ∧
    run.requestCancel.snapshot = run.snapshot ∧
    run.requestCancel.registered = run.registered ∧
    (run.Cancelling → run.requestCancel.Cancelling) ∧
    (run.phase ≠ .ended → run.requestCancel.Cancelling) := by
  unfold ToolRun.requestCancel
  split
  · rename_i hended
    exact ⟨rfl, rfl, rfl, id, fun hne => absurd hended hne⟩
  · exact ⟨rfl, rfl, rfl, fun _ => .inl rfl, fun _ => .inl rfl⟩

/-- A cancel reaches the task and waits for it. -/
theorem ToolpackInv.joins {s : ToolpackState} {id : Nat} {runId : RunId} {run : ToolRun}
    {wasTerminal : Bool} (hinv : ToolpackInv s) (hrun : s.runs runId = some run)
    (hreg : run.registered = true) (hbegun : run.phase ≠ .created)
    (hterminal : wasTerminal = true → run.phase = .ended)
    (hcanceled : wasTerminal = false → run.phase = .ended → run.snapshot.status = .canceled) :
    ToolpackInv ((s.setRun runId run.requestCancel).setCall id ⟨runId, .joining, wasTerminal⟩) := by
  obtain ⟨hsame, hsnapshot, hregistered, hkeep, hcancelling⟩ := requestCancel_same run
  have hset : ToolpackInv (s.setRun runId run.requestCancel) :=
    hinv.setRun hrun ((hinv.runs _ _ hrun).requestCancel hbegun)
      (fun h => hregistered.trans h) (fun _ _ _ _ _ h => h.same hsame hsnapshot hkeep)
  refine hset.setCall (fun _ =>
    ⟨run.requestCancel, s.runs_setRun runId _, hregistered.trans hreg, ?_⟩)
  unfold CallInv
  simp only [hsame, hsnapshot]
  refine ⟨hterminal, fun hfirst => ?_⟩
  by_cases hended : run.phase = .ended
  · exact .inr ⟨hended, hcanceled hfirst hended⟩
  · exact .inl ⟨hended, hcancelling hended⟩

/-! ### Steps -/

variable {loads : String → Except JsonFailure Value}

theorem start_keeps {s t : ToolpackState} {runId : RunId} {tool : ToolManifest}
    {sandboxContainerId now : Nat} (hinv : ToolpackInv s)
    (h : s.step loads (.startToolRun runId tool sandboxContainerId now) = some t) :
    ToolpackInv t := by
  unfold ToolpackState.step at h
  cases hrun : s.runs runId with
  | some run => simp [hrun] at h
  | none =>
      simp only [hrun, Option.some.injEq] at h
      subst h
      constructor
      · intro other r hr
        by_cases hother : other = runId
        · rw [hother] at hr
          obtain rfl := Option.some.inj ((s.runs_setRun runId _).symm.trans hr)
          exact ⟨fun _ => rfl, by simp, by simp, by simp⟩
        · exact hinv.runs other r ((s.runs_setRun_ne hother _).symm.trans hr)
      · intro id call hcall hknown
        obtain ⟨r, hr, hreg, hcallInv⟩ := hinv.calls id call hcall hknown
        refine ⟨r, (s.runs_setRun_ne ?_ _).trans hr, hreg, hcallInv⟩
        intro hother
        rw [hother, hrun] at hr
        cases hr

theorem register_keeps {s t : ToolpackState} {runId : RunId} (hinv : ToolpackInv s)
    (h : s.step loads (.register runId) = some t) : ToolpackInv t := by
  unfold ToolpackState.step at h
  cases hrun : s.runs runId with
  | none => simp [hrun] at h
  | some run =>
      simp only [hrun] at h
      split at h
      · cases h
      · rename_i hnew
        obtain rfl := Option.some.inj h
        have hold := hinv.runs runId run hrun
        refine hinv.setRun hrun
          ⟨hold.running, fun hended => absurd (hold.ended hended).1 hnew, hold.requested, hold.listed⟩
          (fun _ => rfl) (fun _ _ _ _ hreg _ => absurd hreg hnew)

theorem task_keeps {s t : ToolpackState} {runId : RunId} {move : TaskMove} {now : Nat}
    (hinv : ToolpackInv s) (htimely : Timely s (.task runId move now) t)
    (h : s.step loads (.task runId move now) = some t) : ToolpackInv t := by
  unfold ToolpackState.step at h
  cases hrun : s.runs runId with
  | none => simp [hrun] at h
  | some run =>
      have hold := hinv.runs runId run hrun
      simp only [hrun] at h
      split at h
      · rename_i next hmove
        obtain rfl := Option.some.inj h
        have hmoved := taskMove_moved hold hmove
        exact hinv.setRun hrun (hold.moved hmoved) (fun hreg => hmoved.registered.trans hreg)
          (fun _ _ _ _ _ hcall => hcall.moved hmoved)
      · rename_i next outcome hmove
        obtain rfl := Option.some.inj h
        have hmoved := taskMove_moved hold hmove
        obtain ⟨hregistered, hwaits⟩ := htimely run next outcome hrun hmove
        refine ToolpackInv.setFiles (hinv.setRun hrun
          (.stored hmoved hregistered (outcomeResult_ne_running loads _ _ _ _)) ?_ ?_) _
        · intro hreg
          exact (storeResult_registered (hmoved.registered.trans hreg) _ _).2.2.1
        · intro id call hcall hid hreg hcallInv
          refine hcallInv.stored hmoved hreg ?_ (hwaits id call hcall hid)
          rintro rfl
          exact outcomeResult_cancelled loads _ _ _
      · cases h

theorem processExits_keeps {s t : ToolpackState} {runId : RunId} (hinv : ToolpackInv s)
    (h : s.step loads (.processExits runId) = some t) : ToolpackInv t := by
  unfold ToolpackState.step at h
  cases hrun : s.runs runId with
  | none => simp [hrun] at h
  | some run =>
      simp only [hrun] at h
      split at h
      · obtain rfl := Option.some.inj h
        have hold := hinv.runs runId run hrun
        exact hinv.setRun hrun ⟨hold.running, hold.ended, hold.requested, hold.listed⟩ id
          (fun _ _ _ _ _ hcall => hcall.same rfl rfl id)
      · cases h

theorem cancel_keeps {s t : ToolpackState} {id : Nat} {runId : RunId} (hinv : ToolpackInv s)
    (htimely : Timely s (.cancelToolRun id runId) t)
    (h : s.step loads (.cancelToolRun id runId) = some t) : ToolpackInv t := by
  unfold ToolpackState.step at h
  cases hcall : s.calls id with
  | some call => simp [hcall] at h
  | none =>
      simp only [hcall] at h
      unfold ToolpackState.registeredRun at h
      cases hrun : s.runs runId with
      | none =>
          simp only [hrun, Option.some.injEq] at h
          subst h
          exact hinv.setCall (fun hne => absurd rfl hne)
      | some run =>
          simp only [hrun] at h
          by_cases hreg : run.registered = true
          · rw [if_pos hreg] at h
            obtain rfl := Option.some.inj h
            have hold := hinv.runs runId run hrun
            have hbegun : run.phase ≠ .created := htimely run hrun hreg
            -- a listed process means that the task has not ended
            have hwaits : run.listed = true → run.phase ≠ .ended ∧
                decide (run.snapshot.status ≠ .running) = false := by
              intro hlisted
              have hne : run.phase ≠ .ended := by
                rcases hold.listed hlisted with hphase | hphase <;> rw [hphase] <;> simp
              exact ⟨hne, by simp [hold.running hne]⟩
            have hdirect : ToolpackInv ((s.setRun runId run.requestCancel).setCall id
                ⟨runId, .joining, decide (run.snapshot.status ≠ .running)⟩) := by
              refine hinv.joins hrun hreg hbegun (fun hterminal => ?_) (fun hfirst hended => ?_)
              · by_contra hne
                exact of_decide_eq_true hterminal (hold.running hne)
              · exact absurd (hold.ended hended).2 (of_decide_eq_false hfirst)
            have hstay : ∀ phase, phase = .killing ∨ phase = .closing → run.listed = true →
                ToolpackInv ((s.setRun runId run).setCall id
                  ⟨runId, phase, decide (run.snapshot.status ≠ .running)⟩) := by
              intro phase hphase hlisted
              obtain ⟨hne, hfirst⟩ := hwaits hlisted
              have hset := hinv.setRun hrun hold (fun _ => hreg) (fun _ _ _ _ _ hc => hc)
              refine hset.setCall (fun _ => ⟨run, s.runs_setRun runId run, hreg, ?_⟩)
              rcases hphase with rfl | rfl
              · exact ⟨hfirst, hbegun, fun hended => absurd hended hne⟩
              · exact ⟨hfirst, hbegun, fun hended => absurd hended hne⟩
            unfold ToolRun.cancelled
            split
            · rename_i hlisted
              split
              · exact hstay .killing (.inl rfl) hlisted
              · split
                · exact hstay .closing (.inr rfl) hlisted
                · exact hdirect
            · exact hdirect
          · rw [if_neg hreg] at h
            obtain rfl := Option.some.inj h
            exact hinv.setCall (fun hne => absurd rfl hne)

theorem cancelGoesOn_keeps {s t : ToolpackState} {id : Nat} (hinv : ToolpackInv s)
    (h : s.step loads (.cancelGoesOn id) = some t) : ToolpackInv t := by
  unfold ToolpackState.step at h
  cases hcall : s.calls id with
  | none => simp [hcall] at h
  | some call =>
      simp only [hcall] at h
      cases hrun : s.runs call.runId with
      | none => simp [hrun] at h
      | some run =>
          simp only [hrun] at h
          have hknows : call.phase ≠ .unknownRun → run.registered = true ∧ CallInv call run := by
            intro hknown
            obtain ⟨r, hr, hreg, hcallInv⟩ := hinv.calls id call hcall hknown
            rw [hrun] at hr
            obtain rfl := Option.some.inj hr
            exact ⟨hreg, hcallInv⟩
          have hjoin : call.wasTerminal = false → run.registered = true → run.phase ≠ .created →
              (run.phase = .ended → run.snapshot.status = .canceled) →
              ToolpackInv ((s.setRun call.runId run.requestCancel).setCall id
                { call with phase := .joining }) := by
            intro hfirst hreg hbegun hcanceled
            refine hinv.joins hrun hreg hbegun (fun hterminal => ?_) (fun _ => hcanceled)
            rw [hterminal] at hfirst
            cases hfirst
          split at h
          · rename_i hphase
            obtain ⟨hreg, hcallInv⟩ := hknows (by rw [hphase]; simp)
            unfold CallInv at hcallInv
            simp only [hphase] at hcallInv
            obtain ⟨hfirst, hbegun, hcanceled⟩ := hcallInv
            split at h
            · split at h
              · obtain rfl := Option.some.inj h
                exact hinv.setCall (fun _ => ⟨run, hrun, hreg, hfirst, hbegun, hcanceled⟩)
              · obtain rfl := Option.some.inj h
                exact hjoin hfirst hreg hbegun hcanceled
            · cases h
          · rename_i hphase
            obtain ⟨hreg, hcallInv⟩ := hknows (by rw [hphase]; simp)
            unfold CallInv at hcallInv
            simp only [hphase] at hcallInv
            obtain ⟨hfirst, hbegun, hcanceled⟩ := hcallInv
            obtain rfl := Option.some.inj h
            exact hjoin hfirst hreg hbegun hcanceled
          · rename_i hphase
            obtain ⟨hreg, hcallInv⟩ := hknows (by rw [hphase]; simp)
            unfold CallInv at hcallInv
            simp only [hphase] at hcallInv
            split at h
            · rename_i hended
              obtain rfl := Option.some.inj h
              refine hinv.setCall (fun _ => ⟨run, hrun, hreg, hended, rfl,
                ((hinv.runs _ _ hrun).ended hended).2, fun hfirst => ?_⟩)
              rcases hcallInv.2 hfirst with ⟨hne, -⟩ | ⟨-, hcanceled⟩
              · exact absurd hended hne
              · exact hcanceled
            · cases h
          · cases h

/-- **One step keeps the invariant.** -/
theorem step_keeps {s t : ToolpackState} {action : ToolpackAction} (hinv : ToolpackInv s)
    (htimely : Timely s action t) (h : s.step loads action = some t) : ToolpackInv t := by
  cases action with
  | startToolRun runId tool sandboxContainerId now => exact start_keeps hinv h
  | register runId => exact register_keeps hinv h
  | task runId move now => exact task_keeps hinv htimely h
  | processExits runId => exact processExits_keeps hinv h
  | cancelToolRun id runId => exact cancel_keeps hinv htimely h
  | cancelGoesOn id => exact cancelGoesOn_keeps hinv h

/-- **Runs end in a terminal snapshot, and cancels win**, in every state of a run
whose steps are timely. -/
theorem tool_runs_terminal (loads : String → Except JsonFailure Value) {s t : ToolpackState}
    {actions : List ToolpackAction} (hstart : (toolpackMachine loads).Start s)
    (htimely : StepsMeet (toolpackMachine loads) Timely s actions)
    (hrun : exec (toolpackMachine loads) s actions = some t) :
    SnapshotsTerminal t ∧ CancelWins t := by
  have hinv : ToolpackInv t := by
    refine exec_invariant (m := toolpackMachine loads) (fun s a t hs hc hstep =>
      step_keeps hs hc hstep) ?_ htimely hrun
    refine ⟨fun runId run hr => ?_, fun id call hcall => ?_⟩
    · rw [hstart.1 runId] at hr
      cases hr
    · rw [hstart.2 id] at hcall
      cases hcall
  constructor
  · intro runId run hr hended _
    exact ((hinv.runs runId run hr).ended hended).2
  · intro id call status hcall hphase
    obtain ⟨run, hr, -, hcallInv⟩ := hinv.calls id call hcall (by rw [hphase]; simp)
    unfold CallInv at hcallInv
    simp only [hphase] at hcallInv
    exact ⟨run, hr, hcallInv.2.1, hcallInv.2.2.1, hcallInv.2.2.2⟩

/-! ### Cancels that lose -/

/-- Nothing was started yet. -/
def noRuns : ToolpackState := ⟨fun _ => none, fun _ => none, fun _ => none⟩

/-- A parser that knows no JSON. -/
def refuseJson : String → Except JsonFailure Value := fun _ => .error .valueError

/-- A run whose process is there. -/
def communicatingRun : List ToolpackAction :=
  [.startToolRun someRun ⟨"local.httpx", "httpx"⟩ 1 0, .register someRun, .task someRun .waits 0,
    .task someRun (.spawns false) 0]

/-- The killed process ends the command before the task is cancelled. -/
def overtakenCancel : List ToolpackAction :=
  communicatingRun ++ [.cancelToolRun 0 someRun, .processExits someRun,
    .task someRun (.outputs "" (-9)) 1, .cancelGoesOn 0, .cancelGoesOn 0]

/-- The task is cancelled before it has begun. -/
def earlyCancel : List ToolpackAction :=
  [.startToolRun someRun ⟨"local.httpx", "httpx"⟩ 1 0, .register someRun,
    .cancelToolRun 0 someRun, .task someRun .waits 0]

/-- A cancel that the task overtakes leaves a failed run, and one that comes
before the task has begun a running one. -/
theorem cancel_loses :
    (∃ t, exec (toolpackMachine refuseJson) noRuns overtakenCancel = some t ∧ ¬ CancelWins t) ∧
      ∃ t, exec (toolpackMachine refuseJson) noRuns earlyCancel = some t ∧
        ¬ SnapshotsTerminal t := by
  constructor
  · refine ⟨_, rfl, fun hwins => ?_⟩
    obtain ⟨run, -, -, -, hcanceled⟩ := hwins 0 ⟨someRun, .returned .failed, false⟩ .failed rfl rfl
    exact absurd (hcanceled rfl) (by decide)
  · refine ⟨_, rfl, fun hterminal => ?_⟩
    exact hterminal someRun _ rfl rfl rfl rfl

/-- A task that is cancelled while it communicates. -/
def timelyCancel : List ToolpackAction :=
  communicatingRun ++ [.cancelToolRun 0 someRun, .processExits someRun, .cancelGoesOn 0,
    .task someRun .waits 1, .cancelGoesOn 0]

/-- The cancel wins. -/
theorem tool_runs_terminal_once :
    StepsMeet (toolpackMachine refuseJson) Timely noRuns timelyCancel ∧
      ∃ t, exec (toolpackMachine refuseJson) noRuns timelyCancel = some t ∧
        SnapshotsTerminal t ∧ CancelWins t := by
  have htimely : StepsMeet (toolpackMachine refuseJson) Timely noRuns timelyCancel := by
    -- no move comes to an outcome but the last, which is a cancellation
    refine stepsMeet_cons rfl trivial (stepsMeet_cons rfl trivial (stepsMeet_cons rfl ?_
      (stepsMeet_cons rfl ?_ (stepsMeet_cons rfl ?_ (stepsMeet_cons rfl trivial
        (stepsMeet_cons rfl trivial (stepsMeet_cons rfl ?_ (stepsMeet_cons rfl trivial
          trivial))))))))
    · rintro run next outcome hrun hmove
      obtain rfl := Option.some.inj hrun
      cases hmove
    · rintro run next outcome hrun hmove
      obtain rfl := Option.some.inj hrun
      cases hmove
    · rintro run hrun -
      obtain rfl := Option.some.inj hrun
      exact fun hcreated => by cases hcreated
    · rintro run next outcome hrun hmove
      obtain rfl := Option.some.inj hrun
      cases hmove
      exact ⟨rfl, fun _ _ _ _ _ => rfl⟩
  refine ⟨htimely, _, rfl, ?_⟩
  exact tool_runs_terminal refuseJson ⟨fun _ => rfl, fun _ => rfl⟩ htimely rfl

end Workbench.Toolpack
