import CyberWorkbench.DrainLoop

/-!
# One session and its driver

`core/runtime/session`: messages arrive through `start_turn`, boot and resume
through `start_notification_recovery`, and `interrupt` cancels the driver.
Operations and driver tasks interleave at every await; `_start_lock`
serialises deciding who drives, `_turn_lock` serialises driving.

A task is its position in `drivers`, so `_current_task` is a position, and a
task stays in the list when it is done.  A turn is opaque here: it returns, is
preempted, or raises.  A cancellation is delivered at the task's next step.
-/

namespace Workbench

open KeyedTable PythonValues StepMachine

/-! ### State -/

/-- What the session reads of an `AgentRuntimeContext`. -/
structure SessionContext where
  sessionId : String
  userId : Nat
  agentInstanceId : String := ""
  sandboxContainerId : Option Nat := none
  sandboxContainerGeneration : Nat := 0
  sandboxSkillMetadata : List String := []
  scope : RuntimeScope := {}

/-- `context.agent_instance_id or main_agent_instance_id(…)`. -/
def SessionContext.instanceFor (context : SessionContext) (agentCode : String) : String :=
  if context.agentInstanceId = "" then
    mainAgentInstanceId context.sessionId context.userId agentCode
  else context.agentInstanceId

/-- The arguments of `start_turn`, with the identifiers drawn should the
message be queued. -/
structure TurnRequest where
  notificationId : String
  runId : String
  content : List Value
  displayText : String
  agentCode : String
  context : SessionContext

/-- How a turn came back from `run_turn`. -/
inductive TurnResult where
  | returned
  | preempted
  | raised (error : String)

/-- The same, as the drain loop sees it. -/
def TurnResult.ending : TurnResult → TurnEnd
  | .returned => .consumed
  | .preempted => .interrupted
  | .raised error => .failed error

/-- Where a driver task stands in `_relaunch_driver` / `_drive`. -/
inductive DriverPhase where
  /-- Created, asleep before a relaunch, or waiting for the turn lock. -/
  | queued
  | running (claimed : Option String)
  | settling (claimed : String) (result : TurnResult)
  | claiming
  /-- The cancellation handler of the executor. -/
  | releasing (claimed : String)
  /-- `_reconcile_driver` waiting for the start lock. -/
  | reconciling
  | checking
  | exhausting
  /-- Past `_reconcile_driver`. -/
  | finishing
  | done

/-- A driver task. -/
structure Driver where
  agentInstanceId : String
  hasContent : Bool
  attempt : Nat := 0
  phase : DriverPhase := .queued
  cancelRequested : Bool := false

/-- What a driver does first under the turn lock. -/
def Driver.firstPhase (driver : Driver) : DriverPhase :=
  if driver.hasContent then .running none else .claiming

/-- Where an operation stands. -/
inductive OpPhase where
  /-- `start_turn` waiting for the start lock. -/
  | startQueued (request : TurnRequest)
  /-- `_enqueue_user_message` before its insert. -/
  | enqueueing (request : TurnRequest)
  /-- `_enqueue_user_message` after its insert. -/
  | signaling
  /-- A driver task is about to be created. -/
  | launching (agentInstanceId : String) (hasContent : Bool)
  /-- `start_notification_recovery` waiting for the start lock. -/
  | recoveryQueued (agentCode : String) (context : SessionContext)
  | recoveryQuerying (agentCode : String) (context : SessionContext)
  /-- `interrupt` awaiting the task it cancelled. -/
  | interruptWaiting (driver : Nat)
  | interruptCanceling
  | interruptFinishing
  | finished

/-- Who holds the start lock. -/
inductive LockHolder where
  | op (position : Nat)
  | driver (position : Nat)

/-- The session: its inbox, its tasks, its locks and the operations on it. -/
structure SessionState where
  table : NotificationTable
  drivers : List Driver
  current : Option Nat
  startLock : Option LockHolder
  turnLock : Option Nat
  ops : List OpPhase

/-- `_MAX_DRIVER_RELAUNCH`. -/
def maxDriverRelaunch : Nat := 5

/-- Whether a task is done. -/
def DriverPhase.isDone : DriverPhase → Bool
  | .done => true
  | _ => false

/-- `is_running`. -/
def SessionState.isRunning (s : SessionState) : Bool :=
  match s.current with
  | none => false
  | some d =>
      match s.drivers[d]? with
      | none => false
      | some driver => !driver.phase.isDone

/-! ### Operations -/

/-- The notification `_enqueue_user_message` queues. -/
def TurnRequest.message (sessionId : String) (request : TurnRequest) : UserMessageRequest where
  id := request.notificationId
  runId := request.runId
  sessionId := sessionId
  targetAgentCode := request.agentCode
  targetAgentInstanceId := request.context.instanceFor request.agentCode
  userContent := request.content
  userDisplayText := request.displayText
  userRequestedAgentCode := request.agentCode
  sandboxContainerId := request.context.sandboxContainerId
  sandboxContainerGeneration := request.context.sandboxContainerGeneration
  sandboxSkillMetadata := request.context.sandboxSkillMetadata
  scope := request.context.scope

namespace SessionState

/-- Set an operation's phase. -/
def setOp (s : SessionState) (i : Nat) (phase : OpPhase) : SessionState :=
  { s with ops := s.ops.set i phase }

/-- Replace a driver task's record. -/
def setDriver (s : SessionState) (d : Nat) (driver : Driver) : SessionState :=
  { s with drivers := s.drivers.set d driver }

/-- `_current_task = None`, if it is this task. -/
def clearCurrent (s : SessionState) (d : Nat) : SessionState :=
  { s with current := if s.current = some d then none else s.current }

/-- Create a driver task and make it the current one. -/
def launch (s : SessionState) (driver : Driver) : SessionState :=
  { s with drivers := s.drivers ++ [driver], current := some s.drivers.length }

end SessionState

/-- `interrupt` cancels the current task, if there is a live one. -/
def beginInterrupt (s : SessionState) : SessionState :=
  match s.current with
  | none => s
  | some d =>
      match s.drivers[d]? with
      | none => s
      | some driver =>
          if driver.phase.isDone then s
          else { s.setDriver d { driver with cancelRequested := true } with
            ops := s.ops ++ [.interruptWaiting d] }

/-- The next step of operation `i`. -/
def advanceOp (sessionId : String) (s : SessionState) (i : Nat) (now : Time) :
    OpPhase → Option SessionState
  | .startQueued request =>
      match s.startLock with
      | some _ => none
      | none =>
          let s' := { s with startLock := some (.op i) }
          if s.isRunning then some (s'.setOp i (.enqueueing request))
          else some (s'.setOp i (.launching (request.context.instanceFor request.agentCode) true))
  | .enqueueing request =>
      match enqueueUserMessageNotification (request.message sessionId) now s.table with
      | none => none
      | some table => some ({ s with table := table }.setOp i .signaling)
  | .signaling => some ({ s with startLock := none }.setOp i .finished)
  | .launching agentInstanceId hasContent =>
      some (({ s with startLock := none }.launch
        { agentInstanceId := agentInstanceId, hasContent := hasContent }).setOp i .finished)
  | .recoveryQueued agentCode context =>
      match s.startLock with
      | some _ => none
      | none =>
          if s.isRunning then some (s.setOp i .finished)
          else some ({ s with startLock := some (.op i) }.setOp i
            (.recoveryQuerying agentCode context))
  | .recoveryQuerying agentCode context =>
      if hasPendingMainAgentNotification sessionId s.table then
        some (s.setOp i (.launching (context.instanceFor agentCode) false))
      else some ({ s with startLock := none }.setOp i .finished)
  | .interruptWaiting d =>
      match s.drivers[d]? with
      | none => none
      | some driver =>
          if driver.phase.isDone then some (s.setOp i .interruptCanceling) else none
  | .interruptCanceling =>
      some ({ s with
        table := cancelNotifications (cancelMainAgentInterruptedFilter sessionId)
          "Discarded by user interrupt." now s.table }.setOp i .interruptFinishing)
  | .interruptFinishing => some (s.setOp i .finished)
  | .finished => none

/-! ### Driver tasks -/

/-- The executor's write after the turn of a claimed notification. -/
def settleClaimed (claimed : String) (result : TurnResult) (now : Time)
    (table : NotificationTable) : NotificationTable :=
  settleNotification claimed result.ending now table

/-- The budget of relaunches is spent. -/
def exhaust (sessionId : String) (now : Time) (table : NotificationTable) : NotificationTable :=
  cancelNotifications (cancelSessionFilter sessionId none)
    "Agent driver could not make progress." now table

/-- The claim of the drain loop: the claimed row and the table after it. -/
def claimNext (sessionId agentInstanceId : String) (now : Time) (table : NotificationTable) :
    Option (String × NotificationTable) :=
  match claimNextPendingNotificationRead sessionId none (some agentInstanceId) table with
  | none => none
  | some n => some (n.id, (claimUpdate n.id now).run table)

/-- The next step of a task that was not cancelled. -/
def advanceDriver (sessionId : String) (s : SessionState) (d : Nat) (driver : Driver)
    (result : TurnResult) (now : Time) : Option SessionState :=
  let goTo (s : SessionState) (phase : DriverPhase) :=
    s.setDriver d { driver with phase := phase }
  match driver.phase with
  | .queued =>
      match s.turnLock with
      | some _ => none
      | none =>
          let s := { s with turnLock := some d, current := some d }
          some (goTo s driver.firstPhase)
  | .running none =>
      match result with
      | .returned | .preempted => some (goTo s .claiming)
      | .raised _ => some (goTo s .reconciling)
  | .running (some id) => some (goTo s (.settling id result))
  | .settling id settled =>
      some (goTo { s with table := settleClaimed id settled now s.table } .claiming)
  | .claiming =>
      match claimNext sessionId driver.agentInstanceId now s.table with
      | none => some (goTo s .reconciling)
      | some (id, table) => some (goTo { s with table := table } (.running (some id)))
  | .releasing id =>
      some (goTo ({ s with table := releaseNotification id now s.table, turnLock := none
        }.clearCurrent d) .done)
  | .reconciling =>
      match s.startLock with
      | some _ => none
      | none => some (goTo { s with startLock := some (.driver d) } .checking)
  | .checking =>
      if hasPendingNotification sessionId none (some driver.agentInstanceId) s.table then
        if maxDriverRelaunch ≤ driver.attempt then some (goTo s .exhausting)
        else some ((goTo { s with startLock := none } .finishing).launch
          { agentInstanceId := driver.agentInstanceId, hasContent := false,
            attempt := driver.attempt + 1 })
      else some (goTo ({ s with startLock := none }.clearCurrent d) .finishing)
  | .exhausting =>
      some (goTo ({ s with table := exhaust sessionId now s.table, startLock := none
        }.clearCurrent d) .finishing)
  | .finishing => some (goTo { s with turnLock := none } .done)
  | .done => none

/-- A cancellation reaches a task.  `committed` tells whether the database
call it was waiting for had taken effect. -/
def cancelDriver (sessionId : String) (s : SessionState) (d : Nat) (driver : Driver)
    (committed : Bool) (now : Time) : Option SessionState :=
  let goTo (s : SessionState) (phase : DriverPhase) :=
    s.setDriver d { driver with phase := phase, cancelRequested := false }
  let reached (table : NotificationTable) :=
    { s with table := if committed then table else s.table }
  let leave (s : SessionState) := { s with turnLock := none }
  match driver.phase with
  | .queued => some (goTo s .done)
  | .running none => some (goTo ((leave s).clearCurrent d) .done)
  | .running (some id) => some (goTo s (.releasing id))
  | .settling id .returned =>
      some (goTo (reached (settleClaimed id .returned now s.table)) (.releasing id))
  | .settling id settled =>
      some (goTo ((leave (reached (settleClaimed id settled now s.table))).clearCurrent d) .done)
  | .claiming =>
      let table := ((claimNext sessionId driver.agentInstanceId now s.table).map Prod.snd).getD
        s.table
      some (goTo ((leave (reached table)).clearCurrent d) .done)
  | .releasing id =>
      some (goTo ((leave (reached (releaseNotification id now s.table))).clearCurrent d) .done)
  -- the `finally` block is abandoned before it clears the current task
  | .reconciling => some (goTo (leave s) .done)
  | .checking => some (goTo { leave s with startLock := none } .done)
  | .exhausting =>
      some (goTo { leave (reached (exhaust sessionId now s.table)) with startLock := none } .done)
  | .finishing => some (goTo (leave s) .done)
  | .done => none

/-! ### The machine -/

inductive SessionAction where
  | startTurn (request : TurnRequest)
  | startNotificationRecovery (agentCode : String) (context : SessionContext)
  | interrupt
  /-- The next step of an operation. -/
  | advance (op : Nat) (now : Time)
  /-- The next step of a driver task. -/
  | drive (d : Nat) (result : TurnResult) (committed : Bool) (now : Time)

/-- One step of the session. -/
def sessionStep (sessionId : String) (s : SessionState) : SessionAction → Option SessionState
  | .startTurn request => some { s with ops := s.ops ++ [.startQueued request] }
  | .startNotificationRecovery agentCode context =>
      some { s with ops := s.ops ++ [.recoveryQueued agentCode context] }
  | .interrupt => some (beginInterrupt s)
  | .advance i now =>
      match s.ops[i]? with
      | none => none
      | some phase => advanceOp sessionId s i now phase
  | .drive d result committed now =>
      match s.drivers[d]? with
      | none => none
      | some driver =>
          if driver.cancelRequested then cancelDriver sessionId s d driver committed now
          else advanceDriver sessionId s d driver result now

/-- A fresh session over an inbox without queued main-agent work. -/
def sessionMachine (sessionId : String) : Machine SessionState SessionAction where
  Start s := hasPendingMainAgentNotification sessionId s.table = false ∧
    s.drivers = [] ∧ s.current = none ∧ s.startLock = none ∧ s.turnLock = none ∧ s.ops = []
  step := sessionStep sessionId

end Workbench
