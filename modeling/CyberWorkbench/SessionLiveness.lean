import CyberWorkbench.SessionRest

/-!
# The liveness flag of a session

`core/runtime/session` writes `AgentSessionMeta.is_running`: a start sets it
under the start lock before it creates the driver task, and an ending driver
resets it in the `finally` block, after it has given up `_current_task` and
outside that lock.  Here the awaits of a start and of a stop are steps of
their own; turns and the inbox are not looked at, so what a query finds in the
inbox is part of the step.

`session_liveness_flag`: the flag is right at rest as long as no stop writes
after another start has begun; `late_stop_hides_driver` replays such a write.
-/

namespace Workbench.Liveness

open StepMachine

/-! ### The record -/

/-- The columns of `AgentSessionMeta` a run writes. -/
structure RunMeta where
  isRunning : Bool
  runtimeAgentCode : String
  runtimeSandboxContainerId : Option Nat
  runtimeSandboxContainerGeneration : Nat
  runStartedAt : Option Time
  runFinishedAt : Option Time
  runError : String
  deriving DecidableEq, Repr

/-- What a start hands to `mark_session_running`. -/
structure RunTarget where
  agentCode : String
  sandboxContainerId : Option Nat := none
  sandboxContainerGeneration : Nat := 0
  deriving DecidableEq, Repr

/-- `mark_session_running`; without a record it does nothing. -/
def markSessionRunning (target : RunTarget) (now : Time) (record : Option RunMeta) :
    Option RunMeta :=
  record.map fun row =>
    { row with
      isRunning := true
      runtimeAgentCode := target.agentCode
      runtimeSandboxContainerId := target.sandboxContainerId
      runtimeSandboxContainerGeneration := target.sandboxContainerGeneration
      runStartedAt := some now
      runFinishedAt := none
      runError := "" }

/-- `finish_session_run` without an error. -/
def finishSessionRun (now : Time) (record : Option RunMeta) : Option RunMeta :=
  record.map fun row =>
    { row with isRunning := false, runFinishedAt := some now, runError := "" }

/-! ### State -/

/-- Where a driver task stands in `_drive`. -/
inductive TaskPhase where
  /-- Created, or waiting for the turn lock. -/
  | queued
  | driving
  /-- `_reconcile_driver` waiting for the start lock. -/
  | reconciling
  | checking
  | exhausting
  /-- Past `_current_task = None`: `has_outstanding_session_work`. -/
  | asking
  /-- `finish_session_run`. -/
  | writing
  /-- `_publish_idle_if_inactive`. -/
  | idling
  | done
  deriving DecidableEq, Repr

/-- A driver task. -/
structure Task where
  phase : TaskPhase := .queued
  attempt : Nat := 0
  cancelRequested : Bool := false
  deriving DecidableEq, Repr

/-- Where an operation stands. -/
inductive OpPhase where
  /-- `start_turn` waiting for the start lock. -/
  | startQueued (target : RunTarget)
  /-- `_enqueue_user_message`. -/
  | enqueueing
  /-- `start_notification_recovery` waiting for the start lock. -/
  | recoveryQueued (target : RunTarget)
  | recoveryQuerying (target : RunTarget)
  /-- `mark_session_running`. -/
  | marking (target : RunTarget)
  /-- `_ensure_timeline_loaded`, and then the task is created. -/
  | loading
  /-- `interrupt` awaiting the task it cancelled. -/
  | interruptWaiting (task : Nat)
  | interruptCanceling
  | asking
  | writing
  | idling
  | finished
  deriving DecidableEq, Repr

/-- A session: its record, its tasks, its locks and the operations on it. -/
structure LiveSession where
  runMeta : Option RunMeta := none
  tasks : List Task := []
  current : Option Nat := none
  startLock : Option LockHolder := none
  turnLock : Option Nat := none
  ops : List OpPhase := []

namespace LiveSession

/-- `is_running`. -/
def isRunning (s : LiveSession) : Bool :=
  match s.current with
  | none => false
  | some d =>
      match s.tasks[d]? with
      | none => false
      | some task => decide (task.phase ≠ .done)

/-- Set an operation's phase. -/
def setOp (s : LiveSession) (i : Nat) (phase : OpPhase) : LiveSession :=
  { s with ops := s.ops.set i phase }

/-- Set a task's phase. -/
def setTask (s : LiveSession) (d : Nat) (task : Task) (phase : TaskPhase) : LiveSession :=
  { s with tasks := s.tasks.set d { task with phase := phase } }

/-- `_current_task = None`, if it is this task. -/
def clearCurrent (s : LiveSession) (d : Nat) : LiveSession :=
  { s with current := if s.current = some d then none else s.current }

/-- Create a driver task and make it the current one. -/
def launch (s : LiveSession) (attempt : Nat) : LiveSession :=
  { s with tasks := s.tasks ++ [{ attempt := attempt }], current := some s.tasks.length }

end LiveSession

/-! ### Steps -/

/-- `interrupt` cancels the current task, if there is a live one. -/
def beginInterrupt (s : LiveSession) : LiveSession :=
  match s.current with
  | none => s
  | some d =>
      match s.tasks[d]? with
      | none => s
      | some task =>
          if task.phase = .done then s
          else { s with tasks := s.tasks.set d { task with cancelRequested := true },
                        ops := s.ops ++ [.interruptWaiting d] }

/-- The next step of operation `i`; `found` is what its query finds. -/
def advanceOp (s : LiveSession) (i : Nat) (found : Bool) (now : Time) :
    OpPhase → Option LiveSession
  | .startQueued target =>
      match s.startLock with
      | some _ => none
      | none =>
          let s' := { s with startLock := some (.op i) }
          if s.isRunning then some (s'.setOp i .enqueueing)
          else some (s'.setOp i (.marking target))
  | .enqueueing => some ({ s with startLock := none }.setOp i .finished)
  | .recoveryQueued target =>
      match s.startLock with
      | some _ => none
      | none =>
          if s.isRunning then some (s.setOp i .finished)
          else some ({ s with startLock := some (.op i) }.setOp i (.recoveryQuerying target))
  | .recoveryQuerying target =>
      if found then some (s.setOp i (.marking target))
      else some ({ s with startLock := none }.setOp i .finished)
  | .marking target =>
      some ({ s with runMeta := markSessionRunning target now s.runMeta }.setOp i .loading)
  | .loading => some (({ s with startLock := none }.launch 0).setOp i .finished)
  | .interruptWaiting d =>
      match s.tasks[d]? with
      | none => none
      | some task => if task.phase = .done then some (s.setOp i .interruptCanceling) else none
  | .interruptCanceling => some (s.setOp i .asking)
  | .asking => if found then some (s.setOp i .idling) else some (s.setOp i .writing)
  | .writing => some ({ s with runMeta := finishSessionRun now s.runMeta }.setOp i .idling)
  | .idling => some (s.setOp i .finished)
  | .finished => none

/-- The next step of a task that was not cancelled. -/
def advanceTask (s : LiveSession) (d : Nat) (task : Task) (found : Bool) (now : Time) :
    Option LiveSession :=
  match task.phase with
  | .queued =>
      match s.turnLock with
      | some _ => none
      | none => some ({ s with turnLock := some d, current := some d }.setTask d task .driving)
  | .driving => some (s.setTask d task .reconciling)
  | .reconciling =>
      match s.startLock with
      | some _ => none
      | none => some ({ s with startLock := some (.driver d) }.setTask d task .checking)
  | .checking =>
      if found then
        if maxDriverRelaunch ≤ task.attempt then some (s.setTask d task .exhausting)
        else some (({ s with startLock := none, turnLock := none }.setTask d task .done).launch
          (task.attempt + 1))
      else some (({ s with startLock := none }.clearCurrent d).setTask d task .asking)
  | .exhausting => some (({ s with startLock := none }.clearCurrent d).setTask d task .asking)
  | .asking =>
      if found then some (s.setTask d task .idling) else some (s.setTask d task .writing)
  | .writing =>
      some ({ s with runMeta := finishSessionRun now s.runMeta }.setTask d task .idling)
  | .idling => some ({ s with turnLock := none }.setTask d task .done)
  | .done => none

/-- A cancellation reaches a task.  `committed` tells whether the database
call it was waiting for had taken effect. -/
def cancelTask (s : LiveSession) (d : Nat) (task : Task) (committed : Bool) (now : Time) :
    Option LiveSession :=
  let leave (s : LiveSession) := { s with turnLock := none }.setTask d task .done
  match task.phase with
  | .queued => some (s.setTask d task .done)
  | .driving => some (leave (s.clearCurrent d))
  -- the `finally` block is abandoned before it clears the current task
  | .reconciling => some (leave s)
  | .checking | .exhausting => some (leave { s with startLock := none })
  | .asking | .idling => some (leave s)
  | .writing =>
      some (leave (if committed then { s with runMeta := finishSessionRun now s.runMeta } else s))
  | .done => none

inductive LivenessAction where
  | startTurn (target : RunTarget)
  | startNotificationRecovery (target : RunTarget)
  | interrupt
  /-- The next step of an operation. -/
  | advance (op : Nat) (found : Bool) (now : Time)
  /-- The next step of a driver task. -/
  | drive (d : Nat) (found committed : Bool) (now : Time)

/-- One step of the session. -/
def livenessStep (s : LiveSession) : LivenessAction → Option LiveSession
  | .startTurn target => some { s with ops := s.ops ++ [.startQueued target] }
  | .startNotificationRecovery target => some { s with ops := s.ops ++ [.recoveryQueued target] }
  | .interrupt => some (beginInterrupt s)
  | .advance i found now =>
      match s.ops[i]? with
      | none => none
      | some phase => advanceOp s i found now phase
  | .drive d found committed now =>
      match s.tasks[d]? with
      | none => none
      | some task =>
          if task.cancelRequested then cancelTask s d task committed now
          else advanceTask s d task found now

/-- A session nobody drives or operates on, whatever its record says. -/
def livenessMachine : Machine LiveSession LivenessAction where
  Start s := s.tasks = [] ∧ s.current = none ∧ s.startLock = none ∧ s.turnLock = none ∧ s.ops = []
  step := livenessStep

/-! ### Classification -/

/-- The driver has not given up `_current_task`. -/
def TaskPhase.isWorking : TaskPhase → Bool
  | .queued | .driving | .reconciling | .checking | .exhausting => true
  | .asking | .writing | .idling | .done => false

/-- The phases that hold the start lock. -/
def TaskPhase.holdsLock : TaskPhase → Bool
  | .checking | .exhausting => true
  | .queued | .driving | .reconciling | .asking | .writing | .idling | .done => false

/-- Past `_current_task = None`, still in `finally`. -/
def TaskPhase.isEnding : TaskPhase → Bool
  | .asking | .writing | .idling => true
  | .queued | .driving | .reconciling | .checking | .exhausting | .done => false

/-- The phases that hold the start lock. -/
def OpPhase.holdsLock : OpPhase → Bool
  | .enqueueing | .recoveryQuerying _ | .marking _ | .loading => true
  | .startQueued _ | .recoveryQueued _ | .interruptWaiting _ | .interruptCanceling | .asking
  | .writing | .idling | .finished => false

/-- The phases entered only when nobody drives. -/
def OpPhase.foundIdle : OpPhase → Bool
  | .recoveryQuerying _ | .marking _ | .loading => true
  | .startQueued _ | .enqueueing | .recoveryQueued _ | .interruptWaiting _ | .interruptCanceling
  | .asking | .writing | .idling | .finished => false

/-! ### The property and its condition -/

/-- No start and no stop is in progress. -/
structure AtRest (s : LiveSession) : Prop where
  ops : ∀ op ∈ s.ops, op = .finished
  tasks : ∀ task ∈ s.tasks, task.phase.isEnding = false

/-- At rest, a session with a live driver task is marked running. -/
def FlagRight (s : LiveSession) : Prop :=
  AtRest s → (∃ task ∈ s.tasks, task.phase ≠ .done) → ∀ row ∈ s.runMeta, row.isRunning = true

/-- The step is a stop's `finish_session_run` taking effect. -/
def LiveSession.writesStop (s : LiveSession) : LivenessAction → Bool
  | .advance i _ _ => decide (s.ops[i]? = some .writing)
  | .drive d _ committed _ =>
      match s.tasks[d]? with
      | none => false
      | some task => decide (task.phase = .writing) && (!task.cancelRequested || committed)
  | _ => false

/-- A stop writes only while the session is not running and no start is past
`mark_session_running`. -/
def StopInTime (s : LiveSession) (a : LivenessAction) (_ : LiveSession) : Prop :=
  s.writesStop a = true → s.isRunning = false ∧ .loading ∉ s.ops

instance (s : LiveSession) (a : LivenessAction) (t : LiveSession) :
    Decidable (StopInTime s a t) :=
  inferInstanceAs (Decidable (_ → _ ∧ _))

/-! ### The invariant -/

/-- Somebody drives, or is about to. -/
def Busy (s : LiveSession) : Prop :=
  (∃ task ∈ s.tasks, task.phase.isWorking = true) ∨ .loading ∈ s.ops

/-- Tasks, operations and locks. -/
structure TasksInv (s : LiveSession) : Prop where
  /-- The working driver is the current task. -/
  working : ∀ (d : Nat) (task : Task), s.tasks[d]? = some task →
    task.phase.isWorking = true → s.current = some d
  opLock : ∀ (i : Nat) (op : OpPhase), s.ops[i]? = some op → op.holdsLock = true →
    s.startLock = some (.op i)
  taskLock : ∀ (d : Nat) (task : Task), s.tasks[d]? = some task →
    task.phase.holdsLock = true → s.startLock = some (.driver d)
  /-- Who found the session idle still finds it so. -/
  idle : ∀ op ∈ s.ops, op.foundIdle = true → ∀ task ∈ s.tasks, task.phase.isWorking = false

/-- A busy session is marked running. -/
def FlagInv (s : LiveSession) : Prop := Busy s → ∀ row ∈ s.runMeta, row.isRunning = true

theorem FlagInv.flagRight {s : LiveSession} (h : FlagInv s) : FlagRight s := by
  intro hrest hlive
  obtain ⟨task, htask, hphase⟩ := hlive
  refine h (.inl ⟨task, htask, ?_⟩)
  have hending := hrest.tasks task htask
  cases hp : task.phase <;> simp_all [TaskPhase.isEnding, TaskPhase.isWorking]

/-- A session that is not running has no working driver. -/
theorem TasksInv.not_working {s : LiveSession} (ht : TasksInv s) (h : s.isRunning = false) :
    ∀ task ∈ s.tasks, task.phase.isWorking = false := by
  intro task htask
  obtain ⟨d, hd⟩ := List.mem_iff_getElem?.mp htask
  rw [Bool.eq_false_iff]
  intro hworking
  have hcurrent := ht.working d task hd hworking
  simp only [LiveSession.isRunning, hcurrent, hd, decide_eq_false_iff_not, Decidable.not_not] at h
  rw [h] at hworking
  cases hworking

/-! ### A task moves -/

/-- What a step of task `d` does to tasks, operations and locks. -/
structure TaskMove (s s' : LiveSession) (d : Nat) (task task' : Task) : Prop where
  tasks : s'.tasks = s.tasks.set d task'
  ops : s'.ops = s.ops
  current : s'.current = s.current ∨ s.current = some d ∧ s'.current = none
  working : task'.phase.isWorking = true →
    task.phase.isWorking = true ∧ s'.current = s.current
  lock : (s'.startLock = s.startLock ∧
      (task'.phase.holdsLock = true → task.phase.holdsLock = true)) ∨
    (s.startLock = none ∧ s'.startLock = some (.driver d)) ∨
    (task.phase.holdsLock = true ∧ s'.startLock = none ∧ task'.phase.holdsLock = false)

theorem TaskMove.tasksInv {s s' : LiveSession} {d : Nat} {task task' : Task}
    (hm : TaskMove s s' d task task') (hd : s.tasks[d]? = some task) (ht : TasksInv s) :
    TasksInv s' := by
  constructor
  · intro e other he hworking
    rw [hm.tasks] at he
    rcases getElem?_set_cases he with ⟨rfl, rfl⟩ | ⟨hne, he⟩
    · obtain ⟨hw, hcurrent⟩ := hm.working hworking
      rw [hcurrent]
      exact ht.working e task hd hw
    · have hcurrent := ht.working e other he hworking
      rcases hm.current with hsame | ⟨hwas, -⟩
      · rw [hsame]
        exact hcurrent
      · rw [hwas] at hcurrent
        exact absurd (Option.some.inj hcurrent).symm hne
  · intro i op hop hholds
    rw [hm.ops] at hop
    have hheld := ht.opLock i op hop hholds
    rcases hm.lock with ⟨hsame, -⟩ | ⟨hfree, -⟩ | ⟨htask, -, -⟩
    · rw [hsame]
      exact hheld
    · rw [hfree] at hheld
      cases hheld
    · rw [ht.taskLock d task hd htask] at hheld
      cases hheld
  · intro e other he hholds
    rw [hm.tasks] at he
    rcases getElem?_set_cases he with ⟨rfl, rfl⟩ | ⟨hne, he⟩
    · rcases hm.lock with ⟨hsame, hheld⟩ | ⟨-, hacquired⟩ | ⟨-, -, hreleased⟩
      · rw [hsame]
        exact ht.taskLock e task hd (hheld hholds)
      · exact hacquired
      · rw [hreleased] at hholds
        cases hholds
    · have hheld := ht.taskLock e other he hholds
      rcases hm.lock with ⟨hsame, -⟩ | ⟨hfree, -⟩ | ⟨htask, -, -⟩
      · rw [hsame]
        exact hheld
      · rw [hfree] at hheld
        cases hheld
      · rw [ht.taskLock d task hd htask] at hheld
        exact absurd (LockHolder.driver.inj (Option.some.inj hheld)).symm hne
  · intro op hop hidle other hother
    rw [hm.ops] at hop
    rw [hm.tasks] at hother
    rcases List.mem_or_eq_of_mem_set hother with hother | rfl
    · exact ht.idle op hop hidle other hother
    · rw [Bool.eq_false_iff]
      intro hworking
      have hbusy := ht.idle op hop hidle task (List.mem_of_getElem? hd)
      rw [(hm.working hworking).1] at hbusy
      cases hbusy

/-- A session is busy after a task's move only if it was before. -/
theorem TaskMove.busy {s s' : LiveSession} {d : Nat} {task task' : Task}
    (hm : TaskMove s s' d task task') (hd : s.tasks[d]? = some task) (h : Busy s') : Busy s := by
  rcases h with ⟨other, hother, hworking⟩ | hloading
  · rw [hm.tasks] at hother
    rcases List.mem_or_eq_of_mem_set hother with hother | rfl
    · exact .inl ⟨other, hother, hworking⟩
    · exact .inl ⟨task, List.mem_of_getElem? hd, (hm.working hworking).1⟩
  · exact .inr (hm.ops ▸ hloading)

/-! ### An operation moves -/

/-- What a step of operation `i` does to tasks, operations and locks. -/
structure OpMove (s s' : LiveSession) (i : Nat) (op op' : OpPhase) : Prop where
  ops : s'.ops = s.ops.set i op'
  tasks : s'.tasks = s.tasks
  current : s'.current = s.current
  lock : (s'.startLock = s.startLock ∧ (op'.holdsLock = true → op.holdsLock = true)) ∨
    (s.startLock = none ∧ s'.startLock = some (.op i)) ∨
    (op.holdsLock = true ∧ s'.startLock = none ∧ op'.holdsLock = false)
  idle : op'.foundIdle = true → ∀ task ∈ s.tasks, task.phase.isWorking = false

theorem OpMove.tasksInv {s s' : LiveSession} {i : Nat} {op op' : OpPhase}
    (hm : OpMove s s' i op op') (hop : s.ops[i]? = some op) (ht : TasksInv s) :
    TasksInv s' := by
  constructor
  · intro d task hd hworking
    rw [hm.tasks] at hd
    rw [hm.current]
    exact ht.working d task hd hworking
  · intro j other hj hholds
    rw [hm.ops] at hj
    rcases getElem?_set_cases hj with ⟨rfl, rfl⟩ | ⟨hne, hj⟩
    · rcases hm.lock with ⟨hsame, hheld⟩ | ⟨-, hacquired⟩ | ⟨-, -, hreleased⟩
      · rw [hsame]
        exact ht.opLock j op hop (hheld hholds)
      · exact hacquired
      · rw [hreleased] at hholds
        cases hholds
    · have hheld := ht.opLock j other hj hholds
      rcases hm.lock with ⟨hsame, -⟩ | ⟨hfree, -⟩ | ⟨hop', -, -⟩
      · rw [hsame]
        exact hheld
      · rw [hfree] at hheld
        cases hheld
      · rw [ht.opLock i op hop hop'] at hheld
        exact absurd (LockHolder.op.inj (Option.some.inj hheld)).symm hne
  · intro d task hd hholds
    rw [hm.tasks] at hd
    have hheld := ht.taskLock d task hd hholds
    rcases hm.lock with ⟨hsame, -⟩ | ⟨hfree, -⟩ | ⟨hop', -, -⟩
    · rw [hsame]
      exact hheld
    · rw [hfree] at hheld
      cases hheld
    · rw [ht.opLock i op hop hop'] at hheld
      cases hheld
  · intro other hother hidle task htask
    rw [hm.ops] at hother
    rw [hm.tasks] at htask
    rcases List.mem_or_eq_of_mem_set hother with hother | rfl
    · exact ht.idle other hother hidle task htask
    · exact hm.idle hidle task htask

/-- An operation that does not come to load leaves the session no busier. -/
theorem OpMove.busy {s s' : LiveSession} {i : Nat} {op op' : OpPhase}
    (hm : OpMove s s' i op op') (hloads : op' ≠ .loading) (h : Busy s') : Busy s := by
  rcases h with ⟨task, htask, hworking⟩ | hloading
  · exact .inl ⟨task, hm.tasks ▸ htask, hworking⟩
  · rw [hm.ops] at hloading
    rcases List.mem_or_eq_of_mem_set hloading with hloading | hsame
    · exact .inr hloading
    · exact absurd hsame.symm hloads

/-! ### A task or an operation is born -/

/-- The tasks after a launch. -/
theorem getElem?_launch {s : LiveSession} {attempt d : Nat} {task : Task}
    (h : (s.launch attempt).tasks[d]? = some task) :
    (d = s.tasks.length ∧ task = { attempt := attempt }) ∨ s.tasks[d]? = some task := by
  rcases Nat.lt_or_ge d s.tasks.length with hlt | hge
  · right
    rwa [LiveSession.launch, List.getElem?_append_left hlt] at h
  · left
    rw [LiveSession.launch, List.getElem?_append_right hge] at h
    obtain ⟨hindex, htask⟩ := List.getElem?_eq_some_iff.mp h
    simp only [List.length_singleton] at hindex
    refine ⟨by omega, ?_⟩
    rw [← htask]
    simp

/-- A new driver is launched only where nobody drives. -/
theorem TasksInv.launch {s : LiveSession} (ht : TasksInv s) (attempt : Nat)
    (hidle : ∀ task ∈ s.tasks, task.phase.isWorking = false)
    (hops : ∀ op ∈ s.ops, op.foundIdle = false) : TasksInv (s.launch attempt) := by
  constructor
  · intro d task hd hworking
    rcases getElem?_launch hd with ⟨rfl, -⟩ | hd
    · rfl
    · rw [hidle task (List.mem_of_getElem? hd)] at hworking
      cases hworking
  · exact ht.opLock
  · intro d task hd hholds
    rcases getElem?_launch hd with ⟨-, rfl⟩ | hd
    · cases hholds
    · exact ht.taskLock d task hd hholds
  · intro op hop hfound
    rw [hops op hop] at hfound
    cases hfound

/-- Without the start lock no operation is between its check and its task. -/
theorem TasksInv.not_foundIdle {s : LiveSession} (ht : TasksInv s)
    (hlock : ∀ i, s.startLock ≠ some (.op i)) : ∀ op ∈ s.ops, op.foundIdle = false := by
  intro op hop
  obtain ⟨i, hi⟩ := List.mem_iff_getElem?.mp hop
  rw [Bool.eq_false_iff]
  intro hfound
  have hholds : op.holdsLock = true := by cases op <;> simp_all [OpPhase.foundIdle, OpPhase.holdsLock]
  exact hlock i (ht.opLock i op hi hholds)

/-- A new operation that waits changes nothing. -/
theorem TasksInv.beginOp {s : LiveSession} (ht : TasksInv s) {op : OpPhase}
    (hlock : op.holdsLock = false) (hidle : op.foundIdle = false) :
    TasksInv { s with ops := s.ops ++ [op] } := by
  refine ⟨ht.working, ?_, ht.taskLock, ?_⟩
  · intro i other hi hholds
    rcases Nat.lt_or_ge i s.ops.length with hlt | hge
    · rw [List.getElem?_append_left hlt] at hi
      exact ht.opLock i other hi hholds
    · rw [List.getElem?_append_right hge] at hi
      obtain rfl : other = op := by simpa using List.mem_of_getElem? hi
      rw [hlock] at hholds
      cases hholds
  · intro other hother hfound
    rcases List.mem_append.mp hother with hother | hother
    · exact ht.idle other hother hfound
    · obtain rfl : other = op := by simpa using hother
      rw [hidle] at hfound
      cases hfound

theorem busy_beginOp {s : LiveSession} {op : OpPhase} (hop : op ≠ .loading)
    (h : Busy { s with ops := s.ops ++ [op] }) : Busy s := by
  rcases h with htask | hloading
  · exact .inl htask
  · rcases List.mem_append.mp hloading with hloading | hsame
    · exact .inr hloading
    · exact absurd (List.mem_singleton.mp hsame).symm hop

/-- An interrupt asks the current task to stop, and waits. -/
theorem beginInterrupt_inv {s : LiveSession} (ht : TasksInv s) :
    TasksInv (beginInterrupt s) ∧ (Busy (beginInterrupt s) → Busy s) ∧
      (beginInterrupt s).runMeta = s.runMeta := by
  unfold beginInterrupt
  split
  · exact ⟨ht, fun h => h, rfl⟩
  rename_i d hcurrent
  split
  · exact ⟨ht, fun h => h, rfl⟩
  rename_i task hd
  split
  · exact ⟨ht, fun h => h, rfl⟩
  let asked : LiveSession := { s with tasks := s.tasks.set d { task with cancelRequested := true } }
  have hm : TaskMove s asked d task { task with cancelRequested := true } :=
    ⟨rfl, rfl, .inl rfl, fun h => ⟨h, rfl⟩, .inl ⟨rfl, fun h => h⟩⟩
  refine ⟨(hm.tasksInv hd ht).beginOp rfl rfl, ?_, rfl⟩
  intro h
  exact hm.busy hd (busy_beginOp (by simp) h)

/-! ### Every step -/

/-- A task that keeps or gives up its lock and its place as the current task. -/
theorem taskMove_setTask {s s₁ : LiveSession} {d : Nat} {task : Task} {phase : TaskPhase}
    (htasks : s₁.tasks = s.tasks) (hops : s₁.ops = s.ops)
    (hcurrent : s₁.current = s.current ∨ s.current = some d ∧ s₁.current = none)
    (hworking : phase.isWorking = true → task.phase.isWorking = true ∧ s₁.current = s.current)
    (hlock : (s₁.startLock = s.startLock ∧
        (phase.holdsLock = true → task.phase.holdsLock = true)) ∨
      (s.startLock = none ∧ s₁.startLock = some (.driver d)) ∨
      (task.phase.holdsLock = true ∧ s₁.startLock = none ∧ phase.holdsLock = false)) :
    TaskMove s (s₁.setTask d task phase) d task { task with phase := phase } :=
  ⟨by rw [← htasks]; rfl, hops, hcurrent, hworking, hlock⟩

theorem clearCurrent_current (s : LiveSession) (d : Nat) :
    (s.clearCurrent d).current = s.current ∨
      s.current = some d ∧ (s.clearCurrent d).current = none := by
  by_cases h : s.current = some d
  · exact .inr ⟨h, by simp [LiveSession.clearCurrent, h]⟩
  · exact .inl (by simp [LiveSession.clearCurrent, h])

/-- A task's step is a move, which touches the record only where the task
writes its stop, or a relaunch. -/
theorem advanceTask_cases {s s' : LiveSession} {d : Nat} {task : Task} {found : Bool}
    {now : Time} (ht : TasksInv s) (hd : s.tasks[d]? = some task)
    (h : advanceTask s d task found now = some s') :
    (∃ task', TaskMove s s' d task task' ∧ (s'.runMeta = s.runMeta ∨ task.phase = .writing)) ∨
      ∃ ended, TaskMove s ended d task { task with phase := .done } ∧
        ended.runMeta = s.runMeta ∧ task.phase = .checking ∧
        s' = ended.launch (task.attempt + 1) := by
  have stay : ∀ {s₁ : LiveSession} {phase : TaskPhase}, s₁.tasks = s.tasks → s₁.ops = s.ops →
      s₁.current = s.current → s₁.startLock = s.startLock →
      (phase.isWorking = true → task.phase.isWorking = true) →
      (phase.holdsLock = true → task.phase.holdsLock = true) →
      TaskMove s (s₁.setTask d task phase) d task { task with phase := phase } :=
    fun htasks hops hcurrent hlock hworking hholds =>
      taskMove_setTask htasks hops (.inl hcurrent) (fun h => ⟨hworking h, hcurrent⟩)
        (.inl ⟨hlock, hholds⟩)
  unfold advanceTask at h
  split at h
  case h_1 hphase =>
    split at h
    · cases h
    · obtain rfl := Option.some.inj h
      have hcurrent := (ht.working d task hd (by rw [hphase]; rfl)).symm
      exact .inl ⟨_, stay rfl rfl hcurrent rfl (fun _ => by rw [hphase]; rfl)
        (by simp [TaskPhase.holdsLock]), .inl rfl⟩
  case h_2 hphase =>
    obtain rfl := Option.some.inj h
    exact .inl ⟨_, stay rfl rfl rfl rfl (fun _ => by rw [hphase]; rfl)
      (by simp [TaskPhase.holdsLock]), .inl rfl⟩
  case h_3 hphase =>
    split at h
    · cases h
    · rename_i hfree
      obtain rfl := Option.some.inj h
      refine .inl ⟨_, taskMove_setTask rfl rfl (.inl rfl) (fun _ => ⟨by rw [hphase]; rfl, rfl⟩)
        (.inr (.inl ⟨hfree, rfl⟩)), .inl rfl⟩
  case h_4 hphase =>
    have hholds : task.phase.holdsLock = true := by rw [hphase]; rfl
    split at h
    · split at h
      · obtain rfl := Option.some.inj h
        exact .inl ⟨_, stay rfl rfl rfl rfl (fun _ => by rw [hphase]; rfl) (fun _ => hholds),
          .inl rfl⟩
      · obtain rfl := Option.some.inj h
        let freed : LiveSession := { s with startLock := none, turnLock := none }
        have hended : TaskMove s (freed.setTask d task .done) d task { task with phase := .done } :=
          taskMove_setTask rfl rfl (.inl rfl) (fun h => by cases h) (.inr (.inr ⟨hholds, rfl, rfl⟩))
        exact .inr ⟨_, hended, rfl, hphase, rfl⟩
    · obtain rfl := Option.some.inj h
      exact .inl ⟨_, taskMove_setTask rfl rfl (clearCurrent_current s d)
        (by simp [TaskPhase.isWorking]) (.inr (.inr ⟨hholds, rfl, rfl⟩)), .inl rfl⟩
  case h_5 hphase =>
    obtain rfl := Option.some.inj h
    exact .inl ⟨_, taskMove_setTask rfl rfl (clearCurrent_current s d)
      (by simp [TaskPhase.isWorking]) (.inr (.inr ⟨by rw [hphase]; rfl, rfl, rfl⟩)), .inl rfl⟩
  case h_6 hphase =>
    split at h
    all_goals
      obtain rfl := Option.some.inj h
      exact .inl ⟨_, stay rfl rfl rfl rfl (by simp [TaskPhase.isWorking])
        (by simp [TaskPhase.holdsLock]), .inl rfl⟩
  case h_7 hphase =>
    obtain rfl := Option.some.inj h
    exact .inl ⟨_, stay rfl rfl rfl rfl (by simp [TaskPhase.isWorking])
      (by simp [TaskPhase.holdsLock]), .inr hphase⟩
  case h_8 hphase =>
    obtain rfl := Option.some.inj h
    exact .inl ⟨_, stay rfl rfl rfl rfl (by simp [TaskPhase.isWorking])
      (by simp [TaskPhase.holdsLock]), .inl rfl⟩
  case h_9 => cases h

/-- A cancelled task leaves; it touches the record only where its stop took
effect. -/
theorem cancelTask_cases {s s' : LiveSession} {d : Nat} {task : Task} {committed : Bool}
    {now : Time} (h : cancelTask s d task committed now = some s') :
    ∃ task', TaskMove s s' d task task' ∧
      (s'.runMeta = s.runMeta ∨ (task.phase = .writing ∧ committed = true)) := by
  have leave : ∀ {s₁ : LiveSession}, s₁.tasks = s.tasks → s₁.ops = s.ops →
      s₁.current = s.current ∨ s.current = some d ∧ s₁.current = none →
      s₁.startLock = s.startLock ∨ (task.phase.holdsLock = true ∧ s₁.startLock = none) →
      TaskMove s (s₁.setTask d task .done) d task { task with phase := .done } := by
    intro s₁ htasks hops hcurrent hlock
    refine taskMove_setTask htasks hops hcurrent (by simp [TaskPhase.isWorking]) ?_
    rcases hlock with hsame | ⟨hholds, hfree⟩
    · exact .inl ⟨hsame, by simp [TaskPhase.holdsLock]⟩
    · exact .inr (.inr ⟨hholds, hfree, rfl⟩)
  unfold cancelTask at h
  split at h
  case h_1 =>
    obtain rfl := Option.some.inj h
    exact ⟨_, leave rfl rfl (.inl rfl) (.inl rfl), .inl rfl⟩
  case h_2 =>
    obtain rfl := Option.some.inj h
    exact ⟨_, leave rfl rfl (clearCurrent_current s d) (.inl rfl), .inl rfl⟩
  case h_3 =>
    obtain rfl := Option.some.inj h
    exact ⟨_, leave rfl rfl (.inl rfl) (.inl rfl), .inl rfl⟩
  case h_4 hphase =>
    obtain rfl := Option.some.inj h
    exact ⟨_, leave rfl rfl (.inl rfl) (.inr ⟨by rw [hphase]; rfl, rfl⟩), .inl rfl⟩
  case h_5 hphase =>
    obtain rfl := Option.some.inj h
    exact ⟨_, leave rfl rfl (.inl rfl) (.inr ⟨by rw [hphase]; rfl, rfl⟩), .inl rfl⟩
  case h_6 | h_7 =>
    obtain rfl := Option.some.inj h
    exact ⟨_, leave rfl rfl (.inl rfl) (.inl rfl), .inl rfl⟩
  case h_8 hphase =>
    obtain rfl := Option.some.inj h
    cases committed with
    | false => exact ⟨_, leave rfl rfl (.inl rfl) (.inl rfl), .inl rfl⟩
    | true => exact ⟨_, leave rfl rfl (.inl rfl) (.inl rfl), .inr ⟨hphase, rfl⟩⟩
  case h_9 => cases h

/-- An operation's step is a move, which touches the record only where it marks
the session running or writes a stop, or the creation of a task. -/
theorem advanceOp_cases {s s' : LiveSession} {i : Nat} {op : OpPhase} {found : Bool}
    {now : Time} (ht : TasksInv s) (hop : s.ops[i]? = some op)
    (h : advanceOp s i found now op = some s') :
    (∃ op', OpMove s s' i op op' ∧ op' ≠ .loading ∧ (s'.runMeta = s.runMeta ∨ op = .writing)) ∨
      (∃ target, op = .marking target ∧ OpMove s s' i op .loading ∧
        s'.runMeta = markSessionRunning target now s.runMeta) ∨
      ∃ left, op = .loading ∧ OpMove s left i op .finished ∧ left.runMeta = s.runMeta ∧
        left.startLock = none ∧ s' = left.launch 0 := by
  have stay : ∀ {s₁ : LiveSession} {op' : OpPhase}, s₁.tasks = s.tasks → s₁.ops = s.ops →
      s₁.current = s.current → s₁.startLock = s.startLock →
      (op'.holdsLock = true → op.holdsLock = true) →
      (op'.foundIdle = true → op.foundIdle = true) → OpMove s (s₁.setOp i op') i op op' :=
    fun htasks hops hcurrent hlock hholds hfound =>
      ⟨by rw [← hops]; rfl, htasks, hcurrent, .inl ⟨hlock, hholds⟩,
        fun h => ht.idle op (List.mem_of_getElem? hop) (hfound h)⟩
  have release : ∀ {s₁ : LiveSession}, s₁.tasks = s.tasks → s₁.ops = s.ops →
      s₁.current = s.current → s₁.startLock = none → op.holdsLock = true →
      OpMove s (s₁.setOp i .finished) i op .finished :=
    fun htasks hops hcurrent hlock hholds =>
      ⟨by rw [← hops]; rfl, htasks, hcurrent, .inr (.inr ⟨hholds, hlock, rfl⟩),
        fun h => by simp [OpPhase.foundIdle] at h⟩
  have acquire : ∀ {op' : OpPhase}, s.startLock = none →
      (op'.foundIdle = true → s.isRunning = false) →
      OpMove s ({ s with startLock := some (.op i) }.setOp i op') i op op' :=
    fun hfree hidle => ⟨rfl, rfl, rfl, .inr (.inl ⟨hfree, rfl⟩), fun h => ht.not_working (hidle h)⟩
  cases op with
  | startQueued target =>
      simp only [advanceOp] at h
      split at h
      · cases h
      rename_i hfree
      split at h
      · obtain rfl := Option.some.inj h
        exact .inl ⟨_, acquire hfree (by simp [OpPhase.foundIdle]), by simp, .inl rfl⟩
      · rename_i hidle
        obtain rfl := Option.some.inj h
        exact .inl ⟨_, acquire hfree (fun _ => by simpa using hidle), by simp, .inl rfl⟩
  | enqueueing =>
      obtain rfl := Option.some.inj h
      exact .inl ⟨_, release rfl rfl rfl rfl rfl, by simp, .inl rfl⟩
  | recoveryQueued target =>
      simp only [advanceOp] at h
      split at h
      · cases h
      rename_i hfree
      split at h
      · obtain rfl := Option.some.inj h
        exact .inl ⟨_, stay rfl rfl rfl rfl (by simp [OpPhase.holdsLock])
          (by simp [OpPhase.foundIdle]), by simp, .inl rfl⟩
      · rename_i hidle
        obtain rfl := Option.some.inj h
        exact .inl ⟨_, acquire hfree (fun _ => by simpa using hidle), by simp, .inl rfl⟩
  | recoveryQuerying target =>
      simp only [advanceOp] at h
      split at h
      · obtain rfl := Option.some.inj h
        exact .inl ⟨_, stay rfl rfl rfl rfl (fun _ => rfl) (fun _ => rfl), by simp, .inl rfl⟩
      · obtain rfl := Option.some.inj h
        exact .inl ⟨_, release rfl rfl rfl rfl rfl, by simp, .inl rfl⟩
  | marking target =>
      obtain rfl := Option.some.inj h
      exact .inr (.inl ⟨target, rfl, stay rfl rfl rfl rfl (fun _ => rfl) (fun _ => rfl), rfl⟩)
  | loading =>
      obtain rfl := Option.some.inj h
      let freed : LiveSession := { s with startLock := none }
      have hleft : OpMove s (freed.setOp i .finished) i .loading .finished :=
        release rfl rfl rfl rfl rfl
      exact .inr (.inr ⟨_, rfl, hleft, rfl, rfl, rfl⟩)
  | interruptWaiting d =>
      simp only [advanceOp] at h
      split at h
      · cases h
      split at h
      · obtain rfl := Option.some.inj h
        exact .inl ⟨_, stay rfl rfl rfl rfl (by simp [OpPhase.holdsLock])
          (by simp [OpPhase.foundIdle]), by simp, .inl rfl⟩
      · cases h
  | interruptCanceling | idling =>
      obtain rfl := Option.some.inj h
      exact .inl ⟨_, stay rfl rfl rfl rfl (by simp [OpPhase.holdsLock])
        (by simp [OpPhase.foundIdle]), by simp, .inl rfl⟩
  | asking =>
      simp only [advanceOp] at h
      split at h
      all_goals
        obtain rfl := Option.some.inj h
        exact .inl ⟨_, stay rfl rfl rfl rfl (by simp [OpPhase.holdsLock])
          (by simp [OpPhase.foundIdle]), by simp, .inl rfl⟩
  | writing =>
      obtain rfl := Option.some.inj h
      exact .inl ⟨_, stay rfl rfl rfl rfl (by simp [OpPhase.holdsLock])
        (by simp [OpPhase.foundIdle]), by simp, .inr rfl⟩
  | finished => cases h

/-- Every step keeps tasks, operations and locks in order. -/
theorem tasksInv_step {s s' : LiveSession} {a : LivenessAction} (ht : TasksInv s)
    (h : livenessStep s a = some s') : TasksInv s' := by
  cases a with
  | startTurn target =>
      obtain rfl := Option.some.inj h
      exact ht.beginOp rfl rfl
  | startNotificationRecovery target =>
      obtain rfl := Option.some.inj h
      exact ht.beginOp rfl rfl
  | interrupt =>
      obtain rfl := Option.some.inj h
      exact (beginInterrupt_inv ht).1
  | advance i found now =>
      simp only [livenessStep] at h
      split at h
      · cases h
      rename_i op hop
      obtain ⟨op', hm, -⟩ | ⟨target, -, hm, -⟩ | ⟨left, hloading, hm, -, hfree, rfl⟩ :=
        advanceOp_cases ht hop h
      · exact hm.tasksInv hop ht
      · exact hm.tasksInv hop ht
      · have hleft := hm.tasksInv hop ht
        refine hleft.launch 0 ?_ (hleft.not_foundIdle (fun j hj => by rw [hfree] at hj; cases hj))
        rw [hm.tasks]
        exact ht.idle op (List.mem_of_getElem? hop) (by rw [hloading]; rfl)
  | drive d found committed now =>
      simp only [livenessStep] at h
      split at h
      · cases h
      rename_i task hd
      split at h
      · obtain ⟨task', hm, -⟩ := cancelTask_cases h
        exact hm.tasksInv hd ht
      · obtain ⟨task', hm, -⟩ | ⟨ended, hm, -, hchecking, rfl⟩ := advanceTask_cases ht hd h
        · exact hm.tasksInv hd ht
        · have hended := hm.tasksInv hd ht
          have hcurrent := ht.working d task hd (by rw [hchecking]; rfl)
          have hlock := ht.taskLock d task hd (by rw [hchecking]; rfl)
          refine hended.launch _ ?_ ?_
          · -- the current task was the only one at work
            intro other hother
            obtain ⟨e, he⟩ := List.mem_iff_getElem?.mp hother
            rw [hm.tasks] at he
            rcases getElem?_set_cases he with ⟨-, rfl⟩ | ⟨hne, he⟩
            · rfl
            · rw [Bool.eq_false_iff]
              intro hworking
              have hother := ht.working e other he hworking
              rw [hcurrent] at hother
              exact hne (Option.some.inj hother).symm
          · rw [hm.ops]
            exact ht.not_foundIdle (fun i hi => by rw [hlock] at hi; cases hi)

/-! ### The flag -/

/-- A step that leaves the record alone and the session no busier keeps the
flag right. -/
theorem FlagInv.of_quiet {s s' : LiveSession} (hf : FlagInv s) (hbusy : Busy s' → Busy s)
    (hrecord : s'.runMeta = s.runMeta) : FlagInv s' := by
  intro h
  rw [hrecord]
  exact hf (hbusy h)

/-- After a stop in time nobody is busy, whatever it wrote. -/
theorem FlagInv.of_stop {s s' : LiveSession} (ht : TasksInv s) (hbusy : Busy s' → Busy s)
    (hstop : s.isRunning = false ∧ .loading ∉ s.ops) : FlagInv s' := by
  intro h
  rcases hbusy h with ⟨task, htask, hworking⟩ | hloading
  · rw [ht.not_working hstop.1 task htask] at hworking
    cases hworking
  · exact absurd hloading hstop.2

/-- A launch by somebody busy leaves the record as it was. -/
theorem FlagInv.launch {s left : LiveSession} (hf : FlagInv s) (hbusy : Busy s)
    (hrecord : left.runMeta = s.runMeta) (attempt : Nat) : FlagInv (left.launch attempt) := by
  intro _
  show ∀ row ∈ left.runMeta, row.isRunning = true
  rw [hrecord]
  exact hf hbusy

/-- A step whose stop is in time keeps the flag right. -/
theorem flagInv_step {s s' : LiveSession} {a : LivenessAction} (ht : TasksInv s)
    (hf : FlagInv s) (hstop : StopInTime s a s') (h : livenessStep s a = some s') :
    FlagInv s' := by
  cases a with
  | startTurn target =>
      obtain rfl := Option.some.inj h
      exact hf.of_quiet (busy_beginOp (by simp)) rfl
  | startNotificationRecovery target =>
      obtain rfl := Option.some.inj h
      exact hf.of_quiet (busy_beginOp (by simp)) rfl
  | interrupt =>
      obtain rfl := Option.some.inj h
      obtain ⟨-, hbusy, hrecord⟩ := beginInterrupt_inv ht
      exact hf.of_quiet hbusy hrecord
  | advance i found now =>
      simp only [livenessStep] at h
      split at h
      · cases h
      rename_i op hop
      obtain ⟨op', hm, hloads, hrecord | rfl⟩ | ⟨target, -, hm, hrecord⟩ |
        ⟨left, rfl, -, hrecord, -, rfl⟩ := advanceOp_cases ht hop h
      · exact hf.of_quiet (hm.busy hloads) hrecord
      · exact FlagInv.of_stop ht (hm.busy hloads) (hstop (by simp [LiveSession.writesStop, hop]))
      · intro _ row hrow
        rw [hrecord] at hrow
        obtain ⟨old, -, rfl⟩ := Option.map_eq_some_iff.mp hrow
        rfl
      · exact hf.launch (.inr (List.mem_of_getElem? hop)) hrecord 0
  | drive d found committed now =>
      simp only [livenessStep] at h
      split at h
      · cases h
      rename_i task hd
      split at h
      · rename_i hcancel
        obtain ⟨task', hm, hrecord | ⟨hwriting, rfl⟩⟩ := cancelTask_cases h
        · exact hf.of_quiet (hm.busy hd) hrecord
        · exact FlagInv.of_stop ht (hm.busy hd)
            (hstop (by simp [LiveSession.writesStop, hd, hwriting]))
      · rename_i hcancel
        obtain ⟨task', hm, hrecord | hwriting⟩ | ⟨ended, hm, hrecord, hchecking, rfl⟩ :=
          advanceTask_cases ht hd h
        · exact hf.of_quiet (hm.busy hd) hrecord
        · exact FlagInv.of_stop ht (hm.busy hd)
            (hstop (by simp [LiveSession.writesStop, hd, hwriting, hcancel]))
        · exact hf.launch (.inl ⟨task, List.mem_of_getElem? hd, by rw [hchecking]; rfl⟩)
            hrecord _

theorem tasksInv_start {s : LiveSession} (h : livenessMachine.Start s) : TasksInv s := by
  obtain ⟨htasks, -, -, -, hops⟩ := h
  refine ⟨?_, ?_, ?_, ?_⟩
  all_goals simp [htasks, hops]

theorem flagInv_start {s : LiveSession} (h : livenessMachine.Start s) : FlagInv s := by
  obtain ⟨htasks, -, -, -, hops⟩ := h
  rintro (⟨task, htask, -⟩ | hloading)
  · simp [htasks] at htask
  · simp [hops] at hloading

/-- **The flag is right at rest.**  While every stop writes in time, a session
at rest with a live driver task is marked running. -/
theorem session_liveness_flag {s t : LiveSession} {acts : List LivenessAction}
    (hstart : livenessMachine.Start s) (hstops : StepsMeet livenessMachine StopInTime s acts)
    (hrun : exec livenessMachine s acts = some t) : FlagRight t := by
  have hinv : TasksInv t ∧ FlagInv t :=
    exec_invariant (I := fun s => TasksInv s ∧ FlagInv s)
      (fun s a t hi hstop hstep =>
        ⟨tasksInv_step hi.1 hstep, flagInv_step hi.1 hi.2 hstop hstep⟩)
      ⟨tasksInv_start hstart, flagInv_start hstart⟩ hstops hrun
  exact hinv.2.flagRight

/-! ### Two runs -/

/-- A session of user 1's that was created and never ran. -/
def idleSession : LiveSession :=
  { runMeta := some ⟨false, "", none, 0, none, none, ""⟩ }

/-- A turn starts, drives, and finds nothing queued at its end. -/
def turnEnds : List LivenessAction :=
  [.startTurn { agentCode := "planner" }, .advance 0 false 1, .advance 0 false 2,
    .advance 0 false 3, .drive 0 false false 4, .drive 0 false false 5,
    .drive 0 false false 6, .drive 0 false false 7]

/-- A second turn starts. -/
def nextTurn : List LivenessAction :=
  [.startTurn { agentCode := "planner" }, .advance 1 false 8, .advance 1 false 9,
    .advance 1 false 10]

/-- The first driver's stop. -/
def stopWrites : List LivenessAction :=
  [.drive 0 false false 11, .drive 0 false false 12, .drive 0 false false 13]

theorem session_liveness_flag_consecutive :
    ∃ t, exec livenessMachine idleSession (turnEnds ++ stopWrites ++ nextTurn) = some t ∧
      t.tasks.map Task.phase = [.done, .queued] ∧ FlagRight t := by
  have hstart : livenessMachine.Start idleSession := ⟨rfl, rfl, rfl, rfl, rfl⟩
  have hstops : StepsMeet livenessMachine StopInTime idleSession
      (turnEnds ++ stopWrites ++ nextTurn) := by decide
  exact ⟨_, rfl, rfl, session_liveness_flag hstart hstops rfl⟩

/-- **The stop comes late.**  A turn started between the end of the last one
and its stop goes on with `is_running` false. -/
theorem late_stop_hides_driver :
    ∃ t, exec livenessMachine idleSession (turnEnds ++ nextTurn ++ stopWrites) = some t ∧
      ¬ FlagRight t := by
  refine ⟨_, rfl, ?_⟩
  intro h
  exact absurd (h ⟨by decide, by decide⟩ (by decide) _ rfl) (by decide)

end Workbench.Liveness
