import CyberWorkbench.AgentRecords
import CyberWorkbench.StepMachine

/-!
# The driver of a subagent run

`core/delegation/subagents`: a run has a driver whose drive tasks drain the
run's inbox and then settle, one at a time; a drive that finds work
outstanding leaves the driver dormant, and `resume_subagent_instance` launches
the next.  Here one driver stands alone: what its queries find, and when it is
resumed or cancelled, is left open.

`cancel_ends_canceled`: a cancellation ends the run as canceled, given that it
meets the drive inside its `try`, that no drive commits an outcome meanwhile,
and that the driver is not just being registered.
-/

namespace Workbench.Subagents

open StepMachine

/-! ### State -/

/-- `_fail_subagent` or `_cancel_subagent`. -/
inductive Teardown where
  | fail
  | cancel
  deriving DecidableEq, Repr

/-- The status it records. -/
def Teardown.outcome : Teardown → WorkStatus
  | .fail => .failed
  | .cancel => .canceled

/-- Where a task of the driver stands: `_drive_subagent`, or the
`_fail_subagent` that an exhausted relaunch budget spawns. -/
inductive DrivePhase where
  /-- Not yet run. -/
  | created
  /-- `_fail_subagent` as a task of its own, not yet run. -/
  | createdFail
  /-- `run_until_idle`. -/
  | running
  /-- `_settle_subagent` waiting for the start lock. -/
  | settleQueued
  /-- `has_pending_notification`. -/
  | settlePending
  /-- `has_outstanding_target_notifications`. -/
  | settleOutstanding
  /-- `_complete_subagent` up to its commit. -/
  | completing
  /-- `_fail_subagent` or `_cancel_subagent` up to its commit. -/
  | tearingDown (teardown : Teardown)
  /-- From the commit to `resume_target_instance`. -/
  | kicking (inTry : Bool)
  /-- `_cleanup_subagent`. -/
  | cleaning (inTry : Bool)
  /-- Cancelled where nothing handles it. -/
  | aborted
  | done
  deriving DecidableEq, Repr

/-- The `try` of `_drive_subagent` stands around this phase. -/
def DrivePhase.inTry : DrivePhase → Bool
  | .running | .settleQueued | .settlePending | .settleOutstanding | .completing => true
  | .kicking inTry | .cleaning inTry => inTry
  | .created | .createdFail | .tearingDown _ | .aborted | .done => false

/-- Where a call of `cancel_subagent_task_run` stands. -/
inductive CancelPhase where
  /-- `_stop_driver_task` waiting for the start lock. -/
  | queued
  /-- Awaiting the task it cancelled. -/
  | waiting (drive : Nat)
  /-- `_cancel_subagent` of a dormant driver. -/
  | tearingDown
  | kicking
  | cleaning
  /-- `cancel_subagent_task_record`, as no driver is registered. -/
  | recording
  | returned
  deriving DecidableEq, Repr

/-- A call of `cancel_subagent_task_run`, and whether the run had ended. -/
structure CancelOp where
  wasTerminal : Bool
  phase : CancelPhase
  deriving DecidableEq, Repr

/-- A run's record and its `_SubagentDriver`.  `lock` is the drive that holds
`start_lock` across its queries, `kicks` the calls of
`resume_subagent_instance` that wait for it. -/
structure Driver where
  status : WorkStatus := .running
  registered : Bool := false
  lock : Option Nat := none
  task : Option Nat := none
  relaunchAttempts : Nat := 0
  drives : List DrivePhase := []
  cancels : List CancelOp := []
  kicks : Nat := 0
  deriving DecidableEq, Repr

namespace Driver

/-- `driver.task is not None and not driver.task.done()`. -/
def liveTask (d : Driver) : Option Nat :=
  match d.task with
  | none => none
  | some i =>
      match d.drives[i]? with
      | none => none
      | some phase => if phase = .done then none else some i

/-- `driver.task = asyncio.create_task(…)`. -/
def spawn (d : Driver) (phase : DrivePhase) : Driver :=
  { d with drives := d.drives ++ [phase], task := some d.drives.length }

/-- `_finish_subagent_task`. -/
def finish (d : Driver) (outcome : WorkStatus) : Driver :=
  { d with status := if d.status.isTerminal then d.status else outcome }

/-- Set a drive's phase. -/
def setDrive (d : Driver) (i : Nat) (phase : DrivePhase) : Driver :=
  { d with drives := d.drives.set i phase }

/-- Set a cancellation's phase. -/
def setCancel (d : Driver) (i : Nat) (op : CancelOp) (phase : CancelPhase) : Driver :=
  { d with cancels := d.cancels.set i { op with phase := phase } }

/-- Leave the `async with driver.start_lock` of a drive. -/
def release (d : Driver) (i : Nat) : Driver :=
  { d with lock := if d.lock = some i then none else d.lock }

end Driver

/-! ### Steps -/

/-- `_MAX_SUBAGENT_RELAUNCH`. -/
def maxSubagentRelaunch : Nat := 5

/-- What `task.cancel()` does to a drive: inside the `try` it becomes a
cancellation of the run, elsewhere it just ends the task. -/
def interrupt (phase : DrivePhase) : DrivePhase :=
  if phase.inTry then .tearingDown .cancel
  else if phase = .done then .done
  else .aborted

/-- What may happen to one driver. -/
inductive DriverAction where
  /-- `start_subagent_task_run` spawns the drive and registers the driver. -/
  | register
  /-- A drive goes on; `found` is what a query of `_settle_subagent` finds. -/
  | advance (drive : Nat) (found : Bool)
  /-- An exception in a drive. -/
  | raise (drive : Nat)
  /-- `cancel_subagent_task_run` up to its first wait. -/
  | cancel
  | advanceCancel (op : Nat)
  /-- `resume_subagent_instance` up to the start lock. -/
  | resume
  /-- `resume_subagent_instance` with the start lock. -/
  | advanceKick
  /-- The owner's `cancel_running_child_subagent_tasks`. -/
  | cancelRecord
  deriving DecidableEq, Repr

/-- One step of a drive. -/
def advanceDrive (d : Driver) (i : Nat) (found : Bool) : DrivePhase → Option Driver
  | .created => some (d.setDrive i .running)
  | .createdFail => some (d.setDrive i (.tearingDown .fail))
  | .running => some (d.setDrive i .settleQueued)
  | .settleQueued =>
      match d.lock with
      | some _ => none
      | none => some { d.setDrive i .settlePending with lock := some i }
  | .settlePending =>
      if found then
        let d := { d with relaunchAttempts := d.relaunchAttempts + 1 }
        let next :=
          if maxSubagentRelaunch < d.relaunchAttempts then d.spawn .createdFail
          else d.spawn .created
        some ((next.setDrive i .done).release i)
      else some (d.setDrive i .settleOutstanding)
  | .settleOutstanding =>
      if found then
        some (({ d with relaunchAttempts := 0, task := none }.setDrive i .done).release i)
      else some ((d.setDrive i .completing).release i)
  | .completing => some ((d.finish .completed).setDrive i (.kicking true))
  | .tearingDown teardown => some ((d.finish teardown.outcome).setDrive i (.kicking false))
  | .kicking inTry => some (d.setDrive i (.cleaning inTry))
  | .cleaning _ => some { d.setDrive i .done with registered := false }
  | .aborted => some (d.setDrive i .done)
  | .done => none

/-- An exception in a drive: inside the `try` it fails the run. -/
def raiseDrive (d : Driver) (i : Nat) : DrivePhase → Option Driver
  | .running | .settlePending | .settleOutstanding | .completing | .kicking true
  | .cleaning true => some ((d.setDrive i (.tearingDown .fail)).release i)
  | .settleQueued | .created | .createdFail | .tearingDown _ | .kicking false | .cleaning false
  | .aborted | .done => none

/-- One step of `cancel_subagent_task_run`. -/
def advanceCancelOp (d : Driver) (i : Nat) (op : CancelOp) : Option Driver :=
  match op.phase with
  | .queued =>
      match d.lock with
      | some _ => none
      | none =>
          match d.liveTask with
          | none => some (d.setCancel i op .tearingDown)
          | some drive =>
              match d.drives[drive]? with
              | none => none
              | some phase =>
                  some ((d.setDrive drive (interrupt phase)).setCancel i op (.waiting drive))
  | .waiting drive =>
      if d.drives[drive]? = some .done then some (d.setCancel i op .returned) else none
  | .tearingDown => some ((d.finish .canceled).setCancel i op .kicking)
  | .kicking => some (d.setCancel i op .cleaning)
  | .cleaning => some { d.setCancel i op .returned with registered := false }
  | .recording => some ((d.finish .canceled).setCancel i op .returned)
  | .returned => none

/-- One step. -/
def driverStep (d : Driver) : DriverAction → Option Driver
  | .register =>
      if d.drives = [] then some { d.spawn .created with registered := true } else none
  | .advance i found =>
      match d.drives[i]? with
      | none => none
      | some phase => advanceDrive d i found phase
  | .raise i =>
      match d.drives[i]? with
      | none => none
      | some phase => raiseDrive d i phase
  | .cancel => some { d with
      cancels := d.cancels ++
        [⟨d.status.isTerminal, if d.registered then .queued else .recording⟩] }
  | .advanceCancel i =>
      match d.cancels[i]? with
      | none => none
      | some op => advanceCancelOp d i op
  | .resume => if d.registered then some { d with kicks := d.kicks + 1 } else some d
  | .advanceKick =>
      match d.kicks, d.lock with
      | kicks + 1, none =>
          let d := { d with kicks := kicks }
          match d.liveTask with
          | some _ => some d
          | none => some (d.spawn .created)
      | _, _ => none
  | .cancelRecord => some (d.finish .canceled)

/-- The machine: a record without a driver yet. -/
def driverMachine : Machine Driver DriverAction where
  Start d := d = {}
  step := driverStep

/-! ### Cancellation -/

/-- This step of a drive commits an outcome of its own. -/
def DrivePhase.commitsOutcome : DrivePhase → Bool
  | .completing | .tearingDown .fail => true
  | _ => false

/-- Past its commit. -/
def DrivePhase.committed : DrivePhase → Bool
  | .kicking _ | .cleaning _ => true
  | .created | .createdFail | .running | .settleQueued | .settlePending | .settleOutstanding
  | .completing | .tearingDown _ | .aborted | .done => false

/-- Some cancellation has not returned. -/
def Driver.canceling (d : Driver) : Bool :=
  d.cancels.any (fun op => decide (op.phase ≠ .returned))

/-- The phase of the drive a cancellation would cancel now. -/
def Driver.livePhase (d : Driver) : Option DrivePhase :=
  match d.liveTask with
  | none => none
  | some i => d.drives[i]?

/-- **A cancellation meets a drive inside its `try`.**  And while one is under
way no outcome is committed to a running record, and no driver is registered. -/
def MeetsTry (d : Driver) : DriverAction → Prop
  | .advanceCancel i => ∀ op ∈ d.cancels[i]?, op.phase = .queued →
      ∀ phase ∈ d.livePhase, phase.inTry = true
  | .advance i _ => d.canceling = true → d.status = .running →
      ∀ phase ∈ d.drives[i]?, phase.commitsOutcome = false
  | .register => d.canceling = false
  | .raise _ | .cancel | .resume | .advanceKick | .cancelRecord => True

instance (d : Driver) : (a : DriverAction) → Decidable (MeetsTry d a)
  | .advanceCancel _ | .advance _ _ | .register => by unfold MeetsTry; infer_instance
  | .raise _ | .cancel | .resume | .advanceKick | .cancelRecord => .isTrue trivial

/-- The run is over, canceled unless it was over before, and its driver gone. -/
def Ended (d : Driver) (wasTerminal : Bool) : Prop :=
  d.status.isTerminal = true ∧ (wasTerminal = false → d.status = .canceled) ∧
    d.registered = false

/-- A cancellation that returns in this step leaves the run ended. -/
def ReturnsEnded (d : Driver) (_ : DriverAction) (t : Driver) : Prop :=
  ∀ (i : Nat) (op : CancelOp), d.cancels[i]? = some op → op.phase ≠ .returned →
    t.cancels[i]? = some { op with phase := .returned } → Ended t op.wasTerminal

/-- On its way to the end of the run, by a cancellation. -/
def Ending (d : Driver) (phase : DrivePhase) : Prop :=
  phase = .tearingDown .cancel ∨ phase = .kicking false ∨ phase = .cleaning false ∨
    (phase = .done ∧ d.status.isTerminal = true ∧ d.registered = false)

/-- What is known of a cancellation where it stands. -/
def OpFits (d : Driver) (op : CancelOp) : Prop :=
  match op.phase with
  | .queued | .tearingDown => True
  | .waiting drive => ∃ phase, d.drives[drive]? = some phase ∧ Ending d phase
  | .kicking | .cleaning | .returned => d.status.isTerminal = true
  | .recording => d.registered = false

/-- The record a cancellation found, and what it can have become. -/
def RequestFits (d : Driver) (op : CancelOp) : Prop :=
  (op.wasTerminal = true → d.status.isTerminal = true) ∧
    (op.wasTerminal = false → d.status = .running ∨ d.status = .canceled)

/-- **The invariant of cancellation.** -/
structure CancelInv (d : Driver) : Prop where
  requests : ∀ op ∈ d.cancels, RequestFits d op
  committed : ∀ phase ∈ d.drives, phase.committed = true → d.status.isTerminal = true
  ops : ∀ op ∈ d.cancels, OpFits d op

/-- The record only ends, the driver only goes, and a drive that is ending the
run goes on doing so. -/
structure GoesOn (d t : Driver) : Prop where
  status : d.status.isTerminal = true → t.status = d.status
  registered : d.registered = false → t.registered = false
  ending : ∀ (i : Nat) (phase : DrivePhase), d.drives[i]? = some phase → Ending d phase →
    ∃ phase', t.drives[i]? = some phase' ∧ Ending t phase'

theorem GoesOn.terminal {d t : Driver} (h : GoesOn d t) (hd : d.status.isTerminal = true) :
    t.status.isTerminal = true := by
  rw [h.status hd]
  exact hd

theorem OpFits.goesOn {d t : Driver} {op : CancelOp} (h : OpFits d op) (hd : GoesOn d t) :
    OpFits t op := by
  unfold OpFits at h ⊢
  cases hphase : op.phase with
  | queued | tearingDown => trivial
  | waiting drive =>
      rw [hphase] at h
      obtain ⟨phase, hget, hending⟩ := h
      exact hd.ending drive phase hget hending
  | kicking | cleaning | returned =>
      rw [hphase] at h
      exact hd.terminal h
  | recording =>
      rw [hphase] at h
      exact hd.registered h

/-- A record that keeps its status, or is canceled, fits what was requested. -/
theorem RequestFits.of_status {d t : Driver} {op : CancelOp} (h : RequestFits d op)
    (hd : t.status = d.status ∨ (d.status = .running ∧ t.status = .canceled)) :
    RequestFits t op := by
  rcases hd with hsame | ⟨hrunning, hcanceled⟩
  · unfold RequestFits
    rw [hsame]
    exact h
  · exact ⟨fun _ => by rw [hcanceled]; rfl, fun _ => .inr hcanceled⟩

theorem finish_status (d : Driver) (outcome : WorkStatus) :
    (d.finish outcome).status = d.status ∨
      (d.status = .running ∧ (d.finish outcome).status = outcome) := by
  cases h : d.status <;> simp [Driver.finish, h, WorkStatus.isTerminal]

theorem finish_terminal (d : Driver) {outcome : WorkStatus} (h : outcome.isTerminal = true) :
    (d.finish outcome).status.isTerminal = true := by
  unfold Driver.finish
  simp only
  split
  · rename_i hended
    exact hended
  · exact h

/-- One drive moves on and may spawn another. -/
theorem GoesOn.setDrive {d t : Driver} {i : Nat} {phase phase' : DrivePhase}
    {more : List DrivePhase} (hi : d.drives[i]? = some phase)
    (hdrives : t.drives = d.drives.set i phase' ++ more)
    (hstatus : d.status.isTerminal = true → t.status = d.status)
    (hregistered : d.registered = false → t.registered = false)
    (hending : Ending d phase → Ending t phase') : GoesOn d t := by
  refine ⟨hstatus, hregistered, ?_⟩
  intro j other hj hother
  by_cases hij : i = j
  · subst hij
    obtain rfl := Option.some.inj (hi.symm.trans hj)
    have hlt := (List.getElem?_eq_some_iff.mp hi).1
    refine ⟨phase', ?_, hending hother⟩
    rw [hdrives, List.getElem?_append_left (by rwa [List.length_set]),
      List.getElem?_set_self hlt]
  · have hlt := (List.getElem?_eq_some_iff.mp hj).1
    refine ⟨other, ?_, ?_⟩
    · rw [hdrives, List.getElem?_append_left (by rwa [List.length_set]),
        List.getElem?_set_ne hij]
      exact hj
    · rcases hother with h | h | h | ⟨h, hterminal, hgone⟩
      · exact .inl h
      · exact .inr (.inl h)
      · exact .inr (.inr (.inl h))
      · exact .inr (.inr (.inr ⟨h, by rw [hstatus hterminal]; exact hterminal, hregistered hgone⟩))

/-- While a record runs and no cancellation is under way, there was none. -/
theorem CancelInv.no_cancels {d : Driver} (h : CancelInv d) (hrunning : d.status = .running)
    (hidle : d.canceling = false) : d.cancels = [] := by
  rw [List.eq_nil_iff_forall_not_mem]
  intro op hop
  have hreturned : op.phase = .returned := by
    have hall := List.any_eq_false.mp hidle op hop
    simpa using hall
  have hfits := h.ops op hop
  unfold OpFits at hfits
  rw [hreturned, hrunning] at hfits
  cases hfits

/-- A drive moves on. -/
theorem CancelInv.driveMoved {d t : Driver} {i : Nat} {phase phase' : DrivePhase}
    {more : List DrivePhase} (h : CancelInv d) (hi : d.drives[i]? = some phase)
    (hdrives : t.drives = d.drives.set i phase' ++ more)
    (hmore : ∀ m ∈ more, m.committed = false) (hcancels : t.cancels = d.cancels)
    (hstatus : t.status = d.status ∨ (d.status = .running ∧ t.status.isTerminal = true ∧
      (t.status = .canceled ∨ d.canceling = false)))
    (hregistered : d.registered = false → t.registered = false)
    (hcommitted : phase'.committed = true → t.status.isTerminal = true)
    (hending : Ending d phase → Ending t phase') : CancelInv t := by
  have hkept : d.status.isTerminal = true → t.status = d.status := by
    intro hterminal
    rcases hstatus with hsame | ⟨hrunning, -, -⟩
    · exact hsame
    · rw [hrunning] at hterminal
      cases hterminal
  have hgoes := GoesOn.setDrive hi hdrives hkept hregistered hending
  refine ⟨?_, ?_, ?_⟩
  · intro op hop
    rw [hcancels] at hop
    refine (h.requests op hop).of_status ?_
    rcases hstatus with hsame | ⟨hrunning, -, hcanceled | hidle⟩
    · exact .inl hsame
    · exact .inr ⟨hrunning, hcanceled⟩
    · rw [h.no_cancels hrunning hidle] at hop
      cases hop
  · intro other hother hpast
    rw [hdrives] at hother
    rcases List.mem_append.mp hother with hin | hin
    · rcases List.mem_or_eq_of_mem_set hin with hold | rfl
      · exact hgoes.terminal (h.committed other hold hpast)
      · exact hcommitted hpast
    · rw [hmore other hin] at hpast
      cases hpast
  · intro op hop
    rw [hcancels] at hop
    exact (h.ops op hop).goesOn hgoes

/-- A cancellation moves on. -/
theorem CancelInv.cancelMoved {d t : Driver} {i : Nat} {op : CancelOp} {phase : CancelPhase}
    (h : CancelInv d) (hi : d.cancels[i]? = some op)
    (hcancels : t.cancels = d.cancels.set i { op with phase := phase }) (hgoes : GoesOn d t)
    (hstatus : t.status = d.status ∨ (d.status = .running ∧ t.status = .canceled))
    (hcommitted : ∀ phase ∈ t.drives, phase.committed = true → t.status.isTerminal = true)
    (hfits : OpFits t { op with phase := phase }) : CancelInv t := by
  have hrequest := h.requests op (List.mem_of_getElem? hi)
  refine ⟨?_, hcommitted, ?_⟩
  · intro other hother
    rw [hcancels] at hother
    rcases List.mem_or_eq_of_mem_set hother with hold | rfl
    · exact (h.requests other hold).of_status hstatus
    · have hsame : RequestFits d { op with phase := phase } := hrequest
      exact hsame.of_status hstatus
  · intro other hother
    rw [hcancels] at hother
    rcases List.mem_or_eq_of_mem_set hother with hold | rfl
    · exact (h.ops other hold).goesOn hgoes
    · exact hfits

/-- The drives stay as they are. -/
theorem GoesOn.sameDrives {d t : Driver} (hdrives : t.drives = d.drives)
    (hstatus : d.status.isTerminal = true → t.status = d.status)
    (hregistered : d.registered = false → t.registered = false) : GoesOn d t := by
  refine ⟨hstatus, hregistered, ?_⟩
  intro i phase hi hending
  refine ⟨phase, hdrives ▸ hi, ?_⟩
  rcases hending with hphase | hphase | hphase | ⟨hphase, hterminal, hgone⟩
  · exact .inl hphase
  · exact .inr (.inl hphase)
  · exact .inr (.inr (.inl hphase))
  · exact .inr (.inr (.inr ⟨hphase, by rw [hstatus hterminal]; exact hterminal,
      hregistered hgone⟩))

theorem finish_kept (d : Driver) (outcome : WorkStatus) (h : d.status.isTerminal = true) :
    (d.finish outcome).status = d.status := by
  simp [Driver.finish, h]

/-- Not on its way to the end of the run. -/
theorem not_ending {d : Driver} {phase : DrivePhase} (hcancel : phase ≠ .tearingDown .cancel)
    (hkick : phase ≠ .kicking false) (hclean : phase ≠ .cleaning false) (hdone : phase ≠ .done) :
    ¬ Ending d phase := by
  rintro (h | h | h | ⟨h, -⟩)
  · exact hcancel h
  · exact hkick h
  · exact hclean h
  · exact hdone h

/-- A drive moves on before any commit. -/
theorem CancelInv.driveQuiet {d t : Driver} {i : Nat} {phase phase' : DrivePhase}
    {more : List DrivePhase} (h : CancelInv d) (hi : d.drives[i]? = some phase)
    (hdrives : t.drives = d.drives.set i phase' ++ more)
    (hmore : ∀ m ∈ more, m.committed = false) (hcancels : t.cancels = d.cancels)
    (hstatus : t.status = d.status) (hregistered : t.registered = d.registered)
    (hphase' : phase'.committed = false) (hending : ¬ Ending d phase) : CancelInv t :=
  h.driveMoved hi hdrives hmore hcancels (.inl hstatus) (fun hgone => hregistered.trans hgone)
    (fun hpast => by rw [hphase'] at hpast; cases hpast) (fun h' => absurd h' hending)

/-- **Drives keep the invariant of cancellation.** -/
theorem CancelInv.advanceDrive {d t : Driver} {i : Nat} {found : Bool} {phase : DrivePhase}
    (h : CancelInv d) (hi : d.drives[i]? = some phase)
    (hok : d.canceling = true → d.status = .running → phase.commitsOutcome = false)
    (hstep : Subagents.advanceDrive d i found phase = some t) : CancelInv t := by
  have hmem := List.mem_of_getElem? hi
  have hlt := (List.getElem?_eq_some_iff.mp hi).1
  have hsame : ∀ l : List DrivePhase, l = l ++ [] := fun l => (List.append_nil l).symm
  -- the record at a commit
  have hcommit : ∀ outcome : WorkStatus, outcome.isTerminal = true →
      (phase.commitsOutcome = true ∨ outcome = .canceled) →
        (d.finish outcome).status = d.status ∨ (d.status = .running ∧
          (d.finish outcome).status.isTerminal = true ∧
            ((d.finish outcome).status = .canceled ∨ d.canceling = false)) := by
    intro outcome houtcome hown
    refine (finish_status d outcome).imp id ?_
    rintro ⟨hrunning, heq⟩
    refine ⟨hrunning, finish_terminal d houtcome, ?_⟩
    rcases hown with hcommits | rfl
    · cases hcanceling : d.canceling with
      | false => exact .inr rfl
      | true =>
          rw [hok hcanceling hrunning] at hcommits
          cases hcommits
    · exact .inl heq
  cases phase with
  | created =>
      obtain rfl := Option.some.inj hstep
      exact h.driveQuiet hi (hsame _) (by simp) rfl rfl rfl rfl
        (not_ending (by simp) (by simp) (by simp) (by simp))
  | createdFail =>
      obtain rfl := Option.some.inj hstep
      exact h.driveQuiet hi (hsame _) (by simp) rfl rfl rfl rfl
        (not_ending (by simp) (by simp) (by simp) (by simp))
  | running =>
      obtain rfl := Option.some.inj hstep
      exact h.driveQuiet hi (hsame _) (by simp) rfl rfl rfl rfl
        (not_ending (by simp) (by simp) (by simp) (by simp))
  | settleQueued =>
      simp only [Subagents.advanceDrive] at hstep
      split at hstep
      · cases hstep
      · obtain rfl := Option.some.inj hstep
        exact h.driveQuiet hi (hsame _) (by simp) rfl rfl rfl rfl
          (not_ending (by simp) (by simp) (by simp) (by simp))
  | settlePending =>
      have hnot : ¬ Ending d .settlePending :=
        not_ending (by simp) (by simp) (by simp) (by simp)
      simp only [Subagents.advanceDrive] at hstep
      split at hstep
      · obtain rfl := Option.some.inj hstep
        split
        · exact h.driveQuiet hi (List.set_append_left _ _ hlt) (by simp [DrivePhase.committed])
            rfl rfl rfl rfl hnot
        · exact h.driveQuiet hi (List.set_append_left _ _ hlt) (by simp [DrivePhase.committed])
            rfl rfl rfl rfl hnot
      · obtain rfl := Option.some.inj hstep
        exact h.driveQuiet hi (hsame _) (by simp) rfl rfl rfl rfl hnot
  | settleOutstanding =>
      have hnot : ¬ Ending d .settleOutstanding :=
        not_ending (by simp) (by simp) (by simp) (by simp)
      simp only [Subagents.advanceDrive] at hstep
      split at hstep
      · obtain rfl := Option.some.inj hstep
        exact h.driveQuiet hi (hsame _) (by simp) rfl rfl rfl rfl hnot
      · obtain rfl := Option.some.inj hstep
        exact h.driveQuiet hi (hsame _) (by simp) rfl rfl rfl rfl hnot
  | completing =>
      obtain rfl := Option.some.inj hstep
      exact h.driveMoved hi (hsame _) (by simp) rfl (hcommit .completed rfl (.inl rfl)) id
        (fun _ => finish_terminal d rfl)
        (fun hending => absurd hending (not_ending (by simp) (by simp) (by simp) (by simp)))
  | tearingDown teardown =>
      obtain rfl := Option.some.inj hstep
      have hterminal : teardown.outcome.isTerminal = true := by cases teardown <;> rfl
      have hown : (DrivePhase.tearingDown teardown).commitsOutcome = true ∨
          teardown.outcome = .canceled := by
        cases teardown
        · exact .inl rfl
        · exact .inr rfl
      exact h.driveMoved hi (hsame _) (by simp) rfl (hcommit _ hterminal hown) id
        (fun _ => finish_terminal d hterminal) (fun _ => .inr (.inl rfl))
  | kicking inTry =>
      obtain rfl := Option.some.inj hstep
      refine h.driveMoved hi (hsame _) (by simp) rfl (.inl rfl) id
        (fun _ => h.committed _ hmem rfl) ?_
      rintro (heq | heq | heq | ⟨heq, -⟩) <;> cases heq
      exact .inr (.inr (.inl rfl))
  | cleaning inTry =>
      obtain rfl := Option.some.inj hstep
      exact h.driveMoved hi (hsame _) (by simp) rfl (.inl rfl) (fun _ => rfl)
        (fun hpast => by cases hpast)
        (fun _ => .inr (.inr (.inr ⟨rfl, h.committed _ hmem rfl, rfl⟩)))
  | aborted =>
      obtain rfl := Option.some.inj hstep
      exact h.driveQuiet hi (hsame _) (by simp) rfl rfl rfl rfl
        (not_ending (by simp) (by simp) (by simp) (by simp))
  | done => cases hstep

/-- An exception inside the `try` starts the teardown of a failed run. -/
theorem CancelInv.raiseDrive {d t : Driver} {i : Nat} {phase : DrivePhase} (h : CancelInv d)
    (hi : d.drives[i]? = some phase) (hstep : Subagents.raiseDrive d i phase = some t) :
    CancelInv t := by
  have hkept : phase.inTry = true → t = (d.setDrive i (.tearingDown .fail)).release i →
      CancelInv t := by
    rintro htry rfl
    refine h.driveQuiet hi (List.append_nil _).symm (by simp) rfl rfl rfl rfl ?_
    rintro (rfl | rfl | rfl | ⟨rfl, -⟩) <;> cases htry
  cases phase with
  | running | settlePending | settleOutstanding | completing =>
      exact hkept rfl (Option.some.inj hstep).symm
  | kicking inTry | cleaning inTry =>
      cases inTry with
      | true => exact hkept rfl (Option.some.inj hstep).symm
      | false => cases hstep
  | created | createdFail | settleQueued | tearingDown _ | aborted | done => cases hstep

/-- **Cancellations keep the invariant of cancellation.** -/
theorem CancelInv.advanceCancelOp {d t : Driver} {i : Nat} {op : CancelOp} (h : CancelInv d)
    (hi : d.cancels[i]? = some op)
    (hok : op.phase = .queued → ∀ phase ∈ d.livePhase, phase.inTry = true)
    (hstep : Subagents.advanceCancelOp d i op = some t) : CancelInv t := by
  have hfits := h.ops op (List.mem_of_getElem? hi)
  unfold OpFits at hfits
  unfold Subagents.advanceCancelOp at hstep
  cases hphase : op.phase with
  | queued =>
      rw [hphase] at hstep
      simp only at hstep
      split at hstep
      · cases hstep
      split at hstep
      · obtain rfl := Option.some.inj hstep
        exact h.cancelMoved hi rfl (GoesOn.sameDrives rfl (fun _ => rfl) id) (.inl rfl) h.committed
          trivial
      · rename_i drive hlive
        split at hstep
        · cases hstep
        rename_i phase hdrive
        obtain rfl := Option.some.inj hstep
        have htry : phase.inTry = true := by
          refine hok hphase phase ?_
          unfold Driver.livePhase
          rw [hlive]
          exact hdrive
        have hnext : interrupt phase = .tearingDown .cancel := if_pos htry
        have hgoes : GoesOn d ((d.setDrive drive (interrupt phase)).setCancel i op
            (.waiting drive)) :=
          GoesOn.setDrive hdrive (List.append_nil _).symm (fun _ => rfl) id
            (fun _ => .inl hnext)
        refine h.cancelMoved hi rfl hgoes (.inl rfl) ?_ ?_
        · intro other hother hpast
          rcases List.mem_or_eq_of_mem_set hother with hold | rfl
          · exact h.committed other hold hpast
          · rw [hnext] at hpast
            cases hpast
        · refine ⟨interrupt phase, ?_, .inl hnext⟩
          exact List.getElem?_set_self (List.getElem?_eq_some_iff.mp hdrive).1
  | waiting drive =>
      rw [hphase] at hstep hfits
      simp only at hstep
      split at hstep
      · rename_i hdone
        obtain rfl := Option.some.inj hstep
        obtain ⟨phase, hdrive, hending⟩ := hfits
        obtain rfl := Option.some.inj (hdone.symm.trans hdrive)
        have hterminal : d.status.isTerminal = true := by
          rcases hending with heq | heq | heq | ⟨-, hterminal, -⟩
          · cases heq
          · cases heq
          · cases heq
          · exact hterminal
        exact h.cancelMoved hi rfl (GoesOn.sameDrives rfl (fun _ => rfl) id) (.inl rfl) h.committed
          hterminal
      · cases hstep
  | tearingDown =>
      rw [hphase] at hstep
      obtain rfl := Option.some.inj hstep
      exact h.cancelMoved hi rfl
        (GoesOn.sameDrives rfl (fun hterminal => finish_kept d _ hterminal) id)
        (finish_status d .canceled)
        (fun phase hmem hpast => finish_terminal d rfl) (finish_terminal d rfl)
  | kicking =>
      rw [hphase] at hstep hfits
      obtain rfl := Option.some.inj hstep
      exact h.cancelMoved hi rfl (GoesOn.sameDrives rfl (fun _ => rfl) id) (.inl rfl) h.committed
        hfits
  | cleaning =>
      rw [hphase] at hstep hfits
      obtain rfl := Option.some.inj hstep
      exact h.cancelMoved hi rfl (GoesOn.sameDrives rfl (fun _ => rfl) (fun _ => rfl)) (.inl rfl)
        h.committed hfits
  | recording =>
      rw [hphase] at hstep
      obtain rfl := Option.some.inj hstep
      exact h.cancelMoved hi rfl
        (GoesOn.sameDrives rfl (fun hterminal => finish_kept d _ hterminal) id)
        (finish_status d .canceled)
        (fun phase hmem hpast => finish_terminal d rfl) (finish_terminal d rfl)
  | returned =>
      rw [hphase] at hstep
      cases hstep

/-- Another drive is spawned at most, and the record ends as canceled at most. -/
theorem CancelInv.environment {d t : Driver} {more : List DrivePhase} (h : CancelInv d)
    (hdrives : t.drives = d.drives ++ more) (hmore : ∀ m ∈ more, m.committed = false)
    (hcancels : t.cancels = d.cancels) (hregistered : t.registered = d.registered)
    (hstatus : t.status = d.status ∨ (d.status = .running ∧ t.status = .canceled)) :
    CancelInv t := by
  have hgoes : GoesOn d t := by
    have hkept : d.status.isTerminal = true → t.status = d.status := by
      intro hterminal
      rcases hstatus with hsame | ⟨hrunning, -⟩
      · exact hsame
      · rw [hrunning] at hterminal
        cases hterminal
    refine ⟨hkept, fun hgone => hregistered.trans hgone, ?_⟩
    intro i phase hi hending
    refine ⟨phase, ?_, ?_⟩
    · rw [hdrives, List.getElem?_append_left (List.getElem?_eq_some_iff.mp hi).1]
      exact hi
    · rcases hending with heq | heq | heq | ⟨heq, hterminal, hgone⟩
      · exact .inl heq
      · exact .inr (.inl heq)
      · exact .inr (.inr (.inl heq))
      · exact .inr (.inr (.inr ⟨heq, by rw [hkept hterminal]; exact hterminal,
          hregistered.trans hgone⟩))
  refine ⟨?_, ?_, ?_⟩
  · exact fun op hop => (h.requests op (hcancels ▸ hop)).of_status hstatus
  · intro phase hmem hpast
    rw [hdrives] at hmem
    rcases List.mem_append.mp hmem with hold | hnew
    · exact hgoes.terminal (h.committed phase hold hpast)
    · rw [hmore phase hnew] at hpast
      cases hpast
  · exact fun op hop => (h.ops op (hcancels ▸ hop)).goesOn hgoes

/-- A registered driver, with no cancellation under way. -/
theorem CancelInv.register {d : Driver} (h : CancelInv d) (hdrives : d.drives = [])
    (hidle : d.canceling = false) :
    CancelInv { d.spawn .created with registered := true } := by
  refine ⟨h.requests, ?_, ?_⟩
  · intro phase hmem hpast
    simp only [Driver.spawn, hdrives, List.nil_append, List.mem_singleton] at hmem
    subst hmem
    cases hpast
  · intro op hop
    have hreturned : op.phase = .returned := by
      have hall := List.any_eq_false.mp hidle op hop
      simpa using hall
    have hfits := h.ops op hop
    unfold OpFits at hfits ⊢
    rw [hreturned] at hfits ⊢
    exact hfits

/-- A new cancellation knows what it found. -/
theorem CancelInv.cancel {d : Driver} (h : CancelInv d) :
    CancelInv { d with cancels := d.cancels ++
      [⟨d.status.isTerminal, if d.registered then .queued else .recording⟩] } := by
  have hcases : ∀ op ∈ d.cancels ++
      [(⟨d.status.isTerminal, if d.registered then .queued else .recording⟩ : CancelOp)],
      op ∈ d.cancels ∨
        op = ⟨d.status.isTerminal, if d.registered then .queued else .recording⟩ :=
    fun op hop => (List.mem_append.mp hop).imp id List.mem_singleton.mp
  refine ⟨?_, h.committed, ?_⟩
  · intro op hop
    rcases hcases op hop with hold | rfl
    · exact h.requests op hold
    · refine ⟨fun hterminal => hterminal, fun hrunning => .inl ?_⟩
      cases hstatus : d.status with
      | running => rfl
      | completed | failed | canceled => rw [hstatus] at hrunning; cases hrunning
  · intro op hop
    rcases hcases op hop with hold | rfl
    · exact (h.ops op hold).goesOn (GoesOn.sameDrives rfl (fun _ => rfl) id)
    · unfold OpFits
      cases hregistered : d.registered with
      | true => trivial
      | false => simpa using hregistered

/-- **Every step of the condition keeps the invariant.** -/
theorem CancelInv.step {d t : Driver} {a : DriverAction} (h : CancelInv d) (hok : MeetsTry d a)
    (hstep : driverStep d a = some t) : CancelInv t := by
  cases a with
  | register =>
      simp only [driverStep] at hstep
      split at hstep
      · rename_i hdrives
        obtain rfl := Option.some.inj hstep
        exact h.register hdrives hok
      · cases hstep
  | advance i found =>
      simp only [driverStep] at hstep
      split at hstep
      · cases hstep
      rename_i phase hi
      exact h.advanceDrive hi (fun hcanceling hrunning => hok hcanceling hrunning phase hi) hstep
  | raise i =>
      simp only [driverStep] at hstep
      split at hstep
      · cases hstep
      rename_i phase hi
      exact h.raiseDrive hi hstep
  | cancel =>
      obtain rfl := Option.some.inj hstep
      exact h.cancel
  | advanceCancel i =>
      simp only [driverStep] at hstep
      split at hstep
      · cases hstep
      rename_i op hi
      exact h.advanceCancelOp hi (hok op hi) hstep
  | resume =>
      simp only [driverStep] at hstep
      split at hstep
      · obtain rfl := Option.some.inj hstep
        exact h.environment (List.append_nil _).symm (by simp) rfl rfl (.inl rfl)
      · obtain rfl := Option.some.inj hstep
        exact h
  | advanceKick =>
      simp only [driverStep] at hstep
      split at hstep
      · split at hstep
        · obtain rfl := Option.some.inj hstep
          exact h.environment (List.append_nil _).symm (by simp) rfl rfl (.inl rfl)
        · obtain rfl := Option.some.inj hstep
          exact h.environment rfl (by simp [DrivePhase.committed]) rfl rfl (.inl rfl)
      · cases hstep
  | cancelRecord =>
      obtain rfl := Option.some.inj hstep
      exact h.environment (List.append_nil _).symm (by simp) rfl rfl (finish_status d .canceled)

/-- A drive leaves the cancellations alone. -/
theorem advanceDrive_cancels {d t : Driver} {i : Nat} {found : Bool} {phase : DrivePhase}
    (hstep : advanceDrive d i found phase = some t) : t.cancels = d.cancels := by
  cases phase with
  | created | createdFail | running | completing | tearingDown _ | kicking _ | cleaning _
  | aborted =>
      obtain rfl := Option.some.inj hstep
      rfl
  | settleQueued =>
      simp only [advanceDrive] at hstep
      split at hstep
      · cases hstep
      · obtain rfl := Option.some.inj hstep
        rfl
  | settlePending =>
      simp only [advanceDrive] at hstep
      split at hstep
      · obtain rfl := Option.some.inj hstep
        by_cases hbudget : maxSubagentRelaunch < d.relaunchAttempts + 1
        · rw [if_pos hbudget]
          rfl
        · rw [if_neg hbudget]
          rfl
      · obtain rfl := Option.some.inj hstep
        rfl
  | settleOutstanding =>
      simp only [advanceDrive] at hstep
      split at hstep
      · obtain rfl := Option.some.inj hstep
        rfl
      · obtain rfl := Option.some.inj hstep
        rfl
  | done => cases hstep

/-- An exception in a drive leaves the cancellations alone. -/
theorem raiseDrive_cancels {d t : Driver} {i : Nat} {phase : DrivePhase}
    (hstep : raiseDrive d i phase = some t) : t.cancels = d.cancels := by
  unfold raiseDrive at hstep
  split at hstep
  all_goals first
    | (obtain rfl := Option.some.inj hstep; rfl)
    | cases hstep

/-- The step of a cancellation moves that cancellation only. -/
theorem advanceCancelOp_cancels {d t : Driver} {i : Nat} {op : CancelOp}
    (hstep : advanceCancelOp d i op = some t) :
    ∃ phase, t.cancels = d.cancels.set i { op with phase := phase } := by
  unfold advanceCancelOp at hstep
  cases hop : op.phase with
  | queued =>
      rw [hop] at hstep
      simp only at hstep
      split at hstep
      · cases hstep
      split at hstep
      · exact ⟨_, by rw [← Option.some.inj hstep]; rfl⟩
      · split at hstep
        · cases hstep
        · exact ⟨_, by rw [← Option.some.inj hstep]; rfl⟩
  | waiting drive =>
      rw [hop] at hstep
      simp only at hstep
      split at hstep
      · exact ⟨_, by rw [← Option.some.inj hstep]; rfl⟩
      · cases hstep
  | tearingDown | kicking | cleaning | recording =>
      rw [hop] at hstep
      exact ⟨_, by rw [← Option.some.inj hstep]; rfl⟩
  | returned =>
      rw [hop] at hstep
      cases hstep

/-- Only a cancellation's own step moves it. -/
theorem driverStep_cancel_kept {d t : Driver} {a : DriverAction} (hstep : driverStep d a = some t)
    {i : Nat} {op : CancelOp} (hi : d.cancels[i]? = some op) (hother : a ≠ .advanceCancel i) :
    t.cancels[i]? = some op := by
  have hsame : t.cancels = d.cancels → t.cancels[i]? = some op := by
    intro hkept
    rw [hkept]
    exact hi
  cases a with
  | register =>
      simp only [driverStep] at hstep
      split at hstep
      · exact hsame (by rw [← Option.some.inj hstep]; rfl)
      · cases hstep
  | advance j found =>
      simp only [driverStep] at hstep
      split at hstep
      · cases hstep
      · exact hsame (advanceDrive_cancels hstep)
  | raise j =>
      simp only [driverStep] at hstep
      split at hstep
      · cases hstep
      · exact hsame (raiseDrive_cancels hstep)
  | cancel =>
      obtain rfl := Option.some.inj hstep
      exact (List.getElem?_append_left (List.getElem?_eq_some_iff.mp hi).1).trans hi
  | advanceCancel j =>
      simp only [driverStep] at hstep
      split at hstep
      · cases hstep
      · obtain ⟨phase, hset⟩ := advanceCancelOp_cancels hstep
        have hne : j ≠ i := fun heq => hother (by rw [heq])
        rw [hset, List.getElem?_set_ne hne]
        exact hi
  | resume =>
      simp only [driverStep] at hstep
      split at hstep
      · exact hsame (by rw [← Option.some.inj hstep])
      · exact hsame (by rw [← Option.some.inj hstep])
  | advanceKick =>
      simp only [driverStep] at hstep
      split at hstep
      · split at hstep
        · exact hsame (by rw [← Option.some.inj hstep])
        · exact hsame (by rw [← Option.some.inj hstep]; rfl)
      · cases hstep
  | cancelRecord => exact hsame (by rw [← Option.some.inj hstep]; rfl)

/-- **A cancellation's last step leaves the run ended.** -/
theorem CancelInv.returns {d t : Driver} {i : Nat} {op : CancelOp} (h : CancelInv d)
    (ht : CancelInv t) (hi : d.cancels[i]? = some op) (hphase : op.phase ≠ .returned)
    (hstep : Subagents.advanceCancelOp d i op = some t)
    (hreturned : t.cancels[i]? = some { op with phase := .returned }) :
    Ended t op.wasTerminal := by
  have hlt := (List.getElem?_eq_some_iff.mp hi).1
  have hfits := h.ops op (List.mem_of_getElem? hi)
  -- the returned call fits the record it leaves, so a run found running is canceled
  have hended : t.status.isTerminal = true → t.registered = false → Ended t op.wasTerminal := by
    intro hterminal hgone
    refine ⟨hterminal, ?_, hgone⟩
    intro hrunning
    rcases (ht.requests _ (List.mem_of_getElem? hreturned)).2 hrunning with hstill | hcanceled
    · rw [hstill] at hterminal
      cases hterminal
    · exact hcanceled
  have hmoved : ∀ (phase : CancelPhase),
      t.cancels = d.cancels.set i { op with phase := phase } → phase = .returned := by
    intro phase hset
    rw [hset, List.getElem?_set_self hlt] at hreturned
    exact congrArg CancelOp.phase (Option.some.inj hreturned)
  unfold OpFits at hfits
  unfold Subagents.advanceCancelOp at hstep
  cases hop : op.phase with
  | queued =>
      rw [hop] at hstep
      simp only at hstep
      split at hstep
      · cases hstep
      split at hstep
      · cases hmoved _ (by rw [← Option.some.inj hstep]; rfl)
      · split at hstep
        · cases hstep
        · cases hmoved _ (by rw [← Option.some.inj hstep]; rfl)
  | waiting drive =>
      rw [hop] at hstep hfits
      simp only at hstep
      split at hstep
      · rename_i hdone
        obtain rfl := Option.some.inj hstep
        obtain ⟨phase, hdrive, hending⟩ := hfits
        obtain rfl := Option.some.inj (hdone.symm.trans hdrive)
        rcases hending with heq | heq | heq | ⟨-, hterminal, hgone⟩
        · cases heq
        · cases heq
        · cases heq
        · exact hended hterminal hgone
      · cases hstep
  | tearingDown | kicking =>
      rw [hop] at hstep
      cases hmoved _ (by rw [← Option.some.inj hstep]; rfl)
  | cleaning =>
      rw [hop] at hstep hfits
      obtain rfl := Option.some.inj hstep
      exact hended hfits rfl
  | recording =>
      rw [hop] at hstep hfits
      obtain rfl := Option.some.inj hstep
      exact hended (finish_terminal d rfl) hfits
  | returned => exact absurd hop hphase

/-- A step of the condition that returns from a cancellation leaves the run
ended. -/
theorem CancelInv.returnsEnded {d t : Driver} {a : DriverAction} (h : CancelInv d)
    (hok : MeetsTry d a) (hstep : driverStep d a = some t) : ReturnsEnded d a t := by
  intro i op hi hphase hreturned
  have ht := h.step hok hstep
  by_cases hown : a = .advanceCancel i
  · subst hown
    simp only [driverStep, hi] at hstep
    exact h.returns ht hi hphase hstep hreturned
  · have hkept := driverStep_cancel_kept hstep hi hown
    have heq := Option.some.inj (hkept.symm.trans hreturned)
    exact absurd (congrArg CancelOp.phase heq) hphase

theorem cancelInv_start : CancelInv {} :=
  ⟨fun _ hop => by simp at hop, fun _ hphase => by simp at hphase, fun _ hop => by simp at hop⟩

/-- **A cancellation ends the run as canceled.**  In every run of the driver
whose steps meet the condition, `cancel_subagent_task_run` returns with the
record terminal, canceled unless it was terminal at the request, and the driver
out of the registry. -/
theorem cancel_ends_canceled (acts : List DriverAction)
    (hok : StepsMeet driverMachine (fun d a _ => MeetsTry d a) {} acts) :
    StepsMeet driverMachine ReturnsEnded {} acts :=
  stepsMeet_of_invariant (fun _ _ _ hinv hmeets hstep => hinv.step hmeets hstep)
    (fun _ _ _ hinv hmeets hstep => hinv.returnsEnded hmeets hstep) cancelInv_start hok

/-- A cancelled drive, its child's kick meanwhile, and the cancellation of a
dormant driver. -/
theorem cancel_ends_canceled_run :
    StepsMeet driverMachine ReturnsEnded {}
        [.register, .advance 0 false, .resume, .cancel, .advanceCancel 0, .advance 0 false,
          .advance 0 false, .advanceKick, .advance 0 false, .advanceCancel 0] ∧
      StepsMeet driverMachine ReturnsEnded {}
        [.register, .advance 0 false, .advance 0 false, .advance 0 false, .advance 0 false,
          .advance 0 true, .cancel, .advanceCancel 0, .advanceCancel 0, .advanceCancel 0,
          .advanceCancel 0] :=
  ⟨cancel_ends_canceled _ (by decide), cancel_ends_canceled _ (by decide)⟩

/-- **Outside the `try` a cancellation strands the run.**  Whatever the driver,
a live drive that is cancelled there ends, the cancellation returns, and the
record and the registration stay as they were. -/
theorem cancel_outside_try {d : Driver} {i drive : Nat} {op : CancelOp} {phase : DrivePhase}
    (hi : d.cancels[i]? = some op) (hphase : op.phase = .queued) (hlock : d.lock = none)
    (hlive : d.liveTask = some drive) (hdrive : d.drives[drive]? = some phase)
    (hdone : phase ≠ .done) (htry : phase.inTry = false) :
    ∃ t, exec driverMachine d
        [.advanceCancel i, .advance drive false, .advanceCancel i] = some t ∧
      t.cancels[i]? = some { op with phase := .returned } ∧
      t.status = d.status ∧ t.registered = d.registered := by
  have hlt := (List.getElem?_eq_some_iff.mp hi).1
  have hltDrive := (List.getElem?_eq_some_iff.mp hdrive).1
  have hnext : interrupt phase = .aborted := by
    unfold interrupt
    rw [htry, if_neg (by simp), if_neg hdone]
  have hfirst : driverMachine.step d (.advanceCancel i) =
      some ((d.setDrive drive .aborted).setCancel i op (.waiting drive)) := by
    simp only [driverMachine, driverStep, hi, advanceCancelOp, hphase, hlock, hlive, hdrive, hnext]
  have hsecond : driverMachine.step
      ((d.setDrive drive .aborted).setCancel i op (.waiting drive)) (.advance drive false) =
      some (((d.setDrive drive .aborted).setCancel i op (.waiting drive)).setDrive drive .done) := by
    have hget : ((d.setDrive drive .aborted).setCancel i op (.waiting drive)).drives[drive]? =
        some .aborted := List.getElem?_set_self hltDrive
    simp only [driverMachine, driverStep, hget, advanceDrive]
  have hthird : driverMachine.step
      (((d.setDrive drive .aborted).setCancel i op (.waiting drive)).setDrive drive .done)
      (.advanceCancel i) =
      some ((((d.setDrive drive .aborted).setCancel i op (.waiting drive)).setDrive drive
        .done).setCancel i { op with phase := .waiting drive } .returned) := by
    have hop : (((d.setDrive drive .aborted).setCancel i op (.waiting drive)).setDrive drive
        .done).cancels[i]? = some { op with phase := .waiting drive } :=
      List.getElem?_set_self hlt
    have hget : (((d.setDrive drive .aborted).setCancel i op (.waiting drive)).setDrive drive
        .done).drives[drive]? = some .done := by
      refine List.getElem?_set_self ?_
      simpa [Driver.setDrive, Driver.setCancel] using hltDrive
    simp only [driverMachine, driverStep, hop, advanceCancelOp, hget, if_true]
  have hrun := (exec_cons_of_step [.advance drive false, .advanceCancel i] hfirst).trans
    ((exec_cons_of_step [.advanceCancel i] hsecond).trans (exec_cons_of_step [] hthird))
  refine ⟨_, hrun, ?_, rfl, rfl⟩
  · refine List.getElem?_set_self ?_
    simpa [Driver.setDrive, Driver.setCancel] using hlt

/-- **A drive cancelled before its first step leaves its run running.** -/
theorem unstarted_cancel_stays_running :
    ¬ StepsMeet driverMachine ReturnsEnded {}
      [.register, .cancel, .advanceCancel 0, .advance 0 false, .advanceCancel 0] := by
  intro h
  have hlast : ReturnsEnded
      { registered := true, task := some 0, drives := [.done], cancels := [⟨false, .waiting 0⟩] }
      (.advanceCancel 0)
      { registered := true, task := some 0, drives := [.done], cancels := [⟨false, .returned⟩] } :=
    ((((h.tail rfl).tail rfl).tail rfl).tail rfl).head rfl
  obtain ⟨hterminal, -, -⟩ := hlast 0 ⟨false, .waiting 0⟩ rfl (by decide) rfl
  cases hterminal

end Workbench.Subagents
