import CyberWorkbench.SessionDriver

/-!
# A session at rest

When may a session come to rest with queued main-agent work?  Every queued
message has to be somebody's business: a driver of its instance that has not
reconciled yet and was not cancelled, or an interrupt that has still to drop
what the user abandoned.

Two kinds of step break this.  A message for another agent or user than the
running driver's is nobody's business, for `_reconcile_driver` asks only for
its own instance; and an interrupt spares messages nobody claimed, although
the driver it cancelled was the only one to honour them.  Runs without such
steps rest clean (`session_rests_clean`); `second_agent_strands_message` and
`interrupt_strands_message` replay the two ways to get stuck.
-/

namespace Workbench

open KeyedTable StepMachine

/-! ### Classification -/

/-- Before the end of `_reconcile_driver`: still going to look at the inbox. -/
def DriverPhase.isWorking : DriverPhase → Bool
  | .finishing | .done => false
  | .queued | .running _ | .settling _ _ | .claiming | .releasing _ | .reconciling | .checking
  | .exhausting => true

/-- The phases that hold the start lock. -/
def DriverPhase.holdsLock : DriverPhase → Bool
  | .checking | .exhausting => true
  | .queued | .running _ | .settling _ _ | .claiming | .releasing _ | .reconciling | .finishing
  | .done => false

/-- The task was cancelled and is not done. -/
def Driver.isCanceling (driver : Driver) : Bool :=
  match driver.phase with
  | .done => false
  | .releasing _ => true
  | _ => driver.cancelRequested

/-- The phases that hold the start lock. -/
def OpPhase.holdsLock : OpPhase → Bool
  | .enqueueing _ | .signaling | .launching _ _ | .recoveryQuerying _ _ => true
  | .startQueued _ | .recoveryQueued _ _ | .interruptWaiting _ | .interruptCanceling
  | .interruptFinishing | .finished => false

/-- The phases entered only when nobody drives. -/
def OpPhase.foundIdle : OpPhase → Bool
  | .launching _ _ | .recoveryQuerying _ _ => true
  | .startQueued _ | .enqueueing _ | .signaling | .recoveryQueued _ _ | .interruptWaiting _
  | .interruptCanceling | .interruptFinishing | .finished => false

/-- An interrupt that has not dropped the abandoned notifications yet. -/
def OpPhase.willCancel : OpPhase → Bool
  | .interruptWaiting _ | .interruptCanceling => true
  | .startQueued _ | .enqueueing _ | .signaling | .launching _ _ | .recoveryQueued _ _
  | .recoveryQuerying _ _ | .interruptFinishing | .finished => false

/-- An operation still in progress. -/
def OpPhase.isFinished : OpPhase → Bool
  | .finished => true
  | _ => false

variable (sessionId : String)

/-! ### The property and its condition -/

/-- No live driver task, no operation in progress. -/
structure AtRest (s : SessionState) : Prop where
  drivers : ∀ driver ∈ s.drivers, driver.phase.isDone = true
  ops : ∀ op ∈ s.ops, op.isFinished = true

/-- At rest, no notification of the session is PENDING for a main agent. -/
def RestsClean (s : SessionState) : Prop :=
  AtRest s → ∀ n ∈ s.table.rows, n.sessionId = sessionId →
    isMainAgentTarget n.targetAgentInstanceId = true → n.status ≠ .pending

/-- A message for a main agent is inserted only while the current driver is
alive and drives that very instance; and when an interrupt drops the abandoned
notifications, no message that was never claimed is queued. -/
def WorkHasOwner (s : SessionState) : SessionAction → Prop
  | .advance i _ =>
      match s.ops[i]? with
      | some (.enqueueing request) =>
          isMainAgentTarget (request.context.instanceFor request.agentCode) = true →
            ∃ d driver, s.current = some d ∧ s.drivers[d]? = some driver ∧
              driver.phase.isDone = false ∧
              driver.agentInstanceId = request.context.instanceFor request.agentCode
      | some .interruptCanceling =>
          ∀ n ∈ s.table.rows, isPendingMainAgent sessionId n = true → n.kind = .userMessage →
            n.startedAt.isSome = true
      | _ => True
  | _ => True

/-! ### The invariant -/

/-- Some working driver of the instance was not cancelled. -/
def Driven (s : SessionState) (agentInstanceId : String) : Prop :=
  ∃ (d : Nat) (driver : Driver), s.drivers[d]? = some driver ∧ driver.phase.isWorking = true ∧
    driver.isCanceling = false ∧ driver.agentInstanceId = agentInstanceId

/-- Some interrupt is yet to drop abandoned work. -/
def DropPending (s : SessionState) : Prop := ∃ op ∈ s.ops, op.willCancel = true

/-- Tasks, operations and locks. -/
structure TaskInv (s : SessionState) : Prop where
  /-- The working driver is the current task. -/
  working : ∀ (d : Nat) (driver : Driver), s.drivers[d]? = some driver →
    driver.phase.isWorking = true → s.current = some d
  /-- The current task is not past its reconciliation. -/
  current : ∀ (d : Nat) (driver : Driver), s.current = some d → s.drivers[d]? = some driver →
    driver.phase ≠ .finishing
  /-- A cancelled task is awaited by the interrupt that cancelled it. -/
  canceling : ∀ (d : Nat) (driver : Driver), s.drivers[d]? = some driver →
    driver.isCanceling = true → .interruptWaiting d ∈ s.ops
  opLock : ∀ (i : Nat) (op : OpPhase), s.ops[i]? = some op → op.holdsLock = true →
    s.startLock = some (.op i)
  driverLock : ∀ (d : Nat) (driver : Driver), s.drivers[d]? = some driver →
    driver.phase.holdsLock = true → s.startLock = some (.driver d)
  /-- Who found the session idle still finds it so. -/
  idle : ∀ op ∈ s.ops, op.foundIdle = true →
    ∀ driver ∈ s.drivers, driver.phase.isWorking = false

/-- Queued main-agent work is somebody's business. -/
def WorkOwned (s : SessionState) : Prop :=
  ∀ n ∈ s.table.rows, isPendingMainAgent sessionId n = true →
    Driven s n.targetAgentInstanceId ∨ DropPending s

variable {sessionId}

/-- Owned work is not left behind. -/
theorem WorkOwned.restsClean {s : SessionState} (hi : WorkOwned sessionId s) :
    RestsClean sessionId s := by
  intro hrest n hn hsession hmain hpending
  have hp : isPendingMainAgent sessionId n = true := by
    simp [isPendingMainAgent, hsession, hmain, hpending]
  rcases hi n hn hp with ⟨d, driver, hd, hworking, -, -⟩ | ⟨op, hop, hcancel⟩
  · have hdone := hrest.drivers driver (List.mem_of_getElem? hd)
    cases hphase : driver.phase <;> simp_all [DriverPhase.isDone, DriverPhase.isWorking]
  · have hfinished := hrest.ops op hop
    cases op <;> simp_all [OpPhase.isFinished, OpPhase.willCancel]

/-! ### A driver task moves -/

/-- What a step of task `d` does to tasks, locks and the current task. -/
structure DriverMove (s s' : SessionState) (d : Nat) (driver driver' : Driver) : Prop where
  drivers : s'.drivers = s.drivers.set d driver'
  ops : s'.ops = s.ops
  current : s'.current = s.current ∨ s.current = some d ∧ s'.current = none
  working : driver'.phase.isWorking = true →
    driver.phase.isWorking = true ∧ s'.current = s.current
  finishing : driver'.phase = .finishing → s'.current ≠ some d
  canceling : driver'.isCanceling = true → driver.isCanceling = true
  lock : (s'.startLock = s.startLock ∧
      (driver'.phase.holdsLock = true → driver.phase.holdsLock = true)) ∨
    (s.startLock = none ∧ s'.startLock = some (.driver d)) ∨
    (driver.phase.holdsLock = true ∧ s'.startLock = none ∧ driver'.phase.holdsLock = false)

theorem DriverMove.taskInv {s s' : SessionState} {d : Nat} {driver driver' : Driver}
    (hm : DriverMove s s' d driver driver') (hd : s.drivers[d]? = some driver)
    (ht : TaskInv s) : TaskInv s' := by
  constructor
  · intro e other he hworking
    rw [hm.drivers] at he
    rcases getElem?_set_cases he with ⟨rfl, rfl⟩ | ⟨hne, he⟩
    · obtain ⟨hw, hcurrent⟩ := hm.working hworking
      rw [hcurrent]
      exact ht.working e driver hd hw
    · have hcurrent := ht.working e other he hworking
      rcases hm.current with hsame | ⟨hwas, -⟩
      · rw [hsame]
        exact hcurrent
      · rw [hwas] at hcurrent
        exact absurd (Option.some.inj hcurrent).symm hne
  · intro e other hcurrent he
    rw [hm.drivers] at he
    rcases getElem?_set_cases he with ⟨rfl, rfl⟩ | ⟨-, he⟩
    · exact fun hfinishing => hm.finishing hfinishing hcurrent
    · rcases hm.current with hsame | ⟨-, hnone⟩
      · rw [hsame] at hcurrent
        exact ht.current e other hcurrent he
      · rw [hnone] at hcurrent
        cases hcurrent
  · intro e other he hcanceling
    rw [hm.drivers] at he
    rw [hm.ops]
    rcases getElem?_set_cases he with ⟨rfl, rfl⟩ | ⟨-, he⟩
    · exact ht.canceling e driver hd (hm.canceling hcanceling)
    · exact ht.canceling e other he hcanceling
  · intro i op hop hholds
    rw [hm.ops] at hop
    have hheld := ht.opLock i op hop hholds
    rcases hm.lock with ⟨hsame, -⟩ | ⟨hfree, -⟩ | ⟨hdriver, -, -⟩
    · rw [hsame]
      exact hheld
    · rw [hfree] at hheld
      cases hheld
    · rw [ht.driverLock d driver hd hdriver] at hheld
      cases hheld
  · intro e other he hholds
    rw [hm.drivers] at he
    rcases getElem?_set_cases he with ⟨rfl, rfl⟩ | ⟨hne, he⟩
    · rcases hm.lock with ⟨hsame, hheld⟩ | ⟨-, hacquired⟩ | ⟨-, -, hreleased⟩
      · rw [hsame]
        exact ht.driverLock e driver hd (hheld hholds)
      · exact hacquired
      · rw [hreleased] at hholds
        cases hholds
    · have hheld := ht.driverLock e other he hholds
      rcases hm.lock with ⟨hsame, -⟩ | ⟨hfree, -⟩ | ⟨hdriver, -, -⟩
      · rw [hsame]
        exact hheld
      · rw [hfree] at hheld
        cases hheld
      · rw [ht.driverLock d driver hd hdriver] at hheld
        exact absurd (LockHolder.driver.inj (Option.some.inj hheld)).symm hne
  · intro op hop hidle other hother
    rw [hm.ops] at hop
    rw [hm.drivers] at hother
    rcases List.mem_or_eq_of_mem_set hother with hother | rfl
    · exact ht.idle op hop hidle other hother
    · rw [Bool.eq_false_iff]
      intro hworking
      have hbusy := ht.idle op hop hidle driver (List.mem_of_getElem? hd)
      rw [(hm.working hworking).1] at hbusy
      cases hbusy

/-- A driver step keeps queued work owned if the task was being cancelled, or
if whatever is still queued was queued before and the task owned none of it or
goes on working. -/
theorem DriverMove.workOwned {s s' : SessionState} {d : Nat} {driver driver' : Driver}
    (hm : DriverMove s s' d driver driver') (hd : s.drivers[d]? = some driver)
    (ht : TaskInv s) (ho : WorkOwned sessionId s)
    (hpending : driver.isCanceling = true ∨
      ∀ n ∈ s'.table.rows, isPendingMainAgent sessionId n = true → n ∈ s.table.rows ∧
        (driver.phase.isWorking = false ∨ n.targetAgentInstanceId ≠ driver.agentInstanceId ∨
          (driver'.phase.isWorking = true ∧ driver'.isCanceling = false ∧
            driver'.agentInstanceId = driver.agentInstanceId))) :
    WorkOwned sessionId s' := by
  intro n hn hp
  rcases hpending with hcanceling | hpending
  · refine .inr ⟨.interruptWaiting d, ?_, rfl⟩
    rw [hm.ops]
    exact ht.canceling d driver hd hcanceling
  · obtain ⟨hn, hcase⟩ := hpending n hn hp
    rcases ho n hn hp with ⟨e, other, he, hworking, hcancel, htarget⟩ | ⟨op, hop, hcancel⟩
    · left
      by_cases hed : e = d
      · subst hed
        rw [hd] at he
        obtain rfl := Option.some.inj he
        rcases hcase with hidle | hother | ⟨hworking', hcancel', hsame⟩
        · rw [hidle] at hworking
          cases hworking
        · exact absurd htarget.symm hother
        · refine ⟨e, driver', ?_, hworking', hcancel', hsame.trans htarget⟩
          rw [hm.drivers]
          exact List.getElem?_set_self (List.getElem?_eq_some_iff.mp hd).1
      · refine ⟨e, other, ?_, hworking, hcancel, htarget⟩
        rw [hm.drivers, List.getElem?_set_ne (fun h => hed h.symm)]
        exact he
    · exact .inr ⟨op, hm.ops ▸ hop, hcancel⟩

/-! ### An operation moves -/

/-- What a step of operation `i` does to operations and locks. -/
structure OpMove (s s' : SessionState) (i : Nat) (op op' : OpPhase) : Prop where
  ops : s'.ops = s.ops.set i op'
  drivers : s'.drivers = s.drivers
  current : s'.current = s.current
  lock : (s'.startLock = s.startLock ∧ (op'.holdsLock = true → op.holdsLock = true)) ∨
    (s.startLock = none ∧ s'.startLock = some (.op i)) ∨
    (op.holdsLock = true ∧ s'.startLock = none ∧ op'.holdsLock = false)
  idle : op'.foundIdle = true → ∀ driver ∈ s.drivers, driver.phase.isWorking = false
  awaited : ∀ (d : Nat) (driver : Driver), op = .interruptWaiting d →
    s.drivers[d]? = some driver → driver.isCanceling = false

theorem OpMove.taskInv {s s' : SessionState} {i : Nat} {op op' : OpPhase}
    (hm : OpMove s s' i op op') (hop : s.ops[i]? = some op) (ht : TaskInv s) :
    TaskInv s' := by
  constructor
  · intro d driver hd hworking
    rw [hm.drivers] at hd
    rw [hm.current]
    exact ht.working d driver hd hworking
  · intro d driver hcurrent hd
    rw [hm.drivers] at hd
    rw [hm.current] at hcurrent
    exact ht.current d driver hcurrent hd
  · intro d driver hd hcanceling
    rw [hm.drivers] at hd
    rw [hm.ops]
    refine mem_set_of_ne hop (ht.canceling d driver hd hcanceling) ?_
    rintro rfl
    rw [hm.awaited d driver rfl hd] at hcanceling
    cases hcanceling
  · intro j other hj hholds
    rw [hm.ops] at hj
    rcases getElem?_set_cases hj with ⟨rfl, rfl⟩ | ⟨hne, hj⟩
    · rcases hm.lock with ⟨hsame, hheld⟩ | ⟨-, hacquired⟩ | ⟨-, -, hreleased⟩
      · rw [hsame]
        exact ht.opLock j op hop (hheld hholds)
      · exact hacquired
      · rw [hreleased] at hholds
        cases hholds
    · have hheld := ht.opLock j other hj hholds
      rcases hm.lock with ⟨hsame, -⟩ | ⟨hfree, -⟩ | ⟨hop', -, -⟩
      · rw [hsame]
        exact hheld
      · rw [hfree] at hheld
        cases hheld
      · rw [ht.opLock i op hop hop'] at hheld
        exact absurd (LockHolder.op.inj (Option.some.inj hheld)).symm hne
  · intro d driver hd hholds
    rw [hm.drivers] at hd
    have hheld := ht.driverLock d driver hd hholds
    rcases hm.lock with ⟨hsame, -⟩ | ⟨hfree, -⟩ | ⟨hop', -, -⟩
    · rw [hsame]
      exact hheld
    · rw [hfree] at hheld
      cases hheld
    · rw [ht.opLock i op hop hop'] at hheld
      cases hheld
  · intro other hother hidle driver hdriver
    rw [hm.ops] at hother
    rw [hm.drivers] at hdriver
    rcases List.mem_or_eq_of_mem_set hother with hother | rfl
    · exact ht.idle other hother hidle driver hdriver
    · exact hm.idle hidle driver hdriver

/-- An operation step keeps queued work owned if what it leaves queued was
queued before or is driven, and it does not end a pending drop. -/
theorem OpMove.workOwned {s s' : SessionState} {i : Nat} {op op' : OpPhase}
    (hm : OpMove s s' i op op') (hop : s.ops[i]? = some op) (ho : WorkOwned sessionId s)
    (hpending : ∀ n ∈ s'.table.rows, isPendingMainAgent sessionId n = true →
      n ∈ s.table.rows ∨ Driven s n.targetAgentInstanceId ∨ DropPending s)
    (hdrop : op.willCancel = true → op'.willCancel = true) : WorkOwned sessionId s' := by
  intro n hn hp
  have howned : Driven s n.targetAgentInstanceId ∨ DropPending s := by
    rcases hpending n hn hp with hn | howned
    · exact ho n hn hp
    · exact howned
  rcases howned with ⟨d, driver, hd, hrest⟩ | ⟨other, hother, hcancel⟩
  · exact .inl ⟨d, driver, hm.drivers ▸ hd, hrest⟩
  · right
    by_cases hsame : other = op
    · refine ⟨op', ?_, hdrop (hsame ▸ hcancel)⟩
      rw [hm.ops]
      exact List.mem_iff_getElem?.mpr
        ⟨i, List.getElem?_set_self (List.getElem?_eq_some_iff.mp hop).1⟩
    · refine ⟨other, ?_, hcancel⟩
      rw [hm.ops]
      exact mem_set_of_ne hop hother hsame

/-! ### A task or an operation is born -/

/-- A new driver is launched only where nobody drives. -/
theorem TaskInv.launch {s : SessionState} (ht : TaskInv s) {driver : Driver}
    (hqueued : driver.phase = .queued) (hfresh : driver.cancelRequested = false)
    (hidle : ∀ other ∈ s.drivers, other.phase.isWorking = false)
    (hops : ∀ op ∈ s.ops, op.foundIdle = false) : TaskInv (s.launch driver) := by
  have hcases : ∀ (d : Nat) (other : Driver), (s.launch driver).drivers[d]? = some other →
      (d = s.drivers.length ∧ other = driver) ∨ s.drivers[d]? = some other := by
    intro d other hd
    rcases Nat.lt_or_ge d s.drivers.length with hlt | hge
    · right
      rwa [SessionState.launch, List.getElem?_append_left hlt] at hd
    · left
      rw [SessionState.launch, List.getElem?_append_right hge] at hd
      obtain ⟨hindex, hother⟩ := List.getElem?_eq_some_iff.mp hd
      simp only [List.length_singleton] at hindex
      refine ⟨by omega, ?_⟩
      rw [← hother]
      simp
  constructor
  · intro d other hd hworking
    rcases hcases d other hd with ⟨rfl, -⟩ | hd
    · rfl
    · rw [hidle other (List.mem_of_getElem? hd)] at hworking
      cases hworking
  · intro d other hcurrent hd
    obtain rfl : s.drivers.length = d := Option.some.inj hcurrent
    rcases hcases _ other hd with ⟨-, rfl⟩ | hd
    · rw [hqueued]
      nofun
    · have hlt := (List.getElem?_eq_some_iff.mp hd).1
      omega
  · intro d other hd hcanceling
    rcases hcases d other hd with ⟨-, rfl⟩ | hd
    · simp [Driver.isCanceling, hqueued, hfresh] at hcanceling
    · exact ht.canceling d other hd hcanceling
  · exact ht.opLock
  · intro d other hd hholds
    rcases hcases d other hd with ⟨-, rfl⟩ | hd
    · rw [hqueued] at hholds
      cases hholds
    · exact ht.driverLock d other hd hholds
  · intro op hop hfound
    rw [hops op hop] at hfound
    cases hfound

theorem launch_driven (s : SessionState) {driver : Driver} (hqueued : driver.phase = .queued)
    (hfresh : driver.cancelRequested = false) :
    Driven (s.launch driver) driver.agentInstanceId := by
  refine ⟨s.drivers.length, driver, ?_, by rw [hqueued]; rfl, ?_, rfl⟩
  · simp [SessionState.launch]
  · simp [Driver.isCanceling, hqueued, hfresh]

/-- A driver that was driven before a launch is driven after it. -/
theorem Driven.launch {s : SessionState} {target : String} (h : Driven s target)
    (driver : Driver) : Driven (s.launch driver) target := by
  obtain ⟨d, other, hd, hrest⟩ := h
  refine ⟨d, other, ?_, hrest⟩
  rw [SessionState.launch, List.getElem?_append_left (List.getElem?_eq_some_iff.mp hd).1]
  exact hd

/-- A new operation that waits for the start lock changes nothing. -/
theorem TaskInv.beginOp {s : SessionState} (ht : TaskInv s) {op : OpPhase}
    (hlock : op.holdsLock = false) (hidle : op.foundIdle = false) :
    TaskInv { s with ops := s.ops ++ [op] } := by
  refine ⟨ht.working, ht.current, ?_, ?_, ht.driverLock, ?_⟩
  · intro d driver hd hcanceling
    exact List.mem_append_left _ (ht.canceling d driver hd hcanceling)
  · intro i other hi hholds
    rcases Nat.lt_or_ge i s.ops.length with hlt | hge
    · rw [List.getElem?_append_left hlt] at hi
      exact ht.opLock i other hi hholds
    · rw [List.getElem?_append_right hge] at hi
      obtain rfl : other = op := by simpa using List.mem_of_getElem? hi
      rw [hlock] at hholds
      cases hholds
  · intro other hother hfound
    rcases List.mem_append.mp hother with hother | hother
    · exact ht.idle other hother hfound
    · obtain rfl : other = op := by simpa using hother
      rw [hidle] at hfound
      cases hfound

theorem WorkOwned.beginOp {s : SessionState} (ho : WorkOwned sessionId s) (op : OpPhase) :
    WorkOwned sessionId { s with ops := s.ops ++ [op] } := by
  intro n hn hp
  rcases ho n hn hp with hdriven | ⟨other, hother, hcancel⟩
  · exact .inl hdriven
  · exact .inr ⟨other, List.mem_append_left _ hother, hcancel⟩

/-- Requesting a cancellation changes no phase; the new interrupt answers for
the task's work. -/
theorem beginInterrupt_inv {s : SessionState} (ht : TaskInv s) (ho : WorkOwned sessionId s) :
    TaskInv (beginInterrupt s) ∧ WorkOwned sessionId (beginInterrupt s) := by
  unfold beginInterrupt
  split
  · exact ⟨ht, ho⟩
  · rename_i d hcurrent
    split
    · exact ⟨ht, ho⟩
    · rename_i driver hd
      split
      · exact ⟨ht, ho⟩
      · refine ⟨?_, fun n _ _ => .inr ⟨.interruptWaiting d, by simp, rfl⟩⟩
        have hphase : ∀ (e : Nat) (other : Driver),
            (s.drivers.set d { driver with cancelRequested := true })[e]? = some other →
            ∃ before, s.drivers[e]? = some before ∧ before.phase = other.phase ∧
              (e ≠ d → before = other) := by
          intro e other he
          rcases getElem?_set_cases he with ⟨rfl, rfl⟩ | ⟨hne, he⟩
          · exact ⟨driver, hd, rfl, fun h => absurd rfl h⟩
          · exact ⟨other, he, rfl, fun _ => rfl⟩
        have hbase : TaskInv { s with ops := s.ops ++ [.interruptWaiting d] } :=
          ht.beginOp rfl rfl
        constructor
        · intro e other he hworking
          obtain ⟨before, hbefore, hsame, -⟩ := hphase e other he
          exact ht.working e before hbefore (hsame ▸ hworking)
        · intro e other hcur he
          obtain ⟨before, hbefore, hsame, -⟩ := hphase e other he
          exact hsame ▸ ht.current e before hcur hbefore
        · intro e other he hcanceling
          obtain ⟨before, hbefore, -, hother⟩ := hphase e other he
          by_cases hed : e = d
          · subst hed
            simp
          · refine List.mem_append_left _ (ht.canceling e before hbefore ?_)
            rw [hother hed]
            exact hcanceling
        · exact hbase.opLock
        · intro e other he hholds
          obtain ⟨before, hbefore, hsame, -⟩ := hphase e other he
          exact ht.driverLock e before hbefore (hsame ▸ hholds)
        · intro op hop hfound other hother
          obtain ⟨e, he⟩ := List.mem_iff_getElem?.mp hother
          obtain ⟨before, hbefore, hsame, -⟩ := hphase e other he
          rw [← hsame]
          exact hbase.idle op hop hfound before (List.mem_of_getElem? hbefore)

/-! ### What the writes leave queued -/

/-- Nothing is queued that was not queued before. -/
def NoNewPending (t t' : NotificationTable) : Prop :=
  ∀ n ∈ t'.rows, n.status = .pending → n ∈ t.rows

theorem NoNewPending.refl (t : NotificationTable) : NoNewPending t t := fun _ hn _ => hn

/-- An update that does not release queues nothing. -/
theorem NotificationUpdate.noNewPending (u : NotificationUpdate) (hw : u.written ≠ .pending)
    (t : NotificationTable) : NoNewPending t (u.run t) := by
  intro n' hn' hpending
  obtain ⟨n, hn, hchange⟩ := (u.rowwise t).before (Table.mem_rows_iff_get?.mp hn')
  rcases hchange with rfl | ⟨-, -, rfl⟩
  · exact (Table.get?_eq_some hn).1
  · exact absurd ((u.setsStatus n).symm.trans hpending) hw

theorem settleClaimed_noNewPending (id : String) (result : TurnResult) (now : Time)
    (t : NotificationTable) : NoNewPending t (settleClaimed id result now t) := by
  cases result <;>
    simp only [settleClaimed, TurnResult.ending, settleNotification, completeNotification,
      failNotification]
  all_goals
    split
    · refine NotificationUpdate.noNewPending _ ?_ t
      simp [finishUpdate]
    · exact NoNewPending.refl t

theorem claimNext_noNewPending {sessionId target id : String} {now : Time}
    {t t' : NotificationTable} (h : claimNext sessionId target now t = some (id, t')) :
    NoNewPending t t' := by
  unfold claimNext at h
  split at h
  · cases h
  · obtain ⟨-, rfl⟩ := Prod.mk.inj (Option.some.inj h)
    refine NotificationUpdate.noNewPending _ ?_ t
    simp [claimUpdate]

/-- What a cancellation leaves queued it did not select. -/
theorem cancelNotifications_pending {f : CancelFilter} {error : String} {now : Time}
    {t : NotificationTable} {n' : AgentNotification}
    (hn' : n' ∈ (cancelNotifications f error now t).rows) (hpending : n'.status = .pending) :
    n' ∈ t.rows ∧ f.selects n' = false := by
  obtain ⟨n, hn, hchange⟩ := (cancelNotifications_rowwise f error now t).before
    (Table.mem_rows_iff_get?.mp hn')
  rcases hchange with ⟨hselects, rfl⟩ | ⟨-, hcanceled⟩
  · exact ⟨(Table.get?_eq_some hn).1, hselects⟩
  · rw [hpending] at hcanceled
    cases hcanceled

theorem isPendingMainAgent_iff {n : AgentNotification} :
    isPendingMainAgent sessionId n = true ↔
      (n.sessionId = sessionId ∧ n.status = .pending) ∧
        isMainAgentTarget n.targetAgentInstanceId = true := by
  simp [isPendingMainAgent]

/-- When the budget is spent, nothing of the session stays queued. -/
theorem exhaust_clears {now : Time} {t : NotificationTable} {n : AgentNotification}
    (hn : n ∈ (exhaust sessionId now t).rows) : isPendingMainAgent sessionId n = false := by
  rw [Bool.eq_false_iff]
  intro hp
  obtain ⟨⟨hsession, hpending⟩, -⟩ := isPendingMainAgent_iff.mp hp
  have hselects := (cancelNotifications_pending hn hpending).2
  simp [CancelFilter.selects, cancelSessionFilter, matchesOption, hsession, hpending,
    NotificationStatus.isOutstanding] at hselects

/-! ### One step -/

/-- A step of a task that goes on working, and queues nothing. -/
theorem keepsWorking_inv {s s' : SessionState} {d : Nat} {driver : Driver}
    (phase : DriverPhase) (ht : TaskInv s) (ho : WorkOwned sessionId s)
    (hd : s.drivers[d]? = some driver) (hbefore : driver.phase.isWorking = true)
    (hdrivers : s'.drivers = s.drivers.set d { driver with phase := phase })
    (hops : s'.ops = s.ops) (hcurrent : s'.current = s.current)
    (hlock : (s'.startLock = s.startLock ∧
        (phase.holdsLock = true → driver.phase.holdsLock = true)) ∨
      (s.startLock = none ∧ s'.startLock = some (.driver d)))
    (hquiet : NoNewPending s.table s'.table) (hafter : phase.isWorking = true)
    (hcancel : ({ driver with phase := phase } : Driver).isCanceling = false) :
    TaskInv s' ∧ WorkOwned sessionId s' := by
  have hm : DriverMove s s' d driver { driver with phase := phase } := by
    refine ⟨hdrivers, hops, .inl hcurrent, fun _ => ⟨hbefore, hcurrent⟩, ?_, ?_, ?_⟩
    · intro hfinishing
      rw [show phase = .finishing from hfinishing] at hafter
      cases hafter
    · intro hcanceling
      rw [hcancel] at hcanceling
      cases hcanceling
    · rcases hlock with hlock | hlock
      · exact .inl hlock
      · exact .inr (.inl hlock)
  refine ⟨hm.taskInv hd ht, hm.workOwned hd ht ho (.inr ?_)⟩
  intro n hn hp
  exact ⟨hquiet n hn (isPendingMainAgent_iff.mp hp).1.2, .inr (.inr ⟨hafter, hcancel, rfl⟩)⟩

/-- A task leaves `_drive` past its reconciliation, or ends. -/
theorem driverMove_leaves {s s' : SessionState} {d : Nat} {driver driver' : Driver}
    (hdrivers : s'.drivers = s.drivers.set d driver') (hops : s'.ops = s.ops)
    (hcurrent : s'.current = s.current ∨ s.current = some d ∧ s'.current = none)
    (hphase : driver'.phase = .done ∨ driver'.phase = .finishing ∧ s'.current ≠ some d)
    (hfresh : driver'.cancelRequested = false)
    (hlock : s'.startLock = s.startLock ∨
      driver.phase.holdsLock = true ∧ s'.startLock = none) :
    DriverMove s s' d driver driver' := by
  have hleft : driver'.phase.isWorking = false ∧ driver'.phase.holdsLock = false ∧
      driver'.isCanceling = false := by
    rcases hphase with h | ⟨h, -⟩ <;> simp [Driver.isCanceling, h, hfresh, DriverPhase.isWorking,
      DriverPhase.holdsLock]
  refine ⟨hdrivers, hops, hcurrent, ?_, ?_, ?_, ?_⟩
  · intro hworking
    rw [hleft.1] at hworking
    cases hworking
  · rintro hfinishing
    rcases hphase with h | ⟨-, h⟩
    · rw [h] at hfinishing
      cases hfinishing
    · exact h
  · intro hcanceling
    rw [hleft.2.2] at hcanceling
    cases hcanceling
  · rcases hlock with hsame | ⟨hheld, hreleased⟩
    · refine .inl ⟨hsame, fun hholds => ?_⟩
      rw [hleft.2.1] at hholds
      cases hholds
    · exact .inr (.inr ⟨hheld, hreleased, hleft.2.1⟩)

theorem clearCurrent_current (s : SessionState) (d : Nat) :
    (s.clearCurrent d).current = s.current ∨
      s.current = some d ∧ (s.clearCurrent d).current = none := by
  unfold SessionState.clearCurrent
  by_cases h : s.current = some d
  · exact .inr ⟨h, if_pos h⟩
  · exact .inl (if_neg h)

theorem clearCurrent_ne (s : SessionState) (d : Nat) :
    (s.clearCurrent d).current ≠ some d := by
  unfold SessionState.clearCurrent
  by_cases h : s.current = some d
  · simp [h]
  · simp [h]

/-- The query of `_reconcile_driver` found nothing of the instance queued. -/
theorem hasPendingNotification_false {target : String} {t : NotificationTable}
    {n : AgentNotification}
    (hnone : hasPendingNotification sessionId none (some target) t = false) (hn : n ∈ t.rows)
    (hp : isPendingMainAgent sessionId n = true) : n.targetAgentInstanceId ≠ target := by
  rintro rfl
  obtain ⟨⟨hsession, hpending⟩, -⟩ := isPendingMainAgent_iff.mp hp
  have hno := List.any_eq_false.mp hnone n hn
  simp [isPendingFor, matchesOption, filterNotificationTarget, hsession, hpending] at hno

theorem firstPhase_spec (driver : Driver) :
    driver.firstPhase.isWorking = true ∧ driver.firstPhase.holdsLock = false ∧
      ({ driver with phase := driver.firstPhase } : Driver).isCanceling =
        driver.cancelRequested := by
  unfold Driver.firstPhase
  split <;> exact ⟨rfl, rfl, rfl⟩

/-- **Relaunch.**  The reconciling driver hands its instance to a new task. -/
theorem relaunch_inv {s s' : SessionState} {d : Nat} {driver next : Driver} (ht : TaskInv s)
    (ho : WorkOwned sessionId s) (hd : s.drivers[d]? = some driver)
    (hphase : driver.phase = .checking) (hfresh : driver.cancelRequested = false)
    (hs' : ({ s with startLock := none }.setDriver d
      { driver with phase := .finishing }).launch next = s')
    (hqueued : next.phase = .queued) (hnext : next.cancelRequested = false)
    (hsame : next.agentInstanceId = driver.agentInstanceId) :
    TaskInv s' ∧ WorkOwned sessionId s' := by
  subst hs'
  have hworking : driver.phase.isWorking = true := by rw [hphase]; rfl
  have hcurrent := ht.working d driver hd hworking
  have hm : DriverMove s ({ s with startLock := none, current := none }.setDriver d
      { driver with phase := .finishing }) d driver { driver with phase := .finishing } :=
    driverMove_leaves rfl rfl (.inr ⟨hcurrent, rfl⟩) (.inr ⟨rfl, nofun⟩) hfresh
      (.inr ⟨by rw [hphase]; rfl, rfl⟩)
  have hothers : ∀ other ∈ s.drivers.set d { driver with phase := .finishing },
      other.phase.isWorking = false := by
    intro other hother
    obtain ⟨e, he⟩ := List.mem_iff_getElem?.mp hother
    rcases getElem?_set_cases he with ⟨-, rfl⟩ | ⟨hne, he⟩
    · rfl
    · rw [Bool.eq_false_iff]
      intro hbusy
      have hother := ht.working e other he hbusy
      rw [hcurrent] at hother
      exact hne (Option.some.inj hother).symm
  have hops : ∀ op ∈ s.ops, op.foundIdle = false := by
    intro op hop
    rw [Bool.eq_false_iff]
    intro hfound
    rw [ht.idle op hop hfound driver (List.mem_of_getElem? hd)] at hworking
    cases hworking
  refine ⟨(hm.taskInv hd ht).launch hqueued hnext hothers hops, ?_⟩
  intro n hn hp
  rcases ho n hn hp with ⟨e, other, he, hbusy, -, htarget⟩ | hdrop
  · have hother := ht.working e other he hbusy
    rw [hcurrent] at hother
    obtain rfl := Option.some.inj hother
    rw [hd] at he
    obtain rfl := Option.some.inj he
    left
    rw [← htarget, ← hsame]
    exact launch_driven _ hqueued hnext
  · exact .inr hdrop

/-- **Driver steps.**  A task that was not cancelled keeps the invariant. -/
theorem advanceDriver_inv {s s' : SessionState} {d : Nat} {driver : Driver}
    {result : TurnResult} {now : Time} (ht : TaskInv s) (ho : WorkOwned sessionId s)
    (hd : s.drivers[d]? = some driver) (hfresh : driver.cancelRequested = false)
    (h : advanceDriver sessionId s d driver result now = some s') :
    TaskInv s' ∧ WorkOwned sessionId s' := by
  unfold advanceDriver at h
  cases hphase : driver.phase with
  | queued =>
      simp only [hphase] at h
      split at h
      · cases h
      · obtain rfl := Option.some.inj h
        have hworking : driver.phase.isWorking = true := by rw [hphase]; rfl
        have hcurrent := ht.working d driver hd hworking
        obtain ⟨hafter, hholds, hcancel⟩ := firstPhase_spec driver
        refine keepsWorking_inv driver.firstPhase ht ho hd hworking rfl rfl hcurrent.symm
          (.inl ⟨rfl, fun h => ?_⟩) (NoNewPending.refl _) hafter (hcancel.trans hfresh)
        rw [hholds] at h
        cases h
  | running claimed =>
      have hworking : driver.phase.isWorking = true := by rw [hphase]; rfl
      simp only [hphase] at h
      cases claimed with
      | none =>
          cases result with
          | returned | preempted =>
              obtain rfl := Option.some.inj h
              exact keepsWorking_inv .claiming ht ho hd hworking rfl rfl rfl (.inl ⟨rfl, nofun⟩)
                (NoNewPending.refl _) rfl hfresh
          | raised error =>
              obtain rfl := Option.some.inj h
              exact keepsWorking_inv .reconciling ht ho hd hworking rfl rfl rfl
                (.inl ⟨rfl, nofun⟩) (NoNewPending.refl _) rfl hfresh
      | some id =>
          obtain rfl := Option.some.inj h
          exact keepsWorking_inv (.settling id result) ht ho hd hworking rfl rfl rfl
            (.inl ⟨rfl, nofun⟩) (NoNewPending.refl _) rfl hfresh
  | settling id settled =>
      have hworking : driver.phase.isWorking = true := by rw [hphase]; rfl
      simp only [hphase] at h
      obtain rfl := Option.some.inj h
      exact keepsWorking_inv .claiming ht ho hd hworking rfl rfl rfl (.inl ⟨rfl, nofun⟩)
        (settleClaimed_noNewPending id settled now s.table) rfl hfresh
  | claiming =>
      have hworking : driver.phase.isWorking = true := by rw [hphase]; rfl
      simp only [hphase] at h
      split at h
      · obtain rfl := Option.some.inj h
        exact keepsWorking_inv .reconciling ht ho hd hworking rfl rfl rfl (.inl ⟨rfl, nofun⟩)
          (NoNewPending.refl _) rfl hfresh
      · rename_i id table hclaim
        obtain rfl := Option.some.inj h
        exact keepsWorking_inv (.running (some id)) ht ho hd hworking rfl rfl rfl
          (.inl ⟨rfl, nofun⟩) (claimNext_noNewPending hclaim) rfl hfresh
  | releasing id =>
      simp only [hphase] at h
      -- the released row is the business of the interrupt that waits
      have hm : DriverMove s s' d driver { driver with phase := .done } := by
        rw [← Option.some.inj h]
        exact driverMove_leaves rfl rfl (clearCurrent_current _ d) (.inl rfl) hfresh (.inl rfl)
      exact ⟨hm.taskInv hd ht,
        hm.workOwned hd ht ho (.inl (by simp [Driver.isCanceling, hphase]))⟩
  | reconciling =>
      have hworking : driver.phase.isWorking = true := by rw [hphase]; rfl
      simp only [hphase] at h
      split at h
      · cases h
      · rename_i hfree
        obtain rfl := Option.some.inj h
        exact keepsWorking_inv .checking ht ho hd hworking rfl rfl rfl (.inr ⟨hfree, rfl⟩)
          (NoNewPending.refl _) rfl hfresh
  | checking =>
      have hworking : driver.phase.isWorking = true := by rw [hphase]; rfl
      have hholds : driver.phase.holdsLock = true := by rw [hphase]; rfl
      simp only [hphase] at h
      split at h
      · split at h
        · obtain rfl := Option.some.inj h
          exact keepsWorking_inv .exhausting ht ho hd hworking rfl rfl rfl
            (.inl ⟨rfl, fun _ => hholds⟩) (NoNewPending.refl _) rfl hfresh
        · exact relaunch_inv ht ho hd hphase hfresh (Option.some.inj h) rfl rfl rfl
      · rename_i hnone
        have hm : DriverMove s s' d driver { driver with phase := .finishing } := by
          rw [← Option.some.inj h]
          exact driverMove_leaves rfl rfl (clearCurrent_current _ d)
            (.inr ⟨rfl, clearCurrent_ne _ d⟩) hfresh (.inr ⟨hholds, rfl⟩)
        obtain rfl := Option.some.inj h
        refine ⟨hm.taskInv hd ht, hm.workOwned hd ht ho (.inr ?_)⟩
        intro n hn hp
        exact ⟨hn, .inr (.inl
          (hasPendingNotification_false (Bool.eq_false_iff.mpr hnone) hn hp))⟩
  | exhausting =>
      simp only [hphase] at h
      have hm : DriverMove s s' d driver { driver with phase := .finishing } := by
        rw [← Option.some.inj h]
        exact driverMove_leaves rfl rfl (clearCurrent_current _ d)
          (.inr ⟨rfl, clearCurrent_ne _ d⟩) hfresh (.inr ⟨by rw [hphase]; rfl, rfl⟩)
      obtain rfl := Option.some.inj h
      refine ⟨hm.taskInv hd ht, ?_⟩
      intro n hn hp
      rw [exhaust_clears hn] at hp
      cases hp
  | finishing =>
      simp only [hphase] at h
      obtain rfl := Option.some.inj h
      have hm : DriverMove s ({ s with turnLock := none }.setDriver d
          { driver with phase := .done }) d driver { driver with phase := .done } :=
        driverMove_leaves rfl rfl (.inl rfl) (.inl rfl) hfresh (.inl rfl)
      exact ⟨hm.taskInv hd ht,
        hm.workOwned hd ht ho (.inr fun n hn _ => ⟨hn, .inl (by rw [hphase]; rfl)⟩)⟩
  | done =>
      simp only [hphase] at h
      cases h

/-- A cancelled task moves towards its end. -/
theorem cancelDriver_move {s s' : SessionState} {d : Nat} {driver : Driver} {committed : Bool}
    {now : Time} (hcancel : driver.isCanceling = true)
    (h : cancelDriver sessionId s d driver committed now = some s') :
    ∃ driver', DriverMove s s' d driver driver' := by
  unfold cancelDriver at h
  cases hphase : driver.phase with
  | queued | finishing =>
      simp only [hphase] at h
      refine ⟨{ driver with phase := .done, cancelRequested := false }, ?_⟩
      rw [← Option.some.inj h]
      exact driverMove_leaves rfl rfl (.inl rfl) (.inl rfl) rfl (.inl rfl)
  | reconciling =>
      simp only [hphase] at h
      refine ⟨{ driver with phase := .done, cancelRequested := false }, ?_⟩
      rw [← Option.some.inj h]
      exact driverMove_leaves rfl rfl (.inl rfl) (.inl rfl) rfl (.inl rfl)
  | checking | exhausting =>
      simp only [hphase] at h
      refine ⟨{ driver with phase := .done, cancelRequested := false }, ?_⟩
      rw [← Option.some.inj h]
      exact driverMove_leaves rfl rfl (.inl rfl) (.inl rfl) rfl
        (.inr ⟨by rw [hphase]; rfl, rfl⟩)
  | claiming | releasing =>
      simp only [hphase] at h
      refine ⟨{ driver with phase := .done, cancelRequested := false }, ?_⟩
      rw [← Option.some.inj h]
      exact driverMove_leaves rfl rfl (clearCurrent_current _ d) (.inl rfl) rfl (.inl rfl)
  | running claimed =>
      simp only [hphase] at h
      cases claimed with
      | none =>
          refine ⟨{ driver with phase := .done, cancelRequested := false }, ?_⟩
          rw [← Option.some.inj h]
          exact driverMove_leaves rfl rfl (clearCurrent_current _ d) (.inl rfl) rfl (.inl rfl)
      | some id =>
          refine ⟨{ driver with phase := .releasing id, cancelRequested := false }, ?_⟩
          rw [← Option.some.inj h]
          exact ⟨rfl, rfl, .inl rfl, fun _ => ⟨by rw [hphase]; rfl, rfl⟩, nofun,
            fun _ => hcancel, .inl ⟨rfl, nofun⟩⟩
  | settling id result =>
      simp only [hphase] at h
      cases result with
      | returned =>
          refine ⟨{ driver with phase := .releasing id, cancelRequested := false }, ?_⟩
          rw [← Option.some.inj h]
          exact ⟨rfl, rfl, .inl rfl, fun _ => ⟨by rw [hphase]; rfl, rfl⟩, nofun,
            fun _ => hcancel, .inl ⟨rfl, nofun⟩⟩
      | preempted | raised =>
          refine ⟨{ driver with phase := .done, cancelRequested := false }, ?_⟩
          rw [← Option.some.inj h]
          exact driverMove_leaves rfl rfl (clearCurrent_current _ d) (.inl rfl) rfl (.inl rfl)
  | done =>
      simp only [hphase] at h
      cases h

/-- **Operation steps.**  An operation keeps the invariant when the work it
queues or spares has an owner. -/
theorem advanceOp_inv {s s' : SessionState} {i : Nat} {op : OpPhase} {now : Time}
    (ht : TaskInv s) (ho : WorkOwned sessionId s) (hop : s.ops[i]? = some op)
    (hok : WorkHasOwner sessionId s (.advance i now))
    (h : advanceOp sessionId s i now op = some s') :
    TaskInv s' ∧ WorkOwned sessionId s' := by
  have hnobody : s.isRunning = false → ∀ driver ∈ s.drivers, driver.phase.isWorking = false := by
    intro hrunning driver hdriver
    rw [Bool.eq_false_iff]
    intro hworking
    obtain ⟨d, hd⟩ := List.mem_iff_getElem?.mp hdriver
    have hcurrent := ht.working d driver hd hworking
    simp only [SessionState.isRunning, hcurrent, hd] at hrunning
    cases hphase : driver.phase <;> simp_all [DriverPhase.isDone, DriverPhase.isWorking]
  -- the moves that leave the inbox alone
  have hmoves : ∀ op', OpMove s s' i op op' → s'.table = s.table →
      (op.willCancel = true → op'.willCancel = true) → TaskInv s' ∧ WorkOwned sessionId s' := by
    intro op' hm htable hdrop
    refine ⟨hm.taskInv hop ht, hm.workOwned hop ho ?_ hdrop⟩
    intro n hn _
    exact .inl (htable ▸ hn)
  unfold advanceOp at h
  cases op with
  | startQueued request =>
      simp only at h
      split at h
      · cases h
      · rename_i hfree
        split at h
        · refine hmoves (.enqueueing request) ?_ ?_ nofun
          · rw [← Option.some.inj h]
            exact ⟨rfl, rfl, rfl, .inr (.inl ⟨hfree, rfl⟩), nofun, nofun⟩
          · rw [← Option.some.inj h]
            rfl
        · rename_i hrunning
          refine hmoves (.launching (request.context.instanceFor request.agentCode) true)
            ?_ ?_ nofun
          · rw [← Option.some.inj h]
            exact ⟨rfl, rfl, rfl, .inr (.inl ⟨hfree, rfl⟩),
              fun _ => hnobody (Bool.eq_false_iff.mpr hrunning), nofun⟩
          · rw [← Option.some.inj h]
            rfl
  | enqueueing request =>
      simp only at h
      split at h
      · cases h
      · rename_i table hinsert
        have hm : OpMove s s' i (.enqueueing request) .signaling := by
          rw [← Option.some.inj h]
          exact ⟨rfl, rfl, rfl, .inl ⟨rfl, fun _ => rfl⟩, nofun, nofun⟩
        refine ⟨hm.taskInv hop ht, hm.workOwned hop ho ?_ nofun⟩
        obtain rfl := Option.some.inj h
        intro n hn hp
        rcases (Table.mem_insert hinsert).mp hn with hn | rfl
        · exact .inl hn
        · right
          simp only [WorkHasOwner, hop] at hok
          obtain ⟨d, driver, hcurrent, hd, hlive, htarget⟩ :=
            hok (isPendingMainAgent_iff.mp hp).2
          by_cases hcanceling : driver.isCanceling = true
          · exact .inr ⟨_, ht.canceling d driver hd hcanceling, rfl⟩
          · refine .inl ⟨d, driver, hd, ?_, Bool.eq_false_iff.mpr hcanceling, htarget⟩
            have hnot := ht.current d driver hcurrent hd
            cases hphase : driver.phase <;>
              simp_all [DriverPhase.isDone, DriverPhase.isWorking]
  | signaling =>
      refine hmoves .finished ?_ ?_ nofun
      · rw [← Option.some.inj h]
        exact ⟨rfl, rfl, rfl, .inr (.inr ⟨rfl, rfl, rfl⟩), nofun, nofun⟩
      · rw [← Option.some.inj h]
        rfl
  | launching agentInstanceId hasContent =>
      simp only at h
      have hlock := ht.opLock i _ hop rfl
      have hidle := ht.idle _ (List.mem_of_getElem? hop) rfl
      have hm : OpMove s ({ s with startLock := none }.setOp i .finished) i
          (.launching agentInstanceId hasContent) .finished :=
        ⟨rfl, rfl, rfl, .inr (.inr ⟨rfl, rfl, rfl⟩), nofun, nofun⟩
      have hops : ∀ other ∈ s.ops.set i .finished, other.foundIdle = false := by
        intro other hother
        obtain ⟨j, hj⟩ := List.mem_iff_getElem?.mp hother
        rcases getElem?_set_cases hj with ⟨-, rfl⟩ | ⟨hne, hj⟩
        · rfl
        · rw [Bool.eq_false_iff]
          intro hfound
          have hheld : other.holdsLock = true := by
            cases other <;> simp_all [OpPhase.foundIdle, OpPhase.holdsLock]
          rw [ht.opLock j other hj hheld] at hlock
          exact hne (LockHolder.op.inj (Option.some.inj hlock))
      obtain rfl := Option.some.inj h
      refine ⟨(hm.taskInv hop ht).launch rfl rfl hidle hops, ?_⟩
      have howned : WorkOwned sessionId ({ s with startLock := none }.setOp i .finished) :=
        hm.workOwned hop ho (fun n hn _ => .inl hn) nofun
      intro n hn hp
      rcases howned n hn hp with hdriven | hdrop
      · exact .inl (hdriven.launch _)
      · exact .inr hdrop
  | recoveryQueued agentCode context =>
      simp only at h
      split at h
      · cases h
      · rename_i hfree
        split at h
        · refine hmoves .finished ?_ ?_ nofun
          · rw [← Option.some.inj h]
            exact ⟨rfl, rfl, rfl, .inl ⟨rfl, nofun⟩, nofun, nofun⟩
          · rw [← Option.some.inj h]
            rfl
        · rename_i hrunning
          refine hmoves (.recoveryQuerying agentCode context) ?_ ?_ nofun
          · rw [← Option.some.inj h]
            exact ⟨rfl, rfl, rfl, .inr (.inl ⟨hfree, rfl⟩),
              fun _ => hnobody (Bool.eq_false_iff.mpr hrunning), nofun⟩
          · rw [← Option.some.inj h]
            rfl
  | recoveryQuerying agentCode context =>
      simp only at h
      split at h
      · refine hmoves (.launching (context.instanceFor agentCode) false) ?_ ?_ nofun
        · rw [← Option.some.inj h]
          exact ⟨rfl, rfl, rfl, .inl ⟨rfl, fun _ => rfl⟩,
            fun _ => ht.idle _ (List.mem_of_getElem? hop) rfl, nofun⟩
        · rw [← Option.some.inj h]
          rfl
      · refine hmoves .finished ?_ ?_ nofun
        · rw [← Option.some.inj h]
          exact ⟨rfl, rfl, rfl, .inr (.inr ⟨rfl, rfl, rfl⟩), nofun, nofun⟩
        · rw [← Option.some.inj h]
          rfl
  | interruptWaiting d =>
      simp only at h
      split at h
      · cases h
      · rename_i driver hd
        split at h
        · rename_i hdone
          refine hmoves .interruptCanceling ?_ ?_ (fun _ => rfl)
          · rw [← Option.some.inj h]
            refine ⟨rfl, rfl, rfl, .inl ⟨rfl, nofun⟩, nofun, ?_⟩
            rintro e other ⟨⟩ he
            rw [hd] at he
            obtain rfl := Option.some.inj he
            cases hphase : driver.phase <;>
              simp_all [DriverPhase.isDone, Driver.isCanceling]
          · rw [← Option.some.inj h]
            rfl
        · cases h
  | interruptCanceling =>
      have hm : OpMove s s' i .interruptCanceling .interruptFinishing := by
        rw [← Option.some.inj h]
        exact ⟨rfl, rfl, rfl, .inl ⟨rfl, nofun⟩, nofun, nofun⟩
      refine ⟨hm.taskInv hop ht, ?_⟩
      obtain rfl := Option.some.inj h
      intro n hn hp
      obtain ⟨⟨hsession, hpending⟩, hmain⟩ := isPendingMainAgent_iff.mp hp
      obtain ⟨hn, hspared⟩ := cancelNotifications_pending hn hpending
      simp only [WorkHasOwner, hop] at hok
      -- the filter spares only messages nobody claimed, and there are none
      have hclaimed := hok n hn hp
      by_cases hkind : n.kind = .userMessage <;>
        simp_all [CancelFilter.selects, cancelMainAgentInterruptedFilter, matchesOption,
          NotificationStatus.isActiveCancelable]
  | interruptFinishing =>
      refine hmoves .finished ?_ ?_ nofun
      · rw [← Option.some.inj h]
        exact ⟨rfl, rfl, rfl, .inl ⟨rfl, nofun⟩, nofun, nofun⟩
      · rw [← Option.some.inj h]
        rfl
  | finished => cases h

/-- **The step lemma.**  A step whose work has an owner keeps the invariant. -/
theorem sessionStep_inv {s s' : SessionState} {a : SessionAction}
    (hi : TaskInv s ∧ WorkOwned sessionId s) (hok : WorkHasOwner sessionId s a)
    (h : sessionStep sessionId s a = some s') : TaskInv s' ∧ WorkOwned sessionId s' := by
  obtain ⟨ht, ho⟩ := hi
  cases a with
  | startTurn request =>
      obtain rfl := Option.some.inj h
      exact ⟨ht.beginOp rfl rfl, ho.beginOp _⟩
  | startNotificationRecovery agentCode context =>
      obtain rfl := Option.some.inj h
      exact ⟨ht.beginOp rfl rfl, ho.beginOp _⟩
  | interrupt =>
      obtain rfl := Option.some.inj h
      exact beginInterrupt_inv ht ho
  | advance i now =>
      simp only [sessionStep] at h
      split at h
      · cases h
      · rename_i op hop
        exact advanceOp_inv ht ho hop hok h
  | drive d result committed now =>
      simp only [sessionStep] at h
      split at h
      · cases h
      · rename_i driver hd
        split at h
        · rename_i hrequested
          have hlive : driver.phase.isDone = false := by
            cases hphase : driver.phase <;> simp_all [cancelDriver, DriverPhase.isDone]
          have hcancel : driver.isCanceling = true := by
            cases hphase : driver.phase <;>
              simp_all [Driver.isCanceling, DriverPhase.isDone]
          obtain ⟨driver', hm⟩ := cancelDriver_move hcancel h
          exact ⟨hm.taskInv hd ht, hm.workOwned hd ht ho (.inl hcancel)⟩
        · rename_i hfresh
          exact advanceDriver_inv ht ho hd (Bool.eq_false_iff.mpr hfresh) h

theorem sessionStart_inv {s : SessionState} (h : (sessionMachine sessionId).Start s) :
    TaskInv s ∧ WorkOwned sessionId s := by
  obtain ⟨hclean, hdrivers, hcurrent, hstart, -, hops⟩ := h
  refine ⟨⟨?_, ?_, ?_, ?_, ?_, ?_⟩, ?_⟩
  · simp [hdrivers]
  · simp [hdrivers]
  · simp [hdrivers]
  · simp [hops]
  · simp [hdrivers]
  · simp [hops]
  · intro n hn hp
    exact absurd hp (List.any_eq_false.mp hclean n hn)

/-- **A session whose work has owners rests clean.**  Along every run of
`start_turn`, recovery, `interrupt` and driver steps: if each message for a
main agent is queued while the current driver lives and drives that instance,
and no interrupt finds a never-claimed message to spare, then whenever no
driver lives and no operation is in progress, nothing is PENDING for a main
agent. -/
theorem session_rests_clean (sessionId : String) (s : SessionState)
    (acts : List SessionAction) {t : SessionState} (hstart : (sessionMachine sessionId).Start s)
    (hok : StepsMeet (sessionMachine sessionId)
      (fun s a _ => WorkHasOwner sessionId s a) s acts)
    (hrun : exec (sessionMachine sessionId) s acts = some t) : RestsClean sessionId t :=
  have keep : ∀ s a t, TaskInv s ∧ WorkOwned sessionId s → WorkHasOwner sessionId s a →
      (sessionMachine sessionId).step s a = some t → TaskInv t ∧ WorkOwned sessionId t :=
    fun _ _ _ hi hok hstep => sessionStep_inv hi hok hstep
  (exec_invariant keep (sessionStart_inv hstart) hok hrun).2.restsClean

/-! ### The two ways to get stuck -/

/-- A session nobody used yet. -/
def freshSession : SessionState where
  table := Table.empty
  drivers := []
  current := none
  startLock := none
  turnLock := none
  ops := []

/-- A message of user 1 for one of the agents. -/
def messageFor (id agentCode : String) : TurnRequest where
  notificationId := id
  runId := id
  content := []
  displayText := "hello"
  agentCode := agentCode
  context := { sessionId := "s", userId := 1 }

/-- A turn for `planner` starts; meanwhile a message for `agentCode` is
queued. -/
def queueWhileDriving (agentCode : String) : List SessionAction :=
  [.startTurn (messageFor "m1" "planner"), .advance 0 1, .advance 0 1,
    .drive 0 .returned false 2, .startTurn (messageFor "m2" agentCode), .advance 1 3,
    .advance 1 3, .advance 1 3]

/-- The driver finishes its turn, drains what is its own, and ends. -/
def drainAndEnd : List SessionAction :=
  [.drive 0 .returned false 4, .drive 0 .returned false 5, .drive 0 .returned false 6,
    .drive 0 .returned false 7, .drive 0 .returned false 8]

/-- The turn is interrupted and the driver torn down. -/
def interruptAndEnd : List SessionAction :=
  [.interrupt, .drive 0 .returned false 4, .advance 2 5, .advance 2 5, .advance 2 5]

theorem not_restsClean {s : SessionState}
    (hdrivers : s.drivers.all (fun driver => driver.phase.isDone) = true)
    (hops : s.ops.all OpPhase.isFinished = true)
    (hqueued : hasPendingMainAgentNotification sessionId s.table = true) :
    ¬ RestsClean sessionId s := by
  intro hclean
  obtain ⟨n, hn, hp⟩ := List.any_eq_true.mp hqueued
  obtain ⟨⟨hsession, hpending⟩, hmain⟩ := isPendingMainAgent_iff.mp hp
  exact hclean ⟨List.all_eq_true.mp hdrivers, List.all_eq_true.mp hops⟩ n hn hsession hmain
    hpending

/-- A message for a second agent outlives the driver of the first. -/
theorem second_agent_strands_message :
    ¬ ∀ s acts t, (sessionMachine "s").Start s → exec (sessionMachine "s") s acts = some t →
      RestsClean "s" t := fun hclean =>
  not_restsClean rfl rfl rfl
    (hclean freshSession (queueWhileDriving "scout" ++ drainAndEnd) _
      ⟨rfl, rfl, rfl, rfl, rfl, rfl⟩ rfl)

/-- A message for the driver's own agent outlives an interrupt. -/
theorem interrupt_strands_message :
    ∃ t, exec (sessionMachine "s") freshSession (queueWhileDriving "planner" ++ interruptAndEnd)
        = some t ∧ ¬ RestsClean "s" t :=
  ⟨_, rfl, not_restsClean rfl rfl rfl⟩

/-- The driver claims, runs and completes the queued message as well. -/
def drainOwnMessage : List SessionAction :=
  [.drive 0 .returned false 4, .drive 0 .returned false 5, .drive 0 .returned false 6,
    .drive 0 .returned false 7, .drive 0 .returned false 8, .drive 0 .returned false 9,
    .drive 0 .returned false 10, .drive 0 .returned false 11]

theorem session_rests_clean_same_agent :
    ∃ t, exec (sessionMachine "s") freshSession
        (queueWhileDriving "planner" ++ drainOwnMessage) = some t ∧
      t.drivers.all (fun driver => driver.phase.isDone) = true ∧ RestsClean "s" t := by
  refine ⟨_, rfl, rfl, session_rests_clean "s" freshSession
    (queueWhileDriving "planner" ++ drainOwnMessage) ⟨rfl, rfl, rfl, rfl, rfl, rfl⟩ ?_ rfl⟩
  iterate 6
    rintro _ ⟨⟩
    refine ⟨trivial, ?_⟩
  rintro _ ⟨⟩
  refine ⟨fun _ => ⟨0, _, rfl, rfl, rfl, rfl⟩, ?_⟩
  iterate 9
    rintro _ ⟨⟩
    refine ⟨trivial, ?_⟩
  trivial

end Workbench
