import CyberWorkbench.CommandSteps

/-!
# What a cancelled command leaves

A cancellation returns when the tasks it cancelled are done and, except for a
single run, its bulk update has committed.  Three things can go wrong before.
A task cancelled before its first step, or while a handler fails the job, ends
without recording anything; and a single run has no bulk update behind it.  A
job whose task exists but is not in `_jobs` is not selected at all.  And while
the processes are being killed one after another a task still finishes, or
fails, on its own.

`cancel_effective`: when none of this happens, every targeted job that was
RUNNING is CANCELED, its notification is settled and nothing of it runs.
`unstarted_job_stays_running` is the first of the three.
-/

namespace Workbench

open KeyedTable PythonValues StepMachine

/-! ### What a cancellation may rely on -/

/-- A CancelledError takes the task to the handler that cancels the job. -/
def CommandTask.heedsCancel : CommandTask → Bool
  | .launching | .communicating | .killing | .closing _ | .completing | .resuming true => true
  | .absent | .unstarted | .failing | .canceling | .resuming false | .done => false

/-- **Nothing crosses the cancellation.**  Its selection finds the job in
`_jobs`, or without a task, and then none is created; the task does not
complete or fail the job; and a single run is cancelled neither before its
first step nor in the handler that fails it. -/
def Uncrossed (callId : Nat) (runId : String) (s : CommandState) (a : JobAction)
    (_ : CommandState) : Prop :=
  match a with
  | .select c => c = callId → ∀ r ∈ s.jobs.get? runId,
      r.progress.entry = .listed ∨ r.progress.task.isLive = false
  | .spawn k => k = runId → ∀ call ∈ s.cancels.get? callId, call.phase = .requested
  | .task k move _ _ => k = runId → move = .committed → ∀ r ∈ s.jobs.get? runId,
      r.progress.task ≠ .completing ∧ r.progress.task ≠ .failing
  | .cancel c _ | .resume c => c = callId →
      ∀ call ∈ s.cancels.get? callId, call.scope.isRun = true → ∀ r ∈ s.jobs.get? runId,
        r.progress.task ≠ .unstarted ∧ r.progress.task ≠ .failing
  | .create .. | .register _ | .abandon _ | .exit _ | .forget _ | .request .. | .gather _
  | .record .. => True

instance (callId : Nat) (runId : String) : ∀ s a t, Decidable (Uncrossed callId runId s a t)
  | _, .select _, _ | _, .spawn _, _ | _, .task .., _ | _, .cancel .., _ | _, .resume _, _ => by
      unfold Uncrossed
      infer_instance
  | _, .create .., _ | _, .register _, _ | _, .abandon _, _ | _, .exit _, _ | _, .forget _, _
  | _, .request .., _ | _, .gather _, _ | _, .record .., _ => .isTrue trivial

/-! ### A job on its way out -/

/-- The task of a cancelled job will record the cancellation, or has. -/
def Doomed (p : JobProgress) (status : WorkStatus) : Prop :=
  (p.cancelRequested = true ∧ p.task.heedsCancel = true) ∨ p.task = .closing .canceled ∨
    (p.task = .canceling ∧ p.cancelRequested = false) ∨
    (((∃ b, p.task = .resuming b) ∨ p.task = .done) ∧ status = .canceled)

/-- Where the job is while the cancellation is in this phase. -/
def OnItsWay (callId : Nat) (scope : CancelScope) (p : JobProgress) (status : WorkStatus) :
    CancelPhase → Prop
  | .requested => True
  | .canceling | .killing _ => p.entry = .taken callId ∨
      (p.entry = .passed callId ∧ (scope.isRun = true → Doomed p status)) ∨
      (scope.isRun = false ∧ p.task.isLive = false)
  | .recording => p.task.isLive = false
  | .returned => p.task.isLive = false ∧ status = .canceled

/-- **The invariant of a cancellation**, for one job it is for. -/
structure Outgoing (callId : Nat) (scope : CancelScope) (runId : String) (s : CommandState) :
    Prop where
  job : ∃ r row phase, s.jobs.get? runId = some r ∧ scope.selects r = true ∧
    s.db.jobs.get? runId = some row ∧ (row.status = .running ∨ row.status = .canceled) ∧
    s.cancels.get? callId = some ⟨callId, scope, phase⟩ ∧
    OnItsWay callId scope r.progress row.status phase
  asleep : ∀ n ∈ s.db.notifications.rows, n.kind = .sandboxAsyncJobFinished → n.runId = runId →
    n.status.isActiveCancelable = false

/-- The task stays where it is or takes a step of its own. -/
theorem ProgressChange.task_cases {s : CommandState} {r : AsyncCommandJob} {a : JobAction}
    {p : JobProgress} (h : ProgressChange s r a p) :
    p.task = r.progress.task ∨ a = .spawn r.runId ∨
      ∃ move, r.progress.move move = some p := by
  cases h with
  | kept => exact .inl rfl
  | spawned => exact .inr (.inl rfl)
  | registered hregister =>
      unfold JobProgress.register at hregister
      split at hregister
      · obtain rfl := Option.some.inj hregister
        exact .inl rfl
      · cases hregister
  | abandoned habandon =>
      unfold JobProgress.abandon at habandon
      split at habandon
      · obtain rfl := Option.some.inj habandon
        exact .inl rfl
      · cases habandon
  | exited hexit =>
      unfold JobProgress.exit at hexit
      split at hexit
      · obtain rfl := Option.some.inj hexit
        exact .inl rfl
      · cases hexit
  | forgotten hforget =>
      unfold JobProgress.forget at hforget
      split at hforget
      · obtain rfl := Option.some.inj hforget
        exact .inl rfl
      · cases hforget
  | moved hmove => exact .inr (.inr ⟨_, hmove⟩)
  | taken | canceled | resumed => exact .inl rfl

/-- Only a live task takes a step, and it stays where `_jobs` or a
cancellation has it. -/
theorem JobProgress.move_live {p p' : JobProgress} {move : TaskMove} (h : p.move move = some p') :
    p.task.isLive = true ∧ p'.entry = p.entry := by
  unfold JobProgress.move at h
  split at h
  · split at h
    · obtain ⟨task, htask, rfl⟩ := Option.map_eq_some_iff.mp h
      refine ⟨?_, rfl⟩
      cases hp : p.task with
      | absent | done =>
          rw [hp] at htask
          cases htask
      | _ => rfl
    · cases h
  · split at h
    case h_4 htask | h_6 htask =>
      split at h
      · obtain rfl := Option.some.inj h
        exact ⟨by rw [htask]; rfl, rfl⟩
      · cases h
    case h_15 => cases h
    all_goals
      rename_i htask
      obtain rfl := Option.some.inj h
      exact ⟨by rw [htask]; rfl, rfl⟩

/-- Without a live task none comes, unless the start creates it. -/
theorem ProgressChange.not_live {s : CommandState} {r : AsyncCommandJob} {a : JobAction}
    {p : JobProgress} (h : ProgressChange s r a p) (hdead : r.progress.task.isLive = false)
    (hspawn : a ≠ .spawn r.runId) : p.task.isLive = false := by
  rcases h.task_cases with hsame | hspawned | ⟨move, hmove⟩
  · rw [hsame]
    exact hdead
  · exact absurd hspawned hspawn
  · rw [(JobProgress.move_live hmove).1] at hdead
    cases hdead

/-! ### The task of a cancelled job -/

/-- A row that is CANCELED stays so. -/
theorem Doomed.settle {p : JobProgress} {status status' : WorkStatus} (h : Doomed p status)
    (hstatus : status = .canceled → status' = .canceled) : Doomed p status' := by
  rcases h with h | h | h | ⟨htask, hcanceled⟩
  · exact .inl h
  · exact .inr (.inl h)
  · exact .inr (.inr (.inl h))
  · exact .inr (.inr (.inr ⟨htask, hstatus hcanceled⟩))

/-- Where a heeded CancelledError leaves the task. -/
theorem CommandTask.cancelled_of_heeds {task task' : CommandTask} (hheeds : task.heedsCancel = true)
    (h : task.cancelled = some task') : task' = .canceling ∨ task' = .closing .canceled := by
  obtain ⟨-, rfl | hcanceling⟩ := CommandTask.cancelled_cases h
  · cases task with
    | absent | unstarted | failing | canceling | done => cases hheeds
    | launching | communicating | killing | closing | completing => cases h
    | resuming inTry =>
        cases inTry with
        | true => cases h
        | false => cases hheeds
  · exact hcanceling

/-- **The cancelled task records the cancellation**, one step at a time; the
row is CANCELED from the commit on. -/
theorem Doomed.move {p p' : JobProgress} {status : WorkStatus} {move : TaskMove}
    (h : Doomed p status) (hmove : p.move move = some p')
    (hcommit : move = .committed → status = .canceled) : Doomed p' status := by
  unfold JobProgress.move at hmove
  split at hmove
  · rename_i hreq
    split at hmove
    · obtain ⟨task, htask, rfl⟩ := Option.map_eq_some_iff.mp hmove
      rcases h with ⟨-, hheeds⟩ | hclosing | ⟨-, hno⟩ | ⟨hlate, hcanceled⟩
      · rcases CommandTask.cancelled_of_heeds hheeds htask with rfl | rfl
        · exact .inr (.inr (.inl ⟨rfl, rfl⟩))
        · exact .inr (.inl rfl)
      · rw [hclosing] at htask
        obtain rfl := Option.some.inj htask
        exact .inr (.inr (.inl ⟨rfl, rfl⟩))
      · rw [hreq] at hno
        cases hno
      · obtain ⟨-, rfl | rfl | rfl⟩ := CommandTask.cancelled_cases htask
        · exact .inr (.inr (.inr ⟨.inr rfl, hcanceled⟩))
        · exact .inr (.inr (.inl ⟨rfl, rfl⟩))
        · exact .inr (.inl rfl)
    · cases hmove
  · rename_i hreq
    split at hmove
    case h_10 htask =>
      obtain rfl := Option.some.inj hmove
      exact .inr (.inr (.inl ⟨rfl, by simpa using hreq⟩))
    case h_13 htask =>
      obtain rfl := Option.some.inj hmove
      exact .inr (.inr (.inr ⟨.inl ⟨_, rfl⟩, hcommit rfl⟩))
    case h_14 b htask =>
      obtain rfl := Option.some.inj hmove
      rcases h with ⟨hno, -⟩ | hno | ⟨hno, -⟩ | ⟨-, hcanceled⟩
      · exact absurd hno hreq
      · cases htask.symm.trans hno
      · cases htask.symm.trans hno
      · exact .inr (.inr (.inr ⟨.inr rfl, hcanceled⟩))
    case h_4 htask | h_6 htask | h_1 htask | h_2 htask | h_3 htask | h_5 htask | h_7 htask
      | h_8 htask | h_9 htask | h_11 htask | h_12 htask =>
      rcases h with ⟨hno, -⟩ | hno | ⟨hno, -⟩ | ⟨⟨b, hno⟩ | hno, -⟩
      · exact absurd hno hreq
      · cases htask.symm.trans hno
      · cases htask.symm.trans hno
      · cases htask.symm.trans hno
      · cases htask.symm.trans hno
    case h_15 => cases hmove

/-- A doomed task that is done has recorded the cancellation. -/
theorem Doomed.done {p : JobProgress} {status : WorkStatus} (h : Doomed p status)
    (hdone : p.task = .done) : status = .canceled := by
  rcases h with ⟨-, hheeds⟩ | hno | ⟨hno, -⟩ | ⟨-, hcanceled⟩
  · rw [hdone] at hheeds
    cases hheeds
  · cases hdone.symm.trans hno
  · cases hdone.symm.trans hno
  · exact hcanceled

/-- **The turn of a job in the loop** dooms it, unless its task has not begun
or is failing the job. -/
theorem JobOk.doomed {p : JobProgress} {status : WorkStatus} {callId : Nat} (h : JobOk p status)
    (hentry : p.entry = .taken callId) (hstatus : status = .running ∨ status = .canceled)
    (hunstarted : p.task ≠ .unstarted) (hfailing : p.task ≠ .failing) :
    Doomed (p.cancelBy callId) status := by
  have hunpassed : ¬ ∃ c, p.entry = .passed c := by
    rintro ⟨c, hpassed⟩
    rw [hentry] at hpassed
    cases hpassed
  have hcanceled : status ≠ .running → status = .canceled := fun hne => hstatus.resolve_left hne
  cases htask : p.task with
  | absent => exact absurd htask (h.entered (by simp [hentry]))
  | unstarted => exact absurd htask hunstarted
  | failing => exact absurd htask hfailing
  | canceling => exact absurd (h.canceling (.inl htask)) hunpassed
  | launching | communicating | killing | closing | completing =>
      left
      simp only [JobProgress.cancelBy, htask]
      exact ⟨by simp [CommandTask.isLive], rfl⟩
  | resuming b =>
      exact .inr (.inr (.inr ⟨.inl ⟨b, htask⟩, hcanceled (h.recorded ⟨b, htask⟩)⟩))
  | done =>
      refine .inr (.inr (.inr ⟨.inr htask, hcanceled ?_⟩))
      exact fun hrunning => hunpassed (h.done htask hrunning)

/-! ### The row of a cancelled job -/

/-- A transaction that does nothing to the run but cancel it. -/
def Transaction.CancelsAtMost (runId : String) (t : Transaction) : Prop :=
  (∀ row status, row.runId = runId → t.settlesJob row = some status → status = .canceled) ∧
    t.wakes .sandboxAsyncJobFinished runId = false

theorem cancelsAtMost_scope (runId : String) (scope : CancelScope) :
    scope.transaction.CancelsAtMost runId := by
  cases scope with
  | run k =>
      refine ⟨fun row status _ h => ?_, rfl⟩
      simp only [CancelScope.transaction, Transaction.settlesJob] at h
      split at h
      · exact (Option.some.inj h).symm
      · cases h
  | agent sessionId agentInstanceId =>
      refine ⟨fun row status _ h => ?_, rfl⟩
      simp only [CancelScope.transaction, Transaction.settlesJob] at h
      split at h
      · exact (Option.some.inj h).symm
      · cases h
  | session sessionId =>
      refine ⟨fun row status _ h => ?_, rfl⟩
      simp only [CancelScope.transaction, Transaction.settlesJob] at h
      split at h
      · exact (Option.some.inj h).symm
      · cases h

/-- The transaction of another job. -/
theorem cancelsAtMost_other {runId : String} {r : AsyncCommandJob} (hne : r.runId ≠ runId)
    {move : TaskMove} {result : TaskResult} {t : Transaction}
    (h : r.transaction move result = some t) : t.CancelsAtMost runId := by
  have hother : ∀ {row : SandboxAsyncJob}, row.runId = runId →
      ¬ (row.runId = r.runId ∧ row.status = .running) :=
    fun hid hboth => hne (hboth.1.symm.trans hid)
  unfold AsyncCommandJob.transaction at h
  split at h
  · obtain rfl := Option.some.inj h
    refine ⟨fun row status hid hsettles => ?_, ?_⟩
    · rw [Transaction.settlesJob, if_neg (hother hid)] at hsettles
      cases hsettles
    · simp [Transaction.wakes, wakesRun, Ne.symm hne]
  · obtain rfl := Option.some.inj h
    refine ⟨fun row status hid hsettles => ?_, ?_⟩
    · rw [Transaction.settlesJob, if_neg (hother hid)] at hsettles
      cases hsettles
    · simp [Transaction.wakes, wakesRun, Ne.symm hne]
  · obtain rfl := Option.some.inj h
    refine ⟨fun row status hid hsettles => ?_, rfl⟩
    rw [Transaction.settlesJob, if_neg (hother hid)] at hsettles
    cases hsettles
  · cases h

/-- The transaction of the job itself, when it neither completes nor fails. -/
theorem cancelsAtMost_own (runId : String) {r : AsyncCommandJob} {move : TaskMove}
    {result : TaskResult} {t : Transaction} (h : r.transaction move result = some t)
    (hok : move = .committed → r.progress.task ≠ .completing ∧ r.progress.task ≠ .failing) :
    t.CancelsAtMost runId := by
  unfold AsyncCommandJob.transaction at h
  split at h
  · rename_i htask
    exact absurd htask (hok rfl).1
  · rename_i htask
    exact absurd htask (hok rfl).2
  · obtain rfl := Option.some.inj h
    refine ⟨fun row status _ hsettles => ?_, rfl⟩
    simp only [Transaction.settlesJob] at hsettles
    split at hsettles
    · exact (Option.some.inj hsettles).symm
    · cases hsettles
  · cases h

/-- **What commits while nothing crosses the cancellation.** -/
theorem uncrossed_transaction {s t : CommandState} {a : JobAction} {callId : Nat}
    {runId : String} (hok : Uncrossed callId runId s a t) {transaction : Transaction} {now : Time}
    (h : s.transactionOf a = some (transaction, now)) : transaction.CancelsAtMost runId := by
  cases a with
  | create request now' =>
      obtain ⟨rfl, rfl⟩ := Prod.mk.inj (Option.some.inj h)
      exact ⟨fun row status _ hno => (by cases hno), rfl⟩
  | task k move result now' =>
      obtain ⟨t', ht', heq⟩ := Option.map_eq_some_iff.mp h
      obtain ⟨rfl, rfl⟩ := Prod.mk.inj heq
      obtain ⟨r, hr, htransaction⟩ := Option.bind_eq_some_iff.mp ht'
      have hid : r.runId = k := (Table.get?_eq_some hr).2
      by_cases heq : k = runId
      · exact cancelsAtMost_own runId htransaction (fun hmove => hok heq hmove r (heq ▸ hr))
      · exact cancelsAtMost_other (hid ▸ heq) htransaction
  | record k now' =>
      obtain ⟨call, -, heq⟩ := Option.map_eq_some_iff.mp h
      obtain ⟨rfl, rfl⟩ := Prod.mk.inj heq
      exact cancelsAtMost_scope runId call.scope
  | spawn _ | register _ | abandon _ | exit _ | forget _ | request _ _ | select _ | cancel _ _
  | resume _ | gather _ => cases h

theorem uncrossed_settles {s t : CommandState} {a : JobAction} {callId : Nat} {runId : String}
    (hok : Uncrossed callId runId s a t) {row : SandboxAsyncJob} (hid : row.runId = runId)
    {status : WorkStatus} (h : s.settles a row = some status) : status = .canceled := by
  obtain ⟨⟨transaction, now⟩, hsome, hsettles⟩ := Option.bind_eq_some_iff.mp h
  exact (uncrossed_transaction hok hsome).1 row status hid hsettles

/-- The row after a step that nothing crosses. -/
theorem uncrossed_row {s t : CommandState} {a : JobAction} {callId : Nat} {runId : String}
    (hok : Uncrossed callId runId s a t) (hstep : commandStep s a = some t)
    {row : SandboxAsyncJob} (hget : s.db.jobs.get? runId = some row)
    (hstatus : row.status = .running ∨ row.status = .canceled) :
    ∃ row', t.db.jobs.get? runId = some row' ∧ row'.owner = row.owner ∧
      (row'.status = .running ∨ row'.status = .canceled) ∧
      (row.status = .canceled → row'.status = .canceled) ∧
      (s.settles a row ≠ none → row'.status = .canceled) := by
  obtain ⟨row', hget', howner, hafter⟩ := commandStep_row hstep hget
  have hid : row.runId = runId := (Table.get?_eq_some hget).2
  refine ⟨row', hget', howner, ?_⟩
  cases hsettles : s.settles a row with
  | none =>
      have hsame : row'.status = row.status := by rw [hafter, hsettles]; rfl
      exact ⟨by rw [hsame]; exact hstatus, fun hc => hsame.trans hc, fun hno => absurd rfl hno⟩
  | some status =>
      obtain rfl := uncrossed_settles hok hid hsettles
      have hcanceled : row'.status = .canceled := by rw [hafter, hsettles]; rfl
      exact ⟨.inr hcanceled, fun _ => hcanceled, fun _ => hcanceled⟩

/-- The notification of the run is not woken. -/
theorem uncrossed_asleep {s t : CommandState} {a : JobAction} {callId : Nat} {runId : String}
    (hok : Uncrossed callId runId s a t) (hstep : commandStep s a = some t)
    (h : ∀ n ∈ s.db.notifications.rows, n.kind = .sandboxAsyncJobFinished → n.runId = runId →
      n.status.isActiveCancelable = false) :
    ∀ n ∈ t.db.notifications.rows, n.kind = .sandboxAsyncJobFinished → n.runId = runId →
      n.status.isActiveCancelable = false := by
  intro n hn hkind hrun
  rcases commandStep_db hstep with ⟨-, hdb⟩ | ⟨transaction, now, hsome, hdb⟩
  · rw [hdb] at hn
    exact h n hn hkind hrun
  · rcases transactionOf_cases hsome with ⟨request, -, rfl⟩ | hends
    · obtain ⟨-, -, hrows⟩ := createAsyncJob_rows hdb
      rcases hrows n hn with hold | ⟨-, -, hawaiting, -⟩
      · exact h n hold hkind hrun
      · rw [hawaiting]
        rfl
    · have hupdated := transaction_updated (Transaction.creates_of_endsJobs hends) hdb
      obtain ⟨m, hm, hkept⟩ := hupdated.notifications.before (Table.mem_rows_iff_get?.mp hn)
      have hmkind : m.kind = .sandboxAsyncJobFinished := hkept.kind.symm.trans hkind
      have hmrun : m.runId = runId := hkept.runId.symm.trans hrun
      have hasleep := h m (Table.get?_eq_some hm).1 hmkind hmrun
      cases hactive : n.status.isActiveCancelable with
      | false => rfl
      | true =>
          rcases hkept.active hactive with hwas | ⟨-, hwakes⟩
          · rw [hasleep] at hwas
            cases hwas
          · rw [hmkind, hmrun, (uncrossed_transaction hok hsome).2] at hwakes
            cases hwakes

/-! ### The step lemma -/

/-- The job's turn has come or is past, and no run-wide cancellation is left. -/
theorem taken_change {s t : CommandState} {a : JobAction} {callId : Nat} {scope : CancelScope}
    {r : AsyncCommandJob} {p : JobProgress} {status status' : WorkStatus}
    (hok : Uncrossed callId r.runId s a t) (hjob : JobOk r.progress status)
    (hget : s.jobs.get? r.runId = some r) {phase : CancelPhase}
    (hcall : s.cancels.get? callId = some ⟨callId, scope, phase⟩)
    (hchange : ProgressChange s r a p) (hentry : r.progress.entry = .taken callId)
    (hstatus : status = .running ∨ status = .canceled)
    (hsettle : status = .canceled → status' = .canceled) :
    p.entry = .taken callId ∨ (p.entry = .passed callId ∧ (scope.isRun = true → Doomed p status')) := by
  have hstarted : ¬ (r.progress.start = .creating ∨ r.progress.start = .registering) := by
    intro hstart
    have habsent := hjob.unlisted hstart
    rw [hentry] at habsent
    cases habsent
  cases hchange with
  | kept => exact .inl hentry
  | spawned h =>
      unfold JobProgress.spawn at h
      split at h
      · rename_i hstart
        exact absurd (.inl hstart) hstarted
      · cases h
  | registered h =>
      unfold JobProgress.register at h
      split at h
      · rename_i hstart
        exact absurd (.inr hstart) hstarted
      · cases h
  | abandoned h =>
      unfold JobProgress.abandon at h
      split at h
      · rename_i hstart
        exact absurd hstart hstarted
      · cases h
  | exited h =>
      unfold JobProgress.exit at h
      split at h
      · obtain rfl := Option.some.inj h
        exact .inl hentry
      · cases h
  | forgotten h =>
      unfold JobProgress.forget at h
      split at h
      · rename_i hlisted
        cases hentry.symm.trans hlisted.2
      · cases h
  | moved h => exact .inl ((JobProgress.move_live h).2.trans hentry)
  | taken _ _ hlisted _ => cases hentry.symm.trans hlisted
  | canceled hentry' _ =>
      obtain rfl := JobEntry.taken.inj (hentry.symm.trans hentry')
      refine .inr ⟨rfl, fun hrun => ?_⟩
      obtain ⟨hunstarted, hfailing⟩ := hok rfl _ hcall hrun r hget
      exact (hjob.doomed hentry hstatus hunstarted hfailing).settle hsettle
  | resumed hentry' _ =>
      obtain rfl := JobEntry.taken.inj (hentry.symm.trans hentry')
      refine .inr ⟨rfl, fun hrun => ?_⟩
      obtain ⟨hunstarted, hfailing⟩ := hok rfl _ hcall hrun r hget
      exact (hjob.doomed hentry hstatus hunstarted hfailing).settle hsettle

/-- A job past its turn stays so, and doomed. -/
theorem passed_change {s : CommandState} {a : JobAction} {callId : Nat} {r : AsyncCommandJob}
    {p : JobProgress} {status status' : WorkStatus} (hjob : JobOk r.progress status)
    (hchange : ProgressChange s r a p) (hentry : r.progress.entry = .passed callId)
    (hsettle : status = .canceled → status' = .canceled)
    (hcommit : a.commits r.runId → status' = .canceled) :
    p.entry = .passed callId ∧ (Doomed r.progress status → Doomed p status') := by
  have hstarted : ¬ (r.progress.start = .creating ∨ r.progress.start = .registering) := by
    intro hstart
    have habsent := hjob.unlisted hstart
    rw [hentry] at habsent
    cases habsent
  cases hchange with
  | kept => exact ⟨hentry, fun h => h.settle hsettle⟩
  | spawned h =>
      unfold JobProgress.spawn at h
      split at h
      · rename_i hstart
        exact absurd (.inl hstart) hstarted
      · cases h
  | registered h =>
      unfold JobProgress.register at h
      split at h
      · rename_i hstart
        exact absurd (.inr hstart) hstarted
      · cases h
  | abandoned h =>
      unfold JobProgress.abandon at h
      split at h
      · rename_i hstart
        exact absurd hstart hstarted
      · cases h
  | exited h =>
      unfold JobProgress.exit at h
      split at h
      · obtain rfl := Option.some.inj h
        exact ⟨hentry, fun hd => hd.settle hsettle⟩
      · cases h
  | forgotten h =>
      unfold JobProgress.forget at h
      split at h
      · rename_i hlisted
        cases hentry.symm.trans hlisted.2
      · cases h
  | moved h =>
      exact ⟨(JobProgress.move_live h).2.trans hentry,
        fun hd => (hd.settle hsettle).move h (fun hm => hcommit ⟨rfl, hm⟩)⟩
  | taken _ _ hlisted _ => cases hentry.symm.trans hlisted
  | canceled hentry' _ => cases hentry.symm.trans hentry'
  | resumed hentry' _ => cases hentry.symm.trans hentry'

/-- The transaction at the end of a cancellation is for the rows of its jobs. -/
theorem scope_settles {scope : CancelScope} {r : AsyncCommandJob} {row : SandboxAsyncJob}
    (hselects : scope.selects r = true) (hid : row.runId = r.runId)
    (howner : row.owner = (r.sessionId, r.agentInstanceId)) (hrunning : row.status = .running) :
    scope.transaction.settlesJob row ≠ none := by
  obtain ⟨hsession, hagent⟩ := Prod.mk.inj howner
  cases scope with
  | run runId =>
      have hrun : r.runId = runId := of_decide_eq_true hselects
      rw [CancelScope.transaction, Transaction.settlesJob, if_pos ⟨hid.trans hrun, hrunning⟩]
      simp
  | agent sessionId agentInstanceId =>
      have howns : r.sessionId = sessionId ∧ r.agentInstanceId = agentInstanceId :=
        of_decide_eq_true hselects
      rw [CancelScope.transaction, Transaction.settlesJob, if_pos]
      · simp
      · simp [JobFilter.selects, matchesOption, hrunning, hsession, hagent, howns]
  | session sessionId =>
      have hown : r.sessionId = sessionId := of_decide_eq_true hselects
      rw [CancelScope.transaction, Transaction.settlesJob, if_pos]
      · simp
      · simp [JobFilter.selects, matchesOption, hrunning, hsession, hown]

/-- **One step of the cancellation and of its job.** -/
theorem OnItsWay.step {s t : CommandState} {a : JobAction} {callId : Nat} {scope : CancelScope}
    {phase phase' : CancelPhase} {r : AsyncCommandJob} {p : JobProgress}
    {status status' : WorkStatus} (h : OnItsWay callId scope r.progress status phase)
    (hok : Uncrossed callId r.runId s a t) (hjob : JobOk r.progress status)
    (hget : s.jobs.get? r.runId = some r)
    (hcall : s.cancels.get? callId = some ⟨callId, scope, phase⟩)
    (hselects : scope.selects r = true) (hchange : ProgressChange s r a p)
    (hphase : PhaseChange s ⟨callId, scope, phase⟩ a phase')
    (hstatus : status = .running ∨ status = .canceled)
    (hsettle : status = .canceled → status' = .canceled)
    (hcommit : a.commits r.runId → status' = .canceled)
    (hrecord : ∀ now, a = .record callId now → status' = .canceled) :
    OnItsWay callId scope p status' phase' := by
  have hmem : r ∈ s.jobs.rows := (Table.get?_eq_some hget).1
  have hspawn : phase ≠ .requested → a ≠ .spawn r.runId := by
    rintro hne rfl
    exact hne (hok rfl _ hcall)
  -- between the selection and the gathering
  have hbetween : (r.progress.entry = .taken callId ∨
      (r.progress.entry = .passed callId ∧ (scope.isRun = true → Doomed r.progress status)) ∨
      (scope.isRun = false ∧ r.progress.task.isLive = false)) → phase ≠ .requested →
      (p.entry = .taken callId ∨
        (p.entry = .passed callId ∧ (scope.isRun = true → Doomed p status')) ∨
        (scope.isRun = false ∧ p.task.isLive = false)) := by
    rintro (htaken | ⟨hpassed, hdoomed⟩ | ⟨hrun, hdead⟩) hne
    · rcases taken_change hok hjob hget hcall hchange htaken hstatus hsettle with hstill | hnow
      · exact .inl hstill
      · exact .inr (.inl hnow)
    · obtain ⟨hentry, hkeeps⟩ := passed_change hjob hchange hpassed hsettle hcommit
      exact .inr (.inl ⟨hentry, fun hrun => hkeeps (hdoomed hrun)⟩)
    · exact .inr (.inr ⟨hrun, hchange.not_live hdead (hspawn hne)⟩)
  cases hphase with
  | kept =>
      cases phase with
      | requested => trivial
      | canceling => exact hbetween h (by simp)
      | killing => exact hbetween h (by simp)
      | recording => exact hchange.not_live h (hspawn (by simp))
      | returned => exact ⟨hchange.not_live h.1 (hspawn (by simp)), hsettle h.2⟩
  | selected hrequested hsome =>
      have hfound := hok rfl r hget
      cases hchange with
      | kept _ hunselected =>
          rcases hfound with hlisted | hdead
          · rw [hunselected callId _ rfl hcall hlisted] at hselects
            cases hselects
          · refine .inr (.inr ⟨?_, hdead⟩)
            -- a single run selects no other job
            cases hrun : scope with
            | run runId =>
                obtain ⟨q, hq, hlisted, hq'⟩ := hsome
                obtain rfl : q = r := by
                  refine Table.eq_of_key_eq hq hmem ?_
                  simp only [hrun, CancelScope.selects, decide_eq_true_eq] at hq' hselects
                  exact hq'.trans hselects.symm
                rw [hunselected callId _ rfl hcall hlisted] at hq'
                cases hq'
            | agent sessionId agentInstanceId => rfl
            | session sessionId => rfl
      | taken hcall' hphase' hlisted hselects' => exact .inl rfl
  | unselected hrequested hnone =>
      rcases hok rfl r hget with hlisted | hdead
      · rw [hnone r hmem hlisted] at hselects
        cases hselects
      · exact hchange.not_live hdead (by simp)
  | killing hcanceling =>
      obtain rfl : phase = .canceling := hcanceling
      exact hbetween h (by simp)
  | resumed hkilling =>
      obtain rfl : phase = .killing _ := hkilling
      exact hbetween h (by simp)
  | gathered hcanceling hdone =>
      obtain rfl : phase = .canceling := hcanceling
      cases hchange with
      | kept =>
          have hrow := of_decide_eq_true (List.all_eq_true.mp hdone r hmem)
          have hdead : r.progress.task.isLive = false ∧
              (scope.isRun = true → status = .canceled) := by
            rcases h with htaken | ⟨hpassed, hdoomed⟩ | ⟨hrun, hdead⟩
            · exact absurd htaken hrow.1
            · have htask := hrow.2 hpassed
              exact ⟨by rw [htask]; rfl, fun hrun => (hdoomed hrun).done htask⟩
            · exact ⟨hdead, fun hyes => by rw [hrun] at hyes; cases hyes⟩
          cases hrun : scope.isRun with
          | true => exact ⟨hdead.1, hsettle (hdead.2 hrun)⟩
          | false => exact hdead.1
  | recorded hrecording =>
      obtain rfl : phase = .recording := hrecording
      exact ⟨hchange.not_live h (by simp), hrecord _ rfl⟩

/-- **The step lemma.** -/
theorem Outgoing.step {s t : CommandState} {a : JobAction} {callId : Nat} {scope : CancelScope}
    {runId : String} (h : Outgoing callId scope runId s) (hinv : CommandInv s)
    (hok : Uncrossed callId runId s a t) (hstep : commandStep s a = some t) :
    Outgoing callId scope runId t := by
  obtain ⟨r, row, phase, hget, hselects, hrow, hstatus, hcall, hstage⟩ := h.job
  refine ⟨?_, uncrossed_asleep hok hstep h.asleep⟩
  obtain rfl : r.runId = runId := (Table.get?_eq_some hget).2
  obtain ⟨owned, howned, howner, hjob⟩ := hinv.jobs _ r hget
  obtain rfl := Option.some.inj (howned.symm.trans hrow)
  obtain ⟨p, hp, hchange⟩ := commandStep_job hstep hget
  obtain ⟨phase', hphase', hmoves⟩ := commandStep_call hstep hcall
  obtain ⟨row', hrow', -, hstatus', hsettle, hsettled⟩ := uncrossed_row hok hstep hrow hstatus
  refine ⟨_, row', phase', hp, ?_, hrow', hstatus', hphase', ?_⟩
  · cases scope with
    | run runId => exact hselects
    | agent sessionId agentInstanceId => exact hselects
    | session sessionId => exact hselects
  refine hstage.step hok hjob hget hcall hselects hchange hmoves hstatus hsettle ?_ ?_
  · intro hcommits
    rcases hstatus with hrunning | hcanceled
    · exact hsettled (commits_settles hstep hget hrow hcommits hrunning)
    · exact hsettle hcanceled
  · rintro now rfl
    rcases hstatus with hrunning | hcanceled
    · refine hsettled ?_
      rw [CommandState.settles, CommandState.transactionOf, hcall]
      exact scope_settles hselects (Table.get?_eq_some hrow).2 howner hrunning
    · exact hsettle hcanceled

/-! ### Once it has returned -/

/-- The rows a cancellation is for. -/
def CancelScope.targets (scope : CancelScope) (row : SandboxAsyncJob) : Prop :=
  match scope with
  | .run runId => row.runId = runId
  | .agent sessionId agentInstanceId =>
      row.sessionId = sessionId ∧ row.agentInstanceId = agentInstanceId
  | .session sessionId => row.sessionId = sessionId

/-- Nothing of the job is left: its row is CANCELED, its notification neither
awaited nor woken, and neither a task nor a process of it runs. -/
structure CancelEffective (s : CommandState) (runId : String) : Prop where
  row : ∃ row, s.db.jobs.get? runId = some row ∧ row.status = .canceled
  notification : ∀ n ∈ s.db.notifications.rows, n.kind = .sandboxAsyncJobFinished →
    n.runId = runId → n.status ≠ .awaiting ∧ n.status ≠ .pending
  stopped : ∀ r, s.jobs.get? runId = some r →
    r.progress.task.isLive = false ∧ r.progress.process ≠ .running

/-- The request opens the cancellation of a RUNNING job. -/
theorem Outgoing.request {s t : CommandState} {callId : Nat} {scope : CancelScope}
    {runId : String} {row : SandboxAsyncJob} (hinv : CommandInv s)
    (hrow : s.db.jobs.get? runId = some row) (htargets : scope.targets row)
    (hrunning : row.status = .running) (hstep : commandStep s (.request callId scope) = some t) :
    Outgoing callId scope runId t := by
  obtain ⟨cancels, hinsert, rfl⟩ := Option.map_eq_some_iff.mp hstep
  obtain ⟨r, hget⟩ := hinv.running runId row hrow hrunning
  obtain ⟨owned, howned, howner, hjob⟩ := hinv.jobs runId r hget
  obtain rfl := Option.some.inj (howned.symm.trans hrow)
  obtain ⟨hsession, hagent⟩ := Prod.mk.inj howner
  refine ⟨⟨r, owned, .requested, hget, ?_, hrow, .inl hrunning, ?_, trivial⟩, ?_⟩
  · cases scope with
    | run k =>
        have hid : r.runId = runId := (Table.get?_eq_some hget).2
        exact decide_eq_true (hid.trans ((Table.get?_eq_some hrow).2.symm.trans htargets))
    | agent sessionId agentInstanceId =>
        exact decide_eq_true ⟨hsession.symm.trans htargets.1, hagent.symm.trans htargets.2⟩
    | session sessionId => exact decide_eq_true (hsession.symm.trans htargets)
  · rw [Table.get?_insert hinsert]
    exact if_pos rfl
  · rintro n hn hkind rfl
    cases hactive : n.status.isActiveCancelable with
    | false => rfl
    | true => exact absurd hrunning (hinv.quiet n hn hkind hactive owned hrow)

/-- What holds of a targeted job once the cancellation has returned. -/
theorem Outgoing.returned {s : CommandState} {callId : Nat} {scope : CancelScope} {runId : String}
    (h : Outgoing callId scope runId s) (hinv : CommandInv s) {call : CancelCall}
    (hcall : s.cancels.get? callId = some call) (hreturned : call.phase = .returned) :
    CancelEffective s runId := by
  obtain ⟨r, row, phase, hget, -, hrow, -, hcall', hstage⟩ := h.job
  obtain rfl := Option.some.inj (hcall.symm.trans hcall')
  obtain rfl : phase = .returned := hreturned
  obtain ⟨hdead, hcanceled⟩ := hstage
  refine ⟨⟨row, hrow, hcanceled⟩, ?_, ?_⟩
  · intro n hn hkind hrun
    have hasleep := h.asleep n hn hkind hrun
    constructor
    · intro hawaiting
      obtain ⟨row', hrow', hrunning⟩ := hinv.lockstep.jobs n hn hkind
      rw [hrun] at hrow'
      obtain rfl := Option.some.inj (hrow.symm.trans hrow')
      cases hcanceled.symm.trans (hrunning hawaiting)
    · intro hpending
      rw [hpending] at hasleep
      cases hasleep
  · intro r' hr'
    obtain rfl := Option.some.inj (hget.symm.trans hr')
    obtain ⟨row', -, -, hjob⟩ := hinv.jobs runId r hget
    refine ⟨hdead, hjob.stopped rfl ?_⟩
    cases htask : r.progress.task with
    | communicating | killing =>
        rw [htask] at hdead
        cases hdead
    | _ => rfl

theorem reachable_commandInv {s t : CommandState} {actions : List JobAction}
    (hstart : commandMachine.Start s) (hrun : exec commandMachine s actions = some t) :
    CommandInv t :=
  reachable_invariant (m := commandMachine) (fun _ hs => CommandInv.start hs)
    (fun _ _ _ hinv hstep => hinv.step hstep) ⟨s, actions, hstart, hrun⟩

/-- **Cancelling a command is effective.**  In every run, for every job that
is RUNNING when its cancellation is requested: if nothing crosses the
cancellation, then once it has returned the job is CANCELED, its notification
is neither AWAITING nor PENDING, and neither a task nor a process of it runs. -/
theorem command_cancel_effective {s asked t : CommandState} {before after : List JobAction}
    {callId : Nat} {scope : CancelScope} {runId : String} {row : SandboxAsyncJob}
    {call : CancelCall} (hstart : commandMachine.Start s)
    (hbefore : exec commandMachine s before = some asked)
    (hrow : asked.db.jobs.get? runId = some row) (htargets : scope.targets row)
    (hrunning : row.status = .running)
    (hrun : exec commandMachine asked (.request callId scope :: after) = some t)
    (hok : StepsMeet commandMachine (Uncrossed callId runId) asked
      (.request callId scope :: after))
    (hcall : t.cancels.get? callId = some call) (hreturned : call.phase = .returned) :
    CancelEffective t runId := by
  have hasked := reachable_commandInv hstart hbefore
  obtain ⟨next, hstep, hrest⟩ := exec_cons_some hrun
  have hfirst : commandStep asked (.request callId scope) = some next := hstep
  have hnext : CommandInv next ∧ Outgoing callId scope runId next :=
    ⟨hasked.step hfirst, .request hasked hrow htargets hrunning hfirst⟩
  have hend : CommandInv t ∧ Outgoing callId scope runId t :=
    exec_invariant (m := commandMachine) (C := Uncrossed callId runId)
      (I := fun s => CommandInv s ∧ Outgoing callId scope runId s)
      (fun _ _ _ hi hc hs => ⟨hi.1.step hs, hi.2.step hi.1 hc hs⟩) hnext (hok.tail hstep) hrest
  exact hend.2.returned hend.1 hcall hreturned

/-- A scan the main agent runs in the background. -/
def portScan : AsyncJobRequest :=
  { runId := "scan", obligationId := "o", sessionId := "s", agentCode := "main"
    agentInstanceId := "i", command := "nmap", outputFile := "scan.txt"
    nestedForAgentCode := "", nestedCallId := "", sandboxContainerId := some 1
    sandboxContainerGeneration := 0, sandboxSkillMetadata := [] }

/-- The scan is started and registered, its task has not begun. -/
def scanRegistered : List JobAction := [.create portScan 1, .spawn "scan", .register "scan"]

/-- The state once the process of the scan runs. -/
def scanRunning : CommandState :=
  (exec commandMachine {}
    (scanRegistered ++ [.task "scan" .begin {} 2, .task "scan" .launched {} 3])).getD {}

/-- The steps of a cancellation of the running scan. -/
def scanCanceled : List JobAction :=
  [.request 1 (.run "scan"), .select 1, .cancel 1 "scan", .exit "scan", .resume 1,
    .task "scan" .cancelled {} 4, .task "scan" .closed {} 5, .task "scan" .committed {} 6,
    .task "scan" .resumed {} 7, .gather 1]

/-- The scan is cancelled while its process runs, and leaves nothing. -/
theorem portScan_canceled :
    ∃ t, exec commandMachine scanRunning scanCanceled = some t ∧ CancelEffective t "scan" := by
  have hstart : commandMachine.Start {} :=
    ⟨rfl, rfl, Reachable.start rfl, fun row hrow => absurd hrow List.not_mem_nil⟩
  have hbefore : exec commandMachine {}
      (scanRegistered ++ [.task "scan" .begin {} 2, .task "scan" .launched {} 3]) =
        some scanRunning := rfl
  have hrow : scanRunning.db.jobs.get? "scan" = some (portScan.job 1) := rfl
  have hok : StepsMeet commandMachine (Uncrossed 1 "scan") scanRunning scanCanceled := by decide
  have htargets : CancelScope.targets (.run "scan") (portScan.job 1) := rfl
  refine ⟨_, rfl, ?_⟩
  exact command_cancel_effective hstart hbefore hrow htargets rfl rfl hok rfl rfl

/-- **A job cancelled before its first step stays RUNNING.**  The cancellation
of the single run returns; the task is done without having run a line, the row
is RUNNING and its notification AWAITING. -/
theorem unstarted_job_stays_running :
    ∃ asked t row call, exec commandMachine {} scanRegistered = some asked ∧
      asked.db.jobs.get? "scan" = some row ∧ row.status = .running ∧
      exec commandMachine asked [.request 1 (.run "scan"), .select 1, .cancel 1 "scan",
        .task "scan" .cancelled {} 2, .gather 1] = some t ∧
      t.cancels.get? 1 = some call ∧ call.phase = .returned ∧
      (t.db.jobs.get? "scan").map SandboxAsyncJob.status = some .running ∧
      t.db.notifications.rows.map AgentNotification.status = [.awaiting] ∧
      ¬ CancelEffective t "scan" := by
  refine ⟨_, _, _, _, rfl, rfl, rfl, rfl, rfl, rfl, rfl, rfl, ?_⟩
  intro heffective
  obtain ⟨row, hrow, hcanceled⟩ := heffective.row
  obtain rfl := Option.some.inj hrow
  cases hcanceled

end Workbench
