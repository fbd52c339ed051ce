import CyberWorkbench.SubtreeTeardown

/-!
# Boot recovery

`start_async_sandbox_runtime` and `start_subagent_runtime` run before anything
else: they fail the jobs and the runs that an earlier process left RUNNING,
put PROCESSING notifications back, and cancel the inbox of every run failed in
this very boot.  A run that some earlier transaction made terminal is not among
these, so its inbox stays.

`boot_recovers_iff`: from every reachable database, the state a crash leaves
between any two transactions, recovery leaves nothing RUNNING, AWAITING or
PROCESSING; and what is PENDING then targets a main agent exactly when every
outstanding notification of another instance had its run RUNNING at the crash.
-/

namespace Workbench

open KeyedTable PythonValues StepMachine

/-! ### The two start-up routines -/

/-- `start_async_sandbox_runtime`; `clock` gives the successive moments the
routine reads. -/
def startAsyncSandboxRuntime (clock : Nat → Time) (db : Database) : Option Database :=
  transactionMachine.step db ⟨.markStaleRunningAsyncJobsFailed, clock 0, clock 1⟩

/-- The loop of `start_subagent_runtime` over the snapshots of the runs it
failed. -/
def cancelStaleInboxes (clock : Nat → Time) :
    Nat → List AgentSubordinateTask → Database → Option Database
  | _, [], db => some db
  | i, task :: rest, db =>
      match transactionMachine.step db
          ⟨.cancelSessionNotifications task.sessionId subagentRestartError
            (some (subagentInstanceId task.runId)), clock i, clock i⟩ with
      | none => none
      | some db => cancelStaleInboxes clock (i + 1) rest db

/-- The runs `mark_stale_running_subagent_tasks_failed` selects. -/
def staleTasks (db : Database) : List AgentSubordinateTask :=
  (db.tasks.select (TaskFilter.selects {})).rows

/-- `start_subagent_runtime`. -/
def startSubagentRuntime (clock : Nat → Time) (db : Database) : Option Database :=
  match transactionMachine.step db ⟨.resetProcessingNotificationsAll, clock 2, clock 2⟩ with
  | none => none
  | some db =>
      match transactionMachine.step db
          ⟨.markStaleRunningSubagentTasksFailed, clock 3, clock 4⟩ with
      | none => none
      | some failed => cancelStaleInboxes clock 5 (staleTasks db) failed

/-- The recovery of a boot. -/
def bootRecovery (clock : Nat → Time) (db : Database) : Option Database :=
  match startAsyncSandboxRuntime clock db with
  | none => none
  | some db => startSubagentRuntime clock db

/-- What recovery is to leave. -/
structure Recovered (db : Database) : Prop where
  tasks : ∀ task ∈ db.tasks.rows, task.status ≠ .running
  jobs : ∀ job ∈ db.jobs.rows, job.status ≠ .running
  settled : ∀ n ∈ db.notifications.rows, n.status ≠ .awaiting ∧ n.status ≠ .processing
  pending : ∀ n ∈ db.notifications.rows, n.status = .pending →
    isMainAgentTarget n.targetAgentInstanceId = true

/-- The run whose inbox this is. -/
def AgentSubordinateTask.inbox (task : AgentSubordinateTask) : Owner :=
  (task.sessionId, subagentInstanceId task.runId)

/-- Whatever is outstanding for an instance other than a main agent belongs to
a run that is RUNNING. -/
def InboxesLive (db : Database) : Prop :=
  ∀ n ∈ db.notifications.rows, n.status.isOutstanding = true →
    isMainAgentTarget n.targetAgentInstanceId = false →
      ∃ task ∈ db.tasks.rows, task.status = .running ∧ n.owner = task.inbox

/-! ### What restarting does to a notification -/

/-- Kept, or put back to PENDING while it was outstanding. -/
structure Restarted (n n' : AgentNotification) : Prop where
  owner : n'.owner = n.owner
  status : n'.status = n.status ∨ (n.status.isOutstanding = true ∧ n'.status = .pending)

theorem Restarted.refl (n : AgentNotification) : Restarted n n := ⟨rfl, .inl rfl⟩

theorem Restarted.outstanding {n n' : AgentNotification} (h : Restarted n n') :
    n'.status.isOutstanding = n.status.isOutstanding := by
  rcases h.status with hsame | ⟨hout, hpending⟩
  · rw [hsame]
  · rw [hout, hpending]
    rfl

theorem Restarted.processing {n n' : AgentNotification} (h : Restarted n n')
    (hp : n'.status = .processing) : n.status = .processing := by
  rcases h.status with hsame | ⟨-, hpending⟩
  · exact hsame.symm.trans hp
  · rw [hpending] at hp
    cases hp

theorem Restarted.trans {a b c : AgentNotification} (h : Restarted a b) (h' : Restarted b c) :
    Restarted a c := by
  refine ⟨h'.owner.trans h.owner, ?_⟩
  rcases h'.status with hsame | ⟨hout, hpending⟩
  · rw [hsame]
    exact h.status
  · exact .inr ⟨h.outstanding.symm.trans hout, hpending⟩

variable {ρ : Type} {key : ρ → String}

/-- A bulk writer that wakes owners restarts the notifications it resolves. -/
theorem resolveLoaded_restarts (K : WorkKind ρ key) (b : BulkSettlement K) (hb : b.ready = true)
    (resolvedAt : Time) (loaded : List ρ) (ns : NotificationTable) :
    ns.Rowwise Restarted (loaded.foldl (fun ns l => resolveLoaded K b resolvedAt l ns) ns) := by
  induction loaded generalizing ns with
  | nil => exact Table.Rowwise.refl Restarted.refl ns
  | cons l rest ih =>
      have hone : ns.Rowwise Restarted (resolveLoaded K b resolvedAt l ns) := by
        refine (resolveObligation_rowwise K.obligation (key l) b.ready _ b.error resolvedAt
          ns).mono ?_
        rintro _ n n' - (rfl | ⟨-, hawaiting, rfl⟩)
        · exact Restarted.refl n'
        · refine ⟨rfl, .inr ⟨by rw [hawaiting]; rfl, ?_⟩⟩
          rw [resolvedObligation_status, hb]
          rfl
      exact hone.trans (ih _) (fun _ _ _ => Restarted.trans)

/-- What a start-up transaction on background work leaves of the tables. -/
theorem staleWork_restarts (K : WorkKind ρ key) (b : BulkSettlement K) (hb : b.ready = true)
    (resolvedAt : Time) (loaded : List ρ) (work : Table ρ key) (ns : NotificationTable) :
    ns.Rowwise Restarted (settleLoadedWrite K b resolvedAt loaded work ns).2 := by
  rw [settleLoadedWrite_eq]
  exact resolveLoaded_restarts K b hb resolvedAt loaded ns

/-- `reset_processing_notifications_all` puts PROCESSING rows back. -/
theorem resetProcessing_restarts (now : Time) (ns : NotificationTable) :
    ns.Rowwise (fun n n' => Restarted n n' ∧ n'.status ≠ .processing)
      ((resetProcessingWrite now).run (ns.select isProcessing).rows ns) := by
  refine ((resetProcessingWrite now).rowwise (ns.select isProcessing).keysDistinct ns).mono ?_
  rintro k n n' hget (⟨rfl, hno⟩ | ⟨l, hl, hid, rfl⟩)
  · refine ⟨Restarted.refl n', fun hp => ?_⟩
    exact hno n' (Table.mem_select.mpr ⟨(Table.get?_eq_some hget).1, by simpa [isProcessing] using hp⟩)
      rfl
  · obtain ⟨hmem, hprocessing⟩ := Table.mem_select.mp hl
    obtain rfl : l = n := Table.eq_of_key_eq hmem (Table.get?_eq_some hget).1 hid
    have hstatus : ((resetProcessingWrite now).write l l).status = .pending := by
      rw [NotificationBulkWrite.setsStatus, writtenField_unchanged]
      rfl
    rw [isProcessing, decide_eq_true_eq] at hprocessing
    refine ⟨⟨rfl, .inr ⟨by rw [hprocessing]; rfl, hstatus⟩⟩, ?_⟩
    rw [hstatus]
    simp

/-! ### Clearing the inboxes of the stale runs -/

/-- One inbox cancelled: its outstanding rows are CANCELED, the others kept. -/
structure InboxCanceled (owner : Owner) (n n' : AgentNotification) : Prop where
  kept : n.owner ≠ owner ∨ n.status.isOutstanding = false → n' = n
  canceled : n.owner = owner → n.status.isOutstanding = true → n'.status = .canceled

theorem cancelSessionNotifications_canceled (sessionId error instanceId : String) (now : Time)
    (ns : NotificationTable) :
    ns.Rowwise (InboxCanceled (sessionId, instanceId))
      (cancelNotifications (cancelSessionFilter sessionId (some instanceId)) error now ns) := by
  have hselects : ∀ n : AgentNotification,
      (cancelSessionFilter sessionId (some instanceId)).selects n =
        (decide (n.owner = (sessionId, instanceId)) && n.status.isOutstanding) := by
    intro n
    simp only [CancelFilter.selects, cancelSessionFilter, matchesOption, AgentNotification.owner,
      Prod.mk.injEq, Bool.not_false, Bool.true_or, Bool.and_true, Bool.decide_and]
    by_cases hs : n.sessionId = sessionId <;> by_cases ht : n.targetAgentInstanceId = instanceId <;>
      simp [hs, ht]
  refine (cancelNotifications_rowwise _ error now ns).mono ?_
  rintro _ n n' - (⟨hno, rfl⟩ | ⟨hyes, hcanceled⟩)
  · refine ⟨fun _ => rfl, fun howner hout => ?_⟩
    rw [hselects, howner, hout] at hno
    simp at hno
  · rw [hselects, Bool.and_eq_true, decide_eq_true_eq] at hyes
    refine ⟨?_, fun _ _ => hcanceled⟩
    rintro (hne | hnot)
    · exact absurd hyes.1 hne
    · rw [hyes.2] at hnot
      cases hnot

/-- The loop over the stale runs: their inboxes are cleared, the rest is kept. -/
theorem cancelStaleInboxes_spec (clock : Nat → Time) (stale : List AgentSubordinateTask) (i : Nat)
    (db : Database) :
    ∃ db', cancelStaleInboxes clock i stale db = some db' ∧ db'.tasks = db.tasks ∧
      db'.jobs = db.jobs ∧
      (∀ n' ∈ db'.notifications.rows, n'.status = .canceled ∨
        (n' ∈ db.notifications.rows ∧ ∀ task ∈ stale, n'.owner = task.inbox →
          n'.status.isOutstanding = false)) ∧
      ∀ n ∈ db.notifications.rows, (∀ task ∈ stale, n.owner ≠ task.inbox) →
        n ∈ db'.notifications.rows := by
  induction stale generalizing i db with
  | nil =>
      exact ⟨db, rfl, rfl, rfl, fun n' hn' => .inr ⟨hn', fun _ h => by simp at h⟩,
        fun n hn _ => hn⟩
  | cons task rest ih =>
      have hrow := cancelSessionNotifications_canceled task.sessionId subagentRestartError
        (subagentInstanceId task.runId) (clock i) db.notifications
      obtain ⟨db', hloop, htasks, hjobs, hafter, hkept⟩ := ih (i + 1)
        (db.withNotifications (cancelNotifications
          (cancelSessionFilter task.sessionId (some (subagentInstanceId task.runId)))
          subagentRestartError (clock i) db.notifications))
      refine ⟨db', hloop, htasks, hjobs, ?_, ?_⟩
      · intro n' hn'
        rcases hafter n' hn' with hcanceled | ⟨hmem, hrest⟩
        · exact .inl hcanceled
        · obtain ⟨n, hget, hinbox⟩ := hrow.before (Table.mem_rows_iff_get?.mp hmem)
          by_cases hhit : n.owner = task.inbox ∧ n.status.isOutstanding = true
          · exact .inl (hinbox.canceled hhit.1 hhit.2)
          · have hsame : n' = n := by
              refine hinbox.kept ?_
              by_cases howner : n.owner = task.inbox
              · exact .inr (Bool.eq_false_iff.mpr fun hout => hhit ⟨howner, hout⟩)
              · exact .inl howner
            subst hsame
            refine .inr ⟨(Table.get?_eq_some hget).1, ?_⟩
            intro other hother howner
            rcases List.mem_cons.mp hother with rfl | hlater
            · exact Bool.eq_false_iff.mpr fun hout => hhit ⟨howner, hout⟩
            · exact hrest other hlater howner
      · intro n hn hnone
        refine hkept n ?_ (fun other hother => hnone other (List.mem_cons_of_mem _ hother))
        obtain ⟨n', hn', hinbox⟩ := hrow.after (Table.mem_rows_iff_get?.mp hn)
        have hsame := hinbox.kept (.inl (hnone task List.mem_cons_self))
        subst hsame
        exact (Table.get?_eq_some hn').1

/-! ### The whole recovery -/

theorem mem_staleTasks {db : Database} {task : AgentSubordinateTask} :
    task ∈ staleTasks db ↔ task ∈ db.tasks.rows ∧ task.status = .running := by
  unfold staleTasks
  rw [Table.mem_select]
  simp [TaskFilter.selects, matchesOption]

/-- `start_async_sandbox_runtime` leaves no job RUNNING. -/
theorem startAsyncSandboxRuntime_spec {clock : Nat → Time} {db : Database} (hl : Lockstep db)
    (ho : Owned db) :
    ∃ db', startAsyncSandboxRuntime clock db = some db' ∧ Lockstep db' ∧ Owned db' ∧
      db'.tasks = db.tasks ∧ (∀ job ∈ db'.jobs.rows, job.status ≠ .running) ∧
      db.notifications.Rowwise Restarted db'.notifications := by
  have hstep : transactionMachine.step db ⟨.markStaleRunningAsyncJobsFailed, clock 0, clock 1⟩ =
      some (db.withJobs (settleLoadedWrite asyncJobWork (markStaleRunningAsyncJobsFailed (clock 0))
        (clock 1) (db.jobs.select (JobFilter.selects {})).rows db.jobs db.notifications)) := rfl
  refine ⟨_, hstep, (transaction_lockstep hl hstep).1, transaction_owned hl ho hstep, rfl, ?_,
    staleWork_restarts asyncJobWork _ rfl _ _ _ _⟩
  intro job hjob hrunning
  obtain ⟨-, hunselected⟩ := settleLoadedWrite_sweeps asyncJobWork _ _ _ hl.onePerRun hjob hrunning
  simp [JobFilter.selects, matchesOption, hrunning] at hunselected

/-- `reset_processing_notifications_all` leaves nothing PROCESSING. -/
theorem resetProcessing_spec {now : Time} {db : Database} (hl : Lockstep db) (ho : Owned db) :
    ∃ db', transactionMachine.step db ⟨.resetProcessingNotificationsAll, now, now⟩ = some db' ∧
      Lockstep db' ∧ Owned db' ∧ db'.tasks = db.tasks ∧ db'.jobs = db.jobs ∧
      db.notifications.Rowwise (fun n n' => Restarted n n' ∧ n'.status ≠ .processing)
        db'.notifications := by
  have hstep : transactionMachine.step db ⟨.resetProcessingNotificationsAll, now, now⟩ =
      some (db.withNotifications ((resetProcessingWrite now).run
        (db.notifications.select isProcessing).rows db.notifications)) := rfl
  exact ⟨_, hstep, (transaction_lockstep hl hstep).1, transaction_owned hl ho hstep, rfl, rfl,
    resetProcessing_restarts now db.notifications⟩

/-- `mark_stale_running_subagent_tasks_failed` leaves no run RUNNING. -/
theorem markStaleTasks_spec {now resolvedAt : Time} {db : Database} (hl : Lockstep db)
    (ho : Owned db) :
    ∃ db', transactionMachine.step db
        ⟨.markStaleRunningSubagentTasksFailed, now, resolvedAt⟩ = some db' ∧
      Lockstep db' ∧ Owned db' ∧ db'.jobs = db.jobs ∧
      (∀ task ∈ db'.tasks.rows, task.status ≠ .running) ∧
      db.notifications.Rowwise Restarted db'.notifications := by
  have hstep : transactionMachine.step db
      ⟨.markStaleRunningSubagentTasksFailed, now, resolvedAt⟩ =
      some (db.withTasks (settleLoadedWrite subagentWork
        (markStaleRunningSubagentTasksFailed now) resolvedAt
        (db.tasks.select (TaskFilter.selects {})).rows db.tasks db.notifications)) := rfl
  refine ⟨_, hstep, (transaction_lockstep hl hstep).1, transaction_owned hl ho hstep, rfl, ?_,
    staleWork_restarts subagentWork _ rfl _ _ _ _⟩
  intro task htask hrunning
  obtain ⟨-, hunselected⟩ :=
    settleLoadedWrite_sweeps subagentWork _ _ _ hl.onePerRun htask hrunning
  simp [TaskFilter.selects, matchesOption, hrunning] at hunselected

/-- Where nothing is RUNNING nothing is awaited. -/
theorem Lockstep.not_awaiting {db : Database} (hl : Lockstep db) (ho : Owned db)
    (htasks : ∀ task ∈ db.tasks.rows, task.status ≠ .running)
    (hjobs : ∀ job ∈ db.jobs.rows, job.status ≠ .running) :
    ∀ n ∈ db.notifications.rows, n.status ≠ .awaiting := by
  intro n hn hawaiting
  cases hkind : n.kind with
  | subagentFinished =>
      obtain ⟨task, hget, hrunning⟩ := hl.tasks n hn hkind
      exact htasks task (Table.get?_eq_some hget).1 (hrunning hawaiting)
  | sandboxAsyncJobFinished =>
      obtain ⟨job, hget, hrunning⟩ := hl.jobs n hn hkind
      exact hjobs job (Table.get?_eq_some hget).1 (hrunning hawaiting)
  | userMessage => exact ho.messages n hn hkind hawaiting

/-- **What a boot leaves of a database in lockstep.** -/
theorem bootRecovery_spec (clock : Nat → Time) {db : Database} (hl : Lockstep db)
    (ho : Owned db) :
    ∃ db', bootRecovery clock db = some db' ∧ (Recovered db' ↔ InboxesLive db) := by
  obtain ⟨afterJobs, hstep1, hl1, ho1, htasks1, hjobs1, hns1⟩ :=
    @startAsyncSandboxRuntime_spec clock _ hl ho
  obtain ⟨afterReset, hstep2, hl2, ho2, htasks2, hjobs2, hns2⟩ :=
    @resetProcessing_spec (clock 2) _ hl1 ho1
  obtain ⟨failed, hstep3, hl3, ho3, hjobs3, htasks3, hns3⟩ :=
    @markStaleTasks_spec (clock 3) (clock 4) _ hl2 ho2
  obtain ⟨recovered, hstep4, htasks4, hjobs4, hafter, hkept⟩ :=
    cancelStaleInboxes_spec clock (staleTasks afterReset) 5 failed
  have hrun : bootRecovery clock db = some recovered := by
    simp only [bootRecovery, hstep1, startSubagentRuntime, hstep2, hstep3, hstep4]
  have hjobsDone : ∀ job ∈ failed.jobs.rows, job.status ≠ .running := by
    rw [hjobs3, hjobs2]
    exact hjobs1
  have hstale : ∀ task, task ∈ staleTasks afterReset ↔
      task ∈ db.tasks.rows ∧ task.status = .running := by
    intro task
    rw [mem_staleTasks, htasks2, htasks1]
  have hrestarted : db.notifications.Rowwise Restarted failed.notifications :=
    (hns1.trans (hns2.mono (fun _ _ _ _ h => h.1)) (fun _ _ _ => Restarted.trans)).trans hns3
      (fun _ _ _ => Restarted.trans)
  have hsettled : ∀ n ∈ failed.notifications.rows, n.status ≠ .awaiting ∧ n.status ≠ .processing := by
    intro n hn
    refine ⟨hl3.not_awaiting ho3 htasks3 hjobsDone n hn, fun hp => ?_⟩
    obtain ⟨before, hget, hr⟩ := hns3.before (Table.mem_rows_iff_get?.mp hn)
    obtain ⟨-, -, -, hnot⟩ := hns2.before hget
    exact hnot (hr.processing hp)
  refine ⟨recovered, hrun, ?_, ?_⟩
  · intro hrecovered n hn hout hmain
    obtain ⟨after, hget, hr⟩ := hrestarted.after (Table.mem_rows_iff_get?.mp hn)
    have hafterMem := (Table.get?_eq_some hget).1
    by_cases hlive : ∃ task ∈ db.tasks.rows, task.status = .running ∧ n.owner = task.inbox
    · exact hlive
    · exfalso
      have hpresent := hkept after hafterMem (fun task htask howner =>
        hlive ⟨task, ((hstale task).mp htask).1, ((hstale task).mp htask).2,
          hr.owner.symm.trans howner⟩)
      have hpending : after.status = .pending := by
        have hopen := hr.outstanding.trans hout
        obtain ⟨hna, hnp⟩ := hsettled after hafterMem
        cases hstatus : after.status with
        | pending => rfl
        | awaiting => exact absurd hstatus hna
        | processing => exact absurd hstatus hnp
        | completed | failed | canceled => rw [hstatus] at hopen; cases hopen
      have hto := hrecovered.pending after hpresent hpending
      rw [(Prod.mk.inj hr.owner).2, hmain] at hto
      cases hto
  · intro hlive
    refine ⟨?_, ?_, ?_, ?_⟩
    · rw [htasks4]
      exact htasks3
    · rw [hjobs4]
      exact hjobsDone
    · intro n hn
      rcases hafter n hn with hcanceled | ⟨hold, -⟩
      · rw [hcanceled]
        exact ⟨by simp, by simp⟩
      · exact hsettled n hold
    · intro n hn hpending
      rcases hafter n hn with hcanceled | ⟨hold, hcleared⟩
      · rw [hcanceled] at hpending
        cases hpending
      · cases hmain : isMainAgentTarget n.targetAgentInstanceId with
        | true => rfl
        | false =>
            obtain ⟨before, hget, hr⟩ := hrestarted.before (Table.mem_rows_iff_get?.mp hold)
            have hout : before.status.isOutstanding = true := by
              rw [← hr.outstanding, hpending]
              rfl
            obtain ⟨task, htask, hrunning, howner⟩ := hlive before (Table.get?_eq_some hget).1 hout
              (by rw [← (Prod.mk.inj hr.owner).2]; exact hmain)
            have hclosed := hcleared task ((hstale task).mpr ⟨htask, hrunning⟩)
              (hr.owner.trans howner)
            rw [hpending] at hclosed
            cases hclosed

/-- Every reachable database has its obligations in the inboxes of their owners. -/
theorem reachable_owned {db : Database} (h : Reachable transactionMachine db) :
    Lockstep db ∧ Owned db := by
  refine reachable_invariant (m := transactionMachine) (I := fun db => Lockstep db ∧ Owned db)
    ?_ ?_ h
  · rintro _ rfl
    exact ⟨lockstep_empty, teardownInv_start.owned⟩
  · exact fun _ _ _ hi hstep =>
      ⟨(transaction_lockstep hi.1 hstep).1, transaction_owned hi.1 hi.2 hstep⟩

/-- **Boot recovery after a crash.**  From every database the transactions of
the runtime reach, recovery runs to its end, and what it leaves is recovered
exactly when whatever was outstanding for an instance other than a main agent
belonged to a run still RUNNING. -/
theorem boot_recovers_iff {db : Database} (h : Reachable transactionMachine db)
    (clock : Nat → Time) :
    ∃ db', bootRecovery clock db = some db' ∧ (Recovered db' ↔ InboxesLive db) :=
  bootRecovery_spec clock (reachable_owned h).1 (reachable_owned h).2

/-- A run, with a job of its own, when the process dies. -/
def crashedRun : List TransactionStep :=
  [⟨.createSubagentTask (crashDelegation "r"), 1, 1⟩, ⟨.createAsyncJob crashJob, 2, 2⟩]
where
  crashDelegation (runId : String) : SubagentTaskRequest :=
    { runId := runId
      obligationId := runId
      sessionId := "s"
      parentAgentCode := "planner"
      parentAgentInstanceId := "main:s:1:planner"
      agentCode := "scout"
      agentName := "Scout"
      brief := "look around"
      nestedCallId := "c"
      ownerId := 1 }
  crashJob : AsyncJobRequest :=
    { runId := "j"
      obligationId := "j"
      sessionId := "s"
      agentCode := "scout"
      agentInstanceId := "subagent:r"
      command := "sleep 60"
      outputFile := "out.txt"
      nestedForAgentCode := "planner"
      nestedCallId := "c"
      sandboxContainerId := some 1
      sandboxContainerGeneration := 1
      sandboxSkillMetadata := [] }

theorem boot_recovers_crashedRun :
    ∃ db, exec transactionMachine Database.empty crashedRun = some db ∧
      ∃ db', bootRecovery id db = some db' ∧ (Recovered db' ↔ InboxesLive db) :=
  ⟨_, rfl, boot_recovers_iff ⟨_, crashedRun, rfl, rfl⟩ id⟩

/-- The boot after the crash dies too, before it has cancelled the inboxes. -/
def crashedRecovery : List TransactionStep :=
  crashedRun ++ [⟨.markStaleRunningAsyncJobsFailed, 3, 3⟩,
    ⟨.resetProcessingNotificationsAll, 4, 4⟩, ⟨.markStaleRunningSubagentTasksFailed, 5, 5⟩]

/-- **A crash inside recovery hides the inboxes from the next boot.**  The run
is FAILED by then, so nothing cancels what its job left PENDING for it. -/
theorem crashed_recovery_leaves_inbox :
    ∃ db db', exec transactionMachine Database.empty crashedRecovery = some db ∧
      bootRecovery id db = some db' ∧ ¬ Recovered db' := by
  have hrun : ∃ db db', exec transactionMachine Database.empty crashedRecovery = some db ∧
      bootRecovery id db = some db' ∧
      db'.notifications.rows.map (fun n => (n.targetAgentInstanceId, n.status)) =
        [("main:s:1:planner", .pending), ("subagent:r", .pending)] := ⟨_, _, rfl, rfl, rfl⟩
  obtain ⟨db, db', hexec, hboot, hrows⟩ := hrun
  refine ⟨db, db', hexec, hboot, fun hrecovered => ?_⟩
  have hmem : ("subagent:r", NotificationStatus.pending) ∈
      db'.notifications.rows.map (fun n => (n.targetAgentInstanceId, n.status)) := by
    rw [hrows]
    exact List.mem_cons_of_mem _ List.mem_cons_self
  obtain ⟨n, hn, heq⟩ := List.mem_map.mp hmem
  obtain ⟨htarget, hstatus⟩ := Prod.mk.inj heq
  have hmain := hrecovered.pending n hn hstatus
  rw [htarget] at hmain
  revert hmain
  decide

end Workbench
