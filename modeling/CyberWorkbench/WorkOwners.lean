import CyberWorkbench.ObligationLockstep

/-!
# Whose work it is

Background work and notifications belong to an agent instance of a session:
the parent of a delegated run, the agent that started a job, the target of a
notification.  Creation writes the owner and no transaction changes it; an
obligation has the owner of its run.

Every transaction either inserts one row (`creates`) or changes rows where
they stand, and then a notification becomes PENDING only where it was active
before or where an outcome wakes its owner (`wakes`).  `sweeps_tasks`,
`sweeps_jobs` and `sweeps_notifications` say what the three bulk cancellations
leave behind.
-/

namespace Workbench

open KeyedTable PythonValues StepMachine

variable {ρ : Type} {key : ρ → String}

/-! ### Owners -/

/-- A session and an agent instance of it. -/
abbrev Owner := String × String

/-- The parent of a run. -/
def AgentSubordinateTask.owner (task : AgentSubordinateTask) : Owner :=
  (task.sessionId, task.parentAgentInstanceId)

/-- The agent that started a job. -/
def SandboxAsyncJob.owner (job : SandboxAsyncJob) : Owner :=
  (job.sessionId, job.agentInstanceId)

/-- Whose inbox a notification lies in. -/
def AgentNotification.owner (n : AgentNotification) : Owner :=
  (n.sessionId, n.targetAgentInstanceId)

/-! ### Row changes -/

/-- A work row keeps its owner and is not RUNNING anew. -/
structure WorkKept (K : WorkKind ρ key) (owner : ρ → Owner) (r r' : ρ) : Prop where
  owner : owner r' = owner r
  running : K.status r' = .running → K.status r = .running

theorem WorkKept.refl (K : WorkKind ρ key) (owner : ρ → Owner) (r : ρ) :
    WorkKept K owner r r := ⟨rfl, id⟩

/-- A notification keeps its run and its owner, is not outstanding anew, and
becomes PENDING from AWAITING only for an outcome that wakes its owner. -/
structure NotificationKept (wakes : NotificationKind → String → Bool)
    (n n' : AgentNotification) : Prop where
  kind : n'.kind = n.kind
  runId : n'.runId = n.runId
  owner : n'.owner = n.owner
  awaiting : n'.status = .awaiting → n.status = .awaiting
  active : n'.status.isActiveCancelable = true → n.status.isActiveCancelable = true ∨
    (n.status = .awaiting ∧ wakes n.kind n.runId = true)

theorem NotificationKept.refl (wakes : NotificationKind → String → Bool) (n : AgentNotification) :
    NotificationKept wakes n n := ⟨rfl, rfl, rfl, id, .inl⟩

theorem NotificationKept.trans {wakes : NotificationKind → String → Bool}
    {a b c : AgentNotification} (h : NotificationKept wakes a b) (h' : NotificationKept wakes b c) :
    NotificationKept wakes a c := by
  refine ⟨h'.kind.trans h.kind, h'.runId.trans h.runId, h'.owner.trans h.owner,
    fun hc => h.awaiting (h'.awaiting hc), ?_⟩
  intro hc
  rcases h'.active hc with hb | ⟨hb, hwakes⟩
  · exact h.active hb
  · rw [h.kind, h.runId] at hwakes
    exact .inr ⟨h.awaiting hb, hwakes⟩

/-- Fewer wake-ups are wake-ups. -/
theorem NotificationKept.mono {wakes wakes' : NotificationKind → String → Bool}
    {n n' : AgentNotification} (h : NotificationKept wakes n n')
    (hle : ∀ kind runId, wakes kind runId = true → wakes' kind runId = true) :
    NotificationKept wakes' n n' :=
  ⟨h.kind, h.runId, h.owner, h.awaiting,
    fun hactive => (h.active hactive).imp id (fun hw => ⟨hw.1, hle _ _ hw.2⟩)⟩

/-- Outstanding is awaiting or active. -/
theorem NotificationStatus.isOutstanding_iff {s : NotificationStatus} :
    s.isOutstanding = true ↔ s = .awaiting ∨ s.isActiveCancelable = true := by
  cases s <;> simp [isOutstanding, isActiveCancelable]

/-- The outcomes that wake the owner of one run. -/
def wakesRun (kind : NotificationKind) (runId : String) (ready : Bool)
    (kind' : NotificationKind) (runId' : String) : Bool :=
  ready && (decide (kind' = kind) && decide (runId' = runId))

theorem resolveObligation_kept (kind : NotificationKind) (runId : String) (ready : Bool)
    (payload : Option Dict) (error : String) (now : Time) (ns : NotificationTable) :
    ns.Rowwise (NotificationKept (wakesRun kind runId ready))
      (resolveObligationInSession kind runId ready payload error now ns) := by
  refine (resolveObligation_rowwise kind runId ready payload error now ns).mono ?_
  rintro _ n n' - (rfl | ⟨hof, hawaiting, rfl⟩)
  · exact NotificationKept.refl _ n'
  · refine ⟨rfl, rfl, rfl, fun _ => hawaiting, ?_⟩
    intro hactive
    cases hready : ready with
    | false =>
        rw [resolvedObligation_status, hready] at hactive
        cases hactive
    | true => exact .inr ⟨hawaiting, hof⟩

/-- A finisher keeps the rows and wakes the owner of its own run at most. -/
theorem finishWorkWrite_kept (K : WorkKind ρ key) (owner : ρ → Owner) (runId : String)
    (s : Settlement K) (hs : ∀ r, owner (s.set r) = owner r) (resolvedAt : Time)
    (work : Table ρ key) (ns : NotificationTable) :
    work.Rowwise (WorkKept K owner) (finishWorkWrite K runId s resolvedAt work ns).1 ∧
      ns.Rowwise (NotificationKept (wakesRun K.obligation runId s.outcome.wakesOwner))
        (finishWorkWrite K runId s resolvedAt work ns).2 := by
  unfold finishWorkWrite
  split
  · exact ⟨Table.Rowwise.refl (WorkKept.refl K owner) work,
      Table.Rowwise.refl (NotificationKept.refl _) ns⟩
  · refine ⟨?_, resolveObligation_kept _ _ _ _ _ _ ns⟩
    refine (Table.rowwise_updateWhere _ _ _ s.keepsKey).mono ?_
    intro _ r r' _ hr'
    split at hr'
    · obtain rfl := hr'
      refine ⟨hs r, ?_⟩
      intro hrunning
      have hterminal := s.outcomeTerminal
      rw [← s.setsStatus r, hrunning] at hterminal
      cases hterminal
    · rw [hr']
      exact WorkKept.refl K owner r

/-- A bulk writer keeps the rows and wakes owners only with a waking outcome. -/
theorem settleLoadedWrite_kept (K : WorkKind ρ key) (owner : ρ → Owner) (b : BulkSettlement K)
    (hb : ∀ l r, owner (b.write l r) = owner r) (resolvedAt : Time) {loaded : List ρ}
    (hnd : (loaded.map key).Nodup) (work : Table ρ key) (ns : NotificationTable) :
    work.Rowwise (WorkKept K owner) (settleLoadedWrite K b resolvedAt loaded work ns).1 ∧
      ns.Rowwise (NotificationKept (fun kind _ => b.ready && decide (kind = K.obligation)))
        (settleLoadedWrite K b resolvedAt loaded work ns).2 := by
  rw [settleLoadedWrite_eq]
  constructor
  · refine (Table.rowwise_writeBack work b.write b.keepsKey hnd).mono ?_
    rintro _ r r' - (⟨rfl, -⟩ | ⟨l, -, -, rfl⟩)
    · exact WorkKept.refl K owner r'
    · refine ⟨hb l r, ?_⟩
      intro hrunning
      rw [b.setsStatus] at hrunning
      unfold writtenField at hrunning
      split at hrunning
      · exact hrunning
      · have hterminal := b.outcomeTerminal
        rw [hrunning] at hterminal
        cases hterminal
  · clear hnd
    induction loaded generalizing ns with
    | nil => exact Table.Rowwise.refl (NotificationKept.refl _) ns
    | cons l rest ih =>
        have hone : ns.Rowwise
            (NotificationKept (fun kind _ => b.ready && decide (kind = K.obligation)))
            (resolveLoaded K b resolvedAt l ns) := by
          refine (resolveObligation_kept K.obligation (key l) b.ready _ b.error resolvedAt
            ns).mono ?_
          intro _ n n' _ hkept
          refine hkept.mono ?_
          intro kind runId hwakes
          simp only [wakesRun, Bool.and_eq_true] at hwakes ⊢
          exact ⟨hwakes.1, hwakes.2.1⟩
        exact hone.trans (ih _) (fun _ _ _ => NotificationKept.trans)

/-- A single-row update keeps what a notification is about. -/
theorem NotificationUpdate.kept (u : NotificationUpdate)
    (howner : ∀ n, (u.set n).owner = n.owner)
    (hactive : u.written.isActiveCancelable = true → u.expected.isActiveCancelable = true)
    (wakes : NotificationKind → String → Bool) (ns : NotificationTable) :
    ns.Rowwise (NotificationKept wakes) (u.run ns) := by
  refine (u.rowwise ns).mono ?_
  rintro _ n n' - (rfl | ⟨-, hexpected, rfl⟩)
  · exact NotificationKept.refl wakes n'
  · refine ⟨u.keepsKind n, u.keepsRunId n, howner n, ?_, ?_⟩
    · intro ha
      exact absurd ((u.setsStatus n).symm.trans ha) u.neverAwaits
    · intro ha
      rw [u.setsStatus] at ha
      rw [hexpected]
      exact .inl (hactive ha)

/-- A bulk write keeps what the notifications it read are about. -/
theorem NotificationBulkWrite.kept (b : NotificationBulkWrite) {p : AgentNotification → Bool}
    (loaded : Selection AgentNotification.id p)
    (howner : ∀ l n, (b.write l n).owner = n.owner) {ns : NotificationTable}
    (hcurrent : ∀ l ∈ loaded.rows, l ∈ ns.rows)
    (hactive : b.written.isActiveCancelable = true →
      ∀ n, p n = true → n.status.isActiveCancelable = true)
    (wakes : NotificationKind → String → Bool) :
    ns.Rowwise (NotificationKept wakes) (b.run loaded.rows ns) := by
  refine (b.rowwise loaded.keysDistinct ns).mono ?_
  rintro _ n n' hget (⟨rfl, -⟩ | ⟨l, hl, hid, rfl⟩)
  · exact NotificationKept.refl wakes n'
  · obtain rfl : l = n :=
      Table.eq_of_key_eq (hcurrent l hl) (Table.get?_eq_some hget).1 hid
    have hstatus : (b.write l l).status = b.written := by
      rw [b.setsStatus, writtenField_unchanged]
    refine ⟨b.keepsKind l l, b.keepsRunId l l, howner l l, ?_, ?_⟩
    · intro ha
      exact absurd (hstatus.symm.trans ha) b.neverAwaits
    · intro ha
      rw [hstatus] at ha
      exact .inl (hactive ha l (loaded.passes l hl))

/-! ### Transactions that change rows in place -/

/-- The transactions that insert a row. -/
def Transaction.creates : Transaction → Bool
  | .createSubagentTask _ | .createAsyncJob _ | .enqueueUserMessageNotification _ => true
  | _ => false

/-- The notifications whose owner a transaction may wake. -/
def Transaction.wakes : Transaction → NotificationKind → String → Bool
  | .completeSubagentTask runId _ | .failSubagentTask runId _ =>
      wakesRun .subagentFinished runId true
  | .completeAsyncJob runId _ _ _ | .failAsyncJob runId _ _ _ =>
      wakesRun .sandboxAsyncJobFinished runId true
  | .markStaleRunningSubagentTasksFailed => fun kind _ => decide (kind = .subagentFinished)
  | .markStaleRunningAsyncJobsFailed => fun kind _ => decide (kind = .sandboxAsyncJobFinished)
  | _ => fun _ _ => false

/-- What a transaction that inserts nothing does to the three tables. -/
structure Database.Updated (wakes : NotificationKind → String → Bool) (db db' : Database) :
    Prop where
  tasks : db.tasks.Rowwise (WorkKept subagentWork AgentSubordinateTask.owner) db'.tasks
  jobs : db.jobs.Rowwise (WorkKept asyncJobWork SandboxAsyncJob.owner) db'.jobs
  notifications : db.notifications.Rowwise (NotificationKept wakes) db'.notifications

section Updates

variable (wakes : NotificationKind → String → Bool) (db : Database)

theorem Database.Updated.refl : db.Updated wakes db :=
  ⟨Table.Rowwise.refl (WorkKept.refl _ _) _, Table.Rowwise.refl (WorkKept.refl _ _) _,
    Table.Rowwise.refl (NotificationKept.refl wakes) _⟩

variable {wakes db}

theorem Database.Updated.ofTasks {t : TaskTable × NotificationTable}
    (h : db.tasks.Rowwise (WorkKept subagentWork AgentSubordinateTask.owner) t.1 ∧
      db.notifications.Rowwise (NotificationKept wakes) t.2) : db.Updated wakes (db.withTasks t) :=
  ⟨h.1, Table.Rowwise.refl (WorkKept.refl _ _) _, h.2⟩

theorem Database.Updated.ofJobs {t : JobTable × NotificationTable}
    (h : db.jobs.Rowwise (WorkKept asyncJobWork SandboxAsyncJob.owner) t.1 ∧
      db.notifications.Rowwise (NotificationKept wakes) t.2) : db.Updated wakes (db.withJobs t) :=
  ⟨Table.Rowwise.refl (WorkKept.refl _ _) _, h.1, h.2⟩

theorem Database.Updated.ofNotifications {t : NotificationTable}
    (h : db.notifications.Rowwise (NotificationKept wakes) t) :
    db.Updated wakes (db.withNotifications t) :=
  ⟨Table.Rowwise.refl (WorkKept.refl _ _) _, Table.Rowwise.refl (WorkKept.refl _ _) _, h⟩

end Updates

/-- A finisher of a run, when it goes on to its UPDATE. -/
theorem finishTaskRead_updated {runId : String} {s : Settlement subagentWork} {db db' : Database}
    {w : PendingWrite} {resolvedAt : Time} (hs : ∀ r, (s.set r).owner = r.owner)
    (hread : finishTaskRead runId s db = some w) (h : w.commit resolvedAt db = some db') :
    db.Updated (wakesRun .subagentFinished runId s.outcome.wakesOwner) db' := by
  unfold finishTaskRead at hread
  split at hread
  · obtain rfl := Option.some.inj hread
    obtain rfl := Option.some.inj h
    exact .ofTasks (finishWorkWrite_kept subagentWork _ runId s hs resolvedAt _ _)
  · cases hread

/-- A finisher of a job, when it goes on to its UPDATE. -/
theorem finishJobRead_updated {runId : String} {s : Settlement asyncJobWork} {db db' : Database}
    {w : PendingWrite} {resolvedAt : Time} (hs : ∀ r, (s.set r).owner = r.owner)
    (hread : finishJobRead runId s db = some w) (h : w.commit resolvedAt db = some db') :
    db.Updated (wakesRun .sandboxAsyncJobFinished runId s.outcome.wakesOwner) db' := by
  unfold finishJobRead at hread
  split at hread
  · obtain rfl := Option.some.inj hread
    obtain rfl := Option.some.inj h
    exact .ofJobs (finishWorkWrite_kept asyncJobWork _ runId s hs resolvedAt _ _)
  · cases hread

/-- **A transaction that inserts nothing** changes rows where they stand; one
case per transaction. -/
theorem transaction_updated {db db' : Database} {a : TransactionStep}
    (hcreates : a.transaction.creates = false) (h : transactionMachine.step db a = some db') :
    db.Updated a.transaction.wakes db' := by
  obtain ⟨transaction, now, resolvedAt⟩ := a
  simp only [transactionMachine] at h
  cases hfresh : transaction.drawsFreshRun db with
  | false => simp [hfresh] at h
  | true =>
  rw [if_pos hfresh] at h
  split at h
  · obtain rfl := Option.some.inj h
    exact Database.Updated.refl _ db
  rename_i w hread
  cases transaction with
  | createSubagentTask | createAsyncJob | enqueueUserMessageNotification => cases hcreates
  | completeSubagentTask runId result =>
      exact finishTaskRead_updated (fun _ => rfl) hread h
  | failSubagentTask runId error =>
      exact finishTaskRead_updated (fun _ => rfl) hread h
  | cancelSubagentTaskRecord runId error =>
      exact finishTaskRead_updated (fun _ => rfl) hread h
  | completeAsyncJob runId exitCode outputBytes outputLines =>
      exact finishJobRead_updated (fun _ => rfl) hread h
  | failAsyncJob runId error outputBytes outputLines =>
      exact finishJobRead_updated (fun _ => rfl) hread h
  | cancelAsyncJob runId error outputBytes outputLines =>
      exact finishJobRead_updated (fun _ => rfl) hread h
  | updateSubagentProgress runId progress =>
      simp only [Transaction.read] at hread
      split at hread
      · cases hread
      rename_i loaded _
      split at hread
      · cases hread
      obtain rfl := Option.some.inj hread
      obtain rfl := Option.some.inj h
      refine ⟨?_, Table.Rowwise.refl (WorkKept.refl _ _) _,
        Table.Rowwise.refl (NotificationKept.refl _) _⟩
      have hrow := Table.rowwise_updateWhere db.tasks (fun t => decide (t.runId = loaded.runId))
        (fun current => { current with
          progress := writtenField loaded.progress progress current.progress
          updatedAt := writtenField loaded.updatedAt now current.updatedAt }) (fun _ => rfl)
      refine hrow.mono ?_
      intro _ t t' _ ht'
      split at ht'
      · rw [ht']
        exact ⟨rfl, id⟩
      · rw [ht']
        exact WorkKept.refl _ _ t
  | cancelRunningSubagentTasks filter error =>
      obtain rfl := Option.some.inj hread
      obtain rfl := Option.some.inj h
      exact .ofTasks (settleLoadedWrite_kept subagentWork _ _ (fun _ _ => rfl) resolvedAt
        (db.tasks.select filter.selects).keysDistinct _ _)
  | markStaleRunningSubagentTasksFailed =>
      obtain rfl := Option.some.inj hread
      obtain rfl := Option.some.inj h
      exact .ofTasks (settleLoadedWrite_kept subagentWork _ _ (fun _ _ => rfl) resolvedAt
        (db.tasks.select (TaskFilter.selects {})).keysDistinct _ _)
  | cancelRunningAsyncJobs filter error =>
      obtain rfl := Option.some.inj hread
      obtain rfl := Option.some.inj h
      exact .ofJobs (settleLoadedWrite_kept asyncJobWork _ _ (fun _ _ => rfl) resolvedAt
        (db.jobs.select filter.selects).keysDistinct _ _)
  | markStaleRunningAsyncJobsFailed =>
      obtain rfl := Option.some.inj hread
      obtain rfl := Option.some.inj h
      exact .ofJobs (settleLoadedWrite_kept asyncJobWork _ _ (fun _ _ => rfl) resolvedAt
        (db.jobs.select (JobFilter.selects {})).keysDistinct _ _)
  | claimNextPendingNotification sessionId code target =>
      simp only [Transaction.read] at hread
      split at hread
      · cases hread
      obtain rfl := Option.some.inj hread
      obtain rfl := Option.some.inj h
      exact .ofNotifications (NotificationUpdate.kept _ (fun _ => rfl) (fun _ => rfl) _ _)
  | completeNotification notificationId =>
      simp only [Transaction.read, finishRead] at hread
      split at hread
      · obtain rfl := Option.some.inj hread
        obtain rfl := Option.some.inj h
        exact .ofNotifications (NotificationUpdate.kept _ (fun _ => rfl) (fun _ => rfl) _ _)
      · cases hread
  | failNotification notificationId error =>
      simp only [Transaction.read, finishRead] at hread
      split at hread
      · obtain rfl := Option.some.inj hread
        obtain rfl := Option.some.inj h
        exact .ofNotifications (NotificationUpdate.kept _ (fun _ => rfl) (fun _ => rfl) _ _)
      · cases hread
  | releaseNotification notificationId =>
      simp only [Transaction.read] at hread
      split at hread
      · obtain rfl := Option.some.inj hread
        obtain rfl := Option.some.inj h
        exact .ofNotifications (NotificationUpdate.kept _ (fun _ => rfl) (fun _ => rfl) _ _)
      · cases hread
  | cancelSessionNotifications sessionId error target =>
      obtain rfl := Option.some.inj hread
      obtain rfl := Option.some.inj h
      refine .ofNotifications (NotificationBulkWrite.kept _ _ (fun _ _ => rfl) ?_ ?_ _)
      · exact fun _ hl => (Table.mem_select.mp hl).1
      · exact fun hactive => by cases hactive
  | cancelMainAgentInterruptedNotifications sessionId error =>
      obtain rfl := Option.some.inj hread
      obtain rfl := Option.some.inj h
      refine .ofNotifications (NotificationBulkWrite.kept _ _ (fun _ _ => rfl) ?_ ?_ _)
      · exact fun _ hl => (Table.mem_select.mp hl).1
      · exact fun hactive => by cases hactive
  | resetProcessingNotificationsAll =>
      obtain rfl := Option.some.inj hread
      obtain rfl := Option.some.inj h
      refine .ofNotifications (NotificationBulkWrite.kept _ _ (fun _ _ => rfl) ?_ ?_ _)
      · exact fun _ hl => (Table.mem_select.mp hl).1
      · intro _ n hn
        rw [isProcessing, decide_eq_true_eq] at hn
        rw [hn]
        rfl

/-! ### Transactions that insert a row -/

/-- The row and the obligation a creation adds. -/
theorem createWork_rows {row : ρ} {obligation : Option ObligationRequest} {now : Time}
    {work work' : Table ρ key} {ns ns' : NotificationTable}
    (h : createWork row obligation now work ns = some (work', ns')) :
    work.insert row = some work' ∧
      ∀ n ∈ ns'.rows, n ∈ ns.rows ∨ ∃ request, obligation = some request ∧ n = request.row now := by
  unfold createWork at h
  split at h
  · cases h
  · rename_i inserted hinsert
    obtain ⟨rfl, rfl⟩ := Prod.mk.inj (Option.some.inj h)
    exact ⟨hinsert, fun n hn => .inl hn⟩
  · rename_i inserted request hinsert
    split at h
    · cases h
    · rename_i added hadd
      obtain ⟨rfl, rfl⟩ := Prod.mk.inj (Option.some.inj h)
      refine ⟨hinsert, fun n hn => ?_⟩
      rcases (Table.mem_insert hadd).mp hn with hold | rfl
      · exact .inl hold
      · exact .inr ⟨request, rfl, rfl⟩

/-- `create_subagent_task` adds the run and at most its parent's obligation. -/
theorem createSubagentTask_rows {db db' : Database} {request : SubagentTaskRequest}
    {now resolvedAt : Time}
    (h : transactionMachine.step db ⟨.createSubagentTask request, now, resolvedAt⟩ = some db') :
    db.tasks.insert (request.task now) = some db'.tasks ∧ db'.jobs = db.jobs ∧
      ∀ n ∈ db'.notifications.rows, n ∈ db.notifications.rows ∨
        (n.kind = .subagentFinished ∧ n.runId = request.runId ∧ n.status = .awaiting ∧
          n.owner = (request.sessionId, request.parentAgentInstanceId)) := by
  obtain ⟨⟨work', ns'⟩, hcreate, rfl⟩ := Option.map_eq_some_iff.mp h
  obtain ⟨hinsert, hrows⟩ := createWork_rows hcreate
  refine ⟨hinsert, rfl, fun n hn => ?_⟩
  rcases hrows n hn with hold | ⟨obligation, hobligation, rfl⟩
  · exact .inl hold
  · unfold SubagentTaskRequest.obligation at hobligation
    split at hobligation
    · cases hobligation
    · obtain rfl := Option.some.inj hobligation
      exact .inr ⟨rfl, rfl, rfl, rfl⟩

/-- `create_async_job` adds the job and its owner's obligation. -/
theorem createAsyncJob_rows {db db' : Database} {request : AsyncJobRequest}
    {now resolvedAt : Time}
    (h : transactionMachine.step db ⟨.createAsyncJob request, now, resolvedAt⟩ = some db') :
    db.jobs.insert (request.job now) = some db'.jobs ∧ db'.tasks = db.tasks ∧
      ∀ n ∈ db'.notifications.rows, n ∈ db.notifications.rows ∨
        (n.kind = .sandboxAsyncJobFinished ∧ n.runId = request.runId ∧ n.status = .awaiting ∧
          n.owner = (request.sessionId, request.agentInstanceId)) := by
  obtain ⟨⟨work', ns'⟩, hcreate, rfl⟩ := Option.map_eq_some_iff.mp h
  obtain ⟨hinsert, hrows⟩ := createWork_rows hcreate
  refine ⟨hinsert, rfl, fun n hn => ?_⟩
  rcases hrows n hn with hold | ⟨obligation, hobligation, rfl⟩
  · exact .inl hold
  · obtain rfl := Option.some.inj hobligation
    exact .inr ⟨rfl, rfl, rfl, rfl⟩

/-- `enqueue_user_message_notification` adds a PENDING message. -/
theorem enqueueUserMessage_rows {db db' : Database} {request : UserMessageRequest}
    {now resolvedAt : Time}
    (h : transactionMachine.step db ⟨.enqueueUserMessageNotification request, now, resolvedAt⟩ =
      some db') :
    db'.tasks = db.tasks ∧ db'.jobs = db.jobs ∧
      ∀ n ∈ db'.notifications.rows, n ∈ db.notifications.rows ∨
        (n.kind = .userMessage ∧ n.status = .pending ∧
          n.owner = (request.sessionId, request.targetAgentInstanceId)) := by
  simp only [transactionMachine] at h
  split at h
  · obtain ⟨ns', hinsert, rfl⟩ := Option.map_eq_some_iff.mp h
    refine ⟨rfl, rfl, fun n hn => ?_⟩
    rcases (Table.mem_insert hinsert).mp hn with hold | rfl
    · exact .inl hold
    · exact .inr ⟨rfl, rfl, rfl⟩
  · cases h

/-! ### An obligation has the owner of its run -/

/-- The owners of one kind of work and of its notifications agree. -/
def OwnersAgree (K : WorkKind ρ key) (owner : ρ → Owner) (work : Table ρ key)
    (ns : NotificationTable) : Prop :=
  ∀ n ∈ ns.rows, n.kind = K.obligation → ∀ row, work.get? n.runId = some row →
    owner row = n.owner

/-- Changes in place keep the owners in agreement. -/
theorem OwnersAgree.rowwise {K : WorkKind ρ key} {owner : ρ → Owner} {work work' : Table ρ key}
    {ns ns' : NotificationTable} {wakes : NotificationKind → String → Bool}
    (h : OwnersAgree K owner work ns) (hwork : work.Rowwise (WorkKept K owner) work')
    (hns : ns.Rowwise (NotificationKept wakes) ns') : OwnersAgree K owner work' ns' := by
  intro n' hn' hkind row' hrow'
  obtain ⟨n, hn, hkept⟩ := hns.before (Table.mem_rows_iff_get?.mp hn')
  obtain ⟨row, hrow, hwkept⟩ := hwork.before hrow'
  rw [hwkept.owner, hkept.owner]
  refine h n (Table.get?_eq_some hn).1 (hkept.kind.symm.trans hkind) row ?_
  rw [← hkept.runId]
  exact hrow

/-- A new run has no notification but its own. -/
theorem OwnersAgree.insert {K : WorkKind ρ key} {owner : ρ → Owner} {work work' : Table ρ key}
    {ns ns' : NotificationTable} {row : ρ} (h : OwnersAgree K owner work ns)
    (ht : Tracked K work ns) (hinsert : work.insert row = some work')
    (hns : ∀ n ∈ ns'.rows, n ∈ ns.rows ∨
      (n.kind = K.obligation → n.runId = key row ∧ n.owner = owner row)) :
    OwnersAgree K owner work' ns' := by
  intro n hn hkind row' hrow'
  have hget := Table.get?_insert hinsert n.runId
  rw [hrow'] at hget
  rcases hns n hn with hold | hnew
  · obtain ⟨old, hold', -⟩ := ht n hold hkind
    have hkept := Table.get?_of_insert hinsert hold'
    rw [hrow'] at hkept
    obtain rfl := Option.some.inj hkept
    exact h n hold hkind row' hold'
  · obtain ⟨hrun, howner⟩ := hnew hkind
    rw [if_pos hrun.symm] at hget
    obtain rfl := Option.some.inj hget
    exact howner.symm

/-- Every obligation lies in the inbox of its run's owner, and a user message
is never awaited. -/
structure Owned (db : Database) : Prop where
  tasks : OwnersAgree subagentWork AgentSubordinateTask.owner db.tasks db.notifications
  jobs : OwnersAgree asyncJobWork SandboxAsyncJob.owner db.jobs db.notifications
  messages : ∀ n ∈ db.notifications.rows, n.kind = .userMessage → n.status ≠ .awaiting

/-- **One transaction keeps the owners.** -/
theorem transaction_owned {db db' : Database} {a : TransactionStep} (hl : Lockstep db)
    (ho : Owned db) (h : transactionMachine.step db a = some db') : Owned db' := by
  cases hcreates : a.transaction.creates with
  | false =>
      have hu := transaction_updated hcreates h
      refine ⟨ho.tasks.rowwise hu.tasks hu.notifications,
        ho.jobs.rowwise hu.jobs hu.notifications, ?_⟩
      intro n' hn' hkind hawaiting
      obtain ⟨n, hn, hkept⟩ := hu.notifications.before (Table.mem_rows_iff_get?.mp hn')
      exact ho.messages n (Table.get?_eq_some hn).1 (hkept.kind.symm.trans hkind)
        (hkept.awaiting hawaiting)
  | true =>
      obtain ⟨transaction, now, resolvedAt⟩ := a
      cases transaction with
      | createSubagentTask request =>
          obtain ⟨hinsert, hjobs, hns⟩ := createSubagentTask_rows h
          refine ⟨ho.tasks.insert hl.tasks hinsert ?_, ?_, ?_⟩
          · intro n hn
            exact (hns n hn).imp id (fun hnew _ => ⟨hnew.2.1, hnew.2.2.2⟩)
          · intro n hn hkind row hrow
            rcases hns n hn with hold | hnew
            · rw [hjobs] at hrow
              exact ho.jobs n hold hkind row hrow
            · rw [hnew.1] at hkind
              cases hkind
          · intro n hn hkind
            rcases hns n hn with hold | hnew
            · exact ho.messages n hold hkind
            · rw [hnew.1] at hkind
              cases hkind
      | createAsyncJob request =>
          obtain ⟨hinsert, htasks, hns⟩ := createAsyncJob_rows h
          refine ⟨?_, ho.jobs.insert hl.jobs hinsert ?_, ?_⟩
          · intro n hn hkind row hrow
            rcases hns n hn with hold | hnew
            · rw [htasks] at hrow
              exact ho.tasks n hold hkind row hrow
            · rw [hnew.1] at hkind
              cases hkind
          · intro n hn
            exact (hns n hn).imp id (fun hnew _ => ⟨hnew.2.1, hnew.2.2.2⟩)
          · intro n hn hkind
            rcases hns n hn with hold | hnew
            · exact ho.messages n hold hkind
            · rw [hnew.1] at hkind
              cases hkind
      | enqueueUserMessageNotification request =>
          obtain ⟨htasks, hjobs, hns⟩ := enqueueUserMessage_rows h
          refine ⟨?_, ?_, ?_⟩
          · intro n hn hkind row hrow
            rcases hns n hn with hold | hnew
            · rw [htasks] at hrow
              exact ho.tasks n hold hkind row hrow
            · rw [hnew.1] at hkind
              cases hkind
          · intro n hn hkind row hrow
            rcases hns n hn with hold | hnew
            · rw [hjobs] at hrow
              exact ho.jobs n hold hkind row hrow
            · rw [hnew.1] at hkind
              cases hkind
          · intro n hn hkind
            rcases hns n hn with hold | hnew
            · exact ho.messages n hold hkind
            · rw [hnew.2.1]
              simp
      | _ => cases hcreates

/-! ### Sweeps -/

/-- After a bulk writer no row that its query selects is RUNNING. -/
theorem settleLoadedWrite_sweeps (K : WorkKind ρ key) (b : BulkSettlement K) (p : ρ → Bool)
    (resolvedAt : Time) {work : Table ρ key} {ns : NotificationTable} (hone : OnePerRun ns)
    {r' : ρ} (hr' : r' ∈ (settleLoadedWrite K b resolvedAt (work.select p).rows work ns).1.rows)
    (hrunning : K.status r' = .running) : r' ∈ work.rows ∧ p r' = false := by
  have hs := settleLoadedWrite_settles K b resolvedAt hone (work.select p).keysDistinct
    (fun l hl => Table.mem_rows_iff_get?.mp (Table.mem_select.mp hl).1)
  have hget' := Table.mem_rows_iff_get?.mp hr'
  by_cases hswept : ∃ l ∈ (work.select p).rows, key l = key r'
  · obtain ⟨row', hrow', hstatus⟩ := hs.settled (key r') hswept
    rw [hget'] at hrow'
    obtain rfl := Option.some.inj hrow'
    have hterminal := b.outcomeTerminal
    rw [← hstatus, hrunning] at hterminal
    cases hterminal
  · have hmem := (Table.get?_eq_some ((hs.others _ hswept).symm.trans hget')).1
    refine ⟨hmem, ?_⟩
    rw [Bool.eq_false_iff]
    exact fun hp => hswept ⟨r', Table.mem_select.mpr ⟨hmem, hp⟩, rfl⟩

/-- `cancel_running_child_subagent_tasks` leaves no run of the owner RUNNING. -/
theorem sweeps_tasks {db db' : Database} {sessionId instanceId error : String}
    {now resolvedAt : Time} (hl : Lockstep db)
    (h : transactionMachine.step db ⟨.cancelRunningSubagentTasks
      { sessionId := some sessionId, parentAgentInstanceId := some instanceId } error,
      now, resolvedAt⟩ = some db') :
    ∀ task ∈ db'.tasks.rows, task.owner = (sessionId, instanceId) → task.status ≠ .running := by
  obtain rfl := Option.some.inj h
  intro task htask howner hrunning
  obtain ⟨-, hunselected⟩ := settleLoadedWrite_sweeps subagentWork _ _ resolvedAt hl.onePerRun
    htask hrunning
  obtain ⟨hsession, hparent⟩ := Prod.mk.inj howner
  simp [TaskFilter.selects, matchesOption, hrunning, hsession, hparent] at hunselected

/-- `cancel_running_async_jobs_for_agent` leaves no job of the owner RUNNING. -/
theorem sweeps_jobs {db db' : Database} {sessionId instanceId error : String}
    {now resolvedAt : Time} (hl : Lockstep db)
    (h : transactionMachine.step db ⟨.cancelRunningAsyncJobs
      { sessionId := some sessionId, agentInstanceId := some instanceId } error,
      now, resolvedAt⟩ = some db') :
    ∀ job ∈ db'.jobs.rows, job.owner = (sessionId, instanceId) → job.status ≠ .running := by
  obtain rfl := Option.some.inj h
  intro job hjob howner hrunning
  obtain ⟨-, hunselected⟩ := settleLoadedWrite_sweeps asyncJobWork _ _ resolvedAt hl.onePerRun
    hjob hrunning
  obtain ⟨hsession, hagent⟩ := Prod.mk.inj howner
  simp [JobFilter.selects, matchesOption, hrunning, hsession, hagent] at hunselected

/-- `cancel_session_notifications` leaves nothing outstanding in the inbox. -/
theorem sweeps_notifications {db db' : Database} {sessionId instanceId error : String}
    {now resolvedAt : Time}
    (h : transactionMachine.step db ⟨.cancelSessionNotifications sessionId error
      (some instanceId), now, resolvedAt⟩ = some db') :
    ∀ n ∈ db'.notifications.rows, n.owner = (sessionId, instanceId) →
      n.status.isOutstanding = false := by
  obtain rfl := Option.some.inj h
  intro n' hn' howner
  obtain ⟨n, -, hchange⟩ := (cancelNotifications_rowwise
    (cancelSessionFilter sessionId (some instanceId)) error now db.notifications).before
    (Table.mem_rows_iff_get?.mp hn')
  rcases hchange with ⟨hunselected, rfl⟩ | ⟨-, hcanceled⟩
  · obtain ⟨hsession, htarget⟩ := Prod.mk.inj howner
    simpa [CancelFilter.selects, cancelSessionFilter, matchesOption, hsession, htarget]
      using hunselected
  · rw [hcanceled]
    rfl

end Workbench
