import CyberWorkbench.WorkOwners

/-!
# Tearing a subagent's subtree down

`_fail_subagent` and `_cancel_subagent` sweep in three transactions what the
instance owns (its jobs, its inbox, its child runs) and commit their own record
last.  Between any two of these transactions any other operation may commit:
starters whose tool call was cancelled long ago, jobs and children that finish,
other teardowns at any depth of the tree.  What `_cancel_runtime_jobs` and
`_cancel_drivers` do besides is to cancel tasks; the transactions of those are
operations of their own here.

`teardown_complete`: after a teardown nothing of the instance is left, given
that nobody starts work for it behind the sweep of that kind of work, and that
no child's outcome wakes it behind the sweep of its inbox.
-/

namespace Workbench

open KeyedTable PythonValues StepMachine

/-! ### Operations -/

/-- The instance id of a run, as opposed to a main agent's. -/
def isSubagentInstance (instanceId : String) : Bool :=
  subagentInstancePrefix.toList.isPrefixOf instanceId.toList

/-- `_CANCEL_MESSAGE`. -/
def cancelMessage : String := "Subagent task canceled."

/-- `_teardown_subtree`. -/
def teardownSubtree (sessionId agentInstanceId message : String) : List Transaction :=
  [.cancelRunningAsyncJobs
      { sessionId := some sessionId, agentInstanceId := some agentInstanceId } "任务已取消",
    .cancelSessionNotifications sessionId message (some agentInstanceId),
    .cancelRunningSubagentTasks
      { sessionId := some sessionId, parentAgentInstanceId := some agentInstanceId } message]

/-- The operations of the running backend. -/
inductive Operation where
  | startSubagentTaskRun (request : SubagentTaskRequest)
  | startAsyncSandboxCommand (request : AsyncJobRequest)
  | completeSubagent (runId result : String)
  | failSubagent (sessionId runId message : String)
  | cancelSubagent (sessionId runId : String)
  /-- Any other operation, by the transaction it runs. -/
  | transact (transaction : Transaction)

/-- The transactions of an operation, one after another. -/
def Operation.transactions : Operation → List Transaction
  | .startSubagentTaskRun request => [.createSubagentTask request]
  | .startAsyncSandboxCommand request => [.createAsyncJob request]
  | .completeSubagent runId result => [.completeSubagentTask runId result]
  | .failSubagent sessionId runId message =>
      teardownSubtree sessionId (subagentInstanceId runId) message ++
        [.failSubagentTask runId message]
  | .cancelSubagent sessionId runId =>
      teardownSubtree sessionId (subagentInstanceId runId) cancelMessage ++
        [.cancelSubagentTaskRecord runId cancelMessage]
  | .transact transaction => [transaction]

/-- The run whose subtree an operation tears down, and its session. -/
def Operation.tearsDown : Operation → Option (String × String)
  | .failSubagent sessionId runId _ | .cancelSubagent sessionId runId => some (sessionId, runId)
  | .startSubagentTaskRun _ | .startAsyncSandboxCommand _ | .completeSubagent .. | .transact _ =>
      none

/-- Some run of this session is this instance; a main agent's context is not
bound to a run. -/
def Database.hasContext (db : Database) (sessionId agentInstanceId : String) : Bool :=
  !isSubagentInstance agentInstanceId ||
    db.tasks.rows.any (fun task =>
      decide (task.sessionId = sessionId) && decide (subagentInstanceId task.runId = agentInstanceId))

/-- Work is created by the two starters only, user messages are addressed to
main agents, and the stale runs are marked before the backend runs. -/
def Transaction.isServed : Transaction → Bool
  | .createSubagentTask _ | .createAsyncJob _ | .markStaleRunningSubagentTasksFailed
  | .markStaleRunningAsyncJobsFailed => false
  | .enqueueUserMessageNotification request => !isSubagentInstance request.targetAgentInstanceId
  | _ => true

/-- When an operation can begin: work is started under the context of an agent
that exists, and a driver stands for a run of its session. -/
def Operation.admitted (db : Database) : Operation → Bool
  | .startSubagentTaskRun request =>
      db.hasContext request.sessionId request.parentAgentInstanceId
  | .startAsyncSandboxCommand request => db.hasContext request.sessionId request.agentInstanceId
  | .failSubagent sessionId runId _ | .cancelSubagent sessionId runId =>
      db.tasks.rows.any (fun task => decide (task.sessionId = sessionId) &&
        decide (task.runId = runId))
  | .completeSubagent .. => true
  | .transact transaction => transaction.isServed

/-- An operation and how many of its transactions it has run. -/
structure OperationProgress where
  operation : Operation
  position : Nat := 0

/-- The transaction it runs next. -/
def OperationProgress.next (r : OperationProgress) : Option Transaction :=
  r.operation.transactions[r.position]?

/-- All its transactions are through. -/
def OperationProgress.finished (r : OperationProgress) : Bool :=
  decide (r.operation.transactions.length ≤ r.position)

/-- The database and the operations, begun and finished. -/
structure Backend where
  db : Database
  operations : List OperationProgress := []

/-- An operation begins, or one runs its next transaction. -/
inductive BackendAction where
  | begin (operation : Operation)
  | advance (operation : Nat) (now resolvedAt : Time)

/-- The backend: operations interleave transaction by transaction. -/
def backendMachine : Machine Backend BackendAction where
  Start s := s = { db := Database.empty }
  step s
    | .begin operation =>
        if operation.admitted s.db then
          some { s with operations := s.operations ++ [{ operation := operation }] }
        else none
    | .advance i now resolvedAt =>
        match s.operations[i]? with
        | none => none
        | some r =>
            match r.next with
            | none => none
            | some transaction =>
                match transactionMachine.step s.db ⟨transaction, now, resolvedAt⟩ with
                | none => none
                | some db => some {
                    db := db
                    operations := s.operations.set i { r with position := r.position + 1 } }

/-! ### What a teardown promises -/

/-- Nothing of the instance is left: no RUNNING run or job of its own, nothing
outstanding in its inbox. -/
structure SubtreeClean (db : Database) (agentInstanceId : String) : Prop where
  tasks : ∀ task ∈ db.tasks.rows, task.parentAgentInstanceId = agentInstanceId →
    task.status ≠ .running
  jobs : ∀ job ∈ db.jobs.rows, job.agentInstanceId = agentInstanceId → job.status ≠ .running
  notifications : ∀ n ∈ db.notifications.rows, n.targetAgentInstanceId = agentInstanceId →
    n.status.isOutstanding = false

/-- Once every operation has finished, what was torn down is clean. -/
def TornDown (s : Backend) : Prop :=
  (∀ r ∈ s.operations, r.finished = true) →
    ∀ r ∈ s.operations, ∀ sessionId runId, r.operation.tearsDown = some (sessionId, runId) →
      SubtreeClean s.db (subagentInstanceId runId)

/-- A transaction behind the sweep of what it touches: a job started after the
jobs were swept, a child started after the children were, and a child's outcome
that flips an obligation AWAITING in the inbox after that was. -/
def Transaction.outrunsSweep (db : Database) (agentInstanceId : String) (position : Nat) :
    Transaction → Bool
  | .createAsyncJob request =>
      decide (0 < position) && decide (request.agentInstanceId = agentInstanceId)
  | .completeSubagentTask runId _ | .failSubagentTask runId _ =>
      decide (1 < position) && db.notifications.rows.any (fun n =>
        isObligationOf .subagentFinished runId n && decide (n.status = .awaiting) &&
          decide (n.targetAgentInstanceId = agentInstanceId))
  | .createSubagentTask request =>
      decide (2 < position) && decide (request.parentAgentInstanceId = agentInstanceId)
  | _ => false

/-- A teardown, and a transaction behind one of its sweeps. -/
def OperationProgress.outrunBy (db : Database) (transaction : Transaction)
    (r : OperationProgress) : Bool :=
  match r.operation.tearsDown with
  | none => false
  | some (_, runId) => transaction.outrunsSweep db (subagentInstanceId runId) r.position

/-- **No transaction runs behind a sweep it concerns.** -/
def SweepsLast (s : Backend) : BackendAction → Prop
  | .begin _ => True
  | .advance i _ _ => ∀ r ∈ s.operations[i]?, ∀ transaction ∈ r.next,
      ∀ teardown ∈ s.operations, teardown.outrunBy s.db transaction = false

instance (s : Backend) : (a : BackendAction) → Decidable (SweepsLast s a)
  | .begin _ => .isTrue trivial
  | .advance .. => by unfold SweepsLast; infer_instance

/-! ### Contexts -/

theorem subagentInstanceId_inj {a b : String} (h : subagentInstanceId a = subagentInstanceId b) :
    a = b := by
  have hlists := congrArg String.toList h
  unfold subagentInstanceId at hlists
  rw [String.toList_append, String.toList_append] at hlists
  exact String.toList_inj.mp (List.append_cancel_left hlists)

theorem isSubagentInstance_subagentInstanceId (runId : String) :
    isSubagentInstance (subagentInstanceId runId) = true := by
  unfold isSubagentInstance subagentInstanceId
  rw [String.toList_append]
  exact List.isPrefixOf_iff_prefix.mpr (List.prefix_append _ _)

/-- Runs stay, under their session. -/
def TasksPersist (db db' : Database) : Prop :=
  ∀ task ∈ db.tasks.rows, ∃ task' ∈ db'.tasks.rows,
    task'.runId = task.runId ∧ task'.sessionId = task.sessionId

theorem TasksPersist.hasContext {db db' : Database} (h : TasksPersist db db')
    {sessionId agentInstanceId : String} (hc : db.hasContext sessionId agentInstanceId = true) :
    db'.hasContext sessionId agentInstanceId = true := by
  unfold Database.hasContext at hc ⊢
  rw [Bool.or_eq_true] at hc ⊢
  refine hc.imp id (fun hany => ?_)
  obtain ⟨task, htask, heq⟩ := List.any_eq_true.mp hany
  obtain ⟨task', htask', hrun, hsession⟩ := h task htask
  refine List.any_eq_true.mpr ⟨task', htask', ?_⟩
  rw [hrun, hsession]
  exact heq

/-- A row of the instance has the session of its run. -/
theorem hasContext_session {db : Database} {sessionId runId : String}
    (hc : db.hasContext sessionId (subagentInstanceId runId) = true) :
    ∃ task ∈ db.tasks.rows, task.runId = runId ∧ task.sessionId = sessionId := by
  unfold Database.hasContext at hc
  rw [isSubagentInstance_subagentInstanceId] at hc
  obtain ⟨task, htask, heq⟩ := List.any_eq_true.mp hc
  rw [Bool.and_eq_true, decide_eq_true_eq, decide_eq_true_eq] at heq
  exact ⟨task, htask, subagentInstanceId_inj heq.2, heq.1⟩

/-- Everything in the tables belongs to an agent that exists. -/
structure InContext (db : Database) : Prop where
  tasks : ∀ task ∈ db.tasks.rows,
    db.hasContext task.sessionId task.parentAgentInstanceId = true
  jobs : ∀ job ∈ db.jobs.rows, db.hasContext job.sessionId job.agentInstanceId = true
  notifications : ∀ n ∈ db.notifications.rows,
    db.hasContext n.sessionId n.targetAgentInstanceId = true

/-- A run's session is the session of everything the run's instance owns. -/
theorem InContext.owner {db : Database} {task : AgentSubordinateTask}
    (htask : task ∈ db.tasks.rows) {sessionId agentInstanceId : String}
    (hc : db.hasContext sessionId agentInstanceId = true)
    (hinstance : agentInstanceId = subagentInstanceId task.runId) : sessionId = task.sessionId := by
  subst hinstance
  obtain ⟨other, hother, hrun, hsession⟩ := hasContext_session hc
  obtain rfl := Table.eq_of_key_eq hother htask hrun
  exact hsession.symm

/-- Every transaction keeps the runs. -/
theorem transaction_tasksPersist {db db' : Database} {a : TransactionStep}
    (h : transactionMachine.step db a = some db') : TasksPersist db db' := by
  have hsame : db'.tasks = db.tasks → TasksPersist db db' := by
    intro htasks task htask
    exact ⟨task, htasks ▸ htask, rfl, rfl⟩
  cases hcreates : a.transaction.creates with
  | false =>
      intro task htask
      obtain ⟨task', htask', hkept⟩ := (transaction_updated hcreates h).tasks.after
        (Table.mem_rows_iff_get?.mp htask)
      have hget := Table.get?_eq_some htask'
      exact ⟨task', hget.1, hget.2, (Prod.mk.inj hkept.owner).1⟩
  | true =>
      obtain ⟨transaction, now, resolvedAt⟩ := a
      cases transaction with
      | createSubagentTask request =>
          intro task htask
          exact ⟨task, (Table.mem_insert (createSubagentTask_rows h).1).mpr (.inl htask), rfl, rfl⟩
      | createAsyncJob request => exact hsame (createAsyncJob_rows h).2.1
      | enqueueUserMessageNotification request => exact hsame (enqueueUserMessage_rows h).1
      | _ => cases hcreates

/-- What an operation was admitted for stays true. -/
theorem Operation.admitted_persist {db db' : Database} (h : TasksPersist db db')
    {operation : Operation} (ha : operation.admitted db = true) :
    operation.admitted db' = true := by
  have hruns : ∀ sessionId runId : String,
      db.tasks.rows.any (fun task => decide (task.sessionId = sessionId) &&
        decide (task.runId = runId)) = true →
      db'.tasks.rows.any (fun task => decide (task.sessionId = sessionId) &&
        decide (task.runId = runId)) = true := by
    intro sessionId runId hany
    obtain ⟨task, htask, heq⟩ := List.any_eq_true.mp hany
    obtain ⟨task', htask', hrun, hsession⟩ := h task htask
    refine List.any_eq_true.mpr ⟨task', htask', ?_⟩
    rw [hrun, hsession]
    exact heq
  cases operation with
  | startSubagentTaskRun request => exact h.hasContext ha
  | startAsyncSandboxCommand request => exact h.hasContext ha
  | failSubagent sessionId runId message => exact hruns sessionId runId ha
  | cancelSubagent sessionId runId => exact hruns sessionId runId ha
  | completeSubagent | transact => exact ha

/-- A transaction as some admitted operation runs it. -/
def Transaction.Admitted (db : Database) : Transaction → Prop
  | .createSubagentTask request =>
      db.hasContext request.sessionId request.parentAgentInstanceId = true
  | .createAsyncJob request => db.hasContext request.sessionId request.agentInstanceId = true
  | transaction => transaction.isServed = true

/-- An admitted operation runs admitted transactions. -/
theorem Operation.transactions_admitted {db : Database} {operation : Operation}
    (ha : operation.admitted db = true) {transaction : Transaction}
    (hmem : transaction ∈ operation.transactions) : transaction.Admitted db := by
  cases operation with
  | startSubagentTaskRun request =>
      obtain rfl := List.mem_singleton.mp hmem
      exact ha
  | startAsyncSandboxCommand request =>
      obtain rfl := List.mem_singleton.mp hmem
      exact ha
  | completeSubagent runId result =>
      obtain rfl := List.mem_singleton.mp hmem
      rfl
  | failSubagent sessionId runId message =>
      simp only [Operation.transactions, teardownSubtree, List.cons_append, List.nil_append,
        List.mem_cons, List.not_mem_nil, or_false] at hmem
      rcases hmem with rfl | rfl | rfl | rfl <;> rfl
  | cancelSubagent sessionId runId =>
      simp only [Operation.transactions, teardownSubtree, List.cons_append, List.nil_append,
        List.mem_cons, List.not_mem_nil, or_false] at hmem
      rcases hmem with rfl | rfl | rfl | rfl <;> rfl
  | transact transaction =>
      obtain rfl := List.mem_singleton.mp hmem
      cases transaction with
      | createSubagentTask | createAsyncJob => cases ha
      | _ => exact ha

/-- **One transaction keeps everything in context.** -/
theorem transaction_inContext {db db' : Database} {a : TransactionStep} (hc : InContext db)
    (ha : a.transaction.Admitted db) (h : transactionMachine.step db a = some db') :
    InContext db' := by
  have hp := transaction_tasksPersist h
  cases hcreates : a.transaction.creates with
  | false =>
      have hu := transaction_updated hcreates h
      refine ⟨?_, ?_, ?_⟩
      · intro task' htask'
        obtain ⟨task, htask, hkept⟩ := hu.tasks.before (Table.mem_rows_iff_get?.mp htask')
        obtain ⟨hsession, hparent⟩ := Prod.mk.inj hkept.owner
        rw [hsession, hparent]
        exact hp.hasContext (hc.tasks task (Table.get?_eq_some htask).1)
      · intro job' hjob'
        obtain ⟨job, hjob, hkept⟩ := hu.jobs.before (Table.mem_rows_iff_get?.mp hjob')
        obtain ⟨hsession, hagent⟩ := Prod.mk.inj hkept.owner
        rw [hsession, hagent]
        exact hp.hasContext (hc.jobs job (Table.get?_eq_some hjob).1)
      · intro n' hn'
        obtain ⟨n, hn, hkept⟩ := hu.notifications.before (Table.mem_rows_iff_get?.mp hn')
        obtain ⟨hsession, htarget⟩ := Prod.mk.inj hkept.owner
        rw [hsession, htarget]
        exact hp.hasContext (hc.notifications n (Table.get?_eq_some hn).1)
  | true =>
      obtain ⟨transaction, now, resolvedAt⟩ := a
      cases transaction with
      | createSubagentTask request =>
          obtain ⟨hinsert, hjobs, hns⟩ := createSubagentTask_rows h
          refine ⟨?_, ?_, ?_⟩
          · intro task htask
            rcases (Table.mem_insert hinsert).mp htask with hold | rfl
            · exact hp.hasContext (hc.tasks task hold)
            · exact hp.hasContext ha
          · intro job hjob
            exact hp.hasContext (hc.jobs job (hjobs ▸ hjob))
          · intro n hn
            rcases hns n hn with hold | ⟨-, -, -, howner⟩
            · exact hp.hasContext (hc.notifications n hold)
            · obtain ⟨hsession, htarget⟩ := Prod.mk.inj howner
              rw [hsession, htarget]
              exact hp.hasContext ha
      | createAsyncJob request =>
          obtain ⟨hinsert, htasks, hns⟩ := createAsyncJob_rows h
          refine ⟨?_, ?_, ?_⟩
          · intro task htask
            exact hp.hasContext (hc.tasks task (htasks ▸ htask))
          · intro job hjob
            rcases (Table.mem_insert hinsert).mp hjob with hold | rfl
            · exact hp.hasContext (hc.jobs job hold)
            · exact hp.hasContext ha
          · intro n hn
            rcases hns n hn with hold | ⟨-, -, -, howner⟩
            · exact hp.hasContext (hc.notifications n hold)
            · obtain ⟨hsession, htarget⟩ := Prod.mk.inj howner
              rw [hsession, htarget]
              exact hp.hasContext ha
      | enqueueUserMessageNotification request =>
          obtain ⟨htasks, hjobs, hns⟩ := enqueueUserMessage_rows h
          refine ⟨?_, ?_, ?_⟩
          · intro task htask
            exact hp.hasContext (hc.tasks task (htasks ▸ htask))
          · intro job hjob
            exact hp.hasContext (hc.jobs job (hjobs ▸ hjob))
          · intro n hn
            rcases hns n hn with hold | ⟨-, -, howner⟩
            · exact hp.hasContext (hc.notifications n hold)
            · obtain ⟨hsession, htarget⟩ := Prod.mk.inj howner
              rw [hsession, htarget]
              unfold Database.hasContext
              rw [Bool.or_eq_true]
              exact .inl ha
      | _ => cases hcreates

/-! ### What the sweeps leave -/

/-- Behind the sweeps a teardown has run: no job of the owner RUNNING, nothing
active in its inbox, no run of its own RUNNING. -/
structure Swept (db : Database) (owner : Owner) (position : Nat) : Prop where
  jobs : 0 < position → ∀ job ∈ db.jobs.rows, job.owner = owner → job.status ≠ .running
  inbox : 1 < position → ∀ n ∈ db.notifications.rows, n.owner = owner →
    n.status.isActiveCancelable = false
  tasks : 2 < position → ∀ task ∈ db.tasks.rows, task.owner = owner → task.status ≠ .running

/-- Changes in place start no work. -/
theorem Database.Updated.notRunning {wakes : NotificationKind → String → Bool} {db db' : Database}
    (hu : db.Updated wakes db') {owner : Owner} :
    ((∀ job ∈ db.jobs.rows, job.owner = owner → job.status ≠ .running) →
      ∀ job ∈ db'.jobs.rows, job.owner = owner → job.status ≠ .running) ∧
    ((∀ task ∈ db.tasks.rows, task.owner = owner → task.status ≠ .running) →
      ∀ task ∈ db'.tasks.rows, task.owner = owner → task.status ≠ .running) := by
  constructor
  · intro hjobs job' hjob' howner hrunning
    obtain ⟨job, hjob, hkept⟩ := hu.jobs.before (Table.mem_rows_iff_get?.mp hjob')
    exact hjobs job (Table.get?_eq_some hjob).1 (hkept.owner.symm.trans howner)
      (hkept.running hrunning)
  · intro htasks task' htask' howner hrunning
    obtain ⟨task, htask, hkept⟩ := hu.tasks.before (Table.mem_rows_iff_get?.mp htask')
    exact htasks task (Table.get?_eq_some htask).1 (hkept.owner.symm.trans howner)
      (hkept.running hrunning)

/-- A wake-up that does not outrun the sweep of the inbox flips nothing of the
owner's. -/
theorem Swept.wakes_nothing {db : Database} {sessionId instanceId : String} {position : Nat}
    {transaction : Transaction} {n : AgentNotification} (hl : Lockstep db) (ho : Owned db)
    (hs : Swept db (sessionId, instanceId) position) (hpast : 1 < position)
    (ha : transaction.Admitted db)
    (hok : transaction.outrunsSweep db instanceId position = false) (hn : n ∈ db.notifications.rows)
    (howner : n.owner = (sessionId, instanceId)) (hawaiting : n.status = .awaiting) :
    transaction.wakes n.kind n.runId = false := by
  obtain ⟨-, htarget⟩ := Prod.mk.inj howner
  have htask : ∀ runId, (decide (1 < position) && db.notifications.rows.any (fun n =>
      isObligationOf .subagentFinished runId n && decide (n.status = .awaiting) &&
        decide (n.targetAgentInstanceId = instanceId))) = false →
      wakesRun .subagentFinished runId true n.kind n.runId = false := by
    intro runId hnone
    rw [Bool.eq_false_iff]
    intro hwakes
    simp only [hpast, decide_true, Bool.true_and] at hnone
    have hno := List.any_eq_false.mp hnone n hn
    refine hno ?_
    simp only [hawaiting, htarget, decide_true, Bool.and_true]
    exact hwakes
  have hjob : ∀ runId, wakesRun .sandboxAsyncJobFinished runId true n.kind n.runId = false := by
    intro runId
    rw [Bool.eq_false_iff]
    intro hwakes
    simp only [wakesRun, Bool.true_and, Bool.and_eq_true, decide_eq_true_eq] at hwakes
    obtain ⟨job, hget, hrunning⟩ := hl.jobs n hn hwakes.1
    have hjob := (Table.get?_eq_some hget).1
    exact hs.jobs (Nat.lt_trans Nat.zero_lt_one hpast) job hjob
      ((ho.jobs n hn hwakes.1 job hget).trans howner) (hrunning hawaiting)
  cases transaction with
  | completeSubagentTask runId result => exact htask runId hok
  | failSubagentTask runId error => exact htask runId hok
  | completeAsyncJob runId exitCode outputBytes outputLines => exact hjob runId
  | failAsyncJob runId error outputBytes outputLines => exact hjob runId
  | markStaleRunningSubagentTasksFailed | markStaleRunningAsyncJobsFailed => cases ha
  | _ => rfl

/-- **A transaction behind no sweep keeps what the sweeps left.** -/
theorem Swept.step {db db' : Database} {sessionId instanceId : String} {position : Nat}
    {a : TransactionStep} (hl : Lockstep db) (ho : Owned db)
    (hsub : isSubagentInstance instanceId = true)
    (hs : Swept db (sessionId, instanceId) position) (ha : a.transaction.Admitted db)
    (hok : a.transaction.outrunsSweep db instanceId position = false)
    (h : transactionMachine.step db a = some db') :
    Swept db' (sessionId, instanceId) position := by
  cases hcreates : a.transaction.creates with
  | false =>
      have hu := transaction_updated hcreates h
      refine ⟨fun hpast => hu.notRunning.1 (hs.jobs hpast), ?_,
        fun hpast => hu.notRunning.2 (hs.tasks hpast)⟩
      intro hpast n' hn' howner
      obtain ⟨n, hget, hkept⟩ := hu.notifications.before (Table.mem_rows_iff_get?.mp hn')
      have hn := (Table.get?_eq_some hget).1
      have howner' := hkept.owner.symm.trans howner
      rw [Bool.eq_false_iff]
      intro hactive
      rcases hkept.active hactive with hold | ⟨hawaiting, hwakes⟩
      · rw [hs.inbox hpast n hn howner'] at hold
        cases hold
      · rw [hs.wakes_nothing hl ho hpast ha hok hn howner' hawaiting] at hwakes
        cases hwakes
  | true =>
      obtain ⟨transaction, now, resolvedAt⟩ := a
      cases transaction with
      | createSubagentTask request =>
          obtain ⟨hinsert, hjobs, hns⟩ := createSubagentTask_rows h
          refine ⟨fun hpast job hjob => hs.jobs hpast job (hjobs ▸ hjob), ?_, ?_⟩
          · intro hpast n hn howner
            rcases hns n hn with hold | ⟨-, -, hawaiting, -⟩
            · exact hs.inbox hpast n hold howner
            · rw [hawaiting]
              rfl
          · intro hpast task htask howner
            rcases (Table.mem_insert hinsert).mp htask with hold | rfl
            · exact hs.tasks hpast task hold howner
            · obtain ⟨-, hparent⟩ := Prod.mk.inj howner
              simp only [Transaction.outrunsSweep, hpast, decide_true, Bool.true_and,
                decide_eq_false_iff_not] at hok
              exact absurd hparent hok
      | createAsyncJob request =>
          obtain ⟨hinsert, htasks, hns⟩ := createAsyncJob_rows h
          refine ⟨?_, ?_, fun hpast task htask => hs.tasks hpast task (htasks ▸ htask)⟩
          · intro hpast job hjob howner
            rcases (Table.mem_insert hinsert).mp hjob with hold | rfl
            · exact hs.jobs hpast job hold howner
            · obtain ⟨-, hagent⟩ := Prod.mk.inj howner
              simp only [Transaction.outrunsSweep, hpast, decide_true, Bool.true_and,
                decide_eq_false_iff_not] at hok
              exact absurd hagent hok
          · intro hpast n hn howner
            rcases hns n hn with hold | ⟨-, -, hawaiting, -⟩
            · exact hs.inbox hpast n hold howner
            · rw [hawaiting]
              rfl
      | enqueueUserMessageNotification request =>
          obtain ⟨htasks, hjobs, hns⟩ := enqueueUserMessage_rows h
          refine ⟨fun hpast job hjob => hs.jobs hpast job (hjobs ▸ hjob), ?_,
            fun hpast task htask => hs.tasks hpast task (htasks ▸ htask)⟩
          intro hpast n hn howner
          rcases hns n hn with hold | ⟨-, -, hown⟩
          · exact hs.inbox hpast n hold howner
          · obtain ⟨-, htarget⟩ := Prod.mk.inj (hown.symm.trans howner)
            have hserved : (!isSubagentInstance request.targetAgentInstanceId) = true := ha
            rw [htarget, hsub] at hserved
            cases hserved
      | _ => cases hcreates

/-- A teardown runs its own sweeps in order. -/
theorem Operation.tearsDown_transactions {operation : Operation} {sessionId runId : String}
    (h : operation.tearsDown = some (sessionId, runId)) :
    ∃ message last, last.creates = false ∧ operation.transactions =
      teardownSubtree sessionId (subagentInstanceId runId) message ++ [last] := by
  cases operation with
  | failSubagent session run message =>
      obtain ⟨rfl, rfl⟩ := Prod.mk.inj (Option.some.inj h)
      exact ⟨message, _, rfl, rfl⟩
  | cancelSubagent session run =>
      obtain ⟨rfl, rfl⟩ := Prod.mk.inj (Option.some.inj h)
      exact ⟨cancelMessage, _, rfl, rfl⟩
  | startSubagentTaskRun | startAsyncSandboxCommand | completeSubagent | transact => cases h

/-- **A teardown's own step sweeps.** -/
theorem Swept.advance {db db' : Database} {r : OperationProgress} {sessionId runId : String}
    {transaction : Transaction} {now resolvedAt : Time} (hl : Lockstep db)
    (htears : r.operation.tearsDown = some (sessionId, runId)) (hnext : r.next = some transaction)
    (h : transactionMachine.step db ⟨transaction, now, resolvedAt⟩ = some db')
    (hs : Swept db' (sessionId, subagentInstanceId runId) r.position) :
    Swept db' (sessionId, subagentInstanceId runId) (r.position + 1) := by
  obtain ⟨message, last, -, htransactions⟩ := Operation.tearsDown_transactions htears
  unfold OperationProgress.next at hnext
  rw [htransactions] at hnext
  have hcases : r.position = 0 ∨ r.position = 1 ∨ r.position = 2 ∨ 3 ≤ r.position := by omega
  rcases hcases with hposition | hposition | hposition | hposition
  · rw [hposition] at hnext ⊢
    obtain rfl := Option.some.inj hnext
    exact ⟨fun _ => sweeps_jobs hl h, fun hpast => by omega, fun hpast => by omega⟩
  · rw [hposition] at hnext hs ⊢
    obtain rfl := Option.some.inj hnext
    refine ⟨fun _ => hs.jobs Nat.zero_lt_one, fun _ n hn howner => ?_, fun hpast => by omega⟩
    have hout := sweeps_notifications h n hn howner
    rw [Bool.eq_false_iff] at hout ⊢
    exact fun hactive => hout (NotificationStatus.isOutstanding_iff.mpr (.inr hactive))
  · rw [hposition] at hnext hs ⊢
    obtain rfl := Option.some.inj hnext
    exact ⟨fun _ => hs.jobs (by omega), fun _ => hs.inbox (by omega), fun _ => sweeps_tasks hl h⟩
  · exact ⟨fun _ => hs.jobs (by omega), fun _ => hs.inbox (by omega),
      fun _ => hs.tasks (by omega)⟩

/-! ### Runs of the backend -/

/-- **The invariant of teardowns.** -/
structure TeardownInv (s : Backend) : Prop where
  lockstep : Lockstep s.db
  owned : Owned s.db
  inContext : InContext s.db
  admitted : ∀ r ∈ s.operations, r.operation.admitted s.db = true
  swept : ∀ r ∈ s.operations, ∀ sessionId runId,
    r.operation.tearsDown = some (sessionId, runId) →
      Swept s.db (sessionId, subagentInstanceId runId) r.position

theorem teardownInv_start : TeardownInv { db := Database.empty } := by
  refine ⟨lockstep_empty, ⟨?_, ?_, ?_⟩, ⟨?_, ?_, ?_⟩, ?_, ?_⟩
  all_goals intro x hx; simp [Database.empty, Table.empty] at hx

/-- **The step lemma.** -/
theorem TeardownInv.step {s t : Backend} {a : BackendAction} (h : TeardownInv s)
    (hok : SweepsLast s a) (hstep : backendMachine.step s a = some t) : TeardownInv t := by
  cases a with
  | begin operation =>
      simp only [backendMachine] at hstep
      split at hstep
      · rename_i hadmitted
        obtain rfl := Option.some.inj hstep
        refine ⟨h.lockstep, h.owned, h.inContext, ?_, ?_⟩
        · intro r hr
          rcases List.mem_append.mp hr with hold | hnew
          · exact h.admitted r hold
          · obtain rfl := List.mem_singleton.mp hnew
            exact hadmitted
        · intro r hr sessionId runId htears
          rcases List.mem_append.mp hr with hold | hnew
          · exact h.swept r hold sessionId runId htears
          · obtain rfl := List.mem_singleton.mp hnew
            exact ⟨fun hpast => absurd hpast (Nat.lt_irrefl 0), fun hpast => by
              simp at hpast, fun hpast => by simp at hpast⟩
      · cases hstep
  | advance i now resolvedAt =>
      simp only [backendMachine] at hstep
      split at hstep
      · cases hstep
      rename_i r hi
      split at hstep
      · cases hstep
      rename_i transaction hnext
      split at hstep
      · cases hstep
      rename_i db hdb
      obtain rfl := Option.some.inj hstep
      have hr := List.mem_of_getElem? hi
      have hpersist := transaction_tasksPersist hdb
      have hadmitted := Operation.transactions_admitted (h.admitted r hr)
        (List.mem_of_getElem? hnext)
      have hquiet := hok r hi transaction hnext
      have hsame : ∀ q ∈ s.operations, ∀ sessionId runId,
          q.operation.tearsDown = some (sessionId, runId) →
          Swept db (sessionId, subagentInstanceId runId) q.position := by
        intro q hq sessionId runId htears
        refine (h.swept q hq sessionId runId htears).step h.lockstep h.owned
          (isSubagentInstance_subagentInstanceId runId) hadmitted ?_ hdb
        have hq' := hquiet q hq
        simpa [OperationProgress.outrunBy, htears] using hq'
      refine ⟨(transaction_lockstep h.lockstep hdb).1, transaction_owned h.lockstep h.owned hdb,
        transaction_inContext h.inContext hadmitted hdb, ?_, ?_⟩
      · intro q hq
        rcases List.mem_or_eq_of_mem_set hq with hold | rfl
        · exact Operation.admitted_persist hpersist (h.admitted q hold)
        · exact Operation.admitted_persist hpersist (h.admitted r hr)
      · intro q hq sessionId runId htears
        rcases List.mem_or_eq_of_mem_set hq with hold | rfl
        · exact hsame q hold sessionId runId htears
        · exact (hsame r hr sessionId runId htears).advance h.lockstep htears hnext hdb

/-- A teardown that has finished has swept everything. -/
theorem TeardownInv.clean {s : Backend} (h : TeardownInv s) {r : OperationProgress}
    (hr : r ∈ s.operations) (hfinished : r.finished = true) {sessionId runId : String}
    (htears : r.operation.tearsDown = some (sessionId, runId)) :
    SubtreeClean s.db (subagentInstanceId runId) := by
  have hswept := h.swept r hr sessionId runId htears
  have hposition : 3 < r.position := by
    obtain ⟨message, last, -, htransactions⟩ := Operation.tearsDown_transactions htears
    unfold OperationProgress.finished at hfinished
    rw [htransactions, decide_eq_true_eq] at hfinished
    exact hfinished
  -- the run itself ties the session of everything its instance owns
  obtain ⟨task, htask, hsession, hrun⟩ : ∃ task ∈ s.db.tasks.rows,
      task.sessionId = sessionId ∧ task.runId = runId := by
    have hadmitted := h.admitted r hr
    have hany : s.db.tasks.rows.any (fun task => decide (task.sessionId = sessionId) &&
        decide (task.runId = runId)) = true := by
      cases hop : r.operation with
      | failSubagent session run message =>
          rw [hop] at htears hadmitted
          obtain ⟨rfl, rfl⟩ := Prod.mk.inj (Option.some.inj htears)
          exact hadmitted
      | cancelSubagent session run =>
          rw [hop] at htears hadmitted
          obtain ⟨rfl, rfl⟩ := Prod.mk.inj (Option.some.inj htears)
          exact hadmitted
      | startSubagentTaskRun | startAsyncSandboxCommand | completeSubagent | transact =>
          rw [hop] at htears
          cases htears
    obtain ⟨task, htask, heq⟩ := List.any_eq_true.mp hany
    rw [Bool.and_eq_true, decide_eq_true_eq, decide_eq_true_eq] at heq
    exact ⟨task, htask, heq⟩
  have howner : ∀ session instanceId, s.db.hasContext session instanceId = true →
      instanceId = subagentInstanceId runId → (session, instanceId) =
        (sessionId, subagentInstanceId runId) := by
    intro session instanceId hcontext hinstance
    have hsame := InContext.owner htask hcontext (by rw [hinstance, hrun])
    rw [hsame, hsession, hinstance]
  refine ⟨?_, ?_, ?_⟩
  · intro child hchild hparent
    exact hswept.tasks (by omega) child hchild
      (howner _ _ (h.inContext.tasks child hchild) hparent)
  · intro job hjob hagent
    exact hswept.jobs (by omega) job hjob (howner _ _ (h.inContext.jobs job hjob) hagent)
  · intro n hn htarget
    have hown : n.owner = (sessionId, subagentInstanceId runId) :=
      howner _ _ (h.inContext.notifications n hn) htarget
    rw [Bool.eq_false_iff]
    intro houtstanding
    rcases NotificationStatus.isOutstanding_iff.mp houtstanding with hawaiting | hactive
    · cases hkind : n.kind with
      | subagentFinished =>
          obtain ⟨child, hget, hrunning⟩ := h.lockstep.tasks n hn hkind
          exact hswept.tasks (by omega) child (Table.get?_eq_some hget).1
            ((h.owned.tasks n hn hkind child hget).trans hown) (hrunning hawaiting)
      | sandboxAsyncJobFinished =>
          obtain ⟨job, hget, hrunning⟩ := h.lockstep.jobs n hn hkind
          exact hswept.jobs (by omega) job (Table.get?_eq_some hget).1
            ((h.owned.jobs n hn hkind job hget).trans hown) (hrunning hawaiting)
      | userMessage => exact h.owned.messages n hn hkind hawaiting
    · rw [hswept.inbox (by omega) n hn hown] at hactive
      cases hactive

/-- A run, started by the main agent or by another run. -/
def startedRun (runId parentAgentInstanceId : String) : Operation :=
  .startSubagentTaskRun {
    runId := runId
    obligationId := runId
    sessionId := "s"
    parentAgentCode := "planner"
    parentAgentInstanceId := parentAgentInstanceId
    agentCode := "scout"
    agentName := "Scout"
    brief := "look around"
    nestedCallId := "c"
    ownerId := 1 }

/-- A job of an agent of the session. -/
def startedJob (runId agentInstanceId : String) : Operation :=
  .startAsyncSandboxCommand {
    runId := runId
    obligationId := runId
    sessionId := "s"
    agentCode := "scout"
    agentInstanceId := agentInstanceId
    command := "sleep 60"
    outputFile := "out.txt"
    nestedForAgentCode := "planner"
    nestedCallId := "c"
    sandboxContainerId := some 1
    sandboxContainerGeneration := 1
    sandboxSkillMetadata := [] }

/-- A run with a child and a job is cancelled. -/
def sweptSteps : List BackendAction :=
  [.begin (startedRun "r" "main:s:1:planner"), .advance 0 1 1,
    .begin (startedRun "c" "subagent:r"), .advance 1 2 2,
    .begin (startedJob "j" "subagent:r"), .advance 2 3 3,
    .begin (.cancelSubagent "s" "r"), .advance 3 4 4, .advance 3 5 5, .advance 3 6 6,
    .advance 3 7 7]

/-- **A teardown is complete.**  In every run of the backend in which no
transaction outruns a sweep, every teardown that has finished leaves nothing of
its instance: no RUNNING child or job, and nothing outstanding in its inbox. -/
theorem teardown_complete {acts : List BackendAction} {t : Backend}
    (hok : StepsMeet backendMachine (fun s a _ => SweepsLast s a) { db := Database.empty } acts)
    (hexec : exec backendMachine { db := Database.empty } acts = some t) :
    ∀ r ∈ t.operations, r.finished = true → ∀ sessionId runId,
      r.operation.tearsDown = some (sessionId, runId) →
        SubtreeClean t.db (subagentInstanceId runId) := by
  have hinv : TeardownInv t :=
    exec_invariant (fun _ _ _ h hlast hstep => h.step hlast hstep) teardownInv_start hok hexec
  exact fun r hr hfinished _ _ htears => hinv.clean hr hfinished htears

/-- A child is started, and its parent's teardown sweeps it. -/
theorem teardown_complete_run :
    ∃ t, exec backendMachine { db := Database.empty } sweptSteps = some t ∧
      ∀ r ∈ t.operations, r.finished = true → ∀ sessionId runId,
        r.operation.tearsDown = some (sessionId, runId) →
          SubtreeClean t.db (subagentInstanceId runId) :=
  ⟨_, rfl, @teardown_complete sweptSteps _ (by decide) rfl⟩

/-- A run is cancelled while the starter of its child is in flight; the starter
commits after the sweeps, and the child runs to its end. -/
def orphanSteps : List BackendAction :=
  [.begin (startedRun "r" "main:s:1:planner"), .advance 0 1 1,
    .begin (startedRun "c" "subagent:r"),
    .begin (.cancelSubagent "s" "r"), .advance 2 2 2, .advance 2 3 3, .advance 2 4 4,
    .advance 2 5 5, .advance 1 6 6,
    .begin (.completeSubagent "c" "report"), .advance 3 7 7]

/-- **A shielded starter outlives the teardown.**  Everything has finished, and
the notification of the orphaned child is PENDING for a run that is no more. -/
theorem orphan_outlives_teardown :
    ∃ t, exec backendMachine { db := Database.empty } orphanSteps = some t ∧ ¬ TornDown t := by
  have hrun : ∃ t, exec backendMachine { db := Database.empty } orphanSteps = some t ∧
      t.operations.all OperationProgress.finished = true ∧
      t.operations[2]?.map (fun r => r.operation.tearsDown) = some (some ("s", "r")) ∧
      t.db.notifications.rows.map (fun n => (n.targetAgentInstanceId, n.status)) =
        [("main:s:1:planner", .canceled), ("subagent:r", .pending)] :=
    ⟨_, rfl, rfl, rfl, rfl⟩
  obtain ⟨t, hexec, hfinished, hteardown, hrows⟩ := hrun
  refine ⟨t, hexec, fun h => ?_⟩
  obtain ⟨r, hget, htears⟩ := Option.map_eq_some_iff.mp hteardown
  have hclean := h (List.all_eq_true.mp hfinished) r (List.mem_of_getElem? hget) "s" "r" htears
  have hmem : ("subagent:r", NotificationStatus.pending) ∈
      t.db.notifications.rows.map (fun n => (n.targetAgentInstanceId, n.status)) := by
    rw [hrows]
    exact List.mem_cons_of_mem _ List.mem_cons_self
  obtain ⟨n, hn, heq⟩ := List.mem_map.mp hmem
  obtain ⟨htarget, hstatus⟩ := Prod.mk.inj heq
  have hresolved := hclean.notifications n hn (htarget.trans (by decide))
  rw [hstatus] at hresolved
  cases hresolved

end Workbench
