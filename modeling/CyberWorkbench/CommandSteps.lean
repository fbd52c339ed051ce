import CyberWorkbench.CommandJobs

/-!
# What a step does to a command job

Every step of `commandMachine` seen from its three sides: the progress of a job
(`commandStep_jobs`), the row of the job (`commandStep_row`) and the phase of a
cancellation (`commandStep_call`).  `CommandInv` is what all of them keep: a
process runs only while the task holds it, a cancellation is requested only of
a job that left `_jobs`, and a task that ended has recorded its outcome, unless
it was cancelled.
-/

namespace Workbench

open KeyedTable PythonValues StepMachine

/-! ### What a transaction does to one job -/

/-- What the transaction makes of a job row. -/
def Transaction.settlesJob (row : SandboxAsyncJob) : Transaction → Option WorkStatus
  | .completeAsyncJob runId _ _ _ =>
      if row.runId = runId ∧ row.status = .running then some .completed else none
  | .failAsyncJob runId _ _ _ =>
      if row.runId = runId ∧ row.status = .running then some .failed else none
  | .cancelAsyncJob runId _ _ _ =>
      if row.runId = runId ∧ row.status = .running then some .canceled else none
  | .cancelRunningAsyncJobs filter _ => if filter.selects row then some .canceled else none
  | _ => none

/-- The transactions that finish or cancel jobs. -/
def Transaction.endsJobs : Transaction → Bool
  | .completeAsyncJob .. | .failAsyncJob .. | .cancelAsyncJob .. | .cancelRunningAsyncJobs .. => true
  | _ => false

/-- A finisher writes its own run, when it is RUNNING, and nothing else. -/
theorem finishWorkWrite_rowwise {ρ : Type} {key : ρ → String} (K : WorkKind ρ key) (runId : String)
    (s : Settlement K) (resolvedAt : Time) (work : Table ρ key) (ns : NotificationTable) :
    work.Rowwise (fun r r' => r' = if isRunningRun K runId r then s.set r else r)
      (finishWorkWrite K runId s resolvedAt work ns).1 := by
  unfold finishWorkWrite
  split
  · rename_i hnone
    intro k
    cases hget : work.get? k with
    | none => exact .none
    | some r =>
        have hno := List.find?_eq_none.mp hnone r (Table.get?_eq_some hget).1
        refine .some ?_
        rw [if_neg hno]
  · exact Table.rowwise_updateWhere work _ _ s.keepsKey

/-- A finisher of a job, whether it goes on to its UPDATE or not. -/
theorem finishJob_rowwise {runId : String} {s : Settlement asyncJobWork} {db db' : Database}
    {now : Time} (hs : ∀ r, (s.set r).owner = r.owner)
    (h : (match finishJobRead runId s db with | none => some db | some w => w.commit now db) =
      some db') :
    db.jobs.Rowwise (fun r r' => r'.owner = r.owner ∧
      r'.status = if r.runId = runId ∧ r.status = .running then s.outcome else r.status)
      db'.jobs := by
  unfold finishJobRead at h
  split at h
  · rename_i hnone
    split at hnone
    · cases hnone
    · rename_i hread
      obtain rfl := Option.some.inj h
      intro k
      cases hget : db.jobs.get? k with
      | none => exact .none
      | some r =>
          refine .some ⟨rfl, ?_⟩
          rw [if_neg]
          rintro ⟨rfl, hrunning⟩
          obtain rfl : r.runId = k := (Table.get?_eq_some hget).2
          apply hread
          unfold finishWorkRead
          rw [hget]
          change (!r.status.isTerminal) = true
          rw [hrunning]
          rfl
  · rename_i w hsome
    split at hsome
    · obtain rfl := Option.some.inj hsome
      obtain rfl := Option.some.inj h
      refine (finishWorkWrite_rowwise asyncJobWork runId s now db.jobs db.notifications).mono ?_
      rintro _ r r' - rfl
      by_cases hrun : isRunningRun asyncJobWork runId r = true
      · rw [if_pos hrun]
        simp only [isRunningRun, Bool.and_eq_true, decide_eq_true_eq] at hrun
        have hrunning : r.runId = runId ∧ r.status = .running := hrun
        rw [if_pos hrunning]
        exact ⟨hs r, s.setsStatus r⟩
      · rw [if_neg hrun]
        simp only [isRunningRun, Bool.and_eq_true, decide_eq_true_eq] at hrun
        have hrunning : ¬ (r.runId = runId ∧ r.status = .running) := hrun
        rw [if_neg hrunning]
        exact ⟨rfl, rfl⟩
    · cases hsome

/-- **What a transaction that ends jobs does to each of them.** -/
theorem transaction_rowwise {t : Transaction} {now : Time} {db db' : Database}
    (hends : t.endsJobs = true) (h : transactionMachine.step db ⟨t, now, now⟩ = some db') :
    db.jobs.Rowwise (fun r r' => r'.owner = r.owner ∧
      r'.status = (t.settlesJob r).getD r.status) db'.jobs := by
  cases t with
  | completeAsyncJob runId exitCode outputBytes outputLines
  | failAsyncJob runId error outputBytes outputLines
  | cancelAsyncJob runId error outputBytes outputLines =>
      refine (finishJob_rowwise (fun _ => rfl) h).mono ?_
      rintro _ r r' - ⟨howner, hstatus⟩
      refine ⟨howner, hstatus.trans ?_⟩
      by_cases hrunning : r.runId = runId ∧ r.status = .running
      · rw [if_pos hrunning, Transaction.settlesJob, if_pos hrunning]
        rfl
      · rw [if_neg hrunning, Transaction.settlesJob, if_neg hrunning]
        rfl
  | cancelRunningAsyncJobs filter error =>
      obtain rfl := Option.some.inj h
      have hrow := Table.rowwise_writeBack db.jobs (Workbench.cancelRunningAsyncJobs error now).write
        (Workbench.cancelRunningAsyncJobs error now).keepsKey
        (db.jobs.select filter.selects).keysDistinct
      change db.jobs.Rowwise _ (settleLoadedWrite asyncJobWork
        (Workbench.cancelRunningAsyncJobs error now) now (db.jobs.select filter.selects).rows
        db.jobs db.notifications).1
      rw [settleLoadedWrite_eq]
      refine hrow.mono ?_
      rintro _ r r' hget (⟨rfl, hno⟩ | ⟨l, hl, hkey, rfl⟩)
      · refine ⟨rfl, ?_⟩
        have hunselected : filter.selects r' = false := by
          cases hselected : filter.selects r' with
          | false => rfl
          | true => exact absurd rfl (hno r' (Table.mem_select.mpr
              ⟨(Table.get?_eq_some hget).1, hselected⟩))
        simp [Transaction.settlesJob, hunselected]
      · obtain ⟨hmem, hselected⟩ := Table.mem_select.mp hl
        obtain rfl := Table.eq_of_key_eq hmem (Table.get?_eq_some hget).1 hkey
        refine ⟨rfl, ?_⟩
        rw [Transaction.settlesJob, if_pos hselected]
        exact writtenField_unchanged l.status .canceled
  | _ => cases hends

/-! ### What a step does -/

/-- The transaction a step commits. -/
def CommandState.transactionOf (s : CommandState) : JobAction → Option (Transaction × Time)
  | .create request now => some (.createAsyncJob request, now)
  | .task runId move result now =>
      ((s.jobs.get? runId).bind (fun r => r.transaction move result)).map (fun t => (t, now))
  | .record callId now => (s.cancels.get? callId).map (fun call => (call.scope.transaction, now))
  | _ => none

/-- No cancellation selects the job in this step. -/
def Unselected (s : CommandState) (r : AsyncCommandJob) (a : JobAction) : Prop :=
  ∀ callId call, a = .select callId → s.cancels.get? callId = some call →
    r.progress.entry = .listed → call.scope.selects r = false

/-- What a step does to a job that is there. -/
inductive ProgressChange (s : CommandState) (r : AsyncCommandJob) : JobAction → JobProgress → Prop
  | kept (a : JobAction) (hunselected : Unselected s r a) : ProgressChange s r a r.progress
  | spawned {p : JobProgress} (h : r.progress.spawn = some p) :
      ProgressChange s r (.spawn r.runId) p
  | registered {p : JobProgress} (h : r.progress.register = some p) :
      ProgressChange s r (.register r.runId) p
  | abandoned {p : JobProgress} (h : r.progress.abandon = some p) :
      ProgressChange s r (.abandon r.runId) p
  | exited {p : JobProgress} (h : r.progress.exit = some p) : ProgressChange s r (.exit r.runId) p
  | forgotten {p : JobProgress} (h : r.progress.forget = some p) :
      ProgressChange s r (.forget r.runId) p
  | moved {p : JobProgress} {move : TaskMove} {result : TaskResult} {now : Time}
      (h : r.progress.move move = some p) : ProgressChange s r (.task r.runId move result now) p
  | taken {call : CancelCall} (hcall : s.cancels.get? call.callId = some call)
      (hphase : call.phase = .requested) (hlisted : r.progress.entry = .listed)
      (hselects : call.scope.selects r = true) :
      ProgressChange s r (.select call.callId) { r.progress with entry := .taken call.callId }
  | canceled {callId : Nat} (hentry : r.progress.entry = .taken callId)
      (hprocess : r.progress.task.holdsProcess = false) :
      ProgressChange s r (.cancel callId r.runId) (r.progress.cancelBy callId)
  | resumed {callId : Nat} (hentry : r.progress.entry = .taken callId)
      (hprocess : r.progress.process ≠ .running) :
      ProgressChange s r (.resume callId) (r.progress.cancelBy callId)

theorem get?_setPhase (s : CommandState) (callId k : Nat) (phase : CancelPhase) :
    (s.setPhase callId phase).cancels.get? k =
      if k = callId then (s.cancels.get? k).map (fun call => { call with phase := phase })
      else s.cancels.get? k := by
  change (s.cancels.updateWhere (fun call => decide (call.callId = callId))
    (fun call => { call with phase := phase }) (fun _ => rfl)).get? k = _
  rw [Table.get?_updateWhere]
  cases hget : s.cancels.get? k with
  | none => simp
  | some call =>
      have hid : call.callId = k := (Table.get?_eq_some hget).2
      by_cases heq : k = callId
      · simp [hid, heq]
      · simp [hid, heq]

/-- The rows before and after a step that creates no job. -/
def JobsChange (s : CommandState) (a : JobAction) (t : CommandState) : Prop :=
  s.jobs.Rowwise (fun r r' => ∃ p, r' = { r with progress := p } ∧ ProgressChange s r a p) t.jobs

theorem unselected_of_ne {s : CommandState} {a : JobAction} (h : ∀ callId, a ≠ .select callId)
    (r : AsyncCommandJob) : Unselected s r a :=
  fun callId _ heq => absurd heq (h callId)

theorem jobsChange_of_kept {s t : CommandState} {a : JobAction} (h : t.jobs = s.jobs)
    (hunselected : ∀ r ∈ s.jobs.rows, Unselected s r a) : JobsChange s a t := by
  have hsame : s.jobs.Rowwise Eq t.jobs := by
    rw [h]
    exact Table.Rowwise.refl (fun r => rfl) s.jobs
  refine hsame.mono ?_
  rintro k r _ hr rfl
  exact ⟨_, rfl, .kept a (hunselected _ (Table.get?_eq_some hr).1)⟩

/-- The job whose progress is set, and every other. -/
theorem jobsChange_of_setProgress {s t : CommandState} {runId : String} {r : AsyncCommandJob}
    {p : JobProgress} {a : JobAction} (hget : s.jobs.get? runId = some r)
    (hchange : ProgressChange s r a p) (hselect : ∀ callId, a ≠ .select callId)
    (h : t.jobs = (s.setProgress runId p).jobs) : JobsChange s a t := by
  have hrow := Table.rowwise_updateWhere s.jobs (fun r => decide (r.runId = runId))
    (fun r => { r with progress := p }) (fun _ => rfl)
  unfold JobsChange
  rw [h]
  refine hrow.mono ?_
  intro k q q' hq hq'
  by_cases heq : q.runId = runId
  · rw [if_pos (decide_eq_true heq)] at hq'
    obtain rfl : q = r := by
      rw [← (Table.get?_eq_some hq).2, heq] at hq
      exact Option.some.inj (hq.symm.trans hget)
    exact ⟨p, hq', hchange⟩
  · rw [if_neg (by simpa using heq)] at hq'
    exact ⟨q.progress, hq', .kept a (unselected_of_ne hselect q)⟩

theorem jobsChange_of_advance {s t : CommandState} {runId : String}
    {f : JobProgress → Option JobProgress} {a : JobAction} (hstep : s.advance runId f = some t)
    (hselect : ∀ callId, a ≠ .select callId)
    (h : ∀ r p, r.runId = runId → f r.progress = some p → ProgressChange s r a p) :
    JobsChange s a t := by
  unfold CommandState.advance at hstep
  split at hstep
  · cases hstep
  · rename_i r hr
    obtain ⟨p, hp, rfl⟩ := Option.map_eq_some_iff.mp hstep
    exact jobsChange_of_setProgress hr (h r p (Table.get?_eq_some hr).2 hp) hselect rfl

theorem transact_eq_some {s t : CommandState} {transaction : Transaction} {now : Time}
    (h : s.transact transaction now = some t) :
    transactionMachine.step s.db ⟨transaction, now, now⟩ = some t.db ∧ t.jobs = s.jobs ∧
      t.cancels = s.cancels := by
  obtain ⟨db, hdb, rfl⟩ := Option.map_eq_some_iff.mp h
  exact ⟨hdb, rfl, rfl⟩

/-- **The database side of a step**: one whole transaction, or nothing. -/
theorem commandStep_db {s t : CommandState} {a : JobAction} (h : commandStep s a = some t) :
    (s.transactionOf a = none ∧ t.db = s.db) ∨
      ∃ transaction now, s.transactionOf a = some (transaction, now) ∧
        transactionMachine.step s.db ⟨transaction, now, now⟩ = some t.db := by
  have hadvance : ∀ {runId f}, s.advance runId f = some t → t.db = s.db := by
    intro runId f hstep
    unfold CommandState.advance at hstep
    split at hstep
    · cases hstep
    · obtain ⟨p, -, rfl⟩ := Option.map_eq_some_iff.mp hstep
      rfl
  cases a with
  | create request now =>
      simp only [commandStep] at h
      split at h
      · cases h
      · rename_i u hu
        obtain ⟨jobs, -, rfl⟩ := Option.map_eq_some_iff.mp h
        exact .inr ⟨_, _, rfl, (transact_eq_some hu).1⟩
  | spawn runId | register runId | abandon runId | exit runId | forget runId =>
      exact .inl ⟨rfl, hadvance h⟩
  | task runId move result now =>
      simp only [commandStep] at h
      split at h
      · cases h
      · rename_i r hr
        split at h
        · cases h
        · rename_i p hp
          simp only [CommandState.transactionOf, hr, Option.bind_some]
          split at h
          · rename_i hnone
            obtain rfl := Option.some.inj h
            exact .inl ⟨by rw [hnone]; rfl, rfl⟩
          · rename_i transaction hsome
            obtain ⟨u, hu, rfl⟩ := Option.map_eq_some_iff.mp h
            exact .inr ⟨transaction, now, by rw [hsome]; rfl, (transact_eq_some hu).1⟩
  | request callId scope =>
      obtain ⟨cancels, -, rfl⟩ := Option.map_eq_some_iff.mp h
      exact .inl ⟨rfl, rfl⟩
  | select callId =>
      simp only [commandStep] at h
      split at h
      · cases h
      · split at h
        · split at h
          · obtain rfl := Option.some.inj h
            exact .inl ⟨rfl, rfl⟩
          · obtain rfl := Option.some.inj h
            exact .inl ⟨rfl, rfl⟩
        · cases h
  | cancel callId runId =>
      simp only [commandStep] at h
      split at h
      · split at h
        · split at h
          · obtain rfl := Option.some.inj h
            exact .inl ⟨rfl, rfl⟩
          · obtain rfl := Option.some.inj h
            exact .inl ⟨rfl, rfl⟩
        · cases h
      · cases h
  | resume callId =>
      simp only [commandStep] at h
      split at h
      · cases h
      · split at h
        · split at h
          · cases h
          · split at h
            · obtain rfl := Option.some.inj h
              exact .inl ⟨rfl, rfl⟩
            · cases h
        · cases h
  | gather callId =>
      simp only [commandStep] at h
      split at h
      · cases h
      · split at h
        · obtain rfl := Option.some.inj h
          exact .inl ⟨rfl, rfl⟩
        · cases h
  | record callId now =>
      simp only [commandStep] at h
      split at h
      · cases h
      · rename_i call hcall
        split at h
        · obtain ⟨u, hu, rfl⟩ := Option.map_eq_some_iff.mp h
          exact .inr ⟨_, now, by simp only [CommandState.transactionOf, hcall]; rfl,
            (transact_eq_some hu).1⟩
        · cases h

/-- **The job side of a step**, when it creates none. -/
theorem commandStep_jobs {s t : CommandState} {a : JobAction}
    (hcreate : ∀ request now, a ≠ .create request now) (h : commandStep s a = some t) :
    JobsChange s a t := by
  cases a with
  | create request now => exact absurd rfl (hcreate request now)
  | spawn runId => exact jobsChange_of_advance h (by simp) (fun r p hid hp => hid ▸ .spawned hp)
  | register runId => exact jobsChange_of_advance h (by simp) (fun r p hid hp => hid ▸ .registered hp)
  | abandon runId => exact jobsChange_of_advance h (by simp) (fun r p hid hp => hid ▸ .abandoned hp)
  | exit runId => exact jobsChange_of_advance h (by simp) (fun r p hid hp => hid ▸ .exited hp)
  | forget runId => exact jobsChange_of_advance h (by simp) (fun r p hid hp => hid ▸ .forgotten hp)
  | task runId move result now =>
      simp only [commandStep] at h
      split at h
      · cases h
      · rename_i r hr
        have hid : r.runId = runId := (Table.get?_eq_some hr).2
        split at h
        · cases h
        · rename_i p hp
          have hmoved : ProgressChange s r (.task runId move result now) p := hid ▸ .moved hp
          split at h
          · obtain rfl := Option.some.inj h
            exact jobsChange_of_setProgress hr hmoved (by simp) rfl
          · obtain ⟨u, hu, rfl⟩ := Option.map_eq_some_iff.mp h
            obtain ⟨db, -, rfl⟩ := Option.map_eq_some_iff.mp hu
            exact jobsChange_of_setProgress hr hmoved (by simp) rfl
  | request callId scope =>
      obtain ⟨cancels, -, rfl⟩ := Option.map_eq_some_iff.mp h
      exact jobsChange_of_kept rfl (fun r _ => unselected_of_ne (by simp) r)
  | select callId =>
      simp only [commandStep] at h
      split at h
      · cases h
      · rename_i call hcall
        have hid : call.callId = callId := (Table.get?_eq_some hcall).2
        split at h
        · rename_i hphase
          split at h
          · obtain rfl := Option.some.inj h
            have hrow := Table.rowwise_updateWhere s.jobs
              (fun r => decide (r.progress.entry = .listed) && call.scope.selects r)
              (fun r => { r with progress := { r.progress with entry := .taken call.callId } })
              (fun _ => rfl)
            change s.jobs.Rowwise _ (s.take call).jobs
            refine hrow.mono ?_
            intro k r r' _ hr'
            split at hr'
            · rename_i hselected
              simp only [Bool.and_eq_true, decide_eq_true_eq] at hselected
              refine ⟨_, hr', ?_⟩
              rw [← hid] at hcall ⊢
              exact .taken hcall hphase hselected.1 hselected.2
            · rename_i hno
              refine ⟨r.progress, hr', .kept _ ?_⟩
              intro callId' call' heq hcall' hlisted
              obtain rfl := JobAction.select.inj heq
              obtain rfl := Option.some.inj (hcall.symm.trans hcall')
              simpa [hlisted] using hno
          · rename_i hnone
            obtain rfl := Option.some.inj h
            refine jobsChange_of_kept rfl ?_
            intro r hr callId' call' heq hcall' hlisted
            obtain rfl := JobAction.select.inj heq
            obtain rfl := Option.some.inj (hcall.symm.trans hcall')
            cases hselects : call.scope.selects r with
            | false => rfl
            | true =>
                exact absurd (List.any_eq_true.mpr ⟨r, hr, by simp [hlisted, hselects]⟩) hnone
        · cases h
  | cancel callId runId =>
      simp only [commandStep] at h
      split at h
      · rename_i call r hcall hr
        have hid : r.runId = runId := (Table.get?_eq_some hr).2
        split at h
        · rename_i hturn
          split at h
          · obtain rfl := Option.some.inj h
            exact jobsChange_of_kept rfl (fun r _ => unselected_of_ne (by simp) r)
          · rename_i hprocess
            obtain rfl := Option.some.inj h
            rw [Bool.not_eq_true] at hprocess
            exact jobsChange_of_setProgress hr (hid ▸ .canceled hturn.2 hprocess) (by simp) rfl
        · cases h
      · cases h
  | resume callId =>
      simp only [commandStep] at h
      split at h
      · cases h
      · split at h
        · split at h
          · cases h
          · rename_i r hr
            split at h
            · rename_i hturn
              obtain rfl := Option.some.inj h
              exact jobsChange_of_setProgress hr (.resumed hturn.2 hturn.1) (by simp) rfl
            · cases h
        · cases h
  | gather callId =>
      simp only [commandStep] at h
      split at h
      · cases h
      · split at h
        · obtain rfl := Option.some.inj h
          exact jobsChange_of_kept rfl (fun r _ => unselected_of_ne (by simp) r)
        · cases h
  | record callId now =>
      simp only [commandStep] at h
      split at h
      · cases h
      · split at h
        · obtain ⟨u, hu, rfl⟩ := Option.map_eq_some_iff.mp h
          obtain ⟨db, -, rfl⟩ := Option.map_eq_some_iff.mp hu
          exact jobsChange_of_kept rfl (fun r _ => unselected_of_ne (by simp) r)
        · cases h

/-- What `create` adds. -/
theorem commandStep_create {s t : CommandState} {request : AsyncJobRequest} {now : Time}
    (h : commandStep s (.create request now) = some t) :
    transactionMachine.step s.db ⟨.createAsyncJob request, now, now⟩ = some t.db ∧
      s.jobs.insert { runId := request.runId, sessionId := request.sessionId,
                      agentInstanceId := request.agentInstanceId } = some t.jobs := by
  simp only [commandStep] at h
  split at h
  · cases h
  · rename_i u hu
    obtain ⟨jobs, hinsert, rfl⟩ := Option.map_eq_some_iff.mp h
    obtain ⟨hdb, hjobs, -⟩ := transact_eq_some hu
    rw [hjobs] at hinsert
    exact ⟨hdb, hinsert⟩

/-- A job that is there, after any step. -/
theorem commandStep_job {s t : CommandState} {a : JobAction} (h : commandStep s a = some t)
    {k : String} {r : AsyncCommandJob} (hget : s.jobs.get? k = some r) :
    ∃ p, t.jobs.get? k = some { r with progress := p } ∧ ProgressChange s r a p := by
  by_cases hcreate : ∃ request now, a = .create request now
  · obtain ⟨request, now, rfl⟩ := hcreate
    exact ⟨r.progress, Table.get?_of_insert (commandStep_create h).2 hget,
      .kept _ (unselected_of_ne (by simp) r)⟩
  · have hchange := commandStep_jobs (fun request now heq => hcreate ⟨request, now, heq⟩) h
    obtain ⟨r', hr', p, rfl, hp⟩ := hchange.after hget
    exact ⟨p, hr', hp⟩

/-- What a step does to a cancellation that is under way. -/
inductive PhaseChange (s : CommandState) (call : CancelCall) : JobAction → CancelPhase → Prop
  | kept (a : JobAction) (hother : a ≠ .select call.callId ∧ a ≠ .gather call.callId ∧
      a ≠ .resume call.callId ∧ ∀ now, a ≠ .record call.callId now) :
      PhaseChange s call a call.phase
  | selected (hphase : call.phase = .requested)
      (hsome : ∃ r ∈ s.jobs.rows, r.progress.entry = .listed ∧ call.scope.selects r = true) :
      PhaseChange s call (.select call.callId) .canceling
  | unselected (hphase : call.phase = .requested)
      (hnone : ∀ r ∈ s.jobs.rows, r.progress.entry = .listed → call.scope.selects r = false) :
      PhaseChange s call (.select call.callId) .recording
  | killing {runId : String} (hphase : call.phase = .canceling) :
      PhaseChange s call (.cancel call.callId runId) (.killing runId)
  | resumed {runId : String} (hphase : call.phase = .killing runId) :
      PhaseChange s call (.resume call.callId) .canceling
  | gathered (hphase : call.phase = .canceling) (hdone : s.gathered call.callId = true) :
      PhaseChange s call (.gather call.callId) (if call.scope.isRun then .returned else .recording)
  | recorded {now : Time} (hphase : call.phase = .recording) :
      PhaseChange s call (.record call.callId now) .returned

/-- The cancellation whose phase is set, and every other. -/
theorem setPhase_call {s : CommandState} {callId k : Nat} {call : CancelCall}
    {phase : CancelPhase} {P : CancelPhase → Prop} (hget : s.cancels.get? k = some call)
    (hown : call.callId = callId → P phase) (hother : call.callId ≠ callId → P call.phase) :
    ∃ phase', (s.setPhase callId phase).cancels.get? k = some { call with phase := phase' } ∧
      P phase' := by
  have hid : call.callId = k := (Table.get?_eq_some hget).2
  by_cases heq : k = callId
  · refine ⟨phase, ?_, hown (hid.trans heq)⟩
    rw [get?_setPhase, if_pos heq, hget]
    rfl
  · refine ⟨call.phase, ?_, hother (hid ▸ heq)⟩
    rw [get?_setPhase, if_neg heq, hget]

/-- **The cancellation side of a step.** -/
theorem commandStep_call {s t : CommandState} {a : JobAction} (h : commandStep s a = some t)
    {k : Nat} {call : CancelCall} (hget : s.cancels.get? k = some call) :
    ∃ phase, t.cancels.get? k = some { call with phase := phase } ∧
      PhaseChange s call a phase := by
  have hadvance : ∀ {runId f}, s.advance runId f = some t → t.cancels = s.cancels := by
    intro runId f hstep
    unfold CommandState.advance at hstep
    split at hstep
    · cases hstep
    · obtain ⟨p, -, rfl⟩ := Option.map_eq_some_iff.mp hstep
      rfl
  have hsame : ∀ {callId q}, s.cancels.get? callId = some q → call.callId = callId → q = call := by
    intro callId q hq hid
    rw [← hid, (Table.get?_eq_some hget).2, hget] at hq
    exact (Option.some.inj hq).symm
  cases a with
  | create request now =>
      simp only [commandStep] at h
      split at h
      · cases h
      · rename_i u hu
        obtain ⟨jobs, -, rfl⟩ := Option.map_eq_some_iff.mp h
        refine ⟨call.phase, ?_, .kept _ (by simp)⟩
        change u.cancels.get? k = _
        rw [(transact_eq_some hu).2.2, hget]
  | spawn runId | register runId | abandon runId | exit runId | forget runId =>
      exact ⟨call.phase, by rw [hadvance h, hget], .kept _ (by simp)⟩
  | task runId move result now =>
      refine ⟨call.phase, ?_, .kept _ (by simp)⟩
      simp only [commandStep] at h
      split at h
      · cases h
      · split at h
        · cases h
        · split at h
          · obtain rfl := Option.some.inj h
            exact hget
          · obtain ⟨u, hu, rfl⟩ := Option.map_eq_some_iff.mp h
            change u.cancels.get? k = _
            rw [(transact_eq_some hu).2.2, hget]
  | request callId scope =>
      obtain ⟨cancels, hinsert, rfl⟩ := Option.map_eq_some_iff.mp h
      exact ⟨call.phase, Table.get?_of_insert hinsert hget, .kept _ (by simp)⟩
  | select callId =>
      simp only [commandStep] at h
      split at h
      · cases h
      · rename_i q hq
        split at h
        · rename_i hphase
          split at h
          · rename_i hsome
            obtain rfl := Option.some.inj h
            refine setPhase_call (s := s.take q) hget ?_ ?_
            · intro hid
              obtain rfl := hsame hq hid
              obtain ⟨r, hr, hboth⟩ := List.any_eq_true.mp hsome
              simp only [Bool.and_eq_true, decide_eq_true_eq] at hboth
              exact hid ▸ .selected hphase ⟨r, hr, hboth⟩
            · intro hne
              exact .kept _ (by simp [Ne.symm hne])
          · rename_i hnone
            obtain rfl := Option.some.inj h
            refine setPhase_call hget ?_ ?_
            · intro hid
              obtain rfl := hsame hq hid
              refine hid ▸ .unselected hphase ?_
              intro r hr hlisted
              cases hselects : q.scope.selects r with
              | false => rfl
              | true => exact absurd (List.any_eq_true.mpr ⟨r, hr, by simp [hlisted, hselects]⟩) hnone
            · intro hne
              exact .kept _ (by simp [Ne.symm hne])
        · cases h
  | cancel callId runId =>
      simp only [commandStep] at h
      split at h
      · rename_i q r hq _
        split at h
        · rename_i hturn
          split at h
          · obtain rfl := Option.some.inj h
            refine setPhase_call hget ?_ ?_
            · intro hid
              obtain rfl := hsame hq hid
              exact hid ▸ .killing hturn.1
            · intro hne
              exact .kept _ (by simp)
          · obtain rfl := Option.some.inj h
            exact ⟨call.phase, hget, .kept _ (by simp)⟩
        · cases h
      · cases h
  | resume callId =>
      simp only [commandStep] at h
      split at h
      · cases h
      · rename_i q hq
        split at h
        · rename_i runId hphase
          split at h
          · cases h
          · split at h
            · obtain rfl := Option.some.inj h
              refine setPhase_call (s := s.setProgress runId _) hget ?_ ?_
              · intro hid
                obtain rfl := hsame hq hid
                exact hid ▸ .resumed hphase
              · intro hne
                exact .kept _ (by simp [Ne.symm hne])
            · cases h
        · cases h
  | gather callId =>
      simp only [commandStep] at h
      split at h
      · cases h
      · rename_i q hq
        split at h
        · rename_i hguard
          obtain rfl := Option.some.inj h
          refine setPhase_call hget ?_ ?_
          · intro hid
            obtain rfl := hsame hq hid
            exact hid ▸ .gathered hguard.1 (hid ▸ hguard.2)
          · intro hne
            exact .kept _ (by simp [Ne.symm hne])
        · cases h
  | record callId now =>
      simp only [commandStep] at h
      split at h
      · cases h
      · rename_i q hq
        split at h
        · rename_i hphase
          obtain ⟨u, hu, rfl⟩ := Option.map_eq_some_iff.mp h
          obtain ⟨db, -, rfl⟩ := Option.map_eq_some_iff.mp hu
          refine setPhase_call (s := { s with db := db }) hget ?_ ?_
          · intro hid
            obtain rfl := hsame hq hid
            exact hid ▸ .recorded hphase
          · intro hne
            exact .kept _ (by simp [Ne.symm hne])
        · cases h

/-! ### The rows of the jobs -/

/-- What the step makes of a job row. -/
def CommandState.settles (s : CommandState) (a : JobAction) (row : SandboxAsyncJob) :
    Option WorkStatus :=
  (s.transactionOf a).bind (fun x => x.1.settlesJob row)

theorem AsyncCommandJob.transaction_endsJobs {r : AsyncCommandJob} {move : TaskMove}
    {result : TaskResult} {t : Transaction} (h : r.transaction move result = some t) :
    t.endsJobs = true := by
  unfold AsyncCommandJob.transaction at h
  split at h
  · obtain rfl := Option.some.inj h
    rfl
  · obtain rfl := Option.some.inj h
    rfl
  · obtain rfl := Option.some.inj h
    rfl
  · cases h

theorem CancelScope.transaction_endsJobs (scope : CancelScope) :
    scope.transaction.endsJobs = true := by
  cases scope with
  | run runId => rfl
  | agent sessionId agentInstanceId => rfl
  | session sessionId => rfl

/-- The transaction of a step creates a job or ends jobs. -/
theorem transactionOf_cases {s : CommandState} {a : JobAction} {t : Transaction} {now : Time}
    (h : s.transactionOf a = some (t, now)) :
    (∃ request, a = .create request now ∧ t = .createAsyncJob request) ∨ t.endsJobs = true := by
  cases a with
  | create request now' =>
      obtain ⟨rfl, rfl⟩ := Prod.mk.inj (Option.some.inj h)
      exact .inl ⟨request, rfl, rfl⟩
  | task runId move result now' =>
      obtain ⟨t', ht', heq⟩ := Option.map_eq_some_iff.mp h
      obtain ⟨rfl, rfl⟩ := Prod.mk.inj heq
      obtain ⟨r, -, hr⟩ := Option.bind_eq_some_iff.mp ht'
      exact .inr (AsyncCommandJob.transaction_endsJobs hr)
  | record callId now' =>
      obtain ⟨call, -, heq⟩ := Option.map_eq_some_iff.mp h
      obtain ⟨rfl, rfl⟩ := Prod.mk.inj heq
      exact .inr (CancelScope.transaction_endsJobs call.scope)
  | spawn _ | register _ | abandon _ | exit _ | forget _ | request _ _ | select _ | cancel _ _
  | resume _ | gather _ => cases h

/-- **The row side of a step.** -/
theorem commandStep_row {s t : CommandState} {a : JobAction} (h : commandStep s a = some t)
    {k : String} {row : SandboxAsyncJob} (hget : s.db.jobs.get? k = some row) :
    ∃ row', t.db.jobs.get? k = some row' ∧ row'.owner = row.owner ∧
      row'.status = (s.settles a row).getD row.status := by
  rcases commandStep_db h with ⟨hnone, hdb⟩ | ⟨transaction, now, hsome, hstep⟩
  · refine ⟨row, by rw [hdb, hget], rfl, ?_⟩
    rw [CommandState.settles, hnone]
    rfl
  · have hsettles : s.settles a row = transaction.settlesJob row := by
      rw [CommandState.settles, hsome]
      rfl
    rcases transactionOf_cases hsome with ⟨request, -, rfl⟩ | hends
    · obtain ⟨hinsert, -, -⟩ := createAsyncJob_rows hstep
      exact ⟨row, Table.get?_of_insert hinsert hget, rfl, by rw [hsettles]; rfl⟩
    · obtain ⟨row', hrow', howner, hstatus⟩ := (transaction_rowwise hends hstep).after hget
      exact ⟨row', hrow', howner, by rw [hsettles, hstatus]⟩

/-- Only a RUNNING row is settled, and then it is no longer RUNNING. -/
theorem settlesJob_running {t : Transaction} {row : SandboxAsyncJob} {status : WorkStatus}
    (h : t.settlesJob row = some status) : row.status = .running ∧ status ≠ .running := by
  cases t with
  | completeAsyncJob | failAsyncJob | cancelAsyncJob =>
      simp only [Transaction.settlesJob] at h
      split at h
      · rename_i hrunning
        obtain rfl := Option.some.inj h
        exact ⟨hrunning.2, by simp⟩
      · cases h
  | cancelRunningAsyncJobs filter error =>
      simp only [Transaction.settlesJob] at h
      split at h
      · rename_i hselects
        obtain rfl := Option.some.inj h
        simp only [JobFilter.selects, Bool.and_eq_true, decide_eq_true_eq] at hselects
        exact ⟨hselects.1.1.1, by simp⟩
      · cases h
  | _ => cases h

/-- A row that is RUNNING after the step was RUNNING before, and unsettled. -/
theorem settles_running {s : CommandState} {a : JobAction} {row : SandboxAsyncJob}
    (h : (s.settles a row).getD row.status = .running) :
    row.status = .running ∧ s.settles a row = none := by
  cases hsettles : s.settles a row with
  | none => exact ⟨by rw [hsettles] at h; exact h, rfl⟩
  | some status =>
      obtain ⟨x, -, hx⟩ := Option.bind_eq_some_iff.mp hsettles
      rw [hsettles] at h
      exact absurd h (settlesJob_running hx).2

/-! ### Jobs and their rows -/

/-- What holds of a job and its row. -/
structure JobOk (p : JobProgress) (status : WorkStatus) : Prop where
  fresh : p.start = .creating → p.task = .absent
  spawned : p.start = .registering → p.task ≠ .absent
  unlisted : p.start = .creating ∨ p.start = .registering → p.entry = .absent
  entered : p.entry ≠ .absent → p.task ≠ .absent
  process : p.process = .running → p.task.holdsProcess = true
  requested : p.cancelRequested = true → (∃ c, p.entry = .passed c) ∧ p.process ≠ .running
  canceling : p.task = .canceling ∨ p.task = .closing .canceled → ∃ c, p.entry = .passed c
  recorded : (∃ b, p.task = .resuming b) → status ≠ .running
  done : p.task = .done → status = .running → ∃ c, p.entry = .passed c

/-- The status of the row changes at most to one that is not RUNNING. -/
theorem JobOk.settle {p : JobProgress} {status status' : WorkStatus} (h : JobOk p status)
    (hstatus : status' = .running → status = .running) : JobOk p status' :=
  { h with
    recorded := fun hb hrunning => h.recorded hb (hstatus hrunning)
    done := fun hd hrunning => h.done hd (hstatus hrunning) }

/-- The task moves on; what is new is what the next phase demands. -/
theorem JobOk.setTask {p : JobProgress} {status : WorkStatus} (h : JobOk p status)
    (hpresent : p.task ≠ .absent) {task : CommandTask} (hpresent' : task ≠ .absent)
    (hprocess : p.process = .running → task.holdsProcess = true)
    (hcanceling : task = .canceling ∨ task = .closing .canceled → ∃ c, p.entry = .passed c)
    (hrecorded : (∃ b, task = .resuming b) → status ≠ .running)
    (hdone : task = .done → status = .running → ∃ c, p.entry = .passed c)
    {requested : Bool} (hrequested : requested = true → p.cancelRequested = true) :
    JobOk { p with task := task, cancelRequested := requested } status where
  fresh hstart := absurd (h.fresh hstart) hpresent
  spawned _ := hpresent'
  unlisted := h.unlisted
  entered _ := hpresent'
  process := hprocess
  requested hreq := h.requested (hrequested hreq)
  canceling := hcanceling
  recorded := hrecorded
  done := hdone

/-- The task moves on inside the `try`, or into a handler that fails the job. -/
theorem JobOk.goOn {p : JobProgress} {status : WorkStatus} (h : JobOk p status)
    (hpresent : p.task ≠ .absent) {task : CommandTask}
    (hprocess : p.process = .running → task.holdsProcess = true)
    (hplain : task ∉ [.absent, .canceling, .closing .canceled, .resuming true, .resuming false,
      .done]) : JobOk { p with task := task } status := by
  simp only [List.mem_cons, List.not_mem_nil, or_false, not_or] at hplain
  obtain ⟨habsent, hcanceling, hclosing, htrue, hfalse, hdone⟩ := hplain
  refine h.setTask hpresent habsent hprocess ?_ ?_ (fun hd => absurd hd hdone) id
  · rintro (hc | hc)
    · exact absurd hc hcanceling
    · exact absurd hc hclosing
  · rintro ⟨b, hb⟩
    cases b with
    | true => exact absurd hb htrue
    | false => exact absurd hb hfalse

/-- A process runs only while the task holds it. -/
theorem JobOk.stopped {p : JobProgress} {status : WorkStatus} (h : JobOk p status)
    {task : CommandTask} (htask : p.task = task) (hholds : task.holdsProcess = false) :
    p.process ≠ .running := by
  intro hrunning
  have hheld := h.process hrunning
  rw [htask, hholds] at hheld
  cases hheld

/-- Where the CancelledError leaves the task. -/
theorem CommandTask.cancelled_cases {task task' : CommandTask} (h : task.cancelled = some task') :
    task ≠ .absent ∧ (task' = .done ∨ task' = .canceling ∨ task' = .closing .canceled) := by
  cases task with
  | absent | done => cases h
  | unstarted | failing | canceling =>
      obtain rfl := Option.some.inj h
      exact ⟨by simp, .inl rfl⟩
  | launching | completing =>
      obtain rfl := Option.some.inj h
      exact ⟨by simp, .inr (.inl rfl)⟩
  | closing ending =>
      obtain rfl := Option.some.inj h
      exact ⟨by simp, .inr (.inl rfl)⟩
  | communicating | killing =>
      obtain rfl := Option.some.inj h
      exact ⟨by simp, .inr (.inr rfl)⟩
  | resuming inTry =>
      cases inTry with
      | true =>
          obtain rfl := Option.some.inj h
          exact ⟨by simp, .inr (.inl rfl)⟩
      | false =>
          obtain rfl := Option.some.inj h
          exact ⟨by simp, .inl rfl⟩

/-- **One step of the task.** -/
theorem JobOk.move {p p' : JobProgress} {status : WorkStatus} {move : TaskMove}
    (h : JobOk p status) (hmove : p.move move = some p')
    (hcommit : move = .committed → status ≠ .running) : JobOk p' status := by
  unfold JobProgress.move at hmove
  split at hmove
  · rename_i hreq
    obtain ⟨hpassed, hexited⟩ := h.requested hreq
    split at hmove
    · obtain ⟨task, htask, rfl⟩ := Option.map_eq_some_iff.mp hmove
      obtain ⟨hpresent, htarget⟩ := CommandTask.cancelled_cases htask
      refine h.setTask hpresent ?_ (fun hrunning => absurd hrunning hexited) (fun _ => hpassed) ?_
        (fun _ _ => hpassed) (fun hno => by cases hno)
      · rcases htarget with rfl | rfl | rfl
        · simp
        · simp
        · simp
      · rintro ⟨b, rfl⟩
        rcases htarget with hno | hno | hno
        · cases hno
        · cases hno
        · cases hno
    · cases hmove
  · rename_i hreq
    split at hmove
    case h_1 htask | h_3 htask | h_7 htask | h_8 htask | h_9 htask =>
      obtain rfl := Option.some.inj hmove
      exact h.goOn (by simp [htask]) (fun hr => absurd hr (h.stopped htask rfl)) (by decide)
    case h_2 htask =>
      obtain rfl := Option.some.inj hmove
      exact { @JobOk.goOn _ _ h (by simp [htask]) .communicating (fun _ => rfl) (by decide) with
        process := fun _ => rfl
        requested := fun hno => absurd hno hreq }
    case h_4 htask | h_6 htask =>
      split at hmove
      · rename_i hexited
        obtain rfl := Option.some.inj hmove
        refine h.goOn (by simp [htask]) ?_ (by decide)
        intro hrunning
        rw [hexited] at hrunning
        cases hrunning
      · cases hmove
    case h_5 htask =>
      obtain rfl := Option.some.inj hmove
      exact h.goOn (by simp [htask]) (fun _ => rfl) (by decide)
    case h_10 htask =>
      obtain rfl := Option.some.inj hmove
      exact h.setTask (by simp [htask]) (by simp) (fun hr => absurd hr (h.stopped htask rfl))
        (fun _ => h.canceling (.inr htask)) (by simp) (by simp) id
    case h_11 htask | h_12 htask | h_13 htask =>
      obtain rfl := Option.some.inj hmove
      exact h.setTask (by simp [htask]) (by simp) (fun hr => absurd hr (h.stopped htask rfl))
        (by simp) (fun _ => hcommit rfl) (by simp) id
    case h_14 b htask =>
      obtain rfl := Option.some.inj hmove
      exact h.setTask (by simp [htask]) (by simp) (fun hr => absurd hr (h.stopped htask rfl))
        (by simp) (by simp) (fun _ hrunning => absurd hrunning (h.recorded ⟨b, htask⟩)) id
    case h_15 => cases hmove

/-- A step of the task that commits. -/
def JobAction.commits (runId : String) : JobAction → Prop
  | .task k move _ _ => k = runId ∧ move = .committed
  | _ => False

/-- **What a step keeps of a job.** -/
theorem JobOk.change {s : CommandState} {r : AsyncCommandJob} {a : JobAction} {p : JobProgress}
    {status : WorkStatus} (h : JobOk r.progress status) (hchange : ProgressChange s r a p)
    (hcommit : a.commits r.runId → status ≠ .running) : JobOk p status := by
  cases hchange with
  | kept => exact h
  | spawned hspawn =>
      unfold JobProgress.spawn at hspawn
      split at hspawn
      · rename_i hstart
        obtain rfl := Option.some.inj hspawn
        exact {
          fresh := fun hno => by cases hno
          spawned := fun _ => by simp
          unlisted := fun _ => h.unlisted (.inl hstart)
          entered := fun _ => by simp
          process := fun hr => absurd hr (h.stopped (h.fresh hstart) rfl)
          requested := h.requested
          canceling := by simp
          recorded := by simp
          done := by simp }
      · cases hspawn
  | registered hregister =>
      unfold JobProgress.register at hregister
      split at hregister
      · rename_i hstart
        obtain rfl := Option.some.inj hregister
        have hunpassed : ¬ ∃ c, r.progress.entry = .passed c := by
          rintro ⟨c, hpassed⟩
          rw [h.unlisted (.inr hstart)] at hpassed
          cases hpassed
        exact { h with
          fresh := fun hno => by cases hno
          spawned := fun hno => by cases hno
          unlisted := fun hno => by
            rcases hno with hno | hno
            · cases hno
            · cases hno
          entered := fun _ => h.spawned hstart
          requested := fun hreq => absurd (h.requested hreq).1 hunpassed
          canceling := fun hc => absurd (h.canceling hc) hunpassed
          done := fun hd hrunning => absurd (h.done hd hrunning) hunpassed }
      · cases hregister
  | abandoned habandon =>
      unfold JobProgress.abandon at habandon
      split at habandon
      · obtain rfl := Option.some.inj habandon
        exact { h with
          fresh := fun hno => by cases hno
          spawned := fun hno => by cases hno
          unlisted := fun hno => by
            rcases hno with hno | hno
            · cases hno
            · cases hno }
      · cases habandon
  | exited hexit =>
      unfold JobProgress.exit at hexit
      split at hexit
      · obtain rfl := Option.some.inj hexit
        exact { h with
          process := fun hno => by cases hno
          requested := fun hreq => ⟨(h.requested hreq).1, by simp⟩ }
      · cases hexit
  | forgotten hforget =>
      unfold JobProgress.forget at hforget
      split at hforget
      · rename_i hlisted
        obtain rfl := Option.some.inj hforget
        have hunpassed : ¬ ∃ c, r.progress.entry = .passed c := by
          rintro ⟨c, hpassed⟩
          rw [hlisted.2] at hpassed
          cases hpassed
        exact { h with
          unlisted := fun _ => rfl
          entered := fun hno => absurd rfl hno
          requested := fun hreq => absurd (h.requested hreq).1 hunpassed
          canceling := fun hc => absurd (h.canceling hc) hunpassed
          done := fun hd hrunning => absurd (h.done hd hrunning) hunpassed }
      · cases hforget
  | moved hmove => exact h.move hmove (fun hm => hcommit ⟨rfl, hm⟩)
  | taken hcall hphase hlisted hselects =>
      have hunpassed : ¬ ∃ c, r.progress.entry = .passed c := by
        rintro ⟨c, hpassed⟩
        rw [hlisted] at hpassed
        cases hpassed
      exact { h with
        unlisted := fun hstart => by
          have habsent := h.unlisted hstart
          rw [hlisted] at habsent
          cases habsent
        entered := fun _ => h.entered (by simp [hlisted])
        requested := fun hreq => absurd (h.requested hreq).1 hunpassed
        canceling := fun hc => absurd (h.canceling hc) hunpassed
        done := fun hd hrunning => absurd (h.done hd hrunning) hunpassed }
  | canceled hentry hprocess =>
      exact { h with
        unlisted := fun hstart => by
          have habsent := h.unlisted hstart
          rw [hentry] at habsent
          cases habsent
        entered := fun _ => h.entered (by simp [hentry])
        requested := fun _ => ⟨⟨_, rfl⟩, h.stopped rfl hprocess⟩
        canceling := fun _ => ⟨_, rfl⟩
        done := fun _ _ => ⟨_, rfl⟩ }
  | resumed hentry hprocess =>
      exact { h with
        unlisted := fun hstart => by
          have habsent := h.unlisted hstart
          rw [hentry] at habsent
          cases habsent
        entered := fun _ => h.entered (by simp [hentry])
        requested := fun _ => ⟨⟨_, rfl⟩, hprocess⟩
        canceling := fun _ => ⟨_, rfl⟩
        done := fun _ _ => ⟨_, rfl⟩ }

/-- A transaction that commits settles the RUNNING row of its job. -/
theorem commit_settles {r : AsyncCommandJob} {p : JobProgress} {row : SandboxAsyncJob}
    (hmove : r.progress.move .committed = some p) (result : TaskResult)
    (hid : row.runId = r.runId) (hrunning : row.status = .running) :
    ∃ t status, r.transaction .committed result = some t ∧ t.settlesJob row = some status := by
  unfold JobProgress.move at hmove
  split at hmove
  · split at hmove
    · rename_i hno
      cases hno
    · cases hmove
  · unfold AsyncCommandJob.transaction
    split at hmove
    case h_11 htask hcommit | h_12 htask hcommit | h_13 htask hcommit =>
      rw [htask]
      exact ⟨_, _, rfl, if_pos ⟨hid, hrunning⟩⟩
    all_goals contradiction

/-- A step of the task that commits settles the RUNNING row. -/
theorem commits_settles {s t : CommandState} {a : JobAction} (h : commandStep s a = some t)
    {k : String} {r : AsyncCommandJob} (hget : s.jobs.get? k = some r) {row : SandboxAsyncJob}
    (hrow : s.db.jobs.get? k = some row) (hcommits : a.commits r.runId)
    (hrunning : row.status = .running) : s.settles a row ≠ none := by
  have hid : r.runId = k := (Table.get?_eq_some hget).2
  cases a with
  | task runId move result now =>
      obtain ⟨rfl, rfl⟩ := hcommits
      rw [← hid] at hget
      simp only [commandStep, hget] at h
      split at h
      · cases h
      · rename_i p hmove
        obtain ⟨transaction, status, htransaction, hsettles⟩ := commit_settles hmove result
          ((Table.get?_eq_some hrow).2.trans hid.symm) hrunning
        rw [CommandState.settles, CommandState.transactionOf, hget]
        simp only [Option.bind_some, htransaction, Option.map_some, hsettles]
        simp
  | _ => exact hcommits.elim

/-- What wakes the owner of a RUNNING job settles the job. -/
theorem wakes_settles {t : Transaction} {row : SandboxAsyncJob} {kind : NotificationKind}
    (hends : t.endsJobs = true) (hwakes : t.wakes kind row.runId = true)
    (hrunning : row.status = .running) : ∃ status, t.settlesJob row = some status := by
  cases t with
  | completeAsyncJob | failAsyncJob =>
      simp only [Transaction.wakes, wakesRun, Bool.true_and, Bool.and_eq_true,
        decide_eq_true_eq] at hwakes
      exact ⟨_, if_pos ⟨hwakes.2, hrunning⟩⟩
  | cancelAsyncJob | cancelRunningAsyncJobs => cases hwakes
  | _ => cases hends

theorem Transaction.creates_of_endsJobs {t : Transaction} (h : t.endsJobs = true) :
    t.creates = false := by
  cases t with
  | completeAsyncJob | failAsyncJob | cancelAsyncJob | cancelRunningAsyncJobs => rfl
  | _ => cases h

/-! ### The invariant -/

/-- What holds in every reachable state. -/
structure CommandInv (s : CommandState) : Prop where
  lockstep : Lockstep s.db
  quiet : ∀ n ∈ s.db.notifications.rows, n.kind = .sandboxAsyncJobFinished →
    n.status.isActiveCancelable = true → ∀ row, s.db.jobs.get? n.runId = some row →
      row.status ≠ .running
  jobs : ∀ k r, s.jobs.get? k = some r → ∃ row, s.db.jobs.get? k = some row ∧
    row.owner = (r.sessionId, r.agentInstanceId) ∧ JobOk r.progress row.status
  running : ∀ k row, s.db.jobs.get? k = some row → row.status = .running →
    ∃ r, s.jobs.get? k = some r

theorem CommandInv.start {s : CommandState} (h : commandMachine.Start s) : CommandInv s := by
  obtain ⟨hjobs, -, hreachable, hidle⟩ := h
  have hnot : ∀ k row, s.db.jobs.get? k = some row → row.status ≠ .running :=
    fun k row hget => hidle row (Table.get?_eq_some hget).1
  refine ⟨reachable_lockstep hreachable, fun n _ _ _ row hget => hnot _ row hget, ?_, ?_⟩
  · intro k r hget
    rw [hjobs] at hget
    cases hget
  · intro k row hget hrunning
    exact absurd hrunning (hnot k row hget)

/-- A new job and its row. -/
theorem CommandInv.create {s t : CommandState} {request : AsyncJobRequest} {now : Time}
    (h : CommandInv s) (hstep : commandStep s (.create request now) = some t) :
    CommandInv t := by
  obtain ⟨hdb, hjobs⟩ := commandStep_create hstep
  obtain ⟨hrows, -, hnotifications⟩ := createAsyncJob_rows hdb
  refine ⟨(transaction_lockstep h.lockstep hdb).1, ?_, ?_, ?_⟩
  · intro n hn hkind hactive row hrow
    rcases hnotifications n hn with hold | ⟨-, -, hawaiting, -⟩
    · obtain ⟨old, hold', -⟩ := h.lockstep.jobs n hold hkind
      obtain rfl := Option.some.inj ((Table.get?_of_insert hrows hold').symm.trans hrow)
      exact h.quiet n hold hkind hactive old hold'
    · rw [hawaiting] at hactive
      cases hactive
  · intro k r hr
    rw [Table.get?_insert hjobs] at hr
    split at hr
    · rename_i hkey
      obtain rfl := Option.some.inj hr
      refine ⟨request.job now, ?_, rfl, ?_⟩
      · rw [Table.get?_insert hrows]
        exact if_pos hkey
      · constructor <;> simp
    · obtain ⟨row, hrow, howner, hok⟩ := h.jobs k r hr
      exact ⟨row, Table.get?_of_insert hrows hrow, howner, hok⟩
  · intro k row hrow hrunning
    rw [Table.get?_insert hrows] at hrow
    split at hrow
    · rename_i hkey
      refine ⟨{ runId := request.runId, sessionId := request.sessionId,
                agentInstanceId := request.agentInstanceId }, ?_⟩
      rw [Table.get?_insert hjobs]
      exact if_pos hkey
    · obtain ⟨r, hr⟩ := h.running k row hrow hrunning
      exact ⟨r, Table.get?_of_insert hjobs hr⟩

/-- Rows that end jobs leave the owners asleep while a job is RUNNING. -/
theorem CommandInv.quiet_ends {s : CommandState} (h : CommandInv s) {t : Transaction} {now : Time}
    {db : Database} (hends : t.endsJobs = true)
    (hstep : transactionMachine.step s.db ⟨t, now, now⟩ = some db) {n : AgentNotification}
    (hn : n ∈ db.notifications.rows) (hkind : n.kind = .sandboxAsyncJobFinished)
    (hactive : n.status.isActiveCancelable = true) {row : SandboxAsyncJob}
    (hrow : db.jobs.get? n.runId = some row) : row.status ≠ .running := by
  intro hrunning
  have hupdated := transaction_updated (Transaction.creates_of_endsJobs hends) hstep
  obtain ⟨m, hm, hkept⟩ := hupdated.notifications.before (Table.mem_rows_iff_get?.mp hn)
  obtain ⟨old, hold, -, hstatus⟩ := (transaction_rowwise hends hstep).before hrow
  rw [hstatus] at hrunning
  have hunsettled : old.status = .running ∧ t.settlesJob old = none := by
    cases hsettles : t.settlesJob old with
    | none => exact ⟨by rw [hsettles] at hrunning; exact hrunning, rfl⟩
    | some status =>
        rw [hsettles] at hrunning
        exact absurd hrunning (settlesJob_running hsettles).2
  have hmem := (Table.get?_eq_some hm).1
  rcases hkept.active hactive with hwas | ⟨-, hwakes⟩
  · exact h.quiet m hmem (hkept.kind.symm.trans hkind) hwas old (hkept.runId ▸ hold) hunsettled.1
  · have hid : old.runId = m.runId := (Table.get?_eq_some hold).2.trans hkept.runId
    rw [← hid] at hwakes
    obtain ⟨status, hsettles⟩ := wakes_settles hends hwakes hunsettled.1
    rw [hunsettled.2] at hsettles
    cases hsettles

/-- **The step lemma.** -/
theorem CommandInv.step {s t : CommandState} {a : JobAction} (h : CommandInv s)
    (hstep : commandStep s a = some t) : CommandInv t := by
  by_cases hcreate : ∃ request now, a = .create request now
  · obtain ⟨request, now, rfl⟩ := hcreate
    exact h.create hstep
  have hjobs := commandStep_jobs (fun request now heq => hcreate ⟨request, now, heq⟩) hstep
  refine ⟨?_, ?_, ?_, ?_⟩
  · rcases commandStep_db hstep with ⟨-, hdb⟩ | ⟨transaction, now, -, hdb⟩
    · rw [hdb]
      exact h.lockstep
    · exact (transaction_lockstep h.lockstep hdb).1
  · intro n hn hkind hactive row hrow
    rcases commandStep_db hstep with ⟨-, hdb⟩ | ⟨transaction, now, hsome, hdb⟩
    · rw [hdb] at hn hrow
      exact h.quiet n hn hkind hactive row hrow
    · rcases transactionOf_cases hsome with ⟨request, rfl, -⟩ | hends
      · exact absurd ⟨request, now, rfl⟩ hcreate
      · exact h.quiet_ends hends hdb hn hkind hactive hrow
  · intro k r' hr'
    obtain ⟨r, hr, p, rfl, hchange⟩ := hjobs.before hr'
    obtain ⟨row, hrow, howner, hok⟩ := h.jobs k r hr
    obtain ⟨row', hrow', howner', hstatus⟩ := commandStep_row hstep hrow
    refine ⟨row', hrow', howner'.trans howner, ?_⟩
    refine (hok.settle (fun hrunning => ?_)).change hchange (fun hcommits hrunning => ?_)
    · rw [hstatus] at hrunning
      exact (settles_running hrunning).1
    · rw [hstatus] at hrunning
      obtain ⟨hwas, hnone⟩ := settles_running hrunning
      exact commits_settles hstep hr hrow hcommits hwas hnone
  · intro k row' hrow' hrunning
    obtain ⟨row, hrow, hwas⟩ : ∃ row, s.db.jobs.get? k = some row ∧ row.status = .running := by
      rcases commandStep_db hstep with ⟨-, hdb⟩ | ⟨transaction, now, hsome, hdb⟩
      · exact ⟨row', hdb ▸ hrow', hrunning⟩
      · rcases transactionOf_cases hsome with ⟨request, rfl, -⟩ | hends
        · exact absurd ⟨request, now, rfl⟩ hcreate
        · obtain ⟨row, hrow, -⟩ := (transaction_rowwise hends hdb).before hrow'
          obtain ⟨row'', hrow'', -, hstatus⟩ := commandStep_row hstep hrow
          obtain rfl := Option.some.inj (hrow'.symm.trans hrow'')
          rw [hstatus] at hrunning
          exact ⟨row, hrow, (settles_running hrunning).1⟩
    obtain ⟨r, hr⟩ := h.running k row hrow hwas
    obtain ⟨p, hp, -⟩ := commandStep_job hstep hr
    exact ⟨_, hp⟩

end Workbench
