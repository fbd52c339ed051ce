import CyberWorkbench.WorkOwners

/-!
# The concurrency limit of background commands

`execute_async_command` counts the RUNNING jobs of its agent in one
transaction, compares the number with the limit, and inserts the new job in
another.  Nothing is held in between, so calls that run side by side may all
count before the first of them inserts.

The limit holds along a run exactly when every insertion would still pass the
check, made again at the insertion (`concurrency_limit`).  Calls of one agent
that take turns always pass it: while one of them stands between its count
and its insertion, its place is *reserved*, and the RUNNING jobs of an agent
together with its reserved places stay within the limit.
-/

namespace Workbench

open KeyedTable PythonValues StepMachine

/-! ### Counting -/

/-- A RUNNING job of the agent instance. -/
def isRunningJobOf (owner : Owner) (job : SandboxAsyncJob) : Bool :=
  decide (job.owner = owner) && decide (job.status = .running)

/-- `count_running_async_jobs_for_agent`. -/
def countRunningAsyncJobsForAgent (sessionId agentInstanceId : String) (db : Database) : Nat :=
  db.jobs.rows.countP (isRunningJobOf (sessionId, agentInstanceId))

/-- `_ASYNC_COMMAND_CONCURRENCY_LIMIT` -/
def asyncCommandConcurrencyLimit : Nat := 3

/-- A transaction that inserts nothing makes no job RUNNING. -/
theorem countRunning_updated {db db' : Database} {a : TransactionStep}
    (hcreates : a.transaction.creates = false) (h : transactionMachine.step db a = some db')
    (owner : Owner) :
    db'.jobs.rows.countP (isRunningJobOf owner) ≤ db.jobs.rows.countP (isRunningJobOf owner) := by
  refine (transaction_updated hcreates h).jobs.countP_le ?_
  intro r r' hkept hrunning
  simp only [isRunningJobOf, Bool.and_eq_true, decide_eq_true_eq] at hrunning ⊢
  exact ⟨hkept.owner.symm.trans hrunning.1, hkept.running hrunning.2⟩

/-- A new job counts for its own agent, and for no other. -/
theorem countRunning_created {db db' : Database} {request : AsyncJobRequest}
    {now resolvedAt : Time}
    (h : transactionMachine.step db ⟨.createAsyncJob request, now, resolvedAt⟩ = some db')
    (owner : Owner) :
    db'.jobs.rows.countP (isRunningJobOf owner) =
      db.jobs.rows.countP (isRunningJobOf owner) +
        if (request.sessionId, request.agentInstanceId) = owner then 1 else 0 := by
  obtain ⟨hinsert, -, -⟩ := createAsyncJob_rows h
  rw [(Table.insert_eq_some hinsert).2, List.countP_append, List.countP_singleton]
  by_cases howner : (request.sessionId, request.agentInstanceId) = owner
  · simp [isRunningJobOf, AsyncJobRequest.job, SandboxAsyncJob.owner, howner]
  · simp [isRunningJobOf, AsyncJobRequest.job, SandboxAsyncJob.owner, howner]

/-- No other transaction touches the jobs without being one of these two. -/
theorem countRunning_other {db db' : Database} {a : TransactionStep}
    (hother : ∀ request, a.transaction ≠ .createAsyncJob request)
    (h : transactionMachine.step db a = some db') (owner : Owner) :
    db'.jobs.rows.countP (isRunningJobOf owner) ≤ db.jobs.rows.countP (isRunningJobOf owner) := by
  cases hcreates : a.transaction.creates with
  | false => exact countRunning_updated hcreates h owner
  | true =>
      obtain ⟨transaction, now, resolvedAt⟩ := a
      cases transaction with
      | createAsyncJob request => exact absurd rfl (hother request)
      | createSubagentTask request =>
          obtain ⟨-, hjobs, -⟩ := createSubagentTask_rows h
          exact Nat.le_of_eq (by rw [hjobs])
      | enqueueUserMessageNotification request =>
          obtain ⟨-, hjobs, -⟩ := enqueueUserMessage_rows h
          exact Nat.le_of_eq (by rw [hjobs])
      | _ => cases hcreates

/-! ### Calls -/

/-- Where a call of `execute_async_command` stands: before its count, between
its count and the insertion, or returned. -/
inductive AsyncCommandPhase
  | asking
  | counted
  | returned
  deriving DecidableEq, Repr

/-- What a call takes from the runtime context of its agent. -/
structure AsyncCommandContext where
  sessionId : String
  agentCode : String
  agentInstanceId : String
  nestedForAgentCode : String := ""
  nestedCallId : String := ""
  sandboxContainerId : Option Nat
  sandboxContainerGeneration : Nat := 0
  sandboxSkillMetadata : List String := []
  scope : RuntimeScope := {}

/-- A call of `execute_async_command`. -/
structure AsyncCommandCall where
  context : AsyncCommandContext
  command : String
  phase : AsyncCommandPhase := .asking

/-- The agent instance that calls. -/
def AsyncCommandCall.owner (call : AsyncCommandCall) : Owner :=
  (call.context.sessionId, call.context.agentInstanceId)

/-- The values a call draws between its count and its insertion. -/
structure DrawnRun where
  runId : String
  obligationId : String
  outputFile : String

/-- What `start_async_sandbox_command` hands to `create_async_job`. -/
def AsyncCommandCall.request (call : AsyncCommandCall) (drawn : DrawnRun) : AsyncJobRequest where
  runId := drawn.runId
  obligationId := drawn.obligationId
  sessionId := call.context.sessionId
  agentCode := call.context.agentCode
  agentInstanceId := call.context.agentInstanceId
  command := call.command
  outputFile := drawn.outputFile
  nestedForAgentCode := call.context.nestedForAgentCode
  nestedCallId := call.context.nestedCallId
  sandboxContainerId := call.context.sandboxContainerId
  sandboxContainerGeneration := call.context.sandboxContainerGeneration
  sandboxSkillMetadata := call.context.sandboxSkillMetadata
  scope := call.context.scope

/-- The checks up to the comparison with the limit. -/
def AsyncCommandCall.admitted (call : AsyncCommandCall) (db : Database) : Bool :=
  call.context.sandboxContainerId.isSome && !decide (call.context.agentInstanceId = "") &&
    !decide (countRunningAsyncJobsForAgent call.context.sessionId call.context.agentInstanceId db ≥
      asyncCommandConcurrencyLimit)

/-- The database and the calls made so far. -/
structure CommandLimitState where
  db : Database
  calls : List AsyncCommandCall := []

/-- One step of a run: a call of the tool is made, makes its count, inserts
its job or ends before that (a refused permission, an exception, a
cancellation), or any transaction but the insertion of a job commits. -/
inductive CommandLimitStep
  | call (context : AsyncCommandContext) (command : String)
  | count (i : Nat)
  | create (i : Nat) (drawn : DrawnRun) (now resolvedAt : Time)
  | leave (i : Nat)
  | other (a : TransactionStep)

/-- Call `i` goes on to `phase`. -/
def CommandLimitState.advance (s : CommandLimitState) (i : Nat) (call : AsyncCommandCall)
    (phase : AsyncCommandPhase) : CommandLimitState :=
  { s with calls := s.calls.set i { call with phase := phase } }

/-- The calls of `execute_async_command` over the database.  The count and
the insertion are transactions of their own. -/
def commandLimitMachine : Machine CommandLimitState CommandLimitStep where
  Start s := s.db = Database.empty ∧ s.calls = []
  step s
    | .call context command =>
        some { s with calls := s.calls ++ [{ context := context, command := command }] }
    | .count i =>
        match s.calls[i]? with
        | some call =>
            if call.phase = .asking then
              some (s.advance i call (if call.admitted s.db then .counted else .returned))
            else none
        | none => none
    | .create i drawn now resolvedAt =>
        match s.calls[i]? with
        | some call =>
            if call.phase = .counted then
              (transactionMachine.step s.db
                ⟨.createAsyncJob (call.request drawn), now, resolvedAt⟩).map
                  (fun db => { s.advance i call .returned with db := db })
            else none
        | none => none
    | .leave i =>
        match s.calls[i]? with
        | some call =>
            if call.phase = .returned then none else some (s.advance i call .returned)
        | none => none
    | .other a =>
        match a.transaction with
        | .createAsyncJob _ => none
        | _ => (transactionMachine.step s.db a).map (fun db => { s with db := db })

/-- Every agent instance has at most the limit of RUNNING jobs. -/
def LimitHeld (s : CommandLimitState) : Prop :=
  ∀ sessionId agentInstanceId,
    countRunningAsyncJobsForAgent sessionId agentInstanceId s.db ≤ asyncCommandConcurrencyLimit

/-- An insertion finds the check of its call still passing. -/
def StillAdmitted (s : CommandLimitState) : CommandLimitStep → Prop
  | .create i _ _ _ => ∀ call ∈ s.calls[i]?,
      countRunningAsyncJobsForAgent call.context.sessionId call.context.agentInstanceId s.db <
        asyncCommandConcurrencyLimit
  | _ => True

/-- A count finds no other call of its agent between count and insertion. -/
def TakesTurn (s : CommandLimitState) : CommandLimitStep → Prop
  | .count i => ∀ call ∈ s.calls[i]?,
      ∀ other ∈ s.calls, other.owner = call.owner → other.phase ≠ .counted
  | _ => True

instance (s : CommandLimitState) : ∀ a, Decidable (TakesTurn s a)
  | .count i => inferInstanceAs (Decidable (∀ call ∈ s.calls[i]?,
      ∀ other ∈ s.calls, other.owner = call.owner → other.phase ≠ .counted))
  | .call .. | .create .. | .leave .. | .other .. => .isTrue trivial

/-! ### What a step does -/

section Steps

variable {s t : CommandLimitState}

theorem count_step {i : Nat} (h : commandLimitMachine.step s (.count i) = some t) :
    ∃ call, s.calls[i]? = some call ∧ call.phase = .asking ∧
      t = s.advance i call (if call.admitted s.db then .counted else .returned) := by
  simp only [commandLimitMachine] at h
  split at h
  · rename_i call hcall
    split at h
    · rename_i hasking
      exact ⟨call, hcall, hasking, (Option.some.inj h).symm⟩
    · cases h
  · cases h

theorem create_step {i : Nat} {drawn : DrawnRun} {now resolvedAt : Time}
    (h : commandLimitMachine.step s (.create i drawn now resolvedAt) = some t) :
    ∃ call db, s.calls[i]? = some call ∧ call.phase = .counted ∧
      transactionMachine.step s.db ⟨.createAsyncJob (call.request drawn), now, resolvedAt⟩ =
        some db ∧
      t = { s.advance i call .returned with db := db } := by
  simp only [commandLimitMachine] at h
  split at h
  · rename_i call hcall
    split at h
    · rename_i hcounted
      obtain ⟨db, hdb, rfl⟩ := Option.map_eq_some_iff.mp h
      exact ⟨call, db, hcall, hcounted, hdb, rfl⟩
    · cases h
  · cases h

theorem leave_step {i : Nat} (h : commandLimitMachine.step s (.leave i) = some t) :
    ∃ call, s.calls[i]? = some call ∧ t = s.advance i call .returned := by
  simp only [commandLimitMachine] at h
  split at h
  · rename_i call hcall
    split at h
    · cases h
    · exact ⟨call, hcall, (Option.some.inj h).symm⟩
  · cases h

theorem other_step {a : TransactionStep} (h : commandLimitMachine.step s (.other a) = some t) :
    (∀ request, a.transaction ≠ .createAsyncJob request) ∧
      ∃ db, transactionMachine.step s.db a = some db ∧ t = { s with db := db } := by
  simp only [commandLimitMachine] at h
  split at h
  · cases h
  · rename_i hother
    obtain ⟨db, hdb, rfl⟩ := Option.map_eq_some_iff.mp h
    exact ⟨hother, db, hdb, rfl⟩

/-! ### The check made again -/

/-- What an insertion adds to the count of an agent. -/
theorem create_countRunning {i : Nat} {drawn : DrawnRun} {now resolvedAt : Time}
    (h : commandLimitMachine.step s (.create i drawn now resolvedAt) = some t) :
    ∃ call, s.calls[i]? = some call ∧ ∀ owner,
      t.db.jobs.rows.countP (isRunningJobOf owner) =
        s.db.jobs.rows.countP (isRunningJobOf owner) + if call.owner = owner then 1 else 0 := by
  obtain ⟨call, db, hcall, -, hdb, rfl⟩ := create_step h
  exact ⟨call, hcall, fun owner => countRunning_created hdb owner⟩

/-- **The step lemma.**  A step keeps the limit when the check still passes at
its insertion. -/
theorem LimitHeld.step {a : CommandLimitStep} (hheld : LimitHeld s) (hok : StillAdmitted s a)
    (h : commandLimitMachine.step s a = some t) : LimitHeld t := by
  intro sessionId agentInstanceId
  have hbefore := hheld sessionId agentInstanceId
  unfold countRunningAsyncJobsForAgent at hbefore ⊢
  cases a with
  | call context command =>
      obtain rfl := Option.some.inj h
      exact hbefore
  | count i =>
      obtain ⟨call, -, -, rfl⟩ := count_step h
      exact hbefore
  | leave i =>
      obtain ⟨call, -, rfl⟩ := leave_step h
      exact hbefore
  | other a =>
      obtain ⟨hother, db, hdb, rfl⟩ := other_step h
      exact Nat.le_trans (countRunning_other hother hdb _) hbefore
  | create i drawn now resolvedAt =>
      obtain ⟨call, hcall, hcount⟩ := create_countRunning h
      have hroom := hok call hcall
      rw [hcount]
      split
      · rename_i howner
        unfold countRunningAsyncJobsForAgent at hroom
        rw [← howner]
        exact hroom
      · exact hbefore

/-- A step that ends within the limit passed the check at its insertion. -/
theorem stillAdmitted_of_limitHeld {a : CommandLimitStep} (hheld : LimitHeld t)
    (h : commandLimitMachine.step s a = some t) : StillAdmitted s a := by
  cases a with
  | create i drawn now resolvedAt =>
      intro call hcall
      obtain ⟨call', hcall', hcount⟩ := create_countRunning h
      obtain rfl : call' = call := Option.some.inj (hcall'.symm.trans hcall)
      have hafter := hheld call'.context.sessionId call'.context.agentInstanceId
      unfold countRunningAsyncJobsForAgent at hafter ⊢
      have hmine : call'.owner = (call'.context.sessionId, call'.context.agentInstanceId) := rfl
      rw [hcount, if_pos hmine] at hafter
      exact hafter
  | _ => trivial

/-! ### Reserved places -/

/-- A call of the agent between its count and its insertion. -/
def isReservedOf (owner : Owner) (call : AsyncCommandCall) : Bool :=
  decide (call.owner = owner) && decide (call.phase = .counted)

/-- RUNNING jobs and reserved places stay within the limit. -/
def PlacesHeld (s : CommandLimitState) : Prop :=
  ∀ owner, s.db.jobs.rows.countP (isRunningJobOf owner) + s.calls.countP (isReservedOf owner) ≤
    asyncCommandConcurrencyLimit

/-- An admitted call has room for one more job. -/
theorem AsyncCommandCall.admitted_room (call : AsyncCommandCall) {db : Database}
    (h : call.admitted db = true) :
    db.jobs.rows.countP (isRunningJobOf call.owner) < asyncCommandConcurrencyLimit := by
  simp only [AsyncCommandCall.admitted, Bool.and_eq_true, Bool.not_eq_true',
    decide_eq_false_iff_not] at h
  exact Nat.lt_of_not_ge h.2

/-- What the reserved places become when a call of the agent returns. -/
theorem reserved_returned {i : Nat} {call : AsyncCommandCall} (hcall : s.calls[i]? = some call)
    (owner : Owner) :
    (s.advance i call .returned).calls.countP (isReservedOf owner) =
      s.calls.countP (isReservedOf owner) - if isReservedOf owner call then 1 else 0 := by
  obtain ⟨hi, hget⟩ := List.getElem?_eq_some_iff.mp hcall
  have hset := List.countP_set (p := isReservedOf owner) (a := { call with phase := .returned }) hi
  have hno : isReservedOf owner { call with phase := .returned } = false := by
    simp [isReservedOf]
  rw [hget, hno] at hset
  exact hset

/-- What the reserved places become when a call has made its count. -/
theorem reserved_counted {i : Nat} {call : AsyncCommandCall} (hcall : s.calls[i]? = some call)
    (hasking : call.phase = .asking) (phase : AsyncCommandPhase) (owner : Owner) :
    (s.advance i call phase).calls.countP (isReservedOf owner) =
      s.calls.countP (isReservedOf owner) +
        if call.owner = owner ∧ phase = .counted then 1 else 0 := by
  obtain ⟨hi, hget⟩ := List.getElem?_eq_some_iff.mp hcall
  have hset := List.countP_set (p := isReservedOf owner) (a := { call with phase := phase }) hi
  have hno : isReservedOf owner call = false := by simp [isReservedOf, hasking]
  have hnew : isReservedOf owner { call with phase := phase } =
      (decide (call.owner = owner) && decide (phase = .counted)) := rfl
  rw [hget, hno, hnew] at hset
  refine hset.trans ?_
  by_cases howner : call.owner = owner <;> by_cases hphase : phase = .counted <;>
    simp [howner, hphase]

/-- Where calls take turns, the places stay within the limit. -/
theorem PlacesHeld.step {a : CommandLimitStep} (hheld : PlacesHeld s) (hturn : TakesTurn s a)
    (h : commandLimitMachine.step s a = some t) : PlacesHeld t := by
  intro owner
  have hbefore := hheld owner
  cases a with
  | call context command =>
      obtain rfl := Option.some.inj h
      have hnew : isReservedOf owner { context := context, command := command } = false := by
        simp [isReservedOf]
      rw [List.countP_append, List.countP_singleton, hnew]
      exact hbefore
  | count i =>
      obtain ⟨call, hcall, hasking, rfl⟩ := count_step h
      rw [reserved_counted hcall hasking]
      show s.db.jobs.rows.countP (isRunningJobOf owner) + _ ≤ _
      cases hadmitted : call.admitted s.db with
      | false => simpa using hbefore
      | true =>
          by_cases howner : call.owner = owner
          · -- the call is the first of its agent to reserve a place
            subst howner
            have hnone : s.calls.countP (isReservedOf call.owner) = 0 := by
              refine List.countP_eq_zero.mpr fun other hother hreserved => ?_
              simp only [isReservedOf, Bool.and_eq_true, decide_eq_true_eq] at hreserved
              exact hturn call hcall other hother hreserved.1 hreserved.2
            have hroom := call.admitted_room hadmitted
            simp only [hnone, if_true, and_self, Nat.zero_add]
            exact hroom
          · simpa [howner] using hbefore
  | leave i =>
      obtain ⟨call, hcall, rfl⟩ := leave_step h
      rw [reserved_returned hcall]
      exact Nat.le_trans (Nat.add_le_add_left (Nat.sub_le _ _) _) hbefore
  | other a =>
      obtain ⟨hother, db, hdb, rfl⟩ := other_step h
      have hfewer := countRunning_other hother hdb owner
      exact Nat.le_trans (Nat.add_le_add_right hfewer _) hbefore
  | create i drawn now resolvedAt =>
      obtain ⟨call, db, hcall, hcounted, hdb, rfl⟩ := create_step h
      have hcount := countRunning_created hdb owner
      have hreserved := reserved_returned hcall owner
      show db.jobs.rows.countP (isRunningJobOf owner) +
        (s.advance i call .returned).calls.countP (isReservedOf owner) ≤ _
      rw [hcount, hreserved]
      by_cases howner : call.owner = owner
      · -- the reserved place becomes the new job's
        have hmine : isReservedOf owner call = true := by simp [isReservedOf, howner, hcounted]
        have hpos : 0 < s.calls.countP (isReservedOf owner) :=
          List.countP_pos_iff.mpr ⟨call, List.mem_of_getElem? hcall, hmine⟩
        have hnew : ((call.request drawn).sessionId, (call.request drawn).agentInstanceId) =
          owner := howner
        rw [if_pos hnew, if_pos hmine]
        omega
      · have hnew : ((call.request drawn).sessionId, (call.request drawn).agentInstanceId) ≠
          owner := howner
        rw [if_neg hnew]
        exact Nat.le_trans (Nat.add_le_add_left (Nat.sub_le _ _) _) hbefore

/-- An insertion takes the place its call has reserved. -/
theorem PlacesHeld.stillAdmitted {a : CommandLimitStep} (hheld : PlacesHeld t)
    (h : commandLimitMachine.step s a = some t) : StillAdmitted s a := by
  refine stillAdmitted_of_limitHeld (t := t) (fun sessionId agentInstanceId => ?_) h
  exact Nat.le_trans (Nat.le_add_right _ _) (hheld (sessionId, agentInstanceId))

end Steps

/-! ### Runs -/

theorem limitHeld_start {s : CommandLimitState} (h : commandLimitMachine.Start s) :
    LimitHeld s := by
  intro sessionId agentInstanceId
  have hnone : countRunningAsyncJobsForAgent sessionId agentInstanceId s.db = 0 := by
    rw [h.1]
    rfl
  rw [hnone]
  exact Nat.zero_le _

theorem placesHeld_start {s : CommandLimitState} (h : commandLimitMachine.Start s) :
    PlacesHeld s := by
  intro owner
  rw [h.1, h.2]
  exact Nat.zero_le _

/-- **The limit along a run.**  Every agent stays within the limit after every
step exactly when every insertion finds the check of its call still passing,
and so it does where the calls of one agent take turns. -/
theorem concurrency_limit {s : CommandLimitState} {acts : List CommandLimitStep}
    (hs : commandLimitMachine.Start s) :
    (StepsMeet commandLimitMachine (fun _ _ t => LimitHeld t) s acts ↔
      StepsMeet commandLimitMachine (fun s a _ => StillAdmitted s a) s acts) ∧
    (StepsMeet commandLimitMachine (fun s a _ => TakesTurn s a) s acts →
      StepsMeet commandLimitMachine (fun _ _ t => LimitHeld t) s acts) := by
  have henough : StepsMeet commandLimitMachine (fun s a _ => StillAdmitted s a) s acts →
      StepsMeet commandLimitMachine (fun _ _ t => LimitHeld t) s acts :=
    stepsMeet_of_invariant (I := LimitHeld) (fun _ _ _ hi hok hstep => hi.step hok hstep)
      (fun _ _ _ hi hok hstep => hi.step hok hstep) (limitHeld_start hs)
  have hneeded : StepsMeet commandLimitMachine (fun _ _ t => LimitHeld t) s acts →
      StepsMeet commandLimitMachine (fun s a _ => StillAdmitted s a) s acts :=
    stepsMeet_of_invariant (I := fun _ => True) (fun _ _ _ _ _ _ => trivial)
      (fun _ _ _ _ hheld hstep => stillAdmitted_of_limitHeld hheld hstep) trivial
  have hturns : StepsMeet commandLimitMachine (fun s a _ => TakesTurn s a) s acts →
      StepsMeet commandLimitMachine (fun s a _ => StillAdmitted s a) s acts :=
    stepsMeet_of_invariant (I := PlacesHeld) (fun _ _ _ hi hok hstep => hi.step hok hstep)
      (fun _ _ _ hi hok hstep => (hi.step hok hstep).stillAdmitted hstep) (placesHeld_start hs)
  exact ⟨⟨hneeded, henough⟩, fun h => henough (hturns h)⟩

/-- An agent with a workspace. -/
def scanContext : AsyncCommandContext where
  sessionId := "s"
  agentCode := "main"
  agentInstanceId := "i"
  sandboxContainerId := some 1

/-- The `i`-th scan of the agent draws its own run id. -/
def scanRun (i : Nat) : DrawnRun := ⟨toString i, toString i, toString i⟩

/-- One call after the other. -/
def scansInTurn : List CommandLimitStep :=
  [.call scanContext "nmap", .call scanContext "nmap", .count 0, .create 0 (scanRun 0) 1 1,
    .count 1, .create 1 (scanRun 1) 2 2]

/-- Four calls of one turn count side by side, then insert. -/
def scansSideBySide : List CommandLimitStep :=
  (List.replicate 4 (CommandLimitStep.call scanContext "nmap")) ++
    [.count 0, .count 1, .count 2, .count 3] ++
    (List.range 4).map (fun i => CommandLimitStep.create i (scanRun i) i i)

/-- The two scans in turn leave two jobs RUNNING. -/
theorem scansInTurn_within_limit :
    StepsMeet commandLimitMachine (fun _ _ t => LimitHeld t) ⟨Database.empty, []⟩ scansInTurn := by
  have hstart : commandLimitMachine.Start ⟨Database.empty, []⟩ := ⟨rfl, rfl⟩
  have hturns : StepsMeet commandLimitMachine (fun s a _ => TakesTurn s a) ⟨Database.empty, []⟩
      scansInTurn := by decide
  exact (concurrency_limit hstart).2 hturns

/-- **Four side by side.**  Four calls of one agent each count no RUNNING job,
and all four insert theirs. -/
theorem side_by_side_exceeds_limit :
    ∃ t, exec commandLimitMachine ⟨Database.empty, []⟩ scansSideBySide = some t ∧
      countRunningAsyncJobsForAgent "s" "i" t.db = 4 ∧ ¬ LimitHeld t := by
  refine ⟨_, rfl, by decide, ?_⟩
  intro hheld
  exact absurd (hheld "s" "i") (by decide)

end Workbench
