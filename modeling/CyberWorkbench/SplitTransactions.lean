import CyberWorkbench.Transactions
import CyberWorkbench.StepMachine

/-!
# Verdicts under interleaved transactions

Here read and commit are separate steps and any number of operations may be in
flight.  The single-record finishers re-test the status in their UPDATE, so a
terminal row is out of their reach.  The bulk writers do not: they flush the
rows they read, whatever became of them since.

`verdicts_final_iff` says when the verdicts of terminal rows survive a run:
exactly when no bulk writer commits over a row that was settled behind its
back to another status or error.  `cancelMany_overwrites_report` replays the
interleaving in which a finished child's report is turned into CANCELED.
-/

namespace Workbench

open KeyedTable PythonValues StepMachine

variable {ρ : Type} {key : ρ → String}

/-! ### The machine -/

/-- The committed database and the operations between read and commit. -/
structure SplitState where
  db : Database
  inFlight : List PendingWrite

/-- An operation reads, or one of those in flight commits. -/
inductive SplitAction where
  | begin (transaction : Transaction) (now : Time)
  | commit (position : Nat) (resolvedAt : Time)

/-- Reads see the committed database; a commit that fails is rolled back. -/
def splitMachine : Machine SplitState SplitAction where
  Start s := s.inFlight = []
  step s
    | .begin transaction now =>
        match transaction.read now s.db with
        | none => some s
        | some write => some { s with inFlight := s.inFlight ++ [write] }
    | .commit position resolvedAt =>
        match s.inFlight[position]? with
        | none => none
        | some write =>
            some {
              db := (write.commit resolvedAt s.db).getD s.db
              inFlight := s.inFlight.eraseIdx position }

/-! ### Verdicts -/

/-- Terminal rows keep their status, result, error and exit code. -/
structure VerdictsKept (db db' : Database) : Prop where
  tasks : ∀ k task, db.tasks.get? k = some task → task.status.isTerminal = true →
    ∃ task', db'.tasks.get? k = some task' ∧ task'.status = task.status ∧
      task'.result = task.result ∧ task'.error = task.error
  jobs : ∀ k job, db.jobs.get? k = some job → job.status.isTerminal = true →
    ∃ job', db'.jobs.get? k = some job' ∧ job'.status = job.status ∧
      job'.error = job.error ∧ job'.exitCode = job.exitCode
  notifications : ∀ k n, db.notifications.get? k = some n → n.status.isTerminal = true →
    ∃ n', db'.notifications.get? k = some n' ∧ n'.status = n.status ∧ n'.error = n.error

/-- No assigned column would replace another value: it is written back as
loaded, or the row has that value by now. -/
def ColumnAgrees {β : Type} (loaded assigned current : β) : Prop :=
  assigned = loaded ∨ assigned = current

/-- Each row the bulk writer read and that has been settled since already has
the status and error about to be written. -/
def PendingWrite.AgreesWithSettled (db : Database) : PendingWrite → Prop
  | .settleTasks _ loaded b =>
      ∀ l ∈ loaded.rows, ∀ task, db.tasks.get? l.runId = some task →
        task.status.isTerminal = true →
        ColumnAgrees l.status b.outcome task.status ∧ ColumnAgrees l.error b.error task.error
  | .settleJobs _ loaded b =>
      ∀ l ∈ loaded.rows, ∀ job, db.jobs.get? l.runId = some job →
        job.status.isTerminal = true →
        ColumnAgrees l.status b.outcome job.status ∧ ColumnAgrees l.error b.error job.error
  | .writeNotifications _ loaded bulk =>
      ∀ l ∈ loaded.rows, ∀ n, db.notifications.get? l.id = some n →
        n.status.isTerminal = true →
        ColumnAgrees l.status bulk.written n.status ∧ ColumnAgrees l.error bulk.error n.error
  | _ => True

/-- The condition on one step: a bulk commit agrees with what was settled. -/
def SplitAction.AgreesWithSettled (s : SplitState) : SplitAction → Prop
  | .begin .. => True
  | .commit position _ => ∀ write, s.inFlight[position]? = some write →
      write.AgreesWithSettled s.db

/-! ### Background work -/

/-- `VerdictsKept` for one kind of background work. -/
def WorkVerdictsKept (K : WorkKind ρ key) (work work' : Table ρ key) : Prop :=
  ∀ k row, work.get? k = some row → (K.status row).isTerminal = true →
    ∃ row', work'.get? k = some row' ∧ K.status row' = K.status row ∧
      K.error row' = K.error row ∧ K.product row' = K.product row

/-- Terminal rows of either table are the rows they were. -/
theorem workVerdictsKept_of_kept (K : WorkKind ρ key) {work work' : Table ρ key}
    (h : ∀ k row, work.get? k = some row → (K.status row).isTerminal = true →
      work'.get? k = some row) : WorkVerdictsKept K work work' :=
  fun k row hget hterminal => ⟨row, h k row hget hterminal, rfl, rfl, rfl⟩

theorem createWork_kept {row : ρ} {obligation : Option ObligationRequest} {now : Time}
    {work work' : Table ρ key} {ns ns' : NotificationTable}
    (h : createWork row obligation now work ns = some (work', ns')) :
    (∀ k r, work.get? k = some r → work'.get? k = some r) ∧
      ∀ k n, ns.get? k = some n → ns'.get? k = some n := by
  unfold createWork at h
  split at h
  · cases h
  · rename_i inserted hinsert
    obtain ⟨rfl, rfl⟩ := Prod.mk.inj (Option.some.inj h)
    exact ⟨fun _ _ hr => Table.get?_of_insert hinsert hr, fun _ _ hn => hn⟩
  · rename_i inserted request hinsert
    split at h
    · cases h
    · rename_i added hadd
      obtain ⟨rfl, rfl⟩ := Prod.mk.inj (Option.some.inj h)
      exact ⟨fun _ _ hr => Table.get?_of_insert hinsert hr,
        fun _ _ hn => Table.get?_of_insert hadd hn⟩

/-- **The UPDATE re-tests.**  A finisher leaves every terminal row alone. -/
theorem finishWorkWrite_keepsVerdicts (K : WorkKind ρ key) (runId : String) (s : Settlement K)
    (resolvedAt : Time) (work : Table ρ key) (ns : NotificationTable) :
    WorkVerdictsKept K work (finishWorkWrite K runId s resolvedAt work ns).1 := by
  unfold finishWorkWrite
  split
  · exact workVerdictsKept_of_kept K (fun _ _ h _ => h)
  · refine workVerdictsKept_of_kept K ?_
    intro k row hget hterminal
    have hrunning : isRunningRun K runId row = false := by
      have hne := WorkStatus.isTerminal_iff.mp hterminal
      simp [isRunningRun, hne]
    rw [Table.get?_updateWhere, hget]
    simp [hrunning]

/-- **The flush does not.**  A bulk write keeps the verdicts exactly when it
agrees with the settled rows among those it read. -/
theorem settleLoadedWrite_keepsVerdicts_iff (K : WorkKind ρ key) (b : BulkSettlement K)
    (resolvedAt : Time) {loaded : List ρ} (hnd : (loaded.map key).Nodup) (work : Table ρ key)
    (ns : NotificationTable) :
    WorkVerdictsKept K work (settleLoadedWrite K b resolvedAt loaded work ns).1 ↔
      ∀ l ∈ loaded, ∀ row, work.get? (key l) = some row → (K.status row).isTerminal = true →
        ColumnAgrees (K.status l) b.outcome (K.status row) ∧
          ColumnAgrees (K.error l) b.error (K.error row) := by
  rw [settleLoadedWrite_eq]
  have hwrite := Table.rowwise_writeBack work b.write b.keepsKey hnd
  constructor
  · intro hkept l hl row hget hterminal
    obtain ⟨row', hget', hstatus, herror, -⟩ := hkept (key l) row hget hterminal
    obtain ⟨written, hwritten, hchange⟩ := hwrite.after hget
    rw [hget'] at hwritten
    obtain rfl := Option.some.inj hwritten
    have hkey : key row = key l := (Table.get?_eq_some hget).2
    rcases hchange with ⟨-, hno⟩ | ⟨l', hl', hkey', rfl⟩
    · exact absurd hkey.symm (hno l hl)
    · obtain rfl : l' = l :=
        Table.eq_of_key_eq (t := ⟨loaded, hnd⟩) hl' hl (hkey'.trans hkey)
      rw [b.setsStatus, writtenField_eq_current] at hstatus
      rw [b.setsError, writtenField_eq_current] at herror
      exact ⟨hstatus, herror⟩
  · intro hagree k row hget hterminal
    obtain ⟨row', hget', hchange⟩ := hwrite.after hget
    refine ⟨row', hget', ?_⟩
    rcases hchange with ⟨rfl, -⟩ | ⟨l, hl, hkey, rfl⟩
    · exact ⟨rfl, rfl, rfl⟩
    · have hk : key row = k := (Table.get?_eq_some hget).2
      obtain ⟨hstatus, herror⟩ := hagree l hl row (by rw [hkey, hk]; exact hget) hterminal
      rw [b.setsStatus, b.setsError, b.keepsProduct, writtenField_eq_current,
        writtenField_eq_current]
      exact ⟨hstatus, herror, rfl⟩

/-! ### Notifications -/

/-- `VerdictsKept` for notifications. -/
def NotificationVerdictsKept (ns ns' : NotificationTable) : Prop :=
  ∀ k n, ns.get? k = some n → n.status.isTerminal = true →
    ∃ n', ns'.get? k = some n' ∧ n'.status = n.status ∧ n'.error = n.error

theorem notificationVerdictsKept_of_kept {ns ns' : NotificationTable}
    (h : ∀ k n, ns.get? k = some n → ns'.get? k = some n) : NotificationVerdictsKept ns ns' :=
  fun k n hget _ => ⟨n, h k n hget, rfl, rfl⟩

theorem NotificationVerdictsKept.trans {ns ns' ns'' : NotificationTable}
    (h : NotificationVerdictsKept ns ns') (h' : NotificationVerdictsKept ns' ns'') :
    NotificationVerdictsKept ns ns'' := by
  intro k n hget hterminal
  obtain ⟨n', hget', hstatus, herror⟩ := h k n hget hterminal
  obtain ⟨n'', hget'', hstatus', herror'⟩ := h' k n' hget' (by rw [hstatus]; exact hterminal)
  exact ⟨n'', hget'', hstatus'.trans hstatus, herror'.trans herror⟩

/-- A resolution only touches an AWAITING row. -/
theorem resolveObligation_keepsVerdicts (kind : NotificationKind) (runId : String) (ready : Bool)
    (payload : Option Dict) (error : String) (now : Time) (ns : NotificationTable) :
    NotificationVerdictsKept ns
      (resolveObligationInSession kind runId ready payload error now ns) := by
  intro k n hget hterminal
  obtain ⟨n', hget', hchange⟩ :=
    (resolveObligation_rowwise kind runId ready payload error now ns).after hget
  refine ⟨n', hget', ?_⟩
  rcases hchange with rfl | ⟨-, hawaiting, -⟩
  · exact ⟨rfl, rfl⟩
  · rw [hawaiting] at hterminal
    cases hterminal

theorem resolveLoaded_keepsVerdicts (K : WorkKind ρ key) (b : BulkSettlement K)
    (resolvedAt : Time) (loaded : List ρ) (ns : NotificationTable) :
    NotificationVerdictsKept ns
      (loaded.foldl (fun ns l => resolveLoaded K b resolvedAt l ns) ns) := by
  induction loaded generalizing ns with
  | nil => exact notificationVerdictsKept_of_kept (fun _ _ h => h)
  | cons l rest ih => exact (resolveObligation_keepsVerdicts _ _ _ _ _ _ ns).trans (ih _)

theorem finishWorkWrite_keepsNotifications (K : WorkKind ρ key) (runId : String)
    (s : Settlement K) (resolvedAt : Time) (work : Table ρ key) (ns : NotificationTable) :
    NotificationVerdictsKept ns (finishWorkWrite K runId s resolvedAt work ns).2 := by
  unfold finishWorkWrite
  split
  · exact notificationVerdictsKept_of_kept (fun _ _ h => h)
  · exact resolveObligation_keepsVerdicts _ _ _ _ _ _ ns

theorem settleLoadedWrite_keepsNotifications (K : WorkKind ρ key) (b : BulkSettlement K)
    (resolvedAt : Time) (loaded : List ρ) (work : Table ρ key) (ns : NotificationTable) :
    NotificationVerdictsKept ns (settleLoadedWrite K b resolvedAt loaded work ns).2 := by
  rw [settleLoadedWrite_eq]
  exact resolveLoaded_keepsVerdicts K b resolvedAt loaded ns

/-- A single-row update re-tests an open status. -/
theorem NotificationUpdate.keepsVerdicts (u : NotificationUpdate) (ns : NotificationTable) :
    NotificationVerdictsKept ns (u.run ns) := by
  intro k n hget hterminal
  obtain ⟨n', hget', hchange⟩ := (u.rowwise ns).after hget
  refine ⟨n', hget', ?_⟩
  rcases hchange with rfl | ⟨-, hexpected, -⟩
  · exact ⟨rfl, rfl⟩
  · rw [hexpected, u.expectsOpen] at hterminal
    cases hterminal

/-- A bulk write of notifications keeps the verdicts exactly when it agrees
with the terminal rows among those it read. -/
theorem NotificationBulkWrite.keepsVerdicts_iff (bulk : NotificationBulkWrite)
    {loaded : List AgentNotification} (hnd : (loaded.map AgentNotification.id).Nodup)
    (ns : NotificationTable) :
    NotificationVerdictsKept ns (bulk.run loaded ns) ↔
      ∀ l ∈ loaded, ∀ n, ns.get? l.id = some n → n.status.isTerminal = true →
        ColumnAgrees l.status bulk.written n.status ∧
          ColumnAgrees l.error bulk.error n.error := by
  have hwrite := bulk.rowwise hnd ns
  constructor
  · intro hkept l hl n hget hterminal
    obtain ⟨n', hget', hstatus, herror⟩ := hkept l.id n hget hterminal
    obtain ⟨written, hwritten, hchange⟩ := hwrite.after hget
    rw [hget'] at hwritten
    obtain rfl := Option.some.inj hwritten
    have hid : n.id = l.id := (Table.get?_eq_some hget).2
    rcases hchange with ⟨-, hno⟩ | ⟨l', hl', hid', rfl⟩
    · exact absurd hid.symm (hno l hl)
    · obtain rfl : l' = l := Table.eq_of_key_eq (t := ⟨loaded, hnd⟩) hl' hl (hid'.trans hid)
      rw [bulk.setsStatus, writtenField_eq_current] at hstatus
      rw [bulk.setsError, writtenField_eq_current] at herror
      exact ⟨hstatus, herror⟩
  · intro hagree k n hget hterminal
    obtain ⟨n', hget', hchange⟩ := hwrite.after hget
    refine ⟨n', hget', ?_⟩
    rcases hchange with ⟨rfl, -⟩ | ⟨l, hl, hid, rfl⟩
    · exact ⟨rfl, rfl⟩
    · have hk : n.id = k := (Table.get?_eq_some hget).2
      obtain ⟨hstatus, herror⟩ := hagree l hl n (by rw [hid, hk]; exact hget) hterminal
      rw [bulk.setsStatus, bulk.setsError, writtenField_eq_current, writtenField_eq_current]
      exact ⟨hstatus, herror⟩

/-! ### One commit -/

private theorem exitCodeValue_inj {a b : Option Int}
    (h : asyncJobObligationPayload.exitCodeValue a = asyncJobObligationPayload.exitCodeValue b) :
    a = b := by
  cases a <;> cases b <;> simp_all [asyncJobObligationPayload.exitCodeValue]

/-- The verdicts of the database are those of its three tables. -/
theorem verdictsKept_iff {db db' : Database} :
    VerdictsKept db db' ↔
      WorkVerdictsKept subagentWork db.tasks db'.tasks ∧
        WorkVerdictsKept asyncJobWork db.jobs db'.jobs ∧
          NotificationVerdictsKept db.notifications db'.notifications := by
  constructor
  · rintro ⟨htasks, hjobs, hns⟩
    refine ⟨?_, ?_, hns⟩
    · intro k task hget hterminal
      obtain ⟨task', hget', hstatus, hresult, herror⟩ := htasks k task hget hterminal
      exact ⟨task', hget', hstatus, herror, congrArg Value.str hresult⟩
    · intro k job hget hterminal
      obtain ⟨job', hget', hstatus, herror, hexit⟩ := hjobs k job hget hterminal
      exact ⟨job', hget', hstatus, herror,
        congrArg asyncJobObligationPayload.exitCodeValue hexit⟩
  · rintro ⟨htasks, hjobs, hns⟩
    refine ⟨?_, ?_, hns⟩
    · intro k task hget hterminal
      obtain ⟨task', hget', hstatus, herror, hproduct⟩ := htasks k task hget hterminal
      exact ⟨task', hget', hstatus, Value.str.inj hproduct, herror⟩
    · intro k job hget hterminal
      obtain ⟨job', hget', hstatus, herror, hproduct⟩ := hjobs k job hget hterminal
      exact ⟨job', hget', hstatus, herror, exitCodeValue_inj hproduct⟩

theorem verdictsKept_refl (db : Database) : VerdictsKept db db :=
  verdictsKept_iff.mpr ⟨workVerdictsKept_of_kept _ (fun _ _ h _ => h),
    workVerdictsKept_of_kept _ (fun _ _ h _ => h),
    notificationVerdictsKept_of_kept (fun _ _ h => h)⟩

/-- **The step lemma.**  A commit keeps the verdicts exactly when it agrees
with the settled rows it read; one case per kind of write. -/
theorem PendingWrite.commit_keepsVerdicts_iff {w : PendingWrite} {resolvedAt : Time}
    {db db' : Database} (h : w.commit resolvedAt db = some db') :
    VerdictsKept db db' ↔ w.AgreesWithSettled db := by
  have htasks : WorkVerdictsKept subagentWork db.tasks db.tasks :=
    workVerdictsKept_of_kept _ (fun _ _ h _ => h)
  have hjobs : WorkVerdictsKept asyncJobWork db.jobs db.jobs :=
    workVerdictsKept_of_kept _ (fun _ _ h _ => h)
  rw [verdictsKept_iff]
  cases w with
  | insertTask task obligation now =>
      obtain ⟨⟨work', ns'⟩, hcreate, rfl⟩ := Option.map_eq_some_iff.mp h
      obtain ⟨hkept, hns⟩ := createWork_kept hcreate
      exact iff_of_true ⟨workVerdictsKept_of_kept _ (fun k r hr _ => hkept k r hr), hjobs,
        notificationVerdictsKept_of_kept hns⟩ trivial
  | insertJob job obligation now =>
      obtain ⟨⟨work', ns'⟩, hcreate, rfl⟩ := Option.map_eq_some_iff.mp h
      obtain ⟨hkept, hns⟩ := createWork_kept hcreate
      exact iff_of_true ⟨htasks, workVerdictsKept_of_kept _ (fun k r hr _ => hkept k r hr),
        notificationVerdictsKept_of_kept hns⟩ trivial
  | insertMessage request now =>
      obtain ⟨ns', hinsert, rfl⟩ := Option.map_eq_some_iff.mp h
      exact iff_of_true ⟨htasks, hjobs, notificationVerdictsKept_of_kept
        (fun _ _ hn => Table.get?_of_insert hinsert hn)⟩ trivial
  | settleTask runId s =>
      obtain rfl := Option.some.inj h
      exact iff_of_true ⟨finishWorkWrite_keepsVerdicts _ _ _ _ _ _, hjobs,
        finishWorkWrite_keepsNotifications _ _ _ _ _ _⟩ trivial
  | settleJob runId s =>
      obtain rfl := Option.some.inj h
      exact iff_of_true ⟨htasks, finishWorkWrite_keepsVerdicts _ _ _ _ _ _,
        finishWorkWrite_keepsNotifications _ _ _ _ _ _⟩ trivial
  | recordProgress loaded progress now =>
      obtain rfl := Option.some.inj h
      refine iff_of_true ⟨?_, hjobs, notificationVerdictsKept_of_kept (fun _ _ h => h)⟩ trivial
      intro k task hget _
      obtain ⟨task', hget', hstatus, hresult, herror⟩ :=
        (updateSubagentProgressWrite_rowwise loaded progress now db.tasks).after hget
      exact ⟨task', hget', hstatus, herror, congrArg Value.str hresult⟩
  | settleTasks filter loaded b =>
      obtain rfl := Option.some.inj h
      have hns := settleLoadedWrite_keepsNotifications subagentWork b resolvedAt loaded.rows
        db.tasks db.notifications
      have hiff := settleLoadedWrite_keepsVerdicts_iff subagentWork b resolvedAt
        loaded.keysDistinct db.tasks db.notifications
      exact ⟨fun hkept => hiff.mp hkept.1, fun hagree => ⟨hiff.mpr hagree, hjobs, hns⟩⟩
  | settleJobs filter loaded b =>
      obtain rfl := Option.some.inj h
      have hns := settleLoadedWrite_keepsNotifications asyncJobWork b resolvedAt loaded.rows
        db.jobs db.notifications
      have hiff := settleLoadedWrite_keepsVerdicts_iff asyncJobWork b resolvedAt
        loaded.keysDistinct db.jobs db.notifications
      exact ⟨fun hkept => hiff.mp hkept.2.1, fun hagree => ⟨htasks, hiff.mpr hagree, hns⟩⟩
  | updateNotification u =>
      obtain rfl := Option.some.inj h
      exact iff_of_true ⟨htasks, hjobs, u.keepsVerdicts db.notifications⟩ trivial
  | writeNotifications p loaded bulk =>
      obtain rfl := Option.some.inj h
      have hiff := bulk.keepsVerdicts_iff loaded.keysDistinct db.notifications
      exact ⟨fun hkept => hiff.mp hkept.2.2, fun hagree => ⟨htasks, hjobs, hiff.mpr hagree⟩⟩

/-! ### Whole runs -/

/-- One step of the machine, read or commit. -/
theorem splitStep_keepsVerdicts_iff {s t : SplitState} {a : SplitAction}
    (h : splitMachine.step s a = some t) :
    VerdictsKept s.db t.db ↔ a.AgreesWithSettled s := by
  cases a with
  | begin transaction now =>
      have hdb : t.db = s.db := by
        simp only [splitMachine] at h
        split at h <;> (obtain rfl := Option.some.inj h; rfl)
      rw [hdb]
      exact iff_of_true (verdictsKept_refl s.db) trivial
  | commit position resolvedAt =>
      simp only [splitMachine] at h
      split at h
      · cases h
      · rename_i write hwrite
        obtain rfl := Option.some.inj h
        have hagrees : (SplitAction.commit position resolvedAt).AgreesWithSettled s ↔
            write.AgreesWithSettled s.db := by
          simp [SplitAction.AgreesWithSettled, hwrite]
        rw [hagrees]
        cases hcommit : write.commit resolvedAt s.db with
        | some db' => exact PendingWrite.commit_keepsVerdicts_iff hcommit
        | none =>
            -- only the insertions can fail, and they read nothing
            refine iff_of_true (verdictsKept_refl s.db) ?_
            cases write <;> trivial

/-- **Terminal verdicts are final exactly when bulk commits agree with what
was settled.**  Over every interleaving of reads and commits, no step changes
the status, result, error or exit code of a terminal row if and only if every
bulk writer, when it commits, finds the terminal rows among those it read
with the status and error it is about to write. -/
theorem verdicts_final_iff (s : SplitState) (acts : List SplitAction) :
    StepsMeet splitMachine (fun s _ t => VerdictsKept s.db t.db) s acts ↔
      StepsMeet splitMachine (fun s a _ => a.AgreesWithSettled s) s acts :=
  stepsMeet_congr (I := fun _ => True) (fun _ _ _ _ _ => trivial)
    (fun _ _ _ _ hstep => splitStep_keepsVerdicts_iff hstep) trivial

/-- A session is aborted while its only child finishes: the canceller reads
the RUNNING row, the finisher commits, then the canceller flushes. -/
def abortWhileFinishing : List SplitAction :=
  [.begin (.createSubagentTask request) 1, .commit 0 1,
    .begin (.cancelRunningSubagentTasks { sessionId := some "s" } "aborted") 2,
    .begin (.completeSubagentTask "r1" "report") 3, .commit 1 3, .commit 0 4]
where
  request : SubagentTaskRequest :=
    { runId := "r1"
      obligationId := "o1"
      sessionId := "s"
      parentAgentCode := "planner"
      parentAgentInstanceId := "main:s:1:planner"
      agentCode := "scout"
      agentName := "Scout"
      brief := "look around"
      nestedCallId := "c"
      ownerId := 1 }

/-- The finished child ends up CANCELED although its report is stored and its
parent was told COMPLETED. -/
theorem cancelMany_overwrites_report :
    (∃ t, exec splitMachine ⟨Database.empty, []⟩ abortWhileFinishing = some t ∧
      t.db.tasks.rows.map (fun task => (task.status, task.result, task.error)) =
        [(.canceled, "report", "aborted")]) ∧
    ¬ ∀ s acts, splitMachine.Start s →
      StepsMeet splitMachine (fun s _ t => VerdictsKept s.db t.db) s acts := by
  refine ⟨⟨_, rfl, rfl⟩, ?_⟩
  intro hfinal
  have h1 := hfinal ⟨Database.empty, []⟩ abortWhileFinishing rfl
  have h2 := h1.tail rfl
  have h3 := h2.tail rfl
  have h4 := h3.tail rfl
  have h5 := h4.tail rfl
  have hlast := (h5.tail rfl).head rfl
  obtain ⟨task', hget', hstatus, -⟩ := hlast.tasks "r1" _ rfl rfl
  obtain rfl := Option.some.inj hget'
  cases hstatus

end Workbench
