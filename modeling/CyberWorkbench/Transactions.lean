import CyberWorkbench.BackgroundWork

/-!
# Transactions

Every operation on tasks, jobs and notifications is a read step followed by a
write-and-commit step.  `Transaction.read` is the SELECT: it sees the
committed database, locks nothing, and returns the write the operation goes on
to (`none` when it returns early).  `PendingWrite.commit` is what that write
does to the database it finds, which need not be the one that was read.

Two systems are built on this split: `ObligationLockstep` takes read and
commit as one atomic step, `SplitTransactions` interleaves them freely.
-/

namespace Workbench

open KeyedTable PythonValues

/-- The operations, with their arguments. -/
inductive Transaction where
  | createSubagentTask (request : SubagentTaskRequest)
  | completeSubagentTask (runId result : String)
  | failSubagentTask (runId error : String)
  | cancelSubagentTaskRecord (runId error : String)
  | updateSubagentProgress (runId progress : String)
  | cancelRunningSubagentTasks (filter : TaskFilter) (error : String)
  | markStaleRunningSubagentTasksFailed
  | createAsyncJob (request : AsyncJobRequest)
  | completeAsyncJob (runId : String) (exitCode : Int) (outputBytes outputLines : Nat)
  | failAsyncJob (runId error : String) (outputBytes outputLines : Nat)
  | cancelAsyncJob (runId error : String) (outputBytes outputLines : Nat)
  | cancelRunningAsyncJobs (filter : JobFilter) (error : String)
  | markStaleRunningAsyncJobsFailed
  | enqueueUserMessageNotification (request : UserMessageRequest)
  | claimNextPendingNotification (sessionId : String)
      (targetAgentCode targetAgentInstanceId : Option String)
  | completeNotification (notificationId : String)
  | failNotification (notificationId error : String)
  | releaseNotification (notificationId : String)
  | cancelSessionNotifications (sessionId error : String)
      (targetAgentInstanceId : Option String)
  | cancelMainAgentInterruptedNotifications (sessionId error : String)
  | resetProcessingNotificationsAll

/-- A write an operation has still to commit, with what it read. -/
inductive PendingWrite where
  | insertTask (task : AgentSubordinateTask) (obligation : Option ObligationRequest) (now : Time)
  | insertJob (job : SandboxAsyncJob) (obligation : ObligationRequest) (now : Time)
  | insertMessage (request : UserMessageRequest) (now : Time)
  | settleTask (runId : String) (s : Settlement subagentWork)
  | settleJob (runId : String) (s : Settlement asyncJobWork)
  | recordProgress (loaded : AgentSubordinateTask) (progress : String) (now : Time)
  | settleTasks (filter : TaskFilter)
      (loaded : Selection AgentSubordinateTask.runId filter.selects)
      (b : BulkSettlement subagentWork)
  | settleJobs (filter : JobFilter)
      (loaded : Selection SandboxAsyncJob.runId filter.selects)
      (b : BulkSettlement asyncJobWork)
  | updateNotification (update : NotificationUpdate)
  | writeNotifications (p : AgentNotification → Bool)
      (loaded : Selection AgentNotification.id p) (bulk : NotificationBulkWrite)

/-- The read step of a single-record finisher. -/
def finishTaskRead (runId : String) (s : Settlement subagentWork) (db : Database) :
    Option PendingWrite :=
  if finishWorkRead subagentWork runId db.tasks then some (.settleTask runId s) else none

/-- The read step of a single-record finisher. -/
def finishJobRead (runId : String) (s : Settlement asyncJobWork) (db : Database) :
    Option PendingWrite :=
  if finishWorkRead asyncJobWork runId db.jobs then some (.settleJob runId s) else none

/-- The read step of `_finish_notification`. -/
def finishRead (notificationId : String) (status : NotificationStatus)
    (isTerminal : status.isTerminal = true) (error : String) (now : Time) (db : Database) :
    Option PendingWrite :=
  if finishNotificationRead notificationId db.notifications then
    some (.updateNotification (finishUpdate notificationId status isTerminal error now))
  else none

/-- The read step of `_cancel_notifications`. -/
def cancelNotificationsRead (filter : CancelFilter) (error : String) (now : Time)
    (db : Database) : Option PendingWrite :=
  some (.writeNotifications filter.selects (db.notifications.select filter.selects)
    (cancelNotificationsWrite error now))

theorem completed_isTerminal : NotificationStatus.completed.isTerminal = true := rfl

theorem failed_isTerminal : NotificationStatus.failed.isTerminal = true := rfl

/-- **The read step.** -/
def Transaction.read (now : Time) (db : Database) : Transaction → Option PendingWrite
  | .createSubagentTask request =>
      some (.insertTask (request.task now) request.obligation now)
  | .completeSubagentTask runId result =>
      finishTaskRead runId (Workbench.completeSubagentTask result now) db
  | .failSubagentTask runId error =>
      finishTaskRead runId (Workbench.failSubagentTask error now) db
  | .cancelSubagentTaskRecord runId error =>
      finishTaskRead runId (Workbench.cancelSubagentTaskRecord error now) db
  | .updateSubagentProgress runId progress =>
      match db.tasks.get? runId with
      | none => none
      | some task =>
          if task.status.isTerminal then none else some (.recordProgress task progress now)
  | .cancelRunningSubagentTasks filter error =>
      some (.settleTasks filter (db.tasks.select filter.selects)
        (Workbench.cancelRunningSubagentTasks error now))
  | .markStaleRunningSubagentTasksFailed =>
      some (.settleTasks {} (db.tasks.select (TaskFilter.selects {}))
        (Workbench.markStaleRunningSubagentTasksFailed now))
  | .createAsyncJob request =>
      some (.insertJob (request.job now) request.obligation now)
  | .completeAsyncJob runId exitCode outputBytes outputLines =>
      finishJobRead runId (Workbench.completeAsyncJob exitCode outputBytes outputLines now) db
  | .failAsyncJob runId error outputBytes outputLines =>
      finishJobRead runId (Workbench.failAsyncJob error outputBytes outputLines now) db
  | .cancelAsyncJob runId error outputBytes outputLines =>
      finishJobRead runId (Workbench.cancelAsyncJob error outputBytes outputLines now) db
  | .cancelRunningAsyncJobs filter error =>
      some (.settleJobs filter (db.jobs.select filter.selects)
        (Workbench.cancelRunningAsyncJobs error now))
  | .markStaleRunningAsyncJobsFailed =>
      some (.settleJobs {} (db.jobs.select (JobFilter.selects {}))
        (Workbench.markStaleRunningAsyncJobsFailed now))
  | .enqueueUserMessageNotification request => some (.insertMessage request now)
  | .claimNextPendingNotification sessionId targetAgentCode targetAgentInstanceId =>
      match claimNextPendingNotificationRead sessionId targetAgentCode targetAgentInstanceId
          db.notifications with
      | none => none
      | some n => some (.updateNotification (claimUpdate n.id now))
  | .completeNotification notificationId =>
      finishRead notificationId .completed completed_isTerminal "" now db
  | .failNotification notificationId error =>
      finishRead notificationId .failed failed_isTerminal error now db
  | .releaseNotification notificationId =>
      if releaseNotificationRead notificationId db.notifications then
        some (.updateNotification (releaseUpdate notificationId now))
      else none
  | .cancelSessionNotifications sessionId error targetAgentInstanceId =>
      cancelNotificationsRead (cancelSessionFilter sessionId targetAgentInstanceId) error now db
  | .cancelMainAgentInterruptedNotifications sessionId error =>
      cancelNotificationsRead (cancelMainAgentInterruptedFilter sessionId) error now db
  | .resetProcessingNotificationsAll =>
      some (.writeNotifications isProcessing (db.notifications.select isProcessing)
        (resetProcessingWrite now))

/-- Put the two tables of a task transaction back. -/
def Database.withTasks (db : Database) (t : TaskTable × NotificationTable) : Database :=
  { db with tasks := t.1, notifications := t.2 }

/-- Put the two tables of a job transaction back. -/
def Database.withJobs (db : Database) (t : JobTable × NotificationTable) : Database :=
  { db with jobs := t.1, notifications := t.2 }

/-- Put the notification table back. -/
def Database.withNotifications (db : Database) (t : NotificationTable) : Database :=
  { db with notifications := t }

/-- **The write-and-commit step**; `none` is an integrity error. -/
def PendingWrite.commit (resolvedAt : Time) (db : Database) : PendingWrite → Option Database
  | .insertTask task obligation now =>
      (createWork task obligation now db.tasks db.notifications).map db.withTasks
  | .insertJob job obligation now =>
      (createWork job (some obligation) now db.jobs db.notifications).map db.withJobs
  | .insertMessage request now =>
      (Workbench.enqueueUserMessageNotification request now db.notifications).map
        db.withNotifications
  | .settleTask runId s =>
      some (db.withTasks
        (finishWorkWrite subagentWork runId s resolvedAt db.tasks db.notifications))
  | .settleJob runId s =>
      some (db.withJobs
        (finishWorkWrite asyncJobWork runId s resolvedAt db.jobs db.notifications))
  | .recordProgress loaded progress now =>
      some { db with tasks := updateSubagentProgressWrite loaded progress now db.tasks }
  | .settleTasks _ loaded b =>
      some (db.withTasks
        (settleLoadedWrite subagentWork b resolvedAt loaded.rows db.tasks db.notifications))
  | .settleJobs _ loaded b =>
      some (db.withJobs
        (settleLoadedWrite asyncJobWork b resolvedAt loaded.rows db.jobs db.notifications))
  | .updateNotification update => some (db.withNotifications (update.run db.notifications))
  | .writeNotifications _ loaded bulk =>
      some (db.withNotifications (bulk.run loaded.rows db.notifications))

end Workbench
