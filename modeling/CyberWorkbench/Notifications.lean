import CyberWorkbench.AgentRecords

/-!
# The notification inbox

The transactions of `service/agent/notifications` on the notification table.
Obligations are born AWAITING with the background task they track and are
resolved in the transaction that settles it; user messages are born PENDING.
A driver claims, completes, fails or releases one item at a time, each by an
UPDATE that re-tests the status it read; an interrupt or a restart reads a set
of rows and writes all of them back.

Each writer is cut where the source awaits between its SELECT and its
UPDATE: `…Read` is what the SELECT sees, `…Write` what the commit does to the
table of that moment.
-/

namespace Workbench

open KeyedTable PythonValues

/-! ### Payloads -/

/-- The scope a turn may act in; empty when the caller passed none. -/
structure RuntimeScope where
  allowedTargets : List String := []
  allowedActionTypes : List String := []
  scopeId : String := ""

/-- `_RUNTIME_SCOPE_KEY`. -/
def runtimeScopeKey : String := "_runtime_scope"

/-- `_payload_with_runtime_scope`. -/
def payloadWithRuntimeScope (payload : Option Dict) (scope : RuntimeScope) : Dict :=
  let value := payload.getD []
  if scope.allowedTargets ≠ [] ∨ scope.allowedActionTypes ≠ [] ∨ scope.scopeId ≠ "" then
    Dict.set value runtimeScopeKey (.dict [
      ("allowed_targets", .list (scope.allowedTargets.map .str)),
      ("allowed_action_types", .list (scope.allowedActionTypes.map .str)),
      ("scope_id", .str scope.scopeId)])
  else value

/-- `_runtime_scope_payload`. -/
def runtimeScopePayload (payload : Dict) : Dict :=
  match Dict.get payload runtimeScopeKey with
  | .dict scope => scope
  | _ => []

/-! ### Registering work -/

/-- The arguments of `add_obligation_in_session`, with the identifier
`uuid4()` draws. -/
structure ObligationRequest where
  id : String
  kind : NotificationKind
  sessionId : String
  targetAgentCode : String
  targetAgentInstanceId : String
  runId : String
  payload : Option Dict := none
  nestedForAgentCode : String := ""
  nestedCallId : String := ""
  sandboxContainerId : Option Nat := none
  sandboxContainerGeneration : Nat := 0
  sandboxSkillMetadata : List String := []
  scope : RuntimeScope := {}

/-- The row `add_obligation_in_session` registers. -/
def ObligationRequest.row (request : ObligationRequest) (now : Time) : AgentNotification where
  id := request.id
  sessionId := request.sessionId
  targetAgentCode := request.targetAgentCode
  targetAgentInstanceId := request.targetAgentInstanceId
  nestedForAgentCode := request.nestedForAgentCode
  nestedCallId := request.nestedCallId
  sandboxContainerId := request.sandboxContainerId
  sandboxContainerGeneration := request.sandboxContainerGeneration
  sandboxSkillMetadata := request.sandboxSkillMetadata
  kind := request.kind
  status := .awaiting
  runId := request.runId
  payload := payloadWithRuntimeScope request.payload request.scope
  createdAt := now
  updatedAt := now

/-- `add_obligation_in_session`. -/
def addObligationInSession (request : ObligationRequest) (now : Time)
    (table : NotificationTable) : Option NotificationTable :=
  table.insert (request.row now)

/-- The arguments of `enqueue_user_message_notification`, with the two
identifiers `uuid4()` draws. -/
structure UserMessageRequest where
  id : String
  runId : String
  sessionId : String
  targetAgentCode : String
  targetAgentInstanceId : String
  userContent : List Value
  userDisplayText : String := ""
  userRequestedAgentCode : String := ""
  sandboxContainerId : Option Nat := none
  sandboxContainerGeneration : Nat := 0
  sandboxSkillMetadata : List String := []
  scope : RuntimeScope := {}

/-- The row `enqueue_user_message_notification` inserts. -/
def UserMessageRequest.row (request : UserMessageRequest) (now : Time) : AgentNotification where
  id := request.id
  sessionId := request.sessionId
  targetAgentCode := request.targetAgentCode
  targetAgentInstanceId := request.targetAgentInstanceId
  sandboxContainerId := request.sandboxContainerId
  sandboxContainerGeneration := request.sandboxContainerGeneration
  sandboxSkillMetadata := request.sandboxSkillMetadata
  kind := .userMessage
  status := .pending
  priority := userMessagePriority
  runId := request.runId
  payload := payloadWithRuntimeScope (some [
    ("content", .list request.userContent),
    ("display_text", .str request.userDisplayText),
    ("requested_agent_code", .str request.userRequestedAgentCode)]) request.scope
  createdAt := now
  updatedAt := now

/-- `enqueue_user_message_notification`. -/
def enqueueUserMessageNotification (request : UserMessageRequest) (now : Time)
    (table : NotificationTable) : Option NotificationTable :=
  table.insert (request.row now)

/-! ### Resolving an obligation -/

/-- What `resolve_obligation_in_session` leaves in the row it found AWAITING.
A runtime scope survives a replaced payload. -/
def resolvedObligation (ready : Bool) (payload : Option Dict) (error : String) (now : Time)
    (notification : AgentNotification) : AgentNotification :=
  { notification with
    status := if ready then .pending else .canceled
    payload :=
      match payload with
      | none => notification.payload
      | some payload =>
          let currentScope := runtimeScopePayload notification.payload
          if currentScope = [] then payload
          else Dict.set payload runtimeScopeKey (.dict currentScope)
    error := error
    updatedAt := now
    finishedAt := if ready then notification.finishedAt else some now }

@[simp] theorem resolvedObligation_id (ready : Bool) (payload : Option Dict) (error : String)
    (now : Time) (n : AgentNotification) :
    (resolvedObligation ready payload error now n).id = n.id := rfl

@[simp] theorem resolvedObligation_kind (ready : Bool) (payload : Option Dict) (error : String)
    (now : Time) (n : AgentNotification) :
    (resolvedObligation ready payload error now n).kind = n.kind := rfl

@[simp] theorem resolvedObligation_runId (ready : Bool) (payload : Option Dict) (error : String)
    (now : Time) (n : AgentNotification) :
    (resolvedObligation ready payload error now n).runId = n.runId := rfl

@[simp] theorem resolvedObligation_status (ready : Bool) (payload : Option Dict) (error : String)
    (now : Time) (n : AgentNotification) :
    (resolvedObligation ready payload error now n).status =
      if ready then .pending else .canceled := rfl

/-- The obligation of one run of background work. -/
def isObligationOf (kind : NotificationKind) (runId : String) (n : AgentNotification) : Bool :=
  decide (n.kind = kind) && decide (n.runId = runId)

/-- `resolve_obligation_in_session`: the first row of the run is resolved
when it is still AWAITING, and left alone otherwise. -/
def resolveObligationInSession (kind : NotificationKind) (runId : String) (ready : Bool)
    (payload : Option Dict) (error : String) (now : Time)
    (table : NotificationTable) : NotificationTable :=
  match table.rows.find? (isObligationOf kind runId) with
  | none => table
  | some notification =>
      if notification.status ≠ .awaiting then table
      else table.updateWhere (fun n => decide (n.id = notification.id))
        (resolvedObligation ready payload error now)
        (resolvedObligation_id ready payload error now)

/-- A resolution changes at most one row, and that row was AWAITING. -/
theorem resolveObligation_rowwise (kind : NotificationKind) (runId : String) (ready : Bool)
    (payload : Option Dict) (error : String) (now : Time) (table : NotificationTable) :
    table.Rowwise (fun n n' =>
        n' = n ∨ (isObligationOf kind runId n = true ∧ n.status = .awaiting ∧
          n' = resolvedObligation ready payload error now n))
      (resolveObligationInSession kind runId ready payload error now table) := by
  unfold resolveObligationInSession
  split
  · exact Table.Rowwise.refl (fun _ => .inl rfl) table
  · rename_i found hfound
    split
    · exact Table.Rowwise.refl (fun _ => .inl rfl) table
    · rename_i hawaiting
      refine (Table.rowwise_updateWhere _ _ _ _).mono ?_
      intro k n n' hget hn'
      by_cases hid : n.id = found.id
      · have hsame : n = found := Table.eq_of_key_eq (Table.get?_eq_some hget).1
          (List.mem_of_find?_eq_some hfound) hid
        have hkind := List.find?_some hfound
        rw [if_pos (by simpa using hid)] at hn'
        refine .inr ⟨by rw [hsame]; exact hkind, ?_, hn'⟩
        rw [hsame]
        exact Decidable.of_not_not hawaiting
      · rw [if_neg (by simpa using hid)] at hn'
        exact .inl hn'

/-- **Resolution under one row per run.**  When the run has a single
notification, that one is resolved if it is AWAITING and kept otherwise. -/
theorem resolveObligation_get? {kind : NotificationKind} {runId : String}
    {table : NotificationTable} {n : AgentNotification} (ready : Bool)
    (payload : Option Dict) (error : String) (now : Time)
    (hn : n ∈ table.rows) (hof : isObligationOf kind runId n = true)
    (hunique : ∀ m ∈ table.rows, isObligationOf kind runId m = true → m = n) :
    (resolveObligationInSession kind runId ready payload error now table).get? n.id =
      some (if n.status = .awaiting then resolvedObligation ready payload error now n else n) := by
  have hfind : table.rows.find? (isObligationOf kind runId) = some n := by
    cases hf : table.rows.find? (isObligationOf kind runId) with
    | none => exact absurd hof (List.find?_eq_none.mp hf n hn)
    | some m =>
        rw [hunique m (List.mem_of_find?_eq_some hf) (List.find?_some hf)]
  have hget : table.get? n.id = some n := Table.mem_rows_iff_get?.mp hn
  unfold resolveObligationInSession
  simp only [hfind]
  by_cases hs : n.status = .awaiting
  · rw [if_neg (by simp [hs]), Table.get?_updateWhere, hget]
    simp [hs]
  · rw [if_pos hs, hget, if_neg hs]

/-! ### Single-row updates -/

/-- `UPDATE … SET … WHERE id = … AND status = …`: the row changes only if it
still has the expected status when the statement runs. -/
structure NotificationUpdate where
  id : String
  expected : NotificationStatus
  written : NotificationStatus
  set : AgentNotification → AgentNotification
  expectsOpen : expected.isTerminal = false
  neverAwaits : written ≠ .awaiting
  keepsId : ∀ n, (set n).id = n.id
  keepsKind : ∀ n, (set n).kind = n.kind
  keepsRunId : ∀ n, (set n).runId = n.runId
  setsStatus : ∀ n, (set n).status = written

/-- Run the update. -/
def NotificationUpdate.run (update : NotificationUpdate) (table : NotificationTable) :
    NotificationTable :=
  table.updateWhere
    (fun n => decide (n.id = update.id) && decide (n.status = update.expected))
    update.set update.keepsId

/-- The update touches its own row, and only in the expected status. -/
theorem NotificationUpdate.rowwise (update : NotificationUpdate) (table : NotificationTable) :
    table.Rowwise (fun n n' =>
        n' = n ∨ (n.id = update.id ∧ n.status = update.expected ∧ n' = update.set n))
      (update.run table) := by
  refine (Table.rowwise_updateWhere _ _ _ _).mono ?_
  intro k n n' _ hn'
  split at hn'
  · rename_i h
    rw [Bool.and_eq_true, decide_eq_true_eq, decide_eq_true_eq] at h
    exact .inr ⟨h.1, h.2, hn'⟩
  · exact .inl hn'

/-- `_filter_notification_target`: one instance, or every main-agent one. -/
def filterNotificationTarget (targetAgentInstanceId : Option String)
    (n : AgentNotification) : Bool :=
  match targetAgentInstanceId with
  | some target => decide (n.targetAgentInstanceId = target)
  | none => isMainAgentTarget n.targetAgentInstanceId

/-- `None` matches every value. -/
def matchesOption {α : Type} [DecidableEq α] (wanted : Option α) (value : α) : Bool :=
  match wanted with
  | some w => decide (value = w)
  | none => true

/-- The rows a driver of this target may claim. -/
def isPendingFor (sessionId : String) (targetAgentCode targetAgentInstanceId : Option String)
    (n : AgentNotification) : Bool :=
  decide (n.sessionId = sessionId) && decide (n.status = .pending) &&
    matchesOption targetAgentCode n.targetAgentCode &&
    filterNotificationTarget targetAgentInstanceId n

/-- `ORDER BY priority DESC, created_at ASC`. -/
def claimedBefore (a b : AgentNotification) : Bool :=
  decide (b.priority < a.priority) ||
    (decide (a.priority = b.priority) && decide (a.createdAt < b.createdAt))

/-- `ORDER BY … LIMIT 1`. -/
def firstToClaim : List AgentNotification → Option AgentNotification
  | [] => none
  | n :: rest =>
      match firstToClaim rest with
      | none => some n
      | some best => if claimedBefore best n then some best else some n

/-- The SELECT of `_claim_next_pending_notification_locked`. -/
def claimNextPendingNotificationRead (sessionId : String)
    (targetAgentCode targetAgentInstanceId : Option String)
    (table : NotificationTable) : Option AgentNotification :=
  firstToClaim
    (table.select (isPendingFor sessionId targetAgentCode targetAgentInstanceId)).rows

/-- The UPDATE of `_claim_next_pending_notification_locked`. -/
def claimUpdate (notificationId : String) (now : Time) : NotificationUpdate where
  id := notificationId
  expected := .pending
  written := .processing
  set n := { n with status := .processing, startedAt := some now, updatedAt := now }
  expectsOpen := rfl
  neverAwaits := nofun
  keepsId _ := rfl
  keepsKind _ := rfl
  keepsRunId _ := rfl
  setsStatus _ := rfl

/-- The UPDATE of `_finish_notification`. -/
def finishUpdate (notificationId : String) (status : NotificationStatus)
    (isTerminal : status.isTerminal = true) (error : String) (now : Time) :
    NotificationUpdate where
  id := notificationId
  expected := .processing
  written := status
  set n := { n with status := status, error := error, updatedAt := now, finishedAt := some now }
  expectsOpen := rfl
  neverAwaits := by rintro rfl; cases isTerminal
  keepsId _ := rfl
  keepsKind _ := rfl
  keepsRunId _ := rfl
  setsStatus _ := rfl

/-- The UPDATE of `release_notification`.  `started_at` stays: it tells a
message that was claimed once from a fresh one. -/
def releaseUpdate (notificationId : String) (now : Time) : NotificationUpdate where
  id := notificationId
  expected := .processing
  written := .pending
  set n := { n with status := .pending, error := "", updatedAt := now }
  expectsOpen := rfl
  neverAwaits := nofun
  keepsId _ := rfl
  keepsKind _ := rfl
  keepsRunId _ := rfl
  setsStatus _ := rfl

/-- `_finish_notification` goes on to its UPDATE when it read a row that is
not terminal. -/
def finishNotificationRead (notificationId : String) (table : NotificationTable) : Bool :=
  match table.get? notificationId with
  | none => false
  | some n => !n.status.isTerminal

/-- `release_notification` goes on to its UPDATE when it read a PROCESSING
row. -/
def releaseNotificationRead (notificationId : String) (table : NotificationTable) : Bool :=
  match table.get? notificationId with
  | none => false
  | some n => decide (n.status = .processing)

/-- `complete_notification`, read and write in one. -/
def completeNotification (notificationId : String) (now : Time) (table : NotificationTable) :
    NotificationTable :=
  if finishNotificationRead notificationId table then
    (finishUpdate notificationId .completed rfl "" now).run table
  else table

/-- `fail_notification`, read and write in one. -/
def failNotification (notificationId error : String) (now : Time) (table : NotificationTable) :
    NotificationTable :=
  if finishNotificationRead notificationId table then
    (finishUpdate notificationId .failed rfl error now).run table
  else table

/-- `release_notification`, read and write in one. -/
def releaseNotification (notificationId : String) (now : Time) (table : NotificationTable) :
    NotificationTable :=
  if releaseNotificationRead notificationId table then
    (releaseUpdate notificationId now).run table
  else table

/-- An update that completed a row was the completion of that row. -/
theorem NotificationUpdate.completed_of_run {u : NotificationUpdate} {table : NotificationTable}
    {k : String} {n n' : AgentNotification} (hn : table.get? k = some n)
    (hopen : n.status ≠ .completed) (hn' : (u.run table).get? k = some n')
    (hdone : n'.status = .completed) : u.id = k ∧ u.written = .completed := by
  obtain ⟨m, hm, hchange⟩ := (u.rowwise table).after hn
  rw [hn'] at hm
  obtain rfl := Option.some.inj hm
  rcases hchange with rfl | ⟨hid, -, rfl⟩
  · exact absurd hdone hopen
  · exact ⟨hid.symm.trans (Table.get?_eq_some hn).2, (u.setsStatus n).symm.trans hdone⟩

/-! ### Liveness queries -/

/-- `has_pending_notification`. -/
def hasPendingNotification (sessionId : String)
    (targetAgentCode targetAgentInstanceId : Option String)
    (table : NotificationTable) : Bool :=
  table.rows.any (isPendingFor sessionId targetAgentCode targetAgentInstanceId)

/-- The test of `has_pending_main_agent_notification`. -/
def isPendingMainAgent (sessionId : String) (n : AgentNotification) : Bool :=
  decide (n.sessionId = sessionId) && decide (n.status = .pending) &&
    isMainAgentTarget n.targetAgentInstanceId

/-- `has_pending_main_agent_notification`. -/
def hasPendingMainAgentNotification (sessionId : String) (table : NotificationTable) : Bool :=
  table.rows.any (isPendingMainAgent sessionId)

/-- `has_active_session_notifications`. -/
def hasActiveSessionNotifications (sessionId : String) (table : NotificationTable) : Bool :=
  table.rows.any fun n => decide (n.sessionId = sessionId) && n.status.isOutstanding

/-! ### Bulk writes -/

/-- What a bulk writer does with the rows it read: `write loaded current` is
the row after the flush, where only columns changed since loading are
written. -/
structure NotificationBulkWrite where
  written : NotificationStatus
  error : String
  write : AgentNotification → AgentNotification → AgentNotification
  neverAwaits : written ≠ .awaiting
  keepsId : ∀ l c, (write l c).id = c.id
  keepsKind : ∀ l c, (write l c).kind = c.kind
  keepsRunId : ∀ l c, (write l c).runId = c.runId
  setsStatus : ∀ l c, (write l c).status = writtenField l.status written c.status
  setsError : ∀ l c, (write l c).error = writtenField l.error error c.error

/-- Flush the rows that were read. -/
def NotificationBulkWrite.run (bulk : NotificationBulkWrite) (loaded : List AgentNotification)
    (table : NotificationTable) : NotificationTable :=
  table.writeBack loaded bulk.write bulk.keepsId

/-- A bulk write touches the rows that were read. -/
theorem NotificationBulkWrite.rowwise (bulk : NotificationBulkWrite)
    {loaded : List AgentNotification} (hnd : (loaded.map AgentNotification.id).Nodup)
    (table : NotificationTable) :
    table.Rowwise (fun n n' =>
        (n' = n ∧ ∀ l ∈ loaded, l.id ≠ n.id) ∨
          ∃ l ∈ loaded, l.id = n.id ∧ n' = bulk.write l n)
      (bulk.run loaded table) :=
  Table.rowwise_writeBack table bulk.write bulk.keepsId hnd

/-- The filter arguments of `_cancel_notifications`. -/
structure CancelFilter where
  sessionId : String
  instanceEquals : Option String := none
  instanceLikeMain : Bool := false
  spareUnclaimedUserMessages : Bool := false
  inStatuses : NotificationStatus → Bool := NotificationStatus.isActiveCancelable

/-- The WHERE clause of `_cancel_notifications`. -/
def CancelFilter.selects (f : CancelFilter) (n : AgentNotification) : Bool :=
  decide (n.sessionId = f.sessionId) && f.inStatuses n.status &&
    matchesOption f.instanceEquals n.targetAgentInstanceId &&
    (!f.instanceLikeMain || isMainAgentTarget n.targetAgentInstanceId) &&
    (!f.spareUnclaimedUserMessages ||
      (decide (n.kind ≠ .userMessage) || n.startedAt.isSome))

/-- `cancel_session_notifications` selects everything outstanding. -/
def cancelSessionFilter (sessionId : String) (targetAgentInstanceId : Option String) :
    CancelFilter where
  sessionId := sessionId
  instanceEquals := targetAgentInstanceId
  inStatuses := NotificationStatus.isOutstanding

/-- `cancel_main_agent_interrupted_notifications` spares user messages nobody
claimed yet. -/
def cancelMainAgentInterruptedFilter (sessionId : String) : CancelFilter where
  sessionId := sessionId
  instanceLikeMain := true
  spareUnclaimedUserMessages := true

/-- The assignments of `_cancel_notifications`. -/
def cancelNotificationsWrite (error : String) (now : Time) : NotificationBulkWrite where
  written := .canceled
  error := error
  write loaded current :=
    { current with
      status := writtenField loaded.status .canceled current.status
      error := writtenField loaded.error error current.error
      updatedAt := writtenField loaded.updatedAt now current.updatedAt
      finishedAt := writtenField loaded.finishedAt (some now) current.finishedAt }
  neverAwaits := nofun
  keepsId _ _ := rfl
  keepsKind _ _ := rfl
  keepsRunId _ _ := rfl
  setsStatus _ _ := rfl
  setsError _ _ := rfl

/-- `_cancel_notifications`, read and write in one. -/
def cancelNotifications (f : CancelFilter) (error : String) (now : Time)
    (table : NotificationTable) : NotificationTable :=
  (cancelNotificationsWrite error now).run (table.select f.selects).rows table

/-- What `_cancel_notifications` selected is CANCELED, the rest is kept. -/
theorem cancelNotifications_rowwise (f : CancelFilter) (error : String) (now : Time)
    (table : NotificationTable) :
    table.Rowwise (fun n n' =>
        (f.selects n = false ∧ n' = n) ∨ (f.selects n = true ∧ n'.status = .canceled))
      (cancelNotifications f error now table) := by
  refine ((cancelNotificationsWrite error now).rowwise
    (table.select f.selects).keysDistinct table).mono ?_
  rintro k n n' hget (⟨rfl, hno⟩ | ⟨l, hl, hid, rfl⟩)
  · refine .inl ⟨?_, rfl⟩
    rw [Bool.eq_false_iff]
    intro hselects
    exact hno n' (Table.mem_select.mpr ⟨(Table.get?_eq_some hget).1, hselects⟩) rfl
  · obtain ⟨hmem, hselects⟩ := Table.mem_select.mp hl
    obtain rfl : l = n := Table.eq_of_key_eq hmem (Table.get?_eq_some hget).1 hid
    exact .inr ⟨hselects, by rw [NotificationBulkWrite.setsStatus, writtenField_unchanged]; rfl⟩

/-- The WHERE clause of `reset_processing_notifications_all`. -/
def isProcessing (n : AgentNotification) : Bool := decide (n.status = .processing)

/-- The assignments of `reset_processing_notifications_all`. -/
def resetProcessingWrite (now : Time) : NotificationBulkWrite where
  written := .pending
  error := ""
  write loaded current :=
    { current with
      status := writtenField loaded.status .pending current.status
      error := writtenField loaded.error "" current.error
      startedAt := writtenField loaded.startedAt none current.startedAt
      updatedAt := writtenField loaded.updatedAt now current.updatedAt }
  neverAwaits := nofun
  keepsId _ _ := rfl
  keepsKind _ _ := rfl
  keepsRunId _ _ := rfl
  setsStatus _ _ := rfl
  setsError _ _ := rfl

end Workbench
