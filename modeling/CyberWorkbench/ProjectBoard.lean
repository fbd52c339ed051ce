import CyberWorkbench.AgentRecords
import CyberWorkbench.LastWrite
import CyberWorkbench.StepMachine

/-!
# The board of a project under concurrent calls

Tasks, agent summaries, progress and status stand in one row, and three calls
read the row, work out a new one and write it back:
`update_work_project_tasks`, `update_work_project_agent_summary` and
`cancel_work_project`.  Only the second takes the lock of the project.

A write sets the columns whose value differs from what the call has read.  A
call is *timely* when it would set the same columns to the same values from
the row that stands there at its write.  Where every call is timely, the calls
have the effect of their serial order by commit (`project_updates_serializable`);
a call that is not may bring back a task list that was replaced, or take a
cancellation back (`summary_brings_tasks_back`).

Progress is a mean of floating point numbers rounded to two digits; what that
arithmetic gives is a parameter.
-/

namespace Workbench.WorkProject

open KeyedTable PythonValues StepMachine

/-! ### The board -/

/-- `WorkProjectTaskStatus`. -/
inductive TaskStatus where
  | todo
  | inProgress
  | blocked
  | done
  deriving DecidableEq, Repr

/-- `WorkProjectTaskSchema`, as the row stores it. -/
structure WorkProjectTask where
  id : String
  title : String
  status : TaskStatus := .todo
  assignee : String := ""
  progress : Rat := 0
  summary : String := ""
  deriving DecidableEq, Repr

/-- `WorkProjectAgentSummaryContentSchema`. -/
structure AgentSummaryContent where
  taskId : String := ""
  taskTitle : String := ""
  progress : Rat := 0
  status : String := ""
  findings : List String := []
  decisions : List String := []
  blockers : List String := []
  nextSteps : List String := []
  notes : String := ""
  deriving DecidableEq, Repr

/-- An agent's slot in `agent_summaries`. -/
structure AgentSummary where
  agentCode : String
  summary : AgentSummaryContent
  updatedAt : Time
  deriving DecidableEq, Repr

/-- `WorkProjectStatus`. -/
inductive ProjectStatus where
  | working
  | completed
  | canceled
  deriving DecidableEq, Repr

/-- The columns of `work_projects` that the calls share. -/
structure ProjectBoard where
  tasks : List WorkProjectTask := []
  agentSummaries : List (String × AgentSummary) := []
  progress : Rat := 0
  status : ProjectStatus := .working
  deriving DecidableEq, Repr

attribute [ext] ProjectBoard

/-- The row, with the time stamp every call sets. -/
structure ProjectRow where
  board : ProjectBoard
  updatedAt : Time
  deriving DecidableEq, Repr

section Board

variable (mean : List Rat → Rat)

/-- `calculate_work_project_progress`. -/
def calculateWorkProjectProgress (tasks : List WorkProjectTask) : Rat :=
  if tasks = [] then 0 else mean (tasks.map WorkProjectTask.progress)

/-- `derive_work_project_status`. -/
def deriveWorkProjectStatus (tasks : List WorkProjectTask) (current : ProjectStatus) :
    ProjectStatus :=
  if current = .canceled then .canceled
  else if tasks = [] then .working
  else if ∀ task ∈ tasks, task.status = .done then .completed
  else .working

/-- `_recalculate_project_progress`. -/
def recalculateProjectProgress (board : ProjectBoard) : ProjectBoard :=
  { board with
    progress := calculateWorkProjectProgress mean board.tasks
    status := deriveWorkProjectStatus board.tasks board.status }

/-- The task is the one the summary reports on. -/
def reportsOn (summary : AgentSummaryContent) (task : WorkProjectTask) : Bool :=
  decide (task.id = strip summary.taskId) ||
    (decide (strip summary.taskId = "") && decide (task.title = strip summary.taskTitle))

/-- `_sync_summary_progress_to_task`. -/
def syncSummaryProgressToTask (summary : AgentSummaryContent) (board : ProjectBoard) :
    ProjectBoard :=
  if strip summary.taskId = "" ∧ strip summary.taskTitle = "" then board
  else if board.tasks.any (reportsOn summary) then
    recalculateProjectProgress mean { board with
      tasks := board.tasks.map (fun task =>
        if reportsOn summary task then { task with progress := summary.progress } else task) }
  else board

/-! ### The calls -/

/-- `DEFAULT_AGENT_CODE` -/
def defaultAgentCode : String := "cso"

/-- A call, with the code of the agent that makes it.  A summary is stamped
when the call is made. -/
inductive ProjectCall
  | updateTasks (agentCode : String) (tasks : List WorkProjectTask)
  | updateAgentSummary (agentCode : String) (summary : AgentSummaryContent) (calledAt : Time)
  | cancel
  deriving DecidableEq, Repr

/-- The call ends without writing. -/
def ProjectCall.refused (board : ProjectBoard) : ProjectCall → Bool
  | .updateTasks agentCode _ => !decide (agentCode = defaultAgentCode)
  | .updateAgentSummary agentCode _ _ => decide (strip agentCode = "")
  | .cancel => decide (board.status = .canceled)

/-- What the call makes of a board. -/
def ProjectCall.apply (board : ProjectBoard) : ProjectCall → ProjectBoard
  | .updateTasks agentCode tasks =>
      if agentCode = defaultAgentCode then
        recalculateProjectProgress mean { board with tasks := tasks }
      else board
  | .updateAgentSummary agentCode summary calledAt =>
      if strip agentCode = "" then board
      else
        syncSummaryProgressToTask mean summary { board with
          agentSummaries := LastWrite.write (strip agentCode)
            ⟨strip agentCode, summary, calledAt⟩ board.agentSummaries }
  | .cancel =>
      if board.status = .canceled then board else { board with status := .canceled }

/-- The summary call holds the lock of the project from its read to its commit. -/
def ProjectCall.takesLock : ProjectCall → Bool
  | .updateAgentSummary .. => true
  | _ => false

/-- The time stamp of a write. -/
def ProjectCall.stamp (now : Time) : ProjectCall → Time
  | .updateAgentSummary _ _ calledAt => calledAt
  | _ => now

/-- The UPDATE of a loaded board: column by column. -/
def ProjectBoard.written (loaded changed current : ProjectBoard) : ProjectBoard where
  tasks := writtenField loaded.tasks changed.tasks current.tasks
  agentSummaries :=
    writtenField loaded.agentSummaries changed.agentSummaries current.agentSummaries
  progress := writtenField loaded.progress changed.progress current.progress
  status := writtenField loaded.status changed.status current.status

/-- What a call has done so far. -/
inductive CallProgress
  | waiting
  | read (loaded : ProjectRow)
  | returned
  deriving DecidableEq, Repr

/-- The row, the holder of the lock, and the calls.  `finished` lists the
calls that are through, in the order of their commits. -/
structure BoardState where
  row : ProjectRow
  lock : Option Nat := none
  calls : List (ProjectCall × CallProgress) := []
  finished : List Nat := []

/-- A call is made, reads the row, or writes it. -/
inductive BoardStep
  | call (call : ProjectCall)
  | read (i : Nat)
  | write (i : Nat) (now : Time)

/-- Call `i` is at a new place. -/
def BoardState.advance (s : BoardState) (i : Nat) (call : ProjectCall) (progress : CallProgress) :
    BoardState :=
  { s with calls := s.calls.set i (call, progress) }

/-- Call `i` is through. -/
def BoardState.finish (s : BoardState) (i : Nat) (call : ProjectCall) : BoardState :=
  { s.advance i call .returned with finished := s.finished ++ [i] }

/-- Any number of calls on one project, a statement at a time. -/
def boardMachine : Machine BoardState BoardStep where
  Start s := s.lock = none ∧ s.calls = [] ∧ s.finished = []
  step s
    | .call call => some { s with calls := s.calls ++ [(call, .waiting)] }
    | .read i =>
        match s.calls[i]? with
        | some (call, .waiting) =>
            if call.refused s.row.board then some (s.finish i call)
            else if call.takesLock then
              if s.lock = none then
                some { s.advance i call (.read s.row) with lock := some i }
              else none
            else some (s.advance i call (.read s.row))
        | _ => none
    | .write i now =>
        match s.calls[i]? with
        | some (call, .read loaded) =>
            some { s.finish i call with
              row := {
                board := loaded.board.written (call.apply mean loaded.board) s.row.board
                updatedAt := writtenField loaded.updatedAt (call.stamp now) s.row.updatedAt }
              lock := if call.takesLock then none else s.lock }
        | _ => none

/-! ### What is promised -/

/-- The calls in an order, one after the other. -/
def serialBoard (calls : List (ProjectCall × CallProgress)) (order : List Nat)
    (board : ProjectBoard) : ProjectBoard :=
  order.foldl (fun board i =>
    match calls[i]? with
    | some (call, _) => call.apply mean board
    | none => board) board

/-- The calls that are through. -/
def returnedCalls (s : BoardState) : List Nat :=
  (List.range s.calls.length).filter fun i =>
    s.calls[i]?.any fun entry => decide (entry.2 = .returned)

/-- **Serializable**: the board is what some order of the calls that are
through makes of the board at the start. -/
def Serializable (board : ProjectBoard) (s : BoardState) : Prop :=
  ∃ order : List Nat, order.Perm (returnedCalls s) ∧
    s.row.board = serialBoard mean s.calls order board

/-- A canceled project stays canceled. -/
def StaysCanceled (s t : BoardState) : Prop :=
  s.row.board.status = .canceled → t.row.board.status = .canceled

/-- A write does to the board what its call alone would do there and then. -/
def ActsAlone (s : BoardState) (a : BoardStep) (t : BoardState) : Prop :=
  match a with
  | .write i _ => ∀ call loaded, s.calls[i]? = some (call, .read loaded) →
      t.row.board = call.apply mean s.row.board
  | _ => True

/-- A column that the call leaves as it read it is one it would leave as it is
now; a value it sets is the value it would set now. -/
def TimelyColumn {β : Type} (column : ProjectBoard → β) (call : ProjectCall)
    (loaded current : ProjectBoard) : Prop :=
  (column (call.apply mean loaded) = column loaded →
      column (call.apply mean current) = column current) ∧
    (column (call.apply mean loaded) ≠ column loaded →
      column (call.apply mean current) = column (call.apply mean loaded))

/-- A write is timely: in tasks, progress and status. -/
def Timely (s : BoardState) : BoardStep → Prop
  | .write i _ => ∀ call loaded, s.calls[i]? = some (call, .read loaded) →
      TimelyColumn mean ProjectBoard.tasks call loaded.board s.row.board ∧
        TimelyColumn mean ProjectBoard.progress call loaded.board s.row.board ∧
          TimelyColumn mean ProjectBoard.status call loaded.board s.row.board
  | _ => True

end Board

section Runs

variable {mean : List Rat → Rat} {s t : BoardState}

/-! ### What the steps do -/

theorem read_step {i : Nat} (h : (boardMachine mean).step s (.read i) = some t) :
    ∃ call, s.calls[i]? = some (call, .waiting) ∧
      ((call.refused s.row.board = true ∧ t = s.finish i call) ∨
        (call.takesLock = true ∧ s.lock = none ∧
          t = { s.advance i call (.read s.row) with lock := some i }) ∨
        (call.takesLock = false ∧ t = s.advance i call (.read s.row))) := by
  simp only [boardMachine] at h
  split at h
  · rename_i call hcall
    refine ⟨call, hcall, ?_⟩
    split at h
    · rename_i hrefused
      exact .inl ⟨hrefused, (Option.some.inj h).symm⟩
    · split at h
      · rename_i hlocks
        split at h
        · rename_i hfree
          exact .inr (.inl ⟨hlocks, hfree, (Option.some.inj h).symm⟩)
        · cases h
      · rename_i hlocks
        exact .inr (.inr ⟨by simpa using hlocks, (Option.some.inj h).symm⟩)
  · cases h

theorem write_step {i : Nat} {now : Time} (h : (boardMachine mean).step s (.write i now) = some t) :
    ∃ call loaded, s.calls[i]? = some (call, .read loaded) ∧
      t.calls = s.calls.set i (call, .returned) ∧ t.finished = s.finished ++ [i] ∧
      t.lock = (if call.takesLock then none else s.lock) ∧
      t.row.board = loaded.board.written (call.apply mean loaded.board) s.row.board := by
  simp only [boardMachine] at h
  split at h
  · rename_i call loaded hcall
    obtain rfl := Option.some.inj h
    exact ⟨call, loaded, hcall, rfl, rfl, rfl, rfl⟩
  · cases h

/-! ### Summaries and the lock -/

@[simp] theorem sync_agentSummaries (summary : AgentSummaryContent) (board : ProjectBoard) :
    (syncSummaryProgressToTask mean summary board).agentSummaries = board.agentSummaries := by
  unfold syncSummaryProgressToTask recalculateProjectProgress
  split
  · rfl
  · split <;> rfl

/-- The calls that take no lock leave the summaries. -/
theorem apply_agentSummaries {call : ProjectCall} (h : call.takesLock = false)
    (board : ProjectBoard) : (call.apply mean board).agentSummaries = board.agentSummaries := by
  cases call with
  | updateTasks agentCode tasks =>
      unfold ProjectCall.apply recalculateProjectProgress
      simp only
      split <;> rfl
  | updateAgentSummary agentCode summary calledAt => cases h
  | cancel =>
      unfold ProjectCall.apply
      simp only
      split <;> rfl

/-- What a call makes of the summaries depends on the summaries alone. -/
theorem apply_agentSummaries_congr (call : ProjectCall) {board board' : ProjectBoard}
    (h : board.agentSummaries = board'.agentSummaries) :
    (call.apply mean board).agentSummaries = (call.apply mean board').agentSummaries := by
  cases hlocks : call.takesLock with
  | false => rw [apply_agentSummaries hlocks, apply_agentSummaries hlocks, h]
  | true =>
      cases call with
      | updateAgentSummary agentCode summary calledAt =>
          unfold ProjectCall.apply
          simp only
          split
          · exact h
          · simp [h]
      | _ => cases hlocks

/-- **The lock.**  A call that holds it has read the summaries that stand in
the row. -/
def LockKept (s : BoardState) : Prop :=
  ∀ (i : Nat) (call : ProjectCall) (loaded : ProjectRow),
    s.calls[i]? = some (call, .read loaded) → call.takesLock = true →
      s.lock = some i ∧ loaded.board.agentSummaries = s.row.board.agentSummaries

/-- A write leaves the summaries as its call alone would. -/
theorem LockKept.written_agentSummaries (hlock : LockKept s) {i : Nat} {call : ProjectCall}
    {loaded : ProjectRow} (hcall : s.calls[i]? = some (call, .read loaded)) :
    (loaded.board.written (call.apply mean loaded.board) s.row.board).agentSummaries =
      (call.apply mean s.row.board).agentSummaries := by
  unfold ProjectBoard.written
  simp only
  cases hlocks : call.takesLock with
  | false =>
      rw [apply_agentSummaries hlocks, apply_agentSummaries hlocks]
      exact writtenField_eq_current.mpr (.inl rfl)
  | true =>
      obtain ⟨-, hsame⟩ := hlock i call loaded hcall hlocks
      rw [hsame, writtenField_unchanged]
      exact apply_agentSummaries_congr call hsame

theorem LockKept.step {a : BoardStep} (hlock : LockKept s)
    (h : (boardMachine mean).step s a = some t) : LockKept t := by
  intro j call loaded hj hlocks
  cases a with
  | call new =>
      obtain rfl := Option.some.inj h
      rcases getElem?_concat_cases hj with hold | hnew
      · exact hlock j call loaded hold hlocks
      · cases (Prod.mk.inj hnew).2
  | read i =>
      obtain ⟨call', hcall', hcases⟩ := read_step h
      -- nobody reads past a held lock
      have hother : ∀ {progress : CallProgress},
          (s.calls.set i (call', progress))[j]? = some (call, .read loaded) →
          (j = i ∧ call = call' ∧ .read loaded = progress) ∨
            (s.lock = some j ∧ loaded.board.agentSummaries = s.row.board.agentSummaries) := by
        intro progress hget
        rcases getElem?_set_cases hget with ⟨hji, heq⟩ | ⟨-, hold⟩
        · exact .inl ⟨hji, (Prod.mk.inj heq).1, (Prod.mk.inj heq).2⟩
        · exact .inr (hlock j call loaded hold hlocks)
      rcases hcases with ⟨-, rfl⟩ | ⟨-, hfree, rfl⟩ | ⟨hnolock, rfl⟩
      · rcases hother hj with ⟨-, -, heq⟩ | hheld
        · cases heq
        · exact hheld
      · rcases hother hj with ⟨rfl, -, heq⟩ | ⟨hheld, -⟩
        · cases heq
          exact ⟨rfl, rfl⟩
        · rw [hfree] at hheld
          cases hheld
      · rcases hother hj with ⟨-, rfl, -⟩ | hheld
        · rw [hnolock] at hlocks
          cases hlocks
        · exact hheld
  | write i now =>
      obtain ⟨call', loaded', hcall', hcalls, -, hheld, hboard⟩ := write_step h
      rw [hcalls] at hj
      rcases getElem?_set_cases hj with ⟨-, heq⟩ | ⟨hne, hold⟩
      · cases (Prod.mk.inj heq).2
      · obtain ⟨hmine, hsame⟩ := hlock j call loaded hold hlocks
        -- the writer holds no lock, so it leaves the summaries
        have hnolock : call'.takesLock = false := by
          cases hlocks' : call'.takesLock with
          | false => rfl
          | true =>
              obtain ⟨htheirs, -⟩ := hlock i call' loaded' hcall' hlocks'
              rw [hmine] at htheirs
              exact absurd (Option.some.inj htheirs) hne
        rw [hheld, hnolock, hboard, hlock.written_agentSummaries hcall',
          apply_agentSummaries hnolock]
        exact ⟨hmine, hsame⟩

/-! ### Timely writes -/

theorem timelyColumn_iff {β : Type} [DecidableEq β] {column : ProjectBoard → β}
    {call : ProjectCall} {loaded current : ProjectBoard} :
    writtenField (column loaded) (column (call.apply mean loaded)) (column current) =
      column (call.apply mean current) ↔ TimelyColumn mean column call loaded current := by
  unfold writtenField TimelyColumn
  by_cases hsame : column (call.apply mean loaded) = column loaded
  · rw [if_pos hsame]
    exact ⟨fun h => ⟨fun _ => h.symm, fun hne => absurd hsame hne⟩, fun h => (h.1 hsame).symm⟩
  · rw [if_neg hsame]
    exact ⟨fun h => ⟨fun heq => absurd heq hsame, fun _ => h.symm⟩, fun h => (h.2 hsame).symm⟩

/-- **A write acts as its call alone exactly when it is timely.** -/
theorem actsAlone_iff_timely {a : BoardStep} (hlock : LockKept s)
    (h : (boardMachine mean).step s a = some t) : ActsAlone mean s a t ↔ Timely mean s a := by
  cases a with
  | call new => exact ⟨fun _ => trivial, fun _ => trivial⟩
  | read i => exact ⟨fun _ => trivial, fun _ => trivial⟩
  | write i now =>
      obtain ⟨call, loaded, hcall, -, -, -, hboard⟩ := write_step h
      have hsummaries : (loaded.board.written (call.apply mean loaded.board)
          s.row.board).agentSummaries = (call.apply mean s.row.board).agentSummaries :=
        hlock.written_agentSummaries hcall
      constructor
      · intro halone call' loaded' hcall'
        obtain ⟨rfl, heq⟩ := Prod.mk.inj (Option.some.inj (hcall.symm.trans hcall'))
        cases heq
        have hsame := halone call loaded hcall
        rw [hboard] at hsame
        exact ⟨timelyColumn_iff.mp (congrArg ProjectBoard.tasks hsame),
          timelyColumn_iff.mp (congrArg ProjectBoard.progress hsame),
          timelyColumn_iff.mp (congrArg ProjectBoard.status hsame)⟩
      · intro htimely call' loaded' hcall'
        obtain ⟨rfl, heq⟩ := Prod.mk.inj (Option.some.inj (hcall.symm.trans hcall'))
        cases heq
        obtain ⟨htasks, hprogress, hstatus⟩ := htimely call loaded hcall
        rw [hboard]
        have htasks := timelyColumn_iff.mpr htasks
        have hprogress := timelyColumn_iff.mpr hprogress
        have hstatus := timelyColumn_iff.mpr hstatus
        exact ProjectBoard.ext htasks hsummaries hprogress hstatus

/-- A call leaves a canceled project canceled. -/
theorem apply_canceled (call : ProjectCall) {board : ProjectBoard}
    (h : board.status = .canceled) : (call.apply mean board).status = .canceled := by
  unfold ProjectCall.apply
  cases call with
  | updateTasks agentCode tasks =>
      simp only
      split
      · simp [recalculateProjectProgress, deriveWorkProjectStatus, h]
      · exact h
  | updateAgentSummary agentCode summary calledAt =>
      simp only
      split
      · exact h
      · unfold syncSummaryProgressToTask
        split
        · exact h
        · split
          · simp [recalculateProjectProgress, deriveWorkProjectStatus, h]
          · exact h
  | cancel =>
      simp only
      rw [if_pos h]
      exact h

/-- A refused call makes nothing of the board. -/
theorem apply_refused {call : ProjectCall} {board : ProjectBoard}
    (h : call.refused board = true) : call.apply mean board = board := by
  cases call with
  | updateTasks agentCode tasks =>
      have hother : agentCode ≠ defaultAgentCode := by simpa [ProjectCall.refused] using h
      unfold ProjectCall.apply
      exact if_neg hother
  | updateAgentSummary agentCode summary calledAt =>
      have hempty : strip agentCode = "" := by simpa [ProjectCall.refused] using h
      unfold ProjectCall.apply
      exact if_pos hempty
  | cancel =>
      have hcanceled : board.status = .canceled := by simpa [ProjectCall.refused] using h
      unfold ProjectCall.apply
      exact if_pos hcanceled

/-! ### The order of the commits -/

/-- The serial effect reads of a call only what it was asked. -/
theorem serialBoard_congr {calls calls' : List (ProjectCall × CallProgress)} {order : List Nat}
    (h : ∀ i ∈ order, calls[i]?.map Prod.fst = calls'[i]?.map Prod.fst) (board : ProjectBoard) :
    serialBoard mean calls order board = serialBoard mean calls' order board := by
  induction order generalizing board with
  | nil => rfl
  | cons i rest ih =>
      have hhead := h i List.mem_cons_self
      have hrest := fun j hj => h j (List.mem_cons_of_mem _ hj)
      have hsame : (match calls[i]? with
          | some (call, _) => call.apply mean board
          | none => board) =
        (match calls'[i]? with
          | some (call, _) => call.apply mean board
          | none => board) := by
        cases hi : calls[i]? with
        | none =>
            rw [hi] at hhead
            rw [Option.map_eq_none_iff.mp hhead.symm]
        | some entry =>
            rw [hi] at hhead
            obtain ⟨entry', hi', hcall⟩ := Option.map_eq_some_iff.mp hhead.symm
            rw [hi']
            simp only
            rw [hcall]
      unfold serialBoard
      rw [List.foldl_cons, List.foldl_cons, hsame]
      exact ih hrest _

theorem serialBoard_append (calls : List (ProjectCall × CallProgress)) (order : List Nat) {i : Nat}
    {call : ProjectCall} {progress : CallProgress} (h : calls[i]? = some (call, progress))
    (board : ProjectBoard) :
    serialBoard mean calls (order ++ [i]) board =
      call.apply mean (serialBoard mean calls order board) := by
  unfold serialBoard
  rw [List.foldl_append, List.foldl_cons, List.foldl_nil, h]

/-- **The invariant**: the board is that of the calls in the order of their
commits, and these are the calls that are through. -/
structure CommitOrder (mean : List Rat → Rat) (board : ProjectBoard) (s : BoardState) : Prop where
  serial : s.row.board = serialBoard mean s.calls s.finished board
  nodup : s.finished.Nodup
  returned : ∀ i, i ∈ s.finished ↔ ∃ call, s.calls[i]? = some (call, .returned)

/-- A call moves on without being through. -/
theorem CommitOrder.advance {board : ProjectBoard} (hi : CommitOrder mean board s) {i : Nat}
    {call : ProjectCall} {progress progress' : CallProgress}
    (hcall : s.calls[i]? = some (call, progress)) (hbefore : progress ≠ .returned)
    (hafter : progress' ≠ .returned) : CommitOrder mean board (s.advance i call progress') where
  serial := by
    refine hi.serial.trans (serialBoard_congr (fun j _ => ?_) board)
    by_cases hji : i = j
    · subst hji
      obtain ⟨hlt, -⟩ := List.getElem?_eq_some_iff.mp hcall
      simp [BoardState.advance, hcall, List.getElem?_set_self hlt]
    · simp [BoardState.advance, List.getElem?_set_ne hji]
  nodup := hi.nodup
  returned j := by
    refine (hi.returned j).trans ⟨?_, ?_⟩
    · rintro ⟨other, hother⟩
      refine ⟨other, ?_⟩
      rw [← hother]
      refine List.getElem?_set_ne ?_
      rintro rfl
      rw [hcall] at hother
      exact hbefore (Prod.mk.inj (Option.some.inj hother)).2
    · rintro ⟨other, hother⟩
      rcases getElem?_set_cases hother with ⟨-, heq⟩ | ⟨-, hold⟩
      · exact absurd (Prod.mk.inj heq).2.symm hafter
      · exact ⟨other, hold⟩

/-- A call is through, with the effect it has alone. -/
theorem CommitOrder.finish {board : ProjectBoard} (hi : CommitOrder mean board s) {i : Nat}
    {call : ProjectCall} {progress : CallProgress} (hcall : s.calls[i]? = some (call, progress))
    (hbefore : progress ≠ .returned) (hcalls : t.calls = s.calls.set i (call, .returned))
    (hfinished : t.finished = s.finished ++ [i])
    (hboard : t.row.board = call.apply mean s.row.board) : CommitOrder mean board t := by
  obtain ⟨hlt, -⟩ := List.getElem?_eq_some_iff.mp hcall
  have hself : t.calls[i]? = some (call, .returned) := by
    rw [hcalls]
    exact List.getElem?_set_self hlt
  have hnew : i ∉ s.finished := by
    intro hmem
    obtain ⟨other, hother⟩ := (hi.returned i).mp hmem
    rw [hcall] at hother
    exact hbefore (Prod.mk.inj (Option.some.inj hother)).2
  refine ⟨?_, ?_, fun j => ?_⟩
  · rw [hboard, hfinished, serialBoard_append _ _ hself, hi.serial]
    refine congrArg (fun b => call.apply mean b) (serialBoard_congr (fun j hj => ?_) board)
    have hji : i ≠ j := fun heq => hnew (heq ▸ hj)
    rw [hcalls, List.getElem?_set_ne hji]
  · rw [hfinished, List.nodup_append]
    refine ⟨hi.nodup, by simp, ?_⟩
    intro j hj j' hj' heq
    rw [List.mem_singleton] at hj'
    exact hnew (hj' ▸ heq ▸ hj)
  · rw [hfinished, List.mem_append, List.mem_singleton, hi.returned]
    constructor
    · rintro (⟨other, hother⟩ | rfl)
      · by_cases hji : i = j
        · exact ⟨call, hji ▸ hself⟩
        · exact ⟨other, by rw [hcalls, List.getElem?_set_ne hji, hother]⟩
      · exact ⟨call, hself⟩
    · rintro ⟨other, hother⟩
      rw [hcalls] at hother
      rcases getElem?_set_cases hother with ⟨hji, -⟩ | ⟨-, hold⟩
      · exact .inr hji
      · exact .inl ⟨other, hold⟩

theorem CommitOrder.step {board : ProjectBoard} {a : BoardStep} (hi : CommitOrder mean board s)
    (halone : ActsAlone mean s a t) (h : (boardMachine mean).step s a = some t) :
    CommitOrder mean board t := by
  cases a with
  | call new =>
      obtain rfl := Option.some.inj h
      have hget : ∀ {i : Nat} {entry : ProjectCall × CallProgress}, s.calls[i]? = some entry →
          (s.calls ++ [(new, .waiting)])[i]? = some entry := by
        intro i entry hentry
        rw [List.getElem?_append_left (List.getElem?_eq_some_iff.mp hentry).1]
        exact hentry
      refine ⟨hi.serial.trans (serialBoard_congr (fun i hmem => ?_) board), hi.nodup, fun i => ?_⟩
      · obtain ⟨call, hcall⟩ := (hi.returned i).mp hmem
        rw [hcall, hget hcall]
      · refine (hi.returned i).trans ⟨fun ⟨call, hcall⟩ => ⟨call, hget hcall⟩, ?_⟩
        rintro ⟨call, hcall⟩
        rcases getElem?_concat_cases hcall with hold | hnew
        · exact ⟨call, hold⟩
        · cases (Prod.mk.inj hnew).2
  | read i =>
      obtain ⟨call, hcall, hcases⟩ := read_step h
      have hwaiting : CallProgress.waiting ≠ .returned := fun h => by cases h
      rcases hcases with ⟨hrefused, rfl⟩ | ⟨-, -, rfl⟩ | ⟨-, rfl⟩
      · exact hi.finish hcall hwaiting rfl rfl (apply_refused hrefused).symm
      · have hnext : CommitOrder mean board (s.advance i call (.read s.row)) :=
          hi.advance hcall hwaiting (fun h => by cases h)
        exact ⟨hnext.serial, hnext.nodup, hnext.returned⟩
      · exact hi.advance hcall hwaiting (fun h => by cases h)
  | write i now =>
      obtain ⟨call, loaded, hcall, hcalls, hfinished, -, -⟩ := write_step h
      exact hi.finish hcall (fun h => by cases h) hcalls hfinished (halone call loaded hcall)

/-- The order of the commits is one of the calls that are through. -/
theorem CommitOrder.serializable {board : ProjectBoard} (hi : CommitOrder mean board s) :
    Serializable mean board s := by
  refine ⟨s.finished, ?_, hi.serial⟩
  unfold returnedCalls
  rw [List.perm_ext_iff_of_nodup hi.nodup (List.nodup_range.sublist List.filter_sublist)]
  intro i
  rw [hi.returned, List.mem_filter, List.mem_range]
  constructor
  · rintro ⟨call, hcall⟩
    exact ⟨(List.getElem?_eq_some_iff.mp hcall).1, by rw [hcall]; rfl⟩
  · rintro ⟨-, hreturned⟩
    obtain ⟨⟨call, progress⟩, hget, hprogress⟩ := Option.any_eq_true _ _ |>.mp hreturned
    obtain rfl : progress = .returned := by simpa using hprogress
    exact ⟨call, hget⟩

/-- A write that acts as its call alone leaves a canceled project canceled. -/
theorem staysCanceled_of_actsAlone {a : BoardStep} (halone : ActsAlone mean s a t)
    (h : (boardMachine mean).step s a = some t) : StaysCanceled s t := by
  intro hcanceled
  cases a with
  | call new =>
      obtain rfl := Option.some.inj h
      exact hcanceled
  | read i =>
      obtain ⟨call, -, hcases⟩ := read_step h
      rcases hcases with ⟨-, rfl⟩ | ⟨-, -, rfl⟩ | ⟨-, rfl⟩
      · exact hcanceled
      · exact hcanceled
      · exact hcanceled
  | write i now =>
      obtain ⟨call, loaded, hcall, -⟩ := write_step h
      rw [halone call loaded hcall]
      exact apply_canceled call hcanceled

/-- **Calls on one board.**  In every run, the writes act as their calls alone
exactly when all of them are timely; and then, in every state reached, the
board is that of a serial order of the calls that are through, and no step
takes a cancellation back. -/
theorem project_updates_serializable (mean : List Rat → Rat) (row : ProjectRow)
    (acts : List BoardStep) :
    (StepsMeet (boardMachine mean) (ActsAlone mean) { row := row } acts ↔
      StepsMeet (boardMachine mean) (fun s a _ => Timely mean s a) { row := row } acts) ∧
    (StepsMeet (boardMachine mean) (fun s a _ => Timely mean s a) { row := row } acts →
      StepsMeet (boardMachine mean)
        (fun s _ t => Serializable mean row.board t ∧ StaysCanceled s t) { row := row } acts) := by
  have hlock : LockKept { row := row } := fun i call loaded hget => by cases hget
  have horder : CommitOrder mean row.board { row := row } := by
    refine ⟨rfl, List.nodup_nil, fun i => ⟨fun hmem => (by cases hmem), ?_⟩⟩
    rintro ⟨call, hget⟩
    cases hget
  refine ⟨stepsMeet_congr (I := LockKept) (fun _ _ _ hi hstep => hi.step hstep)
    (fun _ _ _ hi hstep => actsAlone_iff_timely hi hstep) hlock, ?_⟩
  refine stepsMeet_of_invariant (I := fun s => LockKept s ∧ CommitOrder mean row.board s)
    ?_ ?_ ⟨hlock, horder⟩
  · intro s a t hi htimely hstep
    exact ⟨hi.1.step hstep, hi.2.step ((actsAlone_iff_timely hi.1 hstep).mpr htimely) hstep⟩
  · intro s a t hi htimely hstep
    have halone := (actsAlone_iff_timely hi.1 hstep).mpr htimely
    exact ⟨(hi.2.step halone hstep).serializable, staysCanceled_of_actsAlone halone hstep⟩

end Runs

/-! ### Calls that are not timely -/

/-- The mean without rounding. -/
def exactMean (values : List Rat) : Rat := values.foldl (· + ·) 0 / values.length

/-- A project with one open task. -/
def oneTask : ProjectRow where
  board := { tasks := [{ id := "1", title := "scan" }] }
  updatedAt := 0

/-- An agent reports on the task while the list gets a second one. -/
def reportDuringReplan : List BoardStep :=
  [.call (.updateAgentSummary "recon" { taskId := "1", progress := 50 } 1),
    .call (.updateTasks "cso" [{ id := "1", title := "scan" }, { id := "2", title := "report" }]),
    .read 0, .read 1, .write 1 2, .write 0 3]

/-- The task is done while the project is canceled; up to the last write. -/
def doneDuringCancel : List BoardStep :=
  [.call (.updateTasks "cso" [{ id := "1", title := "scan", status := .done, progress := 100 }]),
    .call .cancel, .read 0, .read 1, .write 1 2]

/-- The state a run on the one task reaches. -/
def boardReached (acts : List BoardStep) : BoardState :=
  (exec (boardMachine exactMean) { row := oneTask } acts).getD { row := oneTask }

/-- **Lost updates.**  The report brings back the task list it has read, which
no order of the two calls does; and the update of the tasks takes the
cancellation back. -/
theorem summary_brings_tasks_back :
    (exec (boardMachine exactMean) { row := oneTask } reportDuringReplan =
        some (boardReached reportDuringReplan) ∧
      ¬ Serializable exactMean oneTask.board (boardReached reportDuringReplan)) ∧
    (exec (boardMachine exactMean) { row := oneTask } doneDuringCancel =
        some (boardReached doneDuringCancel) ∧
      (boardMachine exactMean).step (boardReached doneDuringCancel) (.write 0 3) =
        some (boardReached (doneDuringCancel ++ [.write 0 3])) ∧
      ¬ StaysCanceled (boardReached doneDuringCancel)
        (boardReached (doneDuringCancel ++ [.write 0 3]))) := by
  have hreached : ∀ acts, (exec (boardMachine exactMean) { row := oneTask } acts).isSome = true →
      exec (boardMachine exactMean) { row := oneTask } acts = some (boardReached acts) := by
    intro acts hsome
    obtain ⟨t, ht⟩ := Option.isSome_iff_exists.mp hsome
    unfold boardReached
    rw [ht, Option.getD_some]
  have hcancel := hreached doneDuringCancel (by decide +kernel)
  have hdone := hreached (doneDuringCancel ++ [.write 0 3]) (by decide +kernel)
  refine ⟨⟨hreached _ (by decide +kernel), ?_⟩, hcancel, ?_, ?_⟩
  · rintro ⟨order, hperm, hboard⟩
    have hreturned : returnedCalls (boardReached reportDuringReplan) = [0, 1] := by decide +kernel
    rw [hreturned] at hperm
    have hlength := hperm.length_eq
    obtain ⟨a, b, rfl⟩ : ∃ a b, order = [a, b] := by
      rcases order with _ | ⟨a, _ | ⟨b, _ | ⟨c, rest⟩⟩⟩
      · cases hlength
      · cases hlength
      · exact ⟨a, b, rfl⟩
      · simp at hlength
    have ha := hperm.mem_iff.mp (List.mem_cons_self : a ∈ [a, b])
    have hb := hperm.mem_iff.mp (List.mem_cons_of_mem a List.mem_cons_self : b ∈ [a, b])
    have hne : a ≠ b := by simpa using hperm.nodup_iff.mpr (by decide)
    have hcases : (a = 0 ∧ b = 1) ∨ (a = 1 ∧ b = 0) := by
      simp only [List.mem_cons, List.not_mem_nil, or_false] at ha hb
      omega
    rcases hcases with ⟨rfl, rfl⟩ | ⟨rfl, rfl⟩
    · exact absurd hboard (by decide +kernel)
    · exact absurd hboard (by decide +kernel)
  · rw [exec_append _ hcancel] at hdone
    obtain ⟨next, hstep, hnext⟩ := exec_cons_some hdone
    rw [hstep, Option.some.inj hnext]
  · intro hstays
    exact absurd (hstays (by decide +kernel)) (by decide +kernel)

end Workbench.WorkProject
