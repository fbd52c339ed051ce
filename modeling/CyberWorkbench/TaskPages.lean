import CyberWorkbench.AgentRecords

/-!
# Reading a subagent's result in pages

`read_subagent_task` of `core/delegation/subagents`: the stored result and the
stored error of a task come in chunks, and one `next_offset` serves both.

The source relies on at most one of the two texts being there.  That is not
needed: a chunk that is not the last one of its text ends where the other
text's next chunk begins as well, so the pages are those of the longer text and
the shorter one just stops (`taskToolItem_eq`).  Reading on until `next_offset`
is omitted ends, and puts both texts together again
(`readSubagentTask_complete`).
-/

namespace Workbench.TaskPages

open KeyedTable PythonValues

/-- `SUBAGENT_TASK_RESULT_CHUNK_CHARS` -/
def subagentTaskResultChunkChars : Nat := 3000

inductive SystemUserRole where
  | admin
  | user
  deriving DecidableEq, Repr

/-- What a tool call knows of its session and its user. -/
structure ToolContext where
  sessionId : String
  userId : Nat
  userRole : SystemUserRole

/-- `AgentSubordinateTaskToolItem` -/
structure ToolItem where
  runId : String
  agentCode : String
  agentName : String
  status : WorkStatus
  result : String
  error : String
  resultChars : Nat
  errorChars : Nat
  nextOffset : Option Nat
  progress : String

/-- `AgentSubordinateTaskToolResult`, for one task. -/
structure ToolResult where
  task : Option ToolItem
  message : String

/-! ### The functions -/

/-- `value[start:stop]` -/
def slice (value : String) (start stop : Nat) : String :=
  String.ofList ((value.toList.drop start).take (stop - start))

/-- `_slice_chunk` -/
def sliceChunk (value : String) (offset : Int) : String × Option Nat :=
  let start := (max offset 0).toNat
  if value.length ≤ start then ("", none)
  else
    let stop := min (start + subagentTaskResultChunkChars) value.length
    (slice value start stop, if stop < value.length then some stop else none)

/-- `_task_tool_item` of a task that is there, with its body. -/
def taskToolItem (snapshot : AgentSubordinateTask) (offset : Int) : ToolItem :=
  let result := sliceChunk snapshot.result offset
  let error := sliceChunk snapshot.error offset
  { runId := snapshot.runId
    agentCode := snapshot.agentCode
    agentName := snapshot.agentName
    status := snapshot.status
    result := result.1
    error := error.1
    resultChars := snapshot.result.length
    errorChars := snapshot.error.length
    nextOffset := if result.2.isSome then result.2 else error.2
    progress := snapshot.progress }

/-- `_can_access_task` -/
def canAccessTask (task : AgentSubordinateTask) (ctx : ToolContext) : Bool :=
  if task.sessionId ≠ ctx.sessionId then false
  else decide (ctx.userRole = .admin) || decide (task.ownerId = ctx.userId)

/-- `get_subagent_task`, as `_resolve_task` calls it. -/
def resolveTask (db : Database) (ctx : ToolContext) (runId : String) : Option AgentSubordinateTask :=
  (db.tasks.get? (strip runId)).filter fun task => canAccessTask task ctx

/-- `read_subagent_task` -/
def readSubagentTask (db : Database) (ctx : ToolContext) (runId : String) (offset : Int) : ToolResult :=
  match resolveTask db ctx runId with
  | none => ⟨none, "subagent task not found"⟩
  | some task => ⟨some (taskToolItem task offset), ""⟩

/-- Calling from an offset on with each `next_offset` that is returned, until
it is omitted: the pages that this gives. -/
inductive ReadOn (read : Int → ToolResult) : Int → List ToolItem → Prop where
  | last {offset : Int} {item : ToolItem} (hitem : (read offset).task = some item)
      (hend : item.nextOffset = none) : ReadOn read offset [item]
  | next {offset : Int} {item : ToolItem} {after : Nat} {items : List ToolItem}
      (hitem : (read offset).task = some item) (hnext : item.nextOffset = some after)
      (hrest : ReadOn read after items) : ReadOn read offset (item :: items)

/-- Texts one after the other. -/
def joined (texts : List String) : String := String.ofList (texts.flatMap String.toList)

/-! ### A page -/

theorem max_natCast (start : Nat) : (max (start : Int) 0).toNat = start := by omega

theorem sliceChunk_fst (value : String) (start : Nat) :
    (sliceChunk value start).1.toList =
      (value.toList.drop start).take subagentTaskResultChunkChars := by
  unfold sliceChunk
  simp only [max_natCast]
  split
  · rename_i hend
    rw [List.drop_of_length_le (String.length_toList.symm ▸ hend)]
    rfl
  · unfold slice
    rw [String.toList_ofList, Nat.min_def]
    split
    · rw [Nat.add_sub_cancel_left]
    · rename_i hstop
      have hlength : (value.toList.drop start).length = value.length - start := by
        rw [List.length_drop, String.length_toList]
      rw [List.take_of_length_le (Nat.le_of_eq hlength), List.take_of_length_le (by omega)]

theorem sliceChunk_snd (value : String) (start : Nat) :
    (sliceChunk value start).2 =
      if start + subagentTaskResultChunkChars < value.length then
        some (start + subagentTaskResultChunkChars) else none := by
  unfold sliceChunk
  simp only [max_natCast]
  split
  · rw [if_neg (by omega)]
  · by_cases hstop : start + subagentTaskResultChunkChars < value.length
    · rw [if_pos hstop, Nat.min_eq_left (Nat.le_of_lt hstop)]
      exact if_pos hstop
    · rw [if_neg hstop, Nat.min_eq_right (Nat.le_of_not_lt hstop)]
      exact if_neg (Nat.lt_irrefl _)

/-- **One offset serves both texts**: it goes on while there is more of either. -/
theorem taskToolItem_nextOffset (task : AgentSubordinateTask) (start : Nat) :
    (taskToolItem task start).nextOffset =
      if start + subagentTaskResultChunkChars < max task.result.length task.error.length then
        some (start + subagentTaskResultChunkChars) else none := by
  show (if (sliceChunk task.result start).2.isSome then (sliceChunk task.result start).2
    else (sliceChunk task.error start).2) = _
  rw [sliceChunk_snd, sliceChunk_snd]
  by_cases hresult : start + subagentTaskResultChunkChars < task.result.length
  · have hmax : start + subagentTaskResultChunkChars <
        max task.result.length task.error.length := by omega
    rw [if_pos hresult, if_pos hmax]
    rfl
  · rw [if_neg hresult]
    by_cases herror : start + subagentTaskResultChunkChars < task.error.length
    · have hmax : start + subagentTaskResultChunkChars <
          max task.result.length task.error.length := by omega
      rw [if_pos herror, if_pos hmax]
      rfl
    · have hmax : ¬ start + subagentTaskResultChunkChars <
          max task.result.length task.error.length := by omega
      rw [if_neg herror, if_neg hmax]
      rfl

/-! ### All pages -/

theorem take_append_drop_drop {α : Type} (l : List α) (start n : Nat) :
    (l.drop start).take n ++ l.drop (start + n) = l.drop start := by
  rw [← List.drop_drop, List.take_append_drop]

/-- Reading on from any offset gives what is left of both texts. -/
theorem readOn_from {read : Int → ToolResult} {task : AgentSubordinateTask}
    (hread : ∀ offset : Int, (read offset).task = some (taskToolItem task offset)) (start : Nat) :
    ∃ items, ReadOn read start items ∧
      items.flatMap (fun item => item.result.toList) = task.result.toList.drop start ∧
      items.flatMap (fun item => item.error.toList) = task.error.toList.drop start := by
  have hpositive : 0 < subagentTaskResultChunkChars := by decide
  -- what is left of the longer text gets less with every page
  induction hleft : max task.result.length task.error.length - start using Nat.strongRecOn
    generalizing start with
  | ind left ih =>
      have hresult : (taskToolItem task start).result.toList =
          (task.result.toList.drop start).take subagentTaskResultChunkChars :=
        sliceChunk_fst task.result start
      have herror : (taskToolItem task start).error.toList =
          (task.error.toList.drop start).take subagentTaskResultChunkChars :=
        sliceChunk_fst task.error start
      have hnext := taskToolItem_nextOffset task start
      by_cases hmore : start + subagentTaskResultChunkChars <
          max task.result.length task.error.length
      · rw [if_pos hmore] at hnext
        obtain ⟨items, hitems, hresults, herrors⟩ := ih _ (by omega)
          (start + subagentTaskResultChunkChars) rfl
        refine ⟨_, .next (hread start) hnext hitems, ?_, ?_⟩
        · rw [List.flatMap_cons, hresult, hresults, take_append_drop_drop]
        · rw [List.flatMap_cons, herror, herrors, take_append_drop_drop]
      · rw [if_neg hmore] at hnext
        refine ⟨_, .last (hread start) hnext, ?_, ?_⟩
        · rw [List.flatMap_singleton, hresult, List.take_of_length_le]
          rw [List.length_drop, String.length_toList]
          omega
        · rw [List.flatMap_singleton, herror, List.take_of_length_le]
          rw [List.length_drop, String.length_toList]
          omega

/-- **Paged reading ends, and is complete**: of a task that the caller can see,
whatever its status and its two texts. -/
theorem readSubagentTask_complete {db : Database} {ctx : ToolContext} {runId : String}
    {task : AgentSubordinateTask} (h : resolveTask db ctx runId = some task) :
    ∃ items, ReadOn (readSubagentTask db ctx runId) 0 items ∧
      joined (items.map (·.result)) = task.result ∧ joined (items.map (·.error)) = task.error := by
  have hread : ∀ offset : Int,
      (readSubagentTask db ctx runId offset).task = some (taskToolItem task offset) := by
    intro offset
    unfold readSubagentTask
    rw [h]
  obtain ⟨items, hitems, hresults, herrors⟩ := readOn_from hread 0
  refine ⟨items, hitems, ?_, ?_⟩
  · unfold joined
    rw [List.flatMap_map, hresults, List.drop_zero, String.ofList_toList]
  · unfold joined
    rw [List.flatMap_map, herrors, List.drop_zero, String.ofList_toList]

/-- A task that ended with a report. -/
def reported : AgentSubordinateTask where
  runId := "r"
  sessionId := "s"
  status := .completed
  result := "done"
  ownerId := 1
  createdAt := 0
  updatedAt := 1

/-- The tables with that task. -/
def reportedTables : Database :=
  { Database.empty with tasks := ⟨[reported], List.pairwise_singleton _ _⟩ }

/-- The result of the ended task is read whole. -/
theorem readSubagentTask_complete_reported :
    ∃ items, ReadOn (readSubagentTask reportedTables ⟨"s", 1, .user⟩ " r ") 0 items ∧
      joined (items.map (·.result)) = "done" ∧ joined (items.map (·.error)) = "" := by
  have hfound : resolveTask reportedTables ⟨"s", 1, .user⟩ " r " = some reported := by decide
  exact readSubagentTask_complete hfound

end Workbench.TaskPages
