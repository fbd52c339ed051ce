import Mathlib
import CyberWorkbench.ModelInput

/-!
# The projected context

`core/conversation/projection`: what an agent sees of the session's stored
items.  Its own items and the users' are shown one by one; what other agents
said is collected into blocks, one for each run of messages of one agent, and
their private items are left out.  A compaction hides the items up to its last
message id and puts its summary first.
-/

namespace Workbench

open PythonValues

/-- `StoredContextItem`. -/
structure StoredContextItem where
  messageId : Int
  ownerCode : String
  item : Dict
  nestedFor : String := ""
  nestedCallId : String := ""
  deriving DecidableEq

/-- `ProjectionCompaction`. -/
structure ProjectionCompaction where
  id : Int
  startMessageId : Int
  endMessageId : Int
  summaryItem : Dict
  deriving DecidableEq

/-- `ProjectedItem`. -/
structure ProjectedItem where
  item : Dict
  sourceMessageIds : List Int := []
  tokenEstimate : Int := 0
  atomicGroup : String := ""
  deriving DecidableEq

/-- Who looks, under which names, and inside which nested call. -/
structure ProjectionView where
  viewingAgentCode : String
  agentCodeToName : List (String × String) := []
  nestedFor : String := ""
  nestedCallId : String := ""

/-! ### Formats -/

/-- `CONTEXT_SUMMARY_ITEM_ID`. -/
def contextSummaryItemId : String := "context_summary"

/-- `TASK_RESUMPTION_CONTEXT_ITEM_ID`. -/
def taskResumptionContextItemId : String := "task_resumption_context"

/-- `is_internal_context_item`. -/
def isInternalContextItem (item : Dict) : Bool :=
  (Dict.get item "type").isText "message" && (Dict.get item "role").isText "user" &&
    ((Dict.get item "id").isText contextSummaryItemId ||
      (Dict.get item "id").isText taskResumptionContextItemId)

/-- `_OWNER_PRIVATE_TYPES`. -/
def ownerPrivateTypes : List String := ["reasoning", "function_call", "function_call_output"]

/-- `_build_foreign_block`. -/
def buildForeignBlock (sourceCode sourceName : String) (messageIds : List Int)
    (texts : List String) : Dict :=
  let firstId := (messageIds.head?.map toString).getD ""
  let lastId := (messageIds.getLast?.map toString).getD ""
  [("id", .str ("foreign_" ++ sourceCode ++ "_" ++ firstId ++ "_" ++ lastId)),
    ("type", .str "message"),
    ("role", .str "assistant"),
    ("content", .list [.dict
      [("type", .str "output_text"),
        ("text", .str ("[other agent: " ++ sourceName ++ "]\n" ++
          String.intercalate "\n\n" texts)),
        ("annotations", .list [])]]),
    ("status", .str "completed")]

/-! ### The projection -/

/-- The group names handed out, by owner and call id. -/
abbrev ToolGroups : Type := List ((String × String) × String)

/-- `_tool_group`, with the groups afterwards. -/
def toolGroup (stored : StoredContextItem) (groups : ToolGroups) : String × ToolGroups :=
  let itemType := Dict.get stored.item "type"
  if !(itemType.isText "function_call" || itemType.isText "function_call_output") then ("", groups)
  else
    let callId := toolCallId stored.item
    if callId = "" then ("", groups)
    else
      match groups.lookup (stored.ownerCode, callId) with
      | some group => (group, groups)
      | none =>
          let group := "tool:" ++ stored.ownerCode ++ ":" ++ callId
          (group, groups ++ [((stored.ownerCode, callId), group)])

/-- The block of another agent that is being collected. -/
structure PendingBlock where
  owner : String := ""
  texts : List String := []
  ids : List Int := []
  deriving DecidableEq, Repr

/-- `_project_visible` while it runs. -/
structure ProjectionState where
  projected : List ProjectedItem := []
  pending : PendingBlock := {}
  ownerToolGroups : ToolGroups := []

/-- `flush`. -/
def PendingBlock.flush (view : ProjectionView) (pending : PendingBlock) : List ProjectedItem :=
  if pending.texts = [] then []
  else
    [{ item := buildForeignBlock pending.owner
          ((view.agentCodeToName.lookup pending.owner).getD pending.owner)
          pending.ids pending.texts,
       sourceMessageIds := pending.ids }]

/-- `yield` of an item of one's own. -/
def ProjectionState.yieldItem (s : ProjectionState) (stored : StoredContextItem) :
    ProjectionState :=
  let (group, groups) := toolGroup stored s.ownerToolGroups
  { s with
    projected := s.projected ++ [{ item := stored.item, sourceMessageIds := [stored.messageId],
                                   atomicGroup := group }]
    ownerToolGroups := groups }

/-- The pending block is flushed and yielded. -/
def ProjectionState.yieldPending (view : ProjectionView) (s : ProjectionState) :
    ProjectionState :=
  if s.pending.texts = [] then s
  else { s with projected := s.projected ++ s.pending.flush view, pending := {} }

/-- A message of another agent joins the pending block or starts a new one. -/
def ProjectionState.collect (view : ProjectionView) (s : ProjectionState)
    (stored : StoredContextItem) (text : String) : ProjectionState :=
  let s := if s.pending.owner ≠ "" ∧ s.pending.owner ≠ stored.ownerCode then s.yieldPending view
    else s
  { s with pending :=
      { owner := stored.ownerCode
        texts := s.pending.texts ++ [text]
        ids := s.pending.ids ++ [stored.messageId] } }

/-- The loop body inside a nested call. -/
def ProjectionState.visitNested (view : ProjectionView) (s : ProjectionState)
    (stored : StoredContextItem) : ProjectionState :=
  if stored.ownerCode = view.viewingAgentCode ∧ stored.nestedFor = view.nestedFor ∧
      stored.nestedCallId = view.nestedCallId then s.yieldItem stored
  else s

/-- The loop body at the top level. -/
def ProjectionState.visit (view : ProjectionView) (s : ProjectionState)
    (stored : StoredContextItem) : ProjectionState :=
  let owner := stored.ownerCode
  let role := Dict.get stored.item "role"
  let itemType := Dict.get stored.item "type"
  if stored.nestedFor ≠ "" then s
  else if role.isText "user" then
    if isInternalContextItem stored.item && decide (owner ≠ view.viewingAgentCode) then s
    else (s.yieldPending view).yieldItem stored
  else if owner = view.viewingAgentCode then (s.yieldPending view).yieldItem stored
  else if ownerPrivateTypes.any itemType.isText then s
  else if !(role.isText "assistant") || !(itemType.isText "message") then s
  else
    let text := extractMessageText (Dict.get stored.item "content")
    if text = "" then s else s.collect view stored text

/-- The state of `_project_visible` after the loop. -/
def projectLoop (view : ProjectionView) (storedItems : List StoredContextItem) :
    ProjectionState :=
  if view.nestedFor ≠ "" then storedItems.foldl (ProjectionState.visitNested view) {}
  else storedItems.foldl (ProjectionState.visit view) {}

/-- `_project_visible`. -/
def projectVisible (view : ProjectionView) (storedItems : List StoredContextItem) :
    List ProjectedItem :=
  ((projectLoop view storedItems).yieldPending view).projected

/-- `_filter_compacted`. -/
def filterCompacted (storedItems : List StoredContextItem) (endMessageId : Option Int) :
    List StoredContextItem :=
  match endMessageId with
  | none => storedItems
  | some last => storedItems.filter (fun stored => decide (last < stored.messageId))

/-- The summary of a compaction, projected. -/
def ProjectionCompaction.projected (c : ProjectionCompaction) : ProjectedItem :=
  { item := c.summaryItem, sourceMessageIds := [c.startMessageId, c.endMessageId] }

/-- `project_context`. -/
def projectContext (storedItems : List StoredContextItem) (view : ProjectionView)
    (compaction : Option ProjectionCompaction) : List ProjectedItem :=
  let visibleStored :=
    filterCompacted storedItems (compaction.map ProjectionCompaction.endMessageId)
  let projected := projectVisible view visibleStored
  match compaction with
  | some c => c.projected :: projected
  | none => projected

end Workbench
