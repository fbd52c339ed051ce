/-!
# The rendered transcript

`web/src/features/playground`: the timeline of a session, one event per key in
`seq` order, is replayed into a list of nodes.  A node is a user message or an
agent's transcript, a list of blocks that the events upsert.  Events of a
nested run are kept inside the tool block of the call that started it.

Attachments of tool results and the React keys of blocks are left out: no
function here reads them.
-/

namespace Workbench

/-- `stableJson`.  The arguments of a call are compared through it alone. -/
class StableJson (Args : Type) where
  stableJson : Args → String

/-! ### Events -/

/-- `AgentInputPart`. -/
inductive AgentInputPart where
  | text (text : String)
  | image (mediaType data detail : String)
  deriving DecidableEq, Repr

/-- The two kinds of streamed text. -/
inductive SegmentKind where
  | thinking
  | text
  deriving DecidableEq, Repr

/-- `SubagentTaskEvent`. -/
structure SubagentTask where
  runId : String
  parentAgentCode : String := ""
  parentAgentInstanceId : String := ""
  agentCode : String
  status : String
  resultPreview : String := ""
  errorPreview : String := ""
  resultChars : Nat := 0
  errorChars : Nat := 0
  truncated : Bool := false
  progress : String := ""
  deriving DecidableEq, Repr

/-- What an event says.  `segment` is `thinking_delta`, `thinking_complete`,
`text_delta` and `text_complete`. -/
inductive EventBody (Args : Type) where
  | userMessage (content : List AgentInputPart) (displayText targetAgentCode : String)
  | turnBoundary
  | segment (kind : SegmentKind) (complete : Bool) (segmentId text : String)
  | toolCall (callId name : String) (arguments : Args)
  | toolResult (callId output : String) (isError : Bool)
  | subagentTask (task : SubagentTask)
  | error (message : String)
  deriving DecidableEq, Repr

/-- `AgentContentEvent`.  A user message has neither an agent name nor a
nested call id, and none is read on it. -/
structure AgentContentEvent (Args : Type) where
  createdAt : String := ""
  seq : Int
  agentName : String := ""
  nestedCallId : String := ""
  body : EventBody Args
  deriving DecidableEq, Repr

/-- `clientItemKey`.  Frames with the empty key are stored under a fresh one. -/
def clientItemKey {Args : Type} (event : AgentContentEvent Args) : String :=
  match event.body with
  | .segment .text _ segmentId _ => "text:" ++ event.nestedCallId ++ ":" ++ segmentId
  | .segment .thinking _ segmentId _ => "thinking:" ++ event.nestedCallId ++ ":" ++ segmentId
  | .toolCall callId _ _ => "tc:" ++ event.nestedCallId ++ ":" ++ callId
  | .toolResult callId _ _ => "tr:" ++ event.nestedCallId ++ ":" ++ callId
  | .subagentTask task => "sa:" ++ task.runId
  | .userMessage _ _ _ => if event.seq > 0 then "user:" ++ toString event.seq else ""
  | .turnBoundary => if event.seq > 0 then "turn:" ++ toString event.seq else ""
  | .error _ => if event.seq > 0 then "error:" ++ toString event.seq else ""

/-- One event per key, as the timeline store keeps them. -/
def DistinctKeys {Args : Type} (events : List (AgentContentEvent Args)) : Prop :=
  ((events.map clientItemKey).filter (fun key => decide (key ≠ ""))).Nodup

/-- The events are in `seq` order. -/
def SortedBySeq {Args : Type} (events : List (AgentContentEvent Args)) : Prop :=
  (events.map AgentContentEvent.seq).Pairwise (· ≤ ·)

/-! ### Transcripts -/

/-- `SubagentExecutionItem`. -/
structure SubagentExecutionItem where
  createdAt : String
  nestedCallId : String
  task : SubagentTask
  deriving DecidableEq, Repr

/-- `ToolExecutionItem`. -/
structure ToolExecutionItem (Args ν : Type) where
  callId : String
  name : String
  arguments : Args
  output : String := ""
  isError : Bool := false
  resolved : Bool := false
  nested : Option ν := none
  subagentTask : Option SubagentExecutionItem := none
  deriving DecidableEq, Repr

/-- `TranscriptBlock`; `ν` is what a tool block keeps of a nested run. -/
inductive TranscriptBlock (Args ν : Type) where
  | streaming (kind : SegmentKind) (segmentId text : String) (complete : Bool)
  | tool (item : ToolExecutionItem Args ν)
  | subagent (item : SubagentExecutionItem)
  | error (message : String)
  deriving DecidableEq, Repr

/-- `AgentTranscript`. -/
structure AgentTranscript (Args ν : Type) where
  createdAt : String := ""
  agentName : String := ""
  blocks : List (TranscriptBlock Args ν) := []
  deriving DecidableEq, Repr

/-- `NestedTranscript`: nested runs are not kept inside one another. -/
abbrev NestedTranscript (Args : Type) : Type := AgentTranscript Args Empty

/-! ### Identity -/

/-- One part in a `contentSignature`. -/
def AgentInputPart.signature : AgentInputPart → String
  | .text body => "text:" ++ body
  | .image mediaType data _ =>
      "image:" ++ mediaType ++ ":" ++ toString data.length ++ ":" ++
        String.ofList (data.toList.take 64)

/-- `contentSignature`. -/
def contentSignature (content : List AgentInputPart) : String :=
  String.intercalate "\n" (content.map AgentInputPart.signature)

section Identity

variable {Args ν : Type} [StableJson Args]

/-- `toolSignature`. -/
def toolSignature (name : String) (arguments : Args) : String :=
  name ++ "\x1f" ++ StableJson.stableJson arguments

namespace TranscriptBlock

def hasCallId (callId : String) : TranscriptBlock Args ν → Bool
  | .tool item => decide (item.callId = callId)
  | _ => false

def hasSignature (signature : String) : TranscriptBlock Args ν → Bool
  | .tool item => decide (toolSignature item.name item.arguments = signature)
  | _ => false

def isSegment (kind : SegmentKind) (segmentId : String) : TranscriptBlock Args ν → Bool
  | .streaming k s _ _ => decide (k = kind) && decide (s = segmentId)
  | _ => false

/-- A completed block that starts with the text. -/
def covers (kind : SegmentKind) (text : String) : TranscriptBlock Args ν → Bool
  | .streaming k _ t complete =>
      decide (k = kind) && complete && (decide (t = text) || text.toList.isPrefixOf t.toList)
  | _ => false

/-- A completed block with the text. -/
def isCompleted (kind : SegmentKind) (text : String) : TranscriptBlock Args ν → Bool
  | .streaming k _ t complete => decide (k = kind) && complete && decide (t = text)
  | _ => false

def hasRunId (runId : String) : TranscriptBlock Args ν → Bool
  | .subagent item => decide (item.task.runId = runId)
  | _ => false

end TranscriptBlock

/-- `findToolBlockIndex`. -/
def findToolBlockIndex (blocks : List (TranscriptBlock Args ν)) (callId name : String)
    (arguments : Option Args) : Option Nat :=
  match blocks.findIdx? (TranscriptBlock.hasCallId callId) with
  | some index => some index
  | none =>
      match arguments with
      | none => none
      | some value =>
          if name = "" then none
          else blocks.findIdx? (TranscriptBlock.hasSignature (toolSignature name value))

/-- `hasCoveredCompletedText`. -/
def hasCoveredCompletedText (blocks : List (TranscriptBlock Args ν)) (kind : SegmentKind)
    (text : String) : Bool :=
  decide (text ≠ "") && blocks.any (TranscriptBlock.covers kind text)

/-- `findCompletedTextIndex`. -/
def findCompletedTextIndex (blocks : List (TranscriptBlock Args ν)) (kind : SegmentKind)
    (text : String) (exceptIndex : Nat) : Option Nat :=
  if text = "" then none
  else blocks.zipIdx.findIdx? (fun p => decide (p.2 ≠ exceptIndex) && p.1.isCompleted kind text)

/-- `findStreamingBlockIndex`, which searches from the end. -/
def findStreamingBlockIndex (blocks : List (TranscriptBlock Args ν)) (kind : SegmentKind)
    (segmentId : String) : Option Nat :=
  (List.range blocks.length).reverse.find?
    (fun index => (blocks[index]?).any (TranscriptBlock.isSegment kind segmentId))

/-- `transcriptHasEvent`. -/
def transcriptHasEvent (blocks : List (TranscriptBlock Args ν)) (event : AgentContentEvent Args) : Bool :=
  match event.body with
  | .segment kind _ _ text => hasCoveredCompletedText blocks kind text
  | .toolCall callId name arguments =>
      (findToolBlockIndex blocks callId name (some arguments)).isSome
  | .toolResult callId output isError =>
      match (findToolBlockIndex blocks callId "" none).bind (fun index => blocks[index]?) with
      | some (.tool item) =>
          item.resolved && decide (item.output = output) && decide (item.isError = isError)
      | _ => false
  | .subagentTask task =>
      blocks.any (fun block =>
        match block with
        | .subagent item =>
            decide (item.task.runId = task.runId) && decide (item.task.status = task.status) &&
              decide (item.task.progress = task.progress) &&
              decide (item.task.resultPreview = task.resultPreview) &&
              decide (item.task.errorPreview = task.errorPreview) &&
              decide (item.task.resultChars = task.resultChars) &&
              decide (item.task.errorChars = task.errorChars) &&
              decide (item.task.truncated = task.truncated)
        | _ => false)
  | .userMessage _ _ _ | .turnBoundary | .error _ => false

/-! ### The transcript reducer -/

/-- `setAgentName`. -/
def AgentTranscript.setAgentName (t : AgentTranscript Args ν) (name : String) :
    AgentTranscript Args ν :=
  if name ≠ "" ∧ t.agentName = "" then { t with agentName := name } else t

/-- `upsertStreamingBlock`; a delta has no `complete`. -/
def upsertStreamingBlock (blocks : List (TranscriptBlock Args ν)) (kind : SegmentKind)
    (segmentId text : String) (complete : Option Bool) : List (TranscriptBlock Args ν) :=
  match findStreamingBlockIndex blocks kind segmentId with
  | none =>
      if hasCoveredCompletedText blocks kind text then blocks
      else blocks ++ [.streaming kind segmentId text (complete.getD false)]
  | some index =>
      match findCompletedTextIndex blocks kind text index with
      | some _ => blocks.eraseIdx index
      | none =>
          match blocks[index]? with
          | some (.streaming k s existingText existingComplete) =>
              if existingComplete && decide (existingText = text) then blocks
              else blocks.set index (.streaming k s text (complete.getD existingComplete))
          | _ => blocks

/-- The tool block at the index, updated. -/
def updateToolAt (blocks : List (TranscriptBlock Args ν)) (index : Nat)
    (update : ToolExecutionItem Args ν → ToolExecutionItem Args ν) :
    List (TranscriptBlock Args ν) :=
  match blocks[index]? with
  | some (.tool existing) => blocks.set index (.tool (update existing))
  | _ => blocks

/-- `upsertToolCall`. -/
def upsertToolCall (blocks : List (TranscriptBlock Args ν)) (callId name : String)
    (arguments : Args) : List (TranscriptBlock Args ν) :=
  if name = "" then blocks
  else
    match findToolBlockIndex blocks callId name (some arguments) with
    | none => blocks ++ [.tool { callId := callId, name := name, arguments := arguments }]
    | some index =>
        updateToolAt blocks index (fun existing => { existing with
          callId := if existing.callId = "" then callId else existing.callId
          name := name
          arguments := arguments })

/-- `upsertToolResult`. -/
def upsertToolResult (blocks : List (TranscriptBlock Args ν)) (callId output : String)
    (isError : Bool) : List (TranscriptBlock Args ν) :=
  match findToolBlockIndex blocks callId "" none with
  | none => blocks
  | some index =>
      updateToolAt blocks index (fun existing => { existing with
        output := output, isError := isError, resolved := true })

/-- `upsertSubagentTask`. -/
def upsertSubagentTask (blocks : List (TranscriptBlock Args ν)) (item : SubagentExecutionItem) :
    List (TranscriptBlock Args ν) :=
  match blocks.findIdx? (TranscriptBlock.hasRunId item.task.runId) with
  | none => blocks ++ [.subagent item]
  | some index => blocks.set index (.subagent item)

/-- `subagentExecutionItemFromEvent`. -/
def subagentExecutionItemFromEvent (event : AgentContentEvent Args) (task : SubagentTask) :
    SubagentExecutionItem :=
  { createdAt := event.createdAt, nestedCallId := event.nestedCallId, task := task }

/-- The blocks after `applyEventToTranscript`. -/
def applyEventToBlocks (blocks : List (TranscriptBlock Args ν)) (event : AgentContentEvent Args) :
    List (TranscriptBlock Args ν) :=
  match event.body with
  | .userMessage _ _ _ | .turnBoundary => blocks
  | .segment kind complete segmentId text =>
      upsertStreamingBlock blocks kind segmentId text (if complete then some true else none)
  | .toolCall callId name arguments => upsertToolCall blocks callId name arguments
  | .toolResult callId output isError => upsertToolResult blocks callId output isError
  | .subagentTask task => upsertSubagentTask blocks (subagentExecutionItemFromEvent event task)
  | .error message =>
      blocks ++ [.error (if message = "" then "agent run failed" else message)]

/-- `applyEventToTranscript`; the flag says whether the turn is finished. -/
def applyEventToTranscript (t : AgentTranscript Args ν) (event : AgentContentEvent Args) :
    AgentTranscript Args ν × Bool :=
  match event.body with
  | .userMessage _ _ _ | .turnBoundary => (t, false)
  | .error _ =>
      ({ t.setAgentName event.agentName with blocks := applyEventToBlocks t.blocks event }, true)
  | _ =>
      ({ t.setAgentName event.agentName with blocks := applyEventToBlocks t.blocks event }, false)

end Identity

/-! ### Chat state -/

/-- The node of a user message. -/
structure UserNode where
  id : String
  createdAt : String
  content : List AgentInputPart
  displayText : String
  targetAgentCode : String
  deriving DecidableEq, Repr

/-- `ChatNode`; `τ` is what an agent node holds. -/
inductive ChatNode (τ : Type) where
  | user (node : UserNode)
  | agent (id : String) (transcript : τ)
  deriving DecidableEq, Repr

/-- `ChatState`, over what an agent node holds. -/
structure ChatState (Args τ : Type) where
  nodes : List (ChatNode τ) := []
  streaming : Bool := false
  pendingNested : List (String × List (AgentContentEvent Args)) := []
  liveFrom : Option Nat := none
  deriving DecidableEq, Repr

section Nodes

variable {Args τ : Type}

def ChatNode.isUser : ChatNode τ → Bool
  | .user _ => true
  | .agent _ _ => false

/-- Two target agents, either of which may be left open. -/
def sameTarget (target other : String) : Bool :=
  decide (target = "") || decide (other = "") || decide (other = target)

/-- `findLiveUserMessageIndex`: the last user message, if it matches. -/
def findLiveUserMessageIndex (nodes : List (ChatNode τ)) (signature targetAgentCode : String) :
    Option Nat :=
  match (List.range nodes.length).reverse.find? (fun index => (nodes[index]?).any
      ChatNode.isUser) with
  | none => none
  | some index =>
      match nodes[index]? with
      | some (.user node) =>
          if contentSignature node.content ≠ signature then none
          else if sameTarget targetAgentCode node.targetAgentCode then some index
          else none
      | _ => none

/-- A repeated message names its target on the message shown. -/
def retarget (nodes : List (ChatNode τ)) (index : Nat) (targetAgentCode : String) :
    List (ChatNode τ) :=
  match nodes[index]? with
  | some (.user node) =>
      if targetAgentCode = "" ∨ node.targetAgentCode = targetAgentCode then nodes
      else nodes.set index (.user { node with targetAgentCode := targetAgentCode })
  | _ => nodes

/-- The message shown last, when nothing follows it and it has the signature. -/
def findTailUserMessageIndex (nodes : List (ChatNode τ)) (signature : String) : Option Nat :=
  match nodes.getLast? with
  | some (.user node) =>
      if contentSignature node.content = signature then some (nodes.length - 1) else none
  | _ => none

/-- The message shown that a repeated one is taken for, if any. -/
def absorbingIndex (nodes : List (ChatNode τ)) (streaming : Bool) (node : UserNode) :
    Option Nat :=
  let signature := contentSignature node.content
  match (if streaming then
      findLiveUserMessageIndex nodes signature node.targetAgentCode else none) with
  | some index => some index
  | none => findTailUserMessageIndex nodes signature

/-- `appendUserMessage`. -/
def appendUserMessage (state : ChatState Args τ) (node : UserNode) : ChatState Args τ :=
  match absorbingIndex state.nodes state.streaming node with
  | some index =>
      { state with
        nodes := retarget state.nodes index node.targetAgentCode
        streaming := true
        liveFrom := some (state.liveFrom.getD state.nodes.length) }
  | none =>
      { state with
        nodes := state.nodes ++ [.user node]
        streaming := true
        liveFrom := some (state.nodes.length + 1) }

end Nodes

section Replay

variable {Args : Type} [StableJson Args]

/-- What an agent node of the page holds. -/
abbrev PageTranscript (Args : Type) : Type := AgentTranscript Args (NestedTranscript Args)

/-- The state that is folded over the events. -/
abbrev PageState (Args : Type) : Type := ChatState Args (PageTranscript Args)

/-- The index of the call's tool block in an agent node. -/
def ChatNode.toolBlockIndex (node : ChatNode (PageTranscript Args)) (callId : String) :
    Option Nat :=
  match node with
  | .agent _ t => findToolBlockIndex t.blocks callId "" none
  | .user _ => none

/-- `hasToolCall`. -/
def hasToolCall (nodes : List (ChatNode (PageTranscript Args))) (callId : String) : Bool :=
  nodes.any (fun node => (node.toolBlockIndex callId).isSome)

/-- `prunePendingNested`. -/
def prunePendingNested (state : PageState Args) :
    List (String × List (AgentContentEvent Args)) :=
  state.pendingNested.filter (fun entry => !hasToolCall state.nodes entry.1)

/-- `finishChatTurn`. -/
def finishChatTurn (state : PageState Args) : PageState Args :=
  { state with streaming := false, liveFrom := none, pendingNested := prunePendingNested state }

/-- `updateNestedTool`: the tool block of the call in the last node that has
one. -/
def updateNestedTool (state : PageState Args) (callId : String)
    (update : ToolExecutionItem Args (NestedTranscript Args) →
      ToolExecutionItem Args (NestedTranscript Args)) : Option (PageState Args) :=
  match (List.range state.nodes.length).reverse.find? (fun index =>
      ((state.nodes[index]?).bind (ChatNode.toolBlockIndex · callId)).isSome) with
  | none => none
  | some index =>
      match state.nodes[index]? with
      | some (.agent id t) =>
          (findToolBlockIndex t.blocks callId "" none).map (fun blockIndex =>
            let t := { t with blocks := updateToolAt t.blocks blockIndex update }
            { state with nodes := state.nodes.set index (.agent id t) })
      | _ => none

/-- What an event of a nested run does to the tool block of its call. -/
def nestedUpdate (event : AgentContentEvent Args)
    (tool : ToolExecutionItem Args (NestedTranscript Args)) :
    ToolExecutionItem Args (NestedTranscript Args) :=
  match event.body with
  | .subagentTask task =>
      { tool with subagentTask := some (subagentExecutionItemFromEvent event task) }
  | _ =>
      let nested := tool.nested.getD { createdAt := event.createdAt }
      let nested := if nested.createdAt = "" then
        { nested with createdAt := event.createdAt } else nested
      { tool with nested := some (applyEventToTranscript nested event).1 }

/-- `routeToNestedNow`. -/
def routeToNestedNow (state : PageState Args) (event : AgentContentEvent Args)
    (nestedCallId : String) : Option (PageState Args) :=
  updateNestedTool state nestedCallId (nestedUpdate event)

/-- The events queued for a call. -/
def pendingFor (pending : List (String × List (AgentContentEvent Args))) (callId : String) :
    List (AgentContentEvent Args) :=
  (pending.lookup callId).getD []

/-- `{ ...pending, [callId]: events }`. -/
def setPending (pending : List (String × List (AgentContentEvent Args))) (callId : String)
    (events : List (AgentContentEvent Args)) : List (String × List (AgentContentEvent Args)) :=
  if (pending.lookup callId).isSome then
    pending.map (fun entry => if entry.1 = callId then (callId, events) else entry)
  else pending ++ [(callId, events)]

/-- `routeToNested`. -/
def routeToNested (state : PageState Args) (event : AgentContentEvent Args)
    (nestedCallId : String) : PageState Args :=
  match routeToNestedNow state event nestedCallId with
  | some routed => routed
  | none =>
      let queued := pendingFor state.pendingNested nestedCallId
      { state with
        pendingNested := setPending state.pendingNested nestedCallId (queued ++ [event]) }

/-- Route the queued events; those that still find no tool block remain. -/
def drainNested (callId : String) :
    PageState Args → List (AgentContentEvent Args) → PageState Args × List (AgentContentEvent Args)
  | state, [] => (state, [])
  | state, event :: pending =>
      match routeToNestedNow state event callId with
      | some routed => drainNested callId routed pending
      | none =>
          let drained := drainNested callId state pending
          (drained.1, event :: drained.2)

/-- `drainPendingNested`. -/
def drainPendingNested (state : PageState Args) (callId : String) : PageState Args :=
  let pending := pendingFor state.pendingNested callId
  if pending.isEmpty then state
  else
    let (state, remaining) := drainNested callId state pending
    { state with pendingNested :=
        if remaining.isEmpty then
          state.pendingNested.filter (fun entry => decide (entry.1 ≠ callId))
        else setPending state.pendingNested callId remaining }

/-- `findLiveAgentForEvent`. -/
def findLiveAgentForEvent (nodes : List (ChatNode (PageTranscript Args)))
    (liveFrom : Option Nat) (event : AgentContentEvent Args) : Option Nat :=
  ((List.range nodes.length).filter (fun index => decide (liveFrom.getD 0 ≤ index))).reverse.find?
    (fun index =>
      match nodes[index]? with
      | some (.agent _ t) => transcriptHasEvent t.blocks event
      | _ => false)

/-- `isWritableAgentTail`, of the last node. -/
def isWritableAgentTail (state : PageState Args) : Bool :=
  match state.nodes.getLast? with
  | some (.agent _ _) =>
      state.streaming && state.liveFrom.any (fun k => decide (k ≤ state.nodes.length - 1))
  | _ => false

/-- An event on an existing agent node. -/
def applyToNode (node : ChatNode (PageTranscript Args)) (event : AgentContentEvent Args) :
    ChatNode (PageTranscript Args) :=
  match node with
  | .user node => .user node
  | .agent id t =>
      let t := if t.createdAt = "" then { t with createdAt := event.createdAt } else t
      .agent id (applyEventToTranscript t event).1

/-- `createAgentNode`, with the event that opens it. -/
def createAgentNode (event : AgentContentEvent Args) : ChatNode (PageTranscript Args) :=
  .agent ("agent:" ++ toString event.seq)
    (applyEventToTranscript { createdAt := event.createdAt } event).1

/-- The node the event is applied to: the live tail, a live node that has it
already, or a new one. -/
def placeEvent (state : PageState Args) (event : AgentContentEvent Args) :
    List (ChatNode (PageTranscript Args)) :=
  if isWritableAgentTail state then
    state.nodes.modify (state.nodes.length - 1) (fun node => applyToNode node event)
  else
    match (if state.streaming then
        findLiveAgentForEvent state.nodes state.liveFrom event else none) with
    | some index => state.nodes.modify index (fun node => applyToNode node event)
    | none => state.nodes ++ [createAgentNode event]

/-- `routeToTopLevel`. -/
def routeToTopLevel (state : PageState Args) (event : AgentContentEvent Args) : PageState Args :=
  let nodes := placeEvent state event
  let liveFrom := some (state.liveFrom.getD (nodes.length - 1))
  let applied : PageState Args := { state with nodes := nodes, liveFrom := liveFrom }
  match event.body with
  | .error _ => { finishChatTurn applied with pendingNested := [] }
  | .toolCall callId _ _ | .toolResult callId _ _ =>
      drainPendingNested { applied with streaming := true } callId
  | _ => { applied with streaming := true }

/-- `applyContentEvent`. -/
def applyContentEvent (state : PageState Args) (event : AgentContentEvent Args) :
    PageState Args :=
  match event.body with
  | .userMessage content displayText targetAgentCode =>
      appendUserMessage state
        { id := "user:" ++ toString event.seq, createdAt := event.createdAt, content := content,
          displayText := displayText, targetAgentCode := targetAgentCode }
  | .turnBoundary => if event.nestedCallId ≠ "" then state else finishChatTurn state
  | _ =>
      if event.nestedCallId ≠ "" then routeToNested state event event.nestedCallId
      else routeToTopLevel state event

/-- `chatReplay`. -/
def chatReplay (events : List (AgentContentEvent Args)) : PageState Args :=
  finishChatTurn (events.foldl applyContentEvent {})

/-- `buildChatNodesFromEvents`. -/
def buildChatNodesFromEvents (events : List (AgentContentEvent Args)) :
    List (ChatNode (PageTranscript Args)) :=
  (chatReplay events).nodes

end Replay

end Workbench
