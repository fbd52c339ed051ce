import CyberWorkbench.ChatTranscript

/-!
# The outline of a transcript

What the replay decides is where an event goes; what an agent node shows is
then the reducer's fold over the events that went there.  The outline keeps
the first part only: its agent nodes hold the events themselves.  It has no
live index and no queue of nested events.

`buildChatNodes_outline` connects the two: the page's nodes are the outline's,
each agent node with the blocks its events fold to.  Events of nested runs
change what is kept inside a tool block and nothing else.
-/

namespace Workbench

/-! ### Searching from the end -/

section Search

variable {α : Type} (p : α → Bool)

private theorem find?_reverse_range (q : Nat → Bool) {n i : Nat} (hi : i < n) (hq : q i = true)
    (hlater : ∀ j, i < j → j < n → q j = false) :
    (List.range n).reverse.find? q = some i := by
  induction n with
  | zero => exact absurd hi (Nat.not_lt_zero i)
  | succ n ih =>
      rw [List.range_succ, List.reverse_append, List.reverse_singleton, List.singleton_append]
      by_cases hin : i = n
      · subst hin
        exact List.find?_cons_of_pos hq
      · have hlt : i < n := by omega
        rw [List.find?_cons_of_neg (by simp [hlater n hlt (Nat.lt_succ_self n)])]
        exact ih hlt (fun j hij hjn => hlater j hij (by omega))

/-- The search ends at the last element that satisfies the predicate. -/
theorem findFromEnd_append (pre : List α) {x : α} {post : List α} (hx : p x = true)
    (hpost : ∀ y ∈ post, p y = false) :
    (List.range (pre ++ x :: post).length).reverse.find?
      (fun i => ((pre ++ x :: post)[i]?).any p) = some pre.length := by
  refine find?_reverse_range _ (by simp) (by simpa using hx) (fun j hj hlt => ?_)
  obtain ⟨k, rfl⟩ : ∃ k, j = pre.length + 1 + k := ⟨j - (pre.length + 1), by omega⟩
  have hget : (pre ++ x :: post)[pre.length + 1 + k]? = post[k]? := by
    rw [List.getElem?_append_right (by omega)]
    have hindex : pre.length + 1 + k - pre.length = k + 1 := by omega
    rw [hindex, List.getElem?_cons_succ]
  rw [hget]
  cases hk : post[k]? with
  | none => rfl
  | some y => exact hpost y (List.mem_of_getElem? hk)

theorem findFromEnd_none {xs : List α} (h : ∀ y ∈ xs, p y = false) :
    (List.range xs.length).reverse.find? (fun i => (xs[i]?).any p) = none := by
  rw [List.find?_eq_none]
  intro i _
  cases hi : xs[i]? with
  | none => simp
  | some y => simpa using h y (List.mem_of_getElem? hi)

end Search

section Outline

variable {Args : Type}

/-- What the replay does with an event. -/
inductive EventRole where
  | message (node : UserNode)
  | boundary
  | nested
  | output
  deriving DecidableEq, Repr

/-- The dispatch of `applyContentEvent`. -/
def AgentContentEvent.role (e : AgentContentEvent Args) : EventRole :=
  match e.body with
  | .userMessage content displayText targetAgentCode =>
      .message { id := "user:" ++ toString e.seq, createdAt := e.createdAt, content := content,
                 displayText := displayText, targetAgentCode := targetAgentCode }
  | .turnBoundary => if e.nestedCallId ≠ "" then .nested else .boundary
  | _ => if e.nestedCallId ≠ "" then .nested else .output

/-- An error ends the turn. -/
def AgentContentEvent.isError (e : AgentContentEvent Args) : Bool :=
  match e.body with
  | .error _ => true
  | _ => false

/-- The nodes, with the events of each agent node, and whether a turn runs. -/
structure Outline (Args : Type) where
  nodes : List (ChatNode (List (AgentContentEvent Args))) := []
  streaming : Bool := false

/-- The nodes once a message is shown, or taken for one that is. -/
def showMessage {τ : Type} (nodes : List (ChatNode τ)) (streaming : Bool) (node : UserNode) :
    List (ChatNode τ) :=
  match absorbingIndex nodes streaming node with
  | some index => retarget nodes index node.targetAgentCode
  | none => nodes ++ [.user node]

/-- An output event joins the running agent node or opens one. -/
def Outline.place (o : Outline Args) (e : AgentContentEvent Args) :
    List (ChatNode (List (AgentContentEvent Args))) :=
  match o.streaming, o.nodes.getLast? with
  | true, some (.agent id events) => o.nodes.dropLast ++ [.agent id (events ++ [e])]
  | _, _ => o.nodes ++ [.agent ("agent:" ++ toString e.seq) [e]]

/-- The outline after one more event. -/
def Outline.next (o : Outline Args) (e : AgentContentEvent Args) : Outline Args :=
  match e.role with
  | .message node => { nodes := showMessage o.nodes o.streaming node, streaming := true }
  | .boundary => { o with streaming := false }
  | .nested => o
  | .output => { nodes := o.place e, streaming := !e.isError }

/-- The outline of a timeline. -/
def outline (events : List (AgentContentEvent Args)) : Outline Args :=
  events.foldl Outline.next {}

end Outline

/-! ### Nodes seen through their agent part -/

section Map

variable {τ υ : Type} (f : τ → υ)

/-- The same node with its agent part mapped. -/
def ChatNode.map : ChatNode τ → ChatNode υ
  | .user node => .user node
  | .agent id t => .agent id (f t)

@[simp] theorem ChatNode.isUser_map (n : ChatNode τ) : (n.map f).isUser = n.isUser := by
  cases n <;> rfl

theorem findLiveUserMessageIndex_map (nodes : List (ChatNode τ))
    (signature targetAgentCode : String) :
    findLiveUserMessageIndex (nodes.map (ChatNode.map f)) signature targetAgentCode =
      findLiveUserMessageIndex nodes signature targetAgentCode := by
  have hfind : (fun index : Nat => ((nodes.map (ChatNode.map f))[index]?).any ChatNode.isUser) =
      fun index : Nat => (nodes[index]?).any ChatNode.isUser := by
    funext index
    rw [List.getElem?_map]
    cases nodes[index]? <;> simp
  unfold findLiveUserMessageIndex
  rw [hfind, List.length_map]
  cases (List.range nodes.length).reverse.find?
      (fun index => (nodes[index]?).any ChatNode.isUser) with
  | none => rfl
  | some index =>
      simp only [List.getElem?_map]
      cases nodes[index]? with
      | none => rfl
      | some n => cases n <;> rfl

theorem findTailUserMessageIndex_map (nodes : List (ChatNode τ)) (signature : String) :
    findTailUserMessageIndex (nodes.map (ChatNode.map f)) signature =
      findTailUserMessageIndex nodes signature := by
  unfold findTailUserMessageIndex
  rw [List.getLast?_map, List.length_map]
  cases nodes.getLast? with
  | none => rfl
  | some n => cases n <;> rfl

theorem absorbingIndex_map (nodes : List (ChatNode τ)) (streaming : Bool) (node : UserNode) :
    absorbingIndex (nodes.map (ChatNode.map f)) streaming node =
      absorbingIndex nodes streaming node := by
  simp only [absorbingIndex, findLiveUserMessageIndex_map, findTailUserMessageIndex_map]

theorem retarget_map (nodes : List (ChatNode τ)) (index : Nat) (targetAgentCode : String) :
    retarget (nodes.map (ChatNode.map f)) index targetAgentCode =
      (retarget nodes index targetAgentCode).map (ChatNode.map f) := by
  unfold retarget
  rw [List.getElem?_map]
  cases nodes[index]? with
  | none => rfl
  | some n =>
      cases n with
      | agent id t => rfl
      | user node =>
          simp only [Option.map_some, ChatNode.map]
          split
          · rfl
          · rw [List.map_set]
            rfl

/-- A message never looks into an agent node. -/
theorem showMessage_map (nodes : List (ChatNode τ)) (streaming : Bool) (node : UserNode) :
    showMessage (nodes.map (ChatNode.map f)) streaming node =
      (showMessage nodes streaming node).map (ChatNode.map f) := by
  unfold showMessage
  rw [absorbingIndex_map]
  cases absorbingIndex nodes streaming node with
  | some index => exact retarget_map f nodes index node.targetAgentCode
  | none => simp [ChatNode.map]

/-- Whether the list of nodes ends in an agent node. -/
def endsInAgent (nodes : List (ChatNode τ)) : Bool :=
  decide ((nodes.map ChatNode.isUser).getLast? = some false)

theorem endsInAgent_map (nodes : List (ChatNode τ)) :
    endsInAgent (nodes.map (ChatNode.map f)) = endsInAgent nodes := by
  have hkinds : ChatNode.isUser ∘ ChatNode.map f = ChatNode.isUser :=
    funext (ChatNode.isUser_map f)
  simp only [endsInAgent, List.map_map, hkinds]

theorem endsInAgent_append (nodes : List (ChatNode τ)) (n : ChatNode τ) :
    endsInAgent (nodes ++ [n]) = !n.isUser := by
  cases h : n.isUser <;> simp [endsInAgent, h]

theorem endsInAgent_iff {nodes : List (ChatNode τ)} :
    endsInAgent nodes = true ↔ ∃ rest id t, nodes = rest ++ [.agent id t] := by
  constructor
  · intro h
    rcases List.eq_nil_or_concat nodes with rfl | ⟨rest, n, rfl⟩
    · simp [endsInAgent] at h
    · rw [List.concat_eq_append, endsInAgent_append] at h
      cases n with
      | user node => simp [ChatNode.isUser] at h
      | agent id t => exact ⟨rest, id, t, by simp⟩
  · rintro ⟨rest, id, t, rfl⟩
    rw [endsInAgent_append]
    rfl

/-- A new target changes no node's kind. -/
theorem isUser_retarget (nodes : List (ChatNode τ)) (index : Nat) (targetAgentCode : String) :
    (retarget nodes index targetAgentCode).map ChatNode.isUser =
      nodes.map ChatNode.isUser := by
  unfold retarget
  split
  · rename_i node hnode
    split
    · rfl
    · have hkind : (nodes.map ChatNode.isUser)[index]? = some true := by
        rw [List.getElem?_map, hnode]
        rfl
      obtain ⟨hlt, hget⟩ := List.getElem?_eq_some_iff.mp hkind
      rw [List.map_set]
      simp only [ChatNode.isUser]
      rw [← hget, List.set_getElem_self]
  · rfl

/-- With no turn running, only a message at the end absorbs another. -/
theorem not_endsInAgent_of_absorbed {nodes : List (ChatNode τ)} {node : UserNode} {index : Nat}
    (h : absorbingIndex nodes false node = some index) : endsInAgent nodes = false := by
  simp only [absorbingIndex, Bool.false_eq_true, if_false, findTailUserMessageIndex] at h
  cases hlast : nodes.getLast? with
  | none => simp [hlast] at h
  | some n =>
      cases n with
      | agent id t => simp [hlast] at h
      | user last => simp [endsInAgent, List.getLast?_map, hlast, ChatNode.isUser]

theorem Outline.place_cases {Args : Type} (o : Outline Args) (e : AgentContentEvent Args) :
    (∃ rest id events, o.streaming = true ∧ o.nodes = rest ++ [.agent id events] ∧
        o.place e = rest ++ [.agent id (events ++ [e])]) ∨
      ((o.streaming && endsInAgent o.nodes) = false ∧
        o.place e = o.nodes ++ [.agent ("agent:" ++ toString e.seq) [e]]) := by
  by_cases htail : o.streaming = true ∧ endsInAgent o.nodes = true
  · obtain ⟨hstreaming, hagent⟩ := htail
    obtain ⟨rest, id, events, hnodes⟩ := endsInAgent_iff.mp hagent
    refine .inl ⟨rest, id, events, hstreaming, hnodes, ?_⟩
    simp [Outline.place, hstreaming, hnodes]
  · refine .inr ⟨Bool.eq_false_iff.mpr (fun hand => htail (Bool.and_eq_true_iff.mp hand)), ?_⟩
    unfold Outline.place
    split
    · rename_i id events hstreaming hlast
      refine absurd ⟨hstreaming, ?_⟩ htail
      simp [endsInAgent, List.getLast?_map, hlast, ChatNode.isUser]
    · rfl

theorem appendUserMessage_nodes {Args : Type} (state : ChatState Args τ) (node : UserNode) :
    (appendUserMessage state node).nodes = showMessage state.nodes state.streaming node := by
  unfold appendUserMessage showMessage
  cases absorbingIndex state.nodes state.streaming node <;> rfl

end Map

/-! ### Blocks without what they keep of nested runs -/

section Core

variable {Args ν : Type}

def ToolExecutionItem.core (item : ToolExecutionItem Args ν) : ToolExecutionItem Args ν :=
  { item with nested := none, subagentTask := none }

/-- The block without its nested run. -/
def TranscriptBlock.core : TranscriptBlock Args ν → TranscriptBlock Args ν
  | .tool item => .tool item.core
  | b => b

@[simp] theorem TranscriptBlock.core_core (b : TranscriptBlock Args ν) : b.core.core = b.core := by
  cases b <;> rfl

@[simp] theorem TranscriptBlock.hasCallId_core (callId : String) :
    (TranscriptBlock.hasCallId callId ∘ TranscriptBlock.core : TranscriptBlock Args ν → Bool) =
      TranscriptBlock.hasCallId callId := by
  funext b
  cases b <;> rfl

@[simp] theorem TranscriptBlock.hasSignature_core [StableJson Args] (signature : String) :
    (TranscriptBlock.hasSignature signature ∘ TranscriptBlock.core :
      TranscriptBlock Args ν → Bool) = TranscriptBlock.hasSignature signature := by
  funext b
  cases b <;> rfl

@[simp] theorem TranscriptBlock.covers_core (kind : SegmentKind) (text : String) :
    (TranscriptBlock.covers kind text ∘ TranscriptBlock.core : TranscriptBlock Args ν → Bool) =
      TranscriptBlock.covers kind text := by
  funext b
  cases b <;> rfl

@[simp] theorem TranscriptBlock.hasRunId_core (runId : String) :
    (TranscriptBlock.hasRunId runId ∘ TranscriptBlock.core : TranscriptBlock Args ν → Bool) =
      TranscriptBlock.hasRunId runId := by
  funext b
  cases b <;> rfl

@[simp] theorem TranscriptBlock.isSegment_core (kind : SegmentKind) (segmentId : String)
    (b : TranscriptBlock Args ν) : b.core.isSegment kind segmentId = b.isSegment kind segmentId := by
  cases b <;> rfl

@[simp] theorem TranscriptBlock.isCompleted_core (kind : SegmentKind) (text : String)
    (b : TranscriptBlock Args ν) : b.core.isCompleted kind text = b.isCompleted kind text := by
  cases b <;> rfl

variable (blocks : List (TranscriptBlock Args ν))

theorem findToolBlockIndex_core [StableJson Args] (callId name : String) (arguments : Option Args) :
    findToolBlockIndex (blocks.map TranscriptBlock.core) callId name arguments =
      findToolBlockIndex blocks callId name arguments := by
  unfold findToolBlockIndex
  simp only [List.findIdx?_map, TranscriptBlock.hasCallId_core, TranscriptBlock.hasSignature_core]

theorem hasCoveredCompletedText_core (kind : SegmentKind) (text : String) :
    hasCoveredCompletedText (blocks.map TranscriptBlock.core) kind text =
      hasCoveredCompletedText blocks kind text := by
  unfold hasCoveredCompletedText
  rw [List.any_map, TranscriptBlock.covers_core]

theorem findCompletedTextIndex_core (kind : SegmentKind) (text : String) (exceptIndex : Nat) :
    findCompletedTextIndex (blocks.map TranscriptBlock.core) kind text exceptIndex =
      findCompletedTextIndex blocks kind text exceptIndex := by
  unfold findCompletedTextIndex
  rw [List.zipIdx_map, List.findIdx?_map]
  congr 2
  funext p
  simp

theorem findStreamingBlockIndex_core (kind : SegmentKind) (segmentId : String) :
    findStreamingBlockIndex (blocks.map TranscriptBlock.core) kind segmentId =
      findStreamingBlockIndex blocks kind segmentId := by
  unfold findStreamingBlockIndex
  rw [List.length_map]
  congr 1
  funext index
  rw [List.getElem?_map]
  cases blocks[index]? <;> simp

theorem upsertStreamingBlock_core (kind : SegmentKind) (segmentId text : String)
    (complete : Option Bool) :
    (upsertStreamingBlock blocks kind segmentId text complete).map TranscriptBlock.core =
      upsertStreamingBlock (blocks.map TranscriptBlock.core) kind segmentId text complete := by
  unfold upsertStreamingBlock
  rw [findStreamingBlockIndex_core]
  cases findStreamingBlockIndex blocks kind segmentId with
  | none =>
      simp only [hasCoveredCompletedText_core]
      split
      · rfl
      · simp [TranscriptBlock.core]
  | some index =>
      simp only [findCompletedTextIndex_core]
      cases findCompletedTextIndex blocks kind text index with
      | some _ =>
          simp only [List.eraseIdx_eq_take_drop_succ, List.map_append, List.map_take,
            List.map_drop]
      | none =>
          simp only [List.getElem?_map]
          cases blocks[index]? with
          | none => rfl
          | some b =>
              cases b with
              | streaming k s existingText existingComplete =>
                  simp only [Option.map_some, TranscriptBlock.core]
                  split
                  · rfl
                  · rw [List.map_set]
                    rfl
              | tool item => rfl
              | subagent item => rfl
              | error message => rfl

/-- An update that keeps what is nested. -/
theorem updateToolAt_core (index : Nat)
    (update : ToolExecutionItem Args ν → ToolExecutionItem Args ν)
    (hupdate : ∀ item, (update item).core = update item.core) :
    (updateToolAt blocks index update).map TranscriptBlock.core =
      updateToolAt (blocks.map TranscriptBlock.core) index update := by
  unfold updateToolAt
  rw [List.getElem?_map]
  cases blocks[index]? with
  | none => rfl
  | some b =>
      cases b with
      | tool item =>
          simp only [Option.map_some, TranscriptBlock.core, List.map_set, hupdate]
      | streaming kind segmentId text complete => rfl
      | subagent item => rfl
      | error message => rfl

/-- An update of what is nested. -/
theorem updateToolAt_core_eq (index : Nat)
    (update : ToolExecutionItem Args ν → ToolExecutionItem Args ν)
    (hupdate : ∀ item, (update item).core = item.core) :
    (updateToolAt blocks index update).map TranscriptBlock.core =
      blocks.map TranscriptBlock.core := by
  unfold updateToolAt
  cases hb : blocks[index]? with
  | none => rfl
  | some b =>
      cases b with
      | tool item =>
          have hcore : (blocks.map TranscriptBlock.core)[index]? =
              some (TranscriptBlock.tool item.core) := by
            rw [List.getElem?_map, hb]
            rfl
          obtain ⟨hlt, hget⟩ := List.getElem?_eq_some_iff.mp hcore
          simp only [List.map_set, TranscriptBlock.core, hupdate]
          rw [← hget, List.set_getElem_self]
      | streaming kind segmentId text complete => rfl
      | subagent item => rfl
      | error message => rfl

variable [StableJson Args]

theorem applyEventToBlocks_core (e : AgentContentEvent Args) :
    (applyEventToBlocks blocks e).map TranscriptBlock.core =
      applyEventToBlocks (blocks.map TranscriptBlock.core) e := by
  unfold applyEventToBlocks
  cases e.body with
  | userMessage content displayText targetAgentCode => rfl
  | turnBoundary => rfl
  | segment kind complete segmentId text => exact upsertStreamingBlock_core ..
  | toolCall callId name arguments =>
      simp only [upsertToolCall, findToolBlockIndex_core]
      split
      · rfl
      · cases findToolBlockIndex blocks callId name (some arguments) with
        | none => simp [TranscriptBlock.core, ToolExecutionItem.core]
        | some index => exact updateToolAt_core _ _ _ (fun _ => rfl)
  | toolResult callId output isError =>
      simp only [upsertToolResult, findToolBlockIndex_core]
      cases findToolBlockIndex blocks callId "" none with
      | none => rfl
      | some index => exact updateToolAt_core _ _ _ (fun _ => rfl)
  | subagentTask task =>
      simp only [upsertSubagentTask, List.findIdx?_map, TranscriptBlock.hasRunId_core]
      cases blocks.findIdx? _ with
      | none => simp [TranscriptBlock.core]
      | some index =>
          simp only [List.map_set]
          rfl
  | error message => simp [TranscriptBlock.core]

end Core

/-! ### The page shows the outline -/

section Refinement

variable {Args : Type}

/-- What an agent node shows, nested runs aside. -/
def coreBlocks (t : PageTranscript Args) : List (TranscriptBlock Args (NestedTranscript Args)) :=
  t.blocks.map TranscriptBlock.core

/-- Events of nested runs touch nothing that is depicted. -/
structure SameOutline (state state' : PageState Args) : Prop where
  nodes : state'.nodes.map (ChatNode.map coreBlocks) = state.nodes.map (ChatNode.map coreBlocks)
  streaming : state'.streaming = state.streaming
  liveFrom : state'.liveFrom = state.liveFrom

theorem SameOutline.refl (state : PageState Args) : SameOutline state state := ⟨rfl, rfl, rfl⟩

theorem SameOutline.trans {a b c : PageState Args} (h : SameOutline a b)
    (h' : SameOutline b c) : SameOutline a c :=
  ⟨h'.nodes.trans h.nodes, h'.streaming.trans h.streaming, h'.liveFrom.trans h.liveFrom⟩

variable [StableJson Args]

/-- The blocks that the events of an agent node fold to. -/
def foldBlocks (events : List (AgentContentEvent Args)) :
    List (TranscriptBlock Args (NestedTranscript Args)) :=
  events.foldl applyEventToBlocks []

/-- The page's state depicts the outline.  While a turn runs, the live index
points at the last node if that is an agent's and past it otherwise. -/
structure Depicts (state : PageState Args) (o : Outline Args) : Prop where
  nodes : state.nodes.map (ChatNode.map coreBlocks) = o.nodes.map (ChatNode.map foldBlocks)
  streaming : state.streaming = o.streaming
  idle : state.streaming = false → state.liveFrom = none
  live : state.streaming = true → state.liveFrom =
    some (if endsInAgent state.nodes then state.nodes.length - 1 else state.nodes.length)

theorem Depicts.congr {state state' : PageState Args} {o : Outline Args}
    (h : Depicts state o) (hs : SameOutline state state') : Depicts state' o := by
  have hlength : state'.nodes.length = state.nodes.length := by
    simpa using congrArg List.length hs.nodes
  have hends : endsInAgent state'.nodes = endsInAgent state.nodes := by
    rw [← endsInAgent_map coreBlocks, hs.nodes, endsInAgent_map]
  exact ⟨hs.nodes.trans h.nodes, hs.streaming.trans h.streaming,
    fun hidle => hs.liveFrom.trans (h.idle (hs.streaming ▸ hidle)),
    fun hlive => by rw [hs.liveFrom, h.live (hs.streaming ▸ hlive), hlength, hends]⟩

/-- An update of what a tool block keeps of a nested run. -/
theorem updateNestedTool_same {state state' : PageState Args} {callId : String}
    {update : ToolExecutionItem Args (NestedTranscript Args) →
      ToolExecutionItem Args (NestedTranscript Args)}
    (hupdate : ∀ item, (update item).core = item.core)
    (h : updateNestedTool state callId update = some state') : SameOutline state state' := by
  unfold updateNestedTool at h
  split at h
  · cases h
  · rename_i index _
    split at h
    · rename_i id t hnode
      obtain ⟨blockIndex, -, rfl⟩ := Option.map_eq_some_iff.mp h
      have hcore : (state.nodes.map (ChatNode.map coreBlocks))[index]? =
          some (.agent id (coreBlocks t)) := by
        rw [List.getElem?_map, hnode]
        rfl
      obtain ⟨hlt, hget⟩ := List.getElem?_eq_some_iff.mp hcore
      refine ⟨?_, rfl, rfl⟩
      have hblocks : coreBlocks { t with blocks := updateToolAt t.blocks blockIndex update } =
          coreBlocks t := updateToolAt_core_eq t.blocks blockIndex update hupdate
      simp only [List.map_set, ChatNode.map, hblocks]
      rw [← hget, List.set_getElem_self]
    · cases h

theorem nestedUpdate_core (e : AgentContentEvent Args)
    (item : ToolExecutionItem Args (NestedTranscript Args)) :
    (nestedUpdate e item).core = item.core := by
  unfold nestedUpdate
  cases e.body <;> rfl

theorem routeToNested_same (state : PageState Args) (e : AgentContentEvent Args)
    (nestedCallId : String) : SameOutline state (routeToNested state e nestedCallId) := by
  unfold routeToNested
  split
  · rename_i routed hrouted
    exact updateNestedTool_same (nestedUpdate_core e) hrouted
  · exact ⟨rfl, rfl, rfl⟩

theorem drainNested_same (callId : String) (pending : List (AgentContentEvent Args))
    (state : PageState Args) : SameOutline state (drainNested callId state pending).1 := by
  induction pending generalizing state with
  | nil => exact .refl state
  | cons e rest ih =>
      unfold drainNested
      cases hrouted : routeToNestedNow state e callId with
      | none => exact ih state
      | some routed =>
          exact (updateNestedTool_same (nestedUpdate_core e) hrouted).trans (ih routed)

theorem drainPendingNested_same (state : PageState Args) (callId : String) :
    SameOutline state (drainPendingNested state callId) := by
  unfold drainPendingNested
  simp only
  split
  · exact .refl state
  · have h := drainNested_same callId (pendingFor state.pendingNested callId) state
    exact ⟨h.nodes, h.streaming, h.liveFrom⟩

/-! #### One event -/

/-- The last agent node takes the event, or a new one is opened. -/
theorem placeEvent_eq {state : PageState Args} {o : Outline Args} (h : Depicts state o)
    (e : AgentContentEvent Args) :
    placeEvent state e =
      if state.streaming && endsInAgent state.nodes then
        state.nodes.modify (state.nodes.length - 1) (fun node => applyToNode node e)
      else state.nodes ++ [createAgentNode e] := by
  have hwritable : isWritableAgentTail state = (state.streaming && endsInAgent state.nodes) := by
    unfold isWritableAgentTail
    cases hlast : state.nodes.getLast? with
    | none => simp [endsInAgent, hlast]
    | some n =>
        cases n with
        | user node => simp [endsInAgent, List.getLast?_map, hlast, ChatNode.isUser]
        | agent id t =>
            have hends : endsInAgent state.nodes = true := by
              simp [endsInAgent, List.getLast?_map, hlast, ChatNode.isUser]
            cases hstreaming : state.streaming with
            | false => simp
            | true => simp [h.live hstreaming, hends]
  unfold placeEvent
  rw [hwritable]
  split
  · rfl
  · rename_i hopen
    cases hstreaming : state.streaming with
    | false => simp
    | true =>
        -- The live index points past the last node: no node is searched.
        have hends : endsInAgent state.nodes = false := by simpa [hstreaming] using hopen
        have hnone : findLiveAgentForEvent state.nodes state.liveFrom e = none := by
          have hempty : (List.range state.nodes.length).filter (fun index =>
              decide (state.nodes.length ≤ index)) = [] := by
            rw [List.filter_eq_nil_iff]
            intro index hindex
            simpa using List.mem_range.mp hindex
          simp [findLiveAgentForEvent, h.live hstreaming, hends, hempty]
        simp [hnone]

theorem coreBlocks_apply (t : PageTranscript Args) (e : AgentContentEvent Args) :
    coreBlocks (applyEventToTranscript t e).1 = applyEventToBlocks (coreBlocks t) e := by
  have hblocks : (applyEventToTranscript t e).1.blocks = applyEventToBlocks t.blocks e := by
    unfold applyEventToTranscript applyEventToBlocks
    cases e.body <;> rfl
  rw [coreBlocks, hblocks, applyEventToBlocks_core]
  rfl

theorem Depicts.message {state : PageState Args} {o : Outline Args} (h : Depicts state o)
    (node : UserNode) :
    Depicts (appendUserMessage state node)
      { nodes := showMessage o.nodes o.streaming node, streaming := true } := by
  have hnodes : (appendUserMessage state node).nodes =
      showMessage state.nodes state.streaming node := appendUserMessage_nodes state node
  refine ⟨?_, ?_, ?_, fun _ => ?_⟩
  · rw [hnodes, ← showMessage_map, h.nodes, showMessage_map, h.streaming]
  · unfold appendUserMessage
    split <;> rfl
  · unfold appendUserMessage
    split <;> exact nofun
  · unfold appendUserMessage
    split
    · rename_i index habsorbed
      have hkinds := isUser_retarget state.nodes index node.targetAgentCode
      have hlength : (retarget state.nodes index node.targetAgentCode).length =
          state.nodes.length := by simpa using congrArg List.length hkinds
      have hends : endsInAgent (retarget state.nodes index node.targetAgentCode) =
          endsInAgent state.nodes := by simp only [endsInAgent, hkinds]
      simp only [hlength, hends]
      cases hstreaming : state.streaming with
      | true => simp [h.live hstreaming]
      | false =>
          rw [hstreaming] at habsorbed
          simp [h.idle hstreaming, not_endsInAgent_of_absorbed habsorbed]
    · simp [endsInAgent_append, ChatNode.isUser]

theorem Depicts.finish {state : PageState Args} {o : Outline Args} (h : Depicts state o) :
    Depicts (finishChatTurn state) { o with streaming := false } :=
  ⟨h.nodes, rfl, fun _ => rfl, nofun⟩

theorem modify_last {α : Type} (f : α → α) (xs : List α) (x : α) :
    (xs ++ [x]).modify ((xs ++ [x]).length - 1) f = xs ++ [f x] := by
  induction xs with
  | nil => rfl
  | cons y ys ih => simpa using ih

/-- The nodes after an output event. -/
theorem Depicts.place {state : PageState Args} {o : Outline Args} (h : Depicts state o)
    (e : AgentContentEvent Args) :
    (placeEvent state e).map (ChatNode.map coreBlocks) =
        (o.place e).map (ChatNode.map foldBlocks) ∧
      endsInAgent (placeEvent state e) = true ∧
      (placeEvent state e).length - 1 =
        if endsInAgent state.nodes && state.streaming then state.nodes.length - 1
        else state.nodes.length := by
  rw [placeEvent_eq h]
  have hends : endsInAgent o.nodes = endsInAgent state.nodes := by
    rw [← endsInAgent_map foldBlocks, ← h.nodes, endsInAgent_map]
  rcases o.place_cases e with ⟨os, id, events, hstreaming, hos, hplace⟩ | ⟨hclosed, hplace⟩
  · have hagent : endsInAgent state.nodes = true :=
      hends ▸ endsInAgent_iff.mpr ⟨os, id, events, hos⟩
    obtain ⟨ns, id', t, hns⟩ := endsInAgent_iff.mp hagent
    have hnodes := h.nodes
    rw [hns, hos, List.map_append, List.map_append] at hnodes
    obtain ⟨hrest, hlast⟩ := List.append_inj' hnodes rfl
    obtain ⟨rfl, hblocks⟩ : id' = id ∧ coreBlocks t = foldBlocks events := by
      simpa [ChatNode.map] using hlast
    have hpage : state.nodes.modify (state.nodes.length - 1) (fun node => applyToNode node e) =
        ns ++ [applyToNode (.agent id' t) e] := by
      rw [hns, modify_last]
    have hnode : (applyToNode (.agent id' t) e).map coreBlocks =
        .agent id' (foldBlocks (events ++ [e])) := by
      have hstamp : coreBlocks (if t.createdAt = "" then { t with createdAt := e.createdAt }
          else t) = coreBlocks t := by
        split <;> rfl
      simp only [applyToNode, ChatNode.map, coreBlocks_apply, hstamp, hblocks, foldBlocks,
        List.foldl_append, List.foldl_cons, List.foldl_nil]
    rw [h.streaming, hstreaming, hagent, hplace, Bool.and_self, if_pos rfl, hpage]
    refine ⟨?_, ?_, ?_⟩
    · rw [List.map_append, List.map_append, hrest, List.map_singleton, hnode]
      rfl
    · exact (endsInAgent_append ns _).trans rfl
    · simp [hns]
  · rw [Bool.and_comm (endsInAgent state.nodes), h.streaming, ← hends, hclosed, hplace]
    refine ⟨?_, ?_, ?_⟩
    · have hnode : (createAgentNode e).map coreBlocks =
          .agent ("agent:" ++ toString e.seq) (foldBlocks [e]) := by
        simp only [createAgentNode, ChatNode.map, coreBlocks_apply]
        rfl
      simp only [Bool.false_eq_true, if_false, List.map_append, h.nodes, List.map_singleton, hnode]
      rfl
    · exact (endsInAgent_append state.nodes _).trans rfl
    · simp

theorem Depicts.output {state : PageState Args} {o : Outline Args} (h : Depicts state o)
    (e : AgentContentEvent Args) :
    Depicts (routeToTopLevel state e) { nodes := o.place e, streaming := !e.isError } := by
  obtain ⟨hnodes, hends, hlength⟩ := h.place e
  have happlied : Depicts { state with
        nodes := placeEvent state e
        streaming := true
        liveFrom := some (state.liveFrom.getD ((placeEvent state e).length - 1)) }
      { nodes := o.place e, streaming := true } := by
    refine ⟨hnodes, rfl, nofun, fun _ => ?_⟩
    simp only [hends, if_true]
    congr 1
    cases hstreaming : state.streaming with
    | false => simp [h.idle hstreaming]
    | true =>
        rw [h.live hstreaming, hlength, hstreaming]
        simp
  unfold routeToTopLevel AgentContentEvent.isError
  cases e.body with
  | error message => exact ⟨hnodes, rfl, fun _ => rfl, nofun⟩
  | toolCall callId name arguments => exact happlied.congr (drainPendingNested_same _ callId)
  | toolResult callId output isError => exact happlied.congr (drainPendingNested_same _ callId)
  | userMessage content displayText targetAgentCode => exact happlied
  | turnBoundary => exact happlied
  | segment kind complete segmentId text => exact happlied
  | subagentTask task => exact happlied

/-- **Step lemma.**  The outline follows the page through every event. -/
theorem Depicts.next {state : PageState Args} {o : Outline Args} (h : Depicts state o)
    (e : AgentContentEvent Args) : Depicts (applyContentEvent state e) (o.next e) := by
  unfold applyContentEvent Outline.next AgentContentEvent.role
  cases hbody : e.body with
  | userMessage content displayText targetAgentCode => exact h.message _
  | turnBoundary =>
      by_cases hnested : e.nestedCallId = ""
      · simp only [hnested, ne_eq, not_true_eq_false, if_false]
        exact h.finish
      · simp only [ne_eq, hnested, not_false_eq_true, if_true]
        exact h
  | _ =>
      by_cases hnested : e.nestedCallId = ""
      · simp only [hnested, ne_eq, not_true_eq_false, if_false]
        exact h.output e
      · simp only [ne_eq, hnested, not_false_eq_true, if_true]
        exact h.congr (routeToNested_same state e e.nestedCallId)

/-- **The page shows the outline.**  Its nodes are the outline's, each agent
node with the blocks that its events fold to. -/
theorem buildChatNodes_outline (events : List (AgentContentEvent Args)) :
    (buildChatNodesFromEvents events).map (ChatNode.map coreBlocks) =
      (outline events).nodes.map (ChatNode.map foldBlocks) := by
  have hfold : ∀ (state : PageState Args) (o : Outline Args), Depicts state o →
      Depicts (events.foldl applyContentEvent state) (events.foldl Outline.next o) := by
    induction events with
    | nil => exact fun _ _ h => h
    | cons e rest ih => exact fun state o h => ih _ _ (h.next e)
  exact (hfold {} {} ⟨rfl, rfl, fun _ => rfl, nofun⟩).nodes

end Refinement

end Workbench
