import Mathlib
import CyberWorkbench.KeptBlocks

/-!
# Which nested events reach their call

The events of a nested run are routed to the tool block of the call that
started it, or wait in a queue until the block is there.  A top-level error
empties the queues, and a call that is taken for another one never gets a
block.

`nested_events_reach_iff` says that nothing else keeps an event from its call.
`routedEvents` records what is routed; a single call is followed from the
events before it (`Waits`) to those after it (`Reached`).
-/

namespace Workbench

section Nested

variable {Args ν : Type}

/-- The event is of a nested run.  A turn boundary of a nested run says
nothing, and is not routed. -/
def AgentContentEvent.isNested (e : AgentContentEvent Args) : Bool :=
  match e.body with
  | .userMessage _ _ _ | .turnBoundary => false
  | _ => decide (e.nestedCallId ≠ "")

/-- The event is of the nested run of a call. -/
def AgentContentEvent.isNestedIn (callId : String) (e : AgentContentEvent Args) : Bool :=
  e.isNested && decide (e.nestedCallId = callId)

/-- The events of the nested run of a call, in order. -/
def nestedEvents (callId : String) (events : List (AgentContentEvent Args)) :
    List (AgentContentEvent Args) :=
  events.filter (AgentContentEvent.isNestedIn callId)

/-- An error of the page's own agent. -/
def AgentContentEvent.isTopLevelError (e : AgentContentEvent Args) : Bool :=
  decide (e.role = .output) && e.isError

/-- The events of the agent node that is written to next. -/
def openSection (before : List (AgentContentEvent Args)) : List (AgentContentEvent Args) :=
  match (outline before).streaming, (outline before).nodes.getLast? with
  | true, some (.agent _ events) => events
  | _, _ => []

variable [StableJson Args]

/-! ### What is routed -/

/-- The events that `drainNested` routes. -/
def drained (callId : String) :
    PageState Args → List (AgentContentEvent Args) → List (AgentContentEvent Args)
  | _, [] => []
  | state, event :: pending =>
      match routeToNestedNow state event callId with
      | some routed => event :: drained callId routed pending
      | none => drained callId state pending

/-- The state in which a top-level event finds the queues. -/
def placed (state : PageState Args) (event : AgentContentEvent Args) : PageState Args :=
  { state with
    nodes := placeEvent state event
    streaming := true
    liveFrom := some (state.liveFrom.getD ((placeEvent state event).length - 1)) }

/-- The events that are routed to a tool block when an event is handled. -/
def routedBy (state : PageState Args) (event : AgentContentEvent Args) :
    List (AgentContentEvent Args) :=
  match event.role with
  | .output =>
      match event.body with
      | .toolCall callId _ _ | .toolResult callId _ _ =>
          drained callId (placed state event) (pendingFor state.pendingNested callId)
      | _ => []
  | .nested =>
      if event.isNested && (routeToNestedNow state event event.nestedCallId).isSome then [event]
      else []
  | .message _ | .boundary => []

/-- All that is routed in a replay, in order. -/
def routedFrom : PageState Args → List (AgentContentEvent Args) → List (AgentContentEvent Args)
  | _, [] => []
  | state, event :: rest => routedBy state event ++ routedFrom (applyContentEvent state event) rest

/-- **A call is reached.**  All the events of its nested run are routed to its
tool block, once and in order, and the block keeps what they leave. -/
structure ReachesCall (events : List (AgentContentEvent Args)) (callId : String) : Prop where
  once : (routedFrom {} events).filter (fun e => decide (e.nestedCallId = callId)) =
    nestedEvents callId events
  block : ∃ item, (pageBlocks (buildChatNodesFromEvents events)).filter
      (TranscriptBlock.hasCallId callId) = [.tool item] ∧
    item = (nestedEvents callId events).foldl (fun tool e => nestedUpdate e tool) item.core

/-- **The condition.**  The agent node that the call comes to has no call of
another id with its signature, and no error follows an event that waits for the
call. -/
structure Awaited (before : List (AgentContentEvent Args)) (c : Call Args) : Prop where
  distinct : ∀ e' ∈ openSection before, ∀ c', e'.call = some c' → c'.callId ≠ "" →
    toolSignature c'.name c'.arguments ≠ toolSignature c.name c.arguments
  kept : before.Pairwise (fun n x => n.isNestedIn c.callId = true → x.isTopLevelError = false)

end Nested

/-! ### What a block keeps of a nested run -/

section Kept

variable {Args ν : Type}

/-- What a tool block keeps of the nested run of its call. -/
def ToolExecutionItem.kept (item : ToolExecutionItem Args ν) :
    Option ν × Option SubagentExecutionItem :=
  (item.nested, item.subagentTask)

def TranscriptBlock.keptFor (callId : String) :
    TranscriptBlock Args ν → Option (Option ν × Option SubagentExecutionItem)
  | .tool item => if item.callId = callId then some item.kept else none
  | _ => none

theorem keptFor_eq_none {callId : String} {b : TranscriptBlock Args ν} :
    b.keptFor callId = none ↔ b.hasCallId callId = false := by
  cases b <;> simp [TranscriptBlock.keptFor, TranscriptBlock.hasCallId]

theorem kept_eq_nil {callId : String} {blocks : List (TranscriptBlock Args ν)} :
    blocks.filterMap (TranscriptBlock.keptFor callId) = [] ↔
      ∀ b ∈ blocks, b.hasCallId callId = false := by
  rw [List.filterMap_eq_nil_iff]
  exact forall₂_congr fun b _ => keptFor_eq_none

/-- One block of a call, and what it keeps. -/
theorem kept_eq_singleton {callId : String} {blocks : List (TranscriptBlock Args ν)}
    {kept : Option ν × Option SubagentExecutionItem} :
    blocks.filterMap (TranscriptBlock.keptFor callId) = [kept] ↔
      ∃ item, blocks.filter (TranscriptBlock.hasCallId callId) = [.tool item] ∧ item.kept = kept := by
  have hfilter : blocks.filterMap (TranscriptBlock.keptFor callId) =
      (blocks.filter (TranscriptBlock.hasCallId callId)).filterMap
        (TranscriptBlock.keptFor callId) := by
    rw [List.filterMap_filter]
    congr 1
    funext b
    cases hb : b.hasCallId callId with
    | false => simp [keptFor_eq_none.mpr hb]
    | true => simp
  rw [hfilter]
  constructor
  · intro h
    have hsome : ∀ b ∈ blocks.filter (TranscriptBlock.hasCallId callId),
        ∃ item, b = .tool item ∧ b.keptFor callId = some item.kept := by
      intro b hb
      have hid := (List.mem_filter.mp hb).2
      cases b with
      | tool item =>
          have hid : item.callId = callId := by simpa [TranscriptBlock.hasCallId] using hid
          exact ⟨item, rfl, if_pos hid⟩
      | _ => simp [TranscriptBlock.hasCallId] at hid
    rcases hlist : blocks.filter (TranscriptBlock.hasCallId callId) with _ | ⟨b, _ | ⟨b', rest⟩⟩
    · rw [hlist] at h
      cases h
    · rw [hlist] at h hsome
      obtain ⟨item, rfl, hkept⟩ := hsome b List.mem_cons_self
      refine ⟨item, rfl, ?_⟩
      simpa [hkept] using h
    · rw [hlist] at h hsome
      obtain ⟨item, rfl, hkept⟩ := hsome b List.mem_cons_self
      obtain ⟨item', rfl, hkept'⟩ := hsome b' (List.mem_cons_of_mem _ List.mem_cons_self)
      simp [hkept, hkept'] at h
  · rintro ⟨item, hitem, rfl⟩
    have hid : (TranscriptBlock.tool item : TranscriptBlock Args ν).hasCallId callId = true :=
      (List.mem_filter.mp (hitem ▸ List.mem_singleton_self _)).2
    have hid : item.callId = callId := by simpa [TranscriptBlock.hasCallId] using hid
    rw [hitem]
    simp [TranscriptBlock.keptFor, hid]

variable [StableJson Args]

omit [StableJson Args] in
/-- What is read off tool blocks alone. -/
theorem filterMap_of_items {β : Type} {v : TranscriptBlock Args ν → Option β}
    (hv : ∀ b, b.item = none → v b = none) {blocks blocks' : List (TranscriptBlock Args ν)}
    (h : blocks'.filterMap TranscriptBlock.item = blocks.filterMap TranscriptBlock.item) :
    blocks'.filterMap v = blocks.filterMap v := by
  have hthrough : ∀ l : List (TranscriptBlock Args ν), l.filterMap v =
      (l.filterMap TranscriptBlock.item).filterMap (fun item => v (.tool item)) := by
    intro l
    rw [List.filterMap_filterMap]
    congr 1
    funext b
    cases b with
    | tool item => rfl
    | _ => exact hv _ rfl
  rw [hthrough, h, ← hthrough]

omit [StableJson Args] in
/-- What an update at a tool block leaves as it is. -/
theorem filterMap_updateToolAt {β : Type} (v : TranscriptBlock Args ν → Option β)
    (blocks : List (TranscriptBlock Args ν)) (index : Nat)
    (update : ToolExecutionItem Args ν → ToolExecutionItem Args ν)
    (h : ∀ item, v (.tool (update item)) = v (.tool item)) :
    (updateToolAt blocks index update).filterMap v = blocks.filterMap v := by
  unfold updateToolAt
  split
  · rename_i item hitem
    refine filterMap_set_same _ _ _ _ (fun b hb => ?_)
    obtain rfl := Option.some.inj (hitem.symm.trans hb)
    exact (h item).symm
  · rfl

omit [StableJson Args] in
theorem updateToolAt_middle (before after : List (TranscriptBlock Args ν))
    (item : ToolExecutionItem Args ν) (update : ToolExecutionItem Args ν → ToolExecutionItem Args ν) :
    updateToolAt (before ++ .tool item :: after) before.length update =
      before ++ .tool (update item) :: after := by
  unfold updateToolAt
  rw [List.getElem?_append_right (Nat.le_refl _), Nat.sub_self, List.getElem?_cons_zero]
  simp

/-- A block without an id keeps nothing: nothing is routed to it. -/
def TranscriptBlock.Clean (b : TranscriptBlock Args ν) : Prop :=
  ∀ kept, b.keptFor "" = some kept → kept = (none, none)

section Apply

variable {blocks : List (TranscriptBlock Args ν)} {e : AgentContentEvent Args} {callId : String}

theorem findStreamingBlockIndex_some {kind : SegmentKind} {segmentId : String} {index : Nat}
    (h : findStreamingBlockIndex blocks kind segmentId = some index) :
    ∃ b, blocks[index]? = some b ∧ b.item = none := by
  have hfound := List.find?_some h
  obtain ⟨b, hb, hsegment⟩ := (Option.any_eq_true _ _).mp hfound
  refine ⟨b, hb, ?_⟩
  cases b <;> simp [TranscriptBlock.isSegment] at hsegment <;> rfl

/-- Streamed text is in no tool block. -/
theorem items_upsertStreamingBlock (blocks : List (TranscriptBlock Args ν)) (kind : SegmentKind)
    (segmentId text : String) (complete : Option Bool) :
    (upsertStreamingBlock blocks kind segmentId text complete).filterMap TranscriptBlock.item =
      blocks.filterMap TranscriptBlock.item := by
  unfold upsertStreamingBlock
  split
  · split
    · rfl
    · simp [TranscriptBlock.item]
  · rename_i index hindex
    obtain ⟨b, hb, hnone⟩ := findStreamingBlockIndex_some hindex
    split
    · obtain ⟨hlt, hget⟩ := List.getElem?_eq_some_iff.mp hb
      rw [List.eraseIdx_eq_take_drop_succ]
      conv => rhs; rw [← List.take_append_drop index blocks, List.drop_eq_getElem_cons hlt]
      rw [List.filterMap_append, List.filterMap_append, List.filterMap_cons, hget, hnone]
    · split
      · split
        · rfl
        · refine filterMap_set_same _ _ _ _ (fun b' hb' => ?_)
          obtain rfl := Option.some.inj (hb.symm.trans hb')
          exact hnone
      · rfl

/-- An event that is neither a call nor a result leaves the tool blocks. -/
theorem items_apply (hc : e.call = none) (hr : e.result = none) :
    (applyEventToBlocks blocks e).filterMap TranscriptBlock.item =
      blocks.filterMap TranscriptBlock.item := by
  cases hs : e.segment with
  | none => exact (apply_other blocks hs hc hr).2
  | some segment =>
      simp only [applyEventToBlocks, e.body_of_segment hs]
      exact items_upsertStreamingBlock _ _ _ _ _

omit [StableJson Args] in
theorem keptFor_of_item (callId : String) (b : TranscriptBlock Args ν) (h : b.item = none) :
    b.keptFor callId = none := by
  cases b <;> first | rfl | cases h

/-- Another event leaves what the block of a call keeps. -/
theorem kept_apply_other (hid : callId ≠ "") (hother : ∀ c, e.call = some c → c.callId ≠ callId) :
    (applyEventToBlocks blocks e).filterMap (TranscriptBlock.keptFor callId) =
      blocks.filterMap (TranscriptBlock.keptFor callId) := by
  cases hc : e.call with
  | none =>
      cases hr : e.result with
      | none => exact filterMap_of_items (keptFor_of_item callId) (items_apply hc hr)
      | some r =>
          rw [apply_result blocks hr]
          split
          · rfl
          · exact filterMap_updateToolAt _ blocks _ _ (fun item => rfl)
  | some c =>
      obtain ⟨hbody, hname⟩ := e.body_of_call hc
      have hne := hother c hc
      simp only [applyEventToBlocks, hbody, upsertToolCall, if_neg hname]
      split
      · simp [TranscriptBlock.keptFor, hne]
      · refine filterMap_updateToolAt _ blocks _ _ (fun item => ?_)
        by_cases hempty : item.callId = ""
        · simp [TranscriptBlock.keptFor, hempty, hne, hid.symm]
        · simp only [TranscriptBlock.keptFor, if_neg hempty]
          rfl

/-- The block of a new call. -/
def Call.item (c : Call Args) : ToolExecutionItem Args ν :=
  { callId := c.callId, name := c.name, arguments := c.arguments }

/-- A block that is taken for the call's. -/
def Call.over (c : Call Args) (item : ToolExecutionItem Args ν) : ToolExecutionItem Args ν :=
  { item with
    callId := if item.callId = "" then c.callId else item.callId
    name := c.name
    arguments := c.arguments }

def Call.signature (c : Call Args) : String := toolSignature c.name c.arguments

/-- A call under a new id is pushed, or taken for the first with its
signature. -/
theorem apply_call_cases {c : Call Args} (he : e.call = some c)
    (hfresh : ∀ b ∈ blocks, b.hasCallId c.callId = false) :
    (blocks.find? (TranscriptBlock.hasSignature c.signature) = none ∧
        applyEventToBlocks blocks e = blocks ++ [.tool c.item]) ∨
      ∃ before item after, blocks = before ++ .tool item :: after ∧
        before.find? (TranscriptBlock.hasSignature c.signature) = none ∧
        toolSignature item.name item.arguments = c.signature ∧
        applyEventToBlocks blocks e = before ++ .tool (c.over item) :: after := by
  rw [apply_call blocks he hfresh]
  cases hindex : blocks.findIdx? (TranscriptBlock.hasSignature (toolSignature c.name c.arguments)) with
  | none =>
      refine .inl ⟨List.find?_eq_none.mpr fun b hb => ?_, rfl⟩
      rw [Bool.not_eq_true]
      exact List.findIdx?_eq_none_iff.mp hindex b hb
  | some index =>
      obtain ⟨hlt, hsignature, hbefore⟩ := List.findIdx?_eq_some_iff_getElem.mp hindex
      obtain ⟨before, b, after, rfl, rfl⟩ : ∃ before b after,
          blocks = before ++ b :: after ∧ before.length = index :=
        ⟨blocks.take index, blocks[index], blocks.drop (index + 1), by
          rw [← List.drop_eq_getElem_cons hlt, List.take_append_drop],
          List.length_take_of_le hlt.le⟩
      rw [List.getElem_append_right (Nat.le_refl _)] at hsignature
      simp only [Nat.sub_self, List.getElem_cons_zero] at hsignature
      obtain ⟨item, rfl⟩ : ∃ item, b = .tool item := by
        cases b <;> simp [TranscriptBlock.hasSignature] at hsignature
        exact ⟨_, rfl⟩
      refine .inr ⟨before, item, after, rfl, List.find?_eq_none.mpr fun x hx => ?_, ?_, ?_⟩
      · obtain ⟨i, hi, rfl⟩ := List.getElem_of_mem hx
        have := hbefore i hi
        rwa [List.getElem_append_left hi] at this
      · exact of_decide_eq_true hsignature
      · exact updateToolAt_middle before after item c.over

/-! ### Signatures in a section -/

/-- The signature is free, or the block that has it is of a call without id. -/
def signatureOpen (signature : String) (blocks : List (TranscriptBlock Args ν)) : Bool :=
  (blocks.find? (TranscriptBlock.hasSignature signature)).all (TranscriptBlock.hasCallId "")

theorem signatureOpen_middle (before after : List (TranscriptBlock Args ν))
    (item : ToolExecutionItem Args ν)
    (hbefore : before.find? (TranscriptBlock.hasSignature
      (toolSignature item.name item.arguments)) = none) :
    signatureOpen (toolSignature item.name item.arguments) (before ++ .tool item :: after) =
      decide (item.callId = "") := by
  unfold signatureOpen
  rw [List.find?_append, hbefore, Option.none_or,
    List.find?_cons_of_pos (by simp [TranscriptBlock.hasSignature])]
  rfl

/-- The call itself gets a block that keeps nothing, unless it is taken for
another call. -/
theorem kept_apply_call {c : Call Args} (he : e.call = some c)
    (hfresh : ∀ b ∈ blocks, b.hasCallId c.callId = false) (hclean : ∀ b ∈ blocks, b.Clean) :
    (applyEventToBlocks blocks e).filterMap (TranscriptBlock.keptFor c.callId) =
      if signatureOpen c.signature blocks then [(none, none)] else [] := by
  have hnone := kept_eq_nil.mpr hfresh
  rcases apply_call_cases he hfresh with ⟨hfind, happly⟩ |
    ⟨before, item, after, rfl, hbefore, hsignature, happly⟩
  · rw [happly, List.filterMap_append, hnone]
    simp [signatureOpen, hfind, TranscriptBlock.keptFor, ToolExecutionItem.kept, Call.item]
  · have hmem : TranscriptBlock.tool item ∈ before ++ .tool item :: after :=
      List.mem_append_right _ List.mem_cons_self
    have hafter : after.filterMap (TranscriptBlock.keptFor c.callId) = [] := by
      rw [kept_eq_nil]
      exact fun b hb => hfresh b (List.mem_append_right _ (List.mem_cons_of_mem _ hb))
    have hhead : before.filterMap (TranscriptBlock.keptFor c.callId) = [] := by
      rw [kept_eq_nil]
      exact fun b hb => hfresh b (List.mem_append_left _ hb)
    rw [← hsignature] at hbefore
    rw [happly, ← hsignature, signatureOpen_middle before after item hbefore, List.filterMap_append, hhead,
      List.filterMap_cons, hafter]
    by_cases hempty : item.callId = ""
    · have hkept : item.kept = (none, none) :=
        hclean _ hmem item.kept (by simp [TranscriptBlock.keptFor, hempty])
      have hover : (c.over item).kept = item.kept := rfl
      simp [TranscriptBlock.keptFor, Call.over, hempty] at hover ⊢
      exact hover.trans hkept
    · have hne : item.callId ≠ c.callId := by
        simpa [TranscriptBlock.hasCallId] using hfresh _ hmem
      simp [TranscriptBlock.keptFor, Call.over, hempty, hne]

/-- Events of the page's own agent keep the blocks clean. -/
theorem clean_apply (hclean : ∀ b ∈ blocks, b.Clean) :
    ∀ b ∈ applyEventToBlocks blocks e, b.Clean := by
  have hset : ∀ (index : Nat) (b : TranscriptBlock Args ν), b.Clean → ∀ b' ∈ blocks.set index b,
      b'.Clean := fun index b hb b' hb' => by
    rcases List.mem_or_eq_of_mem_set hb' with hold | rfl
    · exact hclean b' hold
    · exact hb
  have hother : ∀ b : TranscriptBlock Args ν, b.keptFor "" = none → b.Clean :=
    fun b hb kept hkept => by
      rw [hb] at hkept
      cases hkept
  have hpush : ∀ b : TranscriptBlock Args ν, b.Clean → ∀ b' ∈ blocks ++ [b], b'.Clean :=
    fun b hb b' hb' => by
      rcases List.mem_append.mp hb' with hold | hnew
      · exact hclean b' hold
      · exact List.mem_singleton.mp hnew ▸ hb
  have hupdate : ∀ (index : Nat) (update : ToolExecutionItem Args ν → ToolExecutionItem Args ν),
      (∀ item, (update item).kept = item.kept ∧ ((update item).callId = "" → item.callId = "")) →
        ∀ b ∈ updateToolAt blocks index update, b.Clean := by
    intro index update hsame
    unfold updateToolAt
    split
    · rename_i item hitem
      refine hset index _ (fun kept hkept => ?_)
      simp only [TranscriptBlock.keptFor] at hkept
      split at hkept
      · rename_i hempty
        refine hclean _ (List.mem_of_getElem? hitem) kept ?_
        rw [← hkept, (hsame item).1]
        simp [TranscriptBlock.keptFor, (hsame item).2 hempty]
      · cases hkept
    · exact hclean
  unfold applyEventToBlocks
  cases hbody : e.body with
  | userMessage content displayText targetAgentCode => exact hclean
  | turnBoundary => exact hclean
  | segment kind complete segmentId text =>
      simp only [upsertStreamingBlock]
      split
      · split
        · exact hclean
        · exact hpush _ (hother _ rfl)
      · split
        · exact fun b hb => hclean b (List.mem_of_mem_eraseIdx hb)
        · split
          · split
            · exact hclean
            · exact hset _ _ (hother _ rfl)
          · exact hclean
  | toolCall callId name arguments =>
      simp only [upsertToolCall]
      split
      · exact hclean
      · split
        · refine hpush _ (fun kept hkept => ?_)
          simp only [TranscriptBlock.keptFor] at hkept
          split at hkept
          · exact (Option.some.inj hkept).symm
          · cases hkept
        · refine hupdate _ _ (fun item => ⟨rfl, fun hempty => ?_⟩)
          by_cases hid : item.callId = ""
          · exact hid
          · simp [hid] at hempty
  | toolResult callId output isError =>
      simp only [upsertToolResult]
      split
      · exact hclean
      · exact hupdate _ _ (fun item => ⟨rfl, id⟩)
  | subagentTask task =>
      simp only [upsertSubagentTask]
      split
      · exact hpush _ (hother _ rfl)
      · exact hset _ _ (hother _ rfl)
  | error message => exact hpush _ (hother _ rfl)

/-- The calls of a section, as its blocks have them. -/
structure NamedBy (seen : List (AgentContentEvent Args)) (blocks : List (TranscriptBlock Args ν)) :
    Prop where
  ids : ∀ b ∈ blocks, ∀ callId, b.hasCallId callId = true →
    ∃ e ∈ seen, ∃ c, e.call = some c ∧ c.callId = callId
  signatures : ∀ signature, signatureOpen signature blocks = true ↔
    ∀ e ∈ seen, ∀ c, e.call = some c → c.callId ≠ "" → c.signature ≠ signature

/-- What the search for a signature sees of a tool block. -/
def TranscriptBlock.signed (b : TranscriptBlock Args ν) : Option (String × String) :=
  b.item.map fun item => (toolSignature item.name item.arguments, item.callId)

theorem signatureOpen_signed (signature : String) (blocks : List (TranscriptBlock Args ν)) :
    signatureOpen signature blocks =
      ((blocks.filterMap TranscriptBlock.signed).find? (fun entry => decide (entry.1 = signature))).all
        (fun entry => decide (entry.2 = "")) := by
  unfold signatureOpen
  induction blocks with
  | nil => rfl
  | cons b rest ih =>
      cases b with
      | tool item =>
          by_cases hsame : toolSignature item.name item.arguments = signature
          · simp [TranscriptBlock.signed, TranscriptBlock.item, TranscriptBlock.hasSignature, hsame,
              TranscriptBlock.hasCallId]
          · simpa [TranscriptBlock.signed, TranscriptBlock.item, TranscriptBlock.hasSignature, hsame]
              using ih
      | _ => simpa [TranscriptBlock.signed, TranscriptBlock.item, TranscriptBlock.hasSignature] using ih

theorem hasCallId_signed {callId : String} {b : TranscriptBlock Args ν} :
    b.hasCallId callId = true ↔ ∃ signature, b.signed = some (signature, callId) := by
  cases b <;> simp [TranscriptBlock.hasCallId, TranscriptBlock.signed, TranscriptBlock.item]

/-- An event after which the tool blocks have the same signatures and ids. -/
theorem NamedBy.same {seen : List (AgentContentEvent Args)}
    {blocks' : List (TranscriptBlock Args ν)} (h : NamedBy seen blocks) (hc : e.call = none)
    (hsigned : blocks'.filterMap TranscriptBlock.signed = blocks.filterMap TranscriptBlock.signed) :
    NamedBy (seen ++ [e]) blocks' := by
  refine ⟨fun b hb callId hid => ?_, fun signature => ?_⟩
  · obtain ⟨signature, hentry⟩ := hasCallId_signed.mp hid
    have hmem : (signature, callId) ∈ blocks.filterMap TranscriptBlock.signed :=
      hsigned ▸ List.mem_filterMap.mpr ⟨b, hb, hentry⟩
    obtain ⟨b', hb', hentry'⟩ := List.mem_filterMap.mp hmem
    obtain ⟨e', he', hc'⟩ := h.ids b' hb' callId (hasCallId_signed.mpr ⟨signature, hentry'⟩)
    exact ⟨e', List.mem_append_left _ he', hc'⟩
  · rw [signatureOpen_signed, hsigned, ← signatureOpen_signed, h.signatures signature]
    constructor
    · intro hseen e' he' c hc'
      rcases List.mem_append.mp he' with hold | hnew
      · exact hseen e' hold c hc'
      · obtain rfl := List.mem_singleton.mp hnew
        rw [hc] at hc'
        cases hc'
    · exact fun hseen e' he' => hseen e' (List.mem_append_left _ he')

/-- A call under a new id takes its signature, unless another call has it. -/
theorem NamedBy.call {seen : List (AgentContentEvent Args)} {c : Call Args}
    (h : NamedBy seen blocks) (hc : e.call = some c)
    (hfresh : ∀ b ∈ blocks, b.hasCallId c.callId = false) :
    NamedBy (seen ++ [e]) (applyEventToBlocks blocks e) := by
  have hseen : ∀ signature, (∀ e' ∈ seen ++ [e], ∀ c', e'.call = some c' → c'.callId ≠ "" →
      c'.signature ≠ signature) ↔
      signatureOpen signature blocks = true ∧ (c.callId ≠ "" → c.signature ≠ signature) := by
    intro signature
    rw [h.signatures signature]
    constructor
    · exact fun hall => ⟨fun e' he' => hall e' (List.mem_append_left _ he'),
        hall e (List.mem_append_right _ (List.mem_singleton_self e)) c hc⟩
    · rintro ⟨hold, hnew⟩ e' he' c' hc'
      rcases List.mem_append.mp he' with he' | he'
      · exact hold e' he' c' hc'
      · obtain rfl := List.mem_singleton.mp he'
        obtain rfl := Option.some.inj (hc.symm.trans hc')
        exact hnew
  have hids : ∀ b ∈ blocks, ∀ callId, b.hasCallId callId = true →
      ∃ e' ∈ seen ++ [e], ∃ c', e'.call = some c' ∧ c'.callId = callId := fun b hb callId hid => by
    obtain ⟨e', he', hc'⟩ := h.ids b hb callId hid
    exact ⟨e', List.mem_append_left _ he', hc'⟩
  have hself : ∃ e' ∈ seen ++ [e], ∃ c', e'.call = some c' ∧ c'.callId = c.callId :=
    ⟨e, List.mem_append_right _ (List.mem_singleton_self e), c, hc, rfl⟩
  rcases apply_call_cases hc hfresh with ⟨hfind, happly⟩ |
    ⟨before, item, after, rfl, hbefore, hsignature, happly⟩
  · rw [happly]
    refine ⟨fun b hb callId hid => ?_, fun signature => ?_⟩
    · rcases List.mem_append.mp hb with hold | hnew
      · exact hids b hold callId hid
      · obtain rfl := List.mem_singleton.mp hnew
        have hid : c.callId = callId := of_decide_eq_true hid
        exact hid ▸ hself
    · rw [hseen signature]
      by_cases hsame : c.signature = signature
      · subst hsame
        have hnew := signatureOpen_middle blocks [] c.item hfind
        have hold : signatureOpen c.signature blocks = true := by simp [signatureOpen, hfind]
        have hitem : toolSignature (c.item : ToolExecutionItem Args ν).name
            (c.item : ToolExecutionItem Args ν).arguments = c.signature := rfl
        rw [hitem] at hnew
        rw [hnew, hold, decide_eq_true_eq]
        exact ⟨fun hempty => ⟨rfl, fun hne => absurd hempty hne⟩,
          fun hnot => Decidable.byContradiction fun hne => hnot.2 hne rfl⟩
      · have hskip : signatureOpen signature (blocks ++ [.tool c.item]) =
            signatureOpen signature blocks := by
          have hlast : [(TranscriptBlock.tool c.item : TranscriptBlock Args ν)].find?
              (TranscriptBlock.hasSignature signature) = none := by
            rw [List.find?_singleton, if_neg]
            exact fun hfound => hsame (of_decide_eq_true hfound)
          unfold signatureOpen
          rw [List.find?_append, hlast, Option.or_none]
        rw [hskip]
        exact ⟨fun hopen => ⟨hopen, fun _ => hsame⟩, And.left⟩
  · rw [happly]
    have hmem : TranscriptBlock.tool item ∈ before ++ .tool item :: after :=
      List.mem_append_right _ List.mem_cons_self
    refine ⟨fun b hb callId hid => ?_, fun signature => ?_⟩
    · rcases List.mem_append.mp hb with hold | hrest
      · exact hids b (List.mem_append_left _ hold) callId hid
      · rcases List.mem_cons.mp hrest with rfl | hold
        · have hid : (c.over item).callId = callId := by
            simpa [TranscriptBlock.hasCallId] using hid
          by_cases hempty : item.callId = ""
          · have hover : (c.over item).callId = c.callId := if_pos hempty
            exact (hover.symm.trans hid) ▸ hself
          · have hover : (c.over item).callId = item.callId := if_neg hempty
            exact hids _ hmem callId (by simpa [TranscriptBlock.hasCallId] using hover.symm.trans hid)
        · exact hids b (List.mem_append_right _ (List.mem_cons_of_mem _ hold)) callId hid
    · rw [hseen signature]
      by_cases hsame : c.signature = signature
      · subst hsame
        have hover : toolSignature (c.over item).name (c.over item).arguments = c.signature := rfl
        have hnew := signatureOpen_middle before after (c.over item) hbefore
        have hold := signatureOpen_middle before after item (hsignature ▸ hbefore)
        rw [hover] at hnew
        rw [hsignature] at hold
        rw [hnew, hold]
        by_cases hempty : item.callId = "" <;> simp [Call.over, hempty]
      · have hskip : ∀ item' : ToolExecutionItem Args ν,
            toolSignature item'.name item'.arguments = c.signature →
            signatureOpen signature (before ++ .tool item' :: after) =
              signatureOpen signature (before ++ after) := by
          intro item' hitem'
          unfold signatureOpen
          rw [List.find?_append, List.find?_append, List.find?_cons_of_neg]
          simpa [TranscriptBlock.hasSignature, hitem'] using hsame
        rw [hskip _ rfl, hskip item hsignature]
        exact ⟨fun hopen => ⟨hopen, fun _ => hsame⟩, And.left⟩

/-- An event with a new key. -/
theorem NamedBy.apply {seen : List (AgentContentEvent Args)} (h : NamedBy seen blocks)
    (hnew : ∀ e' ∈ seen, ¬SameKey e' e) : NamedBy (seen ++ [e]) (applyEventToBlocks blocks e) := by
  cases hc : e.call with
  | some c =>
      refine h.call hc (fun b hb => ?_)
      rw [Bool.eq_false_iff]
      intro hid
      obtain ⟨e', he', c', hc', hsame⟩ := h.ids b hb c.callId hid
      exact hnew e' he' (.inr (.inl ⟨c', c, hc', hc, hsame⟩))
  | none =>
      refine h.same hc ?_
      cases hr : e.result with
      | none =>
          refine filterMap_of_items (fun b hb => ?_) (items_apply hc hr)
          rw [TranscriptBlock.signed, hb]
          rfl
      | some r =>
          rw [apply_result blocks hr]
          split
          · rfl
          · exact filterMap_updateToolAt _ blocks _ _ (fun item => rfl)

end Apply

/-- The blocks of a section. -/
theorem namedBy_foldBlocks [StableJson Args] (g : List (AgentContentEvent Args))
    (hkeys : g.Pairwise (fun e' e => ¬SameKey e' e)) : NamedBy g (foldBlocks g) := by
  induction g using List.reverseRecOn with
  | nil => exact ⟨(fun b hb => by cases hb), fun signature => ⟨fun _ e he => (by cases he), fun _ => rfl⟩⟩
  | append_singleton g e ih =>
      obtain ⟨hold, -, hnew⟩ := List.pairwise_append.mp hkeys
      have happly := (ih hold).apply (fun e' he' => hnew e' he' e (List.mem_singleton_self e))
      have hfold : foldBlocks (g ++ [e]) = applyEventToBlocks (foldBlocks g) e := by
        unfold foldBlocks
        rw [List.foldl_append]
        rfl
      rw [hfold]
      exact happly

end Kept

/-! ### The page -/

section Page

variable {Args : Type} [StableJson Args]

theorem pageBlocks_append (nodes nodes' : List (ChatNode (PageTranscript Args))) :
    pageBlocks (nodes ++ nodes') = pageBlocks nodes ++ pageBlocks nodes' := by
  simp [pageBlocks]

theorem pageBlocks_agent (id : String) (t : PageTranscript Args) :
    pageBlocks [.agent id t] = t.blocks := by
  simp [pageBlocks, ChatNode.transcript]

theorem findToolBlockIndex_callId (blocks : List (TranscriptBlock Args (NestedTranscript Args)))
    (callId : String) : findToolBlockIndex blocks callId "" none =
      blocks.findIdx? (TranscriptBlock.hasCallId callId) := by
  unfold findToolBlockIndex
  cases blocks.findIdx? (TranscriptBlock.hasCallId callId) <;> rfl

/-- **Routing.**  An update finds no block with the call's id, or changes one
that has it. -/
theorem updateNestedTool_cases (state : PageState Args) (callId : String)
    (update : ToolExecutionItem Args (NestedTranscript Args) →
      ToolExecutionItem Args (NestedTranscript Args)) :
    (updateNestedTool state callId update = none ∧
        ∀ b ∈ pageBlocks state.nodes, b.hasCallId callId = false) ∨
      ∃ nodes before item after,
        updateNestedTool state callId update = some { state with nodes := nodes } ∧
        item.callId = callId ∧ pageBlocks state.nodes = before ++ .tool item :: after ∧
        pageBlocks nodes = before ++ .tool (update item) :: after := by
  unfold updateNestedTool
  cases hfind : (List.range state.nodes.length).reverse.find? (fun index =>
      ((state.nodes[index]?).bind (ChatNode.toolBlockIndex · callId)).isSome) with
  | none =>
      refine .inl ⟨rfl, fun b hb => ?_⟩
      obtain ⟨blocks, hblocks, hb⟩ := List.mem_flatten.mp hb
      obtain ⟨t, ht, rfl⟩ := List.mem_map.mp hblocks
      obtain ⟨n, hn, hnt⟩ := List.mem_filterMap.mp ht
      obtain ⟨index, hindex, hget⟩ := List.getElem_of_mem hn
      have hnone := List.find?_eq_none.mp hfind index (by simpa using hindex)
      rw [List.getElem?_eq_getElem hindex, hget] at hnone
      cases n with
      | user node => cases hnt
      | agent id t' =>
          obtain rfl := Option.some.inj hnt
          simp only [Option.bind_some, ChatNode.toolBlockIndex, findToolBlockIndex_callId,
            Bool.not_eq_true, Option.isSome_eq_false_iff, Option.isNone_iff_eq_none] at hnone
          exact List.findIdx?_eq_none_iff.mp hnone b hb
  | some index =>
      have hsome := List.find?_some hfind
      obtain ⟨n, hn, hblock⟩ : ∃ n, state.nodes[index]? = some n ∧
          (n.toolBlockIndex callId).isSome = true := by
        cases hn : state.nodes[index]? with
        | none => rw [hn] at hsome; cases hsome
        | some n => exact ⟨n, rfl, by simpa [hn] using hsome⟩
      cases n with
      | user node => cases hblock
      | agent id t =>
          obtain ⟨blockIndex, hblockIndex⟩ := Option.isSome_iff_exists.mp hblock
          simp only [ChatNode.toolBlockIndex] at hblockIndex
          obtain ⟨hlt, hget⟩ := List.getElem?_eq_some_iff.mp hn
          obtain ⟨pre, post, hnodes, rfl⟩ : ∃ pre post,
              state.nodes = pre ++ .agent id t :: post ∧ pre.length = index :=
            ⟨state.nodes.take index, state.nodes.drop (index + 1), by
              rw [← hget, ← List.drop_eq_getElem_cons hlt, List.take_append_drop],
              List.length_take_of_le hlt.le⟩
          have hindex := hblockIndex
          rw [findToolBlockIndex_callId] at hindex
          obtain ⟨hblt, hid, -⟩ := List.findIdx?_eq_some_iff_getElem.mp hindex
          obtain ⟨before, b, after, hblocks, rfl⟩ : ∃ before b after,
              t.blocks = before ++ b :: after ∧ before.length = blockIndex :=
            ⟨t.blocks.take blockIndex, t.blocks[blockIndex], t.blocks.drop (blockIndex + 1), by
              rw [← List.drop_eq_getElem_cons hblt, List.take_append_drop],
              List.length_take_of_le hblt.le⟩
          have hb : b.hasCallId callId = true := by
            simpa [hblocks, List.getElem_append_right] using hid
          obtain ⟨item, rfl⟩ : ∃ item, b = .tool item := by
            cases b <;> simp [TranscriptBlock.hasCallId] at hb
            exact ⟨_, rfl⟩
          refine .inr ⟨pre ++ .agent id { t with blocks := before ++ .tool (update item) :: after } ::
            post, pageBlocks pre ++ before, item, after ++ pageBlocks post, ?_, of_decide_eq_true hb,
            ?_, ?_⟩
          · simp only [hn, hblockIndex, Option.map_some]
            rw [hblocks, updateToolAt_middle, hnodes]
            simp
          · rw [hnodes, ← List.singleton_append, pageBlocks_append, pageBlocks_append,
              pageBlocks_agent, hblocks]
            simp
          · rw [← List.singleton_append, pageBlocks_append, pageBlocks_append, pageBlocks_agent]
            simp

/-- What the tool blocks of a call keep. -/
def keptOn (callId : String) (nodes : List (ChatNode (PageTranscript Args))) :
    List (Option (NestedTranscript Args) × Option SubagentExecutionItem) :=
  (pageBlocks nodes).filterMap (TranscriptBlock.keptFor callId)

/-- `nestedUpdate`, on what a tool block keeps. -/
def keepNested (kept : Option (NestedTranscript Args) × Option SubagentExecutionItem)
    (e : AgentContentEvent Args) : Option (NestedTranscript Args) × Option SubagentExecutionItem :=
  match e.body with
  | .subagentTask task => (kept.1, some (subagentExecutionItemFromEvent e task))
  | _ =>
      let nested := kept.1.getD { createdAt := e.createdAt }
      let nested := if nested.createdAt = "" then { nested with createdAt := e.createdAt } else nested
      (some (applyEventToTranscript nested e).1, kept.2)

theorem nestedUpdate_kept (e : AgentContentEvent Args)
    (item : ToolExecutionItem Args (NestedTranscript Args)) :
    (nestedUpdate e item).kept = keepNested item.kept e ∧ (nestedUpdate e item).callId = item.callId := by
  unfold nestedUpdate keepNested
  cases e.body <;> exact ⟨rfl, rfl⟩

/-- An event of a nested run finds no block of its call, or changes what one
keeps. -/
theorem route_cases (state : PageState Args) (e : AgentContentEvent Args) (callId : String) :
    (routeToNestedNow state e callId = none ∧ keptOn callId state.nodes = []) ∨
      ∃ nodes, routeToNestedNow state e callId = some { state with nodes := nodes } ∧
        keptOn callId state.nodes ≠ [] ∧
        (∀ kept, keptOn callId state.nodes = [kept] → keptOn callId nodes = [keepNested kept e]) ∧
        ∀ other, other ≠ callId → keptOn other nodes = keptOn other state.nodes := by
  rcases updateNestedTool_cases state callId (nestedUpdate e) with ⟨hnone, habsent⟩ |
    ⟨nodes, before, item, after, hsome, hid, hblocks, hblocks'⟩
  · exact .inl ⟨hnone, kept_eq_nil.mpr habsent⟩
  · obtain ⟨hkept, hsame⟩ := nestedUpdate_kept e item
    have hhere : (TranscriptBlock.tool item).keptFor callId = some item.kept := if_pos hid
    have hhere' : (TranscriptBlock.tool (nestedUpdate e item)).keptFor callId =
        some (keepNested item.kept e) := by
      rw [← hkept]
      exact if_pos (hsame.trans hid)
    refine .inr ⟨nodes, hsome, ?_, fun kept hone => ?_, fun other hother => ?_⟩
    · unfold keptOn
      rw [hblocks, List.filterMap_append, List.filterMap_cons, hhere]
      simp
    · unfold keptOn at hone ⊢
      rw [hblocks, List.filterMap_append, List.filterMap_cons, hhere,
        List.append_eq_singleton_iff] at hone
      rcases hone with ⟨hbefore, hrest⟩ | ⟨-, hrest⟩
      · obtain ⟨rfl, hafter⟩ := List.cons.inj hrest
        rw [hblocks', List.filterMap_append, List.filterMap_cons, hhere', hbefore, hafter]
        rfl
      · cases hrest
    · have hnot : ∀ tool : ToolExecutionItem Args (NestedTranscript Args), tool.callId = callId →
          (TranscriptBlock.tool tool).keptFor other = none :=
        fun tool htool => if_neg fun heq => hother (heq.symm.trans htool)
      unfold keptOn
      rw [hblocks, hblocks', List.filterMap_append, List.filterMap_append, List.filterMap_cons,
        List.filterMap_cons, hnot item hid, hnot _ (hsame.trans hid)]

/-- **Draining.**  Without a block for the call nothing is routed; with one,
everything is. -/
theorem drain_spec (callId : String) (pending : List (AgentContentEvent Args))
    (state : PageState Args) : ∃ nodes, (drainNested callId state pending).1 = { state with nodes := nodes } ∧
      (∀ other, other ≠ callId → keptOn other nodes = keptOn other state.nodes) ∧
      (keptOn callId state.nodes = [] → keptOn callId nodes = [] ∧
        (drainNested callId state pending).2 = pending ∧ drained callId state pending = []) ∧
      (∀ kept, keptOn callId state.nodes = [kept] →
        keptOn callId nodes = [pending.foldl keepNested kept] ∧
        (drainNested callId state pending).2 = [] ∧ drained callId state pending = pending) := by
  induction pending generalizing state with
  | nil => exact ⟨state.nodes, rfl, fun _ _ => rfl, fun h => ⟨h, rfl, rfl⟩, fun kept h => ⟨h, rfl, rfl⟩⟩
  | cons e rest ih =>
      rcases route_cases state e callId with ⟨hnone, hempty⟩ | ⟨nodes', hsome, hne, hone, hother⟩
      · obtain ⟨nodes, hstate, hothers, hnothing, -⟩ := ih state
        obtain ⟨hkept, hremaining, hdrained⟩ := hnothing hempty
        refine ⟨nodes, ?_, hothers, fun _ => ⟨hkept, ?_, ?_⟩, fun kept h => ?_⟩
        · rw [drainNested, hnone]
          exact hstate
        · rw [drainNested, hnone]
          exact congrArg (e :: ·) hremaining
        · rw [drained, hnone]
          exact hdrained
        · rw [hempty] at h
          cases h
      · obtain ⟨nodes, hstate, hothers, -, hall⟩ := ih { state with nodes := nodes' }
        refine ⟨nodes, ?_, fun other hne' => (hothers other hne').trans (hother other hne'),
          fun h => absurd h hne, fun kept h => ?_⟩
        · rw [drainNested, hsome]
          exact hstate
        · obtain ⟨hkept, hremaining, hdrained⟩ := hall (keepNested kept e) (hone kept h)
          refine ⟨hkept, ?_, ?_⟩
          · rw [drainNested, hsome]
            exact hremaining
          · rw [drained, hsome]
            exact congrArg (e :: ·) hdrained

/-! ### The queues -/

theorem drained_subset (callId : String) (pending : List (AgentContentEvent Args))
    (state : PageState Args) : ∀ e ∈ drained callId state pending, e ∈ pending := by
  induction pending generalizing state with
  | nil => exact fun e he => he
  | cons first rest ih =>
      intro e he
      rw [drained] at he
      split at he
      · rcases List.mem_cons.mp he with rfl | he
        · exact List.mem_cons_self
        · exact List.mem_cons_of_mem _ (ih _ e he)
      · exact List.mem_cons_of_mem _ (ih _ e he)

theorem drainNested_subset (callId : String) (pending : List (AgentContentEvent Args))
    (state : PageState Args) : ∀ e ∈ (drainNested callId state pending).2, e ∈ pending := by
  induction pending generalizing state with
  | nil => exact fun e he => he
  | cons first rest ih =>
      intro e he
      rw [drainNested] at he
      split at he
      · exact List.mem_cons_of_mem _ (ih _ e he)
      · rcases List.mem_cons.mp he with rfl | he
        · exact List.mem_cons_self
        · exact List.mem_cons_of_mem _ (ih _ e he)

omit [StableJson Args] in
theorem lookup_map_set (pending : List (String × List (AgentContentEvent Args)))
    (callId other : String) (events : List (AgentContentEvent Args)) :
    (pending.map (fun entry => if entry.1 = callId then (callId, events) else entry)).lookup other =
      if other = callId then (pending.lookup callId).map (fun _ => events)
      else pending.lookup other := by
  induction pending with
  | nil => split <;> rfl
  | cons entry rest ih =>
      obtain ⟨key, queued⟩ := entry
      rw [List.map_cons, List.lookup_cons, List.lookup_cons]
      by_cases hkey : key = callId
      · subst hkey
        by_cases hother : other = key
        · simp [hother]
        · simp [hother, ih, List.lookup_cons, beq_eq_false_iff_ne.mpr hother]
      · simp only [hkey, if_false, List.lookup_cons, ih]
        by_cases hother : other = callId
        · subst hother
          simp [beq_eq_false_iff_ne.mpr (Ne.symm hkey)]
        · simp [hother]

omit [StableJson Args] in
theorem pendingFor_setPending (pending : List (String × List (AgentContentEvent Args)))
    (callId other : String) (events : List (AgentContentEvent Args)) :
    pendingFor (setPending pending callId events) other =
      if other = callId then events else pendingFor pending other := by
  unfold pendingFor setPending
  split
  · rename_i hsome
    obtain ⟨queued, hqueued⟩ := Option.isSome_iff_exists.mp hsome
    rw [lookup_map_set, hqueued]
    split <;> rfl
  · rename_i hnone
    rw [Bool.not_eq_true, Option.isSome_eq_false_iff, Option.isNone_iff_eq_none] at hnone
    rw [List.lookup_append]
    by_cases hother : other = callId
    · subst hother
      simp [hnone, List.lookup_cons]
    · simp [hother, List.lookup_cons, beq_eq_false_iff_ne.mpr hother]

omit [StableJson Args] in
theorem pendingFor_filter (p : String → Bool) (pending : List (String × List (AgentContentEvent Args)))
    (callId : String) : pendingFor (pending.filter (fun entry => p entry.1)) callId =
      if p callId then pendingFor pending callId else [] := by
  unfold pendingFor
  induction pending with
  | nil => split <;> rfl
  | cons entry rest ih =>
      obtain ⟨key, queued⟩ := entry
      by_cases hsame : callId = key
      · subst hsame
        cases hp : p callId with
        | true => simp [hp, List.lookup_cons]
        | false => simpa [hp, List.lookup_cons] using ih
      · have hne := beq_eq_false_iff_ne.mpr hsame
        cases hp : p key with
        | true => simpa [hp, List.lookup_cons, hne] using ih
        | false => simpa [hp, List.lookup_cons, hne] using ih

theorem hasToolCall_iff (nodes : List (ChatNode (PageTranscript Args))) (callId : String) :
    hasToolCall nodes callId = false ↔ keptOn callId nodes = [] := by
  unfold keptOn
  rw [kept_eq_nil]
  constructor
  · intro h b hb
    obtain ⟨blocks, hblocks, hb⟩ := List.mem_flatten.mp hb
    obtain ⟨t, ht, rfl⟩ := List.mem_map.mp hblocks
    obtain ⟨n, hn, hnt⟩ := List.mem_filterMap.mp ht
    have hnone := List.any_eq_false.mp h n hn
    cases n with
    | user node => cases hnt
    | agent id t' =>
        obtain rfl := Option.some.inj hnt
        rw [Bool.not_eq_true, Option.isSome_eq_false_iff, Option.isNone_iff_eq_none] at hnone
        exact List.findIdx?_eq_none_iff.mp ((findToolBlockIndex_callId _ _).symm.trans hnone) b hb
  · intro h
    refine List.any_eq_false.mpr fun n hn => ?_
    cases n with
    | user node => simp [ChatNode.toolBlockIndex]
    | agent id t =>
        rw [Bool.not_eq_true, Option.isSome_eq_false_iff, Option.isNone_iff_eq_none]
        refine (findToolBlockIndex_callId _ _).trans (List.findIdx?_eq_none_iff.mpr fun b hb => ?_)
        refine h b (List.mem_flatten.mpr ⟨t.blocks, List.mem_map.mpr ⟨t, ?_, rfl⟩, hb⟩)
        exact List.mem_filterMap.mpr ⟨_, hn, rfl⟩

/-- What is left in the queues when a turn is finished: the events of calls
without a block. -/
theorem pendingFor_prune (state : PageState Args) (callId : String) :
    pendingFor (prunePendingNested state) callId =
      if keptOn callId state.nodes = [] then pendingFor state.pendingNested callId else [] := by
  unfold prunePendingNested
  rw [pendingFor_filter (fun callId => !hasToolCall state.nodes callId)]
  by_cases h : keptOn callId state.nodes = []
  · rw [if_pos h, (hasToolCall_iff _ _).mpr h]
    rfl
  · have htrue : hasToolCall state.nodes callId = true := by
      rw [← Bool.not_eq_false]
      exact fun hfalse => h ((hasToolCall_iff _ _).mp hfalse)
    rw [if_neg h, htrue]
    rfl

/-- **Draining the queue of a call.** -/
theorem drainPending_spec (state : PageState Args) (callId : String) :
    ∃ nodes pending, drainPendingNested state callId =
        { state with nodes := nodes, pendingNested := pending } ∧
      (∀ other, other ≠ callId → keptOn other nodes = keptOn other state.nodes ∧
        pendingFor pending other = pendingFor state.pendingNested other) ∧
      (∀ e ∈ pendingFor pending callId, e ∈ pendingFor state.pendingNested callId) ∧
      (keptOn callId state.nodes = [] → keptOn callId nodes = [] ∧
        pendingFor pending callId = pendingFor state.pendingNested callId) ∧
      (∀ kept, keptOn callId state.nodes = [kept] →
        keptOn callId nodes = [(pendingFor state.pendingNested callId).foldl keepNested kept] ∧
        pendingFor pending callId = []) := by
  unfold drainPendingNested
  obtain ⟨nodes, hstate, hothers, hnothing, hall⟩ :=
    drain_spec callId (pendingFor state.pendingNested callId) state
  cases hempty : (pendingFor state.pendingNested callId).isEmpty with
  | true =>
      rw [List.isEmpty_iff] at hempty
      refine ⟨state.nodes, state.pendingNested, if_pos (List.isEmpty_iff.mpr hempty),
        fun _ _ => ⟨rfl, rfl⟩, fun _ h => h, fun h => ⟨h, rfl⟩, fun kept h => ⟨?_, hempty⟩⟩
      rw [hempty]
      exact h
  | false =>
      have hsome : ¬(pendingFor state.pendingNested callId).isEmpty = true := by
        rw [hempty]
        exact Bool.false_ne_true
      have hsubset := drainNested_subset callId (pendingFor state.pendingNested callId) state
      cases hdrain : drainNested callId state (pendingFor state.pendingNested callId) with
      | mk drainedState remaining =>
          rw [hdrain] at hstate hnothing hall hsubset
          obtain rfl : drainedState = { state with nodes := nodes } := hstate
          obtain ⟨left, hleft⟩ : ∃ left, left =
              if remaining.isEmpty then
                state.pendingNested.filter (fun entry => decide (entry.1 ≠ callId))
              else setPending state.pendingNested callId remaining := ⟨_, rfl⟩
          have hpending : ∀ other, pendingFor left other =
              if other = callId then remaining else pendingFor state.pendingNested other := by
            intro other
            rw [hleft]
            split
            · rename_i hnone
              rw [List.isEmpty_iff] at hnone
              rw [pendingFor_filter (fun key => decide (key ≠ callId)), hnone]
              by_cases hother : other = callId <;> simp [hother]
            · exact pendingFor_setPending _ _ _ _
          refine ⟨nodes, left, (if_neg hsome).trans ?_, fun other hne => ⟨hothers other hne, ?_⟩,
            fun e he => ?_, fun h => ?_, fun kept h => ?_⟩
          · rw [hleft, hdrain]
          · rw [hpending, if_neg hne]
          · rw [hpending, if_pos rfl] at he
            exact hsubset e he
          · obtain ⟨hkept, hremaining, -⟩ := hnothing h
            rw [hpending, if_pos rfl]
            exact ⟨hkept, hremaining⟩
          · obtain ⟨hkept, hremaining, -⟩ := hall kept h
            rw [hpending, if_pos rfl]
            exact ⟨hkept, hremaining⟩

/-! ### One event of a replay -/

theorem blocks_apply (t : PageTranscript Args) (e : AgentContentEvent Args) :
    (applyEventToTranscript t e).1.blocks = applyEventToBlocks t.blocks e := by
  unfold applyEventToTranscript applyEventToBlocks
  cases e.body <;> rfl

/-- A top-level event is applied to the blocks of the open section. -/
theorem placeEvent_blocks {state : PageState Args} {seen : List (AgentContentEvent Args)}
    (h : Depicts state (outline seen)) (e : AgentContentEvent Args) :
    ∃ before tail, pageBlocks state.nodes = before ++ tail ∧
      pageBlocks (placeEvent state e) = before ++ applyEventToBlocks tail e ∧
      tail.map TranscriptBlock.core = foldBlocks (openSection seen) := by
  rw [placeEvent_eq h]
  have hends : endsInAgent (outline seen).nodes = endsInAgent state.nodes := by
    rw [← endsInAgent_map foldBlocks, ← h.nodes, endsInAgent_map]
  rcases (outline seen).place_cases e with ⟨rest, id, g, hstreaming, hnodes, -⟩ | ⟨hclosed, -⟩
  · have hagent : endsInAgent state.nodes = true := hends ▸ endsInAgent_iff.mpr ⟨rest, id, g, hnodes⟩
    obtain ⟨ns, id', t, hns⟩ := endsInAgent_iff.mp hagent
    have hsame := h.nodes
    rw [hns, hnodes, List.map_append, List.map_append] at hsame
    obtain ⟨-, hlast⟩ := List.append_inj' hsame rfl
    obtain ⟨-, hblocks⟩ : id' = id ∧ coreBlocks t = foldBlocks g := by
      simpa [ChatNode.map] using hlast
    have hsection : openSection seen = g := by
      unfold openSection
      rw [hstreaming, hnodes, List.getLast?_concat]
    refine ⟨pageBlocks ns, t.blocks, ?_, ?_, ?_⟩
    · rw [hns, pageBlocks_append, pageBlocks_agent]
    · rw [h.streaming, hstreaming, hagent, Bool.and_self, if_pos rfl, hns, modify_last,
        pageBlocks_append, applyToNode, pageBlocks_agent, blocks_apply]
      split <;> rfl
    · rw [hsection]
      exact hblocks
  · have hsection : openSection seen = [] := by
      unfold openSection
      split
      · rename_i id g hstreaming hlast
        rw [hstreaming, Bool.true_and] at hclosed
        simp [endsInAgent, List.getLast?_map, hlast, ChatNode.isUser] at hclosed
      · rfl
    rw [h.streaming, ← hends, hclosed, hsection]
    refine ⟨pageBlocks state.nodes, [], (List.append_nil _).symm, ?_, rfl⟩
    rw [if_neg Bool.false_ne_true, pageBlocks_append, createAgentNode, pageBlocks_agent, blocks_apply]

/-- What the replay of a timeline leaves, as far as nested runs need it. -/
structure Replayed (seen : List (AgentContentEvent Args)) (state : PageState Args) : Prop where
  depicts : Depicts state (outline seen)
  clean : ∀ kept ∈ keptOn "" state.nodes, kept = (none, none)
  queued : ∀ callId, ∀ e ∈ pendingFor state.pendingNested callId, e.isNestedIn callId = true

omit [StableJson Args] in
theorem isNestedIn_empty (e : AgentContentEvent Args) : e.isNestedIn "" = false := by
  unfold AgentContentEvent.isNestedIn AgentContentEvent.isNested
  split <;> simp

theorem Replayed.idle {seen : List (AgentContentEvent Args)} {state : PageState Args}
    (h : Replayed seen state) : pendingFor state.pendingNested "" = [] := by
  refine List.eq_nil_iff_forall_not_mem.mpr fun e he => ?_
  have := h.queued "" e he
  rw [isNestedIn_empty] at this
  cases this

omit [StableJson Args] in
theorem clean_iff {blocks : List (TranscriptBlock Args (NestedTranscript Args))} :
    (∀ kept ∈ blocks.filterMap (TranscriptBlock.keptFor ""), kept = (none, none)) ↔
      ∀ b ∈ blocks, b.Clean := by
  constructor
  · exact fun h b hb kept hkept => h kept (List.mem_filterMap.mpr ⟨b, hb, hkept⟩)
  · intro h kept hkept
    obtain ⟨b, hb, hsome⟩ := List.mem_filterMap.mp hkept
    exact h b hb kept hsome

/-- A top-level event that is not the call's leaves what its block keeps. -/
theorem Replayed.place_other {seen : List (AgentContentEvent Args)} {state : PageState Args}
    (h : Replayed seen state) {e : AgentContentEvent Args} {callId : String} (hid : callId ≠ "")
    (hother : ∀ c, e.call = some c → c.callId ≠ callId) :
    keptOn callId (placeEvent state e) = keptOn callId state.nodes := by
  obtain ⟨before, tail, hblocks, hblocks', -⟩ := placeEvent_blocks h.depicts e
  unfold keptOn
  rw [hblocks, hblocks', List.filterMap_append, List.filterMap_append, kept_apply_other hid hother]

theorem Replayed.place_clean {seen : List (AgentContentEvent Args)} {state : PageState Args}
    (h : Replayed seen state) (e : AgentContentEvent Args) :
    ∀ kept ∈ keptOn "" (placeEvent state e), kept = (none, none) := by
  obtain ⟨before, tail, hblocks, hblocks', -⟩ := placeEvent_blocks h.depicts e
  have hclean := h.clean
  unfold keptOn at hclean ⊢
  rw [clean_iff, hblocks] at hclean
  rw [clean_iff, hblocks']
  intro b hb
  rcases List.mem_append.mp hb with hold | hnew
  · exact hclean b (List.mem_append_left _ hold)
  · exact clean_apply (fun b hb => hclean b (List.mem_append_right _ hb)) b hnew

/-- What the handling of a top-level event comes to. -/
theorem topLevel_cases {state : PageState Args} {e : AgentContentEvent Args} (hrole : e.role = .output)
    (hidle : pendingFor state.pendingNested "" = []) :
    (e.isError = true ∧ e.call = none ∧ (routeToTopLevel state e).nodes = placeEvent state e ∧
        (routeToTopLevel state e).pendingNested = [] ∧ routedBy state e = []) ∨
      (e.isError = false ∧ ∃ callId,
        routeToTopLevel state e = drainPendingNested (placed state e) callId ∧
        routedBy state e = drained callId (placed state e) (pendingFor state.pendingNested callId) ∧
        ∀ c, e.call = some c → c.callId = callId) := by
  have hnothing : drainPendingNested (placed state e) "" = placed state e := by
    unfold drainPendingNested
    exact if_pos (List.isEmpty_iff.mpr hidle)
  unfold routedBy AgentContentEvent.isError routeToTopLevel
  rw [hrole]
  cases hbody : e.body with
  | error message =>
      exact .inl ⟨rfl, by simp [AgentContentEvent.call, hbody], rfl, rfl, rfl⟩
  | toolCall callId name arguments =>
      refine .inr ⟨rfl, callId, rfl, rfl, fun c hc => ?_⟩
      have := (e.body_of_call hc).1
      rw [hbody] at this
      injection this with hcallId
      exact hcallId.symm
  | toolResult callId output isError =>
      exact .inr ⟨rfl, callId, rfl, rfl, fun c hc => by simp [AgentContentEvent.call, hbody] at hc⟩
  | userMessage content displayText targetAgentCode => simp [AgentContentEvent.role, hbody] at hrole
  | turnBoundary =>
      unfold AgentContentEvent.role at hrole
      rw [hbody] at hrole
      simp only at hrole
      split at hrole <;> cases hrole
  | segment kind complete segmentId text =>
      exact .inr ⟨rfl, "", hnothing.symm, by rw [hidle]; rfl,
        fun c hc => by simp [AgentContentEvent.call, hbody] at hc⟩
  | subagentTask task =>
      exact .inr ⟨rfl, "", hnothing.symm, by rw [hidle]; rfl,
        fun c hc => by simp [AgentContentEvent.call, hbody] at hc⟩

omit [StableJson Args] in
theorem appendUserMessage_pending {τ : Type} (state : ChatState Args τ) (node : UserNode) :
    (appendUserMessage state node).pendingNested = state.pendingNested := by
  unfold appendUserMessage
  split <;> rfl

/-- **The dispatch.**  An event leaves the blocks, is of a nested run, or is
handled by the page's own agent. -/
theorem dispatch_cases (state : PageState Args) (e : AgentContentEvent Args) :
    (e.isNested = false ∧ e.role ≠ .output ∧ routedBy state e = [] ∧
        pageBlocks (applyContentEvent state e).nodes = pageBlocks state.nodes ∧
        ((applyContentEvent state e).pendingNested = state.pendingNested ∨
          (applyContentEvent state e).pendingNested = prunePendingNested state)) ∨
      (e.isNested = true ∧ e.role = .nested ∧
        applyContentEvent state e = routeToNested state e e.nestedCallId) ∨
      (e.isNested = false ∧ e.role = .output ∧ applyContentEvent state e = routeToTopLevel state e) := by
  unfold routedBy applyContentEvent
  cases hbody : e.body with
  | userMessage content displayText targetAgentCode =>
      obtain ⟨node, hrole⟩ : ∃ node, e.role = .message node := by
        simp [AgentContentEvent.role, hbody]
      refine .inl ⟨by simp [AgentContentEvent.isNested, hbody], by simp [hrole], by simp [hrole], ?_,
        .inl (appendUserMessage_pending _ _)⟩
      simp only [pageBlocks, appendUserMessage_nodes, transcripts_showMessage]
  | turnBoundary =>
      have hinert : e.isNested = false := by simp [AgentContentEvent.isNested, hbody]
      by_cases hnested : e.nestedCallId = ""
      · have hrole : e.role = .boundary := by simp [AgentContentEvent.role, hbody, hnested]
        simp only [hnested, ne_eq, not_true_eq_false, if_false]
        exact .inl ⟨hinert, by simp [hrole], by simp [hrole], rfl, .inr rfl⟩
      · have hrole : e.role = .nested := by simp [AgentContentEvent.role, hbody, hnested]
        simp only [ne_eq, hnested, not_false_eq_true, if_true]
        exact .inl ⟨hinert, by simp [hrole], by simp [hrole, hinert], trivial, .inl trivial⟩
  | _ =>
      by_cases hnested : e.nestedCallId = ""
      · simp only [hnested, ne_eq, not_true_eq_false, if_false]
        refine .inr (.inr ⟨?_, ?_, trivial⟩)
        · simp [AgentContentEvent.isNested, hbody, hnested]
        · simp [AgentContentEvent.role, hbody, hnested]
      · simp only [ne_eq, hnested, not_false_eq_true, if_true]
        refine .inr (.inl ⟨?_, ?_, trivial⟩)
        · simp [AgentContentEvent.isNested, hbody, hnested]
        · simp [AgentContentEvent.role, hbody, hnested]

/-- An event of a nested run is queued, or routed. -/
theorem nested_cases (state : PageState Args) {e : AgentContentEvent Args} (hnested : e.isNested = true)
    (hrole : e.role = .nested) :
    (routedBy state e = [] ∧ keptOn e.nestedCallId state.nodes = [] ∧
        (routeToNested state e e.nestedCallId).nodes = state.nodes ∧
        ∀ callId, pendingFor (routeToNested state e e.nestedCallId).pendingNested callId =
          if callId = e.nestedCallId then pendingFor state.pendingNested callId ++ [e]
          else pendingFor state.pendingNested callId) ∨
      (routedBy state e = [e] ∧ keptOn e.nestedCallId state.nodes ≠ [] ∧
        (routeToNested state e e.nestedCallId).pendingNested = state.pendingNested ∧
        (∀ kept, keptOn e.nestedCallId state.nodes = [kept] →
          keptOn e.nestedCallId (routeToNested state e e.nestedCallId).nodes = [keepNested kept e]) ∧
        ∀ other, other ≠ e.nestedCallId →
          keptOn other (routeToNested state e e.nestedCallId).nodes = keptOn other state.nodes) := by
  unfold routedBy routeToNested
  rw [hrole]
  simp only [hnested, Bool.true_and]
  rcases route_cases state e e.nestedCallId with ⟨hnone, hempty⟩ | ⟨nodes, hsome, hne, hone, hother⟩
  · rw [hnone]
    refine .inl ⟨rfl, hempty, rfl, fun callId => ?_⟩
    rw [pendingFor_setPending]
    by_cases h : callId = e.nestedCallId
    · rw [if_pos h, if_pos h, h]
    · rw [if_neg h, if_neg h]
  · rw [hsome]
    exact .inr ⟨rfl, hne, rfl, hone, hother⟩

omit [StableJson Args] in
theorem isNestedIn_iff {e : AgentContentEvent Args} {callId : String} :
    e.isNestedIn callId = true ↔ e.isNested = true ∧ e.nestedCallId = callId := by
  simp [AgentContentEvent.isNestedIn]

/-- What a turn that ends keeps in the queues. -/
theorem pendingFor_of_quiet {state : PageState Args}
    {pending : List (String × List (AgentContentEvent Args))}
    (h : pending = state.pendingNested ∨ pending = prunePendingNested state) (callId : String) :
    pendingFor pending callId = pendingFor state.pendingNested callId ∨
      (keptOn callId state.nodes ≠ [] ∧ pendingFor pending callId = []) := by
  rcases h with rfl | rfl
  · exact .inl rfl
  · rw [pendingFor_prune]
    split
    · exact .inl rfl
    · rename_i hne
      exact .inr ⟨hne, rfl⟩

/-- **The step.** -/
theorem Replayed.next {seen : List (AgentContentEvent Args)} {state : PageState Args}
    (h : Replayed seen state) (e : AgentContentEvent Args) :
    Replayed (seen ++ [e]) (applyContentEvent state e) := by
  have hdepicts : Depicts (applyContentEvent state e) (outline (seen ++ [e])) := by
    have := h.depicts.next e
    unfold outline at this ⊢
    rwa [List.foldl_append]
  rcases dispatch_cases state e with ⟨-, -, -, hblocks, hpending⟩ | ⟨hnested, hrole, happly⟩ |
    ⟨-, hrole, happly⟩
  · refine ⟨hdepicts, ?_, fun callId n hn => ?_⟩
    · unfold keptOn
      rw [hblocks]
      exact h.clean
    · rcases pendingFor_of_quiet hpending callId with hsame | ⟨-, hnone⟩
      · exact h.queued callId n (hsame ▸ hn)
      · rw [hnone] at hn
        cases hn
  · have hid : e.nestedCallId ≠ "" := fun hempty => by
      have := isNestedIn_empty e
      rw [Bool.eq_false_iff] at this
      exact this (isNestedIn_iff.mpr ⟨hnested, hempty⟩)
    rcases nested_cases state hnested hrole with ⟨-, -, hnodes, hqueues⟩ |
      ⟨-, -, hqueues, -, hothers⟩
    · refine ⟨hdepicts, ?_, fun callId n hn => ?_⟩
      · rw [happly, hnodes]
        exact h.clean
      · rw [happly, hqueues] at hn
        split at hn
        · rename_i hcall
          rcases List.mem_append.mp hn with hold | hnew
          · exact h.queued callId n hold
          · obtain rfl := List.mem_singleton.mp hnew
            exact isNestedIn_iff.mpr ⟨hnested, hcall.symm⟩
        · exact h.queued callId n hn
    · refine ⟨hdepicts, ?_, fun callId n hn => ?_⟩
      · rw [happly, hothers "" hid.symm]
        exact h.clean
      · rw [happly, hqueues] at hn
        exact h.queued callId n hn
  · rcases topLevel_cases hrole h.idle with ⟨-, -, hnodes, hqueues, -⟩ | ⟨-, callId, htop, -, -⟩
    · refine ⟨hdepicts, ?_, fun callId n hn => ?_⟩
      · rw [happly, hnodes]
        exact h.place_clean e
      · rw [happly, hqueues] at hn
        cases hn
    · obtain ⟨nodes, pending, hdrain, hothers, hsubset, -⟩ := drainPending_spec (placed state e) callId
      have hclean := h.place_clean e
      refine ⟨hdepicts, ?_, fun other n hn => ?_⟩
      · rw [happly, htop]
        by_cases hempty : callId = ""
        · have hnothing : drainPendingNested (placed state e) callId = placed state e := by
            unfold drainPendingNested
            exact if_pos (List.isEmpty_iff.mpr (hempty ▸ h.idle))
          rw [hnothing]
          exact hclean
        · rw [hdrain, (hothers "" (Ne.symm hempty)).1]
          exact hclean
      · rw [happly, htop, hdrain] at hn
        by_cases hother : other = callId
        · subst hother
          exact h.queued other n (hsubset n hn)
        · rw [(hothers other hother).2] at hn
          exact h.queued other n hn

/-! ### One call -/

section OneCall

variable {seen : List (AgentContentEvent Args)} {state : PageState Args}
  {e : AgentContentEvent Args} {callId : String}

/-- The queue of a call without a block, after one more event. -/
def waitingStep (callId : String) (waiting : List (AgentContentEvent Args))
    (e : AgentContentEvent Args) : List (AgentContentEvent Args) :=
  if e.isTopLevelError then [] else if e.isNestedIn callId then waiting ++ [e] else waiting

/-- The events of a call that wait for it. -/
def Waits (callId : String) (waiting : List (AgentContentEvent Args)) (state : PageState Args) :
    Prop :=
  keptOn callId state.nodes = [] ∧ pendingFor state.pendingNested callId = waiting

/-- The call has one block, which keeps this, and nothing waits for it. -/
def Reached (callId : String)
    (kept : Option (NestedTranscript Args) × Option SubagentExecutionItem)
    (state : PageState Args) : Prop :=
  keptOn callId state.nodes = [kept] ∧ pendingFor state.pendingNested callId = []

/-- The routed events of one call. -/
def ofCall (callId : String) (events : List (AgentContentEvent Args)) :
    List (AgentContentEvent Args) :=
  events.filter (fun e => decide (e.nestedCallId = callId))

omit [StableJson Args] in
theorem ofCall_of_other {events : List (AgentContentEvent Args)}
    (h : ∀ e ∈ events, e.nestedCallId ≠ callId) : ofCall callId events = [] :=
  List.filter_eq_nil_iff.mpr fun e he => by simpa using h e he

theorem Replayed.drained_other (h : Replayed seen state) {other : String} (hne : other ≠ callId)
    (state' : PageState Args) :
    ofCall callId (drained other state' (pendingFor state.pendingNested other)) = [] := by
  refine ofCall_of_other fun n hn => ?_
  have hqueued := h.queued other n (drained_subset _ _ _ n hn)
  exact (isNestedIn_iff.mp hqueued).2 ▸ hne

omit [StableJson Args] in
theorem isTopLevelError_of_role (h : e.role ≠ .output) : e.isTopLevelError = false := by
  simp [AgentContentEvent.isTopLevelError, h]

/-- **Before the call.**  Nothing is routed, and the queue goes on. -/
theorem Replayed.waits (h : Replayed seen state) (hid : callId ≠ "")
    (hother : e.role = .output → ∀ c, e.call = some c → c.callId ≠ callId)
    {waiting : List (AgentContentEvent Args)} (hwaits : Waits callId waiting state) :
    Waits callId (waitingStep callId waiting e) (applyContentEvent state e) ∧
      ofCall callId (routedBy state e) = [] := by
  obtain ⟨hkept, hwaiting⟩ := hwaits
  unfold waitingStep Waits
  rcases dispatch_cases state e with ⟨hinert, hrole, hrouted, hblocks, hpending⟩ |
    ⟨hnested, hrole, happly⟩ | ⟨hinert, hrole, happly⟩
  · have hnot : e.isNestedIn callId = false := by simp [AgentContentEvent.isNestedIn, hinert]
    rw [isTopLevelError_of_role hrole, hnot, hrouted]
    refine ⟨⟨?_, ?_⟩, rfl⟩
    · unfold keptOn
      rw [hblocks]
      exact hkept
    · rcases pendingFor_of_quiet hpending callId with hsame | ⟨hne, -⟩
      · rw [hsame, hwaiting]
        rfl
      · exact absurd hkept hne
  · rw [isTopLevelError_of_role (by simp [hrole]), happly]
    rcases nested_cases state hnested hrole with ⟨hrouted, -, hnodes, hqueues⟩ |
      ⟨hrouted, hne, hqueues, -, hothers⟩
    · rw [hnodes, hqueues, hrouted]
      refine ⟨⟨hkept, ?_⟩, rfl⟩
      by_cases hsame : callId = e.nestedCallId
      · have hin : e.isNestedIn callId = true := isNestedIn_iff.mpr ⟨hnested, hsame.symm⟩
        rw [if_pos hsame, hin, hwaiting]
        rfl
      · have hout : e.isNestedIn callId = false := by
          rw [Bool.eq_false_iff]
          exact fun hin => hsame (isNestedIn_iff.mp hin).2.symm
        rw [if_neg hsame, hout, hwaiting]
        rfl
    · have hsame : callId ≠ e.nestedCallId := fun heq => hne (heq ▸ hkept)
      have hout : e.isNestedIn callId = false := by
        rw [Bool.eq_false_iff]
        exact fun hin => hsame (isNestedIn_iff.mp hin).2.symm
      rw [hothers callId hsame, hqueues, hout, hrouted]
      exact ⟨⟨hkept, hwaiting⟩, ofCall_of_other fun n hn => by
        rw [List.mem_singleton.mp hn]; exact hsame.symm⟩
  · have hnot : e.isNestedIn callId = false := by simp [AgentContentEvent.isNestedIn, hinert]
    have hplace := (h.place_other hid (hother hrole)).trans hkept
    rw [happly, hnot]
    rcases topLevel_cases hrole h.idle with ⟨herror, -, hnodes, hqueues, hrouted⟩ |
      ⟨herror, other, htop, hrouted, -⟩
    · have htrue : e.isTopLevelError = true := by simp [AgentContentEvent.isTopLevelError, hrole, herror]
      rw [hnodes, hqueues, hrouted, htrue]
      exact ⟨⟨hplace, rfl⟩, rfl⟩
    · have hfalse : e.isTopLevelError = false := by simp [AgentContentEvent.isTopLevelError, herror]
      obtain ⟨nodes, pending, hdrain, hothers, -, hnothing, -⟩ :=
        drainPending_spec (placed state e) other
      rw [htop, hdrain, hrouted, hfalse]
      by_cases hsame : other = callId
      · subst hsame
        obtain ⟨hnodes, hqueue⟩ := hnothing hplace
        obtain ⟨_, -, -, hnone, -⟩ :=
          drain_spec other (pendingFor state.pendingNested other) (placed state e)
        rw [(hnone hplace).2.2]
        exact ⟨⟨hnodes, hqueue.trans hwaiting⟩, rfl⟩
      · obtain ⟨hnodes, hqueue⟩ := hothers callId (Ne.symm hsame)
        exact ⟨⟨hnodes.trans hplace, hqueue.trans hwaiting⟩, h.drained_other hsame _⟩

/-- **After the call.**  Its events are routed as they come. -/
theorem Replayed.follows (h : Replayed seen state) (hid : callId ≠ "")
    (hother : e.role = .output → ∀ c, e.call = some c → c.callId ≠ callId)
    {kept : Option (NestedTranscript Args) × Option SubagentExecutionItem}
    (hfollows : Reached callId kept state) :
    Reached callId (if e.isNestedIn callId then keepNested kept e else kept)
        (applyContentEvent state e) ∧
      ofCall callId (routedBy state e) = if e.isNestedIn callId then [e] else [] := by
  obtain ⟨hkept, hempty⟩ := hfollows
  unfold Reached
  rcases dispatch_cases state e with ⟨hinert, -, hrouted, hblocks, hpending⟩ |
    ⟨hnested, hrole, happly⟩ | ⟨hinert, hrole, happly⟩
  · have hnot : e.isNestedIn callId = false := by simp [AgentContentEvent.isNestedIn, hinert]
    rw [hnot, hrouted]
    refine ⟨⟨?_, ?_⟩, rfl⟩
    · unfold keptOn
      rw [hblocks]
      exact hkept
    · rcases pendingFor_of_quiet hpending callId with hsame | ⟨-, hnone⟩
      · exact hsame.trans hempty
      · exact hnone
  · rw [happly]
    rcases nested_cases state hnested hrole with ⟨hrouted, hnone, hnodes, hqueues⟩ |
      ⟨hrouted, -, hqueues, hone, hothers⟩
    · have hsame : callId ≠ e.nestedCallId := fun heq => by
        rw [← heq, hkept] at hnone
        cases hnone
      have hout : e.isNestedIn callId = false := by
        rw [Bool.eq_false_iff]
        exact fun hin => hsame (isNestedIn_iff.mp hin).2.symm
      rw [hnodes, hqueues, if_neg hsame, hrouted, hout]
      exact ⟨⟨hkept, hempty⟩, rfl⟩
    · rw [hqueues, hrouted]
      by_cases hsame : callId = e.nestedCallId
      · have hin : e.isNestedIn callId = true := isNestedIn_iff.mpr ⟨hnested, hsame.symm⟩
        rw [hin, if_pos rfl, if_pos rfl]
        refine ⟨⟨hsame ▸ hone kept (hsame ▸ hkept), hempty⟩, ?_⟩
        simp [ofCall, hsame]
      · have hout : e.isNestedIn callId = false := by
          rw [Bool.eq_false_iff]
          exact fun hin => hsame (isNestedIn_iff.mp hin).2.symm
        rw [hothers callId hsame, hout]
        exact ⟨⟨hkept, hempty⟩, ofCall_of_other fun n hn => by
          rw [List.mem_singleton.mp hn]; exact Ne.symm hsame⟩
  · have hnot : e.isNestedIn callId = false := by simp [AgentContentEvent.isNestedIn, hinert]
    have hplace := (h.place_other hid (hother hrole)).trans hkept
    rw [happly, hnot]
    rcases topLevel_cases hrole h.idle with ⟨-, -, hnodes, hqueues, hrouted⟩ |
      ⟨-, other, htop, hrouted, -⟩
    · rw [hnodes, hqueues, hrouted]
      exact ⟨⟨hplace, rfl⟩, rfl⟩
    · obtain ⟨nodes, pending, hdrain, hothers, -, -, hall⟩ := drainPending_spec (placed state e) other
      rw [htop, hdrain, hrouted]
      by_cases hsame : other = callId
      · subst hsame
        obtain ⟨hnodes, hqueue⟩ := hall kept hplace
        have hpending : pendingFor (placed state e).pendingNested other = [] := hempty
        rw [hpending] at hnodes
        rw [hempty]
        exact ⟨⟨hnodes, hqueue⟩, rfl⟩
      · obtain ⟨hnodes, hqueue⟩ := hothers callId (Ne.symm hsame)
        exact ⟨⟨hnodes.trans hplace, hqueue.trans hempty⟩, h.drained_other hsame _⟩

theorem signatureOpen_core (signature : String)
    (blocks : List (TranscriptBlock Args (NestedTranscript Args))) :
    signatureOpen signature (blocks.map TranscriptBlock.core) = signatureOpen signature blocks := by
  unfold signatureOpen
  rw [List.find?_map, TranscriptBlock.hasSignature_core]
  cases blocks.find? (TranscriptBlock.hasSignature signature) with
  | none => rfl
  | some b => cases b <;> rfl

/-- **The call.**  If its signature is open, it gets a block, and what has
waited is routed; otherwise nothing is. -/
theorem Replayed.call (h : Replayed seen state) (hrole : e.role = .output) {c : Call Args}
    (hc : e.call = some c) {waiting : List (AgentContentEvent Args)}
    (hwaits : Waits c.callId waiting state) :
    (signatureOpen c.signature (foldBlocks (openSection seen)) = true →
        Reached c.callId (waiting.foldl keepNested (none, none)) (applyContentEvent state e) ∧
          ofCall c.callId (routedBy state e) = ofCall c.callId waiting) ∧
      (signatureOpen c.signature (foldBlocks (openSection seen)) = false →
        Waits c.callId waiting (applyContentEvent state e) ∧
          ofCall c.callId (routedBy state e) = []) := by
  obtain ⟨hkept, hwaiting⟩ := hwaits
  have happly : applyContentEvent state e = routeToTopLevel state e := by
    rcases dispatch_cases state e with ⟨-, hnot, -⟩ | ⟨-, hnot, -⟩ | ⟨-, -, happly⟩
    · exact absurd hrole hnot
    · rw [hrole] at hnot
      cases hnot
    · exact happly
  obtain ⟨before, tail, hblocks, hblocks', hsection⟩ := placeEvent_blocks h.depicts e
  have hfresh := kept_eq_nil.mp hkept
  rw [hblocks] at hfresh
  have hclean := h.clean
  unfold keptOn at hclean
  rw [clean_iff, hblocks] at hclean
  have hplace : keptOn c.callId (placed state e).nodes =
      if signatureOpen c.signature (foldBlocks (openSection seen)) then [(none, none)] else [] := by
    have hnone : before.filterMap (TranscriptBlock.keptFor c.callId) = [] :=
      kept_eq_nil.mpr fun b hb => hfresh b (List.mem_append_left _ hb)
    unfold keptOn placed
    rw [hblocks', List.filterMap_append, hnone, List.nil_append, ← hsection, signatureOpen_core]
    exact kept_apply_call hc (fun b hb => hfresh b (List.mem_append_right _ hb))
      (fun b hb => hclean b (List.mem_append_right _ hb))
  rcases topLevel_cases hrole h.idle with ⟨-, hnocall, -⟩ | ⟨-, callId, htop, hrouted, hcall⟩
  · rw [hc] at hnocall
    cases hnocall
  · obtain rfl := hcall c hc
    obtain ⟨nodes, pending, hdrain, -, -, hnothing, hall⟩ :=
      drainPending_spec (placed state e) c.callId
    obtain ⟨_, -, -, hnone, hsome⟩ :=
      drain_spec c.callId (pendingFor state.pendingNested c.callId) (placed state e)
    rw [happly, htop, hdrain, hrouted]
    have hqueue : pendingFor (placed state e).pendingNested c.callId = waiting := hwaiting
    constructor
    · intro hopen
      rw [hopen, if_pos rfl] at hplace
      obtain ⟨hnodes, hempty⟩ := hall _ hplace
      rw [(hsome _ hplace).2.2, hwaiting]
      rw [hqueue] at hnodes
      exact ⟨⟨hnodes, hempty⟩, rfl⟩
    · intro hclosed
      rw [hclosed, if_neg Bool.false_ne_true] at hplace
      obtain ⟨hnodes, hsame⟩ := hnothing hplace
      rw [(hnone hplace).2.2]
      exact ⟨⟨hnodes, hsame.trans hqueue⟩, rfl⟩

/-! ### Runs -/

theorem routedFrom_append (first rest : List (AgentContentEvent Args)) (state : PageState Args) :
    routedFrom state (first ++ rest) =
      routedFrom state first ++ routedFrom (first.foldl applyContentEvent state) rest := by
  induction first generalizing state with
  | nil => rfl
  | cons e first ih => rw [List.cons_append, routedFrom, ih, routedFrom, List.append_assoc]; rfl

omit [StableJson Args] in
theorem ofCall_append (events events' : List (AgentContentEvent Args)) :
    ofCall callId (events ++ events') = ofCall callId events ++ ofCall callId events' :=
  List.filter_append _ _

/-- No event is a call of the page's own agent with this id. -/
def NoCall (callId : String) (events : List (AgentContentEvent Args)) : Prop :=
  ∀ e ∈ events, e.role = .output → ∀ c, e.call = some c → c.callId ≠ callId

theorem Replayed.waits_run (hid : callId ≠ "") (rest : List (AgentContentEvent Args))
    (hnocall : NoCall callId rest) {seen : List (AgentContentEvent Args)} {state : PageState Args}
    (h : Replayed seen state) {waiting : List (AgentContentEvent Args)}
    (hwaits : Waits callId waiting state) :
    Replayed (seen ++ rest) (rest.foldl applyContentEvent state) ∧
      Waits callId (rest.foldl (waitingStep callId) waiting) (rest.foldl applyContentEvent state) ∧
      ofCall callId (routedFrom state rest) = [] := by
  induction rest generalizing seen state waiting with
  | nil => exact ⟨by rwa [List.append_nil], hwaits, rfl⟩
  | cons e rest ih =>
      obtain ⟨hnext, hrouted⟩ := h.waits hid (hnocall e List.mem_cons_self) hwaits
      obtain ⟨hreplayed, hlast, hnone⟩ :=
        ih (fun e' he' => hnocall e' (List.mem_cons_of_mem _ he')) (h.next e) hnext
      rw [List.append_assoc] at hreplayed
      exact ⟨hreplayed, hlast, by rw [routedFrom, ofCall_append, hrouted, hnone]; rfl⟩

theorem Replayed.follows_run (hid : callId ≠ "") (rest : List (AgentContentEvent Args))
    (hnocall : NoCall callId rest) {seen : List (AgentContentEvent Args)} {state : PageState Args}
    (h : Replayed seen state)
    {kept : Option (NestedTranscript Args) × Option SubagentExecutionItem}
    (hfollows : Reached callId kept state) :
    Reached callId ((nestedEvents callId rest).foldl keepNested kept)
        (rest.foldl applyContentEvent state) ∧
      ofCall callId (routedFrom state rest) = nestedEvents callId rest := by
  induction rest generalizing seen state kept with
  | nil => exact ⟨hfollows, rfl⟩
  | cons e rest ih =>
      obtain ⟨hnext, hrouted⟩ := h.follows hid (hnocall e List.mem_cons_self) hfollows
      obtain ⟨hlast, hall⟩ :=
        ih (fun e' he' => hnocall e' (List.mem_cons_of_mem _ he')) (h.next e) hnext
      unfold nestedEvents at hlast hall ⊢
      rw [routedFrom, ofCall_append, hrouted, hall, List.filter_cons]
      cases hin : e.isNestedIn callId with
      | true =>
          rw [hin] at hlast
          exact ⟨hlast, rfl⟩
      | false =>
          rw [hin] at hlast
          exact ⟨hlast, rfl⟩

omit [StableJson Args] in
theorem isNestedIn_of_output (h : e.role = .output) (callId : String) : e.isNestedIn callId = false := by
  have hempty := nestedCallId_of_output h
  unfold AgentContentEvent.isNestedIn AgentContentEvent.isNested
  split <;> simp [hempty]

omit [StableJson Args] in
/-- The queue has all events of a call unless an error has emptied it. -/
theorem waiting_eq_iff (callId : String) (before : List (AgentContentEvent Args)) :
    before.foldl (waitingStep callId) [] = nestedEvents callId before ↔
      before.Pairwise (fun n x => n.isNestedIn callId = true → x.isTopLevelError = false) := by
  induction before using List.reverseRecOn with
  | nil => exact ⟨fun _ => .nil, fun _ => rfl⟩
  | append_singleton before x ih =>
      rw [List.foldl_append, List.foldl_cons, List.foldl_nil, nestedEvents, List.filter_append,
        List.pairwise_append]
      simp only [List.mem_singleton, forall_eq, List.pairwise_singleton, true_and]
      rw [← ih]
      unfold waitingStep
      cases herror : x.isTopLevelError with
      | true =>
          have hrole : x.role = .output := by
            simp only [AgentContentEvent.isTopLevelError, Bool.and_eq_true, decide_eq_true_eq] at herror
            exact herror.1
          have hlast : [x].filter (AgentContentEvent.isNestedIn callId) = [] := by
            simp [isNestedIn_of_output hrole]
          rw [hlast, List.append_nil, if_pos rfl]
          constructor
          · intro hnone
            have habsent : ∀ n ∈ before, n.isNestedIn callId = false := fun n hn => by
              rw [Bool.eq_false_iff]
              intro hin
              have hmem : n ∈ nestedEvents callId before := List.mem_filter.mpr ⟨hn, hin⟩
              unfold nestedEvents at hmem
              rw [← hnone] at hmem
              cases hmem
            refine ⟨?_, fun n hn hin => ?_⟩
            · refine ih.mpr (List.pairwise_iff_forall_sublist.mpr fun hsub hin => ?_)
              rw [habsent _ (hsub.mem List.mem_cons_self)] at hin
              cases hin
            · rw [habsent n hn] at hin
              cases hin
          · rintro ⟨-, hnone⟩
            refine (List.filter_eq_nil_iff.mpr fun n hn hin => ?_).symm
            cases hnone n hn hin
      | false =>
          cases hin : x.isNestedIn callId with
          | true => simp [hin, nestedEvents]
          | false => simp [hin, nestedEvents]

/-! ### The calls of a timeline -/

omit [StableJson Args] in
/-- Under distinct keys a call has one event. -/
theorem only_event {before after : List (AgentContentEvent Args)} {c : Call Args}
    (hkeys : DistinctKeys (before ++ e :: after)) (hrole : e.role = .output)
    (hc : e.call = some c) : NoCall c.callId before ∧ NoCall c.callId after := by
  unfold DistinctKeys at hkeys
  have hsame : ∀ e', e'.role = .output → ∀ c', e'.call = some c' → c'.callId = c.callId →
      clientItemKey e' = clientItemKey e ∧ clientItemKey e ≠ "" := fun e' hrole' c' hc' hid =>
    SameKey.clientItemKey_eq (.inr (.inl ⟨c', c, hc', hc, hid⟩)) hrole' hrole
  rw [List.map_append, List.map_cons, List.filter_append, List.nodup_append] at hkeys
  obtain ⟨-, hafter, hbefore⟩ := hkeys
  constructor
  · intro e' he' hrole' c' hc' hid
    obtain ⟨hkey, hne⟩ := hsame e' hrole' c' hc' hid
    refine hbefore (clientItemKey e') ?_ (clientItemKey e) ?_ hkey
    · exact List.mem_filter.mpr ⟨List.mem_map_of_mem he', by simpa [hkey] using hne⟩
    · exact List.mem_filter.mpr ⟨List.mem_cons_self, by simpa using hne⟩
  · intro e' he' hrole' c' hc' hid
    obtain ⟨hkey, hne⟩ := hsame e' hrole' c' hc' hid
    rw [List.filter_cons_of_pos (by simpa using hne)] at hafter
    refine (List.nodup_cons.mp hafter).1 (List.mem_filter.mpr ⟨?_, by simpa using hne⟩)
    exact hkey ▸ List.mem_map_of_mem he'

theorem replayed_nil : Replayed ([] : List (AgentContentEvent Args)) {} :=
  ⟨⟨rfl, rfl, fun _ => rfl, fun h => by cases h⟩, (fun _ h => by cases h), (fun _ _ h => by cases h)⟩

omit [StableJson Args] in
theorem openSection_mem (seen : List (AgentContentEvent Args)) :
    openSection seen = [] ∨ openSection seen ∈ sections seen := by
  unfold openSection
  split
  · rename_i id g _ hlast
    exact .inr (List.mem_filterMap.mpr ⟨_, List.mem_of_getLast? hlast, rfl⟩)
  · exact .inl rfl

/-- The open section has a signature free exactly if no call of another id has
it. -/
theorem signatureOpen_iff {seen : List (AgentContentEvent Args)} (hkeys : DistinctKeys seen)
    (signature : String) : signatureOpen signature (foldBlocks (openSection seen)) = true ↔
      ∀ e' ∈ openSection seen, ∀ c', e'.call = some c' → c'.callId ≠ "" →
        c'.signature ≠ signature := by
  refine (namedBy_foldBlocks _ ?_).signatures signature
  rcases openSection_mem seen with hnone | hmem
  · rw [hnone]
    exact .nil
  · exact pairwise_section (sections_keys hkeys) _ hmem

/-- The events of a nested run, on what a block keeps. -/
theorem foldl_nestedUpdate (events : List (AgentContentEvent Args))
    (item : ToolExecutionItem Args (NestedTranscript Args)) :
    events.foldl (fun tool e => nestedUpdate e tool) item.core = item ↔
      item.kept = events.foldl keepNested (none, none) := by
  have hrun : ∀ (events : List (AgentContentEvent Args))
      (tool : ToolExecutionItem Args (NestedTranscript Args)),
      (events.foldl (fun tool e => nestedUpdate e tool) tool).kept =
        events.foldl keepNested tool.kept ∧
      (events.foldl (fun tool e => nestedUpdate e tool) tool).core = tool.core := by
    intro events
    induction events with
    | nil => exact fun tool => ⟨rfl, rfl⟩
    | cons e rest ih =>
        intro tool
        obtain ⟨hkept, hcore⟩ := ih (nestedUpdate e tool)
        rw [(nestedUpdate_kept e tool).1] at hkept
        exact ⟨hkept, hcore.trans (nestedUpdate_core e tool)⟩
  obtain ⟨hkept, hcore⟩ := hrun events item.core
  constructor
  · intro heq
    rw [heq] at hkept
    exact hkept
  · intro heq
    have hsame : ∀ a b : ToolExecutionItem Args (NestedTranscript Args), a.kept = b.kept →
        a.core = b.core → a = b := by
      rintro ⟨⟩ ⟨⟩ hk hc
      simp only [ToolExecutionItem.kept, Prod.mk.injEq, ToolExecutionItem.core,
        ToolExecutionItem.mk.injEq] at hk hc ⊢
      obtain ⟨h₁, h₂, h₃, h₄, h₅, h₆, -, -⟩ := hc
      exact ⟨h₁, h₂, h₃, h₄, h₅, h₆, hk.1, hk.2⟩
    exact hsame _ _ (hkept.trans heq.symm) hcore

/-- **One call.**  It is reached exactly when it is awaited. -/
theorem reachesCall_iff {before after : List (AgentContentEvent Args)} {c : Call Args}
    (hkeys : DistinctKeys (before ++ e :: after)) (hrole : e.role = .output)
    (hc : e.call = some c) (hid : c.callId ≠ "") :
    ReachesCall (before ++ e :: after) c.callId ↔ Awaited before c := by
  obtain ⟨hbefore, hafter⟩ := only_event hkeys hrole hc
  have hkeys' : DistinctKeys before := by
    unfold DistinctKeys at hkeys ⊢
    rw [List.map_append, List.filter_append, List.nodup_append] at hkeys
    exact hkeys.1
  have hstart : Waits c.callId [] ({} : PageState Args) := ⟨rfl, rfl⟩
  obtain ⟨hreplayed, hwaits, hnone⟩ := replayed_nil.waits_run hid before hbefore hstart
  rw [List.nil_append] at hreplayed
  obtain ⟨hopen, hclosed⟩ := hreplayed.call hrole hc hwaits
  have hnext := hreplayed.next e
  have hrun : (before ++ e :: after).foldl applyContentEvent ({} : PageState Args) =
      after.foldl applyContentEvent (applyContentEvent (before.foldl applyContentEvent {}) e) :=
    List.foldl_append
  have hpage : keptOn c.callId (buildChatNodesFromEvents (before ++ e :: after)) =
      keptOn c.callId (after.foldl applyContentEvent
        (applyContentEvent (before.foldl applyContentEvent {}) e)).nodes := by
    rw [← hrun]
    rfl
  have hevents : nestedEvents c.callId (before ++ e :: after) =
      nestedEvents c.callId before ++ nestedEvents c.callId after := by
    unfold nestedEvents
    rw [List.filter_append, List.filter_cons_of_neg (by simp [isNestedIn_of_output hrole])]
  cases hsignature : signatureOpen c.signature (foldBlocks (openSection before)) with
  | true =>
      obtain ⟨hfollows, hrouted⟩ := hopen hsignature
      obtain ⟨⟨hlast, -⟩, hrest⟩ := hnext.follows_run hid after hafter hfollows
      have hwaiting : ofCall c.callId (before.foldl (waitingStep c.callId) []) =
          before.foldl (waitingStep c.callId) [] := by
        refine List.filter_eq_self.mpr fun n hn => ?_
        rw [← hwaits.2] at hn
        simpa using (isNestedIn_iff.mp (hreplayed.queued c.callId n hn)).2
      have hall : ofCall c.callId (routedFrom {} (before ++ e :: after)) =
          before.foldl (waitingStep c.callId) [] ++ nestedEvents c.callId after := by
        rw [routedFrom_append, routedFrom, ofCall_append, ofCall_append, hnone, hrouted, hwaiting,
          hrest]
        rfl
      have hdistinct := (signatureOpen_iff hkeys' c.signature).mp hsignature
      constructor
      · intro hreaches
        have honce := hall.symm.trans hreaches.once
        rw [hevents] at honce
        exact ⟨hdistinct, (waiting_eq_iff c.callId before).mp (List.append_cancel_right honce)⟩
      · intro hawaited
        have hcomplete := (waiting_eq_iff c.callId before).mpr hawaited.kept
        rw [hcomplete] at hall hlast
        rw [← List.foldl_append, ← hevents, ← hpage] at hlast
        obtain ⟨item, hitem, hkept⟩ := kept_eq_singleton.mp hlast
        refine ⟨?_, item, hitem, ((foldl_nestedUpdate _ item).mpr hkept).symm⟩
        rw [hevents]
        exact hall
  | false =>
      constructor
      · intro hreaches
        obtain ⟨hwaits', -⟩ := hclosed hsignature
        obtain ⟨-, ⟨hlast, -⟩, -⟩ := hnext.waits_run hid after hafter hwaits'
        obtain ⟨item, hitem, -⟩ := hreaches.block
        rw [← hpage] at hlast
        have hmem : TranscriptBlock.tool item ∈
            (pageBlocks (buildChatNodesFromEvents (before ++ e :: after))).filter
              (TranscriptBlock.hasCallId c.callId) := hitem ▸ List.mem_singleton_self _
        obtain ⟨hblock, htrue⟩ := List.mem_filter.mp hmem
        rw [kept_eq_nil.mp hlast _ hblock] at htrue
        cases htrue
      · intro hawaited
        have htrue := (signatureOpen_iff hkeys' c.signature).mpr hawaited.distinct
        rw [hsignature] at htrue
        cases htrue

end OneCall

/-- **Which nested events reach their call.**  Under distinct keys, every event
of a nested run is applied once and in order to the block of its call exactly
when the calls that have nested events are awaited. -/
theorem nested_events_reach_iff (events : List (AgentContentEvent Args))
    (hkeys : DistinctKeys events) :
    (∀ e ∈ events, e.role = .output → ∀ c, e.call = some c → nestedEvents c.callId events ≠ [] →
        ReachesCall events c.callId) ↔
      ∀ before e after, events = before ++ e :: after → e.role = .output → ∀ c, e.call = some c →
        nestedEvents c.callId events ≠ [] → Awaited before c := by
  have hnamed : ∀ callId, nestedEvents callId events ≠ [] → callId ≠ "" := by
    rintro callId hne rfl
    exact hne (List.filter_eq_nil_iff.mpr fun n _ => by simp [isNestedIn_empty])
  constructor
  · rintro hreach before e after rfl hrole c hc hne
    exact (reachesCall_iff hkeys hrole hc (hnamed _ hne)).mp
      (hreach e (List.mem_append_right _ List.mem_cons_self) hrole c hc hne)
  · intro hawaited e he hrole c hc hne
    obtain ⟨before, after, rfl⟩ := List.append_of_mem he
    exact (reachesCall_iff hkeys hrole hc (hnamed _ hne)).mpr
      (hawaited before e after rfl hrole c hc hne)

end Page

/-- A call of the page's agent. -/
def delegation (seq : Int) (callId : String) : AgentContentEvent Unit :=
  { seq := seq, body := .toolCall callId "delegate" () }

/-- A text of the nested run of a call. -/
def nestedText (seq : Int) (callId segmentId text : String) : AgentContentEvent Unit :=
  { seq := seq, nestedCallId := callId, body := .segment .text true segmentId text }

/-- An event before the call and one after it. -/
def awaitedRun : List (AgentContentEvent Unit) :=
  [nestedText 1 "a" "s1" "first", delegation 2 "a", nestedText 3 "a" "s2" "second"]

/-- A call that is awaited. -/
theorem awaited_call_reached : ReachesCall awaitedRun "a" := by
  refine (nested_events_reach_iff awaitedRun (by unfold DistinctKeys; decide)).mpr ?_ (delegation 2 "a")
    (by decide) (by decide) ⟨"a", "delegate", ()⟩ rfl (by decide)
  intro before e after hsplit hrole c hc _
  rcases before with _ | ⟨first, _ | ⟨second, rest⟩⟩
  · obtain ⟨rfl, -⟩ := List.cons.inj hsplit
    cases hrole
  · obtain ⟨rfl, -⟩ := List.cons.inj hsplit
    refine ⟨fun e' he' => ?_, List.pairwise_singleton _ _⟩
    have hnone : openSection [nestedText 1 "a" "s1" "first"] = [] := by decide
    rw [hnone] at he'
    cases he'
  · obtain ⟨-, hsplit⟩ := List.cons.inj hsplit
    obtain ⟨-, hsplit⟩ := List.cons.inj hsplit
    rcases rest with _ | ⟨third, rest⟩
    · obtain ⟨rfl, -⟩ := List.cons.inj hsplit
      cases hrole
    · obtain ⟨-, hsplit⟩ := List.cons.inj hsplit
      cases rest <;> cases hsplit

/-- **Two equal calls share a block.**  The second call has none of its own,
and the events of its nested run are lost. -/
theorem equal_calls_merge :
    ¬∀ events : List (AgentContentEvent Unit), SortedBySeq events → DistinctKeys events →
      ∀ e ∈ events, e.role = .output → ∀ c, e.call = some c → nestedEvents c.callId events ≠ [] →
        ReachesCall events c.callId := by
  intro hall
  have hreaches := hall [delegation 1 "a", delegation 2 "b", nestedText 3 "b" "s1" "lost"]
    (by unfold SortedBySeq; decide) (by unfold DistinctKeys; decide) (delegation 2 "b") (by decide)
    (by decide) ⟨"b", "delegate", ()⟩ rfl (by decide)
  obtain ⟨item, hitem, -⟩ := hreaches.block
  have hnone : (pageBlocks (buildChatNodesFromEvents
      [delegation 1 "a", delegation 2 "b", nestedText 3 "b" "s1" "lost"])).filter
        (TranscriptBlock.hasCallId "b") = [] := by decide
  rw [hnone] at hitem
  cases hitem

/-- An error empties the queues: the event before it is lost. -/
example : routedFrom {} [nestedText 1 "a" "s1" "lost", { seq := 2, body := .error "failed" },
    delegation 3 "a"] = [] := by
  decide

end Workbench
