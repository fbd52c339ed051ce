import Mathlib
import CyberWorkbench.ShownMessages

/-!
# Which agent blocks are kept

Events arrive under distinct keys, yet inside one agent node the reducer also
compares blocks by content: a finished text covers any new text that it starts
with, and a call is taken for an earlier one with the same name and arguments.
A tool result looks for its call in the node that is written to, and nowhere
else.

`agent_output_shown_iff` says that these are the only ways to lose something.
The sections of a timeline are the events of its agent nodes; inside a section
`SectionInv` relates the blocks to the events, and a count of blocks finds the
lost one.
-/

namespace Workbench

/-! ### What blocks and events hold -/

/-- A segment of streamed text. -/
structure Segment where
  kind : SegmentKind
  segmentId : String
  text : String
  complete : Bool
  deriving DecidableEq, Repr

/-- A tool call, as far as it identifies a block. -/
structure Call (Args : Type) where
  callId : String
  name : String
  arguments : Args

/-- The result of a call. -/
structure CallResult where
  callId : String
  output : String
  isError : Bool
  deriving DecidableEq, Repr

section Views

variable {Args ν : Type}

def TranscriptBlock.segment : TranscriptBlock Args ν → Option Segment
  | .streaming kind segmentId text complete => some ⟨kind, segmentId, text, complete⟩
  | _ => none

def TranscriptBlock.item : TranscriptBlock Args ν → Option (ToolExecutionItem Args ν)
  | .tool item => some item
  | _ => none

def ToolExecutionItem.call (item : ToolExecutionItem Args ν) : Call Args :=
  ⟨item.callId, item.name, item.arguments⟩

def TranscriptBlock.call (b : TranscriptBlock Args ν) : Option (Call Args) :=
  b.item.map ToolExecutionItem.call

def AgentContentEvent.segment (e : AgentContentEvent Args) : Option Segment :=
  match e.body with
  | .segment kind complete segmentId text => some ⟨kind, segmentId, text, complete⟩
  | _ => none

/-- The call of an event; a call without a name is not rendered. -/
def AgentContentEvent.call (e : AgentContentEvent Args) : Option (Call Args) :=
  match e.body with
  | .toolCall callId name arguments => if name = "" then none else some ⟨callId, name, arguments⟩
  | _ => none

def AgentContentEvent.result (e : AgentContentEvent Args) : Option CallResult :=
  match e.body with
  | .toolResult callId output isError => some ⟨callId, output, isError⟩
  | _ => none

theorem AgentContentEvent.body_of_segment {e : AgentContentEvent Args} {s : Segment}
    (h : e.segment = some s) : e.body = .segment s.kind s.complete s.segmentId s.text := by
  unfold AgentContentEvent.segment at h
  split at h
  · rename_i hbody
    obtain rfl := Option.some.inj h
    exact hbody
  · cases h

theorem AgentContentEvent.body_of_call {e : AgentContentEvent Args} {c : Call Args}
    (h : e.call = some c) : e.body = .toolCall c.callId c.name c.arguments ∧ c.name ≠ "" := by
  unfold AgentContentEvent.call at h
  split at h
  · rename_i hbody
    split at h
    · cases h
    · rename_i hname
      obtain rfl := Option.some.inj h
      exact ⟨hbody, hname⟩
  · cases h

theorem AgentContentEvent.body_of_result {e : AgentContentEvent Args} {r : CallResult}
    (h : e.result = some r) : e.body = .toolResult r.callId r.output r.isError := by
  unfold AgentContentEvent.result at h
  split at h
  · rename_i hbody
    obtain rfl := Option.some.inj h
    exact hbody
  · cases h

/-- An event is a segment, a call or a result, or none of them. -/
theorem only_segment {e : AgentContentEvent Args} {s : Segment} (h : e.segment = some s) :
    e.call = none ∧ e.result = none := by
  simp [AgentContentEvent.call, AgentContentEvent.result, e.body_of_segment h]

theorem only_call {e : AgentContentEvent Args} {c : Call Args} (h : e.call = some c) :
    e.segment = none ∧ e.result = none := by
  simp [AgentContentEvent.segment, AgentContentEvent.result, e.body_of_call h]

theorem only_result {e : AgentContentEvent Args} {r : CallResult} (h : e.result = some r) :
    e.segment = none ∧ e.call = none := by
  simp [AgentContentEvent.segment, AgentContentEvent.call, e.body_of_result h]

/-! ### The specification -/

/-- Every segment with text has one block, which holds its text, and every
named call has one block, which holds its result if one follows. -/
structure ShowsOutput (events : List (AgentContentEvent Args))
    (blocks : List (TranscriptBlock Args ν)) : Prop where
  segments : ∀ e ∈ events, e.role = .output → ∀ s, e.segment = some s → s.text ≠ "" →
    blocks.filter (TranscriptBlock.isSegment s.kind s.segmentId) =
      [.streaming s.kind s.segmentId s.text s.complete]
  calls : ∀ e ∈ events, e.role = .output → ∀ c, e.call = some c →
    ∃ item, blocks.filter (TranscriptBlock.hasCallId c.callId) = [.tool item] ∧
      item.name = c.name ∧ item.arguments = c.arguments ∧
      ∀ r res, [e, r].Sublist events → r.role = .output → r.result = some res →
        res.callId = c.callId →
          item.resolved = true ∧ item.output = res.output ∧ item.isError = res.isError

def ChatNode.transcript {τ : Type} : ChatNode τ → Option τ
  | .agent _ t => some t
  | .user _ => none

/-- All blocks of the page's agent nodes. -/
def pageBlocks (nodes : List (ChatNode (PageTranscript Args))) :
    List (TranscriptBlock Args (NestedTranscript Args)) :=
  ((nodes.filterMap ChatNode.transcript).map AgentTranscript.blocks).flatten

/-- The events of the agent nodes, one list a node. -/
def sections (events : List (AgentContentEvent Args)) : List (List (AgentContentEvent Args)) :=
  (outline events).nodes.filterMap ChatNode.transcript

/-- Inside a section the later event is taken for the earlier: a text that a
finished one of its kind starts with, or a call with the same signature. -/
def Absorbs [StableJson Args] (e' e : AgentContentEvent Args) : Prop :=
  (∃ s' s, e'.segment = some s' ∧ e.segment = some s ∧ s'.kind = s.kind ∧ s'.complete = true ∧
    s.text ≠ "" ∧ s.text.toList.isPrefixOf s'.text.toList = true) ∨
  (∃ c' c, e'.call = some c' ∧ e.call = some c ∧
    toolSignature c'.name c'.arguments = toolSignature c.name c.arguments)

/-- No section has an event that absorbs a later one, and a result that
follows its call does so in the call's section. -/
structure KeepsOutput [StableJson Args] (events : List (AgentContentEvent Args)) : Prop where
  distinct : ∀ g ∈ sections events, g.Pairwise (fun e' e => ¬ Absorbs e' e)
  together : ∀ e r c res, [e, r].Sublist events → e.role = .output → r.role = .output →
    e.call = some c → r.result = some res → res.callId = c.callId →
      ∃ g ∈ sections events, [e, r].Sublist g

/-! ### Blocks and their views -/

theorem isSegment_iff {kind : SegmentKind} {segmentId : String} {b : TranscriptBlock Args ν} :
    b.isSegment kind segmentId = true ↔
      ∃ s, b.segment = some s ∧ s.kind = kind ∧ s.segmentId = segmentId := by
  cases b <;> simp [TranscriptBlock.isSegment, TranscriptBlock.segment]

theorem hasCallId_iff {callId : String} {b : TranscriptBlock Args ν} :
    b.hasCallId callId = true ↔ ∃ c, b.call = some c ∧ c.callId = callId := by
  cases b <;> simp [TranscriptBlock.hasCallId, TranscriptBlock.call, TranscriptBlock.item,
    ToolExecutionItem.call]

theorem hasSignature_iff [StableJson Args] {signature : String} {b : TranscriptBlock Args ν} :
    b.hasSignature signature = true ↔
      ∃ c, b.call = some c ∧ toolSignature c.name c.arguments = signature := by
  cases b <;> simp [TranscriptBlock.hasSignature, TranscriptBlock.call, TranscriptBlock.item,
    ToolExecutionItem.call]

theorem covers_iff {kind : SegmentKind} {text : String} {b : TranscriptBlock Args ν} :
    b.covers kind text = true ↔ ∃ s, b.segment = some s ∧ s.kind = kind ∧ s.complete = true ∧
      text.toList.isPrefixOf s.text.toList = true := by
  cases b with
  | streaming k segmentId t complete =>
      have hself : t = text → text.toList.isPrefixOf t.toList = true := by
        intro ht
        exact List.isPrefixOf_iff_prefix.mpr (ht ▸ List.prefix_rfl)
      simp only [TranscriptBlock.covers, TranscriptBlock.segment, Bool.and_eq_true, Bool.or_eq_true,
        decide_eq_true_eq, Option.some.injEq]
      constructor
      · rintro ⟨⟨hk, hc⟩, ht⟩
        exact ⟨_, rfl, hk, hc, ht.elim hself id⟩
      · rintro ⟨_, rfl, hk, hc, ht⟩
        exact ⟨⟨hk, hc⟩, .inr ht⟩
  | tool item => simp [TranscriptBlock.covers, TranscriptBlock.segment]
  | subagent item => simp [TranscriptBlock.covers, TranscriptBlock.segment]
  | error message => simp [TranscriptBlock.covers, TranscriptBlock.segment]

/-- Replacing a block by one that looks the same. -/
theorem filterMap_set_same {α β : Type} (v : α → Option β) (l : List α) (i : Nat) (b : α)
    (h : ∀ a, l[i]? = some a → v a = v b) : (l.set i b).filterMap v = l.filterMap v := by
  induction l generalizing i with
  | nil => rfl
  | cons a rest ih =>
      cases i with
      | zero => simp [List.filterMap_cons, h a rfl]
      | succ i => simp [List.filterMap_cons, ih i h]

/-- An update at the tool block of a unique call. -/
theorem updateToolAt_eq_map {callId : String}
    (update : ToolExecutionItem Args ν → ToolExecutionItem Args ν)
    {blocks : List (TranscriptBlock Args ν)} {index : Nat}
    (hunique : blocks.Pairwise (fun a b => ¬ (a.hasCallId callId = true ∧
      b.hasCallId callId = true)))
    (hindex : blocks.findIdx? (TranscriptBlock.hasCallId callId) = some index) :
    updateToolAt blocks index update = blocks.map (fun b =>
      match b with
      | .tool item => if item.callId = callId then .tool (update item) else .tool item
      | b => b) := by
  induction blocks generalizing index with
  | nil => simp at hindex
  | cons b rest ih =>
      obtain ⟨hhead, htail⟩ := List.pairwise_cons.mp hunique
      rw [List.findIdx?_cons] at hindex
      cases hb : b.hasCallId callId with
      | true =>
          have hrest : rest.map (fun b =>
              match b with
              | .tool item => if item.callId = callId then .tool (update item) else .tool item
              | b => b) = rest := by
            refine (List.map_congr_left fun x hx => ?_).trans (List.map_id rest)
            cases x with
            | tool item =>
                have hne : item.callId ≠ callId :=
                  fun heq => hhead _ hx ⟨hb, by simpa [TranscriptBlock.hasCallId] using heq⟩
                simp [hne]
            | _ => rfl
          obtain rfl : 0 = index := by simpa [hb] using hindex
          cases b with
          | tool item =>
              have hid : item.callId = callId := by simpa [TranscriptBlock.hasCallId] using hb
              simp [updateToolAt, hrest, hid]
          | _ => simp [TranscriptBlock.hasCallId] at hb
      | false =>
          obtain ⟨index', hindex', rfl⟩ : ∃ index',
              rest.findIdx? (TranscriptBlock.hasCallId callId) = some index' ∧
                index' + 1 = index := by
            simpa [hb] using hindex
          have hstep : updateToolAt (b :: rest) (index' + 1) update =
              b :: updateToolAt rest index' update := by
            simp only [updateToolAt, List.getElem?_cons_succ]
            split <;> rfl
          rw [hstep, ih htail hindex', List.map_cons]
          cases b with
          | tool item =>
              have hne : item.callId ≠ callId := by simpa [TranscriptBlock.hasCallId] using hb
              simp [hne]
          | _ => rfl

section Apply

variable [StableJson Args] (blocks : List (TranscriptBlock Args ν)) {e : AgentContentEvent Args}

/-- A segment that no block holds yet is covered or pushed. -/
theorem apply_segment {s : Segment} (he : e.segment = some s)
    (hfresh : ∀ b ∈ blocks, b.isSegment s.kind s.segmentId = false) :
    applyEventToBlocks blocks e =
      if hasCoveredCompletedText blocks s.kind s.text then blocks
      else blocks ++ [.streaming s.kind s.segmentId s.text s.complete] := by
  have hindex : findStreamingBlockIndex blocks s.kind s.segmentId = none :=
    findFromEnd_none (TranscriptBlock.isSegment s.kind s.segmentId) hfresh
  cases hcomplete : s.complete <;>
    simp [applyEventToBlocks, e.body_of_segment he, upsertStreamingBlock, hindex, hcomplete]

/-- A call that no block holds yet is taken for one with its signature, or
pushed. -/
theorem apply_call {c : Call Args} (he : e.call = some c)
    (hfresh : ∀ b ∈ blocks, b.hasCallId c.callId = false) :
    applyEventToBlocks blocks e =
      match blocks.findIdx? (TranscriptBlock.hasSignature (toolSignature c.name c.arguments)) with
      | none => blocks ++
          [.tool { callId := c.callId, name := c.name, arguments := c.arguments }]
      | some index =>
          updateToolAt blocks index (fun existing => { existing with
            callId := if existing.callId = "" then c.callId else existing.callId
            name := c.name
            arguments := c.arguments }) := by
  obtain ⟨hbody, hname⟩ := e.body_of_call he
  have hnone : blocks.findIdx? (TranscriptBlock.hasCallId c.callId) = none :=
    List.findIdx?_eq_none_iff.mpr hfresh
  simp only [applyEventToBlocks, hbody, upsertToolCall, if_neg hname, findToolBlockIndex,
    hnone] <;> rfl

theorem apply_result {r : CallResult} (he : e.result = some r) :
    applyEventToBlocks blocks e =
      match blocks.findIdx? (TranscriptBlock.hasCallId r.callId) with
      | none => blocks
      | some index =>
          updateToolAt blocks index (fun existing => { existing with
            output := r.output, isError := r.isError, resolved := true }) := by
  simp only [applyEventToBlocks, e.body_of_result he, upsertToolResult, findToolBlockIndex]
  cases blocks.findIdx? (TranscriptBlock.hasCallId r.callId) <;> rfl

/-- Every other event leaves segments and tool blocks as they are. -/
theorem apply_other (hs : e.segment = none) (hc : e.call = none) (hr : e.result = none) :
    (applyEventToBlocks blocks e).filterMap TranscriptBlock.segment =
        blocks.filterMap TranscriptBlock.segment ∧
      (applyEventToBlocks blocks e).filterMap TranscriptBlock.item =
        blocks.filterMap TranscriptBlock.item := by
  unfold applyEventToBlocks
  cases hbody : e.body with
  | userMessage content displayText targetAgentCode => exact ⟨rfl, rfl⟩
  | turnBoundary => exact ⟨rfl, rfl⟩
  | segment kind complete segmentId text => simp [AgentContentEvent.segment, hbody] at hs
  | toolCall callId name arguments =>
      by_cases hname : name = ""
      · simp [upsertToolCall, hname]
      · simp [AgentContentEvent.call, hbody, hname] at hc
  | toolResult callId output isError => simp [AgentContentEvent.result, hbody] at hr
  | subagentTask task =>
      simp only [upsertSubagentTask]
      split
      · simp [TranscriptBlock.segment, TranscriptBlock.item]
      · rename_i index hindex
        have hold : ∀ b, blocks[index]? = some b → b.segment = none ∧ b.item = none := by
          intro b hb
          obtain ⟨hlt, hrun, -⟩ := List.findIdx?_eq_some_iff_getElem.mp hindex
          rw [List.getElem?_eq_getElem hlt, Option.some.injEq] at hb
          rw [hb] at hrun
          cases b <;> simp [TranscriptBlock.hasRunId] at hrun
          exact ⟨rfl, rfl⟩
        exact ⟨filterMap_set_same _ _ _ _ (fun b hb => (hold b hb).1),
          filterMap_set_same _ _ _ _ (fun b hb => (hold b hb).2)⟩
  | error message => simp [TranscriptBlock.segment, TranscriptBlock.item]

end Apply

/-! ### One section -/

/-- Two events for the same block, or with results for the same call. -/
def SameKey (e' e : AgentContentEvent Args) : Prop :=
  (∃ s' s, e'.segment = some s' ∧ e.segment = some s ∧ s'.kind = s.kind ∧
    s'.segmentId = s.segmentId) ∨
  (∃ c' c, e'.call = some c' ∧ e.call = some c ∧ c'.callId = c.callId) ∨
  (∃ r' r, e'.result = some r' ∧ e.result = some r ∧ r'.callId = r.callId)

/-- The blocks of a section whose events absorb nothing: one for each segment
and each call, in order; resolved exactly by the result that followed. -/
structure SectionInv (seen : List (AgentContentEvent Args))
    (blocks : List (TranscriptBlock Args ν)) : Prop where
  segments : blocks.filterMap TranscriptBlock.segment =
    seen.filterMap AgentContentEvent.segment
  calls : blocks.filterMap TranscriptBlock.call = seen.filterMap AgentContentEvent.call
  resolved : ∀ item ∈ blocks.filterMap TranscriptBlock.item, item.resolved = true →
    ∃ e r c res, [e, r].Sublist seen ∧ e.call = some c ∧ c.callId = item.callId ∧
      r.result = some res ∧ res.callId = item.callId
  results : ∀ item ∈ blocks.filterMap TranscriptBlock.item, ∀ e r c res,
    [e, r].Sublist seen → e.call = some c → c.callId = item.callId →
      r.result = some res → res.callId = item.callId →
        item.resolved = true ∧ item.output = res.output ∧ item.isError = res.isError

theorem sectionInv_nil : SectionInv ([] : List (AgentContentEvent Args))
    ([] : List (TranscriptBlock Args ν)) :=
  ⟨rfl, rfl, nofun, nofun⟩

/-- A later event of a pair is the last one or was seen. -/
theorem pair_sublist_concat {α : Type} {a b x : α} {l : List α}
    (h : [a, b].Sublist (l ++ [x])) : [a, b].Sublist l ∨ (a ∈ l ∧ b = x) := by
  obtain ⟨l₁, l₂, hsplit, h₁, h₂⟩ := List.sublist_append_iff.mp h
  rcases l₁ with _ | ⟨y, _ | ⟨z, rest⟩⟩
  · have hlength := h₂.length_le
    rw [List.nil_append] at hsplit
    simp [← hsplit] at hlength
  · obtain ⟨rfl, rfl⟩ : a = y ∧ [b] = l₂ := by simpa using hsplit
    exact .inr ⟨List.singleton_sublist.mp h₁, by simpa using h₂⟩
  · obtain ⟨rfl, rfl, hrest⟩ : a = y ∧ b = z ∧ [] = rest ++ l₂ := by simpa using hsplit
    obtain ⟨rfl, -⟩ := List.append_eq_nil_iff.mp hrest.symm
    exact .inl h₁

section Step

variable [StableJson Args] {seen : List (AgentContentEvent Args)}
  {blocks : List (TranscriptBlock Args ν)} {x : AgentContentEvent Args}

omit [StableJson Args] in
/-- No block holds the segment of an event with a new key. -/
theorem SectionInv.fresh_segment (h : SectionInv seen blocks)
    (hnew : ∀ e ∈ seen, ¬ SameKey e x) {s : Segment} (hx : x.segment = some s) :
    ∀ b ∈ blocks, b.isSegment s.kind s.segmentId = false := by
  intro b hb
  rw [Bool.eq_false_iff]
  intro hsame
  obtain ⟨s', hs', hkind, hid⟩ := isSegment_iff.mp hsame
  have hmem : s' ∈ seen.filterMap AgentContentEvent.segment :=
    h.segments ▸ List.mem_filterMap.mpr ⟨b, hb, hs'⟩
  obtain ⟨e, he, hes⟩ := List.mem_filterMap.mp hmem
  exact hnew e he (.inl ⟨s', s, hes, hx, hkind, hid⟩)

omit [StableJson Args] in
/-- No block holds the call of an event with a new key. -/
theorem SectionInv.fresh_call (h : SectionInv seen blocks)
    (hnew : ∀ e ∈ seen, ¬ SameKey e x) {c : Call Args} (hx : x.call = some c) :
    ∀ b ∈ blocks, b.hasCallId c.callId = false := by
  intro b hb
  rw [Bool.eq_false_iff]
  intro hsame
  obtain ⟨c', hc', hid⟩ := hasCallId_iff.mp hsame
  have hmem : c' ∈ seen.filterMap AgentContentEvent.call :=
    h.calls ▸ List.mem_filterMap.mpr ⟨b, hb, hc'⟩
  obtain ⟨e, he, hec⟩ := List.mem_filterMap.mp hmem
  exact hnew e he (.inr (.inl ⟨c', c, hec, hx, hid⟩))

/-- The content comparisons of the reducer are those of the events seen. -/
theorem SectionInv.absorbed_iff (h : SectionInv seen blocks) :
    (∃ e ∈ seen, Absorbs e x) ↔
      (∃ s, x.segment = some s ∧ hasCoveredCompletedText blocks s.kind s.text = true) ∨
      (∃ c, x.call = some c ∧
        (blocks.findIdx? (TranscriptBlock.hasSignature
          (toolSignature c.name c.arguments))).isSome = true) := by
  constructor
  · rintro ⟨e, he, ⟨s', s, hes, hxs, hkind, hcomplete, htext, hinitial⟩ |
      ⟨c', c, hec, hxc, hsignature⟩⟩
    · have hmem : s' ∈ blocks.filterMap TranscriptBlock.segment :=
        h.segments ▸ List.mem_filterMap.mpr ⟨e, he, hes⟩
      obtain ⟨b, hb, hbs⟩ := List.mem_filterMap.mp hmem
      refine .inl ⟨s, hxs, ?_⟩
      simp only [hasCoveredCompletedText, Bool.and_eq_true, decide_eq_true_eq, List.any_eq_true]
      exact ⟨htext, b, hb, covers_iff.mpr ⟨s', hbs, hkind, hcomplete, hinitial⟩⟩
    · have hmem : c' ∈ blocks.filterMap TranscriptBlock.call :=
        h.calls ▸ List.mem_filterMap.mpr ⟨e, he, hec⟩
      obtain ⟨b, hb, hbc⟩ := List.mem_filterMap.mp hmem
      refine .inr ⟨c, hxc, ?_⟩
      rw [List.findIdx?_isSome, List.any_eq_true]
      exact ⟨b, hb, hasSignature_iff.mpr ⟨c', hbc, hsignature⟩⟩
  · rintro (⟨s, hxs, hcovered⟩ | ⟨c, hxc, hfound⟩)
    · simp only [hasCoveredCompletedText, Bool.and_eq_true, decide_eq_true_eq,
        List.any_eq_true] at hcovered
      obtain ⟨htext, b, hb, hcovers⟩ := hcovered
      obtain ⟨s', hbs, hkind, hcomplete, hinitial⟩ := covers_iff.mp hcovers
      have hmem : s' ∈ seen.filterMap AgentContentEvent.segment :=
        h.segments ▸ List.mem_filterMap.mpr ⟨b, hb, hbs⟩
      obtain ⟨e, he, hes⟩ := List.mem_filterMap.mp hmem
      exact ⟨e, he, .inl ⟨s', s, hes, hxs, hkind, hcomplete, htext, hinitial⟩⟩
    · rw [List.findIdx?_isSome, List.any_eq_true] at hfound
      obtain ⟨b, hb, hsigned⟩ := hfound
      obtain ⟨c', hbc, hsignature⟩ := hasSignature_iff.mp hsigned
      have hmem : c' ∈ seen.filterMap AgentContentEvent.call :=
        h.calls ▸ List.mem_filterMap.mpr ⟨b, hb, hbc⟩
      obtain ⟨e, he, hec⟩ := List.mem_filterMap.mp hmem
      exact ⟨e, he, .inr ⟨c', c, hec, hxc, hsignature⟩⟩

omit [StableJson Args] in
theorem calls_of_items (blocks : List (TranscriptBlock Args ν)) :
    blocks.filterMap TranscriptBlock.call =
      (blocks.filterMap TranscriptBlock.item).map ToolExecutionItem.call :=
  List.map_filterMap.symm

omit [StableJson Args] in
/-- An event without call or result that leaves the tool blocks alone. -/
theorem SectionInv.same_items {blocks' : List (TranscriptBlock Args ν)}
    (h : SectionInv seen blocks) (hc : x.call = none) (hr : x.result = none)
    (hsegments : blocks'.filterMap TranscriptBlock.segment =
      blocks.filterMap TranscriptBlock.segment ++ x.segment.toList)
    (hitems : blocks'.filterMap TranscriptBlock.item =
      blocks.filterMap TranscriptBlock.item) : SectionInv (seen ++ [x]) blocks' := by
  refine ⟨?_, ?_, ?_, ?_⟩
  · rw [hsegments, h.segments, List.filterMap_append]
    cases hs : x.segment <;> simp [hs]
  · rw [calls_of_items, hitems, ← calls_of_items, h.calls, List.filterMap_append]
    simp [hc]
  · intro item hitem hresolved
    rw [hitems] at hitem
    obtain ⟨e, r, c, res, hsub, hrest⟩ := h.resolved item hitem hresolved
    exact ⟨e, r, c, res, hsub.trans (List.sublist_append_left _ _), hrest⟩
  · intro item hitem e r c res hsub hec hid hres hrid
    rw [hitems] at hitem
    rcases pair_sublist_concat hsub with hsub | ⟨-, rfl⟩
    · exact h.results item hitem e r c res hsub hec hid hres hrid
    · rw [hr] at hres
      cases hres

omit [StableJson Args] in
/-- A call under a new id is pushed unresolved. -/
theorem SectionInv.new_call {blocks' : List (TranscriptBlock Args ν)} {c : Call Args}
    (h : SectionInv seen blocks) (hnew : ∀ e ∈ seen, ¬ SameKey e x) (hc : x.call = some c)
    (hsegments : blocks'.filterMap TranscriptBlock.segment =
      blocks.filterMap TranscriptBlock.segment)
    (hitems : blocks'.filterMap TranscriptBlock.item = blocks.filterMap TranscriptBlock.item ++
      [{ callId := c.callId, name := c.name, arguments := c.arguments }]) :
    SectionInv (seen ++ [x]) blocks' := by
  obtain ⟨hs, hr⟩ := only_call hc
  refine ⟨?_, ?_, ?_, ?_⟩
  · rw [hsegments, h.segments, List.filterMap_append]
    simp [hs]
  · rw [calls_of_items, hitems, List.map_append, ← calls_of_items, h.calls,
      List.filterMap_append]
    simp [hc, ToolExecutionItem.call]
  · intro item hitem hresolved
    rw [hitems, List.mem_append, List.mem_singleton] at hitem
    rcases hitem with hitem | rfl
    · obtain ⟨e, r, c, res, hsub, hrest⟩ := h.resolved item hitem hresolved
      exact ⟨e, r, c, res, hsub.trans (List.sublist_append_left _ _), hrest⟩
    · cases hresolved
  · intro item hitem e r c' res hsub hec hid hres hrid
    rcases pair_sublist_concat hsub with hsub | ⟨-, rfl⟩
    · rw [hitems, List.mem_append, List.mem_singleton] at hitem
      rcases hitem with hitem | rfl
      · exact h.results item hitem e r c' res hsub hec hid hres hrid
      · exact absurd (.inr (.inl ⟨c', c, hec, hc, hid⟩))
          (hnew e (hsub.mem List.mem_cons_self))
    · rw [hr] at hres
      cases hres

omit [StableJson Args] in
/-- A result under a new id resolves its call's block, if there is one. -/
theorem SectionInv.new_result {blocks' : List (TranscriptBlock Args ν)} {r : CallResult}
    (h : SectionInv seen blocks) (hnew : ∀ e ∈ seen, ¬ SameKey e x) (hr : x.result = some r)
    (hsegments : blocks'.filterMap TranscriptBlock.segment =
      blocks.filterMap TranscriptBlock.segment)
    (hitems : blocks'.filterMap TranscriptBlock.item =
      (blocks.filterMap TranscriptBlock.item).map (fun item =>
        if item.callId = r.callId then
          { item with output := r.output, isError := r.isError, resolved := true }
        else item)) :
    SectionInv (seen ++ [x]) blocks' := by
  obtain ⟨hs, hc⟩ := only_result hr
  have hcalled : ∀ item ∈ blocks.filterMap TranscriptBlock.item,
      ∃ e ∈ seen, e.call = some item.call := by
    intro item hitem
    have hmem : item.call ∈ seen.filterMap AgentContentEvent.call := by
      rw [← h.calls, calls_of_items]
      exact List.mem_map_of_mem hitem
    exact List.mem_filterMap.mp hmem
  refine ⟨?_, ?_, ?_, ?_⟩
  · rw [hsegments, h.segments, List.filterMap_append]
    simp [hs]
  · rw [calls_of_items, hitems, List.map_map]
    have hsame : (ToolExecutionItem.call ∘ fun item : ToolExecutionItem Args ν =>
        if item.callId = r.callId then
          { item with output := r.output, isError := r.isError, resolved := true }
        else item) = ToolExecutionItem.call := by
      funext item
      simp only [Function.comp]
      split <;> rfl
    rw [hsame, ← calls_of_items, h.calls, List.filterMap_append]
    simp [hc]
  · intro item hitem hresolved
    rw [hitems] at hitem
    obtain ⟨old, hold, rfl⟩ := List.mem_map.mp hitem
    split at hresolved
    · rename_i hid
      obtain ⟨e, he, hec⟩ := hcalled old hold
      rw [if_pos hid]
      refine ⟨e, x, old.call, r, ?_, hec, rfl, hr, hid.symm⟩
      simpa using (List.singleton_sublist.mpr he).append (List.Sublist.refl [x])
    · rename_i hid
      rw [if_neg hid]
      obtain ⟨e, r, c, res, hsub, hrest⟩ := h.resolved old hold hresolved
      exact ⟨e, r, c, res, hsub.trans (List.sublist_append_left _ _), hrest⟩
  · intro item hitem e r' c res hsub hec hid hres hrid
    rw [hitems] at hitem
    obtain ⟨old, hold, rfl⟩ := List.mem_map.mp hitem
    rcases pair_sublist_concat hsub with hsub | ⟨-, rfl⟩
    · by_cases holdid : old.callId = r.callId
      · rw [if_pos holdid] at hrid
        exact absurd (.inr (.inr ⟨res, r, hres, hr, hrid.trans holdid⟩))
          (hnew r' (hsub.mem (List.mem_cons_of_mem _ List.mem_cons_self)))
      · rw [if_neg holdid] at hid hrid ⊢
        exact h.results old hold e r' c res hsub hec hid hres hrid
    · obtain rfl := Option.some.inj (hr.symm.trans hres)
      by_cases holdid : old.callId = r.callId
      · rw [if_pos holdid]
        exact ⟨rfl, rfl, rfl⟩
      · rw [if_neg holdid] at hrid
        exact absurd hrid.symm holdid

omit [StableJson Args] in
/-- No two blocks hold calls with one id. -/
theorem SectionInv.unique_calls (h : SectionInv seen blocks)
    (hkeys : seen.Pairwise (fun e' e => ¬ SameKey e' e)) (callId : String) :
    blocks.Pairwise (fun a b => ¬ (a.hasCallId callId = true ∧ b.hasCallId callId = true)) := by
  have hcalls : (seen.filterMap AgentContentEvent.call).Pairwise
      (fun c' c => c'.callId ≠ c.callId) := by
    rw [List.pairwise_filterMap]
    exact hkeys.imp (fun hne c' hc' c hc hid => hne (.inr (.inl ⟨c', c, hc', hc, hid⟩)))
  rw [← h.calls, List.pairwise_filterMap] at hcalls
  refine hcalls.imp (fun {a b} hne => ?_)
  rintro ⟨ha, hb⟩
  obtain ⟨c', hc', hid'⟩ := hasCallId_iff.mp ha
  obtain ⟨c, hc, hid⟩ := hasCallId_iff.mp hb
  exact hne c' hc' c hc (hid'.trans hid.symm)

/-- What a result does to the tool blocks. -/
theorem apply_result_views {r : CallResult} (hr : x.result = some r)
    (hunique : blocks.Pairwise (fun a b => ¬ (a.hasCallId r.callId = true ∧
      b.hasCallId r.callId = true))) :
    (applyEventToBlocks blocks x).filterMap TranscriptBlock.segment =
        blocks.filterMap TranscriptBlock.segment ∧
      (applyEventToBlocks blocks x).filterMap TranscriptBlock.item =
        (blocks.filterMap TranscriptBlock.item).map (fun item =>
          if item.callId = r.callId then
            { item with output := r.output, isError := r.isError, resolved := true }
          else item) := by
  rw [apply_result blocks hr]
  cases hindex : blocks.findIdx? (TranscriptBlock.hasCallId r.callId) with
  | none =>
      refine ⟨rfl, ?_⟩
      refine ((List.map_congr_left fun item hitem => ?_).trans (List.map_id _)).symm
      obtain ⟨b, hb, hbitem⟩ := List.mem_filterMap.mp hitem
      have hno := List.findIdx?_eq_none_iff.mp hindex b hb
      cases b with
      | tool item' =>
          obtain rfl : item' = item := Option.some.inj hbitem
          have hne : item'.callId ≠ r.callId := by simpa [TranscriptBlock.hasCallId] using hno
          simp [hne]
      | _ => cases hbitem
  | some index =>
      simp only [updateToolAt_eq_map _ hunique hindex]
      rw [List.filterMap_map, List.filterMap_map, List.map_filterMap]
      constructor
      · congr 1
        funext b
        cases b with
        | tool item => by_cases hid : item.callId = r.callId <;>
            simp [hid, TranscriptBlock.segment]
        | _ => rfl
      · congr 1
        funext b
        cases b with
        | tool item => by_cases hid : item.callId = r.callId <;>
            simp [hid, TranscriptBlock.item]
        | _ => rfl

/-- **Step lemma.**  An event with a new key that nothing absorbs adds its
block, or resolves its call's. -/
theorem SectionInv.apply (h : SectionInv seen blocks)
    (hkeys : seen.Pairwise (fun e' e => ¬ SameKey e' e))
    (hnew : ∀ e ∈ seen, ¬ SameKey e x) (hkept : ∀ e ∈ seen, ¬ Absorbs e x) :
    SectionInv (seen ++ [x]) (applyEventToBlocks blocks x) := by
  have hkept' : ¬ ∃ e ∈ seen, Absorbs e x := fun ⟨e, he, habs⟩ => hkept e he habs
  rw [h.absorbed_iff, not_or] at hkept'
  obtain ⟨huncovered, hunsigned⟩ := hkept'
  cases hs : x.segment with
  | some s =>
      obtain ⟨hc, hr⟩ := only_segment hs
      have hcovered : hasCoveredCompletedText blocks s.kind s.text = false :=
        Bool.eq_false_iff.mpr (fun hc => huncovered ⟨s, hs, hc⟩)
      rw [apply_segment blocks hs (h.fresh_segment hnew hs), hcovered, if_neg (by simp)]
      exact h.same_items hc hr (by simp [hs, TranscriptBlock.segment])
        (by simp [TranscriptBlock.item])
  | none =>
      cases hc : x.call with
      | some c =>
          have hnone : blocks.findIdx? (TranscriptBlock.hasSignature
              (toolSignature c.name c.arguments)) = none :=
            Option.not_isSome_iff_eq_none.mp (fun hfound => hunsigned ⟨c, hc, hfound⟩)
          rw [apply_call blocks hc (h.fresh_call hnew hc), hnone]
          exact h.new_call hnew hc (by simp [TranscriptBlock.segment])
            (by simp [TranscriptBlock.item])
      | none =>
          cases hr : x.result with
          | some r =>
              obtain ⟨hsegments, hitems⟩ :=
                apply_result_views hr (h.unique_calls hkeys r.callId)
              exact h.new_result hnew hr hsegments hitems
          | none =>
              obtain ⟨hsegments, hitems⟩ := apply_other blocks hs hc hr
              exact h.same_items hc hr (by simp [hsegments, hs]) hitems

end Step

/-! ### The sections of a timeline -/

theorem transcripts_showMessage {τ : Type} (nodes : List (ChatNode τ)) (streaming : Bool)
    (node : UserNode) : (showMessage nodes streaming node).filterMap ChatNode.transcript =
      nodes.filterMap ChatNode.transcript := by
  unfold showMessage
  split
  · unfold retarget
    split
    · rename_i shown hshown
      split
      · rfl
      · refine filterMap_set_same _ _ _ _ (fun n hn => ?_)
        obtain rfl := Option.some.inj (hshown.symm.trans hn)
        rfl
    · rfl
  · simp [ChatNode.transcript]

/-- The agent nodes hold the output events, in order. -/
theorem sections_flatten (events : List (AgentContentEvent Args)) :
    (sections events).flatten = events.filter (fun e => decide (e.role = .output)) := by
  have hstep : ∀ (o : Outline Args) (e : AgentContentEvent Args),
      ((o.next e).nodes.filterMap ChatNode.transcript).flatten =
        (o.nodes.filterMap ChatNode.transcript).flatten ++
          [e].filter (fun e => decide (e.role = .output)) := by
    intro o e
    unfold Outline.next
    cases hrole : e.role with
    | message node => simp [hrole, transcripts_showMessage]
    | boundary => simp [hrole]
    | nested => simp [hrole]
    | output =>
        rcases o.place_cases e with ⟨rest, id, es, -, hnodes, hplace⟩ | ⟨-, hplace⟩
        · simp [hrole, hplace, hnodes, ChatNode.transcript]
        · simp [hrole, hplace, ChatNode.transcript]
  have hrun : ∀ o : Outline Args,
      ((events.foldl Outline.next o).nodes.filterMap ChatNode.transcript).flatten =
        (o.nodes.filterMap ChatNode.transcript).flatten ++
          events.filter (fun e => decide (e.role = .output)) := by
    induction events with
    | nil => simp
    | cons e rest ih =>
        intro o
        rw [List.foldl_cons, ih, hstep, List.append_assoc, ← List.filter_append,
          List.singleton_append]
  exact (hrun {}).trans (by simp)

theorem nestedCallId_of_output {e : AgentContentEvent Args} (h : e.role = .output) :
    e.nestedCallId = "" := by
  refine Decidable.byContradiction fun hnested => ?_
  unfold AgentContentEvent.role at h
  cases hbody : e.body <;> simp [hbody, hnested] at h

/-- Output events for one block have one key. -/
theorem SameKey.clientItemKey_eq {e' e : AgentContentEvent Args} (h : SameKey e' e)
    (hrole' : e'.role = .output) (hrole : e.role = .output) :
    clientItemKey e' = clientItemKey e ∧ clientItemKey e ≠ "" := by
  have hnested' := nestedCallId_of_output hrole'
  have hnested := nestedCallId_of_output hrole
  rcases h with ⟨s', s, hs', hs, hkind, hid⟩ | ⟨c', c, hc', hc, hid⟩ | ⟨r', r, hr', hr, hid⟩
  · simp only [clientItemKey, e'.body_of_segment hs', e.body_of_segment hs, hkind, hid, hnested',
      hnested]
    cases s.kind <;> simp
  · simp [clientItemKey, e'.body_of_call hc', e.body_of_call hc, hid, hnested', hnested]
  · simp [clientItemKey, e'.body_of_result hr', e.body_of_result hr, hid, hnested', hnested]

/-- The sections' events have distinct keys. -/
theorem sections_keys {events : List (AgentContentEvent Args)} (h : DistinctKeys events) :
    (sections events).flatten.Pairwise (fun e' e => ¬ SameKey e' e) := by
  rw [sections_flatten, List.pairwise_filter]
  unfold DistinctKeys List.Nodup at h
  rw [List.pairwise_filter, List.pairwise_map] at h
  refine h.imp (fun {a b} hne ha hb hsame => ?_)
  obtain ⟨heq, hkey⟩ := hsame.clientItemKey_eq (of_decide_eq_true ha) (of_decide_eq_true hb)
  exact hne (by simpa [heq] using hkey) (by simpa using hkey) heq

/-- **Run lemma.**  A section in which nothing is absorbed. -/
theorem sectionInv_foldBlocks [StableJson Args] (g : List (AgentContentEvent Args))
    (hkeys : g.Pairwise (fun e' e => ¬ SameKey e' e))
    (hkept : g.Pairwise (fun e' e => ¬ Absorbs e' e)) : SectionInv g (foldBlocks g) := by
  have hrun : ∀ (rest seen : List (AgentContentEvent Args))
      (blocks : List (TranscriptBlock Args (NestedTranscript Args))), SectionInv seen blocks →
      (seen ++ rest).Pairwise (fun e' e => ¬ SameKey e' e) →
      (seen ++ rest).Pairwise (fun e' e => ¬ Absorbs e' e) →
      SectionInv (seen ++ rest) (rest.foldl applyEventToBlocks blocks) := by
    intro rest
    induction rest with
    | nil => exact fun seen blocks h _ _ => by simpa using h
    | cons x rest ih =>
        intro seen blocks h hkeys hkept
        obtain ⟨hseen, -, hkeys'⟩ := List.pairwise_append.mp hkeys
        obtain ⟨-, -, hkept'⟩ := List.pairwise_append.mp hkept
        have hnext := h.apply hseen (fun e he => hkeys' e he x List.mem_cons_self)
          (fun e he => hkept' e he x List.mem_cons_self)
        have hsplit : seen ++ x :: rest = (seen ++ [x]) ++ rest := by simp
        rw [hsplit] at hkeys hkept ⊢
        exact ih (seen ++ [x]) _ hnext hkeys hkept
  exact hrun g [] [] sectionInv_nil hkeys hkept

/-! ### Counting blocks -/

/-- The key of a block that shows something. -/
def TranscriptBlock.key : TranscriptBlock Args ν → Option (SegmentKind × String ⊕ String)
  | .streaming kind segmentId text _ => if text = "" then none else some (.inl (kind, segmentId))
  | .tool item => some (.inr item.callId)
  | _ => none

@[simp] theorem TranscriptBlock.key_streaming (kind : SegmentKind) (segmentId text : String)
    (complete : Bool) :
    (TranscriptBlock.streaming kind segmentId text complete : TranscriptBlock Args ν).key =
      if text = "" then none else some (.inl (kind, segmentId)) := rfl

@[simp] theorem TranscriptBlock.key_tool (item : ToolExecutionItem Args ν) :
    (TranscriptBlock.tool item).key = some (.inr item.callId) := rfl

/-- The key of an event that has a block to show. -/
def AgentContentEvent.key (e : AgentContentEvent Args) :
    Option (SegmentKind × String ⊕ String) :=
  match e.segment with
  | some s => if s.text = "" then none else some (.inl (s.kind, s.segmentId))
  | none => e.call.map (fun c => .inr c.callId)

/-- How many blocks show something. -/
def shownCount (blocks : List (TranscriptBlock Args ν)) : Nat :=
  blocks.countP (fun b => b.key.isSome)

/-- How many events have something to show. -/
def sentCount (events : List (AgentContentEvent Args)) : Nat :=
  events.countP (fun e => e.key.isSome)

theorem shownCount_updateToolAt (blocks : List (TranscriptBlock Args ν)) (index : Nat)
    (update : ToolExecutionItem Args ν → ToolExecutionItem Args ν) :
    shownCount (updateToolAt blocks index update) = shownCount blocks := by
  unfold updateToolAt
  split
  · rename_i item hitem
    obtain ⟨hlt, hget⟩ := List.getElem?_eq_some_iff.mp hitem
    have hold : 0 < shownCount blocks :=
      List.countP_pos_iff.mpr ⟨_, List.mem_of_getElem? hitem, rfl⟩
    rw [shownCount, List.countP_set hlt, hget]
    simp only [TranscriptBlock.key_tool, Option.isSome_some, if_true]
    exact Nat.sub_add_cancel hold
  · rfl

theorem shownCount_set_le (blocks : List (TranscriptBlock Args ν)) (index : Nat)
    (b : TranscriptBlock Args ν) :
    shownCount (blocks.set index b) ≤ shownCount blocks + shownCount [b] := by
  by_cases hlt : index < blocks.length
  · rw [shownCount, List.countP_set hlt]
    simp only [shownCount, List.countP_singleton]
    omega
  · rw [List.set_eq_of_length_le (by omega)]
    exact Nat.le_add_right _ _

section Count

variable [StableJson Args] (blocks : List (TranscriptBlock Args ν)) (e : AgentContentEvent Args)

/-- An event shows at most its own block. -/
theorem shownCount_apply_le :
    shownCount (applyEventToBlocks blocks e) ≤ shownCount blocks + sentCount [e] := by
  unfold applyEventToBlocks
  cases hbody : e.body with
  | userMessage content displayText targetAgentCode => exact Nat.le_add_right _ _
  | turnBoundary => exact Nat.le_add_right _ _
  | segment kind complete segmentId text =>
      -- Only the text decides whether a block shows something.
      have hblock : ∀ (k : SegmentKind) (s : String) (c : Bool),
          shownCount [(.streaming k s text c : TranscriptBlock Args ν)] = sentCount [e] := by
        intro k s c
        by_cases htext : text = "" <;>
          simp [sentCount, shownCount, AgentContentEvent.key, AgentContentEvent.segment, hbody,
            htext]
      simp only [upsertStreamingBlock]
      split
      · split
        · exact Nat.le_add_right _ _
        · rw [shownCount, List.countP_append, ← hblock kind segmentId]
          exact Nat.le_refl _
      · split
        · exact Nat.le_trans (List.eraseIdx_sublist _ _).countP_le (Nat.le_add_right _ _)
        · split
          · split
            · exact Nat.le_add_right _ _
            · refine Nat.le_trans (shownCount_set_le _ _ _) ?_
              exact Nat.le_of_eq (by rw [hblock])
          · exact Nat.le_add_right _ _
  | toolCall callId name arguments =>
      simp only [upsertToolCall]
      split
      · exact Nat.le_add_right _ _
      · rename_i hname
        split
        · simp [shownCount, sentCount, AgentContentEvent.key, AgentContentEvent.segment,
            AgentContentEvent.call, hbody, hname]
        · rw [shownCount_updateToolAt]
          exact Nat.le_add_right _ _
  | toolResult callId output isError =>
      simp only [upsertToolResult]
      split
      · exact Nat.le_add_right _ _
      · rw [shownCount_updateToolAt]
        exact Nat.le_add_right _ _
  | subagentTask task =>
      simp only [upsertSubagentTask]
      split
      · simp [shownCount, TranscriptBlock.key]
      · exact Nat.le_trans (shownCount_set_le _ _ _) (by simp [shownCount, TranscriptBlock.key])
  | error message => simp [shownCount, TranscriptBlock.key]

omit [StableJson Args] in
theorem sentCount_append (a b : List (AgentContentEvent Args)) :
    sentCount (a ++ b) = sentCount a + sentCount b := List.countP_append

theorem shownCount_foldl_le (events : List (AgentContentEvent Args)) :
    shownCount (events.foldl applyEventToBlocks blocks) ≤
      shownCount blocks + sentCount events := by
  induction events generalizing blocks with
  | nil => exact Nat.le_refl _
  | cons e rest ih =>
      have hstep := shownCount_apply_le blocks e
      have hrest := ih (applyEventToBlocks blocks e)
      have hsplit : sentCount (e :: rest) = sentCount [e] + sentCount rest :=
        sentCount_append [e] rest
      rw [List.foldl_cons]
      omega

/-- **An absorbed event shows no block of its own.** -/
theorem SectionInv.shownCount_absorbed {seen : List (AgentContentEvent Args)}
    {blocks : List (TranscriptBlock Args ν)} {x : AgentContentEvent Args}
    (h : SectionInv seen blocks) (hnew : ∀ e ∈ seen, ¬ SameKey e x)
    (habsorbed : ∃ e ∈ seen, Absorbs e x) :
    shownCount (applyEventToBlocks blocks x) < shownCount blocks + sentCount [x] := by
  rcases h.absorbed_iff.mp habsorbed with ⟨s, hs, hcovered⟩ | ⟨c, hc, hfound⟩
  · have htext : s.text ≠ "" := by
      simp only [hasCoveredCompletedText, Bool.and_eq_true, decide_eq_true_eq] at hcovered
      exact hcovered.1
    rw [apply_segment blocks hs (h.fresh_segment hnew hs), if_pos hcovered]
    simp [sentCount, AgentContentEvent.key, hs, htext]
  · obtain ⟨index, hindex⟩ := Option.isSome_iff_exists.mp hfound
    rw [apply_call blocks hc (h.fresh_call hnew hc), hindex]
    simp only [shownCount_updateToolAt]
    simp [sentCount, AgentContentEvent.key, (only_call hc).1, hc]

/-- A section in which something is absorbed shows fewer blocks than it has
events to show. -/
theorem shownCount_foldBlocks_lt {g : List (AgentContentEvent Args)}
    (hkeys : g.Pairwise (fun e' e => ¬ SameKey e' e))
    (habsorbed : ¬ g.Pairwise (fun e' e => ¬ Absorbs e' e)) :
    shownCount (foldBlocks g) < sentCount g := by
  have hrun : ∀ (rest seen : List (AgentContentEvent Args))
      (blocks : List (TranscriptBlock Args (NestedTranscript Args))), SectionInv seen blocks →
      (seen ++ rest).Pairwise (fun e' e => ¬ SameKey e' e) →
      seen.Pairwise (fun e' e => ¬ Absorbs e' e) →
      ¬ (seen ++ rest).Pairwise (fun e' e => ¬ Absorbs e' e) →
      shownCount (rest.foldl applyEventToBlocks blocks) < shownCount blocks + sentCount rest := by
    intro rest
    induction rest with
    | nil => exact fun seen blocks _ _ hseen hbad => absurd (by simpa using hseen) hbad
    | cons x rest ih =>
        intro seen blocks h hkeys hseen hbad
        obtain ⟨hkeysSeen, -, hkeys'⟩ := List.pairwise_append.mp hkeys
        have hnew : ∀ e ∈ seen, ¬ SameKey e x := fun e he => hkeys' e he x List.mem_cons_self
        have hsent : sentCount (x :: rest) = sentCount [x] + sentCount rest :=
          sentCount_append [x] rest
        rw [List.foldl_cons, hsent]
        by_cases hx : ∃ e ∈ seen, Absorbs e x
        · have hstep := h.shownCount_absorbed hnew hx
          have hrest := shownCount_foldl_le (applyEventToBlocks blocks x) rest
          omega
        · have hkept : ∀ e ∈ seen, ¬ Absorbs e x := fun e he habs => hx ⟨e, he, habs⟩
          have hstep := shownCount_apply_le blocks x
          have hsplit : seen ++ x :: rest = (seen ++ [x]) ++ rest := by simp
          rw [hsplit] at hkeys hbad
          have hseen' : (seen ++ [x]).Pairwise (fun e' e => ¬ Absorbs e' e) := by
            rw [List.pairwise_append]
            exact ⟨hseen, List.pairwise_singleton _ _,
              fun e he y hy => List.mem_singleton.mp hy ▸ hkept e he⟩
          have hrest := ih (seen ++ [x]) _ (h.apply hkeysSeen hnew hkept) hkeys hseen' hbad
          omega
  have hlt := hrun g [] [] sectionInv_nil hkeys List.Pairwise.nil habsorbed
  rw [foldBlocks]
  simpa [shownCount] using hlt

end Count

/-! ### The page -/

section Page

variable [StableJson Args]

/-- The page's blocks are those of the sections. -/
theorem pageBlocks_core (events : List (AgentContentEvent Args)) :
    (pageBlocks (buildChatNodesFromEvents events)).map TranscriptBlock.core =
      ((sections events).map foldBlocks).flatten := by
  have hmap : ∀ {τ υ : Type} (f : τ → υ) (nodes : List (ChatNode τ)),
      (nodes.map (ChatNode.map f)).filterMap ChatNode.transcript =
        (nodes.filterMap ChatNode.transcript).map f := by
    intro τ υ f nodes
    rw [List.filterMap_map, List.map_filterMap]
    congr 1
    funext n
    cases n <;> rfl
  have hnodes := congrArg (List.filterMap ChatNode.transcript) (buildChatNodes_outline events)
  rw [hmap, hmap] at hnodes
  rw [pageBlocks, List.map_flatten, List.map_map]
  exact congrArg List.flatten hnodes

omit [StableJson Args] in
theorem map_core_eq_streaming {l : List (TranscriptBlock Args ν)} {kind : SegmentKind}
    {segmentId text : String} {complete : Bool} :
    l.map TranscriptBlock.core = [.streaming kind segmentId text complete] ↔
      l = [.streaming kind segmentId text complete] := by
  rw [List.map_eq_singleton_iff]
  constructor
  · rintro ⟨b, rfl, hb⟩
    cases b <;> simp [TranscriptBlock.core] at hb ⊢
    exact hb
  · rintro rfl
    exact ⟨_, rfl, rfl⟩

omit [StableJson Args] in
theorem map_core_eq_tool {l : List (TranscriptBlock Args ν)}
    {item : ToolExecutionItem Args ν} :
    l.map TranscriptBlock.core = [.tool item] ↔ ∃ item', l = [.tool item'] ∧ item'.core = item := by
  rw [List.map_eq_singleton_iff]
  constructor
  · rintro ⟨b, rfl, hb⟩
    cases b <;> simp [TranscriptBlock.core] at hb
    exact ⟨_, rfl, hb⟩
  · rintro ⟨item', rfl, rfl⟩
    exact ⟨_, rfl, rfl⟩

omit [StableJson Args] in
/-- What is nested in a tool block does not matter. -/
theorem showsOutput_core (events : List (AgentContentEvent Args))
    (blocks : List (TranscriptBlock Args ν)) :
    ShowsOutput events (blocks.map TranscriptBlock.core) ↔ ShowsOutput events blocks := by
  have hsegment : ∀ kind segmentId, (blocks.map TranscriptBlock.core).filter
      (TranscriptBlock.isSegment kind segmentId) =
        (blocks.filter (TranscriptBlock.isSegment kind segmentId)).map TranscriptBlock.core := by
    intro kind segmentId
    have hsame : TranscriptBlock.isSegment kind segmentId ∘ TranscriptBlock.core =
        (TranscriptBlock.isSegment kind segmentId : TranscriptBlock Args ν → Bool) :=
      funext (TranscriptBlock.isSegment_core kind segmentId)
    rw [List.filter_map, hsame]
  have hcall : ∀ callId, (blocks.map TranscriptBlock.core).filter
      (TranscriptBlock.hasCallId callId) =
        (blocks.filter (TranscriptBlock.hasCallId callId)).map TranscriptBlock.core := by
    intro callId
    rw [List.filter_map, TranscriptBlock.hasCallId_core]
  constructor
  · intro h
    refine ⟨fun e he hrole s hs htext => ?_, fun e he hrole c hc => ?_⟩
    · rw [← map_core_eq_streaming, ← hsegment]
      exact h.segments e he hrole s hs htext
    · obtain ⟨item, hitem, hrest⟩ := h.calls e he hrole c hc
      rw [hcall, map_core_eq_tool] at hitem
      obtain ⟨item', hfilter, rfl⟩ := hitem
      exact ⟨item', hfilter, hrest⟩
  · intro h
    refine ⟨fun e he hrole s hs htext => ?_, fun e he hrole c hc => ?_⟩
    · rw [hsegment, map_core_eq_streaming]
      exact h.segments e he hrole s hs htext
    · obtain ⟨item, hitem, hrest⟩ := h.calls e he hrole c hc
      exact ⟨item.core, by rw [hcall, hitem]; rfl, hrest⟩

omit [StableJson Args] in
theorem mem_sections {events : List (AgentContentEvent Args)} {e : AgentContentEvent Args} :
    e ∈ (sections events).flatten ↔ e ∈ events ∧ e.role = .output := by
  rw [sections_flatten, List.mem_filter, decide_eq_true_eq]

omit [StableJson Args] in
/-- An event that has something to show, and its key. -/
theorem key_cases {e : AgentContentEvent Args} {k : SegmentKind × String ⊕ String}
    (h : e.key = some k) :
    (∃ s, e.segment = some s ∧ s.text ≠ "" ∧ k = .inl (s.kind, s.segmentId)) ∨
      ∃ c, e.call = some c ∧ k = .inr c.callId := by
  unfold AgentContentEvent.key at h
  split at h
  · rename_i s hs
    split at h
    · cases h
    · rename_i htext
      exact .inl ⟨s, hs, htext, (Option.some.inj h).symm⟩
  · obtain ⟨c, hc, rfl⟩ := Option.map_eq_some_iff.mp h
    exact .inr ⟨c, hc, rfl⟩

omit [StableJson Args] in
/-- A page that shows every event has a block for each. -/
theorem ShowsOutput.sentCount_le {events : List (AgentContentEvent Args)}
    {blocks : List (TranscriptBlock Args ν)} (h : ShowsOutput events blocks)
    (hkeys : (sections events).flatten.Pairwise (fun e' e => ¬ SameKey e' e)) :
    sentCount (sections events).flatten ≤ shownCount blocks := by
  have hnodup : ((sections events).flatten.filterMap AgentContentEvent.key).Nodup := by
    unfold List.Nodup
    rw [List.pairwise_filterMap]
    refine hkeys.imp (fun {a b} hne k hk k' hk' heq => hne ?_)
    subst heq
    rcases key_cases hk with ⟨s, hs, -, rfl⟩ | ⟨c, hc, rfl⟩
    · rcases key_cases hk' with ⟨s', hs', -, heq⟩ | ⟨c', hc', heq⟩
      · obtain ⟨hkind, hid⟩ := Prod.mk.inj (Sum.inl.inj heq)
        exact .inl ⟨s, s', hs, hs', hkind, hid⟩
      · cases heq
    · rcases key_cases hk' with ⟨s', hs', -, heq⟩ | ⟨c', hc', heq⟩
      · cases heq
      · exact .inr (.inl ⟨c, c', hc, hc', Sum.inr.inj heq⟩)
  have hsubset : ((sections events).flatten.filterMap AgentContentEvent.key) ⊆
      blocks.filterMap TranscriptBlock.key := by
    intro k hk
    obtain ⟨e, he, hek⟩ := List.mem_filterMap.mp hk
    obtain ⟨hmem, hrole⟩ := mem_sections.mp he
    rw [List.mem_filterMap]
    rcases key_cases hek with ⟨s, hs, htext, rfl⟩ | ⟨c, hc, rfl⟩
    · have hfilter := h.segments e hmem hrole s hs htext
      refine ⟨_, (List.mem_filter.mp (hfilter ▸ List.mem_singleton_self _)).1, ?_⟩
      simp [htext]
    · obtain ⟨item, hfilter, -⟩ := h.calls e hmem hrole c hc
      obtain ⟨hblock, hid⟩ := List.mem_filter.mp
        (hfilter ▸ List.mem_singleton_self (TranscriptBlock.tool item))
      refine ⟨_, hblock, ?_⟩
      have hid : item.callId = c.callId := by simpa [TranscriptBlock.hasCallId] using hid
      simp [hid]
  have hle := hnodup.length_le_of_subset hsubset
  rwa [List.length_filterMap_eq_countP, List.length_filterMap_eq_countP] at hle

private theorem sum_lt_sum {α : Type} (f h : α → Nat) {l : List α}
    (hle : ∀ a ∈ l, f a ≤ h a) (hlt : ∃ a ∈ l, f a < h a) : (l.map f).sum < (l.map h).sum := by
  have hsum : ∀ l : List α, (∀ a ∈ l, f a ≤ h a) → (l.map f).sum ≤ (l.map h).sum := by
    intro l
    induction l with
    | nil => exact fun _ => Nat.le_refl _
    | cons a rest ih =>
        intro hle
        have hrest := ih (fun b hb => hle b (List.mem_cons_of_mem _ hb))
        have ha := hle a List.mem_cons_self
        simp only [List.map_cons, List.sum_cons]
        omega
  obtain ⟨a, ha, hlt⟩ := hlt
  obtain ⟨pre, post, rfl⟩ := List.append_of_mem ha
  have hpre := hsum pre (fun b hb => hle b (List.mem_append_left _ hb))
  have hpost := hsum post
    (fun b hb => hle b (List.mem_append_right _ (List.mem_cons_of_mem _ hb)))
  simp only [List.map_append, List.map_cons, List.sum_append, List.sum_cons]
  omega

omit [StableJson Args] in
theorem pairwise_section {events : List (AgentContentEvent Args)}
    {R : AgentContentEvent Args → AgentContentEvent Args → Prop}
    (h : (sections events).flatten.Pairwise R) : ∀ g ∈ sections events, g.Pairwise R :=
  (List.pairwise_flatten.mp h).1

/-- If every event is shown, nothing is absorbed. -/
theorem ShowsOutput.distinct {events : List (AgentContentEvent Args)}
    (hkeys : (sections events).flatten.Pairwise (fun e' e => ¬ SameKey e' e))
    (h : ShowsOutput events ((sections events).map foldBlocks).flatten) :
    ∀ g ∈ sections events, g.Pairwise (fun e' e => ¬ Absorbs e' e) := by
  intro g hg
  refine Classical.byContradiction fun habsorbed => ?_
  have hle : ∀ g : List (AgentContentEvent Args), shownCount (foldBlocks g) ≤ sentCount g := by
    intro g
    have := shownCount_foldl_le ([] : List (TranscriptBlock Args (NestedTranscript Args))) g
    simpa [shownCount, foldBlocks] using this
  have hlt := sum_lt_sum (fun g => shownCount (foldBlocks g)) sentCount (fun g _ => hle g)
    ⟨g, hg, shownCount_foldBlocks_lt (pairwise_section hkeys g hg) habsorbed⟩
  have hcount := h.sentCount_le hkeys
  unfold sentCount shownCount at hcount hlt
  rw [List.countP_flatten, List.countP_flatten, List.map_map] at hcount
  exact absurd hlt (Nat.not_lt.mpr hcount)

private theorem filter_unique {α : Type} {p : α → Bool} {l : List α} {a : α} (ha : a ∈ l)
    (hp : p a = true) (hunique : l.Pairwise (fun x y => ¬ (p x = true ∧ p y = true))) :
    l.filter p = [a] := by
  induction l with
  | nil => cases ha
  | cons b rest ih =>
      obtain ⟨hhead, htail⟩ := List.pairwise_cons.mp hunique
      cases hb : p b with
      | true =>
          have hrest : rest.filter p = [] :=
            List.filter_eq_nil_iff.mpr (fun x hx hpx => hhead x hx ⟨hb, hpx⟩)
          rcases List.mem_cons.mp ha with rfl | ha
          · rw [List.filter_cons_of_pos hb, hrest]
          · exact absurd ⟨hb, hp⟩ (hhead a ha)
      | false =>
          rcases List.mem_cons.mp ha with rfl | ha
          · rw [hp] at hb
            cases hb
          · rw [List.filter_cons_of_neg (by simp [hb])]
            exact ih ha htail

omit [StableJson Args] in
/-- Events with one key are one event. -/
theorem eq_of_sameKey {events : List (AgentContentEvent Args)} {e' e : AgentContentEvent Args}
    (hkeys : (sections events).flatten.Pairwise (fun e' e => ¬ SameKey e' e))
    (he' : e' ∈ (sections events).flatten) (he : e ∈ (sections events).flatten)
    (h : SameKey e' e) (h' : SameKey e e') : e' = e := by
  refine Classical.byContradiction fun hne => ?_
  obtain ⟨pre, post, hsplit⟩ := List.append_of_mem he'
  rw [hsplit] at hkeys he
  obtain ⟨-, hpost, hpre⟩ := List.pairwise_append.mp hkeys
  rcases List.mem_append.mp he with he | he
  · exact hpre e he e' List.mem_cons_self h'
  · rcases List.mem_cons.mp he with rfl | he
    · exact hne rfl
    · exact (List.pairwise_cons.mp hpost).1 e he h

section Kept

variable {events : List (AgentContentEvent Args)}

/-- The blocks of the sections, in terms of the events. -/
theorem sections_views (hinv : ∀ g ∈ sections events, SectionInv g (foldBlocks g)) :
    ((sections events).map foldBlocks).flatten.filterMap TranscriptBlock.segment =
        (sections events).flatten.filterMap AgentContentEvent.segment ∧
      ((sections events).map foldBlocks).flatten.filterMap TranscriptBlock.call =
        (sections events).flatten.filterMap AgentContentEvent.call := by
  simp only [List.filterMap_flatten, List.map_map]
  exact ⟨congrArg List.flatten (List.map_congr_left fun g hg => (hinv g hg).segments),
    congrArg List.flatten (List.map_congr_left fun g hg => (hinv g hg).calls)⟩

/-- Each segment has one block. -/
theorem segment_shown (hkeys : (sections events).flatten.Pairwise (fun e' e => ¬ SameKey e' e))
    (hinv : ∀ g ∈ sections events, SectionInv g (foldBlocks g)) {e : AgentContentEvent Args}
    (he : e ∈ (sections events).flatten) {s : Segment} (hs : e.segment = some s) :
    ((sections events).map foldBlocks).flatten.filter
        (TranscriptBlock.isSegment s.kind s.segmentId) =
      [.streaming s.kind s.segmentId s.text s.complete] := by
  have hview := (sections_views hinv).1
  have hmem : s ∈ ((sections events).map foldBlocks).flatten.filterMap TranscriptBlock.segment :=
    hview ▸ List.mem_filterMap.mpr ⟨e, he, hs⟩
  obtain ⟨b, hb, hbs⟩ := List.mem_filterMap.mp hmem
  have hblock : b = .streaming s.kind s.segmentId s.text s.complete := by
    cases b <;> simp [TranscriptBlock.segment] at hbs
    subst hbs
    rfl
  subst hblock
  refine filter_unique hb (by simp [TranscriptBlock.isSegment]) ?_
  have hpairs : ((sections events).flatten.filterMap AgentContentEvent.segment).Pairwise
      (fun s' s => ¬ (s'.kind = s.kind ∧ s'.segmentId = s.segmentId)) := by
    rw [List.pairwise_filterMap]
    exact hkeys.imp (fun hne s' hs' s hs hsame =>
      hne (.inl ⟨s', s, hs', hs, hsame.1, hsame.2⟩))
  rw [← hview, List.pairwise_filterMap] at hpairs
  refine hpairs.imp (fun {a b} hne => ?_)
  rintro ⟨ha, hb⟩
  obtain ⟨s₁, hs₁, hkind₁, hid₁⟩ := isSegment_iff.mp ha
  obtain ⟨s₂, hs₂, hkind₂, hid₂⟩ := isSegment_iff.mp hb
  exact hne s₁ hs₁ s₂ hs₂ ⟨hkind₁.trans hkind₂.symm, hid₁.trans hid₂.symm⟩

/-- Each named call has one block. -/
theorem call_shown (hkeys : (sections events).flatten.Pairwise (fun e' e => ¬ SameKey e' e))
    (hinv : ∀ g ∈ sections events, SectionInv g (foldBlocks g)) {e : AgentContentEvent Args}
    (he : e ∈ (sections events).flatten) {c : Call Args} (hc : e.call = some c) :
    ∃ item, ((sections events).map foldBlocks).flatten.filter
        (TranscriptBlock.hasCallId c.callId) = [.tool item] ∧ item.call = c := by
  have hview := (sections_views hinv).2
  have hmem : c ∈ ((sections events).map foldBlocks).flatten.filterMap TranscriptBlock.call :=
    hview ▸ List.mem_filterMap.mpr ⟨e, he, hc⟩
  obtain ⟨b, hb, hbc⟩ := List.mem_filterMap.mp hmem
  obtain ⟨item, hitem, hcall⟩ := Option.map_eq_some_iff.mp hbc
  have hblock : b = .tool item := by
    cases b <;> simp [TranscriptBlock.item] at hitem
    rw [hitem]
  subst hblock
  refine ⟨item, filter_unique hb (hasCallId_iff.mpr ⟨c, hbc, rfl⟩) ?_, hcall⟩
  have hpairs : ((sections events).flatten.filterMap AgentContentEvent.call).Pairwise
      (fun c' c => c'.callId ≠ c.callId) := by
    rw [List.pairwise_filterMap]
    exact hkeys.imp (fun hne c' hc' c hc hid => hne (.inr (.inl ⟨c', c, hc', hc, hid⟩)))
  rw [← hview, List.pairwise_filterMap] at hpairs
  refine hpairs.imp (fun {a b} hne => ?_)
  rintro ⟨ha, hb⟩
  obtain ⟨c₁, hc₁, hid₁⟩ := hasCallId_iff.mp ha
  obtain ⟨c₂, hc₂, hid₂⟩ := hasCallId_iff.mp hb
  exact hne c₁ hc₁ c₂ hc₂ (hid₁.trans hid₂.symm)

/-- **Sufficiency.**  Sections in which nothing is absorbed show every event,
and every result that stays with its call. -/
theorem KeepsOutput.showsOutput
    (hkeys : (sections events).flatten.Pairwise (fun e' e => ¬ SameKey e' e))
    (h : KeepsOutput events) :
    ShowsOutput events ((sections events).map foldBlocks).flatten := by
  have hinv : ∀ g ∈ sections events, SectionInv g (foldBlocks g) := fun g hg =>
    sectionInv_foldBlocks g (pairwise_section hkeys g hg) (h.distinct g hg)
  refine ⟨fun e he hrole s hs _ => segment_shown hkeys hinv (mem_sections.mpr ⟨he, hrole⟩) hs,
    fun e he hrole c hc => ?_⟩
  obtain ⟨item, hfilter, rfl⟩ := call_shown hkeys hinv (mem_sections.mpr ⟨he, hrole⟩) hc
  refine ⟨item, hfilter, rfl, rfl, fun r res hsub hrole' hres hid => ?_⟩
  obtain ⟨g, hg, hpair⟩ := h.together e r item.call res hsub hrole hrole' hc hres hid
  -- The one block of the call is in the section of the call and its result.
  have hmem : item.call ∈ (foldBlocks g).filterMap TranscriptBlock.call :=
    (hinv g hg).calls ▸ List.mem_filterMap.mpr ⟨e, hpair.mem List.mem_cons_self, hc⟩
  obtain ⟨b, hb, hbc⟩ := List.mem_filterMap.mp hmem
  have hflat : b ∈ ((sections events).map foldBlocks).flatten :=
    List.mem_flatten_of_mem (List.mem_map_of_mem hg) hb
  have hone : b ∈ [TranscriptBlock.tool item] :=
    hfilter ▸ List.mem_filter.mpr ⟨hflat, hasCallId_iff.mpr ⟨item.call, hbc, rfl⟩⟩
  obtain rfl := List.mem_singleton.mp hone
  exact (hinv g hg).results item (List.mem_filterMap.mpr ⟨_, hb, rfl⟩) e r item.call res hpair hc
    rfl hres hid

/-- **Necessity.** -/
theorem ShowsOutput.keepsOutput
    (hkeys : (sections events).flatten.Pairwise (fun e' e => ¬ SameKey e' e))
    (h : ShowsOutput events ((sections events).map foldBlocks).flatten) :
    KeepsOutput events := by
  have hdistinct := h.distinct hkeys
  refine ⟨hdistinct, fun e r c res hsub hrole hrole' hc hres hid => ?_⟩
  have he : e ∈ events := hsub.mem List.mem_cons_self
  have hr : r ∈ events := hsub.mem (List.mem_cons_of_mem _ List.mem_cons_self)
  obtain ⟨item, hfilter, -, -, hresult⟩ := h.calls e he hrole c hc
  obtain ⟨hresolved, -⟩ := hresult r res hsub hrole' hres hid
  obtain ⟨hflat, hcallId⟩ := List.mem_filter.mp
    (hfilter ▸ List.mem_singleton_self (TranscriptBlock.tool item))
  have hcallId : item.callId = c.callId := by simpa [TranscriptBlock.hasCallId] using hcallId
  obtain ⟨blocks, hblocks, hitem⟩ := List.mem_flatten.mp hflat
  obtain ⟨g, hg, rfl⟩ := List.mem_map.mp hblocks
  have hinv := sectionInv_foldBlocks g (pairwise_section hkeys g hg) (hdistinct g hg)
  obtain ⟨e', r', c', res', hpair, hc', hid', hres', hrid'⟩ :=
    hinv.resolved item (List.mem_filterMap.mpr ⟨_, hitem, rfl⟩) hresolved
  have hmem : ∀ x ∈ g, x ∈ (sections events).flatten :=
    fun x hx => List.mem_flatten_of_mem hg hx
  have hcalls : c'.callId = c.callId := hid'.trans hcallId
  have hresults : res'.callId = res.callId := (hrid'.trans hcallId).trans hid.symm
  obtain rfl : e' = e := eq_of_sameKey hkeys (hmem e' (hpair.mem List.mem_cons_self))
    (mem_sections.mpr ⟨he, hrole⟩) (.inr (.inl ⟨c', c, hc', hc, hcalls⟩))
    (.inr (.inl ⟨c, c', hc, hc', hcalls.symm⟩))
  obtain rfl : r' = r := eq_of_sameKey hkeys
    (hmem r' (hpair.mem (List.mem_cons_of_mem _ List.mem_cons_self)))
    (mem_sections.mpr ⟨hr, hrole'⟩) (.inr (.inr ⟨res', res, hres', hres, hresults⟩))
    (.inr (.inr ⟨res, res', hres, hres', hresults.symm⟩))
  exact ⟨g, hg, hpair⟩

end Kept

/-- **Which agent output is shown.**  Under distinct keys, every segment with
text and every named call has one block, resolved by a result that follows,
exactly when no event absorbs a later one of its section and results stay in
their calls' sections. -/
theorem agent_output_shown_iff (events : List (AgentContentEvent Args))
    (hkeys : DistinctKeys events) :
    ShowsOutput events (pageBlocks (buildChatNodesFromEvents events)) ↔ KeepsOutput events := by
  rw [← showsOutput_core, pageBlocks_core]
  exact ⟨ShowsOutput.keepsOutput (sections_keys hkeys),
    KeepsOutput.showsOutput (sections_keys hkeys)⟩

end Page

end Views

/-! ### A page that keeps its output, and the shortest loss -/

theorem call_and_result_shown :
    ShowsOutput
      [({ seq := 1, body := .toolCall "c1" "search" () } : AgentContentEvent Unit),
        { seq := 2, body := .toolResult "c1" "found" false }]
      (pageBlocks (buildChatNodesFromEvents
        [{ seq := 1, body := .toolCall "c1" "search" () },
          { seq := 2, body := .toolResult "c1" "found" false }])) := by
  refine (agent_output_shown_iff _ (by unfold DistinctKeys; decide)).mpr ⟨?_, ?_⟩
  · intro g hg
    obtain rfl := List.mem_singleton.mp hg
    refine List.pairwise_pair.mpr ?_
    rintro (⟨s', s, hs', -⟩ | ⟨c', c, -, hc, -⟩)
    · cases hs'
    · cases hc
  · intro e r c res hsub _ _ _ _ _
    exact ⟨_, List.mem_singleton_self _, hsub⟩

/-- **Saying the same twice shows once.**  Two finished segments of one turn
have the same text; the second has no block. -/
theorem repeated_text_hidden :
    (pageBlocks (buildChatNodesFromEvents
      [textComplete 1 "s1" "Done.", textComplete 2 "s2" "Done."])).length = 1 ∧
      ¬ ∀ events : List (AgentContentEvent Unit), SortedBySeq events → DistinctKeys events →
        ShowsOutput events (pageBlocks (buildChatNodesFromEvents events)) := by
  refine ⟨by decide, fun hall => ?_⟩
  have hshown := hall [textComplete 1 "s1" "Done.", textComplete 2 "s2" "Done."]
    (by unfold SortedBySeq; decide) (by unfold DistinctKeys; decide)
  have hlost := hshown.segments (textComplete 2 "s2" "Done.") (by decide) (by decide)
    ⟨.text, "s2", "Done.", true⟩ rfl (by decide)
  exact absurd hlost (by decide)

end Workbench
