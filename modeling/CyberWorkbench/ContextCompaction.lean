import CyberWorkbench.ContextProjection

/-!
# Compaction of the context

`core/conversation/compaction`: when the projected items come near the model's
window, a prefix of them is summarized.  Only the first and the last message
id of the prefix are stored, with the summary, one row a scope.

Token counts, the products of a ratio with a token count and the model that
writes the summary are parameters.
-/

namespace Workbench

open PythonValues

/-- `CompactionScope`. -/
structure CompactionScope where
  sessionId : String
  viewerAgentCode : String
  nestedFor : String := ""
  nestedCallId : String := ""
  deriving DecidableEq, Repr

/-- `AgentContextCompaction`. -/
structure AgentContextCompaction where
  id : Int
  scope : CompactionScope
  startMessageId : Int
  endMessageId : Int
  summaryItem : Dict
  sourceItemCount : Nat := 0
  sourceTokenEstimate : Int := 0
  summaryTokenEstimate : Int := 0
  model : String := ""

/-- The compression settings; a ratio is the function `int(tokens * ratio)`. -/
structure CompressionConfig where
  enabled : Bool := true
  triggerRatio : Int → Int
  hardStopRatio : Int → Int
  targetRatio : Int → Int
  preserveRecentRatio : Int → Int
  preserveRecentItems : Nat
  minItems : Nat
  summaryMaxTokens : Int

/-- `CompactionDecision`. -/
structure CompactionDecision where
  shouldCompact : Bool
  projectedTokens : Int
  contextWindow : Int
  triggerTokens : Int
  targetTokens : Int
  deriving DecidableEq, Repr

/-! ### Token estimates -/

/-- `estimate_items_tokens`, from the length of an item's encoding. -/
def estimateItemsTokens (encodedLength : Dict → Int) (items : List Dict) : Int :=
  (items.map (fun item => 4 + encodedLength item)).sum

/-- `estimate_projection_tokens`. -/
def estimateProjectionTokens (encodedLength : Dict → Int) (projection : List ProjectedItem) :
    List ProjectedItem :=
  projection.map (fun item => { item with
    tokenEstimate := if item.tokenEstimate ≠ 0 then item.tokenEstimate
      else estimateItemsTokens encodedLength [item.item] })

/-! ### Candidates -/

/-- The number of items that are kept, counted from the end. -/
def preservedCount (cfg : CompressionConfig) (preserveTokens : Int) :
    List ProjectedItem → Nat → Int → Nat
  | [], preserved, _ => preserved
  | item :: rest, preserved, preservedTokens =>
      if cfg.preserveRecentItems ≤ preserved ∧ preserveTokens ≤ preservedTokens then preserved
      else preservedCount cfg preserveTokens rest (preserved + 1)
        (preservedTokens + item.tokenEstimate)

/-- The candidate loop while it runs. -/
structure CandidateState where
  candidates : List ProjectedItem := []
  removedTokens : Int := 0
  openAtomicGroups : List String := []
  complete : Nat := 0

/-- The loop body, up to the early return.  `complete` is
`last_complete_index + 1`. -/
def CandidateState.add (cfg : CompressionConfig) (s : CandidateState) (item : ProjectedItem) :
    CandidateState :=
  let candidates := s.candidates ++ [item]
  let groups :=
    if item.atomicGroup = "" then s.openAtomicGroups
    else if item.atomicGroup ∈ s.openAtomicGroups then
      s.openAtomicGroups.filter (fun group => decide (group ≠ item.atomicGroup))
    else s.openAtomicGroups ++ [item.atomicGroup]
  { candidates := candidates
    removedTokens := s.removedTokens + item.tokenEstimate
    openAtomicGroups := groups
    complete := if groups = [] ∧ cfg.minItems ≤ candidates.length then candidates.length
      else s.complete }

/-- The candidate loop; `reached` is the test for the early return. -/
def candidateLoop (cfg : CompressionConfig) (reached : Int → Bool) :
    List ProjectedItem → CandidateState → List ProjectedItem
  | [], s =>
      if s.openAtomicGroups ≠ [] then s.candidates.take s.complete else s.candidates
  | item :: rest, s =>
      if item.sourceMessageIds = [] then candidateLoop cfg reached rest s
      else
        let s := s.add cfg item
        if reached s.removedTokens ∧ cfg.minItems ≤ s.candidates.length ∧
            s.openAtomicGroups = [] then s.candidates
        else candidateLoop cfg reached rest s

/-- `_select_compaction_candidates`; `incoming_tokens` is only logged. -/
def selectCompactionCandidates (cfg : CompressionConfig) (projectedItems : List ProjectedItem)
    (targetTokens projectedTokens : Int) : List ProjectedItem :=
  let preserved := preservedCount cfg (cfg.preserveRecentRatio targetTokens)
    projectedItems.reverse 0 0
  let compactCount := projectedItems.length - preserved
  if compactCount = 0 then []
  else
    candidateLoop cfg
      (fun removedTokens =>
        decide (projectedTokens - removedTokens + cfg.summaryMaxTokens ≤ targetTokens))
      (projectedItems.take compactCount) {}

/-- `_candidate_end_message_id`. -/
def candidateEndMessageId (candidateItems : List ProjectedItem) : Option Int :=
  (candidateItems.flatMap ProjectedItem.sourceMessageIds).max?

/-- `_candidate_start_message_id`. -/
def candidateStartMessageId (candidateItems : List ProjectedItem) : Option Int :=
  (candidateItems.flatMap ProjectedItem.sourceMessageIds).min?

/-! ### The table -/

/-- The order of `get_latest_compaction`: by end, then by id. -/
def laterRow (best : Option AgentContextCompaction) (row : AgentContextCompaction) :
    Option AgentContextCompaction :=
  match best with
  | none => some row
  | some b =>
      if b.endMessageId < row.endMessageId ∨
          (b.endMessageId = row.endMessageId ∧ b.id < row.id) then some row
      else some b

/-- `get_latest_compaction`: the row of the scope with the greatest end, and
among those the greatest id. -/
def getLatestCompaction (rows : List AgentContextCompaction) (scope : CompactionScope) :
    Option ProjectionCompaction :=
  let latest := (rows.filter (fun row => decide (row.scope = scope))).foldl laterRow none
  latest.map (fun row =>
    { id := row.id, startMessageId := row.startMessageId, endMessageId := row.endMessageId,
      summaryItem := row.summaryItem })

/-- `_store_compaction`: the scope's rows are replaced by the new one. -/
def storeCompaction (rows : List AgentContextCompaction) (row : AgentContextCompaction) :
    List AgentContextCompaction :=
  rows.filter (fun r => decide (r.scope ≠ row.scope)) ++ [row]

/-! ### The whole step -/

/-- What `compact_if_needed` is called with. -/
structure CompactionRequest where
  scope : CompactionScope
  contextWindow : Int
  model : String
  projection : List ProjectedItem
  incomingItems : List Dict

/-- What the step gets from outside: token counts, the summary writer (`none`
when it raises), the text format, the lock and the id of a new row. -/
structure CompactionEnvironment where
  encodedLength : Dict → Int
  summarize : List Dict → Option String
  formatContextSummary : String → String
  lockBusy : Bool
  freshId : Int

/-- `_summary_item`. -/
def summaryItem (formatContextSummary : String → String) (summaryText : String) : Dict :=
  [("id", .str contextSummaryItemId), ("type", .str "message"), ("role", .str "user"),
    ("content", .list [.dict
      [("type", .str "input_text"), ("text", .str (formatContextSummary summaryText))]])]

/-- `_raise_if_hard_stop`. -/
def raiseIfHardStop (projectedTokens hardStopTokens : Int) (message : String) :
    Except String Unit :=
  if 0 < hardStopTokens ∧ hardStopTokens ≤ projectedTokens then .error message else .ok ()

/-- `compact_if_needed`, with the table afterwards. -/
def compactIfNeeded (cfg : CompressionConfig) (env : CompactionEnvironment)
    (rows : List AgentContextCompaction) (request : CompactionRequest) :
    Except String (CompactionDecision × List AgentContextCompaction) := do
  let window := request.contextWindow
  if !cfg.enabled || decide (window ≤ 0) then return (⟨false, 0, window, 0, 0⟩, rows)
  let projection := estimateProjectionTokens env.encodedLength request.projection
  let projectedTokens := (projection.map ProjectedItem.tokenEstimate).sum +
    estimateItemsTokens env.encodedLength request.incomingItems
  let triggerTokens := cfg.triggerRatio window
  let hardStopTokens := cfg.hardStopRatio window
  let targetTokens := cfg.targetRatio window
  let skipped : CompactionDecision × List AgentContextCompaction :=
    (⟨false, projectedTokens, window, triggerTokens, targetTokens⟩, rows)
  if projectedTokens < triggerTokens then return skipped
  let candidateItems := selectCompactionCandidates cfg projection targetTokens projectedTokens
  match candidateStartMessageId candidateItems, candidateEndMessageId candidateItems with
  | some startMessageId, some endMessageId =>
      if candidateItems.length < cfg.minItems then return skipped
      match env.summarize (candidateItems.map ProjectedItem.item) with
      | none =>
          raiseIfHardStop projectedTokens hardStopTokens
            "context compaction failed near model context limit"
          return skipped
      | some summaryText =>
          if strip summaryText = "" then
            raiseIfHardStop projectedTokens hardStopTokens
              "context compaction produced an empty summary"
            return skipped
          else if env.lockBusy then return skipped
          else
            let item := summaryItem env.formatContextSummary summaryText
            return (⟨true, projectedTokens, window, triggerTokens, targetTokens⟩,
              storeCompaction rows
                { id := env.freshId, scope := request.scope, startMessageId := startMessageId,
                  endMessageId := endMessageId, summaryItem := item,
                  sourceItemCount := candidateItems.length,
                  sourceTokenEstimate := (candidateItems.map ProjectedItem.tokenEstimate).sum,
                  summaryTokenEstimate := estimateItemsTokens env.encodedLength [item],
                  model := request.model })
  | _, _ => return skipped

end Workbench
