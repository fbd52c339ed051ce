import CyberWorkbench.ContextProjection

/-!
# The budget of a model call

`core/conversation/context_budget`: before every call the input items are cut to
what the context window leaves.  A leading context summary is the anchor.  The
items behind it are cut into chunks that keep a tool call with its output, as
many of the latest chunks are kept as fit, and a notice stands for the others.

The estimate of a list of items is a parameter.
-/

namespace Workbench

open PythonValues

/-- `ContextBudget`. -/
structure ContextBudget where
  model : String
  contextWindow : Int
  inputBudgetTokens : Int

/-- `estimate_items_tokens`, of a list of items for a model. -/
abbrev TokenEstimator : Type := List InputItem → String → Int

/-! ### Items -/

/-- `item.get("type") == itemType`, for dictionaries only. -/
def InputItem.hasType (item : InputItem) (itemType : String) : Bool :=
  match item with
  | .dict fields => (Dict.get fields "type").isText itemType
  | _ => false

def InputItem.isFunctionCall (item : InputItem) : Bool := item.hasType "function_call"

def InputItem.isFunctionCallOutput (item : InputItem) : Bool := item.hasType "function_call_output"

/-- `tool_call_id(item) if isinstance(item, dict) else ""`. -/
def InputItem.callId : InputItem → String
  | .dict fields => toolCallId fields
  | _ => ""

/-- `is_context_summary_item`. -/
def isContextSummaryItem : InputItem → Bool
  | .dict fields =>
      (Dict.get fields "type").isText "message" && (Dict.get fields "role").isText "user" &&
        (Dict.get fields "id").isText contextSummaryItemId
  | _ => false

/-- `_NOTICE_TEXT`. -/
def noticeText : String :=
  "# Context Budget Notice\n\n" ++
  "Older conversation items were omitted from this model call because the active input exceeded " ++
  "the configured context window. Use the retained context summary and recent messages. Reload " ++
  "specific files, command outputs, or source documents if exact omitted details are needed."

/-- `_budget_notice_item`. -/
def budgetNoticeItem : InputItem :=
  .dict [("type", .str "message"), ("role", .str "user"),
    ("content", .list [.dict [("type", .str "input_text"), ("text", .str noticeText)]])]

/-! ### Estimates -/

/-- `_estimate_instruction_tokens`. -/
def estimateInstructionTokens (estimate : TokenEstimator) (instructions : Option String)
    (model : String) : Int :=
  match instructions with
  | none => 0
  | some text =>
      if text = "" then 0
      else estimate [.dict [("type", .str "message"), ("role", .str "system"),
        ("content", .str text)]] model

/-- `_estimate_model_call_tokens`. -/
def estimateModelCallTokens (estimate : TokenEstimator) (inputItems : List InputItem)
    (instructions : Option String) (model : String) : Int :=
  estimate inputItems model + estimateInstructionTokens estimate instructions model

/-! ### Chunks -/

/-- `_InputChunk`. -/
structure InputChunk where
  items : List InputItem
  tokenEstimate : Int

/-- `_split_context_anchor`. -/
def splitContextAnchor : List InputItem → List InputItem × List InputItem
  | [] => ([], [])
  | first :: rest => if isContextSummaryItem first then ([first], rest) else ([], first :: rest)

/-- `_build_chunks` while it runs. -/
structure ChunkState where
  chunks : List InputChunk := []
  pending : List InputItem := []
  openCalls : List String := []

/-- `flush_pending`. -/
def ChunkState.flushPending (estimate : TokenEstimator) (model : String) (s : ChunkState) :
    ChunkState :=
  if s.pending = [] then s
  else { chunks := s.chunks ++ [⟨s.pending, estimate s.pending model⟩] }

/-- The loop body of `_build_chunks`. -/
def ChunkState.add (estimate : TokenEstimator) (model : String) (s : ChunkState) (item : InputItem) :
    ChunkState :=
  let callId := item.callId
  if item.isFunctionCall then
    if s.pending = [] then
      { s with pending := [item], openCalls := if callId = "" then [] else [callId] }
    else
      { s with
        pending := s.pending ++ [item]
        openCalls := if callId = "" ∨ callId ∈ s.openCalls then s.openCalls
          else s.openCalls ++ [callId] }
  else if s.pending ≠ [] then
    let openCalls :=
      if item.isFunctionCallOutput then s.openCalls.filter (fun c => decide (c ≠ callId))
      else s.openCalls
    let s := { s with pending := s.pending ++ [item], openCalls := openCalls }
    if openCalls = [] then s.flushPending estimate model else s
  else { s with chunks := s.chunks ++ [⟨[item], estimate [item] model⟩] }

/-- `_build_chunks`. -/
def buildChunks (estimate : TokenEstimator) (items : List InputItem) (model : String) :
    List InputChunk :=
  ((items.foldl (ChunkState.add estimate model) {}).flushPending estimate model).chunks

/-- The loop of `_select_recent_chunks`, over the reversed chunks. -/
def takeRecent (budgetTokens : Int) : List InputChunk → Int → List InputChunk
  | [], _ => []
  | chunk :: rest, total =>
      if budgetTokens < total + chunk.tokenEstimate then []
      else chunk :: takeRecent budgetTokens rest (total + chunk.tokenEstimate)

/-- `_select_recent_chunks`: the items, and how many chunks are omitted. -/
def selectRecentChunks (chunks : List InputChunk) (budgetTokens : Int) : List InputItem × Nat :=
  let selected := (takeRecent budgetTokens chunks.reverse 0).reverse
  (selected.flatMap InputChunk.items, chunks.length - selected.length)

/-- `_drop_orphan_tool_items`. -/
def dropOrphanToolItems (items : List InputItem) : List InputItem :=
  let callIds := (items.filter InputItem.isFunctionCall).map InputItem.callId
  let outputIds := (items.filter InputItem.isFunctionCallOutput).map InputItem.callId
  let paired := fun callId => decide (callId ≠ "" ∧ callId ∈ callIds ∧ callId ∈ outputIds)
  items.filter (fun item => !(item.isFunctionCall || item.isFunctionCallOutput) || paired item.callId)

/-! ### Pruning -/

/-- `_prune_items_to_budget`. -/
def pruneItemsToBudget (estimate : TokenEstimator) (items : List InputItem) (itemBudgetTokens : Int)
    (model : String) : Except String (List InputItem) :=
  let (anchor, tailItems) := splitContextAnchor items
  let anchorTokens := if anchor = [] then 0 else estimate anchor model
  let notice := [budgetNoticeItem]
  let noticeTokens := estimate notice model
  let suffixBudget := itemBudgetTokens - anchorTokens - noticeTokens
  let (anchor, suffixBudget) :=
    if suffixBudget ≤ 0 ∧ anchor ≠ [] then ([], itemBudgetTokens - noticeTokens)
    else (anchor, suffixBudget)
  let chunks := buildChunks estimate tailItems model
  let (suffix, omittedChunks) := selectRecentChunks chunks (max 0 suffixBudget)
  if suffix = [] ∧ chunks ≠ [] then
    .error ("latest model input item exceeds configured context budget; " ++
      "reduce the request or tool output size")
  else
    let candidate := dropOrphanToolItems
      (if omittedChunks = 0 then anchor ++ suffix else anchor ++ notice ++ suffix)
    if estimate candidate model ≤ itemBudgetTokens then .ok candidate
    else
      let shorter := dropOrphanToolItems (if omittedChunks = 0 then suffix else notice ++ suffix)
      if anchor ≠ [] ∧ estimate shorter model ≤ itemBudgetTokens then .ok shorter
      else .error "model input exceeds configured context budget after context pruning"

/-- `constrain_model_input`. -/
def constrainModelInput (estimate : TokenEstimator) (inputItems : List InputItem)
    (instructions : Option String) (budget : ContextBudget) : Except String (List InputItem) :=
  let currentTokens := estimateModelCallTokens estimate inputItems instructions budget.model
  if currentTokens ≤ budget.inputBudgetTokens then .ok inputItems
  else
    let instructionTokens := estimateInstructionTokens estimate instructions budget.model
    let itemBudget := budget.inputBudgetTokens - instructionTokens
    if itemBudget ≤ 0 then
      .error ("agent instructions exceed configured model context budget " ++
        "tokens=" ++ toString instructionTokens ++ " budget=" ++ toString budget.inputBudgetTokens)
    else
      match pruneItemsToBudget estimate inputItems itemBudget budget.model with
      | .error message => .error message
      | .ok constrained =>
          let constrainedTokens :=
            estimateModelCallTokens estimate constrained instructions budget.model
          if budget.inputBudgetTokens < constrainedTokens then
            .error ("model input exceeds configured context budget after pruning " ++
              "tokens=" ++ toString constrainedTokens ++ " budget=" ++
              toString budget.inputBudgetTokens ++ " window=" ++ toString budget.contextWindow)
          else .ok constrained

end Workbench
