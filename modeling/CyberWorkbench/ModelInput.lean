import CyberWorkbench.PythonValues

/-!
# Provider input

`core/agent/model_input`: before a request the history is regrouped so that
tool calls stand together, followed by their outputs.  One transaction is open
at a time.  It collects calls, their outputs and whatever else comes between,
is written out when every call is answered, and gives up its calls when it
cannot be continued.
-/

namespace Workbench

open PythonValues

/-- An SDK item: a dictionary, an object with a `model_dump`, or anything
else. -/
inductive InputItem where
  | dict (fields : Dict)
  | model (dumped : Value)
  | other
  deriving DecidableEq

/-- `_dict_item`. -/
def InputItem.dictItem : InputItem → Option Dict
  | .dict fields => some fields
  | .model (.dict fields) => some fields
  | .model _ => none
  | .other => none

/-- `TEXT_CONTENT_TYPES`. -/
def textContentTypes : List String := ["input_text", "output_text", "text"]

/-- The text of one content part, if it is one of text. -/
def partText : Value → Option String
  | .dict piece =>
      if textContentTypes.any (fun t => (Dict.get piece "type").isText t) then
        match Dict.get piece "text" with
        | .str text => some text
        | _ => none
      else none
  | _ => none

/-- `extract_message_text`. -/
def extractMessageText : Value → String
  | .str text => text
  | .list pieces => String.join (pieces.filterMap partText)
  | _ => ""

/-- `tool_call_id`. -/
def toolCallId (item : Dict) : String :=
  ((Dict.get item "call_id").or (Dict.get item "id")).textOrEmpty

/-- `_is_empty_assistant_message`. -/
def isEmptyAssistantMessage (item : Dict) : Bool :=
  (Dict.get item "type").isText "message" && (Dict.get item "role").isText "assistant" &&
    decide (strip (extractMessageText (Dict.get item "content")) = "")

/-- What the normalizer sees in an item. -/
inductive ItemKind where
  | call (callId : String)
  | output (callId : String)
  | regular (isEmptyMessage : Bool)
  deriving DecidableEq, Repr

/-- The dispatch of `normalize`. -/
def InputItem.kind (entry : InputItem) : ItemKind :=
  match entry.dictItem with
  | none => .regular false
  | some item =>
      let itemType := Dict.get item "type"
      if itemType.isText "function_call" then .call (toolCallId item)
      else if itemType.isText "function_call_output" then .output (toolCallId item)
      else .regular (isEmptyAssistantMessage item)

/-! ### The open transaction -/

/-- `_ToolTransaction`. -/
structure ToolTransaction where
  calls : List InputItem := []
  callIds : List String := []
  outputsByCallId : List (String × InputItem) := []
  deferredItems : List InputItem := []

namespace ToolTransaction

/-- `self.outputs_by_call_id[call_id]`. -/
def outputOf (t : ToolTransaction) (callId : String) : Option InputItem :=
  t.outputsByCallId.lookup callId

/-- `add_call`; `none` when it answers `False`. -/
def addCall (t : ToolTransaction) (item : InputItem) (callId : String) :
    Option ToolTransaction :=
  if callId = "" ∨ (t.outputOf callId).isSome ∨ callId ∈ t.callIds then none
  else some { t with calls := t.calls ++ [item], callIds := t.callIds ++ [callId] }

/-- `add_output`; `none` when it answers `False`. -/
def addOutput (t : ToolTransaction) (item : InputItem) (callId : String) :
    Option ToolTransaction :=
  if callId ∉ t.callIds ∨ (t.outputOf callId).isSome then none
  else some { t with outputsByCallId := t.outputsByCallId ++ [(callId, item)] }

/-- `complete`. -/
def complete (t : ToolTransaction) : Bool :=
  !t.callIds.isEmpty && t.callIds.all (fun callId => (t.outputOf callId).isSome)

/-- `ordered_items`. -/
def orderedItems (t : ToolTransaction) : List InputItem :=
  t.calls ++ t.callIds.filterMap t.outputOf ++ t.deferredItems

end ToolTransaction

/-! ### The normalizer -/

/-- `ToolTransactionNormalizer` while it runs. -/
structure ToolTransactionNormalizer where
  normalized : List InputItem := []
  transaction : ToolTransaction := {}

namespace ToolTransactionNormalizer

/-- `_flush_if_complete`. -/
def flushIfComplete (s : ToolTransactionNormalizer) : ToolTransactionNormalizer :=
  if s.transaction.complete then
    { normalized := s.normalized ++ s.transaction.orderedItems, transaction := {} }
  else s

/-- `_discard_incomplete_transaction`. -/
def discardIncompleteTransaction (s : ToolTransactionNormalizer) : ToolTransactionNormalizer :=
  if s.transaction.calls = [] then s
  else { normalized := s.normalized ++ s.transaction.deferredItems, transaction := {} }

/-- `_handle_call`. -/
def handleCall (s : ToolTransactionNormalizer) (entry : InputItem) (callId : String) :
    ToolTransactionNormalizer :=
  let s := s.flushIfComplete
  match s.transaction.addCall entry callId with
  | some t => { s with transaction := t }
  | none =>
      let s := s.discardIncompleteTransaction
      match s.transaction.addCall entry callId with
      | some t => { s with transaction := t }
      | none => s

/-- `_handle_output`. -/
def handleOutput (s : ToolTransactionNormalizer) (entry : InputItem) (callId : String) :
    ToolTransactionNormalizer :=
  match s.transaction.addOutput entry callId with
  | none => s
  | some t => { s with transaction := t }.flushIfComplete

/-- `_handle_regular_item`. -/
def handleRegularItem (s : ToolTransactionNormalizer) (entry : InputItem)
    (isEmptyMessage : Bool) : ToolTransactionNormalizer :=
  if isEmptyMessage then s
  else if s.transaction.calls ≠ [] then
    { s with transaction := { s.transaction with
        deferredItems := s.transaction.deferredItems ++ [entry] } }
  else { s with normalized := s.normalized ++ [entry] }

/-- The loop body of `normalize`. -/
def handle (s : ToolTransactionNormalizer) (entry : InputItem) : ToolTransactionNormalizer :=
  match entry.kind with
  | .call callId => s.handleCall entry callId
  | .output callId => s.handleOutput entry callId
  | .regular isEmptyMessage => s.handleRegularItem entry isEmptyMessage

/-- What `normalize` returns after the loop. -/
def finish (s : ToolTransactionNormalizer) : List InputItem :=
  s.flushIfComplete.discardIncompleteTransaction.normalized

end ToolTransactionNormalizer

/-- `ToolTransactionNormalizer(items).normalize()`. -/
def normalize (items : List InputItem) : List InputItem :=
  (items.foldl ToolTransactionNormalizer.handle {}).finish

end Workbench
