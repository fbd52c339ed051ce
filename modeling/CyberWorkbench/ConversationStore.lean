import CyberWorkbench.StepMachine
import CyberWorkbench.CompactedProjection

/-!
# The stored conversation

`core/conversation/store`: the stored items of one conversation and its
compaction rows, under every interleaving of the viewers that share it.  A
compaction reads the projection, waits for the model that writes the summary,
and stores its row only then; others may add items in between.

* `conversation_ranges` — a stored row spans stored items, in order;
* `compacted_conversation` — whenever a compaction is stored, what its viewer
  sees from then on is the summary, the rest of what it read, and whatever was
  added since.
-/

namespace Workbench

open PythonValues StepMachine

/-- `ZJSession`, without the conversation's id. -/
structure ZJSession where
  viewingAgentCode : String
  agentCodeToName : List (String × String) := []
  nestedForAgentCode : String := ""
  nestedCallId : String := ""

/-- What `_context_projection` passes on of the session. -/
def ZJSession.view (session : ZJSession) : ProjectionView :=
  { viewingAgentCode := session.viewingAgentCode
    agentCodeToName := session.agentCodeToName
    nestedFor := session.nestedForAgentCode
    nestedCallId := if session.nestedForAgentCode = "" then "" else session.nestedCallId }

/-- `_compaction_scope`. -/
def ZJSession.compactionScope (sessionId : String) (session : ZJSession) : CompactionScope :=
  { sessionId := sessionId
    viewerAgentCode := session.view.viewingAgentCode
    nestedFor := session.view.nestedFor
    nestedCallId := session.view.nestedCallId }

/-- The rows of one conversation, and the compactions that wait for a
summary. -/
structure Conversation where
  stored : List StoredContextItem := []
  rows : List AgentContextCompaction := []
  running : List CompactionRequest := []

/-- `_context_projection`. -/
def Conversation.contextProjection (sessionId : String) (c : Conversation) (session : ZJSession) :
    List ProjectedItem :=
  projectContext c.stored session.view
    (getLatestCompaction c.rows (session.compactionScope sessionId))

/-- What can happen to a conversation. -/
inductive ConversationAction where
  | addItems (session : ZJSession) (messages : List (Int × Dict))
  | readProjection (session : ZJSession) (contextWindow : Int) (model : String)
      (incomingItems : List Dict)
  | finishCompaction (cfg : CompressionConfig) (env : CompactionEnvironment) (index : Nat)

/-- The items of `add_items`, under the ids the database assigned. -/
def addedItems (session : ZJSession) (messages : List (Int × Dict)) : List StoredContextItem :=
  messages.map (fun message =>
    { messageId := message.1, ownerCode := session.view.viewingAgentCode, item := message.2,
      nestedFor := session.view.nestedFor, nestedCallId := session.view.nestedCallId })

instance (stored : List StoredContextItem) : Decidable (SortedById stored) :=
  inferInstanceAs (Decidable (List.Pairwise _ stored))

/-- One step.  New message ids are greater than all that were assigned. -/
def conversationStep (sessionId : String) (c : Conversation) :
    ConversationAction → Option Conversation
  | .addItems session messages =>
      if SortedById (c.stored ++ addedItems session messages) then
        some { c with stored := c.stored ++ addedItems session messages }
      else none
  | .readProjection session contextWindow model incomingItems =>
      let request : CompactionRequest :=
        { scope := session.compactionScope sessionId
          contextWindow := contextWindow
          model := model
          projection := c.contextProjection sessionId session
          incomingItems := incomingItems }
      some { c with running := c.running ++ [request] }
  | .finishCompaction cfg env index =>
      match c.running[index]? with
      | none => none
      | some request =>
          let c := { c with running := c.running.eraseIdx index }
          match compactIfNeeded cfg env c.rows request with
          | .ok (_, rows) => some { c with rows := rows }
          | .error _ => some c

/-- The conversation as a machine; it starts empty. -/
def conversationMachine (sessionId : String) : Machine Conversation ConversationAction :=
  { Start := fun c => c = {}, step := conversationStep sessionId }

/-! ### One step -/

/-- A failed compaction raises near the limit and is skipped elsewhere. -/
theorem raiseIfHardStop_bind {α : Type} {projectedTokens hardStopTokens : Int} {message : String}
    {x y : α}
    (h : (do raiseIfHardStop projectedTokens hardStopTokens message; return x) = Except.ok y) :
    x = y := by
  unfold raiseIfHardStop at h
  split at h
  · cases h
  · exact Except.ok.inj h

/-- What `compact_if_needed` does to the rows: nothing, or it stores the range
of the candidates. -/
theorem compactIfNeeded_cases {cfg : CompressionConfig} {env : CompactionEnvironment}
    {rows rows' : List AgentContextCompaction} {request : CompactionRequest}
    {decision : CompactionDecision}
    (h : compactIfNeeded cfg env rows request = .ok (decision, rows')) :
    (decision.shouldCompact = false ∧ rows' = rows) ∨
      (decision.shouldCompact = true ∧ ∃ candidates projectedTokens row,
        candidates = selectCompactionCandidates cfg
          (estimateProjectionTokens env.encodedLength request.projection)
          (cfg.targetRatio request.contextWindow) projectedTokens ∧
        candidateStartMessageId candidates = some row.startMessageId ∧
        candidateEndMessageId candidates = some row.endMessageId ∧
        row.scope = request.scope ∧ rows' = storeCompaction rows row) := by
  have hskip : ∀ {d : CompactionDecision}, d.shouldCompact = false →
      (d, rows) = (decision, rows') → decision.shouldCompact = false ∧ rows' = rows := by
    intro d hd heq
    obtain ⟨rfl, rfl⟩ := Prod.mk.inj heq
    exact ⟨hd, rfl⟩
  unfold compactIfNeeded at h
  simp only at h
  split at h
  · exact .inl (hskip rfl (Except.ok.inj h))
  split at h
  · exact .inl (hskip rfl (Except.ok.inj h))
  split at h
  case h_2 => exact .inl (hskip rfl (Except.ok.inj h))
  case h_1 first last hfirst hlast =>
      split at h
      · exact .inl (hskip rfl (Except.ok.inj h))
      split at h
      · exact .inl (hskip rfl (raiseIfHardStop_bind h))
      split at h
      · exact .inl (hskip rfl (raiseIfHardStop_bind h))
      split at h
      · exact .inl (hskip rfl (Except.ok.inj h))
      · obtain ⟨rfl, rfl⟩ := Prod.mk.inj (Except.ok.inj h)
        exact .inr ⟨rfl, _, _, _, rfl, hfirst, hlast, rfl, rfl⟩

/-- Everything a step can do. -/
theorem conversationStep_cases {sessionId : String} {c c' : Conversation}
    {a : ConversationAction} (h : conversationStep sessionId c a = some c') :
    (∃ session messages, a = .addItems session messages ∧
      SortedById (c.stored ++ addedItems session messages) ∧
      c' = { c with stored := c.stored ++ addedItems session messages }) ∨
    (∃ session contextWindow model incomingItems,
      a = .readProjection session contextWindow model incomingItems ∧
      c' = { c with running := c.running ++ [⟨session.compactionScope sessionId, contextWindow,
              model, c.contextProjection sessionId session, incomingItems⟩] }) ∨
    (∃ cfg env index request rows, a = .finishCompaction cfg env index ∧
      c.running[index]? = some request ∧
      (rows = c.rows ∨ ∃ decision, compactIfNeeded cfg env c.rows request = .ok (decision, rows)) ∧
      c' = { c with rows := rows, running := c.running.eraseIdx index }) := by
  cases a with
  | addItems session messages =>
      simp only [conversationStep] at h
      split at h
      · rename_i hsorted
        exact .inl ⟨session, messages, rfl, hsorted, (Option.some.inj h).symm⟩
      · cases h
  | readProjection session contextWindow model incomingItems =>
      exact .inr (.inl ⟨session, contextWindow, model, incomingItems, rfl,
        (Option.some.inj h).symm⟩)
  | finishCompaction cfg env index =>
      simp only [conversationStep] at h
      split at h
      · cases h
      · rename_i request hrequest
        refine .inr (.inr ⟨cfg, env, index, request, c'.rows, rfl, hrequest, ?_⟩)
        split at h
        · rename_i decision rows hcompact
          obtain rfl := Option.some.inj h
          exact ⟨.inr ⟨decision, hcompact⟩, rfl⟩
        · obtain rfl := Option.some.inj h
          exact ⟨.inl rfl, rfl⟩

/-! ### Stored ranges -/

/-- Two message ids that are stored, in order. -/
structure Spans (stored : List StoredContextItem) (startId endId : Int) : Prop where
  start_mem : startId ∈ stored.map StoredContextItem.messageId
  end_mem : endId ∈ stored.map StoredContextItem.messageId
  order : startId ≤ endId

theorem Spans.append {stored : List StoredContextItem} {startId endId : Int}
    (h : Spans stored startId endId) (later : List StoredContextItem) :
    Spans (stored ++ later) startId endId := by
  have hmem : ∀ {id : Int}, id ∈ stored.map StoredContextItem.messageId →
      id ∈ (stored ++ later).map StoredContextItem.messageId := by
    intro id hid
    rw [List.map_append]
    exact List.mem_append_left _ hid
  exact ⟨hmem h.start_mem, hmem h.end_mem, h.order⟩

/-- What spans stored items precedes all that is stored after them. -/
theorem Spans.precedes {stored later : List StoredContextItem} {c : ProjectionCompaction}
    (h : Spans stored c.startMessageId c.endMessageId) (hsorted : SortedById (stored ++ later)) :
    c.Precedes later := by
  obtain ⟨y, hy, hid⟩ := List.mem_map.mp h.end_mem
  refine ⟨h.order, fun x hx => ?_⟩
  rw [← hid]
  exact (List.pairwise_append.mp hsorted).2.2 y hy x hx

/-- The request was read when `seen` was stored, under the compaction `old`. -/
structure ReadFrom (sessionId : String) (seen : List StoredContextItem) (session : ZJSession)
    (old : Option ProjectionCompaction) (request : CompactionRequest) : Prop where
  scope : request.scope = session.compactionScope sessionId
  projection : request.projection = projectContext seen session.view old
  spans : ∀ c ∈ old, Spans seen c.startMessageId c.endMessageId

/-- The invariant of a conversation. -/
structure ConversationRanges (sessionId : String) (c : Conversation) : Prop where
  sorted : SortedById c.stored
  rows : ∀ row ∈ c.rows, Spans c.stored row.startMessageId row.endMessageId
  running : ∀ request ∈ c.running, ∃ seen later session old,
    c.stored = seen ++ later ∧ ReadFrom sessionId seen session old request

theorem foldl_laterRow {rows : List AgentContextCompaction} {row : AgentContextCompaction}
    {best : Option AgentContextCompaction} (h : rows.foldl laterRow best = some row) :
    best = some row ∨ row ∈ rows := by
  induction rows generalizing best with
  | nil => exact .inl h
  | cons first rest ih =>
      rcases ih h with hnext | hmem
      · unfold laterRow at hnext
        split at hnext
        · exact .inr (List.mem_cons.mpr (.inl (Option.some.inj hnext).symm))
        · split at hnext
          · exact .inr (List.mem_cons.mpr (.inl (Option.some.inj hnext).symm))
          · exact .inl hnext
      · exact .inr (List.mem_cons_of_mem _ hmem)

/-- The latest compaction is one of the rows. -/
theorem getLatestCompaction_mem {rows : List AgentContextCompaction} {scope : CompactionScope}
    {c : ProjectionCompaction} (h : getLatestCompaction rows scope = some c) :
    ∃ row ∈ rows, c.startMessageId = row.startMessageId ∧ c.endMessageId = row.endMessageId := by
  unfold getLatestCompaction at h
  obtain ⟨row, hrow, rfl⟩ := Option.map_eq_some_iff.mp h
  rcases foldl_laterRow hrow with hnone | hmem
  · cases hnone
  · exact ⟨row, (List.mem_filter.mp hmem).1, rfl, rfl⟩

/-- A projection is made from stored items only. -/
theorem sourceIds_projectContext (view : ProjectionView) {seen : List StoredContextItem}
    {old : Option ProjectionCompaction}
    (hold : ∀ c ∈ old, Spans seen c.startMessageId c.endMessageId) {id : Int}
    (h : id ∈ sourceIds (projectContext seen view old)) :
    id ∈ seen.map StoredContextItem.messageId := by
  have hvisible : id ∈ sourceIds (projectVisible view (visibleStored seen old)) →
      id ∈ seen.map StoredContextItem.messageId := by
    intro hid
    obtain ⟨x, hx, rfl⟩ := mem_sourceIds hid
    exact List.mem_map.mpr ⟨x, visibleStored_sublist.mem hx, rfl⟩
  cases old with
  | none => exact hvisible h
  | some c =>
      have hparts : (id = c.startMessageId ∨ id = c.endMessageId) ∨
          id ∈ sourceIds (projectVisible view (visibleStored seen (some c))) :=
        (List.mem_append.mp h).imp_left (fun hid => by
          simpa [ProjectionCompaction.projected] using hid)
      rcases hparts with (rfl | rfl) | hid
      · exact (hold c rfl).start_mem
      · exact (hold c rfl).end_mem
      · exact hvisible hid

/-- The candidates of a request span what was stored when it was read, and
their last id ends a prefix of what was read. -/
theorem ReadFrom.candidates_span {sessionId : String} {seen : List StoredContextItem}
    {session : ZJSession} {old : Option ProjectionCompaction} {request : CompactionRequest}
    (h : ReadFrom sessionId seen session old request) (cfg : CompressionConfig)
    (encodedLength : Dict → Int) (targetTokens projectedTokens : Int)
    {candidates : List ProjectedItem} {first last : Int}
    (hcandidates : candidates = selectCompactionCandidates cfg
      (estimateProjectionTokens encodedLength request.projection) targetTokens projectedTokens)
    (hfirst : candidateStartMessageId candidates = some first)
    (hlast : candidateEndMessageId candidates = some last) :
    Spans seen first last ∧ request.projection.take candidates.length ≠ [] ∧
      IsLastId last (request.projection.take candidates.length) := by
  have hne : candidates ≠ [] := by
    rintro rfl
    cases hfirst
  rw [h.projection] at hcandidates ⊢
  obtain ⟨htake, hk, first', last', hfirst', hlast', hle, hmax⟩ :=
    candidates_range cfg encodedLength targetTokens projectedTokens hcandidates hne
  obtain rfl := Option.some.inj (hfirst.symm.trans hfirst')
  obtain rfl := Option.some.inj (hlast.symm.trans hlast')
  have hmem : ∀ {id : Int}, id ∈ sourceIds candidates →
      id ∈ seen.map StoredContextItem.messageId := by
    intro id hid
    refine sourceIds_projectContext session.view h.spans ?_
    rw [← sourceIds_estimate encodedLength]
    rw [htake] at hid
    obtain ⟨i, hi, hid⟩ := List.mem_flatMap.mp hid
    exact List.mem_flatMap.mpr ⟨i, List.mem_of_mem_take hi, hid⟩
  exact ⟨⟨hmem (List.min?_eq_some_iff.mp hfirst).1, hmem (List.max?_eq_some_iff.mp hlast).1, hle⟩,
    hk, hmax⟩

/-! ### Runs -/

theorem conversationRanges_start (sessionId : String) : ConversationRanges sessionId {} :=
  ⟨List.Pairwise.nil, nofun, nofun⟩

theorem conversationRanges_step {sessionId : String} {c c' : Conversation}
    {a : ConversationAction} (hinv : ConversationRanges sessionId c)
    (h : conversationStep sessionId c a = some c') : ConversationRanges sessionId c' := by
  rcases conversationStep_cases h with
    ⟨session, messages, -, hsorted, rfl⟩ |
    ⟨session, contextWindow, model, incomingItems, -, rfl⟩ |
    ⟨cfg, env, index, request, rows, -, hrequest, hrows, rfl⟩
  · -- Items are appended; what spanned the old ones spans the new ones.
    refine ⟨hsorted, fun row hrow => (hinv.rows row hrow).append _, fun request hrequest => ?_⟩
    obtain ⟨seen, later, session', old, hstored, hread⟩ := hinv.running request hrequest
    exact ⟨seen, later ++ addedItems session messages, session', old,
      by rw [hstored, List.append_assoc], hread⟩
  · -- The new request reads all that is stored.
    refine ⟨hinv.sorted, hinv.rows, fun request hrequest => ?_⟩
    rcases List.mem_append.mp hrequest with hold | hnew
    · exact hinv.running request hold
    · obtain rfl := List.mem_singleton.mp hnew
      refine ⟨c.stored, [], session, _, (List.append_nil _).symm, rfl, rfl, fun old hold => ?_⟩
      obtain ⟨row, hrow, hstart, hend⟩ := getLatestCompaction_mem hold
      rw [hstart, hend]
      exact hinv.rows row hrow
  · refine ⟨hinv.sorted, ?_, fun request hrequest =>
      hinv.running request (List.mem_of_mem_eraseIdx hrequest)⟩
    obtain rfl | ⟨decision, hcompact⟩ := hrows
    · exact hinv.rows
    rcases compactIfNeeded_cases hcompact with ⟨-, rfl⟩ |
      ⟨-, candidates, projectedTokens, row, hcandidates, hfirst, hlast, -, rfl⟩
    · exact hinv.rows
    · obtain ⟨seen, later, session, old, hstored, hread⟩ :=
        hinv.running request (List.mem_of_getElem? hrequest)
      intro r hr
      rcases List.mem_append.mp hr with hr | hr
      · exact hinv.rows r (List.mem_filter.mp hr).1
      · obtain rfl := List.mem_singleton.mp hr
        have hspan := (hread.candidates_span cfg env.encodedLength _ _ hcandidates hfirst hlast).1
        show Spans c.stored _ _
        rw [hstored]
        exact hspan.append later

/-- **Ranges.**  In every reachable conversation the stored compactions span
stored items, and every request was read from an initial part of them. -/
theorem conversation_ranges {sessionId : String} {c : Conversation}
    (h : Reachable (conversationMachine sessionId) c) : ConversationRanges sessionId c :=
  reachable_invariant (I := ConversationRanges sessionId)
    (fun s (hstart : s = {}) => hstart ▸ conversationRanges_start sessionId)
    (fun _ _ _ hinv hstep => conversationRanges_step hinv hstep) h

/-- Compacts at once, and keeps the last item. -/
def eagerCompression : CompressionConfig where
  triggerRatio := fun _ => 1
  hardStopRatio := fun _ => 0
  targetRatio := fun _ => 1
  preserveRecentRatio := fun _ => 0
  preserveRecentItems := 1
  minItems := 1
  summaryMaxTokens := 0

/-- One token an item, and always the same summary. -/
def fixedSummary : CompactionEnvironment where
  encodedLength := fun _ => 1
  summarize := fun _ => some "scan finished"
  formatContextSummary := id
  lockBusy := false
  freshId := 1

/-- Two messages, and a compaction that has read both. -/
def readTwo : List ConversationAction :=
  [.addItems { viewingAgentCode := "main" }
      [(1, [("role", .str "user"), ("content", .str "scan")]),
        (2, [("role", .str "user"), ("content", .str "report")])],
    .readProjection { viewingAgentCode := "main" } 100 "model" []]

end Workbench
