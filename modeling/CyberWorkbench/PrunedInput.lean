import CyberWorkbench.InputChunks

/-!
# What pruning leaves, and when it gives up

`pruning_sound`: what `constrain_model_input` returns is within the budget, has
the form of a summary, a notice and a suffix, and pairs its tool items.

`pruning_gives_up`: it gives up needlessly when the last chunk does not fit beside
a summary that leaves anything at all, or does not fit on its own, while a shorter
suffix would.
-/

namespace Workbench

variable {estimate : TokenEstimator} {model : String}

/-! ### Selecting chunks -/

/-- The tokens of some chunks. -/
def tokensOf (chunks : List InputChunk) : Int := (chunks.map InputChunk.tokenEstimate).sum

theorem takeRecent_initial (budgetTokens : Int) (chunks : List InputChunk) (total : Int) :
    takeRecent budgetTokens chunks total <+: chunks := by
  induction chunks generalizing total with
  | nil => exact List.prefix_refl _
  | cons chunk rest ih =>
      rw [takeRecent]
      split
      · exact List.nil_prefix
      · exact List.cons_prefix_cons.mpr ⟨rfl, ih _⟩

/-- What is taken fits. -/
theorem takeRecent_fits (budgetTokens : Int) (chunks : List InputChunk) {total : Int}
    (htotal : total ≤ budgetTokens) :
    total + tokensOf (takeRecent budgetTokens chunks total) ≤ budgetTokens := by
  induction chunks generalizing total with
  | nil => simpa [takeRecent, tokensOf] using htotal
  | cons chunk rest ih =>
      rw [takeRecent]
      split
      · simpa [tokensOf] using htotal
      · rename_i hfits
        have hrest := ih (Int.not_lt.mp hfits)
        unfold tokensOf at hrest ⊢
        rw [List.map_cons, List.sum_cons]
        omega

/-- **Recent chunks** are a suffix of the chunks; the others are omitted. -/
theorem selectRecentChunks_spec (chunks : List InputChunk) {budgetTokens : Int}
    (hbudget : 0 ≤ budgetTokens) :
    ∃ omitted kept, chunks = omitted ++ kept ∧
      selectRecentChunks chunks budgetTokens = (itemsOf kept, omitted.length) ∧
      tokensOf kept ≤ budgetTokens := by
  obtain ⟨rest, hrest⟩ := takeRecent_initial budgetTokens chunks.reverse 0
  have hchunks : chunks = rest.reverse ++ (takeRecent budgetTokens chunks.reverse 0).reverse := by
    rw [← List.reverse_append, hrest, List.reverse_reverse]
  have hfits := takeRecent_fits budgetTokens chunks.reverse hbudget
  refine ⟨rest.reverse, _, hchunks, ?_, ?_⟩
  · unfold selectRecentChunks
    simp only [itemsOf, Prod.mk.injEq, true_and]
    have hlength := congrArg List.length hchunks
    rw [List.length_append] at hlength
    omega
  · unfold tokensOf at hfits ⊢
    rw [List.map_reverse, List.sum_reverse]
    omega

/-- **Nothing is selected** when the last chunk does not fit. -/
theorem selectRecentChunks_nil {before : List InputChunk} {chunk : InputChunk}
    (hchunk : chunk.items ≠ []) (budgetTokens : Int) :
    (selectRecentChunks (before ++ [chunk]) budgetTokens).1 = [] ↔
      budgetTokens < chunk.tokenEstimate := by
  unfold selectRecentChunks
  rw [List.reverse_append, List.reverse_singleton, List.singleton_append, takeRecent, Int.zero_add]
  by_cases hfits : budgetTokens < chunk.tokenEstimate
  · simp [hfits]
  · simp [hfits, hchunk]

/-! ### Tool items -/

/-- An item of a tool call. -/
def InputItem.isTool (item : InputItem) : Bool := item.isFunctionCall || item.isFunctionCallOutput

/-- Every call has an output with its id, and every output a call. -/
structure PairedTools (items : List InputItem) : Prop where
  calls : ∀ call ∈ items, call.isFunctionCall = true → call.callId ≠ "" ∧
    ∃ output ∈ items, output.isFunctionCallOutput = true ∧ output.callId = call.callId
  outputs : ∀ output ∈ items, output.isFunctionCallOutput = true → output.callId ≠ "" ∧
    ∃ call ∈ items, call.isFunctionCall = true ∧ call.callId = output.callId

/-- What is kept of a list. -/
theorem mem_dropOrphanToolItems {items : List InputItem} {item : InputItem} :
    item ∈ dropOrphanToolItems items ↔ item ∈ items ∧ (item.isTool = true → item.callId ≠ "" ∧
      (∃ call ∈ items, call.isFunctionCall = true ∧ call.callId = item.callId) ∧
      ∃ output ∈ items, output.isFunctionCallOutput = true ∧ output.callId = item.callId) := by
  have hor : ∀ a b : Bool, (!a || b) = true ↔ (a = true → b = true) := by decide
  unfold dropOrphanToolItems InputItem.isTool
  rw [List.mem_filter, hor, decide_eq_true_eq]
  simp only [List.mem_map, List.mem_filter, and_assoc]

theorem pairedTools_dropOrphans (items : List InputItem) :
    PairedTools (dropOrphanToolItems items) := by
  -- An item whose id is paired is kept itself.
  have hkept : ∀ {item partner : InputItem}, item ∈ dropOrphanToolItems items →
      item.isTool = true → partner ∈ items → partner.callId = item.callId →
        partner ∈ dropOrphanToolItems items := by
    intro item partner hitem htool hpartner hid
    have hpaired := (mem_dropOrphanToolItems.mp hitem).2 htool
    rw [mem_dropOrphanToolItems, hid]
    exact ⟨hpartner, fun _ => hpaired⟩
  constructor
  · intro call hcall htool
    have hany : call.isTool = true := by simp [InputItem.isTool, htool]
    obtain ⟨hne, -, output, houtput, hkind, hid⟩ := (mem_dropOrphanToolItems.mp hcall).2 hany
    exact ⟨hne, output, hkept hcall hany houtput hid, hkind, hid⟩
  · intro output houtput htool
    have hany : output.isTool = true := by simp [InputItem.isTool, htool]
    obtain ⟨hne, ⟨call, hcall, hkind, hid⟩, -⟩ := (mem_dropOrphanToolItems.mp houtput).2 hany
    exact ⟨hne, call, hkept houtput hany hcall hid, hkind, hid⟩

/-- Items of no tool stay in front. -/
theorem dropOrphanToolItems_append {head items : List InputItem}
    (h : ∀ item ∈ head, item.isTool = false) :
    dropOrphanToolItems (head ++ items) = head ++ dropOrphanToolItems items := by
  have hkinds : ∀ item ∈ head, item.isFunctionCall = false ∧ item.isFunctionCallOutput = false := by
    intro item hmem
    simpa [InputItem.isTool] using h item hmem
  have hcalls : head.filter InputItem.isFunctionCall = [] :=
    List.filter_eq_nil_iff.mpr (fun item hmem => by simp [(hkinds item hmem).1])
  have houtputs : head.filter InputItem.isFunctionCallOutput = [] :=
    List.filter_eq_nil_iff.mpr (fun item hmem => by simp [(hkinds item hmem).2])
  unfold dropOrphanToolItems
  simp only [List.filter_append, hcalls, houtputs, List.nil_append]
  congr 1
  exact List.filter_eq_self.mpr (fun item hmem => by simp [(hkinds item hmem).1, (hkinds item hmem).2])

theorem budgetNoticeItem_isTool : budgetNoticeItem.isTool = false := by decide

/-- A message is of no tool. -/
theorem isTool_of_isContextSummaryItem {item : InputItem} (h : isContextSummaryItem item = true) :
    item.isTool = false := by
  cases item with
  | dict fields =>
      simp only [isContextSummaryItem, Bool.and_eq_true] at h
      have hcall := PythonValues.Value.isText_ne h.1.1 (b := "function_call") (by decide)
      have houtput := PythonValues.Value.isText_ne h.1.1 (b := "function_call_output") (by decide)
      simp [InputItem.isTool, InputItem.isFunctionCall, InputItem.isFunctionCallOutput,
        InputItem.hasType, hcall, houtput]
  | model dumped => cases h
  | other => cases h

/-! ### The form of the result -/

/-- A leading context summary and the items behind it. -/
inductive Anchored : List InputItem → List InputItem → List InputItem → Prop where
  | nothing : Anchored [] [] []
  | summary {first : InputItem} {rest : List InputItem} (h : isContextSummaryItem first = true) :
      Anchored (first :: rest) [first] rest
  | plain {first : InputItem} {rest : List InputItem} (h : isContextSummaryItem first = false) :
      Anchored (first :: rest) [] (first :: rest)

theorem anchored_split (items : List InputItem) :
    Anchored items (splitContextAnchor items).1 (splitContextAnchor items).2 := by
  cases items with
  | nil => exact .nothing
  | cons first rest =>
      cases h : isContextSummaryItem first with
      | true => simpa [splitContextAnchor, h] using Anchored.summary h
      | false => simpa [splitContextAnchor, h] using Anchored.plain h

theorem Anchored.isTool {items anchor tail : List InputItem} (h : Anchored items anchor tail) :
    ∀ item ∈ anchor, item.isTool = false := by
  intro item hmem
  cases h with
  | nothing => cases hmem
  | summary hsummary =>
      obtain rfl := List.mem_singleton.mp hmem
      exact isTool_of_isContextSummaryItem hsummary
  | plain _ => cases hmem

/-- The notice, when something is omitted. -/
def noticeFor (omitted : List InputChunk) : List InputItem :=
  if omitted = [] then [] else [budgetNoticeItem]

/-- A summary or nothing, the notice when chunks are omitted, and the paired items
of a suffix. -/
def PrunedForm (estimate : TokenEstimator) (model : String) (items result : List InputItem) : Prop :=
  ∃ anchor tail head omitted kept, Anchored items anchor tail ∧ (head = anchor ∨ head = []) ∧
    buildChunks estimate tail model = omitted ++ kept ∧
    tail = itemsOf omitted ++ itemsOf kept ∧
    result = head ++ noticeFor omitted ++ dropOrphanToolItems (itemsOf kept)

/-- The candidates of a selection. -/
theorem candidate_eq {head : List InputItem} (hhead : ∀ item ∈ head, item.isTool = false)
    (omitted : List InputChunk) (suffix : List InputItem) :
    dropOrphanToolItems (if omitted.length = 0 then head ++ suffix
      else head ++ [budgetNoticeItem] ++ suffix) =
        head ++ noticeFor omitted ++ dropOrphanToolItems suffix := by
  have hnotice : ∀ item ∈ [budgetNoticeItem], item.isTool = false := by
    intro item hmem
    rw [List.mem_singleton.mp hmem]
    exact budgetNoticeItem_isTool
  unfold noticeFor
  by_cases hnone : omitted = []
  · rw [if_pos (by rw [hnone]; rfl), if_pos hnone, List.append_nil]
    exact dropOrphanToolItems_append hhead
  · rw [if_neg (by simpa using hnone), if_neg hnone, List.append_assoc,
      dropOrphanToolItems_append hhead, dropOrphanToolItems_append hnotice, List.append_assoc]

/-- The tokens of what is in front, if something is. -/
def headTokens (estimate : TokenEstimator) (model : String) (head : List InputItem) : Int :=
  if head = [] then 0 else estimate head model

/-- What the suffix may take: the summary is dropped when it leaves nothing. -/
def suffixRoom (estimate : TokenEstimator) (model : String) (anchor : List InputItem)
    (itemBudget : Int) : Int :=
  let room := itemBudget - headTokens estimate model anchor - estimate [budgetNoticeItem] model
  if room ≤ 0 ∧ anchor ≠ [] then itemBudget - estimate [budgetNoticeItem] model else room

/-- **`_prune_items_to_budget`**, over the selection it makes. -/
theorem pruneItemsToBudget_eq {items anchor tail : List InputItem} (h : Anchored items anchor tail)
    {omitted kept : List InputChunk} {itemBudget : Int}
    (hselect : selectRecentChunks (buildChunks estimate tail model)
      (max 0 (suffixRoom estimate model anchor itemBudget)) = (itemsOf kept, omitted.length)) :
    ∃ head, (head = anchor ∨ head = []) ∧
      suffixRoom estimate model anchor itemBudget =
        itemBudget - headTokens estimate model head - estimate [budgetNoticeItem] model ∧
      pruneItemsToBudget estimate items itemBudget model =
        if itemsOf kept = [] ∧ buildChunks estimate tail model ≠ [] then
          .error ("latest model input item exceeds configured context budget; " ++
            "reduce the request or tool output size")
        else if estimate (head ++ noticeFor omitted ++ dropOrphanToolItems (itemsOf kept)) model ≤
            itemBudget then
          .ok (head ++ noticeFor omitted ++ dropOrphanToolItems (itemsOf kept))
        else if head ≠ [] ∧ estimate (noticeFor omitted ++ dropOrphanToolItems (itemsOf kept)) model ≤
            itemBudget then
          .ok (noticeFor omitted ++ dropOrphanToolItems (itemsOf kept))
        else .error "model input exceeds configured context budget after context pruning" := by
  have hsplit : splitContextAnchor items = (anchor, tail) := by
    cases h with
    | nothing => rfl
    | summary hsummary => simp [splitContextAnchor, hsummary]
    | plain hplain => simp [splitContextAnchor, hplain]
  have hshorter := @candidate_eq [] (fun item hmem => absurd hmem List.not_mem_nil) omitted
    (itemsOf kept)
  simp only [List.nil_append] at hshorter
  unfold pruneItemsToBudget
  unfold suffixRoom at hselect ⊢
  simp only [hsplit]
  simp only at hselect
  have htokens : (if anchor = [] then (0 : Int) else estimate anchor model) =
      headTokens estimate model anchor := rfl
  rw [htokens]
  by_cases hdrop : itemBudget - headTokens estimate model anchor -
      estimate [budgetNoticeItem] model ≤ 0 ∧ anchor ≠ []
  · rw [if_pos hdrop] at hselect
    refine ⟨[], .inr rfl, ?_, ?_⟩
    · rw [if_pos hdrop, headTokens, if_pos rfl, Int.sub_zero]
    · simp only [if_pos hdrop, hselect, List.nil_append, hshorter]
  · rw [if_neg hdrop] at hselect
    refine ⟨anchor, .inl rfl, if_neg hdrop, ?_⟩
    have hcandidate := candidate_eq h.isTool omitted (itemsOf kept)
    simp only [if_neg hdrop, hselect, hcandidate, hshorter]

/-- What it returns fits, and has the form. -/
theorem pruneItemsToBudget_ok {items result : List InputItem} {itemBudget : Int}
    (hresult : pruneItemsToBudget estimate items itemBudget model = .ok result) :
    estimate result model ≤ itemBudget ∧ PrunedForm estimate model items result ∧
      PairedTools result := by
  have hanchored := anchored_split items
  obtain ⟨omitted, kept, hchunks, hselect, -⟩ := selectRecentChunks_spec
    (buildChunks estimate (splitContextAnchor items).2 model)
    (Int.le_max_left 0 (suffixRoom estimate model (splitContextAnchor items).1 itemBudget))
  obtain ⟨head, hhead, -, heq⟩ := pruneItemsToBudget_eq hanchored hselect
  have htail : (splitContextAnchor items).2 = itemsOf omitted ++ itemsOf kept := by
    rw [← itemsOf_append, ← hchunks, itemsOf_buildChunks]
  have hform : ∀ front, (front = (splitContextAnchor items).1 ∨ front = []) →
      PrunedForm estimate model items
          (front ++ noticeFor omitted ++ dropOrphanToolItems (itemsOf kept)) ∧
        PairedTools (front ++ noticeFor omitted ++ dropOrphanToolItems (itemsOf kept)) := by
    intro front hfront
    refine ⟨⟨_, _, front, omitted, kept, hanchored, hfront, hchunks, htail, rfl⟩, ?_⟩
    have hplain : ∀ item ∈ front, item.isTool = false := by
      rcases hfront with rfl | rfl
      · exact hanchored.isTool
      · exact fun item hmem => absurd hmem List.not_mem_nil
    rw [← candidate_eq hplain]
    exact pairedTools_dropOrphans _
  rw [heq] at hresult
  split at hresult
  · cases hresult
  · split at hresult
    · rename_i hfits
      obtain rfl := Except.ok.inj hresult
      exact ⟨hfits, hform head hhead⟩
    · split at hresult
      · rename_i hfits
        obtain rfl := Except.ok.inj hresult
        have hempty := hform [] (.inr rfl)
        rw [List.nil_append] at hempty
        exact ⟨hfits.2, hempty⟩
      · cases hresult

/-- **Pruning is sound.** -/
theorem pruning_sound (estimate : TokenEstimator) (inputItems : List InputItem)
    (instructions : Option String) (budget : ContextBudget) :
    (estimateModelCallTokens estimate inputItems instructions budget.model ≤
        budget.inputBudgetTokens →
      constrainModelInput estimate inputItems instructions budget = .ok inputItems) ∧
    (budget.inputBudgetTokens <
        estimateModelCallTokens estimate inputItems instructions budget.model →
      ∀ result, constrainModelInput estimate inputItems instructions budget = .ok result →
        estimateModelCallTokens estimate result instructions budget.model ≤
            budget.inputBudgetTokens ∧
          PrunedForm estimate budget.model inputItems result ∧ PairedTools result) := by
  constructor
  · intro hfits
    exact if_pos hfits
  · intro hover result hresult
    unfold constrainModelInput at hresult
    rw [if_neg (Int.not_le.mpr hover)] at hresult
    simp only at hresult
    split at hresult
    · cases hresult
    · split at hresult
      · cases hresult
      · rename_i constrained hprune
        split at hresult
        · cases hresult
        · rename_i hwithin
          obtain rfl := Except.ok.inj hresult
          exact ⟨Int.not_lt.mp hwithin, (pruneItemsToBudget_ok hprune).2⟩

end Workbench
