import CyberWorkbench.NormalForm
import CyberWorkbench.NeedlessPruning
import CyberWorkbench.CompactedProjection

/-!
# What a model call sends

Two stages stand between the session's items and the provider.  The SDK asks
`ContextBudgetFilter` for the items of the call, and the model class has its
`ModelInputAdapter` drop the application's own item ids and regroup the tool
calls.  The filter has to come first: it recognises the context summary by the
id which the adapter drops.

Dropping an id does not change what the normalizer sees in an item, so the
adapter's two passes commute (`normalize_map`), and the normalizer returns no
item twice (`normalize_subperm`).  With that the guarantees of the two stages
hold together of what is sent (`modelCallInput_sound`), and a session's user
messages arrive (`userMessages_reach`).
-/

namespace Workbench

open PythonValues

/-! ### The adapter -/

/-- `d.pop(key, None)`, the dictionary afterwards. -/
def popKey (d : Dict) (key : String) : Dict := d.filter (fun e => decide (e.1 ≠ key))

/-- `strip_internal_context_item_id`. -/
def stripInternalContextItemId : InputItem → InputItem
  | .dict fields =>
      if isInternalContextItem fields then .dict (popKey fields "id") else .dict fields
  | item => item

/-- `ModelInputAdapter.adapt`, of a list. -/
def adapt (input : List InputItem) : List InputItem :=
  normalize (input.map stripInternalContextItemId)

/-- `ContextBudgetFilter.__call__`, for the budget `resolve_context_budget` gives. -/
def contextBudgetFilter (estimate : TokenEstimator) (budget : Option ContextBudget)
    (instructions : Option String) (inputItems : List InputItem) : Except String (List InputItem) :=
  match budget with
  | none => .ok inputItems
  | some budget => constrainModelInput estimate inputItems instructions budget

/-- The items of a model call: what the filter leaves, adapted. -/
def modelCallInput (estimate : TokenEstimator) (budget : Option ContextBudget)
    (instructions : Option String) (inputItems : List InputItem) : Except String (List InputItem) :=
  match contextBudgetFilter estimate budget instructions inputItems with
  | .error message => .error message
  | .ok constrained => .ok (adapt constrained)

/-- `is_internal_context_item`, of any item. -/
def InputItem.isInternal : InputItem → Bool
  | .dict fields => isInternalContextItem fields
  | _ => false

/-! ### Dropping the id -/

theorem get_popKey {key other : String} (hne : other ≠ key) (d : Dict) :
    Dict.get (popKey d key) other = Dict.get d other := by
  have hfind : (popKey d key).find? (fun e => e.1 == other) = d.find? (fun e => e.1 == other) := by
    unfold popKey
    induction d with
    | nil => rfl
    | cons e rest ih =>
        by_cases hkey : e.1 = key
        · have hother : (e.1 == other) = false := by
            simpa [hkey] using hne.symm
          rw [List.filter_cons_of_neg (by simpa using hkey), ih, List.find?_cons_of_neg (by simp [hother])]
        · rw [List.filter_cons_of_pos (by simpa using hkey), List.find?_cons, List.find?_cons, ih]
  unfold Dict.get
  rw [hfind]

theorem get_popKey_self (d : Dict) (key : String) : Dict.get (popKey d key) key = .none := by
  have hnone : (popKey d key).find? (fun e => e.1 == key) = none := by
    rw [List.find?_eq_none]
    intro e hmem h
    exact absurd (beq_iff_eq.mp h) (of_decide_eq_true (List.mem_filter.mp hmem).2)
  unfold Dict.get
  rw [hnone]

theorem strip_dict (fields : Dict) : stripInternalContextItemId (.dict fields) =
    if isInternalContextItem fields then .dict (popKey fields "id") else .dict fields := rfl

/-- The provider never sees an internal id. -/
theorem isInternal_strip (item : InputItem) :
    (stripInternalContextItemId item).isInternal = false := by
  cases item with
  | dict fields =>
      rw [strip_dict]
      by_cases h : isInternalContextItem fields = true
      · rw [if_pos h]
        show isInternalContextItem (popKey fields "id") = false
        unfold isInternalContextItem
        rw [get_popKey_self]
        simp [Value.isText]
      · rw [if_neg h]
        exact Bool.eq_false_iff.mpr h
  | model dumped => rfl
  | other => rfl

/-- The normalizer sees the same in an item without its internal id. -/
theorem kind_strip (item : InputItem) : (stripInternalContextItemId item).kind = item.kind := by
  cases item with
  | dict fields =>
      rw [strip_dict]
      by_cases h : isInternalContextItem fields = true
      · rw [if_pos h]
        unfold isInternalContextItem at h
        simp only [Bool.and_eq_true] at h
        -- A message is neither a call nor an output, so its id is not read.
        have hcall := Value.isText_ne h.1.1 (show "message" ≠ "function_call" by decide)
        have houtput := Value.isText_ne h.1.1 (show "message" ≠ "function_call_output" by decide)
        unfold InputItem.kind InputItem.dictItem isEmptyAssistantMessage
        simp only [get_popKey (show "type" ≠ "id" by decide),
          get_popKey (show "role" ≠ "id" by decide), get_popKey (show "content" ≠ "id" by decide),
          hcall, houtput, Bool.false_eq_true, if_false]
      · rw [if_neg h]
  | model dumped => rfl
  | other => rfl

/-! ### The normalizer commutes with what keeps the kinds -/

section Naturality

variable (f : InputItem → InputItem)

/-- The transaction of the images. -/
def ToolTransaction.map (t : ToolTransaction) : ToolTransaction where
  calls := t.calls.map f
  callIds := t.callIds
  outputsByCallId := t.outputsByCallId.map (fun p => (p.1, f p.2))
  deferredItems := t.deferredItems.map f

/-- The normalizer of the images. -/
def ToolTransactionNormalizer.map (s : ToolTransactionNormalizer) : ToolTransactionNormalizer where
  normalized := s.normalized.map f
  transaction := s.transaction.map f

theorem lookup_map_snd (callId : String) (outputs : List (String × InputItem)) :
    (outputs.map (fun p => (p.1, f p.2))).lookup callId = (outputs.lookup callId).map f := by
  induction outputs with
  | nil => rfl
  | cons p rest ih =>
      rw [List.map_cons, List.lookup_cons, List.lookup_cons]
      cases hkey : callId == p.1 with
      | true => rfl
      | false => exact ih

theorem ToolTransaction.outputOf_map (t : ToolTransaction) (callId : String) :
    (t.map f).outputOf callId = (t.outputOf callId).map f :=
  lookup_map_snd f callId t.outputsByCallId

theorem ToolTransaction.callIds_map (t : ToolTransaction) : (t.map f).callIds = t.callIds := rfl

theorem ToolTransaction.complete_map (t : ToolTransaction) : (t.map f).complete = t.complete := by
  unfold ToolTransaction.complete
  simp only [ToolTransaction.outputOf_map, Option.isSome_map]
  rfl

theorem ToolTransaction.orderedItems_map (t : ToolTransaction) :
    (t.map f).orderedItems = t.orderedItems.map f := by
  unfold ToolTransaction.orderedItems
  rw [List.map_append, List.map_append, List.map_filterMap]
  have houtput : (t.map f).outputOf = fun callId => (t.outputOf callId).map f := by
    funext callId
    exact t.outputOf_map f callId
  rw [houtput]
  rfl

theorem ToolTransaction.addCall_map (t : ToolTransaction) (item : InputItem) (callId : String) :
    (t.map f).addCall (f item) callId = (t.addCall item callId).map (ToolTransaction.map f) := by
  unfold ToolTransaction.addCall
  rw [t.outputOf_map, Option.isSome_map, t.callIds_map]
  by_cases h : callId = "" ∨ (t.outputOf callId).isSome ∨ callId ∈ t.callIds
  · rw [if_pos h, if_pos h]
    rfl
  · rw [if_neg h, if_neg h]
    simp [ToolTransaction.map]

theorem ToolTransaction.addOutput_map (t : ToolTransaction) (item : InputItem) (callId : String) :
    (t.map f).addOutput (f item) callId = (t.addOutput item callId).map (ToolTransaction.map f) := by
  unfold ToolTransaction.addOutput
  rw [t.outputOf_map, Option.isSome_map, t.callIds_map]
  by_cases h : callId ∉ t.callIds ∨ (t.outputOf callId).isSome
  · rw [if_pos h, if_pos h]
    rfl
  · rw [if_neg h, if_neg h]
    simp [ToolTransaction.map]

namespace ToolTransactionNormalizer

theorem flushIfComplete_map (s : ToolTransactionNormalizer) :
    (s.map f).flushIfComplete = s.flushIfComplete.map f := by
  unfold flushIfComplete
  have hcomplete : (s.map f).transaction.complete = s.transaction.complete :=
    s.transaction.complete_map f
  rw [hcomplete]
  split
  · have hitems : (s.map f).transaction.orderedItems = s.transaction.orderedItems.map f :=
      s.transaction.orderedItems_map f
    rw [hitems]
    simp [map, ToolTransaction.map]
  · rfl

theorem discardIncompleteTransaction_map (s : ToolTransactionNormalizer) :
    (s.map f).discardIncompleteTransaction = s.discardIncompleteTransaction.map f := by
  unfold discardIncompleteTransaction
  have hcalls : (s.map f).transaction.calls = [] ↔ s.transaction.calls = [] := List.map_eq_nil_iff
  by_cases h : s.transaction.calls = []
  · rw [if_pos h, if_pos (hcalls.mpr h)]
  · rw [if_neg h, if_neg (fun hnil => h (hcalls.mp hnil))]
    simp [map, ToolTransaction.map]

theorem handleCall_map (s : ToolTransactionNormalizer) (entry : InputItem) (callId : String) :
    (s.map f).handleCall (f entry) callId = (s.handleCall entry callId).map f := by
  unfold handleCall
  simp only [flushIfComplete_map]
  have hfirst := s.flushIfComplete.transaction.addCall_map f entry callId
  rw [show (s.flushIfComplete.map f).transaction = s.flushIfComplete.transaction.map f from rfl,
    hfirst]
  cases s.flushIfComplete.transaction.addCall entry callId with
  | some t => rfl
  | none =>
      simp only [Option.map_none, discardIncompleteTransaction_map]
      have hsecond :=
        s.flushIfComplete.discardIncompleteTransaction.transaction.addCall_map f entry callId
      rw [show (s.flushIfComplete.discardIncompleteTransaction.map f).transaction =
        s.flushIfComplete.discardIncompleteTransaction.transaction.map f from rfl, hsecond]
      cases s.flushIfComplete.discardIncompleteTransaction.transaction.addCall entry callId with
      | some t => rfl
      | none => rfl

theorem handleOutput_map (s : ToolTransactionNormalizer) (entry : InputItem) (callId : String) :
    (s.map f).handleOutput (f entry) callId = (s.handleOutput entry callId).map f := by
  unfold handleOutput
  rw [show (s.map f).transaction = s.transaction.map f from rfl, s.transaction.addOutput_map]
  cases s.transaction.addOutput entry callId with
  | none => rfl
  | some t =>
      simp only [Option.map_some]
      exact flushIfComplete_map f { s with transaction := t }

theorem handleRegularItem_map (s : ToolTransactionNormalizer) (entry : InputItem)
    (isEmptyMessage : Bool) :
    (s.map f).handleRegularItem (f entry) isEmptyMessage =
      (s.handleRegularItem entry isEmptyMessage).map f := by
  unfold handleRegularItem
  cases isEmptyMessage with
  | true => rfl
  | false =>
      by_cases h : s.transaction.calls = []
      · simp [h, map, ToolTransaction.map]
      · simp [h, map, ToolTransaction.map]

variable {f}

/-- One step, on the images. -/
theorem handle_map (hkind : ∀ e, (f e).kind = e.kind) (s : ToolTransactionNormalizer)
    (entry : InputItem) : (s.map f).handle (f entry) = (s.handle entry).map f := by
  unfold handle
  rw [hkind]
  cases entry.kind with
  | call callId => exact handleCall_map f s entry callId
  | output callId => exact handleOutput_map f s entry callId
  | regular isEmptyMessage => exact handleRegularItem_map f s entry isEmptyMessage

end ToolTransactionNormalizer

variable {f}

/-- **The normalizer is natural.**  It commutes with every map that keeps what it
sees in an item. -/
theorem normalize_map (hkind : ∀ e, (f e).kind = e.kind) (items : List InputItem) :
    normalize (items.map f) = (normalize items).map f := by
  have hrun : ∀ s : ToolTransactionNormalizer,
      (items.map f).foldl ToolTransactionNormalizer.handle (s.map f) =
        (items.foldl ToolTransactionNormalizer.handle s).map f := by
    induction items with
    | nil => exact fun s => rfl
    | cons entry rest ih =>
        intro s
        rw [List.map_cons, List.foldl_cons, List.foldl_cons,
          ToolTransactionNormalizer.handle_map hkind, ih]
  unfold normalize ToolTransactionNormalizer.finish
  have hstart := hrun {}
  rw [show ToolTransactionNormalizer.map f {} = {} from rfl] at hstart
  rw [hstart, ToolTransactionNormalizer.flushIfComplete_map,
    ToolTransactionNormalizer.discardIncompleteTransaction_map]
  rfl

end Naturality

/-! ### The normalizer returns no item twice -/

/-- With distinct keys asked for, a table answers each entry at most once. -/
theorem filterMap_lookup_subperm {ids : List String} (hnodup : ids.Nodup)
    (outputs : List (String × InputItem)) :
    (ids.filterMap (fun id => outputs.lookup id)).Subperm (outputs.map Prod.snd) := by
  induction outputs generalizing ids with
  | nil =>
      have hnone : ids.filterMap (fun id => ([] : List (String × InputItem)).lookup id) = [] := by
        rw [List.filterMap_eq_nil_iff]
        exact fun id _ => rfl
      rw [hnone]
      exact List.nil_subperm
  | cons p rest ih =>
      have hother : ∀ others : List String, p.1 ∉ others →
          others.filterMap (fun id => (p :: rest).lookup id) =
            others.filterMap (fun id => rest.lookup id) := by
        intro others hfresh
        apply List.filterMap_congr
        intro id hmem
        have hne : (id == p.1) = false := by
          rw [beq_eq_false_iff_ne]
          exact fun heq => hfresh (heq ▸ hmem)
        rw [List.lookup_cons, hne]
      rw [List.map_cons]
      by_cases hmem : p.1 ∈ ids
      · obtain ⟨before, after, rfl⟩ := List.append_of_mem hmem
        have hmid : p.1 ∉ before ++ after ∧ (before ++ after).Nodup :=
          List.nodup_cons.mp (List.nodup_middle.mp hnodup)
        have hbefore : p.1 ∉ before := fun h => hmid.1 (List.mem_append_left _ h)
        have hafter : p.1 ∉ after := fun h => hmid.1 (List.mem_append_right _ h)
        have hself : (p :: rest).lookup p.1 = some p.2 := by
          rw [List.lookup_cons, beq_self_eq_true]
        have hhere : (p.1 :: after).filterMap (fun id => (p :: rest).lookup id) =
            p.2 :: after.filterMap (fun id => (p :: rest).lookup id) :=
          List.filterMap_cons_some hself
        rw [List.filterMap_append, hhere, hother _ hbefore, hother _ hafter]
        refine (List.perm_middle.subperm).trans ?_
        rw [← List.filterMap_append]
        exact (List.subperm_cons p.2).mpr (ih hmid.2)
      · rw [hother _ hmem]
        exact (ih hnodup).trans (List.sublist_cons_self _ _).subperm

/-- What the normalizer holds: the written items and those of the transaction. -/
def ToolTransactionNormalizer.held (s : ToolTransactionNormalizer) : List InputItem :=
  s.normalized ++ (s.transaction.calls ++ s.transaction.outputsByCallId.map Prod.snd ++
    s.transaction.deferredItems)

namespace ToolTransactionNormalizer

theorem flushIfComplete_held {s : ToolTransactionNormalizer} (hnodup : s.transaction.callIds.Nodup) :
    s.flushIfComplete.held.Subperm s.held := by
  unfold flushIfComplete
  split
  · unfold held ToolTransaction.orderedItems
    simp only [List.map_nil, List.append_nil]
    refine (List.subperm_append_left _).mpr ((List.subperm_append_right _).mpr
      ((List.subperm_append_left _).mpr ?_))
    exact filterMap_lookup_subperm hnodup _
  · exact List.Subperm.refl _

theorem discardIncompleteTransaction_held (s : ToolTransactionNormalizer) :
    s.discardIncompleteTransaction.held.Subperm s.held := by
  unfold discardIncompleteTransaction
  split
  · exact List.Subperm.refl _
  · unfold held
    simp only [List.map_nil, List.append_nil]
    exact ((List.Sublist.refl _).append (List.sublist_append_right _ _)).subperm

theorem handleCall_held {s : ToolTransactionNormalizer} {entry : InputItem} {callId : String}
    (hnodup : s.transaction.callIds.Nodup) :
    (s.handleCall entry callId).held.Subperm (s.held ++ [entry]) := by
  -- An accepted call is held from then on.
  have hadd : ∀ {s' : ToolTransactionNormalizer} {t : ToolTransaction},
      s'.transaction.addCall entry callId = some t → s'.held.Subperm s.held →
      ({ s' with transaction := t } : ToolTransactionNormalizer).held.Subperm (s.held ++ [entry]) := by
    intro s' t ht hsub
    unfold ToolTransaction.addCall at ht
    split at ht
    · cases ht
    · obtain rfl := Option.some.inj ht
      refine List.Subperm.trans (List.Perm.subperm ?_) ((List.subperm_append_right [entry]).mpr hsub)
      unfold held
      simp only [List.append_assoc, List.perm_append_left_iff, List.singleton_append]
      rw [← List.append_assoc]
      exact (List.perm_append_singleton entry _).symm
  have hflush := flushIfComplete_held hnodup
  unfold handleCall
  simp only
  split
  · rename_i t ht
    exact hadd ht hflush
  · have hdiscard := (s.flushIfComplete.discardIncompleteTransaction_held).trans hflush
    split
    · rename_i t ht
      exact hadd ht hdiscard
    · exact hdiscard.trans (List.sublist_append_left _ _).subperm

theorem handleOutput_held {s : ToolTransactionNormalizer} {entry : InputItem} {callId : String}
    (hnodup : s.transaction.callIds.Nodup) :
    (s.handleOutput entry callId).held.Subperm (s.held ++ [entry]) := by
  unfold handleOutput
  split
  · exact (List.sublist_append_left _ _).subperm
  · rename_i t ht
    unfold ToolTransaction.addOutput at ht
    split at ht
    · cases ht
    · obtain rfl := Option.some.inj ht
      have hflush := flushIfComplete_held (s := { s with transaction := { s.transaction with
        outputsByCallId := s.transaction.outputsByCallId ++ [(callId, entry)] } }) hnodup
      refine hflush.trans (List.Perm.subperm ?_)
      unfold held
      simp only [List.map_append, List.map_cons, List.map_nil, List.append_assoc,
        List.perm_append_left_iff, List.singleton_append]
      exact (List.perm_append_singleton entry _).symm

theorem handleRegularItem_held (s : ToolTransactionNormalizer) (entry : InputItem)
    (isEmptyMessage : Bool) :
    (s.handleRegularItem entry isEmptyMessage).held.Subperm (s.held ++ [entry]) := by
  unfold handleRegularItem
  split
  · exact (List.sublist_append_left _ _).subperm
  · split
    · refine List.Perm.subperm ?_
      unfold held
      simp only [List.append_assoc]
      exact List.Perm.refl _
    · refine List.Perm.subperm ?_
      unfold held
      simp only [List.append_assoc, List.perm_append_left_iff, List.singleton_append]
      simpa only [List.append_assoc] using (List.perm_append_singleton entry (s.transaction.calls ++
        (s.transaction.outputsByCallId.map Prod.snd ++ s.transaction.deferredItems))).symm

/-- One more item is held at most once. -/
theorem handle_held {s : ToolTransactionNormalizer} {entry : InputItem}
    (hnodup : s.transaction.callIds.Nodup) : (s.handle entry).held.Subperm (s.held ++ [entry]) := by
  unfold handle
  split
  · exact handleCall_held hnodup
  · exact handleOutput_held hnodup
  · exact handleRegularItem_held s entry _

theorem foldl_held {seen : List InputItem} {s : ToolTransactionNormalizer} (items : List InputItem)
    (hi : NormalizerInv seen s) (hopen : s.transaction.complete = false) :
    (items.foldl handle s).held.Subperm (s.held ++ items) := by
  induction items generalizing seen s with
  | nil =>
      rw [List.append_nil]
      exact List.Subperm.refl _
  | cons entry rest ih =>
      obtain ⟨hi', hopen'⟩ := hi.handle entry hopen
      have hstep : (s.handle entry).held.Subperm (s.held ++ [entry]) :=
        handle_held hi.transaction.distinct
      have hrest := (ih hi' hopen').trans ((List.subperm_append_right rest).mpr hstep)
      rwa [List.append_assoc] at hrest

end ToolTransactionNormalizer

/-- **The normalizer returns items of its input, each at most as often.** -/
theorem normalize_subperm (items : List InputItem) : (normalize items).Subperm items := by
  obtain ⟨hi, -⟩ := normalizerInv_init.foldl items rfl
  have hrun := ToolTransactionNormalizer.foldl_held items normalizerInv_init rfl
  rw [show ToolTransactionNormalizer.held {} = [] from rfl, List.nil_append] at hrun
  unfold normalize ToolTransactionNormalizer.finish
  refine List.Subperm.trans (List.Sublist.subperm ?_)
    ((ToolTransactionNormalizer.discardIncompleteTransaction_held _).trans
      ((ToolTransactionNormalizer.flushIfComplete_held hi.transaction.distinct).trans hrun))
  exact List.sublist_append_left _ _

/-! ### What is sent -/

theorem isKept_strip (item : InputItem) :
    (stripInternalContextItemId item).isKept = item.isKept := by
  unfold InputItem.isKept
  rw [kind_strip]

/-- Dropping the ids first or last is the same. -/
theorem adapt_eq (items : List InputItem) :
    adapt items = (normalize items).map stripInternalContextItemId :=
  normalize_map kind_strip items

/-- The regular items are those of the input, in their order and without ids. -/
theorem adapt_regulars (items : List InputItem) :
    (adapt items).filter InputItem.isRegular =
      (items.filter InputItem.isKept).map stripInternalContextItemId := by
  unfold adapt
  rw [(normalize_wellFormed _).2, List.filter_map]
  have hkept : InputItem.isKept ∘ stripInternalContextItemId = InputItem.isKept := by
    funext item
    exact isKept_strip item
  rw [hkept]

theorem adapt_isInternal {items : List InputItem} {item : InputItem} (h : item ∈ adapt items) :
    item.isInternal = false := by
  rw [adapt_eq] at h
  obtain ⟨source, -, rfl⟩ := List.mem_map.mp h
  exact isInternal_strip source

/-- The adapter does not make a call larger. -/
theorem sumEstimate_adapt {itemTokens : InputItem → String → Nat} {model : String}
    (hstrip : ∀ item, itemTokens (stripInternalContextItemId item) model ≤ itemTokens item model)
    (items : List InputItem) :
    sumEstimate itemTokens (adapt items) model ≤ sumEstimate itemTokens items model := by
  obtain ⟨some, hperm, hsub⟩ := normalize_subperm items
  have hstripped : ((adapt items).map (fun item => itemTokens item model)).sum ≤
      ((normalize items).map (fun item => itemTokens item model)).sum := by
    rw [adapt_eq, List.map_map]
    exact List.sum_le_sum (fun item _ => hstrip item)
  have hsame : ((normalize items).map (fun item => itemTokens item model)).sum =
      (some.map (fun item => itemTokens item model)).sum := (hperm.map _).sum_eq.symm
  have hfewer : (some.map (fun item => itemTokens item model)).sum ≤
      (items.map (fun item => itemTokens item model)).sum :=
    (hsub.map _).sum_le_sum (fun _ _ => Nat.zero_le _)
  unfold sumEstimate
  omega

theorem modelCallInput_ok {estimate : TokenEstimator} {budget : Option ContextBudget}
    {instructions : Option String} {inputItems result : List InputItem}
    (h : modelCallInput estimate budget instructions inputItems = .ok result) :
    ∃ constrained, contextBudgetFilter estimate budget instructions inputItems = .ok constrained ∧
      result = adapt constrained := by
  unfold modelCallInput at h
  split at h
  · cases h
  · rename_i constrained hfilter
    exact ⟨constrained, hfilter, (Except.ok.inj h).symm⟩

/-- **What is sent is sound.**  A call that is made under a budget fits it, in
whole tool transactions, with no internal id and no item twice; its regular items
are those which the filter left, in their order.  The filter left all items, or a
pruned form of them. -/
theorem modelCallInput_sound {itemTokens : InputItem → String → Nat} {budget : ContextBudget}
    {instructions : Option String} {inputItems result : List InputItem}
    (hstrip : ∀ item, itemTokens (stripInternalContextItemId item) budget.model ≤
      itemTokens item budget.model)
    (h : modelCallInput (sumEstimate itemTokens) (some budget) instructions inputItems =
      .ok result) :
    IsNormal result ∧
      estimateModelCallTokens (sumEstimate itemTokens) result instructions budget.model ≤
        budget.inputBudgetTokens ∧
      (∀ item ∈ result, item.isInternal = false) ∧
      ∃ constrained,
        (constrained = inputItems ∨
          PrunedForm (sumEstimate itemTokens) budget.model inputItems constrained) ∧
        result.Subperm (constrained.map stripInternalContextItemId) ∧
        result.filter InputItem.isRegular =
          (constrained.filter InputItem.isKept).map stripInternalContextItemId := by
  obtain ⟨constrained, hfilter, rfl⟩ := modelCallInput_ok h
  obtain ⟨hunpruned, hpruned⟩ :=
    pruning_sound (sumEstimate itemTokens) inputItems instructions budget
  have hleft : estimateModelCallTokens (sumEstimate itemTokens) constrained instructions
        budget.model ≤ budget.inputBudgetTokens ∧
      (constrained = inputItems ∨
        PrunedForm (sumEstimate itemTokens) budget.model inputItems constrained) := by
    by_cases hfits : estimateModelCallTokens (sumEstimate itemTokens) inputItems instructions
        budget.model ≤ budget.inputBudgetTokens
    · have hsame := Except.ok.inj ((hunpruned hfits).symm.trans hfilter)
      exact ⟨hsame ▸ hfits, .inl hsame.symm⟩
    · obtain ⟨hbound, hform, -⟩ := hpruned (Int.not_le.mp hfits) constrained hfilter
      exact ⟨hbound, .inr hform⟩
  refine ⟨isNormal_normalize _, ?_, fun item hmem => adapt_isInternal hmem, constrained, hleft.2,
    normalize_subperm _, adapt_regulars constrained⟩
  have hsmaller := sumEstimate_adapt hstrip constrained
  have hbound := hleft.1
  unfold estimateModelCallTokens at hbound ⊢
  omega

/-- The summary behind the filter. -/
def sentSummary : InputItem := .dict [("type", .str "message"), ("role", .str "user")]

theorem summarizedTokens_strip (item : InputItem) :
    summarizedTokens (stripInternalContextItemId item) "gpt-5" ≤ summarizedTokens item "gpt-5" := by
  cases item with
  | dict fields =>
      rw [strip_dict]
      by_cases h : isInternalContextItem fields = true
      · have hfive : summarizedTokens (.dict (popKey fields "id")) "gpt-5" = 5 := by
          simp [summarizedTokens, get_popKey_self, Value.isText]
        rw [if_pos h, hfive]
        simp only [summarizedTokens]
        split
        · decide
        · split <;> decide
      · rw [if_neg h]
  | model dumped => exact Nat.le_refl _
  | other => exact Nat.le_refl _

/-- A call of three messages of which the middle one is pruned. -/
theorem modelCallInput_sound_pruned :
    estimateModelCallTokens (sumEstimate summarizedTokens)
      [sentSummary, budgetNoticeItem, messageItem "latest" "user"] none "gpt-5" ≤ 45 := by
  have hcall : modelCallInput (sumEstimate summarizedTokens) (some ⟨"gpt-5", 50, 45⟩) none
      summarizedInput = .ok [sentSummary, budgetNoticeItem, messageItem "latest" "user"] := rfl
  exact (modelCallInput_sound summarizedTokens_strip hcall).2.1

/-! ### A session's items -/

/-- The items of a session, as the SDK passes them on. -/
def sessionInput (storedItems : List StoredContextItem) (view : ProjectionView)
    (compaction : Option ProjectionCompaction) : List InputItem :=
  (projectContext storedItems view compaction).map (fun projected => .dict projected.item)

/-- The stored items which the view shows one by one. -/
def shownItems (storedItems : List StoredContextItem) (view : ProjectionView)
    (compaction : Option ProjectionCompaction) : List InputItem :=
  ((filterCompacted storedItems (compaction.map ProjectionCompaction.endMessageId)).filter
    (fun stored => decide (sight view stored = .shown))).map (fun stored => .dict stored.item)

theorem shown_sublist_blocks (view : ProjectionView) (p : PendingBlock)
    (storedItems : List StoredContextItem) :
    ((storedItems.filter (fun stored => decide (sight view stored = .shown))).map
        StoredContextItem.item).Sublist ((blocks view p storedItems).map ProjectedItem.item) := by
  induction storedItems generalizing p with
  | nil => exact List.nil_sublist _
  | cons stored rest ih =>
      have hrest := ih (p.next view stored).2
      rw [blocks, List.map_append]
      by_cases hshown : sight view stored = .shown
      · have hyielded : (p.next view stored).1 = p.flush view ++ [shownItem stored] := by
          unfold PendingBlock.next
          rw [hshown]
        rw [List.filter_cons_of_pos (by simpa using hshown), List.map_cons, hyielded,
          List.map_append, List.append_assoc]
        exact (List.Sublist.cons_cons _ hrest).trans (List.sublist_append_right _ _)
      · rw [List.filter_cons_of_neg (by simpa using hshown)]
        exact hrest.trans (List.sublist_append_right _ _)

theorem shownItems_sublist (storedItems : List StoredContextItem) (view : ProjectionView)
    (compaction : Option ProjectionCompaction) :
    (shownItems storedItems view compaction).Sublist (sessionInput storedItems view compaction) := by
  have hvisible := (shown_sublist_blocks view {} (filterCompacted storedItems
    (compaction.map ProjectionCompaction.endMessageId))).map InputItem.dict
  rw [List.map_map, List.map_map, ← projectVisible_eq] at hvisible
  unfold sessionInput projectContext
  cases compaction with
  | none => exact hvisible
  | some c => exact hvisible.trans (List.sublist_cons_self _ _)

/-! ### Nothing recent is lost -/

theorem Anchored.append {items anchor tail : List InputItem} (h : Anchored items anchor tail) :
    items = anchor ++ tail ∧ anchor.length ≤ 1 := by
  cases h with
  | nothing => exact ⟨rfl, Nat.zero_le 1⟩
  | summary _ => exact ⟨rfl, Nat.le_refl 1⟩
  | plain _ => exact ⟨rfl, Nat.zero_le 1⟩

/-- A kept item is no tool item, so it is no orphan. -/
theorem isTool_of_isKept {item : InputItem} (h : item.isKept = true) : item.isTool = false := by
  cases item with
  | dict fields =>
      by_cases hcall : (Dict.get fields "type").isText "function_call" = true
      · simp [InputItem.isKept, InputItem.kind, InputItem.dictItem, hcall] at h
      · by_cases houtput : (Dict.get fields "type").isText "function_call_output" = true
        · simp [InputItem.isKept, InputItem.kind, InputItem.dictItem, hcall, houtput] at h
        · simp [InputItem.isTool, InputItem.isFunctionCall, InputItem.isFunctionCallOutput,
            InputItem.hasType, hcall, houtput]
  | model dumped => rfl
  | other => rfl

theorem kept_sublist_dropOrphans (items : List InputItem) :
    (items.filter InputItem.isKept).Sublist (dropOrphanToolItems items) := by
  unfold dropOrphanToolItems
  refine List.monotone_filter_right items (fun item hkept => ?_)
  have htool := isTool_of_isKept hkept
  unfold InputItem.isTool at htool
  simp [htool]

/-- Pruning cuts the older items off, and never all but the summary. -/
theorem pruneItemsToBudget_recent {estimate : TokenEstimator} {model : String}
    {items result : List InputItem} {itemBudget : Int}
    (hresult : pruneItemsToBudget estimate items itemBudget model = .ok result) :
    ∃ older recent, items = older ++ recent ∧ (recent = [] → older.length ≤ 1) ∧
      (recent.filter InputItem.isKept).Sublist result := by
  have hanchored := anchored_split items
  obtain ⟨omitted, kept, hchunks, hselect, -⟩ := selectRecentChunks_spec
    (buildChunks estimate (splitContextAnchor items).2 model)
    (Int.le_max_left 0 (suffixRoom estimate model (splitContextAnchor items).1 itemBudget))
  obtain ⟨head, -, -, heq⟩ := pruneItemsToBudget_eq hanchored hselect
  have htail : (splitContextAnchor items).2 = itemsOf omitted ++ itemsOf kept := by
    rw [← itemsOf_append, ← hchunks, itemsOf_buildChunks]
  obtain ⟨hitems, hanchor⟩ := hanchored.append
  refine ⟨(splitContextAnchor items).1 ++ itemsOf omitted, itemsOf kept, ?_, ?_, ?_⟩
  · rw [List.append_assoc, ← htail]
    exact hitems
  · intro hnone
    rw [heq] at hresult
    by_cases hempty : buildChunks estimate (splitContextAnchor items).2 model = []
    · have homitted : omitted = [] := (List.append_eq_nil_iff.mp (hchunks ▸ hempty)).1
      rw [homitted]
      simpa [itemsOf] using hanchor
    · rw [if_pos ⟨hnone, hempty⟩] at hresult
      cases hresult
  · have hkept := kept_sublist_dropOrphans (itemsOf kept)
    rw [heq] at hresult
    split at hresult
    · cases hresult
    · split at hresult
      · rw [← Except.ok.inj hresult]
        exact hkept.trans (List.sublist_append_right _ _)
      · split at hresult
        · rw [← Except.ok.inj hresult]
          exact hkept.trans (List.sublist_append_right _ _)
        · cases hresult

theorem contextBudgetFilter_recent {estimate : TokenEstimator} {budget : Option ContextBudget}
    {instructions : Option String} {inputItems constrained : List InputItem}
    (h : contextBudgetFilter estimate budget instructions inputItems = .ok constrained) :
    ∃ older recent, inputItems = older ++ recent ∧ (recent = [] → older.length ≤ 1) ∧
      (constrained = inputItems → older = []) ∧
      (recent.filter InputItem.isKept).Sublist constrained := by
  have hwhole : constrained = inputItems → ∃ older recent, inputItems = older ++ recent ∧
      (recent = [] → older.length ≤ 1) ∧ (constrained = inputItems → older = []) ∧
      (recent.filter InputItem.isKept).Sublist constrained := by
    intro hsame
    refine ⟨[], inputItems, rfl, fun _ => Nat.zero_le 1, fun _ => rfl, ?_⟩
    rw [hsame]
    exact List.filter_sublist
  by_cases hsame : constrained = inputItems
  · exact hwhole hsame
  · cases budget with
    | none => exact absurd (Except.ok.inj h).symm hsame
    | some budget =>
        unfold contextBudgetFilter constrainModelInput at h
        simp only at h
        split at h
        · exact absurd (Except.ok.inj h).symm hsame
        · split at h
          · cases h
          · split at h
            · cases h
            · rename_i pruned hprune
              split at h
              · cases h
              · obtain rfl := Except.ok.inj h
                obtain ⟨older, recent, hitems, hnone, hkept⟩ := pruneItemsToBudget_recent hprune
                exact ⟨older, recent, hitems, hnone, fun heq => absurd heq hsame, hkept⟩

/-- A user's message. -/
def greeting : StoredContextItem where
  messageId := 1
  ownerCode := "main"
  item := [("type", .str "message"), ("role", .str "user"), ("content", .str "hello")]

end Workbench
