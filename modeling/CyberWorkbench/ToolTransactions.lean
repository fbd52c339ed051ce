import CyberWorkbench.ModelInput

/-!
# Normalized input is well formed

The normalizer's output is a concatenation of regular items and of tool
blocks: calls with distinct non-empty ids, then their outputs in the same
order, each of which came after its call in the input.  Outside the blocks
there is no tool item, and the regular items are the input's, minus empty
assistant messages, in their order.

The invariant speaks of the items seen so far: what was written out is well
formed already, the open transaction could be completed into a block, and the
deferred items follow the written ones in input order.
-/

namespace Workbench

open PythonValues

/-! ### The specification -/

/-- Neither a call nor an output. -/
def InputItem.isRegular (e : InputItem) : Bool :=
  match e.kind with
  | .regular _ => true
  | .call _ | .output _ => false

/-- A regular item the normalizer keeps: not an empty assistant message. -/
def InputItem.isKept (e : InputItem) : Bool :=
  match e.kind with
  | .regular isEmptyMessage => !isEmptyMessage
  | .call _ | .output _ => false

/-- `c₁ … cₙ o₁ … oₙ`: calls with distinct non-empty ids, and their outputs,
each of which occurs after its call in the input. -/
def IsToolBlock (input block : List InputItem) : Prop :=
  ∃ calls outputs : List InputItem, ∃ callIds : List String,
    block = calls ++ outputs ∧ callIds ≠ [] ∧ "" ∉ callIds ∧ callIds.Nodup ∧
      calls.map InputItem.kind = callIds.map ItemKind.call ∧
      outputs.map InputItem.kind = callIds.map ItemKind.output ∧
      ∀ p ∈ calls.zip outputs, [p.1, p.2].Sublist input

/-- A concatenation of regular items and tool blocks. -/
def IsWellFormed (input output : List InputItem) : Prop :=
  ∃ segments : List (List InputItem), output = segments.flatten ∧
    ∀ segment ∈ segments, (∃ e, segment = [e] ∧ e.isRegular = true) ∨ IsToolBlock input segment

theorem IsToolBlock.mono {input input' block : List InputItem} (h : input.Sublist input')
    (hb : IsToolBlock input block) : IsToolBlock input' block := by
  obtain ⟨calls, outputs, callIds, hblock, hne, hempty, hnd, hcalls, houtputs, hafter⟩ := hb
  exact ⟨calls, outputs, callIds, hblock, hne, hempty, hnd, hcalls, houtputs,
    fun p hp => (hafter p hp).trans h⟩

theorem IsWellFormed.mono {input input' output : List InputItem} (h : input.Sublist input')
    (hw : IsWellFormed input output) : IsWellFormed input' output := by
  obtain ⟨segments, hout, hsegments⟩ := hw
  refine ⟨segments, hout, fun segment hs => ?_⟩
  rcases hsegments segment hs with hregular | hblock
  · exact .inl hregular
  · exact .inr (hblock.mono h)

theorem IsWellFormed.append {input left right : List InputItem}
    (hl : IsWellFormed input left) (hr : IsWellFormed input right) :
    IsWellFormed input (left ++ right) := by
  obtain ⟨ls, rfl, hls⟩ := hl
  obtain ⟨rs, rfl, hrs⟩ := hr
  refine ⟨ls ++ rs, by simp, ?_⟩
  intro segment hs
  rcases List.mem_append.mp hs with hs | hs
  · exact hls segment hs
  · exact hrs segment hs

theorem isWellFormed_nil (input : List InputItem) : IsWellFormed input [] :=
  ⟨[], rfl, nofun⟩

theorem isWellFormed_regulars (input : List InputItem) {items : List InputItem}
    (h : ∀ e ∈ items, e.isRegular = true) : IsWellFormed input items := by
  refine ⟨items.map (fun e => [e]), (List.flatMap_singleton' items).symm, ?_⟩
  intro segment hs
  obtain ⟨e, he, rfl⟩ := List.mem_map.mp hs
  exact .inl ⟨e, rfl, h e he⟩

theorem IsToolBlock.isWellFormed {input block : List InputItem} (h : IsToolBlock input block) :
    IsWellFormed input block :=
  ⟨[block], by simp, fun segment hs => .inr (List.mem_singleton.mp hs ▸ h)⟩

/-- No item of a tool block is regular. -/
theorem IsToolBlock.filter_isRegular {input block : List InputItem}
    (h : IsToolBlock input block) : block.filter InputItem.isRegular = [] := by
  obtain ⟨calls, outputs, callIds, rfl, -, -, -, hcalls, houtputs, -⟩ := h
  rw [List.filter_eq_nil_iff]
  intro e he
  rcases List.mem_append.mp he with he | he
  · have hk : e.kind ∈ callIds.map ItemKind.call := hcalls ▸ List.mem_map_of_mem he
    obtain ⟨callId, -, hkind⟩ := List.mem_map.mp hk
    simp [InputItem.isRegular, ← hkind]
  · have hk : e.kind ∈ callIds.map ItemKind.output := houtputs ▸ List.mem_map_of_mem he
    obtain ⟨callId, -, hkind⟩ := List.mem_map.mp hk
    simp [InputItem.isRegular, ← hkind]

/-! ### The open transaction -/

/-- What holds of the open transaction after the items `seen`. -/
structure TransactionInv (seen : List InputItem) (t : ToolTransaction) : Prop where
  kinds : t.calls.map InputItem.kind = t.callIds.map ItemKind.call
  nonempty : "" ∉ t.callIds
  distinct : t.callIds.Nodup
  callsSeen : ∀ c ∈ t.calls, c ∈ seen
  outputIds : ∀ callId o, t.outputOf callId = some o → callId ∈ t.callIds
  outputs : ∀ callId o, t.outputOf callId = some o → o.kind = .output callId ∧
    ∀ c ∈ t.calls, c.kind = .call callId → [c, o].Sublist seen
  deferred : ∀ e ∈ t.deferredItems, e.isRegular = true
  idle : t.calls = [] → t.deferredItems = []

theorem transactionInv_empty (seen : List InputItem) : TransactionInv seen {} := by
  constructor <;> simp [ToolTransaction.outputOf]

theorem TransactionInv.mono {seen seen' : List InputItem} {t : ToolTransaction}
    (h : seen.Sublist seen') (hi : TransactionInv seen t) : TransactionInv seen' t :=
  { hi with
    callsSeen := fun c hc => h.mem (hi.callsSeen c hc)
    outputs := fun callId o ho => ⟨(hi.outputs callId o ho).1,
      fun c hc hk => ((hi.outputs callId o ho).2 c hc hk).trans h⟩ }

theorem TransactionInv.callIds_eq_nil {seen : List InputItem} {t : ToolTransaction}
    (hi : TransactionInv seen t) : t.callIds = [] ↔ t.calls = [] := by
  have hlen := congrArg List.length hi.kinds
  rw [List.length_map, List.length_map] at hlen
  rw [← List.length_eq_zero_iff, ← List.length_eq_zero_iff, hlen]

/-- An accepted call joins the transaction unanswered. -/
theorem TransactionInv.addCall {seen : List InputItem} {t t' : ToolTransaction}
    {entry : InputItem} {callId : String} (hi : TransactionInv seen t)
    (hkind : entry.kind = .call callId) (h : t.addCall entry callId = some t') :
    TransactionInv (seen ++ [entry]) t' ∧ t'.complete = false ∧
      t'.deferredItems = t.deferredItems := by
  unfold ToolTransaction.addCall at h
  split at h
  · cases h
  · rename_i hfresh
    obtain rfl := Option.some.inj h
    obtain ⟨hne, hnone, hnew⟩ : callId ≠ "" ∧ t.outputOf callId = none ∧ callId ∉ t.callIds := by
      simpa [not_or, Option.isSome_iff_ne_none] using hfresh
    have hi' := hi.mono (List.sublist_append_left seen [entry])
    refine ⟨⟨?_, ?_, ?_, ?_, ?_, ?_, hi.deferred, ?_⟩, ?_, rfl⟩
    · simp [hi.kinds, hkind]
    · simp [hi.nonempty, Ne.symm hne]
    · rw [List.nodup_append]
      refine ⟨hi.distinct, by simp, ?_⟩
      rintro a ha b hb rfl
      exact hnew (by simpa using (List.mem_singleton.mp hb) ▸ ha)
    · intro c hc
      rcases List.mem_append.mp hc with hc | hc
      · exact hi'.callsSeen c hc
      · exact List.mem_append_right _ hc
    · exact fun id o ho => List.mem_append_left _ (hi.outputIds id o ho)
    · intro id o ho
      refine ⟨(hi.outputs id o ho).1, fun c hc hk => ?_⟩
      rcases List.mem_append.mp hc with hc | hc
      · exact (hi'.outputs id o ho).2 c hc hk
      · obtain rfl := List.mem_singleton.mp hc
        rw [hkind] at hk
        obtain rfl := ItemKind.call.inj hk
        have hnone' : t.outputOf callId = some o := ho
        rw [hnone] at hnone'
        cases hnone'
    · intro hcalls
      simp at hcalls
    · have hopen : (t.outputsByCallId.lookup callId).isSome = false := by
        simpa [ToolTransaction.outputOf] using hnone
      simp [ToolTransaction.complete, ToolTransaction.outputOf, hopen]

/-- An accepted output answers its call. -/
theorem TransactionInv.addOutput {seen : List InputItem} {t t' : ToolTransaction}
    {entry : InputItem} {callId : String} (hi : TransactionInv seen t)
    (hkind : entry.kind = .output callId) (h : t.addOutput entry callId = some t') :
    TransactionInv (seen ++ [entry]) t' ∧ t'.deferredItems = t.deferredItems := by
  unfold ToolTransaction.addOutput at h
  split at h
  · cases h
  · rename_i hawaited
    obtain rfl := Option.some.inj h
    obtain ⟨hmem, hnone⟩ : callId ∈ t.callIds ∧ t.outputOf callId = none := by
      simpa [not_or, Option.isSome_iff_ne_none] using hawaited
    have hi' := hi.mono (List.sublist_append_left seen [entry])
    have hcases : ∀ id o, (t.outputsByCallId ++ [(callId, entry)]).lookup id = some o →
        t.outputOf id = some o ∨ (id = callId ∧ o = entry) := by
      intro id o ho
      rw [List.lookup_append] at ho
      cases hold : t.outputsByCallId.lookup id with
      | some o' => simp_all [ToolTransaction.outputOf]
      | none =>
          rw [hold] at ho
          by_cases hid : id = callId
          · simp_all
          · simp [List.lookup_cons, beq_eq_false_iff_ne.mpr hid] at ho
    refine ⟨⟨hi.kinds, hi.nonempty, hi.distinct, hi'.callsSeen, ?_, ?_, hi.deferred, hi.idle⟩,
      rfl⟩
    · intro id o ho
      rcases hcases id o ho with ho | ⟨rfl, -⟩
      · exact hi.outputIds id o ho
      · exact hmem
    · intro id o ho
      rcases hcases id o ho with ho | ⟨rfl, rfl⟩
      · exact hi'.outputs id o ho
      · refine ⟨hkind, fun c hc _ => ?_⟩
        have hsub : [c].Sublist seen := List.singleton_sublist.mpr (hi.callsSeen c hc)
        simpa using hsub.append (List.Sublist.refl [o])

/-- Answered calls, paired with their outputs. -/
theorem answered_pairs {seen : List InputItem} (answer : String → Option InputItem)
    {calls : List InputItem} {callIds : List String}
    (hkinds : calls.map InputItem.kind = callIds.map ItemKind.call)
    (hanswered : ∀ callId ∈ callIds, ∃ o, answer callId = some o ∧ o.kind = .output callId ∧
      ∀ c ∈ calls, c.kind = .call callId → [c, o].Sublist seen) :
    (callIds.filterMap answer).map InputItem.kind = callIds.map ItemKind.output ∧
      ∀ p ∈ calls.zip (callIds.filterMap answer), [p.1, p.2].Sublist seen := by
  induction callIds generalizing calls with
  | nil => simp_all
  | cons callId rest ih =>
      cases calls with
      | nil => simp at hkinds
      | cons c calls =>
          rw [List.map_cons, List.map_cons, List.cons.injEq] at hkinds
          obtain ⟨o, ho, hkind, hafter⟩ := hanswered callId List.mem_cons_self
          obtain ⟨hmap, hpairs⟩ := ih hkinds.2 (fun id hid => by
            obtain ⟨o, ho, hkind, hafter⟩ := hanswered id (List.mem_cons_of_mem _ hid)
            exact ⟨o, ho, hkind, fun c hc => hafter c (List.mem_cons_of_mem _ hc)⟩)
          rw [List.filterMap_cons_some ho]
          refine ⟨by rw [List.map_cons, List.map_cons, hkind, hmap], ?_⟩
          intro p hp
          rw [List.zip_cons_cons, List.mem_cons] at hp
          rcases hp with rfl | hp
          · exact hafter c List.mem_cons_self hkinds.1
          · exact hpairs p hp

/-- **A complete transaction is a tool block**, followed by what it deferred. -/
theorem TransactionInv.isToolBlock {seen : List InputItem} {t : ToolTransaction}
    (hi : TransactionInv seen t) (hc : t.complete = true) :
    IsToolBlock seen (t.calls ++ t.callIds.filterMap t.outputOf) := by
  obtain ⟨hne, hall⟩ : t.callIds ≠ [] ∧
      ∀ callId ∈ t.callIds, (t.outputOf callId).isSome = true := by
    simpa [ToolTransaction.complete] using hc
  obtain ⟨hkinds, hpairs⟩ := answered_pairs t.outputOf hi.kinds
    (fun callId hid => by
      obtain ⟨o, ho⟩ := Option.isSome_iff_exists.mp (hall callId hid)
      exact ⟨o, ho, hi.outputs callId o ho⟩)
  exact ⟨t.calls, t.callIds.filterMap t.outputOf, t.callIds, rfl, hne, hi.nonempty,
    hi.distinct, hi.kinds, hkinds, hpairs⟩

/-! ### The normalizer -/

/-- What holds of the normalizer after the items `seen`. -/
structure NormalizerInv (seen : List InputItem) (s : ToolTransactionNormalizer) : Prop where
  transaction : TransactionInv seen s.transaction
  wellFormed : IsWellFormed seen s.normalized
  regulars : (s.normalized ++ s.transaction.deferredItems).filter InputItem.isRegular =
    seen.filter InputItem.isKept

/-- An item that is not kept changes nothing when the normalizer skips it. -/
theorem NormalizerInv.skip {seen : List InputItem} {s : ToolTransactionNormalizer}
    (hi : NormalizerInv seen s) (entry : InputItem) (hentry : entry.isKept = false) :
    NormalizerInv (seen ++ [entry]) s := by
  have hsub := List.sublist_append_left seen [entry]
  refine ⟨hi.transaction.mono hsub, hi.wellFormed.mono hsub, ?_⟩
  rw [hi.regulars, List.filter_append]
  simp [hentry]

theorem NormalizerInv.flushIfComplete {seen : List InputItem} {s : ToolTransactionNormalizer}
    (hi : NormalizerInv seen s) :
    NormalizerInv seen s.flushIfComplete ∧
      s.flushIfComplete.transaction.complete = false := by
  unfold ToolTransactionNormalizer.flushIfComplete
  split
  · rename_i hcomplete
    have hblock := hi.transaction.isToolBlock hcomplete
    have hdeferred := isWellFormed_regulars seen hi.transaction.deferred
    refine ⟨⟨transactionInv_empty seen,
      hi.wellFormed.append (hblock.isWellFormed.append hdeferred), ?_⟩, rfl⟩
    rw [← hi.regulars]
    simp only [ToolTransaction.orderedItems, List.filter_append, List.append_nil]
    rw [← List.filter_append, hblock.filter_isRegular, List.nil_append]
  · rename_i hopen
    exact ⟨hi, Bool.eq_false_iff.mpr hopen⟩

theorem NormalizerInv.discardIncompleteTransaction {seen : List InputItem}
    {s : ToolTransactionNormalizer} (hi : NormalizerInv seen s) :
    NormalizerInv seen s.discardIncompleteTransaction ∧
      s.discardIncompleteTransaction.transaction.callIds = [] ∧
      s.discardIncompleteTransaction.transaction.deferredItems = [] := by
  unfold ToolTransactionNormalizer.discardIncompleteTransaction
  split
  · rename_i hidle
    exact ⟨hi, hi.transaction.callIds_eq_nil.mpr hidle, hi.transaction.idle hidle⟩
  · refine ⟨⟨transactionInv_empty seen,
      hi.wellFormed.append (isWellFormed_regulars seen hi.transaction.deferred), ?_⟩, rfl, rfl⟩
    rw [← hi.regulars]
    simp

theorem complete_of_callIds_nil {t : ToolTransaction} (h : t.callIds = []) :
    t.complete = false := by
  simp [ToolTransaction.complete, h]

/-- A call that is accepted joins the open transaction. -/
theorem NormalizerInv.addCall {seen : List InputItem} {s : ToolTransactionNormalizer}
    {entry : InputItem} {callId : String} {t : ToolTransaction} (hi : NormalizerInv seen s)
    (hkind : entry.kind = .call callId) (h : s.transaction.addCall entry callId = some t) :
    NormalizerInv (seen ++ [entry]) { s with transaction := t } ∧ t.complete = false := by
  obtain ⟨htransaction, hopen, hdeferred⟩ := hi.transaction.addCall hkind h
  have hskip := hi.skip entry (by simp [InputItem.isKept, hkind])
  refine ⟨⟨htransaction, hskip.wellFormed, ?_⟩, hopen⟩
  rw [hdeferred]
  exact hskip.regulars

theorem NormalizerInv.handleCall {seen : List InputItem} {s : ToolTransactionNormalizer}
    {entry : InputItem} {callId : String} (hi : NormalizerInv seen s)
    (hkind : entry.kind = .call callId) :
    NormalizerInv (seen ++ [entry]) (s.handleCall entry callId) ∧
      (s.handleCall entry callId).transaction.complete = false := by
  unfold ToolTransactionNormalizer.handleCall
  obtain ⟨hflushed, -⟩ := hi.flushIfComplete
  simp only
  split
  · rename_i t hadd
    exact hflushed.addCall hkind hadd
  · obtain ⟨hdiscarded, hids, -⟩ := hflushed.discardIncompleteTransaction
    split
    · rename_i t hadd
      exact hdiscarded.addCall hkind hadd
    · exact ⟨hdiscarded.skip entry (by simp [InputItem.isKept, hkind]),
        complete_of_callIds_nil hids⟩

theorem NormalizerInv.handleOutput {seen : List InputItem} {s : ToolTransactionNormalizer}
    {entry : InputItem} {callId : String} (hi : NormalizerInv seen s)
    (hopen : s.transaction.complete = false) (hkind : entry.kind = .output callId) :
    NormalizerInv (seen ++ [entry]) (s.handleOutput entry callId) ∧
      (s.handleOutput entry callId).transaction.complete = false := by
  have hskip := hi.skip entry (by simp [InputItem.isKept, hkind])
  unfold ToolTransactionNormalizer.handleOutput
  split
  · exact ⟨hskip, hopen⟩
  · rename_i t hadd
    obtain ⟨htransaction, hdeferred⟩ := hi.transaction.addOutput hkind hadd
    refine NormalizerInv.flushIfComplete ⟨htransaction, hskip.wellFormed, ?_⟩
    rw [hdeferred]
    exact hskip.regulars

theorem NormalizerInv.handleRegularItem {seen : List InputItem} {s : ToolTransactionNormalizer}
    {entry : InputItem} {isEmptyMessage : Bool} (hi : NormalizerInv seen s)
    (hopen : s.transaction.complete = false) (hkind : entry.kind = .regular isEmptyMessage) :
    NormalizerInv (seen ++ [entry]) (s.handleRegularItem entry isEmptyMessage) ∧
      (s.handleRegularItem entry isEmptyMessage).transaction.complete = false := by
  have hsub := List.sublist_append_left seen [entry]
  have hregular : entry.isRegular = true := by simp [InputItem.isRegular, hkind]
  unfold ToolTransactionNormalizer.handleRegularItem
  split
  · rename_i hempty
    exact ⟨hi.skip entry (by simp [InputItem.isKept, hkind, hempty]), hopen⟩
  · rename_i hempty
    have hkept : entry.isKept = true := by simpa [InputItem.isKept, hkind] using hempty
    have hregulars : (s.normalized ++ s.transaction.deferredItems ++ [entry]).filter
        InputItem.isRegular = (seen ++ [entry]).filter InputItem.isKept := by
      rw [List.filter_append, hi.regulars, List.filter_append]
      simp [hregular, hkept]
    split
    · rename_i hbusy
      refine ⟨⟨{ hi.transaction.mono hsub with
          deferred := ?_, idle := fun hidle => absurd hidle hbusy },
        hi.wellFormed.mono hsub, ?_⟩, hopen⟩
      · intro e he
        rcases List.mem_append.mp he with he | he
        · exact hi.transaction.deferred e he
        · exact List.mem_singleton.mp he ▸ hregular
      · rw [← List.append_assoc]
        exact hregulars
    · rename_i hidle
      have hnone := hi.transaction.idle (Decidable.of_not_not hidle)
      refine ⟨⟨hi.transaction.mono hsub, (hi.wellFormed.mono hsub).append
        (isWellFormed_regulars _ (by simpa using hregular)), ?_⟩, hopen⟩
      rw [hnone, List.append_nil] at hregulars ⊢
      exact hregulars

/-- **Step lemma.**  One case per kind of item. -/
theorem NormalizerInv.handle {seen : List InputItem} {s : ToolTransactionNormalizer}
    (entry : InputItem) (hi : NormalizerInv seen s)
    (hopen : s.transaction.complete = false) :
    NormalizerInv (seen ++ [entry]) (s.handle entry) ∧
      (s.handle entry).transaction.complete = false := by
  unfold ToolTransactionNormalizer.handle
  cases hkind : entry.kind with
  | call callId => exact hi.handleCall hkind
  | output callId => exact hi.handleOutput hopen hkind
  | regular isEmptyMessage => exact hi.handleRegularItem hopen hkind

/-- **Run lemma.**  The invariant holds after any items. -/
theorem NormalizerInv.foldl {seen : List InputItem} {s : ToolTransactionNormalizer}
    (items : List InputItem) (hi : NormalizerInv seen s)
    (hopen : s.transaction.complete = false) :
    NormalizerInv (seen ++ items) (items.foldl ToolTransactionNormalizer.handle s) ∧
      (items.foldl ToolTransactionNormalizer.handle s).transaction.complete = false := by
  induction items generalizing seen s with
  | nil => simpa using ⟨hi, hopen⟩
  | cons entry rest ih =>
      obtain ⟨hi', hopen'⟩ := hi.handle entry hopen
      have hrest := ih hi' hopen'
      rwa [List.append_assoc] at hrest

theorem normalizerInv_init : NormalizerInv [] {} :=
  ⟨transactionInv_empty [], isWellFormed_nil [], rfl⟩

/-- **Normalized input is well formed and loses no conversation.**  For every
list of items the output is a concatenation of regular items and tool blocks,
and its regular items are exactly those of the input except empty assistant
messages, in their order. -/
theorem normalize_wellFormed (items : List InputItem) :
    IsWellFormed items (normalize items) ∧
      (normalize items).filter InputItem.isRegular = items.filter InputItem.isKept := by
  obtain ⟨hi, hopen⟩ := normalizerInv_init.foldl items rfl
  rw [List.nil_append] at hi
  obtain ⟨hdone, -, hnone⟩ := hi.flushIfComplete.1.discardIncompleteTransaction
  refine ⟨hdone.wellFormed, ?_⟩
  rw [← hdone.regulars, hnone, List.append_nil]
  rfl

end Workbench
