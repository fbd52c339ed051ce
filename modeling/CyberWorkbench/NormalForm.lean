import CyberWorkbench.ToolTransactions

/-!
# Normalized input is a normal form

What the normalizer writes is a list of kept regular items and of blocks: the
calls of a transaction, then their outputs in the order of the calls
(`IsNormal`).  The scan of a block opens one transaction, answers its calls one
by one and writes the block as it stands, so that the normalizer leaves a list
of that form alone.
-/

namespace Workbench

open PythonValues

/-! ### The form -/

/-- The calls of a transaction and their outputs, in one order. -/
def IsBlock (block : List InputItem) : Prop :=
  ∃ calls outputs : List InputItem, ∃ callIds : List String,
    block = calls ++ outputs ∧ callIds ≠ [] ∧ "" ∉ callIds ∧ callIds.Nodup ∧
      calls.map InputItem.kind = callIds.map ItemKind.call ∧
      outputs.map InputItem.kind = callIds.map ItemKind.output

/-- A concatenation of kept regular items and of blocks. -/
def IsNormal (items : List InputItem) : Prop :=
  ∃ segments : List (List InputItem), items = segments.flatten ∧
    ∀ segment ∈ segments, (∃ e, segment = [e] ∧ e.isKept = true) ∨ IsBlock segment

theorem IsToolBlock.isBlock {input block : List InputItem} (h : IsToolBlock input block) :
    IsBlock block := by
  obtain ⟨calls, outputs, callIds, hblock, hne, hempty, hnodup, hcalls, houtputs, -⟩ := h
  exact ⟨calls, outputs, callIds, hblock, hne, hempty, hnodup, hcalls, houtputs⟩

/-- What the normalizer returns is of the form: its regular items are kept ones
of the input. -/
theorem isNormal_normalize (items : List InputItem) : IsNormal (normalize items) := by
  obtain ⟨hi, hopen⟩ := normalizerInv_init.foldl items rfl
  rw [List.nil_append] at hi
  obtain ⟨hdone, -, hnone⟩ := hi.flushIfComplete.1.discardIncompleteTransaction
  have hregulars := hdone.regulars
  rw [hnone, List.append_nil] at hregulars
  obtain ⟨segments, heq, hsegments⟩ := hdone.wellFormed
  refine ⟨segments, heq, fun segment hmem => ?_⟩
  rcases hsegments segment hmem with ⟨e, rfl, hregular⟩ | hblock
  · refine .inl ⟨e, rfl, ?_⟩
    have hin : e ∈ items.filter InputItem.isKept := by
      rw [← hregulars, heq]
      exact List.mem_filter.mpr
        ⟨List.mem_flatten.mpr ⟨[e], hmem, List.mem_singleton_self e⟩, hregular⟩
    exact (List.mem_filter.mp hin).2
  · exact .inr hblock.isBlock

/-! ### The scan of a block -/

/-- Calls with new ids join the open transaction. -/
theorem foldl_calls {calls : List InputItem} {callIds : List String}
    (hkinds : calls.map InputItem.kind = callIds.map ItemKind.call) (normalized : List InputItem)
    (earlier : List InputItem) (earlierIds : List String) (hempty : "" ∉ callIds)
    (hnodup : (earlierIds ++ callIds).Nodup) :
    calls.foldl ToolTransactionNormalizer.handle
        { normalized := normalized, transaction := { calls := earlier, callIds := earlierIds } } =
      { normalized := normalized
        transaction := { calls := earlier ++ calls, callIds := earlierIds ++ callIds } } := by
  induction callIds generalizing calls earlier earlierIds with
  | nil =>
      obtain rfl := List.map_eq_nil_iff.mp hkinds
      simp
  | cons callId rest ih =>
      cases calls with
      | nil => cases hkinds
      | cons call calls =>
          rw [List.map_cons, List.map_cons, List.cons.injEq] at hkinds
          have hne : callId ≠ "" := fun heq => hempty (heq ▸ List.mem_cons_self)
          have hfresh : callId ∉ earlierIds := by
            intro hmem
            exact (List.nodup_append.mp hnodup).2.2 callId hmem callId List.mem_cons_self rfl
          have hstep : ToolTransactionNormalizer.handle
              { normalized := normalized, transaction := { calls := earlier, callIds := earlierIds } }
              call =
              { normalized := normalized
                transaction := { calls := earlier ++ [call], callIds := earlierIds ++ [callId] } } := by
            have hopen : ({ calls := earlier, callIds := earlierIds } : ToolTransaction).complete =
                false := by
              unfold ToolTransaction.complete ToolTransaction.outputOf
              cases earlierIds with
              | nil => rfl
              | cons first others => simp
            unfold ToolTransactionNormalizer.handle
            rw [hkinds.1]
            simp only [ToolTransactionNormalizer.handleCall,
              ToolTransactionNormalizer.flushIfComplete, hopen, Bool.false_eq_true, if_false]
            have hadd : ({ calls := earlier, callIds := earlierIds } : ToolTransaction).addCall
                call callId =
                some { calls := earlier ++ [call], callIds := earlierIds ++ [callId] } := by
              unfold ToolTransaction.addCall ToolTransaction.outputOf
              simp [hne, hfresh]
            rw [hadd]
          rw [List.foldl_cons, hstep, ih hkinds.2 _ _ (fun hmem => hempty (List.mem_cons_of_mem _ hmem))
            (by simpa using hnodup)]
          simp

/-- With distinct ids each has its own answer. -/
theorem lookup_zip_of_mem {ids : List String} (hnodup : ids.Nodup) {outputs : List InputItem}
    {answer : String × InputItem} (h : answer ∈ ids.zip outputs) :
    (ids.zip outputs).lookup answer.1 = some answer.2 := by
  induction ids generalizing outputs with
  | nil => cases h
  | cons id rest ih =>
      cases outputs with
      | nil => cases h
      | cons output outputs =>
          obtain ⟨hfresh, hrest⟩ := List.nodup_cons.mp hnodup
          rw [List.zip_cons_cons] at h ⊢
          rw [List.lookup_cons]
          rcases List.mem_cons.mp h with rfl | h
          · simp
          · have hne : (answer.1 == id) = false :=
              beq_eq_false_iff_ne.mpr fun heq => hfresh (heq ▸ (List.of_mem_zip h).1)
            rw [hne]
            exact ih hrest h

theorem filterMap_of_zip {ids : List String} {outputs : List InputItem}
    {answer : String → Option InputItem} (hlength : outputs.length = ids.length)
    (h : ∀ p ∈ ids.zip outputs, answer p.1 = some p.2) : ids.filterMap answer = outputs := by
  induction ids generalizing outputs with
  | nil =>
      obtain rfl := List.length_eq_zero_iff.mp hlength
      rfl
  | cons id rest ih =>
      cases outputs with
      | nil => simp at hlength
      | cons output outputs =>
          rw [List.filterMap_cons_some (h (id, output) List.mem_cons_self),
            ih (by simpa using hlength) fun p hp => h p (List.mem_cons_of_mem _ hp)]

/-- An id that is not among the answered ones has no answer. -/
theorem lookup_zip_eq_none {ids : List String} {outputs : List InputItem} {callId : String}
    (h : callId ∉ ids) : (ids.zip outputs).lookup callId = none := by
  rw [List.lookup_eq_none_iff]
  intro entry hmem
  rw [bne_iff_ne]
  rintro rfl
  exact h (List.of_mem_zip hmem).1

/-- A transaction whose first calls are answered. -/
def answering (calls : List InputItem) (callIds answeredIds : List String)
    (answers : List InputItem) : ToolTransaction where
  calls := calls
  callIds := callIds
  outputsByCallId := answeredIds.zip answers

section Answering

variable {calls answers : List InputItem} {answeredIds callIds : List String} {callId : String}

theorem answering_addOutput {output : InputItem} (hmem : callId ∈ callIds)
    (hfresh : callId ∉ answeredIds) (hlength : answers.length = answeredIds.length) :
    (answering calls callIds answeredIds answers).addOutput output callId =
      some (answering calls callIds (answeredIds ++ [callId]) (answers ++ [output])) := by
  unfold ToolTransaction.addOutput ToolTransaction.outputOf answering
  rw [List.zip_append hlength.symm]
  simp [hmem, lookup_zip_eq_none hfresh]

/-- A call is open while it has no answer. -/
theorem answering_open (hmem : callId ∈ callIds) (hfresh : callId ∉ answeredIds) :
    (answering calls callIds answeredIds answers).complete = false := by
  unfold ToolTransaction.complete
  rw [Bool.and_eq_false_iff]
  right
  rw [List.all_eq_false]
  exact ⟨callId, hmem, by simp [ToolTransaction.outputOf, answering, lookup_zip_eq_none hfresh]⟩

/-- All calls are answered: the transaction is the block. -/
theorem answering_flush (normalized : List InputItem) (hne : callIds ≠ []) (hnodup : callIds.Nodup)
    (hlength : answers.length = callIds.length) :
    ToolTransactionNormalizer.flushIfComplete
        { normalized := normalized, transaction := answering calls callIds callIds answers } =
      { normalized := normalized ++ (calls ++ answers) } := by
  have hanswers : callIds.filterMap (answering calls callIds callIds answers).outputOf = answers :=
    filterMap_of_zip hlength fun p hp => lookup_zip_of_mem hnodup hp
  have hcomplete : (answering calls callIds callIds answers).complete = true := by
    unfold ToolTransaction.complete
    rw [Bool.and_eq_true]
    rw [show (answering calls callIds callIds answers).callIds = callIds from rfl]
    refine ⟨by simpa using hne, List.all_eq_true.mpr fun id hid => ?_⟩
    refine Decidable.byContradiction fun hnone => ?_
    -- an answer less than there are calls
    have hshort := List.length_filterMap_lt_length_iff_exists.mpr ⟨id, hid, by simpa using hnone⟩
    rw [hanswers] at hshort
    omega
  unfold ToolTransactionNormalizer.flushIfComplete
  rw [if_pos hcomplete]
  unfold ToolTransaction.orderedItems
  rw [show (answering calls callIds callIds answers).callIds = callIds from rfl, hanswers]
  simp [answering]

end Answering

/-- **The outputs answer the calls one by one, and the last one writes the
block out.** -/
theorem foldl_outputs {outputs : List InputItem} {callIds : List String}
    (hkinds : outputs.map InputItem.kind = callIds.map ItemKind.output) (hne : callIds ≠ [])
    (normalized calls : List InputItem) (answeredIds : List String) (answers : List InputItem)
    (hlength : answers.length = answeredIds.length) (hnodup : (answeredIds ++ callIds).Nodup) :
    outputs.foldl ToolTransactionNormalizer.handle
        { normalized := normalized
          transaction := answering calls (answeredIds ++ callIds) answeredIds answers } =
      { normalized := normalized ++ (calls ++ (answers ++ outputs)) } := by
  induction callIds generalizing outputs answeredIds answers with
  | nil => exact absurd rfl hne
  | cons callId rest ih =>
      cases outputs with
      | nil => cases hkinds
      | cons output outputs =>
          rw [List.map_cons, List.map_cons, List.cons.injEq] at hkinds
          have hfresh : callId ∉ answeredIds := by
            intro hmem
            exact (List.nodup_append.mp hnodup).2.2 callId hmem callId List.mem_cons_self rfl
          have hlength' : (answers ++ [output]).length = (answeredIds ++ [callId]).length := by
            simp [hlength]
          have hassoc : answeredIds ++ callId :: rest = (answeredIds ++ [callId]) ++ rest := by simp
          rw [hassoc] at hnodup
          have hstep : ToolTransactionNormalizer.handle
              { normalized := normalized
                transaction := answering calls (answeredIds ++ callId :: rest) answeredIds answers }
              output =
              ToolTransactionNormalizer.flushIfComplete
                { normalized := normalized
                  transaction := answering calls ((answeredIds ++ [callId]) ++ rest)
                    (answeredIds ++ [callId]) (answers ++ [output]) } := by
            unfold ToolTransactionNormalizer.handle
            rw [hkinds.1]
            simp only [ToolTransactionNormalizer.handleOutput]
            rw [answering_addOutput (by simp) hfresh hlength, hassoc]
          rw [List.foldl_cons, hstep]
          cases rest with
          | nil =>
              obtain rfl : outputs = [] := List.map_eq_nil_iff.mp hkinds.2
              rw [List.append_nil] at hnodup ⊢
              rw [answering_flush normalized (by simp) hnodup hlength']
              rfl
          | cons next rest =>
              have hnext : next ∉ answeredIds ++ [callId] := by
                intro hmem
                exact (List.nodup_append.mp hnodup).2.2 next hmem next List.mem_cons_self rfl
              unfold ToolTransactionNormalizer.flushIfComplete
              rw [if_neg (by rw [answering_open (by simp) hnext]; exact Bool.false_ne_true),
                ih hkinds.2 (List.cons_ne_nil _ _) _ _ hlength' hnodup]
              simp

/-! ### The normal form is left alone -/

/-- A block is written as it stands. -/
theorem IsBlock.foldl {block : List InputItem} (h : IsBlock block) (normalized : List InputItem) :
    block.foldl ToolTransactionNormalizer.handle { normalized := normalized } =
      { normalized := normalized ++ block } := by
  obtain ⟨calls, outputs, callIds, rfl, hne, hempty, hnodup, hcalls, houtputs⟩ := h
  have hscan := foldl_calls hcalls normalized [] [] hempty (by simpa using hnodup)
  rw [List.foldl_append]
  refine (congrArg (outputs.foldl ToolTransactionNormalizer.handle) hscan).trans ?_
  exact foldl_outputs houtputs hne normalized calls [] [] rfl (by simpa using hnodup)

/-- So is a kept regular item. -/
theorem handle_kept {e : InputItem} (h : e.isKept = true) (normalized : List InputItem) :
    ToolTransactionNormalizer.handle { normalized := normalized } e =
      { normalized := normalized ++ [e] } := by
  unfold InputItem.isKept at h
  unfold ToolTransactionNormalizer.handle
  split at h
  · rename_i isEmptyMessage hkind
    have hnot : isEmptyMessage = false := by simpa using h
    simp [hkind, hnot, ToolTransactionNormalizer.handleRegularItem]
  · cases h
  · cases h

theorem foldl_segments {segments : List (List InputItem)}
    (h : ∀ segment ∈ segments, (∃ e, segment = [e] ∧ e.isKept = true) ∨ IsBlock segment)
    (normalized : List InputItem) :
    segments.flatten.foldl ToolTransactionNormalizer.handle { normalized := normalized } =
      { normalized := normalized ++ segments.flatten } := by
  induction segments generalizing normalized with
  | nil => simp
  | cons segment rest ih =>
      have hsegment : segment.foldl ToolTransactionNormalizer.handle { normalized := normalized } =
          { normalized := normalized ++ segment } := by
        rcases h segment List.mem_cons_self with ⟨e, rfl, hkept⟩ | hblock
        · exact handle_kept hkept normalized
        · exact hblock.foldl normalized
      rw [List.flatten_cons, List.foldl_append, hsegment,
        ih (fun other hmem => h other (List.mem_cons_of_mem _ hmem)), List.append_assoc]

theorem IsNormal.normalize_eq {items : List InputItem} (h : IsNormal items) :
    normalize items = items := by
  obtain ⟨segments, rfl, hsegments⟩ := h
  unfold normalize
  rw [foldl_segments hsegments []]
  rfl

/-- **Normalizing twice is normalizing once.** -/
theorem normalize_normalize (items : List InputItem) :
    normalize (normalize items) = normalize items :=
  (isNormal_normalize items).normalize_eq

end Workbench
