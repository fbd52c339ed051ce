import CyberWorkbench.ContextCompaction

/-!
# Compaction and tool calls

A tool call and its output carry the same atomic group.  While the candidate loop
runs, the open groups are those that the candidates have an odd number of times,
and it stops only where none is open.  So of a group that occurs twice a
compaction takes both members or neither (`compaction_keeps_pairs`).
-/

namespace Workbench

/-- How many of the items are in a group. -/
def groupCount (group : String) (items : List ProjectedItem) : Nat :=
  items.countP (fun item => decide (item.atomicGroup = group))

theorem groupCount_append (group : String) (left right : List ProjectedItem) :
    groupCount group (left ++ right) = groupCount group left + groupCount group right :=
  List.countP_append

theorem groupCount_singleton (group : String) (item : ProjectedItem) :
    groupCount group [item] = if item.atomicGroup = group then 1 else 0 := by
  by_cases h : item.atomicGroup = group <;> simp [groupCount, h]

/-- What the candidate loop knows: the open groups have one member so far, and
the candidates up to `complete` leave none open. -/
structure CandidateState.Scanned (s : CandidateState) : Prop where
  opened : ∀ group, group ≠ "" →
    (group ∈ s.openAtomicGroups ↔ groupCount group s.candidates % 2 = 1)
  complete_le : s.complete ≤ s.candidates.length
  completed : ∀ group, group ≠ "" → groupCount group (s.candidates.take s.complete) % 2 = 0

theorem CandidateState.scanned_empty : ({} : CandidateState).Scanned where
  opened := by simp [groupCount]
  complete_le := Nat.le_refl _
  completed := by simp [groupCount]

/-- Where no group is open, none has one member. -/
theorem CandidateState.Scanned.even {s : CandidateState} (h : s.Scanned)
    (hopen : s.openAtomicGroups = []) {group : String} (hgroup : group ≠ "") :
    groupCount group s.candidates % 2 = 0 := by
  have hnot : ¬ groupCount group s.candidates % 2 = 1 := by
    rw [← h.opened group hgroup, hopen]
    exact List.not_mem_nil
  omega

/-- The loop notes where no group is open. -/
theorem CandidateState.add_complete (cfg : CompressionConfig) (s : CandidateState)
    (item : ProjectedItem) :
    ((s.add cfg item).openAtomicGroups = [] ∧
        (s.add cfg item).complete = (s.candidates ++ [item]).length) ∨
      (s.add cfg item).complete = s.complete := by
  by_cases hopen : (s.add cfg item).openAtomicGroups = [] ∧
      cfg.minItems ≤ (s.candidates ++ [item]).length
  · exact .inl ⟨hopen.1, if_pos hopen⟩
  · exact .inr (if_neg hopen)

/-- **Step.**  One more candidate. -/
theorem CandidateState.Scanned.add {s : CandidateState} (h : s.Scanned) (cfg : CompressionConfig)
    (item : ProjectedItem) : (s.add cfg item).Scanned := by
  have hopened : ∀ group, group ≠ "" →
      (group ∈ (s.add cfg item).openAtomicGroups ↔
        groupCount group (s.candidates ++ [item]) % 2 = 1) := by
    intro group hgroup
    have hold := h.opened group hgroup
    rw [groupCount_append, groupCount_singleton]
    unfold CandidateState.add
    simp only
    by_cases hempty : item.atomicGroup = ""
    · have hne : item.atomicGroup ≠ group := fun heq => hgroup (heq ▸ hempty)
      rw [if_pos hempty, if_neg hne, Nat.add_zero]
      exact hold
    · rw [if_neg hempty]
      by_cases heq : item.atomicGroup = group
      · subst heq
        rw [if_pos rfl]
        split
        · -- the second member closes the group
          rename_i hmem
          have hodd := hold.mp hmem
          have heven : ¬ (groupCount item.atomicGroup s.candidates + 1) % 2 = 1 := by omega
          simp [heven]
        · rename_i hmem
          have hnot : ¬ groupCount item.atomicGroup s.candidates % 2 = 1 :=
            fun hodd => hmem (hold.mpr hodd)
          have hodd : (groupCount item.atomicGroup s.candidates + 1) % 2 = 1 := by omega
          simp [hodd]
      · rw [if_neg heq, Nat.add_zero]
        split
        · rw [List.mem_filter, decide_eq_true_eq]
          exact ⟨fun hmem => hold.mp hmem.1, fun hodd => ⟨hold.mpr hodd, Ne.symm heq⟩⟩
        · rw [List.mem_append, List.mem_singleton]
          exact ⟨fun hmem => hold.mp (hmem.resolve_right (Ne.symm heq)),
            fun hodd => .inl (hold.mpr hodd)⟩
  rcases s.add_complete cfg item with ⟨hnone, hcomplete⟩ | hcomplete
  · refine ⟨hopened, Nat.le_of_eq hcomplete, fun group hgroup => ?_⟩
    have hnot : ¬ groupCount group (s.candidates ++ [item]) % 2 = 1 := by
      rw [← hopened group hgroup, hnone]
      exact List.not_mem_nil
    rw [hcomplete]
    change groupCount group ((s.candidates ++ [item]).take _) % 2 = 0
    rw [List.take_length]
    omega
  · refine ⟨hopened, ?_, fun group hgroup => ?_⟩
    · have hle := h.complete_le
      rw [hcomplete]
      change s.complete ≤ (s.candidates ++ [item]).length
      rw [List.length_append]
      omega
    · rw [hcomplete]
      change groupCount group ((s.candidates ++ [item]).take s.complete) % 2 = 0
      rw [List.take_append_of_le_length h.complete_le]
      exact h.completed group hgroup

/-- **Run.**  What the loop returns leaves no group open. -/
theorem candidateLoop_even (cfg : CompressionConfig) (reached : Int → Bool)
    (items : List ProjectedItem) {s : CandidateState} (h : s.Scanned) {group : String}
    (hgroup : group ≠ "") : groupCount group (candidateLoop cfg reached items s) % 2 = 0 := by
  induction items generalizing s with
  | nil =>
      rw [candidateLoop]
      split
      · exact h.completed group hgroup
      · rename_i hopen
        exact h.even (Decidable.not_not.mp hopen) hgroup
  | cons item rest ih =>
      rw [candidateLoop]
      split
      · exact ih h
      · simp only
        split
        · rename_i hreached
          exact (h.add cfg item).even hreached.2.2 hgroup
        · exact ih (h.add cfg item)

/-- The items with source ids. -/
def sourced (items : List ProjectedItem) : List ProjectedItem :=
  items.filter (fun item => decide (item.sourceMessageIds ≠ []))

theorem candidateLoop_sourced (cfg : CompressionConfig) (reached : Int → Bool)
    (items : List ProjectedItem) (s : CandidateState) :
    candidateLoop cfg reached items s <+: s.candidates ++ sourced items := by
  induction items generalizing s with
  | nil =>
      rw [candidateLoop, sourced, List.filter_nil, List.append_nil]
      split
      · exact List.take_prefix _ _
      · exact List.prefix_refl _
  | cons item rest ih =>
      rw [candidateLoop, sourced]
      split
      · rename_i hnone
        rw [List.filter_cons_of_neg (by simpa using hnone)]
        exact ih s
      · rename_i hsome
        have hadd : (s.add cfg item).candidates ++ sourced rest =
            s.candidates ++ item :: sourced rest := by
          simp [CandidateState.add]
        rw [List.filter_cons_of_pos (by simpa using hsome)]
        simp only
        change _ <+: s.candidates ++ item :: sourced rest
        rw [← hadd]
        split
        · exact List.prefix_append _ _
        · exact ih _

theorem selectCompactionCandidates_sourced (cfg : CompressionConfig) (items : List ProjectedItem)
    (targetTokens projectedTokens : Int) :
    selectCompactionCandidates cfg items targetTokens projectedTokens <+: sourced items := by
  unfold selectCompactionCandidates
  simp only
  split
  · exact List.nil_prefix
  · refine (candidateLoop_sourced cfg _ _ {}).trans ?_
    exact (List.take_prefix _ items).filter _

theorem selectCompactionCandidates_even (cfg : CompressionConfig) (items : List ProjectedItem)
    (targetTokens projectedTokens : Int) {group : String} (hgroup : group ≠ "") :
    groupCount group (selectCompactionCandidates cfg items targetTokens projectedTokens) % 2 = 0 := by
  unfold selectCompactionCandidates
  simp only
  split
  · rfl
  · exact candidateLoop_even cfg _ _ CandidateState.scanned_empty hgroup

/-- **Compaction never splits a tool call from its output.**  The candidates are
a prefix of the items with source ids, and have both members of a group or
neither. -/
theorem compaction_keeps_pairs (cfg : CompressionConfig) (projectedItems : List ProjectedItem)
    (targetTokens projectedTokens : Int)
    (htwice : ∀ group, group ≠ "" → groupCount group projectedItems ≤ 2) :
    selectCompactionCandidates cfg projectedItems targetTokens projectedTokens <+:
        sourced projectedItems ∧
      ∀ group, group ≠ "" → groupCount group projectedItems = 2 →
        groupCount group
            (selectCompactionCandidates cfg projectedItems targetTokens projectedTokens) = 2 ∨
          groupCount group
            (selectCompactionCandidates cfg projectedItems targetTokens projectedTokens) = 0 := by
  have hfront := selectCompactionCandidates_sourced cfg projectedItems targetTokens projectedTokens
  refine ⟨hfront, fun group hgroup _ => ?_⟩
  have heven := selectCompactionCandidates_even cfg projectedItems targetTokens projectedTokens hgroup
  have hle : groupCount group
      (selectCompactionCandidates cfg projectedItems targetTokens projectedTokens) ≤
        groupCount group projectedItems :=
    (hfront.sublist.trans List.filter_sublist).countP_le
  have hbound := htwice group hgroup
  omega

/-- A call and its output, and the output of a call that is kept. -/
def pairedItems : List ProjectedItem :=
  [{ item := [], sourceMessageIds := [1], tokenEstimate := 10, atomicGroup := "tool:cso:a" },
    { item := [], sourceMessageIds := [2], tokenEstimate := 10, atomicGroup := "tool:cso:a" },
    { item := [], sourceMessageIds := [3], tokenEstimate := 10, atomicGroup := "tool:cso:b" },
    { item := [], sourceMessageIds := [4], tokenEstimate := 10, atomicGroup := "tool:cso:b" }]

/-- One item is preserved at the end. -/
def pairingConfig : CompressionConfig :=
  { triggerRatio := id, hardStopRatio := id, targetRatio := id, preserveRecentRatio := fun _ => 0,
    preserveRecentItems := 1, minItems := 1, summaryMaxTokens := 1 }

/-- The last item is preserved, so its call is not taken. -/
theorem pairedItems_kept :
    selectCompactionCandidates pairingConfig pairedItems 0 40 <+: sourced pairedItems ∧
      (groupCount "tool:cso:b" (selectCompactionCandidates pairingConfig pairedItems 0 40) = 2 ∨
        groupCount "tool:cso:b" (selectCompactionCandidates pairingConfig pairedItems 0 40) = 0) := by
  have hkept := compaction_keeps_pairs pairingConfig pairedItems 0 40 ?_
  · exact ⟨hkept.1, hkept.2 "tool:cso:b" (by decide) (by decide)⟩
  intro group _
  have hcount : groupCount group pairedItems =
      (if "tool:cso:a" = group then 2 else 0) + (if "tool:cso:b" = group then 2 else 0) := by
    by_cases ha : "tool:cso:a" = group <;> by_cases hb : "tool:cso:b" = group <;>
      simp [groupCount, pairedItems, ha, hb]
  rw [hcount]
  split
  · rename_i ha
    rw [if_neg (by rw [← ha]; decide)]
  · split <;> omega

end Workbench
