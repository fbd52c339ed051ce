import CyberWorkbench.PrunedInput

/-!
# When pruning gives up needlessly

The estimate of a list is the sum of its items' estimates.  Pruning may give up
when the instructions alone use up the budget, or when the notice and the shortest
suffix that separates no call from its output do not fit (`Exhausted`).

It also gives up when the last chunk does not fit beside the summary, which is
dropped only when it leaves nothing at all, or when the last chunk is longer than
that suffix, as behind a call that is never answered.  `gives_up_exactly` is the
exact condition, and `summary_blocks_input` a call that fails for its summary.
-/

namespace Workbench

open PythonValues

/-- The estimate of a list is the sum of its items' estimates. -/
def sumEstimate (itemTokens : InputItem → String → Nat) : TokenEstimator :=
  fun items model => ((items.map (fun item => itemTokens item model)).sum : Nat)

/-! ### The shortest suffix -/

/-- The call at `i` is answered at `j`, by the first output behind it with its id. -/
structure AnsweredAt (items : List InputItem) (i j : Nat) (call output : InputItem) : Prop where
  callAt : items[i]? = some call
  outputAt : items[j]? = some output
  isCall : call.isFunctionCall = true
  isOutput : output.isFunctionCallOutput = true
  callId : call.callId ≠ ""
  sameId : output.callId = call.callId
  later : i < j
  first : ∀ k other, i < k → k < j → items[k]? = some other →
    other.isFunctionCallOutput = true → other.callId ≠ call.callId

/-- A suffix from here separates no call from its output. -/
def KeepsCalls (items : List InputItem) (start : Nat) : Prop :=
  ∀ i j call output, AnsweredAt items i j call output → ¬ (i < start ∧ start ≤ j)

/-- The shortest suffix that ends in the last item and separates no call from its
output. -/
def ShortestSuffix (items suffix : List InputItem) : Prop :=
  ∃ start < items.length, KeepsCalls items start ∧
    (∀ later, start < later → later < items.length → ¬ KeepsCalls items later) ∧
    suffix = items.drop start

theorem keepsCalls_zero (items : List InputItem) : KeepsCalls items 0 := by
  intro i j call output _ h
  exact absurd h.1 (Nat.not_lt_zero i)

theorem exists_shortestSuffix {items : List InputItem} (hne : items ≠ []) :
    ∃ suffix, ShortestSuffix items suffix := by
  classical
  have hpos : 0 < items.length := List.length_pos_iff.mpr hne
  have hbound := Nat.findGreatest_le (P := KeepsCalls items) (items.length - 1)
  have hkeeps : KeepsCalls items (Nat.findGreatest (KeepsCalls items) (items.length - 1)) :=
    Nat.findGreatest_spec (Nat.zero_le _) (keepsCalls_zero items)
  refine ⟨_, _, by omega, hkeeps, fun later hlater hlength => ?_, rfl⟩
  exact Nat.findGreatest_is_greatest hlater (by omega)

theorem ShortestSuffix.unique {items left right : List InputItem} (hl : ShortestSuffix items left)
    (hr : ShortestSuffix items right) : left = right := by
  obtain ⟨i, hi, hkeepsLeft, hgreatestLeft, rfl⟩ := hl
  obtain ⟨j, hj, hkeepsRight, hgreatestRight, rfl⟩ := hr
  rcases Nat.lt_trichotomy i j with hlt | rfl | hgt
  · exact absurd hkeepsRight (hgreatestLeft j hlt hj)
  · rfl
  · exact absurd hkeepsLeft (hgreatestRight i hgt hi)

/-! ### Giving up -/

section Budget

variable (estimate : TokenEstimator) (inputItems : List InputItem) (instructions : Option String)
  (budget : ContextBudget)

/-- `constrain_model_input` raises. -/
def GivesUp : Prop :=
  ∃ message, constrainModelInput estimate inputItems instructions budget = .error message

/-- What the instructions leave. -/
def itemBudgetOf : Int :=
  budget.inputBudgetTokens - estimateInstructionTokens estimate instructions budget.model

/-- The instructions use up the budget, or the notice and the shortest suffix do
not fit in what they leave. -/
def Exhausted : Prop :=
  itemBudgetOf estimate instructions budget ≤ 0 ∨
    ∃ suffix, ShortestSuffix inputItems suffix ∧
      itemBudgetOf estimate instructions budget <
        estimate [budgetNoticeItem] budget.model + estimate suffix budget.model

/-- The notice and the shortest suffix would fit, but what is behind the longest
settled prefix of the items does not fit beside the summary that is kept. -/
structure Needless : Prop where
  overBudget : budget.inputBudgetTokens <
    estimateModelCallTokens estimate inputItems instructions budget.model
  left : 0 < itemBudgetOf estimate instructions budget
  crowded : ∃ settled, LongestSettled (splitContextAnchor inputItems).2 settled ∧
    max 0 (suffixRoom estimate budget.model (splitContextAnchor inputItems).1
        (itemBudgetOf estimate instructions budget)) <
      estimate ((splitContextAnchor inputItems).2.drop settled.length) budget.model
  fits : ∃ suffix, ShortestSuffix inputItems suffix ∧
    estimate [budgetNoticeItem] budget.model + estimate suffix budget.model ≤
      itemBudgetOf estimate instructions budget

end Budget

variable {itemTokens : InputItem → String → Nat} {model : String}

/-! ### Sums -/

theorem sumEstimate_nil : sumEstimate itemTokens [] model = 0 := rfl

theorem sumEstimate_append (left right : List InputItem) :
    sumEstimate itemTokens (left ++ right) model =
      sumEstimate itemTokens left model + sumEstimate itemTokens right model := by
  simp [sumEstimate]

theorem sumEstimate_nonneg (items : List InputItem) : 0 ≤ sumEstimate itemTokens items model :=
  Int.natCast_nonneg _

theorem sumEstimate_sublist {left right : List InputItem} (h : left.Sublist right) :
    sumEstimate itemTokens left model ≤ sumEstimate itemTokens right model :=
  Int.ofNat_le.mpr ((h.map _).sum_le_sum (fun _ _ => Nat.zero_le _))

/-- The chunks' estimates are those of their items. -/
theorem tokensOf_eq {chunks : List InputChunk}
    (h : Estimated (sumEstimate itemTokens) model chunks) :
    tokensOf chunks = sumEstimate itemTokens (itemsOf chunks) model := by
  induction chunks with
  | nil => rfl
  | cons chunk chunks ih =>
      have hchunk := (h chunk List.mem_cons_self).2
      have htokens : chunk.tokenEstimate = sumEstimate itemTokens chunk.items model := by
        rw [hchunk]
        rfl
      have hrest := ih (fun c hc => h c (List.mem_cons_of_mem _ hc))
      have hcons : itemsOf (chunk :: chunks) = chunk.items ++ itemsOf chunks := List.flatMap_cons
      rw [hcons, sumEstimate_append, ← hrest, ← htokens]
      simp [tokensOf]

theorem headTokens_eq (head : List InputItem) :
    headTokens (sumEstimate itemTokens) model head = sumEstimate itemTokens head model := by
  unfold headTokens
  split
  · rename_i hnil
    rw [hnil, sumEstimate_nil]
  · rfl

/-- A candidate takes no more than its parts. -/
theorem candidate_le (head : List InputItem) (omitted kept : List InputChunk) :
    sumEstimate itemTokens (head ++ noticeFor omitted ++ dropOrphanToolItems (itemsOf kept)) model ≤
      headTokens (sumEstimate itemTokens) model head +
        sumEstimate itemTokens [budgetNoticeItem] model +
        sumEstimate itemTokens (itemsOf kept) model := by
  have hnotice : sumEstimate itemTokens (noticeFor omitted) model ≤
      sumEstimate itemTokens [budgetNoticeItem] model := by
    unfold noticeFor
    split
    · exact sumEstimate_nonneg _
    · exact Int.le_refl _
  have hkept : sumEstimate itemTokens (dropOrphanToolItems (itemsOf kept)) model ≤
      sumEstimate itemTokens (itemsOf kept) model := sumEstimate_sublist List.filter_sublist
  rw [sumEstimate_append, sumEstimate_append, headTokens_eq]
  omega

/-! ### The exact condition -/

section Exact

variable {inputItems : List InputItem} {instructions : Option String} {budget : ContextBudget}

/-- Where pruning finds something, so does the call. -/
theorem givesUp_iff {estimate : TokenEstimator} :
    GivesUp estimate inputItems instructions budget ↔
      budget.inputBudgetTokens <
          estimateModelCallTokens estimate inputItems instructions budget.model ∧
        (itemBudgetOf estimate instructions budget ≤ 0 ∨
          ∃ message, pruneItemsToBudget estimate inputItems
            (itemBudgetOf estimate instructions budget) budget.model = .error message) := by
  unfold GivesUp constrainModelInput
  by_cases hfits : estimateModelCallTokens estimate inputItems instructions budget.model ≤
      budget.inputBudgetTokens
  · simp [hfits]
  · rw [if_neg hfits]
    simp only [Int.not_le.mp hfits, true_and]
    by_cases hleft : itemBudgetOf estimate instructions budget ≤ 0
    · unfold itemBudgetOf at hleft ⊢
      simp [hleft]
    · unfold itemBudgetOf at hleft ⊢
      rw [if_neg hleft]
      simp only [hleft, false_or]
      cases hprune : pruneItemsToBudget estimate inputItems (budget.inputBudgetTokens -
          estimateInstructionTokens estimate instructions budget.model) budget.model with
      | error message => simp
      | ok result =>
          have hwithin := (pruneItemsToBudget_ok hprune).1
          have hcall : ¬ budget.inputBudgetTokens <
              estimateModelCallTokens estimate result instructions budget.model := by
            unfold estimateModelCallTokens
            omega
          simp [hcall]

/-- Nothing behind the summary: there is always something to return. -/
theorem prune_of_no_tail {itemBudget : Int} (htail : (splitContextAnchor inputItems).2 = [])
    (hleft : 0 < itemBudget) :
    ∃ result, pruneItemsToBudget (sumEstimate itemTokens) inputItems itemBudget model =
      .ok result := by
  have hchunks : buildChunks (sumEstimate itemTokens) (splitContextAnchor inputItems).2 model =
      [] := by
    rw [htail]
    rfl
  obtain ⟨omitted, kept, hsplit, hselect, -⟩ := selectRecentChunks_spec
    (buildChunks (sumEstimate itemTokens) (splitContextAnchor inputItems).2 model)
    (Int.le_max_left 0 (suffixRoom (sumEstimate itemTokens) model
      (splitContextAnchor inputItems).1 itemBudget))
  obtain ⟨head, -, -, heq⟩ := pruneItemsToBudget_eq (anchored_split inputItems) hselect
  rw [hchunks] at hsplit
  obtain ⟨rfl, rfl⟩ := List.append_eq_nil_iff.mp hsplit.symm
  rw [heq, if_neg (fun h => h.2 hchunks)]
  split
  · exact ⟨_, rfl⟩
  · rename_i hhead
    have hempty : sumEstimate itemTokens
        (noticeFor [] ++ dropOrphanToolItems (itemsOf [])) model ≤ itemBudget := Int.le_of_lt hleft
    have hne : head ≠ [] := by
      rintro rfl
      exact hhead hempty
    rw [if_pos ⟨hne, hempty⟩]
    exact ⟨_, rfl⟩

/-- The last chunk fits: so does the candidate. -/
theorem prune_of_last_fits {itemBudget : Int} {settled : List InputItem}
    (hsettled : LongestSettled (splitContextAnchor inputItems).2 settled)
    (hlast : sumEstimate itemTokens ((splitContextAnchor inputItems).2.drop settled.length) model ≤
      max 0 (suffixRoom (sumEstimate itemTokens) model (splitContextAnchor inputItems).1 itemBudget))
    (hnotice : sumEstimate itemTokens [budgetNoticeItem] model ≤ itemBudget) :
    ∃ result, pruneItemsToBudget (sumEstimate itemTokens) inputItems itemBudget model =
      .ok result := by
  have hroom : 0 ≤ suffixRoom (sumEstimate itemTokens) model (splitContextAnchor inputItems).1
      itemBudget := by
    unfold suffixRoom
    simp only
    split
    · omega
    · rename_i hkeep
      by_cases hanchor : (splitContextAnchor inputItems).1 = []
      · rw [hanchor, headTokens_eq, sumEstimate_nil]
        omega
      · have hpos : ¬ itemBudget - headTokens (sumEstimate itemTokens) model
            (splitContextAnchor inputItems).1 - sumEstimate itemTokens [budgetNoticeItem] model ≤ 0 :=
          fun hle => hkeep ⟨hle, hanchor⟩
        omega
  have htail : (splitContextAnchor inputItems).2 ≠ [] := by
    intro hnil
    have hlt := hsettled.shorter
    rw [hnil] at hlt
    exact absurd hlt (Nat.not_lt_zero _)
  obtain ⟨before, longest, hlongest, -, hbuild⟩ := buildChunks_last
    (sumEstimate itemTokens) model htail
  obtain rfl := hsettled.unique hlongest
  obtain ⟨omitted, kept, hsplit, hselect, hfits⟩ := selectRecentChunks_spec
    (buildChunks (sumEstimate itemTokens) (splitContextAnchor inputItems).2 model)
    (Int.le_max_left 0 (suffixRoom (sumEstimate itemTokens) model
      (splitContextAnchor inputItems).1 itemBudget))
  have hestimated : Estimated (sumEstimate itemTokens) model kept := by
    intro chunk hmem
    refine estimated_buildChunks _ _ (splitContextAnchor inputItems).2 chunk ?_
    rw [hsplit]
    exact List.mem_append_right _ hmem
  have hsome : itemsOf kept ≠ [] := by
    intro hnil
    have hdrop : (chunkOf (sumEstimate itemTokens) model
        ((splitContextAnchor inputItems).2.drop settled.length)).items ≠ [] := by
      have hlt := hsettled.shorter
      simpa [chunkOf] using hlt
    have hselected := congrArg Prod.fst hselect
    rw [hbuild] at hselected
    have hcrowded := (selectRecentChunks_nil hdrop _).mp (hselected.trans hnil)
    exact absurd hlast (Int.not_le.mpr hcrowded)
  obtain ⟨head, -, hhead, heq⟩ := pruneItemsToBudget_eq (anchored_split inputItems) hselect
  have hle := @candidate_le itemTokens model head omitted kept
  rw [tokensOf_eq hestimated] at hfits
  rw [heq, if_neg (fun h => hsome h.1), if_pos (by omega)]
  exact ⟨_, rfl⟩

/-- The last chunk does not fit: pruning gives up. -/
theorem prune_of_crowded {estimate : TokenEstimator} {itemBudget : Int} {settled : List InputItem}
    (hsettled : LongestSettled (splitContextAnchor inputItems).2 settled)
    (hlast : max 0 (suffixRoom estimate model (splitContextAnchor inputItems).1 itemBudget) <
      estimate ((splitContextAnchor inputItems).2.drop settled.length) model) :
    ∃ message, pruneItemsToBudget estimate inputItems itemBudget model = .error message := by
  have htail : (splitContextAnchor inputItems).2 ≠ [] := by
    intro hnil
    have hlt := hsettled.shorter
    rw [hnil] at hlt
    exact absurd hlt (Nat.not_lt_zero _)
  obtain ⟨before, longest, hlongest, -, hbuild⟩ := buildChunks_last estimate model
    htail
  obtain rfl := hsettled.unique hlongest
  obtain ⟨omitted, kept, -, hselect, -⟩ := selectRecentChunks_spec
    (buildChunks estimate (splitContextAnchor inputItems).2 model)
    (Int.le_max_left 0 (suffixRoom estimate model (splitContextAnchor inputItems).1 itemBudget))
  have hdrop : (chunkOf estimate model
      ((splitContextAnchor inputItems).2.drop settled.length)).items ≠ [] := by
    have hlt := hsettled.shorter
    simpa [chunkOf] using hlt
  have hnone : itemsOf kept = [] := by
    have hselected := congrArg Prod.fst hselect
    rw [hbuild, (selectRecentChunks_nil hdrop _).mpr hlast] at hselected
    exact hselected.symm
  obtain ⟨head, -, -, heq⟩ := pruneItemsToBudget_eq (anchored_split inputItems) hselect
  rw [heq, if_pos ⟨hnone, by rw [hbuild]; simp⟩]
  exact ⟨_, rfl⟩

end Exact

/-- **Giving up.**  A call fails only when its input is exhausted, except where
the last chunk does not fit beside the summary although the shortest suffix
would without it. -/
theorem gives_up_exactly (itemTokens : InputItem → String → Nat) (inputItems : List InputItem)
    (instructions : Option String) (budget : ContextBudget) :
    (GivesUp (sumEstimate itemTokens) inputItems instructions budget →
        Exhausted (sumEstimate itemTokens) inputItems instructions budget) ↔
      ¬ Needless (sumEstimate itemTokens) inputItems instructions budget := by
  constructor
  · intro h hneedless
    obtain ⟨settled, hsettled, hcrowded⟩ := hneedless.crowded
    have hgives := givesUp_iff.mpr ⟨hneedless.overBudget, .inr (prune_of_crowded hsettled hcrowded)⟩
    have hleft := hneedless.left
    obtain ⟨suffix, hshortest, hfits⟩ := hneedless.fits
    rcases h hgives with hused | ⟨other, hother, hover⟩
    · omega
    · rw [hother.unique hshortest] at hover
      omega
  · intro hnot hgives
    obtain ⟨hover, hcause⟩ := givesUp_iff.mp hgives
    by_cases hleft : itemBudgetOf (sumEstimate itemTokens) instructions budget ≤ 0
    · exact .inl hleft
    · obtain ⟨message, hprune⟩ := hcause.resolve_left hleft
      have hne : (splitContextAnchor inputItems).2 ≠ [] := by
        intro htail
        obtain ⟨result, hresult⟩ := @prune_of_no_tail itemTokens budget.model
          _ _ htail (Int.not_le.mp hleft)
        rw [hresult] at hprune
        cases hprune
      have hitems : inputItems ≠ [] := by
        rintro rfl
        exact hne rfl
      obtain ⟨suffix, hshortest⟩ := exists_shortestSuffix hitems
      refine .inr ⟨suffix, hshortest, ?_⟩
      by_cases hfits : sumEstimate itemTokens [budgetNoticeItem] budget.model +
          sumEstimate itemTokens suffix budget.model ≤
            itemBudgetOf (sumEstimate itemTokens) instructions budget
      · obtain ⟨-, settled, hsettled, -, -⟩ := buildChunks_last (sumEstimate itemTokens)
          budget.model hne
        have hsuffix := @sumEstimate_nonneg itemTokens budget.model suffix
        by_cases hlast : sumEstimate itemTokens
            ((splitContextAnchor inputItems).2.drop settled.length) budget.model ≤
              max 0 (suffixRoom (sumEstimate itemTokens) budget.model
                (splitContextAnchor inputItems).1
                (itemBudgetOf (sumEstimate itemTokens) instructions budget))
        · obtain ⟨result, hresult⟩ := prune_of_last_fits hsettled hlast (by omega)
          rw [hresult] at hprune
          cases hprune
        · exact absurd ⟨hover, Int.not_le.mp hleft, ⟨settled, hsettled, Int.not_le.mp hlast⟩,
            ⟨suffix, hshortest, hfits⟩⟩ hnot
      · exact Int.not_le.mp hfits

/-! ### A summary in the way -/

/-- A message with an id. -/
def messageItem (id role : String) : InputItem :=
  .dict [("id", .str id), ("type", .str "message"), ("role", .str role)]

/-- A summary, a message and a longer one. -/
def summarizedInput : List InputItem :=
  [messageItem contextSummaryItemId "user", messageItem "earlier" "assistant",
    messageItem "latest" "user"]

/-- The messages take 10, 10 and 28 tokens and the notice 5. -/
def summarizedTokens (item : InputItem) (_ : String) : Nat :=
  match item with
  | .dict fields =>
      if (Dict.get fields "id").isText "latest" then 28
      else if (Dict.get fields "id").isText "" || decide (Dict.get fields "id" = .none) then 5
      else 10
  | _ => 10

/-- **A summary in the way.**  Of 40 tokens the summary and the notice leave 25 for
the last message, and without the summary there would be 35. -/
theorem summary_blocks_input :
    GivesUp (sumEstimate summarizedTokens) summarizedInput none ⟨"gpt-5", 50, 40⟩ ∧
      ¬ Exhausted (sumEstimate summarizedTokens) summarizedInput none ⟨"gpt-5", 50, 40⟩ := by
  refine ⟨⟨_, rfl⟩, ?_⟩
  have hnoCalls : ∀ item ∈ summarizedInput, item.isFunctionCall = false :=
    List.forall_mem_cons.mpr ⟨rfl, List.forall_mem_cons.mpr ⟨rfl, List.forall_mem_singleton.mpr rfl⟩⟩
  have hkeeps : KeepsCalls summarizedInput 2 := by
    intro i j call output hanswered _
    have hcall := hnoCalls call (List.mem_of_getElem? hanswered.callAt)
    rw [hanswered.isCall] at hcall
    cases hcall
  have hshortest : ShortestSuffix summarizedInput [messageItem "latest" "user"] := by
    refine ⟨2, by decide, hkeeps, fun later hlater hlength => ?_, rfl⟩
    change later < 3 at hlength
    omega
  rintro (hused | ⟨suffix, hsuffix, hover⟩)
  · exact absurd hused (by decide)
  · rw [hsuffix.unique hshortest] at hover
    exact absurd hover (by decide)

end Workbench
