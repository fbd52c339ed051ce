import CyberWorkbench.CompactionGroups

/-!
# Compaction and progress

What a compaction should take: of the prefixes that are long enough and that
split no call from an output of its group, the shortest one that brings the
estimate to the target, or the longest one if none does (`IsChosen`).

The candidate loop knows no calls and outputs.  It takes the prefix that is
chosen in the same way among those with an even number of members of every
group (`selectCompactionCandidates_even_chosen`).  An unanswered call makes all
longer prefixes odd, and the two choices differ.
-/

namespace Workbench

open PythonValues

/-! ### Choosing a prefix -/

section Choice

variable (reached good : Nat → Prop)

/-- The choice among the good lengths: the least that reaches the target, or
the greatest if none does. -/
def IsChosen (n : Nat) : Prop :=
  good n ∧
    ((reached n ∧ ∀ k, good k → reached k → n ≤ k) ∨
      ((∀ k, good k → ¬ reached k) ∧ ∀ k, good k → k ≤ n))

variable {reached good}

theorem IsChosen.unique {n n' : Nat} (h : IsChosen reached good n) (h' : IsChosen reached good n') :
    n = n' := by
  rcases h with ⟨hgood, ⟨hreached, hleast⟩ | ⟨hnone, hgreatest⟩⟩
  · rcases h' with ⟨hgood', ⟨hreached', hleast'⟩ | ⟨hnone', -⟩⟩
    · exact Nat.le_antisymm (hleast n' hgood' hreached') (hleast' n hgood hreached)
    · exact absurd hreached (hnone' n hgood)
  · rcases h' with ⟨hgood', ⟨hreached', -⟩ | ⟨-, hgreatest'⟩⟩
    · exact absurd hreached' (hnone n' hgood')
    · exact Nat.le_antisymm (hgreatest' n hgood) (hgreatest n' hgood')

/-- Among finitely many good lengths one is chosen. -/
theorem exists_isChosen {bound : Nat} (hbound : ∀ n, good n → n ≤ bound) (h : ∃ n, good n) :
    ∃ n, IsChosen reached good n := by
  classical
  by_cases hreached : ∃ n, good n ∧ reached n
  · exact ⟨Nat.find hreached, (Nat.find_spec hreached).1, .inl ⟨(Nat.find_spec hreached).2,
      fun k hgood hk => Nat.find_min' hreached ⟨hgood, hk⟩⟩⟩
  · obtain ⟨n, hn⟩ := h
    refine ⟨Nat.findGreatest good bound, Nat.findGreatest_spec (hbound n hn) hn, .inr ⟨?_, ?_⟩⟩
    · exact fun k hgood hk => hreached ⟨k, hgood, hk⟩
    · exact fun k hgood => Nat.le_findGreatest (hbound k hgood) hgood

/-- A length is chosen if it is good and none that is good comes before it. -/
theorem isChosen_iff_first {n : Nat} : IsChosen reached good n ↔
    good n ∧ ∀ k, good k → (reached k → reached n ∧ n ≤ k) ∧ (¬ reached n → k ≤ n) := by
  constructor
  · rintro ⟨hgood, ⟨hreached, hleast⟩ | ⟨hnone, hgreatest⟩⟩
    · exact ⟨hgood, fun k hk => ⟨fun hk' => ⟨hreached, hleast k hk hk'⟩,
        fun hnot => absurd hreached hnot⟩⟩
    · exact ⟨hgood, fun k hk => ⟨fun hk' => absurd hk' (hnone k hk), fun _ => hgreatest k hk⟩⟩
  · rintro ⟨hgood, hfirst⟩
    refine ⟨hgood, ?_⟩
    by_cases hreached : reached n
    · exact .inl ⟨hreached, fun k hk hk' => ((hfirst k hk).1 hk').2⟩
    · exact .inr ⟨fun k hk hk' => hreached ((hfirst k hk).1 hk').1, fun k hk => (hfirst k hk).2 hreached⟩

end Choice

/-! ### The prefixes of the compactable region -/

/-- A call, or the output of one. -/
def ProjectedItem.isCall (item : ProjectedItem) : Bool :=
  (Dict.get item.item "type").isText "function_call"

def ProjectedItem.isOutput (item : ProjectedItem) : Bool :=
  (Dict.get item.item "type").isText "function_call_output"

/-- A call and an output of one group. -/
def ProjectedItem.Paired (a b : ProjectedItem) : Prop :=
  a.atomicGroup ≠ "" ∧ a.atomicGroup = b.atomicGroup ∧
    ((a.isCall = true ∧ b.isOutput = true) ∨ (a.isOutput = true ∧ b.isCall = true))

instance (a b : ProjectedItem) : Decidable (a.Paired b) := inferInstanceAs (Decidable (_ ∧ _))

section Prefixes

variable (cfg : CompressionConfig) (projectedItems : List ProjectedItem)
  (targetTokens projectedTokens : Int)

/-- The number of items before the preserved tail. -/
def compactCount : Nat :=
  projectedItems.length -
    preservedCount cfg (cfg.preserveRecentRatio targetTokens) projectedItems.reverse 0 0

/-- The compactable region: the items before the preserved tail that stand for
stored messages. -/
def compactableRegion : List ProjectedItem :=
  sourced (projectedItems.take (compactCount cfg projectedItems targetTokens))

/-- What stays beside a prefix of the region. -/
def keptBeside (n : Nat) : List ProjectedItem :=
  (projectedItems.take (compactCount cfg projectedItems targetTokens)).filter
      (fun item => decide (item.sourceMessageIds = [])) ++
    (compactableRegion cfg projectedItems targetTokens).drop n ++
    projectedItems.drop (compactCount cfg projectedItems targetTokens)

/-- A prefix separates a call from an output of the same group. -/
def Separates (n : Nat) : Prop :=
  ∃ a ∈ (compactableRegion cfg projectedItems targetTokens).take n,
    ∃ b ∈ keptBeside cfg projectedItems targetTokens n, a.Paired b

instance (n : Nat) : Decidable (Separates cfg projectedItems targetTokens n) := by
  unfold Separates
  infer_instance

/-- The lengths of the prefixes that are long enough. -/
def LongEnough (n : Nat) : Prop :=
  n ≤ (compactableRegion cfg projectedItems targetTokens).length ∧ 1 ≤ n ∧ cfg.minItems ≤ n

/-- Removing the prefix brings the estimate to the target. -/
def ReachesTarget (n : Nat) : Prop :=
  projectedTokens -
      (((compactableRegion cfg projectedItems targetTokens).take n).map
        ProjectedItem.tokenEstimate).sum + cfg.summaryMaxTokens ≤ targetTokens

/-- A prefix that may be compacted. -/
def Compactable (n : Nat) : Prop :=
  LongEnough cfg projectedItems targetTokens n ∧ ¬ Separates cfg projectedItems targetTokens n

/-- A prefix has an even number of members of every group. -/
def EvenGroups (n : Nat) : Prop :=
  LongEnough cfg projectedItems targetTokens n ∧
    ∀ group, group ≠ "" →
      groupCount group ((compactableRegion cfg projectedItems targetTokens).take n) % 2 = 0

/-- **Progress.**  If a prefix may be compacted, the one that is chosen among
them is taken. -/
def MakesProgress : Prop :=
  (∃ n, Compactable cfg projectedItems targetTokens n) →
    ∃ n, IsChosen (ReachesTarget cfg projectedItems targetTokens projectedTokens)
        (Compactable cfg projectedItems targetTokens) n ∧
      selectCompactionCandidates cfg projectedItems targetTokens projectedTokens =
        (compactableRegion cfg projectedItems targetTokens).take n

/-- The prefix that should be taken has an even number of members of every
group, and no prefix that would be preferred to it has. -/
def ChosenIsEven : Prop :=
  ∀ n, IsChosen (ReachesTarget cfg projectedItems targetTokens projectedTokens)
      (Compactable cfg projectedItems targetTokens) n →
    EvenGroups cfg projectedItems targetTokens n ∧
    ∀ k, EvenGroups cfg projectedItems targetTokens k →
      (ReachesTarget cfg projectedItems targetTokens projectedTokens k →
        ReachesTarget cfg projectedItems targetTokens projectedTokens n ∧ n ≤ k) ∧
      (¬ ReachesTarget cfg projectedItems targetTokens projectedTokens n → k ≤ n)

end Prefixes

/-! ### What the loop chooses -/

section Loop

variable {cfg : CompressionConfig} {region : List ProjectedItem} {reached : Int → Bool}

/-- A prefix that is long enough, with an even number of members of every
group. -/
def EvenPrefix (cfg : CompressionConfig) (region : List ProjectedItem) (n : Nat) : Prop :=
  (n ≤ region.length ∧ 1 ≤ n ∧ cfg.minItems ≤ n) ∧
    ∀ group, group ≠ "" → groupCount group (region.take n) % 2 = 0

/-- The test of the early return, for a prefix. -/
def ReachedBy (reached : Int → Bool) (region : List ProjectedItem) (n : Nat) : Prop :=
  reached ((region.take n).map ProjectedItem.tokenEstimate).sum = true

/-- What the loop knows of the prefixes up to the candidates: the greatest even
one, and that none of them reaches the target. -/
structure CandidateState.Tracks (cfg : CompressionConfig) (region : List ProjectedItem)
    (reached : Int → Bool) (s : CandidateState) : Prop where
  scanned : s.Scanned
  named : "" ∉ s.openAtomicGroups
  front : s.candidates <+: region
  removed : s.removedTokens = (s.candidates.map ProjectedItem.tokenEstimate).sum
  completeEven : s.complete = 0 ∨ EvenPrefix cfg region s.complete
  completeLast : ∀ k, EvenPrefix cfg region k → k ≤ s.candidates.length → k ≤ s.complete
  unreached : ∀ k, EvenPrefix cfg region k → k ≤ s.candidates.length →
    ¬ ReachedBy reached region k

theorem CandidateState.tracks_empty : ({} : CandidateState).Tracks cfg region reached where
  scanned := CandidateState.scanned_empty
  named := List.not_mem_nil
  front := List.nil_prefix
  removed := rfl
  completeEven := .inl rfl
  completeLast k hk hle := hle
  unreached k hk hle := absurd hk.1.2.1 (by simp at hle; omega)

/-- The candidates are an even prefix exactly if no group is open and they are
long enough. -/
theorem CandidateState.Scanned.evenPrefix_iff (cfg : CompressionConfig) {s : CandidateState}
    (h : s.Scanned)
    (hnamed : "" ∉ s.openAtomicGroups) (hfront : s.candidates <+: region)
    (hpos : 1 ≤ s.candidates.length) :
    EvenPrefix cfg region s.candidates.length ↔
      s.openAtomicGroups = [] ∧ cfg.minItems ≤ s.candidates.length := by
  have htake : region.take s.candidates.length = s.candidates :=
    (List.prefix_iff_eq_take.mp hfront).symm
  unfold EvenPrefix
  rw [htake]
  constructor
  · rintro ⟨⟨-, -, hmin⟩, heven⟩
    refine ⟨List.eq_nil_iff_forall_not_mem.mpr fun group hmem => ?_, hmin⟩
    have hgroup : group ≠ "" := fun heq => hnamed (heq ▸ hmem)
    have hodd := (h.opened group hgroup).mp hmem
    have := heven group hgroup
    omega
  · rintro ⟨hopen, hmin⟩
    exact ⟨⟨hfront.length_le, hpos, hmin⟩, fun group hgroup => h.even hopen hgroup⟩

/-- A group that is opened has a name. -/
theorem CandidateState.add_named (cfg : CompressionConfig) {s : CandidateState}
    (h : "" ∉ s.openAtomicGroups) (item : ProjectedItem) : "" ∉ (s.add cfg item).openAtomicGroups := by
  unfold CandidateState.add
  simp only
  split
  · exact h
  · rename_i hgroup
    split
    · exact fun hmem => h (List.mem_filter.mp hmem).1
    · intro hmem
      rcases List.mem_append.mp hmem with hmem | hmem
      · exact h hmem
      · exact hgroup (List.mem_singleton.mp hmem).symm

/-- **Step.**  One more candidate, where the loop goes on. -/
theorem CandidateState.Tracks.add {s : CandidateState} (h : s.Tracks cfg region reached)
    {item : ProjectedItem} (hfront : s.candidates ++ [item] <+: region)
    (hgoes : ¬ (reached (s.add cfg item).removedTokens = true ∧
      cfg.minItems ≤ (s.add cfg item).candidates.length ∧
      (s.add cfg item).openAtomicGroups = [])) :
    (s.add cfg item).Tracks cfg region reached := by
  have hscanned := h.scanned.add cfg item
  have hnamed := CandidateState.add_named cfg h.named item
  have hcandidates : (s.add cfg item).candidates = s.candidates ++ [item] := rfl
  have hlength : (s.add cfg item).candidates.length = s.candidates.length + 1 := by
    rw [hcandidates, List.length_append]
    rfl
  have hremoved : (s.add cfg item).removedTokens =
      ((s.add cfg item).candidates.map ProjectedItem.tokenEstimate).sum := by
    rw [hcandidates, List.map_append, List.sum_append]
    change s.removedTokens + item.tokenEstimate = _
    rw [h.removed]
    simp
  have htake : region.take (s.add cfg item).candidates.length = (s.add cfg item).candidates :=
    (List.prefix_iff_eq_take.mp hfront).symm
  have hiff := hscanned.evenPrefix_iff cfg hnamed hfront (by rw [hlength]; omega)
  -- an even prefix up to the new candidate ends before it, or is all of them
  have hcases : ∀ k, k ≤ (s.add cfg item).candidates.length → k ≤ s.candidates.length ∨
      k = (s.add cfg item).candidates.length := by
    intro k hle
    omega
  refine ⟨hscanned, hnamed, hfront, hremoved, ?_, ?_, ?_⟩
  · by_cases heven : (s.add cfg item).openAtomicGroups = [] ∧
        cfg.minItems ≤ (s.add cfg item).candidates.length
    · have hcomplete : (s.add cfg item).complete = (s.add cfg item).candidates.length := if_pos heven
      rw [hcomplete]
      exact .inr (hiff.mpr heven)
    · have hcomplete : (s.add cfg item).complete = s.complete := if_neg heven
      rw [hcomplete]
      exact h.completeEven
  · intro k hk hle
    by_cases heven : (s.add cfg item).openAtomicGroups = [] ∧
        cfg.minItems ≤ (s.add cfg item).candidates.length
    · have hcomplete : (s.add cfg item).complete = (s.add cfg item).candidates.length := if_pos heven
      rw [hcomplete]
      exact hle
    · have hcomplete : (s.add cfg item).complete = s.complete := if_neg heven
      rw [hcomplete]
      rcases hcases k hle with hold | rfl
      · exact h.completeLast k hk hold
      · exact absurd (hiff.mp hk) heven
  · intro k hk hle
    rcases hcases k hle with hold | rfl
    · exact h.unreached k hk hold
    · intro hreached
      unfold ReachedBy at hreached
      rw [htake, ← hremoved] at hreached
      obtain ⟨hopen, hmin⟩ := hiff.mp hk
      exact hgoes ⟨hreached, hmin, hopen⟩

/-- **Run.**  If there is an even prefix, the loop takes the one that is chosen
among them. -/
theorem CandidateState.Tracks.loop {s : CandidateState} (h : s.Tracks cfg region reached)
    (items : List ProjectedItem) (hregion : s.candidates ++ sourced items = region)
    (hsome : ∃ k, EvenPrefix cfg region k) :
    ∃ n, IsChosen (ReachedBy reached region) (EvenPrefix cfg region) n ∧
      candidateLoop cfg reached items s = region.take n := by
  induction items generalizing s with
  | nil =>
      obtain ⟨k, hk⟩ := hsome
      have hall : s.candidates = region := by simpa [sourced] using hregion
      have hbound : ∀ k, EvenPrefix cfg region k → k ≤ s.candidates.length := by
        intro k hk
        rw [hall]
        exact hk.1.1
      have hnone : ∀ k, EvenPrefix cfg region k → ¬ ReachedBy reached region k :=
        fun k hk => h.unreached k hk (hbound k hk)
      rw [candidateLoop]
      split
      · refine ⟨s.complete, ⟨?_, .inr ⟨hnone, fun k hk => h.completeLast k hk (hbound k hk)⟩⟩, by
          rw [hall]⟩
        refine h.completeEven.resolve_left fun hzero => ?_
        have hlast := h.completeLast k hk (hbound k hk)
        have hpos := hk.1.2.1
        omega
      · rename_i hopen
        have hpos := hk.1.2.1
        have hmin := hk.1.2.2
        have hle := hbound k hk
        refine ⟨s.candidates.length, ⟨?_, .inr ⟨hnone, hbound⟩⟩, by rw [hall, List.take_length]⟩
        exact (h.scanned.evenPrefix_iff cfg h.named h.front (by omega)).mpr
          ⟨Decidable.not_not.mp hopen, by omega⟩
  | cons item rest ih =>
      rw [candidateLoop]
      split
      · rename_i hnone
        refine ih h ?_
        rw [← hregion, sourced, sourced, List.filter_cons_of_neg (by simpa using hnone)]
      · rename_i hsourced
        have hnext : (s.add cfg item).candidates ++ sourced rest = region := by
          rw [← hregion, sourced, sourced, List.filter_cons_of_pos (by simpa using hsourced)]
          simp [CandidateState.add]
        have hfront : s.candidates ++ [item] <+: region := ⟨sourced rest, hnext⟩
        simp only
        split
        · rename_i hreturns
          have hscanned := h.scanned.add cfg item
          have hnamed := CandidateState.add_named cfg h.named item
          have hlength : (s.add cfg item).candidates.length = s.candidates.length + 1 := by
            simp [CandidateState.add]
          have htake : region.take (s.add cfg item).candidates.length =
              (s.add cfg item).candidates := (List.prefix_iff_eq_take.mp hfront).symm
          have hremoved : (s.add cfg item).removedTokens =
              ((s.add cfg item).candidates.map ProjectedItem.tokenEstimate).sum := by
            simp [CandidateState.add, h.removed]
          refine ⟨(s.add cfg item).candidates.length, ⟨?_, .inl ⟨?_, ?_⟩⟩, htake.symm⟩
          · exact (hscanned.evenPrefix_iff cfg hnamed hfront (by omega)).mpr
              ⟨hreturns.2.2, hreturns.2.1⟩
          · unfold ReachedBy
            rw [htake, ← hremoved]
            exact hreturns.1
          · intro k hk hreached
            have hlater : ¬ k ≤ s.candidates.length := fun hle => h.unreached k hk hle hreached
            omega
        · rename_i hgoes
          exact ih (h.add hfront hgoes) hnext

end Loop

/-! ### When compaction makes progress -/

section Progress

variable (cfg : CompressionConfig) (projectedItems : List ProjectedItem)
  (targetTokens projectedTokens : Int)

/-- **The candidates are the prefix that is chosen among the even ones.** -/
theorem selectCompactionCandidates_even_chosen
    (hsome : ∃ k, EvenGroups cfg projectedItems targetTokens k) :
    ∃ n, IsChosen (ReachesTarget cfg projectedItems targetTokens projectedTokens)
        (EvenGroups cfg projectedItems targetTokens) n ∧
      selectCompactionCandidates cfg projectedItems targetTokens projectedTokens =
        (compactableRegion cfg projectedItems targetTokens).take n := by
  have hcount : compactCount cfg projectedItems targetTokens ≠ 0 := by
    intro hzero
    obtain ⟨k, ⟨hle, hpos, -⟩, -⟩ := hsome
    have hnil : compactableRegion cfg projectedItems targetTokens = [] := by
      unfold compactableRegion
      rw [hzero]
      rfl
    rw [hnil] at hle
    simp at hle
    omega
  have hreached : ∀ n, ReachedBy
      (fun removedTokens => decide (projectedTokens - removedTokens + cfg.summaryMaxTokens ≤ targetTokens))
      (compactableRegion cfg projectedItems targetTokens) n ↔
      ReachesTarget cfg projectedItems targetTokens projectedTokens n := by
    intro n
    unfold ReachedBy ReachesTarget
    exact decide_eq_true_iff
  have htracks : ({} : CandidateState).Tracks cfg (compactableRegion cfg projectedItems targetTokens)
      (fun removedTokens =>
        decide (projectedTokens - removedTokens + cfg.summaryMaxTokens ≤ targetTokens)) :=
    CandidateState.tracks_empty
  obtain ⟨n, hchosen, hloop⟩ := htracks.loop
    (projectedItems.take (compactCount cfg projectedItems targetTokens)) rfl hsome
  refine ⟨n, ?_, ?_⟩
  · rw [show ReachedBy _ _ = ReachesTarget cfg projectedItems targetTokens projectedTokens from
      funext fun n => propext (hreached n)] at hchosen
    exact hchosen
  · rw [← hloop]
    unfold selectCompactionCandidates
    exact if_neg hcount

/-- **Compaction makes progress exactly if the prefix that should be taken has
an even number of members of every group, and none that is preferred to it
has.** -/
theorem makesProgress_iff :
    MakesProgress cfg projectedItems targetTokens projectedTokens ↔
      ChosenIsEven cfg projectedItems targetTokens projectedTokens := by
  constructor
  · intro hprogress n hn
    obtain ⟨n', hn', hselect⟩ := hprogress ⟨n, hn.1⟩
    obtain rfl := hn.unique hn'
    have heven : EvenGroups cfg projectedItems targetTokens n := by
      refine ⟨hn.1.1, fun group hgroup => ?_⟩
      rw [← hselect]
      exact selectCompactionCandidates_even cfg projectedItems targetTokens projectedTokens hgroup
    obtain ⟨n', hchosen, hselect'⟩ := selectCompactionCandidates_even_chosen cfg projectedItems
      targetTokens projectedTokens ⟨n, heven⟩
    have hlength := congrArg List.length (hselect.symm.trans hselect')
    have hle := hn.1.1.1
    have hle' := hchosen.1.1.1
    rw [List.length_take, List.length_take, Nat.min_eq_left hle, Nat.min_eq_left hle'] at hlength
    subst hlength
    exact isChosen_iff_first.mp hchosen
  · intro heven hsome
    obtain ⟨n, hn⟩ : ∃ n, IsChosen (ReachesTarget cfg projectedItems targetTokens projectedTokens)
        (Compactable cfg projectedItems targetTokens) n :=
      exists_isChosen (fun n hn => hn.1.1) hsome
    have hchosen := isChosen_iff_first.mpr (heven n hn)
    obtain ⟨n', hn', hselect⟩ := selectCompactionCandidates_even_chosen cfg projectedItems
      targetTokens projectedTokens ⟨n, hchosen.1⟩
    obtain rfl := hchosen.unique hn'
    exact ⟨n, hn, hselect⟩

end Progress

/-- A call of an interrupted turn, what was said after it, and the last
message. -/
def unansweredCall : List ProjectedItem :=
  [{ item := [("type", .str "function_call"), ("call_id", .str "a")], sourceMessageIds := [1],
     tokenEstimate := 10, atomicGroup := "tool:cso:a" },
    { item := [("type", .str "message")], sourceMessageIds := [2], tokenEstimate := 10 },
    { item := [("type", .str "message")], sourceMessageIds := [3], tokenEstimate := 10 },
    { item := [("type", .str "message")], sourceMessageIds := [4], tokenEstimate := 10 }]

/-- **One unanswered call blocks the compaction of all that follows it.**  The
three items before the last one separate no call from an output, and nothing is
taken. -/
theorem unansweredCall_blocks :
    Compactable pairingConfig unansweredCall 0 3 ∧
      selectCompactionCandidates pairingConfig unansweredCall 0 40 = [] ∧
      ¬ MakesProgress pairingConfig unansweredCall 0 40 := by
  have hcompactable : Compactable pairingConfig unansweredCall 0 3 := by
    refine ⟨⟨?_, ?_, ?_⟩, ?_⟩ <;> decide
  refine ⟨hcompactable, by decide, fun hprogress => ?_⟩
  obtain ⟨n, hn, hselect⟩ := hprogress ⟨3, hcompactable⟩
  have hlength := congrArg List.length hselect
  rw [List.length_take, Nat.min_eq_left hn.1.1.1] at hlength
  have hnone : (selectCompactionCandidates pairingConfig unansweredCall 0 40).length = 0 := by decide
  have hpos := hn.1.1.2.1
  omega

end Workbench
