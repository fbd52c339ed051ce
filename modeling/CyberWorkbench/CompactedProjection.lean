import CyberWorkbench.ContextCompaction

/-!
# Compaction commutes with projection

The projection is a pass with one block of another agent pending.  `blocks`
is that pass without its cache of group names, from any pending block, and
`projectVisible_eq` says that the source computes it.

The message ids of the projected items, read from left to right, are a
subsequence of those of the stored items.  Where the pass is cut after a
projected item, nothing is pending that the item does not hold; so the last id
of a projected prefix separates what it was made from from the rest, and
`blocks_after_cut` follows: what is stored after that id projects, from
scratch, to what follows the prefix.
-/

namespace Workbench

open PythonValues

/-! ### The pass -/

/-- How a stored item enters the projection. -/
inductive Sight where
  | hidden
  | shown
  | foreign (text : String)
  deriving DecidableEq, Repr

/-- What the viewer sees of a stored item. -/
def sight (view : ProjectionView) (stored : StoredContextItem) : Sight :=
  let owner := stored.ownerCode
  let role := Dict.get stored.item "role"
  let itemType := Dict.get stored.item "type"
  if view.nestedFor ≠ "" then
    if owner = view.viewingAgentCode ∧ stored.nestedFor = view.nestedFor ∧
        stored.nestedCallId = view.nestedCallId then .shown else .hidden
  else if stored.nestedFor ≠ "" then .hidden
  else if role.isText "user" then
    if isInternalContextItem stored.item && decide (owner ≠ view.viewingAgentCode) then .hidden
    else .shown
  else if owner = view.viewingAgentCode then .shown
  else if ownerPrivateTypes.any itemType.isText then .hidden
  else if !(role.isText "assistant") || !(itemType.isText "message") then .hidden
  else if extractMessageText (Dict.get stored.item "content") = "" then .hidden
  else .foreign (extractMessageText (Dict.get stored.item "content"))

/-- The group name of an item; the source looks it up in a cache first. -/
def groupName (stored : StoredContextItem) : String := (toolGroup stored []).1

/-- The projection of an item that is shown by itself. -/
def shownItem (stored : StoredContextItem) : ProjectedItem :=
  { item := stored.item, sourceMessageIds := [stored.messageId],
    atomicGroup := groupName stored }

/-- What is yielded at an item, and what is pending after it. -/
def PendingBlock.next (view : ProjectionView) (p : PendingBlock) (stored : StoredContextItem) :
    List ProjectedItem × PendingBlock :=
  match sight view stored with
  | .hidden => ([], p)
  | .shown => (p.flush view ++ [shownItem stored], {})
  | .foreign text =>
      if p.owner ≠ "" ∧ p.owner ≠ stored.ownerCode then
        (p.flush view, ⟨stored.ownerCode, [text], [stored.messageId]⟩)
      else ([], ⟨stored.ownerCode, p.texts ++ [text], p.ids ++ [stored.messageId]⟩)

/-- The pass from a pending block. -/
def blocks (view : ProjectionView) : PendingBlock → List StoredContextItem → List ProjectedItem
  | p, [] => p.flush view
  | p, stored :: rest => (p.next view stored).1 ++ blocks view (p.next view stored).2 rest

/-- The pending block after some items. -/
def pendingAfter (view : ProjectionView) (p : PendingBlock) (items : List StoredContextItem) :
    PendingBlock :=
  items.foldl (fun p stored => (p.next view stored).2) p

/-- A pending block has an id for each text, and an owner only with texts. -/
structure PendingBlock.Wf (p : PendingBlock) : Prop where
  length : p.ids.length = p.texts.length
  owned : p.texts = [] → p.owner = ""

theorem PendingBlock.wf_empty : ({} : PendingBlock).Wf := ⟨rfl, fun _ => rfl⟩

theorem PendingBlock.Wf.eq_empty {p : PendingBlock} (h : p.Wf) (ht : p.texts = []) : p = {} := by
  have hids : p.ids = [] := List.eq_nil_of_length_eq_zero (by rw [h.length, ht]; rfl)
  have howner := h.owned ht
  cases p
  simp_all

theorem PendingBlock.Wf.next {p : PendingBlock} (h : p.Wf) (view : ProjectionView)
    (stored : StoredContextItem) : (p.next view stored).2.Wf := by
  unfold PendingBlock.next
  split
  · exact h
  · exact PendingBlock.wf_empty
  · split
    · exact ⟨rfl, nofun⟩
    · exact ⟨by simp [h.length], by simp⟩

/-! ### The source computes the pass -/

/-- The cache holds the names it would hand out. -/
def ValidGroups (groups : ToolGroups) : Prop :=
  ∀ owner callId group, groups.lookup (owner, callId) = some group →
    group = "tool:" ++ owner ++ ":" ++ callId

theorem validGroups_nil : ValidGroups [] := nofun

/-- A valid cache is transparent. -/
theorem toolGroup_valid {groups : ToolGroups} (h : ValidGroups groups)
    (stored : StoredContextItem) :
    (toolGroup stored groups).1 = groupName stored ∧ ValidGroups (toolGroup stored groups).2 := by
  unfold groupName toolGroup
  simp only
  split
  · exact ⟨rfl, h⟩
  · split
    · exact ⟨rfl, h⟩
    · cases hlookup : groups.lookup (stored.ownerCode, toolCallId stored.item) with
      | some group => exact ⟨h _ _ _ hlookup, h⟩
      | none =>
          refine ⟨rfl, fun owner callId group hgroup => ?_⟩
          rw [List.lookup_append] at hgroup
          cases hold : groups.lookup (owner, callId) with
          | some group' =>
              rw [hold] at hgroup
              obtain rfl := Option.some.inj hgroup
              exact h owner callId group' hold
          | none =>
              rw [hold] at hgroup
              by_cases hkey : (owner, callId) = (stored.ownerCode, toolCallId stored.item)
              · obtain ⟨rfl, rfl⟩ := Prod.mk.inj hkey
                simpa using hgroup.symm
              · simp [List.lookup_cons, beq_eq_false_iff_ne.mpr hkey] at hgroup

/-- The pass, as far as it got. -/
structure Passes (view : ProjectionView) (s : ProjectionState) (yielded : List ProjectedItem)
    (p : PendingBlock) : Prop where
  projected : s.projected = yielded
  pending : s.pending = p
  wf : p.Wf
  groups : ValidGroups s.ownerToolGroups
  nested : view.nestedFor ≠ "" → p = {}

theorem Passes.yieldPending {view : ProjectionView} {s : ProjectionState}
    {yielded : List ProjectedItem} {p : PendingBlock} (h : Passes view s yielded p) :
    Passes view (s.yieldPending view) (yielded ++ p.flush view) {} := by
  unfold ProjectionState.yieldPending
  obtain ⟨rfl, rfl, hwf, hgroups, -⟩ := h
  split
  · rename_i htexts
    exact ⟨by simp [PendingBlock.flush, htexts], hwf.eq_empty htexts, PendingBlock.wf_empty,
      hgroups, fun _ => rfl⟩
  · exact ⟨rfl, rfl, PendingBlock.wf_empty, hgroups, fun _ => rfl⟩

theorem Passes.yieldItem {view : ProjectionView} {s : ProjectionState}
    {yielded : List ProjectedItem} {p : PendingBlock} (h : Passes view s yielded p)
    (stored : StoredContextItem) :
    Passes view (s.yieldItem stored) (yielded ++ [shownItem stored]) p := by
  obtain ⟨rfl, rfl, hwf, hgroups, hnested⟩ := h
  obtain ⟨hname, hvalid⟩ := toolGroup_valid hgroups stored
  refine ⟨?_, rfl, hwf, hvalid, hnested⟩
  simp [ProjectionState.yieldItem, shownItem, hname]

/-- A message of another agent joins the pending block or starts a new one. -/
theorem Passes.collect {view : ProjectionView} {s : ProjectionState}
    {yielded : List ProjectedItem} {p : PendingBlock} (htop : view.nestedFor = "")
    (h : Passes view s yielded p) (stored : StoredContextItem) {text : String}
    (hsight : sight view stored = .foreign text) :
    Passes view (s.collect view stored text) (yielded ++ (p.next view stored).1)
      (p.next view stored).2 := by
  have hwf := h.wf.next view stored
  unfold ProjectionState.collect
  simp only [PendingBlock.next, hsight] at hwf ⊢
  rw [h.pending]
  split
  · rename_i hother
    rw [if_pos hother] at hwf
    obtain ⟨hprojected, hpending, -, hgroups, -⟩ := h.yieldPending
    exact ⟨hprojected, by rw [hpending]; rfl, hwf, hgroups, fun hnested => absurd htop hnested⟩
  · rename_i hsame
    rw [if_neg hsame] at hwf
    exact ⟨by simp [h.projected], by rw [h.pending], hwf, h.groups,
      fun hnested => absurd htop hnested⟩

/-- **Step lemma** at the top level. -/
theorem Passes.visit {view : ProjectionView} {s : ProjectionState}
    {yielded : List ProjectedItem} {p : PendingBlock} (htop : view.nestedFor = "")
    (h : Passes view s yielded p) (stored : StoredContextItem) :
    Passes view (s.visit view stored) (yielded ++ (p.next view stored).1)
      (p.next view stored).2 := by
  have hhidden : sight view stored = .hidden →
      Passes view s (yielded ++ (p.next view stored).1) (p.next view stored).2 := by
    intro hsight
    simpa [PendingBlock.next, hsight] using h
  have hshown : sight view stored = .shown →
      Passes view ((s.yieldPending view).yieldItem stored) (yielded ++ (p.next view stored).1)
        (p.next view stored).2 := by
    intro hsight
    simpa [PendingBlock.next, hsight] using h.yieldPending.yieldItem stored
  -- The branches of `visit` are those of `sight`.
  unfold ProjectionState.visit
  simp only
  split
  · rename_i hnested
    exact hhidden (by simp only [sight, htop, ne_eq, not_true_eq_false, if_false, if_pos hnested])
  · rename_i hnested
    have hsight := sight.eq_1 view stored
    simp only [htop, ne_eq, not_true_eq_false, if_false, if_neg hnested] at hsight
    split
    · rename_i huser
      rw [if_pos huser] at hsight
      split
      · rename_i hinternal
        exact hhidden (by rw [hsight, if_pos hinternal])
      · rename_i hinternal
        exact hshown (by rw [hsight, if_neg hinternal])
    · rename_i huser
      rw [if_neg huser] at hsight
      split
      · rename_i hown
        exact hshown (by rw [hsight, if_pos hown])
      · rename_i hown
        rw [if_neg hown] at hsight
        split
        · rename_i hprivate
          exact hhidden (by rw [hsight, if_pos hprivate])
        · rename_i hprivate
          rw [if_neg hprivate] at hsight
          split
          · rename_i hother
            exact hhidden (by rw [hsight, if_pos hother])
          · rename_i hother
            rw [if_neg hother] at hsight
            split
            · rename_i hempty
              exact hhidden (by rw [hsight, if_pos hempty])
            · rename_i hempty
              rw [if_neg hempty] at hsight
              exact h.collect htop stored hsight

/-- **Step lemma** inside a nested call. -/
theorem Passes.visitNested {view : ProjectionView} {s : ProjectionState}
    {yielded : List ProjectedItem} {p : PendingBlock} (hnested : view.nestedFor ≠ "")
    (h : Passes view s yielded p) (stored : StoredContextItem) :
    Passes view (s.visitNested view stored) (yielded ++ (p.next view stored).1)
      (p.next view stored).2 := by
  have hp := h.nested hnested
  subst hp
  unfold ProjectionState.visitNested
  split
  · rename_i hmatch
    have hsight : sight view stored = .shown := by
      simp only [sight, if_pos hnested, if_pos hmatch]
    simpa [PendingBlock.next, hsight, PendingBlock.flush] using h.yieldItem stored
  · rename_i hmatch
    have hsight : sight view stored = .hidden := by
      simp only [sight, if_pos hnested, if_neg hmatch]
    simpa [PendingBlock.next, hsight] using h

/-- **Run lemma.** -/
theorem Passes.foldl {view : ProjectionView}
    {step : ProjectionState → StoredContextItem → ProjectionState}
    (hstep : ∀ s yielded p, Passes view s yielded p → ∀ stored,
      Passes view (step s stored) (yielded ++ (p.next view stored).1) (p.next view stored).2)
    {s : ProjectionState} {yielded : List ProjectedItem} {p : PendingBlock}
    (h : Passes view s yielded p) (items : List StoredContextItem) :
    ∃ yielded', Passes view (items.foldl step s) yielded' (pendingAfter view p items) ∧
      yielded' ++ (pendingAfter view p items).flush view = yielded ++ blocks view p items := by
  induction items generalizing s yielded p with
  | nil => exact ⟨yielded, h, rfl⟩
  | cons stored rest ih =>
      obtain ⟨yielded', hpasses, heq⟩ := ih (hstep s yielded p h stored)
      exact ⟨yielded', hpasses, by rw [blocks, ← List.append_assoc]; exact heq⟩

theorem projectLoop_passes (view : ProjectionView) (items : List StoredContextItem) :
    ∃ yielded, Passes view (projectLoop view items) yielded (pendingAfter view {} items) ∧
      yielded ++ (pendingAfter view {} items).flush view = blocks view {} items := by
  have hstart : Passes view {} [] {} :=
    ⟨rfl, rfl, PendingBlock.wf_empty, validGroups_nil, fun _ => rfl⟩
  unfold projectLoop
  split
  · rename_i hnested
    exact hstart.foldl (fun _ _ _ h => h.visitNested hnested) items
  · rename_i htop
    exact hstart.foldl (fun _ _ _ h => h.visit (Decidable.of_not_not htop)) items

/-- **The source computes the pass.** -/
theorem projectVisible_eq (view : ProjectionView) (items : List StoredContextItem) :
    projectVisible view items = blocks view {} items := by
  obtain ⟨yielded, hpasses, heq⟩ := projectLoop_passes view items
  rw [← heq]
  exact hpasses.yieldPending.projected

/-! ### Message ids -/

/-- The message ids that items were made from. -/
def sourceIds (items : List ProjectedItem) : List Int :=
  items.flatMap ProjectedItem.sourceMessageIds

theorem sourceIds_append (a b : List ProjectedItem) :
    sourceIds (a ++ b) = sourceIds a ++ sourceIds b := List.flatMap_append

section Ids

variable (view : ProjectionView) {p : PendingBlock}

theorem PendingBlock.Wf.sourceIds_flush (h : p.Wf) : sourceIds (p.flush view) = p.ids := by
  unfold PendingBlock.flush
  split
  · rename_i htexts
    rw [h.eq_empty htexts]
    rfl
  · simp [sourceIds]

/-- A pending block with texts is flushed as one item. -/
theorem PendingBlock.flush_of_texts (h : p.texts ≠ []) :
    ∃ b, p.flush view = [b] ∧ b.sourceMessageIds = p.ids := by
  simp [PendingBlock.flush, h]

/-- What an item adds, in message ids. -/
theorem PendingBlock.Wf.next_ids (h : p.Wf) (stored : StoredContextItem) :
    (sourceIds (p.next view stored).1 ++ (p.next view stored).2.ids).Sublist
      (p.ids ++ [stored.messageId]) := by
  unfold PendingBlock.next
  split
  · simp [sourceIds]
  · rw [sourceIds_append, h.sourceIds_flush]
    simp [sourceIds, shownItem]
  · split
    · simp only [h.sourceIds_flush]
      exact List.Sublist.refl _
    · simp [sourceIds]

/-- The ids of the projected items are those of stored items, in their order. -/
theorem sourceIds_blocks (h : p.Wf) (items : List StoredContextItem) :
    (sourceIds (blocks view p items)).Sublist
      (p.ids ++ items.map StoredContextItem.messageId) := by
  induction items generalizing p with
  | nil => simp [blocks, h.sourceIds_flush]
  | cons stored rest ih =>
      have hnext := (h.next_ids view stored).append
        (List.Sublist.refl (rest.map StoredContextItem.messageId))
      have hrest := (List.Sublist.refl (sourceIds (p.next view stored).1)).append
        (ih (h.next view stored))
      rw [blocks, sourceIds_append]
      rw [← List.append_assoc] at hrest
      simpa using hrest.trans hnext

theorem flush_ids_ne_nil (h : p.Wf) : ∀ i ∈ p.flush view, i.sourceMessageIds ≠ [] := by
  intro i hi
  unfold PendingBlock.flush at hi
  split at hi
  · cases hi
  · rename_i htexts
    rw [List.mem_singleton.mp hi]
    intro hids
    have hlength := h.length
    rw [show p.ids = [] from hids] at hlength
    exact htexts (List.eq_nil_of_length_eq_zero hlength.symm)

/-- Every projected item was made from some message. -/
theorem blocks_ids_ne_nil (h : p.Wf) (items : List StoredContextItem) :
    ∀ i ∈ blocks view p items, i.sourceMessageIds ≠ [] := by
  induction items generalizing p with
  | nil => exact flush_ids_ne_nil view h
  | cons stored rest ih =>
      intro i hi
      rw [blocks, List.mem_append] at hi
      rcases hi with hi | hi
      · unfold PendingBlock.next at hi
        split at hi
        · cases hi
        · rcases List.mem_append.mp hi with hi | hi
          · exact flush_ids_ne_nil view h i hi
          · rw [List.mem_singleton.mp hi]
            simp [shownItem]
        · split at hi
          · exact flush_ids_ne_nil view h i hi
          · cases hi
      · exact ih (h.next view stored) i hi

/-- The first item holds everything that is pending. -/
theorem blocks_head (htexts : p.texts ≠ []) (items : List StoredContextItem) :
    ∃ b rest, blocks view p items = b :: rest ∧ ∀ id ∈ p.ids, id ∈ b.sourceMessageIds := by
  induction items generalizing p with
  | nil =>
      obtain ⟨b, hb, hids⟩ := PendingBlock.flush_of_texts view htexts
      exact ⟨b, [], hb, fun id hid => hids ▸ hid⟩
  | cons stored rest ih =>
      obtain ⟨b, hb, hids⟩ := PendingBlock.flush_of_texts view htexts
      rw [blocks]
      unfold PendingBlock.next
      split
      · exact ih htexts
      · exact ⟨b, _, by rw [hb]; rfl, fun id hid => hids ▸ hid⟩
      · rename_i text _
        split
        · exact ⟨b, _, by rw [hb]; rfl, fun id hid => hids ▸ hid⟩
        · obtain ⟨b', rest', hblocks, hall⟩ :=
            ih (p := ⟨stored.ownerCode, p.texts ++ [text], p.ids ++ [stored.messageId]⟩) (by simp)
          exact ⟨b', rest', hblocks, fun id hid => hall id (List.mem_append_left _ hid)⟩

end Ids

/-! ### Cutting the pass -/

/-- The stored items after a message id. -/
def storedAfter (last : Int) (items : List StoredContextItem) : List StoredContextItem :=
  items.filter (fun stored => decide (last < stored.messageId))

theorem storedAfter_of_lt {last : Int} {items : List StoredContextItem}
    (h : ∀ stored ∈ items, last < stored.messageId) : storedAfter last items = items :=
  List.filter_eq_self.mpr (fun stored hs => decide_eq_true (h stored hs))

/-- The greatest message id of some items. -/
def IsLastId (last : Int) (items : List ProjectedItem) : Prop :=
  last ∈ sourceIds items ∧ ∀ id ∈ sourceIds items, id ≤ last

section Cut

variable {view : ProjectionView} {p : PendingBlock} {stored : StoredContextItem}
  {items : List StoredContextItem}

theorem length_flush_le (view : ProjectionView) (p : PendingBlock) : (p.flush view).length ≤ 1 := by
  unfold PendingBlock.flush
  split <;> simp

/-- Nothing earlier than the last nonempty part of some items is last. -/
theorem IsLastId.of_append {last : Int} {front back : List ProjectedItem}
    (h : IsLastId last (front ++ back)) (hback : sourceIds back ≠ [])
    (hbefore : ∀ a ∈ sourceIds front, ∀ b ∈ sourceIds back, a < b) : IsLastId last back := by
  obtain ⟨hmem, hmax⟩ := h
  simp only [sourceIds_append, List.mem_append] at hmem hmax
  refine ⟨?_, fun id hid => hmax id (.inr hid)⟩
  rcases hmem with hmem | hmem
  · obtain ⟨id, hid⟩ := List.exists_mem_of_ne_nil _ hback
    have hlt := hbefore last hmem id hid
    have hle := hmax id (.inr hid)
    omega
  · exact hmem

/-- The step of a pass that goes on beyond what this item yields: either the
item is left behind, or nothing is seen of it. -/
theorem next_passed {last : Int} {done rest : List ProjectedItem}
    (hblocks : blocks view (p.next view stored).2 items = done ++ rest) (hdone : done ≠ [])
    (hmax : ∀ id ∈ sourceIds ((p.next view stored).1 ++ done), id ≤ last) :
    stored.messageId ≤ last ∨ sight view stored = .hidden := by
  rw [sourceIds_append] at hmax
  unfold PendingBlock.next at hblocks hmax
  cases hsight : sight view stored with
  | hidden => exact .inr rfl
  | shown =>
      refine .inl (hmax _ (List.mem_append_left _ ?_))
      simp [hsight, sourceIds, shownItem]
  | foreign text =>
      -- The item is pending, and so in the first block that follows.
      have hpending : ∀ q : PendingBlock, q.texts ≠ [] → stored.messageId ∈ q.ids →
          blocks view q items = done ++ rest → stored.messageId ∈ sourceIds done := by
        intro q htexts hid hq
        obtain ⟨b, rest', hhead, hall⟩ := blocks_head view htexts items
        cases done with
        | nil => exact absurd rfl hdone
        | cons d done =>
            rw [hq, List.cons_append] at hhead
            obtain ⟨rfl, -⟩ := List.cons.inj hhead
            exact List.mem_flatMap.mpr ⟨d, List.mem_cons_self, hall _ hid⟩
      simp only [hsight] at hblocks hmax
      refine .inl (hmax _ (List.mem_append_right _ ?_))
      split at hblocks
      · exact hpending _ (by simp) (by simp) hblocks
      · exact hpending _ (by simp) (by simp) hblocks

/-- An item that is not seen may be read again. -/
theorem blocks_hidden (h : sight view stored = .hidden) (q : PendingBlock)
    (items : List StoredContextItem) :
    blocks view q (stored :: items) = blocks view q items ∧
      pendingAfter view q (stored :: items) = pendingAfter view q items := by
  simp [blocks, pendingAfter, PendingBlock.next, h]

/-- A cut among what one item yields: the block that was pending before it is
done, or the item is as well. -/
theorem next_cut (hwf : p.Wf) (items : List StoredContextItem) {done rest : List ProjectedItem}
    (hsplit : (p.next view stored).1 = done ++ rest) (hdone : done ≠ []) :
    (sourceIds done = p.ids ∧ rest ++ blocks view (p.next view stored).2 items =
        blocks view {} (stored :: items) ∧
      pendingAfter view {} (stored :: items) = pendingAfter view p (stored :: items)) ∨
    (sourceIds done = p.ids ++ [stored.messageId] ∧ rest = [] ∧
      (p.next view stored).2 = {}) := by
  have hflush := hwf.sourceIds_flush view
  have hlength := length_flush_le view p
  have hpos := List.length_pos_iff.mpr hdone
  unfold PendingBlock.next at hsplit ⊢
  cases hsight : sight view stored with
  | hidden =>
      simp only [hsight] at hsplit
      exact absurd (List.append_eq_nil_iff.mp hsplit.symm).1 hdone
  | shown =>
      simp only [hsight] at hsplit ⊢
      by_cases hrest : rest = []
      · subst hrest
        rw [List.append_nil] at hsplit
        refine .inr ⟨?_, rfl, trivial⟩
        rw [← hsplit, sourceIds_append, hflush]
        rfl
      · have hrestPos := List.length_pos_iff.mpr hrest
        have hlengths := congrArg List.length hsplit
        simp only [List.length_append, List.length_singleton] at hlengths
        obtain ⟨rfl, rfl⟩ := List.append_inj hsplit (by omega)
        refine .inl ⟨hflush, ?_, ?_⟩
        · simp [blocks, PendingBlock.next, hsight, PendingBlock.flush]
        · simp [pendingAfter, PendingBlock.next, hsight]
  | foreign text =>
      simp only [hsight] at hsplit ⊢
      split at hsplit
      · rename_i hother
        simp only at hsplit
        have hlengths := congrArg List.length hsplit
        rw [List.length_append] at hlengths
        obtain rfl : rest = [] := List.eq_nil_of_length_eq_zero (by omega)
        rw [List.append_nil] at hsplit
        refine .inl ⟨hsplit ▸ hflush, ?_, ?_⟩
        · rw [if_pos hother]
          simp [blocks, PendingBlock.next, hsight]
        · simp [pendingAfter, PendingBlock.next, hsight, hother]
      · exact absurd (List.append_eq_nil_iff.mp hsplit.symm).1 hdone

/-- **Cut.**  What is stored after the last id of a projected prefix projects,
from scratch, to what follows the prefix, and ends with the same block pending
unless nothing follows. -/
theorem blocks_after_cut (hwf : p.Wf)
    (hsorted : (p.ids ++ items.map StoredContextItem.messageId).Pairwise (· < ·))
    {done rest : List ProjectedItem} (hsplit : blocks view p items = done ++ rest)
    (hdone : done ≠ []) {last : Int} (hlast : IsLastId last done) :
    blocks view {} (storedAfter last items) = rest ∧
      (rest = [] ∨ pendingAfter view {} (storedAfter last items) = pendingAfter view p items) := by
  induction items generalizing p done with
  | nil =>
      have hrest : rest = [] := by
        have hlength := congrArg List.length hsplit
        have hpos := List.length_pos_iff.mpr hdone
        have hle := length_flush_le view p
        simp only [blocks, List.length_append] at hlength
        exact List.eq_nil_of_length_eq_zero (by omega)
      subst hrest
      exact ⟨rfl, .inl rfl⟩
  | cons stored items ih =>
      have hids : (sourceIds (done ++ rest)).Pairwise (· < ·) :=
        hsplit ▸ hsorted.sublist (sourceIds_blocks view hwf (stored :: items))
      obtain ⟨-, hlater, hpast⟩ := List.pairwise_append.mp hsorted
      have hlater : ∀ x ∈ items, stored.messageId < x.messageId :=
        fun x hx => (List.pairwise_cons.mp hlater).1 _ (List.mem_map_of_mem hx)
      have hpast : ∀ id ∈ p.ids, id < stored.messageId :=
        fun id hid => hpast id hid _ List.mem_cons_self
      -- The cut is beyond what this item yields, or within it.
      have hcut : (∃ done', done' ≠ [] ∧ done = (p.next view stored).1 ++ done' ∧
            blocks view (p.next view stored).2 items = done' ++ rest) ∨
          ∃ rest', (p.next view stored).1 = done ++ rest' ∧
            rest = rest' ++ blocks view (p.next view stored).2 items := by
        rcases List.append_eq_append_iff.mp hsplit with ⟨done', hdone', hblocks⟩ | hwithin
        · by_cases hnil : done' = []
          · subst hnil
            exact .inr ⟨[], by simpa using hdone'.symm, by simpa using hblocks.symm⟩
          · exact .inl ⟨done', hnil, hdone', hblocks⟩
        · exact .inr hwithin
      rcases hcut with ⟨done', hdone', rfl, hblocks⟩ | ⟨rest', hyielded, rfl⟩
      · have hwf' := hwf.next view stored
        have hnonempty : sourceIds done' ≠ [] := by
          obtain ⟨i, hi⟩ := List.exists_mem_of_ne_nil _ hdone'
          have hne := blocks_ids_ne_nil view hwf' items i (hblocks ▸ List.mem_append_left _ hi)
          obtain ⟨id, hid⟩ := List.exists_mem_of_ne_nil _ hne
          exact List.ne_nil_of_mem (List.mem_flatMap.mpr ⟨i, hi, hid⟩)
        have hlast' := hlast.of_append hnonempty (by
          rw [sourceIds_append, sourceIds_append] at hids
          exact (List.pairwise_append.mp (List.pairwise_append.mp hids).1).2.2)
        have hsorted' : ((p.next view stored).2.ids ++
            items.map StoredContextItem.messageId).Pairwise (· < ·) := by
          refine hsorted.sublist ?_
          have hnext := (List.sublist_append_right _ _).trans (hwf.next_ids view stored)
          simpa using hnext.append (List.Sublist.refl (items.map StoredContextItem.messageId))
        obtain ⟨hrest, hpending⟩ := ih hwf' hsorted' hblocks hdone' hlast'
        by_cases hkept : last < stored.messageId
        · have hhidden := (next_passed hblocks hdone' hlast.2).resolve_left (by omega)
          have hafter : storedAfter last (stored :: items) = stored :: storedAfter last items := by
            simp [storedAfter, hkept]
          obtain ⟨hsame, hsamePending⟩ := blocks_hidden hhidden {} (storedAfter last items)
          rw [hafter, hsame, hsamePending]
          exact ⟨hrest, hpending⟩
        · have hafter : storedAfter last (stored :: items) = storedAfter last items := by
            simp [storedAfter, hkept]
          rw [hafter]
          exact ⟨hrest, hpending⟩
      · rcases next_cut hwf items hyielded hdone with ⟨hdoneIds, hblocks, hpending⟩ |
          ⟨hdoneIds, rfl, hnone⟩
        · have hlt : last < stored.messageId := hpast last (hdoneIds ▸ hlast.1)
          have hafter : storedAfter last (stored :: items) = stored :: items := by
            refine storedAfter_of_lt (fun x hx => ?_)
            rcases List.mem_cons.mp hx with rfl | hx
            · exact hlt
            · have := hlater x hx
              omega
          rw [hafter]
          exact ⟨hblocks.symm, .inr hpending⟩
        · have heq : last = stored.messageId := by
            have hle := hlast.2 stored.messageId (by rw [hdoneIds]; simp)
            have hmem := hlast.1
            rw [hdoneIds, List.mem_append, List.mem_singleton] at hmem
            rcases hmem with hmem | hmem
            · have := hpast last hmem
              omega
            · exact hmem
          have hafter : storedAfter last (stored :: items) = items := by
            rw [heq]
            have hrest := storedAfter_of_lt hlater
            simpa [storedAfter] using hrest
          rw [hafter, hnone]
          refine ⟨rfl, .inr ?_⟩
          show pendingAfter view {} items = pendingAfter view (p.next view stored).2 items
          rw [hnone]

/-- Where nothing is pending, the pass starts afresh. -/
theorem blocks_append (hwf : p.Wf) (later : List StoredContextItem)
    (h : (pendingAfter view p items).texts = []) :
    blocks view p (items ++ later) = blocks view p items ++ blocks view {} later := by
  induction items generalizing p with
  | nil =>
      obtain rfl := hwf.eq_empty h
      simp [blocks, PendingBlock.flush]
  | cons stored items ih =>
      rw [List.cons_append, blocks, blocks, ih (hwf.next view stored) h, List.append_assoc]

/-- What is pending is projected. -/
theorem pending_of_blocks_nil (h : blocks view p items = []) :
    (pendingAfter view p items).texts = [] := by
  induction items generalizing p with
  | nil =>
      show p.texts = []
      simpa [blocks, PendingBlock.flush] using h
  | cons stored items ih => exact ih (List.append_eq_nil_iff.mp h).2

end Cut

/-! ### The candidates -/

theorem candidateLoop_initial (cfg : CompressionConfig) (reached : Int → Bool)
    {items : List ProjectedItem} (h : ∀ i ∈ items, i.sourceMessageIds ≠ []) (s : CandidateState) :
    candidateLoop cfg reached items s <+: s.candidates ++ items := by
  induction items generalizing s with
  | nil =>
      rw [candidateLoop, List.append_nil]
      split
      · exact List.take_prefix _ _
      · exact List.prefix_refl _
  | cons item rest ih =>
      rw [candidateLoop, if_neg (h item List.mem_cons_self)]
      have hadd : (s.add cfg item).candidates ++ rest = s.candidates ++ item :: rest := by
        simp [CandidateState.add]
      simp only
      split
      · rw [← hadd]
        exact List.prefix_append _ _
      · rw [← hadd]
        exact ih (fun i hi => h i (List.mem_cons_of_mem _ hi)) _

/-- **The candidates are a prefix.** -/
theorem selectCompactionCandidates_initial (cfg : CompressionConfig)
    {items : List ProjectedItem} (h : ∀ i ∈ items, i.sourceMessageIds ≠ [])
    (targetTokens projectedTokens : Int) :
    selectCompactionCandidates cfg items targetTokens projectedTokens <+: items := by
  unfold selectCompactionCandidates
  simp only
  split
  · exact List.nil_prefix
  · exact (candidateLoop_initial cfg _ (fun i hi => h i (List.mem_of_mem_take hi)) {}).trans
      (List.take_prefix _ _)

theorem sourceIds_estimate (encodedLength : Dict → Int) (items : List ProjectedItem) :
    sourceIds (estimateProjectionTokens encodedLength items) = sourceIds items := by
  unfold sourceIds estimateProjectionTokens
  rw [List.flatMap_map]

/-- After a row is stored it is its scope's latest. -/
theorem getLatestCompaction_store (rows : List AgentContextCompaction)
    (row : AgentContextCompaction) :
    getLatestCompaction (storeCompaction rows row) row.scope =
      some { id := row.id, startMessageId := row.startMessageId,
             endMessageId := row.endMessageId, summaryItem := row.summaryItem } := by
  have hrows : (storeCompaction rows row).filter (fun r => decide (r.scope = row.scope)) =
      [row] := by
    have hothers : (rows.filter (fun r => decide (r.scope ≠ row.scope))).filter
        (fun r => decide (r.scope = row.scope)) = [] := by
      rw [List.filter_eq_nil_iff]
      intro r hr
      simpa using (List.mem_filter.mp hr).2
    rw [storeCompaction, List.filter_append, hothers]
    simp
  unfold getLatestCompaction
  rw [hrows]
  rfl

/-! ### Projecting after a compaction -/

/-- What the earlier compaction leaves of the stored items. -/
def visibleStored (stored : List StoredContextItem) (old : Option ProjectionCompaction) :
    List StoredContextItem :=
  filterCompacted stored (old.map ProjectionCompaction.endMessageId)

/-- The projection ends in a block of another agent that may still grow. -/
def EndsGrowing (view : ProjectionView) (stored : List StoredContextItem)
    (old : Option ProjectionCompaction) : Prop :=
  (projectLoop view (visibleStored stored old)).pending.texts ≠ []

/-- An earlier compaction: its ids are in order, and what comes later was
stored after it. -/
def ProjectionCompaction.Precedes (c : ProjectionCompaction) (later : List StoredContextItem) :
    Prop :=
  c.startMessageId ≤ c.endMessageId ∧ ∀ x ∈ later, c.endMessageId < x.messageId

/-- Stored items are in the order of their message ids. -/
def SortedById (stored : List StoredContextItem) : Prop :=
  stored.Pairwise (fun a b => a.messageId < b.messageId)

section Compacted

variable {view : ProjectionView} {stored later : List StoredContextItem}
  {old : Option ProjectionCompaction}

theorem projectLoop_pending (view : ProjectionView) (items : List StoredContextItem) :
    (projectLoop view items).pending = pendingAfter view {} items := by
  obtain ⟨yielded, hpasses, -⟩ := projectLoop_passes view items
  exact hpasses.pending

theorem visibleStored_sublist : (visibleStored stored old).Sublist stored := by
  unfold visibleStored filterCompacted
  split
  · exact List.Sublist.refl _
  · exact List.filter_sublist

/-- The items after the last id of a projected prefix project to the rest of
the projection. -/
theorem rest_after {done rest : List ProjectedItem} (hsorted : SortedById stored)
    (hsplit : projectVisible view (visibleStored stored old) = done ++ rest)
    (hdone : done ≠ []) {last : Int} (hlast : IsLastId last done) :
    projectVisible view (storedAfter last (visibleStored stored old)) = rest ∧
      (rest = [] ∨ pendingAfter view {} (storedAfter last (visibleStored stored old)) =
        pendingAfter view {} (visibleStored stored old)) := by
  rw [projectVisible_eq] at hsplit ⊢
  refine blocks_after_cut PendingBlock.wf_empty ?_ hsplit hdone hlast
  rw [List.nil_append, List.pairwise_map]
  exact hsorted.sublist visibleStored_sublist

/-- Projected items are made from visible ones. -/
theorem mem_sourceIds {items : List StoredContextItem} {id : Int}
    (h : id ∈ sourceIds (projectVisible view items)) : ∃ x ∈ items, x.messageId = id := by
  rw [projectVisible_eq] at h
  have hmem := (sourceIds_blocks view PendingBlock.wf_empty items).mem h
  rw [List.nil_append] at hmem
  exact List.mem_map.mp hmem

theorem sourceIds_ne_nil {items : List StoredContextItem} {done : List ProjectedItem}
    (hsub : done.Sublist (projectVisible view items)) (hdone : done ≠ []) :
    sourceIds done ≠ [] := by
  obtain ⟨i, hi⟩ := List.exists_mem_of_ne_nil _ hdone
  rw [projectVisible_eq] at hsub
  obtain ⟨id, hid⟩ := List.exists_mem_of_ne_nil _
    (blocks_ids_ne_nil view PendingBlock.wf_empty items i (hsub.mem hi))
  exact List.ne_nil_of_mem (List.mem_flatMap.mpr ⟨i, hi, hid⟩)

/-- The last id of a nonempty prefix of a projection separates it from the
rest, from what is pending, and from what comes later. -/
theorem after_cut (hsorted : SortedById (stored ++ later))
    (hold : ∀ c ∈ old, c.Precedes later) {k : Nat}
    (hk : (projectContext stored view old).take k ≠ []) {last : Int}
    (hlast : IsLastId last ((projectContext stored view old).take k)) :
    projectVisible view (storedAfter last stored) = (projectContext stored view old).drop k ∧
      ((projectContext stored view old).drop k = [] ∨
        pendingAfter view {} (storedAfter last stored) =
          pendingAfter view {} (visibleStored stored old)) ∧
      ∀ x ∈ later, last < x.messageId := by
  obtain ⟨hstored, -, hlater⟩ := List.pairwise_append.mp hsorted
  have hbefore : ∀ done : List ProjectedItem,
      done.Sublist (projectVisible view (visibleStored stored old)) → last ∈ sourceIds done →
        ∀ x ∈ later, last < x.messageId := by
    intro done hsub hmem x hx
    have hids : last ∈ sourceIds (projectVisible view (visibleStored stored old)) := by
      obtain ⟨i, hi, hid⟩ := List.mem_flatMap.mp hmem
      exact List.mem_flatMap.mpr ⟨i, hsub.mem hi, hid⟩
    obtain ⟨y, hy, rfl⟩ := mem_sourceIds hids
    exact hlater y (visibleStored_sublist.mem hy) x hx
  cases old with
  | none =>
      have hsub := List.take_sublist k (projectVisible view (visibleStored stored none))
      obtain ⟨hrest, hpending⟩ := rest_after hstored
        (List.take_append_drop k (projectVisible view (visibleStored stored none))).symm hk hlast
      exact ⟨hrest, hpending, hbefore _ hsub hlast.1⟩
  | some c =>
      obtain ⟨horder, hafter⟩ := hold c rfl
      cases k with
      | zero => exact absurd rfl hk
      | succ n =>
          -- The old summary is part of the prefix.
          have htake : (projectContext stored view (some c)).take (n + 1) =
              [c.projected] ++ (projectVisible view (visibleStored stored (some c))).take n := rfl
          have hdrop : (projectContext stored view (some c)).drop (n + 1) =
              (projectVisible view (visibleStored stored (some c))).drop n := rfl
          have hvisible : visibleStored stored (some c) = storedAfter c.endMessageId stored := rfl
          have hsplit := (List.take_append_drop n
            (projectVisible view (visibleStored stored (some c)))).symm
          rw [htake] at hlast
          rw [hdrop]
          by_cases hdone : (projectVisible view (visibleStored stored (some c))).take n = []
          · have hend : last = c.endMessageId := by
              rw [hdone] at hlast
              have hmax := hlast.2 c.endMessageId (by simp [sourceIds,
                ProjectionCompaction.projected])
              have hmem : last = c.startMessageId ∨ last = c.endMessageId := by
                simpa [sourceIds, ProjectionCompaction.projected] using hlast.1
              omega
            rw [hdone, List.nil_append] at hsplit
            rw [hend, ← hvisible, ← hsplit]
            exact ⟨rfl, .inr rfl, hafter⟩
          · have hsub := List.take_sublist n (projectVisible view (visibleStored stored (some c)))
            have hlate : ∀ b ∈ sourceIds
                ((projectVisible view (visibleStored stored (some c))).take n),
                c.endMessageId < b := by
              intro b hb
              obtain ⟨i, hi, hid⟩ := List.mem_flatMap.mp hb
              obtain ⟨x, hx, rfl⟩ := mem_sourceIds (List.mem_flatMap.mpr ⟨i, hsub.mem hi, hid⟩)
              rw [hvisible] at hx
              exact of_decide_eq_true (List.mem_filter.mp hx).2
            have hlast' := hlast.of_append (sourceIds_ne_nil hsub hdone) (by
              intro a ha b hb
              have hb := hlate b hb
              have ha : a = c.startMessageId ∨ a = c.endMessageId := by
                simpa [sourceIds, ProjectionCompaction.projected] using ha
              omega)
            have hfilter : storedAfter last (visibleStored stored (some c)) =
                storedAfter last stored := by
              have hlt := hlate last hlast'.1
              rw [hvisible, storedAfter, storedAfter, List.filter_filter]
              refine List.filter_congr (fun x _ => ?_)
              by_cases hx : last < x.messageId
              · have : c.endMessageId < x.messageId := by omega
                simp [hx, this]
              · simp [hx]
            obtain ⟨hrest, hpending⟩ := rest_after hstored hsplit hdone hlast'
            rw [hfilter] at hrest hpending
            exact ⟨hrest, hpending, hbefore _ hsub hlast'.1⟩

/-- Every item of a projection was made from some message. -/
theorem projectContext_ids_ne_nil (stored : List StoredContextItem) (view : ProjectionView)
    (old : Option ProjectionCompaction) :
    ∀ i ∈ projectContext stored view old, i.sourceMessageIds ≠ [] := by
  intro i hi
  have hvisible : ∀ items, i ∈ projectVisible view items → i.sourceMessageIds ≠ [] := by
    intro items hmem
    rw [projectVisible_eq] at hmem
    exact blocks_ids_ne_nil view PendingBlock.wf_empty items i hmem
  cases old with
  | none => exact hvisible _ hi
  | some c =>
      rcases List.mem_cons.mp hi with rfl | hi
      · simp [ProjectionCompaction.projected]
      · exact hvisible _ hi

/-- What is seen of later items follows, where nothing may grow. -/
theorem projectVisible_later {last : Int} {rest : List ProjectedItem}
    (hrest : projectVisible view (storedAfter last stored) = rest)
    (hpending : rest = [] ∨ (pendingAfter view {} (storedAfter last stored)).texts = [])
    (hlater : ∀ x ∈ later, last < x.messageId) :
    projectVisible view (storedAfter last (stored ++ later)) =
      rest ++ projectVisible view later := by
  have hsplit : storedAfter last (stored ++ later) = storedAfter last stored ++ later := by
    rw [storedAfter, List.filter_append]
    exact congrArg _ (storedAfter_of_lt hlater)
  rw [projectVisible_eq] at hrest
  have hnone : (pendingAfter view {} (storedAfter last stored)).texts = [] := by
    rcases hpending with hnil | hnone
    · exact pending_of_blocks_nil (hrest.trans hnil)
    · exact hnone
  rw [hsplit, projectVisible_eq, projectVisible_eq, blocks_append PendingBlock.wf_empty later hnone,
    hrest]

/-- Where a prefix is compacted to the last of its ids, the same items and
later ones project to the summary, the rest and the later items. -/
theorem projectContext_compacted (hsorted : SortedById (stored ++ later))
    (hold : ∀ c ∈ old, c.Precedes later) {k : Nat} {c : ProjectionCompaction}
    (hk : (projectContext stored view old).take k ≠ [])
    (hlast : IsLastId c.endMessageId ((projectContext stored view old).take k))
    (hgrowing : (projectContext stored view old).drop k ≠ [] → ¬ EndsGrowing view stored old) :
    projectContext (stored ++ later) view (some c) =
      c.projected ::
        ((projectContext stored view old).drop k ++ projectContext later view none) := by
  obtain ⟨hrest, hpending, hlater⟩ := after_cut hsorted hold hk hlast
  have hquiet : (projectContext stored view old).drop k = [] ∨
      (pendingAfter view {} (storedAfter c.endMessageId stored)).texts = [] := by
    by_cases hnil : (projectContext stored view old).drop k = []
    · exact .inl hnil
    · have hgrows := hgrowing hnil
      rw [EndsGrowing, projectLoop_pending, ← hpending.resolve_left hnil] at hgrows
      exact .inr (Decidable.of_not_not hgrows)
  exact congrArg (List.cons _) (projectVisible_later hrest hquiet hlater)

/-- The candidates are a nonempty prefix of the projection, and the ids that
are stored for them are its first and its last. -/
theorem candidates_range (cfg : CompressionConfig) (encodedLength : Dict → Int)
    (targetTokens projectedTokens : Int) {candidates : List ProjectedItem}
    (hcandidates : candidates = selectCompactionCandidates cfg
      (estimateProjectionTokens encodedLength (projectContext stored view old))
      targetTokens projectedTokens)
    (hne : candidates ≠ []) :
    candidates = (estimateProjectionTokens encodedLength
        (projectContext stored view old)).take candidates.length ∧
      (projectContext stored view old).take candidates.length ≠ [] ∧
      ∃ first last, candidateStartMessageId candidates = some first ∧
        candidateEndMessageId candidates = some last ∧ first ≤ last ∧
        IsLastId last ((projectContext stored view old).take candidates.length) := by
  have hids : ∀ i ∈ estimateProjectionTokens encodedLength (projectContext stored view old),
      i.sourceMessageIds ≠ [] := by
    intro i hi
    obtain ⟨i', hi', rfl⟩ := List.mem_map.mp hi
    exact projectContext_ids_ne_nil stored view old i' hi'
  have hinitial := selectCompactionCandidates_initial cfg hids targetTokens projectedTokens
  rw [← hcandidates] at hinitial
  have htake := List.prefix_iff_eq_take.mp hinitial
  have hsame : sourceIds candidates =
      sourceIds ((projectContext stored view old).take candidates.length) := by
    rw [estimateProjectionTokens, ← List.map_take] at htake
    exact (congrArg sourceIds htake).trans (sourceIds_estimate encodedLength _)
  have hnonempty : sourceIds candidates ≠ [] := by
    obtain ⟨i, hi⟩ := List.exists_mem_of_ne_nil _ hne
    obtain ⟨id, hid⟩ := List.exists_mem_of_ne_nil _ (hids i (hinitial.mem hi))
    exact List.ne_nil_of_mem (List.mem_flatMap.mpr ⟨i, hi, hid⟩)
  have hk : (projectContext stored view old).take candidates.length ≠ [] := by
    intro hnil
    rw [hsame, hnil] at hnonempty
    exact hnonempty rfl
  obtain ⟨first, hfirst⟩ : ∃ first, (sourceIds candidates).min? = some first :=
    Option.ne_none_iff_exists'.mp (fun hnone => hnonempty (List.min?_eq_none_iff.mp hnone))
  obtain ⟨last, hlast⟩ : ∃ last, (sourceIds candidates).max? = some last :=
    Option.ne_none_iff_exists'.mp (fun hnone => hnonempty (List.max?_eq_none_iff.mp hnone))
  have hmax := List.max?_eq_some_iff.mp hlast
  refine ⟨htake, hk, first, last, hfirst, hlast, hmax.2 first
    (List.min?_eq_some_iff.mp hfirst).1, ?_⟩
  rw [hsame] at hmax
  exact hmax

/-- **Compaction commutes with projection.**  The candidates are a prefix of
what the viewer sees; once they are compacted, the same items followed by later
ones are seen as the new summary, the rest of what was seen, and the later
items, unless the rest ends in a block that may still grow. -/
theorem compaction_commutes (cfg : CompressionConfig) (encodedLength : Dict → Int)
    (targetTokens projectedTokens : Int) (rows : List AgentContextCompaction)
    (view : ProjectionView) (stored later : List StoredContextItem)
    (old : Option ProjectionCompaction) (candidates : List ProjectedItem)
    (hsorted : SortedById (stored ++ later)) (hold : ∀ c ∈ old, c.Precedes later)
    (hcandidates : candidates = selectCompactionCandidates cfg
      (estimateProjectionTokens encodedLength (projectContext stored view old))
      targetTokens projectedTokens)
    (hne : candidates ≠ [])
    (hgrowing : (projectContext stored view old).drop candidates.length ≠ [] →
      ¬ EndsGrowing view stored old) :
    candidates = (estimateProjectionTokens encodedLength
        (projectContext stored view old)).take candidates.length ∧
      ∃ first last, candidateStartMessageId candidates = some first ∧
        candidateEndMessageId candidates = some last ∧
        ∀ row : AgentContextCompaction, row.startMessageId = first → row.endMessageId = last →
          projectContext (stored ++ later) view
              (getLatestCompaction (storeCompaction rows row) row.scope) =
            { item := row.summaryItem, sourceMessageIds := [first, last] } ::
              ((projectContext stored view old).drop candidates.length ++
                projectContext later view none) := by
  obtain ⟨htake, hk, first, last, hfirst, hlast, -, hmax⟩ :=
    candidates_range cfg encodedLength targetTokens projectedTokens hcandidates hne
  refine ⟨htake, first, last, hfirst, hlast, fun row hstart hend => ?_⟩
  rw [getLatestCompaction_store]
  subst hstart hend
  exact projectContext_compacted hsorted hold hk hmax hgrowing

end Compacted

/-- A user's message as it is stored. -/
def storedMessage (messageId : Int) (text : String) : StoredContextItem :=
  { messageId := messageId, ownerCode := "",
    item := [("type", .str "message"), ("role", .str "user"), ("content", .str text)] }

/-- The last item is kept. -/
def keepLast : CompressionConfig :=
  { triggerRatio := id, hardStopRatio := id, targetRatio := id, preserveRecentRatio := fun _ => 0,
    preserveRecentItems := 1, minItems := 1, summaryMaxTokens := 0 }

/-- The first of two messages is compacted before a third arrives. -/
theorem first_message_compacted :
    projectContext ([storedMessage 1 "a", storedMessage 2 "b"] ++ [storedMessage 3 "c"])
        { viewingAgentCode := "host" }
        (getLatestCompaction
          (storeCompaction [] { id := 1, scope := ⟨"s", "host", "", ""⟩, startMessageId := 1,
                                endMessageId := 1, summaryItem := [] }) ⟨"s", "host", "", ""⟩) =
      { item := [], sourceMessageIds := [1, 1] } ::
        ([shownItem (storedMessage 2 "b")] ++
          projectContext [storedMessage 3 "c"] { viewingAgentCode := "host" } none) := by
  have hcandidates : [{ shownItem (storedMessage 1 "a") with tokenEstimate := 4 }] =
      selectCompactionCandidates keepLast (estimateProjectionTokens (fun _ => 0) (projectContext
        [storedMessage 1 "a", storedMessage 2 "b"] { viewingAgentCode := "host" } none)) 0 8 := by
    decide +kernel
  have hgrows : ¬ EndsGrowing { viewingAgentCode := "host" }
      [storedMessage 1 "a", storedMessage 2 "b"] none := by
    simp only [EndsGrowing]
    decide +kernel
  obtain ⟨-, first, last, hfirst, hlast, hafter⟩ := compaction_commutes keepLast (fun _ => 0) 0 8
    [] { viewingAgentCode := "host" } [storedMessage 1 "a", storedMessage 2 "b"]
    [storedMessage 3 "c"] none _ (by unfold SortedById; decide) nofun hcandidates (by simp)
    (fun _ => hgrows)
  have hdrop : (projectContext [storedMessage 1 "a", storedMessage 2 "b"]
      { viewingAgentCode := "host" } none).drop 1 = [shownItem (storedMessage 2 "b")] := by
    decide +kernel
  obtain rfl : 1 = first := Option.some.inj hfirst
  obtain rfl : 1 = last := Option.some.inj hlast
  rw [← hdrop]
  exact hafter { id := 1, scope := ⟨"s", "host", "", ""⟩, startMessageId := 1, endMessageId := 1,
                 summaryItem := [] } rfl rfl

end Workbench
