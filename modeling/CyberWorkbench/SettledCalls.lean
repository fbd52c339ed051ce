import CyberWorkbench.ToolTransactions

/-!
# Which answered calls reach the model

An answered call is not safe by itself.  The normalizer keeps a call in one
open transaction with every call that came before its answer and every call
that follows until all are answered; the transaction is written out as a
whole or given up as a whole.  A call left unanswered by an interrupted turn
therefore takes along every later pair, until a call repeats an id or has
none.

`OpenGroup` is that transaction as seen from the input: the ids held together
and those among them still waiting.  `call_kept_iff` says exactly when a call
with a unique id is kept with its output; `orphan_swallows_pair` is the
shortest loss.
-/

namespace Workbench

/-! ### The group a call is held in -/

/-- The ids held together, and those not answered yet. -/
structure OpenGroup where
  callIds : List String := []
  waiting : List String := []
  deriving DecidableEq, Repr

/-- The group after one more item.  It dissolves when nothing waits any more,
and when a call has no id; a repeated id starts a new group. -/
def OpenGroup.next (g : OpenGroup) (e : InputItem) : OpenGroup :=
  match e.kind with
  | .regular _ => g
  | .output callId =>
      if callId ∈ g.waiting then
        let waiting := g.waiting.filter (fun id => decide (id ≠ callId))
        if waiting = [] then {} else { g with waiting := waiting }
      else g
  | .call callId =>
      if callId = "" then {}
      else if callId ∈ g.callIds then ⟨[callId], [callId]⟩
      else ⟨g.callIds ++ [callId], g.waiting ++ [callId]⟩

/-- The group held open after some items. -/
def openGroup (items : List InputItem) : OpenGroup := items.foldl OpenGroup.next {}

/-- All calls held in the group, and all that join it, are answered before a
call without an id or with one of theirs, and before the input ends. -/
def GroupSettles (g : OpenGroup) : List InputItem → Prop
  | [] => False
  | e :: rest =>
      match e.kind with
      | .regular _ => GroupSettles g rest
      | .output callId =>
          if callId ∈ g.waiting then
            g.waiting.filter (fun id => decide (id ≠ callId)) = [] ∨ GroupSettles (g.next e) rest
          else GroupSettles g rest
      | .call callId => callId ≠ "" ∧ callId ∉ g.callIds ∧ GroupSettles (g.next e) rest

/-- Without a call for it, an id does not start to wait; and an output ends the
wait. -/
theorem OpenGroup.not_mem_waiting_next {g : OpenGroup} {e : InputItem} {id : String}
    (hcall : e.kind ≠ .call id) (h : id ∉ g.waiting ∨ e.kind = .output id) :
    id ∉ (g.next e).waiting := by
  unfold OpenGroup.next
  cases hk : e.kind with
  | regular isEmptyMessage => exact h.resolve_right (by simp [hk])
  | output callId =>
      simp only
      split
      · split
        · simp
        · rw [List.mem_filter]
          rintro ⟨hmem, hne⟩
          rcases h with h | h
          · exact h hmem
          · rw [hk] at h
            exact absurd (ItemKind.output.inj h).symm (by simpa using hne)
      · rename_i hwait
        rcases h with h | h
        · exact h
        · rw [hk] at h
          exact ItemKind.output.inj h ▸ hwait
  | call callId =>
      have hne : id ≠ callId := fun heq => hcall (heq ▸ hk)
      have h := h.resolve_right (by simp [hk])
      simp only
      split
      · simp
      · split
        · simpa using hne
        · simp [h, hne]

/-- An output for the id. -/
def isOutputFor (callId : String) (e : InputItem) : Bool :=
  decide (e.kind = .output callId)

/-! ### The group tracks the transaction -/

/-- The transaction holds the group's calls, and the waiting ones have no
output. -/
structure Tracks (t : ToolTransaction) (g : OpenGroup) : Prop where
  callIds : t.callIds = g.callIds
  waiting : t.callIds.filter (fun id => (t.outputOf id).isNone) = g.waiting

theorem tracks_empty : Tracks {} {} := ⟨rfl, rfl⟩

theorem Tracks.mem_waiting {t : ToolTransaction} {g : OpenGroup} (h : Tracks t g)
    {callId : String} :
    callId ∈ g.waiting ↔ callId ∈ t.callIds ∧ t.outputOf callId = none := by
  rw [← h.waiting, List.mem_filter, Option.isNone_iff_eq_none]

/-- The transaction is complete when something is held and nothing waits. -/
theorem Tracks.complete_iff {t : ToolTransaction} {g : OpenGroup} (h : Tracks t g) :
    t.complete = true ↔ t.callIds ≠ [] ∧ g.waiting = [] := by
  rw [← h.waiting, List.filter_eq_nil_iff]
  simp [ToolTransaction.complete, Option.isSome_iff_ne_none]

/-- `add_call` accepts what joins the group. -/
theorem Tracks.addCall {seen : List InputItem} {t : ToolTransaction} {g : OpenGroup}
    {callId : String} (e : InputItem) (ht : TransactionInv seen t) (h : Tracks t g)
    (hne : callId ≠ "") (hnew : callId ∉ g.callIds) :
    ∃ t', t.addCall e callId = some t' ∧ t'.calls = t.calls ++ [e] ∧
      t'.outputsByCallId = t.outputsByCallId ∧
      Tracks t' ⟨g.callIds ++ [callId], g.waiting ++ [callId]⟩ := by
  have hnew' : callId ∉ t.callIds := h.callIds ▸ hnew
  have hnone : t.outputOf callId = none := by
    cases ho : t.outputOf callId with
    | none => rfl
    | some o => exact absurd (ht.outputIds callId o ho) hnew'
  refine ⟨{ t with calls := t.calls ++ [e], callIds := t.callIds ++ [callId] },
    by simp [ToolTransaction.addCall, hne, hnone, hnew'], rfl, rfl, ?_⟩
  have hout : ∀ id, ({ t with
      calls := t.calls ++ [e], callIds := t.callIds ++ [callId] } : ToolTransaction).outputOf id
        = t.outputOf id := fun _ => rfl
  constructor
  · simp [h.callIds]
  · simp only [hout]
    rw [List.filter_append, h.waiting]
    simp [hnone]

/-- `add_output` accepts what the group waits for. -/
theorem Tracks.addOutput {t : ToolTransaction} {g : OpenGroup} {callId : String}
    (e : InputItem) (h : Tracks t g) (hwait : callId ∈ g.waiting) :
    ∃ t', t.addOutput e callId = some t' ∧ t'.calls = t.calls ∧ t'.callIds = t.callIds ∧
      t'.deferredItems = t.deferredItems ∧
      (∀ id, t'.outputOf id = if id = callId then some e else t.outputOf id) ∧
      Tracks t' { g with waiting := g.waiting.filter (fun id => decide (id ≠ callId)) } := by
  obtain ⟨hmem, hnone⟩ := h.mem_waiting.mp hwait
  have hout : ∀ id, ({ t with
      outputsByCallId := t.outputsByCallId ++ [(callId, e)] } : ToolTransaction).outputOf id
        = if id = callId then some e else t.outputOf id := by
    intro id
    simp only [ToolTransaction.outputOf, List.lookup_append] at hnone ⊢
    by_cases hid : id = callId
    · subst hid
      simp [hnone]
    · simp [hid, List.lookup_cons, beq_eq_false_iff_ne.mpr hid]
  refine ⟨{ t with outputsByCallId := t.outputsByCallId ++ [(callId, e)] },
    by simp [ToolTransaction.addOutput, hmem, hnone], rfl, rfl, rfl, hout, h.callIds, ?_⟩
  show t.callIds.filter _ = _
  rw [← h.waiting, List.filter_filter]
  congr 1
  funext id
  rw [hout]
  by_cases hid : id = callId
  · simp [hid]
  · simp [hid]

/-- `add_output` rejects everything else. -/
theorem Tracks.rejectOutput {t : ToolTransaction} {g : OpenGroup} {callId : String}
    (e : InputItem) (h : Tracks t g) (hwait : callId ∉ g.waiting) :
    t.addOutput e callId = none := by
  unfold ToolTransaction.addOutput
  rw [if_pos]
  by_cases hmem : callId ∈ t.callIds
  · right
    rw [Option.isSome_iff_ne_none]
    exact fun hnone => hwait (h.mem_waiting.mpr ⟨hmem, hnone⟩)
  · exact .inl hmem

/-! ### What one item does -/

section Steps

variable {seen : List InputItem} {s : ToolTransactionNormalizer} {g : OpenGroup}
  {e : InputItem} {callId : String}

/-- Nothing is flushed before a call: what is complete was written already. -/
theorem flushIfComplete_of_open (hopen : s.transaction.complete = false) :
    s.flushIfComplete = s := by
  simp [ToolTransactionNormalizer.flushIfComplete, hopen]

theorem handle_regular {isEmptyMessage : Bool} (hkind : e.kind = .regular isEmptyMessage) :
    (s.handle e).transaction.calls = s.transaction.calls ∧
      (s.handle e).transaction.callIds = s.transaction.callIds ∧
      (∀ id, (s.handle e).transaction.outputOf id = s.transaction.outputOf id) ∧
      ∃ more, (s.handle e).normalized = s.normalized ++ more ∧
        ∀ x ∈ more, x.isRegular = true := by
  have hregular : e.isRegular = true := by simp [InputItem.isRegular, hkind]
  simp only [ToolTransactionNormalizer.handle, hkind,
    ToolTransactionNormalizer.handleRegularItem]
  split
  · exact ⟨rfl, rfl, fun _ => rfl, [], by simp, by simp⟩
  · split
    · exact ⟨rfl, rfl, fun _ => rfl, [], by simp, by simp⟩
    · exact ⟨rfl, rfl, fun _ => rfl, [e], rfl, by simpa using hregular⟩

theorem handle_output_rejected (h : Tracks s.transaction g) (hkind : e.kind = .output callId)
    (hwait : callId ∉ g.waiting) : s.handle e = s := by
  simp [ToolTransactionNormalizer.handle, hkind, ToolTransactionNormalizer.handleOutput,
    h.rejectOutput e hwait]

/-- An awaited output either completes the transaction, which is written out,
or is kept in it. -/
theorem handle_output_awaited (h : Tracks s.transaction g) (hkind : e.kind = .output callId)
    (hwait : callId ∈ g.waiting) :
    ∃ t, t.calls = s.transaction.calls ∧ t.callIds = s.transaction.callIds ∧
      t.deferredItems = s.transaction.deferredItems ∧
      (∀ id, t.outputOf id = if id = callId then some e else s.transaction.outputOf id) ∧
      Tracks t { g with waiting := g.waiting.filter (fun id => decide (id ≠ callId)) } ∧
      ((g.waiting.filter (fun id => decide (id ≠ callId)) = [] ∧
          s.handle e = { normalized := s.normalized ++ t.orderedItems, transaction := {} }) ∨
        (g.waiting.filter (fun id => decide (id ≠ callId)) ≠ [] ∧
          s.handle e = { s with transaction := t })) := by
  obtain ⟨t, hadd, hcalls, hids, hdeferred, hout, htracks⟩ := h.addOutput e hwait
  refine ⟨t, hcalls, hids, hdeferred, hout, htracks, ?_⟩
  have hhandle : s.handle e =
      ({ s with transaction := t } : ToolTransactionNormalizer).flushIfComplete := by
    simp [ToolTransactionNormalizer.handle, hkind, ToolTransactionNormalizer.handleOutput, hadd]
  have hheld : t.callIds ≠ [] := by
    rw [hids]
    exact List.ne_nil_of_mem (h.mem_waiting.mp hwait).1
  by_cases hdone : g.waiting.filter (fun id => decide (id ≠ callId)) = []
  · left
    have hcomplete : t.complete = true := htracks.complete_iff.mpr ⟨hheld, hdone⟩
    refine ⟨hdone, ?_⟩
    rw [hhandle]
    simp [ToolTransactionNormalizer.flushIfComplete, hcomplete]
  · right
    have hopen : t.complete = false :=
      Bool.eq_false_iff.mpr (fun hc => hdone (htracks.complete_iff.mp hc).2)
    refine ⟨hdone, ?_⟩
    rw [hhandle]
    simp [ToolTransactionNormalizer.flushIfComplete, hopen]

theorem handle_call_joins (hi : NormalizerInv seen s) (hopen : s.transaction.complete = false)
    (h : Tracks s.transaction g) (hkind : e.kind = .call callId) (hne : callId ≠ "")
    (hnew : callId ∉ g.callIds) :
    ∃ t, s.handle e = { s with transaction := t } ∧ t.calls = s.transaction.calls ++ [e] ∧
      (∀ id, t.outputOf id = s.transaction.outputOf id) ∧
      Tracks t ⟨g.callIds ++ [callId], g.waiting ++ [callId]⟩ := by
  obtain ⟨t, hadd, hcalls, hout, htracks⟩ := h.addCall e hi.transaction hne hnew
  refine ⟨t, ?_, hcalls, fun id => by simp [ToolTransaction.outputOf, hout], htracks⟩
  simp [ToolTransactionNormalizer.handle, hkind, ToolTransactionNormalizer.handleCall,
    flushIfComplete_of_open hopen, hadd]

/-- A call that cannot join gives the transaction up; only its deferred items
are written out, and only the call itself is held afterwards. -/
theorem handle_call_breaks (hi : NormalizerInv seen s) (hopen : s.transaction.complete = false)
    (h : Tracks s.transaction g) (hkind : e.kind = .call callId)
    (hbreak : callId = "" ∨ callId ∈ g.callIds) :
    Tracks (s.handle e).transaction (g.next e) ∧
      (∀ id, (s.handle e).transaction.outputOf id = none) ∧
      (∀ id ∈ (s.handle e).transaction.callIds, id = callId) ∧
      (∀ x ∈ (s.handle e).transaction.calls, x = e) ∧
      ∃ more, (s.handle e).normalized = s.normalized ++ more ∧
        ∀ x ∈ more, x.isRegular = true := by
  have hreject : s.transaction.addCall e callId = none := by
    unfold ToolTransaction.addCall
    rw [if_pos]
    rcases hbreak with hempty | hmem
    · exact .inl hempty
    · exact .inr (.inr (h.callIds ▸ hmem))
  have hhandle : s.handle e =
      (s.discardIncompleteTransaction.transaction.addCall e callId).elim
        s.discardIncompleteTransaction
        (fun t => { s.discardIncompleteTransaction with transaction := t }) := by
    simp only [ToolTransactionNormalizer.handle, hkind, ToolTransactionNormalizer.handleCall,
      flushIfComplete_of_open hopen, hreject]
    cases s.discardIncompleteTransaction.transaction.addCall e callId <;> rfl
  have hmore : ∃ more, s.discardIncompleteTransaction.normalized = s.normalized ++ more ∧
      ∀ x ∈ more, x.isRegular = true := by
    unfold ToolTransactionNormalizer.discardIncompleteTransaction
    split
    · exact ⟨[], by simp, by simp⟩
    · exact ⟨s.transaction.deferredItems, rfl, hi.transaction.deferred⟩
  obtain ⟨hdiscarded, hids, -⟩ := hi.discardIncompleteTransaction
  have hcalls := hdiscarded.transaction.callIds_eq_nil.mp hids
  have hnone : ∀ id, s.discardIncompleteTransaction.transaction.outputOf id = none := by
    intro id
    cases ho : s.discardIncompleteTransaction.transaction.outputOf id with
    | none => rfl
    | some o =>
        have hmem := hdiscarded.transaction.outputIds id o ho
        rw [hids] at hmem
        cases hmem
  have hempty : Tracks s.discardIncompleteTransaction.transaction {} :=
    ⟨hids, by rw [hids]; rfl⟩
  rw [hhandle]
  by_cases hne : callId = ""
  · have hagain : s.discardIncompleteTransaction.transaction.addCall e callId = none := by
      simp [ToolTransaction.addCall, hne]
    simp only [hagain, Option.elim]
    refine ⟨?_, hnone, by simp [hids], by simp [hcalls], hmore⟩
    simpa [OpenGroup.next, hkind, hne] using hempty
  · obtain ⟨t, hadd, htcalls, hout, htracks⟩ :=
      hempty.addCall e hdiscarded.transaction hne (by simp)
    have hnext : g.next e = ⟨[callId], [callId]⟩ := by
      simp [OpenGroup.next, hkind, hne, hbreak.resolve_left hne]
    simp only [hadd, Option.elim]
    refine ⟨hnext ▸ htracks, ?_, ?_, ?_, hmore⟩
    · intro id
      have := hnone id
      simpa [ToolTransaction.outputOf, hout] using this
    · simp [htracks.callIds]
    · simp [htcalls, hcalls]

/-- The group follows the transaction through every item. -/
theorem handle_tracks (hi : NormalizerInv seen s) (hopen : s.transaction.complete = false)
    (h : Tracks s.transaction g) (e : InputItem) :
    Tracks (s.handle e).transaction (g.next e) := by
  cases hkind : e.kind with
  | regular isEmptyMessage =>
      obtain ⟨-, hids, hout, -⟩ := handle_regular hkind (s := s)
      have hnext : g.next e = g := by simp [OpenGroup.next, hkind]
      rw [hnext]
      exact ⟨hids.trans h.callIds, by simpa only [hids, hout] using h.waiting⟩
  | output callId =>
      by_cases hwait : callId ∈ g.waiting
      · obtain ⟨t, -, -, -, -, htracks, ⟨hdone, hs⟩ | ⟨hmore, hs⟩⟩ :=
          handle_output_awaited h hkind hwait
        · have hnext : g.next e = {} := by
            simp only [OpenGroup.next, hkind, if_pos hwait, if_pos hdone]
          rw [hs, hnext]
          exact tracks_empty
        · have hnext : g.next e =
              { g with waiting := g.waiting.filter (fun id => decide (id ≠ callId)) } := by
            simp only [OpenGroup.next, hkind, if_pos hwait, if_neg hmore]
          rw [hs, hnext]
          exact htracks
      · have hnext : g.next e = g := by simp [OpenGroup.next, hkind, hwait]
        rw [handle_output_rejected h hkind hwait, hnext]
        exact h
  | call callId =>
      by_cases hbreak : callId = "" ∨ callId ∈ g.callIds
      · exact (handle_call_breaks hi hopen h hkind hbreak).1
      · obtain ⟨hne, hnew⟩ := not_or.mp hbreak
        obtain ⟨t, hs, -, -, htracks⟩ := handle_call_joins hi hopen h hkind hne hnew
        have hnext : g.next e = ⟨g.callIds ++ [callId], g.waiting ++ [callId]⟩ := by
          simp [OpenGroup.next, hkind, hne, hnew]
        rw [hs, hnext]
        exact htracks

/-- What an item adds: to the output, to the answers and to the calls held. -/
theorem handle_adds (hi : NormalizerInv seen s) (hopen : s.transaction.complete = false)
    (h : Tracks s.transaction g) (e : InputItem) :
    (∃ more, (s.handle e).normalized = s.normalized ++ more ∧
      ∀ x ∈ more, x.isRegular = true ∨ x ∈ s.transaction.calls ∨ ∃ id, x.kind = .output id ∧
        (s.transaction.outputOf id = some x ∨ (x = e ∧ id ∈ g.waiting))) ∧
      (∀ id x, (s.handle e).transaction.outputOf id = some x →
        s.transaction.outputOf id = some x ∨ (x = e ∧ e.kind = .output id ∧ id ∈ g.waiting)) ∧
      ∀ x ∈ (s.handle e).transaction.calls, x ∈ s.transaction.calls ∨ x = e := by
  cases hkind : e.kind with
  | regular isEmptyMessage =>
      obtain ⟨hcalls, -, hout, more, hmore, hregular⟩ := handle_regular hkind (s := s)
      refine ⟨⟨more, hmore, fun x hx => .inl (hregular x hx)⟩, ?_, ?_⟩
      · intro id x hx
        exact .inl (hout id ▸ hx)
      · intro x hx
        exact .inl (hcalls ▸ hx)
  | output callId =>
      by_cases hwait : callId ∈ g.waiting
      · obtain ⟨t, hcalls, -, hdeferred, hout, -, ⟨-, hs⟩ | ⟨-, hs⟩⟩ :=
          handle_output_awaited h hkind hwait
        · rw [hs]
          refine ⟨⟨t.orderedItems, rfl, fun x hx => ?_⟩, by simp [ToolTransaction.outputOf],
            by simp⟩
          rcases List.mem_append.mp hx with hx | hx
          · rcases List.mem_append.mp hx with hx | hx
            · exact .inr (.inl (hcalls ▸ hx))
            · obtain ⟨id, -, ho⟩ := List.mem_filterMap.mp hx
              rw [hout] at ho
              split at ho
              · rename_i hid
                subst hid
                obtain rfl := Option.some.inj ho
                exact .inr (.inr ⟨id, hkind, .inr ⟨rfl, hwait⟩⟩)
              · exact .inr (.inr ⟨id, (hi.transaction.outputs id x ho).1, .inl ho⟩)
          · exact .inl (hi.transaction.deferred x (hdeferred ▸ hx))
        · rw [hs]
          refine ⟨⟨[], by simp, by simp⟩, ?_, ?_⟩
          · intro id x hx
            rw [hout] at hx
            split at hx
            · rename_i hid
              subst hid
              exact .inr ⟨(Option.some.inj hx).symm, rfl, hwait⟩
            · exact .inl hx
          · intro x hx
            exact .inl (hcalls ▸ hx)
      · rw [handle_output_rejected h hkind hwait]
        exact ⟨⟨[], by simp, by simp⟩, fun _ _ hx => .inl hx, fun _ hx => .inl hx⟩
  | call callId =>
      by_cases hbreak : callId = "" ∨ callId ∈ g.callIds
      · obtain ⟨-, hnone, -, hcalls, more, hmore, hregular⟩ :=
          handle_call_breaks hi hopen h hkind hbreak
        refine ⟨⟨more, hmore, fun x hx => .inl (hregular x hx)⟩, ?_, ?_⟩
        · intro id x hx
          rw [hnone] at hx
          cases hx
        · intro x hx
          exact .inr (hcalls x hx)
      · obtain ⟨hne, hnew⟩ := not_or.mp hbreak
        obtain ⟨t, hs, hcalls, hout, -⟩ := handle_call_joins hi hopen h hkind hne hnew
        rw [hs]
        refine ⟨⟨[], by simp, by simp⟩, ?_, ?_⟩
        · intro id x hx
          exact .inl (hout id ▸ hx)
        · intro x hx
          rw [hcalls, List.mem_append, List.mem_singleton] at hx
          exact hx

end Steps

/-! ### Runs -/

/-- The normalizer and the group after the same items. -/
structure Follows (seen : List InputItem) (s : ToolTransactionNormalizer) (g : OpenGroup) :
    Prop where
  inv : NormalizerInv seen s
  isOpen : s.transaction.complete = false
  tracks : Tracks s.transaction g

theorem follows_init : Follows [] {} {} :=
  ⟨normalizerInv_init, rfl, tracks_empty⟩

section Runs

variable {seen : List InputItem} {s : ToolTransactionNormalizer} {g : OpenGroup}

theorem Follows.handle (h : Follows seen s g) (e : InputItem) :
    Follows (seen ++ [e]) (s.handle e) (g.next e) :=
  ⟨(h.inv.handle e h.isOpen).1, (h.inv.handle e h.isOpen).2,
    handle_tracks h.inv h.isOpen h.tracks e⟩

theorem Follows.foldl (h : Follows seen s g) (items : List InputItem) :
    Follows (seen ++ items) (items.foldl ToolTransactionNormalizer.handle s)
      (items.foldl OpenGroup.next g) := by
  induction items generalizing seen s g with
  | nil => simpa using h
  | cons e rest ih => simpa using ih (h.handle e)

/-- A held call has its id among the held ids. -/
theorem Follows.callId_mem (h : Follows seen s g) {c : InputItem} {id : String}
    (hc : c ∈ s.transaction.calls) (hkind : c.kind = .call id) :
    id ∈ g.callIds ∧ id ≠ "" := by
  have hk : c.kind ∈ s.transaction.callIds.map ItemKind.call :=
    h.inv.transaction.kinds ▸ List.mem_map_of_mem hc
  obtain ⟨id', hid', heq⟩ := List.mem_map.mp hk
  rw [hkind] at heq
  obtain rfl := ItemKind.call.inj heq
  refine ⟨h.tracks.callIds ▸ hid', ?_⟩
  rintro rfl
  exact h.inv.transaction.nonempty hid'

/-- What is returned: the output so far, and regular items. -/
theorem Follows.finish (h : Follows seen s g) :
    ∃ more, s.finish = s.normalized ++ more ∧ ∀ x ∈ more, x.isRegular = true := by
  unfold ToolTransactionNormalizer.finish
  rw [flushIfComplete_of_open h.isOpen]
  unfold ToolTransactionNormalizer.discardIncompleteTransaction
  split
  · exact ⟨[], by simp, by simp⟩
  · exact ⟨s.transaction.deferredItems, rfl, h.inv.transaction.deferred⟩

/-- What was written out stays. -/
theorem Follows.normalized_sublist (h : Follows seen s g) (rest : List InputItem) :
    s.normalized.Sublist (rest.foldl ToolTransactionNormalizer.handle s).finish := by
  induction rest generalizing seen s g with
  | nil =>
      obtain ⟨more, hmore, -⟩ := h.finish
      rw [List.foldl_nil, hmore]
      exact List.sublist_append_left _ _
  | cons e rest ih =>
      obtain ⟨⟨more, hmore, -⟩, -, -⟩ := handle_adds h.inv h.isOpen h.tracks e
      have hstep : s.normalized.Sublist (s.handle e).normalized :=
        hmore ▸ List.sublist_append_left _ _
      exact hstep.trans (ih (h.handle e))

/-- A call that is neither written out nor held nor to come is not returned. -/
theorem Follows.call_lost (h : Follows seen s g) {c : InputItem} {id : String}
    (hkind : c.kind = .call id) {rest : List InputItem} (hrest : c ∉ rest)
    (hout : c ∉ s.normalized) (hheld : c ∉ s.transaction.calls) :
    c ∉ (rest.foldl ToolTransactionNormalizer.handle s).finish := by
  have hregular : c.isRegular = false := by simp [InputItem.isRegular, hkind]
  induction rest generalizing seen s g with
  | nil =>
      obtain ⟨more, hmore, hall⟩ := h.finish
      rw [List.foldl_nil, hmore, List.mem_append]
      rintro (hc | hc)
      · exact hout hc
      · simp [hall c hc] at hregular
  | cons e rest ih =>
      have hne := List.ne_of_not_mem_cons hrest
      have hrest := List.not_mem_of_not_mem_cons hrest
      obtain ⟨⟨more, hmore, hall⟩, -, hcalls⟩ := handle_adds h.inv h.isOpen h.tracks e
      refine ih (h.handle e) hrest ?_ ?_
      · rw [hmore, List.mem_append]
        rintro (hc | hc)
        · exact hout hc
        · rcases hall c hc with hr | hc | ⟨id', hk, -⟩
          · simp [hr] at hregular
          · exact hheld hc
          · rw [hkind] at hk
            cases hk
      · intro hc
        rcases hcalls c hc with hc | hc
        · exact hheld hc
        · exact hne hc

/-- **A call of an unsettled group is lost.** -/
theorem Follows.unsettled_lost (h : Follows seen s g) {c : InputItem} {id : String}
    (hkind : c.kind = .call id) {rest : List InputItem} (hrest : c ∉ rest)
    (hout : c ∉ s.normalized) (hunsettled : ¬ GroupSettles g rest) :
    c ∉ (rest.foldl ToolTransactionNormalizer.handle s).finish := by
  have hregular : c.isRegular = false := by simp [InputItem.isRegular, hkind]
  induction rest generalizing seen s g with
  | nil =>
      obtain ⟨more, hmore, hall⟩ := h.finish
      rw [List.foldl_nil, hmore, List.mem_append]
      rintro (hc | hc)
      · exact hout hc
      · simp [hall c hc] at hregular
  | cons e rest ih =>
      have hne := List.ne_of_not_mem_cons hrest
      have hrest := List.not_mem_of_not_mem_cons hrest
      have hnext := h.handle e
      -- Only regular items are written out before the group settles.
      have hquiet : ∀ more : List InputItem, (s.handle e).normalized = s.normalized ++ more →
          (∀ x ∈ more, x.isRegular = true) → c ∉ (s.handle e).normalized := by
        intro more hmore hall
        rw [hmore, List.mem_append]
        rintro (hc | hc)
        · exact hout hc
        · simp [hall c hc] at hregular
      cases hk : e.kind with
      | regular isEmptyMessage =>
          obtain ⟨-, -, -, more, hmore, hall⟩ := handle_regular hk (s := s)
          refine ih hnext hrest (hquiet more hmore hall) ?_
          simpa [GroupSettles, OpenGroup.next, hk] using hunsettled
      | output callId =>
          by_cases hwait : callId ∈ g.waiting
          · obtain ⟨t, -, -, -, -, -, ⟨hdone, -⟩ | ⟨-, hs⟩⟩ :=
              handle_output_awaited h.tracks hk hwait
            · exact absurd (by simp only [GroupSettles, hk, if_pos hwait, hdone, true_or])
                hunsettled
            · refine ih hnext hrest (hquiet [] (by simp [hs]) (by simp)) (fun hsettles => ?_)
              exact hunsettled (by simp only [GroupSettles, hk, if_pos hwait, hsettles, or_true])
          · have hs := handle_output_rejected h.tracks hk hwait
            refine ih hnext hrest (hquiet [] (by simp [hs]) (by simp)) ?_
            simpa [GroupSettles, OpenGroup.next, hk, hwait] using hunsettled
      | call callId =>
          by_cases hbreak : callId = "" ∨ callId ∈ g.callIds
          · obtain ⟨-, -, -, hcalls, more, hmore, hall⟩ :=
              handle_call_breaks h.inv h.isOpen h.tracks hk hbreak
            exact hnext.call_lost hkind hrest (hquiet more hmore hall)
              (fun hc => hne (hcalls c hc))
          · obtain ⟨hid, hnew⟩ := not_or.mp hbreak
            obtain ⟨t, hs, -⟩ := handle_call_joins h.inv h.isOpen h.tracks hk hid hnew
            refine ih hnext hrest (hquiet [] (by simp [hs]) (by simp)) (fun hsettles => ?_)
            exact hunsettled (by simpa only [GroupSettles, hk] using ⟨hid, hnew, hsettles⟩)

/-- **A call of a settling group is kept** with the first output for its id. -/
theorem Follows.settled_kept (h : Follows seen s g) {c o : InputItem} {id : String}
    (hheld : c ∈ s.transaction.calls) (hkind : c.kind = .call id) {rest : List InputItem}
    (hsettles : GroupSettles g rest)
    (hout : s.transaction.outputOf id = some o ∨
      (s.transaction.outputOf id = none ∧ rest.find? (isOutputFor id) = some o)) :
    [c, o].Sublist (rest.foldl ToolTransactionNormalizer.handle s).finish := by
  induction rest generalizing seen s g with
  | nil => exact hsettles.elim
  | cons e rest ih =>
      have hnext := h.handle e
      obtain ⟨hmem, hid⟩ := h.callId_mem hheld hkind
      cases hk : e.kind with
      | regular isEmptyMessage =>
          obtain ⟨hcalls, -, houts, -⟩ := handle_regular hk (s := s)
          have hfind : (e :: rest).find? (isOutputFor id) = rest.find? (isOutputFor id) :=
            List.find?_cons_of_neg (by simp [isOutputFor, hk])
          refine ih hnext (hcalls ▸ hheld) ?_ ?_
          · simpa [GroupSettles, OpenGroup.next, hk] using hsettles
          · rw [houts, ← hfind]
            exact hout
      | output callId =>
          have hfind : callId ≠ id →
              (e :: rest).find? (isOutputFor id) = rest.find? (isOutputFor id) :=
            fun hne => List.find?_cons_of_neg (by simp [isOutputFor, hk, hne])
          by_cases hwait : callId ∈ g.waiting
          · obtain ⟨t, hcalls, hids, -, houts, htracks, hs⟩ :=
              handle_output_awaited h.tracks hk hwait
            have hanswer : t.outputOf id = some o ∨
                (t.outputOf id = none ∧ rest.find? (isOutputFor id) = some o) := by
              rw [houts]
              split
              · rename_i heq
                subst heq
                left
                rcases hout with hout | ⟨-, hout⟩
                · rw [(h.tracks.mem_waiting.mp hwait).2] at hout
                  cases hout
                · rwa [List.find?_cons_of_pos (by simp [isOutputFor, hk])] at hout
              · rename_i hne
                rwa [hfind (Ne.symm hne)] at hout
            rcases hs with ⟨hdone, hs⟩ | ⟨hmore, hs⟩
            · have hans : t.outputOf id = some o := by
                rcases hanswer with hans | ⟨hnone, -⟩
                · exact hans
                · have hlate := htracks.mem_waiting.mpr
                    ⟨by rw [hids, h.tracks.callIds]; exact hmem, hnone⟩
                  rw [hdone] at hlate
                  cases hlate
              have hpair : [c, o].Sublist t.orderedItems := by
                have hc : [c].Sublist t.calls := List.singleton_sublist.mpr (hcalls ▸ hheld)
                have ho : [o].Sublist (t.callIds.filterMap t.outputOf) :=
                  List.singleton_sublist.mpr (List.mem_filterMap.mpr
                    ⟨id, by rw [hids, h.tracks.callIds]; exact hmem, hans⟩)
                exact (hc.append ho).trans (List.sublist_append_left _ _)
              have hwritten : [c, o].Sublist (s.handle e).normalized := by
                rw [hs]
                exact hpair.trans (List.sublist_append_right _ _)
              exact hwritten.trans (hnext.normalized_sublist rest)
            · refine ih hnext (by rw [hs]; exact hcalls ▸ hheld) ?_ (by rw [hs]; exact hanswer)
              simp only [GroupSettles, hk, if_pos hwait] at hsettles
              exact hsettles.resolve_left hmore
          · have hs := handle_output_rejected h.tracks hk hwait
            refine ih hnext (by rw [hs]; exact hheld) ?_ ?_
            · simpa [GroupSettles, OpenGroup.next, hk, hwait] using hsettles
            · rw [hs]
              by_cases heq : callId = id
              · subst heq
                refine hout.imp_right (fun hlate => absurd ?_ hwait)
                exact h.tracks.mem_waiting.mpr ⟨h.tracks.callIds ▸ hmem, hlate.1⟩
              · rwa [hfind heq] at hout
      | call callId =>
          obtain ⟨hne, hnew, hsettles⟩ : callId ≠ "" ∧ callId ∉ g.callIds ∧
              GroupSettles (g.next e) rest := by
            simpa only [GroupSettles, hk] using hsettles
          obtain ⟨t, hs, hcalls, houts, -⟩ :=
            handle_call_joins h.inv h.isOpen h.tracks hk hne hnew
          have hfind : (e :: rest).find? (isOutputFor id) = rest.find? (isOutputFor id) :=
            List.find?_cons_of_neg (by simp [isOutputFor, hk])
          refine ih hnext ?_ hsettles ?_
          · rw [hs]
            exact hcalls ▸ List.mem_append_left _ hheld
          · rw [hs, ← hfind]
            exact houts id ▸ hout

/-- `x` is the output given for the id so far. -/
def Gave (s : ToolTransactionNormalizer) (id : String) (x : InputItem) : Prop :=
  (x ∈ s.normalized ∧ x.kind = .output id) ∨ s.transaction.outputOf id = some x

/-- An output is given when it is awaited. -/
theorem Follows.gave_handle (h : Follows seen s g) {e x : InputItem} {id : String}
    (hgave : Gave (s.handle e) id x) :
    Gave s id x ∨ (x = e ∧ e.kind = .output id ∧ id ∈ g.waiting) := by
  obtain ⟨⟨more, hmore, hall⟩, houts, -⟩ := handle_adds h.inv h.isOpen h.tracks e
  rcases hgave with ⟨hx, hkind⟩ | hx
  · rw [hmore, List.mem_append] at hx
    rcases hx with hx | hx
    · exact .inl (.inl ⟨hx, hkind⟩)
    · rcases hall x hx with hregular | hheld | ⟨id', hk, hx⟩
      · simp [InputItem.isRegular, hkind] at hregular
      · have hk : x.kind ∈ s.transaction.callIds.map ItemKind.call :=
          h.inv.transaction.kinds ▸ List.mem_map_of_mem hheld
        obtain ⟨id', -, heq⟩ := List.mem_map.mp hk
        rw [hkind] at heq
        cases heq
      · rw [hkind] at hk
        obtain rfl := ItemKind.output.inj hk
        rcases hx with hx | ⟨rfl, hwait⟩
        · exact .inl (.inr hx)
        · exact .inr ⟨rfl, hkind, hwait⟩
  · exact (houts id x hx).imp_left .inr

/-- An id that is not waiting and is not called again gets no output. -/
theorem Follows.gave_settled (h : Follows seen s g) {x : InputItem} {id : String}
    (hwait : id ∉ g.waiting) {rest : List InputItem} (hcalls : ∀ e ∈ rest, e.kind ≠ .call id)
    (hx : Gave (rest.foldl ToolTransactionNormalizer.handle s) id x) : Gave s id x := by
  induction rest generalizing seen s g with
  | nil => exact hx
  | cons e rest ih =>
      obtain ⟨he, hrest⟩ := List.forall_mem_cons.mp hcalls
      have hstill := OpenGroup.not_mem_waiting_next he (.inl hwait)
      rcases h.gave_handle (ih (h.handle e) hstill hrest hx) with hx | ⟨-, -, hmem⟩
      · exact hx
      · exact absurd hmem hwait

/-- **Only the first output answers.** -/
theorem Follows.gave_first (h : Follows seen s g) {x : InputItem} {id : String}
    (hnone : ∀ y, ¬ Gave s id y) {rest : List InputItem}
    (hcalls : ∀ e ∈ rest, e.kind ≠ .call id)
    (hx : Gave (rest.foldl ToolTransactionNormalizer.handle s) id x) :
    rest.find? (isOutputFor id) = some x := by
  induction rest generalizing seen s g with
  | nil => exact absurd hx (hnone x)
  | cons e rest ih =>
      obtain ⟨he, hrest⟩ := List.forall_mem_cons.mp hcalls
      by_cases hout : e.kind = .output id
      · rw [List.find?_cons_of_pos (by simp [isOutputFor, hout])]
        have hstill := OpenGroup.not_mem_waiting_next (g := g) he (.inr hout)
        rcases h.gave_handle ((h.handle e).gave_settled hstill hrest hx) with hx | ⟨rfl, -, -⟩
        · exact absurd hx (hnone x)
        · rfl
      · rw [List.find?_cons_of_neg (by simp [isOutputFor, hout])]
        refine ih (h.handle e) (fun y hy => ?_) hrest hx
        rcases h.gave_handle hy with hy | ⟨-, hk, -⟩
        · exact hnone y hy
        · exact hout hk

/-- An output that is returned was given. -/
theorem Follows.gave_of_mem_finish (h : Follows seen s g) {o : InputItem} {id : String}
    (hkind : o.kind = .output id) (ho : o ∈ s.finish) : Gave s id o := by
  obtain ⟨more, hmore, hall⟩ := h.finish
  rw [hmore, List.mem_append] at ho
  rcases ho with ho | ho
  · exact .inl ⟨ho, hkind⟩
  · simpa [InputItem.isRegular, hkind] using hall o ho

end Runs

/-! ### The condition -/

/-- Before its first call an id is neither held nor answered, and its call is
not written out. -/
theorem before_call {items : List InputItem} {id : String}
    (hcalls : ∀ e ∈ items, e.kind ≠ .call id) :
    id ∉ (openGroup items).callIds ∧
      (∀ y, ¬ Gave (items.foldl ToolTransactionNormalizer.handle {}) id y) ∧
      ∀ c : InputItem, c.kind = .call id →
        c ∉ (items.foldl ToolTransactionNormalizer.handle {}).normalized := by
  have h : Follows items (items.foldl ToolTransactionNormalizer.handle {}) (openGroup items) :=
    follows_init.foldl items
  refine ⟨fun hid => ?_, fun y hy => ?_, fun c hkind hc => ?_⟩
  · rw [← h.tracks.callIds] at hid
    have hk : ItemKind.call id ∈ (items.foldl ToolTransactionNormalizer.handle
        {}).transaction.calls.map InputItem.kind :=
      h.inv.transaction.kinds ▸ List.mem_map_of_mem hid
    obtain ⟨c, hc, hkind⟩ := List.mem_map.mp hk
    exact hcalls c (h.inv.transaction.callsSeen c hc) hkind
  · rcases follows_init.gave_settled (by simp) hcalls hy with ⟨hy, -⟩ | hy
    · cases hy
    · simp [ToolTransaction.outputOf] at hy
  · exact follows_init.call_lost hkind (fun hmem => hcalls c hmem hkind) (by simp) (by simp)
      ((h.normalized_sublist []).mem hc)

/-- **When a completed call reaches the model.**  A call whose id no other
call uses is returned, followed by an output that comes after it in the input,
exactly when it has an id, no other output for that id comes first, and every
call held with it is answered before the transaction is given up. -/
theorem call_kept_iff (before between after : List InputItem) (c o : InputItem)
    (callId : String) (hcall : c.kind = .call callId) (houtput : o.kind = .output callId)
    (hunique : ∀ e ∈ before ++ between ++ after, e.kind ≠ .call callId) :
    [c, o].Sublist (normalize (before ++ c :: (between ++ o :: after))) ↔
      callId ≠ "" ∧ (between ++ [o]).find? (isOutputFor callId) = some o ∧
        GroupSettles ((openGroup before).next c) (between ++ o :: after) := by
  obtain ⟨hbefore, hrest⟩ : (∀ e ∈ before, e.kind ≠ .call callId) ∧
      ∀ e ∈ between ++ o :: after, e.kind ≠ .call callId := by
    refine ⟨fun e he => hunique e (by simp [he]), fun e he => ?_⟩
    simp only [List.mem_append, List.mem_cons] at he
    rcases he with he | rfl | he
    · exact hunique e (by simp [he])
    · simp [houtput]
    · exact hunique e (by simp [he])
  have hnotlater : c ∉ between ++ o :: after := fun hc => hrest c hc hcall
  have hfirst : (between ++ o :: after).find? (isOutputFor callId) = some o ↔
      (between ++ [o]).find? (isOutputFor callId) = some o := by
    rw [List.find?_append, List.find?_append,
      List.find?_cons_of_pos (by simp [isOutputFor, houtput]),
      List.find?_cons_of_pos (by simp [isOutputFor, houtput])]
  obtain ⟨hnew, hungiven, hunwritten⟩ := before_call hbefore
  have hs := follows_init.foldl before
  rw [List.nil_append] at hs
  rw [normalize, List.foldl_append, List.foldl_cons]
  generalize before.foldl ToolTransactionNormalizer.handle {} = s at hs hungiven hunwritten ⊢
  have hnext := hs.handle c
  by_cases hne : callId = ""
  · -- A call without an id is dropped where it stands.
    have hlost : c ∉ ((between ++ o :: after).foldl ToolTransactionNormalizer.handle
        (s.handle c)).finish := by
      obtain ⟨-, -, -, -, more, hmore, hall⟩ :=
        handle_call_breaks hs.inv hs.isOpen hs.tracks hcall (.inl hne)
      refine hnext.call_lost hcall hnotlater ?_ (fun hc => (hnext.callId_mem hc hcall).2 hne)
      rw [hmore, List.mem_append]
      rintro (hc | hc)
      · exact hunwritten c hcall hc
      · simpa [InputItem.isRegular, hcall] using hall c hc
    exact ⟨fun hkept => absurd (hkept.mem List.mem_cons_self) hlost, fun h => absurd hne h.1⟩
  · obtain ⟨t, ht, hcalls, houts, -⟩ :=
      handle_call_joins hs.inv hs.isOpen hs.tracks hcall hne hnew
    have hheld : c ∈ (s.handle c).transaction.calls := by
      rw [ht]
      exact hcalls ▸ List.mem_append_right _ List.mem_cons_self
    have hnone : ∀ y, ¬ Gave (s.handle c) callId y := by
      intro y hy
      rcases hs.gave_handle hy with hy | ⟨-, hk, -⟩
      · exact hungiven y hy
      · rw [hcall] at hk
        cases hk
    have hunanswered : (s.handle c).transaction.outputOf callId = none :=
      Option.eq_none_iff_forall_ne_some.mpr (fun y hy => hnone y (.inr hy))
    have hout : c ∉ (s.handle c).normalized := by
      rw [ht]
      exact hunwritten c hcall
    constructor
    · intro hkept
      have hgave := (hnext.foldl (between ++ o :: after)).gave_of_mem_finish houtput
        (hkept.mem (List.mem_cons_of_mem _ List.mem_cons_self))
      refine ⟨hne, hfirst.mp (hnext.gave_first hnone hrest hgave),
        Classical.byContradiction fun hunsettled => ?_⟩
      exact hnext.unsettled_lost hcall hnotlater hout hunsettled
        (hkept.mem List.mem_cons_self)
    · rintro ⟨-, hfind, hsettles⟩
      exact hnext.settled_kept hheld hcall hsettles (.inr ⟨hunanswered, hfirst.mpr hfind⟩)

/-! ### The shortest loss -/

/-- A `function_call` item. -/
def functionCall (callId : String) : InputItem :=
  .dict [("type", .str "function_call"), ("call_id", .str callId)]

/-- A `function_call_output` item. -/
def functionCallOutput (callId : String) : InputItem :=
  .dict [("type", .str "function_call_output"), ("call_id", .str callId)]

theorem call_kept_alone :
    [functionCall "b", functionCallOutput "b"].Sublist
      (normalize [functionCall "b", functionCallOutput "b"]) :=
  (call_kept_iff [] [] [] (functionCall "b") (functionCallOutput "b") "b" rfl rfl nofun).mpr
    ⟨by decide, by decide, .inl rfl⟩

/-- **An orphan takes a completed pair along.**  The call `a` was interrupted;
`b` was answered, and neither `b` nor its output reaches the model. -/
theorem orphan_swallows_pair :
    normalize [functionCall "a", functionCall "b", functionCallOutput "b"] = [] ∧
      ¬ ∀ (before between after : List InputItem) (c o : InputItem) (callId : String),
        c.kind = .call callId → o.kind = .output callId →
          (∀ e ∈ before ++ between ++ after, e.kind ≠ .call callId) →
          [c, o].Sublist (normalize (before ++ c :: (between ++ o :: after))) := by
  have hempty : normalize [functionCall "a", functionCall "b", functionCallOutput "b"] = [] := by
    decide
  refine ⟨hempty, fun hall => ?_⟩
  have hkept := hall [functionCall "a"] [] [] (functionCall "b") (functionCallOutput "b") "b"
    rfl rfl (by decide)
  simp only [List.nil_append, List.singleton_append] at hkept
  rw [hempty] at hkept
  cases hkept

end Workbench
