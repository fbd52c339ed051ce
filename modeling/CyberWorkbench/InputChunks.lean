import CyberWorkbench.ContextBudget

/-!
# Where the input is cut

A list of items is *settled* when no call of it waits for its output and its last
item is not a call.  `_build_chunks` cuts behind every settled prefix, so its last
chunk is what is behind the longest settled prefix that is not the whole list
(`buildChunks_last`).
-/

namespace Workbench

variable {estimate : TokenEstimator} {model : String}

/-! ### Settled lists -/

/-- No item is the output of a call id. -/
def Unanswered (callId : String) (items : List InputItem) : Prop :=
  ∀ item ∈ items, item.isFunctionCallOutput = true → item.callId ≠ callId

/-- A call with this id waits for its output. -/
def OpenIn (callId : String) (items : List InputItem) : Prop :=
  callId ≠ "" ∧ ∃ before call after, items = before ++ call :: after ∧
    call.isFunctionCall = true ∧ call.callId = callId ∧ Unanswered callId after

/-- No call waits, and the last item is not a call. -/
def Settled (items : List InputItem) : Prop :=
  (∀ callId, ¬ OpenIn callId items) ∧
    ∀ item, items.getLast? = some item → item.isFunctionCall = false

theorem settled_nil : Settled [] := by
  refine ⟨?_, fun item h => by cases h⟩
  rintro callId ⟨-, before, call, after, h, -⟩
  exact absurd h.symm (by simp)

/-- No item is a call and an output. -/
theorem InputItem.not_output_of_call {item : InputItem} (h : item.isFunctionCall = true) :
    item.isFunctionCallOutput = false := by
  cases item with
  | dict fields =>
      exact PythonValues.Value.isText_ne h (by decide)
  | model dumped => cases h
  | other => cases h

theorem unanswered_append {callId : String} {left right : List InputItem} :
    Unanswered callId (left ++ right) ↔ Unanswered callId left ∧ Unanswered callId right := by
  simp only [Unanswered, List.mem_append, or_imp, forall_and]

theorem unanswered_singleton {callId : String} {item : InputItem} :
    Unanswered callId [item] ↔ (item.isFunctionCallOutput = true → item.callId ≠ callId) := by
  simp [Unanswered]

/-- **One more item** opens a call, answers one, or changes nothing. -/
theorem openIn_concat {callId : String} {items : List InputItem} {item : InputItem} :
    OpenIn callId (items ++ [item]) ↔
      (OpenIn callId items ∧ (item.isFunctionCallOutput = true → item.callId ≠ callId)) ∨
        (callId ≠ "" ∧ item.isFunctionCall = true ∧ item.callId = callId) := by
  constructor
  · rintro ⟨hne, before, call, after, hsplit, hcall, hid, hafter⟩
    rcases List.eq_nil_or_concat after with rfl | ⟨after', last, rfl⟩
    · obtain ⟨-, hlast⟩ := List.append_inj' hsplit rfl
      obtain rfl := (List.cons.inj hlast).1
      exact .inr ⟨hne, hcall, hid⟩
    · have hsplit' : items ++ [item] = (before ++ call :: after') ++ [last] := by
        rw [hsplit]
        simp
      obtain ⟨rfl, hlast⟩ := List.append_inj' hsplit' rfl
      obtain rfl := (List.cons.inj hlast).1
      rw [List.concat_eq_append, unanswered_append, unanswered_singleton] at hafter
      exact .inl ⟨⟨hne, before, call, after', rfl, hcall, hid, hafter.1⟩, hafter.2⟩
  · rintro (⟨⟨hne, before, call, after, rfl, hcall, hid, hafter⟩, hitem⟩ | ⟨hne, hcall, hid⟩)
    · refine ⟨hne, before, call, after ++ [item], by simp, hcall, hid, ?_⟩
      exact unanswered_append.mpr ⟨hafter, unanswered_singleton.mpr hitem⟩
    · exact ⟨hne, items, item, [], rfl, hcall, hid, fun o ho => absurd ho List.not_mem_nil⟩

theorem settled_concat {items : List InputItem} {item : InputItem} :
    Settled (items ++ [item]) ↔
      (∀ callId, ¬ OpenIn callId (items ++ [item])) ∧ item.isFunctionCall = false := by
  simp [Settled]

/-- The longest settled prefix that is not the whole list. -/
structure LongestSettled (items settled : List InputItem) : Prop where
  initial : settled <+: items
  shorter : settled.length < items.length
  isSettled : Settled settled
  longest : ∀ other, other <+: items → other.length < items.length → Settled other →
    other.length ≤ settled.length

/-- There is one such prefix. -/
theorem LongestSettled.unique {items left right : List InputItem} (hl : LongestSettled items left)
    (hr : LongestSettled items right) : left = right := by
  have hle := hr.longest left hl.initial hl.shorter hl.isSettled
  have hge := hl.longest right hr.initial hr.shorter hr.isSettled
  exact (List.prefix_of_prefix_length_le hl.initial hr.initial hle).eq_of_length (by omega)

/-- It stays the longest while the list is not settled, and a settled list is the
longest of the lists with one more item. -/
theorem LongestSettled.concat {items settled : List InputItem} (item : InputItem)
    (h : LongestSettled items settled) (hopen : ¬ Settled items) :
    LongestSettled (items ++ [item]) settled where
  initial := h.initial.trans (List.prefix_append _ _)
  shorter := by
    have hlt := h.shorter
    rw [List.length_append]
    omega
  isSettled := h.isSettled
  longest := by
    intro other hinitial hshorter hsettled
    rw [List.length_append, List.length_singleton] at hshorter
    have hother : other <+: items :=
      List.prefix_of_prefix_length_le hinitial (List.prefix_append _ _) (by omega)
    have hne : other.length ≠ items.length := by
      intro heq
      exact hopen (hother.eq_of_length heq ▸ hsettled)
    have hle := hother.length_le
    exact h.longest other hother (by omega) hsettled

theorem longestSettled_concat_self {items : List InputItem} (item : InputItem)
    (h : Settled items) : LongestSettled (items ++ [item]) items where
  initial := List.prefix_append _ _
  shorter := by simp
  isSettled := h
  longest := by
    intro other _ hshorter _
    rw [List.length_append, List.length_singleton] at hshorter
    omega

/-! ### The chunks -/

/-- The items of some chunks. -/
def itemsOf (chunks : List InputChunk) : List InputItem := chunks.flatMap InputChunk.items

theorem itemsOf_append (left right : List InputChunk) :
    itemsOf (left ++ right) = itemsOf left ++ itemsOf right := List.flatMap_append

@[simp] theorem itemsOf_singleton (chunk : InputChunk) : itemsOf [chunk] = chunk.items := by
  simp [itemsOf]

/-- The chunk of some items. -/
def chunkOf (estimate : TokenEstimator) (model : String) (items : List InputItem) : InputChunk :=
  ⟨items, estimate items model⟩

/-- Chunks with their estimates, none of them empty. -/
def Estimated (estimate : TokenEstimator) (model : String) (chunks : List InputChunk) : Prop :=
  ∀ chunk ∈ chunks, chunk.items ≠ [] ∧ chunk = chunkOf estimate model chunk.items

/-- Where `_build_chunks` stands when it has seen some items. -/
structure Chunked (estimate : TokenEstimator) (model : String) (items : List InputItem)
    (s : ChunkState) : Prop where
  collected : itemsOf s.chunks ++ s.pending = items
  estimated : Estimated estimate model s.chunks
  opened : ∀ callId, callId ∈ s.openCalls ↔ OpenIn callId items
  settled : s.pending = [] ↔ Settled items
  last : items ≠ [] → ∃ before chunk,
    (s.flushPending estimate model).chunks = before ++ [chunk] ∧
      LongestSettled items (itemsOf before)

theorem chunked_empty : Chunked estimate model [] {} where
  collected := rfl
  estimated := fun chunk h => absurd h List.not_mem_nil
  opened := by
    intro callId
    refine ⟨fun h => absurd h List.not_mem_nil, ?_⟩
    rintro ⟨-, before, call, after, h, -⟩
    exact absurd h.symm (by simp)
  settled := ⟨fun _ => settled_nil, fun _ => rfl⟩
  last := fun h => absurd rfl h

/-- What one more item leaves: it joins the pending items or stands alone. -/
theorem Chunked.concat {items : List InputItem} {s next : ChunkState} {item : InputItem}
    (h : Chunked estimate model items s)
    (hopened : ∀ callId, callId ∈ next.openCalls ↔ OpenIn callId (items ++ [item]))
    (hsettled : next.pending = [] ↔ Settled (items ++ [item]))
    (hnext : (next.chunks = s.chunks ∧ next.pending = s.pending ++ [item]) ∨
      (next.chunks = s.chunks ++ [chunkOf estimate model (s.pending ++ [item])] ∧
        next.pending = [])) :
    Chunked estimate model (items ++ [item]) next := by
  have hchunk : (s.pending ++ [item]) ≠ [] ∧ chunkOf estimate model (s.pending ++ [item]) =
      chunkOf estimate model (chunkOf estimate model (s.pending ++ [item])).items :=
    ⟨by simp, rfl⟩
  have hflush : (next.flushPending estimate model).chunks =
      s.chunks ++ [chunkOf estimate model (s.pending ++ [item])] := by
    unfold ChunkState.flushPending
    rcases hnext with ⟨hchunks, hpending⟩ | ⟨hchunks, hpending⟩
    · rw [if_neg (by rw [hpending]; simp), hchunks, hpending]
      rfl
    · rw [if_pos hpending, hchunks]
  have hlongest : LongestSettled (items ++ [item]) (itemsOf s.chunks) := by
    by_cases hpending : s.pending = []
    · have hitems : itemsOf s.chunks = items := by
        rw [← h.collected, hpending, List.append_nil]
      rw [hitems]
      exact longestSettled_concat_self item (h.settled.mp hpending)
    · have hopen : ¬ Settled items := fun hs => hpending (h.settled.mpr hs)
      have hne : items ≠ [] := fun hnil => hopen (hnil ▸ settled_nil)
      obtain ⟨before, chunk, hchunks, hlast⟩ := h.last hne
      rw [ChunkState.flushPending, if_neg hpending] at hchunks
      obtain ⟨hbefore, -⟩ := List.append_inj' hchunks rfl
      exact hbefore ▸ hlast.concat item hopen
  refine ⟨?_, ?_, hopened, hsettled, fun _ => ⟨s.chunks, _, hflush, hlongest⟩⟩
  · rcases hnext with ⟨hchunks, hpending⟩ | ⟨hchunks, hpending⟩
    · rw [hchunks, hpending, ← List.append_assoc, h.collected]
    · rw [hchunks, hpending, itemsOf_append, itemsOf_singleton, List.append_nil, chunkOf,
        ← List.append_assoc, h.collected]
  · rcases hnext with ⟨hchunks, -⟩ | ⟨hchunks, -⟩
    · rw [hchunks]
      exact h.estimated
    · rw [hchunks]
      intro chunk hmem
      rcases List.mem_append.mp hmem with hold | hnew
      · exact h.estimated chunk hold
      · obtain rfl := List.mem_singleton.mp hnew
        exact hchunk

/-- **Step.**  The loop body, by the kind of the item. -/
theorem Chunked.add {items : List InputItem} {s : ChunkState} (h : Chunked estimate model items s)
    (item : InputItem) :
    Chunked estimate model (items ++ [item]) (s.add estimate model item) := by
  have hpendingOpen : s.pending = [] → ∀ callId, ¬ OpenIn callId items :=
    fun hpending => (h.settled.mp hpending).1
  unfold ChunkState.add
  cases hcall : item.isFunctionCall with
  | true =>
      have hanswers : ∀ callId, item.isFunctionCallOutput = true → item.callId ≠ callId := by
        intro callId houtput
        rw [InputItem.not_output_of_call hcall] at houtput
        cases houtput
      have hopen : ∀ callId, OpenIn callId (items ++ [item]) ↔
          OpenIn callId items ∨ (callId ≠ "" ∧ item.callId = callId) := by
        intro callId
        rw [openIn_concat]
        simp only [hcall, true_and]
        exact ⟨fun h => h.imp_left And.left, fun h => h.imp_left (fun hin => ⟨hin, hanswers callId⟩)⟩
      have hunsettled : ¬ Settled (items ++ [item]) := by
        rw [settled_concat, hcall]
        simp
      rw [if_pos rfl]
      split
      · rename_i hpending
        refine h.concat ?_ ⟨fun hnil => absurd hnil (by simp), fun hs => absurd hs hunsettled⟩
          (.inl ⟨rfl, by simp [hpending]⟩)
        intro callId
        rw [hopen]
        simp only [hpendingOpen hpending callId, false_or]
        split
        · rename_i hempty
          simp only [List.not_mem_nil, false_iff, not_and]
          intro hne heq
          exact hne (heq ▸ hempty)
        · rename_i hid
          rw [List.mem_singleton]
          exact ⟨fun heq => ⟨heq ▸ hid, heq.symm⟩, fun heq => heq.2.symm⟩
      · refine h.concat ?_ ⟨fun hnil => absurd hnil (by simp), fun hs => absurd hs hunsettled⟩
          (.inl ⟨rfl, rfl⟩)
        intro callId
        rw [hopen, ← h.opened]
        simp only
        split
        · rename_i hknown
          refine ⟨.inl, ?_⟩
          rintro (hmem | ⟨hne, rfl⟩)
          · exact hmem
          · exact hknown.resolve_left hne
        · rename_i hnew
          simp only [not_or] at hnew
          rw [List.mem_append, List.mem_singleton]
          constructor
          · rintro (hmem | rfl)
            · exact .inl hmem
            · exact .inr ⟨hnew.1, rfl⟩
          · rintro (hmem | ⟨-, rfl⟩)
            · exact .inl hmem
            · exact .inr rfl
  | false =>
      have hopen : ∀ callId, OpenIn callId (items ++ [item]) ↔
          OpenIn callId items ∧ (item.isFunctionCallOutput = true → item.callId ≠ callId) := by
        intro callId
        rw [openIn_concat]
        simp [hcall]
      have hclosed : Settled (items ++ [item]) ↔ ∀ callId, ¬ OpenIn callId (items ++ [item]) := by
        rw [settled_concat, hcall]
        simp
      rw [if_neg (by simp)]
      split
      · rename_i hpending
        have hcalls : ∀ callId, callId ∈ (if item.isFunctionCallOutput then
            s.openCalls.filter (fun c => decide (c ≠ item.callId)) else s.openCalls) ↔
              OpenIn callId (items ++ [item]) := by
          intro callId
          rw [hopen, ← h.opened]
          cases item.isFunctionCallOutput with
          | true =>
              rw [if_pos rfl, List.mem_filter, decide_eq_true_eq]
              exact ⟨fun hmem => ⟨hmem.1, fun _ => Ne.symm hmem.2⟩,
                fun hmem => ⟨hmem.1, Ne.symm (hmem.2 rfl)⟩⟩
          | false =>
              rw [if_neg (by simp)]
              simp
        simp only
        generalize (if item.isFunctionCallOutput = true then
          s.openCalls.filter (fun c => decide (c ≠ item.callId)) else s.openCalls) = openCalls
          at hcalls ⊢
        split
        · rename_i hnone
          have hsettled : Settled (items ++ [item]) := by
            rw [hclosed]
            intro callId hin
            have hmem := (hcalls callId).mpr hin
            rw [hnone] at hmem
            exact absurd hmem List.not_mem_nil
          have hflush : (ChunkState.mk s.chunks (s.pending ++ [item]) []).flushPending estimate
              model = { chunks := s.chunks ++ [chunkOf estimate model (s.pending ++ [item])] } := by
            rw [ChunkState.flushPending, if_neg (by simp)]
            rfl
          rw [hnone, hflush]
          refine h.concat ?_ ⟨fun _ => hsettled, fun _ => rfl⟩ (.inr ⟨rfl, rfl⟩)
          intro callId
          exact ⟨fun hmem => absurd hmem List.not_mem_nil,
            fun hin => absurd hin (hsettled.1 callId)⟩
        · rename_i hsome
          refine h.concat hcalls ⟨fun hnil => absurd hnil (by simp), fun hs => ?_⟩ (.inl ⟨rfl, rfl⟩)
          exact absurd (List.eq_nil_iff_forall_not_mem.mpr
            (fun callId hmem => hs.1 callId ((hcalls callId).mp hmem))) hsome
      · rename_i hpending
        have hpending : s.pending = [] := Decidable.not_not.mp hpending
        have hnone : ∀ callId, ¬ OpenIn callId (items ++ [item]) :=
          fun callId hin => hpendingOpen hpending callId ((hopen callId).mp hin).1
        refine h.concat ?_ ⟨fun _ => hclosed.mpr hnone, fun _ => hpending⟩
          (.inr ⟨by simp [hpending, chunkOf], hpending⟩)
        intro callId
        refine ⟨fun hmem => absurd ((h.opened callId).mp hmem) (hpendingOpen hpending callId),
          fun hin => absurd hin (hnone callId)⟩

/-- **Run.** -/
theorem chunked_foldl (estimate : TokenEstimator) (model : String) (items : List InputItem) :
    Chunked estimate model items (items.foldl (ChunkState.add estimate model) {}) := by
  induction items using List.reverseRecOn with
  | nil => exact chunked_empty
  | append_singleton items item ih =>
      rw [List.foldl_append]
      exact ih.add item

/-- The chunks hold the items, in order. -/
theorem itemsOf_buildChunks (estimate : TokenEstimator) (model : String)
    (items : List InputItem) :
    itemsOf (buildChunks estimate items model) = items := by
  have h := chunked_foldl estimate model items
  refine Eq.trans ?_ h.collected
  rw [buildChunks, ChunkState.flushPending]
  split
  · rename_i hpending
    rw [hpending, List.append_nil]
  · rw [itemsOf_append, itemsOf_singleton]

theorem estimated_buildChunks (estimate : TokenEstimator) (model : String)
    (items : List InputItem) :
    Estimated estimate model (buildChunks estimate items model) := by
  have h := chunked_foldl estimate model items
  rw [buildChunks, ChunkState.flushPending]
  split
  · exact h.estimated
  · rename_i hpending
    intro chunk hmem
    rcases List.mem_append.mp hmem with hold | hnew
    · exact h.estimated chunk hold
    · obtain rfl := List.mem_singleton.mp hnew
      exact ⟨hpending, rfl⟩

/-- **The last chunk** is what is behind the longest settled prefix. -/
theorem buildChunks_last (estimate : TokenEstimator) (model : String) {items : List InputItem}
    (hne : items ≠ []) :
    ∃ before settled, LongestSettled items settled ∧ itemsOf before = settled ∧
      buildChunks estimate items model =
        before ++ [chunkOf estimate model (items.drop settled.length)] := by
  obtain ⟨before, chunk, hchunks, hlongest⟩ :=
    (chunked_foldl estimate model items).last hne
  have hbuild : buildChunks estimate items model = before ++ [chunk] := hchunks
  have hitems := itemsOf_buildChunks estimate model items
  have hchunk := (estimated_buildChunks estimate model items chunk (by rw [hbuild]; simp)).2
  rw [hbuild, itemsOf_append, itemsOf_singleton] at hitems
  refine ⟨before, itemsOf before, hlongest, rfl, ?_⟩
  have hdrop : items.drop (itemsOf before).length = chunk.items := by
    rw [← hitems, List.drop_left]
  rw [hbuild, hdrop, ← hchunk]

end Workbench
