import CyberWorkbench.LiveProjection

/-!
# What a subscriber is owed

Every persistable event published while a subscriber is attached has to reach
it, itself or a later version of the same timeline item.  A queue that is not
rebased sees to that by itself.  A rebased queue is as good as the projection,
and the projection knows nothing from before the last `run_state`, and keeps
an updated item in its old place.

`subscriber_completeness`: nothing else goes wrong.  As long as every rebase
finds undelivered only what the projection still covers, nothing is lost, and
as long as it finds the projection in publication order, what is delivered is
in that order too.  `rebase_forgets_last_run` replays the loss.
-/

namespace Workbench.LiveBus

open StepMachine

variable {Args : Type}

/-! ### The property and its conditions -/

/-- `y` is `x`, or a later event with the same timeline key. -/
def Covers (y x : Published Args) : Prop :=
  y = x ∨ x.number < y.number ∧ timelineItemKey y.event = timelineItemKey x.event ∧
    timelineItemKey x.event ≠ none

theorem Covers.trans {x y z : Published Args} (h : Covers z y) (h' : Covers y x) : Covers z x := by
  rcases h with rfl | ⟨hlt, hkey, _⟩
  · exact h'
  · rcases h' with rfl | ⟨hlt', hkey', hsome'⟩
    · exact .inr ⟨hlt, hkey, by assumption⟩
    · exact .inr ⟨by omega, hkey.trans hkey', hsome'⟩

theorem Covers.number_le {x y : Published Args} (h : Covers y x) : x.number ≤ y.number := by
  rcases h with rfl | ⟨hlt, -⟩
  · exact Nat.le_refl _
  · omega

/-- The subscriber is owed the event. -/
def Owed (s : BusState Args) (subscriber : Subscriber Args) (x : Published Args) : Prop :=
  x ∈ s.log ∧ subscriber.attachedAt ≤ x.number

/-- Everything owed is delivered or waiting, itself or a later version. -/
def Complete (s : BusState Args) : Prop :=
  ∀ subscriber ∈ s.subscribers, ∀ x, Owed s subscriber x →
    ∃ y ∈ subscriber.delivered ++ subscriber.queue, Covers y x

/-- The same with what is delivered in publication order. -/
def CompleteInOrder (s : BusState Args) : Prop :=
  ∀ subscriber ∈ s.subscribers, ∃ taken : List (Published Args),
    taken.Sublist (subscriber.delivered ++ subscriber.queue) ∧
      taken.Pairwise (fun x y => x.number < y.number) ∧
        ∀ x, Owed s subscriber x → ∃ y ∈ taken, Covers y x

/-- The persistable events since the last `run_state`, with the event about to
be published. -/
def publishedSinceReset (s : BusState Args) (event : AgentEvent Args) : List (Published Args) :=
  match event with
  | .runState true => []
  | _ => s.log.filter (fun x => decide (s.resetAt ≤ x.number)) ++
      (if isPersistable event then [⟨s.count, event⟩] else [])

/-- Some queue has reached the threshold when an event is published. -/
def Rebases (threshold : Nat) (subscriber : Subscriber Args) : Prop :=
  threshold ≤ subscriber.queue.length

instance (threshold : Nat) (subscriber : Subscriber Args) :
    Decidable (Rebases threshold subscriber) := inferInstanceAs (Decidable (_ ≤ _))

/-- A rebase finds waiting only what the run the projection covers has
published, or published again. -/
def RebaseCovered (threshold : Nat) (s : BusState Args) (a : BusAction Args)
    (_ : BusState Args) : Prop :=
  match a with
  | .publish event => ∀ subscriber ∈ s.subscribers, Rebases threshold subscriber →
      ∀ y ∈ subscriber.queue, Owed s subscriber y →
        ∃ z ∈ publishedSinceReset s event, Covers z y
  | _ => True

/-- A rebase finds the projection's items in publication order. -/
def RebaseInOrder (threshold : Nat) (s : BusState Args) (a : BusAction Args)
    (_ : BusState Args) : Prop :=
  match a with
  | .publish event => ∀ subscriber ∈ s.subscribers, Rebases threshold subscriber →
      ((projectionFor s ⟨s.count, event⟩).events.filter (fun x => isPersistable x.event)).Pairwise
        (fun x y => x.number < y.number)
  | _ => True

section Decidability

variable [DecidableEq Args]

instance (y x : Published Args) : Decidable (Covers y x) := inferInstanceAs (Decidable (_ ∨ _))

instance (s : BusState Args) (subscriber : Subscriber Args) (x : Published Args) :
    Decidable (Owed s subscriber x) := inferInstanceAs (Decidable (_ ∧ _))

instance (threshold : Nat) (s : BusState Args) (a : BusAction Args) (t : BusState Args) :
    Decidable (RebaseCovered threshold s a t) := by
  unfold RebaseCovered
  split <;> infer_instance

instance (threshold : Nat) (s : BusState Args) (a : BusAction Args) (t : BusState Args) :
    Decidable (RebaseInOrder threshold s a t) := by
  unfold RebaseInOrder
  split <;> infer_instance

end Decidability

/-! ### The projection -/

/-- An index points at an event with its key. -/
def IndexesOk (events : List (Published Args)) (indexes : Indexes) : Prop :=
  ∀ key index, indexes key = some index →
    ∃ item, events[index]? = some item ∧ indexedKey item.event = some key

theorem rebuildFrom_ok {all events : List (Published Args)} {index : Nat} {indexes : Indexes}
    (hdrop : all.drop index = events) (hok : IndexesOk all indexes) :
    IndexesOk all (rebuildFrom index indexes events) := by
  induction events generalizing index indexes with
  | nil => exact hok
  | cons item rest ih =>
      have hitem : all[index]? = some item := by
        rw [← List.head?_drop, hdrop]
        rfl
      have hrest : all.drop (index + 1) = rest := by
        rw [← List.tail_drop, hdrop]
        rfl
      unfold rebuildFrom
      split
      · exact ih hrest hok
      · rename_i key hkey
        refine ih hrest ?_
        intro k i hi
        unfold Indexes.set at hi
        split at hi
        · rename_i hk
          obtain rfl := Option.some.inj hi
          exact ⟨item, hitem, hk ▸ hkey⟩
        · exact hok k i hi

theorem rebuildIndexes_ok (events : List (Published Args)) :
    IndexesOk events (rebuildIndexes events) :=
  rebuildFrom_ok rfl (fun _ _ h => by cases h)

/-- The timeline key of the events with a projection key. -/
def ProjectionKey.itemKey : ProjectionKey → String
  | .segment .text segmentId _ nestedCallId => "text:" ++ nestedCallId ++ ":" ++ segmentId
  | .segment .thinking segmentId _ nestedCallId => "thinking:" ++ nestedCallId ++ ":" ++ segmentId
  | .toolCall callId _ nestedCallId => "tc:" ++ nestedCallId ++ ":" ++ callId
  | .toolResult callId _ nestedCallId => "tr:" ++ nestedCallId ++ ":" ++ callId
  | .subagent runId => "sa:" ++ runId

def ProjectionKey.isSegment : ProjectionKey → Bool
  | .segment _ _ _ _ => true
  | .toolCall _ _ _ | .toolResult _ _ _ | .subagent _ => false

/-- Events of one slot are versions of one timeline item. -/
theorem timelineItemKey_of_projectionKey {event : AgentEvent Args} {key : ProjectionKey}
    (h : projectionKey event = some key) : timelineItemKey event = some key.itemKey := by
  cases event with
  | runState running => cases h
  | done nestedCallId => cases h
  | content event nestedFor =>
      obtain ⟨createdAt, seq, agentName, nestedCallId, body⟩ := event
      cases body with
      | userMessage | turnBoundary | error => cases h
      | segment kind complete segmentId text =>
          obtain rfl := Option.some.inj h
          cases kind <;> rfl
      | toolCall | toolResult | subagentTask =>
          obtain rfl := Option.some.inj h
          rfl

/-- In a slot, only deltas are not persistable. -/
theorem isPersistable_of_projectionKey {event : AgentEvent Args} {key : ProjectionKey}
    (h : projectionKey event = some key) :
    isPersistable event = (!key.isSegment || isCompleteSegment event) := by
  cases event with
  | runState running => cases h
  | done nestedCallId => cases h
  | content event nestedFor =>
      obtain ⟨createdAt, seq, agentName, nestedCallId, body⟩ := event
      cases body with
      | userMessage | turnBoundary | error => cases h
      | segment | toolCall | toolResult | subagentTask =>
          obtain rfl := Option.some.inj h
          rfl

/-- An indexed event is no completed segment; so what takes its slot is
persistable if it is. -/
theorem isPersistable_of_indexedKey {old new : AgentEvent Args} {key : ProjectionKey}
    (hold : indexedKey old = some key) (hnew : projectionKey new = some key)
    (hpersistable : isPersistable old = true) :
    projectionKey old = some key ∧ isPersistable new = true := by
  unfold indexedKey at hold
  split at hold
  · cases hold
  rename_i hopen
  rw [isPersistable_of_projectionKey hold] at hpersistable
  rw [isPersistable_of_projectionKey hnew]
  simp only [Bool.or_eq_true] at hpersistable ⊢
  exact ⟨hold, .inl (hpersistable.resolve_right hopen)⟩

/-- What `apply` does to the events: the new one may take the slot of another
version of its item, persistable if that was; nothing else goes but a
`run_state`. -/
structure Applied (p p' : LiveEventProjection Args) (item : Published Args) : Prop where
  indexes : IndexesOk p'.events p'.indexes
  old : ∀ x ∈ p'.events, x = item ∨ x ∈ p.events
  added : isPersistable item.event = true → item ∈ p'.events
  kept : ∀ x ∈ p.events, isPersistable x.event = true → x ∈ p'.events ∨
    (isPersistable item.event = true ∧ item ∈ p'.events ∧
      timelineItemKey item.event = timelineItemKey x.event ∧ timelineItemKey x.event ≠ none)

theorem indexesOk_append {events : List (Published Args)} {indexes : Indexes}
    (h : IndexesOk events indexes) (item : Published Args) :
    IndexesOk (events ++ [item]) indexes := by
  intro key index hindex
  obtain ⟨old, hold, hkey⟩ := h key index hindex
  exact ⟨old, by rw [List.getElem?_append_left (List.getElem?_eq_some_iff.mp hold).1, hold], hkey⟩

theorem applied_append {p : LiveEventProjection Args} (h : IndexesOk p.events p.indexes)
    (item : Published Args) : Applied p { p with events := p.events ++ [item] } item where
  indexes := indexesOk_append h item
  old := by
    intro x hx
    rcases List.mem_append.mp hx with hx | hx
    · exact .inr hx
    · exact .inl (List.mem_singleton.mp hx)
  added := fun _ => by simp
  kept := fun x hx _ => .inl (List.mem_append_left _ hx)

/-- The events once a slot was taken. -/
theorem applied_set {p p' : LiveEventProjection Args} {item old : Published Args}
    {key : ProjectionKey} {index : Nat} (hevents : p'.events = p.events.set index item)
    (hindexes : IndexesOk p'.events p'.indexes) (hat : p.events[index]? = some old)
    (hold : indexedKey old.event = some key) (hnew : projectionKey item.event = some key) :
    Applied p p' item where
  indexes := hindexes
  old := by
    intro x hx
    rw [hevents] at hx
    exact (List.mem_or_eq_of_mem_set hx).symm
  added := fun _ => by
    rw [hevents]
    exact List.mem_set (List.getElem?_eq_some_iff.mp hat).1 item
  kept := by
    intro x hx hpersistable
    rw [hevents]
    by_cases hxold : x = old
    · subst hxold
      obtain ⟨hkey, hper⟩ := isPersistable_of_indexedKey hold hnew hpersistable
      refine .inr ⟨hper, List.mem_set (List.getElem?_eq_some_iff.mp hat).1 item, ?_, ?_⟩
      · rw [timelineItemKey_of_projectionKey hkey, timelineItemKey_of_projectionKey hnew]
      · rw [timelineItemKey_of_projectionKey hkey]
        exact Option.some_ne_none _
    · exact .inl (mem_set_of_ne hat hx hxold)

theorem indexesOk_set {events : List (Published Args)} {indexes : Indexes}
    (h : IndexesOk events indexes) {index : Nat} {item old : Published Args}
    {key : ProjectionKey} (hat : events[index]? = some old)
    (hold : indexedKey old.event = some key) (hitem : indexedKey item.event = some key) :
    IndexesOk (events.set index item) indexes := by
  intro k i hi
  obtain ⟨other, hother, hkey⟩ := h k i hi
  by_cases hii : index = i
  · subst hii
    rw [hat] at hother
    obtain rfl := Option.some.inj hother
    have hk : k = key := Option.some.inj (hkey.symm.trans hold)
    exact ⟨item, List.getElem?_set_self (List.getElem?_eq_some_iff.mp hat).1, hk ▸ hitem⟩
  · exact ⟨other, by rw [List.getElem?_set_ne hii, hother], hkey⟩

theorem upsert_applied {p : LiveEventProjection Args} (h : IndexesOk p.events p.indexes)
    {key : ProjectionKey} {item : Published Args} (hkey : projectionKey item.event = some key)
    (hopen : isCompleteSegment item.event = false) : Applied p (p.upsert key item) item := by
  have hindexed : indexedKey item.event = some key := by simp [indexedKey, hopen, hkey]
  unfold LiveEventProjection.upsert
  split
  · have happended := applied_append h item
    refine ⟨?_, happended.old, happended.added, happended.kept⟩
    intro k index hi
    by_cases hk : k = key
    · have hlast : index = p.events.length := by simpa [Indexes.set, hk] using hi.symm
      exact ⟨item, by simp [hlast], hk ▸ hindexed⟩
    · exact happended.indexes k index (by simpa [Indexes.set, hk] using hi)
  · rename_i index hindex
    obtain ⟨old, hat, hold⟩ := h key index hindex
    exact applied_set rfl (indexesOk_set h hat hold hindexed) hat hold hkey

theorem completeSegment_applied {p : LiveEventProjection Args}
    (h : IndexesOk p.events p.indexes) {key : ProjectionKey} {item : Published Args}
    (hkey : projectionKey item.event = some key) :
    Applied p (p.completeSegment key item) item := by
  unfold LiveEventProjection.completeSegment
  split
  · exact applied_append h item
  · rename_i index hindex
    obtain ⟨old, hat, hold⟩ := h key index hindex
    exact applied_set rfl (rebuildIndexes_ok _) hat hold hkey

theorem apply_applied {p : LiveEventProjection Args} (h : IndexesOk p.events p.indexes)
    (item : Published Args) : Applied p (p.apply item) item := by
  obtain ⟨number, event⟩ := item
  cases event with
  | runState running =>
      refine ⟨rebuildIndexes_ok _, ?_, fun hper => absurd hper Bool.false_ne_true, ?_⟩
      · intro x hx
        rcases List.mem_cons.mp hx with hx | hx
        · exact .inl hx
        · exact .inr (List.mem_filter.mp hx).1
      · intro x hx hper
        refine .inl (List.mem_cons_of_mem _ (List.mem_filter.mpr ⟨hx, ?_⟩))
        obtain ⟨n, event⟩ := x
        cases event with
        | runState _ => cases hper
        | content _ _ | done _ => rfl
  | done nestedCallId =>
      unfold LiveEventProjection.apply
      simp only
      split
      · exact applied_append h _
      · exact ⟨h, fun x hx => .inr hx, fun hper => absurd hper Bool.false_ne_true,
          fun x hx _ => .inl hx⟩
  | content event nestedFor =>
      unfold LiveEventProjection.apply
      simp only
      split
      · exact applied_append h _
      · rename_i key hkey
        split
        · exact completeSegment_applied h hkey
        · rename_i hopen
          exact upsert_applied h hkey (Bool.eq_false_iff.mpr hopen)

/-! ### The invariant of the bus -/

/-- What holds of every bus.  `log` are publications, in order; what the
projection and the queues hold was published; and the projection covers all
that was published since its reset. -/
structure BusInv (s : BusState Args) : Prop where
  logged : ∀ x ∈ s.log, x.number < s.count ∧ isPersistable x.event = true
  indexes : IndexesOk s.projection.events s.projection.indexes
  projected : ∀ x ∈ s.projection.events, isPersistable x.event = true → x ∈ s.log
  covered : ∀ x ∈ s.log, s.resetAt ≤ x.number →
    ∃ y ∈ s.projection.events, y ∈ s.log ∧ Covers y x
  attached : ∀ subscriber ∈ s.subscribers, subscriber.attachedAt ≤ s.count

/-- The log after a publication. -/
theorem mem_log_publish {threshold : Nat} {s : BusState Args} {event : AgentEvent Args}
    {x : Published Args} : x ∈ (publish threshold s event).log ↔
      x ∈ s.log ∨ (isPersistable event = true ∧ x = ⟨s.count, event⟩) := by
  unfold publish
  split
  · rename_i hper
    simp [hper]
  · rename_i hper
    simp [hper]

/-- What the queues may be rebased to covers what was published since the last
`run_state`. -/
theorem projectionFor_covers (threshold : Nat) {s : BusState Args} (hi : BusInv s)
    (event : AgentEvent Args) : ∀ x ∈ publishedSinceReset s event,
      ∃ y ∈ (projectionFor s ⟨s.count, event⟩).events, y ∈ (publish threshold s event).log ∧
        Covers y x := by
  intro x hx
  have hstart : event ≠ .runState true := by
    rintro rfl
    cases hx
  have happlied := apply_applied hi.indexes (⟨s.count, event⟩ : Published Args)
  have hprojection : projectionFor s ⟨s.count, event⟩ = s.projection.apply ⟨s.count, event⟩ := by
    unfold projectionFor
    split
    · rename_i h
      exact absurd h hstart
    · rfl
  have hx' : (x ∈ s.log ∧ s.resetAt ≤ x.number) ∨
      (isPersistable event = true ∧ x = ⟨s.count, event⟩) := by
    unfold publishedSinceReset at hx
    split at hx
    · cases hx
    · rcases List.mem_append.mp hx with hx | hx
      · exact .inl (by simpa using hx)
      · by_cases hper : isPersistable event = true
        · exact .inr ⟨hper, by simpa [hper] using hx⟩
        · simp [hper] at hx
  rw [hprojection]
  rcases hx' with ⟨hlog, hsince⟩ | ⟨hper, rfl⟩
  · obtain ⟨y, hy, hylog, hcovers⟩ := hi.covered x hlog hsince
    have hyper := (hi.logged y hylog).2
    rcases happlied.kept y hy hyper with hkept | ⟨hper, hin, hkey, hsome⟩
    · exact ⟨y, hkept, mem_log_publish.mpr (.inl hylog), hcovers⟩
    · refine ⟨_, hin, mem_log_publish.mpr (.inr ⟨hper, rfl⟩), Covers.trans (.inr ?_) hcovers⟩
      exact ⟨(hi.logged y hylog).1, hkey, hsome⟩
  · exact ⟨_, happlied.added hper, mem_log_publish.mpr (.inr ⟨hper, rfl⟩), .inl rfl⟩

/-- Control frames are not persistable. -/
theorem isPersistable_of_isRunState {item : Published Args} (h : isRunState item = true) :
    isPersistable item.event = false := by
  obtain ⟨number, event⟩ := item
  cases event with
  | runState _ => rfl
  | content _ _ | done _ => cases h

/-- Without a `run_state` the projection is the one the queues may be rebased
to, and what was published since the reset is what is logged since then. -/
theorem publish_content (threshold : Nat) {s : BusState Args} {event : AgentEvent Args}
    (h : isRunState (⟨s.count, event⟩ : Published Args) = false) :
    (publish threshold s event).projection = s.projection.apply ⟨s.count, event⟩ ∧
      (publish threshold s event).resetAt = s.resetAt ∧
        projectionFor s ⟨s.count, event⟩ = s.projection.apply ⟨s.count, event⟩ ∧
          ∀ x ∈ (publish threshold s event).log, s.resetAt ≤ x.number →
            x ∈ publishedSinceReset s event := by
  have hfor : projectionFor s ⟨s.count, event⟩ = s.projection.apply ⟨s.count, event⟩ := by
    cases event with
    | runState _ => cases h
    | content _ _ | done _ => rfl
  refine ⟨by simp [publish, h, hfor], by simp [publish, h], hfor, ?_⟩
  intro x hx hsince
  have hmem : x ∈ s.log.filter (fun x => decide (s.resetAt ≤ x.number)) ++
      (if isPersistable event then [⟨s.count, event⟩] else []) := by
    rcases mem_log_publish.mp hx with hlog | ⟨hper, rfl⟩
    · exact List.mem_append_left _ (List.mem_filter.mpr ⟨hlog, decide_eq_true hsince⟩)
    · simp [hper]
  cases event with
  | runState _ => cases h
  | content _ _ | done _ => exact hmem

theorem busInv_publish (threshold : Nat) {s : BusState Args} (hi : BusInv s)
    (event : AgentEvent Args) : BusInv (publish threshold s event) := by
  have hlogged : ∀ x ∈ (publish threshold s event).log,
      x.number < s.count + 1 ∧ isPersistable x.event = true := by
    intro x hx
    rcases mem_log_publish.mp hx with hlog | ⟨hper, rfl⟩
    · exact ⟨Nat.lt_succ_of_lt (hi.logged x hlog).1, (hi.logged x hlog).2⟩
    · exact ⟨Nat.lt_succ_self _, hper⟩
  have hattached : ∀ subscriber ∈ (publish threshold s event).subscribers,
      subscriber.attachedAt ≤ s.count + 1 := by
    intro subscriber hsub
    obtain ⟨old, hold, rfl⟩ := List.mem_map.mp hsub
    have hle := hi.attached old hold
    unfold enqueueOrRebase
    split
    all_goals
      show old.attachedAt ≤ s.count + 1
      omega
  cases hrun : isRunState (⟨s.count, event⟩ : Published Args) with
  | true =>
      have hprojection : (publish threshold s event).projection = .reset ⟨s.count, event⟩ := by
        simp [publish, hrun]
      have hreset : (publish threshold s event).resetAt = s.count := by simp [publish, hrun]
      have hper := isPersistable_of_isRunState hrun
      refine ⟨hlogged, ?_, ?_, ?_, hattached⟩
      · rw [hprojection]
        intro key index h
        cases h
      · rw [hprojection]
        intro x hx hxper
        obtain rfl := List.mem_singleton.mp hx
        rw [hper] at hxper
        cases hxper
      · intro x hx hsince
        rw [hreset] at hsince
        rcases mem_log_publish.mp hx with hlog | ⟨hxper, -⟩
        · have := (hi.logged x hlog).1
          omega
        · exact absurd (hper.symm.trans hxper) Bool.false_ne_true
  | false =>
      obtain ⟨hprojection, hreset, hfor, hsinceReset⟩ := publish_content threshold hrun
      have happlied := apply_applied hi.indexes (⟨s.count, event⟩ : Published Args)
      refine ⟨hlogged, ?_, ?_, ?_, hattached⟩
      · rw [hprojection]
        exact happlied.indexes
      · rw [hprojection]
        intro x hx hper
        rcases happlied.old x hx with rfl | hold
        · exact mem_log_publish.mpr (.inr ⟨hper, rfl⟩)
        · exact mem_log_publish.mpr (.inl (hi.projected x hold hper))
      · intro x hx hsince
        rw [hreset] at hsince
        rw [hprojection, ← hfor]
        exact projectionFor_covers threshold hi event x (hsinceReset x hx hsince)

theorem busInv_step {threshold : Nat} {s t : BusState Args} {a : BusAction Args} (hi : BusInv s)
    (h : busStep threshold s a = some t) : BusInv t := by
  cases a with
  | publish event =>
      obtain rfl := Option.some.inj h
      exact busInv_publish threshold hi event
  | subscribe included =>
      obtain rfl := Option.some.inj h
      refine ⟨hi.logged, hi.indexes, hi.projected, hi.covered, ?_⟩
      intro subscriber hsub
      rcases List.mem_append.mp hsub with hsub | hsub
      · exact hi.attached subscriber hsub
      · obtain rfl := List.mem_singleton.mp hsub
        exact Nat.le_refl _
  | consume i =>
      simp only [busStep] at h
      split at h
      · cases h
      rename_i old hold
      obtain rfl := Option.some.inj h
      refine ⟨hi.logged, hi.indexes, hi.projected, hi.covered, ?_⟩
      intro subscriber hsub
      rcases List.mem_or_eq_of_mem_set hsub with hsub | rfl
      · exact hi.attached subscriber hsub
      · have hle := hi.attached old (List.mem_of_getElem? hold)
        unfold consume
        split
        all_goals exact hle
  | unsubscribe i =>
      obtain rfl := Option.some.inj h
      exact ⟨hi.logged, hi.indexes, hi.projected, hi.covered,
        fun subscriber hsub => hi.attached subscriber (List.mem_of_mem_eraseIdx hsub)⟩

theorem busInv_start {threshold : Nat} {s : BusState Args}
    (h : (busMachine Args threshold).Start s) : BusInv s := by
  obtain ⟨hevents, hindexes, hsubs, -, -, hlog⟩ := h
  refine ⟨by simp [hlog], ?_, by simp [hevents], by simp [hlog], by simp [hsubs]⟩
  intro key index hi
  rw [hindexes key] at hi
  cases hi

/-! ### Subscribers -/

/-- The persistable events of the projection are in the rebased queue, in
order. -/
theorem persistable_sublist_rebased (projection : LiveEventProjection Args)
    (item : Published Args) :
    (projection.events.filter (fun x => isPersistable x.event)).Sublist
      (rebased projection item) := by
  unfold rebased
  split
  · have hsame : projection.events.filter (fun x => isPersistable x.event) =
        (projection.events.filter (fun x => !isRunState x)).filter
          (fun x => isPersistable x.event) := by
      rw [List.filter_filter]
      refine List.filter_congr ?_
      intro x _
      cases hrun : isRunState x with
      | false => simp
      | true => simp [isPersistable_of_isRunState hrun]
    rw [hsame]
    exact List.filter_sublist.trans (List.sublist_append_left _ _)
  · exact List.filter_sublist

/-- After a rebase, whatever since the reset is covered in the queue. -/
theorem rebased_covers (threshold : Nat) {s : BusState Args} (hi : BusInv s)
    {event : AgentEvent Args} {x z : Published Args} (hz : z ∈ publishedSinceReset s event)
    (hcovers : Covers z x) :
    ∃ y ∈ (projectionFor s ⟨s.count, event⟩).events.filter (fun y => isPersistable y.event),
      y ∈ (publish threshold s event).log ∧ Covers y x := by
  obtain ⟨y, hy, hlog, hyz⟩ := projectionFor_covers threshold hi event z hz
  have hper := ((busInv_publish threshold hi event).logged y hlog).2
  exact ⟨y, List.mem_filter.mpr ⟨hy, hper⟩, hlog, hyz.trans hcovers⟩

/-- The new event is one published since the reset. -/
theorem mem_publishedSinceReset {s : BusState Args} {event : AgentEvent Args}
    (hper : isPersistable event = true) : ⟨s.count, event⟩ ∈ publishedSinceReset s event := by
  have hmem : (⟨s.count, event⟩ : Published Args) ∈
      s.log.filter (fun x => decide (s.resetAt ≤ x.number)) ++
        (if isPersistable event then [⟨s.count, event⟩] else []) := by simp [hper]
  cases event with
  | runState _ => cases hper
  | content _ _ | done _ => exact hmem

/-- What a subscriber is owed after a publication. -/
theorem owed_publish {threshold : Nat} {s : BusState Args} {event : AgentEvent Args}
    {old : Subscriber Args} {item x : Published Args}
    {projection : LiveEventProjection Args}
    (h : Owed (publish threshold s event) (enqueueOrRebase threshold projection item old) x) :
    Owed s old x ∨ (isPersistable event = true ∧ x = ⟨s.count, event⟩) := by
  obtain ⟨hlog, hattached⟩ := h
  have hsame : (enqueueOrRebase threshold projection item old).attachedAt = old.attachedAt := by
    unfold enqueueOrRebase
    split <;> rfl
  rw [hsame] at hattached
  exact (mem_log_publish.mp hlog).imp (fun hold => ⟨hold, hattached⟩) id

/-- Everything owed is covered by a persistable event, delivered or waiting. -/
def CompleteInv (s : BusState Args) : Prop :=
  ∀ subscriber ∈ s.subscribers, ∀ x, Owed s subscriber x →
    ∃ y ∈ subscriber.delivered ++ subscriber.queue, y ∈ s.log ∧ Covers y x

theorem completeInv_publish {threshold : Nat} {s : BusState Args} (hi : BusInv s)
    (hc : CompleteInv s) (event : AgentEvent Args)
    (hcover : RebaseCovered threshold s (.publish event) s) :
    CompleteInv (publish threshold s event) := by
  intro subscriber hsub x howed
  obtain ⟨old, hold, rfl⟩ := List.mem_map.mp hsub
  have hlogged : ∀ {y}, y ∈ s.log → y ∈ (publish threshold s event).log :=
    fun hy => mem_log_publish.mpr (.inl hy)
  by_cases hlen : old.queue.length < threshold
  · simp only [enqueueOrRebase, hlen, if_true]
    rcases owed_publish howed with howed | ⟨hper, rfl⟩
    · obtain ⟨y, hy, hlog, hcovers⟩ := hc old hold x howed
      exact ⟨y, by simpa using Or.imp_right Or.inl (List.mem_append.mp hy), hlogged hlog, hcovers⟩
    · exact ⟨_, by simp, mem_log_publish.mpr (.inr ⟨hper, rfl⟩), .inl rfl⟩
  · simp only [enqueueOrRebase, hlen, if_false]
    have fresh : ∀ {z}, z ∈ publishedSinceReset s event → Covers z x →
        ∃ y ∈ old.delivered ++ rebased (projectionFor s ⟨s.count, event⟩) ⟨s.count, event⟩,
          y ∈ (publish threshold s event).log ∧ Covers y x := by
      intro z hz hzx
      obtain ⟨y, hy, hlog, hyx⟩ := rebased_covers threshold hi hz hzx
      exact ⟨y, List.mem_append_right _ ((persistable_sublist_rebased _ _).subset hy), hlog, hyx⟩
    rcases owed_publish howed with howed | ⟨hper, rfl⟩
    · obtain ⟨y, hy, hlog, hcovers⟩ := hc old hold x howed
      rcases List.mem_append.mp hy with hy | hy
      · exact ⟨y, List.mem_append_left _ hy, hlogged hlog, hcovers⟩
      · have howes : Owed s old y := ⟨hlog, Nat.le_trans howed.2 hcovers.number_le⟩
        obtain ⟨z, hz, hzy⟩ := hcover old hold (Nat.le_of_not_lt hlen) y hy howes
        exact fresh hz (hzy.trans hcovers)
    · exact fresh (mem_publishedSinceReset hper) (.inl rfl)

/-- Consuming moves an event; what is delivered or waiting stays the same. -/
theorem consume_append (subscriber : Subscriber Args) :
    (consume subscriber).delivered ++ (consume subscriber).queue =
      subscriber.delivered ++ subscriber.queue ∧
        (consume subscriber).attachedAt = subscriber.attachedAt := by
  unfold consume
  split
  · exact ⟨rfl, rfl⟩
  · rename_i hqueue
    exact ⟨by simp [hqueue], rfl⟩

theorem completeInv_step {threshold : Nat} {s t : BusState Args} {a : BusAction Args}
    (hi : BusInv s) (hc : CompleteInv s) (hcover : RebaseCovered threshold s a t)
    (h : busStep threshold s a = some t) : CompleteInv t := by
  cases a with
  | publish event =>
      obtain rfl := Option.some.inj h
      exact completeInv_publish hi hc event hcover
  | subscribe included =>
      obtain rfl := Option.some.inj h
      intro subscriber hsub x howed
      rcases List.mem_append.mp hsub with hsub | hsub
      · exact hc subscriber hsub x howed
      · -- nothing is owed yet
        obtain rfl := List.mem_singleton.mp hsub
        have hlt := (hi.logged x howed.1).1
        have hle := howed.2
        simp only at hle
        omega
  | consume i =>
      simp only [busStep] at h
      split at h
      · cases h
      rename_i old hold
      obtain rfl := Option.some.inj h
      intro subscriber hsub x howed
      rcases List.mem_or_eq_of_mem_set hsub with hsub | rfl
      · exact hc subscriber hsub x howed
      · obtain ⟨happend, hattached⟩ := consume_append old
        rw [happend]
        exact hc old (List.mem_of_getElem? hold) x ⟨howed.1, hattached ▸ howed.2⟩
  | unsubscribe i =>
      obtain rfl := Option.some.inj h
      intro subscriber hsub x howed
      exact hc subscriber (List.mem_of_mem_eraseIdx hsub) x howed

/-! ### In order -/

/-- Publication order. -/
def InOrder (events : List (Published Args)) : Prop :=
  events.Pairwise (fun x y => x.number < y.number)

/-- A choice among what is delivered and among what waits, in publication
order, covers everything owed. -/
structure Chosen (s : BusState Args) (subscriber : Subscriber Args)
    (taken waiting : List (Published Args)) : Prop where
  ofDelivered : taken.Sublist subscriber.delivered
  ofQueue : waiting.Sublist subscriber.queue
  order : InOrder (taken ++ waiting)
  logged : ∀ y ∈ taken ++ waiting, y ∈ s.log
  covers : ∀ x, Owed s subscriber x → ∃ y ∈ taken ++ waiting, Covers y x

theorem Chosen.sameLog {s t : BusState Args} {subscriber : Subscriber Args}
    {taken waiting : List (Published Args)} (hc : Chosen s subscriber taken waiting)
    (hlog : t.log = s.log) : Chosen t subscriber taken waiting :=
  ⟨hc.ofDelivered, hc.ofQueue, hc.order, fun y hy => hlog ▸ hc.logged y hy,
    fun x hx => hc.covers x ⟨hlog ▸ hx.1, hx.2⟩⟩

def InOrderInv (s : BusState Args) : Prop :=
  ∀ subscriber ∈ s.subscribers, ∃ taken waiting, Chosen s subscriber taken waiting

/-- The new event goes to the end of the choice. -/
theorem Chosen.enqueue {threshold : Nat} {s : BusState Args} (hi : BusInv s)
    {old : Subscriber Args} {taken waiting : List (Published Args)}
    (hc : Chosen s old taken waiting) (event : AgentEvent Args)
    (projection : LiveEventProjection Args) (hlen : old.queue.length < threshold) :
    Chosen (publish threshold s event)
      (enqueueOrRebase threshold projection ⟨s.count, event⟩ old) taken
      (waiting ++ if isPersistable event then [⟨s.count, event⟩] else []) := by
  have howed : ∀ x, Owed (publish threshold s event)
      (enqueueOrRebase threshold projection ⟨s.count, event⟩ old) x →
        Owed s old x ∨ (isPersistable event = true ∧ x = ⟨s.count, event⟩) :=
    fun _ => owed_publish
  simp only [enqueueOrRebase, hlen, if_true] at howed ⊢
  have hsmall : ∀ y ∈ taken ++ waiting, y.number < s.count :=
    fun y hy => (hi.logged y (hc.logged y hy)).1
  cases hper : isPersistable event with
  | false =>
      simp only [Bool.false_eq_true, if_false, List.append_nil]
      refine ⟨hc.ofDelivered, hc.ofQueue.trans (List.sublist_append_left _ _), hc.order, ?_, ?_⟩
      · exact fun y hy => mem_log_publish.mpr (.inl (hc.logged y hy))
      · intro x hx
        rcases howed x hx with hx | ⟨hyes, -⟩
        · exact hc.covers x hx
        · rw [hper] at hyes
          cases hyes
  | true =>
      simp only [if_true]
      refine ⟨hc.ofDelivered, hc.ofQueue.append (List.Sublist.refl _), ?_, ?_, ?_⟩
      · rw [← List.append_assoc]
        refine List.pairwise_append.mpr ⟨hc.order, List.pairwise_singleton _ _, ?_⟩
        intro y hy z hz
        obtain rfl := List.mem_singleton.mp hz
        exact hsmall y hy
      · intro y hy
        rw [← List.append_assoc] at hy
        rcases List.mem_append.mp hy with hy | hy
        · exact mem_log_publish.mpr (.inl (hc.logged y hy))
        · exact mem_log_publish.mpr (.inr ⟨hper, List.mem_singleton.mp hy⟩)
      · intro x hx
        rw [← List.append_assoc]
        rcases howed x hx with hx | ⟨-, rfl⟩
        · obtain ⟨y, hy, hcovers⟩ := hc.covers x hx
          exact ⟨y, List.mem_append_left _ hy, hcovers⟩
        · exact ⟨_, List.mem_append_right _ List.mem_cons_self, .inl rfl⟩

/-- What a rebase brings later than all that was taken. -/
def laterThan (taken : List (Published Args)) (events : List (Published Args)) :
    List (Published Args) :=
  (events.filter (fun y => isPersistable y.event)).filter
    (fun y => taken.all (fun t => decide (t.number < y.number)))

/-- A rebase replaces what was waiting. -/
theorem Chosen.rebase {threshold : Nat} {s : BusState Args} (hi : BusInv s)
    {old : Subscriber Args} (hold : old ∈ s.subscribers)
    {taken waiting : List (Published Args)} (hc : Chosen s old taken waiting)
    (event : AgentEvent Args) (hlen : ¬ old.queue.length < threshold)
    (hcover : RebaseCovered threshold s (.publish event) s)
    (horder : RebaseInOrder threshold s (.publish event) s) :
    Chosen (publish threshold s event)
      (enqueueOrRebase threshold (projectionFor s ⟨s.count, event⟩) ⟨s.count, event⟩ old) taken
      (laterThan taken (projectionFor s ⟨s.count, event⟩).events) := by
  have howed : ∀ x, Owed (publish threshold s event)
      (enqueueOrRebase threshold (projectionFor s ⟨s.count, event⟩) ⟨s.count, event⟩ old) x →
        Owed s old x ∨ (isPersistable event = true ∧ x = ⟨s.count, event⟩) :=
    fun _ => owed_publish
  simp only [enqueueOrRebase, hlen, if_false] at howed ⊢
  have hsorted := horder old hold (Nat.le_of_not_lt hlen)
  have hlater : ∀ {y}, y ∈ laterThan taken (projectionFor s ⟨s.count, event⟩).events →
      ∀ t ∈ taken, t.number < y.number := by
    intro y hy t ht
    have hall := (List.mem_filter.mp hy).2
    exact of_decide_eq_true (List.all_eq_true.mp hall t ht)
  -- what is published since the reset and is later than all that was taken
  have fresh : ∀ {x z}, z ∈ publishedSinceReset s event → Covers z x →
      (∀ t ∈ taken, t.number < z.number) →
        ∃ y ∈ taken ++ laterThan taken (projectionFor s ⟨s.count, event⟩).events, Covers y x := by
    intro x z hz hzx hzlater
    obtain ⟨y, hy, -, hyz⟩ := rebased_covers threshold hi hz (.inl rfl)
    refine ⟨y, List.mem_append_right _ (List.mem_filter.mpr ⟨hy, ?_⟩), hyz.trans hzx⟩
    refine List.all_eq_true.mpr (fun t ht => decide_eq_true ?_)
    exact Nat.lt_of_lt_of_le (hzlater t ht) hyz.number_le
  have happart := List.pairwise_append.mp hc.order
  refine ⟨hc.ofDelivered, List.filter_sublist.trans (persistable_sublist_rebased _ _), ?_, ?_, ?_⟩
  · exact List.pairwise_append.mpr
      ⟨happart.1, hsorted.sublist List.filter_sublist, fun t ht y hy => hlater hy t ht⟩
  · intro y hy
    rcases List.mem_append.mp hy with hy | hy
    · exact mem_log_publish.mpr (.inl (hc.logged y (List.mem_append_left _ hy)))
    · obtain ⟨hin, hper⟩ := List.mem_filter.mp (List.mem_filter.mp hy).1
      have happlied := apply_applied hi.indexes (⟨s.count, event⟩ : Published Args)
      unfold projectionFor at hin
      split at hin
      case h_1 hstart =>
        obtain rfl := List.mem_singleton.mp hin
        rw [show event = .runState true from hstart] at hper
        cases hper
      case h_2 =>
        rcases happlied.old y hin with rfl | hpast
        · exact mem_log_publish.mpr (.inr ⟨hper, rfl⟩)
        · exact mem_log_publish.mpr (.inl (hi.projected y hpast hper))
  · intro x hx
    rcases howed x hx with hx | ⟨hper, rfl⟩
    · obtain ⟨y, hy, hcovers⟩ := hc.covers x hx
      rcases List.mem_append.mp hy with hy | hy
      · exact ⟨y, List.mem_append_left _ hy, hcovers⟩
      · have howes : Owed s old y :=
          ⟨hc.logged y (List.mem_append_right _ hy), Nat.le_trans hx.2 hcovers.number_le⟩
        obtain ⟨z, hz, hzy⟩ := hcover old hold (Nat.le_of_not_lt hlen) y (hc.ofQueue.subset hy) howes
        refine fresh hz (hzy.trans hcovers) ?_
        intro t ht
        exact Nat.lt_of_lt_of_le (happart.2.2 t ht y hy) hzy.number_le
    · refine fresh (mem_publishedSinceReset hper) (.inl rfl) ?_
      intro t ht
      exact (hi.logged t (hc.logged t (List.mem_append_left _ ht))).1

/-- Consuming an event that was chosen makes it a delivered one. -/
theorem Chosen.consume {s : BusState Args} {old : Subscriber Args}
    {taken waiting : List (Published Args)} (hc : Chosen s old taken waiting) :
    ∃ taken' waiting', Chosen s (consume old) taken' waiting' := by
  obtain ⟨queue, delivered, attachedAt⟩ := old
  cases queue with
  | nil => exact ⟨taken, waiting, hc⟩
  | cons item rest =>
      have hwaiting : waiting.Sublist (item :: rest) := hc.ofQueue
      rcases List.sublist_cons_iff.mp hwaiting with hrest | ⟨left, rfl, hrest⟩
      · exact ⟨taken, waiting, hc.ofDelivered.trans (List.sublist_append_left _ _), hrest,
          hc.order, hc.logged, hc.covers⟩
      · have hsplit : (taken ++ [item]) ++ left = taken ++ item :: left := by simp
        refine ⟨taken ++ [item], left, hc.ofDelivered.append (List.Sublist.refl _), hrest, ?_, ?_, ?_⟩
        · rw [hsplit]
          exact hc.order
        · rw [hsplit]
          exact hc.logged
        · rw [hsplit]
          exact hc.covers

theorem inOrderInv_step {threshold : Nat} {s t : BusState Args} {a : BusAction Args}
    (hi : BusInv s) (hc : InOrderInv s) (hcover : RebaseCovered threshold s a t)
    (horder : RebaseInOrder threshold s a t) (h : busStep threshold s a = some t) :
    InOrderInv t := by
  cases a with
  | publish event =>
      obtain rfl := Option.some.inj h
      intro subscriber hsub
      obtain ⟨old, hold, rfl⟩ := List.mem_map.mp hsub
      obtain ⟨taken, waiting, hchosen⟩ := hc old hold
      by_cases hlen : old.queue.length < threshold
      · exact ⟨_, _, hchosen.enqueue hi event _ hlen⟩
      · exact ⟨_, _, hchosen.rebase hi hold event hlen hcover horder⟩
  | subscribe included =>
      obtain rfl := Option.some.inj h
      intro subscriber hsub
      rcases List.mem_append.mp hsub with hsub | hsub
      · obtain ⟨taken, waiting, hchosen⟩ := hc subscriber hsub
        exact ⟨taken, waiting, hchosen.sameLog rfl⟩
      · refine ⟨[], [], List.nil_sublist _, List.nil_sublist _, List.Pairwise.nil,
          fun y hy => absurd hy List.not_mem_nil, ?_⟩
        intro x hx
        obtain rfl := List.mem_singleton.mp hsub
        have hlt := (hi.logged x hx.1).1
        have hle := hx.2
        simp only at hle
        omega
  | consume i =>
      simp only [busStep] at h
      split at h
      · cases h
      rename_i old hold
      obtain rfl := Option.some.inj h
      intro subscriber hsub
      rcases List.mem_or_eq_of_mem_set hsub with hsub | rfl
      · obtain ⟨taken, waiting, hchosen⟩ := hc subscriber hsub
        exact ⟨taken, waiting, hchosen.sameLog rfl⟩
      · obtain ⟨taken, waiting, hchosen⟩ := hc old (List.mem_of_getElem? hold)
        obtain ⟨taken', waiting', hchosen'⟩ := hchosen.consume
        exact ⟨taken', waiting', hchosen'.sameLog rfl⟩
  | unsubscribe i =>
      obtain rfl := Option.some.inj h
      intro subscriber hsub
      obtain ⟨taken, waiting, hchosen⟩ := hc subscriber (List.mem_of_mem_eraseIdx hsub)
      exact ⟨taken, waiting, hchosen.sameLog rfl⟩

theorem InOrderInv.completeInOrder {s : BusState Args} (h : InOrderInv s) : CompleteInOrder s := by
  intro subscriber hsub
  obtain ⟨taken, waiting, hc⟩ := h subscriber hsub
  exact ⟨taken ++ waiting, hc.ofDelivered.append hc.ofQueue, hc.order, hc.covers⟩

theorem CompleteInv.complete {s : BusState Args} (h : CompleteInv s) : Complete s := by
  intro subscriber hsub x howed
  obtain ⟨y, hy, -, hcovers⟩ := h subscriber hsub x howed
  exact ⟨y, hy, hcovers⟩

/-- **Nothing is lost, and nothing out of order.**  As long as every rebase
finds waiting only what was published, or published again, since the last
`run_state`, every subscriber gets every persistable event or a later version.
As long as every rebase also finds the projection in publication order, it
gets them in that order. -/
theorem subscriber_completeness (threshold : Nat) {s t : BusState Args}
    {acts : List (BusAction Args)} (hstart : (busMachine Args threshold).Start s)
    (hcover : StepsMeet (busMachine Args threshold) (RebaseCovered threshold) s acts)
    (hrun : exec (busMachine Args threshold) s acts = some t) :
    Complete t ∧
      (StepsMeet (busMachine Args threshold) (RebaseInOrder threshold) s acts →
        CompleteInOrder t) := by
  have hnosubs : ∀ subscriber : Subscriber Args, subscriber ∉ s.subscribers := by
    simp [hstart.2.2.1]
  constructor
  · have hinv : BusInv t ∧ CompleteInv t :=
      exec_invariant (m := busMachine Args threshold) (I := fun s => BusInv s ∧ CompleteInv s)
        (fun s a t hi hcover hstep =>
          ⟨busInv_step hi.1 hstep, completeInv_step hi.1 hi.2 hcover hstep⟩)
        ⟨busInv_start hstart, fun subscriber hsub => absurd hsub (hnosubs subscriber)⟩ hcover hrun
    exact hinv.2.complete
  · intro horder
    have hinv : BusInv t ∧ InOrderInv t :=
      exec_invariant (m := busMachine Args threshold) (I := fun s => BusInv s ∧ InOrderInv s)
        (C := fun s a t => RebaseCovered threshold s a t ∧ RebaseInOrder threshold s a t)
        (fun s a t hi hok hstep =>
          ⟨busInv_step hi.1 hstep, inOrderInv_step hi.1 hi.2 hok.1 hok.2 hstep⟩)
        ⟨busInv_start hstart, fun subscriber hsub => absurd hsub (hnosubs subscriber)⟩
        (stepsMeet_and hcover horder) hrun
    exact hinv.2.completeInOrder

/-! ### Two runs -/

/-- A turn boundary. -/
def boundary : AgentEvent Unit := .content { seq := 1, body := .turnBoundary } ""

/-- A subscriber falls behind within a run, with room for two events. -/
def slowWithinRun : List (BusAction Unit) :=
  [.publish (.runState true), .subscribe (fun _ => true), .publish boundary, .publish boundary,
    .consume 0, .publish boundary]

theorem subscriber_completeness_rebased :
    ∃ t, exec (busMachine Unit 2) {} slowWithinRun = some t ∧
      t.subscribers.map (fun s => s.queue.map Published.number) = [[0, 1, 2, 3]] ∧
        CompleteInOrder t := by
  have hstart : (busMachine Unit 2).Start {} := ⟨rfl, fun _ => rfl, rfl, rfl, rfl, rfl⟩
  have hcover : StepsMeet (busMachine Unit 2) (RebaseCovered 2) {} slowWithinRun := by decide
  have horder : StepsMeet (busMachine Unit 2) (RebaseInOrder 2) {} slowWithinRun := by decide
  exact ⟨_, rfl, rfl, (subscriber_completeness 2 hstart hcover rfl).2 horder⟩

/-- A run of more events than a queue holds, and the start of the next. -/
def slowAcrossRuns : List (BusAction Unit) :=
  [.subscribe (fun _ => true), .publish (.runState true)] ++
    List.replicate 511 (.publish boundary) ++
    [.publish (.runState false), .publish (.runState true)]

/-- `n` turn boundaries, published one after the other from `start` on. -/
def boundaries (start n : Nat) : List (Published Unit) :=
  (List.range' start n).map (fun number => ⟨number, boundary⟩)

theorem publish_boundary {threshold : Nat} {s : BusState Unit} {subscriber : Subscriber Unit}
    (hsubs : s.subscribers = [subscriber]) (hlen : subscriber.queue.length < threshold) :
    publish threshold s boundary =
      { projection := { s.projection with
          events := s.projection.events ++ [⟨s.count, boundary⟩] }
        subscribers := [{ subscriber with queue := subscriber.queue ++ [⟨s.count, boundary⟩] }]
        count := s.count + 1
        resetAt := s.resetAt
        log := s.log ++ [⟨s.count, boundary⟩] } := by
  simp [publish, hsubs, enqueueOrRebase, hlen, isRunState, isPersistable, boundary, projectionFor,
    LiveEventProjection.apply, projectionKey]

/-- A queue with room takes them all. -/
theorem exec_boundaries (threshold : Nat) (n : Nat) {s : BusState Unit}
    {subscriber : Subscriber Unit} (hsubs : s.subscribers = [subscriber])
    (hlen : subscriber.queue.length + n ≤ threshold) :
    ∃ t, exec (busMachine Unit threshold) s (List.replicate n (.publish boundary)) = some t ∧
      t.projection.events = s.projection.events ++ boundaries s.count n ∧
      t.subscribers =
        [{ subscriber with queue := subscriber.queue ++ boundaries s.count n }] ∧
      t.log = s.log ++ boundaries s.count n := by
  induction n generalizing s subscriber with
  | zero => exact ⟨s, rfl, by simp [boundaries], by simp [boundaries, hsubs], by simp [boundaries]⟩
  | succ n ih =>
      have hroom : subscriber.queue.length < threshold := by omega
      have hpublish := publish_boundary hsubs hroom
      have hsplit : boundaries s.count (n + 1) =
          ⟨s.count, boundary⟩ :: boundaries (s.count + 1) n := by
        simp [boundaries, List.range'_succ]
      have hsubs' : (publish threshold s boundary).subscribers =
          [{ subscriber with queue := subscriber.queue ++ [⟨s.count, boundary⟩] }] := by
        rw [hpublish]
      obtain ⟨t, hrun, hevents, hqueue, hlog⟩ := ih hsubs' (by simp; omega)
      rw [hpublish] at hevents hqueue hlog
      refine ⟨t, hrun, ?_, ?_, ?_⟩
      · simpa [hsplit] using hevents
      · simpa [hsplit] using hqueue
      · simpa [hsplit] using hlog

theorem filter_boundaries (start n : Nat) :
    (boundaries start n).filter (fun x => !isRunState x) = boundaries start n := by
  refine List.filter_eq_self.mpr ?_
  intro x hx
  obtain ⟨number, -, rfl⟩ := List.mem_map.mp hx
  rfl

/-- **The next run empties the queue.**  The projection is reset before the
queue is rebased to it, and what the last run left undelivered is gone. -/
theorem rebase_forgets_last_run :
    ∃ t, exec (busMachine Unit subscriberRebaseThreshold) {} slowAcrossRuns = some t ∧
      ¬ Complete t := by
  let attached : BusState Unit :=
    publish subscriberRebaseThreshold (subscribe {} (fun _ => true)) (.runState true)
  obtain ⟨full, hfull, hevents, hqueue, hlog⟩ :=
    exec_boundaries subscriberRebaseThreshold 511 (show attached.subscribers =
      [{ queue := [⟨0, .runState true⟩], attachedAt := 0 }] from rfl) (by decide)
  have hattached : attached.projection.events = [⟨0, .runState true⟩] ∧ attached.count = 1 ∧
      attached.log = [] := ⟨rfl, rfl, rfl⟩
  simp only [hattached] at hevents hqueue hlog
  -- the end of the run keeps what is undelivered, and resets the projection
  let idle := publish subscriberRebaseThreshold full (.runState false)
  have hidle : idle.subscribers =
      [{ queue := boundaries 1 511 ++ [⟨full.count, .runState false⟩], attachedAt := 0 }] := by
    have hlen : ¬ (boundaries 1 511).length + 1 < subscriberRebaseThreshold := by
      simp [boundaries, subscriberRebaseThreshold]
    have hrun : ∀ number running, isRunState (⟨number, .runState running⟩ : Published Unit) = true :=
      fun _ _ => rfl
    simp [idle, publish, hqueue, enqueueOrRebase, hlen, rebased, projectionFor,
      LiveEventProjection.apply, hevents, hrun, filter_boundaries, -List.filter_filter]
  -- so the start of the next one empties the queue
  have hstarted : (publish subscriberRebaseThreshold idle (.runState true)).subscribers =
      [{ queue := [⟨idle.count, .runState true⟩], attachedAt := 0 }] := by
    have hlen : ¬ (boundaries 1 511).length + 1 < subscriberRebaseThreshold := by
      simp [boundaries, subscriberRebaseThreshold]
    rw [publish, hidle]
    simp [enqueueOrRebase, hlen, rebased, projectionFor, LiveEventProjection.reset]
  have hlogged : (publish subscriberRebaseThreshold idle (.runState true)).log =
      boundaries 1 511 := by
    simp [publish, idle, isPersistable, hlog]
  refine ⟨publish subscriberRebaseThreshold idle (.runState true), ?_, ?_⟩
  · have hattach : exec (busMachine Unit subscriberRebaseThreshold) {}
        [.subscribe (fun _ => true), .publish (.runState true)] = some attached := rfl
    rw [slowAcrossRuns, exec_append _ (by rw [exec_append _ hattach, hfull])]
    rfl
  · intro h
    have hfirst : (⟨1, boundary⟩ : Published Unit) ∈ boundaries 1 511 :=
      List.mem_map.mpr ⟨1, by simp, rfl⟩
    obtain ⟨y, hy, hcovers⟩ := h { queue := [⟨idle.count, .runState true⟩], attachedAt := 0 }
      (by rw [hstarted]; exact List.mem_cons_self) ⟨1, boundary⟩
      ⟨by rw [hlogged]; exact hfirst, Nat.zero_le 1⟩
    obtain rfl := List.mem_singleton.mp hy
    rcases hcovers with hsame | ⟨-, -, hkey⟩
    · cases congrArg Published.event hsame
    · exact hkey rfl

end Workbench.LiveBus
