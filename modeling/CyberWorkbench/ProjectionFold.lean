import CyberWorkbench.SubscriberQueues
import CyberWorkbench.LastWrite

/-!
# The projection is a fold

What `LiveEventProjection` holds after any calls, said without its indexes.
Every event since the last reset is an entry of some `Slot`: of its tool call,
tool result or subagent run, of a stretch of one segment, or of its own.
`foldByKey` puts the latest `run_state` first and then, slot by slot in the
order of first appearance, the latest event of the slot.

`projection_exact`: the snapshot is that fold, and an index is where the entry
of its key stands.
-/

namespace Workbench.LiveBus

variable {Args : Type}

/-! ### Slots -/

/-- What an event is a version of.  A segment that is complete starts anew: its
stretches are numbered. -/
inductive Slot where
  | item (key : ProjectionKey) (stretch : Nat)
  | own (position : Nat)
  deriving DecidableEq, Repr

/-- How often the segment has been completed. -/
def completions (key : ProjectionKey) (events : List (Published Args)) : Nat :=
  events.countP fun x => isCompleteSegment x.event && decide (projectionKey x.event = some key)

/-- The slot of an event after the events before it.  A `run_state` has none,
and neither has the end of a nested call. -/
def slotOf (before : List (Published Args)) (item : Published Args) : Option Slot :=
  match item.event with
  | .runState _ => none
  | .done nestedCallId => if nestedCallId = "" then some (.own before.length) else none
  | .content _ _ =>
      match projectionKey item.event with
      | none => some (.own before.length)
      | some key => some (.item key (completions key before))

/-- An event with its slot, if it has one. -/
def tag (before : List (Published Args)) (item : Published Args) : List (Slot × Published Args) :=
  ((slotOf before item).map fun slot => (slot, item)).toList

/-- The events with their slots, after the events `before`. -/
def taggedFrom (before : List (Published Args)) :
    List (Published Args) → List (Slot × Published Args)
  | [] => []
  | item :: rest => tag before item ++ taggedFrom (before ++ [item]) rest

def tagged (events : List (Published Args)) : List (Slot × Published Args) := taggedFrom [] events

/-- The slots in the order of first appearance. -/
def slots (events : List (Published Args)) : List Slot := ((tagged events).map Prod.fst).eraseDups

/-- The latest event of a slot. -/
def latestOf (events : List (Published Args)) (slot : Slot) : Option (Published Args) :=
  (LastWrite.lastOf (fun entry => decide (entry.1 = slot)) (tagged events)).map Prod.snd

/-- **The fold by key.** -/
def foldByKey (events : List (Published Args)) : List (Published Args) :=
  (LastWrite.lastOf isRunState events).toList ++ (slots events).filterMap (latestOf events)

/-! ### Calls -/

/-- A call of `apply` or of `reset`. -/
inductive ProjectionCall (Args : Type) where
  | apply (item : Published Args)
  | reset (number : Nat) (running : Bool)

/-- The event that a `reset` is called with. -/
def resetEvent (number : Nat) (running : Bool) : Published Args := ⟨number, .runState running⟩

namespace LiveEventProjection

/-- `snapshot` -/
def snapshot (p : LiveEventProjection Args) (included : Option (AgentEvent Args → Bool)) :
    List (Published Args) :=
  match included with
  | none => p.events
  | some included => p.events.filter fun item => included item.event

/-- One call. -/
def call (p : LiveEventProjection Args) : ProjectionCall Args → LiveEventProjection Args
  | .apply item => p.apply item
  | .reset number running => .reset (resetEvent number running)

/-- What a sequence of calls leads to. -/
def calls (cs : List (ProjectionCall Args)) : LiveEventProjection Args := cs.foldl call {}

end LiveEventProjection

/-- The events since the last reset. -/
def sinceReset (cs : List (ProjectionCall Args)) : List (Published Args) :=
  cs.foldl (fun events c =>
    match c with
    | .apply item => events ++ [item]
    | .reset number running => [resetEvent number running]) []

/-- An index points at the entry of its key, and each such entry has its
index. -/
def IndexesExact (events : List (Published Args)) (indexes : Indexes) : Prop :=
  ∀ key index, indexes key = some index ↔
    ∃ item, events[index]? = some item ∧ indexedKey item.event = some key

/-! ### The fold of one more event -/

/-- The slots with their latest entries. -/
def filed (events : List (Published Args)) : List (Slot × (Slot × Published Args)) :=
  LastWrite.writes Prod.fst (tagged events)

theorem taggedFrom_append (before events events' : List (Published Args)) :
    taggedFrom before (events ++ events') =
      taggedFrom before events ++ taggedFrom (before ++ events) events' := by
  induction events generalizing before with
  | nil => simp [taggedFrom]
  | cons item rest ih => simp [taggedFrom, ih]

theorem tagged_concat (events : List (Published Args)) (item : Published Args) :
    tagged (events ++ [item]) = tagged events ++ tag events item := by
  unfold tagged
  rw [taggedFrom_append]
  simp [taggedFrom]

theorem filed_of_slot {events : List (Published Args)} {item : Published Args} {slot : Slot}
    (h : slotOf events item = some slot) :
    filed (events ++ [item]) = LastWrite.write slot (slot, item) (filed events) := by
  unfold filed
  rw [tagged_concat, tag, h]
  exact LastWrite.writes_concat _ _ _

theorem filed_of_none {events : List (Published Args)} {item : Published Args}
    (h : slotOf events item = none) : filed (events ++ [item]) = filed events := by
  unfold filed
  rw [tagged_concat, tag, h]
  simp

/-- The fold is the latest `run_state` and what is filed. -/
theorem foldByKey_eq (events : List (Published Args)) :
    foldByKey events =
      (LastWrite.lastOf isRunState events).toList ++ (filed events).map (fun entry => entry.2.2) := by
  have hfiled := LastWrite.filed_writes Prod.fst (tagged events)
  unfold foldByKey slots
  congr 1
  rw [← LastWrite.keys_writes]
  have hvalues := LastWrite.values_eq_filterMap hfiled.1
  have hmap : (filed events).map (fun entry => entry.2.2) =
      ((LastWrite.writes Prod.fst (tagged events)).map Prod.snd).map Prod.snd := by
    rw [List.map_map]
    rfl
  rw [hmap, hvalues, List.map_filterMap]
  congr 1
  funext slot
  unfold latestOf
  rw [LastWrite.lookup_writes]

/-! ### What is filed -/

/-- The entry of a slot: the one of a stretch is complete exactly if the
stretch is over. -/
def EntryOk (events : List (Published Args)) (slot : Slot) (x : Published Args) : Prop :=
  isRunState x = false ∧
    match slot with
    | .own position => position < events.length ∧ projectionKey x.event = none
    | .item key stretch => projectionKey x.event = some key ∧
        ((isCompleteSegment x.event = false ∧ stretch = completions key events) ∨
          (isCompleteSegment x.event = true ∧ stretch < completions key events))

theorem completions_concat (key : ProjectionKey) (events : List (Published Args))
    (item : Published Args) :
    completions key (events ++ [item]) = completions key events +
      if isCompleteSegment item.event = true ∧ projectionKey item.event = some key then 1 else 0 := by
  unfold completions
  rw [List.countP_append, List.countP_singleton]
  simp

/-- The slot of an event with a key. -/
theorem slotOf_of_key (events : List (Published Args)) {item : Published Args} {key : ProjectionKey}
    (h : projectionKey item.event = some key) :
    slotOf events item = some (.item key (completions key events)) ∧ isRunState item = false := by
  obtain ⟨number, event⟩ := item
  cases event with
  | content event nestedFor =>
      refine ⟨?_, rfl⟩
      unfold slotOf
      simp only
      rw [h]
  | runState running => cases h
  | done nestedCallId => cases h

theorem indexedKey_of_none {event : AgentEvent Args} (h : projectionKey event = none) :
    indexedKey event = none := by
  unfold indexedKey
  rw [h]
  exact ite_self _

theorem projectionKey_of_isRunState {item : Published Args} (h : isRunState item = true) :
    projectionKey item.event = none := by
  obtain ⟨number, event⟩ := item
  cases event with
  | runState running => rfl
  | content event nestedFor => cases h
  | done nestedCallId => cases h

/-- An event without a key: what slot it has. -/
theorem slotOf_of_none {events : List (Published Args)} {item : Published Args} {slot : Slot}
    (h : projectionKey item.event = none) (hslot : slotOf events item = some slot) :
    slot = .own events.length ∧ isRunState item = false := by
  obtain ⟨number, event⟩ := item
  cases event with
  | runState running => cases hslot
  | done nestedCallId =>
      unfold slotOf at hslot
      simp only at hslot
      split at hslot
      · exact ⟨(Option.some.inj hslot).symm, rfl⟩
      · cases hslot
  | content event nestedFor =>
      unfold slotOf at hslot
      simp only at hslot
      rw [h] at hslot
      exact ⟨(Option.some.inj hslot).symm, rfl⟩

/-- **Step.**  The entries after one more event. -/
theorem entryOk_concat {events : List (Published Args)}
    (hentries : ∀ entry ∈ filed events, EntryOk events entry.1 entry.2.2) (item : Published Args) :
    ∀ entry ∈ filed (events ++ [item]), EntryOk (events ++ [item]) entry.1 entry.2.2 := by
  -- an entry that the event does not replace
  have hold : ∀ entry ∈ filed events, slotOf events item ≠ some entry.1 →
      EntryOk (events ++ [item]) entry.1 entry.2.2 := by
    rintro ⟨slot, slot', x⟩ hmem hother
    obtain ⟨hrun, hslot⟩ := hentries _ hmem
    refine ⟨hrun, ?_⟩
    cases slot with
    | own position =>
        refine ⟨?_, hslot.2⟩
        have hlt := hslot.1
        rw [List.length_append]
        omega
    | item key stretch =>
        refine ⟨hslot.1, ?_⟩
        rw [completions_concat]
        rcases hslot.2 with ⟨hopen, rfl⟩ | ⟨hcomplete, hlt⟩
        · left
          refine ⟨hopen, ?_⟩
          rw [if_neg (fun hends => hother (slotOf_of_key events hends.2).1)]
          rfl
        · exact .inr ⟨hcomplete, Nat.lt_of_lt_of_le hlt (Nat.le_add_right _ _)⟩
  cases hslot : slotOf events item with
  | none =>
      rw [filed_of_none hslot]
      exact fun entry hmem => hold entry hmem (by rw [hslot]; exact fun heq => by cases heq)
  | some slot =>
      rw [filed_of_slot hslot]
      intro entry hmem
      rcases LastWrite.mem_write_of_nodup (LastWrite.filed_writes _ _).1 hmem with rfl | ⟨hmem, hne⟩
      · cases hkey : projectionKey item.event with
        | none =>
            obtain ⟨rfl, hrun⟩ := slotOf_of_none hkey hslot
            exact ⟨hrun, by rw [List.length_append]; exact Nat.lt_succ_self _, hkey⟩
        | some key =>
            obtain ⟨hown, hrun⟩ := slotOf_of_key events hkey
            obtain rfl := Option.some.inj (hslot.symm.trans hown)
            refine ⟨hrun, hkey, ?_⟩
            rw [completions_concat]
            cases hcomplete : isCompleteSegment item.event with
            | false => exact .inl ⟨rfl, by simp⟩
            | true => exact .inr ⟨rfl, by simp [hkey]⟩
      · exact hold entry hmem (by rw [hslot]; exact fun heq => hne (Option.some.inj heq).symm)

/-! ### Indexes -/

/-- No key has two entries. -/
def UniqueKeys (events : List (Published Args)) : Prop :=
  ∀ (i j : Nat) (a b : Published Args) (key : ProjectionKey), events[i]? = some a → events[j]? = some b →
    indexedKey a.event = some key → indexedKey b.event = some key → i = j

theorem IndexesExact.uniqueKeys {events : List (Published Args)} {indexes : Indexes}
    (h : IndexesExact events indexes) : UniqueKeys events := by
  intro i j a b key hi hj ha hb
  have hi' := (h key i).mpr ⟨a, hi, ha⟩
  have hj' := (h key j).mpr ⟨b, hj, hb⟩
  exact Option.some.inj (hi'.symm.trans hj')

/-- What has an entry gets an index. -/
theorem rebuildFrom_ne_none {key : ProjectionKey} (events : List (Published Args)) {index : Nat}
    {indexes : Indexes}
    (h : indexes key ≠ none ∨ ∃ item ∈ events, indexedKey item.event = some key) :
    rebuildFrom index indexes events key ≠ none := by
  induction events generalizing index indexes with
  | nil =>
      rcases h with h | ⟨item, hmem, -⟩
      · exact h
      · cases hmem
  | cons item rest ih =>
      unfold rebuildFrom
      cases hkey : indexedKey item.event with
      | none =>
          refine ih ?_
          rcases h with h | ⟨other, hmem, hother⟩
          · exact .inl h
          · rcases List.mem_cons.mp hmem with rfl | hmem
            · rw [hkey] at hother
              cases hother
            · exact .inr ⟨other, hmem, hother⟩
      | some itemKey =>
          refine ih ?_
          by_cases hsame : key = itemKey
          · left
            simp [Indexes.set, hsame]
          · rcases h with h | ⟨other, hmem, hother⟩
            · left
              simpa [Indexes.set, hsame] using h
            · rcases List.mem_cons.mp hmem with rfl | hmem
              · rw [hkey] at hother
                exact absurd (Option.some.inj hother).symm hsame
              · exact .inr ⟨other, hmem, hother⟩

theorem rebuildIndexes_exact {events : List (Published Args)} (h : UniqueKeys events) :
    IndexesExact events (rebuildIndexes events) := by
  intro key index
  refine ⟨rebuildIndexes_ok events key index, ?_⟩
  rintro ⟨item, hitem, hkey⟩
  have hsome : rebuildIndexes events key ≠ none :=
    rebuildFrom_ne_none events (.inr ⟨item, List.mem_of_getElem? hitem, hkey⟩)
  obtain ⟨other, hother⟩ := Option.ne_none_iff_exists'.mp hsome
  obtain ⟨old, hold, holdKey⟩ := rebuildIndexes_ok events key other hother
  rw [hother, h other index old item key hold hitem holdKey hkey]

/-! ### The projection -/

/-- The latest `run_state`, if there is one. -/
def runs (events : List (Published Args)) : List (Published Args) :=
  (LastWrite.lastOf isRunState events).toList

/-- The entries without it. -/
def entries (events : List (Published Args)) : List (Published Args) :=
  (filed events).map fun entry => entry.2.2

theorem isRunState_of_mem_runs {events : List (Published Args)} {x : Published Args}
    (h : x ∈ runs events) : isRunState x = true :=
  (LastWrite.of_lastOf (Option.mem_toList.mp h)).2

theorem runs_concat {events : List (Published Args)} (item : Published Args) :
    runs (events ++ [item]) = if isRunState item = true then [item] else runs events := by
  unfold runs
  rw [LastWrite.lastOf_append, LastWrite.lastOf_singleton]
  cases isRunState item with
  | true => rfl
  | false => rfl

/-- What holds of the projection after the events since the last reset. -/
structure ProjectionInv (events : List (Published Args)) (p : LiveEventProjection Args) : Prop where
  entryOk : ∀ entry ∈ filed events, EntryOk events entry.1 entry.2.2
  snapshot : p.events = runs events ++ entries events
  indexes : IndexesExact p.events p.indexes

section Step

variable {events : List (Published Args)} {p : LiveEventProjection Args}

theorem ProjectionInv.entry_not_run (h : ProjectionInv events p) {x : Published Args}
    (hx : x ∈ entries events) : isRunState x = false := by
  obtain ⟨entry, hmem, rfl⟩ := List.mem_map.mp hx
  exact (h.entryOk entry hmem).1

/-- The filed entry that an index points at. -/
theorem ProjectionInv.entry_at (h : ProjectionInv events p) {key : ProjectionKey} {index : Nat}
    (hindex : p.indexes key = some index) :
    ∃ j old, index = (runs events).length + j ∧
      (filed events)[j]? = some (.item key (completions key events),
        (.item key (completions key events), old)) := by
  obtain ⟨old, hat, hkey⟩ := (h.indexes key index).mp hindex
  rw [h.snapshot] at hat
  have hprojection : projectionKey old.event = some key ∧ isCompleteSegment old.event = false := by
    unfold indexedKey at hkey
    split at hkey
    · cases hkey
    · rename_i hopen
      exact ⟨hkey, Bool.eq_false_iff.mpr hopen⟩
  have hle : (runs events).length ≤ index := by
    refine Nat.le_of_not_lt fun hlt => ?_
    rw [List.getElem?_append_left hlt] at hat
    have hrun := projectionKey_of_isRunState (isRunState_of_mem_runs (List.mem_of_getElem? hat))
    rw [hprojection.1] at hrun
    cases hrun
  refine ⟨index - (runs events).length, old, by omega, ?_⟩
  rw [List.getElem?_append_right hle] at hat
  unfold entries at hat
  rw [List.getElem?_map, Option.map_eq_some_iff] at hat
  obtain ⟨⟨slot, slot', x⟩, hentry, rfl⟩ := hat
  obtain rfl : slot' = slot := (LastWrite.filed_writes _ _).2 _ (List.mem_of_getElem? hentry)
  obtain ⟨-, hslot⟩ := h.entryOk _ (List.mem_of_getElem? hentry)
  cases slot' with
  | own position =>
      have hnone := hslot.2
      rw [hprojection.1] at hnone
      cases hnone
  | item other stretch =>
      obtain ⟨hother, hstretch⟩ := hslot
      obtain rfl : key = other := Option.some.inj (hprojection.1.symm.trans hother)
      rcases hstretch with ⟨-, rfl⟩ | ⟨hcomplete, -⟩
      · exact hentry
      · rw [hprojection.2] at hcomplete
        cases hcomplete

/-- Without an index the stretch of a key has no entry yet. -/
theorem ProjectionInv.no_entry (h : ProjectionInv events p) {key : ProjectionKey}
    (hnone : p.indexes key = none) :
    Slot.item key (completions key events) ∉ (filed events).map Prod.fst := by
  intro hmem
  obtain ⟨⟨slot, slot', x⟩, hentry, rfl⟩ := List.mem_map.mp hmem
  obtain ⟨-, hkey, hstretch⟩ := h.entryOk _ hentry
  rcases hstretch with ⟨hopen, -⟩ | ⟨-, hlt⟩
  · have hin : x ∈ p.events := by
      rw [h.snapshot]
      exact List.mem_append_right _ (List.mem_map.mpr ⟨_, hentry, rfl⟩)
    obtain ⟨index, hindex⟩ := List.mem_iff_getElem?.mp hin
    have hsome := (h.indexes key index).mpr ⟨x, hindex, by
      unfold indexedKey
      rw [hopen]
      exact hkey⟩
    rw [hnone] at hsome
    cases hsome
  · exact Nat.lt_irrefl _ hlt

/-- An event that gets a slot of its own, or starts one: it stands at the
end. -/
theorem ProjectionInv.append (h : ProjectionInv events p) {item : Published Args} {slot : Slot}
    (hslot : slotOf events item = some slot) (hrun : isRunState item = false)
    (hnew : slot ∉ (filed events).map Prod.fst) :
    p.events ++ [item] = runs (events ++ [item]) ++ entries (events ++ [item]) := by
  unfold entries
  rw [filed_of_slot hslot, LastWrite.write_of_not_mem hnew, runs_concat, hrun, h.snapshot,
    List.map_append]
  simp [entries]

theorem indexesExact_append {indexes : Indexes} (h : IndexesExact events indexes)
    {item : Published Args} (hitem : indexedKey item.event = none) :
    IndexesExact (events ++ [item]) indexes := by
  intro key index
  rw [h key index]
  constructor
  · rintro ⟨old, hat, hkey⟩
    exact ⟨old, by rw [List.getElem?_append_left (List.getElem?_eq_some_iff.mp hat).1, hat], hkey⟩
  · rintro ⟨old, hat, hkey⟩
    rcases StepMachine.getElem?_concat_cases hat with hat | rfl
    · exact ⟨old, hat, hkey⟩
    · rw [hitem] at hkey
      cases hkey

/-- Replacing the entry of a key by an event with that key. -/
theorem indexesExact_set {indexes : Indexes} (h : IndexesExact events indexes) {index : Nat}
    {key : ProjectionKey} (hindex : indexes key = some index) {item : Published Args}
    (hitem : indexedKey item.event = some key) : IndexesExact (events.set index item) indexes := by
  obtain ⟨old, hat, hold⟩ := (h key index).mp hindex
  have hlt := (List.getElem?_eq_some_iff.mp hat).1
  intro other i
  rw [h other i]
  by_cases hi : index = i
  · subst hi
    rw [List.getElem?_set_self hlt, hat]
    simp [hold, hitem]
  · rw [List.getElem?_set_ne hi]

/-- Replacing it by one without a key leaves the keys unique. -/
theorem uniqueKeys_set (h : UniqueKeys events) (index : Nat) {item : Published Args}
    (hitem : indexedKey item.event = none) : UniqueKeys (events.set index item) := by
  have hother : ∀ (i : Nat) (a : Published Args) (key : ProjectionKey),
      (events.set index item)[i]? = some a → indexedKey a.event = some key → events[i]? = some a := by
    intro i a key hi ha
    rw [List.getElem?_set] at hi
    split at hi
    · split at hi
      · obtain rfl := Option.some.inj hi
        rw [hitem] at ha
        cases ha
      · cases hi
    · exact hi
  intro i j a b key hi hj ha hb
  exact h i j a b key (hother i a key hi ha) (hother j b key hj hb) ha hb

/-- A new `run_state` takes the first place. -/
theorem ProjectionInv.runState (h : ProjectionInv events p) {item : Published Args}
    (hrun : isRunState item = true) :
    item :: p.events.filter (fun other => !isRunState other) = item :: entries events := by
  rw [h.snapshot, List.filter_append,
    List.filter_eq_nil_iff.mpr fun x hx => by simp [isRunState_of_mem_runs hx],
    List.filter_eq_self.mpr fun x hx => by simp [h.entry_not_run hx]]
  rfl

/-- The keys of the entries are unique, whatever stands before them. -/
theorem ProjectionInv.uniqueKeys (h : ProjectionInv events p) {item : Published Args}
    (hitem : indexedKey item.event = none) : UniqueKeys (item :: entries events) := by
  have hshift : ∀ (i : Nat) (a : Published Args) (key : ProjectionKey),
      (item :: entries events)[i]? = some a → indexedKey a.event = some key →
      ∃ i', i = i' + 1 ∧ p.events[(runs events).length + i']? = some a := by
    intro i a key hi ha
    cases i with
    | zero =>
        obtain rfl := Option.some.inj hi
        rw [hitem] at ha
        cases ha
    | succ i =>
        refine ⟨i, rfl, ?_⟩
        rw [h.snapshot, List.getElem?_append_right (Nat.le_add_right _ _), Nat.add_sub_cancel_left]
        exact hi
  intro i j a b key hi hj ha hb
  obtain ⟨i', rfl, hi'⟩ := hshift i a key hi ha
  obtain ⟨j', rfl, hj'⟩ := hshift j b key hj hb
  have heq := h.indexes.uniqueKeys _ _ a b key hi' hj' ha hb
  omega

/-- The entry of a key is replaced in its place. -/
theorem ProjectionInv.replace (h : ProjectionInv events p) {item : Published Args}
    {key : ProjectionKey} (hkey : projectionKey item.event = some key) {index : Nat}
    (hindex : p.indexes key = some index) :
    p.events.set index item = runs (events ++ [item]) ++ entries (events ++ [item]) := by
  obtain ⟨hslot, hrun⟩ := slotOf_of_key events hkey
  obtain ⟨j, old, rfl, hentry⟩ := h.entry_at hindex
  have hnodup : ((filed events).map Prod.fst).Nodup := (LastWrite.filed_writes _ _).1
  unfold entries
  rw [filed_of_slot hslot, LastWrite.write_of_getElem? hnodup hentry, runs_concat, hrun, h.snapshot, List.set_append_right _ _ (Nat.le_add_right _ _),
    Nat.add_sub_cancel_left, List.map_set]
  rfl

/-- An event that is an entry of its own. -/
theorem ProjectionInv.applyOwn (h : ProjectionInv events p) {item : Published Args}
    (hkey : projectionKey item.event = none) (hslot : slotOf events item = some (.own events.length)) :
    ProjectionInv (events ++ [item]) { p with events := p.events ++ [item] } := by
  have hnew : Slot.own events.length ∉ (filed events).map Prod.fst := by
    intro hmem
    obtain ⟨⟨slot, slot', x⟩, hentry, rfl⟩ := List.mem_map.mp hmem
    exact Nat.lt_irrefl _ (h.entryOk _ hentry).2.1
  exact ⟨entryOk_concat h.entryOk item, h.append hslot (slotOf_of_none hkey hslot).2 hnew,
    indexesExact_append h.indexes (indexedKey_of_none hkey)⟩

/-- An event with a key that completes no segment. -/
theorem ProjectionInv.applyUpsert (h : ProjectionInv events p) {item : Published Args}
    {key : ProjectionKey} (hkey : projectionKey item.event = some key)
    (hopen : isCompleteSegment item.event = false) :
    ProjectionInv (events ++ [item]) (p.upsert key item) := by
  obtain ⟨hslot, hrun⟩ := slotOf_of_key events hkey
  have hindexed : indexedKey item.event = some key := by
    unfold indexedKey
    rw [hopen]
    exact hkey
  unfold LiveEventProjection.upsert
  cases hindex : p.indexes key with
  | none =>
      refine ⟨entryOk_concat h.entryOk item, h.append hslot hrun (h.no_entry hindex), ?_⟩
      intro other index
      have hold := h.indexes other index
      by_cases hother : other = key
      · subst hother
        simp only [Indexes.set, if_true, Option.some.injEq]
        constructor
        · rintro rfl
          exact ⟨item, by simp, hindexed⟩
        · rintro ⟨old, hat, hold'⟩
          rw [List.getElem?_append] at hat
          split at hat
          · have hsome := hold.mpr ⟨old, hat, hold'⟩
            rw [hindex] at hsome
            cases hsome
          · rename_i hle
            have hlt := (List.getElem?_eq_some_iff.mp hat).1
            simp at hlt
            omega
      · simp only [Indexes.set, hother, if_false]
        rw [hold]
        constructor
        · rintro ⟨old, hat, hold'⟩
          exact ⟨old, by
            rw [List.getElem?_append_left (List.getElem?_eq_some_iff.mp hat).1, hat], hold'⟩
        · rintro ⟨old, hat, hold'⟩
          rcases StepMachine.getElem?_concat_cases hat with hat | rfl
          · exact ⟨old, hat, hold'⟩
          · rw [hindexed] at hold'
            exact absurd (Option.some.inj hold').symm hother
  | some index =>
      exact ⟨entryOk_concat h.entryOk item, h.replace hkey hindex,
        indexesExact_set h.indexes hindex hindexed⟩

/-- The event that completes a segment. -/
theorem ProjectionInv.applyComplete (h : ProjectionInv events p) {item : Published Args}
    {key : ProjectionKey} (hkey : projectionKey item.event = some key)
    (hcomplete : isCompleteSegment item.event = true) :
    ProjectionInv (events ++ [item]) (p.completeSegment key item) := by
  obtain ⟨hslot, hrun⟩ := slotOf_of_key events hkey
  have hindexed : indexedKey item.event = none := by
    unfold indexedKey
    rw [hcomplete]
    rfl
  unfold LiveEventProjection.completeSegment
  cases hindex : p.indexes key with
  | none =>
      exact ⟨entryOk_concat h.entryOk item, h.append hslot hrun (h.no_entry hindex),
        indexesExact_append h.indexes hindexed⟩
  | some index =>
      exact ⟨entryOk_concat h.entryOk item, h.replace hkey hindex,
        rebuildIndexes_exact (uniqueKeys_set h.indexes.uniqueKeys index hindexed)⟩

/-- **Step.**  One more event. -/
theorem ProjectionInv.apply (h : ProjectionInv events p) (item : Published Args) :
    ProjectionInv (events ++ [item]) (p.apply item) := by
  have hentries := entryOk_concat h.entryOk item
  obtain ⟨number, event⟩ := item
  cases event with
  | runState running =>
      refine ⟨hentries, ?_, rebuildIndexes_exact ?_⟩
      · refine (h.runState rfl).trans ?_
        unfold entries
        rw [runs_concat, filed_of_none rfl]
        rfl
      · have hunique : UniqueKeys ((⟨number, .runState running⟩ : Published Args) :: entries events) :=
          h.uniqueKeys rfl
        rw [← h.runState rfl] at hunique
        exact hunique
  | done nestedCallId =>
      unfold LiveEventProjection.apply
      simp only
      by_cases htop : nestedCallId = ""
      · rw [if_pos htop]
        refine h.applyOwn rfl ?_
        unfold slotOf
        simp only
        rw [if_pos htop]
      · rw [if_neg htop]
        have hslot : slotOf events ⟨number, .done nestedCallId⟩ = none := by
          unfold slotOf
          simp only
          rw [if_neg htop]
        refine ⟨hentries, ?_, h.indexes⟩
        unfold entries
        rw [runs_concat, filed_of_none hslot]
        exact h.snapshot
  | content event nestedFor =>
      unfold LiveEventProjection.apply
      simp only
      cases hkey : projectionKey (.content event nestedFor) with
      | none =>
          refine h.applyOwn hkey ?_
          unfold slotOf
          simp only
          rw [hkey]
      | some key =>
          simp only
          split
          · rename_i hcomplete
            exact h.applyComplete hkey hcomplete
          · rename_i hopen
            exact h.applyUpsert hkey (Bool.eq_false_iff.mpr hopen)

end Step

theorem projectionInv_empty : ProjectionInv ([] : List (Published Args)) {} where
  entryOk entry hmem := by cases hmem
  snapshot := rfl
  indexes key index := by
    constructor
    · intro h
      cases h
    · rintro ⟨item, hat, -⟩
      cases hat

theorem projectionInv_reset (number : Nat) (running : Bool) :
    ProjectionInv [(resetEvent number running : Published Args)]
      (.reset (resetEvent number running)) where
  entryOk entry hmem := by cases hmem
  snapshot := rfl
  indexes key index := by
    constructor
    · intro h
      cases h
    · rintro ⟨item, hat, hkey⟩
      cases index with
      | zero =>
          obtain rfl := Option.some.inj hat
          cases hkey
      | succ index => cases hat

/-- **Run.**  The invariant holds after any calls. -/
theorem projectionInv_calls (cs : List (ProjectionCall Args)) :
    ProjectionInv (sinceReset cs) (LiveEventProjection.calls cs) := by
  suffices hfrom : ∀ (events : List (Published Args)) (p : LiveEventProjection Args),
      ProjectionInv events p →
      ProjectionInv (cs.foldl (fun events c =>
        match c with
        | .apply item => events ++ [item]
        | .reset number running => [resetEvent number running]) events)
        (cs.foldl LiveEventProjection.call p) from hfrom [] {} projectionInv_empty
  induction cs with
  | nil => exact fun events p h => h
  | cons c rest ih =>
      intro events p h
      cases c with
      | apply item => exact ih _ _ (h.apply item)
      | reset number running => exact ih _ _ (projectionInv_reset number running)

/-- **The live projection is exact.**  After any calls the snapshot is the fold
by key of the events since the last reset, and an index is where the entry of
its key stands. -/
theorem projection_exact (cs : List (ProjectionCall Args)) :
    (LiveEventProjection.calls cs).snapshot none = foldByKey (sinceReset cs) ∧
      IndexesExact (LiveEventProjection.calls cs).events (LiveEventProjection.calls cs).indexes := by
  have hinv := projectionInv_calls cs
  exact ⟨hinv.snapshot.trans (foldByKey_eq _).symm, hinv.indexes⟩

end Workbench.LiveBus
