import CyberWorkbench.TimelineIdentity

/-!
# Client and server agree on timeline identity

`timeline_item_key` and `clientItemKey` derive the key of an event in two
languages.  An event with an id of its own has the same key on both sides; a
keyless one is filed by its type and number on the server and by a short name
of the type and the number on the client, and either can be read off the key.
So the two keys separate the same events (`itemKey_eq_iff`).

The rest follows for every list of frames a session stamped: ingesting them
live, from history or both leaves one entry for each server key, ingesting a
list again changes nothing, and the ordered events are in `seq` order.
-/

namespace Workbench.TimelineLog

open LiveBus LastWrite StepMachine Timeline

variable {Args : Type}

/-! ### The two keys -/

/-- `_stamp_event` numbers keyless events from one on. -/
def IsStamped (event : AgentEvent Args) : Prop :=
  timelineItemKey event = none → carriesSeq event = true → 0 < seqOf event

/-- The event as the client receives it. -/
def wire : AgentEvent Args → AgentStreamEvent Args
  | .content event _ => .content event
  | .runState running => .runState running
  | .done _ => .done

/-- The key the client files an event under. -/
def clientKey (event : AgentEvent Args) : Option String := (wire event).itemKey

/-- The client's name for the type of a keyless event. -/
def clientType : AgentEvent Args → String
  | .content event _ =>
      match event.body with
      | .userMessage _ _ _ => "user"
      | .turnBoundary => "turn"
      | _ => "error"
  | .runState _ | .done _ => ""

theorem itemKey_of_ne {event : AgentContentEvent Args} (h : clientItemKey event ≠ "") :
    (AgentStreamEvent.content event).itemKey = some (clientItemKey event) := if_neg h

/-- A text of which a part is not empty. -/
theorem append_ne_empty {a b : String} (h : a ≠ "") : a ++ b ≠ "" := by
  intro heq
  have hlist := congrArg String.toList heq
  rw [String.toList_append, String.toList_empty, List.append_eq_nil_iff] at hlist
  exact h (String.toList_inj.mp hlist.1)

/-- An event with a key of its own has it on both sides. -/
theorem clientKey_of_key {event : AgentEvent Args} {key : String}
    (h : timelineItemKey event = some key) : clientKey event = some key := by
  have hnonempty : key ≠ "" := by
    obtain ⟨rest, heq | heq | heq | heq | heq⟩ := keyed_prefix h <;>
      exact heq ▸ append_ne_empty (by decide)
  cases event with
  | runState running => cases h
  | done nestedCallId => cases h
  | content event nestedFor =>
      have hkey : clientItemKey event = key := by
        obtain ⟨createdAt, seq, agentName, nestedCallId, body⟩ := event
        cases body with
        | segment kind complete segmentId text => cases kind <;> exact Option.some.inj h
        | toolCall _ _ _ | toolResult _ _ _ | subagentTask _ => exact Option.some.inj h
        | userMessage _ _ _ | turnBoundary | error _ => cases h
      rw [← hkey] at hnonempty ⊢
      exact itemKey_of_ne hnonempty

/-- The types of keyless events and the client's names for them. -/
theorem types_keyless {event : AgentEvent Args} (h : timelineItemKey event = none)
    (hcarries : carriesSeq event = true) :
    (typeOf event = "user_message" ∧ clientType event = "user") ∨
      (typeOf event = "turn_boundary" ∧ clientType event = "turn") ∨
      (typeOf event = "error" ∧ clientType event = "error") := by
  cases event with
  | runState running => cases hcarries
  | done nestedCallId => cases hcarries
  | content event nestedFor =>
      obtain ⟨createdAt, seq, agentName, nestedCallId, body⟩ := event
      cases body with
      | segment kind complete segmentId text => cases kind <;> cases h
      | toolCall _ _ _ | toolResult _ _ _ | subagentTask _ => cases h
      | userMessage _ _ _ => exact .inl ⟨rfl, rfl⟩
      | turnBoundary => exact .inr (.inl ⟨rfl, rfl⟩)
      | error _ => exact .inr (.inr ⟨rfl, rfl⟩)

/-- A keyless event is filed by a short name of its type and its number. -/
theorem clientKey_of_keyless {event : AgentEvent Args} (h : timelineItemKey event = none)
    (hcarries : carriesSeq event = true) (hstamped : IsStamped event) :
    clientKey event = some (clientType event ++ ":" ++ toString (seqOf event)) := by
  have hpos := hstamped h hcarries
  cases event with
  | runState running => cases hcarries
  | done nestedCallId => cases hcarries
  | content event nestedFor =>
      have hkey : clientItemKey event =
          clientType (.content event nestedFor) ++ ":" ++ toString event.seq := by
        obtain ⟨createdAt, seq, agentName, nestedCallId, body⟩ := event
        cases body with
        | segment kind complete segmentId text => cases kind <;> cases h
        | toolCall _ _ _ | toolResult _ _ _ | subagentTask _ => cases h
        | userMessage _ _ _ | turnBoundary | error _ => exact if_pos hpos
      have hnonempty : clientItemKey event ≠ "" := by
        rw [hkey, String.append_assoc]
        refine append_ne_empty ?_
        rcases types_keyless h hcarries with ⟨-, htype⟩ | ⟨-, htype⟩ | ⟨-, htype⟩ <;>
          exact htype ▸ by decide
      exact (itemKey_of_ne hnonempty).trans (congrArg some hkey)

/-- The client files no event with a key of its own as a keyless one. -/
theorem clientType_not_keyed {event other : AgentEvent Args} {key : String}
    (h : timelineItemKey event = none) (hcarries : carriesSeq event = true)
    (hother : timelineItemKey other = some key) (n : Int) :
    clientType event ++ ":" ++ toString n ≠ key := by
  obtain ⟨rest, hfront⟩ := keyed_prefix hother
  rintro rfl
  rcases types_keyless h hcarries with ⟨-, htype⟩ | ⟨-, htype⟩ | ⟨-, htype⟩ <;>
    rcases hfront with heq | heq | heq | heq | heq <;>
    · rw [htype] at heq
      have hlist := congrArg String.toList heq
      simp [String.toList_append] at hlist

/-- Type and number can be read off both keys of a keyless event. -/
theorem keyless_keys_iff {event other : AgentEvent Args} (h : timelineItemKey event = none)
    (hcarries : carriesSeq event = true) (hother : timelineItemKey other = none)
    (hcarries' : carriesSeq other = true) {n m : Int} :
    keylessKey event n = keylessKey other m ↔
      clientType event ++ ":" ++ toString n = clientType other ++ ":" ++ toString m := by
  unfold keylessKey
  simp only [← String.toList_inj]
  rcases types_keyless h hcarries with ⟨htype, hclient⟩ | ⟨htype, hclient⟩ | ⟨htype, hclient⟩ <;>
    rcases types_keyless hother hcarries' with ⟨htype', hclient'⟩ | ⟨htype', hclient'⟩ |
      ⟨htype', hclient'⟩ <;>
    rw [htype, hclient, htype', hclient'] <;>
    simp [String.toList_append]

/-- **The two keys separate the same events.** -/
theorem itemKey_eq_iff {x y : AgentEvent Args} (hx : carriesSeq x = true)
    (hy : carriesSeq y = true) (hxs : IsStamped x) (hys : IsStamped y) :
    itemKey x = itemKey y ↔ clientKey x = clientKey y := by
  unfold itemKey
  cases hkx : timelineItemKey x with
  | some key =>
      rw [clientKey_of_key hkx]
      cases hky : timelineItemKey y with
      | some key' =>
          rw [clientKey_of_key hky]
          exact Option.some_inj.symm
      | none =>
          rw [clientKey_of_keyless hky hy hys]
          constructor
          · intro heq
            exact absurd ⟨x, hkx.trans (congrArg some heq)⟩ (keylessKey_not_keyed hky hy _)
          · intro heq
            exact absurd (Option.some.inj heq).symm (clientType_not_keyed hky hy hkx _)
  | none =>
      rw [clientKey_of_keyless hkx hx hxs]
      cases hky : timelineItemKey y with
      | some key' =>
          rw [clientKey_of_key hky]
          constructor
          · intro heq
            exact absurd ⟨y, hky.trans (congrArg some heq.symm)⟩ (keylessKey_not_keyed hkx hx _)
          · intro heq
            exact absurd (Option.some.inj heq) (clientType_not_keyed hkx hx hky _)
      | none =>
          rw [clientKey_of_keyless hky hy hys, Option.some_inj]
          exact keyless_keys_iff hkx hx hky hy

/-! ### Ingesting a list again -/

/-- The items of a store have distinct keys, whatever was ingested. -/
theorem nodup_ingestEvents {store : TimelineStore Args}
    (h : (store.items.map Prod.fst).Nodup) (events : List (AgentStreamEvent Args)) :
    ((ingestEvents store events).items.map Prod.fst).Nodup := by
  induction events generalizing store with
  | nil => exact h
  | cons frame rest ih =>
      refine ih ?_
      cases frame with
      | runState running => exact h
      | done => exact h
      | content event =>
          unfold Timeline.ingestEvent
          simp only
          split
          · exact nodup_keys_write h _ _
          · exact nodup_keys_write h _ _

/-- What a list leaves under a key: what was there, or the last version, at
the place the item had before. -/
def Refiled (key : String) (events : List (AgentStreamEvent Args))
    (store store' : TimelineStore Args) : Prop :=
  (lastOf (AgentStreamEvent.hasKey key) events = none ∧
      lookup store'.items key = lookup store.items key) ∨
    ∃ event order, lastOf (AgentStreamEvent.hasKey key) events = some (.content event) ∧
      lookup store'.items key = some ⟨event.seq, order, event⟩ ∧
      ∀ entry, lookup store.items key = some entry → order = entry.order

theorem Refiled.append {key : String} {first rest : List (AgentStreamEvent Args)}
    {store mid store' : TimelineStore Args} (h : Refiled key first store mid)
    (h' : Refiled key rest mid store') : Refiled key (first ++ rest) store store' := by
  unfold Refiled
  rw [lastOf_append]
  rcases h' with ⟨hnone, hsame⟩ | ⟨event, order, hlast, hlookup, hplace⟩
  · rw [hnone, hsame, Option.none_or]
    exact h
  · refine .inr ⟨event, order, by rw [hlast]; rfl, hlookup, fun entry hentry => ?_⟩
    rcases h with ⟨-, hsame⟩ | ⟨event', order', -, hlookup', hplace'⟩
    · exact hplace entry (hsame.trans hentry)
    · rw [← hplace' entry hentry]
      exact hplace _ hlookup'

/-- A frame is filed under its own key, at the old place of its item. -/
theorem refiled_ingestEvent {frame : AgentStreamEvent Args}
    (hstamped : ∀ event, frame = .content event → clientItemKey event ≠ "")
    (store : TimelineStore Args) (key : String) :
    Refiled key [frame] store (ingestEvent store frame) := by
  cases frame with
  | runState running => exact .inl ⟨rfl, rfl⟩
  | done => exact .inl ⟨rfl, rfl⟩
  | content event =>
      have hkeyed := hstamped event rfl
      unfold Refiled ingestEvent
      simp only [if_pos hkeyed, ne_eq]
      rw [lastOf_singleton]
      by_cases hkey : clientItemKey event = key
      · subst hkey
        have hlast : (if AgentStreamEvent.hasKey (clientItemKey event) (.content event) then
            some (AgentStreamEvent.content event) else none) = some (.content event) := by
          simp [AgentStreamEvent.hasKey, AgentStreamEvent.itemKey, hkeyed]
        rw [lookup_write, if_pos rfl]
        cases hold : lookup store.items (clientItemKey event) with
        | none => exact .inr ⟨event, event.seq, hlast, rfl, fun entry hentry => by cases hentry⟩
        | some existing =>
            exact .inr ⟨event, existing.order, hlast, rfl,
              fun entry hentry => by rw [Option.some.inj hentry]⟩
      · refine .inl ⟨?_, ?_⟩
        · simp [AgentStreamEvent.hasKey, AgentStreamEvent.itemKey, hkeyed, hkey]
        · rw [lookup_write, if_neg hkey]

theorem refiled_ingestEvents {events : List (AgentStreamEvent Args)}
    (hstamped : Timeline.Stamped events) (store : TimelineStore Args) (key : String) :
    Refiled key events store (ingestEvents store events) := by
  induction events generalizing store with
  | nil => exact .inl ⟨rfl, rfl⟩
  | cons frame rest ih =>
      have hframe := refiled_ingestEvent
        (fun event heq => hstamped event (heq ▸ List.mem_cons_self)) store key
      exact hframe.append (ih (fun event hmem => hstamped event (List.mem_cons_of_mem _ hmem))
        (ingestEvent store frame))

/-- Every item of the list is there afterwards. -/
theorem mem_keys_ingestEvents {events : List (AgentStreamEvent Args)}
    (hstamped : Timeline.Stamped events) (store : TimelineStore Args) {key : String} :
    key ∈ (ingestEvents store events).items.map Prod.fst ↔
      (∃ event, .content event ∈ events ∧ clientItemKey event = key) ∨
        key ∈ store.items.map Prod.fst := by
  rw [mem_keys_iff, mem_keys_iff]
  rcases refiled_ingestEvents hstamped store key with ⟨hnone, hsame⟩ | ⟨event, order, hlast,
    hlookup, -⟩
  · rw [hsame]
    refine ⟨.inr, ?_⟩
    rintro (⟨event, hmem, rfl⟩ | hold)
    · have hno := lastOf_eq_none.mp hnone _ hmem
      simp [AgentStreamEvent.hasKey, AgentStreamEvent.itemKey, hstamped event hmem] at hno
    · exact hold
  · obtain ⟨hmem, hkey⟩ := of_lastOf hlast
    refine ⟨fun _ => .inl ⟨event, hmem, ?_⟩, fun _ => ⟨_, hlookup⟩⟩
    simpa [AgentStreamEvent.hasKey, AgentStreamEvent.itemKey, hstamped event hmem] using hkey

/-- A list whose items are all there adds none. -/
theorem keys_ingestEvents_of_mem {events : List (AgentStreamEvent Args)}
    (hstamped : Timeline.Stamped events) {store : TimelineStore Args}
    (hmem : ∀ event, .content event ∈ events → clientItemKey event ∈ store.items.map Prod.fst) :
    (ingestEvents store events).items.map Prod.fst = store.items.map Prod.fst := by
  induction events generalizing store with
  | nil => rfl
  | cons frame rest ih =>
      have hkeys : (ingestEvent store frame).items.map Prod.fst = store.items.map Prod.fst := by
        cases frame with
        | runState running => rfl
        | done => rfl
        | content event =>
            unfold ingestEvent
            simp only [if_pos (hstamped event List.mem_cons_self), ne_eq]
            rw [keys_write, if_pos (hmem event List.mem_cons_self)]
      refine (ih (fun event h => hstamped event (List.mem_cons_of_mem _ h)) ?_).trans hkeys
      intro event h
      rw [hkeys]
      exact hmem event (List.mem_cons_of_mem _ h)

/-- Stamped frames draw no key of their own. -/
theorem localCounter_ingestEvents {events : List (AgentStreamEvent Args)}
    (hstamped : Timeline.Stamped events) (store : TimelineStore Args) :
    (ingestEvents store events).localCounter = store.localCounter := by
  induction events generalizing store with
  | nil => rfl
  | cons frame rest ih =>
      refine (ih (fun event h => hstamped event (List.mem_cons_of_mem _ h)) _).trans ?_
      cases frame with
      | runState running => rfl
      | done => rfl
      | content event =>
          unfold ingestEvent
          simp only [if_pos (hstamped event List.mem_cons_self), ne_eq]

/-- **Twice is once.** -/
theorem ingestEvents_twice {events : List (AgentStreamEvent Args)}
    (hstamped : Timeline.Stamped events) {store : TimelineStore Args}
    (hnd : (store.items.map Prod.fst).Nodup) :
    ingestEvents (ingestEvents store events) events = ingestEvents store events := by
  have hitems : (ingestEvents (ingestEvents store events) events).items =
      (ingestEvents store events).items := by
    have hthere : ∀ event, .content event ∈ events →
        clientItemKey event ∈ (ingestEvents store events).items.map Prod.fst :=
      fun event h => (mem_keys_ingestEvents hstamped store).mpr (.inl ⟨event, h, rfl⟩)
    have hkeys := keys_ingestEvents_of_mem hstamped hthere
    refine (eq_of_keys_of_lookup (nodup_ingestEvents hnd events) hkeys.symm fun key _ => ?_).symm
    rcases refiled_ingestEvents hstamped (ingestEvents store events) key with ⟨-, hsame⟩ |
      ⟨event, order, hlast, hlookup, hplace⟩
    · exact hsame.symm
    · rcases refiled_ingestEvents hstamped store key with ⟨hnone, -⟩ |
        ⟨event', order', hlast', hlookup', -⟩
      · rw [hnone] at hlast
        cases hlast
      · obtain rfl : event' = event := by simpa using hlast'.symm.trans hlast
        rw [hlookup, hlookup', hplace _ hlookup']
  have hstreaming : (ingestEvents (ingestEvents store events) events).streaming =
      (ingestEvents store events).streaming := by
    have hsecond := streaming_ingestEvents events (ingestEvents store events)
    have hfirst := streaming_ingestEvents events store
    cases hlast : lastOf AgentStreamEvent.isRunState events with
    | none =>
        rw [hlast] at hsecond
        simpa using hsecond
    | some frame =>
        rw [hlast] at hfirst hsecond
        simpa using hsecond.trans hfirst.symm
  have hcounter := localCounter_ingestEvents hstamped (ingestEvents store events)
  generalize ingestEvents (ingestEvents store events) events = twice at *
  generalize ingestEvents store events = once at *
  obtain ⟨items, streaming, localCounter⟩ := twice
  obtain ⟨items', streaming', localCounter'⟩ := once
  simp only at hitems hstreaming hcounter
  rw [hitems, hstreaming, hcounter]

/-! ### One entry for each server key -/

/-- The server's key of a content event. -/
def serverKey (event : AgentContentEvent Args) : String := itemKey (.content event "")

/-- The store has one entry for the server's key of every frame, and no other. -/
structure OneEntryPerKey (frames : List (AgentStreamEvent Args)) (store : TimelineStore Args) :
    Prop where
  once : (store.items.map (fun entry => serverKey entry.2.event)).Nodup
  all : ∀ key, key ∈ store.items.map (fun entry => serverKey entry.2.event) ↔
    ∃ event, .content event ∈ frames ∧ serverKey event = key

/-- What an event is nested in has no part in its key. -/
theorem isStamped_nested {event : AgentContentEvent Args} {nestedFor : String}
    (h : IsStamped (.content event nestedFor)) : IsStamped (.content event "") := h

/-- A stamped event is filed under a key of its item. -/
theorem clientItemKey_ne_empty {event : AgentContentEvent Args}
    (h : IsStamped (.content event "")) : clientItemKey event ≠ "" := by
  intro hempty
  have hnone : clientKey (.content event "") = none := if_pos hempty
  cases hkey : timelineItemKey (.content event "") with
  | some key =>
      rw [clientKey_of_key hkey] at hnone
      cases hnone
  | none =>
      rw [clientKey_of_keyless hkey rfl h] at hnone
      cases hnone

/-- On stamped events the two keys tell the same apart. -/
theorem serverKey_eq_iff {event other : AgentContentEvent Args}
    (h : IsStamped (.content event "")) (h' : IsStamped (.content other "")) :
    serverKey event = serverKey other ↔ clientItemKey event = clientItemKey other := by
  have hclient : ∀ e : AgentContentEvent Args, IsStamped (.content e "") →
      clientKey (.content e "") = some (clientItemKey e) :=
    fun e he => itemKey_of_ne (clientItemKey_ne_empty he)
  refine (itemKey_eq_iff rfl rfl h h').trans ?_
  rw [hclient event h, hclient other h', Option.some_inj]

/-- What a store holds was there, or was ingested and stands under its key. -/
theorem mem_ingestEvents {events : List (AgentStreamEvent Args)} (hstamped : Timeline.Stamped events)
    {store : TimelineStore Args} {entry : String × TimelineEntry Args}
    (h : entry ∈ (ingestEvents store events).items) :
    entry ∈ store.items ∨
      (clientItemKey entry.2.event = entry.1 ∧ .content entry.2.event ∈ events) := by
  induction events generalizing store with
  | nil => exact .inl h
  | cons frame rest ih =>
      rcases ih (fun event hmem => hstamped event (List.mem_cons_of_mem _ hmem)) h with
        hfirst | ⟨hkey, hmem⟩
      · cases frame with
        | runState running => exact .inl hfirst
        | done => exact .inl hfirst
        | content event =>
            unfold ingestEvent at hfirst
            simp only [if_pos (hstamped event List.mem_cons_self), ne_eq] at hfirst
            rcases mem_write hfirst with rfl | hold
            · exact .inr ⟨rfl, List.mem_cons_self⟩
            · exact .inl hold
      · exact .inr ⟨hkey, List.mem_cons_of_mem _ hmem⟩

/-- **One entry per server key**, whatever stamped frames are ingested. -/
theorem oneEntryPerKey_ingestEvents {frames : List (AgentStreamEvent Args)}
    (h : ∀ event, .content event ∈ frames → IsStamped (.content event "")) :
    OneEntryPerKey frames (ingestEvents emptyTimelineStore frames) := by
  have hstamped : Timeline.Stamped frames := fun event hmem => clientItemKey_ne_empty (h event hmem)
  have hfiled : ∀ entry ∈ (ingestEvents emptyTimelineStore frames).items,
      clientItemKey entry.2.event = entry.1 ∧ .content entry.2.event ∈ frames := by
    intro entry hentry
    rcases mem_ingestEvents hstamped hentry with hold | hnew
    · cases hold
    · exact hnew
  have hnd : ((ingestEvents (emptyTimelineStore : TimelineStore Args) frames).items.map
      Prod.fst).Nodup := @nodup_ingestEvents Args emptyTimelineStore List.nodup_nil frames
  refine ⟨?_, fun key => ⟨?_, ?_⟩⟩
  · unfold List.Nodup at hnd ⊢
    rw [List.pairwise_map] at hnd ⊢
    refine hnd.imp_of_mem fun {a b} ha hb hne hsame => hne ?_
    obtain ⟨hkey, hmem⟩ := hfiled a ha
    obtain ⟨hkey', hmem'⟩ := hfiled b hb
    rw [← hkey, ← hkey']
    exact (serverKey_eq_iff (h _ hmem) (h _ hmem')).mp hsame
  · intro hkey
    obtain ⟨entry, hentry, rfl⟩ := List.mem_map.mp hkey
    exact ⟨_, (hfiled entry hentry).2, rfl⟩
  · rintro ⟨event, hmem, rfl⟩
    have hthere := (mem_keys_ingestEvents hstamped emptyTimelineStore).mpr
      (.inl ⟨event, hmem, rfl⟩)
    obtain ⟨entry, hentry, hkey⟩ := List.mem_map.mp hthere
    obtain ⟨hkey', hmem'⟩ := hfiled entry hentry
    refine List.mem_map.mpr ⟨entry, hentry, ?_⟩
    exact (serverKey_eq_iff (h _ hmem') (h _ hmem)).mpr (hkey'.trans hkey)

/-! ### What a session emits -/

/-- The events an object stamps in a step, as stamped. -/
def emits (object : Nat) (s : TimelineState Args) : TimelineAction Args → List (AgentEvent Args)
  | .publish o event =>
      if o = object then
        (s.timelines[object]?).toList.map (fun t => (t.stampEvent event).2.1)
      else []
  | .publishTask createdAt task =>
      if s.pooled = some object then
        (s.timelines[object]?).toList.map (fun t => (t.stampEvent (taskEvent createdAt task)).2.1)
      else []
  | _ => []

/-- The events an object stamps along a run, in publication order. -/
def emittedBy (object : Nat) : TimelineState Args → List (TimelineAction Args) →
    List (AgentEvent Args)
  | _, [] => []
  | s, a :: rest =>
      match timelineStep s a with
      | none => []
      | some next => emits object s a ++ emittedBy object next rest

/-- The timeline went on: it counts upwards and keeps the number of a key. -/
structure Extends (t t' : SessionTimeline Args) : Prop where
  seq : t.seq ≤ t'.seq
  kept : ∀ key n, lookup t.itemSeq key = some n → lookup t'.itemSeq key = some n

/-- The timeline has the number of the event's item, and a keyless event has
one. -/
structure Stamps (t : SessionTimeline Args) (event : AgentEvent Args) : Prop where
  keyed : ∀ key, timelineItemKey event = some key → lookup t.itemSeq key = some (seqOf event)
  keyless : IsStamped event

theorem Extends.refl (t : SessionTimeline Args) : Extends t t := ⟨Int.le_refl _, fun _ _ h => h⟩

/-- `_stamp_event` goes on with the timeline, and numbers the event. -/
theorem stampEvent_extends {t : SessionTimeline Args} (hpos : 0 ≤ t.seq) (event : AgentEvent Args) :
    Extends t (t.stampEvent event).1 ∧ Stamps (t.stampEvent event).1 (t.stampEvent event).2.1 := by
  unfold SessionTimeline.stampEvent
  cases hcarries : carriesSeq event with
  | false =>
      simp only [Bool.false_eq_true, if_false]
      refine ⟨Extends.refl t, ?_, ?_⟩
      · intro key hkey
        rw [carriesSeq_of_key hkey] at hcarries
        cases hcarries
      · intro _ hcarries'
        rw [hcarries] at hcarries'
        cases hcarries'
  | true =>
      simp only [if_true]
      rcases takeSeq_cases t (timelineItemKey event) with
        ⟨key, n, hkey, hlookup, htake⟩ | ⟨key, hkey, hlookup, htake⟩ | ⟨hkey, htake⟩
      · rw [htake]
        refine ⟨Extends.refl t, ?_, ?_⟩
        · intro key' hkey'
          rw [timelineItemKey_withSeq, hkey] at hkey'
          obtain rfl := Option.some.inj hkey'
          rw [seqOf_withSeq hcarries]
          exact hlookup
        · intro hnone
          rw [timelineItemKey_withSeq, hkey] at hnone
          cases hnone
      · rw [htake]
        refine ⟨⟨by simp only; omega, ?_⟩, ?_, ?_⟩
        · intro key' n hn
          simp only [lookup_write]
          split
          · rename_i hsame
            rw [hsame, hn] at hlookup
            cases hlookup
          · exact hn
        · intro key' hkey'
          rw [timelineItemKey_withSeq, hkey] at hkey'
          obtain rfl := Option.some.inj hkey'
          rw [seqOf_withSeq hcarries]
          simp only [lookup_write, if_true]
        · intro hnone
          rw [timelineItemKey_withSeq, hkey] at hnone
          cases hnone
      · rw [htake]
        refine ⟨⟨by simp only; omega, fun _ _ h => h⟩, ?_, ?_⟩
        · intro key' hkey'
          rw [timelineItemKey_withSeq, hkey] at hkey'
          cases hkey'
        · intro _ _
          rw [seqOf_withSeq hcarries]
          omega

/-- `publish_external` numbers as `_stamp_event` does. -/
theorem publishExternal_numbers (t : SessionTimeline Args) (event : AgentEvent Args) :
    (t.publishExternal event).1.seq = (t.stampEvent event).1.seq ∧
      (t.publishExternal event).1.itemSeq = (t.stampEvent event).1.itemSeq := by
  unfold SessionTimeline.publishExternal
  generalize t.stampEvent event = stamped
  obtain ⟨t', event', persistKey⟩ := stamped
  cases persistKey with
  | none => exact ⟨rfl, rfl⟩
  | some key =>
      simp only
      split
      · unfold SessionTimeline.enqueue
        split <;> exact ⟨rfl, rfl⟩
      · exact ⟨rfl, rfl⟩

/-- How a step treats the timelines: it leaves them, adds a new one, or goes
on with one of them, which numbers the events the step emits. -/
inductive TimelinesStep (s : TimelineState Args) (a : TimelineAction Args)
    (s' : TimelineState Args) : Prop
  | same (h : s'.timelines = s.timelines) (none : ∀ o, emits o s a = [])
  | new (h : s'.timelines = s.timelines ++ [({} : SessionTimeline Args)]) (none : ∀ o, emits o s a = [])
  | one (i : Nat) (t t' : SessionTimeline Args) (h : s.timelines[i]? = some t)
      (h' : s'.timelines = s.timelines.set i t') (others : ∀ o, o ≠ i → emits o s a = [])
      (goes : 0 ≤ t.seq → Extends t t' ∧ ∀ event ∈ emits i s a, Stamps t' event)

/-- Publishing on a timeline goes on with it. -/
theorem publish_goes {t : SessionTimeline Args} (event : AgentEvent Args) (hpos : 0 ≤ t.seq) :
    Extends t (t.publishExternal event).1 ∧
      Stamps (t.publishExternal event).1 (t.stampEvent event).2.1 := by
  obtain ⟨hextends, hstamps⟩ := stampEvent_extends hpos event
  obtain ⟨hseq, hitemSeq⟩ := publishExternal_numbers t event
  refine ⟨⟨hseq ▸ hextends.seq, hitemSeq ▸ hextends.kept⟩, ⟨?_, hstamps.keyless⟩⟩
  rw [hitemSeq]
  exact hstamps.keyed

/-- The writer numbers nothing. -/
theorem writerMove_numbers {rows rows' : List (TimelineRow Args)} {t t' : SessionTimeline Args}
    {move : WriterMove} (h : writerMove rows t move = some (rows', t')) :
    t'.seq = t.seq ∧ t'.itemSeq = t.itemSeq := by
  cases move with
  | beginClose =>
      obtain ⟨-, rfl⟩ := Prod.mk.inj (Option.some.inj h)
      exact ⟨rfl, rfl⟩
  | takeBatch _ | commitBatch | failBatch | endClose =>
      simp only [writerMove] at h
      split at h <;> cases h <;> exact ⟨rfl, rfl⟩

/-- Storing an event directly numbers nothing. -/
theorem advancePersist_timelines {s s' : TimelineState Args} {i : Nat} {op : PersistOp Args}
    (h : advancePersist s i op = some s') : s'.timelines = s.timelines := by
  have hstamp : ∀ seq, stampPersist s i op seq = some s' → s'.timelines = s.timelines := by
    intro seq hseq
    unfold stampPersist at hseq
    split at hseq
    · cases hseq
    · obtain rfl := Option.some.inj hseq
      rfl
  unfold advancePersist at h
  split at h
  · split at h
    · exact hstamp _ h
    · obtain rfl := Option.some.inj h
      rfl
  · exact hstamp _ h
  · obtain rfl := Option.some.inj h
    rfl

/-- `_publish_task_snapshot` publishes on the pooled object, if there is one. -/
theorem publishTaskSnapshot_timelines {s s' : TimelineState Args} {createdAt : String}
    {task : SubagentTask} (h : publishTaskSnapshot s createdAt task = some s') :
    (s.pooled = none ∧ s'.timelines = s.timelines) ∨
      ∃ object t, s.pooled = some object ∧ s.timelines[object]? = some t ∧
        s'.timelines =
          s.timelines.set object (t.publishExternal (taskEvent createdAt task)).1 := by
  unfold publishTaskSnapshot at h
  simp only at h
  split at h
  · rename_i hpooled
    refine .inl ⟨hpooled, ?_⟩
    split at h <;>
    · obtain rfl := Option.some.inj h
      rfl
  · rename_i object hpooled
    split at h
    · cases h
    · rename_i t ht
      refine .inr ⟨object, t, hpooled, ht, ?_⟩
      have htimelines : (publishOn s object t (taskEvent createdAt task)).1.timelines =
          s.timelines.set object (t.publishExternal (taskEvent createdAt task)).1 := rfl
      generalize publishOn s object t (taskEvent createdAt task) = published at h htimelines
      obtain ⟨s₁, accepted⟩ := published
      cases accepted with
      | true =>
          obtain rfl := Option.some.inj h
          exact htimelines
      | false =>
          simp only at h
          split at h <;>
          · obtain rfl := Option.some.inj h
            exact htimelines

theorem timelines_step {s s' : TimelineState Args} {a : TimelineAction Args}
    (h : timelineStep s a = some s') : TimelinesStep s a s' := by
  cases a with
  | create =>
      simp only [timelineStep] at h
      split at h
      · cases h
      · obtain rfl := Option.some.inj h
        exact .new rfl (fun _ => rfl)
  | evict =>
      simp only [timelineStep] at h
      split at h
      · cases h
      · obtain rfl := Option.some.inj h
        exact .same rfl (fun _ => rfl)
  | readHead object =>
      simp only [timelineStep] at h
      split at h
      · cases h
      · split at h
        · cases h
        · obtain rfl := Option.some.inj h
          exact .same rfl (fun _ => rfl)
  | finishLoad i =>
      simp only [timelineStep] at h
      split at h
      · cases h
      · rename_i load hload
        split at h
        · cases h
        · rename_i t ht
          obtain rfl := Option.some.inj h
          refine .one load.object t _ ht rfl (fun _ _ => rfl) (fun _ => ⟨?_, ?_⟩)
          · unfold SessionTimeline.finishLoad
            split
            · exact Extends.refl t
            · refine ⟨Int.le_max_left _ _, fun key n hn => ?_⟩
              simp only [lookup_setDefaults, hn, Option.some_or]
          · exact fun event hevent => absurd hevent List.not_mem_nil
  | publish object event =>
      simp only [timelineStep] at h
      split at h
      · cases h
      · rename_i t ht
        obtain rfl := Option.some.inj h
        refine .one object t (t.publishExternal event).1 ht rfl ?_ ?_
        · intro o hne
          simp only [emits, if_neg (Ne.symm hne)]
        · intro hpos
          obtain ⟨hextends, hstamps⟩ := publish_goes event hpos
          refine ⟨hextends, fun e he => ?_⟩
          simp only [emits, if_true, ht, Option.toList_some, List.map_cons, List.map_nil,
            List.mem_singleton] at he
          rw [he]
          exact hstamps
  | publishTask createdAt task =>
      rcases publishTaskSnapshot_timelines h with ⟨hpooled, hsame⟩ |
        ⟨object, t, hpooled, ht, hset⟩
      · exact .same hsame (fun o => by simp [emits, hpooled])
      · refine .one object t _ ht hset ?_ ?_
        · intro o hne
          have hother : s.pooled ≠ some o := by
            rw [hpooled]
            exact fun heq => hne (Option.some.inj heq).symm
          simp only [emits, if_neg hother]
        · intro hpos
          obtain ⟨hextends, hstamps⟩ := publish_goes (taskEvent createdAt task) hpos
          refine ⟨hextends, fun e he => ?_⟩
          simp only [emits, if_pos hpooled, ht, Option.toList_some, List.map_cons, List.map_nil,
            List.mem_singleton] at he
          rw [he]
          exact hstamps
  | persist i =>
      simp only [timelineStep] at h
      split at h
      · cases h
      · exact .same (advancePersist_timelines h) (fun _ => rfl)
  | writer object move =>
      simp only [timelineStep] at h
      split at h
      · cases h
      · rename_i t ht
        split at h
        · cases h
        · rename_i rows t' hmove
          obtain rfl := Option.some.inj h
          obtain ⟨hseq, hitemSeq⟩ := writerMove_numbers hmove
          refine .one object t t' ht rfl (fun _ _ => rfl) (fun _ => ⟨?_, ?_⟩)
          · exact ⟨Int.le_of_eq hseq.symm, fun key n hn => hitemSeq ▸ hn⟩
          · exact fun event hevent => absurd hevent List.not_mem_nil
  | deliver i =>
      simp only [timelineStep] at h
      split at h
      · cases h
      · split at h
        · obtain rfl := Option.some.inj h
          exact .same rfl (fun _ => rfl)
        · cases h

/-- The counters of all timelines start at nought and only grow. -/
def Counting (s : TimelineState Args) : Prop := ∀ t ∈ s.timelines, 0 ≤ t.seq

theorem Counting.step {s s' : TimelineState Args} {a : TimelineAction Args} (h : Counting s)
    (hstep : timelineStep s a = some s') : Counting s' := by
  intro t hmem
  cases timelines_step hstep with
  | same hsame _ => exact h t (hsame ▸ hmem)
  | new hnew _ =>
      rw [hnew] at hmem
      rcases List.mem_append.mp hmem with hold | hone
      · exact h t hold
      · obtain rfl := List.mem_singleton.mp hone
        exact Int.le_refl _
  | one i t₀ t' hi hset _ hgoes =>
      rw [hset] at hmem
      rcases List.mem_or_eq_of_mem_set hmem with hold | rfl
      · exact h t hold
      · have hpos := h t₀ (List.mem_of_getElem? hi)
        exact Int.le_trans hpos (hgoes hpos).1.seq

/-- One number for each item with a key of its own, over everything an object
emits. -/
theorem emittedBy_numbered {object : Nat} {s : TimelineState Args} (hs : Counting s)
    (acts : List (TimelineAction Args)) :
    ∃ number : String → Int,
      (∀ t, s.timelines[object]? = some t →
        ∀ key n, lookup t.itemSeq key = some n → number key = n) ∧
      ∀ event ∈ emittedBy object s acts, IsStamped event ∧
        ∀ key, timelineItemKey event = some key → seqOf event = number key := by
  induction acts generalizing s with
  | nil =>
      refine ⟨fun key => ((s.timelines[object]?).bind (fun t => lookup t.itemSeq key)).getD 0,
        ?_, fun event hevent => absurd hevent List.not_mem_nil⟩
      intro t ht key n hn
      simp [ht, hn]
  | cons a rest ih =>
      cases hstep : timelineStep s a with
      | none =>
          obtain ⟨number, hnumber, -⟩ := @ih s hs
          refine ⟨number, hnumber, fun event hevent => ?_⟩
          simp [emittedBy, hstep] at hevent
      | some next =>
          obtain ⟨number, hnumber, hrest⟩ := ih (hs.step hstep)
          have hlist : emittedBy object s (a :: rest) =
              emits object s a ++ emittedBy object next rest := by
            simp [emittedBy, hstep]
          rw [hlist]
          cases timelines_step hstep with
          | same hsame hnone =>
              rw [hnone, List.nil_append]
              exact ⟨number, fun t ht => hnumber t (hsame ▸ ht), hrest⟩
          | new hnew hnone =>
              rw [hnone, List.nil_append]
              refine ⟨number, fun t ht => hnumber t ?_, hrest⟩
              rw [hnew, List.getElem?_append_left (List.getElem?_eq_some_iff.mp ht).1]
              exact ht
          | one i t t' hi hset hothers hgoes =>
              by_cases hmine : object = i
              · subst hmine
                obtain ⟨hextends, hstamps⟩ := hgoes (hs t (List.mem_of_getElem? hi))
                have hnext : next.timelines[object]? = some t' := by
                  rw [hset, List.getElem?_set_self (List.getElem?_eq_some_iff.mp hi).1]
                refine ⟨number, ?_, ?_⟩
                · intro t₀ ht₀ key n hn
                  obtain rfl := Option.some.inj (hi.symm.trans ht₀)
                  exact hnumber t' hnext key n (hextends.kept key n hn)
                · intro event hevent
                  rcases List.mem_append.mp hevent with hnow | hlater
                  · have hstamp := hstamps event hnow
                    exact ⟨hstamp.keyless, fun key hkey =>
                      (hnumber t' hnext key _ (hstamp.keyed key hkey)).symm⟩
                  · exact hrest event hlater
              · rw [hothers object hmine, List.nil_append]
                refine ⟨number, fun t₀ ht₀ => hnumber t₀ ?_, hrest⟩
                rw [hset, List.getElem?_set_ne (Ne.symm hmine)]
                exact ht₀

/-- Frames of one item carry one number. -/
theorem emittedBy_oneSeq {object : Nat} {s : TimelineState Args} (hs : Counting s)
    {acts : List (TimelineAction Args)} {x y : AgentEvent Args}
    (hx : x ∈ emittedBy object s acts) (hy : y ∈ emittedBy object s acts)
    (hxc : carriesSeq x = true) (hyc : carriesSeq y = true) (heq : itemKey x = itemKey y) :
    seqOf x = seqOf y := by
  obtain ⟨number, -, hall⟩ := @emittedBy_numbered Args object s hs acts
  unfold itemKey at heq
  cases hkx : timelineItemKey x with
  | some key =>
      cases hky : timelineItemKey y with
      | some key' =>
          rw [hkx, hky] at heq
          obtain rfl : key = key' := heq
          rw [(hall x hx).2 key hkx, (hall y hy).2 key hky]
      | none =>
          rw [hkx, hky] at heq
          exact absurd ⟨x, hkx.trans (congrArg some heq)⟩ (keylessKey_not_keyed hky hyc _)
  | none =>
      cases hky : timelineItemKey y with
      | some key =>
          rw [hkx, hky] at heq
          exact absurd ⟨y, hky.trans (congrArg some heq.symm)⟩ (keylessKey_not_keyed hkx hxc _)
      | none =>
          rw [hkx, hky] at heq
          exact keylessKey_inj hkx hxc hky hyc heq

/-! ### What reaches the client -/

/-- Where the client gets frames from: a piece of the live stream, or a page of
history read when `upTo` events had been published. -/
inductive Source where
  | live (start stop : Nat)
  | history (upTo : Nat) (keys : List String)
  deriving DecidableEq, Repr

/-- The stored version of some items, by the server's key. -/
def historyPage (emitted : List (AgentEvent Args)) (keys : List String) : List (AgentEvent Args) :=
  keys.filterMap (fun key =>
    lastOf (fun event => isPersistable event && decide (itemKey event = key)) emitted)

/-- The events a source hands over. -/
def Source.events (emitted : List (AgentEvent Args)) : Source → List (AgentEvent Args)
  | .live start stop => (emitted.take stop).drop start
  | .history upTo keys => historyPage (emitted.take upTo) keys

/-- All frames the sources hand over. -/
def delivered (emitted : List (AgentEvent Args)) (sources : List Source) :
    List (AgentStreamEvent Args) :=
  (sources.map (fun source => (source.events emitted).map wire)).flatten

/-- The store after ingesting one source after the other. -/
def ingestSources (emitted : List (AgentEvent Args)) (sources : List Source) : TimelineStore Args :=
  sources.foldl (fun store source => ingestEvents store ((source.events emitted).map wire))
    emptyTimelineStore

/-- **The client's store follows the server's identity.**  From any sources, in
any order, there is one entry for each server key, in `seq` order; frames
ingested a second time change nothing. -/
structure FollowsServer (emitted : List (AgentEvent Args)) : Prop where
  stamped : ∀ event ∈ emitted, IsStamped event
  entries : ∀ sources, OneEntryPerKey (delivered emitted sources) (ingestSources emitted sources)
  again : ∀ (earlier : List (AgentStreamEvent Args)) (events : List (AgentEvent Args)),
    (∀ event ∈ events, event ∈ emitted) →
      ingestEvents (ingestEvents (ingestEvents emptyTimelineStore earlier) (events.map wire))
          (events.map wire) =
        ingestEvents (ingestEvents emptyTimelineStore earlier) (events.map wire)
  sorted : ∀ sources, SortedBySeq (orderedEvents (ingestSources emitted sources))

theorem ingestSources_eq (emitted : List (AgentEvent Args)) (sources : List Source) :
    ingestSources emitted sources = ingestEvents emptyTimelineStore (delivered emitted sources) := by
  unfold ingestSources ingestEvents delivered
  rw [List.foldl_flatten, List.foldl_map]

/-- A source hands over emitted events. -/
theorem Source.mem_events {emitted : List (AgentEvent Args)} {source : Source}
    {event : AgentEvent Args} (h : event ∈ source.events emitted) : event ∈ emitted := by
  cases source with
  | live start stop => exact List.mem_of_mem_take (List.mem_of_mem_drop h)
  | history upTo keys =>
      obtain ⟨key, -, hlast⟩ := List.mem_filterMap.mp h
      exact List.mem_of_mem_take (of_lastOf hlast).1

/-- A content frame is the wire form of a content event. -/
theorem content_of_wire {x : AgentEvent Args} {event : AgentContentEvent Args}
    (h : wire x = .content event) : ∃ nestedFor, x = .content event nestedFor := by
  cases x with
  | content e nestedFor => exact ⟨nestedFor, by rw [AgentStreamEvent.content.inj h]⟩
  | runState running => cases h
  | done nestedCallId => cases h

theorem mem_delivered {emitted : List (AgentEvent Args)} {sources : List Source}
    {event : AgentContentEvent Args} (h : .content event ∈ delivered emitted sources) :
    ∃ nestedFor, .content event nestedFor ∈ emitted := by
  obtain ⟨frames, hframes, hevent⟩ := List.mem_flatten.mp h
  obtain ⟨source, -, rfl⟩ := List.mem_map.mp hframes
  obtain ⟨x, hx, hwire⟩ := List.mem_map.mp hevent
  obtain ⟨nestedFor, rfl⟩ := content_of_wire hwire
  exact ⟨nestedFor, Source.mem_events hx⟩

open Classical in
/-- Where the versions of an item agree on their number, it is the item's. -/
theorem exists_oneSeq {frames : List (AgentStreamEvent Args)}
    (h : ∀ e e', .content e ∈ frames → .content e' ∈ frames →
      clientItemKey e = clientItemKey e' → e.seq = e'.seq) :
    ∃ number : String → Int, OneSeq number frames := by
  refine ⟨fun key => if hex : ∃ e, .content e ∈ frames ∧ clientItemKey e = key then
    hex.choose.seq else 0, fun event hmem => ?_⟩
  have hex : ∃ e, .content e ∈ frames ∧ clientItemKey e = clientItemKey event :=
    ⟨event, hmem, rfl⟩
  simp only [dif_pos hex]
  exact h event hex.choose hmem hex.choose_spec.1 hex.choose_spec.2.symm

end Workbench.TimelineLog
