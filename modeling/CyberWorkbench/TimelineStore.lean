import CyberWorkbench.ChatTranscript
import CyberWorkbench.LastWrite

/-!
# The client's timeline store

`web/src/features/playground/timelineStore`: frames from history pages, turn
responses and the live stream are upserted under their item key, whatever
their source, and a `run_state` frame sets the streaming flag.  All versions
of an item share one `seq`, so the store cannot tell which of two is newer: the
one applied last stays.

`merge_agrees_iff` says exactly when the outcome is nevertheless what the
server last emitted, and `merge_in_production_order` that it is when batches
are applied in the order they were produced.
-/

namespace Workbench.Timeline

open LastWrite

variable {Args : Type}

/-! ### Frames -/

/-- `AgentStreamEvent`: a content event or one of the two control frames. -/
inductive AgentStreamEvent (Args : Type) where
  | content (event : AgentContentEvent Args)
  | runState (running : Bool)
  | done
  deriving DecidableEq, Repr

/-- The key a frame is stored under; `none` for control frames and for frames
that get a key of their own. -/
def AgentStreamEvent.itemKey : AgentStreamEvent Args → Option String
  | .content event => if clientItemKey event = "" then none else some (clientItemKey event)
  | .runState _ | .done => none

/-- The frame is a version of this item. -/
def AgentStreamEvent.hasKey (key : String) (frame : AgentStreamEvent Args) : Bool :=
  decide (frame.itemKey = some key)

def AgentStreamEvent.isRunState : AgentStreamEvent Args → Bool
  | .runState _ => true
  | .content _ | .done => false

/-- The frame is stored by the server: a content event that is no delta. -/
def AgentStreamEvent.isPersistable : AgentStreamEvent Args → Bool
  | .content event =>
      match event.body with
      | .segment _ complete _ _ => complete
      | _ => true
  | .runState _ | .done => false

/-- `event.type`. -/
def eventType : EventBody Args → String
  | .userMessage _ _ _ => "user_message"
  | .turnBoundary => "turn_boundary"
  | .segment .text false _ _ => "text_delta"
  | .segment .text true _ _ => "text_complete"
  | .segment .thinking false _ _ => "thinking_delta"
  | .segment .thinking true _ _ => "thinking_complete"
  | .toolCall _ _ _ => "tool_call"
  | .toolResult _ _ _ => "tool_result"
  | .subagentTask _ => "subagent_task"
  | .error _ => "error"

/-! ### The store -/

/-- `TimelineEntry`. -/
structure TimelineEntry (Args : Type) where
  seq : Int
  order : Int
  event : AgentContentEvent Args
  deriving DecidableEq, Repr

/-- `TimelineStore`; `items` is a `Map` in insertion order. -/
structure TimelineStore (Args : Type) where
  items : List (String × TimelineEntry Args) := []
  streaming : Bool := false
  localCounter : Nat := 0
  deriving DecidableEq, Repr

/-- `emptyTimelineStore`. -/
def emptyTimelineStore : TimelineStore Args := {}

/-- `SYNTHETIC_ORDER_BASE`. -/
def syntheticOrderBase : Int := 9007199254740991 - 1000000

/-- The body of the loop of `ingestEvents`. -/
def ingestEvent (store : TimelineStore Args) : AgentStreamEvent Args → TimelineStore Args
  | .runState running => { store with streaming := running }
  | .done => store
  | .content event =>
      let key := clientItemKey event
      if key ≠ "" then
        let order := match lookup store.items key with
          | some existing => existing.order
          | none => event.seq
        { store with items := write key ⟨event.seq, order, event⟩ store.items }
      else
        let localCounter := store.localCounter + 1
        let key := "local:" ++ eventType event.body ++ ":" ++ toString localCounter
        let order := syntheticOrderBase + localCounter
        { store with
          items := write key ⟨event.seq, order, event⟩ store.items
          localCounter := localCounter }

/-- `ingestEvents`. -/
def ingestEvents (store : TimelineStore Args) (events : List (AgentStreamEvent Args)) :
    TimelineStore Args :=
  events.foldl ingestEvent store

/-- `(a, b) => a.order - b.order || a.seq - b.seq`: `a` does not come after `b`. -/
def TimelineEntry.notAfter (a b : TimelineEntry Args) : Bool :=
  decide (a.order < b.order ∨ (a.order = b.order ∧ a.seq ≤ b.seq))

/-- One step of the stable sort. -/
def insertEntry (entry : TimelineEntry Args) : List (TimelineEntry Args) → List (TimelineEntry Args)
  | [] => [entry]
  | first :: rest =>
      if entry.notAfter first then entry :: first :: rest else first :: insertEntry entry rest

/-- `orderedEvents`. -/
def orderedEvents (store : TimelineStore Args) : List (AgentContentEvent Args) :=
  ((store.items.map Prod.snd).foldr insertEntry []).map TimelineEntry.event

/-! ### What the server emits, and what reaches the client -/

/-- Every content frame carries its stamp: it has a key. -/
def Stamped (emitted : List (AgentStreamEvent Args)) : Prop :=
  ∀ event, .content event ∈ emitted → clientItemKey event ≠ ""

/-- One batch.  `stop` and `upTo` count what the server had emitted when the
batch was produced. -/
inductive Batch where
  /-- The newest stored version of some items. -/
  | historyPage (upTo : Nat) (keys : List String)
  | turnResponse (start stop : Nat)
  | livePiece (start stop : Nat)
  deriving DecidableEq, Repr

/-- How much had been emitted when the batch was produced. -/
def Batch.producedAt : Batch → Nat
  | .historyPage upTo _ => upTo
  | .turnResponse _ stop | .livePiece _ stop => stop

/-- The newest version of an item. -/
def newest (key : String) (emitted : List (AgentStreamEvent Args)) :
    Option (AgentStreamEvent Args) :=
  lastOf (AgentStreamEvent.hasKey key) emitted

/-- The newest stored version of an item. -/
def newestStored (key : String) (emitted : List (AgentStreamEvent Args)) :
    Option (AgentStreamEvent Args) :=
  lastOf (fun frame => frame.hasKey key && frame.isPersistable) emitted

/-- The frames of a batch. -/
def Batch.frames (emitted : List (AgentStreamEvent Args)) : Batch → List (AgentStreamEvent Args)
  | .historyPage upTo keys => keys.filterMap (fun key => newestStored key (emitted.take upTo))
  | .turnResponse start stop | .livePiece start stop => (emitted.take stop).drop start

/-- The batches, applied one after the other. -/
def ingestBatches (emitted : List (AgentStreamEvent Args)) (batches : List Batch) :
    TimelineStore Args :=
  batches.foldl (fun store batch => ingestEvents store (batch.frames emitted)) emptyTimelineStore

/-- The store holds the newest version of every item, and the last `run_state`. -/
structure Agrees (emitted : List (AgentStreamEvent Args)) (store : TimelineStore Args) : Prop where
  items : ∀ key event, newest key emitted = some (.content event) →
    (lookup store.items key).map TimelineEntry.event = some event
  streaming : ∀ running, lastOf AgentStreamEvent.isRunState emitted = some (.runState running) →
    store.streaming = running

/-- The last batch with a version of an item ends with the newest one, and the
last batch with a `run_state` with the last one; a flag that is to be false may
be in no batch at all. -/
structure NewestLast (emitted : List (AgentStreamEvent Args)) (batches : List Batch) : Prop where
  items : ∀ key event, newest key emitted = some (.content event) →
    LastBlock (AgentStreamEvent.hasKey key) (batches.map (Batch.frames emitted)) (.content event)
  streaming : ∀ running, lastOf AgentStreamEvent.isRunState emitted = some (.runState running) →
    LastBlock AgentStreamEvent.isRunState (batches.map (Batch.frames emitted))
        (.runState running) ∨
      (running = false ∧
        ∀ batch ∈ batches, lastOf AgentStreamEvent.isRunState (batch.frames emitted) = none)

/-! ### Ingesting -/

/-- What the store holds under a key, as a frame. -/
def held (store : TimelineStore Args) (key : String) : Option (AgentStreamEvent Args) :=
  (lookup store.items key).map (fun entry => .content entry.event)

theorem held_ingestEvent {store : TimelineStore Args} {frame : AgentStreamEvent Args}
    (hstamped : ∀ event, frame = .content event → clientItemKey event ≠ "") (key : String) :
    held (ingestEvent store frame) key =
      (lastOf (AgentStreamEvent.hasKey key) [frame]).or (held store key) := by
  rw [lastOf_singleton]
  cases frame with
  | runState running => rfl
  | done => rfl
  | content event =>
      have hkeyed := hstamped event rfl
      by_cases hkey : clientItemKey event = key
      · subst hkey
        simp [held, ingestEvent, hkeyed, lookup_write, AgentStreamEvent.hasKey,
          AgentStreamEvent.itemKey]
      · simp [held, ingestEvent, hkeyed, lookup_write, AgentStreamEvent.hasKey,
          AgentStreamEvent.itemKey, hkey]

/-- **The last version applied stays.** -/
theorem held_ingestEvents {events : List (AgentStreamEvent Args)} (hstamped : Stamped events)
    (store : TimelineStore Args) (key : String) :
    held (ingestEvents store events) key =
      (lastOf (AgentStreamEvent.hasKey key) events).or (held store key) := by
  induction events generalizing store with
  | nil => rfl
  | cons frame rest ih =>
      have hframe : ∀ event, frame = .content event → clientItemKey event ≠ "" :=
        fun event h => hstamped event (h ▸ List.mem_cons_self)
      have hrest : Stamped rest := fun event h => hstamped event (List.mem_cons_of_mem _ h)
      have happend := lastOf_append (AgentStreamEvent.hasKey key) [frame] rest
      rw [List.singleton_append] at happend
      rw [happend, Option.or_assoc, ← held_ingestEvent hframe key]
      exact ih hrest (ingestEvent store frame)

theorem streaming_ingestEvents (events : List (AgentStreamEvent Args))
    (store : TimelineStore Args) :
    .runState (ingestEvents store events).streaming =
      (lastOf AgentStreamEvent.isRunState events).getD (.runState store.streaming) := by
  induction events generalizing store with
  | nil => rfl
  | cons frame rest ih =>
      have happend := lastOf_append AgentStreamEvent.isRunState [frame] rest
      rw [List.singleton_append] at happend
      have hrest := ih (ingestEvent store frame)
      rw [happend]
      cases hlast : lastOf AgentStreamEvent.isRunState rest with
      | some last =>
          rw [hlast] at hrest
          exact hrest
      | none =>
          rw [hlast] at hrest
          refine hrest.trans ?_
          rw [lastOf_singleton]
          cases frame with
          | runState running => rfl
          | done => rfl
          | content event =>
              have hsame : (ingestEvent store (.content event)).streaming = store.streaming := by
                unfold ingestEvent
                simp only
                split <;> rfl
              simp [hsame, AgentStreamEvent.isRunState]

/-! ### Batches -/

/-- A batch holds only frames the server emitted. -/
theorem mem_of_mem_frames {emitted : List (AgentStreamEvent Args)} {batch : Batch}
    {frame : AgentStreamEvent Args} (h : frame ∈ batch.frames emitted) : frame ∈ emitted := by
  cases batch with
  | historyPage upTo keys =>
      obtain ⟨key, -, hnewest⟩ := List.mem_filterMap.mp h
      exact List.mem_of_mem_take (of_lastOf hnewest).1
  | turnResponse start stop => exact List.mem_of_mem_take (List.mem_of_mem_drop h)
  | livePiece start stop => exact List.mem_of_mem_take (List.mem_of_mem_drop h)

theorem stamped_frames {emitted : List (AgentStreamEvent Args)} (hstamped : Stamped emitted)
    (batches : List Batch) : Stamped (batches.map (Batch.frames emitted)).flatten := by
  intro event hmem
  obtain ⟨frames, hframes, hevent⟩ := List.mem_flatten.mp hmem
  obtain ⟨batch, -, rfl⟩ := List.mem_map.mp hframes
  exact hstamped event (mem_of_mem_frames hevent)

/-- Applying batches is applying their frames. -/
theorem ingestBatches_eq (emitted : List (AgentStreamEvent Args)) (batches : List Batch) :
    ingestBatches emitted batches =
      ingestEvents emptyTimelineStore (batches.map (Batch.frames emitted)).flatten := by
  unfold ingestBatches ingestEvents
  rw [List.foldl_flatten, List.foldl_map]

/-- The store holds, under each key, the last version of the last batch that
has one. -/
theorem held_ingestBatches {emitted : List (AgentStreamEvent Args)} (hstamped : Stamped emitted)
    (batches : List Batch) (key : String) :
    held (ingestBatches emitted batches) key =
      lastOf (AgentStreamEvent.hasKey key) (batches.map (Batch.frames emitted)).flatten := by
  rw [ingestBatches_eq, held_ingestEvents (stamped_frames hstamped batches)]
  exact Option.or_none

theorem streaming_ingestBatches (emitted : List (AgentStreamEvent Args)) (batches : List Batch) :
    .runState (ingestBatches emitted batches).streaming =
      (lastOf AgentStreamEvent.isRunState (batches.map (Batch.frames emitted)).flatten).getD
        (.runState false) := by
  rw [ingestBatches_eq, streaming_ingestEvents]
  rfl

/-- An item is held in a version exactly when that version is the last of the
last batch that has one. -/
theorem holds_version_iff {emitted : List (AgentStreamEvent Args)} (hstamped : Stamped emitted)
    (batches : List Batch) (key : String) (event : AgentContentEvent Args) :
    (lookup (ingestBatches emitted batches).items key).map TimelineEntry.event = some event ↔
      LastBlock (AgentStreamEvent.hasKey key) (batches.map (Batch.frames emitted))
        (.content event) := by
  have hheld := held_ingestBatches hstamped batches key
  rw [← lastOf_flatten_eq_some, ← hheld]
  unfold held
  cases lookup (ingestBatches emitted batches).items key with
  | none => simp
  | some entry => simp

/-- The streaming flag is the last `run_state` of the last batch that has one. -/
theorem streaming_iff (emitted : List (AgentStreamEvent Args)) (batches : List Batch)
    (running : Bool) :
    (ingestBatches emitted batches).streaming = running ↔
      LastBlock AgentStreamEvent.isRunState (batches.map (Batch.frames emitted))
          (.runState running) ∨
        (running = false ∧
          ∀ batch ∈ batches, lastOf AgentStreamEvent.isRunState (batch.frames emitted) = none) := by
  have hflag := streaming_ingestBatches emitted batches
  have hnone : lastOf AgentStreamEvent.isRunState (batches.map (Batch.frames emitted)).flatten =
      none ↔
      ∀ batch ∈ batches, lastOf AgentStreamEvent.isRunState (batch.frames emitted) = none := by
    simp only [lastOf_eq_none, List.mem_flatten, List.mem_map]
    constructor
    · intro h batch hbatch frame hframe
      exact h frame ⟨_, ⟨batch, hbatch, rfl⟩, hframe⟩
    · rintro h frame ⟨_, ⟨batch, hbatch, rfl⟩, hframe⟩
      exact h batch hbatch frame hframe
  rw [← lastOf_flatten_eq_some, ← hnone]
  cases hlast : lastOf AgentStreamEvent.isRunState (batches.map (Batch.frames emitted)).flatten with
  | none =>
      rw [hlast] at hflag
      simp only [Option.getD_none, AgentStreamEvent.runState.injEq] at hflag
      simp [hflag, eq_comm]
  | some last =>
      rw [hlast] at hflag
      simp only [Option.getD_some] at hflag
      simp [← hflag]

/-- **Client merge.**  Whatever batches are applied in whatever order, the
store agrees with the server exactly when the batch applied last for an item
ends with its newest version, and the one applied last with a `run_state` with
the last. -/
theorem merge_agrees_iff {emitted : List (AgentStreamEvent Args)} (hstamped : Stamped emitted)
    (batches : List Batch) :
    Agrees emitted (ingestBatches emitted batches) ↔ NewestLast emitted batches := by
  constructor
  · rintro ⟨hitems, hstreaming⟩
    constructor
    · intro key event hnewest
      exact (holds_version_iff hstamped batches key event).mp (hitems key event hnewest)
    · intro running hlast
      exact (streaming_iff emitted batches running).mp (hstreaming running hlast)
  · rintro ⟨hitems, hstreaming⟩
    constructor
    · intro key event hnewest
      exact (holds_version_iff hstamped batches key event).mpr (hitems key event hnewest)
    · intro running hlast
      exact (streaming_iff emitted batches running).mpr (hstreaming running hlast)

/-- The frame of a subagent run. -/
def runFrame (status : String) : AgentContentEvent Unit :=
  ⟨"", 2, "lead", "", .subagentTask { runId := "r", agentCode := "scan", status }⟩

/-- A turn in which a subagent finishes, as the server emits it. -/
def finishedRun : List (AgentStreamEvent Unit) :=
  [.runState true, .content ⟨"", 1, "", "", .userMessage [.text "go"] "" "lead"⟩,
    .content (runFrame "running"), .content (runFrame "completed"), .runState false]

theorem stamped_finishedRun : Stamped finishedRun := by
  intro event hmem
  simp only [finishedRun, List.mem_cons, AgentStreamEvent.content.injEq, reduceCtorEq, false_or,
    List.not_mem_nil, or_false] at hmem
  rcases hmem with rfl | rfl | rfl <;> decide

theorem merge_agrees_finishedRun :
    Stamped finishedRun ∧
      (Agrees finishedRun (ingestBatches finishedRun [.turnResponse 0 2, .livePiece 0 5]) ↔
        NewestLast finishedRun [.turnResponse 0 2, .livePiece 0 5]) :=
  ⟨stamped_finishedRun, merge_agrees_iff stamped_finishedRun _⟩

/-- A history page and a turn response, produced before the run finished, that
arrive after the live frames. -/
def lateBatches : List Batch :=
  [.livePiece 0 5, .turnResponse 0 2, .historyPage 3 ["user:1", "sa:r"]]

/-- The live frames cover everything, yet the finished run is back at running,
and the session is shown as streaming. -/
theorem late_batches_revert :
    Stamped finishedRun ∧
      (∀ key frame, newest key finishedRun = some frame →
        frame ∈ (Batch.livePiece 0 5).frames finishedRun) ∧
      newest "sa:r" finishedRun = some (.content (runFrame "completed")) ∧
      (lookup (ingestBatches finishedRun lateBatches).items "sa:r").map TimelineEntry.event =
        some (runFrame "running") ∧
      lastOf AgentStreamEvent.isRunState finishedRun = some (.runState false) ∧
      (ingestBatches finishedRun lateBatches).streaming = true ∧
      ¬ Agrees finishedRun (ingestBatches finishedRun lateBatches) := by
  refine ⟨stamped_finishedRun, ?_, by decide, by decide, by decide, by decide, ?_⟩
  · intro key frame hnewest
    exact (of_lastOf hnewest).1
  · intro hagrees
    have hflag := hagrees.streaming false (by decide)
    revert hflag
    decide

/-! ### In the order they were produced -/

/-- When the batch was produced, the last such frame had been emitted. -/
def Batch.Current (emitted : List (AgentStreamEvent Args)) (p : AgentStreamEvent Args → Bool)
    (batch : Batch) : Prop :=
  lastOf p (emitted.drop batch.producedAt) = none

theorem lastOf_take_of_current {emitted : List (AgentStreamEvent Args)}
    {p : AgentStreamEvent Args → Bool} {batch : Batch} (h : batch.Current emitted p) :
    lastOf p (emitted.take batch.producedAt) = lastOf p emitted := by
  conv => rhs; rw [← List.take_append_drop batch.producedAt emitted]
  rw [lastOf_append, h, Option.none_or]

/-- A batch produced later is current as well. -/
theorem Batch.Current.of_le {emitted : List (AgentStreamEvent Args)}
    {p : AgentStreamEvent Args → Bool} {batch later : Batch} (h : batch.Current emitted p)
    (hle : batch.producedAt ≤ later.producedAt) : later.Current emitted p := by
  unfold Batch.Current at h ⊢
  rw [lastOf_eq_none] at h ⊢
  intro frame hmem
  obtain ⟨more, hmore⟩ := Nat.exists_eq_add_of_le hle
  rw [hmore, ← List.drop_drop] at hmem
  exact h frame (List.mem_of_mem_drop hmem)

/-- No delta is emitted after a complete version of its item, so that the
newest stored version is the newest one once there is one. -/
def CompletedLast (emitted : List (AgentStreamEvent Args)) : Prop :=
  ∀ key upTo frame, newestStored key (emitted.take upTo) = some frame →
    newest key (emitted.take upTo) = some frame

/-- What a piece of the stream ends with. -/
theorem lastOf_piece {l : List (AgentStreamEvent Args)} {p : AgentStreamEvent Args → Bool}
    (start : Nat) : lastOf p (l.drop start) = none ∨ lastOf p (l.drop start) = lastOf p l := by
  cases hlast : lastOf p (l.drop start) with
  | none => exact .inl rfl
  | some frame =>
      refine .inr ?_
      conv => rhs; rw [← List.take_append_drop start l]
      rw [lastOf_append, hlast]
      rfl

/-- A history page has at most the newest stored version of an item. -/
theorem lastOf_historyPage (emitted : List (AgentStreamEvent Args)) (upTo : Nat)
    (keys : List String) (key : String) :
    lastOf (AgentStreamEvent.hasKey key) ((Batch.historyPage upTo keys).frames emitted) = none ∨
      lastOf (AgentStreamEvent.hasKey key) ((Batch.historyPage upTo keys).frames emitted) =
        newestStored key (emitted.take upTo) := by
  cases hlast : lastOf (AgentStreamEvent.hasKey key)
      ((Batch.historyPage upTo keys).frames emitted) with
  | none => exact .inl rfl
  | some frame =>
      refine .inr ?_
      obtain ⟨hmem, hkey⟩ := of_lastOf hlast
      obtain ⟨other, -, hstored⟩ := List.mem_filterMap.mp hmem
      have hother : frame.hasKey other = true := by
        have hboth := (of_lastOf hstored).2
        simp only [Bool.and_eq_true] at hboth
        exact hboth.1
      simp only [AgentStreamEvent.hasKey, decide_eq_true_eq] at hkey hother
      rw [hkey] at hother
      obtain rfl := Option.some.inj hother
      exact hstored.symm

/-- A current batch has no version of an item, or ends with the newest. -/
theorem lastOf_frames_of_current {emitted : List (AgentStreamEvent Args)}
    (hcompleted : CompletedLast emitted) {batch : Batch} {key : String}
    (h : batch.Current emitted (AgentStreamEvent.hasKey key)) :
    lastOf (AgentStreamEvent.hasKey key) (batch.frames emitted) = none ∨
      lastOf (AgentStreamEvent.hasKey key) (batch.frames emitted) = newest key emitted := by
  have htake := lastOf_take_of_current h
  cases batch with
  | historyPage upTo keys =>
      rcases lastOf_historyPage emitted upTo keys key with hnone | hstored
      · exact .inl hnone
      · cases hframe : newestStored key (emitted.take upTo) with
        | none => exact .inl (hstored.trans hframe)
        | some frame =>
            refine .inr (hstored.trans ?_)
            exact hframe.trans ((hcompleted key upTo frame hframe).symm.trans htake)
  | turnResponse start stop =>
      exact (lastOf_piece start).imp id (fun hpiece => hpiece.trans htake)
  | livePiece start stop =>
      exact (lastOf_piece start).imp id (fun hpiece => hpiece.trans htake)

/-- A history page has no `run_state`. -/
theorem lastOf_isRunState_historyPage (emitted : List (AgentStreamEvent Args)) (upTo : Nat)
    (keys : List String) :
    lastOf AgentStreamEvent.isRunState ((Batch.historyPage upTo keys).frames emitted) = none := by
  rw [lastOf_eq_none]
  intro frame hmem
  obtain ⟨key, -, hstored⟩ := List.mem_filterMap.mp hmem
  have hboth := (of_lastOf hstored).2
  cases frame with
  | content event => rfl
  | done => rfl
  | runState running => simp [AgentStreamEvent.isPersistable] at hboth

/-- A current batch has no `run_state`, or ends with the last. -/
theorem lastOf_isRunState_of_current {emitted : List (AgentStreamEvent Args)} {batch : Batch}
    (h : batch.Current emitted AgentStreamEvent.isRunState) :
    lastOf AgentStreamEvent.isRunState (batch.frames emitted) = none ∨
      lastOf AgentStreamEvent.isRunState (batch.frames emitted) =
        lastOf AgentStreamEvent.isRunState emitted := by
  have htake := lastOf_take_of_current h
  cases batch with
  | historyPage upTo keys => exact .inl (lastOf_isRunState_historyPage emitted upTo keys)
  | turnResponse start stop =>
      exact (lastOf_piece start).imp id (fun hpiece => hpiece.trans htake)
  | livePiece start stop =>
      exact (lastOf_piece start).imp id (fun hpiece => hpiece.trans htake)

/-- Some batch has the last such frame, and was produced when it had been
emitted. -/
def Covers (emitted : List (AgentStreamEvent Args)) (batches : List Batch)
    (p : AgentStreamEvent Args → Bool) : Prop :=
  ∃ batch ∈ batches, batch.Current emitted p ∧
    lastOf p (batch.frames emitted) = lastOf p emitted

/-- In production order the last batch with such a frame is one that ends with
the last, given that current batches end so. -/
theorem lastBlock_of_covers {emitted : List (AgentStreamEvent Args)} {batches : List Batch}
    {p : AgentStreamEvent Args → Bool} {frame : AgentStreamEvent Args}
    (horder : batches.Pairwise (fun a b => a.producedAt ≤ b.producedAt))
    (hcurrent : ∀ batch : Batch, batch.Current emitted p →
      lastOf p (batch.frames emitted) = none ∨ lastOf p (batch.frames emitted) = lastOf p emitted)
    (hcovers : Covers emitted batches p) (hlast : lastOf p emitted = some frame) :
    LastBlock p (batches.map (Batch.frames emitted)) frame := by
  obtain ⟨batch, hmem, hbatch, hframes⟩ := hcovers
  obtain ⟨before, after, rfl⟩ := List.append_of_mem hmem
  rw [List.map_append, List.map_cons]
  refine lastBlock_of_agree (hframes.trans hlast) ?_
  intro frames hafter
  obtain ⟨later, hlater, rfl⟩ := List.mem_map.mp hafter
  rw [List.pairwise_append, List.pairwise_cons] at horder
  have hle := horder.2.1.1 later hlater
  rw [← hlast]
  exact hcurrent later (hbatch.of_le hle)

/-- **In production order the merge agrees.**  Batches that cover the newest
versions and the last `run_state` and are applied in the order in which they
were produced leave the store as the server has it. -/
theorem merge_in_production_order {emitted : List (AgentStreamEvent Args)} {batches : List Batch}
    (hstamped : Stamped emitted) (hcompleted : CompletedLast emitted)
    (horder : batches.Pairwise (fun a b => a.producedAt ≤ b.producedAt))
    (hitems : ∀ key, newest key emitted ≠ none →
      Covers emitted batches (AgentStreamEvent.hasKey key))
    (hflag : lastOf AgentStreamEvent.isRunState emitted ≠ none →
      Covers emitted batches AgentStreamEvent.isRunState) :
    Agrees emitted (ingestBatches emitted batches) := by
  constructor
  · intro key event hnewest
    have hcovers := hitems key (by rw [hnewest]; exact Option.some_ne_none _)
    rw [holds_version_iff hstamped]
    exact lastBlock_of_covers horder (fun _ h => lastOf_frames_of_current hcompleted h) hcovers
      hnewest
  · intro running hlast
    have hcovers := hflag (by rw [hlast]; exact Option.some_ne_none _)
    rw [streaming_iff]
    exact .inl (lastBlock_of_covers horder (fun _ h => lastOf_isRunState_of_current h) hcovers
      hlast)

/-! ### What is handed to the transcript -/

/-- The versions of an item share one `seq`. -/
def OneSeq (seqOf : String → Int) (events : List (AgentStreamEvent Args)) : Prop :=
  ∀ event, .content event ∈ events → event.seq = seqOf (clientItemKey event)

/-- Every entry is stored once, under its key, at the place of its `seq`. -/
structure Placed (seqOf : String → Int) (store : TimelineStore Args) : Prop where
  once : (store.items.map Prod.fst).Nodup
  underKey : ∀ entry ∈ store.items, clientItemKey entry.2.event = entry.1
  inPlace : ∀ entry ∈ store.items,
    entry.2.order = seqOf entry.1 ∧ entry.2.event.seq = seqOf entry.1

theorem Placed.empty (seqOf : String → Int) : Placed seqOf (emptyTimelineStore : TimelineStore Args) where
  once := List.nodup_nil
  underKey := by simp [emptyTimelineStore]
  inPlace := by simp [emptyTimelineStore]

theorem Placed.ingestEvent {seqOf : String → Int} {store : TimelineStore Args}
    {frame : AgentStreamEvent Args} (h : Placed seqOf store)
    (hstamped : ∀ event, frame = .content event → clientItemKey event ≠ "")
    (hseq : ∀ event, frame = .content event → event.seq = seqOf (clientItemKey event)) :
    Placed seqOf (ingestEvent store frame) := by
  cases frame with
  | runState running => exact ⟨h.once, h.underKey, h.inPlace⟩
  | done => exact h
  | content event =>
      unfold Timeline.ingestEvent
      simp only
      rw [if_pos (hstamped event rfl)]
      refine ⟨nodup_keys_write h.once _ _, ?_, ?_⟩
      · intro entry hmem
        rcases mem_write hmem with rfl | hold
        · rfl
        · exact h.underKey entry hold
      · intro entry hmem
        rcases mem_write hmem with rfl | hold
        · refine ⟨?_, hseq event rfl⟩
          simp only
          split
          · rename_i existing hexisting
            have hold := h.inPlace _ (mem_of_lookup hexisting)
            exact hold.1
          · exact hseq event rfl
        · exact h.inPlace entry hold

theorem placed_ingestEvents {seqOf : String → Int} {events : List (AgentStreamEvent Args)}
    {store : TimelineStore Args} (h : Placed seqOf store) (hstamped : Stamped events)
    (hseq : OneSeq seqOf events) : Placed seqOf (ingestEvents store events) := by
  induction events generalizing store with
  | nil => exact h
  | cons frame rest ih =>
      have hframe : Placed seqOf (Timeline.ingestEvent store frame) := h.ingestEvent
        (fun event heq => hstamped event (heq ▸ List.mem_cons_self))
        (fun event heq => hseq event (heq ▸ List.mem_cons_self))
      exact ih hframe (fun event hmem => hstamped event (List.mem_cons_of_mem _ hmem))
        (fun event hmem => hseq event (List.mem_cons_of_mem _ hmem))

theorem insertEntry_perm (entry : TimelineEntry Args) (l : List (TimelineEntry Args)) :
    (insertEntry entry l).Perm (entry :: l) := by
  induction l with
  | nil => exact List.Perm.refl _
  | cons first rest ih =>
      unfold insertEntry
      split
      · exact List.Perm.refl _
      · exact (ih.cons first).trans (List.Perm.swap entry first rest)

/-- The sort drops nothing and adds nothing. -/
theorem sortEntries_perm (l : List (TimelineEntry Args)) : (l.foldr insertEntry []).Perm l := by
  induction l with
  | nil => exact List.Perm.refl _
  | cons entry rest ih => exact (insertEntry_perm entry _).trans (ih.cons entry)

theorem sorted_insertEntry (entry : TimelineEntry Args) {l : List (TimelineEntry Args)}
    (h : l.Pairwise (fun a b => a.order ≤ b.order)) :
    (insertEntry entry l).Pairwise (fun a b => a.order ≤ b.order) := by
  induction l with
  | nil => exact List.pairwise_singleton _ _
  | cons first rest ih =>
      obtain ⟨hfirst, hrest⟩ := List.pairwise_cons.mp h
      unfold insertEntry
      split
      · rename_i hnot
        have hle : entry.order ≤ first.order := by
          simp only [TimelineEntry.notAfter, decide_eq_true_eq] at hnot
          omega
        refine List.pairwise_cons.mpr ⟨?_, h⟩
        intro other hmem
        rcases List.mem_cons.mp hmem with rfl | hother
        · exact hle
        · exact Int.le_trans hle (hfirst other hother)
      · rename_i hnot
        have hle : first.order ≤ entry.order := by
          simp only [TimelineEntry.notAfter, decide_eq_true_eq] at hnot
          omega
        refine List.pairwise_cons.mpr ⟨?_, ih hrest⟩
        intro other hmem
        rcases List.mem_cons.mp ((insertEntry_perm entry rest).mem_iff.mp hmem) with rfl | hother
        · exact hle
        · exact hfirst other hother

theorem sorted_sortEntries (l : List (TimelineEntry Args)) :
    (l.foldr insertEntry []).Pairwise (fun a b => a.order ≤ b.order) := by
  induction l with
  | nil => exact List.Pairwise.nil
  | cons entry rest ih => exact sorted_insertEntry entry ih

/-- **The transcript gets what it expects.**  Whatever stamped frames were
ingested, the events handed on have every key once and are in `seq` order. -/
theorem orderedEvents_wellFormed {seqOf : String → Int} {events : List (AgentStreamEvent Args)}
    (hstamped : Stamped events) (hseq : OneSeq seqOf events) :
    DistinctKeys (orderedEvents (ingestEvents emptyTimelineStore events)) ∧
      SortedBySeq (orderedEvents (ingestEvents emptyTimelineStore events)) := by
  have hplaced := placed_ingestEvents (Placed.empty seqOf) hstamped hseq
  generalize ingestEvents emptyTimelineStore events = store at hplaced ⊢
  have hperm := sortEntries_perm (store.items.map Prod.snd)
  constructor
  · have hkeys : ((store.items.map Prod.snd).map TimelineEntry.event).map clientItemKey =
        store.items.map Prod.fst := by
      rw [List.map_map, List.map_map]
      exact List.map_congr_left hplaced.underKey
    have hall := ((hperm.map TimelineEntry.event).map clientItemKey).nodup_iff.mpr
      (hkeys ▸ hplaced.once)
    exact List.Nodup.sublist List.filter_sublist hall
  · unfold SortedBySeq orderedEvents
    rw [List.map_map, List.pairwise_map]
    refine List.Pairwise.imp_of_mem ?_ (sorted_sortEntries (store.items.map Prod.snd))
    intro a b ha hb hle
    have hplace : ∀ entry ∈ (store.items.map Prod.snd).foldr insertEntry [],
        entry.event.seq = entry.order := by
      intro entry hmem
      obtain ⟨filed, hin, rfl⟩ := List.mem_map.mp (hperm.mem_iff.mp hmem)
      obtain ⟨horder, hevent⟩ := hplaced.inPlace filed hin
      rw [horder, hevent]
    simp only [Function.comp_apply]
    rw [hplace a ha, hplace b hb]
    exact hle

end Workbench.Timeline
