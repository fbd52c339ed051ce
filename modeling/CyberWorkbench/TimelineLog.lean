import CyberWorkbench.LiveProjection
import CyberWorkbench.TimelineStore
import CyberWorkbench.StepMachine

/-!
# The timeline log of a session

`AgentSession._stamp_event` numbers every event from a counter and a key map
in memory, `TimelineLogWriter` stores the stamped events late, and
`persist_subagent_event_unpooled` numbers and stores an event from the table
alone.  Over eviction and pooling anew a session has several objects, each
with a counter of its own.

The rows and objects here are those of one session.  Creation times are part of
the payload.
-/

namespace Workbench.TimelineLog

open LiveBus LastWrite StepMachine

variable {Args : Type}

/-! ### Events -/

/-- `carries_seq`. -/
def carriesSeq : AgentEvent Args → Bool
  | .content _ _ => true
  | .runState _ | .done _ => false

/-- `event.seq`. -/
def seqOf : AgentEvent Args → Int
  | .content event _ => event.seq
  | .runState _ | .done _ => 0

/-- `event.seq = seq`. -/
def withSeq (seq : Int) : AgentEvent Args → AgentEvent Args
  | .content event nestedFor => .content { event with seq } nestedFor
  | .runState running => .runState running
  | .done nestedCallId => .done nestedCallId

/-- `event.type`. -/
def typeOf : AgentEvent Args → String
  | .content event _ => Timeline.eventType event.body
  | .runState _ => "run_state"
  | .done _ => "done"

/-- The key of an event without a key of its own: `f"{event.type}:{seq}"`. -/
def keylessKey (event : AgentEvent Args) (seq : Int) : String :=
  typeOf event ++ ":" ++ toString seq

/-- The key a stamped event is known by. -/
def itemKey (event : AgentEvent Args) : String :=
  (timelineItemKey event).getD (keylessKey event (seqOf event))

/-! ### Stamps -/

/-- `_TimelineRow`, and a row of `agent_event_log`. -/
structure TimelineRow (Args : Type) where
  itemKey : String
  seq : Int
  payload : AgentEvent Args
  deriving DecidableEq, Repr

/-- The timeline of an `AgentSession` and its `TimelineLogWriter`.  `writing`
is the batch of a `_flush` under way. -/
structure SessionTimeline (Args : Type) where
  seq : Int := 0
  itemSeq : List (String × Int) := []
  loaded : Bool := false
  stopping : Bool := false
  queue : List (TimelineRow Args) := []
  writing : List (TimelineRow Args) := []
  deriving DecidableEq, Repr

/-- The number for a key: a new one, or that of the first sight of the key. -/
def SessionTimeline.takeSeq (t : SessionTimeline Args) : Option String → SessionTimeline Args × Int
  | none => ({ t with seq := t.seq + 1 }, t.seq + 1)
  | some key =>
      match lookup t.itemSeq key with
      | some seq => (t, seq)
      | none =>
          ({ t with seq := t.seq + 1, itemSeq := write key (t.seq + 1) t.itemSeq }, t.seq + 1)

/-- `_stamp_event`: the stamped event, and the key to store it under. -/
def SessionTimeline.stampEvent (t : SessionTimeline Args) (event : AgentEvent Args) :
    SessionTimeline Args × AgentEvent Args × Option String :=
  if carriesSeq event then
    let key := timelineItemKey event
    let (t, seq) := t.takeSeq key
    let persistKey := key.getD (keylessKey event seq)
    (t, withSeq seq event, if isPersistable event then some persistKey else none)
  else (t, event, none)

/-- `TimelineLogWriter.enqueue`. -/
def SessionTimeline.enqueue (t : SessionTimeline Args) (row : TimelineRow Args) :
    SessionTimeline Args × Bool :=
  if t.stopping then (t, false) else ({ t with queue := t.queue ++ [row] }, true)

/-- `publish_external`: the stamped event, and whether it was accepted. -/
def SessionTimeline.publishExternal (t : SessionTimeline Args) (event : AgentEvent Args) :
    SessionTimeline Args × AgentEvent Args × Bool :=
  let (t, event, persistKey) := t.stampEvent event
  match persistKey with
  | none => (t, event, true)
  | some key =>
      if t.loaded then
        let (t, accepted) := t.enqueue ⟨key, seqOf event, event⟩
        (t, event, accepted)
      else (t, event, false)

/-! ### The table -/

/-- `func.max(seq)`, and `max(…, default=0)`. -/
def maxSeq (rows : List (TimelineRow Args)) : Int :=
  ((rows.map TimelineRow.seq).max?).getD 0

/-- `load_timeline_head`. -/
def loadTimelineHead (rows : List (TimelineRow Args)) : Int × List (String × Int) :=
  (maxSeq rows, rows.map (fun row => (row.itemKey, row.seq)))

/-- One value of `upsert_timeline_events`: the `seq` stays the first seen. -/
def upsertRow (rows : List (TimelineRow Args)) (value : TimelineRow Args) :
    List (TimelineRow Args) :=
  if rows.any (fun row => decide (row.itemKey = value.itemKey)) then
    rows.map (fun row =>
      if row.itemKey = value.itemKey then { row with payload := value.payload } else row)
  else rows ++ [value]

/-- `upsert_timeline_events`. -/
def upsertTimelineEvents (rows values : List (TimelineRow Args)) : List (TimelineRow Args) :=
  values.foldl upsertRow rows

/-- `collapsed` in `_flush`: the latest row of each key. -/
def collapse (batch : List (TimelineRow Args)) : List (TimelineRow Args) :=
  (writes TimelineRow.itemKey batch).map Prod.snd

/-! ### The session's objects -/

/-- An event object, and whether it went over an event bus. -/
structure EventObject (Args : Type) where
  event : AgentEvent Args
  onBus : Bool
  deriving DecidableEq, Repr

/-- A call of `_ensure_timeline_loaded` that has read the head. -/
structure TimelineLoad where
  object : Nat
  maxSeq : Int
  itemSeq : List (String × Int)
  deriving DecidableEq, Repr

/-- How far a call of `persist_subagent_event_unpooled` has come. -/
inductive PersistPhase (Args : Type) where
  | lookup
  | allocate
  | insert (row : TimelineRow Args)
  deriving DecidableEq, Repr

/-- A call of `persist_subagent_event_unpooled`. -/
structure PersistOp (Args : Type) where
  event : Nat
  itemKey : String
  phase : PersistPhase Args
  deriving DecidableEq, Repr

/-- The table's rows of the session, its objects, pooled or not, the calls
under way, every event object, and what subscribers were handed. -/
structure TimelineState (Args : Type) where
  rows : List (TimelineRow Args) := []
  timelines : List (SessionTimeline Args) := []
  pooled : Option Nat := none
  loads : List TimelineLoad := []
  persists : List (PersistOp Args) := []
  events : List (EventObject Args) := []
  frames : List (AgentEvent Args) := []
  deriving DecidableEq, Repr

/-- What the writer of a timeline does. -/
inductive WriterMove where
  /-- Rows are taken off the queue. -/
  | takeBatch (count : Nat)
  | commitBatch
  /-- The upsert fails, and the failure is logged. -/
  | failBatch
  /-- `close` up to the drain. -/
  | beginClose
  /-- The queue is drained, and the timeline no longer loaded. -/
  | endClose
  deriving DecidableEq, Repr

/-- What happens between two awaits. -/
inductive TimelineAction (Args : Type) where
  /-- `get_or_create` makes an object. -/
  | create
  /-- The pool lets the object go. -/
  | evict
  /-- `_ensure_timeline_loaded` up to the head it reads. -/
  | readHead (object : Nat)
  /-- `_ensure_timeline_loaded` from there on. -/
  | finishLoad (load : Nat)
  /-- `publish_external`; the caller does not look at the result. -/
  | publish (object : Nat) (event : AgentEvent Args)
  /-- `_publish_task_snapshot`. -/
  | publishTask (createdAt : String) (task : SubagentTask)
  /-- The next statement of `persist_subagent_event_unpooled`. -/
  | persist (op : Nat)
  | writer (object : Nat) (move : WriterMove)
  /-- A subscriber is handed an event object. -/
  | deliver (event : Nat)
  deriving DecidableEq, Repr

/-- `_task_event`. -/
def taskEvent (createdAt : String) (task : SubagentTask) : AgentEvent Args :=
  .content { createdAt, seq := 0, body := .subagentTask task } ""

/-- `publish_external` of the object with this timeline. -/
def publishOn (s : TimelineState Args) (object : Nat) (t : SessionTimeline Args)
    (event : AgentEvent Args) : TimelineState Args × Bool :=
  let (t, event, accepted) := t.publishExternal event
  ({ s with
      timelines := s.timelines.set object t
      events := if carriesSeq event then s.events ++ [⟨event, true⟩] else s.events },
    accepted)

/-- `_publish_task_snapshot`: over the bus of the pooled object, and straight
into the table if that does not store it. -/
def publishTaskSnapshot (s : TimelineState Args) (createdAt : String) (task : SubagentTask) :
    Option (TimelineState Args) :=
  let event := taskEvent createdAt task
  let op : PersistOp Args := ⟨s.events.length, "sa:" ++ task.runId, .lookup⟩
  match s.pooled with
  | none =>
      if task.runId = "" then some s
      else some { s with
        events := s.events ++ [⟨event, false⟩]
        persists := s.persists ++ [op] }
  | some object =>
      match s.timelines[object]? with
      | none => none
      | some t =>
          match publishOn s object t event with
          | (s, true) => some s
          | (s, false) =>
              if task.runId = "" then some s else some { s with persists := s.persists ++ [op] }

/-- The event gets its `seq`, and its row is made. -/
def stampPersist (s : TimelineState Args) (i : Nat) (op : PersistOp Args) (seq : Int) :
    Option (TimelineState Args) :=
  match s.events[op.event]? with
  | none => none
  | some object => some { s with
      events := s.events.set op.event { object with event := withSeq seq object.event }
      persists := s.persists.set i
        { op with phase := .insert ⟨op.itemKey, seq, withSeq seq object.event⟩ } }

/-- `persist_subagent_event_unpooled`, statement by statement. -/
def advancePersist (s : TimelineState Args) (i : Nat) (op : PersistOp Args) :
    Option (TimelineState Args) :=
  match op.phase with
  | .lookup =>
      match s.rows.find? (fun row => decide (row.itemKey = op.itemKey)) with
      | some existing => stampPersist s i op existing.seq
      | none => some { s with persists := s.persists.set i { op with phase := .allocate } }
  | .allocate => stampPersist s i op (maxSeq s.rows + 1)
  | .insert row =>
      some { s with rows := upsertRow s.rows row, persists := s.persists.eraseIdx i }

/-- `self._item_seq.setdefault(key, seq)`. -/
def setDefault (itemSeq : List (String × Int)) (entry : String × Int) : List (String × Int) :=
  match lookup itemSeq entry.1 with
  | some _ => itemSeq
  | none => write entry.1 entry.2 itemSeq

/-- The rest of `_ensure_timeline_loaded`. -/
def SessionTimeline.finishLoad (t : SessionTimeline Args) (load : TimelineLoad) :
    SessionTimeline Args :=
  if t.loaded then t
  else { t with
    seq := max t.seq load.maxSeq
    itemSeq := load.itemSeq.foldl setDefault t.itemSeq
    loaded := true
    stopping := false }

/-- A move of the writer; `none` if it is not possible. -/
def writerMove (rows : List (TimelineRow Args)) (t : SessionTimeline Args) :
    WriterMove → Option (List (TimelineRow Args) × SessionTimeline Args)
  | .takeBatch count =>
      if t.writing = [] ∧ 0 < count ∧ count ≤ t.queue.length then
        some (rows, { t with
          writing := collapse (t.queue.take count)
          queue := t.queue.drop count })
      else none
  | .commitBatch =>
      if t.writing = [] then none
      else some (upsertTimelineEvents rows t.writing, { t with writing := [] })
  | .failBatch => if t.writing = [] then none else some (rows, { t with writing := [] })
  | .beginClose => some (rows, { t with stopping := true })
  | .endClose =>
      if t.stopping ∧ t.queue = [] ∧ t.writing = [] then
        some (rows, { t with loaded := false })
      else none

/-- One step. -/
def timelineStep (s : TimelineState Args) : TimelineAction Args → Option (TimelineState Args)
  | .create =>
      match s.pooled with
      | some _ => none
      | none => some { s with
          timelines := s.timelines ++ [{}]
          pooled := some s.timelines.length }
  | .evict =>
      match s.pooled with
      | none => none
      | some _ => some { s with pooled := none }
  | .readHead object =>
      match s.timelines[object]? with
      | none => none
      | some t =>
          if t.loaded then none
          else some { s with
            loads := s.loads ++
              [⟨object, (loadTimelineHead s.rows).1, (loadTimelineHead s.rows).2⟩] }
  | .finishLoad i =>
      match s.loads[i]? with
      | none => none
      | some load =>
          match s.timelines[load.object]? with
          | none => none
          | some t => some { s with
              loads := s.loads.eraseIdx i
              timelines := s.timelines.set load.object (t.finishLoad load) }
  | .publish object event =>
      match s.timelines[object]? with
      | none => none
      | some t => some (publishOn s object t event).1
  | .publishTask createdAt task => publishTaskSnapshot s createdAt task
  | .persist i =>
      match s.persists[i]? with
      | none => none
      | some op => advancePersist s i op
  | .writer object move =>
      match s.timelines[object]? with
      | none => none
      | some t =>
          match writerMove s.rows t move with
          | none => none
          | some (rows, t) => some { s with rows, timelines := s.timelines.set object t }
  | .deliver i =>
      match s.events[i]? with
      | none => none
      | some object =>
          if object.onBus then some { s with frames := s.frames ++ [object.event] } else none

/-- The machine: no row, no object. -/
def timelineMachine (Args : Type) : Machine (TimelineState Args) (TimelineAction Args) where
  Start s := s = {}
  step := timelineStep

end Workbench.TimelineLog
