import CyberWorkbench.ChatTranscript
import CyberWorkbench.StepMachine

/-!
# The session's event bus

`AgentSession.publish_external` hands every event to the live projection and
to each subscriber's queue.  A queue that has reached the threshold is emptied
and filled again from the projection, which keeps the events since the last
`run_state` in place: a later version of an item takes the slot of the earlier
one.

An event object is known by the number of its publication.  Stamps and the
stored timeline are another module's business.
-/

namespace Workbench.LiveBus

open StepMachine

variable {Args : Type}

/-! ### Events -/

/-- `AgentEventSchema`: what is shown, and the two control frames. -/
inductive AgentEvent (Args : Type) where
  | content (event : AgentContentEvent Args) (nestedFor : String)
  | runState (running : Bool)
  | done (nestedCallId : String)
  deriving DecidableEq, Repr

/-- `timeline_item_key`. -/
def timelineItemKey : AgentEvent Args → Option String
  | .content event _ =>
      match event.body with
      | .segment .text _ segmentId _ => some ("text:" ++ event.nestedCallId ++ ":" ++ segmentId)
      | .segment .thinking _ segmentId _ =>
          some ("thinking:" ++ event.nestedCallId ++ ":" ++ segmentId)
      | .toolCall callId _ _ => some ("tc:" ++ event.nestedCallId ++ ":" ++ callId)
      | .toolResult callId _ _ => some ("tr:" ++ event.nestedCallId ++ ":" ++ callId)
      | .subagentTask task => some ("sa:" ++ task.runId)
      | .userMessage _ _ _ | .turnBoundary | .error _ => none
  | .runState _ | .done _ => none

/-- `is_persistable`: neither a control frame nor a delta. -/
def isPersistable : AgentEvent Args → Bool
  | .content event _ =>
      match event.body with
      | .segment _ complete _ _ => complete
      | _ => true
  | .runState _ | .done _ => false

/-- An event object: the `number`-th publication. -/
structure Published (Args : Type) where
  number : Nat
  event : AgentEvent Args
  deriving DecidableEq, Repr

/-! ### The projection -/

/-- The keys of `_segment_indexes`, `_tool_indexes`, `_tool_result_indexes` and
`_subagent_indexes`. -/
inductive ProjectionKey where
  | segment (kind : SegmentKind) (segmentId nestedFor nestedCallId : String)
  | toolCall (callId nestedFor nestedCallId : String)
  | toolResult (callId nestedFor nestedCallId : String)
  | subagent (runId : String)
  deriving DecidableEq, Repr

/-- The slot an event looks for. -/
def projectionKey : AgentEvent Args → Option ProjectionKey
  | .content event nestedFor =>
      match event.body with
      | .segment kind _ segmentId _ => some (.segment kind segmentId nestedFor event.nestedCallId)
      | .toolCall callId _ _ => some (.toolCall callId nestedFor event.nestedCallId)
      | .toolResult callId _ _ => some (.toolResult callId nestedFor event.nestedCallId)
      | .subagentTask task => some (.subagent task.runId)
      | .userMessage _ _ _ | .turnBoundary | .error _ => none
  | .runState _ | .done _ => none

/-- A completed segment is not looked for again. -/
def isCompleteSegment : AgentEvent Args → Bool
  | .content event _ =>
      match event.body with
      | .segment _ complete _ _ => complete
      | _ => false
  | .runState _ | .done _ => false

/-- The key under which `_rebuild_indexes` enters an event. -/
def indexedKey (event : AgentEvent Args) : Option ProjectionKey :=
  if isCompleteSegment event then none else projectionKey event

/-- The four dictionaries, their keys kept apart by `ProjectionKey`. -/
abbrev Indexes : Type := ProjectionKey → Option Nat

/-- `indexes[key] = index`. -/
def Indexes.set (indexes : Indexes) (key : ProjectionKey) (index : Nat) : Indexes :=
  fun k => if k = key then some index else indexes k

/-- `LiveEventProjection`. -/
structure LiveEventProjection (Args : Type) where
  events : List (Published Args) := []
  indexes : Indexes := fun _ => none

/-- The loop of `_rebuild_indexes` from position `index` on. -/
def rebuildFrom (index : Nat) (indexes : Indexes) : List (Published Args) → Indexes
  | [] => indexes
  | item :: rest =>
      match indexedKey item.event with
      | none => rebuildFrom (index + 1) indexes rest
      | some key => rebuildFrom (index + 1) (indexes.set key index) rest

/-- `_rebuild_indexes`. -/
def rebuildIndexes (events : List (Published Args)) : Indexes :=
  rebuildFrom 0 (fun _ => none) events

/-- A `RunStateEvent`. -/
def isRunState (item : Published Args) : Bool :=
  match item.event with
  | .runState _ => true
  | _ => false

namespace LiveEventProjection

/-- `reset`. -/
def reset (item : Published Args) : LiveEventProjection Args := { events := [item] }

/-- Append, unless the key has a slot already. -/
def upsert (p : LiveEventProjection Args) (key : ProjectionKey) (item : Published Args) :
    LiveEventProjection Args :=
  match p.indexes key with
  | none => { events := p.events ++ [item], indexes := p.indexes.set key p.events.length }
  | some index => { p with events := p.events.set index item }

/-- `_apply_segment_complete`. -/
def completeSegment (p : LiveEventProjection Args) (key : ProjectionKey)
    (item : Published Args) : LiveEventProjection Args :=
  match p.indexes key with
  | none => { p with events := p.events ++ [item] }
  | some index =>
      let events := p.events.set index item
      { events := events, indexes := rebuildIndexes events }

/-- `apply`. -/
def apply (p : LiveEventProjection Args) (item : Published Args) : LiveEventProjection Args :=
  match item.event with
  | .runState _ =>
      let events := item :: p.events.filter (fun other => !isRunState other)
      { events := events, indexes := rebuildIndexes events }
  | .done nestedCallId =>
      if nestedCallId = "" then { p with events := p.events ++ [item] } else p
  | .content _ _ =>
      match projectionKey item.event with
      | none => { p with events := p.events ++ [item] }
      | some key =>
          if isCompleteSegment item.event then p.completeSegment key item else p.upsert key item

end LiveEventProjection

/-! ### Queues -/

/-- A subscriber: its queue, what it took out of it, and since which
publication it is attached. -/
structure Subscriber (Args : Type) where
  queue : List (Published Args)
  delivered : List (Published Args) := []
  attachedAt : Nat
  deriving DecidableEq, Repr

/-- The bus.  `log` is what was published so far that is persistable, and
`resetAt` the number of the `run_state` the projection was last reset to. -/
structure BusState (Args : Type) where
  projection : LiveEventProjection Args := {}
  subscribers : List (Subscriber Args) := []
  count : Nat := 0
  resetAt : Nat := 0
  log : List (Published Args) := []

/-- `_SUBSCRIBER_REBASE_THRESHOLD`. -/
def subscriberRebaseThreshold : Nat := 512

/-- What a rebased queue is filled with. -/
def rebased (projection : LiveEventProjection Args) (item : Published Args) :
    List (Published Args) :=
  match item.event with
  | .runState false => projection.events.filter (fun other => !isRunState other) ++ [item]
  | _ => projection.events

/-- `_enqueue_or_rebase`. -/
def enqueueOrRebase (threshold : Nat) (projection : LiveEventProjection Args)
    (item : Published Args) (subscriber : Subscriber Args) : Subscriber Args :=
  if subscriber.queue.length < threshold then
    { subscriber with queue := subscriber.queue ++ [item] }
  else { subscriber with queue := rebased projection item }

/-- The projection the queues are rebased to when `item` is published: a start
resets it first. -/
def projectionFor (s : BusState Args) (item : Published Args) : LiveEventProjection Args :=
  match item.event with
  | .runState true => .reset item
  | _ => s.projection.apply item

/-- `publish_external` and `_publish_run_state`. -/
def publish (threshold : Nat) (s : BusState Args) (event : AgentEvent Args) : BusState Args :=
  let item : Published Args := ⟨s.count, event⟩
  let projection := projectionFor s item
  { projection := if isRunState item then .reset item else projection
    subscribers := s.subscribers.map (enqueueOrRebase threshold projection item)
    count := s.count + 1
    resetAt := if isRunState item then s.count else s.resetAt
    log := if isPersistable event then s.log ++ [item] else s.log }

/-- `subscribe`; `include` looks at the event alone. -/
def subscribe (s : BusState Args) (included : AgentEvent Args → Bool) : BusState Args :=
  let snapshot := s.projection.events.filter (fun item => included item.event)
  { s with subscribers := s.subscribers ++ [{ queue := snapshot, attachedAt := s.count }] }

/-- `queue.get` of one subscriber. -/
def consume (subscriber : Subscriber Args) : Subscriber Args :=
  match subscriber.queue with
  | [] => subscriber
  | item :: rest =>
      { subscriber with queue := rest, delivered := subscriber.delivered ++ [item] }

inductive BusAction (Args : Type) where
  | publish (event : AgentEvent Args)
  | subscribe (included : AgentEvent Args → Bool)
  | consume (subscriber : Nat)
  | unsubscribe (subscriber : Nat)

/-- One step of the bus. -/
def busStep (threshold : Nat) (s : BusState Args) : BusAction Args → Option (BusState Args)
  | .publish event => some (publish threshold s event)
  | .subscribe included => some (subscribe s included)
  | .consume i =>
      match s.subscribers[i]? with
      | none => none
      | some subscriber =>
          some { s with subscribers := s.subscribers.set i (consume subscriber) }
  | .unsubscribe i => some { s with subscribers := s.subscribers.eraseIdx i }

/-- A new session's bus. -/
def busMachine (Args : Type) (threshold : Nat) : Machine (BusState Args) (BusAction Args) where
  Start s := s.projection.events = [] ∧ (∀ key, s.projection.indexes key = none) ∧
    s.subscribers = [] ∧ s.count = 0 ∧ s.resetAt = 0 ∧ s.log = []
  step := busStep threshold

end Workbench.LiveBus
