import CyberWorkbench.Notifications

/-!
# One interruptible turn

`iter_interruptible_events` races the turn's event stream against a wake-up
signal.  A turn with no outstanding tool call is preempted as soon as a
pending notification is seen; otherwise the preemption is deferred until the
last tool result was yielded.

This file is the code between two awaits: what one return of `asyncio.wait`
does to the turn, given which of the two tasks were done and what the pending
query answered.  The signal task is done when the version moved or its poll
timed out; a timeout can strike at any moment, so versions carry no
information and are left to the scheduler.
-/

namespace Workbench

/-- What the preemption rule distinguishes among stream events. -/
inductive StreamEvent where
  | toolCall
  | toolResult
  | other
  deriving DecidableEq, Repr

/-- A turn in progress: the notification it was triggered by (`none` for the
initial content), what is left of its event stream, how many events it has
yielded, and whether the stream was started. -/
structure Turn where
  claimed : Option String
  remaining : List StreamEvent
  yielded : Nat := 0
  started : Bool := false
  pendingToolCalls : Nat := 0
  deferred : Bool := false
  deriving DecidableEq, Repr

/-- How `run_turn` ended. -/
inductive TurnEnd where
  | consumed
  | interrupted
  | failed (error : String)
  | canceled
  deriving DecidableEq, Repr

/-- What the iterator does after one return of `asyncio.wait`. -/
inductive TurnStep where
  | waiting (turn : Turn)
  | over (turn : Turn) (ending : TurnEnd)
  deriving DecidableEq, Repr

namespace Turn

/-- The outstanding tool calls after an event. -/
def countTools (pending : Nat) : StreamEvent → Nat
  | .toolCall => pending + 1
  | .toolResult => pending - 1
  | .other => pending

/-- The event task is done: its stream ended, or it delivered an event, which
is yielded before a deferred preemption is considered. -/
def takeEvent (turn : Turn) : TurnStep :=
  match turn.remaining with
  | [] => .over turn .consumed
  | event :: rest =>
      let turn := { turn with
        remaining := rest
        yielded := turn.yielded + 1
        pendingToolCalls := countTools turn.pendingToolCalls event }
      if turn.deferred ∧ turn.pendingToolCalls = 0 then .over turn .interrupted
      else .waiting turn

/-- The signal task is done and the pending query was answered. -/
def processSignal (turn : Turn) (hasPending : Bool) : TurnStep :=
  if hasPending then
    if turn.pendingToolCalls = 0 then .over turn .interrupted
    else .waiting { turn with deferred := true }
  else .waiting turn

/-- The loop body after `asyncio.wait` returned: first the event, if there is
one, then the signal, if it is `some` answer of the query. -/
def resume (turn : Turn) (eventReady : Bool) (signal : Option Bool) : TurnStep :=
  match if eventReady then turn.takeEvent else .waiting turn, signal with
  | .waiting turn, some hasPending => turn.processSignal hasPending
  | step, _ => step


/-- Taking an event keeps the turn's identity; it ends the turn only at the end
of the stream or after the event was yielded. -/
theorem takeEvent_spec (turn : Turn) :
    (∃ t, turn.takeEvent = .waiting t ∧ t.claimed = turn.claimed ∧ t.started = turn.started ∧
        0 < t.yielded) ∨
      (turn.takeEvent = .over turn .consumed ∧ turn.remaining = []) ∨
      ∃ t, turn.takeEvent = .over t .interrupted ∧ t.claimed = turn.claimed ∧
        t.started = turn.started ∧ 0 < t.yielded := by
  unfold takeEvent
  cases hstream : turn.remaining with
  | nil => exact .inr (.inl ⟨rfl, rfl⟩)
  | cons event rest =>
      simp only
      split
      · exact .inr (.inr ⟨_, rfl, rfl, rfl, Nat.succ_pos _⟩)
      · exact .inl ⟨_, rfl, rfl, rfl, Nat.succ_pos _⟩

theorem processSignal_spec (turn : Turn) (hasPending : Bool) :
    (∃ t, turn.processSignal hasPending = .waiting t ∧ t.claimed = turn.claimed ∧
        t.started = turn.started ∧ t.yielded = turn.yielded) ∨
      (turn.processSignal hasPending = .over turn .interrupted ∧ hasPending = true) := by
  unfold processSignal
  split
  · rename_i hpending
    split
    · exact .inr ⟨rfl, hpending⟩
    · exact .inl ⟨_, rfl, rfl, rfl, rfl⟩
  · exact .inl ⟨_, rfl, rfl, rfl, rfl⟩

/-- **One loop iteration.**  A turn stays itself while it waits; it ends by
exhausting its stream or by preemption, and a preemption of a turn that
yielded nothing needs a pending notification and no event at hand. -/
theorem resume_spec (turn : Turn) (eventReady : Bool) (signal : Option Bool) :
    (∃ t, turn.resume eventReady signal = .waiting t ∧ t.claimed = turn.claimed ∧
        t.started = turn.started) ∨
      (∃ t, turn.resume eventReady signal = .over t .consumed ∧ t.claimed = turn.claimed ∧
        t.started = turn.started ∧ t.remaining = []) ∨
      ∃ t, turn.resume eventReady signal = .over t .interrupted ∧ t.claimed = turn.claimed ∧
        t.started = turn.started ∧
        (0 < t.yielded ∨ (t = turn ∧ eventReady = false ∧ signal = some true)) := by
  unfold resume
  cases eventReady with
  | false =>
      cases signal with
      | none => exact .inl ⟨turn, rfl, rfl, rfl⟩
      | some hasPending =>
          rcases processSignal_spec turn hasPending with
            ⟨t, ht, hclaimed, hstarted, -⟩ | ⟨ht, rfl⟩
          · exact .inl ⟨t, ht, hclaimed, hstarted⟩
          · exact .inr (.inr ⟨turn, ht, rfl, rfl, .inr ⟨rfl, rfl, rfl⟩⟩)
  | true =>
      rcases takeEvent_spec turn with
        ⟨t, ht, hclaimed, hstarted, hyielded⟩ | ⟨ht, hend⟩ | ⟨t, ht, hclaimed, hstarted, hyielded⟩
      · cases signal with
        | none => exact .inl ⟨t, by simp [ht], hclaimed, hstarted⟩
        | some hasPending =>
            rcases processSignal_spec t hasPending with
              ⟨t', ht', hclaimed', hstarted', -⟩ | ⟨ht', -⟩
            · exact .inl ⟨t', by simp [ht, ht'], hclaimed'.trans hclaimed,
                hstarted'.trans hstarted⟩
            · exact .inr (.inr ⟨t, by simp [ht, ht'], hclaimed, hstarted, .inl hyielded⟩)
      · exact .inr (.inl ⟨turn, by simp [ht], rfl, rfl, hend⟩)
      · exact .inr (.inr ⟨t, by simp [ht], hclaimed, hstarted, .inl hyielded⟩)

end Turn

end Workbench
