import CyberWorkbench.StepMachine
import CyberWorkbench.InterruptibleTurn

/-!
# Interrupt masking

`iter_interruptible_events`, await by await.  `Turn.resume` is what one return
of `asyncio.wait` does when both tasks stand still meanwhile; here the event
task may be done at any moment, also while the pending check is under way.

The loop decides with the `done` set of `asyncio.wait`, computed before the
check.  An event that arrives during the check is taken from the stream, but it
is neither counted nor yielded before the decision.

* `masking_exact` — a tool call is cut off, or an event lost, exactly by a check
  that answers while such an event waits;
* `call_lost` is such a run.

The signal task may be done at any moment: it is, when the version has moved or
its poll has timed out.
-/

namespace Workbench.InterruptMasking

open StepMachine

/-! ### Streams -/

/-- What the iterator distinguishes among normalized stream events. -/
inductive Event where
  | toolCall (callId : String)
  | toolResult (callId : String)
  | other
  deriving DecidableEq, Repr

/-- The event as the counter sees it. -/
def Event.kind : Event → StreamEvent
  | .toolCall _ => .toolCall
  | .toolResult _ => .toolResult
  | .other => .other

/-- A `ToolCallEvent`. -/
def Event.isToolCall : Event → Bool
  | .toolCall _ => true
  | _ => false

/-- The unanswered calls after one more event. -/
def answer (calls : List String) : Event → List String
  | .toolCall callId => callId :: calls
  | .toolResult callId => calls.erase callId
  | .other => calls

/-- The calls of a stream that are not answered in it. -/
def openCalls (events : List Event) : List String := events.foldl answer []

/-- Every result answers an earlier call that is still unanswered. -/
def Answering : List String → List Event → Prop
  | _, [] => True
  | calls, event :: rest =>
      (∀ callId, event = .toolResult callId → callId ∈ calls) ∧ Answering (answer calls event) rest

/-! ### The iterator -/

/-- The task that asks the stream for its next event. -/
inductive EventTask where
  | running
  /-- Done with an event, or with `StopAsyncIteration`. -/
  | done (result : Option Event)
  | handled
  deriving DecidableEq, Repr

/-- The await an iterator is suspended at, or how it ended.  `checking` keeps
whether the event task was in the `done` set, `yielding` the answer of the
pending check when the signal task was in it. -/
inductive Phase where
  | starting
  | arming
  | waiting
  | checking (event : Bool)
  | yielding (signal : Option Bool)
  | rearming
  | returned
  | raised
  deriving DecidableEq, Repr

/-- An iteration: what is left of the stream, what the event task has taken from
it, what was yielded, and the locals of the iterator. -/
structure Iteration where
  stream : List Event
  taken : List Event := []
  yielded : List Event := []
  eventTask : EventTask := .handled
  signalDone : Bool := false
  pendingToolCalls : Nat := 0
  deferred : Bool := false
  phase : Phase := .starting
  deriving DecidableEq, Repr

/-- What the scheduler can do. -/
inductive IterationAction where
  /-- A pending check answers. -/
  | answer (hasPending : Bool)
  /-- `target_notification_version` returns. -/
  | version
  /-- The event task is done. -/
  | deliver
  /-- The signal task is done. -/
  | signal
  /-- `asyncio.wait` returns. -/
  | wake
  /-- The consumer asks for the next event. -/
  | next
  deriving DecidableEq, Repr

namespace Iteration

/-- `process signal result`. -/
def processSignal (i : Iteration) (hasPending : Bool) : Iteration :=
  if hasPending then
    if i.pendingToolCalls = 0 then { i with phase := .raised }
    else { i with deferred := true, phase := .rearming }
  else { i with phase := .rearming }

/-- The event task was in the `done` set: its stream has ended, or its event is
counted and yielded. -/
def handleEvent (i : Iteration) (result : Option Event) (signal : Option Bool) : Iteration :=
  match result with
  | none => { i with eventTask := .handled, phase := .returned }
  | some event =>
      { i with
        eventTask := .handled
        pendingToolCalls := Turn.countTools i.pendingToolCalls event.kind
        yielded := i.yielded ++ [event]
        phase := .yielding signal }

/-- After the `yield`. -/
def afterYield (i : Iteration) (signal : Option Bool) : Iteration :=
  if i.deferred = true ∧ i.pendingToolCalls = 0 then { i with phase := .raised }
  else
    let i := { i with eventTask := .running }
    match signal with
    | none => { i with phase := .waiting }
    | some hasPending => i.processSignal hasPending

end Iteration

/-- One step. -/
def iterationStep (i : Iteration) : IterationAction → Option Iteration
  | .answer hasPending =>
      match i.phase with
      | .starting => some { i with phase := if hasPending then .raised else .arming }
      | .checking false => some (i.processSignal hasPending)
      | .checking true =>
          match i.eventTask with
          | .done result => some (i.handleEvent result (some hasPending))
          | _ => none
      | _ => none
  | .version =>
      match i.phase with
      | .arming => some { i with eventTask := .running, phase := .waiting }
      | .rearming => some { i with signalDone := false, phase := .waiting }
      | _ => none
  | .deliver =>
      if i.eventTask = .running ∧ i.phase ≠ .returned ∧ i.phase ≠ .raised then
        match i.stream with
        | [] => some { i with eventTask := .done none }
        | event :: rest =>
            some { i with stream := rest, taken := i.taken ++ [event], eventTask := .done (some event) }
      else none
  | .signal =>
      match i.phase with
      | .waiting | .yielding none => some { i with signalDone := true }
      | _ => none
  | .wake =>
      match i.phase with
      | .waiting =>
          match i.signalDone, i.eventTask with
          | true, .done _ => some { i with phase := .checking true }
          | true, _ => some { i with phase := .checking false }
          | false, .done result => some (i.handleEvent result none)
          | false, _ => none
      | _ => none
  | .next =>
      match i.phase with
      | .yielding signal => some (i.afterYield signal)
      | _ => none

/-- The iterator over a stream whose results answer its calls. -/
def iterationMachine : Machine Iteration IterationAction where
  Start i := Answering [] i.stream ∧ i = { stream := i.stream }
  step := iterationStep

/-! ### Counting -/

theorem openCalls_append (events : List Event) (event : Event) :
    openCalls (events ++ [event]) = answer (openCalls events) event := by
  simp [openCalls]

/-- What comes next answers one of the calls that are open by then. -/
theorem answering_append {calls : List String} {events rest : List Event}
    (h : Answering calls (events ++ rest)) : Answering (events.foldl answer calls) rest := by
  induction events generalizing calls with
  | nil => exact h
  | cons event events ih => exact ih h.2

/-- **The counter counts.**  It agrees with the open calls as long as results
answer calls. -/
theorem countTools_answer {calls : List String} {event : Event}
    (h : ∀ callId, event = .toolResult callId → callId ∈ calls) :
    Turn.countTools calls.length event.kind = (answer calls event).length := by
  cases event with
  | toolCall callId => rfl
  | toolResult callId => exact (List.length_erase_of_mem (h callId rfl)).symm
  | other => rfl

/-! ### The invariant -/

/-- The event that was taken and is not handled yet. -/
def EventTask.held : EventTask → List Event
  | .done (some event) => [event]
  | _ => []

theorem EventTask.held_cases (task : EventTask) :
    task.held = [] ∨ ∃ event, task.held = [event] := by
  cases task with
  | done result =>
      cases result with
      | none => exact .inl rfl
      | some event => exact .inr ⟨event, rfl⟩
  | _ => exact .inl rfl

/-- The phases without an event task, or with one that is handled. -/
def Phase.idle : Phase → Bool
  | .starting | .arming | .yielding _ => true
  | _ => false

/-- The phases in which no call can be open. -/
def Phase.closed : Phase → Bool
  | .starting | .raised => true
  | _ => false

/-- What holds of an iteration over the stream `all`. -/
structure Counted (all : List Event) (i : Iteration) : Prop where
  stream : i.taken ++ i.stream = all
  held : i.taken = i.yielded ++ i.eventTask.held
  counted : i.pendingToolCalls = (openCalls i.yielded).length
  idle : i.phase.idle = true → i.eventTask = .handled
  closed : i.phase.closed = true → i.pendingToolCalls = 0

section Steps

variable {all : List Event} {s t : Iteration} {a : IterationAction}

/-- The decision leaves the events alone. -/
theorem Counted.processSignal (h : Counted all s) (hasPending : Bool) :
    Counted all (s.processSignal hasPending) := by
  unfold Iteration.processSignal
  split
  · split
    · rename_i hzero
      exact ⟨h.stream, h.held, h.counted, (by simp [Phase.idle]), fun _ => hzero⟩
    · exact ⟨h.stream, h.held, h.counted, (by simp [Phase.idle]), (by simp [Phase.closed])⟩
  · exact ⟨h.stream, h.held, h.counted, (by simp [Phase.idle]), (by simp [Phase.closed])⟩

/-- The event that was taken is counted and yielded. -/
theorem Counted.handleEvent (hall : Answering [] all) (h : Counted all s)
    {result : Option Event} (hdone : s.eventTask = .done result) (signal : Option Bool) :
    Counted all (s.handleEvent result signal) := by
  have hheld := h.held
  rw [hdone] at hheld
  cases result with
  | none =>
      exact ⟨h.stream, hheld, h.counted, fun _ => rfl, (by simp [Iteration.handleEvent, Phase.closed])⟩
  | some event =>
      have hstream := h.stream
      rw [hheld, List.append_assoc] at hstream
      have hanswers : Answering (openCalls s.yielded) ([event] ++ s.stream) :=
        answering_append (hstream ▸ hall)
      refine ⟨h.stream, ?_, ?_, fun _ => rfl, (by simp [Iteration.handleEvent, Phase.closed])⟩
      · exact hheld.trans (List.append_nil _).symm
      · change Turn.countTools s.pendingToolCalls event.kind = (openCalls (s.yielded ++ [event])).length
        rw [h.counted, countTools_answer hanswers.1, openCalls_append]

/-- A step that only moves the tasks. -/
theorem Counted.move (h : Counted all s) (hstream : t.stream = s.stream) (htaken : t.taken = s.taken)
    (hyielded : t.yielded = s.yielded) (hcalls : t.pendingToolCalls = s.pendingToolCalls)
    (hheld : t.eventTask.held = s.eventTask.held)
    (hidle : t.phase.idle = true → t.eventTask = .handled)
    (hclosed : t.phase.closed = true → s.pendingToolCalls = 0) : Counted all t where
  stream := by rw [htaken, hstream, h.stream]
  held := by rw [htaken, hyielded, hheld, h.held]
  counted := by rw [hcalls, hyielded, h.counted]
  idle := hidle
  closed hphase := hcalls.trans (hclosed hphase)

/-- **Step.** -/
theorem Counted.step (hall : Answering [] all) (h : Counted all s)
    (hstep : iterationStep s a = some t) : Counted all t := by
  cases a with
  | answer hasPending =>
      simp only [iterationStep] at hstep
      split at hstep
      · rename_i hphase
        obtain rfl := Option.some.inj hstep
        have hidle : s.eventTask = .handled := h.idle (by rw [hphase]; rfl)
        have hclosed : s.pendingToolCalls = 0 := h.closed (by rw [hphase]; rfl)
        exact h.move rfl rfl rfl rfl rfl (fun _ => hidle) (fun _ => hclosed)
      · obtain rfl := Option.some.inj hstep
        exact h.processSignal hasPending
      · split at hstep
        · rename_i result hdone
          obtain rfl := Option.some.inj hstep
          exact h.handleEvent hall hdone _
        · cases hstep
      · cases hstep
  | version =>
      simp only [iterationStep] at hstep
      split at hstep
      · rename_i hphase
        obtain rfl := Option.some.inj hstep
        have hidle : s.eventTask = .handled := h.idle (by rw [hphase]; rfl)
        exact h.move rfl rfl rfl rfl (by rw [hidle]; rfl) (by simp [Phase.idle])
          (by simp [Phase.closed])
      · obtain rfl := Option.some.inj hstep
        exact h.move rfl rfl rfl rfl rfl (by simp [Phase.idle]) (by simp [Phase.closed])
      · cases hstep
  | deliver =>
      simp only [iterationStep] at hstep
      split at hstep
      · rename_i hrunning
        have hidle : s.phase.idle = true → False := by
          intro hphase
          have hhandled := h.idle hphase
          rw [hrunning.1] at hhandled
          cases hhandled
        split at hstep
        · obtain rfl := Option.some.inj hstep
          exact h.move rfl rfl rfl rfl (by rw [hrunning.1]; rfl) (fun hphase => (hidle hphase).elim)
            h.closed
        · rename_i event rest hrest
          obtain rfl := Option.some.inj hstep
          refine ⟨?_, ?_, h.counted, fun hphase => (hidle hphase).elim, h.closed⟩
          · rw [← h.stream, hrest]
            exact List.append_assoc _ _ _
          · have hheld := h.held
            rw [hrunning.1] at hheld
            exact congrArg (· ++ [event]) (hheld.trans (List.append_nil _))
      · cases hstep
  | signal =>
      simp only [iterationStep] at hstep
      split at hstep
      · obtain rfl := Option.some.inj hstep
        exact h.move rfl rfl rfl rfl rfl h.idle h.closed
      · obtain rfl := Option.some.inj hstep
        exact h.move rfl rfl rfl rfl rfl h.idle h.closed
      · cases hstep
  | wake =>
      simp only [iterationStep] at hstep
      split at hstep
      · split at hstep
        · obtain rfl := Option.some.inj hstep
          exact h.move rfl rfl rfl rfl rfl (by simp [Phase.idle]) (by simp [Phase.closed])
        · obtain rfl := Option.some.inj hstep
          exact h.move rfl rfl rfl rfl rfl (by simp [Phase.idle]) (by simp [Phase.closed])
        · rename_i result _ hdone
          obtain rfl := Option.some.inj hstep
          exact h.handleEvent hall hdone none
        · cases hstep
      · cases hstep
  | next =>
      simp only [iterationStep] at hstep
      split at hstep
      · rename_i signal hphase
        obtain rfl := Option.some.inj hstep
        have hidle : s.eventTask = .handled := h.idle (by rw [hphase]; rfl)
        unfold Iteration.afterYield
        split
        · rename_i hdeferred
          exact h.move rfl rfl rfl rfl rfl (by simp [Phase.idle]) (fun _ => hdeferred.2)
        · have hrunning : Counted all { s with eventTask := .running, phase := .waiting } :=
            h.move rfl rfl rfl rfl (by rw [hidle]; rfl) (by simp [Phase.idle]) (by simp [Phase.closed])
          cases signal with
          | none => exact hrunning
          | some hasPending => exact hrunning.processSignal hasPending
      · cases hstep

/-! ### What a preemption cuts off -/

/-- The check answers that a notification is pending while no call is open and
the event task, which was not in the `done` set, has an event by now. -/
def LosesEvent (s : Iteration) (a : IterationAction) : Prop :=
  a = .answer true ∧ s.phase = .checking false ∧ s.pendingToolCalls = 0 ∧
    s.eventTask.held ≠ []

/-- The same, and the event is a tool call. -/
def LosesCall (s : Iteration) (a : IterationAction) : Prop :=
  LosesEvent s a ∧ s.eventTask.held.any Event.isToolCall = true

/-- **When a preemption strikes.**  Nothing is held, or the answer of the check
is what raised. -/
theorem raised_cases (h : Counted all s) (hstep : iterationStep s a = some t)
    (hraised : t.phase = .raised) :
    t.eventTask.held = [] ∨
      (a = .answer true ∧ s.phase = .checking false ∧ s.pendingToolCalls = 0 ∧
        t = { s with phase := .raised }) := by
  cases a with
  | answer hasPending =>
      simp only [iterationStep] at hstep
      split at hstep
      · rename_i hphase
        obtain rfl := Option.some.inj hstep
        have hidle : s.eventTask = .handled := h.idle (by rw [hphase]; rfl)
        exact .inl (by rw [hidle]; rfl)
      · rename_i hphase
        obtain rfl := Option.some.inj hstep
        unfold Iteration.processSignal at hraised ⊢
        cases hasPending with
        | false => simp at hraised
        | true =>
            by_cases hzero : s.pendingToolCalls = 0
            · exact .inr ⟨rfl, hphase, hzero, by simp [hzero]⟩
            · simp [hzero] at hraised
      · split at hstep
        · rename_i result hdone
          obtain rfl := Option.some.inj hstep
          cases result <;> exact .inl rfl
        · cases hstep
      · cases hstep
  | version =>
      simp only [iterationStep] at hstep
      split at hstep
      · obtain rfl := Option.some.inj hstep
        cases hraised
      · obtain rfl := Option.some.inj hstep
        cases hraised
      · cases hstep
  | deliver =>
      simp only [iterationStep] at hstep
      split at hstep
      · rename_i hrunning
        split at hstep
        · obtain rfl := Option.some.inj hstep
          exact absurd hraised hrunning.2.2
        · obtain rfl := Option.some.inj hstep
          exact absurd hraised hrunning.2.2
      · cases hstep
  | signal =>
      simp only [iterationStep] at hstep
      split at hstep
      · rename_i hphase
        obtain rfl := Option.some.inj hstep
        cases hphase.symm.trans hraised
      · rename_i hphase
        obtain rfl := Option.some.inj hstep
        cases hphase.symm.trans hraised
      · cases hstep
  | wake =>
      simp only [iterationStep] at hstep
      split at hstep
      · split at hstep
        · obtain rfl := Option.some.inj hstep
          cases hraised
        · obtain rfl := Option.some.inj hstep
          cases hraised
        · rename_i result _ hdone
          obtain rfl := Option.some.inj hstep
          cases result <;> exact .inl rfl
        · cases hstep
      · cases hstep
  | next =>
      simp only [iterationStep] at hstep
      split at hstep
      · rename_i signal hphase
        obtain rfl := Option.some.inj hstep
        have hidle : s.eventTask = .handled := h.idle (by rw [hphase]; rfl)
        refine .inl ?_
        -- A new event task has not run yet.
        unfold Iteration.afterYield Iteration.processSignal
        split
        · rw [hidle]
          rfl
        · cases signal with
          | none => rfl
          | some hasPending =>
              simp only
              split
              · split <;> rfl
              · rfl
      · cases hstep

/-- At a preemption no call is open among the events that were yielded. -/
theorem Counted.openCalls_raised (h : Counted all t) (hraised : t.phase = .raised) :
    openCalls t.yielded = [] := by
  have hzero : t.pendingToolCalls = 0 := h.closed (by rw [hraised]; rfl)
  exact List.length_eq_zero_iff.mp (h.counted.symm.trans hzero)

/-- **Lost events.**  A step keeps every event it took exactly if it does not
answer a check over one. -/
theorem keeps_events_iff (hall : Answering [] all) (h : Counted all s)
    (hstep : iterationStep s a = some t) :
    ¬ LosesEvent s a ↔ (t.phase = .raised → t.taken = t.yielded) := by
  have ht : Counted all t := h.step hall hstep
  constructor
  · intro hkeeps hraised
    rcases raised_cases h hstep hraised with hheld | ⟨ha, hphase, hzero, rfl⟩
    · rw [ht.held, hheld, List.append_nil]
    · cases hheld : s.eventTask.held with
      | nil => rw [ht.held, hheld, List.append_nil]
      | cons event rest => exact (hkeeps ⟨ha, hphase, hzero, by simp [hheld]⟩).elim
  · rintro htaken ⟨rfl, hphase, hzero, hheld⟩
    obtain rfl : s.processSignal true = t := by
      simpa [iterationStep, hphase] using hstep
    have hraised : s.processSignal true = { s with phase := .raised } := by
      simp [Iteration.processSignal, hzero]
    rw [hraised] at htaken ht
    have hlost : s.yielded ++ s.eventTask.held = s.yielded ++ [] :=
      (ht.held.symm.trans (htaken rfl)).trans (List.append_nil _).symm
    exact hheld (List.append_cancel_left hlost)

/-- **Cut off calls.**  A step cuts a tool call off exactly if it answers a check
over one. -/
theorem keeps_calls_iff (hall : Answering [] all) (h : Counted all s)
    (hstep : iterationStep s a = some t) :
    ¬ LosesCall s a ↔ (t.phase = .raised → openCalls t.taken = []) := by
  have ht : Counted all t := h.step hall hstep
  constructor
  · intro hkeeps hraised
    have hopen := ht.openCalls_raised hraised
    rcases raised_cases h hstep hraised with hheld | ⟨ha, hphase, hzero, rfl⟩
    · rw [ht.held, hheld, List.append_nil, hopen]
    · rcases s.eventTask.held_cases with hheld | ⟨event, hheld⟩
      · rw [ht.held, hheld, List.append_nil, hopen]
      · have hstream := h.stream
        rw [h.held, hheld, List.append_assoc] at hstream
        have hanswers : Answering (openCalls s.yielded) ([event] ++ s.stream) :=
          answering_append (hstream ▸ hall)
        rw [ht.held, hheld, openCalls_append, hopen]
        cases event with
        | toolCall callId =>
            have hevent : LosesEvent s a := ⟨ha, hphase, hzero, by simp [hheld]⟩
            exact (hkeeps ⟨hevent, by simp [hheld, Event.isToolCall]⟩).elim
        | toolResult callId => rfl
        | other => rfl
  · rintro hclosed ⟨⟨rfl, hphase, hzero, -⟩, hcall⟩
    obtain rfl : s.processSignal true = t := by
      simpa [iterationStep, hphase] using hstep
    have hraised : s.processSignal true = { s with phase := .raised } := by
      simp [Iteration.processSignal, hzero]
    rw [hraised] at hclosed
    have hopen : openCalls s.taken = [] := hclosed rfl
    rcases s.eventTask.held_cases with hheld | ⟨event, hheld⟩
    · simp [hheld] at hcall
    · rw [h.held, hheld, openCalls_append] at hopen
      cases event with
      | toolCall callId => cases hopen
      | toolResult callId => simp [hheld, Event.isToolCall] at hcall
      | other => simp [hheld, Event.isToolCall] at hcall

/-- What was yielded is a prefix of the stream. -/
theorem Counted.yielded_initial (h : Counted all t) : t.yielded <+: all := by
  refine ⟨t.eventTask.held ++ t.stream, ?_⟩
  rw [← List.append_assoc, ← h.held, h.stream]

/-- **When preemption is masked.**  Along every run over a stream whose results
answer its calls, what was yielded is a prefix of the stream; no preemption cuts
a call off exactly if no check answers over a tool call that has arrived
meanwhile; and none loses an event exactly if no check answers over an event. -/
theorem masking_exact {start : Iteration} {acts : List IterationAction}
    (hstart : iterationMachine.Start start) :
    StepsMeet iterationMachine (fun _ _ t => t.yielded <+: start.stream) start acts ∧
    (StepsMeet iterationMachine (fun s a _ => ¬ LosesCall s a) start acts ↔
      StepsMeet iterationMachine (fun _ _ t => t.phase = .raised → openCalls t.taken = [])
        start acts) ∧
    (StepsMeet iterationMachine (fun s a _ => ¬ LosesEvent s a) start acts ↔
      StepsMeet iterationMachine (fun _ _ t => t.phase = .raised → t.taken = t.yielded)
        start acts) := by
  obtain ⟨hall, hinitial⟩ := hstart
  have hcounted : Counted start.stream start := by
    rw [hinitial]
    exact ⟨rfl, rfl, rfl, fun _ => rfl, fun _ => rfl⟩
  have keep : ∀ s a t, Counted start.stream s → iterationMachine.step s a = some t →
      Counted start.stream t := fun s a t h hstep => h.step hall hstep
  refine ⟨?_, ?_, ?_⟩
  · exact stepsMeet_of_invariant (fun s a t h _ hstep => keep s a t h hstep)
      (fun s a t h _ hstep => (keep s a t h hstep).yielded_initial) hcounted
      (stepsMeet_true start acts)
  · exact stepsMeet_congr keep (fun s a t h hstep => keeps_calls_iff hall h hstep) hcounted
  · exact stepsMeet_congr keep (fun s a t h hstep => keeps_events_iff hall h hstep) hcounted

end Steps

/-! ### Two runs -/

instance (s : Iteration) (a : IterationAction) : Decidable (LosesEvent s a) := by
  unfold LosesEvent; infer_instance

instance (s : Iteration) (a : IterationAction) : Decidable (LosesCall s a) := by
  unfold LosesCall; infer_instance

/-- A turn that calls one tool. -/
def toolTurn : Iteration := { stream := [.toolCall "call", .toolResult "call", .other] }

theorem toolTurn_start : iterationMachine.Start toolTurn := by
  refine ⟨?_, rfl⟩
  simp [toolTurn, Answering, answer]

/-- A notification arrives while the tool runs. -/
def deferredActs : List IterationAction :=
  [.answer false, .version, .deliver, .wake, .next, .signal, .wake, .answer true, .version,
    .deliver, .wake, .next]

/-- The preemption waits for the result of the tool. -/
theorem deferred_masked :
    StepsMeet iterationMachine (fun _ _ t => t.phase = .raised → openCalls t.taken = [])
        toolTurn deferredActs ∧
      StepsMeet iterationMachine (fun _ _ t => t.phase = .raised → t.taken = t.yielded)
        toolTurn deferredActs := by
  have hexact := @masking_exact _ deferredActs toolTurn_start
  exact ⟨hexact.2.1.mp (by decide), hexact.2.2.mp (by decide)⟩

/-- **A lost tool call.**  The signal wakes the iterator while no call is open,
and the call arrives while the pending check is under way: the turn is preempted
with the call taken, not yielded, and not answered. -/
theorem call_lost :
    ∃ t, exec iterationMachine toolTurn
        [.answer false, .version, .signal, .wake, .deliver, .answer true] = some t ∧
      t.phase = .raised ∧ t.taken = [.toolCall "call"] ∧ t.yielded = [] ∧
      openCalls t.taken = ["call"] :=
  ⟨_, rfl, rfl, rfl, rfl, rfl⟩

/-! ### Rounds

What one return of `asyncio.wait` does when nothing arrives until the loop waits
again is `Turn.resume`. -/

/-- The turn of an iteration. -/
def Iteration.turn (i : Iteration) (claimed : Option String) : Turn where
  claimed := claimed
  remaining := (i.eventTask.held ++ i.stream).map Event.kind
  yielded := i.yielded.length
  started := true
  pendingToolCalls := i.pendingToolCalls
  deferred := i.deferred

/-- An iteration and how its turn stands agree. -/
def Agrees (claimed : Option String) (i : Iteration) : TurnStep → Prop
  | .waiting turn => i.turn claimed = turn ∧ (i.phase = .waiting ∨ i.phase = .rearming)
  | .over turn ending => i.turn claimed = turn ∧
      ((ending = .consumed ∧ i.phase = .returned) ∨ (ending = .interrupted ∧ i.phase = .raised))

theorem agrees_processSignal (claimed : Option String) (i : Iteration) (hasPending : Bool) :
    Agrees claimed (i.processSignal hasPending) ((i.turn claimed).processSignal hasPending) := by
  unfold Iteration.processSignal Turn.processSignal
  cases hasPending with
  | false => exact ⟨rfl, .inr rfl⟩
  | true =>
      by_cases hzero : i.pendingToolCalls = 0
      · simp [hzero, Iteration.turn, Agrees]
      · simp [hzero, Iteration.turn, Agrees]

/-- The event that was taken is yielded, and the turn goes on or is preempted. -/
theorem agrees_afterYield (claimed : Option String) {i : Iteration} {event : Event}
    (hdone : i.eventTask = .done (some event)) (signal : Option Bool) :
    Agrees claimed ((i.handleEvent (some event) signal).afterYield signal)
      ((i.turn claimed).resume true signal) := by
  have hremaining : (i.turn claimed).remaining = event.kind :: i.stream.map Event.kind := by
    simp [Iteration.turn, hdone, EventTask.held]
  unfold Iteration.afterYield Turn.resume Turn.takeEvent
  rw [hremaining]
  by_cases hover : i.deferred = true ∧ Turn.countTools i.pendingToolCalls event.kind = 0
  · simp [Iteration.handleEvent, Iteration.turn, hover, Agrees, EventTask.held]
  · cases signal with
    | none => simp [Iteration.handleEvent, Iteration.turn, hover, Agrees, EventTask.held]
    | some hasPending =>
        have hnext := agrees_processSignal claimed
          { i.handleEvent (some event) (some hasPending) with eventTask := .running } hasPending
        simpa [Iteration.handleEvent, Iteration.turn, hover, EventTask.held] using hnext

/-- The task is in a `done` set. -/
def EventTask.isDone : EventTask → Bool
  | .done _ => true
  | _ => false

/-- The steps of a round: the check when the signal task is done, and the
consumer's next request when an event was yielded. -/
def roundActs (i : Iteration) (signal : Option Bool) : List IterationAction :=
  [.wake] ++ signal.toList.map .answer ++ (if i.eventTask.held = [] then [] else [.next])

/-- **A round is `Turn.resume`.** -/
theorem resume_round {i : Iteration} (claimed : Option String) (signal : Option Bool)
    (hphase : i.phase = .waiting) (hsignal : i.signalDone = signal.isSome)
    (hready : signal.isSome = true ∨ i.eventTask.isDone = true)
    (hend : i.eventTask = .done none → i.stream = []) :
    ∃ t, exec iterationMachine i (roundActs i signal) = some t ∧
      Agrees claimed t ((i.turn claimed).resume i.eventTask.isDone signal) := by
  cases hdone : i.eventTask with
  | done result =>
      cases result with
      | none =>
          have hremaining : (i.turn claimed).remaining = [] := by
            simp [Iteration.turn, hdone, hend hdone, EventTask.held]
          have hresume : (i.turn claimed).resume true signal = .over (i.turn claimed) .consumed := by
            simp [Turn.resume, Turn.takeEvent, hremaining]
          cases signal with
          | none =>
              refine ⟨i.handleEvent none none, ?_, ?_⟩
              · simp [roundActs, exec, iterationMachine, iterationStep, hphase, hsignal, hdone,
                  EventTask.held]
              · change Agrees claimed _ ((i.turn claimed).resume true none)
                rw [hresume]
                exact ⟨by simp [Iteration.turn, Iteration.handleEvent, hdone, EventTask.held],
                  .inl ⟨rfl, rfl⟩⟩
          | some hasPending =>
              refine ⟨{ i with phase := .checking true }.handleEvent none (some hasPending), ?_, ?_⟩
              · simp [roundActs, exec, iterationMachine, iterationStep, hphase, hsignal, hdone,
                  EventTask.held]
              · change Agrees claimed _ ((i.turn claimed).resume true (some hasPending))
                rw [hresume]
                exact ⟨by simp [Iteration.turn, Iteration.handleEvent, hdone, EventTask.held],
                  .inl ⟨rfl, rfl⟩⟩
      | some event =>
          refine ⟨(i.handleEvent (some event) signal).afterYield signal, ?_,
            agrees_afterYield claimed hdone signal⟩
          cases signal with
          | none =>
              simp [roundActs, exec, iterationMachine, iterationStep, hphase, hsignal, hdone,
                EventTask.held, Iteration.handleEvent]
          | some hasPending =>
              simp [roundActs, exec, iterationMachine, iterationStep, hphase, hsignal, hdone,
                EventTask.held, Iteration.handleEvent]
  | _ =>
      cases signal with
      | none => simp [hdone, EventTask.isDone] at hready
      | some hasPending =>
          refine ⟨{ i with phase := .checking false }.processSignal hasPending, ?_, ?_⟩
          · simp [roundActs, exec, iterationMachine, iterationStep, hphase, hsignal, hdone,
              EventTask.held]
          · have hnext := agrees_processSignal claimed { i with phase := .checking false } hasPending
            simpa [EventTask.isDone, Turn.resume, Iteration.turn, hdone] using hnext

end Workbench.InterruptMasking
