import CyberWorkbench.FairRuns
import CyberWorkbench.TimelineIdentity

/-!
# The timeline writer

`core/runtime/timeline.TimelineLogWriter`: one queue carries rows, the barriers
of `flush` and the marks of `stop`.  It is drained by the writer task, by a
flush without a running writer, and by a stop.  What runs between two awaits is
one step; the control lock is never held over an await.

`writer_durable`: what was accepted is stored when a flush or a stop returns,
in the order of acceptance, and no flush waits for ever, in every run in which
nobody drains beside an upsert that a flush or a stop has under way, and no
writer is started beside one or beside a stop that has yet to drain.

Upserts succeed, and nothing is cancelled.
-/

namespace Workbench.TimelineWriter

open TimelineLog LastWrite StepMachine

variable {Args : Type}

/-! ### State -/

/-- `_TimelineQueueItem`.  A barrier is the future of a flush call; `stop` is
`None`. -/
inductive QueueItem (Args : Type) where
  | row (row : TimelineRow Args)
  | barrier (call : Nat)
  | stop
  deriving DecidableEq, Repr

/-- Where the writer task goes on after a `_flush`. -/
inductive AfterFlush where
  /-- `_process_batch`, with the queue empty. -/
  | loop
  /-- `_process_item`, at a barrier. -/
  | barrier (call : Nat)
  /-- `_process_item`, at a stop mark. -/
  | stop
  /-- `_process_item`, with the queue drained. -/
  | exit (barriers : List Nat)
  deriving DecidableEq, Repr

/-- How far the writer task is. -/
inductive TaskPhase (Args : Type) where
  /-- In `_queue.get()`. -/
  | waiting
  /-- In the upsert of a batch. -/
  | flushing (rows : List (TimelineRow Args)) (landed : Bool) (next : AfterFlush)
  | done
  deriving DecidableEq, Repr

/-- How far a call of `flush` or `stop` is. -/
inductive CallPhase (Args : Type) where
  /-- `await wait_for_stop`. -/
  | awaitingStop (task : Nat)
  /-- `await barrier`. -/
  | awaitingBarrier (resolved : Bool)
  /-- `await task`. -/
  | awaitingTask (task : Nat)
  /-- In the upsert of what it has drained. -/
  | flushing (rows : List (TimelineRow Args)) (landed : Bool) (barriers : List Nat)
  | returned
  deriving DecidableEq, Repr

/-- A call, with the rows that were accepted before it began. -/
structure WriterCall (Args : Type) where
  before : List (TimelineRow Args)
  phase : CallPhase Args
  deriving DecidableEq, Repr

/-- A `TimelineLogWriter` and the table's rows of its session.  `tasks` counts
the tasks made, `phase` is that of the last one, and `held` says whether `_task`
is that one or `None`. -/
structure WriterState (Args : Type) where
  queue : List (QueueItem Args) := []
  stopping : Bool := false
  tasks : Nat := 0
  phase : TaskPhase Args := .done
  held : Bool := false
  calls : List (WriterCall Args) := []
  accepted : List (TimelineRow Args) := []
  rows : List (TimelineRow Args) := []
  deriving DecidableEq, Repr

/-- What happens between two awaits. -/
inductive WriterAction (Args : Type) where
  /-- Time passes. -/
  | pass
  | start
  | enqueue (row : TimelineRow Args)
  | flush
  | stop
  /-- The writer task goes on. -/
  | task
  /-- The upsert of the writer task is committed. -/
  | landTask
  /-- The upsert of a call is committed. -/
  | landCall (call : Nat)
  /-- A call goes on. -/
  | resume (call : Nat)
  deriving DecidableEq, Repr

/-! ### The queue -/

def QueueItem.row? : QueueItem Args → Option (TimelineRow Args)
  | .row first => some first
  | _ => none

def QueueItem.barrier? : QueueItem Args → Option Nat
  | .barrier call => some call
  | _ => none

/-- The rows of a queue. -/
def rowsOf (queue : List (QueueItem Args)) : List (TimelineRow Args) :=
  queue.filterMap QueueItem.row?

/-- `_drain_remaining`. -/
def drainRemaining (queue : List (QueueItem Args)) : List (TimelineRow Args) × List Nat :=
  (rowsOf queue, queue.filterMap QueueItem.barrier?)

/-- `barrier.set_result(None)`, unless it is done. -/
def WriterCall.resolve (call : WriterCall Args) : WriterCall Args :=
  match call.phase with
  | .awaitingBarrier _ => { call with phase := .awaitingBarrier true }
  | _ => call

/-- `_resolve_barriers`. -/
def resolveBarriers (calls : List (WriterCall Args)) (barriers : List Nat) :
    List (WriterCall Args) :=
  barriers.foldl (fun calls barrier => calls.modify barrier WriterCall.resolve) calls

/-- The rest of `_process_item` at a stop mark, with no rows at hand: the
phase, the queue, and the barriers resolved. -/
def exitTask (queue : List (QueueItem Args)) :
    TaskPhase Args × List (QueueItem Args) × List Nat :=
  let (rows, barriers) := drainRemaining queue
  if rows = [] then (.done, [], barriers) else (.flushing rows false (.exit barriers), [], [])

/-- `_process_batch`, with these rows at hand, up to the next await. -/
def processQueue : List (TimelineRow Args) → List (QueueItem Args) →
    TaskPhase Args × List (QueueItem Args) × List Nat
  | [], [] => (.waiting, [], [])
  | row :: rows, [] => (.flushing (row :: rows) false .loop, [], [])
  | rows, .row row :: queue => processQueue (rows ++ [row]) queue
  | [], .barrier call :: queue =>
      let (phase, queue, barriers) := processQueue [] queue
      (phase, queue, call :: barriers)
  | row :: rows, .barrier call :: queue => (.flushing (row :: rows) false (.barrier call), queue, [])
  | [], .stop :: queue => exitTask queue
  | row :: rows, .stop :: queue => (.flushing (row :: rows) false .stop, queue, [])

/-! ### Steps -/

def TaskPhase.isDone : TaskPhase Args → Bool
  | .done => true
  | _ => false

/-- `_task` is there and not done. -/
def WriterState.running (s : WriterState Args) : Bool := s.held && !s.phase.isDone

/-- The task is done. -/
def WriterState.taskDone (s : WriterState Args) (task : Nat) : Bool :=
  decide (task ≠ s.tasks) || s.phase.isDone

/-- `start`. -/
def WriterState.start (s : WriterState Args) : WriterState Args :=
  if s.running then s
  else { s with stopping := false, tasks := s.tasks + 1, phase := .waiting, held := true }

/-- `enqueue`. -/
def WriterState.enqueue (s : WriterState Args) (row : TimelineRow Args) : WriterState Args × Bool :=
  if s.stopping then (s, false)
  else ({ s with queue := s.queue ++ [.row row], accepted := s.accepted ++ [row] }, true)

/-- A call drains the queue: how far it comes, and the state. -/
def WriterState.drain (s : WriterState Args) : CallPhase Args × WriterState Args :=
  let (rows, barriers) := drainRemaining s.queue
  if rows = [] then
    (.returned, { s with queue := [], calls := resolveBarriers s.calls barriers })
  else (.flushing rows false barriers, { s with queue := [] })

/-- A call begins. -/
def WriterState.call (s : WriterState Args) (phase : CallPhase Args) : WriterState Args :=
  { s with calls := s.calls ++ [⟨s.accepted, phase⟩] }

/-- `flush`, up to its first await. -/
def WriterState.flush (s : WriterState Args) : WriterState Args :=
  if s.stopping && s.running then s.call (.awaitingStop s.tasks)
  else if s.running then
    { s.call (.awaitingBarrier false) with queue := s.queue ++ [.barrier s.calls.length] }
  else
    let (phase, s) := s.drain
    s.call phase

/-- `stop`, up to its first await. -/
def WriterState.stop (s : WriterState Args) : WriterState Args :=
  if s.running then
    { s.call (.awaitingTask s.tasks) with stopping := true, queue := s.queue ++ [.stop] }
  else
    let (phase, s) := { s with stopping := true, held := false }.drain
    s.call phase

/-- The task has come to another await. -/
def WriterState.came (s : WriterState Args)
    (there : TaskPhase Args × List (QueueItem Args) × List Nat) : WriterState Args :=
  { s with phase := there.1, queue := there.2.1, calls := resolveBarriers s.calls there.2.2 }

/-- `_run`, from one await to the next. -/
def WriterState.advanceTask (s : WriterState Args) : Option (WriterState Args) :=
  match s.phase with
  | .waiting => if s.queue = [] then none else some (s.came (processQueue [] s.queue))
  | .flushing _ true .loop => some (s.came (processQueue [] s.queue))
  | .flushing _ true (.barrier call) =>
      some ({ s with calls := resolveBarriers s.calls [call] }.came (processQueue [] s.queue))
  | .flushing _ true .stop => some (s.came (exitTask s.queue))
  | .flushing _ true (.exit barriers) => some (s.came (.done, s.queue, barriers))
  | .flushing _ false _ | .done => none

/-- `upsert_timeline_events` of a batch. -/
def WriterState.upsert (s : WriterState Args) (batch : List (TimelineRow Args)) : WriterState Args :=
  { s with rows := upsertTimelineEvents s.rows (collapse batch) }

/-- A call has come to another await. -/
def WriterState.callAt (s : WriterState Args) (i : Nat) (call : WriterCall Args)
    (phase : CallPhase Args) : WriterState Args :=
  { s with calls := s.calls.set i { call with phase } }

/-- A call, from one await to the next. -/
def WriterState.advanceCall (s : WriterState Args) (i : Nat) (call : WriterCall Args) :
    Option (WriterState Args) :=
  match call.phase with
  | .awaitingStop task => if s.taskDone task then some (s.callAt i call .returned) else none
  | .awaitingBarrier resolved => if resolved then some (s.callAt i call .returned) else none
  | .awaitingTask task =>
      if s.taskDone task then
        let (phase, s) := { s with held := s.held && decide (task ≠ s.tasks) }.drain
        some (s.callAt i call phase)
      else none
  | .flushing _ landed barriers =>
      if landed then
        some ({ s with calls := resolveBarriers s.calls barriers }.callAt i call .returned)
      else none
  | .returned => none

def WriterState.landCall (s : WriterState Args) (i : Nat) (call : WriterCall Args) :
    Option (WriterState Args) :=
  match call.phase with
  | .flushing rows false barriers =>
      some ((s.upsert rows).callAt i call (.flushing rows true barriers))
  | _ => none

def writerStep (s : WriterState Args) : WriterAction Args → Option (WriterState Args)
  | .pass => some s
  | .start => some s.start
  | .enqueue row => some (s.enqueue row).1
  | .flush => some s.flush
  | .stop => some s.stop
  | .task => s.advanceTask
  | .landTask =>
      match s.phase with
      | .flushing rows false next => some { s.upsert rows with phase := .flushing rows true next }
      | _ => none
  | .landCall i => s.calls[i]?.bind (s.landCall i)
  | .resume i => s.calls[i]?.bind (s.advanceCall i)

/-- A writer that nobody has used yet; the table may have rows. -/
def timelineWriter (Args : Type) : Machine (WriterState Args) (WriterAction Args) where
  Start s := ∃ rows, s = { rows := rows }
  step := writerStep

/-! ### The work ahead -/

/-- What the writer task has yet to come to after a `_flush`. -/
def AfterFlush.items : AfterFlush → List (QueueItem Args)
  | .barrier call => [.barrier call]
  | .stop => [.stop]
  | .loop | .exit _ => []

/-- What the writer task has at hand. -/
def TaskPhase.items : TaskPhase Args → List (QueueItem Args)
  | .flushing rows landed next => (if landed then [] else rows.map .row) ++ next.items
  | .waiting | .done => []

/-- **The work ahead**: what the writer task has at hand, and the queue. -/
def WriterState.work (s : WriterState Args) : List (QueueItem Args) := s.phase.items ++ s.queue

/-- The task has rows at hand, and is not at the end of a drain of its own. -/
def TaskPhase.Batched (phase : TaskPhase Args) : Prop :=
  ∀ rows landed next, phase = .flushing rows landed next →
    rows ≠ [] ∧ ∀ barriers, next ≠ .exit barriers

/-- The task has come to its next await: it is out of work, or it has begun to
store a batch. -/
def Comes (phase : TaskPhase Args) (queue : List (QueueItem Args)) : Prop :=
  (phase = .waiting ∧ queue = []) ∨
    ∃ rows next, phase = .flushing rows false next ∧ rows ≠ [] ∧ ∀ barriers, next ≠ .exit barriers

/-- Behind a stop mark there are only such. -/
def MarksLast (work : List (QueueItem Args)) : Prop :=
  ∀ q q', work = q ++ .stop :: q' → ∀ x ∈ q', x = .stop

@[simp] theorem rowsOf_append (q q' : List (QueueItem Args)) :
    rowsOf (q ++ q') = rowsOf q ++ rowsOf q' := List.filterMap_append

@[simp] theorem rowsOf_barrier (call : Nat) :
    rowsOf [(.barrier call : QueueItem Args)] = [] := rfl

@[simp] theorem rowsOf_stop : rowsOf [(.stop : QueueItem Args)] = [] := rfl

@[simp] theorem rowsOf_rows (rows : List (TimelineRow Args)) :
    rowsOf (rows.map QueueItem.row) = rows := by
  induction rows with
  | nil => rfl
  | cons row rest ih => exact congrArg (row :: ·) ih

@[simp] theorem rowsOf_barriers (barriers : List Nat) :
    rowsOf (barriers.map QueueItem.barrier : List (QueueItem Args)) = [] := by
  induction barriers with
  | nil => rfl
  | cons _ rest ih => exact ih

theorem exitTask_of_marks {queue : List (QueueItem Args)} (h : ∀ x ∈ queue, x = .stop) :
    exitTask queue = (.done, [], []) := by
  have hrows : rowsOf queue = [] := List.filterMap_eq_nil_iff.mpr fun x hx => by rw [h x hx]; rfl
  have hbarriers : queue.filterMap QueueItem.barrier? = [] :=
    List.filterMap_eq_nil_iff.mpr fun x hx => by rw [h x hx]; rfl
  simp [exitTask, drainRemaining, hrows, hbarriers]

theorem Comes.not_done {phase : TaskPhase Args} {queue : List (QueueItem Args)}
    (h : Comes phase queue) : phase.isDone = false := by
  rcases h with ⟨rfl, -⟩ | ⟨rows, next, rfl, -, -⟩ <;> rfl

theorem Comes.batched {phase : TaskPhase Args} {queue : List (QueueItem Args)}
    (h : Comes phase queue) : phase.Batched := by
  intro rows landed next heq
  rcases h with ⟨rfl, -⟩ | ⟨rows', next', rfl, hrows, hnext⟩
  · cases heq
  · cases heq
    exact ⟨hrows, hnext⟩

/-- A batch under way, and where the rest of it ends. -/
theorem processQueue_batch (queue : List (QueueItem Args)) (row : TimelineRow Args)
    (rows : List (TimelineRow Args)) :
    ∃ phase rest, processQueue (row :: rows) queue = (phase, rest, []) ∧ Comes phase rest ∧
      (row :: rows).map .row ++ queue = phase.items ++ rest := by
  induction queue generalizing rows with
  | nil =>
      exact ⟨_, _, rfl, .inr ⟨_, _, rfl, List.cons_ne_nil _ _, fun _ h => by cases h⟩,
        by simp [TaskPhase.items, AfterFlush.items]⟩
  | cons item queue ih =>
      cases item with
      | row next =>
          obtain ⟨phase, rest, hprocess, hcomes, hwork⟩ := ih (rows ++ [next])
          refine ⟨phase, rest, hprocess, hcomes, ?_⟩
          rw [← hwork]
          simp
      | barrier call =>
          exact ⟨_, _, rfl, .inr ⟨_, _, rfl, List.cons_ne_nil _ _, fun _ h => by cases h⟩,
            by simp [TaskPhase.items, AfterFlush.items]⟩
      | stop =>
          exact ⟨_, _, rfl, .inr ⟨_, _, rfl, List.cons_ne_nil _ _, fun _ h => by cases h⟩,
            by simp [TaskPhase.items, AfterFlush.items]⟩

/-- **What the task takes off the queue.**  Barriers at the front are resolved;
the rest is the work ahead, unless a stop mark comes first. -/
theorem processQueue_cases (queue : List (QueueItem Args)) (hmarks : MarksLast queue) :
    ∃ lead rest, queue = lead.map .barrier ++ rest ∧
      ((∃ phase queue', processQueue [] queue = (phase, queue', lead) ∧ Comes phase queue' ∧
          rest = phase.items ++ queue') ∨
        ((∃ q, rest = .stop :: q) ∧ processQueue [] queue = (.done, [], lead))) := by
  induction queue with
  | nil => exact ⟨[], [], rfl, .inl ⟨_, _, rfl, .inl ⟨rfl, rfl⟩, rfl⟩⟩
  | cons item queue ih =>
      cases item with
      | row row =>
          obtain ⟨phase, rest, hprocess, hcomes, hwork⟩ := processQueue_batch queue row []
          exact ⟨[], _, rfl, .inl ⟨phase, rest, hprocess, hcomes, hwork⟩⟩
      | barrier call =>
          have hmarks' : MarksLast queue := fun q q' heq =>
            hmarks (.barrier call :: q) q' (congrArg (QueueItem.barrier call :: ·) heq)
          obtain ⟨lead, rest, hqueue, hrest⟩ := ih hmarks'
          refine ⟨call :: lead, rest, congrArg (QueueItem.barrier call :: ·) hqueue, ?_⟩
          rcases hrest with ⟨phase, queue', hprocess, hcomes, hwork⟩ | ⟨hstop, hprocess⟩
          · exact .inl ⟨phase, queue', by rw [processQueue, hprocess], hcomes, hwork⟩
          · exact .inr ⟨hstop, by rw [processQueue, hprocess]⟩
      | stop =>
          refine ⟨[], _, rfl, .inr ⟨⟨queue, rfl⟩, ?_⟩⟩
          rw [processQueue, exitTask_of_marks (hmarks [] queue rfl)]

/-- **The step of the task.**  It takes barriers off the work ahead, and comes
to the rest of it or, at a stop mark, to its end. -/
theorem advanceTask_cases {s t : WriterState Args} (hstep : s.advanceTask = some t)
    (hbatched : s.phase.Batched) (hmarks : MarksLast s.work) :
    ∃ lead rest, s.work = lead.map .barrier ++ rest ∧
      ((∃ phase queue, t = { s with phase, queue, calls := resolveBarriers s.calls lead } ∧
          Comes phase queue ∧ rest = phase.items ++ queue) ∨
        ((∃ q, rest = .stop :: q) ∧
          t = { s with phase := .done, queue := [], calls := resolveBarriers s.calls lead })) := by
  unfold WriterState.advanceTask at hstep
  unfold WriterState.work at hmarks ⊢
  split at hstep
  · rename_i hphase
    rw [hphase] at hmarks ⊢
    split at hstep
    · cases hstep
    · obtain rfl := Option.some.inj hstep
      obtain ⟨lead, rest, hqueue, hrest⟩ := processQueue_cases s.queue hmarks
      refine ⟨lead, rest, hqueue, ?_⟩
      rcases hrest with ⟨phase, queue', hprocess, hcomes, hwork⟩ | ⟨hstop, hprocess⟩
      · exact .inl ⟨phase, queue', by rw [WriterState.came, hprocess], hcomes, hwork⟩
      · exact .inr ⟨hstop, by rw [WriterState.came, hprocess]⟩
  · rename_i rows hphase
    rw [hphase] at hmarks ⊢
    obtain rfl := Option.some.inj hstep
    obtain ⟨lead, rest, hqueue, hrest⟩ := processQueue_cases s.queue hmarks
    refine ⟨lead, rest, hqueue, ?_⟩
    rcases hrest with ⟨phase, queue', hprocess, hcomes, hwork⟩ | ⟨hstop, hprocess⟩
    · exact .inl ⟨phase, queue', by rw [WriterState.came, hprocess], hcomes, hwork⟩
    · exact .inr ⟨hstop, by rw [WriterState.came, hprocess]⟩
  · rename_i rows call hphase
    rw [hphase] at hmarks ⊢
    obtain rfl := Option.some.inj hstep
    have hmarks' : MarksLast s.queue := fun q q' heq =>
      hmarks (.barrier call :: q) q' (congrArg (QueueItem.barrier call :: ·) heq)
    obtain ⟨lead, rest, hqueue, hrest⟩ := processQueue_cases s.queue hmarks'
    refine ⟨call :: lead, rest, congrArg (QueueItem.barrier call :: ·) hqueue, ?_⟩
    rcases hrest with ⟨phase, queue', hprocess, hcomes, hwork⟩ | ⟨hstop, hprocess⟩
    · refine .inl ⟨phase, queue', ?_, hcomes, hwork⟩
      simp only [WriterState.came, hprocess]
      rfl
    · refine .inr ⟨hstop, ?_⟩
      simp only [WriterState.came, hprocess]
      rfl
  · rename_i rows hphase
    rw [hphase] at hmarks ⊢
    obtain rfl := Option.some.inj hstep
    refine ⟨[], _, rfl, .inr ⟨⟨s.queue, rfl⟩, ?_⟩⟩
    rw [WriterState.came, exitTask_of_marks (hmarks [] s.queue rfl)]
  · rename_i rows barriers hphase
    exact absurd rfl ((hbatched rows true (.exit barriers) hphase).2 barriers)
  · cases hstep
  · cases hstep

end Workbench.TimelineWriter
