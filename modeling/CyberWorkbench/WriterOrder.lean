import CyberWorkbench.TimelineWriter

/-!
# The order of the timeline writer

What a writer was given is in three parts, in this order: what is in the table,
what a call has drained and not yet stored, and what is still ahead of the
writer task.  `Orderly` says so, and how far each call may have come by it.

`Orderly.step`: every step keeps it in which nobody drains beside an upsert
that a call has under way, and no writer is started beside one or beside a stop
that has yet to drain.
-/

namespace Workbench.TimelineWriter

open TimelineLog LastWrite StepMachine

variable {Args : Type}

/-! ### What is stored -/

/-- The payload a list of rows leaves under a key. -/
def payloadOf (rows : List (TimelineRow Args)) (key : String) : Option (LiveBus.AgentEvent Args) :=
  (lastOf (fun row => decide (row.itemKey = key)) rows).map TimelineRow.payload

theorem payloadOf_append (rows rows' : List (TimelineRow Args)) (key : String) :
    payloadOf (rows ++ rows') key = (payloadOf rows' key).or (payloadOf rows key) := by
  unfold payloadOf
  rw [lastOf_append, Option.map_or]

/-- **An upsert of a batch.**  It stores what its rows leave. -/
theorem payloadOf_upsert (rows batch : List (TimelineRow Args)) (key : String) :
    payloadOf (upsertTimelineEvents rows (collapse batch)) key = payloadOf (rows ++ batch) key := by
  have hbatch : payloadOf (collapse batch) key = payloadOf batch key := by
    unfold payloadOf
    rw [lastOf_collapse]
  rw [payloadOf_append, ← hbatch, ← payloadOf_append]
  unfold upsertTimelineEvents
  induction collapse batch generalizing rows with
  | nil => rw [List.append_nil]; rfl
  | cons value rest ih =>
      have hvalue : payloadOf (upsertRow rows value) key = payloadOf (rows ++ [value]) key :=
        lastOf_upsertRow rows value key
      rw [List.foldl_cons, ih, payloadOf_append, hvalue, ← payloadOf_append, List.append_assoc]
      rfl

/-! ### Calls -/

/-- What the call has drained and not yet stored. -/
def WriterCall.flight? (call : WriterCall Args) : Option (List (TimelineRow Args)) :=
  match call.phase with
  | .flushing rows false _ => some rows
  | _ => none

/-- The task that the call waits for. -/
def CallPhase.task? : CallPhase Args → Option Nat
  | .awaitingStop task | .awaitingTask task => some task
  | _ => none

/-- The call drains the queue when the task is done. -/
def CallPhase.drainsLater : CallPhase Args → Bool
  | .awaitingTask _ => true
  | _ => false

def CallPhase.isReturned : CallPhase Args → Bool
  | .returned => true
  | _ => false

/-- The upserts that calls have under way. -/
def flightsOf (calls : List (WriterCall Args)) : List (List (TimelineRow Args)) :=
  calls.filterMap WriterCall.flight?

/-- Nothing is left to wait for. -/
def WriterState.ready (s : WriterState Args) (call : WriterCall Args) : Bool :=
  match call.phase with
  | .awaitingStop task | .awaitingTask task => s.taskDone task
  | .awaitingBarrier resolved => resolved
  | .flushing _ landed _ => landed
  | .returned => true

/-- **One at a time.**  Nobody drains beside an upsert that a call has under
way, and no writer is started beside one, or beside a stop that has yet to
drain. -/
def Undisturbed (s : WriterState Args) : WriterAction Args → WriterState Args → Prop
  | .start, _ => s.running = true ∨
      (flightsOf s.calls = [] ∧ ∀ call ∈ s.calls, call.phase.drainsLater = false)
  | .flush, _ | .stop, _ => flightsOf s.calls = []
  | .pass, _ | .enqueue _, _ | .task, _ | .landTask, _ | .landCall _, _ | .resume _, _ => True

instance (s : WriterState Args) : (action : WriterAction Args) → (t : WriterState Args) →
    Decidable (Undisturbed s action t)
  | .start, _ => by unfold Undisturbed; infer_instance
  | .flush, _ | .stop, _ => by unfold Undisturbed; infer_instance
  | .pass, _ | .enqueue _, _ | .task, _ | .landTask, _ | .landCall _, _ | .resume _, _ =>
      .isTrue trivial

@[simp] theorem resolve_before (call : WriterCall Args) : call.resolve.before = call.before := by
  unfold WriterCall.resolve
  split <;> rfl

theorem resolve_of_waiting {call : WriterCall Args} {resolved : Bool}
    (h : call.phase = .awaitingBarrier resolved) : call.resolve.phase = .awaitingBarrier true := by
  unfold WriterCall.resolve
  rw [h]

theorem resolve_of_not_waiting {call : WriterCall Args}
    (h : ∀ resolved, call.phase ≠ .awaitingBarrier resolved) : call.resolve = call := by
  unfold WriterCall.resolve
  split
  · rename_i resolved hphase
    exact absurd hphase (h resolved)
  · rfl

/-- Whoever was resolved does not wait for a barrier. -/
theorem resolve_phase_ne (call : WriterCall Args) : call.resolve.phase ≠ .awaitingBarrier false := by
  unfold WriterCall.resolve
  split
  · intro heq
    cases heq
  · rename_i hnot
    exact hnot false

theorem resolve_resolve (call : WriterCall Args) : call.resolve.resolve = call.resolve := by
  by_cases h : ∃ resolved, call.phase = .awaitingBarrier resolved
  · obtain ⟨resolved, h⟩ := h
    unfold WriterCall.resolve
    simp [h]
  · have hnot := resolve_of_not_waiting (fun resolved hphase => h ⟨resolved, hphase⟩)
    rw [hnot, hnot]

@[simp] theorem resolve_flight (call : WriterCall Args) :
    call.resolve.flight? = call.flight? := by
  unfold WriterCall.resolve
  split
  · rename_i hphase
    simp [hphase, WriterCall.flight?]
  · rfl

/-- **What resolving does to a call.** -/
theorem getElem?_resolveBarriers (calls : List (WriterCall Args)) (barriers : List Nat) (i : Nat) :
    (resolveBarriers calls barriers)[i]? =
      calls[i]?.map (fun call => if i ∈ barriers then call.resolve else call) := by
  unfold resolveBarriers
  induction barriers generalizing calls with
  | nil => simp
  | cons barrier rest ih =>
      rw [List.foldl_cons, ih, List.getElem?_modify, Option.map_eq_map, Option.map_map]
      congr 1
      funext call
      by_cases hi : barrier = i
      · simp [hi, resolve_resolve]
      · simp [hi, Ne.symm hi]

@[simp] theorem length_resolveBarriers (calls : List (WriterCall Args)) (barriers : List Nat) :
    (resolveBarriers calls barriers).length = calls.length := by
  unfold resolveBarriers
  induction barriers generalizing calls with
  | nil => rfl
  | cons barrier rest ih => rw [List.foldl_cons, ih, List.length_modify]

/-- Calls with the same upserts under way. -/
theorem flightsOf_congr {calls calls' : List (WriterCall Args)}
    (h : ∀ i : Nat, calls[i]?.map WriterCall.flight? = calls'[i]?.map WriterCall.flight?) : flightsOf calls = flightsOf calls' := by
  have hmap : calls.map WriterCall.flight? = calls'.map WriterCall.flight? := by
    apply List.ext_getElem?
    intro i
    rw [List.getElem?_map, List.getElem?_map, h]
  have hid := congrArg (List.filterMap id) hmap
  rw [List.filterMap_map, List.filterMap_map] at hid
  exact hid

@[simp] theorem flightsOf_resolveBarriers (calls : List (WriterCall Args)) (barriers : List Nat) :
    flightsOf (resolveBarriers calls barriers) = flightsOf calls := by
  apply flightsOf_congr
  intro i
  rw [getElem?_resolveBarriers, Option.map_map]
  congr 1
  funext call
  by_cases hi : i ∈ barriers <;> simp [hi]

theorem flightsOf_set {calls : List (WriterCall Args)} {i : Nat} {call call' : WriterCall Args}
    (hi : calls[i]? = some call) (h : call'.flight? = call.flight?) :
    flightsOf (calls.set i call') = flightsOf calls := by
  apply flightsOf_congr
  intro j
  by_cases hj : j = i
  · subst hj
    rw [List.getElem?_set_self (List.getElem?_eq_some_iff.mp hi).1, hi]
    simp [h]
  · rw [List.getElem?_set_ne (Ne.symm hj)]

/-- **The only upsert under way lands.** -/
theorem flightsOf_land {calls : List (WriterCall Args)} {i : Nat} {call : WriterCall Args}
    (call' : WriterCall Args)
    {rows : List (TimelineRow Args)} (hone : (flightsOf calls).length ≤ 1)
    (hi : calls[i]? = some call) (hflight : call.flight? = some rows)
    (hlanded : call'.flight? = none) :
    flightsOf calls = [rows] ∧ flightsOf (calls.set i call') = [] := by
  obtain ⟨hlt, hget⟩ := List.getElem?_eq_some_iff.mp hi
  have hsplit : flightsOf calls =
      flightsOf (calls.take i) ++ rows :: flightsOf (calls.drop (i + 1)) := by
    conv => lhs; rw [← List.take_append_drop i calls, List.drop_eq_getElem_cons hlt, hget]
    simp [flightsOf, hflight]
  have hlen := congrArg List.length hsplit
  rw [List.length_append, List.length_cons] at hlen
  have htake : flightsOf (calls.take i) = [] := List.length_eq_zero_iff.mp (by omega)
  have hdrop : flightsOf (calls.drop (i + 1)) = [] := List.length_eq_zero_iff.mp (by omega)
  refine ⟨by rw [hsplit, htake, hdrop]; rfl, ?_⟩
  have hset : flightsOf (calls.set i call') =
      flightsOf (calls.take i) ++ flightsOf (calls.drop (i + 1)) := by
    rw [List.set_eq_take_append_cons_drop, if_pos hlt]
    simp [flightsOf, hlanded]
  rw [hset, htake, hdrop]
  rfl

theorem flight_mem {calls : List (WriterCall Args)} {i : Nat} {call : WriterCall Args}
    {rows : List (TimelineRow Args)} (hi : calls[i]? = some call)
    (hflight : call.flight? = some rows) : rows ∈ flightsOf calls :=
  List.mem_filterMap.mpr ⟨call, List.mem_of_getElem? hi, hflight⟩

/-! ### The invariant -/

/-- The task, its queue and the stop marks. -/
structure TaskOrder (s : WriterState Args) : Prop where
  held : s.phase.isDone = false → s.held = true
  batched : s.phase.Batched
  marksLast : MarksLast s.work
  stops : .stop ∈ s.work ↔ (s.stopping = true ∧ s.phase.isDone = false)
  idle : s.phase.isDone = true → ∀ item ∈ s.queue, s.stopping = false ∧ ∃ row, item = .row row

/-- How far a call may have come: whoever has nothing left to wait for began
with rows that are in the table by now. -/
structure CallOrder (landed : List (TimelineRow Args)) (s : WriterState Args) (i : Nat)
    (call : WriterCall Args) : Prop where
  before : call.before <+: s.accepted
  ready : s.ready call = true → call.before.length ≤ landed.length
  drained : ∀ rows flown barriers, call.phase = .flushing rows flown barriers → barriers = [] ∧
    (flown = false → s.phase.isDone = true ∧ call.before.length ≤ landed.length + rows.length)
  task : ∀ task, call.phase.task? = some task →
    task ≤ s.tasks ∧ (task = s.tasks → s.stopping = true)
  drainsLater : ∀ task, call.phase = .awaitingTask task → task = s.tasks
  barrier : call.phase = .awaitingBarrier false → .barrier i ∈ s.work

/-- A barrier stands behind the rows that its call began with. -/
def BarriersBehind (landed : List (TimelineRow Args)) (calls : List (WriterCall Args))
    (work : List (QueueItem Args)) : Prop :=
  ∀ n i, work[n]? = some (.barrier i) → ∃ call, calls[i]? = some call ∧
    call.before.length ≤ landed.length + (rowsOf (work.take n)).length

/-- **Everything is in order.** -/
structure Orderly (initial landed : List (TimelineRow Args)) (s : WriterState Args) : Prop where
  stored : ∀ key, payloadOf s.rows key = payloadOf (initial ++ landed) key
  accepted : s.accepted = landed ++ (flightsOf s.calls).flatten ++ rowsOf s.work
  single : (flightsOf s.calls).length ≤ 1
  task : TaskOrder s
  calls : ∀ i call, s.calls[i]? = some call → CallOrder landed s i call
  barriers : BarriersBehind landed s.calls s.work

theorem TaskOrder.frame {s t : WriterState Args} (h : TaskOrder s) (hphase : t.phase = s.phase)
    (hqueue : t.queue = s.queue) (hstopping : t.stopping = s.stopping)
    (hheld : s.phase.isDone = false → t.held = s.held) : TaskOrder t := by
  have hwork : t.work = s.work := by
    unfold WriterState.work
    rw [hphase, hqueue]
  refine ⟨fun hd => ?_, hphase ▸ h.batched, hwork ▸ h.marksLast, ?_, ?_⟩
  · rw [hphase] at hd
    exact (hheld hd).trans (h.held hd)
  · rw [hwork, hstopping, hphase]
    exact h.stops
  · rw [hphase, hqueue, hstopping]
    exact h.idle

theorem work_of_done {s : WriterState Args} (h : s.phase.isDone = true) : s.work = s.queue := by
  unfold WriterState.work
  cases hphase : s.phase with
  | done => rfl
  | waiting => rw [hphase] at h; cases h
  | flushing rows landed next => rw [hphase] at h; cases h

theorem TaskOrder.done_of_not_running {s : WriterState Args} (h : TaskOrder s)
    (hrunning : s.running = false) : s.phase.isDone = true := by
  cases hdone : s.phase.isDone with
  | true => rfl
  | false =>
      have hheld := h.held hdone
      simp [WriterState.running, hheld, hdone] at hrunning

theorem not_done_of_running {s : WriterState Args} (h : s.running = true) :
    s.phase.isDone = false := by
  simp only [WriterState.running, Bool.and_eq_true, Bool.not_eq_true'] at h
  exact h.2

/-- No barrier is left behind by the task. -/
theorem TaskOrder.no_barrier {s : WriterState Args} (h : TaskOrder s) (hdone : s.phase.isDone = true)
    (i : Nat) : .barrier i ∉ s.work := by
  intro hmem
  rw [work_of_done hdone] at hmem
  obtain ⟨-, row, hrow⟩ := h.idle hdone _ hmem
  cases hrow

/-- Upserts are under way in calls only while there is no task. -/
theorem Orderly.no_flight {initial landed : List (TimelineRow Args)} {s : WriterState Args}
    (h : Orderly initial landed s) (hdone : s.phase.isDone = false) : flightsOf s.calls = [] := by
  refine List.eq_nil_iff_forall_not_mem.mpr fun rows hrows => ?_
  obtain ⟨call, hcall, hflight⟩ := List.mem_filterMap.mp hrows
  obtain ⟨i, hi⟩ := List.mem_iff_getElem?.mp hcall
  unfold WriterCall.flight? at hflight
  split at hflight
  · rename_i rows' barriers hphase
    have hdone' := ((h.calls i call hi).drained rows' false barriers hphase).2 rfl
    rw [hdone] at hdone'
    cases hdone'.1
  · cases hflight

/-! ### Frames -/

theorem ready_congr {s t : WriterState Args} (htasks : t.tasks = s.tasks)
    (hdone : t.phase.isDone = s.phase.isDone) (call : WriterCall Args) :
    t.ready call = s.ready call := by
  unfold WriterState.ready WriterState.taskDone
  rw [htasks, hdone]

/-- A call that the step is not about. -/
theorem CallOrder.frame {landed landed' : List (TimelineRow Args)} {s t : WriterState Args} {i : Nat}
    {call : WriterCall Args} (h : CallOrder landed s i call) (haccepted : s.accepted <+: t.accepted)
    (hlanded : landed.length ≤ landed'.length) (htasks : t.tasks = s.tasks)
    (hstopping : s.stopping = true → t.stopping = true)
    (hdone : t.phase.isDone = s.phase.isDone)
    (hwork : call.phase = .awaitingBarrier false → .barrier i ∈ s.work → .barrier i ∈ t.work) :
    CallOrder landed' t i call where
  before := h.before.trans haccepted
  ready hready := by
    rw [ready_congr htasks hdone] at hready
    exact (h.ready hready).trans hlanded
  drained rows flown barriers hphase := by
    obtain ⟨hbarriers, hflown⟩ := h.drained rows flown barriers hphase
    refine ⟨hbarriers, fun hf => ?_⟩
    obtain ⟨hd, hle⟩ := hflown hf
    exact ⟨hdone.trans hd, by omega⟩
  task task htask := by
    obtain ⟨hle, hstop⟩ := h.task task htask
    exact ⟨htasks ▸ hle, fun heq => hstopping (hstop (heq.trans htasks))⟩
  drainsLater task hphase := (h.drainsLater task hphase).trans htasks.symm
  barrier hphase := hwork hphase (h.barrier hphase)

theorem BarriersBehind.calls {landed : List (TimelineRow Args)} {calls calls' : List (WriterCall Args)}
    {work : List (QueueItem Args)} (h : BarriersBehind landed calls work)
    (hcalls : ∀ (i : Nat) call, calls[i]? = some call →
      ∃ call', calls'[i]? = some call' ∧ call'.before = call.before) :
    BarriersBehind landed calls' work := by
  intro n i hn
  obtain ⟨call, hcall, hle⟩ := h n i hn
  obtain ⟨call', hcall', hbefore⟩ := hcalls i call hcall
  exact ⟨call', hcall', hbefore ▸ hle⟩

/-- What is put at the end. -/
theorem BarriersBehind.concat {landed : List (TimelineRow Args)} {calls : List (WriterCall Args)}
    {work : List (QueueItem Args)} (h : BarriersBehind landed calls work) {item : QueueItem Args}
    (hitem : ∀ i, item = .barrier i → ∃ call, calls[i]? = some call ∧
      call.before.length ≤ landed.length + (rowsOf work).length) :
    BarriersBehind landed calls (work ++ [item]) := by
  intro n i hn
  rw [List.getElem?_append] at hn
  split at hn
  · rename_i hlt
    rw [List.take_append_of_le_length (Nat.le_of_lt hlt)]
    exact h n i hn
  · rename_i hge
    rw [List.getElem?_singleton] at hn
    split at hn
    · obtain ⟨call, hcall, hle⟩ := hitem i (Option.some.inj hn)
      refine ⟨call, hcall, ?_⟩
      rw [List.take_append, List.take_of_length_le (by omega), rowsOf_append, List.length_append]
      omega
    · cases hn

/-- What is taken off the front: barriers, or rows that have landed. -/
theorem BarriersBehind.drop {landed landed' : List (TimelineRow Args)}
    {calls : List (WriterCall Args)} {lead rest : List (QueueItem Args)}
    (h : BarriersBehind landed calls (lead ++ rest))
    (hlanded : landed.length + (rowsOf lead).length ≤ landed'.length) :
    BarriersBehind landed' calls rest := by
  intro n i hn
  have hshift : (lead ++ rest)[lead.length + n]? = some (.barrier i) := by
    rw [List.getElem?_append_right (by omega), Nat.add_sub_cancel_left]
    exact hn
  obtain ⟨call, hcall, hle⟩ := h _ i hshift
  refine ⟨call, hcall, ?_⟩
  rw [List.take_length_add_append, rowsOf_append, List.length_append] at hle
  omega

theorem MarksLast.drop {lead rest : List (QueueItem Args)} (h : MarksLast (lead ++ rest)) :
    MarksLast rest :=
  fun q q' heq => h (lead ++ q) q' (by rw [heq, List.append_assoc])

theorem marksLast_of_not_mem {work : List (QueueItem Args)} (h : .stop ∉ work) : MarksLast work := by
  intro q q' heq
  exact absurd (heq ▸ List.mem_append_right q List.mem_cons_self) h

theorem MarksLast.concat_stop {work : List (QueueItem Args)} (h : MarksLast work) :
    MarksLast (work ++ [.stop]) := by
  intro q q' heq x hx
  rcases List.eq_nil_or_concat q' with rfl | ⟨q'', y, rfl⟩
  · cases hx
  · rw [List.concat_eq_append] at heq hx
    have hsplit : work ++ [.stop] = (q ++ .stop :: q'') ++ [y] := by
      rw [heq, List.append_assoc, List.cons_append]
    obtain ⟨hwork, hy⟩ := List.append_inj' hsplit rfl
    rcases List.mem_append.mp hx with hmem | hmem
    · exact h q q'' hwork x hmem
    · rw [List.mem_singleton.mp hmem]
      exact (List.cons.inj hy).1.symm

/-! ### Steps -/

variable {initial landed : List (TimelineRow Args)} {s t : WriterState Args}

/-- A new writer finds the rows that were enqueued without one. -/
theorem Orderly.start (h : Orderly initial landed s) (hok : s.running = true ∨
    (flightsOf s.calls = [] ∧ ∀ call ∈ s.calls, call.phase.drainsLater = false)) :
    Orderly initial landed s.start := by
  unfold WriterState.start
  by_cases hrunning : s.running = true
  · rw [if_pos hrunning]
    exact h
  · rw [if_neg hrunning]
    obtain ⟨hflights, hdrains⟩ := hok.resolve_left hrunning
    have hdone := h.task.done_of_not_running (Bool.eq_false_iff.mpr hrunning)
    have hwork := work_of_done hdone
    have hrows := h.task.idle hdone
    have hstop : QueueItem.stop ∉ s.queue := by
      intro hmem
      obtain ⟨-, row, hrow⟩ := hrows _ hmem
      cases hrow
    refine ⟨h.stored, hwork ▸ h.accepted, h.single, ?_, ?_, hwork ▸ h.barriers⟩
    · refine ⟨fun _ => rfl, ?_, marksLast_of_not_mem hstop, ?_, ?_⟩
      · intro rows landed next heq
        cases heq
      · exact ⟨fun hmem => absurd hmem hstop, fun hstopping => by cases hstopping.1⟩
      · intro hd
        cases hd
    · intro i call hi
      have hcall := h.calls i call hi
      have hmem := List.mem_of_getElem? hi
      refine ⟨hcall.before, ?_, ?_, ?_, ?_, ?_⟩
      · -- who waited for the old task has nothing left to wait for
        intro hready
        apply hcall.ready
        unfold WriterState.ready at hready ⊢
        cases hphase : call.phase with
        | awaitingStop task | awaitingTask task => simp [WriterState.taskDone, hdone]
        | awaitingBarrier _ | flushing _ _ _ | returned => simpa [hphase] using hready
      · intro rows flown barriers hphase
        refine ⟨(hcall.drained rows flown barriers hphase).1, ?_⟩
        rintro rfl
        have hflight : rows ∈ flightsOf s.calls :=
          flight_mem hi (by rw [WriterCall.flight?, hphase])
        rw [hflights] at hflight
        cases hflight
      · intro task htask
        have hle := (hcall.task task htask).1
        refine ⟨by simp only; omega, ?_⟩
        intro heq
        simp only at heq
        omega
      · intro task hphase
        have hnot := hdrains call hmem
        rw [hphase] at hnot
        cases hnot
      · intro hphase
        exact absurd (hcall.barrier hphase) (h.task.no_barrier hdone i)

theorem Orderly.enqueue (h : Orderly initial landed s) (row : TimelineRow Args) :
    Orderly initial landed (s.enqueue row).1 := by
  unfold WriterState.enqueue
  by_cases hstopping : s.stopping = true
  · rw [if_pos hstopping]
    exact h
  · rw [if_neg hstopping]
    rw [Bool.not_eq_true] at hstopping
    let t : WriterState Args :=
      { s with queue := s.queue ++ [.row row], accepted := s.accepted ++ [row] }
    have hwork : t.work = s.work ++ [.row row] := (List.append_assoc ..).symm
    have hstop : QueueItem.stop ∉ s.work := by
      intro hmem
      have hs := (h.task.stops.mp hmem).1
      rw [hstopping] at hs
      cases hs
    have hstop' : QueueItem.stop ∉ t.work := by
      rw [hwork]
      simpa using hstop
    refine ⟨h.stored, ?_, h.single, ?_, ?_, ?_⟩
    · rw [hwork, rowsOf_append, ← List.append_assoc, ← h.accepted]
      rfl
    · refine ⟨h.task.held, h.task.batched, marksLast_of_not_mem hstop', ?_, ?_⟩
      · refine ⟨fun hmem => absurd hmem hstop', fun hs => ?_⟩
        rw [show t.stopping = false from hstopping] at hs
        cases hs.1
      · intro hdone item hitem
        rcases List.mem_append.mp hitem with hmem | hmem
        · exact h.task.idle hdone item hmem
        · exact ⟨hstopping, row, List.mem_singleton.mp hmem⟩
    · intro i call hi
      exact (h.calls i call hi).frame (List.prefix_append _ _) (Nat.le_refl _) rfl id rfl
        (fun _ hmem => hwork ▸ List.mem_append_left _ hmem)
    · rw [hwork]
      exact h.barriers.concat fun i heq => by cases heq

theorem getElem?_concat {α : Type} {l : List α} {j : Nat} {x y : α} (h : (l ++ [x])[j]? = some y) :
    l[j]? = some y ∨ (j = l.length ∧ y = x) := by
  rw [List.getElem?_append] at h
  split at h
  · exact .inl h
  · rename_i hge
    rw [List.getElem?_singleton] at h
    split at h
    · exact .inr ⟨by omega, (Option.some.inj h).symm⟩
    · cases h

/-- **A call begins.** -/
theorem Orderly.begin (h : Orderly initial landed s) {phase : CallPhase Args}
    (hrows : t.rows = s.rows) (hcalls : t.calls = s.calls ++ [⟨s.accepted, phase⟩])
    (haccepted : t.accepted = s.accepted) (htasks : t.tasks = s.tasks)
    (hstopping : s.stopping = true → t.stopping = true)
    (hdone : t.phase.isDone = s.phase.isDone)
    (hwork : ∀ i, .barrier i ∈ s.work → .barrier i ∈ t.work)
    (hlast : s.accepted = landed ++ (flightsOf t.calls).flatten ++ rowsOf t.work)
    (hsingle : (flightsOf t.calls).length ≤ 1) (htask : TaskOrder t)
    (hcall : CallOrder landed t s.calls.length ⟨s.accepted, phase⟩)
    (hbarriers : BarriersBehind landed t.calls t.work) : Orderly initial landed t where
  stored := hrows ▸ h.stored
  accepted := haccepted.trans hlast
  single := hsingle
  task := htask
  calls i call hi := by
    rw [hcalls] at hi
    rcases getElem?_concat hi with hold | ⟨rfl, rfl⟩
    · exact (h.calls i call hold).frame (haccepted ▸ List.prefix_refl _) (Nat.le_refl _) htasks
        hstopping hdone (fun _ => hwork i)
    · exact hcall
  barriers := hbarriers

theorem BarriersBehind.begin {calls : List (WriterCall Args)} {work : List (QueueItem Args)}
    (h : BarriersBehind landed calls work) (call : WriterCall Args) :
    BarriersBehind landed (calls ++ [call]) work := by
  refine h.calls fun i old hi => ⟨old, ?_, rfl⟩
  rw [List.getElem?_append_left (List.getElem?_eq_some_iff.mp hi).1]
  exact hi

/-- All that was accepted is in the table, or ahead of the task. -/
theorem Orderly.accepted_of_no_flight (h : Orderly initial landed s)
    (hflights : flightsOf s.calls = []) : s.accepted = landed ++ rowsOf s.work := by
  have haccepted := h.accepted
  rw [hflights] at haccepted
  simpa using haccepted

/-- What a drain comes to, when only rows are queued. -/
theorem drain_cases (hqueue : ∀ item ∈ s.queue, ∃ row, item = .row row) :
    (s.queue = [] ∧ s.drain = (.returned, s)) ∨
      (rowsOf s.queue ≠ [] ∧ s.drain = (.flushing (rowsOf s.queue) false [], { s with queue := [] })) := by
  have hbarriers : s.queue.filterMap QueueItem.barrier? = [] := by
    refine List.filterMap_eq_nil_iff.mpr fun item hitem => ?_
    obtain ⟨row, rfl⟩ := hqueue item hitem
    rfl
  unfold WriterState.drain drainRemaining
  rw [hbarriers]
  by_cases hrows : rowsOf s.queue = []
  · have hempty : s.queue = [] := by
      refine List.eq_nil_iff_forall_not_mem.mpr fun item hitem => ?_
      obtain ⟨row, rfl⟩ := hqueue item hitem
      have hnone := List.filterMap_eq_nil_iff.mp hrows _ hitem
      cases hnone
    refine .inl ⟨hempty, ?_⟩
    simp only [hrows, if_true, resolveBarriers, List.foldl_nil]
    rw [← hempty]
  · exact .inr ⟨hrows, by simp only [hrows, if_false]⟩

theorem flightsOf_concat (calls : List (WriterCall Args)) (call : WriterCall Args) :
    flightsOf (calls ++ [call]) = flightsOf calls ++ call.flight?.toList := by
  unfold flightsOf
  rw [List.filterMap_append]
  cases hflight : call.flight? <;> simp [hflight]

/-- A task that is done leaves nothing behind. -/
theorem taskOrder_of_done (hdone : t.phase.isDone = true) (hqueue : t.queue = []) : TaskOrder t := by
  have hwork : t.work = [] := (work_of_done hdone).trans hqueue
  refine ⟨?_, ?_, ?_, ⟨?_, ?_⟩, ?_⟩
  · intro hd
    rw [hdone] at hd
    cases hd
  · intro rows landed next hphase
    rw [hphase] at hdone
    cases hdone
  · rw [hwork]
    exact marksLast_of_not_mem List.not_mem_nil
  · intro hmem
    rw [hwork] at hmem
    cases hmem
  · intro hs
    rw [hdone] at hs
    cases hs.2
  · intro _ item hitem
    rw [hqueue] at hitem
    cases hitem

/-- A call that drains by itself. -/
theorem Orderly.drainDirect (h : Orderly initial landed s) (hflights : flightsOf s.calls = [])
    (hdone : s.phase.isDone = true) (stopping held : Bool)
    (hstopping : s.stopping = true → stopping = true) :
    Orderly initial landed
      ({ s with stopping, held }.drain.2.call { s with stopping, held }.drain.1) := by
  have haccepted := h.accepted_of_no_flight hflights
  rw [work_of_done hdone] at haccepted
  have hnone := h.task.no_barrier hdone
  have hbarriers : ∀ calls, BarriersBehind landed calls [] := fun calls n i hn => by cases hn
  have hdrain := drain_cases (s := { s with stopping, held })
    fun item hitem => (h.task.idle hdone item hitem).2
  rcases hdrain with ⟨hempty, hdrain⟩ | ⟨hrows, hdrain⟩
  · have hqueue : s.queue = [] := hempty
    have hall : s.accepted = landed := by
      rw [haccepted, hqueue]
      exact List.append_nil _
    rw [hdrain]
    have hwork : ({ s with stopping, held }.call .returned).work = [] :=
      (work_of_done hdone).trans hqueue
    refine h.begin rfl rfl rfl rfl hstopping rfl (fun i hmem => absurd hmem (hnone i)) ?_ ?_
      (taskOrder_of_done hdone hqueue) ?_ (by rw [hwork]; exact hbarriers _)
    · rw [hwork, WriterState.call, flightsOf_concat, hflights, hall]
      simp [WriterCall.flight?, rowsOf]
    · rw [WriterState.call, flightsOf_concat, hflights]
      simp [WriterCall.flight?]
    · refine ⟨List.prefix_refl _, fun _ => hall ▸ Nat.le_refl _, ?_, ?_, ?_, ?_⟩
      · intro rows flown barriers hphase
        cases hphase
      · intro task htask
        cases htask
      · intro task hphase
        cases hphase
      · intro hphase
        cases hphase
  · rw [hdrain]
    have hwork : ({ s with queue := [], stopping, held }.call
        (.flushing (rowsOf s.queue) false [])).work = [] := work_of_done hdone
    refine h.begin rfl rfl rfl rfl hstopping rfl (fun i hmem => absurd hmem (hnone i)) ?_ ?_
      (taskOrder_of_done hdone rfl) ?_ (by rw [hwork]; exact hbarriers _)
    · rw [hwork, WriterState.call, flightsOf_concat, hflights, haccepted]
      simp [WriterCall.flight?, rowsOf]
    · rw [WriterState.call, flightsOf_concat, hflights]
      simp [WriterCall.flight?]
    · refine ⟨List.prefix_refl _, ?_, ?_, ?_, ?_, ?_⟩
      · intro hready
        cases hready
      · intro rows flown barriers hphase
        obtain ⟨rfl, rfl, rfl⟩ := CallPhase.flushing.inj hphase
        exact ⟨rfl, fun _ => ⟨hdone, by simp [haccepted]⟩⟩
      · intro task htask
        cases htask
      · intro task hphase
        cases hphase
      · intro hphase
        cases hphase

theorem Orderly.flush (h : Orderly initial landed s) (hflights : flightsOf s.calls = []) :
    Orderly initial landed s.flush := by
  unfold WriterState.flush
  have haccepted := h.accepted_of_no_flight hflights
  by_cases hrunning : s.running = true
  · have hdone := not_done_of_running hrunning
    by_cases hstopping : s.stopping = true
    · -- behind the stop that is on its way
      rw [if_pos (by simp [hrunning, hstopping])]
      have hwork : (s.call (.awaitingStop s.tasks)).work = s.work := rfl
      refine h.begin rfl rfl rfl rfl id rfl (fun _ => id) ?_ ?_
        (h.task.frame rfl rfl rfl (fun _ => rfl)) ?_ (h.barriers.begin _)
      · rw [hwork, WriterState.call, flightsOf_concat, hflights, haccepted]
        simp [WriterCall.flight?]
      · rw [WriterState.call, flightsOf_concat, hflights]
        simp [WriterCall.flight?]
      · refine ⟨List.prefix_refl _, ?_, ?_, ?_, ?_, ?_⟩
        · intro hready
          simp [WriterState.ready, WriterState.taskDone, WriterState.call, hdone] at hready
        · intro rows flown barriers hphase
          cases hphase
        · intro task htask
          obtain rfl := Option.some.inj htask
          exact ⟨Nat.le_refl _, fun _ => hstopping⟩
        · intro task hphase
          cases hphase
        · intro hphase
          cases hphase
    · -- behind a barrier
      rw [if_neg (by simp [hstopping]), if_pos hrunning]
      rw [Bool.not_eq_true] at hstopping
      let t : WriterState Args := { s.call (.awaitingBarrier false) with
        queue := s.queue ++ [.barrier s.calls.length] }
      have hwork : t.work = s.work ++ [.barrier s.calls.length] := (List.append_assoc ..).symm
      have hstop : QueueItem.stop ∉ t.work := by
        intro hmem
        rw [hwork] at hmem
        rcases List.mem_append.mp hmem with hmem | hmem
        · have hs := (h.task.stops.mp hmem).1
          rw [hstopping] at hs
          cases hs
        · cases List.mem_singleton.mp hmem
      refine h.begin rfl rfl rfl rfl id rfl (fun i hmem => hwork ▸ List.mem_append_left _ hmem)
        ?_ ?_ ?_ ?_ ?_
      · rw [show (flightsOf t.calls) = _ from flightsOf_concat _ _, hflights, hwork]
        simpa [WriterCall.flight?] using haccepted
      · rw [show (flightsOf t.calls) = _ from flightsOf_concat _ _, hflights]
        simp [WriterCall.flight?]
      · refine ⟨h.task.held, h.task.batched, marksLast_of_not_mem hstop, ?_, ?_⟩
        · refine ⟨fun hmem => absurd hmem hstop, fun hs => ?_⟩
          rw [show t.stopping = false from hstopping] at hs
          cases hs.1
        · intro hd
          rw [show t.phase.isDone = false from hdone] at hd
          cases hd
      · refine ⟨List.prefix_refl _, ?_, ?_, ?_, ?_, ?_⟩
        · intro hready
          cases hready
        · intro rows flown barriers hphase
          cases hphase
        · intro task htask
          cases htask
        · intro task hphase
          cases hphase
        · intro _
          rw [hwork]
          exact List.mem_append_right _ List.mem_cons_self
      · rw [hwork]
        refine (h.barriers.begin ⟨s.accepted, .awaitingBarrier false⟩).concat fun i heq => ?_
        obtain rfl := QueueItem.barrier.inj heq
        refine ⟨_, List.getElem?_concat_length, ?_⟩
        rw [haccepted, List.length_append]
  · rw [if_neg (by simp [hrunning]), if_neg hrunning]
    rw [Bool.not_eq_true] at hrunning
    exact h.drainDirect hflights (h.task.done_of_not_running hrunning) s.stopping s.held id

theorem Orderly.stop (h : Orderly initial landed s) (hflights : flightsOf s.calls = []) :
    Orderly initial landed s.stop := by
  unfold WriterState.stop
  have haccepted := h.accepted_of_no_flight hflights
  by_cases hrunning : s.running = true
  · have hdone := not_done_of_running hrunning
    rw [if_pos hrunning]
    let t : WriterState Args := { s.call (.awaitingTask s.tasks) with
      stopping := true, queue := s.queue ++ [.stop] }
    have hwork : t.work = s.work ++ [.stop] := (List.append_assoc ..).symm
    refine h.begin rfl rfl rfl rfl (fun _ => rfl) rfl
      (fun i hmem => hwork ▸ List.mem_append_left _ hmem) ?_ ?_ ?_ ?_ ?_
    · rw [show (flightsOf t.calls) = _ from flightsOf_concat _ _, hflights, hwork]
      simpa [WriterCall.flight?] using haccepted
    · rw [show (flightsOf t.calls) = _ from flightsOf_concat _ _, hflights]
      simp [WriterCall.flight?]
    · refine ⟨h.task.held, h.task.batched, ?_, ⟨fun _ => ⟨rfl, hdone⟩, fun _ => ?_⟩, ?_⟩
      · rw [hwork]
        exact h.task.marksLast.concat_stop
      · rw [hwork]
        exact List.mem_append_right _ List.mem_cons_self
      · intro hd
        rw [show t.phase.isDone = false from hdone] at hd
        cases hd
    · refine ⟨List.prefix_refl _, ?_, ?_, ?_, ?_, ?_⟩
      · intro hready
        simp [WriterState.ready, WriterState.taskDone, WriterState.call, hdone] at hready
      · intro rows flown barriers hphase
        cases hphase
      · intro task htask
        obtain rfl := Option.some.inj htask
        exact ⟨Nat.le_refl _, fun _ => rfl⟩
      · intro task hphase
        exact (CallPhase.awaitingTask.inj hphase).symm
      · intro hphase
        cases hphase
    · rw [hwork]
      exact (h.barriers.begin _).concat fun i heq => by cases heq
  · rw [if_neg hrunning]
    rw [Bool.not_eq_true] at hrunning
    exact h.drainDirect hflights (h.task.done_of_not_running hrunning) true false (fun _ => rfl)

theorem advanceTask_not_done (hstep : s.advanceTask = some t) : s.phase.isDone = false := by
  cases hphase : s.phase with
  | waiting => rfl
  | flushing rows flown next => rfl
  | done => simp [WriterState.advanceTask, hphase] at hstep

/-- A barrier among the first of the work ahead has only stored rows before it. -/
theorem BarriersBehind.lead {calls : List (WriterCall Args)} {lead : List Nat}
    {rest : List (QueueItem Args)}
    (h : BarriersBehind landed calls (lead.map .barrier ++ rest)) {i : Nat} (hi : i ∈ lead)
    {call : WriterCall Args} (hcall : calls[i]? = some call) :
    call.before.length ≤ landed.length := by
  obtain ⟨n, hn⟩ := List.mem_iff_getElem?.mp hi
  have hlt : n < lead.length := (List.getElem?_eq_some_iff.mp hn).1
  have hat : (lead.map QueueItem.barrier ++ rest)[n]? = some (.barrier i) := by
    rw [List.getElem?_append_left (by simpa using hlt), List.getElem?_map, hn]
    rfl
  obtain ⟨call', hcall', hle⟩ := h n i hat
  obtain rfl := Option.some.inj (hcall.symm.trans hcall')
  have htake : (lead.map QueueItem.barrier ++ rest).take n =
      (lead.take n).map QueueItem.barrier := by
    rw [List.take_append_of_le_length (by simpa using Nat.le_of_lt hlt), List.map_take]
  rwa [htake, rowsOf_barriers, List.length_nil, Nat.add_zero] at hle

theorem CallOrder.resolve {i : Nat} {call : WriterCall Args} (h : CallOrder landed s i call)
    (hle : call.before.length ≤ landed.length) : CallOrder landed s i call.resolve := by
  by_cases hwaits : ∃ resolved, call.phase = .awaitingBarrier resolved
  · obtain ⟨resolved, hwaits⟩ := hwaits
    have hphase := resolve_of_waiting hwaits
    refine ⟨by rw [resolve_before]; exact h.before, fun _ => by rw [resolve_before]; exact hle,
      ?_, ?_, ?_, ?_⟩
    · intro rows flown barriers heq
      rw [hphase] at heq
      cases heq
    · intro task heq
      rw [hphase] at heq
      cases heq
    · intro task heq
      rw [hphase] at heq
      cases heq
    · intro heq
      rw [hphase] at heq
      cases heq
  · rw [resolve_of_not_waiting (fun resolved heq => hwaits ⟨resolved, heq⟩)]
    exact h

/-- A call when the task has come to its end. -/
theorem CallOrder.ended {i : Nat} {call : WriterCall Args} (h : CallOrder landed s i call)
    (hall : s.accepted = landed) (hstopping : s.stopping = true)
    (haccepted : t.accepted = s.accepted) (htasks : t.tasks = s.tasks)
    (hstopping' : t.stopping = s.stopping) (hflight : ∀ rows, call.flight? ≠ some rows)
    (hresolved : call.phase ≠ .awaitingBarrier false) : CallOrder landed t i call where
  before := haccepted ▸ h.before
  ready _ := hall ▸ h.before.length_le
  drained rows flown barriers hphase := by
    refine ⟨(h.drained rows flown barriers hphase).1, ?_⟩
    rintro rfl
    exact absurd (by rw [WriterCall.flight?, hphase]) (hflight rows)
  task task htask := ⟨htasks ▸ (h.task task htask).1, fun _ => hstopping'.trans hstopping⟩
  drainsLater task hphase := (h.drainsLater task hphase).trans htasks.symm
  barrier hphase := absurd hphase hresolved

/-- **The task goes on.** -/
theorem Orderly.advanceTask (h : Orderly initial landed s) (hstep : s.advanceTask = some t) :
    Orderly initial landed t := by
  have hdone := advanceTask_not_done hstep
  have hflights := h.no_flight hdone
  have haccepted := h.accepted_of_no_flight hflights
  obtain ⟨lead, rest, hwork, hcases⟩ := advanceTask_cases hstep h.task.batched h.task.marksLast
  have hmarks : MarksLast rest := (hwork ▸ h.task.marksLast).drop
  have hbehind := h.barriers
  rw [hwork] at hbehind
  have hmem : ∀ i, i ∉ lead → .barrier i ∈ s.work → .barrier i ∈ rest := by
    intro i hi hmem
    rw [hwork] at hmem
    rcases List.mem_append.mp hmem with hlead | hrest
    · obtain ⟨j, hj, heq⟩ := List.mem_map.mp hlead
      exact absurd (QueueItem.barrier.inj heq ▸ hj) hi
    · exact hrest
  have hstopMem : .stop ∈ s.work ↔ .stop ∈ rest := by
    rw [hwork, List.mem_append]
    refine ⟨fun hor => hor.resolve_left fun hlead => ?_, .inr⟩
    obtain ⟨j, -, heq⟩ := List.mem_map.mp hlead
    cases heq
  rcases hcases with ⟨phase, queue, rfl, hcomes, rfl⟩ | ⟨⟨q, hstop⟩, rfl⟩
  · have hdone' := hcomes.not_done
    refine ⟨h.stored, ?_, ?_, ⟨fun _ => h.task.held hdone, hcomes.batched, ?_, ?_, ?_⟩, ?_, ?_⟩
    · rw [flightsOf_resolveBarriers, hflights]
      refine haccepted.trans ?_
      rw [hwork, rowsOf_append, rowsOf_barriers]
      simp [WriterState.work]
    · rw [flightsOf_resolveBarriers]
      exact h.single
    · exact hmarks
    · exact ⟨fun hin => ⟨(h.task.stops.mp (hstopMem.mpr hin)).1, hdone'⟩,
        fun hs => hstopMem.mp (h.task.stops.mpr ⟨hs.1, hdone⟩)⟩
    · intro hd
      rw [show _ = false from hdone'] at hd
      cases hd
    · intro i call hi
      simp only [getElem?_resolveBarriers] at hi
      obtain ⟨old, hold, rfl⟩ := Option.map_eq_some_iff.mp hi
      have hcall := h.calls i old hold
      by_cases hlead : i ∈ lead
      · rw [if_pos hlead]
        exact (hcall.resolve (hbehind.lead hlead hold)).frame (List.prefix_refl _) (Nat.le_refl _)
          rfl id (hdone'.trans hdone.symm) fun hphase => absurd hphase (resolve_phase_ne old)
      · rw [if_neg hlead]
        exact hcall.frame (List.prefix_refl _) (Nat.le_refl _) rfl id (hdone'.trans hdone.symm)
          fun _ hin => hmem i hlead hin
    · have hdrop : BarriersBehind landed s.calls (phase.items ++ queue) := hbehind.drop (by simp)
      refine hdrop.calls fun i call hi =>
        ⟨if i ∈ lead then call.resolve else call, ?_, ?_⟩
      · rw [getElem?_resolveBarriers, hi]
        rfl
      · split
        · exact resolve_before call
        · rfl
  · -- at the end everything that was accepted is stored
    have hq : ∀ x ∈ q, x = QueueItem.stop := fun x hx => hmarks [] q hstop x hx
    have hnoRows : rowsOf rest = [] := by
      refine List.filterMap_eq_nil_iff.mpr fun x hx => ?_
      rw [hstop] at hx
      rcases List.mem_cons.mp hx with rfl | hx
      · rfl
      · rw [hq x hx]
        rfl
    have hall : s.accepted = landed := by
      rw [haccepted, hwork, rowsOf_append, rowsOf_barriers, hnoRows]
      simp
    have hstopping : s.stopping = true :=
      (h.task.stops.mp (hstopMem.mpr (hstop ▸ List.mem_cons_self))).1
    refine ⟨h.stored, ?_, ?_, taskOrder_of_done rfl rfl, ?_, fun n i hn => by cases hn⟩
    · rw [flightsOf_resolveBarriers, hflights]
      exact hall.trans (by simp [WriterState.work, TaskPhase.items, rowsOf])
    · rw [flightsOf_resolveBarriers]
      exact h.single
    · intro i call hi
      simp only [getElem?_resolveBarriers] at hi
      obtain ⟨old, hold, rfl⟩ := Option.map_eq_some_iff.mp hi
      have hcall := h.calls i old hold
      have hflight : ∀ rows, old.flight? ≠ some rows := by
        intro rows hflight
        have hin := flight_mem hold hflight
        rw [hflights] at hin
        cases hin
      by_cases hlead : i ∈ lead
      · rw [if_pos hlead]
        exact (hcall.resolve (hbehind.lead hlead hold)).ended hall hstopping rfl rfl rfl
          (fun rows => resolve_flight old ▸ hflight rows) (resolve_phase_ne old)
      · rw [if_neg hlead]
        refine hcall.ended hall hstopping rfl rfl rfl hflight fun hphase => ?_
        have hin := hmem i hlead (hcall.barrier hphase)
        rw [hstop] at hin
        rcases List.mem_cons.mp hin with heq | hin
        · cases heq
        · cases hq _ hin

/-- A batch is stored. -/
theorem Orderly.upserted (h : Orderly initial landed s) (batch : List (TimelineRow Args))
    (key : String) :
    payloadOf (s.upsert batch).rows key = payloadOf (initial ++ (landed ++ batch)) key := by
  unfold WriterState.upsert
  rw [payloadOf_upsert, payloadOf_append, h.stored, ← payloadOf_append, List.append_assoc]

/-- **The upsert of the task is committed.** -/
theorem Orderly.landTask (h : Orderly initial landed s) {rows : List (TimelineRow Args)}
    {next : AfterFlush} (hphase : s.phase = .flushing rows false next) :
    Orderly initial (landed ++ rows) { s.upsert rows with phase := .flushing rows true next } := by
  let t : WriterState Args := { s.upsert rows with phase := .flushing rows true next }
  have hdone : s.phase.isDone = false := by rw [hphase]; rfl
  have hflights := h.no_flight hdone
  have hwork : s.work = rows.map .row ++ t.work := by
    simp [t, WriterState.work, TaskPhase.items, hphase, WriterState.upsert]
  have hbehind := h.barriers
  rw [hwork] at hbehind
  have hbarrier : ∀ i, .barrier i ∈ s.work → .barrier i ∈ t.work := by
    intro i hmem
    rw [hwork] at hmem
    refine (List.mem_append.mp hmem).resolve_left fun hrow => ?_
    obtain ⟨row, -, heq⟩ := List.mem_map.mp hrow
    cases heq
  have hstop : .stop ∈ s.work ↔ .stop ∈ t.work := by
    rw [hwork, List.mem_append]
    refine ⟨fun hor => hor.resolve_left fun hrow => ?_, .inr⟩
    obtain ⟨row, -, heq⟩ := List.mem_map.mp hrow
    cases heq
  refine ⟨h.upserted rows, ?_, h.single, ⟨fun _ => h.task.held hdone, ?_, ?_, ?_, ?_⟩, ?_, ?_⟩
  · refine (h.accepted_of_no_flight hflights).trans ?_
    rw [show flightsOf (t.calls) = [] from hflights, hwork, rowsOf_append, rowsOf_rows]
    simp [t]
  · intro rows' flown next' heq
    obtain ⟨rfl, -, rfl⟩ := TaskPhase.flushing.inj heq
    exact h.task.batched _ _ _ hphase
  · have hmarks := h.task.marksLast
    rw [hwork] at hmarks
    exact hmarks.drop
  · exact ⟨fun hmem => ⟨(h.task.stops.mp (hstop.mpr hmem)).1, rfl⟩,
      fun hs => hstop.mp (h.task.stops.mpr ⟨hs.1, hdone⟩)⟩
  · intro hd
    cases hd
  · intro i call hi
    exact (h.calls i call hi).frame (List.prefix_refl _) (by simp) rfl id hdone.symm
      fun _ => hbarrier i
  · exact hbehind.drop (by simp)

/-- **The upsert of a call is committed.** -/
theorem Orderly.landCall (h : Orderly initial landed s) {i : Nat} {call : WriterCall Args}
    (hi : s.calls[i]? = some call) (hstep : s.landCall i call = some t) :
    ∃ landed', Orderly initial landed' t := by
  unfold WriterState.landCall at hstep
  split at hstep
  · rename_i rows barriers hphase
    obtain rfl := Option.some.inj hstep
    have hflight : call.flight? = some rows := by rw [WriterCall.flight?, hphase]
    obtain ⟨hbefore, hafter⟩ := flightsOf_land
      { call with phase := .flushing rows true barriers } h.single hi hflight rfl
    have hcall := h.calls i call hi
    obtain ⟨hbarriers, hflown⟩ := hcall.drained rows false barriers hphase
    refine ⟨landed ++ rows, h.upserted rows, ?_, ?_,
      h.task.frame rfl rfl rfl (fun _ => rfl), ?_, ?_⟩
    · have haccepted := h.accepted
      rw [hbefore] at haccepted
      rw [show flightsOf ((s.upsert rows).callAt i call _).calls = [] from hafter]
      refine haccepted.trans ?_
      simp [WriterState.work, WriterState.callAt, WriterState.upsert]
    · rw [show flightsOf ((s.upsert rows).callAt i call _).calls = [] from hafter]
      exact Nat.zero_le 1
    · intro j other hj
      rcases getElem?_set_cases hj with ⟨rfl, rfl⟩ | ⟨hne, hj⟩
      · refine ⟨hcall.before, fun _ => ?_, ?_, ?_, ?_, ?_⟩
        · simpa using (hflown rfl).2
        · intro rows' flown barriers' heq
          obtain ⟨-, rfl, rfl⟩ := CallPhase.flushing.inj heq
          exact ⟨hbarriers, fun hf => by cases hf⟩
        · intro task htask
          cases htask
        · intro task heq
          cases heq
        · intro heq
          cases heq
      · exact (h.calls j other hj).frame (List.prefix_refl _) (by simp) rfl id rfl fun _ => id
    · have hwider : BarriersBehind (landed ++ rows) s.calls s.work :=
        @BarriersBehind.drop _ _ _ _ [] _ h.barriers (by simp [rowsOf])
      refine hwider.calls fun j other hj => ?_
      by_cases hji : j = i
      · subst hji
        obtain rfl := Option.some.inj (hi.symm.trans hj)
        exact ⟨_, List.getElem?_set_self (List.getElem?_eq_some_iff.mp hi).1, rfl⟩
      · exact ⟨other, (List.getElem?_set_ne (Ne.symm hji)).trans hj, rfl⟩
  · cases hstep

/-- A call that has nothing left to wait for returns. -/
theorem Orderly.returns (h : Orderly initial landed s) {i : Nat} {call : WriterCall Args}
    (hi : s.calls[i]? = some call) (hready : s.ready call = true) :
    Orderly initial landed (s.callAt i call .returned) := by
  have hcall := h.calls i call hi
  have hflight : call.flight? = none := by
    unfold WriterState.ready at hready
    unfold WriterCall.flight?
    split
    · rename_i rows barriers hphase
      rw [hphase] at hready
      cases hready
    · rfl
  have hflights : flightsOf (s.callAt i call .returned).calls = flightsOf s.calls :=
    flightsOf_set hi (by rw [hflight]; rfl)
  refine ⟨h.stored, hflights ▸ h.accepted, hflights ▸ h.single,
    h.task.frame rfl rfl rfl (fun _ => rfl), ?_, ?_⟩
  · intro j other hj
    rcases getElem?_set_cases hj with ⟨rfl, rfl⟩ | ⟨hne, hj⟩
    · refine ⟨hcall.before, fun _ => hcall.ready hready, ?_, ?_, ?_, ?_⟩
      · intro rows flown barriers heq
        cases heq
      · intro task htask
        cases htask
      · intro task heq
        cases heq
      · intro heq
        cases heq
    · exact (h.calls j other hj).frame (List.prefix_refl _) (Nat.le_refl _) rfl id rfl fun _ => id
  · refine h.barriers.calls fun j other hj => ?_
    by_cases hji : j = i
    · subst hji
      obtain rfl := Option.some.inj (hi.symm.trans hj)
      exact ⟨_, List.getElem?_set_self (List.getElem?_eq_some_iff.mp hi).1, rfl⟩
    · exact ⟨other, (List.getElem?_set_ne (Ne.symm hji)).trans hj, rfl⟩

/-- **A call goes on.**  It returns: the task has left a stop nothing to drain. -/
theorem Orderly.advanceCall_eq (h : Orderly initial landed s) {i : Nat} {call : WriterCall Args}
    (hi : s.calls[i]? = some call) :
    s.advanceCall i call =
      if call.phase.isReturned = false ∧ s.ready call = true then
        some ({ s with held := s.held && !call.phase.drainsLater }.callAt i call .returned)
      else none := by
  have hcall := h.calls i call hi
  unfold WriterState.advanceCall WriterState.ready
  cases hphase : call.phase with
  | awaitingStop task => simp [CallPhase.drainsLater, CallPhase.isReturned]
  | awaitingBarrier resolved => simp [CallPhase.drainsLater, CallPhase.isReturned]
  | returned => simp [CallPhase.isReturned]
  | flushing rows flown barriers =>
      have hbarriers := (hcall.drained rows flown barriers hphase).1
      simp [hbarriers, resolveBarriers, CallPhase.drainsLater, CallPhase.isReturned]
  | awaitingTask task =>
      have htask := hcall.drainsLater task hphase
      by_cases hready : s.taskDone task = true
      · have hdone : s.phase.isDone = true := by
          simpa [WriterState.taskDone, htask] using hready
        have hstopping : s.stopping = true :=
          (hcall.task task (by rw [hphase]; rfl)).2 htask
        have hempty : s.queue = [] := by
          refine List.eq_nil_iff_forall_not_mem.mpr fun item hitem => ?_
          have hnot := (h.task.idle hdone item hitem).1
          rw [hstopping] at hnot
          cases hnot
        have hheld : (s.held && decide (task ≠ s.tasks)) = (s.held && !true) := by simp [htask]
        have hdrain := drain_cases (s := { s with held := s.held && !true })
          fun item hitem => (h.task.idle hdone item hitem).2
        rcases hdrain with ⟨-, hdrain⟩ | ⟨hrows, -⟩
        · simp only [hready, if_true, hheld, hdrain]
          simp [CallPhase.drainsLater, CallPhase.isReturned]
        · exact absurd (by simp [hempty, rowsOf]) hrows
      · simp [hready]

theorem Orderly.advanceCall (h : Orderly initial landed s) {i : Nat} {call : WriterCall Args}
    (hi : s.calls[i]? = some call) (hstep : s.advanceCall i call = some t) :
    Orderly initial landed t := by
  rw [h.advanceCall_eq hi] at hstep
  split at hstep
  · rename_i hready
    obtain rfl := Option.some.inj hstep
    refine Orderly.returns (s := { s with held := s.held && !call.phase.drainsLater }) ?_ hi hready.2
    refine ⟨h.stored, h.accepted, h.single, h.task.frame rfl rfl rfl (fun hd => ?_), ?_, h.barriers⟩
    · -- a stop goes on only when the task is done
      cases hphase : call.phase with
      | awaitingTask task =>
          have htask := (h.calls i call hi).drainsLater task hphase
          simp [WriterState.ready, hphase, WriterState.taskDone, htask, hd] at hready
      | awaitingStop _ | awaitingBarrier _ | flushing _ _ _ | returned =>
          simp [CallPhase.drainsLater]
    · intro j other hj
      exact (h.calls j other hj).frame (List.prefix_refl _) (Nat.le_refl _) rfl id rfl fun _ => id
  · cases hstep

/-- **Step.** -/
theorem Orderly.step {action : WriterAction Args} (h : Orderly initial landed s)
    (hok : Undisturbed s action t) (hstep : writerStep s action = some t) :
    ∃ landed', Orderly initial landed' t := by
  cases action with
  | pass => exact ⟨landed, Option.some.inj hstep ▸ h⟩
  | start => exact ⟨landed, Option.some.inj hstep ▸ h.start hok⟩
  | enqueue row => exact ⟨landed, Option.some.inj hstep ▸ h.enqueue row⟩
  | flush => exact ⟨landed, Option.some.inj hstep ▸ h.flush hok⟩
  | stop => exact ⟨landed, Option.some.inj hstep ▸ h.stop hok⟩
  | task => exact ⟨landed, h.advanceTask hstep⟩
  | landTask =>
      simp only [writerStep] at hstep
      split at hstep
      · rename_i rows next hphase
        exact ⟨landed ++ rows, Option.some.inj hstep ▸ h.landTask hphase⟩
      · cases hstep
  | landCall i =>
      obtain ⟨call, hcall, hland⟩ := Option.bind_eq_some_iff.mp hstep
      exact h.landCall hcall hland
  | resume i =>
      obtain ⟨call, hcall, hadvance⟩ := Option.bind_eq_some_iff.mp hstep
      exact ⟨landed, h.advanceCall hcall hadvance⟩

theorem orderly_start {rows : List (TimelineRow Args)} :
    Orderly rows [] ({ rows := rows } : WriterState Args) := by
  refine ⟨fun key => by rw [List.append_nil], rfl, Nat.zero_le 1, taskOrder_of_done rfl rfl, ?_, ?_⟩
  · intro i call hi
    cases hi
  · intro n i hn
    cases hn

end Workbench.TimelineWriter
