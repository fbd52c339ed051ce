import CyberWorkbench.WriterOrder

/-!
# The timeline writer is durable

What the order of the writer gives its callers.  A call that has returned finds
every row it began with stored; with nothing left to do, each key has its last
accepted row; and every call returns, in every run that is fair to the task, to
the upserts and to the calls that can go on.

`writer_durable` puts the three together.  What a call waits for has a place in
the work ahead; the place comes nearer with every step of the task, and nothing
else moves it.
-/

namespace Workbench.TimelineWriter

open TimelineLog LastWrite StepMachine

variable {Args : Type} {initial landed : List (TimelineRow Args)} {s t : WriterState Args}

/-! ### Durability -/

/-- **The rows a call began with are stored**: under the key of each is that
row, or one of the key that was accepted after it. -/
def BeforeStored (s : WriterState Args) (call : WriterCall Args) : Prop :=
  ∀ (n : Nat) row, call.before[n]? = some row → ∃ m later, n ≤ m ∧
    s.accepted[m]? = some later ∧ later.itemKey = row.itemKey ∧
      payloadOf s.rows row.itemKey = some later.payload

/-- All activity has ended. -/
structure Ended (s : WriterState Args) : Prop where
  calls : ∀ call ∈ s.calls, call.phase = .returned
  queue : s.queue = []
  task : s.phase = .done ∨ s.phase = .waiting

/-- The last of a kind stands no earlier than any of the kind. -/
theorem lastOf_after {α : Type} {p : α → Bool} {l : List α} {n : Nat} {a : α}
    (hn : l[n]? = some a) (ha : p a = true) :
    ∃ m last, n ≤ m ∧ l[m]? = some last ∧ lastOf p l = some last := by
  have hsplit : lastOf p l = (lastOf p (l.drop n)).or (lastOf p (l.take n)) := by
    rw [← lastOf_append, List.take_append_drop]
  have hmem : a ∈ l.drop n := by
    refine List.mem_iff_getElem?.mpr ⟨0, ?_⟩
    rw [List.getElem?_drop]
    exact hn
  cases hlast : lastOf p (l.drop n) with
  | none =>
      have hnot := lastOf_eq_none.mp hlast a hmem
      rw [ha] at hnot
      cases hnot
  | some last =>
      obtain ⟨k, hk⟩ := List.mem_iff_getElem?.mp (of_lastOf hlast).1
      rw [List.getElem?_drop] at hk
      exact ⟨n + k, last, Nat.le_add_right n k, hk, by rw [hsplit, hlast]; rfl⟩

theorem Orderly.landed_prefix (h : Orderly initial landed s) : landed <+: s.accepted := by
  rw [h.accepted, List.append_assoc]
  exact List.prefix_append _ _

/-- **A call that has returned.** -/
theorem Orderly.beforeStored (h : Orderly initial landed s) {call : WriterCall Args}
    (hcall : call ∈ s.calls) (hreturned : call.phase = .returned) : BeforeStored s call := by
  obtain ⟨i, hi⟩ := List.mem_iff_getElem?.mp hcall
  have horder := h.calls i call hi
  have hle : call.before.length ≤ landed.length :=
    horder.ready (by rw [WriterState.ready, hreturned])
  have hprefix : call.before <+: landed :=
    List.prefix_of_prefix_length_le horder.before h.landed_prefix hle
  intro n row hn
  have hlanded : landed[n]? = some row := by
    obtain ⟨more, rfl⟩ := hprefix
    rw [List.getElem?_append_left (List.getElem?_eq_some_iff.mp hn).1]
    exact hn
  obtain ⟨m, later, hnm, hm, hlast⟩ := lastOf_after
    (p := fun other : TimelineRow Args => decide (other.itemKey = row.itemKey)) hlanded (by simp)
  refine ⟨m, later, hnm, ?_, by simpa using (of_lastOf hlast).2, ?_⟩
  · obtain ⟨more, hmore⟩ := h.landed_prefix
    rw [← hmore, List.getElem?_append_left (List.getElem?_eq_some_iff.mp hm).1]
    exact hm
  · rw [h.stored, payloadOf_append]
    unfold payloadOf
    rw [hlast]
    rfl

/-- **The last accepted row of each key.** -/
theorem Orderly.lastStored (h : Orderly initial landed s) (hended : Ended s) {key : String}
    {row : TimelineRow Args}
    (hrow : lastOf (fun row => decide (row.itemKey = key)) s.accepted = some row) :
    payloadOf s.rows key = some row.payload := by
  have hflights : flightsOf s.calls = [] := by
    refine List.filterMap_eq_nil_iff.mpr fun call hcall => ?_
    rw [WriterCall.flight?, hended.calls call hcall]
  have hwork : s.work = [] := by
    unfold WriterState.work
    rw [hended.queue]
    rcases hended.task with hphase | hphase <;> rw [hphase] <;> rfl
  have hall := h.accepted_of_no_flight hflights
  rw [hwork, show rowsOf ([] : List (QueueItem Args)) = [] from rfl, List.append_nil] at hall
  rw [h.stored, payloadOf_append, ← hall]
  unfold payloadOf
  rw [hrow]
  rfl

/-! ### The place in the work ahead -/

def QueueItem.isBarrier (call : Nat) : QueueItem Args → Bool
  | .barrier other => decide (other = call)
  | _ => false

def QueueItem.isStop : QueueItem Args → Bool
  | .stop => true
  | _ => false

/-- What the call at `i` waits for in the work ahead. -/
def WriterState.target? (s : WriterState Args) (i : Nat) (call : WriterCall Args) :
    Option (QueueItem Args → Bool) :=
  match call.phase with
  | .awaitingBarrier false => some (QueueItem.isBarrier i)
  | .awaitingStop task | .awaitingTask task => if s.taskDone task then none else some QueueItem.isStop
  | _ => none

/-- What the task does next. -/
def TaskPhase.next : TaskPhase Args → WriterAction Args
  | .flushing _ false _ => .landTask
  | _ => .task

/-- Whether it has to take a batch first. -/
def TaskPhase.weight : TaskPhase Args → Nat
  | .flushing _ false _ => 0
  | _ => 1

/-- How many steps of the task it may take to come to a place. -/
def WriterState.distance (s : WriterState Args) (target : QueueItem Args → Bool) : Nat :=
  2 * s.work.findIdx target + s.phase.weight

/-- How many steps a call may still have to wait for. -/
def WriterState.rank (s : WriterState Args) (i : Nat) : Nat :=
  match s.calls[i]? with
  | none => 0
  | some call =>
      match s.target? i call with
      | some target => s.distance target + 2
      | none => if call.flight?.isSome then 1 else 0

/-- What helps the call at `i`. -/
def WriterState.helpful (s : WriterState Args) (i : Nat) : WriterAction Args :=
  match s.calls[i]? with
  | none => .pass
  | some call =>
      match s.target? i call with
      | some _ => s.phase.next
      | none => if call.flight?.isSome then .landCall i else .resume i

/-- The writer's own actions. -/
def WriterAction.Own : WriterAction Args → Prop
  | .task | .landTask | .landCall _ | .resume _ => True
  | .pass | .start | .enqueue _ | .flush | .stop => False

/-- The call at `i` is under way. -/
def Waits (i : Nat) (s : WriterState Args) : Prop :=
  ∃ call, s.calls[i]? = some call ∧ call.phase.isReturned = false

/-- The call at `i` has returned. -/
def Returned (i : Nat) (s : WriterState Args) : Prop :=
  ∃ call, s.calls[i]? = some call ∧ call.phase = .returned

/-- What a call waits for is ahead of a task that runs, and is no row. -/
theorem Orderly.target_mem (h : Orderly initial landed s) {i : Nat} {call : WriterCall Args}
    (hi : s.calls[i]? = some call) {target : QueueItem Args → Bool}
    (htarget : s.target? i call = some target) :
    (∃ item ∈ s.work, target item = true) ∧ s.phase.isDone = false ∧
      (∀ row, target (.row row) = false) ∧
      ((target = QueueItem.isBarrier i ∧ call.phase = .awaitingBarrier false) ∨
        (target = QueueItem.isStop ∧ ∃ task, call.phase.task? = some task ∧ task = s.tasks)) := by
  have hcall := h.calls i call hi
  unfold WriterState.target? at htarget
  have hstopped : ∀ task, call.phase.task? = some task →
      (if s.taskDone task then none else some QueueItem.isStop) = some target →
      (∃ item ∈ s.work, target item = true) ∧ s.phase.isDone = false ∧
        (∀ row, target (.row row) = false) ∧ target = QueueItem.isStop ∧ task = s.tasks := by
    intro task htask heq
    split at heq
    · cases heq
    · rename_i hnot
      obtain rfl := Option.some.inj heq
      simp only [WriterState.taskDone, Bool.or_eq_true, decide_eq_true_eq, not_or, not_not,
        Bool.not_eq_true] at hnot
      have hstop := h.task.stops.mpr ⟨(hcall.task task htask).2 hnot.1, hnot.2⟩
      exact ⟨⟨_, hstop, rfl⟩, hnot.2, fun row => rfl, rfl, hnot.1⟩
  split at htarget
  · rename_i hphase
    obtain rfl := Option.some.inj htarget
    have hmem := hcall.barrier hphase
    refine ⟨⟨_, hmem, by simp [QueueItem.isBarrier]⟩, ?_, fun row => rfl, .inl ⟨rfl, hphase⟩⟩
    cases hdone : s.phase.isDone with
    | false => rfl
    | true => exact absurd hmem (h.task.no_barrier hdone i)
  · rename_i task hphase
    obtain ⟨hmem, hdone, hrows, heq, htask⟩ := hstopped task (by rw [hphase]; rfl) htarget
    exact ⟨hmem, hdone, hrows, .inr ⟨heq, task, by rw [hphase]; rfl, htask⟩⟩
  · rename_i task hphase
    obtain ⟨hmem, hdone, hrows, heq, htask⟩ := hstopped task (by rw [hphase]; rfl) htarget
    exact ⟨hmem, hdone, hrows, .inr ⟨heq, task, by rw [hphase]; rfl, htask⟩⟩
  · cases htarget

/-! ### What helps is possible -/

theorem helpful_cases {i : Nat} {call : WriterCall Args} (hi : s.calls[i]? = some call) :
    (∃ target, s.target? i call = some target ∧ s.helpful i = s.phase.next ∧
        s.rank i = s.distance target + 2) ∨
      (s.target? i call = none ∧ call.flight?.isSome = true ∧ s.helpful i = .landCall i ∧
        s.rank i = 1) ∨
      (s.target? i call = none ∧ call.flight? = none ∧ s.helpful i = .resume i ∧ s.rank i = 0) := by
  unfold WriterState.helpful WriterState.rank
  rw [hi]
  cases htarget : s.target? i call with
  | some target => exact .inl ⟨target, rfl, by simp [htarget], by simp [htarget]⟩
  | none =>
      cases hflight : call.flight? with
      | some rows => exact .inr (.inl ⟨rfl, rfl, by simp [htarget, hflight], by simp [htarget, hflight]⟩)
      | none => exact .inr (.inr ⟨rfl, rfl, by simp [htarget, hflight], by simp [htarget, hflight]⟩)

theorem next_own (phase : TaskPhase Args) : phase.next.Own := by
  unfold TaskPhase.next
  split <;> trivial

theorem helpful_own {i : Nat} {call : WriterCall Args} (hi : s.calls[i]? = some call) :
    (s.helpful i).Own := by
  rcases helpful_cases hi with ⟨_, -, heq, -⟩ | ⟨-, -, heq, -⟩ | ⟨-, -, heq, -⟩ <;> rw [heq]
  · exact next_own _
  · trivial
  · trivial

/-- A task with something ahead goes on. -/
theorem next_possible (hdone : s.phase.isDone = false) (hwork : s.work ≠ []) :
    (writerStep s s.phase.next).isSome = true := by
  unfold TaskPhase.next
  split
  · rename_i rows next hphase
    simp [writerStep, hphase]
  · rename_i hnot
    unfold writerStep WriterState.advanceTask
    cases hphase : s.phase with
    | done => rw [hphase] at hdone; cases hdone
    | waiting =>
        have hqueue : s.queue ≠ [] := by
          unfold WriterState.work at hwork
          rwa [hphase] at hwork
        simp [hqueue]
    | flushing rows flown next =>
        cases flown with
        | false => exact absurd hphase (hnot rows next)
        | true => cases next <;> simp

theorem Orderly.helpful_possible (h : Orderly initial landed s) {i : Nat} (hwaits : Waits i s) :
    (writerStep s (s.helpful i)).isSome = true := by
  obtain ⟨call, hi, hreturned⟩ := hwaits
  rcases helpful_cases hi with ⟨target, htarget, heq, -⟩ | ⟨-, hflight, heq, -⟩ |
    ⟨htarget, hflight, heq, -⟩ <;> rw [heq]
  · obtain ⟨⟨item, hitem, -⟩, hdone, -⟩ := h.target_mem hi htarget
    exact next_possible hdone (List.ne_nil_of_mem hitem)
  · unfold WriterCall.flight? at hflight
    split at hflight
    · rename_i rows barriers hphase
      simp [writerStep, hi, WriterState.landCall, hphase]
    · cases hflight
  · have hready : s.ready call = true := by
      unfold WriterState.target? at htarget
      unfold WriterCall.flight? at hflight
      unfold WriterState.ready
      cases hphase : call.phase with
      | awaitingStop task | awaitingTask task =>
          simpa [hphase] using htarget
      | awaitingBarrier resolved => cases resolved <;> simp [hphase] at htarget ⊢
      | flushing rows flown barriers => cases flown <;> simp [hphase] at hflight ⊢
      | returned => rfl
    simp only [writerStep, hi, Option.bind_some, h.advanceCall_eq hi, hreturned, hready]
    rfl

/-! ### What happens to a call under way -/

theorem findIdx_append_of_exists {α : Type} {p : α → Bool} {l : List α} (l' : List α)
    (h : ∃ x ∈ l, p x = true) : (l ++ l').findIdx p = l.findIdx p := by
  rw [List.findIdx_append, if_pos (List.findIdx_lt_length_of_exists h)]

theorem findIdx_append_of_forall {α : Type} {p : α → Bool} {l : List α} (l' : List α)
    (h : ∀ x ∈ l, p x = false) : (l ++ l').findIdx p = l'.findIdx p + l.length := by
  rw [List.findIdx_append, if_neg]
  rw [List.findIdx_eq_length_of_false h]
  exact Nat.lt_irrefl _

/-- Nothing has changed for the call, and somebody else has acted. -/
theorem advances_of_same {i : Nat} {call : WriterCall Args} {action : WriterAction Args}
    (hi : s.calls[i]? = some call) (hreturned : call.phase.isReturned = false)
    (hi' : t.calls[i]? = some call) (htarget : t.target? i call = s.target? i call)
    (hsame : ∀ target, s.target? i call = some target →
      t.distance target = s.distance target ∧ t.phase.next = s.phase.next)
    (hother : action ≠ s.helpful i) :
    Advances (Waits i) (Returned i) (fun s => s.rank i) (fun s => s.helpful i) s action t := by
  refine .inr ⟨⟨call, hi', hreturned⟩, .inr ?_⟩
  rcases helpful_cases hi with ⟨target, hs, heq, hrank⟩ | ⟨hs, hflight, heq, hrank⟩ |
    ⟨hs, hflight, heq, hrank⟩ <;>
    rcases helpful_cases hi' with ⟨target', ht, heq', hrank'⟩ | ⟨ht, hflight', heq', hrank'⟩ |
      ⟨ht, hflight', heq', hrank'⟩ <;>
    rw [htarget, hs] at ht <;> try cases ht
  · obtain ⟨hdistance, hnext⟩ := hsame target hs
    simp only [hrank, hrank', heq, heq', hdistance, hnext, true_and]
    exact heq ▸ hother
  · simp only [hrank, hrank', heq, heq', true_and]
    exact heq ▸ hother
  · rw [hflight'] at hflight
    cases hflight
  · rw [hflight] at hflight'
    cases hflight'
  · simp only [hrank, hrank', heq, heq', true_and]
    exact heq ▸ hother

/-- A step outside the task. -/
theorem Orderly.advances_outside (h : Orderly initial landed s) {i : Nat} {call : WriterCall Args}
    {action : WriterAction Args} (hi : s.calls[i]? = some call)
    (hreturned : call.phase.isReturned = false) (hi' : t.calls[i]? = some call)
    (htasks : t.tasks = s.tasks) (hphase : t.phase = s.phase)
    (hwork : s.phase.isDone = false → ∃ more, t.work = s.work ++ more)
    (hother : action ≠ s.helpful i) :
    Advances (Waits i) (Returned i) (fun s => s.rank i) (fun s => s.helpful i) s action t := by
  have htarget : t.target? i call = s.target? i call := by
    unfold WriterState.target? WriterState.taskDone
    rw [htasks, hphase]
  refine advances_of_same hi hreturned hi' htarget (fun target hs => ⟨?_, by rw [hphase]⟩) hother
  obtain ⟨hmem, hdone, -⟩ := h.target_mem hi hs
  obtain ⟨more, hmore⟩ := hwork hdone
  unfold WriterState.distance
  rw [hmore, findIdx_append_of_exists more hmem, hphase]

theorem rank_le_one {i : Nat} {call : WriterCall Args} (hi : s.calls[i]? = some call)
    (htarget : s.target? i call = none) : s.rank i ≤ 1 := by
  rcases helpful_cases hi with ⟨target, hsome, -, -⟩ | ⟨-, -, -, hrank⟩ | ⟨-, -, -, hrank⟩
  · rw [htarget] at hsome
    cases hsome
  · exact Nat.le_of_eq hrank
  · rw [hrank]
    exact Nat.zero_le 1

theorem rank_of_target {i : Nat} {call : WriterCall Args} (hi : s.calls[i]? = some call)
    {target : QueueItem Args → Bool} (htarget : s.target? i call = some target) :
    s.rank i = s.distance target + 2 := by
  rcases helpful_cases hi with ⟨target', hsome, -, hrank⟩ | ⟨hnone, -⟩ | ⟨hnone, -⟩
  · obtain rfl := Option.some.inj (htarget.symm.trans hsome)
    exact hrank
  · rw [htarget] at hnone
    cases hnone
  · rw [htarget] at hnone
    cases hnone

theorem advanceTask_weight (hstep : s.advanceTask = some t) : s.phase.weight = 1 := by
  unfold WriterState.advanceTask at hstep
  unfold TaskPhase.weight
  split
  · rename_i rows next hphase
    rw [hphase] at hstep
    cases next <;> cases hstep
  · rfl

/-- **The place comes nearer** when the task takes what is before it. -/
theorem distance_task {lead : List Nat} {phase : TaskPhase Args} {queue : List (QueueItem Args)}
    (calls : List (WriterCall Args)) {target : QueueItem Args → Bool}
    (hwork : s.work = lead.map .barrier ++ (phase.items ++ queue)) (hweight : s.phase.weight = 1)
    (hcomes : Comes phase queue) (hmem : ∃ item ∈ s.work, target item = true)
    (hlead : ∀ j ∈ lead, target (.barrier j) = false) :
    { s with phase, queue, calls }.distance target < s.distance target := by
  have hnone : ∀ item ∈ lead.map QueueItem.barrier, target item = false := by
    intro item hitem
    obtain ⟨j, hj, rfl⟩ := List.mem_map.mp hitem
    exact hlead j hj
  obtain ⟨item, hitem, htarget⟩ := hmem
  rw [hwork] at hitem
  have hrest : item ∈ phase.items ++ queue := by
    refine (List.mem_append.mp hitem).resolve_left fun hmem => ?_
    rw [hnone item hmem] at htarget
    cases htarget
  have hlight : phase.weight = 0 := by
    rcases hcomes with ⟨rfl, rfl⟩ | ⟨rows, next, rfl, -, -⟩
    · cases hrest
    · rfl
  have hplace := findIdx_append_of_forall (phase.items ++ queue) hnone
  unfold WriterState.distance
  rw [hwork, hplace, hweight, hlight]
  have hahead : { s with phase, queue, calls }.work = phase.items ++ queue := rfl
  rw [hahead]
  omega

/-- A call that waits for nothing ahead of the task is as it was after its step. -/
theorem resolve_of_no_target {i : Nat} {call : WriterCall Args} (h : s.target? i call = none) :
    call.resolve = call := by
  by_cases hwaits : ∃ resolved, call.phase = .awaitingBarrier resolved
  · obtain ⟨resolved, hwaits⟩ := hwaits
    unfold WriterState.target? at h
    rw [hwaits] at h
    cases resolved with
    | false => cases h
    | true =>
        obtain ⟨before, phase⟩ := call
        simp only at hwaits
        rw [hwaits]
        rfl
  · exact resolve_of_not_waiting fun resolved heq => hwaits ⟨resolved, heq⟩

theorem target_none_congr {i : Nat} {call : WriterCall Args} (h : s.target? i call = none)
    (htasks : t.tasks = s.tasks) (hdone : s.phase.isDone = false) : t.target? i call = none := by
  unfold WriterState.target? WriterState.taskDone at h ⊢
  cases hphase : call.phase with
  | awaitingStop task | awaitingTask task =>
      rw [hphase, hdone] at h
      rw [htasks]
      by_cases hne : task ≠ s.tasks
      · simp [hne]
      · simp [hne] at h
  | awaitingBarrier resolved =>
      rw [hphase] at h
      cases resolved with
      | false => cases h
      | true => rfl
  | flushing rows flown barriers => rfl
  | returned => rfl

theorem target_none_of_done {i task : Nat} {call : WriterCall Args} (hdone : t.phase.isDone = true)
    (htask : call.phase.task? = some task) : t.target? i call = none := by
  unfold WriterState.target? WriterState.taskDone
  rw [hdone]
  cases hphase : call.phase with
  | awaitingStop other | awaitingTask other => simp only [Bool.or_true, if_true]
  | flushing _ _ _ | returned => rfl
  | awaitingBarrier resolved =>
      rw [hphase] at htask
      cases htask

/-- **A step of the task.** -/
theorem Orderly.advances_task (h : Orderly initial landed s) {i : Nat} {call : WriterCall Args}
    (hi : s.calls[i]? = some call) (hreturned : call.phase.isReturned = false)
    (hstep : s.advanceTask = some t) :
    Advances (Waits i) (Returned i) (fun s => s.rank i) (fun s => s.helpful i) s .task t := by
  have hdone := advanceTask_not_done hstep
  have hweight := advanceTask_weight hstep
  obtain ⟨lead, rest, hwork, hcases⟩ := advanceTask_cases hstep h.task.batched h.task.marksLast
  have hcalls : t.calls = resolveBarriers s.calls lead := by
    rcases hcases with ⟨phase, queue, rfl, -, -⟩ | ⟨-, rfl⟩ <;> rfl
  have htasks : t.tasks = s.tasks := by
    rcases hcases with ⟨phase, queue, rfl, -, -⟩ | ⟨-, rfl⟩ <;> rfl
  have hi' : t.calls[i]? = some (if i ∈ lead then call.resolve else call) := by
    rw [hcalls, getElem?_resolveBarriers, hi]
    rfl
  cases htarget : s.target? i call with
  | none =>
      -- the call can go on without the task
      have hsame : (if i ∈ lead then call.resolve else call) = call := by
        rw [resolve_of_no_target htarget]
        split <;> rfl
      rw [hsame] at hi'
      refine advances_of_same hi hreturned hi'
        ((target_none_congr htarget htasks hdone).trans htarget.symm) ?_ ?_
      · intro target hsome
        rw [htarget] at hsome
        cases hsome
      · rcases helpful_cases hi with ⟨target, hsome, -, -⟩ | ⟨-, -, heq, -⟩ | ⟨-, -, heq, -⟩
        · rw [htarget] at hsome
          cases hsome
        · rw [heq]
          exact fun hact => by cases hact
        · rw [heq]
          exact fun hact => by cases hact
  | some target =>
      obtain ⟨hmem, -, -, hkind⟩ := h.target_mem hi htarget
      have hrank := rank_of_target hi htarget
      have hmarks : MarksLast rest := (hwork ▸ h.task.marksLast).drop
      refine .inr ⟨⟨_, hi', ?_⟩, .inl ?_⟩
      · split
        · unfold WriterCall.resolve
          split
          · rfl
          · exact hreturned
        · exact hreturned
      by_cases hresolved : call.phase = .awaitingBarrier false ∧ i ∈ lead
      · -- its barrier is resolved
        obtain ⟨hphase, hlead⟩ := hresolved
        rw [if_pos hlead] at hi'
        have hnone : t.target? i call.resolve = none := by
          unfold WriterState.target?
          rw [resolve_of_waiting hphase]
        have hle := rank_le_one hi' hnone
        simp only [hrank]
        omega
      · have hsame : (if i ∈ lead then call.resolve else call) = call := by
          split
          · rename_i hlead
            refine resolve_of_not_waiting fun resolved heq => ?_
            rcases hkind with ⟨-, hphase⟩ | ⟨-, task, htask, -⟩
            · exact hresolved ⟨hphase, hlead⟩
            · rw [heq] at htask
              cases htask
          · rfl
        rw [hsame] at hi'
        rcases hcases with ⟨phase, queue, rfl, hcomes, rfl⟩ | ⟨⟨q, hstop⟩, rfl⟩
        · have htarget' : ({ s with phase, queue, calls := resolveBarriers s.calls lead }.target? i
              call) = some target := by
            rw [← htarget]
            unfold WriterState.target? WriterState.taskDone
            simp only [hcomes.not_done, hdone]
          have hlead : ∀ j ∈ lead, target (.barrier j) = false := by
            intro j hj
            rcases hkind with ⟨rfl, hphase⟩ | ⟨rfl, -⟩
            · exact decide_eq_false fun heq => hresolved ⟨hphase, heq ▸ hj⟩
            · rfl
          have hnearer := distance_task (resolveBarriers s.calls lead) hwork hweight hcomes hmem hlead
          have hrank' := rank_of_target hi' htarget'
          simp only [hrank, hrank']
          omega
        · -- the task is done, and with it what a stop waits for
          rcases hkind with ⟨rfl, hphase⟩ | ⟨rfl, task, htask, rfl⟩
          · have hin := (h.calls i call hi).barrier hphase
            rw [hwork, hstop] at hin
            rcases List.mem_append.mp hin with hin | hin
            · obtain ⟨j, hj, heq⟩ := List.mem_map.mp hin
              exact absurd ⟨hphase, QueueItem.barrier.inj heq ▸ hj⟩ hresolved
            · rcases List.mem_cons.mp hin with heq | hin
              · cases heq
              · cases hmarks [] q hstop _ hin
          · have hle := rank_le_one hi' (target_none_of_done rfl htask)
            simp only [hrank]
            omega

theorem Orderly.advances_landTask (h : Orderly initial landed s) {i : Nat} {call : WriterCall Args}
    (hi : s.calls[i]? = some call) (hreturned : call.phase.isReturned = false)
    {rows : List (TimelineRow Args)} {next : AfterFlush} (hphase : s.phase = .flushing rows false next)
    (ht : t = { s.upsert rows with phase := .flushing rows true next }) :
    Advances (Waits i) (Returned i) (fun s => s.rank i) (fun s => s.helpful i) s .landTask t := by
  have hdone : s.phase.isDone = false := by rw [hphase]; rfl
  have hi' : t.calls[i]? = some call := by rw [ht]; exact hi
  have htasks : t.tasks = s.tasks := by rw [ht]; rfl
  have hdone' : t.phase.isDone = false := by rw [ht]; rfl
  have htarget' : t.target? i call = s.target? i call := by
    unfold WriterState.target? WriterState.taskDone
    rw [htasks, hdone, hdone']
  cases htarget : s.target? i call with
  | none =>
      refine advances_of_same hi hreturned hi' htarget' ?_ ?_
      · intro target hsome
        rw [htarget] at hsome
        cases hsome
      · rcases helpful_cases hi with ⟨target, hsome, -, -⟩ | ⟨-, -, heq, -⟩ | ⟨-, -, heq, -⟩
        · rw [htarget] at hsome
          cases hsome
        · rw [heq]
          exact fun hact => by cases hact
        · rw [heq]
          exact fun hact => by cases hact
  | some target =>
      obtain ⟨hmem, -, hrows, -⟩ := h.target_mem hi htarget
      have hwork : s.work = rows.map .row ++ t.work := by
        rw [ht]
        simp [WriterState.work, TaskPhase.items, hphase, WriterState.upsert]
      have hplace := findIdx_append_of_forall (p := target) (l := rows.map QueueItem.row) t.work
        fun item hitem => by
          obtain ⟨row, -, rfl⟩ := List.mem_map.mp hitem
          exact hrows row
      have hlen : 0 < rows.length :=
        List.length_pos_iff.mpr (h.task.batched rows false next hphase).1
      have hlight : s.phase.weight = 0 := by rw [hphase]; rfl
      have hheavy : t.phase.weight = 1 := by rw [ht]; rfl
      rw [← hwork, List.length_map] at hplace
      refine .inr ⟨⟨call, hi', hreturned⟩, .inl ?_⟩
      simp only [rank_of_target hi htarget, rank_of_target hi' (htarget'.trans htarget),
        WriterState.distance, hplace, hlight, hheavy]
      omega

/-- What a step leaves of the call of another. -/
theorem callAt_other {i j : Nat} {call other : WriterCall Args} (hi : s.calls[i]? = some call)
    (hne : i ≠ j) (phase : CallPhase Args) : (s.callAt j other phase).calls[i]? = some call :=
  (List.getElem?_set_ne (Ne.symm hne)).trans hi

theorem concat_call {i : Nat} {calls : List (WriterCall Args)} {call : WriterCall Args}
    (hi : calls[i]? = some call) (other : WriterCall Args) : (calls ++ [other])[i]? = some call :=
  (List.getElem?_append_left (List.getElem?_eq_some_iff.mp hi).1).trans hi

/-- A call that drains by itself is nothing to the others. -/
theorem Orderly.advances_drain (h : Orderly initial landed s) {i : Nat} {call : WriterCall Args}
    {action : WriterAction Args} (hi : s.calls[i]? = some call)
    (hreturned : call.phase.isReturned = false) (hdone : s.phase.isDone = true)
    (stopping held : Bool) (hother : action ≠ s.helpful i) :
    Advances (Waits i) (Returned i) (fun s => s.rank i) (fun s => s.helpful i) s action
      ({ s with stopping, held }.drain.2.call { s with stopping, held }.drain.1) := by
  have hdrain := drain_cases (s := { s with stopping, held })
    fun item hitem => (h.task.idle hdone item hitem).2
  have hidle : s.phase.isDone = false → ∀ work, ∃ more, work = s.work ++ more := by
    intro hd
    rw [hdone] at hd
    cases hd
  rcases hdrain with ⟨-, hdrain⟩ | ⟨-, hdrain⟩ <;> rw [hdrain]
  · exact h.advances_outside hi hreturned (concat_call hi _) rfl rfl (fun hd => hidle hd _) hother
  · exact h.advances_outside hi hreturned (concat_call hi _) rfl rfl (fun hd => hidle hd _) hother

/-- **Every step brings a call nearer to its end, or leaves it where it is.** -/
theorem Orderly.advances (h : Orderly initial landed s) {action : WriterAction Args} {i : Nat}
    (hok : Undisturbed s action t) (hstep : writerStep s action = some t) (hwaits : Waits i s) :
    Advances (Waits i) (Returned i) (fun s => s.rank i) (fun s => s.helpful i) s action t := by
  obtain ⟨call, hi, hreturned⟩ := hwaits
  have hown := helpful_own hi
  have hforeign : ¬ action.Own → action ≠ s.helpful i := fun hnot heq => hnot (heq ▸ hown)
  cases action with
  | pass =>
      obtain rfl := Option.some.inj hstep
      exact h.advances_outside hi hreturned hi rfl rfl (fun _ => ⟨[], (List.append_nil _).symm⟩)
        (hforeign id)
  | enqueue row =>
      obtain rfl := Option.some.inj hstep
      unfold WriterState.enqueue
      split
      · exact h.advances_outside hi hreturned hi rfl rfl (fun _ => ⟨[], (List.append_nil _).symm⟩)
          (hforeign id)
      · exact h.advances_outside hi hreturned hi rfl rfl
          (fun _ => ⟨[.row row], (List.append_assoc ..).symm⟩) (hforeign id)
  | start =>
      obtain rfl := Option.some.inj hstep
      unfold WriterState.start
      by_cases hrunning : s.running = true
      · rw [if_pos hrunning]
        exact h.advances_outside hi hreturned hi rfl rfl (fun _ => ⟨[], (List.append_nil _).symm⟩)
          (hforeign id)
      · rw [if_neg hrunning]
        have hdone := h.task.done_of_not_running (Bool.eq_false_iff.mpr hrunning)
        have hnone : s.target? i call = none := by
          refine Option.eq_none_iff_forall_ne_some.mpr fun target htarget => ?_
          have hd := (h.target_mem hi htarget).2.1
          rw [hdone] at hd
          cases hd
        refine advances_of_same hi hreturned hi (Eq.trans ?_ hnone.symm) ?_ (hforeign id)
        · -- whoever waits for a task waits for an old one
          unfold WriterState.target? WriterState.taskDone
          cases hphase : call.phase with
          | awaitingStop task | awaitingTask task =>
              have hle := ((h.calls i call hi).task task (by rw [hphase]; rfl)).1
              have hne : task ≠ s.tasks + 1 := by omega
              simp [hne]
          | awaitingBarrier resolved =>
              unfold WriterState.target? at hnone
              rw [hphase] at hnone
              cases resolved with
              | false => cases hnone
              | true => rfl
          | flushing _ _ _ | returned => rfl
        · intro target hsome
          rw [hnone] at hsome
          cases hsome
  | flush =>
      obtain rfl := Option.some.inj hstep
      unfold WriterState.flush
      by_cases hrunning : s.running = true
      · by_cases hstopping : s.stopping = true
        · rw [if_pos (by simp [hrunning, hstopping])]
          exact h.advances_outside hi hreturned (concat_call hi _) rfl rfl
            (fun _ => ⟨[], (List.append_nil _).symm⟩) (hforeign id)
        · rw [if_neg (by simp [hstopping]), if_pos hrunning]
          exact h.advances_outside hi hreturned (concat_call hi _) rfl rfl
            (fun _ => ⟨[.barrier s.calls.length], (List.append_assoc ..).symm⟩) (hforeign id)
      · rw [if_neg (by simp [hrunning]), if_neg hrunning]
        rw [Bool.not_eq_true] at hrunning
        exact h.advances_drain hi hreturned (h.task.done_of_not_running hrunning) s.stopping s.held
          (hforeign id)
  | stop =>
      obtain rfl := Option.some.inj hstep
      unfold WriterState.stop
      by_cases hrunning : s.running = true
      · rw [if_pos hrunning]
        exact h.advances_outside hi hreturned (concat_call hi _) rfl rfl
          (fun _ => ⟨[.stop], (List.append_assoc ..).symm⟩) (hforeign id)
      · rw [if_neg hrunning]
        rw [Bool.not_eq_true] at hrunning
        exact h.advances_drain hi hreturned (h.task.done_of_not_running hrunning) true false
          (hforeign id)
  | task => exact h.advances_task hi hreturned hstep
  | landTask =>
      simp only [writerStep] at hstep
      split at hstep
      · rename_i rows next hphase
        exact h.advances_landTask hi hreturned hphase (Option.some.inj hstep).symm
      · cases hstep
  | landCall j =>
      obtain ⟨other, hj, hland⟩ := Option.bind_eq_some_iff.mp hstep
      unfold WriterState.landCall at hland
      split at hland
      · rename_i rows barriers hphase
        obtain rfl := Option.some.inj hland
        by_cases hij : i = j
        · -- its own upsert
          subst hij
          obtain rfl := Option.some.inj (hi.symm.trans hj)
          have hi' : ((s.upsert rows).callAt i call (.flushing rows true barriers)).calls[i]? =
              some { call with phase := .flushing rows true barriers } :=
            List.getElem?_set_self (List.getElem?_eq_some_iff.mp hi).1
          refine .inr ⟨⟨_, hi', rfl⟩, .inl ?_⟩
          have hbefore : s.rank i = 1 := by
            unfold WriterState.rank
            rw [hi]
            simp [WriterState.target?, WriterCall.flight?, hphase]
          have hafter : ((s.upsert rows).callAt i call (.flushing rows true barriers)).rank i = 0 := by
            unfold WriterState.rank
            rw [hi']
            simp [WriterState.target?, WriterCall.flight?]
          simp only [hbefore, hafter]
          exact Nat.zero_lt_one
        · refine h.advances_outside hi hreturned (callAt_other hi hij _) rfl rfl
            (fun _ => ⟨[], (List.append_nil _).symm⟩) ?_
          rcases helpful_cases hi with ⟨_, -, heq, -⟩ | ⟨-, -, heq, -⟩ | ⟨-, -, heq, -⟩ <;> rw [heq]
          · unfold TaskPhase.next
            split <;> exact fun hact => by cases hact
          · exact fun hact => hij (WriterAction.landCall.inj hact).symm
          · exact fun hact => by cases hact
      · cases hland
  | resume j =>
      obtain ⟨other, hj, hadvance⟩ := Option.bind_eq_some_iff.mp hstep
      rw [h.advanceCall_eq hj] at hadvance
      split at hadvance
      · obtain rfl := Option.some.inj hadvance
        by_cases hij : i = j
        · subst hij
          exact .inl ⟨_, List.getElem?_set_self (List.getElem?_eq_some_iff.mp hi).1, rfl⟩
        · refine h.advances_outside hi hreturned (callAt_other hi hij _) rfl rfl
            (fun _ => ⟨[], (List.append_nil _).symm⟩) ?_
          rcases helpful_cases hi with ⟨_, -, heq, -⟩ | ⟨-, -, heq, -⟩ | ⟨-, -, heq, -⟩ <;> rw [heq]
          · unfold TaskPhase.next
            split <;> exact fun hact => by cases hact
          · exact fun hact => by cases hact
          · exact fun hact => hij (WriterAction.resume.inj hact).symm
      · cases hadvance

/-! ### Runs -/

/-- What a run keeps in order. -/
theorem orderly_exec {acts : List (WriterAction Args)} (hstart : (timelineWriter Args).Start s)
    (hok : StepsMeet (timelineWriter Args) Undisturbed s acts)
    (hexec : exec (timelineWriter Args) s acts = some t) :
    ∃ initial landed, Orderly initial landed t := by
  obtain ⟨rows, rfl⟩ := hstart
  refine exec_invariant (I := fun s => ∃ initial landed, Orderly initial landed s) ?_
    ⟨rows, [], orderly_start⟩ hok hexec
  rintro s a t ⟨initial, landed, h⟩ hok hstep
  obtain ⟨landed', h'⟩ := h.step hok hstep
  exact ⟨initial, landed', h'⟩

theorem run_orderly (run : InfiniteRun (timelineWriter Args))
    (hok : ∀ n, Undisturbed (run.state n) (run.action n) (run.state (n + 1))) (n : Nat) :
    ∃ initial landed, Orderly initial landed (run.state n) := by
  refine run.invariant (I := fun s => ∃ initial landed, Orderly initial landed s) ?_ ?_ hok n
  · rintro s a t ⟨initial, landed, h⟩ hok hstep
    obtain ⟨landed', h'⟩ := h.step hok hstep
    exact ⟨initial, landed', h'⟩
  · obtain ⟨rows, hrows⟩ := run.start
    rw [hrows]
    exact ⟨rows, [], orderly_start⟩

/-- **No call waits for ever.** -/
theorem run_returns (run : InfiniteRun (timelineWriter Args))
    (hfair : run.Fair WriterAction.Own)
    (hok : ∀ n, Undisturbed (run.state n) (run.action n) (run.state (n + 1))) {n i : Nat}
    {call : WriterCall Args} (hi : (run.state n).calls[i]? = some call) :
    ∃ k, n ≤ k ∧ Returned i (run.state k) := by
  cases hreturned : call.phase.isReturned with
  | true =>
      refine ⟨n, Nat.le_refl n, call, hi, ?_⟩
      unfold CallPhase.isReturned at hreturned
      split at hreturned
      · assumption
      · cases hreturned
  | false =>
      have hwaits : Waits i (run.state n) := ⟨call, hi, hreturned⟩
      refine run.leads_to hfair (fun s => s.rank i) (fun s => s.helpful i) ?_ ?_ ?_ n hwaits
      · rintro n ⟨call, hi, -⟩
        exact helpful_own hi
      · intro n hwaits
        obtain ⟨initial, landed, h⟩ := run_orderly run hok n
        exact h.helpful_possible hwaits
      · intro n hwaits
        obtain ⟨initial, landed, h⟩ := run_orderly run hok n
        exact h.advances (hok n) (run.next n) hwaits

/-- **The writer is durable and ordered.**  In every run in which nobody drains
beside an upsert of a call, and no writer is started beside one or beside a
stop that has yet to drain: a call that has returned finds the rows it began
with stored, and with nothing left to do each key has its last accepted row.
Every call returns, where the writer's own steps are taken in the end. -/
theorem writer_durable :
    (∀ (s t : WriterState Args) (acts : List (WriterAction Args)),
      (timelineWriter Args).Start s → StepsMeet (timelineWriter Args) Undisturbed s acts →
        exec (timelineWriter Args) s acts = some t →
          (∀ call ∈ t.calls, call.phase = .returned → BeforeStored t call) ∧
          (Ended t → ∀ key row,
            lastOf (fun row => decide (row.itemKey = key)) t.accepted = some row →
              payloadOf t.rows key = some row.payload)) ∧
      ∀ run : InfiniteRun (timelineWriter Args), run.Fair WriterAction.Own →
        (∀ n, Undisturbed (run.state n) (run.action n) (run.state (n + 1))) →
          ∀ n i call, (run.state n).calls[i]? = some call → ∃ k, n ≤ k ∧ Returned i (run.state k) := by
  refine ⟨fun s t acts hstart hok hexec => ?_, fun run hfair hok n i call hi =>
    run_returns run hfair hok hi⟩
  obtain ⟨initial, landed, h⟩ := orderly_exec hstart hok hexec
  exact ⟨fun call hcall hreturned => h.beforeStored hcall hreturned,
    fun hended key row hrow => h.lastStored hended hrow⟩

/-! ### Two flushes -/

/-- A row to be written. -/
def writtenRow : TimelineRow Unit := { itemKey := "tc:a", seq := 1, payload := .runState true }

/-- Without a writer a flush drains the queue; a second one finds it empty. -/
def flushedTwice : List (WriterAction Unit) := [.enqueue writtenRow, .flush, .flush]

/-- **The second flush returns before the row is stored.** -/
theorem flush_returns_early :
    ∃ s, exec (timelineWriter Unit) {} flushedTwice = some s ∧
      ∃ call ∈ s.calls, call.phase = .returned ∧ ¬ BeforeStored s call := by
  refine ⟨(exec (timelineWriter Unit) {} flushedTwice).get (by decide),
    (Option.some_get (by decide)).symm, ⟨[writtenRow], .returned⟩, by decide, rfl, ?_⟩
  intro hstored
  obtain ⟨m, later, -, -, -, hpayload⟩ := hstored 0 writtenRow rfl
  have hnone : payloadOf ((exec (timelineWriter Unit) {} flushedTwice).get (by decide)).rows
      writtenRow.itemKey = none := by decide
  rw [hnone] at hpayload
  cases hpayload

/-- With a writer, a row and a flush; then time passes. -/
def flushedOnce : List (WriterAction Unit) :=
  [.start, .enqueue writtenRow, .flush, .task, .landTask, .task, .resume 0]

def afterFlush : WriterState Unit :=
  (exec (timelineWriter Unit) {} flushedOnce).get (by decide)

theorem exec_flushedOnce : exec (timelineWriter Unit) {} flushedOnce = some afterFlush :=
  (Option.some_get (by decide)).symm

/-- The run with these steps, which is fair: nothing is left to do. -/
def flushRun : InfiniteRun (timelineWriter Unit) :=
  InfiniteRun.idling (s := {}) (a := .pass) ⟨[], rfl⟩ exec_flushedOnce rfl

theorem flushRun_fair : flushRun.Fair WriterAction.Own := by
  refine InfiniteRun.idling_fair _ _ _ fun action hown => ?_
  cases action with
  | pass | start | enqueue _ | flush | stop => exact hown.elim
  | task | landTask => decide
  | landCall i | resume i =>
      cases i with
      | zero => decide
      | succ i => rfl

/-- The flush returns, with the row stored. -/
theorem flush_returns :
    (∃ call ∈ afterFlush.calls, call.phase = .returned ∧ BeforeStored afterFlush call) ∧
      payloadOf afterFlush.rows "tc:a" = some writtenRow.payload ∧
        ∃ k, 3 ≤ k ∧ Returned 0 (flushRun.state k) := by
  have hok : StepsMeet (timelineWriter Unit) Undisturbed {} flushedOnce := by decide
  obtain ⟨hruns, hfair⟩ := @writer_durable Unit
  obtain ⟨hreturned, hended⟩ := hruns {} afterFlush flushedOnce ⟨[], rfl⟩ hok exec_flushedOnce
  refine ⟨⟨⟨[writtenRow], .returned⟩, by decide, rfl, hreturned _ (by decide) rfl⟩, ?_, ?_⟩
  · exact hended ⟨by decide, by decide, .inr (by decide)⟩ "tc:a" writtenRow (by decide)
  · refine hfair flushRun flushRun_fair ?_ 3 0 ⟨[writtenRow], .awaitingBarrier false⟩ (by decide)
    exact InfiniteRun.idling_meets _ _ _ hok trivial

end Workbench.TimelineWriter
