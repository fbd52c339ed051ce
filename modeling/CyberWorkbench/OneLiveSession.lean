import CyberWorkbench.SessionPool

/-!
# One live session object per id

Between `get_or_create` and the creation of its driver task a caller holds a
session object that looks idle, and so does a driver in its `finally` block:
`is_running` is false, nobody subscribed, and the caller's touch of the entry
came before the candidates were chosen.  Evicting such an entry leaves a live
object outside the pool, and the next caller makes a second one.

`one_live_session`: this is the only way.  While no eviction pops an object in
use, whatever is live is what the pool holds.  `evicted_while_starting` replays
the eviction of a session whose turn is about to start.
-/

namespace Workbench.Pool

open StepMachine Liveness

/-! ### In use -/

/-- The phases of `start_turn` and `start_notification_recovery`. -/
def startsTurn : Liveness.OpPhase → Bool
  | .startQueued _ | .enqueueing | .recoveryQueued _ | .recoveryQuerying _ | .marking _
  | .loading => true
  | .interruptWaiting _ | .interruptCanceling | .asking | .writing | .idling | .finished => false

/-- A driver task is alive. -/
def HasLiveDriver (live : LiveSession) : Prop := ∃ task ∈ live.tasks, task.phase ≠ .done

/-- A driver task is alive or a start is in progress. -/
def Active (live : LiveSession) : Prop :=
  HasLiveDriver live ∨ ∃ op ∈ live.ops, startsTurn op = true

/-- The caller is going to start a driver. -/
def Caller.starts : Caller → Bool
  | .turn _ | .recovery _ => true
  | .subscriber => false

/-- The object the operation's caller holds, and what for. -/
def PoolPhase.next : PoolPhase → Option (Nat × Caller)
  | .enforcing _ o caller => some (o, caller)
  | .claiming _ _ _ _ next | .popping _ _ next | .closing _ next => next
  | .resuming _ _ | .getting _ _ | .finished => none

/-- The operation holds the object to start a driver on it. -/
def PoolPhase.willStart (op : PoolPhase) (o : Nat) : Bool :=
  op.next.any fun next => decide (next.1 = o) && next.2.starts

/-- Some caller holds the object to start a driver on it. -/
def PoolState.held (s : PoolState) (o : Nat) : Bool := s.ops.any fun op => op.willStart o

/-- Somebody starts a driver on the object, or its driver is in `finally` past
the clearing of `_current_task`. -/
def PoolState.inUse (s : PoolState) (o : Nat) : Bool :=
  s.held o || s.objects[o]?.any fun object =>
    object.live.ops.any startsTurn || object.live.tasks.any fun task => task.phase.isEnding

/-! ### The property and its condition -/

/-- At most one object per id is active, and an object with a live driver is
the one the pool holds, not closed. -/
structure OneLive (s : PoolState) : Prop where
  single : ∀ (o o' : Nat) (object object' : SessionObject), s.objects[o]? = some object →
    s.objects[o']? = some object' → object.sessionId = object'.sessionId →
      Active object.live → Active object'.live → o = o'
  pooled : ∀ (o : Nat) (object : SessionObject), s.objects[o]? = some object →
    HasLiveDriver object.live →
      lookup s.pool object.sessionId = some o ∧ object.closed = false

/-- An eviction comes to pop: no entry that passes its tests is in use. -/
def EvictsUnused (s : PoolState) (a : PoolAction) (_ : PoolState) : Prop :=
  match a with
  | .advance i _ _ =>
      match s.ops[i]? with
      | some (.popping chosen observed _) =>
          ∀ sessionId ∈ chosen, ∀ o ∈ lookup s.pool sessionId,
            evictable s observed sessionId o = true → s.inUse o = false
      | _ => True
  | _ => True

instance (s : PoolState) (a : PoolAction) (t : PoolState) : Decidable (EvictsUnused s a t) := by
  unfold EvictsUnused
  split
  · split <;> infer_instance
  · infer_instance

/-- What holds of the pool, its objects and its callers. -/
structure PoolInv (s : PoolState) : Prop where
  tasks : ∀ (o : Nat) (object : SessionObject), s.objects[o]? = some object →
    TasksInv object.live
  pooled : ∀ (sessionId : String) (o : Nat), lookup s.pool sessionId = some o →
    ∃ object, s.objects[o]? = some object ∧ object.sessionId = sessionId ∧ object.closed = false
  used : ∀ (o : Nat) (object : SessionObject), s.objects[o]? = some object →
    (Active object.live ∨ s.held o = true) → lookup s.pool object.sessionId = some o
  /-- What is being closed is out of the pool. -/
  evicted : ∀ (evicted : List Nat) (next : Option (Nat × Caller)),
    .closing evicted next ∈ s.ops → ∀ o ∈ evicted,
      o < s.objects.length ∧ ∀ sessionId, lookup s.pool sessionId ≠ some o

theorem PoolInv.oneLive {s : PoolState} (hi : PoolInv s) : OneLive s := by
  constructor
  · intro o o' object object' ho ho' hsame hactive hactive'
    have hpool := hi.used o object ho (.inl hactive)
    have hpool' := hi.used o' object' ho' (.inl hactive')
    rw [← hsame, hpool] at hpool'
    exact Option.some.inj hpool'
  · intro o object ho hlive
    have hpool := hi.used o object ho (.inl (.inl hlive))
    obtain ⟨held, hheld, -, hopen⟩ := hi.pooled _ o hpool
    rw [ho] at hheld
    obtain rfl := Option.some.inj hheld
    exact ⟨hpool, hopen⟩

/-! ### Sessions -/

/-- A task's step comes from a live task. -/
theorem drive_live {live live' : LiveSession} {d : Nat} {found committed : Bool} {now : Time}
    (h : livenessStep live (.drive d found committed now) = some live') : Active live := by
  simp only [livenessStep] at h
  split at h
  · cases h
  rename_i task hd
  refine .inl ⟨task, List.mem_of_getElem? hd, ?_⟩
  intro hdone
  split at h
  · simp [cancelTask, hdone] at h
  · simp [advanceTask, hdone] at h

/-- An operation's step sets its own phase, not to a start unless it was one;
only a start makes a task. -/
theorem advanceOp_start {live live' : LiveSession} {i : Nat} {found : Bool} {now : Time}
    {op : Liveness.OpPhase} (h : Liveness.advanceOp live i found now op = some live') :
    startsTurn op = true ∨ live'.tasks = live.tasks ∧
      ∃ op', live'.ops = live.ops.set i op' ∧ startsTurn op' = false := by
  cases op with
  | startQueued _ | enqueueing | recoveryQueued _ | recoveryQuerying _ | marking _ | loading =>
      exact .inl rfl
  | interruptWaiting d =>
      simp only [Liveness.advanceOp] at h
      split at h
      · cases h
      split at h
      · obtain rfl := Option.some.inj h
        exact .inr ⟨rfl, _, rfl, rfl⟩
      · cases h
  | interruptCanceling | writing | idling =>
      obtain rfl := Option.some.inj h
      exact .inr ⟨rfl, _, rfl, rfl⟩
  | asking =>
      simp only [Liveness.advanceOp] at h
      split at h
      all_goals
        obtain rfl := Option.some.inj h
        exact .inr ⟨rfl, _, rfl, rfl⟩
  | finished => cases h

/-- A session that is active after a step that is not a start's beginning was
active before. -/
theorem active_step {live live' : LiveSession} {a : LivenessAction}
    (hturn : ∀ target, a ≠ .startTurn target)
    (hrecovery : ∀ target, a ≠ .startNotificationRecovery target)
    (h : livenessStep live a = some live') (hactive : Active live') : Active live := by
  cases a with
  | startTurn target => exact absurd rfl (hturn target)
  | startNotificationRecovery target => exact absurd rfl (hrecovery target)
  | interrupt =>
      obtain rfl := Option.some.inj h
      unfold Liveness.beginInterrupt at hactive
      split at hactive
      · exact hactive
      split at hactive
      · exact hactive
      rename_i task hd
      split at hactive
      · exact hactive
      · rename_i hlive
        exact .inl ⟨task, List.mem_of_getElem? hd, hlive⟩
  | advance i found now =>
      simp only [livenessStep] at h
      split at h
      · cases h
      rename_i op hop
      obtain hstarts | ⟨htasks, op', hops, hother⟩ := advanceOp_start h
      · exact .inr ⟨op, List.mem_of_getElem? hop, hstarts⟩
      · rcases hactive with hlive | ⟨other, hmem, hstarts⟩
        · unfold HasLiveDriver at hlive
          rw [htasks] at hlive
          exact .inl hlive
        · rw [hops] at hmem
          rcases List.mem_or_eq_of_mem_set hmem with hmem | rfl
          · exact .inr ⟨other, hmem, hstarts⟩
          · rw [hother] at hstarts
            cases hstarts
  | drive d found committed now => exact drive_live h

/-- An idle session in which no driver is in `finally` has no live driver. -/
theorem not_active {live : LiveSession} (ht : TasksInv live) (hidle : live.isRunning = false)
    (hending : ∀ task ∈ live.tasks, task.phase.isEnding = false)
    (hstarts : ∀ op ∈ live.ops, startsTurn op = false) : ¬ Active live := by
  rintro (⟨task, htask, hlive⟩ | ⟨op, hop, hstart⟩)
  · have hworking := ht.not_working hidle task htask
    have hended := hending task htask
    cases hphase : task.phase <;> simp_all [TaskPhase.isWorking, TaskPhase.isEnding]
  · rw [hstarts op hop] at hstart
    cases hstart

/-! ### Looking up -/

theorem lookup_remove (pool : List (String × Nat)) (removed sessionId : String) :
    lookup (remove pool removed) sessionId =
      if removed = sessionId then none else lookup pool sessionId := by
  induction pool with
  | nil => simp [lookup, remove]
  | cons entry rest ih =>
      simp only [lookup, remove] at ih ⊢
      by_cases hremoved : entry.1 = removed
      · by_cases hsame : removed = sessionId
        · simp [hremoved, hsame]
        · simpa [hremoved, hsame] using ih
      · by_cases hfound : entry.1 = sessionId
        · have hne : removed ≠ sessionId := fun h => hremoved (hfound.trans h.symm)
          simp [hfound, hne, Ne.symm hne]
        · simpa [hremoved, hfound] using ih

theorem lookup_append (pool : List (String × Nat)) (added sessionId : String) (o : Nat) :
    lookup (pool ++ [(added, o)]) sessionId =
      (lookup pool sessionId).or (if added = sessionId then some o else none) := by
  induction pool with
  | nil => by_cases h : added = sessionId <;> simp [lookup, h]
  | cons entry rest ih =>
      simp only [lookup, List.cons_append] at ih ⊢
      by_cases hfound : entry.1 = sessionId
      · simp [hfound]
      · simpa [hfound] using ih

/-- Popping removes entries only. -/
theorem lookup_of_popEvicted {s : PoolState} {observed : List EvictionCandidate}
    {chosen : List String} {pool : List (String × Nat)} {sessionId : String} {o : Nat}
    (h : lookup (popEvicted s observed pool chosen).1 sessionId = some o) :
    lookup pool sessionId = some o := by
  induction chosen generalizing pool with
  | nil => exact h
  | cons first rest ih =>
      simp only [popEvicted] at h
      split at h
      · exact ih h
      split at h
      · have hleft := ih h
        rw [lookup_remove] at hleft
        split at hleft
        · cases hleft
        · exact hleft
      · exact ih h

/-- An entry stays unless it was chosen and passes the tests. -/
theorem popEvicted_keeps {s : PoolState} {observed : List EvictionCandidate}
    {chosen : List String} {pool : List (String × Nat)} {sessionId : String} {o : Nat}
    (h : lookup pool sessionId = some o) :
    lookup (popEvicted s observed pool chosen).1 sessionId = some o ∨
      (sessionId ∈ chosen ∧ evictable s observed sessionId o = true) := by
  induction chosen generalizing pool with
  | nil => exact .inl h
  | cons first rest ih =>
      have later : ∀ {pool : List (String × Nat)}, lookup pool sessionId = some o →
          lookup (popEvicted s observed pool rest).1 sessionId = some o ∨
            (sessionId ∈ first :: rest ∧ evictable s observed sessionId o = true) :=
        fun hpool => (ih hpool).imp id (fun hgone => ⟨List.mem_cons_of_mem _ hgone.1, hgone.2⟩)
      simp only [popEvicted]
      split
      · exact later h
      rename_i popped hfound
      split
      · rename_i hpasses
        by_cases hsame : first = sessionId
        · subst hsame
          rw [h] at hfound
          obtain rfl := Option.some.inj hfound
          exact .inr ⟨List.mem_cons_self, hpasses⟩
        · exact later (by rw [lookup_remove, if_neg hsame, h])
      · exact later h

/-- What is popped was in the pool and is there no longer. -/
theorem of_mem_popEvicted {s : PoolState} {observed : List EvictionCandidate}
    {chosen : List String} {pool : List (String × Nat)} {o : Nat}
    (h : o ∈ (popEvicted s observed pool chosen).2) :
    ∃ sessionId, lookup pool sessionId = some o ∧
      lookup (popEvicted s observed pool chosen).1 sessionId = none := by
  induction chosen generalizing pool with
  | nil => simp [popEvicted] at h
  | cons first rest ih =>
      simp only [popEvicted] at h ⊢
      split
      · rename_i hnone
        rw [hnone] at h
        exact ih h
      rename_i popped hfound
      rw [hfound] at h
      simp only at h
      split
      · rename_i hpasses
        rw [if_pos hpasses] at h
        have hgone : lookup (popEvicted s observed (remove pool first) rest).1 first = none := by
          cases hleft : lookup (popEvicted s observed (remove pool first) rest).1 first with
          | none => rfl
          | some other =>
              have hpool := lookup_of_popEvicted hleft
              rw [lookup_remove, if_pos rfl] at hpool
              cases hpool
        rcases List.mem_cons.mp h with rfl | hlater
        · exact ⟨first, hfound, hgone⟩
        · obtain ⟨sessionId, hpool, hnone⟩ := ih hlater
          rw [lookup_remove] at hpool
          split at hpool
          · cases hpool
          · exact ⟨sessionId, hpool, hnone⟩
      · rename_i hpasses
        rw [if_neg hpasses] at h
        exact ih h

/-! ### What a step changes -/

theorem held_of_mem {s : PoolState} {op : PoolPhase} {o : Nat} (hop : op ∈ s.ops)
    (hstart : op.willStart o = true) : s.held o = true :=
  List.any_eq_true.mpr ⟨op, hop, hstart⟩

/-- One object changed, and became active only if a caller holds it. -/
theorem PoolInv.setObject {s : PoolState} (hi : PoolInv s) {o : Nat}
    {object object' : SessionObject} (ho : s.objects[o]? = some object)
    (hid : object'.sessionId = object.sessionId) (ht : TasksInv object'.live)
    (hactive : Active object'.live → Active object.live ∨ s.held o = true)
    (hopen : ∀ sessionId, lookup s.pool sessionId = some o →
      object.closed = false → object'.closed = false) :
    PoolInv (s.setObject o object') := by
  have hlt := (List.getElem?_eq_some_iff.mp ho).1
  constructor
  · intro p other hp
    rcases getElem?_set_cases hp with ⟨-, rfl⟩ | ⟨-, hp⟩
    · exact ht
    · exact hi.tasks p other hp
  · intro sessionId p hp
    obtain ⟨other, hother, hsid, hclosed⟩ := hi.pooled sessionId p hp
    by_cases hpo : p = o
    · subst hpo
      rw [ho] at hother
      obtain rfl := Option.some.inj hother
      exact ⟨object', List.getElem?_set_self hlt, hid.trans hsid, hopen sessionId hp hclosed⟩
    · refine ⟨other, ?_, hsid, hclosed⟩
      rw [PoolState.setObject, List.getElem?_set_ne (fun h => hpo h.symm)]
      exact hother
  · intro p other hp hused
    rcases getElem?_set_cases hp with ⟨rfl, rfl⟩ | ⟨-, hp⟩
    · rw [hid]
      rcases hused with hlive | hheld
      · exact hi.used p object ho (hactive hlive)
      · exact hi.used p object ho (.inr hheld)
    · exact hi.used p other hp hused
  · intro evicted next hop p hp
    obtain ⟨hvalid, hout⟩ := hi.evicted evicted next hop p hp
    exact ⟨by simpa [PoolState.setObject] using hvalid, hout⟩

/-- One operation went on.  It holds for a start what it held, or what the
pool holds; and it closes what it closed, or what is out of the pool. -/
theorem PoolInv.setOp {s : PoolState} (hi : PoolInv s) {i : Nat} {op op' : PoolPhase}
    (hop : s.ops[i]? = some op)
    (hholds : ∀ o object, s.objects[o]? = some object → op'.willStart o = true →
      op.willStart o = true ∨ lookup s.pool object.sessionId = some o)
    (hcloses : ∀ evicted next, op' = .closing evicted next → ∀ o ∈ evicted,
      o < s.objects.length ∧ ∀ sessionId, lookup s.pool sessionId ≠ some o) :
    PoolInv (s.setOp i op') := by
  refine ⟨hi.tasks, hi.pooled, ?_, ?_⟩
  · intro o object ho hused
    rcases hused with hlive | hheld
    · exact hi.used o object ho (.inl hlive)
    · obtain ⟨other, hother, hstart⟩ := List.any_eq_true.mp hheld
      rcases List.mem_or_eq_of_mem_set hother with hother | rfl
      · exact hi.used o object ho (.inr (held_of_mem hother hstart))
      · rcases hholds o object ho hstart with hwas | hpool
        · exact hi.used o object ho (.inr (held_of_mem (List.mem_of_getElem? hop) hwas))
        · exact hpool
  · intro evicted next hmem
    rcases List.mem_or_eq_of_mem_set hmem with hmem | hsame
    · exact hi.evicted evicted next hmem
    · exact hcloses evicted next hsame.symm

/-- A new operation holds and closes nothing. -/
theorem PoolInv.beginOp {s : PoolState} (hi : PoolInv s) {op : PoolPhase}
    (hnext : op.next = none) (hcloses : ∀ evicted next, op ≠ .closing evicted next) :
    PoolInv { s with ops := s.ops ++ [op] } := by
  refine ⟨hi.tasks, hi.pooled, ?_, ?_⟩
  · intro o object ho hused
    rcases hused with hlive | hheld
    · exact hi.used o object ho (.inl hlive)
    · obtain ⟨other, hother, hstart⟩ := List.any_eq_true.mp hheld
      rcases List.mem_append.mp hother with hother | hother
      · exact hi.used o object ho (.inr (held_of_mem hother hstart))
      · obtain rfl := List.mem_singleton.mp hother
        simp [PoolPhase.willStart, hnext] at hstart
  · intro evicted next hmem
    rcases List.mem_append.mp hmem with hmem | hmem
    · exact hi.evicted evicted next hmem
    · exact absurd (List.mem_singleton.mp hmem).symm (hcloses evicted next)

/-! ### Every step -/

/-- `_get_or_create_locked` returns what the pool then holds. -/
theorem getOrCreateLocked_inv {s : PoolState} (hi : PoolInv s) (sessionId : String) (now : Nat) :
    PoolInv (getOrCreateLocked s sessionId now).1 ∧
      (getOrCreateLocked s sessionId now).1.ops = s.ops ∧
      lookup (getOrCreateLocked s sessionId now).1.pool sessionId =
        some (getOrCreateLocked s sessionId now).2 := by
  unfold getOrCreateLocked
  split
  · rename_i hnone
    have hfresh : ∀ id, lookup s.pool id ≠ some s.objects.length := by
      intro id hid
      obtain ⟨object, ho, -⟩ := hi.pooled id _ hid
      have := (List.getElem?_eq_some_iff.mp ho).1
      omega
    have hcases : ∀ {o : Nat} {object : SessionObject},
        (s.objects ++ [{ sessionId := sessionId, lastUsedAt := now }])[o]? = some object →
          s.objects[o]? = some object ∨
            (o = s.objects.length ∧ object = { sessionId := sessionId, lastUsedAt := now }) := by
      intro o object ho
      rcases Nat.lt_or_ge o s.objects.length with hlt | hge
      · rw [List.getElem?_append_left hlt] at ho
        exact .inl ho
      · rw [List.getElem?_append_right hge] at ho
        obtain ⟨hindex, hobject⟩ := List.getElem?_eq_some_iff.mp ho
        simp only [List.length_singleton] at hindex
        refine .inr ⟨by omega, ?_⟩
        rw [← hobject]
        simp
    have hpool : ∀ id, lookup (s.pool ++ [(sessionId, s.objects.length)]) id =
        (lookup s.pool id).or (if sessionId = id then some s.objects.length else none) :=
      fun id => lookup_append s.pool sessionId id s.objects.length
    refine ⟨⟨?_, ?_, ?_, ?_⟩, rfl, by simp [hpool, hnone]⟩
    · intro o object ho
      rcases hcases ho with ho | ⟨-, rfl⟩
      · exact hi.tasks o object ho
      · exact tasksInv_start ⟨rfl, rfl, rfl, rfl, rfl⟩
    · intro id o ho
      rw [hpool] at ho
      rcases Option.or_eq_some_iff.mp ho with hold | ⟨-, hnew⟩
      · obtain ⟨object, hobject, hrest⟩ := hi.pooled id o hold
        refine ⟨object, ?_, hrest⟩
        rw [List.getElem?_append_left (List.getElem?_eq_some_iff.mp hobject).1]
        exact hobject
      · split at hnew
        · rename_i hid
          obtain rfl := Option.some.inj hnew
          exact ⟨{ sessionId := sessionId, lastUsedAt := now }, by simp, hid, rfl⟩
        · cases hnew
    · intro o object ho hused
      rw [hpool]
      rcases hcases ho with ho | ⟨rfl, rfl⟩
      · rw [hi.used o object ho hused]
        rfl
      · simp [hnone]
    · intro evicted next hop o ho
      obtain ⟨hvalid, hout⟩ := hi.evicted evicted next hop o ho
      refine ⟨by simp; omega, ?_⟩
      intro id hid
      rw [hpool] at hid
      rcases Option.or_eq_some_iff.mp hid with hold | ⟨-, hnew⟩
      · exact hout id hold
      · split at hnew
        · obtain rfl := Option.some.inj hnew
          omega
        · cases hnew
  · rename_i o hfound
    obtain ⟨object, ho, -⟩ := hi.pooled sessionId o hfound
    simp only [ho]
    exact ⟨hi.setObject ho rfl (hi.tasks o object ho) .inl (fun _ _ h => h), rfl, hfound⟩

/-- Popping entries that are not in use. -/
theorem popEvicted_inv {s : PoolState} (hi : PoolInv s) {chosen : List String}
    {observed : List EvictionCandidate}
    (hunused : ∀ sessionId ∈ chosen, ∀ o ∈ lookup s.pool sessionId,
      evictable s observed sessionId o = true → s.inUse o = false) :
    PoolInv { s with pool := (popEvicted s observed s.pool chosen).1 } ∧
      ∀ o ∈ (popEvicted s observed s.pool chosen).2, o < s.objects.length ∧
        ∀ sessionId, lookup (popEvicted s observed s.pool chosen).1 sessionId ≠ some o := by
  have hout : ∀ o ∈ (popEvicted s observed s.pool chosen).2, o < s.objects.length ∧
      ∀ sessionId, lookup (popEvicted s observed s.pool chosen).1 sessionId ≠ some o := by
    intro o ho
    obtain ⟨sessionId, hwas, hgone⟩ := of_mem_popEvicted ho
    obtain ⟨object, hobject, hsid, -⟩ := hi.pooled sessionId o hwas
    refine ⟨(List.getElem?_eq_some_iff.mp hobject).1, ?_⟩
    intro other hother
    -- an object is pooled under its own id only
    obtain ⟨same, hsame, hsid', -⟩ := hi.pooled other o (lookup_of_popEvicted hother)
    rw [hobject] at hsame
    obtain rfl := Option.some.inj hsame
    rw [← hsid', hsid, hgone] at hother
    cases hother
  refine ⟨⟨hi.tasks, fun sessionId o ho => hi.pooled sessionId o (lookup_of_popEvicted ho), ?_, ?_⟩,
    hout⟩
  · intro o object ho hused
    have hpool := hi.used o object ho hused
    have hkeeps : lookup (popEvicted s observed s.pool chosen).1 object.sessionId = some o ∨
        (object.sessionId ∈ chosen ∧ evictable s observed object.sessionId o = true) :=
      popEvicted_keeps hpool
    rcases hkeeps with hkept | ⟨hchosen, hpasses⟩
    · exact hkept
    · exfalso
      have hfree := hunused _ hchosen o hpool hpasses
      simp only [PoolState.inUse, ho, Option.any_some, Bool.or_eq_false_iff,
        List.any_eq_false] at hfree
      obtain ⟨hheld, hstarts, hending⟩ := hfree
      simp only [evictable, ho, SessionObject.isIdle, Bool.and_eq_true, Bool.not_eq_true'] at hpasses
      rcases hused with hlive | hhold
      · exact not_active (hi.tasks o object ho) hpasses.1.1
          (fun task htask => Bool.eq_false_iff.mpr (hending task htask))
          (fun op hop => Bool.eq_false_iff.mpr (hstarts op hop)) hlive
      · have hhold : s.held o = true := hhold
        rw [hheld] at hhold
        cases hhold
  · intro evicted next hop o ho
    obtain ⟨hvalid, hgone⟩ := hi.evicted evicted next hop o ho
    exact ⟨hvalid, fun id hid => hgone id (lookup_of_popEvicted hid)⟩

/-- An operation that goes on with what it holds. -/
theorem PoolInv.goOn {s : PoolState} (hi : PoolInv s) {i : Nat} {op op' : PoolPhase}
    (hop : s.ops[i]? = some op) (hnext : op'.next = op.next ∨ op'.next = none)
    (hcloses : ∀ evicted next, op' = .closing evicted next →
      ∃ before next', op = .closing before next' ∧ ∀ o ∈ evicted, o ∈ before) :
    PoolInv (s.setOp i op') := by
  refine hi.setOp hop ?_ ?_
  · intro o object _ hstart
    rcases hnext with hsame | hnone
    · exact .inl (by rwa [PoolPhase.willStart, hsame] at hstart)
    · simp [PoolPhase.willStart, hnone] at hstart
  · intro evicted next hclosing o ho
    obtain ⟨before, next', rfl, hmem⟩ := hcloses evicted next hclosing
    exact hi.evicted before next' (List.mem_of_getElem? hop) o (hmem o ho)

/-- A caller starts a driver on the object it holds. -/
theorem useSession_inv {s s' : PoolState} (hi : PoolInv s) {o : Nat} {object : SessionObject}
    {caller : Caller} (ho : s.objects[o]? = some object)
    (hheld : caller.starts = true → s.held o = true)
    (h : useSession s o object caller = some s') : PoolInv s' ∧ s'.ops = s.ops := by
  have start : ∀ a : LivenessAction, s.held o = true →
      (livenessStep object.live a).map (fun live => s.setObject o { object with live := live }) =
        some s' → PoolInv s' ∧ s'.ops = s.ops := by
    intro a hheld h
    obtain ⟨live, hstep, rfl⟩ := Option.map_eq_some_iff.mp h
    exact ⟨hi.setObject ho rfl (tasksInv_step (hi.tasks o object ho) hstep) (fun _ => .inr hheld)
      (fun _ _ hopen => hopen), rfl⟩
  cases caller with
  | turn target => exact start (.startTurn target) (hheld rfl) h
  | recovery target => exact start (.startNotificationRecovery target) (hheld rfl) h
  | subscriber =>
      obtain rfl := Option.some.inj h
      exact ⟨hi.setObject ho rfl (hi.tasks o object ho) .inl (fun _ _ hopen => hopen), rfl⟩

theorem advancePool_inv {config : PoolConfig} {s s' : PoolState} {i : Nat} {found : Bool}
    {now : Nat} {op : PoolPhase} (hi : PoolInv s) (hop : s.ops[i]? = some op)
    (hunused : ∀ chosen observed next, op = .popping chosen observed next →
      ∀ sessionId ∈ chosen, ∀ o ∈ lookup s.pool sessionId,
        evictable s observed sessionId o = true → s.inUse o = false)
    (h : advancePool config s i found now op = some s') : PoolInv s' := by
  cases op with
  | resuming sessionId target =>
      simp only [advancePool] at h
      split at h
      all_goals
        obtain rfl := Option.some.inj h
        exact hi.goOn hop (.inr rfl) (by simp)
  | getting sessionId caller =>
      obtain rfl := Option.some.inj h
      obtain ⟨hgot, hops, hpool⟩ := getOrCreateLocked_inv hi sessionId now
      refine hgot.setOp (hops ▸ hop) ?_ (by simp)
      intro o object ho hstart
      obtain ⟨hsame, -⟩ : (getOrCreateLocked s sessionId now).2 = o ∧ caller.starts = true := by
        simpa [PoolPhase.willStart, PoolPhase.next] using hstart
      rw [hsame] at hpool
      obtain ⟨held, hheld, hsid, -⟩ := hgot.pooled sessionId o hpool
      rw [ho] at hheld
      obtain rfl := Option.some.inj hheld
      exact .inr (hsid ▸ hpool)
  | enforcing sessionId o caller =>
      obtain rfl := Option.some.inj h
      exact hi.goOn hop (.inl rfl) (by simp)
  | claiming candidates limit chosen observed next =>
      cases candidates with
      | nil =>
          obtain rfl := Option.some.inj h
          exact hi.goOn hop (.inl rfl) (by simp)
      | cons candidate rest =>
          simp only [advancePool] at h
          split at h
          · obtain rfl := Option.some.inj h
            exact hi.goOn hop (.inl rfl) (by simp)
          split at h
          all_goals
            obtain rfl := Option.some.inj h
            exact hi.goOn hop (.inl rfl) (by simp)
  | popping chosen observed next =>
      obtain rfl := Option.some.inj h
      obtain ⟨hpopped, hout⟩ := popEvicted_inv hi (hunused chosen observed next rfl)
      refine hpopped.setOp hop (fun o object _ hstart => .inl hstart) ?_
      intro evicted next' hclosing o ho
      obtain ⟨rfl, -⟩ := PoolPhase.closing.inj hclosing
      exact hout o ho
  | closing evicted next =>
      cases evicted with
      | cons o rest =>
          simp only [advancePool] at h
          split at h
          · cases h
          rename_i object ho
          obtain rfl := Option.some.inj h
          have hgone := (hi.evicted _ _ (List.mem_of_getElem? hop) o List.mem_cons_self).2
          have hclosed : PoolInv (s.setObject o { object with closed := true, subscribers := 0 }) :=
            hi.setObject ho rfl (hi.tasks o object ho) .inl (fun id hid => absurd hid (hgone id))
          refine hclosed.goOn hop (.inl rfl) ?_
          intro evicted next' hclosing
          obtain ⟨rfl, -⟩ := PoolPhase.closing.inj hclosing
          exact ⟨o :: rest, next, rfl, fun p hp => List.mem_cons_of_mem o hp⟩
      | nil =>
          cases next with
          | none =>
              obtain rfl := Option.some.inj h
              exact hi.goOn hop (.inr rfl) (by simp)
          | some held =>
              obtain ⟨o, caller⟩ := held
              simp only [advancePool] at h
              split at h
              · cases h
              rename_i object ho
              obtain ⟨used, huse, rfl⟩ := Option.map_eq_some_iff.mp h
              have hheld : caller.starts = true → s.held o = true :=
                fun hstarts => held_of_mem (List.mem_of_getElem? hop)
                  (by simp [PoolPhase.willStart, PoolPhase.next, hstarts])
              obtain ⟨hused, hops⟩ := useSession_inv hi ho hheld huse
              exact hused.goOn (hops ▸ hop) (.inr rfl) (by simp)
  | finished => cases h

/-- An object changed without its session going on. -/
theorem PoolInv.updateObject {s : PoolState} (hi : PoolInv s) (o : Nat)
    {f : SessionObject → SessionObject} (hid : ∀ object, (f object).sessionId = object.sessionId)
    (hlive : ∀ object, (f object).live = object.live)
    (hclosed : ∀ object, (f object).closed = object.closed) :
    PoolInv (s.updateObject o f) := by
  unfold PoolState.updateObject
  split
  · exact hi
  · rename_i object ho
    refine hi.setObject ho (hid object) ?_ ?_ (fun _ _ hopen => (hclosed object).trans hopen)
    · rw [hlive]
      exact hi.tasks o object ho
    · rw [hlive]
      exact .inl

/-- Every step that evicts nothing in use keeps the pool in order. -/
theorem poolInv_step {config : PoolConfig} {s s' : PoolState} {a : PoolAction} (hi : PoolInv s)
    (hevicts : EvictsUnused s a s') (h : poolStep config s a = some s') : PoolInv s' := by
  cases a with
  | submitTurn sessionId target =>
      obtain rfl := Option.some.inj h
      exact hi.beginOp rfl (by simp)
  | resumeSession sessionId target =>
      obtain rfl := Option.some.inj h
      exact hi.beginOp rfl (by simp)
  | subscribe sessionId =>
      obtain rfl := Option.some.inj h
      exact hi.beginOp rfl (by simp)
  | unsubscribe o =>
      obtain rfl := Option.some.inj h
      exact hi.updateObject o (fun _ => rfl) (fun _ => rfl) (fun _ => rfl)
  | publish sessionId now =>
      simp only [poolStep] at h
      split at h
      · obtain rfl := Option.some.inj h
        exact hi
      · obtain rfl := Option.some.inj h
        exact hi.updateObject _ (fun _ => rfl) (fun _ => rfl) (fun _ => rfl)
  | sweep now =>
      obtain rfl := Option.some.inj h
      exact hi.beginOp rfl (by simp)
  | advance i found now =>
      simp only [poolStep] at h
      split at h
      · cases h
      rename_i op hop
      refine advancePool_inv hi hop ?_ h
      rintro chosen observed next rfl
      simpa only [EvictsUnused, hop] using hevicts
  | session o action =>
      have inside : ∀ {object : SessionObject}, s.objects[o]? = some object →
          (∀ target, action ≠ .startTurn target) →
          (∀ target, action ≠ .startNotificationRecovery target) →
          (livenessStep object.live action).map
            (fun live => s.setObject o { object with live := live }) = some s' → PoolInv s' := by
        intro object ho hturn hrecovery h
        obtain ⟨live, hstep, rfl⟩ := Option.map_eq_some_iff.mp h
        exact hi.setObject ho rfl (tasksInv_step (hi.tasks o object ho) hstep)
          (fun hactive => .inl (active_step hturn hrecovery hstep hactive))
          (fun _ _ hopen => hopen)
      simp only [poolStep] at h
      split at h
      · cases h
      · cases h
      · cases h
      · rename_i hturn hrecovery ho
        exact inside ho hturn hrecovery h

theorem poolInv_start {config : PoolConfig} {s : PoolState} (h : (poolMachine config).Start s) :
    PoolInv s := by
  obtain ⟨hobjects, hpool, hops⟩ := h
  refine ⟨?_, ?_, ?_, ?_⟩
  · simp [hobjects]
  · simp [hpool, lookup]
  · simp [hobjects]
  · simp [hops]

/-- **One live session per id.**  While no eviction pops an object in use, no
two objects of one id are active, and an object with a live driver is the one
the pool holds, not closed. -/
theorem one_live_session (config : PoolConfig) {s t : PoolState} {acts : List PoolAction}
    (hstart : (poolMachine config).Start s)
    (hevicts : StepsMeet (poolMachine config) EvictsUnused s acts)
    (hrun : exec (poolMachine config) s acts = some t) : OneLive t :=
  (exec_invariant (m := poolMachine config) (I := PoolInv)
    (fun _ _ _ hi hevicts hstep => poolInv_step hi hevicts hstep) (poolInv_start hstart)
    hevicts hrun).oneLive

/-! ### Two runs -/

/-- Room for one session. -/
def smallPool : PoolConfig := { maxSize := 1, ttl := 60 }

/-- A turn is submitted: `get_or_create`, nothing to evict, `start_turn`. -/
def submitAlone (sessionId : String) (op now : Nat) : List PoolAction :=
  [.submitTurn sessionId { agentCode := "planner" }, .advance op false now,
    .advance op false now, .advance op false now, .advance op false now, .advance op false now]

/-- Another session's turn comes and evicts object `0`. -/
def submitAndEvict (sessionId : String) (op now : Nat) : List PoolAction :=
  [.submitTurn sessionId { agentCode := "planner" }, .advance op false now,
    .advance op false now, .advance op false now, .advance op false now,
    .advance op false now, .advance op false now, .advance op false now]

/-- The steps of `start_turn` in a session, up to its driver. -/
def startDriver (o op : Nat) : List PoolAction :=
  [.session o (.advance op false 0), .session o (.advance op false 0),
    .session o (.advance op false 0)]

/-- The driver runs its turn and ends. -/
def driveToEnd (o : Nat) : List PoolAction :=
  List.replicate 7 (.session o (.drive 0 false false 0))

theorem one_live_session_evicted :
    ∃ t, exec (poolMachine smallPool) {}
        (submitAlone "a" 0 1 ++ startDriver 0 0 ++ driveToEnd 0 ++ submitAndEvict "b" 1 2 ++
          startDriver 1 0) = some t ∧ t.pool = [("b", 1)] ∧ OneLive t := by
  have hstart : (poolMachine smallPool).Start {} := ⟨rfl, rfl, rfl⟩
  have hevicts : StepsMeet (poolMachine smallPool) EvictsUnused {}
      (submitAlone "a" 0 1 ++ startDriver 0 0 ++ driveToEnd 0 ++ submitAndEvict "b" 1 2 ++
        startDriver 1 0) := by decide
  exact ⟨_, rfl, rfl, one_live_session smallPool hstart hevicts rfl⟩

/-- **Evicted while starting.**  The object's turn goes on outside the pool,
closed, and the next turn of the same session gets an object of its own. -/
theorem evicted_while_starting :
    ∃ t, exec (poolMachine smallPool) {}
        (submitAlone "a" 0 1 ++ submitAndEvict "b" 1 2 ++ startDriver 0 0 ++
          submitAndEvict "a" 2 3 ++ startDriver 2 0) = some t ∧ ¬ OneLive t := by
  refine ⟨_, rfl, ?_⟩
  intro h
  have hfirst : HasLiveDriver { tasks := [{}], current := some 0, ops := [.finished] } :=
    ⟨{}, List.mem_cons_self, by decide⟩
  exact absurd (h.single 0 2 _ _ rfl rfl rfl (.inl hfirst) (.inl hfirst)) (by decide)

end Workbench.Pool
