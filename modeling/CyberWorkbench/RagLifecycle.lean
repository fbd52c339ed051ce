import CyberWorkbench.StepMachine
import Mathlib.Data.List.Perm.Basic

/-!
# The lifecycle of LightRAG

`core/lightrag/runtime`: one SDK instance is started, stopped and restarted,
and lent to clients.  A condition variable, a flag and a counter keep clients
out of transitions.  The release code takes the lock of the condition again,
where a cancellation could strike if the lock had to be waited for.

`lifecycle_safe`: no section under the lock waits for anything while it holds
it, so nothing is ever awaited there; no client has an instance whose
finalization has begun; and when no operation is in progress, the counter and
the flag are down.  An instance whose finalization failed is given up, and may
be left beside a new one.

A waiting task may be woken at any time, and looks at what it waits for again.
The configurations that instances are built from are not followed.
-/

namespace Workbench.RagLifecycle

open StepMachine

/-! ### Data -/

/-- What became of an instance. -/
inductive InstanceStatus where
  | unbuilt
  | initializing
  | initialized
  /-- At `finalize_storages()`. -/
  | finalizing
  | finalized
  /-- `initialize_storages()` did not return, nor did the finalization after it. -/
  | broken
  /-- It was initialized, and `finalize_storages()` did not return. -/
  | givenUp
  deriving DecidableEq, Repr

/-- The sections under `_rag_condition`, each with what follows it. -/
inductive Section where
  | startEnter
  | startPublish (rag : Nat)
  /-- The `finally` of the three transitions; `ok` says that nothing was raised. -/
  | leave (ok : Bool)
  | stopEnter
  | stopDrain
  | restartEnter (fallback : Bool)
  | restartDrain (fallback : Bool)
  | restartPublish (rag : Nat) (fallback : Bool)
  | restorePublish (rag : Nat)
  | clientEnter
  | clientLeave (ok : Bool)
  deriving DecidableEq, Repr

/-- Where an operation is suspended, or how it ended. -/
inductive Point where
  /-- At the `async with`, which waits for the lock. -/
  | acquiring (code : Section)
  /-- At `wait_for`, with the lock released. -/
  | waiting (code : Section)
  /-- At the end of a wait, which waits for the lock. -/
  | reacquiring (code : Section) (cancelled : Bool)
  | startInit (rag : Nat)
  | startCleanup (rag : Nat)
  | stopFinalize (rag : Nat)
  | restartFinalize (rag : Nat) (fallback : Bool)
  | restartInit (rag : Nat) (fallback : Bool)
  | restartCleanup (rag : Nat) (fallback : Bool)
  | restoreInit (rag : Nat)
  | restoreCleanup (rag : Nat)
  /-- In the body of `lightrag_client`. -/
  | lent (rag : Nat)
  | done (ok : Bool)
  deriving DecidableEq, Repr

/-- The globals of the module, with the instances built so far and the
operations begun so far. -/
structure RagState where
  locked : Bool := false
  rag : Option Nat := none
  active : Int := 0
  transitioning : Bool := false
  instances : Nat → InstanceStatus := fun _ => .unbuilt
  next : Nat := 0
  tasks : List Point := []

namespace RagState

/-- The lock is released. -/
def release (s : RagState) : RagState := { s with locked := false }

/-- An instance changes. -/
def setInstance (s : RagState) (rag : Nat) (status : InstanceStatus) : RagState :=
  { s with instances := Function.update s.instances rag status }

/-- `_build_lightrag`, and the call of `initialize_storages()`. -/
def build (s : RagState) : RagState :=
  { s.setInstance s.next .initializing with next := s.next + 1 }

/-! ### Sections

Each begins with the lock held, and goes on to where the operation is suspended
next.  The answers `first` and `second` say whether the next two calls of
`_build_lightrag` return. -/

/-- `_rag_transitioning = False`, at the end of every transition. -/
def leaveBody (ok : Bool) (s : RagState) : RagState × Point :=
  (({ s with transitioning := false }).release, .done ok)

/-- The `finally` of a transition. -/
def leaveTransition (ok : Bool) (s : RagState) : RagState × Point :=
  if s.locked then (s, .acquiring (.leave ok)) else leaveBody ok { s with locked := true }

/-- A new instance is set, and the transition left. -/
def publishBody (rag : Nat) (ok : Bool) (s : RagState) : RagState × Point :=
  leaveTransition ok ({ s with rag := some rag }).release

/-- `start_lightrag`. -/
def startBody (first : Bool) (s : RagState) : RagState × Point :=
  if s.transitioning then (s.release, .waiting .startEnter)
  else if s.rag.isSome then (s.release, .done true)
  else
    let s := ({ s with transitioning := true }).release
    if first then (s.build, .startInit s.next) else leaveTransition false s

/-- `stop_lightrag` where it waits for the clients. -/
def stopDrainBody (s : RagState) : RagState × Point :=
  if s.active = 0 then
    match s.rag with
    | some rag => (({ s with rag := none }).release.setInstance rag .finalizing, .stopFinalize rag)
    | none => leaveTransition true s.release
  else (s.release, .waiting .stopDrain)

/-- `stop_lightrag`. -/
def stopBody (s : RagState) : RagState × Point :=
  if s.transitioning then (s.release, .waiting .stopEnter)
  else stopDrainBody { s with transitioning := true }

/-- `_restore_lightrag`, if there is a fallback, and the end of the restart. -/
def restore (second fallback : Bool) (s : RagState) : RagState × Point :=
  if fallback && second then (s.build, .restoreInit s.next) else leaveTransition false s

/-- The replacement is built, or the restart fails without one. -/
def replace (first second fallback : Bool) (s : RagState) : RagState × Point :=
  if first then (s.build, .restartInit s.next fallback) else restore second fallback s

/-- `restart_lightrag` where it waits for the clients. -/
def restartDrainBody (first second fallback : Bool) (s : RagState) : RagState × Point :=
  if s.active = 0 then
    match s.rag with
    | some rag => (({ s with rag := none }).release.setInstance rag .finalizing,
        .restartFinalize rag fallback)
    | none => replace first second fallback s.release
  else (s.release, .waiting (.restartDrain fallback))

/-- `restart_lightrag`. -/
def restartBody (first second fallback : Bool) (s : RagState) : RagState × Point :=
  if s.transitioning then (s.release, .waiting (.restartEnter fallback))
  else restartDrainBody first second fallback { s with transitioning := true }

/-- `lightrag_client`, up to its `yield`. -/
def clientBody (s : RagState) : RagState × Point :=
  if s.transitioning then (s.release, .waiting .clientEnter)
  else
    match s.rag with
    | none => (s.release, .done false)
    | some rag => (({ s with active := s.active + 1 }).release, .lent rag)

/-- `lightrag_client`, after its `yield`. -/
def clientLeaveBody (ok : Bool) (s : RagState) : RagState × Point :=
  (({ s with active := s.active - 1 }).release, .done ok)

/-- A section with the lock held. -/
def sectionBody (first second : Bool) : Section → RagState → RagState × Point
  | .startEnter => startBody first
  | .startPublish rag => publishBody rag true
  | .leave ok => leaveBody ok
  | .stopEnter => stopBody
  | .stopDrain => stopDrainBody
  | .restartEnter fallback => restartBody first second fallback
  | .restartDrain fallback => restartDrainBody first second fallback
  | .restartPublish rag _ => publishBody rag true
  | .restorePublish rag => publishBody rag false
  | .clientEnter => clientBody
  | .clientLeave ok => clientLeaveBody ok

/-- `async with _rag_condition`: a lock that is free is taken at once. -/
def enter (first second : Bool) (code : Section) (s : RagState) : RagState × Point :=
  if s.locked then (s, .acquiring code) else sectionBody first second code { s with locked := true }

/-- A section that was cancelled where it waited, with the lock held again. -/
def waitCancelled (s : RagState) : Section → RagState × Point
  | .stopDrain => (({ s with transitioning := false }).release, .done false)
  | .restartDrain _ => (({ s with transitioning := false }).release, .done false)
  | _ => (s.release, .done false)

/-- An operation that was cancelled where it waited for the lock. -/
def acquireCancelled (s : RagState) : Section → RagState × Point
  | .startPublish _ => leaveTransition false s
  | .restartPublish rag fallback => (s.setInstance rag .finalizing, .restartCleanup rag fallback)
  | .restorePublish _ => leaveTransition false s
  | _ => (s, .done false)

/-- What an awaited call answers. -/
inductive Answer where
  | returned
  | failed
  | cancelled
  deriving DecidableEq, Repr

/-- The condition is waited for again, or a cancellation is raised. -/
def wakes (first second : Bool) (answer : Answer) (code : Section) (s : RagState) :
    RagState × Point :=
  match answer with
  | .cancelled =>
      if s.locked then (s, .reacquiring code true) else waitCancelled { s with locked := true } code
  | _ =>
      if s.locked then (s, .reacquiring code false)
      else sectionBody first second code { s with locked := true }

/-- What an operation does when what it awaits has answered. -/
def resume (first second : Bool) (answer : Answer) (s : RagState) : Point → Option (RagState × Point)
  | .acquiring code =>
      match answer with
      | .cancelled => some (acquireCancelled s code)
      | _ =>
          if s.locked then none else some (sectionBody first second code { s with locked := true })
  | .waiting code => some (wakes first second answer code s)
  | .reacquiring code cancelled =>
      match answer with
      | .cancelled => some (s, .reacquiring code true)
      | _ =>
          if s.locked then none
          else if cancelled then some (waitCancelled { s with locked := true } code)
          else some (sectionBody first second code { s with locked := true })
  | .startInit rag =>
      match answer with
      | .returned => some (enter first second (.startPublish rag) (s.setInstance rag .initialized))
      | _ => some (s.setInstance rag .finalizing, .startCleanup rag)
  | .startCleanup rag =>
      match answer with
      | .returned => some (leaveTransition false (s.setInstance rag .finalized))
      | _ => some (leaveTransition false (s.setInstance rag .broken))
  | .stopFinalize rag =>
      match answer with
      | .returned => some (leaveTransition true (s.setInstance rag .finalized))
      | _ => some (leaveTransition false (s.setInstance rag .givenUp))
  | .restartFinalize rag fallback =>
      match answer with
      | .returned => some (replace first second fallback (s.setInstance rag .finalized))
      | _ => some (restore second fallback (s.setInstance rag .givenUp))
  | .restartInit rag fallback =>
      match answer with
      | .returned =>
          some (enter first second (.restartPublish rag fallback) (s.setInstance rag .initialized))
      | _ => some (s.setInstance rag .finalizing, .restartCleanup rag fallback)
  | .restartCleanup rag fallback =>
      match answer with
      | .returned => some (restore second fallback (s.setInstance rag .finalized))
      | .failed => some (restore second fallback (s.setInstance rag .broken))
      | .cancelled => some (leaveTransition false (s.setInstance rag .broken))
  | .restoreInit rag =>
      match answer with
      | .returned => some (enter first second (.restorePublish rag) (s.setInstance rag .initialized))
      | .failed => some (s.setInstance rag .finalizing, .restoreCleanup rag)
      | .cancelled => some (leaveTransition false (s.setInstance rag .broken))
  | .restoreCleanup rag =>
      match answer with
      | .returned => some (leaveTransition false (s.setInstance rag .finalized))
      | _ => some (leaveTransition false (s.setInstance rag .broken))
  | .lent _ =>
      match answer with
      | .returned => some (enter first second (.clientLeave true) s)
      | _ => some (enter first second (.clientLeave false) s)
  | .done _ => none

end RagState

open RagState

/-- An operation begins, or one goes on. -/
inductive RagEvent where
  | startLightrag (first : Bool)
  | stopLightrag
  | restartLightrag (fallback first second : Bool)
  | lightragClient
  | resumes (task : Nat) (answer : Answer) (first second : Bool)
  deriving DecidableEq, Repr

/-- A new operation. -/
def beginOperation (first second : Bool) (code : Section) (s : RagState) : RagState :=
  let next := s.enter first second code
  { next.1 with tasks := s.tasks ++ [next.2] }

/-- One step. -/
def step (s : RagState) : RagEvent → Option RagState
  | .startLightrag first => some (beginOperation first false .startEnter s)
  | .stopLightrag => some (beginOperation false false .stopEnter s)
  | .restartLightrag fallback first second => some (beginOperation first second (.restartEnter fallback) s)
  | .lightragClient => some (beginOperation false false .clientEnter s)
  | .resumes task answer first second =>
      match s.tasks[task]? with
      | none => none
      | some point =>
          match s.resume first second answer point with
          | none => none
          | some next => some { next.1 with tasks := s.tasks.set task next.2 }

/-- Nothing has begun at first. -/
def ragMachine : Machine RagState RagEvent where
  Start s := s = {}
  step := step

/-! ### Safety -/

/-- **The lifecycle is safe**: a lent instance is neither finalized nor on the
way, at most one instance is initialized and not given up outside a transition,
and without operations the counter and the flag are down. -/
structure LifecycleSafe (s : RagState) : Prop where
  lent : ∀ rag, .lent rag ∈ s.tasks → s.instances rag = .initialized
  single : s.transitioning = false → ∀ a b, s.instances a = .initialized →
    s.instances b = .initialized → a = b
  idle : (∀ p ∈ s.tasks, ∃ ok, p = .done ok) → s.active = 0 ∧ s.transitioning = false

/-- An instance was initialized, and no finalization of it has returned. -/
def Unfinalized (status : InstanceStatus) : Prop :=
  status = .initialized ∨ status = .givenUp

/-- At most one instance is initialized and not finalized outside a transition. -/
def SingleUnfinalized (s : RagState) : Prop :=
  s.transitioning = false → ∀ a b, Unfinalized (s.instances a) → Unfinalized (s.instances b) → a = b

/-! ### Points -/

/-- The operation has taken the instance away, or found none. -/
def Point.holds : Point → Bool
  | .startInit _ => true
  | .startCleanup _ => true
  | .stopFinalize _ => true
  | .restartFinalize _ _ => true
  | .restartInit _ _ => true
  | .restartCleanup _ _ => true
  | .restoreInit _ => true
  | .restoreCleanup _ => true
  | _ => false

/-- The operation waits for the clients to leave. -/
def Point.drains : Point → Bool
  | .waiting .stopDrain => true
  | .waiting (.restartDrain _) => true
  | _ => false

/-- The operation has set the flag. -/
def Point.transition (p : Point) : Bool := p.holds || p.drains

/-- The operation is a client with an instance. -/
def Point.isLent : Point → Bool
  | .lent _ => true
  | _ => false

/-- Where operations can be: nothing waits for the lock. -/
def Point.Settled : Point → Prop
  | .acquiring _ => False
  | .reacquiring _ _ => False
  | .waiting .startEnter => True
  | .waiting .stopEnter => True
  | .waiting .stopDrain => True
  | .waiting (.restartEnter _) => True
  | .waiting (.restartDrain _) => True
  | .waiting .clientEnter => True
  | .waiting _ => False
  | _ => True

/-- The invariant, for the points where the operations are. -/
structure RagInv (s : RagState) (points : List Point) : Prop where
  unlocked : s.locked = false
  settled : ∀ p ∈ points, p.Settled
  users : s.active = (points.countP Point.isLent : Int)
  owner : points.countP Point.transition = if s.transitioning then 1 else 0
  given : ∀ rag, .lent rag ∈ points → s.rag = some rag
  current : ∀ rag, s.instances rag = .initialized ↔ s.rag = some rag
  empty : ∀ p ∈ points, p.holds = true → s.rag = none

section Invariant

variable {s t : RagState} {p q : Point} {others points : List Point}

/-- The order of the operations does not matter. -/
theorem RagInv.perm (h : RagInv s points) (hperm : points.Perm others) : RagInv s others where
  unlocked := h.unlocked
  settled r hr := h.settled r (hperm.mem_iff.mpr hr)
  users := by rw [h.users, hperm.countP_eq]
  owner := by rw [← h.owner, hperm.countP_eq]
  given rag hrag := h.given rag (hperm.mem_iff.mpr hrag)
  current := h.current
  empty r hr := h.empty r (hperm.mem_iff.mpr hr)

/-- The invariant reads these fields only. -/
theorem RagInv.congr (h : RagInv s points) (hunlocked : t.locked = false) (hrag : t.rag = s.rag)
    (hactive : t.active = s.active) (hflag : t.transitioning = s.transitioning)
    (hinstances : t.instances = s.instances) : RagInv t points := by
  obtain ⟨-, settled, users, owner, given, current, empty⟩ := h
  constructor
  · exact hunlocked
  · exact settled
  · rwa [hactive]
  · rwa [hflag]
  · rwa [hrag]
  · rwa [hinstances, hrag]
  · rwa [hrag]

/-- An operation that neither has the flag nor an instance. -/
def Point.Neutral (p : Point) : Prop :=
  p.transition = false ∧ p.isLent = false

theorem Point.Neutral.holds (h : p.Neutral) : p.holds = false :=
  (Bool.or_eq_false_iff.mp h.1).1

/-- A neutral operation may be added or replaced by another. -/
theorem RagInv.addNeutral (h : RagInv s others) (hq : q.Neutral) (hsettled : q.Settled) :
    RagInv s (q :: others) where
  unlocked := h.unlocked
  settled := List.forall_mem_cons.mpr ⟨hsettled, h.settled⟩
  users := by rw [List.countP_cons_of_neg (by rw [hq.2]; simp), h.users]
  owner := by rw [List.countP_cons_of_neg (by rw [hq.1]; simp), h.owner]
  given rag hrag := by
    rcases List.mem_cons.mp hrag with rfl | hrag
    · exact absurd hq.2 (by simp [Point.isLent])
    · exact h.given rag hrag
  current := h.current
  empty r hr hholds := by
    rcases List.mem_cons.mp hr with rfl | hr
    · rw [hq.holds] at hholds
      cases hholds
    · exact h.empty r hr hholds

/-- Without a neutral operation. -/
theorem RagInv.dropNeutral (h : RagInv s (p :: others)) (hp : p.Neutral) : RagInv s others where
  unlocked := h.unlocked
  settled r hr := h.settled r (List.mem_cons_of_mem _ hr)
  users := by rw [h.users, List.countP_cons_of_neg (by rw [hp.2]; simp)]
  owner := by rw [← h.owner, List.countP_cons_of_neg (by rw [hp.1]; simp)]
  given rag hrag := h.given rag (List.mem_cons_of_mem _ hrag)
  current := h.current
  empty r hr := h.empty r (List.mem_cons_of_mem _ hr)

/-- A transition is alone, and the flag is set. -/
theorem RagInv.alone (h : RagInv s (p :: others)) (hp : p.transition = true) :
    s.transitioning = true ∧ others.countP Point.transition = 0 := by
  have howner := h.owner
  rw [List.countP_cons_of_pos hp] at howner
  cases hflag : s.transitioning with
  | true =>
      rw [hflag, if_pos rfl] at howner
      exact ⟨rfl, by omega⟩
  | false =>
      rw [hflag] at howner
      simp at howner

/-- Without the flag nothing is in transition. -/
theorem RagInv.noTransition (h : RagInv s points) (hflag : s.transitioning = false) :
    points.countP Point.transition = 0 := by
  rw [h.owner, hflag]
  rfl

theorem holds_of_countP (h : others.countP Point.transition = 0) : ∀ r ∈ others, r.holds = false := by
  intro r hr
  have hnot := List.countP_eq_zero.mp h r hr
  cases hholds : r.holds with
  | false => rfl
  | true => exact absurd (by rw [Point.transition, hholds]; rfl) hnot

/-- Where nothing is set, nothing is lent. -/
theorem RagInv.unlent (h : RagInv s points) (hrag : s.rag = none) :
    s.active = 0 ∧ ∀ rag, .lent rag ∉ points := by
  have hnone : ∀ rag, Point.lent rag ∉ points := by
    intro rag hmem
    have hgiven := h.given rag hmem
    rw [hrag] at hgiven
    cases hgiven
  refine ⟨?_, hnone⟩
  rw [h.users, Int.natCast_eq_zero, List.countP_eq_zero]
  intro r hr hlent
  cases r <;> simp [Point.isLent] at hlent
  exact hnone _ hr

/-- A transition that has taken the instance away changes where it is, and the
instances it built. -/
theorem RagInv.moves (h : RagInv s (p :: others)) (hp : p.holds = true) (hq : q.holds = true)
    (hsettled : q.Settled) (hunlocked : t.locked = false) (hrag : t.rag = s.rag)
    (hactive : t.active = s.active) (hflag : t.transitioning = s.transitioning)
    (hinstances : ∀ rag, t.instances rag = .initialized → s.instances rag = .initialized) :
    RagInv t (q :: others) := by
  have hnone : s.rag = none := h.empty p List.mem_cons_self hp
  have hunlent := (h.unlent hnone).2
  have hqlent : q.isLent = false := by cases q <;> first | rfl | cases hq
  have hplent : p.isLent = false := by cases p <;> first | rfl | cases hp
  have hpt : p.transition = true := by rw [Point.transition, hp]; rfl
  have hqt : q.transition = true := by rw [Point.transition, hq]; rfl
  constructor
  · exact hunlocked
  · exact List.forall_mem_cons.mpr ⟨hsettled, fun r hr => h.settled r (List.mem_cons_of_mem _ hr)⟩
  · rw [hactive, h.users, List.countP_cons_of_neg (by simp [hplent]),
      List.countP_cons_of_neg (by simp [hqlent])]
  · rw [hflag, ← h.owner, List.countP_cons_of_pos hpt, List.countP_cons_of_pos hqt]
  · intro rag hmem
    rcases List.mem_cons.mp hmem with rfl | hmem
    · cases hqlent
    · exact absurd (List.mem_cons_of_mem _ hmem) (hunlent rag)
  · intro rag
    rw [hrag, hnone]
    constructor
    · intro hinit
      rw [← hnone]
      exact (h.current rag).mp (hinstances rag hinit)
    · exact fun hsome => by cases hsome
  · intro _ _ _
    rw [hrag, hnone]

/-- A transition ends: the flag is taken down. -/
theorem RagInv.ends (h : RagInv s (p :: others)) (hp : p.transition = true) (ok : Bool)
    (hunlocked : t.locked = false) (hrag : t.rag = s.rag) (hactive : t.active = s.active)
    (hflag : t.transitioning = false) (hinstances : t.instances = s.instances) :
    RagInv t (.done ok :: others) := by
  have hplent : p.isLent = false := by cases p <;> first | rfl | cases hp
  obtain ⟨-, hzero⟩ := h.alone hp
  refine RagInv.addNeutral ?_ ⟨rfl, rfl⟩ trivial
  constructor
  · exact hunlocked
  · exact fun r hr => h.settled r (List.mem_cons_of_mem _ hr)
  · rw [hactive, h.users, List.countP_cons_of_neg (by simp [hplent])]
  · rw [hflag, hzero]
    rfl
  · exact fun rag hmem => (h.given rag (List.mem_cons_of_mem _ hmem)) ▸ hrag
  · rw [hinstances, hrag]
    exact h.current
  · intro r hr hholds
    rw [holds_of_countP hzero r hr] at hholds
    cases hholds

/-- A transition ends with a new instance. -/
theorem RagInv.publishes (h : RagInv s (p :: others)) (hp : p.holds = true) (rag : Nat) (ok : Bool)
    (hunlocked : t.locked = false) (hrag : t.rag = some rag) (hactive : t.active = s.active)
    (hflag : t.transitioning = false)
    (hinstances : t.instances = Function.update s.instances rag .initialized) :
    RagInv t (.done ok :: others) := by
  have hnone : s.rag = none := h.empty p List.mem_cons_self hp
  obtain ⟨hzero, hunlent⟩ := h.unlent hnone
  have hpt : p.transition = true := by rw [Point.transition, hp]; rfl
  have hplent : p.isLent = false := by cases p <;> first | rfl | cases hp
  obtain ⟨-, hcount⟩ := h.alone hpt
  refine RagInv.addNeutral ?_ ⟨rfl, rfl⟩ trivial
  constructor
  · exact hunlocked
  · exact fun r hr => h.settled r (List.mem_cons_of_mem _ hr)
  · rw [hactive, h.users, List.countP_cons_of_neg (by simp [hplent])]
  · rw [hflag, hcount]
    rfl
  · exact fun other hmem => absurd (List.mem_cons_of_mem _ hmem) (hunlent other)
  · intro other
    rw [hinstances, hrag]
    by_cases hother : other = rag
    · rw [hother, Function.update_self]
      exact ⟨fun _ => rfl, fun _ => rfl⟩
    · rw [Function.update_of_ne hother, h.current, hnone]
      constructor
      · exact fun hsome => by cases hsome
      · exact fun hsome => absurd (Option.some.inj hsome).symm hother
  · intro r hr hholds
    rw [holds_of_countP hcount r hr] at hholds
    cases hholds

/-- A transition begins: the flag is set. -/
theorem RagInv.begins (h : RagInv s (p :: others)) (hp : p.Neutral) (hfree : s.transitioning = false)
    (hq : q.transition = true) (hsettled : q.Settled) (hholds : q.holds = true → s.rag = none)
    (hunlocked : t.locked = false) (hrag : t.rag = s.rag) (hactive : t.active = s.active)
    (hflag : t.transitioning = true) (hinstances : t.instances = s.instances) :
    RagInv t (q :: others) := by
  have hothers := h.dropNeutral hp
  have hqlent : q.isLent = false := by cases q <;> first | rfl | cases hq
  constructor
  · exact hunlocked
  · exact List.forall_mem_cons.mpr ⟨hsettled, hothers.settled⟩
  · rw [hactive, hothers.users, List.countP_cons_of_neg (by simp [hqlent])]
  · rw [hflag, List.countP_cons_of_pos hq, hothers.noTransition hfree]
    rfl
  · intro rag hmem
    rcases List.mem_cons.mp hmem with rfl | hmem
    · cases hqlent
    · exact (hothers.given rag hmem) ▸ hrag
  · rw [hinstances, hrag]
    exact h.current
  · intro r hr hr'
    rw [hrag]
    rcases List.mem_cons.mp hr with rfl | hr
    · exact hholds hr'
    · exact hothers.empty r hr hr'

/-- A transition takes the instance away when the last client has left. -/
theorem RagInv.takes (h : RagInv s (p :: others)) (hp : p.transition = true) (hzero : s.active = 0)
    (hq : q.holds = true) (hsettled : q.Settled) (hunlocked : t.locked = false)
    (hrag : t.rag = none) (hactive : t.active = s.active) (hflag : t.transitioning = s.transitioning)
    (hinstances : ∀ rag, t.instances rag ≠ .initialized) : RagInv t (q :: others) := by
  have hplent : p.isLent = false := by cases p <;> first | rfl | cases hp
  have hqlent : q.isLent = false := by cases q <;> first | rfl | cases hq
  have hqt : q.transition = true := by rw [Point.transition, hq]; rfl
  have hcount : others.countP Point.isLent = 0 := by
    have husers := h.users
    rw [hzero, List.countP_cons_of_neg (by simp [hplent])] at husers
    omega
  constructor
  · exact hunlocked
  · exact List.forall_mem_cons.mpr ⟨hsettled, fun r hr => h.settled r (List.mem_cons_of_mem _ hr)⟩
  · rw [hactive, hzero, List.countP_cons_of_neg (by simp [hqlent]), hcount]
    rfl
  · rw [hflag, ← h.owner, List.countP_cons_of_pos hp, List.countP_cons_of_pos hqt]
  · intro rag hmem
    rcases List.mem_cons.mp hmem with rfl | hmem
    · cases hqlent
    · exact absurd rfl (List.countP_eq_zero.mp hcount _ hmem)
  · intro rag
    rw [hrag]
    exact iff_of_false (hinstances rag) (fun hsome => by cases hsome)
  · intro _ _ _
    exact hrag

/-- A client is lent the instance. -/
theorem RagInv.lends (h : RagInv s (p :: others)) (hp : p.Neutral) {rag : Nat}
    (hthere : s.rag = some rag) (hunlocked : t.locked = false) (hrag : t.rag = s.rag)
    (hactive : t.active = s.active + 1) (hflag : t.transitioning = s.transitioning)
    (hinstances : t.instances = s.instances) : RagInv t (.lent rag :: others) := by
  have hothers := h.dropNeutral hp
  constructor
  · exact hunlocked
  · exact List.forall_mem_cons.mpr ⟨trivial, hothers.settled⟩
  · rw [hactive, hothers.users, List.countP_cons_of_pos rfl]
    omega
  · rw [hflag, ← hothers.owner, List.countP_cons_of_neg (by simp [Point.transition, Point.holds,
      Point.drains])]
  · intro other hmem
    rcases List.mem_cons.mp hmem with heq | hmem
    · obtain rfl := Point.lent.inj heq
      exact hrag.trans hthere
    · exact (hothers.given other hmem) ▸ hrag
  · rw [hinstances, hrag]
    exact h.current
  · intro r hr hholds
    rcases List.mem_cons.mp hr with rfl | hr
    · cases hholds
    · rw [hrag]
      exact hothers.empty r hr hholds

/-- A client gives its instance back. -/
theorem RagInv.givesBack {rag : Nat} (h : RagInv s (.lent rag :: others)) (ok : Bool)
    (hunlocked : t.locked = false) (hrag : t.rag = s.rag) (hactive : t.active = s.active - 1)
    (hflag : t.transitioning = s.transitioning) (hinstances : t.instances = s.instances) :
    RagInv t (.done ok :: others) := by
  refine RagInv.addNeutral ?_ ⟨rfl, rfl⟩ trivial
  constructor
  · exact hunlocked
  · exact fun r hr => h.settled r (List.mem_cons_of_mem _ hr)
  · rw [hactive, h.users, List.countP_cons_of_pos rfl]
    omega
  · rw [hflag, ← h.owner, List.countP_cons_of_neg (by simp [Point.transition, Point.holds,
      Point.drains])]
  · exact fun other hmem => (h.given other (List.mem_cons_of_mem _ hmem)) ▸ hrag
  · rw [hinstances, hrag]
    exact h.current
  · intro r hr hholds
    rw [hrag]
    exact h.empty r (List.mem_cons_of_mem _ hr) hholds

/-! ### Sections -/

/-- The result of a piece of an operation keeps the invariant. -/
def Keeps (next : RagState × Point) (others : List Point) : Prop :=
  RagInv next.1 (next.2 :: others)

/-- An instance that is set to what is not initialized was not initialized
before, unless it is another. -/
theorem update_initialized {instances : Nat → InstanceStatus} {rag other : Nat}
    {status : InstanceStatus} (hstatus : status ≠ .initialized)
    (h : Function.update instances rag status other = .initialized) :
    instances other = .initialized := by
  by_cases hother : other = rag
  · rw [hother, Function.update_self] at h
    exact absurd h hstatus
  · rwa [Function.update_of_ne hother] at h

theorem leave_keeps (h : RagInv s (p :: others)) (hp : p.transition = true) (ok : Bool) :
    Keeps (leaveTransition ok s) others := by
  unfold leaveTransition
  rw [if_neg (by simp [h.unlocked])]
  exact h.ends hp ok rfl rfl rfl rfl rfl

theorem Point.transition_of_holds (h : p.holds = true) : p.transition = true := by
  rw [Point.transition, h]
  rfl

/-- An instance of a transition changes. -/
theorem setInstance_keeps (h : RagInv s (p :: others)) (hp : p.holds = true) (rag : Nat)
    {status : InstanceStatus} (hstatus : status ≠ .initialized) :
    RagInv (s.setInstance rag status) (p :: others) :=
  h.moves hp hp (h.settled p List.mem_cons_self) h.unlocked rfl rfl rfl
    (fun _ hinit => update_initialized hstatus hinit)

theorem build_keeps (h : RagInv s (p :: others)) (hp : p.holds = true) (hq : q.holds = true)
    (hsettled : q.Settled) : Keeps (s.build, q) others :=
  h.moves hp hq hsettled h.unlocked rfl rfl rfl
    (fun _ hinit => update_initialized (by simp) hinit)

theorem restore_keeps (h : RagInv s (p :: others)) (hp : p.holds = true) (second fallback : Bool) :
    Keeps (restore second fallback s) others := by
  unfold restore
  split
  · exact build_keeps h hp rfl trivial
  · exact leave_keeps h (Point.transition_of_holds hp) false

theorem replace_keeps (h : RagInv s (p :: others)) (hp : p.holds = true)
    (first second fallback : Bool) : Keeps (replace first second fallback s) others := by
  unfold replace
  split
  · exact build_keeps h hp rfl trivial
  · exact restore_keeps h hp second fallback

/-- A new instance is published, and the transition ends. -/
theorem publish_keeps (h : RagInv s (p :: others)) (hp : p.holds = true) (rag : Nat) (ok : Bool) :
    Keeps (publishBody rag ok { s.setInstance rag .initialized with locked := true }) others := by
  unfold publishBody leaveTransition
  exact h.publishes hp rag ok rfl rfl rfl rfl rfl

theorem start_keeps (h : RagInv s (p :: others)) (hp : p.Neutral) (first : Bool) :
    Keeps (startBody first { s with locked := true }) others := by
  have hreleased : RagInv ({ s with locked := true }).release others :=
    (h.dropNeutral hp).congr rfl rfl rfl rfl rfl
  unfold startBody
  split
  · exact hreleased.addNeutral ⟨rfl, rfl⟩ trivial
  · rename_i hfree
    split
    · exact hreleased.addNeutral ⟨rfl, rfl⟩ trivial
    · rename_i hnone
      have hfalse : s.transitioning = false := by simpa using hfree
      have hrag : s.rag = none := by simpa using hnone
      -- the flag is set, and the instance is initialized as if it had been built before
      have hflagged : RagInv ({ s with transitioning := true }) (.startInit s.next :: others) :=
        h.begins hp hfalse rfl trivial (fun _ => hrag) h.unlocked rfl rfl rfl rfl
      have hset : RagInv ({ s with locked := true, transitioning := true }).release
          (.startInit s.next :: others) := hflagged.congr rfl rfl rfl rfl rfl
      cases first with
      | true => exact build_keeps hset rfl rfl trivial
      | false => exact leave_keeps hset rfl false

/-- A transition that waits for the clients goes on waiting. -/
theorem RagInv.waits (h : RagInv s (p :: others)) (hp : p.transition = true)
    (hq : q.drains = true) (hsettled : q.Settled) (hunlocked : t.locked = false)
    (hrag : t.rag = s.rag) (hactive : t.active = s.active)
    (hflag : t.transitioning = s.transitioning) (hinstances : t.instances = s.instances) :
    RagInv t (q :: others) := by
  have hplent : p.isLent = false := by cases p <;> first | rfl | cases hp
  have hqlent : q.isLent = false := by cases q <;> first | rfl | cases hq
  have hqholds : q.holds = false := by cases q <;> first | rfl | cases hq
  have hqt : q.transition = true := by rw [Point.transition, hq, Bool.or_true]
  constructor
  · exact hunlocked
  · exact List.forall_mem_cons.mpr ⟨hsettled, fun r hr => h.settled r (List.mem_cons_of_mem _ hr)⟩
  · rw [hactive, h.users, List.countP_cons_of_neg (by simp [hplent]),
      List.countP_cons_of_neg (by simp [hqlent])]
  · rw [hflag, ← h.owner, List.countP_cons_of_pos hp, List.countP_cons_of_pos hqt]
  · intro rag hmem
    rcases List.mem_cons.mp hmem with rfl | hmem
    · cases hqlent
    · exact (h.given rag (List.mem_cons_of_mem _ hmem)) ▸ hrag
  · rw [hinstances, hrag]
    exact h.current
  · intro r hr hholds
    rw [hrag]
    rcases List.mem_cons.mp hr with rfl | hr
    · rw [hqholds] at hholds
      cases hholds
    · exact h.empty r (List.mem_cons_of_mem _ hr) hholds

/-- The instance that is set is the only initialized one. -/
theorem finalizing_current (h : RagInv s points) {rag : Nat} (hrag : s.rag = some rag)
    (other : Nat) : Function.update s.instances rag .finalizing other ≠ .initialized := by
  intro hinit
  have hold := update_initialized (by simp) hinit
  rw [h.current, hrag] at hold
  obtain rfl := Option.some.inj hold
  rw [Function.update_self] at hinit
  cases hinit

/-- The clients have left, or the wait goes on. -/
theorem stopDrain_keeps (h : RagInv s (p :: others)) (hp : p.transition = true) :
    Keeps (stopDrainBody { s with locked := true }) others := by
  unfold stopDrainBody
  split
  · rename_i hzero
    split
    · rename_i rag hrag
      exact h.takes hp hzero rfl trivial rfl rfl rfl rfl (finalizing_current h hrag)
    · have hreleased : RagInv ({ s with locked := true }).release (p :: others) :=
        h.congr rfl rfl rfl rfl rfl
      exact leave_keeps hreleased hp true
  · exact h.waits hp rfl trivial rfl rfl rfl rfl rfl

theorem restartDrain_keeps (h : RagInv s (p :: others)) (hp : p.transition = true)
    (first second fallback : Bool) :
    Keeps (restartDrainBody first second fallback { s with locked := true }) others := by
  unfold restartDrainBody
  split
  · rename_i hzero
    split
    · rename_i rag hrag
      exact h.takes hp hzero rfl trivial rfl rfl rfl rfl (finalizing_current h hrag)
    · rename_i hrag
      -- there was no instance to finalize
      have hnone : ∀ rag, s.instances rag ≠ .initialized := by
        intro rag hinit
        rw [h.current, show s.rag = none from hrag] at hinit
        cases hinit
      have htaken : RagInv ({ s with locked := true }).release
          (.restartFinalize 0 fallback :: others) :=
        h.takes hp hzero rfl trivial rfl hrag rfl rfl hnone
      exact replace_keeps htaken rfl first second fallback
  · exact h.waits hp rfl trivial rfl rfl rfl rfl rfl

theorem stop_keeps (h : RagInv s (p :: others)) (hp : p.Neutral) :
    Keeps (stopBody { s with locked := true }) others := by
  unfold stopBody
  split
  · exact RagInv.addNeutral ((h.dropNeutral hp).congr rfl rfl rfl rfl rfl) ⟨rfl, rfl⟩ trivial
  · rename_i hfree
    have hfalse : s.transitioning = false := by simpa using hfree
    have hflagged : RagInv { s with transitioning := true } (.waiting .stopDrain :: others) :=
      h.begins hp hfalse rfl trivial (fun hholds => by cases hholds) h.unlocked rfl rfl rfl rfl
    exact stopDrain_keeps hflagged rfl

theorem restart_keeps (h : RagInv s (p :: others)) (hp : p.Neutral)
    (first second fallback : Bool) :
    Keeps (restartBody first second fallback { s with locked := true }) others := by
  unfold restartBody
  split
  · exact RagInv.addNeutral ((h.dropNeutral hp).congr rfl rfl rfl rfl rfl) ⟨rfl, rfl⟩ trivial
  · rename_i hfree
    have hfalse : s.transitioning = false := by simpa using hfree
    have hflagged : RagInv { s with transitioning := true }
        (.waiting (.restartDrain fallback) :: others) :=
      h.begins hp hfalse rfl trivial (fun hholds => by cases hholds) h.unlocked rfl rfl rfl rfl
    exact restartDrain_keeps hflagged rfl first second fallback

theorem client_keeps (h : RagInv s (p :: others)) (hp : p.Neutral) :
    Keeps (clientBody { s with locked := true }) others := by
  have hreleased : RagInv ({ s with locked := true }).release others :=
    (h.dropNeutral hp).congr rfl rfl rfl rfl rfl
  unfold clientBody
  split
  · exact hreleased.addNeutral ⟨rfl, rfl⟩ trivial
  · split
    · exact hreleased.addNeutral ⟨rfl, rfl⟩ trivial
    · rename_i rag hrag
      exact h.lends hp hrag rfl rfl rfl rfl rfl

/-- A wait goes on, or ends with what the section does. -/
theorem wait_keeps {code : Section} (h : RagInv s (.waiting code :: others))
    (first second : Bool) : Keeps (sectionBody first second code { s with locked := true }) others := by
  have hsettled := h.settled _ List.mem_cons_self
  cases code with
  | startEnter => exact start_keeps h ⟨rfl, rfl⟩ first
  | stopEnter => exact stop_keeps h ⟨rfl, rfl⟩
  | stopDrain => exact stopDrain_keeps h rfl
  | restartEnter fallback => exact restart_keeps h ⟨rfl, rfl⟩ first second fallback
  | restartDrain fallback => exact restartDrain_keeps h rfl first second fallback
  | clientEnter => exact client_keeps h ⟨rfl, rfl⟩
  | startPublish rag => exact hsettled.elim
  | leave ok => exact hsettled.elim
  | restartPublish rag fallback => exact hsettled.elim
  | restorePublish rag => exact hsettled.elim
  | clientLeave ok => exact hsettled.elim

/-- A cancelled wait gives the flag back, if it has it. -/
theorem waitCancelled_keeps {code : Section} (h : RagInv s (.waiting code :: others)) :
    Keeps (waitCancelled { s with locked := true } code) others := by
  have hneutral : Point.Neutral (.waiting code) →
      RagInv ({ s with locked := true }).release (.done false :: others) := fun hp =>
    RagInv.addNeutral ((h.dropNeutral hp).congr rfl rfl rfl rfl rfl) ⟨rfl, rfl⟩ trivial
  have hsettled := h.settled _ List.mem_cons_self
  cases code with
  | startEnter => exact hneutral ⟨rfl, rfl⟩
  | stopEnter => exact hneutral ⟨rfl, rfl⟩
  | stopDrain => exact h.ends rfl false rfl rfl rfl rfl rfl
  | restartEnter fallback => exact hneutral ⟨rfl, rfl⟩
  | restartDrain fallback => exact h.ends rfl false rfl rfl rfl rfl rfl
  | clientEnter => exact hneutral ⟨rfl, rfl⟩
  | startPublish rag => exact hsettled.elim
  | leave ok => exact hsettled.elim
  | restartPublish rag fallback => exact hsettled.elim
  | restorePublish rag => exact hsettled.elim
  | clientLeave ok => exact hsettled.elim

/-! ### Steps -/

/-- **What an operation does when it goes on.** -/
theorem resume_keeps (h : RagInv s (p :: others)) (first second : Bool) (answer : Answer)
    {next : RagState × Point} (hnext : s.resume first second answer p = some next) :
    Keeps next others := by
  have hunlocked : ¬ s.locked = true := by simp [h.unlocked]
  cases p with
  | acquiring code => exact (h.settled _ List.mem_cons_self).elim
  | reacquiring code cancelled => exact (h.settled _ List.mem_cons_self).elim
  | done ok => cases hnext
  | waiting code =>
      obtain rfl := Option.some.inj hnext
      unfold wakes
      cases answer <;> simp only [if_neg hunlocked]
      · exact wait_keeps h first second
      · exact wait_keeps h first second
      · exact waitCancelled_keeps h
  | startInit rag =>
      cases answer <;> obtain rfl := Option.some.inj hnext
      · unfold enter
        rw [if_neg (show ¬ (s.setInstance rag .initialized).locked = true from hunlocked)]
        exact publish_keeps h rfl rag true
      · exact (setInstance_keeps h rfl rag (by simp)).moves rfl rfl trivial h.unlocked rfl rfl rfl
          (fun _ hinit => hinit)
      · exact (setInstance_keeps h rfl rag (by simp)).moves rfl rfl trivial h.unlocked rfl rfl rfl
          (fun _ hinit => hinit)
  | startCleanup rag =>
      cases answer <;> obtain rfl := Option.some.inj hnext <;>
        exact leave_keeps (setInstance_keeps h rfl rag (by simp)) rfl false
  | stopFinalize rag =>
      cases answer <;> obtain rfl := Option.some.inj hnext <;>
        exact leave_keeps (setInstance_keeps h rfl rag (by simp)) rfl _
  | restartFinalize rag fallback =>
      cases answer <;> obtain rfl := Option.some.inj hnext
      · exact replace_keeps (setInstance_keeps h rfl rag (by simp)) rfl first second fallback
      · exact restore_keeps (setInstance_keeps h rfl rag (by simp)) rfl second fallback
      · exact restore_keeps (setInstance_keeps h rfl rag (by simp)) rfl second fallback
  | restartInit rag fallback =>
      cases answer <;> obtain rfl := Option.some.inj hnext
      · unfold enter
        rw [if_neg (show ¬ (s.setInstance rag .initialized).locked = true from hunlocked)]
        exact publish_keeps h rfl rag true
      · exact (setInstance_keeps h rfl rag (by simp)).moves rfl rfl trivial h.unlocked rfl rfl rfl
          (fun _ hinit => hinit)
      · exact (setInstance_keeps h rfl rag (by simp)).moves rfl rfl trivial h.unlocked rfl rfl rfl
          (fun _ hinit => hinit)
  | restartCleanup rag fallback =>
      cases answer <;> obtain rfl := Option.some.inj hnext
      · exact restore_keeps (setInstance_keeps h rfl rag (by simp)) rfl second fallback
      · exact restore_keeps (setInstance_keeps h rfl rag (by simp)) rfl second fallback
      · exact leave_keeps (setInstance_keeps h rfl rag (by simp)) rfl false
  | restoreInit rag =>
      cases answer <;> obtain rfl := Option.some.inj hnext
      · unfold enter
        rw [if_neg (show ¬ (s.setInstance rag .initialized).locked = true from hunlocked)]
        exact publish_keeps h rfl rag false
      · exact (setInstance_keeps h rfl rag (by simp)).moves rfl rfl trivial h.unlocked rfl rfl rfl
          (fun _ hinit => hinit)
      · exact leave_keeps (setInstance_keeps h rfl rag (by simp)) rfl false
  | restoreCleanup rag =>
      cases answer <;> obtain rfl := Option.some.inj hnext <;>
        exact leave_keeps (setInstance_keeps h rfl rag (by simp)) rfl false
  | lent rag =>
      cases answer <;> obtain rfl := Option.some.inj hnext <;> unfold enter <;>
        rw [if_neg hunlocked] <;> exact h.givesBack _ rfl rfl rfl rfl rfl

/-- An operation begins. -/
theorem beginOperation_keeps {code : Section} (h : RagInv s s.tasks) (first second : Bool)
    (hneutral : Point.Neutral (.waiting code)) (hsettled : Point.Settled (.waiting code)) :
    RagInv (beginOperation first second code s) (beginOperation first second code s).tasks := by
  have hkept : Keeps (s.enter first second code) s.tasks := by
    unfold enter
    rw [if_neg (by simp [h.unlocked])]
    exact wait_keeps (h.addNeutral hneutral hsettled) first second
  have hperm : ((s.enter first second code).2 :: s.tasks).Perm
      (s.tasks ++ [(s.enter first second code).2]) := (List.perm_append_singleton _ _).symm
  have hinv : RagInv (s.enter first second code).1
    (s.tasks ++ [(s.enter first second code).2]) := hkept.perm hperm
  exact hinv.congr hinv.unlocked rfl rfl rfl rfl

end Invariant

/-- **One step keeps the invariant.** -/
theorem step_keeps {s t : RagState} {event : RagEvent} (h : RagInv s s.tasks)
    (hstep : step s event = some t) : RagInv t t.tasks := by
  cases event with
  | startLightrag first =>
      obtain rfl := Option.some.inj hstep
      exact beginOperation_keeps h first false ⟨rfl, rfl⟩ trivial
  | stopLightrag =>
      obtain rfl := Option.some.inj hstep
      exact beginOperation_keeps h false false ⟨rfl, rfl⟩ trivial
  | restartLightrag fallback first second =>
      obtain rfl := Option.some.inj hstep
      exact beginOperation_keeps h first second ⟨rfl, rfl⟩ trivial
  | lightragClient =>
      obtain rfl := Option.some.inj hstep
      exact beginOperation_keeps h false false ⟨rfl, rfl⟩ trivial
  | resumes task answer first second =>
      unfold step at hstep
      cases hpoint : s.tasks[task]? with
      | none => simp [hpoint] at hstep
      | some point =>
          simp only [hpoint] at hstep
          cases hnext : s.resume first second answer point with
          | none => simp [hnext] at hstep
          | some next =>
              simp only [hnext, Option.some.injEq] at hstep
              subst hstep
              obtain ⟨hlt, rfl⟩ := List.getElem?_eq_some_iff.mp hpoint
              have hbefore : RagInv s (s.tasks[task] :: s.tasks.eraseIdx task) :=
                h.perm (List.getElem_cons_eraseIdx_perm hlt).symm
              have hinv : RagInv next.1 (s.tasks.set task next.2) :=
                (resume_keeps hbefore first second answer hnext).perm
                  (List.set_perm_cons_eraseIdx hlt next.2).symm
              exact hinv.congr hinv.unlocked rfl rfl rfl rfl

theorem reachable_inv {s : RagState} (h : Reachable ragMachine s) : RagInv s s.tasks := by
  refine reachable_invariant (m := ragMachine) (I := fun s => RagInv s s.tasks) ?_
    (fun s event t hs hstep => step_keeps hs hstep) h
  rintro s rfl
  exact ⟨rfl, by simp, rfl, rfl, by simp, by simp, by simp⟩

/-- **Nothing ever waits for the lock**: where operations are suspended it is
free, so that no cancellation strikes where it is taken. -/
theorem lock_never_awaited {s : RagState} (h : Reachable ragMachine s) : s.locked = false ∧
    ∀ code cancelled, .acquiring code ∉ s.tasks ∧ .reacquiring code cancelled ∉ s.tasks :=
  ⟨(reachable_inv h).unlocked, fun _ _ =>
    ⟨fun hmem => (reachable_inv h).settled _ hmem, fun hmem => (reachable_inv h).settled _ hmem⟩⟩

/-- An instance is started and lent. -/
def lentRun : List RagEvent :=
  [.startLightrag true, .resumes 0 .returned true true, .lightragClient]

/-- The finalization of the old instance fails, and the fallback is restored. -/
def failedRestart : List RagEvent :=
  [.startLightrag true, .resumes 0 .returned true true, .restartLightrag true true true,
    .resumes 1 .failed true true, .resumes 1 .returned true true]

end Workbench.RagLifecycle
