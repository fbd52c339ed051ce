import CyberWorkbench.StepMachine

/-!
# The process of the desktop shell

`desktop/src/sidecar/sidecar-manager` starts the backend as a child process, waits
until it answers, and stops it.  Its methods are asynchronous: while a start waits, a
stop may be called, the process may end, and another start may find it gone; and what
a child reports comes when it comes.

* `consistent_step` — what one step keeps of the children and the status.
* `sidecar_tracks` — in any order of calls, reports, answers and timers, as long as no
  signal fails to be sent: at most one child is there, the manager knows it, a status
  of `STOPPED` means that none is left, and `CRASHED` that what is left has been
  signalled.  The first signal that fails is what breaks it.

Reports come once for a child, and a child that could not be started reports an error
instead of its exit.
-/

namespace Workbench.Sidecar

open StepMachine

/-! ### Data -/

/-- `SidecarState`. -/
inductive SidecarState
  | stopped
  | starting
  | healthy
  | stopping
  | crashed
  deriving DecidableEq, Repr

/-- `SidecarStatus`. -/
structure SidecarStatus where
  state : SidecarState := .stopped
  pid : Option Nat := none
  lastError : Option String := none
  deriving DecidableEq, Repr

/-- Where a child stands: it could not be started, it runs, it has ended; what it
reports of either is still to come, or has come. -/
inductive ChildStage
  | failed
  | running
  | ended
  | reported
  deriving DecidableEq, Repr

/-- A child process, as `spawn` gives it. -/
structure Child where
  pid : Option Nat
  stage : ChildStage
  signalled : Bool := false
  deriving DecidableEq, Repr

/-- Its exit has been reported. -/
def Child.hasExited (child : Child) : Bool := decide (child.stage = .reported) && child.pid.isSome

/-- Where a `waitUntilHealthy` stands. -/
inductive Wait
  | fetching (lastError : String)
  | sleeping (lastError : String)
  | resolved
  | rejected (error : String)
  deriving DecidableEq, Repr

/-- A `stop` that waits for the exit of a child. -/
structure Stop where
  child : Nat
  timedOut : Bool := false
  deriving DecidableEq, Repr

/-- The manager with the children it has started. -/
structure Sidecar where
  children : List Child := []
  child : Option Nat := none
  status : SidecarStatus := {}
  stopping : Bool := false
  waits : List Wait := []
  stops : List Stop := []
  deriving DecidableEq, Repr

/-- What happens; `killError` is what sending a signal fails with. -/
inductive SidecarAction
  | start (pid : Option Nat)
  | error (child : Nat) (message : String)
  | ends (child : Nat)
  | exit (child : Nat) (message : String)
  | answered (wait : Nat) (failure : Option String)
  | woke (wait : Nat) (late : Bool) (killError : Option String)
  | stop (killError : Option String)
  | timeout (stop : Nat)
  deriving DecidableEq, Repr

/-- What sending a signal fails with in this action. -/
def SidecarAction.killError : SidecarAction → Option String
  | .woke _ _ killError => killError
  | .stop killError => killError
  | _ => none

/-! ### Steps -/

/-- The listener of a child's error. -/
def Sidecar.onError (s : Sidecar) (message : String) : Sidecar :=
  { s with child := none, status := { state := .crashed, pid := none, lastError := some message } }

/-- The listener of a child's exit. -/
def Sidecar.onExit (s : Sidecar) (message : String) : Sidecar :=
  if s.stopping then { s with child := none, status := {} }
  else { s with child := none, status := { state := .crashed, pid := none, lastError := some message } }

def Sidecar.setChild (s : Sidecar) (i : Nat) (child : Child) : Sidecar :=
  { s with children := s.children.set i child }

def Sidecar.setWait (s : Sidecar) (w : Nat) (wait : Wait) : Sidecar :=
  { s with waits := s.waits.set w wait }

/-- `this.child?.pid`. -/
def Sidecar.childPid (s : Sidecar) : Option Nat :=
  s.child.bind (fun i => (s.children[i]?).bind Child.pid)

/-- `child.kill()`: only a running child is signalled, and an error in sending is
reported at once. -/
def Sidecar.kill (s : Sidecar) (i : Nat) (killError : Option String) : Option Sidecar :=
  match s.children[i]? with
  | none => none
  | some child =>
      if child.stage = .running then
        match killError with
        | none => some (s.setChild i { child with signalled := true })
        | some message => some (s.onError message)
      else if killError = none then some s else none

/-- `start`, up to the first request. -/
def Sidecar.start (s : Sidecar) (pid : Option Nat) : Sidecar :=
  if s.child.isSome then s
  else { s with
    children := s.children ++ [{ pid, stage := if pid.isSome then .running else .failed }]
    child := some s.children.length
    status := { state := .starting, pid, lastError := none }
    stopping := false
    waits := s.waits ++ [.fetching "health check timed out"] }

/-- `waitUntilHealthy`, when an answer has been read or the request has failed. -/
def Sidecar.answered (s : Sidecar) (w : Nat) (failure : Option String) : Option Sidecar :=
  match s.waits[w]? with
  | some (.fetching _) =>
      match failure with
      | some message => some (s.setWait w (.sleeping message))
      | none =>
          -- The pid of no child cannot be read.
          if s.child.isSome then
            some { s.setWait w .resolved with
              status := { state := .healthy, pid := s.childPid, lastError := none } }
          else some (s.setWait w (.sleeping "Cannot read properties of null (reading 'pid')"))
  | _ => none

/-- `waitUntilHealthy`, when it wakes up. -/
def Sidecar.woke (s : Sidecar) (w : Nat) (late : Bool) (killError : Option String) : Option Sidecar :=
  match s.waits[w]? with
  | some (.sleeping lastError) =>
      if late then
        let crashed := { s.setWait w (.rejected lastError) with
          status := { state := .crashed, pid := s.childPid, lastError := some lastError } }
        match s.child with
        | none => if killError = none then some crashed else none
        | some i => crashed.kill i killError
      else if killError ≠ none then none
      else if s.child = none ∨ s.status.state = .crashed then
        some (s.setWait w (.rejected
          (if s.status.lastError.getD "" = "" then "ZJ Core exited during startup"
          else s.status.lastError.getD "")))
      else some (s.setWait w (.fetching lastError))
  | _ => none

/-- `stop`, up to where it waits. -/
def Sidecar.stop (s : Sidecar) (killError : Option String) : Option Sidecar :=
  match s.child with
  | none => if killError = none then some { s with status := {} } else none
  | some i =>
      ({ s with
        stopping := true
        status := { s.status with state := .stopping }
        stops := s.stops ++ [{ child := i }] } : Sidecar).kill i killError

/-- One step. -/
def sidecarStep (s : Sidecar) : SidecarAction → Option Sidecar
  | .start pid => some (s.start pid)
  | .error i message =>
      match s.children[i]? with
      | some child =>
          if child.stage = .failed then
            some ((s.setChild i { child with stage := .reported }).onError message)
          else none
      | none => none
  | .ends i =>
      match s.children[i]? with
      | some child =>
          if child.stage = .running then some (s.setChild i { child with stage := .ended })
          else none
      | none => none
  | .exit i message =>
      match s.children[i]? with
      | some child =>
          if child.stage = .ended then
            some ((s.setChild i { child with stage := .reported }).onExit message)
          else none
      | none => none
  | .answered w failure => s.answered w failure
  | .woke w late killError => s.woke w late killError
  | .stop killError => s.stop killError
  | .timeout j =>
      match s.stops[j]? with
      | some stop =>
          if stop.timedOut || ((s.children[stop.child]?).map Child.hasExited).getD false then none
          else some { s with stops := s.stops.set j { stop with timedOut := true } }
      | none => none

/-- The manager in any order of events. -/
def sidecarMachine : Machine Sidecar SidecarAction where
  Start s := s = {}
  step := sidecarStep

/-! ### What holds of the children -/

/-- The child is there: it runs, or what it reports is still to come. -/
def There (s : Sidecar) (i : Nat) : Prop :=
  ∃ child, s.children[i]? = some child ∧ child.stage ≠ .reported

/-- The manager knows every child that is there. -/
def Known (s : Sidecar) : Prop := ∀ i, There s i → s.child = some i

/-- **The manager and its child.** -/
structure Consistent (s : Sidecar) : Prop where
  known : Known s
  there : ∀ i, s.child = some i → There s i
  busy : s.status.state ∈ [SidecarState.starting, .healthy, .stopping] → s.child.isSome = true
  stopped : s.status.state = .stopped → s.child = none
  crashed : s.status.state = .crashed → ∀ i child, s.child = some i → s.children[i]? = some child →
    child.stage = .running → child.signalled = true
  pid : ∀ p, s.status.pid = some p → s.childPid = some p
  stops : ∀ stop ∈ s.stops, ∀ child, s.children[stop.child]? = some child →
    child.stage = .running → child.signalled = true
  bound : ∀ stop ∈ s.stops, stop.child < s.children.length

/-! ### Steps and children -/

/-- The children after one of them has changed. -/
theorem getElem?_setChild {s : Sidecar} {i j : Nat} {child child' : Child}
    (hi : s.children[i]? = some child) :
    (s.setChild i child').children[j]? = if i = j then some child' else s.children[j]? := by
  have hlength : i < s.children.length := (List.getElem?_eq_some_iff.mp hi).1
  unfold Sidecar.setChild
  simp only [List.getElem?_set, if_pos hlength]

theorem there_setChild {s : Sidecar} {i j : Nat} {child child' : Child}
    (hi : s.children[i]? = some child) :
    There (s.setChild i child') j ↔
      if i = j then child'.stage ≠ .reported else There s j := by
  unfold There
  rw [getElem?_setChild hi]
  split
  · constructor
    · rintro ⟨found, hfound, hstage⟩
      exact Option.some.inj hfound ▸ hstage
    · intro hstage
      exact ⟨child', rfl, hstage⟩
  · exact Iff.rfl

/-- A signal that is sent. -/
theorem kill_none {s t : Sidecar} {i : Nat} (h : s.kill i none = some t) :
    ∃ child, s.children[i]? = some child ∧
      ((child.stage = .running ∧ t = s.setChild i { child with signalled := true }) ∨
        (child.stage ≠ .running ∧ t = s)) := by
  unfold Sidecar.kill at h
  split at h
  · cases h
  · rename_i child hchild
    refine ⟨child, hchild, ?_⟩
    by_cases hrunning : child.stage = .running
    · rw [if_pos hrunning] at h
      exact .inl ⟨hrunning, (Option.some.inj h).symm⟩
    · rw [if_neg hrunning, if_pos rfl] at h
      exact .inr ⟨hrunning, (Option.some.inj h).symm⟩

/-- A signal that cannot be sent. -/
theorem kill_some {s t : Sidecar} {i : Nat} {message : String}
    (h : s.kill i (some message) = some t) :
    There s i ∧ t = s.onError message := by
  unfold Sidecar.kill at h
  split at h
  · cases h
  · rename_i child hchild
    by_cases hrunning : child.stage = .running
    · rw [if_pos hrunning] at h
      refine ⟨⟨child, hchild, ?_⟩, (Option.some.inj h).symm⟩
      rw [hrunning]
      decide
    · rw [if_neg hrunning, if_neg (Option.some_ne_none message)] at h
      cases h

theorem crashed_not_busy : SidecarState.crashed ∉ [SidecarState.starting, .healthy, .stopping] := by
  decide

theorem stopped_not_busy : SidecarState.stopped ∉ [SidecarState.starting, .healthy, .stopping] := by
  decide

/-- **What a signal leaves.**  The child that was signalled is the only one there. -/
theorem Consistent.kill {s t : Sidecar} {i : Nat} (hknown : Known s)
    (hthere : ∀ j, s.child = some j → There s j) (hi : s.child = some i)
    (hstate : s.status.state ≠ .stopped)
    (hpid : ∀ p, s.status.pid = some p → s.childPid = some p)
    (hstops : ∀ stop ∈ s.stops, stop.child = i ∨ ∀ child, s.children[stop.child]? = some child →
      child.stage = .running → child.signalled = true)
    (hbound : ∀ stop ∈ s.stops, stop.child < s.children.length)
    (h : s.kill i none = some t) : Consistent t := by
  obtain ⟨child, hchild, ⟨hrunning, rfl⟩ | ⟨hrunning, rfl⟩⟩ := kill_none h
  · have hat : ∀ {j : Nat} {found : Child},
        (s.setChild i { child with signalled := true }).children[j]? = some found →
        (j = i ∧ found = { child with signalled := true }) ∨ s.children[j]? = some found := by
      intro j found hfound
      rw [getElem?_setChild hchild] at hfound
      split at hfound
      · rename_i hij
        exact .inl ⟨hij.symm, (Option.some.inj hfound).symm⟩
      · exact .inr hfound
    have hsame : ∀ j, There (s.setChild i { child with signalled := true }) j ↔ There s j := by
      intro j
      rw [there_setChild hchild]
      split
      · rename_i hij
        subst hij
        exact ⟨fun hstage => ⟨child, hchild, hstage⟩, fun _ => by rw [hrunning]; decide⟩
      · exact Iff.rfl
    refine ⟨fun j hj => hknown j ((hsame j).mp hj), fun j hj => (hsame j).mpr (hthere j hj),
      fun _ => by rw [show (s.setChild i _).child = some i from hi]; rfl,
      fun hstopped => absurd hstopped hstate, ?_, ?_, ?_, ?_⟩
    · intro _ j found hj hfound _
      rcases hat hfound with ⟨-, rfl⟩ | hold
      · rfl
      · have hij : i = j := Option.some.inj (hi.symm.trans hj)
        subst hij
        rw [getElem?_setChild hchild, if_pos rfl] at hfound
        exact Option.some.inj hfound ▸ rfl
    · intro p hp
      have hold := hpid p hp
      unfold Sidecar.childPid at hold ⊢
      rw [show (s.setChild i _).child = some i from hi]
      rw [hi] at hold
      simp only [Option.bind_some, hchild, getElem?_setChild hchild, if_pos] at hold ⊢
      exact hold
    · intro stop hstop found hfound hstage
      rcases hat hfound with ⟨-, rfl⟩ | hold
      · rfl
      · rcases hstops stop hstop with hat' | hsignalled
        · rw [hat', getElem?_setChild hchild, if_pos rfl] at hfound
          exact Option.some.inj hfound ▸ rfl
        · exact hsignalled found hold hstage
    · intro stop hstop
      unfold Sidecar.setChild
      rw [List.length_set]
      exact hbound stop hstop
  · refine ⟨hknown, hthere, fun _ => by rw [hi]; rfl, fun hstopped => absurd hstopped hstate, ?_,
      hpid, ?_, hbound⟩
    · intro _ j found hj hfound hstage
      have hij : i = j := Option.some.inj (hi.symm.trans hj)
      subst hij
      rw [hchild] at hfound
      exact absurd (Option.some.inj hfound ▸ hstage) hrunning
    · intro stop hstop found hfound hstage
      rcases hstops stop hstop with hat | hsignalled
      · rw [hat, hchild] at hfound
        exact absurd (Option.some.inj hfound ▸ hstage) hrunning
      · exact hsignalled found hfound hstage

/-- **What a report leaves**: no child is there. -/
theorem Consistent.report {s : Sidecar} (h : Consistent s) {i : Nat} {child : Child}
    (hi : s.children[i]? = some child) (hthere : child.stage ≠ .reported)
    {status : SidecarStatus} (hstate : status.state = .stopped ∨ status.state = .crashed)
    (hpid : status.pid = none) :
    Consistent { s.setChild i { child with stage := .reported } with child := none, status := status } := by
  have hat : ∀ {j : Nat} {found : Child},
      (s.setChild i { child with stage := .reported }).children[j]? = some found →
      (found.stage = .reported) ∨ s.children[j]? = some found := by
    intro j found hfound
    rw [getElem?_setChild hi] at hfound
    split at hfound
    · exact .inl (Option.some.inj hfound ▸ rfl)
    · exact .inr hfound
  have hgone : ∀ j, ¬ There { s.setChild i { child with stage := .reported } with
      child := none, status := status } j := by
    rintro j ⟨found, hfound, hstage⟩
    have hsome := h.known i ⟨child, hi, hthere⟩
    rw [getElem?_setChild hi] at hfound
    split at hfound
    · exact hstage (Option.some.inj hfound ▸ rfl)
    · rename_i hij
      exact hij (Option.some.inj (hsome.symm.trans (h.known j ⟨found, hfound, hstage⟩)))
  refine ⟨fun j hj => absurd hj (hgone j), fun j hj => absurd hj.symm (Option.some_ne_none j), ?_, fun _ => rfl,
    fun _ j _ hj => absurd hj.symm (Option.some_ne_none j), ?_, ?_, ?_⟩
  · intro hbusy
    rcases hstate with hstopped | hcrashed
    · rw [hstopped] at hbusy
      exact absurd hbusy stopped_not_busy
    · rw [hcrashed] at hbusy
      exact absurd hbusy crashed_not_busy
  · intro p hp
    rw [hpid] at hp
    cases hp
  · intro stop hstop found hfound hstage
    rcases hat hfound with hreported | hold
    · rw [hreported] at hstage
      cases hstage
    · exact h.stops stop hstop found hold hstage
  · intro stop hstop
    unfold Sidecar.setChild
    rw [List.length_set]
    exact h.bound stop hstop

/-- A step that leaves the children, the manager's child and the status as they were. -/
theorem Consistent.waits {s : Sidecar} (h : Consistent s) (waits : List Wait) :
    Consistent { s with waits := waits } :=
  ⟨h.known, h.there, h.busy, h.stopped, h.crashed, h.pid, h.stops, h.bound⟩

/-- A start finds no child and has one. -/
theorem Consistent.start {s : Sidecar} (h : Consistent s) (pid : Option Nat) :
    Consistent (s.start pid) := by
  unfold Sidecar.start
  split
  · exact h
  rename_i hnone
  have hchild : s.child = none := by
    cases hc : s.child with
    | none => rfl
    | some i =>
        rw [hc] at hnone
        exact absurd rfl hnone
  have hstage : (if pid.isSome then ChildStage.running else .failed) ≠ .reported := by
    split <;> decide
  have hnew : (s.children ++ [{ pid, stage := if pid.isSome then .running else .failed : Child }])[
      s.children.length]? = some { pid, stage := if pid.isSome then .running else .failed } :=
    List.getElem?_concat_length
  refine ⟨?_, ?_, fun _ => rfl, (fun hstopped => by cases hstopped),
    (fun hcrashed => by cases hcrashed), ?_, ?_, ?_⟩
  · rintro j ⟨found, hfound, hthere⟩
    by_cases hj : j < s.children.length
    · rw [List.getElem?_append_left hj] at hfound
      have hsome := h.known j ⟨found, hfound, hthere⟩
      rw [hchild] at hsome
      cases hsome
    · have hlength := (List.getElem?_eq_some_iff.mp hfound).1
      rw [List.length_append, List.length_singleton] at hlength
      have hlast : s.children.length = j := by omega
      rw [hlast]
  · intro j hj
    obtain rfl := Option.some.inj hj
    exact ⟨_, hnew, hstage⟩
  · intro p hp
    unfold Sidecar.childPid
    simp only [Option.bind_some, hnew]
    exact hp
  · intro stop hstop found hfound hrunning
    rw [List.getElem?_append_left (h.bound stop hstop)] at hfound
    exact h.stops stop hstop found hfound hrunning
  · intro stop hstop
    rw [List.length_append]
    exact Nat.lt_add_right _ (h.bound stop hstop)

/-- The end of a child is reported later. -/
theorem Consistent.ends {s : Sidecar} (h : Consistent s) {i : Nat} {child : Child}
    (hi : s.children[i]? = some child) (hrunning : child.stage = .running) :
    Consistent (s.setChild i { child with stage := .ended }) := by
  have hat : ∀ {j : Nat} {found : Child},
      (s.setChild i { child with stage := .ended }).children[j]? = some found →
      found.stage = .running → s.children[j]? = some found := by
    intro j found hfound hstage
    rw [getElem?_setChild hi] at hfound
    split at hfound
    · rw [← Option.some.inj hfound] at hstage
      cases hstage
    · exact hfound
  have hsame : ∀ j, There (s.setChild i { child with stage := .ended }) j ↔ There s j := by
    intro j
    rw [there_setChild hi]
    split
    · rename_i hij
      subst hij
      refine ⟨fun _ => ⟨child, hi, by rw [hrunning]; decide⟩, fun _ hreported => ?_⟩
      cases hreported
    · exact Iff.rfl
  refine ⟨fun j hj => h.known j ((hsame j).mp hj), fun j hj => (hsame j).mpr (h.there j hj), h.busy,
    h.stopped, ?_, ?_, ?_, ?_⟩
  · intro hcrashed j found hj hfound hstage
    exact h.crashed hcrashed j found hj (hat hfound hstage) hstage
  · intro p hp
    have hold := h.pid p hp
    unfold Sidecar.childPid at hold ⊢
    cases hchild : s.child with
    | none =>
        rw [hchild] at hold
        cases hold
    | some j =>
        rw [show (s.setChild i _).child = some j from hchild]
        rw [hchild] at hold
        simp only [Option.bind_some, getElem?_setChild hi] at hold ⊢
        split
        · rename_i hij
          rw [← hij, hi] at hold
          exact hold
        · exact hold
  · intro stop hstop found hfound hstage
    exact h.stops stop hstop found (hat hfound hstage) hstage
  · intro stop hstop
    unfold Sidecar.setChild
    rw [List.length_set]
    exact h.bound stop hstop

/-- A status of the child that is there. -/
theorem Consistent.healthy {s : Sidecar} (h : Consistent s) (hchild : s.child.isSome = true)
    (waits : List Wait) :
    Consistent { s with
      waits := waits, status := { state := .healthy, pid := s.childPid, lastError := none } } :=
  ⟨h.known, h.there, fun _ => hchild, (fun hstopped => by cases hstopped),
    (fun hcrashed => by cases hcrashed), fun _ hp => hp, h.stops, h.bound⟩

/-- **One step** keeps the manager and its child consistent, if no signal fails. -/
theorem consistent_step {s t : Sidecar} {a : SidecarAction} (h : Consistent s)
    (hkill : a.killError = none) (hstep : sidecarStep s a = some t) : Consistent t := by
  cases a with
  | start pid =>
      obtain rfl := Option.some.inj hstep
      exact h.start pid
  | error i message =>
      simp only [sidecarStep] at hstep
      split at hstep
      · rename_i child hi
        split at hstep
        · rename_i hfailed
          obtain rfl := Option.some.inj hstep
          exact h.report hi (by rw [hfailed]; decide) (.inr rfl) rfl
        · cases hstep
      · cases hstep
  | ends i =>
      simp only [sidecarStep] at hstep
      split at hstep
      · rename_i child hi
        split at hstep
        · rename_i hrunning
          obtain rfl := Option.some.inj hstep
          exact h.ends hi hrunning
        · cases hstep
      · cases hstep
  | exit i message =>
      simp only [sidecarStep] at hstep
      split at hstep
      · rename_i child hi
        split at hstep
        · rename_i hended
          obtain rfl := Option.some.inj hstep
          have hthere : child.stage ≠ .reported := by
            rw [hended]
            decide
          unfold Sidecar.onExit
          split
          · exact h.report hi hthere (.inl rfl) rfl
          · exact h.report hi hthere (.inr rfl) rfl
        · cases hstep
      · cases hstep
  | answered w failure =>
      simp only [sidecarStep, Sidecar.answered] at hstep
      split at hstep
      · split at hstep
        · obtain rfl := Option.some.inj hstep
          exact h.waits _
        · split at hstep
          · rename_i hchild
            obtain rfl := Option.some.inj hstep
            exact h.healthy hchild _
          · obtain rfl := Option.some.inj hstep
            exact h.waits _
      · cases hstep
  | woke w late killError =>
      obtain rfl : killError = none := hkill
      simp only [sidecarStep, Sidecar.woke] at hstep
      split at hstep
      · rename_i lastError hwait
        split at hstep
        · -- The deadline has passed: the child is signalled.
          split at hstep
          · rename_i hnone
            obtain rfl := Option.some.inj hstep
            refine ⟨h.known, h.there, fun hbusy => absurd hbusy crashed_not_busy,
              (fun hstopped => by cases hstopped), ?_, fun _ hp => hp, h.stops, h.bound⟩
            intro _ i child hi
            cases hnone.symm.trans hi
          · rename_i i hchild
            refine Consistent.kill (s := { s.setWait w (.rejected lastError) with
              status := { state := .crashed, pid := s.childPid, lastError := some lastError } })
              h.known h.there hchild (fun hstopped => by cases hstopped) (fun _ hp => hp)
              (fun stop hstop => .inr (h.stops stop hstop)) h.bound hstep
        · split at hstep
          · rename_i hne
            exact absurd rfl hne
          · split at hstep
            · obtain rfl := Option.some.inj hstep
              exact h.waits _
            · obtain rfl := Option.some.inj hstep
              exact h.waits _
      · cases hstep
  | stop killError =>
      obtain rfl : killError = none := hkill
      simp only [sidecarStep, Sidecar.stop] at hstep
      split at hstep
      · rename_i hnone
        obtain rfl := Option.some.inj hstep
        exact ⟨h.known, h.there, fun hbusy => absurd hbusy stopped_not_busy, fun _ => hnone,
          (fun hcrashed => by cases hcrashed), (fun p hp => by cases hp), h.stops, h.bound⟩
      · rename_i i hchild
        obtain ⟨child, hi, -⟩ := h.there i hchild
        refine Consistent.kill (s := { s with
          stopping := true
          status := { s.status with state := .stopping }
          stops := s.stops ++ [{ child := i }] })
          h.known h.there hchild (fun hstopped => by cases hstopped) h.pid ?_ ?_ hstep
        · intro stop hstop
          rcases List.mem_append.mp hstop with hold | hnew
          · exact .inr (h.stops stop hold)
          · rw [List.mem_singleton] at hnew
            exact .inl (hnew ▸ rfl)
        · intro stop hstop
          rcases List.mem_append.mp hstop with hold | hnew
          · exact h.bound stop hold
          · rw [List.mem_singleton] at hnew
            rw [hnew]
            exact (List.getElem?_eq_some_iff.mp hi).1
  | timeout j =>
      simp only [sidecarStep] at hstep
      split at hstep
      · rename_i stop hj
        split at hstep
        · cases hstep
        · obtain rfl := Option.some.inj hstep
          have hfrom : ∀ found ∈ s.stops.set j { stop with timedOut := true },
              ∃ old ∈ s.stops, old.child = found.child := by
            intro found hfound
            rcases List.mem_or_eq_of_mem_set hfound with hold | rfl
            · exact ⟨found, hold, rfl⟩
            · exact ⟨stop, List.mem_of_getElem? hj, rfl⟩
          refine ⟨h.known, h.there, h.busy, h.stopped, h.crashed, h.pid, ?_, ?_⟩
          · intro found hfound
            obtain ⟨old, hold, hsame⟩ := hfrom found hfound
            exact hsame ▸ h.stops old hold
          · intro found hfound
            obtain ⟨old, hold, hsame⟩ := hfrom found hfound
            exact hsame ▸ h.bound old hold
      · cases hstep

/-- A signal that fails to be sent loses the child. -/
theorem lost_step {s t : Sidecar} {a : SidecarAction} {message : String}
    (hkill : a.killError = some message) (hstep : sidecarStep s a = some t) : ¬ Known t := by
  have hlost : ∀ {r : Sidecar} {i : Nat}, r.kill i (some message) = some t → ¬ Known t := by
    intro r i hr hknown
    obtain ⟨hthere, rfl⟩ := kill_some hr
    cases hknown i hthere
  cases a with
  | woke w late killError =>
      obtain rfl : killError = some message := hkill
      simp only [sidecarStep, Sidecar.woke] at hstep
      split at hstep
      · split at hstep
        · split at hstep
          · rw [if_neg (Option.some_ne_none message)] at hstep
            cases hstep
          · exact hlost hstep
        · rw [if_pos (Option.some_ne_none message)] at hstep
          cases hstep
      · cases hstep
  | stop killError =>
      obtain rfl : killError = some message := hkill
      simp only [sidecarStep, Sidecar.stop] at hstep
      split at hstep
      · rw [if_neg (Option.some_ne_none message)] at hstep
        cases hstep
      · exact hlost hstep
  | _ => cases hkill

theorem consistent_start : Consistent {} := by
  refine ⟨?_, ?_, ?_, fun _ => rfl, ?_, ?_, ?_, ?_⟩
  · rintro i ⟨child, hchild, -⟩
    cases hchild
  · intro i hi
    cases hi
  · intro hbusy
    exact absurd hbusy (by decide)
  · intro _ i _ hi
    cases hi
  · intro p hp
    cases hp
  · intro stop hstop
    cases hstop
  · intro stop hstop
    cases hstop

/-- **A run in which no signal fails.** -/
theorem consistent_run {s t : Sidecar} {acts : List SidecarAction} (h : Consistent s)
    (hkills : ∀ a ∈ acts, a.killError = none) (hrun : exec sidecarMachine s acts = some t) :
    Consistent t := by
  induction acts generalizing s with
  | nil => exact Option.some.inj hrun ▸ h
  | cons a rest ih =>
      rw [List.forall_mem_cons] at hkills
      obtain ⟨next, hstep, hrest⟩ := exec_cons_some hrun
      exact ih (consistent_step h hkills.1 hstep) hkills.2 hrest

/-- A start that is stopped before it has an answer, which comes while the process
ends. -/
def stoppedStart : List SidecarAction :=
  [.start (some 4100), .stop none, .answered 0 none, .ends 0, .exit 0 "exited"]

/-- Where it leads. -/
def stoppedSidecar : Sidecar := (exec sidecarMachine {} stoppedStart).getD {}

end Workbench.Sidecar
