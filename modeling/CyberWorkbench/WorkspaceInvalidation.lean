import CyberWorkbench.StepMachine

/-!
# Invalidating a workspace

When a sandbox container changes its status the backend tells the agents that
use it: `invalidate_agent_tool_bindings` calls the invalidator, a method of the
pool that was current when the application started.  The method selects the
sessions of its pool whose tools are bound to the container and gathers one
branch for each of them, one for the subagent drivers and one for the async
commands, and swallows what they raise.

The branch for the subagent drivers asks each driver for an attribute that a
driver does not have (`cancelSandboxSubagentRuns`), so it raises as soon as one
is registered.  And a pool that a configuration rebuild put in place has an
invalidator of its own that nobody calls.

`invalidation_reaches`: what the invalidation still reaches, through the
sessions it selects.  `subagent_keeps_running` is a driver it does not reach.

The cancellations of a session are one step each; what they do to a subagent
driver is that of `cancel_ends_canceled` and `cancel_outside_try`.
-/

namespace Workbench.Invalidations

open StepMachine

/-! ### Data -/

/-- What a pool knows of a session: the container its tools are bound to, and
whether its main driver is live. -/
structure PooledSession where
  sessionId : String
  toolContainer : Option Nat := none
  running : Bool := false
  deriving DecidableEq, Repr

/-- Where the drive of a registered subagent driver stands.  A drive that was
cancelled before its first step, or in its own ending, is dead, and its driver
stays registered. -/
inductive DriveStage where
  | unstarted
  | working
  | ending
  | dormant
  | dead
  deriving DecidableEq, Repr

/-- A registered `_SubagentDriver`; `container` is that of its context. -/
structure SubagentDriver where
  runId : String
  sessionId : String
  container : Option Nat
  stage : DriveStage := .unstarted
  deriving DecidableEq, Repr

/-- The row of an async command. -/
structure CommandRow where
  runId : String
  sessionId : String
  container : Nat
  running : Bool := true
  deriving DecidableEq, Repr

/-- `invalidate_tool_binding` of one session, up to its next step. -/
inductive SessionBranch where
  | driver
  | subagents
  | commands
  | binding
  | done
  deriving DecidableEq, Repr

/-- Where an invalidation stands; `pool` is the pool of the invalidator. -/
inductive InvalidationPhase where
  | called (pool : Nat)
  | gathering (pool : Nat) (sessions : List (String × SessionBranch)) (subagents commands : Bool)
  | returned
  deriving DecidableEq, Repr

/-- A call of `invalidate_agent_tool_bindings`. -/
structure Invalidation where
  container : Nat
  phase : InvalidationPhase
  deriving DecidableEq, Repr

/-- Everything an invalidation can meet.  Pools that were replaced are kept,
and `current` is the one in use. -/
structure Workspaces where
  pools : List (List PooledSession) := [[]]
  current : Nat := 0
  invalidator : Option Nat := none
  drivers : List SubagentDriver := []
  commands : List CommandRow := []
  calls : List Invalidation := []
  deriving DecidableEq, Repr

/-- The sessions of a pool. -/
def Workspaces.pool (s : Workspaces) (p : Nat) : List PooledSession := (s.pools[p]?).getD []

/-! ### Actions -/

/-- What can happen. -/
inductive WorkspaceAction where
  /-- The lifespan binds the invalidator. -/
  | bindInvalidator
  | startTurn (sessionId : String)
  /-- `_ensure_agent_graph` of a live main driver. -/
  | bindTools (sessionId : String) (container : Option Nat)
  | endTurn (sessionId : String)
  | startSubagent (driver : SubagentDriver)
  | advanceSubagent (runId : String) (stage : DriveStage)
  | endSubagent (runId : String)
  | startCommand (row : CommandRow)
  | endCommand (runId : String)
  | rebuild
  | invalidate (container : Nat)
  | select (call : Nat)
  | session (call branch : Nat)
  | subagents (call : Nat)
  | commands (call : Nat)
  | finish (call : Nat)
  deriving DecidableEq, Repr

/-- Some elements of a list change. -/
def mapWhere {α : Type} (p : α → Bool) (f : α → α) (l : List α) : List α :=
  l.map (fun x => if p x then f x else x)

/-- The sessions of one pool change. -/
def Workspaces.mapPool (s : Workspaces) (p : Nat) (f : List PooledSession → List PooledSession) :
    Workspaces :=
  { s with pools := s.pools.set p (f (s.pool p)) }

/-- One session of a pool changes. -/
def Workspaces.mapSession (s : Workspaces) (p : Nat) (sessionId : String)
    (f : PooledSession → PooledSession) : Workspaces :=
  s.mapPool p (mapWhere (fun e => decide (e.sessionId = sessionId)) f)

/-- `uses_sandbox_container`. -/
def PooledSession.usesSandboxContainer (e : PooledSession) (container : Nat) : Bool :=
  decide (e.toolContainer = some container)

/-- `cancel_sandbox_subagent_runs`.  `_SubagentDriver` has no such attribute. -/
def cancelSandboxSubagentRuns (drivers : List SubagentDriver) : Except String Bool :=
  match drivers with
  | [] => .ok false
  | _ :: _ => .error "'_SubagentDriver' object has no attribute 'sandbox_container_id'"

/-- A cancellation takes the driver out of the registry: its drive is inside its
`try`, or there is no live drive and the driver is torn down in its place. -/
def SubagentDriver.endsCancelled (d : SubagentDriver) : Bool :=
  match d.stage with
  | .working | .dormant | .dead => true
  | .unstarted | .ending => false

/-- `cancel_session_subagent_runs`.  A drive that a cancellation does not end
dies where it is, and its driver stays. -/
def cancelSessionSubagentRuns (sessionId : String) (drivers : List SubagentDriver) :
    List SubagentDriver :=
  mapWhere (fun d => decide (d.sessionId = sessionId)) (fun d => { d with stage := .dead })
    (drivers.filter (fun d => !(decide (d.sessionId = sessionId) && d.endsCancelled)))

/-- `_cancel_running_async_jobs`. -/
def cancelCommands (p : CommandRow → Bool) (rows : List CommandRow) : List CommandRow :=
  mapWhere p (fun row => { row with running := false }) rows

/-- One step of `invalidate_tool_binding`, in the session `sessionId` of `pool`. -/
def Workspaces.advanceSession (s : Workspaces) (pool : Nat) (sessionId : String) :
    SessionBranch → Option (Workspaces × SessionBranch)
  | .driver => some (s.mapSession pool sessionId (fun e => { e with running := false }), .subagents)
  | .subagents =>
      some ({ s with drivers := cancelSessionSubagentRuns sessionId s.drivers }, .commands)
  | .commands =>
      let rows := cancelCommands (fun row => decide (row.sessionId = sessionId)) s.commands
      some ({ s with commands := rows }, .binding)
  | .binding =>
      some (s.mapSession pool sessionId (fun e => { e with toolContainer := none }), .done)
  | .done => none

/-- The invalidation gets on. -/
def Workspaces.setCall (s : Workspaces) (i : Nat) (call : Invalidation)
    (phase : InvalidationPhase) : Workspaces :=
  { s with calls := s.calls.set i { call with phase := phase } }

/-! ### Steps -/

/-- One step. -/
def workspaceStep (s : Workspaces) : WorkspaceAction → Option Workspaces
  | .bindInvalidator => some { s with invalidator := some s.current }
  | .startTurn sessionId =>
      let known := (s.pool s.current).any (fun e => decide (e.sessionId = sessionId))
      let s := if known then s else s.mapPool s.current (fun l => l ++ [{ sessionId := sessionId }])
      some (s.mapSession s.current sessionId (fun e => { e with running := true }))
  | .bindTools sessionId container =>
      some (s.mapSession s.current sessionId
        (fun e => { e with toolContainer := if e.running then container else e.toolContainer }))
  | .endTurn sessionId =>
      some (s.mapSession s.current sessionId (fun e => { e with running := false }))
  | .startSubagent driver => some { s with drivers := s.drivers ++ [driver] }
  | .advanceSubagent runId stage =>
      let drivers := mapWhere (fun d => decide (d.runId = runId)) (fun d => { d with stage := stage })
        s.drivers
      some { s with drivers := drivers }
  | .endSubagent runId =>
      some { s with drivers := s.drivers.filter (fun d => !decide (d.runId = runId)) }
  | .startCommand row => some { s with commands := s.commands ++ [row] }
  | .endCommand runId =>
      some { s with commands := cancelCommands (fun row => decide (row.runId = runId)) s.commands }
  | .rebuild =>
      -- The new pool is empty; the old one is stopped with all that runs in it.
      let stopped := (s.pool s.current).map PooledSession.sessionId
      let rows := cancelCommands (fun row => decide (row.sessionId ∈ stopped)) s.commands
      let s := s.mapPool s.current (fun _ => [])
      some { s with
        pools := s.pools ++ [[]]
        current := s.pools.length
        drivers := []
        commands := rows }
  | .invalidate container =>
      let phase := match s.invalidator with
        | none => InvalidationPhase.returned
        | some pool => .called pool
      some { s with calls := s.calls ++ [⟨container, phase⟩] }
  | .select i =>
      match s.calls[i]? with
      | some call =>
          match call.phase with
          | .called pool =>
              let sessions := (s.pool pool).filter (fun e => e.usesSandboxContainer call.container)
              some (s.setCall i call (.gathering pool
                (sessions.map (fun e => (e.sessionId, .driver))) false false))
          | _ => none
      | none => none
  | .session i k =>
      match s.calls[i]? with
      | some call =>
          match call.phase with
          | .gathering pool sessions subagents commands =>
              match sessions[k]? with
              | some (sessionId, branch) =>
                  (s.advanceSession pool sessionId branch).map (fun r =>
                    r.1.setCall i call
                      (.gathering pool (sessions.set k (sessionId, r.2)) subagents commands))
              | none => none
          | _ => none
      | none => none
  | .subagents i =>
      match s.calls[i]? with
      | some call =>
          match call.phase with
          | .gathering pool sessions _ commands =>
              -- Both results leave the drivers alone.
              match cancelSandboxSubagentRuns s.drivers with
              | .ok _ | .error _ => some (s.setCall i call (.gathering pool sessions true commands))
          | _ => none
      | none => none
  | .commands i =>
      match s.calls[i]? with
      | some call =>
          match call.phase with
          | .gathering pool sessions subagents _ =>
              let rows := cancelCommands (fun row => decide (row.container = call.container))
                s.commands
              some (Workspaces.setCall { s with commands := rows } i call
                (.gathering pool sessions subagents true))
          | _ => none
      | none => none
  | .finish i =>
      match s.calls[i]? with
      | some call =>
          match call.phase with
          | .gathering _ sessions true true =>
              if sessions.all (fun branch => decide (branch.2 = .done)) then
                some (s.setCall i call .returned)
              else none
          | _ => none
      | none => none

/-- The backend from its start. -/
def workspaceMachine : Machine Workspaces WorkspaceAction where
  Start s := s = {}
  step := workspaceStep

/-! ### What is left over

Between its call and its return an invalidation meets steps of everybody else.
Without new starts none of them adds anything that uses the container. -/

theorem mem_mapWhere {α : Type} {p : α → Bool} {f : α → α} {l : List α} {y : α}
    (h : y ∈ mapWhere p f l) : ∃ x ∈ l, (p x = true ∧ y = f x) ∨ (p x = false ∧ y = x) := by
  obtain ⟨x, hx, rfl⟩ := List.mem_map.mp h
  refine ⟨x, hx, ?_⟩
  by_cases hp : p x = true
  · exact .inl ⟨hp, if_pos hp⟩
  · exact .inr ⟨by simpa using hp, if_neg hp⟩

/-- The pools after a change of one of them. -/
theorem pool_mapPool (s : Workspaces) (p q : Nat)
    (f : List PooledSession → List PooledSession) :
    (s.mapPool p f).pool q = if p = q ∧ p < s.pools.length then f (s.pool p) else s.pool q := by
  unfold Workspaces.mapPool Workspaces.pool
  by_cases hpq : p = q
  · subst hpq
    by_cases hp : p < s.pools.length
    · simp [hp]
    · simp [hp]
  · simp [hpq, List.getElem?_set_ne hpq]

/-- A session after one of a pool has changed. -/
theorem mem_pool_mapSession {s : Workspaces} {p q : Nat} {sessionId : String}
    {f : PooledSession → PooledSession} {e : PooledSession}
    (h : e ∈ (s.mapSession p sessionId f).pool q) :
    ∃ x ∈ s.pool q, (e = x ∧ ¬ (p = q ∧ x.sessionId = sessionId)) ∨
      (p = q ∧ x.sessionId = sessionId ∧ e = f x) := by
  unfold Workspaces.mapSession at h
  rw [pool_mapPool] at h
  split at h
  · rename_i hpq
    obtain ⟨x, hx, ⟨hid, he⟩ | ⟨hid, he⟩⟩ := mem_mapWhere h
    · exact ⟨x, hpq.1 ▸ hx, .inr ⟨hpq.1, by simpa using hid, he⟩⟩
    · exact ⟨x, hpq.1 ▸ hx, .inl ⟨he, fun hc => by simp [hc.2] at hid⟩⟩
  · rename_i hpq
    refine ⟨e, h, .inl ⟨rfl, fun hc => hpq ⟨hc.1, ?_⟩⟩⟩
    have hlen : q < s.pools.length := by
      -- A pool with a member is one of the pools.
      rcases Nat.lt_or_ge q s.pools.length with hlt | hge
      · exact hlt
      · simp [Workspaces.pool, List.getElem?_eq_none hge] at h
    exact hc.1 ▸ hlen

/-- The main driver of `e` is live in the current pool, with tools of the container. -/
def LiveIn (container : Nat) (s : Workspaces) (e : PooledSession) : Prop :=
  e ∈ s.pool s.current ∧ e.running = true ∧ e.toolContainer = some container

/-- What uses the container in `t` did so in `s`. -/
structure Shrinks (container : Nat) (s t : Workspaces) : Prop where
  live : ∀ e, LiveIn container t e →
    t.current = s.current ∧ ∃ x, LiveIn container s x ∧ x.sessionId = e.sessionId
  drivers : ∀ d ∈ t.drivers, d.container = some container →
    ∃ x ∈ s.drivers, x.sessionId = d.sessionId ∧ x.container = some container
  commands : ∀ row ∈ t.commands, row.container = container → row.running = true →
    ∃ x ∈ s.commands, x.container = container ∧ x.running = true

section Shrinking

variable {c : Nat} {s t u : Workspaces}

theorem Shrinks.refl (c : Nat) (s : Workspaces) : Shrinks c s s where
  live e he := ⟨rfl, e, he, rfl⟩
  drivers d hd hc := ⟨d, hd, rfl, hc⟩
  commands row hrow hc hr := ⟨row, hrow, hc, hr⟩

/-- Only the bookkeeping of the calls differs. -/
theorem Shrinks.of_eq (h : Shrinks c s t) (hpools : u.pools = t.pools)
    (hcurrent : u.current = t.current) (hdrivers : u.drivers = t.drivers)
    (hcommands : u.commands = t.commands) : Shrinks c s u where
  live e he := by
    have hlive : LiveIn c t e := by
      unfold LiveIn Workspaces.pool at he ⊢
      rwa [hpools, hcurrent] at he
    exact hcurrent ▸ h.live e hlive
  drivers := hdrivers ▸ h.drivers
  commands := hcommands ▸ h.commands

theorem Shrinks.setCall (h : Shrinks c s t) (i : Nat) (call : Invalidation)
    (phase : InvalidationPhase) : Shrinks c s (t.setCall i call phase) :=
  h.of_eq rfl rfl rfl rfl

/-- A session changes, and does not come to use the container. -/
theorem shrinks_mapSession (p : Nat) (sessionId : String) {f : PooledSession → PooledSession}
    (hid : ∀ e, (f e).sessionId = e.sessionId)
    (hf : ∀ e, (f e).running = true → (f e).toolContainer = some c →
      e.running = true ∧ e.toolContainer = some c) :
    Shrinks c s (s.mapSession p sessionId f) where
  live e he := by
    obtain ⟨hmem, hrun, hbound⟩ := he
    refine ⟨rfl, ?_⟩
    obtain ⟨x, hx, ⟨rfl, -⟩ | ⟨-, -, rfl⟩⟩ := mem_pool_mapSession hmem
    · exact ⟨e, ⟨hx, hrun, hbound⟩, rfl⟩
    · exact ⟨x, ⟨hx, hf x hrun hbound⟩, (hid x).symm⟩
  drivers d hd hc := ⟨d, hd, rfl, hc⟩
  commands row hrow hc hr := ⟨row, hrow, hc, hr⟩

/-- Drivers are taken out or get on. -/
theorem shrinks_drivers {drivers : List SubagentDriver}
    (h : ∀ d ∈ drivers, ∃ x ∈ s.drivers, x.sessionId = d.sessionId ∧ x.container = d.container) :
    Shrinks c s { s with drivers := drivers } where
  live e he := ⟨rfl, e, he, rfl⟩
  drivers d hd hc := by
    obtain ⟨x, hx, hsession, hcontainer⟩ := h d hd
    exact ⟨x, hx, hsession, hcontainer.trans hc⟩
  commands row hrow hc hr := ⟨row, hrow, hc, hr⟩

/-- A row that is still running after a cancellation was not meant by it. -/
theorem mem_cancelCommands {p : CommandRow → Bool} {rows : List CommandRow} {row : CommandRow}
    (h : row ∈ cancelCommands p rows) (hrun : row.running = true) :
    row ∈ rows ∧ p row = false := by
  obtain ⟨x, hx, ⟨-, rfl⟩ | ⟨hp, rfl⟩⟩ := mem_mapWhere h
  · cases hrun
  · exact ⟨hx, hp⟩

theorem shrinks_cancelCommands (p : CommandRow → Bool) :
    Shrinks c s { s with commands := cancelCommands p s.commands } where
  live e he := ⟨rfl, e, he, rfl⟩
  drivers d hd hc := ⟨d, hd, rfl, hc⟩
  commands row hrow hc hr := ⟨row, (mem_cancelCommands hrow hr).1, hc, hr⟩

/-- The drivers that a cancellation of their session leaves. -/
theorem mem_cancelSessionSubagentRuns {sessionId : String} {drivers : List SubagentDriver}
    {d : SubagentDriver} (h : d ∈ cancelSessionSubagentRuns sessionId drivers) :
    ∃ x ∈ drivers, x.sessionId = d.sessionId ∧ x.container = d.container ∧
      (x.sessionId = sessionId → x.endsCancelled = false) := by
  obtain ⟨x, hx, hd⟩ := mem_mapWhere h
  obtain ⟨hmem, hkept⟩ := List.mem_filter.mp hx
  have hends : x.sessionId = sessionId → x.endsCancelled = false := by
    intro hid
    simpa [hid] using hkept
  rcases hd with ⟨-, rfl⟩ | ⟨-, rfl⟩
  · exact ⟨x, hmem, rfl, rfl, hends⟩
  · exact ⟨d, hmem, rfl, rfl, hends⟩

/-- A session branch adds nothing. -/
theorem advanceSession_shrinks {pool : Nat} {sessionId : String} {branch : SessionBranch}
    {r : Workspaces × SessionBranch} (h : s.advanceSession pool sessionId branch = some r) :
    Shrinks c s r.1 := by
  cases branch with
  | driver =>
      obtain rfl := Option.some.inj h
      exact shrinks_mapSession pool sessionId (fun _ => rfl) (fun e hrun => by cases hrun)
  | subagents =>
      obtain rfl := Option.some.inj h
      refine shrinks_drivers (fun d hd => ?_)
      obtain ⟨x, hx, hsession, hcontainer, -⟩ := mem_cancelSessionSubagentRuns hd
      exact ⟨x, hx, hsession, hcontainer⟩
  | commands =>
      obtain rfl := Option.some.inj h
      exact shrinks_cancelCommands _
  | binding =>
      obtain rfl := Option.some.inj h
      exact shrinks_mapSession pool sessionId (fun _ => rfl) (fun e _ hbound => by cases hbound)
  | done => cases h

end Shrinking

/-! ### No new starts -/

/-- The step starts nothing. -/
def NoStart : WorkspaceAction → Prop
  | .startTurn _ | .startSubagent _ | .startCommand _ => False
  | _ => True

/-- No driver that is already live binds its tools to the container. -/
def NotBinding (container : Nat) : WorkspaceAction → Prop
  | .bindTools _ bound => bound ≠ some container
  | _ => True

/-- How a call gets on. -/
inductive CallStep (i : Nat) (call : Invalidation) (s : Workspaces) :
    WorkspaceAction → Workspaces → Prop
  | select {pool : Nat} {sessions : List (String × SessionBranch)} (hphase : call.phase = .called pool)
      (hsessions : sessions = ((s.pool pool).filter
        (fun e => e.usesSandboxContainer call.container)).map (fun e => (e.sessionId, .driver))) :
      CallStep i call s (.select i) (s.setCall i call (.gathering pool sessions false false))
  | session {pool k : Nat} {sessions : List (String × SessionBranch)} {subagents commands : Bool}
      {sessionId : String} {branch : SessionBranch} {r : Workspaces × SessionBranch}
      (hphase : call.phase = .gathering pool sessions subagents commands)
      (hbranch : sessions[k]? = some (sessionId, branch))
      (hadvance : s.advanceSession pool sessionId branch = some r) :
      CallStep i call s (.session i k) (r.1.setCall i call
        (.gathering pool (sessions.set k (sessionId, r.2)) subagents commands))
  | subagents {pool : Nat} {sessions : List (String × SessionBranch)} {subagents commands : Bool}
      (hphase : call.phase = .gathering pool sessions subagents commands) :
      CallStep i call s (.subagents i) (s.setCall i call (.gathering pool sessions true commands))
  | commands {pool : Nat} {sessions : List (String × SessionBranch)} {subagents commands : Bool}
      (hphase : call.phase = .gathering pool sessions subagents commands) :
      CallStep i call s (.commands i) (Workspaces.setCall
        { s with
          commands := cancelCommands (fun row => decide (row.container = call.container)) s.commands }
        i call (.gathering pool sessions subagents true))
  | finish {pool : Nat} {sessions : List (String × SessionBranch)}
      (hphase : call.phase = .gathering pool sessions true true)
      (hdone : ∀ branch ∈ sessions, branch.2 = .done) :
      CallStep i call s (.finish i) (s.setCall i call .returned)

section CallSteps

variable {s t : Workspaces} {a : WorkspaceAction} {i : Nat}

/-- **Inversion.**  A step of a call. -/
theorem callStep_of_step (h : workspaceStep s a = some t)
    (ha : a = .select i ∨ (∃ k, a = .session i k) ∨ a = .subagents i ∨ a = .commands i ∨
      a = .finish i) :
    ∃ call, s.calls[i]? = some call ∧ CallStep i call s a t := by
  rcases ha with rfl | ⟨k, rfl⟩ | rfl | rfl | rfl
  · simp only [workspaceStep] at h
    split at h
    · rename_i call hcall
      split at h
      · rename_i pool hphase
        obtain rfl := Option.some.inj h
        exact ⟨call, hcall, .select hphase rfl⟩
      · cases h
    · cases h
  · simp only [workspaceStep] at h
    split at h
    · rename_i call hcall
      split at h
      · rename_i pool sessions subagents commands hphase
        split at h
        · rename_i sessionId branch hbranch
          obtain ⟨r, hr, rfl⟩ := Option.map_eq_some_iff.mp h
          exact ⟨call, hcall, .session hphase hbranch hr⟩
        · cases h
      · cases h
    · cases h
  · simp only [workspaceStep] at h
    split at h
    · rename_i call hcall
      split at h
      · rename_i pool sessions subagents commands hphase
        split at h
        all_goals
          obtain rfl := Option.some.inj h
          exact ⟨call, hcall, .subagents hphase⟩
      · cases h
    · cases h
  · simp only [workspaceStep] at h
    split at h
    · rename_i call hcall
      split at h
      · rename_i pool sessions subagents commands hphase
        obtain rfl := Option.some.inj h
        exact ⟨call, hcall, .commands hphase⟩
      · cases h
    · cases h
  · simp only [workspaceStep] at h
    split at h
    · rename_i call hcall
      split at h
      · rename_i pool sessions hphase
        split at h
        · rename_i hdone
          obtain rfl := Option.some.inj h
          exact ⟨call, hcall, .finish hphase (by simpa using hdone)⟩
        · cases h
      · cases h
    · cases h

/-- A step of a call adds nothing. -/
theorem CallStep.shrinks {c : Nat} {call : Invalidation} (h : CallStep i call s a t) :
    Shrinks c s t := by
  cases h with
  | select hphase hsessions => exact (Shrinks.refl c s).setCall _ _ _
  | session hphase hbranch hadvance => exact (advanceSession_shrinks hadvance).setCall _ _ _
  | subagents hphase => exact (Shrinks.refl c s).setCall _ _ _
  | commands hphase => exact (shrinks_cancelCommands _).setCall _ _ _
  | finish hphase hdone => exact (Shrinks.refl c s).setCall _ _ _

theorem advanceSession_calls {pool : Nat} {sessionId : String} {branch : SessionBranch}
    {r : Workspaces × SessionBranch} (h : s.advanceSession pool sessionId branch = some r) :
    r.1.calls = s.calls := by
  cases branch with
  | done => cases h
  | _ =>
      obtain rfl := Option.some.inj h
      rfl

/-- The other calls stand where they stood. -/
theorem CallStep.calls {call : Invalidation} (h : CallStep i call s a t) :
    ∃ phase, t.calls = s.calls.set i { call with phase := phase } := by
  cases h with
  | @session pool k sessions subagents commands sessionId branch r hphase hbranch hadvance =>
      refine ⟨.gathering pool (sessions.set k (sessionId, r.2)) subagents commands, ?_⟩
      rw [Workspaces.setCall, advanceSession_calls hadvance]
  | _ => exact ⟨_, rfl⟩

/-- A rebuild leaves nothing behind: its pool is empty, and so is the registry. -/
theorem rebuild_shrinks {c : Nat} (h : workspaceStep s .rebuild = some t) : Shrinks c s t := by
  obtain rfl := Option.some.inj h
  refine ⟨fun e he => ?_, fun d hd => absurd hd List.not_mem_nil, fun row hrow hc hr => ?_⟩
  · have hmem := he.1
    simp [Workspaces.pool, Workspaces.mapPool] at hmem
  · exact ⟨row, (mem_cancelCommands hrow hr).1, hc, hr⟩

/-- **One step.**  It gets a call on, or it leaves the calls alone and adds
nothing that uses the container. -/
theorem step_cases {c : Nat} (h : workspaceStep s a = some t) (hstart : NoStart a)
    (hbinding : NotBinding c a) :
    (∃ j call, s.calls[j]? = some call ∧ CallStep j call s a t) ∨
      (Shrinks c s t ∧ ∃ new, t.calls = s.calls ++ new) := by
  cases a with
  | select j =>
      obtain ⟨call, hcall, hget⟩ := callStep_of_step h (.inl rfl)
      exact .inl ⟨j, call, hcall, hget⟩
  | session j k =>
      obtain ⟨call, hcall, hget⟩ := callStep_of_step h (.inr (.inl ⟨k, rfl⟩))
      exact .inl ⟨j, call, hcall, hget⟩
  | subagents j =>
      obtain ⟨call, hcall, hget⟩ := callStep_of_step h (.inr (.inr (.inl rfl)))
      exact .inl ⟨j, call, hcall, hget⟩
  | commands j =>
      obtain ⟨call, hcall, hget⟩ := callStep_of_step h (.inr (.inr (.inr (.inl rfl))))
      exact .inl ⟨j, call, hcall, hget⟩
  | finish j =>
      obtain ⟨call, hcall, hget⟩ := callStep_of_step h (.inr (.inr (.inr (.inr rfl))))
      exact .inl ⟨j, call, hcall, hget⟩
  | bindInvalidator =>
      obtain rfl := Option.some.inj h
      exact .inr ⟨(Shrinks.refl c s).of_eq rfl rfl rfl rfl, [], by simp⟩
  | startTurn sessionId => exact hstart.elim
  | bindTools sessionId bound =>
      obtain rfl := Option.some.inj h
      refine .inr ⟨?_, [], by simp [Workspaces.mapSession, Workspaces.mapPool]⟩
      refine shrinks_mapSession s.current sessionId (fun _ => rfl) (fun e hrun hbound => ?_)
      -- A live driver would take the new container.
      have hlive : e.running = true := hrun
      simp only [hlive, if_true] at hbound
      exact absurd hbound hbinding
  | endTurn sessionId =>
      obtain rfl := Option.some.inj h
      refine .inr ⟨?_, [], by simp [Workspaces.mapSession, Workspaces.mapPool]⟩
      exact shrinks_mapSession s.current sessionId (fun _ => rfl) (fun e hrun => by cases hrun)
  | startSubagent driver => exact hstart.elim
  | advanceSubagent runId stage =>
      obtain rfl := Option.some.inj h
      refine .inr ⟨shrinks_drivers (fun d hd => ?_), [], by simp⟩
      obtain ⟨x, hx, ⟨-, rfl⟩ | ⟨-, rfl⟩⟩ := mem_mapWhere hd
      · exact ⟨x, hx, rfl, rfl⟩
      · exact ⟨d, hx, rfl, rfl⟩
  | endSubagent runId =>
      obtain rfl := Option.some.inj h
      refine .inr ⟨shrinks_drivers (fun d hd => ?_), [], by simp⟩
      exact ⟨d, (List.mem_filter.mp hd).1, rfl, rfl⟩
  | startCommand row => exact hstart.elim
  | endCommand runId =>
      obtain rfl := Option.some.inj h
      exact .inr ⟨shrinks_cancelCommands _, [], by simp⟩
  | rebuild =>
      refine .inr ⟨rebuild_shrinks h, [], ?_⟩
      obtain rfl := Option.some.inj h
      simp [Workspaces.mapPool]
  | invalidate container =>
      obtain rfl := Option.some.inj h
      exact .inr ⟨(Shrinks.refl c s).of_eq rfl rfl rfl rfl, _, rfl⟩

end CallSteps

/-! ### What an invalidation reaches -/

/-- Nothing is left that uses the container. -/
structure Invalidated (container : Nat) (s : Workspaces) : Prop where
  live : ∀ e ∈ s.pool s.current, e.running = true → e.toolContainer ≠ some container
  drivers : ∀ d ∈ s.drivers, d.container ≠ some container
  commands : ∀ row ∈ s.commands, row.container = container → row.running = false

/-- What is left is still before the branches of a call: a live session before
its own cancellation, a subagent driver before that of its session. -/
structure Sweeping (container pool : Nat) (sessions : List (String × SessionBranch))
    (commands : Bool) (s : Workspaces) : Prop where
  live : ∀ e, LiveIn container s e → pool = s.current ∧ (e.sessionId, .driver) ∈ sessions
  drivers : ∀ d ∈ s.drivers, d.container = some container →
    (d.sessionId, .driver) ∈ sessions ∨ (d.sessionId, .subagents) ∈ sessions
  commands : commands = true → ∀ row ∈ s.commands, row.container = container → row.running = false

section Sweep

variable {c : Nat} {s t : Workspaces}

theorem Invalidated.shrink (h : Invalidated c s) (hst : Shrinks c s t) : Invalidated c t where
  live e he hrun hbound := by
    obtain ⟨-, x, ⟨hx, hxrun, hxbound⟩, -⟩ := hst.live e ⟨he, hrun, hbound⟩
    exact h.live x hx hxrun hxbound
  drivers d hd hc := by
    obtain ⟨x, hx, -, hxc⟩ := hst.drivers d hd hc
    exact h.drivers x hx hxc
  commands row hrow hc := by
    cases hrun : row.running with
    | false => rfl
    | true =>
        obtain ⟨x, hx, hxc, hxrun⟩ := hst.commands row hrow hc hrun
        exact hxrun.symm.trans (h.commands x hx hxc)

variable {pool : Nat} {sessions : List (String × SessionBranch)} {commands : Bool}

theorem Sweeping.shrink (h : Sweeping c pool sessions commands s) (hst : Shrinks c s t) :
    Sweeping c pool sessions commands t where
  live e he := by
    obtain ⟨hcurrent, x, hx, hid⟩ := hst.live e he
    obtain ⟨hpool, hbranch⟩ := h.live x hx
    exact ⟨hpool.trans hcurrent.symm, hid ▸ hbranch⟩
  drivers d hd hc := by
    obtain ⟨x, hx, hid, hxc⟩ := hst.drivers d hd hc
    exact hid ▸ h.drivers x hx hxc
  commands hdone row hrow hc := by
    cases hrun : row.running with
    | false => rfl
    | true =>
        obtain ⟨x, hx, hxc, hxrun⟩ := hst.commands row hrow hc hrun
        exact hxrun.symm.trans (h.commands hdone x hx hxc)

/-- When all branches are done, nothing is left. -/
theorem Sweeping.invalidated (h : Sweeping c pool sessions true s)
    (hdone : ∀ branch ∈ sessions, branch.2 = .done) : Invalidated c s where
  live e he hrun hbound := by
    obtain ⟨-, hbranch⟩ := h.live e ⟨he, hrun, hbound⟩
    cases hdone _ hbranch
  drivers d hd hc := by
    rcases h.drivers d hd hc with hbranch | hbranch
    · cases hdone _ hbranch
    · cases hdone _ hbranch
  commands := h.commands rfl

/-- What the pool of the invalidator must know when it selects: it is the
current one, unless no live session uses the container, and each subagent driver
of the container belongs to one of its sessions that uses it, too. -/
def KnownTo (pool container : Nat) (s : Workspaces) : Prop :=
  (∀ e ∈ s.pool s.current, e.running = true → e.toolContainer = some container →
    pool = s.current) ∧
  ∀ d ∈ s.drivers, d.container = some container →
    ∃ e ∈ s.pool pool, e.sessionId = d.sessionId ∧ e.toolContainer = some container

/-- The pool a call is about to select from. -/
def Workspaces.selectsFrom (s : Workspaces) (i : Nat) : Option Nat :=
  match s.calls[i]? with
  | some ⟨_, .called pool⟩ => some pool
  | _ => none

/-- The branches of a call. -/
def Workspaces.branches (s : Workspaces) (i : Nat) : List (String × SessionBranch) :=
  match s.calls[i]? with
  | some ⟨_, .gathering _ sessions _ _⟩ => sessions
  | _ => []

/-- **When an invalidation reaches what it should.**  At its selection the pool
knows the sessions and the drivers of the container; when a session cancels its
subagents, the cancellation ends those of the container; and no main driver that
is already live binds its tools to the container. -/
def Reaches (i container : Nat) (s : Workspaces) : WorkspaceAction → Prop
  | .select j => j = i → ∀ pool ∈ s.selectsFrom i, KnownTo pool container s
  | .session j k => j = i → ∀ branch ∈ (s.branches i)[k]?, branch.2 = .subagents →
      ∀ d ∈ s.drivers, d.sessionId = branch.1 → d.container = some container →
        d.endsCancelled = true
  | .bindTools _ bound => bound ≠ some container
  | _ => True

theorem Reaches.notBinding {i : Nat} {a : WorkspaceAction} (h : Reaches i c s a) :
    NotBinding c a := by
  cases a with
  | bindTools sessionId bound => exact h
  | _ => trivial

/-- A selection meets everything that is left. -/
theorem sweeping_selected (h : KnownTo pool c s)
    (hsessions : sessions = ((s.pool pool).filter (fun e => e.usesSandboxContainer c)).map
      (fun e => (e.sessionId, .driver))) : Sweeping c pool sessions false s where
  live e he := by
    have hpool : pool = s.current := h.1 e he.1 he.2.1 he.2.2
    refine ⟨hpool, hsessions ▸ List.mem_map.mpr ⟨e, List.mem_filter.mpr ⟨?_, ?_⟩, rfl⟩⟩
    · exact hpool ▸ he.1
    · exact decide_eq_true he.2.2
  drivers d hd hc := by
    obtain ⟨e, he, hid, hbound⟩ := h.2 d hd hc
    refine .inl (hsessions ▸ List.mem_map.mpr ⟨e, List.mem_filter.mpr ⟨he, ?_⟩, ?_⟩)
    · exact decide_eq_true hbound
    · rw [hid]
  commands hdone := by cases hdone

/-- **Step of a session branch.**  What it was before, it cancels. -/
theorem Sweeping.advance (h : Sweeping c pool sessions commands s) {k : Nat}
    {sessionId : String} {branch : SessionBranch} {r : Workspaces × SessionBranch}
    (hbranch : sessions[k]? = some (sessionId, branch))
    (hadvance : s.advanceSession pool sessionId branch = some r)
    (hends : branch = .subagents → ∀ d ∈ s.drivers, d.sessionId = sessionId →
      d.container = some c → d.endsCancelled = true) :
    Sweeping c pool (sessions.set k (sessionId, r.2)) commands r.1 := by
  have hst : Shrinks c s r.1 := advanceSession_shrinks hadvance
  have hshrunk := h.shrink hst
  have hk : k < sessions.length := (List.getElem?_eq_some_iff.mp hbranch).1
  refine ⟨fun e he => ?_, fun d hd hc => ?_, hshrunk.commands⟩
  · obtain ⟨hpool, hmem⟩ := hshrunk.live e he
    refine ⟨hpool, mem_set_of_ne hbranch hmem (fun heq => ?_)⟩
    -- Its own session has just been cancelled.
    obtain ⟨rfl, rfl⟩ := Prod.mk.inj heq
    obtain rfl := Option.some.inj hadvance
    obtain ⟨x, -, ⟨rfl, hne⟩ | ⟨-, -, rfl⟩⟩ := mem_pool_mapSession he.1
    · exact hne ⟨hpool, rfl⟩
    · cases he.2.1
  · rcases hshrunk.drivers d hd hc with hmem | hmem
    · by_cases heq : (d.sessionId, SessionBranch.driver) = (sessionId, branch)
      · -- The session is done with its main driver, and its subagents come next.
        obtain ⟨rfl, rfl⟩ := Prod.mk.inj heq
        obtain rfl := Option.some.inj hadvance
        exact .inr (List.mem_set hk _)
      · exact .inl (mem_set_of_ne hbranch hmem heq)
    · by_cases heq : (d.sessionId, SessionBranch.subagents) = (sessionId, branch)
      · -- The cancellation of its session has ended it.
        obtain ⟨rfl, rfl⟩ := Prod.mk.inj heq
        obtain rfl := Option.some.inj hadvance
        obtain ⟨x, hx, hid, hcontainer, hkept⟩ := mem_cancelSessionSubagentRuns hd
        have hended := hends rfl x hx hid (hcontainer.trans hc)
        rw [hkept hid] at hended
        cases hended
      · exact .inr (mem_set_of_ne hbranch hmem heq)

/-- What an invalidation has to do, by where it stands. -/
def Standing (container : Nat) (s : Workspaces) : InvalidationPhase → Prop
  | .called _ => True
  | .gathering pool sessions _ commands => Sweeping container pool sessions commands s
  | .returned => Invalidated container s

/-- The invalidation `i` of the container and what it has to do. -/
def Tracks (i container : Nat) (s : Workspaces) : Prop :=
  ∃ phase, s.calls[i]? = some ⟨container, phase⟩ ∧ Standing container s phase

theorem Standing.shrink {phase : InvalidationPhase} (h : Standing c s phase)
    (hst : Shrinks c s t) : Standing c t phase := by
  cases phase with
  | called pool => trivial
  | gathering pool sessions subagents commands => exact Sweeping.shrink h hst
  | returned => exact Invalidated.shrink h hst

/-- **Step of the call itself.** -/
theorem standing_callStep {i : Nat} {a : WorkspaceAction} {phase : InvalidationPhase}
    (hcall : s.calls[i]? = some ⟨c, phase⟩) (h : Standing c s phase)
    (hreach : Reaches i c s a) (hget : CallStep i ⟨c, phase⟩ s a t) : Tracks i c t := by
  have hi : i < s.calls.length := (List.getElem?_eq_some_iff.mp hcall).1
  have hset : ∀ (u : Workspaces) (next : InvalidationPhase), u.calls = s.calls →
      (u.setCall i ⟨c, phase⟩ next).calls[i]? = some ⟨c, next⟩ := by
    intro u next hu
    simp [Workspaces.setCall, hu, hi]
  cases hget with
  | @select pool sessions hphase hsessions =>
      obtain rfl : phase = .called pool := hphase
      refine ⟨_, hset s _ rfl, ?_⟩
      have hknown : KnownTo pool c s := hreach rfl pool (by simp [Workspaces.selectsFrom, hcall])
      exact (sweeping_selected hknown hsessions).shrink ((Shrinks.refl c s).setCall _ _ _)
  | @session pool k sessions subagents commands sessionId branch r hphase hbranch hadvance =>
      obtain rfl : phase = .gathering pool sessions subagents commands := hphase
      refine ⟨_, hset r.1 _ (advanceSession_calls hadvance), ?_⟩
      have hends : branch = .subagents → ∀ d ∈ s.drivers, d.sessionId = sessionId →
          d.container = some c → d.endsCancelled = true :=
        hreach rfl (sessionId, branch) (by simpa [Workspaces.branches, hcall] using hbranch)
      exact (Sweeping.advance h hbranch hadvance hends).shrink ((Shrinks.refl c r.1).setCall _ _ _)
  | @subagents pool sessions subagents commands hphase =>
      obtain rfl : phase = .gathering pool sessions subagents commands := hphase
      exact ⟨_, hset s _ rfl, Sweeping.shrink h ((Shrinks.refl c s).setCall _ _ _)⟩
  | @commands pool sessions subagents commands hphase =>
      obtain rfl : phase = .gathering pool sessions subagents commands := hphase
      refine ⟨_, hset _ _ rfl, ?_⟩
      have hswept := Sweeping.shrink h (shrinks_cancelCommands (fun row => decide (row.container = c)))
      refine ⟨hswept.live, hswept.drivers, fun _ row hrow hc => ?_⟩
      cases hrun : row.running with
      | false => rfl
      | true =>
          have hkept := (mem_cancelCommands hrow hrun).2
          simp [hc] at hkept
  | @finish pool sessions hphase hdone =>
      obtain rfl : phase = .gathering pool sessions true true := hphase
      refine ⟨_, hset s _ rfl, ?_⟩
      exact (Sweeping.invalidated h hdone).shrink ((Shrinks.refl c s).setCall _ _ _)

/-- **Step.** -/
theorem tracks_step {i : Nat} {a : WorkspaceAction} (h : Tracks i c s)
    (hstep : workspaceStep s a = some t) (hstart : NoStart a) (hreach : Reaches i c s a) :
    Tracks i c t := by
  obtain ⟨phase, hcall, hstanding⟩ := h
  rcases step_cases hstep hstart hreach.notBinding with ⟨j, call, hj, hget⟩ | ⟨hst, new, hcalls⟩
  · by_cases hij : j = i
    · subst hij
      obtain rfl := Option.some.inj (hj.symm.trans hcall)
      exact standing_callStep hcall hstanding hreach hget
    · obtain ⟨next, hcalls⟩ := hget.calls
      refine ⟨phase, ?_, hstanding.shrink hget.shrinks⟩
      rw [hcalls, List.getElem?_set_ne hij]
      exact hcall
  · refine ⟨phase, ?_, hstanding.shrink hst⟩
    rw [hcalls]
    exact List.getElem?_append_left (List.getElem?_eq_some_iff.mp hcall).1 ▸ hcall

/-- **Where the invalidation reaches every driver.**  From any content of the
pools, any registered subagents and any number of rebuilds: when start-up has
bound the invalidator, nothing starts after the call and the steps meet `Reaches`,
nothing uses the container once the call has returned. -/
theorem invalidation_reaches {s called t : Workspaces} {container : Nat}
    {acts : List WorkspaceAction}
    (hcall : workspaceStep s (.invalidate container) = some called)
    (hinvalidator : s.invalidator.isSome = true)
    (hstart : StepsMeet workspaceMachine (fun _ a _ => NoStart a) called acts)
    (hreach : StepsMeet workspaceMachine
      (fun u a _ => Reaches s.calls.length container u a) called acts)
    (hexec : exec workspaceMachine called acts = some t)
    (hreturned : t.calls[s.calls.length]? = some ⟨container, .returned⟩) :
    Invalidated container t := by
  have hcalled : Tracks s.calls.length container called := by
    obtain ⟨pool, hpool⟩ := Option.isSome_iff_exists.mp hinvalidator
    obtain rfl := Option.some.inj hcall
    exact ⟨.called pool, by simp [hpool], trivial⟩
  obtain ⟨phase, hphase, hstanding⟩ : Tracks s.calls.length container t :=
    exec_invariant (m := workspaceMachine) (I := Tracks s.calls.length container)
      (fun u a v hu hok hstep => tracks_step hu hstep hok.1 hok.2) hcalled
      (stepsMeet_and hstart hreach) hexec
  obtain ⟨-, rfl⟩ := Invalidation.mk.inj (Option.some.inj (hphase.symm.trans hreturned))
  exact hstanding

end Sweep

/-! ### Two runs -/

instance (pool container : Nat) (s : Workspaces) : Decidable (KnownTo pool container s) := by
  unfold KnownTo; infer_instance

instance (i container : Nat) (s : Workspaces) (a : WorkspaceAction) :
    Decidable (Reaches i container s a) := by
  cases a <;> (unfold Reaches; infer_instance)

instance (a : WorkspaceAction) : Decidable (NoStart a) := by
  cases a <;> (unfold NoStart; infer_instance)

/-- A session starts a turn in workspace 1 and delegates to a subagent that gets
to work; then workspace 1 is invalidated. -/
def delegatedActs : List WorkspaceAction :=
  [.bindInvalidator, .startTurn "session", .bindTools "session" (some 1),
    .startCommand { runId := "command", sessionId := "session", container := 1 },
    .startSubagent { runId := "run", sessionId := "session", container := some 1 },
    .advanceSubagent "run" .working]

/-- The state of the call. -/
def delegated : Workspaces := (exec workspaceMachine {} delegatedActs).getD {}

/-- The session is selected, and its branch cancels the subagent. -/
def sweptActs : List WorkspaceAction :=
  [.select 0, .subagents 0, .session 0 0, .session 0 0, .session 0 0, .session 0 0,
    .commands 0, .finish 0]

/-- The rule above at this run. -/
theorem delegated_reached :
    ∃ called t, workspaceStep delegated (.invalidate 1) = some called ∧
      exec workspaceMachine called sweptActs = some t ∧ Invalidated 1 t := by
  let called : Workspaces := (workspaceStep delegated (.invalidate 1)).getD {}
  let t : Workspaces := (exec workspaceMachine called sweptActs).getD {}
  have hcall : workspaceStep delegated (.invalidate 1) = some called := rfl
  have hexec : exec workspaceMachine called sweptActs = some t := rfl
  have hstart : StepsMeet workspaceMachine (fun _ a _ => NoStart a) called sweptActs := by decide
  have hreach : StepsMeet workspaceMachine
      (fun u a _ => Reaches delegated.calls.length 1 u a) called sweptActs := by decide
  exact ⟨called, t, hcall, hexec,
    invalidation_reaches hcall rfl hstart hreach hexec rfl⟩

/-- **A subagent the invalidation does not reach.**  The user turns to workspace 2
while the subagent works in workspace 1.  The session is not selected any more,
the branch for the subagents raises, and the invalidation of workspace 1 returns
with the subagent registered and at work. -/
theorem subagent_keeps_running :
    ∃ s called t,
      exec workspaceMachine {} (delegatedActs ++
        [.endTurn "session", .startTurn "session", .bindTools "session" (some 2)]) = some s ∧
      workspaceStep s (.invalidate 1) = some called ∧
      exec workspaceMachine called [.select 0, .subagents 0, .commands 0, .finish 0] = some t ∧
      StepsMeet workspaceMachine (fun _ a _ => NoStart a) called
        [.select 0, .subagents 0, .commands 0, .finish 0] ∧
      t.calls[0]? = some ⟨1, .returned⟩ ∧
      t.drivers = [⟨"run", "session", some 1, .working⟩] ∧ ¬ Invalidated 1 t := by
  refine ⟨_, _, _, rfl, rfl, rfl, by decide, rfl, rfl, fun h => ?_⟩
  exact h.drivers ⟨"run", "session", some 1, .working⟩ (by decide) rfl

end Workbench.Invalidations
