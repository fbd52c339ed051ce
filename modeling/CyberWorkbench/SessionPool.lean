import CyberWorkbench.SessionLiveness

/-!
# The pool of live sessions

`AgentSessionPool` holds one `AgentSession` for each session id.  A caller asks
`get_or_create` for it, waits until the pool has shrunk to its capacity, and
only then starts a turn or a recovery on the object it was given; meanwhile the
TTL sweep and other callers evict idle entries, each in three parts: choose
candidates, ask the inbox about each, pop and close.

Sections under the pool lock contain no await, so each is one step.  What goes
on inside a session is a step of `livenessMachine`; its record is left out.
-/

namespace Workbench.Pool

open StepMachine Liveness

/-! ### State -/

/-- An `AgentSession` and the `last_used_at` of its `_PooledSession`. -/
structure SessionObject where
  sessionId : String
  live : LiveSession := {}
  subscribers : Nat := 0
  closed : Bool := false
  lastUsedAt : Nat

/-- What a caller does with the session it gets. -/
inductive Caller where
  /-- `submit_turn`: `start_turn`. -/
  | turn (target : RunTarget)
  /-- `resume_session`, boot: `start_notification_recovery`. -/
  | recovery (target : RunTarget)
  /-- `subscribe`. -/
  | subscriber
  deriving DecidableEq, Repr

/-- `_EvictionCandidate`; the entry is known by its session object. -/
structure EvictionCandidate where
  sessionId : String
  object : Nat
  lastUsedAt : Nat
  deriving DecidableEq, Repr

/-- Where an operation on the pool stands.  `next` is the object a caller
holds and what it is going to do with it; the sweep holds none. -/
inductive PoolPhase where
  /-- `resume_session` before its `get_or_create`. -/
  | resuming (sessionId : String) (target : RunTarget)
  /-- `get_or_create`. -/
  | getting (sessionId : String) (caller : Caller)
  /-- `_enforce_capacity`. -/
  | enforcing (sessionId : String) (object : Nat) (caller : Caller)
  /-- `_claim_inactive_evictions`, asking about one candidate after the other. -/
  | claiming (candidates : List EvictionCandidate) (limit : Option Nat) (chosen : List String)
      (observed : List EvictionCandidate) (next : Option (Nat × Caller))
  /-- Its second section under the lock. -/
  | popping (chosen : List String) (observed : List EvictionCandidate)
      (next : Option (Nat × Caller))
  /-- `_close_evicted`. -/
  | closing (evicted : List Nat) (next : Option (Nat × Caller))
  | finished
  deriving DecidableEq, Repr

/-- The pool: every session object made so far, those it holds by their id, and
the operations in progress. -/
structure PoolState where
  objects : List SessionObject := []
  pool : List (String × Nat) := []
  ops : List PoolPhase := []

/-- `_max_size` and `_ttl`. -/
structure PoolConfig where
  maxSize : Nat
  ttl : Nat

/-- `_pool.get`. -/
def lookup (pool : List (String × Nat)) (sessionId : String) : Option Nat :=
  (pool.find? (fun entry => decide (entry.1 = sessionId))).map Prod.snd

/-- `_pool.pop`. -/
def remove (pool : List (String × Nat)) (sessionId : String) : List (String × Nat) :=
  pool.filter (fun entry => decide (entry.1 ≠ sessionId))

/-- Neither running nor subscribed. -/
def SessionObject.isIdle (object : SessionObject) : Bool :=
  !object.live.isRunning && decide (object.subscribers = 0)

namespace PoolState

/-- Set an operation's phase. -/
def setOp (s : PoolState) (i : Nat) (phase : PoolPhase) : PoolState :=
  { s with ops := s.ops.set i phase }

/-- Change a session object. -/
def setObject (s : PoolState) (o : Nat) (object : SessionObject) : PoolState :=
  { s with objects := s.objects.set o object }

/-- The idle entries as candidates, in pool order. -/
def candidates (s : PoolState) (passes : String → SessionObject → Bool) :
    List EvictionCandidate :=
  s.pool.filterMap fun (sessionId, o) =>
    match s.objects[o]? with
    | none => none
    | some object =>
        if object.isIdle && passes sessionId object then some ⟨sessionId, o, object.lastUsedAt⟩
        else none

end PoolState

/-! ### Choosing what to evict -/

/-- Insert before the first candidate used later. -/
def insertByLastUsed (candidate : EvictionCandidate) :
    List EvictionCandidate → List EvictionCandidate
  | [] => [candidate]
  | first :: rest =>
      if candidate.lastUsedAt ≤ first.lastUsedAt then candidate :: first :: rest
      else first :: insertByLastUsed candidate rest

/-- `sorted` by `last_used_at`. -/
def sortByLastUsed (candidates : List EvictionCandidate) : List EvictionCandidate :=
  candidates.foldr insertByLastUsed []

/-- `_sweep_expired_candidates_locked`. -/
def sweepExpiredCandidates (config : PoolConfig) (s : PoolState) (now : Nat) :
    List EvictionCandidate :=
  if config.ttl = 0 then []
  else s.candidates (fun _ object => decide (config.ttl < now - object.lastUsedAt))

/-- `_capacity_candidates_locked`. -/
def capacityCandidates (config : PoolConfig) (s : PoolState) (protectedSessionId : String) :
    List EvictionCandidate :=
  if s.pool.length ≤ config.maxSize then []
  else sortByLastUsed
    (s.candidates (fun sessionId _ => decide (sessionId ≠ protectedSessionId)))

/-- The tests a candidate has to pass before the inbox is asked. -/
def stillIdle (s : PoolState) (candidate : EvictionCandidate) : Bool :=
  match s.objects[candidate.object]? with
  | none => false
  | some object => object.isIdle && decide (object.lastUsedAt = candidate.lastUsedAt)

/-- `observed_last_used.get`. -/
def observedLastUsed (observed : List EvictionCandidate) (sessionId : String) : Option Nat :=
  (observed.find? (fun candidate => decide (candidate.sessionId = sessionId))).map
    EvictionCandidate.lastUsedAt

/-- The tests under the lock, of the object the pool holds now. -/
def evictable (s : PoolState) (observed : List EvictionCandidate) (sessionId : String) (o : Nat) :
    Bool :=
  match s.objects[o]? with
  | none => false
  | some object =>
      object.isIdle && decide (observedLastUsed observed sessionId = some object.lastUsedAt)

/-- Pop what is still evictable: the pool left, and the objects popped. -/
def popEvicted (s : PoolState) (observed : List EvictionCandidate) :
    List (String × Nat) → List String → List (String × Nat) × List Nat
  | pool, [] => (pool, [])
  | pool, sessionId :: rest =>
      match lookup pool sessionId with
      | none => popEvicted s observed pool rest
      | some o =>
          if evictable s observed sessionId o then
            let left := popEvicted s observed (remove pool sessionId) rest
            (left.1, o :: left.2)
          else popEvicted s observed pool rest

/-! ### Steps -/

/-- `_get_or_create_locked`. -/
def getOrCreateLocked (s : PoolState) (sessionId : String) (now : Nat) : PoolState × Nat :=
  match lookup s.pool sessionId with
  | none =>
      ({ s with
          objects := s.objects ++ [{ sessionId := sessionId, lastUsedAt := now }]
          pool := s.pool ++ [(sessionId, s.objects.length)] }, s.objects.length)
  | some o =>
      match s.objects[o]? with
      | none => (s, o)
      | some object => (s.setObject o { object with lastUsedAt := now }, o)

/-- A caller that has been through `get_or_create` uses its session. -/
def useSession (s : PoolState) (o : Nat) (object : SessionObject) : Caller → Option PoolState
  | .turn target =>
      (livenessStep object.live (.startTurn target)).map fun live =>
        s.setObject o { object with live := live }
  | .recovery target =>
      (livenessStep object.live (.startNotificationRecovery target)).map fun live =>
        s.setObject o { object with live := live }
  | .subscriber => some (s.setObject o { object with subscribers := object.subscribers + 1 })

/-- The next step of operation `i`; `found` is what its query finds. -/
def advancePool (config : PoolConfig) (s : PoolState) (i : Nat) (found : Bool) (now : Nat) :
    PoolPhase → Option PoolState
  | .resuming sessionId target =>
      if found then some (s.setOp i (.getting sessionId (.recovery target)))
      else some (s.setOp i .finished)
  | .getting sessionId caller =>
      let got := getOrCreateLocked s sessionId now
      some (got.1.setOp i (.enforcing sessionId got.2 caller))
  | .enforcing sessionId o caller =>
      let candidates := capacityCandidates config s sessionId
      some (s.setOp i (.claiming candidates (some (s.pool.length - config.maxSize)) [] candidates
        (some (o, caller))))
  | .claiming [] _ chosen observed next => some (s.setOp i (.popping chosen observed next))
  | .claiming (candidate :: rest) limit chosen observed next =>
      if limit.any (fun limit => decide (limit ≤ chosen.length)) then
        some (s.setOp i (.popping chosen observed next))
      else if !stillIdle s candidate || found then
        some (s.setOp i (.claiming rest limit chosen observed next))
      else
        some (s.setOp i (.claiming rest limit (chosen ++ [candidate.sessionId]) observed next))
  | .popping chosen observed next =>
      let left := popEvicted s observed s.pool chosen
      some ({ s with pool := left.1 }.setOp i (.closing left.2 next))
  | .closing (o :: rest) next =>
      match s.objects[o]? with
      | none => none
      | some object =>
          some ((s.setObject o { object with closed := true, subscribers := 0 }).setOp i
            (.closing rest next))
  | .closing [] none => some (s.setOp i .finished)
  | .closing [] (some (o, caller)) =>
      match s.objects[o]? with
      | none => none
      | some object => (useSession s o object caller).map fun used => used.setOp i .finished
  | .finished => none

inductive PoolAction where
  | submitTurn (sessionId : String) (target : RunTarget)
  | resumeSession (sessionId : String) (target : RunTarget)
  | subscribe (sessionId : String)
  | unsubscribe (object : Nat)
  /-- `publish` touches the entry. -/
  | publish (sessionId : String) (now : Nat)
  /-- One round of `_sweep_loop`. -/
  | sweep (now : Nat)
  /-- The next step of an operation on the pool. -/
  | advance (op : Nat) (found : Bool) (now : Nat)
  /-- A step inside a session. -/
  | session (object : Nat) (action : LivenessAction)

/-- Change the object with this index, if there is one. -/
def PoolState.updateObject (s : PoolState) (o : Nat) (f : SessionObject → SessionObject) :
    PoolState :=
  match s.objects[o]? with
  | none => s
  | some object => s.setObject o (f object)

/-- One step of the pool. -/
def poolStep (config : PoolConfig) (s : PoolState) : PoolAction → Option PoolState
  | .submitTurn sessionId target =>
      some { s with ops := s.ops ++ [.getting sessionId (.turn target)] }
  | .resumeSession sessionId target =>
      some { s with ops := s.ops ++ [.resuming sessionId target] }
  | .subscribe sessionId => some { s with ops := s.ops ++ [.getting sessionId .subscriber] }
  | .unsubscribe o =>
      some (s.updateObject o fun object => { object with subscribers := object.subscribers - 1 })
  | .publish sessionId now =>
      match lookup s.pool sessionId with
      | none => some s
      | some o => some (s.updateObject o fun object => { object with lastUsedAt := now })
  | .sweep now =>
      let candidates := sweepExpiredCandidates config s now
      some { s with ops := s.ops ++ [.claiming candidates none [] candidates none] }
  | .advance i found now =>
      match s.ops[i]? with
      | none => none
      | some phase => advancePool config s i found now phase
  | .session o action =>
      match action, s.objects[o]? with
      | .startTurn _, _ => none
      | .startNotificationRecovery _, _ => none
      | _, none => none
      | action, some object =>
          (livenessStep object.live action).map fun live =>
            s.setObject o { object with live := live }

/-- A pool just made. -/
def poolMachine (config : PoolConfig) : Machine PoolState PoolAction where
  Start s := s.objects = [] ∧ s.pool = [] ∧ s.ops = []
  step := poolStep config

end Workbench.Pool
