import CyberWorkbench.InstanceConfig
import CyberWorkbench.StepMachine

/-!
# The permission mode while the configuration is updated

`update_mode` writes the mode to the file and to memory in one step, under a
lock of its own.  `update_instance_config` and `get_instance_config` work under
another lock, and between their steps they wait: for the status of the stored
documents, for the restart of LightRAG, for the rebuild of the agents.  What
they read before a wait they write after it.

* `modeMachine`: calls of the three in any interleaving;
* `call_alone`: a call by itself is `updateInstanceConfig`;
* `mode_stands`: the mode that was set stands in every run in which
  `update_mode` overtakes only calls that would write no other mode.
-/

namespace Workbench.SystemConfig

open StepMachine

/-! ### Calls -/

/-- A call that waits for the lock: `update_instance_config` with its request,
or `get_instance_config`.  `overtaken`: `update_mode` has returned since it was
submitted. -/
structure WaitingCall where
  requested : Option UpdateInstanceConfigRequest
  overtaken : Bool := false

/-- What a call that has the lock waits for. -/
inductive CallPhase where
  | checking
  | restarting
  | rebuilding
  | restartingBack
  deriving DecidableEq, Repr

/-- A call that has the lock. -/
structure RunningCall extends WaitingCall where
  /-- The file as it was read. -/
  current : GlobalConfig
  /-- What is applied. -/
  next : GlobalConfig
  /-- The snapshot of memory. -/
  previous : InstanceConfig
  agentRuntimeChanged : Bool := false
  lightragRuntimeChanged : Bool := false
  phase : CallPhase := .checking

/-- The file, the memory, and the calls.  `expected` is the mode that
`update_mode` has set, until a call that was submitted later sets another. -/
structure ModeState where
  file : GlobalConfig
  memory : GlobalConfig
  waiting : List WaitingCall := []
  running : Option RunningCall := none
  expected : Option PermissionMode := none

/-- The call raises: an update puts back the file as it was read. -/
def raiseCall (s : ModeState) (call : WaitingCall) (current : GlobalConfig) : ModeState :=
  { s with
    running := none
    file := if call.requested.isSome then current else s.file }

/-- The mode to expect after a call that returned. -/
def expectedAfter (expected : Option PermissionMode) (call : WaitingCall) : Option PermissionMode :=
  match call.overtaken, call.requested with
  | false, some request => expected.filter (fun mode => decide (mode = request.permissions.mode))
  | _, _ => expected

/-- The end of `_apply_instance_config_from_file`. -/
def returnResult (s : ModeState) (call : RunningCall) : ModeState :=
  match instanceConfigFromGlobal s.memory with
  | .ok _ => { s with running := none, expected := expectedAfter s.expected call.toWaitingCall }
  | .error _ => raiseCall s call.toWaitingCall call.current

/-- On to the rebuild of the agents. -/
def toRebuild (s : ModeState) (call : RunningCall) : ModeState :=
  if call.agentRuntimeChanged then { s with running := some { call with phase := .rebuilding } }
  else returnResult s call

/-- Apply what was read or requested, and on to the restart. -/
def toRestart (s : ModeState) (call : RunningCall) : ModeState :=
  let applied := applyInstanceConfig s.memory call.next
  let call := { call with
    agentRuntimeChanged := applied.2.1, lightragRuntimeChanged := applied.2.2, phase := .restarting }
  let s := { s with memory := applied.1 }
  if applied.2.2 then { s with running := some call } else toRebuild s call

/-- The first test of `_ensure_embedding_storage_compatible`. -/
def embeddingUnchanged (current next : LightRAGConfig) : Bool :=
  decide (current.embeddingApi = next.embeddingApi ∧
    current.embeddingModel = next.embeddingModel ∧ current.embeddingDim = next.embeddingDim)

/-- `_apply_instance_config_from_file`, up to its first wait. -/
def applyCall (s : ModeState) (call : WaitingCall) (current next : GlobalConfig) : ModeState :=
  match instanceConfigFromGlobal s.memory with
  | .error _ => raiseCall s call current
  | .ok previous =>
      let running : RunningCall := ⟨call, current, next, previous, false, false, .checking⟩
      if embeddingUnchanged previous.lightrag next.lightrag then toRestart s running
      else { s with running := some running }

/-- A call gets the lock. -/
def beginCall (env : ProviderEnvironment) (s : ModeState) (call : WaitingCall) : ModeState :=
  let current := readConfigFile env s.file
  match call.requested with
  | none => applyCall s call current current
  | some request =>
      if SameKeys request.agents current.agents then
        applyCall { s with file := nextConfig request current } call current
          (nextConfig request current)
      else s

/-- `update_mode` -/
def updateMode (env : ProviderEnvironment) (s : ModeState) (mode : PermissionMode) : ModeState :=
  let read := readConfigFile env s.file
  let fileCfg := { read with permissions := { read.permissions with mode := mode } }
  { file := fileCfg
    memory := { s.memory with permissions := fileCfg.permissions }
    waiting := s.waiting.map (fun call => { call with overtaken := true })
    running := s.running.map (fun call => { call with overtaken := true })
    expected := some mode }

/-! ### The machine -/

/-- What happens next: a call is submitted, given up or gets the lock; what the
call with the lock waits for has come out; or the mode is set. -/
inductive ModeAction
  | submit (requested : Option UpdateInstanceConfigRequest)
  | giveUp (i : Nat)
  | acquire (i : Nat)
  | checked (statusCounts : Except Failure (List Int))
  | restarted (outcome : Except Failure Unit)
  | rebuilt (outcome : Except Failure Unit)
  | restartedBack
  | updateMode (mode : PermissionMode)

/-- What the call with the lock waits for has come out. -/
def resumeCall (s : ModeState) (call : RunningCall) : ModeAction → Option ModeState
  | .checked statusCounts =>
      if call.phase = .checking then
        some (match ensureEmbeddingStorageCompatible statusCounts call.previous.lightrag
            call.next.lightrag with
          | .ok () => toRestart s call
          | .error _ => raiseCall s call.toWaitingCall call.current)
      else none
  | .restarted outcome =>
      if call.phase = .restarting then
        some (match outcome with
          | .ok () => toRebuild s call
          | .error _ => raiseCall { s with memory := restoreInstanceConfig s.memory call.previous }
              call.toWaitingCall call.current)
      else none
  | .rebuilt outcome =>
      if call.phase = .rebuilding then
        some (match outcome with
          | .ok () => returnResult s call
          | .error _ =>
              let s := { s with memory := restoreInstanceConfig s.memory call.previous }
              if call.lightragRuntimeChanged then
                { s with running := some { call with phase := .restartingBack } }
              else raiseCall s call.toWaitingCall call.current)
      else none
  | .restartedBack =>
      if call.phase = .restartingBack then some (raiseCall s call.toWaitingCall call.current)
      else none
  | .submit _ | .giveUp _ | .acquire _ | .updateMode _ => none

def modeStep (env : ProviderEnvironment) (s : ModeState) : ModeAction → Option ModeState
  | .submit requested => some { s with waiting := s.waiting ++ [⟨requested, false⟩] }
  | .giveUp i => some { s with waiting := s.waiting.eraseIdx i }
  | .acquire i =>
      match s.running, s.waiting[i]? with
      | none, some call => some (beginCall env { s with waiting := s.waiting.eraseIdx i } call)
      | _, _ => none
  | .updateMode mode => some (updateMode env s mode)
  | action => s.running.bind (fun call => resumeCall s call action)

/-- `load_config` has read the file into memory. -/
def modeMachine (env : ProviderEnvironment) : Machine ModeState ModeAction where
  Start s := s.memory = readConfigFile env s.file ∧ s.waiting = [] ∧ s.running = none ∧
    s.expected = none
  step := modeStep env

/-! ### The property and its condition -/

/-- The mode that was set stands, where no call is at work. -/
def ModeStands (s : ModeState) : Prop :=
  s.running = none → s.waiting = [] → ∀ mode, s.expected = some mode →
    s.memory.permissions.mode = mode ∧ s.file.permissions.mode = mode

/-- The outcome makes the call raise. -/
def raises (call : RunningCall) : ModeAction → Bool
  | .checked statusCounts =>
      !(ensureEmbeddingStorageCompatible statusCounts call.previous.lightrag
        call.next.lightrag).isOk
  | .restarted outcome => !outcome.isOk
  | .rebuilt outcome => !outcome.isOk
  | .restartedBack => true
  | _ => false

/-- The outcome makes the call restore memory. -/
def restores : ModeAction → Bool
  | .restarted _ | .rebuilt _ => true
  | _ => false

/-- **Only harmless calls are overtaken**: where `update_mode` sets a mode, the
updates that wait ask for it too, and what a call in its check is to apply has
it; and a call that was overtaken fails only where what it puts back has the
mode that is there. -/
def OvertakesHarmless (s : ModeState) : ModeAction → Prop
  | .updateMode mode =>
      (∀ call ∈ s.waiting, ∀ request ∈ call.requested, request.permissions.mode = mode) ∧
      ∀ call ∈ s.running, call.phase = .checking → call.next.permissions.mode = mode
  | action =>
      ∀ call ∈ s.running, call.overtaken = true → raises call action = true →
        (restores action = true → call.previous.permissions.mode = s.file.permissions.mode) ∧
        (call.requested.isSome = true → call.current.permissions.mode = s.file.permissions.mode)

instance (s : ModeState) (action : ModeAction) : Decidable (OvertakesHarmless s action) := by
  unfold OvertakesHarmless
  split <;> infer_instance

/-! ### A call by itself -/

/-- The call comes to its end, with this memory; the file is as written, or as
read where the call raises. -/
def Finishes (env : ProviderEnvironment) (s : ModeState) (current next : GlobalConfig)
    (out : GlobalConfig × Except Failure InstanceConfigApplyResult) : Prop :=
  ∃ actions t, exec (modeMachine env) s actions = some t ∧ t.running = none ∧ t.memory = out.1 ∧
    t.file = if out.2.isOk then next else current

section Alone

variable {env : ProviderEnvironment} {s s' : ModeState} {current next : GlobalConfig}
  {out : GlobalConfig × Except Failure InstanceConfigApplyResult} {call : RunningCall}

theorem Finishes.step (action : ModeAction) (hstep : modeStep env s action = some s')
    (h : Finishes env s' current next out) : Finishes env s current next out := by
  obtain ⟨actions, t, hexec, hend⟩ := h
  exact ⟨action :: actions, t, (exec_cons_of_step actions hstep).trans hexec, hend⟩

theorem finishes_raiseCall (call : WaitingCall) (hrequested : call.requested.isSome = true)
    (herror : out.2.isOk = false) (hmemory : s.memory = out.1) :
    Finishes env (raiseCall s call current) current next out := by
  refine ⟨[], _, rfl, rfl, hmemory, ?_⟩
  rw [herror]
  exact if_pos hrequested

theorem finishes_returnResult (call : RunningCall) (hrequested : call.requested.isSome = true)
    (hfile : s.file = next) (restarted : Bool) :
    Finishes env (returnResult s call) call.current next (applyResult s.memory restarted) := by
  unfold returnResult
  cases hconfig : instanceConfigFromGlobal s.memory with
  | ok config =>
      refine ⟨[], _, rfl, rfl, rfl, ?_⟩
      unfold applyResult
      rw [hconfig]
      exact hfile
  | error failure =>
      refine finishes_raiseCall call.toWaitingCall hrequested ?_ rfl
      unfold applyResult
      rw [hconfig]
      rfl

/-- A rebuild that is not needed, or succeeds. -/
theorem rebuildStage_ok {outcomes : StageOutcomes} {agentRuntimeChanged : Bool}
    (h : agentRuntimeChanged = true → outcomes.rebuild = .ok ()) (previous : InstanceConfig)
    (memory : GlobalConfig) (lightragRuntimeChanged : Bool) :
    rebuildStage outcomes previous memory agentRuntimeChanged lightragRuntimeChanged =
      applyResult memory (agentRuntimeChanged || lightragRuntimeChanged) := by
  unfold rebuildStage
  split
  · next failure hfail =>
      rw [h rfl] at hfail
      cases hfail
  · rfl

/-- A rebuild that fails. -/
theorem rebuildStage_fails {outcomes : StageOutcomes} {failure : Failure}
    (h : outcomes.rebuild = .error failure) (previous : InstanceConfig) (memory : GlobalConfig)
    (lightragRuntimeChanged : Bool) :
    (rebuildStage outcomes previous memory true lightragRuntimeChanged).1 =
        restoreInstanceConfig memory previous ∧
      (rebuildStage outcomes previous memory true lightragRuntimeChanged).2.isOk = false := by
  unfold rebuildStage
  rw [h]
  refine ⟨rfl, ?_⟩
  dsimp only
  split <;> rfl

theorem finishes_toRebuild (env : ProviderEnvironment) (outcomes : StageOutcomes) (s : ModeState)
    (call : RunningCall) (hrequested : call.requested.isSome = true) (hfile : s.file = next) :
    Finishes env (toRebuild s call) call.current next (rebuildStage outcomes call.previous s.memory
      call.agentRuntimeChanged call.lightragRuntimeChanged) := by
  unfold toRebuild
  cases hagents : call.agentRuntimeChanged with
  | false =>
      rw [rebuildStage_ok (fun hchanged => by cases hchanged)]
      exact finishes_returnResult call hrequested hfile _
  | true =>
      rw [if_pos rfl]
      refine Finishes.step (.rebuilt outcomes.rebuild) rfl ?_
      cases hrebuild : outcomes.rebuild with
      | ok =>
          rw [rebuildStage_ok (fun _ => hrebuild)]
          exact finishes_returnResult { call with phase := .rebuilding } hrequested hfile _
      | error failure =>
          obtain ⟨hmemory, herror⟩ :=
            rebuildStage_fails hrebuild call.previous s.memory call.lightragRuntimeChanged
          dsimp only
          split
          · refine Finishes.step .restartedBack rfl ?_
            exact finishes_raiseCall call.toWaitingCall hrequested herror hmemory.symm
          · exact finishes_raiseCall call.toWaitingCall hrequested herror hmemory.symm

theorem finishes_toRestart (outcomes : StageOutcomes) (s : ModeState) (call : RunningCall)
    (hrequested : call.requested.isSome = true) (hfile : s.file = next) :
    Finishes env (toRestart s call) call.current next
      (restartStage outcomes call.previous s.memory call.next) := by
  have hrebuild := fun lightragRuntimeChanged => finishes_toRebuild env outcomes
    { s with memory := (applyInstanceConfig s.memory call.next).1 }
    { call with
      agentRuntimeChanged := (applyInstanceConfig s.memory call.next).2.1
      lightragRuntimeChanged := lightragRuntimeChanged, phase := .restarting } hrequested hfile
  unfold toRestart restartStage
  dsimp only
  cases hlightrag : (applyInstanceConfig s.memory call.next).2.2 with
  | false => exact hrebuild false
  | true =>
      rw [if_pos rfl]
      refine Finishes.step (.restarted outcomes.restart) rfl ?_
      cases hrestart : outcomes.restart with
      | ok => exact hrebuild true
      | error failure => exact finishes_raiseCall call.toWaitingCall hrequested rfl rfl

theorem finishes_applyCall (env : ProviderEnvironment) (outcomes : StageOutcomes) (s : ModeState)
    (call : WaitingCall) (current : GlobalConfig) (hrequested : call.requested.isSome = true)
    (hfile : s.file = next) :
    Finishes env (applyCall s call current next) current next
      (applyInstanceConfigFromFile outcomes s.memory next) := by
  unfold applyCall applyInstanceConfigFromFile
  cases hconfig : instanceConfigFromGlobal s.memory with
  | error failure => exact finishes_raiseCall call hrequested rfl rfl
  | ok previous =>
      dsimp only
      cases hsame : embeddingUnchanged previous.lightrag next.lightrag with
      | true =>
          have hcheck : ensureEmbeddingStorageCompatible outcomes.statusCounts previous.lightrag
              next.lightrag = .ok () := if_pos (of_decide_eq_true hsame)
          rw [hcheck, if_pos rfl]
          exact finishes_toRestart outcomes s
            ⟨call, current, next, previous, false, false, .checking⟩ hrequested hfile
      | false =>
          refine Finishes.step (.checked outcomes.statusCounts) rfl ?_
          dsimp only
          cases hcheck : ensureEmbeddingStorageCompatible outcomes.statusCounts previous.lightrag
              next.lightrag with
          | error failure => exact finishes_raiseCall call hrequested rfl rfl
          | ok =>
              exact finishes_toRestart outcomes _
                ⟨call, current, next, previous, false, false, .checking⟩ hrequested hfile

/-- **An update by itself** is `updateInstanceConfig`: whatever the outcomes, it
comes to its end with that file and that memory. -/
theorem call_alone (env : ProviderEnvironment) (outcomes : StageOutcomes) {s : ModeState} {i : Nat}
    {request : UpdateInstanceConfigRequest} {overtaken : Bool} (hfree : s.running = none)
    (hcall : s.waiting[i]? = some ⟨some request, overtaken⟩) :
    ∃ actions t, exec (modeMachine env) s (.acquire i :: actions) = some t ∧ t.running = none ∧
      t.file = (updateInstanceConfig env outcomes ⟨s.file, s.memory⟩ request).1.file ∧
      t.memory = (updateInstanceConfig env outcomes ⟨s.file, s.memory⟩ request).1.memory := by
  have hacquire : (modeMachine env).step s (.acquire i) =
      some (beginCall env { s with waiting := s.waiting.eraseIdx i } ⟨some request, overtaken⟩) := by
    show modeStep env s (.acquire i) = _
    simp only [modeStep, hfree, hcall]
  simp only [exec_cons_of_step _ hacquire]
  unfold beginCall updateInstanceConfig
  dsimp only
  split
  · obtain ⟨actions, t, hexec, hend, hmemory, hfile⟩ := finishes_applyCall env outcomes
      { s with
        waiting := s.waiting.eraseIdx i
        file := nextConfig request (readConfigFile env s.file) }
      ⟨some request, overtaken⟩ (readConfigFile env s.file) rfl rfl
    refine ⟨actions, t, hexec, hend, ?_, ?_⟩
    · rw [hfile]
      cases (applyInstanceConfigFromFile outcomes s.memory
        (nextConfig request (readConfigFile env s.file))).2 <;> rfl
    · rw [hmemory]
      cases (applyInstanceConfigFromFile outcomes s.memory
        (nextConfig request (readConfigFile env s.file))).2 <;> rfl
  · exact ⟨[], _, rfl, hfree, rfl, rfl⟩

end Alone

/-! ### What a call carries -/

/-- What holds of the call that has the lock.  Overtaken, it finds the mode
that was set; otherwise it has read that mode, from the file and from memory. -/
structure CallInv (file memory : GlobalConfig) (expected : Option PermissionMode)
    (call : RunningCall) : Prop where
  memoryCodes : CodesMatch memory.agents
  fileCodes : CodesMatch file.agents
  currentCodes : CodesMatch call.current.agents
  nextCodes : CodesMatch call.next.agents
  previousCodes : CodesMatch call.previous.agents
  overtaken : call.overtaken = true → ∀ mode, expected = some mode →
    file.permissions.mode = mode ∧ memory.permissions.mode = mode ∧
      (call.phase = .checking → call.next.permissions.mode = mode)
  read : call.overtaken = false → ∀ mode, expected = some mode →
    call.current.permissions.mode = mode ∧ call.previous.permissions.mode = mode ∧
      (call.requested = none → call.next.permissions.mode = mode)
  written : call.overtaken = false → ∀ mode, expected = some mode →
    file.permissions.mode = call.next.permissions.mode ∧
      (∀ request, call.requested = some request →
        call.next.permissions.mode = request.permissions.mode)
  applied : call.overtaken = false → ∀ mode, expected = some mode →
    memory.permissions.mode =
      if call.phase = .checking ∨ call.phase = .restartingBack then mode
      else call.next.permissions.mode

/-- What the overtaken calls that wait ask for. -/
def WaitingInv (s : ModeState) : Prop :=
  ∀ mode, s.expected = some mode → ∀ call ∈ s.waiting, call.overtaken = true →
    ∀ request, call.requested = some request → request.permissions.mode = mode

/-- What holds of the file, the memory and the calls. -/
structure ModeInv (s : ModeState) : Prop where
  codes : CodesMatch s.file.agents ↔ CodesMatch s.memory.agents
  waiting : WaitingInv s
  settled : s.running = none → ∀ mode, s.expected = some mode →
    s.file.permissions.mode = mode ∧ s.memory.permissions.mode = mode
  running : ∀ call, s.running = some call → CallInv s.file s.memory s.expected call

/-! ### The ends of a call -/

@[simp] theorem raiseCall_running (s : ModeState) (call : WaitingCall) (current : GlobalConfig) :
    (raiseCall s call current).running = none := rfl

/-- A call that raises leaves things settled where what it puts back has the
mode that is expected. -/
theorem raiseCall_inv {s : ModeState} {call : WaitingCall} {current : GlobalConfig}
    (hwaiting : WaitingInv s)
    (hcodes : (if call.requested.isSome then CodesMatch current.agents
      else CodesMatch s.file.agents) ↔ CodesMatch s.memory.agents)
    (hmode : ∀ mode, s.expected = some mode → s.memory.permissions.mode = mode ∧
      (if call.requested.isSome then current.permissions.mode
        else s.file.permissions.mode) = mode) : ModeInv (raiseCall s call current) := by
  refine ⟨?_, hwaiting, fun _ mode hexpected => ?_, fun other hother => by cases hother⟩
  · refine Iff.trans ?_ hcodes
    unfold raiseCall
    dsimp only
    split <;> rfl
  · obtain ⟨hmemory, hfile⟩ := hmode mode hexpected
    refine ⟨?_, hmemory⟩
    rw [← hfile]
    unfold raiseCall
    dsimp only
    split <;> rfl

theorem CallInv.raiseCall_inv {s : ModeState} {call : RunningCall} (h : CallInv s.file s.memory s.expected call)
    (hwaiting : WaitingInv s)
    (hmode : ∀ mode, s.expected = some mode → s.memory.permissions.mode = mode ∧
      (if call.requested.isSome then call.current.permissions.mode
        else s.file.permissions.mode) = mode) :
    ModeInv (raiseCall s call.toWaitingCall call.current) := by
  refine SystemConfig.raiseCall_inv hwaiting ?_ hmode
  split
  · exact iff_of_true h.currentCodes h.memoryCodes
  · exact iff_of_true h.fileCodes h.memoryCodes

/-- What is expected after a call was expected before it. -/
theorem expectedAfter_eq_some {expected : Option PermissionMode} {call : WaitingCall}
    {mode : PermissionMode} (h : expectedAfter expected call = some mode) :
    expected = some mode ∧ (call.overtaken = false → ∀ request, call.requested = some request →
      request.permissions.mode = mode) := by
  unfold expectedAfter at h
  split at h
  · next request hovertaken hrequested =>
      obtain ⟨hexpected, hmode⟩ := Option.filter_eq_some_iff.mp h
      refine ⟨hexpected, fun _ other hother => ?_⟩
      rw [hrequested] at hother
      obtain rfl := Option.some.inj hother
      exact (of_decide_eq_true hmode).symm
  · next hno =>
      refine ⟨h, fun hovertaken request hrequested => ?_⟩
      exact absurd hrequested (hno request hovertaken)

/-- **A call that returns** leaves the mode that is expected afterwards. -/
theorem CallInv.returnResult_inv {s : ModeState} {call : RunningCall} (h : CallInv s.file s.memory s.expected call)
    (hwaiting : WaitingInv s)
    (hphase : call.phase ≠ .checking ∧ call.phase ≠ .restartingBack) :
    ModeInv (returnResult s call) := by
  unfold returnResult instanceConfigFromGlobal
  rw [if_pos h.memoryCodes]
  refine ⟨iff_of_true h.fileCodes h.memoryCodes, ?_, fun _ mode hexpected => ?_,
    fun other hother => by cases hother⟩
  · intro mode hexpected
    exact hwaiting mode (expectedAfter_eq_some hexpected).1
  · obtain ⟨hbefore, hrequest⟩ := expectedAfter_eq_some hexpected
    cases hovertaken : call.overtaken with
    | true =>
        obtain ⟨hfile, hmemory, -⟩ := h.overtaken hovertaken mode hbefore
        exact ⟨hfile, hmemory⟩
    | false =>
        have hmemory := h.applied hovertaken mode hbefore
        rw [if_neg (fun hor => hor.elim hphase.1 hphase.2)] at hmemory
        obtain ⟨hfile, hnext⟩ := h.written hovertaken mode hbefore
        have hmode : call.next.permissions.mode = mode := by
          cases hrequested : call.requested with
          | none => exact (h.read hovertaken mode hbefore).2.2 hrequested
          | some request =>
              rw [hnext request hrequested]
              exact hrequest hovertaken request hrequested
        exact ⟨hfile.trans hmode, hmemory.trans hmode⟩

/-- On to the rebuild. -/
theorem CallInv.toRebuild_inv {s : ModeState} {call : RunningCall} (h : CallInv s.file s.memory s.expected call)
    (hwaiting : WaitingInv s) (hphase : call.phase = .restarting) :
    ModeInv (toRebuild s call) := by
  unfold toRebuild
  split
  · refine ⟨iff_of_true h.fileCodes h.memoryCodes, hwaiting, fun hnone => (by cases hnone),
      fun other hother => ?_⟩
    obtain rfl := Option.some.inj hother
    refine ⟨h.memoryCodes, h.fileCodes, h.currentCodes, h.nextCodes, h.previousCodes, fun hovertaken mode hexpected => ?_,
      h.read, h.written, fun hovertaken mode hexpected => ?_⟩
    · obtain ⟨hfile, hmemory, -⟩ := h.overtaken hovertaken mode hexpected
      exact ⟨hfile, hmemory, fun hchecking => by cases hchecking⟩
    · have hmemory := h.applied hovertaken mode hexpected
      rw [hphase] at hmemory
      exact hmemory
  · refine h.returnResult_inv hwaiting ⟨?_, ?_⟩
    · rw [hphase]
      decide
    · rw [hphase]
      decide

/-- On to the restart. -/
theorem CallInv.toRestart_inv {s : ModeState} {call : RunningCall} (h : CallInv s.file s.memory s.expected call)
    (hwaiting : WaitingInv s) (hphase : call.phase = .checking) :
    ModeInv (toRestart s call) := by
  have hsame := applyInstanceConfig_same s.memory call.next
  have hinv : CallInv s.file (applyInstanceConfig s.memory call.next).1 s.expected
      { call with
        agentRuntimeChanged := (applyInstanceConfig s.memory call.next).2.1
        lightragRuntimeChanged := (applyInstanceConfig s.memory call.next).2.2
        phase := .restarting } := by
    refine ⟨h.nextCodes.same hsame.agents.symm, h.fileCodes, h.currentCodes, h.nextCodes, h.previousCodes,
      fun hovertaken mode hexpected => ?_, h.read, h.written, fun hovertaken mode hexpected => ?_⟩
    · obtain ⟨hfile, -, hnext⟩ := h.overtaken hovertaken mode hexpected
      refine ⟨hfile, ?_, fun hchecking => by cases hchecking⟩
      exact (congrArg PermissionConfig.mode hsame.permissions).trans (hnext hphase)
    · exact congrArg PermissionConfig.mode hsame.permissions
  unfold toRestart
  dsimp only
  split
  · refine ⟨iff_of_true hinv.fileCodes hinv.memoryCodes, hwaiting, fun hnone => (by cases hnone),
      fun other hother => ?_⟩
    obtain rfl := Option.some.inj hother
    exact hinv
  · exact hinv.toRebuild_inv hwaiting rfl

/-! ### A call gets the lock -/

/-- A call that finds the mode that is expected in the file and in memory. -/
theorem applyCall_inv {s : ModeState} {call : WaitingCall} {current next : GlobalConfig}
    (hwaiting : WaitingInv s) (hmemory : CodesMatch current.agents ↔ CodesMatch s.memory.agents)
    (hnext : CodesMatch next.agents ↔ CodesMatch current.agents)
    (hfile : CodesMatch s.file.agents ↔ CodesMatch current.agents)
    (hmodes : ∀ mode, s.expected = some mode → current.permissions.mode = mode ∧
      s.memory.permissions.mode = mode ∧ s.file.permissions.mode = next.permissions.mode ∧
      (call.requested = none → next.permissions.mode = mode))
    (hrequested : ∀ request, call.requested = some request →
      next.permissions.mode = request.permissions.mode)
    (hcall : call.overtaken = true → ∀ mode, s.expected = some mode →
      next.permissions.mode = mode) : ModeInv (applyCall s call current next) := by
  unfold applyCall instanceConfigFromGlobal
  by_cases hcodes : CodesMatch s.memory.agents
  swap
  · rw [if_neg hcodes]
    refine raiseCall_inv hwaiting ?_ (fun mode hexpected => ?_)
    · split
      · exact hmemory
      · exact hfile.trans hmemory
    · obtain ⟨hcurrent, hbefore, hwritten, hnone⟩ := hmodes mode hexpected
      refine ⟨hbefore, ?_⟩
      split
      · exact hcurrent
      · next hget =>
          refine hwritten.trans (hnone ?_)
          rwa [Bool.not_eq_true, Option.isSome_eq_false_iff, Option.isNone_iff_eq_none] at hget
  rw [if_pos hcodes]
  dsimp only
  have hcurrent := hmemory.mpr hcodes
  have hinv : CallInv s.file s.memory s.expected
      ⟨call, current, next, s.memory.toInstanceConfig, false, false, .checking⟩ := by
    refine ⟨hcodes, hfile.mpr hcurrent, hcurrent, hnext.mpr hcurrent, hcodes,
      fun hovertaken mode hexpected => ?_, fun _ mode hexpected => ?_, fun _ mode hexpected => ?_,
      fun _ mode hexpected => ?_⟩
    · obtain ⟨-, hbefore, hwritten, -⟩ := hmodes mode hexpected
      have hmode := hcall hovertaken mode hexpected
      exact ⟨hwritten.trans hmode, hbefore, fun _ => hmode⟩
    · obtain ⟨hread, hbefore, -, hnone⟩ := hmodes mode hexpected
      exact ⟨hread, hbefore, hnone⟩
    · exact ⟨(hmodes mode hexpected).2.2.1, hrequested⟩
    · rw [if_pos (.inl rfl)]
      exact (hmodes mode hexpected).2.1
  split
  · exact hinv.toRestart_inv hwaiting rfl
  · refine ⟨iff_of_true hinv.fileCodes hcodes, hwaiting, fun hnone => (by cases hnone),
      fun other hother => ?_⟩
    obtain rfl := Option.some.inj hother
    exact hinv

theorem beginCall_inv (env : ProviderEnvironment) {s : ModeState} (h : ModeInv s)
    (hfree : s.running = none) {call : WaitingCall}
    (hcall : call.overtaken = true → ∀ mode, s.expected = some mode →
      ∀ request, call.requested = some request → request.permissions.mode = mode) :
    ModeInv (beginCall env s call) := by
  have hsettled := h.settled hfree
  have hread := codesMatch_read env s.file
  unfold beginCall
  dsimp only
  split
  · next hnone =>
      refine applyCall_inv h.waiting (hread.trans h.codes) Iff.rfl hread.symm
        (fun mode hexpected => ?_) (fun request hsome => ?_) (fun _ mode hexpected => ?_)
      · obtain ⟨hfile, hmemory⟩ := hsettled mode hexpected
        exact ⟨hfile, hmemory, rfl, fun _ => hfile⟩
      · rw [hnone] at hsome
        cases hsome
      · exact (hsettled mode hexpected).1
  · next request hrequested =>
      split
      · have hnext := codesMatch_patch request (readConfigFile env s.file).agents
        refine applyCall_inv h.waiting (hread.trans h.codes) hnext hnext
          (fun mode hexpected => ?_) (fun other hsome => ?_) (fun hovertaken mode hexpected => ?_)
        · obtain ⟨hfile, hmemory⟩ := hsettled mode hexpected
          refine ⟨hfile, hmemory, rfl, fun hnone => ?_⟩
          rw [hrequested] at hnone
          cases hnone
        · rw [hrequested] at hsome
          obtain rfl := Option.some.inj hsome
          rfl
        · exact hcall hovertaken mode hexpected request hrequested
      · exact h

/-! ### The other steps -/

/-- **Setting the mode** where only harmless calls are overtaken. -/
theorem updateMode_inv (env : ProviderEnvironment) {s : ModeState} (h : ModeInv s)
    {mode : PermissionMode} (hharmless : OvertakesHarmless s (.updateMode mode)) :
    ModeInv (updateMode env s mode) := by
  have hread := codesMatch_read env s.file
  refine ⟨hread.trans h.codes, ?_, fun _ other hexpected => ?_, fun call hcall => ?_⟩
  · intro other hexpected call hmem _ request hrequested
    obtain rfl := Option.some.inj hexpected
    obtain ⟨before, hbefore, rfl⟩ := List.mem_map.mp hmem
    exact hharmless.1 before hbefore request hrequested
  · obtain rfl := Option.some.inj hexpected
    exact ⟨rfl, rfl⟩
  · obtain ⟨before, hbefore, rfl⟩ := Option.map_eq_some_iff.mp hcall
    have hinv := h.running before hbefore
    refine ⟨hinv.memoryCodes, hread.mpr hinv.fileCodes, hinv.currentCodes, hinv.nextCodes,
      hinv.previousCodes, fun _ other hexpected => ?_, fun hnot => (by cases hnot), fun hnot => (by cases hnot),
      fun hnot => (by cases hnot)⟩
    obtain rfl := Option.some.inj hexpected
    exact ⟨rfl, rfl, hharmless.2 before hbefore⟩

/-- The call with the lock raises, and puts back a mode that is expected. -/
theorem CallInv.raised (s : ModeState) {call : RunningCall}
    (h : CallInv s.file s.memory s.expected call) (hwaiting : WaitingInv s)
    (hphase : call.phase = .checking ∨ call.phase = .restartingBack)
    (hharmless : call.overtaken = true → call.requested.isSome = true →
      call.current.permissions.mode = s.file.permissions.mode) :
    ModeInv (raiseCall s call.toWaitingCall call.current) := by
  refine h.raiseCall_inv hwaiting (fun mode hexpected => ?_)
  have hget : ¬ call.requested.isSome = true → call.requested = none := by
    intro hnot
    rwa [Bool.not_eq_true, Option.isSome_eq_false_iff, Option.isNone_iff_eq_none] at hnot
  cases hovertaken : call.overtaken with
  | true =>
      obtain ⟨hfile, hmemory, -⟩ := h.overtaken hovertaken mode hexpected
      refine ⟨hmemory, ?_⟩
      split
      · next hsome => exact (hharmless hovertaken hsome).trans hfile
      · exact hfile
  | false =>
      have hmemory := h.applied hovertaken mode hexpected
      rw [if_pos hphase] at hmemory
      obtain ⟨hcurrent, -, hnone⟩ := h.read hovertaken mode hexpected
      refine ⟨hmemory, ?_⟩
      split
      · exact hcurrent
      · next hnot => exact ((h.written hovertaken mode hexpected).1).trans (hnone (hget hnot))

/-- Memory is restored, where what the snapshot holds has the mode that is
expected. -/
theorem CallInv.restored {s : ModeState} {call : RunningCall}
    (h : CallInv s.file s.memory s.expected call)
    (hharmless : call.overtaken = true →
      call.previous.permissions.mode = s.file.permissions.mode) :
    CallInv s.file (restoreInstanceConfig s.memory call.previous) s.expected
      { call with phase := .restartingBack } := by
  refine ⟨h.previousCodes, h.fileCodes, h.currentCodes, h.nextCodes, h.previousCodes, fun hovertaken mode hexpected => ?_,
    h.read, h.written, fun hovertaken mode hexpected => ?_⟩
  · obtain ⟨hfile, -, -⟩ := h.overtaken hovertaken mode hexpected
    exact ⟨hfile, (hharmless hovertaken).trans hfile, fun hchecking => by cases hchecking⟩
  · rw [if_pos (.inr rfl)]
    exact (h.read hovertaken mode hexpected).2.1

/-- The call with the lock goes on. -/
theorem resumeCall_inv {s t : ModeState} (h : ModeInv s) {call : RunningCall}
    (hrunning : s.running = some call) {action : ModeAction}
    (hharmless : call.overtaken = true → raises call action = true →
      (restores action = true → call.previous.permissions.mode = s.file.permissions.mode) ∧
        (call.requested.isSome = true → call.current.permissions.mode = s.file.permissions.mode))
    (hstep : resumeCall s call action = some t) : ModeInv t := by
  have hcall := h.running call hrunning
  cases action with
  | checked statusCounts =>
      obtain ⟨hphase, ht⟩ := Option.ite_none_right_eq_some.mp hstep
      obtain rfl := Option.some.inj ht
      cases hcheck : ensureEmbeddingStorageCompatible statusCounts call.previous.lightrag
          call.next.lightrag with
      | ok => exact hcall.toRestart_inv h.waiting hphase
      | error failure =>
          refine CallInv.raised s hcall h.waiting (.inl hphase) (fun hovertaken => ?_)
          exact (hharmless hovertaken (by simp [raises, hcheck, Except.isOk, Except.toBool])).2
  | restarted outcome =>
      obtain ⟨hphase, ht⟩ := Option.ite_none_right_eq_some.mp hstep
      obtain rfl := Option.some.inj ht
      cases outcome with
      | ok => exact hcall.toRebuild_inv h.waiting hphase
      | error failure =>
          have hrestored := hcall.restored (fun hovertaken => (hharmless hovertaken rfl).1 rfl)
          have hraised := CallInv.raised
            { s with memory := restoreInstanceConfig s.memory call.previous } hrestored h.waiting
            (.inr rfl) (fun hovertaken => (hharmless hovertaken rfl).2)
          exact hraised
  | rebuilt outcome =>
      obtain ⟨hphase, ht⟩ := Option.ite_none_right_eq_some.mp hstep
      obtain rfl := Option.some.inj ht
      cases outcome with
      | ok =>
          refine hcall.returnResult_inv h.waiting ⟨?_, ?_⟩
          · rw [hphase]
            decide
          · rw [hphase]
            decide
      | error failure =>
          have hrestored := hcall.restored (fun hovertaken => (hharmless hovertaken rfl).1 rfl)
          dsimp only
          split
          · refine ⟨iff_of_true hrestored.fileCodes hrestored.memoryCodes, h.waiting,
              fun hnone => (by cases hnone), fun other hother => ?_⟩
            obtain rfl := Option.some.inj hother
            exact hrestored
          · have hraised := CallInv.raised
              { s with memory := restoreInstanceConfig s.memory call.previous } hrestored h.waiting
              (.inr rfl) (fun hovertaken => (hharmless hovertaken rfl).2)
            exact hraised
  | restartedBack =>
      obtain ⟨hphase, ht⟩ := Option.ite_none_right_eq_some.mp hstep
      obtain rfl := Option.some.inj ht
      exact CallInv.raised s hcall h.waiting (.inr hphase) (fun hovertaken => (hharmless hovertaken rfl).2)
  | submit requested | giveUp i | acquire i | updateMode mode => cases hstep

/-- What waits may go. -/
theorem WaitingInv.mono {s : ModeState} (h : WaitingInv s) {waiting : List WaitingCall}
    (hsub : ∀ call ∈ waiting, call ∈ s.waiting ∨ call.overtaken = false) :
    WaitingInv { s with waiting := waiting } := by
  intro mode hexpected call hmem hovertaken
  rcases hsub call hmem with hthere | hnot
  · exact h mode hexpected call hthere hovertaken
  · rw [hovertaken] at hnot
    cases hnot

/-- **One step.** -/
theorem modeStep_inv (env : ProviderEnvironment) {s t : ModeState} {action : ModeAction}
    (h : ModeInv s) (hharmless : OvertakesHarmless s action)
    (hstep : modeStep env s action = some t) : ModeInv t := by
  have hresume : ∀ {action : ModeAction}, (∀ call, s.running = some call →
      call.overtaken = true → raises call action = true →
        (restores action = true → call.previous.permissions.mode = s.file.permissions.mode) ∧
          (call.requested.isSome = true → call.current.permissions.mode = s.file.permissions.mode)) →
      s.running.bind (fun call => resumeCall s call action) = some t → ModeInv t := by
    intro action hharmless hstep
    obtain ⟨call, hrunning, hcall⟩ := Option.bind_eq_some_iff.mp hstep
    exact resumeCall_inv h hrunning (hharmless call hrunning) hcall
  cases action with
  | submit requested =>
      obtain rfl := Option.some.inj hstep
      refine ⟨h.codes, h.waiting.mono (fun call hmem => ?_), h.settled, h.running⟩
      rcases List.mem_append.mp hmem with hthere | hnew
      · exact .inl hthere
      · rw [List.mem_singleton.mp hnew]
        exact .inr rfl
  | giveUp i =>
      obtain rfl := Option.some.inj hstep
      exact ⟨h.codes, h.waiting.mono (fun call hmem => .inl (List.mem_of_mem_eraseIdx hmem)),
        h.settled, h.running⟩
  | acquire i =>
      simp only [modeStep] at hstep
      split at hstep
      · next call hfree hcall =>
          obtain rfl := Option.some.inj hstep
          have hrest : WaitingInv { s with waiting := s.waiting.eraseIdx i } :=
            h.waiting.mono (fun other hmem => .inl (List.mem_of_mem_eraseIdx hmem))
          have hinv : ModeInv { s with waiting := s.waiting.eraseIdx i } :=
            ⟨h.codes, hrest, h.settled, h.running⟩
          refine beginCall_inv env hinv hfree ?_
          exact fun hovertaken mode hexpected =>
            h.waiting mode hexpected call (List.mem_of_getElem? hcall) hovertaken
      · cases hstep
  | updateMode mode =>
      obtain rfl := Option.some.inj hstep
      exact updateMode_inv env h hharmless
  | checked statusCounts => exact hresume hharmless hstep
  | restarted outcome => exact hresume hharmless hstep
  | rebuilt outcome => exact hresume hharmless hstep
  | restartedBack => exact hresume hharmless hstep

/-- **The mode that was set stands**, in every run in which only harmless calls
are overtaken. -/
theorem mode_stands (env : ProviderEnvironment) {s t : ModeState} {actions : List ModeAction}
    (hstart : (modeMachine env).Start s)
    (hharmless : StepsMeet (modeMachine env) (fun s action _ => OvertakesHarmless s action) s actions)
    (hexec : exec (modeMachine env) s actions = some t) : ModeStands t := by
  obtain ⟨hmemory, hwaiting, hrunning, hexpected⟩ := hstart
  have hinit : ModeInv s := by
    refine ⟨?_, fun mode hmode => ?_, fun _ mode hmode => ?_, fun call hcall => ?_⟩
    · rw [hmemory]
      exact (codesMatch_read env s.file).symm
    · rw [hexpected] at hmode
      cases hmode
    · rw [hexpected] at hmode
      cases hmode
    · rw [hrunning] at hcall
      cases hcall
  have hinv := exec_invariant (I := ModeInv) (fun _ _ _ hi hc hs => modeStep_inv env hi hc hs) hinit
    hharmless hexec
  intro hfree _ mode hmode
  exact (hinv.settled hfree mode hmode).symm

/-- A configuration with every action allowed. -/
def fullAccessConfig : GlobalConfig :=
  { typedConfig with permissions := { mode := .fullAccess } }

/-- A larger pool, and every action allowed as before. -/
def largerPoolFullAccess : UpdateInstanceConfigRequest :=
  { largerPool with permissions := { mode := .fullAccess } }

/-- The mode is set while an update waits that asks for it: it stands. -/
theorem mode_stands_normal :
    ∃ t, exec (modeMachine {}) { file := fullAccessConfig, memory := fullAccessConfig }
        [.submit (some largerPool), .updateMode .normal, .acquire 0, .rebuilt (.ok ())] = some t ∧
      t.running.isNone = true ∧ t.expected = some .normal ∧ ModeStands t := by
  have hrun : (exec (modeMachine {}) { file := fullAccessConfig, memory := fullAccessConfig }
      [.submit (some largerPool), .updateMode .normal, .acquire 0, .rebuilt (.ok ())]).map
        (fun t => (t.running.isNone, t.expected)) = some (true, some .normal) := by decide +kernel
  obtain ⟨t, hexec, ht⟩ := Option.map_eq_some_iff.mp hrun
  obtain ⟨hfree, hexpected⟩ := Prod.mk.inj ht
  exact ⟨t, hexec, hfree, hexpected,
    mode_stands {} ⟨rfl, rfl, rfl, rfl⟩ (by decide +kernel) hexec⟩

/-- The rebuild of an update fails after `update_mode` has taken full access
back: it is there again. -/
theorem full_access_comes_back :
    ¬ ∀ (env : ProviderEnvironment) (s t : ModeState) (actions : List ModeAction),
      (modeMachine env).Start s → exec (modeMachine env) s actions = some t → ModeStands t := by
  intro h
  have hrun : (exec (modeMachine {}) { file := fullAccessConfig, memory := fullAccessConfig }
      [.submit (some largerPoolFullAccess), .acquire 0, .updateMode .normal,
        .rebuilt (.error .exception)]).map (fun t =>
        (t.running.isNone, t.waiting.isEmpty, t.expected, t.memory.permissions.mode)) =
      some (true, true, some .normal, .fullAccess) := by decide +kernel
  obtain ⟨t, hexec, ht⟩ := Option.map_eq_some_iff.mp hrun
  simp only [Prod.mk.injEq] at ht
  obtain ⟨hfree, hwaiting, hexpected, hmode⟩ := ht
  have hstands := h {} _ t _ ⟨rfl, rfl, rfl, rfl⟩ hexec
    (Option.isNone_iff_eq_none.mp hfree) (List.isEmpty_iff.mp hwaiting) .normal hexpected
  rw [hmode] at hstands
  exact absurd hstands.1 (by decide)

end Workbench.SystemConfig
