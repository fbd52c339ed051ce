import CyberWorkbench.StepMachine

/-!
# Wake-up signals

`core/runtime/notification_dispatch`: a version counter and an `asyncio.Event`
for each agent instance.  A signal counts the version up and sets the event; a
waiter compares the version with the one it was given and clears the event
before it blocks.

The lock is never held across an await, so the code between two awaits is one
step.  A waiter stands in `signal.wait()`, or its future is done and it is about
to look again.  Clearing the event does not take back a future that is done.

* `WakeInv.step` — whoever blocks has seen every signal, as long as no instance is
  forgotten under its waiters;
* `signal_wakes` — a signal after the version was read ends the wait for it.
-/

namespace Workbench.WakeSignals

open StepMachine

/-- Where a call of `wait_for_target_notifications` stands. -/
inductive Stage where
  | blocked (event : Nat)
  | woken (event : Nat)
  | returned (newVersion : Bool)
  | canceled
  | keyError
  deriving DecidableEq, Repr

/-- One call of `wait_for_target_notifications`. -/
structure Waiter where
  target : String
  version : Nat
  stage : Stage
  deriving DecidableEq, Repr

/-- The module's dictionaries, the flags of the event objects, and the calls. -/
structure Dispatch where
  targetSignals : String → Option Nat
  targetSignalVersions : String → Option Nat
  flags : Nat → Bool
  nextEvent : Nat
  waiters : List Waiter

/-- `d[key] = value` and `d.pop(key, None)`. -/
def assign {β : Type} (d : String → Option β) (key : String) (value : Option β) :
    String → Option β :=
  fun other => if other = key then value else d other

namespace Dispatch

/-- `target_notification_version`. -/
def targetNotificationVersion (s : Dispatch) (target : String) : Nat :=
  (s.targetSignalVersions target).getD 0

/-- `signal.set()`: the flag, and the futures of those who wait. -/
def setEvent (s : Dispatch) (event : Nat) : Dispatch :=
  { s with
    flags := (fun other => if other = event then true else s.flags other)
    waiters := s.waiters.map (fun w =>
      if w.stage = .blocked event then { w with stage := .woken event } else w) }

/-- `signal.clear()`. -/
def clearEvent (s : Dispatch) (event : Nat) : Dispatch :=
  { s with flags := fun other => if other = event then false else s.flags other }

/-- `signal_target_notifications`. -/
def signalTargetNotifications (s : Dispatch) (target : String) : Dispatch :=
  let version := s.targetNotificationVersion target + 1
  let s := { s with
    targetSignalVersions := assign s.targetSignalVersions target (some version) }
  match s.targetSignals target with
  | some event => s.setEvent event
  | none => s

/-- `forget_target_notifications`. -/
def forgetTargetNotifications (s : Dispatch) (target : String) : Dispatch :=
  { s with
    targetSignals := assign s.targetSignals target none
    targetSignalVersions := assign s.targetSignalVersions target none }

/-- The body of the loop up to `signal.wait()`: the state, and where the call
stands then. -/
def look (s : Dispatch) (target : String) (version : Nat) : Dispatch × Stage :=
  if s.targetNotificationVersion target ≠ version then (s, .returned true)
  else
    match s.targetSignals target with
    | none => (s, .keyError)
    | some event => (s.clearEvent event, .blocked event)

/-- `_target_signals.setdefault(target, asyncio.Event())`. -/
def ensureEvent (s : Dispatch) (target : String) : Dispatch :=
  match s.targetSignals target with
  | some _ => s
  | none =>
      { s with
        targetSignals := assign s.targetSignals target (some s.nextEvent)
        flags := (fun other => if other = s.nextEvent then false else s.flags other)
        nextEvent := s.nextEvent + 1 }

/-- `wait_for_target_notifications` up to its first await. -/
def beginWait (s : Dispatch) (target : String) (afterVersion : Option Nat) : Dispatch :=
  let version := afterVersion.getD (s.targetNotificationVersion target)
  let looked := (s.ensureEvent target).look target version
  { looked.1 with waiters := looked.1.waiters ++ [⟨target, version, looked.2⟩] }

/-- The call at `i` goes on from `stage`. -/
def setStage (s : Dispatch) (i : Nat) (w : Waiter) (stage : Stage) : Dispatch :=
  { s with waiters := s.waiters.set i { w with stage := stage } }

end Dispatch

/-- What the event loop runs next. -/
inductive Action where
  | signal (target : String)
  | wait (target : String) (afterVersion : Option Nat)
  | resume (i : Nat)
  | timeout (i : Nat)
  | cancel (i : Nat)
  | forget (target : String)
  deriving DecidableEq, Repr

/-- The call stands in `signal.wait()` or comes from there. -/
def Waiter.isWaiting (w : Waiter) : Bool :=
  match w.stage with
  | .blocked _ | .woken _ => true
  | _ => false

/-- One step.  A timeout may strike a call that was woken and has not run yet. -/
def step (s : Dispatch) : Action → Option Dispatch
  | .signal target => some (s.signalTargetNotifications target)
  | .wait target afterVersion => some (s.beginWait target afterVersion)
  | .forget target => some (s.forgetTargetNotifications target)
  | .resume i =>
      s.waiters[i]?.bind (fun w =>
        match w.stage with
        | .woken _ => some ((s.look w.target w.version).1.setStage i w (s.look w.target w.version).2)
        | _ => none)
  | .timeout i =>
      s.waiters[i]?.bind (fun w =>
        if w.isWaiting then some (s.setStage i w (.returned false)) else none)
  | .cancel i =>
      s.waiters[i]?.bind (fun w => if w.isWaiting then some (s.setStage i w .canceled) else none)

/-- The module as it is imported, and every way it may be used. -/
def dispatchMachine : Machine Dispatch Action where
  Start := fun s => s = ⟨fun _ => none, fun _ => none, fun _ => false, 0, []⟩
  step := step

/-- An instance is only forgotten when nobody waits for it: `_cleanup_subagent`
runs when the driver and its turns have ended. -/
def ForgetsIdle (s : Dispatch) : Action → Dispatch → Prop
  | .forget target, _ => ∀ w ∈ s.waiters, w.target = target → w.isWaiting = false
  | _, _ => True

/-! ### The invariant -/

/-- Where a call may stand: a blocked one has seen the version, and those that go
on will find the event. -/
def Attentive (s : Dispatch) (w : Waiter) : Prop :=
  match w.stage with
  | .blocked event =>
      s.targetSignals w.target = some event ∧ s.targetNotificationVersion w.target = w.version
  | .woken _ => (s.targetSignals w.target).isSome
  | .returned _ | .canceled => True
  | .keyError => False

/-- Every call is attentive. -/
def WakeInv (s : Dispatch) : Prop := ∀ w ∈ s.waiters, Attentive s w

theorem attentive_congr {s t : Dispatch} {w : Waiter}
    (hsignal : t.targetSignals w.target = s.targetSignals w.target)
    (hversion : t.targetSignalVersions w.target = s.targetSignalVersions w.target)
    (h : Attentive s w) : Attentive t w := by
  unfold Attentive Dispatch.targetNotificationVersion at h ⊢
  rw [hsignal, hversion]
  exact h

theorem assign_self {β : Type} (d : String → Option β) (key : String) (value : Option β) :
    assign d key value key = value := if_pos rfl

theorem assign_other {β : Type} (d : String → Option β) {key other : String} (value : Option β)
    (hne : other ≠ key) : assign d key value other = d other := if_neg hne

/-- A signal wakes those who block for its target. -/
theorem WakeInv.signal {s : Dispatch} (hi : WakeInv s) (target : String) :
    WakeInv (s.signalTargetNotifications target) := by
  unfold Dispatch.signalTargetNotifications
  simp only
  cases hevent : s.targetSignals target with
  | none =>
      simp only
      intro w hw
      by_cases htarget : w.target = target
      · -- Without an event nobody blocks for the target or comes back from it.
        have hw' := hi w hw
        unfold Attentive at hw' ⊢
        rw [htarget, hevent] at hw'
        cases hstage : w.stage with
        | blocked event => simp [hstage] at hw'
        | woken event => simp [hstage] at hw'
        | returned newVersion => trivial
        | canceled => trivial
        | keyError => simp [hstage] at hw'
      · exact attentive_congr (s := s) rfl (assign_other _ _ htarget) (hi w hw)
  | some event =>
      simp only
      intro w hw
      obtain ⟨old, hold, rfl⟩ := List.mem_map.mp hw
      have hold' := hi old hold
      by_cases hblocked : old.stage = .blocked event
      · rw [if_pos hblocked]
        unfold Attentive at hold'
        rw [hblocked] at hold'
        exact Option.isSome_iff_exists.mpr ⟨event, hold'.1⟩
      · rw [if_neg hblocked]
        by_cases htarget : old.target = target
        · unfold Attentive at hold' ⊢
          cases hstage : old.stage with
          | blocked other =>
              rw [hstage, htarget, hevent] at hold'
              exact absurd (hstage.trans (congrArg Stage.blocked (Option.some.inj hold'.1).symm))
                hblocked
          | woken other =>
              rw [hstage] at hold'
              exact hold'
          | returned newVersion => trivial
          | canceled => trivial
          | keyError => simp [hstage] at hold'
        · exact attentive_congr (s := s) rfl (assign_other _ _ htarget) hold'

/-- Looking again leaves the dictionaries and the calls alone. -/
theorem look_frame (s : Dispatch) (target : String) (version : Nat) :
    (s.look target version).1.targetSignals = s.targetSignals ∧
      (s.look target version).1.targetSignalVersions = s.targetSignalVersions ∧
      (s.look target version).1.waiters = s.waiters := by
  unfold Dispatch.look
  split
  · exact ⟨rfl, rfl, rfl⟩
  · cases s.targetSignals target with
    | none => exact ⟨rfl, rfl, rfl⟩
    | some event => exact ⟨rfl, rfl, rfl⟩

/-- It leaves the caller attentive. -/
theorem look_attentive {s : Dispatch} {target : String} (version : Nat)
    (hevent : (s.targetSignals target).isSome) :
    Attentive s ⟨target, version, (s.look target version).2⟩ := by
  unfold Dispatch.look
  obtain ⟨event, hsome⟩ := Option.isSome_iff_exists.mp hevent
  by_cases hversion : s.targetNotificationVersion target = version
  · rw [if_neg (not_not_intro hversion), hsome]
    exact ⟨hsome, hversion⟩
  · rw [if_pos hversion]
    trivial

theorem ensureEvent_spec (s : Dispatch) (target : String) :
    ((s.ensureEvent target).targetSignals target).isSome ∧
      (∀ other event, s.targetSignals other = some event →
        (s.ensureEvent target).targetSignals other = some event) ∧
      (s.ensureEvent target).targetSignalVersions = s.targetSignalVersions ∧
      (s.ensureEvent target).waiters = s.waiters := by
  unfold Dispatch.ensureEvent
  cases hevent : s.targetSignals target with
  | some event => exact ⟨by simp [hevent], fun _ _ h => h, rfl, rfl⟩
  | none =>
      refine ⟨by simp [assign_self], fun other event hother => ?_, rfl, rfl⟩
      have hne : other ≠ target := by
        rintro rfl
        rw [hevent] at hother
        cases hother
      exact (assign_other _ _ hne).trans hother

/-- More events and the same versions keep a call attentive. -/
theorem Attentive.mono {s t : Dispatch} {w : Waiter}
    (hsignals : ∀ event, s.targetSignals w.target = some event →
      t.targetSignals w.target = some event)
    (hversions : t.targetSignalVersions = s.targetSignalVersions) (h : Attentive s w) :
    Attentive t w := by
  unfold Attentive Dispatch.targetNotificationVersion at h ⊢
  rw [hversions]
  cases hstage : w.stage with
  | blocked event =>
      rw [hstage] at h
      exact ⟨hsignals event h.1, h.2⟩
  | woken event =>
      rw [hstage] at h
      obtain ⟨current, hcurrent⟩ := Option.isSome_iff_exists.mp h
      exact Option.isSome_iff_exists.mpr ⟨current, hsignals current hcurrent⟩
  | returned newVersion => trivial
  | canceled => trivial
  | keyError => simp [hstage] at h

theorem WakeInv.wait {s : Dispatch} (hi : WakeInv s) (target : String)
    (afterVersion : Option Nat) : WakeInv (s.beginWait target afterVersion) := by
  obtain ⟨hsome, hkept, hversions, hwaiters⟩ := ensureEvent_spec s target
  obtain ⟨hsignals', hversions', hwaiters'⟩ := look_frame (s.ensureEvent target) target
    (afterVersion.getD (s.targetNotificationVersion target))
  have hcaller := look_attentive (afterVersion.getD (s.targetNotificationVersion target)) hsome
  intro w hw
  unfold Dispatch.beginWait at hw
  rcases List.mem_append.mp hw with hold | hnew
  · rw [hwaiters', hwaiters] at hold
    refine (hi w hold).mono (fun event h => ?_) (hversions'.trans hversions)
    show ((s.ensureEvent target).look _ _).1.targetSignals w.target = some event
    rw [hsignals']
    exact hkept w.target event h
  · rw [List.mem_singleton.mp hnew]
    exact hcaller.mono (fun event h => by rw [← h]; exact congrFun hsignals' target) hversions'

theorem WakeInv.setStage {s t : Dispatch} (hi : WakeInv s) {i : Nat} {w : Waiter}
    {stage : Stage} (hsignals : t.targetSignals = s.targetSignals)
    (hversions : t.targetSignalVersions = s.targetSignalVersions) (hwaiters : t.waiters = s.waiters)
    (hstage : Attentive s { w with stage := stage }) : WakeInv (t.setStage i w stage) := by
  intro other hother
  obtain ⟨j, hj⟩ := List.mem_iff_getElem?.mp hother
  have hback : ∀ v : Waiter, Attentive s v → Attentive (t.setStage i w stage) v := fun v hv =>
    hv.mono (fun event h => by rw [← h]; exact congrFun hsignals v.target) hversions
  rcases getElem?_set_cases hj with ⟨-, rfl⟩ | ⟨-, hold⟩
  · exact hback _ hstage
  · rw [hwaiters] at hold
    exact hback _ (hi other (List.mem_of_getElem? hold))

/-- **Step lemma.** -/
theorem WakeInv.step {s t : Dispatch} {a : Action} (hi : WakeInv s) (hidle : ForgetsIdle s a t)
    (hstep : step s a = some t) : WakeInv t := by
  cases a with
  | signal target =>
      obtain rfl := Option.some.inj hstep
      exact hi.signal target
  | wait target afterVersion =>
      obtain rfl := Option.some.inj hstep
      exact hi.wait target afterVersion
  | forget target =>
      obtain rfl := Option.some.inj hstep
      intro w hw
      by_cases htarget : w.target = target
      · have hidle' := hidle w hw htarget
        have hw' := hi w hw
        unfold Waiter.isWaiting at hidle'
        unfold Attentive at hw' ⊢
        cases hstage : w.stage with
        | blocked event => simp [hstage] at hidle'
        | woken event => simp [hstage] at hidle'
        | returned newVersion => trivial
        | canceled => trivial
        | keyError => simp [hstage] at hw'
      · exact attentive_congr (assign_other _ _ htarget) (assign_other _ _ htarget) (hi w hw)
  | resume i =>
      obtain ⟨w, hw, hnext⟩ := Option.bind_eq_some_iff.mp hstep
      have hw' := hi w (List.mem_of_getElem? hw)
      cases hstage : w.stage with
      | woken event =>
          simp only [hstage] at hnext
          obtain rfl := Option.some.inj hnext
          unfold Attentive at hw'
          simp only [hstage] at hw'
          obtain ⟨hsignals, hversions, hwaiters⟩ := look_frame s w.target w.version
          exact hi.setStage hsignals hversions hwaiters (look_attentive w.version hw')
      | blocked event => simp [hstage] at hnext
      | returned newVersion => simp [hstage] at hnext
      | canceled => simp [hstage] at hnext
      | keyError => simp [hstage] at hnext
  | timeout i =>
      obtain ⟨w, -, hnext⟩ := Option.bind_eq_some_iff.mp hstep
      split at hnext
      · obtain rfl := Option.some.inj hnext
        exact hi.setStage rfl rfl rfl trivial
      · cases hnext
  | cancel i =>
      obtain ⟨w, -, hnext⟩ := Option.bind_eq_some_iff.mp hstep
      split at hnext
      · obtain rfl := Option.some.inj hnext
        exact hi.setStage rfl rfl rfl trivial
      · cases hnext

/-! ### Signals arrive -/

/-- The call is over, or its next step ends it with `True`. -/
def Noticed (s : Dispatch) (i : Nat) (w : Waiter) : Prop :=
  w.isWaiting = false ∨
    ∃ t, step s (.resume i) = some t ∧ t.waiters[i]? = some { w with stage := .returned true }

/-- A call whose version has moved does not block. -/
theorem WakeInv.noticed {s : Dispatch} (hi : WakeInv s) {i : Nat} {w : Waiter}
    (hw : s.waiters[i]? = some w) (hmoved : s.targetNotificationVersion w.target ≠ w.version) :
    Noticed s i w := by
  have hw' := hi w (List.mem_of_getElem? hw)
  unfold Attentive at hw'
  unfold Noticed Waiter.isWaiting
  cases hstage : w.stage with
  | blocked event =>
      simp only [hstage] at hw'
      exact absurd hw'.2 hmoved
  | woken event =>
      refine .inr ?_
      have hlook : s.look w.target w.version = (s, .returned true) := if_pos hmoved
      have hlength : i < s.waiters.length := (List.getElem?_eq_some_iff.mp hw).1
      refine ⟨s.setStage i w (.returned true), ?_, ?_⟩
      · simp [WakeSignals.step, hw, hstage, hlook]
      · simp [Dispatch.setStage, List.getElem?_set_self hlength]
  | returned newVersion => exact .inl rfl
  | canceled => exact .inl rfl
  | keyError => exact .inl rfl

theorem ensureEvent_versions (s : Dispatch) (target : String) :
    (s.ensureEvent target).targetSignalVersions = s.targetSignalVersions :=
  (ensureEvent_spec s target).2.2.1

/-- No step but a forgetting takes a version back, and a signal adds to it. -/
theorem version_step {s t : Dispatch} {a : Action} {target : String}
    (hforget : a ≠ .forget target) (hstep : step s a = some t) :
    t.targetNotificationVersion target =
      s.targetNotificationVersion target + (if a = .signal target then 1 else 0) := by
  have hsame : ∀ u : Dispatch, u.targetSignalVersions = s.targetSignalVersions →
      u.targetNotificationVersion target = s.targetNotificationVersion target := by
    intro u hu
    unfold Dispatch.targetNotificationVersion
    rw [hu]
  cases a with
  | signal other =>
      obtain rfl := Option.some.inj hstep
      have hversions : (s.signalTargetNotifications other).targetSignalVersions =
          assign s.targetSignalVersions other (some (s.targetNotificationVersion other + 1)) := by
        unfold Dispatch.signalTargetNotifications
        simp only
        split <;> rfl
      unfold Dispatch.targetNotificationVersion
      rw [hversions]
      by_cases htarget : target = other
      · rw [htarget, assign_self, if_pos rfl]
        rfl
      · rw [assign_other _ _ htarget, if_neg (fun h => htarget (Action.signal.inj h).symm)]
        rfl
  | wait other afterVersion =>
      obtain rfl := Option.some.inj hstep
      rw [if_neg (fun h => by cases h)]
      refine hsame _ ?_
      exact (look_frame _ _ _).2.1.trans (ensureEvent_versions s other)
  | forget other =>
      obtain rfl := Option.some.inj hstep
      rw [if_neg (fun h => by cases h)]
      have hne : target ≠ other := fun h => hforget (congrArg Action.forget h.symm)
      exact congrArg (Option.getD · 0) (assign_other _ none hne)
  | resume i =>
      rw [if_neg (fun h => by cases h)]
      obtain ⟨w, -, hnext⟩ := Option.bind_eq_some_iff.mp hstep
      split at hnext
      · obtain rfl := Option.some.inj hnext
        exact hsame _ (look_frame s w.target w.version).2.1
      · cases hnext
  | timeout i =>
      rw [if_neg (fun h => by cases h)]
      obtain ⟨w, -, hnext⟩ := Option.bind_eq_some_iff.mp hstep
      split at hnext
      · obtain rfl := Option.some.inj hnext
        rfl
      · cases hnext
  | cancel i =>
      rw [if_neg (fun h => by cases h)]
      obtain ⟨w, -, hnext⟩ := Option.bind_eq_some_iff.mp hstep
      split at hnext
      · obtain rfl := Option.some.inj hnext
        rfl
      · cases hnext

/-- **Run lemma.**  The version counts the signals. -/
theorem version_run {s t : Dispatch} {acts : List Action} {target : String}
    (hforget : .forget target ∉ acts) (hrun : exec dispatchMachine s acts = some t) :
    t.targetNotificationVersion target =
      s.targetNotificationVersion target + acts.countP (fun a => decide (a = .signal target)) := by
  induction acts generalizing s with
  | nil =>
      have hst : s = t := by simpa using hrun
      simp [hst]
  | cons a rest ih =>
      obtain ⟨next, hstep, hrest⟩ := exec_cons_some hrun
      have hhere := version_step (fun h => hforget (h ▸ List.mem_cons_self)) hstep
      have hlater := ih (fun h => hforget (List.mem_cons_of_mem _ h)) hrest
      rw [hlater, hhere, List.countP_cons]
      simp only [decide_eq_true_eq]
      omega

/-- **No signal is lost.**  A version is read, and then the target is signaled, before
or after a call starts to wait behind that version.  In every run that forgets no
instance under its waiters, and not this one since the version was read, the call
is over or its next step ends it. -/
theorem signal_wakes {s read t : Dispatch} {before after : List Action} {target : String}
    (hstart : dispatchMachine.Start s) (hbefore : exec dispatchMachine s before = some read)
    (hafter : exec dispatchMachine read after = some t)
    (hidle : StepsMeet dispatchMachine ForgetsIdle s (before ++ after))
    (hsignal : .signal target ∈ after) (hforget : .forget target ∉ after)
    {i : Nat} {w : Waiter} (hw : t.waiters[i]? = some w) (htarget : w.target = target)
    (hversion : w.version = read.targetNotificationVersion target) : Noticed t i w := by
  have hnone : WakeInv s := by
    rw [hstart]
    exact fun w hw => absurd hw List.not_mem_nil
  have hkeep : ∀ s a t, WakeInv s → ForgetsIdle s a t → dispatchMachine.step s a = some t →
      WakeInv t := fun s a t hi hidle hstep => hi.step hidle hstep
  have hrun : exec dispatchMachine s (before ++ after) = some t := by
    rw [exec_append _ hbefore]
    exact hafter
  have hi : WakeInv t := exec_invariant hkeep hnone hidle hrun
  have hcount := version_run hforget hafter
  have hsome : 0 < after.countP (fun a => decide (a = .signal target)) :=
    List.countP_pos_iff.mpr ⟨_, hsignal, decide_eq_true rfl⟩
  refine hi.noticed hw ?_
  rw [htarget, hversion]
  omega

/-- The module as it is imported. -/
def imported : Dispatch := ⟨fun _ => none, fun _ => none, fun _ => false, 0, []⟩

/-- A waiter and a signal. -/
theorem signal_wakes_main :
    ∃ t, exec dispatchMachine imported [.wait "main" (some 0), .signal "main"] = some t ∧
      Noticed t 0 ⟨"main", 0, .woken 0⟩ := by
  have hbefore : exec dispatchMachine imported [] = some imported := rfl
  have hidle : StepsMeet dispatchMachine ForgetsIdle imported
      ([] ++ [.wait "main" (some 0), .signal "main"]) :=
    fun _ _ => ⟨trivial, fun _ _ => ⟨trivial, trivial⟩⟩
  exact ⟨_, rfl, signal_wakes rfl hbefore rfl hidle (List.mem_cons_of_mem _ List.mem_cons_self)
    (by decide) rfl rfl rfl⟩

end Workbench.WakeSignals
