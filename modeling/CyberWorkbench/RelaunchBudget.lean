import CyberWorkbench.SessionRest

/-!
# The budget of relaunches

`_reconcile_driver` relaunches a driver when a message landed after its final
drain, and counts the relaunches along the chain; at the sixth it cancels the
outstanding work of the session.  The counter is not reset when a relaunched
driver gets work done, and the cancellation is not limited to the driver's
instance.

A monitor watches the session: it remembers which chains of relaunched drivers
have brought a notification to a terminal status, and what every cancellation
for a spent budget found and left.  `budget_fair_iff` says exactly which runs
cancel fairly; `messages_spend_budget` replays a chain in which every driver
answers a message.
-/

namespace Workbench.RelaunchBudget

open KeyedTable StepMachine

/-! ### The monitor -/

/-- A cancellation for a spent budget: the driver's instance, whether its chain
of relaunches has brought a notification to its end, and the inbox before and
after. -/
structure BudgetCancel where
  agentInstanceId : String
  progressed : Bool
  before : NotificationTable
  after : NotificationTable

/-- A session with the marks of its driver tasks and its cancellations. -/
structure Watched where
  session : SessionState
  progressed : List Bool := []
  cancels : List BudgetCancel := []

inductive WatchedAction where
  | session (action : SessionAction)
  /-- Somebody else writes to the inbox: subagents, commands, other sessions. -/
  | elsewhere (table : NotificationTable)

/-- Some notification that was open is terminal now. -/
def broughtToEnd (before after : NotificationTable) : Bool :=
  before.rows.any fun n =>
    !n.status.isTerminal && (after.get? n.id).any fun n' => n'.status.isTerminal

/-- The executor is about to write how the turn of a notification ended. -/
def isSettling : DriverPhase → Bool
  | .settling .. => true
  | _ => false

/-- The cancellation for the spent budget is about to be written. -/
def isExhausting : DriverPhase → Bool
  | .exhausting => true
  | _ => false

/-- A relaunched driver, which is counted, brings a notification to its end. -/
def settles (s s' : SessionState) (d : Nat) : Bool :=
  match s.drivers[d]? with
  | none => false
  | some driver => decide (1 ≤ driver.attempt) && isSettling driver.phase &&
      broughtToEnd s.table s'.table

/-- The step writes the cancellation, unless the task is cancelled before the
write has taken effect. -/
def cancelsBudget (s : SessionState) (d : Nat) (committed : Bool) : Option Driver :=
  match s.drivers[d]? with
  | none => none
  | some driver =>
      if isExhausting driver.phase && (!driver.cancelRequested || committed) then some driver
      else none

/-- The marks after a step of driver `d`: a relaunch takes over the mark. -/
def progressedAfter (w : Watched) (d : Nat) (s' : SessionState) : List Bool :=
  let progressed := if settles w.session s' d then w.progressed.set d true else w.progressed
  if w.session.drivers.length < s'.drivers.length then progressed ++ [progressed.getD d false]
  else progressed

/-- What the monitor notes of a session's step. -/
def watch (w : Watched) (s' : SessionState) : SessionAction → Watched
  | .drive d _ committed _ =>
      { session := s'
        progressed := progressedAfter w d s'
        cancels :=
          match cancelsBudget w.session d committed with
          | none => w.cancels
          | some driver => w.cancels ++ [⟨driver.agentInstanceId, w.progressed.getD d false,
              w.session.table, s'.table⟩] }
  | _ =>
      { w with
        session := s'
        progressed :=
          if w.session.drivers.length < s'.drivers.length then w.progressed ++ [false]
          else w.progressed }

variable (sessionId : String)

/-- One step of the session, or of the others. -/
def watchedStep (w : Watched) : WatchedAction → Option Watched
  | .session action => (sessionStep sessionId w.session action).map fun s' => watch w s' action
  | .elsewhere table => some { w with session := { w.session with table := table } }

/-- A fresh session, with nothing noted. -/
def watchedMachine : Machine Watched WatchedAction where
  Start w := (sessionMachine sessionId).Start w.session ∧ w.progressed = [] ∧ w.cancels = []
  step := watchedStep sessionId

/-! ### The property and its condition -/

/-- A cancellation is fair: the chain got nothing done, and no notification for
another instance was changed. -/
structure BudgetCancel.Fair (c : BudgetCancel) : Prop where
  idle : c.progressed = false
  own : ∀ n ∈ c.before.rows, n.targetAgentInstanceId ≠ c.agentInstanceId → n ∈ c.after.rows

/-- Every cancellation for a spent budget was fair. -/
def BudgetFair (w : Watched) : Prop := ∀ c ∈ w.cancels, c.Fair

/-- A driver that is about to be relaunched has no relaunches left, and a message
is waiting. -/
def SpendsBudget (sessionId : String) (s : SessionState) (driver : Driver) : Prop :=
  driver.phase = .checking ∧ maxDriverRelaunch ≤ driver.attempt ∧
    hasPendingNotification sessionId none (some driver.agentInstanceId) s.table = true

/-- A driver spends the budget only after a chain that has got nothing done, and
while the cancellation is written, all that is outstanding in the session is for
its own instance. -/
def SpentInVain (w : Watched) : WatchedAction → Prop
  | .session (.drive d _ _ _) =>
      ∀ driver ∈ w.session.drivers[d]?,
        (SpendsBudget sessionId w.session driver → w.progressed.getD d false = false) ∧
        (driver.phase = .exhausting → ∀ n ∈ w.session.table.rows, n.sessionId = sessionId →
          n.status.isOutstanding = true → n.targetAgentInstanceId = driver.agentInstanceId)
  | _ => True

variable {sessionId}

/-! ### The invariant -/

/-- An operation leaves the tasks alone, or creates one. -/
theorem advanceOp_drivers {s s' : SessionState} {i : Nat} {now : Time} {op : OpPhase}
    (hstep : advanceOp sessionId s i now op = some s') :
    ∃ more, s'.drivers = s.drivers ++ more ∧ more.length ≤ 1 ∧
      ∀ next ∈ more, next.phase = .queued := by
  have hnone : ∀ {t : SessionState}, some t = some s' → t.drivers = s.drivers →
      ∃ more, s'.drivers = s.drivers ++ more ∧ more.length ≤ 1 ∧
        ∀ next ∈ more, next.phase = .queued := by
    intro t heq ht
    obtain rfl := Option.some.inj heq
    exact ⟨[], by rw [ht, List.append_nil], Nat.zero_le 1, fun _ hmem => by cases hmem⟩
  cases op with
  | startQueued request =>
      simp only [advanceOp] at hstep
      split at hstep
      · cases hstep
      · split at hstep
        · exact hnone hstep rfl
        · exact hnone hstep rfl
  | enqueueing request =>
      simp only [advanceOp] at hstep
      split at hstep
      · cases hstep
      · exact hnone hstep rfl
  | signaling => exact hnone hstep rfl
  | launching agentInstanceId hasContent =>
      obtain rfl := Option.some.inj hstep
      refine ⟨[_], rfl, Nat.le_refl 1, fun next hmem => ?_⟩
      rw [List.mem_singleton.mp hmem]
  | recoveryQueued agentCode context =>
      simp only [advanceOp] at hstep
      split at hstep
      · cases hstep
      · split at hstep
        · exact hnone hstep rfl
        · exact hnone hstep rfl
  | recoveryQuerying agentCode context =>
      simp only [advanceOp] at hstep
      split at hstep
      · exact hnone hstep rfl
      · exact hnone hstep rfl
  | interruptWaiting d =>
      simp only [advanceOp] at hstep
      split at hstep
      · cases hstep
      · split at hstep
        · exact hnone hstep rfl
        · cases hstep
  | interruptCanceling => exact hnone hstep rfl
  | interruptFinishing => exact hnone hstep rfl
  | finished => cases hstep

/-- A task's step sets its phase, and may create a task. -/
theorem advanceDriver_drivers {s s' : SessionState} {d : Nat} {driver : Driver} {result : TurnResult}
    {now : Time} (hstep : advanceDriver sessionId s d driver result now = some s') :
    ∃ driver' more, s'.drivers = s.drivers.set d driver' ++ more ∧ more.length ≤ 1 ∧
      (∀ next ∈ more, next.phase = .queued) ∧
      (driver'.phase = .exhausting → driver'.agentInstanceId = driver.agentInstanceId ∧
        SpendsBudget sessionId s driver) := by
  have hset : ∀ {t : SessionState} (phase : DriverPhase), phase ≠ .exhausting →
      some t = some s' → t.drivers = s.drivers.set d { driver with phase := phase } →
      ∃ driver' more, s'.drivers = s.drivers.set d driver' ++ more ∧ more.length ≤ 1 ∧
        (∀ next ∈ more, next.phase = .queued) ∧
        (driver'.phase = .exhausting → driver'.agentInstanceId = driver.agentInstanceId ∧
          SpendsBudget sessionId s driver) := by
    intro t phase hne heq ht
    obtain rfl := Option.some.inj heq
    exact ⟨_, [], by rw [ht, List.append_nil], Nat.zero_le 1, (fun _ hmem => by cases hmem),
      fun hphase => absurd hphase hne⟩
  unfold advanceDriver at hstep
  cases hphase : driver.phase with
  | queued =>
      simp only [hphase] at hstep
      split at hstep
      · cases hstep
      · refine hset _ ?_ hstep rfl
        unfold Driver.firstPhase
        split <;> simp
  | running claimed =>
      cases claimed with
      | none =>
          simp only [hphase] at hstep
          cases result with
          | returned => exact hset .claiming (by simp) hstep rfl
          | preempted => exact hset .claiming (by simp) hstep rfl
          | raised error => exact hset .reconciling (by simp) hstep rfl
      | some id =>
          simp only [hphase] at hstep
          exact hset (.settling id result) (by simp) hstep rfl
  | settling id settled =>
      simp only [hphase] at hstep
      exact hset .claiming (by simp) hstep rfl
  | claiming =>
      simp only [hphase] at hstep
      split at hstep
      · exact hset .reconciling (by simp) hstep rfl
      · exact hset (.running _) (by simp) hstep rfl
  | releasing id =>
      simp only [hphase] at hstep
      exact hset .done (by simp) hstep rfl
  | reconciling =>
      simp only [hphase] at hstep
      split at hstep
      · cases hstep
      · exact hset .checking (by simp) hstep rfl
  | checking =>
      simp only [hphase] at hstep
      split at hstep
      · rename_i hpending
        split at hstep
        · rename_i hspent
          obtain rfl := Option.some.inj hstep
          exact ⟨_, [], (List.append_nil _).symm, Nat.zero_le 1, (fun _ hmem => by cases hmem),
            fun _ => ⟨rfl, hphase, hspent, hpending⟩⟩
        · obtain rfl := Option.some.inj hstep
          refine ⟨{ driver with phase := .finishing }, [_], rfl, Nat.le_refl 1, fun next hmem => ?_,
            fun h => by cases h⟩
          rw [List.mem_singleton.mp hmem]
      · exact hset .finishing (by simp) hstep rfl
  | exhausting =>
      simp only [hphase] at hstep
      exact hset .finishing (by simp) hstep rfl
  | finishing =>
      simp only [hphase] at hstep
      exact hset .done (by simp) hstep rfl
  | done =>
      simp only [hphase] at hstep
      cases hstep

/-- A cancelled task is not exhausting afterwards. -/
theorem cancelDriver_drivers {s s' : SessionState} {d : Nat} {driver : Driver} {committed : Bool}
    {now : Time} (hstep : cancelDriver sessionId s d driver committed now = some s') :
    ∃ driver', s'.drivers = s.drivers.set d driver' ∧ driver'.phase ≠ .exhausting := by
  have hset : ∀ {t : SessionState} (phase : DriverPhase), phase ≠ .exhausting → some t = some s' →
      t.drivers = s.drivers.set d { driver with phase := phase, cancelRequested := false } →
      ∃ driver', s'.drivers = s.drivers.set d driver' ∧ driver'.phase ≠ .exhausting := by
    intro t phase hne heq ht
    obtain rfl := Option.some.inj heq
    exact ⟨_, ht, hne⟩
  unfold cancelDriver at hstep
  cases hphase : driver.phase with
  | running claimed =>
      cases claimed with
      | none =>
          simp only [hphase] at hstep
          exact hset .done (by simp) hstep rfl
      | some id =>
          simp only [hphase] at hstep
          exact hset (.releasing id) (by simp) hstep rfl
  | settling id settled =>
      simp only [hphase] at hstep
      cases settled with
      | returned => exact hset (.releasing id) (by simp) hstep rfl
      | preempted => exact hset .done (by simp) hstep rfl
      | raised error => exact hset .done (by simp) hstep rfl
  | queued =>
      simp only [hphase] at hstep
      exact hset .done (by simp) hstep rfl
  | claiming =>
      simp only [hphase] at hstep
      exact hset .done (by simp) hstep rfl
  | releasing id =>
      simp only [hphase] at hstep
      exact hset .done (by simp) hstep rfl
  | reconciling =>
      simp only [hphase] at hstep
      exact hset .done (by simp) hstep rfl
  | checking =>
      simp only [hphase] at hstep
      exact hset .done (by simp) hstep rfl
  | exhausting =>
      simp only [hphase] at hstep
      exact hset .done (by simp) hstep rfl
  | finishing =>
      simp only [hphase] at hstep
      exact hset .done (by simp) hstep rfl
  | done =>
      simp only [hphase] at hstep
      cases hstep

/-- The tasks after a step of a driver. -/
theorem drive_drivers {s s' : SessionState} {d : Nat} {result : TurnResult} {committed : Bool}
    {now : Time} (hstep : sessionStep sessionId s (.drive d result committed now) = some s') :
    ∃ driver driver' more, s.drivers[d]? = some driver ∧
      s'.drivers = s.drivers.set d driver' ++ more ∧ more.length ≤ 1 ∧
      (∀ next ∈ more, next.phase = .queued) ∧
      (driver'.phase = .exhausting → SpendsBudget sessionId s driver) := by
  unfold sessionStep at hstep
  cases hd : s.drivers[d]? with
  | none => simp [hd] at hstep
  | some driver =>
      simp only [hd] at hstep
      split at hstep
      · obtain ⟨driver', hdrivers, hne⟩ := cancelDriver_drivers hstep
        exact ⟨driver, driver', [], rfl, by rw [hdrivers, List.append_nil], Nat.zero_le 1,
          (fun _ hmem => by cases hmem), fun h => absurd h hne⟩
      · obtain ⟨driver', more, hdrivers, hlength, hqueued, hspends⟩ := advanceDriver_drivers hstep
        exact ⟨driver, driver', more, rfl, hdrivers, hlength, hqueued, fun h => (hspends h).2⟩

/-- Marks for every task, and none on a chain that is about to cancel. -/
structure Marked (w : Watched) : Prop where
  length : w.progressed.length = w.session.drivers.length
  idle : ∀ (d : Nat) (driver : Driver), w.session.drivers[d]? = some driver →
    driver.phase = .exhausting → w.progressed.getD d false = false

/-- An interrupt leaves every task in its phase. -/
theorem beginInterrupt_drivers (s : SessionState) : ∃ drivers, (beginInterrupt s).drivers = drivers ∧
    drivers.length = s.drivers.length ∧ ∀ (e : Nat) (other : Driver), drivers[e]? = some other →
      ∃ before, s.drivers[e]? = some before ∧ before.phase = other.phase := by
  unfold beginInterrupt
  split
  · exact ⟨_, rfl, rfl, fun e other he => ⟨other, he, rfl⟩⟩
  · split
    · exact ⟨_, rfl, rfl, fun e other he => ⟨other, he, rfl⟩⟩
    · rename_i d hcurrent driver hd
      split
      · exact ⟨_, rfl, rfl, fun e other he => ⟨other, he, rfl⟩⟩
      · refine ⟨_, rfl, List.length_set .., fun e other he => ?_⟩
        rcases getElem?_set_cases he with ⟨rfl, rfl⟩ | ⟨-, hthere⟩
        · exact ⟨driver, hd, rfl⟩
        · exact ⟨other, hthere, rfl⟩

theorem getD_concat {marks : List Bool} {mark : Bool} {e : Nat} (he : e < marks.length) :
    (marks ++ [mark]).getD e false = marks.getD e false := by
  rw [List.getD_eq_getElem?_getD, List.getD_eq_getElem?_getD, List.getElem?_append_left he]

/-- A task that was there, or one that is new and queued. -/
theorem getElem?_append_queued {drivers more : List Driver} (hqueued : ∀ next ∈ more, next.phase = .queued)
    {e : Nat} {other : Driver} (he : (drivers ++ more)[e]? = some other)
    (hphase : other.phase = .exhausting) : drivers[e]? = some other := by
  rw [List.getElem?_append] at he
  split at he
  · exact he
  · rw [hqueued other (List.mem_of_getElem? he)] at hphase
    cases hphase

/-- Marks of tasks that are there, with a new task or without. -/
theorem marked_append {w : Watched} (h : Marked w) {s' : SessionState} {drivers more : List Driver}
    {marks : List Bool} {mark : Bool} {cancels : List BudgetCancel}
    (hdrivers : s'.drivers = drivers ++ more) (hlength : drivers.length = w.session.drivers.length)
    (hmarks : marks.length = w.progressed.length) (hmore : more.length ≤ 1)
    (hqueued : ∀ next ∈ more, next.phase = .queued)
    (hidle : ∀ (e : Nat) (other : Driver), drivers[e]? = some other → other.phase = .exhausting →
      marks.getD e false = false) :
    Marked ⟨s', if w.session.drivers.length < s'.drivers.length then marks ++ [mark] else marks,
      cancels⟩ := by
  have hnew : s'.drivers.length = w.session.drivers.length + more.length := by
    rw [hdrivers, List.length_append, hlength]
  constructor
  · show (if w.session.drivers.length < s'.drivers.length then marks ++ [mark] else marks).length =
      s'.drivers.length
    have hcount := h.length
    split
    · rw [List.length_append, List.length_singleton]
      omega
    · omega
  · intro e other he hphase
    change s'.drivers[e]? = some other at he
    rw [hdrivers] at he
    have hthere := getElem?_append_queued hqueued he hphase
    have hlt : e < marks.length := by
      have := (List.getElem?_eq_some_iff.mp hthere).1
      have := h.length
      omega
    show (if w.session.drivers.length < s'.drivers.length then marks ++ [mark] else marks).getD e
      false = false
    split
    · rw [getD_concat hlt]
      exact hidle e other hthere hphase
    · exact hidle e other hthere hphase

/-- **The marks stay right.** -/
theorem Marked.step {w w' : Watched} {a : WatchedAction} (h : Marked w)
    (hok : SpentInVain sessionId w a) (hstep : (watchedMachine sessionId).step w a = some w') :
    Marked w' := by
  change watchedStep sessionId w a = some w' at hstep
  cases a with
  | elsewhere table =>
      obtain rfl := Option.some.inj hstep
      exact ⟨h.length, h.idle⟩
  | session action =>
      obtain ⟨s', hs', rfl⟩ := Option.map_eq_some_iff.mp hstep
      cases action with
      | startTurn request =>
          obtain rfl := Option.some.inj hs'
          exact marked_append h (List.append_nil _).symm rfl rfl (Nat.zero_le 1)
            (fun _ hmem => by cases hmem) h.idle
      | startNotificationRecovery agentCode context =>
          obtain rfl := Option.some.inj hs'
          exact marked_append h (List.append_nil _).symm rfl rfl (Nat.zero_le 1)
            (fun _ hmem => by cases hmem) h.idle
      | interrupt =>
          obtain rfl := Option.some.inj hs'
          obtain ⟨drivers, hdrivers, hlength, hidle⟩ := beginInterrupt_drivers w.session
          refine marked_append h (hdrivers.trans (List.append_nil _).symm) hlength rfl (Nat.zero_le 1)
            (fun _ hmem => by cases hmem) fun e other he hphase => ?_
          obtain ⟨before, hbefore, hsame⟩ := hidle e other he
          exact h.idle e before hbefore (hsame.trans hphase)
      | advance i now =>
          unfold sessionStep at hs'
          simp only at hs'
          split at hs'
          · cases hs'
          · obtain ⟨more, hdrivers, hmore, hqueued⟩ := advanceOp_drivers hs'
            exact marked_append h hdrivers rfl rfl hmore hqueued h.idle
      | drive d result committed now =>
          obtain ⟨driver, driver', more, hd, hdrivers, hmore, hqueued, hspends⟩ := drive_drivers hs'
          have hsettles : isSettling driver.phase = false → settles w.session s' d = false := by
            intro hnot
            unfold settles
            simp [hd, hnot]
          refine marked_append h hdrivers (List.length_set ..) ?_ hmore hqueued ?_
          · split
            · exact List.length_set ..
            · rfl
          · intro e other he hphase
            rcases getElem?_set_cases he with ⟨rfl, rfl⟩ | ⟨hne, hthere⟩
            · have hspend := hspends hphase
              rw [hsettles (by rw [hspend.1]; rfl)]
              exact (hok driver hd).1 hspend
            · split
              · rw [List.getD_eq_getElem?_getD, List.getElem?_set_ne (Ne.symm hne),
                  ← List.getD_eq_getElem?_getD]
                exact h.idle e other hthere hphase
              · exact h.idle e other hthere hphase

/-! ### The cancellations -/

theorem isOutstanding_ne_canceled {status : NotificationStatus} (h : status.isOutstanding = true) :
    status ≠ .canceled := by
  rintro rfl
  cases h

/-- The cancellation keeps exactly what it does not select. -/
theorem mem_exhaust_iff {now : Time} {t : NotificationTable} {n : AgentNotification}
    (hn : n ∈ t.rows) : n ∈ (exhaust sessionId now t).rows ↔
      ¬ (n.sessionId = sessionId ∧ n.status.isOutstanding = true) := by
  have hselects : (cancelSessionFilter sessionId none).selects n = true ↔
      n.sessionId = sessionId ∧ n.status.isOutstanding = true := by
    unfold CancelFilter.selects cancelSessionFilter matchesOption
    simp only [Bool.not_false, Bool.true_or, Bool.and_true, Bool.and_eq_true, decide_eq_true_eq]
  obtain ⟨n', hn', hchange⟩ := (cancelNotifications_rowwise (cancelSessionFilter sessionId none)
    "Agent driver could not make progress." now t).after (Table.mem_rows_iff_get?.mp hn)
  rw [← hselects]
  rcases hchange with ⟨hkept, rfl⟩ | ⟨hcanceled, hstatus⟩
  · rw [hkept]
    exact iff_of_true (Table.get?_eq_some hn').1 Bool.false_ne_true
  · refine iff_of_false (fun hmem => ?_) (not_not_intro hcanceled)
    have hsame : some n = some n' := (Table.mem_rows_iff_get?.mp hmem).symm.trans hn'
    obtain rfl := Option.some.inj hsame
    exact isOutstanding_ne_canceled (hselects.mp hcanceled).2 hstatus

/-- Who cancels is exhausting, and the inbox is what `exhaust` leaves. -/
theorem drive_exhausts {s s' : SessionState} {d : Nat} {result : TurnResult} {committed : Bool}
    {now : Time} {driver : Driver} (hcancels : cancelsBudget s d committed = some driver)
    (hstep : sessionStep sessionId s (.drive d result committed now) = some s') :
    s.drivers[d]? = some driver ∧ driver.phase = .exhausting ∧
      s'.table = exhaust sessionId now s.table := by
  unfold cancelsBudget at hcancels
  unfold sessionStep at hstep
  cases hd : s.drivers[d]? with
  | none => simp [hd] at hcancels
  | some found =>
      simp only [hd] at hcancels hstep
      split at hcancels
      · rename_i hcond
        obtain rfl := Option.some.inj hcancels
        rw [Bool.and_eq_true] at hcond
        have hphase : found.phase = .exhausting := by
          cases hphase : found.phase <;> simp [hphase, isExhausting] at hcond ⊢
        refine ⟨rfl, hphase, ?_⟩
        split at hstep
        · rename_i hrequested
          have hcommitted : committed = true := by simpa [hrequested] using hcond.2
          unfold cancelDriver at hstep
          simp only [hphase, hcommitted, if_true] at hstep
          obtain rfl := Option.some.inj hstep
          rfl
        · unfold advanceDriver at hstep
          simp only [hphase] at hstep
          obtain rfl := Option.some.inj hstep
          rfl
      · cases hcancels

/-- **One step.**  What is cancelled is cancelled fairly. -/
theorem BudgetFair.step {w w' : Watched} {a : WatchedAction} (h : BudgetFair w) (hmarked : Marked w)
    (hok : SpentInVain sessionId w a) (hstep : (watchedMachine sessionId).step w a = some w') :
    BudgetFair w' := by
  change watchedStep sessionId w a = some w' at hstep
  cases a with
  | elsewhere table =>
      obtain rfl := Option.some.inj hstep
      exact h
  | session action =>
      obtain ⟨s', hs', rfl⟩ := Option.map_eq_some_iff.mp hstep
      cases action with
      | startTurn request => exact h
      | startNotificationRecovery agentCode context => exact h
      | interrupt => exact h
      | advance op now => exact h
      | drive d result committed now =>
          cases hcancels : cancelsBudget w.session d committed with
          | none =>
              have hsame : (watch w s' (.drive d result committed now)).cancels = w.cancels := by
                simp only [watch, hcancels]
              unfold BudgetFair
              rw [hsame]
              exact h
          | some driver =>
              have hnoted : (watch w s' (.drive d result committed now)).cancels =
                  w.cancels ++ [⟨driver.agentInstanceId, w.progressed.getD d false,
                    w.session.table, s'.table⟩] := by
                simp only [watch, hcancels]
              obtain ⟨hd, hphase, htable⟩ := drive_exhausts hcancels hs'
              unfold BudgetFair
              rw [hnoted, List.forall_mem_append, List.forall_mem_singleton]
              refine ⟨h, hmarked.idle d driver hd hphase, fun n hn hother => ?_⟩
              show n ∈ s'.table.rows
              rw [htable]
              exact (mem_exhaust_iff hn).mpr fun ⟨hsession, houtstanding⟩ =>
                hother ((hok driver hd).2 hphase n hn hsession houtstanding)

/-- **Fair budgets.**  Whatever else is written to the inbox: if every budget is
spent in vain, each cancellation comes after a chain of relaunches that has
brought no notification to its end, and changes none for another instance. -/
theorem budget_fair (sessionId : String) (w : Watched) (acts : List WatchedAction) {w' : Watched}
    (hstart : (watchedMachine sessionId).Start w)
    (hok : StepsMeet (watchedMachine sessionId) (fun w a _ => SpentInVain sessionId w a) w acts)
    (hrun : exec (watchedMachine sessionId) w acts = some w') : BudgetFair w' := by
  obtain ⟨⟨-, hdrivers, -⟩, hprogressed, hcancels⟩ := hstart
  have hmarked : Marked w := by
    refine ⟨by rw [hprogressed, hdrivers]; rfl, fun d driver hd => ?_⟩
    rw [hdrivers] at hd
    cases hd
  have hfair : BudgetFair w := by
    unfold BudgetFair
    rw [hcancels]
    intro c hc
    cases hc
  have keep : ∀ s a t, Marked s ∧ BudgetFair s → SpentInVain sessionId s a →
      (watchedMachine sessionId).step s a = some t → Marked t ∧ BudgetFair t :=
    fun s a t hi hok hstep => ⟨hi.1.step hok hstep, hi.2.step hi.1 hok hstep⟩
  exact (exec_invariant keep ⟨hmarked, hfair⟩ hok hrun).2

/-! ### A chain that gets work done -/

/-- The obligation that a subagent waits for. -/
def subagentObligation : ObligationRequest where
  id := "obligation"
  kind := .sandboxAsyncJobFinished
  sessionId := "s"
  targetAgentCode := "scout"
  targetAgentInstanceId := "subagent:1"
  runId := "1"

/-- A fresh session, with the obligation in its inbox. -/
def watchedSession : Watched where
  session := { freshSession with
    table := (addObligationInSession subagentObligation 0 Table.empty).getD Table.empty }

/-- A first turn, up to its final drain. -/
def firstTurn : List WatchedAction :=
  [.session (.startTurn (messageFor "first" "planner")), .session (.advance 0 1),
    .session (.advance 0 1), .session (.drive 0 .returned false 1),
    .session (.drive 0 .returned false 1), .session (.drive 0 .returned false 1)]

/-- A message lands after the final drain of driver `k`. -/
def messageAfterDrain (k : Nat) : List WatchedAction :=
  [.session (.startTurn (messageFor (toString k) "planner")), .session (.advance (k + 1) 1),
    .session (.advance (k + 1) 1), .session (.advance (k + 1) 1)]

/-- Driver `k` sees the message; the next one answers it and drains. -/
def answer (k : Nat) : List WatchedAction :=
  [.session (.drive k .returned false 1), .session (.drive k .returned false 1),
    .session (.drive k .returned false 1), .session (.drive (k + 1) .returned false 1),
    .session (.drive (k + 1) .returned false 1), .session (.drive (k + 1) .returned false 1),
    .session (.drive (k + 1) .returned false 1), .session (.drive (k + 1) .returned false 1)]

/-- The budget of driver `k` is spent. -/
def spend (k : Nat) : List WatchedAction :=
  [.session (.drive k .returned false 1), .session (.drive k .returned false 1),
    .session (.drive k .returned false 1)]

/-- Every relaunched driver answers a message, and the sixth message is
cancelled. -/
def sixMessages : List WatchedAction :=
  firstTurn ++ ([0, 1, 2, 3, 4].flatMap fun k => messageAfterDrain k ++ answer k) ++
    messageAfterDrain 5 ++ spend 5

/-- **Progress spends the budget.**  The obligation of the subagent is canceled
with the sixth message. -/
theorem answered_messages_spend_budget :
    ¬ ∀ w acts w', (watchedMachine "s").Start w → exec (watchedMachine "s") w acts = some w' →
      BudgetFair w' := by
  intro hfair
  obtain ⟨w', hrun, hprogressed⟩ : ∃ w',
      exec (watchedMachine "s") watchedSession sixMessages = some w' ∧
        w'.cancels.any (fun c => c.progressed) = true := ⟨_, rfl, rfl⟩
  obtain ⟨c, hc, htrue⟩ := List.any_eq_true.mp hprogressed
  have hidle := (hfair watchedSession sixMessages w' ⟨⟨rfl, rfl, rfl, rfl, rfl, rfl⟩, rfl, rfl⟩ hrun c
    hc).idle
  rw [htrue] at hidle
  cases hidle

/-- No task has used up its relaunches. -/
def relaunchesLeft (w : Watched) : Bool :=
  w.session.drivers.all fun driver =>
    decide (driver.attempt < maxDriverRelaunch) && !isExhausting driver.phase

theorem spentInVain_of_relaunchesLeft {w : Watched} (h : relaunchesLeft w = true)
    (a : WatchedAction) : SpentInVain sessionId w a := by
  unfold SpentInVain
  split
  · intro driver hd
    have hleft := List.all_eq_true.mp h driver (List.mem_of_getElem? hd)
    rw [Bool.and_eq_true, decide_eq_true_eq, Bool.not_eq_true'] at hleft
    refine ⟨fun hspends => absurd hspends.2.1 (Nat.not_le.mpr hleft.1), fun hphase => ?_⟩
    rw [hphase] at hleft
    cases hleft.2
  · trivial

theorem budget_fair_one_relaunch : ∃ w',
    exec (watchedMachine "s") watchedSession (firstTurn ++ (messageAfterDrain 0 ++ answer 0)) =
      some w' ∧ BudgetFair w' := by
  have hleft : StepsMeet (watchedMachine "s") (fun w _ _ => relaunchesLeft w = true) watchedSession
      (firstTurn ++ (messageAfterDrain 0 ++ answer 0)) := by decide +kernel
  have hok : StepsMeet (watchedMachine "s") (fun w a _ => SpentInVain "s" w a) watchedSession
      (firstTurn ++ (messageAfterDrain 0 ++ answer 0)) :=
    stepsMeet_of_invariant (I := fun _ => True) (fun _ _ _ _ _ _ => trivial)
      (fun _ a _ _ h _ => spentInVain_of_relaunchesLeft h a) trivial hleft
  exact ⟨_, rfl, budget_fair "s" watchedSession (firstTurn ++ (messageAfterDrain 0 ++ answer 0))
    ⟨⟨rfl, rfl, rfl, rfl, rfl, rfl⟩, rfl, rfl⟩ hok rfl⟩

end Workbench.RelaunchBudget
