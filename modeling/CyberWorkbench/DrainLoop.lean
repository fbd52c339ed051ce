import CyberWorkbench.InterruptibleTurn
import CyberWorkbench.StepMachine

/-!
# The drain loop

`run_until_idle` for one agent instance, with every turn executed through
`iter_interruptible_events`.  Each awaited database call is one step, so an
enqueue can land between any two of them; the environment also decides which
task is done when the iterator wakes, when a turn fails and when the driver is
cancelled.

The iterator asks for pending notifications before it touches its stream, and
a turn preempted there is still completed.  `drain_completes_seen` bounds the
damage: as long as no turn that has yielded nothing sees a sibling pending, a
notification is completed only after its stream was consumed or had yielded.
`queued_pair_completed_unseen` replays the loss with two queued messages.
-/

namespace Workbench

open KeyedTable StepMachine

/-- Where the driver stands. -/
inductive DrainPhase where
  | launched
  | claiming
  | checking (turn : Turn)
  | waiting (turn : Turn)
  | woken (turn : Turn) (eventReady : Bool)
  | over (turn : Turn) (ending : TurnEnd)
  | stopped

/-- The inbox and the driver of one instance. -/
structure DrainState where
  table : NotificationTable
  initialContent : Option (List StreamEvent)
  phase : DrainPhase

inductive DrainAction where
  /-- The driver runs up to its first database call. -/
  | launch
  /-- `claim_next_pending_notification`; a claimed turn gets this stream. -/
  | claim (stream : List StreamEvent) (now : Time)
  /-- The pending query at the start of the iterator. -/
  | check
  /-- `asyncio.wait` returns. -/
  | wake (eventReady signalReady : Bool)
  /-- The pending query after a signal. -/
  | query
  /-- The executor's answer to how the turn ended. -/
  | settle (now : Time)
  /-- `run_turn` raises anything but the two control exceptions. -/
  | turnFails (error : String)
  /-- The driver task is cancelled while the turn runs. -/
  | cancel
  /-- The driver task is cancelled while it settles; the database call may
  have committed already. -/
  | cancelSettling (committed : Bool) (now : Time)
  /-- A user message is queued, for this instance or another. -/
  | enqueue (request : UserMessageRequest) (now : Time)
  /-- Background work resolves an obligation. -/
  | resolve (kind : NotificationKind) (runId : String) (ready : Bool)
      (payload : Option PythonValues.Dict) (error : String) (now : Time)

/-- Continue after the iterator's loop body. -/
def TurnStep.phase : TurnStep → DrainPhase
  | .waiting turn => .waiting turn
  | .over turn ending => .over turn ending

/-- The turn that `run_turn` is busy with. -/
def DrainPhase.turn? : DrainPhase → Option Turn
  | .checking turn | .waiting turn | .woken turn _ | .over turn _ => some turn
  | .launched | .claiming | .stopped => none

/-- `str(exc) or "notification handling failed"`. -/
def failureText (error : String) : String :=
  if error = "" then "notification handling failed" else error

/-- What the executor writes when the turn of a claimed notification ended. -/
def settleNotification (notificationId : String) (ending : TurnEnd) (now : Time)
    (table : NotificationTable) : NotificationTable :=
  match ending with
  | .consumed | .interrupted => completeNotification notificationId now table
  | .failed error => failNotification notificationId (failureText error) now table
  | .canceled => releaseNotification notificationId now table

/-- The executor after a turn: the notification is settled and the loop goes
on, unless the exception is re-raised.  The initial turn has no notification;
only an `InterruptSignal` is caught there. -/
def settleTurn (turn : Turn) (ending : TurnEnd) (now : Time) (s : DrainState) : DrainState :=
  match turn.claimed, ending with
  | some id, .canceled =>
      { s with table := settleNotification id .canceled now s.table, phase := .stopped }
  | some id, ending =>
      { s with table := settleNotification id ending now s.table, phase := .claiming }
  | none, .consumed | none, .interrupted => { s with phase := .claiming }
  | none, .failed _ | none, .canceled => { s with phase := .stopped }

/-- A cancellation that strikes while the executor settles.  Only the
completion after a normal return stands inside the `try`, so only there the
notification is released. -/
def cancelSettlingTurn (turn : Turn) (ending : TurnEnd) (committed : Bool) (now : Time)
    (s : DrainState) : DrainState :=
  match turn.claimed with
  | none => { s with phase := .stopped }
  | some id => { s with table := unwound id, phase := .stopped }
where
  settled (id : String) : NotificationTable :=
    if committed then settleNotification id ending now s.table else s.table
  unwound (id : String) : NotificationTable :=
    match ending with
    | .consumed => releaseNotification id now (settled id)
    | .interrupted | .failed _ | .canceled => settled id

variable (sessionId agentInstanceId : String)

/-- `has_pending_notification` as the iterator calls it. -/
def siblingPending (table : NotificationTable) : Bool :=
  hasPendingNotification sessionId none (some agentInstanceId) table

/-- One step of the driver or of its environment. -/
def drainStep (s : DrainState) : DrainAction → Option DrainState
  | .launch =>
      match s.phase, s.initialContent with
      | .launched, some stream =>
          some { s with phase := .checking { claimed := none, remaining := stream } }
      | .launched, none => some { s with phase := .claiming }
      | _, _ => none
  | .claim stream now =>
      match s.phase with
      | .claiming =>
          match claimNextPendingNotificationRead sessionId none (some agentInstanceId)
              s.table with
          | none => some { s with phase := .stopped }
          | some n => some { s with
              table := (claimUpdate n.id now).run s.table
              phase := .checking { claimed := some n.id, remaining := stream } }
      | _ => none
  | .check =>
      match s.phase with
      | .checking turn =>
          if siblingPending sessionId agentInstanceId s.table then
            some { s with phase := .over turn .interrupted }
          else some { s with phase := .waiting { turn with started := true } }
      | _ => none
  | .wake eventReady signalReady =>
      match s.phase with
      | .waiting turn =>
          if signalReady then some { s with phase := .woken turn eventReady }
          else if eventReady then some { s with phase := (turn.resume true none).phase }
          else none
      | _ => none
  | .query =>
      match s.phase with
      | .woken turn eventReady => some { s with
          phase := (turn.resume eventReady
            (some (siblingPending sessionId agentInstanceId s.table))).phase }
      | _ => none
  | .settle now =>
      match s.phase with
      | .over turn ending => some (settleTurn turn ending now s)
      | _ => none
  | .turnFails error =>
      match s.phase.turn? with
      | some turn => some { s with phase := .over turn (.failed error) }
      | none => none
  | .cancel =>
      match s.phase.turn? with
      | some turn => some { s with phase := .over turn .canceled }
      | none => none
  | .cancelSettling committed now =>
      match s.phase with
      | .over turn ending => some (cancelSettlingTurn turn ending committed now s)
      | _ => none
  | .enqueue request now =>
      match enqueueUserMessageNotification request now s.table with
      | none => none
      | some table => some { s with table := table }
  | .resolve kind runId ready payload error now => some { s with
      table := resolveObligationInSession kind runId ready payload error now s.table }

/-- `run_until_idle` and its environment, from any inbox. -/
def drainMachine : Machine DrainState DrainAction where
  Start s := s.phase = .launched
  step := drainStep sessionId agentInstanceId

/-! ### Completing seen, and the condition for it -/

/-- A notification moves from PROCESSING to COMPLETED only when its own turn
consumed its stream or had yielded; and the loop turns from the initial turn
to claiming only when that turn's stream had been started. -/
structure CompletesSeen (s t : DrainState) : Prop where
  notification : ∀ k n n', s.table.get? k = some n → n.status = .processing →
    t.table.get? k = some n' → n'.status = .completed →
    ∃ turn ending, s.phase = .over turn ending ∧ turn.claimed = some k ∧
      (ending = .consumed ∧ turn.remaining = [] ∨ 0 < turn.yielded)
  initial : ∀ turn ending, s.phase = .over turn ending → turn.claimed = none →
    t.phase = .claiming → turn.started = true

/-- No pending query made by a turn that has yielded nothing, and has no event
at hand, finds a sibling.  After its stream was started this concerns only
turns of notifications. -/
def NoSiblingBeforeFirstEvent (s : DrainState) : DrainAction → Prop
  | .check => ∀ turn, s.phase = .checking turn →
      siblingPending sessionId agentInstanceId s.table = false
  | .query => ∀ turn, s.phase = .woken turn false → turn.claimed.isSome = true →
      turn.yielded = 0 → siblingPending sessionId agentInstanceId s.table = false
  | _ => True

/-- What a turn may rely on: its stream was started once it waits, and when it
was consumed or preempted something had been seen of it. -/
def TurnSeen : DrainPhase → Prop
  | .waiting turn | .woken turn _ => turn.started = true
  | .over turn .consumed => turn.started = true ∧ turn.remaining = []
  | .over turn .interrupted =>
      turn.started = true ∧ (turn.claimed.isSome = true → 0 < turn.yielded)
  | .launched | .claiming | .checking _ | .over _ (.failed _) | .over _ .canceled
  | .stopped => True

theorem turnSeen_resume {turn : Turn} {eventReady : Bool} {signal : Option Bool}
    (hstarted : turn.started = true)
    (hquiet : eventReady = false → signal = some true → turn.claimed.isSome = true →
      0 < turn.yielded) :
    TurnSeen (turn.resume eventReady signal).phase := by
  rcases turn.resume_spec eventReady signal with
    ⟨t, ht, -, hs⟩ | ⟨t, ht, -, hs, hend⟩ | ⟨t, ht, -, hs, hyield⟩
  · rw [ht]
    exact hs.trans hstarted
  · rw [ht]
    exact ⟨hs.trans hstarted, hend⟩
  · rw [ht]
    refine ⟨hs.trans hstarted, ?_⟩
    intro hclaimed
    rcases hyield with hyield | ⟨rfl, hevent, hsignal⟩
    · exact hyield
    · exact hquiet hevent hsignal hclaimed

variable {sessionId agentInstanceId}

theorem settleTurn_turnSeen (turn : Turn) (ending : TurnEnd) (now : Time) (s : DrainState) :
    TurnSeen (settleTurn turn ending now s).phase := by
  unfold settleTurn
  split <;> trivial

theorem cancelSettlingTurn_phase (turn : Turn) (ending : TurnEnd) (committed : Bool)
    (now : Time) (s : DrainState) :
    (cancelSettlingTurn turn ending committed now s).phase = .stopped := by
  unfold cancelSettlingTurn
  split <;> rfl

/-- **Step lemma, invariant.**  A step that meets the condition keeps
`TurnSeen`; one case per action. -/
theorem drainStep_turnSeen {s t : DrainState} {a : DrainAction} (hi : TurnSeen s.phase)
    (hok : NoSiblingBeforeFirstEvent sessionId agentInstanceId s a)
    (h : drainStep sessionId agentInstanceId s a = some t) : TurnSeen t.phase := by
  cases a with
  | launch =>
      simp only [drainStep] at h
      split at h <;> first | (obtain rfl := Option.some.inj h; trivial) | cases h
  | claim stream now =>
      simp only [drainStep] at h
      split at h
      · split at h <;> (obtain rfl := Option.some.inj h; trivial)
      · cases h
  | check =>
      simp only [drainStep] at h
      split at h
      · rename_i turn hphase
        rw [if_neg (by simp [hok turn hphase])] at h
        obtain rfl := Option.some.inj h
        rfl
      · cases h
  | wake eventReady signalReady =>
      simp only [drainStep] at h
      split at h
      · rename_i turn hphase
        rw [hphase] at hi
        split at h
        · obtain rfl := Option.some.inj h
          exact hi
        · split at h
          · obtain rfl := Option.some.inj h
            exact turnSeen_resume hi (by simp)
          · cases h
      · cases h
  | query =>
      simp only [drainStep] at h
      split at h
      · rename_i turn eventReady hphase
        rw [hphase] at hi
        obtain rfl := Option.some.inj h
        refine turnSeen_resume hi ?_
        rintro rfl hpending hclaimed
        by_cases hzero : turn.yielded = 0
        · rw [hok turn hphase hclaimed hzero] at hpending
          cases hpending
        · exact Nat.pos_of_ne_zero hzero
      · cases h
  | settle now =>
      simp only [drainStep] at h
      split at h
      · obtain rfl := Option.some.inj h
        exact settleTurn_turnSeen _ _ _ _
      · cases h
  | turnFails error | cancel =>
      simp only [drainStep] at h
      split at h
      · obtain rfl := Option.some.inj h
        trivial
      · cases h
  | cancelSettling committed now =>
      simp only [drainStep] at h
      split at h
      · obtain rfl := Option.some.inj h
        rw [cancelSettlingTurn_phase]
        trivial
      · cases h
  | enqueue request now =>
      simp only [drainStep] at h
      split at h
      · cases h
      · obtain rfl := Option.some.inj h
        exact hi
  | resolve kind runId ready payload error now =>
      simp only [drainStep] at h
      obtain rfl := Option.some.inj h
      exact hi

/-! ### What each step completes -/

/-- Only the end of its own turn completes a notification. -/
theorem settleNotification_completed {id k : String} {ending : TurnEnd} {now : Time}
    {table : NotificationTable} {n n' : AgentNotification} (hn : table.get? k = some n)
    (hopen : n.status = .processing)
    (hn' : (settleNotification id ending now table).get? k = some n')
    (hdone : n'.status = .completed) :
    id = k ∧ (ending = .consumed ∨ ending = .interrupted) := by
  have hne : n.status ≠ .completed := by simp [hopen]
  have hkept : table.get? k ≠ some n' := by
    rw [hn]
    rintro h
    exact hne (Option.some.inj h ▸ hdone)
  cases ending with
  | consumed | interrupted =>
      simp only [settleNotification, completeNotification] at hn'
      split at hn'
      · exact ⟨(NotificationUpdate.completed_of_run hn hne hn' hdone).1, by simp⟩
      · exact absurd hn' hkept
  | failed error =>
      simp only [settleNotification, failNotification] at hn'
      split at hn'
      · cases (NotificationUpdate.completed_of_run hn hne hn' hdone).2
      · exact absurd hn' hkept
  | canceled =>
      simp only [settleNotification, releaseNotification] at hn'
      split at hn'
      · cases (NotificationUpdate.completed_of_run hn hne hn' hdone).2
      · exact absurd hn' hkept

/-- A release completes nothing. -/
theorem releaseNotification_completed {id k : String} {now : Time} {table : NotificationTable}
    {n' : AgentNotification} (hn' : (releaseNotification id now table).get? k = some n')
    (hdone : n'.status = .completed) : table.get? k = some n' := by
  unfold releaseNotification at hn'
  split at hn'
  · obtain ⟨n, hn, hchange⟩ := ((releaseUpdate id now).rowwise table).before hn'
    rcases hchange with rfl | ⟨-, -, rfl⟩
    · exact hn
    · cases hdone
  · exact hn'

/-- A cancelled settlement completes at most what the settlement completed. -/
theorem cancelSettlingTurn_completed {turn : Turn} {ending : TurnEnd} {committed : Bool}
    {now : Time} {s : DrainState} {k : String} {n n' : AgentNotification}
    (hn : s.table.get? k = some n) (hopen : n.status = .processing)
    (hn' : (cancelSettlingTurn turn ending committed now s).table.get? k = some n')
    (hdone : n'.status = .completed) :
    turn.claimed = some k ∧ (ending = .consumed ∨ ending = .interrupted) := by
  have hkept : s.table.get? k ≠ some n' := by
    rw [hn]
    rintro h
    rw [Option.some.inj h, hdone] at hopen
    cases hopen
  unfold cancelSettlingTurn at hn'
  split at hn'
  · exact absurd hn' hkept
  · rename_i id hid
    have hsettled :
        (cancelSettlingTurn.settled ending committed now s id).get? k = some n' := by
      simp only [cancelSettlingTurn.unwound] at hn'
      split at hn'
      · exact releaseNotification_completed hn' hdone
      · exact hn'
      · exact hn'
      · exact hn'
    unfold cancelSettlingTurn.settled at hsettled
    split at hsettled
    · obtain ⟨rfl, hending⟩ := settleNotification_completed hn hopen hsettled hdone
      exact ⟨hid, hending⟩
    · exact absurd hsettled hkept

/-- A step that leaves the inbox alone and does not turn to claiming has
nothing to answer for. -/
theorem completesSeen_of_table {s t : DrainState} (htable : t.table = s.table)
    (hphase : ∀ turn ending, s.phase = .over turn ending → t.phase ≠ .claiming) :
    CompletesSeen s t := by
  constructor
  · intro k n n' hn hopen hn' hdone
    rw [htable, hn] at hn'
    rw [Option.some.inj hn', hdone] at hopen
    cases hopen
  · intro turn ending hover _ hclaiming
    exact absurd hclaiming (hphase turn ending hover)

/-- **Step lemma, property.**  Under `TurnSeen` no step completes a
notification unseen. -/
theorem drainStep_completesSeen {s t : DrainState} {a : DrainAction} (hi : TurnSeen s.phase)
    (h : drainStep sessionId agentInstanceId s a = some t) : CompletesSeen s t := by
  have hseen : ∀ turn ending, s.phase = .over turn ending →
      ending = .consumed ∨ ending = .interrupted →
      turn.started = true ∧ (turn.claimed.isSome = true →
        ending = .consumed ∧ turn.remaining = [] ∨ 0 < turn.yielded) := by
    intro turn ending hover hending
    rw [hover] at hi
    rcases hending with rfl | rfl
    · exact ⟨hi.1, fun _ => .inl ⟨rfl, hi.2⟩⟩
    · exact ⟨hi.1, fun hclaimed => .inr (hi.2 hclaimed)⟩
  cases a with
  | launch =>
      simp only [drainStep] at h
      split at h
      · obtain rfl := Option.some.inj h
        exact completesSeen_of_table rfl (by simp)
      · rename_i hphase _
        obtain rfl := Option.some.inj h
        exact completesSeen_of_table rfl (by simp [hphase])
      · cases h
  | claim stream now =>
      simp only [drainStep] at h
      split at h
      · rename_i hphase
        split at h
        · obtain rfl := Option.some.inj h
          exact completesSeen_of_table rfl (by simp)
        · rename_i n _
          obtain rfl := Option.some.inj h
          refine ⟨?_, by simp [hphase]⟩
          intro k m m' hm hopen hm' hdone
          have hne : m.status ≠ .completed := by simp [hopen]
          cases (NotificationUpdate.completed_of_run hm hne hm' hdone).2
      · cases h
  | check =>
      simp only [drainStep] at h
      split at h
      · split at h <;>
          (obtain rfl := Option.some.inj h; exact completesSeen_of_table rfl (by simp))
      · cases h
  | wake eventReady signalReady =>
      simp only [drainStep] at h
      split at h
      · rename_i turn hphase
        split at h
        · obtain rfl := Option.some.inj h
          exact completesSeen_of_table rfl (by simp)
        · split at h
          · obtain rfl := Option.some.inj h
            exact completesSeen_of_table rfl (by simp [hphase])
          · cases h
      · cases h
  | query =>
      simp only [drainStep] at h
      split at h
      · rename_i turn eventReady hphase
        obtain rfl := Option.some.inj h
        exact completesSeen_of_table rfl (by simp [hphase])
      · cases h
  | settle now =>
      simp only [drainStep] at h
      split at h
      · rename_i turn ending hphase
        obtain rfl := Option.some.inj h
        constructor
        · intro k n n' hn hopen hn' hdone
          have hclaimed : turn.claimed = some k ∧
              (ending = .consumed ∨ ending = .interrupted) := by
            unfold settleTurn at hn'
            split at hn'
            · cases (settleNotification_completed hn hopen hn' hdone).2 <;> contradiction
            · rename_i id _ hid _
              obtain ⟨rfl, hending⟩ := settleNotification_completed hn hopen hn' hdone
              exact ⟨hid, hending⟩
            all_goals
              rw [hn] at hn'
              rw [Option.some.inj hn', hdone] at hopen
              cases hopen
          exact ⟨turn, ending, hphase, hclaimed.1,
            (hseen turn ending hphase hclaimed.2).2 (by rw [hclaimed.1]; rfl)⟩
        · intro turn' ending' hphase' hinitial hclaiming
          rw [hphase] at hphase'
          obtain ⟨rfl, rfl⟩ := DrainPhase.over.inj hphase'
          refine (hseen turn ending hphase ?_).1
          unfold settleTurn at hclaiming
          rw [hinitial] at hclaiming
          cases ending with
          | consumed => exact .inl rfl
          | interrupted => exact .inr rfl
          | failed error => cases hclaiming
          | canceled => cases hclaiming
      · cases h
  | turnFails error | cancel =>
      simp only [drainStep] at h
      split at h
      · obtain rfl := Option.some.inj h
        exact completesSeen_of_table rfl (by simp)
      · cases h
  | cancelSettling committed now =>
      simp only [drainStep] at h
      split at h
      · rename_i turn ending hphase
        obtain rfl := Option.some.inj h
        constructor
        · intro k n n' hn hopen hn' hdone
          obtain ⟨hclaimed, hending⟩ := cancelSettlingTurn_completed hn hopen hn' hdone
          exact ⟨turn, ending, hphase, hclaimed,
            (hseen turn ending hphase hending).2 (by rw [hclaimed]; rfl)⟩
        · intro _ _ _ _ hclaiming
          rw [cancelSettlingTurn_phase] at hclaiming
          cases hclaiming
      · cases h
  | enqueue request now =>
      simp only [drainStep] at h
      split at h
      · cases h
      · rename_i table hinsert
        obtain rfl := Option.some.inj h
        constructor
        · intro k n n' hn hopen hn' hdone
          rw [Table.get?_of_insert hinsert hn] at hn'
          rw [Option.some.inj hn', hdone] at hopen
          cases hopen
        · intro turn ending hphase _ hclaiming
          rw [hphase] at hclaiming
          cases hclaiming
  | resolve kind runId ready payload error now =>
      simp only [drainStep] at h
      obtain rfl := Option.some.inj h
      constructor
      · intro k n n' hn hopen hn' hdone
        obtain ⟨m, hm, hchange⟩ :=
          (resolveObligation_rowwise kind runId ready payload error now s.table).after hn
        rw [hn'] at hm
        obtain rfl := Option.some.inj hm
        rcases hchange with rfl | ⟨-, hawaiting, -⟩
        · rw [hopen] at hdone
          cases hdone
        · rw [hopen] at hawaiting
          cases hawaiting
      · intro turn ending hphase _ hclaiming
        rw [hphase] at hclaiming
        cases hclaiming

/-- **No notification is completed unseen, as long as no silent turn sees a
sibling.**  Along every run of the drain loop, from any inbox and under any
interleaving with enqueues, wake-ups, failures and cancellations: if no pending
query before a turn's first event finds a sibling, a notification moves to
COMPLETED only after its turn consumed its stream or yielded an event, and the
loop claims after the initial turn only if that turn's stream was started. -/
theorem drain_completes_seen (sessionId agentInstanceId : String) (s : DrainState)
    (acts : List DrainAction)
    (hstart : (drainMachine sessionId agentInstanceId).Start s)
    (hquiet : StepsMeet (drainMachine sessionId agentInstanceId)
      (fun s a _ => NoSiblingBeforeFirstEvent sessionId agentInstanceId s a) s acts) :
    StepsMeet (drainMachine sessionId agentInstanceId)
      (fun s _ t => CompletesSeen s t) s acts := by
  refine stepsMeet_of_invariant (I := fun s => TurnSeen s.phase)
    (fun _ _ _ hi hok hstep => drainStep_turnSeen hi hok hstep)
    (fun _ _ _ hi _ hstep => drainStep_completesSeen hi hstep) ?_ hquiet
  have hphase : s.phase = .launched := hstart
  rw [hphase]
  trivial

/-- Two user messages for one instance, then a driver with no content of its
own. -/
def queuedMessage (id : String) : UserMessageRequest where
  id := id
  runId := id
  sessionId := "s"
  targetAgentCode := "planner"
  targetAgentInstanceId := "main:s:1:planner"
  userContent := []

/-- One message alone: its turn yields an event and consumes its stream. -/
def singleMessageRun : List DrainAction :=
  [.enqueue (queuedMessage "a") 1, .launch, .claim [.other] 2, .check, .wake true false,
    .wake true false, .settle 3, .claim [] 4]

theorem drain_completes_seen_single :
    StepsMeet (drainMachine "s" "main:s:1:planner") (fun s _ t => CompletesSeen s t)
      ⟨Table.empty, none, .launched⟩ singleMessageRun := by
  refine drain_completes_seen "s" "main:s:1:planner" ⟨Table.empty, none, .launched⟩
    singleMessageRun rfl ?_
  rintro _ ⟨⟩
  refine ⟨trivial, ?_⟩
  rintro _ ⟨⟩
  refine ⟨trivial, ?_⟩
  rintro _ ⟨⟩
  refine ⟨trivial, ?_⟩
  rintro _ ⟨⟩
  refine ⟨fun _ _ => rfl, ?_⟩
  rintro _ ⟨⟩
  refine ⟨trivial, ?_⟩
  rintro _ ⟨⟩
  refine ⟨trivial, ?_⟩
  rintro _ ⟨⟩
  refine ⟨trivial, ?_⟩
  rintro _ ⟨⟩
  exact ⟨trivial, trivial⟩

/-- The start check finds a sibling: the turn is preempted before its stream
was touched, and the notification that triggered it is completed. -/
theorem sibling_at_check_completes_unseen {s : DrainState} {turn : Turn} {k : String}
    {n : AgentNotification} (now : Time) (hphase : s.phase = .checking turn)
    (hclaimed : turn.claimed = some k) (hfresh : turn.yielded = 0)
    (hn : s.table.get? k = some n) (hprocessing : n.status = .processing)
    (hsibling : siblingPending sessionId agentInstanceId s.table = true) :
    ¬ StepsMeet (drainMachine sessionId agentInstanceId)
      (fun s _ t => CompletesSeen s t) s [.check, .settle now] := by
  intro hseen
  have hcheck : (drainMachine sessionId agentInstanceId).step s .check =
      some { s with phase := .over turn .interrupted } := by
    simp [drainMachine, drainStep, hphase, hsibling]
  have hread : finishNotificationRead k s.table = true := by
    simp [finishNotificationRead, hn, hprocessing, NotificationStatus.isTerminal]
  have hsettle : (drainMachine sessionId agentInstanceId).step
      { s with phase := .over turn .interrupted } (.settle now) =
      some { s with
        table := (finishUpdate k .completed rfl "" now).run s.table, phase := .claiming } := by
    simp [drainMachine, drainStep, settleTurn, hclaimed, settleNotification,
      completeNotification, hread]
  have hkey : n.id = k := (Table.get?_eq_some hn).2
  have hdone : ((finishUpdate k .completed rfl "" now).run s.table).get? k =
      some ((finishUpdate k .completed rfl "" now).set n) := by
    unfold NotificationUpdate.run
    rw [Table.get?_updateWhere, hn]
    simp [finishUpdate, hkey, hprocessing]
  obtain ⟨turn', ending, hover, -, hyield⟩ :=
    ((hseen.tail hcheck).head hsettle).notification k n _ hn hprocessing hdone rfl
  obtain ⟨rfl, rfl⟩ := DrainPhase.over.inj hover
  rcases hyield with ⟨⟨⟩, -⟩ | hpos
  omega

/-- Two queued messages: the first is claimed, preempted by the second before
its stream starts, and completed. -/
def queuedPairRun : List DrainAction :=
  [.enqueue (queuedMessage "a") 1, .enqueue (queuedMessage "b") 2, .launch,
    .claim [.other] 3, .check, .settle 4]

theorem queued_pair_completed_unseen :
    (∃ t, exec (drainMachine "s" "main:s:1:planner") ⟨Table.empty, none, .launched⟩
        queuedPairRun = some t ∧
      t.table.rows.map (fun n => (n.id, n.status)) = [("a", .completed), ("b", .pending)]) ∧
    ¬ ∀ s acts, (drainMachine "s" "main:s:1:planner").Start s →
      StepsMeet (drainMachine "s" "main:s:1:planner")
        (fun s _ t => CompletesSeen s t) s acts := by
  refine ⟨⟨_, rfl, rfl⟩, ?_⟩
  intro hseen
  have h0 := hseen ⟨Table.empty, none, .launched⟩ queuedPairRun rfl
  have h1 := h0.tail rfl
  have h2 := h1.tail rfl
  have h3 := h2.tail rfl
  have h4 := h3.tail rfl
  have hlast := (h4.tail rfl).head rfl
  obtain ⟨turn, ending, hover, -, hyield⟩ := hlast.notification "a" _ _ rfl rfl rfl rfl
  obtain ⟨rfl, rfl⟩ := DrainPhase.over.inj hover
  rcases hyield with ⟨⟨⟩, -⟩ | hpos
  cases hpos

end Workbench
