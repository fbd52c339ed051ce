import CyberWorkbench.Transactions
import CyberWorkbench.StepMachine

/-!
# Obligations stay in lockstep with the work they track

With every transaction taken as one atomic step, the notification table and
the two work tables move together: a run has at most one notification of its
kind, an obligation is AWAITING only while its run is RUNNING, and the step
that settles a run resolves its obligation.

The argument has one shape.  A transaction that settles background work
settles a set of runs, each RUNNING before and with one outcome after, and
treats their obligations accordingly (`Settles`); the single finishers, the
bulk writers and the pure notification writers are all instances.  `Settles`
preserves the invariant once and for all; only the two insertions need an
argument of their own.
-/

namespace Workbench

open KeyedTable PythonValues StepMachine

variable {ρ : Type} {key : ρ → String}

/-! ### The invariant -/

/-- No run has two notifications of one kind. -/
def OnePerRun (ns : NotificationTable) : Prop :=
  ∀ n ∈ ns.rows, ∀ m ∈ ns.rows, n.kind = m.kind → n.runId = m.runId → n = m

/-- Every notification of the kind has its run, RUNNING while it is awaited. -/
def Tracked (K : WorkKind ρ key) (work : Table ρ key) (ns : NotificationTable) : Prop :=
  ∀ n ∈ ns.rows, n.kind = K.obligation →
    ∃ row, work.get? n.runId = some row ∧ (n.status = .awaiting → K.status row = .running)

/-- The lockstep invariant. -/
structure Lockstep (db : Database) : Prop where
  onePerRun : OnePerRun db.notifications
  tasks : Tracked subagentWork db.tasks db.notifications
  jobs : Tracked asyncJobWork db.jobs db.notifications

/-- What the settling of a run does to its notification. -/
structure ObligationResolved (outcome : WorkStatus) (n n' : AgentNotification) : Prop where
  resolved : n.status = .awaiting →
    n'.status = if outcome.wakesOwner then .pending else .canceled
  kept : n.status ≠ .awaiting → n' = n

/-- Whatever run became terminal, its notification was treated in the same
step. -/
def ResolvesSettled (K : WorkKind ρ key) (work work' : Table ρ key)
    (ns ns' : NotificationTable) : Prop :=
  ∀ runId row row', work.get? runId = some row → (K.status row).isTerminal = false →
    work'.get? runId = some row' → (K.status row').isTerminal = true →
    ∀ n ∈ ns.rows, n.kind = K.obligation → n.runId = runId →
      ∃ n', ns'.get? n.id = some n' ∧ ObligationResolved (K.status row') n n'

/-! ### Row changes that keep track -/

/-- The notification still belongs to the same run and is not awaited anew. -/
structure KeepsTrack (n n' : AgentNotification) : Prop where
  kind : n'.kind = n.kind
  runId : n'.runId = n.runId
  awaiting : n'.status = .awaiting → n.status = .awaiting

theorem KeepsTrack.refl (n : AgentNotification) : KeepsTrack n n := ⟨rfl, rfl, id⟩

theorem KeepsTrack.trans {a b c : AgentNotification} (h : KeepsTrack a b)
    (h' : KeepsTrack b c) : KeepsTrack a c :=
  ⟨h'.kind.trans h.kind, h'.runId.trans h.runId, fun hc => h.awaiting (h'.awaiting hc)⟩

theorem OnePerRun.rowwise {ns ns' : NotificationTable} (h : OnePerRun ns)
    (hrow : ns.Rowwise KeepsTrack ns') : OnePerRun ns' := by
  intro n' hn' m' hm' hkind hrun
  obtain ⟨n, hn, hnt⟩ := hrow.before (Table.mem_rows_iff_get?.mp hn')
  obtain ⟨m, hm, hmt⟩ := hrow.before (Table.mem_rows_iff_get?.mp hm')
  have hnm : n = m := h n (Table.get?_eq_some hn).1 m (Table.get?_eq_some hm).1
    (by rw [← hnt.kind, ← hmt.kind, hkind]) (by rw [← hnt.runId, ← hmt.runId, hrun])
  refine Table.eq_of_key_eq hn' hm' ?_
  rw [← (Table.get?_eq_some hn).2, ← (Table.get?_eq_some hm).2, hnm]

theorem Tracked.rowwise {K : WorkKind ρ key} {work : Table ρ key} {ns ns' : NotificationTable}
    (h : Tracked K work ns) (hrow : ns.Rowwise KeepsTrack ns') : Tracked K work ns' := by
  intro n' hn' hkind
  obtain ⟨n, hn, hnt⟩ := hrow.before (Table.mem_rows_iff_get?.mp hn')
  obtain ⟨row, hrow, hrunning⟩ := h n (Table.get?_eq_some hn).1 (by rw [← hnt.kind, hkind])
  exact ⟨row, by rw [hnt.runId]; exact hrow, fun ha => hrunning (hnt.awaiting ha)⟩

/-- Rows that keep their status keep their obligations tracked. -/
theorem Tracked.work_rowwise {K : WorkKind ρ key} {work work' : Table ρ key}
    {ns : NotificationTable} (h : Tracked K work ns)
    (hrow : work.Rowwise (fun r r' => K.status r' = K.status r) work') :
    Tracked K work' ns := by
  intro n hn hkind
  obtain ⟨row, hget, hrunning⟩ := h n hn hkind
  obtain ⟨row', hget', hstatus⟩ := hrow.after hget
  exact ⟨row', hget', fun ha => by rw [hstatus]; exact hrunning ha⟩

/-- Where no row's status changes, no run is settled. -/
theorem resolvesSettled_of_status {K : WorkKind ρ key} {work work' : Table ρ key}
    (ns ns' : NotificationTable)
    (h : ∀ k row row', work.get? k = some row → work'.get? k = some row' →
      K.status row' = K.status row) :
    ResolvesSettled K work work' ns ns' := by
  intro runId row row' hget hopen hget' hterminal
  rw [h runId row row' hget hget', hopen] at hterminal
  simp at hterminal

/-- Where every row is kept, no run is settled. -/
theorem resolvesSettled_of_kept (K : WorkKind ρ key) {work work' : Table ρ key}
    (ns ns' : NotificationTable) (h : ∀ k row, work.get? k = some row → work'.get? k = some row) :
    ResolvesSettled K work work' ns ns' := by
  refine resolvesSettled_of_status ns ns' ?_
  intro k row row' hget hget'
  rw [h k row hget] at hget'
  rw [Option.some.inj hget']

theorem resolvesSettled_refl (K : WorkKind ρ key) (work : Table ρ key)
    (ns ns' : NotificationTable) : ResolvesSettled K work work ns ns' :=
  resolvesSettled_of_kept K ns ns' (fun _ _ h => h)

/-! ### Settling a set of runs -/

/-- The transaction settled exactly the runs in `runs`, all with one outcome,
and treated their notifications. -/
structure Settles (K : WorkKind ρ key) (runs : String → Prop) (outcome : WorkStatus)
    (work work' : Table ρ key) (ns ns' : NotificationTable) : Prop where
  terminal : outcome.isTerminal = true
  others : ∀ k, ¬ runs k → work'.get? k = work.get? k
  settled : ∀ k, runs k → ∃ row', work'.get? k = some row' ∧ K.status row' = outcome
  keepsTrack : ns.Rowwise KeepsTrack ns'
  resolved : ∀ n ∈ ns.rows, n.kind = K.obligation → runs n.runId →
    ∃ n', ns'.get? n.id = some n' ∧ ObligationResolved outcome n n'

/-- A settlement keeps its own kind tracked: the obligations of the settled
runs are no longer awaited. -/
theorem Settles.tracked {K : WorkKind ρ key} {runs : String → Prop} {outcome : WorkStatus}
    {work work' : Table ρ key} {ns ns' : NotificationTable}
    (h : Settles K runs outcome work work' ns ns') (ht : Tracked K work ns) :
    Tracked K work' ns' := by
  intro n' hn' hkind
  have hget' := Table.mem_rows_iff_get?.mp hn'
  obtain ⟨n, hget, hnt⟩ := h.keepsTrack.before hget'
  have hn := Table.get?_eq_some hget
  have hkindn : n.kind = K.obligation := by rw [← hnt.kind, hkind]
  rw [hnt.runId]
  by_cases hrun : runs n.runId
  · obtain ⟨row', hrow', hstatus⟩ := h.settled n.runId hrun
    refine ⟨row', hrow', ?_⟩
    intro ha
    obtain ⟨m, hm, hres⟩ := h.resolved n hn.1 hkindn hrun
    rw [hn.2, hget'] at hm
    have hresolved := hres.resolved (hnt.awaiting ha)
    rw [← Option.some.inj hm, ha] at hresolved
    split at hresolved <;> cases hresolved
  · obtain ⟨row, hrow, hrunning⟩ := ht n hn.1 hkindn
    exact ⟨row, by rw [h.others _ hrun]; exact hrow, fun ha => hrunning (hnt.awaiting ha)⟩

/-- A settlement treats the notification of every run it made terminal. -/
theorem Settles.resolvesSettled {K : WorkKind ρ key} {runs : String → Prop}
    {outcome : WorkStatus} {work work' : Table ρ key} {ns ns' : NotificationTable}
    (h : Settles K runs outcome work work' ns ns') : ResolvesSettled K work work' ns ns' := by
  intro runId row row' hget hopen hget' hterminal n hn hkind hrunId
  by_cases hrun : runs runId
  · obtain ⟨settled, hsettled, hstatus⟩ := h.settled runId hrun
    rw [hget'] at hsettled
    rw [Option.some.inj hsettled, hstatus]
    exact h.resolved n hn hkind (by rw [hrunId]; exact hrun)
  · rw [h.others _ hrun, hget] at hget'
    rw [← Option.some.inj hget', hopen] at hterminal
    simp at hterminal

/-! ### The resolutions -/

theorem resolveObligation_keepsTrack (kind : NotificationKind) (runId : String) (ready : Bool)
    (payload : Option Dict) (error : String) (now : Time) (ns : NotificationTable) :
    ns.Rowwise KeepsTrack (resolveObligationInSession kind runId ready payload error now ns) := by
  refine (resolveObligation_rowwise kind runId ready payload error now ns).mono ?_
  rintro _ n n' - (rfl | ⟨-, hawaiting, rfl⟩)
  · exact KeepsTrack.refl n'
  · exact ⟨rfl, rfl, fun _ => hawaiting⟩

/-- The one notification of the run is treated as the outcome demands. -/
theorem resolveObligation_resolved {kind : NotificationKind} {runId : String}
    {ns : NotificationTable} {n : AgentNotification} (outcome : WorkStatus)
    (payload : Option Dict) (error : String) (now : Time) (hone : OnePerRun ns)
    (hn : n ∈ ns.rows) (hkind : n.kind = kind) (hrun : n.runId = runId) :
    ∃ n', (resolveObligationInSession kind runId outcome.wakesOwner payload error now ns).get? n.id
        = some n' ∧ ObligationResolved outcome n n' := by
  have hof : isObligationOf kind runId n = true := by simp [isObligationOf, hkind, hrun]
  have hunique : ∀ m ∈ ns.rows, isObligationOf kind runId m = true → m = n := by
    intro m hm hmof
    simp only [isObligationOf, Bool.and_eq_true, decide_eq_true_eq] at hmof
    exact hone m hm n hn (hmof.1.trans hkind.symm) (hmof.2.trans hrun.symm)
  refine ⟨_, resolveObligation_get? _ payload error now hn hof hunique, ?_, ?_⟩
  · intro h
    simp [h]
  · intro h
    simp [h]

/-- The loop of a bulk writer keeps track. -/
theorem resolveLoaded_keepsTrack (K : WorkKind ρ key) (b : BulkSettlement K) (resolvedAt : Time)
    (loaded : List ρ) (ns : NotificationTable) :
    ns.Rowwise KeepsTrack
      (loaded.foldl (fun ns l => resolveLoaded K b resolvedAt l ns) ns) := by
  induction loaded generalizing ns with
  | nil => exact Table.Rowwise.refl KeepsTrack.refl ns
  | cons l rest ih =>
      exact (resolveObligation_keepsTrack _ _ _ _ _ _ ns).trans (ih _)
        (fun _ _ _ h h' => h.trans h')

/-- A notification past AWAITING is out of the loop's reach. -/
theorem resolveLoaded_kept (K : WorkKind ρ key) (b : BulkSettlement K) (resolvedAt : Time)
    (loaded : List ρ) {ns : NotificationTable} {n : AgentNotification}
    (hget : ns.get? n.id = some n) (hpast : n.status ≠ .awaiting) :
    (loaded.foldl (fun ns l => resolveLoaded K b resolvedAt l ns) ns).get? n.id = some n := by
  induction loaded generalizing ns with
  | nil => exact hget
  | cons l rest ih =>
      refine ih ?_
      obtain ⟨n', hn', hsame⟩ :=
        (resolveObligation_rowwise K.obligation (key l) b.ready
          (if b.carriesPayload then some (K.payload (b.write l l)) else none)
          b.error resolvedAt ns).after hget
      rcases hsame with hsame | ⟨-, hawaiting, -⟩
      · rw [← hsame]
        exact hsame ▸ hn'
      · exact absurd hawaiting hpast

/-- A notification of a loaded run is treated by the loop, at its row's turn
and never again. -/
theorem resolveLoaded_resolved (K : WorkKind ρ key) (b : BulkSettlement K) (resolvedAt : Time)
    (loaded : List ρ) {ns : NotificationTable} {n : AgentNotification} (hone : OnePerRun ns)
    (hn : n ∈ ns.rows) (hkind : n.kind = K.obligation)
    (hrun : ∃ l ∈ loaded, key l = n.runId) :
    ∃ n', (loaded.foldl (fun ns l => resolveLoaded K b resolvedAt l ns) ns).get? n.id = some n' ∧
      ObligationResolved b.outcome n n' := by
  induction loaded generalizing ns with
  | nil =>
      obtain ⟨l, hl, -⟩ := hrun
      simp at hl
  | cons l rest ih =>
      have hkeeps := resolveObligation_keepsTrack K.obligation (key l) b.ready
        (if b.carriesPayload then some (K.payload (b.write l l)) else none) b.error resolvedAt ns
      have hget := Table.mem_rows_iff_get?.mp hn
      by_cases hl : key l = n.runId
      · obtain ⟨n', hn', hres⟩ := resolveObligation_resolved b.outcome
          (if b.carriesPayload then some (K.payload (b.write l l)) else none) b.error resolvedAt
          hone hn hkind hl.symm
        rw [← b.readyMatches] at hn'
        have hid : n'.id = n.id := (Table.get?_eq_some hn').2
        have hpast : n'.status ≠ .awaiting := by
          by_cases ha : n.status = .awaiting
          · rw [hres.resolved ha]
            split <;> simp
          · rw [hres.kept ha]
            exact ha
        refine ⟨n', ?_, hres⟩
        rw [← hid]
        exact resolveLoaded_kept K b resolvedAt rest (by rw [hid]; exact hn') hpast
      · obtain ⟨n', hn', hrow⟩ := (resolveObligation_rowwise K.obligation (key l) b.ready
          (if b.carriesPayload then some (K.payload (b.write l l)) else none)
          b.error resolvedAt ns).after hget
        have hsame : n' = n := by
          rcases hrow with hsame | ⟨hof, -, -⟩
          · exact hsame
          · simp only [isObligationOf, Bool.and_eq_true, decide_eq_true_eq] at hof
            exact absurd hof.2.symm hl
        have hrest : ∃ r ∈ rest, key r = n.runId := by
          obtain ⟨r, hr, hrk⟩ := hrun
          rcases List.mem_cons.mp hr with rfl | hr
          · exact absurd hrk hl
          · exact ⟨r, hr, hrk⟩
        exact ih (hone.rowwise hkeeps) (Table.get?_eq_some (hsame ▸ hn')).1 hrest

/-! ### The writers settle runs -/

/-- A single-record finisher settles its run, or changes nothing. -/
theorem finishWorkWrite_settles (K : WorkKind ρ key) (runId : String) (s : Settlement K)
    (resolvedAt : Time) (work : Table ρ key) {ns : NotificationTable} (hone : OnePerRun ns) :
    ∃ runs, Settles K runs s.outcome work
      (finishWorkWrite K runId s resolvedAt work ns).1 ns
      (finishWorkWrite K runId s resolvedAt work ns).2 := by
  unfold finishWorkWrite
  split
  · refine ⟨fun _ => False, s.outcomeTerminal, fun _ _ => rfl, fun _ h => h.elim, ?_, ?_⟩
    · exact Table.Rowwise.refl KeepsTrack.refl ns
    · exact fun _ _ _ h => h.elim
  · rename_i row hfind
    have hrow := List.find?_some hfind
    simp only [isRunningRun, Bool.and_eq_true, decide_eq_true_eq] at hrow
    have hget : work.get? runId = some row := by
      rw [← hrow.1]
      exact Table.mem_rows_iff_get?.mp (List.mem_of_find?_eq_some hfind)
    refine ⟨fun k => k = runId, s.outcomeTerminal, ?_, ?_, ?_, ?_⟩
    · intro k hk
      rw [Table.get?_updateWhere]
      cases hk' : work.get? k with
      | none => rfl
      | some r =>
          have hrk : key r = k := (Table.get?_eq_some hk').2
          simp [isRunningRun, hrk, hk]
    · rintro k rfl
      refine ⟨s.set row, ?_, s.setsStatus row⟩
      rw [Table.get?_updateWhere, hget]
      simp [isRunningRun, hrow]
    · exact resolveObligation_keepsTrack _ _ _ _ _ _ ns
    · intro n hn hkind hrun
      exact resolveObligation_resolved s.outcome _ s.error resolvedAt hone hn hkind hrun

/-- A bulk writer whose rows are current settles exactly their runs. -/
theorem settleLoadedWrite_settles (K : WorkKind ρ key) (b : BulkSettlement K)
    (resolvedAt : Time) {loaded : List ρ} {work : Table ρ key} {ns : NotificationTable}
    (hone : OnePerRun ns) (hnd : (loaded.map key).Nodup)
    (hcurrent : ∀ l ∈ loaded, work.get? (key l) = some l) :
    Settles K (fun k => ∃ l ∈ loaded, key l = k) b.outcome work
      (settleLoadedWrite K b resolvedAt loaded work ns).1 ns
      (settleLoadedWrite K b resolvedAt loaded work ns).2 := by
  rw [settleLoadedWrite_eq]
  have hwrite := Table.rowwise_writeBack work b.write b.keepsKey hnd
  refine ⟨b.outcomeTerminal, ?_, ?_, resolveLoaded_keepsTrack K b resolvedAt loaded ns, ?_⟩
  · intro k hk
    cases hget : work.get? k with
    | none =>
        cases hget' : (work.writeBack loaded b.write b.keepsKey).get? k with
        | none => rfl
        | some r' =>
            obtain ⟨r, hr, -⟩ := hwrite.before hget'
            rw [hget] at hr
            cases hr
    | some r =>
        obtain ⟨r', hr', hchange⟩ := hwrite.after hget
        rcases hchange with ⟨rfl, -⟩ | ⟨l, hl, hlr, -⟩
        · exact hr'
        · exact absurd ⟨l, hl, hlr.trans (Table.get?_eq_some hget).2⟩ hk
  · rintro k ⟨l, hl, rfl⟩
    obtain ⟨r', hr', hchange⟩ := hwrite.after (hcurrent l hl)
    refine ⟨r', hr', ?_⟩
    rcases hchange with ⟨-, hno⟩ | ⟨l', hl', hkey, rfl⟩
    · exact absurd rfl (hno l hl)
    · have hsame : l' = l := by
        have hget := hcurrent l' hl'
        rw [hkey, hcurrent l hl] at hget
        exact (Option.some.inj hget).symm
      rw [hsame, b.setsStatus, writtenField_unchanged]
  · intro n hn hkind hrun
    exact resolveLoaded_resolved K b resolvedAt loaded hone hn hkind hrun

/-! ### Insertions -/

/-- A new run is born with at most its own obligation. -/
theorem createWork_lockstep {K : WorkKind ρ key} {row : ρ}
    {obligation : Option ObligationRequest} {now : Time} {work work' : Table ρ key}
    {ns ns' : NotificationTable}
    (h : createWork row obligation now work ns = some (work', ns'))
    (hrunning : K.status row = .running)
    (hobligation : ∀ request, obligation = some request →
      request.kind = K.obligation ∧ request.runId = key row)
    (hone : OnePerRun ns) (ht : Tracked K work ns) :
    OnePerRun ns' ∧ Tracked K work' ns' ∧
      (∀ k r, work.get? k = some r → work'.get? k = some r) ∧
      ∀ n ∈ ns'.rows, n.kind ≠ K.obligation → n ∈ ns.rows := by
  unfold createWork at h
  split at h
  · cases h
  · rename_i inserted hinsert
    obtain ⟨rfl, rfl⟩ := Prod.mk.inj (Option.some.inj h)
    refine ⟨hone, ?_, fun k r hr => Table.get?_of_insert hinsert hr, fun n hn _ => hn⟩
    intro n hn hkind
    obtain ⟨r, hr, hawaited⟩ := ht n hn hkind
    exact ⟨r, Table.get?_of_insert hinsert hr, hawaited⟩
  · rename_i inserted request hinsert
    obtain ⟨hkind, hrun⟩ := hobligation request rfl
    split at h
    · cases h
    · rename_i added hadd
      obtain ⟨rfl, rfl⟩ := Prod.mk.inj (Option.some.inj h)
      -- the primary key of the work row makes the obligation's run new
      have hnew : ∀ n ∈ ns.rows, n.kind = K.obligation → n.runId ≠ key row := by
        intro n hn hnk hnr
        obtain ⟨r, hr, -⟩ := ht n hn hnk
        rw [hnr, (Table.insert_eq_some hinsert).1] at hr
        cases hr
      refine ⟨?_, ?_, fun k r hr => Table.get?_of_insert hinsert hr, ?_⟩
      · intro n hn m hm hnm hruns
        rcases (Table.mem_insert hadd).mp hn with hn | rfl <;>
          rcases (Table.mem_insert hadd).mp hm with hm | rfl
        · exact hone n hn m hm hnm hruns
        · exact absurd (hruns.trans hrun) (hnew n hn (hnm.trans hkind))
        · exact absurd (hruns.symm.trans hrun) (hnew m hm (hnm.symm.trans hkind))
        · rfl
      · intro n hn hnk
        rcases (Table.mem_insert hadd).mp hn with hn | rfl
        · obtain ⟨r, hr, hawaited⟩ := ht n hn hnk
          exact ⟨r, Table.get?_of_insert hinsert hr, hawaited⟩
        · refine ⟨row, ?_, fun _ => hrunning⟩
          have hget := Table.get?_insert hinsert (key row)
          rw [if_pos rfl] at hget
          show inserted.get? request.runId = some row
          rw [hrun]
          exact hget
      · intro n hn hnk
        rcases (Table.mem_insert hadd).mp hn with hn | rfl
        · exact hn
        · exact absurd hkind hnk

/-! ### One transaction at a time -/

/-- A transaction, with the moments it reads the clock. -/
structure TransactionStep where
  transaction : Transaction
  now : Time
  resolvedAt : Time

/-- `uuid4()` draws a run id no user message has; the run ids of tasks and
jobs are primary keys already. -/
def Transaction.drawsFreshRun (db : Database) : Transaction → Bool
  | .enqueueUserMessageNotification request =>
      db.notifications.rows.all (fun n => !isObligationOf .userMessage request.runId n)
  | _ => true

/-- The database as a machine whose steps are whole transactions. -/
def transactionMachine : Machine Database TransactionStep where
  Start db := db = Database.empty
  step db a :=
    if a.transaction.drawsFreshRun db then
      match a.transaction.read a.now db with
      | none => some db
      | some write => write.commit a.resolvedAt db
    else none

/-- What a pending write may rely on when nothing happened since its read. -/
def PendingWrite.Current (db : Database) : PendingWrite → Prop
  | .insertTask task obligation _ =>
      task.status = .running ∧ ∀ request, obligation = some request →
        request.kind = .subagentFinished ∧ request.runId = task.runId
  | .insertJob job obligation _ =>
      job.status = .running ∧ obligation.kind = .sandboxAsyncJobFinished ∧
        obligation.runId = job.runId
  | .insertMessage request _ =>
      ∀ n ∈ db.notifications.rows, n.kind = .userMessage → n.runId ≠ request.runId
  | .settleTasks _ loaded _ => ∀ l ∈ loaded.rows, db.tasks.get? l.runId = some l
  | .settleJobs _ loaded _ => ∀ l ∈ loaded.rows, db.jobs.get? l.runId = some l
  | .settleTask .. | .settleJob .. | .recordProgress .. | .updateNotification ..
  | .writeNotifications .. => True

private theorem select_current {key : ρ → String} {p : ρ → Bool} (t : Table ρ key) :
    ∀ l ∈ (t.select p).rows, t.get? (key l) = some l :=
  fun _ hl => Table.mem_rows_iff_get?.mp (Table.mem_select.mp hl).1

/-- A read leaves a write that fits the database it read. -/
theorem Transaction.read_current {t : Transaction} {now : Time} {db : Database}
    {w : PendingWrite} (hfresh : t.drawsFreshRun db = true) (h : t.read now db = some w) :
    w.Current db := by
  cases t with
  | createSubagentTask request =>
      obtain rfl := Option.some.inj h
      refine ⟨rfl, ?_⟩
      intro obligation hobligation
      unfold SubagentTaskRequest.obligation at hobligation
      split at hobligation
      · cases hobligation
      · obtain rfl := Option.some.inj hobligation
        exact ⟨rfl, rfl⟩
  | createAsyncJob request =>
      obtain rfl := Option.some.inj h
      exact ⟨rfl, rfl, rfl⟩
  | enqueueUserMessageNotification request =>
      obtain rfl := Option.some.inj h
      intro n hn hkind hrun
      have hn' := List.all_eq_true.mp hfresh n hn
      simp [isObligationOf, hkind, hrun] at hn'
  | completeSubagentTask | failSubagentTask | cancelSubagentTaskRecord =>
      simp only [Transaction.read, finishTaskRead] at h
      split at h
      · obtain rfl := Option.some.inj h
        trivial
      · cases h
  | completeAsyncJob | failAsyncJob | cancelAsyncJob =>
      simp only [Transaction.read, finishJobRead] at h
      split at h
      · obtain rfl := Option.some.inj h
        trivial
      · cases h
  | updateSubagentProgress =>
      simp only [Transaction.read] at h
      split at h
      · cases h
      · split at h
        · cases h
        · obtain rfl := Option.some.inj h
          trivial
  | cancelRunningSubagentTasks | markStaleRunningSubagentTasksFailed =>
      obtain rfl := Option.some.inj h
      exact select_current db.tasks
  | cancelRunningAsyncJobs | markStaleRunningAsyncJobsFailed =>
      obtain rfl := Option.some.inj h
      exact select_current db.jobs
  | claimNextPendingNotification =>
      simp only [Transaction.read] at h
      split at h
      · cases h
      · obtain rfl := Option.some.inj h
        trivial
  | completeNotification | failNotification =>
      simp only [Transaction.read, finishRead] at h
      split at h
      · obtain rfl := Option.some.inj h
        trivial
      · cases h
  | releaseNotification =>
      simp only [Transaction.read] at h
      split at h
      · obtain rfl := Option.some.inj h
        trivial
      · cases h
  | cancelSessionNotifications | cancelMainAgentInterruptedNotifications
  | resetProcessingNotificationsAll =>
      obtain rfl := Option.some.inj h
      trivial

theorem NotificationUpdate.keepsTrack (u : NotificationUpdate) (ns : NotificationTable) :
    ns.Rowwise KeepsTrack (u.run ns) := by
  refine (u.rowwise ns).mono ?_
  rintro _ n n' - (rfl | ⟨-, -, rfl⟩)
  · exact KeepsTrack.refl n'
  · refine ⟨u.keepsKind n, u.keepsRunId n, ?_⟩
    intro ha
    exact absurd ((u.setsStatus n).symm.trans ha) u.neverAwaits

theorem NotificationBulkWrite.keepsTrack (b : NotificationBulkWrite)
    {loaded : List AgentNotification} (hnd : (loaded.map AgentNotification.id).Nodup) (ns : NotificationTable) :
    ns.Rowwise KeepsTrack (b.run loaded ns) := by
  refine (b.rowwise hnd ns).mono ?_
  rintro _ n n' - (⟨rfl, -⟩ | ⟨l, -, -, rfl⟩)
  · exact KeepsTrack.refl n'
  · refine ⟨b.keepsKind l n, b.keepsRunId l n, ?_⟩
    intro ha
    rw [b.setsStatus] at ha
    unfold writtenField at ha
    split at ha
    · exact ha
    · exact absurd ha b.neverAwaits

/-- Both kinds of work resolve what they settle. -/
structure StepResolves (db db' : Database) : Prop where
  tasks : ResolvesSettled subagentWork db.tasks db'.tasks db.notifications db'.notifications
  jobs : ResolvesSettled asyncJobWork db.jobs db'.jobs db.notifications db'.notifications

/-- **The step lemma.**  A write that fits the database keeps the lockstep and
resolves what it settles; one case per kind of write. -/
theorem PendingWrite.commit_lockstep {w : PendingWrite} {resolvedAt : Time} {db db' : Database}
    (hl : Lockstep db) (hw : w.Current db) (h : w.commit resolvedAt db = some db') :
    Lockstep db' ∧ StepResolves db db' := by
  cases w with
  | insertTask task obligation now =>
      obtain ⟨⟨work', ns'⟩, hcreate, rfl⟩ := Option.map_eq_some_iff.mp h
      obtain ⟨hone, htasks, hkept, hothers⟩ := createWork_lockstep (K := subagentWork) hcreate
        hw.1 hw.2 hl.onePerRun hl.tasks
      refine ⟨⟨hone, htasks, ?_⟩, resolvesSettled_of_kept _ _ _ hkept,
        resolvesSettled_refl _ _ _ _⟩
      intro n hn hkind
      exact hl.jobs n (hothers n hn (by rw [hkind]; simp [asyncJobWork, subagentWork])) hkind
  | insertJob job obligation now =>
      obtain ⟨⟨work', ns'⟩, hcreate, rfl⟩ := Option.map_eq_some_iff.mp h
      obtain ⟨hone, hjobs, hkept, hothers⟩ := createWork_lockstep (K := asyncJobWork) hcreate
        hw.1 (by rintro _ ⟨⟩; exact hw.2) hl.onePerRun hl.jobs
      refine ⟨⟨hone, ?_, hjobs⟩, resolvesSettled_refl _ _ _ _,
        resolvesSettled_of_kept _ _ _ hkept⟩
      intro n hn hkind
      exact hl.tasks n (hothers n hn (by rw [hkind]; simp [asyncJobWork, subagentWork])) hkind
  | insertMessage request now =>
      obtain ⟨ns', hinsert, rfl⟩ := Option.map_eq_some_iff.mp h
      refine ⟨⟨?_, ?_, ?_⟩, resolvesSettled_refl _ _ _ _, resolvesSettled_refl _ _ _ _⟩
      · intro n hn m hm hkind hrun
        rcases (Table.mem_insert hinsert).mp hn with hn | rfl <;>
          rcases (Table.mem_insert hinsert).mp hm with hm | rfl
        · exact hl.onePerRun n hn m hm hkind hrun
        · exact absurd hrun (hw n hn hkind)
        · exact absurd hrun.symm (hw m hm hkind.symm)
        · rfl
      · intro n hn hkind
        rcases (Table.mem_insert hinsert).mp hn with hn | rfl
        · exact hl.tasks n hn hkind
        · cases hkind
      · intro n hn hkind
        rcases (Table.mem_insert hinsert).mp hn with hn | rfl
        · exact hl.jobs n hn hkind
        · cases hkind
  | settleTask runId s =>
      obtain rfl := Option.some.inj h
      obtain ⟨runs, hs⟩ := finishWorkWrite_settles subagentWork runId s resolvedAt db.tasks
        hl.onePerRun
      exact ⟨⟨hl.onePerRun.rowwise hs.keepsTrack, hs.tracked hl.tasks,
        hl.jobs.rowwise hs.keepsTrack⟩, hs.resolvesSettled, resolvesSettled_refl _ _ _ _⟩
  | settleJob runId s =>
      obtain rfl := Option.some.inj h
      obtain ⟨runs, hs⟩ := finishWorkWrite_settles asyncJobWork runId s resolvedAt db.jobs
        hl.onePerRun
      exact ⟨⟨hl.onePerRun.rowwise hs.keepsTrack, hl.tasks.rowwise hs.keepsTrack,
        hs.tracked hl.jobs⟩, resolvesSettled_refl _ _ _ _, hs.resolvesSettled⟩
  | recordProgress loaded progress now =>
      obtain rfl := Option.some.inj h
      have hrow : db.tasks.Rowwise
          (fun r r' => subagentWork.status r' = subagentWork.status r)
          (updateSubagentProgressWrite loaded progress now db.tasks) :=
        (updateSubagentProgressWrite_rowwise loaded progress now db.tasks).mono
          (fun _ _ _ _ h => h.1)
      refine ⟨⟨hl.onePerRun, hl.tasks.work_rowwise hrow, hl.jobs⟩, ?_,
        resolvesSettled_refl _ _ _ _⟩
      refine resolvesSettled_of_status _ _ ?_
      intro k row row' hget hget'
      obtain ⟨r', hr', hstatus⟩ := hrow.after hget
      rw [hget'] at hr'
      rw [Option.some.inj hr', hstatus]
  | settleTasks filter loaded b =>
      obtain rfl := Option.some.inj h
      have hs := settleLoadedWrite_settles subagentWork b resolvedAt hl.onePerRun
        loaded.keysDistinct hw
      exact ⟨⟨hl.onePerRun.rowwise hs.keepsTrack, hs.tracked hl.tasks,
        hl.jobs.rowwise hs.keepsTrack⟩, hs.resolvesSettled, resolvesSettled_refl _ _ _ _⟩
  | settleJobs filter loaded b =>
      obtain rfl := Option.some.inj h
      have hs := settleLoadedWrite_settles asyncJobWork b resolvedAt hl.onePerRun
        loaded.keysDistinct hw
      exact ⟨⟨hl.onePerRun.rowwise hs.keepsTrack, hl.tasks.rowwise hs.keepsTrack,
        hs.tracked hl.jobs⟩, resolvesSettled_refl _ _ _ _, hs.resolvesSettled⟩
  | updateNotification u =>
      obtain rfl := Option.some.inj h
      have hrow := u.keepsTrack db.notifications
      exact ⟨⟨hl.onePerRun.rowwise hrow, hl.tasks.rowwise hrow, hl.jobs.rowwise hrow⟩,
        resolvesSettled_refl _ _ _ _, resolvesSettled_refl _ _ _ _⟩
  | writeNotifications p loaded bulk =>
      obtain rfl := Option.some.inj h
      have hrow := bulk.keepsTrack loaded.keysDistinct db.notifications
      exact ⟨⟨hl.onePerRun.rowwise hrow, hl.tasks.rowwise hrow, hl.jobs.rowwise hrow⟩,
        resolvesSettled_refl _ _ _ _, resolvesSettled_refl _ _ _ _⟩

/-- One transaction keeps the lockstep and resolves what it settles. -/
theorem transaction_lockstep {db db' : Database} {a : TransactionStep} (hl : Lockstep db)
    (h : transactionMachine.step db a = some db') : Lockstep db' ∧ StepResolves db db' := by
  simp only [transactionMachine] at h
  split at h
  · rename_i hfresh
    split at h
    · obtain rfl := Option.some.inj h
      exact ⟨hl, resolvesSettled_refl _ _ _ _, resolvesSettled_refl _ _ _ _⟩
    · rename_i w hread
      exact PendingWrite.commit_lockstep hl (Transaction.read_current hfresh hread) h
  · cases h

theorem lockstep_empty : Lockstep Database.empty := by
  constructor <;> (intro n hn; simp [Database.empty, Table.empty] at hn)

/-- **Run lemma.**  Every state the transactions reach is in lockstep. -/
theorem reachable_lockstep {db : Database} (h : Reachable transactionMachine db) :
    Lockstep db :=
  reachable_invariant (m := transactionMachine) (fun _ hs => hs ▸ lockstep_empty)
    (fun _ _ _ hl hstep => (transaction_lockstep hl hstep).1) h

/-- **Obligations and work in lockstep.**  In every reachable state a run has
at most one notification of a kind and an awaited run is RUNNING; and every
transaction that makes a run terminal makes its AWAITING notification PENDING
or CANCELED according to the outcome, and leaves one past AWAITING alone. -/
theorem obligation_lockstep {db : Database} (h : Reachable transactionMachine db) :
    (∀ n ∈ db.notifications.rows, ∀ m ∈ db.notifications.rows,
      n.kind = m.kind → n.runId = m.runId → n = m) ∧
    (∀ n ∈ db.notifications.rows, n.status = .awaiting → n.kind = .subagentFinished →
      ∃ task, db.tasks.get? n.runId = some task ∧ task.status = .running) ∧
    (∀ n ∈ db.notifications.rows, n.status = .awaiting → n.kind = .sandboxAsyncJobFinished →
      ∃ job, db.jobs.get? n.runId = some job ∧ job.status = .running) ∧
    ∀ a db', transactionMachine.step db a = some db' →
      ResolvesSettled subagentWork db.tasks db'.tasks db.notifications db'.notifications ∧
      ResolvesSettled asyncJobWork db.jobs db'.jobs db.notifications db'.notifications := by
  have hl := reachable_lockstep h
  refine ⟨hl.onePerRun, ?_, ?_, ?_⟩
  · intro n hn hawaiting hkind
    obtain ⟨task, hget, hrunning⟩ := hl.tasks n hn hkind
    exact ⟨task, hget, hrunning hawaiting⟩
  · intro n hn hawaiting hkind
    obtain ⟨job, hget, hrunning⟩ := hl.jobs n hn hkind
    exact ⟨job, hget, hrunning hawaiting⟩
  · intro a db' hstep
    have hs := (transaction_lockstep hl hstep).2
    exact ⟨hs.tasks, hs.jobs⟩

/-- A parent delegates twice, one child finishes, the other is cancelled. -/
def delegationSteps : List TransactionStep :=
  [⟨.createSubagentTask (delegation "r1" "o1"), 1, 1⟩,
    ⟨.createSubagentTask (delegation "r2" "o2"), 2, 2⟩,
    ⟨.completeSubagentTask "r1" "report", 3, 3⟩,
    ⟨.cancelRunningSubagentTasks {} "aborted", 4, 4⟩]
where
  delegation (runId obligationId : String) : SubagentTaskRequest :=
    { runId := runId
      obligationId := obligationId
      sessionId := "s"
      parentAgentCode := "planner"
      parentAgentInstanceId := "main:s:1:planner"
      agentCode := "scout"
      agentName := "Scout"
      brief := "look around"
      nestedCallId := "c"
      ownerId := 1 }

theorem obligation_lockstep_delegation :
    ∃ db, exec transactionMachine Database.empty delegationSteps = some db ∧
      db.notifications.rows.map (fun n => (n.runId, n.status)) =
        [("r1", .pending), ("r2", .canceled)] ∧
      ∀ n ∈ db.notifications.rows, ∀ m ∈ db.notifications.rows,
        n.kind = m.kind → n.runId = m.runId → n = m :=
  ⟨_, rfl, rfl, (obligation_lockstep ⟨_, delegationSteps, rfl, rfl⟩).1⟩

end Workbench
