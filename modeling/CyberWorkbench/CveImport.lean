import CyberWorkbench.RecordRuns
import CyberWorkbench.StepMachine

/-!
# CVE imports next to finding updates

`import_cve_finding` builds a finding request from a candidate, looks for a
finding of the same project, asset and CVE id, and then creates a finding or
updates the one it found; `update_work_project_finding` loads a row, checks the
references and writes.  Every statement is a transaction of its own, and
nothing is held between them.

A run (`cveImportMachine`) is any interleaving of the statements of any number
of calls.  An update writes the columns that differ from the row it loaded.
Which findings imports created is recorded beside the store.

No statement here touches assets, edges or projects, so the one or two
look-ups that check a request's references are one step.
-/

namespace Workbench.WorkProject

open KeyedTable Table PythonValues StepMachine

/-! ### The request of an import -/

/-- `CveMatchConfidence`. -/
inductive CveMatchConfidence where
  | exact
  | high
  | medium
  | low
  deriving DecidableEq, Repr

/-- The fields of `CveCandidateSchema` that an import reads. -/
structure CveCandidate where
  cveId : String
  source : String
  title : String := ""
  description : String := ""
  severity : FindingSeverity := .info
  cvssScore : Option Rat := none
  cvssVector : String := ""
  cwes : List String := []
  references : List String := []
  fixedVersions : List String := []
  matchConfidence : CveMatchConfidence
  matchReason : String
  knownExploited : Bool := false
  epssScore : Option Rat := none
  epssPercentile : Option Rat := none
  sourceUrl : String := ""

/-- `ImportCveFindingRequest`. -/
structure ImportCveFindingRequest where
  assetId : Option Nat := none
  candidate : CveCandidate
  affectedVersion : String := ""

def CveMatchConfidence.findingConfidence : CveMatchConfidence → FindingConfidence
  | .exact => .high
  | .high => .high
  | .medium => .medium
  | .low => .low

/-- `normalize_string_list`: stripped, without empty and repeated entries. -/
def normalizeStringList (values : List String) : List String :=
  values.foldl (fun normalized value =>
    if strip value = "" ∨ strip value ∈ normalized then normalized
    else normalized ++ [strip value]) []

/-- The request that `import_cve_finding` builds, as validation normalizes it. -/
def importFindingRequest (request : ImportCveFindingRequest) : FindingRequest where
  assetId := request.assetId
  edgeId := none
  cveId := (strip request.candidate.cveId).toUpper
  status := .suspected
  content := {
    title := strip (request.candidate.cveId ++ " " ++ request.candidate.title)
    findingType := .cve
    severity := request.candidate.severity
    confidence := request.candidate.matchConfidence.findingConfidence
    cvssScore := request.candidate.cvssScore
    cvssVector := strip request.candidate.cvssVector
    cwes := normalizeStringList request.candidate.cwes
    references := normalizeStringList request.candidate.references
    evidence := strip ("\n".intercalate ([request.candidate.matchReason] ++
      (if request.candidate.sourceUrl = "" then [] else ["情报源: " ++ request.candidate.sourceUrl]) ++
      (if request.candidate.knownExploited then ["CISA KEV 已收录该漏洞。"] else [])))
    remediation :=
      if request.candidate.fixedVersions = [] then
        "核对厂商公告并升级到不受影响的受支持版本；主动验证前保持为疑似状态。"
      else "优先升级到已知修复版本: " ++ ", ".intercalate request.candidate.fixedVersions ++ "。"
    source := strip request.candidate.source
    knownExploited := request.candidate.knownExploited
    epssScore := request.candidate.epssScore
    epssPercentile := request.candidate.epssPercentile
    affectedVersion := strip request.affectedVersion
    fixedVersions := normalizeStringList request.candidate.fixedVersions
    description := strip request.candidate.description
    impact :=
      if request.candidate.knownExploited then
        "该漏洞已进入 CISA 已知被利用漏洞目录，应按暴露面和业务影响优先处置。"
      else "需要结合实际暴露面、版本和可达性完成独立验证。" }

/-! ### Writing a loaded row back -/

/-- The content columns of an UPDATE. -/
def FindingContent.written (loaded changed current : FindingContent) : FindingContent where
  title := writtenField loaded.title changed.title current.title
  findingType := writtenField loaded.findingType changed.findingType current.findingType
  severity := writtenField loaded.severity changed.severity current.severity
  confidence := writtenField loaded.confidence changed.confidence current.confidence
  cvssScore := writtenField loaded.cvssScore changed.cvssScore current.cvssScore
  cvssVector := writtenField loaded.cvssVector changed.cvssVector current.cvssVector
  cwes := writtenField loaded.cwes changed.cwes current.cwes
  references := writtenField loaded.references changed.references current.references
  evidence := writtenField loaded.evidence changed.evidence current.evidence
  remediation := writtenField loaded.remediation changed.remediation current.remediation
  source := writtenField loaded.source changed.source current.source
  knownExploited := writtenField loaded.knownExploited changed.knownExploited current.knownExploited
  epssScore := writtenField loaded.epssScore changed.epssScore current.epssScore
  epssPercentile := writtenField loaded.epssPercentile changed.epssPercentile current.epssPercentile
  affectedVersion :=
    writtenField loaded.affectedVersion changed.affectedVersion current.affectedVersion
  fixedVersions := writtenField loaded.fixedVersions changed.fixedVersions current.fixedVersions
  description := writtenField loaded.description changed.description current.description
  impact := writtenField loaded.impact changed.impact current.impact

/-- The UPDATE of a finding: what the table holds now, with the columns that
the unit of work changed since it loaded the row. -/
def WorkProjectFinding.written (loaded changed current : WorkProjectFinding) :
    WorkProjectFinding :=
  { current with
    assetId := writtenField loaded.assetId changed.assetId current.assetId
    edgeId := writtenField loaded.edgeId changed.edgeId current.edgeId
    cveId := writtenField loaded.cveId changed.cveId current.cveId
    status := writtenField loaded.status changed.status current.status
    content := loaded.content.written changed.content current.content
    updatedAt := writtenField loaded.updatedAt changed.updatedAt current.updatedAt
    validatedAt := writtenField loaded.validatedAt changed.validatedAt current.validatedAt }

@[simp] theorem written_id (loaded changed current : WorkProjectFinding) :
    (loaded.written changed current).id = current.id := rfl

/-- Where nothing was committed since the row was loaded, the update in steps
is the update at once. -/
theorem written_loaded (loaded : WorkProjectFinding) (request : FindingRequest) (now : Time) :
    loaded.written (applyFindingRequest loaded request now) loaded =
      applyFindingRequest loaded request now := by
  simp [WorkProjectFinding.written, FindingContent.written, applyFindingRequest]

/-! ### Calls and their statements -/

/-- The statement that a call makes next, with what it has read so far.
`byImport` marks the update that an import makes. -/
inductive FindingCall
  | lookingUp (request : FindingRequest) (author : Author)
  | validating (request : FindingRequest) (author : Author)
  | creating (request : FindingRequest) (author : Author)
  | loading (byImport : Bool) (findingId : Nat) (request : FindingRequest)
  | checking (byImport : Bool) (loaded : WorkProjectFinding) (request : FindingRequest)
  | writing (byImport : Bool) (loaded : WorkProjectFinding) (request : FindingRequest)
  | returned

/-- The call is one of `import_cve_finding`. -/
def FindingCall.isImport : FindingCall → Bool
  | .lookingUp .. => true
  | .validating .. => true
  | .creating .. => true
  | .loading byImport .. => byImport
  | .checking byImport .. => byImport
  | .writing byImport .. => byImport
  | .returned => false

/-- A statement that only reads. -/
def FindingCall.read (projectId : Nat) (db : ProjectStore) : FindingCall → FindingCall
  | .lookingUp request author =>
      if request.cveId = "" then .returned
      else
        match cveFinding db projectId request with
        | none => .validating request author
        | some existing => .loading true existing.id (keepVerdict existing request)
  | .validating request author =>
      if validateRefs db projectId request ≠ "" then .returned else .creating request author
  | .loading byImport findingId request =>
      match ofProject db.findings WorkProjectFinding.projectId projectId findingId with
      | none => .returned
      | some finding => .checking byImport finding request
  | .checking byImport loaded request =>
      if validateRefs db projectId request ≠ "" then .returned
      else .writing byImport loaded request
  | call => call

/-- The store, the findings that imports created, and the calls. -/
structure ImportState where
  db : ProjectStore
  imported : List Nat := []
  calls : List FindingCall := []

/-- A call is made, or the next statement of a call is carried out. -/
inductive ImportStep
  | importCve (request : ImportCveFindingRequest) (author : Author)
  | updateFinding (findingId : Nat) (request : FindingRequest)
  | statement (i : Nat) (now : Time)

theorem newFinding_id (projectId : Nat) (request : FindingRequest) (author : Author) (now : Time)
    (id : Nat) : (newFinding id projectId request author now).id = id := rfl

/-- The INSERT of `create_work_project_finding`, made by an import. -/
def ImportState.insert (s : ImportState) (projectId : Nat) (request : FindingRequest)
    (author : Author) (now : Time) : ImportState :=
  if s.db.projects.get? projectId = none then s
  else
    { s with
      db := { s.db with
        findings := s.db.findings.append (fun id => newFinding id projectId request author now)
          (newFinding_id projectId request author now) }
      imported := s.db.findings.nextKey :: s.imported }

/-- The UPDATE of `update_work_project_finding`. -/
def ImportState.write (s : ImportState) (loaded : WorkProjectFinding) (request : FindingRequest)
    (now : Time) : ImportState :=
  { s with
    db := { s.db with
      findings := s.db.findings.updateWhere (fun row => decide (row.id = loaded.id))
        (fun row => loaded.written (applyFindingRequest loaded request now) row)
        (written_id loaded _) } }

/-- The calls on one project. -/
def cveImportMachine (projectId : Nat) : Machine ImportState ImportStep where
  Start s := s.imported = [] ∧ s.calls = []
  step s
    | .importCve request author =>
        some { s with calls := s.calls ++ [.lookingUp (importFindingRequest request) author] }
    | .updateFinding findingId request =>
        some { s with calls := s.calls ++ [.loading false findingId request] }
    | .statement i now =>
        match s.calls[i]? with
        | none => none
        | some .returned => none
        | some (.creating request author) =>
            some { s.insert projectId request author now with calls := s.calls.set i .returned }
        | some (.writing _ loaded request) =>
            some { s.write loaded request now with calls := s.calls.set i .returned }
        | some call => some { s with calls := s.calls.set i (call.read projectId s.db) }

/-! ### What is promised -/

/-- What an import looks for. -/
def findingKey (finding : WorkProjectFinding) : Nat × Option Nat × String :=
  (finding.projectId, finding.assetId, finding.cveId)

/-- No two findings that imports created have one key. -/
def UniqueImports (s : ImportState) : Prop :=
  ∀ finding ∈ s.db.findings.rows, ∀ other ∈ s.db.findings.rows,
    finding.id ∈ s.imported → other.id ∈ s.imported →
      findingKey finding = findingKey other → finding = other

/-- Findings with a verdict keep it, its time and their edge. -/
def VerdictsKept (s t : ImportState) : Prop :=
  ∀ finding ∈ s.db.findings.rows, finding.status ≠ .suspected →
    ∃ kept, t.db.findings.get? finding.id = some kept ∧ kept.status = finding.status ∧
      kept.validatedAt = finding.validatedAt ∧ kept.edgeId = finding.edgeId

/-- The step is a statement of an import. -/
def ImportState.byImport (s : ImportState) : ImportStep → Bool
  | .statement i _ => s.calls[i]?.any FindingCall.isImport
  | _ => false

/-- What a step is to leave. -/
structure ImportSound (s : ImportState) (a : ImportStep) (t : ImportState) : Prop where
  unique : UniqueImports t
  verdicts : s.byImport a = true → VerdictsKept s t

/-! ### When a statement is safe -/

/-- The key of the new finding is still free among the imported ones. -/
def KeyFree (projectId : Nat) (s : ImportState) (request : FindingRequest) : Prop :=
  s.db.projects.get? projectId ≠ none →
    ∀ other ∈ s.db.findings.rows, other.id ∈ s.imported →
      findingKey other ≠ (projectId, request.assetId, request.cveId)

/-- The update does not move an imported finding onto the asset and the CVE id
of another. -/
def NoTwin (s : ImportState) (loaded current : WorkProjectFinding) (request : FindingRequest) :
    Prop :=
  current.id ∈ s.imported → ∀ other ∈ s.db.findings.rows, other.id ∈ s.imported →
    other.id ≠ current.id → other.projectId = current.projectId →
    other.assetId = writtenField loaded.assetId request.assetId current.assetId →
      other.cveId ≠ writtenField loaded.cveId request.cveId current.cveId

/-- The verdict of the row is the one the import has read, or none of its
changes reaches it: for the status, the edge and the time of validation, what
the request asks for is what was loaded or what the row holds. -/
structure VerdictStands (loaded current : WorkProjectFinding) (request : FindingRequest)
    (now : Time) : Prop where
  status : request.status = loaded.status ∨ request.status = current.status
  edge : request.edgeId = loaded.edgeId ∨ request.edgeId = current.edgeId
  newlyValidated : request.status = .validated → loaded.status ≠ .validated →
    some now = loaded.validatedAt ∨ some now = current.validatedAt
  notValidated : request.status ≠ .validated →
    none = loaded.validatedAt ∨ none = current.validatedAt

/-- The statement is safe where it is carried out. -/
def Undisturbed (projectId : Nat) (s : ImportState) : ImportStep → Prop
  | .statement i now =>
      match s.calls[i]? with
      | some (.creating request _) => KeyFree projectId s request
      | some (.writing byImport loaded request) =>
          ∀ current, s.db.findings.get? loaded.id = some current →
            NoTwin s loaded current request ∧
              (byImport = true → current.status ≠ .suspected →
                VerdictStands loaded current request now)
      | _ => True
  | _ => True

/-! ### What the statements do -/

section Statements

variable {projectId : Nat} {s : ImportState}

/-- An UPDATE keeps what it finds exactly when the verdict stands. -/
theorem written_keeps_iff {loaded current : WorkProjectFinding} {request : FindingRequest}
    {now : Time} :
    ((loaded.written (applyFindingRequest loaded request now) current).status = current.status ∧
      (loaded.written (applyFindingRequest loaded request now) current).validatedAt =
        current.validatedAt ∧
      (loaded.written (applyFindingRequest loaded request now) current).edgeId =
        current.edgeId) ↔ VerdictStands loaded current request now := by
  simp only [WorkProjectFinding.written, applyFindingRequest, writtenField_eq_current]
  constructor
  · rintro ⟨hstatus, htime, hedge⟩
    refine ⟨hstatus, hedge, fun hvalidated hwas => ?_, fun hnot => ?_⟩
    · rwa [if_pos ⟨hvalidated, hwas⟩] at htime
    · rwa [if_neg (fun h => hnot h.1), if_pos hnot] at htime
  · intro h
    refine ⟨h.status, ?_, h.edge⟩
    by_cases hvalidated : request.status = .validated
    · by_cases hwas : loaded.status = .validated
      · rw [if_neg (fun h => h.2 hwas), if_neg (fun h => h hvalidated)]
        exact .inl rfl
      · rw [if_pos ⟨hvalidated, hwas⟩]
        exact h.newlyValidated hvalidated hwas
    · rw [if_neg (fun h => hvalidated h.1), if_pos hvalidated]
      exact h.notValidated hvalidated

/-- **An INSERT keeps imports unique exactly when the key is still free.** -/
theorem insert_unique_iff {request : FindingRequest} {author : Author} {now : Time}
    (hunique : UniqueImports s) :
    UniqueImports (s.insert projectId request author now) ↔ KeyFree projectId s request := by
  unfold ImportState.insert KeyFree
  split
  · rename_i hmissing
    exact ⟨fun _ h => absurd hmissing h, fun _ => hunique⟩
  · rename_i hproject
    constructor
    · intro hafter _ other hother himported hsame
      have heq := hafter other ((mem_append (by intro _; rfl)).mpr (.inl hother)) _
        ((mem_append (by intro _; rfl)).mpr (.inr rfl)) (List.mem_cons_of_mem _ himported)
        List.mem_cons_self hsame
      have hlt := le_nextKey hother
      have hid : other.id = s.db.findings.nextKey := by rw [heq]; rfl
      omega
    · intro hfree finding hfinding other hother hfi hoi hsame
      have hold : ∀ {row : WorkProjectFinding}, row ∈ s.db.findings.rows →
          row.id ∈ s.db.findings.nextKey :: s.imported → row.id ∈ s.imported := by
        intro row hrow hid
        rcases List.mem_cons.mp hid with hid | hid
        · have hlt := le_nextKey hrow
          omega
        · exact hid
      rcases (mem_append (by intro _; rfl)).mp hfinding with hf | rfl
      · rcases (mem_append (by intro _; rfl)).mp hother with ho | rfl
        · exact hunique finding hf other ho (hold hf hfi) (hold ho hoi) hsame
        · exact absurd hsame (hfree hproject finding hf (hold hf hfi))
      · rcases (mem_append (by intro _; rfl)).mp hother with ho | rfl
        · exact absurd hsame.symm (hfree hproject other ho (hold ho hoi))
        · rfl

/-- An INSERT changes no finding that is there. -/
theorem insert_get? {request : FindingRequest} {author : Author} {now : Time}
    {finding : WorkProjectFinding} (h : finding ∈ s.db.findings.rows) :
    (s.insert projectId request author now).db.findings.get? finding.id = some finding := by
  unfold ImportState.insert
  split
  · exact mem_rows_iff_get?.mp h
  · exact get?_append (mem_rows_iff_get?.mp h) (by intro _; rfl)

/-- What an UPDATE makes of a row. -/
theorem write_get? {loaded : WorkProjectFinding} {request : FindingRequest} {now : Time}
    {finding : WorkProjectFinding} (h : finding ∈ s.db.findings.rows) :
    (s.write loaded request now).db.findings.get? finding.id =
      some (if finding.id = loaded.id then
        loaded.written (applyFindingRequest loaded request now) finding else finding) := by
  unfold ImportState.write
  simp only
  rw [get?_updateWhere, mem_rows_iff_get?.mp h]
  simp

/-- **An UPDATE keeps imports unique exactly when it makes no twin.** -/
theorem write_unique_iff {loaded : WorkProjectFinding} {request : FindingRequest} {now : Time}
    (hunique : UniqueImports s) :
    UniqueImports (s.write loaded request now) ↔
      ∀ current, s.db.findings.get? loaded.id = some current → NoTwin s loaded current request := by
  constructor
  · intro hafter current hcurrent himported other hother hoi hne hproject hasset hcve
    obtain ⟨hmem, hid⟩ := get?_eq_some hcurrent
    have hrow := @write_get? s loaded request now current hmem
    rw [if_pos hid] at hrow
    have hrow' := @write_get? s loaded request now other hother
    rw [if_neg (fun h => hne (h.trans hid.symm))] at hrow'
    have heq := hafter _ (get?_eq_some hrow').1 _ (get?_eq_some hrow).1 hoi himported (by
      unfold findingKey
      rw [hproject, hasset, hcve]
      rfl)
    exact hne ((congrArg WorkProjectFinding.id heq).trans (written_id _ _ _))
  · intro hfree x hx y hy hxi hyi hsame
    obtain ⟨a, ha, rfl⟩ := updated_of_mem (by intro _; rfl) hx
    obtain ⟨b, hb, rfl⟩ := updated_of_mem (by intro _; rfl) hy
    -- two rows with one id are one row; otherwise at most one of them was written
    have hcross : ∀ {a b : WorkProjectFinding}, a ∈ s.db.findings.rows → b ∈ s.db.findings.rows →
        a.id = loaded.id → b.id ≠ loaded.id → a.id ∈ s.imported → b.id ∈ s.imported →
        findingKey (loaded.written (applyFindingRequest loaded request now) a) ≠ findingKey b := by
      intro a b ha hb haid hbid hai hbi hkey
      simp only [findingKey, Prod.mk.injEq] at hkey
      have hget : s.db.findings.get? loaded.id = some a := haid ▸ mem_rows_iff_get?.mp ha
      exact hfree a hget hai b hb hbi (fun h => hbid (h.trans haid)) hkey.1.symm hkey.2.1.symm
        hkey.2.2.symm
    by_cases haid : a.id = loaded.id
    · by_cases hbid : b.id = loaded.id
      · rw [eq_of_key_eq ha hb (haid.trans hbid.symm)]
      · simp only [haid, hbid, decide_true, decide_false, if_true, Bool.false_eq_true,
          if_false] at hsame hxi hyi
        exact absurd hsame (hcross ha hb haid hbid hxi hyi)
    · by_cases hbid : b.id = loaded.id
      · simp only [haid, hbid, decide_true, decide_false, if_true, Bool.false_eq_true,
          if_false] at hsame hxi hyi
        exact absurd hsame.symm (hcross hb ha hbid haid hyi hxi)
      · simp only [haid, hbid, decide_false, Bool.false_eq_true, if_false] at hsame hxi hyi ⊢
        exact hunique a ha b hb hxi hyi hsame

/-- **An UPDATE keeps the verdicts exactly when that of its row stands.** -/
theorem write_verdicts_iff {loaded : WorkProjectFinding} {request : FindingRequest} {now : Time} :
    VerdictsKept s (s.write loaded request now) ↔
      ∀ current, s.db.findings.get? loaded.id = some current → current.status ≠ .suspected →
        VerdictStands loaded current request now := by
  constructor
  · intro hkept current hcurrent hverdict
    obtain ⟨hmem, hid⟩ := get?_eq_some hcurrent
    obtain ⟨kept, hget, hsame⟩ := hkept current hmem hverdict
    rw [write_get? hmem, if_pos hid] at hget
    obtain rfl := Option.some.inj hget
    exact written_keeps_iff.mp hsame
  · intro hstands finding hmem hverdict
    refine ⟨_, write_get? hmem, ?_⟩
    split
    · rename_i hid
      exact written_keeps_iff.mpr (hstands finding (hid ▸ mem_rows_iff_get?.mp hmem) hverdict)
    · exact ⟨rfl, rfl, rfl⟩

/-- Where the findings do not change, nothing is lost. -/
theorem verdictsKept_refl : VerdictsKept s s := fun finding hmem _ =>
  ⟨finding, mem_rows_iff_get?.mp hmem, rfl, rfl, rfl⟩

/-- **One step is sound exactly when its statement is undisturbed.** -/
theorem importSound_iff {a : ImportStep} {t : ImportState} (hunique : UniqueImports s)
    (h : (cveImportMachine projectId).step s a = some t) :
    ImportSound s a t ↔ Undisturbed projectId s a := by
  cases a with
  | importCve request author =>
      obtain rfl := Option.some.inj h
      exact ⟨fun _ => trivial, fun _ => ⟨hunique, fun hby => by cases hby⟩⟩
  | updateFinding findingId request =>
      obtain rfl := Option.some.inj h
      exact ⟨fun _ => trivial, fun _ => ⟨hunique, fun hby => by cases hby⟩⟩
  | statement i now =>
      simp only [cveImportMachine] at h
      cases hcall : s.calls[i]? with
      | none => simp [hcall] at h
      | some call =>
          have hby : s.byImport (.statement i now) = call.isImport := by
            simp [ImportState.byImport, hcall]
          cases call with
          | returned => simp [hcall] at h
          | creating request author =>
              rw [hcall] at h
              obtain rfl := Option.some.inj h
              simp only [Undisturbed, hcall]
              have hkept : VerdictsKept s (s.insert projectId request author now) :=
                fun finding hmem _ => ⟨finding, insert_get? hmem, rfl, rfl, rfl⟩
              exact ⟨fun hsound => (insert_unique_iff hunique).mp hsound.unique,
                fun hfree => ⟨(insert_unique_iff hunique).mpr hfree, fun _ => hkept⟩⟩
          | writing byImport loaded request =>
              rw [hcall] at h
              obtain rfl := Option.some.inj h
              simp only [Undisturbed, hcall]
              constructor
              · intro hsound current hcurrent
                refine ⟨(write_unique_iff hunique).mp hsound.unique current hcurrent,
                  fun himport => ?_⟩
                exact write_verdicts_iff.mp (hsound.verdicts (hby.trans himport)) current hcurrent
              · intro hsafe
                refine ⟨(write_unique_iff hunique).mpr fun current hcurrent =>
                  (hsafe current hcurrent).1, fun himport => ?_⟩
                exact write_verdicts_iff.mpr fun current hcurrent =>
                  (hsafe current hcurrent).2 (hby.symm.trans himport)
          | _ =>
              rw [hcall] at h
              obtain rfl := Option.some.inj h
              simp only [Undisturbed, hcall]
              exact ⟨fun _ => trivial, fun _ => ⟨hunique, fun _ => verdictsKept_refl⟩⟩

end Statements

/-! ### Runs -/

/-- **Imports along a run.**  From any store, imports stay unique and keep
every verdict at every step of a run exactly when every INSERT and UPDATE of
the run is undisturbed. -/
theorem imports_sound_iff (projectId : Nat) (db : ProjectStore) (acts : List ImportStep) :
    StepsMeet (cveImportMachine projectId) ImportSound { db := db } acts ↔
      StepsMeet (cveImportMachine projectId) (fun s a _ => Undisturbed projectId s a)
        { db := db } acts := by
  have hstart : UniqueImports { db := db } := fun _ _ _ _ himported => by cases himported
  constructor
  · exact stepsMeet_of_invariant (I := UniqueImports) (fun _ _ _ _ hsound _ => hsound.unique)
      (fun _ _ _ hunique hsound hstep => (importSound_iff hunique hstep).mp hsound) hstart
  · exact stepsMeet_of_invariant (I := UniqueImports)
      (fun _ _ _ hunique hsafe hstep => ((importSound_iff hunique hstep).mpr hsafe).unique)
      (fun _ _ _ hunique hsafe hstep => (importSound_iff hunique hstep).mpr hsafe) hstart

/-- An edge from the first asset to the second. -/
def firstToSecond : EdgeRequest where
  sourceAssetId := 1
  targetAssetId := 2
  endpoints := Nat.ne_of_lt (Nat.lt_succ_self 1)

/-- A project with two assets and an edge between them. -/
def twoServices : ProjectStore :=
  performAll .empty [
    (.createProject { name := "p", assets := [
      { type := .service, host := "a", identifier := "a" },
      { type := .service, host := "b", identifier := "b" }] } "", 1),
    (.upsertEdge 1 firstToSecond {}, 2)]

/-- The import of a candidate on the first asset. -/
def log4shell : ImportCveFindingRequest where
  assetId := some 1
  candidate := {
    cveId := "CVE-2021-44228", source := "NVD", matchConfidence := .high, matchReason := "version" }

/-- The candidate is imported, validated with the edge as its proof, and
imported again: up to the UPDATE of that second import. -/
def reimport : List ImportStep :=
  [.importCve log4shell {}, .statement 0 3, .statement 0 3, .statement 0 3,
    .updateFinding 1 { importFindingRequest log4shell with status := .validated, edgeId := some 1 },
    .statement 1 4, .statement 1 4, .statement 1 4,
    .importCve log4shell {}, .statement 2 5, .statement 2 5, .statement 2 5]

/-- Two imports of one candidate side by side, up to the second INSERT. -/
def importTwice : List ImportStep :=
  [.importCve log4shell {}, .importCve log4shell {}, .statement 0 3, .statement 1 3,
    .statement 0 3, .statement 1 3, .statement 0 3]

/-- The state a run on the two services reaches. -/
def importReached (acts : List ImportStep) : ImportState :=
  (exec (cveImportMachine 1) { db := twoServices } acts).getD { db := twoServices }

/-- The last step of a sound run is sound. -/
theorem importSound_last {acts : List ImportStep} {a : ImportStep}
    (hmeet : StepsMeet (cveImportMachine 1) ImportSound { db := twoServices } (acts ++ [a]))
    (hacts : (exec (cveImportMachine 1) { db := twoServices } acts).isSome = true)
    (hall : (exec (cveImportMachine 1) { db := twoServices } (acts ++ [a])).isSome = true) :
    ImportSound (importReached acts) a (importReached (acts ++ [a])) := by
  obtain ⟨s, hs⟩ := Option.isSome_iff_exists.mp hacts
  obtain ⟨t, ht⟩ := Option.isSome_iff_exists.mp hall
  have hlast := ht
  rw [exec_append [a] hs] at hlast
  obtain ⟨next, hstep, hnext⟩ := exec_cons_some hlast
  obtain rfl : next = t := Option.some.inj hnext
  unfold importReached
  rw [hs, ht]
  exact ((stepsMeet_append hs).mp hmeet).2.head hstep

/-- **What a second import does.**  Importing a candidate again takes the edge
from its validated finding, and two imports side by side create two findings
for one CVE id of one asset. -/
theorem reimport_drops_edge :
    ¬ StepsMeet (cveImportMachine 1) ImportSound { db := twoServices }
        (reimport ++ [.statement 2 6]) ∧
      ¬ StepsMeet (cveImportMachine 1) ImportSound { db := twoServices }
        (importTwice ++ [.statement 1 3]) := by
  constructor
  · intro hmeet
    have hsound := importSound_last hmeet (by decide +kernel) (by decide +kernel)
    have hbefore : ((importReached reimport).db.findings.get? 1).map
        (fun finding => (finding.status, finding.edgeId)) = some (.validated, some 1) := by
      decide +kernel
    have hafter : ((importReached (reimport ++ [.statement 2 6])).db.findings.get? 1).map
        WorkProjectFinding.edgeId = some none := by decide +kernel
    obtain ⟨finding, hget, hwas⟩ := Option.map_eq_some_iff.mp hbefore
    obtain ⟨hstatus, hedge⟩ := Prod.mk.inj hwas
    obtain ⟨hmem, hid⟩ := get?_eq_some hget
    obtain ⟨kept, hkept, -, -, hsame⟩ := hsound.verdicts (by decide +kernel) finding hmem
      (by rw [hstatus]; decide)
    rw [hid] at hkept
    rw [hkept, Option.map_some, hsame, hedge] at hafter
    cases Option.some.inj hafter
  · intro hmeet
    have hsound := importSound_last hmeet (by decide +kernel) (by decide +kernel)
    have hkeys : (importReached (importTwice ++ [.statement 1 3])).db.findings.rows.map
        (fun finding => (finding.id, findingKey finding)) =
          [(1, 1, some 1, "CVE-2021-44228"), (2, 1, some 1, "CVE-2021-44228")] := by decide +kernel
    have himported : (importReached (importTwice ++ [.statement 1 3])).imported = [2, 1] := by
      decide +kernel
    have hrow : ∀ id, (id, 1, some 1, "CVE-2021-44228") ∈
        (importReached (importTwice ++ [.statement 1 3])).db.findings.rows.map
          (fun finding => (finding.id, findingKey finding)) →
        ∃ finding ∈ (importReached (importTwice ++ [.statement 1 3])).db.findings.rows,
          finding.id = id ∧ findingKey finding = (1, some 1, "CVE-2021-44228") := by
      intro id hmem
      obtain ⟨finding, hfinding, heq⟩ := List.mem_map.mp hmem
      exact ⟨finding, hfinding, Prod.mk.inj heq⟩
    obtain ⟨first, hfirst, hid, hkey⟩ := hrow 1 (by rw [hkeys]; simp)
    obtain ⟨second, hsecond, hid', hkey'⟩ := hrow 2 (by rw [hkeys]; simp)
    have heq := hsound.unique first hfirst second hsecond (by rw [himported, hid]; simp)
      (by rw [himported, hid']; simp) (hkey.trans hkey'.symm)
    rw [heq, hid'] at hid
    cases hid

end Workbench.WorkProject
