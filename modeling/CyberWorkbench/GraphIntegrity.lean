import CyberWorkbench.RecordOperations

/-!
# The attack graph keeps its references

Edges, path steps and findings refer to other records by number, and only the
code's own checks and cascades keep the numbers good.  `Integrity` says what
has to hold of the tables together; changing one table keeps it under
conditions on that table alone (`Integrity.withEdges` and its siblings), and
every operation is made of such changes.
-/

namespace Workbench.WorkProject

open KeyedTable Table

/-! ### What is to hold -/

/-- The asset is one of the project's. -/
def HasAsset (db : ProjectStore) (projectId assetId : Nat) : Prop :=
  db.assets.Refers WorkProjectAsset.projectId assetId projectId

/-- The edge is one of the project's. -/
def HasEdge (db : ProjectStore) (projectId edgeId : Nat) : Prop :=
  db.edges.Refers WorkProjectGraphEdge.projectId edgeId projectId

/-- The attack path is one of the project's. -/
def HasPath (db : ProjectStore) (projectId pathId : Nat) : Prop :=
  db.paths.Refers WorkProjectAttackPath.projectId pathId projectId

/-- The edge joins two distinct assets of its own project. -/
structure EdgeSound (db : ProjectStore) (edge : WorkProjectGraphEdge) : Prop where
  distinct : edge.sourceAssetId ≠ edge.targetAssetId
  source : HasAsset db edge.projectId edge.sourceAssetId
  target : HasAsset db edge.projectId edge.targetAssetId

/-- The step refers to a path and an edge of its own project. -/
structure StepSound (db : ProjectStore) (step : WorkProjectAttackPathStep) : Prop where
  path : HasPath db step.projectId step.pathId
  edge : HasEdge db step.projectId step.edgeId

/-- What the finding refers to is in its own project. -/
structure FindingSound (db : ProjectStore) (finding : WorkProjectFinding) : Prop where
  asset : ∀ assetId, finding.assetId = some assetId → HasAsset db finding.projectId assetId
  edge : ∀ edgeId, finding.edgeId = some edgeId → HasEdge db finding.projectId edgeId

/-- `uq_work_project_graph_edge` -/
def edgeRelation (edge : WorkProjectGraphEdge) : Nat × Nat × Nat × EdgeType :=
  (edge.projectId, edge.sourceAssetId, edge.targetAssetId, edge.type)

/-- `uq_work_project_attack_path_step_sequence` -/
def stepPlace (step : WorkProjectAttackPathStep) : Nat × Nat := (step.pathId, step.sequence)

/-- `uq_work_project_asset_identity` -/
def assetIdentity (asset : WorkProjectAsset) : Nat × AssetType × String :=
  (asset.projectId, asset.identity)

/-- **Referential integrity** of the tables together. -/
structure Integrity (db : ProjectStore) : Prop where
  edges : ∀ edge ∈ db.edges.rows, EdgeSound db edge
  steps : ∀ step ∈ db.steps.rows, StepSound db step
  findings : ∀ finding ∈ db.findings.rows, FindingSound db finding
  edgesUnique : db.edges.UniqueOn edgeRelation
  stepsUnique : db.steps.UniqueOn stepPlace
  assetsUnique : db.assets.UniqueOn assetIdentity
  owned : ∀ asset ∈ db.assets.rows, db.projects.get? asset.projectId ≠ none

theorem Integrity.empty : Integrity .empty where
  edges _ h := absurd h List.not_mem_nil
  steps _ h := absurd h List.not_mem_nil
  findings _ h := absurd h List.not_mem_nil
  edgesUnique _ h := absurd h List.not_mem_nil
  stepsUnique _ h := absurd h List.not_mem_nil
  assetsUnique _ h := absurd h List.not_mem_nil
  owned _ h := absurd h List.not_mem_nil

/-! ### Changing one table -/

section Changes

variable {db : ProjectStore} (h : Integrity db)
include h

/-- Projects may change as long as none goes away. -/
theorem Integrity.withProjects {projects : Table WorkProjectRow WorkProjectRow.id}
    (hkeep : ∀ projectId, db.projects.get? projectId ≠ none → projects.get? projectId ≠ none) :
    Integrity { db with projects := projects } where
  edges edge hmem := ⟨(h.edges edge hmem).distinct, (h.edges edge hmem).source,
    (h.edges edge hmem).target⟩
  steps step hmem := ⟨(h.steps step hmem).path, (h.steps step hmem).edge⟩
  findings finding hmem := ⟨(h.findings finding hmem).asset, (h.findings finding hmem).edge⟩
  edgesUnique := h.edgesUnique
  stepsUnique := h.stepsUnique
  assetsUnique := h.assetsUnique
  owned asset hmem := hkeep _ (h.owned asset hmem)

/-- Assets may change as long as none goes away. -/
theorem Integrity.withAssets {assets : Table WorkProjectAsset WorkProjectAsset.id}
    (hkeep : ∀ projectId assetId, HasAsset db projectId assetId →
      HasAsset { db with assets := assets } projectId assetId)
    (hunique : assets.UniqueOn assetIdentity)
    (howned : ∀ asset ∈ assets.rows, db.projects.get? asset.projectId ≠ none) :
    Integrity { db with assets := assets } where
  edges edge hmem := ⟨(h.edges edge hmem).distinct, hkeep _ _ (h.edges edge hmem).source,
    hkeep _ _ (h.edges edge hmem).target⟩
  steps step hmem := ⟨(h.steps step hmem).path, (h.steps step hmem).edge⟩
  findings finding hmem := ⟨fun assetId heq => hkeep _ _ ((h.findings finding hmem).asset assetId heq),
    (h.findings finding hmem).edge⟩
  edgesUnique := h.edgesUnique
  stepsUnique := h.stepsUnique
  assetsUnique := hunique
  owned := howned

/-- Edges may change as long as each is sound and none goes away. -/
theorem Integrity.withEdges {edges : Table WorkProjectGraphEdge WorkProjectGraphEdge.id}
    (hsound : ∀ edge ∈ edges.rows, EdgeSound db edge)
    (hkeep : ∀ projectId edgeId, HasEdge db projectId edgeId →
      HasEdge { db with edges := edges } projectId edgeId)
    (hunique : edges.UniqueOn edgeRelation) : Integrity { db with edges := edges } where
  edges edge hmem := ⟨(hsound edge hmem).distinct, (hsound edge hmem).source,
    (hsound edge hmem).target⟩
  steps step hmem := ⟨(h.steps step hmem).path, hkeep _ _ (h.steps step hmem).edge⟩
  findings finding hmem := ⟨(h.findings finding hmem).asset,
    fun edgeId heq => hkeep _ _ ((h.findings finding hmem).edge edgeId heq)⟩
  edgesUnique := hunique
  stepsUnique := h.stepsUnique
  assetsUnique := h.assetsUnique
  owned := h.owned

/-- Paths may change as long as none goes away. -/
theorem Integrity.withPaths {paths : Table WorkProjectAttackPath WorkProjectAttackPath.id}
    (hkeep : ∀ projectId pathId, HasPath db projectId pathId →
      HasPath { db with paths := paths } projectId pathId) :
    Integrity { db with paths := paths } where
  edges edge hmem := ⟨(h.edges edge hmem).distinct, (h.edges edge hmem).source,
    (h.edges edge hmem).target⟩
  steps step hmem := ⟨hkeep _ _ (h.steps step hmem).path, (h.steps step hmem).edge⟩
  findings finding hmem := ⟨(h.findings finding hmem).asset, (h.findings finding hmem).edge⟩
  edgesUnique := h.edgesUnique
  stepsUnique := h.stepsUnique
  assetsUnique := h.assetsUnique
  owned := h.owned

/-- Steps may change as long as each is sound. -/
theorem Integrity.withSteps {steps : Table WorkProjectAttackPathStep WorkProjectAttackPathStep.id}
    (hsound : ∀ step ∈ steps.rows, StepSound db step) (hunique : steps.UniqueOn stepPlace) :
    Integrity { db with steps := steps } where
  edges edge hmem := ⟨(h.edges edge hmem).distinct, (h.edges edge hmem).source,
    (h.edges edge hmem).target⟩
  steps step hmem := ⟨(hsound step hmem).path, (hsound step hmem).edge⟩
  findings finding hmem := ⟨(h.findings finding hmem).asset, (h.findings finding hmem).edge⟩
  edgesUnique := h.edgesUnique
  stepsUnique := hunique
  assetsUnique := h.assetsUnique
  owned := h.owned

/-- Findings may change as long as each is sound. -/
theorem Integrity.withFindings {findings : Table WorkProjectFinding WorkProjectFinding.id}
    (hsound : ∀ finding ∈ findings.rows, FindingSound db finding) :
    Integrity { db with findings := findings } where
  edges edge hmem := ⟨(h.edges edge hmem).distinct, (h.edges edge hmem).source,
    (h.edges edge hmem).target⟩
  steps step hmem := ⟨(h.steps step hmem).path, (h.steps step hmem).edge⟩
  findings finding hmem := ⟨(hsound finding hmem).asset, (hsound finding hmem).edge⟩
  edgesUnique := h.edgesUnique
  stepsUnique := h.stepsUnique
  assetsUnique := h.assetsUnique
  owned := h.owned

/-- Changing assets that stay with their projects. -/
theorem Integrity.owned_updateWhere {p : WorkProjectAsset → Bool}
    {f : WorkProjectAsset → WorkProjectAsset} (hf : ∀ asset, (f asset).id = asset.id)
    (hkeep : ∀ asset, (f asset).projectId = asset.projectId) :
    ∀ asset ∈ (db.assets.updateWhere p f hf).rows, db.projects.get? asset.projectId ≠ none := by
  intro asset hmem
  obtain ⟨old, hold, rfl⟩ := updated_of_mem hf hmem
  split
  · rw [hkeep]
    exact h.owned old hold
  · exact h.owned old hold

end Changes

/-! ### What the checks establish -/

/-- A row found for the project is one of the project's. -/
theorem refers_of_ofProject {ρ : Type} {key : ρ → Nat} {t : Table ρ key} {projectOf : ρ → Nat}
    {projectId id : Nat} (h : ofProject t projectOf projectId id ≠ none) :
    t.Refers projectOf id projectId := by
  obtain ⟨r, hr⟩ := Option.ne_none_iff_exists'.mp h
  unfold ofProject at hr
  obtain ⟨hget, howner⟩ := Option.filter_eq_some_iff.mp hr
  exact ⟨r, hget, by simpa using howner⟩

/-- Validated endpoints are two assets of the project. -/
theorem edgeSound_of_validated {db : ProjectStore} {projectId : Nat} {request : EdgeRequest}
    (h : validateEdgeAssets db projectId request = "") :
    HasAsset db projectId request.sourceAssetId ∧ HasAsset db projectId request.targetAssetId := by
  unfold validateEdgeAssets at h
  split at h
  · simp at h
  · rename_i hsource
    split at h
    · simp at h
    · rename_i htarget
      exact ⟨refers_of_ofProject hsource, refers_of_ofProject htarget⟩

/-- Validated references of a step are a path and an edge of the project. -/
theorem stepSound_of_validated {db : ProjectStore} {projectId pathId : Nat}
    {request : StepRequest} (h : validateStepRefs db projectId pathId request = "") :
    HasPath db projectId pathId ∧ HasEdge db projectId request.edgeId := by
  unfold validateStepRefs at h
  split at h
  · simp at h
  · rename_i hpath
    split at h
    · simp at h
    · rename_i hedge
      exact ⟨refers_of_ofProject hpath, refers_of_ofProject hedge⟩

/-- Validated references of a finding are in the project. -/
theorem findingSound_of_validated {db : ProjectStore} {projectId : Nat}
    {request : FindingRequest} (h : validateRefs db projectId request = "") :
    (∀ assetId, request.assetId = some assetId → HasAsset db projectId assetId) ∧
      ∀ edgeId, request.edgeId = some edgeId → HasEdge db projectId edgeId := by
  unfold validateRefs at h
  split at h
  · simp at h
  · rename_i hasset
    split at h
    · simp at h
    · rename_i hedge
      refine ⟨fun assetId heq => refers_of_ofProject fun hnone => hasset ?_,
        fun edgeId heq => refers_of_ofProject fun hnone => hedge ?_⟩
      · rw [heq, Option.any_some, hnone]
        rfl
      · rw [heq, Option.any_some, hnone]
        rfl

/-- The edge with the relation, if there is one, is found. -/
theorem edgeByRelation_eq_none {db : ProjectStore} {projectId : Nat} {request : EdgeRequest}
    (h : edgeByRelation db projectId request = none) {edge : WorkProjectGraphEdge}
    (hmem : edge ∈ db.edges.rows) :
    edgeRelation edge ≠ (projectId, request.sourceAssetId, request.targetAssetId, request.type) := by
  have hno := List.find?_eq_none.mp h edge hmem
  intro heq
  simp only [edgeRelation, Prod.mk.injEq] at heq
  simp [heq] at hno

/-- Where the check for a duplicate passes, any edge with the relation is the
one to be changed. -/
theorem edge_id_of_no_duplicate {db : ProjectStore} {projectId edgeId : Nat}
    {request : EdgeRequest} (hunique : db.edges.UniqueOn edgeRelation)
    (h : ¬ (edgeByRelation db projectId request).any (fun edge => decide (edge.id ≠ edgeId)) = true)
    {edge : WorkProjectGraphEdge} (hmem : edge ∈ db.edges.rows)
    (hrelation : edgeRelation edge =
      (projectId, request.sourceAssetId, request.targetAssetId, request.type)) :
    edge.id = edgeId := by
  cases hfind : edgeByRelation db projectId request with
  | none => exact absurd hrelation (edgeByRelation_eq_none hfind hmem)
  | some found =>
      rw [hfind] at h
      have hfound := List.find?_some hfind
      simp only [Bool.and_eq_true, decide_eq_true_eq] at hfound
      obtain ⟨⟨⟨hproject, hsource⟩, htarget⟩, htype⟩ := hfound
      have hsame : edge = found := by
        refine hunique edge hmem found (List.mem_of_find?_eq_some hfind) ?_
        rw [hrelation]
        simp only [edgeRelation, hproject, hsource, htarget, htype]
      rw [hsame]
      simpa using h

/-! ### Edges -/

/-- Purging an edge takes it out of every record. -/
theorem Integrity.purgeEdge {db : ProjectStore} (h : Integrity db) (edgeId : Nat) :
    Integrity (purgeEdge db edgeId) := by
  have hkeep : ∀ projectId other, other ≠ edgeId → HasEdge db projectId other →
      HasEdge (WorkProject.purgeEdge db edgeId) projectId other := by
    intro projectId other hne hedge
    refine hedge.deleteWhere fun edge hid => ?_
    rw [decide_eq_false_iff_not, hid]
    exact hne
  refine ⟨?_, ?_, ?_, h.edgesUnique.deleteWhere, h.stepsUnique.deleteWhere, h.assetsUnique, h.owned⟩
  · intro edge hmem
    have hsound := h.edges edge (mem_deleteWhere.mp hmem).1
    exact ⟨hsound.distinct, hsound.source, hsound.target⟩
  · intro step hmem
    obtain ⟨hmem, hother⟩ := mem_deleteWhere.mp hmem
    have hsound := h.steps step hmem
    exact ⟨hsound.path, hkeep _ _ (of_decide_eq_false hother) hsound.edge⟩
  · intro finding hmem
    obtain ⟨old, hold, rfl⟩ := updated_of_mem (by intro _; rfl) hmem
    have hsound := h.findings old hold
    by_cases hrefers : old.edgeId = some edgeId
    · simp only [hrefers, decide_true, if_true]
      exact ⟨hsound.asset, fun other heq => by cases heq⟩
    · simp only [hrefers, decide_false, Bool.false_eq_true, if_false]
      refine ⟨hsound.asset, fun other heq => hkeep _ _ ?_ (hsound.edge other heq)⟩
      rintro rfl
      exact hrefers heq

theorem Integrity.upsertEdge {db : ProjectStore} (h : Integrity db) (projectId : Nat)
    (request : EdgeRequest) (author : Author) (now : Time) :
    Integrity (upsertWorkProjectGraphEdge db projectId request author now).store := by
  unfold upsertWorkProjectGraphEdge
  split
  · exact h
  · rename_i hvalid
    obtain ⟨hsource, htarget⟩ := edgeSound_of_validated (by simpa using hvalid)
    split
    · rename_i hnone
      refine h.withEdges ?_ (fun _ _ hedge => hedge.append (by intro _; rfl)) ?_
      · intro edge hmem
        rcases (mem_append (by intro _; rfl)).mp hmem with hold | rfl
        · exact h.edges edge hold
        · exact ⟨request.endpoints, hsource, htarget⟩
      · exact h.edgesUnique.append (fun edge hmem => edgeByRelation_eq_none hnone hmem)
    · refine h.withEdges ?_ (fun _ _ hedge => hedge.updateWhere (by intro _; rfl) (fun _ => rfl)) ?_
      · intro edge hmem
        obtain ⟨old, hold, rfl⟩ := updated_of_mem (by intro _; rfl) hmem
        have hsound := h.edges old hold
        split
        · exact ⟨hsound.distinct, hsound.source, hsound.target⟩
        · exact hsound
      · exact h.edgesUnique.updateWhere_of_keep (by intro _; rfl) (fun _ _ _ => rfl)

theorem Integrity.updateEdge {db : ProjectStore} (h : Integrity db) (projectId edgeId : Nat)
    (request : EdgeRequest) (now : Time) :
    Integrity (updateWorkProjectGraphEdge db projectId edgeId request now).store := by
  unfold updateWorkProjectGraphEdge
  split
  · exact h
  · rename_i edge hedge
    split
    · exact h
    · rename_i hvalid
      obtain ⟨hsource, htarget⟩ := edgeSound_of_validated (by simpa using hvalid)
      have hmine : HasEdge db projectId edgeId :=
        refers_of_ofProject (by rw [hedge]; exact Option.some_ne_none edge)
      have howner : ∀ row ∈ db.edges.rows, decide (row.id = edgeId) = true →
          row.projectId = projectId := by
        intro row hrow hid
        refine hmine.owner_eq ?_
        rw [← of_decide_eq_true hid]
        exact mem_rows_iff_get?.mp hrow
      split
      · exact h
      · rename_i hduplicate
        refine h.withEdges ?_ (fun _ _ hedge => hedge.updateWhere (by intro _; rfl) (fun _ => rfl)) ?_
        · intro edge hmem
          obtain ⟨old, hold, rfl⟩ := updated_of_mem (by intro _; rfl) hmem
          split
          · rename_i hid
            rw [← howner old hold hid] at hsource htarget
            exact ⟨request.endpoints, hsource, htarget⟩
          · exact h.edges old hold
        · refine h.edgesUnique.updateWhere (by intro _; rfl) ?_
          intro row hrow hid other hother hne hsame
          have hnot : other.id ≠ edgeId := by
            rw [← of_decide_eq_true hid]
            exact hne
          simp only [hnot, decide_false, Bool.false_eq_true, if_false] at hsame
          refine hnot (edge_id_of_no_duplicate h.edgesUnique hduplicate hother ?_)
          rw [← hsame, ← howner row hrow hid]
          rfl

theorem Integrity.deleteEdge {db : ProjectStore} (h : Integrity db) (projectId edgeId : Nat) :
    Integrity (deleteWorkProjectGraphEdge db projectId edgeId).store := by
  unfold deleteWorkProjectGraphEdge
  split
  · exact h
  · exact h.purgeEdge edgeId

/-! ### Paths and steps -/

theorem Integrity.createPath {db : ProjectStore} (h : Integrity db) (projectId : Nat)
    (request : AttackPathRequest) (author : Author) (now : Time) :
    Integrity (createWorkProjectAttackPath db projectId request author now).store := by
  unfold createWorkProjectAttackPath
  split
  · exact h
  · exact h.withPaths (fun _ _ hpath => hpath.append (by intro _; rfl))

theorem Integrity.updatePath {db : ProjectStore} (h : Integrity db) (projectId pathId : Nat)
    (request : AttackPathRequest) (now : Time) :
    Integrity (updateWorkProjectAttackPath db projectId pathId request now).store := by
  unfold updateWorkProjectAttackPath
  split
  · exact h
  · exact h.withPaths (fun _ _ hpath => hpath.updateWhere (by intro _; rfl) (fun _ => rfl))

/-- A deleted path takes its steps with it. -/
theorem Integrity.deletePath {db : ProjectStore} (h : Integrity db) (projectId pathId : Nat) :
    Integrity (deleteWorkProjectAttackPath db projectId pathId).store := by
  unfold deleteWorkProjectAttackPath
  split
  · exact h
  · refine ⟨?_, ?_, ?_, h.edgesUnique, h.stepsUnique.deleteWhere, h.assetsUnique, h.owned⟩
    · intro edge hmem
      have hsound := h.edges edge hmem
      exact ⟨hsound.distinct, hsound.source, hsound.target⟩
    · intro step hmem
      obtain ⟨hmem, hother⟩ := mem_deleteWhere.mp hmem
      have hsound := h.steps step hmem
      refine ⟨hsound.path.deleteWhere fun path hid => ?_, hsound.edge⟩
      rw [decide_eq_false_iff_not, hid]
      exact of_decide_eq_false hother
    · intro finding hmem
      have hsound := h.findings finding hmem
      exact ⟨hsound.asset, hsound.edge⟩

/-- The step at a place of a path of the project, if there is one, is found. -/
theorem stepBySequence_eq_none {db : ProjectStore} {projectId pathId sequence : Nat}
    (h : Integrity db) (hpath : HasPath db projectId pathId)
    (hnone : stepBySequence db projectId pathId sequence = none)
    {step : WorkProjectAttackPathStep} (hmem : step ∈ db.steps.rows) :
    stepPlace step ≠ (pathId, sequence) := by
  intro hplace
  obtain ⟨hpathId, hsequence⟩ := Prod.mk.inj hplace
  have hno := List.find?_eq_none.mp hnone step hmem
  -- a step on the path is one of the path's project
  have hproject : step.projectId = projectId := by
    obtain ⟨path, hget, howner⟩ := (h.steps step hmem).path
    rw [hpathId] at hget
    rw [← howner]
    exact hpath.owner_eq hget
  simp [hproject, hpathId, hsequence] at hno

/-- Where the check for a duplicate passes, any step at the place is the one
to be changed. -/
theorem step_id_of_no_duplicate {db : ProjectStore} {projectId pathId stepId sequence : Nat}
    (h : Integrity db) (hpath : HasPath db projectId pathId)
    (hno : ¬ (stepBySequence db projectId pathId sequence).any
      (fun step => decide (step.id ≠ stepId)) = true)
    {step : WorkProjectAttackPathStep} (hmem : step ∈ db.steps.rows)
    (hplace : stepPlace step = (pathId, sequence)) : step.id = stepId := by
  cases hfind : stepBySequence db projectId pathId sequence with
  | none => exact absurd hplace (stepBySequence_eq_none h hpath hfind hmem)
  | some found =>
      rw [hfind] at hno
      have hfound := List.find?_some hfind
      simp only [Bool.and_eq_true, decide_eq_true_eq] at hfound
      have hsame : step = found := by
        refine h.stepsUnique step hmem found (List.mem_of_find?_eq_some hfind) ?_
        rw [hplace]
        simp only [stepPlace, hfound.1.2, hfound.2]
      rw [hsame]
      simpa using hno

theorem Integrity.createStep {db : ProjectStore} (h : Integrity db) (projectId pathId : Nat)
    (request : StepRequest) (author : Author) (now : Time) :
    Integrity (createWorkProjectAttackPathStep db projectId pathId request author now).store := by
  unfold createWorkProjectAttackPathStep
  split
  · exact h
  · rename_i hvalid
    obtain ⟨hpath, hedge⟩ := stepSound_of_validated (by simpa using hvalid)
    split
    · exact h
    · rename_i hnone
      refine h.withSteps ?_ (h.stepsUnique.append fun step hmem => ?_)
      · intro step hmem
        rcases (mem_append (by intro _; rfl)).mp hmem with hold | rfl
        · exact h.steps step hold
        · exact ⟨hpath, hedge⟩
      · exact stepBySequence_eq_none h hpath (by simpa using hnone) hmem

theorem Integrity.updateStep {db : ProjectStore} (h : Integrity db)
    (projectId pathId stepId : Nat) (request : StepRequest) (now : Time) :
    Integrity (updateWorkProjectAttackPathStep db projectId pathId stepId request now).store := by
  unfold updateWorkProjectAttackPathStep
  split
  · exact h
  · rename_i found hfound
    obtain ⟨hget, howner⟩ := Option.filter_eq_some_iff.mp hfound
    simp only [Bool.and_eq_true, decide_eq_true_eq] at howner
    have hmine : ∀ row ∈ db.steps.rows, decide (row.id = stepId) = true → row = found := by
      intro row hrow hid
      have hrow' := mem_rows_iff_get?.mp hrow
      rw [of_decide_eq_true hid, hget] at hrow'
      exact (Option.some.inj hrow').symm
    split
    · exact h
    · rename_i hvalid
      obtain ⟨hpath, hedge⟩ := stepSound_of_validated (by simpa using hvalid)
      split
      · exact h
      · rename_i hduplicate
        refine h.withSteps ?_ (h.stepsUnique.updateWhere (by intro _; rfl) ?_)
        · intro step hmem
          obtain ⟨old, hold, rfl⟩ := updated_of_mem (by intro _; rfl) hmem
          split
          · rename_i hid
            obtain rfl := hmine old hold hid
            rw [← howner.1] at hpath hedge
            rw [← howner.2] at hpath
            exact ⟨hpath, hedge⟩
          · exact h.steps old hold
        · intro row hrow hid other hother hne hsame
          have hnot : other.id ≠ stepId := by
            rw [← of_decide_eq_true hid]
            exact hne
          simp only [hnot, decide_false, Bool.false_eq_true, if_false] at hsame
          refine hnot (step_id_of_no_duplicate h hpath hduplicate hother ?_)
          rw [← hsame]
          obtain rfl := hmine row hrow hid
          rw [← howner.2]
          rfl

theorem Integrity.deleteStep {db : ProjectStore} (h : Integrity db)
    (projectId pathId stepId : Nat) :
    Integrity (deleteWorkProjectAttackPathStep db projectId pathId stepId).store := by
  unfold deleteWorkProjectAttackPathStep
  split
  · exact h
  · exact h.withSteps (fun step hmem => h.steps step (mem_deleteWhere.mp hmem).1)
      h.stepsUnique.deleteWhere

/-! ### Findings -/

theorem Integrity.createFinding {db : ProjectStore} (h : Integrity db) (projectId : Nat)
    (request : FindingRequest) (author : Author) (now : Time) :
    Integrity (createWorkProjectFinding db projectId request author now).store := by
  unfold createWorkProjectFinding
  split
  · exact h
  · rename_i hvalid
    obtain ⟨hasset, hedge⟩ := findingSound_of_validated (by simpa using hvalid)
    split
    · exact h
    · refine h.withFindings fun finding hmem => ?_
      rcases (mem_append (by intro _; rfl)).mp hmem with hold | rfl
      · exact h.findings finding hold
      · exact ⟨hasset, hedge⟩

theorem Integrity.updateFinding {db : ProjectStore} (h : Integrity db)
    (projectId findingId : Nat) (request : FindingRequest) (now : Time) :
    Integrity (updateWorkProjectFinding db projectId findingId request now).store := by
  unfold updateWorkProjectFinding
  split
  · exact h
  · rename_i found hfound
    split
    · exact h
    · rename_i hvalid
      obtain ⟨hasset, hedge⟩ := findingSound_of_validated (by simpa using hvalid)
      refine h.withFindings fun finding hmem => ?_
      obtain ⟨old, hold, rfl⟩ := updated_of_mem (by intro _; rfl) hmem
      split
      · rename_i hid
        have howner : old.projectId = projectId := by
          refine (refers_of_ofProject (by rw [hfound]; exact Option.some_ne_none found)).owner_eq ?_
          rw [← of_decide_eq_true hid]
          exact mem_rows_iff_get?.mp hold
        rw [← howner] at hasset hedge
        exact ⟨hasset, hedge⟩
      · exact h.findings old hold

theorem Integrity.upsertCveFinding {db : ProjectStore} (h : Integrity db) (projectId : Nat)
    (request : FindingRequest) (author : Author) (now : Time) :
    Integrity (upsertCveWorkProjectFinding db projectId request author now).store := by
  unfold upsertCveWorkProjectFinding
  split
  · exact h
  · split
    · exact h.createFinding projectId request author now
    · exact h.updateFinding projectId _ _ now

theorem Integrity.deleteFinding {db : ProjectStore} (h : Integrity db)
    (projectId findingId : Nat) :
    Integrity (deleteWorkProjectFinding db projectId findingId).store := by
  unfold deleteWorkProjectFinding
  split
  · exact h
  · exact h.withFindings (fun finding hmem => h.findings finding (mem_deleteWhere.mp hmem).1)

/-! ### Assets -/

/-- The asset with the identity, if there is one, is found. -/
theorem assetByIdentity_eq_none {db : ProjectStore} {projectId : Nat}
    {identity : AssetType × String} (h : assetByIdentity db projectId identity = none)
    {asset : WorkProjectAsset} (hmem : asset ∈ db.assets.rows) :
    assetIdentity asset ≠ (projectId, identity) := by
  have hno := List.find?_eq_none.mp h asset hmem
  intro heq
  simp only [assetIdentity, Prod.mk.injEq] at heq
  simp [heq] at hno

/-- Where the check for a conflict passes, any asset with the identity is the
one to be changed. -/
theorem asset_id_of_no_conflict {db : ProjectStore} {projectId assetId : Nat}
    {identity : AssetType × String} (hunique : db.assets.UniqueOn assetIdentity)
    (hno : ¬ (assetByIdentity db projectId identity).any
      (fun conflict => decide (conflict.id ≠ assetId)) = true)
    {asset : WorkProjectAsset} (hmem : asset ∈ db.assets.rows)
    (hidentity : assetIdentity asset = (projectId, identity)) : asset.id = assetId := by
  cases hfind : assetByIdentity db projectId identity with
  | none => exact absurd hidentity (assetByIdentity_eq_none hfind hmem)
  | some found =>
      rw [hfind] at hno
      have hfound := List.find?_some hfind
      simp only [Bool.and_eq_true, decide_eq_true_eq] at hfound
      have hsame : asset = found := by
        refine hunique asset hmem found (List.mem_of_find?_eq_some hfind) ?_
        rw [hidentity]
        simp only [assetIdentity, hfound.1, hfound.2]
      rw [hsame]
      simpa using hno

theorem Integrity.createAsset {db : ProjectStore} (h : Integrity db) (projectId : Nat)
    (request : AssetRequest) (author : Author) (now : Time) :
    Integrity (createWorkProjectAsset db projectId request author now).store := by
  unfold createWorkProjectAsset
  split
  · exact h
  · rename_i hnone
    split
    · exact h
    · have hno : assetByIdentity db projectId request.identity = none := by simpa using hnone
      rename_i hproject
      refine h.withAssets (fun _ _ hasset => hasset.append (by intro _; rfl))
        (h.assetsUnique.append fun asset hmem => assetByIdentity_eq_none hno hmem) ?_
      intro asset hmem
      rcases (mem_append (by intro _; rfl)).mp hmem with hold | rfl
      · exact h.owned asset hold
      · exact hproject

theorem Integrity.updateAsset {db : ProjectStore} (h : Integrity db) (projectId assetId : Nat)
    (request : AssetRequest) (now : Time) :
    Integrity (updateWorkProjectAsset db projectId assetId request now).store := by
  unfold updateWorkProjectAsset
  split
  · exact h
  · rename_i found hfound
    split
    · exact h
    · split
      · exact h
      · rename_i hconflict
        have hmine : HasAsset db projectId assetId :=
          refers_of_ofProject (by rw [hfound]; exact Option.some_ne_none found)
        refine h.withAssets (fun _ _ hasset => hasset.updateWhere (by intro _; rfl) (fun _ => rfl))
          (h.assetsUnique.updateWhere (by intro _; rfl) ?_)
          (h.owned_updateWhere (by intro _; rfl) (fun _ => rfl))
        intro row hrow hid other hother hne hsame
        have hnot : other.id ≠ assetId := by
          rw [← of_decide_eq_true hid]
          exact hne
        have howner : row.projectId = projectId := by
          refine hmine.owner_eq ?_
          rw [← of_decide_eq_true hid]
          exact mem_rows_iff_get?.mp hrow
        simp only [hnot, decide_false, Bool.false_eq_true, if_false] at hsame
        refine hnot (asset_id_of_no_conflict h.assetsUnique hconflict hother ?_)
        rw [← hsame, ← howner]
        rfl

theorem Integrity.upsertAsset {db : ProjectStore} (h : Integrity db) (projectId : Nat)
    (request : AssetRequest) (author : Author) (now : Time) :
    Integrity (upsertWorkProjectAsset db projectId request author now).store := by
  unfold upsertWorkProjectAsset
  have hcreated := h.createAsset projectId request author now
  split
  · exact h.updateAsset projectId _ request now
  · simp only
    split
    · exact hcreated
    · split
      · exact hcreated
      · exact hcreated.updateAsset projectId _ request now

/-- Purging edges keeps the assets. -/
theorem purgeEdges_assets (edgeIds : List Nat) (db : ProjectStore) :
    (edgeIds.foldl purgeEdge db).assets = db.assets := by
  induction edgeIds generalizing db with
  | nil => rfl
  | cons edgeId rest ih => exact ih (purgeEdge db edgeId)

/-- Purging some edges leaves those that are not among them. -/
theorem purgeEdges_spec (edgeIds : List Nat) {db : ProjectStore} (h : Integrity db) :
    Integrity (edgeIds.foldl purgeEdge db) ∧
      (∀ edge ∈ (edgeIds.foldl purgeEdge db).edges.rows,
        edge ∈ db.edges.rows ∧ edge.id ∉ edgeIds) ∧
      ∀ finding ∈ (edgeIds.foldl purgeEdge db).findings.rows,
        ∃ old ∈ db.findings.rows, finding.assetId = old.assetId := by
  induction edgeIds generalizing db with
  | nil => exact ⟨h, fun edge hmem => ⟨hmem, List.not_mem_nil⟩, fun f hmem => ⟨f, hmem, rfl⟩⟩
  | cons edgeId rest ih =>
      obtain ⟨hintegrity, hedges, hfindings⟩ := ih (h.purgeEdge edgeId)
      refine ⟨hintegrity, ?_, ?_⟩
      · intro edge hmem
        obtain ⟨hold, hnot⟩ := hedges edge hmem
        obtain ⟨hold, hother⟩ := mem_deleteWhere.mp hold
        refine ⟨hold, fun hin => ?_⟩
        rcases List.mem_cons.mp hin with rfl | hin
        · simp at hother
        · exact hnot hin
      · intro finding hmem
        obtain ⟨old, hold, hasset⟩ := hfindings finding hmem
        obtain ⟨older, holder, rfl⟩ := updated_of_mem (by intro _; rfl) hold
        refine ⟨older, holder, hasset.trans ?_⟩
        split <;> rfl

/-- **Removing an asset** detaches its findings and takes its edges with it. -/
theorem Integrity.removeAsset {db : ProjectStore} (h : Integrity db) {projectId assetId : Nat}
    (howner : ∀ asset, db.assets.get? assetId = some asset → asset.projectId = projectId) :
    Integrity (removeAsset db projectId assetId) := by
  unfold WorkProject.removeAsset
  simp only
  have hdetached : Integrity { db with
      findings := db.findings.updateWhere (fun finding => decide (finding.assetId = some assetId))
        (fun finding => { finding with assetId := none }) (fun _ => rfl) } := by
    refine h.withFindings fun finding hmem => ?_
    obtain ⟨old, hold, rfl⟩ := updated_of_mem (by intro _; rfl) hmem
    have hsound := h.findings old hold
    split
    · exact ⟨fun _ heq => (by cases heq), hsound.edge⟩
    · exact hsound
  unfold purgeEdgesTouchingAsset
  simp only
  obtain ⟨hpurged, hedges, hfindings⟩ := purgeEdges_spec
    ((db.edges.rows.filter (fun edge => decide (edge.projectId = projectId) &&
      (decide (edge.sourceAssetId = assetId) || decide (edge.targetAssetId = assetId)))).map
      WorkProjectGraphEdge.id) hdetached
  generalize List.foldl WorkProject.purgeEdge _ _ = purged at hpurged hedges hfindings ⊢
  have hkeep : ∀ project other, other ≠ assetId → HasAsset purged project other →
      HasAsset { purged with
        assets := purged.assets.deleteWhere (fun asset => decide (asset.id = assetId)) }
        project other := by
    intro project other hne hasset
    refine hasset.deleteWhere fun asset hid => ?_
    rw [decide_eq_false_iff_not, hid]
    exact hne
  -- an edge at the asset is one of the asset's project, and was purged
  have huntouched : ∀ edge ∈ purged.edges.rows,
      edge.sourceAssetId ≠ assetId ∧ edge.targetAssetId ≠ assetId := by
    intro edge hmem
    obtain ⟨hold, hnot⟩ := hedges edge hmem
    have hsound := h.edges edge hold
    have hproject : HasAsset db edge.projectId assetId → edge.projectId = projectId := by
      rintro ⟨asset, hget, hof⟩
      exact hof.symm.trans (howner asset hget)
    constructor
    · intro hsource
      refine hnot (List.mem_map_of_mem (List.mem_filter.mpr ⟨hold, ?_⟩))
      simp [hproject (hsource ▸ hsound.source), hsource]
    · intro htarget
      refine hnot (List.mem_map_of_mem (List.mem_filter.mpr ⟨hold, ?_⟩))
      simp [hproject (htarget ▸ hsound.target), htarget]
  refine ⟨?_, ?_, ?_, hpurged.edgesUnique, hpurged.stepsUnique, hpurged.assetsUnique.deleteWhere,
    fun asset hmem => hpurged.owned asset (mem_deleteWhere.mp hmem).1⟩
  · intro edge hmem
    have hsound := hpurged.edges edge hmem
    obtain ⟨hsource, htarget⟩ := huntouched edge hmem
    exact ⟨hsound.distinct, hkeep _ _ hsource hsound.source, hkeep _ _ htarget hsound.target⟩
  · intro step hmem
    have hsound := hpurged.steps step hmem
    exact ⟨hsound.path, hsound.edge⟩
  · intro finding hmem
    have hsound := hpurged.findings finding hmem
    refine ⟨fun other heq => hkeep _ _ ?_ (hsound.asset other heq), hsound.edge⟩
    rintro rfl
    obtain ⟨old, hold, hasset⟩ := hfindings finding hmem
    obtain ⟨older, -, rfl⟩ := updated_of_mem (by intro _; rfl) hold
    rw [hasset] at heq
    split at heq
    · cases heq
    · rename_i hother
      exact hother (decide_eq_true heq)

theorem Integrity.deleteAsset {db : ProjectStore} (h : Integrity db) (projectId assetId : Nat) :
    Integrity (deleteWorkProjectAsset db projectId assetId).store := by
  unfold deleteWorkProjectAsset
  split
  · exact h
  · rename_i found hfound
    split
    · exact h
    · refine h.removeAsset fun asset hget => ?_
      have hmine : HasAsset db projectId assetId :=
        refers_of_ofProject (by rw [hfound]; exact Option.some_ne_none found)
      exact hmine.owner_eq hget

theorem removeAsset_assets (db : ProjectStore) (projectId assetId : Nat) :
    (removeAsset db projectId assetId).assets =
      db.assets.deleteWhere (fun asset => decide (asset.id = assetId)) := by
  unfold removeAsset purgeEdgesTouchingAsset
  simp only
  rw [purgeEdges_assets]

end Workbench.WorkProject
