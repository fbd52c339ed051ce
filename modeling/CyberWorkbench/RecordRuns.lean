import CyberWorkbench.GraphIntegrity

/-!
# Runs of record operations

Project metadata declares assets: creating a project adds them, updating it
matches them against the assets there and removes those of the scope that are
gone.  With that every operation keeps the references, and so does every run
from the empty store; an operation that ends in an error leaves the store as
it was.
-/

namespace Workbench.WorkProject

open KeyedTable Table

/-! ### Project metadata -/

/-- A scope asset may be added under an identity the project does not have. -/
theorem Integrity.addScopeAsset {db : ProjectStore} (h : Integrity db) {projectId : Nat}
    {request : AssetRequest} (now : Time) (hproject : db.projects.get? projectId ≠ none)
    (hnew : ∀ asset ∈ db.assets.rows, assetIdentity asset ≠ (projectId, request.identity)) :
    Integrity { db with
      assets := db.assets.append (scopeAsset projectId request now) (fun _ => rfl) } := by
  refine h.withAssets (fun _ _ hasset => hasset.append (by intro _; rfl)) (h.assetsUnique.append hnew) ?_
  intro asset hmem
  rcases (mem_append (by intro _; rfl)).mp hmem with hold | rfl
  · exact h.owned asset hold
  · exact hproject

/-- A new project's assets, each added once. -/
theorem Integrity.setProjectAssetRows {projectId : Nat} (now : Time)
    (requests : List AssetRequest) {db : ProjectStore} (h : Integrity db)
    {seen : List (AssetType × String)} (hproject : db.projects.get? projectId ≠ none)
    (hseen : ∀ asset ∈ db.assets.rows, asset.projectId = projectId → asset.identity ∈ seen) :
    Integrity (setProjectAssetRows db projectId now seen requests) := by
  induction requests generalizing db seen with
  | nil => exact h
  | cons request rest ih =>
      unfold WorkProject.setProjectAssetRows
      split
      · exact ih h hproject hseen
      · rename_i hnew
        refine ih (h.addScopeAsset now hproject ?_) hproject ?_
        · intro asset hmem heq
          obtain ⟨howner, hidentity⟩ := Prod.mk.inj heq
          exact hnew (hidentity ▸ hseen asset hmem howner)
        · intro asset hmem howner
          rcases (mem_append (by intro _; rfl)).mp hmem with hold | rfl
          · exact List.mem_cons_of_mem _ (hseen asset hold howner)
          · exact List.mem_cons_self

/-- While metadata is declared: the assets the project had are still there,
and the others were declared. -/
structure Declaring (rows : List WorkProjectAsset) (projectId : Nat) (db : ProjectStore)
    (seen : List (AssetType × String)) : Prop where
  integrity : Integrity db
  project : db.projects.get? projectId ≠ none
  kept : ∀ asset ∈ rows, ∃ row, db.assets.get? asset.id = some row ∧
    assetIdentity row = (projectId, asset.identity)
  known : ∀ asset ∈ db.assets.rows, asset.projectId = projectId →
    asset.identity ∈ seen ∨ ∃ old ∈ rows, old.identity = asset.identity

/-- An asset declared for the first time. -/
theorem Declaring.declareNew {rows : List WorkProjectAsset} {projectId : Nat} {db : ProjectStore}
    {seen : List (AssetType × String)} (h : Declaring rows projectId db seen)
    {request : AssetRequest} (now : Time) (hunseen : request.identity ∉ seen)
    (hno : ∀ old ∈ rows, old.identity ≠ request.identity) :
    Declaring rows projectId
      { db with assets := db.assets.append (scopeAsset projectId request now) (fun _ => rfl) }
      (request.identity :: seen) where
  integrity := by
    refine h.integrity.addScopeAsset now h.project fun asset hmem heq => ?_
    obtain ⟨howner, hidentity⟩ := Prod.mk.inj heq
    rcases h.known asset hmem howner with hseen | ⟨old, hold, hsame⟩
    · exact hunseen (hidentity ▸ hseen)
    · exact hno old hold (hsame.trans hidentity)
  project := h.project
  kept asset hmem := by
    obtain ⟨row, hget, hidentity⟩ := h.kept asset hmem
    exact ⟨row, get?_append hget (by intro _; rfl), hidentity⟩
  known asset hmem howner := by
    rcases (mem_append (by intro _; rfl)).mp hmem with hold | rfl
    · exact (h.known asset hold howner).imp_left (List.mem_cons_of_mem _)
    · exact .inl List.mem_cons_self

/-- An asset the project has is declared: it changes under its identity. -/
theorem Declaring.declareAgain {rows : List WorkProjectAsset} {projectId : Nat}
    {db : ProjectStore} {seen : List (AssetType × String)} (h : Declaring rows projectId db seen)
    {request : AssetRequest} {asset : WorkProjectAsset} (hasset : asset ∈ rows)
    (hidentity : asset.identity = request.identity)
    {f : WorkProjectAsset → WorkProjectAsset} (hid : ∀ row, (f row).id = row.id)
    (howner : ∀ row, (f row).projectId = row.projectId)
    (hchanged : ∀ row, (f row).identity = request.identity) :
    Declaring rows projectId
      { db with assets := db.assets.updateWhere (fun row => decide (row.id = asset.id)) f hid }
      (request.identity :: seen) := by
  obtain ⟨row, hget, hrow⟩ := h.kept asset hasset
  have hkeep : ∀ old ∈ db.assets.rows, decide (old.id = asset.id) = true →
      assetIdentity (f old) = assetIdentity old := by
    intro old hold hsame
    have hold' := mem_rows_iff_get?.mp hold
    rw [of_decide_eq_true hsame, hget] at hold'
    obtain rfl := Option.some.inj hold'
    have hprojects := (Prod.mk.inj hrow).1
    rw [hrow, hidentity]
    unfold assetIdentity
    rw [howner, hprojects, hchanged]
  refine ⟨?_, h.project, ?_, ?_⟩
  · exact h.integrity.withAssets (fun _ _ hhas => hhas.updateWhere hid howner)
      (h.integrity.assetsUnique.updateWhere_of_keep hid hkeep)
      (h.integrity.owned_updateWhere hid howner)
  · intro other hother
    obtain ⟨row', hget', hrow'⟩ := h.kept other hother
    refine ⟨if decide (row'.id = asset.id) = true then f row' else row', ?_, ?_⟩
    · rw [get?_updateWhere, hget']
      rfl
    · split
      · rename_i hsame
        rw [hkeep row' (get?_eq_some hget').1 hsame]
        exact hrow'
      · exact hrow'
  · intro changed hmem hof
    obtain ⟨old, hold, rfl⟩ := updated_of_mem hid hmem
    by_cases hsame : decide (old.id = asset.id) = true
    · rw [if_pos hsame, hchanged]
      exact .inl List.mem_cons_self
    · rw [if_neg hsame] at hof ⊢
      exact (h.known old hold hof).imp_left (List.mem_cons_of_mem _)

theorem Declaring.declareAssets {rows : List WorkProjectAsset} {projectId : Nat} (now : Time)
    (requests : List AssetRequest) {db : ProjectStore} {seen : List (AssetType × String)}
    (h : Declaring rows projectId db seen) :
    Declaring rows projectId (declareAssets rows projectId now db seen requests).1
      (declareAssets rows projectId now db seen requests).2 := by
  induction requests generalizing db seen with
  | nil => exact h
  | cons request rest ih =>
      unfold WorkProject.declareAssets
      split
      · exact ih h
      · rename_i hunseen
        simp only
        refine ih ?_
        split
        · rename_i hnone
          refine h.declareNew now hunseen fun old hold hsame => ?_
          have hempty := List.getLast?_eq_none_iff.mp hnone
          have hin : old ∈ rows.filter (fun asset => decide (asset.identity = request.identity)) :=
            List.mem_filter.mpr ⟨hold, by simpa using hsame⟩
          rw [hempty] at hin
          cases hin
        · rename_i asset hlast
          obtain ⟨hmem, hsame⟩ := List.mem_filter.mp (List.mem_of_getLast? hlast)
          exact h.declareAgain hmem (by simpa using hsame) (by intro _; rfl) (fun _ => rfl)
            (fun _ => rfl)

/-- Assets no longer declared are removed one by one. -/
theorem Integrity.dropUndeclared {projectId : Nat} (seen : List (AssetType × String))
    (rows : List WorkProjectAsset) {db : ProjectStore} (h : Integrity db)
    (hmine : ∀ asset ∈ rows, ∀ row, db.assets.get? asset.id = some row →
      row.projectId = projectId) :
    Integrity (dropUndeclared projectId seen db rows) := by
  induction rows generalizing db with
  | nil => exact h
  | cons asset rest ih =>
      have hrest := fun other hmem => hmine other (List.mem_cons_of_mem _ hmem)
      unfold WorkProject.dropUndeclared
      split
      · exact ih h hrest
      · refine ih (h.removeAsset (hmine asset List.mem_cons_self)) fun other hmem row hget => ?_
        rw [removeAsset_assets] at hget
        obtain ⟨hrow, hkey⟩ := get?_eq_some hget
        refine hrest other hmem row ?_
        rw [← hkey]
        exact mem_rows_iff_get?.mp (mem_deleteWhere.mp hrow).1

theorem Integrity.upsertProjectAssets {db : ProjectStore} (h : Integrity db) {projectId : Nat}
    (hproject : db.projects.get? projectId ≠ none) (requests : List AssetRequest) (now : Time) :
    Integrity (upsertProjectAssets db projectId requests now) := by
  unfold WorkProject.upsertProjectAssets
  simp only
  have hstart : Declaring (db.assets.rows.filter (fun asset => decide (asset.projectId = projectId)))
      projectId db [] := by
    refine ⟨h, hproject, fun asset hmem => ?_, fun asset hmem howner => .inr ⟨asset, ?_, rfl⟩⟩
    · obtain ⟨hmem, howner⟩ := List.mem_filter.mp hmem
      refine ⟨asset, mem_rows_iff_get?.mp hmem, ?_⟩
      rw [← of_decide_eq_true howner]
      rfl
    · exact List.mem_filter.mpr ⟨hmem, decide_eq_true howner⟩
  have hdeclared := hstart.declareAssets now requests
  refine hdeclared.integrity.dropUndeclared _ _ fun asset hmem row hget => ?_
  obtain ⟨row', hget', hidentity⟩ := hdeclared.kept asset hmem
  obtain rfl := Option.some.inj (hget'.symm.trans hget)
  exact (Prod.mk.inj hidentity).1

theorem Integrity.createProject {db : ProjectStore} (h : Integrity db) (request : MetadataRequest)
    (bindingError : String) (now : Time) :
    Integrity (createWorkProject db request bindingError now).store := by
  unfold createWorkProject
  split
  · exact h
  · refine Integrity.setProjectAssetRows now request.assets (h.withProjects ?_) ?_ ?_
    · intro projectId hsome
      obtain ⟨project, hget⟩ := Option.ne_none_iff_exists'.mp hsome
      rw [get?_append hget (by intro _; rfl)]
      exact Option.some_ne_none project
    · rw [mem_rows_iff_get?.mp ((mem_append (by intro _; rfl)).mpr (.inr rfl))]
      exact Option.some_ne_none _
    · -- no asset is one of a project yet to come
      intro asset hmem howner
      obtain ⟨project, hget⟩ := Option.ne_none_iff_exists'.mp (h.owned asset hmem)
      obtain ⟨hproject, hkey⟩ := get?_eq_some hget
      have hlt := le_nextKey hproject
      omega

theorem Integrity.updateMetadata {db : ProjectStore} (h : Integrity db) (projectId : Nat)
    (request : MetadataRequest) (bindingError : String) (now : Time) :
    Integrity (updateWorkProjectMetadata db projectId request bindingError now).store := by
  unfold updateWorkProjectMetadata
  split
  · exact h
  · rename_i hproject
    split
    · exact h
    · have hkeep : ∀ {p : WorkProjectRow → Bool} {f : WorkProjectRow → WorkProjectRow}
          (hf : ∀ row, (f row).id = row.id) (id : Nat), db.projects.get? id ≠ none →
          (db.projects.updateWhere p f hf).get? id ≠ none := by
        intro p f hf id hsome
        rw [get?_updateWhere]
        exact fun hnone => hsome (Option.map_eq_none_iff.mp hnone)
      exact (h.withProjects (hkeep (by intro _; rfl))).upsertProjectAssets
        (hkeep (by intro _; rfl) _ hproject) _ now

/-! ### Every operation -/

/-- **One operation keeps the references.** -/
theorem Integrity.perform {db : ProjectStore} (h : Integrity db) (now : Time)
    (operation : RecordOperation) : Integrity (operation.perform db now).store := by
  cases operation with
  | createProject request bindingError => exact h.createProject request bindingError now
  | updateMetadata projectId request bindingError =>
      exact h.updateMetadata projectId request bindingError now
  | createAsset projectId request author => exact h.createAsset projectId request author now
  | updateAsset projectId assetId request => exact h.updateAsset projectId assetId request now
  | upsertAsset projectId request author => exact h.upsertAsset projectId request author now
  | deleteAsset projectId assetId => exact h.deleteAsset projectId assetId
  | upsertEdge projectId request author => exact h.upsertEdge projectId request author now
  | updateEdge projectId edgeId request => exact h.updateEdge projectId edgeId request now
  | deleteEdge projectId edgeId => exact h.deleteEdge projectId edgeId
  | createPath projectId request author => exact h.createPath projectId request author now
  | updatePath projectId pathId request => exact h.updatePath projectId pathId request now
  | deletePath projectId pathId => exact h.deletePath projectId pathId
  | createStep projectId pathId request author =>
      exact h.createStep projectId pathId request author now
  | updateStep projectId pathId stepId request =>
      exact h.updateStep projectId pathId stepId request now
  | deleteStep projectId pathId stepId => exact h.deleteStep projectId pathId stepId
  | createFinding projectId request author => exact h.createFinding projectId request author now
  | updateFinding projectId findingId request =>
      exact h.updateFinding projectId findingId request now
  | upsertCveFinding projectId request author =>
      exact h.upsertCveFinding projectId request author now
  | deleteFinding projectId findingId => exact h.deleteFinding projectId findingId

/-- An operation that ended in an error changed nothing. -/
def Outcome.AllOrNothing (db : ProjectStore) (outcome : Outcome) : Prop :=
  outcome.error ≠ "" → outcome.store = db

theorem rejected_allOrNothing (db : ProjectStore) (error : String) :
    (db.rejected error).AllOrNothing db := fun _ => rfl

theorem committed_allOrNothing (db changed : ProjectStore) :
    changed.committed.AllOrNothing db := fun h => absurd rfl h

theorem createAsset_allOrNothing (db : ProjectStore) (projectId : Nat) (request : AssetRequest)
    (author : Author) (now : Time) :
    (createWorkProjectAsset db projectId request author now).AllOrNothing db := by
  unfold createWorkProjectAsset
  split
  · exact rejected_allOrNothing db _
  · split
    · exact rejected_allOrNothing db _
    · exact committed_allOrNothing db _

theorem updateAsset_allOrNothing (db : ProjectStore) (projectId assetId : Nat)
    (request : AssetRequest) (now : Time) :
    (updateWorkProjectAsset db projectId assetId request now).AllOrNothing db := by
  unfold updateWorkProjectAsset
  split
  · exact rejected_allOrNothing db _
  · split
    · exact rejected_allOrNothing db _
    · split
      · exact rejected_allOrNothing db _
      · exact committed_allOrNothing db _

theorem upsertAsset_allOrNothing (db : ProjectStore) (projectId : Nat) (request : AssetRequest)
    (author : Author) (now : Time) :
    (upsertWorkProjectAsset db projectId request author now).AllOrNothing db := by
  unfold upsertWorkProjectAsset
  split
  · exact updateAsset_allOrNothing db _ _ _ _
  · have hcreated := createAsset_allOrNothing db projectId request author now
    simp only
    split
    · exact hcreated
    · rename_i hexists
      -- the asset is there already: the first attempt changed nothing
      have hsame : (createWorkProjectAsset db projectId request author now).store = db := by
        refine hcreated ?_
        rw [Decidable.not_not.mp hexists]
        decide
      rw [hsame]
      split
      · exact rejected_allOrNothing db _
      · exact updateAsset_allOrNothing db _ _ _ _

theorem createFinding_allOrNothing (db : ProjectStore) (projectId : Nat)
    (request : FindingRequest) (author : Author) (now : Time) :
    (createWorkProjectFinding db projectId request author now).AllOrNothing db := by
  unfold createWorkProjectFinding
  split
  · exact rejected_allOrNothing db _
  · split
    · exact rejected_allOrNothing db _
    · exact committed_allOrNothing db _

theorem updateFinding_allOrNothing (db : ProjectStore) (projectId findingId : Nat)
    (request : FindingRequest) (now : Time) :
    (updateWorkProjectFinding db projectId findingId request now).AllOrNothing db := by
  unfold updateWorkProjectFinding
  split
  · exact rejected_allOrNothing db _
  · split
    · exact rejected_allOrNothing db _
    · exact committed_allOrNothing db _

/-- **A rejected operation changes nothing.** -/
theorem perform_allOrNothing (db : ProjectStore) (now : Time) (operation : RecordOperation) :
    (operation.perform db now).AllOrNothing db := by
  cases operation with
  | createProject request bindingError =>
      rw [RecordOperation.perform]
      unfold createWorkProject
      split
      · exact rejected_allOrNothing db _
      · exact committed_allOrNothing db _
  | updateMetadata projectId request bindingError =>
      rw [RecordOperation.perform]
      unfold updateWorkProjectMetadata
      split
      · exact rejected_allOrNothing db _
      · split
        · exact rejected_allOrNothing db _
        · exact committed_allOrNothing db _
  | createAsset projectId request author =>
      exact createAsset_allOrNothing db projectId request author now
  | updateAsset projectId assetId request =>
      exact updateAsset_allOrNothing db projectId assetId request now
  | upsertAsset projectId request author =>
      exact upsertAsset_allOrNothing db projectId request author now
  | deleteAsset projectId assetId =>
      rw [RecordOperation.perform]
      unfold deleteWorkProjectAsset
      split
      · exact rejected_allOrNothing db _
      · split
        · exact rejected_allOrNothing db _
        · exact committed_allOrNothing db _
  | upsertEdge projectId request author =>
      rw [RecordOperation.perform]
      unfold upsertWorkProjectGraphEdge
      split
      · exact rejected_allOrNothing db _
      · split
        · exact committed_allOrNothing db _
        · exact committed_allOrNothing db _
  | updateEdge projectId edgeId request =>
      rw [RecordOperation.perform]
      unfold updateWorkProjectGraphEdge
      split
      · exact rejected_allOrNothing db _
      · split
        · exact rejected_allOrNothing db _
        · split
          · exact rejected_allOrNothing db _
          · exact committed_allOrNothing db _
  | deleteEdge projectId edgeId =>
      rw [RecordOperation.perform]
      unfold deleteWorkProjectGraphEdge
      split
      · exact rejected_allOrNothing db _
      · exact committed_allOrNothing db _
  | createPath projectId request author =>
      rw [RecordOperation.perform]
      unfold createWorkProjectAttackPath
      split
      · exact rejected_allOrNothing db _
      · exact committed_allOrNothing db _
  | updatePath projectId pathId request =>
      rw [RecordOperation.perform]
      unfold updateWorkProjectAttackPath
      split
      · exact rejected_allOrNothing db _
      · exact committed_allOrNothing db _
  | deletePath projectId pathId =>
      rw [RecordOperation.perform]
      unfold deleteWorkProjectAttackPath
      split
      · exact rejected_allOrNothing db _
      · exact committed_allOrNothing db _
  | createStep projectId pathId request author =>
      rw [RecordOperation.perform]
      unfold createWorkProjectAttackPathStep
      split
      · exact rejected_allOrNothing db _
      · split
        · exact rejected_allOrNothing db _
        · exact committed_allOrNothing db _
  | updateStep projectId pathId stepId request =>
      rw [RecordOperation.perform]
      unfold updateWorkProjectAttackPathStep
      split
      · exact rejected_allOrNothing db _
      · split
        · exact rejected_allOrNothing db _
        · split
          · exact rejected_allOrNothing db _
          · exact committed_allOrNothing db _
  | deleteStep projectId pathId stepId =>
      rw [RecordOperation.perform]
      unfold deleteWorkProjectAttackPathStep
      split
      · exact rejected_allOrNothing db _
      · exact committed_allOrNothing db _
  | createFinding projectId request author =>
      exact createFinding_allOrNothing db projectId request author now
  | updateFinding projectId findingId request =>
      exact updateFinding_allOrNothing db projectId findingId request now
  | upsertCveFinding projectId request author =>
      rw [RecordOperation.perform]
      unfold upsertCveWorkProjectFinding
      split
      · exact rejected_allOrNothing db _
      · split
        · exact createFinding_allOrNothing db projectId request author now
        · exact updateFinding_allOrNothing db projectId _ _ now
  | deleteFinding projectId findingId =>
      rw [RecordOperation.perform]
      unfold deleteWorkProjectFinding
      split
      · exact rejected_allOrNothing db _
      · exact committed_allOrNothing db _

/-! ### Runs -/

/-- Operations one after another, each at its moment. -/
def performAll (db : ProjectStore) : List (RecordOperation × Time) → ProjectStore
  | [] => db
  | (operation, now) :: rest => performAll (operation.perform db now).store rest

theorem Integrity.performAll (operations : List (RecordOperation × Time)) {db : ProjectStore}
    (h : Integrity db) : Integrity (performAll db operations) := by
  induction operations generalizing db with
  | nil => exact h
  | cons operation rest ih => exact ih (h.perform operation.2 operation.1)

/-- **The attack graph keeps its references** in every run from the empty
store, and an operation that is rejected there changes nothing. -/
theorem records_keep_references (operations : List (RecordOperation × Time)) :
    Integrity (performAll .empty operations) ∧
      ∀ (operation : RecordOperation) (now : Time),
        (operation.perform (performAll .empty operations) now).error ≠ "" →
          (operation.perform (performAll .empty operations) now).store =
            performAll .empty operations :=
  ⟨Integrity.empty.performAll operations,
    fun operation now => perform_allOrNothing _ now operation⟩

end Workbench.WorkProject
