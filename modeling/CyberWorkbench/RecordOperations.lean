import CyberWorkbench.ProjectRecords

/-!
# The operations on project records

`service/work_project/graph`, `assets`, `findings` and the record part of
`projects`: every function checks its arguments against the store, then writes
and commits in one transaction.  The database checks that a row's project
exists; the other constraints it declares are never violated here, since each
function looks before it writes.
-/

namespace Workbench.WorkProject

open KeyedTable PythonValues

/-- `session.get(Model, id)`, if the row is one of the project's. -/
def ofProject {ρ : Type} {key : ρ → Nat} (t : Table ρ key) (projectOf : ρ → Nat)
    (projectId id : Nat) : Option ρ :=
  (t.get? id).filter (fun r => decide (projectOf r = projectId))

/-! ### Graph edges -/

/-- `_purge_edge` -/
def purgeEdge (db : ProjectStore) (edgeId : Nat) : ProjectStore :=
  { db with
    steps := db.steps.deleteWhere (fun step => decide (step.edgeId = edgeId))
    findings := db.findings.updateWhere (fun finding => decide (finding.edgeId = some edgeId))
      (fun finding => { finding with edgeId := none }) (fun _ => rfl)
    edges := db.edges.deleteWhere (fun edge => decide (edge.id = edgeId)) }

/-- `purge_edges_touching_asset` -/
def purgeEdgesTouchingAsset (db : ProjectStore) (projectId assetId : Nat) : ProjectStore :=
  let edgeIds := (db.edges.rows.filter (fun edge =>
    decide (edge.projectId = projectId) &&
      (decide (edge.sourceAssetId = assetId) || decide (edge.targetAssetId = assetId)))).map
    WorkProjectGraphEdge.id
  edgeIds.foldl purgeEdge db

/-- `_get_edge_by_relation` -/
def edgeByRelation (db : ProjectStore) (projectId : Nat) (request : EdgeRequest) :
    Option WorkProjectGraphEdge :=
  db.edges.rows.find? (fun edge =>
    decide (edge.projectId = projectId) && decide (edge.sourceAssetId = request.sourceAssetId) &&
      decide (edge.targetAssetId = request.targetAssetId) && decide (edge.type = request.type))

/-- `_validate_edge_assets` -/
def validateEdgeAssets (db : ProjectStore) (projectId : Nat) (request : EdgeRequest) : String :=
  if ofProject db.assets WorkProjectAsset.projectId projectId request.sourceAssetId = none then
    "source asset not found"
  else if ofProject db.assets WorkProjectAsset.projectId projectId request.targetAssetId = none then
    "target asset not found"
  else ""

/-- `upsert_work_project_graph_edge` -/
def upsertWorkProjectGraphEdge (db : ProjectStore) (projectId : Nat) (request : EdgeRequest)
    (author : Author) (now : Time) : Outcome :=
  if validateEdgeAssets db projectId request ≠ "" then
    db.rejected (validateEdgeAssets db projectId request)
  else
    match edgeByRelation db projectId request with
    | none =>
        { db with
          edges := db.edges.append (fun id => {
            id, projectId, sourceAssetId := request.sourceAssetId
            targetAssetId := request.targetAssetId, type := request.type, label := request.label
            createdByAgentCode := strip author.agentCode
            createdFromSessionId := strip author.sessionId
            createdAt := now, updatedAt := now }) (fun _ => rfl) }.committed
    | some edge =>
        { db with
          edges := db.edges.updateWhere (fun row => decide (row.id = edge.id))
            (fun row => { row with label := request.label, updatedAt := now })
            (fun _ => rfl) }.committed

/-- `update_work_project_graph_edge` -/
def updateWorkProjectGraphEdge (db : ProjectStore) (projectId edgeId : Nat)
    (request : EdgeRequest) (now : Time) : Outcome :=
  match ofProject db.edges WorkProjectGraphEdge.projectId projectId edgeId with
  | none => db.rejected "graph edge not found"
  | some _ =>
      if validateEdgeAssets db projectId request ≠ "" then
        db.rejected (validateEdgeAssets db projectId request)
      else if (edgeByRelation db projectId request).any (fun edge => decide (edge.id ≠ edgeId)) then
        db.rejected "graph edge already exists"
      else
        { db with
          edges := db.edges.updateWhere (fun row => decide (row.id = edgeId))
            (fun row => { row with
              sourceAssetId := request.sourceAssetId, targetAssetId := request.targetAssetId
              type := request.type, label := request.label, updatedAt := now })
            (fun _ => rfl) }.committed

/-- `delete_work_project_graph_edge` -/
def deleteWorkProjectGraphEdge (db : ProjectStore) (projectId edgeId : Nat) : Outcome :=
  match ofProject db.edges WorkProjectGraphEdge.projectId projectId edgeId with
  | none => db.rejected "graph edge not found"
  | some _ => (purgeEdge db edgeId).committed

/-! ### Attack paths -/

/-- `create_work_project_attack_path` -/
def createWorkProjectAttackPath (db : ProjectStore) (projectId : Nat)
    (request : AttackPathRequest) (author : Author) (now : Time) : Outcome :=
  if db.projects.get? projectId = none then db.rejected "FOREIGN KEY constraint failed"
  else
    { db with
      paths := db.paths.append (fun id => {
        id, projectId, title := request.title, status := request.status
        summary := request.summary, createdByAgentCode := strip author.agentCode
        createdFromSessionId := strip author.sessionId
        createdAt := now, updatedAt := now }) (fun _ => rfl) }.committed

/-- `update_work_project_attack_path` -/
def updateWorkProjectAttackPath (db : ProjectStore) (projectId pathId : Nat)
    (request : AttackPathRequest) (now : Time) : Outcome :=
  match ofProject db.paths WorkProjectAttackPath.projectId projectId pathId with
  | none => db.rejected "attack path not found"
  | some _ =>
      { db with
        paths := db.paths.updateWhere (fun row => decide (row.id = pathId))
          (fun row => { row with
            title := request.title, status := request.status, summary := request.summary
            updatedAt := now })
          (fun _ => rfl) }.committed

/-- `delete_work_project_attack_path` -/
def deleteWorkProjectAttackPath (db : ProjectStore) (projectId pathId : Nat) : Outcome :=
  match ofProject db.paths WorkProjectAttackPath.projectId projectId pathId with
  | none => db.rejected "attack path not found"
  | some _ =>
      { db with
        steps := db.steps.deleteWhere (fun step => decide (step.pathId = pathId))
        paths := db.paths.deleteWhere (fun row => decide (row.id = pathId)) }.committed

/-! ### Path steps -/

/-- `_get_step_by_sequence` -/
def stepBySequence (db : ProjectStore) (projectId pathId sequence : Nat) :
    Option WorkProjectAttackPathStep :=
  db.steps.rows.find? (fun step =>
    decide (step.projectId = projectId) && decide (step.pathId = pathId) &&
      decide (step.sequence = sequence))

/-- `_validate_step_refs` -/
def validateStepRefs (db : ProjectStore) (projectId pathId : Nat) (request : StepRequest) :
    String :=
  if ofProject db.paths WorkProjectAttackPath.projectId projectId pathId = none then
    "attack path not found"
  else if ofProject db.edges WorkProjectGraphEdge.projectId projectId request.edgeId = none then
    "graph edge not found"
  else ""

/-- `create_work_project_attack_path_step` -/
def createWorkProjectAttackPathStep (db : ProjectStore) (projectId pathId : Nat)
    (request : StepRequest) (author : Author) (now : Time) : Outcome :=
  if validateStepRefs db projectId pathId request ≠ "" then
    db.rejected (validateStepRefs db projectId pathId request)
  else if (stepBySequence db projectId pathId request.sequence).isSome then
    db.rejected "attack path step already exists"
  else
    { db with
      steps := db.steps.append (fun id => {
        id, projectId, pathId, sequence := request.sequence, edgeId := request.edgeId
        createdByAgentCode := strip author.agentCode
        createdFromSessionId := strip author.sessionId
        createdAt := now, updatedAt := now }) (fun _ => rfl) }.committed

/-- The step, if it is one of this path of the project. -/
def ofPath (db : ProjectStore) (projectId pathId stepId : Nat) :
    Option WorkProjectAttackPathStep :=
  (db.steps.get? stepId).filter (fun step =>
    decide (step.projectId = projectId) && decide (step.pathId = pathId))

/-- `update_work_project_attack_path_step` -/
def updateWorkProjectAttackPathStep (db : ProjectStore) (projectId pathId stepId : Nat)
    (request : StepRequest) (now : Time) : Outcome :=
  match ofPath db projectId pathId stepId with
  | none => db.rejected "attack path step not found"
  | some _ =>
      if validateStepRefs db projectId pathId request ≠ "" then
        db.rejected (validateStepRefs db projectId pathId request)
      else if (stepBySequence db projectId pathId request.sequence).any
          (fun step => decide (step.id ≠ stepId)) then
        db.rejected "attack path step already exists"
      else
        { db with
          steps := db.steps.updateWhere (fun row => decide (row.id = stepId))
            (fun row => { row with
              sequence := request.sequence, edgeId := request.edgeId, updatedAt := now })
            (fun _ => rfl) }.committed

/-- `delete_work_project_attack_path_step` -/
def deleteWorkProjectAttackPathStep (db : ProjectStore) (projectId pathId stepId : Nat) :
    Outcome :=
  match ofPath db projectId pathId stepId with
  | none => db.rejected "attack path step not found"
  | some _ =>
      { db with
        steps := db.steps.deleteWhere (fun row => decide (row.id = stepId)) }.committed

/-! ### Assets -/

/-- `_ASSET_ALREADY_EXISTS` -/
def assetAlreadyExists : String := "asset already exists"

/-- `_SCOPE_ASSET_IDENTITY_LOCKED` -/
def scopeAssetIdentityLocked : String := "scope asset identity is managed by project metadata"

/-- `_SCOPE_ASSET_DELETE_LOCKED` -/
def scopeAssetDeleteLocked : String := "scope assets are managed by project metadata"

/-- `apply_asset_request` -/
def applyAssetRequest (asset : WorkProjectAsset) (request : AssetRequest) (now : Time) :
    WorkProjectAsset :=
  { asset with
    type := request.type, host := request.host, port := request.port, path := request.path
    identifier := request.identifier, extra := request.extra, updatedAt := now }

/-- The same on a row that is there: `extra` is kept unless the caller gave it. -/
def reapplyAssetRequest (asset : WorkProjectAsset) (request : AssetRequest) (now : Time) :
    WorkProjectAsset :=
  { applyAssetRequest asset request now with
    extra := if request.extraSet then request.extra else asset.extra }

/-- `_get_asset_by_identity` -/
def assetByIdentity (db : ProjectStore) (projectId : Nat) (identity : AssetType × String) :
    Option WorkProjectAsset :=
  db.assets.rows.find? (fun asset =>
    decide (asset.projectId = projectId) && decide (asset.identity = identity))

/-- `create_work_project_asset`, with its default origin. -/
def createWorkProjectAsset (db : ProjectStore) (projectId : Nat) (request : AssetRequest)
    (author : Author) (now : Time) : Outcome :=
  if (assetByIdentity db projectId request.identity).isSome then db.rejected assetAlreadyExists
  -- the project's row is missing: an `IntegrityError` as any other
  else if db.projects.get? projectId = none then db.rejected assetAlreadyExists
  else
    { db with
      assets := db.assets.append (fun id => applyAssetRequest {
        id, projectId, type := request.type, identifier := request.identifier
        createdByAgentCode := strip author.agentCode
        createdFromSessionId := strip author.sessionId
        createdAt := now, updatedAt := now } request now) (fun _ => rfl) }.committed

/-- `update_work_project_asset` -/
def updateWorkProjectAsset (db : ProjectStore) (projectId assetId : Nat) (request : AssetRequest)
    (now : Time) : Outcome :=
  match ofProject db.assets WorkProjectAsset.projectId projectId assetId with
  | none => db.rejected "asset not found"
  | some asset =>
      if asset.origin = .scope ∧ asset.identity ≠ request.identity then
        db.rejected scopeAssetIdentityLocked
      else if (assetByIdentity db projectId request.identity).any
          (fun conflict => decide (conflict.id ≠ assetId)) then
        db.rejected assetAlreadyExists
      else
        { db with
          assets := db.assets.updateWhere (fun row => decide (row.id = assetId))
            (fun row => reapplyAssetRequest row request now) (fun _ => rfl) }.committed

/-- `upsert_work_project_asset` -/
def upsertWorkProjectAsset (db : ProjectStore) (projectId : Nat) (request : AssetRequest)
    (author : Author) (now : Time) : Outcome :=
  match assetByIdentity db projectId request.identity with
  | some existing => updateWorkProjectAsset db projectId existing.id request now
  | none =>
      let created := createWorkProjectAsset db projectId request author now
      if created.error ≠ assetAlreadyExists then created
      else
        match assetByIdentity created.store projectId request.identity with
        | none => created.store.rejected assetAlreadyExists
        | some winner => updateWorkProjectAsset created.store projectId winner.id request now

/-- What both deletions of an asset do: detach its findings, purge its edges
and delete its row. -/
def removeAsset (db : ProjectStore) (projectId assetId : Nat) : ProjectStore :=
  let detached := { db with
    findings := db.findings.updateWhere (fun finding => decide (finding.assetId = some assetId))
      (fun finding => { finding with assetId := none }) (fun _ => rfl) }
  let purged := purgeEdgesTouchingAsset detached projectId assetId
  { purged with assets := purged.assets.deleteWhere (fun asset => decide (asset.id = assetId)) }

/-- `delete_work_project_asset` -/
def deleteWorkProjectAsset (db : ProjectStore) (projectId assetId : Nat) : Outcome :=
  match ofProject db.assets WorkProjectAsset.projectId projectId assetId with
  | none => db.rejected "asset not found"
  | some asset =>
      if asset.origin = .scope then db.rejected scopeAssetDeleteLocked
      else (removeAsset db projectId assetId).committed

/-! ### Findings -/

/-- `_validate_refs` -/
def validateRefs (db : ProjectStore) (projectId : Nat) (request : FindingRequest) : String :=
  if request.assetId.any (fun assetId =>
      (ofProject db.assets WorkProjectAsset.projectId projectId assetId).isNone) then
    "asset not found"
  else if request.edgeId.any (fun edgeId =>
      (ofProject db.edges WorkProjectGraphEdge.projectId projectId edgeId).isNone) then
    "graph edge not found"
  else ""

/-- The row that `create_work_project_finding` adds. -/
def newFinding (id projectId : Nat) (request : FindingRequest) (author : Author) (now : Time) :
    WorkProjectFinding where
  id := id
  projectId := projectId
  assetId := request.assetId
  edgeId := request.edgeId
  cveId := request.cveId
  status := request.status
  content := request.content
  createdByAgentCode := strip author.agentCode
  createdFromSessionId := strip author.sessionId
  createdAt := now
  updatedAt := now
  validatedAt := if request.status = .validated then some now else none

/-- `create_work_project_finding` -/
def createWorkProjectFinding (db : ProjectStore) (projectId : Nat) (request : FindingRequest)
    (author : Author) (now : Time) : Outcome :=
  if validateRefs db projectId request ≠ "" then db.rejected (validateRefs db projectId request)
  else if db.projects.get? projectId = none then db.rejected "asset or graph edge not found"
  else
    { db with
      findings := db.findings.append (fun id => newFinding id projectId request author now)
        (fun _ => rfl) }.committed

/-- What `update_work_project_finding` makes of a loaded row. -/
def applyFindingRequest (finding : WorkProjectFinding) (request : FindingRequest) (now : Time) :
    WorkProjectFinding :=
  { finding with
    assetId := request.assetId, edgeId := request.edgeId, cveId := request.cveId
    status := request.status, content := request.content, updatedAt := now
    validatedAt :=
      if request.status = .validated ∧ finding.status ≠ .validated then some now
      else if request.status ≠ .validated then none
      else finding.validatedAt }

/-- `update_work_project_finding` -/
def updateWorkProjectFinding (db : ProjectStore) (projectId findingId : Nat)
    (request : FindingRequest) (now : Time) : Outcome :=
  match ofProject db.findings WorkProjectFinding.projectId projectId findingId with
  | none => db.rejected "finding not found"
  | some _ =>
      if validateRefs db projectId request ≠ "" then
        db.rejected (validateRefs db projectId request)
      else
        { db with
          findings := db.findings.updateWhere (fun row => decide (row.id = findingId))
            (fun row => applyFindingRequest row request now) (fun _ => rfl) }.committed

/-- The finding that `upsert_cve_work_project_finding` looks up. -/
def cveFinding (db : ProjectStore) (projectId : Nat) (request : FindingRequest) :
    Option WorkProjectFinding :=
  db.findings.rows.find? (fun finding =>
    decide (finding.projectId = projectId) && decide (finding.assetId = request.assetId) &&
      decide (finding.cveId = request.cveId))

/-- The request `upsert_cve_work_project_finding` updates an existing finding
with: a verdict is kept. -/
def keepVerdict (existing : WorkProjectFinding) (request : FindingRequest) : FindingRequest :=
  if existing.status ≠ .suspected then { request with status := existing.status } else request

/-- `upsert_cve_work_project_finding` -/
def upsertCveWorkProjectFinding (db : ProjectStore) (projectId : Nat) (request : FindingRequest)
    (author : Author) (now : Time) : Outcome :=
  if request.cveId = "" then db.rejected "cve_id is required"
  else
    match cveFinding db projectId request with
    | none => createWorkProjectFinding db projectId request author now
    | some existing =>
        updateWorkProjectFinding db projectId existing.id (keepVerdict existing request) now

/-- `delete_work_project_finding` -/
def deleteWorkProjectFinding (db : ProjectStore) (projectId findingId : Nat) : Outcome :=
  match ofProject db.findings WorkProjectFinding.projectId projectId findingId with
  | none => db.rejected "finding not found"
  | some _ =>
      { db with
        findings := db.findings.deleteWhere (fun row => decide (row.id = findingId)) }.committed

/-! ### Project metadata -/

/-- `_duplicate_asset_identity` -/
def duplicateAssetIdentity (seen : List (AssetType × String)) : List AssetRequest → String
  | [] => ""
  | asset :: rest =>
      if asset.identity ∈ seen then asset.type.value ++ ":" ++ asset.identifier
      else duplicateAssetIdentity (asset.identity :: seen) rest

/-- `_validate_work_project_metadata_static` -/
def validateMetadataStatic (request : MetadataRequest) : String :=
  if request.assets = [] then "at least one asset is required"
  else if duplicateAssetIdentity [] request.assets ≠ "" then
    "duplicate asset: " ++ duplicateAssetIdentity [] request.assets
  else ""

/-- `_validate_work_project_metadata_for_write`.  `bindingError` is what it
finds wrong with the owners and the execution workspace, whose tables are not
part of the store. -/
def validateMetadataForWrite (request : MetadataRequest) (bindingError : String) : String :=
  if validateMetadataStatic request ≠ "" then validateMetadataStatic request else bindingError

/-- A project's scope asset as metadata declares it. -/
def scopeAsset (projectId : Nat) (request : AssetRequest) (now : Time) (id : Nat) :
    WorkProjectAsset :=
  applyAssetRequest {
    id, projectId, origin := .scope, type := request.type, identifier := request.identifier
    createdAt := now, updatedAt := now } request now

/-- `_set_project_asset_rows` -/
def setProjectAssetRows (db : ProjectStore) (projectId : Nat) (now : Time)
    (seen : List (AssetType × String)) : List AssetRequest → ProjectStore
  | [] => db
  | request :: rest =>
      if request.identity ∈ seen then setProjectAssetRows db projectId now seen rest
      else
        setProjectAssetRows
          { db with assets := db.assets.append (scopeAsset projectId request now) (fun _ => rfl) }
          projectId now (request.identity :: seen) rest

/-- The first loop of `_upsert_project_assets`, over the declared assets:
`rows` are the assets the project had, `seen` the identities declared so far. -/
def declareAssets (rows : List WorkProjectAsset) (projectId : Nat) (now : Time)
    (db : ProjectStore) (seen : List (AssetType × String)) :
    List AssetRequest → ProjectStore × List (AssetType × String)
  | [] => (db, seen)
  | request :: rest =>
      if request.identity ∈ seen then declareAssets rows projectId now db seen rest
      else
        let assets :=
          match (rows.filter (fun asset => decide (asset.identity = request.identity))).getLast? with
          | none => db.assets.append (scopeAsset projectId request now) (fun _ => rfl)
          | some asset =>
              db.assets.updateWhere (fun row => decide (row.id = asset.id))
                (fun row => { reapplyAssetRequest row request now with
                  origin := .scope, createdByAgentCode := "", createdFromSessionId := "" })
                (fun _ => rfl)
        declareAssets rows projectId now { db with assets } (request.identity :: seen) rest

/-- The second loop: scope assets that are no longer declared are removed.  A
row the first loop made a scope asset is among the declared ones. -/
def dropUndeclared (projectId : Nat) (seen : List (AssetType × String)) (db : ProjectStore) :
    List WorkProjectAsset → ProjectStore
  | [] => db
  | asset :: rest =>
      if asset.origin ≠ .scope ∨ asset.identity ∈ seen then dropUndeclared projectId seen db rest
      else dropUndeclared projectId seen (removeAsset db projectId asset.id) rest

/-- `_upsert_project_assets` -/
def upsertProjectAssets (db : ProjectStore) (projectId : Nat) (assets : List AssetRequest)
    (now : Time) : ProjectStore :=
  let rows := db.assets.rows.filter (fun asset => decide (asset.projectId = projectId))
  let declared := declareAssets rows projectId now db [] assets
  dropUndeclared projectId declared.2 declared.1 rows

/-- `create_work_project` -/
def createWorkProject (db : ProjectStore) (request : MetadataRequest) (bindingError : String)
    (now : Time) : Outcome :=
  if validateMetadataForWrite request bindingError ≠ "" then
    db.rejected (validateMetadataForWrite request bindingError)
  else
    let created := { db with
      projects := db.projects.append (fun id => {
        id, name := request.name, description := request.description, type := request.type
        createdAt := now, updatedAt := now }) (fun _ => rfl) }
    (setProjectAssetRows created db.projects.nextKey now [] request.assets).committed

/-- `update_work_project_metadata` -/
def updateWorkProjectMetadata (db : ProjectStore) (projectId : Nat) (request : MetadataRequest)
    (bindingError : String) (now : Time) : Outcome :=
  if db.projects.get? projectId = none then db.rejected "project not found"
  else if validateMetadataForWrite request bindingError ≠ "" then
    db.rejected (validateMetadataForWrite request bindingError)
  else
    let renamed := { db with
      projects := db.projects.updateWhere (fun row => decide (row.id = projectId))
        (fun row => { row with
          name := request.name, description := request.description, type := request.type
          updatedAt := now })
        (fun _ => rfl) }
    (upsertProjectAssets renamed projectId request.assets now).committed

/-! ### The operations -/

/-- A call of one of the operations. -/
inductive RecordOperation
  | createProject (request : MetadataRequest) (bindingError : String)
  | updateMetadata (projectId : Nat) (request : MetadataRequest) (bindingError : String)
  | createAsset (projectId : Nat) (request : AssetRequest) (author : Author)
  | updateAsset (projectId assetId : Nat) (request : AssetRequest)
  | upsertAsset (projectId : Nat) (request : AssetRequest) (author : Author)
  | deleteAsset (projectId assetId : Nat)
  | upsertEdge (projectId : Nat) (request : EdgeRequest) (author : Author)
  | updateEdge (projectId edgeId : Nat) (request : EdgeRequest)
  | deleteEdge (projectId edgeId : Nat)
  | createPath (projectId : Nat) (request : AttackPathRequest) (author : Author)
  | updatePath (projectId pathId : Nat) (request : AttackPathRequest)
  | deletePath (projectId pathId : Nat)
  | createStep (projectId pathId : Nat) (request : StepRequest) (author : Author)
  | updateStep (projectId pathId stepId : Nat) (request : StepRequest)
  | deleteStep (projectId pathId stepId : Nat)
  | createFinding (projectId : Nat) (request : FindingRequest) (author : Author)
  | updateFinding (projectId findingId : Nat) (request : FindingRequest)
  | upsertCveFinding (projectId : Nat) (request : FindingRequest) (author : Author)
  | deleteFinding (projectId findingId : Nat)

/-- The operation, carried out at a moment without another in between. -/
def RecordOperation.perform (db : ProjectStore) (now : Time) : RecordOperation → Outcome
  | .createProject request bindingError => createWorkProject db request bindingError now
  | .updateMetadata projectId request bindingError =>
      updateWorkProjectMetadata db projectId request bindingError now
  | .createAsset projectId request author =>
      createWorkProjectAsset db projectId request author now
  | .updateAsset projectId assetId request =>
      updateWorkProjectAsset db projectId assetId request now
  | .upsertAsset projectId request author =>
      upsertWorkProjectAsset db projectId request author now
  | .deleteAsset projectId assetId => deleteWorkProjectAsset db projectId assetId
  | .upsertEdge projectId request author =>
      upsertWorkProjectGraphEdge db projectId request author now
  | .updateEdge projectId edgeId request =>
      updateWorkProjectGraphEdge db projectId edgeId request now
  | .deleteEdge projectId edgeId => deleteWorkProjectGraphEdge db projectId edgeId
  | .createPath projectId request author =>
      createWorkProjectAttackPath db projectId request author now
  | .updatePath projectId pathId request =>
      updateWorkProjectAttackPath db projectId pathId request now
  | .deletePath projectId pathId => deleteWorkProjectAttackPath db projectId pathId
  | .createStep projectId pathId request author =>
      createWorkProjectAttackPathStep db projectId pathId request author now
  | .updateStep projectId pathId stepId request =>
      updateWorkProjectAttackPathStep db projectId pathId stepId request now
  | .deleteStep projectId pathId stepId =>
      deleteWorkProjectAttackPathStep db projectId pathId stepId
  | .createFinding projectId request author =>
      createWorkProjectFinding db projectId request author now
  | .updateFinding projectId findingId request =>
      updateWorkProjectFinding db projectId findingId request now
  | .upsertCveFinding projectId request author =>
      upsertCveWorkProjectFinding db projectId request author now
  | .deleteFinding projectId findingId => deleteWorkProjectFinding db projectId findingId

end Workbench.WorkProject
