import CyberWorkbench.AgentRecords
import CyberWorkbench.TableReferences

/-!
# The records of work projects

The assets, graph edges, attack paths, path steps and findings of
`model/work_project`, the validated requests of `schema/work_project`, and the
store that holds the tables.  Enumerations and fields are those of the source;
a score is the exact value of its floating point number.

What makes a request valid is part of its type where later code relies on it:
an edge request has two different endpoints.
-/

namespace Workbench.WorkProject

open KeyedTable

/-! ### Assets -/

/-- `WorkProjectAssetType`. -/
inductive AssetType where
  | service
  | domain
  | network
  | binary
  deriving DecidableEq, Repr

/-- The `.value` of the string enumeration. -/
def AssetType.value : AssetType → String
  | .service => "service"
  | .domain => "domain"
  | .network => "network"
  | .binary => "binary"

/-- `WorkProjectAssetOrigin`. -/
inductive AssetOrigin where
  | scope
  | discovered
  deriving DecidableEq, Repr

/-- `WorkProjectAssetExtraSchema`. -/
structure AssetExtra where
  banner : String := ""
  deriving DecidableEq, Repr

/-- `WorkProjectAssetRequest`, validated.  `identifier` is the property that
`build_asset_identifier` computes; `extraSet` says that the caller gave
`extra`. -/
structure AssetRequest where
  type : AssetType
  host : String := ""
  port : Option Nat := none
  path : String := ""
  identifier : String
  extra : AssetExtra := {}
  extraSet : Bool := false
  deriving DecidableEq, Repr

/-- `identity`: what distinguishes the assets of a project. -/
def AssetRequest.identity (request : AssetRequest) : AssetType × String :=
  (request.type, request.identifier)

/-- A row of `work_project_assets`. -/
structure WorkProjectAsset where
  id : Nat
  projectId : Nat
  type : AssetType
  origin : AssetOrigin := .discovered
  identifier : String
  host : String := ""
  port : Option Nat := none
  path : String := ""
  extra : AssetExtra := {}
  createdByAgentCode : String := ""
  createdFromSessionId : String := ""
  createdAt : Time
  updatedAt : Time
  deriving DecidableEq, Repr

def WorkProjectAsset.identity (asset : WorkProjectAsset) : AssetType × String :=
  (asset.type, asset.identifier)

/-! ### The attack graph -/

/-- `WorkProjectGraphEdgeType`. -/
inductive EdgeType where
  | related
  | resolvesTo
  | hosts
  | connectsTo
  | trusts
  | exploits
  | pivotsTo
  | leadsTo
  deriving DecidableEq, Repr

/-- `WorkProjectGraphEdgeRequest`, validated. -/
structure EdgeRequest where
  sourceAssetId : Nat
  targetAssetId : Nat
  type : EdgeType := .related
  label : String := ""
  /-- `validate_endpoints`. -/
  endpoints : sourceAssetId ≠ targetAssetId

/-- A row of `work_project_graph_edges`. -/
structure WorkProjectGraphEdge where
  id : Nat
  projectId : Nat
  sourceAssetId : Nat
  targetAssetId : Nat
  type : EdgeType := .related
  label : String := ""
  createdByAgentCode : String := ""
  createdFromSessionId : String := ""
  createdAt : Time
  updatedAt : Time
  deriving DecidableEq, Repr

/-- `WorkProjectAttackPathStatus`. -/
inductive AttackPathStatus where
  | suspected
  | validated
  | blocked
  | closed
  deriving DecidableEq, Repr

/-- `WorkProjectAttackPathRequest`. -/
structure AttackPathRequest where
  title : String
  status : AttackPathStatus := .suspected
  summary : String := ""
  deriving DecidableEq, Repr

/-- A row of `work_project_attack_paths`. -/
structure WorkProjectAttackPath where
  id : Nat
  projectId : Nat
  title : String := ""
  status : AttackPathStatus := .suspected
  summary : String := ""
  createdByAgentCode : String := ""
  createdFromSessionId : String := ""
  createdAt : Time
  updatedAt : Time
  deriving DecidableEq, Repr

/-- `WorkProjectAttackPathStepRequest`. -/
structure StepRequest where
  sequence : Nat
  edgeId : Nat
  deriving DecidableEq, Repr

/-- A row of `work_project_attack_path_steps`. -/
structure WorkProjectAttackPathStep where
  id : Nat
  projectId : Nat
  pathId : Nat
  sequence : Nat
  edgeId : Nat
  createdByAgentCode : String := ""
  createdFromSessionId : String := ""
  createdAt : Time
  updatedAt : Time
  deriving DecidableEq, Repr

/-! ### Findings -/

/-- `WorkProjectFindingSeverity`. -/
inductive FindingSeverity where
  | info
  | low
  | medium
  | high
  | critical
  deriving DecidableEq, Repr

/-- `WorkProjectFindingStatus`. -/
inductive FindingStatus where
  | suspected
  | validated
  | falsePositive
  deriving DecidableEq, Repr

/-- `WorkProjectFindingType`. -/
inductive FindingType where
  | general
  | cve
  deriving DecidableEq, Repr

/-- `WorkProjectFindingConfidence`. -/
inductive FindingConfidence where
  | low
  | medium
  | high
  | confirmed
  deriving DecidableEq, Repr

/-- The columns of a finding that requests fill and no code here reads. -/
structure FindingContent where
  title : String := ""
  findingType : FindingType := .general
  severity : FindingSeverity := .info
  confidence : FindingConfidence := .low
  cvssScore : Option Rat := none
  cvssVector : String := ""
  cwes : List String := []
  references : List String := []
  evidence : String := ""
  remediation : String := ""
  source : String := ""
  knownExploited : Bool := false
  epssScore : Option Rat := none
  epssPercentile : Option Rat := none
  affectedVersion : String := ""
  fixedVersions : List String := []
  description : String := ""
  impact : String := ""
  deriving DecidableEq, Repr

/-- `WorkProjectFindingRequest`. -/
structure FindingRequest where
  assetId : Option Nat := none
  edgeId : Option Nat := none
  cveId : String := ""
  status : FindingStatus := .suspected
  content : FindingContent := {}
  deriving DecidableEq, Repr

/-- A row of `work_project_findings`. -/
structure WorkProjectFinding where
  id : Nat
  projectId : Nat
  assetId : Option Nat := none
  edgeId : Option Nat := none
  cveId : String := ""
  status : FindingStatus := .suspected
  content : FindingContent := {}
  createdByAgentCode : String := ""
  createdFromSessionId : String := ""
  createdAt : Time
  updatedAt : Time
  validatedAt : Option Time := none
  deriving DecidableEq, Repr

/-! ### Projects -/

/-- `WorkProjectType`. -/
inductive ProjectType where
  | penetrationTest
  | sourceCodeAudit
  deriving DecidableEq, Repr

/-- `CreateWorkProjectRequest` and `UpdateWorkProjectMetadataRequest`: what
concerns the project's row and its assets. -/
structure MetadataRequest where
  name : String
  description : String := ""
  assets : List AssetRequest
  type : ProjectType := .penetrationTest
  deriving DecidableEq, Repr

/-- A row of `work_projects`: what its metadata request fills. -/
structure WorkProjectRow where
  id : Nat
  name : String := ""
  description : String := ""
  type : ProjectType := .penetrationTest
  createdAt : Time
  updatedAt : Time
  deriving DecidableEq, Repr

/-- The tables. -/
structure ProjectStore where
  projects : Table WorkProjectRow WorkProjectRow.id
  assets : Table WorkProjectAsset WorkProjectAsset.id
  edges : Table WorkProjectGraphEdge WorkProjectGraphEdge.id
  paths : Table WorkProjectAttackPath WorkProjectAttackPath.id
  steps : Table WorkProjectAttackPathStep WorkProjectAttackPathStep.id
  findings : Table WorkProjectFinding WorkProjectFinding.id

/-- The empty store. -/
def ProjectStore.empty : ProjectStore :=
  ⟨Table.empty, Table.empty, Table.empty, Table.empty, Table.empty, Table.empty⟩

/-- Who a new row is recorded for. -/
structure Author where
  agentCode : String := ""
  sessionId : String := ""
  deriving DecidableEq, Repr

/-- How an operation ended: the committed store, and an error text that is
empty on success.  Leaving a transaction before its commit leaves the store as
it was. -/
structure Outcome where
  store : ProjectStore
  error : String := ""

/-- The transaction is left before its commit. -/
def ProjectStore.rejected (db : ProjectStore) (error : String) : Outcome := ⟨db, error⟩

/-- The transaction is committed. -/
def ProjectStore.committed (db : ProjectStore) : Outcome := ⟨db, ""⟩

end Workbench.WorkProject
