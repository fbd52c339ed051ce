import CyberWorkbench.RecordRuns

/-!
# Synchronizing the scope of a project

`_upsert_project_assets` declares the requested assets and removes the scope
assets that were not requested, each with its edges and the path steps over
them.  What it does to the tables as a whole is put down table by table:

* `Removed`: certain assets are gone, the edges at them, the steps over those
  edges, and the references of findings to either; the rest is as it was;
* `Declared`: the requested assets are of the scope, as requested;
* `upsertProjectAssets_synchronized`: both, for exactly the assets they concern.
-/

namespace Workbench.WorkProject

open KeyedTable Table

/-! ### What a removal takes with it -/

/-- The edge has one of the assets as an endpoint. -/
def touches (assetIds : List Nat) (edge : WorkProjectGraphEdge) : Bool :=
  decide (edge.sourceAssetId ∈ assetIds) || decide (edge.targetAssetId ∈ assetIds)

/-- The edges at these assets. -/
def edgesTouching (db : ProjectStore) (assetIds : List Nat) : List Nat :=
  (db.edges.rows.filter (touches assetIds)).map WorkProjectGraphEdge.id

/-- A reference that is not to one of these. -/
def clearIn (ids : List Nat) (reference : Option Nat) : Option Nat :=
  reference.bind (fun id => if id ∈ ids then none else some id)

/-- The finding without its references to these assets and edges. -/
def clearReferences (assetIds edgeIds : List Nat) (finding : WorkProjectFinding) :
    WorkProjectFinding :=
  { finding with
    assetId := clearIn assetIds finding.assetId
    edgeId := clearIn edgeIds finding.edgeId }

/-- These edges are gone, with the steps over them and the references to them. -/
structure EdgesRemoved (edgeIds : List Nat) (db after : ProjectStore) : Prop where
  projects : after.projects = db.projects
  assets : after.assets = db.assets
  paths : after.paths = db.paths
  edges : after.edges.rows = db.edges.rows.filter (fun edge => decide (edge.id ∉ edgeIds))
  steps : after.steps.rows = db.steps.rows.filter (fun step => decide (step.edgeId ∉ edgeIds))
  findings : after.findings.rows = db.findings.rows.map (clearReferences [] edgeIds)

/-- **These assets are gone**, with the edges at them, the steps over those
edges, and the references to either. -/
structure Removed (assetIds : List Nat) (db after : ProjectStore) : Prop where
  projects : after.projects = db.projects
  paths : after.paths = db.paths
  assets : after.assets.rows = db.assets.rows.filter (fun asset => decide (asset.id ∉ assetIds))
  edges : after.edges.rows = db.edges.rows.filter (fun edge => !touches assetIds edge)
  steps : after.steps.rows =
    db.steps.rows.filter (fun step => decide (step.edgeId ∉ edgesTouching db assetIds))
  findings : after.findings.rows =
    db.findings.rows.map (clearReferences assetIds (edgesTouching db assetIds))

/-! ### References cleared -/

@[simp] theorem clearIn_nil (reference : Option Nat) : clearIn [] reference = reference := by
  cases reference <;> rfl

theorem clearIn_singleton (id : Nat) (reference : Option Nat) :
    clearIn [id] reference = if reference = some id then none else reference := by
  cases reference with
  | none => rfl
  | some other => simp [clearIn]

theorem clearIn_append (ids ids' : List Nat) (reference : Option Nat) :
    clearIn ids' (clearIn ids reference) = clearIn (ids ++ ids') reference := by
  cases reference with
  | none => rfl
  | some id =>
      by_cases hid : id ∈ ids
      · simp [clearIn, hid]
      · simp [clearIn, hid]

@[simp] theorem clearReferences_nil (finding : WorkProjectFinding) :
    clearReferences [] [] finding = finding := by
  unfold clearReferences
  rw [clearIn_nil, clearIn_nil]

/-- Clearing twice clears both. -/
theorem clearReferences_clearReferences (assetIds edgeIds assetIds' edgeIds' : List Nat)
    (finding : WorkProjectFinding) :
    clearReferences assetIds' edgeIds' (clearReferences assetIds edgeIds finding) =
      clearReferences (assetIds ++ assetIds') (edgeIds ++ edgeIds') finding := by
  unfold clearReferences
  dsimp only
  rw [clearIn_append, clearIn_append]

/-- Only which assets and edges are meant matters. -/
theorem clearReferences_congr {assetIds edgeIds edgeIds' : List Nat}
    (h : ∀ id, id ∈ edgeIds ↔ id ∈ edgeIds') :
    clearReferences assetIds edgeIds = clearReferences assetIds edgeIds' := by
  funext finding
  simp only [clearReferences, clearIn, h]

/-! ### Edges -/

/-- Taking nothing out of a list. -/
theorem filter_not_mem_nil {α : Type} (l : List α) (f : α → Nat) :
    l.filter (fun a => decide (f a ∉ [])) = l :=
  List.filter_eq_self.mpr (fun _ _ => decide_eq_true List.not_mem_nil)

theorem filter_not_mem_append {α : Type} (l : List α) (f : α → Nat) (ids ids' : List Nat) :
    (l.filter (fun a => decide (f a ∉ ids))).filter (fun a => decide (f a ∉ ids')) =
      l.filter (fun a => decide (f a ∉ ids ++ ids')) := by
  rw [List.filter_filter]
  simp only [List.mem_append, not_or, Bool.decide_and, Bool.and_comm]

/-- Changing nothing in a list. -/
theorem map_eq_self {α : Type} {l : List α} {f : α → α} (h : ∀ a ∈ l, f a = a) : l.map f = l := by
  have hid : l.map f = l.map id := List.map_congr_left h
  rw [hid, List.map_id]

theorem map_clearReferences_nil (l : List WorkProjectFinding) :
    l.map (clearReferences [] []) = l :=
  map_eq_self (fun finding _ => clearReferences_nil finding)

theorem EdgesRemoved.nil (db : ProjectStore) : EdgesRemoved [] db db where
  projects := rfl
  assets := rfl
  paths := rfl
  edges := (filter_not_mem_nil _ _).symm
  steps := (filter_not_mem_nil _ _).symm
  findings := (map_clearReferences_nil _).symm

theorem EdgesRemoved.trans {edgeIds edgeIds' : List Nat} {db middle after : ProjectStore}
    (h : EdgesRemoved edgeIds db middle) (h' : EdgesRemoved edgeIds' middle after) :
    EdgesRemoved (edgeIds ++ edgeIds') db after where
  projects := h'.projects.trans h.projects
  assets := h'.assets.trans h.assets
  paths := h'.paths.trans h.paths
  edges := by
    rw [h'.edges, h.edges]
    exact filter_not_mem_append _ _ edgeIds edgeIds'
  steps := by
    rw [h'.steps, h.steps]
    exact filter_not_mem_append _ _ edgeIds edgeIds'
  findings := by
    rw [h'.findings, h.findings, List.map_map]
    refine List.map_congr_left (fun finding _ => ?_)
    rw [Function.comp_apply, clearReferences_clearReferences, List.append_nil]

/-- `_purge_edge` removes one edge. -/
theorem purgeEdge_removed (db : ProjectStore) (edgeId : Nat) :
    EdgesRemoved [edgeId] db (purgeEdge db edgeId) where
  projects := rfl
  assets := rfl
  paths := rfl
  edges := by simp [purgeEdge, deleteWhere]
  steps := by simp [purgeEdge, deleteWhere]
  findings := by
    refine List.map_congr_left (fun finding _ => ?_)
    unfold clearReferences
    rw [clearIn_nil, clearIn_singleton]
    by_cases hedge : finding.edgeId = some edgeId
    · simp [hedge]
    · simp [hedge]

theorem purgeEdges_removed (edgeIds : List Nat) (db : ProjectStore) :
    EdgesRemoved edgeIds db (edgeIds.foldl purgeEdge db) := by
  induction edgeIds generalizing db with
  | nil => exact EdgesRemoved.nil db
  | cons edgeId rest ih => exact (purgeEdge_removed db edgeId).trans (ih (purgeEdge db edgeId))

/-! ### Assets -/

theorem mem_edgesTouching {db : ProjectStore} {assetIds : List Nat} {edgeId : Nat} :
    edgeId ∈ edgesTouching db assetIds ↔
      ∃ edge ∈ db.edges.rows, touches assetIds edge = true ∧ edge.id = edgeId := by
  simp [edgesTouching, and_assoc]

/-- An edge is told by its number. -/
theorem id_mem_edgesTouching {db : ProjectStore} {assetIds : List Nat}
    {edge : WorkProjectGraphEdge} (h : edge ∈ db.edges.rows) :
    edge.id ∈ edgesTouching db assetIds ↔ touches assetIds edge = true := by
  rw [mem_edgesTouching]
  constructor
  · rintro ⟨other, hother, htouches, hid⟩
    rwa [← eq_of_key_eq hother h hid]
  · exact fun htouches => ⟨edge, h, htouches, rfl⟩

theorem touches_append (assetIds assetIds' : List Nat) (edge : WorkProjectGraphEdge) :
    touches (assetIds ++ assetIds') edge = (touches assetIds edge || touches assetIds' edge) := by
  unfold touches
  rw [Bool.eq_iff_iff]
  simp only [List.mem_append, Bool.or_eq_true, decide_eq_true_eq]
  constructor
  · rintro ((h | h) | (h | h))
    · exact .inl (.inl h)
    · exact .inr (.inl h)
    · exact .inl (.inr h)
    · exact .inr (.inr h)
  · rintro ((h | h) | (h | h))
    · exact .inl (.inl h)
    · exact .inr (.inl h)
    · exact .inl (.inr h)
    · exact .inr (.inr h)

theorem touches_nil (edge : WorkProjectGraphEdge) : touches [] edge = false := by
  simp [touches]

theorem edgesTouching_nil (db : ProjectStore) : edgesTouching db [] = [] := by
  unfold edgesTouching
  rw [List.map_eq_nil_iff, List.filter_eq_nil_iff]
  intro edge _
  rw [touches_nil]
  exact Bool.false_ne_true

theorem Removed.nil (db : ProjectStore) : Removed [] db db where
  projects := rfl
  paths := rfl
  assets := (filter_not_mem_nil _ _).symm
  edges := (List.filter_eq_self.mpr (fun edge _ => by rw [touches_nil]; rfl)).symm
  steps := by
    rw [edgesTouching_nil]
    exact (filter_not_mem_nil _ _).symm
  findings := by
    rw [edgesTouching_nil]
    exact (map_clearReferences_nil _).symm

theorem Removed.trans {assetIds assetIds' : List Nat} {db middle after : ProjectStore}
    (h : Removed assetIds db middle) (h' : Removed assetIds' middle after) :
    Removed (assetIds ++ assetIds') db after := by
  -- an edge at one of the later assets may be gone already with the earlier ones
  have hedges : ∀ id, id ∈ edgesTouching db assetIds ++ edgesTouching middle assetIds' ↔
      id ∈ edgesTouching db (assetIds ++ assetIds') := by
    intro id
    simp only [List.mem_append, mem_edgesTouching, h.edges, List.mem_filter, touches_append,
      Bool.or_eq_true, Bool.not_eq_true']
    constructor
    · rintro (⟨edge, hmem, htouches, hid⟩ | ⟨edge, ⟨hmem, -⟩, htouches, hid⟩)
      · exact ⟨edge, hmem, .inl htouches, hid⟩
      · exact ⟨edge, hmem, .inr htouches, hid⟩
    · rintro ⟨edge, hmem, htouches, hid⟩
      cases hfirst : touches assetIds edge with
      | true => exact .inl ⟨edge, hmem, hfirst, hid⟩
      | false =>
          rw [hfirst] at htouches
          exact .inr ⟨edge, ⟨hmem, hfirst⟩, htouches.resolve_left Bool.false_ne_true, hid⟩
  refine ⟨h'.projects.trans h.projects, h'.paths.trans h.paths, ?_, ?_, ?_, ?_⟩
  · rw [h'.assets, h.assets]
    exact filter_not_mem_append _ _ assetIds assetIds'
  · rw [h'.edges, h.edges, List.filter_filter]
    simp only [touches_append, Bool.not_or, Bool.and_comm]
  · rw [h'.steps, h.steps, filter_not_mem_append]
    simp only [hedges]
  · rw [h'.findings, h.findings, List.map_map, ← clearReferences_congr hedges]
    refine List.map_congr_left (fun finding _ => ?_)
    exact clearReferences_clearReferences _ _ _ _ finding

/-- **Removing one asset**, where the edges at it are of the project. -/
theorem removeAsset_removed {db : ProjectStore} {projectId assetId : Nat}
    (hproject : ∀ edge ∈ db.edges.rows, touches [assetId] edge = true →
      edge.projectId = projectId) :
    Removed [assetId] db (removeAsset db projectId assetId) := by
  have hids : (db.edges.rows.filter (fun edge => decide (edge.projectId = projectId) &&
      (decide (edge.sourceAssetId = assetId) || decide (edge.targetAssetId = assetId)))).map
      WorkProjectGraphEdge.id = edgesTouching db [assetId] := by
    unfold edgesTouching
    congr 1
    refine List.filter_congr (fun edge hmem => ?_)
    have htouches : touches [assetId] edge =
        (decide (edge.sourceAssetId = assetId) || decide (edge.targetAssetId = assetId)) := by
      simp [touches]
    cases hcase : touches [assetId] edge with
    | true => rw [← htouches, hcase, hproject edge hmem hcase]; simp
    | false => rw [← htouches, hcase, Bool.and_false]
  unfold removeAsset purgeEdgesTouchingAsset
  dsimp only
  rw [hids]
  have hpurged := purgeEdges_removed (edgesTouching db [assetId]) { db with
    findings := db.findings.updateWhere (fun finding => decide (finding.assetId = some assetId))
      (fun finding => { finding with assetId := none }) (fun _ => rfl) }
  refine ⟨hpurged.projects, hpurged.paths, ?_, ?_, hpurged.steps, ?_⟩
  · show List.filter _ _ = _
    rw [hpurged.assets]
    simp
  · refine hpurged.edges.trans (List.filter_congr (fun edge hmem => ?_))
    have hid : edge.id ∈ edgesTouching db [assetId] ↔ touches [assetId] edge = true :=
      id_mem_edgesTouching hmem
    simp only [hid, Bool.decide_eq_true, decide_not]
  · refine hpurged.findings.trans ?_
    show List.map _ (List.map _ _) = _
    rw [List.map_map]
    refine List.map_congr_left (fun finding _ => ?_)
    unfold clearReferences
    rw [Function.comp_apply, clearIn_nil, clearIn_singleton]
    by_cases hasset : finding.assetId = some assetId
    · simp [hasset]
    · simp [hasset]

/-- The assets of the project. -/
def projectAssets (db : ProjectStore) (projectId : Nat) : List WorkProjectAsset :=
  db.assets.rows.filter (fun asset => decide (asset.projectId = projectId))

theorem mem_projectAssets {db : ProjectStore} {projectId : Nat} {asset : WorkProjectAsset} :
    asset ∈ projectAssets db projectId ↔ asset ∈ db.assets.rows ∧ asset.projectId = projectId := by
  simp [projectAssets]

/-- A scope asset with none of these identities. -/
def undeclared (identities : List (AssetType × String)) (asset : WorkProjectAsset) : Bool :=
  decide (asset.origin = .scope) && !identities.contains asset.identity

theorem undeclared_eq_false {identities : List (AssetType × String)} {asset : WorkProjectAsset} :
    undeclared identities asset = false ↔ asset.origin ≠ .scope ∨ asset.identity ∈ identities := by
  unfold undeclared
  rw [Bool.and_eq_false_iff, Bool.not_eq_false', decide_eq_false_iff_not, List.contains_iff_mem]

/-- Only which identities are meant matters. -/
theorem undeclared_congr {identities identities' : List (AssetType × String)}
    (h : ∀ identity, identity ∈ identities ↔ identity ∈ identities') (asset : WorkProjectAsset) :
    undeclared identities asset = undeclared identities' asset := by
  rw [Bool.eq_iff_iff, ← Bool.not_eq_false, ← Bool.not_eq_false, undeclared_eq_false,
    undeclared_eq_false, h]

/-- The second loop removes the scope assets that are not among the declared. -/
theorem dropUndeclared_removed (projectId : Nat) (seen : List (AssetType × String))
    (rows : List WorkProjectAsset) {db : ProjectStore}
    (hproject : ∀ edge ∈ db.edges.rows, touches (rows.map WorkProjectAsset.id) edge = true →
      edge.projectId = projectId) :
    Removed ((rows.filter (undeclared seen)).map WorkProjectAsset.id) db
      (dropUndeclared projectId seen db rows) := by
  induction rows generalizing db with
  | nil => exact Removed.nil db
  | cons asset rest ih =>
      have hrest : ∀ edge ∈ db.edges.rows, touches (rest.map WorkProjectAsset.id) edge = true →
          edge.projectId = projectId := by
        intro edge hmem htouches
        refine hproject edge hmem ?_
        rw [List.map_cons, ← List.singleton_append, touches_append, htouches, Bool.or_true]
      unfold dropUndeclared
      cases hdrop : undeclared seen asset with
      | false =>
          rw [if_pos (undeclared_eq_false.mp hdrop), List.filter_cons_of_neg (by rw [hdrop]; decide)]
          exact ih hrest
      | true =>
          have hnot : ¬ (asset.origin ≠ .scope ∨ asset.identity ∈ seen) := by
            rw [← undeclared_eq_false, hdrop]
            decide
          rw [if_neg hnot, List.filter_cons_of_pos hdrop, List.map_cons]
          have hremoved : Removed [asset.id] db (removeAsset db projectId asset.id) := by
            refine removeAsset_removed (fun edge hmem htouches => hproject edge hmem ?_)
            rw [List.map_cons, ← List.singleton_append, touches_append, htouches, Bool.true_or]
          refine hremoved.trans (ih (fun edge hmem => ?_))
          rw [hremoved.edges] at hmem
          exact hrest edge (List.mem_filter.mp hmem).1

/-! ### Declaring -/

/-- The request for an identity: the first, where there are several. -/
def requestFor (requests : List AssetRequest) (identity : AssetType × String) :
    Option AssetRequest :=
  requests.find? (fun request => decide (request.identity = identity))

/-- An asset the project has, as it is declared. -/
def declaredAsset (request : AssetRequest) (now : Time) (asset : WorkProjectAsset) :
    WorkProjectAsset :=
  { reapplyAssetRequest asset request now with
    origin := .scope, createdByAgentCode := "", createdFromSessionId := "" }

/-- What the requests make of an asset. -/
def syncedAsset (projectId : Nat) (requests : List AssetRequest) (now : Time)
    (asset : WorkProjectAsset) : WorkProjectAsset :=
  match requestFor requests asset.identity with
  | some request => if asset.projectId = projectId then declaredAsset request now asset else asset
  | none => asset

/-- **The requested assets are declared**: those the project had are as
requested, the others are `added`. -/
structure Declared (db : ProjectStore) (projectId : Nat) (requests : List AssetRequest) (now : Time)
    (added : List WorkProjectAsset) (after : ProjectStore) : Prop where
  projects : after.projects = db.projects
  paths : after.paths = db.paths
  edges : after.edges = db.edges
  steps : after.steps = db.steps
  findings : after.findings = db.findings
  assets : after.assets.rows = db.assets.rows.map (syncedAsset projectId requests now) ++ added
  fresh : ∀ asset ∈ added, ∀ old ∈ db.assets.rows, old.id < asset.id
  unknown : ∀ asset ∈ added, ∀ old ∈ db.assets.rows, old.projectId = projectId →
    old.identity ≠ asset.identity
  requested : ∀ asset ∈ added, ∃ request, requestFor requests asset.identity = some request ∧
    asset = scopeAsset projectId request now asset.id
  complete : ∀ request ∈ requests,
    (∃ old ∈ db.assets.rows, old.projectId = projectId ∧ old.identity = request.identity) ∨
      ∃ asset ∈ added, asset.identity = request.identity

theorem requestFor_identity {requests : List AssetRequest} {identity : AssetType × String}
    {request : AssetRequest} (h : requestFor requests identity = some request) :
    request ∈ requests ∧ request.identity = identity :=
  ⟨List.mem_of_find?_eq_some h, by simpa using List.find?_some h⟩

theorem requestFor_isSome {requests : List AssetRequest} {identity : AssetType × String} :
    (requestFor requests identity).isSome ↔ identity ∈ requests.map AssetRequest.identity := by
  simp [requestFor]

theorem requestFor_eq_none {requests : List AssetRequest} {identity : AssetType × String} :
    requestFor requests identity = none ↔ identity ∉ requests.map AssetRequest.identity := by
  rw [← requestFor_isSome, Option.not_isSome_iff_eq_none]

theorem requestFor_append (requests : List AssetRequest) (request : AssetRequest)
    (identity : AssetType × String) :
    requestFor (requests ++ [request]) identity = (requestFor requests identity).or
      (if request.identity = identity then some request else none) := by
  unfold requestFor
  rw [List.find?_append]
  congr 1
  by_cases h : request.identity = identity
  · simp [h]
  · simp [h]

/-- What was found stays found. -/
theorem requestFor_append_of_some {requests : List AssetRequest} {request found : AssetRequest}
    {identity : AssetType × String} (h : requestFor requests identity = some found) :
    requestFor (requests ++ [request]) identity = some found := by
  rw [requestFor_append, h]
  rfl

/-- A further request counts for its own identity. -/
theorem requestFor_append_of_ne {requests : List AssetRequest} {request : AssetRequest}
    {identity : AssetType × String} (h : request.identity ≠ identity) :
    requestFor (requests ++ [request]) identity = requestFor requests identity := by
  rw [requestFor_append, if_neg h, Option.or_none]

/-- The first request for an identity is the one that counts. -/
theorem requestFor_append_of_mem {requests : List AssetRequest} {request : AssetRequest}
    (h : request.identity ∈ requests.map AssetRequest.identity) :
    requestFor (requests ++ [request]) = requestFor requests := by
  funext identity
  by_cases hidentity : request.identity = identity
  · obtain ⟨found, hfound⟩ := Option.isSome_iff_exists.mp (requestFor_isSome.mpr h)
    rw [hidentity] at hfound
    rw [requestFor_append_of_some hfound, hfound]
  · exact requestFor_append_of_ne hidentity

@[simp] theorem syncedAsset_id (projectId : Nat) (requests : List AssetRequest) (now : Time)
    (asset : WorkProjectAsset) : (syncedAsset projectId requests now asset).id = asset.id := by
  unfold syncedAsset
  split
  · split <;> rfl
  · rfl

@[simp] theorem syncedAsset_projectId (projectId : Nat) (requests : List AssetRequest) (now : Time)
    (asset : WorkProjectAsset) :
    (syncedAsset projectId requests now asset).projectId = asset.projectId := by
  unfold syncedAsset
  split
  · split <;> rfl
  · rfl

theorem syncedAsset_of_none {projectId : Nat} {requests : List AssetRequest} {now : Time}
    {asset : WorkProjectAsset} (h : requestFor requests asset.identity = none) :
    syncedAsset projectId requests now asset = asset := by
  unfold syncedAsset
  rw [h]

theorem syncedAsset_of_ne {projectId : Nat} {requests : List AssetRequest} {now : Time}
    {asset : WorkProjectAsset} (h : asset.projectId ≠ projectId) :
    syncedAsset projectId requests now asset = asset := by
  unfold syncedAsset
  split
  · exact if_neg h
  · rfl

theorem syncedAsset_of_some {projectId : Nat} {requests : List AssetRequest} {now : Time}
    {asset : WorkProjectAsset} {request : AssetRequest} (hproject : asset.projectId = projectId)
    (h : requestFor requests asset.identity = some request) :
    syncedAsset projectId requests now asset = declaredAsset request now asset := by
  unfold syncedAsset
  rw [h]
  exact if_pos hproject

/-- Only the request for its identity matters to an asset. -/
theorem syncedAsset_congr {projectId : Nat} {requests requests' : List AssetRequest} (now : Time)
    {asset : WorkProjectAsset}
    (h : requestFor requests asset.identity = requestFor requests' asset.identity) :
    syncedAsset projectId requests now asset = syncedAsset projectId requests' now asset := by
  unfold syncedAsset
  rw [h]

theorem Declared.start (db : ProjectStore) (projectId : Nat) (now : Time) :
    Declared db projectId [] now [] db where
  projects := rfl
  paths := rfl
  edges := rfl
  steps := rfl
  findings := rfl
  assets := by
    rw [map_eq_self (fun asset _ => syncedAsset_of_none rfl), List.append_nil]
  fresh _ h := absurd h List.not_mem_nil
  unknown _ h := absurd h List.not_mem_nil
  requested _ h := absurd h List.not_mem_nil
  complete _ h := absurd h List.not_mem_nil

section Declaring

variable {db after : ProjectStore} {projectId : Nat} {done : List AssetRequest} {now : Time}
  {added : List WorkProjectAsset} {request : AssetRequest}

/-- A request for an identity that was declared before is passed over. -/
theorem Declared.again (h : Declared db projectId done now added after)
    (hagain : request.identity ∈ done.map AssetRequest.identity) :
    Declared db projectId (done ++ [request]) now added after := by
  have hsame := requestFor_append_of_mem hagain
  refine ⟨h.projects, h.paths, h.edges, h.steps, h.findings, ?_, h.fresh, h.unknown, ?_, ?_⟩
  · rw [h.assets]
    congr 1
    refine List.map_congr_left (fun asset _ => syncedAsset_congr now ?_)
    rw [hsame]
  · rw [hsame]
    exact h.requested
  · intro other hother
    rcases List.mem_append.mp hother with hdone | hlast
    · exact h.complete other hdone
    · obtain rfl := List.mem_singleton.mp hlast
      obtain ⟨first, hfirst, hidentity⟩ := List.mem_map.mp hagain
      rw [← hidentity]
      exact h.complete first hfirst

/-- An asset the project does not have is added. -/
theorem Declared.declareNew (h : Declared db projectId done now added after)
    (hunseen : request.identity ∉ done.map AssetRequest.identity)
    (hno : ∀ old ∈ db.assets.rows, old.projectId = projectId → old.identity ≠ request.identity) :
    Declared db projectId (done ++ [request]) now
      (added ++ [scopeAsset projectId request now after.assets.nextKey])
      { after with
        assets := after.assets.append (scopeAsset projectId request now) (fun _ => rfl) } := by
  have hnone : requestFor done request.identity = none := requestFor_eq_none.mpr hunseen
  have hself : requestFor (done ++ [request]) request.identity = some request := by
    rw [requestFor_append, hnone, if_pos rfl]
    rfl
  refine ⟨h.projects, h.paths, h.edges, h.steps, h.findings, ?_, ?_, ?_, ?_, ?_⟩
  · show after.assets.rows ++ [_] = _
    rw [h.assets, List.append_assoc]
    congr 1
    refine List.map_congr_left (fun asset hmem => ?_)
    by_cases hproject : asset.projectId = projectId
    · exact syncedAsset_congr now
        (requestFor_append_of_ne (Ne.symm (hno asset hmem hproject))).symm
    · rw [syncedAsset_of_ne hproject, syncedAsset_of_ne hproject]
  · intro asset hasset old hold
    rcases List.mem_append.mp hasset with hadded | hlast
    · exact h.fresh asset hadded old hold
    · obtain rfl := List.mem_singleton.mp hlast
      have hthere : syncedAsset projectId done now old ∈ after.assets.rows := by
        rw [h.assets]
        exact List.mem_append_left _ (List.mem_map_of_mem hold)
      have hlt := le_nextKey hthere
      rwa [syncedAsset_id] at hlt
  · intro asset hasset old hold hproject
    rcases List.mem_append.mp hasset with hadded | hlast
    · exact h.unknown asset hadded old hold hproject
    · obtain rfl := List.mem_singleton.mp hlast
      exact hno old hold hproject
  · intro asset hasset
    rcases List.mem_append.mp hasset with hadded | hlast
    · obtain ⟨found, hfound, hrow⟩ := h.requested asset hadded
      exact ⟨found, requestFor_append_of_some hfound, hrow⟩
    · obtain rfl := List.mem_singleton.mp hlast
      exact ⟨request, hself, rfl⟩
  · intro other hother
    rcases List.mem_append.mp hother with hdone | hlast
    · refine (h.complete other hdone).imp_right (fun hadded => ?_)
      obtain ⟨asset, hmem, hidentity⟩ := hadded
      exact ⟨asset, List.mem_append_left _ hmem, hidentity⟩
    · obtain rfl := List.mem_singleton.mp hlast
      exact .inr ⟨_, List.mem_append_right _ (List.mem_singleton_self _), rfl⟩

/-- An asset the project has is declared. -/
theorem Declared.declareOld (h : Declared db projectId done now added after)
    (hunique : db.assets.UniqueOn assetIdentity)
    (hunseen : request.identity ∉ done.map AssetRequest.identity) {asset : WorkProjectAsset}
    (hmem : asset ∈ db.assets.rows) (hproject : asset.projectId = projectId)
    (hidentity : asset.identity = request.identity) :
    Declared db projectId (done ++ [request]) now added { after with
      assets := after.assets.updateWhere (fun row => decide (row.id = asset.id))
        (declaredAsset request now) (fun _ => rfl) } := by
  have hnone : requestFor done request.identity = none := requestFor_eq_none.mpr hunseen
  refine ⟨h.projects, h.paths, h.edges, h.steps, h.findings, ?_, h.fresh, h.unknown, ?_, ?_⟩
  · show after.assets.rows.map _ = _
    rw [h.assets, List.map_append, List.map_map]
    congr 1
    · refine List.map_congr_left (fun old hold => ?_)
      have hkey : (syncedAsset projectId done now old).id = old.id := syncedAsset_id ..
      rw [Function.comp_apply]
      by_cases hid : old.id = asset.id
      · obtain rfl := eq_of_key_eq hold hmem hid
        rw [if_pos (decide_eq_true hkey), syncedAsset_of_none (by rw [hidentity]; exact hnone)]
        refine (syncedAsset_of_some hproject ?_).symm
        rw [hidentity, requestFor_append, hnone, if_pos rfl]
        rfl
      · rw [if_neg (by rw [decide_eq_true_eq, hkey]; exact hid)]
        by_cases howner : old.projectId = projectId
        · refine syncedAsset_congr now (requestFor_append_of_ne (fun hsame => hid ?_)).symm
          have hrow : old = asset := by
            refine hunique old hold asset hmem ?_
            unfold assetIdentity
            rw [howner, hproject, hidentity, hsame]
          rw [hrow]
        · rw [syncedAsset_of_ne howner, syncedAsset_of_ne howner]
    · refine map_eq_self (fun new hnew => if_neg ?_)
      have hlt := h.fresh new hnew asset hmem
      rw [decide_eq_true_eq]
      omega
  · intro new hnew
    obtain ⟨found, hfound, hrow⟩ := h.requested new hnew
    exact ⟨found, requestFor_append_of_some hfound, hrow⟩
  · intro other hother
    rcases List.mem_append.mp hother with hdone | hlast
    · exact h.complete other hdone
    · obtain rfl := List.mem_singleton.mp hlast
      exact .inl ⟨asset, hmem, hproject, hidentity⟩

/-- The first loop declares what is requested. -/
theorem declareAssets_declared (hunique : db.assets.UniqueOn assetIdentity)
    (requests : List AssetRequest) (seen : List (AssetType × String))
    (h : Declared db projectId done now added after)
    (hseen : ∀ identity, identity ∈ seen ↔ identity ∈ done.map AssetRequest.identity) :
    (∃ added, Declared db projectId (done ++ requests) now added
      (declareAssets (projectAssets db projectId) projectId now after seen requests).1) ∧
      ∀ identity,
        identity ∈ (declareAssets (projectAssets db projectId) projectId now after seen requests).2 ↔
          identity ∈ (done ++ requests).map AssetRequest.identity := by
  induction requests generalizing done added after seen with
  | nil =>
      rw [List.append_nil]
      exact ⟨⟨added, h⟩, hseen⟩
  | cons request rest ih =>
      rw [List.append_cons done request rest]
      unfold declareAssets
      by_cases hagain : request.identity ∈ seen
      · rw [if_pos hagain]
        have hdone := (hseen _).mp hagain
        refine ih seen (h.again hdone) (fun identity => ?_)
        rw [hseen, List.map_append, List.mem_append]
        refine ⟨.inl, fun hor => hor.elim id (fun hlast => ?_)⟩
        rw [List.mem_singleton.mp hlast]
        exact hdone
      · rw [if_neg hagain]
        have hunseen := fun hdone => hagain ((hseen _).mpr hdone)
        have hseen' : ∀ identity, identity ∈ request.identity :: seen ↔
            identity ∈ (done ++ [request]).map AssetRequest.identity := by
          intro identity
          rw [List.map_append, List.mem_append, List.mem_cons, hseen, List.map_singleton,
            List.mem_singleton, or_comm]
        dsimp only
        split
        · next hnone =>
            refine ih _ (h.declareNew hunseen (fun old hold hproject hsame => ?_)) hseen'
            have hempty := List.getLast?_eq_none_iff.mp hnone
            rw [List.filter_eq_nil_iff] at hempty
            exact hempty old (mem_projectAssets.mpr ⟨hold, hproject⟩) (decide_eq_true hsame)
        · next asset hlast =>
            obtain ⟨hmine, hsame⟩ := List.mem_filter.mp (List.mem_of_getLast? hlast)
            obtain ⟨hmem, hproject⟩ := mem_projectAssets.mp hmine
            exact ih _ (h.declareOld hunique hunseen hmem hproject (of_decide_eq_true hsame)) hseen'

end Declaring

/-! ### Synchronizing -/

/-- The scope assets of the project that are not requested. -/
def droppedAssets (db : ProjectStore) (projectId : Nat) (requests : List AssetRequest) : List Nat :=
  ((projectAssets db projectId).filter
    (undeclared (requests.map AssetRequest.identity))).map WorkProjectAsset.id

/-- **The scope is synchronized**: `after` has exactly the requested assets in
the scope of the project; what is not requested is gone from it with all that
refers to it, and nothing else is changed. -/
structure ScopeSynchronized (db : ProjectStore) (projectId : Nat) (requests : List AssetRequest)
    (now : Time) (after : ProjectStore) : Prop where
  scope : ∀ identity, (∃ asset ∈ after.assets.rows, asset.projectId = projectId ∧
      asset.origin = .scope ∧ asset.identity = identity) ↔
    identity ∈ requests.map AssetRequest.identity
  once : after.assets.UniqueOn assetIdentity
  dropped : ∀ assetId ∈ droppedAssets db projectId requests, after.assets.get? assetId = none
  requested : ∀ asset ∈ db.assets.rows, asset.projectId = projectId →
    ∀ request, requestFor requests asset.identity = some request →
      after.assets.get? asset.id = some (declaredAsset request now asset)
  unrequested : ∀ asset ∈ db.assets.rows, asset.projectId = projectId → asset.origin = .discovered →
    asset.identity ∉ requests.map AssetRequest.identity → after.assets.get? asset.id = some asset
  others : ∀ asset ∈ db.assets.rows, asset.projectId ≠ projectId →
    after.assets.get? asset.id = some asset
  added : ∀ asset ∈ after.assets.rows, db.assets.get? asset.id = none →
    ∃ request ∈ requests, asset = scopeAsset projectId request now asset.id ∧
      ∀ old ∈ db.assets.rows, old.projectId = projectId → old.identity ≠ request.identity
  edges : after.edges.rows =
    db.edges.rows.filter (fun edge => !touches (droppedAssets db projectId requests) edge)
  steps : after.steps.rows = db.steps.rows.filter (fun step =>
    decide (step.edgeId ∉ edgesTouching db (droppedAssets db projectId requests)))
  findings : after.findings.rows = db.findings.rows.map (clearReferences
    (droppedAssets db projectId requests)
    (edgesTouching db (droppedAssets db projectId requests)))
  projects : after.projects = db.projects
  paths : after.paths = db.paths

theorem mem_droppedAssets {db : ProjectStore} {projectId : Nat} {requests : List AssetRequest}
    {assetId : Nat} : assetId ∈ droppedAssets db projectId requests ↔
      ∃ asset ∈ db.assets.rows, asset.projectId = projectId ∧ asset.origin = .scope ∧
        asset.identity ∉ requests.map AssetRequest.identity ∧ asset.id = assetId := by
  simp [droppedAssets, mem_projectAssets, undeclared, and_assoc, not_or]

/-- An asset is told by its number. -/
theorem id_mem_droppedAssets {db : ProjectStore} {projectId : Nat} {requests : List AssetRequest}
    {asset : WorkProjectAsset} (hmem : asset ∈ db.assets.rows) :
    asset.id ∈ droppedAssets db projectId requests ↔
      asset.projectId = projectId ∧ asset.origin = .scope ∧
        asset.identity ∉ requests.map AssetRequest.identity := by
  rw [mem_droppedAssets]
  constructor
  · rintro ⟨other, hother, hproject, horigin, hidentity, hid⟩
    obtain rfl := eq_of_key_eq hother hmem hid
    exact ⟨hproject, horigin, hidentity⟩
  · rintro ⟨hproject, horigin, hidentity⟩
    exact ⟨asset, hmem, hproject, horigin, hidentity, rfl⟩

/-- The edges at the project's assets are the project's. -/
theorem Integrity.project_of_touches {db : ProjectStore} (h : Integrity db) {projectId : Nat}
    {edge : WorkProjectGraphEdge} (hmem : edge ∈ db.edges.rows)
    (htouches : touches ((projectAssets db projectId).map WorkProjectAsset.id) edge = true) :
    edge.projectId = projectId := by
  have howner : ∀ assetId ∈ (projectAssets db projectId).map WorkProjectAsset.id,
      HasAsset db edge.projectId assetId → edge.projectId = projectId := by
    intro assetId hin hhas
    obtain ⟨asset, hasset, rfl⟩ := List.mem_map.mp hin
    obtain ⟨hasset, hmine⟩ := mem_projectAssets.mp hasset
    exact (hhas.owner_eq (mem_rows_iff_get?.mp hasset)).symm.trans hmine
  have hsound := h.edges edge hmem
  unfold touches at htouches
  rw [Bool.or_eq_true, decide_eq_true_eq, decide_eq_true_eq] at htouches
  rcases htouches with hin | hin
  · exact howner _ hin hsound.source
  · exact howner _ hin hsound.target

/-- The two loops one after the other. -/
theorem upsertProjectAssets_spec {db : ProjectStore} (h : Integrity db) (projectId : Nat)
    (requests : List AssetRequest) (now : Time) :
    ∃ added middle, Declared db projectId requests now added middle ∧
      Removed (droppedAssets db projectId requests) middle
        (upsertProjectAssets db projectId requests now) := by
  obtain ⟨⟨added, hdeclared⟩, hseen⟩ := declareAssets_declared h.assetsUnique requests []
    (Declared.start db projectId now) (fun _ => Iff.rfl)
  rw [List.nil_append] at hdeclared hseen
  refine ⟨added, _, hdeclared, ?_⟩
  have hdropped : droppedAssets db projectId requests =
      ((projectAssets db projectId).filter (undeclared (declareAssets (projectAssets db projectId)
        projectId now db [] requests).2)).map WorkProjectAsset.id := by
    unfold droppedAssets
    congr 1
    exact List.filter_congr (fun asset _ => undeclared_congr (fun id => (hseen id).symm) asset)
  rw [hdropped]
  refine dropUndeclared_removed projectId _ (projectAssets db projectId) ?_
  rw [hdeclared.edges]
  exact fun edge hmem htouches => h.project_of_touches hmem htouches

section Synchronizing

variable {db middle after : ProjectStore} {projectId : Nat} {requests : List AssetRequest}
  {now : Time} {added : List WorkProjectAsset}

/-- Where an asset comes from: it was there, or it was requested. -/
theorem Declared.mem_after (hdeclared : Declared db projectId requests now added middle)
    (hremoved : Removed (droppedAssets db projectId requests) middle after)
    {row : WorkProjectAsset} : row ∈ after.assets.rows ↔
      (∃ old ∈ db.assets.rows, old.id ∉ droppedAssets db projectId requests ∧
        syncedAsset projectId requests now old = row) ∨ row ∈ added := by
  rw [hremoved.assets, hdeclared.assets, List.mem_filter, List.mem_append, List.mem_map,
    decide_eq_true_eq]
  constructor
  · rintro ⟨⟨old, hold, rfl⟩ | hadded, hkept⟩
    · rw [syncedAsset_id] at hkept
      exact .inl ⟨old, hold, hkept, rfl⟩
    · exact .inr hadded
  · rintro (⟨old, hold, hkept, rfl⟩ | hadded)
    · rw [syncedAsset_id]
      exact ⟨.inl ⟨old, hold, rfl⟩, hkept⟩
    · refine ⟨.inr hadded, fun hdropped => ?_⟩
      obtain ⟨old, hold, -, -, -, hid⟩ := mem_droppedAssets.mp hdropped
      have hlt := hdeclared.fresh row hadded old hold
      omega

/-- What becomes of an asset that is not dropped. -/
theorem Declared.get?_after (hdeclared : Declared db projectId requests now added middle)
    (hremoved : Removed (droppedAssets db projectId requests) middle after)
    {asset : WorkProjectAsset} (hmem : asset ∈ db.assets.rows)
    (hkept : asset.id ∉ droppedAssets db projectId requests) :
    after.assets.get? asset.id = some (syncedAsset projectId requests now asset) := by
  have hafter := (hdeclared.mem_after hremoved).mpr (.inl ⟨asset, hmem, hkept, rfl⟩)
  have hget := mem_rows_iff_get?.mp hafter
  rwa [syncedAsset_id] at hget

/-- The scope of the project afterwards. -/
theorem Declared.scope_iff (hdeclared : Declared db projectId requests now added middle)
    (hremoved : Removed (droppedAssets db projectId requests) middle after)
    (identity : AssetType × String) :
    (∃ asset ∈ after.assets.rows, asset.projectId = projectId ∧ asset.origin = .scope ∧
      asset.identity = identity) ↔ identity ∈ requests.map AssetRequest.identity := by
  constructor
  · rintro ⟨row, hmem, hproject, horigin, rfl⟩
    rcases (hdeclared.mem_after hremoved).mp hmem with ⟨old, hold, hkept, rfl⟩ | hadded
    · rw [syncedAsset_projectId] at hproject
      cases hrequest : requestFor requests old.identity with
      | none =>
          rw [syncedAsset_of_none hrequest] at horigin
          exact absurd ((id_mem_droppedAssets hold).mpr
            ⟨hproject, horigin, requestFor_eq_none.mp hrequest⟩) hkept
      | some request =>
          rw [syncedAsset_of_some hproject hrequest]
          exact List.mem_map_of_mem (requestFor_identity hrequest).1
    · obtain ⟨request, hrequest, -⟩ := hdeclared.requested row hadded
      exact requestFor_isSome.mp (by rw [hrequest]; rfl)
  · intro hin
    obtain ⟨request, hmem, rfl⟩ := List.mem_map.mp hin
    rcases hdeclared.complete request hmem with ⟨old, hold, hproject, hsame⟩ | ⟨row, hadded, hsame⟩
    · have hkept : old.id ∉ droppedAssets db projectId requests := by
        rw [id_mem_droppedAssets hold, hsame]
        exact fun hdropped => hdropped.2.2 hin
      obtain ⟨found, hfound⟩ := Option.isSome_iff_exists.mp (requestFor_isSome.mpr (hsame ▸ hin))
      refine ⟨_, (hdeclared.mem_after hremoved).mpr (.inl ⟨old, hold, hkept, rfl⟩), ?_⟩
      rw [syncedAsset_of_some hproject hfound]
      exact ⟨hproject, rfl, (requestFor_identity hfound).2.trans hsame⟩
    · obtain ⟨found, hfound, hrow⟩ := hdeclared.requested row hadded
      refine ⟨row, (hdeclared.mem_after hremoved).mpr (.inr hadded), ?_, ?_, hsame⟩
      · rw [hrow]
        rfl
      · rw [hrow]
        rfl

end Synchronizing

/-- **Scope synchronization is exact**: for a project that is there, whatever
its records and whatever is requested. -/
theorem upsertProjectAssets_synchronized {db : ProjectStore} (h : Integrity db) {projectId : Nat}
    (hproject : db.projects.get? projectId ≠ none) (requests : List AssetRequest) (now : Time) :
    ScopeSynchronized db projectId requests now (upsertProjectAssets db projectId requests now) := by
  obtain ⟨added, middle, hdeclared, hremoved⟩ := upsertProjectAssets_spec h projectId requests now
  have htouching : edgesTouching middle (droppedAssets db projectId requests) =
      edgesTouching db (droppedAssets db projectId requests) := by
    unfold edgesTouching
    rw [hdeclared.edges]
  refine {
    scope := hdeclared.scope_iff hremoved
    once := (h.upsertProjectAssets hproject requests now).assetsUnique
    projects := hremoved.projects.trans hdeclared.projects
    paths := hremoved.paths.trans hdeclared.paths
    dropped := ?_, requested := ?_, unrequested := ?_, others := ?_, added := ?_
    edges := ?_, steps := ?_, findings := ?_ }
  · intro assetId hdropped
    cases hget : (upsertProjectAssets db projectId requests now).assets.get? assetId with
    | none => rfl
    | some row =>
        obtain ⟨hmem, rfl⟩ := get?_eq_some hget
        rw [hremoved.assets] at hmem
        exact absurd hdropped (of_decide_eq_true (List.mem_filter.mp hmem).2)
  · intro asset hmem howner request hrequest
    have hkept : asset.id ∉ droppedAssets db projectId requests := by
      rw [id_mem_droppedAssets hmem]
      exact fun hdropped => hdropped.2.2 (requestFor_isSome.mp (by rw [hrequest]; rfl))
    rw [hdeclared.get?_after hremoved hmem hkept, syncedAsset_of_some howner hrequest]
  · intro asset hmem howner horigin hunrequested
    have hkept : asset.id ∉ droppedAssets db projectId requests := by
      rw [id_mem_droppedAssets hmem, horigin]
      exact fun hdropped => AssetOrigin.noConfusion hdropped.2.1
    rw [hdeclared.get?_after hremoved hmem hkept,
      syncedAsset_of_none (requestFor_eq_none.mpr hunrequested)]
  · intro asset hmem howner
    have hkept : asset.id ∉ droppedAssets db projectId requests := by
      rw [id_mem_droppedAssets hmem]
      exact fun hdropped => howner hdropped.1
    rw [hdeclared.get?_after hremoved hmem hkept, syncedAsset_of_ne howner]
  · intro row hmem hnew
    rcases (hdeclared.mem_after hremoved).mp hmem with ⟨old, hold, -, rfl⟩ | hadded
    · rw [syncedAsset_id, mem_rows_iff_get?.mp hold] at hnew
      cases hnew
    · obtain ⟨request, hrequest, hrow⟩ := hdeclared.requested row hadded
      obtain ⟨hin, hidentity⟩ := requestFor_identity hrequest
      refine ⟨request, hin, hrow, fun old hold howner => ?_⟩
      rw [hidentity]
      exact hdeclared.unknown row hadded old hold howner
  · rw [hremoved.edges, hdeclared.edges]
  · rw [hremoved.steps, hdeclared.steps, htouching]
  · rw [hremoved.findings, hdeclared.findings, htouching]

theorem first_ne_second : (1 : Nat) ≠ 2 := by decide

/-- A project with two domains in its scope, an edge from one to the other, a
path over it and a finding at the second domain and the edge. -/
def twoDomains : ProjectStore := performAll .empty [
  (.createProject ⟨"audit", "", [⟨.domain, "a.test", none, "", "a.test", {}, false⟩,
    ⟨.domain, "b.test", none, "", "b.test", {}, false⟩], .penetrationTest⟩ "", 1),
  (.upsertEdge 1 ⟨1, 2, .related, "", first_ne_second⟩ {}, 2),
  (.createPath 1 ⟨"path", .suspected, ""⟩ {}, 3),
  (.createStep 1 1 ⟨1, 1⟩ {}, 4),
  (.createFinding 1 ⟨some 2, some 1, "", .suspected, {}⟩ {}, 5)]

/-- With only the first domain requested, the second is dropped, and the edge. -/
theorem twoDomains_synchronized :
    droppedAssets twoDomains 1 [⟨.domain, "a.test", none, "", "a.test", {}, false⟩] = [2] ∧
      edgesTouching twoDomains [2] = [1] ∧
      ScopeSynchronized twoDomains 1 [⟨.domain, "a.test", none, "", "a.test", {}, false⟩] 6
        (upsertProjectAssets twoDomains 1 [⟨.domain, "a.test", none, "", "a.test", {}, false⟩] 6) :=
  ⟨by decide +kernel, by decide +kernel,
    upsertProjectAssets_synchronized (Integrity.empty.performAll _) (by decide +kernel) _ 6⟩

end Workbench.WorkProject
