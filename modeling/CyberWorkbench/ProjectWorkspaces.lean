import CyberWorkbench.RecordOperations
import CyberWorkbench.StepMachine
import CyberWorkbench.TableKeys
import Mathlib.Data.List.Perm.Basic

/-!
# Projects and their workspaces

`service/work_project/projects` with the operations on sessions, sandbox containers and
users that touch the same tables.  An operation checks its request against what it
reads, and only its first write starts a transaction: what it has read may be outdated
by then.  The database keeps the foreign keys, and gives a new row the number after the
largest in use.

* `tables_run` — in any order of checks and writes the references between the tables
  hold, a project has one workspace at most, and an update leaves the sessions of its
  project, and no others, with the project's workspace.
* `exclusive_runs` — a workspace is bound to one project at most exactly as long as no
  write binds one that another project has by then; always, when no two operations
  between their check and their write are about to bind the same.

Names, assets and records of a project are elsewhere.
-/

namespace Workbench.ProjectWorkspaces

open KeyedTable Table StepMachine

/-! ### Tables -/

/-- `SystemUser`. -/
structure SystemUser where
  id : Nat
  deriving DecidableEq, Repr

inductive SandboxContainerStatus
  | created
  | running
  | paused
  | stopped
  | error
  deriving DecidableEq, Repr

/-- `SandboxContainer`; `updatedAt` in microseconds. -/
structure SandboxContainer where
  id : Nat
  ownerId : Nat
  status : SandboxContainerStatus
  updatedAt : Nat
  deriving DecidableEq, Repr

/-- `WorkProject`; of its status, whether it is canceled. -/
structure WorkProject where
  id : Nat
  canceled : Bool
  deriving DecidableEq, Repr

/-- `WorkProjectOwner`. -/
structure ProjectOwner where
  projectId : Nat
  userId : Nat
  position : Nat
  deriving DecidableEq, Repr

def ProjectOwner.key (owner : ProjectOwner) : Nat × Nat := (owner.projectId, owner.userId)

/-- `WorkProjectSandboxContainer`. -/
structure ProjectContainer where
  projectId : Nat
  containerId : Nat
  deriving DecidableEq, Repr

def ProjectContainer.key (link : ProjectContainer) : Nat × Nat := (link.projectId, link.containerId)

/-- `AgentSessionMeta`. -/
structure SessionRow where
  sessionId : String
  ownerId : Nat
  projectId : Option Nat
  selectedContainerId : Option Nat := none
  selectedGeneration : Nat := 0
  deriving DecidableEq, Repr

structure ProjectTables where
  users : Table SystemUser SystemUser.id := Table.empty
  containers : Table SandboxContainer SandboxContainer.id := Table.empty
  projects : Table WorkProject WorkProject.id := Table.empty
  owners : Table ProjectOwner ProjectOwner.key := Table.empty
  links : Table ProjectContainer ProjectContainer.key := Table.empty
  sessions : Table SessionRow SessionRow.sessionId := Table.empty

/-! ### Reads -/

/-- `CreateWorkProjectRequest` and `UpdateWorkProjectMetadataRequest`. -/
structure ProjectRequest where
  metadata : WorkProject.MetadataRequest
  ownerUserIds : List Nat
  sandboxContainerId : Option Nat
  deriving DecidableEq, Repr

/-- Who sends a request. -/
structure AuthUser where
  id : Nat
  isAdmin : Bool
  deriving DecidableEq, Repr

/-- `_sandbox_container_id_for_project_in_tx`. -/
def containerForProject (db : ProjectTables) (projectId : Nat) : Option Nat :=
  (db.links.rows.find? (fun link => decide (link.projectId = projectId))).map
    ProjectContainer.containerId

/-- `status_generation` of the container, 0 of one that is not there. -/
def generationOf (db : ProjectTables) (containerId : Option Nat) : Nat :=
  ((containerId.bind db.containers.get?).map SandboxContainer.updatedAt).getD 0

/-- `_can_access_work_project_in_tx`. -/
def canAccessWorkProject (db : ProjectTables) (projectId : Nat) (user : AuthUser) : Bool :=
  (db.projects.get? projectId).isSome &&
    (user.isAdmin || (db.owners.get? (projectId, user.id)).isSome)

/-- A link of the container to a project other than this one. -/
def bindsElsewhere (containerId : Nat) (projectId : Option Nat) (link : ProjectContainer) : Bool :=
  decide (link.containerId = containerId) && decide (some link.projectId ≠ projectId)

/-- What `_validate_work_project_metadata_for_write` finds wrong with a workspace. -/
def containerError (db : ProjectTables) (user : AuthUser) (projectId : Option Nat)
    (containerId : Nat) : String :=
  match db.containers.get? containerId with
  | none => "selected execution workspace not found"
  | some container =>
      if user.isAdmin = false ∧ container.ownerId ≠ user.id then
        "selected execution workspace is not available to current user"
      else if db.links.rows.any (bindsElsewhere containerId projectId) then
        "selected execution workspace is already bound to another project"
      else if container.status ≠ .running then "selected execution workspace is not running"
      else ""

/-- The selected owners that are no users. -/
def missingOwnerIds (db : ProjectTables) (request : ProjectRequest) : List Nat :=
  (request.ownerUserIds.filter (fun id => (db.users.get? id).isNone)).eraseDups

/-- What `_validate_work_project_metadata_for_write` finds wrong with owners and workspace. -/
def bindingError (db : ProjectTables) (user : AuthUser) (projectId : Option Nat)
    (request : ProjectRequest) : String :=
  if missingOwnerIds db request ≠ [] then
    "selected owners not found: " ++ String.intercalate ", "
      (((missingOwnerIds db request).mergeSort (fun a b => decide (a ≤ b))).map Nat.repr)
  else
    match request.sandboxContainerId with
    | none => ""
    | some containerId => containerError db user projectId containerId

/-- `_validate_work_project_metadata_for_write`. -/
def validationError (db : ProjectTables) (user : AuthUser) (projectId : Option Nat)
    (request : ProjectRequest) : String :=
  WorkProject.validateMetadataForWrite request.metadata (bindingError db user projectId request)

/-! ### Writes -/

/-- The write an operation goes on to.  The values a unit of work loaded decide which
columns it writes. -/
inductive PendingWrite
  | createProject (request : ProjectRequest)
  | updateProject (projectId : Nat) (request : ProjectRequest)
  | setCanceled (projectId : Nat) (canceled : Bool)
  | deleteProject (projectId : Nat)
  | createSession (row : SessionRow)
  | selectContainer (loaded : SessionRow) (containerId : Option Nat) (generation : Nat)
  | deleteSession (sessionId : String)
  | createContainer (ownerId updatedAt : Nat)
  | setStatus (loaded : SandboxContainer) (status : SandboxContainerStatus) (updatedAt : Nat)
  | deleteContainer (containerId : Nat)
  | createUser
  | deleteUser (userId : Nat)
  deriving DecidableEq, Repr

/-- `_set_project_owner_rows`: every owner has to be a user, and once in the list. -/
def setOwnerRows (db : ProjectTables) (projectId : Nat) : Nat → List Nat →
    Table ProjectOwner ProjectOwner.key → Option (Table ProjectOwner ProjectOwner.key)
  | _, [], owners => some owners
  | position, userId :: rest, owners =>
      if (db.users.get? userId).isSome then
        (owners.insert { projectId, userId, position }).bind
          (setOwnerRows db projectId (position + 1) rest)
      else none

/-- `_set_project_sandbox_container_row`. -/
def setContainerRow (db : ProjectTables) (projectId : Nat) (containerId : Option Nat)
    (links : Table ProjectContainer ProjectContainer.key) :
    Option (Table ProjectContainer ProjectContainer.key) :=
  match containerId with
  | none => some links
  | some containerId =>
      if (db.containers.get? containerId).isSome then links.insert { projectId, containerId }
      else none

/-- `_replace_project_owners`. -/
def replaceOwners (db : ProjectTables) (projectId : Nat) (userIds : List Nat) :
    Option (Table ProjectOwner ProjectOwner.key) :=
  setOwnerRows db projectId 0 userIds
    (db.owners.keepWhere (fun owner => decide (owner.projectId ≠ projectId)))

/-- `_replace_project_sandbox_container`. -/
def replaceContainer (db : ProjectTables) (projectId : Nat) (containerId : Option Nat) :
    Option (Table ProjectContainer ProjectContainer.key) :=
  if (db.links.rows.filter (fun link => decide (link.projectId = projectId))).map
      (fun link => some link.containerId) = [containerId] then some db.links
  else
    setContainerRow db projectId containerId
      (db.links.keepWhere (fun link => decide (link.projectId ≠ projectId)))

/-- `_sync_project_session_sandbox_selection`. -/
def syncSessions (db : ProjectTables) (projectId : Nat) (containerId : Option Nat) :
    Table SessionRow SessionRow.sessionId :=
  db.sessions.updateWhere (fun row => decide (row.projectId = some projectId))
    (fun row => { row with
      selectedContainerId := containerId
      selectedGeneration := generationOf db containerId })
    (fun _ => rfl)

/-- The project a write makes or changes, with its owners, workspace and sessions. -/
def commitCreateProject (db : ProjectTables) (request : ProjectRequest) : Option ProjectTables :=
  (setOwnerRows db db.projects.nextKey 0 request.ownerUserIds db.owners).bind fun owners =>
    (setContainerRow db db.projects.nextKey request.sandboxContainerId db.links).map fun links =>
      { db with
        projects := db.projects.append (fun id => { id, canceled := false }) (fun _ => rfl)
        owners := owners
        links := links }

def commitUpdateProject (db : ProjectTables) (projectId : Nat) (request : ProjectRequest) :
    Option ProjectTables :=
  if (db.projects.get? projectId).isSome then
    (replaceOwners db projectId request.ownerUserIds).bind fun owners =>
      (replaceContainer db projectId request.sandboxContainerId).map fun links =>
        { db with
          owners := owners
          links := links
          sessions := syncSessions db projectId request.sandboxContainerId }
  else none

/-- A write to the database it finds; `none` when a constraint would not hold. -/
def PendingWrite.commit (db : ProjectTables) : PendingWrite → Option ProjectTables
  | .createProject request => commitCreateProject db request
  | .updateProject projectId request => commitUpdateProject db projectId request
  | .setCanceled projectId canceled =>
      some { db with
        projects := db.projects.updateWhere (fun project => decide (project.id = projectId))
          (fun project => { project with canceled := canceled }) (fun _ => rfl) }
  | .deleteProject projectId =>
      if db.sessions.rows.any (fun row => decide (row.projectId = some projectId)) then none
      else some { db with
        projects := db.projects.keepWhere (fun project => decide (project.id ≠ projectId))
        owners := db.owners.keepWhere (fun owner => decide (owner.projectId ≠ projectId))
        links := db.links.keepWhere (fun link => decide (link.projectId ≠ projectId)) }
  | .createSession row =>
      if row.projectId.all (fun projectId => (db.projects.get? projectId).isSome) then
        (db.sessions.insert row).map (fun sessions => { db with sessions := sessions })
      else none
  | .selectContainer loaded containerId generation =>
      some { db with
        sessions := db.sessions.updateWhere
          (fun row => decide (row.sessionId = loaded.sessionId))
          (fun row => { row with
            selectedContainerId :=
              writtenField loaded.selectedContainerId containerId row.selectedContainerId
            selectedGeneration :=
              writtenField loaded.selectedGeneration generation row.selectedGeneration })
          (fun _ => rfl) }
  | .deleteSession sessionId =>
      some { db with
        sessions := db.sessions.keepWhere (fun row => decide (row.sessionId ≠ sessionId)) }
  | .createContainer ownerId updatedAt =>
      if (db.users.get? ownerId).isSome then
        some { db with
          containers := db.containers.append
            (fun id => { id, ownerId, status := .running, updatedAt }) (fun _ => rfl) }
      else none
  | .setStatus loaded status updatedAt =>
      some { db with
        containers := db.containers.updateWhere
          (fun container => decide (container.id = loaded.id))
          (fun container => { container with
            status := writtenField loaded.status status container.status
            updatedAt := writtenField loaded.updatedAt updatedAt container.updatedAt })
          (fun _ => rfl) }
  | .deleteContainer containerId =>
      some { db with
        containers := db.containers.keepWhere (fun container => decide (container.id ≠ containerId))
        links := db.links.keepWhere (fun link => decide (link.containerId ≠ containerId)) }
  | .createUser =>
      some { db with users := db.users.append (fun id => { id }) (fun _ => rfl) }
  | .deleteUser userId =>
      if db.containers.rows.any (fun container => decide (container.ownerId = userId)) then none
      else some { db with
        users := db.users.keepWhere (fun user => decide (user.id ≠ userId))
        owners := db.owners.keepWhere (fun owner => decide (owner.userId ≠ userId)) }

/-! ### Operations -/

/-- An operation that reads before it writes, or one whose reads decide nothing here. -/
inductive Operation
  | createWorkProject (request : ProjectRequest) (user : AuthUser)
  | updateWorkProjectMetadata (projectId : Nat) (request : ProjectRequest) (user : AuthUser)
  | cancelWorkProject (projectId : Nat)
  | retryWorkProject (projectId : Nat)
  | createWorkProjectSession (sessionId : String) (projectId : Nat) (user : AuthUser)
  | writes (write : PendingWrite)
  deriving DecidableEq, Repr

/-- A write that no check of a project or its workspace precedes. -/
def PendingWrite.isUnchecked : PendingWrite → Bool
  | .createProject _ => false
  | .updateProject _ _ => false
  | .setCanceled _ _ => false
  | .createSession row => decide (row.projectId = none)
  | _ => true

/-- What an operation reads, and the write it goes on to; `none` when it is refused. -/
def Operation.read (db : ProjectTables) : Operation → Option PendingWrite
  | .createWorkProject request user =>
      if validationError db user none request = "" then some (.createProject request) else none
  | .updateWorkProjectMetadata projectId request user =>
      if (db.projects.get? projectId).isSome ∧
          validationError db user (some projectId) request = "" then
        some (.updateProject projectId request)
      else none
  | .cancelWorkProject projectId =>
      (db.projects.get? projectId).bind fun project =>
        if project.canceled then none else some (.setCanceled projectId true)
  | .retryWorkProject projectId =>
      (db.projects.get? projectId).bind fun project =>
        if project.canceled then some (.setCanceled projectId false) else none
  | .createWorkProjectSession sessionId projectId user =>
      if canAccessWorkProject db projectId user then
        (db.projects.get? projectId).bind fun project =>
          if project.canceled then none
          else some (.createSession {
            sessionId := sessionId
            ownerId := user.id
            projectId := some projectId
            selectedContainerId := containerForProject db projectId
            selectedGeneration := generationOf db (containerForProject db projectId) })
      else none
  | .writes write => if write.isUnchecked then some write else none

/-- The database, and the operations between their check and their write. -/
structure ProjectState where
  db : ProjectTables := {}
  inFlight : List PendingWrite := []

inductive ProjectAction
  | begin (operation : Operation)
  | commit (position : Nat)
  deriving DecidableEq, Repr

/-- Reads see what is committed; a write that fails is rolled back. -/
def projectMachine : Machine ProjectState ProjectAction where
  Start s := s = {}
  step s
    | .begin operation =>
        match operation.read s.db with
        | none => some s
        | some write => some { s with inFlight := s.inFlight ++ [write] }
    | .commit position =>
        match s.inFlight[position]? with
        | none => none
        | some write =>
            some { db := (write.commit s.db).getD s.db, inFlight := s.inFlight.eraseIdx position }

/-! ### References -/

/-- Every row refers to rows that are there, and a project has one workspace at most. -/
structure Integrity (db : ProjectTables) : Prop where
  owners : ∀ owner ∈ db.owners.rows,
    db.projects.Has owner.projectId ∧ db.users.Has owner.userId
  links : ∀ link ∈ db.links.rows,
    db.projects.Has link.projectId ∧ db.containers.Has link.containerId
  sessions : ∀ row ∈ db.sessions.rows, ∀ projectId, row.projectId = some projectId →
    db.projects.Has projectId
  containers : ∀ container ∈ db.containers.rows, db.users.Has container.ownerId
  oneContainer : (db.links.rows.map ProjectContainer.projectId).Nodup

theorem integrity_empty : Integrity {} where
  owners := by intro owner h; cases h
  links := by intro link h; cases h
  sessions := by intro row h; cases h
  containers := by intro container h; cases h
  oneContainer := List.nodup_nil

/-- The owners a project is given refer to it and to users. -/
theorem mem_setOwnerRows {db : ProjectTables} {projectId position : Nat} {userIds : List Nat}
    {owners after : Table ProjectOwner ProjectOwner.key}
    (h : setOwnerRows db projectId position userIds owners = some after) {owner : ProjectOwner}
    (hmem : owner ∈ after.rows) :
    owner ∈ owners.rows ∨ owner.projectId = projectId ∧ db.users.Has owner.userId := by
  induction userIds generalizing position owners with
  | nil =>
      rw [setOwnerRows, Option.some.injEq] at h
      exact .inl (h ▸ hmem)
  | cons userId rest ih =>
      rw [setOwnerRows] at h
      split at h
      · rename_i huser
        obtain ⟨inserted, hinsert, hrest⟩ := Option.bind_eq_some_iff.mp h
        rcases ih hrest with hold | hnew
        · rcases (mem_of_insert hinsert).mp hold with hold | rfl
          · exact .inl hold
          · exact .inr ⟨rfl, has_iff_get?.mpr huser⟩
        · exact .inr hnew
      · cases h

/-! ### Links -/

/-- The links of other projects. -/
def linksElsewhere (db : ProjectTables) (projectId : Nat) : List ProjectContainer :=
  db.links.rows.filter (fun link => decide (link.projectId ≠ projectId))

/-- The link of a project to its workspace, if it has one. -/
def linkTo (projectId : Nat) (containerId : Option Nat) : List ProjectContainer :=
  (containerId.map (fun id => ({ projectId, containerId := id } : ProjectContainer))).toList

theorem mem_linkTo {projectId : Nat} {containerId : Option Nat} {link : ProjectContainer} :
    link ∈ linkTo projectId containerId ↔
      link.projectId = projectId ∧ containerId = some link.containerId := by
  cases containerId with
  | none => simp [linkTo]
  | some id =>
      obtain ⟨project, container⟩ := link
      simp only [linkTo, Option.map_some, Option.toList_some, List.mem_singleton,
        ProjectContainer.mk.injEq, Option.some.injEq]
      exact and_congr_right (fun _ => eq_comm)

/-- What setting a workspace leaves: the links there were, and one to it. -/
theorem setContainerRow_rows {db : ProjectTables} {projectId : Nat} {containerId : Option Nat}
    {links after : Table ProjectContainer ProjectContainer.key}
    (h : setContainerRow db projectId containerId links = some after) :
    after.rows = links.rows ++ linkTo projectId containerId ∧
      ∀ id, containerId = some id → db.containers.Has id := by
  cases containerId with
  | none =>
      rw [setContainerRow, Option.some.injEq] at h
      subst h
      refine ⟨by simp [linkTo], ?_⟩
      intro id hid
      cases hid
  | some id =>
      rw [setContainerRow] at h
      split at h
      · rename_i hcontainer
        refine ⟨by simp [(insert_eq_some h).2, linkTo], ?_⟩
        intro id' hid
        obtain rfl := Option.some.inj hid
        exact has_iff_get?.mpr hcontainer
      · cases h

/-- The project is left with this workspace, the others with theirs. -/
structure Binds (db : ProjectTables) (projectId : Nat) (containerId : Option Nat)
    (links : List ProjectContainer) : Prop where
  perm : links.Perm (linksElsewhere db projectId ++ linkTo projectId containerId)
  there : ∀ id, containerId = some id → db.containers.Has id

/-- When the project has just this link, nothing is written. -/
theorem binds_of_same {db : ProjectTables} (hdb : Integrity db) {projectId : Nat}
    {containerId : Option Nat}
    (h : (db.links.rows.filter (fun link => decide (link.projectId = projectId))).map
      (fun link => some link.containerId) = [containerId]) :
    Binds db projectId containerId db.links.rows := by
  obtain ⟨link, hlinks, hcontainer⟩ := List.map_eq_singleton_iff.mp h
  have hlink : link ∈ db.links.rows ∧ decide (link.projectId = projectId) = true :=
    List.mem_filter.mp (by rw [hlinks]; exact List.mem_singleton_self link)
  have hproject : link.projectId = projectId := by simpa using hlink.2
  constructor
  · have hsplit := List.filter_append_perm
      (fun link : ProjectContainer => decide (link.projectId ≠ projectId)) db.links.rows
    have hrest : db.links.rows.filter
        (fun link => !decide (link.projectId ≠ projectId)) = linkTo projectId containerId := by
      have hsame : (fun link : ProjectContainer => !decide (link.projectId ≠ projectId)) =
          fun link => decide (link.projectId = projectId) := by
        funext link
        simp
      rw [hsame, hlinks, ← hcontainer, linkTo, ← hproject]
      rfl
    rw [hrest] at hsplit
    exact hsplit.symm
  · intro id hid
    rw [hid, Option.some.injEq] at hcontainer
    exact hcontainer ▸ (hdb.links link hlink.1).2

theorem binds_replaceContainer {db : ProjectTables} (hdb : Integrity db) {projectId : Nat}
    {containerId : Option Nat} {links : Table ProjectContainer ProjectContainer.key}
    (h : replaceContainer db projectId containerId = some links) :
    Binds db projectId containerId links.rows := by
  rw [replaceContainer] at h
  split at h
  · rename_i hsame
    rw [Option.some.injEq] at h
    exact h ▸ binds_of_same hdb hsame
  · obtain ⟨hrows, hthere⟩ := setContainerRow_rows h
    exact ⟨by rw [hrows]; exact List.Perm.refl _, hthere⟩

/-- No project of this number has a link yet. -/
theorem linksElsewhere_nextKey {db : ProjectTables} (hdb : Integrity db) :
    linksElsewhere db db.projects.nextKey = db.links.rows := by
  refine List.filter_eq_self.mpr ?_
  intro link hlink
  have hne : link.projectId ≠ db.projects.nextKey := by
    intro heq
    exact not_has_nextKey (heq ▸ (hdb.links link hlink).1)
  simpa using hne

theorem Binds.integrity {db : ProjectTables} (hdb : Integrity db) {projectId : Nat}
    {containerId : Option Nat} {links : List ProjectContainer}
    (h : Binds db projectId containerId links) :
    (∀ link ∈ links, (db.projects.Has link.projectId ∨ link.projectId = projectId) ∧
      db.containers.Has link.containerId) ∧
      (links.map ProjectContainer.projectId).Nodup := by
  constructor
  · intro link hlink
    rcases List.mem_append.mp (h.perm.mem_iff.mp hlink) with hold | hnew
    · have hrefers := hdb.links link (List.mem_filter.mp hold).1
      exact ⟨.inl hrefers.1, hrefers.2⟩
    · obtain ⟨hproject, hcontainer⟩ := mem_linkTo.mp hnew
      exact ⟨.inr hproject, h.there _ hcontainer⟩
  · rw [(h.perm.map ProjectContainer.projectId).nodup_iff, List.map_append, List.nodup_append]
    refine ⟨(List.Sublist.map _ List.filter_sublist).nodup hdb.oneContainer, ?_, ?_⟩
    · cases containerId with
      | none => exact List.nodup_nil
      | some id => exact List.nodup_cons.mpr ⟨List.not_mem_nil, List.nodup_nil⟩
    · intro id hid id' hid' heq
      obtain ⟨link, hlink, rfl⟩ := List.mem_map.mp hid
      obtain ⟨new, hnew, rfl⟩ := List.mem_map.mp hid'
      have hne : link.projectId ≠ projectId := by simpa using (List.mem_filter.mp hlink).2
      exact hne (heq.trans (mem_linkTo.mp hnew).1)

/-- The project's links are those it was left with. -/
theorem Binds.containerForProject {db after : ProjectTables} {projectId : Nat}
    {containerId : Option Nat} (h : Binds db projectId containerId after.links.rows) :
    containerForProject after projectId = containerId := by
  rw [ProjectWorkspaces.containerForProject]
  cases hfind : after.links.rows.find? (fun link => decide (link.projectId = projectId)) with
  | none =>
      cases containerId with
      | none => rfl
      | some id =>
          exfalso
          have hmem : ({ projectId, containerId := id } : ProjectContainer) ∈ after.links.rows :=
            h.perm.mem_iff.mpr (List.mem_append.mpr (.inr (mem_linkTo.mpr ⟨rfl, rfl⟩)))
          simpa using List.find?_eq_none.mp hfind _ hmem
  | some link =>
      have hproject : link.projectId = projectId := by simpa using List.find?_some hfind
      rcases List.mem_append.mp (h.perm.mem_iff.mp (List.mem_of_find?_eq_some hfind)) with hold | hnew
      · exact absurd hproject (by simpa using (List.mem_filter.mp hold).2)
      · exact (mem_linkTo.mp hnew).2.symm

/-! ### Writes keep the references -/

/-- The sessions after an update of their project. -/
theorem mem_syncSessions {db : ProjectTables} {projectId : Nat} {containerId : Option Nat}
    {row : SessionRow} :
    row ∈ (syncSessions db projectId containerId).rows ↔
      ∃ old ∈ db.sessions.rows, (if decide (old.projectId = some projectId) then
        { old with
          selectedContainerId := containerId
          selectedGeneration := generationOf db containerId }
        else old) = row :=
  mem_updateWhere

/-- What a new project brings. -/
theorem commitCreateProject_eq_some {db after : ProjectTables} {request : ProjectRequest}
    (hdb : Integrity db) (h : commitCreateProject db request = some after) :
    Binds db db.projects.nextKey request.sandboxContainerId after.links.rows ∧
      ∃ owners links, setOwnerRows db db.projects.nextKey 0 request.ownerUserIds db.owners =
          some owners ∧ after = { db with
            projects := db.projects.append (fun id => { id, canceled := false }) (fun _ => rfl)
            owners := owners
            links := links } := by
  obtain ⟨owners, howners, hrest⟩ := Option.bind_eq_some_iff.mp h
  obtain ⟨links, hlinks, rfl⟩ := Option.map_eq_some_iff.mp hrest
  obtain ⟨hrows, hthere⟩ := setContainerRow_rows hlinks
  refine ⟨⟨?_, hthere⟩, owners, links, howners, rfl⟩
  rw [linksElsewhere_nextKey hdb]
  exact List.Perm.of_eq hrows

/-- What an update does to a project. -/
theorem commitUpdateProject_eq_some {db after : ProjectTables} {projectId : Nat}
    {request : ProjectRequest} (hdb : Integrity db)
    (h : commitUpdateProject db projectId request = some after) :
    db.projects.Has projectId ∧
      Binds db projectId request.sandboxContainerId after.links.rows ∧
      ∃ owners links, replaceOwners db projectId request.ownerUserIds = some owners ∧
        after = { db with
          owners := owners
          links := links
          sessions := syncSessions db projectId request.sandboxContainerId } := by
  rw [commitUpdateProject] at h
  split at h
  · rename_i hproject
    obtain ⟨owners, howners, hrest⟩ := Option.bind_eq_some_iff.mp h
    obtain ⟨links, hlinks, rfl⟩ := Option.map_eq_some_iff.mp hrest
    exact ⟨has_iff_get?.mpr hproject, binds_replaceContainer hdb hlinks, owners, links, howners, rfl⟩
  · cases h

theorem Integrity.createProject {db after : ProjectTables} {request : ProjectRequest}
    (hdb : Integrity db) (h : commitCreateProject db request = some after) : Integrity after := by
  obtain ⟨hbinds, owners, links, howners, rfl⟩ := commitCreateProject_eq_some hdb h
  have hold : ∀ projectId, db.projects.Has projectId → (db.projects.append
      (fun id => { id, canceled := false }) (fun _ => rfl)).Has projectId :=
    fun _ hproject => hproject.append (fun _ => rfl)
  have hnew : (db.projects.append (fun id => { id, canceled := false })
      (fun _ => rfl)).Has db.projects.nextKey := has_append_nextKey (fun _ => rfl)
  obtain ⟨hlinks, hone⟩ := hbinds.integrity hdb
  constructor
  · intro owner howner
    rcases mem_setOwnerRows howners howner with hmem | ⟨hproject, huser⟩
    · exact ⟨hold _ (hdb.owners owner hmem).1, (hdb.owners owner hmem).2⟩
    · exact ⟨hproject ▸ hnew, huser⟩
  · intro link hlink
    obtain ⟨hproject, hcontainer⟩ := hlinks link hlink
    refine ⟨?_, hcontainer⟩
    rcases hproject with hproject | hproject
    · exact hold _ hproject
    · exact hproject ▸ hnew
  · intro row hrow projectId hproject
    exact hold _ (hdb.sessions row hrow projectId hproject)
  · exact hdb.containers
  · exact hone

theorem Integrity.updateProject {db after : ProjectTables} {projectId : Nat}
    {request : ProjectRequest} (hdb : Integrity db)
    (h : commitUpdateProject db projectId request = some after) : Integrity after := by
  obtain ⟨hproject, hbinds, owners, links, howners, rfl⟩ := commitUpdateProject_eq_some hdb h
  obtain ⟨hlinks, hone⟩ := hbinds.integrity hdb
  constructor
  · intro owner howner
    rcases mem_setOwnerRows howners howner with hmem | ⟨howns, huser⟩
    · exact hdb.owners owner (mem_keepWhere.mp hmem).1
    · exact ⟨howns ▸ hproject, huser⟩
  · intro link hlink
    obtain ⟨howner, hcontainer⟩ := hlinks link hlink
    refine ⟨?_, hcontainer⟩
    rcases howner with hother | heq
    · exact hother
    · exact heq ▸ hproject
  · intro row hrow id hid
    obtain ⟨old, hold, rfl⟩ := mem_syncSessions.mp hrow
    refine hdb.sessions old hold id ?_
    split at hid
    · exact hid
    · exact hid
  · exact hdb.containers
  · exact hone

theorem Integrity.deleteProject {db : ProjectTables} {projectId : Nat} (hdb : Integrity db)
    (hfree : ∀ row ∈ db.sessions.rows, row.projectId ≠ some projectId) :
    Integrity { db with
      projects := db.projects.keepWhere (fun project => decide (project.id ≠ projectId))
      owners := db.owners.keepWhere (fun owner => decide (owner.projectId ≠ projectId))
      links := db.links.keepWhere (fun link => decide (link.projectId ≠ projectId)) } := by
  have hkept : ∀ id, id ≠ projectId → db.projects.Has id →
      (db.projects.keepWhere (fun project => decide (project.id ≠ projectId))).Has id := by
    intro id hne hproject
    refine hproject.keepWhere ?_
    intro project heq
    simpa [heq] using hne
  constructor
  · intro owner howner
    obtain ⟨hmem, hne⟩ := mem_keepWhere.mp howner
    obtain ⟨hproject, huser⟩ := hdb.owners owner hmem
    exact ⟨hkept _ (by simpa using hne) hproject, huser⟩
  · intro link hlink
    obtain ⟨hmem, hne⟩ := mem_keepWhere.mp hlink
    obtain ⟨hproject, hcontainer⟩ := hdb.links link hmem
    exact ⟨hkept _ (by simpa using hne) hproject, hcontainer⟩
  · intro row hrow id hid
    have hne : id ≠ projectId := by
      rintro rfl
      exact hfree row hrow hid
    exact hkept id hne (hdb.sessions row hrow id hid)
  · exact hdb.containers
  · exact (List.Sublist.map _ List.filter_sublist).nodup hdb.oneContainer

theorem Integrity.deleteContainer {db : ProjectTables} (containerId : Nat) (hdb : Integrity db) :
    Integrity { db with
      containers := db.containers.keepWhere (fun container => decide (container.id ≠ containerId))
      links := db.links.keepWhere (fun link => decide (link.containerId ≠ containerId)) } := by
  refine ⟨hdb.owners, ?_, hdb.sessions, ?_,
    (List.Sublist.map _ List.filter_sublist).nodup hdb.oneContainer⟩
  · intro link hlink
    obtain ⟨hmem, hne⟩ := mem_keepWhere.mp hlink
    obtain ⟨hproject, hcontainer⟩ := hdb.links link hmem
    refine ⟨hproject, hcontainer.keepWhere ?_⟩
    intro container heq
    simpa [heq] using hne
  · intro container hmem
    exact hdb.containers container (mem_keepWhere.mp hmem).1

theorem Integrity.deleteUser {db : ProjectTables} {userId : Nat} (hdb : Integrity db)
    (hfree : ∀ container ∈ db.containers.rows, container.ownerId ≠ userId) :
    Integrity { db with
      users := db.users.keepWhere (fun user => decide (user.id ≠ userId))
      owners := db.owners.keepWhere (fun owner => decide (owner.userId ≠ userId)) } := by
  have hkept : ∀ id, id ≠ userId → db.users.Has id →
      (db.users.keepWhere (fun user => decide (user.id ≠ userId))).Has id := by
    intro id hne huser
    refine huser.keepWhere ?_
    intro user heq
    simpa [heq] using hne
  refine ⟨?_, hdb.links, hdb.sessions, ?_, hdb.oneContainer⟩
  · intro owner howner
    obtain ⟨hmem, hne⟩ := mem_keepWhere.mp howner
    obtain ⟨hproject, huser⟩ := hdb.owners owner hmem
    exact ⟨hproject, hkept _ (by simpa using hne) huser⟩
  · intro container hmem
    exact hkept _ (hfree container hmem) (hdb.containers container hmem)

/-- Sessions whose project is there. -/
theorem Integrity.withSessions {db : ProjectTables} (hdb : Integrity db)
    {sessions : Table SessionRow SessionRow.sessionId}
    (h : ∀ row ∈ sessions.rows, ∀ projectId, row.projectId = some projectId →
      db.projects.Has projectId) : Integrity { db with sessions := sessions } :=
  ⟨hdb.owners, hdb.links, h, hdb.containers, hdb.oneContainer⟩

/-- **Every write keeps the references.** -/
theorem Integrity.commit {db after : ProjectTables} {write : PendingWrite} (hdb : Integrity db)
    (h : write.commit db = some after) : Integrity after := by
  cases write with
  | createProject request => exact hdb.createProject h
  | updateProject projectId request => exact hdb.updateProject h
  | setCanceled projectId canceled =>
      obtain rfl := Option.some.inj h
      have hkept : ∀ id, db.projects.Has id → (db.projects.updateWhere
          (fun project => decide (project.id = projectId))
          (fun project => { project with canceled := canceled }) (fun _ => rfl)).Has id :=
        fun _ hproject => hproject.updateWhere (by intro _; rfl)
      exact ⟨fun owner howner => ⟨hkept _ (hdb.owners owner howner).1, (hdb.owners owner howner).2⟩,
        fun link hlink => ⟨hkept _ (hdb.links link hlink).1, (hdb.links link hlink).2⟩,
        fun row hrow id hid => hkept _ (hdb.sessions row hrow id hid), hdb.containers,
        hdb.oneContainer⟩
  | deleteProject projectId =>
      rw [PendingWrite.commit] at h
      split at h
      · cases h
      · rename_i hfree
        obtain rfl := Option.some.inj h
        refine hdb.deleteProject ?_
        intro row hrow heq
        exact hfree (List.any_eq_true.mpr ⟨row, hrow, by simpa using heq⟩)
  | createSession row =>
      rw [PendingWrite.commit] at h
      split at h
      · rename_i hproject
        obtain ⟨sessions, hinsert, rfl⟩ := Option.map_eq_some_iff.mp h
        refine hdb.withSessions ?_
        intro row' hrow' projectId hid
        rcases (mem_of_insert hinsert).mp hrow' with hold | rfl
        · exact hdb.sessions row' hold projectId hid
        · rw [hid] at hproject
          exact has_iff_get?.mpr (by simpa using hproject)
      · cases h
  | selectContainer loaded containerId generation =>
      obtain rfl := Option.some.inj h
      refine hdb.withSessions ?_
      intro row hrow projectId hid
      obtain ⟨old, hold, rfl⟩ := mem_updateWhere.mp hrow
      refine hdb.sessions old hold projectId ?_
      split at hid
      · exact hid
      · exact hid
  | deleteSession sessionId =>
      obtain rfl := Option.some.inj h
      exact hdb.withSessions (fun row hrow => hdb.sessions row (mem_keepWhere.mp hrow).1)
  | createContainer ownerId updatedAt =>
      rw [PendingWrite.commit] at h
      split at h
      · rename_i huser
        obtain rfl := Option.some.inj h
        refine ⟨hdb.owners, ?_, hdb.sessions, ?_, hdb.oneContainer⟩
        · intro link hlink
          exact ⟨(hdb.links link hlink).1, (hdb.links link hlink).2.append (fun _ => rfl)⟩
        · intro container hmem
          rcases (mem_append (fun _ => rfl)).mp hmem with hold | rfl
          · exact hdb.containers container hold
          · exact has_iff_get?.mpr huser
      · cases h
  | setStatus loaded status updatedAt =>
      obtain rfl := Option.some.inj h
      refine ⟨hdb.owners, ?_, hdb.sessions, ?_, hdb.oneContainer⟩
      · intro link hlink
        exact ⟨(hdb.links link hlink).1, (hdb.links link hlink).2.updateWhere (by intro _; rfl)⟩
      · intro container hmem
        obtain ⟨old, hold, rfl⟩ := updated_of_mem (by intro _; rfl) hmem
        have howner := hdb.containers old hold
        split
        · exact howner
        · exact howner
  | deleteContainer containerId =>
      obtain rfl := Option.some.inj h
      exact hdb.deleteContainer containerId
  | createUser =>
      obtain rfl := Option.some.inj h
      refine ⟨?_, hdb.links, hdb.sessions, ?_, hdb.oneContainer⟩
      · intro owner howner
        exact ⟨(hdb.owners owner howner).1, (hdb.owners owner howner).2.append (fun _ => rfl)⟩
      · intro container hmem
        exact (hdb.containers container hmem).append (fun _ => rfl)
  | deleteUser userId =>
      rw [PendingWrite.commit] at h
      split at h
      · cases h
      · rename_i hfree
        obtain rfl := Option.some.inj h
        refine hdb.deleteUser ?_
        intro container hmem heq
        exact hfree (List.any_eq_true.mpr ⟨container, hmem, by simpa using heq⟩)

/-! ### Runs -/

/-- What a step does: an operation's check adds its write or nothing, and a write that
succeeds changes the tables. -/
theorem step_cases {s t : ProjectState} {action : ProjectAction}
    (h : projectMachine.step s action = some t) :
    (∃ operation, action = .begin operation ∧ t.db = s.db ∧
        (t.inFlight = s.inFlight ∨ ∃ write, operation.read s.db = some write ∧
          t.inFlight = s.inFlight ++ [write])) ∨
      ∃ position write, action = .commit position ∧ s.inFlight[position]? = some write ∧
        t.inFlight = s.inFlight.eraseIdx position ∧
        (write.commit s.db = none ∧ t.db = s.db ∨ write.commit s.db = some t.db) := by
  cases action with
  | begin operation =>
      refine .inl ⟨operation, rfl, ?_⟩
      simp only [projectMachine] at h
      split at h
      · obtain rfl := Option.some.inj h
        exact ⟨rfl, .inl rfl⟩
      · rename_i write hread
        obtain rfl := Option.some.inj h
        exact ⟨rfl, .inr ⟨write, hread, rfl⟩⟩
  | commit position =>
      simp only [projectMachine] at h
      split at h
      · cases h
      · rename_i write hwrite
        obtain rfl := Option.some.inj h
        refine .inr ⟨position, write, rfl, hwrite, rfl, ?_⟩
        cases hcommit : write.commit s.db with
        | none => exact .inl ⟨rfl, rfl⟩
        | some after => exact .inr rfl

theorem integrity_step {s t : ProjectState} {action : ProjectAction} (hs : Integrity s.db)
    (h : projectMachine.step s action = some t) : Integrity t.db := by
  rcases step_cases h with ⟨_, _, hdb, _⟩ | ⟨_, write, _, _, _, ⟨_, hdb⟩ | hcommit⟩
  · exact hdb ▸ hs
  · exact hdb ▸ hs
  · exact hs.commit hcommit

/-- After an update: the project has the requested workspace, its sessions have selected
it, and the others are as they were. -/
structure Follows (db after : ProjectTables) (projectId : Nat) (containerId : Option Nat) :
    Prop where
  bound : containerForProject after projectId = containerId
  selected : ∀ row ∈ after.sessions.rows, row.projectId = some projectId →
    row.selectedContainerId = containerId ∧ row.selectedGeneration = generationOf after containerId
  others : ∀ row, row.projectId ≠ some projectId →
    (row ∈ after.sessions.rows ↔ row ∈ db.sessions.rows)

theorem follows_updateProject {db after : ProjectTables} {projectId : Nat}
    {request : ProjectRequest} (hdb : Integrity db)
    (h : commitUpdateProject db projectId request = some after) :
    Follows db after projectId request.sandboxContainerId := by
  obtain ⟨_, hbinds, owners, links, _, rfl⟩ := commitUpdateProject_eq_some hdb h
  refine ⟨hbinds.containerForProject, ?_, ?_⟩
  · intro row hrow hproject
    obtain ⟨old, _, rfl⟩ := mem_syncSessions.mp hrow
    by_cases hold : old.projectId = some projectId
    · rw [if_pos (decide_eq_true hold)]
      exact ⟨rfl, rfl⟩
    · rw [if_neg (by simpa using hold)] at hproject
      exact absurd hproject hold
  · intro row hne
    constructor
    · intro hrow
      obtain ⟨old, hold, rfl⟩ := mem_syncSessions.mp hrow
      by_cases heq : old.projectId = some projectId
      · rw [if_pos (decide_eq_true heq)] at hne
        exact absurd heq hne
      · rw [if_neg (by simpa using heq)]
        exact hold
    · intro hrow
      exact mem_syncSessions.mpr ⟨row, hrow, by rw [if_neg (by simpa using hne)]⟩

/-- A request for a workspace, or for none. -/
def siteRequest (containerId : Option Nat) : ProjectRequest where
  metadata := { name := "site", assets := [{ type := .domain, identifier := "a.example" }] }
  ownerUserIds := [1]
  sandboxContainerId := containerId

/-- An administrator creates two projects with one workspace; both requests are checked
before either is written. -/
def sharedRun : List ProjectAction :=
  let create : Operation := .createWorkProject (siteRequest (some 1)) { id := 1, isAdmin := true }
  [.begin (.writes .createUser), .commit 0, .begin (.writes (.createContainer 1 5)), .commit 0,
    .begin create, .begin create, .commit 0, .commit 0]

/-- No workspace is bound to two projects. -/
def Exclusive (db : ProjectTables) : Prop := (db.links.rows.map ProjectContainer.containerId).Nodup

/-- The workspace that a write binds, and to which project unless that is a new one. -/
def PendingWrite.binding : PendingWrite → Option (Option Nat × Nat)
  | .createProject request => request.sandboxContainerId.map (Prod.mk none)
  | .updateProject projectId request => request.sandboxContainerId.map (Prod.mk (some projectId))
  | _ => none

/-- The workspace a write would bind has another project. -/
def PendingWrite.isTaken (db : ProjectTables) (write : PendingWrite) : Bool :=
  write.binding.any (fun binding => db.links.rows.any (bindsElsewhere binding.2 binding.1))

/-- A write that succeeds, and binds a workspace another project has. -/
def takesBound (s : ProjectState) : ProjectAction → Bool
  | .begin _ => false
  | .commit position =>
      (s.inFlight[position]?).any (fun write => (write.commit s.db).isSome && write.isTaken s.db)

theorem any_bindsElsewhere {links : List ProjectContainer} {containerId : Nat}
    {projectId : Option Nat} :
    links.any (bindsElsewhere containerId projectId) = false ↔
      ∀ link ∈ links, some link.projectId ≠ projectId → link.containerId ≠ containerId := by
  simp only [List.any_eq_false, bindsElsewhere, Bool.and_eq_true, decide_eq_true_eq, not_and]
  constructor
  · intro h link hlink hproject hcontainer
    exact h link hlink hcontainer hproject
  · intro h link hlink hcontainer hproject
    exact h link hlink hproject hcontainer

theorem isTaken_eq_false {db : ProjectTables} {write : PendingWrite} :
    write.isTaken db = false ↔ ∀ projectId containerId,
      write.binding = some (projectId, containerId) → ∀ link ∈ db.links.rows,
        some link.projectId ≠ projectId → link.containerId ≠ containerId := by
  rw [PendingWrite.isTaken]
  cases hbinding : write.binding with
  | none =>
      refine iff_of_true rfl ?_
      intro projectId containerId h
      cases h
  | some binding =>
      rw [Option.any_some, any_bindsElsewhere]
      constructor
      · intro h projectId containerId heq
        obtain rfl := Option.some.inj heq
        exact h
      · intro h
        exact h binding.1 binding.2 rfl

/-- The workspace stays with one project exactly when no other one has it. -/
theorem Binds.exclusive {db : ProjectTables} (hx : Exclusive db) {projectId : Nat}
    {containerId : Option Nat} {links : List ProjectContainer}
    (h : Binds db projectId containerId links) :
    (links.map ProjectContainer.containerId).Nodup ↔
      ∀ id, containerId = some id → ∀ link ∈ db.links.rows, link.projectId ≠ projectId →
        link.containerId ≠ id := by
  rw [(h.perm.map ProjectContainer.containerId).nodup_iff, List.map_append, List.nodup_append]
  constructor
  · rintro ⟨_, _, hdisjoint⟩ id rfl link hlink hproject
    exact hdisjoint _
      (List.mem_map_of_mem (List.mem_filter.mpr ⟨hlink, by simpa using hproject⟩)) id
      (List.mem_map.mpr ⟨⟨projectId, id⟩, mem_linkTo.mpr ⟨rfl, rfl⟩, rfl⟩)
  · intro hfree
    refine ⟨(List.Sublist.map _ List.filter_sublist).nodup hx, ?_, ?_⟩
    · cases containerId with
      | none => exact List.nodup_nil
      | some id => exact List.nodup_cons.mpr ⟨List.not_mem_nil, List.nodup_nil⟩
    · intro id hid id' hid' heq
      obtain ⟨link, hlink, rfl⟩ := List.mem_map.mp hid
      obtain ⟨new, hnew, rfl⟩ := List.mem_map.mp hid'
      obtain ⟨hmem, hne⟩ := List.mem_filter.mp hlink
      exact hfree _ (mem_linkTo.mp hnew).2 link hmem (by simpa using hne) heq

/-- What a write does to the links: it binds a workspace, or removes links or none. -/
theorem commit_links {db after : ProjectTables} {write : PendingWrite} (hdb : Integrity db)
    (h : write.commit db = some after) :
    (∃ projectId containerId, Binds db projectId containerId after.links.rows ∧
        (write.binding = containerId.map (Prod.mk (some projectId)) ∨
          projectId = db.projects.nextKey ∧ write.binding = containerId.map (Prod.mk none))) ∨
      after.links.rows.Sublist db.links.rows ∧ write.binding = none := by
  cases write with
  | createProject request =>
      exact .inl ⟨_, _, (commitCreateProject_eq_some hdb h).1, .inr ⟨rfl, rfl⟩⟩
  | updateProject projectId request =>
      exact .inl ⟨_, _, (commitUpdateProject_eq_some hdb h).2.1, .inl rfl⟩
  | deleteProject projectId =>
      rw [PendingWrite.commit] at h
      split at h
      · cases h
      · obtain rfl := Option.some.inj h
        exact .inr ⟨List.filter_sublist, rfl⟩
  | deleteContainer containerId =>
      obtain rfl := Option.some.inj h
      exact .inr ⟨List.filter_sublist, rfl⟩
  | createSession row =>
      rw [PendingWrite.commit] at h
      split at h
      · obtain ⟨sessions, _, rfl⟩ := Option.map_eq_some_iff.mp h
        exact .inr ⟨List.Sublist.refl _, rfl⟩
      · cases h
  | createContainer ownerId updatedAt =>
      rw [PendingWrite.commit] at h
      split at h
      · obtain rfl := Option.some.inj h
        exact .inr ⟨List.Sublist.refl _, rfl⟩
      · cases h
  | deleteUser userId =>
      rw [PendingWrite.commit] at h
      split at h
      · cases h
      · obtain rfl := Option.some.inj h
        exact .inr ⟨List.Sublist.refl _, rfl⟩
  | setCanceled projectId canceled =>
      obtain rfl := Option.some.inj h
      exact .inr ⟨List.Sublist.refl _, rfl⟩
  | selectContainer loaded containerId generation =>
      obtain rfl := Option.some.inj h
      exact .inr ⟨List.Sublist.refl _, rfl⟩
  | deleteSession sessionId =>
      obtain rfl := Option.some.inj h
      exact .inr ⟨List.Sublist.refl _, rfl⟩
  | setStatus loaded status updatedAt =>
      obtain rfl := Option.some.inj h
      exact .inr ⟨List.Sublist.refl _, rfl⟩
  | createUser =>
      obtain rfl := Option.some.inj h
      exact .inr ⟨List.Sublist.refl _, rfl⟩

/-- **One write**: the workspaces stay exclusive exactly if it does not take one. -/
theorem exclusive_commit {db after : ProjectTables} {write : PendingWrite} (hdb : Integrity db)
    (hx : Exclusive db) (h : write.commit db = some after) :
    Exclusive after ↔ write.isTaken db = false := by
  rcases commit_links hdb h with ⟨projectId, containerId, hbinds, hbinding⟩ | ⟨hfewer, hbinding⟩
  · rw [Exclusive, hbinds.exclusive hx, isTaken_eq_false]
    have hnew : projectId = db.projects.nextKey → ∀ link ∈ db.links.rows,
        link.projectId ≠ projectId := by
      rintro rfl link hlink heq
      exact not_has_nextKey (heq ▸ (hdb.links link hlink).1)
    cases containerId with
    | none => rcases hbinding with hbinding | ⟨_, hbinding⟩ <;> simp [hbinding]
    | some id =>
        rcases hbinding with hbinding | ⟨hproject, hbinding⟩
        · simp [hbinding]
        · have hothers := hnew hproject
          simp only [hbinding, Option.map_some, Option.some.injEq, Prod.mk.injEq]
          constructor
          · rintro hfree _ _ ⟨rfl, rfl⟩ link hlink _
            exact hfree id rfl link hlink (hothers link hlink)
          · rintro hfree _ rfl link hlink _
            exact hfree none id ⟨rfl, rfl⟩ link hlink (by simp)
  · refine iff_of_true ((hfewer.map ProjectContainer.containerId).nodup hx) ?_
    rw [isTaken_eq_false, hbinding]
    intro projectId containerId heq
    cases heq

theorem exclusive_step {s t : ProjectState} {action : ProjectAction} (hs : Integrity s.db)
    (hx : Exclusive s.db) (h : projectMachine.step s action = some t) :
    Exclusive t.db ↔ takesBound s action = false := by
  rcases step_cases h with ⟨_, rfl, hdb, _⟩ | ⟨_, write, rfl, hwrite, _, ⟨hfails, hdb⟩ | hcommit⟩
  · exact iff_of_true (hdb ▸ hx) rfl
  · refine iff_of_true (hdb ▸ hx) ?_
    rw [takesBound, hwrite, Option.any_some, hfails]
    rfl
  · rw [takesBound, hwrite, Option.any_some, hcommit, Option.isSome_some, Bool.true_and]
    exact exclusive_commit hs hx hcommit

/-! ### One operation at a time for a workspace -/

/-- The workspaces that the operations in flight are about to bind. -/
def workspacesInFlight (writes : List PendingWrite) : List Nat :=
  writes.filterMap (fun write => write.binding.map Prod.snd)

/-- An operation begins when none in flight is about to bind its workspace. -/
def startsAlone (s : ProjectState) : ProjectAction → Bool
  | .begin operation => ((operation.read s.db).bind PendingWrite.binding).all
      (fun binding => decide (binding.2 ∉ workspacesInFlight s.inFlight))
  | .commit _ => true

/-- A request that was not refused. -/
theorem bindingError_of_valid {db : ProjectTables} {user : AuthUser} {projectId : Option Nat}
    {request : ProjectRequest} (h : validationError db user projectId request = "") :
    bindingError db user projectId request = "" := by
  rw [validationError, WorkProject.validateMetadataForWrite] at h
  split at h
  · rename_i hstatic
    exact absurd h hstatic
  · exact h

/-- A workspace that may be bound has no other project. -/
theorem free_of_bindingError {db : ProjectTables} {user : AuthUser} {projectId : Option Nat}
    {request : ProjectRequest} (h : bindingError db user projectId request = "") {containerId : Nat}
    (hcontainer : request.sandboxContainerId = some containerId) :
    db.links.rows.any (bindsElsewhere containerId projectId) = false := by
  rw [bindingError] at h
  split at h
  · exact absurd (congrArg String.length h) (by rw [String.length_append]; simp)
  · rw [hcontainer] at h
    simp only [containerError] at h
    split at h
    · exact absurd h (by decide)
    · split at h
      · exact absurd h (by decide)
      · split at h
        · exact absurd h (by decide)
        · rename_i hfree
          simpa using hfree

/-- An operation goes on to a write that takes no workspace from a project. -/
theorem isTaken_read {db : ProjectTables} {operation : Operation} {write : PendingWrite}
    (h : operation.read db = some write) : write.isTaken db = false := by
  have hchecked : ∀ user projectId request, validationError db user projectId request = "" →
      write.binding = request.sandboxContainerId.map (Prod.mk projectId) →
      write.isTaken db = false := by
    intro user projectId request hvalid hbinding
    rw [PendingWrite.isTaken, hbinding]
    cases hcontainer : request.sandboxContainerId with
    | none => rfl
    | some id => exact free_of_bindingError (bindingError_of_valid hvalid) hcontainer
  have hfree : write.binding = none → write.isTaken db = false := by
    intro hnone
    rw [PendingWrite.isTaken, hnone]
    rfl
  cases operation with
  | createWorkProject request user =>
      rw [Operation.read] at h
      split at h
      · rename_i hvalid
        obtain rfl := Option.some.inj h
        exact hchecked user none request hvalid rfl
      · cases h
  | updateWorkProjectMetadata projectId request user =>
      rw [Operation.read] at h
      split at h
      · rename_i hvalid
        obtain rfl := Option.some.inj h
        exact hchecked user (some projectId) request hvalid.2 rfl
      · cases h
  | cancelWorkProject projectId =>
      obtain ⟨project, _, hwrite⟩ := Option.bind_eq_some_iff.mp h
      split at hwrite
      · cases hwrite
      · obtain rfl := Option.some.inj hwrite
        exact hfree rfl
  | retryWorkProject projectId =>
      obtain ⟨project, _, hwrite⟩ := Option.bind_eq_some_iff.mp h
      split at hwrite
      · obtain rfl := Option.some.inj hwrite
        exact hfree rfl
      · cases hwrite
  | createWorkProjectSession sessionId projectId user =>
      rw [Operation.read] at h
      split at h
      · obtain ⟨project, _, hwrite⟩ := Option.bind_eq_some_iff.mp h
        split at hwrite
        · cases hwrite
        · obtain rfl := Option.some.inj hwrite
          exact hfree rfl
      · cases h
  | writes unchecked =>
      rw [Operation.read] at h
      split at h
      · rename_i hunchecked
        obtain rfl := Option.some.inj h
        refine hfree ?_
        cases unchecked with
        | createProject request => cases hunchecked
        | updateProject projectId request => cases hunchecked
        | _ => rfl
      · cases h

/-- The operations in flight are about to bind different workspaces, each of which has no
other project. -/
structure Apart (s : ProjectState) : Prop where
  integrity : Integrity s.db
  free : ∀ write ∈ s.inFlight, write.isTaken s.db = false
  distinct : (workspacesInFlight s.inFlight).Nodup

/-- A write takes no workspace from an operation that is about to bind another one. -/
theorem isTaken_commit {db after : ProjectTables} {write other : PendingWrite}
    (hdb : Integrity db) (h : write.commit db = some after) (hother : other.isTaken db = false)
    (hdiffers : ∀ binding, write.binding = some binding → ∀ binding', other.binding = some binding' →
      binding.2 ≠ binding'.2) : other.isTaken after = false := by
  rw [isTaken_eq_false] at hother ⊢
  intro projectId containerId hbinding link hlink hproject
  rcases commit_links hdb h with ⟨bound, container, hbinds, hwrite⟩ | ⟨hfewer, _⟩
  · rcases List.mem_append.mp (hbinds.perm.mem_iff.mp hlink) with hold | hnew
    · exact hother projectId containerId hbinding link (List.mem_filter.mp hold).1 hproject
    · obtain ⟨_, rfl⟩ := mem_linkTo.mp hnew
      rcases hwrite with hwrite | ⟨_, hwrite⟩
      · exact hdiffers _ hwrite _ hbinding
      · exact hdiffers _ hwrite _ hbinding
  · exact hother projectId containerId hbinding link (hfewer.subset hlink) hproject

theorem Apart.step {s t : ProjectState} {action : ProjectAction} (hs : Apart s)
    (halone : startsAlone s action = true) (h : projectMachine.step s action = some t) :
    Apart t := by
  have hintegrity := integrity_step hs.integrity h
  rcases step_cases h with
    ⟨operation, rfl, hdb, hflight⟩ | ⟨position, write, rfl, hwrite, hflight, hcommit⟩
  · rcases hflight with hflight | ⟨write, hread, hflight⟩
    · exact ⟨hintegrity, by rw [hflight, hdb]; exact hs.free, by rw [hflight]; exact hs.distinct⟩
    · refine ⟨hintegrity, ?_, ?_⟩
      · rw [hflight, hdb]
        intro other hother
        rcases List.mem_append.mp hother with hold | hnew
        · exact hs.free other hold
        · obtain rfl := List.mem_singleton.mp hnew
          exact isTaken_read hread
      · rw [hflight, workspacesInFlight, List.filterMap_append, List.nodup_append]
        refine ⟨hs.distinct, ?_, ?_⟩
        · cases hbinding : write.binding <;> simp [hbinding]
        · intro id hid id' hid' heq
          obtain ⟨only, honly, hbinding⟩ := List.mem_filterMap.mp hid'
          obtain rfl := List.mem_singleton.mp honly
          obtain ⟨binding, hbinds, rfl⟩ := Option.map_eq_some_iff.mp hbinding
          rw [startsAlone, hread, Option.bind_some, hbinds, Option.all_some,
            decide_eq_true_eq] at halone
          exact halone (heq ▸ hid)
  · -- the write that was committed, and those still in flight
    obtain ⟨hlt, hget⟩ := List.getElem?_eq_some_iff.mp hwrite
    have hperm : (write :: t.inFlight).Perm s.inFlight := by
      rw [hflight, ← hget]
      exact List.getElem_cons_eraseIdx_perm hlt
    have hdistinct : (workspacesInFlight (write :: t.inFlight)).Nodup :=
      ((hperm.filterMap _).nodup_iff).mpr hs.distinct
    refine ⟨hintegrity, ?_, ?_⟩
    · intro other hother
      have hfree := hs.free other (hperm.mem_iff.mp (List.mem_cons_of_mem _ hother))
      rcases hcommit with ⟨_, hdb⟩ | hcommit
      · exact hdb ▸ hfree
      · refine isTaken_commit hs.integrity hcommit hfree ?_
        intro binding hbinding binding' hbinding' heq
        rw [workspacesInFlight, List.filterMap_cons_some (by rw [hbinding]; rfl),
          List.nodup_cons] at hdistinct
        exact hdistinct.1 (List.mem_filterMap.mpr ⟨other, hother, by rw [hbinding', heq]; rfl⟩)
    · exact (List.Sublist.filterMap _ (List.sublist_cons_self write t.inFlight)).nodup hdistinct

theorem Apart.takesBound {s : ProjectState} (hs : Apart s) (action : ProjectAction) :
    takesBound s action = false := by
  cases action with
  | begin operation => rfl
  | commit position =>
      rw [ProjectWorkspaces.takesBound]
      cases hwrite : s.inFlight[position]? with
      | none => rfl
      | some write =>
          rw [Option.any_some, hs.free write (List.mem_of_getElem? hwrite), Bool.and_false]

theorem apart_start : Apart {} where
  integrity := integrity_empty
  free := by intro write h; cases h
  distinct := List.nodup_nil

/-- **One project for a workspace.**  Along a run from the empty tables no workspace ever
has two projects exactly as long as no write binds one that another project has by then;
and none does when no two operations in flight are about to bind the same. -/
theorem exclusive_runs (acts : List ProjectAction) :
    (StepsMeet projectMachine (fun _ _ t => Exclusive t.db) {} acts ↔
        StepsMeet projectMachine (fun s action _ => takesBound s action = false) {} acts) ∧
      (StepsMeet projectMachine (fun s action _ => startsAlone s action = true) {} acts →
        StepsMeet projectMachine (fun _ _ t => Exclusive t.db) {} acts) := by
  have hexact : StepsMeet projectMachine (fun _ _ t => Exclusive t.db) {} acts ↔
      StepsMeet projectMachine (fun s action _ => takesBound s action = false) {} acts :=
    stepsMeet_kept_iff (I := fun s => Integrity s.db) (fun s action t hs h => integrity_step hs h)
      (fun s action t hs hx h => exclusive_step hs hx h) integrity_empty List.nodup_nil
  refine ⟨hexact, ?_⟩
  intro halone
  refine hexact.mpr ?_
  exact stepsMeet_of_invariant (I := Apart) (fun s action t hs halone h => hs.step halone h)
    (fun s action t hs _ _ => hs.takesBound action) apart_start halone

example : ((exec projectMachine {} sharedRun).map (fun s =>
    s.db.links.rows.map (fun link => (link.projectId, link.containerId)))) =
      some [(1, 1), (2, 1)] := by decide

end Workbench.ProjectWorkspaces
