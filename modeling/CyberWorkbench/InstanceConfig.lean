import CyberWorkbench.PythonValues
import Mathlib.Data.Rat.Defs

/-!
# Updating the configuration

`service/system_config/config`: an update is written to the file, then applied
to memory, to LightRAG and to the agent runtime; what fails undoes what came
before.  Memory is restored from a snapshot of it.  The file is restored from
what `read_config_file` made of it, with the names of the product and the
provider of the environment put in.

`update_atomic_iff`: a failed update changes nothing, and one that returns sets
file and memory to what was requested, exactly where reading the file changes
nothing, or no stage fails, or the agents are refused at the start.

Copies of values are the values.  The checks, the restarts and the rebuild are
given by their outcomes.
-/

namespace Workbench.SystemConfig

open PythonValues

/-! ### Dictionaries -/

section Dictionaries

variable {α β : Type}

/-- Two dictionaries are equal: they hold the same under every key. -/
def SameDict (a b : List (String × α)) : Prop := ∀ key, a.lookup key = b.lookup key

/-- `set(a) == set(b)`. -/
def SameKeys (a : List (String × α)) (b : List (String × β)) : Prop :=
  ∀ key, (a.lookup key).isSome = (b.lookup key).isSome

theorem lookup_isSome_mem {l : List (String × α)} {key : String}
    (h : (l.lookup key).isSome = true) : key ∈ l.map Prod.fst := by
  induction l with
  | nil => cases h
  | cons entry rest ih =>
      obtain ⟨k, value⟩ := entry
      rw [List.lookup_cons] at h
      by_cases hkey : key = k
      · simp [hkey]
      · rw [beq_false_of_ne hkey] at h
        exact List.mem_cons_of_mem _ (ih h)

theorem mem_lookup_isSome {l : List (String × α)} {key : String} (h : key ∈ l.map Prod.fst) :
    (l.lookup key).isSome = true := by
  induction l with
  | nil => cases h
  | cons entry rest ih =>
      obtain ⟨k, value⟩ := entry
      rw [List.lookup_cons]
      by_cases hkey : key = k
      · rw [hkey, beq_self_eq_true]
        rfl
      · rw [beq_false_of_ne hkey]
        exact ih (List.mem_of_ne_of_mem hkey h)

theorem lookup_eq_none_of_not_mem {l : List (String × α)} {key : String}
    (h : key ∉ l.map Prod.fst) : l.lookup key = none := by
  cases hlookup : l.lookup key with
  | none => rfl
  | some value => exact absurd (lookup_isSome_mem (by rw [hlookup]; rfl)) h

/-- Only the keys that are there need to be looked at. -/
theorem forall_keys_iff (a : List (String × α)) (b : List (String × β))
    {P : Option α → Option β → Prop} (hnone : P none none) :
    (∀ key ∈ a.map Prod.fst ++ b.map Prod.fst, P (a.lookup key) (b.lookup key)) ↔
      ∀ key, P (a.lookup key) (b.lookup key) := by
  refine ⟨fun h key => ?_, fun h key _ => h key⟩
  by_cases hkey : key ∈ a.map Prod.fst ++ b.map Prod.fst
  · exact h key hkey
  · rw [List.mem_append, not_or] at hkey
    rw [lookup_eq_none_of_not_mem hkey.1, lookup_eq_none_of_not_mem hkey.2]
    exact hnone

theorem sameDict_iff (a b : List (String × α)) :
    (∀ key ∈ a.map Prod.fst ++ b.map Prod.fst, a.lookup key = b.lookup key) ↔ SameDict a b :=
  forall_keys_iff a b (P := fun x y => x = y) rfl

theorem sameKeys_iff (a : List (String × α)) (b : List (String × β)) :
    (∀ key ∈ a.map Prod.fst ++ b.map Prod.fst, (a.lookup key).isSome = (b.lookup key).isSome) ↔
      SameKeys a b :=
  forall_keys_iff a b (P := fun x y => x.isSome = y.isSome) rfl

instance [DecidableEq α] (a b : List (String × α)) : Decidable (SameDict a b) :=
  decidable_of_iff _ (sameDict_iff a b)

instance (a : List (String × α)) (b : List (String × β)) : Decidable (SameKeys a b) :=
  decidable_of_iff _ (sameKeys_iff a b)

theorem SameDict.refl (a : List (String × α)) : SameDict a a := fun _ => rfl

theorem SameDict.symm {a b : List (String × α)} (h : SameDict a b) : SameDict b a :=
  fun key => (h key).symm

theorem SameDict.trans {a b c : List (String × α)} (h : SameDict a b) (h' : SameDict b c) :
    SameDict a c := fun key => (h key).trans (h' key)

/-- The values of a dictionary change, each with its key. -/
theorem lookup_mapValues (l : List (String × α)) (f : String → α → β) (key : String) :
    (l.map (fun entry => (entry.1, f entry.1 entry.2))).lookup key =
      (l.lookup key).map (f key) := by
  induction l with
  | nil => rfl
  | cons entry rest ih =>
      rw [List.map_cons, List.lookup_cons, List.lookup_cons]
      by_cases hkey : key = entry.1
      · rw [hkey, beq_self_eq_true]
        rfl
      · rw [beq_false_of_ne hkey]
        exact ih

end Dictionaries

/-! ### Configurations -/

/-- `AgentConfig`. -/
structure AgentConfig where
  code : String := ""
  name : String := ""
  description : String := ""
  baseUrl : String := ""
  apiKey : String := ""
  model : String := ""
  useResponses : Bool := false
  contextWindow : Nat := 1000000
  deriving DecidableEq, Repr

/-- `AgentPoolConfig`. -/
structure AgentPoolConfig where
  maxSize : Nat := 256
  ttlSeconds : Nat := 30 * 60
  sweepIntervalSeconds : Nat := 60
  deriving DecidableEq, Repr

/-- `AgentRuntimeConfig`. -/
structure AgentRuntimeConfig where
  mainMaxTurns : Nat := 1000
  subordinateMaxTurns : Nat := 1000
  modelStreamIdleTimeoutSeconds : Nat := 300
  reportRetentionSeconds : Nat := 3 * 24 * 60 * 60
  contextCompressionEnabled : Bool := true
  contextCompressionTriggerRatio : Rat := 9 / 10
  contextCompressionHardStopRatio : Rat := 98 / 100
  contextCompressionTargetRatio : Rat := 2 / 10
  contextBudgetModelCallRatio : Rat := 8 / 10
  contextCompressionPreserveRecentRatio : Rat := 25 / 100
  contextCompressionPreserveRecentItems : Nat := 20
  contextCompressionMinItems : Nat := 12
  contextCompressionSummaryMaxTokens : Nat := 8000
  deriving DecidableEq, Repr

/-- `PermissionMode`. -/
inductive PermissionMode where
  | normal
  | fullAccess
  deriving DecidableEq, Repr

/-- `PermissionConfig`. -/
structure PermissionConfig where
  mode : PermissionMode := .normal
  approvalTimeoutSeconds : Nat := 300
  deriving DecidableEq, Repr

/-- `LightRAGConfig`. -/
structure LightRAGConfig where
  embeddingApi : String := ""
  embeddingKey : String := ""
  embeddingModel : String := "text-embedding-3-small"
  embeddingDim : Nat := 1536
  llmApi : String := ""
  llmKey : String := ""
  llmModel : String := "gpt-5"
  graphMatches : Nat := 5
  chunkMatches : Nat := 10
  deriving DecidableEq, Repr

/-- `SystemConfig`. -/
structure SystemConfig where
  listenAddr : String := "127.0.0.1"
  listenPort : Int := 8000
  encryptKey : String
  deriving DecidableEq, Repr

/-- `DatabaseConfig`. -/
structure DatabaseConfig where
  url : String := ""
  filename : String := "zj.sqlite3"
  busyTimeoutMs : Nat := 5000
  poolPrePing : Bool := true
  deriving DecidableEq, Repr

/-- The five groups of settings: `InstanceConfigSchema`. -/
structure InstanceConfig where
  agents : List (String × AgentConfig) := []
  agentPool : AgentPoolConfig := {}
  agentRuntime : AgentRuntimeConfig := {}
  permissions : PermissionConfig := {}
  lightrag : LightRAGConfig := {}
  deriving Repr

/-- `GlobalConfig`. -/
structure GlobalConfig extends InstanceConfig where
  system : SystemConfig
  database : DatabaseConfig
  deriving Repr

/-- All five groups are equal. -/
structure InstanceConfig.Same (a b : InstanceConfig) : Prop where
  agents : SameDict a.agents b.agents
  agentPool : a.agentPool = b.agentPool
  agentRuntime : a.agentRuntime = b.agentRuntime
  permissions : a.permissions = b.permissions
  lightrag : a.lightrag = b.lightrag

/-- `UpdateAgentConfigRequest`. -/
structure UpdateAgentConfigRequest where
  name : String
  description : String
  baseUrl : String
  apiKey : String
  model : String
  useResponses : Bool
  contextWindow : Nat
  deriving DecidableEq, Repr

/-- `UpdateInstanceConfigRequest`. -/
structure UpdateInstanceConfigRequest where
  agents : List (String × UpdateAgentConfigRequest)
  agentPool : AgentPoolConfig
  agentRuntime : AgentRuntimeConfig
  permissions : PermissionConfig
  lightrag : LightRAGConfig
  deriving Repr

/-! ### Reading the file -/

/-- The environment variables of the provider. -/
structure ProviderEnvironment where
  openaiBaseUrl : String := ""
  openaiApiKey : String := ""
  openaiModel : String := ""
  deriving DecidableEq, Repr

/-- `str.lower` as far as the names it is compared with go. -/
def lowerName (text : String) : String := String.ofList (text.toList.map Char.toLower)

/-- The descriptions of `_apply_portable_branding`. -/
def brandedDescription : String → Option String
  | "cso" => some "首席安全协调 Agent，负责理解目标、编排专家、汇总结论与交付报告"
  | "cae" => some "代码审计 Agent，负责源码、依赖、配置与安全编码检查"
  | "cce" => some "密码与协议 Agent，负责密码学、协议与密钥管理分析"
  | "cie" => some "情报侦察 Agent，负责授权范围内的资产发现与信息收集"
  | "cpe" => some "安全测试 Agent，负责授权渗透测试与漏洞验证"
  | "cre" => some "逆向分析 Agent，负责二进制、固件与文件分析"
  | _ => none

def legacyDescriptions : List String :=
  ["Chief Security Officer", "Chief Audit Engineer", "Chief Cryptography Engineer",
    "Chief Intelligence Engineer", "Chief Penetration Engineer", "Chief Reverse Engineer"]

/-- `_apply_portable_branding` on one agent. -/
def brandAgent (code : String) (agent : AgentConfig) : AgentConfig :=
  { agent with
    name := if code = "cso" ∧ lowerName (strip agent.name) ∈ ["z3r0", "zj"] then "真君" else agent.name
    description :=
      match brandedDescription code with
      | some branded =>
          if strip agent.description ∈ legacyDescriptions then branded else agent.description
      | none => agent.description }

/-- A variable that is set takes the place of a setting. -/
def orSetting (variable_ setting : String) : String :=
  if strip variable_ = "" then setting else strip variable_

/-- `_apply_provider_environment` on one agent. -/
def provideAgent (env : ProviderEnvironment) (agent : AgentConfig) : AgentConfig :=
  { agent with
    baseUrl := orSetting env.openaiBaseUrl agent.baseUrl
    apiKey := orSetting env.openaiApiKey agent.apiKey
    model := orSetting env.openaiModel agent.model }

/-- `_apply_provider_environment` on the LightRAG settings. -/
def provideLightrag (env : ProviderEnvironment) (lightrag : LightRAGConfig) : LightRAGConfig :=
  { lightrag with
    embeddingApi := orSetting env.openaiBaseUrl lightrag.embeddingApi
    llmApi := orSetting env.openaiBaseUrl lightrag.llmApi
    embeddingKey := orSetting env.openaiApiKey lightrag.embeddingKey
    llmKey := orSetting env.openaiApiKey lightrag.llmKey
    llmModel := orSetting env.openaiModel lightrag.llmModel }

/-- `read_config_file`. -/
def readConfigFile (env : ProviderEnvironment) (file : GlobalConfig) : GlobalConfig :=
  { file with
    agents := file.agents.map (fun entry =>
      (entry.1, provideAgent env (brandAgent entry.1 entry.2)))
    lightrag := provideLightrag env file.lightrag }

/-! ### Applying -/

/-- What an exception is: `except Exception` does not catch a cancellation. -/
inductive Failure where
  | exception
  | cancelled
  deriving DecidableEq, Repr

/-- How the stages of an update come out: the status counts of LightRAG, its
restart, the rebuild of the agents, and the restart that undoes the first. -/
structure StageOutcomes where
  statusCounts : Except Failure (List Int)
  restart : Except Failure Unit
  rebuild : Except Failure Unit
  restartBack : Except Failure Unit

/-- `InstanceConfigSchema.validate_agent_codes`. -/
def CodesMatch (agents : List (String × AgentConfig)) : Prop :=
  ∀ code agent, agents.lookup code = some agent → agent.code = code

theorem codesMatch_iff (agents : List (String × AgentConfig)) :
    (∀ code ∈ agents.map Prod.fst, ∀ agent ∈ agents.lookup code, agent.code = code) ↔
      CodesMatch agents := by
  refine ⟨fun h code agent hagent => ?_, fun h code _ agent hagent => h code agent hagent⟩
  exact h code (lookup_isSome_mem (by rw [hagent]; rfl)) agent hagent

instance (agents : List (String × AgentConfig)) : Decidable (CodesMatch agents) :=
  decidable_of_iff _ (codesMatch_iff agents)

/-- `_instance_config_from_global`. -/
def instanceConfigFromGlobal (cfg : GlobalConfig) : Except Failure InstanceConfig :=
  if CodesMatch cfg.agents then .ok cfg.toInstanceConfig else .error .exception

/-- `_agent_runtime_config_changed`. -/
def agentRuntimeConfigChanged (current next : GlobalConfig) : Bool :=
  !decide (SameDict current.agents next.agents) || current.agentPool != next.agentPool ||
    current.agentRuntime != next.agentRuntime

/-- `_lightrag_runtime_config_changed`: the retrieval fields are left out. -/
def lightragRuntimeConfigChanged (current next : LightRAGConfig) : Bool :=
  { current with graphMatches := 0, chunkMatches := 0 } !=
    { next with graphMatches := 0, chunkMatches := 0 }

/-- `_ensure_embedding_storage_compatible`. -/
def ensureEmbeddingStorageCompatible (statusCounts : Except Failure (List Int))
    (current next : LightRAGConfig) : Except Failure Unit :=
  if current.embeddingApi = next.embeddingApi ∧ current.embeddingModel = next.embeddingModel ∧
      current.embeddingDim = next.embeddingDim then .ok ()
  else
    match statusCounts with
    | .error failure => .error failure
    | .ok counts => if counts.any (fun count => decide (0 < count)) then .error .exception else .ok ()

/-- `_apply_instance_config`: the configuration in memory, and what has to be
built again. -/
def applyInstanceConfig (current fileCfg : GlobalConfig) : GlobalConfig × Bool × Bool :=
  let agentRuntimeChanged := agentRuntimeConfigChanged current fileCfg
  let permissionsChanged := current.permissions != fileCfg.permissions
  let lightragChanged := current.lightrag != fileCfg.lightrag
  if !agentRuntimeChanged && !permissionsChanged && !lightragChanged then (current, false, false)
  else ({ fileCfg with system := current.system, database := current.database }, agentRuntimeChanged,
    lightragRuntimeConfigChanged current.lightrag fileCfg.lightrag)

/-- `_restore_instance_config`. -/
def restoreInstanceConfig (current : GlobalConfig) (snapshot : InstanceConfig) : GlobalConfig :=
  { snapshot with system := current.system, database := current.database }

/-- `InstanceConfigApplyResult`. -/
structure InstanceConfigApplyResult where
  config : InstanceConfig
  restarted : Bool

/-- The end of `_apply_instance_config_from_file`. -/
def applyResult (memory : GlobalConfig) (restarted : Bool) :
    GlobalConfig × Except Failure InstanceConfigApplyResult :=
  (memory, (instanceConfigFromGlobal memory).map (⟨·, restarted⟩))

/-- The rebuild of the agents; where it fails, LightRAG is restarted with what
it had. -/
def rebuildStage (outcomes : StageOutcomes) (previous : InstanceConfig) (memory : GlobalConfig)
    (agentRuntimeChanged lightragRuntimeChanged : Bool) :
    GlobalConfig × Except Failure InstanceConfigApplyResult :=
  match agentRuntimeChanged, outcomes.rebuild with
  | true, .error failure =>
      (restoreInstanceConfig memory previous,
        match lightragRuntimeChanged, outcomes.restartBack with
        | true, .error .cancelled => .error .cancelled
        | _, _ => .error failure)
  | _, _ => applyResult memory (agentRuntimeChanged || lightragRuntimeChanged)

/-- The configuration is applied, and LightRAG restarted with it; where that
fails, memory is restored. -/
def restartStage (outcomes : StageOutcomes) (previous : InstanceConfig)
    (memory fileCfg : GlobalConfig) : GlobalConfig × Except Failure InstanceConfigApplyResult :=
  let applied := applyInstanceConfig memory fileCfg
  match applied.2.2, outcomes.restart with
  | true, .error failure => (restoreInstanceConfig applied.1 previous, .error failure)
  | _, _ => rebuildStage outcomes previous applied.1 applied.2.1 applied.2.2

/-- `_apply_instance_config_from_file`: the configuration in memory, and what is
returned or raised. -/
def applyInstanceConfigFromFile (outcomes : StageOutcomes) (memory fileCfg : GlobalConfig) :
    GlobalConfig × Except Failure InstanceConfigApplyResult :=
  match instanceConfigFromGlobal memory with
  | .error failure => (memory, .error failure)
  | .ok previous =>
      match ensureEmbeddingStorageCompatible outcomes.statusCounts previous.lightrag
          fileCfg.lightrag with
      | .error failure => (memory, .error failure)
      | .ok () => restartStage outcomes previous memory fileCfg

/-! ### Updating -/

/-- The file and the memory. -/
structure ConfigState where
  file : GlobalConfig
  memory : GlobalConfig

/-- The `model_copy` of an agent. -/
def patchAgent (patch : UpdateAgentConfigRequest) (agent : AgentConfig) : AgentConfig :=
  { agent with
    name := patch.name
    description := patch.description
    baseUrl := patch.baseUrl
    apiKey := patch.apiKey
    model := patch.model
    useResponses := patch.useResponses
    contextWindow := patch.contextWindow }

/-- What is requested for the agent `code`. -/
def requestedAgent (request : UpdateInstanceConfigRequest) (code : String) (agent : AgentConfig) :
    AgentConfig :=
  match request.agents.lookup code with
  | some patch => patchAgent patch agent
  | none => agent

/-- The agents with what is requested for them. -/
def patchAgents (request : UpdateInstanceConfigRequest) (agents : List (String × AgentConfig)) :
    List (String × AgentConfig) :=
  agents.map (fun entry => (entry.1, requestedAgent request entry.1 entry.2))

/-- The configuration that is written. -/
def nextConfig (request : UpdateInstanceConfigRequest) (current : GlobalConfig) : GlobalConfig :=
  { agents := patchAgents request current.agents
    agentPool := request.agentPool
    agentRuntime := request.agentRuntime
    permissions := request.permissions
    lightrag := request.lightrag
    system := current.system
    database := current.database }

/-- `update_instance_config`. -/
def updateInstanceConfig (env : ProviderEnvironment) (outcomes : StageOutcomes)
    (state : ConfigState) (request : UpdateInstanceConfigRequest) :
    ConfigState × Except Failure InstanceConfigApplyResult :=
  let current := readConfigFile env state.file
  if SameKeys request.agents current.agents then
    let next := nextConfig request current
    let applied := applyInstanceConfigFromFile outcomes state.memory next
    match applied.2 with
    | .ok result => (⟨next, applied.1⟩, .ok result)
    | .error failure => (⟨current, applied.1⟩, .error failure)
  else (state, .error .exception)

/-! ### What an update promises -/

/-- A failed update changes nothing, and one that returns sets what was
requested. -/
structure UpdateAtomic (env : ProviderEnvironment) (outcomes : StageOutcomes) (state : ConfigState)
    (request : UpdateInstanceConfigRequest) : Prop where
  failed : ∀ failure, (updateInstanceConfig env outcomes state request).2 = .error failure →
    (updateInstanceConfig env outcomes state request).1.file.Same state.file.toInstanceConfig ∧
      (updateInstanceConfig env outcomes state request).1.memory.Same
        state.memory.toInstanceConfig
  returned : ∀ result, (updateInstanceConfig env outcomes state request).2 = .ok result →
    (updateInstanceConfig env outcomes state request).1.file.Same
        (nextConfig request state.file).toInstanceConfig ∧
      (updateInstanceConfig env outcomes state request).1.memory.Same
        (nextConfig request state.file).toInstanceConfig

/-- Memory holds what the file says, as it stands or as it is read. -/
def InAgreement (env : ProviderEnvironment) (state : ConfigState) : Prop :=
  state.memory.Same state.file.toInstanceConfig ∨
    state.memory.Same (readConfigFile env state.file).toInstanceConfig

/-- Reading the file puts nothing else in. -/
def ReadUnchanged (env : ProviderEnvironment) (file : GlobalConfig) : Prop :=
  (readConfigFile env file).Same file.toInstanceConfig

/-- No stage fails that an update to `next` goes through. -/
structure StagesSucceed (outcomes : StageOutcomes) (memory next : GlobalConfig) : Prop where
  codes : CodesMatch memory.agents
  embedding : ensureEmbeddingStorageCompatible outcomes.statusCounts memory.lightrag
    next.lightrag = .ok ()
  restart : lightragRuntimeConfigChanged memory.lightrag next.lightrag = true →
    outcomes.restart = .ok ()
  rebuild : agentRuntimeConfigChanged memory next = true → outcomes.rebuild = .ok ()

/-! ### Codes -/

theorem InstanceConfig.Same.refl (a : InstanceConfig) : a.Same a :=
  ⟨SameDict.refl _, rfl, rfl, rfl, rfl⟩

theorem CodesMatch.same {a b : List (String × AgentConfig)} (h : CodesMatch a)
    (hsame : SameDict a b) : CodesMatch b := by
  intro code agent hagent
  rw [← hsame code] at hagent
  exact h code agent hagent

/-- Changing the agents but for their codes. -/
theorem codesMatch_mapValues {agents : List (String × AgentConfig)}
    {f : String → AgentConfig → AgentConfig} (hf : ∀ code agent, (f code agent).code = agent.code) :
    CodesMatch (agents.map (fun entry => (entry.1, f entry.1 entry.2))) ↔ CodesMatch agents := by
  constructor
  · intro h code agent hagent
    have hcode := h code (f code agent) (by rw [lookup_mapValues, hagent]; rfl)
    rwa [hf] at hcode
  · intro h code agent hagent
    rw [lookup_mapValues] at hagent
    obtain ⟨old, hold, rfl⟩ := Option.map_eq_some_iff.mp hagent
    rw [hf]
    exact h code old hold

theorem codesMatch_patch (request : UpdateInstanceConfigRequest)
    (agents : List (String × AgentConfig)) :
    CodesMatch (patchAgents request agents) ↔ CodesMatch agents := by
  refine codesMatch_mapValues (fun code agent => ?_)
  unfold requestedAgent
  cases request.agents.lookup code <;> rfl

theorem codesMatch_read (env : ProviderEnvironment) (file : GlobalConfig) :
    CodesMatch (readConfigFile env file).agents ↔ CodesMatch file.agents :=
  codesMatch_mapValues (f := fun code agent => provideAgent env (brandAgent code agent))
    (fun _ _ => rfl)

/-- The agents in memory are those of the file. -/
theorem InAgreement.codes {env : ProviderEnvironment} {state : ConfigState}
    (h : InAgreement env state) (hcodes : CodesMatch state.memory.agents) :
    CodesMatch state.file.agents := by
  rcases h with h | h
  · exact hcodes.same h.agents
  · exact (codesMatch_read env state.file).mp (hcodes.same h.agents)

/-- Reading the file keeps the set of the agents. -/
theorem sameKeys_read (env : ProviderEnvironment) (file : GlobalConfig)
    (request : UpdateInstanceConfigRequest) :
    SameKeys request.agents (readConfigFile env file).agents ↔
      SameKeys request.agents file.agents := by
  have hkey : ∀ key, ((readConfigFile env file).agents.lookup key).isSome =
      (file.agents.lookup key).isSome := fun key => by
    show (List.lookup key (file.agents.map _)).isSome = _
    rw [lookup_mapValues file.agents (fun code agent => provideAgent env (brandAgent code agent)),
      Option.isSome_map]
  constructor
  · exact fun h key => (h key).trans (hkey key)
  · exact fun h key => (h key).trans (hkey key).symm

/-- What is requested takes the place of all that reading puts in. -/
theorem nextConfig_read {env : ProviderEnvironment} {file : GlobalConfig}
    {request : UpdateInstanceConfigRequest} (h : SameKeys request.agents file.agents) :
    nextConfig request (readConfigFile env file) = nextConfig request file := by
  unfold nextConfig
  congr 1
  congr 1
  unfold patchAgents readConfigFile
  rw [List.map_map]
  refine List.map_congr_left (fun entry hentry => ?_)
  have hthere : (request.agents.lookup entry.1).isSome = true := by
    rw [h entry.1]
    exact mem_lookup_isSome (List.mem_map_of_mem hentry)
  obtain ⟨patch, hpatch⟩ := Option.isSome_iff_exists.mp hthere
  simp only [Function.comp_apply, requestedAgent, hpatch]
  rfl

/-! ### Applying -/

/-- Nothing is set where nothing has changed, so what is in memory is what the
file says either way. -/
theorem applyInstanceConfig_same (memory next : GlobalConfig) :
    (applyInstanceConfig memory next).1.Same next.toInstanceConfig := by
  unfold applyInstanceConfig
  dsimp only
  split
  · next hsame =>
      simp only [agentRuntimeConfigChanged, Bool.and_eq_true, Bool.not_eq_true', Bool.or_eq_false_iff,
        Bool.not_eq_false', decide_eq_true_eq, bne_eq_false_iff_eq] at hsame
      obtain ⟨⟨⟨⟨hagents, hpool⟩, hruntime⟩, hpermissions⟩, hlightrag⟩ := hsame
      exact ⟨hagents, hpool, hruntime, hpermissions, hlightrag⟩
  · exact InstanceConfig.Same.refl _

/-- What has to be built again. -/
theorem applyInstanceConfig_changed (memory next : GlobalConfig) :
    (applyInstanceConfig memory next).2 = (agentRuntimeConfigChanged memory next,
      lightragRuntimeConfigChanged memory.lightrag next.lightrag) := by
  unfold applyInstanceConfig
  dsimp only
  split
  · next hsame =>
      simp only [Bool.and_eq_true, Bool.not_eq_true', bne_eq_false_iff_eq] at hsame
      obtain ⟨⟨hagents, hpermissions⟩, hlightrag⟩ := hsame
      rw [hagents, hlightrag]
      simp [lightragRuntimeConfigChanged]
  · rfl

/-- How a stage ends: with what was asked for, or with what there was. -/
structure StageSpec (previous next : InstanceConfig) (succeeds : Prop)
    (out : GlobalConfig × Except Failure InstanceConfigApplyResult) : Prop where
  ok : succeeds → out.2.isOk = true ∧ out.1.Same next
  error : ¬ succeeds → out.2.isOk = false ∧ out.1.Same previous

/-- Where the codes match, the end of an update returns. -/
theorem applyResult_ok {memory : GlobalConfig} (restarted : Bool)
    (hcodes : CodesMatch memory.agents) :
    applyResult memory restarted = (memory, .ok ⟨memory.toInstanceConfig, restarted⟩) := by
  unfold applyResult instanceConfigFromGlobal
  rw [if_pos hcodes]
  rfl

theorem rebuildStage_spec (outcomes : StageOutcomes) (previous : InstanceConfig)
    {next : InstanceConfig} {memory : GlobalConfig}
    (agentRuntimeChanged lightragRuntimeChanged : Bool)
    (hsame : memory.Same next) (hcodes : CodesMatch memory.agents) :
    StageSpec previous next (agentRuntimeChanged = true → outcomes.rebuild = .ok ())
      (rebuildStage outcomes previous memory agentRuntimeChanged lightragRuntimeChanged) := by
  unfold rebuildStage
  split
  · next failure hfail =>
      constructor
      · intro hsucceeds
        rw [hsucceeds rfl] at hfail
        cases hfail
      · intro _
        refine ⟨?_, InstanceConfig.Same.refl _⟩
        dsimp only
        split <;> rfl
  · next hno =>
      constructor
      · intro _
        rw [applyResult_ok _ hcodes]
        exact ⟨rfl, hsame⟩
      · intro hfails
        exfalso
        apply hfails
        intro hchanged
        cases hrebuild : outcomes.rebuild with
        | error failure => exact absurd hrebuild (hno failure hchanged)
        | ok => rfl

theorem restartStage_spec (outcomes : StageOutcomes) (previous : InstanceConfig)
    (memory : GlobalConfig) {next : GlobalConfig} (hcodes : CodesMatch next.agents) :
    StageSpec previous next.toInstanceConfig
      ((lightragRuntimeConfigChanged memory.lightrag next.lightrag = true →
          outcomes.restart = .ok ()) ∧
        (agentRuntimeConfigChanged memory next = true → outcomes.rebuild = .ok ()))
      (restartStage outcomes previous memory next) := by
  unfold restartStage
  dsimp only
  rw [applyInstanceConfig_changed]
  dsimp only
  have hsame := applyInstanceConfig_same memory next
  split
  · next failure hchanged hfail =>
      refine ⟨fun h => ?_, fun _ => ⟨rfl, InstanceConfig.Same.refl _⟩⟩
      rw [h.1 hchanged] at hfail
      cases hfail
  · next hno =>
      have hrestart : lightragRuntimeConfigChanged memory.lightrag next.lightrag = true →
          outcomes.restart = .ok () := by
        intro hchanged
        cases hrestart : outcomes.restart with
        | error failure => exact absurd hrestart (hno failure hchanged)
        | ok => rfl
      have hspec := rebuildStage_spec outcomes previous (agentRuntimeConfigChanged memory next)
        (lightragRuntimeConfigChanged memory.lightrag next.lightrag) hsame
        (hcodes.same hsame.agents.symm)
      exact ⟨fun h => hspec.ok h.2, fun h => hspec.error (fun hrebuild => h ⟨hrestart, hrebuild⟩)⟩

/-- **The stages**: with none that fails memory holds what was asked for, and
with one that fails what it held. -/
theorem applyInstanceConfigFromFile_spec {outcomes : StageOutcomes} {memory next : GlobalConfig}
    (hnext : CodesMatch memory.agents → CodesMatch next.agents) :
    StageSpec memory.toInstanceConfig next.toInstanceConfig (StagesSucceed outcomes memory next)
      (applyInstanceConfigFromFile outcomes memory next) := by
  unfold applyInstanceConfigFromFile instanceConfigFromGlobal
  by_cases hcodes : CodesMatch memory.agents
  swap
  · rw [if_neg hcodes]
    exact ⟨fun h => absurd h.codes hcodes, fun _ => ⟨rfl, InstanceConfig.Same.refl _⟩⟩
  rw [if_pos hcodes]
  dsimp only
  cases hembedding : ensureEmbeddingStorageCompatible outcomes.statusCounts memory.lightrag
      next.lightrag with
  | error failure =>
      refine ⟨fun h => ?_, fun _ => ⟨rfl, InstanceConfig.Same.refl _⟩⟩
      have hok := h.embedding
      rw [hembedding] at hok
      cases hok
  | ok =>
      have hspec := restartStage_spec outcomes memory.toInstanceConfig memory (hnext hcodes)
      exact ⟨fun h => hspec.ok ⟨h.restart, h.rebuild⟩,
        fun h => hspec.error (fun hboth => h ⟨hcodes, hembedding, hboth.1, hboth.2⟩)⟩

/-! ### Updating -/

section Update

variable {env : ProviderEnvironment} {outcomes : StageOutcomes} {state : ConfigState}
  {request : UpdateInstanceConfigRequest}

/-- An update of another set of agents is refused before anything is written. -/
theorem updateInstanceConfig_refused (env : ProviderEnvironment) (outcomes : StageOutcomes)
    (h : ¬ SameKeys request.agents state.file.agents) :
    updateInstanceConfig env outcomes state request = (state, .error .exception) := by
  unfold updateInstanceConfig
  rw [if_neg (fun hkeys => h ((sameKeys_read env state.file request).mp hkeys))]

/-- Where no stage fails, file and memory are as requested. -/
theorem updateInstanceConfig_succeeds (hagree : InAgreement env state)
    (hkeys : SameKeys request.agents state.file.agents)
    (h : StagesSucceed outcomes state.memory (nextConfig request state.file)) :
    (updateInstanceConfig env outcomes state request).2.isOk = true ∧
      (updateInstanceConfig env outcomes state request).1.file = nextConfig request state.file ∧
      (updateInstanceConfig env outcomes state request).1.memory.Same
        (nextConfig request state.file).toInstanceConfig := by
  have hspec := (applyInstanceConfigFromFile_spec (fun hcodes =>
    (codesMatch_patch request state.file.agents).mpr (hagree.codes hcodes))).ok h
  unfold updateInstanceConfig
  rw [if_pos ((sameKeys_read env state.file request).mpr hkeys)]
  dsimp only
  rw [nextConfig_read hkeys]
  cases hout : (applyInstanceConfigFromFile outcomes state.memory
      (nextConfig request state.file)).2 with
  | ok result => exact ⟨rfl, rfl, hspec.2⟩
  | error failure =>
      rw [hout] at hspec
      exact absurd hspec.1 (by simp [Except.isOk, Except.toBool])

/-- Where a stage fails, memory is as it was and the file is as it was read. -/
theorem updateInstanceConfig_fails (hagree : InAgreement env state)
    (hkeys : SameKeys request.agents state.file.agents)
    (h : ¬ StagesSucceed outcomes state.memory (nextConfig request state.file)) :
    (updateInstanceConfig env outcomes state request).2.isOk = false ∧
      (updateInstanceConfig env outcomes state request).1.file = readConfigFile env state.file ∧
      (updateInstanceConfig env outcomes state request).1.memory.Same
        state.memory.toInstanceConfig := by
  have hspec := (applyInstanceConfigFromFile_spec (fun hcodes =>
    (codesMatch_patch request state.file.agents).mpr (hagree.codes hcodes))).error h
  unfold updateInstanceConfig
  rw [if_pos ((sameKeys_read env state.file request).mpr hkeys)]
  dsimp only
  rw [nextConfig_read hkeys]
  cases hout : (applyInstanceConfigFromFile outcomes state.memory
      (nextConfig request state.file)).2 with
  | error failure => exact ⟨rfl, rfl, hspec.2⟩
  | ok result =>
      rw [hout] at hspec
      exact absurd hspec.1 (by simp [Except.isOk, Except.toBool])

end Update

/-- **When a failed update changes nothing**: a stage that fails leaves in the
file what `read_config_file` put in. -/
theorem update_atomic_iff (env : ProviderEnvironment) (outcomes : StageOutcomes)
    (state : ConfigState) (request : UpdateInstanceConfigRequest) (h : InAgreement env state) :
    UpdateAtomic env outcomes state request ↔
      ReadUnchanged env state.file ∨ ¬ SameKeys request.agents state.file.agents ∨
        StagesSucceed outcomes state.memory (nextConfig request state.file) := by
  by_cases hkeys : SameKeys request.agents state.file.agents
  swap
  · refine iff_of_true ?_ (.inr (.inl hkeys))
    have hrefused := updateInstanceConfig_refused env outcomes hkeys
    constructor
    · intro failure _
      rw [hrefused]
      exact ⟨InstanceConfig.Same.refl _, InstanceConfig.Same.refl _⟩
    · intro result hresult
      rw [hrefused] at hresult
      cases hresult
  by_cases hstages : StagesSucceed outcomes state.memory (nextConfig request state.file)
  · refine iff_of_true ?_ (.inr (.inr hstages))
    obtain ⟨hok, hfile, hmemory⟩ := updateInstanceConfig_succeeds h hkeys hstages
    constructor
    · intro failure hfailure
      rw [hfailure] at hok
      cases hok
    · intro result _
      rw [hfile]
      exact ⟨InstanceConfig.Same.refl _, hmemory⟩
  · obtain ⟨herror, hfile, hmemory⟩ := updateInstanceConfig_fails h hkeys hstages
    constructor
    · intro hatomic
      cases hout : (updateInstanceConfig env outcomes state request).2 with
      | ok result =>
          rw [hout] at herror
          cases herror
      | error failure =>
          have hsame := (hatomic.failed failure hout).1
          rw [hfile] at hsame
          exact .inl hsame
    · rintro (hread | hno | hsucceed)
      · constructor
        · intro failure _
          rw [hfile]
          exact ⟨hread, hmemory⟩
        · intro result hresult
          rw [hresult] at herror
          cases herror
      · exact absurd hkeys hno
      · exact absurd hsucceed hstages

/-- One agent whose key was set by an earlier update. -/
def typedConfig : GlobalConfig where
  agents := [("cso", { code := "cso", apiKey := "typed" })]
  system := { encryptKey := "secret" }
  database := {}

/-- The agent as it is. -/
def typedAgent : UpdateAgentConfigRequest where
  name := ""
  description := ""
  baseUrl := ""
  apiKey := "typed"
  model := ""
  useResponses := false
  contextWindow := 1000000

/-- A request that leaves the agent as it is and asks for a larger pool. -/
def largerPool : UpdateInstanceConfigRequest where
  agents := [("cso", typedAgent)]
  agentPool := { maxSize := 512 }
  agentRuntime := {}
  permissions := {}
  lightrag := {}

/-- Only the rebuild of the agents fails. -/
def rebuildFails : StageOutcomes where
  statusCounts := .ok []
  restart := .ok ()
  rebuild := .error .exception
  restartBack := .ok ()

/-- The key of the environment is in the file after an update that failed. -/
theorem failed_update_changes_file :
    ¬ ∀ (env : ProviderEnvironment) (outcomes : StageOutcomes) (state : ConfigState)
      (request : UpdateInstanceConfigRequest), InAgreement env state →
        UpdateAtomic env outcomes state request := by
  intro h
  have hatomic := h { openaiApiKey := "environment" } rebuildFails ⟨typedConfig, typedConfig⟩
    largerPool (.inl (InstanceConfig.Same.refl _))
  have hraised : (updateInstanceConfig { openaiApiKey := "environment" } rebuildFails
      ⟨typedConfig, typedConfig⟩ largerPool).2 = .error .exception := by rfl
  have hagents := (hatomic.failed .exception hraised).1.agents "cso"
  exact absurd hagents (by decide +kernel)

/-- Without such a variable, a rebuild that fails changes nothing. -/
theorem update_atomic_unset :
    UpdateAtomic {} rebuildFails ⟨typedConfig, typedConfig⟩ largerPool :=
  (update_atomic_iff {} rebuildFails ⟨typedConfig, typedConfig⟩ largerPool
    (.inl (InstanceConfig.Same.refl _))).mpr
      (.inl ⟨by decide +kernel, rfl, rfl, rfl, by decide +kernel⟩)

end Workbench.SystemConfig
