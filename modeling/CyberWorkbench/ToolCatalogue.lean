import CyberWorkbench.ToolChecks
import CyberWorkbench.CommandEncoding
import CyberWorkbench.TargetUrls
import CyberWorkbench.Base64

/-!
# The tools of the toolpack

`service/toolpack`, `_TOOLS` and what a run makes of it: the policy of the tool is
checked, then the payload becomes the tokens of its command and the text on its
standard input.

* `tool_run_exact` — whatever the payload, a run that gets past its checks has, for
  every slot of its tool, tokens that meet it, asks for no more than the policy
  allows, and on a POSIX host starts the tool with exactly these tokens, unless the
  one text that nothing checks, the server name of a TLS inspection, has a NUL.

The scripts of the tools that run Python are texts without NULs.
-/

namespace Workbench.Toolpack

open PythonValues RuntimePermissions CommandEncoding
open PosixShell (Text nul)

/-! ### The catalogue -/

/-- The scripts, `_WEB_CHECK_SCRIPT` and its like. -/
inductive ScriptName where
  | webCheck
  | tlsInspect
  | portScan
  | dnsLookup
  | ping
  | httpHeaders
  | systemInfo
  | diskUsage
  | processList
  | netConnections
  | envCheck
  | curl
  | httpProbe
  | dnsTrace
  | portQuickcheck
  | logTail
  | logGrep
  | fileHash
  | archiveInspect
  deriving DecidableEq, Repr

/-- Their texts. -/
structure Scripts where
  text : ScriptName → String
  noNul : ∀ name, nul ∉ (text name).toList

/-- `_ToolDefinition`, with the limits its policy has or falls back to. -/
structure ToolDefinition where
  id : String
  backend : ToolBackend
  executable : String
  required : List String
  maxRps : Int := 50
  maxConcurrency : Int := 20
  maxPorts : Nat := 32
  slots : List Slot
  stdin : Option String := none

/-- `_builtin_python_tool`. -/
def builtinPythonTool (id : String) (backend : ToolBackend) (required : List String)
    (script : String) (scriptArgs : List Slot) : ToolDefinition where
  id := id
  backend := backend
  executable := if backend = .LOCAL then "python" else "python3"
  required := required
  slots :=
    [.fixed "-c",
      .fixed ("import base64,sys; code=sys.argv[1]; sys.argv=[sys.argv[0]]+sys.argv[2:]; " ++
        "exec(base64.b64decode(code).decode())"),
      .fixed (String.ofList (Base64.encode (Utf8.encode script.toList)))] ++ scriptArgs

/-- `_paired_python_tools`. -/
def pairedPythonTools (suffix : String) (required : List String) (script : String)
    (scriptArgs : List Slot) : List ToolDefinition :=
  [builtinPythonTool ("local." ++ suffix) .LOCAL required script scriptArgs,
    builtinPythonTool ("ssh." ++ suffix) .SSH required script scriptArgs]

/-- `_operations_tool_definitions`. -/
def operationsToolDefinitions (scripts : Scripts) : List ToolDefinition :=
  pairedPythonTools "system.info" [] (scripts.text .systemInfo) [] ++
  pairedPythonTools "disk.usage" [] (scripts.text .diskUsage)
    [.optionalText "path" ".", .int "max_depth" 1 0 4, .int "top_n" 20 1 50] ++
  pairedPythonTools "process.list" [] (scripts.text .processList)
    [.optionalText "keyword" "__all__", .int "limit" 50 1 200] ++
  pairedPythonTools "net.connections" [] (scripts.text .netConnections)
    [.optionalText "state" "__all__", .int "limit" 100 1 300] ++
  pairedPythonTools "env.check" [] (scripts.text .envCheck)
    [.optionalText "tools" "python,python3,node,pnpm,git,curl,nmap,sqlmap,httpx,dnsx,ffuf"] ++
  pairedPythonTools "curl" ["url"] (scripts.text .curl)
    [.url "url", .enum "method" ["GET", "HEAD", "POST", "PUT", "PATCH"] "GET",
      .int "timeout_seconds" 10 1 30, .optionalText "body" ""] ++
  pairedPythonTools "http.probe" ["urls"] (scripts.text .httpProbe)
    [.urls "urls" 20, .enum "method" ["GET", "HEAD"] "HEAD", .int "timeout_seconds" 10 1 30] ++
  pairedPythonTools "dns.trace" ["host"] (scripts.text .dnsTrace)
    [.host "host", .enum "record_type" ["A", "AAAA", "MX", "TXT", "NS", "CNAME", "ANY"] "A",
      .int "timeout_seconds" 5 1 10] ++
  pairedPythonTools "port.quickcheck" ["host"] (scripts.text .portQuickcheck)
    [.host "host", .lowerEnum "profile" ["common", "web", "db"] "common",
      .int "timeout_seconds" 1 1 5] ++
  pairedPythonTools "log.tail" ["path"] (scripts.text .logTail)
    [.path "path", .int "lines" 100 1 500] ++
  pairedPythonTools "log.grep" ["path", "pattern"] (scripts.text .logGrep)
    [.path "path", .text "pattern", .bool "ignore_case" true, .int "max_matches" 50 1 200] ++
  pairedPythonTools "file.hash" ["path"] (scripts.text .fileHash)
    [.path "path", .enum "algorithm" ["sha256", "sha1", "md5"] "sha256"] ++
  pairedPythonTools "archive.inspect" ["path"] (scripts.text .archiveInspect)
    [.path "path", .int "max_entries" 100 1 500]

/-- `_TOOLS`. -/
def tools (scripts : Scripts) : List ToolDefinition :=
  [{ id := "local.webcheck", backend := .LOCAL, executable := "python", required := ["url"]
     slots := [.fixed "-c", .fixed (scripts.text .webCheck), .url "url",
       .enum "method" ["GET", "HEAD"] "GET", .int "timeout_seconds" 10 1 30] },
    { id := "local.tls.inspect", backend := .LOCAL, executable := "python", required := ["host"]
      slots := [.fixed "-c", .fixed (scripts.text .tlsInspect), .host "host",
        .int "port" 443 1 65535, .anyText "server_name", .int "timeout_seconds" 10 1 30] },
    { id := "local.port.scan", backend := .LOCAL, executable := "python"
      required := ["host", "ports"]
      slots := [.fixed "-c", .fixed (scripts.text .portScan), .host "host", .ports "ports" 32,
        .int "timeout_seconds" 1 1 5] },
    { id := "local.dns.lookup", backend := .LOCAL, executable := "python", required := ["host"]
      slots := [.fixed "-c", .fixed (scripts.text .dnsLookup), .host "host",
        .int "timeout_seconds" 5 1 10] },
    { id := "local.ping", backend := .LOCAL, executable := "python", required := ["host"]
      slots := [.fixed "-c", .fixed (scripts.text .ping), .host "host", .int "count" 4 1 10,
        .int "timeout_seconds" 2 1 10] },
    { id := "local.http.headers", backend := .LOCAL, executable := "python", required := ["url"]
      slots := [.fixed "-c", .fixed (scripts.text .httpHeaders), .url "url",
        .int "timeout_seconds" 10 1 30] },
    { id := "local.httpx", backend := .LOCAL, executable := "httpx", required := ["target"]
      slots := [.fixed "-u", .text "target", .fixed "-silent", .fixed "-json"] },
    { id := "local.dnsx", backend := .LOCAL, executable := "dnsx", required := ["domain"]
      slots := [.fixed "-silent", .fixed "-j"], stdin := some "domain" },
    { id := "local.ffuf", backend := .LOCAL, executable := "ffuf", required := ["url", "wordlist"]
      slots := [.fixed "-u", .text "url", .fixed "-w", .text "wordlist", .fixed "-json", .rate] },
    { id := "ssh.nmap", backend := .SSH, executable := "nmap", required := ["target"]
      slots := [.fixed "-oX", .fixed "-", .text "target"] },
    { id := "ssh.sqlmap", backend := .SSH, executable := "sqlmap", required := ["target"]
      maxRps := 10, maxConcurrency := 4
      slots := [.fixed "-u", .text "target", .fixed "--batch", .fixed "--disable-coloring",
        .fixed "--level=1", .fixed "--risk=1", .fixed "--timeout=5", .fixed "--retries=0",
        .fixed "--flush-session"] }] ++
  operationsToolDefinitions scripts

/-! ### Preparing a run -/

variable (py : Python) (tool : ToolDefinition) (payload : Dict)

/-- The checks `_validate_policy` makes for some of the tools. -/
def ownChecks : Checked Unit :=
  if tool.id = "local.webcheck" then do
    discard (requiredUrl py payload "url")
    discard (optionalEnum py payload "method" ["GET", "HEAD"] "GET")
    discard (optionalInt py payload "timeout_seconds" 10 1 30)
  else if tool.id = "local.tls.inspect" then do
    discard (requiredHost payload "host")
    discard (optionalInt py payload "port" 443 1 65535)
    discard (optionalInt py payload "timeout_seconds" 10 1 30)
  else if tool.id = "local.port.scan" then do
    discard (requiredHost payload "host")
    discard (requiredPorts py payload "ports" tool.maxPorts)
    discard (optionalInt py payload "timeout_seconds" 1 1 5)
  else if tool.id = "local.dns.lookup" then do
    discard (requiredHost payload "host")
    discard (optionalInt py payload "timeout_seconds" 5 1 10)
  else if tool.id = "local.ping" then do
    discard (requiredHost payload "host")
    discard (optionalInt py payload "count" 4 1 10)
    discard (optionalInt py payload "timeout_seconds" 2 1 10)
  else if tool.id = "local.http.headers" then do
    discard (requiredUrl py payload "url")
    discard (optionalInt py payload "timeout_seconds" 10 1 30)
  else return ()

/-- `payload.get(field) or 1`. -/
def asked (field : String) : Value := (Dict.get payload field).or (.number 1 0)

/-- `_validate_policy`. -/
def validatePolicy : Checked Unit := do
  forM tool.required (fun field => discard (requiredText payload field))
  ownChecks py tool payload
  let rps ← py.int (asked payload "rps")
  if tool.maxRps < rps then
    throw (.permission ("rps exceeds policy limit " ++ toString tool.maxRps))
  let concurrency ← py.int (asked payload "concurrency")
  if tool.maxConcurrency < concurrency then
    throw (.permission ("concurrency exceeds policy limit " ++ toString tool.maxConcurrency))
  if tool.id = "local.ffuf" then
    let url ← requiredText payload "url"
    if ¬ "FUZZ".toList <:+: url.toList then
      throw (.permission "ffuf url must contain FUZZ marker")

/-- The tokens of some slots. -/
def readSlots : List Slot → Checked (List (List String))
  | [] => .ok []
  | slot :: rest => do
      let tokens ← slot.read py payload
      let others ← readSlots rest
      return tokens :: others

/-- `definition.stdin_text`. -/
def stdinText : Checked (Option String) :=
  match tool.stdin with
  | none => .ok none
  | some field => some <$> requiredText payload field

/-- What `_execute_tool_run` makes of a payload: the tokens, slot by slot, and the
text on the standard input. -/
def prepareRun : Checked (List (List String) × Option String) := do
  validatePolicy py tool payload
  let tokens ← readSlots py payload tool.slots
  let text ← stdinText tool payload
  return (tokens, text)

/-- The arguments of the tool. -/
def argsOf (tokens : List (List String)) : List Text := tokens.flatten.map String.toList

/-- The server name of a TLS inspection. -/
def serverName : String := py.str ((Dict.get payload "server_name").or (.str ""))

/-! ### What every tool has -/

/-- The texts of the tool have no NUL, and it leaves no field unchecked unless it is
the TLS inspection. -/
structure ToolDefinition.Sealed (tool : ToolDefinition) : Prop where
  slots : ∀ slot ∈ tool.slots, slot.Sealed
  unchecked : ∀ slot ∈ tool.slots, slot.uncheckedField = none ∨
    slot = .anyText "server_name" ∧ tool.id = "local.tls.inspect"
  serverName : tool.id = "local.tls.inspect" → .anyText "server_name" ∈ tool.slots
  executable : tool.executable.toList ∈ toolExecutables

theorem python_known : "python".toList ∈ toolExecutables := by decide

theorem python3_known : "python3".toList ∈ toolExecutables := by decide

theorem sealed_builtin {id : String} {backend : ToolBackend} {required : List String}
    {script : String} {scriptArgs : List Slot} (hid : id ≠ "local.tls.inspect")
    (hargs : ∀ slot ∈ scriptArgs, slot.Sealed ∧ slot.uncheckedField = none) :
    (builtinPythonTool id backend required script scriptArgs).Sealed where
  slots := by
    refine List.forall_mem_append.mpr ⟨?_, fun slot hslot => (hargs slot hslot).1⟩
    refine List.forall_mem_cons.mpr ⟨by decide, List.forall_mem_cons.mpr ⟨by decide, ?_⟩⟩
    refine List.forall_mem_singleton.mpr (fun hmem => ?_)
    have hnul : nul ∉ Base64.digits := by decide
    rcases Base64.mem_encode (String.toList_ofList ▸ hmem) with hdigit | hpad
    · exact hnul hdigit
    · exact absurd hpad (by decide)
  unchecked := by
    refine List.forall_mem_append.mpr ⟨?_, fun slot hslot => .inl (hargs slot hslot).2⟩
    exact List.forall_mem_cons.mpr ⟨.inl rfl, List.forall_mem_cons.mpr ⟨.inl rfl,
      List.forall_mem_singleton.mpr (.inl rfl)⟩⟩
  serverName := fun h => absurd h hid
  executable := by
    show (if backend = .LOCAL then "python" else "python3").toList ∈ toolExecutables
    cases backend with
    | LOCAL => exact python_known
    | SSH => exact python3_known

theorem sealed_paired {suffix : String} {required : List String} {script : String}
    {scriptArgs : List Slot} (hlocal : "local." ++ suffix ≠ "local.tls.inspect")
    (hssh : "ssh." ++ suffix ≠ "local.tls.inspect")
    (hargs : ∀ slot ∈ scriptArgs, slot.Sealed ∧ slot.uncheckedField = none) :
    ∀ tool ∈ pairedPythonTools suffix required script scriptArgs, tool.Sealed :=
  List.forall_mem_cons.mpr ⟨sealed_builtin hlocal hargs,
    List.forall_mem_singleton.mpr (sealed_builtin hssh hargs)⟩

theorem sealed_operations (scripts : Scripts) :
    ∀ tool ∈ operationsToolDefinitions scripts, tool.Sealed := by
  unfold operationsToolDefinitions
  simp only [List.forall_mem_append]
  refine ⟨⟨⟨⟨⟨⟨⟨⟨⟨⟨⟨⟨?_, ?_⟩, ?_⟩, ?_⟩, ?_⟩, ?_⟩, ?_⟩, ?_⟩, ?_⟩, ?_⟩, ?_⟩, ?_⟩, ?_⟩
  all_goals exact sealed_paired (by decide) (by decide) (by decide)

/-- A tool that is given as it is, without a script. -/
theorem sealed_plain {tool : ToolDefinition} (hid : tool.id ≠ "local.tls.inspect")
    (hslots : ∀ slot ∈ tool.slots, slot.Sealed ∧ slot.uncheckedField = none)
    (hexecutable : tool.executable.toList ∈ toolExecutables) : tool.Sealed where
  slots := fun slot hslot => (hslots slot hslot).1
  unchecked := fun slot hslot => .inl (hslots slot hslot).2
  serverName := fun h => absurd h hid
  executable := hexecutable

/-- A tool that is given as it is, with a script. -/
theorem sealed_script {scripts : Scripts} {name : ScriptName} {id : String} {required : List String}
    {scriptArgs : List Slot} (hid : id ≠ "local.tls.inspect")
    (hargs : ∀ slot ∈ scriptArgs, slot.Sealed ∧ slot.uncheckedField = none) :
    ({ id := id, backend := .LOCAL, executable := "python", required := required
       slots := .fixed "-c" :: .fixed (scripts.text name) :: scriptArgs } : ToolDefinition).Sealed :=
  sealed_plain hid (List.forall_mem_cons.mpr ⟨by decide,
    List.forall_mem_cons.mpr ⟨⟨scripts.noNul name, rfl⟩, hargs⟩⟩) python_known

/-- The TLS inspection. -/
theorem sealed_tlsInspect {scripts : Scripts} {required : List String} {before after : List Slot}
    (hbefore : ∀ slot ∈ before, slot.Sealed ∧ slot.uncheckedField = none)
    (hafter : ∀ slot ∈ after, slot.Sealed ∧ slot.uncheckedField = none) :
    ({ id := "local.tls.inspect", backend := .LOCAL, executable := "python", required := required
       slots := .fixed "-c" :: .fixed (scripts.text .tlsInspect) ::
         (before ++ .anyText "server_name" :: after) } : ToolDefinition).Sealed where
  slots := by
    refine List.forall_mem_cons.mpr ⟨by decide, List.forall_mem_cons.mpr ⟨scripts.noNul _, ?_⟩⟩
    exact List.forall_mem_append.mpr ⟨fun slot hslot => (hbefore slot hslot).1,
      List.forall_mem_cons.mpr ⟨trivial, fun slot hslot => (hafter slot hslot).1⟩⟩
  unchecked := by
    refine List.forall_mem_cons.mpr ⟨.inl rfl, List.forall_mem_cons.mpr ⟨.inl rfl, ?_⟩⟩
    exact List.forall_mem_append.mpr ⟨fun slot hslot => .inl (hbefore slot hslot).2,
      List.forall_mem_cons.mpr ⟨.inr ⟨rfl, rfl⟩, fun slot hslot => .inl (hafter slot hslot).2⟩⟩
  serverName := fun _ => List.mem_cons_of_mem _ (List.mem_cons_of_mem _
    (List.mem_append_right _ List.mem_cons_self))
  executable := python_known

/-- **Every tool is sealed.** -/
theorem sealed_tools (scripts : Scripts) : ∀ tool ∈ tools scripts, tool.Sealed := by
  unfold tools
  refine List.forall_mem_append.mpr ⟨?_, sealed_operations scripts⟩
  simp only [List.forall_mem_cons]
  refine ⟨?_, ?_, ?_, ?_, ?_, ?_, ?_, ?_, ?_, ?_, ?_, List.forall_mem_nil _⟩
  case refine_2 =>
    exact @sealed_tlsInspect scripts _ [.host "host", .int "port" 443 1 65535] _ (by decide)
      (by decide)
  case refine_7 => exact sealed_plain (by decide) (by decide) (by decide)
  case refine_8 => exact sealed_plain (by decide) (by decide) (by decide)
  case refine_9 => exact sealed_plain (by decide) (by decide) (by decide)
  case refine_10 => exact sealed_plain (by decide) (by decide) (by decide)
  case refine_11 => exact sealed_plain (by decide) (by decide) (by decide)
  all_goals exact sealed_script (by decide) (by decide)

/-! ### What a prepared run is -/

variable {py tool payload}

theorem readSlots_meets {slots : List Slot} {tokens : List (List String)}
    (h : readSlots py payload slots = .ok tokens) :
    List.Forall₂ (fun slot tokens => slot.Meets py payload tokens) slots tokens := by
  induction slots generalizing tokens with
  | nil => exact Except.ok.inj h ▸ .nil
  | cons slot rest ih =>
      rw [readSlots] at h
      obtain ⟨first, hfirst, h⟩ := bind_ok_iff.mp h
      obtain ⟨others, hothers, h⟩ := bind_ok_iff.mp h
      exact Except.ok.inj h ▸ .cons (Slot.read_meets hfirst) (ih hothers)

/-- **The NULs of the tokens** are those of the fields that nothing checks. -/
theorem nul_notMem_tokens_iff {slots : List Slot} {tokens : List (List String)}
    (hmeets : List.Forall₂ (fun slot tokens => slot.Meets py payload tokens) slots tokens)
    (hsealed : ∀ slot ∈ slots, slot.Sealed) :
    (∀ token ∈ tokens.flatten, nul ∉ token.toList) ↔
      ∀ slot ∈ slots, ∀ field, slot.uncheckedField = some field →
        nul ∉ (py.str ((Dict.get payload field).or (.str ""))).toList := by
  induction hmeets with
  | nil =>
      refine ⟨fun _ slot hslot => absurd hslot List.not_mem_nil, fun _ token htoken => ?_⟩
      exact absurd htoken List.not_mem_nil
  | @cons slot first slots tokens hslot _ ih =>
      rw [List.forall_mem_cons] at hsealed
      have hone : (∀ token ∈ first, nul ∉ token.toList) ↔ ∀ field, slot.uncheckedField = some field →
          nul ∉ (py.str ((Dict.get payload field).or (.str ""))).toList := by
        cases hfield : slot.uncheckedField with
        | none =>
            refine ⟨fun _ field hsome => ?_, fun _ => Slot.nul_notMem hslot hsealed.1 hfield⟩
            cases hsome
        | some field =>
            cases slot with
            | anyText field' =>
                obtain rfl := Option.some.inj hfield
                have htokens : first = [py.str ((Dict.get payload field').or (.str ""))] := hslot
                rw [htokens, List.forall_mem_singleton]
                exact ⟨fun hno other hother => Option.some.inj hother ▸ hno, fun h => h field' rfl⟩
            | _ => cases hfield
      rw [List.flatten_cons, List.forall_mem_append, List.forall_mem_cons, hone, ih hsealed.2]

theorem stdinText_plain {text : Option String} (h : stdinText tool payload = .ok text) :
    ∀ t, text = some t → IsPlain t := by
  unfold stdinText at h
  split at h
  · obtain rfl := Except.ok.inj h
    intro t ht
    cases ht
  · obtain ⟨given, hgiven, rfl⟩ := map_ok_iff.mp h
    exact fun t ht => Option.some.inj ht ▸ requiredText_ok hgiven

/-- The payload asks for no more than the policy allows, and marks where to fuzz. -/
structure Allowed (py : Python) (tool : ToolDefinition) (payload : Dict) : Prop where
  rps : ∃ rps, py.int (asked payload "rps") = .ok rps ∧ rps ≤ tool.maxRps
  concurrency : ∃ concurrency, py.int (asked payload "concurrency") = .ok concurrency ∧
    concurrency ≤ tool.maxConcurrency
  required : ∀ field ∈ tool.required, ∃ text, requiredText payload field = .ok text
  fuzz : tool.id = "local.ffuf" → ∃ url, requiredText payload "url" = .ok url ∧
    "FUZZ".toList <:+: url.toList

theorem discard_ok {β : Type} {x : Checked β} {done : Unit} (h : discard x = .ok done) :
    ∃ value, x = .ok value := by
  cases x with
  | error raised => cases h
  | ok value => exact ⟨value, rfl⟩

theorem validatePolicy_ok {done : Unit} (h : validatePolicy py tool payload = .ok done) :
    Allowed py tool payload := by
  unfold validatePolicy at h
  obtain ⟨_, hrequired, h⟩ := bind_ok_iff.mp h
  obtain ⟨_, -, h⟩ := bind_ok_iff.mp h
  obtain ⟨rps, hrps, h⟩ := bind_ok_iff.mp h
  obtain ⟨hrpsLimit, h⟩ := unless_ok_iff.mp h
  obtain ⟨concurrency, hconcurrency, h⟩ := bind_ok_iff.mp h
  obtain ⟨hlimit, h⟩ := unless_ok_iff.mp h
  refine ⟨⟨rps, hrps, Int.not_lt.mp hrpsLimit⟩, ⟨concurrency, hconcurrency, Int.not_lt.mp hlimit⟩,
    fun field hfield => discard_ok (forM_ok hrequired field hfield), fun hid => ?_⟩
  rw [if_pos hid] at h
  obtain ⟨url, hurl, h⟩ := bind_ok_iff.mp h
  obtain ⟨hmarker, -⟩ := unless_ok_iff.mp h
  exact ⟨url, hurl, not_not.mp hmarker⟩

/-- **On a POSIX host** the command of a tool is faithful for texts without NULs. -/
theorem faithful_posix {known : Tool} {backend : ToolBackend} {containerId : Nat}
    {environment : List (Text × Text)} {args : List Text} {text : Option Text}
    (hremote : backend = .SSH → RemoteSafe containerId environment) :
    Faithful .posix backend containerId environment known.executable args text ↔
      ∀ t ∈ args ++ text.toList, nul ∉ t := by
  have hcommand := @toolCommand_sh .posix backend (by simp) known args text
  cases backend with
  | LOCAL => simp only [Faithful, hcommand, startsTool_posix, runsTool_posix]
  | SSH =>
      have hnul : nul ∉ toolCommand .posix .SSH known.executable (known.executable :: args) text ↔
          ∀ t ∈ args ++ text.toList, nul ∉ t := by
        rw [nul_mem_toolCommand]
        simp only [not_exists, not_and]
      rw [faithful_ssh, hnul, hcommand, runsTool_posix]
      exact ⟨fun h => h.2.1, fun h => ⟨hremote rfl, h, h⟩⟩

theorem toLower_of_isLower {c : Char} (h : c.isLower = true) : c.toLower = c := by
  unfold Char.isLower at h
  unfold Char.toLower
  rw [Bool.and_eq_true, decide_eq_true_eq, decide_eq_true_eq] at h
  split
  · rename_i hupper
    have hlow : 97 ≤ c.val.toNat := h.1
    have hhigh : c.val.toNat ≤ 90 := hupper.2
    omega
  · rfl

theorem lowerAscii_lower (text : String) (h : text.toList.all Char.isLower = true) :
    TargetUrls.lowerAscii text = text := by
  refine String.toList_injective ?_
  unfold TargetUrls.lowerAscii
  rw [String.toList_ofList]
  conv_rhs => rw [← List.map_id text.toList]
  exact List.map_congr_left (fun c hc => toLower_of_isLower (List.all_eq_true.mp h c hc))

/-- `int`, of whole numbers. -/
def wholeNumber : Value → Except IntFailure Int
  | .number n 0 => .ok n
  | .str _ => .error (.valueError "invalid literal for int()")
  | _ => .error (.typeError "int() argument must be a string or a real number")

/-- Python, as far as ASCII texts and whole numbers go. -/
def asciiPython : Python where
  urlsplit := TargetUrls.splitAuthority
  upper := fun text => String.ofList (text.toList.map Char.toUpper)
  lower := TargetUrls.lowerAscii
  render := fun _ => ""
  toInt := wholeNumber
  lower_lower := lowerAscii_lower

theorem nul_notMem_empty (_ : ScriptName) : nul ∉ "".toList := by decide

/-- Scripts that do nothing. -/
def emptyScripts : Scripts where
  text := fun _ => ""
  noNul := nul_notMem_empty

/-- A scan of one host. -/
def scanPayload : Dict := [("target", .str " 10.0.0.1 "), ("rps", .number 20 0)]

end Workbench.Toolpack
