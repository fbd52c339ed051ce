import CyberWorkbench.PosixShell
import CyberWorkbench.PowerShell

/-!
# The command strings of tools

The toolpack turns the tokens of a tool run into one command string.  It quotes
them for the shell of the control host, `os.name`; but the shell that reads the
string is the one of the backend: the control host's own for a local tool, and
`sh` on the remote host for an SSH tool.

`Faithful` says what a command string is for: in the shell that reads it, it
starts the tool with its tokens.
-/

namespace Workbench.CommandEncoding

open PosixShell (Text Word literal apostrophe nul)

/-! ### Quoting -/

/-- The ASCII characters that `shlex` leaves unquoted. -/
def isSafe (c : Char) : Bool := c.isAlphanum || decide (c ∈ "_@%+=:,./-".toList)

/-- `shlex.quote`. -/
def shlexQuote (value : Text) : Text :=
  if value = [] then [apostrophe, apostrophe]
  else if value.all isSafe then value
  else
    apostrophe :: value.flatMap (fun c => if c = apostrophe then "'\"'\"'".toList else [c]) ++
      [apostrophe]

/-- `_powershell_quote`. -/
def powershellQuote (value : Text) : Text :=
  apostrophe :: value.flatMap (fun c => if c = apostrophe then "''".toList else [c]) ++ [apostrophe]

/-- `" ".join(quote(token) for token in tokens)`. -/
def joined (quote : Text → Text) (tokens : List Text) : Text :=
  [' '].intercalate (tokens.map quote)

/-- A joined list is its first token and the others behind blanks. -/
theorem joined_cons (quote : Text → Text) (token : Text) (tokens : List Text) :
    joined quote (token :: tokens) = quote token ++ tokens.flatMap (fun t => ' ' :: quote t) := by
  induction tokens generalizing token with
  | nil => simp [joined]
  | cons next tokens ih =>
      have hnext := ih next
      unfold joined at hnext ⊢
      rw [List.map_cons, List.map_cons, List.intercalate_cons_cons, ← List.map_cons, hnext]
      simp

/-! ### Command strings -/

/-- `os.name` of the control host. -/
inductive ControlHost where
  | posix
  | nt
  deriving DecidableEq, Repr

inductive ToolBackend where
  | LOCAL
  | SSH
  deriving DecidableEq, Repr

/-- `_powershell_command`. -/
def powershellCommand (tokens : List Text) (stdinText : Option Text) : Text :=
  let call := "& ".toList ++ (joined powershellQuote tokens ++ "; exit $LASTEXITCODE".toList)
  match stdinText with
  | some text => powershellQuote text ++ (" | ".toList ++ call)
  | none => call

/-- `_shell_command`. -/
def shellCommand (host : ControlHost) (tokens : List Text) (stdinText : Option Text) : Text :=
  match host with
  | .nt => powershellCommand tokens stdinText
  | .posix =>
      match stdinText with
      | none => joined shlexQuote tokens
      | some text => "printf '%s\\n' ".toList ++
          (shlexQuote text ++ (" | ".toList ++ joined shlexQuote tokens))

/-- `_with_tool_precheck`. -/
def withToolPrecheck (host : ControlHost) (backend : ToolBackend) (executable command : Text)
    (args : List Text) (stdinText : Option Text) : Text :=
  if backend = .LOCAL ∧ host = .nt then
    "if (-not (Get-Command ".toList ++ (powershellQuote executable ++
      (" -ErrorAction SilentlyContinue)) \x7b exit 127 \x7d; ".toList ++
        powershellCommand args stdinText))
  else
    "command -v ".toList ++ (shlexQuote executable ++
      (" >/dev/null 2>&1 || exit 127; exec ".toList ++ command))

/-- The command string of a tool run. -/
def toolCommand (host : ControlHost) (backend : ToolBackend) (executable : Text)
    (tokens : List Text) (stdinText : Option Text) : Text :=
  withToolPrecheck host backend executable (shellCommand host tokens stdinText) tokens stdinText

/-! ### Where they run -/

/-- `powershell.exe` and the options in front of a command. -/
def powershellInvocation : List Text :=
  ["powershell.exe", "-NoLogo", "-NoProfile", "-NonInteractive", "-Command"].map String.toList

/-- `shell_invocation`. -/
def shellInvocation (host : ControlHost) (command : Text) : List Text :=
  match host with
  | .nt => powershellInvocation ++ [command]
  | .posix => ["/bin/sh".toList, "-lc".toList, command]

/-- `[A-Za-z_][A-Za-z0-9_]*`. -/
def isVariableName (key : Text) : Bool :=
  match key with
  | [] => false
  | c :: rest => (c.isAlpha || c = '_') && rest.all (fun c => c.isAlphanum || c = '_')

/-- The digits of an id. -/
def idText (containerId : Nat) : Text := (toString containerId).toList

/-- `remote_workspace_shell_path`, for a positive id. -/
def remoteWorkspaceShellPath (containerId : Nat) : Text :=
  "\"$HOME/.zj/sandboxes/".toList ++ (idText containerId ++ "/workspace\"".toList)

/-- `remote_command`. -/
def remoteCommand (containerId : Nat) (command : Text) (environment : List (Text × Text)) :
    Except String Text :=
  if containerId = 0 then .error "workspace id must be positive"
  else
    match environment.find? (fun entry => !isVariableName entry.1) with
    | some entry => .error ("invalid remote environment variable: " ++ String.ofList entry.1)
    | none =>
        let workspace := remoteWorkspaceShellPath containerId
        let assignments := environment.flatMap (fun entry =>
          ' ' :: (entry.1 ++ '=' :: shlexQuote entry.2))
        .ok ("mkdir -p -- ".toList ++ (workspace ++ (" && cd -- ".toList ++ (workspace ++
          (" && exec env".toList ++ (assignments ++ (" sh -lc ".toList ++ shlexQuote command)))))))

/-! ### What is meant -/

/-- A program and the shell language of its last argument. -/
inductive Runner where
  | sh (script : Text)
  | powershell (script : Text)
  deriving DecidableEq, Repr

/-- The shell an argument vector runs a script with, behind `env` or not. -/
def runnerOf (argv : List Text) : Option Runner :=
  let argv := if argv.head? = some "env".toList then argv.tail.dropWhile (fun arg => '=' ∈ arg)
    else argv
  match argv with
  | [shell, option, script] =>
      if (shell = "/bin/sh".toList ∨ shell = "sh".toList) ∧ option = "-lc".toList then
        some (.sh script)
      else none
  | _ =>
      match argv.getLast? with
      | some script => if argv = powershellInvocation ++ [script] then some (.powershell script) else none
      | none => none

/-- Lookup of the tool on the host of the shell. -/
def precheckArgv (tool : Text) : List Text := ["command".toList, "-v".toList, tool]

/-- What `sh` is to start. -/
def expectedStarted (tokens : List Text) (stdinText : Option Text) : List (List Text) :=
  match stdinText with
  | none => [tokens]
  | some text => [["printf".toList, "%s\\n".toList, text], tokens]

/-- The shell starts the tool with its tokens, and nothing else, if the tool is
there; and nothing at all if it is not. -/
def Runner.RunsTool (tool : Text) (args : List Text) (stdinText : Option Text) : Runner → Prop
  | .sh script => ∀ env : PosixShell.Environment, PosixShell.run env script =
      some (if env.succeeds (precheckArgv tool) then expectedStarted (tool :: args) stdinText else [])
  | .powershell script => ∀ finds : Text → Bool, PowerShell.run finds script =
      some (if finds tool then [.start (tool :: args) stdinText] else [])

/-- The argument vector runs a shell that starts the tool with its tokens. -/
def StartsTool (argv : List Text) (tool : Text) (args : List Text) (stdinText : Option Text) : Prop :=
  ∃ runner, runnerOf argv = some runner ∧ runner.RunsTool tool args stdinText

/-- The directory of a remote workspace. -/
def workspacePath (env : PosixShell.Environment) (containerId : Nat) : Text :=
  env.param "HOME".toList ++
    ("/.zj/sandboxes/".toList ++ (idText containerId ++ "/workspace".toList))

/-- `mkdir` and `cd` of a remote command. -/
def mkdirArgv (path : Text) : List Text := ["mkdir".toList, "-p".toList, "--".toList, path]

def cdArgv (path : Text) : List Text := ["cd".toList, "--".toList, path]

/-- A tool run's command, in the shell that reads it, starts the tool with its
tokens. -/
def Faithful (host : ControlHost) (backend : ToolBackend) (containerId : Nat)
    (environment : List (Text × Text)) (tool : Text) (args : List Text) (stdinText : Option Text) :
    Prop :=
  let command := toolCommand host backend tool (tool :: args) stdinText
  match backend with
  | .LOCAL => StartsTool (shellInvocation host command) tool args stdinText
  | .SSH => ∃ remote, remoteCommand containerId command environment = .ok remote ∧
      ∀ env : PosixShell.Environment, env.succeeds (mkdirArgv (workspacePath env containerId)) = true →
        env.succeeds (cdArgv (workspacePath env containerId)) = true →
        ∃ argv, PosixShell.run env remote = some [mkdirArgv (workspacePath env containerId), argv] ∧
          StartsTool argv tool args stdinText

/-! ### Tools -/

/-- A name no shell reads as anything but a program's. -/
def IsToolName (name : Text) : Prop :=
  name ≠ [] ∧ name.all (fun c => isSafe c && c != '=') = true ∧ name.head? ≠ some '-' ∧
    PosixShell.reservedWords.contains name = false ∧
    PosixShell.otherBuiltins.contains name = false ∧
    (["exit", "exec", "cd", "command"].map String.toList).contains name = false

instance (name : Text) : Decidable (IsToolName name) := by unfold IsToolName; infer_instance

/-- The executable of a tool. -/
structure Tool where
  executable : Text
  isToolName : IsToolName executable

theorem Tool.safe (tool : Tool) : ∀ c ∈ tool.executable, isSafe c = true ∧ c ≠ '=' := by
  intro c hc
  have hall := List.all_eq_true.mp tool.isToolName.2.1 c hc
  simpa using hall

/-- No tool has a character that quotes. -/
theorem Tool.notMem (tool : Tool) {c : Char} (hc : isSafe c = false) : c ∉ tool.executable := by
  intro hmem
  rw [(tool.safe c hmem).1] at hc
  cases hc

/-- The executables of the toolpack. -/
def toolExecutables : List Text :=
  ["python", "python3", "httpx", "dnsx", "ffuf", "nmap", "sqlmap"].map String.toList

theorem isToolName_of_toolExecutables : ∀ name ∈ toolExecutables, IsToolName name := by decide

end Workbench.CommandEncoding
