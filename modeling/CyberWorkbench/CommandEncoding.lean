import CyberWorkbench.ShellTools
import CyberWorkbench.PowerShellTools

/-!
# How a tool's command is encoded

`encoding_exact`: on a POSIX host the command string starts the tool with its
tokens whatever they are.  On Windows a local tool needs tokens without typographic
quotes, which PowerShell takes for its own, and an SSH tool tokens without
apostrophes and nothing on its standard input.  `token_starts_command` is a token
that starts a command.
-/

namespace Workbench.CommandEncoding

open PosixShell (Text Word literal apostrophe nul)

/-! ### Remote commands -/

/-- The path behind its `$`. -/
def pathText (containerId : Nat) : Text :=
  "HOME/.zj/sandboxes/".toList ++ (idText containerId ++ "/workspace".toList)

/-- The word of a workspace's path. -/
def pathWord (containerId : Nat) : Word := .dollar true :: literal true (pathText containerId)

/-- The word of an assignment behind `env`. -/
def assignmentWord (entry : Text × Text) : Word :=
  literal false (entry.1 ++ ['=']) ++ shlexWord entry.2

/-- The argument it is. -/
def assignmentText (entry : Text × Text) : Text := entry.1 ++ '=' :: entry.2

theorem remoteWorkspaceShellPath_eq (containerId : Nat) : remoteWorkspaceShellPath containerId =
    "\"$".toList ++ (pathText containerId ++ "\"".toList) := by
  have hstart : "\"$HOME/.zj/sandboxes/".toList = "\"$".toList ++ "HOME/.zj/sandboxes/".toList := by simp
  have hend : "/workspace\"".toList = "/workspace".toList ++ "\"".toList := by simp
  unfold remoteWorkspaceShellPath pathText
  rw [hstart, hend]
  simp only [List.append_assoc]

theorem isSafe_pathText (containerId : Nat) : ∀ c ∈ pathText containerId, isSafe c = true := by
  have hstart : ∀ d ∈ "HOME/.zj/sandboxes/".toList, isSafe d = true :=
    List.all_eq_true.mp (by decide)
  have hend : ∀ d ∈ "/workspace".toList, isSafe d = true := List.all_eq_true.mp (by decide)
  intro c hc
  unfold pathText at hc
  rw [List.mem_append, List.mem_append] at hc
  rcases hc with hc | hc | hc
  · exact hstart c hc
  · have hdigits : idText containerId = Nat.toDigits 10 containerId := Nat.toList_repr
    rw [hdigits] at hc
    have hdigit : c.isDigit = true := Nat.isDigit_of_mem_toDigits (by decide) (by decide) hc
    simp [isSafe, Char.isAlphanum, hdigit]
  · exact hend c hc

theorem read_path (containerId : Nat) (tokens : List PosixShell.Token) :
    (blank tokens).read (remoteWorkspaceShellPath containerId) =
      some (.mk .plain (some (pathWord containerId)) tokens) := by
  have hopen : (blank tokens).read "\"$".toList =
      some (.mk .double (some [.dollar true]) tokens) := rfl
  have hclose : ∀ w, (PosixShell.Lexer.mk .double (some w) tokens).read "\"".toList =
      some (.mk .plain (some w) tokens) := fun w => rfl
  have hpath : ∀ c ∈ pathText containerId,
      c ≠ nul ∧ c ≠ PosixShell.doubleQuote ∧ c ≠ '\\' ∧ c ≠ '\x60' ∧ c ≠ '$' := by
    intro c hc
    have hne : ∀ d, isSafe d = false → c ≠ d := by
      rintro d hd rfl
      rw [isSafe_pathText containerId c hc] at hd
      cases hd
    exact ⟨hne _ (by decide), hne _ (by decide), hne _ (by decide), hne _ (by decide),
      hne _ (by decide)⟩
  have hread := PosixShell.Lexer.read_double
    (l := .mk .double (some [.dollar true]) tokens) rfl rfl hpath
  rw [remoteWorkspaceShellPath_eq, PosixShell.Lexer.read_append_of hopen,
    PosixShell.Lexer.read_append_of hread]
  exact hclose _

/-- The value of the path. -/
theorem fieldsOf_path (env : PosixShell.Environment) (containerId : Nat) :
    PosixShell.fieldsOf env (pathWord containerId) = [workspacePath env containerId] := by
  have hdollar : PosixShell.Piece.dollar false ∉ pathWord containerId := by
    rw [pathWord, List.mem_cons, not_or]
    exact ⟨by simp, PosixShell.dollar_notMem_literal true _ false⟩
  have hname : ∀ word : Word, PosixShell.expandFrom env.param (some [])
      (literal true "HOME".toList ++ .char '/' true :: word) =
        env.param "HOME".toList ++ '/' :: PosixShell.expandFrom env.param none word :=
    fun word => rfl
  have hsplit : "HOME/.zj/sandboxes/".toList =
      "HOME".toList ++ '/' :: ".zj/sandboxes/".toList := by simp
  have hslash : "/.zj/sandboxes/".toList = '/' :: ".zj/sandboxes/".toList := by simp
  have hword : literal true (pathText containerId) = literal true "HOME".toList ++
      .char '/' true :: literal true (".zj/sandboxes/".toList ++
        (idText containerId ++ "/workspace".toList)) := by
    unfold pathText literal
    rw [hsplit]
    simp only [List.append_assoc, List.cons_append, List.map_append, List.map_cons]
  have hvalue := PosixShell.expand_literal env true (".zj/sandboxes/".toList ++
    (idText containerId ++ "/workspace".toList))
  unfold PosixShell.expand at hvalue
  unfold workspacePath
  rw [PosixShell.fieldsOf, if_neg hdollar, PosixShell.expand, pathWord, hword,
    PosixShell.expandFrom, hname, hvalue, hslash, List.cons_append]

theorem isSafe_of_isVariableName {key : Text} (h : isVariableName key = true) :
    ∀ c ∈ key, isSafe c = true := by
  cases key with
  | nil => simp [isVariableName] at h
  | cons first rest =>
      simp only [isVariableName, Bool.and_eq_true, Bool.or_eq_true, List.all_eq_true,
        decide_eq_true_eq] at h
      intro c hc
      rcases List.mem_cons.mp hc with rfl | hmem
      · rcases h.1 with hletter | rfl
        · simp [isSafe, Char.isAlphanum, hletter]
        · decide
      · rcases h.2 c hmem with hletter | rfl
        · simp [isSafe, hletter]
        · decide

/-- An assignment is read as one word. -/
theorem assignment_quotesAs {entry : Text × Text} (hkey : isVariableName entry.1 = true)
    (hnul : nul ∉ entry.2) :
    PosixShell.QuotesAs (fun e : Text × Text => e.1 ++ '=' :: shlexQuote e.2) assignmentWord entry := by
  intro tokens
  have hsafe : ∀ c ∈ entry.1 ++ ['='], c ∉ PosixShell.Lexer.special := by
    intro c hc
    rcases List.mem_append.mp hc with hmem | hmem
    · exact notMem_special_of_isSafe (isSafe_of_isVariableName hkey c hmem)
    · exact notMem_special_of_isSafe (List.mem_singleton.mp hmem ▸ by decide)
  have hname := PosixShell.Lexer.read_ordinary (l := blank tokens) rfl hsafe (by simp)
  change (blank tokens).read (entry.1 ++ '=' :: shlexQuote entry.2) = _
  rw [← List.singleton_append, ← List.append_assoc, PosixShell.Lexer.read_append_of hname]
  exact read_shlexQuote hnul _ tokens

/-- The program a remote command ends in. -/
def envArgv (environment : List (Text × Text)) (command : Text) : List Text :=
  "env".toList :: (environment.map assignmentText ++ ["sh".toList, "-lc".toList, command])

/-- What a remote command can be made from. -/
def RemoteSafe (containerId : Nat) (environment : List (Text × Text)) : Prop :=
  containerId ≠ 0 ∧ ∀ entry ∈ environment, isVariableName entry.1 = true ∧ nul ∉ entry.2

/-- The text of a remote command. -/
def remoteText (containerId : Nat) (command : Text) (environment : List (Text × Text)) : Text :=
  "mkdir -p -- ".toList ++ (remoteWorkspaceShellPath containerId ++ (" && cd -- ".toList ++
    (remoteWorkspaceShellPath containerId ++ (" && exec env".toList ++
      (environment.flatMap (fun entry => ' ' :: (entry.1 ++ '=' :: shlexQuote entry.2)) ++
        (" sh -lc ".toList ++ shlexQuote command))))))

/-- `remote_command` accepts positive ids and variable names. -/
theorem remoteCommand_eq (containerId : Nat) (command : Text) (environment : List (Text × Text))
    (remote : Text) : remoteCommand containerId command environment = .ok remote ↔
      containerId ≠ 0 ∧ (∀ entry ∈ environment, isVariableName entry.1 = true) ∧
        remote = remoteText containerId command environment := by
  unfold remoteCommand
  by_cases hid : containerId = 0
  · simp [hid]
  · rw [if_neg hid]
    cases hfind : environment.find? (fun entry => !isVariableName entry.1) with
    | some entry =>
        have hentry := List.find?_some hfind
        have hmem := List.mem_of_find?_eq_some hfind
        simp only [reduceCtorEq, false_iff, not_and]
        intro _ hnames
        rw [hnames entry hmem] at hentry
        cases hentry
    | none =>
        have hnames : ∀ entry ∈ environment, isVariableName entry.1 = true := by
          intro entry hmem
          have hnone := List.find?_eq_none.mp hfind entry hmem
          simpa using hnone
        constructor
        · intro h
          exact ⟨hid, hnames, (Except.ok.inj h).symm⟩
        · rintro ⟨-, -, rfl⟩
          rfl

/-- The tokens of a remote command. -/
def remoteTokens (containerId : Nat) (command : Text) (environment : List (Text × Text)) :
    List PosixShell.Token :=
  [fixed "mkdir", fixed "-p", fixed "--", pathWord containerId].map .word ++
    .separator .andIf :: ([fixed "cd", fixed "--", pathWord containerId].map .word ++
      .separator .andIf :: (fixed "exec" :: fixed "env" :: (environment.map assignmentWord ++
        [fixed "sh", fixed "-lc", shlexWord command])).map .word)

theorem lex_remoteText {containerId : Nat} {command : Text} {environment : List (Text × Text)}
    (hsafe : RemoteSafe containerId environment) (hnul : nul ∉ command) :
    PosixShell.lex (remoteText containerId command environment) =
      some (remoteTokens containerId command environment) := by
  have hmkdir : ({} : PosixShell.Lexer).read "mkdir -p -- ".toList =
      some (blank [.word (fixed "mkdir"), .word (fixed "-p"), .word (fixed "--")]) := rfl
  have hcd : ∀ w tokens, (PosixShell.Lexer.mk .plain (some w) tokens).read " && cd -- ".toList =
      some (blank (tokens ++ [.word w] ++ [.separator .andIf] ++ [.word (fixed "cd")] ++
        [.word (fixed "--")])) := fun w tokens => rfl
  have hexec : ∀ w tokens, (PosixShell.Lexer.mk .plain (some w) tokens).read " && exec env".toList =
      some (.mk .plain (some (fixed "env")) (tokens ++ [.word w] ++ [.separator .andIf] ++
        [.word (fixed "exec")])) := fun w tokens => rfl
  have hsh : ∀ tokens, (blank tokens).read "sh -lc ".toList =
      some (blank (tokens ++ [.word (fixed "sh")] ++ [.word (fixed "-lc")])) := fun tokens => rfl
  have hblank : " sh -lc ".toList = ' ' :: "sh -lc ".toList := by simp
  have hassignments : ∀ l : PosixShell.Lexer, l.mode = .plain →
      ∃ next, l.read (environment.flatMap (fun entry =>
          ' ' :: (entry.1 ++ '=' :: shlexQuote entry.2))) = some next ∧ next.mode = .plain ∧
        next.flush = { l.flush with
          tokens := l.flush.tokens ++ environment.map (fun entry => .word (assignmentWord entry)) } :=
    fun l hmode => PosixShell.read_arguments (fun entry hentry =>
      assignment_quotesAs (hsafe.2 entry hentry).1 (hsafe.2 entry hentry).2) hmode
  unfold PosixShell.lex remoteText
  rw [PosixShell.Lexer.read_append_of hmkdir, PosixShell.Lexer.read_append_of (read_path _ _),
    PosixShell.Lexer.read_append_of (hcd _ _), PosixShell.Lexer.read_append_of (read_path _ _),
    PosixShell.Lexer.read_append_of (hexec _ _)]
  obtain ⟨next, hread, hmode, hflush⟩ := hassignments (.mk .plain (some (fixed "env")) _) rfl
  rw [PosixShell.Lexer.read_append_of hread, hblank, List.cons_append, PosixShell.Lexer.read_cons,
    PosixShell.Lexer.step_blank hmode, Option.bind_some, hflush]
  change ((blank _).read _).bind _ = _
  rw [PosixShell.Lexer.read_append_of (hsh _), shlexQuote_quotesAs hnul, Option.bind_some]
  simp [PosixShell.Lexer.finish, PosixShell.Lexer.flush, remoteTokens]

theorem parse_remoteTokens (containerId : Nat) (command : Text) (environment : List (Text × Text)) :
    PosixShell.parse (remoteTokens containerId command environment) = some
      { first := ⟨[fixed "mkdir", fixed "-p", fixed "--", pathWord containerId], 0⟩
        rest := [(.andIf, ⟨[fixed "cd", fixed "--", pathWord containerId], 0⟩),
          (.andIf, ⟨fixed "exec" :: fixed "env" :: (environment.map assignmentWord ++
            [fixed "sh", fixed "-lc", shlexWord command]), 0⟩)] } := by
  have hlast := PosixShell.parse_words (fixed "exec" :: fixed "env" ::
    (environment.map assignmentWord ++ [fixed "sh", fixed "-lc", shlexWord command])) []
  rw [List.append_nil] at hlast
  unfold remoteTokens
  rw [PosixShell.parse_words, PosixShell.parse, PosixShell.parse_words, PosixShell.parse, hlast]
  simp [PosixShell.parse]

/-- The fields of the assignments. -/
theorem fields_assignments (env : PosixShell.Environment) (environment : List (Text × Text)) :
    (environment.map assignmentWord).flatMap (PosixShell.fieldsOf env) =
      environment.map assignmentText := by
  induction environment with
  | nil => rfl
  | cons entry environment ih =>
      rw [List.map_cons, List.flatMap_cons, ih, assignmentWord, shlexWord,
        PosixShell.fieldsOf_literal_append, List.map_cons, assignmentText]
      simp

/-- **A remote command** makes the workspace and goes on to `sh -lc` with the
command as it was given. -/
theorem run_remoteText (env : PosixShell.Environment) {containerId : Nat} {command : Text}
    {environment : List (Text × Text)} (hsafe : RemoteSafe containerId environment)
    (hnul : nul ∉ command)
    (hmkdir : env.succeeds (mkdirArgv (workspacePath env containerId)) = true)
    (hcd : env.succeeds (cdArgv (workspacePath env containerId)) = true) :
    PosixShell.run env (remoteText containerId command environment) =
      some [mkdirArgv (workspacePath env containerId), envArgv environment command] := by
  have hmkdirRun : PosixShell.Simple.run env
      ⟨[fixed "mkdir", fixed "-p", fixed "--", pathWord containerId], 0⟩ =
      some { started := [mkdirArgv (workspacePath env containerId)] } := by
    have hfields : [fixed "mkdir", fixed "-p", fixed "--", pathWord containerId].flatMap
        (PosixShell.fieldsOf env) = mkdirArgv (workspacePath env containerId) := by
      simp [fixed, PosixShell.fieldsOf_literal, fieldsOf_path, mkdirArgv]
    rw [PosixShell.Simple.run, hfields]
    have hbuiltin : "mkdir".toList ∉ PosixShell.otherBuiltins := by decide
    unfold mkdirArgv at hmkdir ⊢
    simpa [PosixShell.runFields] using And.intro hbuiltin hmkdir
  have hcdRun : PosixShell.Simple.run env ⟨[fixed "cd", fixed "--", pathWord containerId], 0⟩ =
      some {} := by
    have hfields : [fixed "cd", fixed "--", pathWord containerId].flatMap
        (PosixShell.fieldsOf env) = cdArgv (workspacePath env containerId) := by
      simp [fixed, PosixShell.fieldsOf_literal, fieldsOf_path, cdArgv]
    rw [PosixShell.Simple.run, hfields]
    unfold cdArgv at hcd ⊢
    simpa [PosixShell.runFields] using hcd
  have hexecRun : PosixShell.Simple.run env ⟨fixed "exec" :: fixed "env" ::
      (environment.map assignmentWord ++ [fixed "sh", fixed "-lc", shlexWord command]), 0⟩ =
      some { started := [envArgv environment command]
             status := env.succeeds (envArgv environment command)
             stops := true } := by
    have hfields : (fixed "exec" :: fixed "env" :: (environment.map assignmentWord ++
        [fixed "sh", fixed "-lc", shlexWord command])).flatMap (PosixShell.fieldsOf env) =
        "exec".toList :: envArgv environment command := by
      rw [List.flatMap_cons, List.flatMap_cons, List.flatMap_append, fields_assignments]
      simp [fixed, shlexWord, PosixShell.fieldsOf_literal, envArgv]
    rw [PosixShell.Simple.run, hfields]
    unfold envArgv
    simp [PosixShell.runFields]
  have hvalid : PosixShell.Script.valid
      { first := ⟨[fixed "mkdir", fixed "-p", fixed "--", pathWord containerId], 0⟩
        rest := [(.andIf, ⟨[fixed "cd", fixed "--", pathWord containerId], 0⟩),
          (.andIf, ⟨fixed "exec" :: fixed "env" :: (environment.map assignmentWord ++
            [fixed "sh", fixed "-lc", shlexWord command]), 0⟩)] } = true := by
    have hmk : PosixShell.isSyntax (fixed "mkdir") = false := by decide
    have hcd : PosixShell.isSyntax (fixed "cd") = false := by decide
    have hexec : PosixShell.isSyntax (fixed "exec") = false := by decide
    simp [PosixShell.Script.valid, PosixShell.validRest, PosixShell.Simple.valid, hmk, hcd, hexec]
  rw [PosixShell.run, lex_remoteText hsafe hnul, Option.bind_some, parse_remoteTokens,
    Option.bind_some, PosixShell.Script.run, if_pos hvalid]
  simp [PosixShell.runFrom, hmkdirRun, hcdRun, hexecRun]

/-- The shell that a remote command ends in. -/
theorem runnerOf_envArgv (environment : List (Text × Text)) (command : Text) :
    runnerOf (envArgv environment command) = some (.sh command) := by
  have hdrop : (environment.map assignmentText ++ ["sh".toList, "-lc".toList, command]).dropWhile
      (fun arg => decide ('=' ∈ arg)) = ["sh".toList, "-lc".toList, command] := by
    induction environment with
    | nil => rfl
    | cons entry environment ih =>
        rw [List.map_cons, List.cons_append, List.dropWhile_cons_of_pos]
        · exact ih
        · simp [assignmentText]
  unfold runnerOf envArgv
  simp only [List.head?_cons, if_true, List.tail_cons, hdrop]
  rfl

/-- The NULs of a quoted value. -/
theorem nul_mem_shlexQuote {token : Text} : nul ∈ shlexQuote token ↔ nul ∈ token := by
  have hnotSafe : ¬ isSafe nul = true := by decide
  have hescape : nul ∉ "'\"'\"'".toList := by decide
  unfold shlexQuote
  by_cases hempty : token = []
  · subst hempty
    decide
  · rw [if_neg hempty]
    by_cases hsafe : token.all isSafe = true
    · rw [if_pos hsafe]
    · rw [if_neg hsafe, List.cons_append, List.mem_cons, List.mem_append, List.mem_flatMap,
        List.mem_singleton]
      constructor
      · rintro (hquote | ⟨c, hc, hmem⟩ | hquote)
        · exact absurd hquote (by decide)
        · by_cases hapostrophe : c = apostrophe
          · rw [if_pos hapostrophe] at hmem
            exact absurd hmem hescape
          · rw [if_neg hapostrophe, List.mem_singleton] at hmem
            exact hmem ▸ hc
        · exact absurd hquote (by decide)
      · intro hmem
        refine .inr (.inl ⟨nul, hmem, ?_⟩)
        rw [if_neg (by decide)]
        exact List.mem_singleton_self nul

/-! ### The commands of both hosts -/

/-- The condition on the texts of a tool run.  `sh` behind a POSIX host takes all
of them; on Windows a local tool needs them without typographic quotes, and an SSH
tool needs tokens without apostrophes and nothing piped in. -/
def EncodingSafe (host : ControlHost) (backend : ToolBackend) (args : List Text)
    (stdinText : Option Text) : Prop :=
  match host, backend with
  | .posix, _ => True
  | .nt, .LOCAL => ∀ text ∈ args ++ stdinText.toList, PowershellSafe text
  | .nt, .SSH => stdinText = none ∧ ∀ arg ∈ args, apostrophe ∉ arg

/-- The command of a tool for `sh`. -/
theorem toolCommand_sh {host : ControlHost} {backend : ToolBackend}
    (h : ¬ (backend = .LOCAL ∧ host = .nt)) (tool : Tool) (args : List Text)
    (stdinText : Option Text) :
    toolCommand host backend tool.executable (tool.executable :: args) stdinText =
      toolLine tool (shellCommand host (tool.executable :: args) stdinText) := by
  unfold toolCommand withToolPrecheck toolLine
  rw [if_neg h]

theorem toolCommand_powershell (tool : Tool) (args : List Text) (stdinText : Option Text) :
    toolCommand .nt .LOCAL tool.executable (tool.executable :: args) stdinText =
      powershellLine tool (powershellCommand (tool.executable :: args) stdinText) := by
  unfold toolCommand withToolPrecheck powershellLine
  rw [if_pos ⟨rfl, rfl⟩]

/-- The NULs of a call for PowerShell. -/
theorem nul_mem_powershellCommand {tool : Tool} {args : List Text} {stdinText : Option Text} :
    nul ∈ powershellCommand (tool.executable :: args) stdinText ↔
      ∃ text ∈ args ++ stdinText.toList, nul ∈ text := by
  have hcall : nul ∈ "& ".toList ++ (joined powershellQuote (tool.executable :: args) ++
      "; exit $LASTEXITCODE".toList) ↔ ∃ arg ∈ args, nul ∈ arg := by
    have hamp : nul ∉ "& ".toList := by decide
    have hexit : nul ∉ "; exit $LASTEXITCODE".toList := by decide
    have htool : nul ∉ tool.executable := tool.notMem (by decide)
    simp only [List.mem_append, hamp, hexit, false_or, or_false, mem_joined (c := nul) (by decide),
      List.mem_cons, exists_eq_or_imp, htool, mem_powershellQuote (c := nul) (by decide)]
  unfold powershellCommand
  cases stdinText with
  | none => simpa using hcall
  | some text =>
      have hpipe : nul ∉ " | ".toList := by decide
      rw [List.mem_append, mem_powershellQuote (by decide), List.mem_append, hcall]
      simp only [hpipe, false_or, Option.toList_some, List.mem_append, List.mem_singleton]
      grind

/-- The NULs of a command for `sh`. -/
theorem nul_mem_shellCommand {host : ControlHost} {tool : Tool} {args : List Text}
    {stdinText : Option Text} :
    nul ∈ shellCommand host (tool.executable :: args) stdinText ↔
      ∃ text ∈ args ++ stdinText.toList, nul ∈ text := by
  have hjoined : nul ∈ joined shlexQuote (tool.executable :: args) ↔ ∃ arg ∈ args, nul ∈ arg := by
    have htool : nul ∉ tool.executable := tool.notMem (by decide)
    simp only [mem_joined (c := nul) (by decide), List.mem_cons, exists_eq_or_imp, nul_mem_shlexQuote, htool,
      false_or]
  unfold shellCommand
  cases host with
  | nt => exact nul_mem_powershellCommand
  | posix =>
      cases stdinText with
      | none => simpa using hjoined
      | some text =>
          have hprintf : nul ∉ "printf '%s\\n' ".toList := by decide
          have hpipe : nul ∉ " | ".toList := by decide
          simp only [List.mem_append, hprintf, hpipe, false_or, nul_mem_shlexQuote, hjoined,
            Option.toList_some, List.mem_singleton]
          grind

/-- **The NULs of a command string** are those of the run's texts. -/
theorem nul_mem_toolCommand {host : ControlHost} {backend : ToolBackend} {tool : Tool}
    {args : List Text} {stdinText : Option Text} :
    nul ∈ toolCommand host backend tool.executable (tool.executable :: args) stdinText ↔
      ∃ text ∈ args ++ stdinText.toList, nul ∈ text := by
  have htool : nul ∉ tool.executable := tool.notMem (by decide)
  unfold toolCommand withToolPrecheck
  split
  · have hbefore : nul ∉ "if (-not (Get-Command ".toList := by decide
    have hafter : nul ∉ " -ErrorAction SilentlyContinue)) \x7b exit 127 \x7d; ".toList := by decide
    simp only [List.mem_append, hbefore, hafter, mem_powershellQuote (c := nul) (by decide), htool,
      false_or, nul_mem_powershellCommand]
  · have hbefore : nul ∉ "command -v ".toList := by decide
    have hafter : nul ∉ " >/dev/null 2>&1 || exit 127; exec ".toList := by decide
    simp only [List.mem_append, hbefore, hafter, nul_mem_shlexQuote, htool, false_or,
      nul_mem_shellCommand]

/-! ### The exact condition -/

/-- A text that runs has no NUL. -/
theorem nul_notMem_of_run {env : PosixShell.Environment} {text : Text} {started : List (List Text)}
    (h : PosixShell.run env text = some started) : nul ∉ text := by
  intro hmem
  rw [PosixShell.run_nul hmem] at h
  cases h

/-- Nothing is lost from tokens without apostrophes. -/
theorem map_stripped_eq {args : List Text} :
    args.map stripped = args ↔ ∀ arg ∈ args, apostrophe ∉ arg := by
  have hone : ∀ {arg}, stripped arg = arg ↔ apostrophe ∉ arg := by
    intro arg
    rw [stripped, List.filter_eq_self]
    constructor
    · intro h hmem
      simpa using h apostrophe hmem
    · intro h c hc
      have hne : c ≠ apostrophe := fun heq => h (heq ▸ hc)
      simpa using hne
  induction args with
  | nil => simp
  | cons arg args ih =>
      rw [List.map_cons, List.cons.injEq, hone, List.forall_mem_cons]
      exact and_congr_right (fun _ => ih)

/-- Everything is found, and succeeds. -/
def allSucceed : PosixShell.Environment := { param := fun _ => [], succeeds := fun _ => true }

/-- **POSIX host**: texts without NULs. -/
theorem runsTool_posix {tool : Tool} {args : List Text} {stdinText : Option Text} :
    (Runner.sh (toolLine tool (shellCommand .posix (tool.executable :: args) stdinText))).RunsTool
        tool.executable args stdinText ↔ ∀ text ∈ args ++ stdinText.toList, nul ∉ text := by
  constructor
  · intro h text htext hmem
    refine nul_notMem_of_run (h allSucceed) ?_
    rw [← @toolCommand_sh _ .SSH (by simp), nul_mem_toolCommand]
    exact ⟨text, htext, hmem⟩
  · intro hnul env
    have hargs : ∀ arg ∈ args, nul ∉ arg := fun arg harg => hnul arg (List.mem_append_left _ harg)
    cases stdinText with
    | none => exact runs_plain env tool hargs
    | some text => exact runs_piped env tool hargs (hnul text (List.mem_append_right _ (by simp)))

/-- **Windows host, `sh`**: also no apostrophes and no standard input. -/
theorem runsTool_call {tool : Tool} {args : List Text} {stdinText : Option Text} :
    (Runner.sh (toolLine tool (shellCommand .nt (tool.executable :: args) stdinText))).RunsTool
        tool.executable args stdinText ↔
      (∀ text ∈ args ++ stdinText.toList, nul ∉ text) ∧ stdinText = none ∧
        ∀ arg ∈ args, apostrophe ∉ arg := by
  have hargs : (∀ text ∈ args ++ stdinText.toList, nul ∉ text) → ∀ arg ∈ args, nul ∉ arg :=
    fun h arg harg => h arg (List.mem_append_left _ harg)
  constructor
  · intro h
    have hnul : ∀ text ∈ args ++ stdinText.toList, nul ∉ text := by
      intro text htext hmem
      refine nul_notMem_of_run (h allSucceed) ?_
      rw [← @toolCommand_sh _ .SSH (by simp), nul_mem_toolCommand]
      exact ⟨text, htext, hmem⟩
    refine ⟨hnul, ?_⟩
    have hrun := h allSucceed
    cases stdinText with
    | none =>
        have hcall := runs_call allSucceed tool (hargs hnul)
        have heq := hcall.symm.trans hrun
        refine ⟨rfl, map_stripped_eq.mp ?_⟩
        exact (List.cons.inj (List.cons.inj (Option.some.inj heq)).1).2
    | some text =>
        have hcall := runs_piped_call allSucceed tool (hargs hnul)
          (hnul text (List.mem_append_right _ (by simp)))
        have heq := hcall.symm.trans hrun
        cases heq
  · rintro ⟨hnul, rfl, hquotes⟩ env
    have hrun := runs_call env tool (hargs hnul)
    rw [map_stripped_eq.mpr hquotes] at hrun
    exact hrun

/-- **Windows host, PowerShell**: also no typographic quotes. -/
theorem runsTool_powershell {tool : Tool} {args : List Text} {stdinText : Option Text} :
    (Runner.powershell (powershellLine tool
        (powershellCommand (tool.executable :: args) stdinText))).RunsTool
        tool.executable args stdinText ↔
      (∀ text ∈ args ++ stdinText.toList, nul ∉ text) ∧
        ∀ text ∈ args ++ stdinText.toList, PowershellSafe text := by
  constructor
  · intro h
    have hrun := h (fun _ => true)
    rw [if_pos rfl] at hrun
    have hnul : ∀ text ∈ args ++ stdinText.toList, nul ∉ text := by
      intro text htext hmem
      have hcommand : nul ∈ powershellLine tool
          (powershellCommand (tool.executable :: args) stdinText) := by
        rw [← toolCommand_powershell, nul_mem_toolCommand]
        exact ⟨text, htext, hmem⟩
      rw [PowerShell.run_nul hcommand] at hrun
      cases hrun
    refine ⟨hnul, fun text htext => ?_⟩
    by_cases hsafe : PowershellSafe text
    · exact hsafe
    · exact absurd hrun (runs_powershell_risky tool hnul ⟨text, htext, hsafe⟩)
  · rintro ⟨hnul, hsafe⟩ finds
    exact runs_powershell finds tool (fun text htext => ⟨hnul text htext, hsafe text htext⟩)

theorem startsTool_posix {command tool : Text} {args : List Text} {stdinText : Option Text} :
    StartsTool (shellInvocation .posix command) tool args stdinText ↔
      (Runner.sh command).RunsTool tool args stdinText := by
  have hrunner : runnerOf (shellInvocation .posix command) = some (.sh command) := rfl
  simp [StartsTool, hrunner]

theorem startsTool_nt {command tool : Text} {args : List Text} {stdinText : Option Text} :
    StartsTool (shellInvocation .nt command) tool args stdinText ↔
      (Runner.powershell command).RunsTool tool args stdinText := by
  have hrunner : runnerOf (shellInvocation .nt command) = some (.powershell command) := by
    simp [runnerOf, shellInvocation, powershellInvocation]
  simp [StartsTool, hrunner]

/-- **SSH tools**: the remote host runs the command, if there is a remote command. -/
theorem faithful_ssh {host : ControlHost} {containerId : Nat} {environment : List (Text × Text)}
    {tool : Text} {args : List Text} {stdinText : Option Text} :
    Faithful host .SSH containerId environment tool args stdinText ↔
      RemoteSafe containerId environment ∧
        nul ∉ toolCommand host .SSH tool (tool :: args) stdinText ∧
        (Runner.sh (toolCommand host .SSH tool (tool :: args) stdinText)).RunsTool
          tool args stdinText := by
  generalize hcommand : toolCommand host .SSH tool (tool :: args) stdinText = command
  unfold Faithful
  simp only [hcommand, remoteCommand_eq]
  constructor
  · rintro ⟨remote, ⟨hid, hnames, rfl⟩, h⟩
    obtain ⟨argv, hrun, hstarts⟩ := h allSucceed rfl rfl
    have hnul := nul_notMem_of_run hrun
    have hsafe : RemoteSafe containerId environment := by
      refine ⟨hid, fun entry hentry => ⟨hnames entry hentry, fun hmem => hnul ?_⟩⟩
      have hvalue : nul ∈ entry.1 ++ '=' :: shlexQuote entry.2 :=
        List.mem_append_right _ (List.mem_cons_of_mem _ (nul_mem_shlexQuote.mpr hmem))
      have hassignments : nul ∈ environment.flatMap (fun entry =>
          ' ' :: (entry.1 ++ '=' :: shlexQuote entry.2)) :=
        List.mem_flatMap.mpr ⟨entry, hentry, List.mem_cons_of_mem _ hvalue⟩
      unfold remoteText
      simp only [List.mem_append, hassignments, true_or, or_true]
    have htext : nul ∉ command := by
      intro hmem
      refine hnul ?_
      unfold remoteText
      simp only [List.mem_append, nul_mem_shlexQuote, hmem, or_true]
    rw [run_remoteText allSucceed hsafe htext rfl rfl] at hrun
    have hargv : envArgv environment command = argv := by simpa using hrun
    obtain ⟨runner, hrunner, hruns⟩ := hstarts
    rw [← hargv, runnerOf_envArgv] at hrunner
    exact ⟨hsafe, htext, Option.some.inj hrunner ▸ hruns⟩
  · rintro ⟨hsafe, htext, hruns⟩
    refine ⟨_, ⟨hsafe.1, fun entry hentry => (hsafe.2 entry hentry).1, rfl⟩, ?_⟩
    intro env hmkdir hcd
    exact ⟨_, run_remoteText env hsafe htext hmkdir hcd, _, runnerOf_envArgv environment command, hruns⟩

/-- **Command encoding.**  The command string of a tool run starts the tool with
its tokens exactly when they hold nothing that its quoting does not protect in the
shell that reads it. -/
theorem encoding_exact (tool : Tool) (host : ControlHost) (backend : ToolBackend) (containerId : Nat)
    (environment : List (Text × Text)) (args : List Text) (stdinText : Option Text) :
    Faithful host backend containerId environment tool.executable args stdinText ↔
      (∀ text ∈ args ++ stdinText.toList, nul ∉ text) ∧
        EncodingSafe host backend args stdinText ∧
        (backend = .SSH → RemoteSafe containerId environment) := by
  cases backend with
  | LOCAL =>
      cases host with
      | posix =>
          have hcommand := @toolCommand_sh .posix .LOCAL (by simp) tool args
            stdinText
          simp only [Faithful, hcommand, startsTool_posix, runsTool_posix, EncodingSafe]
          simp
      | nt =>
          simp only [Faithful, toolCommand_powershell, startsTool_nt, runsTool_powershell, EncodingSafe]
          simp
  | SSH =>
      have hcommand := @toolCommand_sh host .SSH (by simp) tool args stdinText
      have hnul : nul ∉ toolCommand host .SSH tool.executable (tool.executable :: args) stdinText ↔
          ∀ text ∈ args ++ stdinText.toList, nul ∉ text := by
        rw [nul_mem_toolCommand]
        simp only [not_exists, not_and]
      rw [faithful_ssh, hnul, hcommand]
      cases host with
      | posix =>
          rw [runsTool_posix]
          simp only [EncodingSafe, true_and, forall_const]
          exact ⟨fun h => ⟨h.2.1, h.1⟩, fun h => ⟨h.2, h.1, h.1⟩⟩
      | nt =>
          rw [runsTool_call]
          simp only [EncodingSafe, forall_const]
          exact ⟨fun h => ⟨h.2.1, h.2.2.2, h.1⟩, fun h => ⟨h.2.2, h.1, h.1, h.2.1⟩⟩

/-- A token with typographic quotes, such as a host may be. -/
def quotingToken : Text := "x\u2019;calc;\u2019".toList

/-- **A token starts a command.**  PowerShell ends the string at the first
typographic quote. -/
theorem token_starts_command :
    PowerShell.run (fun _ => true)
        (toolCommand .nt .LOCAL "nmap".toList ["nmap".toList, quotingToken] none) =
      some [.start ["nmap".toList, "x".toList] none, .start ["calc".toList] none, .output []] ∧
    ¬ Faithful .nt .LOCAL 1 [] "nmap".toList [quotingToken] none := by
  have hrun : PowerShell.run (fun _ => true)
      (toolCommand .nt .LOCAL "nmap".toList ["nmap".toList, quotingToken] none) =
      some [.start ["nmap".toList, "x".toList] none, .start ["calc".toList] none, .output []] := by
    decide +kernel
  refine ⟨hrun, fun hfaithful => ?_⟩
  have hstarted := startsTool_nt.mp hfaithful (fun _ => true)
  rw [hrun] at hstarted
  exact absurd hstarted (by decide)

end Workbench.CommandEncoding
