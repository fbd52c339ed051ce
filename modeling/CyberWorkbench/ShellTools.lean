import CyberWorkbench.CommandStrings

/-!
# Command strings in `sh`

`shlex.quote` is faithful (`read_shlexQuote`), so a POSIX host's command string
starts the tool with its tokens, with text on its standard input or without
(`runs_plain`, `runs_piped`).  Quoted for PowerShell a token loses its apostrophes
(`powershellQuote_quotesAs`), and a call with text piped in is no command
(`runs_call`, `runs_piped_call`).
-/

namespace Workbench.CommandEncoding

open PosixShell (Text Word literal apostrophe nul)

/-! ### Quoted tokens in `sh` -/

/-- The lexer between two words. -/
abbrev blank (tokens : List PosixShell.Token) : PosixShell.Lexer := .mk .plain none tokens

theorem notMem_special_of_isSafe {c : Char} (h : isSafe c = true) :
    c ∉ PosixShell.Lexer.special := by
  have hspecial : ∀ d ∈ PosixShell.Lexer.special, (!isSafe d) = true :=
    List.all_eq_true.mp (by decide)
  intro hmem
  have hc := hspecial c hmem
  rw [h] at hc
  cases hc

/-- `shlex.quote` leaves the token as it is. -/
def isBare (token : Text) : Bool := decide (token ≠ []) && token.all isSafe

/-- The word of a token that `shlex.quote` has quoted. -/
def shlexWord (token : Text) : Word := literal (!isBare token) token

/-- **`shlex.quote` is faithful**, at the beginning of a word or behind its first part. -/
theorem read_shlexQuote {token : Text} (hnul : nul ∉ token) (word : Option Word)
    (tokens : List PosixShell.Token) :
    (PosixShell.Lexer.mk .plain word tokens).read (shlexQuote token) =
      some (.mk .plain (some (word.getD [] ++ shlexWord token)) tokens) := by
  unfold shlexQuote shlexWord isBare
  by_cases hempty : token = []
  · subst hempty
    cases word <;> simp [literal] <;> rfl
  · rw [if_neg hempty]
    by_cases hsafe : token.all isSafe = true
    · have hordinary : ∀ c ∈ token, c ∉ PosixShell.Lexer.special :=
        fun c hc => notMem_special_of_isSafe (List.all_eq_true.mp hsafe c hc)
      rw [if_pos hsafe, PosixShell.Lexer.read_ordinary rfl hordinary hempty]
      simp [hempty, hsafe]
    · have hbody : ∀ (text : Text) (w : Word), nul ∉ text →
          (PosixShell.Lexer.mk .single (some w) tokens).read
            (text.flatMap (fun c => if c = apostrophe then "'\"'\"'".toList else [c])) =
          some (PosixShell.Lexer.mk .single (some (w ++ literal true text)) tokens) := by
        intro text
        induction text with
        | nil =>
            intro w _
            simp [literal]
        | cons c text ih =>
            intro w hnul
            simp only [List.mem_cons, not_or] at hnul
            have hrest := ih (w ++ [.char c true]) hnul.2
            rw [List.append_assoc] at hrest
            rw [List.flatMap_cons]
            by_cases hc : c = apostrophe
            · subst hc
              rw [if_pos rfl]
              exact hrest
            · rw [if_neg hc]
              have hstep : (PosixShell.Lexer.mk .single (some w) tokens).step c =
                  some (PosixShell.Lexer.mk .single (some (w ++ [.char c true])) tokens) := by
                simp [PosixShell.Lexer.step, Ne.symm hnul.1, hc, PosixShell.Lexer.add]
              rw [List.singleton_append, PosixShell.Lexer.read_cons, hstep]
              exact hrest
      rw [if_neg hsafe, List.cons_append, PosixShell.Lexer.read_cons]
      change (PosixShell.Lexer.mk .single (some (word.getD [])) tokens).read (_ ++ [apostrophe]) = _
      rw [PosixShell.Lexer.read_append_of (hbody token (word.getD []) hnul)]
      simp only [hsafe, Bool.and_false, Bool.not_false]
      rfl

theorem shlexQuote_quotesAs {token : Text} (hnul : nul ∉ token) :
    PosixShell.QuotesAs shlexQuote shlexWord token :=
  fun tokens => read_shlexQuote hnul none tokens

/-- The word `sh` makes of a token that is quoted for PowerShell. -/
def powershellWord (token : Text) : Word := literal true (token.filter (fun c => c ≠ apostrophe))

/-- **`_powershell_quote` in `sh`.**  The token loses its apostrophes. -/
theorem powershellQuote_quotesAs {token : Text} (hnul : nul ∉ token) :
    PosixShell.QuotesAs powershellQuote powershellWord token := by
  intro tokens
  have hbody : ∀ (text : Text) (w : Word), nul ∉ text →
      (PosixShell.Lexer.mk .single (some w) tokens).read
        (text.flatMap (fun c => if c = apostrophe then "''".toList else [c])) =
      some (PosixShell.Lexer.mk .single
        (some (w ++ literal true (text.filter (fun c => c ≠ apostrophe)))) tokens) := by
    intro text
    induction text with
    | nil =>
        intro w _
        simp [literal]
    | cons c text ih =>
        intro w hnul
        simp only [List.mem_cons, not_or] at hnul
        rw [List.flatMap_cons]
        by_cases hc : c = apostrophe
        · subst hc
          rw [if_pos rfl, List.filter_cons_of_neg (by simp)]
          exact ih w hnul.2
        · have hrest := ih (w ++ [.char c true]) hnul.2
          rw [List.append_assoc] at hrest
          have hstep : (PosixShell.Lexer.mk .single (some w) tokens).step c =
              some (PosixShell.Lexer.mk .single (some (w ++ [.char c true])) tokens) := by
            simp [PosixShell.Lexer.step, Ne.symm hnul.1, hc, PosixShell.Lexer.add]
          rw [if_neg hc, List.singleton_append, PosixShell.Lexer.read_cons, hstep,
            List.filter_cons_of_pos (by simpa using hc)]
          exact hrest
  unfold powershellQuote
  rw [List.cons_append, PosixShell.Lexer.read_cons]
  change (PosixShell.Lexer.mk .single (some []) tokens).read (_ ++ [apostrophe]) = _
  rw [PosixShell.Lexer.read_append_of (hbody token [] hnul)]
  rfl

/-- **Joined tokens** are so many words. -/
theorem read_joined {quote : Text → Text} {word : Text → Word} {token : Text}
    {tokens : List Text} (h : ∀ t ∈ token :: tokens, PosixShell.QuotesAs quote word t)
    (before : List PosixShell.Token) :
    ∃ next, (blank before).read (joined quote (token :: tokens)) = some next ∧
      next.mode = .plain ∧
      next.flush = blank (before ++ (token :: tokens).map (fun t => .word (word t))) := by
  obtain ⟨next, hread, hnext, hwords⟩ := PosixShell.read_arguments
    (fun t ht => h t (List.mem_cons_of_mem token ht))
    (l := PosixShell.Lexer.mk .plain (some (word token)) before) rfl
  refine ⟨next, ?_, hnext, ?_⟩
  · rw [joined_cons, PosixShell.Lexer.read_append_of (h token List.mem_cons_self before)]
    exact hread
  · rw [hwords]
    simp [PosixShell.Lexer.flush]

/-! ### The precheck -/

/-- Words of the scripts that are not tokens. -/
def fixed (text : String) : Word := literal false text.toList

/-- The tokens in front of the command. -/
def precheckTokens (tool : Text) : List PosixShell.Token :=
  [.word (fixed "command"), .word (fixed "-v"), .word (literal false tool), .great none,
    .word (fixed "/dev/null"), .greatAnd (some (fixed "2")), .word (fixed "1"),
    .separator .orIf, .word (fixed "exit"), .word (fixed "127"), .separator .semi,
    .word (fixed "exec")]

theorem Tool.isBare (tool : Tool) : isBare tool.executable = true := by
  obtain ⟨hne, -⟩ := tool.isToolName
  simp only [CommandEncoding.isBare, Bool.and_eq_true, decide_eq_true_eq, List.all_eq_true]
  exact ⟨hne, fun c hc => (tool.safe c hc).1⟩

theorem Tool.shlexWord (tool : Tool) : shlexWord tool.executable = literal false tool.executable := by
  simp [CommandEncoding.shlexWord, tool.isBare]

/-- The precheck is read up to its `exec`. -/
theorem read_precheck (tool : Tool) :
    ({} : PosixShell.Lexer).read ("command -v ".toList ++ (shlexQuote tool.executable ++
      " >/dev/null 2>&1 || exit 127; exec ".toList)) =
      some (blank (precheckTokens tool.executable)) := by
  have hbefore : ({} : PosixShell.Lexer).read "command -v ".toList =
      some (blank [.word (fixed "command"), .word (fixed "-v")]) := rfl
  rw [PosixShell.Lexer.read_append_of hbefore, PosixShell.Lexer.read_append_of
    (shlexQuote_quotesAs (tool.notMem (by decide)) _), tool.shlexWord]
  rfl

/-- The rest of a token list stands behind the precheck. -/
theorem parse_precheck (tool : Text) {tokens : List PosixShell.Token} {script : PosixShell.Script}
    (h : PosixShell.parse tokens = some script) :
    PosixShell.parse (precheckTokens tool ++ tokens) = some
      { first := ⟨[fixed "command", fixed "-v", literal false tool], 2⟩
        rest := [(.orIf, ⟨[fixed "exit", fixed "127"], 0⟩),
          (.semi, { script.first with words := fixed "exec" :: script.first.words })] ++
            script.rest } := by
  simp [precheckTokens, PosixShell.parse, h]

/-- **The precheck runs.**  The rest of the script does when the tool is there. -/
theorem run_precheck (env : PosixShell.Environment) (tool : Text) (command : PosixShell.Simple)
    (rest : List (PosixShell.Separator × PosixShell.Simple))
    (hvalid : PosixShell.validRest rest = true) :
    PosixShell.Script.run env
      { first := ⟨[fixed "command", fixed "-v", literal false tool], 2⟩
        rest := [(.orIf, ⟨[fixed "exit", fixed "127"], 0⟩),
          (.semi, { command with words := fixed "exec" :: command.words })] ++ rest } =
      if env.succeeds (precheckArgv tool) then
        PosixShell.runFrom env true false false false
          { command with words := fixed "exec" :: command.words } rest
      else some [] := by
  have hlookup : PosixShell.Simple.run env ⟨[fixed "command", fixed "-v", literal false tool], 2⟩ =
      some { status := env.succeeds (precheckArgv tool) } := by
    simp [PosixShell.Simple.run, fixed, PosixShell.fieldsOf_literal, PosixShell.runFields,
      precheckArgv]
  have hexit : PosixShell.Simple.run env ⟨[fixed "exit", fixed "127"], 0⟩ = some { stops := true } := by
    simp [PosixShell.Simple.run, fixed, PosixShell.fieldsOf_literal, PosixShell.runFields]
  have hvalid' : ∀ (name : String) (words : List Word) (redirections : Nat),
      PosixShell.isSyntax (fixed name) = false →
        PosixShell.Simple.valid ⟨fixed name :: words, redirections⟩ = true := by
    intro name words redirections hname
    simp [PosixShell.Simple.valid, hname]
  have hscript : PosixShell.validRest ((.orIf, ⟨[fixed "exit", fixed "127"], 0⟩) ::
      (.semi, { command with words := fixed "exec" :: command.words }) :: rest) = true := by
    cases rest with
    | nil => simp [PosixShell.validRest, hvalid' "exit" _ _ (by decide), hvalid' "exec" _ _ (by decide)]
    | cons next rest =>
        simp [PosixShell.validRest, hvalid' "exit" _ _ (by decide), hvalid' "exec" _ _ (by decide),
          hvalid]
  unfold PosixShell.Script.run PosixShell.Script.valid
  rw [List.cons_append, List.cons_append, List.nil_append, hscript,
    hvalid' "command" _ _ (by decide), Bool.and_true, if_pos rfl, PosixShell.runFrom, hlookup]
  cases hfound : env.succeeds (precheckArgv tool) with
  | true => simp [PosixShell.runFrom]
  | false => simp [PosixShell.runFrom, hexit]

/-- The command string behind the precheck of a tool. -/
def toolLine (tool : Tool) (command : Text) : Text :=
  "command -v ".toList ++ (shlexQuote tool.executable ++
    (" >/dev/null 2>&1 || exit 127; exec ".toList ++ command))

theorem lex_toolLine (tool : Tool) {command : Text} {tokens : List PosixShell.Token}
    (hlex : ∀ before, ((blank before).read command).bind PosixShell.Lexer.finish =
      some (before ++ tokens)) :
    PosixShell.lex (toolLine tool command) = some (precheckTokens tool.executable ++ tokens) := by
  have hread := PosixShell.Lexer.read_append_of (read_precheck tool) command
  rw [List.append_assoc, List.append_assoc] at hread
  have hlexed := hlex (precheckTokens tool.executable)
  rw [← hread] at hlexed
  exact hlexed

/-- **A command string behind the precheck**, once it is known how it lexes and parses. -/
theorem run_toolLine (env : PosixShell.Environment) (tool : Tool) {command : Text}
    {tokens : List PosixShell.Token} {script : PosixShell.Script}
    (hlex : ∀ before, ((blank before).read command).bind PosixShell.Lexer.finish =
      some (before ++ tokens))
    (hparse : PosixShell.parse tokens = some script)
    (hvalid : PosixShell.validRest script.rest = true) :
    PosixShell.run env (toolLine tool command) =
      if env.succeeds (precheckArgv tool.executable) then
        PosixShell.runFrom env true false false false
          { script.first with words := fixed "exec" :: script.first.words } script.rest
      else some [] := by
  rw [PosixShell.run, lex_toolLine tool hlex, Option.bind_some, parse_precheck _ hparse,
    Option.bind_some, run_precheck env _ _ _ hvalid]

/-! ### POSIX hosts -/

/-- The words of tokens quoted by `shlex.quote`. -/
def shlexTokens (tokens : List Text) : List PosixShell.Token :=
  tokens.map (fun token => .word (shlexWord token))

theorem parse_shlexTokens (tokens : List Text) (rest : List PosixShell.Token) :
    PosixShell.parse (shlexTokens tokens ++ rest) = (PosixShell.parse rest).map (fun s =>
      { s with first := { s.first with words := tokens.map shlexWord ++ s.first.words } }) := by
  have hwords : shlexTokens tokens = (tokens.map shlexWord).map .word := by
    simp [shlexTokens]
  rw [hwords, PosixShell.parse_words]

theorem fields_shlexWord (env : PosixShell.Environment) (tokens : List Text) :
    (tokens.map shlexWord).flatMap (PosixShell.fieldsOf env) = tokens :=
  PosixShell.fields_literal env (fun token => !isBare token) tokens

/-- A tool's name is the name of a program. -/
theorem Tool.runFields (tool : Tool) (env : PosixShell.Environment) (args : List Text) :
    PosixShell.runFields env (tool.executable :: args) =
      some { started := [tool.executable :: args]
             status := env.succeeds (tool.executable :: args) } := by
  obtain ⟨-, -, -, -, hbuiltin, hname⟩ := tool.isToolName
  rw [List.contains_eq_mem, decide_eq_false_iff_not] at hbuiltin
  simp only [List.contains_eq_mem, decide_eq_false_iff_not, List.map_cons, List.map_nil,
    List.mem_cons, List.not_mem_nil, or_false, not_or, String.reduceToList] at hname
  obtain ⟨hexit, hexec, hcd, hcommand⟩ := hname
  simp [PosixShell.runFields, hexit, hexec, hcd, hcommand, hbuiltin]

/-- Behind `exec` it is, too. -/
theorem Tool.runFields_exec (tool : Tool) (env : PosixShell.Environment) (args : List Text) :
    PosixShell.runFields env ("exec".toList :: tool.executable :: args) =
      some { started := [tool.executable :: args]
             status := env.succeeds (tool.executable :: args)
             stops := true } := by
  obtain ⟨-, -, hdash, -⟩ := tool.isToolName
  simp [PosixShell.runFields, hdash]

/-- **Without standard input**: `exec` and the tokens. -/
theorem runs_plain (env : PosixShell.Environment) (tool : Tool) {args : List Text}
    (hnul : ∀ arg ∈ args, nul ∉ arg) :
    PosixShell.run env (toolLine tool (joined shlexQuote (tool.executable :: args))) =
      some (if env.succeeds (precheckArgv tool.executable) then
        expectedStarted (tool.executable :: args) none else []) := by
  have hquotes : ∀ t ∈ tool.executable :: args, PosixShell.QuotesAs shlexQuote shlexWord t := by
    intro t ht
    rcases List.mem_cons.mp ht with rfl | hmem
    · exact shlexQuote_quotesAs (tool.notMem (by decide))
    · exact shlexQuote_quotesAs (hnul t hmem)
  have hlex : ∀ before, ((blank before).read (joined shlexQuote (tool.executable :: args))).bind
      PosixShell.Lexer.finish = some (before ++ shlexTokens (tool.executable :: args)) := by
    intro before
    obtain ⟨next, hread, hmode, hflush⟩ := read_joined hquotes before
    rw [hread, Option.bind_some, PosixShell.Lexer.finish, hmode]
    simp only [hflush]
    rfl
  have hparse := parse_shlexTokens (tool.executable :: args) []
  rw [List.append_nil] at hparse
  rw [run_toolLine env tool hlex hparse rfl]
  have hrun : PosixShell.Simple.run env
      ⟨fixed "exec" :: (tool.executable :: args).map shlexWord, 0⟩ =
      some { started := [tool.executable :: args]
             status := env.succeeds (tool.executable :: args)
             stops := true } := by
    rw [PosixShell.Simple.run, List.flatMap_cons, fields_shlexWord, fixed,
      PosixShell.fieldsOf_literal]
    exact tool.runFields_exec env args
  cases env.succeeds (precheckArgv tool.executable) with
  | true =>
      simp only [if_true, List.append_nil]
      rw [PosixShell.runFrom, hrun]
      rfl
  | false => rfl

/-- A tool's name is no syntax, quoted or not. -/
theorem Tool.isSyntax (tool : Tool) (quoted : Bool) :
    PosixShell.isSyntax (literal quoted tool.executable) = false := by
  obtain ⟨-, -, -, hreserved, -⟩ := tool.isToolName
  have hassignment : PosixShell.isAssignment (literal quoted tool.executable) = false := by
    have hequals : PosixShell.Piece.char '=' false ∉ literal quoted tool.executable := by
      intro hmem
      obtain ⟨c, hc, hpiece⟩ := List.mem_map.mp hmem
      exact (tool.safe c hc).2 (PosixShell.Piece.char.inj hpiece).1
    simp [PosixShell.isAssignment, hequals]
  unfold PosixShell.isSyntax
  rw [hassignment, Bool.false_or, List.any_eq_false]
  intro reserved hmem hword
  have htext := PosixShell.literal_inj (of_decide_eq_true hword)
  rw [List.contains_eq_mem, decide_eq_false_iff_not] at hreserved
  exact hreserved (htext ▸ hmem)

/-- **With standard input**: `exec printf` in a pipe to the tokens. -/
theorem runs_piped (env : PosixShell.Environment) (tool : Tool) {args : List Text} {text : Text}
    (hnul : ∀ arg ∈ args, nul ∉ arg) (htext : nul ∉ text) :
    PosixShell.run env (toolLine tool ("printf '%s\\n' ".toList ++ (shlexQuote text ++
      (" | ".toList ++ joined shlexQuote (tool.executable :: args))))) =
      some (if env.succeeds (precheckArgv tool.executable) then
        expectedStarted (tool.executable :: args) (some text) else []) := by
  have hquotes : ∀ t ∈ tool.executable :: args, PosixShell.QuotesAs shlexQuote shlexWord t := by
    intro t ht
    rcases List.mem_cons.mp ht with rfl | hmem
    · exact shlexQuote_quotesAs (tool.notMem (by decide))
    · exact shlexQuote_quotesAs (hnul t hmem)
  have hlex : ∀ before, ((blank before).read ("printf '%s\\n' ".toList ++ (shlexQuote text ++
      (" | ".toList ++ joined shlexQuote (tool.executable :: args))))).bind
      PosixShell.Lexer.finish = some (before ++ ([.word (fixed "printf"),
        .word (literal true "%s\\n".toList), .word (shlexWord text), .separator .pipe] ++
          shlexTokens (tool.executable :: args))) := by
    intro before
    have hprintf : (blank before).read "printf '%s\\n' ".toList = some (blank
        (before ++ [.word (fixed "printf")] ++ [.word (literal true "%s\\n".toList)])) := rfl
    have hpipe : ∀ tokens, (PosixShell.Lexer.mk .plain (some (shlexWord text)) tokens).read
        " | ".toList = some (blank (tokens ++ [.word (shlexWord text)] ++ [.separator .pipe])) :=
      fun tokens => rfl
    obtain ⟨next, hread, hmode, hflush⟩ := read_joined hquotes (before ++ [.word (fixed "printf")] ++
      [.word (literal true "%s\\n".toList)] ++ [.word (shlexWord text)] ++ [.separator .pipe])
    rw [PosixShell.Lexer.read_append_of hprintf,
      PosixShell.Lexer.read_append_of (shlexQuote_quotesAs htext _),
      PosixShell.Lexer.read_append_of (hpipe _), hread, Option.bind_some,
      PosixShell.Lexer.finish, hmode]
    simp only [hflush]
    simp [shlexTokens]
  have hparse : PosixShell.parse ([.word (fixed "printf"), .word (literal true "%s\\n".toList),
      .word (shlexWord text), .separator .pipe] ++ shlexTokens (tool.executable :: args)) = some
      { first := ⟨[fixed "printf", literal true "%s\\n".toList, shlexWord text], 0⟩
        rest := [(.pipe, ⟨(tool.executable :: args).map shlexWord, 0⟩)] } := by
    have htokens := parse_shlexTokens (tool.executable :: args) []
    rw [List.append_nil] at htokens
    simp [PosixShell.parse, htokens]
  have hvalid : PosixShell.validRest
      [(.pipe, ⟨(tool.executable :: args).map shlexWord, 0⟩)] = true := by
    have htool := tool.isSyntax false
    simp [PosixShell.validRest, PosixShell.Simple.valid, tool.shlexWord, htool]
  have hprintf : PosixShell.Simple.run env
      ⟨fixed "exec" :: [fixed "printf", literal true "%s\\n".toList, shlexWord text], 0⟩ =
      some { started := [["printf".toList, "%s\\n".toList, text]]
             status := env.succeeds ["printf".toList, "%s\\n".toList, text]
             stops := true } := by
    simp [PosixShell.Simple.run, fixed, shlexWord, PosixShell.fieldsOf_literal,
      PosixShell.runFields]
  have htool : PosixShell.Simple.run env ⟨(tool.executable :: args).map shlexWord, 0⟩ =
      some { started := [tool.executable :: args]
             status := env.succeeds (tool.executable :: args) } := by
    rw [PosixShell.Simple.run, fields_shlexWord]
    exact tool.runFields env args
  rw [run_toolLine env tool hlex hparse hvalid]
  generalize (tool.executable :: args).map shlexWord = words at htool ⊢
  cases env.succeeds (precheckArgv tool.executable) with
  | true =>
      simp only [if_true]
      rw [PosixShell.runFrom, hprintf]
      simp [PosixShell.runFrom, htool, expectedStarted]
  | false => rfl

/-! ### SSH tools from Windows

`sh` reads what was quoted for PowerShell. -/

/-- The words `sh` makes of tokens quoted for PowerShell. -/
def powershellTokens (tokens : List Text) : List PosixShell.Token :=
  tokens.map (fun token => .word (powershellWord token))

theorem parse_powershellTokens (tokens : List Text) (rest : List PosixShell.Token) :
    PosixShell.parse (powershellTokens tokens ++ rest) = (PosixShell.parse rest).map (fun s =>
      { s with first := { s.first with words := tokens.map powershellWord ++ s.first.words } }) := by
  have hwords : powershellTokens tokens = (tokens.map powershellWord).map .word := by
    simp [powershellTokens]
  rw [hwords, PosixShell.parse_words]

/-- A token without its apostrophes. -/
def stripped (token : Text) : Text := token.filter (fun c => c ≠ apostrophe)

theorem fields_powershellWord (env : PosixShell.Environment) (tokens : List Text) :
    (tokens.map powershellWord).flatMap (PosixShell.fieldsOf env) = tokens.map stripped := by
  have hwords : tokens.map powershellWord = (tokens.map stripped).map (fun t => literal true t) := by
    simp [powershellWord, stripped]
  rw [hwords]
  exact PosixShell.fields_literal env (fun _ => true) (tokens.map stripped)

theorem Tool.stripped (tool : Tool) : stripped tool.executable = tool.executable := by
  refine List.filter_eq_self.mpr (fun c hc => ?_)
  have hne : c ≠ apostrophe := fun h => tool.notMem (c := apostrophe) (by decide) (h ▸ hc)
  simpa using hne

/-- The end of the call, as `sh` reads it. -/
def exitTokens : List PosixShell.Token :=
  [.separator .semi, .word (fixed "exit"), .word (.dollar false :: fixed "LASTEXITCODE")]

/-- The call is read word by word. -/
theorem lex_call (tool : Tool) {args : List Text} (hnul : ∀ arg ∈ args, nul ∉ arg)
    (before : List PosixShell.Token) :
    ((blank before).read ("& ".toList ++ (joined powershellQuote (tool.executable :: args) ++
      "; exit $LASTEXITCODE".toList))).bind PosixShell.Lexer.finish =
      some (before ++ (.separator .amp :: powershellTokens (tool.executable :: args) ++ exitTokens)) := by
  have hquotes : ∀ t ∈ tool.executable :: args,
      PosixShell.QuotesAs powershellQuote powershellWord t := by
    intro t ht
    rcases List.mem_cons.mp ht with rfl | hmem
    · exact powershellQuote_quotesAs (tool.notMem (by decide))
    · exact powershellQuote_quotesAs (hnul t hmem)
  have hamp : (blank before).read "& ".toList = some (blank (before ++ [.separator .amp])) := rfl
  obtain ⟨next, hread, hmode, hflush⟩ := read_joined hquotes (before ++ [.separator .amp])
  have hend : ∀ tokens, ((blank tokens).emit (.separator .semi)).read " exit $LASTEXITCODE".toList =
      some (PosixShell.Lexer.mk .plain (some (.dollar false :: fixed "LASTEXITCODE"))
        (tokens ++ [.separator .semi] ++ [.word (fixed "exit")])) := fun tokens => rfl
  have hsemi : next.read "; exit $LASTEXITCODE".toList =
      (next.emit (.separator .semi)).read " exit $LASTEXITCODE".toList := by
    have htext : "; exit $LASTEXITCODE".toList = ';' :: " exit $LASTEXITCODE".toList := by simp
    rw [htext, PosixShell.Lexer.read_cons, PosixShell.Lexer.step_semi hmode, Option.bind_some]
  rw [PosixShell.Lexer.read_append_of hamp, PosixShell.Lexer.read_append_of hread, hsemi,
    ← PosixShell.Lexer.emit_flush, hflush, hend, Option.bind_some]
  simp [PosixShell.Lexer.finish, PosixShell.Lexer.flush, powershellTokens, exitTokens]

theorem parse_call (tokens : List Text) :
    PosixShell.parse (.separator .amp :: powershellTokens tokens ++ exitTokens) = some
      { first := {}
        rest := [(.amp, ⟨tokens.map powershellWord, 0⟩),
          (.semi, ⟨[fixed "exit", .dollar false :: fixed "LASTEXITCODE"], 0⟩)] } := by
  have hend : PosixShell.parse exitTokens = some
      { first := {}
        rest := [(.semi, ⟨[fixed "exit", .dollar false :: fixed "LASTEXITCODE"], 0⟩)] } := rfl
  rw [List.cons_append, PosixShell.parse, parse_powershellTokens, hend]
  simp

/-- **Without standard input** the tool runs, in the shell that `exec` leaves in
the background, with tokens that have lost their apostrophes. -/
theorem runs_call (env : PosixShell.Environment) (tool : Tool) {args : List Text}
    (hnul : ∀ arg ∈ args, nul ∉ arg) :
    PosixShell.run env (toolLine tool ("& ".toList ++
      (joined powershellQuote (tool.executable :: args) ++ "; exit $LASTEXITCODE".toList))) =
      some (if env.succeeds (precheckArgv tool.executable) then
        [tool.executable :: args.map stripped] else []) := by
  have hvalid : PosixShell.validRest [(.amp, ⟨(tool.executable :: args).map powershellWord, 0⟩),
      (.semi, ⟨[fixed "exit", .dollar false :: fixed "LASTEXITCODE"], 0⟩)] = true := by
    have htool : PosixShell.isSyntax (powershellWord tool.executable) = false := by
      have hword : powershellWord tool.executable = literal true tool.executable :=
        congrArg (literal true) tool.stripped
      rw [hword]
      exact tool.isSyntax true
    have hexit : PosixShell.isSyntax (fixed "exit") = false := by decide
    simp [PosixShell.validRest, PosixShell.Simple.valid, htool, hexit]
  have hexec : PosixShell.Simple.run env ⟨[fixed "exec"], 0⟩ = some {} := by
    simp [PosixShell.Simple.run, fixed, PosixShell.fieldsOf_literal, PosixShell.runFields]
  have htool : PosixShell.Simple.run env ⟨(tool.executable :: args).map powershellWord, 0⟩ =
      some { started := [tool.executable :: args.map stripped]
             status := env.succeeds (tool.executable :: args.map stripped) } := by
    rw [PosixShell.Simple.run, fields_powershellWord, List.map_cons, tool.stripped]
    exact tool.runFields env (args.map stripped)
  have hexit : ∃ fields, PosixShell.Simple.run env
      ⟨[fixed "exit", .dollar false :: fixed "LASTEXITCODE"], 0⟩ = fields ∧
        fields.map PosixShell.Result.started = some [] := by
    refine ⟨_, rfl, ?_⟩
    rw [PosixShell.Simple.run, List.flatMap_cons, fixed, PosixShell.fieldsOf_literal]
    simp [PosixShell.runFields]
  obtain ⟨result, hresult, hstarted⟩ := hexit
  rw [run_toolLine env tool (lex_call tool hnul) (parse_call _) hvalid]
  generalize (tool.executable :: args).map powershellWord = words at htool ⊢
  cases env.succeeds (precheckArgv tool.executable) with
  | true =>
      simp only [if_true]
      rw [PosixShell.runFrom, hexec]
      simp [PosixShell.runFrom, htool, hresult, hstarted]
  | false => rfl

/-- **With standard input** the line is no command: a `|` in front of the `&`. -/
theorem runs_piped_call (env : PosixShell.Environment) (tool : Tool) {args : List Text} {text : Text}
    (hnul : ∀ arg ∈ args, nul ∉ arg) (htext : nul ∉ text) :
    PosixShell.run env (toolLine tool (powershellQuote text ++ (" | ".toList ++ ("& ".toList ++
      (joined powershellQuote (tool.executable :: args) ++ "; exit $LASTEXITCODE".toList))))) =
      none := by
  have hlex : ∀ before, ((blank before).read (powershellQuote text ++ (" | ".toList ++ ("& ".toList ++
      (joined powershellQuote (tool.executable :: args) ++ "; exit $LASTEXITCODE".toList))))).bind
      PosixShell.Lexer.finish = some (before ++ (.word (powershellWord text) :: .separator .pipe ::
        (.separator .amp :: powershellTokens (tool.executable :: args) ++ exitTokens))) := by
    intro before
    have hpipe : ∀ tokens, (PosixShell.Lexer.mk .plain (some (powershellWord text)) tokens).read
        " | ".toList = some (blank (tokens ++ [.word (powershellWord text)] ++ [.separator .pipe])) :=
      fun tokens => rfl
    rw [PosixShell.Lexer.read_append_of (powershellQuote_quotesAs htext _),
      PosixShell.Lexer.read_append_of (hpipe _), lex_call tool hnul]
    simp
  have hparse : PosixShell.parse (.word (powershellWord text) :: .separator .pipe ::
      (.separator .amp :: powershellTokens (tool.executable :: args) ++ exitTokens)) = some
      { first := ⟨[powershellWord text], 0⟩
        rest := [(.pipe, {}), (.amp, ⟨(tool.executable :: args).map powershellWord, 0⟩),
          (.semi, ⟨[fixed "exit", .dollar false :: fixed "LASTEXITCODE"], 0⟩)] } := by
    rw [PosixShell.parse, PosixShell.parse, parse_call]
    rfl
  rw [PosixShell.run, lex_toolLine tool hlex, Option.bind_some, parse_precheck _ hparse,
    Option.bind_some, PosixShell.Script.run, if_neg]
  simp [PosixShell.Script.valid, PosixShell.validRest, PosixShell.Simple.valid]

end Workbench.CommandEncoding
