import CyberWorkbench.CommandStrings

/-!
# Command strings in PowerShell

A call is read back token by token when no text of it has a typographic quote
(`runs_powershell`).  The first text that has one is read with another value
(`runs_powershell_risky`).
-/

namespace Workbench.CommandEncoding

open PosixShell (Text Word literal apostrophe nul)

/-! ### Local tools on Windows -/

/-- The lexer between two tokens of PowerShell. -/
abbrev between (tokens : List PowerShell.Token) : PowerShell.Lexer := .mk .plain none tokens

theorem powershellQuote_eq (value : Text) : powershellQuote value = PowerShell.quoted value := rfl

/-- A text that PowerShell reads back from its string. -/
def PowershellSafe (text : Text) : Prop := ∀ c ∈ text, PowerShell.isTypographic c = false

theorem Tool.powershellSafe (tool : Tool) : PowershellSafe tool.executable := by
  intro c hc
  cases htypographic : PowerShell.isTypographic c with
  | false => rfl
  | true =>
      have hrisky : isSafe c = false := by
        simp only [PowerShell.isTypographic, decide_eq_true_eq] at htypographic
        rcases htypographic with rfl | rfl | rfl | rfl <;> decide
      exact absurd hc (tool.notMem hrisky)

/-- The command of a local tool on Windows. -/
def powershellLine (tool : Tool) (command : Text) : Text :=
  "if (-not (Get-Command ".toList ++ (powershellQuote tool.executable ++
    (" -ErrorAction SilentlyContinue)) \x7b exit 127 \x7d; ".toList ++ command))

/-- The tokens up to the command. -/
def needsTokens (tool : Tool) : List PowerShell.Token :=
  PowerShell.needsTokens tool.executable ++ [.symbol ';']

/-- The lookup is read up to its `;`. -/
theorem lex_powershellLine (tool : Tool) (command : Text) :
    PowerShell.lex (powershellLine tool command) = (between (needsTokens tool)).lexFrom command := by
  have hbefore : ({} : PowerShell.Lexer).read "if (-not (Get-Command ".toList = some (between
      [.generic "if".toList, .symbol '(', .generic "-not".toList, .symbol '(',
        .generic "Get-Command".toList]) := rfl
  have hname := PowerShell.read_quoted (tool.notMem (c := nul) (by decide)) tool.powershellSafe
    [.generic "if".toList, .symbol '(', .generic "-not".toList, .symbol '(',
      .generic "Get-Command".toList]
  have hafter : " -ErrorAction SilentlyContinue)) \x7b exit 127 \x7d; ".toList =
      " ".toList ++ ("-ErrorAction".toList ++ (" ".toList ++ ("SilentlyContinue".toList ++
        ")) \x7b exit 127 \x7d; ".toList))) := by simp
  have hstring : ∀ tokens, (PowerShell.Lexer.mk .quote (some tool.executable) tokens).read " ".toList =
      some (between (tokens ++ [.string tool.executable])) := fun tokens => rfl
  have hoption : ∀ tokens, (between tokens).read "-ErrorAction".toList =
      some (.mk .plain (some "-ErrorAction".toList) tokens) :=
    fun tokens => PowerShell.Lexer.read_bare rfl (by decide) (by decide)
  have hblank : ∀ text tokens, (PowerShell.Lexer.mk .plain (some text) tokens).read " ".toList =
      some (between (tokens ++ [.generic text])) := fun text tokens => rfl
  have hvalue : ∀ tokens, (between tokens).read "SilentlyContinue".toList =
      some (.mk .plain (some "SilentlyContinue".toList) tokens) :=
    fun tokens => PowerShell.Lexer.read_bare rfl (by decide) (by decide)
  have hbody : ∀ text tokens, (PowerShell.Lexer.mk .plain (some text) tokens).read
      ")) \x7b exit 127 \x7d; ".toList =
      some (between (tokens ++ [.generic text] ++ [.symbol ')'] ++ [.symbol ')'] ++
        [.symbol '\x7b'] ++ [.generic "exit".toList] ++ [.generic "127".toList] ++
          [.symbol '\x7d'] ++ [.symbol ';'])) := fun text tokens => rfl
  unfold PowerShell.lex powershellLine
  rw [PowerShell.Lexer.lexFrom_append_of hbefore, powershellQuote_eq,
    PowerShell.Lexer.lexFrom_append_of hname, hafter]
  simp only [List.append_assoc]
  rw [PowerShell.Lexer.lexFrom_append_of (hstring _), PowerShell.Lexer.lexFrom_append_of (hoption _),
    PowerShell.Lexer.lexFrom_append_of (hblank _ _), PowerShell.Lexer.lexFrom_append_of (hvalue _),
    PowerShell.Lexer.lexFrom_append_of (hbody _ _)]
  simp [needsTokens, PowerShell.needsTokens]

/-- The lookup is the first statement. -/
theorem parse_needsTokens (tool : Tool) (tokens : List PowerShell.Token) :
    PowerShell.parse (needsTokens tool ++ tokens) = (PowerShell.parse tokens).map (fun statements =>
      .needs tool.executable :: statements) := by
  have hsegments : PowerShell.segments (needsTokens tool ++ tokens) =
      (PowerShell.needsTokens tool.executable,
        (PowerShell.segments tokens).1 :: (PowerShell.segments tokens).2) := by
    rw [needsTokens, List.append_assoc, List.singleton_append]
    exact PowerShell.segments_append (by simp [PowerShell.needsTokens]) tokens
  unfold PowerShell.parse
  rw [hsegments, List.mapM_cons, PowerShell.statement_needs]
  cases ((PowerShell.segments tokens).1 :: (PowerShell.segments tokens).2).mapM PowerShell.statement with
  | none => rfl
  | some statements => rfl

/-- **The lookup runs.**  The rest of the line does when the tool is there. -/
theorem run_powershellLine (finds : Text → Bool) (tool : Tool) {command : Text}
    {tokens : List PowerShell.Token}
    (hlex : (between (needsTokens tool)).lexFrom command = some (needsTokens tool ++ tokens)) :
    PowerShell.run finds (powershellLine tool command) = (PowerShell.parse tokens).map
      (fun statements => if finds tool.executable then PowerShell.runStatements finds statements
        else []) := by
  rw [PowerShell.run, lex_powershellLine, hlex, Option.bind_some, parse_needsTokens, Option.map_map]
  rfl

/-- Strings joined by blanks, up to one of them, and what comes next. -/
theorem lexFrom_joined {token : Text} {tokens : List Text}
    (h : ∀ t ∈ token :: tokens, nul ∉ t ∧ PowershellSafe t) (before : List PowerShell.Token)
    (rest : Text) :
    ∃ next : PowerShell.Lexer, next.mode ≠ .quoted ∧
      next.flush = between (before ++ (token :: tokens).map PowerShell.Token.string) ∧
      (between before).lexFrom (powershellQuote token ++
        (tokens.flatMap (fun t => ' ' :: powershellQuote t) ++ rest)) = next.lexFrom rest := by
  obtain ⟨hnul, hsafe⟩ := h token List.mem_cons_self
  obtain ⟨next, hread, hmode, hflush⟩ := PowerShell.read_arguments
    (fun t ht => h t (List.mem_cons_of_mem token ht))
    (l := PowerShell.Lexer.mk .quote (some token) before) (by simp)
  refine ⟨next, hmode, ?_, ?_⟩
  · rw [hflush]
    simp [PowerShell.Lexer.flush]
  · rw [powershellQuote_eq,
      PowerShell.Lexer.lexFrom_append_of (PowerShell.read_quoted hnul hsafe before)]
    exact PowerShell.Lexer.lexFrom_append_of hread rest

/-- The call up to its first token. -/
theorem lexFrom_amp (before : List PowerShell.Token) (rest : Text) :
    (between before).lexFrom ("& ".toList ++ rest) =
      (between (before ++ [.symbol '&'])).lexFrom rest :=
  PowerShell.Lexer.lexFrom_append_of rfl rest

/-- A text and the pipe behind it. -/
theorem lexFrom_piped {text : Text} (hnul : nul ∉ text) (hsafe : PowershellSafe text)
    (before : List PowerShell.Token) (rest : Text) :
    (between before).lexFrom (powershellQuote text ++ (" | ".toList ++ rest)) =
      (between (before ++ [.string text, .symbol '|'])).lexFrom rest := by
  have hpipe : (PowerShell.Lexer.mk .quote (some text) before).read " | ".toList =
      some (between (before ++ [.string text] ++ [.symbol '|'])) := rfl
  rw [powershellQuote_eq,
    PowerShell.Lexer.lexFrom_append_of (PowerShell.read_quoted hnul hsafe before),
    PowerShell.Lexer.lexFrom_append_of hpipe, List.append_assoc]
  rfl

/-- The end of the call. -/
theorem lexFrom_exit {next : PowerShell.Lexer} {tokens : List PowerShell.Token}
    (hmode : next.mode ≠ .quoted) (hflush : next.flush = between tokens) :
    next.lexFrom "; exit $LASTEXITCODE".toList =
      some (tokens ++ .symbol ';' :: PowerShell.exitTokens) := by
  have htext : "; exit $LASTEXITCODE".toList =
      ';' :: (" exit ".toList ++ "$LASTEXITCODE".toList) := by simp
  have hexit : ∀ before, (between before).read " exit ".toList =
      some (between (before ++ [.generic "exit".toList])) := fun before => rfl
  have hlast : ∀ before, (between before).read "$LASTEXITCODE".toList =
      some (.mk .plain (some "$LASTEXITCODE".toList) before) :=
    fun before => PowerShell.Lexer.read_bare rfl (by decide) (by decide)
  rw [htext, PowerShell.Lexer.lexFrom_cons, PowerShell.step_semi hmode, Option.bind_some, hflush,
    PowerShell.Lexer.lexFrom_append_of (hexit _), PowerShell.Lexer.lexFrom, hlast, Option.bind_some]
  simp [PowerShell.Lexer.finish, PowerShell.Lexer.flush, PowerShell.exitTokens]

/-- The tokens of a call and of the `exit` behind it. -/
def callTokens (tokens : List Text) : List PowerShell.Token :=
  .symbol '&' :: tokens.map PowerShell.Token.string

/-- **A call of safe tokens** is read token by token. -/
theorem lexFrom_call {token : Text} {tokens : List Text}
    (h : ∀ t ∈ token :: tokens, nul ∉ t ∧ PowershellSafe t) (before : List PowerShell.Token) :
    (between before).lexFrom ("& ".toList ++ (joined powershellQuote (token :: tokens) ++
      "; exit $LASTEXITCODE".toList)) =
      some (before ++ (callTokens (token :: tokens) ++ .symbol ';' :: PowerShell.exitTokens)) := by
  obtain ⟨next, hmode, hflush, hlex⟩ :=
    lexFrom_joined h (before ++ [.symbol '&']) "; exit $LASTEXITCODE".toList
  rw [lexFrom_amp, joined_cons, List.append_assoc, hlex, lexFrom_exit hmode hflush]
  simp [callTokens]

/-- The statements of a call. -/
theorem parse_callTokens (tokens : List Text) :
    PowerShell.parse (callTokens tokens ++ .symbol ';' :: PowerShell.exitTokens) =
      some [.call tokens none, .exitLast] := by
  have hsegments := @PowerShell.segments_append (callTokens tokens) (by simp [callTokens])
    PowerShell.exitTokens
  have hcall : PowerShell.statement (callTokens tokens) = some (.call tokens none) := by
    rw [callTokens, PowerShell.statement_call, PowerShell.mapM_string]
    rfl
  have hexit : PowerShell.statement PowerShell.exitTokens = some .exitLast := if_pos rfl
  rw [PowerShell.parse, hsegments]
  change [callTokens tokens, PowerShell.exitTokens].mapM PowerShell.statement = _
  simp [hcall, hexit]

/-- The statements of a call with a text piped in. -/
theorem parse_pipedTokens (text : Text) (tokens : List Text) :
    PowerShell.parse (.string text :: .symbol '|' :: callTokens tokens ++
      .symbol ';' :: PowerShell.exitTokens) = some [.call tokens (some text), .exitLast] := by
  have hsegments := @PowerShell.segments_append
    (.string text :: .symbol '|' :: callTokens tokens) (by simp [callTokens])
    PowerShell.exitTokens
  have hcall : PowerShell.statement (.string text :: .symbol '|' :: callTokens tokens) =
      some (.call tokens (some text)) := by
    rw [callTokens, PowerShell.statement_piped, PowerShell.mapM_string]
    rfl
  have hexit : PowerShell.statement PowerShell.exitTokens = some .exitLast := if_pos rfl
  rw [PowerShell.parse, hsegments]
  change [_, PowerShell.exitTokens].mapM PowerShell.statement = _
  simp [hcall, hexit]

/-- **A local tool on Windows** whose texts are safe. -/
theorem runs_powershell (finds : Text → Bool) (tool : Tool) {args : List Text}
    {stdinText : Option Text}
    (h : ∀ text ∈ args ++ stdinText.toList, nul ∉ text ∧ PowershellSafe text) :
    PowerShell.run finds (powershellLine tool (powershellCommand (tool.executable :: args) stdinText)) =
      some (if finds tool.executable then [.start (tool.executable :: args) stdinText] else []) := by
  have htokens : ∀ t ∈ tool.executable :: args, nul ∉ t ∧ PowershellSafe t := by
    intro t ht
    rcases List.mem_cons.mp ht with rfl | hmem
    · exact ⟨tool.notMem (by decide), tool.powershellSafe⟩
    · exact h t (List.mem_append_left _ hmem)
  cases stdinText with
  | none =>
      have hlex := lexFrom_call htokens (needsTokens tool)
      rw [powershellCommand, run_powershellLine finds tool hlex, parse_callTokens]
      rfl
  | some text =>
      obtain ⟨hnul, hsafe⟩ := h text (List.mem_append_right _ (by simp))
      have hlex : (between (needsTokens tool)).lexFrom
          (powershellCommand (tool.executable :: args) (some text)) = some (needsTokens tool ++
            (.string text :: .symbol '|' :: callTokens (tool.executable :: args) ++
              .symbol ';' :: PowerShell.exitTokens)) := by
        rw [powershellCommand, lexFrom_piped hnul hsafe, lexFrom_call htokens]
        simp
      rw [run_powershellLine finds tool hlex, parse_pipedTokens]
      rfl

/-! ### Texts that PowerShell does not read back -/

/-- The characters of a quoted value. -/
theorem mem_powershellQuote {c : Char} (hc : c ≠ apostrophe) {value : Text} :
    c ∈ powershellQuote value ↔ c ∈ value := by
  have hpair : c ∉ "''".toList := by
    change c ∉ [apostrophe, apostrophe]
    simp [hc]
  unfold powershellQuote
  rw [List.cons_append, List.mem_cons, List.mem_append, List.mem_flatMap, List.mem_singleton]
  constructor
  · rintro (hquote | ⟨d, hd, hmem⟩ | hquote)
    · exact absurd hquote hc
    · by_cases hapostrophe : d = apostrophe
      · rw [if_pos hapostrophe] at hmem
        exact absurd hmem hpair
      · rw [if_neg hapostrophe, List.mem_singleton] at hmem
        exact hmem ▸ hd
    · exact absurd hquote hc
  · intro hmem
    exact .inr (.inl ⟨c, hmem, by simp [hc]⟩)

/-- The characters of joined tokens. -/
theorem mem_joined {c : Char} (hc : c ≠ ' ') {quote : Text → Text} {tokens : List Text} :
    c ∈ joined quote tokens ↔ ∃ token ∈ tokens, c ∈ quote token := by
  cases tokens with
  | nil => simp [joined]
  | cons token tokens => simp [joined_cons, hc]

/-- No text of a call has a NUL. -/
theorem nul_notMem_call {tokens : List Text} (hnul : ∀ t ∈ tokens, nul ∉ t) :
    nul ∉ joined powershellQuote tokens ++ "; exit $LASTEXITCODE".toList := by
  rw [List.mem_append, mem_joined (by decide)]
  rintro (⟨token, htoken, hmem⟩ | hmem)
  · exact hnul token htoken ((mem_powershellQuote (by decide)).mp hmem)
  · exact absurd hmem (by decide)

/-- The first of the texts that is not safe. -/
theorem exists_first_risky {texts : List Text} (h : ∃ text ∈ texts, ¬ PowershellSafe text) :
    ∃ before text after, texts = before ++ text :: after ∧ (∀ t ∈ before, PowershellSafe t) ∧
      ¬ PowershellSafe text := by
  induction texts with
  | nil =>
      obtain ⟨text, htext, -⟩ := h
      cases htext
  | cons first texts ih =>
      by_cases hfirst : PowershellSafe first
      · have hrest : ∃ text ∈ texts, ¬ PowershellSafe text := by
          obtain ⟨text, htext, hrisky⟩ := h
          rcases List.mem_cons.mp htext with rfl | hmem
          · exact absurd hfirst hrisky
          · exact ⟨text, hmem, hrisky⟩
        obtain ⟨before, text, after, rfl, hbefore, hrisky⟩ := ih hrest
        refine ⟨first :: before, text, after, rfl, fun t ht => ?_, hrisky⟩
        rcases List.mem_cons.mp ht with rfl | hmem
        · exact hfirst
        · exact hbefore t hmem
      · exact ⟨[], first, texts, rfl, fun t ht => (List.not_mem_nil ht).elim, hfirst⟩

theorem exists_typographic {text : Text} (h : ¬ PowershellSafe text) :
    ∃ c ∈ text, PowerShell.isTypographic c = true := by
  unfold PowershellSafe at h
  simpa using h

/-- **A call with an unsafe token** is read with another value in its place. -/
theorem lexFrom_call_risky {token : Text} {good after : List Text} {bad : Text}
    (hgood : ∀ t ∈ token :: good, nul ∉ t ∧ PowershellSafe t) (hbad : ¬ PowershellSafe bad)
    (hnul : ∀ t ∈ bad :: after, nul ∉ t) {before tokens : List PowerShell.Token}
    (hlex : (between before).lexFrom ("& ".toList ++
      (joined powershellQuote (token :: (good ++ bad :: after)) ++
        "; exit $LASTEXITCODE".toList)) = some tokens) :
    ∃ value more, value ≠ bad ∧ tokens = before ++ (.symbol '&' ::
      ((token :: good).map PowerShell.Token.string ++ .string value :: more)) := by
  let rest : Text := after.flatMap (fun t => ' ' :: powershellQuote t) ++
    "; exit $LASTEXITCODE".toList
  have hrest : ∃ next tail, PowerShell.isQuote next = false ∧ rest = next :: tail := by
    cases after with
    | nil => exact ⟨';', " exit $LASTEXITCODE".toList, by decide, rfl⟩
    | cons t after => exact ⟨' ', _, by decide, rfl⟩
  have hrestnul : nul ∉ rest := by
    intro hmem
    rcases List.mem_append.mp hmem with hmem | hmem
    · obtain ⟨t, ht, hmem⟩ := List.mem_flatMap.mp hmem
      rcases List.mem_cons.mp hmem with hblank | hmem
      · exact absurd hblank (by decide)
      · exact hnul t (List.mem_cons_of_mem bad ht) ((mem_powershellQuote (by decide)).mp hmem)
    · exact absurd hmem (by decide)
  obtain ⟨next, hmode, hflush, hjoined⟩ :=
    lexFrom_joined hgood (before ++ [.symbol '&']) (' ' :: (powershellQuote bad ++ rest))
  have htext : joined powershellQuote (token :: (good ++ bad :: after)) ++
      "; exit $LASTEXITCODE".toList = powershellQuote token ++
        (good.flatMap (fun t => ' ' :: powershellQuote t) ++ (' ' :: (powershellQuote bad ++ rest))) := by
    simp [joined_cons, rest]
  rw [lexFrom_amp, htext, hjoined, PowerShell.Lexer.lexFrom_cons, PowerShell.step_blank hmode,
    Option.bind_some, hflush] at hlex
  obtain ⟨c, tail, hc, htail⟩ := hrest
  rw [htail] at hlex hrestnul
  have hbadnul : nul ∉ PowerShell.doubled bad ++ PowerShell.apostrophe :: c :: tail := by
    rw [List.mem_append, not_or]
    constructor
    · intro hmem
      have hquoted : nul ∈ powershellQuote bad := by
        rw [powershellQuote_eq, PowerShell.quoted]
        exact List.mem_append_left _ (List.mem_cons_of_mem _ hmem)
      exact hnul bad List.mem_cons_self ((mem_powershellQuote (by decide)).mp hquoted)
    · intro hmem
      rcases List.mem_cons.mp hmem with hquote | hmem
      · exact absurd hquote (by decide)
      · exact hrestnul hmem
  obtain ⟨value, more, hvalue, rfl⟩ :=
    PowerShell.lexFrom_typographic (exists_typographic hbad) hc hbadnul hlex
  exact ⟨value, more, hvalue, by simp⟩

/-- **A local tool on Windows** with a text that is not safe does something else. -/
theorem runs_powershell_risky (tool : Tool) {args : List Text} {stdinText : Option Text}
    (hnul : ∀ text ∈ args ++ stdinText.toList, nul ∉ text)
    (hrisky : ∃ text ∈ args ++ stdinText.toList, ¬ PowershellSafe text) :
    PowerShell.run (fun _ => true)
        (powershellLine tool (powershellCommand (tool.executable :: args) stdinText)) ≠
      some [.start (tool.executable :: args) stdinText] := by
  intro hrun
  cases hlex : (between (needsTokens tool)).lexFrom
      (powershellCommand (tool.executable :: args) stdinText) with
  | none =>
      rw [PowerShell.run, lex_powershellLine, hlex] at hrun
      cases hrun
  | some all =>
      obtain ⟨tokens, rfl⟩ := PowerShell.Lexer.lexFrom_tokens hlex
      rw [run_powershellLine _ tool hlex] at hrun
      obtain ⟨statements, hparse, hstarted⟩ := Option.map_eq_some_iff.mp hrun
      have htool : nul ∉ tool.executable ∧ PowershellSafe tool.executable :=
        ⟨tool.notMem (by decide), tool.powershellSafe⟩
      -- What goes wrong when all the text piped in is read back.
      have hargs : (∃ text ∈ args, ¬ PowershellSafe text) →
          ∃ good bad after, args = good ++ bad :: after ∧
            (∀ t ∈ tool.executable :: good, nul ∉ t ∧ PowershellSafe t) ∧ ¬ PowershellSafe bad ∧
            ∀ t ∈ bad :: after, nul ∉ t := by
        intro h
        obtain ⟨good, bad, after, rfl, hgood, hbad⟩ := exists_first_risky h
        refine ⟨good, bad, after, rfl, fun t ht => ?_, hbad, fun t ht => ?_⟩
        · rcases List.mem_cons.mp ht with rfl | hmem
          · exact htool
          · exact ⟨hnul t (by simp [hmem]), hgood t hmem⟩
        · exact hnul t (by rcases List.mem_cons.mp ht with rfl | hmem <;> simp [*])
      have hcancel : ∀ {good after : List Text} {bad value : Text} {argv : List Text},
          value ≠ bad → tool.executable :: good ++ value :: argv =
            tool.executable :: (good ++ bad :: after) → False := by
        intro good after bad value argv hvalue heq
        have htail := List.append_cancel_left (List.cons.inj heq).2
        exact hvalue (List.cons.inj htail).1
      cases stdinText with
      | none =>
          obtain ⟨good, bad, after, rfl, hgood, hbad, hafter⟩ := hargs (by simpa using hrisky)
          obtain ⟨value, more, hvalue, htokens⟩ := lexFrom_call_risky hgood hbad hafter hlex
          obtain rfl := List.append_cancel_left htokens
          obtain ⟨argv, rest, rfl⟩ := PowerShell.parse_call_start hparse
          obtain ⟨hstart, -⟩ := List.cons.inj hstarted
          exact hcancel hvalue (PowerShell.Effect.start.inj hstart).1
      | some text =>
          have htext : nul ∉ text := hnul text (by simp)
          by_cases hsafe : PowershellSafe text
          · have hbadarg : ∃ t ∈ args, ¬ PowershellSafe t := by
              obtain ⟨t, ht, hbad⟩ := hrisky
              rcases List.mem_append.mp ht with hmem | hmem
              · exact ⟨t, hmem, hbad⟩
              · obtain rfl : t = text := by simpa using hmem
                exact absurd hsafe hbad
            obtain ⟨good, bad, after, rfl, hgood, hbad, hafter⟩ := hargs hbadarg
            rw [powershellCommand, lexFrom_piped htext hsafe] at hlex
            obtain ⟨value, more, hvalue, htokens⟩ := lexFrom_call_risky hgood hbad hafter hlex
            rw [List.append_assoc] at htokens
            obtain rfl := List.append_cancel_left htokens
            obtain ⟨argv, rest, rfl⟩ := PowerShell.parse_piped_start hparse
            obtain ⟨hstart, -⟩ := List.cons.inj hstarted
            exact hcancel hvalue (PowerShell.Effect.start.inj hstart).1
          · have hrest : nul ∉ PowerShell.doubled text ++ PowerShell.apostrophe :: ' ' ::
                ("| ".toList ++ ("& ".toList ++ (joined powershellQuote (tool.executable :: args) ++
                  "; exit $LASTEXITCODE".toList))) := by
              have hcall := @nul_notMem_call (tool.executable :: args) (by
                intro t ht
                rcases List.mem_cons.mp ht with rfl | hmem
                · exact htool.1
                · exact hnul t (List.mem_append_left _ hmem))
              have hdoubled : nul ∉ PowerShell.doubled text := by
                intro hmem
                refine htext ((mem_powershellQuote (by decide)).mp ?_)
                rw [powershellQuote_eq, PowerShell.quoted]
                exact List.mem_append_left _ (List.mem_cons_of_mem _ hmem)
              rw [List.mem_append, not_or]
              refine ⟨hdoubled, ?_⟩
              rw [List.mem_cons, List.mem_cons, List.mem_append, List.mem_append]
              rintro (hquote | hblank | hpipe | hamp | hmem)
              · exact absurd hquote (by decide)
              · exact absurd hblank (by decide)
              · exact absurd hpipe (by decide)
              · exact absurd hamp (by decide)
              · exact hcall hmem
            obtain ⟨value, more, hvalue, htokens⟩ := PowerShell.lexFrom_typographic
              (exists_typographic hsafe) (by decide) hrest hlex
            obtain rfl := List.append_cancel_left htokens
            obtain ⟨st, rest, rfl, ⟨argv, rfl⟩ | rfl⟩ := PowerShell.parse_string_start hparse
            · obtain ⟨hstart, -⟩ := List.cons.inj hstarted
              exact hvalue (Option.some.inj (PowerShell.Effect.start.inj hstart).2)
            · cases hstarted

end Workbench.CommandEncoding
