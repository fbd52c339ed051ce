/-!
# PowerShell command lines

Enough of PowerShell to say what a line of statements does: single quoted
strings, calls with `&`, a string piped into a call, and the conditional that
looks a command up.  A text that leaves this fragment, or holds a NUL, does not
lex, parse or run.

PowerShell takes the typographic quotes U+2018 to U+201B for single quotes.  Two
of them in a row, of whatever kind, stand for the second one inside a string, and
a lone one ends it (`scan`).  So a string whose apostrophes are doubled is read
back exactly when it has no typographic quote (`scan_doubled`,
`scan_typographic`).
-/

namespace PowerShell

/-- Texts, character by character. -/
abbrev Text := List Char

def apostrophe : Char := '\x27'
def nul : Char := '\x00'

/-- The quotes that are not the apostrophe. -/
def isTypographic (c : Char) : Bool :=
  decide (c = '\u2018' ∨ c = '\u2019' ∨ c = '\u201a' ∨ c = '\u201b')

/-- What PowerShell takes for a single quote. -/
def isQuote (c : Char) : Bool := decide (c = apostrophe) || isTypographic c

/-! ### The lexer -/

inductive Token where
  /-- A bare word. -/
  | generic (text : Text)
  | string (text : Text)
  | symbol (c : Char)
  deriving DecidableEq, Repr

/-- `quote` is behind a quote inside a string: the string may end there. -/
inductive Mode where
  | plain
  | quoted
  | quote
  deriving DecidableEq, Repr

/-- The lexer between two characters. -/
structure Lexer where
  mode : Mode := .plain
  word : Option Text := none
  tokens : List Token := []
  deriving DecidableEq, Repr

namespace Lexer

/-- The word or the string ends, if there is one. -/
def flush (l : Lexer) : Lexer :=
  match l.word with
  | none => { l with mode := .plain }
  | some text =>
      { mode := .plain
        word := none
        tokens := l.tokens ++ [if l.mode = .quote then .string text else .generic text] }

/-- Characters that begin something outside the fragment. -/
def outside : Text := "\"\x60#<>@,\n\r".toList

/-- A character outside strings. -/
def plainStep (l : Lexer) (c : Char) : Option Lexer :=
  if c = ' ' ∨ c = '\t' then some l.flush
  else if isQuote c then
    -- A quote inside a bare word is outside the fragment.
    if l.word = none then some { l with mode := .quoted, word := some [] } else none
  else if c ∈ ";|&()\x7b\x7d".toList then
    some { l.flush with tokens := l.flush.tokens ++ [.symbol c] }
  else if c ∈ outside ∨ 127 < c.toNat then none
  else some { l with word := some (l.word.getD [] ++ [c]) }

/-- One character. -/
def step (l : Lexer) (c : Char) : Option Lexer :=
  if c = nul then none
  else match l.mode with
    | .plain => l.plainStep c
    | .quoted =>
        if isQuote c then some { l with mode := .quote }
        else some { l with word := some (l.word.getD [] ++ [c]) }
    | .quote =>
        if isQuote c then some { l with mode := .quoted, word := some (l.word.getD [] ++ [c]) }
        else l.flush.plainStep c

/-- The characters of a text, one after the other. -/
def read (l : Lexer) (text : Text) : Option Lexer := text.foldlM step l

/-- The tokens at the end of the text; an open string is incomplete. -/
def finish (l : Lexer) : Option (List Token) :=
  match l.mode with
  | .plain | .quote => some l.flush.tokens
  | .quoted => none

/-- The tokens of what was read and of the text. -/
def lexFrom (l : Lexer) (text : Text) : Option (List Token) := (l.read text).bind finish

end Lexer

/-- The tokens of a text. -/
def lex (text : Text) : Option (List Token) := ({} : Lexer).lexFrom text

/-! ### Statements -/

inductive Statement where
  /-- `if (-not (Get-Command name -ErrorAction SilentlyContinue)) ...`, with
  `exit 127` as its body. -/
  | needs (name : Text)
  /-- `& name args`, with a string piped in or without one. -/
  | call (argv : List Text) (input : Option Text)
  /-- A command by its bare name. -/
  | command (argv : List Text)
  | value (text : Text)
  /-- `exit $LASTEXITCODE`. -/
  | exitLast
  deriving DecidableEq, Repr

/-- The text of an argument. -/
def argument : Token → Option Text
  | .generic text => if text.head? = some '$' then none else some text
  | .string text => some text
  | .symbol _ => none

/-- The tokens of `if (-not (Get-Command name -ErrorAction SilentlyContinue)) { exit 127 }`. -/
def needsTokens (name : Text) : List Token :=
  [.generic "if".toList, .symbol '(', .generic "-not".toList, .symbol '(',
    .generic "Get-Command".toList, .string name, .generic "-ErrorAction".toList,
    .generic "SilentlyContinue".toList, .symbol ')', .symbol ')', .symbol '\x7b',
    .generic "exit".toList, .generic "127".toList, .symbol '\x7d']

/-- The tokens of `exit $LASTEXITCODE`. -/
def exitTokens : List Token := [.generic "exit".toList, .generic "$LASTEXITCODE".toList]

/-- Words that do not name a command. -/
def keywords : List Text :=
  ["if", "else", "elseif", "exit", "for", "foreach", "while", "do", "until", "switch", "function",
    "filter", "return", "throw", "trap", "try", "catch", "finally", "break", "continue", "param",
    "begin", "process", "end", "data", "class", "enum", "using", "workflow"].map String.toList

/-- The name such a conditional looks up. -/
def neededName (tokens : List Token) : Option Text :=
  match tokens with
  | _ :: _ :: _ :: _ :: _ :: .string name :: _ =>
      if tokens = needsTokens name then some name else none
  | _ => none

/-- The statement of its tokens. -/
def statement (tokens : List Token) : Option Statement :=
  if tokens = exitTokens then some .exitLast
  else if neededName tokens ≠ none then (neededName tokens).map .needs
  else match tokens with
    | .symbol c :: args => if c = '&' then (args.mapM argument).map (.call · none) else none
    | .string text :: .symbol pipe :: .symbol amp :: args =>
        if pipe = '|' ∧ amp = '&' then (args.mapM argument).map (.call · (some text)) else none
    | [.string text] => some (.value text)
    | .generic name :: args =>
        if keywords.contains name then none
        else ((.generic name :: args).mapM argument).map .command
    | _ => none

/-- The first statement's tokens, and the others behind their `;`. -/
def segments : List Token → List Token × List (List Token)
  | [] => ([], [])
  | token :: tokens =>
      let rest := segments tokens
      if token = .symbol ';' then ([], rest.1 :: rest.2) else (token :: rest.1, rest.2)

/-- The statements of a token list. -/
def parse (tokens : List Token) : Option (List Statement) :=
  ((segments tokens).1 :: (segments tokens).2).mapM statement

/-! ### Execution -/

/-- What a statement does: it starts a program, with something piped in or
without, or it writes a value. -/
inductive Effect where
  | start (argv : List Text) (input : Option Text)
  | output (text : Text)
  deriving DecidableEq, Repr

/-- The statements run; `finds` says which commands there are. -/
def runStatements (finds : Text → Bool) : List Statement → List Effect
  | [] => []
  | .needs name :: rest => if finds name then runStatements finds rest else []
  | .call argv input :: rest => .start argv input :: runStatements finds rest
  | .command argv :: rest => .start argv none :: runStatements finds rest
  | .value text :: rest => .output text :: runStatements finds rest
  | .exitLast :: _ => []

/-- **What a command line does.** -/
def run (finds : Text → Bool) (text : Text) : Option (List Effect) :=
  ((lex text).bind parse).map (runStatements finds)

/-! ### Reading a text in parts -/

namespace Lexer

theorem read_cons (l : Lexer) (c : Char) (text : Text) :
    l.read (c :: text) = (l.step c).bind (fun next => next.read text) := rfl

theorem read_append (l : Lexer) (left right : Text) :
    l.read (left ++ right) = (l.read left).bind (fun next => next.read right) :=
  List.foldlM_append

theorem lexFrom_cons (l : Lexer) (c : Char) (text : Text) :
    l.lexFrom (c :: text) = (l.step c).bind (fun next => next.lexFrom text) := by
  unfold lexFrom
  rw [read_cons, Option.bind_assoc]

/-- The rest of a text is read by the lexer its beginning leaves. -/
theorem lexFrom_append_of {l next : Lexer} {left : Text} (h : l.read left = some next)
    (right : Text) : l.lexFrom (left ++ right) = next.lexFrom right := by
  unfold lexFrom
  rw [read_append, h]
  rfl

/-- No text with a NUL lexes. -/
theorem lexFrom_nul {text : Text} (h : nul ∈ text) (l : Lexer) : l.lexFrom text = none := by
  induction text generalizing l with
  | nil => cases h
  | cons c text ih =>
      rw [lexFrom_cons]
      rcases List.mem_cons.mp h with rfl | hmem
      · simp [step]
      · cases hstep : l.step c with
        | none => rfl
        | some next => exact ih hmem next

/-- A character that only stands for itself, outside strings. -/
def isBare (c : Char) : Bool :=
  !isQuote c && decide (c.toNat ≤ 127 ∧ c ∉ nul :: " \t;|&()\x7b\x7d".toList ++ outside)

theorem step_bare {l : Lexer} {c : Char} (hmode : l.mode = .plain) (h : isBare c = true) :
    l.step c = some { l with word := some (l.word.getD [] ++ [c]) } := by
  simp only [isBare, Bool.and_eq_true, Bool.not_eq_true', decide_eq_true_eq, String.reduceToList,
    List.cons_append, List.mem_cons, List.nil_append, not_or] at h
  obtain ⟨hquote, hascii, hnul, hblank, htab, hsemi, hpipe, hamp, hopen, hclose, hleft, hright,
    houtside⟩ := h
  have hascii' : ¬ 127 < c.toNat := by omega
  simp [step, hmode, plainStep, *]

/-- Such characters make up a bare word. -/
theorem read_bare {l : Lexer} {text : Text} (hmode : l.mode = .plain)
    (h : text.all isBare = true) (hne : text ≠ []) :
    l.read text = some { l with word := some (l.word.getD [] ++ text) } := by
  induction text generalizing l with
  | nil => exact absurd rfl hne
  | cons c text ih =>
      rw [List.all_cons, Bool.and_eq_true] at h
      rw [read_cons, step_bare hmode h.1]
      by_cases htext : text = []
      · subst htext
        rfl
      · have hrest := ih (l := { l with word := some (l.word.getD [] ++ [c]) }) hmode
          h.2 htext
        simpa using hrest

theorem flush_tokens (l : Lexer) : l.tokens <+: l.flush.tokens := by
  unfold flush
  split
  · exact List.prefix_rfl
  · exact List.prefix_append _ _

theorem plainStep_tokens {l next : Lexer} {c : Char} (h : l.plainStep c = some next) :
    l.tokens <+: next.tokens := by
  unfold plainStep at h
  split at h
  · obtain rfl := Option.some.inj h
    exact flush_tokens l
  · split at h
    · split at h
      · obtain rfl := Option.some.inj h
        exact List.prefix_rfl
      · cases h
    · split at h
      · obtain rfl := Option.some.inj h
        exact (flush_tokens l).trans (List.prefix_append _ _)
      · split at h
        · cases h
        · obtain rfl := Option.some.inj h
          exact List.prefix_rfl

theorem step_tokens {l next : Lexer} {c : Char} (h : l.step c = some next) :
    l.tokens <+: next.tokens := by
  unfold step at h
  split at h
  · cases h
  · split at h
    · exact plainStep_tokens h
    · split at h <;> (obtain rfl := Option.some.inj h; exact List.prefix_rfl)
    · split at h
      · obtain rfl := Option.some.inj h
        exact List.prefix_rfl
      · exact (flush_tokens l).trans (plainStep_tokens h)

/-- A lexer never takes a token back. -/
theorem lexFrom_tokens {l : Lexer} {text : Text} {tokens : List Token}
    (h : l.lexFrom text = some tokens) : l.tokens <+: tokens := by
  induction text generalizing l with
  | nil =>
      change l.finish = some tokens at h
      unfold finish at h
      split at h
      · obtain rfl := Option.some.inj h
        exact flush_tokens l
      · obtain rfl := Option.some.inj h
        exact flush_tokens l
      · cases h
  | cons c text ih =>
      rw [lexFrom_cons] at h
      obtain ⟨next, hstep, hrest⟩ := Option.bind_eq_some_iff.mp h
      exact (step_tokens hstep).trans (ih hrest)

end Lexer

/-! ### Strings -/

/-- The value of a string behind its opening quote, and what comes after its
closing one. -/
def scan : Text → Option (Text × Text)
  | [] => none
  | [c] => if isQuote c then some ([], []) else none
  | c :: d :: rest =>
      if isQuote c then
        if isQuote d then (scan rest).map (fun r => (d :: r.1, r.2)) else some ([], d :: rest)
      else (scan (d :: rest)).map (fun r => (c :: r.1, r.2))

theorem scan_cons {c : Char} (h : isQuote c = false) (text : Text) :
    scan (c :: text) = (scan text).map (fun r => (c :: r.1, r.2)) := by
  cases text with
  | nil => simp [scan, h]
  | cons d rest => simp [scan, h]

/-- Two quotes are the second one. -/
theorem scan_pair {c d : Char} (hc : isQuote c = true) (hd : isQuote d = true) (rest : Text) :
    scan (c :: d :: rest) = (scan rest).map (fun r => (d :: r.1, r.2)) := by
  simp [scan, hc, hd]

/-- A lone quote ends the string. -/
theorem scan_close {c d : Char} (hc : isQuote c = true) (hd : isQuote d = false) (rest : Text) :
    scan (c :: d :: rest) = some ([], d :: rest) := by
  simp [scan, hc, hd]

/-- **The lexer scans strings.** -/
theorem lexFrom_quoted {text : Text} (hnul : nul ∉ text) (acc : Text) (tokens : List Token) :
    (Lexer.mk .quoted (some acc) tokens).lexFrom text = (scan text).bind (fun r =>
      (Lexer.mk .plain none (tokens ++ [.string (acc ++ r.1)])).lexFrom r.2) := by
  induction text using scan.induct generalizing acc with
  | case1 => rfl
  | case2 c hquote =>
      simp only [List.mem_singleton] at hnul
      simp [Lexer.lexFrom_cons, Lexer.step, Ne.symm hnul, hquote, scan]
      rfl
  | case3 c hquote =>
      simp only [List.mem_singleton] at hnul
      simp [Lexer.lexFrom_cons, Lexer.step, Ne.symm hnul, hquote, scan]
      rfl
  | case4 c d rest hc hd ih =>
      simp only [List.mem_cons, not_or] at hnul
      obtain ⟨hcnul, hdnul, hrest⟩ := hnul
      have hsteps : (Lexer.mk .quoted (some acc) tokens).lexFrom (c :: d :: rest) =
          (Lexer.mk .quoted (some (acc ++ [d])) tokens).lexFrom rest := by
        simp [Lexer.lexFrom_cons, Lexer.step, Ne.symm hcnul, Ne.symm hdnul, hc, hd]
      rw [hsteps, ih hrest, scan_pair hc hd, Option.bind_map]
      simp [Function.comp_def]
  | case5 c d rest hc hd =>
      simp only [List.mem_cons, not_or] at hnul
      obtain ⟨hcnul, hdnul, hrest⟩ := hnul
      have hd' : isQuote d = false := by simpa using hd
      rw [scan_close hc hd']
      simp [Lexer.lexFrom_cons, Lexer.step, Ne.symm hcnul, Ne.symm hdnul, hc, hd', Lexer.flush]
  | case6 c d rest hc ih =>
      simp only [List.mem_cons, not_or] at hnul
      obtain ⟨hcnul, hdnul, hrest⟩ := hnul
      have hc' : isQuote c = false := by simpa using hc
      have hstep : (Lexer.mk .quoted (some acc) tokens).lexFrom (c :: d :: rest) =
          (Lexer.mk .quoted (some (acc ++ [c])) tokens).lexFrom (d :: rest) := by
        rw [Lexer.lexFrom_cons]
        simp [Lexer.step, Ne.symm hcnul, hc']
      rw [hstep, ih (by simp [hdnul, hrest]), scan_cons hc', Option.bind_map]
      simp [Function.comp_def]

/-- The apostrophes of a text, doubled. -/
def doubled (text : Text) : Text :=
  text.flatMap (fun c => if c = apostrophe then [apostrophe, apostrophe] else [c])

theorem doubled_apostrophe (text : Text) :
    doubled (apostrophe :: text) = apostrophe :: apostrophe :: doubled text := by
  simp [doubled]

theorem doubled_cons {c : Char} (h : c ≠ apostrophe) (text : Text) :
    doubled (c :: text) = c :: doubled text := by
  simp [doubled, h]

theorem isQuote_apostrophe : isQuote apostrophe = true := by decide

theorem isQuote_of_typographic {c : Char} (h : isTypographic c = true) : isQuote c = true := by
  simp [isQuote, h]

/-- An apostrophe is not typographic. -/
theorem ne_apostrophe_of_typographic {c : Char} (h : isTypographic c = true) : c ≠ apostrophe := by
  rintro rfl
  exact absurd h (by decide)

/-- **A text without typographic quotes** is read back from its string. -/
theorem scan_doubled {text : Text} (h : ∀ c ∈ text, isTypographic c = false) (rest : Text) :
    scan (doubled text ++ rest) = (scan rest).map (fun r => (text ++ r.1, r.2)) := by
  induction text with
  | nil => simp [doubled]
  | cons c text ih =>
      have htext := ih (fun d hd => h d (List.mem_cons_of_mem c hd))
      by_cases hc : c = apostrophe
      · subst hc
        rw [doubled_apostrophe, List.cons_append, List.cons_append,
          scan_pair isQuote_apostrophe isQuote_apostrophe, htext, Option.map_map]
        rfl
      · have hquote : isQuote c = false := by
          simp [isQuote, hc, h c List.mem_cons_self]
        rw [doubled_cons hc, List.cons_append, scan_cons hquote, htext, Option.map_map]
        rfl

/-- What a string begins with, when its text goes on like `text` behind a
typographic quote `c`. -/
theorem scan_behind {c : Char} (hc : isTypographic c = true) {next : Char}
    (hnext : isQuote next = false) (text rest : Text) {r : Text × Text}
    (h : scan (c :: doubled text ++ apostrophe :: next :: rest) = some r) :
    r.1 = [] ∨ (∃ value, r.1 = apostrophe :: value) ∨
      ∃ d text' r', text = d :: text' ∧ isTypographic d = true ∧ r.1 = d :: r'.1 ∧
        scan (doubled text' ++ apostrophe :: next :: rest) = some r' := by
  have hquote := isQuote_of_typographic hc
  cases text with
  | nil =>
      change scan (c :: apostrophe :: next :: rest) = some r at h
      rw [scan_pair hquote isQuote_apostrophe] at h
      obtain ⟨r', -, rfl⟩ := Option.map_eq_some_iff.mp h
      exact .inr (.inl ⟨r'.1, rfl⟩)
  | cons d text =>
      by_cases hd : d = apostrophe
      · subst hd
        rw [doubled_apostrophe] at h
        change scan (c :: apostrophe :: _) = some r at h
        rw [scan_pair hquote isQuote_apostrophe] at h
        obtain ⟨r', -, rfl⟩ := Option.map_eq_some_iff.mp h
        exact .inr (.inl ⟨r'.1, rfl⟩)
      · rw [doubled_cons hd] at h
        change scan (c :: d :: _) = some r at h
        cases htypographic : isTypographic d with
        | false =>
            rw [scan_close hquote (by simp [isQuote, hd, htypographic])] at h
            obtain rfl := Option.some.inj h
            exact .inl rfl
        | true =>
            rw [scan_pair hquote (isQuote_of_typographic htypographic)] at h
            obtain ⟨r', hr', rfl⟩ := Option.map_eq_some_iff.mp h
            exact .inr (.inr ⟨d, text, r', rfl, htypographic, rfl, hr'⟩)

/-- **Surplus quotes.**  Two of the characters make one, so a string never gives
its text with typographic quotes in front of it.  The induction is on a bound of the
text's length: a pair of quotes takes two of its characters. -/
theorem scan_surplus {next : Char} (hnext : isQuote next = false) (rest : Text) {bound : Nat} :
    ∀ {text : Text} (quotes : Text) {r : Text × Text}, text.length ≤ bound →
      (∀ c ∈ quotes, isTypographic c = true) → quotes ≠ [] →
      scan (doubled text ++ apostrophe :: next :: rest) = some r → r.1 ≠ quotes ++ text := by
  induction bound with
  | zero =>
      intro text quotes r hlength _ hne h
      obtain rfl := List.eq_nil_of_length_eq_zero (Nat.le_zero.mp hlength)
      change scan (apostrophe :: next :: rest) = some r at h
      rw [scan_close isQuote_apostrophe hnext] at h
      obtain rfl := Option.some.inj h
      simpa using hne.symm
  | succ bound ih =>
      intro text quotes r hlength hquotes hne h hvalue
      obtain ⟨q, quotes, rfl⟩ := List.exists_cons_of_ne_nil hne
      have hq := hquotes q List.mem_cons_self
      cases text with
      | nil =>
          change scan (apostrophe :: next :: rest) = some r at h
          rw [scan_close isQuote_apostrophe hnext] at h
          obtain rfl := Option.some.inj h
          cases hvalue
      | cons c text =>
          cases hc : isTypographic c with
          | false =>
              -- The string begins with `c`, or with the apostrophe.
              by_cases hapostrophe : c = apostrophe
              · subst hapostrophe
                rw [doubled_apostrophe] at h
                change scan (apostrophe :: apostrophe :: _) = some r at h
                rw [scan_pair isQuote_apostrophe isQuote_apostrophe] at h
                obtain ⟨r', -, rfl⟩ := Option.map_eq_some_iff.mp h
                exact ne_apostrophe_of_typographic hq (List.cons.inj hvalue).1.symm
              · rw [doubled_cons hapostrophe] at h
                change scan (c :: _) = some r at h
                rw [scan_cons (by simp [isQuote, hapostrophe, hc])] at h
                obtain ⟨r', -, rfl⟩ := Option.map_eq_some_iff.mp h
                rw [(List.cons.inj hvalue).1, hq] at hc
                cases hc
          | true =>
              rw [doubled_cons (ne_apostrophe_of_typographic hc)] at h
              rcases scan_behind hc hnext text rest h with
                hnil | ⟨value, hhead⟩ | ⟨d, text', r', rfl, hd, hhead, hrest⟩
              · rw [hnil] at hvalue
                cases hvalue
              · rw [hhead] at hvalue
                exact ne_apostrophe_of_typographic hq (List.cons.inj hvalue).1.symm
              · -- The pair `c`, `d` gave only `d`.
                rw [hhead] at hvalue
                have hbehind : r'.1 = (quotes ++ [c, d]) ++ text' := by
                  simpa using (List.cons.inj hvalue).2
                have hshorter : text'.length ≤ bound := by
                  simp only [List.length_cons] at hlength
                  omega
                refine ih (quotes ++ [c, d]) hshorter ?_ (by simp) hrest hbehind
                intro e he
                rcases List.mem_append.mp he with hmem | hmem
                · exact hquotes e (List.mem_cons_of_mem q hmem)
                · rcases List.mem_cons.mp hmem with rfl | hmem
                  · exact hc
                  · exact List.mem_singleton.mp hmem ▸ hd

/-- **A text with a typographic quote** is not read back from its string. -/
theorem scan_typographic {text : Text} (h : ∃ c ∈ text, isTypographic c = true) {next : Char}
    (hnext : isQuote next = false) (rest : Text) {r : Text × Text}
    (hscan : scan (doubled text ++ apostrophe :: next :: rest) = some r) : r.1 ≠ text := by
  induction text generalizing r with
  | nil =>
      obtain ⟨c, hc, -⟩ := h
      cases hc
  | cons c text ih =>
      cases hc : isTypographic c with
      | true =>
          rw [doubled_cons (ne_apostrophe_of_typographic hc)] at hscan
          intro hvalue
          rcases scan_behind hc hnext text rest hscan with
            hnil | ⟨value, hhead⟩ | ⟨d, text', r', rfl, hd, hhead, hrest⟩
          · rw [hnil] at hvalue
            cases hvalue
          · rw [hhead] at hvalue
            exact ne_apostrophe_of_typographic hc (List.cons.inj hvalue).1.symm
          · rw [hhead] at hvalue
            refine scan_surplus hnext rest [d] (Nat.le_refl _) ?_ (by simp) hrest
              (List.cons.inj hvalue).2
            intro e he
            exact List.mem_singleton.mp he ▸ hd
      | false =>
          have htext : ∃ d ∈ text, isTypographic d = true := by
            obtain ⟨d, hd, hd'⟩ := h
            rcases List.mem_cons.mp hd with rfl | hmem
            · rw [hc] at hd'
              cases hd'
            · exact ⟨d, hmem, hd'⟩
          intro hvalue
          by_cases hapostrophe : c = apostrophe
          · subst hapostrophe
            rw [doubled_apostrophe, List.cons_append, List.cons_append,
              scan_pair isQuote_apostrophe isQuote_apostrophe] at hscan
            obtain ⟨r', hr', rfl⟩ := Option.map_eq_some_iff.mp hscan
            exact ih htext hr' (List.cons.inj hvalue).2
          · rw [doubled_cons hapostrophe, List.cons_append,
              scan_cons (by simp [isQuote, hapostrophe, hc])] at hscan
            obtain ⟨r', hr', rfl⟩ := Option.map_eq_some_iff.mp hscan
            exact ih htext hr' (List.cons.inj hvalue).2

/-- A text as a string. -/
def quoted (text : Text) : Text := apostrophe :: doubled text ++ [apostrophe]

/-! ### Strings, one after the other -/

section Arguments

/-- The doubled text is the string so far. -/
theorem read_doubled {text : Text} (hnul : nul ∉ text)
    (h : ∀ c ∈ text, isTypographic c = false) (acc : Text) (tokens : List Token) :
    (Lexer.mk .quoted (some acc) tokens).read (doubled text) =
      some (Lexer.mk .quoted (some (acc ++ text)) tokens) := by
  induction text generalizing acc with
  | nil => simp [doubled, Lexer.read]
  | cons c text ih =>
      simp only [List.mem_cons, not_or] at hnul
      have htext := ih hnul.2 (fun d hd => h d (List.mem_cons_of_mem c hd)) (acc ++ [c])
      by_cases hc : c = apostrophe
      · subst hc
        rw [doubled_apostrophe, Lexer.read_cons]
        simpa [Lexer.step, Ne.symm hnul.1, isQuote_apostrophe, Lexer.read_cons] using htext
      · have hquote : isQuote c = false := by
          simp [isQuote, hc, h c List.mem_cons_self]
        rw [doubled_cons hc, Lexer.read_cons]
        simpa [Lexer.step, Ne.symm hnul.1, hquote] using htext

/-- A string is read up to what closes it, or goes on. -/
theorem read_quoted {text : Text} (hnul : nul ∉ text)
    (h : ∀ c ∈ text, isTypographic c = false) (tokens : List Token) :
    (Lexer.mk .plain none tokens).read (quoted text) =
      some (Lexer.mk .quote (some text) tokens) := by
  have hopen : (Lexer.mk .plain none tokens).step apostrophe =
      some (Lexer.mk .quoted (some []) tokens) := rfl
  rw [quoted, List.cons_append, Lexer.read_cons, hopen]
  change (Lexer.mk .quoted (some []) tokens).read (doubled text ++ [apostrophe]) = _
  rw [Lexer.read_append, read_doubled hnul h]
  rfl

theorem flush_mode (l : Lexer) : l.flush.mode = .plain := by
  unfold Lexer.flush
  split <;> rfl

theorem flush_word (l : Lexer) : l.flush.word = none := by
  unfold Lexer.flush
  split
  · rename_i hword
    exact hword
  · rfl

/-- Outside of strings, what is left of a lexer is its tokens. -/
theorem flush_eq (l : Lexer) : l.flush = Lexer.mk .plain none l.flush.tokens := by
  rw [← flush_mode l, ← flush_word l]

theorem flush_flush (l : Lexer) : l.flush.flush = l.flush := by
  rw [flush_eq l]
  rfl

/-- A blank that is not inside a string ends what is before it. -/
theorem step_blank {l : Lexer} (h : l.mode ≠ .quoted) : l.step ' ' = some l.flush := by
  have hplain : ∀ m : Lexer, m.plainStep ' ' = some m.flush := fun m => by simp [Lexer.plainStep]
  unfold Lexer.step
  rw [if_neg (by decide)]
  cases hmode : l.mode with
  | plain => exact hplain l
  | quoted => exact absurd hmode h
  | quote =>
      simp only [show isQuote ' ' = false by decide, Bool.false_eq_true, if_false]
      rw [hplain, flush_flush]

/-- A `;` that is not inside a string ends the statement. -/
theorem step_semi {l : Lexer} (h : l.mode ≠ .quoted) :
    l.step ';' = some { l.flush with tokens := l.flush.tokens ++ [.symbol ';'] } := by
  have hplain : ∀ m : Lexer, m.plainStep ';' =
      some { m.flush with tokens := m.flush.tokens ++ [.symbol ';'] } := fun m => by
    simp [Lexer.plainStep, isQuote, isTypographic, apostrophe]
  unfold Lexer.step
  rw [if_neg (by decide)]
  cases hmode : l.mode with
  | plain => exact hplain l
  | quoted => exact absurd hmode h
  | quote =>
      simp only [show isQuote ';' = false by decide, Bool.false_eq_true, if_false]
      rw [hplain, flush_flush]

/-- Strings, each behind a blank, are so many tokens. -/
theorem read_arguments {texts : List Text}
    (h : ∀ text ∈ texts, nul ∉ text ∧ ∀ c ∈ text, isTypographic c = false)
    {l : Lexer} (hmode : l.mode ≠ .quoted) :
    ∃ next, l.read (texts.flatMap (fun text => ' ' :: quoted text)) = some next ∧
      next.mode ≠ .quoted ∧
      next.flush = Lexer.mk .plain none (l.flush.tokens ++ texts.map .string) := by
  induction texts generalizing l with
  | nil =>
      refine ⟨l, rfl, hmode, ?_⟩
      rw [List.map_nil, List.append_nil]
      exact flush_eq l
  | cons text texts ih =>
      obtain ⟨hnul, htypographic⟩ := h text List.mem_cons_self
      have hhead : l.read (' ' :: quoted text) =
          some (Lexer.mk .quote (some text) l.flush.tokens) := by
        rw [Lexer.read_cons, step_blank hmode, flush_eq l]
        exact read_quoted hnul htypographic l.flush.tokens
      obtain ⟨next, hread, hnext, hwords⟩ :=
        ih (fun t ht => h t (List.mem_cons_of_mem text ht))
          (l := Lexer.mk .quote (some text) l.flush.tokens) (by simp)
      refine ⟨next, ?_, hnext, ?_⟩
      · rw [List.flatMap_cons, Lexer.read_append, hhead]
        exact hread
      · rw [hwords]
        simp [Lexer.flush]

end Arguments

/-! ### Calls -/

/-- Strings are their own arguments. -/
theorem mapM_string (texts : List Text) : (texts.map Token.string).mapM argument = some texts := by
  induction texts with
  | nil => rfl
  | cons text texts ih => simp [argument, ih]

/-- What the arguments of a call begin with. -/
theorem mapM_argument_start {texts : List Text} {tokens : List Token} {argv : List Text}
    (h : (texts.map Token.string ++ tokens).mapM argument = some argv) :
    ∃ rest, argv = texts ++ rest ∧ tokens.mapM argument = some rest := by
  rw [List.mapM_append, mapM_string] at h
  change ((tokens.mapM argument).bind (fun rest => some (texts ++ rest))) = some argv at h
  obtain ⟨rest, hrest, hargv⟩ := Option.bind_eq_some_iff.mp h
  exact ⟨rest, (Option.some.inj hargv).symm, hrest⟩

/-- A statement behind `&` is a call. -/
theorem statement_call (args : List Token) :
    statement (.symbol '&' :: args) = (args.mapM argument).map (.call · none) := by
  unfold statement
  rw [if_neg (by simp [exitTokens]), if_neg]
  · simp
  · unfold neededName
    split
    · rw [if_neg (by simp [needsTokens])]
      simp
    · simp

/-- A string piped into a call. -/
theorem statement_piped (text : Text) (args : List Token) :
    statement (.string text :: .symbol '|' :: .symbol '&' :: args) =
      (args.mapM argument).map (.call · (some text)) := by
  unfold statement
  rw [if_neg (by simp [exitTokens]), if_neg]
  · simp
  · unfold neededName
    split
    · rw [if_neg (by simp [needsTokens])]
      simp
    · simp

/-- What a statement makes of a string it begins with. -/
theorem statement_string {text : Text} {tokens : List Token} {st : Statement}
    (h : statement (.string text :: tokens) = some st) :
    (∃ argv, st = .call argv (some text)) ∨ st = .value text := by
  unfold statement at h
  have hneeded : neededName (.string text :: tokens) = none := by
    unfold neededName
    split
    · rw [if_neg (by simp [needsTokens])]
    · rfl
  rw [if_neg (by simp [exitTokens]), hneeded, if_neg (by simp)] at h
  split at h
  · rename_i heq
    cases heq
  · rename_i heq
    obtain ⟨htext, rfl⟩ := List.cons.inj heq
    obtain rfl := Token.string.inj htext
    split at h
    · obtain ⟨argv, -, rfl⟩ := Option.map_eq_some_iff.mp h
      exact .inl ⟨argv, rfl⟩
    · cases h
  · rename_i heq
    obtain ⟨htext, rfl⟩ := List.cons.inj heq
    obtain rfl := Token.string.inj htext
    exact .inr (Option.some.inj h).symm
  · rename_i heq
    cases heq
  · cases h

theorem statement_needs (name : Text) : statement (needsTokens name) = some (.needs name) := by
  have hneeded : neededName (needsTokens name) = some name := by simp [neededName, needsTokens]
  unfold statement
  rw [hneeded, if_neg (by simp [needsTokens, exitTokens]), if_pos (by simp)]
  rfl

/-- A statement without `;` ends at the next one. -/
theorem segments_append {tokens : List Token} (h : Token.symbol ';' ∉ tokens) (rest : List Token) :
    segments (tokens ++ .symbol ';' :: rest) =
      (tokens, (segments rest).1 :: (segments rest).2) := by
  induction tokens with
  | nil => simp [segments]
  | cons token tokens ih =>
      simp only [List.mem_cons, not_or] at h
      rw [List.cons_append, segments, ih h.2]
      simp [Ne.symm h.1]

/-- A statement begins with its tokens up to the next `;`. -/
theorem segments_start {tokens : List Token} (h : Token.symbol ';' ∉ tokens) (rest : List Token) :
    (segments (tokens ++ rest)).1 = tokens ++ (segments rest).1 := by
  induction tokens with
  | nil => rfl
  | cons token tokens ih =>
      simp only [List.mem_cons, not_or] at h
      rw [List.cons_append, segments, ih h.2]
      simp [Ne.symm h.1]

/-- The first statement of a line. -/
theorem parse_head {tokens : List Token} {statements : List Statement}
    (h : parse tokens = some statements) :
    ∃ st rest, statements = st :: rest ∧ statement (segments tokens).1 = some st := by
  unfold parse at h
  rw [List.mapM_cons] at h
  obtain ⟨st, hst, hrest⟩ := Option.bind_eq_some_iff.mp h
  obtain ⟨rest, -, hstatements⟩ := Option.bind_eq_some_iff.mp hrest
  exact ⟨st, rest, (Option.some.inj hstatements).symm, hst⟩

/-- A call with an argument in it. -/
theorem parse_call_start {texts : List Text} {value : Text} {more : List Token}
    {statements : List Statement}
    (h : parse (.symbol '&' :: (texts.map Token.string ++ .string value :: more)) = some statements) :
    ∃ argv rest, statements = .call (texts ++ value :: argv) none :: rest := by
  obtain ⟨st, rest, rfl, hst⟩ := parse_head h
  have hsplit : Token.symbol '&' :: (texts.map Token.string ++ .string value :: more) =
      (Token.symbol '&' :: (texts ++ [value]).map Token.string) ++ more := by simp
  rw [hsplit, segments_start (by simp), List.cons_append, statement_call] at hst
  obtain ⟨argv, hargv, rfl⟩ := Option.map_eq_some_iff.mp hst
  obtain ⟨args, rfl, -⟩ := mapM_argument_start hargv
  exact ⟨args, rest, by simp⟩

/-- The same with a string piped in. -/
theorem parse_piped_start {text : Text} {texts : List Text} {value : Text} {more : List Token}
    {statements : List Statement}
    (h : parse (.string text :: .symbol '|' :: .symbol '&' ::
      (texts.map Token.string ++ .string value :: more)) = some statements) :
    ∃ argv rest, statements = .call (texts ++ value :: argv) (some text) :: rest := by
  obtain ⟨st, rest, rfl, hst⟩ := parse_head h
  have hsplit : Token.string text :: .symbol '|' :: .symbol '&' ::
      (texts.map Token.string ++ .string value :: more) =
      (Token.string text :: .symbol '|' :: .symbol '&' :: (texts ++ [value]).map Token.string) ++
        more := by simp
  rw [hsplit, segments_start (by simp), List.cons_append, List.cons_append, List.cons_append,
    statement_piped] at hst
  obtain ⟨argv, hargv, rfl⟩ := Option.map_eq_some_iff.mp hst
  obtain ⟨args, rfl, -⟩ := mapM_argument_start hargv
  exact ⟨args, rest, by simp⟩

/-- What a line does that begins with a string. -/
theorem parse_string_start {text : Text} {more : List Token} {statements : List Statement}
    (h : parse (.string text :: more) = some statements) :
    ∃ st rest, statements = st :: rest ∧
      ((∃ argv, st = .call argv (some text)) ∨ st = .value text) := by
  obtain ⟨st, rest, rfl, hst⟩ := parse_head h
  have hsegment : (segments (.string text :: more)).1 = .string text :: (segments more).1 :=
    @segments_start [.string text] (by simp) more
  rw [hsegment] at hst
  exact ⟨st, rest, rfl, statement_string hst⟩

/-- **A string that is not read back.**  The token has another value. -/
theorem lexFrom_typographic {text : Text} (h : ∃ c ∈ text, isTypographic c = true) {next : Char}
    (hnext : isQuote next = false) {rest : Text} (hnul : nul ∉ doubled text ++ apostrophe :: next :: rest)
    {before tokens : List Token}
    (hlex : (Lexer.mk .plain none before).lexFrom (quoted text ++ next :: rest) = some tokens) :
    ∃ value more, value ≠ text ∧ tokens = before ++ .string value :: more := by
  have hopen : (Lexer.mk .plain none before).step apostrophe =
      some (Lexer.mk .quoted (some []) before) := rfl
  have hquoted : quoted text ++ next :: rest =
      apostrophe :: (doubled text ++ apostrophe :: next :: rest) := by simp [quoted]
  rw [hquoted, Lexer.lexFrom_cons, hopen, Option.bind_some, lexFrom_quoted hnul] at hlex
  obtain ⟨r, hscan, htokens⟩ := Option.bind_eq_some_iff.mp hlex
  obtain ⟨more, rfl⟩ := Lexer.lexFrom_tokens htokens
  exact ⟨r.1, more, scan_typographic h hnext rest hscan, by simp⟩

/-- No text with a NUL runs. -/
theorem run_nul {text : Text} (h : nul ∈ text) (finds : Text → Bool) : run finds text = none := by
  simp [run, lex, Lexer.lexFrom_nul h]

end PowerShell
