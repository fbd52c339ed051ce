/-!
# A POSIX shell

Enough of the shell language to say what a command line starts: words with
single and double quotes and parameters, redirections, pipelines, and lists with
`&&`, `||`, `;` and `&`.  A text that leaves this fragment, or holds a NUL, which
no argument can, does not lex, parse or run.

The lexer is a fold over the characters, so what it does to a text put together
from parts is what it does to the parts, one after the other (`lex_append`).
What a text starts is the list of the programs, in order of the text; how each of
them exits is up to the environment.
-/

namespace PosixShell

/-- Texts, character by character. -/
abbrev Text := List Char

def apostrophe : Char := '\x27'
def doubleQuote : Char := '\x22'
def nul : Char := '\x00'

/-! ### Words -/

/-- A part of a word before its expansion. -/
inductive Piece where
  | char (c : Char) (quoted : Bool)
  /-- A `$` that is not inside single quotes. -/
  | dollar (quoted : Bool)
  deriving DecidableEq, Repr

abbrev Word := List Piece

/-- A digit that is not quoted. -/
def Piece.isDigit : Piece → Bool
  | .char c false => c.isDigit
  | _ => false

/-- A text, taken literally. -/
def literal (quoted : Bool) (text : Text) : Word := text.map (fun c => .char c quoted)

/-- The text of a literal word. -/
theorem literal_inj {quoted quoted' : Bool} {left right : Text}
    (h : literal quoted left = literal quoted' right) : left = right := by
  induction left generalizing right with
  | nil =>
      cases right with
      | nil => rfl
      | cons c right => cases h
  | cons c left ih =>
      cases right with
      | nil => cases h
      | cons d right =>
          obtain ⟨hhead, htail⟩ := List.cons.inj h
          rw [(Piece.char.inj hhead).1, ih htail]

/-- What separates two commands of a list. -/
inductive Separator where
  | semi
  | amp
  | andIf
  | orIf
  | pipe
  deriving DecidableEq, Repr

/-- `great` is a redirection to a file, `greatAnd` one to another descriptor. -/
inductive Token where
  | word (w : Word)
  | great (fd : Option Word)
  | greatAnd (fd : Option Word)
  | separator (s : Separator)
  deriving DecidableEq, Repr

/-! ### The lexer -/

/-- Inside of what the lexer is, or which operator may still go on. -/
inductive Mode where
  | plain
  | single
  | double
  | amp
  | pipe
  | great (fd : Option Word)
  deriving DecidableEq, Repr

/-- The lexer between two characters. -/
structure Lexer where
  mode : Mode := .plain
  word : Option Word := none
  tokens : List Token := []
  deriving DecidableEq, Repr

namespace Lexer

/-- The word ends, if there is one. -/
def flush (l : Lexer) : Lexer :=
  match l.word with
  | none => l
  | some w => { l with word := none, tokens := l.tokens ++ [.word w] }

/-- An operator ends. -/
def emit (l : Lexer) (token : Token) : Lexer :=
  { l.flush with mode := .plain, tokens := l.flush.tokens ++ [token] }

/-- The word goes on. -/
def add (l : Lexer) (piece : Piece) : Lexer :=
  { l with word := some (l.word.getD [] ++ [piece]) }

/-- A quote opens; from here on there is a word, if only an empty one. -/
def openQuote (l : Lexer) (mode : Mode) : Lexer :=
  { l with mode := mode, word := some (l.word.getD []) }

/-- A redirection begins; a word of digits right before it is its descriptor. -/
def redirect (l : Lexer) : Lexer :=
  match l.word with
  | none => { l with mode := .great none }
  | some w =>
      if w.all Piece.isDigit then
        { l with mode := .great (some w), word := none }
      else { l.flush with mode := .great none }

/-- Unquoted characters that begin something outside the fragment: escapes,
substitutions, here-documents, comments, patterns, grouping. -/
def outside : Text := "\\\x60()<\n\r#*?[~!\x7b\x7d".toList

/-- A character outside quotes and operators. -/
def plainStep (l : Lexer) (c : Char) : Option Lexer :=
  if c = ' ' ∨ c = '\t' then some l.flush
  else if c = apostrophe then some (l.openQuote .single)
  else if c = doubleQuote then some (l.openQuote .double)
  else if c = ';' then some (l.emit (.separator .semi))
  else if c = '&' then some { l.flush with mode := .amp }
  else if c = '|' then some { l.flush with mode := .pipe }
  else if c = '>' then some l.redirect
  else if c = '$' then some (l.add (.dollar false))
  else if c ∈ outside then none
  else some (l.add (.char c false))

/-- One character. -/
def step (l : Lexer) (c : Char) : Option Lexer :=
  if c = nul then none
  else match l.mode with
    | .plain => l.plainStep c
    | .single =>
        if c = apostrophe then some { l with mode := .plain } else some (l.add (.char c true))
    | .double =>
        if c = doubleQuote then some { l with mode := .plain }
        else if c = '\\' ∨ c = '\x60' then none
        else if c = '$' then some (l.add (.dollar true))
        else some (l.add (.char c true))
    | .amp =>
        if c = '&' then some (l.emit (.separator .andIf))
        else (l.emit (.separator .amp)).plainStep c
    | .pipe =>
        if c = '|' then some (l.emit (.separator .orIf))
        else (l.emit (.separator .pipe)).plainStep c
    | .great fd =>
        if c = '&' then some (l.emit (.greatAnd fd))
        else if c = '>' then none
        else (l.emit (.great fd)).plainStep c

/-- The characters of a text, one after the other. -/
def read (l : Lexer) (text : Text) : Option Lexer := text.foldlM step l

/-- The tokens at the end of the text. -/
def finish (l : Lexer) : Option (List Token) :=
  match l.mode with
  | .plain => some l.flush.tokens
  | .amp => some (l.emit (.separator .amp)).tokens
  | .pipe => some (l.emit (.separator .pipe)).tokens
  | .great fd => some (l.emit (.great fd)).tokens
  | .single | .double => none

end Lexer

/-- The tokens of a text. -/
def lex (text : Text) : Option (List Token) := (({} : Lexer).read text).bind Lexer.finish

/-! ### The parser -/

/-- A simple command: its words, and how many redirections it has. -/
structure Simple where
  words : List Word := []
  redirections : Nat := 0
  deriving DecidableEq, Repr

/-- A list of commands with what stands between them. -/
structure Script where
  first : Simple := {}
  rest : List (Separator × Simple) := []
  deriving DecidableEq, Repr

/-- The commands of a token list. -/
def parse : List Token → Option Script
  | [] => some {}
  | .word w :: tokens => (parse tokens).map (fun s =>
      { s with first := { s.first with words := w :: s.first.words } })
  | .great _ :: .word _ :: tokens => (parse tokens).map (fun s =>
      { s with first := { s.first with redirections := s.first.redirections + 1 } })
  | .greatAnd _ :: .word _ :: tokens => (parse tokens).map (fun s =>
      { s with first := { s.first with redirections := s.first.redirections + 1 } })
  | .separator separator :: tokens => (parse tokens).map (fun s =>
      { first := {}, rest := (separator, s.first) :: s.rest })
  | _ => none

/-- Words that are not the name of a command when they are not quoted. -/
def reservedWords : List Text :=
  ["if", "then", "else", "elif", "fi", "do", "done", "case", "esac", "while", "until", "for",
    "function", "select", "time"].map String.toList

/-- The characters of a parameter's name. -/
def isNameChar (c : Char) : Bool := c.isAlphanum || c = '_'

/-- A character of a name that is not quoted. -/
def Piece.isName : Piece → Bool
  | .char c false => isNameChar c
  | _ => false

/-- An assignment `NAME=value` in front of a command. -/
def isAssignment (word : Word) : Bool :=
  let name := word.takeWhile (fun piece => decide (piece ≠ .char '=' false))
  decide (.char '=' false ∈ word ∧ name ≠ []) && name.all Piece.isName &&
    !(name.take 1).any Piece.isDigit

/-- The word is read by the shell itself when a command begins with it. -/
def isSyntax (word : Word) : Bool :=
  isAssignment word || reservedWords.any (fun reserved => word = literal false reserved)

/-- A command that is there, and is one. -/
def Simple.valid (command : Simple) : Bool :=
  match command.words with
  | [] => decide (0 < command.redirections)
  | word :: _ => !isSyntax word

/-- Only behind a final `;` or `&` may a command be missing. -/
def validRest : List (Separator × Simple) → Bool
  | [] => true
  | [(separator, next)] =>
      next.valid || (decide (next = {}) && (separator = .semi || separator = .amp))
  | (_, next) :: rest => next.valid && validRest rest

def Script.valid (script : Script) : Bool := script.first.valid && validRest script.rest

/-! ### Execution -/

/-- What a shell finds: its parameters, and which commands exit with status 0. -/
structure Environment where
  param : Text → Text
  succeeds : List Text → Bool

/-- The value of a word, `name` being that of a parameter read so far. -/
def expandFrom (param : Text → Text) : Option Text → Word → Text
  | none, [] => []
  | some name, [] => param name
  | none, .char c _ :: word => c :: expandFrom param none word
  | none, .dollar _ :: word => expandFrom param (some []) word
  | some name, .char c _ :: word =>
      if isNameChar c then expandFrom param (some (name ++ [c])) word
      else param name ++ c :: expandFrom param none word
  | some name, .dollar _ :: word => param name ++ expandFrom param (some []) word

/-- The value of a word. -/
def expand (env : Environment) (word : Word) : Text := expandFrom env.param none word

/-- The fields of a word: its value, or what is left of it between blanks when a
parameter in it is not quoted. -/
def fieldsOf (env : Environment) (word : Word) : List Text :=
  if Piece.dollar false ∈ word then
    ((expand env word).splitOnP (fun c => c = ' ' ∨ c = '\t' ∨ c = '\n')).filter (fun f => f ≠ [])
  else [expand env word]

/-- Builtins other than those that run below. -/
def otherBuiltins : List Text :=
  [".", ":", "alias", "bg", "break", "continue", "eval", "export", "fc", "fg", "getopts", "hash",
    "jobs", "local", "read", "readonly", "return", "set", "shift", "source", "times", "trap",
    "type", "ulimit", "umask", "unalias", "unset", "wait"].map String.toList

/-- What a command did: the programs it started, its status, and whether the
shell goes on. -/
structure Result where
  started : List (List Text) := []
  status : Bool := true
  stops : Bool := false
  deriving DecidableEq, Repr

/-- The fields of a command run. -/
def runFields (env : Environment) : List Text → Option Result
  | [] => some {}
  | name :: args =>
      if name = "exit".toList then some { stops := true }
      else if name = "exec".toList then
        match args with
        | [] => some {}
        | program :: _ =>
            if program.head? = some '-' then none
            else some { started := [args], status := env.succeeds args, stops := true }
      else if name = "cd".toList then some { status := env.succeeds (name :: args) }
      else if name = "command".toList then
        if args.head? = some "-v".toList then some { status := env.succeeds (name :: args) } else none
      else if otherBuiltins.contains name then none
      else some { started := [name :: args], status := env.succeeds (name :: args) }

/-- A simple command runs. -/
def Simple.run (env : Environment) (command : Simple) : Option Result :=
  runFields env (command.words.flatMap (fieldsOf env))

/-- The rest of a list runs, `command` being next.  `status` is that of the last
pipeline, `skip` says that `command` is not to run, `piped` that a pipe leads to
it, `joined` that it is not the first of its list of pipelines. -/
def runFrom (env : Environment) (status skip piped joined : Bool) (command : Simple) :
    List (Separator × Simple) → Option (List (List Text))
  | [] =>
      if skip then some [] else (command.run env).map Result.started
  | (separator, next) :: rest =>
      -- A part of a pipeline, or of a background list, runs in a shell of its own.
      let subshell := piped || separator = .pipe || separator = .amp
      let result := if skip then some { status := status } else command.run env
      result.bind (fun result =>
        if result.stops && !subshell then some result.started
        else
          let after := match separator with
            | .pipe => runFrom env status skip true joined next rest
            | .andIf => runFrom env result.status (!result.status) false true next rest
            | .orIf => runFrom env result.status result.status false true next rest
            | .semi => runFrom env result.status false false false next rest
            | .amp => if piped || joined then none else runFrom env true false false false next rest
          after.map (fun started => result.started ++ started))

/-- A list of commands runs. -/
def Script.run (env : Environment) (script : Script) : Option (List (List Text)) :=
  if script.valid then runFrom env true false false false script.first script.rest else none

/-- **What a command line starts.** -/
def run (env : Environment) (text : Text) : Option (List (List Text)) :=
  ((lex text).bind parse).bind (Script.run env)

/-! ### Reading a text in parts -/

namespace Lexer

@[simp] theorem read_nil (l : Lexer) : l.read [] = some l := rfl

theorem read_cons (l : Lexer) (c : Char) (text : Text) :
    l.read (c :: text) = (l.step c).bind (fun next => next.read text) := rfl

theorem read_append (l : Lexer) (left right : Text) :
    l.read (left ++ right) = (l.read left).bind (fun next => next.read right) :=
  List.foldlM_append

/-- The rest of a text is read by the lexer its beginning leaves. -/
theorem read_append_of {l next : Lexer} {left : Text} (h : l.read left = some next)
    (right : Text) : l.read (left ++ right) = next.read right := by
  rw [read_append, h]
  rfl

/-- No text with a NUL is read. -/
theorem read_nul {text : Text} (h : nul ∈ text) (l : Lexer) : l.read text = none := by
  induction text generalizing l with
  | nil => cases h
  | cons c text ih =>
      rw [read_cons]
      rcases List.mem_cons.mp h with rfl | hmem
      · simp [step]
      · cases hstep : l.step c with
        | none => rfl
        | some next => exact ih hmem next

@[simp] theorem flush_mode (l : Lexer) : l.flush.mode = l.mode := by
  unfold flush
  split <;> rfl

@[simp] theorem flush_word (l : Lexer) : l.flush.word = none := by
  unfold flush
  split
  · rename_i hword
    exact hword
  · rfl

/-- Outside of quotes, what is left of a lexer is its tokens. -/
theorem flush_eq {l : Lexer} (h : l.mode = .plain) :
    l.flush = Lexer.mk .plain none l.flush.tokens := by
  rw [← h, ← flush_mode l, ← flush_word l]

@[simp] theorem flush_flush (l : Lexer) : l.flush.flush = l.flush := by
  rw [flush, flush_word]

/-- An operator sees only what the word before it has become. -/
theorem emit_flush (l : Lexer) (token : Token) : l.flush.emit token = l.emit token := by
  simp [emit]

/-- Outside of quotes a blank ends the word. -/
theorem step_blank {l : Lexer} (h : l.mode = .plain) : l.step ' ' = some l.flush := by
  simp [step, h, plainStep, nul]

theorem step_semi {l : Lexer} (h : l.mode = .plain) :
    l.step ';' = some (l.emit (.separator .semi)) := by
  simp [step, h, plainStep, nul, apostrophe, doubleQuote]

/-- The characters that do not only stand for themselves. -/
def special : Text := [nul, ' ', '\t', apostrophe, doubleQuote] ++ ";&|>$".toList ++ outside

theorem step_ordinary {l : Lexer} {c : Char} (hmode : l.mode = .plain) (h : c ∉ special) :
    l.step c = some (l.add (.char c false)) := by
  simp only [special, String.reduceToList, List.mem_append, List.mem_cons, List.not_mem_nil,
    or_false, not_or] at h
  obtain ⟨⟨⟨hnul, hblank, htab, hapostrophe, hquote⟩, hsemi, hamp, hpipe, hgreat, hdollar⟩,
    houtside⟩ := h
  simp [step, hmode, plainStep, *]

/-- Ordinary characters make up a word. -/
theorem read_ordinary {l : Lexer} {text : Text} (hmode : l.mode = .plain)
    (h : ∀ c ∈ text, c ∉ special) (hne : text ≠ []) :
    l.read text = some { l with word := some (l.word.getD [] ++ literal false text) } := by
  induction text generalizing l with
  | nil => exact absurd rfl hne
  | cons c text ih =>
      rw [read_cons, step_ordinary hmode (h c List.mem_cons_self)]
      by_cases htext : text = []
      · subst htext
        rfl
      · have hrest := ih (l := l.add (.char c false)) hmode
          (fun d hd => h d (List.mem_cons_of_mem c hd)) htext
        simpa [add, literal] using hrest

/-- Between double quotes a character stands for itself unless it begins an
expansion or an escape. -/
theorem read_double {l : Lexer} {text : Text} {w : Word} (hmode : l.mode = .double)
    (hword : l.word = some w)
    (h : ∀ c ∈ text, c ≠ nul ∧ c ≠ doubleQuote ∧ c ≠ '\\' ∧ c ≠ '\x60' ∧ c ≠ '$') :
    l.read text = some { l with word := some (w ++ literal true text) } := by
  induction text generalizing l w with
  | nil => simp [literal, ← hword]
  | cons c text ih =>
      obtain ⟨hnul, hquote, hescape, hsubstitution, hdollar⟩ := h c List.mem_cons_self
      have hstep : l.step c = some (l.add (.char c true)) := by
        simp [step, hmode, hnul, hquote, hescape, hsubstitution, hdollar]
      rw [read_cons, hstep]
      have hrest := ih (l := l.add (.char c true)) (w := w ++ [.char c true]) hmode
        (by simp [add, hword]) (fun d hd => h d (List.mem_cons_of_mem c hd))
      simpa [add, literal] using hrest

end Lexer

/-! ### Words, one after the other -/

section Arguments

variable {α : Type} {quote : α → Text} {word : α → Word}

/-- The lexer reads what is quoted as one word. -/
def QuotesAs (quote : α → Text) (word : α → Word) (text : α) : Prop :=
  ∀ tokens, (Lexer.mk .plain none tokens).read (quote text) =
    some (Lexer.mk .plain (some (word text)) tokens)

/-- Quoted texts, each behind a blank, are so many words. -/
theorem read_arguments {texts : List α} (h : ∀ text ∈ texts, QuotesAs quote word text)
    {l : Lexer} (hmode : l.mode = .plain) :
    ∃ next, l.read (texts.flatMap (fun text => ' ' :: quote text)) = some next ∧
      next.mode = .plain ∧
      next.flush = { l.flush with
        tokens := l.flush.tokens ++ texts.map (fun text => .word (word text)) } := by
  induction texts generalizing l with
  | nil =>
      refine ⟨l, rfl, hmode, ?_⟩
      rw [List.map_nil, List.append_nil]
  | cons text texts ih =>
      have hflush : l.flush = Lexer.mk .plain none l.flush.tokens := Lexer.flush_eq hmode
      have hhead : l.read (' ' :: quote text) =
          some (Lexer.mk .plain (some (word text)) l.flush.tokens) := by
        rw [Lexer.read_cons, Lexer.step_blank hmode, hflush]
        exact h text List.mem_cons_self l.flush.tokens
      obtain ⟨next, hread, hnext, hwords⟩ :=
        ih (fun t ht => h t (List.mem_cons_of_mem text ht))
          (l := Lexer.mk .plain (some (word text)) l.flush.tokens) rfl
      refine ⟨next, ?_, hnext, ?_⟩
      · rw [List.flatMap_cons, Lexer.read_append_of hhead]
        exact hread
      · rw [hwords, hflush]
        simp [Lexer.flush]

/-- Words in front of a command. -/
theorem parse_words (words : List Word) (tokens : List Token) :
    parse (words.map .word ++ tokens) = (parse tokens).map (fun s =>
      { s with first := { s.first with words := words ++ s.first.words } }) := by
  induction words with
  | nil => simp
  | cons w words ih =>
      rw [List.map_cons, List.cons_append, parse, ih, Option.map_map]
      rfl

end Arguments

/-! ### Literal words -/

theorem dollar_notMem_literal (quoted : Bool) (text : Text) (q : Bool) :
    Piece.dollar q ∉ literal quoted text := by
  simp [literal]

/-- A literal in front of a word stands in front of its value. -/
theorem expandFrom_literal (param : Text → Text) (quoted : Bool) (text : Text) (word : Word) :
    expandFrom param none (literal quoted text ++ word) = text ++ expandFrom param none word := by
  unfold literal
  induction text with
  | nil => rfl
  | cons c text ih => simpa [expandFrom] using ih

/-- A literal word is its own value. -/
theorem expand_literal (env : Environment) (quoted : Bool) (text : Text) :
    expand env (literal quoted text) = text := by
  have hvalue := expandFrom_literal env.param quoted text []
  rw [List.append_nil] at hvalue
  rw [expand, hvalue]
  exact List.append_nil text

/-- Two literals that stand together are one field. -/
theorem fieldsOf_literal_append (env : Environment) (q r : Bool) (left right : Text) :
    fieldsOf env (literal q left ++ literal r right) = [left ++ right] := by
  have hdollar : Piece.dollar false ∉ literal q left ++ literal r right := by
    rw [List.mem_append, not_or]
    exact ⟨dollar_notMem_literal q left false, dollar_notMem_literal r right false⟩
  have hright := expand_literal env r right
  unfold expand at hright
  rw [fieldsOf, if_neg hdollar, expand, expandFrom_literal, hright]

/-- A literal word is one field. -/
theorem fieldsOf_literal (env : Environment) (quoted : Bool) (text : Text) :
    fieldsOf env (literal quoted text) = [text] := by
  unfold fieldsOf
  rw [if_neg (dollar_notMem_literal quoted text false), expand_literal]

/-- Literal words are as many fields. -/
theorem fields_literal (env : Environment) (quoted : Text → Bool) (texts : List Text) :
    (texts.map (fun text => literal (quoted text) text)).flatMap (fieldsOf env) = texts := by
  induction texts with
  | nil => rfl
  | cons text texts ih =>
      rw [List.map_cons, List.flatMap_cons, fieldsOf_literal, ih]
      rfl

/-- No text with a NUL runs. -/
theorem run_nul {text : Text} (h : nul ∈ text) (env : Environment) : run env text = none := by
  simp [run, lex, Lexer.read_nul h]

end PosixShell
