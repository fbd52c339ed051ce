import CyberWorkbench.PythonValues
import CyberWorkbench.Utf8Replacement

/-!
# The output of a tool

`service/toolpack`: the result of a command carries its output up to a limit in
bytes; a longer output is written to a file as a whole, and the result names the
file.  The limit cuts the encoded output, so that a character may be cut, and
what is left of it is decoded to a replacement character of three bytes.

`output_bounded_iff`: the limit holds exactly where the cut leaves nothing or
three bytes of a character, provided that no line makes the JSON parser raise
anything but the `ValueError` that is caught.

The JSON parser is a parameter.  Files are named by their place under the root
of the artifacts, which holds no links.
-/

namespace Workbench.Toolpack

open PythonValues Utf8

/-! ### Results -/

/-- `ExecutionErrorCode`. -/
inductive ExecutionErrorCode where
  | connectFailed
  | authFailed
  | hostKeyChanged
  | permissionDenied
  | policyDenied
  | approvalRequired
  | timeout
  | canceled
  | processFailed
  | outputTruncated
  | toolMissing
  | platformUnsupported
  | scopeDenied
  deriving DecidableEq, Repr

/-- `ExecutionArtifact`. -/
structure ExecutionArtifact where
  id : String
  path : String
  mediaType : String := "text/plain"
  size : Nat

/-- `ExecutionResult`. -/
structure ExecutionResult where
  ok : Bool
  executionId : String
  summary : String
  structured : Dict := []
  artifactRefs : List ExecutionArtifact := []
  exitCode : Option Int := none
  startedAt : Nat
  finishedAt : Nat
  truncated : Bool := false
  errorCode : Option ExecutionErrorCode := none

/-- `SandboxContainerCommandResult`. -/
structure SandboxContainerCommandResult where
  output : String
  exitCode : Int

/-- What results name of a tool's manifest. -/
structure ToolManifest where
  id : String
  executable : String

/-- `uuid4().hex`. -/
structure RunId where
  text : String
  hex : ∀ c ∈ text.toList, c.isDigit = true ∨ 'a' ≤ c ∧ c ≤ 'f'
  length : text.toList.length = 32

/-! ### Artifacts -/

/-- The files under `_ARTIFACT_ROOT`. -/
abbrev ArtifactFiles : Type := String → Option (List UInt8)

/-- `_MAX_STRUCTURED_STDOUT`. -/
def maxStructuredStdout : Nat := 256 * 1024

/-- `path.stem`: the name up to its last dot, if that is neither its first nor
its last character. -/
def stem (name : String) : String :=
  let ending := (name.toList.reverse.takeWhile (· != '.')).length
  if ending = 0 ∨ name.toList.length ≤ ending + 1 then name
  else String.ofList (name.toList.take (name.toList.length - ending - 1))

/-- `_write_artifact`. -/
def writeArtifact (files : ArtifactFiles) (runId : RunId) (output : String) :
    ArtifactFiles × ExecutionArtifact :=
  let name := runId.text ++ ".stdout.txt"
  (Function.update files name (some (encode output.toList)),
    { id := stem name
      path := "toolpack/artifacts/" ++ name
      mediaType := "text/plain"
      size := (encode output.toList).length })

/-- What `resolve_tool_artifact_path` raises. -/
inductive ArtifactError where
  | invalidId
  | notFound
  deriving DecidableEq, Repr

/-- `resolve_tool_artifact_path`: the name of the file. -/
def resolveToolArtifactPath (files : ArtifactFiles) (artifactId : String) :
    Except ArtifactError String :=
  let safeId := strip artifactId
  if safeId = "" ∨ '/' ∈ safeId.toList ∨ '\\' ∈ safeId.toList ∨ safeId = "." ∨ safeId = ".." then
    .error .invalidId
  else if (files (safeId ++ ".txt")).isSome then .ok (safeId ++ ".txt")
  else .error .notFound

/-! ### Records -/

/-- What `json.loads` raises. -/
inductive JsonFailure where
  | valueError
  | other (message : String)
  deriving DecidableEq, Repr

/-- What ends a line for `str.splitlines`. -/
def isLineEnd (c : Char) : Bool :=
  (10 ≤ c.toNat && c.toNat ≤ 13) || (0x1C ≤ c.toNat && c.toNat ≤ 0x1E) || c.toNat == 0x85 ||
    c.toNat == 0x2028 || c.toNat == 0x2029

/-- The lines of a text, the first of them begun with `line` reversed. -/
def splitLinesFrom : List Char → List Char → List String
  | [], line => if line = [] then [] else [String.ofList line.reverse]
  | '\r' :: '\n' :: rest, line => String.ofList line.reverse :: splitLinesFrom rest []
  | c :: rest, line =>
      if isLineEnd c then String.ofList line.reverse :: splitLinesFrom rest []
      else splitLinesFrom rest (c :: line)

/-- `str.splitlines`. -/
def splitLines (text : String) : List String := splitLinesFrom text.toList []

/-- The loop of `_parse_output_records`. -/
def parseRecords (loads : String → Except JsonFailure Value) :
    List String → Except JsonFailure (List Value)
  | [] => .ok []
  | line :: rest =>
      if strip line = "" then parseRecords loads rest
      else
        match loads (strip line) with
        | .ok value => (parseRecords loads rest).map (value :: ·)
        | .error .valueError =>
            (parseRecords loads rest).map (.dict [("line", .str (strip line))] :: ·)
        | .error (.other message) => .error (.other message)

/-- `_parse_output_records`. -/
def parseOutputRecords (loads : String → Except JsonFailure Value) (output : String) :
    Except JsonFailure (List Value) :=
  parseRecords loads (splitLines output)

/-! ### The result of a command -/

/-- The structured output of a command. -/
def structuredStdout (output : String) : String :=
  if maxStructuredStdout < (encode output.toList).length then
    String.ofList (decode ((encode output.toList).take maxStructuredStdout))
  else output

/-- `_result_from_command`: the files after it, and what it returns or raises. -/
def resultFromCommand (loads : String → Except JsonFailure Value) (files : ArtifactFiles)
    (runId : RunId) (tool : ToolManifest) (command : SandboxContainerCommandResult)
    (startedAt finishedAt : Nat) : ArtifactFiles × Except JsonFailure ExecutionResult :=
  if command.exitCode = 127 then
    (files, .ok
      { ok := false
        executionId := runId.text
        summary := tool.executable ++ " is not installed"
        structured := [("tool_id", .str tool.id), ("records", .list []), ("stdout", .str "")]
        exitCode := some command.exitCode
        startedAt := startedAt
        finishedAt := finishedAt
        errorCode := some .toolMissing })
  else
    let truncated := decide (maxStructuredStdout < (encode command.output.toList).length)
    let written := writeArtifact files runId command.output
    let files' := if truncated then written.1 else files
    let ok := decide (command.exitCode = 0)
    (files', (parseOutputRecords loads command.output).map fun records =>
      { ok := ok
        executionId := runId.text
        summary := if ok then "tool completed" else "tool exited with a non-zero status"
        structured :=
          [("tool_id", .str tool.id), ("stdout", .str (structuredStdout command.output)),
            ("records", .list records)]
        artifactRefs := if truncated then [written.2] else []
        exitCode := some command.exitCode
        startedAt := startedAt
        finishedAt := finishedAt
        truncated := truncated
        errorCode := if ok then none else some .processFailed })

/-- `_error_result`. -/
def errorResult (runId : RunId) (startedAt finishedAt : Nat) (errorCode : ExecutionErrorCode)
    (summary : String) : ExecutionResult :=
  { ok := false
    executionId := runId.text
    summary := summary
    structured := [("records", .list [])]
    artifactRefs := []
    exitCode := none
    startedAt := startedAt
    finishedAt := finishedAt
    truncated := false
    errorCode := some errorCode }

/-! ### What the result promises -/

/-- The output is bounded and not lost. -/
structure BoundedOutput (files : ArtifactFiles) (output : String) (result : ExecutionResult) :
    Prop where
  /-- The structured output is a text of at most the limit. -/
  bounded : ∃ stdout, Dict.get result.structured "stdout" = .str stdout ∧
    (encode stdout.toList).length ≤ maxStructuredStdout ∧
    (stdout.toList <+: output.toList ∨ ∃ start c rest,
      output.toList = start ++ c :: rest ∧ stdout.toList = start ++ [replacement])
  truncated : result.truncated = true ↔ maxStructuredStdout < (encode output.toList).length
  kept : result.truncated = true → ∃ artifact ∈ result.artifactRefs, ∃ name,
    artifact.path = "toolpack/artifacts/" ++ name ∧ files name = some (encode output.toList) ∧
      resolveToolArtifactPath files artifact.id = .ok name

/-- What is left of a character at the limit: nothing, or three bytes of four. -/
def CutFits (output : String) : Prop :=
  cutLeft maxStructuredStdout output.toList = 0 ∨ cutLeft maxStructuredStdout output.toList = 3

/-- No line makes the parser raise what is not caught. -/
def LinesParse (loads : String → Except JsonFailure Value) (output : String) : Prop :=
  ∀ line ∈ splitLines output, strip line ≠ "" → ∀ message,
    loads (strip line) ≠ .error (.other message)

/-! ### The artifact -/

/-- A run id begins with what is no space, no separator and no dot. -/
theorem RunId.cons (runId : RunId) : ∃ c rest, runId.text.toList = c :: rest ∧
    isSpace c = false ∧ c ≠ '.' := by
  obtain ⟨c, rest, htext⟩ := List.exists_cons_of_length_pos (l := runId.text.toList)
    (by rw [runId.length]; decide)
  refine ⟨c, rest, htext, ?_⟩
  have hhex := runId.hex c (by rw [htext]; exact List.mem_cons_self)
  have hrange : (48 ≤ c.toNat ∧ c.toNat ≤ 57) ∨ (97 ≤ c.toNat ∧ c.toNat ≤ 102) := by
    rcases hhex with hdigit | hletter
    · simp only [Char.isDigit, Bool.and_eq_true, decide_eq_true_eq] at hdigit
      exact .inl hdigit
    · exact .inr hletter
  constructor
  · simp only [isSpace, Bool.or_eq_false_iff, Bool.and_eq_false_iff, beq_eq_false_iff_ne,
      decide_eq_false_iff_not]
    omega
  · rintro rfl
    revert hrange
    decide

theorem RunId.no_separator (runId : RunId) : '/' ∉ runId.text.toList ∧
    '\\' ∉ runId.text.toList := by
  constructor
  · intro hmem
    exact absurd (runId.hex _ hmem) (by decide)
  · intro hmem
    exact absurd (runId.hex _ hmem) (by decide)

/-- The id of an artifact is its file's name without the last ending. -/
theorem stem_stdout (runId : RunId) :
    stem (runId.text ++ ".stdout.txt") = runId.text ++ ".stdout" := by
  have hlist : (runId.text ++ ".stdout.txt").toList =
      (runId.text ++ ".stdout").toList ++ ['.', 't', 'x', 't'] := by
    rw [String.toList_append, String.toList_append, List.append_assoc]
    rfl
  have hending : ((runId.text ++ ".stdout.txt").toList.reverse.takeWhile (· != '.')).length = 3 := by
    rw [hlist, List.reverse_append]
    rfl
  have hlength : (runId.text ++ ".stdout").toList.length = 39 := by
    rw [String.toList_append, List.length_append, runId.length]
    rfl
  unfold stem
  simp only [hending]
  rw [hlist, List.length_append, hlength, if_neg (by decide)]
  rw [show 39 + ['.', 't', 'x', 't'].length - 3 - 1 = (runId.text ++ ".stdout").toList.length
    from hlength.symm, List.take_left, String.ofList_toList]

theorem strip_stdout (runId : RunId) :
    strip (runId.text ++ ".stdout") = runId.text ++ ".stdout" := by
  obtain ⟨c, rest, htext, hspace, -⟩ := runId.cons
  have hlist : (runId.text ++ ".stdout").toList = c :: (rest ++ ".stdou".toList) ++ ['t'] := by
    rw [String.toList_append, htext, List.cons_append, List.cons_append, List.append_assoc]
    rfl
  have hleft : (runId.text ++ ".stdout").toList.dropWhile isSpace =
      (runId.text ++ ".stdout").toList := by
    rw [hlist, List.cons_append, List.dropWhile_cons, hspace]
    rfl
  have hright : (runId.text ++ ".stdout").toList.reverse.dropWhile isSpace =
      (runId.text ++ ".stdout").toList.reverse := by
    rw [hlist, List.reverse_append]
    rfl
  unfold strip
  rw [hleft, hright, List.reverse_reverse, String.ofList_toList]

/-- **The id that a written artifact gets is accepted**, and leads to its file. -/
theorem resolve_writeArtifact (files : ArtifactFiles) (runId : RunId) (output : String) :
    resolveToolArtifactPath (writeArtifact files runId output).1
        (writeArtifact files runId output).2.id = .ok (runId.text ++ ".stdout.txt") := by
  have hid : (writeArtifact files runId output).2.id = runId.text ++ ".stdout" :=
    stem_stdout runId
  have hname : runId.text ++ ".stdout" ++ ".txt" = runId.text ++ ".stdout.txt" := by
    rw [String.append_assoc]
    rfl
  obtain ⟨c, rest, htext, -, hdot⟩ := runId.cons
  have hlist : (runId.text ++ ".stdout").toList = c :: (rest ++ ".stdout".toList) := by
    rw [String.toList_append, htext, List.cons_append]
  have hfirst : ∀ other : String, other.toList.head? ≠ some c →
      runId.text ++ ".stdout" ≠ other := by
    rintro other hother rfl
    exact hother (by rw [hlist]; rfl)
  unfold resolveToolArtifactPath
  simp only [hid, strip_stdout, hname]
  rw [if_neg, if_pos]
  · simp [writeArtifact]
  · rintro (h | h | h | h | h)
    · exact hfirst "" (by simp) h
    · rw [String.toList_append, List.mem_append] at h
      exact h.elim runId.no_separator.1 (by decide)
    · rw [String.toList_append, List.mem_append] at h
      exact h.elim runId.no_separator.2 (by decide)
    · exact hfirst "." (by simpa using hdot.symm) h
    · exact hfirst ".." (by simpa using hdot.symm) h

/-! ### The bound -/

/-- **What the parser makes of the lines** is there unless it raises. -/
theorem parseRecords_ok_iff {loads : String → Except JsonFailure Value} (lines : List String) :
    (∃ records, parseRecords loads lines = .ok records) ↔
      ∀ line ∈ lines, strip line ≠ "" → ∀ message,
        loads (strip line) ≠ .error (.other message) := by
  have hmap : ∀ (r : Except JsonFailure (List Value)) (value : Value),
      (∃ records, r.map (value :: ·) = .ok records) ↔ ∃ records, r = .ok records := by
    intro r value
    cases r with
    | error failure => simp [Except.map]
    | ok records => simp [Except.map]
  induction lines with
  | nil => simp [parseRecords]
  | cons line rest ih =>
      rw [parseRecords, List.forall_mem_cons]
      by_cases hblank : strip line = ""
      · rw [if_pos hblank]
        exact ih.trans ⟨fun h => ⟨fun hne => absurd hblank hne, h⟩, fun h => h.2⟩
      · rw [if_neg hblank]
        cases hload : loads (strip line) with
        | ok value =>
            simp only [hmap, ih]
            simp [hblank]
        | error failure =>
            cases failure with
            | valueError =>
                simp only [hmap, ih]
                simp [hblank]
            | other message => simp [hblank]

/-- **How long the structured output is.** -/
theorem structuredStdout_le_iff (output : String) :
    (encode (structuredStdout output).toList).length ≤ maxStructuredStdout ↔ CutFits output := by
  unfold structuredStdout CutFits
  by_cases hlong : maxStructuredStdout < (encode output.toList).length
  · have hcut := length_decode_take (Nat.le_of_lt hlong)
    rw [if_pos hlong, String.toList_ofList]
    by_cases hzero : cutLeft maxStructuredStdout output.toList = 0
    · rw [if_pos hzero] at hcut
      omega
    · rw [if_neg hzero] at hcut
      rcases beforeCut_split maxStructuredStdout output.toList with ⟨-, hall⟩ | ⟨c, rest, -, hlt⟩
      · exact absurd hall hzero
      · have hfour := c.utf8Size_le_four
        omega
  · rw [if_neg hlong]
    exact iff_of_true (Nat.le_of_not_lt hlong) (.inl (cutLeft_of_length_le (Nat.le_of_not_lt hlong)))

/-- **What it holds of the output**: a beginning, with at most one character
that is cut. -/
theorem structuredStdout_start (output : String) :
    (structuredStdout output).toList <+: output.toList ∨ ∃ start c rest,
      output.toList = start ++ c :: rest ∧
        (structuredStdout output).toList = start ++ [replacement] := by
  unfold structuredStdout
  split
  case isFalse => exact .inl List.prefix_rfl
  rw [String.toList_ofList, decode_take_encode]
  rcases beforeCut_split maxStructuredStdout output.toList with ⟨hall, hzero⟩ | ⟨c, rest, hsplit, -⟩
  · rw [if_pos hzero, List.append_nil, hall]
    exact .inl List.prefix_rfl
  · by_cases hzero : cutLeft maxStructuredStdout output.toList = 0
    · rw [if_pos hzero, List.append_nil]
      exact .inl ⟨c :: rest, hsplit.symm⟩
    · rw [if_neg hzero]
      exact .inr ⟨_, c, rest, hsplit, rfl⟩

/-! ### Results of commands -/

section Commands

variable (loads : String → Except JsonFailure Value) (files : ArtifactFiles) (runId : RunId)
  (tool : ToolManifest) (command : SandboxContainerCommandResult) (startedAt finishedAt : Nat)

/-- **When a result is returned.** -/
theorem resultFromCommand_ok_iff (h : command.exitCode ≠ 127) :
    (∃ result, (resultFromCommand loads files runId tool command startedAt finishedAt).2 =
      .ok result) ↔ LinesParse loads command.output := by
  unfold LinesParse
  rw [← parseRecords_ok_iff]
  unfold resultFromCommand parseOutputRecords
  rw [if_neg h]
  simp only
  cases parseRecords loads (splitLines command.output) with
  | error failure => simp [Except.map]
  | ok records => simp [Except.map]

variable {loads files runId tool command startedAt finishedAt}

/-- What a returned result says of the output. -/
theorem resultFromCommand_spec (h : command.exitCode ≠ 127) {result : ExecutionResult}
    (hresult : (resultFromCommand loads files runId tool command startedAt finishedAt).2 =
      .ok result) :
    Dict.get result.structured "stdout" = .str (structuredStdout command.output) ∧
      (result.truncated = true ↔ maxStructuredStdout < (encode command.output.toList).length) ∧
      (result.truncated = true →
        result.artifactRefs = [(writeArtifact files runId command.output).2] ∧
        (resultFromCommand loads files runId tool command startedAt finishedAt).1 =
          (writeArtifact files runId command.output).1) := by
  unfold resultFromCommand at hresult ⊢
  rw [if_neg h] at hresult ⊢
  simp only at hresult ⊢
  cases hparse : parseOutputRecords loads command.output with
  | error failure =>
      rw [hparse] at hresult
      cases hresult
  | ok records =>
      rw [hparse] at hresult
      obtain rfl := Except.ok.inj hresult
      refine ⟨rfl, decide_eq_true_iff, fun htruncated => ?_⟩
      exact ⟨if_pos htruncated, if_pos htruncated⟩

end Commands

/-- A run. -/
def someRun : RunId where
  text := String.ofList (List.replicate 32 'a')
  hex := by
    intro c hc
    rw [String.toList_ofList] at hc
    rw [List.eq_of_mem_replicate hc]
    decide
  length := by rw [String.toList_ofList, List.length_replicate]

/-- As many letters as the limit allows but one, and then two characters of two
bytes. -/
def cutOutput : String :=
  String.ofList (List.replicate (maxStructuredStdout - 1) 'x' ++ ['é', 'é'])

theorem cutLeft_replicate (n m : Nat) (rest : List Char) :
    cutLeft (n + m) (List.replicate n 'x' ++ rest) = cutLeft m rest := by
  induction n with
  | zero => rw [Nat.zero_add]; rfl
  | succ n ih =>
      rw [List.replicate_succ, List.cons_append, cutLeft,
        if_pos (show 'x'.utf8Size ≤ n + 1 + m by rw [show 'x'.utf8Size = 1 from rfl]; omega),
        show n + 1 + m - 'x'.utf8Size = n + m by rw [show 'x'.utf8Size = 1 from rfl]; omega, ih]

end Workbench.Toolpack
