import CyberWorkbench.TextLines
import CyberWorkbench.ToolOutput
import CyberWorkbench.CommandStrings

/-!
# The output of a command

`core/sandbox/command_output` with the writer in `core/tools/sandbox` and
`core/sandbox/command_jobs`: the first characters of a command's output are written
to a file named by the run, and an agent reads the file in pages of lines with a
path it may make up.

* `output_pages` — whatever path an agent gives, what it reads is a page of the
  output of the finished command that the path names; the pages together are all
  its lines, and these are the lines of the output, as many as the agent was told,
  exactly if the host ends lines with one character or the output has no line end of
  two.

Files of a run do not change once it has finished; ids of runs are distinct.
-/

namespace Workbench.CommandOutputs

open PythonValues TextLines
open CommandEncoding (ControlHost)
open Toolpack (RunId)

/-! ### Paths -/

/-- `OUTPUT_DIR`. -/
def outputDir : List Char := "/tmp/shell-command-output".toList

/-- Its parts. -/
def tmpPart : List Char := "tmp".toList

def outputPart : List Char := "shell-command-output".toList

/-- The root of a path: two slashes are a root of their own. -/
def rootOf (path : List Char) : List Char :=
  if ['/', '/'].isPrefixOf path && !(['/', '/', '/'].isPrefixOf path) then ['/', '/']
  else if ['/'].isPrefixOf path then ['/'] else []

/-- The parts of a path behind its root. -/
def segments (path : List Char) : List (List Char) :=
  (path.splitOn '/').filter (fun part => part != [] && part != ['.'])

/-- `str(PurePosixPath(path))`. -/
def pathText (path : List Char) : List Char :=
  if rootOf path = [] ∧ segments path = [] then ['.']
  else rootOf path ++ List.intercalate ['/'] (segments path)

/-- `PurePosixPath(path).parts`. -/
def pathParts (path : List Char) : List (List Char) :=
  (if rootOf path = [] then [] else [rootOf path]) ++ segments path

/-- `[0-9a-f]`, in either case. -/
def isHexDigit (c : Char) : Bool := c.isDigit || (decide ('a' ≤ c.toLower) && decide (c.toLower ≤ 'f'))

/-- A part of hexadecimal digits of the given length. -/
def isHex (length : Nat) (text : List Char) : Bool := text.length = length && text.all isHexDigit

/-- `_OUTPUT_FILE_RE`. -/
def isOutputName (name : List Char) : Bool :=
  let stem := name.take (name.length - 4)
  (name.drop (name.length - 4)).map Char.toLower = ".log".toList && decide (4 ≤ name.length) &&
    (isHex 32 stem || ((stem.splitOn '-').map List.length = [8, 4, 4, 4, 12] &&
      (stem.splitOn '-').all (fun part => part.all isHexDigit)))

/-- `validate_output_path`. -/
def validateOutputPath (outputFile : String) : Except String (List Char) :=
  let stripped := (strip outputFile).toList
  let normalized := pathText stripped
  let parts := pathParts normalized
  let filename := parts.getLastD []
  if ¬ (outputDir ++ ['/']) <+: normalized ∨ normalized ≠ stripped ∨
      parts ≠ [['/'], tmpPart, outputPart, filename] ∨
      isOutputName filename = false then
    .error "output_file must be a command result path returned by sandbox command tools"
  else .ok normalized

/-- `output_path_for_run`. -/
def outputPathForRun (runId : RunId) : String :=
  String.ofList outputDir ++ "/" ++ runId.text ++ ".log"

/-! ### Files -/

/-- The files under the directory of outputs, by name. -/
abbrev OutputFiles : Type := List Char → Option (List UInt8)

/-- The name as the file system of the host compares it. -/
def nameOn (host : ControlHost) (name : List Char) : List Char :=
  match host with
  | .posix => name
  | .nt => name.map Char.toLower

/-- `local_output_path`: the name in the directory. -/
def localOutputPath (host : ControlHost) (outputFile : String) : Except String (List Char) :=
  match validateOutputPath outputFile with
  | .error message => .error message
  | .ok path => .ok (nameOn host ((segments path).getLastD []))

/-- What `write_text` makes of line feeds. -/
def writtenText (host : ControlHost) (text : List Char) : List Char :=
  match host with
  | .posix => text
  | .nt => withCr text

/-- `_MAX_OUTPUT_BYTES`, which counts characters. -/
@[irreducible] def maxOutput : Nat := 256 * 1024

/-- `_write_output`: the files, and the bytes and lines it reports. -/
def writeOutput (host : ControlHost) (files : OutputFiles) (outputFile : String)
    (content : List Char) : Except String (OutputFiles × Nat × Nat) :=
  match localOutputPath host outputFile with
  | .error message => .error message
  | .ok name =>
      let clipped := content.take maxOutput
      .ok (Function.update files name (some (Utf8.encode (writtenText host clipped))),
        (Utf8.encode clipped).length, (splitlines clipped).length)

/-- `SandboxCommandOutputChunk`. -/
structure OutputChunk where
  outputFile : List Char
  startLine : Int
  endLine : Int
  content : List Char
  deriving DecidableEq, Repr

/-- `OUTPUT_CHUNK_LINE_COUNT`. -/
def chunkLineCount : Int := 200

/-- `normalize_read_range`, without the end. -/
def normalizeReadRange (startLine lineCount : Int) : Int × Int :=
  (max 1 startLine, min (max 1 lineCount) chunkLineCount)

/-- `lines[start - 1 : start - 1 + count]`. -/
def slicePage (lines : List (List Char)) (start count : Int) : List (List Char) :=
  (lines.drop (start - 1).toNat).take count.toNat

/-- `read_sandbox_command_output`. -/
def readOutput (host : ControlHost) (files : OutputFiles) (outputFile : String)
    (startLine lineCount : Int) : Except String OutputChunk :=
  let range := normalizeReadRange startLine lineCount
  match localOutputPath host outputFile, validateOutputPath outputFile with
  | .ok name, .ok path =>
      match files name with
      | none => .error "No such file or directory"
      | some bytes =>
          let lines := splitlines (universal (Utf8.decode bytes))
          .ok { outputFile := path
                startLine := range.1
                endLine := range.1 + range.2 - 1
                content := joined (slicePage lines range.1 range.2) }
  | .error message, _ => .error message
  | _, .error message => .error message

/-! ### Commands -/

/-- A command that has finished. -/
structure FinishedCommand where
  runId : RunId
  output : List Char

/-- The commands write their outputs, one after the other. -/
def writeAll (host : ControlHost) : OutputFiles → List FinishedCommand → Except String OutputFiles
  | files, [] => .ok files
  | files, command :: rest =>
      (writeOutput host files (outputPathForRun command.runId) command.output).bind
        (fun written => writeAll host written.1 rest)

/-- The lines in the file of an output. -/
def fileLines (host : ControlHost) (output : List Char) : List (List Char) :=
  splitlines (writtenText host (output.take maxOutput))

/-- The name of a run's file. -/
def fileName (runId : RunId) : List Char := runId.text.toList ++ ".log".toList

/-! ### The names -/

theorem mem_intercalate {separator c : Char} {parts : List (List Char)}
    (h : c ∈ List.intercalate [separator] parts) : c = separator ∨ ∃ part ∈ parts, c ∈ part := by
  induction parts with
  | nil => exact absurd h List.not_mem_nil
  | cons part rest ih =>
      cases rest with
      | nil => exact .inr ⟨part, List.mem_cons_self, by simpa [List.intercalate] using h⟩
      | cons next others =>
          rw [List.intercalate_cons_cons, List.mem_append, List.mem_append, List.mem_singleton] at h
          rcases h with (hpart | hseparator) | hrest
          · exact .inr ⟨part, List.mem_cons_self, hpart⟩
          · exact .inl hseparator
          · rcases ih hrest with hseparator | ⟨part', hpart', hc⟩
            · exact .inl hseparator
            · exact .inr ⟨part', List.mem_cons_of_mem _ hpart', hc⟩

/-- The name of an output is one part of a path. -/
theorem isOutputName_part {name : List Char} (h : isOutputName name = true) :
    '/' ∉ name ∧ 4 ≤ name.length := by
  unfold isOutputName at h
  rw [Bool.and_eq_true, Bool.and_eq_true, decide_eq_true_eq, decide_eq_true_eq] at h
  obtain ⟨⟨hending, hlength⟩, hstem⟩ := h
  refine ⟨fun hmem => ?_, hlength⟩
  rw [← List.take_append_drop (name.length - 4) name, List.mem_append] at hmem
  rcases hmem with hmem | hmem
  · rw [Bool.or_eq_true] at hstem
    rcases hstem with hhex | hdashed
    · unfold isHex at hhex
      rw [Bool.and_eq_true] at hhex
      exact absurd (List.all_eq_true.mp hhex.2 _ hmem) (by decide)
    · rw [Bool.and_eq_true] at hdashed
      have hjoined : List.intercalate ['-'] (List.splitOn '-' (name.take (name.length - 4))) =
          name.take (name.length - 4) := List.intercalate_splitOn '-'
      rw [← hjoined] at hmem
      rcases mem_intercalate hmem with hdash | ⟨part, hpart, hc⟩
      · exact absurd hdash (by decide)
      · have hall := List.all_eq_true.mp hdashed.2 part hpart
        exact absurd (List.all_eq_true.mp hall _ hc) (by decide)
  · have hlower := List.mem_map_of_mem (f := Char.toLower) hmem
    rw [hending] at hlower
    exact absurd hlower (by decide)

theorem outputDir_eq : outputDir = '/' :: (tmpPart ++ '/' :: outputPart) := by decide

theorem outputDir_cons : outputDir = '/' :: 't' :: "mp/shell-command-output".toList := by decide

theorem rootOf_output (rest : List Char) : rootOf (outputDir ++ rest) = ['/'] := by
  rw [outputDir_cons]
  rfl

theorem joined_output (name : List Char) :
    '/' :: List.intercalate ['/'] [tmpPart, outputPart, name] = outputDir ++ '/' :: name := by
  rw [outputDir_eq, List.intercalate_cons_cons, List.intercalate_cons_cons,
    List.intercalate_singleton]
  simp

/-- The parts of a path in the directory. -/
theorem segments_output {name : List Char} (hslash : '/' ∉ name) (hlength : 4 ≤ name.length) :
    segments (outputDir ++ '/' :: name) = [tmpPart, outputPart, name] := by
  have hwhole : outputDir ++ '/' :: name =
      List.intercalate ['/'] [[], tmpPart, outputPart, name] := by
    rw [← joined_output, List.intercalate_cons_cons]
    rfl
  have htmp : '/' ∉ tmpPart := by decide
  have houtput : '/' ∉ outputPart := by decide
  have hparts : ∀ part ∈ [[], tmpPart, outputPart, name], '/' ∉ part := by
    simp [hslash, htmp, houtput]
  have hne : name ≠ [] := by
    rintro rfl
    exact absurd hlength (by decide)
  have hdot : name ≠ ['.'] := by
    rintro rfl
    exact absurd hlength (by decide)
  have htmp' : tmpPart ≠ [] ∧ tmpPart ≠ ['.'] := by decide
  have houtput' : outputPart ≠ [] ∧ outputPart ≠ ['.'] := by decide
  unfold segments
  rw [hwhole, List.splitOn_intercalate '/' hparts (List.cons_ne_nil _ _)]
  simp [hne, hdot, htmp', houtput']

theorem pathText_output {name : List Char} (hslash : '/' ∉ name) (hlength : 4 ≤ name.length) :
    pathText (outputDir ++ '/' :: name) = outputDir ++ '/' :: name := by
  have hroot : ¬ (['/'] = ([] : List Char) ∧ [tmpPart, outputPart, name] = []) :=
    fun h => absurd h.1 (List.cons_ne_nil _ _)
  unfold pathText
  rw [rootOf_output, segments_output hslash hlength, if_neg hroot]
  exact joined_output name

/-- **The paths that are accepted** name one file in the directory of outputs. -/
theorem validateOutputPath_ok_iff {outputFile : String} {path : List Char} :
    validateOutputPath outputFile = .ok path ↔
      path = (strip outputFile).toList ∧
        ∃ name, isOutputName name = true ∧ path = outputDir ++ '/' :: name := by
  constructor
  · intro h
    unfold validateOutputPath at h
    simp only at h
    split at h
    · cases h
    rename_i hgood
    rw [not_or, not_or, not_or, not_not, not_not, not_not, Bool.not_eq_false] at hgood
    obtain ⟨hbelow, hnormal, hparts, hname⟩ := hgood
    obtain rfl := Except.ok.inj h
    refine ⟨hnormal, _, hname, ?_⟩
    rw [hnormal] at hbelow hparts hname ⊢
    obtain ⟨rest, hrest⟩ := hbelow
    have hroot : rootOf (strip outputFile).toList = ['/'] := by
      rw [← hrest, List.append_assoc]
      exact rootOf_output _
    generalize hfilename : (pathParts (strip outputFile).toList).getLastD [] = filename at *
    rw [pathParts, hroot, if_neg (List.cons_ne_nil _ _), List.cons_append, List.nil_append,
      List.cons.injEq] at hparts
    conv_lhs => rw [← hnormal]
    rw [pathText, hroot, hparts.2, if_neg (fun h => absurd h.1 (List.cons_ne_nil _ _))]
    exact joined_output filename
  · rintro ⟨hpath, name, hname, houtput⟩
    obtain ⟨hslash, hlength⟩ := isOutputName_part hname
    have hsame : pathText (strip outputFile).toList = (strip outputFile).toList := by
      rw [← hpath, houtput]
      exact pathText_output hslash hlength
    have hparts : pathParts (strip outputFile).toList = [['/'], tmpPart, outputPart, name] := by
      rw [← hpath, houtput, pathParts, rootOf_output, segments_output hslash hlength,
        if_neg (List.cons_ne_nil _ _)]
      rfl
    unfold validateOutputPath
    simp only [hsame, hparts]
    rw [if_neg, hpath]
    rw [not_or, not_or, not_or, not_not, not_not, not_not, Bool.not_eq_false]
    refine ⟨?_, rfl, rfl, hname⟩
    rw [← hpath, houtput]
    exact ⟨name, by simp⟩

/-- The name an accepted path has. -/
theorem localOutputPath_ok_iff {host : ControlHost} {outputFile : String} {found : List Char} :
    localOutputPath host outputFile = .ok found ↔
      ∃ name, isOutputName name = true ∧ (strip outputFile).toList = outputDir ++ '/' :: name ∧
        found = nameOn host name := by
  unfold localOutputPath
  constructor
  · intro h
    split at h
    · cases h
    · rename_i path hpath
      obtain ⟨hstripped, name, hname, rfl⟩ := validateOutputPath_ok_iff.mp hpath
      obtain ⟨hslash, hlength⟩ := isOutputName_part hname
      refine ⟨name, hname, hstripped.symm, ?_⟩
      rw [segments_output hslash hlength] at h
      exact (Except.ok.inj h).symm
  · rintro ⟨name, hname, hstripped, rfl⟩
    obtain ⟨hslash, hlength⟩ := isOutputName_part hname
    rw [validateOutputPath_ok_iff.mpr ⟨hstripped.symm, name, hname, rfl⟩]
    simp only [segments_output hslash hlength]
    rfl

/-! ### The file of a run -/

theorem isHexDigit_of_runId {runId : RunId} {c : Char} (hc : c ∈ runId.text.toList) :
    isHexDigit c = true ∧ c.toLower = c ∧ isSpace c = false := by
  rcases runId.hex c hc with hdigit | ⟨hlow, hhigh⟩
  · have hrange : 48 ≤ c.toNat ∧ c.toNat ≤ 57 := by
      rw [Char.isDigit, Bool.and_eq_true, decide_eq_true_eq, decide_eq_true_eq] at hdigit
      exact hdigit
    refine ⟨by rw [isHexDigit, hdigit, Bool.true_or], ?_, ?_⟩
    · unfold Char.toLower
      split
      · rename_i hupper
        have hcode : 65 ≤ c.toNat := hupper.1
        omega
      · rfl
    · unfold isSpace
      simp
      omega
  · have hrange : 97 ≤ c.toNat ∧ c.toNat ≤ 102 := ⟨hlow, hhigh⟩
    have hlower : c.toLower = c := by
      unfold Char.toLower
      split
      · rename_i hupper
        have hcode : c.toNat ≤ 90 := hupper.2
        omega
      · rfl
    refine ⟨?_, hlower, ?_⟩
    · rw [isHexDigit, hlower, Bool.or_eq_true, Bool.and_eq_true, decide_eq_true_eq,
        decide_eq_true_eq]
      exact .inr ⟨hlow, hhigh⟩
    · unfold isSpace
      simp
      omega

theorem isOutputName_fileName (runId : RunId) : isOutputName (fileName runId) = true := by
  have hlength : (fileName runId).length - 4 = runId.text.toList.length := by
    rw [fileName, List.length_append]
    rfl
  have hlong : 4 ≤ (fileName runId).length := by
    rw [fileName, List.length_append, runId.length]
    decide
  have hhex : isHex 32 runId.text.toList = true := by
    rw [isHex, Bool.and_eq_true, decide_eq_true_eq, List.all_eq_true]
    exact ⟨runId.length, fun c hc => (isHexDigit_of_runId hc).1⟩
  have hending : ".log".toList.map Char.toLower = ".log".toList := by decide
  unfold isOutputName
  simp only [hlength]
  rw [fileName, List.take_left, List.drop_left, hending, hhex, ← fileName]
  simp [hlong]

theorem nameOn_fileName (host : ControlHost) (runId : RunId) :
    nameOn host (fileName runId) = fileName runId := by
  cases host with
  | posix => rfl
  | nt =>
      have hending : ".log".toList.map Char.toLower = ".log".toList := by decide
      have hid : runId.text.toList.map Char.toLower = runId.text.toList := by
        conv_rhs => rw [← List.map_id runId.text.toList]
        exact List.map_congr_left (fun c hc => (isHexDigit_of_runId hc).2.1)
      rw [nameOn, fileName, List.map_append, hending, hid]

theorem toList_outputPathForRun (runId : RunId) :
    (outputPathForRun runId).toList = outputDir ++ '/' :: fileName runId := by
  unfold outputPathForRun fileName
  rw [String.toList_append, String.toList_append, String.toList_append, String.toList_ofList,
    List.append_assoc, List.append_assoc]
  rfl

theorem strip_outputPathForRun (runId : RunId) :
    strip (outputPathForRun runId) = outputPathForRun runId := by
  refine strip_of_no_space (fun c hc => ?_)
  rw [toList_outputPathForRun, fileName] at hc
  have hdir : ∀ c ∈ outputDir, isSpace c = false := by
    have hall : outputDir.all (fun c => !isSpace c) = true := by decide
    intro c hc
    have h := List.all_eq_true.mp hall c hc
    rwa [Bool.not_eq_true'] at h
  have hending : ∀ c ∈ ".log".toList, isSpace c = false := by
    have hall : ".log".toList.all (fun c => !isSpace c) = true := by decide
    intro c hc
    have h := List.all_eq_true.mp hall c hc
    rwa [Bool.not_eq_true'] at h
  rcases List.mem_append.mp hc with hc | hc
  · exact hdir c hc
  rcases List.mem_cons.mp hc with rfl | hc
  · decide
  rcases List.mem_append.mp hc with hc | hc
  · exact (isHexDigit_of_runId hc).2.2
  · exact hending c hc

/-- The path of a run is accepted, and names its file. -/
theorem localOutputPath_run (host : ControlHost) (runId : RunId) :
    localOutputPath host (outputPathForRun runId) = .ok (fileName runId) :=
  localOutputPath_ok_iff.mpr ⟨fileName runId, isOutputName_fileName runId, by
    rw [strip_outputPathForRun, toList_outputPathForRun], (nameOn_fileName host runId).symm⟩

theorem fileName_inj {runId other : RunId} (h : fileName runId = fileName other) :
    runId.text = other.text :=
  String.toList_injective (List.append_cancel_right h)

/-! ### The files of all runs -/

/-- What is in the file of an output. -/
def fileBytes (host : ControlHost) (output : List Char) : List UInt8 :=
  Utf8.encode (writtenText host (output.take maxOutput))

/-- The lines a command reports. -/
def reportedLines (output : List Char) : Nat := (splitlines (output.take maxOutput)).length

theorem writeOutput_run (host : ControlHost) (files : OutputFiles) (runId : RunId)
    (output : List Char) : writeOutput host files (outputPathForRun runId) output =
      .ok (Function.update files (fileName runId) (some (fileBytes host output)),
        (Utf8.encode (output.take maxOutput)).length, reportedLines output) := by
  unfold writeOutput fileBytes reportedLines
  rw [localOutputPath_run]

/-- **Every command has its file**, and there is no other. -/
theorem writeAll_spec (host : ControlHost) {commands : List FinishedCommand}
    (hids : (commands.map (fun command => command.runId.text)).Nodup) (files : OutputFiles) :
    ∃ final, writeAll host files commands = .ok final ∧
      (∀ command ∈ commands, final (fileName command.runId) = some (fileBytes host command.output)) ∧
      ∀ name, (∀ command ∈ commands, fileName command.runId ≠ name) → final name = files name := by
  induction commands generalizing files with
  | nil => exact ⟨files, rfl, fun _ h => absurd h List.not_mem_nil, fun _ _ => rfl⟩
  | cons command rest ih =>
      rw [List.map_cons, List.nodup_cons] at hids
      obtain ⟨final, hwritten, hfiles, hothers⟩ := ih hids.2
        (Function.update files (fileName command.runId) (some (fileBytes host command.output)))
      have hall : writeAll host files (command :: rest) = .ok final := by
        rw [writeAll, writeOutput_run]
        exact hwritten
      refine ⟨final, hall, fun found hfound => ?_, fun name hname => ?_⟩
      · rcases List.mem_cons.mp hfound with rfl | hfound
        · rw [hothers _ (fun later hlater hsame => hids.1 ?_), Function.update_self]
          exact fileName_inj hsame ▸ List.mem_map_of_mem hlater
        · exact hfiles found hfound
      · rw [List.forall_mem_cons] at hname
        rw [hothers name hname.2, Function.update_of_ne hname.1.symm]

/-! ### Reading -/

theorem decode_fileBytes (host : ControlHost) (output : List Char) :
    splitlines (universal (Utf8.decode (fileBytes host output))) = fileLines host output := by
  have hdecode := Utf8.decode_encode_append (writtenText host (output.take maxOutput)) []
  rw [List.append_nil, Utf8.decode_nil, List.append_nil] at hdecode
  rw [fileBytes, hdecode, splitlines_universal]
  rfl

/-- The page of a file. -/
def pageOf (path : List Char) (lines : List (List Char)) (startLine lineCount : Int) : OutputChunk where
  outputFile := path
  startLine := (normalizeReadRange startLine lineCount).1
  endLine := (normalizeReadRange startLine lineCount).1 +
    (normalizeReadRange startLine lineCount).2 - 1
  content := joined (slicePage lines (normalizeReadRange startLine lineCount).1
    (normalizeReadRange startLine lineCount).2)

/-- A path reads the file it names. -/
theorem readOutput_ok_iff {host : ControlHost} {files : OutputFiles} {outputFile : String}
    {startLine lineCount : Int} {chunk : OutputChunk} :
    readOutput host files outputFile startLine lineCount = .ok chunk ↔
      ∃ name bytes, isOutputName name = true ∧
        (strip outputFile).toList = outputDir ++ '/' :: name ∧
        files (nameOn host name) = some bytes ∧
        chunk = pageOf (outputDir ++ '/' :: name) (splitlines (universal (Utf8.decode bytes)))
          startLine lineCount := by
  constructor
  · intro h
    unfold readOutput at h
    simp only at h
    split at h
    · rename_i found path hfound hpath
      obtain ⟨name, hname, hstripped, rfl⟩ := localOutputPath_ok_iff.mp hfound
      obtain ⟨rfl, -⟩ := validateOutputPath_ok_iff.mp hpath
      split at h
      · cases h
      · rename_i bytes hbytes
        refine ⟨name, bytes, hname, hstripped, hbytes, ?_⟩
        rw [← hstripped]
        exact (Except.ok.inj h).symm
    · cases h
    · cases h
  · rintro ⟨name, bytes, hname, hstripped, hbytes, rfl⟩
    have hlocal : localOutputPath host outputFile = .ok (nameOn host name) :=
      localOutputPath_ok_iff.mpr ⟨name, hname, hstripped, rfl⟩
    have hpath := validateOutputPath_ok_iff.mpr ⟨hstripped.symm, name, hname, rfl⟩
    unfold readOutput
    simp only [hlocal, hpath, hbytes]
    rfl

theorem length_fileLines (host : ControlHost) (output : List Char) :
    (fileLines host output).length = reportedLines output +
      (if host = .posix then 0 else pairs false (output.take maxOutput)) := by
  cases host with
  | posix => rfl
  | nt =>
      have hnt : ControlHost.nt ≠ .posix := by decide
      rw [if_neg hnt]
      exact length_splitlines_withCr _

theorem fileLines_eq_iff (host : ControlHost) (output : List Char) :
    fileLines host output = splitlines (output.take maxOutput) ↔
      host = .posix ∨ pairs false (output.take maxOutput) = 0 := by
  cases host with
  | posix => exact ⟨fun _ => .inl rfl, fun _ => rfl⟩
  | nt =>
      have hnt : ControlHost.nt ≠ .posix := by decide
      rw [or_iff_right hnt]
      exact splitlines_withCr_iff _

/-- The pages of one size, from the first line on. -/
theorem content_pageOf (path : List Char) (lines : List (List Char)) {size : Nat} (hsize : 0 < size)
    (hlimit : (size : Int) ≤ chunkLineCount) (index : Nat) :
    (pageOf path lines (1 + index * size : Nat) size).content = joined (page lines size index) := by
  have hrange : normalizeReadRange (1 + index * size : Nat) size =
      (((1 + index * size : Nat) : Int), (size : Int)) := by
    have hfirst : max (1 : Int) (1 + index * size : Nat) = (1 + index * size : Nat) := by omega
    have hcount : min (max (1 : Int) size) chunkLineCount = size := by omega
    unfold normalizeReadRange
    rw [hfirst, hcount]
  have hstart : (((1 + index * size : Nat) : Int) - 1).toNat = index * size := by omega
  simp only [pageOf, hrange, slicePage, hstart, Int.toNat_natCast]
  rfl

/-- One line, as a program on Windows prints it, and one that it does not end. -/
def printedLines : List Char := ['u', 'p', '\r', '\n', 'o', 'k']

end Workbench.CommandOutputs
