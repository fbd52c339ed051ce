import CyberWorkbench.PythonValues
import CyberWorkbench.LinkResolution
import CyberWorkbench.DocumentUpload

/-!
# Report files

Reports of a session are files two levels below one root directory:
`REPORT_ROOT/<session>/<file id>.md`.  A report id is the name of the
directory and the file id, joined by a colon; the download of a report parses
the id, follows the links of the path it stands for, and checks the access to
the session the file is found under.

Paths are resolved as `Path.resolve` does, missing names included; `nesting`
bounds how deep links lead through one another, and a ring of links raises.
-/

namespace Workbench.ReportFiles

open PythonValues
open FileTree (RealPath)
open LinkResolution
open DocumentUpload (suffix)

/-- A tree of files; a file is its text. -/
abbrev Tree := FileTree Unit String

/-- `REPORT_ROOT` -/
def reportRoot : List String := ["tmp", "reports"]

/-- `REPORT_EXTENSION` -/
def reportExtension : String := ".md"

/-- The exceptions of a call: `ValueError`, `FileNotFoundError`, the
`RuntimeError` of a ring of links, an `OSError`; or it draws names still. -/
inductive ReportError where
  | value (message : String)
  | fileNotFound (message : String)
  | symlinkLoop
  | system
  | drawing
  deriving DecidableEq, Repr

/-! ### Patterns -/

/-- `[0-9a-z]` -/
def isFileIdChar (c : Char) : Bool := ('0' ≤ c && c ≤ '9') || ('a' ≤ c && c ≤ 'z')

/-- `[a-f0-9]` -/
def isHexChar (c : Char) : Bool := ('a' ≤ c && c ≤ 'f') || ('0' ≤ c && c ≤ '9')

/-- `[A-Za-z0-9]` -/
def isSessionStart (c : Char) : Bool :=
  ('A' ≤ c && c ≤ 'Z') || ('a' ≤ c && c ≤ 'z') || ('0' ≤ c && c ≤ '9')

/-- `[A-Za-z0-9_.-]` -/
def isSessionChar (c : Char) : Bool := isSessionStart c || c == '_' || c == '.' || c == '-'

/-- `_REPORT_SESSION_PATTERN.fullmatch`. -/
def matchesSession (text : String) : Bool :=
  match text.toList with
  | [] => false
  | c :: rest => isSessionStart c && rest.all isSessionChar && decide (rest.length ≤ 127)

/-- `_REPORT_FILE_ID_PATTERN.fullmatch`. -/
def matchesFileId (text : String) : Bool :=
  let clock := text.toList.takeWhile isFileIdChar
  decide (1 ≤ clock.length) && decide (clock.length ≤ 16) &&
    match text.toList.dropWhile isFileIdChar with
    | '-' :: hex => hex.all isHexChar && decide (hex.length = 4)
    | _ => false

/-! ### Paths -/

/-- `path.resolve()`. -/
def resolvePath (nesting : Nat) (t : Tree) (path : List String) : Except ReportError RealPath :=
  match resolve (linkAt t) nesting [] path with
  | some k => .ok k
  | none => .error .symlinkLoop

/-- `path.relative_to(root).parts`. -/
def relativeParts (path root : List String) : Option (List String) :=
  if root <+: path then some (path.drop root.length) else none

/-- `path.name`. -/
def pathName (path : List String) : String := path.getLast?.getD ""

/-- `path.stem`. -/
def stem (name : String) : String :=
  String.ofList (name.toList.take (name.toList.length - (suffix name).toList.length))

/-- `path.suffix.lower() == REPORT_EXTENSION`; no other letters have these as
their lower case. -/
def hasReportExtension (name : String) : Bool :=
  String.ofList ((suffix name).toList.map Char.toLower) == reportExtension

/-- `path.is_file()`. -/
def isFile (t : Tree) (path : List String) : Bool :=
  (FileTree.resolve t path).any (fun k => (t.get? k).any FileTree.isFile)

/-- `path.exists()`. -/
def pathExists (t : Tree) (path : List String) : Bool := (FileTree.resolve t path).isSome

/-- `_is_report_file_path` -/
def isReportFilePath (nesting : Nat) (t : Tree) (path : List String) : Except ReportError Bool := do
  let real ← resolvePath nesting t path
  let root ← resolvePath nesting t reportRoot
  match relativeParts real root with
  | none => pure false
  | some parts =>
      pure (decide (parts.length = 2) && isFile t path && hasReportExtension (pathName path) &&
        matchesFileId (stem (pathName path)))

/-- `report_session_id` -/
def reportSessionId (nesting : Nat) (t : Tree) (path : List String) : Except ReportError String := do
  let real ← resolvePath nesting t path
  let root ← resolvePath nesting t reportRoot
  match relativeParts real root with
  | some [session, _] => pure session
  | _ => pure ""

/-- `_safe_session_report_dir` -/
def safeSessionReportDir (nesting : Nat) (t : Tree) (sessionId : String) :
    Except ReportError RealPath := do
  let normalized := strip sessionId
  if matchesSession normalized = false then
    throw (.value "invalid session id for report export")
  let sessionDir ← resolvePath nesting t (reportRoot ++ [normalized])
  let root ← resolvePath nesting t reportRoot
  if (relativeParts sessionDir root).isNone then
    throw (.value "invalid session id for report export")
  pure sessionDir

/-! ### Report ids -/

/-- `report_id_for_path` -/
def reportIdForPath (nesting : Nat) (t : Tree) (path : List String) :
    Except ReportError String := do
  let session ← reportSessionId nesting t path
  let fileId := stem (pathName path)
  if session = "" ∨ hasReportExtension (pathName path) = false ∨ matchesFileId fileId = false then
    throw (.value "invalid report file")
  pure (session ++ ":" ++ fileId)

/-- `_parse_report_id`; the id is split at its first colon. -/
def parseReportId (reportId : String) : Except ReportError (String × String) := do
  let raw := (strip reportId).toList
  if raw = [] then throw (.value "report id is required")
  match raw.dropWhile (· != ':') with
  | [] => throw (.value "report id is invalid")
  | _ :: rest =>
      let sessionId := strip (String.ofList (raw.takeWhile (· != ':')))
      let fileId := strip (String.ofList rest)
      if matchesSession sessionId = false ∨ matchesFileId fileId = false then
        throw (.value "report id is invalid")
      pure (sessionId, fileId)

/-- `resolve_report_download_path` -/
def resolveReportDownloadPath (nesting : Nat) (t : Tree) (reportId : String) :
    Except ReportError RealPath := do
  let (sessionId, fileId) ← parseReportId reportId
  let sessionDir ← safeSessionReportDir nesting t sessionId
  let resolved ← resolvePath nesting t (sessionDir ++ [fileId ++ reportExtension])
  let isReport ← isReportFilePath nesting t resolved
  if isReport = false then throw (.fileNotFound "report file not found")
  pure resolved

/-- `report_download_filename` -/
def reportDownloadFilename (nesting : Nat) (t : Tree) (path : List String) :
    Except ReportError String := do
  let session ← reportSessionId nesting t path
  pure (if session = "" then pathName path else session ++ "-" ++ pathName path)

/-! ### Export -/

/-- What one name is drawn from: `int(time() * 1000)`, of a clock that counts
in 64 bits (below 2^63), and `uuid4().hex`. -/
structure Draw where
  millis : Int
  inRange : millis < 9223372036854775808
  uuid : Fin 32 → Fin 16

/-- The digits `_base36` takes from. -/
def digits : List Char := "0123456789abcdefghijklmnopqrstuvwxyz".toList

/-- The digits of a number, the last first; there are no more than the fuel. -/
def base36Loop : Nat → Nat → List Char → List Char
  | 0, _, result => result
  | fuel + 1, current, result =>
      if current = 0 then result
      else base36Loop fuel (current / 36) (digits.getD (current % 36) '0' :: result)

/-- `_base36` -/
def base36 (value : Int) : String :=
  if value ≤ 0 then "0" else String.ofList (base36Loop value.toNat value.toNat [])

/-- `uuid4().hex[:4]`. -/
def hexHead (uuid : Fin 32 → Fin 16) : String :=
  String.ofList (((List.ofFn uuid).take 4).map (fun digit : Fin 16 => digits.getD digit.val '0'))

/-- `_new_report_file_id` -/
def newReportFileId (draw : Draw) : String := base36 draw.millis ++ "-" ++ hexHead draw.uuid

/-- The name of the file that is drawn. -/
def reportName (draw : Draw) : String := newReportFileId draw ++ reportExtension

/-- `_new_report_path`: the first of the drawn paths that does not exist. -/
def newReportPath (t : Tree) (sessionDir : RealPath) : List Draw → Option RealPath
  | [] => none
  | draw :: draws =>
      let path := sessionDir ++ [reportName draw]
      if pathExists t path then newReportPath t sessionDir draws else some path

/-- `path.mkdir(parents=True, exist_ok=True)` on a path without links. -/
def makeDirs : Tree → RealPath → List String → Option Tree
  | t, here, [] => if (t.get? here).any FileTree.isDir then some t else none
  | t, here, name :: rest =>
      match t.get? (here ++ [name]) with
      | none => makeDirs (t.update (here ++ [name]) (some (.dir () []))) (here ++ [name]) rest
      | some _ => makeDirs t (here ++ [name]) rest

/-- `ReportToolResultOutputSchema` -/
structure ReportToolResult where
  reportId : String
  filename : String
  size : Nat
  chars : Nat
  deriving DecidableEq, Repr

/-- A call of `export_session_report`: the tree it leaves, the path it wrote,
and what it answers. -/
structure Export where
  tree : Tree
  written : Option RealPath
  answer : Except ReportError ReportToolResult

/-- What an export answers about the file it wrote. -/
def describeReport (nesting : Nat) (t : Tree) (path : RealPath) (content : String) :
    Except ReportError ReportToolResult := do
  let reportId ← reportIdForPath nesting t path
  let filename ← reportDownloadFilename nesting t path
  pure ⟨reportId, filename, (Utf8.encode content.toList).length, content.toList.length⟩

/-- `export_session_report` -/
def exportSessionReport (nesting : Nat) (t : Tree) (sessionId content : String)
    (draws : List Draw) : Export :=
  if strip content = "" then ⟨t, none, .error (.value "report content is required")⟩
  else
    match safeSessionReportDir nesting t sessionId with
    | .error error => ⟨t, none, .error error⟩
    | .ok sessionDir =>
        match makeDirs t [] sessionDir with
        | none => ⟨t, none, .error .system⟩
        | some made =>
            match newReportPath made sessionDir draws with
            | none => ⟨made, none, .error .drawing⟩
            | some path =>
                let tree := made.update path (some (.file () content))
                ⟨tree, some path, describeReport nesting tree path content⟩

/-! ### Download -/

/-- The response of the download. -/
inductive DownloadAnswer where
  | badRequest (message : String)
  | notFound (message : String)
  | file (path : RealPath) (filename : String)
  | failed (error : ReportError)
  deriving DecidableEq, Repr

/-- `download_agent_report_handler`, for a user who can access these sessions. -/
def downloadAgentReport (nesting : Nat) (t : Tree) (canAccess : String → Bool)
    (reportId : String) : DownloadAnswer :=
  match resolveReportDownloadPath nesting t reportId with
  | .error (.value message) => .badRequest message
  | .error (.fileNotFound message) => .notFound message
  | .error error => .failed error
  | .ok path =>
      match reportSessionId nesting t path with
      | .error error => .failed error
      | .ok session =>
          if session = "" ∨ canAccess session = false then .notFound "report file not found"
          else
            match reportDownloadFilename nesting t path with
            | .error error => .failed error
            | .ok filename => .file path filename

/-! ### What each function answers -/

/-- A call that goes on after another returned. -/
theorem bind_eq_ok {α β : Type} {x : Except ReportError α} {f : α → Except ReportError β} {b : β} :
    (x >>= f) = .ok b ↔ ∃ a, x = .ok a ∧ f a = .ok b := by
  cases x with
  | error error => simp [bind, Except.bind]
  | ok a => simp [bind, Except.bind]

/-- A check that raises. -/
theorem check_eq_ok {α β : Type} {c : Prop} [Decidable c] {error : ReportError}
    {f : β → Except ReportError α} {x : Except ReportError α} {b : α} :
    (if c then throw error >>= f else x) = .ok b ↔ ¬ c ∧ x = .ok b := by
  by_cases h : c
  · simp [h, bind, Except.bind, throw, throwThe, MonadExceptOf.throw]
  · simp [h]

variable {nesting : Nat} {t : Tree}

theorem resolvePath_eq_ok {path : List String} {k : RealPath} :
    resolvePath nesting t path = .ok k ↔ resolve (linkAt t) nesting [] path = some k := by
  unfold resolvePath
  split
  · rename_i heq
    simp [heq]
  · rename_i heq
    simp [heq]

theorem relativeParts_eq_some {path root parts : List String} :
    relativeParts path root = some parts ↔ path = root ++ parts := by
  unfold relativeParts
  split
  · rename_i hroot
    obtain ⟨rest, rfl⟩ := hroot
    simp
  · rename_i hroot
    constructor
    · intro h
      cases h
    · intro h
      exact absurd ⟨parts, h.symm⟩ hroot

/-- A file two levels below the root, with the name of a report. -/
theorem isReportFilePath_eq_ok {path : List String} :
    isReportFilePath nesting t path = .ok true ↔
      ∃ root session file, resolve (linkAt t) nesting [] reportRoot = some root ∧
        resolve (linkAt t) nesting [] path = some (root ++ [session, file]) ∧
        isFile t path = true ∧ hasReportExtension (pathName path) = true ∧
        matchesFileId (stem (pathName path)) = true := by
  unfold isReportFilePath
  simp only [bind_eq_ok, resolvePath_eq_ok]
  constructor
  · rintro ⟨real, hreal, root, hroot, h⟩
    split at h
    · cases h
    · rename_i parts hparts
      rw [relativeParts_eq_some] at hparts
      have hall := Except.ok.inj h
      simp only [Bool.and_eq_true, decide_eq_true_eq] at hall
      obtain ⟨⟨⟨hlength, hfile⟩, hextension⟩, hid⟩ := hall
      obtain ⟨session, file, rfl⟩ := List.length_eq_two.mp hlength
      exact ⟨root, session, file, hroot, hparts ▸ hreal, hfile, hextension, hid⟩
  · rintro ⟨root, session, file, hroot, hreal, hfile, hextension, hid⟩
    refine ⟨_, hreal, root, hroot, ?_⟩
    rw [relativeParts_eq_some.mpr rfl]
    simp [hfile, hextension, hid, pure, Except.pure]

/-- The session of a path two levels below the root. -/
theorem reportSessionId_eq_ok {path : List String} {root : RealPath} {session file : String}
    (hroot : resolve (linkAt t) nesting [] reportRoot = some root)
    (hpath : resolve (linkAt t) nesting [] path = some (root ++ [session, file])) :
    reportSessionId nesting t path = .ok session := by
  unfold reportSessionId
  rw [bind_eq_ok]
  refine ⟨_, resolvePath_eq_ok.mpr hpath, ?_⟩
  rw [bind_eq_ok]
  refine ⟨_, resolvePath_eq_ok.mpr hroot, ?_⟩
  rw [relativeParts_eq_some.mpr rfl]
  rfl

/-- A session that is named is that of a path two levels below the root. -/
theorem reportSessionId_ne {path : List String} {session : String}
    (h : reportSessionId nesting t path = .ok session) (hne : session ≠ "") :
    ∃ root file, resolve (linkAt t) nesting [] reportRoot = some root ∧
      resolve (linkAt t) nesting [] path = some (root ++ [session, file]) := by
  unfold reportSessionId at h
  simp only [bind_eq_ok, resolvePath_eq_ok] at h
  obtain ⟨real, hreal, root, hroot, h⟩ := h
  split at h
  · rename_i first file hparts
    rw [relativeParts_eq_some] at hparts
    obtain rfl := Except.ok.inj h
    exact ⟨root, file, hroot, hparts ▸ hreal⟩
  · exact absurd (Except.ok.inj h).symm hne

/-- The directory of a session: somewhere in the root. -/
theorem safeSessionReportDir_eq_ok {sessionId : String} {d : RealPath} :
    safeSessionReportDir nesting t sessionId = .ok d ↔
      matchesSession (strip sessionId) = true ∧
        resolve (linkAt t) nesting [] (reportRoot ++ [strip sessionId]) = some d ∧
        ∃ root, resolve (linkAt t) nesting [] reportRoot = some root ∧ root <+: d := by
  unfold safeSessionReportDir
  simp only [check_eq_ok, bind_eq_ok, resolvePath_eq_ok, Bool.not_eq_false]
  constructor
  · rintro ⟨hmatches, d', hd, root, hroot, hinside, heq⟩
    obtain rfl := Except.ok.inj heq
    refine ⟨hmatches, hd, root, hroot, ?_⟩
    obtain ⟨parts, hparts⟩ := Option.ne_none_iff_exists'.mp (by simpa using hinside)
    exact ⟨parts, (relativeParts_eq_some.mp hparts).symm⟩
  · rintro ⟨hmatches, hd, root, hroot, parts, hparts⟩
    refine ⟨hmatches, d, hd, root, hroot, ?_, rfl⟩
    rw [relativeParts_eq_some.mpr hparts.symm]
    simp

theorem reportIdForPath_eq_ok {path : List String} {reportId : String} :
    reportIdForPath nesting t path = .ok reportId ↔
      ∃ session, session ≠ "" ∧ reportSessionId nesting t path = .ok session ∧
        hasReportExtension (pathName path) = true ∧
        matchesFileId (stem (pathName path)) = true ∧
        session ++ ":" ++ stem (pathName path) = reportId := by
  unfold reportIdForPath
  simp only [check_eq_ok, bind_eq_ok, not_or, Bool.not_eq_false]
  constructor
  · rintro ⟨session, hsession, ⟨hne, hextension, hid⟩, heq⟩
    exact ⟨session, hne, hsession, hextension, hid, Except.ok.inj heq⟩
  · rintro ⟨session, hne, hsession, hextension, hid, rfl⟩
    exact ⟨session, hsession, ⟨hne, hextension, hid⟩, rfl⟩

theorem resolveReportDownloadPath_eq_ok {reportId : String} {path : RealPath} :
    resolveReportDownloadPath nesting t reportId = .ok path ↔
      ∃ sessionId fileId d, parseReportId reportId = .ok (sessionId, fileId) ∧
        safeSessionReportDir nesting t sessionId = .ok d ∧
        resolve (linkAt t) nesting [] (d ++ [fileId ++ reportExtension]) = some path ∧
        isReportFilePath nesting t path = .ok true := by
  unfold resolveReportDownloadPath
  simp only [bind_eq_ok, check_eq_ok, resolvePath_eq_ok, Bool.not_eq_false]
  constructor
  · rintro ⟨⟨sessionId, fileId⟩, hparse, d, hd, real, hreal, answer, hanswer, rfl, heq⟩
    obtain rfl := Except.ok.inj heq
    exact ⟨sessionId, fileId, d, hparse, hd, hreal, hanswer⟩
  · rintro ⟨sessionId, fileId, d, hparse, hd, hreal, hanswer⟩
    exact ⟨(sessionId, fileId), hparse, d, hd, path, hreal, true, hanswer, rfl, rfl⟩

/-! ### Downloads -/

/-- **A served path is a report of the session that holds it**: a regular file
with the name of a report, in a directory that is an entry of the root, and
this directory names the session. -/
theorem served_path {reportId : String} {path : RealPath}
    (h : resolveReportDownloadPath nesting t reportId = .ok path) :
    ∃ root session file, resolve (linkAt t) nesting [] reportRoot = some root ∧
      path = root ++ [session, file] ∧ resolve (linkAt t) nesting [] path = some path ∧
      (t.get? path).any FileTree.isFile = true ∧ hasReportExtension file = true ∧
      matchesFileId (stem file) = true ∧ session ≠ "" ∧
      reportSessionId nesting t path = .ok session := by
  obtain ⟨sessionId, fileId, d, -, -, hpath, hreport⟩ := resolveReportDownloadPath_eq_ok.mp h
  obtain ⟨root, session, file, hroot, hself, hfile, hextension, hid⟩ :=
    isReportFilePath_eq_ok.mp hreport
  have hplain : Plain (linkAt t) path := resolve_plain .nil hpath
  have hsame : path = root ++ [session, file] := by
    have hresolved : resolve (linkAt t) nesting [] path = some path := resolve_of_plain hplain
    exact Option.some.inj (hresolved.symm.trans hself)
  have hname : pathName path = file := by
    rw [hsame]
    simp [pathName]
  rw [hname] at hextension hid
  refine ⟨root, session, file, hroot, hsame, hsame ▸ hself, ?_, hextension, hid, ?_,
    reportSessionId_eq_ok hroot hself⟩
  · -- No link is left, so the system finds the file at the path itself.
    obtain ⟨k, hk, hfile⟩ := (Option.any_eq_true _ _).mp hfile
    have hcanonical := (FileTree.resolve_eq_some.mp hk).1
    rwa [canonical_of_plain hplain hcanonical] at hfile
  · have hproper := hplain.proper session (by rw [hsame]; simp)
    exact hproper.1

/-- The handler serves what the caller can access: the session it checks is the
one whose directory holds the file. -/
theorem downloadAgentReport_served {reportId : String} {path : RealPath} {session : String}
    (h : resolveReportDownloadPath nesting t reportId = .ok path)
    (hsession : reportSessionId nesting t path = .ok session) (hne : session ≠ "")
    (canAccess : String → Bool) :
    downloadAgentReport nesting t canAccess reportId =
      if canAccess session then .file path (session ++ "-" ++ pathName path)
      else .notFound "report file not found" := by
  have hfilename : reportDownloadFilename nesting t path =
      .ok (session ++ "-" ++ pathName path) := by
    unfold reportDownloadFilename
    rw [bind_eq_ok]
    exact ⟨session, hsession, by rw [if_neg hne]; rfl⟩
  unfold downloadAgentReport
  rw [h]
  simp only [hsession, hfilename]
  cases hcan : canAccess session with
  | true => simp [hne]
  | false => simp

/-! ### Ids are parsed as they are written -/

theorem not_space_of_fileIdChar {c : Char} (h : isFileIdChar c = true ∨ c = '-') :
    isSpace c = false ∧ c ≠ ':' := by
  have hrange : (48 ≤ c.toNat ∧ c.toNat ≤ 57) ∨ (97 ≤ c.toNat ∧ c.toNat ≤ 122) ∨ c.toNat = 45 := by
    rcases h with h | rfl
    · simp only [isFileIdChar, Bool.or_eq_true, Bool.and_eq_true, decide_eq_true_eq,
        Char.le_def, UInt32.le_iff_toNat_le] at h
      exact h.imp id .inl
    · exact .inr (.inr rfl)
  refine ⟨?_, ?_⟩
  · simp only [isSpace, Bool.or_eq_false_iff, Bool.and_eq_false_iff, decide_eq_false_iff_not,
      beq_eq_false_iff_ne]
    omega
  · rintro rfl
    have hcolon : (':').toNat = 58 := rfl
    omega

/-- Every character of a file id. -/
theorem chars_of_matchesFileId {text : String} (h : matchesFileId text = true) :
    text.toList ≠ [] ∧ ∀ c ∈ text.toList, isSpace c = false ∧ c ≠ ':' := by
  unfold matchesFileId at h
  simp only [Bool.and_eq_true, decide_eq_true_eq] at h
  obtain ⟨⟨hnonempty, -⟩, hrest⟩ := h
  split at hrest
  · rename_i hex hdrop
    simp only [Bool.and_eq_true, List.all_eq_true] at hrest
    have hsplit := List.takeWhile_append_dropWhile (p := isFileIdChar) (l := text.toList)
    rw [hdrop] at hsplit
    refine ⟨fun heq => by simp [heq] at hnonempty, ?_⟩
    intro c hc
    refine not_space_of_fileIdChar ?_
    rw [← hsplit] at hc
    rcases List.mem_append.mp hc with hclock | htail
    · exact .inl (List.mem_takeWhile_imp hclock)
    · rcases List.mem_cons.mp htail with rfl | hhex
      · exact .inr rfl
      · refine .inl ?_
        have hc := hrest.1 c hhex
        simp only [isHexChar, Bool.or_eq_true, Bool.and_eq_true, decide_eq_true_eq] at hc
        simp only [isFileIdChar, Bool.or_eq_true, Bool.and_eq_true, decide_eq_true_eq]
        rcases hc with ⟨hlow, hhigh⟩ | hdigit
        · exact .inr ⟨hlow, Char.le_trans hhigh (by decide)⟩
        · exact .inl hdigit
  · cases hrest

/-- No session is named with a colon. -/
theorem colon_not_mem_of_matchesSession {text : String} (h : matchesSession text = true) :
    ':' ∉ text.toList := by
  unfold matchesSession at h
  split at h
  · cases h
  · rename_i c rest htext
    simp only [Bool.and_eq_true, List.all_eq_true] at h
    have hnot : isSessionStart ':' = false ∧ isSessionChar ':' = false := by decide
    rw [htext]
    intro hmem
    rcases List.mem_cons.mp hmem with rfl | hmem
    · rw [hnot.1] at h
      exact absurd h.1.1 Bool.false_ne_true
    · exact absurd (hnot.2.symm.trans (h.1.2 _ hmem)) Bool.false_ne_true

/-- Trimming on the left stops at a character that stays. -/
theorem dropWhile_append_stop {p : Char → Bool} {stop : Char} (h : p stop = false)
    (front rest : List Char) :
    (front ++ stop :: rest).dropWhile p = front.dropWhile p ++ stop :: rest := by
  induction front with
  | nil => simp [h]
  | cons c front ih =>
      rw [List.cons_append, List.dropWhile_cons, List.dropWhile_cons, ih]
      split
      · rfl
      · rfl

theorem takeWhile_append_stop {p : Char → Bool} {stop : Char} (h : p stop = false)
    (front rest : List Char) : (front ++ stop :: rest).takeWhile p = front.takeWhile p := by
  induction front with
  | nil => simp [h]
  | cons c front ih =>
      rw [List.cons_append, List.takeWhile_cons, List.takeWhile_cons, ih]

/-- Trimming on the right keeps what is no blank. -/
theorem mem_rdropWhile {p : Char → Bool} {l : List Char} {c : Char} (hc : c ∈ l)
    (h : p c = false) : c ∈ l.rdropWhile p := by
  unfold List.rdropWhile
  rw [List.mem_reverse]
  have hsplit := List.takeWhile_append_dropWhile (p := p) (l := l.reverse)
  have hmem : c ∈ l.reverse.takeWhile p ++ l.reverse.dropWhile p := by
    rw [hsplit, List.mem_reverse]
    exact hc
  rcases List.mem_append.mp hmem with hfront | hback
  · rw [List.mem_takeWhile_imp hfront] at h
    cases h
  · exact hback

/-- A joined id, stripped. -/
theorem toList_strip_join (name : String) {fileId : String} (hfile : matchesFileId fileId = true) :
    (strip (name ++ ":" ++ fileId)).toList =
      name.toList.dropWhile isSpace ++ ':' :: fileId.toList := by
  obtain ⟨hne, hchars⟩ := chars_of_matchesFileId hfile
  have hjoin : (name ++ ":" ++ fileId).toList = name.toList ++ ':' :: fileId.toList := by
    simp [String.toList_append]
  have hlast : ∀ front : List Char, (front ++ ':' :: fileId.toList).rdropWhile isSpace =
      front ++ ':' :: fileId.toList := by
    intro front
    rw [List.rdropWhile_eq_self_iff]
    intro _
    rw [List.getLast_append_of_ne_nil _ (List.cons_ne_nil _ _), List.getLast_cons hne]
    simp [(hchars _ (List.getLast_mem hne)).1]
  rw [toList_strip, hjoin, dropWhile_append_stop (by decide), hlast]

/-- **The parser undoes the join** of a directory and a file id: it gives the
name of the directory stripped, if this is a session's. -/
theorem parseReportId_join {name fileId : String} (hfile : matchesFileId fileId = true)
    {p : String × String} :
    parseReportId (name ++ ":" ++ fileId) = .ok p ↔
      matchesSession (strip name) = true ∧ p = (strip name, fileId) := by
  obtain ⟨-, hchars⟩ := chars_of_matchesFileId hfile
  have hself : strip fileId = fileId := strip_of_no_space (fun c hc => (hchars c hc).1)
  have hstripped : ∀ front : List Char, front = name.toList.dropWhile isSpace →
      strip (String.ofList front) = strip name := by
    rintro front rfl
    refine String.toList_injective ?_
    rw [toList_strip, toList_strip, String.toList_ofList, List.dropWhile_idempotent]
  have hbody := toList_strip_join name hfile
  have hstop : ((':' : Char) != ':') = false := by decide
  unfold parseReportId
  simp only [hbody]
  rw [check_eq_ok]
  simp only [List.append_eq_nil_iff, List.cons_ne_nil, and_false, not_false_eq_true, true_and]
  rw [dropWhile_append_stop (p := (· != ':')) hstop, takeWhile_append_stop (p := (· != ':')) hstop]
  cases hdrop : (name.toList.dropWhile isSpace).dropWhile (· != ':') with
  | nil =>
      have htake := List.takeWhile_append_dropWhile (p := (· != ':'))
        (l := name.toList.dropWhile isSpace)
      rw [hdrop, List.append_nil] at htake
      simp only [List.nil_append]
      rw [check_eq_ok, htake, String.ofList_toList, hself, hstripped _ rfl]
      constructor
      · rintro ⟨hmatches, heq⟩
        rw [not_or, Bool.not_eq_false] at hmatches
        exact ⟨hmatches.1, (Except.ok.inj heq).symm⟩
      · rintro ⟨hmatches, rfl⟩
        refine ⟨?_, rfl⟩
        rw [not_or, Bool.not_eq_false, Bool.not_eq_false]
        exact ⟨hmatches, hfile⟩
  | cons c after =>
      -- A colon in the name is the one the id is split at.
      simp only [List.cons_append]
      rw [check_eq_ok]
      constructor
      · rintro ⟨hmatches, -⟩
        rw [not_or, Bool.not_eq_false, Bool.not_eq_false] at hmatches
        obtain ⟨-, hno⟩ := chars_of_matchesFileId hmatches.2
        refine absurd rfl (hno ':' ?_).2
        rw [toList_strip, String.toList_ofList, dropWhile_append_stop (by decide)]
        exact mem_rdropWhile (List.mem_append_right _ List.mem_cons_self) (by decide)
      · rintro ⟨hmatches, -⟩
        refine absurd ?_ (colon_not_mem_of_matchesSession hmatches)
        rw [toList_strip]
        refine mem_rdropWhile ?_ (by decide)
        have hnotall : (name.toList.dropWhile isSpace).dropWhile (· != ':') ≠ [] := by
          rw [hdrop]
          exact List.cons_ne_nil _ _
        rw [Ne, List.dropWhile_eq_nil_iff] at hnotall
        simpa using hnotall

/-! ### Drawn names -/

theorem digits_getD (n : Nat) : isFileIdChar (digits.getD n '0') = true := by
  have hall : digits.all isFileIdChar = true := by decide
  rw [List.getD_eq_getElem?_getD]
  cases hget : digits[n]? with
  | none => decide
  | some c => exact List.all_eq_true.mp hall c (List.mem_of_getElem? hget)

/-- The digits of a number below a power of the base. -/
theorem base36Loop_spec (fuel : Nat) : ∀ {m current : Nat} (result : List Char),
    current < Nat.pow 36 m → (∀ c ∈ result, isFileIdChar c = true) →
      (base36Loop fuel current result).length ≤ m + result.length ∧
        result.length ≤ (base36Loop fuel current result).length ∧
        ∀ c ∈ base36Loop fuel current result, isFileIdChar c = true := by
  induction fuel with
  | zero => exact fun _ _ h => ⟨Nat.le_add_left _ _, Nat.le_refl _, h⟩
  | succ fuel ih =>
      intro m current result hbound hchars
      unfold base36Loop
      split
      · exact ⟨Nat.le_add_left _ _, Nat.le_refl _, hchars⟩
      · rename_i hpos
        cases m with
        | zero =>
            have hone : Nat.pow 36 0 = 1 := rfl
            omega
        | succ m =>
            have hnext : current / 36 < Nat.pow 36 m := by
              have hproduct : Nat.pow 36 (m + 1) = Nat.pow 36 m * 36 := rfl
              exact Nat.div_lt_of_lt_mul (by omega)
            have hdigit : ∀ c ∈ digits.getD (current % 36) '0' :: result,
                isFileIdChar c = true := by
              intro c hc
              rcases List.mem_cons.mp hc with rfl | hmem
              · exact digits_getD _
              · exact hchars c hmem
            obtain ⟨hlength, hmore, hall⟩ := ih _ hnext hdigit
            rw [List.length_cons] at hlength hmore
            exact ⟨by omega, by omega, hall⟩

/-- The clock of a drawn name: one to sixteen digits. -/
theorem base36_spec {value : Int} (h : value < 9223372036854775808) :
    1 ≤ (base36 value).toList.length ∧ (base36 value).toList.length ≤ 16 ∧
      ∀ c ∈ (base36 value).toList, isFileIdChar c = true := by
  unfold base36
  split
  · refine ⟨by decide, by decide, ?_⟩
    intro c hc
    obtain rfl : c = '0' := by simpa using hc
    decide
  · rename_i hpos
    have hpower : Nat.pow 36 16 = 7958661109946400884391936 := by decide
    have hbound : value.toNat < Nat.pow 36 16 := by omega
    obtain ⟨hlength, -, hall⟩ := base36Loop_spec value.toNat [] hbound
      (fun c hc => absurd hc List.not_mem_nil)
    rw [String.toList_ofList]
    refine ⟨?_, by simpa using hlength, hall⟩
    -- The first round adds a digit, and digits stay.
    obtain ⟨fuel, hfuel⟩ : ∃ fuel, value.toNat = fuel + 1 := ⟨value.toNat - 1, by omega⟩
    have hnext : (fuel + 1) / 36 < Nat.pow 36 16 := by omega
    have hmore := (base36Loop_spec fuel [digits.getD ((fuel + 1) % 36) '0'] hnext
      (fun c hc => (List.mem_singleton.mp hc) ▸ digits_getD _)).2.1
    rw [hfuel]
    unfold base36Loop
    rw [if_neg (Nat.succ_ne_zero fuel)]
    exact hmore

theorem hexHead_spec (uuid : Fin 32 → Fin 16) :
    (hexHead uuid).toList.length = 4 ∧ ∀ c ∈ (hexHead uuid).toList, isHexChar c = true := by
  have hall : ∀ digit : Fin 16, isHexChar (digits.getD digit.val '0') = true := by decide
  unfold hexHead
  rw [String.toList_ofList]
  refine ⟨by simp, ?_⟩
  intro c hc
  obtain ⟨digit, -, rfl⟩ := List.mem_map.mp hc
  exact hall digit

/-- **Every drawn file id is one.** -/
theorem matchesFileId_newReportFileId (draw : Draw) :
    matchesFileId (newReportFileId draw) = true := by
  obtain ⟨hone, hsixteen, hclock⟩ := base36_spec draw.inRange
  obtain ⟨hfour, hhex⟩ := hexHead_spec draw.uuid
  have htext : (newReportFileId draw).toList =
      (base36 draw.millis).toList ++ '-' :: (hexHead draw.uuid).toList := by
    simp [newReportFileId, String.toList_append]
  have htake : (newReportFileId draw).toList.takeWhile isFileIdChar =
      (base36 draw.millis).toList := by
    rw [htext, takeWhile_append_stop (by decide), List.takeWhile_eq_self_iff]
    exact hclock
  have hdrop : (newReportFileId draw).toList.dropWhile isFileIdChar =
      '-' :: (hexHead draw.uuid).toList := by
    have hnone : (base36 draw.millis).toList.dropWhile isFileIdChar = [] :=
      List.dropWhile_eq_nil_iff.mpr hclock
    rw [htext, dropWhile_append_stop (by decide), hnone, List.nil_append]
  unfold matchesFileId
  rw [htake, hdrop]
  simp only [Bool.and_eq_true, decide_eq_true_eq, List.all_eq_true]
  exact ⟨⟨hone, hsixteen⟩, hhex, hfour⟩

/-- The suffix and the stem of a file that is named after an id. -/
theorem suffix_stem_extension {fileId : String} (h : fileId.toList ≠ []) :
    suffix (fileId ++ reportExtension) = ".md" ∧ stem (fileId ++ reportExtension) = fileId := by
  have hlist : (fileId ++ reportExtension).toList = fileId.toList ++ ['.', 'm', 'd'] := by
    rw [String.toList_append]
    rfl
  have hending : (fileId.toList ++ ['.', 'm', 'd']).reverse.takeWhile (· != '.') = ['d', 'm'] := by
    simp
  have hlength : (fileId.toList ++ ['.', 'm', 'd']).length = fileId.toList.length + 3 := by simp
  have hpos : 0 < fileId.toList.length := List.length_pos_iff.mpr h
  have hsuffix : suffix (fileId ++ reportExtension) = ".md" := by
    unfold suffix
    have htwo : ['d', 'm'].length = 2 := rfl
    simp only [hlist, hending, hlength, htwo]
    have hdrop : fileId.toList.length + 3 - 2 - 1 = fileId.toList.length := by omega
    rw [if_neg (by omega), hdrop, List.drop_left]
  refine ⟨hsuffix, ?_⟩
  unfold stem
  have hthree : (".md" : String).toList.length = 3 := rfl
  rw [hsuffix, hlist, hlength, hthree, Nat.add_sub_cancel, List.take_left, String.ofList_toList]

/-- **A drawn name is that of a report**, and gives the id back. -/
theorem reportName_spec (draw : Draw) :
    hasReportExtension (reportName draw) = true ∧
      stem (reportName draw) = newReportFileId draw ∧ FileTree.Proper (reportName draw) := by
  obtain ⟨hne, -⟩ := chars_of_matchesFileId (matchesFileId_newReportFileId draw)
  obtain ⟨hsuffix, hstem⟩ := suffix_stem_extension hne
  refine ⟨?_, hstem, ?_⟩
  · unfold hasReportExtension reportName
    rw [hsuffix]
    decide
  · have hlength : 3 < (reportName draw).toList.length := by
      unfold reportName
      rw [String.toList_append, List.length_append]
      have hthree : reportExtension.toList.length = 3 := rfl
      have hpos : 0 < (newReportFileId draw).toList.length := List.length_pos_iff.mpr hne
      omega
    refine ⟨?_, ?_, ?_⟩
    all_goals
      intro heq
      rw [heq] at hlength
      exact absurd hlength (by decide)

/-! ### What an export writes -/

/-- Directories are only made below directories. -/
theorem dirAt_of_makeDirs (rest : List String) :
    ∀ {t t' : Tree} {here : RealPath}, makeDirs t here rest = some t' → t.DirAt here := by
  induction rest with
  | nil =>
      intro t t' here h
      unfold makeDirs at h
      split at h
      · rename_i hdir
        obtain ⟨x, hx, hisDir⟩ := (Option.any_eq_true _ _).mp hdir
        cases x with
        | dir attrs entries => exact ⟨attrs, entries, hx⟩
        | file attrs content => cases hisDir
        | link attrs target => cases hisDir
      · cases h
  | cons name rest ih =>
      intro t t' here h
      unfold makeDirs at h
      split at h
      · obtain ⟨attrs, entries, hdir⟩ := (ih h).prefix_dirAt
        have hbeside : ¬ here ++ [name] <+: here := by
          intro hprefix
          have hlength := hprefix.length_le
          rw [List.length_append, List.length_singleton] at hlength
          omega
        have hframe := FileTree.label_update (t := t) (some (.dir () [])) hbeside
        rw [hdir] at hframe
        obtain ⟨x, hx, hlabel⟩ := Option.map_eq_some_iff.mp hframe.symm
        cases x with
        | dir attrs' entries' => exact ⟨attrs', entries', hx⟩
        | file attrs' content => cases hlabel
        | link attrs' target => cases hlabel
      · rename_i x hx
        exact FileTree.dirAt_of_below [] (by rw [hx]; exact Option.some_ne_none _)

/-- **The directories are made, and no link changes.** -/
theorem makeDirs_spec (rest : List String) :
    ∀ {t t' : Tree} {here : RealPath}, makeDirs t here rest = some t' →
      t'.DirAt (here ++ rest) ∧ linkAt t' = linkAt t := by
  induction rest with
  | nil =>
      intro t t' here h
      have hdir := dirAt_of_makeDirs [] h
      unfold makeDirs at h
      split at h
      · obtain rfl := Option.some.inj h
        exact ⟨by rwa [List.append_nil], rfl⟩
      · cases h
  | cons name rest ih =>
      intro t t' here h
      have hparent := dirAt_of_makeDirs (name :: rest) h
      unfold makeDirs at h
      split at h
      · rename_i hnone
        obtain ⟨hdir, hlinks⟩ := ih h
        have hlink : linkAt t (here ++ [name]) = none := by
          unfold linkAt
          rw [hnone]
        have hupdate := linkAt_update name (x := FileTree.dir () ([] : List (String × Tree))) rfl
          (fun _ _ => rfl) hparent
          (fun next tail => FileTree.get?_below_none hnone (next :: tail))
        rw [linksBeside_of_none hlink] at hupdate
        refine ⟨by simpa using hdir, hlinks.trans hupdate⟩
      · obtain ⟨hdir, hlinks⟩ := ih h
        exact ⟨by simpa using hdir, hlinks⟩

/-- The path of a report is one of those drawn, and nothing is found there. -/
theorem newReportPath_eq_some {d p : RealPath} {draws : List Draw}
    (h : newReportPath t d draws = some p) :
    ∃ draw ∈ draws, p = d ++ [reportName draw] ∧ pathExists t p = false := by
  induction draws with
  | nil => cases h
  | cons draw draws ih =>
      simp only [newReportPath] at h
      split at h
      · obtain ⟨other, hmem, hp⟩ := ih h
        exact ⟨other, List.mem_cons_of_mem _ hmem, hp⟩
      · rename_i hfree
        obtain rfl := Option.some.inj h
        exact ⟨draw, List.mem_cons_self, rfl, Bool.eq_false_iff.mpr hfree⟩

/-- The steps of an export that wrote a path. -/
theorem exportSessionReport_eq {sessionId content : String} {draws : List Draw} {p : RealPath}
    (h : (exportSessionReport nesting t sessionId content draws).written = some p) :
    ∃ d made, safeSessionReportDir nesting t sessionId = .ok d ∧ makeDirs t [] d = some made ∧
      newReportPath made d draws = some p ∧
      (exportSessionReport nesting t sessionId content draws).tree =
        made.update p (some (.file () content)) := by
  unfold exportSessionReport at h ⊢
  split at h
  · cases h
  · rename_i hcontent
    rw [if_neg hcontent]
    split at h
    · cases h
    · rename_i d hd
      rw [hd]
      simp only at h ⊢
      split at h
      · cases h
      · rename_i made hmade
        split at h
        · cases h
        · rename_i path hpath
          obtain rfl := Option.some.inj h
          exact ⟨d, made, rfl, hmade, hpath, rfl⟩

/-- **What an export leaves**: a file with a drawn name in the directory of the
session, at a path without links; no link changed but one the file replaced. -/
theorem exportSessionReport_spec {sessionId content : String} {draws : List Draw} {p : RealPath}
    (h : (exportSessionReport nesting t sessionId content draws).written = some p) :
    ∃ d draw, p = d ++ [reportName draw] ∧
      resolve (linkAt t) nesting [] (reportRoot ++ [strip sessionId]) = some d ∧
      linkAt (exportSessionReport nesting t sessionId content draws).tree = linksBeside t p ∧
      Plain (linksBeside t p) p ∧
      isFile (exportSessionReport nesting t sessionId content draws).tree p = true := by
  obtain ⟨d, made, hsafe, hmade, hpath, htree⟩ := exportSessionReport_eq h
  rw [htree]
  obtain ⟨-, hd, -⟩ := safeSessionReportDir_eq_ok.mp hsafe
  obtain ⟨hdir, hlinks⟩ := makeDirs_spec d hmade
  rw [List.nil_append] at hdir
  obtain ⟨draw, -, hp, hfree⟩ := newReportPath_eq_some hpath
  obtain ⟨-, -, hname⟩ := reportName_spec draw
  have hplain : Plain (linkAt t) d := resolve_plain .nil hd
  have hproper : ∀ name ∈ p, FileTree.Proper name := by
    intro name hmem
    rw [hp] at hmem
    rcases List.mem_append.mp hmem with hmem | hmem
    · exact hplain.proper name hmem
    · rw [List.mem_singleton.mp hmem]
      exact hname
  -- What is not found is no directory, so nothing is below it.
  have hplace : ∀ next rest, made.get? (p ++ next :: rest) = none := by
    intro next rest
    by_contra hbelow
    have hdirAt := FileTree.dirAt_of_below rest hbelow
    have hcanonical := FileTree.canonical_of_canonical (FileTree.Canonical.of_dirAt hproper hdirAt)
    obtain ⟨attrs, entries, hget⟩ := hdirAt
    have hresolve : FileTree.resolve made p = some p :=
      FileTree.resolve_eq_some.mpr ⟨hcanonical, by rw [hget]; exact Option.some_ne_none _⟩
    simp [pathExists, hresolve] at hfree
  have hbeside : linkAt (made.update p (some (.file () content))) = linksBeside t p := by
    rw [hp] at hplace ⊢
    rw [linkAt_update _ rfl (fun _ _ => rfl) hdir hplace]
    unfold linksBeside
    rw [hlinks]
  have hplain' : Plain (linksBeside t p) d := by
    refine ⟨hplain.proper, ?_⟩
    intro front name rest heq
    unfold linksBeside
    split
    · rfl
    · exact hplain.unlinked front name rest heq
  refine ⟨d, draw, hp, hd, hbeside, ?_, ?_⟩
  · have hlast : linksBeside t p p = none := if_pos rfl
    rw [hp] at hlast hplain' ⊢
    exact hplain'.concat hname hlast
  · -- The file stands in a directory, where its path leads.
    have hget : (made.update p (some (.file () content))).get? p =
        some (.file () content) := by
      rw [hp]
      exact FileTree.get?_update _ hdir []
    have hdir' : (made.update p (some (.file () content))).DirAt d := by
      have hbelow : (made.update p (some (.file () content))).get? (d ++ [reportName draw]) ≠
          none := by
        rw [← hp, hget]
        exact Option.some_ne_none _
      exact FileTree.dirAt_of_below [] hbelow
    have hcanonical : FileTree.canonical (made.update p (some (.file () content))) p = some p := by
      refine FileTree.canonical_of_canonical ?_
      rw [hp] at hget hdir' ⊢
      refine .entry hplain.proper hdir' hname ?_
      intro attrs target hlink
      rw [hget] at hlink
      cases hlink
    have hresolve : FileTree.resolve (made.update p (some (.file () content))) p = some p :=
      FileTree.resolve_eq_some.mpr ⟨hcanonical, by rw [hget]; exact Option.some_ne_none _⟩
    simp [isFile, hresolve, hget, FileTree.isFile]

/-! ### Round trips -/

/-- The report of a session is written where its id leads: the directory of the
session resolves to an entry of the root, and its name is a session id.  A name
with blanks around it passes where the stripped name leads to the same file.
`file` is the name of the report; what it replaces is no link any more. -/
def Addressable (nesting : Nat) (t : Tree) (sessionId file : String) : Prop :=
  ∃ root name,
    resolve (linkAt t) nesting [] (reportRoot ++ [strip sessionId]) = some (root ++ [name]) ∧
    resolve (linksBeside t (root ++ [name, file])) nesting [] reportRoot = some root ∧
    matchesSession (strip name) = true ∧
    (strip name = name ∨ ∃ other,
      resolve (linksBeside t (root ++ [name, file])) nesting [] (reportRoot ++ [strip name]) =
        some (root ++ other) ∧
      resolve (linksBeside t (root ++ [name, file])) nesting [] (root ++ other ++ [file]) =
        some (root ++ [name, file]))

/-- **The round trip of a written path**, exactly where the report is
addressable. -/
theorem roundTrip_iff {sessionId content : String} {draws : List Draw} {p : RealPath}
    (h : (exportSessionReport nesting t sessionId content draws).written = some p) :
    (reportIdForPath nesting (exportSessionReport nesting t sessionId content draws).tree p >>=
        resolveReportDownloadPath nesting
          (exportSessionReport nesting t sessionId content draws).tree) = .ok p ↔
      Addressable nesting t sessionId (pathName p) := by
  obtain ⟨d, draw, hp, hd, hlinks, hplain, hfile⟩ := exportSessionReport_spec h
  generalize (exportSessionReport nesting t sessionId content draws).tree = after at hlinks hfile ⊢
  have hname : pathName p = reportName draw := by
    rw [hp]
    simp [pathName]
  obtain ⟨hextension, hstem, -⟩ := reportName_spec draw
  have hid := matchesFileId_newReportFileId draw
  have hself : resolve (linkAt after) nesting [] p = some p := by
    rw [hlinks]
    exact resolve_of_plain hplain
  rw [bind_eq_ok]
  constructor
  · rintro ⟨reportId, hreportId, hresolved⟩
    obtain ⟨session, hne, hsession, -, -, rfl⟩ := reportIdForPath_eq_ok.mp hreportId
    obtain ⟨root, file, hroot, hpath⟩ := reportSessionId_ne hsession hne
    have hparts : p = root ++ [session, file] := Option.some.inj (hself.symm.trans hpath)
    have hsplit : d ++ [reportName draw] = (root ++ [session]) ++ [file] := by
      rw [← hp, hparts]
      simp
    obtain ⟨hdroot, hfilename⟩ := List.append_inj' hsplit rfl
    obtain rfl : reportName draw = file := by simpa using hfilename
    rw [hname, hstem] at hresolved
    obtain ⟨sessionId', fileId, d', hparse, hsafe, hreal, -⟩ :=
      resolveReportDownloadPath_eq_ok.mp hresolved
    obtain ⟨hmatches, heq⟩ := (parseReportId_join hid).mp hparse
    obtain ⟨rfl, rfl⟩ := Prod.mk.inj heq
    obtain ⟨-, hdir, root', hroot', other, rfl⟩ := safeSessionReportDir_eq_ok.mp hsafe
    obtain rfl := Option.some.inj (hroot'.symm.trans hroot)
    rw [hlinks, hparts] at hroot hdir hreal
    rw [strip_strip] at hdir
    refine ⟨root', session, ?_, ?_, hmatches, .inr ⟨other, ?_, ?_⟩⟩
    · rw [← hdroot]
      exact hd
    · rw [hname]
      exact hroot
    · rw [hname]
      exact hdir
    · rw [hname]
      exact hreal
  · rintro ⟨root, name, hdir, hroot, hmatches, hcase⟩
    have hdroot : d = root ++ [name] := Option.some.inj (hd.symm.trans hdir)
    have hparts : p = root ++ [name, reportName draw] := by
      rw [hp, hdroot]
      simp
    rw [hname, ← hparts, ← hlinks] at hroot hcase
    -- A name without blanks around it leads to the directory itself.
    have hother : ∃ other,
        resolve (linkAt after) nesting [] (reportRoot ++ [strip name]) = some (root ++ other) ∧
        resolve (linkAt after) nesting [] (root ++ other ++ [reportName draw]) = some p := by
      rcases hcase with hstrip | hother
      · have hfront : Plain (linkAt after) (root ++ [name]) := by
          rw [hlinks, ← hdroot]
          rw [hp] at hplain
          exact hp ▸ hplain.front
        refine ⟨[name], ?_, ?_⟩
        · rw [hstrip, resolve_append_of_eq hroot]
          exact resolve_of_plain hfront
        · rw [← hdroot, ← hp]
          exact hself
      · exact hother
    obtain ⟨other, hd', hreal⟩ := hother
    have hpath : resolve (linkAt after) nesting [] p = some (root ++ [name, reportName draw]) := by
      rw [← hparts]
      exact hself
    have hsession : reportSessionId nesting after p = .ok name := reportSessionId_eq_ok hroot hpath
    have hne : name ≠ "" := by
      have hproper := hplain.proper name (by rw [hparts]; simp)
      exact hproper.1
    refine ⟨name ++ ":" ++ newReportFileId draw, ?_, ?_⟩
    · refine reportIdForPath_eq_ok.mpr ⟨name, hne, hsession, ?_, ?_, ?_⟩
      · rw [hname]
        exact hextension
      · rw [hname, hstem]
        exact hid
      · rw [hname, hstem]
    · refine resolveReportDownloadPath_eq_ok.mpr
        ⟨strip name, newReportFileId draw, root ++ other,
          (parseReportId_join hid).mpr ⟨hmatches, rfl⟩,
          safeSessionReportDir_eq_ok.mpr ⟨?_, ?_, root, hroot, List.prefix_append _ _⟩, hreal, ?_⟩
      · rw [strip_strip]
        exact hmatches
      · rw [strip_strip]
        exact hd'
      · refine isReportFilePath_eq_ok.mpr ⟨root, name, reportName draw, hroot, hpath, hfile, ?_, ?_⟩
        · rw [hname]
          exact hextension
        · rw [hname, hstem]
          exact hid

/-- **Report ids are confined, and faithful where the report is addressable.**
Any tree, links and all: an export's path is found again under its id exactly
when the session's directory is an entry of the root under a session's name;
whatever id is asked for, a served path is a report two levels below the root,
and the session that is checked names the directory that holds it. -/
theorem reportIds_faithful_iff (nesting : Nat) :
    (∀ (t : Tree) (sessionId content : String) (draws : List Draw) (p : RealPath),
      (exportSessionReport nesting t sessionId content draws).written = some p →
      ((reportIdForPath nesting (exportSessionReport nesting t sessionId content draws).tree p >>=
          resolveReportDownloadPath nesting
            (exportSessionReport nesting t sessionId content draws).tree) = .ok p ↔
        Addressable nesting t sessionId (pathName p))) ∧
    (∀ (t : Tree) (reportId : String) (path : RealPath),
      resolveReportDownloadPath nesting t reportId = .ok path →
      ∃ root session file, resolve (linkAt t) nesting [] reportRoot = some root ∧
        path = root ++ [session, file] ∧ resolve (linkAt t) nesting [] path = some path ∧
        (t.get? path).any FileTree.isFile = true ∧ hasReportExtension file = true ∧
        matchesFileId (stem file) = true ∧
        ∀ canAccess : String → Bool, downloadAgentReport nesting t canAccess reportId =
          if canAccess session then .file path (session ++ "-" ++ file)
          else .notFound "report file not found") := by
  refine ⟨fun t sessionId content draws p h => roundTrip_iff h, ?_⟩
  intro t reportId path h
  obtain ⟨root, session, file, hroot, hpath, hself, hfile, hextension, hid, hne, hsession⟩ :=
    served_path h
  refine ⟨root, session, file, hroot, hpath, hself, hfile, hextension, hid, ?_⟩
  intro canAccess
  have hname : pathName path = file := by
    rw [hpath]
    simp [pathName]
  rw [downloadAgentReport_served h hsession hne canAccess, hname]

theorem five_inRange : (5 : Int) < 9223372036854775808 := by decide

/-- A name drawn five milliseconds into the epoch. -/
def earlyDraw : Draw := ⟨5, five_inRange, fun _ => 0⟩

/-- A root where a session is linked to a directory further down. -/
def archivedTree : Tree :=
  .dir () [("tmp", .dir () [("reports", .dir ()
    [("archive", .dir () [("s", .dir () [])]), ("s", .link () ⟨false, ["archive", "s"]⟩)])])]

/-- The report of an archived session is written, but no id names it. -/
theorem reportIds_faithful_archived :
    ¬ ∀ p, (exportSessionReport 1 archivedTree "s" "done" [earlyDraw]).written = some p →
      (reportIdForPath 1 (exportSessionReport 1 archivedTree "s" "done" [earlyDraw]).tree p >>=
        resolveReportDownloadPath 1
          (exportSessionReport 1 archivedTree "s" "done" [earlyDraw]).tree) = .ok p := by
  intro h
  have hwritten : (exportSessionReport 1 archivedTree "s" "done" [earlyDraw]).written =
      some ["tmp", "reports", "archive", "s", "5-0000.md"] := by decide
  have hraised : reportIdForPath 1
      (exportSessionReport 1 archivedTree "s" "done" [earlyDraw]).tree
      ["tmp", "reports", "archive", "s", "5-0000.md"] =
        .error (.value "invalid report file") := by decide
  have hround := h _ hwritten
  rw [hraised] at hround
  cases hround

/-- A root without reports. -/
def emptyTree : Tree := .dir () [("tmp", .dir () [])]

/-- The first report of a session is found again under its id. -/
theorem reportIds_faithful_first :
    (reportIdForPath 1 (exportSessionReport 1 emptyTree "s" "done" [earlyDraw]).tree
        ["tmp", "reports", "s", "5-0000.md"] >>=
      resolveReportDownloadPath 1
        (exportSessionReport 1 emptyTree "s" "done" [earlyDraw]).tree) =
      .ok ["tmp", "reports", "s", "5-0000.md"] := by
  have hwritten : (exportSessionReport 1 emptyTree "s" "done" [earlyDraw]).written =
      some ["tmp", "reports", "s", "5-0000.md"] := by decide
  refine ((reportIds_faithful_iff 1).1 emptyTree "s" "done" [earlyDraw] _ hwritten).mpr ?_
  exact ⟨["tmp", "reports"], "s", by decide, by decide, by decide, .inl (by decide)⟩

end Workbench.ReportFiles
