import CyberWorkbench.StepMachine
import CyberWorkbench.Utf8Replacement
import Mathlib.Data.List.Perm.Basic

/-!
# Uploading documents

`service/knowledge/resources`: the files of a request are written one after the
other, each in a thread and only if there is no file of that name; the files
written are then queued in batches.  A set holds the files that no queue owns
yet, which are removed where the call fails.  A file enters the set after its
write has returned.

`upload_no_orphans`: where no write fails after its file is there or goes on
after a cancellation, and no cancellation cuts the removal of that set short,
a call that raises leaves no file that was not queued, and one that returns has
queued or rejected every upload.

An exception passes the exit of the client on its way out, where a cancellation
only takes its place.  The categories of characters are a parameter.
-/

namespace Workbench.DocumentUpload

open StepMachine

/-! ### Uploads -/

/-- `UploadFile`: its name and what is in it. -/
structure Upload where
  filename : Option String
  content : List UInt8
  deriving DecidableEq, Repr

/-- `MAX_KNOWLEDGE_DOCUMENT_BYTES`. -/
def maxDocumentBytes : Nat := 25 * 1024 * 1024

/-- `MAX_KNOWLEDGE_DOCUMENT_BATCH_SIZE`. -/
def maxBatchSize : Nat := 50

/-- `MAX_KNOWLEDGE_FILENAME_BYTES`. -/
def maxFilenameBytes : Nat := 255

/-- `Path(text).name`: the last part that says anything. -/
def pathName (text : List Char) : List Char :=
  (((text.splitOn '/').filter (fun part => part != [] && part != ['.'])).getLast?).getD []

/-- `Path((upload.filename or "").replace("\\", "/")).name`. -/
def Upload.baseName (upload : Upload) : String :=
  String.ofList (pathName
    ((upload.filename.getD "").toList.map (fun c => if c = '\\' then '/' else c)))

/-- `_display_upload_file_name`. -/
def displayUploadFileName (upload : Upload) : String :=
  if upload.baseName = "" then "unnamed document" else upload.baseName

/-- `Path(file_name).suffix`. -/
def suffix (fileName : String) : String :=
  let ending := (fileName.toList.reverse.takeWhile (· != '.')).length
  if ending = 0 ∨ fileName.toList.length ≤ ending + 1 then ""
  else String.ofList (fileName.toList.drop (fileName.toList.length - ending - 1))

/-- `_validate_upload_file_name`: the name, or the message of the
`KnowledgeDocumentError`. -/
def validateUploadFileName (isControl : Char → Bool) (upload : Upload) : Except String String :=
  let fileName := upload.baseName
  let ending := String.ofList ((suffix fileName).toList.map Char.toLower)
  if fileName = "" ∨ fileName.toList.any isControl ∨
      maxFilenameBytes < (Utf8.encode fileName.toList).length then
    .error "document file name is invalid"
  else if ending ≠ ".md" ∧ ending ≠ ".pdf" then
    .error "only Markdown and PDF documents are supported"
  else .ok fileName

/-- `_read_upload_content`. -/
def readUploadContent (upload : Upload) : Except String (List UInt8) :=
  let content := upload.content.take (maxDocumentBytes + 1)
  if content = [] then .error "document is empty"
  else if maxDocumentBytes < content.length then .error "document exceeds the 25 MB size limit"
  else .ok content

/-- `RejectedKnowledgeDocumentUpload`. -/
structure RejectedUpload where
  fileName : String
  message : String
  deriving DecidableEq, Repr

/-- `UploadKnowledgeDocumentsResponse`. -/
structure UploadResponse where
  trackIds : List String
  queuedFiles : List String
  rejectedFiles : List RejectedUpload
  deriving DecidableEq, Repr

/-! ### The call -/

/-- How the call ended. -/
inductive UploadResult where
  | raised
  | returned (response : UploadResponse)
  deriving DecidableEq, Repr

/-- Where the call waits, or how it ended. -/
inductive UploadPhase where
  | entering
  | lookingUp (upload : Upload) (fileName : String)
  | reading (upload : Upload) (fileName : String)
  | writing (upload : Upload) (fileName : String) (content : List UInt8)
  | enqueueing
  /-- Files that were not queued are removed, and rejected with the message. -/
  | removing (targets : List String) (message : String)
  | leaving
  /-- The handler of every exception. -/
  | cleaning
  | ended (result : UploadResult)
  deriving DecidableEq, Repr

/-- The files of the folder, by name. -/
abbrev SourceFiles : Type := String → Option (List UInt8)

/-- The call: `waiting` is `accepted_files[offset:]`, and `pending` holds the
writes whose thread goes on after a cancellation. -/
structure UploadState where
  files : SourceFiles
  uploads : List Upload
  phase : UploadPhase := .entering
  waiting : List String := []
  unowned : List String := []
  rejected : List RejectedUpload := []
  queued : List String := []
  trackIds : List String := []
  pending : List (String × List UInt8) := []

/-- What happens where the call waits.  A cancelled removal still removes some
of the files. -/
inductive UploadEvent where
  | enters
  | lookedUp (found : Bool)
  | reads
  | writes
  | writeFails (left : Option Nat)
  | enqueued (trackId : Option String)
  | removes
  | leaves
  | fails
  | cancelled (removed : List String)
  | threadWrites (left : Option Nat)
  | threadDrops
  deriving DecidableEq, Repr

/-- `path.unlink(missing_ok=True)` for some files. -/
def unlink (files : SourceFiles) (names : List String) : SourceFiles :=
  fun name => if name ∈ names then none else files name

/-- `path.open("xb")` and a write, of which `left` bytes reach the disk if it
fails. -/
def writeNew (files : SourceFiles) (fileName : String) (content : List UInt8) (left : Option Nat) :
    SourceFiles :=
  Function.update files fileName (some (match left with
    | none => content
    | some n => content.take n))

namespace UploadState

/-- An upload is rejected. -/
def reject (s : UploadState) (fileName message : String) : UploadState :=
  { s with rejected := s.rejected ++ [⟨fileName, message⟩] }

/-- The next batch is enqueued, or the client is left. -/
def nextBatch (s : UploadState) : UploadState :=
  { s with phase := if s.waiting = [] then .leaving else .enqueueing }

/-- The loop goes on to the next upload whose name is valid. -/
def nextUpload (isControl : Char → Bool) : List Upload → UploadState → UploadState
  | [], s => { s with uploads := [] }.nextBatch
  | upload :: rest, s =>
      match validateUploadFileName isControl upload with
      | .error message => nextUpload isControl rest (s.reject (displayUploadFileName upload) message)
      | .ok fileName => { s with uploads := rest, phase := .lookingUp upload fileName }

/-- An upload is rejected after something was awaited. -/
def rejectUpload (isControl : Char → Bool) (s : UploadState) (fileName message : String) :
    UploadState :=
  nextUpload isControl s.uploads (s.reject fileName message)

/-- An exception leaves the client. -/
def raise (s : UploadState) : UploadState := { s with phase := .cleaning }

/-- The batch that is enqueued. -/
def batch (s : UploadState) : List String := s.waiting.take maxBatchSize

/-- Files are no longer unowned. -/
def disown (s : UploadState) (names : List String) : UploadState :=
  { s with
    waiting := s.waiting.drop names.length
    unowned := s.unowned.filter (· ∉ names) }

def existsMessage : String := "a document with this file name already exists"

/-- One step of `upload_knowledge_documents`. -/
def step (isControl : Char → Bool) (s : UploadState) : UploadEvent → Option UploadState
  | .enters =>
      match s.phase with
      | .entering => some (nextUpload isControl s.uploads s)
      | _ => none
  | .lookedUp found =>
      match s.phase with
      | .lookingUp upload fileName =>
          if found then some (s.rejectUpload isControl (displayUploadFileName upload) existsMessage)
          else some { s with phase := .reading upload fileName }
      | _ => none
  | .reads =>
      match s.phase with
      | .reading upload fileName =>
          match readUploadContent upload with
          | .error message =>
              some (s.rejectUpload isControl (displayUploadFileName upload) message)
          | .ok content => some { s with phase := .writing upload fileName content }
      | _ => none
  | .writes =>
      match s.phase with
      | .writing upload fileName content =>
          if (s.files fileName).isSome then
            some (s.rejectUpload isControl (displayUploadFileName upload) existsMessage)
          else some (nextUpload isControl s.uploads
            { s with
              files := writeNew s.files fileName content none
              waiting := s.waiting ++ [fileName]
              unowned := s.unowned ++ [fileName] })
      | _ => none
  | .writeFails left =>
      match s.phase with
      | .writing _ fileName content =>
          match left with
          | none => some s.raise
          | some n =>
              if (s.files fileName).isSome then none
              else some { s with files := writeNew s.files fileName content (some n) }.raise
      | _ => none
  | .enqueued trackId =>
      match s.phase with
      | .enqueueing =>
          match trackId with
          | some trackId => some { s.disown s.batch with
              queued := s.queued ++ s.batch, trackIds := s.trackIds ++ [trackId] }.nextBatch
          | none => some { s with
              phase := .removing s.batch "the document is already indexed or queued" }
      | _ => none
  | .removes =>
      match s.phase with
      | .removing targets message => some { s.disown targets with
          files := unlink s.files targets
          rejected := s.rejected ++ targets.map (RejectedUpload.mk · message) }.nextBatch
      | .cleaning => some { s with files := unlink s.files s.unowned, phase := .ended .raised }
      | _ => none
  | .leaves =>
      match s.phase with
      | .leaving => some { s with phase := .ended (.returned ⟨s.trackIds, s.queued, s.rejected⟩) }
      | _ => none
  | .fails =>
      match s.phase with
      | .enqueueing => some { s with
          phase := .removing s.waiting "the document could not be queued" }
      | .entering => some s.raise
      | .lookingUp .. => some s.raise
      | .reading .. => some s.raise
      | .leaving => some s.raise
      | _ => none
  | .cancelled removed =>
      match s.phase with
      | .writing _ fileName content =>
          some { s with pending := (fileName, content) :: s.pending }.raise
      | .removing targets _ =>
          some { s with files := unlink s.files (removed.filter (· ∈ targets)) }.raise
      | .cleaning => some { s with
          files := unlink s.files (removed.filter (· ∈ s.unowned)), phase := .ended .raised }
      | .ended _ => none
      | _ => some s.raise
  | .threadWrites left =>
      match s.pending with
      | (fileName, content) :: rest => some { s with
          files := if (s.files fileName).isSome then s.files
            else writeNew s.files fileName content left
          pending := rest }
      | [] => none
  | .threadDrops =>
      match s.pending with
      | _ :: rest => some { s with pending := rest }
      | [] => none

end UploadState

/-- A call begins with the files that are there; without uploads it raises. -/
def startUpload (files : SourceFiles) (uploads : List Upload) : UploadState :=
  { files := files, uploads := uploads, phase := if uploads = [] then .ended .raised else .entering }

/-- The machine of one call. -/
def uploadMachine (isControl : Char → Bool) (files : SourceFiles) (uploads : List Upload) :
    Machine UploadState UploadEvent where
  Start s := s = startUpload files uploads
  step := UploadState.step isControl

/-! ### What a step needs -/

/-- **The condition on a step.**  No write fails after its file is there, none
creates its file after the call was cancelled, and a cancelled handler removes
all it should. -/
def Orderly (s : UploadState) : UploadEvent → UploadState → Prop
  | .writeFails left, _ => left = none
  | .threadWrites _, _ => ∀ fileName content rest, s.pending = (fileName, content) :: rest →
      s.files fileName ≠ none
  | .cancelled removed, _ => s.phase = .cleaning → ∀ name ∈ s.unowned, name ∈ removed
  | _, _ => True

/-- **No orphans.**  Files that were there are untouched.  A call that raised
leaves no other file that was not queued.  One that returned has queued or
rejected every upload, queued files are complete, and there are no others. -/
structure NoOrphans (initial : SourceFiles) (uploads : List Upload) (s : UploadState) : Prop where
  kept : ∀ name content, initial name = some content → s.files name = some content
  raised : s.phase = .ended .raised → ∀ name, initial name = none → s.files name ≠ none →
    name ∈ s.queued
  returned : ∀ response, s.phase = .ended (.returned response) →
    (response.queuedFiles ++ response.rejectedFiles.map RejectedUpload.fileName).Perm
        (uploads.map displayUploadFileName) ∧
      (∀ name ∈ response.queuedFiles, ∃ upload ∈ uploads, displayUploadFileName upload = name ∧
        s.files name = some upload.content) ∧
      ∀ name, initial name = none → s.files name ≠ none → name ∈ response.queuedFiles

/-! ### Owners -/

section Owners

variable {initial : SourceFiles} {uploads : List Upload} {s t : UploadState}

/-- The upload a file comes from. -/
def IsCopy (uploads : List Upload) (files : SourceFiles) (name : String) : Prop :=
  ∃ upload ∈ uploads, displayUploadFileName upload = name ∧ files name = some upload.content

/-- Every new file has one owner. -/
structure Owned (initial : SourceFiles) (uploads : List Upload) (s : UploadState) : Prop where
  kept : ∀ name content, initial name = some content → s.files name = some content
  known : ∀ name, initial name = none → s.files name ≠ none → name ∈ s.unowned ∨ name ∈ s.queued
  fresh : ∀ name ∈ s.unowned, initial name = none
  complete : ∀ name ∈ s.queued, initial name = none ∧ IsCopy uploads s.files name
  apart : ∀ name ∈ s.unowned, name ∉ s.queued

theorem Owned.congr (h : Owned initial uploads s) (hfiles : t.files = s.files)
    (hunowned : t.unowned = s.unowned) (hqueued : t.queued = s.queued) :
    Owned initial uploads t := by
  obtain ⟨kept, known, fresh, complete, apart⟩ := h
  constructor
  · rwa [hfiles]
  · rwa [hfiles, hunowned, hqueued]
  · rwa [hunowned]
  · rwa [hfiles, hqueued]
  · rwa [hunowned, hqueued]

/-- Unowned files may be removed. -/
theorem Owned.unlink (h : Owned initial uploads s) {names : List String}
    (hnames : ∀ name ∈ names, name ∈ s.unowned) (hfiles : t.files = unlink s.files names)
    (hunowned : t.unowned = s.unowned) (hqueued : t.queued = s.queued) :
    Owned initial uploads t := by
  have hother : ∀ name, name ∉ names → t.files name = s.files name := fun name hname => by
    rw [hfiles]
    exact if_neg hname
  have hremoved : ∀ name ∈ names, t.files name = none := fun name hname => by
    rw [hfiles]
    exact if_pos hname
  constructor
  · intro name content hinitial
    rw [hother name, h.kept name content hinitial]
    intro hname
    rw [h.fresh name (hnames name hname)] at hinitial
    cases hinitial
  · intro name hinitial hfile
    rw [hunowned, hqueued]
    refine h.known name hinitial ?_
    by_cases hname : name ∈ names
    · exact absurd (hremoved name hname) hfile
    · rwa [← hother name hname]
  · rw [hunowned]
    exact h.fresh
  · intro name hname
    rw [hqueued] at hname
    obtain ⟨hinitial, upload, hupload, hdisplay, hcontent⟩ := h.complete name hname
    refine ⟨hinitial, upload, hupload, hdisplay, ?_⟩
    rw [hother name, hcontent]
    exact fun hremove => h.apart name (hnames name hremove) hname
  · rw [hunowned, hqueued]
    exact h.apart

/-- A new file is unowned. -/
theorem Owned.write (h : Owned initial uploads s) {fileName : String} {content : List UInt8}
    (habsent : s.files fileName = none) (hfiles : t.files = writeNew s.files fileName content none)
    (hunowned : t.unowned = s.unowned ++ [fileName]) (hqueued : t.queued = s.queued) :
    Owned initial uploads t := by
  have hother : ∀ name, name ≠ fileName → t.files name = s.files name := fun name hname => by
    rw [hfiles]
    exact Function.update_of_ne hname ..
  have hinitial : initial fileName = none := by
    cases hold : initial fileName with
    | none => rfl
    | some old =>
        rw [h.kept fileName old hold] at habsent
        cases habsent
  have hqueue : fileName ∉ s.queued := by
    intro hmem
    obtain ⟨-, upload, -, -, hcontent⟩ := h.complete fileName hmem
    rw [habsent] at hcontent
    cases hcontent
  constructor
  · intro name old hold
    rw [hother name, h.kept name old hold]
    rintro rfl
    rw [hinitial] at hold
    cases hold
  · intro name hnew hfile
    rw [hunowned, hqueued]
    by_cases hname : name = fileName
    · exact .inl (by simp [hname])
    · rw [hother name hname] at hfile
      exact (h.known name hnew hfile).imp (fun hmem => List.mem_append_left _ hmem) id
  · intro name hname
    rw [hunowned, List.mem_append, List.mem_singleton] at hname
    rcases hname with hname | rfl
    · exact h.fresh name hname
    · exact hinitial
  · intro name hname
    rw [hqueued] at hname
    obtain ⟨hnew, upload, hupload, hdisplay, hcontent⟩ := h.complete name hname
    refine ⟨hnew, upload, hupload, hdisplay, ?_⟩
    rw [hother name, hcontent]
    rintro rfl
    exact hqueue hname
  · intro name hname
    rw [hunowned, List.mem_append, List.mem_singleton] at hname
    rw [hqueued]
    rcases hname with hname | rfl
    · exact h.apart name hname
    · exact hqueue

/-- The queue takes files over. -/
theorem Owned.queue (h : Owned initial uploads s) {names : List String}
    (hnames : ∀ name ∈ names, name ∈ s.unowned ∧ IsCopy uploads s.files name)
    (hfiles : t.files = s.files) (hunowned : t.unowned = s.unowned.filter (· ∉ names))
    (hqueued : t.queued = s.queued ++ names) : Owned initial uploads t := by
  have hmem : ∀ name, name ∈ t.unowned ↔ name ∈ s.unowned ∧ name ∉ names := fun name => by
    rw [hunowned, List.mem_filter, decide_eq_true_iff]
  constructor
  · rw [hfiles]
    exact h.kept
  · intro name hnew hfile
    rw [hfiles] at hfile
    rw [hmem, hqueued, List.mem_append]
    by_cases hname : name ∈ names
    · exact .inr (.inr hname)
    · exact (h.known name hnew hfile).imp (fun hold => ⟨hold, hname⟩) .inl
  · intro name hname
    exact h.fresh name ((hmem name).mp hname).1
  · intro name hname
    rw [hqueued, List.mem_append] at hname
    rw [hfiles]
    rcases hname with hname | hname
    · exact h.complete name hname
    · exact ⟨h.fresh name (hnames name hname).1, (hnames name hname).2⟩
  · intro name hname
    obtain ⟨hold, hnot⟩ := (hmem name).mp hname
    rw [hqueued, List.mem_append]
    exact fun hor => hor.elim (h.apart name hold) hnot

/-- Files that are gone need no owner. -/
theorem Owned.forget (h : Owned initial uploads s) {names : List String}
    (hgone : ∀ name ∈ names, s.files name = none) (hfiles : t.files = s.files)
    (hunowned : t.unowned = s.unowned.filter (· ∉ names)) (hqueued : t.queued = s.queued) :
    Owned initial uploads t := by
  have hmem : ∀ name, name ∈ t.unowned ↔ name ∈ s.unowned ∧ name ∉ names := fun name => by
    rw [hunowned, List.mem_filter, decide_eq_true_iff]
  constructor
  · rw [hfiles]
    exact h.kept
  · intro name hnew hfile
    rw [hfiles] at hfile
    rw [hmem, hqueued]
    exact (h.known name hnew hfile).imp
      (fun hold => ⟨hold, fun hname => hfile (hgone name hname)⟩) id
  · intro name hname
    exact h.fresh name ((hmem name).mp hname).1
  · rw [hfiles, hqueued]
    exact h.complete
  · intro name hname
    rw [hqueued]
    exact h.apart name ((hmem name).mp hname).1

end Owners

/-! ### The way forward -/

/-- The upload that the call is about. -/
def UploadPhase.inHand : UploadPhase → List Upload
  | .lookingUp upload _ => [upload]
  | .reading upload _ => [upload]
  | .writing upload _ _ => [upload]
  | _ => []

/-- No exception was raised. -/
def UploadPhase.Forward : UploadPhase → Prop
  | .cleaning => False
  | .ended .raised => False
  | _ => True

/-- The loop before the uploads `rest`: what waits is what is unowned, and every
other upload was queued or rejected. -/
structure Loop (uploads rest : List Upload) (s : UploadState) : Prop where
  waits : ∀ name, name ∈ s.waiting ↔ name ∈ s.unowned
  nodup : s.waiting.Nodup
  written : ∀ name ∈ s.waiting, IsCopy uploads s.files name
  counted : (s.queued ++ s.rejected.map RejectedUpload.fileName ++ s.waiting ++
    rest.map displayUploadFileName).Perm (uploads.map displayUploadFileName)
  remaining : ∀ upload ∈ rest, upload ∈ uploads

/-- What the call knows where it waits. -/
def PhaseInv (s : UploadState) : Prop :=
  match s.phase with
  | .lookingUp upload fileName => fileName = displayUploadFileName upload
  | .reading upload fileName => fileName = displayUploadFileName upload
  | .writing upload fileName content =>
      fileName = displayUploadFileName upload ∧ content = upload.content
  | .enqueueing => s.uploads = []
  | .removing targets _ => s.uploads = [] ∧ targets <+: s.waiting
  | .leaving => s.uploads = [] ∧ s.waiting = []
  | .ended (.returned response) => s.uploads = [] ∧ s.waiting = [] ∧
      response = ⟨s.trackIds, s.queued, s.rejected⟩
  | _ => True

/-- The invariant of a call. -/
structure UploadInv (initial : SourceFiles) (uploads : List Upload) (s : UploadState) : Prop where
  owned : Owned initial uploads s
  loop : s.phase.Forward → Loop uploads (s.phase.inHand ++ s.uploads) s
  phase : PhaseInv s
  gone : s.phase = .ended .raised → ∀ name, initial name = none → s.files name ≠ none →
    name ∈ s.queued

section Loops

variable {initial : SourceFiles} {uploads rest : List Upload} {s : UploadState}
  {isControl : Char → Bool}

/-- The loop reads these fields only. -/
theorem Loop.congr {t : UploadState} (h : Loop uploads rest s) (hfiles : t.files = s.files)
    (hwaiting : t.waiting = s.waiting) (hunowned : t.unowned = s.unowned)
    (hqueued : t.queued = s.queued) (hrejected : t.rejected = s.rejected) :
    Loop uploads rest t := by
  obtain ⟨waits, nodup, written, counted, remaining⟩ := h
  constructor
  · rwa [hwaiting, hunowned]
  · rwa [hwaiting]
  · rwa [hwaiting, hfiles]
  · rwa [hqueued, hrejected, hwaiting]
  · exact remaining

/-- A valid name is the one that is displayed. -/
theorem validateUploadFileName_ok {upload : Upload} {fileName : String}
    (h : validateUploadFileName isControl upload = .ok fileName) :
    fileName = displayUploadFileName upload := by
  unfold validateUploadFileName at h
  simp only at h
  split at h
  · cases h
  · rename_i hvalid
    split at h
    · cases h
    · obtain rfl := Except.ok.inj h
      unfold displayUploadFileName
      rw [if_neg (fun hempty => hvalid (.inl hempty))]

/-- What is read is all of the upload. -/
theorem readUploadContent_ok {upload : Upload} {content : List UInt8}
    (h : readUploadContent upload = .ok content) : content = upload.content := by
  unfold readUploadContent at h
  simp only at h
  split at h
  · cases h
  · split at h
    · cases h
    · rename_i hshort
      obtain rfl := Except.ok.inj h
      rw [List.length_take] at hshort
      exact List.take_of_length_le (by omega)

/-- An upload is rejected. -/
theorem Loop.reject {upload : Upload} (h : Loop uploads (upload :: rest) s) (message : String) :
    Loop uploads rest (s.reject (displayUploadFileName upload) message) where
  waits := h.waits
  nodup := h.nodup
  written := h.written
  counted := by
    refine List.Perm.trans (List.perm_iff_count.mpr fun name => ?_) h.counted
    simp only [UploadState.reject, List.map_append, List.map_cons, List.map_nil,
      List.count_append, List.count_cons, List.count_nil]
    omega
  remaining := fun u hu => h.remaining u (List.mem_cons_of_mem _ hu)

/-- The next batch, or the end. -/
theorem nextBatch_inv (howned : Owned initial uploads s) (h : Loop uploads [] s)
    (huploads : s.uploads = []) : UploadInv initial uploads s.nextBatch := by
  unfold UploadState.nextBatch
  by_cases hwaiting : s.waiting = []
  · rw [if_pos hwaiting]
    refine ⟨howned.congr rfl rfl rfl, fun _ => ?_, ⟨huploads, hwaiting⟩, fun hphase => by cases hphase⟩
    simp only [UploadPhase.inHand, huploads, List.append_nil]
    exact h.congr rfl rfl rfl rfl rfl
  · rw [if_neg hwaiting]
    refine ⟨howned.congr rfl rfl rfl, fun _ => ?_, huploads, fun hphase => by cases hphase⟩
    simp only [UploadPhase.inHand, huploads, List.append_nil]
    exact h.congr rfl rfl rfl rfl rfl

/-- **The next upload whose name is valid**, or the batches. -/
theorem nextUpload_inv (howned : Owned initial uploads s) (h : Loop uploads rest s) :
    UploadInv initial uploads (UploadState.nextUpload isControl rest s) := by
  induction rest generalizing s with
  | nil =>
      exact nextBatch_inv (howned.congr rfl rfl rfl) (h.congr rfl rfl rfl rfl rfl) rfl
  | cons upload rest ih =>
      rw [UploadState.nextUpload]
      cases hvalid : validateUploadFileName isControl upload with
      | error message => exact ih (howned.congr rfl rfl rfl) (h.reject message)
      | ok fileName =>
          exact ⟨howned.congr rfl rfl rfl, fun _ => h.congr rfl rfl rfl rfl rfl,
            validateUploadFileName_ok hvalid, fun hphase => by cases hphase⟩

/-- The upload in hand is rejected, and the loop goes on. -/
theorem rejectUpload_inv {upload : Upload} (howned : Owned initial uploads s)
    (h : Loop uploads (upload :: s.uploads) s) (message : String) :
    UploadInv initial uploads
      (s.rejectUpload isControl (displayUploadFileName upload) message) :=
  nextUpload_inv (howned.congr rfl rfl rfl) (h.reject message)

/-- The call raises. -/
theorem raise_inv (howned : Owned initial uploads s) : UploadInv initial uploads s.raise :=
  ⟨howned.congr rfl rfl rfl, fun hforward => hforward.elim, trivial, fun hphase => by cases hphase⟩

/-- The file in hand is written. -/
theorem Loop.write {t : UploadState} {upload : Upload} (h : Loop uploads (upload :: rest) s)
    {fileName : String} {content : List UInt8} (hname : fileName = displayUploadFileName upload)
    (hcontent : content = upload.content) (habsent : s.files fileName = none)
    (hfiles : t.files = writeNew s.files fileName content none)
    (hwaiting : t.waiting = s.waiting ++ [fileName])
    (hunowned : t.unowned = s.unowned ++ [fileName])
    (hqueued : t.queued = s.queued) (hrejected : t.rejected = s.rejected) :
    Loop uploads rest t := by
  subst hname hcontent
  have hnew : displayUploadFileName upload ∉ s.waiting := by
    intro hmem
    obtain ⟨other, -, -, hcontent⟩ := h.written _ hmem
    rw [habsent] at hcontent
    cases hcontent
  constructor
  · intro name
    rw [hwaiting, hunowned, List.mem_append, List.mem_append, h.waits]
  · rw [hwaiting]
    refine List.nodup_append.mpr ⟨h.nodup, by simp, ?_⟩
    rintro a ha b hb rfl
    rw [List.mem_singleton] at hb
    exact hnew (hb ▸ ha)
  · intro name hname
    rw [hwaiting, List.mem_append, List.mem_singleton] at hname
    rcases hname with hname | rfl
    · obtain ⟨other, hother, hdisplay, hcontent⟩ := h.written name hname
      refine ⟨other, hother, hdisplay, ?_⟩
      rw [hfiles, ← hcontent]
      refine Function.update_of_ne ?_ ..
      rintro rfl
      exact hnew hname
    · refine ⟨upload, h.remaining upload List.mem_cons_self, rfl, ?_⟩
      rw [hfiles]
      exact Function.update_self ..
  · rw [hqueued, hrejected, hwaiting]
    refine List.Perm.trans (List.perm_iff_count.mpr fun name => ?_) h.counted
    simp only [List.map_cons, List.count_append, List.count_cons, List.count_nil]
    omega
  · exact fun u hu => h.remaining u (List.mem_cons_of_mem _ hu)

/-- The first files that wait are queued, or removed and rejected. -/
theorem Loop.take {t : UploadState} {names after : List String} (h : Loop uploads [] s)
    (hnames : s.waiting = names ++ after) (hfiles : ∀ name ∈ after, t.files name = s.files name)
    (hwaiting : t.waiting = after) (hunowned : t.unowned = s.unowned.filter (· ∉ names))
    (hcounted : (t.queued ++ t.rejected.map RejectedUpload.fileName).Perm
      (s.queued ++ s.rejected.map RejectedUpload.fileName ++ names)) : Loop uploads [] t := by
  have hnodup := h.nodup
  rw [hnames] at hnodup
  obtain ⟨-, hafter, hapart⟩ := List.nodup_append.mp hnodup
  have hmem : ∀ name, name ∈ after → name ∉ names := fun name hname hin =>
    hapart name hin name hname rfl
  constructor
  · intro name
    rw [hwaiting, hunowned, List.mem_filter, decide_eq_true_iff, ← h.waits, hnames,
      List.mem_append]
    constructor
    · exact fun hname => ⟨.inr hname, hmem name hname⟩
    · rintro ⟨hname | hname, hnot⟩
      · exact absurd hname hnot
      · exact hname
  · rwa [hwaiting]
  · intro name hname
    rw [hwaiting] at hname
    obtain ⟨upload, hupload, hdisplay, hcontent⟩ :=
      h.written name (by rw [hnames]; exact List.mem_append_right _ hname)
    exact ⟨upload, hupload, hdisplay, (hfiles name hname).trans hcontent⟩
  · rw [hwaiting]
    refine List.Perm.trans ?_ h.counted
    rw [hnames]
    refine ((hcounted.append_right after).append_right _).trans ?_
    rw [List.append_assoc _ names after]
  · exact h.remaining

end Loops

/-! ### Steps -/

section Steps

variable {initial : SourceFiles} {uploads : List Upload} {s t : UploadState}
  {isControl : Char → Bool}

/-- The loop with the upload in hand. -/
theorem UploadInv.inHand {upload : Upload} (hinv : UploadInv initial uploads s)
    (hforward : s.phase.Forward) (hhand : s.phase.inHand = [upload]) :
    Loop uploads (upload :: s.uploads) s := by
  have hloop := hinv.loop hforward
  rwa [hhand] at hloop

/-- The loop when all uploads were looked at. -/
theorem UploadInv.noneLeft (hinv : UploadInv initial uploads s) (hforward : s.phase.Forward)
    (hhand : s.phase.inHand = []) (huploads : s.uploads = []) : Loop uploads [] s := by
  have hloop := hinv.loop hforward
  rwa [hhand, huploads] at hloop

/-- The call goes on with an upload. -/
theorem goesOn_inv {phase : UploadPhase} {upload : Upload} (howned : Owned initial uploads s)
    (hloop : Loop uploads (upload :: s.uploads) s) (hhand : phase.inHand = [upload])
    (hphase : PhaseInv { s with phase := phase }) :
    UploadInv initial uploads { s with phase := phase } := by
  refine ⟨howned.congr rfl rfl rfl, fun _ => ?_, hphase, ?_⟩
  · simp only [hhand]
    exact hloop.congr rfl rfl rfl rfl rfl
  · intro hended
    simp only at hended
    rw [hended] at hhand
    cases hhand

theorem enters_keeps (hinv : UploadInv initial uploads s)
    (h : s.step isControl .enters = some t) : UploadInv initial uploads t := by
  unfold UploadState.step at h
  cases hphase : s.phase <;> simp only [hphase, reduceCtorEq] at h
  obtain rfl := Option.some.inj h
  have hloop := hinv.loop (by rw [hphase]; trivial)
  rw [hphase] at hloop
  exact nextUpload_inv hinv.owned hloop

theorem lookedUp_keeps {found : Bool} (hinv : UploadInv initial uploads s)
    (h : s.step isControl (.lookedUp found) = some t) : UploadInv initial uploads t := by
  unfold UploadState.step at h
  cases hphase : s.phase <;> simp only [hphase, reduceCtorEq] at h
  rename_i upload fileName
  have hloop := hinv.inHand (by rw [hphase]; trivial) (by rw [hphase]; rfl)
  split at h
  · obtain rfl := Option.some.inj h
    exact rejectUpload_inv hinv.owned hloop _
  · obtain rfl := Option.some.inj h
    have hname := hinv.phase
    unfold PhaseInv at hname
    rw [hphase] at hname
    exact goesOn_inv hinv.owned hloop rfl hname

theorem reads_keeps (hinv : UploadInv initial uploads s)
    (h : s.step isControl .reads = some t) : UploadInv initial uploads t := by
  unfold UploadState.step at h
  cases hphase : s.phase <;> simp only [hphase, reduceCtorEq] at h
  rename_i upload fileName
  have hloop := hinv.inHand (by rw [hphase]; trivial) (by rw [hphase]; rfl)
  split at h
  · obtain rfl := Option.some.inj h
    exact rejectUpload_inv hinv.owned hloop _
  · rename_i content hread
    obtain rfl := Option.some.inj h
    have hname := hinv.phase
    unfold PhaseInv at hname
    rw [hphase] at hname
    exact goesOn_inv hinv.owned hloop rfl ⟨hname, readUploadContent_ok hread⟩

theorem writes_keeps (hinv : UploadInv initial uploads s)
    (h : s.step isControl .writes = some t) : UploadInv initial uploads t := by
  unfold UploadState.step at h
  cases hphase : s.phase <;> simp only [hphase, reduceCtorEq] at h
  rename_i upload fileName content
  have hloop := hinv.inHand (by rw [hphase]; trivial) (by rw [hphase]; rfl)
  have hname := hinv.phase
  unfold PhaseInv at hname
  rw [hphase] at hname
  split at h
  · obtain rfl := Option.some.inj h
    exact rejectUpload_inv hinv.owned hloop _
  · rename_i habsent
    obtain rfl := Option.some.inj h
    have hnone : s.files fileName = none := by simpa using habsent
    exact nextUpload_inv (hinv.owned.write hnone rfl rfl rfl)
      (hloop.write hname.1 hname.2 hnone rfl rfl rfl rfl rfl)

theorem writeFails_keeps {left : Option Nat} (hinv : UploadInv initial uploads s)
    (horderly : Orderly s (.writeFails left) t)
    (h : s.step isControl (.writeFails left) = some t) : UploadInv initial uploads t := by
  obtain rfl : left = none := horderly
  unfold UploadState.step at h
  cases hphase : s.phase <;> simp only [hphase, reduceCtorEq] at h
  obtain rfl := Option.some.inj h
  exact raise_inv hinv.owned

theorem enqueued_keeps {trackId : Option String} (hinv : UploadInv initial uploads s)
    (h : s.step isControl (.enqueued trackId) = some t) : UploadInv initial uploads t := by
  unfold UploadState.step at h
  cases hphase : s.phase <;> simp only [hphase, reduceCtorEq] at h
  have huploads := hinv.phase
  unfold PhaseInv at huploads
  rw [hphase] at huploads
  have hloop := hinv.noneLeft (by rw [hphase]; trivial) (by rw [hphase]; rfl) huploads
  have hsplit : s.waiting = s.batch ++ s.waiting.drop maxBatchSize :=
    (List.take_append_drop maxBatchSize s.waiting).symm
  have hdrop : s.waiting.drop s.batch.length = s.waiting.drop maxBatchSize := by
    conv_lhs => rw [hsplit]
    exact List.drop_left
  split at h
  · obtain rfl := Option.some.inj h
    refine nextBatch_inv ?_ ?_ huploads
    · refine hinv.owned.queue (fun name hname => ?_) rfl rfl rfl
      have hwaits : name ∈ s.waiting := List.mem_of_mem_take hname
      exact ⟨(hloop.waits name).mp hwaits, hloop.written name hwaits⟩
    · refine hloop.take hsplit (fun _ _ => rfl) hdrop rfl ?_
      refine List.perm_iff_count.mpr fun name => ?_
      simp only [UploadState.disown, List.count_append]
      omega
  · obtain rfl := Option.some.inj h
    refine ⟨hinv.owned.congr rfl rfl rfl, fun _ => ?_, ⟨huploads, List.take_prefix _ _⟩,
      fun hended => by cases hended⟩
    simp only [UploadPhase.inHand, huploads, List.append_nil]
    exact hloop.congr rfl rfl rfl rfl rfl

theorem removes_keeps (hinv : UploadInv initial uploads s)
    (h : s.step isControl .removes = some t) : UploadInv initial uploads t := by
  unfold UploadState.step at h
  cases hphase : s.phase <;> simp only [hphase, reduceCtorEq] at h
  case removing targets message =>
    have hknown := hinv.phase
    unfold PhaseInv at hknown
    rw [hphase] at hknown
    obtain ⟨huploads, after, hsplit⟩ := hknown
    have hloop := hinv.noneLeft (by rw [hphase]; trivial) (by rw [hphase]; rfl) huploads
    have hdrop : s.waiting.drop targets.length = after := by
      rw [← hsplit]
      exact List.drop_left
    have hgone : ∀ name ∈ targets, unlink s.files targets name = none := fun name hname =>
      if_pos hname
    have hunowned : ∀ name ∈ targets, name ∈ s.unowned := fun name hname =>
      (hloop.waits name).mp (by rw [← hsplit]; exact List.mem_append_left _ hname)
    have hapart : ∀ name ∈ after, name ∉ targets := by
      have hnodup := hloop.nodup
      rw [← hsplit] at hnodup
      exact fun name hname hin => (List.nodup_append.mp hnodup).2.2 name hin name hname rfl
    have hremoved : Owned initial uploads { s with files := unlink s.files targets } :=
      hinv.owned.unlink hunowned rfl rfl rfl
    obtain rfl := Option.some.inj h
    refine nextBatch_inv (hremoved.forget hgone rfl rfl rfl) ?_ huploads
    refine hloop.take hsplit.symm (fun name hname => if_neg (hapart name hname)) hdrop rfl ?_
    refine List.perm_iff_count.mpr fun name => ?_
    have hnames : (targets.map (RejectedUpload.mk · message)).map RejectedUpload.fileName =
        targets := by
      rw [List.map_map]
      exact List.map_id _
    simp only [UploadState.disown, List.map_append, hnames, List.count_append]
    omega
  case cleaning =>
    obtain rfl := Option.some.inj h
    refine ⟨hinv.owned.unlink (fun _ hname => hname) rfl rfl rfl, fun hforward => hforward.elim,
      trivial, fun _ name hnew hfile => ?_⟩
    have hnot : name ∉ s.unowned := fun hmem => hfile (if_pos hmem)
    have hsame : unlink s.files s.unowned name = s.files name := if_neg hnot
    exact (hinv.owned.known name hnew (by rw [← hsame]; exact hfile)).resolve_left hnot

theorem leaves_keeps (hinv : UploadInv initial uploads s)
    (h : s.step isControl .leaves = some t) : UploadInv initial uploads t := by
  unfold UploadState.step at h
  cases hphase : s.phase <;> simp only [hphase, reduceCtorEq] at h
  have hknown := hinv.phase
  unfold PhaseInv at hknown
  rw [hphase] at hknown
  obtain rfl := Option.some.inj h
  refine ⟨hinv.owned.congr rfl rfl rfl, fun _ => ?_, ⟨hknown.1, hknown.2, rfl⟩,
    fun hended => by cases hended⟩
  have hloop := hinv.loop (by rw [hphase]; trivial)
  rw [hphase] at hloop
  exact hloop.congr rfl rfl rfl rfl rfl

theorem fails_keeps (hinv : UploadInv initial uploads s)
    (h : s.step isControl .fails = some t) : UploadInv initial uploads t := by
  unfold UploadState.step at h
  cases hphase : s.phase <;> simp only [hphase, reduceCtorEq] at h
  case enqueueing =>
    have huploads := hinv.phase
    unfold PhaseInv at huploads
    rw [hphase] at huploads
    have hloop := hinv.noneLeft (by rw [hphase]; trivial) (by rw [hphase]; rfl) huploads
    obtain rfl := Option.some.inj h
    refine ⟨hinv.owned.congr rfl rfl rfl, fun _ => ?_, ⟨huploads, List.prefix_rfl⟩,
      fun hended => by cases hended⟩
    simp only [UploadPhase.inHand, huploads, List.append_nil]
    exact hloop.congr rfl rfl rfl rfl rfl
  all_goals
    obtain rfl := Option.some.inj h
    exact raise_inv hinv.owned

theorem cancelled_keeps {removed : List String} (hinv : UploadInv initial uploads s)
    (horderly : Orderly s (.cancelled removed) t)
    (h : s.step isControl (.cancelled removed) = some t) : UploadInv initial uploads t := by
  unfold UploadState.step at h
  cases hphase : s.phase <;> simp only [hphase, reduceCtorEq] at h
  case writing upload fileName content =>
    obtain rfl := Option.some.inj h
    exact raise_inv (hinv.owned.congr rfl rfl rfl)
  case removing targets message =>
    have hknown := hinv.phase
    unfold PhaseInv at hknown
    rw [hphase] at hknown
    obtain ⟨huploads, after, hsplit⟩ := hknown
    have hloop := hinv.noneLeft (by rw [hphase]; trivial) (by rw [hphase]; rfl) huploads
    obtain rfl := Option.some.inj h
    refine raise_inv (hinv.owned.unlink (fun name hname => ?_) rfl rfl rfl)
    rw [List.mem_filter, decide_eq_true_iff] at hname
    exact (hloop.waits name).mp (by rw [← hsplit]; exact List.mem_append_left _ hname.2)
  case cleaning =>
    obtain rfl := Option.some.inj h
    refine ⟨hinv.owned.unlink (fun name hname => ?_) rfl rfl rfl, fun hforward => hforward.elim,
      trivial, fun _ name hnew hfile => ?_⟩
    · rw [List.mem_filter, decide_eq_true_iff] at hname
      exact hname.2
    · have hnot : name ∉ s.unowned := by
        intro hmem
        refine hfile (if_pos ?_)
        rw [List.mem_filter, decide_eq_true_iff]
        exact ⟨horderly hphase name hmem, hmem⟩
      have hsame : unlink s.files (removed.filter (· ∈ s.unowned)) name = s.files name := by
        refine if_neg (fun hmem => hnot ?_)
        rw [List.mem_filter, decide_eq_true_iff] at hmem
        exact hmem.2
      exact (hinv.owned.known name hnew (by rw [← hsame]; exact hfile)).resolve_left hnot
  all_goals
    obtain rfl := Option.some.inj h
    exact raise_inv hinv.owned

/-- A thread that finds a file changes nothing. -/
theorem threadWrites_keeps {left : Option Nat} (hinv : UploadInv initial uploads s)
    (horderly : Orderly s (.threadWrites left) t)
    (h : s.step isControl (.threadWrites left) = some t) : UploadInv initial uploads t := by
  unfold UploadState.step at h
  simp only at h
  split at h
  · rename_i fileName content rest hpending
    have hthere : (s.files fileName).isSome = true :=
      Option.isSome_iff_ne_none.mpr (horderly fileName content rest hpending)
    rw [if_pos hthere] at h
    obtain rfl := Option.some.inj h
    exact ⟨hinv.owned.congr rfl rfl rfl, fun hforward =>
      (hinv.loop hforward).congr rfl rfl rfl rfl rfl, hinv.phase, hinv.gone⟩
  · cases h

theorem threadDrops_keeps (hinv : UploadInv initial uploads s)
    (h : s.step isControl .threadDrops = some t) : UploadInv initial uploads t := by
  unfold UploadState.step at h
  simp only at h
  split at h
  · obtain rfl := Option.some.inj h
    exact ⟨hinv.owned.congr rfl rfl rfl, fun hforward =>
      (hinv.loop hforward).congr rfl rfl rfl rfl rfl, hinv.phase, hinv.gone⟩
  · cases h

/-- **One step keeps the invariant.** -/
theorem step_keeps {event : UploadEvent} (hinv : UploadInv initial uploads s)
    (horderly : Orderly s event t) (h : s.step isControl event = some t) :
    UploadInv initial uploads t := by
  cases event with
  | enters => exact enters_keeps hinv h
  | lookedUp found => exact lookedUp_keeps hinv h
  | reads => exact reads_keeps hinv h
  | writes => exact writes_keeps hinv h
  | writeFails left => exact writeFails_keeps hinv horderly h
  | enqueued trackId => exact enqueued_keeps hinv h
  | removes => exact removes_keeps hinv h
  | leaves => exact leaves_keeps hinv h
  | fails => exact fails_keeps hinv h
  | cancelled removed => exact cancelled_keeps hinv horderly h
  | threadWrites left => exact threadWrites_keeps hinv horderly h
  | threadDrops => exact threadDrops_keeps hinv h

end Steps

/-- A call begins with what is there. -/
theorem startUpload_inv (initial : SourceFiles) (uploads : List Upload) :
    UploadInv initial uploads (startUpload initial uploads) := by
  have howned : Owned initial uploads (startUpload initial uploads) :=
    ⟨fun _ _ h => h, fun name hnone hfile => absurd hnone hfile, by simp [startUpload],
      by simp [startUpload], by simp [startUpload]⟩
  have hloop : Loop uploads uploads (startUpload initial uploads) :=
    ⟨by simp [startUpload], by simp [startUpload], by simp [startUpload],
      by simp [startUpload], fun _ h => h⟩
  refine ⟨howned, fun hforward => ?_, ?_, fun _ name hnone hfile => absurd hnone hfile⟩
  · unfold startUpload at hforward ⊢
    by_cases hempty : uploads = []
    · simp only [hempty, if_true] at hforward
      exact hforward.elim
    · simp only [if_neg hempty]
      exact hloop.congr rfl rfl rfl rfl rfl
  · unfold startUpload PhaseInv
    by_cases hempty : uploads = []
    · simp only [hempty, if_true]
    · simp only [if_neg hempty]

/-- **An upload leaves no orphans**, in every run whose steps are orderly. -/
theorem upload_no_orphans (isControl : Char → Bool) (initial : SourceFiles)
    (uploads : List Upload) {s t : UploadState} {events : List UploadEvent}
    (hstart : (uploadMachine isControl initial uploads).Start s)
    (horderly : StepsMeet (uploadMachine isControl initial uploads) Orderly s events)
    (hrun : exec (uploadMachine isControl initial uploads) s events = some t) :
    NoOrphans initial uploads t := by
  have hinv : UploadInv initial uploads t := by
    refine exec_invariant (m := uploadMachine isControl initial uploads)
      (fun s a t hs hc hstep => step_keeps hs hc hstep) ?_ horderly hrun
    rw [show s = startUpload initial uploads from hstart]
    exact startUpload_inv initial uploads
  refine ⟨hinv.owned.kept, hinv.gone, fun response hphase => ?_⟩
  have hknown := hinv.phase
  unfold PhaseInv at hknown
  rw [hphase] at hknown
  obtain ⟨huploads, hwaiting, rfl⟩ := hknown
  have hloop := hinv.loop (by rw [hphase]; trivial)
  rw [hphase, huploads] at hloop
  refine ⟨?_, fun name hname => (hinv.owned.complete name hname).2, fun name hnew hfile => ?_⟩
  · simpa [UploadPhase.inHand, hwaiting] using hloop.counted
  · refine (hinv.owned.known name hnew hfile).resolve_left (fun hmem => ?_)
    rw [← hloop.waits, hwaiting] at hmem
    cases hmem

/-! ### Orphans -/

/-- One short document. -/
def oneUpload : List Upload := [⟨some "notes.md", [104, 105]⟩]

/-- The folder is empty. -/
def noFiles : SourceFiles := fun _ => none

/-- No space is left after the first byte. -/
def diskFull : List UploadEvent :=
  [.enters, .lookedUp false, .reads, .writeFails (some 1), .removes]

/-- The request is cancelled while its document is written. -/
def cancelledWrite : List UploadEvent :=
  [.enters, .lookedUp false, .reads, .cancelled [], .removes, .threadWrites none]

/-- A write that fails half way, and one that goes on after a cancellation, leave
a file that nothing removes. -/
theorem orphan_left :
    (∃ t, exec (uploadMachine (fun _ => false) noFiles oneUpload) (startUpload noFiles oneUpload)
        diskFull = some t ∧ t.files "notes.md" = some [104] ∧ ¬ NoOrphans noFiles oneUpload t) ∧
      ∃ t, exec (uploadMachine (fun _ => false) noFiles oneUpload) (startUpload noFiles oneUpload)
        cancelledWrite = some t ∧ t.pending = [] ∧ ¬ NoOrphans noFiles oneUpload t := by
  constructor
  · refine ⟨_, rfl, rfl, fun hnone => ?_⟩
    have hqueued := hnone.raised rfl "notes.md" rfl (fun hgone => by cases hgone)
    cases hqueued
  · refine ⟨_, rfl, rfl, fun hnone => ?_⟩
    have hqueued := hnone.raised rfl "notes.md" rfl (fun hgone => by cases hgone)
    cases hqueued

/-- The document is queued. -/
def queuedUpload : List UploadEvent :=
  [.enters, .lookedUp false, .reads, .writes, .enqueued (some "track"), .leaves]

theorem upload_no_orphans_queued :
    StepsMeet (uploadMachine (fun _ => false) noFiles oneUpload) Orderly
        (startUpload noFiles oneUpload) queuedUpload ∧
      ∃ t, exec (uploadMachine (fun _ => false) noFiles oneUpload) (startUpload noFiles oneUpload)
        queuedUpload = some t ∧ NoOrphans noFiles oneUpload t := by
  have horderly : StepsMeet (uploadMachine (fun _ => false) noFiles oneUpload) Orderly
      (startUpload noFiles oneUpload) queuedUpload :=
    stepsMeet_cons rfl trivial (stepsMeet_cons rfl trivial (stepsMeet_cons rfl trivial
      (stepsMeet_cons rfl trivial (stepsMeet_cons rfl trivial (stepsMeet_cons rfl trivial
        trivial)))))
  obtain ⟨t, hrun⟩ := Option.isSome_iff_exists.mp (show (exec (uploadMachine (fun _ => false) noFiles
    oneUpload) (startUpload noFiles oneUpload) queuedUpload).isSome = true by decide +kernel)
  exact ⟨horderly, t, hrun, upload_no_orphans (fun _ => false) noFiles oneUpload rfl horderly hrun⟩

end Workbench.DocumentUpload
