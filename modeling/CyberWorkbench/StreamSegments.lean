import Mathlib
import CyberWorkbench.LastWrite
import CyberWorkbench.PythonValues

/-!
# Segments of a model's stream

`core/runtime/events.SdkStreamEventNormalizer` gives the text of a stream to
segments: a segment is named by what the provider says of its place and by a
response counter, which lifecycle events and run items open and close.
`core/runtime/partial_context` collects the deltas, and completes what the
provider has left open.

* `segmentId_eq_iff`: two events carry one identifier exactly when they are
  about one segment, which nothing between them ends;
* `coherent_emitted`: a delta carries the whole text of its segment so far,
  which is not completed;
* `completed_at_end`: every segment with text is completed.

What `_from_run_item` makes of a tool item is a parameter.
-/

namespace Workbench.StreamSegments

open LastWrite

/-! ### The normalizer -/

inductive SegmentKind where
  | text
  | thinking
  deriving DecidableEq, Repr

def SegmentKind.value : SegmentKind → String
  | .text => "text"
  | .thinking => "thinking"

/-- `_StreamSegmentKey`. -/
structure SegmentKey where
  kind : SegmentKind
  responseIndex : Nat := 0
  outputIndex : Int := -1
  contentIndex : Int := -1
  summaryIndex : Int := -1
  deriving DecidableEq, Repr

/-- `_StreamSegment`. -/
structure Segment where
  segmentId : String
  text : String := ""
  complete : Bool := false
  deriving DecidableEq, Repr

/-- `SdkStreamEventNormalizer`. -/
structure Normalizer where
  segments : List (SegmentKey × Segment) := []
  nextSegmentIndex : Nat := 1
  responseIndex : Nat := 0
  responseOpen : Bool := false
  segmentScope : String

/-- What a raw event says. -/
inductive RawData where
  | textDelta (outputIndex contentIndex : Int) (delta : String)
  | textDone (outputIndex contentIndex : Int) (text : String)
  | reasoningTextDelta (outputIndex contentIndex : Int) (delta : String)
  | reasoningTextDone (outputIndex contentIndex : Int) (text : String)
  | reasoningSummaryTextDelta (outputIndex summaryIndex : Int) (delta : String)
  | reasoningSummaryTextDone (outputIndex summaryIndex : Int) (text : String)
  | error (message : String) (code : Option String)
  | created
  | completed
  | failed
  | incomplete
  | other

/-- An event of the SDK.  `tool` is what `_from_run_item` makes of the item. -/
inductive SdkEvent (Tool : Type) where
  | raw (data : RawData)
  | runItem (name : String) (tool : Option Tool)
  | other

/-- An event of the application. -/
inductive StreamEvent (Tool : Type) where
  | delta (kind : SegmentKind) (agentName segmentId delta text : String)
  | complete (kind : SegmentKind) (agentName segmentId text : String)
  | error (agentName message code : String)
  | tool (event : Tool)

variable {Tool : Type}

/-- `_RUN_ITEM_RESPONSE_BOUNDARIES`. -/
def runItemResponseBoundaries : List String :=
  ["message_output_created", "reasoning_item_created", "tool_called", "tool_output",
    "tool_search_called", "tool_search_output_created", "handoff_requested", "handoff_occured",
    "mcp_approval_requested", "mcp_approval_response", "mcp_list_tools"]

namespace Normalizer

/-- `__init__`. -/
def init (segmentScope : String) : Normalizer := { segmentScope := PythonValues.strip segmentScope }

/-- `_scoped_segment_id`. -/
def scopedSegmentId (n : Normalizer) (kind : SegmentKind) (index : Nat) : String :=
  if n.segmentScope = "" then kind.value ++ "_" ++ toString index
  else n.segmentScope ++ "_" ++ kind.value ++ "_" ++ toString index

/-- `_begin_response`. -/
def beginResponse (n : Normalizer) : Normalizer :=
  { n with responseIndex := n.responseIndex + 1, responseOpen := true }

/-- Reading `response_index` begins a response if none is open. -/
def openResponse (n : Normalizer) : Normalizer := if n.responseOpen then n else n.beginResponse

/-- `segment_id`: the segment of the key, a new one if there is none, or if it
is complete and goes on. -/
def segmentAt (n : Normalizer) (key : SegmentKey) (complete : Bool) : Segment × Normalizer :=
  let found := lookup n.segments key
  match found.filter fun segment => !(segment.complete && !complete) with
  | some segment =>
      let segment := { segment with complete := segment.complete || complete }
      (segment, { n with segments := write key segment n.segments })
  | none =>
      let segment :=
        { segmentId := n.scopedSegmentId key.kind n.nextSegmentIndex, complete := complete : Segment }
      (segment, { n with
        segments := write key segment n.segments
        nextSegmentIndex := n.nextSegmentIndex + 1 })

/-- `append_delta`. -/
def appendDelta (n : Normalizer) (key : SegmentKey) (delta : String) : Segment × Normalizer :=
  let (segment, n) := n.segmentAt key false
  let segment := { segment with text := segment.text ++ delta }
  (segment, { n with segments := write key segment n.segments })

/-- `complete_text`. -/
def completeText (n : Normalizer) (key : SegmentKey) (text : String) : Segment × Normalizer :=
  let (segment, n) := n.segmentAt key true
  let segment := { segment with text := text }
  (segment, { n with segments := write key segment n.segments })

/-- `_handle_response_lifecycle`: `none` for an event that is none of these. -/
def handleResponseLifecycle (n : Normalizer) : RawData → Option Normalizer
  | .created => some n.beginResponse
  | .completed | .failed | .incomplete => some { n with responseOpen := false }
  | _ => none

end Normalizer

/-- `_text_segment_key`. -/
def textSegmentKey (outputIndex contentIndex : Int) (responseIndex : Nat) : SegmentKey :=
  { kind := .text, responseIndex := responseIndex, outputIndex := outputIndex,
    contentIndex := contentIndex }

/-- `_thinking_text_segment_key`. -/
def thinkingTextSegmentKey (outputIndex contentIndex : Int) (responseIndex : Nat) : SegmentKey :=
  { kind := .thinking, responseIndex := responseIndex, outputIndex := outputIndex,
    contentIndex := contentIndex }

/-- `_thinking_summary_segment_key`. -/
def thinkingSummarySegmentKey (outputIndex summaryIndex : Int) (responseIndex : Nat) : SegmentKey :=
  { kind := .thinking, responseIndex := responseIndex, outputIndex := outputIndex,
    summaryIndex := summaryIndex }

/-- A delta, given to its segment. -/
def deltaEvent (n : Normalizer) (kind : SegmentKind) (key : Nat → SegmentKey) (agentName delta : String) :
    Option (StreamEvent Tool) × Normalizer :=
  let n := n.openResponse
  let (segment, n) := n.appendDelta (key n.responseIndex) delta
  (some (.delta kind agentName segment.segmentId delta segment.text), n)

/-- The end of a segment. -/
def completeEvent (n : Normalizer) (kind : SegmentKind) (key : Nat → SegmentKey)
    (agentName text : String) : Option (StreamEvent Tool) × Normalizer :=
  let n := n.openResponse
  let (segment, n) := n.completeText (key n.responseIndex) text
  (some (.complete kind agentName segment.segmentId text), n)

/-- `_from_raw_response`. -/
def fromRawResponse (n : Normalizer) (agentName : String) :
    RawData → Option (StreamEvent Tool) × Normalizer
  | .textDelta outputIndex contentIndex delta =>
      deltaEvent n .text (textSegmentKey outputIndex contentIndex) agentName delta
  | .textDone outputIndex contentIndex text =>
      completeEvent n .text (textSegmentKey outputIndex contentIndex) agentName text
  | .reasoningTextDelta outputIndex contentIndex delta =>
      deltaEvent n .thinking (thinkingTextSegmentKey outputIndex contentIndex) agentName delta
  | .reasoningTextDone outputIndex contentIndex text =>
      completeEvent n .thinking (thinkingTextSegmentKey outputIndex contentIndex) agentName text
  | .reasoningSummaryTextDelta outputIndex summaryIndex delta =>
      deltaEvent n .thinking (thinkingSummarySegmentKey outputIndex summaryIndex) agentName delta
  | .reasoningSummaryTextDone outputIndex summaryIndex text =>
      completeEvent n .thinking (thinkingSummarySegmentKey outputIndex summaryIndex) agentName text
  | .error message code => (some (.error agentName message (code.getD "")), n)
  | .created | .completed | .failed | .incomplete | .other => (none, n)

/-- `event_from_sdk_stream`. -/
def eventFromSdkStream (n : Normalizer) (agentName : String) :
    SdkEvent Tool → Option (StreamEvent Tool) × Normalizer
  | .raw data =>
      match n.handleResponseLifecycle data with
      | some n => (none, n)
      | none => fromRawResponse n agentName data
  | .runItem name tool =>
      (tool.map .tool,
        if name ∈ runItemResponseBoundaries then { n with responseOpen := false } else n)
  | .other => (none, n)

/-! ### Runs -/

section Runs

variable (agentName segmentScope : String)

/-- The normalizer after a stream. -/
def after (stream : List (SdkEvent Tool)) : Normalizer :=
  stream.foldl (fun n event => (eventFromSdkStream n agentName event).2) (.init segmentScope)

/-- What an event becomes after the stream before it. -/
def emitted (before : List (SdkEvent Tool)) (event : SdkEvent Tool) : Option (StreamEvent Tool) :=
  (eventFromSdkStream (after agentName segmentScope before) agentName event).1

/-- Emit the events of a stream from a normalizer on. -/
def emitFrom : Normalizer → List (SdkEvent Tool) → List (StreamEvent Tool)
  | _, [] => []
  | n, event :: rest =>
      (eventFromSdkStream n agentName event).1.toList ++
        emitFrom (eventFromSdkStream n agentName event).2 rest

/-- All that is emitted. -/
def emittedEvents (stream : List (SdkEvent Tool)) : List (StreamEvent Tool) :=
  emitFrom agentName (.init segmentScope) stream

end Runs

/-! ### Partial context -/

/-- `DeltaBuffer`. -/
structure DeltaBuffer where
  isThinking : Bool
  segmentId : String
  content : String := ""
  complete : Bool := false
  deriving DecidableEq, Repr

abbrev Buffers := List (String × DeltaBuffer)

/-- The buffer of a segment, an empty one if there is none. -/
def bufferFor (buffers : Buffers) (kind : SegmentKind) (segmentId : String) : DeltaBuffer :=
  (lookup buffers segmentId).getD { isThinking := decide (kind = .thinking), segmentId := segmentId }

/-- `track_delta`. -/
def trackDelta (buffers : Buffers) : StreamEvent Tool → Buffers
  | .delta kind _ segmentId delta _ =>
      let buffer := bufferFor buffers kind segmentId
      write segmentId { buffer with content := buffer.content ++ delta } buffers
  | .complete kind _ segmentId text =>
      let buffer := bufferFor buffers kind segmentId
      write segmentId { buffer with content := text, complete := true } buffers
  | .error .. | .tool _ => buffers

/-- The kind of the event that completes a buffer. -/
def DeltaBuffer.kind (buffer : DeltaBuffer) : SegmentKind :=
  if buffer.isThinking then .thinking else .text

/-- `incomplete_segment_events`. -/
def incompleteSegmentEvents (buffers : Buffers) (agentName : String) : List (StreamEvent Tool) :=
  buffers.filterMap fun entry =>
    if entry.2.content = "" ∨ entry.2.complete = true then none
    else some (.complete entry.2.kind agentName entry.2.segmentId entry.2.content)

/-- What a turn publishes when its stream ends normally. -/
def published (agentName segmentScope : String) (stream : List (SdkEvent Tool)) :
    List (StreamEvent Tool) :=
  emittedEvents agentName segmentScope stream ++
    incompleteSegmentEvents
      ((emittedEvents agentName segmentScope stream).foldl trackDelta []) agentName

/-! ### What belongs together -/

/-- An event that is about a segment: the coordinates that the provider gives
(a key without a response), and whether it is the end of the segment. -/
structure TextPart where
  coordinates : SegmentKey
  isDone : Bool
  text : String

def textPart? : SdkEvent Tool → Option TextPart
  | .raw (.textDelta outputIndex contentIndex delta) =>
      some ⟨textSegmentKey outputIndex contentIndex 0, false, delta⟩
  | .raw (.textDone outputIndex contentIndex text) =>
      some ⟨textSegmentKey outputIndex contentIndex 0, true, text⟩
  | .raw (.reasoningTextDelta outputIndex contentIndex delta) =>
      some ⟨thinkingTextSegmentKey outputIndex contentIndex 0, false, delta⟩
  | .raw (.reasoningTextDone outputIndex contentIndex text) =>
      some ⟨thinkingTextSegmentKey outputIndex contentIndex 0, true, text⟩
  | .raw (.reasoningSummaryTextDelta outputIndex summaryIndex delta) =>
      some ⟨thinkingSummarySegmentKey outputIndex summaryIndex 0, false, delta⟩
  | .raw (.reasoningSummaryTextDone outputIndex summaryIndex text) =>
      some ⟨thinkingSummarySegmentKey outputIndex summaryIndex 0, true, text⟩
  | _ => none

/-- A response ends, or another one begins. -/
def endsResponse : SdkEvent Tool → Bool
  | .raw .created | .raw .completed | .raw .failed | .raw .incomplete => true
  | .runItem name _ => decide (name ∈ runItemResponseBoundaries)
  | _ => false

/-- A segment with these coordinates, completed or not, after a stream: `none`
if the stream ends its response, or gives it a delta once it is completed. -/
def continues (coordinates : SegmentKey) : Bool → List (SdkEvent Tool) → Option Bool
  | completed, [] => some completed
  | completed, event :: rest =>
      if endsResponse event then none
      else
        match textPart? event with
        | none => continues coordinates completed rest
        | some part =>
            if part.coordinates = coordinates then
              if completed && !part.isDone then none
              else continues coordinates (completed || part.isDone) rest
            else continues coordinates completed rest

/-- **One segment.**  The second event is about the segment of the first. -/
def SameSegment (first : SdkEvent Tool) (between : List (SdkEvent Tool)) (second : SdkEvent Tool) :
    Prop :=
  ∃ part part', textPart? first = some part ∧ textPart? second = some part' ∧
    part'.coordinates = part.coordinates ∧
    ∃ completed, continues part.coordinates part.isDone between = some completed ∧
      (completed = true → part'.isDone = true)

/-- The segment that an event is about. -/
def StreamEvent.segmentId? : StreamEvent Tool → Option String
  | .delta _ _ segmentId _ _ => some segmentId
  | .complete _ _ segmentId _ => some segmentId
  | .error .. | .tool _ => none

/-! ### Identifiers -/

/-- The identifier shows the kind and the number. -/
theorem scopedSegmentId_inj {n : Normalizer} {kind kind' : SegmentKind} {i j : Nat}
    (h : n.scopedSegmentId kind i = n.scopedSegmentId kind' j) : i = j := by
  unfold Normalizer.scopedSegmentId at h
  split at h
  · have hlist := congrArg String.toList h
    cases kind <;> cases kind' <;>
      simp [SegmentKind.value, String.toList_append] at hlist
    all_goals exact Nat.repr_injective (congrArg String.ofList hlist)
  · have hlist := congrArg String.toList h
    cases kind <;> cases kind' <;>
      simp [SegmentKind.value, String.toList_append] at hlist
    all_goals exact Nat.repr_injective (congrArg String.ofList hlist)

/-! ### One event -/

/-- The key of coordinates in a response. -/
def SegmentKey.inResponse (coordinates : SegmentKey) (responseIndex : Nat) : SegmentKey :=
  { coordinates with responseIndex := responseIndex }

/-- The response that the next text is given to. -/
def Normalizer.nextResponse (n : Normalizer) : Nat := n.openResponse.responseIndex

/-- The event that gives a part of the text to its segment. -/
def TextPart.event (part : TextPart) (agentName : String) (segment : Segment) : StreamEvent Tool :=
  if part.isDone then .complete part.coordinates.kind agentName segment.segmentId part.text
  else .delta part.coordinates.kind agentName segment.segmentId part.text segment.text

/-- What a text event does: the segment under its key is an old one that goes
on, or a new one. -/
structure Takes (n n' : Normalizer) (part : TextPart) (segment : Segment) : Prop where
  isOpen : n'.responseOpen = true
  responseIndex : n'.responseIndex = n.nextResponse
  scope : n'.segmentScope = n.segmentScope
  here : lookup n'.segments (part.coordinates.inResponse n.nextResponse) = some segment
  others : ∀ key, key ≠ part.coordinates.inResponse n.nextResponse →
    lookup n'.segments key = lookup n.segments key
  complete : segment.complete = part.isDone
  source : (∃ old, lookup n.segments (part.coordinates.inResponse n.nextResponse) = some old ∧
      (old.complete = true → part.isDone = true) ∧ segment.segmentId = old.segmentId ∧
      (part.isDone = false → segment.text = old.text ++ part.text) ∧
      n'.nextSegmentIndex = n.nextSegmentIndex) ∨
    ((∀ old, lookup n.segments (part.coordinates.inResponse n.nextResponse) = some old →
        old.complete = true ∧ part.isDone = false) ∧
      segment.segmentId = n.scopedSegmentId part.coordinates.kind n.nextSegmentIndex ∧
      (part.isDone = false → segment.text = part.text) ∧
      n'.nextSegmentIndex = n.nextSegmentIndex + 1)

section Step

variable (n : Normalizer) (agentName : String) {event : SdkEvent Tool} {part : TextPart}

theorem openResponse_isOpen (n : Normalizer) : n.openResponse.responseOpen = true := by
  unfold Normalizer.openResponse
  split
  · assumption
  · rfl

theorem openResponse_segments (n : Normalizer) : n.openResponse.segments = n.segments ∧
    n.openResponse.nextSegmentIndex = n.nextSegmentIndex ∧
    n.openResponse.segmentScope = n.segmentScope := by
  unfold Normalizer.openResponse
  split <;> exact ⟨rfl, rfl, rfl⟩

/-- Giving a segment another text. -/
theorem lookup_write_write {m : List (SegmentKey × Segment)} {key : SegmentKey}
    (first second : Segment) : lookup (write key second (write key first m)) key = some second ∧
    ∀ other, other ≠ key → lookup (write key second (write key first m)) other = lookup m other := by
  refine ⟨by rw [lookup_write, if_pos rfl], fun other hne => ?_⟩
  rw [lookup_write, if_neg hne.symm, lookup_write, if_neg hne.symm]

/-- The segment of a key, before its text is set. -/
theorem segmentAt_spec (n : Normalizer) (key : SegmentKey) (isDone : Bool) :
    (∃ old, lookup n.segments key = some old ∧ (old.complete = true → isDone = true) ∧
        n.segmentAt key isDone = ({ old with complete := isDone },
          { n with segments := write key { old with complete := isDone } n.segments })) ∨
      ((∀ old, lookup n.segments key = some old → old.complete = true ∧ isDone = false) ∧
        n.segmentAt key isDone =
          ({ segmentId := n.scopedSegmentId key.kind n.nextSegmentIndex, complete := isDone },
            { n with
              segments := write key
                { segmentId := n.scopedSegmentId key.kind n.nextSegmentIndex, complete := isDone }
                n.segments
              nextSegmentIndex := n.nextSegmentIndex + 1 })) := by
  unfold Normalizer.segmentAt
  cases hlookup : lookup n.segments key with
  | none => exact .inr ⟨(fun old h => by cases h), rfl⟩
  | some old =>
      obtain ⟨segmentId, text, complete⟩ := old
      cases complete with
      | false => exact .inl ⟨_, rfl, fun h => (by cases h), by simp [Option.filter]⟩
      | true =>
          cases isDone with
          | true => exact .inl ⟨_, rfl, fun _ => rfl, by simp [Option.filter]⟩
          | false =>
              refine .inr ⟨fun old h => ?_, by simp [Option.filter]⟩
              obtain rfl := Option.some.inj h
              exact ⟨rfl, rfl⟩

/-- The step of a delta. -/
theorem takes_of_delta (n : Normalizer) (part : TextPart) (hdone : part.isDone = false)
    (agentName : String) : ∃ segment,
    (deltaEvent n part.coordinates.kind part.coordinates.inResponse agentName part.text :
        Option (StreamEvent Tool) × Normalizer).1 = some (part.event agentName segment) ∧
      Takes n (deltaEvent n part.coordinates.kind part.coordinates.inResponse agentName part.text :
        Option (StreamEvent Tool) × Normalizer).2 part segment := by
  obtain ⟨hsegments, hnext, hscope⟩ := openResponse_segments n
  unfold deltaEvent Normalizer.appendDelta TextPart.event
  rcases segmentAt_spec n.openResponse (part.coordinates.inResponse n.openResponse.responseIndex) false
    with ⟨old, hold, hgoes, hat⟩ | ⟨hnone, hat⟩
  · simp only [hat, hdone]
    refine ⟨{ old with text := old.text ++ part.text, complete := false }, rfl,
      openResponse_isOpen n, rfl, hscope, (lookup_write_write _ _).1, ?_, hdone.symm, .inl ?_⟩
    · intro key hne
      rw [← hsegments]
      exact (lookup_write_write _ _).2 key hne
    · rw [hsegments] at hold
      exact ⟨old, hold, fun h => hdone.trans (hgoes h).symm.symm, rfl, fun _ => rfl, hnext⟩
  · simp only [hat, hdone]
    refine ⟨⟨n.openResponse.scopedSegmentId part.coordinates.kind n.openResponse.nextSegmentIndex,
      "" ++ part.text, false⟩, rfl,
      openResponse_isOpen n, rfl, hscope, (lookup_write_write _ _).1, ?_, hdone.symm, .inr ?_⟩
    · intro key hne
      rw [← hsegments]
      exact (lookup_write_write _ _).2 key hne
    · rw [hsegments] at hnone
      refine ⟨fun old h => ⟨(hnone old h).1, hdone⟩, ?_, fun _ => String.empty_append, by rw [← hnext]⟩
      unfold Normalizer.scopedSegmentId
      rw [hscope, hnext]

/-- The step of the end of a segment. -/
theorem takes_of_complete (n : Normalizer) (part : TextPart) (hdone : part.isDone = true)
    (agentName : String) : ∃ segment,
    (completeEvent n part.coordinates.kind part.coordinates.inResponse agentName part.text :
        Option (StreamEvent Tool) × Normalizer).1 = some (part.event agentName segment) ∧
      Takes n (completeEvent n part.coordinates.kind part.coordinates.inResponse agentName part.text :
        Option (StreamEvent Tool) × Normalizer).2 part segment := by
  obtain ⟨hsegments, hnext, hscope⟩ := openResponse_segments n
  unfold completeEvent Normalizer.completeText TextPart.event
  rcases segmentAt_spec n.openResponse (part.coordinates.inResponse n.openResponse.responseIndex) true
    with ⟨old, hold, hgoes, hat⟩ | ⟨hnone, hat⟩
  · simp only [hat, hdone]
    refine ⟨{ old with text := part.text, complete := true }, rfl, openResponse_isOpen n, rfl, hscope,
      (lookup_write_write _ _).1, ?_, hdone.symm, .inl ?_⟩
    · intro key hne
      rw [← hsegments]
      exact (lookup_write_write _ _).2 key hne
    · rw [hsegments] at hold
      exact ⟨old, hold, fun _ => hdone, rfl, fun h => absurd h (by simp [hdone]), hnext⟩
  · simp only [hat, hdone]
    refine ⟨⟨n.openResponse.scopedSegmentId part.coordinates.kind n.openResponse.nextSegmentIndex,
      part.text, true⟩, rfl,
      openResponse_isOpen n, rfl, hscope, (lookup_write_write _ _).1, ?_, hdone.symm, .inr ?_⟩
    · intro key hne
      rw [← hsegments]
      exact (lookup_write_write _ _).2 key hne
    · rw [hsegments] at hnone
      refine ⟨fun old h => absurd (hnone old h).2 (by simp), ?_, fun _ => rfl, by rw [← hnext]⟩
      unfold Normalizer.scopedSegmentId
      rw [hscope, hnext]

/-- **The step of a text event.** -/
theorem takes_of_text (hpart : textPart? event = some part) : ∃ segment,
    (eventFromSdkStream n agentName event).1 = some (part.event agentName segment) ∧
      Takes n (eventFromSdkStream n agentName event).2 part segment := by
  cases event with
  | runItem name tool => cases hpart
  | other => cases hpart
  | raw data =>
      cases data with
      | textDelta outputIndex contentIndex delta =>
          obtain rfl := Option.some.inj hpart
          exact takes_of_delta n ⟨textSegmentKey outputIndex contentIndex 0, false, delta⟩ rfl agentName
      | textDone outputIndex contentIndex text =>
          obtain rfl := Option.some.inj hpart
          exact takes_of_complete n ⟨textSegmentKey outputIndex contentIndex 0, true, text⟩ rfl agentName
      | reasoningTextDelta outputIndex contentIndex delta =>
          obtain rfl := Option.some.inj hpart
          exact takes_of_delta n ⟨thinkingTextSegmentKey outputIndex contentIndex 0, false, delta⟩ rfl
            agentName
      | reasoningTextDone outputIndex contentIndex text =>
          obtain rfl := Option.some.inj hpart
          exact takes_of_complete n ⟨thinkingTextSegmentKey outputIndex contentIndex 0, true, text⟩ rfl
            agentName
      | reasoningSummaryTextDelta outputIndex summaryIndex delta =>
          obtain rfl := Option.some.inj hpart
          exact takes_of_delta n ⟨thinkingSummarySegmentKey outputIndex summaryIndex 0, false, delta⟩ rfl
            agentName
      | reasoningSummaryTextDone outputIndex summaryIndex text =>
          obtain rfl := Option.some.inj hpart
          exact takes_of_complete n ⟨thinkingSummarySegmentKey outputIndex summaryIndex 0, true, text⟩ rfl
            agentName
      | error message code => cases hpart
      | created => cases hpart
      | completed => cases hpart
      | failed => cases hpart
      | incomplete => cases hpart
      | other => cases hpart

/-- An event about no segment: it names none, and changes no segment. -/
structure Passes (n n' : Normalizer) (ends : Bool) : Prop where
  same : ends = false → n' = n
  segments : n'.segments = n.segments
  nextSegmentIndex : n'.nextSegmentIndex = n.nextSegmentIndex
  scope : n'.segmentScope = n.segmentScope
  responseIndex : n.responseIndex ≤ n'.responseIndex
  later : ends = true → n.responseIndex < n'.nextResponse

theorem passes_refl (n : Normalizer) : Passes n n false :=
  ⟨fun _ => rfl, rfl, rfl, rfl, Nat.le_refl _, fun h => by cases h⟩

theorem passes_begin (n : Normalizer) : Passes n n.beginResponse true :=
  ⟨(fun h => by cases h), rfl, rfl, rfl, Nat.le_succ _, fun _ => Nat.lt_succ_self _⟩

theorem passes_close (n : Normalizer) : Passes n { n with responseOpen := false } true :=
  ⟨(fun h => by cases h), rfl, rfl, rfl, Nat.le_refl _, fun _ => Nat.lt_succ_self _⟩

/-- **The step of any other event.** -/
theorem passes_of_other (hpart : textPart? event = none) :
    ((eventFromSdkStream n agentName event).1.bind StreamEvent.segmentId? = none) ∧
      Passes n (eventFromSdkStream n agentName event).2 (endsResponse event) := by
  cases event with
  | runItem name tool =>
      refine ⟨by cases tool <;> rfl, ?_⟩
      unfold eventFromSdkStream endsResponse
      by_cases hname : name ∈ runItemResponseBoundaries
      · simp only [hname, if_true, decide_true]
        exact passes_close n
      · simp only [hname, if_false, decide_false]
        exact passes_refl n
  | other => exact ⟨rfl, passes_refl n⟩
  | raw data =>
      cases data with
      | error message code => exact ⟨rfl, passes_refl n⟩
      | created => exact ⟨rfl, passes_begin n⟩
      | completed => exact ⟨rfl, passes_close n⟩
      | failed => exact ⟨rfl, passes_close n⟩
      | incomplete => exact ⟨rfl, passes_close n⟩
      | other => exact ⟨rfl, passes_refl n⟩
      | textDelta outputIndex contentIndex delta => cases hpart
      | textDone outputIndex contentIndex text => cases hpart
      | reasoningTextDelta outputIndex contentIndex delta => cases hpart
      | reasoningTextDone outputIndex contentIndex text => cases hpart
      | reasoningSummaryTextDelta outputIndex summaryIndex delta => cases hpart
      | reasoningSummaryTextDone outputIndex summaryIndex text => cases hpart

end Step

/-! ### The segments of a normalizer -/

/-- The segments have identifiers of their own, drawn before the next one, and
none belongs to a later response. -/
structure Sound (n : Normalizer) : Prop where
  drawn : ∀ key segment, lookup n.segments key = some segment →
    ∃ i, i < n.nextSegmentIndex ∧ segment.segmentId = n.scopedSegmentId key.kind i
  distinct : ∀ key key' segment segment', lookup n.segments key = some segment →
    lookup n.segments key' = some segment' → segment.segmentId = segment'.segmentId → key = key'
  bounded : ∀ key segment, lookup n.segments key = some segment →
    key.responseIndex ≤ n.responseIndex

theorem scopedSegmentId_congr {n n' : Normalizer} (h : n'.segmentScope = n.segmentScope)
    (kind : SegmentKind) (i : Nat) : n'.scopedSegmentId kind i = n.scopedSegmentId kind i := by
  unfold Normalizer.scopedSegmentId
  rw [h]

theorem responseIndex_le_nextResponse (n : Normalizer) : n.responseIndex ≤ n.nextResponse ∧
    n.nextResponse ≤ n.responseIndex + 1 := by
  unfold Normalizer.nextResponse Normalizer.openResponse
  split
  · exact ⟨Nat.le_refl _, Nat.le_succ _⟩
  · exact ⟨Nat.le_succ _, Nat.le_refl _⟩

theorem nextResponse_of_open {n : Normalizer} (h : n.responseOpen = true) :
    n.nextResponse = n.responseIndex := by
  unfold Normalizer.nextResponse Normalizer.openResponse
  rw [if_pos h]

theorem Passes.nextResponse_le {n n' : Normalizer} {ends : Bool} (h : Passes n n' ends) :
    n.nextResponse ≤ n'.nextResponse := by
  cases ends with
  | false => rw [h.same rfl]
  | true => exact Nat.le_trans (responseIndex_le_nextResponse n).2 (h.later rfl)

theorem Takes.nextResponse_eq {n n' : Normalizer} {part : TextPart} {segment : Segment}
    (h : Takes n n' part segment) : n'.nextResponse = n.nextResponse := by
  rw [nextResponse_of_open h.isOpen, h.responseIndex]

theorem Passes.sound {n n' : Normalizer} {ends : Bool} (h : Passes n n' ends) (hn : Sound n) :
    Sound n' := by
  constructor
  · intro key segment hkey
    rw [h.segments] at hkey
    obtain ⟨i, hi, heq⟩ := hn.drawn key segment hkey
    exact ⟨i, by rw [h.nextSegmentIndex]; exact hi, by rw [scopedSegmentId_congr h.scope]; exact heq⟩
  · rw [h.segments]
    exact hn.distinct
  · intro key segment hkey
    rw [h.segments] at hkey
    exact Nat.le_trans (hn.bounded key segment hkey) h.responseIndex

/-- The identifier that is drawn next is nobody's. -/
theorem Sound.next_ne {n : Normalizer} (hn : Sound n) {key : SegmentKey} {segment : Segment}
    (h : lookup n.segments key = some segment) (kind : SegmentKind) :
    segment.segmentId ≠ n.scopedSegmentId kind n.nextSegmentIndex := by
  obtain ⟨i, hi, heq⟩ := hn.drawn key segment h
  rw [heq]
  intro hsame
  have := scopedSegmentId_inj hsame
  omega

/-- The other segments keep their identifiers to themselves. -/
theorem Takes.ne_of_other {n n' : Normalizer} {part : TextPart} {segment : Segment}
    (h : Takes n n' part segment) (hn : Sound n) {key : SegmentKey} {other : Segment}
    (hne : key ≠ part.coordinates.inResponse n.nextResponse)
    (hother : lookup n.segments key = some other) : other.segmentId ≠ segment.segmentId := by
  rcases h.source with ⟨old, hold, -, hid, -⟩ | ⟨-, hid, -⟩
  · rw [hid]
    exact fun hsame => hne (hn.distinct key _ other old hother hold hsame)
  · rw [hid]
    exact hn.next_ne hother _

theorem Takes.sound {n n' : Normalizer} {part : TextPart} {segment : Segment}
    (h : Takes n n' part segment) (hn : Sound n) : Sound n' := by
  have hmore : n.nextSegmentIndex ≤ n'.nextSegmentIndex := by
    rcases h.source with ⟨-, -, -, -, -, hnext⟩ | ⟨-, -, -, hnext⟩ <;> omega
  have hwhere : ∀ key other, lookup n'.segments key = some other →
      (key = part.coordinates.inResponse n.nextResponse ∧ other = segment) ∨
      (key ≠ part.coordinates.inResponse n.nextResponse ∧ lookup n.segments key = some other) := by
    intro key other hkey
    by_cases hhere : key = part.coordinates.inResponse n.nextResponse
    · rw [hhere, h.here] at hkey
      exact .inl ⟨hhere, (Option.some.inj hkey).symm⟩
    · rw [h.others key hhere] at hkey
      exact .inr ⟨hhere, hkey⟩
  constructor
  · intro key other hkey
    simp only [scopedSegmentId_congr h.scope]
    rcases hwhere key other hkey with ⟨rfl, rfl⟩ | ⟨-, hold⟩
    · rcases h.source with ⟨old, hold, -, hid, -⟩ | ⟨-, hid, -, hnext⟩
      · obtain ⟨i, hi, heq⟩ := hn.drawn _ old hold
        exact ⟨i, by omega, hid.trans heq⟩
      · exact ⟨n.nextSegmentIndex, by omega, hid⟩
    · obtain ⟨i, hi, heq⟩ := hn.drawn key other hold
      exact ⟨i, by omega, heq⟩
  · intro key key' other other' hkey hkey' hsame
    rcases hwhere key other hkey with ⟨rfl, rfl⟩ | ⟨hne, hold⟩ <;>
      rcases hwhere key' other' hkey' with ⟨rfl, rfl⟩ | ⟨hne', hold'⟩
    · rfl
    · exact absurd hsame.symm (h.ne_of_other hn hne' hold')
    · exact absurd hsame (h.ne_of_other hn hne hold)
    · exact hn.distinct key key' other other' hold hold' hsame
  · intro key other hkey
    rw [h.responseIndex]
    rcases hwhere key other hkey with ⟨rfl, -⟩ | ⟨-, hold⟩
    · exact Nat.le_refl _
    · exact Nat.le_trans (hn.bounded key other hold) (responseIndex_le_nextResponse n).1

/-! ### Following a segment -/

/-- The segment with this identifier is at these coordinates of the open
response. -/
def Live (n : Normalizer) (segmentId : String) (coordinates : SegmentKey) (completed : Bool) : Prop :=
  n.responseOpen = true ∧ ∃ segment,
    lookup n.segments (coordinates.inResponse n.responseIndex) = some segment ∧
      segment.segmentId = segmentId ∧ segment.complete = completed

/-- No text will be given to this identifier any more. -/
structure Gone (n : Normalizer) (segmentId : String) : Prop where
  drawn : ∃ kind i, i < n.nextSegmentIndex ∧ segmentId = n.scopedSegmentId kind i
  absent : ∀ key segment, lookup n.segments key = some segment →
    n.nextResponse ≤ key.responseIndex → segment.segmentId ≠ segmentId

theorem Passes.gone {n n' : Normalizer} {ends : Bool} (h : Passes n n' ends) {segmentId : String}
    (hgone : Gone n segmentId) : Gone n' segmentId := by
  obtain ⟨kind, i, hi, heq⟩ := hgone.drawn
  refine ⟨⟨kind, i, by rw [h.nextSegmentIndex]; exact hi,
    by rw [scopedSegmentId_congr h.scope]; exact heq⟩, fun key segment hkey hle => ?_⟩
  rw [h.segments] at hkey
  exact hgone.absent key segment hkey (Nat.le_trans h.nextResponse_le hle)

/-- A text event is about another segment, and the segment stays gone. -/
theorem Takes.gone {n n' : Normalizer} {part : TextPart} {segment : Segment}
    (h : Takes n n' part segment) {segmentId : String} (hgone : Gone n segmentId) :
    segment.segmentId ≠ segmentId ∧ Gone n' segmentId := by
  obtain ⟨kind, i, hi, heq⟩ := hgone.drawn
  have hne : segment.segmentId ≠ segmentId := by
    rcases h.source with ⟨old, hold, -, hid, -⟩ | ⟨-, hid, -⟩
    · rw [hid]
      exact hgone.absent _ old hold (Nat.le_refl _)
    · rw [hid, heq]
      intro hsame
      have := scopedSegmentId_inj hsame
      omega
  have hmore : n.nextSegmentIndex ≤ n'.nextSegmentIndex := by
    rcases h.source with ⟨-, -, -, -, -, hnext⟩ | ⟨-, -, -, hnext⟩ <;> omega
  refine ⟨hne, ⟨kind, i, by omega, by rw [scopedSegmentId_congr h.scope]; exact heq⟩,
    fun key other hkey hle => ?_⟩
  by_cases hhere : key = part.coordinates.inResponse n.nextResponse
  · rw [hhere, h.here] at hkey
    obtain rfl := Option.some.inj hkey
    exact hne
  · rw [h.others key hhere] at hkey
    rw [h.nextResponse_eq] at hle
    exact hgone.absent key other hkey hle

/-- A response that ends takes its segments with it. -/
theorem Passes.live_gone {n n' : Normalizer} (h : Passes n n' true) (hn : Sound n)
    {segmentId : String} {coordinates : SegmentKey} {completed : Bool}
    (hlive : Live n segmentId coordinates completed) : Gone n' segmentId := by
  obtain ⟨-, segment, hsegment, rfl, -⟩ := hlive
  obtain ⟨i, hi, heq⟩ := hn.drawn _ segment hsegment
  refine ⟨⟨_, i, by rw [h.nextSegmentIndex]; exact hi,
    by rw [scopedSegmentId_congr h.scope]; exact heq⟩, fun key other hkey hle => ?_⟩
  rw [h.segments] at hkey
  have hbounded := hn.bounded key other hkey
  have hlater := h.later rfl
  omega

theorem inResponse_inj {c c' : SegmentKey} (h : c.responseIndex = c'.responseIndex)
    {responseIndex : Nat} (heq : c.inResponse responseIndex = c'.inResponse responseIndex) : c = c' := by
  obtain ⟨kind, response, output, content, summary⟩ := c
  obtain ⟨kind', response', output', content', summary'⟩ := c'
  simp only [SegmentKey.inResponse, SegmentKey.mk.injEq] at heq h ⊢
  exact ⟨heq.1, h, heq.2.2⟩

/-- A text event with the coordinates of a live segment. -/
theorem Takes.live_same {n n' : Normalizer} {part : TextPart} {segment : Segment}
    (h : Takes n n' part segment) (hn : Sound n) {segmentId : String} {completed : Bool}
    (hlive : Live n segmentId part.coordinates completed) :
    ((completed = true → part.isDone = true) → segment.segmentId = segmentId ∧
        Live n' segmentId part.coordinates part.isDone) ∧
      ((completed = true ∧ part.isDone = false) → segment.segmentId ≠ segmentId ∧
        Gone n' segmentId) := by
  obtain ⟨hopen, live, hsegment, rfl, rfl⟩ := hlive
  have hsame := nextResponse_of_open hopen
  rw [← hsame] at hsegment
  constructor
  · intro hgoes
    have hid : segment.segmentId = live.segmentId := by
      rcases h.source with ⟨old, hold, -, hid, -⟩ | ⟨hnone, -⟩
      · rw [hsegment] at hold
        exact hid.trans (congrArg Segment.segmentId (Option.some.inj hold)).symm
      · obtain ⟨hcomplete, hdone⟩ := hnone live hsegment
        rw [hgoes hcomplete] at hdone
        cases hdone
    refine ⟨hid, h.isOpen, segment, ?_, hid, h.complete⟩
    rw [h.responseIndex]
    exact h.here
  · rintro ⟨hcomplete, hdone⟩
    rcases h.source with ⟨old, hold, hgoes, -⟩ | ⟨-, hid, -, hnext⟩
    · rw [hsegment] at hold
      obtain rfl := Option.some.inj hold
      rw [hgoes hcomplete] at hdone
      cases hdone
    · have hne : segment.segmentId ≠ live.segmentId := by
        rw [hid]
        exact (hn.next_ne hsegment _).symm
      obtain ⟨i, hi, heq⟩ := hn.drawn _ live hsegment
      refine ⟨hne, ⟨_, i, by omega, by rw [scopedSegmentId_congr h.scope]; exact heq⟩,
        fun key other hkey hle => ?_⟩
      by_cases hhere : key = part.coordinates.inResponse n.nextResponse
      · rw [hhere, h.here] at hkey
        obtain rfl := Option.some.inj hkey
        exact hne
      · rw [h.others key hhere] at hkey
        exact fun hother => hhere (hn.distinct key _ other live hkey hsegment hother)

/-- A text event with other coordinates. -/
theorem Takes.live_other {n n' : Normalizer} {part : TextPart} {segment : Segment}
    (h : Takes n n' part segment) (hn : Sound n) {segmentId : String} {coordinates : SegmentKey}
    {completed : Bool} (hlive : Live n segmentId coordinates completed)
    (hzero : part.coordinates.responseIndex = coordinates.responseIndex)
    (hne : part.coordinates ≠ coordinates) :
    segment.segmentId ≠ segmentId ∧ Live n' segmentId coordinates completed := by
  obtain ⟨hopen, live, hsegment, rfl, rfl⟩ := hlive
  have hsame := nextResponse_of_open hopen
  have hkey : coordinates.inResponse n.responseIndex ≠ part.coordinates.inResponse n.nextResponse := by
    rw [hsame]
    exact fun heq => hne (inResponse_inj hzero heq.symm)
  refine ⟨(h.ne_of_other hn hkey hsegment).symm, h.isOpen, live, ?_, rfl, rfl⟩
  rw [h.responseIndex, hsame, h.others _ hkey]
  exact hsegment

theorem textPart?_responseIndex {event : SdkEvent Tool} {part : TextPart}
    (h : textPart? event = some part) : part.coordinates.responseIndex = 0 := by
  unfold textPart? at h
  split at h <;>
    · cases h
      try rfl

/-- A text event ends no response. -/
theorem endsResponse_of_text {event : SdkEvent Tool} {part : TextPart}
    (h : textPart? event = some part) : endsResponse event = false := by
  unfold textPart? at h
  split at h <;>
    · cases h
      try rfl

section Following

variable {agentName : String} {coordinates : SegmentKey} (hzero : coordinates.responseIndex = 0)

/-- The normalizer after a stream, from another one on. -/
def stepAll (agentName : String) (n : Normalizer) (stream : List (SdkEvent Tool)) : Normalizer :=
  stream.foldl (fun n event => (eventFromSdkStream n agentName event).2) n

theorem sound_step (agentName : String) {n : Normalizer} (hn : Sound n) (event : SdkEvent Tool) :
    Sound (eventFromSdkStream n agentName event).2 := by
  cases hpart : textPart? event with
  | none => exact (passes_of_other n agentName hpart).2.sound hn
  | some part =>
      obtain ⟨segment, -, htakes⟩ := takes_of_text n agentName hpart
      exact htakes.sound hn

/-- What is gone stays gone. -/
theorem gone_stepAll {segmentId : String} (stream : List (SdkEvent Tool)) {n : Normalizer}
    (hgone : Gone n segmentId) : Gone (stepAll agentName n stream) segmentId := by
  induction stream generalizing n with
  | nil => exact hgone
  | cons event rest ih =>
      refine ih ?_
      cases hpart : textPart? event with
      | none => exact (passes_of_other n agentName hpart).2.gone hgone
      | some part =>
          obtain ⟨segment, -, htakes⟩ := takes_of_text n agentName hpart
          exact (htakes.gone hgone).2

include hzero in
/-- **Following.**  A stream keeps a segment live exactly as `continues` says. -/
theorem live_stepAll {segmentId : String} (stream : List (SdkEvent Tool)) {n : Normalizer}
    {completed : Bool} (hn : Sound n) (hlive : Live n segmentId coordinates completed) :
    (∀ completed', continues coordinates completed stream = some completed' →
        Live (stepAll agentName n stream) segmentId coordinates completed') ∧
      (continues coordinates completed stream = none →
        Gone (stepAll agentName n stream) segmentId) := by
  induction stream generalizing n completed with
  | nil => exact ⟨fun completed' h => Option.some.inj h ▸ hlive, fun h => by cases h⟩
  | cons event rest ih =>
      have hsound := sound_step agentName hn event
      unfold continues
      cases hpart : textPart? event with
      | none =>
          have hpasses := (passes_of_other n agentName hpart).2
          cases hends : endsResponse event with
          | true =>
              rw [hends] at hpasses
              simp only [if_true]
              exact ⟨fun _ h => (by cases h), fun _ => gone_stepAll rest (hpasses.live_gone hn hlive)⟩
          | false =>
              rw [hends] at hpasses
              simp only [Bool.false_eq_true, if_false]
              have hsame := hpasses.same rfl
              rw [← hsame] at hlive
              exact ih hsound hlive
      | some part =>
          obtain ⟨segment, -, htakes⟩ := takes_of_text n agentName hpart
          rw [endsResponse_of_text hpart]
          simp only [Bool.false_eq_true, if_false]
          by_cases hc : part.coordinates = coordinates
          · subst hc
            obtain ⟨hgoes, hreopens⟩ := htakes.live_same hn hlive
            rw [if_pos rfl]
            cases completed <;> cases hdone : part.isDone
            · rw [hdone] at hgoes
              exact ih hsound (hgoes fun h => by cases h).2
            · rw [hdone] at hgoes
              exact ih hsound (hgoes fun _ => rfl).2
            · exact ⟨fun _ h => (by cases h), fun _ => gone_stepAll rest (hreopens ⟨rfl, hdone⟩).2⟩
            · rw [hdone] at hgoes
              exact ih hsound (hgoes fun _ => rfl).2
          · rw [if_neg hc]
            have hindex := (textPart?_responseIndex hpart).trans hzero.symm
            exact ih hsound (htakes.live_other hn hlive hindex hc).2

end Following

/-! ### Which segment -/

/-- What is emitted, event by event. -/
theorem emittedEvents_snoc (agentName segmentScope : String) (before : List (SdkEvent Tool))
    (event : SdkEvent Tool) :
    emittedEvents agentName segmentScope (before ++ [event]) =
      emittedEvents agentName segmentScope before ++
        (emitted agentName segmentScope before event).toList := by
  have hfrom : ∀ n : Normalizer, emitFrom agentName n (before ++ [event]) =
      emitFrom agentName n before ++
        (eventFromSdkStream (stepAll agentName n before) agentName event).1.toList := by
    induction before with
    | nil => exact fun n => List.append_nil _
    | cons first rest ih =>
        intro n
        rw [List.cons_append, emitFrom, ih, emitFrom, List.append_assoc]
        rfl
  exact hfrom (.init segmentScope)

section Identity

variable {agentName segmentScope : String} {before between : List (SdkEvent Tool)}
  {first second : SdkEvent Tool} {a b : String}

theorem after_append (before rest : List (SdkEvent Tool)) :
    after agentName segmentScope (before ++ rest) =
      stepAll agentName (after agentName segmentScope before) rest := List.foldl_append

theorem sound_init (segmentScope : String) : Sound (.init segmentScope) :=
  ⟨(fun _ _ h => by cases h), (fun _ _ _ _ h => by cases h), (fun _ _ h => by cases h)⟩

theorem sound_stepAll (agentName : String) (stream : List (SdkEvent Tool)) {n : Normalizer}
    (hn : Sound n) : Sound (stepAll agentName n stream) := by
  induction stream generalizing n with
  | nil => exact hn
  | cons event rest ih => exact ih (sound_step agentName hn event)

theorem sound_after (agentName segmentScope : String) (stream : List (SdkEvent Tool)) :
    Sound (after agentName segmentScope stream) :=
  sound_stepAll agentName stream (sound_init segmentScope)

/-- What names a segment comes of a text event. -/
theorem text_of_segmentId (n : Normalizer) {event : SdkEvent Tool} {segmentId : String}
    (h : (eventFromSdkStream n agentName event).1.bind StreamEvent.segmentId? = some segmentId) :
    ∃ part segment, textPart? event = some part ∧ segment.segmentId = segmentId ∧
      Takes n (eventFromSdkStream n agentName event).2 part segment := by
  cases hpart : textPart? event with
  | none =>
      rw [(passes_of_other n agentName hpart).1] at h
      cases h
  | some part =>
      obtain ⟨segment, hevent, htakes⟩ := takes_of_text n agentName hpart
      refine ⟨part, segment, rfl, ?_, htakes⟩
      rw [hevent] at h
      unfold TextPart.event at h
      cases hdone : part.isDone with
      | true =>
          rw [hdone] at h
          exact Option.some.inj h
      | false =>
          rw [hdone] at h
          exact Option.some.inj h

/-- The segment that a text event was given to is live. -/
theorem Takes.live {n n' : Normalizer} {part : TextPart} {segment : Segment}
    (h : Takes n n' part segment) : Live n' segment.segmentId part.coordinates part.isDone := by
  refine ⟨h.isOpen, segment, ?_, rfl, h.complete⟩
  rw [h.responseIndex]
  exact h.here

/-- **Identity.**  Two events carry one identifier exactly when they are about
one segment. -/
theorem segmentId_eq_iff
    (ha : (emitted agentName segmentScope before first).bind StreamEvent.segmentId? = some a)
    (hb : (emitted agentName segmentScope (before ++ first :: between) second).bind
      StreamEvent.segmentId? = some b) :
    a = b ↔ SameSegment first between second := by
  unfold emitted at ha hb
  rw [after_append] at hb
  obtain ⟨part, segment, hpart, rfl, htakes⟩ := text_of_segmentId _ ha
  obtain ⟨part', segment', hpart', rfl, htakes'⟩ := text_of_segmentId _ hb
  have hsound := sound_step agentName (sound_after agentName segmentScope before) first
  have hsound' := sound_stepAll agentName between hsound
  have hzero := textPart?_responseIndex hpart
  obtain ⟨hkept, hlost⟩ := live_stepAll hzero between hsound htakes.live
  have hunfold : SameSegment first between second ↔ part'.coordinates = part.coordinates ∧
      ∃ completed, continues part.coordinates part.isDone between = some completed ∧
        (completed = true → part'.isDone = true) := by
    unfold SameSegment
    simp only [hpart, hpart', Option.some.injEq, exists_and_left, exists_eq_left']
  rw [hunfold]
  cases hcontinues : continues part.coordinates part.isDone between with
  | none =>
      refine ⟨fun heq => absurd heq.symm (htakes'.gone (hlost hcontinues)).1, ?_⟩
      rintro ⟨-, completed, hcompleted, -⟩
      cases hcompleted
  | some completed =>
      have hlive := hkept completed hcontinues
      by_cases hcoordinates : part'.coordinates = part.coordinates
      · rw [← hcoordinates] at hlive
        obtain ⟨hgoes, hreopens⟩ := htakes'.live_same hsound' hlive
        by_cases hdone : completed = true → part'.isDone = true
        · exact ⟨fun _ => ⟨hcoordinates, completed, rfl, hdone⟩, fun _ => (hgoes hdone).1.symm⟩
        · rw [Classical.not_imp, Bool.not_eq_true] at hdone
          refine ⟨fun heq => absurd heq.symm (hreopens hdone).1, ?_⟩
          rintro ⟨-, completed', hcompleted, hdone'⟩
          obtain rfl := Option.some.inj hcompleted
          have := hdone' hdone.1
          rw [hdone.2] at this
          cases this
      · have hindex := (textPart?_responseIndex hpart').trans hzero.symm
        refine ⟨fun heq => absurd heq.symm (htakes'.live_other hsound' hlive hindex hcoordinates).1, ?_⟩
        exact fun hsame => absurd hsame.1 hcoordinates

end Identity

/-! ### The text of a segment -/

/-- What an event adds to a segment. -/
def StreamEvent.deltaUnder (segmentId : String) : StreamEvent Tool → String
  | .delta _ _ id added _ => if id = segmentId then added else ""
  | _ => ""

/-- The deltas of a segment, one after the other. -/
def deltasUnder (segmentId : String) (events : List (StreamEvent Tool)) : String :=
  events.foldl (fun text event => text ++ event.deltaUnder segmentId) ""

/-- The event is the end of the segment. -/
def StreamEvent.Completes (event : StreamEvent Tool) (segmentId : String) : Prop :=
  ∃ kind agentName text, event = .complete kind agentName segmentId text

/-- **A coherent stream.**  Every delta carries the whole text of its segment
so far, and the segment is not completed. -/
def Coherent (events : List (StreamEvent Tool)) : Prop :=
  ∀ before kind agentName segmentId delta text rest,
    events = before ++ .delta kind agentName segmentId delta text :: rest →
      text = deltasUnder segmentId before ++ delta ∧ ∀ event ∈ before, ¬event.Completes segmentId

section Texts

variable {events : List (StreamEvent Tool)} {event : StreamEvent Tool} {segmentId : String}

@[simp] theorem deltasUnder_nil : deltasUnder segmentId ([] : List (StreamEvent Tool)) = "" := rfl

theorem deltasUnder_snoc :
    deltasUnder segmentId (events ++ [event]) =
      deltasUnder segmentId events ++ event.deltaUnder segmentId := by
  unfold deltasUnder
  rw [List.foldl_append]
  rfl

theorem deltaUnder_of_ne (h : event.segmentId? ≠ some segmentId) :
    event.deltaUnder segmentId = "" := by
  cases event with
  | delta kind agentName id delta text => exact if_neg fun heq => h (congrArg some heq)
  | complete => rfl
  | error => rfl
  | tool => rfl

theorem segmentId?_of_completes (h : event.Completes segmentId) :
    event.segmentId? = some segmentId := by
  obtain ⟨kind, agentName, text, rfl⟩ := h
  rfl

/-- Nothing is said of a segment that no event is about. -/
theorem deltasUnder_of_absent (h : ∀ event ∈ events, event.segmentId? ≠ some segmentId) :
    deltasUnder segmentId events = "" := by
  induction events using List.reverseRecOn with
  | nil => rfl
  | append_singleton rest event ih =>
      rw [deltasUnder_snoc, deltaUnder_of_ne (h event (by simp)),
        ih fun other hother => h other (List.mem_append_left _ hother)]
      rfl

theorem deltasUnder_ne_empty (h : ∃ event ∈ events, event.deltaUnder segmentId ≠ "") :
    deltasUnder segmentId events ≠ "" := by
  induction events using List.reverseRecOn with
  | nil => obtain ⟨event, hmem, -⟩ := h; cases hmem
  | append_singleton rest last ih =>
      rw [deltasUnder_snoc]
      intro hempty
      have hboth := String.append_eq_empty_iff.mp hempty
      obtain ⟨event, hmem, hne⟩ := h
      rcases List.mem_append.mp hmem with hold | hlast
      · exact ih ⟨event, hold, hne⟩ hboth.1
      · obtain rfl := List.mem_singleton.mp hlast
        exact hne hboth.2

theorem coherent_snoc (h : Coherent events)
    (hlast : ∀ kind agentName segmentId delta text,
      event = .delta kind agentName segmentId delta text →
        text = deltasUnder segmentId events ++ delta ∧ ∀ other ∈ events, ¬other.Completes segmentId) :
    Coherent (events ++ [event]) := by
  intro before kind agentName segmentId delta text rest heq
  induction rest using List.reverseRecOn with
  | nil =>
      obtain ⟨rfl, hevent⟩ := List.append_inj' heq rfl
      exact hlast kind agentName segmentId delta text (List.singleton_inj.mp hevent)
  | append_singleton rest last =>
      rw [← List.cons_append, ← List.append_assoc] at heq
      exact h before kind agentName segmentId delta text rest (List.append_inj' heq rfl).1

end Texts

/-! ### The run -/

/-- What a normalizer knows of the events before: it has drawn all their
identifiers, and an open segment has the text of its deltas and no end. -/
structure Recorded (n : Normalizer) (events : List (StreamEvent Tool)) : Prop where
  sound : Sound n
  drawn : ∀ event ∈ events, ∀ segmentId, event.segmentId? = some segmentId →
    ∃ kind i, i < n.nextSegmentIndex ∧ segmentId = n.scopedSegmentId kind i
  text : ∀ key segment, lookup n.segments key = some segment → segment.complete = false →
    segment.text = deltasUnder segment.segmentId events ∧
      ∀ event ∈ events, ¬event.Completes segment.segmentId

theorem Passes.recorded {n n' : Normalizer} {ends : Bool} {events : List (StreamEvent Tool)}
    (h : Passes n n' ends) (hn : Recorded n events) : Recorded n' events := by
  refine ⟨h.sound hn.sound, fun event hevent segmentId hid => ?_, fun key segment hkey => ?_⟩
  · obtain ⟨kind, i, hi, heq⟩ := hn.drawn event hevent segmentId hid
    exact ⟨kind, i, by rw [h.nextSegmentIndex]; exact hi,
      by rw [scopedSegmentId_congr h.scope]; exact heq⟩
  · rw [h.segments] at hkey
    exact hn.text key segment hkey

/-- An event about no segment is recorded as it is. -/
theorem Recorded.snoc_other {n : Normalizer} {events : List (StreamEvent Tool)}
    {event : StreamEvent Tool} (hn : Recorded n events) (hevent : event.segmentId? = none) :
    Recorded n (events ++ [event]) := by
  have hne : ∀ segmentId, event.segmentId? ≠ some segmentId := fun segmentId h => by
    rw [hevent] at h
    cases h
  refine ⟨hn.sound, fun other hother segmentId hid => ?_, fun key segment hkey hopen => ?_⟩
  · rcases List.mem_append.mp hother with hold | hlast
    · exact hn.drawn other hold segmentId hid
    · obtain rfl := List.mem_singleton.mp hlast
      exact absurd hid (hne segmentId)
  · obtain ⟨htext, hends⟩ := hn.text key segment hkey hopen
    refine ⟨?_, fun other hother hcompletes => ?_⟩
    · rw [deltasUnder_snoc, deltaUnder_of_ne (hne _), String.append_empty]
      exact htext
    · rcases List.mem_append.mp hother with hold | hlast
      · exact hends other hold hcompletes
      · obtain rfl := List.mem_singleton.mp hlast
        exact hne _ (segmentId?_of_completes hcompletes)

theorem TextPart.event_segmentId? (part : TextPart) (agentName : String) (segment : Segment) :
    (part.event agentName segment : StreamEvent Tool).segmentId? = some segment.segmentId := by
  unfold TextPart.event
  split <;> rfl

/-- A delta goes on with what its segment has, or begins one of which nothing
was said. -/
theorem Takes.delta_text {n n' : Normalizer} {part : TextPart} {segment : Segment}
    {events : List (StreamEvent Tool)} (h : Takes n n' part segment) (hn : Recorded n events)
    (hdone : part.isDone = false) :
    segment.text = deltasUnder segment.segmentId events ++ part.text ∧
      ∀ event ∈ events, ¬event.Completes segment.segmentId := by
  rcases h.source with ⟨old, hold, hgoes, hid, htext, -⟩ | ⟨-, hid, htext, -⟩
  · have hopen : old.complete = false := by
      rw [← Bool.not_eq_true]
      intro hcomplete
      rw [hgoes hcomplete] at hdone
      cases hdone
    obtain ⟨hbefore, hends⟩ := hn.text _ old hold hopen
    rw [hid, htext hdone, hbefore]
    exact ⟨rfl, hends⟩
  · have habsent : ∀ event ∈ events, event.segmentId? ≠ some segment.segmentId := by
      intro event hevent heq
      obtain ⟨kind, i, hi, hdrawn⟩ := hn.drawn event hevent _ heq
      rw [hid] at hdrawn
      have := scopedSegmentId_inj hdrawn
      omega
    rw [deltasUnder_of_absent habsent, String.empty_append]
    exact ⟨htext hdone, fun event hevent hcompletes =>
      habsent event hevent (segmentId?_of_completes hcompletes)⟩

theorem Takes.recorded {n n' : Normalizer} {part : TextPart} {segment : Segment}
    {events : List (StreamEvent Tool)} (h : Takes n n' part segment) (hn : Recorded n events)
    (agentName : String) : Recorded n' (events ++ [part.event agentName segment]) := by
  have hsound := h.sound hn.sound
  have hmore : n.nextSegmentIndex ≤ n'.nextSegmentIndex := by
    rcases h.source with ⟨-, -, -, -, -, hnext⟩ | ⟨-, -, -, hnext⟩ <;> omega
  refine ⟨hsound, fun event hevent segmentId hid => ?_, fun key other hkey hopen => ?_⟩
  · rcases List.mem_append.mp hevent with hold | hlast
    · obtain ⟨kind, i, hi, heq⟩ := hn.drawn event hold segmentId hid
      exact ⟨kind, i, by omega, by rw [scopedSegmentId_congr h.scope]; exact heq⟩
    · obtain rfl := List.mem_singleton.mp hlast
      rw [TextPart.event_segmentId?] at hid
      obtain rfl := Option.some.inj hid
      obtain ⟨i, hi, heq⟩ := hsound.drawn _ segment h.here
      exact ⟨_, i, hi, heq⟩
  · by_cases hhere : key = part.coordinates.inResponse n.nextResponse
    · rw [hhere, h.here] at hkey
      obtain rfl := Option.some.inj hkey
      have hdone : part.isDone = false := h.complete.symm.trans hopen
      obtain ⟨htext, hends⟩ := h.delta_text hn hdone
      refine ⟨?_, fun event hevent hcompletes => ?_⟩
      · rw [deltasUnder_snoc, htext]
        simp [TextPart.event, hdone, StreamEvent.deltaUnder]
      · rcases List.mem_append.mp hevent with hold | hlast
        · exact hends event hold hcompletes
        · obtain rfl := List.mem_singleton.mp hlast
          obtain ⟨kind, name, text, heq⟩ := hcompletes
          simp [TextPart.event, hdone] at heq
    · rw [h.others key hhere] at hkey
      obtain ⟨htext, hends⟩ := hn.text key other hkey hopen
      have hne : (part.event agentName segment : StreamEvent Tool).segmentId? ≠
          some other.segmentId := by
        rw [TextPart.event_segmentId?]
        exact fun heq => h.ne_of_other hn.sound hhere hkey (Option.some.inj heq).symm
      refine ⟨?_, fun event hevent hcompletes => ?_⟩
      · rw [deltasUnder_snoc, deltaUnder_of_ne hne, String.append_empty]
        exact htext
      · rcases List.mem_append.mp hevent with hold | hlast
        · exact hends event hold hcompletes
        · obtain rfl := List.mem_singleton.mp hlast
          exact hne (segmentId?_of_completes hcompletes)

/-- **The step.**  An event keeps the record, and the stream coherent. -/
theorem recorded_step {n : Normalizer} {events : List (StreamEvent Tool)} (agentName : String)
    (hn : Recorded n events) (hcoherent : Coherent events) (event : SdkEvent Tool) :
    Recorded (eventFromSdkStream n agentName event).2
        (events ++ (eventFromSdkStream n agentName event).1.toList) ∧
      Coherent (events ++ (eventFromSdkStream n agentName event).1.toList) := by
  cases hpart : textPart? event with
  | none =>
      obtain ⟨hid, hpasses⟩ := passes_of_other n agentName hpart
      have hrecorded := hpasses.recorded hn
      cases hemitted : (eventFromSdkStream n agentName event).1 with
      | none =>
          rw [Option.toList_none, List.append_nil]
          exact ⟨hrecorded, hcoherent⟩
      | some last =>
          rw [hemitted] at hid
          refine ⟨hrecorded.snoc_other hid, coherent_snoc hcoherent ?_⟩
          rintro kind name segmentId delta text rfl
          cases hid
  | some part =>
      obtain ⟨segment, hevent, htakes⟩ := takes_of_text n agentName hpart
      rw [hevent]
      refine ⟨htakes.recorded hn agentName, coherent_snoc hcoherent ?_⟩
      intro kind name segmentId delta text heq
      cases hdone : part.isDone with
      | true => simp [TextPart.event, hdone] at heq
      | false =>
          simp only [TextPart.event, hdone, Bool.false_eq_true, if_false,
            StreamEvent.delta.injEq] at heq
          obtain ⟨-, -, rfl, rfl, rfl⟩ := heq
          exact htakes.delta_text hn hdone

/-- **The run.** -/
theorem coherent_emitFrom {n : Normalizer} {events : List (StreamEvent Tool)} (agentName : String)
    (hn : Recorded n events) (hcoherent : Coherent events) (stream : List (SdkEvent Tool)) :
    Coherent (events ++ emitFrom agentName n stream) := by
  induction stream generalizing n events with
  | nil =>
      rw [emitFrom, List.append_nil]
      exact hcoherent
  | cons event rest ih =>
      obtain ⟨hrecorded, hstill⟩ := recorded_step agentName hn hcoherent event
      rw [emitFrom, ← List.append_assoc]
      exact ih hrecorded hstill

/-- What a normalizer emits is coherent. -/
theorem coherent_emitted (agentName segmentScope : String) (stream : List (SdkEvent Tool)) :
    Coherent (emittedEvents agentName segmentScope stream) := by
  have hstart : Recorded (.init segmentScope) ([] : List (StreamEvent Tool)) :=
    ⟨sound_init segmentScope, (fun _ h => by cases h), (fun _ _ h => by cases h)⟩
  have hnothing : Coherent ([] : List (StreamEvent Tool)) := by
    intro before kind name segmentId delta text rest heq
    cases before <;> cases heq
  exact coherent_emitFrom agentName hstart hnothing stream

/-! ### The end of a turn -/

/-- What the buffers know of the events: a segment that is not completed has
the text of its deltas. -/
structure Tracked (buffers : Buffers) (events : List (StreamEvent Tool)) : Prop where
  keys : (buffers.map Prod.fst).Nodup
  absent : ∀ segmentId, lookup buffers segmentId = none →
    ∀ event ∈ events, event.segmentId? ≠ some segmentId
  named : ∀ segmentId buffer, lookup buffers segmentId = some buffer → buffer.segmentId = segmentId
  completed : ∀ segmentId buffer, lookup buffers segmentId = some buffer → buffer.complete = true →
    ∃ event ∈ events, event.Completes segmentId
  content : ∀ segmentId buffer, lookup buffers segmentId = some buffer → buffer.complete = false →
    buffer.content = deltasUnder segmentId events ∧ ∀ event ∈ events, ¬event.Completes segmentId

/-- The buffer of a segment says what there was of it. -/
theorem Tracked.bufferFor {buffers : Buffers} {events : List (StreamEvent Tool)}
    (h : Tracked buffers events) (kind : SegmentKind) (segmentId : String) :
    (bufferFor buffers kind segmentId).segmentId = segmentId ∧
      ((bufferFor buffers kind segmentId).complete = true →
        ∃ event ∈ events, event.Completes segmentId) ∧
      ((bufferFor buffers kind segmentId).complete = false →
        (bufferFor buffers kind segmentId).content = deltasUnder segmentId events ∧
          ∀ event ∈ events, ¬event.Completes segmentId) := by
  unfold StreamSegments.bufferFor
  cases hlookup : lookup buffers segmentId with
  | none =>
      have habsent := h.absent segmentId hlookup
      refine ⟨rfl, (fun hcomplete => by cases hcomplete), fun _ => ⟨?_, fun event hevent hends => ?_⟩⟩
      · exact (deltasUnder_of_absent habsent).symm
      · exact habsent event hevent (segmentId?_of_completes hends)
  | some buffer =>
      exact ⟨h.named segmentId buffer hlookup, h.completed segmentId buffer hlookup,
        h.content segmentId buffer hlookup⟩

/-- An event about another segment leaves what is known of one. -/
theorem completes_snoc_iff {events : List (StreamEvent Tool)} {last : StreamEvent Tool}
    {segmentId : String} (hne : last.segmentId? ≠ some segmentId) :
    (∃ event ∈ events ++ [last], event.Completes segmentId) ↔
      ∃ event ∈ events, event.Completes segmentId := by
  constructor
  · rintro ⟨event, hevent, hends⟩
    rcases List.mem_append.mp hevent with hold | hlast
    · exact ⟨event, hold, hends⟩
    · obtain rfl := List.mem_singleton.mp hlast
      exact absurd (segmentId?_of_completes hends) hne
  · rintro ⟨event, hevent, hends⟩
    exact ⟨event, List.mem_append_left _ hevent, hends⟩

/-- An event about a segment writes its buffer. -/
theorem Tracked.write {buffers : Buffers} {events : List (StreamEvent Tool)}
    (h : Tracked buffers events) {segmentId : String} {buffer : DeltaBuffer} {last : StreamEvent Tool}
    (hlast : last.segmentId? = some segmentId) (hnamed : buffer.segmentId = segmentId)
    (hcompleted : buffer.complete = true → ∃ event ∈ events ++ [last], event.Completes segmentId)
    (hcontent : buffer.complete = false → buffer.content = deltasUnder segmentId (events ++ [last]) ∧
      ∀ event ∈ events ++ [last], ¬event.Completes segmentId) :
    Tracked (LastWrite.write segmentId buffer buffers) (events ++ [last]) := by
  have hother : ∀ other, segmentId ≠ other → last.segmentId? ≠ some other := by
    intro other hne heq
    rw [hlast] at heq
    exact hne (Option.some.inj heq)
  have hdeltas : ∀ other, segmentId ≠ other →
      deltasUnder other (events ++ [last]) = deltasUnder other events := by
    intro other hne
    rw [deltasUnder_snoc, deltaUnder_of_ne (hother other hne), String.append_empty]
  refine ⟨nodup_keys_write h.keys segmentId buffer, fun other hnone event hevent => ?_,
    fun other found hfound => ?_, fun other found hfound hcomplete => ?_,
    fun other found hfound hopen => ?_⟩
  · rw [lookup_write] at hnone
    split at hnone
    · cases hnone
    · rename_i hne
      rcases List.mem_append.mp hevent with hold | hnew
      · exact h.absent other hnone event hold
      · obtain rfl := List.mem_singleton.mp hnew
        exact hother other hne
  · rw [lookup_write] at hfound
    split at hfound
    · rename_i heq
      obtain rfl := Option.some.inj hfound
      exact hnamed.trans heq
    · exact h.named other found hfound
  · rw [lookup_write] at hfound
    split at hfound
    · rename_i heq
      obtain rfl := Option.some.inj hfound
      rw [← heq]
      exact hcompleted hcomplete
    · rename_i hne
      exact (completes_snoc_iff (hother other hne)).mpr (h.completed other found hfound hcomplete)
  · rw [lookup_write] at hfound
    split at hfound
    · rename_i heq
      obtain rfl := Option.some.inj hfound
      rw [← heq]
      exact hcontent hopen
    · rename_i hne
      obtain ⟨htext, hends⟩ := h.content other found hfound hopen
      refine ⟨by rw [hdeltas other hne]; exact htext, fun event hevent hcompletes => ?_⟩
      obtain ⟨event', hevent', hcompletes'⟩ :=
        (completes_snoc_iff (hother other hne)).mp ⟨event, hevent, hcompletes⟩
      exact hends event' hevent' hcompletes'

/-- The step of the buffers. -/
theorem tracked_step {buffers : Buffers} {events : List (StreamEvent Tool)}
    (h : Tracked buffers events) (event : StreamEvent Tool) :
    Tracked (trackDelta buffers event) (events ++ [event]) := by
  have hskip : event.segmentId? = none → Tracked buffers (events ++ [event]) := by
    intro hnone
    have hne : ∀ segmentId, event.segmentId? ≠ some segmentId := fun segmentId heq => by
      rw [hnone] at heq
      cases heq
    refine ⟨h.keys, fun segmentId hlookup other hother => ?_, h.named,
      fun segmentId buffer hlookup hcomplete => ?_, fun segmentId buffer hlookup hopen => ?_⟩
    · rcases List.mem_append.mp hother with hold | hnew
      · exact h.absent segmentId hlookup other hold
      · obtain rfl := List.mem_singleton.mp hnew
        exact hne segmentId
    · exact (completes_snoc_iff (hne segmentId)).mpr (h.completed segmentId buffer hlookup hcomplete)
    · obtain ⟨htext, hends⟩ := h.content segmentId buffer hlookup hopen
      refine ⟨?_, fun other hother hcompletes => ?_⟩
      · rw [deltasUnder_snoc, deltaUnder_of_ne (hne segmentId), String.append_empty]
        exact htext
      · obtain ⟨other', hother', hcompletes'⟩ :=
          (completes_snoc_iff (hne segmentId)).mp ⟨other, hother, hcompletes⟩
        exact hends other' hother' hcompletes'
  cases event with
  | delta kind agentName segmentId delta text =>
      obtain ⟨hnamed, hcompleted, hcontent⟩ := h.bufferFor kind segmentId
      refine h.write rfl hnamed (fun hcomplete => ?_) (fun hopen => ?_)
      · obtain ⟨event, hevent, hends⟩ := hcompleted hcomplete
        exact ⟨event, List.mem_append_left _ hevent, hends⟩
      · obtain ⟨htext, hends⟩ := hcontent hopen
        refine ⟨?_, fun event hevent hcompletes => ?_⟩
        · rw [deltasUnder_snoc, htext]
          simp [StreamEvent.deltaUnder]
        · rcases List.mem_append.mp hevent with hold | hnew
          · exact hends event hold hcompletes
          · obtain rfl := List.mem_singleton.mp hnew
            obtain ⟨kind', name, text', heq⟩ := hcompletes
            cases heq
  | complete kind agentName segmentId text =>
      obtain ⟨hnamed, -⟩ := h.bufferFor kind segmentId
      refine h.write rfl hnamed (fun _ => ?_) (fun hopen => by cases hopen)
      exact ⟨_, List.mem_append_right _ (List.mem_singleton_self _), kind, agentName, text, rfl⟩
  | error agentName message code => exact hskip rfl
  | tool tool => exact hskip rfl

theorem tracked_foldl {buffers : Buffers} {before : List (StreamEvent Tool)}
    (h : Tracked buffers before) (events : List (StreamEvent Tool)) :
    Tracked (events.foldl trackDelta buffers) (before ++ events) := by
  induction events generalizing buffers before with
  | nil =>
      rw [List.append_nil]
      exact h
  | cons event rest ih =>
      have := ih (tracked_step h event)
      rwa [List.append_assoc] at this

/-- The buffers of a turn. -/
theorem tracked (events : List (StreamEvent Tool)) : Tracked (events.foldl trackDelta []) events := by
  have hstart : Tracked [] ([] : List (StreamEvent Tool)) :=
    ⟨List.nodup_nil, fun _ _ _ h => (by cases h), fun _ _ h => (by cases h), fun _ _ h => (by cases h),
      fun _ _ h => (by cases h)⟩
  exact tracked_foldl hstart events

section EndOfTurn

variable {events : List (StreamEvent Tool)} {agentName segmentId : String}

/-- What the end of a turn completes is what nobody has completed, with the
text of its deltas. -/
theorem text_of_finalized {kind : SegmentKind} {name text : String}
    (h : .complete kind name segmentId text ∈
      (incompleteSegmentEvents (events.foldl trackDelta []) agentName : List (StreamEvent Tool))) :
    text = deltasUnder segmentId events := by
  have htracked := tracked events
  obtain ⟨⟨id, buffer⟩, hentry, hsome⟩ := List.mem_filterMap.mp h
  have hlookup := lookup_of_mem htracked.keys hentry
  split at hsome
  · cases hsome
  · rename_i hopen
    rw [not_or, Bool.not_eq_true] at hopen
    obtain ⟨-, -, rfl, rfl⟩ := StreamEvent.complete.inj (Option.some.inj hsome)
    rw [htracked.named id buffer hlookup]
    exact (htracked.content id buffer hlookup hopen.2).1

/-- A segment with text that nobody has completed is completed at the end. -/
theorem finalized_of_text (htext : deltasUnder segmentId events ≠ "")
    (hnone : ∀ event ∈ events, ¬event.Completes segmentId) :
    ∃ event ∈ (incompleteSegmentEvents (events.foldl trackDelta []) agentName :
      List (StreamEvent Tool)), event.Completes segmentId := by
  have htracked := tracked events
  cases hlookup : lookup (events.foldl trackDelta []) segmentId with
  | none => exact absurd (deltasUnder_of_absent (htracked.absent segmentId hlookup)) htext
  | some buffer =>
      have hopen : buffer.complete = false := by
        rw [← Bool.not_eq_true]
        intro hcomplete
        obtain ⟨event, hevent, hends⟩ := htracked.completed segmentId buffer hlookup hcomplete
        exact hnone event hevent hends
      have hcontent := (htracked.content segmentId buffer hlookup hopen).1
      refine ⟨.complete buffer.kind agentName buffer.segmentId buffer.content, ?_,
        buffer.kind, agentName, buffer.content, by rw [htracked.named segmentId buffer hlookup]⟩
      refine List.mem_filterMap.mpr ⟨(segmentId, buffer), mem_of_lookup hlookup, if_neg ?_⟩
      rw [not_or, Bool.not_eq_true]
      exact ⟨by rw [hcontent]; exact htext, hopen⟩

end EndOfTurn

/-- **At the end.**  A segment with text is completed, by the provider or at
the end of the turn; if not by the provider, with the text of its deltas. -/
theorem completed_at_end (agentName segmentScope : String) (stream : List (SdkEvent Tool))
    {segmentId : String}
    (htext : ∃ event ∈ emittedEvents agentName segmentScope stream, event.deltaUnder segmentId ≠ "") :
    (∃ event ∈ published agentName segmentScope stream, event.Completes segmentId) ∧
      ((∀ event ∈ emittedEvents agentName segmentScope stream, ¬event.Completes segmentId) →
        ∀ kind name text, .complete kind name segmentId text ∈ published agentName segmentScope stream →
          text = deltasUnder segmentId (emittedEvents agentName segmentScope stream)) := by
  constructor
  · by_cases hcompleted : ∃ event ∈ emittedEvents agentName segmentScope stream,
        event.Completes segmentId
    · obtain ⟨event, hevent, hends⟩ := hcompleted
      exact ⟨event, List.mem_append_left _ hevent, hends⟩
    · have hnone : ∀ event ∈ emittedEvents agentName segmentScope stream,
          ¬event.Completes segmentId :=
        fun event hevent hends => hcompleted ⟨event, hevent, hends⟩
      obtain ⟨event, hevent, hends⟩ := finalized_of_text (deltasUnder_ne_empty htext) hnone
      exact ⟨event, List.mem_append_right _ hevent, hends⟩
  · intro hnone kind name text hmem
    rcases List.mem_append.mp hmem with hprovider | hfinal
    · exact absurd ⟨kind, name, text, rfl⟩ (hnone _ hprovider)
    · exact text_of_finalized hfinal

/-- **Coherence.**  The identifiers tell the segments of a stream apart, every
delta carries the whole text of a segment that is not completed, and what is
left open is completed at the end. -/
theorem segments_coherent (agentName segmentScope : String) :
    (∀ (before : List (SdkEvent Tool)) (first : SdkEvent Tool) (between : List (SdkEvent Tool))
        (second : SdkEvent Tool) (a b : String),
      (emitted agentName segmentScope before first).bind StreamEvent.segmentId? = some a →
      (emitted agentName segmentScope (before ++ first :: between) second).bind
        StreamEvent.segmentId? = some b →
      (a = b ↔ SameSegment first between second)) ∧
    (∀ stream : List (SdkEvent Tool), Coherent (emittedEvents agentName segmentScope stream)) ∧
    (∀ (stream : List (SdkEvent Tool)) (segmentId : String),
      (∃ event ∈ emittedEvents agentName segmentScope stream, event.deltaUnder segmentId ≠ "") →
      (∃ event ∈ published agentName segmentScope stream, event.Completes segmentId) ∧
      ((∀ event ∈ emittedEvents agentName segmentScope stream, ¬event.Completes segmentId) →
        ∀ kind name text, .complete kind name segmentId text ∈ published agentName segmentScope stream →
          text = deltasUnder segmentId (emittedEvents agentName segmentScope stream))) :=
  ⟨fun _ _ _ _ _ _ ha hb => segmentId_eq_iff ha hb, coherent_emitted agentName segmentScope,
    fun stream _ htext => completed_at_end agentName segmentScope stream htext⟩

/-- A tool call between two deltas: two segments, and the provider ends neither. -/
example :
    (published "main" "turn" [.raw .created, .raw (.textDelta 0 0 "a"), .raw (.textDelta 0 0 "b"),
      .runItem "tool_called" (some ()), .raw (.textDelta 0 0 "c")]).map StreamEvent.segmentId? =
    [some "turn_text_1", some "turn_text_1", none, some "turn_text_2", some "turn_text_1",
      some "turn_text_2"] := by
  decide +kernel

end Workbench.StreamSegments
