import CyberWorkbench.PythonValues
import CyberWorkbench.TimelineLog

/-!
# Pages of the stored timeline

`service/agent/event_log.fetch_timeline_page`: the newest rows below a cursor,
extended backwards to the start of a turn, and the cursor of the next page.

A page is an interval of the stored rows (`fetchTimelinePage_spec`): everything
from its first row up to the cursor.  The next page ends where this one starts,
so a run of pages covers the timeline once, whatever the limits are.

Parsing a payload is a parameter.  The rows are those of one session.
-/

namespace Workbench.TimelinePages

open PythonValues
open LiveBus (AgentEvent timelineItemKey isPersistable)
open TimelineLog (keylessKey)

/-! ### Keys -/

/-- `USER_MESSAGE_KEY_PREFIX`. -/
def userMessageKeyFront : String := "user_message:"

/-- The ends of a text. -/
def ends : List Char → List (List Char)
  | [] => [[]]
  | c :: text => (c :: text) :: ends text

/-- SQLite's `LIKE`: `%` is any text, `_` any character, and a letter matches
in both cases. -/
def sqlLike : List Char → List Char → Bool
  | [], text => text.isEmpty
  | p :: pattern, text =>
      if p = '%' then (ends text).any (sqlLike pattern)
      else
        match text with
        | [] => false
        | c :: text => (decide (p = '_') || decide (p.toLower = c.toLower)) && sqlLike pattern text

/-- `str(item_key).startswith(USER_MESSAGE_KEY_PREFIX)` -/
def startsAsUserMessage (itemKey : String) : Bool :=
  userMessageKeyFront.toList.isPrefixOf itemKey.toList

/-- `item_key.like(f"{USER_MESSAGE_KEY_PREFIX}%")` -/
def likeUserMessage (itemKey : String) : Bool :=
  sqlLike (userMessageKeyFront ++ "%").toList itemKey.toList

/-! ### Rows -/

/-- A row of `agent_event_log`. -/
structure EventLogRow where
  itemKey : String
  seq : Int
  payload : String
  deriving DecidableEq, Repr

/-- The stored timeline of a session: the rows carry the keys that events are
stored under, their numbers are distinct, and their payloads are JSON objects
for `loads`. -/
structure StoredTimeline (Args : Type) (loads : String → Option Value) where
  rows : List EventLogRow
  distinct : (rows.map EventLogRow.seq).Nodup
  keyed : ∀ row ∈ rows, ∃ (event : AgentEvent Args) (seq : Int), isPersistable event = true ∧
    row.itemKey = (timelineItemKey event).getD (keylessKey event seq)
  objects : ∀ row ∈ rows, ∃ fields, loads row.payload = some (.dict fields)

/-- A page: `(items, has_more, next_before_seq)`. -/
structure Page where
  items : List (Int × Dict)
  hasMore : Bool
  nextBeforeSeq : Option Int

/-! ### `fetch_timeline_page` -/

section Fetch

variable (loads : String → Option Value) (rows : List EventLogRow)

/-- The rows below the cursor. -/
def below (beforeSeq : Option Int) : List EventLogRow :=
  rows.filter fun row => beforeSeq.all fun b => decide (row.seq < b)

/-- `latest_stmt`, reversed. -/
def latestRows (beforeSeq : Option Int) (limit : Nat) : List EventLogRow :=
  (((below rows beforeSeq).mergeSort fun a b => decide (b.seq ≤ a.seq)).take limit).reverse

/-- `turn_start` -/
def turnStart (firstSeq : Int) : Option Int :=
  ((rows.filter fun row =>
    decide (row.seq < firstSeq) && likeUserMessage row.itemKey).map EventLogRow.seq).max?

/-- `gap_stmt` -/
def gapRows (start firstSeq : Int) : List EventLogRow :=
  (rows.filter fun row => decide (start ≤ row.seq) && decide (row.seq < firstSeq)).mergeSort
    fun a b => decide (a.seq ≤ b.seq)

/-- The rows of the page: `latest`, back to the start of a turn. -/
def pageRows (latest : List EventLogRow) : List EventLogRow :=
  match latest with
  | [] => []
  | first :: _ =>
      if startsAsUserMessage first.itemKey then latest
      else
        match turnStart rows first.seq with
        | none => latest
        | some start => if start < first.seq then gapRows rows start first.seq ++ latest else latest

/-- `items`: a payload that is no object is left out. -/
def pageItems (rows : List EventLogRow) : List (Int × Dict) :=
  rows.filterMap fun row =>
    match loads row.payload with
    | some (.dict payload) => some (row.seq, payload)
    | _ => none

/-- `fetch_timeline_page`. -/
def fetchTimelinePage (beforeSeq : Option Int) (limit : Int) : Page :=
  let page := pageRows rows (latestRows rows beforeSeq (max 1 limit).toNat)
  match page with
  | [] => ⟨[], false, none⟩
  | first :: _ =>
      let hasMore := rows.any fun row => decide (row.seq < first.seq)
      ⟨pageItems loads page, hasMore, if hasMore then some first.seq else none⟩

/-- The pages from a cursor on, if that many calls are enough: each call passes
the cursor on that the one before has returned. -/
def pagesFrom (limits : Nat → Int) : Nat → Nat → Option Int → Option (List Page)
  | 0, _, _ => none
  | calls + 1, i, beforeSeq =>
      let page := fetchTimelinePage loads rows beforeSeq (limits i)
      if page.hasMore then (pagesFrom limits calls (i + 1) page.nextBeforeSeq).map (page :: ·)
      else some [page]

end Fetch

/-! ### The two tests of a key agree -/

theorem nil_mem_ends (text : List Char) : [] ∈ ends text := by
  induction text with
  | nil => exact List.mem_singleton_self []
  | cons c text ih => exact List.mem_cons_of_mem _ ih

theorem sqlLike_percent (text : List Char) : sqlLike ['%'] text = true := by
  unfold sqlLike
  rw [if_pos rfl, List.any_eq_true]
  exact ⟨[], nil_mem_ends text, rfl⟩

/-- A text that starts as the pattern does. -/
theorem sqlLike_append {front rest pattern : List Char} (hplain : '%' ∉ front)
    (h : sqlLike pattern rest = true) : sqlLike (front ++ pattern) (front ++ rest) = true := by
  induction front with
  | nil => exact h
  | cons c front ih =>
      rw [List.mem_cons, not_or] at hplain
      rw [List.cons_append, List.cons_append]
      unfold sqlLike
      rw [if_neg (Ne.symm hplain.1)]
      simp [ih hplain.2]

/-- A text whose first letter is another one. -/
theorem sqlLike_other {p c : Char} {pattern text : List Char} (hp : p ≠ '%') (hp' : p ≠ '_')
    (h : p.toLower ≠ c.toLower) : sqlLike (p :: pattern) (c :: text) = false := by
  unfold sqlLike
  rw [if_neg hp]
  simp [hp', h]

theorem startsAsUserMessage_append (rest : String) :
    startsAsUserMessage (userMessageKeyFront ++ rest) = true := by
  unfold startsAsUserMessage
  rw [String.toList_append, List.isPrefixOf_iff_prefix]
  exact List.prefix_append _ _

theorem likeUserMessage_append (rest : String) :
    likeUserMessage (userMessageKeyFront ++ rest) = true := by
  unfold likeUserMessage
  rw [String.toList_append, String.toList_append]
  exact sqlLike_append (by decide) (sqlLike_percent _)

/-- A key that starts with another letter passes neither test. -/
theorem not_userMessage {c : Char} {text rest : String} {tail : List Char}
    (htext : text.toList = c :: tail) (hc : 'u' ≠ c ∧ 'u'.toLower ≠ c.toLower) :
    startsAsUserMessage (text ++ rest) = false ∧ likeUserMessage (text ++ rest) = false := by
  have hkey : (text ++ rest).toList = c :: (tail ++ rest.toList) := by
    rw [String.toList_append, htext]
    rfl
  constructor
  · unfold startsAsUserMessage
    rw [hkey]
    have hfront : userMessageKeyFront.toList = 'u' :: "ser_message:".toList := rfl
    rw [hfront, List.isPrefixOf_cons_cons]
    simp [hc.1]
  · unfold likeUserMessage
    rw [hkey]
    exact sqlLike_other (by decide) (by decide) hc.2

/-- **On stored keys both tests are the same.** -/
theorem like_eq_starts {Args : Type} {event : AgentEvent Args} (h : isPersistable event = true)
    (seq : Int) :
    likeUserMessage ((timelineItemKey event).getD (keylessKey event seq)) =
      startsAsUserMessage ((timelineItemKey event).getD (keylessKey event seq)) := by
  have hother : ∀ (text rest : String) (c : Char) (tail : List Char), text.toList = c :: tail →
      ('u' ≠ c ∧ 'u'.toLower ≠ c.toLower) →
      likeUserMessage (text ++ rest) = startsAsUserMessage (text ++ rest) := by
    intro text rest c tail htext hc
    obtain ⟨hstarts, hlike⟩ := @not_userMessage c text rest tail htext hc
    rw [hstarts, hlike]
  cases event with
  | runState running => cases h
  | done nestedCallId => cases h
  | content event nestedFor =>
      obtain ⟨createdAt, eventSeq, agentName, nestedCallId, body⟩ := event
      cases body with
      | segment kind complete segmentId text =>
          cases kind with
          | text =>
              simp only [timelineItemKey, Option.getD_some, String.append_assoc]
              exact hother "text:" _ 't' "ext:".toList rfl (by decide)
          | thinking =>
              simp only [timelineItemKey, Option.getD_some, String.append_assoc]
              exact hother "thinking:" _ 't' "hinking:".toList rfl (by decide)
      | toolCall callId name arguments =>
          simp only [timelineItemKey, Option.getD_some, String.append_assoc]
          exact hother "tc:" _ 't' "c:".toList rfl (by decide)
      | toolResult callId output isError =>
          simp only [timelineItemKey, Option.getD_some, String.append_assoc]
          exact hother "tr:" _ 't' "r:".toList rfl (by decide)
      | subagentTask task =>
          simp only [timelineItemKey, Option.getD_some]
          exact hother "sa:" _ 's' "a:".toList rfl (by decide)
      | userMessage content displayText targetAgentCode =>
          have hkey : keylessKey (.content ⟨createdAt, eventSeq, agentName, nestedCallId,
              .userMessage content displayText targetAgentCode⟩ nestedFor : AgentEvent Args) seq =
              userMessageKeyFront ++ toString seq := by
            unfold keylessKey userMessageKeyFront
            rfl
          simp only [timelineItemKey, Option.getD_none]
          rw [hkey, likeUserMessage_append, startsAsUserMessage_append]
      | turnBoundary =>
          simp only [timelineItemKey, Option.getD_none, keylessKey, TimelineLog.typeOf,
            Timeline.eventType, String.append_assoc]
          exact hother "turn_boundary" _ 't' "urn_boundary".toList rfl (by decide)
      | error message =>
          simp only [timelineItemKey, Option.getD_none, keylessKey, TimelineLog.typeOf,
            Timeline.eventType, String.append_assoc]
          exact hother "error" _ 'e' "rror".toList rfl (by decide)

/-! ### Pages are intervals -/

section Interval

variable {rows : List EventLogRow}

/-- Rows in the order of their numbers. -/
def Ascending (rows : List EventLogRow) : Prop := rows.Pairwise fun a b => a.seq < b.seq

theorem below_sublist (beforeSeq : Option Int) : (below rows beforeSeq).Sublist rows :=
  List.filter_sublist

theorem mem_below {beforeSeq : Option Int} {row : EventLogRow} :
    row ∈ below rows beforeSeq ↔ row ∈ rows ∧ ∀ b ∈ beforeSeq, row.seq < b := by
  unfold below
  rw [List.mem_filter, Option.all_eq_true]
  simp only [decide_eq_true_eq]
  rfl

theorem mem_below_some {b : Int} {row : EventLogRow} :
    row ∈ below rows (some b) ↔ row ∈ rows ∧ row.seq < b := by
  rw [mem_below]
  simp

/-- Fewer rows are below a row than below the cursor above it. -/
theorem below_shorter {beforeSeq : Option Int} {first : EventLogRow}
    (h : first ∈ below rows beforeSeq) :
    (below rows (some first.seq)).length < (below rows beforeSeq).length := by
  have hfilter : below rows (some first.seq) =
      (below rows beforeSeq).filter fun row => decide (row.seq < first.seq) := by
    unfold below
    rw [List.filter_filter]
    refine List.filter_congr fun row hrow => ?_
    cases beforeSeq with
    | none => simp
    | some b =>
        have hb := (mem_below.mp h).2 b rfl
        simp only [Option.all_some]
        rw [Bool.eq_iff_iff, Bool.and_eq_true, decide_eq_true_eq, decide_eq_true_eq]
        omega
  rw [hfilter, List.length_filter_lt_length_iff_exists]
  exact ⟨first, h, by simp⟩

/-- Two rows of one number are one row. -/
theorem eq_of_seq_eq (h : (rows.map EventLogRow.seq).Nodup) {a b : EventLogRow} (ha : a ∈ rows)
    (hb : b ∈ rows) (hseq : a.seq = b.seq) : a = b := by
  induction rows with
  | nil => cases ha
  | cons row rest ih =>
      obtain ⟨hfirst, hrest⟩ := List.nodup_cons.mp h
      rcases List.mem_cons.mp ha with hfa | ha
      · rcases List.mem_cons.mp hb with hfb | hb
        · rw [hfa, hfb]
        · rw [hfa] at hseq
          exact absurd (List.mem_map.mpr ⟨b, hb, hseq.symm⟩) hfirst
      · rcases List.mem_cons.mp hb with hfb | hb
        · rw [hfb] at hseq
          exact absurd (List.mem_map.mpr ⟨a, ha, hseq⟩) hfirst
        · exact ih hrest ha hb

/-- Rows that are sorted by their numbers. -/
theorem mergeSort_seq (r : Int → Int → Bool) (htrans : ∀ a b c, r a b = true → r b c = true → r a c = true)
    (htotal : ∀ a b, (r a b || r b a) = true) (rows : List EventLogRow) :
    (rows.mergeSort fun a b => r a.seq b.seq).Pairwise fun a b => r a.seq b.seq = true :=
  List.pairwise_mergeSort (fun a b c => htrans a.seq b.seq c.seq) (fun a b => htotal a.seq b.seq) rows

theorem gapRows_ascending (h : (rows.map EventLogRow.seq).Nodup) (start firstSeq : Int) :
    Ascending (gapRows rows start firstSeq) := by
  unfold gapRows Ascending
  have hnodup : ((gapRows rows start firstSeq).map EventLogRow.seq).Nodup :=
    (((List.mergeSort_perm _ _).map EventLogRow.seq).nodup_iff).mpr
      (h.sublist (List.filter_sublist.map EventLogRow.seq))
  have hsorted := mergeSort_seq (fun a b => decide (a ≤ b)) (by simp; omega) (by simp; omega)
    (rows.filter fun row => decide (start ≤ row.seq) && decide (row.seq < firstSeq))
  exact ((hsorted.imp fun hle => of_decide_eq_true hle).and (List.pairwise_map.mp hnodup)).imp
    fun ⟨hle, hne⟩ => by omega

theorem mem_gapRows {start firstSeq : Int} {row : EventLogRow} :
    row ∈ gapRows rows start firstSeq ↔ row ∈ rows ∧ start ≤ row.seq ∧ row.seq < firstSeq := by
  unfold gapRows
  rw [List.mem_mergeSort, List.mem_filter]
  simp

/-- The latest rows are the newest of those below the cursor. -/
theorem latestRows_spec (h : (rows.map EventLogRow.seq).Nodup) (beforeSeq : Option Int)
    (limit : Nat) :
    Ascending (latestRows rows beforeSeq limit) ∧
      (∀ row ∈ latestRows rows beforeSeq limit, row ∈ below rows beforeSeq) ∧
      ∀ first ∈ (latestRows rows beforeSeq limit).head?, ∀ row ∈ below rows beforeSeq,
        first.seq ≤ row.seq → row ∈ latestRows rows beforeSeq limit := by
  unfold latestRows Ascending
  generalize hsort : ((below rows beforeSeq).mergeSort fun a b => decide (b.seq ≤ a.seq)) = sorted
  have hmem : ∀ row, row ∈ sorted ↔ row ∈ below rows beforeSeq := by
    intro row
    rw [← hsort, List.mem_mergeSort]
  have hnodup : (sorted.map EventLogRow.seq).Nodup := by
    rw [← hsort]
    exact (((List.mergeSort_perm _ _).map EventLogRow.seq).nodup_iff).mpr
      (h.sublist ((below_sublist beforeSeq).map EventLogRow.seq))
  have hsorted : sorted.Pairwise fun a b => b.seq < a.seq := by
    have hle := mergeSort_seq (fun a b => decide (b ≤ a)) (by simp; omega) (by simp; omega)
      (below rows beforeSeq)
    rw [hsort] at hle
    exact ((hle.imp fun hle => of_decide_eq_true hle).and (List.pairwise_map.mp hnodup)).imp
      fun ⟨hle, hne⟩ => by omega
  refine ⟨?_, ?_, ?_⟩
  · rw [List.pairwise_reverse]
    exact hsorted.sublist (List.take_sublist _ _)
  · intro row hrow
    exact (hmem row).mp (List.mem_of_mem_take (List.mem_reverse.mp hrow))
  · intro first hfirst row hrow hle
    rw [List.head?_reverse] at hfirst
    rw [List.mem_reverse]
    -- a row that is not among the newest is older than all of them
    have hsplit : sorted.take limit ++ sorted.drop limit = sorted := List.take_append_drop _ _
    have hin := (hmem row).mpr hrow
    rw [← hsplit, List.mem_append] at hin
    refine hin.resolve_right fun hdrop => ?_
    rw [← hsplit, List.pairwise_append] at hsorted
    have hlt := hsorted.2.2 first (List.mem_of_getLast? hfirst) row hdrop
    omega

/-- A page: an interval of the rows, which starts at a user message if there is
one as old. -/
structure IsPage (rows : List EventLogRow) (beforeSeq : Option Int) (page : List EventLogRow)
    (first : EventLogRow) : Prop where
  head : page.head? = some first
  ascending : Ascending page
  mem : ∀ row, row ∈ page ↔ row ∈ below rows beforeSeq ∧ first.seq ≤ row.seq
  aligned : ∀ user ∈ rows, startsAsUserMessage user.itemKey = true → user.seq ≤ first.seq →
    startsAsUserMessage first.itemKey = true

/-- `turn_start` is the newest user message that is older. -/
theorem turnStart_spec (firstSeq : Int)
    (hlike : ∀ row ∈ rows, likeUserMessage row.itemKey = startsAsUserMessage row.itemKey) :
    match turnStart rows firstSeq with
    | none => ∀ row ∈ rows, startsAsUserMessage row.itemKey = true → ¬ row.seq < firstSeq
    | some start => ∃ row ∈ rows, row.seq = start ∧ start < firstSeq ∧
        startsAsUserMessage row.itemKey = true := by
  unfold turnStart
  split
  · rename_i hnone
    intro row hrow huser hlt
    rw [List.max?_eq_none_iff, List.map_eq_nil_iff, List.filter_eq_nil_iff] at hnone
    exact hnone row hrow (by simp [hlt, hlike row hrow, huser])
  · rename_i start hstart
    obtain ⟨row, hrow, rfl⟩ := List.mem_map.mp (List.max?_mem hstart)
    obtain ⟨hin, hboth⟩ := List.mem_filter.mp hrow
    rw [Bool.and_eq_true, decide_eq_true_eq, hlike row hin] at hboth
    exact ⟨row, hin, rfl, hboth.1, hboth.2⟩

/-- **What is fetched is a page.** -/
theorem pageRows_isPage (h : (rows.map EventLogRow.seq).Nodup)
    (hlike : ∀ row ∈ rows, likeUserMessage row.itemKey = startsAsUserMessage row.itemKey)
    {beforeSeq : Option Int} {limit : Nat} (hlimit : 0 < limit) (hsome : below rows beforeSeq ≠ []) :
    ∃ first, IsPage rows beforeSeq (pageRows rows (latestRows rows beforeSeq limit)) first := by
  obtain ⟨hascending, hbelow, hnewest⟩ := latestRows_spec h beforeSeq limit
  cases hlatest : latestRows rows beforeSeq limit with
  | nil =>
      exfalso
      unfold latestRows at hlatest
      rw [List.reverse_eq_nil_iff, List.take_eq_nil_iff] at hlatest
      rcases hlatest with hzero | hnil
      · omega
      · exact hsome (List.perm_nil.mp (hnil ▸ (List.mergeSort_perm _ _).symm))
  | cons first rest =>
      rw [hlatest] at hascending hbelow hnewest
      have hfirst := hbelow first List.mem_cons_self
      have hinterval : ∀ row, row ∈ first :: rest ↔ row ∈ below rows beforeSeq ∧ first.seq ≤ row.seq := by
        intro row
        constructor
        · intro hrow
          refine ⟨hbelow row hrow, ?_⟩
          rcases List.mem_cons.mp hrow with rfl | hrow
          · exact Int.le_refl _
          · exact Int.le_of_lt ((List.pairwise_cons.mp hascending).1 row hrow)
        · rintro ⟨hrow, hle⟩
          exact hnewest first rfl row hrow hle
      have hfirstRow := (mem_below.mp hfirst).1
      unfold pageRows
      simp only
      split
      · rename_i huser
        exact ⟨first, rfl, hascending, hinterval, fun _ _ _ _ => huser⟩
      · rename_i huser
        have hspec := turnStart_spec first.seq hlike
        split
        · rename_i hnone
          rw [hnone] at hspec
          refine ⟨first, rfl, hascending, hinterval, fun user hmem huser' hle => ?_⟩
          have hnot := hspec user hmem huser'
          obtain rfl := eq_of_seq_eq h hmem hfirstRow (by omega)
          exact huser'
        · rename_i start hstart
          rw [hstart] at hspec
          obtain ⟨turn, hturn, rfl, hlt, hturnUser⟩ := hspec
          rw [if_pos hlt]
          have hgap := gapRows_ascending h turn.seq first.seq
          have hturnIn : turn ∈ gapRows rows turn.seq first.seq :=
            mem_gapRows.mpr ⟨hturn, Int.le_refl _, hlt⟩
          cases hgapRows : gapRows rows turn.seq first.seq with
          | nil =>
              rw [hgapRows] at hturnIn
              cases hturnIn
          | cons oldest others =>
              have holdest : oldest ∈ gapRows rows turn.seq first.seq := by
                rw [hgapRows]
                exact List.mem_cons_self
              -- the oldest row of the gap is the start of the turn
              have hsame : oldest = turn := by
                refine eq_of_seq_eq h (mem_gapRows.mp holdest).1 hturn ?_
                have hge := (mem_gapRows.mp holdest).2.1
                rw [hgapRows] at hturnIn hgap
                rcases List.mem_cons.mp hturnIn with heq | hlater
                · rw [heq]
                · have := (List.pairwise_cons.mp hgap).1 turn hlater
                  omega
              refine ⟨turn, by rw [List.cons_append, hsame]; rfl, ?_, ?_, fun _ _ _ _ => hturnUser⟩
              · rw [← hgapRows]
                refine List.pairwise_append.mpr ⟨hgap, hascending, fun a ha b hb => ?_⟩
                have hlt' := (mem_gapRows.mp ha).2.2
                have hle := ((hinterval b).mp hb).2
                omega
              · intro row
                rw [← hgapRows, List.mem_append, mem_gapRows, hinterval]
                constructor
                · rintro (⟨hrow, hge, hlt'⟩ | ⟨hrow, hle⟩)
                  · refine ⟨mem_below.mpr ⟨hrow, fun b hb => ?_⟩, hge⟩
                    have := (mem_below.mp hfirst).2 b hb
                    omega
                  · exact ⟨hrow, by omega⟩
                · rintro ⟨hrow, hge⟩
                  by_cases hlt' : row.seq < first.seq
                  · exact .inl ⟨(mem_below.mp hrow).1, hge, hlt'⟩
                  · exact .inr ⟨hrow, by omega⟩

end Interval

/-! ### A run of pages -/

section Run

variable {Args : Type} {loads : String → Option Value}

/-- The item of a row. -/
def IsItem (loads : String → Option Value) (row : EventLogRow) (item : Int × Dict) : Prop :=
  item.1 = row.seq ∧ loads row.payload = some (.dict item.2)

theorem mem_pageItems {rows : List EventLogRow} {item : Int × Dict} :
    item ∈ pageItems loads rows ↔ ∃ row ∈ rows, IsItem loads row item := by
  unfold pageItems
  rw [List.mem_filterMap]
  refine exists_congr fun row => and_congr_right fun _ => ?_
  unfold IsItem
  split
  · rename_i payload hloads
    rw [hloads]
    simp only [Option.some.injEq, Value.dict.injEq]
    constructor
    · rintro rfl
      exact ⟨rfl, rfl⟩
    · rintro ⟨hseq, rfl⟩
      exact Prod.ext hseq.symm rfl
  · rename_i hother
    constructor
    · intro h
      cases h
    · rintro ⟨-, hloads⟩
      exact absurd hloads (hother item.2)

theorem pageItems_ascending {rows : List EventLogRow} (h : Ascending rows) :
    (pageItems loads rows).Pairwise fun a b => a.1 < b.1 := by
  unfold pageItems
  rw [List.pairwise_filterMap]
  refine h.imp fun {a b} hlt x hx y hy => ?_
  have hseq : ∀ (row : EventLogRow) (item : Int × Dict), (match loads row.payload with
      | some (.dict payload) => some (row.seq, payload)
      | _ => none) = some item → item.1 = row.seq := by
    intro row item hitem
    split at hitem
    · rw [← Option.some.inj hitem]
    · cases hitem
  rw [hseq a x hx, hseq b y hy]
  exact hlt

/-- The first row of a page gives its first item. -/
theorem pageItems_head {rows : List EventLogRow} {first : EventLogRow} (hhead : rows.head? = some first)
    {fields : Dict} (hloads : loads first.payload = some (.dict fields)) :
    (pageItems loads rows).head? = some (first.seq, fields) := by
  cases rows with
  | nil => cases hhead
  | cons row rest =>
      obtain rfl := Option.some.inj hhead
      unfold pageItems
      rw [List.filterMap_cons_some (by rw [hloads])]
      rfl

/-- What a run of pages from a cursor on is like. -/
structure Covers (rows : List EventLogRow) (loads : String → Option Value) (beforeSeq : Option Int)
    (pages : List Page) : Prop where
  ascending : ∀ page ∈ pages, page.items.Pairwise fun a b => a.1 < b.1
  disjoint : pages.Pairwise fun page later => ∀ a ∈ page.items, ∀ b ∈ later.items, b.1 < a.1
  complete : ∀ row ∈ below rows beforeSeq, ∃ page ∈ pages, ∃ item ∈ page.items, IsItem loads row item
  stored : ∀ page ∈ pages, ∀ item ∈ page.items, ∃ row ∈ below rows beforeSeq, IsItem loads row item
  aligned : ∀ page ∈ pages, ∀ item ∈ page.items.head?,
    (∃ user ∈ rows, startsAsUserMessage user.itemKey = true ∧ user.seq ≤ item.1) →
    ∃ row ∈ rows, row.seq = item.1 ∧ startsAsUserMessage row.itemKey = true

variable (timeline : StoredTimeline Args loads)

theorem StoredTimeline.like : ∀ row ∈ timeline.rows,
    likeUserMessage row.itemKey = startsAsUserMessage row.itemKey := by
  intro row hrow
  obtain ⟨event, seq, hpersistable, hkey⟩ := timeline.keyed row hrow
  rw [hkey]
  exact like_eq_starts hpersistable seq

/-- Where nothing is below the cursor, the page is empty and the last one. -/
theorem fetchTimelinePage_nil {rows : List EventLogRow} {beforeSeq : Option Int}
    (h : below rows beforeSeq = []) (limit : Int) :
    fetchTimelinePage loads rows beforeSeq limit = ⟨[], false, none⟩ := by
  have hlatest : latestRows rows beforeSeq (max 1 limit).toNat = [] := by
    unfold latestRows
    rw [h, List.mergeSort_nil, List.take_nil]
    rfl
  unfold fetchTimelinePage
  rw [hlatest]
  rfl

/-- Otherwise it is a page, with the cursor at its first row. -/
theorem fetchTimelinePage_spec {beforeSeq : Option Int} (h : below timeline.rows beforeSeq ≠ [])
    (limit : Int) :
    ∃ rows first, IsPage timeline.rows beforeSeq rows first ∧
      fetchTimelinePage loads timeline.rows beforeSeq limit =
        ⟨pageItems loads rows, decide (below timeline.rows (some first.seq) ≠ []),
          if below timeline.rows (some first.seq) ≠ [] then some first.seq else none⟩ := by
  have hlimit : 0 < (max 1 limit).toNat := by omega
  obtain ⟨first, hpage⟩ := pageRows_isPage timeline.distinct timeline.like hlimit h
  refine ⟨_, first, hpage, ?_⟩
  have hmore : (timeline.rows.any fun row => decide (row.seq < first.seq)) =
      decide (below timeline.rows (some first.seq) ≠ []) := by
    rw [Bool.eq_iff_iff, List.any_eq_true, decide_eq_true_eq, ne_eq, List.eq_nil_iff_forall_not_mem]
    simp only [mem_below, Option.mem_some_iff, forall_eq', decide_eq_true_eq, Classical.not_forall,
      Classical.not_not]
  unfold fetchTimelinePage
  simp only
  cases hrows : pageRows timeline.rows
      (latestRows timeline.rows beforeSeq (max 1 limit).toNat) with
  | nil =>
      have hhead := hpage.head
      rw [hrows] at hhead
      cases hhead
  | cons row rest =>
      have hhead := hpage.head
      rw [hrows] at hhead
      obtain rfl := Option.some.inj hhead
      simp only [hmore, decide_eq_true_eq]

/-- **Run.**  From any cursor the pages end and cover what is below it. -/
theorem pagesFrom_covers (limits : Nat → Int) (n i : Nat) (beforeSeq : Option Int)
    (hn : (below timeline.rows beforeSeq).length ≤ n) :
    ∃ pages, pagesFrom loads timeline.rows limits (n + 1) i beforeSeq = some pages ∧
      Covers timeline.rows loads beforeSeq pages := by
  induction n generalizing i beforeSeq with
  | zero =>
      have hnil := List.length_eq_zero_iff.mp (Nat.le_zero.mp hn)
      refine ⟨[⟨[], false, none⟩], by simp [pagesFrom, fetchTimelinePage_nil hnil], ?_⟩
      constructor <;> simp [hnil]
  | succ n ih =>
      by_cases hnil : below timeline.rows beforeSeq = []
      · refine ⟨[⟨[], false, none⟩], by simp [pagesFrom, fetchTimelinePage_nil hnil], ?_⟩
        constructor <;> simp [hnil]
      · obtain ⟨rows, first, hpage, hfetch⟩ := fetchTimelinePage_spec timeline hnil (limits i)
        have hfirst : first ∈ below timeline.rows beforeSeq :=
          ((hpage.mem first).mp (List.mem_of_mem_head? hpage.head)).1
        obtain ⟨fields, hfields⟩ := timeline.objects first (mem_below.mp hfirst).1
        have haligned : ∀ item ∈ (pageItems loads rows).head?,
            (∃ user ∈ timeline.rows, startsAsUserMessage user.itemKey = true ∧ user.seq ≤ item.1) →
            ∃ row ∈ timeline.rows, row.seq = item.1 ∧ startsAsUserMessage row.itemKey = true := by
          intro item hitem huser
          rw [pageItems_head hpage.head hfields] at hitem
          obtain rfl := Option.some.inj hitem
          obtain ⟨user, hmem, hkey, hle⟩ := huser
          exact ⟨first, (mem_below.mp hfirst).1, rfl, hpage.aligned user hmem hkey hle⟩
        have hstored : ∀ item ∈ pageItems loads rows,
            ∃ row ∈ below timeline.rows beforeSeq, IsItem loads row item := by
          intro item hitem
          obtain ⟨row, hrow, his⟩ := mem_pageItems.mp hitem
          exact ⟨row, ((hpage.mem row).mp hrow).1, his⟩
        have hcomplete : ∀ row ∈ below timeline.rows beforeSeq, first.seq ≤ row.seq →
            ∃ item ∈ pageItems loads rows, IsItem loads row item := by
          intro row hrow hle
          obtain ⟨fields, hfields⟩ := timeline.objects row (mem_below.mp hrow).1
          exact ⟨(row.seq, fields), mem_pageItems.mpr ⟨row, (hpage.mem row).mpr ⟨hrow, hle⟩, rfl, hfields⟩,
            rfl, hfields⟩
        by_cases hmore : below timeline.rows (some first.seq) = []
        · -- the last page
          refine ⟨[⟨pageItems loads rows, false, none⟩], by simp [pagesFrom, hfetch, hmore], ?_⟩
          refine ⟨by simpa using pageItems_ascending hpage.ascending, by simp, ?_,
            by simpa using hstored, by simpa using haligned⟩
          intro row hrow
          have hnot : row ∉ below timeline.rows (some first.seq) := by simp [hmore]
          rw [mem_below_some, not_and] at hnot
          exact ⟨_, List.mem_singleton_self _,
            hcomplete row hrow (Int.not_lt.mp (hnot (mem_below.mp hrow).1))⟩
        · have hshorter := below_shorter hfirst
          obtain ⟨pages, hpages, hcovers⟩ := ih (i + 1) (some first.seq) (by omega)
          refine ⟨⟨pageItems loads rows, true, some first.seq⟩ :: pages, ?_, ?_⟩
          · rw [pagesFrom]
            simp [hfetch, hmore, hpages]
          have hinside : ∀ row ∈ below timeline.rows (some first.seq),
              row ∈ below timeline.rows beforeSeq := by
            intro row hrow
            obtain ⟨hmem, hlt⟩ := mem_below_some.mp hrow
            refine mem_below.mpr ⟨hmem, fun b hb => ?_⟩
            have := (mem_below.mp hfirst).2 b hb
            omega
          refine ⟨?_, ?_, ?_, ?_, ?_⟩
          · intro page hmem
            rcases List.mem_cons.mp hmem with rfl | hmem
            · exact pageItems_ascending hpage.ascending
            · exact hcovers.ascending page hmem
          · refine List.pairwise_cons.mpr ⟨fun later hlater a ha b hb => ?_, hcovers.disjoint⟩
            obtain ⟨row, hrow, hseq, -⟩ := hcovers.stored later hlater b hb
            obtain ⟨newer, hnewer, hseq', -⟩ := mem_pageItems.mp ha
            have hlt := (mem_below_some.mp hrow).2
            have hle := ((hpage.mem newer).mp hnewer).2
            omega
          · intro row hrow
            by_cases hlt : row.seq < first.seq
            · obtain ⟨page, hmem, hitem⟩ := hcovers.complete row
                (mem_below_some.mpr ⟨(mem_below.mp hrow).1, hlt⟩)
              exact ⟨page, List.mem_cons_of_mem _ hmem, hitem⟩
            · exact ⟨_, List.mem_cons_self, hcomplete row hrow (Int.not_lt.mp hlt)⟩
          · intro page hmem item hitem
            rcases List.mem_cons.mp hmem with rfl | hmem
            · exact hstored item hitem
            · obtain ⟨row, hrow, his⟩ := hcovers.stored page hmem item hitem
              exact ⟨row, hinside row hrow, his⟩
          · intro page hmem
            rcases List.mem_cons.mp hmem with rfl | hmem
            · exact haligned
            · exact hcovers.aligned page hmem

end Run

end Workbench.TimelinePages
