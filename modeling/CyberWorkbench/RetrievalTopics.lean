import CyberWorkbench.Utterances
import CyberWorkbench.ContextProjection
import CyberWorkbench.ToolOutput

/-!
# The history in a retrieval query

`core/conversation/retrieval`: the current message and what the user wrote
before it, as the text that knowledge is looked up with.  `_history_context`
goes over the session's items from the last one back and keeps a budget of
characters, a limit on the number of topics and the keys it has seen.

One item adds a topic or none (`visitItem_cases`), and from that all bounds
follow for every list of items (`historyContext_topics`).
-/

namespace Workbench.Conversation

open PythonValues Toolpack

variable (unicode : Unicode)

/-! ### Formats -/

/-- `CONTEXT_SUMMARY_HEADER` -/
def contextSummaryHeader : String := "# Context Summary"

/-- `is_context_summary_item` -/
def isContextSummaryItem (item : Dict) : Bool :=
  (Dict.get item "type").isText "message" && (Dict.get item "role").isText "user" &&
    (Dict.get item "id").isText contextSummaryItemId

/-- `text.replace("\r\n", "\n").replace("\r", "\n")` -/
def normalizeNewlines : List Char → List Char
  | [] => []
  | '\r' :: '\n' :: rest => '\n' :: normalizeNewlines rest
  | c :: rest => (if c = '\r' then '\n' else c) :: normalizeNewlines rest

/-- The categories of characters that are no text. -/
def removedCategories : List String := ["Cc", "Cf", "Cs"]

/-- `sanitize_context_text` -/
def sanitizeContextText (text : String) : String :=
  String.ofList ((normalizeNewlines text.toList).filter fun c =>
    c = '\n' || c = '\t' || !removedCategories.contains (unicode.category c))

/-- `str.lstrip` -/
def lstrip (text : String) : String := String.ofList (text.toList.dropWhile isSpace)

/-- `str.rstrip` -/
def rstrip (text : String) : String :=
  String.ofList (text.toList.reverse.dropWhile isSpace).reverse

/-- `_starts_with_header` -/
def startsWithHeader (text header : String) : Bool :=
  lstrip text = header || (header ++ "\n").toList.isPrefixOf (lstrip text).toList

/-- The lines of a section, up to the next header of its level. -/
def sectionLines : List String → List String
  | [] => []
  | line :: rest =>
      if "## ".toList.isPrefixOf (unicode.casefold (strip line)).toList then []
      else line :: sectionLines rest

/-- The lines after the header of a section, if there is one. -/
def afterHeader (target : String) : List String → Option (List String)
  | [] => none
  | line :: rest =>
      if unicode.casefold (strip line) = target then some rest else afterHeader target rest

/-- `context_summary_section` -/
def contextSummarySection (text title : String) : String :=
  if startsWithHeader text contextSummaryHeader then
    match afterHeader unicode (unicode.casefold ("## " ++ title))
        (splitLines (sanitizeContextText unicode text)) with
    | none => ""
    | some lines => strip ("\n".intercalate (sectionLines unicode lines))
  else ""

/-! ### Normal texts -/

/-- The lines of a text without the space around them; of empty lines one is
kept between others. -/
def collapseLines : List String → List String → Bool → List String
  | [], lines, _ => lines
  | line :: rest, lines, blank =>
      if strip line ≠ "" then collapseLines rest (lines ++ [strip line]) false
      else if lines ≠ [] && !blank then collapseLines rest (lines ++ [""]) true
      else collapseLines rest lines blank

/-- `_normalize_text` -/
def normalizeText (value : String) : String :=
  strip ("\n".intercalate (collapseLines (splitLines (sanitizeContextText unicode value)) [] false))

/-- `_clip_text` -/
def clipText (value : String) (limit : Nat) : String :=
  if value.length ≤ limit then value else rstrip (String.ofList (value.toList.take limit))

/-! ### The query -/

/-- `_HISTORY_ITEM_LIMIT` -/
def historyItemLimit : Nat := 32

/-- `_RECENT_TOPIC_LIMIT` -/
def recentTopicLimit : Nat := 3

/-- `_CURRENT_TEXT_MAX_CHARS` -/
def currentTextMaxChars : Nat := 4000

/-- `_RECENT_TOPICS_MAX_CHARS` -/
def recentTopicsMaxChars : Nat := 2000

/-- `_RECENT_TOPIC_MAX_CHARS` -/
def recentTopicMaxChars : Nat := 800

/-- `_EMPTY_SUMMARY_KEYS` -/
def emptySummaryKeys : List String := ["none", "无", "暂无", "没有"]

/-- `_summary_retrieval_text` -/
def summaryRetrievalText (summary : String) : String :=
  let userGoals := clipText (normalizeText unicode (contextSummarySection unicode summary "User Goals"))
    recentTopicsMaxChars
  if emptySummaryKeys.contains (canonicalUtteranceKey unicode userGoals) then "" else userGoals

/-- What the loop of `_history_context` keeps; the last topic is the oldest. -/
structure History where
  seen : List String
  recent : List String
  recentChars : Nat
  retrievalSummary : String

/-- The text of an item. -/
def itemText (item : Dict) : String :=
  normalizeText unicode (extractMessageText (Dict.get item "content"))

/-- What is left of the budget for one more topic; 0 stands for less as well. -/
def History.remaining (s : History) : Nat :=
  recentTopicsMaxChars - s.recentChars - if s.recent = [] then 0 else 2

/-- An item that is neither internal nor without a topic. -/
def addTopic (s : History) (text : String) : History :=
  if s.remaining = 0 || decide (recentTopicLimit ≤ s.recent.length) then s
  else
    let topic := clipText text (min recentTopicMaxChars s.remaining)
    let key := canonicalUtteranceKey unicode topic
    if topic = "" then s
    else if key = "" || s.seen.contains key then s
    else
      { s with
        seen := key :: s.seen
        recent := s.recent ++ [topic]
        recentChars := s.recentChars + (if s.recent = [] then 0 else 2) + topic.length }

/-- One round of the loop of `_history_context`. -/
def visitItem (s : History) : Value → History
  | .dict item =>
      if !(Dict.get item "role").isText "user" then s
      else if itemText unicode item = "" then s
      else if isContextSummaryItem item then
        if s.retrievalSummary = "" then
          { s with retrievalSummary := summaryRetrievalText unicode (itemText unicode item) }
        else s
      else if isInternalContextItem item then s
      else if isNonTopicUtterance unicode (itemText unicode item) then s
      else addTopic unicode s (itemText unicode item)
  | _ => s

/-- Before the loop. -/
def History.start (current : String) : History where
  seen := if canonicalUtteranceKey unicode current = "" then []
    else [canonicalUtteranceKey unicode current]
  recent := []
  recentChars := 0
  retrievalSummary := ""

/-- `_history_context` -/
def historyContext (items : List Value) (current : String) : String × String :=
  let s := items.reverse.foldl (visitItem unicode) (History.start unicode current)
  ("\n\n".intercalate s.recent.reverse, s.retrievalSummary)

/-- `_format_retrieval_query` -/
def formatRetrievalQuery (current historical : String) : String :=
  "\n\n".intercalate
    ((if current = "" then [] else ["Current user message:\n" ++ current]) ++
      if historical = "" then [] else ["Recent user topics:\n" ++ historical])

/-- `build_conversation_retrieval_query`; the items are missing where loading
them fails. -/
def buildConversationRetrievalQuery (items : Option (List Value)) (currentText : String) : String :=
  let clipped := clipText (normalizeText unicode currentText) currentTextMaxChars
  let current := if isNonTopicUtterance unicode clipped then "" else clipped
  match items with
  | none => formatRetrievalQuery current ""
  | some items =>
      let history := historyContext unicode items current
      formatRetrievalQuery current (if history.1 = "" then history.2 else history.1)

/-! ### Clipping and joining -/

theorem clipText_prefix (value : String) (limit : Nat) :
    (clipText value limit).toList <+: value.toList := by
  unfold clipText
  split
  · exact List.prefix_refl _
  · unfold rstrip
    rw [String.toList_ofList, String.toList_ofList]
    refine List.IsPrefix.trans ?_ (List.take_prefix limit value.toList)
    rw [← List.reverse_suffix, List.reverse_reverse]
    exact List.dropWhile_suffix _

theorem length_clipText (value : String) (limit : Nat) : (clipText value limit).length ≤ limit := by
  unfold clipText
  split
  · assumption
  · unfold rstrip
    have hdrop := (List.dropWhile_suffix (p := isSpace)
      (l := (String.ofList (value.toList.take limit)).toList.reverse)).length_le
    rw [String.toList_ofList, List.length_reverse, List.length_take] at hdrop
    rw [String.length_ofList, List.length_reverse, String.toList_ofList]
    omega

theorem length_intercalate (separator : String) (texts : List String) :
    (separator.intercalate texts).length =
      (texts.map String.length).sum + separator.length * (texts.length - 1) := by
  induction texts with
  | nil => simp
  | cons first rest ih =>
      cases rest with
      | nil => simp
      | cons second rest =>
          rw [String.intercalate_cons_cons, String.length_append, String.length_append, ih]
          simp only [List.map_cons, List.sum_cons, List.length_cons, Nat.add_sub_cancel,
            Nat.mul_succ]
          omega

/-! ### One round of the loop -/

/-- **A topic of an item**: the item is one of the user, neither internal nor
without a topic, and the topic is the first part of its text. -/
structure TopicOf (item : Dict) (topic : String) : Prop where
  role : (Dict.get item "role").isText "user" = true
  notSummary : isContextSummaryItem item = false
  notInternal : isInternalContextItem item = false
  hasTopic : isNonTopicUtterance unicode (itemText unicode item) = false
  begins : topic.toList <+: (itemText unicode item).toList
  short : topic.length ≤ recentTopicMaxChars

/-- The loop goes on with one more topic. -/
structure AddsTopic (s t : History) (topic : String) : Prop where
  left : s.remaining ≠ 0
  fits : topic.length ≤ s.remaining
  room : s.recent.length < recentTopicLimit
  key : canonicalUtteranceKey unicode topic ≠ ""
  fresh : canonicalUtteranceKey unicode topic ∉ s.seen
  seen : t.seen = canonicalUtteranceKey unicode topic :: s.seen
  recent : t.recent = s.recent ++ [topic]
  recentChars : t.recentChars = s.recentChars + (if s.recent = [] then 0 else 2) + topic.length

/-- The topics stay as they are. -/
structure SameTopics (s t : History) : Prop where
  seen : t.seen = s.seen
  recent : t.recent = s.recent
  recentChars : t.recentChars = s.recentChars

theorem addTopic_cases (s : History) (text : String) :
    SameTopics s (addTopic unicode s text) ∨
      ∃ topic, AddsTopic unicode s (addTopic unicode s text) topic ∧
        topic.toList <+: text.toList ∧ topic.length ≤ recentTopicMaxChars := by
  unfold addTopic
  split
  · exact .inl ⟨rfl, rfl, rfl⟩
  · rename_i hroom
    rw [Bool.or_eq_true, decide_eq_true_eq, decide_eq_true_eq, not_or] at hroom
    simp only
    split
    · exact .inl ⟨rfl, rfl, rfl⟩
    · split
      · exact .inl ⟨rfl, rfl, rfl⟩
      · rename_i hkey
        rw [Bool.or_eq_true, decide_eq_true_eq, List.contains_iff_mem, not_or] at hkey
        have hlength := length_clipText text (min recentTopicMaxChars s.remaining)
        exact .inr ⟨_, ⟨hroom.1, by omega, by omega, hkey.1, hkey.2, rfl, rfl, rfl⟩,
          clipText_prefix _ _, by omega⟩

/-- **A round adds a topic of its item, or none.** -/
theorem visitItem_cases (s : History) (raw : Value) :
    SameTopics s (visitItem unicode s raw) ∨ ∃ item topic, raw = .dict item ∧
      TopicOf unicode item topic ∧ AddsTopic unicode s (visitItem unicode s raw) topic := by
  cases raw with
  | dict item =>
      simp only [visitItem]
      split
      · exact .inl ⟨rfl, rfl, rfl⟩
      · rename_i hrole
        split
        · exact .inl ⟨rfl, rfl, rfl⟩
        · split
          · split
            · exact .inl ⟨rfl, rfl, rfl⟩
            · exact .inl ⟨rfl, rfl, rfl⟩
          · rename_i hsummary
            split
            · exact .inl ⟨rfl, rfl, rfl⟩
            · rename_i hinternal
              split
              · exact .inl ⟨rfl, rfl, rfl⟩
              · rename_i htopic
                rcases addTopic_cases unicode s (itemText unicode item) with hsame | hadds
                · exact .inl hsame
                · obtain ⟨topic, hadds, hbegins, hshort⟩ := hadds
                  refine .inr ⟨item, topic, rfl, ⟨?_, ?_, ?_, ?_, hbegins, hshort⟩, hadds⟩
                  · simpa only [Bool.not_eq_true', Bool.not_eq_false] using hrole
                  · exact Bool.eq_false_iff.mpr hsummary
                  · exact Bool.eq_false_iff.mpr hinternal
                  · exact Bool.eq_false_iff.mpr htopic
  | none => exact .inl ⟨rfl, rfl, rfl⟩
  | bool b => exact .inl ⟨rfl, rfl, rfl⟩
  | number mantissa exponent => exact .inl ⟨rfl, rfl, rfl⟩
  | str text => exact .inl ⟨rfl, rfl, rfl⟩
  | list values => exact .inl ⟨rfl, rfl, rfl⟩

/-! ### The loop -/

/-- What holds of the loop when it has visited some items: `pairs` are the
items that gave a topic, with their topics. -/
structure Collected (current : String) (visited : List Value) (s : History)
    (pairs : List (Dict × String)) : Prop where
  items : (pairs.map fun pair => Value.dict pair.1).Sublist visited
  topics : pairs.map Prod.snd = s.recent
  topicOf : ∀ pair ∈ pairs, TopicOf unicode pair.1 pair.2
  count : pairs.length ≤ recentTopicLimit
  chars : s.recentChars = ((pairs.map Prod.snd).map String.length).sum + 2 * (pairs.length - 1)
  budget : s.recentChars ≤ recentTopicsMaxChars
  distinct : (pairs.map fun pair => canonicalUtteranceKey unicode pair.2).Nodup
  keys : ∀ pair ∈ pairs, canonicalUtteranceKey unicode pair.2 ≠ "" ∧
    canonicalUtteranceKey unicode pair.2 ≠ canonicalUtteranceKey unicode current ∧
    canonicalUtteranceKey unicode pair.2 ∈ s.seen
  current : canonicalUtteranceKey unicode current ≠ "" →
    canonicalUtteranceKey unicode current ∈ s.seen

theorem collected_start (current : String) :
    Collected unicode current [] (History.start unicode current) [] where
  items := List.Sublist.refl _
  topics := rfl
  topicOf _ hmem := by cases hmem
  count := Nat.zero_le _
  chars := rfl
  budget := Nat.zero_le _
  distinct := List.nodup_nil
  keys _ hmem := by cases hmem
  current hne := by
    unfold History.start
    rw [if_neg hne]
    exact List.mem_singleton_self _

variable {unicode} {current : String} {visited : List Value} {s t : History}
  {pairs : List (Dict × String)}

theorem Collected.same (h : Collected unicode current visited s pairs) (hsame : SameTopics s t)
    (raw : Value) : Collected unicode current (visited ++ [raw]) t pairs where
  items := h.items.trans (List.sublist_append_left _ _)
  topics := h.topics.trans hsame.recent.symm
  topicOf := h.topicOf
  count := h.count
  chars := hsame.recentChars.trans h.chars
  budget := hsame.recentChars ▸ h.budget
  distinct := h.distinct
  keys := by
    rw [hsame.seen]
    exact h.keys
  current := by
    rw [hsame.seen]
    exact h.current

theorem Collected.adds (h : Collected unicode current visited s pairs) {item : Dict} {topic : String}
    (htopic : TopicOf unicode item topic) (hadds : AddsTopic unicode s t topic) :
    Collected unicode current (visited ++ [.dict item]) t (pairs ++ [(item, topic)]) := by
  have hcount : s.recent.length = pairs.length := by rw [← h.topics, List.length_map]
  have hempty : (if s.recent = [] then 0 else 2) = 2 * (pairs.length - (pairs.length - 1)) := by
    by_cases hrecent : s.recent = []
    · rw [if_pos hrecent]
      rw [hrecent] at hcount
      rw [← hcount]
      rfl
    · rw [if_neg hrecent]
      have hpositive := List.length_pos_iff.mpr hrecent
      omega
  refine ⟨?_, ?_, ?_, ?_, ?_, ?_, ?_, ?_, ?_⟩
  · rw [List.map_append]
    exact h.items.append (List.Sublist.refl _)
  · rw [List.map_append, h.topics, hadds.recent]
    rfl
  · intro pair hmem
    rcases List.mem_append.mp hmem with hmem | hmem
    · exact h.topicOf pair hmem
    · rw [List.mem_singleton.mp hmem]
      exact htopic
  · have hroom := hadds.room
    rw [List.length_append, List.length_singleton]
    omega
  · rw [hadds.recentChars, h.chars, hempty]
    simp only [List.map_append, List.sum_append, List.map_cons, List.map_nil, List.sum_cons,
      List.sum_nil, List.length_append, List.length_singleton]
    omega
  · have hleft := hadds.left
    have hfits := hadds.fits
    unfold History.remaining at hleft hfits
    rw [hadds.recentChars]
    omega
  · rw [List.map_append, List.nodup_append]
    refine ⟨h.distinct, List.nodup_singleton _, ?_⟩
    rintro key hkey other hother rfl
    obtain ⟨pair, hpair, rfl⟩ := List.mem_map.mp hkey
    rw [List.map_singleton, List.mem_singleton] at hother
    exact hadds.fresh (hother ▸ (h.keys pair hpair).2.2)
  · intro pair hmem
    rw [hadds.seen]
    rcases List.mem_append.mp hmem with hmem | hmem
    · obtain ⟨hkey, hother, hseen⟩ := h.keys pair hmem
      exact ⟨hkey, hother, List.mem_cons_of_mem _ hseen⟩
    · rw [List.mem_singleton.mp hmem]
      refine ⟨hadds.key, fun heq => ?_, List.mem_cons_self⟩
      have hcurrent : canonicalUtteranceKey unicode current ≠ "" := heq ▸ hadds.key
      exact hadds.fresh (heq ▸ h.current hcurrent)
  · intro hne
    rw [hadds.seen]
    exact List.mem_cons_of_mem _ (h.current hne)

/-- The loop keeps what it has, item by item. -/
theorem collected_foldl (items : List Value) (h : Collected unicode current visited s pairs) :
    ∃ pairs', Collected unicode current (visited ++ items) (items.foldl (visitItem unicode) s) pairs' := by
  induction items generalizing visited s pairs with
  | nil => exact ⟨pairs, by rw [List.append_nil]; exact h⟩
  | cons raw rest ih =>
      have hassoc : visited ++ raw :: rest = (visited ++ [raw]) ++ rest := by simp
      rw [hassoc, List.foldl_cons]
      rcases visitItem_cases unicode s raw with hsame | ⟨item, topic, rfl, htopic, hadds⟩
      · exact ih (h.same hsame raw)
      · exact ih (h.adds htopic hadds)

/-- **The history of a query is bounded and written by the user**, for every
list of items and every current text: `pairs` are the items that gave a topic,
in their order, with their topics. -/
theorem historyContext_topics (unicode : Unicode) (items : List Value) (current : String) :
    ∃ pairs : List (Dict × String), (pairs.map fun pair => Value.dict pair.1).Sublist items ∧
      (historyContext unicode items current).1 = "\n\n".intercalate (pairs.map Prod.snd) ∧
      (historyContext unicode items current).1.length ≤ recentTopicsMaxChars ∧
      pairs.length ≤ recentTopicLimit ∧
      (∀ pair ∈ pairs, TopicOf unicode pair.1 pair.2) ∧
      (pairs.map fun pair => canonicalUtteranceKey unicode pair.2).Nodup ∧
      ∀ pair ∈ pairs, canonicalUtteranceKey unicode pair.2 ≠ "" ∧
        canonicalUtteranceKey unicode pair.2 ≠ canonicalUtteranceKey unicode current := by
  obtain ⟨pairs, h⟩ := collected_foldl items.reverse (collected_start unicode current)
  rw [List.nil_append] at h
  have htopics : (historyContext unicode items current).1 =
      "\n\n".intercalate (pairs.reverse.map Prod.snd) := by
    unfold historyContext
    rw [List.map_reverse, h.topics]
  refine ⟨pairs.reverse, ?_, htopics, ?_, ?_, ?_, ?_, ?_⟩
  · rw [List.map_reverse, ← List.reverse_sublist, List.reverse_reverse]
    exact h.items
  · rw [htopics, length_intercalate, List.map_map, List.map_reverse, List.sum_reverse,
      List.length_map, List.length_reverse, ← List.map_map]
    have hbudget := h.budget
    rw [h.chars] at hbudget
    exact hbudget
  · rw [List.length_reverse]
    exact h.count
  · exact fun pair hmem => h.topicOf pair (List.mem_reverse.mp hmem)
  · rw [List.map_reverse, List.nodup_reverse]
    exact h.distinct
  · intro pair hmem
    obtain ⟨hkey, hother, -⟩ := h.keys pair (List.mem_reverse.mp hmem)
    exact ⟨hkey, hother⟩

end Workbench.Conversation
