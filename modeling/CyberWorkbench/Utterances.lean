import CyberWorkbench.WordSegments

/-!
# Utterances without a topic

`core/conversation/utterances`: short acknowledgements and requests to go on
are recognised by their canonical key, which has to be made of component keys.
The normal form, the case folding and the classes of characters are those of
Unicode, and parameters here.

`is_non_topic_utterance` goes over the key once and keeps the positions that
component keys reach.  That is exact, however the component keys overlap
(`isNonTopicUtterance_iff`).
-/

namespace Workbench.Conversation

open WordSegments

/-- The tables of Unicode, as `str` and `unicodedata` read them. -/
structure Unicode where
  nfkc : String → String
  casefold : String → String
  isAlnum : Char → Bool
  category : Char → String

/-- `_NON_TOPIC_MAX_KEY_CHARS` -/
def nonTopicMaxKeyChars : Nat := 96

/-- `_ACKNOWLEDGEMENT_KEYS` -/
def acknowledgementKeys : List String :=
  ["ack", "acknowledged", "affirmative", "agreed", "allright", "alright", "confirmed", "correct",
    "exactly", "fine", "goahead", "gotit", "looksgood", "makesense", "muchappreciated", "noted",
    "ok", "okay", "received", "right", "roger", "soundsgood", "sure", "thankyou", "thanks",
    "understand", "understood", "willdo", "worksforme", "y", "yeah", "yep", "yes", "yup", "嗯",
    "嗯嗯", "哦", "喔", "好", "好啊", "好吧", "好哒", "好嘞", "好呀", "好的", "可以的", "了解",
    "了解了", "对", "对的", "对啊", "正是", "确实", "确实如此", "就这样", "就这么办", "懂了",
    "收到", "明白", "明白了", "是", "是的", "是啊", "是这样", "没毛病", "没问题", "没问题的",
    "没意见", "没错", "没错的", "妥", "妥了", "成", "成的", "可", "清楚了", "清楚", "照做",
    "照此办理", "知道了", "知悉", "知悉了", "记住了", "确认", "确定", "行", "行的", "赞同",
    "辛苦了", "谢谢", "同意", "认可", "可以", "按此执行", "按这个来", "就按这个来"]

/-- `_NEGATIVE_ACKNOWLEDGEMENT_KEYS` -/
def negativeAcknowledgementKeys : List String :=
  ["cancel", "donot", "dont", "negative", "nevermind", "no", "nothanks", "nope", "not", "notnow",
    "notquite", "notreally", "pleasecancel", "pleasestop", "reject", "stop", "不", "不必",
    "不必了", "不对", "不同意", "不可以", "不是", "不要", "不要了", "不确认", "不行", "不需要",
    "不用", "不用了", "先不用", "暂时不用", "停止", "停下", "到此为止", "拒绝", "取消", "否",
    "否定", "没有", "算了", "算了吧", "别", "别了"]

/-- `_CONTINUATION_KEYS` -/
def continuationKeys : List String :=
  ["carryon", "continue", "continueplease", "doit", "execute", "goon", "keepgoing",
    "letuscontinue", "letscontinue", "moveon", "next", "nextone", "nextstep",
    "pickupwhereyouleftoff", "pleasecontinue", "pleasegoon", "pleaseproceed", "proceed", "resume",
    "resumeplease", "rerun", "runagain", "retry", "start", "then", "tryagain", "下一个", "下一项",
    "下一步", "开始", "开始吧", "开始执行", "再来", "再来一次", "再试", "再试一次", "再执行一次",
    "往下", "往下继续", "接着", "接着做", "接着来", "继续吧", "继续做", "继续完成", "继续进行",
    "继续下去", "然后呢", "继续", "继续处理", "继续执行", "请接着", "请继续", "重新执行",
    "重新开始", "重新试", "重试", "执行", "执行吧", "后续"]

/-- `_POLITENESS_KEYS` -/
def politenessKeys : List String :=
  ["kindly", "please", "thankyou", "thanks", "一下", "吧", "呀", "呢", "啦", "劳驾", "拜托", "请",
    "谢谢", "辛苦", "辛苦了", "麻烦"]


/-- `_NON_TOPIC_COMPONENT_KEYS` -/
def nonTopicComponentKeys : List String :=
  (acknowledgementKeys ++ negativeAcknowledgementKeys ++ continuationKeys ++
    politenessKeys).eraseDups.mergeSort fun first second => decide (second.length ≤ first.length)

/-- `canonical_utterance_key` -/
def canonicalUtteranceKey (unicode : Unicode) (value : String) : String :=
  String.ofList ((unicode.casefold (unicode.nfkc value)).toList.filter unicode.isAlnum)

/-- `key.startswith(component, start)` -/
def startsWith (key component : List Char) (start : Nat) : Bool :=
  component.isPrefixOf (key.drop start)

/-- The loop over the components at one start. -/
def reachFrom (key : List Char) (start : Nat) :
    List (List Char) → List Nat → List Nat
  | [], reachable => reachable
  | component :: rest, reachable =>
      reachFrom key start rest
        (if startsWith key component start then reachable.insert (start + component.length)
        else reachable)

/-- The positions that are reachable when the starts before `stop` are done. -/
def reachable (components : List (List Char)) (key : List Char) : Nat → List Nat
  | 0 => [0]
  | start + 1 =>
      let before := reachable components key start
      if start ∈ before then reachFrom key start components before else before

/-- `is_non_topic_utterance` -/
def isNonTopicUtterance (unicode : Unicode) (text : String) : Bool :=
  let key := (canonicalUtteranceKey unicode text).toList
  if key.isEmpty || decide (nonTopicMaxKeyChars < key.length) then false
  else decide (key.length ∈ reachable (nonTopicComponentKeys.map String.toList) key key.length)

/-! ### The positions -/

section Positions

variable {components : List (List Char)} {key : List Char}

theorem mem_reachFrom {start n : Nat} (components : List (List Char)) {before : List Nat} :
    n ∈ reachFrom key start components before ↔ n ∈ before ∨
      ∃ component ∈ components, component <+: key.drop start ∧ n = start + component.length := by
  induction components generalizing before with
  | nil => simp [reachFrom]
  | cons component rest ih =>
      rw [reachFrom, ih]
      unfold startsWith
      by_cases hstarts : component.isPrefixOf (key.drop start) = true
      · rw [if_pos hstarts, List.mem_insert_iff]
        rw [List.isPrefixOf_iff_prefix] at hstarts
        constructor
        · rintro ((rfl | hbefore) | ⟨other, hmem, hprefix, rfl⟩)
          · exact .inr ⟨component, List.mem_cons_self, hstarts, rfl⟩
          · exact .inl hbefore
          · exact .inr ⟨other, List.mem_cons_of_mem _ hmem, hprefix, rfl⟩
        · rintro (hbefore | ⟨other, hmem, hprefix, rfl⟩)
          · exact .inl (.inr hbefore)
          · rcases List.mem_cons.mp hmem with rfl | hmem
            · exact .inl (.inl rfl)
            · exact .inr ⟨other, hmem, hprefix, rfl⟩
      · rw [if_neg hstarts]
        rw [List.isPrefixOf_iff_prefix] at hstarts
        refine or_congr_right ?_
        constructor
        · rintro ⟨other, hmem, hprefix, rfl⟩
          exact ⟨other, List.mem_cons_of_mem _ hmem, hprefix, rfl⟩
        · rintro ⟨other, hmem, hprefix, rfl⟩
          rcases List.mem_cons.mp hmem with rfl | hmem
          · exact absurd hprefix hstarts
          · exact ⟨other, hmem, hprefix, rfl⟩

/-- **After the starts before `stop`, a position is in the set exactly when a
component leads to it from one of them that is reached.** -/
theorem mem_reachable {stop n : Nat} : n ∈ reachable components key stop ↔ n = 0 ∨
    ∃ m < stop, WordSegments.Reached components key m ∧
      ∃ component ∈ components, component <+: key.drop m ∧ n = m + component.length := by
  induction stop generalizing n with
  | zero => simp [reachable]
  | succ start ih =>
      -- what is in the set when its turn comes is what is reached
      have hstart : start ∈ reachable components key start ↔ WordSegments.Reached components key start :=
        ih.trans reached_iff.symm
      have hsplit : (∃ m < start + 1, WordSegments.Reached components key m ∧
          ∃ component ∈ components, component <+: key.drop m ∧ n = m + component.length) ↔
          (∃ m < start, WordSegments.Reached components key m ∧
            ∃ component ∈ components, component <+: key.drop m ∧ n = m + component.length) ∨
          (WordSegments.Reached components key start ∧
            ∃ component ∈ components, component <+: key.drop start ∧ n = start + component.length) := by
        constructor
        · rintro ⟨m, hm, hreached, hword⟩
          rcases Nat.lt_succ_iff_lt_or_eq.mp hm with hm | rfl
          · exact .inl ⟨m, hm, hreached, hword⟩
          · exact .inr ⟨hreached, hword⟩
        · rintro (⟨m, hm, hreached, hword⟩ | ⟨hreached, hword⟩)
          · exact ⟨m, Nat.lt_succ_of_lt hm, hreached, hword⟩
          · exact ⟨start, Nat.lt_succ_self start, hreached, hword⟩
      rw [hsplit, reachable]
      by_cases hreached : WordSegments.Reached components key start
      · rw [if_pos (hstart.mpr hreached), mem_reachFrom, ih, or_assoc]
        refine or_congr_right (or_congr_right ?_)
        exact ⟨fun hword => ⟨hreached, hword⟩, fun hword => hword.2⟩
      · rw [if_neg (fun hmem => hreached (hstart.mp hmem)), ih]
        refine or_congr_right ⟨Or.inl, ?_⟩
        rintro (hword | hword)
        · exact hword
        · exact absurd hword.1 hreached

/-- At the end of the key: it is made of components. -/
theorem length_mem_reachable (components : List (List Char)) (key : List Char) :
    key.length ∈ reachable components key key.length ↔ Segmented components key := by
  rw [mem_reachable, ← reached_iff]
  unfold WordSegments.Reached
  rw [List.take_length]
  exact and_iff_right (Nat.le_refl _)

end Positions

/-- Segments of characters are texts one after the other. -/
theorem segmented_toList {words : List String} {text : String} :
    Segmented (words.map String.toList) text.toList ↔
      ∃ pieces : List String, (∀ piece ∈ pieces, piece ∈ words) ∧ text = String.join pieces := by
  constructor
  · rintro ⟨pieces, hpieces, hflatten⟩
    refine ⟨pieces.map String.ofList, fun piece hmem => ?_, ?_⟩
    · obtain ⟨chars, hchars, rfl⟩ := List.mem_map.mp hmem
      obtain ⟨word, hword, rfl⟩ := List.mem_map.mp (hpieces chars hchars)
      rw [String.ofList_toList]
      exact hword
    · rw [← String.toList_inj, String.toList_join, ← hflatten, List.flatMap_map]
      simp
  · rintro ⟨pieces, hpieces, rfl⟩
    refine ⟨pieces.map String.toList, fun piece hmem => ?_, ?_⟩
    · obtain ⟨word, hword, rfl⟩ := List.mem_map.mp hmem
      exact List.mem_map_of_mem (hpieces word hword)
    · rw [String.toList_join, List.flatMap_def]

/-- **Recognition is exact**: the key is not empty, not too long, and made of
one or more component keys. -/
theorem isNonTopicUtterance_iff (unicode : Unicode) (text : String) :
    isNonTopicUtterance unicode text = true ↔
      canonicalUtteranceKey unicode text ≠ "" ∧
        (canonicalUtteranceKey unicode text).length ≤ nonTopicMaxKeyChars ∧
        ∃ pieces : List String, pieces ≠ [] ∧ (∀ piece ∈ pieces, piece ∈ nonTopicComponentKeys) ∧
          canonicalUtteranceKey unicode text = String.join pieces := by
  have hreach := length_mem_reachable (nonTopicComponentKeys.map String.toList)
    (canonicalUtteranceKey unicode text).toList
  rw [segmented_toList] at hreach
  have hempty : (canonicalUtteranceKey unicode text).toList.isEmpty = true ↔
      canonicalUtteranceKey unicode text = "" := by
    rw [List.isEmpty_iff, String.toList_eq_nil_iff]
  unfold isNonTopicUtterance
  simp only
  split
  · rename_i hrefused
    rw [Bool.or_eq_true, hempty, decide_eq_true_eq, String.length_toList] at hrefused
    refine iff_of_false Bool.false_ne_true ?_
    rintro ⟨hne, hle, -⟩
    rcases hrefused with hnil | hlong
    · exact hne hnil
    · omega
  · rename_i haccepted
    rw [Bool.or_eq_true, hempty, decide_eq_true_eq, String.length_toList, not_or] at haccepted
    rw [decide_eq_true_eq, hreach]
    constructor
    · rintro ⟨pieces, hpieces, hjoin⟩
      refine ⟨haccepted.1, by omega, pieces, ?_, hpieces, hjoin⟩
      rintro rfl
      exact haccepted.1 hjoin
    · rintro ⟨-, -, pieces, -, hpieces, hjoin⟩
      exact ⟨pieces, hpieces, hjoin⟩

end Workbench.Conversation
