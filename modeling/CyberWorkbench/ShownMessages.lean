import CyberWorkbench.TranscriptOutline

/-!
# Which user messages are shown

Events reach the replay once each, and still a user message can be taken for
the one shown before it: the two are compared by content.  `IsRepeat` says
when, from the two messages and the events between them alone;
`user_messages_shown_iff` says that this is the only way to lose one.
-/

namespace Workbench

section Messages

variable {Args : Type}

/-- The user node of an event. -/
def AgentContentEvent.userNode (e : AgentContentEvent Args) : Option UserNode :=
  match e.role with
  | .message node => some node
  | _ => none

def ChatNode.userNode {τ : Type} : ChatNode τ → Option UserNode
  | .user node => some node
  | .agent _ _ => none

/-- The messages shown, in order. -/
def shownMessages {τ : Type} (nodes : List (ChatNode τ)) : List UserNode :=
  nodes.filterMap ChatNode.userNode

/-- The messages of a timeline, in order. -/
def sentMessages (events : List (AgentContentEvent Args)) : List UserNode :=
  events.filterMap AgentContentEvent.userNode

/-! ### The condition -/

/-- The last message, and the events after it. -/
def lastMessage (events : List (AgentContentEvent Args)) :
    Option (UserNode × List (AgentContentEvent Args)) :=
  events.foldl (fun last e =>
    match e.userNode with
    | some node => some (node, [])
    | none => last.map (fun p => (p.1, p.2 ++ [e]))) none

/-- Something of the agent's own came up. -/
def answered (between : List (AgentContentEvent Args)) : Bool :=
  between.any (fun e => decide (e.role = .output))

/-- The turn a message opened goes on: its last boundary or agent event is
neither a boundary nor an error. -/
def stillRunning (between : List (AgentContentEvent Args)) : Bool :=
  between.foldl (fun running e =>
    match e.role with
    | .boundary => false
    | .output => !e.isError
    | _ => running) true

/-- A message has the signature of the one before it, and either nothing came
up in between or the turn still runs and the targets do not differ. -/
def IsRepeat (last : UserNode) (between : List (AgentContentEvent Args)) (node : UserNode) :
    Prop :=
  contentSignature last.content = contentSignature node.content ∧
    (answered between = false ∨
      (stillRunning between = true ∧ sameTarget node.targetAgentCode last.targetAgentCode = true))

/-- No message of the timeline repeats the one before it. -/
def NoRepeats (events : List (AgentContentEvent Args)) : Prop :=
  ∀ before e after node last between, events = before ++ e :: after → e.userNode = some node →
    lastMessage before = some (last, between) → ¬ IsRepeat last between node

theorem lastMessage_concat (events : List (AgentContentEvent Args))
    (e : AgentContentEvent Args) :
    lastMessage (events ++ [e]) =
      match e.userNode with
      | some node => some (node, [])
      | none => (lastMessage events).map (fun p => (p.1, p.2 ++ [e])) := by
  simp only [lastMessage, List.foldl_append, List.foldl_cons, List.foldl_nil]

/-! ### When a message is absorbed -/

section Absorb

variable {τ : Type}

theorem absorbingIndex_none {nodes : List (ChatNode τ)} (streaming : Bool) (node : UserNode)
    (h : ∀ n ∈ nodes, n.isUser = false) : absorbingIndex nodes streaming node = none := by
  have hlive : findLiveUserMessageIndex nodes (contentSignature node.content)
      node.targetAgentCode = none := by
    unfold findLiveUserMessageIndex
    rw [findFromEnd_none ChatNode.isUser h]
  have htail : findTailUserMessageIndex nodes (contentSignature node.content) = none := by
    unfold findTailUserMessageIndex
    split
    · rename_i last hlast
      simpa [ChatNode.isUser] using h _ (List.mem_of_getLast? hlast)
    · rfl
  simp only [absorbingIndex, hlive, htail, ite_self]

/-- What the last message and the nodes after it decide. -/
theorem absorbingIndex_isSome {pre post : List (ChatNode τ)} {last : UserNode}
    (streaming : Bool) (node : UserNode) (h : ∀ n ∈ post, n.isUser = false) :
    (absorbingIndex (pre ++ .user last :: post) streaming node).isSome = true ↔
      contentSignature last.content = contentSignature node.content ∧
        (post = [] ∨ (streaming = true ∧
          sameTarget node.targetAgentCode last.targetAgentCode = true)) := by
  have hlive : findLiveUserMessageIndex (pre ++ .user last :: post)
      (contentSignature node.content) node.targetAgentCode =
        if contentSignature last.content = contentSignature node.content ∧
          sameTarget node.targetAgentCode last.targetAgentCode = true
        then some pre.length else none := by
    unfold findLiveUserMessageIndex
    rw [findFromEnd_append ChatNode.isUser pre rfl h]
    simp only [List.getElem?_append_right (Nat.le_refl _), Nat.sub_self, List.getElem?_cons_zero]
    by_cases hsignature : contentSignature last.content = contentSignature node.content
    · simp [hsignature]
    · simp [hsignature]
  have htail : (findTailUserMessageIndex (pre ++ .user last :: post)
      (contentSignature node.content)).isSome = true ↔
        post = [] ∧ contentSignature last.content = contentSignature node.content := by
    unfold findTailUserMessageIndex
    rcases List.eq_nil_or_concat post with rfl | ⟨rest, n, rfl⟩
    · simp
    · have hlast : (pre ++ .user last :: rest.concat n).getLast? = some n := by
        rw [List.concat_eq_append, ← List.cons_append, ← List.append_assoc, List.getLast?_concat]
      rw [hlast]
      cases n with
      | user other => simpa [ChatNode.isUser] using h (.user other) (by simp)
      | agent id t => simp
  unfold absorbingIndex
  simp only [hlive]
  by_cases hstreaming : streaming = true ∧
      contentSignature last.content = contentSignature node.content ∧
      sameTarget node.targetAgentCode last.targetAgentCode = true
  · obtain ⟨hs, hsignature, htarget⟩ := hstreaming
    simp [hs, hsignature, htarget]
  · have hnone : (if streaming then
        if contentSignature last.content = contentSignature node.content ∧
          sameTarget node.targetAgentCode last.targetAgentCode = true
        then some pre.length else none else none) = none := by
      split
      · rename_i hs
        exact if_neg (fun hboth => hstreaming ⟨hs, hboth⟩)
      · rfl
    rw [hnone]
    simp only [htail]
    constructor
    · rintro ⟨hpost, hsignature⟩
      exact ⟨hsignature, .inl hpost⟩
    · rintro ⟨hsignature, hpost | ⟨hs, htarget⟩⟩
      · exact ⟨hpost, hsignature⟩
      · exact absurd ⟨hs, hsignature, htarget⟩ hstreaming

@[simp] theorem shownMessages_nil : shownMessages ([] : List (ChatNode τ)) = [] := rfl

theorem shownMessages_eq_nil {nodes : List (ChatNode τ)} :
    shownMessages nodes = [] ↔ ∀ n ∈ nodes, n.isUser = false := by
  rw [shownMessages, List.filterMap_eq_nil_iff]
  refine forall_congr' fun n => imp_congr_right fun _ => ?_
  cases n <;> simp [ChatNode.userNode, ChatNode.isUser]

/-- The messages shown are as many as the user nodes. -/
theorem length_shownMessages (nodes : List (ChatNode τ)) :
    (shownMessages nodes).length = (nodes.map ChatNode.isUser).count true := by
  induction nodes with
  | nil => rfl
  | cons n rest ih =>
      cases n with
      | user node =>
          show (shownMessages rest).length + 1 = (true :: rest.map ChatNode.isUser).count true
          rw [ih, List.count_cons_self]
      | agent id t =>
          show (shownMessages rest).length = (false :: rest.map ChatNode.isUser).count true
          rw [ih, List.count_cons_of_ne (by decide)]

theorem shownMessages_append (nodes more : List (ChatNode τ)) :
    shownMessages (nodes ++ more) = shownMessages nodes ++ shownMessages more :=
  List.filterMap_append

theorem shownMessages_map {υ : Type} (f : τ → υ) (nodes : List (ChatNode τ)) :
    shownMessages (nodes.map (ChatNode.map f)) = shownMessages nodes := by
  have hnode : ChatNode.userNode ∘ ChatNode.map f = ChatNode.userNode := by
    funext n
    cases n <;> rfl
  rw [shownMessages, List.filterMap_map, hnode]
  rfl

end Absorb

/-! ### The outline's messages -/

/-- What the nodes say of the events so far, no message having been lost: the
last message is the last user node, and agent nodes follow it exactly when it
is answered. -/
def ShowsLast (events : List (AgentContentEvent Args)) (o : Outline Args) : Prop :=
  match lastMessage events with
  | none => ∀ n ∈ o.nodes, n.isUser = false
  | some (last, between) => ∃ pre post, o.nodes = pre ++ .user last :: post ∧
      (∀ n ∈ post, n.isUser = false) ∧ (post = [] ↔ answered between = false) ∧
      o.streaming = stillRunning between

/-- Agent events leave the nodes up to the last message alone. -/
theorem shownMessages_place (o : Outline Args) (e : AgentContentEvent Args) :
    shownMessages (o.place e) = shownMessages o.nodes := by
  rcases o.place_cases e with ⟨rest, id, events, -, hnodes, hplace⟩ | ⟨-, hplace⟩
  · rw [hplace, hnodes, shownMessages_append, shownMessages_append]
    rfl
  · rw [hplace, shownMessages_append]
    exact List.append_nil _

/-- An event that is no message adds none. -/
theorem shownMessages_next {o : Outline Args} {e : AgentContentEvent Args}
    (h : e.userNode = none) : shownMessages (o.next e).nodes = shownMessages o.nodes := by
  unfold Outline.next
  cases hrole : e.role with
  | message node => simp [AgentContentEvent.userNode, hrole] at h
  | boundary => rfl
  | nested => rfl
  | output => exact shownMessages_place o e

/-- A message that is absorbed leaves as many shown as before. -/
theorem length_shownMessages_absorbed {nodes : List (ChatNode (List (AgentContentEvent Args)))}
    {streaming : Bool} {node : UserNode}
    (h : (absorbingIndex nodes streaming node).isSome = true) :
    (shownMessages (showMessage nodes streaming node)).length = (shownMessages nodes).length := by
  obtain ⟨index, hindex⟩ := Option.isSome_iff_exists.mp h
  rw [showMessage, hindex, length_shownMessages, isUser_retarget, length_shownMessages]

theorem next_message {o : Outline Args} {e : AgentContentEvent Args} {node : UserNode}
    (h : e.userNode = some node) :
    o.next e = { nodes := showMessage o.nodes o.streaming node, streaming := true } := by
  unfold AgentContentEvent.userNode at h
  cases hrole : e.role <;> simp_all [Outline.next]

/-- No event takes a message back, and none adds more than its own. -/
theorem length_shownMessages_next (o : Outline Args) (e : AgentContentEvent Args) :
    (shownMessages (o.next e).nodes).length ≤
      (shownMessages o.nodes).length + e.userNode.toList.length := by
  cases he : e.userNode with
  | none => simp [shownMessages_next he]
  | some node =>
      rw [next_message he]
      cases hindex : absorbingIndex o.nodes o.streaming node with
      | some index =>
          rw [length_shownMessages_absorbed (by rw [hindex]; rfl)]
          exact Nat.le_add_right _ _
      | none => simp [showMessage, hindex, shownMessages, ChatNode.userNode]

theorem length_shownMessages_foldl (o : Outline Args) (events : List (AgentContentEvent Args)) :
    (shownMessages (events.foldl Outline.next o).nodes).length ≤
      (shownMessages o.nodes).length + (sentMessages events).length := by
  induction events generalizing o with
  | nil => simp [sentMessages]
  | cons e rest ih =>
      have hrest := ih (o.next e)
      have hstep := length_shownMessages_next o e
      have hsent : (sentMessages (e :: rest)).length =
          e.userNode.toList.length + (sentMessages rest).length := by
        cases he : e.userNode <;> (simp [sentMessages, he]; try omega)
      rw [List.foldl_cons]
      omega

/-- A message is absorbed exactly when it repeats the last. -/
theorem ShowsLast.absorbs_iff {events : List (AgentContentEvent Args)} {o : Outline Args}
    (h : ShowsLast events o) (node : UserNode) :
    (absorbingIndex o.nodes o.streaming node).isSome = true ↔
      ∃ last between, lastMessage events = some (last, between) ∧
        IsRepeat last between node := by
  unfold ShowsLast at h
  cases hlast : lastMessage events with
  | none =>
      simp only [hlast] at h
      simp [absorbingIndex_none o.streaming node h]
  | some p =>
      obtain ⟨last, between⟩ := p
      simp only [hlast] at h
      obtain ⟨pre, post, hnodes, hpost, hanswered, hstreaming⟩ := h
      rw [hnodes, absorbingIndex_isSome o.streaming node hpost, hanswered, hstreaming]
      constructor
      · exact fun hrepeat => ⟨last, between, rfl, hrepeat⟩
      · rintro ⟨_, _, ⟨⟩, hrepeat⟩
        exact hrepeat

/-- Agent events come after the last message. -/
theorem place_after {o : Outline Args} {pre post : List (ChatNode (List (AgentContentEvent Args)))}
    {last : UserNode} (e : AgentContentEvent Args) (h : o.nodes = pre ++ .user last :: post)
    (hpost : ∀ n ∈ post, n.isUser = false) :
    ∃ post', o.place e = pre ++ .user last :: post' ∧ post' ≠ [] ∧
      ∀ n ∈ post', n.isUser = false := by
  rcases o.place_cases e with ⟨rest, id, events, -, hnodes, hplace⟩ | ⟨-, hplace⟩
  · rcases List.eq_nil_or_concat post with rfl | ⟨post', n, rfl⟩
    · have hend := h.symm.trans hnodes
      obtain ⟨-, hbad⟩ := List.append_inj' hend rfl
      simp at hbad
    · rw [List.concat_eq_append] at h hpost
      have hend : (pre ++ .user last :: post') ++ [n] = rest ++ [.agent id events] := by
        rw [← hnodes, h]
        simp
      obtain ⟨rfl, -⟩ := List.append_inj' hend rfl
      refine ⟨post' ++ [.agent id (events ++ [e])], by simp [hplace], by simp, ?_⟩
      intro n' hn'
      rcases List.mem_append.mp hn' with hn' | hn'
      · exact hpost n' (List.mem_append_left _ hn')
      · rw [List.mem_singleton.mp hn']
        rfl
  · refine ⟨post ++ [.agent ("agent:" ++ toString e.seq) [e]], by simp [hplace, h], by simp, ?_⟩
    intro n' hn'
    rcases List.mem_append.mp hn' with hn' | hn'
    · exact hpost n' hn'
    · rw [List.mem_singleton.mp hn']
      rfl

/-- The last message and what follows it, after an event that is none. -/
theorem ShowsLast.other {events : List (AgentContentEvent Args)} {o : Outline Args}
    (h : ShowsLast events o) {e : AgentContentEvent Args} (he : e.userNode = none) :
    ShowsLast (events ++ [e]) (o.next e) := by
  unfold ShowsLast at h ⊢
  rw [lastMessage_concat, he]
  cases hlast : lastMessage events with
  | none =>
      simp only [hlast, Option.map_none] at h ⊢
      rw [← shownMessages_eq_nil] at h ⊢
      rw [shownMessages_next he, h]
  | some p =>
      obtain ⟨last, between⟩ := p
      simp only [hlast, Option.map_some] at h ⊢
      obtain ⟨pre, post, hnodes, hpost, hanswered, hstreaming⟩ := h
      unfold Outline.next
      cases hrole : e.role with
      | message node => simp [AgentContentEvent.userNode, hrole] at he
      | boundary =>
          refine ⟨pre, post, hnodes, hpost, ?_, ?_⟩
          · simpa [answered, hrole] using hanswered
          · simp [stillRunning, List.foldl_append, hrole]
      | nested =>
          refine ⟨pre, post, hnodes, hpost, ?_, ?_⟩
          · simpa [answered, hrole] using hanswered
          · simpa [stillRunning, List.foldl_append, hrole] using hstreaming
      | output =>
          obtain ⟨post', hplace, hne, hpost'⟩ := place_after e hnodes hpost
          refine ⟨pre, post', hplace, hpost', ?_, ?_⟩
          · simp [answered, hrole, hne]
          · simp [stillRunning, List.foldl_append, hrole]

/-- **Step lemma.**  A new message is shown as it is; the last message stays
the last user node. -/
theorem ShowsLast.next {events : List (AgentContentEvent Args)} {o : Outline Args}
    (h : ShowsLast events o) {e : AgentContentEvent Args}
    (hnew : ∀ node last between, e.userNode = some node →
      lastMessage events = some (last, between) → ¬ IsRepeat last between node) :
    ShowsLast (events ++ [e]) (o.next e) ∧
      shownMessages (o.next e).nodes = shownMessages o.nodes ++ e.userNode.toList := by
  cases he : e.userNode with
  | none => exact ⟨h.other he, by simp [shownMessages_next he]⟩
  | some node =>
      have hindex : absorbingIndex o.nodes o.streaming node = none := by
        rw [← Option.not_isSome_iff_eq_none, h.absorbs_iff]
        rintro ⟨last, between, hlast, hrepeat⟩
        exact hnew node last between he hlast hrepeat
      rw [next_message he]
      simp only [showMessage, hindex]
      refine ⟨?_, by simp [shownMessages, ChatNode.userNode]⟩
      unfold ShowsLast
      rw [lastMessage_concat, he]
      exact ⟨o.nodes, [], rfl, nofun, by simp [answered], rfl⟩

/-- A repeated message is not shown. -/
theorem ShowsLast.repeated {events : List (AgentContentEvent Args)} {o : Outline Args}
    (h : ShowsLast events o) {e : AgentContentEvent Args} {node last : UserNode}
    {between : List (AgentContentEvent Args)} (he : e.userNode = some node)
    (hlast : lastMessage events = some (last, between)) (hrepeat : IsRepeat last between node) :
    (shownMessages (o.next e).nodes).length = (shownMessages o.nodes).length := by
  rw [next_message he]
  exact length_shownMessages_absorbed ((h.absorbs_iff node).mpr ⟨last, between, hlast, hrepeat⟩)

/-- **Run lemma.**  The messages among the remaining events are all shown
exactly when none of them is a repeat. -/
theorem ShowsLast.foldl {α : Type} (f : UserNode → α) {before : List (AgentContentEvent Args)}
    {o : Outline Args} (h : ShowsLast before o) (rest : List (AgentContentEvent Args)) :
    (shownMessages (rest.foldl Outline.next o).nodes).map f =
        (shownMessages o.nodes).map f ++ (sentMessages rest).map f ↔
      ∀ mid e after node last between, rest = mid ++ e :: after → e.userNode = some node →
        lastMessage (before ++ mid) = some (last, between) → ¬ IsRepeat last between node := by
  induction rest generalizing before o with
  | nil => simp [sentMessages]
  | cons e rest ih =>
      have hsent : sentMessages (e :: rest) = e.userNode.toList ++ sentMessages rest := by
        cases he : e.userNode <;> simp [sentMessages, he]
      by_cases hrepeat : ∃ node last between, e.userNode = some node ∧
          lastMessage before = some (last, between) ∧ IsRepeat last between node
      · obtain ⟨node, last, between, he, hlast, hrepeat⟩ := hrepeat
        constructor
        · intro hshown
          have hlength := congrArg List.length hshown
          have hle := length_shownMessages_foldl (o.next e) rest
          have hlost := h.repeated he hlast hrepeat
          rw [hsent, he, List.foldl_cons] at hlength
          simp only [List.length_map, List.length_append, Option.toList_some,
            List.length_singleton, List.map_append] at hlength
          omega
        · intro hnew
          exact absurd hrepeat (hnew [] e rest node last between rfl he (by simpa using hlast))
      · obtain ⟨hnext, hstep⟩ := h.next (e := e) (fun node last between he hlast hrep =>
          hrepeat ⟨node, last, between, he, hlast, hrep⟩)
        rw [List.foldl_cons, hsent, List.map_append, ← List.append_assoc, ← List.map_append,
          ← hstep, ih hnext]
        constructor
        · intro hnew mid x after node last between hsplit hx hlast hrep
          cases mid with
          | nil =>
              obtain ⟨rfl, rfl⟩ := List.cons.inj hsplit
              exact hrepeat ⟨node, last, between, hx, by simpa using hlast, hrep⟩
          | cons y mid =>
              obtain ⟨rfl, rfl⟩ := List.cons.inj hsplit
              exact hnew mid x after node last between rfl hx (by simpa using hlast) hrep
        · intro hnew mid x after node last between hsplit hx hlast
          exact hnew (e :: mid) x after node last between (by rw [hsplit]; rfl) hx
            (by simpa using hlast)

end Messages

section Page

variable {Args : Type} [StableJson Args]

theorem shownMessages_page (events : List (AgentContentEvent Args)) :
    shownMessages (buildChatNodesFromEvents events) = shownMessages (outline events).nodes := by
  rw [← shownMessages_map coreBlocks, buildChatNodes_outline, shownMessages_map]

/-- Without repeats the user nodes are the messages' own. -/
theorem shownMessages_of_noRepeats {events : List (AgentContentEvent Args)}
    (h : NoRepeats events) :
    shownMessages (buildChatNodesFromEvents events) = sentMessages events := by
  have hstart : ShowsLast ([] : List (AgentContentEvent Args)) {} := nofun
  have hrun := (hstart.foldl id events).mpr h
  rw [shownMessages_page, outline]
  simpa using hrun

/-- **Which user messages are shown.**  One user node per message, in order
and with its content, exactly when no message repeats the one before it. -/
theorem user_messages_shown_iff (events : List (AgentContentEvent Args)) :
    (shownMessages (buildChatNodesFromEvents events)).map UserNode.content =
        (sentMessages events).map UserNode.content ↔ NoRepeats events := by
  have hstart : ShowsLast ([] : List (AgentContentEvent Args)) {} := nofun
  have hrun := hstart.foldl UserNode.content events
  simp only [shownMessages_nil, List.map_nil, List.nil_append] at hrun
  rw [shownMessages_page]
  exact hrun

end Page

/-! ### The shortest loss -/

/-- Calls without arguments. -/
instance : StableJson Unit := ⟨fun _ => "\x7b\x7d"⟩

/-- A user message of one text. -/
def textMessage (seq : Int) (text : String) : AgentContentEvent Unit :=
  { seq := seq, body := .userMessage [.text text] text "" }

/-- A finished segment of an agent's text. -/
def textComplete (seq : Int) (segmentId text : String) : AgentContentEvent Unit :=
  { seq := seq, body := .segment .text true segmentId text }

/-- **A message sent twice is shown once.**  The agent's reply to the first
`continue` is on the page and its turn still runs. -/
theorem repeated_message_hidden :
    (shownMessages (buildChatNodesFromEvents
      [textMessage 1 "continue", textComplete 2 "s1" "step one",
        textMessage 3 "continue"])).length = 1 ∧
      ¬ ∀ events : List (AgentContentEvent Unit), SortedBySeq events → DistinctKeys events →
        (shownMessages (buildChatNodesFromEvents events)).map UserNode.content =
          (sentMessages events).map UserNode.content := by
  refine ⟨by decide, fun hall => ?_⟩
  have hshown := hall [textMessage 1 "continue", textComplete 2 "s1" "step one",
    textMessage 3 "continue"] (by unfold SortedBySeq; decide) (by unfold DistinctKeys; decide)
  exact absurd hshown (by decide)

end Workbench
