import Mathlib
import CyberWorkbench.NumberRegister
import CyberWorkbench.TimelineLog

/-!
# Timeline identity

Every item of a session's timeline is to have one `seq` for ever: in the table,
in every frame, whichever object of the session stamped it.  The table keeps
keys apart, not numbers, and an object numbers from what it has loaded.

`timeline_identity`: it holds in every run in which events are published on
loaded timelines that still write, and the head is read, or an event is stored
straight, only when every other timeline of the session has settled.  What the
counters do then is to grow one numbering, of which the table and each
`_item_seq` hold a part and the loaded timeline everything.
-/

namespace Workbench.TimelineLog

open LiveBus LastWrite StepMachine

variable {Args : Type}

/-! ### What is to hold -/

/-- The last persistable event published for an item. -/
def lastPublished (events : List (EventObject Args)) (key : String) : Option (AgentEvent Args) :=
  (lastOf (fun object => isPersistable object.event && decide (itemKey object.event = key))
    events).map EventObject.event

/-- Nothing waits to be stored. -/
def Written (s : TimelineState Args) : Prop :=
  s.persists = [] ∧ ∀ t ∈ s.timelines, t.writing = [] ∧ t.queue = []

/-- **Identity.**  One `seq` an item, in all its frames and its row; no `seq`
twice in the table; and, once everything is written, the last payload. -/
structure Identity (s : TimelineState Args) : Prop where
  frames : ∀ x ∈ s.frames, ∀ y ∈ s.frames, carriesSeq x = true → carriesSeq y = true →
    itemKey x = itemKey y → seqOf x = seqOf y
  stored : ∀ x ∈ s.frames, ∀ row ∈ s.rows, carriesSeq x = true → row.itemKey = itemKey x →
    row.seq = seqOf x
  distinct : ∀ row ∈ s.rows, ∀ other ∈ s.rows, row.itemKey ≠ other.itemKey →
    row.seq ≠ other.seq
  payload : Written s → ∀ row ∈ s.rows, lastPublished s.events row.itemKey = some row.payload

/-- The timeline at `object` has settled: it is not loaded nor being loaded,
and every item it stamped is in the table. -/
def Settled (s : TimelineState Args) (object : Nat) : Prop :=
  (∀ t ∈ s.timelines[object]?, t.loaded = false ∧
    ∀ entry ∈ t.itemSeq, entry.1 ∈ s.rows.map TimelineRow.itemKey) ∧
  ∀ load ∈ s.loads, load.object ≠ object

instance (s : TimelineState Args) (object : Nat) : Decidable (Settled s object) := by
  unfold Settled; infer_instance

/-- The timeline is loaded and its writer takes rows. -/
def Open (s : TimelineState Args) (object : Nat) : Prop :=
  ∀ t ∈ s.timelines[object]?, t.loaded = true ∧ t.stopping = false

instance (s : TimelineState Args) (object : Nat) : Decidable (Open s object) := by
  unfold Open; infer_instance

/-- **One party at a time.**  Events go to an open timeline.  The table is read
for numbers, for a timeline or for a single event, when all other timelines
have settled and no event is being stored straight.  No write fails. -/
def OneParty (s : TimelineState Args) : TimelineAction Args → Prop
  | .readHead object =>
      s.persists = [] ∧ ∀ other < s.timelines.length, other ≠ object → Settled s other
  | .publish object event => carriesSeq event = true → Open s object
  | .publishTask _ _ =>
      (∀ object ∈ s.pooled, Open s object) ∧
        (s.pooled = none → s.persists = [] ∧ ∀ other < s.timelines.length, Settled s other)
  | .writer _ .failBatch => False
  | .writer _ _ | .create | .evict | .finishLoad _ | .persist _ | .deliver _ => True

instance (s : TimelineState Args) : (a : TimelineAction Args) → Decidable (OneParty s a)
  | .readHead _ | .publish _ _ | .publishTask _ _ => by unfold OneParty; infer_instance
  | .writer _ .failBatch => .isFalse id
  | .writer _ (.takeBatch _) | .writer _ .commitBatch | .writer _ .beginClose
  | .writer _ .endClose | .create | .evict | .finishLoad _ | .persist _ | .deliver _ =>
      .isTrue trivial

/-! ### Keys -/

/-- Some event has this key as its own. -/
def Keyed (Args : Type) (key : String) : Prop :=
  ∃ event : AgentEvent Args, timelineItemKey event = some key

/-- Only content has a key of its own. -/
theorem carriesSeq_of_key {event : AgentEvent Args} {key : String}
    (h : timelineItemKey event = some key) : carriesSeq event = true := by
  cases event with
  | content event nestedFor => rfl
  | runState running => cases h
  | done nestedCallId => cases h

@[simp] theorem timelineItemKey_withSeq (seq : Int) (event : AgentEvent Args) :
    timelineItemKey (withSeq seq event) = timelineItemKey event := by
  cases event <;> rfl

@[simp] theorem isPersistable_withSeq (seq : Int) (event : AgentEvent Args) :
    isPersistable (withSeq seq event) = isPersistable event := by
  cases event <;> rfl

@[simp] theorem carriesSeq_withSeq (seq : Int) (event : AgentEvent Args) :
    carriesSeq (withSeq seq event) = carriesSeq event := by
  cases event <;> rfl

@[simp] theorem keylessKey_withSeq (n seq : Int) (event : AgentEvent Args) :
    keylessKey (withSeq n event) seq = keylessKey event seq := by
  cases event <;> rfl

theorem seqOf_withSeq {event : AgentEvent Args} (h : carriesSeq event = true) (seq : Int) :
    seqOf (withSeq seq event) = seq := by
  cases event with
  | content event nestedFor => rfl
  | runState running => cases h
  | done nestedCallId => cases h

theorem itemKey_withSeq {event : AgentEvent Args} (h : carriesSeq event = true) (seq : Int) :
    itemKey (withSeq seq event) = (timelineItemKey event).getD (keylessKey event seq) := by
  unfold itemKey
  rw [timelineItemKey_withSeq, seqOf_withSeq h, keylessKey_withSeq]

/-- The three kinds of events without a key of their own are all stored. -/
theorem isPersistable_of_keyless {event : AgentEvent Args} (h : timelineItemKey event = none)
    (hcarries : carriesSeq event = true) : isPersistable event = true := by
  cases event with
  | runState running => cases hcarries
  | done nestedCallId => cases hcarries
  | content event nestedFor =>
      obtain ⟨createdAt, seq, agentName, nestedCallId, body⟩ := event
      cases body with
      | segment kind complete segmentId text => cases kind <;> cases h
      | userMessage _ _ _ | turnBoundary | toolCall _ _ _ | toolResult _ _ _ | subagentTask _
      | error _ => rfl

/-- The type of an event without a key of its own. -/
theorem typeOf_keyless {event : AgentEvent Args} (h : timelineItemKey event = none)
    (hcarries : carriesSeq event = true) :
    typeOf event = "user_message" ∨ typeOf event = "turn_boundary" ∨ typeOf event = "error" := by
  cases event with
  | runState running => cases hcarries
  | done nestedCallId => cases hcarries
  | content event nestedFor =>
      obtain ⟨createdAt, seq, agentName, nestedCallId, body⟩ := event
      cases body with
      | segment kind complete segmentId text => cases kind <;> cases h
      | toolCall _ _ _ | toolResult _ _ _ | subagentTask _ => cases h
      | userMessage _ _ _ => exact .inl rfl
      | turnBoundary => exact .inr (.inl rfl)
      | error _ => exact .inr (.inr rfl)

/-- How the keys of events that have one begin. -/
theorem keyed_prefix {event : AgentEvent Args} {key : String}
    (h : timelineItemKey event = some key) :
    ∃ rest : String, key = "text:" ++ rest ∨ key = "thinking:" ++ rest ∨ key = "tc:" ++ rest ∨
      key = "tr:" ++ rest ∨ key = "sa:" ++ rest := by
  cases event with
  | runState running => cases h
  | done nestedCallId => cases h
  | content event nestedFor =>
      obtain ⟨createdAt, seq, agentName, nestedCallId, body⟩ := event
      cases body with
      | segment kind complete segmentId text =>
          cases kind with
          | text =>
              obtain rfl := Option.some.inj h
              exact ⟨nestedCallId ++ ":" ++ segmentId, .inl (by simp [String.append_assoc])⟩
          | thinking =>
              obtain rfl := Option.some.inj h
              exact ⟨nestedCallId ++ ":" ++ segmentId,
                .inr (.inl (by simp [String.append_assoc]))⟩
      | toolCall callId _ _ =>
          obtain rfl := Option.some.inj h
          exact ⟨nestedCallId ++ ":" ++ callId,
            .inr (.inr (.inl (by simp [String.append_assoc])))⟩
      | toolResult callId _ _ =>
          obtain rfl := Option.some.inj h
          exact ⟨nestedCallId ++ ":" ++ callId,
            .inr (.inr (.inr (.inl (by simp [String.append_assoc]))))⟩
      | subagentTask task =>
          obtain rfl := Option.some.inj h
          exact ⟨task.runId, .inr (.inr (.inr (.inr rfl)))⟩
      | userMessage _ _ _ | turnBoundary | error _ => cases h

/-- A key of an event's own is not made from its number. -/
theorem keylessKey_not_keyed {event : AgentEvent Args} (h : timelineItemKey event = none)
    (hcarries : carriesSeq event = true) (seq : Int) : ¬ Keyed Args (keylessKey event seq) := by
  rintro ⟨other, hother⟩
  obtain ⟨rest, hprefix⟩ := keyed_prefix hother
  unfold keylessKey at hprefix
  rcases typeOf_keyless h hcarries with htype | htype | htype <;>
    rcases hprefix with heq | heq | heq | heq | heq <;>
    · rw [htype] at heq
      have hlist := congrArg String.toList heq
      simp [String.toList_append] at hlist

/-- The number can be read off the key. -/
theorem keylessKey_inj {event other : AgentEvent Args} (h : timelineItemKey event = none)
    (hcarries : carriesSeq event = true) (hother : timelineItemKey other = none)
    (hcarries' : carriesSeq other = true) {n m : Int}
    (heq : keylessKey event n = keylessKey other m) : n = m := by
  unfold keylessKey at heq
  have hlist := congrArg String.toList heq
  rcases typeOf_keyless h hcarries with htype | htype | htype <;>
    rcases typeOf_keyless hother hcarries' with htype' | htype' | htype' <;>
    rw [htype, htype'] at hlist <;>
    simp [String.toList_append] at hlist
  all_goals exact Int.repr_injective (String.toList_inj.mp hlist)

/-! ### The register -/

/-- What a row says about its item. -/
def TimelineRow.entry (row : TimelineRow Args) : String × Int := (row.itemKey, row.seq)

/-- The rows that wait to be stored. -/
def SessionTimeline.waiting (t : SessionTimeline Args) : List (TimelineRow Args) :=
  t.writing ++ t.queue

/-- A name in the register: an event's own key, or a key made from the number. -/
def Proper (Args : Type) (p : String × Int) : Prop :=
  Keyed Args p.1 ∨ ∃ event : AgentEvent Args, timelineItemKey event = none ∧
    carriesSeq event = true ∧ p.1 = keylessKey event p.2

/-- A counter and a key map that know the whole register. -/
structure Knows (Args : Type) (reg : NumberRegister String Int) (seq : Int)
    (itemSeq : List (String × Int)) : Prop where
  bound : ∀ p ∈ reg.entries, p.2 ≤ seq
  keyed : ∀ p ∈ reg.entries, Keyed Args p.1 → lookup itemSeq p.1 = some p.2

/-- **Everything is numbered as in the register.**  The table, the queues, the
key maps and the frames hold parts of it, together all of it, and a loaded
timeline knows it. -/
structure Numbered (reg : NumberRegister String Int) (s : TimelineState Args) : Prop where
  proper : ∀ p ∈ reg.entries, Proper Args p
  unique : (s.rows.map TimelineRow.itemKey).Nodup
  rows : ∀ row ∈ s.rows, row.entry ∈ reg.entries
  waiting : ∀ t ∈ s.timelines, ∀ row ∈ t.waiting, row.entry ∈ reg.entries
  stamped : ∀ t ∈ s.timelines, ∀ p ∈ t.itemSeq, p ∈ reg.entries ∧ p.2 ≤ t.seq
  covered : ∀ p ∈ reg.entries, p ∈ s.rows.map TimelineRow.entry ∨
    ∃ t ∈ s.timelines, p ∈ t.itemSeq ∨ p ∈ t.waiting.map TimelineRow.entry
  drained : ∀ t ∈ s.timelines, t.loaded = false → t.waiting = []
  events : ∀ object ∈ s.events, object.onBus = true →
    (itemKey object.event, seqOf object.event) ∈ reg.entries
  frames : ∀ x ∈ s.frames, (itemKey x, seqOf x) ∈ reg.entries
  loaded : ∀ t ∈ s.timelines, t.loaded = true → Knows Args reg t.seq t.itemSeq
  loading : ∀ load ∈ s.loads,
    (∀ p ∈ load.itemSeq, p ∈ reg.entries ∧ p.2 ≤ load.maxSeq) ∧
      ∀ t ∈ s.timelines[load.object]?,
        Knows Args reg (max t.seq load.maxSeq) (load.itemSeq.foldl setDefault t.itemSeq)

/-- **One party at most.**  All timelines but one have settled, and that one as
well while an event is stored straight. -/
structure OthersSettled (active : Nat) (s : TimelineState Args) : Prop where
  others : ∀ object < s.timelines.length, object ≠ active → Settled s object
  loads : ∀ load ∈ s.loads, load.object < s.timelines.length
  persists : s.persists ≠ [] → ∀ object < s.timelines.length, Settled s object
  oneOp : s.persists.length ≤ 1

/-! ### Rows and key maps -/

/-- What is read under a key is in the map. -/
theorem lookup_isSome_of_mem {m : List (String × Int)} {key : String} {n : Int}
    (h : (key, n) ∈ m) : ∃ n', lookup m key = some n' := by
  have hsome : (m.find? (fun entry => decide (entry.1 = key))).isSome = true :=
    List.find?_isSome.mpr ⟨(key, n), h, decide_eq_true rfl⟩
  obtain ⟨entry, hentry⟩ := Option.isSome_iff_exists.mp hsome
  exact ⟨entry.2, by simp [lookup, hentry]⟩

theorem lookup_setDefault (itemSeq : List (String × Int)) (entry : String × Int) (key : String) :
    lookup (setDefault itemSeq entry) key =
      (lookup itemSeq key).or (lookup [entry] key) := by
  unfold setDefault
  split
  · rename_i n hn
    by_cases h : entry.1 = key
    · simp [← h, hn]
    · simp [lookup, h]
  · rename_i hnone
    rw [lookup_write]
    by_cases h : entry.1 = key
    · rw [← h, hnone]
      simp [lookup]
    · simp [lookup, h]

/-- `setdefault` keeps what there is. -/
theorem lookup_setDefaults (entries itemSeq : List (String × Int)) (key : String) :
    lookup (entries.foldl setDefault itemSeq) key =
      (lookup itemSeq key).or (lookup entries key) := by
  induction entries generalizing itemSeq with
  | nil => simp [lookup]
  | cons entry rest ih =>
      rw [List.foldl_cons, ih, lookup_setDefault, Option.or_assoc]
      congr 1
      by_cases h : entry.1 = key <;> simp [lookup, h]

theorem mem_setDefaults {entries itemSeq : List (String × Int)} {p : String × Int}
    (h : p ∈ entries.foldl setDefault itemSeq) : p ∈ itemSeq ∨ p ∈ entries := by
  induction entries generalizing itemSeq with
  | nil => exact .inl h
  | cons entry rest ih =>
      rcases ih h with hmem | hmem
      · unfold setDefault at hmem
        split at hmem
        · exact .inl hmem
        · rcases mem_write hmem with rfl | hold
          · exact .inr List.mem_cons_self
          · exact .inl hold
      · exact .inr (List.mem_cons_of_mem _ hmem)

/-- Loading over a key map that knows everything changes nothing of it. -/
theorem Knows.setDefaults {reg : NumberRegister String Int} {seq : Int}
    {itemSeq : List (String × Int)} (h : Knows Args reg seq itemSeq) (seq' : Int)
    (entries : List (String × Int)) :
    Knows Args reg (max seq seq') (entries.foldl setDefault itemSeq) where
  bound p hp := le_max_of_le_left (h.bound p hp)
  keyed p hp hkey := by
    rw [lookup_setDefaults, h.keyed p hp hkey]
    rfl

theorem le_maxSeq {rows : List (TimelineRow Args)} {row : TimelineRow Args} (h : row ∈ rows) :
    row.seq ≤ maxSeq rows := by
  unfold maxSeq
  cases hmax : (rows.map TimelineRow.seq).max? with
  | none =>
      rw [List.max?_eq_none_iff, List.map_eq_nil_iff] at hmax
      rw [hmax] at h
      cases h
  | some n =>
      have hle := (List.max?_le_iff hmax (x := n)).mp le_rfl
      exact hle row.seq (List.mem_map_of_mem h)

/-- An upsert changes no key and no number of a row. -/
theorem entries_upsertRow (rows : List (TimelineRow Args)) (value : TimelineRow Args) :
    (upsertRow rows value).map TimelineRow.entry =
      if value.itemKey ∈ rows.map TimelineRow.itemKey then rows.map TimelineRow.entry
      else rows.map TimelineRow.entry ++ [value.entry] := by
  have hany : rows.any (fun row => decide (row.itemKey = value.itemKey)) = true ↔
      value.itemKey ∈ rows.map TimelineRow.itemKey := by simp
  unfold upsertRow
  by_cases h : value.itemKey ∈ rows.map TimelineRow.itemKey
  · rw [if_pos (hany.mpr h), if_pos h, List.map_map]
    refine List.map_congr_left ?_
    intro row _
    simp only [Function.comp_apply]
    split <;> rfl
  · rw [if_neg (fun h' => h (hany.mp h')), if_neg h, List.map_append]
    rfl

theorem keys_of_entries (rows : List (TimelineRow Args)) :
    rows.map TimelineRow.itemKey = (rows.map TimelineRow.entry).map Prod.fst := by
  rw [List.map_map]
  rfl

/-- The payload of an item after an upsert. -/
theorem lastOf_upsertRow (rows : List (TimelineRow Args)) (value : TimelineRow Args)
    (key : String) :
    (lastOf (fun row => decide (row.itemKey = key)) (upsertRow rows value)).map
        TimelineRow.payload =
      (lastOf (fun row => decide (row.itemKey = key)) (rows ++ [value])).map
        TimelineRow.payload := by
  unfold upsertRow
  split
  · rename_i hany
    let update : TimelineRow Args → TimelineRow Args := fun row =>
      if row.itemKey = value.itemKey then { row with payload := value.payload } else row
    have hkey : (fun row : TimelineRow Args => decide (row.itemKey = key)) ∘ update =
        fun row => decide (row.itemKey = key) := by
      funext row
      simp only [Function.comp_apply, update]
      split <;> rfl
    have hlast : lastOf (fun row => decide (row.itemKey = key)) (rows.map update) =
        (lastOf (fun row => decide (row.itemKey = key)) rows).map update := by
      unfold lastOf
      rw [List.filter_map, hkey, List.getLast?_map]
    rw [hlast, lastOf_append, lastOf_singleton]
    by_cases h : value.itemKey = key
    · obtain ⟨row, hrow, hsame⟩ := List.any_eq_true.mp hany
      cases hfound : lastOf (fun row => decide (row.itemKey = key)) rows with
      | none =>
          have hnot := lastOf_eq_none.mp hfound row hrow
          rw [decide_eq_true_eq] at hsame
          simp [hsame, h] at hnot
      | some last =>
          have hlastKey := (of_lastOf hfound).2
          rw [decide_eq_true_eq] at hlastKey
          simp [h, update, hlastKey]
    · simp only [h, decide_false, Bool.false_eq_true, if_false, Option.none_or, Option.map_map]
      cases hfound : lastOf (fun row => decide (row.itemKey = key)) rows with
      | none => rfl
      | some last =>
          have hlastKey := (of_lastOf hfound).2
          rw [decide_eq_true_eq] at hlastKey
          have hne : last.itemKey ≠ value.itemKey := fun heq => h (heq ▸ hlastKey)
          simp [update, hne]
  · rfl

/-- With rows and value numbered as in a register, an upsert adds what the
value says. -/
theorem mem_entries_upsertRow {reg : NumberRegister String Int} {rows : List (TimelineRow Args)}
    {value : TimelineRow Args} (hrows : ∀ row ∈ rows, row.entry ∈ reg.entries)
    (hvalue : value.entry ∈ reg.entries) (p : String × Int) :
    p ∈ (upsertRow rows value).map TimelineRow.entry ↔
      p ∈ rows.map TimelineRow.entry ∨ p = value.entry := by
  rw [entries_upsertRow]
  split
  · rename_i hmem
    refine ⟨.inl, ?_⟩
    rintro (hp | rfl)
    · exact hp
    · obtain ⟨row, hrow, hkey⟩ := List.mem_map.mp hmem
      have hreg := hrows row hrow
      unfold TimelineRow.entry at hreg hvalue ⊢
      rw [hkey] at hreg
      have hseq := reg.number_unique hreg hvalue
      exact List.mem_map.mpr ⟨row, hrow, by rw [hkey, hseq]⟩
  · simp

theorem nodup_upsertRow {rows : List (TimelineRow Args)}
    (h : (rows.map TimelineRow.itemKey).Nodup) (value : TimelineRow Args) :
    ((upsertRow rows value).map TimelineRow.itemKey).Nodup := by
  rw [keys_of_entries, entries_upsertRow]
  split
  · rw [← keys_of_entries]
    exact h
  · rename_i hmem
    rw [List.map_append, ← keys_of_entries]
    refine List.nodup_append.mpr ⟨h, by simp, ?_⟩
    intro key hkey other hother heq
    obtain rfl := List.mem_singleton.mp hother
    have hsame : key = value.itemKey := heq
    exact hmem (hsame ▸ hkey)

/-- What a batch of upserts does to keys, numbers and payloads. -/
theorem upsertTimelineEvents_spec {reg : NumberRegister String Int}
    {rows values : List (TimelineRow Args)} (hunique : (rows.map TimelineRow.itemKey).Nodup)
    (hrows : ∀ row ∈ rows, row.entry ∈ reg.entries)
    (hvalues : ∀ value ∈ values, value.entry ∈ reg.entries) :
    ((upsertTimelineEvents rows values).map TimelineRow.itemKey).Nodup ∧
      (∀ p, p ∈ (upsertTimelineEvents rows values).map TimelineRow.entry ↔
        p ∈ rows.map TimelineRow.entry ∨ p ∈ values.map TimelineRow.entry) ∧
      ∀ key, (lastOf (fun row => decide (row.itemKey = key))
          (upsertTimelineEvents rows values)).map TimelineRow.payload =
        (lastOf (fun row => decide (row.itemKey = key)) (rows ++ values)).map
          TimelineRow.payload := by
  unfold upsertTimelineEvents
  induction values generalizing rows with
  | nil => exact ⟨hunique, fun p => by simp, fun key => by simp⟩
  | cons value rest ih =>
      have hmem := mem_entries_upsertRow hrows (hvalues value List.mem_cons_self)
      have hrows' : ∀ row ∈ upsertRow rows value, row.entry ∈ reg.entries := by
        intro row hrow
        rcases (hmem row.entry).mp (List.mem_map_of_mem hrow) with hold | heq
        · obtain ⟨old, hold, heq⟩ := List.mem_map.mp hold
          exact heq ▸ hrows old hold
        · exact heq ▸ hvalues value List.mem_cons_self
      obtain ⟨hnodup, hentries, hlast⟩ := ih (nodup_upsertRow hunique value) hrows'
        (fun v hv => hvalues v (List.mem_cons_of_mem _ hv))
      refine ⟨hnodup, ?_, ?_⟩
      · intro p
        rw [List.foldl_cons, hentries, hmem, List.map_cons, List.mem_cons]
        exact or_assoc
      · intro key
        rw [List.foldl_cons, hlast, lastOf_append, Option.map_or, lastOf_upsertRow,
          ← Option.map_or, ← lastOf_append, List.append_assoc, List.singleton_append]

/-- Collapsing a batch keeps the last row of each item. -/
theorem lastOf_collapse (batch : List (TimelineRow Args)) (key : String) :
    lastOf (fun row => decide (row.itemKey = key)) (collapse batch) =
      lastOf (fun row => decide (row.itemKey = key)) batch := by
  unfold collapse
  rw [lastOf_filed (filed_writes TimelineRow.itemKey batch), lookup_writes]

theorem mem_of_mem_collapse {batch : List (TimelineRow Args)} {row : TimelineRow Args}
    (h : row ∈ collapse batch) : row ∈ batch := by
  obtain ⟨entry, hentry, rfl⟩ := List.mem_map.mp h
  exact mem_writes hentry

/-- No item of a batch is lost. -/
theorem mem_entries_collapse {reg : NumberRegister String Int} {batch : List (TimelineRow Args)}
    (hbatch : ∀ row ∈ batch, row.entry ∈ reg.entries) {row : TimelineRow Args}
    (h : row ∈ batch) : row.entry ∈ (collapse batch).map TimelineRow.entry := by
  cases hlast : lastOf (fun r : TimelineRow Args => decide (r.itemKey = row.itemKey)) batch with
  | none =>
      have hnot := lastOf_eq_none.mp hlast row h
      simp at hnot
  | some last =>
      have hcollapsed := (lastOf_collapse batch row.itemKey).trans hlast
      obtain ⟨hmem, hkey⟩ := of_lastOf hcollapsed
      rw [decide_eq_true_eq] at hkey
      have hreg := hbatch last (mem_of_mem_collapse hmem)
      have hrow := hbatch row h
      unfold TimelineRow.entry at hreg hrow ⊢
      rw [hkey] at hreg
      have hseq := reg.number_unique hreg hrow
      exact List.mem_map.mpr ⟨last, hmem, by rw [hkey, hseq]⟩

/-! ### Stamping on an open timeline -/

/-- How an event gets its number: its item's, or the next. -/
theorem takeSeq_cases (t : SessionTimeline Args) (key : Option String) :
    (∃ k n, key = some k ∧ lookup t.itemSeq k = some n ∧ t.takeSeq key = (t, n)) ∨
      (∃ k, key = some k ∧ lookup t.itemSeq k = none ∧
        t.takeSeq key =
          ({ t with seq := t.seq + 1, itemSeq := write k (t.seq + 1) t.itemSeq }, t.seq + 1)) ∨
      (key = none ∧ t.takeSeq key = ({ t with seq := t.seq + 1 }, t.seq + 1)) := by
  cases key with
  | none => exact .inr (.inr ⟨rfl, rfl⟩)
  | some k =>
      cases h : lookup t.itemSeq k with
      | none => exact .inr (.inl ⟨k, rfl, h, by simp [SessionTimeline.takeSeq, h]⟩)
      | some n => exact .inl ⟨k, n, rfl, h, by simp [SessionTimeline.takeSeq, h]⟩

/-- Publishing on an open timeline: stamped, delivered, and queued if it is to
be stored. -/
theorem publishExternal_open {t : SessionTimeline Args} {event : AgentEvent Args}
    (hcarries : carriesSeq event = true) (hloaded : t.loaded = true)
    (hopen : t.stopping = false) :
    t.publishExternal event =
      ({ (t.takeSeq (timelineItemKey event)).1 with
          queue := t.queue ++ if isPersistable event then
            [⟨itemKey (withSeq (t.takeSeq (timelineItemKey event)).2 event),
              (t.takeSeq (timelineItemKey event)).2,
              withSeq (t.takeSeq (timelineItemKey event)).2 event⟩] else [] },
        withSeq (t.takeSeq (timelineItemKey event)).2 event, true) := by
  have hkept : (t.takeSeq (timelineItemKey event)).1.loaded = true ∧
      (t.takeSeq (timelineItemKey event)).1.stopping = false ∧
        (t.takeSeq (timelineItemKey event)).1.queue = t.queue := by
    rcases takeSeq_cases t (timelineItemKey event) with
      ⟨k, n, -, -, htake⟩ | ⟨k, -, -, htake⟩ | ⟨-, htake⟩ <;>
      rw [htake] <;> exact ⟨hloaded, hopen, rfl⟩
  obtain ⟨hloaded', hopen', hqueue⟩ := hkept
  unfold SessionTimeline.publishExternal SessionTimeline.stampEvent
  rw [if_pos hcarries]
  by_cases hper : isPersistable event = true
  · simp only [hper, if_true, hloaded', SessionTimeline.enqueue, hopen', Bool.false_eq_true,
      if_false, hqueue, itemKey_withSeq hcarries, seqOf_withSeq hcarries]
  · simp only [hper, Bool.false_eq_true, if_false, List.append_nil, ← hqueue]

/-- **A stamp grows the register**, or is in it already. -/
theorem register_takeSeq {reg : NumberRegister String Int} {t : SessionTimeline Args}
    {event : AgentEvent Args} (hproper : ∀ p ∈ reg.entries, Proper Args p)
    (hknows : Knows Args reg t.seq t.itemSeq)
    (hstamped : ∀ p ∈ t.itemSeq, p ∈ reg.entries ∧ p.2 ≤ t.seq)
    (hcarries : carriesSeq event = true) :
    ∃ reg' : NumberRegister String Int,
      (∀ p, p ∈ reg'.entries ↔
        p = (itemKey (withSeq (t.takeSeq (timelineItemKey event)).2 event),
          (t.takeSeq (timelineItemKey event)).2) ∨ p ∈ reg.entries) ∧
      (∀ p ∈ reg'.entries, Proper Args p) ∧
      Knows Args reg' (t.takeSeq (timelineItemKey event)).1.seq
        (t.takeSeq (timelineItemKey event)).1.itemSeq ∧
      (∀ p ∈ (t.takeSeq (timelineItemKey event)).1.itemSeq,
        p ∈ reg'.entries ∧ p.2 ≤ (t.takeSeq (timelineItemKey event)).1.seq) ∧
      (∀ p ∈ t.itemSeq, p ∈ (t.takeSeq (timelineItemKey event)).1.itemSeq) ∧
      ∀ k, timelineItemKey event = some k →
        (k, (t.takeSeq (timelineItemKey event)).2) ∈
          (t.takeSeq (timelineItemKey event)).1.itemSeq := by
  rw [itemKey_withSeq hcarries]
  have hnumber : ∀ p ∈ reg.entries, p.2 ≠ t.seq + 1 := by
    intro p hp heq
    have hle := hknows.bound p hp
    omega
  rcases takeSeq_cases t (timelineItemKey event) with
    ⟨k, n, hkey, hlookup, htake⟩ | ⟨k, hkey, hlookup, htake⟩ | ⟨hkey, htake⟩
  · rw [htake, hkey]
    have hmem := mem_of_lookup hlookup
    refine ⟨reg, ?_, hproper, hknows, hstamped, fun p hp => hp, ?_⟩
    · intro p
      constructor
      · exact .inr
      · rintro (rfl | hp)
        · exact (hstamped _ hmem).1
        · exact hp
    · intro k' hk'
      obtain rfl := Option.some.inj hk'
      exact hmem
  · rw [htake, hkey]
    have hname : ∀ p ∈ reg.entries, p.1 ≠ k := by
      intro p hp heq
      have hknown := hknows.keyed p hp (heq ▸ ⟨event, hkey⟩)
      rw [heq, hlookup] at hknown
      cases hknown
    have hwrite : lookup (write k (t.seq + 1) t.itemSeq) k = some (t.seq + 1) := by
      rw [lookup_write, if_pos rfl]
    have hold : ∀ p ∈ t.itemSeq, p ∈ write k (t.seq + 1) t.itemSeq := by
      intro p hp
      have hne : k ≠ p.1 := fun heq => hname p (hstamped p hp).1 heq.symm
      obtain ⟨n, hn⟩ := @lookup_isSome_of_mem _ p.1 p.2 hp
      have hin := mem_of_lookup hn
      have hseq : n = p.2 := reg.number_unique (hstamped _ hin).1 (hstamped p hp).1
      have hkept : lookup (write k (t.seq + 1) t.itemSeq) p.1 = some p.2 := by
        rw [lookup_write, if_neg hne, hn, hseq]
      exact mem_of_lookup hkept
    refine ⟨reg.extend k (t.seq + 1) hname hnumber, fun p => NumberRegister.mem_extend, ?_, ?_,
      ?_, hold, ?_⟩
    · intro p hp
      rcases NumberRegister.mem_extend.mp hp with rfl | hp
      · exact .inl ⟨event, hkey⟩
      · exact hproper p hp
    · constructor
      · intro p hp
        rcases NumberRegister.mem_extend.mp hp with rfl | hp
        · exact Int.le_refl _
        · exact Int.le_trans (hknows.bound p hp) (by simp)
      · intro p hp hkeyed
        rcases NumberRegister.mem_extend.mp hp with rfl | hp
        · exact hwrite
        · rw [lookup_write, if_neg (fun heq => hname p hp heq.symm)]
          exact hknows.keyed p hp hkeyed
    · intro p hp
      rcases mem_write hp with rfl | hin
      · exact ⟨NumberRegister.mem_extend.mpr (.inl rfl), Int.le_refl _⟩
      · obtain ⟨hreg, hle⟩ := hstamped p hin
        exact ⟨NumberRegister.mem_extend.mpr (.inr hreg), Int.le_trans hle (by simp)⟩
    · intro k' hk'
      obtain rfl := Option.some.inj hk'
      exact mem_of_lookup hwrite
  · rw [htake, hkey]
    have hname : ∀ p ∈ reg.entries, p.1 ≠ keylessKey event (t.seq + 1) := by
      intro p hp heq
      rcases hproper p hp with hkeyed | ⟨other, hother, hcarries', hmade⟩
      · exact keylessKey_not_keyed hkey hcarries (t.seq + 1) (heq ▸ hkeyed)
      · exact hnumber p hp (keylessKey_inj hother hcarries' hkey hcarries (hmade.symm.trans heq))
    refine ⟨reg.extend (keylessKey event (t.seq + 1)) (t.seq + 1) hname hnumber,
      fun p => NumberRegister.mem_extend, ?_, ?_, ?_, fun p hp => hp, fun k hk => by cases hk⟩
    · intro p hp
      rcases NumberRegister.mem_extend.mp hp with rfl | hp
      · exact .inr ⟨event, hkey, hcarries, rfl⟩
      · exact hproper p hp
    · constructor
      · intro p hp
        rcases NumberRegister.mem_extend.mp hp with rfl | hp
        · exact Int.le_refl _
        · exact Int.le_trans (hknows.bound p hp) (by simp)
      · intro p hp hkeyed
        rcases NumberRegister.mem_extend.mp hp with rfl | hp
        · exact absurd hkeyed (keylessKey_not_keyed hkey hcarries (t.seq + 1))
        · exact hknows.keyed p hp hkeyed
    · intro p hp
      obtain ⟨hreg, hle⟩ := hstamped p hp
      exact ⟨NumberRegister.mem_extend.mpr (.inr hreg), Int.le_trans hle (by simp)⟩

/-! ### Steps on one timeline -/

/-- Where an entry may stand after a step: in the table, or with the timeline
that took it. -/
def Stands (rows : List (TimelineRow Args)) (t : SessionTimeline Args) (p : String × Int) : Prop :=
  p ∈ rows.map TimelineRow.entry ∨ p ∈ t.itemSeq ∨ p ∈ t.waiting.map TimelineRow.entry

/-- One timeline and the table change, and the register may grow. -/
theorem Numbered.setTimeline {reg reg' : NumberRegister String Int} {s s' : TimelineState Args}
    (h : Numbered reg s) {o : Nat} {t t' : SessionTimeline Args} (ho : s.timelines[o]? = some t)
    (htimelines : s'.timelines = s.timelines.set o t')
    (hgrow : ∀ p ∈ reg.entries, p ∈ reg'.entries)
    (hproper : ∀ p ∈ reg'.entries, Proper Args p)
    (hunique : (s'.rows.map TimelineRow.itemKey).Nodup)
    (hrows : ∀ row ∈ s'.rows, row.entry ∈ reg'.entries)
    (hwaiting : ∀ row ∈ t'.waiting, row.entry ∈ reg'.entries)
    (hstamped : ∀ p ∈ t'.itemSeq, p ∈ reg'.entries ∧ p.2 ≤ t'.seq)
    (hnew : ∀ p ∈ reg'.entries, p ∈ reg.entries ∨ Stands s'.rows t' p)
    (hold : ∀ p, Stands s.rows t p → Stands s'.rows t' p)
    (hdrained : t'.loaded = false → t'.waiting = [])
    (hevents : ∀ object ∈ s'.events, object.onBus = true →
      (itemKey object.event, seqOf object.event) ∈ reg'.entries)
    (hframes : s'.frames = s.frames)
    (hloaded : t'.loaded = true → Knows Args reg' t'.seq t'.itemSeq)
    (hothers : ∀ j x, s.timelines[j]? = some x → j ≠ o → x.loaded = true →
      Knows Args reg' x.seq x.itemSeq)
    (hloading : ∀ load ∈ s'.loads,
      (∀ p ∈ load.itemSeq, p ∈ reg'.entries ∧ p.2 ≤ load.maxSeq) ∧
        ∀ t ∈ s'.timelines[load.object]?,
          Knows Args reg' (max t.seq load.maxSeq) (load.itemSeq.foldl setDefault t.itemSeq)) :
    Numbered reg' s' := by
  have hlt := (List.getElem?_eq_some_iff.mp ho).1
  have htaken : t' ∈ s'.timelines := htimelines ▸ List.mem_set hlt t'
  -- the other timelines are as they were
  have hcases : ∀ x ∈ s'.timelines, x = t' ∨ ∃ j, s.timelines[j]? = some x ∧ j ≠ o := by
    intro x hx
    rw [htimelines] at hx
    obtain ⟨j, hj⟩ := List.mem_iff_getElem?.mp hx
    rcases getElem?_set_cases hj with ⟨-, rfl⟩ | ⟨hne, hj⟩
    · exact .inl rfl
    · exact .inr ⟨j, hj, hne⟩
  refine ⟨hproper, hunique, hrows, ?_, ?_, ?_, ?_, hevents, ?_, ?_, hloading⟩
  · intro x hx
    rcases hcases x hx with rfl | ⟨j, hj, -⟩
    · exact hwaiting
    · exact fun row hrow => hgrow _ (h.waiting x (List.mem_of_getElem? hj) row hrow)
  · intro x hx
    rcases hcases x hx with rfl | ⟨j, hj, -⟩
    · exact hstamped
    · intro p hp
      obtain ⟨hreg, hle⟩ := h.stamped x (List.mem_of_getElem? hj) p hp
      exact ⟨hgrow p hreg, hle⟩
  · intro p hp
    have hstands : Stands s'.rows t' p → p ∈ s'.rows.map TimelineRow.entry ∨
        ∃ t ∈ s'.timelines, p ∈ t.itemSeq ∨ p ∈ t.waiting.map TimelineRow.entry := by
      rintro (hrow | htimeline)
      · exact .inl hrow
      · exact .inr ⟨t', htaken, htimeline⟩
    rcases hnew p hp with hreg | hhere
    · rcases h.covered p hreg with hrow | ⟨x, hx, hpx⟩
      · exact hstands (hold p (.inl hrow))
      · obtain ⟨j, hj⟩ := List.mem_iff_getElem?.mp hx
        by_cases hjo : j = o
        · subst hjo
          rw [ho] at hj
          obtain rfl := Option.some.inj hj
          exact hstands (hold p (.inr hpx))
        · refine .inr ⟨x, ?_, hpx⟩
          rw [htimelines]
          refine List.mem_iff_getElem?.mpr ⟨j, ?_⟩
          rw [List.getElem?_set_ne (fun heq => hjo heq.symm)]
          exact hj
    · exact hstands hhere
  · intro x hx
    rcases hcases x hx with rfl | ⟨j, hj, -⟩
    · exact hdrained
    · exact h.drained x (List.mem_of_getElem? hj)
  · intro x hx
    exact hgrow _ (h.frames x (hframes ▸ hx))
  · intro x hx
    rcases hcases x hx with rfl | ⟨j, hj, hne⟩
    · exact hloaded
    · exact hothers j x hj hne

/-- A move of the writer, of a timeline that goes on knowing what it knew. -/
theorem Numbered.writer {reg : NumberRegister String Int} {s : TimelineState Args}
    (h : Numbered reg s) {o : Nat} {t t' : SessionTimeline Args}
    {rows' : List (TimelineRow Args)} (ho : s.timelines[o]? = some t)
    (hseq : t'.seq = t.seq) (hitemSeq : t'.itemSeq = t.itemSeq)
    (hunique : (rows'.map TimelineRow.itemKey).Nodup)
    (hrows : ∀ row ∈ rows', row.entry ∈ reg.entries)
    (hwaiting : ∀ row ∈ t'.waiting, row.entry ∈ reg.entries)
    (hold : ∀ p, p ∈ s.rows.map TimelineRow.entry ∨ p ∈ t.waiting.map TimelineRow.entry →
      Stands rows' t' p)
    (hdrained : t'.loaded = false → t'.waiting = [])
    (hloaded : t'.loaded = true → t.loaded = true) :
    Numbered reg { s with rows := rows', timelines := s.timelines.set o t' } := by
  have hmem := List.mem_of_getElem? ho
  refine h.setTimeline ho rfl (fun p hp => hp) h.proper hunique hrows hwaiting ?_
    (fun p hp => .inl hp) ?_ hdrained h.events rfl ?_ ?_ ?_
  · rw [hseq, hitemSeq]
    exact h.stamped t hmem
  · intro p hp
    rcases hp with hrow | hstamp | hwait
    · exact hold p (.inl hrow)
    · exact .inr (.inl (hitemSeq ▸ hstamp))
    · exact hold p (.inr hwait)
  · intro hl
    rw [hseq, hitemSeq]
    exact h.loaded t hmem (hloaded hl)
  · exact fun j x hj _ => h.loaded x (List.mem_of_getElem? hj)
  · intro load hload
    obtain ⟨hin, hknows⟩ := h.loading load hload
    refine ⟨hin, ?_⟩
    intro x hx
    rcases getElem?_set_cases hx with ⟨hobject, rfl⟩ | ⟨-, hx⟩
    · rw [hseq, hitemSeq]
      exact hknows t (hobject ▸ ho)
    · exact hknows x hx

/-- **A step of the writer** keeps the numbering. -/
theorem Numbered.writerMove {reg : NumberRegister String Int} {s : TimelineState Args}
    (h : Numbered reg s) {o : Nat} {t t' : SessionTimeline Args} {move : WriterMove}
    {rows' : List (TimelineRow Args)} (ho : s.timelines[o]? = some t)
    (hmove : TimelineLog.writerMove s.rows t move = some (rows', t'))
    (hfails : move ≠ .failBatch) :
    Numbered reg { s with rows := rows', timelines := s.timelines.set o t' } := by
  have hmem := List.mem_of_getElem? ho
  have hreg := h.waiting t hmem
  cases move with
  | takeBatch count =>
      simp only [TimelineLog.writerMove] at hmove
      split at hmove
      · rename_i hready
        obtain ⟨rfl, rfl⟩ := Prod.mk.inj (Option.some.inj hmove)
        have hall : ∀ row ∈ t.queue, row.entry ∈ reg.entries :=
          fun row hrow => hreg row (List.mem_append_right _ hrow)
        have htake : ∀ row ∈ t.queue.take count, row.entry ∈ reg.entries :=
          fun row hrow => hall row (List.mem_of_mem_take hrow)
        refine h.writer ho rfl rfl h.unique h.rows ?_ ?_ ?_ (fun hl => hl)
        · intro row hrow
          rcases List.mem_append.mp hrow with hrow | hrow
          · exact htake row (mem_of_mem_collapse hrow)
          · exact hall row (List.mem_of_mem_drop hrow)
        · rintro p (hp | hp)
          · exact .inl hp
          · refine .inr (.inr ?_)
            obtain ⟨row, hrow, rfl⟩ := List.mem_map.mp hp
            rw [SessionTimeline.waiting, hready.1, List.nil_append,
              ← List.take_append_drop count t.queue] at hrow
            rw [SessionTimeline.waiting, List.map_append]
            rcases List.mem_append.mp hrow with hrow | hrow
            · exact List.mem_append_left _ (mem_entries_collapse htake hrow)
            · exact List.mem_append_right _ (List.mem_map_of_mem hrow)
        · intro hl
          have hempty := h.drained t hmem hl
          rw [SessionTimeline.waiting, List.append_eq_nil_iff] at hempty
          have hlen : t.queue.length = 0 := by rw [hempty.2]; rfl
          omega
      · cases hmove
  | commitBatch =>
      simp only [TimelineLog.writerMove] at hmove
      split at hmove
      · cases hmove
      · obtain ⟨rfl, rfl⟩ := Prod.mk.inj (Option.some.inj hmove)
        have hwriting : ∀ row ∈ t.writing, row.entry ∈ reg.entries :=
          fun row hrow => hreg row (List.mem_append_left _ hrow)
        obtain ⟨hunique, hentries, -⟩ := upsertTimelineEvents_spec h.unique h.rows hwriting
        refine h.writer ho rfl rfl hunique ?_ ?_ ?_ ?_ (fun hl => hl)
        · intro row hrow
          rcases (hentries row.entry).mp (List.mem_map_of_mem hrow) with hin | hin <;>
            obtain ⟨old, hold, heq⟩ := List.mem_map.mp hin
          · exact heq ▸ h.rows old hold
          · exact heq ▸ hwriting old hold
        · intro row hrow
          exact hreg row (List.mem_append_right _ hrow)
        · rintro p (hp | hp)
          · exact .inl ((hentries p).mpr (.inl hp))
          · rw [SessionTimeline.waiting, List.map_append] at hp
            rcases List.mem_append.mp hp with hp | hp
            · exact .inl ((hentries p).mpr (.inr hp))
            · exact .inr (.inr hp)
        · intro hl
          have hempty := h.drained t hmem hl
          rw [SessionTimeline.waiting, List.append_eq_nil_iff] at hempty
          exact hempty.2
  | failBatch => exact absurd rfl hfails
  | beginClose =>
      obtain ⟨rfl, rfl⟩ := Prod.mk.inj (Option.some.inj hmove)
      exact h.writer ho rfl rfl h.unique h.rows hreg
        (fun p hp => hp.elim .inl (fun hp => .inr (.inr hp))) (h.drained t hmem) (fun hl => hl)
  | endClose =>
      simp only [TimelineLog.writerMove] at hmove
      split at hmove
      · rename_i hready
        obtain ⟨rfl, rfl⟩ := Prod.mk.inj (Option.some.inj hmove)
        refine h.writer ho rfl rfl h.unique h.rows hreg
          (fun p hp => hp.elim .inl (fun hp => .inr (.inr hp))) ?_ (fun hl => by cases hl)
        intro _
        rw [SessionTimeline.waiting]
        exact List.append_eq_nil_iff.mpr ⟨hready.2.2, hready.2.1⟩
      · cases hmove

/-! ### The other steps -/

/-- Table, timelines and loads stay. -/
theorem Numbered.setEvents {reg : NumberRegister String Int} {s : TimelineState Args}
    (h : Numbered reg s) {events : List (EventObject Args)} {frames : List (AgentEvent Args)}
    (pooled : Option Nat) (persists : List (PersistOp Args))
    (hevents : ∀ object ∈ events, object.onBus = true →
      (itemKey object.event, seqOf object.event) ∈ reg.entries)
    (hframes : ∀ x ∈ frames, (itemKey x, seqOf x) ∈ reg.entries) :
    Numbered reg { s with events, frames, pooled, persists } :=
  ⟨h.proper, h.unique, h.rows, h.waiting, h.stamped, h.covered, h.drained, hevents, hframes,
    h.loaded, h.loading⟩

theorem Numbered.start : Numbered NumberRegister.empty ({} : TimelineState Args) where
  proper p hp := by cases hp
  unique := List.nodup_nil
  rows row hrow := by cases hrow
  waiting t ht := by cases ht
  stamped t ht := by cases ht
  covered p hp := by cases hp
  drained t ht := by cases ht
  events object hobject := by cases hobject
  frames x hx := by cases hx
  loaded t ht := by cases ht
  loading load hload := by cases hload

/-- A new object has stamped nothing. -/
theorem Numbered.create {reg : NumberRegister String Int} {s : TimelineState Args}
    (h : Numbered reg s) (hloads : ∀ load ∈ s.loads, load.object < s.timelines.length)
    (pooled : Option Nat) :
    Numbered reg { s with timelines := s.timelines ++ [{}], pooled } := by
  have hcases : ∀ t ∈ s.timelines ++ [({} : SessionTimeline Args)], t ∈ s.timelines ∨ t = {} :=
    fun t ht => (List.mem_append.mp ht).imp id List.mem_singleton.mp
  refine ⟨h.proper, h.unique, h.rows, ?_, ?_, ?_, ?_, h.events, h.frames, ?_, ?_⟩
  · intro t ht
    rcases hcases t ht with hold | rfl
    · exact h.waiting t hold
    · exact fun row hrow => by cases hrow
  · intro t ht
    rcases hcases t ht with hold | rfl
    · exact h.stamped t hold
    · exact fun p hp => by cases hp
  · intro p hp
    refine (h.covered p hp).imp id ?_
    rintro ⟨t, ht, hpt⟩
    exact ⟨t, List.mem_append_left _ ht, hpt⟩
  · intro t ht
    rcases hcases t ht with hold | rfl
    · exact h.drained t hold
    · exact fun _ => rfl
  · intro t ht
    rcases hcases t ht with hold | rfl
    · exact h.loaded t hold
    · exact fun hl => by cases hl
  · intro load hload
    obtain ⟨hin, hknows⟩ := h.loading load hload
    refine ⟨hin, ?_⟩
    intro t ht
    have hsame : (s.timelines ++ [({} : SessionTimeline Args)])[load.object]? =
        s.timelines[load.object]? := List.getElem?_append_left (hloads load hload)
    exact hknows t (hsame ▸ ht)

/-- The items of a settled timeline stand in the table. -/
theorem Numbered.settled {reg : NumberRegister String Int} {s : TimelineState Args}
    (h : Numbered reg s) {j : Nat} {t : SessionTimeline Args} (hj : s.timelines[j]? = some t)
    (hsettled : Settled s j) {p : String × Int}
    (hp : p ∈ t.itemSeq ∨ p ∈ t.waiting.map TimelineRow.entry) :
    p ∈ s.rows.map TimelineRow.entry := by
  obtain ⟨hloaded, hstored⟩ := hsettled.1 t hj
  have hmem := List.mem_of_getElem? hj
  rcases hp with hp | hp
  · obtain ⟨row, hrow, hkey⟩ := List.mem_map.mp (hstored p hp)
    have hreg := h.rows row hrow
    unfold TimelineRow.entry at hreg
    rw [hkey] at hreg
    have hseq : row.seq = p.2 := reg.number_unique hreg (h.stamped t hmem p hp).1
    exact List.mem_map.mpr ⟨row, hrow, by rw [TimelineRow.entry, hkey, hseq]⟩
  · rw [h.drained t hmem hloaded] at hp
    cases hp

/-- **What the head leaves out, the object has stamped itself.** -/
theorem Numbered.knows_head {reg : NumberRegister String Int} {s : TimelineState Args}
    (h : Numbered reg s) {o : Nat} {t : SessionTimeline Args} (ho : s.timelines[o]? = some t)
    (hloaded : t.loaded = false)
    (hothers : ∀ other < s.timelines.length, other ≠ o → Settled s other) :
    Knows Args reg (max t.seq (maxSeq s.rows))
      ((s.rows.map TimelineRow.entry).foldl setDefault t.itemSeq) := by
  have hmem := List.mem_of_getElem? ho
  have hheld : ∀ p ∈ reg.entries, p ∈ s.rows.map TimelineRow.entry ∨ p ∈ t.itemSeq := by
    intro p hp
    rcases h.covered p hp with hrow | ⟨x, hx, hpx⟩
    · exact .inl hrow
    · obtain ⟨j, hj⟩ := List.mem_iff_getElem?.mp hx
      by_cases hjo : j = o
      · subst hjo
        rw [ho] at hj
        obtain rfl := Option.some.inj hj
        rcases hpx with hpx | hpx
        · exact .inr hpx
        · rw [h.drained t hmem hloaded] at hpx
          cases hpx
      · have hlt := (List.getElem?_eq_some_iff.mp hj).1
        exact .inl (h.settled hj (hothers j hlt hjo) hpx)
  constructor
  · intro p hp
    rcases hheld p hp with hrow | hstamp
    · obtain ⟨row, hin, rfl⟩ := List.mem_map.mp hrow
      exact le_max_of_le_right (le_maxSeq hin)
    · exact le_max_of_le_left (h.stamped t hmem p hstamp).2
  · intro p hp _
    have hsome : ∃ n, lookup ((s.rows.map TimelineRow.entry).foldl setDefault t.itemSeq) p.1 =
        some n := by
      rw [lookup_setDefaults]
      rcases hheld p hp with hrow | hstamp
      · obtain ⟨n, hn⟩ := @lookup_isSome_of_mem _ p.1 p.2 hrow
        cases lookup t.itemSeq p.1 with
        | none => exact ⟨n, by simp [hn]⟩
        | some n' => exact ⟨n', rfl⟩
      · obtain ⟨n, hn⟩ := @lookup_isSome_of_mem _ p.1 p.2 hstamp
        exact ⟨n, by simp [hn]⟩
    obtain ⟨n, hn⟩ := hsome
    have hreg : (p.1, n) ∈ reg.entries := by
      rcases mem_setDefaults (mem_of_lookup hn) with hin | hin
      · exact (h.stamped t hmem _ hin).1
      · obtain ⟨row, hrow, heq⟩ := List.mem_map.mp hin
        exact heq ▸ h.rows row hrow
    rw [hn, reg.number_unique hreg hp]

theorem Numbered.readHead {reg : NumberRegister String Int} {s : TimelineState Args}
    (h : Numbered reg s) {o : Nat} {t : SessionTimeline Args} (ho : s.timelines[o]? = some t)
    (hloaded : t.loaded = false)
    (hothers : ∀ other < s.timelines.length, other ≠ o → Settled s other) :
    Numbered reg { s with
      loads := s.loads ++ [⟨o, (loadTimelineHead s.rows).1, (loadTimelineHead s.rows).2⟩] } := by
  refine ⟨h.proper, h.unique, h.rows, h.waiting, h.stamped, h.covered, h.drained, h.events,
    h.frames, h.loaded, ?_⟩
  intro load hload
  rcases List.mem_append.mp hload with hold | hnew
  · exact h.loading load hold
  · obtain rfl := List.mem_singleton.mp hnew
    constructor
    · intro p hp
      obtain ⟨row, hrow, rfl⟩ := List.mem_map.mp hp
      exact ⟨h.rows row hrow, le_maxSeq hrow⟩
    · intro x hx
      obtain rfl := Option.some.inj (ho.symm.trans hx)
      exact h.knows_head ho hloaded hothers

/-- A finished load knows the whole register. -/
theorem Numbered.finishLoad {reg : NumberRegister String Int} {s : TimelineState Args}
    (h : Numbered reg s) {i : Nat} {load : TimelineLoad} {t : SessionTimeline Args}
    (hi : s.loads[i]? = some load) (ho : s.timelines[load.object]? = some t) :
    Numbered reg { s with
      loads := s.loads.eraseIdx i
      timelines := s.timelines.set load.object (t.finishLoad load) } := by
  have hmem := List.mem_of_getElem? ho
  obtain ⟨hin, hknows⟩ := h.loading load (List.mem_of_getElem? hi)
  have hknown := hknows t ho
  have hkept : (t.finishLoad load).waiting = t.waiting := by
    unfold SessionTimeline.finishLoad SessionTimeline.waiting
    split <;> rfl
  have hgrown : Knows Args reg (t.finishLoad load).seq (t.finishLoad load).itemSeq := by
    unfold SessionTimeline.finishLoad
    split
    · rename_i hloaded
      exact h.loaded t hmem hloaded
    · exact hknown
  have hstamped : ∀ p ∈ (t.finishLoad load).itemSeq,
      p ∈ reg.entries ∧ p.2 ≤ (t.finishLoad load).seq := by
    unfold SessionTimeline.finishLoad
    split
    · exact h.stamped t hmem
    · intro p hp
      rcases mem_setDefaults hp with hold | hnew
      · obtain ⟨hreg, hle⟩ := h.stamped t hmem p hold
        exact ⟨hreg, le_max_of_le_left hle⟩
      · obtain ⟨hreg, hle⟩ := hin p hnew
        exact ⟨hreg, le_max_of_le_right hle⟩
  have hold : ∀ p ∈ t.itemSeq, p ∈ (t.finishLoad load).itemSeq := by
    unfold SessionTimeline.finishLoad
    split
    · exact fun p hp => hp
    · intro p hp
      obtain ⟨n, hn⟩ := @lookup_isSome_of_mem _ p.1 p.2 hp
      have hseq : n = p.2 :=
        reg.number_unique (h.stamped t hmem _ (mem_of_lookup hn)).1 (h.stamped t hmem p hp).1
      have hkeeps : lookup (load.itemSeq.foldl setDefault t.itemSeq) p.1 = some p.2 := by
        rw [lookup_setDefaults, hn, hseq]
        rfl
      exact mem_of_lookup hkeeps
  refine h.setTimeline ho rfl (fun p hp => hp) h.proper h.unique h.rows ?_ hstamped
    (fun p hp => .inl hp) ?_ ?_ h.events rfl (fun _ => hgrown)
    (fun j x hj _ => h.loaded x (List.mem_of_getElem? hj)) ?_
  · rw [hkept]
    exact h.waiting t hmem
  · rintro p (hrow | hstamp | hwait)
    · exact .inl hrow
    · exact .inr (.inl (hold p hstamp))
    · exact .inr (.inr (hkept.symm ▸ hwait))
  · intro hloaded
    rw [hkept]
    refine h.drained t hmem ?_
    unfold SessionTimeline.finishLoad at hloaded
    split at hloaded
    · exact hloaded
    · cases hloaded
  · intro other hother
    have hother' := List.mem_of_mem_eraseIdx hother
    obtain ⟨hin', hknows'⟩ := h.loading other hother'
    refine ⟨hin', ?_⟩
    intro x hx
    rcases getElem?_set_cases hx with ⟨-, rfl⟩ | ⟨-, hx⟩
    · exact hgrown.setDefaults _ _
    · exact hknows' x hx

/-- A loaded timeline is the one that has not settled. -/
theorem OthersSettled.eq_active {active : Nat} {s : TimelineState Args}
    (hx : OthersSettled active s) {o : Nat} {t : SessionTimeline Args}
    (ho : s.timelines[o]? = some t) (hloaded : t.loaded = true) : o = active := by
  by_contra hne
  have hlt := (List.getElem?_eq_some_iff.mp ho).1
  have hsettled := (hx.others o hlt hne).1 t ho
  rw [hloaded] at hsettled
  cases hsettled.1

/-- The timeline and the event objects after publishing on an open timeline. -/
theorem publishOn_open {s : TimelineState Args} {o : Nat} {t : SessionTimeline Args}
    {event : AgentEvent Args} (hcarries : carriesSeq event = true) (hloaded : t.loaded = true)
    (hopen : t.stopping = false) :
    publishOn s o t event =
      ({ s with
          timelines := s.timelines.set o
            { (t.takeSeq (timelineItemKey event)).1 with
              queue := t.queue ++ if isPersistable event then
                [⟨itemKey (withSeq (t.takeSeq (timelineItemKey event)).2 event),
                  (t.takeSeq (timelineItemKey event)).2,
                  withSeq (t.takeSeq (timelineItemKey event)).2 event⟩] else [] }
          events := s.events ++ [⟨withSeq (t.takeSeq (timelineItemKey event)).2 event, true⟩] },
        true) := by
  unfold publishOn
  rw [publishExternal_open hcarries hloaded hopen]
  simp only [carriesSeq_withSeq, hcarries, if_true]

/-- **Publishing keeps the numbering**, the register grown by at most one. -/
theorem Numbered.publish {reg : NumberRegister String Int} {active : Nat} {s : TimelineState Args}
    (h : Numbered reg s) (hx : OthersSettled active s) {o : Nat} {t : SessionTimeline Args}
    (ho : s.timelines[o]? = some t) {event : AgentEvent Args} (hcarries : carriesSeq event = true)
    (hloaded : t.loaded = true) (hopen : t.stopping = false) :
    ∃ reg', Numbered reg' (publishOn s o t event).1 := by
  have hmem := List.mem_of_getElem? ho
  obtain rfl := hx.eq_active ho hloaded
  obtain ⟨reg', hreg', hproper, hknows, hstamped, hold, hkey⟩ :=
    register_takeSeq h.proper (h.loaded t hmem hloaded) (h.stamped t hmem) hcarries
  have hgrow : ∀ p ∈ reg.entries, p ∈ reg'.entries := fun p hp => (hreg' p).mpr (.inr hp)
  have hunsettled : ∀ j x, s.timelines[j]? = some x → j ≠ o → Settled s j :=
    fun j x hj hne => hx.others j (List.getElem?_eq_some_iff.mp hj).1 hne
  refine ⟨reg', ?_⟩
  rw [publishOn_open hcarries hloaded hopen]
  generalize htake : t.takeSeq (timelineItemKey event) = r at *
  have hkept : r.1.writing = t.writing ∧ r.1.loaded = t.loaded := by
    rcases takeSeq_cases t (timelineItemKey event) with
      ⟨k, n, -, -, hr⟩ | ⟨k, -, -, hr⟩ | ⟨-, hr⟩ <;>
      rw [← htake, hr] <;> exact ⟨rfl, rfl⟩
  have hnewRow : ∀ row : TimelineRow Args,
      row ∈ (if isPersistable event then
        [(⟨itemKey (withSeq r.2 event), r.2, withSeq r.2 event⟩ : TimelineRow Args)] else []) →
      row.entry = (itemKey (withSeq r.2 event), r.2) := by
    intro row hrow
    split at hrow
    · rw [List.mem_singleton.mp hrow]
      rfl
    · cases hrow
  refine h.setTimeline ho rfl hgrow hproper h.unique (fun row hrow => hgrow _ (h.rows row hrow))
    ?_ hstamped ?_ ?_ ?_ ?_ rfl (fun _ => hknows) ?_ ?_
  · intro row hrow
    rcases List.mem_append.mp hrow with hrow | hrow
    · exact hgrow _ (h.waiting t hmem row (List.mem_append_left _ (hkept.1 ▸ hrow)))
    · rcases List.mem_append.mp hrow with hrow | hrow
      · exact hgrow _ (h.waiting t hmem row (List.mem_append_right _ hrow))
      · exact (hreg' _).mpr (.inl (hnewRow row hrow))
  · intro p hp
    rcases (hreg' p).mp hp with rfl | hp
    · refine .inr (.inr ?_)
      cases hown : timelineItemKey event with
      | some k =>
          refine .inl ?_
          rw [itemKey_withSeq hcarries, hown]
          exact hkey k hown
      | none =>
          refine .inr ?_
          have hper := isPersistable_of_keyless hown hcarries
          refine List.mem_map.mpr ⟨⟨itemKey (withSeq r.2 event), r.2, withSeq r.2 event⟩, ?_, rfl⟩
          refine List.mem_append_right _ (List.mem_append_right _ ?_)
          rw [if_pos hper]
          exact List.mem_singleton.mpr rfl
    · exact .inl hp
  · rintro p (hrow | hstamp | hwait)
    · exact .inl hrow
    · exact .inr (.inl (hold p hstamp))
    · refine .inr (.inr ?_)
      obtain ⟨row, hrow, rfl⟩ := List.mem_map.mp hwait
      refine List.mem_map_of_mem ?_
      rcases List.mem_append.mp hrow with hrow | hrow
      · exact List.mem_append_left _ (hkept.1.symm ▸ hrow)
      · exact List.mem_append_right _ (List.mem_append_left _ hrow)
  · intro hl
    rw [hkept.2, hloaded] at hl
    cases hl
  · intro object hobject hbus
    rcases List.mem_append.mp hobject with hin | hin
    · exact hgrow _ (h.events object hin hbus)
    · obtain rfl := List.mem_singleton.mp hin
      rw [seqOf_withSeq hcarries]
      exact (hreg' _).mpr (.inl rfl)
  · intro j x hj hne hl
    have hsettled := (hunsettled j x hj hne).1 x hj
    rw [hl] at hsettled
    cases hsettled.1
  · intro load hload
    obtain ⟨hin, -⟩ := h.loading load hload
    refine ⟨fun p hp => ⟨hgrow p (hin p hp).1, (hin p hp).2⟩, ?_⟩
    intro x hx'
    rcases getElem?_set_cases hx' with ⟨-, rfl⟩ | ⟨hne, hx'⟩
    · exact hknows.setDefaults _ _
    · exact absurd rfl ((hunsettled _ x hx' hne).2 load hload)

/-! ### Events stored straight -/

/-- When everything has settled, the table is the register. -/
theorem Numbered.all_stored {reg : NumberRegister String Int} {s : TimelineState Args}
    (h : Numbered reg s) (hall : ∀ object < s.timelines.length, Settled s object)
    {p : String × Int} (hp : p ∈ reg.entries) : p ∈ s.rows.map TimelineRow.entry := by
  rcases h.covered p hp with hrow | ⟨t, ht, hpt⟩
  · exact hrow
  · obtain ⟨j, hj⟩ := List.mem_iff_getElem?.mp ht
    exact h.settled hj (hall j (List.getElem?_eq_some_iff.mp hj).1) hpt

/-- A row that is about to be inserted: of an item in the table under its
number, or of a new item under a new number. -/
def Insertable (rows : List (TimelineRow Args)) (row : TimelineRow Args) : Prop :=
  row.entry ∈ rows.map TimelineRow.entry ∨
    ((∀ other ∈ rows, other.itemKey ≠ row.itemKey) ∧ ∀ other ∈ rows, other.seq < row.seq)

/-- **Inserting keeps the numbering.** -/
theorem Numbered.insert {reg : NumberRegister String Int} {s : TimelineState Args}
    (h : Numbered reg s) (hall : ∀ object < s.timelines.length, Settled s object)
    (hloads : ∀ load ∈ s.loads, load.object < s.timelines.length)
    {row : TimelineRow Args} (hkeyed : Keyed Args row.itemKey) (hrow : Insertable s.rows row)
    (persists : List (PersistOp Args)) :
    ∃ reg', Numbered reg' { s with rows := upsertRow s.rows row, persists } := by
  have hunloaded : ∀ t ∈ s.timelines, t.loaded = true → False := by
    intro t ht hl
    obtain ⟨j, hj⟩ := List.mem_iff_getElem?.mp ht
    have hsettled := ((hall j (List.getElem?_eq_some_iff.mp hj).1).1 t hj).1
    rw [hl] at hsettled
    cases hsettled
  have hnoLoad : ∀ load ∈ s.loads, False :=
    fun load hload => (hall load.object (hloads load hload)).2 load hload rfl
  rcases hrow with hin | ⟨hkey, hseq⟩
  · have hvalue : row.entry ∈ reg.entries := by
      obtain ⟨old, hold, heq⟩ := List.mem_map.mp hin
      exact heq ▸ h.rows old hold
    have hentries := mem_entries_upsertRow h.rows hvalue
    refine ⟨reg, h.proper, nodup_upsertRow h.unique row, ?_, h.waiting, h.stamped, ?_, h.drained,
      h.events, h.frames, h.loaded, h.loading⟩
    · intro other hother
      rcases (hentries other.entry).mp (List.mem_map_of_mem hother) with hmem | heq
      · obtain ⟨old, hold, heq⟩ := List.mem_map.mp hmem
        exact heq ▸ h.rows old hold
      · exact heq ▸ hvalue
    · exact fun p hp => (h.covered p hp).imp (fun hmem => (hentries p).mpr (.inl hmem)) id
  · have hname : ∀ p ∈ reg.entries, p.1 ≠ row.itemKey := by
      intro p hp
      obtain ⟨other, hother, rfl⟩ := List.mem_map.mp (h.all_stored hall hp)
      exact hkey other hother
    have hnumber : ∀ p ∈ reg.entries, p.2 ≠ row.seq := by
      intro p hp
      obtain ⟨other, hother, rfl⟩ := List.mem_map.mp (h.all_stored hall hp)
      exact Int.ne_of_lt (hseq other hother)
    have hgrow : ∀ p ∈ reg.entries,
        p ∈ (reg.extend row.itemKey row.seq hname hnumber).entries :=
      fun p hp => NumberRegister.mem_extend.mpr (.inr hp)
    have hvalue : row.entry ∈ (reg.extend row.itemKey row.seq hname hnumber).entries :=
      NumberRegister.mem_extend.mpr (.inl rfl)
    have hrows := fun other (hother : other ∈ s.rows) => hgrow _ (h.rows other hother)
    have hentries := mem_entries_upsertRow hrows hvalue
    refine ⟨reg.extend row.itemKey row.seq hname hnumber, ?_, nodup_upsertRow h.unique row, ?_,
      fun t ht r hr => hgrow _ (h.waiting t ht r hr),
      fun t ht p hp => ⟨hgrow p (h.stamped t ht p hp).1, (h.stamped t ht p hp).2⟩, ?_, h.drained,
      fun object hobject hbus => hgrow _ (h.events object hobject hbus),
      fun x hx => hgrow _ (h.frames x hx), fun t ht hl => (hunloaded t ht hl).elim,
      fun load hload => (hnoLoad load hload).elim⟩
    · intro p hp
      rcases NumberRegister.mem_extend.mp hp with rfl | hp
      · exact .inl hkeyed
      · exact h.proper p hp
    · intro other hother
      rcases (hentries other.entry).mp (List.mem_map_of_mem hother) with hmem | heq
      · obtain ⟨old, hold, heq⟩ := List.mem_map.mp hmem
        exact heq ▸ hrows old hold
      · exact heq ▸ hvalue
    · intro p hp
      rcases NumberRegister.mem_extend.mp hp with rfl | hp
      · exact .inl ((hentries _).mpr (.inr rfl))
      · exact .inl ((hentries p).mpr (.inl (h.all_stored hall hp)))

/-! ### Who has settled -/

/-- A timeline stays settled while the table only gains items. -/
theorem Settled.of_same {s s' : TimelineState Args} {o : Nat} (h : Settled s o)
    (htimeline : s'.timelines[o]? = s.timelines[o]?)
    (hrows : ∀ key ∈ s.rows.map TimelineRow.itemKey, key ∈ s'.rows.map TimelineRow.itemKey)
    (hloads : ∀ load ∈ s'.loads, load ∈ s.loads ∨ load.object ≠ o) : Settled s' o := by
  constructor
  · intro t ht
    obtain ⟨hloaded, hstored⟩ := h.1 t (htimeline ▸ ht)
    exact ⟨hloaded, fun entry hentry => hrows _ (hstored entry hentry)⟩
  · intro load hload
    rcases hloads load hload with hold | hne
    · exact h.2 load hold
    · exact hne

theorem OthersSettled.start : OthersSettled 0 ({} : TimelineState Args) where
  others object hlt := absurd hlt (Nat.not_lt_zero _)
  loads load hload := by cases hload
  persists hne := absurd rfl hne
  oneOp := Nat.zero_le _

theorem OthersSettled.create {active : Nat} {s : TimelineState Args}
    (h : OthersSettled active s) (pooled : Option Nat) :
    OthersSettled active { s with timelines := s.timelines ++ [{}], pooled } := by
  have hnew : ∀ object < (s.timelines ++ [({} : SessionTimeline Args)]).length,
      (object < s.timelines.length → Settled s object) →
        Settled { s with timelines := s.timelines ++ [{}], pooled } object := by
    intro object hlt hold
    by_cases hlast : object < s.timelines.length
    · exact (hold hlast).of_same (List.getElem?_append_left hlast) (fun key hkey => hkey)
        (fun load hload => .inl hload)
    · have heq : object = s.timelines.length := by
        rw [List.length_append, List.length_singleton] at hlt
        omega
      subst heq
      constructor
      · intro t ht
        simp only [List.getElem?_concat_length, Option.mem_def, Option.some.injEq] at ht
        subst ht
        exact ⟨rfl, fun entry hentry => by cases hentry⟩
      · exact fun load hload => Nat.ne_of_lt (h.loads load hload)
  refine ⟨?_, ?_, ?_, h.oneOp⟩
  · exact fun object hlt hne => hnew object hlt (fun hold => h.others object hold hne)
  · intro load hload
    simp only [List.length_append, List.length_singleton]
    exact Nat.lt_succ_of_lt (h.loads load hload)
  · exact fun hne object hlt => hnew object hlt (fun hold => h.persists hne object hold)

/-- A step of a timeline that is not settled yet. -/
theorem OthersSettled.setTimeline {active : Nat} {s s' : TimelineState Args}
    (h : OthersSettled active s) {o : Nat} {t' : SessionTimeline Args}
    (htimelines : s'.timelines = s.timelines.set o t')
    (hrows : ∀ key ∈ s.rows.map TimelineRow.itemKey, key ∈ s'.rows.map TimelineRow.itemKey)
    (hloads : ∀ load ∈ s'.loads, load ∈ s.loads) (hpersists : s'.persists = s.persists)
    (hsettled : Settled s o → Settled s' o) : OthersSettled active s' := by
  have hkeep : ∀ object, Settled s object → Settled s' object := by
    intro object hobject
    by_cases heq : object = o
    · exact heq ▸ hsettled (heq ▸ hobject)
    · refine hobject.of_same ?_ hrows (fun load hload => .inl (hloads load hload))
      rw [htimelines, List.getElem?_set_ne (fun h' => heq h'.symm)]
  have hlength : s'.timelines.length = s.timelines.length := by
    rw [htimelines, List.length_set]
  refine ⟨?_, ?_, ?_, hpersists ▸ h.oneOp⟩
  · exact fun object hlt hne => hkeep object (h.others object (hlength ▸ hlt) hne)
  · exact fun load hload => hlength ▸ h.loads load (hloads load hload)
  · exact fun hne object hlt =>
      hkeep object (h.persists (hpersists ▸ hne) object (hlength ▸ hlt))

/-! ### Payloads -/

/-- Every row that waits to be stored. -/
def waitingRows (s : TimelineState Args) : List (TimelineRow Args) :=
  (s.timelines.map SessionTimeline.waiting).flatten

/-- The payload an item has once everything that waits is stored. -/
def latest (s : TimelineState Args) (key : String) : Option (AgentEvent Args) :=
  (lastOf (fun row => decide (row.itemKey = key)) (s.rows ++ waitingRows s)).map
    TimelineRow.payload

/-- How far storing an event straight has come. -/
def PhaseFits (rows : List (TimelineRow Args)) (op : PersistOp Args) (event : AgentEvent Args) :
    Prop :=
  match op.phase with
  | .lookup => True
  | .allocate => ∀ row ∈ rows, row.itemKey ≠ op.itemKey
  | .insert row => row.itemKey = op.itemKey ∧ row.payload = event ∧ Insertable rows row

/-- **What will be stored is what was published.**  An event being stored
straight is the last one, and not among what waits. -/
structure Payloads (s : TimelineState Args) : Prop where
  stored : s.persists = [] → ∀ key, latest s key = lastPublished s.events key
  straight : ∀ op ∈ s.persists, ∃ before event, s.events = before ++ [⟨event, false⟩] ∧
    op.event = before.length ∧ timelineItemKey event = some op.itemKey ∧
      isPersistable event = true ∧ (∀ key, latest s key = lastPublished before key) ∧
        PhaseFits s.rows op event

theorem Payloads.start : Payloads ({} : TimelineState Args) where
  stored _ key := rfl
  straight op hop := by cases hop

/-- Rows, what waits, events and persists decide. -/
theorem Payloads.of_same {s s' : TimelineState Args} (h : Payloads s) (hrows : s'.rows = s.rows)
    (hlatest : ∀ key, latest s' key = latest s key) (hevents : s'.events = s.events)
    (hpersists : s'.persists = s.persists) : Payloads s' := by
  constructor
  · intro hnone key
    rw [hlatest, hevents]
    exact h.stored (hpersists ▸ hnone) key
  · intro op hop
    obtain ⟨before, event, hsplit, hlast, hkey, hper, hall, hphase⟩ :=
      h.straight op (hpersists ▸ hop)
    exact ⟨before, event, hevents.trans hsplit, hlast, hkey, hper,
      fun key => (hlatest key).trans (hall key), hrows.symm ▸ hphase⟩

/-- One part changes, without another last element. -/
theorem lastOf_flatten_set {α β : Type} {p : β → Bool} (f : α → List β) {l : List α} {o : Nat}
    {x y : α} (hx : l[o]? = some x) (h : lastOf p (f y) = lastOf p (f x)) :
    lastOf p ((l.set o y).map f).flatten = lastOf p (l.map f).flatten := by
  induction l generalizing o with
  | nil => cases hx
  | cons first rest ih =>
      cases o with
      | zero =>
          obtain rfl := Option.some.inj hx
          rw [List.set_cons_zero, List.map_cons, List.map_cons, List.flatten_cons,
            List.flatten_cons, lastOf_append, lastOf_append, h]
      | succ o =>
          rw [List.set_cons_succ, List.map_cons, List.map_cons, List.flatten_cons,
            List.flatten_cons, lastOf_append, lastOf_append, ih hx]

/-- When only one part is not empty, it is all there is. -/
theorem flatten_of_others_nil {α β : Type} (f : α → List β) {l : List α} {o : Nat} {x : α}
    (hx : l[o]? = some x) (h : ∀ j y, l[j]? = some y → j ≠ o → f y = []) :
    (l.map f).flatten = f x := by
  induction l generalizing o with
  | nil => cases hx
  | cons first rest ih =>
      rw [List.map_cons, List.flatten_cons]
      cases o with
      | zero =>
          obtain rfl := Option.some.inj hx
          have hrest : (rest.map f).flatten = [] := by
            rw [List.flatten_eq_nil_iff]
            intro part hpart
            obtain ⟨y, hy, rfl⟩ := List.mem_map.mp hpart
            obtain ⟨j, hj⟩ := List.mem_iff_getElem?.mp hy
            exact h (j + 1) y hj (Nat.succ_ne_zero j)
          rw [hrest, List.append_nil]
      | succ o =>
          have hfirst : f first = [] := h 0 first rfl (Nat.succ_ne_zero o).symm
          rw [hfirst, List.nil_append]
          exact ih hx (fun j y hj hne => h (j + 1) y hj (fun heq => hne (Nat.succ.inj heq)))

/-- One timeline changes, without another last row of any item. -/
theorem Payloads.setTimeline {s : TimelineState Args} (h : Payloads s) {o : Nat}
    {t t' : SessionTimeline Args} (ho : s.timelines[o]? = some t)
    (hwaiting : ∀ key, lastOf (fun row => decide (row.itemKey = key)) t'.waiting =
      lastOf (fun row => decide (row.itemKey = key)) t.waiting) (loads : List TimelineLoad) :
    Payloads { s with loads, timelines := s.timelines.set o t' } := by
  refine h.of_same rfl (fun key => ?_) rfl rfl
  unfold latest waitingRows
  rw [lastOf_append, lastOf_append, lastOf_flatten_set _ ho (hwaiting key)]

/-- What waits, when the other timelines have settled. -/
theorem waitingRows_eq {reg : NumberRegister String Int} {active : Nat} {s : TimelineState Args}
    (h : Numbered reg s) (hx : OthersSettled active s) {t : SessionTimeline Args}
    (ho : s.timelines[active]? = some t) : waitingRows s = t.waiting := by
  refine flatten_of_others_nil _ ho ?_
  intro j y hj hne
  have hsettled := hx.others j (List.getElem?_eq_some_iff.mp hj).1 hne
  exact h.drained y (List.mem_of_getElem? hj) (hsettled.1 y hj).1

theorem waitingRows_eq_nil {reg : NumberRegister String Int} {s : TimelineState Args}
    (h : Numbered reg s) (hall : ∀ object < s.timelines.length, Settled s object) :
    waitingRows s = [] := by
  rw [waitingRows, List.flatten_eq_nil_iff]
  intro part hpart
  obtain ⟨t, ht, rfl⟩ := List.mem_map.mp hpart
  obtain ⟨j, hj⟩ := List.mem_iff_getElem?.mp ht
  exact h.drained t ht ((hall j (List.getElem?_eq_some_iff.mp hj).1).1 t hj).1

/-- Nothing is stored straight while a timeline is loaded. -/
theorem OthersSettled.persists_nil {active : Nat} {s : TimelineState Args}
    (hx : OthersSettled active s) {o : Nat} {t : SessionTimeline Args}
    (ho : s.timelines[o]? = some t) (hloaded : t.loaded = true) : s.persists = [] := by
  by_contra hne
  have hsettled := (hx.persists hne o (List.getElem?_eq_some_iff.mp ho).1).1 t ho
  rw [hloaded] at hsettled
  cases hsettled.1

/-- The last event published for an item, one event later. -/
theorem lastPublished_append (events : List (EventObject Args)) (object : EventObject Args)
    (key : String) :
    lastPublished (events ++ [object]) key =
      if isPersistable object.event = true ∧ itemKey object.event = key then some object.event
      else lastPublished events key := by
  unfold lastPublished
  rw [lastOf_append, lastOf_singleton]
  by_cases h : isPersistable object.event = true ∧ itemKey object.event = key
  · simp [h]
  · rw [if_neg h, if_neg (by simpa using h)]
    rfl

/-- **Publishing queues what is published.** -/
theorem Payloads.publish {reg : NumberRegister String Int} {active : Nat} {s : TimelineState Args}
    (h : Payloads s) (hn : Numbered reg s) (hx : OthersSettled active s) {o : Nat}
    {t : SessionTimeline Args} (ho : s.timelines[o]? = some t) {event : AgentEvent Args}
    (hcarries : carriesSeq event = true) (hloaded : t.loaded = true) (hopen : t.stopping = false) :
    Payloads (publishOn s o t event).1 := by
  obtain rfl := hx.eq_active ho hloaded
  have hnone := hx.persists_nil ho hloaded
  have hlt := (List.getElem?_eq_some_iff.mp ho).1
  rw [publishOn_open hcarries hloaded hopen]
  generalize htake : t.takeSeq (timelineItemKey event) = r
  have hwriting : r.1.writing = t.writing := by
    rcases takeSeq_cases t (timelineItemKey event) with
      ⟨k, n, -, -, hr⟩ | ⟨k, -, -, hr⟩ | ⟨-, hr⟩ <;>
      rw [← htake, hr]
  constructor
  · intro _ key
    have hwaiting : waitingRows { s with
        timelines := s.timelines.set o { r.1 with
          queue := t.queue ++ if isPersistable event then
            [⟨itemKey (withSeq r.2 event), r.2, withSeq r.2 event⟩] else [] }
        events := s.events ++ [⟨withSeq r.2 event, true⟩] } =
        t.waiting ++ if isPersistable event then
          [⟨itemKey (withSeq r.2 event), r.2, withSeq r.2 event⟩] else [] := by
      refine (flatten_of_others_nil SessionTimeline.waiting
        (List.getElem?_set_self hlt) ?_).trans ?_
      · intro j y hj hne
        rw [List.getElem?_set_ne (fun heq => hne heq.symm)] at hj
        have hsettled := hx.others j (List.getElem?_eq_some_iff.mp hj).1 hne
        exact hn.drained y (List.mem_of_getElem? hj) (hsettled.1 y hj).1
      · simp only [SessionTimeline.waiting, hwriting, List.append_assoc]
    have hbefore := h.stored hnone key
    unfold latest at hbefore ⊢
    rw [waitingRows_eq hn hx ho] at hbefore
    rw [hwaiting, lastPublished_append, isPersistable_withSeq, ← hbefore, ← List.append_assoc]
    by_cases hper : isPersistable event = true
    · rw [if_pos hper, lastOf_append, lastOf_singleton]
      by_cases hkey : itemKey (withSeq r.2 event) = key
      · simp [hper, hkey]
      · simp [hkey]
    · rw [if_neg hper, List.append_nil, if_neg (fun hboth => hper hboth.1)]
  · intro op hop
    have hop' : op ∈ s.persists := hop
    rw [hnone] at hop'
    cases hop'

/-- **Writing stores what waits.** -/
theorem Payloads.writerMove {reg : NumberRegister String Int} {active : Nat}
    {s : TimelineState Args} (h : Payloads s) (hn : Numbered reg s) (hx : OthersSettled active s)
    {o : Nat} {t t' : SessionTimeline Args} {move : WriterMove}
    {rows' : List (TimelineRow Args)} (ho : s.timelines[o]? = some t)
    (hmove : TimelineLog.writerMove s.rows t move = some (rows', t'))
    (hfails : move ≠ .failBatch) :
    Payloads { s with rows := rows', timelines := s.timelines.set o t' } := by
  have hmem := List.mem_of_getElem? ho
  cases move with
  | takeBatch count =>
      simp only [TimelineLog.writerMove] at hmove
      split at hmove
      · rename_i hready
        obtain ⟨rfl, rfl⟩ := Prod.mk.inj (Option.some.inj hmove)
        refine h.setTimeline ho (fun key => ?_) s.loads
        simp only [SessionTimeline.waiting]
        rw [lastOf_append, lastOf_collapse, ← lastOf_append, List.take_append_drop, hready.1,
          List.nil_append]
      · cases hmove
  | commitBatch =>
      simp only [TimelineLog.writerMove] at hmove
      split at hmove
      · cases hmove
      · rename_i hbusy
        obtain ⟨rfl, rfl⟩ := Prod.mk.inj (Option.some.inj hmove)
        -- the timeline has something to write, so it is the loaded one
        have hloaded : t.loaded = true := by
          cases hl : t.loaded with
          | true => rfl
          | false =>
              have hempty := hn.drained t hmem hl
              rw [SessionTimeline.waiting, List.append_eq_nil_iff] at hempty
              exact absurd hempty.1 hbusy
        obtain rfl := hx.eq_active ho hloaded
        have hnone := hx.persists_nil ho hloaded
        have hlt := (List.getElem?_eq_some_iff.mp ho).1
        have hwriting : ∀ row ∈ t.writing, row.entry ∈ reg.entries :=
          fun row hrow => hn.waiting t hmem row (List.mem_append_left _ hrow)
        obtain ⟨-, -, hlast⟩ := upsertTimelineEvents_spec hn.unique hn.rows hwriting
        constructor
        · intro _ key
          have hwaiting : waitingRows { s with
              rows := upsertTimelineEvents s.rows t.writing
              timelines := s.timelines.set o { t with writing := [] } } = t.queue := by
            refine (flatten_of_others_nil SessionTimeline.waiting
              (List.getElem?_set_self hlt) ?_).trans rfl
            intro j y hj hne
            rw [List.getElem?_set_ne (fun heq => hne heq.symm)] at hj
            have hsettled := hx.others j (List.getElem?_eq_some_iff.mp hj).1 hne
            exact hn.drained y (List.mem_of_getElem? hj) (hsettled.1 y hj).1
          have hbefore := h.stored hnone key
          unfold latest at hbefore ⊢
          rw [waitingRows_eq hn hx ho, SessionTimeline.waiting, ← List.append_assoc,
            lastOf_append, Option.map_or] at hbefore
          rw [hwaiting, lastOf_append, Option.map_or, hlast]
          exact hbefore
        · intro op hop
          have hop' : op ∈ s.persists := hop
          rw [hnone] at hop'
          cases hop'
  | failBatch => exact absurd rfl hfails
  | beginClose =>
      obtain ⟨rfl, rfl⟩ := Prod.mk.inj (Option.some.inj hmove)
      refine h.setTimeline ho ?_ s.loads
      exact fun key => rfl
  | endClose =>
      simp only [TimelineLog.writerMove] at hmove
      split at hmove
      · obtain ⟨rfl, rfl⟩ := Prod.mk.inj (Option.some.inj hmove)
        refine h.setTimeline ho ?_ s.loads
        exact fun key => rfl
      · cases hmove

theorem Payloads.finishLoad {s : TimelineState Args} (h : Payloads s) {i o : Nat}
    {load : TimelineLoad} {t : SessionTimeline Args} (ho : s.timelines[o]? = some t) :
    Payloads { s with
      loads := s.loads.eraseIdx i
      timelines := s.timelines.set o (t.finishLoad load) } := by
  refine h.setTimeline ho (fun key => ?_) _
  unfold SessionTimeline.finishLoad SessionTimeline.waiting
  split <;> rfl

theorem Payloads.create {s : TimelineState Args} (h : Payloads s) (pooled : Option Nat) :
    Payloads { s with timelines := s.timelines ++ [{}], pooled } := by
  refine h.of_same rfl (fun key => ?_) rfl rfl
  have hsame : waitingRows { s with timelines := s.timelines ++ [{}], pooled } =
      waitingRows s := by
    unfold waitingRows
    rw [List.map_append, List.flatten_append]
    exact List.append_nil _
  unfold latest
  rw [hsame]

/-- An event to be stored straight is the last one published. -/
theorem Payloads.beginPersist {s : TimelineState Args} (h : Payloads s) (hnone : s.persists = [])
    {event : AgentEvent Args} {key : String} (hkey : timelineItemKey event = some key)
    (hper : isPersistable event = true) :
    Payloads { s with
      events := s.events ++ [⟨event, false⟩]
      persists := s.persists ++ [⟨s.events.length, key, .lookup⟩] } := by
  constructor
  · intro hempty
    have hempty' : s.persists ++ [(⟨s.events.length, key, .lookup⟩ : PersistOp Args)] = [] := hempty
    simp at hempty'
  · intro op hop
    rw [hnone] at hop
    obtain rfl := List.mem_singleton.mp hop
    exact ⟨s.events, event, rfl, rfl, hkey, hper, h.stored hnone, trivial⟩

/-- An event object and a call that stores it straight, replaced together. -/
theorem Payloads.stampPersist {s t : TimelineState Args} (h : Payloads s) {op : PersistOp Args}
    (hop : s.persists = [op]) {seq : Int}
    (hinsert : ∀ event : AgentEvent Args, Insertable s.rows ⟨op.itemKey, seq, event⟩)
    (hstep : TimelineLog.stampPersist s 0 op seq = some t) :
    Payloads t ∧ t.rows = s.rows ∧ t.timelines = s.timelines ∧ t.loads = s.loads ∧
      t.frames = s.frames ∧ t.persists.length = 1 ∧ t.pooled = s.pooled ∧
        ∀ object ∈ t.events, object.onBus = true → object ∈ s.events := by
  obtain ⟨before, event, hsplit, hlast, hkey, hper, hall, hphase⟩ :=
    h.straight op (hop ▸ List.mem_singleton.mpr rfl)
  have hobject : s.events[op.event]? = some ⟨event, false⟩ := by
    rw [hsplit, hlast, List.getElem?_concat_length]
  have hset : s.events.set op.event ⟨withSeq seq event, false⟩ =
      before ++ [⟨withSeq seq event, false⟩] := by
    rw [hsplit, hlast, List.set_append_right _ _ (Nat.le_refl _), Nat.sub_self]
    rfl
  unfold TimelineLog.stampPersist at hstep
  rw [hobject] at hstep
  obtain rfl := Option.some.inj hstep
  refine ⟨⟨?_, ?_⟩, rfl, rfl, rfl, rfl, ?_, rfl, ?_⟩
  · intro hempty
    simp [hop] at hempty
  · intro op' hop'
    simp only [hop, List.set_cons_zero, List.mem_singleton] at hop'
    subst hop'
    refine ⟨before, withSeq seq event, hset, hlast, by simpa using hkey, by simpa using hper,
      hall, rfl, rfl, hinsert _⟩
  · simp [hop]
  · intro object hin hbus
    simp only [hset, List.mem_append, List.mem_singleton] at hin
    rcases hin with hin | rfl
    · exact hsplit ▸ List.mem_append_left _ hin
    · cases hbus

/-! ### Runs -/

/-- **The invariant.** -/
def TimelineInv (s : TimelineState Args) : Prop :=
  ∃ reg active, Numbered reg s ∧ OthersSettled active s ∧ Payloads s

theorem TimelineInv.start : TimelineInv ({} : TimelineState Args) :=
  ⟨NumberRegister.empty, 0, Numbered.start, OthersSettled.start, Payloads.start⟩

/-- Timelines and loads stay, the table gains items at most. -/
theorem OthersSettled.of_same {active : Nat} {s s' : TimelineState Args}
    (h : OthersSettled active s) (htimelines : s'.timelines = s.timelines)
    (hrows : ∀ key ∈ s.rows.map TimelineRow.itemKey, key ∈ s'.rows.map TimelineRow.itemKey)
    (hloads : s'.loads = s.loads) (hone : s'.persists.length ≤ 1)
    (hall : s'.persists ≠ [] → ∀ object < s.timelines.length, Settled s object) :
    OthersSettled active s' := by
  have hkeep : ∀ object, Settled s object → Settled s' object := fun object hobject =>
    hobject.of_same (by rw [htimelines]) hrows (fun load hload => .inl (hloads ▸ hload))
  refine ⟨?_, ?_, ?_, hone⟩
  · exact fun object hlt hne => hkeep object (h.others object (htimelines ▸ hlt) hne)
  · exact fun load hload => htimelines ▸ h.loads load (hloads ▸ hload)
  · exact fun hne object hlt => hkeep object (hall hne object (htimelines ▸ hlt))

/-- The writer loads nothing, stamps nothing and drops no item. -/
theorem writerMove_frame {reg : NumberRegister String Int} {s : TimelineState Args}
    (h : Numbered reg s) {o : Nat} {t t' : SessionTimeline Args} {move : WriterMove}
    {rows' : List (TimelineRow Args)} (ho : s.timelines[o]? = some t)
    (hmove : writerMove s.rows t move = some (rows', t')) :
    t'.itemSeq = t.itemSeq ∧ (t.loaded = false → t'.loaded = false) ∧
      ∀ key ∈ s.rows.map TimelineRow.itemKey, key ∈ rows'.map TimelineRow.itemKey := by
  cases move with
  | commitBatch =>
      simp only [writerMove] at hmove
      split at hmove
      · cases hmove
      · obtain ⟨rfl, rfl⟩ := Prod.mk.inj (Option.some.inj hmove)
        have hwriting : ∀ row ∈ t.writing, row.entry ∈ reg.entries := fun row hrow =>
          h.waiting t (List.mem_of_getElem? ho) row (List.mem_append_left _ hrow)
        obtain ⟨-, hentries, -⟩ := upsertTimelineEvents_spec h.unique h.rows hwriting
        refine ⟨rfl, fun hl => hl, ?_⟩
        intro key hkey
        rw [keys_of_entries] at hkey ⊢
        obtain ⟨p, hp, rfl⟩ := List.mem_map.mp hkey
        exact List.mem_map_of_mem ((hentries p).mpr (.inl hp))
  | beginClose =>
      obtain ⟨rfl, rfl⟩ := Prod.mk.inj (Option.some.inj hmove)
      exact ⟨rfl, fun hl => hl, fun key hkey => hkey⟩
  | takeBatch _ | failBatch | endClose =>
      simp only [writerMove] at hmove
      split at hmove
      all_goals first
        | cases hmove
        | obtain ⟨rfl, rfl⟩ := Prod.mk.inj (Option.some.inj hmove)
      all_goals exact ⟨rfl, fun hl => by first | exact hl | rfl, fun key hkey => hkey⟩

/-- Publishing keeps the invariant. -/
theorem TimelineInv.publish {s : TimelineState Args} (h : TimelineInv s) {o : Nat}
    {t : SessionTimeline Args} (ho : s.timelines[o]? = some t) {event : AgentEvent Args}
    (hopen : carriesSeq event = true → Open s o) : TimelineInv (publishOn s o t event).1 := by
  obtain ⟨reg, active, hn, hx, hp⟩ := h
  cases hcarries : carriesSeq event with
  | false =>
      -- a control frame changes nothing here
      have hsame : (publishOn s o t event).1 = s := by
        unfold publishOn SessionTimeline.publishExternal SessionTimeline.stampEvent
        simp only [hcarries, Bool.false_eq_true, if_false]
        obtain ⟨hlt, rfl⟩ := List.getElem?_eq_some_iff.mp ho
        rw [List.set_getElem_self]
      rw [hsame]
      exact ⟨reg, active, hn, hx, hp⟩
  | true =>
      obtain ⟨hloaded, hstop⟩ := hopen hcarries t ho
      obtain ⟨reg', hn'⟩ := hn.publish hx ho hcarries hloaded hstop
      refine ⟨reg', active, hn', ?_, hp.publish hn hx ho hcarries hloaded hstop⟩
      rw [publishOn_open hcarries hloaded hstop]
      refine hx.setTimeline rfl (fun key hkey => hkey) (fun load hload => hload) rfl ?_
      intro hsettled
      have hunloaded := (hsettled.1 t ho).1
      rw [hloaded] at hunloaded
      cases hunloaded

/-- A task snapshot has a key of its own and is stored. -/
theorem taskEvent_key (createdAt : String) (task : SubagentTask) :
    timelineItemKey (taskEvent createdAt task : AgentEvent Args) = some ("sa:" ++ task.runId) ∧
      isPersistable (taskEvent createdAt task : AgentEvent Args) = true ∧
        carriesSeq (taskEvent createdAt task : AgentEvent Args) = true :=
  ⟨rfl, rfl, rfl⟩

/-- A snapshot goes over an open bus, or is to be stored straight. -/
theorem TimelineInv.publishTask {s t : TimelineState Args} (h : TimelineInv s)
    {createdAt : String} {task : SubagentTask} (hok : OneParty s (.publishTask createdAt task))
    (hstep : publishTaskSnapshot s createdAt task = some t) : TimelineInv t := by
  obtain ⟨hopen, hsettled⟩ := hok
  unfold publishTaskSnapshot at hstep
  simp only at hstep
  split at hstep
  · rename_i hpooled
    split at hstep
    · obtain rfl := Option.some.inj hstep
      exact h
    · obtain rfl := Option.some.inj hstep
      obtain ⟨hnone, hall⟩ := hsettled hpooled
      obtain ⟨reg, active, hn, hx, hp⟩ := h
      obtain ⟨hkey, hper, -⟩ := @taskEvent_key Args createdAt task
      refine ⟨reg, active, ?_, ?_, hp.beginPersist hnone hkey hper⟩
      · refine hn.setEvents _ _ ?_ hn.frames
        intro object hobject hbus
        rcases List.mem_append.mp hobject with hin | hin
        · exact hn.events object hin hbus
        · obtain rfl := List.mem_singleton.mp hin
          cases hbus
      · refine hx.of_same rfl (fun key hkey => hkey) rfl ?_ (fun _ => hall)
        simp [hnone]
  · rename_i o hpooled
    split at hstep
    · cases hstep
    · rename_i x ho
      obtain ⟨-, -, hcarries⟩ := @taskEvent_key Args createdAt task
      obtain ⟨hloaded, hstop⟩ := hopen o hpooled x ho
      have hpublished := @TimelineInv.publish Args _ h _ _ ho (taskEvent createdAt task)
        (fun _ => hopen o hpooled)
      rw [publishOn_open hcarries hloaded hstop] at hstep hpublished
      obtain rfl := Option.some.inj hstep
      exact hpublished

/-- Every statement that stores an event straight keeps the invariant. -/
theorem TimelineInv.persist {s t : TimelineState Args} (h : TimelineInv s) {i : Nat}
    {op : PersistOp Args} (hi : s.persists[i]? = some op)
    (hstep : advancePersist s i op = some t) : TimelineInv t := by
  obtain ⟨reg, active, hn, hx, hp⟩ := h
  have hop : s.persists = [op] ∧ i = 0 := by
    have hlen := hx.oneOp
    match hlist : s.persists with
    | [] => rw [hlist] at hi; cases hi
    | [only] =>
        rw [hlist] at hi
        cases i with
        | zero => exact ⟨by rw [← Option.some.inj hi], rfl⟩
        | succ i => cases hi
    | _ :: _ :: _ => rw [hlist] at hlen; simp at hlen
  obtain ⟨hop, rfl⟩ := hop
  have hall := hx.persists (by rw [hop]; exact List.cons_ne_nil _ _)
  obtain ⟨before, event, hsplit, hlast, hkey, hper, hbefore, hphase⟩ :=
    hp.straight op (hop ▸ List.mem_singleton.mpr rfl)
  -- a stamp and the row made of it
  have hstamp : ∀ seq, (∀ event : AgentEvent Args, Insertable s.rows ⟨op.itemKey, seq, event⟩) →
      stampPersist s 0 op seq = some t → TimelineInv t := by
    intro seq hinsert hstep
    obtain ⟨hp', hrows, htimelines, hloads, hframes, hone, -, hbus⟩ :=
      hp.stampPersist hop hinsert hstep
    refine ⟨reg, active, ?_, ?_, hp'⟩
    · have hevents : ∀ object ∈ t.events, object.onBus = true →
          (itemKey object.event, seqOf object.event) ∈ reg.entries :=
        fun object hobject hon => hn.events object (hbus object hobject hon) hon
      have hsame := hn.setEvents t.pooled t.persists hevents hn.frames
      rw [← hrows, ← htimelines, ← hloads, ← hframes] at hsame
      exact hsame
    · exact hx.of_same htimelines (fun key hkey => hrows ▸ hkey) hloads (Nat.le_of_eq hone)
        (fun _ => hall)
  unfold advancePersist at hstep
  cases hphase' : op.phase with
  | lookup =>
      rw [hphase'] at hstep
      simp only at hstep
      split at hstep
      · rename_i existing hfound
        refine hstamp existing.seq (fun _ => .inl ?_) hstep
        have hexisting := List.find?_some hfound
        rw [decide_eq_true_eq] at hexisting
        exact List.mem_map.mpr ⟨existing, List.mem_of_find?_eq_some hfound,
          by rw [TimelineRow.entry, TimelineRow.entry, hexisting]⟩
      · rename_i hmissing
        obtain rfl := Option.some.inj hstep
        refine ⟨reg, active, hn.setEvents _ _ hn.events hn.frames, ?_, ?_⟩
        · exact hx.of_same rfl (fun key hkey => hkey) rfl (by simp [hop]) (fun _ => hall)
        · constructor
          · intro hempty
            simp [hop] at hempty
          · intro op' hop'
            simp only [hop, List.set_cons_zero, List.mem_singleton] at hop'
            subst hop'
            refine ⟨before, event, hsplit, hlast, hkey, hper, hbefore, ?_⟩
            intro row hrow
            simpa using List.find?_eq_none.mp hmissing row hrow
  | allocate =>
      rw [hphase'] at hstep
      unfold PhaseFits at hphase
      rw [hphase'] at hphase
      refine hstamp _ (fun _ => .inr ⟨hphase, ?_⟩) hstep
      exact fun row hrow => Int.lt_add_one_of_le (le_maxSeq hrow)
  | insert row =>
      rw [hphase'] at hstep
      unfold PhaseFits at hphase
      rw [hphase'] at hphase
      obtain ⟨hrowKey, hpayload, hinsert⟩ := hphase
      simp only [hop, List.eraseIdx_zero, List.tail_cons] at hstep
      obtain rfl := Option.some.inj hstep
      obtain ⟨reg', hn'⟩ := hn.insert hall hx.loads (hrowKey ▸ ⟨event, hkey⟩) hinsert []
      refine ⟨reg', active, hn', ?_, ?_⟩
      · refine hx.of_same rfl ?_ rfl (Nat.zero_le _) (fun hne => absurd rfl hne)
        intro key hin
        rw [keys_of_entries] at hin ⊢
        rw [entries_upsertRow]
        obtain ⟨p, hp, rfl⟩ := List.mem_map.mp hin
        split
        · exact List.mem_map_of_mem hp
        · exact List.mem_map_of_mem (List.mem_append_left _ hp)
      · constructor
        · intro _ key
          have hnone := waitingRows_eq_nil hn hall
          have hlatest := hbefore key
          have hitem : itemKey event = op.itemKey := by
            unfold itemKey
            rw [hkey]
            rfl
          have hwaiting : waitingRows { s with rows := upsertRow s.rows row, persists := [] } = [] :=
            hnone
          unfold latest at hlatest ⊢
          rw [hnone, List.append_nil] at hlatest
          rw [hwaiting, List.append_nil, lastOf_upsertRow, lastOf_append, lastOf_singleton,
            Option.map_or, hlatest, hsplit, lastPublished_append, hitem, ← hrowKey]
          by_cases hsame : row.itemKey = key
          · simp [hsame, hper, hpayload]
          · simp [hsame]
        · intro op' hop'
          cases hop'

/-- **Every step of one party keeps the invariant.** -/
theorem TimelineInv.step {s t : TimelineState Args} {a : TimelineAction Args} (h : TimelineInv s)
    (hok : OneParty s a) (hstep : timelineStep s a = some t) : TimelineInv t := by
  cases a with
  | create =>
      simp only [timelineStep] at hstep
      split at hstep
      · cases hstep
      · obtain rfl := Option.some.inj hstep
        obtain ⟨reg, active, hn, hx, hp⟩ := h
        exact ⟨reg, active, hn.create hx.loads _, hx.create _, hp.create _⟩
  | evict =>
      simp only [timelineStep] at hstep
      split at hstep
      · cases hstep
      · obtain rfl := Option.some.inj hstep
        obtain ⟨reg, active, hn, hx, hp⟩ := h
        exact ⟨reg, active, hn.setEvents _ _ hn.events hn.frames,
          hx.of_same rfl (fun key hkey => hkey) rfl hx.oneOp hx.persists,
          hp.of_same rfl (fun key => rfl) rfl rfl⟩
  | readHead o =>
      simp only [timelineStep] at hstep
      split at hstep
      · cases hstep
      rename_i x ho
      split at hstep
      · cases hstep
      rename_i hunloaded
      obtain rfl := Option.some.inj hstep
      obtain ⟨hnone, hothers⟩ := hok
      obtain ⟨reg, active, hn, hx, hp⟩ := h
      have hloaded : x.loaded = false := by simpa using hunloaded
      refine ⟨reg, o, hn.readHead ho hloaded hothers, ?_, hp.of_same rfl (fun key => rfl) rfl rfl⟩
      refine ⟨?_, ?_, fun hne => absurd hnone hne, hx.oneOp⟩
      · intro other hlt hne
        refine (hothers other hlt hne).of_same rfl (fun key hkey => hkey) ?_
        intro load hload
        rcases List.mem_append.mp hload with hold | hnew
        · exact .inl hold
        · obtain rfl := List.mem_singleton.mp hnew
          exact .inr (fun heq => hne heq.symm)
      · intro load hload
        rcases List.mem_append.mp hload with hold | hnew
        · exact hx.loads load hold
        · obtain rfl := List.mem_singleton.mp hnew
          exact (List.getElem?_eq_some_iff.mp ho).1
  | finishLoad i =>
      simp only [timelineStep] at hstep
      split at hstep
      · cases hstep
      rename_i load hi
      split at hstep
      · cases hstep
      rename_i x ho
      obtain rfl := Option.some.inj hstep
      obtain ⟨reg, active, hn, hx, hp⟩ := h
      refine ⟨reg, active, hn.finishLoad hi ho, ?_, hp.finishLoad ho⟩
      refine hx.setTimeline rfl (fun key hkey => hkey)
        (fun other hother => List.mem_of_mem_eraseIdx hother) rfl ?_
      exact fun hsettled => absurd rfl (hsettled.2 load (List.mem_of_getElem? hi))
  | publish o event =>
      simp only [timelineStep] at hstep
      split at hstep
      · cases hstep
      rename_i x ho
      obtain rfl := Option.some.inj hstep
      exact h.publish ho hok
  | publishTask createdAt task => exact h.publishTask hok hstep
  | persist i =>
      simp only [timelineStep] at hstep
      split at hstep
      · cases hstep
      rename_i op hi
      exact h.persist hi hstep
  | writer o move =>
      simp only [timelineStep] at hstep
      split at hstep
      · cases hstep
      rename_i x ho
      split at hstep
      · cases hstep
      rename_i rows' x' hmove
      obtain rfl := Option.some.inj hstep
      obtain ⟨reg, active, hn, hx, hp⟩ := h
      have hfails : move ≠ .failBatch := by
        rintro rfl
        exact hok
      obtain ⟨hitemSeq, hloaded, hrows⟩ := writerMove_frame hn ho hmove
      refine ⟨reg, active, hn.writerMove ho hmove hfails, ?_, hp.writerMove hn hx ho hmove hfails⟩
      refine hx.setTimeline rfl hrows (fun load hload => hload) rfl ?_
      intro hsettled
      refine ⟨?_, hsettled.2⟩
      intro y hy
      have hlt := (List.getElem?_eq_some_iff.mp ho).1
      rw [List.getElem?_set_self hlt] at hy
      obtain rfl := Option.some.inj hy
      obtain ⟨hwas, hstored⟩ := hsettled.1 x ho
      exact ⟨hloaded hwas, fun entry hentry => hrows _ (hstored entry (hitemSeq ▸ hentry))⟩
  | deliver i =>
      simp only [timelineStep] at hstep
      split at hstep
      · cases hstep
      rename_i object hi
      split at hstep
      · rename_i hbus
        obtain rfl := Option.some.inj hstep
        obtain ⟨reg, active, hn, hx, hp⟩ := h
        refine ⟨reg, active, hn.setEvents _ _ hn.events ?_,
          hx.of_same rfl (fun key hkey => hkey) rfl hx.oneOp hx.persists,
          hp.of_same rfl (fun key => rfl) rfl rfl⟩
        intro frame hframe
        rcases List.mem_append.mp hframe with hin | hin
        · exact hn.frames frame hin
        · obtain rfl := List.mem_singleton.mp hin
          exact hn.events object (List.mem_of_getElem? hi) hbus
      · cases hstep

/-- **One numbering is identity.** -/
theorem TimelineInv.identity {s : TimelineState Args} (h : TimelineInv s) : Identity s := by
  obtain ⟨reg, active, hn, -, hp⟩ := h
  refine ⟨?_, ?_, ?_, ?_⟩
  · intro x hx y hy _ _ hkey
    have hx' := hn.frames x hx
    rw [hkey] at hx'
    exact reg.number_unique hx' (hn.frames y hy)
  · intro x hx row hrow _ hkey
    have hrow' := hn.rows row hrow
    unfold TimelineRow.entry at hrow'
    rw [hkey] at hrow'
    exact reg.number_unique hrow' (hn.frames x hx)
  · intro row hrow other hother hne hseq
    have hrow' := hn.rows row hrow
    unfold TimelineRow.entry at hrow'
    rw [hseq] at hrow'
    exact hne (reg.name_unique hrow' (hn.rows other hother))
  · rintro ⟨hnone, hwritten⟩ row hrow
    have hwaiting : waitingRows s = [] := by
      rw [waitingRows, List.flatten_eq_nil_iff]
      intro part hpart
      obtain ⟨t, ht, rfl⟩ := List.mem_map.mp hpart
      obtain ⟨hwriting, hqueue⟩ := hwritten t ht
      rw [SessionTimeline.waiting, hwriting, hqueue]
      rfl
    have hlatest := hp.stored hnone row.itemKey
    unfold latest at hlatest
    rw [hwaiting, List.append_nil] at hlatest
    rw [← hlatest]
    cases hlast : lastOf (fun r : TimelineRow Args => decide (r.itemKey = row.itemKey)) s.rows with
    | none =>
        have hnot := lastOf_eq_none.mp hlast row hrow
        simp at hnot
    | some last =>
        obtain ⟨hmem, hkey⟩ := of_lastOf hlast
        rw [decide_eq_true_eq] at hkey
        rw [List.inj_on_of_nodup_map hn.unique hmem hrow hkey]
        rfl

/-- **Timeline identity.**  In every run of one party at a time, every item has
one `seq` in all frames and in the table, no two rows share one, and what is
written is the last that was published. -/
theorem timeline_identity {s : TimelineState Args} {acts : List (TimelineAction Args)}
    (hok : StepsMeet (timelineMachine Args) (fun s a _ => OneParty s a) {} acts)
    (hrun : exec (timelineMachine Args) {} acts = some s) : Identity s := by
  have keep : ∀ (s : TimelineState Args) (a : TimelineAction Args) (t : TimelineState Args),
      TimelineInv s → OneParty s a → (timelineMachine Args).step s a = some t → TimelineInv t :=
    fun _ _ _ hi hc hstep => hi.step hc hstep
  have hinv : TimelineInv s := exec_invariant keep TimelineInv.start hok hrun
  exact hinv.identity

/-! ### Two runs -/

/-- A message of the user, and the state of a subagent run. -/
def userMessage : AgentEvent Unit :=
  .content { seq := 0, body := .userMessage [.text "go"] "" "lead" } ""

def subagentRun (status : String) : SubagentTask := { runId := "r", agentCode := "scan", status }

/-- A run that is started in one object of the session, and whose end is stored
straight after the object is gone; then the session is pooled again. -/
def poolingAnew : List (TimelineAction Unit) :=
  [.create, .readHead 0, .finishLoad 0, .publish 0 userMessage,
    .publishTask "" (subagentRun "running"), .deliver 1, .writer 0 (.takeBatch 2),
    .writer 0 .commitBatch, .evict, .writer 0 .beginClose, .writer 0 .endClose,
    .publishTask "" (subagentRun "completed"), .persist 0, .persist 0, .create, .readHead 1,
    .finishLoad 0, .publish 1 userMessage, .deliver 3, .writer 1 (.takeBatch 1),
    .writer 1 .commitBatch]

theorem timeline_identity_pooling_anew :
    ∃ s, exec (timelineMachine Unit) {} poolingAnew = some s ∧ s.rows.length = 3 ∧
      s.frames.length = 2 ∧ Identity s := by
  have hok : StepsMeet (timelineMachine Unit) (fun s a _ => OneParty s a) {} poolingAnew := by
    decide
  exact ⟨(exec (timelineMachine Unit) {} poolingAnew).get (by decide), by simp, by decide,
    by decide, timeline_identity hok (by simp)⟩

/-- The session is pooled anew, for a subscriber only, and the end of the run
goes over the bus of a timeline that is not loaded. -/
def publishedUnloaded : List (TimelineAction Unit) :=
  [.create, .readHead 0, .finishLoad 0, .publish 0 userMessage,
    .publishTask "" (subagentRun "running"), .deliver 1, .writer 0 (.takeBatch 2),
    .writer 0 .commitBatch, .evict, .writer 0 .beginClose, .writer 0 .endClose, .create,
    .publishTask "" (subagentRun "completed"), .deliver 2, .persist 0, .persist 0]

/-- The object is gone, its message not yet written, when the run is stored
straight. -/
def storedBeforeWritten : List (TimelineAction Unit) :=
  [.create, .readHead 0, .finishLoad 0, .publish 0 userMessage, .evict, .writer 0 .beginClose,
    .publishTask "" (subagentRun "running"), .persist 0, .persist 0, .persist 0,
    .writer 0 (.takeBatch 1), .writer 0 .commitBatch, .writer 0 .endClose]

/-- **Two numberings.**  A counter that was never loaded numbers an item anew,
and the table does not know the numbers that wait to be written. -/
theorem two_numberings :
    (∃ s, exec (timelineMachine Unit) {} publishedUnloaded = some s ∧
      (∃ x ∈ s.frames, ∃ row ∈ s.rows, carriesSeq x = true ∧ row.itemKey = itemKey x ∧
        row.seq ≠ seqOf x) ∧ ¬ Identity s) ∧
    ∃ s, exec (timelineMachine Unit) {} storedBeforeWritten = some s ∧
      (∃ row ∈ s.rows, ∃ other ∈ s.rows, row.itemKey ≠ other.itemKey ∧ row.seq = other.seq) ∧
        ¬ Identity s := by
  constructor
  · have hframes : ∃ x ∈ ((exec (timelineMachine Unit) {} publishedUnloaded).get (by decide)).frames,
        ∃ row ∈ ((exec (timelineMachine Unit) {} publishedUnloaded).get (by decide)).rows,
          carriesSeq x = true ∧ row.itemKey = itemKey x ∧ row.seq ≠ seqOf x := by decide
    refine ⟨_, Option.some_get (by decide) |>.symm, hframes, ?_⟩
    intro hidentity
    obtain ⟨x, hx, row, hrow, hcarries, hkey, hne⟩ := hframes
    exact hne (hidentity.stored x hx row hrow hcarries hkey)
  · have hrows : ∃ row ∈ ((exec (timelineMachine Unit) {} storedBeforeWritten).get (by decide)).rows,
        ∃ other ∈ ((exec (timelineMachine Unit) {} storedBeforeWritten).get (by decide)).rows,
          row.itemKey ≠ other.itemKey ∧ row.seq = other.seq := by decide
    refine ⟨_, Option.some_get (by decide) |>.symm, hrows, ?_⟩
    intro hidentity
    obtain ⟨row, hrow, other, hother, hne, hsame⟩ := hrows
    exact hidentity.distinct row hrow other hother hne hsame

end Workbench.TimelineLog
