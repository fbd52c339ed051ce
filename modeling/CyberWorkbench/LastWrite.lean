/-!
# The last write wins

A sequence of writes, of which only the last with a given property counts, cut
into blocks.  Which write counts is decided by the last block that has one
(`lastOf_flatten_eq_some`), and a keyed map that is written to in sequence
holds under each key the last write with that key (`lookup_writes`).
-/

namespace LastWrite

universe u v w

variable {α : Type u} {κ : Type v} {β : Type w}

/-! ### Blocks -/

/-- The last element with a property. -/
def lastOf (p : α → Bool) (l : List α) : Option α := (l.filter p).getLast?

@[simp] theorem lastOf_nil (p : α → Bool) : lastOf p [] = none := rfl

theorem lastOf_append (p : α → Bool) (l l' : List α) :
    lastOf p (l ++ l') = (lastOf p l').or (lastOf p l) := by
  simp [lastOf, List.filter_append, List.getLast?_append]

theorem lastOf_singleton (p : α → Bool) (a : α) :
    lastOf p [a] = if p a then some a else none := by
  cases h : p a <;> simp [lastOf, h]

theorem lastOf_eq_none {p : α → Bool} {l : List α} :
    lastOf p l = none ↔ ∀ a ∈ l, p a = false := by
  simp [lastOf]

/-- The last element has the property, and is in the list. -/
theorem of_lastOf {p : α → Bool} {l : List α} {a : α} (h : lastOf p l = some a) :
    a ∈ l ∧ p a = true :=
  List.mem_filter.mp (List.mem_of_getLast? h)

/-- The last block with such an element ends with `a`. -/
def LastBlock (p : α → Bool) (blocks : List (List α)) (a : α) : Prop :=
  ∃ before block after, blocks = before ++ block :: after ∧ lastOf p block = some a ∧
    ∀ b ∈ after, lastOf p b = none

/-- **The last block decides.**  The last write of all is the last of the last
block that has one. -/
theorem lastOf_flatten_eq_some {p : α → Bool} {blocks : List (List α)} {a : α} :
    lastOf p blocks.flatten = some a ↔ LastBlock p blocks a := by
  constructor
  · intro h
    induction blocks with
    | nil => cases h
    | cons first rest ih =>
        rw [List.flatten_cons, lastOf_append] at h
        rcases Option.or_eq_some_iff.mp h with hrest | ⟨hnone, hfirst⟩
        · obtain ⟨before, block, after, rfl, hblock, hafter⟩ := ih hrest
          exact ⟨first :: before, block, after, rfl, hblock, hafter⟩
        · refine ⟨[], first, rest, rfl, hfirst, ?_⟩
          intro b hb
          rw [lastOf_eq_none] at hnone ⊢
          exact fun a ha => hnone a (List.mem_flatten.mpr ⟨b, hb, ha⟩)
  · rintro ⟨before, block, after, rfl, hblock, hafter⟩
    have hnone : lastOf p after.flatten = none := by
      rw [lastOf_eq_none]
      intro a ha
      obtain ⟨b, hb, hab⟩ := List.mem_flatten.mp ha
      exact lastOf_eq_none.mp (hafter b hb) a hab
    rw [List.flatten_append, List.flatten_cons, lastOf_append, lastOf_append, hnone, hblock]
    rfl

/-- Blocks that all end with `a`, if they have such an element at all. -/
theorem lastOf_flatten_agree {p : α → Bool} {blocks : List (List α)} {a : α}
    (h : ∀ b ∈ blocks, lastOf p b = none ∨ lastOf p b = some a) :
    lastOf p blocks.flatten = none ∨ lastOf p blocks.flatten = some a := by
  induction blocks with
  | nil => exact .inl rfl
  | cons first rest ih =>
      rw [List.flatten_cons, lastOf_append]
      rcases ih (fun b hb => h b (List.mem_cons_of_mem _ hb)) with hrest | hrest
      · rw [hrest, Option.none_or]
        exact h first List.mem_cons_self
      · rw [hrest]
        exact .inr rfl

/-- A block that ends with `a`, and after it only blocks that do so too or have
no such element. -/
theorem lastBlock_of_agree {p : α → Bool} {before after : List (List α)} {block : List α} {a : α}
    (hblock : lastOf p block = some a)
    (hafter : ∀ b ∈ after, lastOf p b = none ∨ lastOf p b = some a) :
    LastBlock p (before ++ block :: after) a := by
  rw [← lastOf_flatten_eq_some, List.flatten_append, List.flatten_cons, lastOf_append,
    lastOf_append, hblock]
  rcases lastOf_flatten_agree hafter with hnone | hsome
  · rw [hnone]
    rfl
  · rw [hsome]
    rfl

/-! ### Maps -/

variable [DecidableEq κ]

/-- Read a key of a map kept as a list in insertion order. -/
def lookup (m : List (κ × β)) (key : κ) : Option β :=
  (m.find? (fun entry => decide (entry.1 = key))).map Prod.snd

/-- Write a key: in its place if it is there, at the end if it is not. -/
def write (key : κ) (value : β) : List (κ × β) → List (κ × β)
  | [] => [(key, value)]
  | entry :: rest =>
      if entry.1 = key then (key, value) :: rest else entry :: write key value rest

/-- A write is read back under its key, and nowhere else. -/
theorem lookup_write (m : List (κ × β)) (key other : κ) (value : β) :
    lookup (write key value m) other = if key = other then some value else lookup m other := by
  induction m with
  | nil => by_cases h : key = other <;> simp [lookup, write, h]
  | cons entry rest ih =>
      unfold write
      split
      · rename_i hkey
        by_cases h : key = other
        · simp [lookup, h]
        · simp [lookup, h, hkey]
      · rename_i hkey
        simp only [lookup, List.find?_cons] at ih ⊢
        by_cases h : entry.1 = other
        · have hne : key ≠ other := fun hk => hkey (h.trans hk.symm)
          simp [h, hne]
        · simpa [h] using ih

/-- The keys of a map: a write adds its own, at most. -/
theorem keys_write (m : List (κ × β)) (key : κ) (value : β) :
    (write key value m).map Prod.fst =
      if key ∈ m.map Prod.fst then m.map Prod.fst else m.map Prod.fst ++ [key] := by
  induction m with
  | nil => simp [write]
  | cons entry rest ih =>
      unfold write
      split
      · rename_i hkey
        simp [hkey]
      · rename_i hkey
        rw [List.map_cons, ih]
        by_cases hmem : key ∈ rest.map Prod.fst
        · rw [if_pos hmem, if_pos (by simpa using .inr (by simpa using hmem))]
          rfl
        · rw [if_neg hmem, if_neg (by simpa [Ne.symm hkey] using hmem)]
          rfl

/-- What a map holds after a write is what was written, or was there. -/
theorem mem_write {m : List (κ × β)} {key : κ} {value : β} {entry : κ × β}
    (h : entry ∈ write key value m) : entry = (key, value) ∨ entry ∈ m := by
  induction m with
  | nil => exact .inl (List.mem_singleton.mp h)
  | cons first rest ih =>
      unfold write at h
      split at h
      · rcases List.mem_cons.mp h with rfl | hmem
        · exact .inl rfl
        · exact .inr (List.mem_cons_of_mem _ hmem)
      · rcases List.mem_cons.mp h with rfl | hmem
        · exact .inr List.mem_cons_self
        · exact (ih hmem).imp id (List.mem_cons_of_mem _)

theorem mem_of_lookup {m : List (κ × β)} {key : κ} {value : β} (h : lookup m key = some value) :
    (key, value) ∈ m := by
  obtain ⟨entry, hfind, rfl⟩ := Option.map_eq_some_iff.mp h
  have hkey := List.find?_some hfind
  have hmem := List.mem_of_find?_eq_some hfind
  rw [decide_eq_true_eq] at hkey
  rw [← hkey]
  exact hmem

/-- No key twice, however often it is written. -/
theorem nodup_keys_write {m : List (κ × β)} (h : (m.map Prod.fst).Nodup) (key : κ) (value : β) :
    ((write key value m).map Prod.fst).Nodup := by
  rw [keys_write]
  split
  · exact h
  · rename_i hmem
    rw [List.nodup_append]
    refine ⟨h, by simp, ?_⟩
    intro a ha b hb hab
    obtain rfl := List.mem_singleton.mp hb
    exact hmem (hab ▸ ha)

/-- The keys of a map are those something is read under. -/
theorem mem_keys_iff {m : List (κ × β)} {key : κ} :
    key ∈ m.map Prod.fst ↔ ∃ value, lookup m key = some value := by
  constructor
  · intro h
    obtain ⟨entry, hentry, hkey⟩ := List.mem_map.mp h
    have hsome : (m.find? (fun entry => decide (entry.1 = key))).isSome = true :=
      List.find?_isSome.mpr ⟨entry, hentry, decide_eq_true hkey⟩
    obtain ⟨found, hfound⟩ := Option.isSome_iff_exists.mp hsome
    exact ⟨found.2, by simp [lookup, hfound]⟩
  · rintro ⟨value, hvalue⟩
    exact List.mem_map_of_mem (mem_of_lookup hvalue)

/-- A map is its keys, in order, and what is read under them. -/
theorem eq_of_keys_of_lookup {m m' : List (κ × β)} (hnd : (m.map Prod.fst).Nodup)
    (hkeys : m.map Prod.fst = m'.map Prod.fst)
    (hlookup : ∀ key ∈ m.map Prod.fst, lookup m key = lookup m' key) : m = m' := by
  induction m generalizing m' with
  | nil => exact (List.map_eq_nil_iff.mp hkeys.symm).symm
  | cons entry rest ih =>
      cases m' with
      | nil => cases hkeys
      | cons entry' rest' =>
          obtain ⟨key, value⟩ := entry
          obtain ⟨key', value'⟩ := entry'
          obtain ⟨hkey, hrest⟩ := List.cons.inj hkeys
          obtain ⟨hnew, hnd'⟩ := List.nodup_cons.mp hnd
          simp only at hkey hnew
          subst hkey
          have hvalue := hlookup key List.mem_cons_self
          simp only [lookup, List.find?_cons, decide_true, Option.map_some,
            Option.some.injEq] at hvalue
          subst hvalue
          have hsame : rest = rest' := by
            refine ih hnd' hrest (fun other hother => ?_)
            have hne : key ≠ other := fun h => hnew (h ▸ hother)
            simpa [lookup, List.find?_cons, hne] using
              hlookup other (List.mem_cons_of_mem _ hother)
          rw [hsame]

/-! ### Writing in sequence -/

/-- Write every element under its key, one after the other. -/
def writes (keyOf : α → κ) (l : List α) : List (κ × α) :=
  l.foldl (fun m a => write (keyOf a) a m) []

/-- What is filed under its own key. -/
def Filed (keyOf : α → κ) (m : List (κ × α)) : Prop :=
  (m.map Prod.fst).Nodup ∧ ∀ entry ∈ m, keyOf entry.2 = entry.1

theorem filed_writes (keyOf : α → κ) (l : List α) : Filed keyOf (writes keyOf l) := by
  suffices hfrom : ∀ (l : List α) (m : List (κ × α)), Filed keyOf m →
      Filed keyOf (l.foldl (fun m a => write (keyOf a) a m) m) by
    exact hfrom l [] ⟨List.nodup_nil, fun entry h => absurd h List.not_mem_nil⟩
  intro l
  induction l with
  | nil => exact fun m h => h
  | cons a rest ih =>
      intro m hm
      refine ih _ ⟨nodup_keys_write hm.1 _ _, ?_⟩
      intro entry hmem
      rcases mem_write hmem with rfl | hold
      · rfl
      · exact hm.2 entry hold

/-- Only what was written is filed. -/
theorem mem_writes {keyOf : α → κ} {l : List α} {entry : κ × α} (h : entry ∈ writes keyOf l) :
    entry.2 ∈ l := by
  suffices hfrom : ∀ (l : List α) (m : List (κ × α)),
      entry ∈ l.foldl (fun m a => write (keyOf a) a m) m → entry.2 ∈ l ∨ entry ∈ m by
    rcases hfrom l [] h with hmem | hmem
    · exact hmem
    · cases hmem
  intro l
  induction l with
  | nil => exact fun m hmem => .inr hmem
  | cons a rest ih =>
      intro m hmem
      rcases ih _ hmem with hrest | hwritten
      · exact .inl (List.mem_cons_of_mem _ hrest)
      · rcases mem_write hwritten with rfl | hold
        · exact .inl List.mem_cons_self
        · exact .inr hold

/-- Under each key is the last element written with it. -/
theorem lookup_writes (keyOf : α → κ) (l : List α) (key : κ) :
    lookup (writes keyOf l) key = lastOf (fun a => decide (keyOf a = key)) l := by
  suffices hfrom : ∀ (l : List α) (m : List (κ × α)),
      lookup (l.foldl (fun m a => write (keyOf a) a m) m) key =
        (lastOf (fun a => decide (keyOf a = key)) l).or (lookup m key) from
    (hfrom l []).trans Option.or_none
  intro l
  induction l with
  | nil => exact fun m => rfl
  | cons a rest ih =>
      intro m
      have happend := lastOf_append (fun a => decide (keyOf a = key)) [a] rest
      rw [List.singleton_append] at happend
      rw [List.foldl_cons, ih, happend, lookup_write, lastOf_singleton, Option.or_assoc]
      by_cases h : keyOf a = key <;> simp [h]

/-- Of what is filed, the last with a key is the one filed under it. -/
theorem lastOf_filed {keyOf : α → κ} {m : List (κ × α)} (h : Filed keyOf m) (key : κ) :
    lastOf (fun a => decide (keyOf a = key)) (m.map Prod.snd) = lookup m key := by
  obtain ⟨hnodup, hfiled⟩ := h
  induction m with
  | nil => rfl
  | cons entry rest ih =>
      obtain ⟨hfirst, hrest⟩ := List.nodup_cons.mp hnodup
      have hih := ih hrest (fun e he => hfiled e (List.mem_cons_of_mem _ he))
      have hentry := hfiled entry List.mem_cons_self
      have happend := lastOf_append (fun a => decide (keyOf a = key)) [entry.2]
        (rest.map Prod.snd)
      rw [List.singleton_append] at happend
      rw [List.map_cons, happend, hih, lastOf_singleton]
      by_cases hkey : entry.1 = key
      · have hnone : lookup rest key = none := by
          simp only [lookup, Option.map_eq_none_iff, List.find?_eq_none]
          intro e he
          rw [decide_eq_true_eq, ← hkey]
          exact fun heq => hfirst (heq ▸ List.mem_map_of_mem he)
        rw [hnone]
        simp [hentry, hkey, lookup]
      · simp [hentry, hkey, lookup]

/-! ### Places -/

/-- A key that is new is written at the end. -/
theorem write_of_not_mem {m : List (κ × β)} {key : κ} (h : key ∉ m.map Prod.fst) (value : β) :
    write key value m = m ++ [(key, value)] := by
  induction m with
  | nil => rfl
  | cons entry rest ih =>
      rw [List.map_cons, List.mem_cons, not_or] at h
      unfold write
      rw [if_neg (Ne.symm h.1), ih h.2]
      rfl

/-- A key that is there is written in its place. -/
theorem write_of_getElem? {m : List (κ × β)} (hnodup : (m.map Prod.fst).Nodup) {index : Nat}
    {key : κ} {old : β} (h : m[index]? = some (key, old)) (value : β) :
    write key value m = m.set index (key, value) := by
  induction m generalizing index with
  | nil => cases h
  | cons entry rest ih =>
      obtain ⟨hfirst, hrest⟩ := List.nodup_cons.mp hnodup
      unfold write
      cases index with
      | zero =>
          obtain rfl := Option.some.inj h
          rw [if_pos rfl]
          rfl
      | succ index =>
          have hmem : key ∈ rest.map Prod.fst :=
            List.mem_map.mpr ⟨(key, old), List.mem_of_getElem? h, rfl⟩
          have hne : entry.1 ≠ key := fun heq => hfirst (heq ▸ hmem)
          rw [if_neg hne, ih hrest h]
          rfl

/-- What is in a map is read under its key. -/
theorem lookup_of_mem {m : List (κ × β)} (hnodup : (m.map Prod.fst).Nodup) {entry : κ × β}
    (h : entry ∈ m) : lookup m entry.1 = some entry.2 := by
  induction m with
  | nil => cases h
  | cons first rest ih =>
      obtain ⟨hfirst, hrest⟩ := List.nodup_cons.mp hnodup
      rcases List.mem_cons.mp h with rfl | h
      · simp [lookup]
      · have hmem : entry.1 ∈ rest.map Prod.fst := List.mem_map_of_mem h
        have hne : first.1 ≠ entry.1 := fun heq => hfirst (heq ▸ hmem)
        have hskip := ih hrest h
        simpa [lookup, hne] using hskip

/-- Beside what was written, only other keys are left. -/
theorem mem_write_of_nodup {m : List (κ × β)} (hnodup : (m.map Prod.fst).Nodup) {key : κ}
    {value : β} {entry : κ × β} (h : entry ∈ write key value m) :
    entry = (key, value) ∨ (entry ∈ m ∧ entry.1 ≠ key) := by
  by_cases hkey : entry.1 = key
  · have hread := lookup_of_mem (nodup_keys_write hnodup key value) h
    rw [lookup_write, if_pos hkey.symm] at hread
    exact .inl (Prod.ext hkey (Option.some.inj hread).symm)
  · rcases mem_write h with rfl | hold
    · exact absurd rfl hkey
    · exact .inr ⟨hold, hkey⟩

/-- The values of a map are what is read under its keys. -/
theorem values_eq_filterMap {m : List (κ × β)} (hnodup : (m.map Prod.fst).Nodup) :
    m.map Prod.snd = (m.map Prod.fst).filterMap (fun key => lookup m key) := by
  suffices hfrom : ∀ l : List (κ × β), (∀ entry ∈ l, lookup m entry.1 = some entry.2) →
      l.map Prod.snd = (l.map Prod.fst).filterMap (fun key => lookup m key) from
    hfrom m fun entry hmem => lookup_of_mem hnodup hmem
  intro l
  induction l with
  | nil => exact fun _ => rfl
  | cons entry rest ih =>
      intro hl
      rw [List.map_cons, List.map_cons, List.filterMap_cons_some (hl entry List.mem_cons_self),
        ih fun other hmem => hl other (List.mem_cons_of_mem _ hmem)]

theorem writes_concat (keyOf : α → κ) (l : List α) (a : α) :
    writes keyOf (l ++ [a]) = write (keyOf a) a (writes keyOf l) := by
  unfold writes
  rw [List.foldl_append]
  rfl

/-- The keys stand in the order in which they were written first. -/
theorem keys_writes (keyOf : α → κ) (l : List α) :
    (writes keyOf l).map Prod.fst = (l.map keyOf).eraseDups := by
  suffices hfrom : ∀ n (l : List α), l.length = n →
      (writes keyOf l).map Prod.fst = (l.map keyOf).eraseDups from hfrom l.length l rfl
  intro n
  induction n with
  | zero =>
      intro l hl
      obtain rfl := List.length_eq_zero_iff.mp hl
      rfl
  | succ n ih =>
      intro l hl
      obtain ⟨front, a, rfl⟩ : ∃ front a, l = front ++ [a] := by
        have hne : l ≠ [] := fun heq => by rw [heq] at hl; cases hl
        exact ⟨_, _, (List.dropLast_concat_getLast hne).symm⟩
      have hfront : front.length = n := by simpa using hl
      rw [writes_concat, keys_write, ih _ hfront, List.map_append, List.eraseDups_append]
      simp only [List.mem_eraseDups, List.map_cons, List.map_nil]
      split
      · rename_i hmem
        have hnone : [keyOf a].removeAll (front.map keyOf) = [] := by
          unfold List.removeAll
          rw [List.filter_cons_of_neg (by rw [List.elem_eq_mem]; simpa using hmem)]
          rfl
        rw [hnone, List.eraseDups_nil, List.append_nil]
      · rename_i hnew
        have hall : [keyOf a].removeAll (front.map keyOf) = [keyOf a] := by
          unfold List.removeAll
          rw [List.filter_cons_of_pos (by rw [List.elem_eq_mem]; simpa using hnew)]
          rfl
        rw [hall]
        rfl

end LastWrite
