/-!
# Keyed tables

A table is a list of rows together with the proof that no two rows share the
primary key, so a table with a duplicated key cannot be built.  The three
operations are those of a relational store:

* `insert` — append a row; `none` when the key is taken (an integrity error);
* `updateWhere` — change every row that passes a test, never its key;
* `get?` / `select` — read by key, read by test.

A row is *in* the table exactly when reading its key returns it
(`mem_rows_iff_get?`), and an update acts on reads as the change acts on the
row (`get?_updateWhere`).  Everything later is stated through these two facts
and never opens the list.
-/

namespace KeyedTable

universe u v

/-- Rows with pairwise distinct keys. -/
structure Table (ρ : Type u) {κ : Type v} (key : ρ → κ) where
  rows : List ρ
  keysDistinct : (rows.map key).Nodup

variable {ρ : Type u} {κ : Type v} {key : ρ → κ}

/-- What a query returned: rows that passed its test, no key twice.  The rows
are copies; the table may change afterwards. -/
structure Selection (key : ρ → κ) (p : ρ → Bool) where
  rows : List ρ
  passes : ∀ r ∈ rows, p r = true
  keysDistinct : (rows.map key).Nodup

/-- A unit of work writes back only the fields whose value it changed since
the row was loaded; the others keep what the table holds now. -/
def writtenField {β : Type v} [DecidableEq β] (loaded changed current : β) : β :=
  if changed = loaded then current else changed

/-- When nothing happened since the row was loaded, the changed value lands. -/
@[simp] theorem writtenField_unchanged {β : Type v} [DecidableEq β] (loaded changed : β) :
    writtenField loaded changed loaded = changed := by
  unfold writtenField
  split
  · rename_i h
    exact h.symm
  · rfl

/-- The column keeps its present value exactly when the change is no change
since loading, or writes what is there already. -/
theorem writtenField_eq_current {β : Type v} [DecidableEq β] {loaded changed current : β} :
    writtenField loaded changed current = current ↔ changed = loaded ∨ changed = current := by
  unfold writtenField
  split
  · rename_i h
    simp [h]
  · rename_i h
    simp [h]

namespace Table

/-- The table with no rows. -/
def empty : Table ρ key := ⟨[], List.nodup_nil⟩

/-- The rows passing a test, in table order. -/
def select (t : Table ρ key) (p : ρ → Bool) : Selection key p where
  rows := t.rows.filter p
  passes := fun _ hr => (List.mem_filter.mp hr).2
  keysDistinct := (List.Sublist.map key List.filter_sublist).nodup t.keysDistinct

/-- Change the rows that pass `p`; the change keeps the key. -/
def updateWhere (t : Table ρ key) (p : ρ → Bool) (f : ρ → ρ)
    (hf : ∀ r, key (f r) = key r) : Table ρ key :=
  ⟨t.rows.map (fun r => if p r then f r else r), by
    have hkeys : key ∘ (fun r => if p r then f r else r) = key := by
      funext r
      show key (if p r then f r else r) = key r
      split
      · exact hf r
      · rfl
    rw [List.map_map, hkeys]
    exact t.keysDistinct⟩

theorem mem_updateWhere {t : Table ρ key} {p : ρ → Bool} {f : ρ → ρ}
    {hf : ∀ r, key (f r) = key r} {x : ρ} :
    x ∈ (t.updateWhere p f hf).rows ↔
      ∃ r ∈ t.rows, (if p r then f r else r) = x := by
  simp [updateWhere]

theorem mem_select {t : Table ρ key} {p : ρ → Bool} {r : ρ} :
    r ∈ (t.select p).rows ↔ r ∈ t.rows ∧ p r = true := by
  simp [select]

variable [DecidableEq κ]

/-- The row with primary key `k`. -/
def get? (t : Table ρ key) (k : κ) : Option ρ :=
  t.rows.find? (fun r => decide (key r = k))

/-- Append a row whose key is not taken. -/
def insert (t : Table ρ key) (r : ρ) : Option (Table ρ key) :=
  if h : key r ∈ t.rows.map key then none
  else some ⟨t.rows ++ [r], by
    rw [List.map_append, List.nodup_append]
    refine ⟨t.keysDistinct, by simp, ?_⟩
    intro k hk k' hk' heq
    have hr : k' = key r := by simpa using hk'
    exact h (hr ▸ heq ▸ hk)⟩

@[simp] theorem get?_empty (k : κ) : (empty : Table ρ key).get? k = none := rfl

/-- Reading a key returns a row of the table with that key. -/
theorem get?_eq_some {t : Table ρ key} {k : κ} {r : ρ} (h : t.get? k = some r) :
    r ∈ t.rows ∧ key r = k := by
  have hkey := List.find?_some h
  exact ⟨List.mem_of_find?_eq_some h, by simpa using hkey⟩

private theorem find?_of_mem {rows : List ρ} (hnd : (rows.map key).Nodup) {r : ρ}
    (hr : r ∈ rows) : rows.find? (fun x => decide (key x = key r)) = some r := by
  induction rows with
  | nil => simp at hr
  | cons x rest ih =>
      rw [List.map_cons, List.nodup_cons] at hnd
      by_cases hx : key x = key r
      · have hxr : x = r := by
          rcases List.mem_cons.mp hr with h | h
          · exact h.symm
          · exact absurd (List.mem_map.mpr ⟨r, h, hx.symm⟩) hnd.1
        simp [hxr]
      · have hmem : r ∈ rest := by
          rcases List.mem_cons.mp hr with h | h
          · exact absurd (h ▸ rfl) hx
          · exact h
        rw [List.find?_cons_of_neg (by simpa using hx)]
        exact ih hnd.2 hmem

/-- **Membership is readability.**  Distinct keys make the primary key a
faithful address of its row. -/
theorem mem_rows_iff_get? {t : Table ρ key} {r : ρ} :
    r ∈ t.rows ↔ t.get? (key r) = some r := by
  constructor
  · exact find?_of_mem t.keysDistinct
  · exact fun h => (get?_eq_some h).1

/-- Two rows of a table with the same key are the same row. -/
theorem eq_of_key_eq {t : Table ρ key} {r r' : ρ} (hr : r ∈ t.rows)
    (hr' : r' ∈ t.rows) (hk : key r = key r') : r = r' := by
  have h := mem_rows_iff_get?.mp hr
  have h' := mem_rows_iff_get?.mp hr'
  rw [hk, h'] at h
  exact (Option.some.inj h).symm

/-- **An update acts on reads.** -/
theorem get?_updateWhere (t : Table ρ key) (p : ρ → Bool) (f : ρ → ρ)
    (hf : ∀ r, key (f r) = key r) (k : κ) :
    (t.updateWhere p f hf).get? k =
      (t.get? k).map (fun r => if p r then f r else r) := by
  have hkey : ∀ r, key (if p r then f r else r) = key r := by
    intro r
    split
    · exact hf r
    · rfl
  show (t.rows.map _).find? _ = (t.rows.find? _).map _
  rw [List.find?_map]
  congr 2
  funext r
  simp [hkey r]

/-- Write loaded rows back by primary key, one after the other; `w` makes the
written row from the loaded row and the one the table holds now. -/
def writeBack (t : Table ρ key) (loaded : List ρ) (w : ρ → ρ → ρ)
    (hw : ∀ l r, key (w l r) = key r) : Table ρ key :=
  loaded.foldl (fun t l => t.updateWhere (fun r => decide (key r = key l)) (w l) (hw l)) t

/-- Each loaded row is written under its own key and nowhere else. -/
theorem get?_writeBack (t : Table ρ key) {loaded : List ρ} (w : ρ → ρ → ρ)
    (hw : ∀ l r, key (w l r) = key r) (hnd : (loaded.map key).Nodup) (k : κ) :
    (t.writeBack loaded w hw).get? k =
      (t.get? k).map (fun r =>
        match loaded.find? (fun l => decide (key l = k)) with
        | some l => w l r
        | none => r) := by
  induction loaded generalizing t with
  | nil => simp [writeBack]
  | cons l rest ih =>
      rw [List.map_cons, List.nodup_cons] at hnd
      have hstep : t.writeBack (l :: rest) w hw =
          (t.updateWhere (fun r => decide (key r = key l)) (w l) (hw l)).writeBack rest w hw :=
        rfl
      rw [hstep, ih _ hnd.2, get?_updateWhere, Option.map_map]
      cases hget : t.get? k with
      | none => rfl
      | some r =>
          have hkey : key r = k := (get?_eq_some hget).2
          by_cases hl : key l = k
          · have hrest : rest.find? (fun x => decide (key x = k)) = none := by
              rw [List.find?_eq_none]
              intro x hx hxk
              have hxk' : key x = k := by simpa using hxk
              exact hnd.1 (List.mem_map.mpr ⟨x, hx, hxk'.trans hl.symm⟩)
            simp [hrest, hl, hkey]
          · simp [hl, hkey, Ne.symm hl]

/-- What an insertion leaves behind. -/
theorem insert_eq_some {t t' : Table ρ key} {r : ρ} (h : t.insert r = some t') :
    t.get? (key r) = none ∧ t'.rows = t.rows ++ [r] := by
  unfold insert at h
  split at h
  · simp at h
  · rename_i hfresh
    have ht : _ = t' := Option.some.inj h
    refine ⟨?_, by rw [← ht]⟩
    cases hget : t.get? (key r) with
    | none => rfl
    | some x =>
        have hx := get?_eq_some hget
        exact absurd (List.mem_map.mpr ⟨x, hx.1, hx.2⟩) hfresh

/-- Reading after an insertion: the new row under its key, the old rows
under theirs. -/
theorem get?_insert {t t' : Table ρ key} {r : ρ} (h : t.insert r = some t') (k : κ) :
    t'.get? k = if key r = k then some r else t.get? k := by
  obtain ⟨hnone, hrows⟩ := insert_eq_some h
  unfold get? at hnone ⊢
  rw [hrows, List.find?_append]
  by_cases hk : key r = k
  · subst hk
    simp [hnone]
  · simp [hk]

/-- A row readable before an insertion is readable after it. -/
theorem get?_of_insert {t t' : Table ρ key} {r x : ρ} {k : κ}
    (h : t.insert r = some t') (hx : t.get? k = some x) : t'.get? k = some x := by
  rw [get?_insert h]
  split
  · rename_i hk
    rw [← hk, (insert_eq_some h).1] at hx
    simp at hx
  · exact hx

/-- **Row-by-row change.**  The two tables hold the same keys, and every row
became one that `R` relates it to. -/
def Rowwise (R : ρ → ρ → Prop) (t t' : Table ρ key) : Prop :=
  ∀ k, Option.Rel R (t.get? k) (t'.get? k)

theorem Rowwise.refl {R : ρ → ρ → Prop} (hR : ∀ r, R r r) (t : Table ρ key) :
    t.Rowwise R t := by
  intro k
  cases t.get? k with
  | none => exact .none
  | some r => exact .some (hR r)

theorem Rowwise.trans {R S Q : ρ → ρ → Prop} {t t' t'' : Table ρ key}
    (h : t.Rowwise R t') (h' : t'.Rowwise S t'')
    (hRS : ∀ a b c, R a b → S b c → Q a c) : t.Rowwise Q t'' := by
  intro k
  have hk := h k
  have hk' := h' k
  revert hk hk'
  cases t.get? k <;> cases t'.get? k <;> cases t''.get? k <;> intro hk hk'
  all_goals first
    | exact .none
    | cases hk <;> cases hk' <;> exact .some (hRS _ _ _ ‹_› ‹_›)

theorem Rowwise.mono {R S : ρ → ρ → Prop} {t t' : Table ρ key} (h : t.Rowwise R t')
    (hRS : ∀ k r r', t.get? k = some r → R r r' → S r r') : t.Rowwise S t' := by
  intro k
  have hk := h k
  cases hget : t.get? k with
  | none =>
      rw [hget] at hk
      cases hk' : t'.get? k with
      | none => exact .none
      | some r' =>
          rw [hk'] at hk
          cases hk
  | some r =>
      rw [hget] at hk
      cases hk' : t'.get? k with
      | none =>
          rw [hk'] at hk
          cases hk
      | some r' =>
          rw [hk'] at hk
          cases hk with
          | some hR => exact .some (hRS k r r' hget hR)

/-- What a row became. -/
theorem Rowwise.after {R : ρ → ρ → Prop} {t t' : Table ρ key} (h : t.Rowwise R t')
    {k : κ} {r : ρ} (hr : t.get? k = some r) :
    ∃ r', t'.get? k = some r' ∧ R r r' := by
  have hk := h k
  rw [hr] at hk
  cases hget : t'.get? k with
  | none =>
      rw [hget] at hk
      cases hk
  | some r' =>
      rw [hget] at hk
      cases hk with
      | some hR => exact ⟨r', rfl, hR⟩

/-- Where a row came from. -/
theorem Rowwise.before {R : ρ → ρ → Prop} {t t' : Table ρ key} (h : t.Rowwise R t')
    {k : κ} {r' : ρ} (hr' : t'.get? k = some r') :
    ∃ r, t.get? k = some r ∧ R r r' := by
  have hk := h k
  rw [hr'] at hk
  cases hget : t.get? k with
  | none =>
      rw [hget] at hk
      cases hk
  | some r =>
      rw [hget] at hk
      cases hk with
      | some hR => exact ⟨r, rfl, hR⟩

/-- An update changes rows one by one. -/
theorem rowwise_updateWhere (t : Table ρ key) (p : ρ → Bool) (f : ρ → ρ)
    (hf : ∀ r, key (f r) = key r) :
    t.Rowwise (fun r r' => r' = if p r then f r else r) (t.updateWhere p f hf) := by
  intro k
  rw [get?_updateWhere]
  cases t.get? k with
  | none => exact .none
  | some r => exact .some rfl

/-- A write-back changes rows one by one, each loaded key by its own row. -/
theorem rowwise_writeBack (t : Table ρ key) {loaded : List ρ} (w : ρ → ρ → ρ)
    (hw : ∀ l r, key (w l r) = key r) (hnd : (loaded.map key).Nodup) :
    t.Rowwise (fun r r' =>
        (r' = r ∧ ∀ l ∈ loaded, key l ≠ key r) ∨
          ∃ l ∈ loaded, key l = key r ∧ r' = w l r)
      (t.writeBack loaded w hw) := by
  intro k
  rw [get?_writeBack t w hw hnd]
  cases hget : t.get? k with
  | none => exact .none
  | some r =>
      refine .some ?_
      have hk : key r = k := (get?_eq_some hget).2
      cases hfind : loaded.find? (fun l => decide (key l = k)) with
      | none =>
          refine .inl ⟨rfl, ?_⟩
          intro l hl hlr
          have hno := List.find?_eq_none.mp hfind l hl
          exact hno (by simpa [hk] using hlr)
      | some l =>
          have hl := List.find?_some hfind
          refine .inr ⟨l, List.mem_of_find?_eq_some hfind, ?_, rfl⟩
          simpa [hk] using hl

theorem mem_insert {t t' : Table ρ key} {r x : ρ} (h : t.insert r = some t') :
    x ∈ t'.rows ↔ x ∈ t.rows ∨ x = r := by
  rw [(insert_eq_some h).2]
  simp

/-- **Counting rows.**  Where no row begins to pass a test, no more rows pass
it afterwards. -/
theorem Rowwise.countP_le {R : ρ → ρ → Prop} {t t' : Table ρ key}
    (h : t.Rowwise R t') {p : ρ → Bool} (hp : ∀ r r', R r r' → p r' = true → p r = true) :
    t'.rows.countP p ≤ t.rows.countP p := by
  have hnd : ((t'.rows.filter p).map key).Nodup :=
    (List.Sublist.map key List.filter_sublist).nodup t'.keysDistinct
  have hsub : (t'.rows.filter p).map key ⊆ (t.rows.filter p).map key := by
    intro k hk
    obtain ⟨r', hr', rfl⟩ := List.mem_map.mp hk
    obtain ⟨hmem, hpass⟩ := List.mem_filter.mp hr'
    obtain ⟨r, hr, hR⟩ := h.before (mem_rows_iff_get?.mp hmem)
    obtain ⟨hrmem, hrkey⟩ := get?_eq_some hr
    exact List.mem_map.mpr ⟨r, List.mem_filter.mpr ⟨hrmem, hp r r' hR hpass⟩, hrkey⟩
  have hlen := List.Nodup.length_le_of_subset hnd hsub
  rw [List.length_map, List.length_map] at hlen
  rw [List.countP_eq_length_filter, List.countP_eq_length_filter]
  exact hlen

end Table

end KeyedTable
