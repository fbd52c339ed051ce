import CyberWorkbench.KeyedTable

/-!
# References between tables, and unique columns

Two constraints a store of tables lives under: a column of one table *refers*
to a row of another with the same owner (`Refers`), and no two rows of a table
agree on some columns (`UniqueOn`).  Appending, changing and deleting rows each
have one lemma for either.

Keys are serial numbers here: the database gives a new row the number after
the largest in use.
-/

namespace KeyedTable.Table

universe u v w

variable {ρ : Type u} {ω : Type v} {σ : Type w} {key : ρ → Nat}

/-! ### Serial keys -/

/-- The key a new row gets. -/
def nextKey (t : Table ρ key) : Nat := ((t.rows.map key).max?).getD 0 + 1

theorem le_nextKey {t : Table ρ key} {r : ρ} (h : r ∈ t.rows) : key r < t.nextKey := by
  unfold nextKey
  have hmem : key r ∈ t.rows.map key := List.mem_map_of_mem h
  cases hmax : (t.rows.map key).max? with
  | none =>
      rw [List.max?_eq_none_iff] at hmax
      rw [hmax] at hmem
      cases hmem
  | some m =>
      have hle : key r ≤ m := (List.max?_eq_some_iff.mp hmax).2 _ hmem
      simp only [Option.getD_some]
      omega

/-- Append a row under the next key. -/
def append (t : Table ρ key) (row : Nat → ρ) (hrow : ∀ k, key (row k) = k) : Table ρ key :=
  ⟨t.rows ++ [row t.nextKey], by
    rw [List.map_append, List.nodup_append]
    refine ⟨t.keysDistinct, by simp, ?_⟩
    intro k hk k' hk' heq
    obtain ⟨r, hr, rfl⟩ := List.mem_map.mp hk
    have hnext : k' = t.nextKey := by simpa [hrow] using hk'
    have hlt := le_nextKey hr
    omega⟩

/-- Delete the rows that pass a test. -/
def deleteWhere (t : Table ρ key) (p : ρ → Bool) : Table ρ key :=
  ⟨t.rows.filter (fun r => !p r), (List.Sublist.map key List.filter_sublist).nodup t.keysDistinct⟩

variable {t : Table ρ key} {row : Nat → ρ} {hrow : ∀ k, key (row k) = k} {p : ρ → Bool} {r : ρ}
  {f : ρ → ρ}

theorem mem_append (hrow : ∀ k, key (row k) = k) :
    r ∈ (t.append row hrow).rows ↔ r ∈ t.rows ∨ r = row t.nextKey := by
  simp [append]

theorem mem_deleteWhere : r ∈ (t.deleteWhere p).rows ↔ r ∈ t.rows ∧ p r = false := by
  simp [deleteWhere]

/-- Where a row of a changed table comes from. -/
theorem updated_of_mem (hf : ∀ r, key (f r) = key r) (h : r ∈ (t.updateWhere p f hf).rows) :
    ∃ old ∈ t.rows, r = if p old then f old else old := by
  obtain ⟨old, hold, hr⟩ := mem_updateWhere.mp h
  exact ⟨old, hold, hr.symm⟩

/-- A row readable before an append is readable after it. -/
theorem get?_append {k : Nat} (h : t.get? k = some r) (hrow : ∀ k, key (row k) = k) :
    (t.append row hrow).get? k = some r := by
  obtain ⟨hmem, rfl⟩ := get?_eq_some h
  exact mem_rows_iff_get?.mp ((mem_append hrow).mpr (.inl hmem))

/-- A row that does not pass the test is readable after the deletion. -/
theorem get?_deleteWhere {k : Nat} (h : t.get? k = some r) (hp : p r = false) :
    (t.deleteWhere p).get? k = some r := by
  obtain ⟨hmem, rfl⟩ := get?_eq_some h
  exact mem_rows_iff_get?.mp (mem_deleteWhere.mpr ⟨hmem, hp⟩)

/-! ### References -/

/-- The key is that of a row of this owner. -/
def Refers (t : Table ρ key) (owner : ρ → ω) (k : Nat) (o : ω) : Prop :=
  ∃ r, t.get? k = some r ∧ owner r = o

variable {owner : ρ → ω} {k : Nat} {o : ω}

/-- A key has one row, and that has one owner. -/
theorem Refers.owner_eq (h : t.Refers owner k o) {r : ρ} (hr : t.get? k = some r) :
    owner r = o := by
  obtain ⟨r', hget, howner⟩ := h
  obtain rfl : r' = r := Option.some.inj (hget.symm.trans hr)
  exact howner

theorem Refers.append (h : t.Refers owner k o) (hrow : ∀ k, key (row k) = k) :
    (t.append row hrow).Refers owner k o := by
  obtain ⟨r, hget, howner⟩ := h
  exact ⟨r, get?_append hget hrow, howner⟩

theorem Refers.updateWhere (h : t.Refers owner k o) (hf : ∀ r, key (f r) = key r)
    (hkeep : ∀ r, owner (f r) = owner r) :
    (t.updateWhere p f hf).Refers owner k o := by
  obtain ⟨r, hget, howner⟩ := h
  refine ⟨if p r then f r else r, ?_, ?_⟩
  · rw [get?_updateWhere, hget]
    rfl
  · split
    · rw [hkeep]
      exact howner
    · exact howner

theorem Refers.deleteWhere (h : t.Refers owner k o) (hp : ∀ r, key r = k → p r = false) :
    (t.deleteWhere p).Refers owner k o := by
  obtain ⟨r, hget, howner⟩ := h
  exact ⟨r, get?_deleteWhere hget (hp r (get?_eq_some hget).2), howner⟩

/-! ### Unique columns -/

/-- No two rows agree on these columns. -/
def UniqueOn (t : Table ρ key) (columns : ρ → σ) : Prop :=
  ∀ r ∈ t.rows, ∀ r' ∈ t.rows, columns r = columns r' → r = r'

variable {columns : ρ → σ}

theorem UniqueOn.append (h : t.UniqueOn columns)
    (hnew : ∀ r ∈ t.rows, columns r ≠ columns (row t.nextKey)) :
    (t.append row hrow).UniqueOn columns := by
  intro r hr r' hr' hsame
  rcases (mem_append hrow).mp hr with hr | rfl
  · rcases (mem_append hrow).mp hr' with hr' | rfl
    · exact h r hr r' hr' hsame
    · exact absurd hsame (hnew r hr)
  · rcases (mem_append hrow).mp hr' with hr' | rfl
    · exact absurd hsame.symm (hnew r' hr')
    · rfl

/-- A change may move rows to columns no other row has. -/
theorem UniqueOn.updateWhere (h : t.UniqueOn columns) (hf : ∀ r, key (f r) = key r)
    (hmoved : ∀ r ∈ t.rows, p r = true → ∀ r' ∈ t.rows, key r' ≠ key r →
      columns (f r) ≠ columns (if p r' then f r' else r')) :
    (t.updateWhere p f hf).UniqueOn columns := by
  intro x hx x' hx' hsame
  obtain ⟨r, hr, rfl⟩ := updated_of_mem hf hx
  obtain ⟨r', hr', rfl⟩ := updated_of_mem hf hx'
  by_cases hkey : key r' = key r
  · rw [eq_of_key_eq hr' hr hkey]
  · exfalso
    cases hp : p r with
    | true =>
        rw [hp, if_pos rfl] at hsame
        exact hmoved r hr hp r' hr' hkey hsame
    | false =>
        cases hp' : p r' with
        | true =>
            rw [hp', if_pos rfl] at hsame
            exact hmoved r' hr' hp' r hr (Ne.symm hkey) hsame.symm
        | false =>
            rw [hp, hp'] at hsame
            exact hkey (by rw [h r hr r' hr' hsame])

/-- A change that keeps the columns keeps them unique. -/
theorem UniqueOn.updateWhere_of_keep (h : t.UniqueOn columns) (hf : ∀ r, key (f r) = key r)
    (hkeep : ∀ r ∈ t.rows, p r = true → columns (f r) = columns r) :
    (t.updateWhere p f hf).UniqueOn columns := by
  refine h.updateWhere hf fun r hr hp r' hr' hne hsame => hne ?_
  rw [hkeep r hr hp] at hsame
  have hcolumns : columns r = columns r' := by
    split at hsame
    · rename_i hp'
      rwa [hkeep r' hr' hp'] at hsame
    · exact hsame
  rw [h r hr r' hr' hcolumns]

theorem UniqueOn.deleteWhere (h : t.UniqueOn columns) : (t.deleteWhere p).UniqueOn columns :=
  fun r hr r' hr' hsame => h r (mem_deleteWhere.mp hr).1 r' (mem_deleteWhere.mp hr').1 hsame

end KeyedTable.Table
