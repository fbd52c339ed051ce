import CyberWorkbench.TableReferences

/-!
# Keys in use

For tables under keys of any type: which keys are in use, what each operation does to
them (`has_…`), and keeping the rows that pass a test (`keepWhere`).
-/

namespace KeyedTable.Table

universe u v

section AnyKey

variable {ρ : Type u} {κ : Type v} {key : ρ → κ}

/-- Some row has this key. -/
def Has (t : Table ρ key) (k : κ) : Prop := ∃ r ∈ t.rows, key r = k

/-- Keep the rows that pass a test. -/
def keepWhere (t : Table ρ key) (p : ρ → Bool) : Table ρ key :=
  ⟨(t.select p).rows, (t.select p).keysDistinct⟩

variable {t : Table ρ key} {p : ρ → Bool} {r : ρ} {k : κ}

theorem mem_keepWhere : r ∈ (t.keepWhere p).rows ↔ r ∈ t.rows ∧ p r = true :=
  mem_select

theorem Has.keepWhere (h : t.Has k) (hp : ∀ r, key r = k → p r = true) :
    (t.keepWhere p).Has k := by
  obtain ⟨r, hr, hkey⟩ := h
  exact ⟨r, mem_keepWhere.mpr ⟨hr, hp r hkey⟩, hkey⟩

/-- An update changes no key. -/
theorem Has.updateWhere {f : ρ → ρ} (h : t.Has k) (hf : ∀ r, key (f r) = key r) :
    (t.updateWhere p f hf).Has k := by
  obtain ⟨r, hr, rfl⟩ := h
  refine ⟨if p r then f r else r, mem_updateWhere.mpr ⟨r, hr, rfl⟩, ?_⟩
  split
  · exact hf r
  · rfl

variable [DecidableEq κ]

theorem has_iff_get? : t.Has k ↔ (t.get? k).isSome = true := by
  constructor
  · rintro ⟨r, hr, rfl⟩
    rw [mem_rows_iff_get?.mp hr]
    rfl
  · intro h
    obtain ⟨r, hget⟩ := Option.isSome_iff_exists.mp h
    exact ⟨r, get?_eq_some hget⟩

/-- The rows of a table a row was inserted in. -/
theorem mem_of_insert {t' : Table ρ key} (h : t.insert r = some t') {x : ρ} :
    x ∈ t'.rows ↔ x ∈ t.rows ∨ x = r := by
  rw [(insert_eq_some h).2]
  simp

end AnyKey

section SerialKey

variable {ρ : Type u} {key : ρ → Nat} {t : Table ρ key} {row : Nat → ρ} {k : Nat}

theorem Has.append (h : t.Has k) (hrow : ∀ k, key (row k) = k) : (t.append row hrow).Has k := by
  obtain ⟨r, hr, hkey⟩ := h
  exact ⟨r, (mem_append hrow).mpr (.inl hr), hkey⟩

theorem has_append_nextKey (hrow : ∀ k, key (row k) = k) :
    (t.append row hrow).Has t.nextKey :=
  ⟨row t.nextKey, (mem_append hrow).mpr (.inr rfl), hrow _⟩

theorem not_has_nextKey : ¬ t.Has t.nextKey := by
  rintro ⟨r, hr, hkey⟩
  have hlt := le_nextKey hr
  omega

end SerialKey

end KeyedTable.Table
