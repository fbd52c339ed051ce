import Mathlib.Data.List.Nodup

/-!
# The first write stays

Rows kept in order under a key computed from the row.  A row whose key is
taken is dropped (`dict.setdefault`, or a loop that skips the keys it has
seen), so keys stay distinct and a key once present stays present.
-/

namespace FirstWrite

variable {α : Type*} {κ : Type*} [DecidableEq κ] {key : α → κ}

/-- Append the row unless its key is there. -/
def addNew (key : α → κ) (rows : List α) (row : α) : List α :=
  if key row ∈ rows.map key then rows else rows ++ [row]

theorem addNew_of_mem {rows : List α} {row : α} (h : key row ∈ rows.map key) :
    addNew key rows row = rows := if_pos h

theorem addNew_of_not_mem {rows : List α} {row : α} (h : key row ∉ rows.map key) :
    addNew key rows row = rows ++ [row] := if_neg h

/-- **Keys**: those before and the key of the row. -/
theorem mem_keys_addNew {rows : List α} {row : α} {k : κ} :
    k ∈ (addNew key rows row).map key ↔ k ∈ rows.map key ∨ k = key row := by
  by_cases h : key row ∈ rows.map key
  · rw [addNew_of_mem h]
    refine ⟨Or.inl, ?_⟩
    rintro (hk | rfl)
    · exact hk
    · exact h
  · rw [addNew_of_not_mem h, List.map_append, List.mem_append, List.map_singleton,
      List.mem_singleton]

/-- **Rows**: those before, or the new row. -/
theorem mem_of_mem_addNew {rows : List α} {row r : α} (h : r ∈ addNew key rows row) :
    r ∈ rows ∨ r = row := by
  by_cases hk : key row ∈ rows.map key
  · rw [addNew_of_mem hk] at h
    exact .inl h
  · rw [addNew_of_not_mem hk, List.mem_append, List.mem_singleton] at h
    exact h

theorem nodup_addNew {rows : List α} (h : (rows.map key).Nodup) (row : α) :
    ((addNew key rows row).map key).Nodup := by
  by_cases hk : key row ∈ rows.map key
  · rw [addNew_of_mem hk]
    exact h
  · rw [addNew_of_not_mem hk, List.map_append]
    refine h.append (List.nodup_singleton _) ?_
    intro k hmem hnew
    rw [List.map_singleton, List.mem_singleton] at hnew
    exact hk (hnew ▸ hmem)

omit [DecidableEq κ] in
/-- Distinct keys, read off pairwise. -/
theorem pairwise_of_nodup {rows : List α} (h : (rows.map key).Nodup) {R : α → α → Prop}
    (hR : ∀ a ∈ rows, ∀ b ∈ rows, key a ≠ key b → R a b) : rows.Pairwise R := by
  have hne : rows.Pairwise (fun a b => key a ≠ key b) := List.pairwise_map.mp h
  exact hne.imp_of_mem (fun ha hb hkey => hR _ ha _ hb hkey)

end FirstWrite
