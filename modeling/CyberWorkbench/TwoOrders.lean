import Mathlib.Order.Basic
import Mathlib.Order.Lattice

/-!
# Two orders on one type

Elements may have a reading in a first linear order; all have one in a second.
Two elements that are both read are compared by the first order, and any other
two by the second, the way a comparison function falls back when it cannot
parse an argument.

The comparison is antisymmetric and total.  It is not transitive: `crossed_iff`
says for which triples it fails.  Two of the three are read, the third is not,
and it stands in the second order between two that the orders put the other way
round.
-/

namespace TwoOrders

universe u v w

variable {α : Type u} {β : Type v} {γ : Type w} [LinearOrder β] [LinearOrder γ]

/-- `(x > y) - (x < y)`. -/
def sign (x y : β) : Int := (if y < x then 1 else 0) - (if x < y then 1 else 0)

theorem sign_swap (x y : β) : sign x y = -sign y x := by
  unfold sign
  omega

theorem sign_le_zero {x y : β} : sign x y ≤ 0 ↔ x ≤ y := by
  unfold sign
  rcases lt_trichotomy x y with h | rfl | h
  · simp [h, not_lt_of_gt h, le_of_lt h]
  · simp
  · simp [h, not_lt_of_gt h]

variable (read : α → Option β) (loose : α → γ)

/-- Compare by what is read, or else by the second order. -/
def compare (a b : α) : Int :=
  match read a, read b with
  | some x, some y => sign x y
  | _, _ => sign (loose a) (loose b)

/-- `a` comes no later than `b`. -/
def Le (a b : α) : Prop := compare read loose a b ≤ 0

instance (a b : α) : Decidable (Le read loose a b) := by
  unfold Le; infer_instance

/-- **Antisymmetry.** -/
theorem compare_swap (a b : α) : compare read loose a b = -compare read loose b a := by
  unfold compare
  cases read a <;> cases read b <;> exact sign_swap _ _

variable {read loose}

theorem le_of_read {a b : α} {x y : β} (ha : read a = some x) (hb : read b = some y) :
    Le read loose a b ↔ x ≤ y := by
  unfold Le compare
  rw [ha, hb]
  exact sign_le_zero

theorem le_of_left {a b : α} (ha : read a = none) : Le read loose a b ↔ loose a ≤ loose b := by
  unfold Le compare
  rw [ha]
  exact sign_le_zero

theorem le_of_right {a b : α} (hb : read b = none) : Le read loose a b ↔ loose a ≤ loose b := by
  unfold Le compare
  rw [hb]
  cases read a <;> exact sign_le_zero

theorem not_le_iff {a b : α} : ¬ Le read loose a b ↔ 0 < compare read loose a b := by
  unfold Le
  omega

theorem not_le_swap {a b : α} : ¬ Le read loose b a ↔ compare read loose a b < 0 := by
  unfold Le
  rw [compare_swap read loose b a]
  omega

theorem le_swap {a b : α} : Le read loose b a ↔ 0 ≤ compare read loose a b := by
  unfold Le
  rw [compare_swap read loose b a]
  omega

/-- **Crossed.**  One of the three is not read, and the two orders disagree
about the others across it. -/
inductive Crossed (read : α → Option β) (loose : α → γ) (a b c : α) : Prop
  | first {y z : β} : read a = none → read b = some y → read c = some z → y ≤ z →
      loose c < loose a → loose a ≤ loose b → Crossed read loose a b c
  | middle {x z : β} : read a = some x → read b = none → read c = some z → z < x →
      loose a ≤ loose b → loose b ≤ loose c → Crossed read loose a b c
  | last {x y : β} : read a = some x → read b = some y → read c = none → x ≤ y →
      loose b ≤ loose c → loose c < loose a → Crossed read loose a b c

/-- **Where transitivity fails.** -/
theorem crossed_iff {a b c : α} : Crossed read loose a b c ↔
    Le read loose a b ∧ Le read loose b c ∧ ¬ Le read loose a c := by
  constructor
  · rintro (⟨ha, hb, hc, hyz, hca, hab⟩ | ⟨ha, hb, hc, hzx, hab, hbc⟩ | ⟨ha, hb, hc, hxy, hbc, hca⟩)
    · rw [le_of_left ha, le_of_read hb hc, le_of_left ha]
      exact ⟨hab, hyz, Std.not_le.mpr hca⟩
    · rw [le_of_right hb, le_of_left hb, le_of_read ha hc]
      exact ⟨hab, hbc, Std.not_le.mpr hzx⟩
    · rw [le_of_read ha hb, le_of_right hc, le_of_right hc]
      exact ⟨hxy, hbc, Std.not_le.mpr hca⟩
  · rintro ⟨hab, hbc, hac⟩
    cases ha : read a with
    | none =>
        rw [le_of_left ha] at hab hac
        cases hb : read b with
        | none =>
            rw [le_of_left hb] at hbc
            exact absurd (hab.trans hbc) hac
        | some y =>
            cases hc : read c with
            | none =>
                rw [le_of_right hc] at hbc
                exact absurd (hab.trans hbc) hac
            | some z => exact .first ha hb hc ((le_of_read hb hc).mp hbc) (Std.not_le.mp hac) hab
    | some x =>
        cases hb : read b with
        | none =>
            rw [le_of_right hb] at hab
            rw [le_of_left hb] at hbc
            cases hc : read c with
            | none =>
                rw [le_of_right hc] at hac
                exact absurd (hab.trans hbc) hac
            | some z =>
                rw [le_of_read ha hc] at hac
                exact .middle ha hb hc (Std.not_le.mp hac) hab hbc
        | some y =>
            rw [le_of_read ha hb] at hab
            cases hc : read c with
            | none =>
                rw [le_of_right hc] at hbc hac
                exact .last ha hb hc hab hbc (Std.not_le.mp hac)
            | some z =>
                rw [le_of_read hb hc] at hbc
                rw [le_of_read ha hc] at hac
                exact absurd (hab.trans hbc) hac

/-- **Transitivity**, for the triples that are not crossed. -/
theorem trans_iff {a b c : α} :
    (Le read loose a b → Le read loose b c → Le read loose a c) ↔ ¬ Crossed read loose a b c := by
  rw [crossed_iff]
  constructor
  · rintro htrans ⟨hab, hbc, hac⟩
    exact hac (htrans hab hbc)
  · intro hnot hab hbc
    exact Classical.byContradiction fun hac => hnot ⟨hab, hbc, hac⟩

end TwoOrders
