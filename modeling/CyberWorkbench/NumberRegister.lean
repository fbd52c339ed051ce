import Mathlib.Data.List.Nodup

/-!
# Number registers

Names with numbers, every name one number and every number one name.  A
register only grows, by a fresh name under a fresh number.
-/

universe u v

/-- Finitely many names, numbered one to one. -/
structure NumberRegister (κ : Type u) (ν : Type v) where
  entries : List (κ × ν)
  names : (entries.map Prod.fst).Nodup
  numbers : (entries.map Prod.snd).Nodup

namespace NumberRegister

variable {κ : Type u} {ν : Type v}

/-- Nothing is numbered. -/
def empty : NumberRegister κ ν := ⟨[], List.nodup_nil, List.nodup_nil⟩

/-- **One number a name.** -/
theorem number_unique (r : NumberRegister κ ν) {name : κ} {n m : ν}
    (hn : (name, n) ∈ r.entries) (hm : (name, m) ∈ r.entries) : n = m :=
  congrArg Prod.snd (List.inj_on_of_nodup_map r.names hn hm rfl)

/-- **One name a number.** -/
theorem name_unique (r : NumberRegister κ ν) {name other : κ} {n : ν}
    (hname : (name, n) ∈ r.entries) (hother : (other, n) ∈ r.entries) : name = other :=
  congrArg Prod.fst (List.inj_on_of_nodup_map r.numbers hname hother rfl)

/-- A fresh name under a fresh number. -/
def extend (r : NumberRegister κ ν) (name : κ) (n : ν) (hname : ∀ p ∈ r.entries, p.1 ≠ name)
    (hn : ∀ p ∈ r.entries, p.2 ≠ n) : NumberRegister κ ν where
  entries := (name, n) :: r.entries
  names := by
    refine List.nodup_cons.mpr ⟨?_, r.names⟩
    intro hmem
    obtain ⟨p, hp, heq⟩ := List.mem_map.mp hmem
    exact hname p hp heq
  numbers := by
    refine List.nodup_cons.mpr ⟨?_, r.numbers⟩
    intro hmem
    obtain ⟨p, hp, heq⟩ := List.mem_map.mp hmem
    exact hn p hp heq

@[simp] theorem mem_extend {r : NumberRegister κ ν} {name : κ} {n : ν}
    {hname : ∀ p ∈ r.entries, p.1 ≠ name} {hn : ∀ p ∈ r.entries, p.2 ≠ n} {p : κ × ν} :
    p ∈ (r.extend name n hname hn).entries ↔ p = (name, n) ∨ p ∈ r.entries :=
  List.mem_cons

end NumberRegister
