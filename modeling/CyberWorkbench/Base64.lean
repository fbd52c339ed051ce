import Mathlib.Data.List.Basic

/-!
# Base64

Bytes in groups of three as groups of four digits, the last group padded: an encoding
consists of digits and padding only (`mem_encode`).
-/

namespace Base64

/-- The digits, by value. -/
def digits : List Char :=
  "ABCDEFGHIJKLMNOPQRSTUVWXYZabcdefghijklmnopqrstuvwxyz0123456789+/".toList

/-- The digit of a value below 64. -/
def digit (value : Nat) : Char := digits.getD value '='

/-- `base64.b64encode`. -/
def encode : List UInt8 → List Char
  | [] => []
  | [a] => [digit (a.toNat / 4), digit (a.toNat % 4 * 16), '=', '=']
  | [a, b] =>
      [digit (a.toNat / 4), digit (a.toNat % 4 * 16 + b.toNat / 16), digit (b.toNat % 16 * 4), '=']
  | a :: b :: c :: rest =>
      digit (a.toNat / 4) :: digit (a.toNat % 4 * 16 + b.toNat / 16) ::
        digit (b.toNat % 16 * 4 + c.toNat / 64) :: digit (c.toNat % 64) :: encode rest

/-- An encoding consists of digits and padding. -/
theorem mem_encode {bytes : List UInt8} {c : Char} (h : c ∈ encode bytes) :
    c ∈ digits ∨ c = '=' := by
  have hdigit : ∀ value, digit value ∈ digits ∨ digit value = '=' := by
    intro value
    unfold digit
    rw [List.getD_eq_getElem?_getD]
    cases hget : digits[value]? with
    | none => exact .inr rfl
    | some d => exact .inl (List.mem_of_getElem? hget)
  induction bytes using encode.induct with
  | case1 => cases h
  | case2 a =>
      simp only [encode, List.mem_cons, List.not_mem_nil, or_false] at h
      rcases h with rfl | rfl | rfl | rfl
      · exact hdigit _
      · exact hdigit _
      · exact .inr rfl
      · exact .inr rfl
  | case3 a b =>
      simp only [encode, List.mem_cons, List.not_mem_nil, or_false] at h
      rcases h with rfl | rfl | rfl | rfl
      · exact hdigit _
      · exact hdigit _
      · exact hdigit _
      · exact .inr rfl
  | case4 a b c' rest ih =>
      simp only [encode, List.mem_cons] at h
      rcases h with rfl | rfl | rfl | rfl | h
      · exact hdigit _
      · exact hdigit _
      · exact hdigit _
      · exact hdigit _
      · exact ih h

end Base64
