import Mathlib.Data.List.DropRight

/-!
# Dynamic values

The values a decoded JSON document consists of, with the accessors dynamic
code uses on them: `get` with its default, truthiness, `str.strip`.

A number is a decimal mantissa and exponent, so its truthiness (is it zero?)
is decided on the mantissa.  A dictionary is its entries in insertion order;
`get` returns the first entry of a key, and assignment (`set`) replaces it in
place or appends it, so keys that start distinct stay distinct.
-/

namespace PythonValues

inductive Value where
  | none
  | bool (b : Bool)
  | number (mantissa : Int) (exponent : Nat)
  | str (s : String)
  | list (items : List Value)
  | dict (entries : List (String × Value))

/-- A dictionary with string keys, in insertion order. -/
abbrev Dict := List (String × Value)

namespace Value

mutual

def beq : Value → Value → Bool
  | .none, .none => true
  | .bool a, .bool b => a == b
  | .number m e, .number m' e' => m == m' && e == e'
  | .str a, .str b => a == b
  | .list xs, .list ys => beqList xs ys
  | .dict xs, .dict ys => beqEntries xs ys
  | _, _ => false

def beqList : List Value → List Value → Bool
  | [], [] => true
  | x :: xs, y :: ys => beq x y && beqList xs ys
  | _, _ => false

def beqEntries : List (String × Value) → List (String × Value) → Bool
  | [], [] => true
  | (k, x) :: xs, (l, y) :: ys => k == l && beq x y && beqEntries xs ys
  | _, _ => false

end

mutual

/-- The structural test decides equality. -/
theorem beq_iff_eq : ∀ a b : Value, beq a b = true ↔ a = b
  | .none, b => by cases b <;> simp [beq]
  | .bool x, b => by cases b <;> simp [beq]
  | .number m e, b => by cases b <;> simp [beq]
  | .str s, b => by cases b <;> simp [beq]
  | .list xs, b => by
      cases b <;> simp [beq]
      exact beqList_iff_eq xs _
  | .dict xs, b => by
      cases b <;> simp [beq]
      exact beqEntries_iff_eq xs _

theorem beqList_iff_eq : ∀ xs ys : List Value, beqList xs ys = true ↔ xs = ys
  | [], ys => by cases ys <;> simp [beqList]
  | x :: xs, ys => by
      cases ys with
      | nil => simp [beqList]
      | cons y ys => simp [beqList, beq_iff_eq x y, beqList_iff_eq xs ys]

theorem beqEntries_iff_eq :
    ∀ xs ys : List (String × Value), beqEntries xs ys = true ↔ xs = ys
  | [], ys => by cases ys <;> simp [beqEntries]
  | (k, x) :: xs, ys => by
      cases ys with
      | nil => simp [beqEntries]
      | cons y ys =>
          obtain ⟨l, y⟩ := y
          simp [beqEntries, beq_iff_eq x y, beqEntries_iff_eq xs ys]

end

instance : DecidableEq Value := fun a b =>
  decidable_of_iff (beq a b = true) (beq_iff_eq a b)

/-- Python truthiness. -/
def truthy : Value → Bool
  | .none => false
  | .bool b => b
  | .number m _ => m != 0
  | .str s => s != ""
  | .list xs => !xs.isEmpty
  | .dict es => !es.isEmpty

/-- `a or b`. -/
def or (a b : Value) : Value := if a.truthy then a else b

/-- `value == "text"`. -/
def isText (v : Value) (text : String) : Bool :=
  match v with
  | .str s => s == text
  | _ => false

/-- `value if isinstance(value, str) else ""`. -/
def textOrEmpty : Value → String
  | .str s => s
  | _ => ""

theorem isText_iff {v : Value} {text : String} :
    v.isText text = true ↔ v = .str text := by
  cases v <;> simp [isText]

/-- One value is not two different texts. -/
theorem isText_ne {v : Value} {a b : String} (ha : v.isText a = true) (hab : a ≠ b) :
    v.isText b = false := by
  rw [isText_iff] at ha
  simp [ha, isText, hab]

end Value

namespace Dict

/-- `d.get(key)`: the value under the key, `None` when there is none. -/
def get (d : Dict) (key : String) : Value :=
  match d.find? (fun e => e.1 == key) with
  | some e => e.2
  | none => .none

/-- `d[key] = value`. -/
def set : Dict → String → Value → Dict
  | [], key, value => [(key, value)]
  | (k, v) :: rest, key, value =>
      if k = key then (key, value) :: rest else (k, v) :: set rest key value

end Dict

/-! ### Text -/

/-- `str.isspace` on one character. -/
def isSpace (c : Char) : Bool :=
  let n := c.toNat
  (9 ≤ n && n ≤ 13) || (28 ≤ n && n ≤ 32) || n == 0x85 || n == 0xA0 ||
    n == 0x1680 || (0x2000 ≤ n && n ≤ 0x200A) || n == 0x2028 || n == 0x2029 ||
    n == 0x202F || n == 0x205F || n == 0x3000

/-- `str.strip()`. -/
def strip (s : String) : String :=
  String.ofList ((s.toList.dropWhile isSpace).reverse.dropWhile isSpace).reverse

theorem toList_strip (s : String) :
    (strip s).toList = (s.toList.dropWhile isSpace).rdropWhile isSpace := String.toList_ofList

/-- Stripping a stripped text changes nothing. -/
theorem strip_strip (s : String) : strip (strip s) = strip s := by
  refine String.toList_injective ?_
  rw [toList_strip (strip s), toList_strip s]
  have hleft : ((s.toList.dropWhile isSpace).rdropWhile isSpace).dropWhile isSpace =
      (s.toList.dropWhile isSpace).rdropWhile isSpace := by
    rw [List.dropWhile_eq_self_iff]
    intro hpos
    -- The trimmed text starts where the text trimmed on the left only starts.
    have htrimmed := List.rdropWhile_prefix isSpace (l := s.toList.dropWhile isSpace)
    have hidem := List.dropWhile_eq_self_iff.mp
      (List.dropWhile_idempotent (p := isSpace) (l := s.toList))
    rw [htrimmed.getElem hpos]
    exact hidem (Nat.lt_of_lt_of_le hpos htrimmed.length_le)
  rw [hleft, List.rdropWhile_idempotent]

/-- A text without blanks is stripped as it is. -/
theorem strip_of_no_space {s : String} (h : ∀ c ∈ s.toList, isSpace c = false) : strip s = s := by
  refine String.toList_injective ?_
  have hleft : s.toList.dropWhile isSpace = s.toList := by
    rw [List.dropWhile_eq_self_iff]
    intro hpos
    simp [h _ (List.getElem_mem hpos)]
  rw [toList_strip, hleft, List.rdropWhile_eq_self_iff]
  intro hne
  simp [h _ (List.getLast_mem hne)]

end PythonValues
