import Mathlib.Data.List.Basic

/-!
# Lines of text

A text is split into lines at every line break, of which a carriage return and a
line feed are one.  Reading a text file turns the line ends of other systems into
line feeds, and writing one may turn line feeds into two characters.

* `splitlines_universal` — what reading does to line ends does not change the lines.
* `splitlines_withCr_iff` — what writing does to them leaves the lines as they are
  exactly for a text without line ends of two characters.
* `splitlines_unlines` — lines that are put together are found again.
-/

namespace TextLines

/-! ### Splitting -/

/-- Where `str.splitlines` breaks. -/
def breaks : List Char :=
  ['\n', '\r', '\x0b', '\x0c', '\x1c', '\x1d', '\x1e', '\u0085', '\u2028', '\u2029']

/-- A text without line breaks. -/
def IsLine (text : List Char) : Prop := ∀ c ∈ text, c ∉ breaks

/-- The lines of a text, with what is there of the first; a line feed right behind a
carriage return breaks no line. -/
def linesFrom : Bool → List Char → List Char → List (List Char)
  | _, line, [] => if line = [] then [] else [line]
  | afterCr, line, c :: rest =>
      if afterCr = true ∧ c = '\n' then linesFrom false line rest
      else if c ∈ breaks then line :: linesFrom (decide (c = '\r')) [] rest
      else linesFrom false (line ++ [c]) rest

/-- `str.splitlines`. -/
def splitlines (text : List Char) : List (List Char) := linesFrom false [] text

theorem mem_linesFrom {text line : List Char} {afterCr : Bool} (hline : IsLine line) :
    ∀ found ∈ linesFrom afterCr line text, IsLine found := by
  induction text generalizing afterCr line with
  | nil =>
      intro found hfound
      rw [linesFrom] at hfound
      split at hfound
      · cases hfound
      · rw [List.mem_singleton] at hfound
        exact hfound ▸ hline
  | cons c rest ih =>
      intro found hfound
      rw [linesFrom] at hfound
      split at hfound
      · exact ih hline found hfound
      split at hfound
      · rcases List.mem_cons.mp hfound with rfl | hfound
        · exact hline
        · exact ih (fun c hc => absurd hc List.not_mem_nil) found hfound
      · rename_i hc
        refine ih (fun d hd => ?_) found hfound
        rcases List.mem_append.mp hd with hd | hd
        · exact hline d hd
        · rw [List.mem_singleton] at hd
          exact hd ▸ hc

/-- No line has a line break in it. -/
theorem isLine_of_mem_splitlines {text line : List Char} (h : line ∈ splitlines text) : IsLine line :=
  mem_linesFrom (fun _ hc => absurd hc List.not_mem_nil) line h

/-- A line that is ended. -/
theorem linesFrom_line {line : List Char} (hline : IsLine line) (before rest : List Char) :
    linesFrom false before (line ++ '\n' :: rest) = (before ++ line) :: linesFrom false [] rest := by
  induction line generalizing before with
  | nil =>
      rw [List.nil_append, List.append_nil, linesFrom, if_neg (by decide), if_pos (by decide)]
      rfl
  | cons c line ih =>
      have hc : c ∉ breaks := hline c List.mem_cons_self
      have hrest : IsLine line := fun d hd => hline d (List.mem_cons_of_mem _ hd)
      rw [List.cons_append, linesFrom, if_neg (fun h => absurd h.1 (by decide)), if_neg hc, ih hrest,
        List.append_assoc]
      rfl

/-! ### Line ends -/

/-- What is read of a text file: carriage returns, with line feeds behind them or not,
become line feeds. -/
def universalFrom : Bool → List Char → List Char
  | _, [] => []
  | afterCr, c :: rest =>
      if afterCr = true ∧ c = '\n' then universalFrom false rest
      else if c = '\r' then '\n' :: universalFrom true rest
      else c :: universalFrom false rest

/-- Universal newlines. -/
def universal (text : List Char) : List Char := universalFrom false text

theorem linesFrom_universalFrom (text : List Char) (afterCr : Bool) (line : List Char) :
    linesFrom false line (universalFrom afterCr text) = linesFrom afterCr line text := by
  induction text generalizing afterCr line with
  | nil => rfl
  | cons c rest ih =>
      rw [universalFrom, linesFrom]
      by_cases hpair : afterCr = true ∧ c = '\n'
      · rw [if_pos hpair, if_pos hpair, ih]
      rw [if_neg hpair, if_neg hpair]
      by_cases hcr : c = '\r'
      · subst hcr
        rw [if_pos rfl, if_pos (by decide), linesFrom, if_neg (by decide), if_pos (by decide)]
        exact congrArg (line :: ·) (ih true [])
      · rw [if_neg hcr, linesFrom, if_neg (fun h => absurd h.1 (by decide)), decide_eq_false hcr]
        by_cases hbreak : c ∈ breaks
        · rw [if_pos hbreak, if_pos hbreak, ih]
        · rw [if_neg hbreak, if_neg hbreak, ih]

/-- **Reading a text file** does not change its lines. -/
theorem splitlines_universal (text : List Char) : splitlines (universal text) = splitlines text :=
  linesFrom_universalFrom text false []

/-- What is written of a text where lines end in two characters. -/
def withCr (text : List Char) : List Char :=
  text.flatMap (fun c => if c = '\n' then ['\r', '\n'] else [c])

/-- The line feeds right behind a carriage return. -/
def pairs : Bool → List Char → Nat
  | _, [] => 0
  | afterCr, c :: rest => (if afterCr = true ∧ c = '\n' then 1 else 0) + pairs (decide (c = '\r')) rest

theorem linesFrom_of_ne {c : Char} (hc : c ≠ '\n') (afterCr : Bool) (line rest : List Char) :
    linesFrom afterCr line (c :: rest) =
      if c ∈ breaks then line :: linesFrom (decide (c = '\r')) [] rest
      else linesFrom false (line ++ [c]) rest := by
  have hpair : ¬ (afterCr = true ∧ c = '\n') := fun h => hc h.2
  rw [linesFrom, if_neg hpair]

theorem withCr_lf (rest : List Char) : withCr ('\n' :: rest) = '\r' :: '\n' :: withCr rest := rfl

theorem withCr_of_ne {c : Char} (hc : c ≠ '\n') (rest : List Char) :
    withCr (c :: rest) = c :: withCr rest := by
  simp [withCr, hc]

/-- What was written begins with no line feed. -/
theorem linesFrom_withCr (text line : List Char) (afterCr : Bool) :
    linesFrom afterCr line (withCr text) = linesFrom false line (withCr text) := by
  cases text with
  | nil => rfl
  | cons c rest =>
      by_cases hc : c = '\n'
      · subst hc
        have hcr : '\r' ≠ '\n' := by decide
        rw [withCr_lf, linesFrom_of_ne hcr afterCr, linesFrom_of_ne hcr false]
      · rw [withCr_of_ne hc, linesFrom_of_ne hc, linesFrom_of_ne hc]

/-- Every line feed behind a carriage return is one more line, an empty one, once
it has been written. -/
theorem linesFrom_pairs (text : List Char) {afterCr : Bool} {line : List Char}
    (hline : afterCr = true → line = []) :
    (linesFrom afterCr line text).Sublist (linesFrom false line (withCr text)) ∧
      (linesFrom false line (withCr text)).length =
        (linesFrom afterCr line text).length + pairs afterCr text := by
  induction text generalizing afterCr line with
  | nil => exact ⟨List.Sublist.refl _, rfl⟩
  | cons c rest ih =>
      by_cases hc : c = '\n'
      · subst hc
        have hwritten : linesFrom false line (withCr ('\n' :: rest)) =
            line :: linesFrom false [] (withCr rest) := by
          rw [withCr_lf, linesFrom, if_neg (by decide), if_pos (by decide)]
          exact congrArg (line :: ·) (if_pos ⟨rfl, rfl⟩)
        obtain ⟨hsub, hlength⟩ := @ih false [] (fun _ => rfl)
        rw [hwritten, linesFrom, pairs]
        cases afterCr with
        | true =>
            rw [hline rfl, if_pos ⟨rfl, rfl⟩, if_pos ⟨rfl, rfl⟩]
            refine ⟨hsub.cons _, ?_⟩
            rw [List.length_cons, hlength, decide_eq_false (by decide)]
            omega
        | false =>
            rw [if_neg (by decide), if_pos (by decide), if_neg (by decide)]
            refine ⟨hsub.cons_cons _, ?_⟩
            rw [List.length_cons, hlength, List.length_cons, decide_eq_false (by decide)]
            omega
      · have hpair : ¬ (afterCr = true ∧ c = '\n') := fun h => hc h.2
        rw [withCr_of_ne hc, linesFrom_of_ne hc, linesFrom_of_ne hc, pairs, if_neg hpair]
        by_cases hbreak : c ∈ breaks
        · rw [if_pos hbreak, if_pos hbreak, linesFrom_withCr]
          obtain ⟨hsub, hlength⟩ := @ih (decide (c = '\r')) [] (fun _ => rfl)
          refine ⟨hsub.cons_cons _, ?_⟩
          rw [List.length_cons, hlength, List.length_cons]
          omega
        · have hcr : c ≠ '\r' := by
            rintro rfl
            exact hbreak (by decide)
          rw [if_neg hbreak, if_neg hbreak, decide_eq_false hcr]
          obtain ⟨hsub, hlength⟩ := @ih false (line ++ [c]) (fun h => absurd h (by decide))
          refine ⟨hsub, ?_⟩
          rw [hlength]
          omega

theorem length_splitlines_withCr (text : List Char) :
    (splitlines (withCr text)).length = (splitlines text).length + pairs false text :=
  (linesFrom_pairs text (fun _ => rfl)).2

/-- **Writing line ends of two characters** keeps the lines exactly of a text that has
none yet. -/
theorem splitlines_withCr_iff (text : List Char) :
    splitlines (withCr text) = splitlines text ↔ pairs false text = 0 := by
  obtain ⟨hsub, hlength⟩ := @linesFrom_pairs text false [] (fun _ => rfl)
  constructor
  · intro h
    have hsame : (linesFrom false [] (withCr text)).length = (linesFrom false [] text).length :=
      congrArg List.length h
    omega
  · intro h
    exact (hsub.eq_of_length (by omega)).symm

/-! ### Putting lines together -/

/-- Every line with a line feed behind it. -/
def unlines (lines : List (List Char)) : List Char := lines.flatMap (fun line => line ++ ['\n'])

theorem unlines_append (front back : List (List Char)) :
    unlines (front ++ back) = unlines front ++ unlines back := List.flatMap_append

/-- Lines that end hold no line end of two characters. -/
theorem pairs_unlines {lines : List (List Char)} (h : ∀ line ∈ lines, IsLine line) :
    pairs false (unlines lines) = 0 := by
  have hline : ∀ {line : List Char}, IsLine line → ∀ rest,
      pairs false (line ++ '\n' :: rest) = pairs false rest := by
    intro line
    induction line with
    | nil =>
        intro _ rest
        rw [List.nil_append, pairs, if_neg (fun hc => absurd hc.1 (by decide)), Nat.zero_add,
          decide_eq_false (by decide)]
    | cons c line ih =>
        intro hline rest
        have hcr : c ≠ '\r' := by
          rintro rfl
          exact hline _ List.mem_cons_self (by decide)
        rw [List.cons_append, pairs, if_neg (fun hc => absurd hc.1 (by decide)), Nat.zero_add,
          decide_eq_false hcr]
        exact ih (fun d hd => hline d (List.mem_cons_of_mem _ hd)) rest
  induction lines with
  | nil => rfl
  | cons line rest ih =>
      rw [List.forall_mem_cons] at h
      have hwhole : unlines (line :: rest) = line ++ '\n' :: unlines rest := by simp [unlines]
      rw [hwhole, hline h.1, ih h.2]

/-- `"\n".join(lines)`. -/
def joined (lines : List (List Char)) : List Char := List.intercalate ['\n'] lines

/-- **Lines that end** are found again. -/
theorem splitlines_unlines {lines : List (List Char)} (h : ∀ line ∈ lines, IsLine line) :
    splitlines (unlines lines) = lines := by
  induction lines with
  | nil => rfl
  | cons line rest ih =>
      rw [List.forall_mem_cons] at h
      have hwhole : unlines (line :: rest) = line ++ '\n' :: unlines rest := by simp [unlines]
      have hrest := ih h.2
      unfold splitlines at hrest ⊢
      rw [hwhole, linesFrom_line h.1, List.nil_append, hrest]

/-- **Lines that end are found again** whatever was made of their ends. -/
theorem splitlines_withCr_unlines {lines : List (List Char)} (h : ∀ line ∈ lines, IsLine line) :
    splitlines (withCr (unlines lines)) = lines := by
  rw [(splitlines_withCr_iff _).mpr (pairs_unlines h), splitlines_unlines h]

theorem joined_cons (line : List Char) {rest : List (List Char)} (h : rest ≠ []) :
    joined (line :: rest) = line ++ '\n' :: joined rest := by
  cases rest with
  | nil => exact absurd rfl h
  | cons next others => simp [joined, List.intercalate]

/-- Joined lines with a line feed behind them. -/
theorem joined_lf {lines : List (List Char)} (h : lines ≠ []) :
    joined lines ++ ['\n'] = unlines lines := by
  induction lines with
  | nil => exact absurd rfl h
  | cons line rest ih =>
      have hwhole : unlines (line :: rest) = line ++ '\n' :: unlines rest := by simp [unlines]
      by_cases hrest : rest = []
      · subst hrest
        simp [joined, List.intercalate, unlines]
      · rw [hwhole, joined_cons line hrest, List.append_assoc, List.cons_append, ih hrest]

theorem joined_append {front back : List (List Char)} (hfront : front ≠ []) (hback : back ≠ []) :
    joined (front ++ back) = joined front ++ '\n' :: joined back := by
  induction front with
  | nil => exact absurd rfl hfront
  | cons line rest ih =>
      by_cases hrest : rest = []
      · subst hrest
        have hone : joined [line] = line := by simp [joined, List.intercalate]
        rw [hone, List.cons_append, List.nil_append, joined_cons line hback]
      · have hmore : rest ++ back ≠ [] := by simp [hrest]
        rw [List.cons_append, joined_cons line hmore, ih hrest, joined_cons line hrest,
          List.append_assoc]
        rfl

/-- A page of lines. -/
def page (lines : List (List Char)) (size index : Nat) : List (List Char) :=
  (lines.drop (index * size)).take size

/-- **The pages together** are all the lines, when there is no more of them than the
lines need. -/
theorem joined_pages {size : Nat} (hsize : 0 < size) (count : Nat) {lines : List (List Char)}
    (hall : lines.length ≤ count * size) (hlast : count * size < lines.length + size) :
    joined ((List.range count).map (fun index => joined (page lines size index))) = joined lines := by
  induction count generalizing lines with
  | zero =>
      rw [Nat.zero_mul, Nat.le_zero, List.length_eq_zero_iff] at hall
      rw [hall]
      rfl
  | succ count ih =>
      rw [Nat.succ_mul] at hall hlast
      have hlines : lines ≠ [] := by
        rintro rfl
        rw [List.length_nil] at hlast
        omega
      have hfirst : page lines size 0 = lines.take size := by simp [page]
      have hnext : (fun index => joined (page lines size (index + 1))) =
          fun index => joined (page (lines.drop size) size index) := by
        funext index
        rw [page, page, List.drop_drop, Nat.succ_mul, Nat.add_comm]
      have hpages : (List.range (count + 1)).map (fun index => joined (page lines size index)) =
          joined (lines.take size) ::
            (List.range count).map (fun index => joined (page (lines.drop size) size index)) := by
        rw [List.range_succ_eq_map, List.map_cons, List.map_map, hfirst, ← hnext]
        rfl
      have hrest := @ih (lines.drop size) (by rw [List.length_drop]; omega)
        (by rw [List.length_drop]; omega)
      rw [hpages]
      by_cases hdrop : lines.drop size = []
      · have hzero : count = 0 := by
          have hshort : (lines.drop size).length = 0 := by rw [hdrop, List.length_nil]
          rw [List.length_drop] at hshort
          cases count with
          | zero => rfl
          | succ before =>
              rw [Nat.succ_mul] at hlast
              omega
        have hwhole : lines.take size = lines := by
          conv_rhs => rw [← List.take_append_drop size lines, hdrop, List.append_nil]
        have hone : joined [joined lines] = joined lines := by
          rw [joined, List.intercalate_singleton]
        rw [hzero, List.range_zero, List.map_nil, hwhole, hone]
      · have hsome : (List.range count).map
            (fun index => joined (page (lines.drop size) size index)) ≠ [] := by
          intro h
          rw [h] at hrest
          rw [List.map_eq_nil_iff, List.range_eq_nil] at h
          have hlong : 0 < (lines.drop size).length := List.length_pos_of_ne_nil hdrop
          rw [List.length_drop] at hlong
          rw [h, Nat.zero_mul] at hall
          omega
        have htake : lines.take size ≠ [] := by
          intro h
          have hshort : (lines.take size).length = 0 := by rw [h, List.length_nil]
          have hlong : 0 < lines.length := List.length_pos_of_ne_nil hlines
          rw [List.length_take] at hshort
          omega
        rw [joined_cons _ hsome, hrest, ← joined_append htake hdrop, List.take_append_drop]

end TextLines
