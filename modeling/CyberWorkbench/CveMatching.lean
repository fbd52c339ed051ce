import Mathlib
import CyberWorkbench.CveImport
import CyberWorkbench.TwoOrders

/-!
# CVE matching

`service/work_project/cve`: how a target's version is compared with what NVD
publishes about a product, and how sure a match is.

`compare_is_order_iff`: versions are compared by PEP 440 where both can be
parsed and loosely otherwise; the comparison is antisymmetric, and it is
transitive exactly on the triples that are not crossed, so a range has the
versions between two of its own exactly where its bounds cross none of them.

`match_confidence_iff`: the loop over the matching entries returns at the first
one that justifies anything, so the confidence is the highest in every order of
the entries exactly when no two of them justify different ones.

`Version` of the packaging library is a partial reading into a linear order;
the case of letters and the decimal digits of Unicode are parameters.
-/

namespace Workbench.CveMatching

open TwoOrders WorkProject

/-! ### Versions -/

/-- What the standard library knows about text. -/
structure TextTables where
  /-- `str.lower` and `str.upper`. -/
  lower : String → String
  upper : String → String
  /-- The value of a decimal digit. -/
  decimal : Char → Option Nat

/-- A part of a loose version: `(0, int)` or `(1, str)`. -/
abbrev LoosePart := Nat ⊕ₗ String

/-- `[A-Za-z]`. -/
def isLetter (c : Char) : Bool := ('A' ≤ c && c ≤ 'Z') || ('a' ≤ c && c ≤ 'z')

/-- Two neighbours in one match of `\d+|[A-Za-z]+`. -/
def sameRun (text : TextTables) (c d : Char) : Bool :=
  ((text.decimal c).isSome && (text.decimal d).isSome) ||
    ((text.decimal c).isNone && (text.decimal d).isNone && isLetter c && isLetter d)

/-- `int(part)` or `part.lower()`; what lies between the matches has none. -/
def loosePart? (text : TextTables) (run : List Char) : Option LoosePart :=
  match run with
  | [] => none
  | first :: _ =>
      if (text.decimal first).isSome then
        some (toLex (.inl ((run.filterMap text.decimal).foldl (fun n digit => 10 * n + digit) 0)))
      else if isLetter first then some (toLex (.inr (text.lower (String.ofList run))))
      else none

/-- `_loose_version`. -/
def looseVersion (text : TextTables) (value : String) : List LoosePart :=
  (value.toList.splitBy (sameRun text)).filterMap (loosePart? text)

variable {V : Type} [LinearOrder V]

section

variable (version : String → Option V) (text : TextTables)

/-- `_compare_versions`. -/
def compareVersions (left right : String) : Int :=
  compare version (looseVersion text) left right

/-- `_versions_equal`. -/
def versionsEqual (left right : String) : Bool := compareVersions version text left right == 0

/-! ### Entries -/

/-- An entry of `cpeMatch`; an absent field is empty. -/
structure CpeMatch where
  criteria : String := ""
  vulnerable : Bool := true
  versionStartIncluding : String := ""
  versionStartExcluding : String := ""
  versionEndIncluding : String := ""
  versionEndExcluding : String := ""
  deriving DecidableEq, Repr

/-- `_has_version_bounds`. -/
def hasVersionBounds (entry : CpeMatch) : Bool :=
  entry.versionStartIncluding != "" || entry.versionStartExcluding != "" ||
    entry.versionEndIncluding != "" || entry.versionEndExcluding != ""

/-- `_version_in_match`. -/
def versionInMatch (target : String) (entry : CpeMatch) : Bool :=
  if !hasVersionBounds entry then false
  else
    [(entry.versionStartIncluding, fun result : Int => decide (0 ≤ result)),
      (entry.versionStartExcluding, fun result => decide (0 < result)),
      (entry.versionEndIncluding, fun result => decide (result ≤ 0)),
      (entry.versionEndExcluding, fun result => decide (result < 0))].all fun check =>
        check.1 == "" || check.2 (compareVersions version text target check.1)

/-! ### Ranges -/

/-- **No bound of the entry is crossed** by a version between two others. -/
structure Straight (entry : CpeMatch) (u w v : String) : Prop where
  startIncluding : entry.versionStartIncluding ≠ "" →
    ¬ Crossed version (looseVersion text) entry.versionStartIncluding u w
  startExcluding : entry.versionStartExcluding ≠ "" →
    ¬ Crossed version (looseVersion text) u w entry.versionStartExcluding
  endIncluding : entry.versionEndIncluding ≠ "" →
    ¬ Crossed version (looseVersion text) w v entry.versionEndIncluding
  endExcluding : entry.versionEndExcluding ≠ "" →
    ¬ Crossed version (looseVersion text) entry.versionEndExcluding w v

variable {version text}

theorem versionInMatch_iff {target : String} {entry : CpeMatch} :
    versionInMatch version text target entry = true ↔ hasVersionBounds entry = true ∧
      (entry.versionStartIncluding ≠ "" →
        Le version (looseVersion text) entry.versionStartIncluding target) ∧
      (entry.versionStartExcluding ≠ "" →
        ¬ Le version (looseVersion text) target entry.versionStartExcluding) ∧
      (entry.versionEndIncluding ≠ "" →
        Le version (looseVersion text) target entry.versionEndIncluding) ∧
      (entry.versionEndExcluding ≠ "" →
        ¬ Le version (looseVersion text) entry.versionEndExcluding target) := by
  unfold versionInMatch
  cases hbounds : hasVersionBounds entry with
  | false => simp
  | true =>
      simp only [compareVersions, List.all_cons, List.all_nil, Bool.and_true, Bool.and_eq_true,
        Bool.or_eq_true, beq_iff_eq, decide_eq_true_eq, Bool.not_true, Bool.false_eq_true, if_false,
        true_and, ne_eq, or_iff_not_imp_left]
      exact and_congr (imp_congr_right fun _ => le_swap.symm)
        (and_congr (imp_congr_right fun _ => not_le_iff.symm)
          (and_congr Iff.rfl (imp_congr_right fun _ => not_le_swap.symm)))

/-- **A version between two of a range** is in it, exactly if no bound is
crossed. -/
theorem between_iff_straight {entry : CpeMatch} {u w v : String}
    (hu : versionInMatch version text u entry = true)
    (hv : versionInMatch version text v entry = true)
    (huw : Le version (looseVersion text) u w) (hwv : Le version (looseVersion text) w v) :
    versionInMatch version text w entry = true ↔ Straight version text entry u w v := by
  obtain ⟨hbounds, hu₁, hu₂, -, -⟩ := versionInMatch_iff.mp hu
  obtain ⟨-, -, -, hv₃, hv₄⟩ := versionInMatch_iff.mp hv
  rw [versionInMatch_iff]
  constructor
  · rintro ⟨-, h₁, h₂, h₃, h₄⟩
    refine ⟨fun hne hcrossed => ?_, fun hne hcrossed => ?_, fun hne hcrossed => ?_,
      fun hne hcrossed => ?_⟩
    · exact (crossed_iff.mp hcrossed).2.2 (h₁ hne)
    · exact h₂ hne (crossed_iff.mp hcrossed).2.1
    · exact (crossed_iff.mp hcrossed).2.2 (h₃ hne)
    · exact h₄ hne (crossed_iff.mp hcrossed).1
  · rintro ⟨h₁, h₂, h₃, h₄⟩
    refine ⟨hbounds, fun hne => ?_, fun hne hle => ?_, fun hne => ?_, fun hne hle => ?_⟩
    · exact trans_iff.mpr (h₁ hne) (hu₁ hne) huw
    · exact hu₂ hne (trans_iff.mpr (h₂ hne) huw hle)
    · exact trans_iff.mpr (h₃ hne) hwv (hv₃ hne)
    · exact hv₄ hne (trans_iff.mpr (h₄ hne) hle hwv)

variable (version text)

/-- **Version comparison.**  It is antisymmetric; it is transitive on a triple
exactly if the triple is not crossed; and a version between two of a range lies
in it exactly if no bound of the range is crossed. -/
theorem compare_is_order_iff :
    (∀ a b, compareVersions version text a b = -compareVersions version text b a) ∧
    (∀ a b c, (compareVersions version text a b ≤ 0 → compareVersions version text b c ≤ 0 →
        compareVersions version text a c ≤ 0) ↔ ¬ Crossed version (looseVersion text) a b c) ∧
    ∀ entry u w v, versionInMatch version text u entry = true →
      versionInMatch version text v entry = true → compareVersions version text u w ≤ 0 →
        compareVersions version text w v ≤ 0 →
          (versionInMatch version text w entry = true ↔ Straight version text entry u w v) :=
  ⟨compare_swap version (looseVersion text), fun _ _ _ => trans_iff,
    fun _ _ _ _ hu hv huw hwv => between_iff_straight hu hv huw hwv⟩

end

/-! ### A release between a candidate and its final -/

/-- ASCII text. -/
def asciiTables : TextTables where
  lower value := String.ofList (value.toList.map Char.toLower)
  upper value := String.ofList (value.toList.map Char.toUpper)
  decimal c := if c.isDigit then some (c.toNat - '0'.toNat) else none

/-- PEP 440 on three versions: a candidate comes before its release, and a
portable release, `9.0p1`, is none of its versions. -/
def releases (value : String) : Option Nat :=
  if value = "9.0rc1" then some 0 else if value = "9.0" then some 1
  else if value = "10.0" then some 2 else none

/-- Affected from the candidate on, up to `10.0`. -/
def sinceCandidate : CpeMatch :=
  { versionStartIncluding := "9.0rc1", versionEndIncluding := "10.0" }

/-- **A cycle**, and an affected version that is reported as not affected. -/
theorem versions_in_cycle :
    (compareVersions releases asciiTables "9.0" "9.0p1" ≤ 0 ∧
      compareVersions releases asciiTables "9.0p1" "9.0rc1" ≤ 0 ∧
        ¬ compareVersions releases asciiTables "9.0" "9.0rc1" ≤ 0) ∧
    versionInMatch releases asciiTables "9.0" sinceCandidate = true ∧
      versionInMatch releases asciiTables "10.0" sinceCandidate = true ∧
        compareVersions releases asciiTables "9.0p1" "10.0" ≤ 0 ∧
          versionInMatch releases asciiTables "9.0p1" sinceCandidate = false := by
  decide +kernel

/-! ### CPE names -/

/-- The loop of `_parse_cpe`. -/
def scanCpe : List Char → List String → List Char → Bool → List String
  | [], fields, current, escaped =>
      fields ++ [String.ofList (current ++ if escaped then ['\\'] else [])]
  | char :: rest, fields, current, escaped =>
      if escaped then scanCpe rest fields (current ++ [char]) false
      else if char = '\\' then scanCpe rest fields current true
      else if char = ':' then scanCpe rest (fields ++ [String.ofList current]) [] false
      else scanCpe rest fields (current ++ [char]) false

/-- `_parse_cpe`. -/
def parseCpe (value : String) : List String := scanCpe value.toList [] [] false

/-- `_cpe_field`. -/
def cpeField (fields : List String) (index : Nat) : String := fields.getD index ""

/-- `_normalized_product`. -/
def normalizedProduct (text : TextTables) (value : String) : String :=
  String.ofList ((text.lower value).toList.filter fun c =>
    ('a' ≤ c && c ≤ 'z') || ('0' ≤ c && c ≤ '9'))

/-- `_cpe_product_matches`. -/
def cpeProductMatches (text : TextTables) (criteria vendor product : String) : Bool :=
  let fields := parseCpe criteria
  (vendor == "" || normalizedProduct text vendor == normalizedProduct text (cpeField fields 3)) &&
    (product == "" || normalizedProduct text product == normalizedProduct text (cpeField fields 4))

/-! ### Configurations -/

/-- A JSON value of the configurations: a list, or an object with the entries of
`cpeMatch` and three nested values.  What is absent is an empty list. -/
inductive CpeTree where
  | list (items : List CpeTree)
  | dict (cpeMatch : List CpeMatch) (nodes children configurations : CpeTree)

mutual

/-- `_walk_cpe_matches`. -/
def walkCpeMatches : CpeTree → List CpeMatch
  | .list items => walkItems items
  | .dict cpeMatch nodes children configurations =>
      cpeMatch.filter CpeMatch.vulnerable ++ walkCpeMatches nodes ++ walkCpeMatches children ++
        walkCpeMatches configurations

def walkItems : List CpeTree → List CpeMatch
  | [] => []
  | item :: rest => walkCpeMatches item ++ walkItems rest

end

/-- The order of siblings is changed, at any nesting. -/
inductive Reordered : CpeTree → CpeTree → Prop
  | refl (tree : CpeTree) : Reordered tree tree
  | trans {tree mid tree' : CpeTree} : Reordered tree mid → Reordered mid tree' →
      Reordered tree tree'
  | items {items items' : List CpeTree} : items.Perm items' →
      Reordered (.list items) (.list items')
  | item {tree tree' : CpeTree} (before after : List CpeTree) : Reordered tree tree' →
      Reordered (.list (before ++ tree :: after)) (.list (before ++ tree' :: after))
  | entries {cpeMatch cpeMatch' : List CpeMatch} {nodes children configurations : CpeTree} :
      cpeMatch.Perm cpeMatch' → Reordered (.dict cpeMatch nodes children configurations)
        (.dict cpeMatch' nodes children configurations)
  | nested {cpeMatch : List CpeMatch} {nodes nodes' children children' configurations
      configurations' : CpeTree} : Reordered nodes nodes' → Reordered children children' →
      Reordered configurations configurations' →
      Reordered (.dict cpeMatch nodes children configurations)
        (.dict cpeMatch nodes' children' configurations')

theorem walkItems_eq (items : List CpeTree) :
    walkItems items = (items.map walkCpeMatches).flatten := by
  induction items with
  | nil => rw [walkItems]; rfl
  | cons item rest ih => rw [walkItems, ih]; rfl

/-- **Reordering permutes the entries.** -/
theorem Reordered.walk {tree tree' : CpeTree} (h : Reordered tree tree') :
    (walkCpeMatches tree).Perm (walkCpeMatches tree') := by
  induction h with
  | refl tree => exact List.Perm.refl _
  | trans _ _ ih ih' => exact ih.trans ih'
  | items hperm =>
      simp only [walkCpeMatches, walkItems_eq]
      exact (hperm.map walkCpeMatches).flatten
  | item before after _ ih =>
      simp only [walkCpeMatches, walkItems_eq, List.map_append, List.map_cons, List.flatten_append,
        List.flatten_cons]
      exact (ih.append_right _).append_left _
  | entries hperm =>
      simp only [walkCpeMatches]
      exact (((hperm.filter _).append_right _).append_right _).append_right _
  | nested _ _ _ ihNodes ihChildren ihConfigurations =>
      simp only [walkCpeMatches]
      exact ((ihNodes.append_left _).append ihChildren).append ihConfigurations

/-! ### Confidence -/

/-- The part of a request that is matched. -/
structure CveQuery where
  vendor : String := ""
  product : String := ""
  version : String := ""
  cpe : String := ""

def CveQuery.cpeFields (request : CveQuery) : List String :=
  if request.cpe = "" then [] else parseCpe request.cpe

/-- `a or b` on texts. -/
def textOr (a b : String) : String := if a = "" then b else a

/-- The version asked for. -/
def CveQuery.target (request : CveQuery) : String :=
  textOr request.version (cpeField request.cpeFields 5)

/-- The entries that are about the product asked for. -/
def CveQuery.matching (text : TextTables) (request : CveQuery) (entries : List CpeMatch) :
    List CpeMatch :=
  entries.filter fun entry => cpeProductMatches text entry.criteria
    (textOr request.vendor (cpeField request.cpeFields 3))
    (textOr request.product (cpeField request.cpeFields 4))

/-- No version is asked for. -/
def unknownVersion (target : String) : Bool := target == "" || target == "*" || target == "-"

section

variable (version : String → Option V) (text : TextTables)

/-- One round of the loop of `_nvd_match_confidence`. -/
def entryVerdict? (target : String) (entry : CpeMatch) : Option (CveMatchConfidence × String) :=
  let criteriaVersion := cpeField (parseCpe entry.criteria) 5
  if !unknownVersion criteriaVersion && versionsEqual version text target criteriaVersion then
    some (.exact, "目标版本 " ++ target ++ " 与 NVD 受影响 CPE 精确匹配。")
  else if versionInMatch version text target entry then
    some (.high, "目标版本 " ++ target ++ " 落入 NVD 公布的受影响版本区间。")
  else if unknownVersion criteriaVersion && !hasVersionBounds entry then
    some (.medium, "NVD 受影响 CPE 命中产品，但情报未提供可判定的版本边界。")
  else none

/-- `_nvd_match_confidence`. -/
def nvdMatchConfidence (configurations : CpeTree) (request : CveQuery) :
    CveMatchConfidence × String :=
  let entries := request.matching text (walkCpeMatches configurations)
  if entries = [] then
    (.low, "NVD 关键词命中，但未在受影响 CPE 配置中确认产品映射。")
  else if unknownVersion request.target then
    (.medium, "NVD 受影响 CPE 命中产品；目标版本未知，无法完成区间判定。")
  else
    (entries.findSome? (entryVerdict? version text request.target)).getD
      (.low, "产品命中，但目标版本 " ++ request.target ++ " 未落入 NVD 公布的受影响版本范围。")

/-- The confidence that one entry justifies. -/
def entryConfidence (target : String) (entry : CpeMatch) : CveMatchConfidence :=
  if unknownVersion target then .medium
  else ((entryVerdict? version text target entry).map Prod.fst).getD .low

/-- `confidence_rank` of `_candidate_sort_key`. -/
def confidenceRank : CveMatchConfidence → Nat
  | .exact => 3
  | .high => 2
  | .medium => 1
  | .low => 0

/-- The highest confidence that any of the entries justifies. -/
def Highest (target : String) (entries : List CpeMatch) (confidence : CveMatchConfidence) : Prop :=
  (confidence = .low ∨ ∃ entry ∈ entries, entryConfidence version text target entry = confidence) ∧
    ∀ entry ∈ entries,
      confidenceRank (entryConfidence version text target entry) ≤ confidenceRank confidence

variable {version text}

theorem entryVerdict?_ne_low {target : String} {entry : CpeMatch}
    {verdict : CveMatchConfidence × String}
    (h : entryVerdict? version text target entry = some verdict) : verdict.1 ≠ .low := by
  unfold entryVerdict? at h
  simp only at h
  split at h
  · cases h
    exact fun heq => by cases heq
  · split at h
    · cases h
      exact fun heq => by cases heq
    · split at h
      · cases h
        exact fun heq => by cases heq
      · cases h

theorem entryConfidence_of_known {target : String} (h : unknownVersion target = false)
    (entry : CpeMatch) : entryConfidence version text target entry =
      ((entryVerdict? version text target entry).map Prod.fst).getD .low := by
  unfold entryConfidence
  rw [if_neg (by rw [h]; exact Bool.false_ne_true)]

/-- The loop stops at the first entry that justifies anything. -/
theorem findSome_fst {target : String} (h : unknownVersion target = false)
    (entries : List CpeMatch) :
    (entries.findSome? (entryVerdict? version text target)).map Prod.fst =
      (entries.find? fun entry => entryConfidence version text target entry != .low).map
        (entryConfidence version text target) := by
  induction entries with
  | nil => rfl
  | cons entry rest ih =>
      rw [List.findSome?_cons, List.find?_cons]
      have hentry : entryConfidence version text target entry =
          ((entryVerdict? version text target entry).map Prod.fst).getD .low :=
        entryConfidence_of_known h entry
      cases hverdict : entryVerdict? version text target entry with
      | none =>
          rw [hverdict] at hentry
          rw [hentry]
          exact ih
      | some verdict =>
          rw [hverdict] at hentry
          have hne : (verdict.1 != CveMatchConfidence.low) = true := by
            simpa using entryVerdict?_ne_low hverdict
          have hconfidence : entryConfidence version text target entry = verdict.1 := hentry
          rw [hconfidence, hne]
          exact congrArg some hconfidence.symm

variable (version text)

/-- **The first that justifies anything.** -/
theorem nvdMatchConfidence_fst (configurations : CpeTree) (request : CveQuery) :
    (nvdMatchConfidence version text configurations request).1 =
      (((request.matching text (walkCpeMatches configurations)).find? fun entry =>
        entryConfidence version text request.target entry != .low).map
          (entryConfidence version text request.target)).getD .low := by
  unfold nvdMatchConfidence
  simp only
  generalize request.matching text (walkCpeMatches configurations) = entries
  cases hunknown : unknownVersion request.target with
  | true =>
      cases entries with
      | nil => rfl
      | cons entry rest => simp [entryConfidence, hunknown]
  | false =>
      rw [← findSome_fst hunknown]
      split
      · rename_i hnil
        rw [hnil]
        rfl
      · rw [if_neg Bool.false_ne_true]
        cases entries.findSome? (entryVerdict? version text request.target) <;> rfl

/-! ### The order of the entries -/

/-- No two of the entries justify different confidences. -/
def OneConfidence (target : String) (entries : List CpeMatch) : Prop :=
  ∀ entry ∈ entries, ∀ other ∈ entries, entryConfidence version text target entry ≠ .low →
    entryConfidence version text target other ≠ .low →
      entryConfidence version text target entry = entryConfidence version text target other

/-- The configurations of a record with the same entries, in some order. -/
def SameEntries (configurations configurations' : CpeTree) : Prop :=
  (walkCpeMatches configurations').Perm (walkCpeMatches configurations)

variable {version text}

theorem walk_vulnerable (configurations : CpeTree) :
    ∀ entry ∈ walkCpeMatches configurations, entry.vulnerable = true := by
  refine walkCpeMatches.induct
    (fun tree => ∀ entry ∈ walkCpeMatches tree, entry.vulnerable = true)
    (fun items => ∀ entry ∈ walkItems items, entry.vulnerable = true) ?_ ?_ ?_ ?_ configurations
  · intro items ih
    rw [walkCpeMatches]
    exact ih
  · intro cpeMatch nodes children nested ihNodes ihChildren ihNested entry hentry
    rw [walkCpeMatches] at hentry
    rcases List.mem_append.mp hentry with hentry | hentry
    · rcases List.mem_append.mp hentry with hentry | hentry
      · rcases List.mem_append.mp hentry with hentry | hentry
        · exact (List.mem_filter.mp hentry).2
        · exact ihNodes entry hentry
      · exact ihChildren entry hentry
    · exact ihNested entry hentry
  · intro entry hentry
    rw [walkItems] at hentry
    cases hentry
  · intro item rest ihItem ihRest entry hentry
    rw [walkItems] at hentry
    rcases List.mem_append.mp hentry with hentry | hentry
    · exact ihItem entry hentry
    · exact ihRest entry hentry

/-- What was found first justifies the most, if nothing else justifies anything different. -/
theorem highest_of_one {target : String} {entries : List CpeMatch}
    (h : OneConfidence version text target entries) :
    Highest version text target entries
      (((entries.find? fun entry => entryConfidence version text target entry != .low).map
        (entryConfidence version text target)).getD .low) := by
  cases hfind : entries.find? fun entry => entryConfidence version text target entry != .low with
  | none =>
      refine ⟨.inl rfl, fun entry hentry => ?_⟩
      have hlow := List.find?_eq_none.mp hfind entry hentry
      simp only [bne_iff_ne, ne_eq, not_not] at hlow
      rw [hlow]
      exact Nat.zero_le _
  | some found =>
      have hmem := List.mem_of_find?_eq_some hfind
      have hne := List.find?_some hfind
      rw [bne_iff_ne] at hne
      refine ⟨.inr ⟨found, hmem, rfl⟩, fun entry hentry => ?_⟩
      by_cases hlow : entryConfidence version text target entry = .low
      · rw [hlow]
        exact Nat.zero_le _
      · rw [h entry hentry found hmem hlow hne]
        exact Nat.le_refl _

theorem confidenceRank_inj {a b : CveMatchConfidence} (h : confidenceRank a = confidenceRank b) :
    a = b := by
  cases a <;> cases b <;> first | rfl | cases h

theorem Highest.unique {target : String} {entries : List CpeMatch} {a b : CveMatchConfidence}
    (ha : Highest version text target entries a) (hb : Highest version text target entries b) :
    a = b := by
  have hle : ∀ {x y : CveMatchConfidence}, Highest version text target entries x →
      Highest version text target entries y → confidenceRank x ≤ confidenceRank y := by
    intro x y hx hy
    rcases hx.1 with rfl | ⟨entry, hentry, rfl⟩
    · exact Nat.zero_le _
    · exact hy.2 entry hentry
  exact confidenceRank_inj (Nat.le_antisymm (hle ha hb) (hle hb ha))

theorem Highest.perm {target : String} {entries entries' : List CpeMatch} {a : CveMatchConfidence}
    (h : Highest version text target entries a) (hperm : entries'.Perm entries) :
    Highest version text target entries' a := by
  refine ⟨?_, fun entry hentry => h.2 entry (hperm.mem_iff.mp hentry)⟩
  rcases h.1 with hlow | ⟨entry, hentry, heq⟩
  · exact .inl hlow
  · exact .inr ⟨entry, hperm.mem_iff.mpr hentry, heq⟩

/-- Any entry may come first. -/
theorem exists_entry_first (configurations : CpeTree) (request : CveQuery) {entry : CpeMatch}
    (hentry : entry ∈ request.matching text (walkCpeMatches configurations))
    (hne : entryConfidence version text request.target entry ≠ .low) :
    ∃ configurations', SameEntries configurations configurations' ∧
      (nvdMatchConfidence version text configurations' request).1 =
        entryConfidence version text request.target entry := by
  obtain ⟨hmem, hmatches⟩ := List.mem_filter.mp hentry
  let others := (walkCpeMatches configurations).erase entry
  have hperm : (entry :: others).Perm (walkCpeMatches configurations) :=
    (List.perm_cons_erase hmem).symm
  have hwalk : walkCpeMatches (.dict (entry :: others) (.list []) (.list []) (.list [])) =
      entry :: others := by
    have hfilter : (entry :: others).filter CpeMatch.vulnerable = entry :: others :=
      List.filter_eq_self.mpr fun other hother =>
        walk_vulnerable configurations other (hperm.mem_iff.mp hother)
    simp only [walkCpeMatches, walkItems, List.append_nil]
    exact hfilter
  refine ⟨_, hwalk ▸ hperm, ?_⟩
  have hfirst : request.matching text (entry :: others) = entry :: request.matching text others :=
    List.filter_cons_of_pos hmatches
  rw [nvdMatchConfidence_fst, hwalk, hfirst, List.find?_cons_of_pos (by simpa using hne)]
  rfl

variable (version text)

/-- **The order of the intelligence data.**  In every order of the entries the
confidence is the same, and the highest that one of them justifies, exactly if
no two of them justify different ones. -/
theorem match_confidence_iff (configurations : CpeTree) (request : CveQuery) :
    (∀ configurations', SameEntries configurations configurations' →
      (nvdMatchConfidence version text configurations' request).1 =
          (nvdMatchConfidence version text configurations request).1 ∧
        Highest version text request.target
          (request.matching text (walkCpeMatches configurations))
          (nvdMatchConfidence version text configurations' request).1) ↔
      OneConfidence version text request.target
        (request.matching text (walkCpeMatches configurations)) := by
  constructor
  · intro hall entry hentry other hother hne hne'
    obtain ⟨first, hsame, hfirst⟩ := exists_entry_first configurations request hentry hne
    obtain ⟨second, hsame', hsecond⟩ := exists_entry_first configurations request hother hne'
    rw [← hfirst, ← hsecond, (hall first hsame).1, (hall second hsame').1]
  · intro hone
    have hhighest : ∀ configurations', SameEntries configurations configurations' →
        Highest version text request.target
          (request.matching text (walkCpeMatches configurations))
          (nvdMatchConfidence version text configurations' request).1 := by
      intro configurations' hsame
      have hperm : (request.matching text (walkCpeMatches configurations')).Perm
          (request.matching text (walkCpeMatches configurations)) := hsame.filter _
      have hone' : OneConfidence version text request.target
          (request.matching text (walkCpeMatches configurations')) :=
        fun entry hentry other hother => hone entry (hperm.mem_iff.mp hentry) other
          (hperm.mem_iff.mp hother)
      rw [nvdMatchConfidence_fst]
      exact (highest_of_one hone').perm hperm.symm
    exact fun configurations' hsame => ⟨(hhighest configurations' hsame).unique
      (hhighest configurations (List.Perm.refl _)), hhighest configurations' hsame⟩

end

/-! ### A weak entry first -/

/-- `2.4.49` is a version. -/
def oneRelease (value : String) : Option Nat := if value = "2.4.49" then some 0 else none

/-- An entry without a version and without bounds, and one for the version. -/
def anyVersion : CpeMatch := { criteria := "cpe:2.3:a:apache:http_server:*:*:*:*:*:*:*:*" }

def thisVersion : CpeMatch := { criteria := "cpe:2.3:a:apache:http_server:2.4.49:*:*:*:*:*:*:*" }

def httpServer : CveQuery := { vendor := "apache", product := "http_server", version := "2.4.49" }

/-- **The first entry hides the second.** -/
theorem weak_entry_hides_exact :
    (nvdMatchConfidence oneRelease asciiTables
        (.dict [anyVersion, thisVersion] (.list []) (.list []) (.list [])) httpServer).1 = .medium ∧
      (nvdMatchConfidence oneRelease asciiTables
        (.dict [thisVersion, anyVersion] (.list []) (.list []) (.list [])) httpServer).1 = .exact ∧
        ¬ Highest oneRelease asciiTables httpServer.target [anyVersion, thisVersion] .medium := by
  refine ⟨by decide +kernel, by decide +kernel, fun h => ?_⟩
  have hexact : entryConfidence oneRelease asciiTables httpServer.target thisVersion = .exact := by
    decide +kernel
  have hle := h.2 thisVersion (by decide)
  rw [hexact] at hle
  exact absurd hle (by decide)

end Workbench.CveMatching
