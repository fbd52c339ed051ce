import CyberWorkbench.CveMatching
import CyberWorkbench.LastWrite

/-!
# EPSS enrichment

`service/work_project/cve._enrich_candidates`: the CVE ids of all candidates and
aliases are pooled and sorted, and the scores of the first fifty are asked for.

`enrichment_complete_iff`: each candidate whose score the source knows carries
one, exactly if each has a known id among the first fifty.
-/

namespace Workbench.CveEnrichment

open CveMatching WorkProject LastWrite

/-! ### Candidates -/

/-- The fields of `CveCandidateSchema` that enrichment reads and sets. -/
structure Candidate where
  cveId : String
  aliases : List String := []
  knownExploited : Bool := false
  kevDueDate : String := ""
  ransomwareUse : String := ""
  epssScore : Option Rat := none
  epssPercentile : Option Rat := none
  deriving DecidableEq, Repr

/-- A `CveDiscoveryResponse`. -/
structure Discovery where
  items : List Candidate
  warnings : List String := []
  deriving DecidableEq, Repr

/-- An item of `data` in an answer of the EPSS source; `scores` is absent where
they are no numbers. -/
structure EpssItem where
  cve : String
  scores : Option (Rat × Rat)

/-- An entry of the KEV catalogue. -/
structure KevItem where
  dueDate : String := ""
  ransomwareUse : String := ""

variable (text : TextTables)

/-- `_CVE_RE.fullmatch`. -/
def isCveId (value : String) : Bool :=
  match value.toList with
  | c :: v :: e :: dash :: y :: ye :: yea :: year :: dash' :: number =>
      (c == 'C' || c == 'c') && (v == 'V' || v == 'v') && (e == 'E' || e == 'e') &&
        dash == '-' && [y, ye, yea, year].all (fun digit => (text.decimal digit).isSome) &&
          dash' == '-' && decide (4 ≤ number.length) &&
            number.all fun digit => (text.decimal digit).isSome
  | _ => false

/-- `_unique_strings`. -/
def uniqueStrings (values : List String) : List String := normalizeStringList values

/-- `_candidate_cve_ids`. -/
def candidateCveIds (item : Candidate) : List String :=
  uniqueStrings (((item.cveId :: item.aliases).filter (isCveId text)).map text.upper)

/-- The ids of all candidates, each once and sorted. -/
def pooledIds (items : List Candidate) : List String :=
  (items.flatMap (candidateCveIds text)).dedup.insertionSort (· ≤ ·)

/-! ### The sources -/

/-- What `_fetch_epss` asks for. -/
def asked (ids : List String) : List String := ids.take 50

/-- One item of an answer is written under its id. -/
def noteScores (result : List (String × (Rat × Rat))) (item : EpssItem) :
    List (String × (Rat × Rat)) :=
  match item.scores with
  | some scores => write (text.upper item.cve) scores result
  | none => result

/-- `_fetch_epss`, with the answer of the source. -/
def fetchEpss (answer : List String → Except String (List EpssItem)) (ids : List String) :
    Except String (List (String × (Rat × Rat))) :=
  (answer (asked ids)).map fun data => data.foldl (noteScores text) []

def Candidate.withEpss (item : Candidate) (found : Option (Rat × Rat)) : Candidate :=
  match found with
  | some scores => { item with epssScore := some scores.1, epssPercentile := some scores.2 }
  | none => item

def Candidate.withKev (item : Candidate) (found : Option KevItem) : Candidate :=
  match found with
  | some entry => { item with
      knownExploited := true
      kevDueDate := textOr entry.dueDate item.kevDueDate
      ransomwareUse := textOr entry.ransomwareUse item.ransomwareUse }
  | none => item

/-- `_enrich_candidates`, with what `_fetch_kev` returns. -/
def enrichCandidates (answer : List String → Except String (List EpssItem))
    (kev : Except String (List (String × KevItem))) (result : Discovery) : Discovery :=
  let cveIds := pooledIds text result.items
  if cveIds = [] then result
  else
    let (epss, warned) := match fetchEpss text answer cveIds with
      | .ok epss => (epss, result.warnings)
      | .error message => ([], result.warnings ++ ["EPSS 丰富失败: " ++ message])
    let (kev, warned) := match kev with
      | .ok kev => (kev, warned)
      | .error message => ([], warned ++ ["CISA KEV 丰富失败: " ++ message])
    { items := result.items.map fun item =>
        (item.withEpss ((candidateCveIds text item).findSome? (lookup epss))).withKev
          ((candidateCveIds text item).findSome? (lookup kev))
      warnings := warned }

/-! ### Completeness -/

/-- The source knows these scores, and answers with those of the ids asked for. -/
def Answers (known : String → Option (Rat × Rat))
    (answer : List String → Except String (List EpssItem)) : Prop :=
  ∀ ids, ∃ data, answer ids = .ok data ∧
    (∀ item ∈ data, text.upper item.cve ∈ ids ∧ item.scores = known (text.upper item.cve)) ∧
      ∀ id ∈ ids, (known id).isSome = true → ∃ item ∈ data, text.upper item.cve = id

/-- The candidate carries a score that is known for one of its ids. -/
def Carries (known : String → Option (Rat × Rat)) (item item' : Candidate) : Prop :=
  ∃ id ∈ candidateCveIds text item, ∃ scores, known id = some scores ∧
    item'.epssScore = some scores.1 ∧ item'.epssPercentile = some scores.2

/-- Fewer than fifty of the pooled ids come before this one. -/
def Early (items : List Candidate) (id : String) : Prop :=
  ((items.flatMap (candidateCveIds text)).dedup.filter fun other => decide (other < id)).length < 50

/-- The source knows a score under one of the candidate's ids. -/
def Known (known : String → Option (Rat × Rat)) (item : Candidate) : Prop :=
  ∃ id ∈ candidateCveIds text item, (known id).isSome = true

/-- In a sorted list, the place of an element is the number of smaller ones. -/
theorem mem_take_iff {α : Type} [LinearOrder α] {l : List α} (hsorted : l.Pairwise (· < ·)) {x : α}
    (hx : x ∈ l) (k : Nat) :
    x ∈ l.take k ↔ (l.filter fun y => decide (y < x)).length < k := by
  obtain ⟨before, after, rfl⟩ := List.append_of_mem hx
  obtain ⟨-, hafter, hbefore⟩ := List.pairwise_append.mp hsorted
  have hless : ∀ y ∈ before, y < x := fun y hy => hbefore y hy x List.mem_cons_self
  have hmore : ∀ y ∈ after, x < y := (List.pairwise_cons.mp hafter).1
  have hfilter : ((before ++ x :: after).filter fun y => decide (y < x)) = before := by
    rw [List.filter_append, List.filter_eq_self.mpr fun y hy => decide_eq_true (hless y hy),
      List.filter_eq_nil_iff.mpr, List.append_nil]
    intro y hy
    rcases List.mem_cons.mp hy with rfl | hy
    · simp
    · simpa using le_of_lt (hmore y hy)
  rw [hfilter]
  constructor
  · intro hmem
    refine Nat.lt_of_not_le fun hle => ?_
    rw [List.take_append_of_le_length hle] at hmem
    exact lt_irrefl x (hless x (List.mem_of_mem_take hmem))
  · intro hlt
    refine List.mem_take_iff_getElem.mpr ⟨before.length, ?_, ?_⟩
    · simp only [List.length_append, List.length_cons]
      omega
    · simp

theorem mem_pooledIds {items : List Candidate} {id : String} :
    id ∈ pooledIds text items ↔ ∃ item ∈ items, id ∈ candidateCveIds text item := by
  unfold pooledIds
  rw [List.mem_insertionSort, List.mem_dedup, List.mem_flatMap]

theorem pooledIds_sorted (items : List Candidate) : (pooledIds text items).Pairwise (· < ·) := by
  have hle : (pooledIds text items).Pairwise (· ≤ ·) := List.pairwise_insertionSort _ _
  have hnodup : (pooledIds text items).Nodup :=
    (List.perm_insertionSort _ _).nodup_iff.mpr (List.nodup_dedup _)
  exact (hle.and hnodup).imp fun h => lt_of_le_of_ne h.1 h.2

/-- What is asked for. -/
theorem mem_asked_iff {items : List Candidate} {id : String} (h : id ∈ pooledIds text items) :
    id ∈ asked (pooledIds text items) ↔ Early text items id := by
  unfold asked Early
  rw [mem_take_iff (pooledIds_sorted text items) h]
  have hperm := (List.perm_insertionSort (· ≤ ·) (items.flatMap (candidateCveIds text)).dedup).filter
    fun other => decide (other < id)
  rw [← hperm.length_eq]
  rfl

theorem lookup_noteScores {known : String → Option (Rat × Rat)} {data : List EpssItem}
    (h : ∀ item ∈ data, item.scores = known (text.upper item.cve))
    (result : List (String × (Rat × Rat))) (id : String) :
    lookup (data.foldl (noteScores text) result) id =
      if ∃ item ∈ data, text.upper item.cve = id ∧ (known id).isSome = true then known id
      else lookup result id := by
  induction data generalizing result with
  | nil => simp
  | cons item rest ih =>
      have hitem := h item List.mem_cons_self
      rw [List.foldl_cons, ih (fun other hother => h other (List.mem_cons_of_mem _ hother))]
      by_cases hrest : ∃ other ∈ rest, text.upper other.cve = id ∧ (known id).isSome = true
      · rw [if_pos hrest, if_pos]
        obtain ⟨other, hother, heq⟩ := hrest
        exact ⟨other, List.mem_cons_of_mem _ hother, heq⟩
      · rw [if_neg hrest]
        unfold noteScores
        cases hscores : item.scores with
        | none =>
            rw [if_neg]
            rintro ⟨other, hother, heq, hsome⟩
            rcases List.mem_cons.mp hother with rfl | hother
            · rw [← heq, ← hitem, hscores] at hsome
              cases hsome
            · exact hrest ⟨other, hother, heq, hsome⟩
        | some scores =>
            simp only [lookup_write]
            by_cases heq : text.upper item.cve = id
            · have hknown : known id = some scores := by rw [← heq, ← hitem, hscores]
              rw [if_pos heq, if_pos ⟨item, List.mem_cons_self, heq, by rw [hknown]; rfl⟩, hknown]
            · rw [if_neg heq, if_neg]
              rintro ⟨other, hother, heq', hsome⟩
              rcases List.mem_cons.mp hother with rfl | hother
              · exact heq heq'
              · exact hrest ⟨other, hother, heq', hsome⟩

/-- **The dictionary of the scores**: those known of the ids asked for. -/
theorem lookup_fetched {known : String → Option (Rat × Rat)}
    {answer : List String → Except String (List EpssItem)} (h : Answers text known answer)
    (ids : List String) : ∃ epss, fetchEpss text answer ids = .ok epss ∧
      ∀ id, lookup epss id = if id ∈ asked ids then known id else none := by
  obtain ⟨data, hanswer, hitems, hall⟩ := h (asked ids)
  refine ⟨data.foldl (noteScores text) [], by rw [fetchEpss, hanswer]; rfl, fun id => ?_⟩
  rw [lookup_noteScores text (fun item hitem => (hitems item hitem).2)]
  by_cases hid : id ∈ asked ids
  · rw [if_pos hid]
    cases hknown : known id with
    | none => simp [lookup]
    | some scores =>
        obtain ⟨item, hitem, heq⟩ := hall id hid (by rw [hknown]; rfl)
        exact if_pos ⟨item, hitem, heq, rfl⟩
  · rw [if_neg hid, if_neg]
    · rfl
    · rintro ⟨item, hitem, rfl, -⟩
      exact hid (hitems item hitem).1

/-! ### What a candidate carries -/

@[simp] theorem withKev_epss (item : Candidate) (found : Option KevItem) :
    (item.withKev found).epssScore = item.epssScore ∧
      (item.withKev found).epssPercentile = item.epssPercentile := by
  cases found <;> exact ⟨rfl, rfl⟩

/-- What is found first among the ids asked for. -/
theorem carries_iff {known : String → Option (Rat × Rat)} {epss : List (String × (Rat × Rat))}
    {ids : List String} (hepss : ∀ id, lookup epss id = if id ∈ ids then known id else none)
    {item : Candidate} (hnew : item.epssScore = none) (found : Option KevItem) :
    Carries text known item
        ((item.withEpss ((candidateCveIds text item).findSome? (lookup epss))).withKev found) ↔
      ∃ id ∈ candidateCveIds text item, (known id).isSome = true ∧ id ∈ ids := by
  unfold Carries
  simp only [withKev_epss]
  constructor
  · rintro ⟨id, -, scores, -, hscore, -⟩
    cases hfirst : (candidateCveIds text item).findSome? (lookup epss) with
    | none =>
        rw [hfirst, Candidate.withEpss, hnew] at hscore
        cases hscore
    | some found =>
        obtain ⟨id, hid, hlookup⟩ := List.exists_of_findSome?_eq_some hfirst
        rw [hepss] at hlookup
        split at hlookup
        · rename_i hmem
          exact ⟨id, hid, by rw [hlookup]; rfl, hmem⟩
        · cases hlookup
  · rintro ⟨id, hid, hsome, hmem⟩
    have hfirst : ((candidateCveIds text item).findSome? (lookup epss)).isSome = true := by
      rw [List.findSome?_isSome_iff]
      exact ⟨id, hid, by rw [hepss, if_pos hmem]; exact hsome⟩
    obtain ⟨scores, hfirst⟩ := Option.isSome_iff_exists.mp hfirst
    obtain ⟨id', hid', hlookup⟩ := List.exists_of_findSome?_eq_some hfirst
    rw [hepss] at hlookup
    split at hlookup
    · exact ⟨id', hid', scores, hlookup, by rw [hfirst]; exact ⟨rfl, rfl⟩⟩
    · cases hlookup

/-- **Enrichment is complete** for candidates that come without a score, exactly
if each of which the source knows a score has a known id among the first fifty
of all. -/
theorem enrichment_complete_iff {known : String → Option (Rat × Rat)}
    {answer : List String → Except String (List EpssItem)} (hanswer : Answers text known answer)
    (kev : Except String (List (String × KevItem))) {result : Discovery}
    (hnew : ∀ item ∈ result.items, item.epssScore = none) :
    (∀ (i : Nat) item item', result.items[i]? = some item →
      (enrichCandidates text answer kev result).items[i]? = some item' →
        Known text known item → Carries text known item item') ↔
      ∀ item ∈ result.items, Known text known item →
        ∃ id ∈ candidateCveIds text item, (known id).isSome = true ∧ Early text result.items id := by
  have hpool : ∀ item ∈ result.items, ∀ id ∈ candidateCveIds text item,
      id ∈ pooledIds text result.items :=
    fun item hitem id hid => (mem_pooledIds text).mpr ⟨item, hitem, hid⟩
  obtain ⟨epss, hfetch, hepss⟩ := lookup_fetched text hanswer (pooledIds text result.items)
  have hcarries : ∀ item ∈ result.items, ∀ found : Option KevItem, Carries text known item
      ((item.withEpss ((candidateCveIds text item).findSome? (lookup epss))).withKev found) ↔
        ∃ id ∈ candidateCveIds text item, (known id).isSome = true ∧
          Early text result.items id := by
    intro item hitem found
    rw [carries_iff text hepss (hnew item hitem)]
    constructor
    · rintro ⟨id, hid, hsome, hmem⟩
      exact ⟨id, hid, hsome, (mem_asked_iff text (hpool item hitem id hid)).mp hmem⟩
    · rintro ⟨id, hid, hsome, hearly⟩
      exact ⟨id, hid, hsome, (mem_asked_iff text (hpool item hitem id hid)).mpr hearly⟩
  by_cases hnone : pooledIds text result.items = []
  · -- nobody has an id
    have hunknown : ∀ item ∈ result.items, ¬ Known text known item := by
      rintro item hitem ⟨id, hid, -⟩
      have hmem := hpool item hitem id hid
      rw [hnone] at hmem
      cases hmem
    exact ⟨fun _ item hitem hknown => absurd hknown (hunknown item hitem),
      fun _ i item item' hi _ hknown => absurd hknown (hunknown item (List.mem_of_getElem? hi))⟩
  · obtain ⟨kevs, hitems⟩ : ∃ kevs, (enrichCandidates text answer kev result).items =
        result.items.map fun item =>
          (item.withEpss ((candidateCveIds text item).findSome? (lookup epss))).withKev
            ((candidateCveIds text item).findSome? (lookup kevs)) := by
      unfold enrichCandidates
      simp only [hnone, if_false, hfetch]
      cases kev with
      | ok kevs => exact ⟨kevs, rfl⟩
      | error message => exact ⟨[], rfl⟩
    rw [hitems]
    constructor
    · intro hall item hitem hknown
      obtain ⟨i, hi⟩ := List.mem_iff_getElem?.mp hitem
      exact (hcarries item hitem _).mp
        (hall i item _ hi (by rw [List.getElem?_map, hi]; rfl) hknown)
    · intro hall i item item' hi hi' hknown
      have hitem := List.mem_of_getElem? hi
      rw [List.getElem?_map, hi] at hi'
      obtain rfl := Option.some.inj hi'
      exact (hcarries item hitem _).mpr (hall item hitem hknown)

/-! ### The fifty-first id -/

/-- A source that knows one score. -/
def newestKnown (id : String) : Option (Rat × Rat) :=
  if id = "CVE-2026-10050" then some (9 / 10, 99 / 100) else none

def newestAnswer (ids : List String) : Except String (List EpssItem) :=
  .ok ((ids.filter fun id => (newestKnown id).isSome).map fun id => ⟨id, newestKnown id⟩)

theorem newest_answers : Answers asciiTables newestKnown newestAnswer := by
  have hknown : ∀ id, (newestKnown id).isSome = true → id = "CVE-2026-10050" := by
    intro id hsome
    unfold newestKnown at hsome
    split at hsome
    · assumption
    · cases hsome
  have hupper : asciiTables.upper "CVE-2026-10050" = "CVE-2026-10050" := by decide
  intro ids
  refine ⟨_, rfl, fun item hitem => ?_, fun id hid hsome => ?_⟩
  · obtain ⟨id, hid, rfl⟩ := List.mem_map.mp hitem
    obtain ⟨hid, hsome⟩ := List.mem_filter.mp hid
    obtain rfl := hknown id hsome
    exact ⟨hupper.symm ▸ hid, by rw [hupper]⟩
  · refine ⟨_, List.mem_map.mpr ⟨id, List.mem_filter.mpr ⟨hid, hsome⟩, rfl⟩, ?_⟩
    rw [hknown id hsome]
    exact hupper

/-- An advisory, and what becomes of it. -/
def advisory : Candidate := { cveId := "CVE-2026-10050", aliases := ["GHSA-x"] }

def scoredAdvisory : Candidate :=
  { advisory with epssScore := some (9 / 10), epssPercentile := some (99 / 100) }

theorem enriches_one : Carries asciiTables newestKnown advisory scoredAdvisory := by
  have hids : candidateCveIds asciiTables advisory = ["CVE-2026-10050"] := by decide +kernel
  have hearly : Early asciiTables [advisory] "CVE-2026-10050" := by
    unfold Early
    decide +kernel
  have hafter : (enrichCandidates asciiTables newestAnswer (.ok []) { items := [advisory] }).items[0]? =
      some scoredAdvisory := by decide +kernel
  have hid : "CVE-2026-10050" ∈ candidateCveIds asciiTables advisory := hids ▸ List.mem_singleton_self _
  have hnew : ∀ item ∈ ({ items := [advisory] } : Discovery).items, item.epssScore = none := by
    decide
  refine (enrichment_complete_iff asciiTables newest_answers (.ok []) hnew).mpr ?_ 0 advisory
    scoredAdvisory rfl hafter ⟨_, hid, rfl⟩
  intro item hitem _
  obtain rfl := List.mem_singleton.mp hitem
  exact ⟨_, hid, rfl, hearly⟩

/-- Fifty-one findings, the newest of which has a score. -/
def fiftyOne : Discovery :=
  { items := (List.range 51).map fun n => { cveId := "CVE-2026-" ++ toString (10000 + n) } }

/-- **The newest is not asked for.** -/
theorem newest_not_enriched :
    Known asciiTables newestKnown { cveId := "CVE-2026-10050" } ∧
      fiftyOne.items[50]? = some { cveId := "CVE-2026-10050" } ∧
        (enrichCandidates asciiTables newestAnswer (.ok []) fiftyOne).items[50]? =
          some { cveId := "CVE-2026-10050" } ∧
            ¬ Carries asciiTables newestKnown { cveId := "CVE-2026-10050" }
              { cveId := "CVE-2026-10050" } := by
  refine ⟨⟨"CVE-2026-10050", by decide +kernel, rfl⟩, by decide +kernel, by decide +kernel, ?_⟩
  rintro ⟨id, -, scores, -, hscore, -⟩
  cases hscore

end Workbench.CveEnrichment
