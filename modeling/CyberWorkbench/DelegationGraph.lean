import CyberWorkbench.LastWrite
import Mathlib.Logic.Relation

/-!
# The delegation graph

`core/agent/registry.AgentRegistry`: what its constructor does with a tuple of
agent specs.  The specs are kept by code, and from every code the mounted
subagents are followed with the path that led to them; a mount of an agent by
itself, or of one that is on the path, raises `ValueError`.

The path is the only memory of the recursion.  It ends because the declared
codes that are not on the path get fewer (`fresh_concat_lt`), and
`agentRegistry_raises_iff` says that it raises exactly for a cycle.
-/

namespace Workbench.DelegationGraph

open LastWrite

structure SubagentMount where
  code : String
  deriving DecidableEq, Repr

/-- `AgentSpec`, without the tools. -/
structure AgentSpec where
  code : String
  subagents : List SubagentMount := []
  deriving DecidableEq, Repr

/-- `AgentRegistry._specs` -/
abbrev Specs := List (String × AgentSpec)

/-- The declared codes that are not on a path. -/
def fresh (specs : Specs) (path : List String) : Nat :=
  ((specs.map Prod.fst).filter fun code => !path.contains code).length

theorem fresh_concat (specs : Specs) (path : List String) (code : String) :
    fresh specs (path ++ [code]) = (((specs.map Prod.fst).filter fun other => !path.contains other).filter
      fun other => !decide (other = code)).length := by
  unfold fresh
  rw [List.filter_filter]
  congr 1
  refine List.filter_congr fun other _ => ?_
  by_cases hother : other = code <;> simp [hother]

theorem fresh_concat_le (specs : Specs) (path : List String) (code : String) :
    fresh specs (path ++ [code]) ≤ fresh specs path := by
  rw [fresh_concat]
  exact List.length_filter_le _ _

/-- A declared code that is put on the path is one less to come. -/
theorem fresh_concat_lt {specs : Specs} {path : List String} {code : String}
    (hdeclared : code ∈ specs.map Prod.fst) (hpath : code ∉ path) :
    fresh specs (path ++ [code]) < fresh specs path := by
  rw [fresh_concat]
  refine List.length_filter_lt_length_iff_exists.mpr ⟨code, List.mem_filter.mpr ⟨hdeclared, ?_⟩, ?_⟩
  · simpa using hpath
  · simp

/-- What is left of the recursion at a code: an undeclared one has no mounts. -/
def callsLeft (specs : Specs) (code : String) (path : List String) : Nat :=
  2 * fresh specs path + (lookup specs code).isSome.toNat

theorem callsLeft_declared {specs : Specs} {code : String} {spec : AgentSpec}
    (h : lookup specs code = some spec) (path : List String) :
    callsLeft specs code path = 2 * fresh specs path + 1 := by
  unfold callsLeft
  rw [h]
  rfl

theorem callsLeft_concat_lt {specs : Specs} {code : String} {path : List String} (h : code ∉ path) :
    callsLeft specs code (path ++ [code]) < 2 * fresh specs path + 1 := by
  cases hlookup : lookup specs code with
  | none =>
      have hle := fresh_concat_le specs path code
      have hleft : callsLeft specs code (path ++ [code]) = 2 * fresh specs (path ++ [code]) := by
        unfold callsLeft
        rw [hlookup]
        rfl
      omega
  | some spec =>
      have hlt := fresh_concat_lt (mem_keys_iff.mpr ⟨spec, hlookup⟩) h
      rw [callsLeft_declared hlookup]
      omega

mutual

/-- `_check_subagent_chain`: an error is the text of the `ValueError`. -/
def checkSubagentChain (specs : Specs) (code : String) (path : List String) : Except String Unit :=
  match h : lookup specs code with
  | none => .ok ()
  | some spec => checkMounts specs code path spec.subagents
termination_by (callsLeft specs code path, 1, 0)
decreasing_by
  rw [callsLeft_declared h]
  exact Prod.Lex.right _ (Prod.Lex.left _ _ Nat.zero_lt_one)

/-- Its loop over the mounts. -/
def checkMounts (specs : Specs) (code : String) (path : List String) :
    List SubagentMount → Except String Unit
  | [] => .ok ()
  | mount :: rest =>
      if mount.code = code then .error ("agent " ++ code ++ " cannot mount itself as a subagent")
      else if h : mount.code ∈ path then
        .error ("circular subagent mount detected: " ++ " -> ".intercalate (path ++ [mount.code]))
      else do
        checkSubagentChain specs mount.code (path ++ [mount.code])
        checkMounts specs code path rest
termination_by mounts => (2 * fresh specs path + 1, 0, mounts.length)
decreasing_by
  · exact Prod.Lex.left _ _ (callsLeft_concat_lt h)
  · exact Prod.Lex.right _ (Prod.Lex.right _ (Nat.lt_succ_self _))

end

/-- `_validate_subagent_graph` -/
def validateSubagentGraph (specs : Specs) : List String → Except String Unit
  | [] => .ok ()
  | code :: rest => do
      checkSubagentChain specs code [code]
      validateSubagentGraph specs rest

/-- `AgentRegistry(specs)` -/
def agentRegistry (specs : List AgentSpec) : Except String Specs := do
  let declared := writes AgentSpec.code specs
  validateSubagentGraph declared (declared.map Prod.fst)
  pure declared

/-! ### The mount relation -/

/-- One declared agent mounts another one, as the specs are kept. -/
def Mounts (specs : Specs) (a b : String) : Prop :=
  (∃ spec, lookup specs a = some spec ∧ ⟨b⟩ ∈ spec.subagents) ∧ ∃ spec, lookup specs b = some spec

/-- The spec that counts for a code is the last one with it. -/
def specOf (specs : List AgentSpec) (code : String) : Option AgentSpec :=
  lastOf (fun spec => decide (spec.code = code)) specs

/-- **The mount relation, restricted to declared codes.** -/
def MountsDeclared (specs : List AgentSpec) (a b : String) : Prop :=
  (∃ spec, specOf specs a = some spec ∧ ⟨b⟩ ∈ spec.subagents) ∧ ∃ spec ∈ specs, spec.code = b

theorem mounts_writes {specs : List AgentSpec} {a b : String} :
    Mounts (writes AgentSpec.code specs) a b ↔ MountsDeclared specs a b := by
  unfold Mounts MountsDeclared specOf
  rw [lookup_writes, lookup_writes]
  refine and_congr_right fun _ => ?_
  constructor
  · rintro ⟨spec, hspec⟩
    obtain ⟨hmem, hcode⟩ := of_lastOf hspec
    exact ⟨spec, hmem, of_decide_eq_true hcode⟩
  · rintro ⟨spec, hmem, hcode⟩
    rw [← Option.ne_none_iff_exists', Ne, lastOf_eq_none]
    intro hnone
    exact absurd (decide_eq_true hcode) (Bool.eq_false_iff.mp (hnone spec hmem))

/-! ### An error is a cycle -/

/-- Every code on the path mounts its way down to the code where the recursion
is. -/
def LeadsTo (specs : Specs) (path : List String) (code : String) : Prop :=
  ∀ other ∈ path, (∃ spec, lookup specs other = some spec) ∧
    Relation.ReflTransGen (Mounts specs) other code

theorem LeadsTo.mount {specs : Specs} {path : List String} {code mounted : String}
    (h : LeadsTo specs path code) (hmount : Mounts specs code mounted) :
    LeadsTo specs (path ++ [mounted]) mounted := by
  intro other hmem
  rcases List.mem_append.mp hmem with hmem | hmem
  · exact ⟨(h other hmem).1, (h other hmem).2.tail hmount⟩
  · obtain rfl := List.mem_singleton.mp hmem
    exact ⟨hmount.2, .refl⟩

theorem cycle_of_error (specs : Specs) :
    (∀ code path, LeadsTo specs path code → ∀ text, checkSubagentChain specs code path = .error text →
      ∃ other, Relation.TransGen (Mounts specs) other other) ∧
    ∀ code path mounts, ∀ spec, lookup specs code = some spec → (∀ mount ∈ mounts, mount ∈ spec.subagents) →
      LeadsTo specs path code → ∀ text, checkMounts specs code path mounts = .error text →
        ∃ other, Relation.TransGen (Mounts specs) other other := by
  refine checkSubagentChain.mutual_induct specs _ _ ?_ ?_ ?_ ?_ ?_ ?_
  · intro code path hnone _ text herror
    rw [checkSubagentChain, hnone] at herror
    cases herror
  · intro code path spec hspec ih hpath text herror
    rw [checkSubagentChain, hspec] at herror
    exact ih spec hspec (fun _ hmem => hmem) hpath text herror
  · intro code path spec _ _ _ text herror
    rw [checkMounts] at herror
    cases herror
  · intro path mount rest spec hspec hmounts _ _ _
    exact ⟨mount.code, .single ⟨⟨spec, hspec, hmounts mount List.mem_cons_self⟩, spec, hspec⟩⟩
  · intro code path mount rest _ hmem spec hspec hmounts hpath _ _
    obtain ⟨hdeclared, hleads⟩ := hpath mount.code hmem
    exact ⟨mount.code, .tail' hleads ⟨⟨spec, hspec, hmounts mount List.mem_cons_self⟩, hdeclared⟩⟩
  · intro code path mount rest hself hpath ihchain ihrest spec hspec hmounts hleads text herror
    rw [checkMounts, if_neg hself, dif_neg hpath] at herror
    cases hchain : checkSubagentChain specs mount.code (path ++ [mount.code]) with
    | error text' =>
        by_cases hdeclared : ∃ spec, lookup specs mount.code = some spec
        · exact ihchain (hleads.mount ⟨⟨spec, hspec, hmounts mount List.mem_cons_self⟩, hdeclared⟩)
            text' hchain
        · rw [not_exists] at hdeclared
          rw [checkSubagentChain, Option.eq_none_iff_forall_ne_some.mpr hdeclared] at hchain
          cases hchain
    | ok checked =>
        rw [hchain] at herror
        exact ihrest spec hspec (fun _ hmem => hmounts _ (List.mem_cons_of_mem _ hmem)) hleads text herror

/-! ### A cycle is an error -/

theorem checkMounts_ok {specs : Specs} {code : String} {path : List String}
    {mounts : List SubagentMount} (h : checkMounts specs code path mounts = .ok ()) :
    ∀ mount ∈ mounts, mount.code ∉ path ∧
      checkSubagentChain specs mount.code (path ++ [mount.code]) = .ok () := by
  induction mounts with
  | nil => exact fun _ hmem => by cases hmem
  | cons first rest ih =>
      rw [checkMounts] at h
      split at h
      · cases h
      · split at h
        · cases h
        · rename_i hpath
          cases hchain : checkSubagentChain specs first.code (path ++ [first.code]) with
          | error text =>
              rw [hchain] at h
              cases h
          | ok checked =>
              rw [hchain] at h
              intro mount hmem
              rcases List.mem_cons.mp hmem with rfl | hmem
              · exact ⟨hpath, hchain⟩
              · exact ih h mount hmem

/-- **What is reached from a code that was checked is not on its path.** -/
theorem not_mem_path {specs : Specs} {code reached : String} {path : List String}
    (h : Relation.TransGen (Mounts specs) code reached)
    (hok : checkSubagentChain specs code path = .ok ()) : reached ∉ path := by
  induction h using Relation.TransGen.head_induction_on generalizing path with
  | single hmount =>
      obtain ⟨⟨spec, hspec, hmem⟩, -⟩ := hmount
      rw [checkSubagentChain, hspec] at hok
      exact (checkMounts_ok hok _ hmem).1
  | head hmount _ ih =>
      obtain ⟨⟨spec, hspec, hmem⟩, -⟩ := hmount
      rw [checkSubagentChain, hspec] at hok
      intro hreached
      exact ih (checkMounts_ok hok _ hmem).2 (List.mem_append_left _ hreached)

theorem validateSubagentGraph_ok_iff {specs : Specs} {codes : List String} :
    validateSubagentGraph specs codes = .ok () ↔
      ∀ code ∈ codes, checkSubagentChain specs code [code] = .ok () := by
  induction codes with
  | nil => simp [validateSubagentGraph]
  | cons code rest ih =>
      rw [validateSubagentGraph]
      cases hchain : checkSubagentChain specs code [code] with
      | error text =>
          refine iff_of_false (fun h => by cases h) fun h => ?_
          rw [h code List.mem_cons_self] at hchain
          cases hchain
      | ok checked =>
          show validateSubagentGraph specs rest = .ok () ↔ _
          rw [ih]
          constructor
          · intro h other hmem
            rcases List.mem_cons.mp hmem with rfl | hmem
            · exact hchain
            · exact h other hmem
          · exact fun h other hmem => h other (List.mem_cons_of_mem _ hmem)

/-- **The check is exact**: the specs are kept, and there is no error, unless
the kept mounts have a cycle. -/
theorem validateSubagentGraph_iff (specs : Specs) :
    validateSubagentGraph specs (specs.map Prod.fst) = .ok () ↔
      ∀ code, ¬ Relation.TransGen (Mounts specs) code code := by
  rw [validateSubagentGraph_ok_iff]
  constructor
  · intro h code hcycle
    obtain ⟨next, hmount, -⟩ := Relation.TransGen.head'_iff.mp hcycle
    obtain ⟨⟨spec, hspec, -⟩, -⟩ := hmount
    exact not_mem_path hcycle (h code (mem_keys_iff.mpr ⟨spec, hspec⟩)) (List.mem_singleton_self code)
  · intro hacyclic code hmem
    cases hchain : checkSubagentChain specs code [code] with
    | ok checked => rfl
    | error text =>
        exfalso
        have hpath : LeadsTo specs [code] code := by
          intro other hother
          obtain rfl := List.mem_singleton.mp hother
          exact ⟨mem_keys_iff.mp hmem, .refl⟩
        obtain ⟨other, hcycle⟩ := (cycle_of_error specs).1 code [code] hpath text hchain
        exact hacyclic other hcycle

/-- **Constructing a registry raises exactly for a cycle of mounts.** -/
theorem agentRegistry_raises_iff (specs : List AgentSpec) :
    (∃ text, agentRegistry specs = .error text) ↔
      ∃ code, Relation.TransGen (MountsDeclared specs) code code := by
  have hmounts : Mounts (writes AgentSpec.code specs) = MountsDeclared specs := by
    funext a b
    exact propext mounts_writes
  have hcheck := validateSubagentGraph_iff (writes AgentSpec.code specs)
  rw [hmounts] at hcheck
  show (∃ text, (do
    validateSubagentGraph (writes AgentSpec.code specs) ((writes AgentSpec.code specs).map Prod.fst)
    pure (writes AgentSpec.code specs)) = Except.error text) ↔ _
  cases hresult : validateSubagentGraph (writes AgentSpec.code specs)
      ((writes AgentSpec.code specs).map Prod.fst) with
  | error text =>
      refine iff_of_true ⟨text, rfl⟩ (Classical.not_forall_not.mp fun hnone => ?_)
      rw [hcheck.mpr hnone] at hresult
      cases hresult
  | ok checked =>
      refine iff_of_false ?_ (not_exists.mpr (hcheck.mp hresult))
      rintro ⟨text, htext⟩
      cases htext

end Workbench.DelegationGraph
