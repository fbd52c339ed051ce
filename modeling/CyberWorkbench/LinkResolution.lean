import CyberWorkbench.FileTree

/-!
# Resolving the links of a path

Where a path leads once every symbolic link in it is replaced, whether or not
anything is there: a name that is missing is kept as it is, and `..` goes one
name back.  Only the links matter, so a resolution is a function of the link
that stands at each real path.

A link is resolved by itself before the path goes on, so links nest as deep as
one leads through the other.  The depth is bounded: a ring of links has no
resolution.
-/

namespace LinkResolution

open FileTree (RealPath Proper)

/-- The link at each real path. -/
abbrev Links := RealPath → Option LinkTarget

/-- Resolve names from a real path on.  `follow` resolves the target of a link. -/
def resolveFrom (links : Links) (follow : RealPath → List String → Option RealPath) :
    RealPath → List String → Option RealPath
  | here, [] => some here
  | here, name :: rest =>
      if name = "" ∨ name = "." then resolveFrom links follow here rest
      else if name = ".." then resolveFrom links follow here.dropLast rest
      else
        match links (here ++ [name]) with
        | none => resolveFrom links follow (here ++ [name]) rest
        | some target =>
            (follow (if target.absolute then [] else here) target.names).bind
              (fun k => resolveFrom links follow k rest)

/-- Resolve names, with links nested so deep at most. -/
def resolve (links : Links) : Nat → RealPath → List String → Option RealPath
  | 0 => resolveFrom links (fun _ _ => none)
  | nesting + 1 => resolveFrom links (resolve links nesting)

/-- A real path without links: proper names, none of them a link's. -/
structure Plain (links : Links) (k : RealPath) : Prop where
  proper : ∀ name ∈ k, Proper name
  unlinked : ∀ d name rest, k = d ++ name :: rest → links (d ++ [name]) = none

variable {links : Links}

theorem Plain.nil : Plain links [] :=
  ⟨fun _ h => absurd h List.not_mem_nil, fun d name rest h => by simp at h⟩

/-- One more name that is no link's. -/
theorem Plain.concat {k : RealPath} (h : Plain links k) {name : String} (hname : Proper name)
    (hlink : links (k ++ [name]) = none) : Plain links (k ++ [name]) where
  proper other hmem := by
    rcases List.mem_append.mp hmem with hmem | hmem
    · exact h.proper other hmem
    · rw [List.mem_singleton.mp hmem]
      exact hname
  unlinked d next rest heq := by
    cases hrest : rest.getLast? with
    | none =>
        rw [List.getLast?_eq_none_iff] at hrest
        subst hrest
        rw [← heq]
        exact hlink
    | some last =>
        obtain ⟨front, rfl⟩ := List.getLast?_eq_some_iff.mp hrest
        have hsplit : k ++ [name] = (d ++ next :: front) ++ [last] := by simpa using heq
        exact h.unlinked d next front (List.append_inj_left' hsplit rfl)

theorem Plain.front {k rest : RealPath} (h : Plain links (k ++ rest)) : Plain links k where
  proper name hmem := h.proper name (List.mem_append_left _ hmem)
  unlinked d name tail heq := h.unlinked d name (tail ++ rest) (by rw [heq]; simp)

theorem Plain.dropLast {k : RealPath} (h : Plain links k) : Plain links k.dropLast := by
  cases hlast : k.getLast? with
  | none =>
      rw [List.getLast?_eq_none_iff] at hlast
      subst hlast
      exact h
  | some name =>
      obtain ⟨front, rfl⟩ := List.getLast?_eq_some_iff.mp hlast
      rw [List.dropLast_concat]
      exact h.front

/-- **What a path resolves to has no links.** -/
theorem resolveFrom_plain {follow : RealPath → List String → Option RealPath}
    (hfollow : ∀ (here : RealPath) (names : List String) (k : RealPath),
      Plain links here → follow here names = some k → Plain links k)
    (names : List String) {here k : RealPath} (hhere : Plain links here)
    (h : resolveFrom links follow here names = some k) : Plain links k := by
  induction names generalizing here with
  | nil =>
      obtain rfl := Option.some.inj h
      exact hhere
  | cons name rest ih =>
      unfold resolveFrom at h
      split at h
      · exact ih hhere h
      · rename_i hskip
        split at h
        · exact ih hhere.dropLast h
        · rename_i hup
          have hname : Proper name := ⟨fun heq => hskip (.inl heq), fun heq => hskip (.inr heq), hup⟩
          split at h
          · rename_i hnone
            exact ih (hhere.concat hname hnone) h
          · rename_i target hlink
            obtain ⟨middle, hmiddle, hrest⟩ := Option.bind_eq_some_iff.mp h
            refine ih (hfollow _ _ middle ?_ hmiddle) hrest
            split
            · exact .nil
            · exact hhere

theorem resolve_plain {nesting : Nat} {names : List String} {here k : RealPath}
    (hhere : Plain links here) (h : resolve links nesting here names = some k) :
    Plain links k := by
  induction nesting generalizing here names k with
  | zero => exact resolveFrom_plain (fun _ _ _ _ heq => by cases heq) names hhere h
  | succ nesting ih => exact resolveFrom_plain (fun _ _ _ hp heq => ih hp heq) names hhere h

/-- **A path without links resolves to itself.** -/
theorem resolveFrom_of_plain (follow : RealPath → List String → Option RealPath)
    (rest : List String) {here : RealPath} (h : Plain links (here ++ rest)) :
    resolveFrom links follow here rest = some (here ++ rest) := by
  induction rest generalizing here with
  | nil => simp [resolveFrom]
  | cons name rest ih =>
      have hname := h.proper name (List.mem_append_right _ List.mem_cons_self)
      have hassoc : here ++ name :: rest = (here ++ [name]) ++ rest := by simp
      unfold resolveFrom
      rw [if_neg (fun heq => heq.elim hname.1 hname.2.1), if_neg hname.2.2,
        h.unlinked here name rest rfl, hassoc]
      exact ih (hassoc ▸ h)

theorem resolve_of_plain {nesting : Nat} {here : RealPath} {rest : List String}
    (h : Plain links (here ++ rest)) : resolve links nesting here rest = some (here ++ rest) := by
  cases nesting with
  | zero => exact resolveFrom_of_plain _ rest h
  | succ nesting => exact resolveFrom_of_plain _ rest h

/-- **A path in two parts**: the second goes on where the first leads. -/
theorem resolveFrom_append (follow : RealPath → List String → Option RealPath)
    (names rest : List String) (here : RealPath) :
    resolveFrom links follow here (names ++ rest) =
      (resolveFrom links follow here names).bind (fun k => resolveFrom links follow k rest) := by
  induction names generalizing here with
  | nil => rfl
  | cons name names ih =>
      simp only [List.cons_append, resolveFrom]
      split
      · exact ih here
      · split
        · exact ih here.dropLast
        · split
          · exact ih (here ++ [name])
          · rw [Option.bind_assoc]
            congr 1
            funext k
            exact ih k

theorem resolve_append (nesting : Nat) (names rest : List String) (here : RealPath) :
    resolve links nesting here (names ++ rest) =
      (resolve links nesting here names).bind (fun k => resolve links nesting k rest) := by
  cases nesting with
  | zero => exact resolveFrom_append _ names rest here
  | succ nesting => exact resolveFrom_append _ names rest here

/-- A path that goes on from where another resolves to. -/
theorem resolve_append_of_eq {nesting : Nat} {path : List String} {k : RealPath}
    (h : resolve links nesting [] path = some k) (rest : List String) :
    resolve links nesting [] (path ++ rest) = resolve links nesting [] (k ++ rest) := by
  have hself : resolve links nesting [] k = some k := resolve_of_plain (resolve_plain .nil h)
  rw [resolve_append, resolve_append, h, hself]

/-! ### The links of a tree -/

section Trees

variable {α β : Type} {t : FileTree α β}

/-- The link of a tree at a real path. -/
def linkAt (t : FileTree α β) : Links := fun k =>
  match t.get? k with
  | some (.link _ target) => some target
  | _ => none

/-- The links of a tree, with whatever stands at one real path taken for a
file. -/
def linksBeside (t : FileTree α β) (p : RealPath) : Links :=
  fun k => if k = p then none else linkAt t k

theorem linkAt_eq_none {k : RealPath}
    (h : ∀ attrs target, t.get? k ≠ some (.link attrs target)) : linkAt t k = none := by
  unfold linkAt
  split
  · rename_i attrs target hlink
    exact absurd hlink (h attrs target)
  · rfl

/-- Only the object itself decides whether a link is there. -/
theorem linkAt_of_label {t' : FileTree α β} {k : RealPath}
    (h : (t'.get? k).map FileTree.label = (t.get? k).map FileTree.label) :
    linkAt t' k = linkAt t k := by
  unfold linkAt
  cases hk : t.get? k with
  | none =>
      rw [hk, Option.map_none, Option.map_eq_none_iff] at h
      rw [h]
  | some x =>
      rw [hk, Option.map_some] at h
      obtain ⟨y, hy, hlabel⟩ := Option.map_eq_some_iff.mp h
      rw [hy]
      cases x <;> cases y <;> simp_all [FileTree.label]

/-- A system that follows links itself finds what is at the end of a plain
path only there. -/
theorem walkFrom_plain {follow : RealPath → List String → Option RealPath}
    (names : List String) {here k : RealPath} (hplain : Plain (linkAt t) (here ++ names))
    (h : FileTree.walkFrom t follow here names = some k) : k = here ++ names := by
  induction names generalizing here with
  | nil =>
      rw [List.append_nil]
      exact (Option.some.inj h).symm
  | cons name rest ih =>
      have hname := hplain.proper name (List.mem_append_right _ List.mem_cons_self)
      have hassoc : here ++ name :: rest = (here ++ [name]) ++ rest := by simp
      have hlink := hplain.unlinked here name rest rfl
      unfold FileTree.walkFrom at h
      rw [if_neg (fun heq => heq.elim hname.1 hname.2.1), if_neg hname.2.2] at h
      split at h
      · split at h
        · rename_i hlast
          rw [hlast]
          exact (Option.some.inj h).symm
        · cases h
      · split at h
        · rename_i hlast
          rw [hlast]
          exact (Option.some.inj h).symm
        · cases h
      · rw [hassoc]
        exact ih (hassoc ▸ hplain) h
      · rename_i attrs target hget
        simp [linkAt, hget] at hlink

theorem canonical_of_plain {path k : RealPath} (hplain : Plain (linkAt t) path)
    (h : FileTree.canonical t path = some k) : k = path := by
  unfold FileTree.canonical FileTree.symlinkLimit FileTree.walk at h
  exact walkFrom_plain path hplain h

/-- **A file or an empty directory put at a real path**: only the link that
stood there is gone. -/
theorem linkAt_update {d : RealPath} (name : String) {x : FileTree α β} (hx : x.isLink = false)
    (hleaf : ∀ next rest, x.get? (next :: rest) = none) (hparent : t.DirAt d)
    (hplace : ∀ next rest, t.get? (d ++ [name] ++ next :: rest) = none) :
    linkAt (t.update (d ++ [name]) (some x)) = linksBeside t (d ++ [name]) := by
  funext k
  unfold linksBeside
  by_cases hbelow : d ++ [name] <+: k
  · obtain ⟨rest, rfl⟩ := hbelow
    have hafter : (t.update (d ++ [name]) (some x)).get? (d ++ name :: rest) =
        (some x).bind (fun child => child.get? rest) := FileTree.get?_update (some x) hparent rest
    have hlinkless : linkAt (t.update (d ++ [name]) (some x)) (d ++ [name] ++ rest) = none := by
      refine linkAt_eq_none ?_
      intro attrs target hlink
      rw [List.append_assoc, List.singleton_append, hafter, Option.bind_some] at hlink
      cases rest with
      | nil =>
          obtain rfl := Option.some.inj hlink
          cases hx
      | cons next rest =>
          rw [hleaf] at hlink
          cases hlink
    rw [hlinkless]
    cases rest with
    | nil => rw [if_pos (List.append_nil _)]
    | cons next rest =>
        rw [if_neg (by simp)]
        unfold linkAt
        rw [hplace]
  · have hne : k ≠ d ++ [name] := fun heq => hbelow (heq ▸ List.prefix_rfl)
    rw [if_neg hne]
    exact linkAt_of_label (FileTree.label_update _ hbelow)

theorem linksBeside_of_none {p : RealPath} (h : linkAt t p = none) :
    linksBeside t p = linkAt t := by
  funext k
  unfold linksBeside
  split
  · rename_i heq
    rw [heq, h]
  · rfl

end Trees

end LinkResolution
