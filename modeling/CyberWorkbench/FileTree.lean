import CyberWorkbench.LastWrite

/-!
# Trees of files, directories and symbolic links

A tree as a POSIX system keeps it, with attributes and contents of any types.
An object stands at one *real path*: the names from the root directory down to
it.  A path that is asked for may lead elsewhere, since a symbolic link on the
way is replaced by its target.

`walk` follows a path; where it ends is a real path again
(`walk_canonical`), and walking that once more changes nothing
(`walk_of_canonical`).  `update` replaces what stands at a real path and leaves
every object that is not at or below it (`label_update`).
-/

/-- Where a symbolic link leads. -/
structure LinkTarget where
  absolute : Bool
  names : List String
  deriving DecidableEq, Repr

/-- A file, a symbolic link, or a directory with its entries. -/
inductive FileTree (α β : Type) where
  | file (attrs : α) (content : β)
  | link (attrs : α) (target : LinkTarget)
  | dir (attrs : α) (entries : List (String × FileTree α β))

namespace FileTree

variable {α β : Type}

/-- The names from the root directory to an object. -/
abbrev RealPath := List String

/-- An object by itself, without what is below it. -/
inductive Label (α β : Type) where
  | file (attrs : α) (content : β)
  | link (attrs : α) (target : LinkTarget)
  | dir (attrs : α)

def label : FileTree α β → Label α β
  | .file attrs content => .file attrs content
  | .link attrs target => .link attrs target
  | .dir attrs _ => .dir attrs

def isDir : FileTree α β → Bool
  | .dir .. => true
  | _ => false

def isLink : FileTree α β → Bool
  | .link .. => true
  | _ => false

def isFile : FileTree α β → Bool
  | .file .. => true
  | _ => false

/-- What stands at a real path. -/
def get? : FileTree α β → RealPath → Option (FileTree α β)
  | t, [] => some t
  | .dir _ entries, name :: rest => (LastWrite.lookup entries name).bind (fun child => child.get? rest)
  | .file .., _ :: _ => none
  | .link .., _ :: _ => none

/-- There is a directory at the real path. -/
def DirAt (t : FileTree α β) (k : RealPath) : Prop := ∃ attrs entries, t.get? k = some (.dir attrs entries)

theorem get?_append (t : FileTree α β) (k rest : RealPath) :
    t.get? (k ++ rest) = (t.get? k).bind (fun child => child.get? rest) := by
  induction k generalizing t with
  | nil => rfl
  | cons name k ih =>
      cases t with
      | file attrs content => rfl
      | link attrs target => rfl
      | dir attrs entries =>
          simp only [List.cons_append, get?]
          cases LastWrite.lookup entries name with
          | none => rfl
          | some child => exact ih child

/-- Whatever has something below it is a directory. -/
theorem dirAt_of_below {t : FileTree α β} {k : RealPath} {name : String} (rest : RealPath)
    (h : t.get? (k ++ name :: rest) ≠ none) : t.DirAt k := by
  rw [get?_append] at h
  cases hk : t.get? k with
  | none => simp [hk] at h
  | some child =>
      cases child with
      | file attrs content => simp [hk, get?] at h
      | link attrs target => simp [hk, get?] at h
      | dir attrs entries => exact ⟨attrs, entries, hk⟩

/-- Nothing is below what is not there. -/
theorem get?_below_none {t : FileTree α β} {k : RealPath} (h : t.get? k = none) (rest : RealPath) :
    t.get? (k ++ rest) = none := by
  rw [get?_append, h]
  rfl

/-! ### Replacing -/

/-- Put an entry, or take it out. -/
def setEntry (entries : List (String × FileTree α β)) (name : String) :
    Option (FileTree α β) → List (String × FileTree α β)
  | some child => LastWrite.write name child entries
  | none => entries.filter (fun entry => !decide (entry.1 = name))

/-- Replace what stands at a real path, where its directory is there. -/
def update : FileTree α β → RealPath → Option (FileTree α β) → FileTree α β
  | .dir attrs entries, name :: rest, x =>
      match rest with
      | [] => .dir attrs (setEntry entries name x)
      | next :: rest =>
          match LastWrite.lookup entries name with
          | some child => .dir attrs (LastWrite.write name (child.update (next :: rest) x) entries)
          | none => .dir attrs entries
  | t, _, _ => t

theorem lookup_setEntry (entries : List (String × FileTree α β)) (name other : String)
    (x : Option (FileTree α β)) :
    LastWrite.lookup (setEntry entries name x) other =
      if name = other then x else LastWrite.lookup entries other := by
  cases x with
  | some child => exact LastWrite.lookup_write entries name other child
  | none =>
      unfold setEntry LastWrite.lookup
      rw [List.find?_filter]
      by_cases hsame : name = other
      · subst hsame
        rw [if_pos rfl, Option.map_eq_none_iff, List.find?_eq_none]
        intro entry _
        simp
      · rw [if_neg hsame]
        congr 2
        funext entry
        by_cases hentry : entry.1 = other
        · simp [hentry, Ne.symm hsame]
        · simp [hentry]

/-- **Frame.**  An object that is not at or below the real path stays what it
is. -/
theorem label_update {t : FileTree α β} {k k' : RealPath} (x : Option (FileTree α β))
    (h : ¬ k <+: k') : ((t.update k x).get? k').map label = (t.get? k').map label := by
  induction k generalizing t k' with
  | nil => exact absurd List.nil_prefix h
  | cons name rest ih =>
      cases t with
      | file attrs content => rfl
      | link attrs target => rfl
      | dir attrs entries =>
          cases k' with
          | nil =>
              unfold update
              cases rest with
              | nil => rfl
              | cons next rest =>
                  simp only
                  cases LastWrite.lookup entries name with
                  | none => rfl
                  | some child => rfl
          | cons name' rest' =>
              have hrest : name = name' → ¬ rest <+: rest' := by
                rintro rfl hprefixes
                exact h (List.cons_prefix_cons.mpr ⟨rfl, hprefixes⟩)
              unfold update
              cases rest with
              | nil =>
                  have hne : name ≠ name' := fun heq => hrest heq List.nil_prefix
                  simp only [get?]
                  rw [lookup_setEntry, if_neg hne]
              | cons next rest =>
                  simp only
                  cases hchild : LastWrite.lookup entries name with
                  | none => rfl
                  | some child =>
                      simp only [get?]
                      rw [LastWrite.lookup_write]
                      by_cases hsame : name = name'
                      · subst hsame
                        rw [if_pos rfl, hchild]
                        exact ih (hrest rfl)
                      · rw [if_neg hsame]

/-- What stands at and below the real path afterwards. -/
theorem get?_update {t : FileTree α β} {k : RealPath} {name : String} (x : Option (FileTree α β))
    (hparent : t.DirAt k) (rest : RealPath) :
    (t.update (k ++ [name]) x).get? (k ++ name :: rest) =
      x.bind (fun child => child.get? rest) := by
  obtain ⟨attrs, entries, hdir⟩ := hparent
  induction k generalizing t with
  | nil =>
      obtain rfl : t = .dir attrs entries := Option.some.inj hdir
      simp only [List.nil_append, update, get?]
      rw [lookup_setEntry, if_pos rfl]
  | cons first k ih =>
      cases t with
      | file attrs' content => simp [get?] at hdir
      | link attrs' target => simp [get?] at hdir
      | dir attrs' entries' =>
          simp only [get?] at hdir
          cases hchild : LastWrite.lookup entries' first with
          | none => simp [hchild] at hdir
          | some child =>
              rw [hchild] at hdir
              have hnext : ∃ next tail, k ++ [name] = next :: tail := by
                cases k with
                | nil => exact ⟨name, [], rfl⟩
                | cons next tail => exact ⟨next, tail ++ [name], rfl⟩
              obtain ⟨next, tail, heq⟩ := hnext
              have hinner := ih hdir
              rw [heq] at hinner
              simp only [List.cons_append, heq, update, hchild, get?]
              rw [LastWrite.lookup_write, if_pos rfl]
              exact hinner

/-! ### Following a path -/

/-- A name that is an entry of its own, not a way of saying "here" or "up". -/
def Proper (name : String) : Prop := name ≠ "" ∧ name ≠ "." ∧ name ≠ ".."

instance (name : String) : Decidable (Proper name) := inferInstanceAs (Decidable (_ ∧ _))

/-- Follow names from a directory on.  The last name may be missing: then the
path leads to where it would be.  `follow` is what happens at a link. -/
def walkFrom (t : FileTree α β) (follow : RealPath → List String → Option RealPath) :
    RealPath → List String → Option RealPath
  | here, [] => some here
  | here, name :: rest =>
      if name = "" ∨ name = "." then walkFrom t follow here rest
      else if name = ".." then walkFrom t follow here.dropLast rest
      else
        match t.get? (here ++ [name]) with
        | none => if rest = [] then some (here ++ [name]) else none
        | some (.file _ _) => if rest = [] then some (here ++ [name]) else none
        | some (.dir _ _) => walkFrom t follow (here ++ [name]) rest
        | some (.link _ target) =>
            follow (if target.absolute then [] else here) (target.names ++ rest)

/-- Follow names, through at most so many links. -/
def walk (t : FileTree α β) : Nat → RealPath → List String → Option RealPath
  | 0 => walkFrom t (fun _ _ => none)
  | links + 1 => walkFrom t (walk t links)

/-- `SYMLOOP_MAX`: a path with more links is refused. -/
def symlinkLimit : Nat := 40

/-- Where a path leads. -/
def canonical (t : FileTree α β) (path : List String) : Option RealPath :=
  walk t symlinkLimit [] path

/-- Where a path leads, if something is there. -/
def resolve (t : FileTree α β) (path : List String) : Option RealPath :=
  (canonical t path).filter (fun k => (t.get? k).isSome)

/-- Where the object stands that a path names: a link at its end is not
followed. -/
def locate (t : FileTree α β) (path : List String) : Option RealPath :=
  match path.getLast? with
  | none => some []
  | some name =>
      if Proper name then
        ((resolve t path.dropLast).filter fun k => (t.get? k).any isDir).map (· ++ [name])
      else resolve t path

/-- A real path: proper names through directories, and no link at its end. -/
structure Canonical (t : FileTree α β) (k : RealPath) : Prop where
  proper : ∀ name ∈ k, Proper name
  parents : ∀ d name rest, k = d ++ name :: rest → t.DirAt d
  last : ∀ attrs target, t.get? k ≠ some (.link attrs target)

section Walking

variable {t : FileTree α β}

theorem DirAt.prefix_dirAt {k rest : RealPath} (h : t.DirAt (k ++ rest)) : t.DirAt k := by
  cases rest with
  | nil => simpa using h
  | cons name rest =>
      obtain ⟨attrs, entries, hdir⟩ := h
      exact dirAt_of_below rest (by rw [hdir]; exact Option.some_ne_none _)

theorem DirAt.dropLast {k : RealPath} (h : t.DirAt k) : t.DirAt k.dropLast := by
  cases hlast : k.getLast? with
  | none =>
      rw [List.getLast?_eq_none_iff] at hlast
      subst hlast
      exact h
  | some name =>
      obtain ⟨front, rfl⟩ := List.getLast?_eq_some_iff.mp hlast
      rw [List.dropLast_concat]
      exact h.prefix_dirAt

/-- A directory whose path has proper names is one that a path can lead to. -/
theorem Canonical.of_dirAt {k : RealPath} (hproper : ∀ name ∈ k, Proper name) (h : t.DirAt k) :
    Canonical t k where
  proper := hproper
  parents d name rest heq := (heq ▸ h : t.DirAt (d ++ name :: rest)).prefix_dirAt
  last attrs target hlink := by
    obtain ⟨attrs', entries, hdir⟩ := h
    rw [hdir] at hlink
    cases hlink

/-- An entry of such a directory that is not a link, or is not there. -/
theorem Canonical.entry {k : RealPath} {name : String} (hproper : ∀ name ∈ k, Proper name)
    (h : t.DirAt k) (hname : Proper name)
    (hlast : ∀ attrs target, t.get? (k ++ [name]) ≠ some (.link attrs target)) :
    Canonical t (k ++ [name]) where
  proper other hmem := by
    rcases List.mem_append.mp hmem with hmem | hmem
    · exact hproper other hmem
    · rw [List.mem_singleton.mp hmem]
      exact hname
  parents d next rest heq := by
    rcases List.append_eq_append_iff.mp heq with ⟨mid, rfl, hmid⟩ | ⟨mid, rfl, hmid⟩
    · cases mid with
      | nil => simpa using h
      | cons first mid => simp at hmid
    · exact h.prefix_dirAt
  last := hlast

/-- **Where a path leads is a real path.** -/
theorem walkFrom_canonical {follow : RealPath → List String → Option RealPath}
    (hfollow : ∀ (here : RealPath) (names : List String) (k : RealPath),
      (∀ name ∈ here, Proper name) → t.DirAt here → follow here names = some k → Canonical t k)
    (names : List String) {here k : RealPath} (hproper : ∀ name ∈ here, Proper name)
    (hdir : t.DirAt here) (h : walkFrom t follow here names = some k) : Canonical t k := by
  induction names generalizing here with
  | nil =>
      obtain rfl := Option.some.inj h
      exact .of_dirAt hproper hdir
  | cons name rest ih =>
      unfold walkFrom at h
      split at h
      · exact ih hproper hdir h
      · rename_i hhere
        split at h
        · exact ih (fun other hmem => hproper other (List.dropLast_subset _ hmem)) hdir.dropLast h
        · rename_i hup
          have hname : Proper name := ⟨fun heq => hhere (.inl heq), fun heq => hhere (.inr heq), hup⟩
          split at h
          · rename_i hnone
            split at h
            · obtain rfl := Option.some.inj h
              refine .entry hproper hdir hname fun attrs target hlink => ?_
              rw [hnone] at hlink
              cases hlink
            · cases h
          · rename_i attrs content hfile
            split at h
            · obtain rfl := Option.some.inj h
              refine .entry hproper hdir hname fun attrs target hlink => ?_
              rw [hfile] at hlink
              cases hlink
            · cases h
          · rename_i attrs entries hentries
            refine ih ?_ ⟨attrs, entries, hentries⟩ h
            intro other hmem
            rcases List.mem_append.mp hmem with hmem | hmem
            · exact hproper other hmem
            · rw [List.mem_singleton.mp hmem]
              exact hname
          · rename_i attrs target hlink
            refine hfollow _ _ k ?_ ?_ h
            · split
              · exact fun _ hmem => by cases hmem
              · exact hproper
            · split
              · exact DirAt.prefix_dirAt (k := []) hdir
              · exact hdir

theorem walk_canonical (links : Nat) (names : List String) {here k : RealPath}
    (hproper : ∀ name ∈ here, Proper name) (hdir : t.DirAt here)
    (h : walk t links here names = some k) : Canonical t k := by
  induction links generalizing here names k with
  | zero => exact walkFrom_canonical (fun _ _ _ _ _ heq => by cases heq) names hproper hdir h
  | succ links ih =>
      exact walkFrom_canonical (fun _ names _ hp hd heq => ih names hp hd heq) names hproper hdir h

/-- **A real path leads to itself.** -/
theorem walkFrom_of_canonical (follow : RealPath → List String → Option RealPath)
    (rest : List String) {here : RealPath} (h : Canonical t (here ++ rest)) :
    walkFrom t follow here rest = some (here ++ rest) := by
  induction rest generalizing here with
  | nil => simp [walkFrom]
  | cons name rest ih =>
      have hname := h.proper name (List.mem_append_right _ List.mem_cons_self)
      have hassoc : here ++ name :: rest = (here ++ [name]) ++ rest := by simp
      unfold walkFrom
      rw [if_neg (fun heq => heq.elim hname.1 hname.2.1), if_neg hname.2.2]
      have hrest : ∀ {x : FileTree α β}, t.get? (here ++ [name]) = some x → x.isDir = false →
          rest = [] := by
        intro x hget hnot
        cases rest with
        | nil => rfl
        | cons next tail =>
            obtain ⟨attrs, entries, hdir⟩ := h.parents (here ++ [name]) next tail (by simp)
            rw [hdir] at hget
            obtain rfl := Option.some.inj hget
            cases hnot
      split
      · rename_i hnone
        cases rest with
        | nil => simp
        | cons next tail =>
            obtain ⟨attrs, entries, hdir⟩ := h.parents (here ++ [name]) next tail (by simp)
            rw [hnone] at hdir
            cases hdir
      · rename_i hfile
        obtain rfl := hrest hfile rfl
        simp
      · rw [hassoc]
        exact ih (hassoc ▸ h)
      · rename_i attrs target hlink
        obtain rfl := hrest hlink rfl
        exact absurd hlink (h.last attrs target)

theorem canonical_of_canonical {k : RealPath} (h : Canonical t k) : canonical t k = some k := by
  unfold canonical symlinkLimit walk
  exact walkFrom_of_canonical _ k (by simpa using h)

/-! ### Paths in parts -/

/-- What a walk through a path in two parts does: it goes on where the first
part leads, with the links that are left. -/
theorem walkFrom_append {follow : RealPath → List String → Option RealPath}
    {d : RealPath} (names : List String) {here : RealPath} (hdir : t.DirAt d)
    (hnext : ∀ here' names', follow here' names' = some d →
      ∃ links, ∀ rest, follow here' (names' ++ rest) = walk t links d rest)
    (hlinks : ∃ links, ∀ rest, walkFrom t follow d rest = walk t links d rest)
    (h : walkFrom t follow here names = some d) :
    ∃ links, ∀ rest, walkFrom t follow here (names ++ rest) = walk t links d rest := by
  obtain ⟨attrs, entries, hd⟩ := hdir
  induction names generalizing here with
  | nil =>
      obtain rfl := Option.some.inj h
      exact hlinks
  | cons name names ih =>
      have hmissing : ∀ {x : Option (FileTree α β)}, t.get? (here ++ [name]) = x →
          (∀ attrs entries, x ≠ some (.dir attrs entries)) →
          (if names = [] then some (here ++ [name]) else none) ≠ some d := by
        intro x hget hnot heq
        split at heq
        · obtain rfl := Option.some.inj heq
          exact hnot attrs entries (hget.symm.trans hd)
        · cases heq
      unfold walkFrom at h
      simp only [List.cons_append, walkFrom]
      split at h
      · rename_i hhere
        simp only [hhere, if_true]
        exact ih h
      · rename_i hhere
        simp only [hhere, if_false]
        split at h
        · rename_i hup
          simp only [hup, if_true]
          exact ih h
        · rename_i hup
          simp only [hup, if_false]
          split at h
          · rename_i hget
            exact absurd h (hmissing hget (fun _ _ heq => by cases heq))
          · rename_i hget
            exact absurd h (hmissing hget (fun _ _ heq => by cases heq))
          · exact ih h
          · obtain ⟨links, hall⟩ := hnext _ _ h
            exact ⟨links, fun rest => by rw [← List.append_assoc]; exact hall rest⟩

theorem walk_append (links : Nat) (names : List String) {here d : RealPath} (hdir : t.DirAt d)
    (h : walk t links here names = some d) :
    ∃ left, ∀ rest, walk t links here (names ++ rest) = walk t left d rest := by
  induction links generalizing here names with
  | zero =>
      exact walkFrom_append names hdir (fun _ _ heq => by cases heq) ⟨0, fun _ => rfl⟩ h
  | succ links ih =>
      exact walkFrom_append names hdir (fun _ names' heq => ih names' heq)
        ⟨links + 1, fun _ => rfl⟩ h

/-- One more name, which is not that of a link. -/
theorem walk_entry (links : Nat) {d : RealPath} {name : String} (hname : Proper name)
    (hlast : ∀ attrs target, t.get? (d ++ [name]) ≠ some (.link attrs target)) :
    walk t links d [name] = some (d ++ [name]) := by
  have hfrom : ∀ follow, walkFrom t follow d [name] = some (d ++ [name]) := by
    intro follow
    unfold walkFrom
    rw [if_neg (fun heq => heq.elim hname.1 hname.2.1), if_neg hname.2.2]
    split
    · exact if_pos rfl
    · exact if_pos rfl
    · rfl
    · rename_i attrs target hlink
      exact absurd hlink (hlast attrs target)
  cases links with
  | zero => exact hfrom _
  | succ links => exact hfrom _

theorem canonical_concat {path : List String} {d : RealPath} {name : String}
    (h : canonical t path = some d) (hdir : t.DirAt d) (hname : Proper name)
    (hlast : ∀ attrs target, t.get? (d ++ [name]) ≠ some (.link attrs target)) :
    canonical t (path ++ [name]) = some (d ++ [name]) := by
  obtain ⟨left, hleft⟩ := walk_append symlinkLimit path hdir h
  exact (hleft [name]).trans (walk_entry left hname hlast)

/-- A path that goes on leads through a directory. -/
theorem walkFrom_prefix {follow : RealPath → List String → Option RealPath} {name : String}
    {rest : List String}
    (hfollow : ∀ (here : RealPath) (names : List String) (k : RealPath), t.DirAt here →
      follow here (names ++ name :: rest) = some k → ∃ d, follow here names = some d ∧ t.DirAt d)
    (names : List String) {here k : RealPath} (hdir : t.DirAt here)
    (h : walkFrom t follow here (names ++ name :: rest) = some k) :
    ∃ d, walkFrom t follow here names = some d ∧ t.DirAt d := by
  induction names generalizing here with
  | nil => exact ⟨here, rfl, hdir⟩
  | cons first names ih =>
      simp only [List.cons_append, walkFrom] at h
      unfold walkFrom
      split at h
      · rename_i hhere
        rw [if_pos hhere]
        exact ih hdir h
      · rename_i hhere
        rw [if_neg hhere]
        split at h
        · rename_i hup
          rw [if_pos hup]
          exact ih hdir.dropLast h
        · rename_i hup
          rw [if_neg hup]
          split at h
          · simp at h
          · simp at h
          · rename_i attrs entries hget
            exact ih ⟨attrs, entries, hget⟩ h
          · rename_i attrs target hget
            rw [← List.append_assoc] at h
            refine hfollow _ _ k ?_ h
            split
            · exact DirAt.prefix_dirAt (k := []) hdir
            · exact hdir

theorem walk_prefix (links : Nat) (names : List String) {name : String} {rest : List String}
    {here k : RealPath} (hdir : t.DirAt here)
    (h : walk t links here (names ++ name :: rest) = some k) :
    ∃ d, walk t links here names = some d ∧ t.DirAt d := by
  induction links generalizing here names k with
  | zero => exact walkFrom_prefix (fun _ _ _ _ heq => by cases heq) names hdir h
  | succ links ih =>
      exact walkFrom_prefix (fun _ names' _ hd heq => ih names' hd heq) names hdir h

/-! ### Resolving and locating -/

theorem resolve_eq_some {path : List String} {k : RealPath} :
    resolve t path = some k ↔ canonical t path = some k ∧ t.get? k ≠ none := by
  unfold resolve
  rw [Option.filter_eq_some_iff, Option.isSome_iff_ne_none]

/-- A path that leads to a directory. -/
def LeadsToDir (t : FileTree α β) (path : List String) (d : RealPath) : Prop :=
  canonical t path = some d ∧ t.DirAt d

theorem LeadsToDir.resolve {path : List String} {d : RealPath} (h : LeadsToDir t path d) :
    resolve t path = some d := by
  obtain ⟨attrs, entries, hdir⟩ := h.2
  exact resolve_eq_some.mpr ⟨h.1, by rw [hdir]; exact Option.some_ne_none _⟩

theorem leadsToDir_iff {path : List String} {d : RealPath} :
    LeadsToDir t path d ↔ FileTree.resolve t path = some d ∧ (t.get? d).any isDir = true := by
  constructor
  · intro h
    obtain ⟨attrs, entries, hdir⟩ := h.2
    exact ⟨h.resolve, by rw [hdir]; rfl⟩
  · rintro ⟨hresolve, hany⟩
    refine ⟨(resolve_eq_some.mp hresolve).1, ?_⟩
    obtain ⟨child, hget, hchild⟩ := (Option.any_eq_true _ _).mp hany
    cases child with
    | file attrs content => cases hchild
    | link attrs target => cases hchild
    | dir attrs entries => exact ⟨attrs, entries, hget⟩

theorem locate_concat {path : List String} {name : String} (hname : Proper name) {k : RealPath} :
    locate t (path ++ [name]) = some k ↔ ∃ d, LeadsToDir t path d ∧ k = d ++ [name] := by
  unfold locate
  rw [List.getLast?_concat]
  simp only [hname, if_true, List.dropLast_concat]
  rw [Option.map_eq_some_iff]
  constructor
  · rintro ⟨d, hd, rfl⟩
    exact ⟨d, leadsToDir_iff.mpr (Option.filter_eq_some_iff.mp hd), rfl⟩
  · rintro ⟨d, hd, rfl⟩
    exact ⟨d, Option.filter_eq_some_iff.mpr (leadsToDir_iff.mp hd), rfl⟩

/-- A path leads to one place. -/
theorem LeadsToDir.unique {path : List String} {d d' : RealPath} (h : LeadsToDir t path d)
    (h' : LeadsToDir t path d') : d' = d := Option.some.inj (h'.1.symm.trans h.1)

/-- Where a directory path leads is a real path. -/
theorem LeadsToDir.canonical {path : List String} {d : RealPath} (h : LeadsToDir t path d) :
    Canonical t d :=
  walk_canonical symlinkLimit path (fun _ hmem => by cases hmem)
    (DirAt.prefix_dirAt (k := []) h.2) h.1

theorem LeadsToDir.self {path : List String} {d : RealPath} (h : LeadsToDir t path d) :
    LeadsToDir t d d := ⟨canonical_of_canonical h.canonical, h.2⟩

/-- A step down a path that leads to a directory. -/
theorem LeadsToDir.concat {path : List String} {d : RealPath} (h : LeadsToDir t path d)
    {name : String} (hname : Proper name) (hdir : t.DirAt (d ++ [name])) :
    LeadsToDir t (path ++ [name]) (d ++ [name]) := by
  refine ⟨canonical_concat h.1 h.2 hname fun attrs target hlink => ?_, hdir⟩
  obtain ⟨attrs', entries, hget⟩ := hdir
  rw [hget] at hlink
  cases hlink

/-- The first part of a path that leads to a directory. -/
theorem LeadsToDir.front {path rest : List String} {d : RealPath}
    (h : LeadsToDir t (path ++ rest) d) : ∃ d', LeadsToDir t path d' := by
  cases rest with
  | nil => exact ⟨d, by simpa using h⟩
  | cons name rest =>
      exact walk_prefix symlinkLimit path (DirAt.prefix_dirAt (k := []) h.2) h.1

/-- Where a path leads that goes on from a directory. -/
theorem LeadsToDir.canonical_append {path : List String} {d : RealPath} (h : LeadsToDir t path d) :
    ∃ links, ∀ rest, FileTree.canonical t (path ++ rest) = walk t links d rest :=
  walk_append symlinkLimit path h.2 h.1

theorem walk_dots (links n : Nat) (here : RealPath) :
    walk t links here (List.replicate n ".") = some here := by
  induction n with
  | zero => cases links <;> rfl
  | succ n ih => cases links <;> exact ih

theorem walk_up (links : Nat) (here : RealPath) : walk t links here [".."] = some here.dropLast := by
  cases links <;> rfl

/-- `..` in a path. -/
theorem LeadsToDir.up {path : List String} {d : RealPath} (h : LeadsToDir t path d) :
    LeadsToDir t (path ++ [".."]) d.dropLast := by
  obtain ⟨links, hlinks⟩ := h.canonical_append
  exact ⟨(hlinks [".."]).trans (walk_up links d), h.2.dropLast⟩

/-- `.` in a path, any number of times. -/
theorem LeadsToDir.dots {path : List String} {d : RealPath} (h : LeadsToDir t path d) (n : Nat) :
    LeadsToDir t (path ++ List.replicate n ".") d := by
  obtain ⟨links, hlinks⟩ := h.canonical_append
  exact ⟨(hlinks _).trans (walk_dots links n d), h.2⟩

/-- The root directory is where every path starts. -/
theorem leadsToDir_nil (h : t.DirAt []) : LeadsToDir t [] [] :=
  ⟨canonical_of_canonical (Canonical.of_dirAt (fun _ hmem => by cases hmem) h), h⟩

/-- Where a path leads is a real path. -/
theorem canonical_canonical {path : List String} {k : RealPath} (hrooted : t.DirAt [])
    (h : canonical t path = some k) : Canonical t k :=
  walk_canonical symlinkLimit path (fun _ hmem => by cases hmem) hrooted h

/-- Where an object may stand: an entry of a directory, or the root. -/
def Placed (t : FileTree α β) (k : RealPath) : Prop :=
  k = [] ∨ ∃ d name, k = d ++ [name] ∧ Proper name ∧ LeadsToDir t d d

theorem Canonical.placed {k : RealPath} (h : Canonical t k) : Placed t k := by
  cases hlast : k.getLast? with
  | none => exact .inl (List.getLast?_eq_none_iff.mp hlast)
  | some name =>
      obtain ⟨d, rfl⟩ := List.getLast?_eq_some_iff.mp hlast
      have hdir : t.DirAt d := h.parents d name [] rfl
      refine .inr ⟨d, name, rfl, h.proper name (by simp), ?_⟩
      exact ⟨canonical_of_canonical
        (.of_dirAt (fun other hmem => h.proper other (List.mem_append_left _ hmem)) hdir), hdir⟩

/-- An object is located where it stands. -/
theorem Placed.locate {k : RealPath} (h : Placed t k) : FileTree.locate t k = some k := by
  rcases h with rfl | ⟨d, name, rfl, hname, hd⟩
  · rfl
  · exact (locate_concat hname).mpr ⟨d, hd, rfl⟩

theorem Placed.leadsToDir {k : RealPath} (h : Placed t k) (hdir : t.DirAt k) : LeadsToDir t k k := by
  rcases h with rfl | ⟨d, name, rfl, hname, hd⟩
  · exact leadsToDir_nil hdir
  · exact hd.concat hname hdir

/-- The path of a file leads to it. -/
theorem Placed.resolve {k : RealPath} (h : Placed t k) {attrs : α} {content : β}
    (hfile : t.get? k = some (.file attrs content)) : FileTree.resolve t k = some k := by
  refine resolve_eq_some.mpr ⟨?_, by rw [hfile]; exact Option.some_ne_none _⟩
  rcases h with rfl | ⟨d, name, rfl, hname, hd⟩
  · rfl
  · exact canonical_concat hd.1 hd.2 hname fun _ _ hlink => by rw [hfile] at hlink; cases hlink

/-- What is below a path to a directory that leads to a directory is there. -/
theorem LeadsToDir.below {path : List String} {d d' : RealPath} {name : String}
    (h : LeadsToDir t path d) (hname : Proper name) (h' : LeadsToDir t (path ++ [name]) d') :
    t.get? (d ++ [name]) ≠ none := by
  intro hnone
  have hthere := canonical_concat h.1 h.2 hname fun _ _ hlink => by rw [hnone] at hlink; cases hlink
  obtain rfl := Option.some.inj (hthere.symm.trans h'.1)
  obtain ⟨attrs, entries, hdir⟩ := h'.2
  rw [hnone] at hdir
  cases hdir

end Walking

/-! ### Changes that leave paths alone -/

/-- Directories and links stay as they are. -/
def KeepsPaths (t t' : FileTree α β) : Prop :=
  ∀ (k : RealPath) (x : FileTree α β), t.get? k = some x → x.isFile = false →
    (t'.get? k).map label = some x.label

section Keeping

variable {t t' : FileTree α β}

theorem KeepsPaths.refl : KeepsPaths t t := fun k x h _ => by rw [h]; rfl

theorem KeepsPaths.dirAt (h : KeepsPaths t t') {k : RealPath} (hdir : t.DirAt k) : t'.DirAt k := by
  obtain ⟨attrs, entries, hget⟩ := hdir
  obtain ⟨y, hy, hlabel⟩ := Option.map_eq_some_iff.mp (h k _ hget rfl)
  cases y with
  | file attrs' content => cases hlabel
  | link attrs' target => cases hlabel
  | dir attrs' entries' => exact ⟨attrs', entries', hy⟩

theorem KeepsPaths.link (h : KeepsPaths t t') {k : RealPath} {attrs : α} {target : LinkTarget}
    (hlink : t.get? k = some (.link attrs target)) : t'.get? k = some (.link attrs target) := by
  obtain ⟨y, hy, hlabel⟩ := Option.map_eq_some_iff.mp (h k _ hlink rfl)
  cases y with
  | file attrs' content => cases hlabel
  | dir attrs' entries => cases hlabel
  | link attrs' target' =>
      cases hlabel
      exact hy

theorem KeepsPaths.trans {t'' : FileTree α β} (h : KeepsPaths t t') (h' : KeepsPaths t' t'') :
    KeepsPaths t t'' := by
  intro k x hget hx
  obtain ⟨y, hy, hlabel⟩ := Option.map_eq_some_iff.mp (h k x hget hx)
  have hy' : y.isFile = false := by
    cases x with
    | file attrs content => cases hx
    | link attrs target => cases y <;> cases hlabel <;> rfl
    | dir attrs entries => cases y <;> cases hlabel <;> rfl
  rw [h' k y hy hy', hlabel]

/-- **A path to a directory leads there still.** -/
theorem walkFrom_keeps (h : KeepsPaths t t')
    {follow follow' : RealPath → List String → Option RealPath} {d : RealPath} (hd : t.DirAt d)
    (hfollow : ∀ here names, follow here names = some d → follow' here names = some d)
    (names : List String) {here : RealPath} (hwalk : walkFrom t follow here names = some d) :
    walkFrom t' follow' here names = some d := by
  obtain ⟨attrs, entries, hget⟩ := hd
  induction names generalizing here with
  | nil => exact hwalk
  | cons name names ih =>
      unfold walkFrom at hwalk ⊢
      split at hwalk
      · rename_i hhere
        rw [if_pos hhere]
        exact ih hwalk
      · rename_i hhere
        rw [if_neg hhere]
        split at hwalk
        · rename_i hup
          rw [if_pos hup]
          exact ih hwalk
        · rename_i hup
          rw [if_neg hup]
          have hend : ∀ {x : Option (FileTree α β)}, t.get? (here ++ [name]) = x →
              (∀ attrs entries, x ≠ some (.dir attrs entries)) →
              (if names = [] then some (here ++ [name]) else none) ≠ some d := by
            intro x hx hnot heq
            split at heq
            · obtain rfl := Option.some.inj heq
              exact hnot attrs entries (hx.symm.trans hget)
            · cases heq
          split at hwalk
          · rename_i hx
            exact absurd hwalk (hend hx (fun _ _ heq => by cases heq))
          · rename_i hx
            exact absurd hwalk (hend hx (fun _ _ heq => by cases heq))
          · rename_i attrs' entries' hx
            obtain ⟨attrs'', entries'', hx'⟩ := h.dirAt ⟨attrs', entries', hx⟩
            rw [hx']
            exact ih hwalk
          · rename_i attrs' target hx
            rw [h.link hx]
            exact hfollow _ _ hwalk

theorem walk_keeps (h : KeepsPaths t t') (links : Nat) {d : RealPath} (hd : t.DirAt d)
    (names : List String) {here : RealPath} (hwalk : walk t links here names = some d) :
    walk t' links here names = some d := by
  induction links generalizing here names with
  | zero => exact walkFrom_keeps h hd (fun _ _ heq => by cases heq) names hwalk
  | succ links ih => exact walkFrom_keeps h hd (fun _ names heq => ih names heq) names hwalk

theorem LeadsToDir.keeps {path : List String} {d : RealPath} (hpath : LeadsToDir t path d)
    (h : KeepsPaths t t') : LeadsToDir t' path d :=
  ⟨walk_keeps h symlinkLimit hpath.2 path hpath.1, h.dirAt hpath.2⟩

/-- Replacing a file, or adding where nothing was, leaves the paths alone. -/
theorem keepsPaths_update {k : RealPath} (x : Option (FileTree α β))
    (hk : ∀ y, t.get? k = some y → y.isFile = true) : KeepsPaths t (t.update k x) := by
  intro k' y hy hnot
  by_cases hbelow : k <+: k'
  · obtain ⟨rest, rfl⟩ := hbelow
    exfalso
    cases hget : t.get? k with
    | none =>
        rw [get?_below_none hget] at hy
        cases hy
    | some z =>
        have hz := hk z hget
        rw [get?_append, hget] at hy
        cases z with
        | link attrs target => cases hz
        | dir attrs entries => cases hz
        | file attrs content =>
            cases rest with
            | nil =>
                obtain rfl := Option.some.inj hy
                cases hnot
            | cons name rest => cases hy
  · rw [label_update x hbelow, hy]
    rfl

end Keeping

/-! ### A name that is nowhere -/

mutual

/-- The length of all names together. -/
def weight : FileTree α β → Nat
  | .file .. => 0
  | .link .. => 0
  | .dir _ entries => entriesWeight entries

def entriesWeight : List (String × FileTree α β) → Nat
  | [] => 0
  | (name, x) :: rest => name.length + weight x + entriesWeight rest

end

theorem le_entriesWeight {entries : List (String × FileTree α β)} {name : String}
    {x : FileTree α β} (h : LastWrite.lookup entries name = some x) :
    name.length + x.weight ≤ entriesWeight entries := by
  induction entries with
  | nil => cases h
  | cons entry rest ih =>
      obtain ⟨first, y⟩ := entry
      unfold LastWrite.lookup at h ih
      unfold entriesWeight
      rw [List.find?_cons] at h
      by_cases hfirst : first = name
      · subst hfirst
        simp only [decide_true, Option.map_some, Option.some.injEq] at h
        subst h
        omega
      · simp only [hfirst, decide_false] at h
        have := ih h
        omega

theorem length_le_weight {t : FileTree α β} {k : RealPath} {name : String}
    (h : t.get? (k ++ [name]) ≠ none) : name.length ≤ t.weight := by
  induction k generalizing t with
  | nil =>
      cases t with
      | file attrs content => exact absurd rfl h
      | link attrs target => exact absurd rfl h
      | dir attrs entries =>
          obtain ⟨x, hx⟩ := Option.ne_none_iff_exists'.mp h
          obtain ⟨y, hlookup, -⟩ := Option.bind_eq_some_iff.mp hx
          have := le_entriesWeight hlookup
          unfold weight
          omega
  | cons first k ih =>
      cases t with
      | file attrs content => exact absurd rfl h
      | link attrs target => exact absurd rfl h
      | dir attrs entries =>
          obtain ⟨x, hx⟩ := Option.ne_none_iff_exists'.mp h
          obtain ⟨child, hlookup, hchild⟩ := Option.bind_eq_some_iff.mp hx
          change child.get? (k ++ [name]) = some x at hchild
          have hle := ih (t := child) (by rw [hchild]; exact Option.some_ne_none _)
          have := le_entriesWeight hlookup
          unfold weight
          omega

/-- A name longer than every name in the tree. -/
def unusedName (t : FileTree α β) : String := String.ofList (List.replicate (t.weight + 1) 'x')

theorem length_unusedName (t : FileTree α β) : (unusedName t).length = t.weight + 1 := by
  simp [unusedName]

end FileTree
