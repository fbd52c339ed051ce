import CyberWorkbench.StepMachine
import Mathlib.Data.List.Perm.Basic

/-!
# Paged lists

`shared/hooks/usePagedResourceList`: a list shows one page of what a query finds for a
keyword.  Every change of page or keyword loads again, a load is asked for after each
edit too, and only the answer to the latest request counts.

A change is rendered and its effect has run before anything else happens.  `loadItems`
belongs to a render, and loads the page and keyword of that one whenever it is called.

* `current_runs` — the awaited answer is always one for the page and keyword that the list
  stands at, exactly if no `loadItems` of an earlier page or keyword is called.
* `list_shows` — then a list that does not load shows what was answered for them, unless
  the last request failed.
* `list_settles` — with a server that stays as it is, the list comes to rest on the last
  page up to its own that is not empty, or on the first.
-/

namespace Workbench.PagedLists

open StepMachine

section

variable {ι : Type} (trim : String → String)

/-- A request that was sent. -/
structure PageRequest where
  id : Nat
  page : Nat
  keyword : String
  deriving DecidableEq, Repr

/-- The states and refs of the hook, and the requests that are not answered. -/
structure PagedList (ι : Type) where
  items : List ι := []
  page : Nat := 1
  keyword : String := ""
  activeKeyword : String := ""
  total : Nat := 0
  loading : Bool := false
  requestId : Nat := 0
  mounted : Bool := false
  inFlight : List PageRequest := []
  deriving DecidableEq, Repr

/-- `loadItems` of a render with this page and keyword, up to its answer. -/
def PagedList.loadItems (list : PagedList ι) (page : Nat) (keyword : String) : PagedList ι :=
  { list with
    requestId := list.requestId + 1
    loading := true
    inFlight := list.inFlight ++ [{ id := list.requestId + 1, page, keyword }] }

/-- The render after a change: its effect loads when the page or the keyword is another. -/
def PagedList.render (before after : PagedList ι) : PagedList ι :=
  if before.page = after.page ∧ before.activeKeyword = after.activeKeyword then after
  else after.loadItems after.page after.activeKeyword

/-- The answer is still awaited. -/
def PagedList.awaits (list : PagedList ι) (request : PageRequest) : Bool :=
  list.mounted && decide (list.requestId = request.id)

/-- `loadItems` with its answer, which need not have data. -/
def PagedList.answered (list : PagedList ι) (request : PageRequest) (data : Option (List ι × Nat)) :
    PagedList ι :=
  let nextItems := (data.map Prod.fst).getD []
  let answered := { list with total := (data.map Prod.snd).getD 0, loading := false }
  if nextItems.isEmpty ∧ 1 < request.page then
    answered.render { answered with page := max 1 (answered.page - 1) }
  else { answered with items := nextItems }

inductive ListAction (ι : Type)
  | mount
  | setKeyword (keyword : String)
  | search
  | previous
  | next
  | goToFirstPage
  | loadItems (page : Nat) (keyword : String)
  | answer (position : Nat) (data : Option (List ι × Nat))
  | fail (position : Nat)
  | unmount
  deriving DecidableEq, Repr

/-- What a user does with the list while it is there. -/
def PagedList.use (list : PagedList ι) (change : PagedList ι → PagedList ι) :
    Option (PagedList ι) :=
  if list.mounted then some (list.render (change list)) else none

/-- The request at this position comes back. -/
def PagedList.settle (list : PagedList ι) (position : Nat)
    (accept : PagedList ι → PageRequest → PagedList ι) : Option (PagedList ι) :=
  (list.inFlight[position]?).map fun request =>
    let rest := { list with inFlight := list.inFlight.eraseIdx position }
    if list.awaits request then accept rest request else rest

def listMachine : Machine (PagedList ι) (ListAction ι) where
  Start list := list = {}
  step list
    | .mount =>
        if list.mounted = false ∧ list.requestId = 0 then
          some ({ list with mounted := true }.loadItems list.page list.activeKeyword)
        else none
    | .setKeyword keyword => list.use (fun list => { list with keyword := keyword })
    | .search => list.use (fun list => { list with page := 1, activeKeyword := trim list.keyword })
    | .previous => list.use (fun list => { list with page := max 1 (list.page - 1) })
    | .next => list.use (fun list => { list with page := list.page + 1 })
    | .goToFirstPage => list.use (fun list => { list with page := 1 })
    | .loadItems page keyword => if list.mounted then some (list.loadItems page keyword) else none
    | .answer position data => list.settle position (fun list request => list.answered request data)
    | .fail position => list.settle position (fun list _ => { list with loading := false })
    | .unmount =>
        if list.mounted then
          some { list with mounted := false, requestId := list.requestId + 1 }
        else none

/-! ### Steps -/

/-- A `loadItems` of an earlier render that had another page or keyword. -/
def isOutdated (list : PagedList ι) : ListAction ι → Bool
  | .loadItems page keyword => decide (page ≠ list.page ∨ keyword ≠ list.activeKeyword)
  | _ => false

/-- The list without the request at this position. -/
def PagedList.without (list : PagedList ι) (position : Nat) : PagedList ι :=
  { list with inFlight := list.inFlight.eraseIdx position }

/-- A change that is none of the requests, nor of what they brought. -/
structure SameRequests (list after : PagedList ι) : Prop where
  inFlight : after.inFlight = list.inFlight
  requestId : after.requestId = list.requestId
  mounted : after.mounted = list.mounted
  items : after.items = list.items
  total : after.total = list.total
  loading : after.loading = list.loading
  page : 1 ≤ list.page → 1 ≤ after.page

/-- What a step does. -/
inductive ListStep (list : PagedList ι) : ListAction ι → PagedList ι → Prop
  | mount (hmounted : list.mounted = false) :
      ListStep list .mount ({ list with mounted := true }.loadItems list.page list.activeKeyword)
  | change {action : ListAction ι} {after : PagedList ι} (hmounted : list.mounted = true)
      (hcurrent : isOutdated list action = false) (hsame : SameRequests list after) :
      ListStep list action (list.render after)
  | load (page : Nat) (keyword : String) (hmounted : list.mounted = true) :
      ListStep list (.loadItems page keyword) (list.loadItems page keyword)
  | dropped {action : ListAction ι} {position : Nat} {request : PageRequest}
      (hcurrent : isOutdated list action = false)
      (hrequest : list.inFlight[position]? = some request) (hawaits : list.awaits request = false) :
      ListStep list action (list.without position)
  | answered {position : Nat} {request : PageRequest} (data : Option (List ι × Nat))
      (hrequest : list.inFlight[position]? = some request) (hawaits : list.awaits request = true) :
      ListStep list (.answer position data) ((list.without position).answered request data)
  | failed {position : Nat} {request : PageRequest}
      (hrequest : list.inFlight[position]? = some request) (hawaits : list.awaits request = true) :
      ListStep list (.fail position) { list.without position with loading := false }
  | unmount : ListStep list .unmount { list with mounted := false, requestId := list.requestId + 1 }

theorem use_cases {list next : PagedList ι} {action : ListAction ι}
    {change : PagedList ι → PagedList ι} (h : list.use change = some next)
    (hcurrent : isOutdated list action = false) (hsame : SameRequests list (change list)) :
    ListStep list action next := by
  rw [PagedList.use] at h
  split at h
  · rename_i hmounted
    obtain rfl := Option.some.inj h
    exact .change hmounted hcurrent hsame
  · cases h

theorem step_cases {list next : PagedList ι} {action : ListAction ι}
    (h : (listMachine trim).step list action = some next) : ListStep list action next := by
  cases action with
  | mount =>
      simp only [listMachine] at h
      split at h
      · rename_i hmount
        obtain rfl := Option.some.inj h
        exact .mount hmount.1
      · cases h
  | setKeyword keyword =>
      simp only [listMachine] at h
      exact use_cases h rfl ⟨rfl, rfl, rfl, rfl, rfl, rfl, id⟩
  | search =>
      simp only [listMachine] at h
      exact use_cases h rfl ⟨rfl, rfl, rfl, rfl, rfl, rfl, fun _ => Nat.le_refl 1⟩
  | previous =>
      simp only [listMachine] at h
      exact use_cases h rfl ⟨rfl, rfl, rfl, rfl, rfl, rfl, fun _ => Nat.le_max_left 1 _⟩
  | next =>
      simp only [listMachine] at h
      exact use_cases h rfl ⟨rfl, rfl, rfl, rfl, rfl, rfl, fun _ => Nat.succ_le_succ (Nat.zero_le _)⟩
  | goToFirstPage =>
      simp only [listMachine] at h
      exact use_cases h rfl ⟨rfl, rfl, rfl, rfl, rfl, rfl, fun _ => Nat.le_refl 1⟩
  | loadItems page keyword =>
      simp only [listMachine] at h
      split at h
      · rename_i hmounted
        obtain rfl := Option.some.inj h
        exact .load page keyword hmounted
      · cases h
  | answer position data =>
      obtain ⟨request, hrequest, rfl⟩ := Option.map_eq_some_iff.mp h
      cases hawaits : list.awaits request with
      | false => exact .dropped rfl hrequest hawaits
      | true => exact .answered data hrequest hawaits
  | fail position =>
      obtain ⟨request, hrequest, rfl⟩ := Option.map_eq_some_iff.mp h
      cases hawaits : list.awaits request with
      | false => exact .dropped rfl hrequest hawaits
      | true => exact .failed hrequest hawaits
  | unmount =>
      simp only [listMachine] at h
      split at h
      · obtain rfl := Option.some.inj h
        exact .unmount
      · cases h

/-- A render shows the change, or the change with a load of what it asks for. -/
theorem render_cases (before after : PagedList ι) :
    (before.page = after.page ∧ before.activeKeyword = after.activeKeyword ∧
        before.render after = after) ∨
      before.render after = after.loadItems after.page after.activeKeyword := by
  rw [PagedList.render]
  split
  · rename_i h
    exact .inl ⟨h.1, h.2, rfl⟩
  · exact .inr rfl

/-- An accepted answer shows its items, or turns back a page and loads that. -/
theorem answered_cases (list : PagedList ι) (request : PageRequest) (data : Option (List ι × Nat)) :
    ((data.map Prod.fst).getD [] = [] → request.page ≤ 1) ∧
        list.answered request data = { list with
          total := (data.map Prod.snd).getD 0
          loading := false
          items := (data.map Prod.fst).getD [] } ∨
      ((data.map Prod.fst).getD [] = [] ∧ 1 < request.page) ∧
        list.answered request data =
          { list with total := (data.map Prod.snd).getD 0, loading := false }.render
            { list with
              total := (data.map Prod.snd).getD 0
              loading := false
              page := max 1 (list.page - 1) } := by
  rw [PagedList.answered]
  split
  · rename_i h
    exact .inr ⟨⟨List.isEmpty_iff.mp h.1, h.2⟩, rfl⟩
  · rename_i h
    refine .inl ⟨fun hempty => ?_, rfl⟩
    exact Nat.le_of_not_lt (fun hlater => h ⟨List.isEmpty_iff.mpr hempty, hlater⟩)

/-! ### Requests -/

/-- Requests have different numbers, up to the latest, the latest is in flight while the
list loads, and the first page is 1. -/
structure Numbered (list : PagedList ι) : Prop where
  distinct : (list.inFlight.map PageRequest.id).Nodup
  sent : ∀ request ∈ list.inFlight, request.id ≤ list.requestId
  awaited : list.mounted = true → list.loading = true →
    ∃ request ∈ list.inFlight, request.id = list.requestId
  page : 1 ≤ list.page

theorem numbered_start : Numbered ({} : PagedList ι) where
  distinct := List.nodup_nil
  sent := by intro request h; cases h
  awaited := by intro h; cases h
  page := Nat.le_refl 1

theorem numbered_loadItems {list : PagedList ι} (hdistinct : (list.inFlight.map PageRequest.id).Nodup)
    (hsent : ∀ request ∈ list.inFlight, request.id ≤ list.requestId) (hpage : 1 ≤ list.page)
    (page : Nat) (keyword : String) : Numbered (list.loadItems page keyword) := by
  have hnew : { id := list.requestId + 1, page := page, keyword := keyword } ∈
      (list.loadItems page keyword).inFlight :=
    List.mem_append.mpr (.inr (List.mem_singleton_self _))
  refine ⟨?_, ?_, fun _ _ => ⟨_, hnew, rfl⟩, hpage⟩
  · rw [PagedList.loadItems, List.map_append, List.nodup_append]
    refine ⟨hdistinct, List.nodup_cons.mpr ⟨List.not_mem_nil, List.nodup_nil⟩, ?_⟩
    intro id hid id' hid' heq
    obtain ⟨request, hrequest, rfl⟩ := List.mem_map.mp hid
    obtain rfl : id' = list.requestId + 1 := by simpa using hid'
    have hle := hsent request hrequest
    omega
  · intro request hrequest
    rcases List.mem_append.mp hrequest with hold | hadded
    · exact Nat.le_succ_of_le (hsent request hold)
    · rw [List.mem_singleton.mp hadded]
      exact Nat.le_refl _

theorem Numbered.same {list after : PagedList ι} (h : Numbered list)
    (hsame : SameRequests list after) : Numbered after := by
  refine ⟨hsame.inFlight ▸ h.distinct, ?_, ?_, hsame.page h.page⟩
  · rw [hsame.inFlight, hsame.requestId]
    exact h.sent
  · rw [hsame.inFlight, hsame.requestId, hsame.mounted, hsame.loading]
    exact h.awaited

theorem Numbered.render {before after : PagedList ι} (h : Numbered after) :
    Numbered (before.render after) := by
  rcases render_cases before after with ⟨_, _, heq⟩ | heq
  · rw [heq]
    exact h
  · rw [heq]
    exact numbered_loadItems h.distinct h.sent h.page _ _

/-- What is still in flight when a request came back, and loading has ended. -/
theorem Numbered.arrived {list after : PagedList ι} (h : Numbered list) {position : Nat}
    (hflight : after.inFlight = list.inFlight.eraseIdx position)
    (hid : after.requestId = list.requestId) (hloading : after.loading = false)
    (hpage : 1 ≤ after.page) : Numbered after := by
  refine ⟨?_, ?_, ?_, hpage⟩
  · rw [hflight]
    exact (List.Sublist.map _ (List.eraseIdx_sublist _ _)).nodup h.distinct
  · rw [hflight, hid]
    exact fun request hrequest => h.sent request (List.mem_of_mem_eraseIdx hrequest)
  · intro _ hloads
    rw [hloading] at hloads
    cases hloads

/-- A request other than the one that came back is still in flight. -/
theorem mem_eraseIdx_of_ne {requests : List PageRequest} {position : Nat} {request other : PageRequest}
    (h : requests[position]? = some request) (hother : other ∈ requests) (hne : other ≠ request) :
    other ∈ requests.eraseIdx position := by
  obtain ⟨hlt, hget⟩ := List.getElem?_eq_some_iff.mp h
  have hperm := List.getElem_cons_eraseIdx_perm hlt
  rcases List.mem_cons.mp (hperm.mem_iff.mpr hother) with heq | hmem
  · exact absurd (heq.trans hget) hne
  · exact hmem

theorem Numbered.step {list next : PagedList ι} {action : ListAction ι} (h : Numbered list)
    (hstep : ListStep list action next) : Numbered next := by
  cases hstep with
  | mount _ =>
      refine numbered_loadItems ?_ ?_ ?_ _ _
      · exact h.distinct
      · exact h.sent
      · exact h.page
  | change hmounted _ hsame => exact (h.same hsame).render
  | load page keyword _ => exact numbered_loadItems h.distinct h.sent h.page page keyword
  | @dropped _ position request _ hrequest hawaits =>
      refine ⟨(List.Sublist.map _ (List.eraseIdx_sublist _ _)).nodup h.distinct,
        fun request hmem => h.sent request (List.mem_of_mem_eraseIdx hmem), ?_, h.page⟩
      intro hmounted hloading
      have hlist : list.mounted = true := hmounted
      obtain ⟨latest, hlatest, hid⟩ := h.awaited hlist hloading
      refine ⟨latest, mem_eraseIdx_of_ne hrequest hlatest ?_, hid⟩
      rintro rfl
      rw [PagedList.awaits, hlist, Bool.true_and, decide_eq_false_iff_not] at hawaits
      exact hawaits hid.symm
  | @answered position request data hrequest hawaits =>
      rcases answered_cases (list.without position) request data with ⟨_, heq⟩ | ⟨_, heq⟩
      · rw [heq]
        exact h.arrived rfl rfl rfl h.page
      · rw [heq]
        refine Numbered.render ?_
        exact h.arrived rfl rfl rfl (Nat.le_max_left 1 _)
  | failed _ _ => exact h.arrived rfl rfl rfl h.page
  | unmount =>
      refine ⟨h.distinct, fun request hmem => Nat.le_succ_of_le (h.sent request hmem), ?_, h.page⟩
      intro hmounted
      cases hmounted

/-! ### The awaited answer -/

/-- The awaited answer is for the page and keyword the list stands at. -/
def Current (list : PagedList ι) : Prop :=
  list.mounted = true → ∀ request ∈ list.inFlight, request.id = list.requestId →
    request.page = list.page ∧ request.keyword = list.activeKeyword

theorem current_start : Current ({} : PagedList ι) := by
  intro h
  cases h

/-- After a load the awaited answer is that of the load. -/
theorem current_loadItems {list : PagedList ι}
    (hsent : ∀ request ∈ list.inFlight, request.id ≤ list.requestId)
    (hmounted : list.mounted = true) (page : Nat) (keyword : String) :
    Current (list.loadItems page keyword) ↔ page = list.page ∧ keyword = list.activeKeyword := by
  constructor
  · intro hcurrent
    exact hcurrent hmounted { id := list.requestId + 1, page, keyword }
      (List.mem_append.mpr (.inr (List.mem_singleton_self _))) rfl
  · intro heq _ request hrequest hid
    rcases List.mem_append.mp hrequest with hold | hnew
    · have hle := hsent request hold
      have hnext : request.id = list.requestId + 1 := hid
      omega
    · rw [List.mem_singleton.mp hnew]
      exact heq

/-- A change that is rendered leaves the list waiting for the right answer. -/
theorem current_render {before after : PagedList ι} (h : Current before)
    (hsent : ∀ request ∈ before.inFlight, request.id ≤ before.requestId)
    (hmounted : before.mounted = true) (hsame : SameRequests before after) :
    Current (before.render after) := by
  rcases render_cases before after with ⟨hpage, hkeyword, heq⟩ | heq
  · rw [heq]
    intro _ request hrequest hid
    rw [hsame.inFlight] at hrequest
    obtain ⟨hrequestPage, hrequestKeyword⟩ := h hmounted request hrequest (hid.trans hsame.requestId)
    exact ⟨hrequestPage.trans hpage, hrequestKeyword.trans hkeyword⟩
  · rw [heq]
    refine (current_loadItems ?_ (hsame.mounted.trans hmounted) _ _).mpr ⟨rfl, rfl⟩
    rw [hsame.inFlight, hsame.requestId]
    exact hsent

theorem Current.without {list after : PagedList ι} (h : Current list) {position : Nat}
    (hflight : after.inFlight = list.inFlight.eraseIdx position)
    (hid : after.requestId = list.requestId) (hmounted : after.mounted = list.mounted)
    (hpage : after.page = list.page) (hkeyword : after.activeKeyword = list.activeKeyword) :
    Current after := by
  intro hafter request hrequest heq
  rw [hflight] at hrequest
  rw [hpage, hkeyword]
  exact h (hmounted ▸ hafter) request (List.mem_of_mem_eraseIdx hrequest) (heq.trans hid)

/-- **One step**: the awaited answer stays the right one exactly when no outdated
`loadItems` is called. -/
theorem current_step {list next : PagedList ι} {action : ListAction ι} (h : Numbered list)
    (hcurrent : Current list) (hstep : ListStep list action next) :
    Current next ↔ isOutdated list action = false := by
  cases hstep with
  | mount _ =>
      refine iff_of_true ?_ rfl
      refine (current_loadItems ?_ rfl _ _).mpr ⟨rfl, rfl⟩
      exact h.sent
  | change hmounted hnot hsame =>
      exact iff_of_true (current_render hcurrent h.sent hmounted hsame) hnot
  | load page keyword hmounted =>
      rw [current_loadItems h.sent hmounted, isOutdated, decide_eq_false_iff_not, not_or,
        not_not, not_not]
  | dropped hnot _ _ => exact iff_of_true (hcurrent.without rfl rfl rfl rfl rfl) hnot
  | @answered position request data hrequest hawaits =>
      refine iff_of_true ?_ rfl
      have hmounted : list.mounted = true := by
        rw [PagedList.awaits, Bool.and_eq_true] at hawaits
        exact hawaits.1
      rcases answered_cases (list.without position) request data with ⟨_, heq⟩ | ⟨_, heq⟩
      · rw [heq]
        exact hcurrent.without rfl rfl rfl rfl rfl
      · rw [heq]
        refine current_render ?_ ?_ ?_ ⟨rfl, rfl, rfl, rfl, rfl, rfl, fun _ => Nat.le_max_left 1 _⟩
        · exact hcurrent.without rfl rfl rfl rfl rfl
        · exact fun other hmem => h.sent other (List.mem_of_mem_eraseIdx hmem)
        · exact hmounted
  | failed _ _ => exact iff_of_true (hcurrent.without rfl rfl rfl rfl rfl) rfl
  | unmount =>
      refine iff_of_true ?_ rfl
      intro hmounted
      cases hmounted

/-! ### What is shown -/

variable (Answers : Nat → String → List ι → Nat → Prop)

/-- No `loadItems` is outdated, an answer is one for its request, and the awaited request
does not fail. -/
structure Regular (list : PagedList ι) (action : ListAction ι) : Prop where
  current : isOutdated list action = false
  honest : ∀ position data request, action = .answer position data →
    list.inFlight[position]? = some request →
      Answers request.page request.keyword ((data.map Prod.fst).getD []) ((data.map Prod.snd).getD 0)
  succeeds : ∀ position request, action = .fail position →
    list.inFlight[position]? = some request → list.awaits request = false

/-- A list that does not load shows what was answered for its page and keyword. -/
def Shows (list : PagedList ι) : Prop :=
  list.mounted = true → list.loading = false →
    Answers list.page list.activeKeyword list.items list.total

theorem shows_render {before after : PagedList ι} (h : before.page = after.page →
    before.activeKeyword = after.activeKeyword → Shows Answers after) :
    Shows Answers (before.render after) := by
  rcases render_cases before after with ⟨hpage, hkeyword, heq⟩ | heq
  · rw [heq]
    exact h hpage hkeyword
  · rw [heq]
    intro _ hloading
    cases hloading

theorem shows_step {list next : PagedList ι} {action : ListAction ι}
    (hcurrent : Current list) (hshows : Shows Answers list) (hregular : Regular Answers list action)
    (hstep : ListStep list action next) : Shows Answers next := by
  cases hstep with
  | mount _ =>
      intro _ hloading
      cases hloading
  | @change _ after hmounted _ hsame =>
      refine shows_render Answers ?_
      intro hpage hkeyword _ hloading
      rw [← hpage, ← hkeyword, hsame.items, hsame.total]
      exact hshows hmounted (hsame.loading ▸ hloading)
  | load page keyword _ =>
      intro _ hloading
      cases hloading
  | dropped _ _ _ => exact hshows
  | @answered position request data hrequest hawaits =>
      rw [PagedList.awaits, Bool.and_eq_true, decide_eq_true_eq] at hawaits
      obtain ⟨hpage, hkeyword⟩ := hcurrent hawaits.1 request (List.mem_of_getElem? hrequest)
        hawaits.2.symm
      rcases answered_cases (list.without position) request data with ⟨_, heq⟩ | ⟨⟨_, hlater⟩, heq⟩
      · rw [heq]
        intro _ _
        have hanswer := hregular.honest position data request rfl hrequest
        rw [hpage, hkeyword] at hanswer
        exact hanswer
      · -- the page before is another one, so it is loaded
        rw [heq]
        refine shows_render Answers ?_
        intro hsame
        have hback : list.page = max 1 (list.page - 1) := hsame
        omega
  | @failed position request hrequest hawaits =>
      have hnot := hregular.succeeds position request rfl hrequest
      rw [hawaits] at hnot
      cases hnot
  | unmount =>
      intro hmounted
      cases hmounted

/-- **Pages and answers.**  Along every run from a list that is not mounted, the awaited
answer is always for the page and keyword the list stands at exactly if no outdated
`loadItems` is called; and if the awaited request does not fail either, a list that does
not load shows what was answered for its page and keyword. -/
theorem list_runs (acts : List (ListAction ι)) :
    (StepsMeet (listMachine trim) (fun _ _ next => Current next) {} acts ↔
        StepsMeet (listMachine trim) (fun list action _ => isOutdated list action = false) {} acts) ∧
      (StepsMeet (listMachine trim) (fun list action _ => Regular Answers list action) {} acts →
        StepsMeet (listMachine trim) (fun _ _ next => 1 ≤ next.page ∧ Shows Answers next) {} acts) := by
  refine ⟨stepsMeet_kept_iff (I := Numbered) (K := Current) (fun list action next h hstep => h.step (step_cases trim hstep))
    (fun list action next h hcurrent hstep => current_step h hcurrent (step_cases trim hstep))
    numbered_start current_start, ?_⟩
  intro hregular
  have hkeep : ∀ list action next, (Numbered list ∧ Current list ∧ Shows Answers list) →
      Regular Answers list action → (listMachine trim).step list action = some next →
        Numbered next ∧ Current next ∧ Shows Answers next := by
    rintro list action next ⟨hnumbered, hcurrent, hshows⟩ hregular hstep
    have hcases := step_cases trim hstep
    exact ⟨hnumbered.step hcases, (current_step hnumbered hcurrent hcases).mpr hregular.current,
      shows_step Answers hcurrent hshows hregular hcases⟩
  refine stepsMeet_of_invariant hkeep ?_ ⟨numbered_start, current_start, ?_⟩ hregular
  · intro list action next h hregular hstep
    obtain ⟨hnumbered, _, hshows⟩ := hkeep list action next h hregular hstep
    exact ⟨hnumbered.page, hshows⟩
  · intro hmounted
    cases hmounted

-- a `loadItems` of the first page is called on the second, and its answer is taken for it
example : (exec (listMachine id) {} [.mount, .answer 0 (some ([1], 2)), .next, .loadItems 1 "",
    .answer 1 (some ([1], 2))]).map (fun list => (list.page, list.items, list.loading)) =
      some (2, [1], false) := by decide

/-! ### Coming to rest -/

/-- The awaited answer of a server that stays as it is. -/
def IsServed (serve : Nat → String → List ι × Nat) (list : PagedList ι) (action : ListAction ι) :
    Prop :=
  ∃ position request, list.inFlight[position]? = some request ∧ list.awaits request = true ∧
    action = .answer position (some (serve request.page request.keyword))

/-- At rest, on the last page up to this one that is not empty, or on the first. -/
structure AtRest (serve : Nat → String → List ι × Nat) (start : Nat) (searched : String)
    (list : PagedList ι) : Prop where
  loading : list.loading = false
  keyword : list.activeKeyword = searched
  shown : (list.items, list.total) = serve list.page searched
  page : list.page ≤ start
  later : ∀ other, list.page < other → other ≤ start → (serve other searched).1 = []
  nonempty : list.items = [] → list.page = 1

/-- A list that loads comes to rest after as many answers as its page at most. -/
theorem exists_atRest (serve : Nat → String → List ι × Nat) (page : Nat) {list : PagedList ι}
    (h : Numbered list) (hcurrent : Current list) (hmounted : list.mounted = true)
    (hloading : list.loading = true) (hpage : list.page = page) :
    ∃ answers rest, answers.length ≤ page ∧ exec (listMachine trim) list answers = some rest ∧
      StepsMeet (listMachine trim) (fun list action _ => IsServed serve list action) list answers ∧
      AtRest serve page list.activeKeyword rest := by
  induction page generalizing list with
  | zero =>
      have hone := h.page
      omega
  | succ n ih =>
      obtain ⟨request, hmem, hid⟩ := h.awaited hmounted hloading
      obtain ⟨position, hrequest⟩ := List.mem_iff_getElem?.mp hmem
      have hawaits : list.awaits request = true := by
        rw [PagedList.awaits, hmounted, Bool.true_and, decide_eq_true_eq]
        exact hid.symm
      obtain ⟨hrequestPage, hrequestKeyword⟩ := hcurrent hmounted request hmem hid
      have hserved : IsServed serve list
          (.answer position (some (serve request.page request.keyword))) :=
        ⟨position, request, hrequest, hawaits, rfl⟩
      have hstep : (listMachine trim).step list
          (.answer position (some (serve request.page request.keyword))) =
            some ((list.without position).answered request
              (some (serve request.page request.keyword))) := by
        simp only [listMachine, PagedList.settle, hrequest, Option.map_some, hawaits]
        rfl
      have hcases := step_cases trim hstep
      have hnext := h.step hcases
      have hnextCurrent := (current_step h hcurrent hcases).mpr rfl
      rcases answered_cases (list.without position) request
        (some (serve request.page request.keyword)) with ⟨hempty, heq⟩ | ⟨⟨hempty, hlater⟩, heq⟩
      · -- the answer is shown
        refine ⟨[_], _, Nat.succ_le_succ (Nat.zero_le n), exec_cons_of_step [] hstep,
          stepsMeet_cons hstep hserved trivial, ?_⟩
        rw [heq]
        refine ⟨rfl, rfl, ?_, Nat.le_of_eq hpage, ?_, ?_⟩
        · show (serve request.page request.keyword) = serve list.page list.activeKeyword
          rw [hrequestPage, hrequestKeyword]
        · intro other hlt hle
          have hlt' : list.page < other := hlt
          omega
        · intro hitems
          have hle := hempty hitems
          have hone := h.page
          show list.page = 1
          omega
      · -- the page was empty: the one before it is loaded
        have hback : ¬ list.page = max 1 (list.page - 1) := by omega
        rw [heq, PagedList.render, if_neg (fun hsame => hback hsame.1)] at hstep hnext hnextCurrent
        obtain ⟨answers, rest, hlength, hexec, hmeets, hrest⟩ := ih hnext hnextCurrent hmounted rfl
          (by show max 1 (list.page - 1) = n; omega)
        refine ⟨_ :: answers, rest, Nat.succ_le_succ hlength, ?_, stepsMeet_cons hstep hserved hmeets,
          hrest.loading, hrest.keyword, hrest.shown, Nat.le_succ_of_le hrest.page, ?_, hrest.nonempty⟩
        · rw [exec_cons_of_step answers hstep]
          exact hexec
        · intro other hlt hle
          rcases Nat.lt_or_ge n other with hlast | hbefore
          · have hthis : other = request.page := by omega
            rw [hthis, ← hrequestKeyword]
            exact hempty
          · exact hrest.later other hlt hbefore

/-- **Coming to rest.**  After any run in which no outdated `loadItems` was called, a list
that loads comes to rest when its awaited requests are answered by a server that stays as
it is: on the last page up to its own that is not empty, or on the first. -/
theorem list_settles (serve : Nat → String → List ι × Nat) {acts : List (ListAction ι)}
    {list : PagedList ι} (hrun : exec (listMachine trim) {} acts = some list)
    (hok : StepsMeet (listMachine trim) (fun list action _ => isOutdated list action = false) {} acts)
    (hmounted : list.mounted = true) (hloading : list.loading = true) :
    ∃ answers rest, answers.length ≤ list.page ∧
      exec (listMachine trim) list answers = some rest ∧
      StepsMeet (listMachine trim) (fun list action _ => IsServed serve list action) list answers ∧
      AtRest serve list.page list.activeKeyword rest := by
  have hinvariant : Numbered list ∧ Current list := by
    refine exec_invariant (I := fun list => Numbered list ∧ Current list) ?_
      ⟨numbered_start, current_start⟩ hok hrun
    rintro list action next ⟨hnumbered, hcurrent⟩ hnot hstep
    have hcases := step_cases trim hstep
    exact ⟨hnumbered.step hcases, (current_step hnumbered hcurrent hcases).mpr hnot⟩
  exact exists_atRest trim serve list.page hinvariant.1 hinvariant.2 hmounted hloading rfl

/-- The second page has become empty: the list turns back to the first. -/
theorem list_settles_emptied : ∃ list answers rest,
    exec (listMachine id) {} [.mount, .answer 0 (some ([1], 1)), .next] = some list ∧
      exec (listMachine id) list answers = some rest ∧
      AtRest (fun page _ => if page = 1 then ([1], 1) else ([], 1)) list.page "" rest := by
  have hstate : (exec (listMachine id) {} [.mount, .answer 0 (some ([1], 1)), .next]).map
      (fun list => (list.mounted, list.loading, list.activeKeyword)) = some (true, true, "") := by
    decide
  obtain ⟨list, hrun, hlist⟩ := Option.map_eq_some_iff.mp hstate
  obtain ⟨hmounted, hrest⟩ := Prod.mk.inj hlist
  obtain ⟨hloading, hkeyword⟩ := Prod.mk.inj hrest
  obtain ⟨answers, rest, _, hexec, _, hatRest⟩ := list_settles id
    (fun page _ => if page = 1 then ([1], 1) else ([], 1)) hrun (by decide) hmounted hloading
  exact ⟨list, answers, rest, hrun, hexec, hkeyword ▸ hatRest⟩

end

end Workbench.PagedLists
