import CyberWorkbench.QueuedScope
import Mathlib.Data.List.TakeWhile

/-!
# The targets of a message

`core/execution_guard`: the URLs of a message are found by a regular
expression, stripped of what may follow them in a sentence, and read by
`urlsplit`, which may raise, and so may its port.

`scope_usable_iff`: extraction returns, and what it returns can be compared and
named, exactly for messages whose matches can all be split and, where they are
web URLs, have a port.

`urlsplit` and `str.lower` are parameters; of an identifier of a target only the
name is followed that is hashed into it.
-/

namespace Workbench.TargetUrls

open PythonValues RuntimePermissions

variable (urlsplit : String → Except String SplitResult) (lower : String → String)

/-- `target_id`: the name whose hash it is. -/
def targetId (target : String) : Except String String := do
  let parsed ← urlsplit (lower (strip target))
  if parsed.hostname.getD "" ≠ "" then
    let port ← parsed.effectivePort
    return parsed.scheme ++ "://" ++ parsed.hostname.getD "" ++ ":" ++ toString port
  else return lower (strip target)

/-- What is found in a text, as `extract_urls` reads it. -/
def foundUrls (text : String) : List String :=
  (findUrls text.toList.length text.toList).map stripUrlEnd

/-- The test of `extract_urls`. -/
def IsWeb (url : SplitResult) : Prop :=
  (url.scheme = "http" ∨ url.scheme = "https") ∧ url.hostname.getD "" ≠ ""

/-- Reading the port does not raise. -/
def HasPort (url : SplitResult) : Prop := ∃ port, url.port = .ok port

/-- A URL that `extract_urls` returns for some text. -/
def Extractable (target : String) : Prop :=
  ∃ text urls, extractUrls urlsplit text = .ok urls ∧ target ∈ urls

/-- **The targets of a text are usable** for an action on `target`. -/
def UsableScope (text target : String) : Prop :=
  ∃ urls, extractUrls urlsplit text = .ok urls ∧ ∀ url ∈ urls,
    (∃ same, RuntimePermissions.sameTarget urlsplit target url = .ok same) ∧
      (∃ name, targetId urlsplit lower url = .ok name) ∧ RuntimePermissions.sameTarget urlsplit url url = .ok true

/-- **What is found can be read**: all of it can be split, the web URLs have a
port, in lower case as well, and so does the target if it is on the host of one
of them. -/
structure ReadableUrls (text target : String) : Prop where
  split : ∀ url ∈ foundUrls text, ∃ parsed, urlsplit url = .ok parsed
  port : ∀ url ∈ foundUrls text, ∀ parsed, urlsplit url = .ok parsed → IsWeb parsed →
    HasPort parsed
  lowered : ∀ url ∈ foundUrls text, ∀ parsed, urlsplit url = .ok parsed → IsWeb parsed →
    ∃ other, urlsplit (lower (strip url)) = .ok other ∧
      (other.hostname.getD "" ≠ "" → HasPort other)
  target : ∀ url ∈ foundUrls text, ∀ parsed other, urlsplit url = .ok parsed → IsWeb parsed →
    urlsplit target = .ok other → other.scheme = parsed.scheme →
      other.hostname = parsed.hostname → HasPort other

variable {urlsplit lower}

/-! ### Extraction -/

theorem collectUrls_cons {raw : List Char} {rest : List (List Char)} {values : List String}
    {parsed : SplitResult} (h : urlsplit (stripUrlEnd raw) = .ok parsed) :
    collectUrls urlsplit (raw :: rest) values = collectUrls urlsplit rest
      (if (parsed.scheme = "http" ∨ parsed.scheme = "https") ∧ parsed.hostname.getD "" ≠ "" ∧
          stripUrlEnd raw ∉ values then values ++ [stripUrlEnd raw] else values) := by
  rw [collectUrls]
  simp only [h, bind, Except.bind]
  split <;> rfl

/-- What the loop collects, if it comes to its end. -/
theorem collectUrls_iff (raws : List (List Char)) (values : List String) :
    (∃ urls, collectUrls urlsplit raws values = .ok urls) ↔
      ∀ raw ∈ raws, ∃ parsed, urlsplit (stripUrlEnd raw) = .ok parsed := by
  induction raws generalizing values with
  | nil => exact ⟨fun _ raw hraw => (List.not_mem_nil hraw).elim, fun _ => ⟨values, rfl⟩⟩
  | cons raw rest ih =>
      cases hsplit : urlsplit (stripUrlEnd raw) with
      | error message =>
          constructor
          · rintro ⟨urls, hurls⟩
            rw [collectUrls] at hurls
            simp only [hsplit, bind, Except.bind] at hurls
            cases hurls
          · intro hall
            obtain ⟨parsed, hparsed⟩ := hall raw List.mem_cons_self
            rw [hsplit] at hparsed
            cases hparsed
      | ok parsed =>
          rw [collectUrls_cons hsplit, ih]
          constructor
          · intro hall other hother
            rcases List.mem_cons.mp hother with rfl | hother
            · exact ⟨parsed, hsplit⟩
            · exact hall other hother
          · exact fun hall other hother => hall other (List.mem_cons_of_mem _ hother)

theorem mem_collectUrls {raws : List (List Char)} {values urls : List String}
    (h : collectUrls urlsplit raws values = .ok urls) (url : String) :
    url ∈ urls ↔ url ∈ values ∨ ∃ raw ∈ raws, stripUrlEnd raw = url ∧
      ∃ parsed, urlsplit url = .ok parsed ∧ IsWeb parsed := by
  induction raws generalizing values with
  | nil =>
      obtain rfl := Except.ok.inj h
      simp
  | cons raw rest ih =>
      have hall := (collectUrls_iff (raw :: rest) values).mp ⟨urls, h⟩
      obtain ⟨parsed, hsplit⟩ := hall raw List.mem_cons_self
      rw [collectUrls_cons hsplit] at h
      rw [ih h]
      have hhere : (url ∈ if (parsed.scheme = "http" ∨ parsed.scheme = "https") ∧
          parsed.hostname.getD "" ≠ "" ∧ stripUrlEnd raw ∉ values then values ++ [stripUrlEnd raw]
          else values) ↔ url ∈ values ∨ (stripUrlEnd raw = url ∧ IsWeb parsed) := by
        unfold IsWeb
        split
        · rename_i hweb
          simp only [List.mem_append, List.mem_singleton]
          constructor
          · rintro (hold | rfl)
            · exact .inl hold
            · exact .inr ⟨rfl, hweb.1, hweb.2.1⟩
          · rintro (hold | ⟨rfl, -⟩)
            · exact .inl hold
            · exact .inr rfl
        · rename_i hnot
          refine ⟨.inl, ?_⟩
          rintro (hold | ⟨rfl, hweb⟩)
          · exact hold
          · exact Classical.byContradiction fun hnew => hnot ⟨hweb.1, hweb.2, hnew⟩
      rw [hhere]
      constructor
      · rintro ((hold | ⟨rfl, hweb⟩) | ⟨other, hother, rest⟩)
        · exact .inl hold
        · exact .inr ⟨raw, List.mem_cons_self, rfl, parsed, hsplit, hweb⟩
        · exact .inr ⟨other, List.mem_cons_of_mem _ hother, rest⟩
      · rintro (hold | ⟨other, hother, rfl, parsed', hsplit', hweb⟩)
        · exact .inl (.inl hold)
        · rcases List.mem_cons.mp hother with rfl | hother
          · obtain rfl := Except.ok.inj (hsplit.symm.trans hsplit')
            exact .inl (.inr ⟨rfl, hweb⟩)
          · exact .inr ⟨other, hother, rfl, parsed', hsplit', hweb⟩

/-- **When extraction returns.** -/
theorem extractUrls_ok_iff (text : String) : (∃ urls, extractUrls urlsplit text = .ok urls) ↔
    ∀ url ∈ foundUrls text, ∃ parsed, urlsplit url = .ok parsed := by
  unfold extractUrls foundUrls
  rw [collectUrls_iff]
  constructor
  · intro hall url hurl
    obtain ⟨raw, hraw, rfl⟩ := List.mem_map.mp hurl
    exact hall raw hraw
  · exact fun hall raw hraw => hall _ (List.mem_map_of_mem hraw)

/-- **What it returns**: the web URLs of what is found. -/
theorem mem_extractUrls {text : String} {urls : List String}
    (h : extractUrls urlsplit text = .ok urls) (url : String) :
    url ∈ urls ↔ url ∈ foundUrls text ∧ ∃ parsed, urlsplit url = .ok parsed ∧ IsWeb parsed := by
  rw [mem_collectUrls h url]
  unfold foundUrls
  constructor
  · rintro (hnone | ⟨raw, hraw, rfl, hweb⟩)
    · cases hnone
    · exact ⟨List.mem_map_of_mem hraw, hweb⟩
  · rintro ⟨hfound, hweb⟩
    obtain ⟨raw, hraw, rfl⟩ := List.mem_map.mp hfound
    exact .inr ⟨raw, hraw, rfl, hweb⟩

/-! ### What is found -/

theorem matchScheme_head {text found after : List Char}
    (h : matchScheme text = some (found, after)) :
    ∃ c rest, found = c :: rest ∧ (c = 'h' ∨ c = 'H') := by
  unfold matchScheme at h
  split at h
  case h_2 => cases h
  rename_i c t u p rest
  split at h
  case isFalse => cases h
  rename_i hletters
  simp only [Bool.and_eq_true, Bool.or_eq_true, beq_iff_eq] at hletters
  have hc := hletters.1.1.1
  split at h
  · obtain ⟨rfl, -⟩ := Prod.mk.inj (Option.some.inj h)
    exact ⟨c, _, rfl, hc⟩
  · split at h
    · obtain ⟨rfl, -⟩ := Prod.mk.inj (Option.some.inj h)
      exact ⟨c, _, rfl, hc⟩
    · cases h
  · cases h

theorem findUrls_head {fuel : Nat} {text raw : List Char} (h : raw ∈ findUrls fuel text) :
    ∃ c rest, raw = c :: rest ∧ (c = 'h' ∨ c = 'H') := by
  induction fuel generalizing text with
  | zero => cases h
  | succ fuel ih =>
      cases text with
      | nil => cases h
      | cons c rest =>
          rw [findUrls] at h
          split at h
          · rename_i found after hmatch
            rcases List.mem_cons.mp h with rfl | h
            · unfold matchUrl at hmatch
              split at hmatch
              · cases hmatch
              · rename_i scheme left hscheme
                obtain ⟨c, tail, rfl, hc⟩ := matchScheme_head hscheme
                simp only at hmatch
                split at hmatch
                · cases hmatch
                · obtain ⟨rfl, -⟩ := Prod.mk.inj (Option.some.inj hmatch)
                  exact ⟨c, _, rfl, hc⟩
            · exact ih h
          · exact ih h

/-- The first letter of a match is not stripped. -/
theorem foundUrls_ne_empty {text url : String} (h : url ∈ foundUrls text) : url ≠ "" := by
  obtain ⟨raw, hraw, rfl⟩ := List.mem_map.mp h
  obtain ⟨c, rest, rfl, hc⟩ := findUrls_head hraw
  intro hempty
  have hnil := congrArg String.toList hempty
  simp only [stripUrlEnd, String.toList_ofList, String.toList_empty, List.reverse_eq_nil_iff,
    List.dropWhile_eq_nil_iff] at hnil
  have hstripped := hnil c (by simp)
  rcases hc with rfl | rfl <;> exact absurd hstripped (by decide)

/-! ### Comparing and naming -/

theorem effectivePort_ok_iff (url : SplitResult) :
    (∃ port, url.effectivePort = .ok port) ↔ HasPort url := by
  unfold SplitResult.effectivePort HasPort
  cases url.port with
  | error message =>
      constructor
      · rintro ⟨port, hport⟩
        cases hport
      · rintro ⟨port, hport⟩
        cases hport
  | ok port =>
      refine ⟨fun _ => ⟨port, rfl⟩, fun _ => ?_⟩
      cases port with
      | none => exact ⟨_, rfl⟩
      | some port => cases port <;> exact ⟨_, rfl⟩

/-- When two targets can be compared. -/
theorem sameTarget_ok_iff {actual declared : String} {a d : SplitResult}
    (ha : urlsplit actual = .ok a) (hd : urlsplit declared = .ok d) :
    (∃ same, RuntimePermissions.sameTarget urlsplit actual declared = .ok same) ↔
      (a.scheme = d.scheme → a.hostname = d.hostname → HasPort a ∧ HasPort d) := by
  unfold RuntimePermissions.sameTarget
  simp only [ha, hd, bind, Except.bind]
  rw [← effectivePort_ok_iff a, ← effectivePort_ok_iff d]
  by_cases hhost : a.scheme = d.scheme ∧ a.hostname = d.hostname
  · rw [if_pos hhost]
    simp only [hhost.1, hhost.2, forall_const]
    cases a.effectivePort with
    | error message =>
        constructor
        · rintro ⟨same, hsame⟩
          cases hsame
        · rintro ⟨⟨port, hport⟩, -⟩
          cases hport
    | ok port =>
        cases d.effectivePort with
        | error message =>
            constructor
            · rintro ⟨same, hsame⟩
              cases hsame
            · rintro ⟨-, port', hport⟩
              cases hport
        | ok port' => exact ⟨fun _ => ⟨⟨port, rfl⟩, port', rfl⟩, fun _ => ⟨_, rfl⟩⟩
  · rw [if_neg hhost]
    exact ⟨fun _ hscheme hname => absurd ⟨hscheme, hname⟩ hhost, fun _ => ⟨_, rfl⟩⟩

/-- A target that has a port is the same as itself. -/
theorem sameTarget_self_iff {target : String} {parsed : SplitResult}
    (h : urlsplit target = .ok parsed) :
    RuntimePermissions.sameTarget urlsplit target target = .ok true ↔ HasPort parsed := by
  constructor
  · intro hsame
    exact ((sameTarget_ok_iff h h).mp ⟨true, hsame⟩ rfl rfl).1
  · intro hport
    obtain ⟨port, hport⟩ := (effectivePort_ok_iff parsed).mpr hport
    unfold RuntimePermissions.sameTarget
    simp only [h, bind, Except.bind, hport, and_self, if_true, decide_true]
    rfl

theorem targetId_ok_iff (target : String) : (∃ name, targetId urlsplit lower target = .ok name) ↔
    ∃ other, urlsplit (lower (strip target)) = .ok other ∧
      (other.hostname.getD "" ≠ "" → HasPort other) := by
  unfold targetId
  cases hsplit : urlsplit (lower (strip target)) with
  | error message =>
      constructor
      · rintro ⟨name, hname⟩
        cases hname
      · rintro ⟨other, hother, -⟩
        cases hother
  | ok other =>
      simp only [bind, Except.bind]
      by_cases hhost : other.hostname.getD "" ≠ ""
      · rw [if_pos hhost]
        constructor
        · rintro ⟨name, hname⟩
          refine ⟨other, rfl, fun _ => (effectivePort_ok_iff other).mp ?_⟩
          cases hport : other.effectivePort with
          | error message => rw [hport] at hname; cases hname
          | ok port => exact ⟨port, rfl⟩
        · rintro ⟨other', hother, hport⟩
          obtain rfl := Except.ok.inj hother
          obtain ⟨port, hport⟩ := (effectivePort_ok_iff other).mpr (hport hhost)
          rw [hport]
          exact ⟨_, rfl⟩
      · rw [if_neg hhost]
        exact ⟨fun _ => ⟨other, rfl, fun hne => absurd hne hhost⟩, fun _ => ⟨_, rfl⟩⟩

/-- Comparing with targets that can all be compared does not raise. -/
theorem anySameTarget_ok {actual : String} {declared : List String}
    (h : ∀ item ∈ declared, ∃ same, RuntimePermissions.sameTarget urlsplit actual item = .ok same) :
    ∃ same, anySameTarget urlsplit actual declared = .ok same := by
  induction declared with
  | nil => exact ⟨false, rfl⟩
  | cons item rest ih =>
      obtain ⟨same, hsame⟩ := h item List.mem_cons_self
      obtain ⟨other, hother⟩ := ih (fun later hlater => h later (List.mem_cons_of_mem _ hlater))
      rw [anySameTarget, hsame]
      cases same with
      | true => exact ⟨true, rfl⟩
      | false => exact ⟨other, hother⟩

/-- The network gate comes to a verdict on a target it can compare. -/
theorem gate_ok {call : GateCall} (mode : PermissionMode) (hne : strip call.target ≠ "")
    (h : ∀ item ∈ call.context.allowedTargets,
      ∃ same, RuntimePermissions.sameTarget urlsplit (strip call.target) item = .ok same) :
    ∃ verdict, authorizeNetworkActionRuntime urlsplit mode call = .ok verdict := by
  obtain ⟨same, hsame⟩ := anySameTarget_ok h
  unfold authorizeNetworkActionRuntime
  simp only [if_neg hne, hsame, bind, Except.bind, pure, Except.pure]
  split
  · exact ⟨_, rfl⟩
  · split
    · exact ⟨_, rfl⟩
    · exact ⟨_, rfl⟩

/-! ### Messages -/

/-- **The targets of a message are usable when what is found can be read.** -/
theorem usableScope_iff {text target : String} (htarget : Extractable urlsplit target) :
    UsableScope urlsplit lower text target ↔ ReadableUrls urlsplit lower text target := by
  obtain ⟨source, urls', hurls', hmem⟩ := htarget
  obtain ⟨-, a, ha, -⟩ := (mem_extractUrls hurls' target).mp hmem
  constructor
  · rintro ⟨urls, hurls, huse⟩
    have hweb : ∀ url ∈ foundUrls text, ∀ parsed, urlsplit url = .ok parsed → IsWeb parsed →
        url ∈ urls := fun url hfound parsed hsplit hweb =>
      (mem_extractUrls hurls url).mpr ⟨hfound, parsed, hsplit, hweb⟩
    refine
      { split := (extractUrls_ok_iff text).mp ⟨urls, hurls⟩
        port := fun url hfound parsed hsplit h => ?_
        lowered := fun url hfound parsed hsplit h => ?_
        target := fun url hfound parsed other hsplit h hother hscheme hhost => ?_ }
    · obtain ⟨-, -, hself⟩ := huse url (hweb url hfound parsed hsplit h)
      exact (sameTarget_self_iff hsplit).mp hself
    · obtain ⟨-, hname, -⟩ := huse url (hweb url hfound parsed hsplit h)
      exact (targetId_ok_iff url).mp hname
    · obtain ⟨hsame, -, -⟩ := huse url (hweb url hfound parsed hsplit h)
      exact ((sameTarget_ok_iff hother hsplit).mp hsame hscheme hhost).1
  · intro hread
    obtain ⟨urls, hurls⟩ := (extractUrls_ok_iff text).mpr hread.split
    refine ⟨urls, hurls, fun url hurl => ?_⟩
    obtain ⟨hfound, parsed, hsplit, hweb⟩ := (mem_extractUrls hurls url).mp hurl
    have hport := hread.port url hfound parsed hsplit hweb
    refine ⟨(sameTarget_ok_iff ha hsplit).mpr (fun hscheme hhost => ?_),
      (targetId_ok_iff url).mpr (hread.lowered url hfound parsed hsplit hweb),
      (sameTarget_self_iff hsplit).mpr hport⟩
    exact ⟨hread.target url hfound parsed a hsplit hweb ha hscheme hhost, hport⟩

/-- **The targets of a message are usable exactly when what is found can be
read**, and then neither `submit_turn` nor the gate raises. -/
theorem scope_usable_iff (text target : String) (htarget : Extractable urlsplit target) :
    (UsableScope urlsplit lower text target ↔ ReadableUrls urlsplit lower text target) ∧
      (ReadableUrls urlsplit lower text target →
        (∀ submission : Submission, displayTextFromContent submission.content = text →
          ∃ context, submitTurn urlsplit submission = .ok context) ∧
        ∀ (mode : PermissionMode) (call : GateCall), strip call.target = target →
          extractUrls urlsplit text = .ok call.context.allowedTargets →
            ∃ verdict, authorizeNetworkActionRuntime urlsplit mode call = .ok verdict) := by
  have hiff : UsableScope urlsplit lower text target ↔ ReadableUrls urlsplit lower text target :=
    usableScope_iff htarget
  refine ⟨hiff, fun hread => ?_⟩
  obtain ⟨urls, hurls, huse⟩ := hiff.mpr hread
  constructor
  · rintro submission rfl
    refine ⟨buildRuntimeContext submission urls, ?_⟩
    unfold submitTurn
    rw [hurls]
    rfl
  · rintro mode call rfl hallowed
    obtain ⟨source, urls', hurls', hmem⟩ := htarget
    have hfound := ((mem_extractUrls hurls' (strip call.target)).mp hmem).1
    refine gate_ok mode (foundUrls_ne_empty hfound) (fun item hitem => ?_)
    obtain rfl := Except.ok.inj (hurls.symm.trans hallowed)
    exact (huse item hitem).1

/-! ### Messages that name no readable target -/

/-- The port as `SplitResult.port` reads it. -/
def readPort (digits : List Char) : Except String (Option Nat) :=
  if digits = [] then .ok none
  else if digits.all Char.isDigit = false then
    .error "Port could not be cast to integer value"
  else
    let port := digits.foldl (fun value c => value * 10 + (c.toNat - '0'.toNat)) 0
    if port ≤ 65535 then .ok (some port) else .error "Port out of range 0-65535"

/-- `urlsplit` of a URL that has an authority. -/
def splitAuthority (url : String) : Except String SplitResult :=
  let rest := (url.toList.dropWhile (· != ':')).drop 3
  let netloc := rest.takeWhile (fun c => c != '/' && c != '?' && c != '#')
  let hostinfo := (netloc.reverse.takeWhile (· != '@')).reverse
  if netloc.contains '[' != netloc.contains ']' then .error "Invalid IPv6 URL"
  else .ok
    { scheme := String.ofList ((url.toList.takeWhile (· != ':')).map Char.toLower)
      hostname :=
        if hostinfo.contains '[' then
          some (String.ofList
            (((hostinfo.dropWhile (· != '[')).drop 1).takeWhile (· != ']')))
        else some (String.ofList ((hostinfo.takeWhile (· != ':')).map Char.toLower))
      port :=
        if hostinfo.contains '[' then
          readPort (((hostinfo.dropWhile (· != ']')).dropWhile (· != ':')).drop 1)
        else readPort ((hostinfo.dropWhile (· != ':')).drop 1) }

/-- `str.lower` on ASCII. -/
def lowerAscii (text : String) : String := String.ofList (text.toList.map Char.toLower)

/-- An open bracket stops the extraction; a port that is no number stops every
later use of the URL. -/
theorem scope_not_usable :
    Extractable splitAuthority "http://a.test/" ∧
      ¬ (∃ urls, extractUrls splitAuthority "see http://[x" = .ok urls) ∧
      extractUrls splitAuthority "http://a:b" = .ok ["http://a:b"] ∧
      ¬ UsableScope splitAuthority lowerAscii "http://a:b" "http://a.test/" := by
  have hport : extractUrls splitAuthority "http://a:b" = .ok ["http://a:b"] := by
    decide +kernel
  refine ⟨⟨"http://a.test/", ["http://a.test/"], by decide +kernel, by simp⟩, ?_, hport, ?_⟩
  · rintro ⟨urls, hurls⟩
    have herror : extractUrls splitAuthority "see http://[x" = .error "Invalid IPv6 URL" := by
      decide +kernel
    rw [herror] at hurls
    cases hurls
  · rintro ⟨urls, hurls, huse⟩
    obtain rfl := Except.ok.inj (hport.symm.trans hurls)
    obtain ⟨-, -, hself⟩ := huse "http://a:b" (by simp)
    have herror : RuntimePermissions.sameTarget splitAuthority "http://a:b" "http://a:b" =
        .error "Port could not be cast to integer value" := by
      decide +kernel
    rw [herror] at hself
    cases hself

/-- A target of a message that is read. -/
theorem scope_usable_iff_once :
    Extractable splitAuthority "http://a.test:8080/x" ∧
      (UsableScope splitAuthority lowerAscii "scan http://a.test:8080/x, please"
          "http://a.test:8080/x" ↔
        ReadableUrls splitAuthority lowerAscii "scan http://a.test:8080/x, please"
          "http://a.test:8080/x") := by
  have h : Extractable splitAuthority "http://a.test:8080/x" :=
    ⟨"scan http://a.test:8080/x, please", ["http://a.test:8080/x"], by decide +kernel, by simp⟩
  exact ⟨h, (scope_usable_iff "scan http://a.test:8080/x, please" _ h).1⟩

end Workbench.TargetUrls
