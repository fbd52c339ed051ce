import Mathlib
import CyberWorkbench.ToolRuns
import CyberWorkbench.PermissionGate
import CyberWorkbench.CommandStrings

/-!
# The checks of a tool's input

`service/toolpack`: a tool turns the payload of a run into the tokens of a command.
Each token is a fixed text or what one check makes of one field, and the checks are
shared by the tools: text without control characters, a web URL, a host, a number
within bounds, one of some names, a list of ports.

`Slot.read_meets`: whatever the payload, a check that returns has made of it a token
it promises.  What a check of text returns has no control character in it.

Of Python, `urlsplit`, the case of letters, `int` and `str` on values that are no
texts are parameters.
-/

namespace Workbench.Toolpack

open PythonValues RuntimePermissions
open PosixShell (Text nul)

/-! ### What the checks use -/

/-- What `int` raises. -/
inductive IntFailure where
  | typeError (message : String)
  | valueError (message : String)
  | overflowError (message : String)
  deriving DecidableEq, Repr

/-- How `_execute_tool_run` catches it. -/
def IntFailure.raised : IntFailure → RunException
  | .typeError message => .other message
  | .valueError message => .value message
  | .overflowError message => .other message

/-- Functions of Python; letters in lower case stay as they are. -/
structure Python where
  urlsplit : String → Except String SplitResult
  upper : String → String
  lower : String → String
  render : Value → String
  toInt : Value → Except IntFailure Int
  lower_lower : ∀ text, text.toList.all Char.isLower = true → lower text = text

/-- A value, or the exception. -/
abbrev Checked (β : Type) : Type := Except RunException β

variable (py : Python) (payload : Dict)

/-- `int(value)`, where nothing catches what it raises. -/
def Python.int (value : Value) : Checked Int :=
  match py.toInt value with
  | .ok n => .ok n
  | .error failure => .error failure.raised

/-- `str(value)`. -/
def Python.str : Value → String
  | .str text => text
  | value => py.render value

/-! ### Texts -/

/-- `ord(char) < 32`. -/
def isControl (c : Char) : Bool := decide (c.toNat < 32)

/-- `_required_text`. -/
def requiredText (field : String) : Checked String :=
  match Dict.get payload field with
  | .str text =>
      let value := strip text
      if value = "" then .error (.value (field ++ " is required"))
      else if 4096 < value.toList.length ∨ value.toList.any isControl then
        .error (.value (field ++ " is invalid"))
      else .ok value
  | _ => .error (.value (field ++ " is required"))

/-- `_required_text_allow_newlines`. -/
def requiredTextAllowNewlines (field : String) : Checked String :=
  match Dict.get payload field with
  | .str text =>
      let value := strip text
      if value = "" then .error (.value (field ++ " is required"))
      else if 8192 < value.toList.length ∨
          value.toList.any (fun c => isControl c && !(['\n', '\r', '\t'].contains c)) then
        .error (.value (field ++ " is invalid"))
      else .ok value
  | _ => .error (.value (field ++ " is required"))

/-- The URL is split, and has a web scheme and a host. -/
def webUrl (message : String) (url : String) : Checked Unit :=
  match py.urlsplit url with
  | .error raised => .error (.value raised)
  | .ok parsed =>
      if (parsed.scheme ≠ "http" ∧ parsed.scheme ≠ "https") ∨ parsed.hostname.getD "" = "" then
        .error (.value message)
      else .ok ()

/-- `_required_url`. -/
def requiredUrl (field : String) : Checked String := do
  let value ← requiredText payload field
  webUrl py (field ++ " must be an http or https URL") value
  return value

/-- The items of a text between commas and line ends. -/
def urlItems (value : String) : List String :=
  (((value.toList.map (fun c => if c = '\n' then ',' else c)).splitOn ',').map
    (fun item => strip (String.ofList item))).filter (fun item => item ≠ "")

/-- `_required_urls_text`. -/
def requiredUrlsText (field : String) (maxItems : Nat) : Checked String := do
  let value ← requiredTextAllowNewlines payload field
  if urlItems value = [] then throw (.value (field ++ " is required"))
  if maxItems < (urlItems value).length then
    throw (.permission (field ++ " count exceeds policy limit " ++ toString maxItems))
  forM (urlItems value) (webUrl py (field ++ " contains an invalid http or https URL"))
  return "\n".intercalate (urlItems value)

/-- `_required_host`. -/
def requiredHost (field : String) : Checked String := do
  let value ← requiredText payload field
  if "://".toList <:+: value.toList ∨ '/' ∈ value.toList ∨ '\\' ∈ value.toList ∨
      value.toList.any isSpace then
    throw (.value (field ++ " must be a host name or IP address"))
  return value

/-- `_required_path_text`. -/
def requiredPathText (field : String) : Checked String := do
  let value ← requiredText payload field
  if nul ∈ value.toList then throw (.value (field ++ " is invalid"))
  return value

/-- `_optional_text`. -/
def optionalText (field default : String) : Checked String :=
  match Dict.get payload field with
  | .none => .ok default
  | .str text =>
      let value := strip text
      if value = "" then .ok default
      else if 4096 < value.toList.length ∨ value.toList.any isControl then
        .error (.value (field ++ " is invalid"))
      else .ok value
  | _ => .error (.value (field ++ " must be text"))

/-! ### Names and numbers -/

/-- `_optional_bool`. -/
def optionalBool (field : String) (default : Bool) : Checked Bool :=
  match Dict.get payload field with
  | .none => .ok default
  | .bool value => .ok value
  | .str text =>
      if py.lower text = "true" ∨ py.lower text = "false" then .ok (py.lower text = "true")
      else .error (.value (field ++ " must be a boolean"))
  | _ => .error (.value (field ++ " must be a boolean"))

/-- `_optional_enum`. -/
def optionalEnum (field : String) (allowed : List String) (default : String) : Checked String :=
  let value := py.str ((Dict.get payload field).or (.str default))
  if value ∈ allowed then .ok value
  else if py.upper value ∈ allowed then .ok (py.upper value)
  else if py.lower value ∈ allowed then .ok (py.lower value)
  else .error (.value (field ++ " must be one of " ++
    ", ".intercalate (allowed.mergeSort (fun a b => decide (a ≤ b)))))

/-- `_optional_int`. -/
def optionalInt (field : String) (default minimum maximum : Int) : Checked Int :=
  let value : Checked Int :=
    match payload.find? (fun entry => entry.1 == field) with
    | none => .ok default
    | some entry =>
        match py.toInt entry.2 with
        | .ok n => .ok n
        | .error (.overflowError message) => .error (.other message)
        | .error _ => .error (.value (field ++ " must be an integer"))
  match value with
  | .error raised => .error raised
  | .ok n =>
      if n < minimum ∨ maximum < n then
        .error (.permission (field ++ " must be between " ++ toString minimum ++ " and " ++
          toString maximum))
      else .ok n

/-- What is in front of the first dash and behind it. -/
def splitDash (item : String) : Option (String × String) :=
  match item.toList.dropWhile (fun c => c ≠ '-') with
  | [] => none
  | _ :: after => some (String.ofList (item.toList.takeWhile (fun c => c ≠ '-')), String.ofList after)

/-- The ports of one part. -/
def portsOfItem (field item : String) : Checked (List Int) :=
  match splitDash item with
  | some (startText, endText) => do
      let start ← py.int (.str startText)
      let last ← py.int (.str endText)
      if last < start then throw (.value (field ++ " range is invalid"))
      return (List.range (last - start + 1).toNat).map (fun k => start + (k : Int))
  | none => do
      let port ← py.int (.str item)
      return [port]

/-- The ports of the parts. -/
def portsOf (field : String) : List String → Checked (List Int)
  | [] => .ok []
  | part :: rest =>
      if strip part = "" then portsOf field rest
      else do
        let ports ← portsOfItem py field (strip part)
        let others ← portsOf field rest
        return ports ++ others

/-- `_required_ports`. -/
def requiredPorts (field : String) (maxPorts : Nat) : Checked (List Int) := do
  let rawValue ← requiredText payload field
  let ports ← portsOf py field ((rawValue.toList.splitOn ',').map String.ofList)
  let normalized := ports.toFinset.sort
  if normalized = [] ∨ normalized.any (fun port => port < 1 || 65535 < port) then
    throw (.value (field ++ " contains an invalid TCP port"))
  if maxPorts < normalized.length then
    throw (.permission ("port count exceeds policy limit " ++ toString maxPorts))
  return normalized

/-- `_optional_rate`. -/
def optionalRate : Checked (List String) :=
  match Dict.get payload "rps" with
  | .none => .ok []
  | value => do
      let rps ← py.int value
      return ["-rate", toString (max 1 (min rps 50))]

/-! ### Slots -/

/-- A token of a command, or some of them: a fixed text, or what a check makes of a
field. -/
inductive Slot where
  | fixed (text : String)
  | text (field : String)
  | url (field : String)
  | urls (field : String) (maxItems : Nat)
  | host (field : String)
  | path (field : String)
  | optionalText (field default : String)
  | anyText (field : String)
  | enum (field : String) (allowed : List String) (default : String)
  | lowerEnum (field : String) (allowed : List String) (default : String)
  | int (field : String) (default minimum maximum : Int)
  | bool (field : String) (default : Bool)
  | ports (field : String) (maxPorts : Nat)
  | rate
  deriving DecidableEq, Repr

/-- The tokens of a slot. -/
def Slot.read : Slot → Checked (List String)
  | .fixed token => .ok [token]
  | .text field => ([·]) <$> requiredText payload field
  | .url field => ([·]) <$> requiredUrl py payload field
  | .urls field maxItems => ([·]) <$> requiredUrlsText py payload field maxItems
  | .host field => ([·]) <$> requiredHost payload field
  | .path field => ([·]) <$> requiredPathText payload field
  | .optionalText field default => ([·]) <$> Toolpack.optionalText payload field default
  | .anyText field => .ok [py.str ((Dict.get payload field).or (.str ""))]
  | .enum field allowed default => ([·]) <$> optionalEnum py payload field allowed default
  | .lowerEnum field allowed default =>
      (fun value => [py.lower value]) <$> optionalEnum py payload field allowed default
  | .int field default minimum maximum =>
      (fun n => [toString n]) <$> optionalInt py payload field default minimum maximum
  | .bool field default =>
      (fun value => [if value then "true" else "false"]) <$> optionalBool py payload field default
  | .ports field maxPorts =>
      (fun ports => [",".intercalate (ports.map toString)]) <$>
        requiredPorts py payload field maxPorts
  | .rate => optionalRate py payload

/-! ### What the checks promise -/

/-- A text as `_required_text` returns it. -/
def IsPlain (text : String) : Prop :=
  text ≠ "" ∧ text.toList.length ≤ 4096 ∧ ∀ c ∈ text.toList, isControl c = false

/-- A URL that can be split, with a web scheme and a host. -/
def IsWebUrl (url : String) : Prop :=
  ∃ parsed, py.urlsplit url = .ok parsed ∧ (parsed.scheme = "http" ∨ parsed.scheme = "https") ∧
    parsed.hostname.getD "" ≠ ""

/-- One of the lines a list of URLs becomes. -/
def IsLine (text : String) : Prop :=
  ∀ c ∈ text.toList, c ≠ '\n' ∧ (isControl c = true → c = '\r' ∨ c = '\t')

/-- The tokens a slot may have. -/
def Slot.Meets : Slot → List String → Prop
  | .fixed token, tokens => tokens = [token]
  | .text _, tokens => ∃ t, tokens = [t] ∧ IsPlain t
  | .url _, tokens => ∃ t, tokens = [t] ∧ IsPlain t ∧ IsWebUrl py t
  | .urls _ maxItems, tokens => ∃ items : List String, tokens = ["\n".intercalate items] ∧
      items ≠ [] ∧ items.length ≤ maxItems ∧ ∀ item ∈ items, IsLine item ∧ IsWebUrl py item
  | .host _, tokens => ∃ t, tokens = [t] ∧ IsPlain t ∧
      ∀ c ∈ t.toList, c ≠ '/' ∧ c ≠ '\\' ∧ isSpace c = false
  | .path _, tokens => ∃ t, tokens = [t] ∧ IsPlain t
  | .optionalText _ default, tokens => ∃ t, tokens = [t] ∧ (t = default ∨ IsPlain t)
  | .anyText field, tokens => tokens = [py.str ((Dict.get payload field).or (.str ""))]
  | .enum _ allowed _, tokens => ∃ t ∈ allowed, tokens = [t]
  | .lowerEnum _ allowed _, tokens => ∃ t ∈ allowed, tokens = [py.lower t]
  | .int _ _ minimum maximum, tokens => ∃ n : Int, minimum ≤ n ∧ n ≤ maximum ∧ tokens = [toString n]
  | .bool _ _, tokens => tokens = ["true"] ∨ tokens = ["false"]
  | .ports _ maxPorts, tokens => ∃ ports : List Int, tokens = [",".intercalate (ports.map toString)] ∧
      ports ≠ [] ∧ ports.length ≤ maxPorts ∧ ports.SortedLT ∧
        ∀ port ∈ ports, 1 ≤ port ∧ port ≤ 65535
  | .rate, tokens => tokens = [] ∨ ∃ n : Int, 1 ≤ n ∧ n ≤ 50 ∧ tokens = ["-rate", toString n]

variable {py payload}

theorem bind_ok_iff {β γ : Type} {x : Checked β} {f : β → Checked γ} {value : γ} :
    x >>= f = .ok value ↔ ∃ b, x = .ok b ∧ f b = .ok value := by
  constructor
  · intro h
    cases x with
    | error raised => cases h
    | ok b => exact ⟨b, rfl, h⟩
  · rintro ⟨b, rfl, h⟩
    exact h

theorem map_ok_iff {β γ : Type} {x : Checked β} {f : β → γ} {value : γ} :
    f <$> x = .ok value ↔ ∃ b, x = .ok b ∧ f b = value := by
  constructor
  · intro h
    cases x with
    | error raised => cases h
    | ok b => exact ⟨b, rfl, Except.ok.inj h⟩
  · rintro ⟨b, rfl, rfl⟩
    rfl

/-- A test that passes. -/
theorem unless_ok_iff {p : Prop} [Decidable p] {raised : RunException} {β : Type}
    {rest : Checked β} {value : β} :
    (if p then throw raised else rest) = .ok value ↔ ¬ p ∧ rest = .ok value := by
  constructor
  · intro h
    split at h
    · cases h
    · rename_i hp
      exact ⟨hp, h⟩
  · rintro ⟨hp, h⟩
    rwa [if_neg hp]

theorem requiredText_ok {field text : String} (h : requiredText payload field = .ok text) :
    IsPlain text := by
  unfold requiredText at h
  split at h
  · rename_i given _
    simp only at h
    split at h
    · cases h
    rename_i hne
    split at h
    · cases h
    rename_i hbad
    obtain rfl := Except.ok.inj h
    rw [not_or, Nat.not_lt, Bool.not_eq_true, List.any_eq_false] at hbad
    exact ⟨hne, hbad.1, fun c hc => Bool.eq_false_iff.mpr (hbad.2 c hc)⟩
  · cases h

theorem optionalText_ok {field default text : String}
    (h : optionalText payload field default = .ok text) : text = default ∨ IsPlain text := by
  unfold optionalText at h
  split at h
  · exact .inl (Except.ok.inj h).symm
  · simp only at h
    split at h
    · exact .inl (Except.ok.inj h).symm
    rename_i hne
    split at h
    · cases h
    rename_i hbad
    obtain rfl := Except.ok.inj h
    rw [not_or, Nat.not_lt, Bool.not_eq_true, List.any_eq_false] at hbad
    exact .inr ⟨hne, hbad.1, fun c hc => Bool.eq_false_iff.mpr (hbad.2 c hc)⟩
  · cases h

theorem webUrl_ok {message url : String} {done : Unit} (h : webUrl py message url = .ok done) :
    IsWebUrl py url := by
  unfold webUrl at h
  split at h
  · cases h
  rename_i parsed hparsed
  split at h
  · cases h
  rename_i hgood
  rw [not_or, not_and_or, not_not, not_not] at hgood
  exact ⟨parsed, hparsed, hgood.1, hgood.2⟩

theorem requiredUrl_ok {field url : String} (h : requiredUrl py payload field = .ok url) :
    IsPlain url ∧ IsWebUrl py url := by
  unfold requiredUrl at h
  obtain ⟨text, htext, h⟩ := bind_ok_iff.mp h
  obtain ⟨done, hweb, h⟩ := bind_ok_iff.mp h
  obtain rfl := Except.ok.inj h
  exact ⟨requiredText_ok htext, webUrl_ok hweb⟩

theorem requiredHost_ok {field host : String} (h : requiredHost payload field = .ok host) :
    IsPlain host ∧ ∀ c ∈ host.toList, c ≠ '/' ∧ c ≠ '\\' ∧ isSpace c = false := by
  unfold requiredHost at h
  obtain ⟨text, htext, h⟩ := bind_ok_iff.mp h
  obtain ⟨hgood, h⟩ := unless_ok_iff.mp h
  obtain rfl := Except.ok.inj h
  rw [not_or, not_or, not_or, Bool.not_eq_true, List.any_eq_false] at hgood
  obtain ⟨-, hslash, hbackslash, hspace⟩ := hgood
  refine ⟨requiredText_ok htext, fun c hc => ⟨?_, ?_, Bool.eq_false_iff.mpr (hspace c hc)⟩⟩
  · exact fun heq => hslash (heq ▸ hc)
  · exact fun heq => hbackslash (heq ▸ hc)

theorem requiredPathText_ok {field path : String} (h : requiredPathText payload field = .ok path) :
    IsPlain path := by
  unfold requiredPathText at h
  obtain ⟨text, htext, h⟩ := bind_ok_iff.mp h
  obtain ⟨-, h⟩ := unless_ok_iff.mp h
  obtain rfl := Except.ok.inj h
  exact requiredText_ok htext

theorem requiredTextAllowNewlines_ok {field text : String}
    (h : requiredTextAllowNewlines payload field = .ok text) :
    ∀ c ∈ text.toList, isControl c = true → c = '\n' ∨ c = '\r' ∨ c = '\t' := by
  unfold requiredTextAllowNewlines at h
  split at h
  · simp only at h
    split at h
    · cases h
    split at h
    · cases h
    rename_i hbad
    obtain rfl := Except.ok.inj h
    rw [not_or, Bool.not_eq_true, List.any_eq_false] at hbad
    intro c hc hcontrol
    have hallowed := hbad.2 c hc
    rw [hcontrol, Bool.true_and, Bool.not_eq_true', Bool.not_eq_false] at hallowed
    simpa using hallowed
  · cases h

/-- The parts of a list are in it, and free of what separates them. -/
theorem mem_of_mem_splitOn {β : Type} [DecidableEq β] {separator b : β} {whole part : List β}
    (hpart : part ∈ whole.splitOn separator) (hb : b ∈ part) : b ∈ whole ∧ b ≠ separator := by
  -- The part that is being read is carried in reverse.
  have hcarried : ∀ (rest before : List β),
      part ∈ List.splitOnPPrepend (· == separator) rest before →
        b ∈ before ∨ b ∈ rest ∧ b ≠ separator := by
    intro rest
    induction rest with
    | nil =>
        intro before hmem
        rw [List.splitOnPPrepend_nil, List.mem_singleton] at hmem
        subst hmem
        exact .inl (List.mem_reverse.mp hb)
    | cons head rest ih =>
        intro before hmem
        rw [List.splitOnPPrepend_cons_eq_if] at hmem
        split at hmem
        · rcases List.mem_cons.mp hmem with rfl | hmem
          · exact .inl (List.mem_reverse.mp hb)
          · rcases ih [] hmem with hnone | ⟨hrest, hne⟩
            · exact absurd hnone List.not_mem_nil
            · exact .inr ⟨List.mem_cons_of_mem _ hrest, hne⟩
        · rename_i hhead
          rcases ih _ hmem with hbefore | ⟨hrest, hne⟩
          · rcases List.mem_cons.mp hbefore with rfl | hbefore
            · exact .inr ⟨List.mem_cons_self, fun heq => hhead (beq_iff_eq.mpr heq)⟩
            · exact .inl hbefore
          · exact .inr ⟨List.mem_cons_of_mem _ hrest, hne⟩
  rcases hcarried whole [] hpart with hnone | hfound
  · exact absurd hnone List.not_mem_nil
  · exact hfound

/-- The items hold no character that the text does not, and no line end. -/
theorem mem_urlItems {value item : String} (h : item ∈ urlItems value) {c : Char}
    (hc : c ∈ item.toList) : c ∈ value.toList ∧ c ≠ '\n' := by
  unfold urlItems at h
  obtain ⟨hitem, -⟩ := List.mem_filter.mp h
  obtain ⟨part, hpart, rfl⟩ := List.mem_map.mp hitem
  rw [toList_strip, String.toList_ofList] at hc
  have hinner : c ∈ part := by
    have hprefix := (List.rdropWhile_prefix isSpace (l := part.dropWhile isSpace)).subset hc
    exact (List.dropWhile_suffix isSpace).subset hprefix
  obtain ⟨hmem, hcomma⟩ := mem_of_mem_splitOn hpart hinner
  obtain ⟨given, hgiven, heq⟩ := List.mem_map.mp hmem
  split at heq
  · exact absurd heq.symm hcomma
  · rename_i hne
    exact heq ▸ ⟨hgiven, hne⟩

theorem forM_ok {β : Type} {f : β → Checked Unit} {items : List β} {done : Unit}
    (h : forM items f = .ok done) : ∀ item ∈ items, f item = .ok () := by
  induction items with
  | nil => exact fun _ hmem => absurd hmem List.not_mem_nil
  | cons item rest ih =>
      rw [List.forM_cons] at h
      obtain ⟨_, hitem, hrest⟩ := bind_ok_iff.mp h
      exact List.forall_mem_cons.mpr ⟨hitem, ih hrest⟩

theorem requiredUrlsText_ok {field text : String} {maxItems : Nat}
    (h : requiredUrlsText py payload field maxItems = .ok text) :
    ∃ items : List String, text = "\n".intercalate items ∧ items ≠ [] ∧ items.length ≤ maxItems ∧
      ∀ item ∈ items, IsLine item ∧ IsWebUrl py item := by
  unfold requiredUrlsText at h
  obtain ⟨value, hvalue, h⟩ := bind_ok_iff.mp h
  obtain ⟨hne, h⟩ := unless_ok_iff.mp h
  obtain ⟨hcount, h⟩ := unless_ok_iff.mp h
  obtain ⟨done, hall, h⟩ := bind_ok_iff.mp h
  refine ⟨urlItems value, (Except.ok.inj h).symm, hne, Nat.not_lt.mp hcount, fun item hitem => ?_⟩
  refine ⟨fun c hc => ?_, webUrl_ok (forM_ok hall item hitem)⟩
  obtain ⟨hin, hline⟩ := mem_urlItems hitem hc
  refine ⟨hline, fun hcontrol => ?_⟩
  rcases requiredTextAllowNewlines_ok hvalue c hin hcontrol with hnewline | hother
  · exact absurd hnewline hline
  · exact hother

theorem optionalEnum_ok {field default text : String} {allowed : List String}
    (h : optionalEnum py payload field allowed default = .ok text) : text ∈ allowed := by
  unfold optionalEnum at h
  simp only at h
  split at h
  · rename_i hmem
    exact Except.ok.inj h ▸ hmem
  split at h
  · rename_i hmem
    exact Except.ok.inj h ▸ hmem
  split at h
  · rename_i hmem
    exact Except.ok.inj h ▸ hmem
  · cases h

theorem optionalInt_ok {field : String} {default minimum maximum n : Int}
    (h : optionalInt py payload field default minimum maximum = .ok n) :
    minimum ≤ n ∧ n ≤ maximum := by
  unfold optionalInt at h
  simp only at h
  split at h
  · cases h
  split at h
  · cases h
  rename_i hrange
  obtain rfl := Except.ok.inj h
  omega

theorem requiredPorts_ok {field : String} {maxPorts : Nat} {ports : List Int}
    (h : requiredPorts py payload field maxPorts = .ok ports) :
    ports ≠ [] ∧ ports.length ≤ maxPorts ∧ ports.SortedLT ∧
      ∀ port ∈ ports, 1 ≤ port ∧ port ≤ 65535 := by
  unfold requiredPorts at h
  obtain ⟨rawValue, -, h⟩ := bind_ok_iff.mp h
  obtain ⟨given, -, h⟩ := bind_ok_iff.mp h
  obtain ⟨hgood, h⟩ := unless_ok_iff.mp h
  obtain ⟨hcount, h⟩ := unless_ok_iff.mp h
  obtain rfl := Except.ok.inj h
  rw [not_or, Bool.not_eq_true, List.any_eq_false] at hgood
  refine ⟨hgood.1, Nat.not_lt.mp hcount, Finset.sortedLT_sort _, fun port hport => ?_⟩
  have hrange := hgood.2 port hport
  simp only [Bool.or_eq_true, decide_eq_true_eq, not_or] at hrange
  omega

theorem optionalRate_ok {tokens : List String} (h : optionalRate py payload = .ok tokens) :
    tokens = [] ∨ ∃ n : Int, 1 ≤ n ∧ n ≤ 50 ∧ tokens = ["-rate", toString n] := by
  unfold optionalRate at h
  split at h
  · exact .inl (Except.ok.inj h).symm
  · obtain ⟨rps, -, h⟩ := bind_ok_iff.mp h
    exact .inr ⟨_, by omega, by omega, (Except.ok.inj h).symm⟩

/-- **What a slot reads meets what it promises.** -/
theorem Slot.read_meets {slot : Slot} {tokens : List String}
    (h : slot.read py payload = .ok tokens) : slot.Meets py payload tokens := by
  cases slot with
  | fixed token => exact (Except.ok.inj h).symm
  | text field =>
      obtain ⟨text, htext, rfl⟩ := map_ok_iff.mp h
      exact ⟨text, rfl, requiredText_ok htext⟩
  | url field =>
      obtain ⟨url, hurl, rfl⟩ := map_ok_iff.mp h
      exact ⟨url, rfl, requiredUrl_ok hurl⟩
  | urls field maxItems =>
      obtain ⟨text, htext, rfl⟩ := map_ok_iff.mp h
      obtain ⟨items, rfl, hitems⟩ := requiredUrlsText_ok htext
      exact ⟨items, rfl, hitems⟩
  | host field =>
      obtain ⟨host, hhost, rfl⟩ := map_ok_iff.mp h
      exact ⟨host, rfl, requiredHost_ok hhost⟩
  | path field =>
      obtain ⟨path, hpath, rfl⟩ := map_ok_iff.mp h
      exact ⟨path, rfl, requiredPathText_ok hpath⟩
  | optionalText field default =>
      obtain ⟨text, htext, rfl⟩ := map_ok_iff.mp h
      exact ⟨text, rfl, optionalText_ok htext⟩
  | anyText field => exact (Except.ok.inj h).symm
  | enum field allowed default =>
      obtain ⟨text, htext, rfl⟩ := map_ok_iff.mp h
      exact ⟨text, optionalEnum_ok htext, rfl⟩
  | lowerEnum field allowed default =>
      obtain ⟨text, htext, rfl⟩ := map_ok_iff.mp h
      exact ⟨text, optionalEnum_ok htext, rfl⟩
  | int field default minimum maximum =>
      obtain ⟨n, hn, rfl⟩ := map_ok_iff.mp h
      exact ⟨n, (optionalInt_ok hn).1, (optionalInt_ok hn).2, rfl⟩
  | bool field default =>
      obtain ⟨value, -, rfl⟩ := map_ok_iff.mp h
      cases value
      · exact .inr rfl
      · exact .inl rfl
  | ports field maxPorts =>
      obtain ⟨ports, hports, rfl⟩ := map_ok_iff.mp h
      exact ⟨ports, rfl, requiredPorts_ok hports⟩
  | rate => exact optionalRate_ok h

/-! ### NULs -/

/-- The texts the slot has of its own have no NUL. -/
def Slot.Sealed : Slot → Prop
  | .fixed token => nul ∉ token.toList
  | .optionalText _ default => nul ∉ default.toList
  | .enum _ allowed _ => ∀ text ∈ allowed, nul ∉ text.toList
  | .lowerEnum _ allowed _ => ∀ text ∈ allowed, text.toList.all Char.isLower = true
  | _ => True

instance (slot : Slot) : Decidable slot.Sealed := by
  cases slot <;> unfold Slot.Sealed <;> infer_instance

/-- The field that nothing checks. -/
def Slot.uncheckedField : Slot → Option String
  | .anyText field => some field
  | _ => none

theorem IsPlain.nul_notMem {text : String} (h : IsPlain text) : nul ∉ text.toList :=
  fun hmem => absurd (h.2.2 nul hmem) (by decide)

theorem IsLine.nul_notMem {text : String} (h : IsLine text) : nul ∉ text.toList := by
  intro hmem
  rcases (h nul hmem).2 (by decide) with hcr | htab
  · exact absurd hcr (by decide)
  · exact absurd htab (by decide)

theorem nul_notMem_toString (n : Int) : nul ∉ (toString n).toList := by
  have hdigits : ∀ m : Nat, nul ∉ (toString m).toList := by
    intro m hmem
    have htext : (toString m).toList = Nat.toDigits 10 m := Nat.toList_repr
    rw [htext] at hmem
    exact absurd (Nat.isDigit_of_mem_toDigits (by decide) (by decide) hmem) (by decide)
  cases n with
  | ofNat m => exact hdigits m
  | negSucc m =>
      have htext : (toString (Int.negSucc m)).toList = '-' :: (toString (m + 1)).toList := by
        show ("-" ++ toString (m + 1)).toList = _
        rw [String.toList_append]
        rfl
      rw [htext, List.mem_cons, not_or]
      exact ⟨by decide, hdigits _⟩

theorem nul_notMem_intercalate {separator : String} {texts : List String}
    (hseparator : nul ∉ separator.toList) (htexts : ∀ text ∈ texts, nul ∉ text.toList) :
    nul ∉ (separator.intercalate texts).toList := by
  induction texts with
  | nil =>
      rw [String.intercalate_nil]
      exact List.not_mem_nil
  | cons text rest ih =>
      rw [List.forall_mem_cons] at htexts
      cases rest with
      | nil =>
          rw [String.intercalate_singleton]
          exact htexts.1
      | cons next rest =>
          rw [String.intercalate_cons_cons, String.toList_append, String.toList_append,
            List.mem_append, List.mem_append, not_or, not_or]
          exact ⟨⟨htexts.1, hseparator⟩, ih htexts.2⟩

/-- **A checked token has no NUL.** -/
theorem Slot.nul_notMem {slot : Slot} {tokens : List String} (hmeets : slot.Meets py payload tokens)
    (hsealed : slot.Sealed) (hchecked : slot.uncheckedField = none) :
    ∀ token ∈ tokens, nul ∉ token.toList := by
  cases slot with
  | fixed token =>
      subst hmeets
      exact List.forall_mem_singleton.mpr hsealed
  | text field =>
      obtain ⟨text, rfl, hplain⟩ := hmeets
      exact List.forall_mem_singleton.mpr hplain.nul_notMem
  | url field =>
      obtain ⟨url, rfl, hplain, -⟩ := hmeets
      exact List.forall_mem_singleton.mpr hplain.nul_notMem
  | urls field maxItems =>
      obtain ⟨items, rfl, -, -, hitems⟩ := hmeets
      exact List.forall_mem_singleton.mpr
        (nul_notMem_intercalate (by decide) (fun item hitem => (hitems item hitem).1.nul_notMem))
  | host field =>
      obtain ⟨host, rfl, hplain, -⟩ := hmeets
      exact List.forall_mem_singleton.mpr hplain.nul_notMem
  | path field =>
      obtain ⟨path, rfl, hplain⟩ := hmeets
      exact List.forall_mem_singleton.mpr hplain.nul_notMem
  | optionalText field default =>
      obtain ⟨text, rfl, rfl | hplain⟩ := hmeets
      · exact List.forall_mem_singleton.mpr hsealed
      · exact List.forall_mem_singleton.mpr hplain.nul_notMem
  | anyText field => cases hchecked
  | enum field allowed default =>
      obtain ⟨text, hallowed, rfl⟩ := hmeets
      exact List.forall_mem_singleton.mpr (hsealed text hallowed)
  | lowerEnum field allowed default =>
      obtain ⟨text, hallowed, rfl⟩ := hmeets
      have hlower := hsealed text hallowed
      rw [py.lower_lower text hlower]
      refine List.forall_mem_singleton.mpr (fun hmem => ?_)
      exact absurd (List.all_eq_true.mp hlower nul hmem) (by decide)
  | int field default minimum maximum =>
      obtain ⟨n, -, -, rfl⟩ := hmeets
      exact List.forall_mem_singleton.mpr (nul_notMem_toString n)
  | bool field default =>
      rcases hmeets with rfl | rfl
      · exact List.forall_mem_singleton.mpr (by decide)
      · exact List.forall_mem_singleton.mpr (by decide)
  | ports field maxPorts =>
      obtain ⟨ports, rfl, -⟩ := hmeets
      refine List.forall_mem_singleton.mpr (nul_notMem_intercalate (by decide) (fun text htext => ?_))
      obtain ⟨port, -, rfl⟩ := List.mem_map.mp htext
      exact nul_notMem_toString port
  | rate =>
      rcases hmeets with rfl | ⟨n, -, -, rfl⟩
      · exact List.forall_mem_nil _
      · exact List.forall_mem_cons.mpr ⟨by decide, List.forall_mem_singleton.mpr (nul_notMem_toString n)⟩

end Workbench.Toolpack
