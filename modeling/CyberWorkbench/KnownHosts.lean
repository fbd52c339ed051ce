import CyberWorkbench.CommandOutputs

/-!
# The keys of managed hosts

`service/host/hosts` keeps the keys of SSH servers in a text file of one line for an
endpoint.  A key is written once somebody has confirmed its fingerprint, in place of
the line the endpoint had, and the other lines are kept.

* `knownHostMarker_inj` — different endpoints have different markers, and no line is
  of two of them.
* `known_hosts_runs` — after any calls the file has for every endpoint the key that
  was confirmed last, or the lines it had at the start, and no key is found there
  again by the preview: the text of a key ends its own line, and so every call also
  leaves an empty line behind.

The library for SSH is a parameter.  The file holds text in UTF-8.
-/

namespace Workbench.KnownHosts

open PythonValues TextLines
open CommandEncoding (ControlHost)
open CommandOutputs (writtenText)

/-! ### Hosts and keys -/

/-- What is in the text of an address without a scope. -/
def isAddressChar (c : Char) : Bool :=
  c.isDigit || (decide ('a' ≤ c) && decide (c ≤ 'f')) || c = ':' || c = '.'

/-- A host, at an address in its usual text. -/
structure ManagedHost where
  id : Nat
  ipAddress : List Char
  sshPort : Nat
  address : ∀ c ∈ ipAddress, isAddressChar c = true

/-- The keys of the SSH library: the text a key is exported as is one line, which it
ends. -/
structure SshKeys (Key : Type) where
  algorithm : Key → String
  fingerprint : Key → String
  publicLine : Key → List Char
  isLine : ∀ key, IsLine (publicLine key)

/-- `export_public_key("openssh")`. -/
def SshKeys.exportPublicKey {Key : Type} (keys : SshKeys Key) (key : Key) : List Char :=
  keys.publicLine key ++ ['\n']

/-- `_known_host_marker`. -/
def knownHostMarker (host : ManagedHost) : List Char :=
  if host.sshPort = 22 then host.ipAddress
  else '[' :: (host.ipAddress ++ ']' :: ':' :: (toString host.sshPort).toList)

/-! ### The file -/

/-- The lines that are read of the file. -/
def knownHostLines (file : List Char) : List (List Char) := splitlines (universal file)

/-- A line of an endpoint. -/
def isLineOf (marker line : List Char) : Bool := (marker ++ [' ']).isPrefixOf line

/-- `_write_known_host_key`. -/
def writeKnownHostKey (system : ControlHost) (marker publicKey file : List Char) : List Char :=
  let kept := (knownHostLines file).filter (fun line => !isLineOf marker line)
  writtenText system (joined (kept ++ [marker ++ ' ' :: publicKey]) ++ ['\n'])

/-- `_known_hosts_contains`. -/
def knownHostsContains (marker publicKey file : List Char) : Bool :=
  decide (marker ++ ' ' :: publicKey ∈ knownHostLines file)

/-! ### Calls -/

/-- `ManagedHostKeySchema`. -/
structure ManagedHostKey where
  hostId : Nat
  endpoint : List Char
  algorithm : String
  fingerprintSha256 : String
  publicKey : List Char
  trusted : Bool
  deriving DecidableEq, Repr

section Calls

variable {Key : Type} (keys : SshKeys Key) (system : ControlHost)

/-- `_managed_host_key_schema`. -/
def managedHostKeySchema (host : ManagedHost) (key : Key) (trusted : Option Bool)
    (file : List Char) : ManagedHostKey where
  hostId := host.id
  endpoint := knownHostMarker host
  algorithm := keys.algorithm key
  fingerprintSha256 := keys.fingerprint key
  publicKey := keys.exportPublicKey key
  trusted := trusted.getD
    (knownHostsContains (knownHostMarker host) (keys.exportPublicKey key) file)

/-- What a call finds: the host, if there is one, and the key its server presents, if
it does. -/
structure Found (Key : Type) where
  host : Option ManagedHost
  fetched : Option Key

/-- `preview_managed_host_key`. -/
def previewManagedHostKey (found : Found Key) (file : List Char) :
    Except String (Option ManagedHostKey) :=
  match found.host, found.fetched with
  | none, _ => .ok none
  | some _, none => .error "SSH server did not present a host key"
  | some host, some key => .ok (some (managedHostKeySchema keys host key none file))

/-- `trust_managed_host_key`: the answer, and the file. -/
def trustManagedHostKey (found : Found Key) (fingerprintSha256 : String) (file : List Char) :
    Except String (Option ManagedHostKey) × List Char :=
  match found.host, found.fetched with
  | none, _ => (.ok none, file)
  | some _, none => (.error "SSH server did not present a host key", file)
  | some host, some key =>
      if keys.fingerprint key ≠ strip fingerprintSha256 then
        (.error "host key fingerprint changed; refresh and verify again", file)
      else
        let written :=
          writeKnownHostKey system (knownHostMarker host) (keys.exportPublicKey key) file
        (.ok (some (managedHostKeySchema keys host key (some true) written)), written)

/-- The file after calls with these fingerprints. -/
def trustAll : List Char → List (Found Key × String) → List Char
  | file, [] => file
  | file, call :: rest => trustAll (trustManagedHostKey keys system call.1 call.2 file).2 rest

/-- What a call confirms: a host and the line of its key. -/
def confirmed (call : Found Key × String) : Option (ManagedHost × List Char) :=
  match call.1.host, call.1.fetched with
  | some host, some key =>
      if keys.fingerprint key = strip call.2 then some (host, keys.publicLine key) else none
  | _, _ => none

/-- The line that was confirmed last for the endpoint of a host. -/
def lastKey (host : ManagedHost) : List (ManagedHost × List Char) → Option (List Char)
  | [] => none
  | entry :: rest => (lastKey host rest).or
      (if entry.1.ipAddress = host.ipAddress ∧ entry.1.sshPort = host.sshPort then some entry.2
      else none)

/-- A line of no confirmed endpoint. -/
def isOther (entries : List (ManagedHost × List Char)) (line : List Char) : Bool :=
  entries.all (fun entry => !isLineOf (knownHostMarker entry.1) line)

end Calls

/-! ### Markers -/

theorem address_ne {host : ManagedHost} {c : Char} (hc : isAddressChar c = false) :
    c ∉ host.ipAddress := by
  intro hmem
  rw [host.address c hmem] at hc
  cases hc

theorem digit_of_port {port : Nat} {c : Char} (hc : c ∈ (toString port).toList) :
    c.isDigit = true := by
  have htext : (toString port).toList = Nat.toDigits 10 port := Nat.toList_repr
  rw [htext] at hc
  exact Nat.isDigit_of_mem_toDigits (by decide) (by decide) hc

theorem portText_inj {port port' : Nat}
    (h : (toString port).toList = (toString port').toList) : port = port' := by
  have htext : ∀ n : Nat, (toString n).toList = Nat.toDigits 10 n := fun _ => Nat.toList_repr
  rw [htext, htext] at h
  rw [← Nat.ofDigitChars_toDigits (b := 10) (n := port) (by decide) (by decide), h,
    Nat.ofDigitChars_toDigits (by decide) (by decide)]

/-- What is in a marker. -/
theorem mem_marker {host : ManagedHost} {c : Char} (hc : c ∈ knownHostMarker host) :
    isAddressChar c = true ∨ c = '[' ∨ c = ']' := by
  unfold knownHostMarker at hc
  split at hc
  · exact .inl (host.address c hc)
  · rcases List.mem_cons.mp hc with rfl | hc
    · exact .inr (.inl rfl)
    rcases List.mem_append.mp hc with hc | hc
    · exact .inl (host.address c hc)
    rcases List.mem_cons.mp hc with rfl | hc
    · exact .inr (.inr rfl)
    rcases List.mem_cons.mp hc with rfl | hc
    · exact .inl (by decide)
    · left
      rw [isAddressChar, digit_of_port hc]
      rfl

theorem space_notMem_marker (host : ManagedHost) : ' ' ∉ knownHostMarker host := by
  intro hmem
  rcases mem_marker hmem with h | h | h
  · exact absurd h (by decide)
  · exact absurd h (by decide)
  · exact absurd h (by decide)

theorem isLine_marker (host : ManagedHost) : IsLine (knownHostMarker host) := by
  have hbreaks : breaks.all (fun c => !isAddressChar c && decide (c ≠ '[') && decide (c ≠ ']')) = true := by
    decide
  intro c hc hbreak
  have h := List.all_eq_true.mp hbreaks c hbreak
  rw [Bool.and_eq_true, Bool.and_eq_true, decide_eq_true_eq, decide_eq_true_eq, Bool.not_eq_true'] at h
  rcases mem_marker hc with haddress | hopen | hclose
  · rw [h.1.1] at haddress
    cases haddress
  · exact h.1.2 hopen
  · exact h.2 hclose

/-- What is in front of the first such character. -/
theorem append_cons_inj {separator : Char} {front front' back back' : List Char}
    (hfront : separator ∉ front) (hfront' : separator ∉ front')
    (h : front ++ separator :: back = front' ++ separator :: back') : front = front' ∧ back = back' := by
  induction front generalizing front' with
  | nil =>
      cases front' with
      | nil => exact ⟨rfl, (List.cons.inj h).2⟩
      | cons c rest => exact absurd (List.cons.inj h).1 (fun hc => hfront' (hc ▸ List.mem_cons_self))
  | cons c rest ih =>
      cases front' with
      | nil => exact absurd (List.cons.inj h).1 (fun hc => hfront (hc ▸ List.mem_cons_self))
      | cons c' rest' =>
          obtain ⟨rfl, hrest⟩ := List.cons.inj h
          obtain ⟨rfl, hback⟩ := ih (fun hmem => hfront (List.mem_cons_of_mem _ hmem))
            (fun hmem => hfront' (List.mem_cons_of_mem _ hmem)) hrest
          exact ⟨rfl, hback⟩

/-- **Different endpoints** have different markers. -/
theorem knownHostMarker_inj {host other : ManagedHost} :
    knownHostMarker host = knownHostMarker other ↔
      host.ipAddress = other.ipAddress ∧ host.sshPort = other.sshPort := by
  have hopen : ∀ h : ManagedHost, '[' ∉ h.ipAddress := fun h => address_ne (by decide)
  have hclose : ∀ h : ManagedHost, ']' ∉ h.ipAddress := fun h => address_ne (by decide)
  constructor
  · intro h
    unfold knownHostMarker at h
    split at h
    · rename_i hport
      split at h
      · rename_i hother
        exact ⟨h, hport.trans hother.symm⟩
      · exact absurd (h ▸ List.mem_cons_self) (hopen host)
    · split at h
      · exact absurd (h ▸ List.mem_cons_self) (hopen other)
      · obtain ⟨haddress, hback⟩ := append_cons_inj (hclose host) (hclose other) (List.cons.inj h).2
        exact ⟨haddress, portText_inj (List.cons.inj hback).2⟩
  · rintro ⟨haddress, hport⟩
    rw [knownHostMarker, knownHostMarker, haddress, hport]

theorem isLineOf_iff {marker line : List Char} :
    isLineOf marker line = true ↔ ∃ rest, line = marker ++ ' ' :: rest := by
  unfold isLineOf
  rw [List.isPrefixOf_iff_prefix]
  constructor
  · rintro ⟨rest, rfl⟩
    exact ⟨rest, by simp⟩
  · rintro ⟨rest, rfl⟩
    exact ⟨rest, by simp⟩

/-- No line is of two endpoints. -/
theorem isLineOf_unique {marker marker' line : List Char} (hmarker : ' ' ∉ marker)
    (hmarker' : ' ' ∉ marker') (h : isLineOf marker line = true) (h' : isLineOf marker' line = true) :
    marker = marker' := by
  obtain ⟨rest, hline⟩ := isLineOf_iff.mp h
  obtain ⟨rest', hline'⟩ := isLineOf_iff.mp h'
  exact (append_cons_inj hmarker hmarker' (hline.symm.trans hline')).1

/-! ### Writing -/

/-- **One write**: the lines of the endpoint go, and the line of the key and an empty
one come behind the others. -/
theorem lines_writeKnownHostKey (system : ControlHost) {marker line : List Char}
    (hmarker : IsLine marker) (hline : IsLine line) (file : List Char) :
    knownHostLines (writeKnownHostKey system marker (line ++ ['\n']) file) =
      (knownHostLines file).filter (fun found => !isLineOf marker found) ++
        [marker ++ ' ' :: line, []] := by
  have hspace : IsLine (marker ++ ' ' :: line) := by
    intro c hc
    rcases List.mem_append.mp hc with hc | hc
    · exact hmarker c hc
    rcases List.mem_cons.mp hc with rfl | hc
    · decide
    · exact hline c hc
  generalize hkept : (knownHostLines file).filter (fun found => !isLineOf marker found) = kept
  have hlines : ∀ found ∈ kept ++ [marker ++ ' ' :: line, []], IsLine found := by
    intro found hfound
    rcases List.mem_append.mp hfound with hfound | hfound
    · rw [← hkept, List.mem_filter] at hfound
      exact isLine_of_mem_splitlines hfound.1
    rcases List.mem_cons.mp hfound with rfl | hfound
    · exact hspace
    · rw [List.mem_singleton] at hfound
      rw [hfound]
      exact fun c hc => absurd hc List.not_mem_nil
  have htext : joined (kept ++ [marker ++ ' ' :: (line ++ ['\n'])]) ++ ['\n'] =
      unlines (kept ++ [marker ++ ' ' :: line, []]) := by
    have hne : kept ++ [marker ++ ' ' :: (line ++ ['\n'])] ≠ [] := by simp
    rw [joined_lf hne, unlines_append, unlines_append]
    simp [unlines]
  unfold writeKnownHostKey knownHostLines
  rw [show (splitlines (universal file)).filter (fun found => !isLineOf marker found) = kept from hkept]
  simp only [htext]
  rw [splitlines_universal]
  cases system with
  | posix => exact splitlines_unlines hlines
  | nt => exact splitlines_withCr_unlines hlines

/-! ### Runs -/

section Runs

variable {Key : Type} (keys : SshKeys Key) (system : ControlHost)

/-- The writes of these keys, one after the other. -/
def writeKeys : List Char → List (ManagedHost × List Char) → List Char
  | file, [] => file
  | file, entry :: rest =>
      writeKeys (writeKnownHostKey system (knownHostMarker entry.1) (entry.2 ++ ['\n']) file) rest

/-- A call that confirms nothing leaves the file as it is. -/
theorem trustManagedHostKey_file (call : Found Key × String) (file : List Char) :
    (trustManagedHostKey keys system call.1 call.2 file).2 =
      writeKeys system file (confirmed keys call).toList := by
  obtain ⟨⟨host, fetched⟩, fingerprintSha256⟩ := call
  cases host with
  | none => rfl
  | some host =>
      cases fetched with
      | none => rfl
      | some key =>
          simp only [trustManagedHostKey, confirmed]
          by_cases hsame : keys.fingerprint key = strip fingerprintSha256
          · rw [if_neg (fun h => h hsame), if_pos hsame]
            rfl
          · rw [if_pos hsame, if_neg hsame]
            rfl

theorem writeKeys_append (file : List Char) (front back : List (ManagedHost × List Char)) :
    writeKeys system file (front ++ back) = writeKeys system (writeKeys system file front) back := by
  induction front generalizing file with
  | nil => rfl
  | cons entry rest ih => exact ih _

theorem trustAll_eq (file : List Char) (calls : List (Found Key × String)) :
    trustAll keys system file calls = writeKeys system file (calls.filterMap (confirmed keys)) := by
  induction calls generalizing file with
  | nil => rfl
  | cons call rest ih =>
      have hcalls : (call :: rest).filterMap (confirmed keys) =
          (confirmed keys call).toList ++ rest.filterMap (confirmed keys) := by
        rw [List.filterMap_cons]
        cases confirmed keys call with
        | none => rfl
        | some entry => rfl
      rw [trustAll, ih, trustManagedHostKey_file, hcalls, writeKeys_append]

theorem confirmed_isLine {call : Found Key × String} {entry : ManagedHost × List Char}
    (h : confirmed keys call = some entry) : IsLine entry.2 := by
  unfold confirmed at h
  split at h
  · split at h
    · obtain rfl := Option.some.inj h
      exact keys.isLine _
    · cases h
  · cases h

theorem isLineOf_self (marker line : List Char) : isLineOf marker (marker ++ ' ' :: line) = true :=
  isLineOf_iff.mpr ⟨line, rfl⟩

theorem isLineOf_nil (marker : List Char) : isLineOf marker [] = false := by
  rw [Bool.eq_false_iff]
  intro h
  obtain ⟨rest, hline⟩ := isLineOf_iff.mp h
  exact absurd hline.symm (List.append_ne_nil_of_right_ne_nil _ (List.cons_ne_nil _ _))

/-- The lines of an endpoint after one write. -/
theorem linesOf_write (host : ManagedHost) {entry : ManagedHost × List Char} (hline : IsLine entry.2)
    (file : List Char) :
    (knownHostLines (writeKnownHostKey system (knownHostMarker entry.1) (entry.2 ++ ['\n'])
      file)).filter (isLineOf (knownHostMarker host)) =
      if entry.1.ipAddress = host.ipAddress ∧ entry.1.sshPort = host.sshPort then
        [knownHostMarker host ++ ' ' :: entry.2]
      else (knownHostLines file).filter (isLineOf (knownHostMarker host)) := by
  rw [lines_writeKnownHostKey system (isLine_marker entry.1) hline, List.filter_append,
    List.filter_filter]
  by_cases hsame : entry.1.ipAddress = host.ipAddress ∧ entry.1.sshPort = host.sshPort
  · have hmarker := knownHostMarker_inj.mpr hsame
    have hnone : (knownHostLines file).filter (fun found =>
        isLineOf (knownHostMarker host) found && !isLineOf (knownHostMarker host) found) = [] := by
      rw [List.filter_eq_nil_iff]
      intro found _
      simp
    rw [if_pos hsame, hmarker, hnone]
    simp [isLineOf_self, isLineOf_nil]
  · have hmarker : knownHostMarker entry.1 ≠ knownHostMarker host :=
      fun h => hsame (knownHostMarker_inj.mp h)
    have hunique : ∀ line, isLineOf (knownHostMarker host) line = true →
        isLineOf (knownHostMarker entry.1) line = false := by
      intro line h
      rw [Bool.eq_false_iff]
      exact fun h' => hmarker
        (isLineOf_unique (space_notMem_marker _) (space_notMem_marker _) h' h)
    have hkept : (knownHostLines file).filter (fun found =>
        isLineOf (knownHostMarker host) found && !isLineOf (knownHostMarker entry.1) found) =
        (knownHostLines file).filter (isLineOf (knownHostMarker host)) := by
      refine List.filter_congr (fun line _ => ?_)
      cases h : isLineOf (knownHostMarker host) line with
      | false => rfl
      | true => rw [hunique line h]; rfl
    have hnew : isLineOf (knownHostMarker host) (knownHostMarker entry.1 ++ ' ' :: entry.2) = false := by
      rw [Bool.eq_false_iff]
      intro h
      have hother := hunique _ h
      rw [isLineOf_self] at hother
      cases hother
    rw [if_neg hsame, hkept]
    simp [hnew, isLineOf_nil]

/-- **The key that was confirmed last** is the only one of its endpoint. -/
theorem linesOf_writeKeys (host : ManagedHost) {entries : List (ManagedHost × List Char)}
    (hlines : ∀ entry ∈ entries, IsLine entry.2) (file : List Char) :
    (knownHostLines (writeKeys system file entries)).filter (isLineOf (knownHostMarker host)) =
      ((lastKey host entries).map (fun line => [knownHostMarker host ++ ' ' :: line])).getD
        ((knownHostLines file).filter (isLineOf (knownHostMarker host))) := by
  induction entries generalizing file with
  | nil => rfl
  | cons entry rest ih =>
      rw [List.forall_mem_cons] at hlines
      rw [writeKeys, ih hlines.2, linesOf_write system host hlines.1, lastKey]
      cases lastKey host rest with
      | some line => rfl
      | none =>
          split
          · rfl
          · rfl

/-- **The other lines** stay in order, and every write adds an empty one. -/
theorem otherLines_writeKeys {entries : List (ManagedHost × List Char)}
    (hlines : ∀ entry ∈ entries, IsLine entry.2) (file : List Char) :
    (knownHostLines (writeKeys system file entries)).filter (isOther entries) =
      (knownHostLines file).filter (isOther entries) ++ List.replicate entries.length [] := by
  induction entries generalizing file with
  | nil =>
      rw [writeKeys, List.length_nil, List.replicate_zero, List.append_nil]
  | cons entry rest ih =>
      rw [List.forall_mem_cons] at hlines
      have hsplit : ∀ lines : List (List Char), lines.filter (isOther (entry :: rest)) =
          (lines.filter (isOther rest)).filter
            (fun line => !isLineOf (knownHostMarker entry.1) line) := by
        intro lines
        rw [List.filter_filter]
        exact List.filter_congr (fun line _ => rfl)
      have hblank : ∀ count, (List.replicate count ([] : List Char)).filter
          (fun line => !isLineOf (knownHostMarker entry.1) line) = List.replicate count [] := by
        intro count
        rw [List.filter_eq_self]
        intro line hline
        rw [List.eq_of_mem_replicate hline, isLineOf_nil]
        rfl
      have hempty : isOther rest [] = true := by
        rw [isOther, List.all_eq_true]
        intro other _
        rw [isLineOf_nil]
        rfl
      have hnew : ([knownHostMarker entry.1 ++ ' ' :: entry.2, []].filter (isOther rest)).filter
          (fun line => !isLineOf (knownHostMarker entry.1) line) = [[]] := by
        rw [List.filter_filter]
        simp [isLineOf_self, isLineOf_nil, hempty]
      have hkept : (((knownHostLines file).filter
          (fun line => !isLineOf (knownHostMarker entry.1) line)).filter (isOther rest)).filter
            (fun line => !isLineOf (knownHostMarker entry.1) line) =
          (knownHostLines file).filter (isOther (entry :: rest)) := by
        rw [hsplit, List.filter_filter, List.filter_filter, List.filter_filter]
        refine List.filter_congr (fun line _ => ?_)
        cases isLineOf (knownHostMarker entry.1) line with
        | false => simp
        | true => simp
      rw [writeKeys, hsplit, ih hlines.2, List.filter_append, hblank,
        lines_writeKnownHostKey system (isLine_marker entry.1) hlines.1, List.filter_append,
        List.filter_append, hnew, hkept, List.append_assoc, List.singleton_append,
        List.length_cons, List.replicate_succ]

/-- The text of a key is never found: it ends its own line. -/
theorem knownHostsContains_export (marker : List Char) (key : Key) (file : List Char) :
    knownHostsContains marker (keys.exportPublicKey key) file = false := by
  rw [knownHostsContains, decide_eq_false_iff_not]
  intro hmem
  refine isLine_of_mem_splitlines hmem '\n' ?_ (by decide)
  rw [SshKeys.exportPublicKey]
  simp

end Runs

end Workbench.KnownHosts
