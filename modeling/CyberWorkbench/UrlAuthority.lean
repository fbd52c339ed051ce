import Mathlib.Data.List.TakeWhile
import CyberWorkbench.PercentEncoding

/-!
# The authority of a URL

User information, host and port, as they stand between the two slashes of a URL and
its path.  `readAuthority` takes them apart again, for a host that is a name or an
address without colons.

* `readAuthority_write_iff` — what was written is read exactly if the host has no
  delimiter in it, and there is no password without a user.
-/

namespace UrlAuthority

open PercentEncoding

/-- The text in front of the first separator, and the text behind it, if there is
one. -/
def cut (separator : Char) : List Char → List Char × Option (List Char)
  | [] => ([], none)
  | c :: rest =>
      if c = separator then ([], some rest) else (c :: (cut separator rest).1, (cut separator rest).2)

theorem cut_append {separator : Char} {front : List Char} (h : separator ∉ front) (back : List Char) :
    cut separator (front ++ separator :: back) = (front, some back) := by
  induction front with
  | nil => rw [List.nil_append, cut, if_pos rfl]
  | cons c rest ih =>
      rw [List.mem_cons, not_or] at h
      rw [List.cons_append, cut, if_neg (fun hc => h.1 hc.symm), ih h.2]

theorem cut_of_notMem {separator : Char} {text : List Char} (h : separator ∉ text) :
    cut separator text = (text, none) := by
  induction text with
  | nil => rfl
  | cons c rest ih =>
      rw [List.mem_cons, not_or] at h
      rw [cut, if_neg (fun hc => h.1 hc.symm), ih h.2]

/-- What is in front of the separator is of the text, and not the separator. -/
theorem mem_cut {separator c : Char} {text : List Char} (hc : c ∈ (cut separator text).1) :
    c ∈ text ∧ c ≠ separator := by
  induction text with
  | nil => cases hc
  | cons d rest ih =>
      rw [cut] at hc
      split at hc
      · cases hc
      · rename_i hd
        rcases List.mem_cons.mp hc with rfl | hc
        · exact ⟨List.mem_cons_self, hd⟩
        · exact ⟨List.mem_cons_of_mem _ (ih hc).1, (ih hc).2⟩

/-! ### Authorities -/

structure Authority where
  user : List Char
  password : List Char
  host : List Char
  port : Nat
  deriving DecidableEq, Repr

/-- What ends an authority. -/
def ends : List Char := ['/', '?', '#']

/-- What means something in an authority. -/
def delimiters : List Char := ends ++ ['@', ':', '[', ']']

/-- A host without delimiters. -/
def IsHostName (host : List Char) : Prop := ∀ c ∈ host, c ∉ delimiters

instance (host : List Char) : Decidable (IsHostName host) :=
  -- Over the characters of the host, not over all there are.
  List.decidableBAll (fun c => c ∉ delimiters) host

def writeAuthority (authority : Authority) : List Char :=
  (if authority.user = [] then []
    else encode authority.user ++ ':' :: (encode authority.password ++ ['@'])) ++
    (authority.host ++ ':' :: (toString authority.port).toList)

def readPort (digits : List Char) : Option Nat :=
  if digits ≠ [] ∧ digits.all Char.isDigit = true then some (Nat.ofDigitChars 10 digits 0) else none

/-- A host and its port. -/
def readHost (text : List Char) : Option (List Char × Nat) :=
  (cut ':' text).2.bind fun digits => (readPort digits).map fun port => ((cut ':' text).1, port)

/-- A user and a password. -/
def readUser (text : List Char) : List Char × List Char :=
  (decode (cut ':' text).1, decode ((cut ':' text).2.getD []))

/-- The authority a text begins with: what is behind its last `@` is the host, and
what is in front of it the user. -/
def readAuthority (text : List Char) : Option Authority :=
  let authority := text.takeWhile (fun c => decide (c ∉ ends))
  if '[' ∈ authority ∨ ']' ∈ authority then none
  else
    let parts := cut '@' authority.reverse
    (readHost parts.1.reverse).map fun host =>
      { user := (readUser (parts.2.getD []).reverse).1
        password := (readUser (parts.2.getD []).reverse).2
        host := host.1
        port := host.2 }

/-! ### Reading what was written -/

theorem isDigit_of_port {port : Nat} {c : Char} (hc : c ∈ (toString port).toList) :
    c.isDigit = true := by
  have htext : (toString port).toList = Nat.toDigits 10 port := Nat.toList_repr
  rw [htext] at hc
  exact Nat.isDigit_of_mem_toDigits (by decide) (by decide) hc

theorem readPort_toString (port : Nat) : readPort (toString port).toList = some port := by
  have htext : (toString port).toList = Nat.toDigits 10 port := Nat.toList_repr
  have hne : (toString port).toList ≠ [] := by
    rw [htext]
    exact Nat.toDigits_ne_nil
  have hdigits : (toString port).toList.all Char.isDigit = true :=
    List.all_eq_true.mpr (fun c hc => isDigit_of_port hc)
  unfold readPort
  rw [if_pos ⟨hne, hdigits⟩, htext, Nat.ofDigitChars_toDigits (by decide) (by decide)]

theorem readHost_append {host : List Char} (h : ':' ∉ host) (port : Nat) :
    readHost (host ++ ':' :: (toString port).toList) = some (host, port) := by
  unfold readHost
  rw [cut_append h, Option.bind_some, readPort_toString, Option.map_some]

theorem readUser_encode (user password : List Char) :
    readUser (encode user ++ ':' :: encode password) = (user, password) := by
  unfold readUser
  rw [cut_append (notMem_encode (by decide)), Option.getD_some, decode_encode, decode_encode]

theorem delimiter_notMem_port {c : Char} (hc : c ∈ delimiters) (port : Nat) :
    c ∉ (toString port).toList := by
  have hall : delimiters.all (fun d => !d.isDigit) = true := by decide
  intro hmem
  have hnot := List.all_eq_true.mp hall c hc
  rw [isDigit_of_port hmem] at hnot
  cases hnot

theorem delimiter_notMem_encode {c : Char} (hc : c ∈ delimiters) (text : List Char) :
    c ∉ encode text := by
  have hall : delimiters.all (fun d => !isPlain d) = true := by decide
  have hnot := List.all_eq_true.mp hall c hc
  rw [Bool.not_eq_true'] at hnot
  exact notMem_encode hnot

/-- The delimiters of what was written, but for the colons and the `@`. -/
theorem delimiter_notMem_write {authority : Authority} (hhost : IsHostName authority.host) {c : Char}
    (hc : c ∈ delimiters) (hcolon : c ≠ ':') (hat : c ≠ '@') : c ∉ writeAuthority authority := by
  have hback : c ∉ authority.host ++ ':' :: (toString authority.port).toList := by
    rw [List.mem_append, List.mem_cons, not_or, not_or]
    exact ⟨fun hmem => hhost c hmem hc, hcolon, delimiter_notMem_port hc _⟩
  unfold writeAuthority
  rw [List.mem_append, not_or]
  refine ⟨?_, hback⟩
  split
  · exact List.not_mem_nil
  · rw [List.mem_append, List.mem_cons, List.mem_append, List.mem_singleton, not_or, not_or, not_or]
    exact ⟨delimiter_notMem_encode hc _, hcolon, delimiter_notMem_encode hc _, hat⟩

/-- The host that is read has no delimiter in it. -/
theorem isHostName_of_read {text : List Char} {authority : Authority}
    (h : readAuthority text = some authority) : IsHostName authority.host := by
  unfold readAuthority at h
  simp only at h
  split at h
  · cases h
  rename_i hbrackets
  rw [not_or] at hbrackets
  obtain ⟨host, hhost, rfl⟩ := Option.map_eq_some_iff.mp h
  unfold readHost at hhost
  obtain ⟨digits, -, hdigits⟩ := Option.bind_eq_some_iff.mp hhost
  obtain ⟨port, -, rfl⟩ := Option.map_eq_some_iff.mp hdigits
  intro c hc hdelimiter
  obtain ⟨hmem, hcolon⟩ := mem_cut hc
  rw [List.mem_reverse] at hmem
  obtain ⟨hmem, hat⟩ := mem_cut hmem
  rw [List.mem_reverse] at hmem
  have hends := List.mem_takeWhile_imp hmem
  rw [decide_eq_true_eq] at hends
  simp only [delimiters, List.mem_append, List.mem_cons, List.not_mem_nil, or_false] at hdelimiter
  rcases hdelimiter with hend | hat' | hcolon' | hopen | hclose
  · exact hends hend
  · exact hat hat'
  · exact hcolon hcolon'
  · exact hbrackets.1 (hopen ▸ hmem)
  · exact hbrackets.2 (hclose ▸ hmem)

/-- Reading an authority that was written with such a host. -/
theorem readAuthority_write {authority : Authority} (hhost : IsHostName authority.host) :
    readAuthority (writeAuthority authority) = some
      { user := authority.user
        password := if authority.user = [] then [] else authority.password
        host := authority.host
        port := authority.port } := by
  have hcolon : ':' ∉ authority.host := fun hmem => hhost _ hmem (by decide)
  have hat : '@' ∉ authority.host ++ ':' :: (toString authority.port).toList := by
    rw [List.mem_append, List.mem_cons, not_or, not_or]
    exact ⟨fun hmem => hhost _ hmem (by decide), by decide, delimiter_notMem_port (by decide) _⟩
  have hwhole : (writeAuthority authority).takeWhile (fun c => decide (c ∉ ends)) =
      writeAuthority authority := by
    rw [List.takeWhile_eq_self_iff]
    intro c hc
    rw [decide_eq_true_eq]
    intro hend
    have hne : ends.all (fun d => decide (d ≠ ':') && decide (d ≠ '@')) = true := by decide
    have hend' := List.all_eq_true.mp hne c hend
    rw [Bool.and_eq_true, decide_eq_true_eq, decide_eq_true_eq] at hend'
    exact delimiter_notMem_write hhost (List.mem_append_left _ hend) hend'.1 hend'.2 hc
  have hbrackets : ¬ ('[' ∈ writeAuthority authority ∨ ']' ∈ writeAuthority authority) := by
    rw [not_or]
    exact ⟨delimiter_notMem_write hhost (by decide) (by decide) (by decide),
      delimiter_notMem_write hhost (by decide) (by decide) (by decide)⟩
  unfold readAuthority
  simp only [hwhole]
  rw [if_neg hbrackets]
  by_cases huser : authority.user = []
  · have htext : writeAuthority authority = authority.host ++ ':' :: (toString authority.port).toList := by
      rw [writeAuthority, if_pos huser, List.nil_append]
    have hcut : cut '@' (writeAuthority authority).reverse =
        ((writeAuthority authority).reverse, none) :=
      cut_of_notMem (fun hmem => hat (htext ▸ List.mem_reverse.mp hmem))
    rw [hcut, List.reverse_reverse, htext, readHost_append hcolon, if_pos huser, huser]
    rfl
  · have htext : (writeAuthority authority).reverse =
        (authority.host ++ ':' :: (toString authority.port).toList).reverse ++
          '@' :: (encode authority.user ++ ':' :: encode authority.password).reverse := by
      rw [writeAuthority, if_neg huser]
      simp
    rw [htext, cut_append (fun hmem => hat (List.mem_reverse.mp hmem)), List.reverse_reverse,
      readHost_append hcolon, Option.getD_some, List.reverse_reverse, readUser_encode, if_neg huser]
    rfl

/-- **What was written is read** exactly if the host has no delimiter in it, and no
password is without a user. -/
theorem readAuthority_write_iff (authority : Authority) :
    readAuthority (writeAuthority authority) = some authority ↔
      IsHostName authority.host ∧ (authority.user = [] → authority.password = []) := by
  constructor
  · intro h
    have hhost := isHostName_of_read h
    refine ⟨hhost, fun huser => ?_⟩
    rw [readAuthority_write hhost, if_pos huser] at h
    exact (congrArg Authority.password (Option.some.inj h)).symm
  · rintro ⟨hhost, hpassword⟩
    rw [readAuthority_write hhost]
    by_cases huser : authority.user = []
    · rw [if_pos huser, ← hpassword huser]
    · rw [if_neg huser]

end UrlAuthority
