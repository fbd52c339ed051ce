import CyberWorkbench.Utf8Replacement

/-!
# Percent-encoding

Text in a URL: the bytes of its UTF-8, each as itself if nothing in a URL means
anything else by it, and as a percent sign and two digits otherwise.  What was encoded
is decoded (`decode_encode`), and an encoding has no delimiter in it
(`isPlain_of_mem_encode`).
-/

namespace PercentEncoding

/-- A byte that stands for itself. -/
def unreserved (b : UInt8) : Bool :=
  (Char.ofNat b.toNat).isAlphanum || decide (Char.ofNat b.toNat ∈ ['_', '.', '-', '~'])

/-- The digits, by value. -/
def hexDigits : List Char := "0123456789ABCDEF".toList

/-- The digit of a value below 16. -/
def hexDigit (value : Nat) : Char := hexDigits.getD value '0'

/-- The value of a digit. -/
def hexValue (c : Char) : Option Nat :=
  if c.isDigit then some (c.toNat - '0'.toNat)
  else if 'A' ≤ c ∧ c ≤ 'F' then some (c.toNat - 'A'.toNat + 10)
  else if 'a' ≤ c ∧ c ≤ 'f' then some (c.toNat - 'a'.toNat + 10)
  else none

def encodeByte (b : UInt8) : List Char :=
  if unreserved b then [Char.ofNat b.toNat]
  else ['%', hexDigit (b.toNat / 16), hexDigit (b.toNat % 16)]

/-- `urllib.parse.quote(text, safe="")`. -/
def encode (text : List Char) : List Char := (Utf8.encode text).flatMap encodeByte

/-- The byte of two digits. -/
def hexByte (high low : Char) : Option UInt8 :=
  (hexValue high).bind fun h => (hexValue low).map fun l => UInt8.ofNat (h * 16 + l)

/-- `urllib.parse.unquote_to_bytes`: a percent sign without two digits stands for
itself. -/
def decodeBytes : List Char → List UInt8
  | [] => []
  | [c] => String.utf8EncodeChar c
  | [c, d] => String.utf8EncodeChar c ++ String.utf8EncodeChar d
  | c :: high :: low :: rest =>
      match if c = '%' then hexByte high low else none with
      | some b => b :: decodeBytes rest
      | none => String.utf8EncodeChar c ++ decodeBytes (high :: low :: rest)

/-- `urllib.parse.unquote`. -/
def decode (text : List Char) : List Char := Utf8.decode (decodeBytes text)

/-- What an encoding consists of. -/
def isPlain (c : Char) : Bool := c.isAlphanum || decide (c ∈ ['_', '.', '-', '~', '%'])

/-! ### Bytes -/

theorem hexValue_hexDigit : ∀ value < 16, hexValue (hexDigit value) = some value := by decide

theorem hexByte_hexDigit (b : UInt8) :
    hexByte (hexDigit (b.toNat / 16)) (hexDigit (b.toNat % 16)) = some b := by
  have hlt : b.toNat < 256 := b.toNat_lt
  unfold hexByte
  rw [hexValue_hexDigit _ (by omega), hexValue_hexDigit _ (by omega), Option.bind_some,
    Option.map_some, Nat.div_add_mod' b.toNat 16, UInt8.ofNat_toNat]

/-- A byte that stands for itself is one character in UTF-8. -/
theorem utf8EncodeChar_unreserved {b : UInt8} (h : unreserved b = true) :
    String.utf8EncodeChar (Char.ofNat b.toNat) = [b] ∧ Char.ofNat b.toNat ≠ '%' := by
  have hall : ∀ n < 256, unreserved (UInt8.ofNat n) = true →
      String.utf8EncodeChar (Char.ofNat n) = [UInt8.ofNat n] ∧ Char.ofNat n ≠ '%' := by
    decide +kernel
  have hbyte := hall b.toNat b.toNat_lt
  rw [UInt8.ofNat_toNat] at hbyte
  exact hbyte h

theorem decodeBytes_of_ne {c : Char} (hc : c ≠ '%') (rest : List Char) :
    decodeBytes (c :: rest) = String.utf8EncodeChar c ++ decodeBytes rest := by
  cases rest with
  | nil => simp [decodeBytes]
  | cons d rest =>
      cases rest with
      | nil => simp [decodeBytes]
      | cons e rest => rw [decodeBytes, if_neg hc]

theorem decodeBytes_encodeByte (b : UInt8) (rest : List Char) :
    decodeBytes (encodeByte b ++ rest) = b :: decodeBytes rest := by
  unfold encodeByte
  split
  · rename_i hself
    obtain ⟨hencode, hne⟩ := utf8EncodeChar_unreserved hself
    rw [List.singleton_append, decodeBytes_of_ne hne, hencode, List.singleton_append]
  · simp only [List.cons_append, List.nil_append]
    rw [decodeBytes, if_pos rfl, hexByte_hexDigit]

theorem decodeBytes_flatMap (bytes : List UInt8) : decodeBytes (bytes.flatMap encodeByte) = bytes := by
  induction bytes with
  | nil => rfl
  | cons b rest ih => rw [List.flatMap_cons, decodeBytes_encodeByte, ih]

/-! ### Texts -/

/-- **What was encoded is decoded.** -/
theorem decode_encode (text : List Char) : decode (encode text) = text := by
  have hdecode := Utf8.decode_encode_append text []
  rw [List.append_nil, Utf8.decode_nil, List.append_nil] at hdecode
  rw [decode, encode, decodeBytes_flatMap, hdecode]

/-- **An encoding has no delimiter in it.** -/
theorem isPlain_of_mem_encode {text : List Char} {c : Char} (hc : c ∈ encode text) :
    isPlain c = true := by
  have hdigit : ∀ value < 16, isPlain (hexDigit value) = true := by decide
  obtain ⟨b, -, hb⟩ := List.mem_flatMap.mp hc
  unfold encodeByte at hb
  split at hb
  · rename_i hself
    rw [List.mem_singleton] at hb
    unfold unreserved at hself
    rw [Bool.or_eq_true, decide_eq_true_eq] at hself
    rw [hb, isPlain, Bool.or_eq_true, decide_eq_true_eq]
    rcases hself with halphanum | hmark
    · exact .inl halphanum
    · exact .inr (List.mem_append_left ['%'] hmark)
  · have hlt : b.toNat < 256 := b.toNat_lt
    rcases List.mem_cons.mp hb with rfl | hb
    · decide
    rcases List.mem_cons.mp hb with rfl | hb
    · exact hdigit _ (by omega)
    rw [List.mem_singleton] at hb
    rw [hb]
    exact hdigit _ (by omega)

theorem notMem_encode {text : List Char} {c : Char} (hc : isPlain c = false) : c ∉ encode text := by
  intro hmem
  rw [isPlain_of_mem_encode hmem] at hc
  cases hc

end PercentEncoding
