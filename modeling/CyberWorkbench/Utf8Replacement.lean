import Mathlib.Data.List.Basic

/-!
# UTF-8 with a replacement character

Decoding bytes that need not be UTF-8: what is no character is replaced by
U+FFFD, once for every longest beginning of a character that is not completed,
and once for every other byte.

* `decode_encode_append`: what was encoded is decoded.
* `decode_take_encode`: of a cut encoding, the characters before the cut are
  decoded, and what is left of the one that is cut becomes one replacement
  character.
* `length_decode_take`: how long the result is when it is encoded again.
-/

namespace Utf8

/-- The encoding of a text. -/
def encode (text : List Char) : List UInt8 := text.flatMap String.utf8EncodeChar

/-- U+FFFD. -/
def replacement : Char := '\uFFFD'

/-- What a first byte asks for: its part of the code point, how many bytes
follow, and between which bounds the first of these is. -/
structure Lead where
  value : Nat
  more : Nat
  low : Nat := 0x80
  high : Nat := 0xBF
  deriving DecidableEq, Repr

/-- The first bytes of characters.  The bounds on what follows exclude overlong
encodings, surrogates and code points that are too large. -/
def lead? (b : Nat) : Option Lead :=
  if b ≤ 0x7F then some { value := b, more := 0 }
  else if 0xC2 ≤ b ∧ b ≤ 0xDF then some { value := b - 0xC0, more := 1 }
  else if b = 0xE0 then some { value := 0, more := 2, low := 0xA0 }
  else if b = 0xED then some { value := 0xD, more := 2, high := 0x9F }
  else if 0xE1 ≤ b ∧ b ≤ 0xEF then some { value := b - 0xE0, more := 2 }
  else if b = 0xF0 then some { value := 0, more := 3, low := 0x90 }
  else if 0xF1 ≤ b ∧ b ≤ 0xF3 then some { value := b - 0xF0, more := 3 }
  else if b = 0xF4 then some { value := 4, more := 3, high := 0x8F }
  else none

/-- The bytes that continue a character of which `n` bytes are missing. -/
def continued : Nat → Nat → Nat → List UInt8 → List UInt8
  | 0, _, _, _ => []
  | _ + 1, _, _, [] => []
  | n + 1, low, high, b :: rest =>
      if low ≤ b.toNat ∧ b.toNat ≤ high then b :: continued n 0x80 0xBF rest else []

/-- The code point that `value` and the bytes after it make up. -/
def assemble (value : Nat) (bytes : List UInt8) : Nat :=
  bytes.foldl (fun v b => v * 64 + (b.toNat - 0x80)) value

/-- The character at a byte, and how many bytes after it belong to it. -/
def decodeStep (b : UInt8) (rest : List UInt8) : Char × Nat :=
  match lead? b.toNat with
  | none => (replacement, 0)
  | some lead =>
      let bytes := continued lead.more lead.low lead.high rest
      if bytes.length = lead.more then (Char.ofNat (assemble lead.value bytes), bytes.length)
      else (replacement, bytes.length)

/-- Every round takes a byte, so their number is fuel enough. -/
def decodeFrom : Nat → List UInt8 → List Char
  | 0, _ => []
  | _ + 1, [] => []
  | fuel + 1, b :: rest =>
      (decodeStep b rest).1 :: decodeFrom fuel (rest.drop (decodeStep b rest).2)

/-- `bytes.decode(errors="replace")`. -/
def decode (bytes : List UInt8) : List Char := decodeFrom bytes.length bytes

/-! ### One character -/

/-- The bytes complete a character of which `n` bytes are missing. -/
def Completes : Nat → Nat → Nat → List UInt8 → Prop
  | 0, _, _, bytes => bytes = []
  | n + 1, low, high, bytes =>
      ∃ b rest, bytes = b :: rest ∧ low ≤ b.toNat ∧ b.toNat ≤ high ∧ Completes n 0x80 0xBF rest

theorem Completes.length {n low high : Nat} {bytes : List UInt8}
    (h : Completes n low high bytes) : bytes.length = n := by
  induction n generalizing low high bytes with
  | zero => rw [show bytes = [] from h]; rfl
  | succ n ih =>
      obtain ⟨b, rest, rfl, -, -, hrest⟩ := h
      rw [List.length_cons, ih hrest]

theorem continued_append {n low high : Nat} {bytes : List UInt8}
    (h : Completes n low high bytes) (after : List UInt8) :
    continued n low high (bytes ++ after) = bytes := by
  induction n generalizing low high bytes with
  | zero => rw [show bytes = [] from h]; rfl
  | succ n ih =>
      obtain ⟨b, rest, rfl, hlow, hhigh, hrest⟩ := h
      rw [List.cons_append, continued, if_pos ⟨hlow, hhigh⟩, ih hrest]

/-- All of what is there of a cut character continues it. -/
theorem continued_take {n low high : Nat} {bytes : List UInt8}
    (h : Completes n low high bytes) (k : Nat) :
    continued n low high (bytes.take k) = bytes.take k := by
  induction n generalizing low high bytes k with
  | zero => rw [show bytes = [] from h, List.take_nil]; rfl
  | succ n ih =>
      obtain ⟨b, rest, rfl, hlow, hhigh, hrest⟩ := h
      cases k with
      | zero => rfl
      | succ k => rw [List.take_succ_cons, continued, if_pos ⟨hlow, hhigh⟩, ih hrest]

theorem lead?_two {b : Nat} (hlow : 0xC2 ≤ b) (hhigh : b ≤ 0xDF) :
    lead? b = some { value := b - 0xC0, more := 1 } := by
  unfold lead?
  rw [if_neg (by omega), if_pos ⟨hlow, hhigh⟩]

/-- The first byte of three, with the byte `s` after it. -/
theorem lead?_three {b s : Nat} (hlow : 0xE0 ≤ b) (hhigh : b ≤ 0xEF) (hs : 0x80 ≤ s)
    (hs' : s ≤ 0xBF) (hlong : b = 0xE0 → 0xA0 ≤ s) (hsurrogate : b = 0xED → s ≤ 0x9F) :
    ∃ lead, lead? b = some lead ∧ lead.value = b - 0xE0 ∧ lead.more = 2 ∧ lead.low ≤ s ∧
      s ≤ lead.high := by
  unfold lead?
  rw [if_neg (by omega), if_neg (by omega)]
  by_cases hfirst : b = 0xE0
  · rw [if_pos hfirst]
    exact ⟨_, rfl, (by rw [hfirst]), rfl, hlong hfirst, hs'⟩
  · rw [if_neg hfirst]
    by_cases hD : b = 0xED
    · rw [if_pos hD]
      exact ⟨_, rfl, (by rw [hD]), rfl, hs, hsurrogate hD⟩
    · rw [if_neg hD, if_pos (by omega)]
      exact ⟨_, rfl, rfl, rfl, hs, hs'⟩

/-- The first byte of four, with the byte `s` after it. -/
theorem lead?_four {b s : Nat} (hlow : 0xF0 ≤ b) (hhigh : b ≤ 0xF4) (hs : 0x80 ≤ s)
    (hs' : s ≤ 0xBF) (hlong : b = 0xF0 → 0x90 ≤ s) (hlarge : b = 0xF4 → s ≤ 0x8F) :
    ∃ lead, lead? b = some lead ∧ lead.value = b - 0xF0 ∧ lead.more = 3 ∧ lead.low ≤ s ∧
      s ≤ lead.high := by
  unfold lead?
  rw [if_neg (by omega), if_neg (by omega), if_neg (by omega), if_neg (by omega),
    if_neg (by omega)]
  by_cases hfirst : b = 0xF0
  · rw [if_pos hfirst]
    exact ⟨_, rfl, (by rw [hfirst]), rfl, hlong hfirst, hs'⟩
  · rw [if_neg hfirst]
    by_cases hlast : b = 0xF4
    · rw [if_neg (by omega), if_pos hlast]
      exact ⟨_, rfl, (by rw [hlast]), rfl, hs, hlarge hlast⟩
    · rw [if_pos (by omega)]
      exact ⟨_, rfl, rfl, rfl, hs, hs'⟩

theorem toNat_byte {n : Nat} (h : n < 256) : (UInt8.ofNat n).toNat = n := by
  rw [UInt8.toNat_ofNat', Nat.mod_eq_of_lt h]

/-- **The encoding of a character** is a first byte and the bytes it asks for. -/
theorem encode_char (c : Char) : ∃ b bytes lead, String.utf8EncodeChar c = b :: bytes ∧
    lead? b.toNat = some lead ∧ Completes lead.more lead.low lead.high bytes ∧
      assemble lead.value bytes = c.toNat := by
  have hvalid : c.val.toNat < 0xD800 ∨ 0xDFFF < c.val.toNat ∧ c.val.toNat < 0x110000 := c.valid
  have hv : c.toNat = c.val.toNat := rfl
  rw [hv]
  unfold String.utf8EncodeChar
  generalize c.val.toNat = v at hvalid
  dsimp only
  by_cases hone : v ≤ 0x7F
  · rw [if_pos hone]
    refine ⟨_, _, { value := v, more := 0 }, rfl, ?_, rfl, rfl⟩
    rw [toNat_byte (by omega)]
    exact if_pos hone
  rw [if_neg hone]
  by_cases htwo : v ≤ 0x7FF
  · rw [if_pos htwo]
    have hb : (UInt8.ofNat (v / 64 % 0x20 + 0xC0)).toNat = v / 64 % 0x20 + 0xC0 :=
      toNat_byte (by omega)
    have hs : (UInt8.ofNat (v % 0x40 + 0x80)).toNat = v % 0x40 + 0x80 := toNat_byte (by omega)
    refine ⟨_, _, _, rfl, lead?_two (by rw [hb]; omega) (by rw [hb]; omega),
      ⟨_, _, rfl, ?_, ?_, rfl⟩, ?_⟩
    · rw [hs]; show 0x80 ≤ _; omega
    · rw [hs]; show _ ≤ 0xBF; omega
    · simp only [assemble, List.foldl_cons, List.foldl_nil, hb, hs]
      omega
  rw [if_neg htwo]
  have hlast : (UInt8.ofNat (v % 0x40 + 0x80)).toNat = v % 0x40 + 0x80 := toNat_byte (by omega)
  have hmiddle : (UInt8.ofNat (v / 64 % 0x40 + 0x80)).toNat = v / 64 % 0x40 + 0x80 :=
    toNat_byte (by omega)
  by_cases hthree : v ≤ 0xFFFF
  · rw [if_pos hthree]
    have hb : (UInt8.ofNat (v / 4096 % 0x10 + 0xE0)).toNat = v / 4096 % 0x10 + 0xE0 :=
      toNat_byte (by omega)
    obtain ⟨lead, hlead, hvalue, hmore, hlow, hhigh⟩ := lead?_three
      (b := v / 4096 % 0x10 + 0xE0) (s := v / 64 % 0x40 + 0x80) (by omega) (by omega) (by omega)
      (by omega) (by omega) (by omega)
    refine ⟨_, _, lead, rfl, by rw [hb]; exact hlead, ?_, ?_⟩
    · rw [hmore]
      refine ⟨_, _, rfl, by rw [hmiddle]; exact hlow, by rw [hmiddle]; exact hhigh,
        _, _, rfl, ?_, ?_, rfl⟩
      · rw [hlast]; omega
      · rw [hlast]; omega
    · simp only [assemble, List.foldl_cons, List.foldl_nil, hvalue, hmiddle, hlast]
      omega
  · rw [if_neg hthree]
    have hb : (UInt8.ofNat (v / 262144 % 0x08 + 0xF0)).toNat = v / 262144 % 0x08 + 0xF0 :=
      toNat_byte (by omega)
    have hsecond : (UInt8.ofNat (v / 4096 % 0x40 + 0x80)).toNat = v / 4096 % 0x40 + 0x80 :=
      toNat_byte (by omega)
    obtain ⟨lead, hlead, hvalue, hmore, hlow, hhigh⟩ := lead?_four
      (b := v / 262144 % 0x08 + 0xF0) (s := v / 4096 % 0x40 + 0x80) (by omega) (by omega)
      (by omega) (by omega) (by omega) (by omega)
    refine ⟨_, _, lead, rfl, by rw [hb]; exact hlead, ?_, ?_⟩
    · rw [hmore]
      refine ⟨_, _, rfl, by rw [hsecond]; exact hlow, by rw [hsecond]; exact hhigh,
        _, _, rfl, ?_, ?_, _, _, rfl, ?_, ?_, rfl⟩
      · rw [hmiddle]; omega
      · rw [hmiddle]; omega
      · rw [hlast]; omega
      · rw [hlast]; omega
    · simp only [assemble, List.foldl_cons, List.foldl_nil, hvalue, hsecond, hmiddle, hlast]
      omega

/-- A character is read whole. -/
theorem decodeStep_char {c : Char} {b : UInt8} {bytes : List UInt8}
    (h : String.utf8EncodeChar c = b :: bytes) (after : List UInt8) :
    decodeStep b (bytes ++ after) = (c, bytes.length) := by
  obtain ⟨b', bytes', lead, heq, hlead, hcompletes, hvalue⟩ := encode_char c
  rw [h] at heq
  obtain ⟨rfl, rfl⟩ := List.cons.inj heq
  unfold decodeStep
  simp only [hlead, continued_append hcompletes, hcompletes.length, if_true, hvalue,
    Char.ofNat_toNat]

/-- What is left of a cut character is read as one replacement character. -/
theorem decodeStep_cut {c : Char} {b : UInt8} {bytes : List UInt8}
    (h : String.utf8EncodeChar c = b :: bytes) {k : Nat} (hk : k < bytes.length) :
    decodeStep b (bytes.take k) = (replacement, k) := by
  obtain ⟨b', bytes', lead, heq, hlead, hcompletes, -⟩ := encode_char c
  rw [h] at heq
  obtain ⟨rfl, rfl⟩ := List.cons.inj heq
  have hlength : (bytes.take k).length = k := by rw [List.length_take]; omega
  have hmore := hcompletes.length
  unfold decodeStep
  simp only [hlead, continued_take hcompletes, hlength]
  rw [if_neg (by omega)]

/-! ### Texts -/

@[simp] theorem encode_nil : encode [] = [] := rfl

@[simp] theorem encode_cons (c : Char) (text : List Char) :
    encode (c :: text) = String.utf8EncodeChar c ++ encode text := rfl

@[simp] theorem encode_append (text more : List Char) :
    encode (text ++ more) = encode text ++ encode more :=
  List.flatMap_append

/-- More fuel than there are bytes changes nothing. -/
theorem decodeFrom_eq_decode {fuel : Nat} {bytes : List UInt8} (h : bytes.length ≤ fuel) :
    decodeFrom fuel bytes = decode bytes := by
  suffices hany : ∀ n m : Nat, ∀ l : List UInt8, l.length ≤ n → l.length ≤ m →
      decodeFrom n l = decodeFrom m l from hany fuel bytes.length bytes h (Nat.le_refl _)
  intro n
  induction n with
  | zero =>
      intro m l hn _
      rw [List.length_eq_zero_iff.mp (Nat.le_zero.mp hn)]
      cases m <;> rfl
  | succ n ih =>
      intro m l hn hm
      cases l with
      | nil => cases m <;> rfl
      | cons b rest =>
          cases m with
          | zero => exact absurd hm (by simp)
          | succ m =>
              rw [List.length_cons] at hn hm
              have hdrop : (rest.drop (decodeStep b rest).2).length ≤ rest.length := by
                rw [List.length_drop]; omega
              rw [decodeFrom, decodeFrom, ih m _ (by omega) (by omega)]

@[simp] theorem decode_nil : decode [] = [] := rfl

theorem decode_cons (b : UInt8) (rest : List UInt8) :
    decode (b :: rest) =
      (decodeStep b rest).1 :: decode (rest.drop (decodeStep b rest).2) := by
  have hdrop : (rest.drop (decodeStep b rest).2).length ≤ rest.length := by
    rw [List.length_drop]; omega
  show decodeFrom (rest.length + 1) (b :: rest) = _
  rw [decodeFrom, decodeFrom_eq_decode hdrop]

/-- A character is decoded, and then what follows it. -/
theorem decode_char_append (c : Char) (after : List UInt8) :
    decode (String.utf8EncodeChar c ++ after) = c :: decode after := by
  obtain ⟨b, bytes, lead, h, -⟩ := encode_char c
  rw [h, List.cons_append, decode_cons, decodeStep_char h, List.drop_left]

/-- What is left of a cut character is decoded to one replacement character. -/
theorem decode_take_char (c : Char) {n : Nat} (hpos : 0 < n) (hn : n < c.utf8Size) :
    decode ((String.utf8EncodeChar c).take n) = [replacement] := by
  obtain ⟨b, bytes, lead, h, -⟩ := encode_char c
  have hsize := String.length_utf8EncodeChar c
  rw [h, List.length_cons] at hsize
  obtain ⟨k, rfl⟩ : ∃ k, n = k + 1 := ⟨n - 1, by omega⟩
  have hlength : (bytes.take k).length ≤ k := List.length_take_le k bytes
  rw [h, List.take_succ_cons, decode_cons, decodeStep_cut h (by omega)]
  simp only
  rw [List.drop_eq_nil_of_le hlength, decode_nil]

/-- **What was encoded is decoded.** -/
theorem decode_encode_append (text : List Char) (after : List UInt8) :
    decode (encode text ++ after) = text ++ decode after := by
  induction text with
  | nil => rfl
  | cons c rest ih =>
      rw [encode_cons, List.append_assoc, decode_char_append, ih, List.cons_append]

/-! ### Cut encodings -/

/-- The characters whose encodings are within the first `n` bytes. -/
def beforeCut : Nat → List Char → List Char
  | _, [] => []
  | n, c :: rest => if c.utf8Size ≤ n then c :: beforeCut (n - c.utf8Size) rest else []

/-- How many bytes a cut at `n` leaves of the character it falls into. -/
def cutLeft : Nat → List Char → Nat
  | _, [] => 0
  | n, c :: rest => if c.utf8Size ≤ n then cutLeft (n - c.utf8Size) rest else n

/-- The character that a cut falls into follows the ones before the cut. -/
theorem beforeCut_split (n : Nat) (text : List Char) :
    (beforeCut n text = text ∧ cutLeft n text = 0) ∨
      ∃ c rest, text = beforeCut n text ++ c :: rest ∧ cutLeft n text < c.utf8Size := by
  induction text generalizing n with
  | nil => exact .inl ⟨rfl, rfl⟩
  | cons c rest ih =>
      rw [beforeCut, cutLeft]
      by_cases hfits : c.utf8Size ≤ n
      · rw [if_pos hfits, if_pos hfits]
        rcases ih (n - c.utf8Size) with ⟨hall, hzero⟩ | ⟨d, after, hsplit, hlt⟩
        · exact .inl ⟨by rw [hall], hzero⟩
        · exact .inr ⟨d, after, by rw [List.cons_append, ← hsplit], hlt⟩
      · rw [if_neg hfits, if_neg hfits]
        exact .inr ⟨c, rest, rfl, by omega⟩

/-- Where the bytes before a cut go. -/
theorem length_beforeCut {n : Nat} {text : List Char} (h : n ≤ (encode text).length) :
    (encode (beforeCut n text)).length + cutLeft n text = n := by
  induction text generalizing n with
  | nil => exact (Nat.le_zero.mp h).symm
  | cons c rest ih =>
      rw [encode_cons, List.length_append, String.length_utf8EncodeChar] at h
      rw [beforeCut, cutLeft]
      by_cases hfits : c.utf8Size ≤ n
      · have hrest := ih (n := n - c.utf8Size) (by omega)
        rw [if_pos hfits, if_pos hfits, encode_cons, List.length_append,
          String.length_utf8EncodeChar]
        omega
      · rw [if_neg hfits, if_neg hfits, encode_nil, List.length_nil, Nat.zero_add]

/-- A text that is not longer than the cut is before it. -/
theorem cutLeft_of_length_le {n : Nat} {text : List Char} (h : (encode text).length ≤ n) :
    cutLeft n text = 0 := by
  induction text generalizing n with
  | nil => rfl
  | cons c rest ih =>
      rw [encode_cons, List.length_append, String.length_utf8EncodeChar] at h
      rw [cutLeft, if_pos (by omega)]
      exact ih (by omega)

/-- **A cut encoding** is decoded to the characters before the cut, and one
replacement character for what is left of the one that is cut. -/
theorem decode_take_encode (n : Nat) (text : List Char) :
    decode ((encode text).take n) =
      beforeCut n text ++ (if cutLeft n text = 0 then [] else [replacement]) := by
  induction text generalizing n with
  | nil => rw [encode_nil, List.take_nil]; rfl
  | cons c rest ih =>
      have hsize := String.length_utf8EncodeChar c
      rw [encode_cons, beforeCut, cutLeft]
      by_cases hfits : c.utf8Size ≤ n
      · obtain ⟨m, rfl⟩ : ∃ m, n = c.utf8Size + m := ⟨n - c.utf8Size, by omega⟩
        rw [if_pos hfits, if_pos hfits, ← hsize, List.take_length_add_append,
          decode_char_append, ih, List.cons_append, Nat.add_sub_cancel_left]
      · rw [if_neg hfits, if_neg hfits, List.take_append_of_le_length (by omega)]
        by_cases hzero : n = 0
        · rw [hzero, List.take_zero, decode_nil]
          rfl
        · rw [decode_take_char c (by omega) (by omega), if_neg hzero, List.nil_append]

/-- **The bytes of a decoded cut**: the replacement character takes three,
whatever is left of the character it replaces. -/
theorem length_decode_take {n : Nat} {text : List Char} (h : n ≤ (encode text).length) :
    (encode (decode ((encode text).take n))).length + cutLeft n text =
      n + (if cutLeft n text = 0 then 0 else 3) := by
  have hbefore := length_beforeCut h
  rw [decode_take_encode, encode_append, List.length_append]
  by_cases hzero : cutLeft n text = 0
  · rw [if_pos hzero, if_pos hzero, encode_nil, List.length_nil]
    omega
  · rw [if_neg hzero, if_neg hzero, show (encode [replacement]).length = 3 from rfl]
    omega

end Utf8
