import Mathlib.Data.List.Basic

/-!
# Base64 and UTF-8

Two codecs between texts and bytes, a byte being a number below 256.  Base64 is
decoded the lenient way of common runtimes: both alphabets are read, characters
outside them are skipped, and the text ends at the first `=`.  UTF-8 is decoded
with replacement: every maximal ill-formed part becomes one `U+FFFD`.

Both decoders invert their encoder (`base64Decode_encode`, `utf8Decode_encode`).
-/

namespace TextCodecs

/-! ## Base64 -/

def base64Digits : List Char :=
  "ABCDEFGHIJKLMNOPQRSTUVWXYZabcdefghijklmnopqrstuvwxyz0123456789+/".toList

def base64Digit (n : Nat) : Char := base64Digits.getD n '='

/-- The number of a digit, in the standard or the URL-safe alphabet. -/
def base64Value (c : Char) : Option Nat :=
  if c = '-' then some 62
  else if c = '_' then some 63
  else base64Digits.idxOf? c

/-- Three bytes are four digits; an incomplete group is padded. -/
def base64Encode : List Nat → List Char
  | a :: b :: c :: rest =>
      base64Digit (a / 4) :: base64Digit (a % 4 * 16 + b / 16) ::
        base64Digit (b % 16 * 4 + c / 64) :: base64Digit (c % 64) :: base64Encode rest
  | [a, b] =>
      [base64Digit (a / 4), base64Digit (a % 4 * 16 + b / 16), base64Digit (b % 16 * 4), '=']
  | [a] => [base64Digit (a / 4), base64Digit (a % 4 * 16), '=', '=']
  | [] => []

/-- Four digits are three bytes; what is left over of an incomplete group is
dropped. -/
def base64Bytes : List Nat → List Nat
  | p :: q :: r :: s :: rest =>
      (p * 4 + q / 16) :: (q % 16 * 16 + r / 4) :: (r % 4 * 64 + s) :: base64Bytes rest
  | [p, q, r] => [p * 4 + q / 16, q % 16 * 16 + r / 4]
  | [p, q] => [p * 4 + q / 16]
  | _ => []

def base64Decode (text : List Char) : List Nat :=
  base64Bytes ((text.takeWhile (· ≠ '=')).filterMap base64Value)

theorem base64Digit_spec : ∀ n < 64, base64Digit n ≠ '=' ∧ base64Value (base64Digit n) = some n := by
  decide +kernel

/-- The digits of a text that starts with one. -/
theorem base64Values_cons {n : Nat} (h : n < 64) (text : List Char) :
    ((base64Digit n :: text).takeWhile (· ≠ '=')).filterMap base64Value =
      n :: (text.takeWhile (· ≠ '=')).filterMap base64Value := by
  obtain ⟨hpad, hvalue⟩ := base64Digit_spec n h
  rw [List.takeWhile_cons_of_pos (by simpa using hpad), List.filterMap_cons, hvalue]

theorem base64Values_pad (text : List Char) :
    (('=' :: text).takeWhile (· ≠ '=')).filterMap base64Value = [] := rfl

/-- **Base64 round trip.** -/
theorem base64Decode_encode (bytes : List Nat) (h : ∀ b ∈ bytes, b < 256) :
    base64Decode (base64Encode bytes) = bytes := by
  unfold base64Decode
  induction bytes using base64Encode.induct with
  | case1 a b c rest ih =>
      have ha : a < 256 := h a (by simp)
      have hb : b < 256 := h b (by simp)
      have hc : c < 256 := h c (by simp)
      unfold base64Encode
      rw [base64Values_cons (by omega), base64Values_cons (by omega), base64Values_cons (by omega),
        base64Values_cons (by omega)]
      unfold base64Bytes
      rw [ih fun x hx => h x (by simp [hx])]
      have hfirst : a / 4 * 4 + (a % 4 * 16 + b / 16) / 16 = a := by omega
      have hsecond : (a % 4 * 16 + b / 16) % 16 * 16 + (b % 16 * 4 + c / 64) / 4 = b := by omega
      have hthird : (b % 16 * 4 + c / 64) % 4 * 64 + c % 64 = c := by omega
      rw [hfirst, hsecond, hthird]
  | case2 a b =>
      have ha : a < 256 := h a (by simp)
      have hb : b < 256 := h b (by simp)
      unfold base64Encode
      rw [base64Values_cons (by omega), base64Values_cons (by omega), base64Values_cons (by omega),
        base64Values_pad]
      unfold base64Bytes
      have hfirst : a / 4 * 4 + (a % 4 * 16 + b / 16) / 16 = a := by omega
      have hsecond : (a % 4 * 16 + b / 16) % 16 * 16 + b % 16 * 4 / 4 = b := by omega
      rw [hfirst, hsecond]
  | case3 a =>
      have ha : a < 256 := h a (by simp)
      unfold base64Encode
      rw [base64Values_cons (by omega), base64Values_cons (by omega), base64Values_pad]
      unfold base64Bytes
      have hfirst : a / 4 * 4 + a % 4 * 16 / 16 = a := by omega
      rw [hfirst]
  | case4 => rfl

/-- The characters of an encoded text. -/
theorem mem_base64Encode {bytes : List Nat} (h : ∀ b ∈ bytes, b < 256) {c : Char}
    (hc : c ∈ base64Encode bytes) : c = '=' ∨ ∃ n < 64, c = base64Digit n := by
  induction bytes using base64Encode.induct with
  | case1 x y z rest ih =>
      have hx : x < 256 := h x (by simp)
      have hy : y < 256 := h y (by simp)
      have hz : z < 256 := h z (by simp)
      unfold base64Encode at hc
      simp only [List.mem_cons] at hc
      rcases hc with rfl | rfl | rfl | rfl | hc
      · exact Or.inr ⟨_, by omega, rfl⟩
      · exact Or.inr ⟨_, by omega, rfl⟩
      · exact Or.inr ⟨_, by omega, rfl⟩
      · exact Or.inr ⟨_, by omega, rfl⟩
      · exact ih (fun b hb => h b (by simp [hb])) hc
  | case2 x y =>
      have hx : x < 256 := h x (by simp)
      have hy : y < 256 := h y (by simp)
      simp only [base64Encode, List.mem_cons, List.not_mem_nil, or_false] at hc
      rcases hc with rfl | rfl | rfl | rfl
      · exact Or.inr ⟨_, by omega, rfl⟩
      · exact Or.inr ⟨_, by omega, rfl⟩
      · exact Or.inr ⟨_, by omega, rfl⟩
      · exact Or.inl rfl
  | case3 x =>
      have hx : x < 256 := h x (by simp)
      simp only [base64Encode, List.mem_cons, List.not_mem_nil, or_false] at hc
      rcases hc with rfl | rfl | rfl | rfl
      · exact Or.inr ⟨_, by omega, rfl⟩
      · exact Or.inr ⟨_, by omega, rfl⟩
      · exact Or.inl rfl
      · exact Or.inl rfl
  | case4 => cases hc

theorem base64Encode_ne_nil {bytes : List Nat} (h : bytes ≠ []) : base64Encode bytes ≠ [] := by
  fun_cases base64Encode bytes <;> simp_all

/-! ## UTF-8 -/

def utf8Encode (chars : List Char) : List Nat :=
  chars.flatMap fun c => (String.utf8EncodeChar c).map UInt8.toNat

/-- A sequence being read: bytes still missing, the code point so far, and
the range of the next byte. -/
structure Pending where
  missing : Nat
  code : Nat
  lower : Nat
  upper : Nat

/-- The sequence a leading byte opens. -/
def leading (byte : Nat) : Option Pending :=
  if byte < 0xC2 then none
  else if byte < 0xE0 then some ⟨1, byte - 0xC0, 0x80, 0xBF⟩
  else if byte < 0xF0 then
    some ⟨2, byte - 0xE0, if byte = 0xE0 then 0xA0 else 0x80, if byte = 0xED then 0x9F else 0xBF⟩
  else if byte < 0xF5 then
    some ⟨3, byte - 0xF0, if byte = 0xF0 then 0x90 else 0x80, if byte = 0xF4 then 0x8F else 0xBF⟩
  else none

def replacement : Char := Char.ofNat 0xFFFD

/-- A byte outside any sequence. -/
def openByte (byte : Nat) : List Char × Option Pending :=
  if byte < 0x80 then ([Char.ofNat byte], none)
  else match leading byte with
    | some pending => ([], some pending)
    | none => ([replacement], none)

/-- The next byte of a sequence; one out of range ends the sequence and is read
again. -/
def nextByte (pending : Pending) (byte : Nat) : List Char × Option Pending :=
  if byte < pending.lower ∨ pending.upper < byte then
    (replacement :: (openByte byte).1, (openByte byte).2)
  else
    let code := pending.code * 64 + (byte - 0x80)
    if 1 < pending.missing then ([], some ⟨pending.missing - 1, code, 0x80, 0xBF⟩)
    else ([Char.ofNat code], none)

def utf8DecodeFrom : Option Pending → List Nat → List Char
  | none, [] => []
  | some _, [] => [replacement]
  | none, byte :: rest => (openByte byte).1 ++ utf8DecodeFrom (openByte byte).2 rest
  | some pending, byte :: rest =>
      (nextByte pending byte).1 ++ utf8DecodeFrom (nextByte pending byte).2 rest

def utf8Decode (bytes : List Nat) : List Char := utf8DecodeFrom none bytes

/-- The bytes of a character, by its length. -/
theorem utf8EncodeChar_cases (c : Char) :
    c.toNat < 0x80 ∧ (String.utf8EncodeChar c).map UInt8.toNat = [c.toNat] ∨
      0x80 ≤ c.toNat ∧ c.toNat < 0x800 ∧ (String.utf8EncodeChar c).map UInt8.toNat =
        [0xC0 + c.toNat / 64, 0x80 + c.toNat % 64] ∨
      0x800 ≤ c.toNat ∧ c.toNat < 0x10000 ∧ (String.utf8EncodeChar c).map UInt8.toNat =
        [0xE0 + c.toNat / 4096, 0x80 + c.toNat / 64 % 64, 0x80 + c.toNat % 64] ∨
      0x10000 ≤ c.toNat ∧ c.toNat < 0x110000 ∧ (String.utf8EncodeChar c).map UInt8.toNat =
        [0xF0 + c.toNat / 262144, 0x80 + c.toNat / 4096 % 64, 0x80 + c.toNat / 64 % 64,
          0x80 + c.toNat % 64] := by
  have hbound : c.toNat < 0x110000 := by
    rcases c.valid with h | h
    · exact Nat.lt_trans h (by decide)
    · exact h.2
  have hval : c.val.toNat = c.toNat := rfl
  unfold String.utf8EncodeChar
  simp only [hval]
  split_ifs with h₁ h₂ h₃
  · left
    refine ⟨by omega, ?_⟩
    simp only [List.map_cons, List.map_nil, UInt8.toNat_ofNat']
    congr 1
    omega
  · right; left
    refine ⟨by omega, by omega, ?_⟩
    simp only [List.map_cons, List.map_nil, UInt8.toNat_ofNat']
    congr 1
    · omega
    · congr 1
      omega
  · right; right; left
    refine ⟨by omega, by omega, ?_⟩
    simp only [List.map_cons, List.map_nil, UInt8.toNat_ofNat']
    congr 1
    · omega
    · congr 1
      · omega
      · congr 1
        omega
  · right; right; right
    refine ⟨by omega, by omega, ?_⟩
    simp only [List.map_cons, List.map_nil, UInt8.toNat_ofNat']
    congr 1
    · omega
    · congr 1
      · omega
      · congr 1
        · omega
        · congr 1
          omega

theorem mem_utf8Encode_lt {chars : List Char} {byte : Nat} (h : byte ∈ utf8Encode chars) :
    byte < 256 := by
  obtain ⟨c, -, hbyte⟩ := List.mem_flatMap.mp h
  obtain ⟨b, -, rfl⟩ := List.mem_map.mp hbyte
  exact UInt8.toNat_lt b

/-- No scalar value is a surrogate. -/
theorem toNat_not_surrogate (c : Char) : c.toNat < 0xD800 ∨ 0xDFFF < c.toNat := by
  rcases c.valid with h | h
  · exact Or.inl h
  · exact Or.inr h.1

/-- A byte in range that is not the last of its sequence. -/
theorem nextByte_inner (missing code : Nat) {lower upper byte : Nat} (hlower : lower ≤ byte)
    (hupper : byte ≤ upper) :
    nextByte ⟨missing + 2, code, lower, upper⟩ byte =
      ([], some ⟨missing + 1, code * 64 + (byte - 0x80), 0x80, 0xBF⟩) := by
  unfold nextByte
  rw [if_neg (by simp only; omega), if_pos (by simp only; omega)]
  rfl

/-- The last byte of a sequence. -/
theorem nextByte_last (code : Nat) {lower upper byte : Nat} (hlower : lower ≤ byte)
    (hupper : byte ≤ upper) :
    nextByte ⟨1, code, lower, upper⟩ byte = ([Char.ofNat (code * 64 + (byte - 0x80))], none) := by
  unfold nextByte
  rw [if_neg (by simp only; omega), if_neg (by simp only; omega)]

theorem openByte_leading {byte : Nat} {pending : Pending} (hbyte : 0x80 ≤ byte)
    (h : leading byte = some pending) : openByte byte = ([], some pending) := by
  unfold openByte
  rw [if_neg (by omega), h]

/-- The bytes of a character are read as the character. -/
theorem utf8DecodeFrom_char (c : Char) (rest : List Nat) :
    utf8DecodeFrom none ((String.utf8EncodeChar c).map UInt8.toNat ++ rest) =
      c :: utf8DecodeFrom none rest := by
  have hscalar := toNat_not_surrogate c
  rcases utf8EncodeChar_cases c with ⟨hn, hbytes⟩ | ⟨hl, hn, hbytes⟩ | ⟨hl, hn, hbytes⟩ |
    ⟨hl, hn, hbytes⟩ <;> rw [hbytes] <;> simp only [List.cons_append, List.nil_append]
  · have hopen : openByte c.toNat = ([c], none) := by
      unfold openByte
      rw [if_pos hn, Char.ofNat_toNat]
    simp only [utf8DecodeFrom, hopen, List.singleton_append]
  · have hlead : leading (0xC0 + c.toNat / 64) = some ⟨1, c.toNat / 64, 0x80, 0xBF⟩ := by
      unfold leading
      rw [if_neg (by omega), if_pos (by omega), Nat.add_sub_cancel_left]
    have hlast : nextByte ⟨1, c.toNat / 64, 0x80, 0xBF⟩ (0x80 + c.toNat % 64) = ([c], none) := by
      rw [nextByte_last _ (by omega) (by omega), Nat.add_sub_cancel_left,
        show c.toNat / 64 * 64 + c.toNat % 64 = c.toNat by omega, Char.ofNat_toNat]
    simp only [utf8DecodeFrom, openByte_leading (Nat.le_add_right_of_le (by decide)) hlead, hlast,
      List.nil_append, List.singleton_append]
  · have hlead : leading (0xE0 + c.toNat / 4096) = some ⟨2, c.toNat / 4096,
        if 0xE0 + c.toNat / 4096 = 0xE0 then 0xA0 else 0x80,
        if 0xE0 + c.toNat / 4096 = 0xED then 0x9F else 0xBF⟩ := by
      unfold leading
      rw [if_neg (by omega), if_neg (by omega), if_pos (by omega), Nat.add_sub_cancel_left]
    have hsecond : nextByte ⟨2, c.toNat / 4096,
        if 0xE0 + c.toNat / 4096 = 0xE0 then 0xA0 else 0x80,
        if 0xE0 + c.toNat / 4096 = 0xED then 0x9F else 0xBF⟩ (0x80 + c.toNat / 64 % 64) =
        ([], some ⟨1, c.toNat / 64, 0x80, 0xBF⟩) := by
      rw [nextByte_inner 0 _ (by split_ifs <;> omega) (by split_ifs <;> omega),
        Nat.add_sub_cancel_left,
        show c.toNat / 4096 * 64 + c.toNat / 64 % 64 = c.toNat / 64 by omega]
    have hlast : nextByte ⟨1, c.toNat / 64, 0x80, 0xBF⟩ (0x80 + c.toNat % 64) = ([c], none) := by
      rw [nextByte_last _ (by omega) (by omega), Nat.add_sub_cancel_left,
        show c.toNat / 64 * 64 + c.toNat % 64 = c.toNat by omega, Char.ofNat_toNat]
    simp only [utf8DecodeFrom, openByte_leading (Nat.le_add_right_of_le (by decide)) hlead, hsecond,
      hlast, List.nil_append, List.singleton_append]
  · have hlead : leading (0xF0 + c.toNat / 262144) = some ⟨3, c.toNat / 262144,
        if 0xF0 + c.toNat / 262144 = 0xF0 then 0x90 else 0x80,
        if 0xF0 + c.toNat / 262144 = 0xF4 then 0x8F else 0xBF⟩ := by
      unfold leading
      rw [if_neg (by omega), if_neg (by omega), if_neg (by omega), if_pos (by omega),
        Nat.add_sub_cancel_left]
    have hsecond : nextByte ⟨3, c.toNat / 262144,
        if 0xF0 + c.toNat / 262144 = 0xF0 then 0x90 else 0x80,
        if 0xF0 + c.toNat / 262144 = 0xF4 then 0x8F else 0xBF⟩ (0x80 + c.toNat / 4096 % 64) =
        ([], some ⟨2, c.toNat / 4096, 0x80, 0xBF⟩) := by
      rw [nextByte_inner 1 _ (by split_ifs <;> omega) (by split_ifs <;> omega),
        Nat.add_sub_cancel_left,
        show c.toNat / 262144 * 64 + c.toNat / 4096 % 64 = c.toNat / 4096 by omega]
    have hthird : nextByte ⟨2, c.toNat / 4096, 0x80, 0xBF⟩ (0x80 + c.toNat / 64 % 64) =
        ([], some ⟨1, c.toNat / 64, 0x80, 0xBF⟩) := by
      rw [nextByte_inner 0 _ (by omega) (by omega), Nat.add_sub_cancel_left,
        show c.toNat / 4096 * 64 + c.toNat / 64 % 64 = c.toNat / 64 by omega]
    have hlast : nextByte ⟨1, c.toNat / 64, 0x80, 0xBF⟩ (0x80 + c.toNat % 64) = ([c], none) := by
      rw [nextByte_last _ (by omega) (by omega), Nat.add_sub_cancel_left,
        show c.toNat / 64 * 64 + c.toNat % 64 = c.toNat by omega, Char.ofNat_toNat]
    simp only [utf8DecodeFrom, openByte_leading (Nat.le_add_right_of_le (by decide)) hlead, hsecond,
      hthird, hlast, List.nil_append, List.singleton_append]

/-- **UTF-8 round trip.** -/
theorem utf8Decode_encode (chars : List Char) : utf8Decode (utf8Encode chars) = chars := by
  unfold utf8Decode utf8Encode
  induction chars with
  | nil => rfl
  | cons c cs ih => rw [List.flatMap_cons, utf8DecodeFrom_char, ih]

example : String.ofList (base64Encode (utf8Encode "a:é".toList)) = "YTrDqQ==" := by decide +kernel

end TextCodecs
