import Mathlib.Algebra.Order.Field.Rat
import Mathlib.Data.List.Induction
import Mathlib.Data.List.TakeWhile
import Mathlib.Data.Nat.Cast.Order.Field
import Mathlib.Tactic.FieldSimp
import Mathlib.Tactic.Linarith
import Mathlib.Tactic.Ring

/-!
# Decimal texts

The texts of decimal numbers and the rationals they denote.  A canonical
decimal has no leading zero before another digit and no trailing zero in its
fraction; its lengths say how large and how fine its value is
(`Canonical.length_whole_le_iff`, `Canonical.length_fraction_le_iff`), and two
canonical decimals of one value are the same text (`Canonical.unique`).

The number tokens of JSON (a sign, an integer without leading zeros, and
optionally a fraction and an exponent) are read from the front of a text, and
the whole texts that are read are exactly the well-formed tokens
(`matchNumber_eq_some_iff`).
-/

namespace Decimals

/-! ## Digits -/

/-- The number that digits write. -/
def digitsValue (digits : List Char) : Nat := Nat.ofDigitChars 10 digits 0

/-- Every character is a digit. -/
def AllDigits (digits : List Char) : Prop := ∀ c ∈ digits, c.isDigit = true

section
variable {a b digits : List Char} {c : Char} {n : Nat}

/-- Digits behind digits. -/
theorem digitsValue_append (a b : List Char) :
    digitsValue (a ++ b) = digitsValue a * 10 ^ b.length + digitsValue b := by
  unfold digitsValue
  rw [Nat.ofDigitChars_append, Nat.ofDigitChars_eq_ofDigitChars_zero, Nat.mul_comm]

/-- Zeros count nothing. -/
theorem digitsValue_zeros (n : Nat) : digitsValue (List.replicate n '0') = 0 := by
  unfold digitsValue
  rw [Nat.ofDigitChars_replicate_zero, Nat.mul_zero]

/-- One digit. -/
theorem digitsValue_singleton (c : Char) : digitsValue [c] = c.toNat - 48 := by
  unfold digitsValue
  rw [Nat.ofDigitChars_cons, Nat.ofDigitChars_nil]
  have hzero : '0'.toNat = 48 := rfl
  omega

/-- The codes of digits. -/
theorem toNat_of_isDigit (h : c.isDigit = true) : 48 ≤ c.toNat ∧ c.toNat ≤ 57 := by
  unfold Char.isDigit at h
  simp only [Bool.and_eq_true, decide_eq_true_eq] at h
  obtain ⟨hlow, hhigh⟩ := h
  exact ⟨by simpa [UInt32.le_iff_toNat_le] using hlow, by simpa [UInt32.le_iff_toNat_le] using hhigh⟩

/-- The first of them. -/
theorem eq_zero_of_toNat (h : c.toNat = 48) : c = '0' := by
  rw [← Char.ofNat_toNat c, h]

/-- A number has no more digits than are written. -/
theorem digitsValue_lt (h : AllDigits digits) : digitsValue digits < 10 ^ digits.length := by
  induction digits using List.reverseRecOn with
  | nil => decide
  | append_singleton digits c ih =>
      have hinit := ih fun d hd => h d (List.mem_append_left _ hd)
      have hc := toNat_of_isDigit (h c (List.mem_append_right _ (List.mem_singleton_self c)))
      rw [digitsValue_append, digitsValue_singleton, List.length_append, List.length_singleton,
        pow_one, pow_succ]
      omega

/-- Digits behind digits are digits. -/
theorem AllDigits.append (ha : AllDigits a) (hb : AllDigits b) : AllDigits (a ++ b) := by
  intro c hc
  rcases List.mem_append.mp hc with hc | hc
  · exact ha c hc
  · exact hb c hc

/-- Zeros are digits. -/
theorem allDigits_zeros (n : Nat) : AllDigits (List.replicate n '0') := by
  intro c hc
  rw [(List.mem_replicate.mp hc).2]
  rfl

/-- Some of the digits are digits. -/
theorem AllDigits.sublist (h : AllDigits b) (hsub : a.Sublist b) : AllDigits a :=
  fun c hc => h c (hsub.mem hc)

/-- Numerals of one width are told apart by their values. -/
theorem digits_eq_of_value_eq (ha : AllDigits a) (hb : AllDigits b) (hlength : a.length = b.length)
    (hvalue : digitsValue a = digitsValue b) : a = b := by
  induction a using List.reverseRecOn generalizing b with
  | nil => exact (List.length_eq_zero_iff.mp hlength.symm).symm
  | append_singleton a c ih =>
      obtain ⟨b, d, rfl⟩ : ∃ b' d, b = b' ++ [d] := by
        refine ⟨b.dropLast, b.getLast ?_, (List.dropLast_append_getLast _).symm⟩
        rintro rfl
        rw [List.length_append] at hlength
        cases hlength
      have hc := toNat_of_isDigit (ha c (List.mem_append_right _ (List.mem_singleton_self c)))
      have hd := toNat_of_isDigit (hb d (List.mem_append_right _ (List.mem_singleton_self d)))
      rw [digitsValue_append, digitsValue_append, digitsValue_singleton, digitsValue_singleton,
        List.length_singleton, List.length_singleton, pow_one] at hvalue
      rw [List.length_append, List.length_append, List.length_singleton, List.length_singleton]
        at hlength
      have hinit : a = b := ih (fun x hx => ha x (List.mem_append_left _ hx))
        (fun x hx => hb x (List.mem_append_left _ hx)) (by omega) (by omega)
      have hlast : c = d := by
        rw [← Char.ofNat_toNat c, ← Char.ofNat_toNat d]
        congr 1
        omega
      rw [hinit, hlast]

end

/-! ## Decimals -/

/-- The value of a whole part and a fraction. -/
def fixedValue (whole fraction : List Char) : ℚ :=
  (digitsValue (whole ++ fraction) : ℚ) / 10 ^ fraction.length

/-- No leading zero before another digit, and no trailing zero. -/
structure Canonical (whole fraction : List Char) : Prop where
  whole_digits : AllDigits whole
  fraction_digits : AllDigits fraction
  nonempty : whole ≠ []
  leading : whole.head? = some '0' → whole = ['0']
  trailing : fraction.getLast? ≠ some '0'

/-- `/^0+(?=\d)/` replaced by nothing. -/
def dropLeadingZeros : List Char → List Char
  | '0' :: c :: digits => dropLeadingZeros (c :: digits)
  | digits => digits

/-- `/0+$/` replaced by nothing. -/
def dropTrailingZeros (digits : List Char) : List Char :=
  (digits.reverse.dropWhile (· = '0')).reverse

section
variable {whole fraction digits : List Char}

/-- Zeros at the front, and what is left. -/
theorem dropLeadingZeros_spec (digits : List Char) :
    ∃ zeros, digits = List.replicate zeros '0' ++ dropLeadingZeros digits ∧
      (digits ≠ [] → dropLeadingZeros digits ≠ []) ∧
      ((dropLeadingZeros digits).head? = some '0' → dropLeadingZeros digits = ['0']) := by
  induction digits using dropLeadingZeros.induct with
  | case1 c digits ih =>
      obtain ⟨zeros, heq, hne, hhead⟩ := ih
      refine ⟨zeros + 1, ?_, ?_, ?_⟩
      · rw [dropLeadingZeros, List.replicate_succ, List.cons_append, ← heq]
      · intro _
        rw [dropLeadingZeros]
        exact hne (List.cons_ne_nil _ _)
      · rw [dropLeadingZeros]
        exact hhead
  | case2 digits hother =>
      have hsame : dropLeadingZeros digits = digits := by
        unfold dropLeadingZeros
        split
        · rename_i c rest
          exact absurd rfl (hother c rest)
        · rfl
      refine ⟨0, ?_, ?_, ?_⟩
      · rw [hsame]
        rfl
      · rw [hsame]
        exact id
      · rw [hsame]
        intro hhead
        cases digits with
        | nil => cases hhead
        | cons c rest =>
            obtain rfl := Option.some.inj hhead
            cases rest with
            | nil => rfl
            | cons d rest => exact absurd rfl (hother d rest)

/-- Zeros at the end, and what is left. -/
theorem dropTrailingZeros_spec (digits : List Char) :
    ∃ zeros, digits = dropTrailingZeros digits ++ List.replicate zeros '0' ∧
      (dropTrailingZeros digits).getLast? ≠ some '0' := by
  have hsplit := List.takeWhile_append_dropWhile (p := (· = '0')) (l := digits.reverse)
  refine ⟨(digits.reverse.takeWhile (· = '0')).length, ?_, ?_⟩
  · have hzeros : digits.reverse.takeWhile (· = '0') =
        List.replicate (digits.reverse.takeWhile (· = '0')).length '0' := by
      rw [List.eq_replicate_iff]
      refine ⟨rfl, fun c hc => ?_⟩
      simpa using List.mem_takeWhile_imp hc
    have hback := congrArg List.reverse hsplit
    rw [List.reverse_append, List.reverse_reverse, hzeros, List.reverse_replicate] at hback
    exact hback.symm
  · unfold dropTrailingZeros
    rw [List.getLast?_reverse]
    intro hhead
    have hnot := List.head?_dropWhile_not (fun c => decide (c = '0')) digits.reverse
    rw [hhead] at hnot
    exact absurd hnot (by decide)

/-- **Canonical form.** -/
theorem canonical_drop (hwhole : AllDigits whole) (hfraction : AllDigits fraction)
    (hne : whole ≠ []) : Canonical (dropLeadingZeros whole) (dropTrailingZeros fraction) := by
  obtain ⟨zeros, heq, hnonempty, hleading⟩ := dropLeadingZeros_spec whole
  obtain ⟨zeros', heq', htrailing⟩ := dropTrailingZeros_spec fraction
  refine ⟨?_, ?_, hnonempty hne, hleading, htrailing⟩
  · intro c hc
    exact hwhole c (heq ▸ List.mem_append_right _ hc)
  · intro c hc
    exact hfraction c (heq' ▸ List.mem_append_left _ hc)

/-- The canonical form has the same value. -/
theorem fixedValue_drop (whole fraction : List Char) :
    fixedValue (dropLeadingZeros whole) (dropTrailingZeros fraction) =
      fixedValue whole fraction := by
  obtain ⟨zeros, heq, -, -⟩ := dropLeadingZeros_spec whole
  obtain ⟨zeros', heq', -⟩ := dropTrailingZeros_spec fraction
  generalize dropLeadingZeros whole = w at heq ⊢
  generalize dropTrailingZeros fraction = f at heq' ⊢
  unfold fixedValue
  rw [heq, heq', List.append_assoc, digitsValue_append (List.replicate zeros '0'),
    digitsValue_zeros, ← List.append_assoc, digitsValue_append (w ++ f), digitsValue_zeros]
  simp only [List.length_append, List.length_replicate, pow_add]
  have hpos : (10 : ℚ) ^ zeros' ≠ 0 := by positivity
  push_cast
  rw [zero_mul, zero_add, add_zero]
  field_simp

/-- A number without a sign is not negative. -/
theorem fixedValue_nonneg (whole fraction : List Char) : 0 ≤ fixedValue whole fraction := by
  unfold fixedValue
  positivity

variable (whole) in
/-- The value is the whole part and less than one. -/
theorem fixedValue_bounds (hfraction : AllDigits fraction) :
    (digitsValue whole : ℚ) ≤ fixedValue whole fraction ∧
      fixedValue whole fraction < digitsValue whole + 1 := by
  have hlt := digitsValue_lt hfraction
  have hcast : (digitsValue fraction : ℚ) < 10 ^ fraction.length := by exact_mod_cast hlt
  have hpos : (0 : ℚ) < 10 ^ fraction.length := by positivity
  have hnonneg : (0 : ℚ) ≤ digitsValue fraction := by positivity
  unfold fixedValue
  rw [digitsValue_append]
  push_cast
  constructor
  · rw [le_div_iff₀ hpos]
    linarith
  · rw [div_lt_iff₀ hpos]
    linarith

/-- **How large**: a canonical whole part has at most `n` digits exactly below
`10 ^ n`. -/
theorem Canonical.length_whole_le_iff (h : Canonical whole fraction) {n : Nat} (hn : 0 < n) :
    whole.length ≤ n ↔ fixedValue whole fraction < 10 ^ n := by
  obtain ⟨hlow, hhigh⟩ := fixedValue_bounds whole h.fraction_digits
  constructor
  · intro hlength
    have hvalue : digitsValue whole + 1 ≤ 10 ^ n :=
      (digitsValue_lt h.whole_digits).trans_le (Nat.pow_le_pow_right (by decide) hlength)
    have hcast : (digitsValue whole : ℚ) + 1 ≤ 10 ^ n := by exact_mod_cast hvalue
    linarith
  · intro hless
    have hwhole : digitsValue whole < 10 ^ n := by
      have hcast : (digitsValue whole : ℚ) < 10 ^ n := lt_of_le_of_lt hlow hless
      exact_mod_cast hcast
    by_contra hlong
    cases hshape : whole with
    | nil => exact h.nonempty hshape
    | cons c rest =>
        have hc := toNat_of_isDigit (h.whole_digits c (hshape ▸ List.mem_cons_self))
        have hrest : n ≤ rest.length := by
          rw [hshape, List.length_cons] at hlong
          omega
        have hpow : 10 ^ n ≤ 10 ^ rest.length := Nat.pow_le_pow_right (by decide) hrest
        by_cases hzero : c = '0'
        · have honly := h.leading (by rw [hshape, hzero]; rfl)
          rw [hshape] at honly
          have hnil := (List.cons.inj honly).2
          rw [hnil, List.length_nil] at hrest
          omega
        · have hdigit : 1 ≤ c.toNat - 48 := by
            by_contra hless
            exact hzero (eq_zero_of_toNat (by omega))
          have hsplit : digitsValue whole = (c.toNat - 48) * 10 ^ rest.length +
              digitsValue rest := by
            rw [hshape, ← List.singleton_append, digitsValue_append, digitsValue_singleton]
          have hlarge : 10 ^ rest.length ≤ (c.toNat - 48) * 10 ^ rest.length :=
            Nat.le_mul_of_pos_left _ hdigit
          omega

/-- **How fine**: a canonical fraction has at most `n` digits exactly when the
value is a whole number of units of the `n`th place. -/
theorem Canonical.length_fraction_le_iff (h : Canonical whole fraction) (n : Nat) :
    fraction.length ≤ n ↔ ∃ k : Nat, fixedValue whole fraction * 10 ^ n = k := by
  constructor
  · intro hlength
    obtain ⟨extra, rfl⟩ := Nat.exists_eq_add_of_le hlength
    refine ⟨digitsValue (whole ++ fraction) * 10 ^ extra, ?_⟩
    unfold fixedValue
    rw [pow_add]
    push_cast
    field_simp
  · rintro ⟨k, hk⟩
    by_contra hlong
    obtain ⟨f, c, hshape⟩ : ∃ f c, fraction = f ++ [c] := by
      have hne : fraction ≠ [] := by
        rintro rfl
        exact hlong (Nat.zero_le n)
      exact ⟨fraction.dropLast, fraction.getLast hne, (List.dropLast_append_getLast hne).symm⟩
    have hc := toNat_of_isDigit (h.fraction_digits c (by rw [hshape]; simp))
    have hnonzero : c ≠ '0' := by
      rintro rfl
      apply h.trailing
      rw [hshape]
      simp
    have hdigit : 1 ≤ c.toNat - 48 := by
      by_contra hless
      exact hnonzero (eq_zero_of_toNat (by omega))
    -- scaled to its last place, the value is no multiple of ten
    obtain ⟨extra, hextra⟩ := Nat.exists_eq_add_of_lt (not_le.mp hlong)
    have hscaled : digitsValue (whole ++ fraction) = k * 10 ^ (extra + 1) := by
      have hpos : (10 : ℚ) ^ fraction.length ≠ 0 := by positivity
      have hcast : (digitsValue (whole ++ fraction) : ℚ) = k * 10 ^ (extra + 1) := by
        rw [← hk]
        unfold fixedValue
        have hpow : (10 : ℚ) ^ fraction.length = 10 ^ n * 10 ^ (extra + 1) := by
          rw [← pow_add, hextra, Nat.add_assoc]
        rw [div_mul_eq_mul_div, div_mul_eq_mul_div, eq_div_iff hpos, hpow]
        ring
      exact_mod_cast hcast
    rw [hshape, ← List.append_assoc, digitsValue_append, digitsValue_singleton,
      List.length_singleton, pow_one, pow_succ, ← Nat.mul_assoc] at hscaled
    omega

/-- **Uniqueness.**  Two canonical decimals of one value are the same. -/
theorem Canonical.unique {whole' fraction' : List Char} (h : Canonical whole fraction)
    (h' : Canonical whole' fraction')
    (hvalue : fixedValue whole fraction = fixedValue whole' fraction') :
    whole = whole' ∧ fraction = fraction' := by
  have hfraction : fraction.length = fraction'.length := by
    apply Nat.le_antisymm
    · rw [h.length_fraction_le_iff, hvalue, ← h'.length_fraction_le_iff]
    · rw [h'.length_fraction_le_iff, ← hvalue, ← h.length_fraction_le_iff]
  have hpositive : 0 < whole.length ∧ 0 < whole'.length :=
    ⟨List.length_pos_iff.mpr h.nonempty, List.length_pos_iff.mpr h'.nonempty⟩
  have hwhole : whole.length = whole'.length := by
    apply Nat.le_antisymm
    · rw [h.length_whole_le_iff hpositive.2, hvalue, ← h'.length_whole_le_iff hpositive.2]
    · rw [h'.length_whole_le_iff hpositive.1, ← hvalue, ← h.length_whole_le_iff hpositive.1]
  have hdigits : whole ++ fraction = whole' ++ fraction' := by
    apply digits_eq_of_value_eq (h.whole_digits.append h.fraction_digits)
      (h'.whole_digits.append h'.fraction_digits)
    · rw [List.length_append, List.length_append, hwhole, hfraction]
    · unfold fixedValue at hvalue
      have hpos : (10 : ℚ) ^ fraction'.length ≠ 0 := by positivity
      rw [hfraction, div_left_inj' hpos] at hvalue
      exact_mod_cast hvalue
  exact List.append_inj hdigits hwhole

/-- The value is zero exactly for the text `0`. -/
theorem Canonical.value_eq_zero_iff (h : Canonical whole fraction) :
    fixedValue whole fraction = 0 ↔ whole = ['0'] ∧ fraction = [] := by
  have hzero : Canonical ['0'] [] := by
    refine ⟨?_, ?_, List.cons_ne_nil _ _, fun _ => rfl, by decide⟩
    · intro c hc
      rw [List.mem_singleton.mp hc]
      rfl
    · intro c hc
      cases hc
  have hvalue : fixedValue ['0'] [] = 0 := by
    unfold fixedValue
    have hdigits : digitsValue (['0'] ++ []) = 0 := rfl
    rw [hdigits]
    norm_num
  constructor
  · intro h0
    exact h.unique hzero (h0.trans hvalue.symm)
  · rintro ⟨rfl, rfl⟩
    exact hvalue

end

/-! ## Number tokens -/

/-- The power of ten behind a number. -/
structure Exponent where
  /-- `e` or `E` -/
  letter : Char
  sign : Option Char
  digits : List Char
  deriving DecidableEq, Repr

/-- The parts of a number as it is written. -/
structure NumberParts where
  negative : Bool
  integer : List Char
  fraction : Option (List Char)
  exponent : Option Exponent
  deriving DecidableEq, Repr

namespace Exponent

/-- As it is written. -/
def text (e : Exponent) : List Char := e.letter :: (e.sign.toList ++ e.digits)

/-- The power of ten. -/
def value (e : Exponent) : Int :=
  if e.sign = some '-' then -(digitsValue e.digits : Int) else digitsValue e.digits

/-- The grammar of an exponent. -/
structure WellFormed (e : Exponent) : Prop where
  letter : e.letter = 'e' ∨ e.letter = 'E'
  sign : ∀ c ∈ e.sign, c = '+' ∨ c = '-'
  nonempty : e.digits ≠ []
  digits : AllDigits e.digits

end Exponent

namespace NumberParts

/-- The digits behind the point. -/
def fractionDigits (p : NumberParts) : List Char := p.fraction.getD []

/-- The power of ten, which may be missing. -/
def exponentValue (p : NumberParts) : Int := (p.exponent.map Exponent.value).getD 0

/-- The sign as it is written, -/
def signText (p : NumberParts) : List Char := if p.negative then ['-'] else []

/-- the fraction, -/
def fractionText (p : NumberParts) : List Char := (p.fraction.map ('.' :: ·)).getD []

/-- and the exponent. -/
def exponentText (p : NumberParts) : List Char := (p.exponent.map Exponent.text).getD []

/-- The whole number as it is written. -/
def text (p : NumberParts) : List Char :=
  p.signText ++ (p.integer ++ (p.fractionText ++ p.exponentText))

/-- The number that the token denotes. -/
def value (p : NumberParts) : ℚ :=
  (if p.negative then -1 else 1) *
    (digitsValue (p.integer ++ p.fractionDigits) *
      (10 : ℚ) ^ (p.exponentValue - (p.fractionDigits.length : Int)))

/-- The grammar of a number. -/
structure WellFormed (p : NumberParts) : Prop where
  nonempty : p.integer ≠ []
  digits : AllDigits p.integer
  leading : p.integer.head? = some '0' → p.integer = ['0']
  fraction : ∀ digits, p.fraction = some digits → digits ≠ [] ∧ AllDigits digits
  exponent : ∀ e, p.exponent = some e → e.WellFormed

end NumberParts

/-! ## Reading a token -/

/-- The sign at the front of a text. -/
def scanSign : List Char → Bool × List Char
  | '-' :: rest => (true, rest)
  | rest => (false, rest)

/-- `0|[1-9]\d*` -/
def scanInteger : List Char → Option (List Char × List Char)
  | [] => none
  | c :: rest =>
      if c = '0' then some (['0'], rest)
      else if c.isDigit then
        some (c :: rest.takeWhile Char.isDigit, rest.dropWhile Char.isDigit)
      else none

/-- `(?:\.\d+)?` -/
def scanFraction : List Char → Option (List Char) × List Char
  | '.' :: rest =>
      if rest.takeWhile Char.isDigit = [] then (none, '.' :: rest)
      else (some (rest.takeWhile Char.isDigit), rest.dropWhile Char.isDigit)
  | rest => (none, rest)

/-- The sign of an exponent. -/
def scanExponentSign : List Char → Option Char × List Char
  | '+' :: rest => (some '+', rest)
  | '-' :: rest => (some '-', rest)
  | rest => (none, rest)

/-- `(?:e[+-]?\d+)?`, of either case. -/
def scanExponent : List Char → Option Exponent × List Char
  | [] => (none, [])
  | c :: rest =>
      if c = 'e' ∨ c = 'E' then
        let (sign, digits) := scanExponentSign rest
        if digits.takeWhile Char.isDigit = [] then (none, c :: rest)
        else (some ⟨c, sign, digits.takeWhile Char.isDigit⟩, digits.dropWhile Char.isDigit)
      else (none, c :: rest)

/-- The longest token at the front of a text, and what follows it. -/
def scanNumber (text : List Char) : Option (NumberParts × List Char) :=
  let (negative, unsigned) := scanSign text
  (scanInteger unsigned).map fun (integer, rest) =>
    let (fraction, afterFraction) := scanFraction rest
    let (exponent, afterExponent) := scanExponent afterFraction
    (⟨negative, integer, fraction, exponent⟩, afterExponent)

/-- The parts of a text that is a whole token. -/
def matchNumber (text : List Char) : Option NumberParts :=
  match scanNumber text with
  | some (p, []) => some p
  | _ => none

section
variable {text rest digits : List Char} {p : NumberParts}

/-- The digits at the front of a text. -/
theorem allDigits_takeWhile (text : List Char) : AllDigits (text.takeWhile Char.isDigit) :=
  fun _ hc => List.mem_takeWhile_imp hc

/-- A run of digits ends where its continuation has none. -/
theorem span_digits (hdigits : AllDigits digits)
    (hrest : ∀ c, rest.head? = some c → c.isDigit = false) :
    (digits ++ rest).takeWhile Char.isDigit = digits ∧
      (digits ++ rest).dropWhile Char.isDigit = rest := by
  induction digits with
  | nil =>
      cases rest with
      | nil => exact ⟨rfl, rfl⟩
      | cons c rest =>
          have hc := hrest c rfl
          rw [List.nil_append, List.takeWhile_cons, List.dropWhile_cons, hc]
          exact ⟨rfl, rfl⟩
  | cons c digits ih =>
      have hc := hdigits c List.mem_cons_self
      obtain ⟨htake, hdrop⟩ := ih fun d hd => hdigits d (List.mem_cons_of_mem _ hd)
      rw [List.cons_append, List.takeWhile_cons, List.dropWhile_cons, hc, if_pos rfl, if_pos rfl,
        htake, hdrop]
      exact ⟨rfl, rfl⟩

/-- What the scanner takes it has read: the sign, -/
theorem scanSign_spec (text : List Char) :
    (if (scanSign text).1 then ['-'] else []) ++ (scanSign text).2 = text := by
  unfold scanSign
  split
  · rfl
  · rfl

/-- the integer, -/
theorem scanInteger_spec {integer : List Char} (h : scanInteger text = some (integer, rest)) :
    integer ++ rest = text ∧ integer ≠ [] ∧ AllDigits integer ∧
      (integer.head? = some '0' → integer = ['0']) := by
  cases text with
  | nil => cases h
  | cons c text =>
      unfold scanInteger at h
      dsimp only at h
      split_ifs at h with hzero hdigit
      · cases h
        refine ⟨by rw [hzero]; rfl, List.cons_ne_nil _ _, ?_, fun _ => rfl⟩
        intro d hd
        rw [List.mem_singleton.mp hd]
        rfl
      · cases h
        refine ⟨?_, List.cons_ne_nil _ _, ?_, ?_⟩
        · rw [List.cons_append, List.takeWhile_append_dropWhile]
        · intro d hd
          rcases List.mem_cons.mp hd with rfl | hd
          · exact hdigit
          · exact allDigits_takeWhile _ d hd
        · intro hhead
          exact absurd (Option.some.inj hhead) hzero

/-- the fraction, -/
theorem scanFraction_spec (text : List Char) :
    ((scanFraction text).1.map ('.' :: ·)).getD [] ++ (scanFraction text).2 = text ∧
      ∀ digits, (scanFraction text).1 = some digits → digits ≠ [] ∧ AllDigits digits := by
  unfold scanFraction
  split
  · rename_i rest
    split_ifs with hempty
    · exact ⟨rfl, nofun⟩
    · refine ⟨?_, ?_⟩
      · change '.' :: (_ ++ _) = _
        rw [List.takeWhile_append_dropWhile]
      · intro digits hdigits
        rw [← Option.some.inj hdigits]
        exact ⟨hempty, allDigits_takeWhile _⟩
  · exact ⟨rfl, nofun⟩

/-- the sign of the exponent -/
theorem scanExponentSign_spec (text : List Char) :
    (scanExponentSign text).1.toList ++ (scanExponentSign text).2 = text ∧
      ∀ c ∈ (scanExponentSign text).1, c = '+' ∨ c = '-' := by
  unfold scanExponentSign
  split
  · exact ⟨rfl, fun c hc => .inl (Option.some.inj hc).symm⟩
  · exact ⟨rfl, fun c hc => .inr (Option.some.inj hc).symm⟩
  · exact ⟨rfl, nofun⟩

/-- and the exponent. -/
theorem scanExponent_spec (text : List Char) :
    ((scanExponent text).1.map Exponent.text).getD [] ++ (scanExponent text).2 = text ∧
      ∀ e, (scanExponent text).1 = some e → e.WellFormed := by
  cases text with
  | nil => exact ⟨rfl, nofun⟩
  | cons c rest =>
      obtain ⟨hsplit, hsign⟩ := scanExponentSign_spec rest
      unfold scanExponent
      dsimp only
      by_cases hletter : c = 'e' ∨ c = 'E'
      · rw [if_pos hletter]
        by_cases hempty : (scanExponentSign rest).2.takeWhile Char.isDigit = []
        · rw [if_pos hempty]
          exact ⟨rfl, nofun⟩
        · rw [if_neg hempty]
          refine ⟨?_, ?_⟩
          · change (c :: (_ ++ _)) ++ _ = _
            rw [List.cons_append, List.append_assoc, List.takeWhile_append_dropWhile, hsplit]
          · intro e he
            rw [← Option.some.inj he]
            exact ⟨hletter, hsign, hempty, allDigits_takeWhile _⟩
      · rw [if_neg hletter]
        exact ⟨rfl, nofun⟩

/-- **Sound.**  What is read is a well-formed token at the front of the text. -/
theorem scanNumber_spec (h : scanNumber text = some (p, rest)) :
    p.WellFormed ∧ p.text ++ rest = text := by
  unfold scanNumber at h
  dsimp only at h
  rw [Option.map_eq_some_iff] at h
  obtain ⟨⟨integer, afterInteger⟩, hinteger, heq⟩ := h
  obtain ⟨happend, hne, hdigits, hleading⟩ := scanInteger_spec hinteger
  obtain ⟨hfractionText, hfraction⟩ := scanFraction_spec afterInteger
  obtain ⟨hexponentText, hexponent⟩ := scanExponent_spec (scanFraction afterInteger).2
  have hsign := scanSign_spec text
  obtain ⟨rfl, rfl⟩ := Prod.mk.inj heq
  refine ⟨⟨hne, hdigits, hleading, hfraction, hexponent⟩, ?_⟩
  calc ((if (scanSign text).1 then ['-'] else []) ++ (integer ++
        (((scanFraction afterInteger).1.map ('.' :: ·)).getD [] ++
          ((scanExponent (scanFraction afterInteger).2).1.map Exponent.text).getD []))) ++
        (scanExponent (scanFraction afterInteger).2).2
      = (if (scanSign text).1 then ['-'] else []) ++ (integer ++
        (((scanFraction afterInteger).1.map ('.' :: ·)).getD [] ++
          (((scanExponent (scanFraction afterInteger).2).1.map Exponent.text).getD [] ++
            (scanExponent (scanFraction afterInteger).2).2))) := by
        simp only [List.append_assoc]
    _ = text := by rw [hexponentText, hfractionText, happend, hsign]

/-- The characters of a token. -/
theorem NumberParts.WellFormed.mem_text (h : p.WellFormed) {c : Char} (hc : c ∈ p.text) :
    c.isDigit = true ∨ c ∈ ['-', '+', '.', 'e', 'E'] := by
  unfold NumberParts.text at hc
  rcases List.mem_append.mp hc with hc | hc
  · unfold NumberParts.signText at hc
    split_ifs at hc
    · rw [List.mem_singleton.mp hc]
      exact .inr (by decide)
    · cases hc
  rcases List.mem_append.mp hc with hc | hc
  · exact .inl (h.digits c hc)
  rcases List.mem_append.mp hc with hc | hc
  · unfold NumberParts.fractionText at hc
    cases hfraction : p.fraction with
    | none =>
        rw [hfraction] at hc
        cases hc
    | some digits =>
        rw [hfraction] at hc
        rcases List.mem_cons.mp hc with rfl | hc
        · exact .inr (by decide)
        · exact .inl ((h.fraction digits hfraction).2 c hc)
  · unfold NumberParts.exponentText at hc
    cases hexponent : p.exponent with
    | none =>
        rw [hexponent] at hc
        cases hc
    | some e =>
        rw [hexponent] at hc
        have he := h.exponent e hexponent
        rcases List.mem_cons.mp hc with rfl | hc
        · rcases he.letter with hletter | hletter
          · exact .inr (by rw [hletter]; decide)
          · exact .inr (by rw [hletter]; decide)
        rcases List.mem_append.mp hc with hc | hc
        · rcases he.sign c (Option.mem_toList.mp hc) with rfl | rfl
          · exact .inr (by decide)
          · exact .inr (by decide)
        · exact .inl (he.digits c hc)

/-- A number is written in characters. -/
theorem NumberParts.WellFormed.text_ne_nil (h : p.WellFormed) : p.text ≠ [] := by
  intro hnil
  unfold NumberParts.text at hnil
  exact h.nonempty (List.append_eq_nil_iff.mp (List.append_eq_nil_iff.mp hnil).2).1

/-- A well-formed number is scanned: its integer, -/
theorem scanInteger_of_wellFormed (h : p.WellFormed)
    (hrest : ∀ c, rest.head? = some c → c.isDigit = false) :
    scanInteger (p.integer ++ rest) = some (p.integer, rest) := by
  cases hshape : p.integer with
  | nil => exact absurd hshape h.nonempty
  | cons c digits =>
      have hc := h.digits c (hshape ▸ List.mem_cons_self)
      have hdigits : AllDigits digits :=
        fun d hd => h.digits d (hshape ▸ List.mem_cons_of_mem _ hd)
      rw [List.cons_append]
      unfold scanInteger
      dsimp only
      by_cases hzero : c = '0'
      · have honly := h.leading (by rw [hshape, hzero]; rfl)
        rw [hshape] at honly
        rw [if_pos hzero, hzero, (List.cons.inj honly).2]
        rfl
      · obtain ⟨htake, hdrop⟩ := span_digits hdigits hrest
        rw [if_neg hzero, if_pos hc, htake, hdrop]

/-- which ends before the exponent, -/
theorem head_exponentText (h : p.WellFormed) {c : Char} (hc : p.exponentText.head? = some c) :
    c = 'e' ∨ c = 'E' := by
  unfold NumberParts.exponentText at hc
  cases hexponent : p.exponent with
  | none =>
      rw [hexponent] at hc
      cases hc
  | some e =>
      rw [hexponent] at hc
      rw [← Option.some.inj hc]
      exact (h.exponent e hexponent).letter

/-- its fraction, -/
theorem scanFraction_of_wellFormed (h : p.WellFormed) :
    scanFraction (p.fractionText ++ p.exponentText) = (p.fraction, p.exponentText) := by
  unfold NumberParts.fractionText
  cases hfraction : p.fraction with
  | none =>
      change scanFraction p.exponentText = _
      unfold scanFraction
      split
      · rename_i rest heq
        have hletter := head_exponentText h (c := '.') (by rw [heq]; rfl)
        exact absurd hletter (by decide)
      · rfl
  | some digits =>
      obtain ⟨hne, hdigits⟩ := h.fraction digits hfraction
      have hrest : ∀ c, p.exponentText.head? = some c → c.isDigit = false := by
        intro c hc
        rcases head_exponentText h hc with rfl | rfl
        · rfl
        · rfl
      obtain ⟨htake, hdrop⟩ := span_digits hdigits hrest
      change (if (digits ++ p.exponentText).takeWhile Char.isDigit = [] then
          (none, '.' :: (digits ++ p.exponentText))
        else (some ((digits ++ p.exponentText).takeWhile Char.isDigit),
          (digits ++ p.exponentText).dropWhile Char.isDigit)) = _
      rw [htake, if_neg hne, hdrop]

/-- its exponent -/
theorem scanExponent_of_wellFormed (h : p.WellFormed) :
    scanExponent p.exponentText = (p.exponent, []) := by
  unfold NumberParts.exponentText
  cases hexponent : p.exponent with
  | none => rfl
  | some e =>
      obtain ⟨hletter, hsign, hne, hdigits⟩ := h.exponent e hexponent
      obtain ⟨htake, hdrop⟩ := @span_digits [] _ hdigits nofun
      rw [List.append_nil] at htake hdrop
      have hscan : scanExponentSign (e.sign.toList ++ e.digits) = (e.sign, e.digits) := by
        cases hcase : e.sign with
        | none =>
            cases hshape : e.digits with
            | nil => exact absurd hshape hne
            | cons c rest =>
                have hc := hdigits c (hshape ▸ List.mem_cons_self)
                change scanExponentSign (c :: rest) = _
                unfold scanExponentSign
                split
                · rename_i heq
                  rw [(List.cons.inj heq).1] at hc
                  exact absurd hc (by decide)
                · rename_i heq
                  rw [(List.cons.inj heq).1] at hc
                  exact absurd hc (by decide)
                · rfl
        | some c =>
            rcases hsign c hcase with rfl | rfl
            · rfl
            · rfl
      change scanExponent (e.letter :: (e.sign.toList ++ e.digits)) = _
      unfold scanExponent
      dsimp only
      rw [if_pos hletter, hscan]
      rw [htake, if_neg hne, hdrop]

/-- and its sign. -/
theorem scanSign_of_wellFormed (h : p.WellFormed) :
    scanSign p.text = (p.negative, p.integer ++ (p.fractionText ++ p.exponentText)) := by
  unfold NumberParts.text NumberParts.signText
  cases p.negative with
  | true => rfl
  | false =>
      cases hshape : p.integer with
      | nil => exact absurd hshape h.nonempty
      | cons c digits =>
          have hc := h.digits c (hshape ▸ List.mem_cons_self)
          change scanSign (c :: (digits ++ _)) = _
          unfold scanSign
          split
          · rename_i heq
            rw [(List.cons.inj heq).1] at hc
            exact absurd hc (by decide)
          · rfl

/-- **Complete.**  A well-formed token is read whole. -/
theorem scanNumber_of_wellFormed (h : p.WellFormed) : scanNumber p.text = some (p, []) := by
  have hrest : ∀ c, (p.fractionText ++ p.exponentText).head? = some c → c.isDigit = false := by
    intro c hc
    unfold NumberParts.fractionText at hc
    cases hfraction : p.fraction with
    | none =>
        rw [hfraction] at hc
        rcases head_exponentText h hc with rfl | rfl
        · rfl
        · rfl
    | some digits =>
        rw [hfraction] at hc
        rw [← Option.some.inj hc]
        rfl
  unfold scanNumber
  rw [scanSign_of_wellFormed h]
  dsimp only
  rw [scanInteger_of_wellFormed h hrest, Option.map_some]
  dsimp only
  rw [scanFraction_of_wellFormed h]
  dsimp only
  rw [scanExponent_of_wellFormed h]

/-- **The tokens** are exactly the texts of well-formed parts. -/
theorem matchNumber_eq_some_iff : matchNumber text = some p ↔ p.WellFormed ∧ p.text = text := by
  unfold matchNumber
  constructor
  · intro h
    split at h
    · rename_i q heq
      obtain rfl := Option.some.inj h
      obtain ⟨hform, htext⟩ := scanNumber_spec heq
      rw [List.append_nil] at htext
      exact ⟨hform, htext⟩
    · cases h
  · rintro ⟨hform, rfl⟩
    rw [scanNumber_of_wellFormed hform]

/-- The number that a text denotes, if it is a number token. -/
def denotes (text : List Char) : Option ℚ := (matchNumber text).map NumberParts.value

/-- **A well-formed text denotes the value of its parts.** -/
theorem denotes_text (h : p.WellFormed) : denotes p.text = some p.value := by
  unfold denotes
  rw [matchNumber_eq_some_iff.mpr ⟨h, rfl⟩]
  rfl

end

end Decimals
