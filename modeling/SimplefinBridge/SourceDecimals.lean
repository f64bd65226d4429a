import SimplefinBridge.InvestmentSchema
import SimplefinBridge.JsValues
import SimplefinBridge.Library.Decimals

/-!
# Decimals of the Hapoalim source

Quantities and amounts arrive as number tokens, some with an exponent.
`sourceDecimal` moves the decimal point in the text and never computes with a
binary number: what it answers is the canonical decimal of the token's value,
and it refuses exactly the tokens that are no JSON numbers or need more digits
than it allows (`sourceDecimal_exact`).  `money` is the same at two decimals.
-/

namespace SimplefinBridge

open Decimals

/-- `[whole, fraction = ''] = text.split('.')` -/
def splitPoint (text : List Char) : List Char × List Char :=
  match text.splitOn '.' with
  | whole :: fraction :: _ => (whole, fraction)
  | [whole] => (whole, [])
  | [] => ([], [])

/-- The digits of a token, with the point moved by the exponent. -/
def expanded (integer digits : List Char) (exponent : Int) : List Char :=
  let point := (integer.length : Int) + exponent
  if point ≤ 0 then
    '0' :: '.' :: (List.replicate (-point).toNat '0' ++ digits)
  else if (digits.length : Int) ≤ point then
    digits ++ List.replicate (point.toNat - digits.length) '0'
  else digits.take point.toNat ++ '.' :: digits.drop point.toNat

/-- `sourceDecimal` of a text. -/
def sourceDecimalText (raw : List Char) : Except InvestmentErrorCode (List Char) :=
  match matchNumber raw with
  | none => .error .INVALID_RESPONSE
  | some parts =>
      let exponent := parts.exponentValue
      if 30 < |exponent| then .error .INVALID_RESPONSE
      else
        let (whole, fraction) := splitPoint
          (expanded parts.integer (parts.integer ++ parts.fractionDigits) exponent)
        let canonicalWhole := dropLeadingZeros whole
        let canonicalFraction := dropTrailingZeros fraction
        if 12 < canonicalFraction.length ∨ 30 < canonicalWhole.length then
          .error .INVALID_RESPONSE
        else
          let canonical := canonicalWhole ++
            if canonicalFraction = [] then [] else '.' :: canonicalFraction
          .ok (if parts.negative ∧ canonical ≠ ['0'] then '-' :: canonical else canonical)

section
variable (host : Host)

/-- Preserve source decimal digits, without rounding positions; a finite number
is taken as `String(value)`. -/
def sourceDecimal (value : JsValue) (nullable : Bool := false) :
    Except InvestmentErrorCode (Option String) :=
  match value with
  | .null => if nullable then .ok none else .error .INVALID_RESPONSE
  | .string raw => (sourceDecimalText raw.toList).map fun text => some (String.ofList text)
  | .number (some x) => (sourceDecimalText (host.numberToString x).toList).map fun text =>
      some (String.ofList text)
  | _ => .error .INVALID_RESPONSE

/-- `padEnd(2, '0')` -/
def padTwo (fraction : List Char) : List Char :=
  fraction ++ List.replicate (2 - fraction.length) '0'

/-- `money(value)` -/
def money (value : JsValue) : Except InvestmentErrorCode (Option String) := do
  match ← sourceDecimal host value true with
  | none => return none
  | some decimal =>
      let (whole, fraction) := splitPoint decimal.toList
      if 2 < fraction.length then .error .INVALID_RESPONSE
      else return some (String.ofList (whole ++ '.' :: padTwo fraction))

end

/-! ## The expanded digits -/

section
variable {parts : NumberParts} {raw text : List Char}

/-- Digits have no point. -/
theorem not_mem_of_allDigits {digits : List Char} (h : AllDigits digits) : '.' ∉ digits :=
  fun hmem => absurd (h _ hmem) (by decide)

/-- A number is split at its point, -/
theorem splitPoint_point {whole fraction : List Char} (hwhole : '.' ∉ whole)
    (hfraction : '.' ∉ fraction) : splitPoint (whole ++ '.' :: fraction) = (whole, fraction) := by
  unfold splitPoint
  rw [List.splitOn_append_cons_self_of_not_mem hwhole, List.splitOn_eq_singleton hfraction]

/-- if it has one. -/
theorem splitPoint_whole {whole : List Char} (hwhole : '.' ∉ whole) :
    splitPoint whole = (whole, []) := by
  unfold splitPoint
  rw [List.splitOn_eq_singleton hwhole]

/-- Behind the point there are digits. -/
theorem NumberParts.WellFormed.fractionDigits (h : parts.WellFormed) :
    AllDigits parts.fractionDigits := by
  unfold NumberParts.fractionDigits
  cases hfraction : parts.fraction with
  | none => exact fun c hc => absurd hc List.not_mem_nil
  | some digits => exact (h.fraction digits hfraction).2

/-- **Moving the point** keeps the value: the two parts of the expanded text
are digits, and denote the token's number without its sign. -/
theorem expanded_spec (h : parts.WellFormed) :
    ∃ whole fraction,
      splitPoint (expanded parts.integer (parts.integer ++ parts.fractionDigits)
        parts.exponentValue) = (whole, fraction) ∧
      AllDigits whole ∧ AllDigits fraction ∧ whole ≠ [] ∧
      fixedValue whole fraction = digitsValue (parts.integer ++ parts.fractionDigits) *
        (10 : ℚ) ^ (parts.exponentValue - (parts.fractionDigits.length : Int)) := by
  have hdigits : AllDigits (parts.integer ++ parts.fractionDigits) :=
    h.digits.append (NumberParts.WellFormed.fractionDigits h)
  have hpositive : 0 < parts.integer.length := List.length_pos_iff.mpr h.nonempty
  have hlength : (parts.integer ++ parts.fractionDigits).length =
      parts.integer.length + parts.fractionDigits.length := List.length_append
  have hten : (10 : ℚ) ≠ 0 := by norm_num
  have hone : AllDigits ['0'] := by
    intro c hc
    rw [List.mem_singleton.mp hc]
    rfl
  generalize parts.exponentValue = exponent
  generalize parts.fractionDigits.length = after at hlength ⊢
  unfold expanded
  generalize parts.integer ++ parts.fractionDigits = digits at hdigits hlength ⊢
  generalize parts.integer.length = before at hpositive hlength ⊢
  dsimp only
  by_cases hsmall : (before : Int) + exponent ≤ 0
  · rw [if_pos hsmall]
    obtain ⟨zeros, hzeros⟩ : ∃ zeros : Nat, -((before : Int) + exponent) = zeros :=
      ⟨_, (Int.toNat_of_nonneg (by omega)).symm⟩
    have hfraction := (allDigits_zeros zeros).append hdigits
    rw [hzeros, Int.toNat_natCast]
    refine ⟨['0'], _, splitPoint_point (not_mem_of_allDigits hone)
      (not_mem_of_allDigits hfraction), hone, hfraction, List.cons_ne_nil _ _, ?_⟩
    have hexponent : exponent - (after : Int) = -((zeros + digits.length : ℕ) : Int) := by
      push_cast
      omega
    unfold fixedValue
    rw [digitsValue_append, digitsValue_append, digitsValue_zeros, List.length_append,
      List.length_replicate, hexponent, zpow_neg, zpow_natCast]
    have hzero : digitsValue ['0'] = 0 := rfl
    rw [hzero, zero_mul, zero_mul, zero_add, zero_add, div_eq_mul_inv]
  · rw [if_neg hsmall]
    obtain ⟨point, hpoint⟩ : ∃ point : Nat, (before : Int) + exponent = point :=
      ⟨_, (Int.toNat_of_nonneg (by omega)).symm⟩
    rw [hpoint, Int.toNat_natCast]
    by_cases hlong : (digits.length : Int) ≤ point
    · rw [if_pos hlong]
      have hwhole := hdigits.append (allDigits_zeros (point - digits.length))
      refine ⟨_, [], splitPoint_whole (not_mem_of_allDigits hwhole), hwhole,
        fun c hc => absurd hc List.not_mem_nil, ?_, ?_⟩
      · intro hnil
        have hlengths := congrArg List.length (List.append_eq_nil_iff.mp hnil).1
        rw [hlength, List.length_nil] at hlengths
        omega
      · have hexponent : exponent - (after : Int) = ((point - digits.length : ℕ) : Int) := by
          omega
        unfold fixedValue
        rw [List.append_nil, digitsValue_append, digitsValue_zeros, List.length_replicate,
          List.length_nil, pow_zero, hexponent, zpow_natCast]
        push_cast
        rw [div_one, add_zero]
    · rw [if_neg hlong]
      have htake : AllDigits (digits.take point) := hdigits.sublist (List.take_sublist _ _)
      have hdrop : AllDigits (digits.drop point) := hdigits.sublist (List.drop_sublist _ _)
      refine ⟨_, _, splitPoint_point (not_mem_of_allDigits htake)
        (not_mem_of_allDigits hdrop), htake, hdrop, ?_, ?_⟩
      · intro hnil
        have hlengths := congrArg List.length hnil
        rw [List.length_take, List.length_nil] at hlengths
        omega
      · have hexponent : exponent - (after : Int) = -((digits.length - point : ℕ) : Int) := by
          omega
        unfold fixedValue
        rw [List.take_append_drop, List.length_drop, hexponent, zpow_neg, zpow_natCast,
          div_eq_mul_inv]

end

open Decimals

/-! ## Canonical texts -/

/-- The text of a canonical decimal. -/
def decimalBody (whole fraction : List Char) : List Char :=
  whole ++ if fraction = [] then [] else '.' :: fraction

/-- The canonical text of a number. -/
def decimalText (negative : Bool) (whole fraction : List Char) : List Char :=
  if negative ∧ decimalBody whole fraction ≠ ['0'] then '-' :: decimalBody whole fraction
  else decimalBody whole fraction

/-- The parts of a canonical decimal. -/
def decimalParts (negative : Bool) (whole fraction : List Char) : NumberParts where
  negative := negative && decide (decimalBody whole fraction ≠ ['0'])
  integer := whole
  fraction := if fraction = [] then none else some fraction
  exponent := none

section
variable {negative : Bool} {whole fraction : List Char}

variable (negative) in
/-- It is a number of the grammar. -/
theorem decimalParts_wellFormed (h : Canonical whole fraction) :
    (decimalParts negative whole fraction).WellFormed := by
  refine ⟨h.nonempty, h.whole_digits, h.leading, ?_, nofun⟩
  intro digits hdigits
  unfold decimalParts at hdigits
  dsimp only at hdigits
  split_ifs at hdigits with hempty
  rw [← Option.some.inj hdigits]
  exact ⟨hempty, h.fraction_digits⟩

/-- The text is its sign and its body. -/
theorem decimalText_eq : decimalText negative whole fraction =
    (decimalParts negative whole fraction).signText ++ decimalBody whole fraction := by
  unfold decimalText decimalParts NumberParts.signText
  dsimp only
  by_cases hsign : negative = true ∧ decimalBody whole fraction ≠ ['0']
  · rw [if_pos hsign, if_pos (by rw [Bool.and_eq_true, decide_eq_true_eq]; exact hsign)]
    rfl
  · rw [if_neg hsign, if_neg (by rw [Bool.and_eq_true, decide_eq_true_eq]; exact hsign)]
    rfl

/-- It is what its parts write. -/
theorem decimalParts_text :
    (decimalParts negative whole fraction).text = decimalText negative whole fraction := by
  have hbody : whole ++ ((decimalParts negative whole fraction).fractionText ++ []) =
      decimalBody whole fraction := by
    unfold decimalBody decimalParts NumberParts.fractionText
    dsimp only
    by_cases hempty : fraction = []
    · rw [if_pos hempty, if_pos hempty]
      rfl
    · rw [if_neg hempty, if_neg hempty]
      simp
  change (decimalParts negative whole fraction).signText ++
    (whole ++ ((decimalParts negative whole fraction).fractionText ++ [])) = _
  rw [hbody, decimalText_eq]

/-- Only zero is written as zero. -/
theorem decimalBody_eq_zero_iff (h : Canonical whole fraction) :
    decimalBody whole fraction = ['0'] ↔ fixedValue whole fraction = 0 := by
  rw [h.value_eq_zero_iff]
  unfold decimalBody
  constructor
  · intro hbody
    by_cases hempty : fraction = []
    · rw [if_pos hempty, List.append_nil] at hbody
      exact ⟨hbody, hempty⟩
    · rw [if_neg hempty] at hbody
      have hpoint : '.' ∈ ['0'] := by
        rw [← hbody]
        exact List.mem_append_right _ List.mem_cons_self
      exact absurd hpoint (by decide)
  · rintro ⟨rfl, rfl⟩
    rfl

/-- Zero has no sign. -/
theorem decimalParts_sign (h : Canonical whole fraction) :
    (if (decimalParts negative whole fraction).negative then (-1 : ℚ) else 1) *
        fixedValue whole fraction =
      (if negative then -1 else 1) * fixedValue whole fraction := by
  have hsign : (decimalParts negative whole fraction).negative =
      (negative && decide (decimalBody whole fraction ≠ ['0'])) := rfl
  rw [hsign]
  by_cases hzero : fixedValue whole fraction = 0
  · rw [hzero, mul_zero, mul_zero]
  · have hbody : decide (decimalBody whole fraction ≠ ['0']) = true :=
      decide_eq_true fun heq => hzero ((decimalBody_eq_zero_iff h).mp heq)
    rw [hbody, Bool.and_true]

/-- The value of the text. -/
theorem decimalParts_value (h : Canonical whole fraction) :
    (decimalParts negative whole fraction).value =
      (if negative then -1 else 1) * fixedValue whole fraction := by
  have hdigits : (decimalParts negative whole fraction).fractionDigits = fraction := by
    unfold decimalParts NumberParts.fractionDigits
    dsimp only
    by_cases hempty : fraction = []
    · rw [if_pos hempty, hempty]
      rfl
    · rw [if_neg hempty]
      rfl
  have hscale : (digitsValue (whole ++ fraction) : ℚ) * (10 : ℚ) ^ (0 - (fraction.length : Int)) =
      fixedValue whole fraction := by
    unfold fixedValue
    rw [zero_sub, zpow_neg, zpow_natCast, div_eq_mul_inv]
  have hexponent : (decimalParts negative whole fraction).exponentValue = 0 := rfl
  unfold NumberParts.value
  rw [hdigits, hexponent]
  change _ * ((digitsValue (whole ++ fraction) : ℚ) * _) = _
  rw [hscale]
  exact decimalParts_sign h

/-- It denotes the number. -/
theorem denotes_decimalText (h : Canonical whole fraction) :
    denotes (decimalText negative whole fraction) =
      some ((if negative then -1 else 1) * fixedValue whole fraction) := by
  rw [← decimalParts_text, denotes_text (decimalParts_wellFormed negative h), decimalParts_value h]

/-- **Canonical.**  Two texts of one value are the same. -/
theorem decimalText_inj {negative' : Bool} {whole' fraction' : List Char}
    (h : Canonical whole fraction) (h' : Canonical whole' fraction')
    (hvalue : (if negative then -1 else 1) * fixedValue whole fraction =
      (if negative' then -1 else 1) * fixedValue whole' fraction') :
    decimalText negative whole fraction = decimalText negative' whole' fraction' := by
  have hnonneg := fixedValue_nonneg whole fraction
  have hnonneg' := fixedValue_nonneg whole' fraction'
  have habs : fixedValue whole fraction = fixedValue whole' fraction' := by
    cases negative with
    | true => cases negative' with
      | true => simpa using hvalue
      | false =>
          simp only [if_true, Bool.false_eq_true, if_false] at hvalue
          linarith
    | false => cases negative' with
      | true =>
          simp only [if_true, Bool.false_eq_true, if_false] at hvalue
          linarith
      | false => simpa using hvalue
  obtain ⟨rfl, rfl⟩ := h.unique h' habs
  unfold decimalText
  by_cases hzero : decimalBody whole fraction = ['0']
  · rw [if_neg (fun hsign => hsign.2 hzero), if_neg (fun hsign => hsign.2 hzero)]
  · have hpositive : fixedValue whole fraction ≠ 0 :=
      fun heq => hzero ((decimalBody_eq_zero_iff h).mpr heq)
    have hsame : negative = negative' := by
      rw [mul_left_inj' hpositive] at hvalue
      cases negative with
      | true => cases negative' with
        | true => rfl
        | false => norm_num at hvalue
      | false => cases negative' with
        | true => norm_num at hvalue
        | false => rfl
    rw [hsame]

end

/-! ## What the text of a token becomes -/

section
variable {parts : NumberParts} {raw : List Char}

/-- **A token** becomes the canonical text of its value, or is refused for its
exponent or the digits that the value needs. -/
theorem sourceDecimalText_of_match (h : matchNumber raw = some parts) :
    ∃ whole fraction, Canonical whole fraction ∧
      parts.value = (if parts.negative then -1 else 1) * fixedValue whole fraction ∧
      sourceDecimalText raw =
        if 30 < |parts.exponentValue| ∨ 12 < fraction.length ∨ 30 < whole.length then
          .error .INVALID_RESPONSE
        else .ok (decimalText parts.negative whole fraction) := by
  obtain ⟨hform, -⟩ := matchNumber_eq_some_iff.mp h
  obtain ⟨whole, fraction, hsplit, hwhole, hfraction, hne, hvalue⟩ := expanded_spec hform
  refine ⟨dropLeadingZeros whole, dropTrailingZeros fraction,
    canonical_drop hwhole hfraction hne, ?_, ?_⟩
  · rw [fixedValue_drop, hvalue]
    rfl
  · unfold sourceDecimalText
    rw [h]
    dsimp only
    rw [hsplit]
    by_cases hexponent : 30 < |parts.exponentValue|
    · rw [if_pos hexponent, if_pos (.inl hexponent)]
    · rw [if_neg hexponent]
      dsimp only
      by_cases hdigits : 12 < (dropTrailingZeros fraction).length ∨
          30 < (dropLeadingZeros whole).length
      · rw [if_pos hdigits, if_pos (.inr hdigits)]
      · rw [if_neg hdigits, if_neg (not_or.mpr ⟨hexponent, hdigits⟩)]
        rfl

/-- The value needs more digits than are allowed. -/
def NeedsMoreDigits (value : ℚ) : Prop := (¬ ∃ k : Int, value * 10 ^ 12 = k) ∨ 10 ^ 30 ≤ |value|

/-- A nonnegative number with a sign is a whole number when it is. -/
theorem int_iff_of_sign {value : ℚ} {negative : Bool} (hvalue : 0 ≤ value) :
    (∃ k : Int, (if negative then -1 else 1) * value = k) ↔ ∃ k : Nat, value = k := by
  constructor
  · rintro ⟨k, hk⟩
    have habs : value = |k| := by
      cases negative with
      | true =>
          rw [if_pos rfl] at hk
          rw [← abs_of_nonneg hvalue, ← abs_neg value]
          have hneg : -value = k := by linarith
          rw [hneg, Int.cast_abs]
      | false =>
          rw [if_neg Bool.false_ne_true, one_mul] at hk
          rw [← abs_of_nonneg hvalue, hk, Int.cast_abs]
    refine ⟨k.natAbs, ?_⟩
    rw [habs, Int.abs_eq_natAbs]
    rfl
  · rintro ⟨k, hk⟩
    cases negative with
    | true => exact ⟨-k, by rw [if_pos rfl, hk]; push_cast; ring⟩
    | false => exact ⟨k, by rw [if_neg Bool.false_ne_true, hk]; push_cast; ring⟩

/-- A number needs more digits than there may be. -/
theorem needsMoreDigits_iff {whole fraction : List Char} (h : Canonical whole fraction)
    (negative : Bool) :
    NeedsMoreDigits ((if negative then -1 else 1) * fixedValue whole fraction) ↔
      12 < fraction.length ∨ 30 < whole.length := by
  have hnonneg := fixedValue_nonneg whole fraction
  have hscaled : 0 ≤ fixedValue whole fraction * 10 ^ 12 := by positivity
  have habs : |(if negative then (-1 : ℚ) else 1) * fixedValue whole fraction| =
      fixedValue whole fraction := by
    cases negative with
    | true => rw [if_pos rfl, neg_one_mul, abs_neg, abs_of_nonneg hnonneg]
    | false => rw [if_neg Bool.false_ne_true, one_mul, abs_of_nonneg hnonneg]
  have hlarge : 10 ^ 30 ≤ fixedValue whole fraction ↔ 30 < whole.length := by
    rw [← not_lt, ← h.length_whole_le_iff (by decide), not_le]
  unfold NeedsMoreDigits
  rw [habs, mul_assoc, int_iff_of_sign hscaled, ← h.length_fraction_le_iff 12, not_le, hlarge]

end

/-! ## Exact decimals -/

section
variable (host : Host) {raw text : String} {nullable : Bool}

/-- A text is read as it is. -/
theorem sourceDecimal_string :
    sourceDecimal host (.string raw) nullable =
      (sourceDecimalText raw.toList).map fun text => some (String.ofList text) := rfl

/-- What is read of a text. -/
theorem sourceDecimal_text_ok :
    sourceDecimal host (.string raw) nullable = .ok (some text) ↔
      sourceDecimalText raw.toList = .ok text.toList := by
  rw [sourceDecimal_string]
  cases hresult : sourceDecimalText raw.toList with
  | error e => exact ⟨nofun, nofun⟩
  | ok chars =>
      constructor
      · intro h
        have htext := Option.some.inj (Except.ok.inj h)
        rw [← htext, String.toList_ofList]
      · intro h
        change Except.ok (some (String.ofList chars)) = _
        rw [Except.ok.inj h, String.ofList_toList]

/-- An accepted token denotes a number that fits, and becomes its text. -/
theorem sourceDecimalText_ok {chars out : List Char} (h : sourceDecimalText chars = .ok out) :
    ∃ parts whole fraction, matchNumber chars = some parts ∧ Canonical whole fraction ∧
      parts.value = (if parts.negative then -1 else 1) * fixedValue whole fraction ∧
      out = decimalText parts.negative whole fraction := by
  cases hmatch : matchNumber chars with
  | none =>
      unfold sourceDecimalText at h
      rw [hmatch] at h
      cases h
  | some parts =>
      obtain ⟨whole, fraction, hcanonical, hvalue, heq⟩ := sourceDecimalText_of_match hmatch
      rw [heq] at h
      split_ifs at h
      exact ⟨parts, whole, fraction, rfl, hcanonical, hvalue, (Except.ok.inj h).symm⟩

/-- A refused token is no number, or its exponent or its digits are too many. -/
theorem sourceDecimalText_error_iff {chars : List Char} {e : InvestmentErrorCode} :
    sourceDecimalText chars = .error e ↔ e = .INVALID_RESPONSE ∧
      ∀ parts : NumberParts, parts.WellFormed → parts.text = chars →
        30 < |parts.exponentValue| ∨ NeedsMoreDigits parts.value := by
  cases hmatch : matchNumber chars with
  | none =>
      have hresult : sourceDecimalText chars = .error .INVALID_RESPONSE := by
        unfold sourceDecimalText
        rw [hmatch]
      rw [hresult]
      constructor
      · intro h
        refine ⟨(Except.error.inj h).symm, fun parts hform htext => ?_⟩
        rw [matchNumber_eq_some_iff.mpr ⟨hform, htext⟩] at hmatch
        cases hmatch
      · rintro ⟨rfl, -⟩
        rfl
  | some parts =>
      obtain ⟨whole, fraction, hcanonical, hvalue, heq⟩ := sourceDecimalText_of_match hmatch
      have hdigits := needsMoreDigits_iff hcanonical parts.negative
      rw [← hvalue] at hdigits
      have hunique : ∀ other : NumberParts, other.WellFormed → other.text = chars →
          other = parts := by
        intro other hform htext
        have hother := matchNumber_eq_some_iff.mpr ⟨hform, htext⟩
        exact Option.some.inj (hother.symm.trans hmatch)
      rw [heq]
      constructor
      · intro h
        split_ifs at h with hbad
        refine ⟨(Except.error.inj h).symm, fun other hform htext => ?_⟩
        rw [hunique other hform htext, hdigits]
        exact hbad
      · rintro ⟨rfl, hbad⟩
        obtain ⟨hform, htext⟩ := matchNumber_eq_some_iff.mp hmatch
        rw [if_pos]
        rw [← hdigits]
        exact hbad parts hform htext

/-- A canonical text is split at its point. -/
theorem splitPoint_decimalText (negative : Bool) {whole fraction : List Char}
    (h : Canonical whole fraction) :
    splitPoint (decimalText negative whole fraction) =
      ((decimalParts negative whole fraction).signText ++ whole, fraction) := by
  have hwhole : '.' ∉ (decimalParts negative whole fraction).signText ++ whole := by
    intro hmem
    rcases List.mem_append.mp hmem with hmem | hmem
    · unfold NumberParts.signText at hmem
      split_ifs at hmem
      · revert hmem
        decide
      · cases hmem
    · exact not_mem_of_allDigits h.whole_digits hmem
  rw [decimalText_eq]
  unfold decimalBody
  by_cases hempty : fraction = []
  · rw [if_pos hempty, List.append_nil, splitPoint_whole hwhole, hempty]
  · rw [if_neg hempty, ← List.append_assoc,
      splitPoint_point hwhole (not_mem_of_allDigits h.fraction_digits)]

/-- A short fraction is padded to two digits. -/
theorem length_padTwo {fraction : List Char} (h : fraction.length ≤ 2) :
    (padTwo fraction).length = 2 := by
  unfold padTwo
  rw [List.length_append, List.length_replicate]
  omega

/-- The parts of an amount. -/
def twoDecimals (negative : Bool) (whole fraction : List Char) : NumberParts :=
  { decimalParts negative whole fraction with fraction := some (padTwo fraction) }

/-- Two decimals write the same number. -/
theorem twoDecimals_value {negative : Bool} {whole fraction : List Char}
    (h : Canonical whole fraction) (hfine : fraction.length ≤ 2) :
    (twoDecimals negative whole fraction).value =
      (decimalParts negative whole fraction).value := by
  have hscale : (digitsValue (whole ++ padTwo fraction) : ℚ) * (10 : ℚ) ^ (0 - (2 : Int)) =
      fixedValue whole fraction := by
    obtain ⟨zeros, hzeros⟩ := Nat.exists_eq_add_of_le hfine
    have hpow : (10 : ℚ) ^ (0 - (2 : Int)) = 1 / (10 ^ fraction.length * 10 ^ zeros) := by
      rw [← pow_add, ← hzeros]
      norm_num
    have hpos : (10 : ℚ) ^ zeros ≠ 0 := by positivity
    have hcount : 2 - fraction.length = zeros := by omega
    unfold padTwo fixedValue
    rw [hpow, ← List.append_assoc, digitsValue_append, digitsValue_zeros, List.length_replicate,
      hcount]
    push_cast
    field_simp
    ring
  rw [decimalParts_value h]
  unfold NumberParts.value
  change (if (decimalParts negative whole fraction).negative then (-1 : ℚ) else 1) *
    ((digitsValue (whole ++ padTwo fraction) : ℚ) *
      (10 : ℚ) ^ (0 - ((padTwo fraction).length : Int))) = _
  rw [length_padTwo hfine]
  change _ * ((digitsValue (whole ++ padTwo fraction) : ℚ) * (10 : ℚ) ^ (0 - (2 : Int))) = _
  rw [hscale]
  exact decimalParts_sign h

/-- **Money.**  An accepted amount is the token's value with two decimals; a
token is refused when it is refused as a decimal or has a part of a hundredth. -/
theorem money_string (host : Host) (raw : String) :
    (∃ e, sourceDecimalText raw.toList = .error e ∧ money host (.string raw) = .error e) ∨
      ∃ parts : NumberParts, matchNumber raw.toList = some parts ∧
        (∃ out, sourceDecimalText raw.toList = .ok out) ∧
        ((∃ (text : String) (twoDecimals : NumberParts),
            money host (.string raw) = .ok (some text) ∧ twoDecimals.WellFormed ∧
            twoDecimals.text = text.toList ∧ twoDecimals.fractionDigits.length = 2 ∧
            twoDecimals.exponent = none ∧ twoDecimals.value = parts.value ∧
            ∃ k : Int, parts.value * 100 = k) ∨
          (money host (.string raw) = .error .INVALID_RESPONSE ∧
            ¬ ∃ k : Int, parts.value * 100 = k)) := by
  cases hresult : sourceDecimalText raw.toList with
  | error e =>
      refine .inl ⟨e, rfl, ?_⟩
      unfold money
      rw [sourceDecimal_string, hresult]
      rfl
  | ok out =>
      obtain ⟨parts, whole, fraction, hmatch, hcanonical, hvalue, rfl⟩ :=
        sourceDecimalText_ok hresult
      refine .inr ⟨parts, hmatch, ⟨_, rfl⟩, ?_⟩
      have hmoney : money host (.string raw) =
          if 2 < (splitPoint (decimalText parts.negative whole fraction)).2.length then
            .error .INVALID_RESPONSE
          else .ok (some (String.ofList
            ((splitPoint (decimalText parts.negative whole fraction)).1 ++
              '.' :: padTwo (splitPoint (decimalText parts.negative whole fraction)).2))) := by
        unfold money
        rw [sourceDecimal_string, hresult]
        change (if 2 < (splitPoint (String.ofList _).toList).2.length then _ else _) = _
        rw [String.toList_ofList]
        rfl
      have hsplit := splitPoint_decimalText parts.negative hcanonical
      have hhundredths : (∃ k : Int, parts.value * 100 = k) ↔ fraction.length ≤ 2 := by
        have hnonneg : 0 ≤ fixedValue whole fraction * 10 ^ 2 := by
          have := fixedValue_nonneg whole fraction
          positivity
        have hhundred : (100 : ℚ) = 10 ^ 2 := by norm_num
        rw [hvalue, hcanonical.length_fraction_le_iff 2, ← int_iff_of_sign hnonneg, mul_assoc,
          hhundred]
      rw [hsplit] at hmoney
      by_cases hfine : fraction.length ≤ 2
      · rw [if_neg (not_lt.mpr hfine)] at hmoney
        have hform := decimalParts_wellFormed parts.negative hcanonical
        refine .inl ⟨_, twoDecimals parts.negative whole fraction, hmoney, ?_, ?_, ?_, rfl, ?_,
          hhundredths.mpr hfine⟩
        · refine ⟨hform.nonempty, hform.digits, hform.leading, ?_, nofun⟩
          intro digits hdigits
          rw [← Option.some.inj hdigits]
          refine ⟨?_, hcanonical.fraction_digits.append (allDigits_zeros _)⟩
          intro hnil
          have hlength := congrArg List.length hnil
          rw [length_padTwo hfine] at hlength
          cases hlength
        · rw [String.toList_ofList]
          unfold NumberParts.text
          change _ ++ (whole ++ ('.' :: padTwo fraction ++ [])) = _
          rw [List.append_nil, ← List.append_assoc]
          rfl
        · exact length_padTwo hfine
        · rw [twoDecimals_value hcanonical hfine, decimalParts_value hcanonical, hvalue]
      · rw [if_pos (not_le.mp hfine)] at hmoney
        exact .inr ⟨hmoney, fun hk => hfine (hhundredths.mp hk)⟩

/-- A text is refused or read. -/
theorem sourceDecimal_string_cases (raw : String) (nullable : Bool) :
    (sourceDecimal host (.string raw) nullable = .error .INVALID_RESPONSE ∧
        sourceDecimalText raw.toList = .error .INVALID_RESPONSE) ∨
      ∃ text, sourceDecimal host (.string raw) nullable = .ok (some text) := by
  cases hresult : sourceDecimalText raw.toList with
  | error e =>
      obtain ⟨rfl, -⟩ := sourceDecimalText_error_iff.mp hresult
      refine .inl ⟨?_, rfl⟩
      rw [sourceDecimal_string, hresult]
      rfl
  | ok chars =>
      refine .inr ⟨String.ofList chars, ?_⟩
      rw [sourceDecimal_text_ok, hresult, String.toList_ofList]

/-- **Decimals are exact.**  The text of an accepted token denotes the token's
number; two accepted tokens of one number have one text; a token is refused
exactly when it is no number, when its exponent is beyond thirty, or when its
value needs more than 12 fraction digits or 30 integer digits; and an amount is
the token's number with two decimals, or is refused. -/
theorem sourceDecimal_exact (host : Host) :
    (∀ raw text nullable, sourceDecimal host (.string raw) nullable = .ok (some text) →
        ∃ value, denotes raw.toList = some value ∧ denotes text.toList = some value) ∧
      (∀ raw raw' text text' nullable nullable',
        sourceDecimal host (.string raw) nullable = .ok (some text) →
        sourceDecimal host (.string raw') nullable' = .ok (some text') →
        denotes raw.toList = denotes raw'.toList → text = text') ∧
      (∀ raw nullable,
        (sourceDecimal host (.string raw) nullable = .error .INVALID_RESPONSE ∨
          ∃ text, sourceDecimal host (.string raw) nullable = .ok (some text)) ∧
        (sourceDecimal host (.string raw) nullable = .error .INVALID_RESPONSE ↔
          ∀ parts : NumberParts, parts.WellFormed → parts.text = raw.toList →
            30 < |parts.exponentValue| ∨ NeedsMoreDigits parts.value)) ∧
      ∀ raw,
        (money host (.string raw) = .error .INVALID_RESPONSE ∧
          (sourceDecimal host (.string raw) = .error .INVALID_RESPONSE ∨
            ∃ value, denotes raw.toList = some value ∧ ¬ ∃ k : Int, value * 100 = k)) ∨
        ∃ (text : String) (amount : NumberParts),
          money host (.string raw) = .ok (some text) ∧ amount.WellFormed ∧
          amount.text = text.toList ∧ amount.fractionDigits.length = 2 ∧
          amount.exponent = none ∧ denotes raw.toList = some amount.value := by
  have hdenotes : ∀ {chars : List Char} {parts : NumberParts}, matchNumber chars = some parts →
      denotes chars = some parts.value := by
    intro chars parts h
    obtain ⟨hform, htext⟩ := matchNumber_eq_some_iff.mp h
    rw [← htext, denotes_text hform]
  refine ⟨?_, ?_, ?_, ?_⟩
  · intro raw text nullable h
    obtain ⟨parts, whole, fraction, hmatch, hcanonical, hvalue, htext⟩ :=
      sourceDecimalText_ok ((sourceDecimal_text_ok host).mp h)
    refine ⟨parts.value, hdenotes hmatch, ?_⟩
    rw [htext, denotes_decimalText hcanonical, hvalue]
  · intro raw raw' text text' nullable nullable' h h' heq
    obtain ⟨parts, whole, fraction, hmatch, hcanonical, hvalue, htext⟩ :=
      sourceDecimalText_ok ((sourceDecimal_text_ok host).mp h)
    obtain ⟨parts', whole', fraction', hmatch', hcanonical', hvalue', htext'⟩ :=
      sourceDecimalText_ok ((sourceDecimal_text_ok host).mp h')
    rw [hdenotes hmatch, hdenotes hmatch'] at heq
    have hsame := Option.some.inj heq
    rw [hvalue, hvalue'] at hsame
    have hchars : text.toList = text'.toList := by
      rw [htext, htext', decimalText_inj hcanonical hcanonical' hsame]
    exact String.toList_inj.mp hchars
  · intro raw nullable
    rcases sourceDecimal_string_cases host raw nullable with ⟨h, herror⟩ | ⟨text, h⟩
    · refine ⟨.inl h, fun _ => (sourceDecimalText_error_iff.mp herror).2, fun _ => h⟩
    · refine ⟨.inr ⟨text, h⟩, ?_, ?_⟩
      · intro herror
        rw [h] at herror
        cases herror
      · intro hbad
        have herror := sourceDecimalText_error_iff.mpr ⟨rfl, hbad⟩
        rw [(sourceDecimal_text_ok host).mp h] at herror
        cases herror
  · intro raw
    rcases money_string host raw with ⟨e, herror, hmoney⟩ | ⟨parts, hmatch, -, hresult⟩
    · obtain ⟨rfl, -⟩ := sourceDecimalText_error_iff.mp herror
      refine .inl ⟨hmoney, .inl ?_⟩
      rw [sourceDecimal_string, herror]
      rfl
    · rcases hresult with ⟨text, amount, hmoney, hform, htext, hlength, hnone, hvalue, -⟩ |
        ⟨hmoney, hfine⟩
      · refine .inr ⟨text, amount, hmoney, hform, htext, hlength, hnone, ?_⟩
        rw [hdenotes hmatch, hvalue]
      · exact .inl ⟨hmoney, .inr ⟨parts.value, hdenotes hmatch, hfine⟩⟩

end

end SimplefinBridge
