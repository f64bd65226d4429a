import SimplefinBridge.IdEncoding
import SimplefinBridge.InvestmentRelations
import SimplefinBridge.SourceDecimals

/-!
# Texts, amounts and dates of the providers

The parsers of Clal and Best Invest share their small readers: a text that is
not blank, an amount with thousands separators, a day-first date, and the ids
of `ids.ts`.  Amounts are added as whole cents: an accepted amount is the text
of some number of cents (`parseMoneyText_ok`), and `cents` reads that number
back (`cents_fromCents`).
-/

namespace SimplefinBridge

open Decimals
open Transactional (except_bind_ok)

/-- What a parser throws: its own error, or one of an identifier. -/
inductive ParseError
  | INVALID_RESPONSE
  | identifier (error : InvestmentError)
  deriving DecidableEq, Repr

/-- An error of an identifier passes through the parser. -/
def orThrow {α : Type} (result : Except InvestmentError α) : Except ParseError α :=
  result.mapError .identifier

/-- `investmentTrackId` -/
def investmentTrackId (productId sourceTrackId : String) : Except InvestmentError String := do
  let segment ← part sourceTrackId
  checked (productId ++ ":track:" ++ segment)

/-! ## Readers -/

/-- `record` and `clalRecord`: the fields of an object. -/
def sourceRecord (value : JsValue) : Except ParseError (List (String × JsValue)) :=
  match value with
  | .object fields => .ok fields
  | _ => .error .INVALID_RESPONSE

/-- `clalArray` -/
def sourceArray (value : JsValue) : Except ParseError (List JsValue) :=
  match value with
  | .array items => .ok items
  | _ => .error .INVALID_RESPONSE

/-- `text` -/
def sourceText (value : JsValue) : Except ParseError String :=
  match value with
  | .string input => if jsTrim input = "" then .error .INVALID_RESPONSE else .ok (jsTrim input)
  | _ => .error .INVALID_RESPONSE

/-- `missing`: no value, or a blank text. -/
def missing (value : JsValue) : Bool :=
  match value with
  | .undefined | .null => true
  | .string input => jsTrim input = ""
  | _ => false

/-- `(?:\d+|\d{1,3}(?:,\d{3})+)` -/
def isGrouped (whole : List Char) : Bool :=
  match whole.splitOn ',' with
  | [digits] => digits ≠ [] && digits.all Char.isDigit
  | first :: groups => 1 ≤ first.length && first.length ≤ 3 && first.all Char.isDigit &&
      groups.all fun group => group.length = 3 && group.all Char.isDigit
  | [] => false

/-- `(?:\d+|\d{1,3}(?:,\d{3})+)(?:\.\d{1,2})?` -/
def isUnsignedAmount (unsigned : List Char) : Bool :=
  match unsigned.splitOn '.' with
  | [whole] => isGrouped whole
  | [whole, fraction] => isGrouped whole && 1 ≤ fraction.length && fraction.length ≤ 2 &&
      fraction.all Char.isDigit
  | _ => false

/-- The input behind one of the signs. -/
def dropSign (signs : List Char) (input : List Char) : List Char :=
  match input with
  | [] => []
  | c :: rest => if c ∈ signs then rest else c :: rest

/-- The amount of a text that may begin with one of the signs. -/
def parseMoneyText (signs : List Char) (input : String) : Except ParseError String :=
  let unsigned := dropSign signs input.toList
  if isUnsignedAmount unsigned then
    let (integer, fraction) := splitPoint (unsigned.filter (· ≠ ','))
    let amount := Nat.toDigits 10 (digitsValue integer) ++ '.' :: padTwo fraction
    .ok (String.ofList
      (if input.toList.head? = some '-' ∧ amount ≠ "0.00".toList then '-' :: amount else amount))
  else .error .INVALID_RESPONSE

/-- `amount.startsWith('-') ? invalid() : amount` -/
def requireNonnegative (amount : String) : Except ParseError String :=
  if amount.toList.head? = some '-' then .error .INVALID_RESPONSE else .ok amount

/-- `BigInt(value.replace('.', ''))` -/
def cents (value : String) : Int :=
  let digits := value.toList.erase '.'
  if digits.head? = some '-' then -(digitsValue digits.tail : Int) else digitsValue digits

/-- `value.toString().padStart(3, '0')` of a number without its sign. -/
def padThree (value : Nat) : List Char :=
  List.replicate (3 - (Nat.toDigits 10 value).length) '0' ++ Nat.toDigits 10 value

/-- `fromCents(value)` -/
def fromCents (value : Int) : String :=
  let unsigned := padThree value.natAbs
  String.ofList ((if value < 0 then ['-'] else []) ++ unsigned.take (unsigned.length - 2) ++
    '.' :: unsigned.drop (unsigned.length - 2))

/-- `/^(\d{2})([./])(\d{2})\2(\d{4})$/`, as an ISO date. -/
def dayFirst (input : List Char) : Option (List Char) :=
  match input with
  | [d, d', s, m, m', s', y, y', y'', y'''] =>
      if [d, d', m, m', y, y', y'', y'''].all Char.isDigit ∧ (s = '.' ∨ s = '/') ∧ s = s' then
        some [y, y', y'', y''', '-', m, m', '-', d, d']
      else none
  | _ => none

/-- A text of a shape, in which `d` stands for any digit. -/
def hasShape (shape text : List Char) : Bool :=
  shape.length = text.length &&
    (shape.zip text).all fun pair => if pair.1 = 'd' then pair.2.isDigit else pair.2 = pair.1

/-- A result that was not thrown away. -/
theorem orThrow_ok {α : Type} {result : Except InvestmentError α} {a : α}
    (h : orThrow result = .ok a) : result = .ok a := by
  cases result with
  | ok b => rw [Except.ok.inj h]
  | error e => cases h

/-- Only objects are records. -/
theorem sourceRecord_ok {value : JsValue} {fields : List (String × JsValue)}
    (h : sourceRecord value = .ok fields) : value = .object fields := by
  cases value with
  | object fields' => rw [Except.ok.inj h]
  | _ => cases h

/-- Only arrays are lists. -/
theorem sourceArray_ok {value : JsValue} {items : List JsValue}
    (h : sourceArray value = .ok items) : value = .array items := by
  cases value with
  | array items' => rw [Except.ok.inj h]
  | _ => cases h

/-! ## Cents -/

/-- The last two digits of a number. -/
theorem toDigits_hundred {n : Nat} (h : 100 ≤ n) :
    Nat.toDigits 10 n =
      Nat.toDigits 10 (n / 100) ++ [Nat.digitChar (n / 10 % 10), Nat.digitChar (n % 10)] := by
  have hdiv : n / 10 / 10 = n / 100 := Nat.div_div_eq_div_mul n 10 10
  rw [Nat.toDigits_of_base_le (by decide) (by omega),
    Nat.toDigits_of_base_le (by decide) (show 10 ≤ n / 10 by omega), hdiv, List.append_assoc]
  rfl

/-- The digits of a number, with two of them after the point. -/
theorem padThree_eq (n : Nat) :
    padThree n =
      Nat.toDigits 10 (n / 100) ++ [Nat.digitChar (n / 10 % 10), Nat.digitChar (n % 10)] := by
  by_cases hlarge : 100 ≤ n
  · have hlength : 3 ≤ (Nat.toDigits 10 n).length := by
      rw [toDigits_hundred hlarge, List.length_append]
      have hpositive := @Nat.length_toDigits_pos 10 (n / 100)
      change 3 ≤ (Nat.toDigits 10 (n / 100)).length + 2
      omega
    unfold padThree
    rw [Nat.sub_eq_zero_of_le hlength, List.replicate_zero, List.nil_append,
      toDigits_hundred hlarge]
  · have hsmall : ∀ k < 100, padThree k = Nat.toDigits 10 (k / 100) ++
        [Nat.digitChar (k / 10 % 10), Nat.digitChar (k % 10)] := by
      decide
    exact hsmall n (Nat.lt_of_not_le hlarge)

/-- The sign, the shekels and two digits of cents. -/
theorem fromCents_eq (n : Int) :
    (fromCents n).toList = (if n < 0 then ['-'] else []) ++
      Nat.toDigits 10 (n.natAbs / 100) ++
        '.' :: [Nat.digitChar (n.natAbs / 10 % 10), Nat.digitChar (n.natAbs % 10)] := by
  unfold fromCents
  rw [String.toList_ofList, padThree_eq, List.length_append]
  change _ ++ List.take ((Nat.toDigits 10 (n.natAbs / 100)).length + 2 - 2) _ ++
    '.' :: List.drop ((Nat.toDigits 10 (n.natAbs / 100)).length + 2 - 2) _ = _
  rw [Nat.add_sub_cancel, List.take_left, List.drop_left]

/-- Printed digits are read back. -/
theorem digitsValue_toDigits (n : Nat) : digitsValue (Nat.toDigits 10 n) = n :=
  Nat.ofDigitChars_ten_toDigits

/-- Two digits. -/
theorem digitsValue_pair {a b : Nat} (ha : a < 10) (hb : b < 10) :
    digitsValue [Nat.digitChar a, Nat.digitChar b] = a * 10 + b := by
  have hall : ∀ a < 10, ∀ b < 10, digitsValue [Nat.digitChar a, Nat.digitChar b] = a * 10 + b := by
    decide
  exact hall a ha b hb

/-- The digits of a text of cents, without its point. -/
theorem digitsValue_cents (n : Nat) :
    digitsValue (Nat.toDigits 10 (n / 100) ++
      [Nat.digitChar (n / 10 % 10), Nat.digitChar (n % 10)]) = n := by
  rw [digitsValue_append, digitsValue_toDigits,
    digitsValue_pair (Nat.mod_lt _ (by decide)) (Nat.mod_lt _ (by decide))]
  change n / 100 * 10 ^ 2 + (n / 10 % 10 * 10 + n % 10) = n
  omega

/-- Digits have no point. -/
theorem point_not_mem_toDigits (n : Nat) : '.' ∉ Nat.toDigits 10 n := by
  intro hmem
  have hdigit := Nat.isDigit_of_mem_toDigits (by decide) (by decide) hmem
  cases hdigit

/-- A text that begins with the digits of a number has no sign. -/
theorem head_digits (n : Nat) (rest : List Char) :
    (Nat.toDigits 10 n ++ rest).head? ≠ some '-' := by
  obtain ⟨first, others, hcons⟩ := List.exists_cons_of_ne_nil (@Nat.toDigits_ne_nil n 10)
  have hfirst : first.isDigit = true :=
    Nat.isDigit_of_mem_toDigits (by decide) (by decide) (hcons ▸ List.mem_cons_self)
  rw [hcons]
  intro heq
  rw [Option.some.inj heq] at hfirst
  cases hfirst

/-- **Reading cents back.** -/
theorem cents_fromCents (n : Int) : cents (fromCents n) = n := by
  have hpoint := point_not_mem_toDigits (n.natAbs / 100)
  have hdigits := digitsValue_cents n.natAbs
  unfold cents
  rw [fromCents_eq]
  by_cases hneg : n < 0
  · have hsigned : '.' ∉ ['-'] ++ Nat.toDigits 10 (n.natAbs / 100) := by
      intro hmem
      rcases List.mem_cons.mp hmem with heq | hmem
      · cases heq
      · exact hpoint hmem
    rw [if_pos hneg, List.erase_append_right _ hsigned, List.erase_cons_head]
    change (if some '-' = some '-' then -((digitsValue _ : Nat) : Int) else _) = n
    rw [if_pos rfl]
    change -((digitsValue (Nat.toDigits 10 (n.natAbs / 100) ++ _) : Nat) : Int) = n
    rw [hdigits]
    omega
  · have hhead := head_digits (n.natAbs / 100) [Nat.digitChar (n.natAbs / 10 % 10),
      Nat.digitChar (n.natAbs % 10)]
    rw [if_neg hneg, List.nil_append, List.erase_append_right _ hpoint, List.erase_cons_head]
    dsimp only
    rw [if_neg hhead, hdigits]
    omega

/-! ## Accepted amounts -/

/-- A digit is the digit of its value. -/
theorem digitChar_of_isDigit {c : Char} (h : c.isDigit = true) :
    Nat.digitChar (c.toNat - 48) = c ∧ c.toNat - 48 < 10 := by
  obtain ⟨hlow, hhigh⟩ := toNat_of_isDigit h
  have hall : ∀ k < 10, (Nat.digitChar k).toNat = k + 48 := by decide
  refine ⟨?_, by omega⟩
  have hvalue := hall (c.toNat - 48) (by omega)
  apply Char.ext
  apply UInt32.toNat.inj
  change (Nat.digitChar (c.toNat - 48)).toNat = c.toNat
  omega

/-- An amount with two digits after the point is the text of its cents. -/
theorem amount_eq_fromCents (a : Nat) {x y : Char} (hx : x.isDigit = true)
    (hy : y.isDigit = true) :
    ∃ n : Nat, Nat.toDigits 10 a ++ '.' :: [x, y] = (fromCents n).toList ∧
      ('-' :: (Nat.toDigits 10 a ++ '.' :: [x, y]) = (fromCents (-n)).toList ∨
        Nat.toDigits 10 a ++ '.' :: [x, y] = "0.00".toList) := by
  obtain ⟨hxdigit, hx10⟩ := digitChar_of_isDigit hx
  obtain ⟨hydigit, hy10⟩ := digitChar_of_isDigit hy
  refine ⟨a * 100 + (x.toNat - 48) * 10 + (y.toNat - 48), ?_⟩
  generalize hn : a * 100 + (x.toNat - 48) * 10 + (y.toNat - 48) = n
  have hwhole : n / 100 = a := by omega
  have htens : n / 10 % 10 = x.toNat - 48 := by omega
  have hones : n % 10 = y.toNat - 48 := by omega
  have hnot : ¬ (n : Int) < 0 := by omega
  refine ⟨?_, ?_⟩
  · rw [fromCents_eq, Int.natAbs_natCast, hwhole, htens, hones, hxdigit, hydigit, if_neg hnot,
      List.nil_append]
  · by_cases hzero : n = 0
    · refine .inr ?_
      rw [← hxdigit, ← hydigit, ← htens, ← hones, ← hwhole, hzero]
      rfl
    · refine .inl ?_
      rw [fromCents_eq, Int.natAbs_neg, Int.natAbs_natCast, hwhole, htens, hones, hxdigit,
        hydigit, if_pos (by omega)]
      rfl

/-- A fraction of at most two digits, padded to two. -/
theorem padTwo_digits {fraction : List Char} (hdigits : AllDigits fraction)
    (hlength : fraction.length ≤ 2) :
    ∃ x y : Char, x.isDigit = true ∧ y.isDigit = true ∧ padTwo fraction = [x, y] := by
  have hall : AllDigits (padTwo fraction) := hdigits.append (allDigits_zeros _)
  have htwo := length_padTwo hlength
  obtain ⟨x, y, hpair⟩ := List.length_eq_two.mp htwo
  refine ⟨x, y, hall x ?_, hall y ?_, hpair⟩
  · rw [hpair]
    exact List.mem_cons_self
  · rw [hpair]
    exact List.mem_cons_of_mem _ List.mem_cons_self

/-- Digits have no commas to be dropped. -/
theorem filter_digits {digits : List Char} (h : AllDigits digits) :
    digits.filter (· ≠ ',') = digits := by
  rw [List.filter_eq_self]
  intro c hc
  have hdigit := h c hc
  apply decide_eq_true
  rintro rfl
  cases hdigit

/-- The fraction of an accepted amount. -/
theorem splitPoint_amount {unsigned : List Char} (h : isUnsignedAmount unsigned = true) :
    ∃ whole fraction, splitPoint (unsigned.filter (· ≠ ',')) = (whole, fraction) ∧
      AllDigits fraction ∧ fraction.length ≤ 2 := by
  have hfilter : ∀ {chars : List Char}, '.' ∉ chars → '.' ∉ chars.filter (· ≠ ',') :=
    fun hnot hmem => hnot (List.mem_filter.mp hmem).1
  by_cases hpoint : '.' ∈ unsigned
  · obtain ⟨whole, fraction, rfl, hwhole⟩ := List.eq_append_cons_of_mem hpoint
    have hfraction : 1 ≤ fraction.length ∧ fraction.length ≤ 2 ∧ AllDigits fraction := by
      unfold isUnsignedAmount at h
      rw [List.splitOn_append_cons_self_of_not_mem hwhole] at h
      have hjoin : ['.'].intercalate (fraction.splitOn '.') = fraction :=
        List.intercalate_splitOn '.'
      cases hsplit : fraction.splitOn '.' with
      | nil => exact absurd hsplit (List.splitOn_ne_nil _ _)
      | cons first others =>
          rw [hsplit] at h hjoin
          cases others with
          | cons next others => cases h
          | nil =>
              rw [List.intercalate_singleton] at hjoin
              subst hjoin
              simp only [Bool.and_eq_true, decide_eq_true_eq, List.all_eq_true] at h
              exact ⟨h.1.1.2, h.1.2, h.2⟩
    refine ⟨whole.filter (· ≠ ','), fraction, ?_, hfraction.2.2, hfraction.2.1⟩
    rw [List.filter_append, List.filter_cons_of_pos (by decide), filter_digits hfraction.2.2]
    exact splitPoint_point (hfilter hwhole) (not_mem_of_allDigits hfraction.2.2)
  · exact ⟨_, [], splitPoint_whole (hfilter hpoint), fun c hc => absurd hc List.not_mem_nil,
      Nat.zero_le 2⟩

/-- **An accepted amount** is the text of some number of cents. -/
theorem parseMoneyText_ok {signs : List Char} {input amount : String}
    (h : parseMoneyText signs input = .ok amount) : ∃ n : Int, amount = fromCents n := by
  unfold parseMoneyText at h
  dsimp only at h
  by_cases haccepted : isUnsignedAmount (dropSign signs input.toList) = true
  · rw [if_pos haccepted] at h
    obtain ⟨whole, fraction, hsplit, hdigits, hlength⟩ := splitPoint_amount haccepted
    obtain ⟨x, y, hx, hy, hpair⟩ := padTwo_digits hdigits hlength
    obtain ⟨n, hpositive, hnegative⟩ := amount_eq_fromCents (digitsValue whole) hx hy
    rw [hsplit] at h
    dsimp only at h
    rw [hpair] at h
    have hamount := (Except.ok.inj h).symm
    rw [hamount]
    by_cases hsign : input.toList.head? = some '-' ∧
        Nat.toDigits 10 (digitsValue whole) ++ '.' :: [x, y] ≠ "0.00".toList
    · rcases hnegative with hneg | hzero
      · rw [if_pos hsign, hneg, String.ofList_toList]
        exact ⟨_, rfl⟩
      · exact absurd hzero hsign.2
    · rw [if_neg hsign, hpositive, String.ofList_toList]
      exact ⟨_, rfl⟩
  · rw [if_neg haccepted] at h
    cases h

/-- An amount that is let through has no minus. -/
theorem requireNonnegative_ok {amount amount' : String}
    (h : requireNonnegative amount = .ok amount') :
    amount' = amount ∧ amount.toList.head? ≠ some '-' := by
  unfold requireNonnegative at h
  split_ifs at h with hsign
  exact ⟨(Except.ok.inj h).symm, hsign⟩

/-- Two amounts of the same cents are the same text. -/
theorem amount_eq_of_cents {signs signs' : List Char} {input input' amount amount' : String}
    (h : parseMoneyText signs input = .ok amount)
    (h' : parseMoneyText signs' input' = .ok amount') :
    amount = amount' ↔ cents amount = cents amount' := by
  obtain ⟨n, rfl⟩ := parseMoneyText_ok h
  obtain ⟨n', rfl⟩ := parseMoneyText_ok h'
  rw [cents_fromCents, cents_fromCents]
  constructor
  · intro heq
    have hcents := congrArg cents heq
    rwa [cents_fromCents, cents_fromCents] at hcents
  · rintro rfl
    rfl

/-- A number is written without leading zeros. -/
theorem toDigits_leading {n : Nat} (h : (Nat.toDigits 10 n).head? = some '0') :
    Nat.toDigits 10 n = ['0'] := by
  induction n using Nat.strong_induction_on with
  | _ n ih =>
      by_cases hsmall : n < 10
      · rw [Nat.toDigits_of_lt_base hsmall] at h ⊢
        rw [Option.some.inj h]
      · have hstep := Nat.toDigits_of_base_le (by decide : 1 < 10) (not_lt.mp hsmall)
        have hhead : (Nat.toDigits 10 (n / 10)).head? = some '0' := by
          rw [hstep] at h
          obtain ⟨first, rest, hcons⟩ := List.exists_cons_of_ne_nil
            (@Nat.toDigits_ne_nil (n / 10) 10)
          rw [hcons] at h ⊢
          exact h
        have hzero := congrArg digitsValue (ih (n / 10) (by omega) hhead)
        rw [digitsValue_toDigits] at hzero
        change n / 10 = 0 at hzero
        omega

/-- **The value** of a text of cents. -/
theorem denotes_fromCents (n : Int) : denotes (fromCents n).toList = some ((n : ℚ) / 100) := by
  have hdigit : ∀ k < 10, (Nat.digitChar k).isDigit = true := by decide
  have htens := hdigit (n.natAbs / 10 % 10) (Nat.mod_lt _ (by decide))
  have hones := hdigit (n.natAbs % 10) (Nat.mod_lt _ (by decide))
  have hform : NumberParts.WellFormed ⟨decide (n < 0), Nat.toDigits 10 (n.natAbs / 100),
      some [Nat.digitChar (n.natAbs / 10 % 10), Nat.digitChar (n.natAbs % 10)], none⟩ := by
    refine ⟨Nat.toDigits_ne_nil, fun c hc => Nat.isDigit_of_mem_toDigits (by decide) (by decide) hc,
      toDigits_leading, ?_, nofun⟩
    intro digits hdigits
    rw [← Option.some.inj hdigits]
    refine ⟨List.cons_ne_nil _ _, fun c hc => ?_⟩
    rcases List.mem_cons.mp hc with rfl | hc
    · exact htens
    · rw [List.mem_singleton.mp hc]
      exact hones
  have hvalue := denotes_text hform
  have htext : NumberParts.text ⟨decide (n < 0), Nat.toDigits 10 (n.natAbs / 100),
      some [Nat.digitChar (n.natAbs / 10 % 10), Nat.digitChar (n.natAbs % 10)], none⟩ =
        (fromCents n).toList := by
    rw [fromCents_eq]
    unfold NumberParts.text NumberParts.signText
    simp only [decide_eq_true_eq, List.append_assoc]
    rfl
  rw [htext] at hvalue
  rw [hvalue]
  have hdigits := digitsValue_cents n.natAbs
  unfold NumberParts.value
  change some ((if decide (n < 0) = true then (-1 : ℚ) else 1) *
    ((digitsValue (Nat.toDigits 10 (n.natAbs / 100) ++ [Nat.digitChar (n.natAbs / 10 % 10),
      Nat.digitChar (n.natAbs % 10)]) : ℕ) * (10 : ℚ) ^ (0 - (2 : Int)))) = _
  rw [hdigits]
  have hscale : (10 : ℚ) ^ (0 - (2 : Int)) = 1 / 100 := by norm_num
  have habs : ((n.natAbs : ℕ) : ℚ) = |(n : ℚ)| := by
    rw [← Int.cast_abs, Int.abs_eq_natAbs]
    rfl
  rw [hscale, habs]
  by_cases hneg : n < 0
  · rw [if_pos (decide_eq_true hneg), abs_of_neg (Int.cast_lt_zero.mpr hneg)]
    ring_nf
  · rw [if_neg (fun h => hneg (of_decide_eq_true h)),
      abs_of_nonneg (Int.cast_nonneg (not_lt.mp hneg))]
    ring_nf

/-! ## Trimmed texts -/

/-- The end of a text without its trailing white space. -/
def trimEnd (chars : List Char) : List Char := (chars.reverse.dropWhile isJsSpace).reverse

/-- Trimming cuts white space off both ends. -/
theorem jsTrim_eq (s : String) :
    jsTrim s = String.ofList (trimEnd (s.toList.dropWhile isJsSpace)) := rfl

/-- Trimming stops at a character that is no white space. -/
theorem trimEnd_append {a b : List Char} {c : Char} (hc : isJsSpace c = false) :
    trimEnd (a ++ c :: b) = a ++ c :: trimEnd b := by
  have hstop : ∀ rest, (c :: rest).dropWhile isJsSpace = c :: rest := by
    intro rest
    rw [List.dropWhile_cons, hc, if_neg Bool.false_ne_true]
  unfold trimEnd
  rw [List.reverse_append, List.reverse_cons, List.append_assoc, List.dropWhile_append]
  cases hend : b.reverse.dropWhile isJsSpace with
  | nil =>
      rw [List.isEmpty_nil, if_pos rfl, List.singleton_append, hstop, List.reverse_cons,
        List.reverse_reverse]
      rfl
  | cons d rest =>
      rw [List.isEmpty_cons, if_neg Bool.false_ne_true, List.reverse_append, List.reverse_append,
        List.reverse_reverse, List.append_assoc]
      rfl

/-- A text is trimmed behind its last character that is no white space. -/
theorem jsTrim_append {s : String} {a b : List Char} {c : Char} (hc : isJsSpace c = false)
    (hhead : ∀ d, a.head? = some d → isJsSpace d = false) (hs : s.toList = a ++ c :: b) :
    (jsTrim s).toList = a ++ c :: trimEnd b := by
  have hfront : (a ++ c :: b).dropWhile isJsSpace = a ++ c :: b := by
    cases a with
    | nil => rw [List.nil_append, List.dropWhile_cons, hc, if_neg Bool.false_ne_true]
    | cons d a =>
        rw [List.cons_append, List.dropWhile_cons, hhead d rfl, if_neg Bool.false_ne_true]
  rw [jsTrim_eq, String.toList_ofList, hs, hfront, trimEnd_append hc]

/-- A text without white space is trimmed. -/
theorem jsTrim_of_no_space {s : String} (h : ∀ c ∈ s.toList, isJsSpace c = false) :
    jsTrim s = s := by
  rw [← String.toList_inj]
  cases hs : s.toList.reverse with
  | nil =>
      have hnil : s.toList = [] := List.reverse_eq_nil_iff.mp hs
      rw [jsTrim_eq, String.toList_ofList, hnil]
      rfl
  | cons c rest =>
      have hchars : s.toList = rest.reverse ++ c :: [] := by
        rw [← List.reverse_cons, ← hs, List.reverse_reverse]
      have hhead : ∀ d, rest.reverse.head? = some d → isJsSpace d = false := by
        intro d hd
        refine h d ?_
        rw [hchars]
        exact List.mem_append_left _ (List.mem_of_mem_head? hd)
      have hc : isJsSpace c = false := by
        refine h c ?_
        rw [hchars]
        exact List.mem_append_right _ List.mem_cons_self
      rw [jsTrim_append hc hhead hchars, hchars]
      rfl

/-- A trimmed text has none to be cut off. -/
theorem jsTrim_jsTrim (s : String) : jsTrim (jsTrim s) = jsTrim s := by
  have hdrop : ∀ chars : List Char,
      (chars.dropWhile isJsSpace).dropWhile isJsSpace = chars.dropWhile isJsSpace := by
    intro chars
    induction chars with
    | nil => rfl
    | cons c chars ih =>
        rw [List.dropWhile_cons]
        by_cases hc : isJsSpace c = true
        · rw [if_pos hc, ih]
        · rw [if_neg hc, List.dropWhile_cons, if_neg hc]
  have hend : ∀ chars : List Char, trimEnd (trimEnd chars) = trimEnd chars := by
    intro chars
    unfold trimEnd
    rw [List.reverse_reverse, hdrop]
  have hfront : ∀ chars : List Char, (trimEnd (chars.dropWhile isJsSpace)).dropWhile isJsSpace =
      trimEnd (chars.dropWhile isJsSpace) := by
    intro chars
    cases hchars : chars.dropWhile isJsSpace with
    | nil => rfl
    | cons c rest =>
        have hc : isJsSpace c = false := by
          have hstep := hdrop chars
          rw [hchars, List.dropWhile_cons] at hstep
          cases hspace : isJsSpace c with
          | false => rfl
          | true =>
              rw [hspace, if_pos rfl] at hstep
              have hlength := congrArg List.length hstep
              have hle := List.length_dropWhile_le isJsSpace rest
              rw [List.length_cons] at hlength
              omega
        have hkept : trimEnd (c :: rest) = c :: trimEnd rest := @trimEnd_append [] rest c hc
        rw [hkept, List.dropWhile_cons, hc, if_neg Bool.false_ne_true]
  rw [jsTrim_eq (jsTrim s), jsTrim_eq s, String.toList_ofList, hfront, hend]

/-! ## Ids have no white space -/

/-- No character of an encoded segment is white space. -/
theorem isJsSpace_of_encoded {c : Char} (h : isEncodedChar c = true) : isJsSpace c = false := by
  have hall : ∀ n < 0x7F, isEncodedChar (Char.ofNat n) = true →
      isJsSpace (Char.ofNat n) = false := by
    decide +kernel
  have hprintable := isPrintableChar_of_encoded h
  unfold isPrintableChar at hprintable
  simp only [Bool.and_eq_true, decide_eq_true_eq, UInt32.le_iff_toNat_le] at hprintable
  have hhigh : UInt32.toNat 0x7E = 126 := rfl
  have hvalue : c.val.toNat = c.toNat := rfl
  have hspace := hall c.toNat (by omega)
  rw [Char.ofNat_toNat] at hspace
  exact hspace h

/-- A text of encoded characters and colons. -/
def IsIdText (id : String) : Prop := ∀ c ∈ id.toList, isEncodedChar c = true ∨ c = ':'

/-- So an id is as it is when it is trimmed. -/
theorem IsIdText.trimmed {id : String} (h : IsIdText id) : jsTrim id = id := by
  refine jsTrim_of_no_space fun c hc => ?_
  rcases h c hc with hencoded | rfl
  · exact isJsSpace_of_encoded hencoded
  · rfl

/-- Two texts of an id. -/
theorem IsIdText.append {a b : String} (ha : IsIdText a) (hb : IsIdText b) : IsIdText (a ++ b) := by
  intro c hc
  rw [String.toList_append] at hc
  rcases List.mem_append.mp hc with hc | hc
  · exact ha c hc
  · exact hb c hc

/-- An encoded segment may stand in an id. -/
theorem isIdText_part {value segment : String} (h : part value = .ok segment) :
    IsIdText segment := by
  unfold part at h
  split_ifs at h
  rw [← Except.ok.inj h]
  exact fun c hc => .inl (mem_encodeURIComponent hc)

/-- An id behind a product's id, trimmed. -/
theorem trimmed_behind {productId id : String} {rest : List Char} (hproduct : IsIdText productId)
    (hid : id.toList = productId.toList ++ ':' :: rest) :
    (jsTrim id).toList = productId.toList ++ ':' :: trimEnd rest := by
  refine jsTrim_append rfl ?_ hid
  intro d hd
  rcases hproduct d (List.mem_of_mem_head? hd) with hencoded | rfl
  · exact isJsSpace_of_encoded hencoded
  · rfl

section
variable {provider : InvestmentProvider} {id : String}

/-- A product's id is a text of an id. -/
theorem IsProductId.isIdText (h : IsProductId provider id) : IsIdText id := by
  obtain ⟨providerProductId, h⟩ := h
  obtain ⟨segment, hsegment, hid⟩ := except_bind_ok.mp h
  rw [checked_ok hid]
  have hprovider : IsIdText (provider.text ++ ":") := by
    unfold IsIdText
    cases provider <;> exact forall_char_of_all (by decide)
  exact hprovider.append (isIdText_part hsegment)

/-- A track id is its product's id, and a text that names the track. -/
theorem trackId_spec {productId sourceId : String} (h : investmentTrackId productId sourceId = .ok id) :
    (∃ rest, id.toList = productId.toList ++ ':' :: rest) ∧
      (IsIdText productId → IsIdText id) := by
  obtain ⟨segment, hsegment, hid⟩ := except_bind_ok.mp h
  rw [checked_ok hid]
  constructor
  · refine ⟨"track:".toList ++ segment.toList, ?_⟩
    rw [String.toList_append, String.toList_append, List.append_assoc]
    rfl
  · intro hproduct
    have hmark : IsIdText ":track:" := forall_char_of_all (by decide)
    exact (hproduct.append hmark).append (isIdText_part hsegment)

end

/-- One id stands behind one product id only. -/
theorem IsProductId.eq_of_behind {provider : InvestmentProvider} {productId productId' id id' : String}
    {rest rest' : List Char} (h : IsProductId provider productId)
    (h' : IsProductId provider productId') (hid : id.toList = productId.toList ++ ':' :: rest)
    (hid' : id'.toList = productId'.toList ++ ':' :: rest') (heq : id = id') :
    productId = productId' := by
  have hsame : productId.toList ++ ':' :: rest = productId'.toList ++ ':' :: rest' := by
    rw [← hid, ← hid', heq]
  exact h.unique h' hsame

/-! ## Accepted amounts are accepted again -/

/-- Digits with two decimals are an amount. -/
theorem isUnsignedAmount_digits (n : Nat) {x y : Char} (hx : x.isDigit = true)
    (hy : y.isDigit = true) :
    isUnsignedAmount (Nat.toDigits 10 n ++ '.' :: [x, y]) = true := by
  have hdigits : AllDigits (Nat.toDigits 10 n) :=
    fun c hc => Nat.isDigit_of_mem_toDigits (by decide) (by decide) hc
  have hcomma : ',' ∉ Nat.toDigits 10 n := by
    intro hmem
    cases hdigits _ hmem
  have hpair : '.' ∉ [x, y] := by
    intro hmem
    rcases List.mem_cons.mp hmem with rfl | hmem
    · cases hx
    · rw [← List.mem_singleton.mp hmem] at hy
      cases hy
  unfold isUnsignedAmount isGrouped
  rw [List.splitOn_append_cons_self_of_not_mem (point_not_mem_toDigits n),
    List.splitOn_eq_singleton hpair]
  dsimp only
  rw [List.splitOn_eq_singleton hcomma]
  simpa [hx, hy, Nat.toDigits_ne_nil] using fun c hc => hdigits c hc

/-- **A text of cents** is the amount it is read as. -/
theorem parseMoneyText_fromCents (n : Nat) :
    parseMoneyText ['-'] (fromCents n) = .ok (fromCents n) := by
  have hdigit : ∀ k < 10, (Nat.digitChar k).isDigit = true := by decide
  have htens := hdigit (n / 10 % 10) (Nat.mod_lt _ (by decide))
  have hones := hdigit (n % 10) (Nat.mod_lt _ (by decide))
  have hpair : AllDigits [Nat.digitChar (n / 10 % 10), Nat.digitChar (n % 10)] := by
    intro c hc
    rcases List.mem_cons.mp hc with rfl | hc
    · exact htens
    · rw [List.mem_singleton.mp hc]
      exact hones
  have hdigits : AllDigits (Nat.toDigits 10 (n / 100)) :=
    fun c hc => Nat.isDigit_of_mem_toDigits (by decide) (by decide) hc
  have htext : (fromCents n).toList = Nat.toDigits 10 (n / 100) ++
      '.' :: [Nat.digitChar (n / 10 % 10), Nat.digitChar (n % 10)] := by
    have hnot : ¬ (n : Int) < 0 := by omega
    rw [fromCents_eq, if_neg hnot, Int.natAbs_natCast, List.nil_append]
  have hhead := head_digits (n / 100) ('.' :: [Nat.digitChar (n / 10 % 10), Nat.digitChar (n % 10)])
  have hunsigned : dropSign ['-'] (fromCents n).toList = (fromCents n).toList := by
    rw [htext]
    cases hchars : Nat.toDigits 10 (n / 100) ++
        '.' :: [Nat.digitChar (n / 10 % 10), Nat.digitChar (n % 10)] with
    | nil => rfl
    | cons c rest =>
        rw [hchars] at hhead
        have hsign : c ∉ ['-'] := fun hmem => hhead (congrArg some (List.mem_singleton.mp hmem))
        exact if_neg hsign
  have hplain : (fromCents n).toList.filter (· ≠ ',') = (fromCents n).toList := by
    rw [htext, List.filter_append, filter_digits hdigits, List.filter_cons_of_pos (by decide),
      filter_digits hpair]
  have hsplit : splitPoint (fromCents n).toList = (Nat.toDigits 10 (n / 100),
      [Nat.digitChar (n / 10 % 10), Nat.digitChar (n % 10)]) := by
    rw [htext]
    exact splitPoint_point (point_not_mem_toDigits _) (not_mem_of_allDigits hpair)
  have haccepted : isUnsignedAmount (fromCents n).toList = true := by
    rw [htext]
    exact isUnsignedAmount_digits _ htens hones
  have hpositive : ¬ ((fromCents n).toList.head? = some '-' ∧
      (fromCents n).toList ≠ "0.00".toList) := by
    intro hsign
    rw [htext] at hsign
    exact hhead hsign.1
  have hamount : Nat.toDigits 10 (digitsValue (Nat.toDigits 10 (n / 100))) ++
      '.' :: padTwo [Nat.digitChar (n / 10 % 10), Nat.digitChar (n % 10)] =
        (fromCents n).toList := by
    rw [digitsValue_toDigits, htext]
    rfl
  unfold parseMoneyText
  dsimp only
  rw [hunsigned, if_pos haccepted, hplain, hsplit]
  dsimp only
  rw [hamount, if_neg hpositive, String.ofList_toList]

/-- Cents that count something are let through. -/
theorem requireNonnegative_fromCents (n : Nat) :
    requireNonnegative (fromCents n) = .ok (fromCents n) := by
  have hnot : ¬ (n : Int) < 0 := by omega
  unfold requireNonnegative
  rw [fromCents_eq, if_neg hnot, List.nil_append, if_neg (head_digits _ _)]

/-- A text of cents without a sign is not negative. -/
theorem nonnegative_of_head {n : Int} (h : (fromCents n).toList.head? ≠ some '-') :
    ∃ k : Nat, n = k := by
  by_cases hneg : n < 0
  · rw [fromCents_eq, if_pos hneg] at h
    exact absurd rfl h
  · exact ⟨n.toNat, (Int.toNat_of_nonneg (not_lt.mp hneg)).symm⟩

/-- No digit is white space. -/
theorem isJsSpace_of_isDigit {c : Char} (h : c.isDigit = true) : isJsSpace c = false := by
  have hdigit : ∀ k < 10, isJsSpace (Nat.digitChar k) = false := by decide +kernel
  obtain ⟨hchar, hsmall⟩ := digitChar_of_isDigit h
  rw [← hchar]
  exact hdigit _ hsmall

/-- A text that is read is trimmed and not blank. -/
theorem sourceText_ok {value : JsValue} {input : String} (h : sourceText value = .ok input) :
    jsTrim input = input ∧ input ≠ "" := by
  cases value with
  | string raw =>
      unfold sourceText at h
      dsimp only at h
      split_ifs at h with hblank
      rw [← Except.ok.inj h]
      exact ⟨jsTrim_jsTrim raw, hblank⟩
  | _ => cases h

/-- A text without white space is read as it is. -/
theorem sourceText_of_no_space {input : String} (h : ∀ c ∈ input.toList, isJsSpace c = false)
    (hne : input ≠ "") : sourceText (.string input) = .ok input := by
  unfold sourceText
  dsimp only
  rw [jsTrim_of_no_space h, if_neg hne]

/-- An amount is such a text. -/
theorem sourceText_fromCents (n : Nat) : sourceText (.string (fromCents n)) = .ok (fromCents n) := by
  have hnot : ¬ (n : Int) < 0 := by omega
  have hdigit : ∀ k < 10, isJsSpace (Nat.digitChar k) = false := by decide +kernel
  have htext := fromCents_eq n
  rw [if_neg hnot, List.nil_append] at htext
  refine sourceText_of_no_space ?_ ?_
  · intro c hc
    rw [htext] at hc
    rcases List.mem_append.mp hc with hc | hc
    · exact isJsSpace_of_isDigit (Nat.isDigit_of_mem_toDigits (by decide) (by decide) hc)
    · rcases List.mem_cons.mp hc with rfl | hc
      · rfl
      · rcases List.mem_cons.mp hc with rfl | hc
        · exact hdigit _ (Nat.mod_lt _ (by decide))
        · rw [List.mem_singleton.mp hc]
          exact hdigit _ (Nat.mod_lt _ (by decide))
  · intro hempty
    rw [hempty] at htext
    exact List.append_ne_nil_of_left_ne_nil Nat.toDigits_ne_nil _ htext.symm

/-! ## Trimmed records -/

/-- A missing text is trimmed too. -/
theorem map_jsTrim_twice (text : Option String) : (text.map jsTrim).map jsTrim = text.map jsTrim := by
  cases text with
  | none => rfl
  | some text => exact congrArg some (jsTrim_jsTrim text)

/-- Trimming every item twice. -/
theorem map_trimmed_twice {α : Type} {trim : α → α} (htwice : ∀ a, trim (trim a) = trim a)
    (items : List α) : (items.map trim).map trim = items.map trim := by
  rw [List.map_map]
  exact List.map_congr_left fun a _ => htwice a

/-- A trimmed report is trimmed, -/
theorem trimmed_trimmed_report (report : InvestmentReportSummary) :
    report.trimmed.trimmed = report.trimmed := by
  have hline : ∀ line : ReportLine, ({ line with label := jsTrim (jsTrim line.label) } : ReportLine) =
      { line with label := jsTrim line.label } := fun line => by rw [jsTrim_jsTrim]
  unfold InvestmentReportSummary.trimmed
  simp only [jsTrim_jsTrim]
  rw [map_trimmed_twice hline]

/-- and so is a product, -/
theorem trimmed_trimmed_product (product : InvestmentProduct) :
    product.trimmed.trimmed = product.trimmed := by
  have hreports : (product.reportSummaries.map (·.map (·.trimmed))).map (·.map (·.trimmed)) =
      product.reportSummaries.map (·.map (·.trimmed)) := by
    cases product.reportSummaries with
    | none => rfl
    | some reports => exact congrArg some (map_trimmed_twice trimmed_trimmed_report reports)
  unfold InvestmentProduct.trimmed
  simp only [jsTrim_jsTrim, map_jsTrim_twice, hreports]

/-- a valuation, -/
theorem trimmed_trimmed_valuation (valuation : InvestmentValuation) :
    valuation.trimmed.trimmed = valuation.trimmed := by
  unfold InvestmentValuation.trimmed
  simp only [jsTrim_jsTrim]

/-- an activity, -/
theorem trimmed_trimmed_activity (activity : InvestmentActivity) :
    activity.trimmed.trimmed = activity.trimmed := by
  unfold InvestmentActivity.trimmed
  simp only [jsTrim_jsTrim]

/-- a track, -/
theorem trimmed_trimmed_track (track : InvestmentTrack) : track.trimmed.trimmed = track.trimmed := by
  unfold InvestmentTrack.trimmed
  simp only [jsTrim_jsTrim]

/-- an execution -/
theorem trimmed_trimmed_execution (execution : InvestmentExecution) :
    execution.trimmed.trimmed = execution.trimmed := by
  unfold InvestmentExecution.trimmed
  simp only [jsTrim_jsTrim, map_jsTrim_twice]

/-- and a whole snapshot. -/
theorem trimmed_trimmed_snapshot (snapshot : InvestmentSnapshot) :
    snapshot.trimmed.trimmed = snapshot.trimmed := by
  unfold InvestmentSnapshot.trimmed
  simp only [map_trimmed_twice trimmed_trimmed_product, map_trimmed_twice trimmed_trimmed_valuation,
    map_trimmed_twice trimmed_trimmed_activity, map_trimmed_twice trimmed_trimmed_track,
    map_trimmed_twice trimmed_trimmed_execution]

/-! ## Entries of a product -/

/-- The cents of a track. -/
def trackCents (track : InvestmentTrack) : Int := ((track.amount).map cents).getD 0

/-- The fields of a product that its entry is about. -/
def SameProduct (product product' : InvestmentProduct) : Prop :=
  product'.id = product.id ∧ product'.currentValuationId = product.currentValuationId

/-- Of items about distinct products, the ids behind the products are distinct. -/
theorem nodup_behind {α : Type} {provider : InvestmentProvider} {items : List α}
    {productId id : α → String} (hproducts : ∀ a ∈ items, IsProductId provider (productId a))
    (hnodup : (items.map productId).Nodup)
    (hid : ∀ a ∈ items, ∃ rest, (id a).toList = (productId a).toList ++ ':' :: rest) :
    (items.map id).Nodup := by
  refine List.pairwise_map.mpr ((List.pairwise_map.mp hnodup).imp_of_mem ?_)
  intro a b ha hb hne heq
  obtain ⟨rest, hrest⟩ := hid a ha
  obtain ⟨rest', hrest'⟩ := hid b hb
  exact hne ((hproducts a ha).eq_of_behind (hproducts b hb) hrest hrest' heq)

/-- Of items about distinct products, the lists of ids behind the products are
disjoint. -/
theorem nodup_flatMap_behind {α : Type} {provider : InvestmentProvider} {items : List α}
    {productId : α → String} {ids : α → List String}
    (hproducts : ∀ a ∈ items, IsProductId provider (productId a))
    (hnodup : (items.map productId).Nodup) (heach : ∀ a ∈ items, (ids a).Nodup)
    (hid : ∀ a ∈ items, ∀ id ∈ ids a, ∃ rest, id.toList = (productId a).toList ++ ':' :: rest) :
    (items.flatMap ids).Nodup := by
  refine List.nodup_flatMap.mpr ⟨heach, (List.pairwise_map.mp hnodup).imp_of_mem ?_⟩
  intro a b ha hb hne id hida hidb
  obtain ⟨rest, hrest⟩ := hid a ha id hida
  obtain ⟨rest', hrest'⟩ := hid b hb id hidb
  exact hne ((hproducts a ha).eq_of_behind (hproducts b hb) hrest hrest' rfl)

section
variable {productId : String} {tracks : List InvestmentTrack}

/-- The ids of a product's tracks have nothing to trim. -/
theorem trackIds_trimmed (hproduct : IsIdText productId)
    (h : ∀ track ∈ tracks, track.productId = productId ∧
      ∃ sourceId, investmentTrackId productId sourceId = .ok track.id) :
    (tracks.map (·.trimmed)).map (·.id) = tracks.map (·.id) := by
  rw [List.map_map]
  refine List.map_congr_left fun track htrack => ?_
  obtain ⟨-, sourceId, hid⟩ := h track htrack
  exact ((trackId_spec hid).2 hproduct).trimmed

/-- Trimmed tracks keep their product and their ids. -/
theorem tracks_trimmed (hproduct : IsIdText productId)
    (h : ∀ track ∈ tracks, track.productId = productId ∧
      ∃ sourceId, investmentTrackId productId sourceId = .ok track.id) :
    ∀ track ∈ tracks.map (·.trimmed), track.productId = productId ∧
      ∃ sourceId, investmentTrackId productId sourceId = .ok track.id := by
  intro track htrack
  obtain ⟨old, hold, rfl⟩ := List.mem_map.mp htrack
  obtain ⟨hproductId, sourceId, hid⟩ := h old hold
  refine ⟨?_, sourceId, ?_⟩
  · change jsTrim old.productId = _
    rw [hproductId]
    exact hproduct.trimmed
  · change _ = Except.ok (jsTrim old.id)
    rw [((trackId_spec hid).2 hproduct).trimmed]
    exact hid

/-- Trimming leaves the amounts alone. -/
theorem trackCents_trimmed :
    (tracks.map (·.trimmed)).map trackCents = tracks.map trackCents := by
  rw [List.map_map]
  rfl

end

end SimplefinBridge
