import Mathlib.Data.Rat.Floor
import Mathlib.Data.Rat.Defs
import SimplefinBridge.Library.CivilDays

/-!
# The JavaScript host

What the bridge takes from its host: strings, numbers and a few library
functions.  A JavaScript number is modelled by the rational its decimal text
spells (the bridge lets no `NaN` or infinity into a ledger row), an instant by
its milliseconds since the epoch, a calendar date by its text.

Operations that the language defines exactly are defined here.  Everything
else — number texts with an exponent or a fraction, Unicode case mapping, the
time zone database, collation, hashing, the formats a validation library
accepts — is a field of `Host`, so that every theorem holds whatever these
return.
-/

namespace SimplefinBridge

/-- `Date.getTime()`: milliseconds since the epoch. -/
abbrev Instant := Int

/-- ISO calendar date `YYYY-MM-DD`, as text. -/
abbrev IsoDate := String

/-- The library functions the code calls and this development does not
define. -/
structure Host where
  /-- `Number(text)` where the text is not a plain run of digits; `none` when
  the result is not finite. -/
  parseNumber : String → Option ℚ
  /-- `String(x)` where `x` is not an integer below 10²¹. -/
  formatNumber : ℚ → String
  /-- Numbers are printed without NUL. -/
  formatNumber_noNul : ∀ x, '\x00' ∉ (formatNumber x).toList
  /-- `String.prototype.toUpperCase` -/
  toUpperCase : String → String
  /-- `String.prototype.toLowerCase` -/
  toLowerCase : String → String
  /-- `text.toLowerCase().normalize('NFKD')` -/
  toLowerNfkd : String → String
  /-- `toCalendarDate(value, timezone)` of a text; `none` when it throws. -/
  momentDate : String → String → Option IsoDate
  /-- `Intl.DateTimeFormat('en-CA', {timeZone})` of an instant. -/
  intlDate : Instant → String → IsoDate
  /-- `new Date(date + 'T00:00:00.000Z').getTime()`; `none` for an invalid date. -/
  utcMidnight : IsoDate → Option Instant
  /-- `z.uuid()` accepts the text. -/
  isUuid : String → Bool
  /-- `z.iso.date()` accepts the text. -/
  isIsoDate : String → Bool
  /-- `value * 100`, the product of two floating numbers: `1.005 * 100` is
  `100.49999999999999`. -/
  timesHundred : ℚ → ℚ
  /-- The product of a whole number of cents is nearest to that number. -/
  timesHundred_cents : ∀ cents : ℤ, ⌊timesHundred (cents / 100) + 1 / 2⌋ = cents
  /-- `sha256`, in hexadecimal. -/
  sha256 : String → String
  /-- `a.localeCompare(b)` -/
  localeCompare : String → String → Ordering
  [collation : Std.TransCmp localeCompare]

attribute [instance] Host.collation

/-- Items sorted by the collation of their keys are in its order. -/
theorem Host.sorted_mergeSort (host : Host) {α : Type} (key : α → String) (items : List α) :
    (items.mergeSort fun a b => (host.localeCompare (key a) (key b)).isLE).Pairwise
      fun a b => (host.localeCompare (key a) (key b)).isLE = true := by
  refine List.pairwise_mergeSort ?_ ?_ items
  · exact fun a b c hab hbc => Std.TransCmp.isLE_trans hab hbc
  · intro a b
    cases hcompare : host.localeCompare (key a) (key b) with
    | lt => rfl
    | eq => rfl
    | gt =>
        rw [Std.OrientedCmp.lt_of_gt hcompare]
        rfl

/-! ## Strings -/

/-- JavaScript white space and line terminators. -/
def isJsSpace (c : Char) : Bool :=
  c.val ∈ [0x09, 0x0A, 0x0B, 0x0C, 0x0D, 0x20, 0xA0, 0x1680, 0x2028, 0x2029, 0x202F, 0x205F,
    0x3000, 0xFEFF] || (0x2000 ≤ c.val && c.val ≤ 0x200A)

/-- What a check says of every character of a text. -/
theorem forall_char_of_all {p : Char → Prop} [DecidablePred p] {cs : List Char}
    (h : (cs.all fun c => p c) = true) : ∀ c ∈ cs, p c :=
  fun c hc => of_decide_eq_true (List.all_eq_true.mp h c hc)

/-- `String.prototype.trim` -/
def jsTrim (s : String) : String :=
  String.ofList ((s.toList.dropWhile isJsSpace).reverse.dropWhile isJsSpace).reverse

/-- UTF-16 code units of a character. -/
def utf16Size (c : Char) : Nat := if c.val < 0x10000 then 1 else 2

/-- `String.prototype.length` -/
def jsLength (s : String) : Nat := (s.toList.map utf16Size).sum

theorem jsLength_append (a b : String) : jsLength (a ++ b) = jsLength a + jsLength b := by
  unfold jsLength
  rw [String.toList_append, List.map_append, List.sum_append]

/-- `s.slice(-n)` of a text in the basic plane. -/
def jsSliceLast (n : Nat) (s : String) : String := String.ofList (s.toList.reverse.take n).reverse

/-- `/^[A-Z]{3}$/` -/
def isCurrencyCode (text : String) : Bool :=
  text.toList.length = 3 && text.toList.all fun c => 'A' ≤ c && c ≤ 'Z'

/-- The UTF-16 code units of a character. -/
def utf16Units (c : Char) : List Nat :=
  if c.val < 0x10000 then [c.toNat]
  else [0xD800 + (c.toNat - 0x10000) / 0x400, 0xDC00 + (c.toNat - 0x10000) % 0x400]

def jsUnits (s : String) : List Nat := s.toList.flatMap utf16Units

/-- `a < b` on strings -/
def jsLess (a b : String) : Bool := jsUnits a < jsUnits b

def hexDigit (n : Nat) : Char := "0123456789ABCDEF".toList.getD n '0'

/-- The characters `encodeURIComponent` leaves alone. -/
def isUriUnreserved (c : Char) : Bool :=
  c.isAlphanum || c ∈ ['-', '_', '.', '!', '~', '*', '\'', '(', ')']

/-- `%XX` for every UTF-8 byte of a character. -/
def percentEncode (c : Char) : List Char :=
  (String.utf8EncodeChar c).flatMap fun byte =>
    ['%', hexDigit (byte.toNat / 16), hexDigit (byte.toNat % 16)]

def encodeURIComponent (s : String) : String :=
  String.ofList (s.toList.flatMap fun c => if isUriUnreserved c then [c] else percentEncode c)

/-! ## Numbers -/

/-- `Number.MAX_SAFE_INTEGER` -/
def maxSafeInteger : ℚ := 9007199254740991

/-- `Number.isSafeInteger` -/
def isSafeInteger (x : ℚ) : Bool := x.den = 1 && |x| ≤ maxSafeInteger

/-- A text of at most fifteen digits, whose number is exact. -/
def isDigits (s : String) : Bool :=
  s ≠ "" && s.toList.length ≤ 15 && s.toList.all Char.isDigit

namespace Host

variable (host : Host)

/-- `Number(text)`; `none` stands for `NaN` and the infinities. -/
def number (s : String) : Option ℚ :=
  if isDigits s then some (Nat.ofDigitChars 10 s.toList 0 : Nat) else host.parseNumber s

/-- `Math.round(value * 100) / 100` -/
def roundMoney (value : ℚ) : ℚ := (⌊host.timesHundred value + 1 / 2⌋ : ℚ) / 100

/-- Whole cents are kept. -/
theorem roundMoney_cents (cents : ℤ) : host.roundMoney (cents / 100) = cents / 100 := by
  unfold roundMoney
  rw [host.timesHundred_cents]

/-- `String(x)` -/
def numberToString (x : ℚ) : String :=
  if x.den = 1 ∧ |x| < 10 ^ 21 then toString x.num else host.formatNumber x

/-- `x.toFixed(2)`: the nearest hundredth, ties away from zero, and a minus
sign for every negative number (`-0.001` gives `-0.00`). -/
def toFixed2 (x : ℚ) : String :=
  if |x| < 10 ^ 21 then
    let hundredths := (⌊|x| * 100 + 1 / 2⌋).toNat
    (if x < 0 then "-" else "") ++ toString (hundredths / 100) ++ "." ++
      (if hundredths % 100 < 10 then "0" else "") ++ toString (hundredths % 100)
  else host.numberToString x

end Host

/-! ## Printed numbers -/

theorem mem_toString_nat {n : Nat} {c : Char} (h : c ∈ (toString n).toList) :
    c.isDigit = true := by
  change c ∈ n.repr.toList at h
  rw [Nat.toList_repr] at h
  exact Nat.isDigit_of_mem_toDigits (by decide) (by decide) h

/-- The characters of an integer. -/
theorem mem_toString_int {n : Int} {c : Char} (h : c ∈ (toString n).toList) :
    c = '-' ∨ c.isDigit = true := by
  cases n with
  | ofNat k => exact .inr (mem_toString_nat h)
  | negSucc k =>
      change c ∈ ("-" ++ (k + 1).repr).toList at h
      rw [String.toList_append] at h
      rcases List.mem_append.mp h with hsign | hdigits
      · exact .inl (List.mem_singleton.mp hsign)
      · exact .inr (mem_toString_nat hdigits)

/-- A number is printed with two decimals in digits, a sign and a point, or as `String` prints
it. -/
theorem Host.mem_toFixed2 (host : Host) {x : ℚ} {c : Char} (h : c ∈ (host.toFixed2 x).toList) :
    c = '-' ∨ c = '.' ∨ c.isDigit = true ∨ c ∈ (host.numberToString x).toList := by
  unfold Host.toFixed2 at h
  by_cases hsmall : |x| < 10 ^ 21
  · rw [if_pos hsmall] at h
    simp only [String.toList_append, List.mem_append] at h
    rcases h with (((hsign | hwhole) | hpoint) | hzero) | hcents
    · split_ifs at hsign
      · exact .inl (List.mem_singleton.mp hsign)
      · exact absurd hsign List.not_mem_nil
    · exact .inr (.inr (.inl (mem_toString_nat hwhole)))
    · exact .inr (.inl (List.mem_singleton.mp hpoint))
    · split_ifs at hzero
      · rw [List.mem_singleton.mp hzero]
        exact .inr (.inr (.inl rfl))
      · exact absurd hzero List.not_mem_nil
    · exact .inr (.inr (.inl (mem_toString_nat hcents)))
  · rw [if_neg hsmall] at h
    exact .inr (.inr (.inr h))

theorem Host.mem_numberToString (host : Host) {x : ℚ} {c : Char}
    (h : c ∈ (host.numberToString x).toList) :
    c = '-' ∨ c.isDigit = true ∨ c ∈ (host.formatNumber x).toList := by
  unfold Host.numberToString at h
  split_ifs at h
  · rcases mem_toString_int h with hsign | hdigit
    · exact .inl hsign
    · exact .inr (.inl hdigit)
  · exact .inr (.inr h)

/-- Amounts are printed without NUL. -/
theorem Host.toFixed2_noNul (host : Host) (x : ℚ) : '\x00' ∉ (host.toFixed2 x).toList := by
  intro h
  rcases host.mem_toFixed2 h with heq | heq | hdigit | htext
  · exact absurd heq (by decide)
  · exact absurd heq (by decide)
  · exact absurd hdigit (by decide)
  · rcases host.mem_numberToString htext with heq | hdigit | hformat
    · exact absurd heq (by decide)
    · exact absurd hdigit (by decide)
    · exact host.formatNumber_noNul x hformat

/-- The day number of a text `YYYY-MM-DD`. -/
def dayOfText (date : String) : Option Int :=
  match (date.toList.splitOn '-').map fun part => Nat.ofDigitChars 10 part 0 with
  | [year, month, day] => some (CivilDays.CivilDate.dayNumber ⟨year, month, day⟩)
  | _ => none

/-- A host for ASCII texts in UTC: dates are the first ten characters of a
timestamp, and hashing is the identity. -/
def asciiHost : Host where
  parseNumber _ := none
  formatNumber _ := ""
  formatNumber_noNul _ := List.not_mem_nil
  toUpperCase s := String.ofList (s.toList.map Char.toUpper)
  toLowerCase s := String.ofList (s.toList.map Char.toLower)
  toLowerNfkd s := String.ofList (s.toList.map Char.toLower)
  momentDate value _ := some (String.ofList (value.toList.take 10))
  intlDate instant _ := (CivilDays.CivilDate.ofDayNumber (instant / 86400000)).text
  utcMidnight date := (dayOfText date).map (· * 86400000)
  isUuid s := s.toList.length = 36
  isIsoDate s := s.toList.length = 10
  timesHundred x := x * 100
  timesHundred_cents cents := by
    have hcents : (cents / 100 * 100 : ℚ) = cents := div_mul_cancel₀ _ (by norm_num)
    rw [hcents, Int.floor_intCast_add]
    norm_num
  sha256 s := s
  localeCompare := compare

example : asciiHost.toFixed2 (-97 / 2) = "-48.50" := by decide +kernel

example : asciiHost.intlDate 1772323200000 "UTC" = "2026-03-01" := by decide +kernel

end SimplefinBridge
