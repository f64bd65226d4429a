import Mathlib.Data.Nat.Digits.Defs
import Mathlib.Tactic.Ring

/-!
# Calendar dates and day numbers

The proleptic Gregorian calendar as a numbering of days: `dayNumber` counts
the days since 1970-01-01 and `ofDayNumber` is its inverse.  Both orders of
dates in use agree with it: the order of year, month and day
(`dayNumber_lt_iff`) and, for years of four digits, the order of the texts
`YYYY-MM-DD` (`units_lt_iff`).
-/

namespace CivilDays

/-- A year, a month and a day. -/
structure CivilDate where
  year : Int
  month : Nat
  day : Nat
  deriving DecidableEq, Repr

/-! ## Months -/

/-- The lengths of the months. -/
def monthLengths (leap : Bool) : List Nat :=
  [31, if leap then 29 else 28, 31, 30, 31, 30, 31, 31, 30, 31, 30, 31]

/-- The length of a month. -/
def daysInMonth (leap : Bool) (month : Nat) : Nat := (monthLengths leap).getD (month - 1) 0

/-- Days of the year before the first of a month. -/
def daysBeforeMonth (leap : Bool) (month : Nat) : Nat :=
  ((monthLengths leap).take (month - 1)).sum

/-- The length of a year. -/
def yearLength (leap : Bool) : Nat := if leap then 366 else 365

/-- A month begins where the one before it ends. -/
theorem daysBeforeMonth_step (leap : Bool) (month : Nat) (hlow : 1 ≤ month) (hhigh : month ≤ 12) :
    daysBeforeMonth leap month + daysInMonth leap month =
      if month = 12 then yearLength leap else daysBeforeMonth leap (month + 1) := by
  have hall : ∀ leap : Bool, ∀ k < 12, daysBeforeMonth leap (k + 1) + daysInMonth leap (k + 1) =
      if k + 1 = 12 then yearLength leap else daysBeforeMonth leap (k + 2) := by decide
  obtain ⟨k, rfl⟩ : ∃ k, month = k + 1 := ⟨month - 1, by omega⟩
  exact hall leap k (by omega)

/-- A later month begins after an earlier one has ended. -/
theorem daysBeforeMonth_mono (leap : Bool) {a b : Nat} (hlow : 1 ≤ a) (hlt : a < b)
    (hhigh : b ≤ 12) :
    daysBeforeMonth leap a + daysInMonth leap a ≤ daysBeforeMonth leap b := by
  induction b, hlt using Nat.le_induction with
  | base =>
      have hstep := daysBeforeMonth_step leap a hlow (by omega)
      rw [if_neg (by omega)] at hstep
      exact hstep.le
  | succ b hb ih =>
      have hprev := ih (by omega)
      have hstep := daysBeforeMonth_step leap b (by omega) (by omega)
      rw [if_neg (by omega)] at hstep
      omega

/-- The months end within the year. -/
theorem daysBeforeMonth_le_yearLength (leap : Bool) {month : Nat} (hlow : 1 ≤ month)
    (hhigh : month ≤ 12) :
    daysBeforeMonth leap month + daysInMonth leap month ≤ yearLength leap := by
  have hlast := daysBeforeMonth_step leap 12 (by omega) (by omega)
  rw [if_pos rfl] at hlast
  rcases Nat.lt_or_ge month 12 with hlt | hge
  · have hmono := daysBeforeMonth_mono leap hlow hlt (le_refl 12)
    omega
  · obtain rfl : month = 12 := by omega
    omega

/-- The month that holds a day of the year. -/
def monthOfDay (leap : Bool) (dayOfYear : Nat) : Nat :=
  ((List.range 12).filter fun k => daysBeforeMonth leap (k + 1) ≤ dayOfYear).length

/-- The month that a day of the year falls in. -/
theorem monthOfDay_spec (leap : Bool) (dayOfYear : Nat) (h : dayOfYear < yearLength leap) :
    1 ≤ monthOfDay leap dayOfYear ∧ monthOfDay leap dayOfYear ≤ 12 ∧
      daysBeforeMonth leap (monthOfDay leap dayOfYear) ≤ dayOfYear ∧
      dayOfYear < daysBeforeMonth leap (monthOfDay leap dayOfYear) +
        daysInMonth leap (monthOfDay leap dayOfYear) := by
  cases leap
  · revert h
    revert dayOfYear
    decide +kernel
  · revert h
    revert dayOfYear
    decide +kernel

/-! ## Years -/

/-- The Gregorian rule. -/
def isLeap (year : Int) : Bool := year % 4 = 0 && (year % 100 ≠ 0 || year % 400 = 0)

/-- Days from 0001-01-01 to the first day of a year. -/
def daysBeforeYear (year : Int) : Int :=
  365 * (year - 1) + (year - 1) / 4 - (year - 1) / 100 + (year - 1) / 400

/-- A year begins where the one before it ends. -/
theorem daysBeforeYear_succ (year : Int) :
    daysBeforeYear (year + 1) = daysBeforeYear year + yearLength (isLeap year) := by
  unfold daysBeforeYear yearLength isLeap
  by_cases h4 : year % 4 = 0
  · by_cases h100 : year % 100 = 0
    · by_cases h400 : year % 400 = 0
      · simp only [h4, h100, h400, decide_true, Bool.and_true, Bool.or_true, if_true]
        omega
      · simp only [h4, h100, h400, decide_true, ne_eq, not_true_eq_false, decide_false,
          Bool.or_false, Bool.and_false]
        simp only [Bool.false_eq_true, if_false]
        omega
    · simp only [h4, h100, decide_true, ne_eq, not_false_eq_true, Bool.true_or, Bool.and_true,
        if_true]
      omega
  · simp only [h4, decide_false, Bool.false_and, Bool.false_eq_true, if_false]
    omega

/-- No year is empty. -/
theorem yearLength_pos (leap : Bool) : 0 < yearLength leap := by
  cases leap <;> decide

/-- A later year begins after an earlier one has ended. -/
theorem daysBeforeYear_mono {a b : Int} (h : a < b) :
    daysBeforeYear a + yearLength (isLeap a) ≤ daysBeforeYear b := by
  induction b, h using Int.leInduction with
  | base =>
      rw [daysBeforeYear_succ]
  | succ b _ ih =>
      rw [daysBeforeYear_succ]
      have hpos := yearLength_pos (isLeap b)
      omega

/-- The year that holds a day counted from 0001-01-01: whole cycles of 400,
100, 4 and 1 years. -/
def yearOfDay (day : Int) : Int :=
  let cycle := day / 146097
  let inCycle := day % 146097
  let century := min (inCycle / 36524) 3
  let inCentury := inCycle - century * 36524
  let quad := inCentury / 1461
  let inQuad := inCentury % 1461
  let year := min (inQuad / 365) 3
  400 * cycle + 100 * century + 4 * quad + year + 1

/-- Leap years by their place in the cycles. -/
theorem isLeap_of_cycles {a b c d year : Int} (hyear : year = 400 * a + 100 * b + 4 * c + d + 1)
    (hb : 0 ≤ b ∧ b ≤ 3) (hc : 0 ≤ c ∧ c ≤ 24) (hd : 0 ≤ d ∧ d ≤ 3) :
    isLeap year = true ↔ d = 3 ∧ (c ≠ 24 ∨ b = 3) := by
  unfold isLeap
  simp only [Bool.and_eq_true, Bool.or_eq_true, decide_eq_true_eq]
  omega

/-- The days before a year by its place in the cycles. -/
theorem daysBeforeYear_of_cycles {a b c d year : Int}
    (hyear : year = 400 * a + 100 * b + 4 * c + d + 1)
    (hb : 0 ≤ b ∧ b ≤ 3) (hc : 0 ≤ c ∧ c ≤ 24) (hd : 0 ≤ d ∧ d ≤ 3) :
    daysBeforeYear year = 146097 * a + 36524 * b + 1461 * c + 365 * d := by
  have h4 : (year - 1) / 4 = 100 * a + 25 * b + c := by omega
  have h100 : (year - 1) / 100 = 4 * a + b := by omega
  have h400 : (year - 1) / 400 = a := by omega
  unfold daysBeforeYear
  rw [h4, h100, h400, hyear]
  ring

/-- Cutting a 400-year cycle into centuries, quads and years. -/
theorem cycle_split {r b c q d : Int} (hr : 0 ≤ r ∧ r < 146097) (hb : b = min (r / 36524) 3)
    (hc : c = (r - b * 36524) / 1461) (hq : q = (r - b * 36524) % 1461)
    (hd : d = min (q / 365) 3) :
    (0 ≤ b ∧ b ≤ 3) ∧ (0 ≤ c ∧ c ≤ 24) ∧ (0 ≤ d ∧ d ≤ 3) ∧
      r = 36524 * b + 1461 * c + q ∧ 365 * d ≤ q ∧ q < 365 * d + 366 ∧
      (q = 365 * d + 365 → d = 3 ∧ (c ≠ 24 ∨ b = 3)) := by
  have hb' : 0 ≤ b ∧ b ≤ 3 := by omega
  have hlow : 0 ≤ r - b * 36524 := by omega
  have hhigh : r - b * 36524 < 36524 ∨ (b = 3 ∧ r - b * 36524 < 36525) := by omega
  have hc' : 0 ≤ c ∧ c ≤ 24 := by omega
  have hsplit : r = 36524 * b + 1461 * c + q := by omega
  have hq' : 0 ≤ q ∧ q < 1461 := by omega
  have hd' : 0 ≤ d ∧ d ≤ 3 := by omega
  have hday : 365 * d ≤ q ∧ q < 365 * d + 366 := by omega
  refine ⟨hb', hc', hd', hsplit, hday.1, hday.2, ?_⟩
  intro hlast
  omega

/-- The year that a day falls in. -/
theorem yearOfDay_spec (day : Int) :
    daysBeforeYear (yearOfDay day) ≤ day ∧
      day < daysBeforeYear (yearOfDay day) + yearLength (isLeap (yearOfDay day)) := by
  obtain ⟨a, ha⟩ : ∃ a, a = day / 146097 := ⟨_, rfl⟩
  obtain ⟨r, hr⟩ : ∃ r, r = day % 146097 := ⟨_, rfl⟩
  obtain ⟨b, hb⟩ : ∃ b, b = min (r / 36524) 3 := ⟨_, rfl⟩
  obtain ⟨c, hc⟩ : ∃ c, c = (r - b * 36524) / 1461 := ⟨_, rfl⟩
  obtain ⟨q, hq⟩ : ∃ q, q = (r - b * 36524) % 1461 := ⟨_, rfl⟩
  obtain ⟨d, hd⟩ : ∃ d, d = min (q / 365) 3 := ⟨_, rfl⟩
  have hyear : yearOfDay day = 400 * a + 100 * b + 4 * c + d + 1 := by
    rw [ha, hd, hq, hc, hb, hr]
    rfl
  have hday : day = 146097 * a + r := by omega
  have hbound : 0 ≤ r ∧ r < 146097 := by omega
  obtain ⟨hb', hc', hd', hsplit, hlow, hhigh, hlast⟩ := cycle_split hbound hb hc hq hd
  have hleap := isLeap_of_cycles hyear hb' hc' hd'
  rw [daysBeforeYear_of_cycles hyear hb' hc' hd']
  clear hb hc hq hd ha hr
  cases hval : isLeap (yearOfDay day) with
  | true =>
      simp only [yearLength, if_true]
      omega
  | false =>
      have hnot : q ≠ 365 * d + 365 := by
        intro h
        rw [hleap.mpr (hlast h)] at hval
        cases hval
      simp only [yearLength, Bool.false_eq_true, if_false]
      omega

/-! ## Dates -/

namespace CivilDate

/-- A date of the calendar. -/
structure Valid (c : CivilDate) : Prop where
  month_pos : 1 ≤ c.month
  month_le : c.month ≤ 12
  day_pos : 1 ≤ c.day
  day_le : c.day ≤ daysInMonth (isLeap c.year) c.month

instance (c : CivilDate) : Decidable c.Valid :=
  decidable_of_iff
    (1 ≤ c.month ∧ c.month ≤ 12 ∧ 1 ≤ c.day ∧ c.day ≤ daysInMonth (isLeap c.year) c.month)
    ⟨fun ⟨h₁, h₂, h₃, h₄⟩ => ⟨h₁, h₂, h₃, h₄⟩, fun ⟨h₁, h₂, h₃, h₄⟩ => ⟨h₁, h₂, h₃, h₄⟩⟩

/-- Days since 1970-01-01. -/
def dayNumber (c : CivilDate) : Int :=
  daysBeforeYear c.year + daysBeforeMonth (isLeap c.year) c.month + c.day - 719163

/-- The order of year, month and day. -/
def Before (a b : CivilDate) : Prop :=
  a.year < b.year ∨ (a.year = b.year ∧
    (a.month < b.month ∨ (a.month = b.month ∧ a.day < b.day)))

/-- A later date has a greater number. -/
theorem dayNumber_lt_of_before {a b : CivilDate} (ha : a.Valid) (hb : b.Valid)
    (h : a.Before b) : a.dayNumber < b.dayNumber := by
  obtain ⟨hma, hma', hda, hda'⟩ := ha
  obtain ⟨hmb, hmb', hdb, hdb'⟩ := hb
  unfold dayNumber
  rcases h with hyear | ⟨hyear, hmonth | ⟨hmonth, hday⟩⟩
  · have hmono := daysBeforeYear_mono hyear
    have hend := daysBeforeMonth_le_yearLength (isLeap a.year) hma hma'
    omega
  · rw [← hyear]
    have hmono := daysBeforeMonth_mono (isLeap a.year) hma hmonth hmb'
    omega
  · rw [← hyear, ← hmonth]
    omega

/-- **The calendar order is the order of day numbers.** -/
theorem dayNumber_lt_iff {a b : CivilDate} (ha : a.Valid) (hb : b.Valid) :
    a.dayNumber < b.dayNumber ↔ a.Before b := by
  constructor
  · intro hlt
    by_contra hnot
    have hrest : a = b ∨ b.Before a := by
      unfold Before at hnot ⊢
      by_cases hsame : a.year = b.year ∧ a.month = b.month ∧ a.day = b.day
      · left
        cases a
        cases b
        simp_all
      · right
        omega
    rcases hrest with rfl | hbefore
    · exact absurd hlt (Int.lt_irrefl _)
    · have hgt := dayNumber_lt_of_before hb ha hbefore
      omega
  · exact dayNumber_lt_of_before ha hb

/-- The date of a day number. -/
def ofDayNumber (n : Int) : CivilDate :=
  let day := n + 719162
  let year := yearOfDay day
  let dayOfYear := (day - daysBeforeYear year).toNat
  let month := monthOfDay (isLeap year) dayOfYear
  ⟨year, month, dayOfYear - daysBeforeMonth (isLeap year) month + 1⟩

/-- **Every number is the number of one date.** -/
theorem ofDayNumber_spec (n : Int) :
    (ofDayNumber n).Valid ∧ (ofDayNumber n).dayNumber = n := by
  obtain ⟨hlow, hhigh⟩ := yearOfDay_spec (n + 719162)
  obtain ⟨year, hyear⟩ : ∃ year, year = yearOfDay (n + 719162) := ⟨_, rfl⟩
  obtain ⟨dayOfYear, hdayOfYear⟩ : ∃ d, d = (n + 719162 - daysBeforeYear year).toNat := ⟨_, rfl⟩
  rw [← hyear] at hlow hhigh
  have hdate : ofDayNumber n = ⟨year, monthOfDay (isLeap year) dayOfYear,
      dayOfYear - daysBeforeMonth (isLeap year) (monthOfDay (isLeap year) dayOfYear) + 1⟩ := by
    rw [hdayOfYear, hyear]
    rfl
  obtain ⟨hpos, hle, hstart, hend⟩ := monthOfDay_spec (isLeap year) dayOfYear (by omega)
  rw [hdate]
  refine ⟨⟨hpos, hle, ?_, ?_⟩, ?_⟩
  · dsimp only
    omega
  · dsimp only
    omega
  · unfold dayNumber
    dsimp only
    omega

/-- A later day is not in an earlier year. -/
theorem year_le_of_dayNumber_le {a b : CivilDate} (ha : a.Valid) (hb : b.Valid)
    (h : a.dayNumber ≤ b.dayNumber) : a.year ≤ b.year := by
  by_contra hgt
  have hbefore : b.Before a := Or.inl (by omega)
  have hlt := dayNumber_lt_of_before hb ha hbefore
  omega

end CivilDate

/-! ## Texts -/

/-- The last `width` decimal digits of a number. -/
def padded : Nat → Nat → List Char
  | 0, _ => []
  | width + 1, n => padded width (n / 10) ++ [Nat.digitChar (n % 10)]

/-- The code of the last digit. -/
theorem toNat_digitChar_mod (n : Nat) : (Nat.digitChar (n % 10)).toNat = 48 + n % 10 := by
  rw [Nat.toNat_digitChar_of_lt_ten (by omega)]

/-- A padded number has its width. -/
theorem length_padded (width n : Nat) : (padded width n).length = width := by
  induction width generalizing n with
  | zero => rfl
  | succ width ih => simp [padded, ih]

/-- It is written in digits. -/
theorem isDigit_of_mem_padded {width n : Nat} {c : Char} (h : c ∈ padded width n) :
    c.isDigit = true := by
  induction width generalizing n with
  | zero => cases h
  | succ width ih =>
      rcases List.mem_append.mp h with h | h
      · exact ih h
      · obtain rfl := List.mem_singleton.mp h
        have hall : ∀ k < 10, (Nat.digitChar k).isDigit = true := by decide
        exact hall (n % 10) (by omega)

/-- It is read back. -/
theorem ofDigitChars_padded {width n : Nat} (h : n < 10 ^ width) :
    Nat.ofDigitChars 10 (padded width n) 0 = n := by
  induction width generalizing n with
  | zero =>
      rw [pow_zero] at h
      obtain rfl : n = 0 := by omega
      rfl
  | succ width ih =>
      have hdiv : n / 10 < 10 ^ width := by
        rw [pow_succ] at h
        omega
      have hinitial := ih hdiv
      have hdigit := toNat_digitChar_mod n
      have hzero : '0'.toNat = 48 := rfl
      rw [Nat.ofDigitChars_eq_foldl] at hinitial ⊢
      rw [padded, List.foldl_append, hinitial, List.foldl_cons, List.foldl_nil, hdigit, hzero]
      omega

/-- Fixed-width numerals are ordered as their numbers. -/
theorem padded_lt_iff {width m n : Nat} (hm : m < 10 ^ width) (hn : n < 10 ^ width)
    (as bs : List Nat) :
    (padded width m).map Char.toNat ++ as < (padded width n).map Char.toNat ++ bs ↔
      m < n ∨ (m = n ∧ as < bs) := by
  induction width generalizing m n as bs with
  | zero =>
      rw [pow_zero] at hm hn
      obtain rfl : m = 0 := by omega
      obtain rfl : n = 0 := by omega
      simp [padded]
  | succ width ih =>
      rw [pow_succ] at hm hn
      have hstep := ih (m := m / 10) (n := n / 10) (by omega) (by omega)
        ((48 + m % 10) :: as) ((48 + n % 10) :: bs)
      simp only [padded, List.map_append, List.map_cons, List.map_nil, toNat_digitChar_mod,
        List.append_assoc, List.singleton_append]
      rw [hstep, List.cons_lt_cons_iff]
      by_cases has : as < bs
      · simp only [has, and_true]
        omega
      · simp only [has, and_false, or_false]
        omega

namespace CivilDate

/-- `YYYY-MM-DD` -/
def chars (c : CivilDate) : List Char :=
  padded 4 c.year.toNat ++ '-' :: (padded 2 c.month ++ '-' :: padded 2 c.day)

/-- `YYYY-MM-DD` -/
def text (c : CivilDate) : String := String.ofList c.chars

/-- Texts are compared by their code units. -/
def units (c : CivilDate) : List Nat := c.chars.map Char.toNat

/-- No month has more than 31 days. -/
theorem daysInMonth_le (leap : Bool) (month : Nat) : daysInMonth leap month ≤ 31 := by
  unfold daysInMonth
  rw [List.getD_eq_getElem?_getD]
  cases hget : (monthLengths leap)[month - 1]? with
  | none => simp
  | some days =>
      have hmem := List.mem_of_getElem? hget
      have hall : ∀ leap, ∀ d ∈ monthLengths leap, d ≤ 31 := by decide
      exact hall leap days hmem

/-- Different dates have different numbers. -/
theorem dayNumber_inj {a b : CivilDate} (ha : a.Valid) (hb : b.Valid) :
    a.dayNumber = b.dayNumber ↔ a = b := by
  constructor
  · intro h
    have hab : ¬a.Before b := by
      rw [← dayNumber_lt_iff ha hb, h]
      exact lt_irrefl _
    have hba : ¬b.Before a := by
      rw [← dayNumber_lt_iff hb ha, h]
      exact lt_irrefl _
    unfold Before at hab hba
    obtain ⟨ya, ma, da⟩ := a
    obtain ⟨yb, mb, db⟩ := b
    dsimp only at hab hba
    rw [CivilDate.mk.injEq]
    omega
  · intro h
    rw [h]

/-- **Texts of four-digit years are ordered as their dates**, and by what
follows when the dates agree. -/
theorem units_append_lt_iff {a b : CivilDate} (ha : a.Valid) (hb : b.Valid)
    (hya : 0 ≤ a.year ∧ a.year ≤ 9999) (hyb : 0 ≤ b.year ∧ b.year ≤ 9999) (as bs : List Nat) :
    a.units ++ as < b.units ++ bs ↔
      a.dayNumber < b.dayNumber ∨ (a.dayNumber = b.dayNumber ∧ as < bs) := by
  rw [dayNumber_lt_iff ha hb, dayNumber_inj ha hb]
  have hma := ha.month_le
  have hmb := hb.month_le
  have hda := ha.day_le.trans (daysInMonth_le _ _)
  have hdb := hb.day_le.trans (daysInMonth_le _ _)
  unfold units chars Before
  simp only [List.map_append, List.map_cons, List.append_assoc, List.cons_append]
  rw [padded_lt_iff (by omega) (by omega), List.cons_lt_cons_iff,
    padded_lt_iff (by omega) (by omega), List.cons_lt_cons_iff, padded_lt_iff (by omega) (by omega)]
  obtain ⟨ya, ma, da⟩ := a
  obtain ⟨yb, mb, db⟩ := b
  dsimp only at *
  rw [CivilDate.mk.injEq]
  by_cases has : as < bs
  · simp only [has, and_true, true_and, lt_irrefl, false_or]
    omega
  · simp only [has, and_false, or_false, true_and, lt_irrefl, false_or]
    omega

/-- **Texts of dates are in the order of the days.** -/
theorem units_lt_iff {a b : CivilDate} (ha : a.Valid) (hb : b.Valid)
    (hya : 0 ≤ a.year ∧ a.year ≤ 9999) (hyb : 0 ≤ b.year ∧ b.year ≤ 9999) :
    a.units < b.units ↔ a.dayNumber < b.dayNumber := by
  have h := units_append_lt_iff ha hb hya hyb [] []
  simp only [List.append_nil, List.lt_irrefl, and_false, or_false] at h
  exact h

/-- The three numbers of a date. -/
theorem splitOn_chars (c : CivilDate) :
    c.chars.splitOn '-' = [padded 4 c.year.toNat, padded 2 c.month, padded 2 c.day] := by
  have hdash : ∀ width n, '-' ∉ padded width n := by
    intro width n hmem
    have hdigit := isDigit_of_mem_padded hmem
    revert hdigit
    decide
  unfold chars
  rw [List.splitOn_append_cons_self_of_not_mem (hdash _ _),
    List.splitOn_append_cons_self_of_not_mem (hdash _ _), List.splitOn_eq_singleton (hdash _ _)]

end CivilDate

end CivilDays
