import Mathlib.Algebra.Order.Field.Rat
import Mathlib.Data.Rat.Floor
import Mathlib.Tactic.Linarith
import SimplefinBridge.Library.CivilDays

/-!
# ISO timestamps in UTC and the order of their texts

`YYYY-MM-DDTHH:MM:SS[.d…]Z`: the fraction of the seconds has any number of
digits.  A `Timestamp` is such a text taken apart, so `parse` accepts exactly
the texts of timestamps (`parse_eq_some_iff`).

Texts of one precision are ordered as the instants they name.  Across
precisions they are not: a text that continues another one with more digits
comes *before* it, because `Z` is greater than `.` and every digit, while
its instant is the same or later.  `units_lt_iff` says that this is the only
exception.
-/

namespace Timestamps

open CivilDays

/-- A time of day on a date of the calendar. -/
structure Timestamp where
  date : CivilDate
  valid : date.Valid
  year_nonneg : 0 ≤ date.year
  year_le : date.year ≤ 9999
  hour : Fin 24
  minute : Fin 60
  second : Fin 60
  /-- The digits after the point of the seconds. -/
  digits : List (Fin 10)
  deriving DecidableEq

/-! ## Instants -/

/-- The value of the digits after the point. -/
def fraction : List (Fin 10) → ℚ
  | [] => 0
  | digit :: digits => (digit.val + fraction digits) / 10

/-- The first digit counts tenths. -/
theorem fraction_cons (digit : Fin 10) (digits : List (Fin 10)) :
    fraction (digit :: digits) = (digit.val + fraction digits) / 10 := rfl

/-- A fraction is not negative, -/
theorem fraction_nonneg (digits : List (Fin 10)) : 0 ≤ fraction digits := by
  induction digits with
  | nil => exact le_rfl
  | cons digit digits ih =>
      rw [fraction_cons]
      have hdigit : (0 : ℚ) ≤ digit.val := Nat.cast_nonneg _
      linarith

/-- and less than one. -/
theorem fraction_lt_one (digits : List (Fin 10)) : fraction digits < 1 := by
  induction digits with
  | nil => exact zero_lt_one
  | cons digit digits ih =>
      rw [fraction_cons]
      have hdigit : (digit.val : ℚ) ≤ 9 := by exact_mod_cast Nat.le_of_lt_succ digit.isLt
      linarith

namespace Timestamp

/-- Minutes since the epoch. -/
def minutes (t : Timestamp) : Int := t.date.dayNumber * 1440 + t.hour.val * 60 + t.minute.val

/-- Seconds into the minute. -/
def seconds (t : Timestamp) : ℚ := t.second.val + fraction t.digits

/-- Seconds since the epoch. -/
def instant (t : Timestamp) : ℚ := t.minutes * 60 + t.seconds

/-- Seconds are not negative, -/
theorem seconds_nonneg (t : Timestamp) : 0 ≤ t.seconds := by
  have hsecond : (0 : ℚ) ≤ t.second.val := Nat.cast_nonneg _
  exact add_nonneg hsecond (fraction_nonneg t.digits)

/-- and fewer than sixty. -/
theorem seconds_lt (t : Timestamp) : t.seconds < 60 := by
  have hsecond : (t.second.val : ℚ) ≤ 59 := by
    exact_mod_cast Nat.le_of_lt_succ t.second.isLt
  have hdigits := fraction_lt_one t.digits
  unfold seconds
  linarith

/-- The order of instants: minutes first, seconds within the minute. -/
theorem instant_lt_iff (t u : Timestamp) :
    t.instant < u.instant ↔
      t.minutes < u.minutes ∨ (t.minutes = u.minutes ∧ t.seconds < u.seconds) := by
  have ht := t.seconds_nonneg
  have ht' := t.seconds_lt
  have hu := u.seconds_nonneg
  have hu' := u.seconds_lt
  unfold instant
  rcases lt_trichotomy t.minutes u.minutes with hlt | heq | hgt
  · have hstep : (t.minutes : ℚ) + 1 ≤ u.minutes := by exact_mod_cast hlt
    constructor
    · exact fun _ => .inl hlt
    · intro _
      linarith
  · rw [heq]
    constructor
    · intro h
      exact .inr ⟨rfl, by linarith⟩
    · rintro (h | ⟨-, h⟩)
      · exact absurd h (lt_irrefl _)
      · linarith
  · have hstep : (u.minutes : ℚ) + 1 ≤ t.minutes := by exact_mod_cast hgt
    constructor
    · intro h
      linarith
    · rintro (h | ⟨h, -⟩)
      · exact absurd h (not_lt.mpr hgt.le)
      · exact absurd h hgt.ne'

/-! ## Texts -/

/-- Digits as characters. -/
def digitChars (digits : List (Fin 10)) : List Char := digits.map fun digit => Nat.digitChar digit.val

/-- The fraction as it is written. -/
def fractionChars : List (Fin 10) → List Char
  | [] => []
  | digit :: digits => '.' :: digitChars (digit :: digits)

/-- The part before the seconds. -/
def minuteChars (t : Timestamp) : List Char :=
  t.date.chars ++ 'T' :: (padded 2 t.hour.val ++ ':' :: padded 2 t.minute.val)

/-- The seconds as they are written. -/
def secondChars (t : Timestamp) : List Char :=
  ':' :: (padded 2 t.second.val ++ fractionChars t.digits)

/-- The whole text. -/
def chars (t : Timestamp) : List Char := t.minuteChars ++ (t.secondChars ++ ['Z'])

/-- `YYYY-MM-DDTHH:MM:SS[.digits]Z` -/
def text (t : Timestamp) : String := String.ofList t.chars

/-- Texts are compared by their code units. -/
def units (t : Timestamp) : List Nat := t.chars.map Char.toNat

/-- `t` is written as `u` is, with more digits. -/
def Refines (t u : Timestamp) : Prop :=
  t.date = u.date ∧ t.hour = u.hour ∧ t.minute = u.minute ∧ t.second = u.second ∧
    u.digits <+: t.digits ∧ u.digits ≠ t.digits

instance (t u : Timestamp) : Decidable (Refines t u) := by
  unfold Refines; infer_instance

end Timestamp

/-! ## The order of texts -/

/-- The code of a digit. -/
theorem toNat_digitChar (digit : Fin 10) : (Nat.digitChar digit.val).toNat = 48 + digit.val :=
  Nat.toNat_digitChar_of_lt_ten digit.isLt

/-- Digits closed by `Z`: a continuation comes first, otherwise the values
decide. -/
theorem digitUnits_lt_iff (f g : List (Fin 10)) :
    (Timestamp.digitChars f ++ ['Z']).map Char.toNat <
        (Timestamp.digitChars g ++ ['Z']).map Char.toNat ↔
      (g <+: f ∧ g ≠ f) ∨ (fraction f < fraction g ∧ ¬(f <+: g ∧ f ≠ g)) := by
  induction f generalizing g with
  | nil =>
      cases g with
      | nil => simp
      | cons e g =>
          have hlow := toNat_digitChar e
          have hZ : 'Z'.toNat = 90 := rfl
          have hdigit := e.isLt
          simp only [Timestamp.digitChars, List.map_nil, List.nil_append, List.map_cons,
            List.cons_append, List.cons_lt_cons_iff, hlow, hZ]
          simp
          omega
  | cons d f ih =>
      cases g with
      | nil =>
          have hlow := toNat_digitChar d
          have hZ : 'Z'.toNat = 90 := rfl
          have hdigit := d.isLt
          simp only [Timestamp.digitChars, List.map_nil, List.nil_append, List.map_cons,
            List.cons_append, List.cons_lt_cons_iff, hlow, hZ]
          simp
          omega
      | cons e g =>
          have hrest := ih g
          simp only [Timestamp.digitChars, List.map_cons, List.cons_append, List.cons_lt_cons_iff,
            toNat_digitChar] at hrest ⊢
          have hf := fraction_nonneg f
          have hf' := fraction_lt_one f
          have hg := fraction_nonneg g
          have hg' := fraction_lt_one g
          rw [hrest]
          rw [fraction_cons, fraction_cons, List.cons_prefix_cons, List.cons_prefix_cons]
          rcases Nat.lt_trichotomy d.val e.val with hlt | heq | hgt
          · have hne : d ≠ e := Fin.ne_of_val_ne hlt.ne
            have hstep : (d.val : ℚ) + 1 ≤ e.val := by exact_mod_cast hlt
            have hvalues : ((d.val : ℚ) + fraction f) / 10 < (e.val + fraction g) / 10 := by
              linarith
            constructor
            · exact fun _ => .inr ⟨hvalues, fun h => hne h.1.1⟩
            · exact fun _ => .inl (by omega)
          · obtain rfl : d = e := Fin.ext heq
            have hvalues : ((d.val : ℚ) + fraction f) / 10 < (d.val + fraction g) / 10 ↔
                fraction f < fraction g := by
              constructor
              · intro h
                linarith
              · intro h
                linarith
            rw [hvalues]
            simp
          · have hne : e ≠ d := Fin.ne_of_val_ne hgt.ne
            have hstep : (e.val : ℚ) + 1 ≤ d.val := by exact_mod_cast hgt
            have hvalues : ¬((d.val : ℚ) + fraction f) / 10 < (e.val + fraction g) / 10 := by
              linarith
            constructor
            · intro h
              omega
            · rintro (h | h)
              · exact absurd h.1.1 hne
              · exact absurd h.1 hvalues

namespace Timestamp

/-- The first unit decides, -/
theorem cons_lt_cons {a b : Nat} {as bs : List Nat} (h : a < b) : a :: as < b :: bs :=
  List.cons_lt_cons_iff.mpr (.inl h)

/-- either way. -/
theorem not_cons_lt_cons {a b : Nat} {as bs : List Nat} (h : b < a) : ¬a :: as < b :: bs := by
  rw [List.cons_lt_cons_iff]
  omega

/-- Fractions closed by `Z`. -/
theorem fractionUnits_lt_iff (f g : List (Fin 10)) :
    (fractionChars f ++ ['Z']).map Char.toNat < (fractionChars g ++ ['Z']).map Char.toNat ↔
      (g <+: f ∧ g ≠ f) ∨ (fraction f < fraction g ∧ ¬(f <+: g ∧ f ≠ g)) := by
  have hpoint : '.'.toNat < 'Z'.toNat := by decide
  cases f with
  | nil =>
      cases g with
      | nil => simp
      | cons e g =>
          have hless : ¬(fractionChars [] ++ ['Z']).map Char.toNat <
              (fractionChars (e :: g) ++ ['Z']).map Char.toNat := not_cons_lt_cons hpoint
          exact iff_of_false hless (by simp)
  | cons d f =>
      cases g with
      | nil =>
          have hless : (fractionChars (d :: f) ++ ['Z']).map Char.toNat <
              (fractionChars [] ++ ['Z']).map Char.toNat := cons_lt_cons hpoint
          exact iff_of_true hless (by simp)
      | cons e g =>
          rw [← digitUnits_lt_iff]
          simp [fractionChars]

/-- What a timestamp writes after the colon behind its minute. -/
theorem secondUnits_lt_iff (second second' : Fin 60) (digits digits' : List (Fin 10)) :
    (padded 2 second.val ++ (fractionChars digits ++ ['Z'])).map Char.toNat <
        (padded 2 second'.val ++ (fractionChars digits' ++ ['Z'])).map Char.toNat ↔
      (second = second' ∧ digits' <+: digits ∧ digits' ≠ digits) ∨
        ((second.val : ℚ) + fraction digits < second'.val + fraction digits' ∧
          ¬(second' = second ∧ digits <+: digits' ∧ digits ≠ digits')) := by
  have hsecond := second.isLt
  have hsecond' := second'.isLt
  rw [@List.map_append _ _ Char.toNat (padded 2 second.val),
    @List.map_append _ _ Char.toNat (padded 2 second'.val),
    padded_lt_iff (show second.val < 10 ^ 2 by omega) (show second'.val < 10 ^ 2 by omega),
    fractionUnits_lt_iff]
  have hf := fraction_nonneg digits
  have hf' := fraction_lt_one digits
  have hg := fraction_nonneg digits'
  have hg' := fraction_lt_one digits'
  rcases Nat.lt_trichotomy second.val second'.val with hlt | heq | hgt
  · have hne : second' ≠ second := Fin.ne_of_val_ne hlt.ne'
    have hstep : (second.val : ℚ) + 1 ≤ second'.val := by exact_mod_cast hlt
    have hvalues : (second.val : ℚ) + fraction digits < second'.val + fraction digits' := by
      linarith
    exact ⟨fun _ => .inr ⟨hvalues, fun h => hne h.1⟩, fun _ => .inl hlt⟩
  · obtain rfl : second = second' := Fin.ext heq
    simp
  · have hne : second ≠ second' := Fin.ne_of_val_ne hgt.ne'
    have hstep : (second'.val : ℚ) + 1 ≤ second.val := by exact_mod_cast hgt
    have hvalues : ¬(second.val : ℚ) + fraction digits < second'.val + fraction digits' := by
      linarith
    constructor
    · intro h
      omega
    · rintro (h | h)
      · exact absurd h.1 hne
      · exact absurd h.1 hvalues

/-- **Texts against instants.**  A text comes before another one exactly when
it continues it with more digits, or when its instant is earlier and it is not
continued by it. -/
theorem units_lt_iff (t u : Timestamp) :
    t.units < u.units ↔ Refines t u ∨ (t.instant < u.instant ∧ ¬Refines u t) := by
  have hsplit : ∀ v : Timestamp, v.units = v.date.units ++ ('T'.toNat ::
      ((padded 2 v.hour.val).map Char.toNat ++ (':'.toNat ::
        ((padded 2 v.minute.val).map Char.toNat ++ (':'.toNat ::
          (padded 2 v.second.val ++ (fractionChars v.digits ++ ['Z'])).map Char.toNat))))) := by
    intro v
    simp [units, chars, minuteChars, secondChars, CivilDate.units]
  have hth := t.hour.isLt
  have huh := u.hour.isLt
  have htm := t.minute.isLt
  have hum := u.minute.isLt
  rw [hsplit, hsplit, CivilDate.units_append_lt_iff t.valid u.valid ⟨t.year_nonneg, t.year_le⟩
    ⟨u.year_nonneg, u.year_le⟩, List.cons_lt_cons_iff, padded_lt_iff (by omega) (by omega),
    List.cons_lt_cons_iff, padded_lt_iff (by omega) (by omega), List.cons_lt_cons_iff,
    secondUnits_lt_iff, instant_lt_iff]
  unfold Refines minutes seconds
  rw [← CivilDate.dayNumber_inj t.valid u.valid, ← CivilDate.dayNumber_inj u.valid t.valid,
    Fin.ext_iff, Fin.ext_iff, Fin.ext_iff, Fin.ext_iff, Fin.ext_iff, Fin.ext_iff]
  by_cases hminutes : t.date.dayNumber = u.date.dayNumber ∧ t.hour.val = u.hour.val ∧
      t.minute.val = u.minute.val
  · obtain ⟨hday, hhour, hminute⟩ := hminutes
    simp [hday, hhour, hminute]
  · have hforth : ¬(t.date.dayNumber = u.date.dayNumber ∧ t.hour.val = u.hour.val ∧
        t.minute.val = u.minute.val ∧ t.second.val = u.second.val ∧ u.digits <+: t.digits ∧
          u.digits ≠ t.digits) := fun h => hminutes ⟨h.1, h.2.1, h.2.2.1⟩
    have hback : ¬(u.date.dayNumber = t.date.dayNumber ∧ u.hour.val = t.hour.val ∧
        u.minute.val = t.minute.val ∧ u.second.val = t.second.val ∧ t.digits <+: u.digits ∧
          t.digits ≠ u.digits) := fun h => hminutes ⟨h.1.symm, h.2.1.symm, h.2.2.1.symm⟩
    simp only [hforth, hback, lt_irrefl, false_or, true_and, not_false_eq_true, and_true]
    generalize (t.second.val = u.second.val ∧ u.digits <+: t.digits ∧ u.digits ≠ t.digits ∨
      (t.second.val : ℚ) + fraction t.digits < u.second.val + fraction u.digits ∧
        ¬(u.second.val = t.second.val ∧ t.digits <+: u.digits ∧ t.digits ≠ u.digits)) = later
    generalize ((t.second.val : ℚ) + fraction t.digits < u.second.val + fraction u.digits) = earlier
    -- the minutes differ, so the seconds do not matter
    by_cases hlater : later <;> by_cases hearlier : earlier <;>
      simp only [hlater, hearlier, and_true, and_false, or_false] <;> omega

/-! ## Reading a text -/

/-- The value of a digit. -/
def digitValue (c : Char) : Fin 10 := Fin.ofNat 10 (c.toNat - 48)

/-- The number at a place of the text. -/
def numberAt (cs : List Char) (start width : Nat) : Nat :=
  Nat.ofDigitChars 10 ((cs.drop start).take width) 0

/-- A timestamp of the given fields, if they are ones. -/
def ofFields (date : CivilDate) (hour minute second : Nat) (digits : List (Fin 10)) :
    Option Timestamp :=
  if h : date.Valid ∧ 0 ≤ date.year ∧ date.year ≤ 9999 then
    some
      { date
        valid := h.1
        year_nonneg := h.2.1
        year_le := h.2.2
        hour := Fin.ofNat 24 hour
        minute := Fin.ofNat 60 minute
        second := Fin.ofNat 60 second
        digits }
  else none

/-- Read the fields where a timestamp has them, and accept the text if it is
the one they are written as. -/
def parse (text : String) : Option Timestamp :=
  let cs := text.toList
  (ofFields ⟨numberAt cs 0 4, numberAt cs 5 2, numberAt cs 8 2⟩ (numberAt cs 11 2)
    (numberAt cs 14 2) (numberAt cs 17 2) (((cs.drop 20).dropLast).map digitValue)).filter fun t =>
      t.chars = cs

/-- Numbers as fields of a time. -/
abbrev hourField (n : Nat) : Fin 24 := Fin.ofNat 24 n

/-- A field that counts minutes or seconds. -/
abbrev sixtyField (n : Nat) : Fin 60 := Fin.ofNat 60 n

/-- A field that is one digit. -/
abbrev digitField (n : Nat) : Fin 10 := Fin.ofNat 10 n

example : (parse "2026-09-08T06:00:00.500Z").map text = some "2026-09-08T06:00:00.500Z" := by
  decide +kernel

example : parse "2026-02-29T06:00:00Z" = none := by decide +kernel

example : parse "2026-02-28T06:00Z" = none := by decide +kernel

/-- Reading a numeral of fixed width. -/
theorem numberAt_append {before rest : List Char} {start width n : Nat}
    (hstart : before.length = start) (hn : n < 10 ^ width) :
    numberAt (before ++ (padded width n ++ rest)) start width = n := by
  unfold numberAt
  rw [← hstart, List.drop_left, List.take_left' (length_padded width n), ofDigitChars_padded hn]

/-- Characters before the place are skipped. -/
theorem numberAt_skip {before rest : List Char} {total start width : Nat}
    (htotal : total = before.length + start) :
    numberAt (before ++ rest) total width = numberAt rest start width := by
  unfold numberAt
  rw [htotal, ← List.drop_drop, List.drop_left]

/-- Skip a numeral and the character that closes it. -/
theorem numberAt_skip_numeral {n digits : Nat} {c : Char} {rest : List Char}
    {total start width : Nat} (htotal : total = digits + (start + 1)) :
    numberAt (padded digits n ++ c :: rest) total width = numberAt rest start width := by
  have hskip : numberAt (padded digits n ++ c :: rest) total width =
      numberAt (c :: rest) (start + 1) width := by
    apply numberAt_skip
    rw [length_padded]
    exact htotal
  rw [hskip]
  rfl

/-- The text, field by field. -/
theorem chars_eq (t : Timestamp) :
    t.chars = padded 4 t.date.year.toNat ++ '-' :: (padded 2 t.date.month ++
      '-' :: (padded 2 t.date.day ++ 'T' :: (padded 2 t.hour.val ++
        ':' :: (padded 2 t.minute.val ++ ':' :: (padded 2 t.second.val ++
          (fractionChars t.digits ++ ['Z'])))))) := by
  simp [chars, minuteChars, secondChars, CivilDate.chars]

/-- A written digit is read back. -/
theorem digitValue_digitChar (digit : Fin 10) : digitValue (Nat.digitChar digit.val) = digit := by
  unfold digitValue
  rw [toNat_digitChar]
  apply Fin.ext
  simp

/-- So are all of them. -/
theorem map_digitValue (digits : List (Fin 10)) : (digitChars digits).map digitValue = digits := by
  unfold digitChars
  rw [List.map_map]
  conv => rhs; rw [← List.map_id digits]
  apply List.map_congr_left
  intro digit _
  exact digitValue_digitChar digit

/-! Where the fields of a text are. -/

/-- The year is read back, -/
theorem numberAt_year (t : Timestamp) : numberAt t.chars 0 4 = t.date.year.toNat := by
  have hlow := t.year_nonneg
  have hhigh := t.year_le
  rw [chars_eq]
  exact @numberAt_append [] _ 0 4 _ rfl (by omega)

/-- the month, -/
theorem numberAt_month (t : Timestamp) : numberAt t.chars 5 2 = t.date.month := by
  have hmonth := t.valid.month_le
  rw [chars_eq, @numberAt_skip_numeral _ 4 _ _ 5 0 2 rfl]
  exact @numberAt_append [] _ 0 2 _ rfl (by omega)

/-- the day, -/
theorem numberAt_day (t : Timestamp) : numberAt t.chars 8 2 = t.date.day := by
  have hday := t.valid.day_le.trans (CivilDate.daysInMonth_le _ _)
  rw [chars_eq, @numberAt_skip_numeral _ 4 _ _ 8 3 2 rfl, @numberAt_skip_numeral _ 2 _ _ 3 0 2 rfl]
  exact @numberAt_append [] _ 0 2 _ rfl (by omega)

/-- the hour, -/
theorem numberAt_hour (t : Timestamp) : numberAt t.chars 11 2 = t.hour.val := by
  have hhour := t.hour.isLt
  rw [chars_eq, @numberAt_skip_numeral _ 4 _ _ 11 6 2 rfl,
    @numberAt_skip_numeral _ 2 _ _ 6 3 2 rfl, @numberAt_skip_numeral _ 2 _ _ 3 0 2 rfl]
  exact @numberAt_append [] _ 0 2 _ rfl (by omega)

/-- the minute -/
theorem numberAt_minute (t : Timestamp) : numberAt t.chars 14 2 = t.minute.val := by
  have hminute := t.minute.isLt
  rw [chars_eq, @numberAt_skip_numeral _ 4 _ _ 14 9 2 rfl,
    @numberAt_skip_numeral _ 2 _ _ 9 6 2 rfl, @numberAt_skip_numeral _ 2 _ _ 6 3 2 rfl,
    @numberAt_skip_numeral _ 2 _ _ 3 0 2 rfl]
  exact @numberAt_append [] _ 0 2 _ rfl (by omega)

/-- and the second. -/
theorem numberAt_second (t : Timestamp) : numberAt t.chars 17 2 = t.second.val := by
  have hsecond := t.second.isLt
  rw [chars_eq, @numberAt_skip_numeral _ 4 _ _ 17 12 2 rfl,
    @numberAt_skip_numeral _ 2 _ _ 12 9 2 rfl, @numberAt_skip_numeral _ 2 _ _ 9 6 2 rfl,
    @numberAt_skip_numeral _ 2 _ _ 6 3 2 rfl, @numberAt_skip_numeral _ 2 _ _ 3 0 2 rfl]
  exact @numberAt_append [] _ 0 2 _ rfl (by omega)

/-- The digits stand between the point and the `Z`. -/
theorem digits_of_chars (t : Timestamp) :
    ((t.chars.drop 20).dropLast).map digitValue = t.digits := by
  have hlength : (t.minuteChars ++ (':' :: padded 2 t.second.val)).length = 19 := by
    simp [minuteChars, CivilDate.chars, length_padded]
  have hsplit : t.chars = (t.minuteChars ++ (':' :: padded 2 t.second.val)) ++
      (fractionChars t.digits ++ ['Z']) := by
    simp [chars, secondChars]
  have hdrop : t.chars.drop 20 = (fractionChars t.digits ++ ['Z']).drop 1 := by
    rw [hsplit, show (20 : Nat) = 19 + 1 from rfl, ← List.drop_drop, List.drop_left' hlength]
  rw [hdrop]
  cases hdigits : t.digits with
  | nil => rfl
  | cons digit digits =>
      change ((digitChars (digit :: digits) ++ ['Z']).dropLast).map digitValue = _
      rw [List.dropLast_concat, map_digitValue]

/-- The fields of a time make the time. -/
theorem ofFields_self (t : Timestamp) :
    ofFields t.date t.hour t.minute t.second t.digits = some t := by
  unfold ofFields
  rw [dif_pos ⟨t.valid, t.year_nonneg, t.year_le⟩, Fin.ofNat_val_eq_self, Fin.ofNat_val_eq_self,
    Fin.ofNat_val_eq_self]

/-- **The texts read are the texts written.** -/
theorem parse_eq_some_iff {s : String} {t : Timestamp} : parse s = some t ↔ t.text = s := by
  unfold parse
  dsimp only
  rw [Option.filter_eq_some_iff, decide_eq_true_eq]
  constructor
  · intro h
    unfold text
    rw [h.2, String.ofList_toList]
  · rintro rfl
    have hchars : t.text.toList = t.chars := String.toList_ofList
    have hyear : (t.date.year.toNat : Int) = t.date.year := Int.toNat_of_nonneg t.year_nonneg
    rw [hchars, numberAt_year, numberAt_month, numberAt_day, numberAt_hour, numberAt_minute,
      numberAt_second, digits_of_chars, hyear]
    exact ⟨ofFields_self t, rfl⟩

/-- **A printed time is read back.** -/
theorem parse_text (t : Timestamp) : parse t.text = some t := parse_eq_some_iff.mpr rfl

end Timestamp

end Timestamps
