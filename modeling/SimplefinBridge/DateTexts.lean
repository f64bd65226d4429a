import SimplefinBridge.Dates

/-!
# Calendar dates as texts

A day is written `YYYY-MM-DD`, with a year of four digits.  Texts are compared
as the days are (`jsLess_date`), the parts of a text are read back, and for a
year from 100 on, which `Date.UTC` does not move to the twentieth century,
`addDays` adds days (`addDays_date`).
-/

namespace SimplefinBridge

open CivilDays

/-! ## Code units -/

/-- The units of such a text are its characters. -/
theorem jsUnits_of_ascii {cs : List Char} (h : ∀ c ∈ cs, c.val < 0x10000) :
    jsUnits (String.ofList cs) = cs.map Char.toNat := by
  unfold jsUnits
  rw [String.toList_ofList]
  induction cs with
  | nil => rfl
  | cons c cs ih =>
      have hc : utf16Units c = [c.toNat] := if_pos (h c List.mem_cons_self)
      rw [List.flatMap_cons, hc, ih fun d hd => h d (List.mem_cons_of_mem _ hd)]
      rfl

/-- Digits are of the basic plane. -/
theorem val_lt_of_isDigit {c : Char} (h : c.isDigit = true) : c.val < 0x10000 := by
  simp only [Char.isDigit, Bool.and_eq_true, decide_eq_true_eq] at h
  exact UInt32.lt_of_le_of_lt h.2 (by decide)

/-! ## Days -/

/-- A day of the calendar in the years from `first` to 9999. -/
structure DayFrom (first : Int) (day : CivilDate) : Prop where
  valid : day.Valid
  first_le : first ≤ day.year
  le_last : day.year ≤ 9999

instance (first : Int) (day : CivilDate) : Decidable (DayFrom first day) :=
  decidable_of_iff (day.Valid ∧ first ≤ day.year ∧ day.year ≤ 9999)
    ⟨fun ⟨h₁, h₂, h₃⟩ => ⟨h₁, h₂, h₃⟩, fun ⟨h₁, h₂, h₃⟩ => ⟨h₁, h₂, h₃⟩⟩

/-- A day from a later year on is one from an earlier year on. -/
theorem DayFrom.mono {first first' : Int} {day : CivilDate} (h : DayFrom first day)
    (hle : first' ≤ first) : DayFrom first' day :=
  ⟨h.valid, hle.trans h.first_le, h.le_last⟩

/-- A year begins on a date of the calendar. -/
theorem valid_newYear (year : Int) : (⟨year, 1, 1⟩ : CivilDate).Valid where
  month_pos := le_refl _
  month_le := show 1 ≤ 12 by decide
  day_pos := le_refl _
  day_le := by
    change 1 ≤ daysInMonth (isLeap year) 1
    cases isLeap year with
    | false => decide
    | true => decide

/-- No day is before the first, -/
theorem DayFrom.first_dayNumber_le {first : Int} {day : CivilDate} (h : DayFrom first day) :
    (⟨first, 1, 1⟩ : CivilDate).dayNumber ≤ day.dayNumber := by
  by_contra hlt
  have hbefore := (CivilDate.dayNumber_lt_iff h.valid (valid_newYear first)).mp (not_le.mp hlt)
  have hfirst := h.first_le
  have hmonth := h.valid.month_pos
  have hday := h.valid.day_pos
  unfold CivilDate.Before at hbefore
  dsimp only at hbefore
  omega

/-- and none after the last. -/
theorem DayFrom.le_last_dayNumber {first : Int} {day : CivilDate} (h : DayFrom first day) :
    day.dayNumber ≤ (⟨9999, 12, 31⟩ : CivilDate).dayNumber := by
  by_contra hlt
  have hbefore := (CivilDate.dayNumber_lt_iff (by decide) h.valid).mp (not_le.mp hlt)
  have hlast := h.le_last
  have hmonth := h.valid.month_le
  have hday := h.valid.day_le.trans (CivilDate.daysInMonth_le _ _)
  unfold CivilDate.Before at hbefore
  dsimp only at hbefore
  omega

/-- The days between two New Years are in the years between. -/
theorem dayFrom_ofDayNumber {first n : Int} (hfirst : (⟨first, 1, 1⟩ : CivilDate).dayNumber ≤ n)
    (hlast : n ≤ (⟨9999, 12, 31⟩ : CivilDate).dayNumber) : DayFrom first (CivilDate.ofDayNumber n) := by
  obtain ⟨hvalid, hnumber⟩ := CivilDate.ofDayNumber_spec n
  refine ⟨hvalid, ?_, ?_⟩
  · exact CivilDate.year_le_of_dayNumber_le (valid_newYear first) hvalid (by omega)
  · exact CivilDate.year_le_of_dayNumber_le (b := ⟨9999, 12, 31⟩) hvalid (by decide) (by omega)

/-- A date is written in digits and dashes. -/
theorem mem_dateChars {day : CivilDate} {c : Char} (h : c ∈ day.chars) :
    c.isDigit = true ∨ c = '-' := by
  unfold CivilDate.chars at h
  simp only [List.mem_append, List.mem_cons] at h
  rcases h with h | h | h | h | h
  · exact .inl (isDigit_of_mem_padded h)
  · exact .inr h
  · exact .inl (isDigit_of_mem_padded h)
  · exact .inr h
  · exact .inl (isDigit_of_mem_padded h)

/-- Its units are those of the calendar. -/
theorem jsUnits_date (day : CivilDate) : jsUnits day.text = day.units := by
  apply jsUnits_of_ascii
  intro c hc
  rcases mem_dateChars hc with hdigit | rfl
  · exact val_lt_of_isDigit hdigit
  · decide

/-- **Date texts are compared as days.** -/
theorem jsLess_date {a b : CivilDate} (ha : DayFrom 0 a) (hb : DayFrom 0 b) :
    jsLess a.text b.text = true ↔ a.dayNumber < b.dayNumber := by
  unfold jsLess
  rw [decide_eq_true_eq, jsUnits_date, jsUnits_date]
  exact CivilDate.units_lt_iff ha.valid hb.valid ⟨ha.first_le, ha.le_last⟩ ⟨hb.first_le, hb.le_last⟩

/-- Different days are written differently. -/
theorem date_text_inj {a b : CivilDate} (ha : DayFrom 0 a) (hb : DayFrom 0 b) :
    a.text = b.text ↔ a = b := by
  constructor
  · intro h
    have hab : ¬ a.dayNumber < b.dayNumber := by
      rw [← jsLess_date ha hb, h, jsLess_date hb hb]
      exact lt_irrefl _
    have hba : ¬ b.dayNumber < a.dayNumber := by
      rw [← jsLess_date hb ha, h, jsLess_date hb hb]
      exact lt_irrefl _
    apply (CivilDate.dayNumber_inj ha.valid hb.valid).mp
    omega
  · rintro rfl
    rfl

/-- The parts of a date. -/
theorem dateParts_date (host : Host) {day : CivilDate} (h : DayFrom 0 day) :
    dateParts host day.text = [some (day.year : ℚ), some (day.month : ℚ), some (day.day : ℚ)] := by
  have hpart : ∀ width n : Nat, 0 < width → width ≤ 15 → n < 10 ^ width →
      host.number (String.ofList (padded width n)) = some (n : ℚ) := by
    intro width n hpos hwidth hn
    unfold Host.number isDigits
    have hne : String.ofList (padded width n) ≠ "" := by
      intro hempty
      have hlength := congrArg (fun text : String => text.toList.length) hempty
      simp only [String.toList_ofList, length_padded] at hlength
      simp at hlength
      omega
    have hdigits : (padded width n).all Char.isDigit = true := by
      rw [List.all_eq_true]
      exact fun c hc => isDigit_of_mem_padded hc
    rw [if_pos]
    · rw [String.toList_ofList, ofDigitChars_padded hn]
    · simp [hne, hdigits, length_padded, hwidth]
  have hmonth := h.valid.month_le
  have hday := h.valid.day_le.trans (CivilDate.daysInMonth_le _ _)
  have hyear := h.first_le
  have hlast := h.le_last
  have hyearNat : ((day.year.toNat : ℕ) : ℚ) = (day.year : ℚ) := by
    have hcast : ((day.year.toNat : ℕ) : ℤ) = day.year := Int.toNat_of_nonneg hyear
    exact_mod_cast hcast
  unfold dateParts CivilDate.text
  rw [String.toList_ofList, CivilDate.splitOn_chars, List.map_cons, List.map_cons, List.map_cons,
    List.map_nil, hpart 4 _ (by decide) (by decide) (by omega),
    hpart 2 _ (by decide) (by decide) (by omega), hpart 2 _ (by decide) (by decide) (by omega),
    hyearNat]

/-- A whole number is its own integer. -/
theorem toInteger_int (n : Int) : toInteger (n : ℚ) = n := by
  unfold toInteger
  split_ifs
  · rw [← Int.cast_neg, Int.floor_intCast, neg_neg]
  · exact Int.floor_intCast n

/-- `Date.UTC` of the parts of a date. -/
theorem dateUtcDay_date {day : CivilDate} (h : DayFrom 100 day) (days : Int) :
    dateUtcDay day.year ((day.month : ℚ) - 1) ((day.day : ℚ) + days) = day.dayNumber + days := by
  have hpos := h.valid.month_pos
  have hle := h.valid.month_le
  have hyear := h.first_le
  have hmonthInt : toInteger ((day.month : ℚ) - 1) = (day.month : Int) - 1 := by
    have hcast : ((day.month : ℚ) - 1) = (((day.month : Int) - 1 : Int) : ℚ) := by push_cast; rfl
    rw [hcast, toInteger_int]
  have hdayInt : toInteger ((day.day : ℚ) + days) = (day.day : Int) + days := by
    have hcast : ((day.day : ℚ) + days) = (((day.day : Int) + days : Int) : ℚ) := by push_cast; rfl
    rw [hcast, toInteger_int]
  unfold dateUtcDay
  rw [toInteger_int, hmonthInt, hdayInt]
  dsimp only
  rw [if_neg (by omega)]
  have hquot : ((day.month : Int) - 1) / 12 = 0 := by omega
  have hrem : (((day.month : Int) - 1) % 12).toNat + 1 = day.month := by omega
  rw [hquot, hrem, add_zero]
  unfold CivilDate.dayNumber
  dsimp only
  omega

/-- The text of a day index. -/
theorem dayIndexToDate_day {day : CivilDate} (h : DayFrom 0 day) :
    dayIndexToDate day.dayNumber = .ok day.text := by
  have hself : CivilDate.ofDayNumber day.dayNumber = day := by
    obtain ⟨hvalid, hnumber⟩ := CivilDate.ofDayNumber_spec day.dayNumber
    exact (CivilDate.dayNumber_inj hvalid h.valid).mp hnumber
  have hfirst := h.first_dayNumber_le
  have hlast := h.le_last_dayNumber
  have hlow : (⟨0, 1, 1⟩ : CivilDate).dayNumber = -719528 := by decide
  have hhigh : (⟨9999, 12, 31⟩ : CivilDate).dayNumber = 2932896 := by decide
  unfold dayIndexToDate isoDatePart
  rw [if_pos (abs_le.mpr ⟨by omega, by omega⟩)]
  dsimp only
  rw [hself, if_pos ⟨h.first_le, h.le_last⟩, List.take_of_length_le]
  · rfl
  · unfold CivilDate.chars
    simp [length_padded]

/-- **Adding days** to a date of a year from 100 on, when the sum is still in
the calendar. -/
theorem addDays_date (host : Host) {day sum : CivilDate} (h : DayFrom 100 day) (hsum : DayFrom 0 sum)
    {days : Int} (hnumber : sum.dayNumber = day.dayNumber + days) :
    addDays host day.text days = .ok sum.text := by
  unfold addDays
  rw [dateParts_date host (h.mono (by decide))]
  dsimp only
  rw [dateUtcDay_date h, ← hnumber, dayIndexToDate_day hsum]

end SimplefinBridge
