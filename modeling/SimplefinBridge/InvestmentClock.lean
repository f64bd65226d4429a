import SimplefinBridge.DateTexts
import SimplefinBridge.InvestmentStore

/-!
# The clock of the investment store

Timestamps are compared in two ways: as texts, and by the milliseconds that
`Date.parse` gives.  Their text order is the one of `Timestamps.units_lt_iff`.
`toISOString` writes a timestamp that has the milliseconds it was given.
-/

namespace SimplefinBridge

open Timestamps CivilDays

/-! ## Texts -/

/-- Digits are of the basic plane, -/
theorem mem_digitChars {digits : List (Fin 10)} {c : Char} (h : c ∈ Timestamp.digitChars digits) :
    c.val < 0x10000 := by
  obtain ⟨digit, -, rfl⟩ := List.mem_map.mp h
  have hall : ∀ k < 10, (Nat.digitChar k).isDigit = true := by decide
  exact val_lt_of_isDigit (hall digit.val digit.isLt)

/-- and so is a fraction, -/
theorem mem_fractionChars {digits : List (Fin 10)} {c : Char}
    (h : c ∈ Timestamp.fractionChars digits) : c.val < 0x10000 := by
  cases digits with
  | nil => cases h
  | cons digit digits =>
      rcases List.mem_cons.mp h with rfl | h
      · decide
      · exact mem_digitChars h

/-- and a whole text. -/
theorem ascii_of_mem_chars {t : Timestamp} {c : Char} (h : c ∈ t.chars) : c.val < 0x10000 := by
  rw [Timestamp.chars_eq] at h
  simp only [List.mem_append, List.mem_cons, List.not_mem_nil, or_false] at h
  rcases h with h | rfl | h | rfl | h | rfl | h | rfl | h | rfl | h | h | rfl
  · exact val_lt_of_isDigit (isDigit_of_mem_padded h)
  · decide
  · exact val_lt_of_isDigit (isDigit_of_mem_padded h)
  · decide
  · exact val_lt_of_isDigit (isDigit_of_mem_padded h)
  · decide
  · exact val_lt_of_isDigit (isDigit_of_mem_padded h)
  · decide
  · exact val_lt_of_isDigit (isDigit_of_mem_padded h)
  · decide
  · exact val_lt_of_isDigit (isDigit_of_mem_padded h)
  · exact mem_fractionChars h
  · decide

/-- The units of a text are its characters. -/
theorem jsUnits_text (t : Timestamp) : jsUnits t.text = t.units :=
  jsUnits_of_ascii fun _ hc => ascii_of_mem_chars hc

/-- `<` on the texts of timestamps. -/
theorem jsLess_text (t u : Timestamp) :
    jsLess t.text u.text = true ↔
      t.Refines u ∨ (t.instant < u.instant ∧ ¬u.Refines t) := by
  unfold jsLess
  rw [decide_eq_true_eq, jsUnits_text, jsUnits_text, Timestamp.units_lt_iff]

/-- No text is before itself. -/
theorem jsLess_self (text : String) : jsLess text text = false :=
  decide_eq_false (List.lt_irrefl _)

/-- The schema accepts the texts of timestamps. -/
theorem isTimestamp_iff {text : String} : isTimestamp text = true ↔ ∃ t : Timestamp, t.text = text := by
  unfold isTimestamp
  rw [Option.isSome_iff_exists]
  exact exists_congr fun _ => Timestamp.parse_eq_some_iff

/-! ## Milliseconds -/

/-- At most nine digits of a fraction are read. -/
theorem fractionNumeral_lt (digits : List (Fin 10)) :
    fractionNumeral digits < 10 ^ min digits.length 9 := by
  have hbound : ∀ (ds : List (Fin 10)) (n : Nat),
      ds.foldl (fun n digit => n * 10 + digit.val) n < (n + 1) * 10 ^ ds.length := by
    intro ds
    induction ds with
    | nil =>
        intro n
        simp
    | cons d ds ih =>
        intro n
        have hdigit := d.isLt
        refine (ih (n * 10 + d.val)).trans_le ?_
        rw [List.length_cons, Nat.pow_succ', ← Nat.mul_assoc]
        exact Nat.mul_le_mul_right _ (by omega)
  have hkept : ((digits.dropWhile (·.val = 0)).take 9).length ≤ min digits.length 9 := by
    have hdropped := (List.dropWhile_sublist (l := digits) (·.val = 0)).length_le
    rw [List.length_take]
    omega
  refine (hbound _ 0).trans_le ?_
  rw [Nat.zero_add, Nat.one_mul]
  exact Nat.pow_le_pow_right (by decide) hkept

/-- They make less than a second. -/
theorem fractionMillis_lt (digits : List (Fin 10)) : fractionMillis digits < 1000 := by
  have hnumeral := fractionNumeral_lt digits
  unfold fractionMillis
  rw [Nat.div_lt_iff_lt_mul (by positivity), Nat.mul_comm]
  exact Nat.mul_lt_mul_of_pos_left hnumeral (by decide)

/-- `Date.parse` of a timestamp. -/
theorem dateParse_text (t : Timestamp) : dateParse t.text = some (millis t) := by
  unfold dateParse
  rw [Timestamp.parse_text]
  rfl

/-- It reads whatever the schema accepts. -/
theorem dateParse_isSome {text : String} (h : isTimestamp text = true) :
    ∃ ms, dateParse text = some ms := by
  obtain ⟨t, rfl⟩ := isTimestamp_iff.mp h
  exact ⟨_, dateParse_text t⟩

/-- The day of a timestamp is the day of its milliseconds. -/
theorem millis_day (t : Timestamp) : millis t / 86400000 = t.date.dayNumber := by
  have hhour := t.hour.isLt
  have hminute := t.minute.isLt
  have hsecond := t.second.isLt
  have hfraction := fractionMillis_lt t.digits
  unfold millis Timestamp.minutes
  omega

/-- The timestamp that `toISOString` writes. -/
def ofMillis (date : CivilDate) (valid : date.Valid) (hyear : 0 ≤ date.year ∧ date.year ≤ 9999)
    (time : Nat) : Timestamp where
  date
  valid
  year_nonneg := hyear.1
  year_le := hyear.2
  hour := Timestamp.hourField (time / 3600000)
  minute := Timestamp.sixtyField (time / 60000)
  second := Timestamp.sixtyField (time / 1000)
  digits := [Timestamp.digitField (time / 100), Timestamp.digitField (time / 10),
    Timestamp.digitField time]

/-- Three digits are read as they are. -/
theorem fractionMillis_three (a b c : Fin 10) :
    fractionMillis [a, b, c] = a.val * 100 + b.val * 10 + c.val := by
  have hall : ∀ a b c : Fin 10, fractionMillis [a, b, c] = a.val * 100 + b.val * 10 + c.val := by
    decide +kernel
  exact hall a b c

/-- The milliseconds of a printed time are its own, -/
theorem millis_ofMillis (date : CivilDate) (valid : date.Valid)
    (hyear : 0 ≤ date.year ∧ date.year ≤ 9999) {time : Nat} (htime : time < 86400000) :
    millis (ofMillis date valid hyear time) = date.dayNumber * 86400000 + time := by
  simp only [millis, ofMillis, Timestamp.minutes, fractionMillis_three, Fin.val_ofNat]
  omega

/-- and its text has three digits of them. -/
theorem text_ofMillis (date : CivilDate) (valid : date.Valid)
    (hyear : 0 ≤ date.year ∧ date.year ≤ 9999) {time : Nat} (htime : time < 86400000) :
    (ofMillis date valid hyear time).text =
      String.ofList (date.chars ++ 'T' :: (padded 2 (time / 3600000) ++
        ':' :: (padded 2 (time / 60000 % 60) ++ ':' :: (padded 2 (time / 1000 % 60) ++
        '.' :: (padded 3 (time % 1000) ++ ['Z']))))) := by
  have hhour : time / 3600000 % 24 = time / 3600000 := by omega
  have hfirst : time % 1000 / 10 / 10 % 10 = time / 100 % 10 := by omega
  have hsecond : time % 1000 / 10 % 10 = time / 10 % 10 := by omega
  have hthird : time % 1000 % 10 = time % 10 := by omega
  unfold Timestamp.text
  congr 1
  simp only [Timestamp.chars, Timestamp.minuteChars, ofMillis, Timestamp.secondChars,
    Timestamp.fractionChars, Timestamp.digitChars, List.map_cons, List.map_nil, Fin.val_ofNat, padded,
    hhour, hfirst, hsecond, hthird]
  simp

/-- **`toISOString` keeps the milliseconds.** -/
theorem toIsoString_millis (t : Timestamp) :
    ∃ u : Timestamp, toIsoString (millis t) = u.text ∧ millis u = millis t := by
  obtain ⟨hvalid, hday⟩ := CivilDate.ofDayNumber_spec (millis t / 86400000)
  have hdate : CivilDate.ofDayNumber (millis t / 86400000) = t.date := by
    rw [← CivilDate.dayNumber_inj hvalid t.valid, hday, millis_day]
  have htime : (millis t % 86400000).toNat < 86400000 := by omega
  refine ⟨ofMillis t.date t.valid ⟨t.year_nonneg, t.year_le⟩ (millis t % 86400000).toNat, ?_, ?_⟩
  · rw [text_ofMillis _ _ _ htime]
    unfold toIsoString isoDatePart
    rw [hdate, if_pos ⟨t.year_nonneg, t.year_le⟩]
  · rw [millis_ofMillis _ _ _ htime, ← millis_day]
    omega

/-! ## Staleness -/

section
variable {provider : InvestmentProvider} {appliedAt : Option String}
  {state : InvestmentSourceState} {observedAt : String} {observed : Int}

/-- The observations a Hapoalim store compares a new one with. -/
def knownObservations (appliedAt : Option String) (state : InvestmentSourceState) : List Int :=
  [appliedAt, state.lastAttemptAt, state.lastSuccessAt].filterMap fun time => time.bind dateParse

/-- An observation is fresh when none of the known ones is later. -/
theorem isStaleObservation_eq_false (hobserved : dateParse observedAt = some observed) :
    isStaleObservation appliedAt state observedAt = false ↔
      ∀ known ∈ knownObservations appliedAt state, known ≤ observed := by
  unfold isStaleObservation newestObservation
  rw [hobserved]
  change ((knownObservations appliedAt state).max?.any fun newest =>
    (some observed).any fun observed => decide (observed < newest)) = false ↔ _
  cases hmax : (knownObservations appliedAt state).max? with
  | none =>
      rw [List.max?_eq_none_iff] at hmax
      rw [hmax]
      simp
  | some newest =>
      obtain ⟨hmem, hle⟩ := List.max?_eq_some_iff.mp hmax
      simp only [Option.any_some, decide_eq_false_iff_not, not_lt]
      constructor
      · exact fun h known hknown => (hle known hknown).trans h
      · exact fun h => h newest hmem

/-- The times that an observation is compared with. -/
theorem mem_knownObservations {known : Int} :
    known ∈ knownObservations appliedAt state ↔
      appliedAt.bind dateParse = some known ∨ state.lastAttemptAt.bind dateParse = some known ∨
        state.lastSuccessAt.bind dateParse = some known := by
  unfold knownObservations
  rw [List.mem_filterMap]
  simp

end

end SimplefinBridge
