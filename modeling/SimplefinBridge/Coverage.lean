import Mathlib.Data.Int.ConditionallyCompleteOrder
import SimplefinBridge.Bookkeeping

/-!
# Coverage of the scraped intervals

A success advances `lastSuccessAt` to its completion, whatever window it
scraped.  The next window reaches back to `lastSuccessAt` less the overlap,
unless an explicit bound narrows it; so an explicit bound after
`lastSuccessAt` leaves a gap that no later run revisits
(`later_bound_leaves_gap`), and without such a bound there is none
(`no_gap_of_boundsInPast`).
-/

namespace SimplefinBridge

/-! ## Scraped instants -/

/-- The success that an event is for the company. -/
def successOf (company : CompanyId) : Event → Option Success
  | .succeeded success => if success.launch.company = company then some success else none
  | _ => none

/-- The successes of a company, oldest first. -/
def successesOf (company : CompanyId) (events : List Event) : List Success :=
  events.filterMap (successOf company)

/-- The instant lies between the window start and the completion of a
successful run. -/
def Scraped (company : CompanyId) (journal : List Event) (instant : Instant) : Prop :=
  ∃ success ∈ successesOf company journal, ∃ start, success.launch.startDate = some start ∧
    start ≤ instant ∧ instant ≤ success.completedAt

/-- `lastSuccessAt` of a stored state. -/
def lastSuccess (stored : Option SourceState) : Option Instant := stored.bind (·.lastSuccessAt)

/-- Everything from the window start of the first success to the current
`lastSuccessAt` has been scraped. -/
def NoGap (company : CompanyId) (journal : List Event) (last : Option Instant) : Prop :=
  ∀ first start completed, (successesOf company journal).head? = some first →
    first.launch.startDate = some start → last = some completed →
    ∀ instant, start ≤ instant → instant ≤ completed → Scraped company journal instant

section
variable (host : Host) (config : Config)

/-- The explicit bounds of a launch are no later than the last success it
found: no `from` date is after it, and a `backfillFrom` date is valid and not
after it. -/
def BoundsInPast (launch : Launch) : Prop :=
  ∀ last, lastSuccess launch.stored = some last →
    (∀ bound date, given launch.options.fromDate = some bound → dateOf host bound = some date →
      date ≤ last) ∧
    ∀ bound, given launch.options.backfillFrom = some bound →
      ∃ date, dateOf host bound = some date ∧ date ≤ last

/-- The configured lower bound of a company. -/
def configStart (companyConfig : CompanyConfig) : Option JsDate :=
  (given companyConfig.startDate).map (dateOf host)

end

/-! ## The window start -/

/-- A valid maximum only grows. -/
theorem laterDate_valid (max : Instant) (date : Option JsDate) :
    ∃ later, laterDate (some (some max)) date = some (some later) ∧ max ≤ later := by
  match date with
  | none => exact ⟨max, rfl, le_rfl⟩
  | some none => exact ⟨max, rfl, le_rfl⟩
  | some (some date) =>
      by_cases hlater : date > max
      · exact ⟨date, if_pos hlater, hlater.le⟩
      · exact ⟨max, if_neg hlater, le_rfl⟩

/-- An invalid maximum stays. -/
theorem laterDate_invalid (date : Option JsDate) : laterDate (some none) date = some none := by
  match date with
  | none => rfl
  | some none => rfl
  | some (some _) => rfl

/-- No date yet, or a valid one below the bound. -/
def DateBelow (bound : Instant) (date : Option JsDate) : Prop :=
  ∀ d, date = some d → ∃ time, d = some time ∧ time ≤ bound

/-- A valid date below the bound keeps the maximum below it. -/
theorem DateBelow.valid {bound date : Instant} {max : Option JsDate} (hmax : DateBelow bound max)
    (hdate : date ≤ bound) :
    ∃ later, laterDate max (some (some date)) = some (some later) ∧ later ≤ bound := by
  cases max with
  | none => exact ⟨date, rfl, hdate⟩
  | some m =>
      obtain ⟨time, htime, hle⟩ := hmax m rfl
      rw [htime]
      by_cases hlater : date > time
      · exact ⟨date, if_pos hlater, hdate⟩
      · exact ⟨time, if_neg hlater, hle⟩

/-- A date that is invalid, or absent, does not change a valid maximum. -/
theorem laterDate_below {bound max : Instant} {date : Option JsDate} (hmax : max ≤ bound)
    (hdate : ∀ time, date = some (some time) → time ≤ bound) :
    ∃ later, laterDate (some (some max)) date = some (some later) ∧ later ≤ bound := by
  match date with
  | none => exact ⟨max, rfl, hmax⟩
  | some none => exact ⟨max, rfl, hmax⟩
  | some (some time) =>
      apply DateBelow.valid
      · intro d hd
        exact ⟨max, (Option.some.inj hd).symm, hmax⟩
      · exact hdate time rfl

section
variable {host : Host} {config : Config} {companyConfig : CompanyConfig} {state : SourceState}
  {options : RunNowOptions} {startedAt : Instant}

/-- The configured start date is a floor of every window. -/
theorem computeWindowStart_floor {start : Instant} {floor : JsDate}
    (hfloor : configStart host companyConfig = some floor)
    (h : computeWindowStart host config companyConfig state options startedAt = .ok (some start)) :
    ∃ date, floor = some date ∧ date ≤ start := by
  unfold computeWindowStart at h
  dsimp only at h
  unfold configStart at hfloor
  split_ifs at h with hbounds hbackfill
  all_goals
    rw [hfloor] at h
    have hmax := Except.ok.inj h
    unfold maxDate at hmax
    simp only [List.foldl_cons, List.foldl_nil] at hmax
    cases floor with
    | none =>
        have hfirst : laterDate none (some none) = some none := rfl
        rw [hfirst, laterDate_invalid, laterDate_invalid] at hmax
        cases hmax
    | some date =>
        have hfirst : laterDate none (some (some date)) = some (some date) := rfl
        refine ⟨date, rfl, ?_⟩
        rw [hfirst] at hmax
        obtain ⟨second, hsecond, hle⟩ := laterDate_valid date _
        rw [hsecond] at hmax
        obtain ⟨third, hthird, hle'⟩ := laterDate_valid second _
        rw [hthird] at hmax
        rw [← Option.some.inj hmax]
        exact hle.trans hle'

/-- A window whose bounds are in the past reaches back to the last success. -/
theorem computeWindowStart_le {startDate : JsDate} {last bound : Instant}
    (h : computeWindowStart host config companyConfig state options startedAt = .ok startDate)
    (hlast : state.lastSuccessAt = some last) (hbound : last ≤ bound)
    (hfloor : ∀ floor, configStart host companyConfig = some floor →
      ∃ date, floor = some date ∧ date ≤ bound)
    (hfrom : ∀ text date, given options.fromDate = some text → dateOf host text = some date →
      date ≤ last)
    (hbackfill : ∀ text, given options.backfillFrom = some text →
      ∃ date, dateOf host text = some date ∧ date ≤ last) :
    ∃ start, startDate = some start ∧ start ≤ bound := by
  have hconfigured : DateBelow bound (laterDate none (configStart host companyConfig)) := by
    have hsame : laterDate none (configStart host companyConfig) = configStart host companyConfig := by
      match configStart host companyConfig with
      | none => rfl
      | some none => rfl
      | some (some _) => rfl
    rw [hsame]
    exact hfloor
  unfold computeWindowStart at h
  dsimp only at h
  by_cases hbackfills : (given options.backfillFrom).isSome = true
  · -- the explicit bound replaces the overlap
    obtain ⟨text, htext⟩ := Option.isSome_iff_exists.mp hbackfills
    obtain ⟨date, hdate, hdateLast⟩ := hbackfill text htext
    split_ifs at h with hboth
    obtain ⟨later, hlater, hle⟩ := hconfigured.valid (hdateLast.trans hbound)
    have hmax : maxDate [(given companyConfig.startDate).map (dateOf host), none,
        ((given options.backfillFrom).or (given options.fromDate)).map (dateOf host)] =
        some (some later) := by
      rw [htext, Option.some_or, Option.map_some, hdate]
      exact hlater
    rw [hmax] at h
    exact ⟨later, (Except.ok.inj h).symm, hle⟩
  · -- the overlap reaches back to the last success, and `from` no further
    have hnone : given options.backfillFrom = none := by
      simpa using hbackfills
    rw [hnone, hlast] at h
    have hoverlap : last - config.overlapDays * msPerDay ≤ bound := by
      have hspan : 0 ≤ config.overlapDays * msPerDay :=
        Int.mul_nonneg (Int.natCast_nonneg _) (by decide)
      exact (Int.sub_le_self _ hspan).trans hbound
    obtain ⟨second, hsecond, hle⟩ := hconfigured.valid hoverlap
    obtain ⟨later, hlater, hle'⟩ := @laterDate_below _ _
      ((given options.fromDate).map (dateOf host))
      hle (by
        intro time htime
        obtain ⟨text, htext, hdate⟩ := Option.map_eq_some_iff.mp htime
        exact (hfrom text time htext hdate).trans hbound)
    have hmax : maxDate [(given companyConfig.startDate).map (dateOf host),
        some (some (last - config.overlapDays * msPerDay)),
        (given options.fromDate).map (dateOf host)] = some (some later) := by
      rw [← hlater, ← hsecond]
      rfl
    simp only [Option.isSome_none, Bool.and_false, Bool.false_eq_true, if_false, Option.none_or,
      Option.map_some] at h
    rw [hmax] at h
    exact ⟨later, (Except.ok.inj h).symm, hle'⟩

end

/-! ## Visits and successes -/

section
variable {host : Host} {config : Config} {clock : Nat → Instant} {options : RunNowOptions}
  {behaviour : Behaviour} {company : CompanyId} {companyConfig : CompanyConfig} {tick : Nat}
  {stored state : Option SourceState} {events journal : List Event} {readings : Nat}

/-- The guard leaves the last success alone, -/
theorem guard_lastSuccessAt {before after : SourceState} {fingerprint : String} {force : Bool}
    {current : Instant} {skip : Option String}
    (h : guard host config before fingerprint force current = (after, skip)) :
    after.lastSuccessAt = before.lastSuccessAt := by
  have hfingerprinted :
      (fingerprinted before fingerprint).lastSuccessAt = before.lastSuccessAt := by
    unfold fingerprinted
    split_ifs <;> rfl
  have hrolled : ∀ today, (rolledOver (fingerprinted before fingerprint) today).lastSuccessAt =
      before.lastSuccessAt := by
    intro today
    unfold rolledOver
    split_ifs
    · exact hfingerprinted
    · exact hfingerprinted
  unfold SimplefinBridge.guard at h
  dsimp only at h
  split_ifs at h <;> cases h
  · exact hfingerprinted
  · exact hfingerprinted
  · exact hrolled _
  · exact hrolled _

/-- and so does a failure. -/
theorem applyFailure_lastSuccessAt (before : SourceState) (errorType : ScrapeErrorType)
    (message : String) (current : Instant) :
    (applyFailure company before errorType message current).lastSuccessAt =
      before.lastSuccessAt := by
  unfold applyFailure
  dsimp only
  split_ifs <;> rfl

/-- A new company has none. -/
theorem lastSuccess_getD :
    (stored.getD (defaultSourceState company)).lastSuccessAt = lastSuccess stored := by
  cases stored with
  | none => rfl
  | some before => rfl

/-- So does whatever passes the guard. -/
theorem Passes.lastSuccess_eq {fingerprint : String} {passed : SourceState}
    (hpass : Passes host config clock options behaviour company tick stored fingerprint passed) :
    passed.lastSuccessAt = lastSuccess stored :=
  (guard_lastSuccessAt hpass.2).trans lastSuccess_getD

/-- What a visit does to the successes: nothing, or one more, whose window was
computed from the last success before it. -/
theorem VisitMove.success_cases
    (hvisit : VisitMove host config clock options behaviour company companyConfig tick stored state
      events readings) :
    (successesOf company events = [] ∧ lastSuccess state = lastSuccess stored) ∨
    ∃ success, successesOf company events = [success] ∧
      lastSuccess state = some success.completedAt ∧ success.launch.stored = stored ∧
      ∃ before, before.lastSuccessAt = lastSuccess stored ∧
        computeWindowStart host config companyConfig before success.launch.options (clock tick) =
          .ok success.launch.startDate := by
  cases hvisit with
  | untouched | refused => exact .inl ⟨rfl, rfl⟩
  | unresolved =>
      refine .inl ⟨rfl, ?_⟩
      exact (applyFailure_lastSuccessAt _ _ _ _).trans lastSuccess_getD
  | skipped _ hcredentials hguard =>
      exact .inl ⟨rfl, (guard_lastSuccessAt hguard).trans lastSuccess_getD⟩
  | counted _ hpass => exact .inl ⟨rfl, hpass.lastSuccess_eq⟩
  | launched _ hpass => exact .inl ⟨rfl, hpass.lastSuccess_eq⟩
  | failed _ hpass =>
      exact .inl ⟨rfl, (applyFailure_lastSuccessAt _ _ _ _).trans hpass.lastSuccess_eq⟩
  | @succeeded _ fingerprint passed startDate hpass hwindow result =>
      right
      refine ⟨⟨⟨company, options, stored, fingerprint, clock (tick + 1), startDate⟩,
        clock (tick + 3)⟩, ?_, rfl, rfl, countedState passed (clock tick), hpass.lastSuccess_eq, hwindow⟩
      simp only [successesOf, List.filterMap_cons, List.filterMap_nil, successOf, if_true]

/-- Events of others are no success. -/
theorem successOf_other {event : Event} (h : event.company ≠ company) :
    successOf company event = none := by
  cases event with
  | succeeded success => exact if_neg h
  | visited | guarded | launched | unparked => rfl

/-! ## The coverage invariant -/

/-- What has been scraped up to the last success of a company. -/
structure Coverage (host : Host) (config : Config) (company : CompanyId) (journal : List Event)
    (last : Option Instant) : Prop where
  started : successesOf company journal = [] → last = none
  completed : successesOf company journal ≠ [] → last.isSome = true
  noGap : NoGap company journal last
  floor : ∀ first start, (successesOf company journal).head? = some first →
    first.launch.startDate = some start →
    ∀ companyConfig, (company, companyConfig) ∈ config.companies →
      ∀ floor, configStart host companyConfig = some floor → ∃ date, floor = some date ∧ date ≤ start

/-- Without a success nothing changes. -/
theorem Coverage.quiet {last : Option Instant} (h : Coverage host config company journal last)
    (hquiet : successesOf company events = []) :
    Coverage host config company (journal ++ events) last := by
  have hsame : successesOf company (journal ++ events) = successesOf company journal := by
    unfold successesOf at hquiet ⊢
    rw [List.filterMap_append, hquiet, List.append_nil]
  refine ⟨?_, ?_, ?_, ?_⟩
  · rw [hsame]
    exact h.started
  · rw [hsame]
    exact h.completed
  · unfold NoGap Scraped
    rw [hsame]
    exact h.noGap
  · rw [hsame]
    exact h.floor

/-- A success covers up to its time. -/
theorem Coverage.success {last : Option Instant} (h : Coverage host config company journal last)
    {success : Success} {before : SourceState} {startedAt : Instant}
    (hcompany : (company, companyConfig) ∈ config.companies)
    (hsuccess : successesOf company events = [success])
    (hbefore' : before.lastSuccessAt = last) (hstored : lastSuccess success.launch.stored = last)
    (hwindow : computeWindowStart host config companyConfig before success.launch.options startedAt =
      .ok success.launch.startDate)
    (hpast : BoundsInPast host success.launch) :
    Coverage host config company (journal ++ events) (some success.completedAt) := by
  have hall : successesOf company (journal ++ events) =
      successesOf company journal ++ [success] := by
    unfold successesOf at hsuccess ⊢
    rw [List.filterMap_append, hsuccess]
  have hunique : ∀ other, (company, other) ∈ config.companies → other = companyConfig := by
    intro other hother
    have hentry := List.inj_on_of_nodup_map config.companies_nodup hother hcompany rfl
    exact congrArg Prod.snd hentry
  have hself : ∀ start, success.launch.startDate = some start → ∀ instant, start ≤ instant →
      instant ≤ success.completedAt → Scraped company (journal ++ events) instant := by
    intro start hstart instant hle hge
    refine ⟨success, ?_, start, hstart, hle, hge⟩
    rw [hall]
    exact List.mem_append_right _ List.mem_cons_self
  have hold : ∀ instant, Scraped company journal instant →
      Scraped company (journal ++ events) instant := by
    intro instant hscraped
    obtain ⟨earlier, hmem, hinterval⟩ := hscraped
    refine ⟨earlier, ?_, hinterval⟩
    rw [hall]
    exact List.mem_append_left _ hmem
  by_cases hfirst : successesOf company journal = []
  · -- the first success: its own window is all there is to cover
    have hhead : (successesOf company (journal ++ events)).head? = some success := by
      rw [hall, hfirst]
      rfl
    refine ⟨?_, fun _ => rfl, ?_, ?_⟩
    · intro hnone
      rw [hnone] at hhead
      cases hhead
    · intro first start completed hfirst' hstart hcompleted instant hle hge
      rw [hhead] at hfirst'
      rw [← Option.some.inj hfirst'] at hstart
      rw [← Option.some.inj hcompleted] at hge
      exact hself start hstart instant hle hge
    · intro first start hfirst' hstart other hother floor hfloor
      rw [hhead] at hfirst'
      rw [← Option.some.inj hfirst'] at hstart
      rw [hunique other hother] at hfloor
      rw [hstart] at hwindow
      exact computeWindowStart_floor hfloor hwindow
  · -- a later one: what is past the previous success lies in the new window
    obtain ⟨previous, hprevious⟩ := Option.isSome_iff_exists.mp (h.completed hfirst)
    have hhead : (successesOf company (journal ++ events)).head? =
        (successesOf company journal).head? := by
      rw [hall, List.head?_append_of_ne_nil _ hfirst]
    refine ⟨?_, fun _ => rfl, ?_, ?_⟩
    · intro hnone
      rw [hall] at hnone
      exact absurd (List.append_eq_nil_iff.mp hnone).1 hfirst
    · intro first start completed hfirst' hstart hcompleted instant hle hge
      rw [hhead] at hfirst'
      rw [← Option.some.inj hcompleted] at hge
      by_cases hbefore : instant ≤ previous
      · exact hold instant (h.noGap first start previous hfirst' hstart hprevious instant hle hbefore)
      · obtain ⟨hfrom, hbackfill⟩ := hpast previous (hstored.trans hprevious)
        have hfloors : ∀ floor, configStart host companyConfig = some floor →
            ∃ date, floor = some date ∧ date ≤ instant := by
          intro floor hfloor
          obtain ⟨date, hdate, hdateStart⟩ :=
            h.floor first start hfirst' hstart companyConfig hcompany floor hfloor
          exact ⟨date, hdate, hdateStart.trans hle⟩
        obtain ⟨reached, hreached, hreachedLe⟩ := computeWindowStart_le hwindow
          (hbefore'.trans hprevious) (not_le.mp hbefore).le hfloors hfrom hbackfill
        exact hself reached hreached instant hreachedLe hge
    · intro first start hfirst' hstart
      rw [hhead] at hfirst'
      exact h.floor first start hfirst' hstart

/-- **Step lemma.**  While the bounds are in the past, every move keeps the
coverage of a company. -/
theorem Coverage.move {operation : Operation} {b b' : Bookkeeping}
    (hmove : Move host config clock operation b b')
    (h : (∀ success ∈ successesOf company b.journal, BoundsInPast host success.launch) →
      Coverage host config company b.journal (lastSuccess (b.states company)))
    (hpast : ∀ success ∈ successesOf company b'.journal, BoundsInPast host success.launch) :
    Coverage host config company b'.journal (lastSuccess (b'.states company)) := by
  have hbefore : ∀ events, b'.journal = b.journal ++ events →
      Coverage host config company b.journal (lastSuccess (b.states company)) := by
    intro events hjournal
    apply h
    intro success hsuccess
    apply hpast
    rw [hjournal]
    unfold successesOf
    rw [List.filterMap_append]
    exact List.mem_append_left _ hsuccess
  rcases hmove.company_cases company with ⟨hstates, events, hjournal, hothers⟩ |
    ⟨call, companyConfig, state, events, readings, -, hcompany, hvisit, hafter⟩ |
    ⟨faults, state, -, hstored, hafter⟩
  · rw [hstates, hjournal]
    apply (hbefore events hjournal).quiet
    exact List.filterMap_eq_nil_iff.mpr fun event hevent => successOf_other (hothers event hevent)
  · have hjournal : b'.journal = b.journal ++ events := by
      rw [hafter, Bookkeeping.after_journal]
    have hold := hbefore events hjournal
    rw [hjournal, hafter, Bookkeeping.after_states_self]
    rcases hvisit.success_cases with ⟨hquiet, hlast⟩ |
      ⟨success, hsuccess, hlast, hfound, before, hsame, hwindow⟩
    · rw [hlast]
      exact hold.quiet hquiet
    · rw [hlast]
      apply hold.success hcompany hsuccess hsame (congrArg lastSuccess hfound) hwindow
      apply hpast
      rw [hjournal]
      unfold successesOf at hsuccess ⊢
      rw [List.filterMap_append, hsuccess]
      exact List.mem_append_right _ List.mem_cons_self
  · rw [hafter, Bookkeeping.after_states_self, Bookkeeping.after_journal]
    have hold := hbefore [.unparked company] (by rw [hafter, Bookkeeping.after_journal])
    have hlast : lastSuccess (some (unparkedState state)) = lastSuccess (b.states company) := by
      rw [hstored]
      rfl
    rw [hlast]
    exact hold.quiet rfl

end

/-! ## Coverage over runs -/

/-- `lastSuccessAt` of a company in the ledger. -/
def lastSuccessIn (company : CompanyId) (w : SchedulerWorld) : Option Instant :=
  lastSuccess (w.session.ledger.sourceStates.find company)

/-- **No gap.**  From a ledger in which a company has no success yet, in every
run in which the explicit bounds of its successful launches are in the past,
everything from its first window start to its current `lastSuccessAt` has been
scraped. -/
theorem no_gap_of_boundsInPast (host : Host) (config : Config) (clock : Nat → Instant)
    (ledger : Ledger) (company : CompanyId) (operations : List Operation)
    (hfresh : lastSuccessIn company (.start ledger) = none)
    (hpast : ∀ success ∈ successesOf company
        (Runs.run (perform host config clock) (.start ledger) operations).journal,
      BoundsInPast host success.launch) :
    NoGap company (Runs.run (perform host config clock) (.start ledger) operations).journal
      (lastSuccessIn company (Runs.run (perform host config clock) (.start ledger) operations)) := by
  have hcoverage := run_perform_invariant host config clock
    (fun b => (∀ success ∈ successesOf company b.journal, BoundsInPast host success.launch) →
      Coverage host config company b.journal (lastSuccess (b.states company)))
    (fun _ _ _ hmove h => Coverage.move hmove h) (w := .start ledger) ?_ operations
  · exact (hcoverage hpast).noGap
  · intro _
    refine ⟨fun _ => hfresh, fun h => absurd rfl h, ?_, ?_⟩
    · intro first start completed hfirst
      cases hfirst
    · intro first start hfirst
      cases hfirst

/-! ## A narrowed window -/

/-- A configuration of one company. -/
def oneCompany : Config where
  timezone := "UTC"
  currency := "ILS"
  staleHours := 30
  overlapDays := 2
  maxLoginAttemptsPerDay := 3
  companies := [("isracard", ⟨true, "Isracard", .credit_card, none, none, true, .purchase, false⟩)]
  companies_nodup := by decide
  publicUrl := "https://bridge.example"

/-- Every visit takes place ten days after the one before. -/
def everyTenDays (reading : Nat) : Instant := 1728000000000 + (reading / 5 : Nat) * 864000000

/-- Successful scrapes with these `from` bounds. -/
def scrapes (fromDates : List (Option IsoDate)) : List Operation :=
  fromDates.map fun fromDate =>
    .run ⟨⟨none, fromDate, none, false⟩,
      fun _ => ⟨some "fingerprint", true, .ok ⟨[], [], [], 0⟩, [], fun _ => 0, "run"⟩, []⟩

/-- The world after scraping with these `from` bounds. -/
def scraped (fromDates : List (Option IsoDate)) : SchedulerWorld :=
  Runs.run (perform asciiHost oneCompany everyTenDays) (.start emptyLedger) (scrapes fromDates)

/-- A run from an earlier date leaves no gap. -/
theorem no_gap_earlier_bound :
    NoGap "isracard" (scraped [none, some "2024-10-01"]).journal
      (lastSuccessIn "isracard" (scraped [none, some "2024-10-01"])) := by
  have hlaunches : (successesOf "isracard" (scraped [none, some "2024-10-01"]).journal).map
      (fun success => (lastSuccess success.launch.stored, success.launch.options.fromDate,
        success.launch.options.backfillFrom)) =
      [(none, none, none), (some 1728000000000, some "2024-10-01", none)] := by decide +kernel
  have hdate : dateOf asciiHost "2024-10-01" = some 1727740800000 := by decide +kernel
  apply no_gap_of_boundsInPast asciiHost oneCompany everyTenDays emptyLedger "isracard"
    (scrapes [none, some "2024-10-01"]) rfl
  intro success hsuccess last hlast
  have hmem : (lastSuccess success.launch.stored, success.launch.options.fromDate,
      success.launch.options.backfillFrom) ∈
      [(none, none, none), (some 1728000000000, some "2024-10-01", none)] := by
    rw [← hlaunches]
    exact List.mem_map_of_mem hsuccess
  rw [List.mem_cons, List.mem_singleton, Prod.mk.injEq, Prod.mk.injEq, Prod.mk.injEq,
    Prod.mk.injEq] at hmem
  rcases hmem with ⟨hnone, -, -⟩ | ⟨hstored, hfrom, hbackfill⟩
  · rw [hnone] at hlast
    cases hlast
  · rw [hstored] at hlast
    rw [hfrom, hbackfill, ← Option.some.inj hlast]
    constructor
    · intro bound date hbound hdateOf
      rw [← Option.some.inj hbound, hdate] at hdateOf
      rw [← Option.some.inj hdateOf]
      decide
    · intro bound hbound
      cases hbound

/-- A scrape `from` a date ten days after the last success leaves the days
between unscraped: the bound is a documented narrowing, and `lastSuccessAt`
advances past it. -/
theorem later_bound_leaves_gap :
    Monotone everyTenDays ∧ 1 ≤ oneCompany.overlapDays ∧
      ¬NoGap "isracard" (scraped [none, some "2024-10-12"]).journal
        (lastSuccessIn "isracard" (scraped [none, some "2024-10-12"])) := by
  have hintervals : (successesOf "isracard" (scraped [none, some "2024-10-12"]).journal).map
      (fun success => (success.launch.startDate, success.completedAt)) =
      [(some 1696464000000, 1728000000000), (some 1728691200000, 1728864000000)] := by
    decide +kernel
  have hlast : lastSuccessIn "isracard" (scraped [none, some "2024-10-12"]) =
      some 1728864000000 := by decide +kernel
  refine ⟨?_, by decide, ?_⟩
  · intro a b hab
    have hvisits : ((a / 5 : Nat) : Int) ≤ (b / 5 : Nat) :=
      Int.ofNat_le.mpr (Nat.div_le_div_right hab)
    exact Int.add_le_add_left (Int.mul_le_mul_of_nonneg_right hvisits (by decide)) _
  · intro hgap
    -- 2024-10-10, between the first success and the bound of the second
    have hscraped : Scraped "isracard" (scraped [none, some "2024-10-12"]).journal 1728518400000 := by
      cases hfirst : (successesOf "isracard" (scraped [none, some "2024-10-12"]).journal) with
      | nil =>
          rw [hfirst] at hintervals
          cases hintervals
      | cons first rest =>
          rw [hfirst, List.map_cons, List.cons.injEq, Prod.mk.injEq] at hintervals
          exact hgap first 1696464000000 1728864000000 (by rw [hfirst]; rfl) hintervals.1.1 hlast
            1728518400000 (by decide) (by decide)
    obtain ⟨success, hsuccess, start, hstart, hle, hge⟩ := hscraped
    have hmem : (success.launch.startDate, success.completedAt) ∈
        [(some 1696464000000, 1728000000000), (some 1728691200000, 1728864000000)] := by
      rw [← hintervals]
      exact List.mem_map_of_mem hsuccess
    rw [List.mem_cons, List.mem_singleton, Prod.mk.injEq, Prod.mk.injEq, hstart] at hmem
    rcases hmem with ⟨-, hcompleted⟩ | ⟨hbound, -⟩
    · rw [hcompleted] at hge
      exact absurd hge (by decide)
    · rw [Option.some.inj hbound] at hle
      exact absurd hle (by decide)

end SimplefinBridge
