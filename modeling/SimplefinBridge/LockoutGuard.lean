import Mathlib.Data.List.Infix
import SimplefinBridge.Bookkeeping

/-!
# The lockout guard

Banks lock an account after a few failed logins, so the scheduler limits the
launches of `source.run`.  `lockout_guard` states the three limits over whole
runs of calls, from any stored ledger and with any clock.

The daily limit is an invariant of the moves (`Counted`): the stored counter
is at least the number of launches since the last reset, and a launch needs a
counter below the cap.
-/

namespace SimplefinBridge

open Transactional Relation

/-! ## Attempts between resets -/

/-- The launch that an event is for the company. -/
def launchOf (company : CompanyId) : Event → Option Launch
  | .launched launch => if launch.company = company then some launch else none
  | _ => none

/-- The launches of a company, oldest first. -/
def launchesOf (company : CompanyId) (events : List Event) : List Launch :=
  events.filterMap (launchOf company)

section
variable (host : Host) (config : Config)

/-- The calendar day on which the guard ran, for a guard run or a launch. -/
def guardDay : Event → Option IsoDate
  | .guarded _ guardedAt => some (calendarDate host guardedAt config.timezone)
  | .launched launch => some (calendarDate host launch.guardedAt config.timezone)
  | _ => none

/-- No reset of the company's attempts: neither `unparkCompany` nor a guard run
on another calendar day. -/
def WithoutReset (company : CompanyId) (day : IsoDate) (segment : List Event) : Prop :=
  ∀ event ∈ segment, event.company = company →
    event ≠ .unparked company ∧ ∀ guarded, guardDay host config event = some guarded → guarded = day

/-- Between two resets a company is launched at most
`maxLoginAttemptsPerDay` times. -/
def AttemptsBounded (journal : List Event) : Prop :=
  ∀ company day segment, segment <:+: journal → WithoutReset host config company day segment →
    (launchesOf company segment).length ≤ config.maxLoginAttemptsPerDay

/-- The attempts a stored state counts on a day. -/
def attemptsOn (day : IsoDate) : Option SourceState → Nat
  | some state => if state.loginAttemptsDate = some day then state.loginAttempts else 0
  | none => 0

/-- The stored counter covers the launches since the last reset. -/
structure Counted (company : CompanyId) (journal : List Event) (stored : Option SourceState) :
    Prop where
  bounded : ∀ day segment, segment <:+: journal → WithoutReset host config company day segment →
    (launchesOf company segment).length ≤ config.maxLoginAttemptsPerDay
  covered : ∀ day segment, segment <:+ journal → WithoutReset host config company day segment →
    (launchesOf company segment).length ≤ attemptsOn day stored

end

section
variable {host : Host} {config : Config} {company : CompanyId} {journal : List Event}
  {stored stored' : Option SourceState}

/-- The launches of both parts. -/
theorem launchesOf_append (before after : List Event) :
    launchesOf company (before ++ after) = launchesOf company before ++ launchesOf company after :=
  List.filterMap_append

/-- No reset in either part. -/
theorem withoutReset_append {day : IsoDate} {before after : List Event} :
    WithoutReset host config company day (before ++ after) ↔
      WithoutReset host config company day before ∧ WithoutReset host config company day after := by
  unfold WithoutReset
  exact List.forall_mem_append

/-- Nothing has been launched yet. -/
theorem counted_nil : Counted host config company [] stored where
  bounded := by
    intro day segment hinfix _
    rw [List.infix_nil.mp hinfix]
    exact Nat.zero_le _
  covered := by
    intro day segment hsuffix _
    rw [List.suffix_nil.mp hsuffix]
    exact Nat.zero_le _

/-- The stored state may count more. -/
theorem Counted.mono (h : Counted host config company journal stored)
    (hmore : ∀ day, attemptsOn day stored ≤ attemptsOn day stored') :
    Counted host config company journal stored' where
  bounded := h.bounded
  covered := by
    intro day segment hsuffix hreset
    exact (h.covered day segment hsuffix hreset).trans (hmore day)

/-- **Event lemma.**  An event keeps the count when the state written with it
counts the launches of the event, and a launch stays within the cap. -/
theorem Counted.event {event : Event} (h : Counted host config company journal stored)
    (hcount : ∀ day, WithoutReset host config company day [event] →
      attemptsOn day stored + (launchesOf company [event]).length ≤ attemptsOn day stored')
    (hcap : ∀ day, WithoutReset host config company day [event] →
      launchesOf company [event] = [] ∨ attemptsOn day stored' ≤ config.maxLoginAttemptsPerDay) :
    Counted host config company (journal ++ [event]) stored' := by
  have hcovered : ∀ day segment, segment <:+ journal ++ [event] →
      WithoutReset host config company day segment →
      (launchesOf company segment).length ≤ attemptsOn day stored' := by
    intro day segment hsuffix hreset
    rcases List.suffix_concat_iff.mp hsuffix with rfl | ⟨before, rfl, hbefore⟩
    · exact Nat.zero_le _
    · obtain ⟨hfirst, hlast⟩ := withoutReset_append.mp hreset
      have hprevious := h.covered day before hbefore hfirst
      have hnext := hcount day hlast
      rw [launchesOf_append, List.length_append]
      omega
  refine ⟨?_, hcovered⟩
  intro day segment hinfix hreset
  rcases List.infix_concat_iff.mp hinfix with hsuffix | hold
  · rcases List.suffix_concat_iff.mp hsuffix with rfl | ⟨before, rfl, hbefore⟩
    · exact Nat.zero_le _
    · obtain ⟨hfirst, hlast⟩ := withoutReset_append.mp hreset
      rcases hcap day hlast with hnone | hbelow
      · rw [launchesOf_append, hnone, List.append_nil]
        exact h.bounded day before hbefore.isInfix hfirst
      · exact (hcovered day _ hsuffix hreset).trans hbelow
  · exact h.bounded day segment hold hreset

/-- An event that is no launch of the company needs a state that counts at
least as much on the days the event does not end. -/
theorem Counted.quiet {event : Event} (h : Counted host config company journal stored)
    (hquiet : launchOf company event = none)
    (hcount : ∀ day, WithoutReset host config company day [event] →
      attemptsOn day stored ≤ attemptsOn day stored') :
    Counted host config company (journal ++ [event]) stored' := by
  have hnone : launchesOf company [event] = [] := by
    unfold launchesOf
    rw [List.filterMap_cons_none hquiet, List.filterMap_nil]
  apply h.event
  · intro day hreset
    rw [hnone]
    exact hcount day hreset
  · exact fun _ _ => .inl hnone

/-- Events of others launch nothing. -/
theorem launchOf_other {event : Event} (h : event.company ≠ company) :
    launchOf company event = none := by
  cases event with
  | launched launch => exact if_neg h
  | visited | guarded | succeeded | unparked => rfl

/-- Events of other companies keep the count. -/
theorem Counted.others {events : List Event} (hothers : ∀ event ∈ events, event.company ≠ company)
    (h : Counted host config company journal stored) :
    Counted host config company (journal ++ events) stored := by
  induction events generalizing journal with
  | nil =>
      rw [List.append_nil]
      exact h
  | cons event events ih =>
      have hfirst : Counted host config company (journal ++ [event]) stored :=
        h.quiet (launchOf_other (hothers event List.mem_cons_self)) fun _ _ => le_rfl
      have hrest := ih (fun e he => hothers e (List.mem_cons_of_mem _ he)) hfirst
      rwa [List.append_assoc] at hrest

/-! ## The guard -/

/-- A fingerprint leaves the attempts of the day alone, -/
theorem attemptsOn_fingerprinted (day : IsoDate) (state : SourceState) (fingerprint : String) :
    attemptsOn day (some (fingerprinted state fingerprint)) = attemptsOn day (some state) := by
  unfold fingerprinted
  split_ifs <;> rfl

/-- Starting the counter over on its own day loses nothing. -/
theorem attemptsOn_rolledOver (day : IsoDate) (state : SourceState) :
    attemptsOn day (some (rolledOver state day)) = attemptsOn day (some state) := by
  unfold rolledOver attemptsOn
  by_cases hday : state.loginAttemptsDate = some day
  · rw [if_neg (not_not.mpr hday)]
  · simp [hday]

/-- and so does the first state of a company, -/
theorem attemptsOn_getD (day : IsoDate) (stored : Option SourceState) :
    attemptsOn day (some (stored.getD (defaultSourceState company))) = attemptsOn day stored := by
  cases stored with
  | some state => rfl
  | none => rfl

/-- and a failure. -/
theorem attemptsOn_applyFailure (day : IsoDate) (state : SourceState) (errorType : ScrapeErrorType)
    (message : String) (current : Instant) :
    attemptsOn day (some (applyFailure company state errorType message current)) =
      attemptsOn day (some state) := by
  unfold applyFailure
  dsimp only
  split_ifs <;> rfl

/-- What the guard leaves when it refuses. -/
theorem guard_refuses {state state' : SourceState} {fingerprint message : String} {force : Bool}
    {current : Instant}
    (h : guard host config state fingerprint force current = (state', some message)) :
    state' = fingerprinted state fingerprint ∨
      state' = rolledOver (fingerprinted state fingerprint)
        (calendarDate host current config.timezone) := by
  unfold SimplefinBridge.guard at h
  dsimp only at h
  split_ifs at h <;> cases h
  · exact .inl rfl
  · exact .inl rfl
  · exact .inr rfl

/-- What holds when the guard lets a visit through. -/
theorem guard_passes {state state' : SourceState} {fingerprint : String} {force : Bool}
    {current : Instant} (h : guard host config state fingerprint force current = (state', none)) :
    state' = rolledOver (fingerprinted state fingerprint)
        (calendarDate host current config.timezone) ∧
      state'.loginAttempts < config.maxLoginAttemptsPerDay ∧
      (force = false → (fingerprinted state fingerprint).parked = false ∧
        ∀ time, (fingerprinted state fingerprint).nextAllowedAt = some time → time ≤ current) := by
  unfold SimplefinBridge.guard at h
  dsimp only at h
  split_ifs at h with hparked hbackoff hcap
  · cases h
  · cases h
  · cases h
  · cases h
    refine ⟨rfl, Nat.lt_of_not_le hcap, ?_⟩
    rintro rfl
    refine ⟨by simpa using hparked, ?_⟩
    intro time htime
    rw [htime] at hbackoff
    simpa using hbackoff

/-! ## Moves keep the count -/

variable {clock : Nat → Instant} {options : RunNowOptions} {behaviour : Behaviour}
  {companyConfig : CompanyConfig} {tick : Nat} {state : Option SourceState} {events : List Event}
  {readings : Nat}

/-- The guard looked at the day. -/
theorem guardDay_guarded {day : IsoDate} {current : Instant}
    (h : WithoutReset host config company day [.guarded company current]) :
    calendarDate host current config.timezone = day :=
  (h _ (List.mem_singleton.mpr rfl) rfl).2 _ rfl

/-- The guard run of a visit that is let through: afterwards the state of the
guard's day counts what the stored one did. -/
private theorem Passes.attemptsOn_eq {fingerprint : String} {passed : SourceState}
    (hpass : Passes host config clock options behaviour company tick stored fingerprint passed)
    {day : IsoDate}
    (hday : calendarDate host (clock (tick + 1)) config.timezone = day) :
    attemptsOn day (some passed) = attemptsOn day stored := by
  obtain ⟨hpassed, -⟩ := guard_passes hpass.2
  rw [hpassed, hday, attemptsOn_rolledOver, attemptsOn_fingerprinted, attemptsOn_getD]

/-- A launch: the counted state has one attempt more, and stays within the
cap. -/
private theorem Counted.launch {fingerprint : String} {passed : SourceState} {startDate : JsDate}
    (hpass : Passes host config clock options behaviour company tick stored fingerprint passed)
    (h : Counted host config company journal (some passed)) :
    Counted host config company
      (journal ++ [.launched ⟨company, options, stored, fingerprint, clock (tick + 1), startDate⟩])
      (some (countedState passed (clock tick))) := by
  obtain ⟨hpassed, hcap, -⟩ := guard_passes hpass.2
  have hdate : passed.loginAttemptsDate = some (calendarDate host (clock (tick + 1)) config.timezone) := by
    rw [hpassed]
    unfold rolledOver
    split_ifs with hday
    · rfl
    · exact not_not.mp hday
  have hcounted : ∀ day, WithoutReset host config company day
      [.launched ⟨company, options, stored, fingerprint, clock (tick + 1), startDate⟩] →
      attemptsOn day (some passed) = passed.loginAttempts ∧
        attemptsOn day (some (countedState passed (clock tick))) = passed.loginAttempts + 1 := by
    intro day hreset
    have hday : calendarDate host (clock (tick + 1)) config.timezone = day :=
      (hreset _ (List.mem_singleton.mpr rfl) rfl).2 _ rfl
    rw [hday] at hdate
    exact ⟨if_pos hdate, if_pos hdate⟩
  have hlaunches : ∀ launch : Launch, launch.company = company →
      launchesOf company [.launched launch] = [launch] := by
    intro launch hcompany
    simp [launchesOf, launchOf, hcompany]
  apply h.event
  · intro day hreset
    obtain ⟨hbefore, hafter⟩ := hcounted day hreset
    rw [hbefore, hafter, hlaunches _ rfl]
    exact le_rfl
  · intro day hreset
    right
    rw [(hcounted day hreset).2]
    exact hcap

/-- A visit keeps the count of its company. -/
theorem Counted.visit (h : Counted host config company journal stored)
    (hvisit : VisitMove host config clock options behaviour company companyConfig tick stored state
      events readings) : Counted host config company (journal ++ events) state := by
  have hvisited : Counted host config company (journal ++ [.visited company]) stored :=
    h.quiet rfl fun _ _ => le_rfl
  have hguarded : ∀ next : Option SourceState,
      attemptsOn (calendarDate host (clock (tick + 1)) config.timezone) stored ≤
        attemptsOn (calendarDate host (clock (tick + 1)) config.timezone) next →
      Counted host config company
        (journal ++ [.visited company] ++ [.guarded company (clock (tick + 1))]) next := by
    intro next hnext
    apply hvisited.quiet rfl
    intro day hreset
    rw [← guardDay_guarded hreset]
    exact hnext
  have hlaunched : ∀ {fingerprint passed} startDate,
      Passes host config clock options behaviour company tick stored fingerprint passed →
      Counted host config company
        (journal ++ [.visited company] ++ [.guarded company (clock (tick + 1))] ++
          [.launched ⟨company, options, stored, fingerprint, clock (tick + 1), startDate⟩])
        (some (countedState passed (clock tick))) := by
    intro fingerprint passed startDate hpass
    exact Counted.launch hpass (hguarded _ (hpass.attemptsOn_eq rfl).ge)
  cases hvisit with
  | untouched => exact hvisited
  | unresolved =>
      apply h.quiet rfl
      intro day _
      calc attemptsOn day stored
          = attemptsOn day (some (applyFailure company (stored.getD (defaultSourceState company))
              .BRIDGE_ERROR credentialMessage (clock (tick + 1)))) := by
            rw [attemptsOn_applyFailure, attemptsOn_getD]
        _ ≤ _ := le_rfl
  | refused =>
      have hkept := hguarded stored le_rfl
      rwa [List.append_assoc] at hkept
  | @skipped _ fingerprint message skipped hcredentials hguard =>
      have hskipped : Counted host config company
          (journal ++ [.visited company] ++ [.guarded company (clock (tick + 1))])
          (some skipped) := by
        apply hguarded
        rcases guard_refuses hguard with rfl | rfl
        · rw [attemptsOn_fingerprinted, attemptsOn_getD]
        · rw [attemptsOn_rolledOver, attemptsOn_fingerprinted, attemptsOn_getD]
      rwa [List.append_assoc] at hskipped
  | @counted _ fingerprint passed hpass =>
      have hcounted : Counted host config company
          (journal ++ [.visited company] ++ [.guarded company (clock (tick + 1))])
          (some (countedState passed (clock tick))) := by
        apply hguarded
        rw [← hpass.attemptsOn_eq rfl]
        unfold attemptsOn countedState
        dsimp only
        split_ifs
        · exact Nat.le_succ _
        · exact le_rfl
      rwa [List.append_assoc] at hcounted
  | @launched _ fingerprint passed startDate hpass hwindow =>
      have hlaunch := hlaunched startDate hpass
      rwa [List.append_assoc, List.append_assoc] at hlaunch
  | @failed _ fingerprint passed startDate hpass hwindow errorType message =>
      have hlaunch := (hlaunched startDate hpass).mono fun day =>
        (@attemptsOn_applyFailure company day (countedState passed (clock tick))
          errorType message (clock (tick + 2))).ge
      rwa [List.append_assoc, List.append_assoc] at hlaunch
  | @succeeded _ fingerprint passed startDate hpass hwindow result hreadings =>
      have hsuccess : Counted host config company
          (journal ++ [.visited company] ++ [.guarded company (clock (tick + 1))] ++
            [.launched ⟨company, options, stored, fingerprint, clock (tick + 1), startDate⟩] ++
            [.succeeded ⟨⟨company, options, stored, fingerprint, clock (tick + 1), startDate⟩,
              clock (tick + 3)⟩])
          (some (succeededState (countedState passed (clock tick)) result (clock (tick + 3)))) :=
        (hlaunched startDate hpass).quiet rfl fun _ _ => le_rfl
      rwa [List.append_assoc, List.append_assoc, List.append_assoc] at hsuccess

/-- Every company's launches are counted. -/
def AllCounted (host : Host) (config : Config) (b : Bookkeeping) : Prop :=
  ∀ company, Counted host config company b.journal (b.states company)

/-- **Step lemma.**  Every move keeps every company's count. -/
theorem AllCounted.move {operation : Operation} {b b' : Bookkeeping}
    (h : AllCounted host config b) (hmove : Move host config clock operation b b') :
    AllCounted host config b' := by
  intro company
  rcases hmove.company_cases company with ⟨hstates, events, hjournal, hothers⟩ |
    ⟨call, companyConfig, state, events, readings, -, -, hvisit, hafter⟩ |
    ⟨faults, state, -, hstored, hafter⟩
  · rw [hstates, hjournal]
    exact (h company).others hothers
  · rw [hafter, Bookkeeping.after_states_self]
    exact (h company).visit hvisit
  · rw [hafter, Bookkeeping.after_states_self]
    apply (h company).quiet rfl
    intro day hreset
    exact absurd rfl (hreset _ (List.mem_singleton.mpr rfl) rfl).1

/-! ## Launches without force -/

/-- The remembered fingerprint is another one. -/
def ChangedSince (state : SourceState) (fingerprint : String) : Prop :=
  ∃ previous, state.credentialFingerprint = some previous ∧ previous ≠ fingerprint

/-- A launch that respects the parking and the backoff of the stored state. -/
structure LaunchAllowed (launch : Launch) : Prop where
  notParked : ∀ state, launch.stored = some state → state.parked = true →
    ChangedSince state launch.fingerprint
  due : ∀ state time, launch.stored = some state → state.nextAllowedAt = some time →
    time ≤ launch.guardedAt ∨ state.parked = true ∧ ChangedSince state launch.fingerprint

/-- A change lets a parked company go. -/
theorem changed_of_credentialsChanged {state : SourceState} {fingerprint : String}
    (h : credentialsChanged state fingerprint = true) :
    state.parked = true ∧ ChangedSince state fingerprint := by
  unfold credentialsChanged given at h
  cases hprevious : state.credentialFingerprint with
  | none => simp [hprevious] at h
  | some previous =>
      rw [hprevious] at h
      obtain ⟨hparked, hany⟩ := Bool.and_eq_true_iff.mp h
      refine ⟨hparked, previous, hprevious, ?_⟩
      rintro rfl
      by_cases hempty : previous = ""
      · simp [Option.filter, hempty] at hany
      · simp [Option.filter, hempty] at hany

/-- A launch that passes is allowed. -/
theorem Passes.launchAllowed {fingerprint : String} {passed : SourceState} {startDate : JsDate}
    (hpass : Passes host config clock options behaviour company tick stored fingerprint passed)
    (hforce : options.force = false) :
    LaunchAllowed ⟨company, options, stored, fingerprint, clock (tick + 1), startDate⟩ := by
  obtain ⟨-, -, hfree⟩ := guard_passes hpass.2
  obtain ⟨hparked, hdue⟩ := hfree hforce
  have hchange : ∀ state, stored = some state →
      state.parked = true ∧ ChangedSince state fingerprint ∨
        state.parked = false ∧ ∀ time, state.nextAllowedAt = some time → time ≤ clock (tick + 1) := by
    rintro state rfl
    by_cases hchanged : credentialsChanged state fingerprint = true
    · exact .inl (changed_of_credentialsChanged hchanged)
    · right
      unfold fingerprinted at hparked hdue
      rw [Option.getD_some, if_neg hchanged] at hparked hdue
      exact ⟨hparked, hdue⟩
  constructor
  · intro state hstate hstored
    rcases hchange state hstate with ⟨-, hchanged⟩ | ⟨hnot, -⟩
    · exact hchanged
    · rw [hnot] at hstored
      cases hstored
  · intro state time hstate htime
    rcases hchange state hstate with hchanged | ⟨-, htimes⟩
    · exact .inr hchanged
    · exact .inl (htimes time htime)

/-- Every launch made without force was allowed. -/
def LaunchesAllowed (journal : List Event) : Prop :=
  ∀ launch, .launched launch ∈ journal → launch.options.force = false → LaunchAllowed launch

/-- So is every launch of a visit, -/
theorem VisitMove.launchesAllowed
    (hvisit : VisitMove host config clock options behaviour company companyConfig tick stored state
      events readings) : LaunchesAllowed events := by
  intro launch hlaunch hforced
  cases hvisit with
  | untouched | unresolved | refused | skipped | counted => simp at hlaunch
  | launched _ hpass | failed _ hpass | succeeded _ hpass =>
      simp only [List.mem_cons, Event.launched.injEq, reduceCtorEq, List.not_mem_nil, or_false,
        false_or] at hlaunch
      subst hlaunch
      exact hpass.launchAllowed hforced

/-- and of any operation. -/
theorem LaunchesAllowed.move {operation : Operation} {b b' : Bookkeeping}
    (hmove : Move host config clock operation b b') (h : LaunchesAllowed b.journal) :
    LaunchesAllowed b'.journal := by
  intro launch hlaunch hforced
  cases hmove with
  | visit hcompany hvisit =>
      rcases List.mem_append.mp hlaunch with hold | hnew
      · exact h launch hold hforced
      · exact hvisit.launchesAllowed launch hnew hforced
  | unpark hstored =>
      rcases List.mem_append.mp hlaunch with hold | hnew
      · exact h launch hold hforced
      · cases List.mem_singleton.mp hnew

/-! ## Unparking -/

/-- Parked, and not with other credentials than the given ones. -/
def ParkedWith (fingerprint : String) (state : SourceState) : Prop :=
  state.parked = true ∧ credentialsChanged state fingerprint = false

/-- Only the parking and its fingerprint count. -/
theorem ParkedWith.of_same {fingerprint : String} {state state' : SourceState}
    (h : ParkedWith fingerprint state) (hparked : state'.parked = true)
    (hremembered : state'.credentialFingerprint = state.credentialFingerprint) :
    ParkedWith fingerprint state' := by
  obtain ⟨hparked', hsame⟩ := h
  refine ⟨hparked, ?_⟩
  unfold credentialsChanged at hsame ⊢
  rw [hparked, hremembered]
  rwa [hparked'] at hsame

/-- The same fingerprint leaves a company parked, -/
theorem ParkedWith.fingerprinted {fingerprint : String} {state : SourceState}
    (h : ParkedWith fingerprint state) : ParkedWith fingerprint (fingerprinted state fingerprint) := by
  obtain ⟨hparked, hsame⟩ := h
  unfold SimplefinBridge.fingerprinted
  rw [hsame, if_neg Bool.false_ne_true]
  refine ⟨hparked, ?_⟩
  unfold credentialsChanged given
  by_cases hempty : fingerprint = ""
  · simp [Option.filter, hempty]
  · simp [Option.filter, hempty]

/-- and so does a new day. -/
theorem ParkedWith.rolledOver {fingerprint : String} {state : SourceState} (day : IsoDate)
    (h : ParkedWith fingerprint state) : ParkedWith fingerprint (rolledOver state day) := by
  unfold SimplefinBridge.rolledOver
  split_ifs
  · exact h.of_same h.1 rfl
  · exact h

/-- A failure leaves the fingerprint alone. -/
theorem applyFailure_fingerprint (state : SourceState) (errorType : ScrapeErrorType)
    (message : String) (current : Instant) :
    (applyFailure company state errorType message current).credentialFingerprint =
      state.credentialFingerprint := by
  unfold applyFailure
  dsimp only
  split_ifs <;> rfl

/-- A failure never unparks. -/
theorem applyFailure_parked {state : SourceState} (errorType : ScrapeErrorType)
    (message : String) (current : Instant) (h : state.parked = true) :
    (applyFailure company state errorType message current).parked = true := by
  unfold applyFailure
  dsimp only
  by_cases hparking : isParkingError errorType = true
  · rw [if_pos hparking]
  · rw [if_neg hparking]
    exact h

/-- A parked company is let go only with another fingerprint. -/
theorem Passes.parkedWith {fingerprint : String} {passed before : SourceState}
    (hpass : Passes host config clock options behaviour company tick (some before) fingerprint passed)
    (h : ParkedWith fingerprint before) : ParkedWith fingerprint passed := by
  obtain ⟨hpassed, -⟩ := guard_passes hpass.2
  rw [hpassed]
  exact h.fingerprinted.rolledOver _

/-- A visit with unchanged credentials leaves a parked company parked. -/
theorem VisitMove.staysParked {before : SourceState}
    (hvisit : VisitMove host config clock options behaviour company companyConfig tick (some before)
      state events readings) (hbefore : before.parked = true)
    (hsame : ∀ fingerprint, behaviour.credentials = some fingerprint →
      credentialsChanged before fingerprint = false) :
    ∃ after, state = some after ∧ after.parked = true ∧
      ∀ fingerprint, behaviour.credentials = some fingerprint →
        credentialsChanged after fingerprint = false := by
  -- Once the credentials resolve there is one fingerprint to speak of.
  have hone : ∀ {fingerprint after}, behaviour.credentials = some fingerprint →
      (ParkedWith fingerprint before → ParkedWith fingerprint after) →
      ∃ after', some after = some after' ∧ after'.parked = true ∧
        ∀ fingerprint, behaviour.credentials = some fingerprint →
          credentialsChanged after' fingerprint = false := by
    intro fingerprint after hcredentials hkeep
    obtain ⟨hparked, hunchanged⟩ := hkeep ⟨hbefore, hsame fingerprint hcredentials⟩
    refine ⟨after, rfl, hparked, ?_⟩
    intro other hother
    rw [hcredentials] at hother
    rwa [← Option.some.inj hother]
  cases hvisit with
  | untouched | refused => exact ⟨before, rfl, hbefore, hsame⟩
  | unresolved _ hcredentials =>
      refine ⟨_, rfl, @applyFailure_parked company before _ _ _ hbefore, ?_⟩
      intro fingerprint h
      rw [hcredentials] at h
      cases h
  | skipped _ hcredentials hguard =>
      apply hone hcredentials
      intro h
      rcases guard_refuses hguard with rfl | rfl
      · exact h.fingerprinted
      · exact h.fingerprinted.rolledOver _
  | counted _ hpass | launched _ hpass | succeeded _ hpass =>
      apply hone hpass.1
      intro h
      exact (hpass.parkedWith h).of_same (hpass.parkedWith h).1 rfl
  | failed _ hpass =>
      apply hone hpass.1
      intro h
      apply (hpass.parkedWith h).of_same
      · exact applyFailure_parked _ _ _ (hpass.parkedWith h).1
      · exact applyFailure_fingerprint _ _ _ _

/-- The operation may unpark the company: it is `unparkCompany`, or a run with
other credentials than the company was parked with. -/
def Unparks (company : CompanyId) (state : SourceState) : Operation → Prop
  | .unpark company' _ => company' = company
  | .run call => ∃ fingerprint, (call.behaviours company).credentials = some fingerprint ∧
      ChangedSince state fingerprint

/-- An operation that does not unpark the company leaves it parked. -/
theorem perform_staysParked {w : SchedulerWorld} {operation : Operation} {before : SourceState}
    (hstored : w.session.ledger.sourceStates.find company = some before)
    (hparked : before.parked = true) (hkeeps : ¬Unparks company before operation) :
    ∃ after, (perform host config clock w operation).session.ledger.sourceStates.find company =
      some after ∧ after.parked = true := by
  have hsame : ∀ call fingerprint, operation = .run call →
      (call.behaviours company).credentials = some fingerprint →
      credentialsChanged before fingerprint = false := by
    intro call fingerprint hcall hcredentials
    by_contra hchanged
    have hsince := changed_of_credentialsChanged (Bool.not_eq_false _ ▸ hchanged)
    rw [hcall] at hkeeps
    exact hkeeps ⟨fingerprint, hcredentials, hsince.2⟩
  have hkept := perform_invariant host config clock
    (fun b => ∃ after, b.states company = some after ∧ after.parked = true ∧
      ∀ call fingerprint, operation = .run call →
        (call.behaviours company).credentials = some fingerprint →
        credentialsChanged after fingerprint = false) operation ?_ ⟨before, hstored, hparked, hsame⟩
  · obtain ⟨after, hafter, hstill, -⟩ := hkept
    exact ⟨after, hafter, hstill⟩
  · intro b b' hmove hinv
    obtain ⟨after, hafter, hstill, hunchanged⟩ := hinv
    rcases hmove.company_cases company with ⟨hstates, -⟩ |
      ⟨call, companyConfig, state, events, readings, hcall, -, hvisit, hb'⟩ |
      ⟨faults, state, hunpark, -, -⟩
    · rw [hstates]
      exact ⟨after, hafter, hstill, hunchanged⟩
    · rw [hb', Bookkeeping.after_states_self]
      rw [hafter] at hvisit
      obtain ⟨next, hnext, hparked', hsame'⟩ := hvisit.staysParked hstill
        fun fingerprint => hunchanged call fingerprint hcall
      refine ⟨next, hnext, hparked', ?_⟩
      intro other fingerprint hother
      rw [hcall] at hother
      rw [← Operation.run.inj hother]
      exact hsame' fingerprint
    · rw [hunpark] at hkeeps
      exact absurd rfl hkeeps

end

/-! ## The guard over runs -/

/-- **Lockout guard.**  From any stored ledger, in every run of `runNow` and
`unparkCompany` calls, a company is launched at most `maxLoginAttemptsPerDay`
times between two resets; without force it is launched neither parked with
unchanged credentials nor before its backoff ends; and a parked company stays
parked through every call that does not unpark it. -/
theorem lockout_guard (host : Host) (config : Config) (clock : Nat → Instant) (ledger : Ledger)
    (operations : List Operation) :
    let journal := (Runs.run (perform host config clock) (.start ledger) operations).journal
    AttemptsBounded host config journal ∧ LaunchesAllowed journal ∧
      Runs.Along (perform host config clock)
        (fun w operation w' => ∀ company state,
          w.session.ledger.sourceStates.find company = some state → state.parked = true →
          Unparks company state operation ∨
            ∃ state', w'.session.ledger.sourceStates.find company = some state' ∧
              state'.parked = true)
        (.start ledger) operations := by
  have hcounted := run_perform_invariant host config clock (AllCounted host config)
    (fun _ _ _ hmove h => AllCounted.move h hmove) (w := .start ledger)
    (fun _ => counted_nil) operations
  have hallowed := run_perform_invariant host config clock
    (fun b => LaunchesAllowed b.journal) (fun _ _ _ hmove h => h.move hmove)
    (w := .start ledger) (fun _ hlaunch => absurd hlaunch List.not_mem_nil) operations
  refine ⟨?_, hallowed, ?_⟩
  · intro company day segment hinfix hreset
    exact (hcounted company).bounded day segment hinfix hreset
  · rw [Runs.along_iff_prefix]
    intro before operation _ company state hstored hparked
    rw [Runs.run_append]
    by_cases hunparks : Unparks company state operation
    · exact .inl hunparks
    · exact .inr (perform_staysParked hstored hparked hunparks)

end SimplefinBridge
