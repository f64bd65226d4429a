import Mathlib.Data.List.Count
import Mathlib.Data.List.Nodup
import SimplefinBridge.Coverage
import SimplefinBridge.LockoutGuard
import SimplefinBridge.Library.Interleaving

/-!
# Source states under concurrent processes

The serving scheduler and every `bridge scrape` are processes of their own;
`running` keeps one process from visiting a company twice at a time, and
nothing keeps two processes apart.  `runOne` reads the source state, awaits
the credentials, writes the counted attempt, awaits `source.run` and writes
the state again, each time the whole row; `unparkCompany` reads and writes it
once.  One ledger read and one ledger write are atomic; everything else
interleaves.

Books kept beside the row say what the operators are promised: the days of
the launches since the last committed unpark (`launches`, a *stretch*), and
the stretches closed by earlier unparks.  `states_stand_of_undisturbed`: the
promises are kept in every interleaving whose writes find the row as the run
left it, whose launches follow their counted attempt in the same stretch and
on the same day, and whose guards do not go back to a calendar day left.
-/

namespace SimplefinBridge

/-! ## Processes -/

/-- A process of the bridge. -/
abbrev Process := Nat

/-- The row of one company, with the books kept on it. -/
structure StateStore where
  state : Option SourceState
  /-- The calendar days of the launches since the last unpark. -/
  launches : List IsoDate
  /-- The stretches that unparks have closed. -/
  closed : List (List IsoDate)
  /-- Attempts counted in this stretch and not launched yet. -/
  pending : List (Process × IsoDate)
  /-- The calendar days on which guards ran, oldest first. -/
  days : List IsoDate
  deriving DecidableEq

/-- A run that the guard let through. -/
structure Attempt where
  options : RunNowOptions
  startedAt : Instant
  /-- The calendar day of its guard. -/
  day : IsoDate

/-- A whole-row write of a run. -/
structure RunWrite where
  /-- The row as the run last read or wrote it. -/
  held : SourceState
  state : SourceState
  /-- The fingerprint a guard compared for this write. -/
  fingerprint : Option String
  /-- The failure this write records. -/
  failure : Option ScrapeErrorType

/-- What a process remembers between two steps. -/
inductive RunTask
  | idle
  | resolving (options : RunNowOptions) (startedAt : Instant) (held : SourceState)
  /-- A write in hand; with an attempt, `source.run` comes next. -/
  | writing (write : RunWrite) (attempt : Option Attempt)
  | counted (state : SourceState) (attempt : Attempt) (stretch : Nat)
  | running (state : SourceState)
  | unparking (state : SourceState)

/-- What a process does next, up to its next wait. -/
inductive RunMove
  /-- `runOne` begins: it reads the row. -/
  | read (options : RunNowOptions) (startedAt : Instant)
  /-- `unparkCompany` begins: it reads the row. -/
  | unpark
  /-- `resolveAll` returns a fingerprint's credentials, or throws. -/
  | resolved (credentials : Option String) (current : Instant)
  /-- The write in hand. -/
  | write
  /-- `source.run` is invoked. -/
  | launch (profileDirectory : Bool) (launchedAt : Instant)
  /-- `source.run` returns; `ingested` says that `applySuccess` went through. -/
  | returned (outcome : SourceRunOutcome) (ingested : Bool) (current : Instant)
  /-- The process ends, or the database refuses its statement. -/
  | stop

namespace StateStore

/-- The row is written. -/
def write (s : StateStore) (state : SourceState) : StateStore := { s with state := some state }

/-- An attempt was counted and not yet launched. -/
def count (s : StateStore) (process : Process) (day : IsoDate) : StateStore :=
  { s with pending := (process, day) :: s.pending }

/-- The launch of an attempt counted on `day`. -/
def launch (s : StateStore) (process : Process) (day launchDay : IsoDate) : StateStore :=
  { s with launches := launchDay :: s.launches, pending := s.pending.erase (process, day) }

/-- An unpark commits: a new stretch begins. -/
def unpark (s : StateStore) (state : SourceState) : StateStore :=
  { s with state := some state, launches := [], closed := s.launches :: s.closed, pending := [] }

/-- The lockout guard looked at the day. -/
def guardOn (s : StateStore) (day : IsoDate) : StateStore :=
  { s with days := if day ∈ s.days then s.days else s.days ++ [day] }

/-- Launches and counted attempts of a day in this stretch. -/
def used (s : StateStore) (day : IsoDate) : Nat :=
  s.launches.count day + (s.pending.map Prod.snd).count day

end StateStore

section
variable (host : Host) (config : Config) (company : CompanyId) (companyConfig : CompanyConfig)

/-- Nothing stops the run between its counted attempt and `source.run`. -/
def reachesSource (state : SourceState) (attempt : Attempt) (profileDirectory : Bool) : Bool :=
  (computeWindowStart host config companyConfig state attempt.options attempt.startedAt).isOk &&
    profileDirectory

/-- The write after a guard, and the attempt it counts. -/
def guardedTask (options : RunNowOptions) (startedAt : Instant) (held : SourceState)
    (fingerprint : String) (current : Instant) : RunTask :=
  match guard host config held fingerprint options.force current with
  | (state, some _) => .writing ⟨held, state, some fingerprint, none⟩ none
  | (state, none) =>
      .writing ⟨held, countedState state startedAt, some fingerprint, none⟩
        (some ⟨options, startedAt, calendarDate host current config.timezone⟩)

/-- The last write of a run. -/
def lastWrite (state : SourceState) (outcome : SourceRunOutcome) (current : Instant) : RunWrite :=
  match outcome with
  | .ok result => ⟨state, succeededState state result current, none, none⟩
  | .failed errorType message =>
      ⟨state, applyFailure company state errorType message current, none, some errorType⟩
  | .threw =>
      ⟨state, applyFailure company state .BRIDGE_ERROR bridgeErrorMessage current, none,
        some .BRIDGE_ERROR⟩

/-- An exception of `applySuccess` leaves the run without its last write. -/
def ingestionThrew (outcome : SourceRunOutcome) (ingested : Bool) : Bool :=
  match outcome with
  | .ok _ => !ingested
  | _ => false

/-- One atomic step of one process. -/
def advanceRun (process : Process) (move : RunMove) (s : StateStore) (task : RunTask) :
    StateStore × RunTask :=
  match task, move with
  | _, .stop => (s, .idle)
  | .idle, .read options startedAt =>
      (s, .resolving options startedAt (s.state.getD (defaultSourceState company)))
  | .idle, .unpark => (s, (s.state.map .unparking).getD .idle)
  | .resolving _ startedAt held, .resolved none current =>
      let failed := applyFailure company held .BRIDGE_ERROR credentialMessage current
      (s, .writing ⟨held, { failed with lastRunAt := some startedAt }, none, some .BRIDGE_ERROR⟩
        none)
  | .resolving options startedAt held, .resolved (some fingerprint) current =>
      (s.guardOn (calendarDate host current config.timezone),
        guardedTask host config options startedAt held fingerprint current)
  | .writing write none, .write => (s.write write.state, .idle)
  | .writing write (some attempt), .write =>
      ((s.write write.state).count process attempt.day,
        .counted write.state attempt s.closed.length)
  | .counted state attempt _, .launch profileDirectory launchedAt =>
      if reachesSource host config companyConfig state attempt profileDirectory then
        (s.launch process attempt.day (calendarDate host launchedAt config.timezone),
          .running state)
      else (s, .idle)
  | .running state, .returned outcome ingested current =>
      if ingestionThrew outcome ingested then (s, .idle)
      else (s, .writing (lastWrite company state outcome current) none)
  | .unparking state, .write => (s.unpark (unparkedState state), .idle)
  | task, _ => (s, task)

/-- The row, and what each process is in the middle of. -/
abbrev StateWorld := Interleaving.World StateStore RunTask Process

/-- One process moves; the others wait. -/
def runStep : StateWorld → Process × RunMove → StateWorld :=
  Interleaving.step (advanceRun host config company companyConfig)

/-- A stored row, and no process in the middle of anything. -/
def quietState (state : Option SourceState) : StateWorld where
  store :=
    { state
      launches := []
      closed := []
      pending := []
      days := (state.bind (·.loginAttemptsDate)).toList }
  task := fun _ => .idle

/-! ## The promises, and the condition -/

/-- A run's write from `before` to `after` neither clears a parking decision
without changed credentials nor brings back what an unpark has cleared. -/
structure Stands (before after : SourceState) (fingerprint : Option String)
    (failure : Option ScrapeErrorType) : Prop where
  parking : before.parked = true →
    after.parked = true ∨ fingerprint.any (credentialsChanged before) = true
  unparked : after.parked = true → before.parked = true ∨ failure.any isParkingError = true
  attempts : after.loginAttempts ≤ before.loginAttempts + 1
  failures : after.consecutiveFailures ≤ before.consecutiveFailures + 1
  backoff : after.nextAllowedAt = none ∨ after.nextAllowedAt = before.nextAllowedAt ∨
    failure.isSome = true

/-- What is promised of a transition. -/
def StatesStand (w : StateWorld) (m : Process × RunMove) (w' : StateWorld) : Prop :=
  (∀ stretch ∈ w'.store.launches :: w'.store.closed, ∀ day,
    stretch.count day ≤ config.maxLoginAttemptsPerDay) ∧
  ∀ write attempt, w.task m.1 = .writing write attempt → m.2 = .write →
    ∃ after, w'.store.state = some after ∧
      Stands (w.store.state.getD (defaultSourceState company)) after write.fingerprint
        write.failure

/-- The stored row agrees with the row the run holds in what its next write
may spoil: the parking mark and its credentials, the attempt counter, and
whatever an unpark clears. -/
def UpToDate (held stored : SourceState) : Prop :=
  held.parked = stored.parked ∧
  (held.parked = true → held.credentialFingerprint = stored.credentialFingerprint) ∧
  held.loginAttemptsDate = stored.loginAttemptsDate ∧
  held.loginAttempts = stored.loginAttempts ∧
  held.consecutiveFailures ≤ stored.consecutiveFailures ∧
  (held.nextAllowedAt = none ∨ held.nextAllowedAt = stored.nextAllowedAt)

instance (held stored : SourceState) : Decidable (UpToDate held stored) := by
  unfold UpToDate; infer_instance

/-- A guard's day is new, or the one the last guard ran on. -/
def OnNewestDay (days : List IsoDate) (day : IsoDate) : Prop :=
  day ∉ days ∨ days.getLast? = some day

instance (days : List IsoDate) (day : IsoDate) : Decidable (OnNewestDay days day) := by
  unfold OnNewestDay; infer_instance

/-- No other process has come between: a write finds the row as the run left
it, and a launch finds the stretch and the day of its counted attempt. -/
def UndisturbedStep (s : StateStore) (task : RunTask) (move : RunMove) : Prop :=
  match task, move with
  | .resolving _ _ _, .resolved (some _) current =>
      OnNewestDay s.days (calendarDate host current config.timezone)
  | .writing write _, .write => UpToDate write.held (s.state.getD (defaultSourceState company))
  | .counted state attempt stretch, .launch profileDirectory launchedAt =>
      reachesSource host config companyConfig state attempt profileDirectory = true →
        stretch = s.closed.length ∧ calendarDate host launchedAt config.timezone = attempt.day
  | _, _ => True

instance (s : StateStore) (task : RunTask) (move : RunMove) :
    Decidable (UndisturbedStep host config company companyConfig s task move) := by
  unfold UndisturbedStep; split <;> infer_instance

/-- No other process writes between a read and the write that rests on it. -/
def Undisturbed (w : StateWorld) (m : Process × RunMove) (_ : StateWorld) : Prop :=
  UndisturbedStep host config company companyConfig w.store (w.task m.1) m.2

instance (w : StateWorld) (m : Process × RunMove) (w' : StateWorld) :
    Decidable (Undisturbed host config company companyConfig w m w') := by
  unfold Undisturbed; infer_instance

end

section
variable {host : Host} {config : Config} {company : CompanyId} {companyConfig : CompanyConfig}

/-! ## Writes of a run against the row it holds -/

/-- A write that stands over the row it held stands over any row that agrees
with it. -/
theorem Stands.of_upToDate {held stored after : SourceState} {fingerprint : Option String}
    {failure : Option ScrapeErrorType} (h : Stands held after fingerprint failure)
    (hcurrent : UpToDate held stored) : Stands stored after fingerprint failure := by
  obtain ⟨hparked, hsame, hdate, hattempts, hfailures, hbackoff⟩ := hcurrent
  refine ⟨?_, ?_, ?_, ?_, ?_⟩
  · intro hstored
    have hheld : held.parked = true := hparked.trans hstored
    have hchanged : credentialsChanged held = credentialsChanged stored := by
      funext other
      unfold credentialsChanged
      rw [hparked, hsame hheld]
    rw [← hchanged]
    exact h.parking hheld
  · rw [← hparked]
    exact h.unparked
  · rw [← hattempts]
    exact h.attempts
  · have := h.failures
    omega
  · rcases h.backoff with hnone | hkept | hfailed
    · exact .inl hnone
    · rcases hbackoff with hheld | hheld
      · exact .inl (hkept.trans hheld)
      · exact .inr (.inl (hkept.trans hheld))
    · exact .inr (.inr hfailed)

/-- A row that keeps parking, counter and backoff stands. -/
theorem Stands.of_same {before after : SourceState} {fingerprint : Option String}
    {failure : Option ScrapeErrorType} (hparked : after.parked = before.parked)
    (hattempts : after.loginAttempts ≤ before.loginAttempts + 1)
    (hfailures : after.consecutiveFailures ≤ before.consecutiveFailures + 1)
    (hbackoff : after.nextAllowedAt = none ∨ after.nextAllowedAt = before.nextAllowedAt) :
    Stands before after fingerprint failure where
  parking := fun h => .inl (hparked.trans h)
  unparked := fun h => .inl (hparked.symm.trans h)
  attempts := hattempts
  failures := hfailures
  backoff := by
    rcases hbackoff with h | h
    · exact .inl h
    · exact .inr (.inl h)

/-- A failure leaves the day of the attempts alone, -/
theorem applyFailure_date (state : SourceState) (errorType : ScrapeErrorType) (message : String)
    (current : Instant) :
    (applyFailure company state errorType message current).loginAttemptsDate =
      state.loginAttemptsDate := by
  unfold applyFailure
  dsimp only
  split_ifs <;> rfl

/-- and their number. -/
theorem applyFailure_attempts (state : SourceState) (errorType : ScrapeErrorType)
    (message : String) (current : Instant) :
    (applyFailure company state errorType message current).loginAttempts =
      state.loginAttempts := by
  unfold applyFailure
  dsimp only
  split_ifs <;> rfl

/-- A failure stands in the state that it makes. -/
theorem stands_applyFailure (before : SourceState) (errorType : ScrapeErrorType)
    (message : String) (current : Instant) :
    Stands before (applyFailure company before errorType message current) none
      (some errorType) where
  parking := fun h => .inl (applyFailure_parked _ _ _ h)
  unparked := by
    intro h
    by_cases hparks : isParkingError errorType = true
    · exact .inr hparks
    · left
      unfold applyFailure at h
      rw [if_neg hparks] at h
      exact h
  attempts := (applyFailure_attempts _ _ _ _).trans_le (Nat.le_succ _)
  failures := by
    have hone : (applyFailure company before errorType message current).consecutiveFailures =
        before.consecutiveFailures + 1 := by
      unfold applyFailure
      dsimp only
      split_ifs <;> rfl
    omega
  backoff := .inr (.inr rfl)

/-- So does a fingerprint. -/
theorem stands_fingerprinted (before : SourceState) (fingerprint : String) :
    Stands before (fingerprinted before fingerprint) (some fingerprint) none := by
  unfold fingerprinted
  by_cases hchanged : credentialsChanged before fingerprint = true
  · rw [if_pos hchanged]
    refine ⟨fun _ => .inr hchanged, ?_, Nat.le_succ _, Nat.zero_le _, .inl rfl⟩
    intro h
    cases h
  · rw [if_neg hchanged]
    exact .of_same rfl (Nat.le_succ _) (Nat.le_succ _) (.inr rfl)

/-- A new day only takes attempts away. -/
theorem rolledOver_attempts_le (state : SourceState) (today : IsoDate) :
    (rolledOver state today).loginAttempts ≤ state.loginAttempts := by
  unfold rolledOver
  split_ifs
  · exact Nat.zero_le _
  · exact le_rfl

/-- The attempts are of today. -/
theorem rolledOver_date (state : SourceState) (today : IsoDate) :
    (rolledOver state today).loginAttemptsDate = some today := by
  unfold rolledOver
  split_ifs with h
  · rfl
  · exact not_not.mp h

/-- What stands is not touched by a new day. -/
theorem Stands.rolledOver {before state : SourceState} {fingerprint : Option String}
    {failure : Option ScrapeErrorType} (h : Stands before state fingerprint failure)
    (today : IsoDate) :
    Stands before (SimplefinBridge.rolledOver state today) fingerprint failure := by
  unfold SimplefinBridge.rolledOver
  by_cases hday : state.loginAttemptsDate ≠ some today
  · rw [if_pos hday]
    exact ⟨h.parking, h.unparked, Nat.zero_le _, h.failures, h.backoff⟩
  · rw [if_neg hday]
    exact h

/-- Nor by a counted attempt. -/
theorem Stands.countedState {before state : SourceState} {fingerprint : Option String}
    {failure : Option ScrapeErrorType} (h : Stands before state fingerprint failure)
    (hattempts : state.loginAttempts ≤ before.loginAttempts) (startedAt : Instant) :
    Stands before (SimplefinBridge.countedState state startedAt) fingerprint failure :=
  ⟨h.parking, h.unparked, Nat.succ_le_succ hattempts, h.failures, h.backoff⟩

/-! ## The order of calendar days -/

/-- Days noted keep their places. -/
theorem idxOf_of_initial {days days' : List IsoDate} (h : days <+: days') {day : IsoDate}
    (hday : day ∈ days) : days'.idxOf day = days.idxOf day := by
  obtain ⟨rest, rfl⟩ := h
  exact List.idxOf_append_of_mem hday

/-- Days are appended. -/
theorem days_initial_guardOn (s : StateStore) (day : IsoDate) :
    s.days <+: (s.guardOn day).days := by
  unfold StateStore.guardOn
  by_cases hday : day ∈ s.days
  · rw [if_pos hday]
  · rw [if_neg hday]
    exact List.prefix_append _ _

/-- The day is now among them. -/
theorem mem_days_guardOn (s : StateStore) (day : IsoDate) : day ∈ (s.guardOn day).days := by
  unfold StateStore.guardOn
  by_cases hday : day ∈ s.days
  · rwa [if_pos hday]
  · rw [if_neg hday]
    exact List.mem_append_right _ List.mem_cons_self

/-- No day is there twice. -/
theorem nodup_days_guardOn {s : StateStore} (h : s.days.Nodup) (day : IsoDate) :
    (s.guardOn day).days.Nodup := by
  unfold StateStore.guardOn
  by_cases hday : day ∈ s.days
  · rwa [if_pos hday]
  · rw [if_neg hday]
    rw [← List.concat_eq_append]
    exact h.concat hday

/-- The last of distinct days comes after all others. -/
theorem idxOf_le_of_getLast {days : List IsoDate} (h : days.Nodup) {day other : IsoDate}
    (hlast : days.getLast? = some day) (hother : other ∈ days) :
    days.idxOf other ≤ days.idxOf day := by
  obtain ⟨before, rfl⟩ := List.getLast?_eq_some_iff.mp hlast
  have hfresh : day ∉ before := by
    intro hmem
    have hdisjoint := (List.nodup_append.mp h).2.2
    exact hdisjoint day hmem day (List.mem_singleton.mpr rfl) rfl
  have hday : (before ++ [day]).idxOf day = before.length := by
    rw [List.idxOf_append_of_notMem hfresh]
    simp
  have hlt := List.idxOf_lt_length_of_mem hother
  rw [List.length_append, List.length_singleton] at hlt
  omega

/-- The guard's day is the newest one afterwards. -/
theorem newest_guardOn {s : StateStore} (h : s.days.Nodup) {day : IsoDate}
    (hnewest : OnNewestDay s.days day) {other : IsoDate} (hother : other ∈ (s.guardOn day).days) :
    (s.guardOn day).days.idxOf other ≤ (s.guardOn day).days.idxOf day := by
  apply idxOf_le_of_getLast (nodup_days_guardOn h day) _ hother
  unfold StateStore.guardOn
  by_cases hday : day ∈ s.days
  · rw [if_pos hday]
    exact hnewest.resolve_left (not_not.mpr hday)
  · rw [if_neg hday]
    exact List.getLast?_concat

/-- The day of a state's attempt counter is on record. -/
def DateNoted (days : List IsoDate) (state : SourceState) : Prop :=
  ∀ day, state.loginAttemptsDate = some day → day ∈ days

/-- The counter of `state` continues the one of `held`: on a later day, or on
the same day with `more` attempts on top. -/
def Continues (days : List IsoDate) (held state : SourceState) (more : Nat) : Prop :=
  ∀ day, held.loginAttemptsDate = some day → ∃ later, state.loginAttemptsDate = some later ∧
    days.idxOf day ≤ days.idxOf later ∧
    (day = later → held.loginAttempts + more ≤ state.loginAttempts)

/-- What a run keeps of a write in hand. -/
structure WriteInv (max : Nat) (days : List IsoDate) (write : RunWrite)
    (attempt : Option Attempt) : Prop where
  stands : Stands write.held write.state write.fingerprint write.failure
  held : DateNoted days write.held
  noted : DateNoted days write.state
  continues : Continues days write.held write.state (if attempt.isSome then 1 else 0)
  counting : ∀ a, attempt = some a → write.state.loginAttemptsDate = some a.day ∧
    0 < write.state.loginAttempts ∧ write.state.loginAttempts ≤ max

/-- A day that was seen stays seen. -/
theorem DateNoted.mono {days days' : List IsoDate} {state : SourceState}
    (h : DateNoted days state) (hdays : days <+: days') : DateNoted days' state := by
  intro day hday
  exact hdays.subset (h day hday)

/-- Only the day of the attempts counts. -/
theorem DateNoted.of_date {days : List IsoDate} {state state' : SourceState}
    (h : DateNoted days state) (hdate : state'.loginAttemptsDate = state.loginAttemptsDate) :
    DateNoted days state' := by
  intro day hday
  exact h day (hdate ▸ hday)

/-- A write that may be made may be made later. -/
theorem WriteInv.mono {max : Nat} {days days' : List IsoDate} {write : RunWrite}
    {attempt : Option Attempt} (h : WriteInv max days write attempt) (hdays : days <+: days') :
    WriteInv max days' write attempt where
  stands := h.stands
  held := h.held.mono hdays
  noted := h.noted.mono hdays
  continues := by
    intro day hday
    obtain ⟨later, hlater, hle, hmore⟩ := h.continues day hday
    refine ⟨later, hlater, ?_, hmore⟩
    rw [idxOf_of_initial hdays (h.held day hday), idxOf_of_initial hdays (h.noted later hlater)]
    exact hle
  counting := h.counting

/-- A write that leaves the counter alone. -/
theorem WriteInv.of_counter {max : Nat} {days : List IsoDate} {write : RunWrite}
    (hstands : Stands write.held write.state write.fingerprint write.failure)
    (hheld : DateNoted days write.held)
    (hdate : write.state.loginAttemptsDate = write.held.loginAttemptsDate)
    (hattempts : write.state.loginAttempts = write.held.loginAttempts) :
    WriteInv max days write none where
  stands := hstands
  held := hheld
  noted := hheld.of_date hdate
  continues := by
    intro day hday
    refine ⟨day, hdate.trans hday, le_rfl, ?_⟩
    intro _
    exact hattempts.ge
  counting := by
    intro a ha
    cases ha

/-- A fingerprint leaves the day of the attempts alone, -/
theorem fingerprinted_date (state : SourceState) (fingerprint : String) :
    (fingerprinted state fingerprint).loginAttemptsDate = state.loginAttemptsDate := by
  unfold fingerprinted
  split_ifs <;> rfl

/-- and their number. -/
theorem fingerprinted_attempts (state : SourceState) (fingerprint : String) :
    (fingerprinted state fingerprint).loginAttempts = state.loginAttempts := by
  unfold fingerprinted
  split_ifs <;> rfl

/-- On the same day the attempts are kept. -/
theorem rolledOver_attempts (state : SourceState) (today : IsoDate) :
    state.loginAttemptsDate = some today →
      (rolledOver state today).loginAttempts = state.loginAttempts := by
  intro hdate
  unfold rolledOver
  rw [if_neg (not_not.mpr hdate)]

/-- The last write of a run keeps the counter. -/
theorem writeInv_lastWrite (max : Nat) {days : List IsoDate} {state : SourceState}
    (h : DateNoted days state) (outcome : SourceRunOutcome) (current : Instant) :
    WriteInv max days (lastWrite company state outcome current) none := by
  cases outcome with
  | ok result =>
      apply WriteInv.of_counter _ h rfl rfl
      exact .of_same rfl (Nat.le_succ _) (Nat.zero_le _) (.inl rfl)
  | failed errorType message =>
      exact .of_counter (stands_applyFailure _ _ _ _) h (applyFailure_date _ _ _ _)
        (applyFailure_attempts _ _ _ _)
  | threw =>
      exact .of_counter (@stands_applyFailure company state .BRIDGE_ERROR bridgeErrorMessage current)
        h (applyFailure_date _ _ _ _) (applyFailure_attempts _ _ _ _)

/-- The write after a guard on the newest day. -/
theorem writeInv_guardedTask {days : List IsoDate} {held : SourceState} (options : RunNowOptions)
    (startedAt : Instant) (fingerprint : String) (current : Instant) (hheld : DateNoted days held)
    (hmem : calendarDate host current config.timezone ∈ days)
    (hnewest : ∀ day ∈ days,
      days.idxOf day ≤ days.idxOf (calendarDate host current config.timezone)) :
    ∃ write attempt,
      guardedTask host config options startedAt held fingerprint current = .writing write attempt ∧
      WriteInv config.maxLoginAttemptsPerDay days write attempt := by
  have hstands := stands_fingerprinted held fingerprint
  have hdate := fingerprinted_date held fingerprint
  have hattempts := fingerprinted_attempts held fingerprint
  -- the counter started over, or carried on, on the guard's day
  have hrolled : DateNoted days
      (rolledOver (fingerprinted held fingerprint) (calendarDate host current config.timezone)) := by
    intro day hday
    rw [rolledOver_date] at hday
    rwa [← Option.some.inj hday]
  have hcarried : ∀ day, held.loginAttemptsDate = some day →
      day = calendarDate host current config.timezone →
      (rolledOver (fingerprinted held fingerprint)
        (calendarDate host current config.timezone)).loginAttempts = held.loginAttempts := by
    intro day hday heq
    rw [← heq, rolledOver_attempts _ _ (hdate.trans hday), hattempts]
  have hrolledLe := rolledOver_attempts_le (fingerprinted held fingerprint)
    (calendarDate host current config.timezone)
  unfold guardedTask
  cases hguard : guard host config held fingerprint options.force current with
  | mk state message =>
      cases message with
      | some message =>
          refine ⟨_, _, rfl, ?_⟩
          rcases guard_refuses hguard with rfl | rfl
          · exact .of_counter hstands hheld hdate hattempts
          · refine ⟨hstands.rolledOver _, hheld, hrolled, ?_, ?_⟩
            · intro day hday
              refine ⟨_, rolledOver_date _ _, hnewest day (hheld day hday), ?_⟩
              intro heq
              exact (hcarried day hday heq).ge
            · intro a ha
              cases ha
      | none =>
          refine ⟨_, _, rfl, ?_⟩
          obtain ⟨rfl, hcap, -⟩ := guard_passes hguard
          refine ⟨?_, hheld, hrolled, ?_, ?_⟩
          · apply (hstands.rolledOver _).countedState
            omega
          · intro day hday
            refine ⟨_, rolledOver_date _ _, hnewest day (hheld day hday), ?_⟩
            intro heq
            change held.loginAttempts + 1 ≤ (rolledOver _ _).loginAttempts + 1
            rw [hcarried day hday heq]
          · intro a ha
            obtain rfl := Option.some.inj ha
            exact ⟨rolledOver_date _ _, Nat.succ_pos _, hcap⟩

/-! ## The books -/

/-- What a process remembers is on record. -/
def TaskInv (max : Nat) (process : Process) (s : StateStore) : RunTask → Prop
  | .idle => True
  | .resolving _ _ held => DateNoted s.days held
  | .writing write attempt => WriteInv max s.days write attempt
  | .counted state attempt stretch =>
      DateNoted s.days state ∧ stretch ≤ s.closed.length ∧
        (stretch = s.closed.length → (process, attempt.day) ∈ s.pending)
  | .running state => DateNoted s.days state
  | .unparking state => DateNoted s.days state

/-- The stored counter covers the launches and the counted attempts of the
stretch. -/
structure StoreInv (max : Nat) (s : StateStore) : Prop where
  nodup : s.days.Nodup
  noted : ∀ state, s.state = some state → DateNoted s.days state
  closed : ∀ stretch ∈ s.closed, ∀ day, stretch.count day ≤ max
  used : ∀ day, s.used day ≤ max
  covered : ∀ day, 0 < s.used day → day ∈ s.days ∧
    ∃ state later, s.state = some state ∧ state.loginAttemptsDate = some later ∧
      s.days.idxOf day ≤ s.days.idxOf later ∧ (day = later → s.used day ≤ state.loginAttempts)

/-- What a step of another process leaves alone. -/
structure Extends (mover : Process) (s s' : StateStore) : Prop where
  days : s.days <+: s'.days
  closed : s.closed.length ≤ s'.closed.length
  pending : s.closed.length = s'.closed.length →
    ∀ process day, process ≠ mover → (process, day) ∈ s.pending → (process, day) ∈ s'.pending

/-- A store extends itself. -/
theorem Extends.refl (mover : Process) (s : StateStore) : Extends mover s s where
  days := List.prefix_rfl
  closed := le_rfl
  pending := fun _ _ _ _ h => h

/-- The other processes' tasks stay on record. -/
theorem TaskInv.other {max : Nat} {mover process : Process} {s s' : StateStore} {task : RunTask}
    (h : TaskInv max process s task) (hextends : Extends mover s s') (hother : process ≠ mover) :
    TaskInv max process s' task := by
  cases task with
  | idle => trivial
  | resolving options startedAt held => exact DateNoted.mono h hextends.days
  | writing write attempt => exact WriteInv.mono h hextends.days
  | counted state attempt stretch =>
      obtain ⟨hstate, hle, hpending⟩ := h
      have hclosed := hextends.closed
      refine ⟨hstate.mono hextends.days, by omega, ?_⟩
      intro heq
      have hsame : s.closed.length = s'.closed.length := by omega
      exact hextends.pending hsame process attempt.day hother (hpending (by omega))
  | running state => exact DateNoted.mono h hextends.days
  | unparking state => exact DateNoted.mono h hextends.days

/-! ## What each step keeps -/

/-- An attempt uses its day. -/
theorem used_count (s : StateStore) (process : Process) (day other : IsoDate) :
    (s.count process day).used other = s.used other + if day = other then 1 else 0 := by
  unfold StateStore.used StateStore.count
  rw [List.map_cons, List.count_cons]
  by_cases h : day = other
  · simp [h]
    omega
  · simp [h]

/-- A launch uses up its counted attempt. -/
theorem used_launch {s : StateStore} {process : Process} {day : IsoDate}
    (h : (process, day) ∈ s.pending) (other : IsoDate) :
    (s.launch process day day).used other = s.used other := by
  have hperm : (s.pending.map Prod.snd).Perm (day :: (s.pending.erase (process, day)).map Prod.snd) :=
    (List.perm_cons_erase h).map Prod.snd
  have hcount := hperm.count_eq other
  change (day :: s.launches).count other +
    ((s.pending.erase (process, day)).map Prod.snd).count other =
      s.launches.count other + (s.pending.map Prod.snd).count other
  rw [List.count_cons] at hcount ⊢
  omega

/-- Nothing is used after the company is unparked. -/
theorem used_unpark (s : StateStore) (state : SourceState) (day : IsoDate) :
    (s.unpark state).used day = 0 := rfl

/-- A write uses no attempt. -/
theorem used_write (s : StateStore) (state : SourceState) (day : IsoDate) :
    (s.write state).used day = s.used day := rfl

/-- Looking at a day keeps the invariant. -/
theorem StoreInv.guardOn {max : Nat} {s : StateStore} (h : StoreInv max s) (day : IsoDate) :
    StoreInv max (s.guardOn day) where
  nodup := nodup_days_guardOn h.nodup day
  noted := fun state hstate => (h.noted state hstate).mono (days_initial_guardOn s day)
  closed := h.closed
  used := h.used
  covered := by
    intro other hused
    have hdays := days_initial_guardOn s day
    obtain ⟨hmem, state, later, hstate, hlater, hle, hcounts⟩ := h.covered other hused
    refine ⟨hdays.subset hmem, state, later, hstate, hlater, ?_, hcounts⟩
    rw [idxOf_of_initial hdays hmem, idxOf_of_initial hdays (h.noted state hstate later hlater)]
    exact hle

/-- The write of a run that finds the row as it holds it; `more` is the
attempt it counts. -/
theorem StoreInv.covers {max : Nat} {s : StateStore} (h : StoreInv max s) {write : RunWrite}
    {attempt : Option Attempt} (hwrite : WriteInv max s.days write attempt)
    (hcurrent : UpToDate write.held (s.state.getD (defaultSourceState company))) (day : IsoDate)
    (hused : 0 < s.used day) : day ∈ s.days ∧
      ∃ later, write.state.loginAttemptsDate = some later ∧
        s.days.idxOf day ≤ s.days.idxOf later ∧
        (day = later →
          s.used day + (if attempt.isSome then 1 else 0) ≤ write.state.loginAttempts) := by
  obtain ⟨-, -, hdate, hattempts, -, -⟩ := hcurrent
  obtain ⟨hmem, stored, before, hstored, hbefore, hle, hcounts⟩ := h.covered day hused
  rw [hstored, Option.getD_some] at hdate hattempts
  have hheld : write.held.loginAttemptsDate = some before := hdate.trans hbefore
  obtain ⟨later, hlater, hnext, hmore⟩ := hwrite.continues before hheld
  refine ⟨hmem, later, hlater, hle.trans hnext, ?_⟩
  rintro rfl
  -- nothing lies between the day and itself
  have hplaces : s.days.idxOf day = s.days.idxOf before := by omega
  have hsame : day = before := (List.idxOf_inj hmem).mp hplaces
  have hused' := hcounts hsame
  have hmore' := hmore hsame.symm
  omega

/-- A write that counts no attempt keeps the books. -/
theorem StoreInv.write {max : Nat} {s : StateStore} (h : StoreInv max s) {write : RunWrite}
    (hwrite : WriteInv max s.days write none)
    (hcurrent : UpToDate write.held (s.state.getD (defaultSourceState company))) :
    StoreInv max (s.write write.state) where
  nodup := h.nodup
  noted := by
    intro state hstate
    obtain rfl := Option.some.inj hstate
    exact hwrite.noted
  closed := h.closed
  used := h.used
  covered := by
    intro day hused
    obtain ⟨hmem, later, hlater, hle, hcounts⟩ := h.covers hwrite hcurrent day hused
    exact ⟨hmem, write.state, later, rfl, hlater, hle, hcounts⟩

/-- The write of a counted attempt keeps the books. -/
theorem StoreInv.countedWrite {max : Nat} {s : StateStore} (h : StoreInv max s)
    {write : RunWrite} {attempt : Attempt} (process : Process)
    (hwrite : WriteInv max s.days write (some attempt))
    (hcurrent : UpToDate write.held (s.state.getD (defaultSourceState company))) :
    StoreInv max ((s.write write.state).count process attempt.day) := by
  obtain ⟨hdate, hpos, hcap⟩ := hwrite.counting attempt rfl
  have hcovers : ∀ day, 0 < s.used day → day = attempt.day →
      s.used day + 1 ≤ write.state.loginAttempts := by
    intro day hused heq
    obtain ⟨-, later, hlater, -, hcounts⟩ := h.covers hwrite hcurrent day hused
    have hsame : later = attempt.day := Option.some.inj (hlater.symm.trans hdate)
    exact hcounts (heq.trans hsame.symm)
  have hday : (s.write write.state).used attempt.day + 1 ≤ write.state.loginAttempts := by
    rw [used_write]
    by_cases hused : 0 < s.used attempt.day
    · exact hcovers _ hused rfl
    · omega
  refine ⟨h.nodup, ?_, h.closed, ?_, ?_⟩
  · intro state hstate
    obtain rfl := Option.some.inj hstate
    exact hwrite.noted
  · intro day
    rw [used_count]
    by_cases heq : attempt.day = day
    · rw [if_pos heq, ← heq]
      omega
    · rw [if_neg heq]
      exact h.used day
  · intro day hused
    rw [used_count] at hused ⊢
    by_cases heq : attempt.day = day
    · subst heq
      rw [if_pos rfl]
      exact ⟨hwrite.noted _ hdate, write.state, attempt.day, rfl, hdate, le_rfl, fun _ => hday⟩
    · rw [if_neg heq] at hused ⊢
      obtain ⟨hmem, later, hlater, hle, -⟩ := h.covers hwrite hcurrent day hused
      have hsame : later = attempt.day := Option.some.inj (hlater.symm.trans hdate)
      refine ⟨hmem, write.state, later, rfl, hlater, hle, ?_⟩
      intro hback
      exact absurd (hback.trans hsame).symm heq

/-- So does launching a counted attempt. -/
theorem StoreInv.launch {max : Nat} {s : StateStore} (h : StoreInv max s) {process : Process}
    {day : IsoDate} (hpending : (process, day) ∈ s.pending) :
    StoreInv max (s.launch process day day) where
  nodup := h.nodup
  noted := h.noted
  closed := h.closed
  used := by
    intro other
    rw [used_launch hpending]
    exact h.used other
  covered := by
    intro other
    rw [used_launch hpending]
    exact h.covered other

/-- The launches of a stretch are within the cap. -/
theorem StoreInv.count_le {max : Nat} {s : StateStore} (h : StoreInv max s)
    {stretch : List IsoDate} (hstretch : stretch ∈ s.launches :: s.closed) (day : IsoDate) :
    stretch.count day ≤ max := by
  rcases List.mem_cons.mp hstretch with rfl | hclosed
  · have hused := h.used day
    unfold StateStore.used at hused
    omega
  · exact h.closed stretch hclosed day

/-- So does unparking. -/
theorem StoreInv.unpark {max : Nat} {s : StateStore} (h : StoreInv max s) {state : SourceState}
    (hstate : DateNoted s.days state) : StoreInv max (s.unpark (unparkedState state)) where
  nodup := h.nodup
  noted := by
    intro stored hstored
    obtain rfl := Option.some.inj hstored
    exact hstate.of_date rfl
  closed := fun stretch hstretch => h.count_le hstretch
  used := fun _ => Nat.zero_le _
  covered := by
    intro day hused
    rw [used_unpark] at hused
    exact absurd hused (Nat.lt_irrefl 0)

/-- The day of the stored attempts was seen. -/
theorem StoreInv.stored {max : Nat} {s : StateStore} (h : StoreInv max s) :
    DateNoted s.days (s.state.getD (defaultSourceState company)) := by
  cases hstate : s.state with
  | none =>
      intro day hday
      cases hday
  | some state => exact h.noted state hstate

/-- **One step.**  An undisturbed step keeps the books, leaves its own task on
record and takes nothing from the other processes. -/
theorem advanceRun_keeps {process : Process} {move : RunMove} {s : StateStore} {task : RunTask}
    (hstore : StoreInv config.maxLoginAttemptsPerDay s)
    (htask : TaskInv config.maxLoginAttemptsPerDay process s task)
    (hquiet : UndisturbedStep host config company companyConfig s task move) :
    let next := advanceRun host config company companyConfig process move s task
    StoreInv config.maxLoginAttemptsPerDay next.1 ∧
      TaskInv config.maxLoginAttemptsPerDay process next.1 next.2 ∧ Extends process s next.1 := by
  unfold advanceRun
  split
  case h_1 => exact ⟨hstore, trivial, .refl _ _⟩
  case h_2 => exact ⟨hstore, hstore.stored, .refl _ _⟩
  case h_3 =>
    refine ⟨hstore, ?_, .refl _ _⟩
    cases hstate : s.state with
    | none => trivial
    | some state => exact hstore.noted state hstate
  case h_4 held current =>
    refine ⟨hstore, ?_, .refl _ _⟩
    refine .of_counter ?_ htask (applyFailure_date _ _ _ _) (applyFailure_attempts _ _ _ _)
    have hfailed := @stands_applyFailure company held .BRIDGE_ERROR credentialMessage current
    exact ⟨hfailed.parking, hfailed.unparked, hfailed.attempts, hfailed.failures, hfailed.backoff⟩
  case h_5 options startedAt held fingerprint current =>
    have hdays := days_initial_guardOn s (calendarDate host current config.timezone)
    obtain ⟨write, attempt, hnext, hwrite⟩ := writeInv_guardedTask options startedAt fingerprint
      current (DateNoted.mono htask hdays) (mem_days_guardOn _ _)
      (fun _ hday => newest_guardOn hstore.nodup hquiet hday)
    refine ⟨hstore.guardOn _, ?_, ⟨hdays, le_rfl, fun _ _ _ _ h => h⟩⟩
    dsimp only
    rw [hnext]
    exact hwrite
  case h_6 write =>
    exact ⟨hstore.write htask hquiet, trivial, ⟨List.prefix_rfl, le_rfl, fun _ _ _ _ h => h⟩⟩
  case h_7 write attempt =>
    refine ⟨hstore.countedWrite process htask hquiet, ?_, ?_⟩
    · exact ⟨WriteInv.noted htask, le_rfl, fun _ => List.mem_cons_self⟩
    · exact ⟨List.prefix_rfl, le_rfl, fun _ _ _ _ h => List.mem_cons_of_mem _ h⟩
  case h_8 state attempt stretch profileDirectory launchedAt =>
    obtain ⟨hstate, -, hpending⟩ := htask
    by_cases hreaches : reachesSource host config companyConfig state attempt profileDirectory = true
    · obtain ⟨hstretch, hday⟩ := hquiet hreaches
      rw [if_pos hreaches, hday]
      refine ⟨hstore.launch (hpending hstretch), hstate, ⟨List.prefix_rfl, le_rfl, ?_⟩⟩
      intro _ other day hother hmem
      apply (List.mem_erase_of_ne _).mpr hmem
      intro heq
      exact hother (congrArg Prod.fst heq)
    · rw [if_neg hreaches]
      exact ⟨hstore, trivial, .refl _ _⟩
  case h_9 state outcome ingested current =>
    by_cases hthrew : ingestionThrew outcome ingested = true
    · rw [if_pos hthrew]
      exact ⟨hstore, trivial, .refl _ _⟩
    · rw [if_neg hthrew]
      exact ⟨hstore, writeInv_lastWrite _ htask _ _, .refl _ _⟩
  case h_10 state =>
    refine ⟨hstore.unpark htask, trivial, ⟨List.prefix_rfl, Nat.le_succ _, ?_⟩⟩
    intro hsame
    exact absurd hsame (Nat.lt_succ_self _).ne
  case h_11 => exact ⟨hstore, htask, .refl _ _⟩

/-- Books kept and every task on record. -/
def StateInv (max : Nat) (w : StateWorld) : Prop :=
  Interleaving.Invariant (StoreInv max) (TaskInv max) w

/-- While no process runs, nothing is owed. -/
theorem stateInv_quiet (max : Nat) (state : Option SourceState) :
    StateInv max (quietState state) := by
  refine ⟨?_, fun _ => trivial⟩
  refine ⟨?_, ?_, fun _ h => absurd h List.not_mem_nil, fun _ => Nat.zero_le _, ?_⟩
  · change ((state.bind (·.loginAttemptsDate)).toList).Nodup
    cases state.bind (·.loginAttemptsDate) with
    | none => exact List.nodup_nil
    | some day => exact List.nodup_singleton day
  · intro stored hstored day hday
    change state = some stored at hstored
    change day ∈ (state.bind (·.loginAttemptsDate)).toList
    rw [hstored, Option.bind_some, hday]
    exact List.mem_singleton.mpr rfl
  · intro day hused
    exact absurd hused (Nat.lt_irrefl 0)

/-- **An undisturbed step keeps the invariant.** -/
theorem stateInv_step {w : StateWorld} {m : Process × RunMove}
    (hinv : StateInv config.maxLoginAttemptsPerDay w)
    (hquiet : UndisturbedStep host config company companyConfig w.store (w.task m.1) m.2) :
    StateInv config.maxLoginAttemptsPerDay (runStep host config company companyConfig w m) := by
  obtain ⟨hstore, hself, hextends⟩ := advanceRun_keeps hinv.1 (hinv.2 m.1) hquiet
  apply Interleaving.invariant_step hinv hstore hself
  intro process hother htask
  exact htask.other hextends hother

/-- An undisturbed write stands. -/
theorem statesStand_step {w : StateWorld} {m : Process × RunMove}
    (hinv : StateInv config.maxLoginAttemptsPerDay w)
    (hquiet : UndisturbedStep host config company companyConfig w.store (w.task m.1) m.2) :
    StatesStand config company w m (runStep host config company companyConfig w m) := by
  have hnext := stateInv_step hinv hquiet
  refine ⟨fun stretch hstretch => hnext.1.count_le hstretch, ?_⟩
  intro write attempt htask hmove
  have hwrite : WriteInv config.maxLoginAttemptsPerDay w.store.days write attempt := by
    have hrecord := hinv.2 m.1
    rwa [htask] at hrecord
  rw [htask, hmove] at hquiet
  refine ⟨write.state, ?_, hwrite.stands.of_upToDate hquiet⟩
  unfold runStep
  rw [Interleaving.step_store, htask, hmove]
  cases attempt with
  | none => rfl
  | some attempt => rfl

/-- **Source states under concurrent processes.**  In every interleaving of
`runOne` and `unparkCompany` in any number of processes whose steps are
undisturbed, a company is launched at most `maxLoginAttemptsPerDay` times on
a calendar day between two unparks, no write of a run clears a parking
decision without changed credentials, and no write of a run brings back what
an unpark has cleared. -/
theorem states_stand_of_undisturbed (host : Host) (config : Config) (company : CompanyId)
    (companyConfig : CompanyConfig) (state : Option SourceState) (moves : List (Process × RunMove))
    (hquiet : Runs.Along (runStep host config company companyConfig)
      (Undisturbed host config company companyConfig) (quietState state) moves) :
    Runs.Along (runStep host config company companyConfig) (StatesStand config company)
      (quietState state) moves := by
  apply hquiet.of_invariant (stateInv_quiet config.maxLoginAttemptsPerDay state)
  intro w m hinv hstep
  exact ⟨stateInv_step hinv hstep, statesStand_step hinv hstep⟩

end

section
variable {host : Host} {config : Config} {company : CompanyId} {companyConfig : CompanyConfig}

/-! ## One process alone -/

variable (host config company companyConfig) in
/-- A step of a process that nobody interrupts. -/
def aloneStep (process : Process) (p : StateStore × RunTask) (move : RunMove) :
    StateStore × RunTask :=
  advanceRun host config company companyConfig process move p.1 p.2

/-- The steps of one process, when nobody else moves. -/
theorem run_alone (process : Process) (moves : List RunMove) (w : StateWorld) :
    let after := Runs.run (runStep host config company companyConfig) w
      (moves.map fun move => (process, move))
    (after.store, after.task process) =
      Runs.run (aloneStep host config company companyConfig process)
        (w.store, w.task process) moves := by
  induction moves generalizing w with
  | nil => rfl
  | cons move moves ih =>
      have hstep := ih (runStep host config company companyConfig w (process, move))
      rw [List.map_cons, Runs.run_cons, Runs.run_cons]
      dsimp only at hstep ⊢
      rw [hstep]
      unfold runStep
      rw [Interleaving.step_store, Interleaving.step_task_self]
      rfl

section
variable {options : RunNowOptions} {startedAt guardedAt : Instant} {fingerprint : String}
  {held state : SourceState} {s : StateStore}

/-- A guard that refuses leaves a write that counts nothing. -/
theorem guardedTask_skips {message : String}
    (hguard : guard host config held fingerprint options.force guardedAt = (state, some message)) :
    guardedTask host config options startedAt held fingerprint guardedAt =
      .writing ⟨held, state, some fingerprint, none⟩ none := by
  unfold guardedTask
  rw [hguard]

/-- A guard that lets the run through leaves the write of a counted attempt. -/
theorem guardedTask_counts
    (hguard : guard host config held fingerprint options.force guardedAt = (state, none)) :
    guardedTask host config options startedAt held fingerprint guardedAt =
      .writing ⟨held, countedState state startedAt, some fingerprint, none⟩
        (some ⟨options, startedAt, calendarDate host guardedAt config.timezone⟩) := by
  unfold guardedTask
  rw [hguard]

/-- A lone process goes on to the guard, -/
theorem aloneStep_resolved (process : Process) :
    aloneStep host config company companyConfig process
      (s, .resolving options startedAt held) (.resolved (some fingerprint) guardedAt) =
        (s.guardOn (calendarDate host guardedAt config.timezone),
          guardedTask host config options startedAt held fingerprint guardedAt) := rfl

/-- and to its source. -/
theorem aloneStep_launch (process : Process) {attempt : Attempt} {stretch : Nat}
    (hreaches : reachesSource host config companyConfig state attempt true = true) :
    aloneStep host config company companyConfig process
      (s, .counted state attempt stretch) (.launch true guardedAt) =
        (s.launch process attempt.day (calendarDate host guardedAt config.timezone),
          .running state) :=
  if_pos hreaches

end

/-- The store after the counted attempt of a lone run. -/
def countedAlone (process : Process) (stored : Option SourceState) (state : SourceState)
    (day : IsoDate) : StateStore :=
  (((quietState stored).store.guardOn day).write state).count process day

/-- The steps of a lone run up to its counted attempt. -/
theorem run_counted {options : RunNowOptions} {startedAt guardedAt : Instant}
    {fingerprint : String} {stored : Option SourceState} {state : SourceState} (process : Process)
    (hguard : guard host config (stored.getD (defaultSourceState company)) fingerprint
      options.force guardedAt = (state, none)) (rest : List RunMove) :
    Runs.run (aloneStep host config company companyConfig process)
      ((quietState stored).store, .idle)
      (.read options startedAt :: .resolved (some fingerprint) guardedAt :: .write :: rest) =
    Runs.run (aloneStep host config company companyConfig process)
      (countedAlone process stored (countedState state startedAt)
          (calendarDate host guardedAt config.timezone),
        .counted (countedState state startedAt)
          ⟨options, startedAt, calendarDate host guardedAt config.timezone⟩ 0) rest := by
  have hread : aloneStep host config company companyConfig process
      ((quietState stored).store, .idle) (.read options startedAt) =
        ((quietState stored).store,
          .resolving options startedAt (stored.getD (defaultSourceState company))) := rfl
  rw [Runs.run_cons, Runs.run_cons, Runs.run_cons, hread, aloneStep_resolved,
    guardedTask_counts hguard]
  rfl

/-- The steps of a lone run that the guard refuses. -/
theorem run_skipped {options : RunNowOptions} {guardedAt : Instant} {fingerprint message : String}
    {stored : Option SourceState} {state : SourceState} (process : Process) (startedAt : Instant)
    (hguard : guard host config (stored.getD (defaultSourceState company)) fingerprint
      options.force guardedAt = (state, some message)) :
    Runs.run (aloneStep host config company companyConfig process)
      ((quietState stored).store, .idle)
      [.read options startedAt, .resolved (some fingerprint) guardedAt, .write] =
    (((quietState stored).store.guardOn (calendarDate host guardedAt config.timezone)).write state,
      .idle) := by
  have hread : aloneStep host config company companyConfig process
      ((quietState stored).store, .idle) (.read options startedAt) =
        ((quietState stored).store,
          .resolving options startedAt (stored.getD (defaultSourceState company))) := rfl
  rw [Runs.run_cons, Runs.run_cons, Runs.run_cons, hread, aloneStep_resolved,
    guardedTask_skips hguard]
  rfl

/-- … and on to its launch. -/
theorem run_launched {options : RunNowOptions} {startedAt guardedAt : Instant}
    {fingerprint : String} {stored : Option SourceState} {state : SourceState}
    {startDate : JsDate} (process : Process)
    (hguard : guard host config (stored.getD (defaultSourceState company)) fingerprint
      options.force guardedAt = (state, none))
    (hwindow : computeWindowStart host config companyConfig (countedState state startedAt)
      options startedAt = .ok startDate) (rest : List RunMove) :
    Runs.run (aloneStep host config company companyConfig process)
      ((quietState stored).store, .idle)
      (.read options startedAt :: .resolved (some fingerprint) guardedAt :: .write ::
        .launch true guardedAt :: rest) =
    Runs.run (aloneStep host config company companyConfig process)
      ((countedAlone process stored (countedState state startedAt)
          (calendarDate host guardedAt config.timezone)).launch process
            (calendarDate host guardedAt config.timezone)
            (calendarDate host guardedAt config.timezone),
        .running (countedState state startedAt)) rest := by
  have hreaches : reachesSource host config companyConfig (countedState state startedAt)
      ⟨options, startedAt, calendarDate host guardedAt config.timezone⟩ true = true := by
    unfold reachesSource
    dsimp only
    rw [hwindow]
    rfl
  rw [run_counted process hguard, Runs.run_cons, aloneStep_launch process hreaches]

/-- A visit launches once. -/
theorem launchesOf_visit {options : RunNowOptions} {stored : Option SourceState}
    {fingerprint : String} {guardedAt : Instant} {startDate : JsDate} {rest : List Event}
    (hrest : launchesOf company rest = []) :
    launchesOf company (.visited company :: .guarded company guardedAt ::
      .launched ⟨company, options, stored, fingerprint, guardedAt, startDate⟩ :: rest) =
        [⟨company, options, stored, fingerprint, guardedAt, startDate⟩] := by
  have hlaunch : launchOf company
      (.launched ⟨company, options, stored, fingerprint, guardedAt, startDate⟩) =
        some ⟨company, options, stored, fingerprint, guardedAt, startDate⟩ := if_pos rfl
  have hvisited : launchOf company (.visited company) = none := rfl
  have hguarded : launchOf company (.guarded company guardedAt) = none := rfl
  unfold launchesOf at hrest ⊢
  rw [List.filterMap_cons_none hvisited, List.filterMap_cons_none hguarded,
    List.filterMap_cons_some hlaunch, hrest]

/-- **A visit of the scheduler is a run of one process**: every outcome of
`runOne` is reached by its steps taken one after another. -/
theorem visit_alone {clock : Nat → Instant} {options : RunNowOptions} {behaviour : Behaviour}
    {tick : Nat} {stored state : Option SourceState} {events : List Event} {readings : Nat}
    (hvisit : VisitMove host config clock options behaviour company companyConfig tick stored state
      events readings) (process : Process) :
    ∃ moves : List RunMove,
      let after := Runs.run (runStep host config company companyConfig) (quietState stored)
        (moves.map fun move => (process, move))
      after.store.state = state ∧
        after.store.launches = (launchesOf company events).map fun launch =>
          calendarDate host launch.guardedAt config.timezone := by
  have halone : ∀ moves (s : StateStore) (task : RunTask),
      Runs.run (aloneStep host config company companyConfig process)
        ((quietState stored).store, .idle) moves = (s, task) →
      s.state = state → s.launches = (launchesOf company events).map (fun launch =>
          calendarDate host launch.guardedAt config.timezone) →
      ∃ moves : List RunMove,
      let after := Runs.run (runStep host config company companyConfig) (quietState stored)
        (moves.map fun move => (process, move))
      after.store.state = state ∧
        after.store.launches = (launchesOf company events).map fun launch =>
          calendarDate host launch.guardedAt config.timezone := by
    intro moves s task hrun hstate hlaunches
    have hafter := (@run_alone host config company companyConfig process moves
      (quietState stored)).trans hrun
    obtain ⟨hstore, -⟩ := Prod.mk.inj hafter
    refine ⟨moves, ?_⟩
    dsimp only
    rw [hstore]
    exact ⟨hstate, hlaunches⟩
  cases hvisit with
  | untouched | refused => exact halone [] _ _ rfl rfl rfl
  | unresolved =>
      exact halone [.read options (clock tick), .resolved none (clock (tick + 1)), .write] _ _ rfl
        rfl rfl
  | skipped _ _ hguard => exact halone _ _ _ (run_skipped process (clock tick) hguard) rfl rfl
  | counted _ hpass => exact halone _ _ _ (run_counted process hpass.2 []) rfl rfl
  | launched _ hpass hwindow =>
      apply halone _ _ _ (run_launched process hpass.2 hwindow []) rfl
      rw [launchesOf_visit rfl]
      rfl
  | failed _ hpass hwindow errorType message =>
      apply halone _ _ _ (run_launched process hpass.2 hwindow
        [.returned (.failed errorType message) false (clock (tick + 2)), .write]) rfl
      rw [launchesOf_visit rfl]
      rfl
  | succeeded _ hpass hwindow result =>
      apply halone _ _ _ (run_launched process hpass.2 hwindow
        [.returned (.ok result) true (clock (tick + 3)), .write]) rfl
      rw [launchesOf_visit rfl]
      rfl

end

/-! ## Two processes at once -/

/-- One login attempt a day. -/
def oneAttempt : Config := { oneCompany with maxLoginAttemptsPerDay := 1 }

/-- A credit card. -/
def isracardConfig : CompanyConfig :=
  ⟨true, "Isracard", .credit_card, none, none, true, .purchase, false⟩

/-- A run that the user asks for. -/
def anyTime : RunNowOptions := ⟨none, none, none, false⟩

/-- The scheduler runs after an unpark that waited for nobody. -/
def orderlyRuns : List (Process × RunMove) :=
  [(1, .unpark), (1, .write),
   (0, .read anyTime 1000), (0, .resolved (some "fp") 1001), (0, .write), (0, .launch true 1002),
   (0, .returned (.failed .INVALID_PASSWORD "Invalid credentials") false 2000), (0, .write),
   (2, .read anyTime 3000), (2, .resolved (some "fp") 3001), (2, .write)]

/-- Two runs one after another. -/
theorem states_stand_orderlyRuns :
    Runs.Along (runStep asciiHost oneAttempt "isracard" isracardConfig)
      (Undisturbed asciiHost oneAttempt "isracard" isracardConfig)
      (quietState (some (defaultSourceState "isracard"))) orderlyRuns ∧
    Runs.Along (runStep asciiHost oneAttempt "isracard" isracardConfig)
      (StatesStand oneAttempt "isracard")
      (quietState (some (defaultSourceState "isracard"))) orderlyRuns := by
  have hquiet : Runs.Along (runStep asciiHost oneAttempt "isracard" isracardConfig)
      (Undisturbed asciiHost oneAttempt "isracard" isracardConfig)
      (quietState (some (defaultSourceState "isracard"))) orderlyRuns := by decide +kernel
  exact ⟨hquiet, states_stand_of_undisturbed asciiHost oneAttempt "isracard" isracardConfig _ _
    hquiet⟩

/-- The scheduler and `bridge scrape` read the row before either has written
it; the scheduler's login fails for good, the other one's succeeds. -/
def overlappingRuns : List (Process × RunMove) :=
  [(0, .read anyTime 1000), (1, .read anyTime 1000),
   (0, .resolved (some "fp") 1001), (1, .resolved (some "fp") 1001), (0, .write), (1, .write),
   (0, .launch true 1002), (1, .launch true 1002)]

/-- A refusal and a success that overlap. -/
def overlappingEnds : List (Process × RunMove) :=
  [(0, .returned (.failed .INVALID_PASSWORD "Invalid credentials") false 2000), (0, .write),
   (1, .returned (.ok ⟨[], [], [], 2000⟩) true 2001), (1, .write)]

/-- A company that a wrong password has parked. -/
def parkedState : SourceState :=
  { defaultSourceState "isracard" with
    parked := true
    parkedReason := some "Bank rejected the credentials"
    credentialFingerprint := some "fp"
    consecutiveFailures := 1 }

/-- `bridge unpark` between the read of a run and its write. -/
def overlappedUnpark : List (Process × RunMove) :=
  [(0, .read anyTime 1000), (1, .unpark), (1, .write), (0, .resolved (some "fp") 1001), (0, .write)]

/-- Both are launched although one attempt a day is allowed, and the parking
that the first one commits is cleared by the second; and a run that is skipped
parks a company again that was unparked in the meantime. -/
theorem overlapping_runs_lose_updates :
    (Runs.run (runStep asciiHost oneAttempt "isracard" isracardConfig) (quietState none)
      overlappingRuns).store.launches = ["1970-01-01", "1970-01-01"] ∧
    ((Runs.run (runStep asciiHost oneAttempt "isracard" isracardConfig) (quietState none)
      (overlappingRuns ++ overlappingEnds.take 2)).store.state.map (·.parked)) = some true ∧
    ((Runs.run (runStep asciiHost oneAttempt "isracard" isracardConfig) (quietState none)
      (overlappingRuns ++ overlappingEnds)).store.state.map (·.parked)) = some false ∧
    ¬Runs.Along (runStep asciiHost oneAttempt "isracard" isracardConfig)
      (StatesStand oneAttempt "isracard") (quietState none) overlappingRuns ∧
    ((Runs.run (runStep asciiHost oneAttempt "isracard" isracardConfig)
      (quietState (some parkedState)) (overlappedUnpark.take 3)).store.state.map (·.parked)) =
        some false ∧
    ((Runs.run (runStep asciiHost oneAttempt "isracard" isracardConfig)
      (quietState (some parkedState)) overlappedUnpark).store.state.map (·.parked)) = some true := by
  have hlaunches : (Runs.run (runStep asciiHost oneAttempt "isracard" isracardConfig)
      (quietState none) overlappingRuns).store.launches = ["1970-01-01", "1970-01-01"] := by
    decide +kernel
  refine ⟨hlaunches, by decide +kernel, by decide +kernel, ?_, by decide +kernel,
    by decide +kernel⟩
  intro hstand
  have hlast := (Runs.along_iff_prefix.mp hstand) (overlappingRuns.take 7)
    (1, .launch true 1002) ⟨[], rfl⟩
  have hcount := hlast.1 ["1970-01-01", "1970-01-01"] (List.mem_cons.mpr (.inl hlaunches.symm))
    "1970-01-01"
  exact absurd hcount (by decide)

end SimplefinBridge
