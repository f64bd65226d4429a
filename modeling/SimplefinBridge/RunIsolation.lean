import SimplefinBridge.Bookkeeping

/-!
# Run isolation

`runNow` visits the selected companies one after another and means to settle
each visit with one run record and one stored outcome.  Credential resolution
and `source.run` are shielded; the profile directory and the ingestion of a
result are not, and their exceptions leave `runOne` and end the whole run.
`runNow_isolated_iff` says that these escapes are the only thing that breaks
the isolation.
-/

namespace SimplefinBridge

open Transactional

/-! ## Outcomes -/

/-- The state stored for a company. -/
def SchedulerWorld.stored (w : SchedulerWorld) (company : CompanyId) : Option SourceState :=
  w.session.ledger.sourceStates.find company

/-- The companies visited, in order. -/
def visitsOf (journal : List Event) : List CompanyId :=
  journal.filterMap fun event => match event with
    | .visited company => some company
    | _ => none

section
variable (host : Host) (config : Config) (clock : Nat → Instant)

/-- The state after a failure: it is remembered and counted, and the company is
parked, or left alone for one hour, for three, and then until the next slot. -/
structure FailureStored (before after : SourceState) (errorType : ScrapeErrorType)
    (message : String) (current : Instant) : Prop where
  remembered : after.lastErrorAt = some current ∧ after.lastErrorType = some errorType ∧
    after.lastErrorMessage = some message
  counted : after.consecutiveFailures = before.consecutiveFailures + 1
  parks : isParkingError errorType = true → after.parked = true ∧ after.parkedAt = some current ∧
    after.parkedReason.isSome = true ∧ after.nextAllowedAt = none
  backsOff : isParkingError errorType = false → after.parked = before.parked ∧
    after.parkedAt = before.parkedAt ∧ after.parkedReason = before.parkedReason ∧
    after.nextAllowedAt = (match before.consecutiveFailures with
      | 0 => some (current + 3600000)
      | 1 => some (current + 10800000)
      | _ => none)
  kept : { after with
    lastErrorAt := before.lastErrorAt
    lastErrorType := before.lastErrorType
    lastErrorMessage := before.lastErrorMessage
    consecutiveFailures := before.consecutiveFailures
    parked := before.parked
    parkedAt := before.parkedAt
    parkedReason := before.parkedReason
    nextAllowedAt := before.nextAllowedAt } = before

/-- The state after a success: failures and the backoff are forgotten, and the
earliest date of the result is remembered. -/
structure SuccessStored (before after : SourceState) (result : SourceFetchResult)
    (completedAt : Instant) : Prop where
  remembered : after.lastSuccessAt = some completedAt
  cleared : after.consecutiveFailures = 0 ∧ after.nextAllowedAt = none ∧
    after.lastErrorType = none ∧ after.lastErrorMessage = none
  earliest : after.earliestScrapedDate = (result.transactions.map (·.bookedDate)).foldl
    (fun earliest date => minDate earliest (some date)) before.earliestScrapedDate
  kept : { after with
    lastSuccessAt := before.lastSuccessAt
    consecutiveFailures := before.consecutiveFailures
    nextAllowedAt := before.nextAllowedAt
    lastErrorType := before.lastErrorType
    lastErrorMessage := before.lastErrorMessage
    earliestScrapedDate := before.earliestScrapedDate } = before

/-- How the visit ended, by its record. -/
def RunRecord.Says (run : RunRecord) (status : RunStatus) (errorType : Option ScrapeErrorType)
    (message : Option String) : Prop :=
  run.status = status ∧ run.errorType = errorType ∧ run.message = message

/-- The failure that a scrape ends with: the one reported, or the bridge's own
when the scraper throws. -/
def SourceRunOutcome.failure : SourceRunOutcome → Option (ScrapeErrorType × String)
  | .ok _ => none
  | .failed errorType message => some (errorType, message)
  | .threw => some (.BRIDGE_ERROR, bridgeErrorMessage)

/-- **The outcome of a visit** that began at clock reading `tick` with `stored`
as the state of its company: what the collaborators and the guard did decides
what the record says and which state is stored. -/
inductive VisitOutcome (options : RunNowOptions) (behaviour : Behaviour) (company : CompanyId)
    (stored : Option SourceState) (tick : Nat) (run : RunRecord) (after : SourceState) : Prop
  | unresolved (hcredentials : behaviour.credentials = none)
      (hrun : run.Says .error (some .BRIDGE_ERROR) (some credentialMessage))
      (hstate : FailureStored { stored.getD (defaultSourceState company) with
        lastRunAt := some (clock tick) } after .BRIDGE_ERROR credentialMessage (clock (tick + 1)))
  | skipped {fingerprint message : String} (hcredentials : behaviour.credentials = some fingerprint)
      (hguard : guard host config (stored.getD (defaultSourceState company)) fingerprint
        options.force (clock (tick + 1)) = (after, some message))
      (hrun : run.Says .skipped none (some message))
  | failed {fingerprint message : String} {state : SourceState} {errorType : ScrapeErrorType}
      (hpass : Passes host config clock options behaviour company tick stored fingerprint state)
      (hfailure : behaviour.outcome.failure = some (errorType, message))
      (hrun : run.Says (statusForError errorType) (some errorType) (some message))
      (hstate : FailureStored (countedState state (clock tick)) after errorType message
        (clock (tick + 2)))
  | succeeded {fingerprint : String} {state : SourceState} {result : SourceFetchResult}
      (hpass : Passes host config clock options behaviour company tick stored fingerprint state)
      (hresult : behaviour.outcome = .ok result) (hrun : run.Says .success none none)
      (hcounts : run.accountsSeen = result.accounts.length ∧
        run.transactionsSeen = result.transactions.length)
      (hstate : SuccessStored (countedState state (clock tick)) after result (clock (tick + 3)))

/-- A visit that ended with a record and one stored outcome. -/
structure Settled (options : RunNowOptions) (behaviour : Behaviour) (company : CompanyId)
    (w : SchedulerWorld) (run : RunRecord) (w' : SchedulerWorld) : Prop where
  sameId : run.id = behaviour.runId
  sameCompany : run.company = company
  started : run.startedAt = clock w.tick
  recorded : w'.session.ledger.runs = w.session.ledger.runs.put run
  outcome : ∃ state, w'.stored company = some state ∧
    VisitOutcome host config clock options behaviour company (w.stored company) w.tick run state
  others : ∀ other, other ≠ company → w'.stored other = w.stored other
  visits : visitsOf w'.journal = visitsOf w.journal ++ [company]
  running : w'.running = w.running
  later : w.tick ≤ w'.tick
  faults : w'.session.faults = []

/-- The ledger once the attempt has been counted. -/
def countedLedger (w : SchedulerWorld) (state : SourceState) : Ledger :=
  { w.session.ledger with
    sourceStates := w.session.ledger.sourceStates.put (countedState state (clock w.tick)) }

/-- The ingestion of a visit's result. -/
def ingestion (companyConfig : CompanyConfig) (behaviour : Behaviour) (result : SourceFetchResult)
    (ingestedAt : Instant) (ledger : Ledger) : EStateM.Result BridgeError Session Counts :=
  applySuccess host config companyConfig result (calendarDate host ingestedAt config.timezone)
    behaviour.emittedAt ⟨ledger, behaviour.ingestFaults⟩

/-- The visit reaches what it does not shield itself from: the profile
directory cannot be made, or the ingestion of the result throws. -/
def Escapes (options : RunNowOptions) (behaviour : Behaviour) (company : CompanyId)
    (companyConfig : CompanyConfig) (w : SchedulerWorld) : Prop :=
  ∃ fingerprint state,
    Passes host config clock options behaviour company w.tick (w.stored company) fingerprint state ∧
    (behaviour.profileDirectory = false ∨
      ∃ result e session, behaviour.outcome = .ok result ∧
        ingestion host config companyConfig behaviour result (clock (w.tick + 2))
          (countedLedger clock w state) = .error e session)

end

/-! ## One visit, executed -/

section
variable {host : Host} {config : Config} {clock : Nat → Instant} {options : RunNowOptions}
  {behaviour : Behaviour} {company : CompanyId} {companyConfig : CompanyConfig}
  {w : SchedulerWorld}

/-- The world when the guard runs. -/
def atGuard (clock : Nat → Instant) (company : CompanyId) (w : SchedulerWorld) : SchedulerWorld :=
  { w with
    tick := w.tick + 2
    journal := w.journal ++ [.visited company] ++ [.guarded company (clock (w.tick + 1))] }

/-- The world after a state was stored. -/
def storing (state : SourceState) (w : SchedulerWorld) : SchedulerWorld :=
  { w with session := { w.session with ledger := { w.session.ledger with
      sourceStates := w.session.ledger.sourceStates.put state } } }

/-- A visit with credentials goes on to the guard. -/
theorem runOne_guarded {fingerprint : String} (hfaults : w.session.faults = [])
    (hcredentials : behaviour.credentials = some fingerprint) :
    runOne host config clock options behaviour company companyConfig w =
      (match guard host config ((w.stored company).getD (defaultSourceState company)) fingerprint
          options.force (clock (w.tick + 1)) with
        | (state, some message) => skipRun clock company behaviour (clock w.tick) state message
        | (state, none) => attemptRun host config clock company companyConfig options behaviour
            (clock w.tick) (w.stored company) fingerprint (clock (w.tick + 1)) state)
        (atGuard clock company w) := by
  obtain ⟨⟨ledger, faults⟩, tick, running, journal⟩ := w
  cases hfaults
  unfold runOne
  rw [hcredentials]
  rfl

/-- A visit that is let through counts its attempt. -/
theorem attemptRun_counted {stored : Option SourceState} {fingerprint : String}
    {startedAt guardedAt : Instant} {state : SourceState} {startDate : JsDate}
    (hfaults : w.session.faults = [])
    (hwindow : computeWindowStart host config companyConfig (countedState state startedAt) options
      startedAt = .ok startDate) :
    attemptRun host config clock company companyConfig options behaviour startedAt stored fingerprint
      guardedAt state w =
      if behaviour.profileDirectory then
        (match behaviour.outcome with
          | .ok result => finishSuccess host config clock company companyConfig behaviour startedAt
              ⟨company, options, stored, fingerprint, guardedAt, startDate⟩
              (countedState state startedAt) result
          | .failed errorType message => finishFailure clock company behaviour startedAt
              (countedState state startedAt) errorType message
          | .threw => finishFailure clock company behaviour startedAt (countedState state startedAt)
              .BRIDGE_ERROR bridgeErrorMessage)
          { storing (countedState state startedAt) w with
            journal := w.journal ++
              [Event.launched ⟨company, options, stored, fingerprint, guardedAt, startDate⟩] }
      else .error .profileDirectory (storing (countedState state startedAt) w) := by
  obtain ⟨⟨ledger, faults⟩, tick, running, journal⟩ := w
  cases hfaults
  unfold attemptRun
  rw [hwindow]
  cases behaviour.profileDirectory with
  | true => rfl
  | false => rfl

/-- The end of a visit from a world in which the launch, if any, is past: one
more record, and `final` stored for the company. -/
structure Ends (behaviour : Behaviour) (company : CompanyId) (startedAt : Instant)
    (v : SchedulerWorld) (final : SourceState) (run : RunRecord) (v' : SchedulerWorld) : Prop where
  sameId : run.id = behaviour.runId
  sameCompany : run.company = company
  started : run.startedAt = startedAt
  recorded : v'.session.ledger.runs = v.session.ledger.runs.put run
  states : v'.stored = Function.update v.stored company (some final)
  visits : visitsOf v'.journal = visitsOf v.journal
  running : v'.running = v.running
  later : v.tick ≤ v'.tick
  faults : v'.session.faults = []

/-- A visit that is refused is recorded as skipped. -/
theorem skipRun_ends (clock : Nat → Instant) (behaviour : Behaviour) (w : SchedulerWorld)
    (startedAt : Instant) (message : String) {state : SourceState}
    (hfaults : w.session.faults = []) (hcompany : state.company = company) :
    ∃ run w', skipRun clock company behaviour startedAt state message w = .ok run w' ∧
      Ends behaviour company startedAt w state run w' ∧ run.Says .skipped none (some message) := by
  obtain ⟨⟨ledger, faults⟩, tick, running, journal⟩ := w
  cases hfaults
  exact ⟨_, _, rfl, ⟨rfl, rfl, rfl, rfl, find_put_eq_update _ hcompany, rfl, rfl, Nat.le_succ _, rfl⟩,
    rfl, rfl, rfl⟩

/-- What `applyFailure` stores, read off. -/
theorem failureStored_applyFailure (company : CompanyId) (before : SourceState)
    (errorType : ScrapeErrorType) (message : String) (current : Instant) :
    FailureStored before (applyFailure company before errorType message current) errorType message
      current := by
  unfold applyFailure
  dsimp only
  by_cases hparking : isParkingError errorType = true
  · rw [if_pos hparking]
    refine ⟨⟨rfl, rfl, rfl⟩, rfl, fun _ => ⟨rfl, rfl, rfl, rfl⟩, ?_, rfl⟩
    intro hnone
    rw [hnone] at hparking
    cases hparking
  · rw [if_neg hparking]
    refine ⟨⟨rfl, rfl, rfl⟩, rfl, fun h => absurd h hparking, fun _ => ⟨rfl, rfl, rfl, ?_⟩, rfl⟩
    rcases before.consecutiveFailures with _ | _ | failures
    · rfl
    · rfl
    · rfl

/-- What `applySuccess` stores, read off. -/
theorem successStored_succeededState (before : SourceState) (result : SourceFetchResult)
    (completedAt : Instant) :
    SuccessStored before (succeededState before result completedAt) result completedAt := by
  refine ⟨rfl, ⟨rfl, rfl, rfl, rfl⟩, ?_, rfl⟩
  rw [List.foldl_map]
  rfl

/-- A failure is recorded with its state. -/
theorem finishFailure_ends (clock : Nat → Instant) (behaviour : Behaviour) (w : SchedulerWorld)
    (startedAt : Instant) (state : SourceState) (errorType : ScrapeErrorType) (message : String)
    (hfaults : w.session.faults = [])
    (hcompany : state.company = company) :
    ∃ run w', finishFailure clock company behaviour startedAt state errorType message w =
        .ok run w' ∧
      Ends behaviour company startedAt w
        (applyFailure company state errorType message (clock w.tick)) run w' ∧
      run.Says (statusForError errorType) (some errorType) (some message) := by
  obtain ⟨⟨ledger, faults⟩, tick, running, journal⟩ := w
  cases hfaults
  have hfinal := (applyFailure_company company state errorType message
    (clock tick)).trans hcompany
  exact ⟨_, _, rfl, ⟨rfl, rfl, rfl, rfl, find_put_eq_update _ hfinal, rfl, rfl, by simp [Nat.add_assoc], rfl⟩,
    rfl, rfl, rfl⟩

/-- Storing the time of the visit commutes with recording the failure. -/
theorem applyFailure_lastRunAt (state : SourceState) (errorType : ScrapeErrorType)
    (message : String) (current : Instant) (startedAt : Option Instant) :
    { applyFailure company state errorType message current with lastRunAt := startedAt } =
      applyFailure company { state with lastRunAt := startedAt } errorType message current := by
  unfold applyFailure
  dsimp only
  split_ifs <;> rfl

/-- Credentials that cannot be resolved are a failure. -/
theorem credentialsFailed_ends (clock : Nat → Instant) (behaviour : Behaviour) (w : SchedulerWorld)
    (startedAt : Instant) {state : SourceState}
    (hfaults : w.session.faults = []) (hcompany : state.company = company) :
    ∃ run w', credentialsFailed clock company behaviour startedAt state w = .ok run w' ∧
      Ends behaviour company startedAt w (applyFailure company { state with lastRunAt := some startedAt }
        .BRIDGE_ERROR credentialMessage (clock w.tick)) run w' ∧
      run.Says .error (some .BRIDGE_ERROR) (some credentialMessage) := by
  obtain ⟨⟨ledger, faults⟩, tick, running, journal⟩ := w
  cases hfaults
  have hfinal := (applyFailure_company company
    { state with lastRunAt := some startedAt } .BRIDGE_ERROR credentialMessage
    (clock tick)).trans hcompany
  refine ⟨_, _, rfl, ⟨rfl, rfl, rfl, rfl, ?_, rfl, rfl, by simp [Nat.add_assoc], rfl⟩, rfl, rfl, rfl⟩
  rw [← applyFailure_lastRunAt] at hfinal ⊢
  exact find_put_eq_update _ hfinal

/-- What an ingestion counts of its result. -/
theorem counts_applySuccess {result : SourceFetchResult} {today : IsoDate}
    {emittedAt : String → Instant} {s s' : Session} {counts : Counts}
    (h : applySuccess host config companyConfig result today emittedAt s = .ok counts s') :
    counts.accountsSeen = result.accounts.length ∧
      counts.transactionsSeen = result.transactions.length := by
  unfold applySuccess at h
  obtain ⟨-, s₁, -, hrows⟩ := bind_ok.mp h
  obtain ⟨summary, s₂, -, hholdings⟩ := bind_ok.mp hrows
  obtain ⟨-, s₃, -, hpayments⟩ := bind_ok.mp hholdings
  obtain ⟨-, s₄, -, hcounts⟩ := bind_ok.mp hpayments
  rw [(pure_ok.mp hcounts).1]
  exact ⟨rfl, rfl⟩

/-- A success is recorded with its counts. -/
theorem finishSuccess_ends (clock : Nat → Instant) (behaviour : Behaviour) (w : SchedulerWorld)
    (startedAt : Instant) (launch : Launch) (state : SourceState)
    {result : SourceFetchResult} {counts : Counts} {session : Session}
    (hfaults : w.session.faults = []) (hcompany : state.company = company)
    (hingest : ingestion host config companyConfig behaviour result (clock w.tick)
      w.session.ledger = .ok counts session) :
    ∃ run w', finishSuccess host config clock company companyConfig behaviour startedAt launch state
        result w = .ok run w' ∧
      Ends behaviour company startedAt w (succeededState state result (clock (w.tick + 1))) run w' ∧
      run.Says .success none none ∧ run.accountsSeen = result.accounts.length ∧
      run.transactionsSeen = result.transactions.length := by
  obtain ⟨haccounts, htransactions⟩ := counts_applySuccess hingest
  have hframe := @frames_applySuccess host config _ (fun l => (l.sourceStates, l.runs))
    (fun _ _ _ _ _ _ => rfl) companyConfig result (calendarDate host (clock w.tick) config.timezone)
    behaviour.emittedAt ⟨w.session.ledger, behaviour.ingestFaults⟩
  unfold ingestion at hingest
  rw [hingest] at hframe
  obtain ⟨hstates, hruns⟩ := Prod.mk.inj hframe
  have hwritten : onLedgerWith behaviour.ingestFaults (applySuccess host config companyConfig result
      (calendarDate host (clock w.tick) config.timezone) behaviour.emittedAt)
      { w with tick := w.tick + 1 } =
      .ok counts { w with
        tick := w.tick + 1
        session := { w.session with ledger := session.ledger } } := by
    unfold onLedgerWith
    rw [hingest]
  have hstart : now clock w = .ok (clock w.tick) { w with tick := w.tick + 1 } := rfl
  unfold finishSuccess
  rw [bind_of_ok hstart, bind_of_ok hwritten]
  obtain ⟨⟨ledger, faults⟩, tick, running, journal⟩ := w
  cases hfaults
  refine ⟨_, _, rfl, ⟨rfl, rfl, rfl, congrArg (KeyedTable.put · _) hruns, ?_, ?_, rfl,
    by simp [Nat.add_assoc], rfl⟩, ⟨rfl, rfl, rfl⟩, haccounts, htransactions⟩
  · have hnext : (succeededState state result (clock (tick + 1))).company = company := hcompany
    have hput := find_put_eq_update session.ledger.sourceStates hnext
    exact hput.trans
      (congrArg (fun t : KeyedTable SourceState _ => Function.update t.find company _) hstates)
  · unfold visitsOf
    exact (List.filterMap_append).trans (List.append_nil _)

/-- A refused ingestion escapes the visit. -/
theorem finishSuccess_escapes (company : CompanyId) (w : SchedulerWorld) (startedAt : Instant)
    (launch : Launch) (state : SourceState)
    {result : SourceFetchResult} {e : BridgeError} {session : Session}
    (hingest : ingestion host config companyConfig behaviour result (clock w.tick)
      w.session.ledger = .error e session) :
    ∃ w', finishSuccess host config clock company companyConfig behaviour startedAt launch state
      result w = .error e w' := by
  have hthrown : onLedgerWith behaviour.ingestFaults (applySuccess host config companyConfig result
      (calendarDate host (clock w.tick) config.timezone) behaviour.emittedAt)
      { w with tick := w.tick + 1 } =
      .error e { w with
        tick := w.tick + 1
        session := { w.session with ledger := session.ledger } } := by
    unfold ingestion at hingest
    unfold onLedgerWith
    rw [hingest]
  have hstart : now clock w = .ok (clock w.tick) { w with tick := w.tick + 1 } := rfl
  unfold finishSuccess
  rw [bind_of_ok hstart, bind_of_error hthrown]
  exact ⟨_, rfl⟩

/-! ## One visit settles or escapes -/

/-- The bounds of the call are accepted by `computeWindowStart`. -/
def BoundsAccepted (options : RunNowOptions) : Prop :=
  ¬((given options.fromDate).isSome = true ∧ (given options.backfillFrom).isSome = true)

/-- Accepted bounds give a window. -/
theorem computeWindowStart_ok (haccepted : BoundsAccepted options) (state : SourceState)
    (startedAt : Instant) :
    ∃ startDate, computeWindowStart host config companyConfig state options startedAt =
      .ok startDate := by
  unfold BoundsAccepted at haccepted
  rw [← Bool.and_eq_true] at haccepted
  unfold computeWindowStart
  dsimp only
  rw [if_neg haccepted]
  exact ⟨_, rfl⟩

/-- The world after the launch. -/
def atLaunch (clock : Nat → Instant) (launch : Launch) (state : SourceState) (w : SchedulerWorld) :
    SchedulerWorld :=
  { storing (countedState state (clock w.tick)) (atGuard clock launch.company w) with
    journal := (atGuard clock launch.company w).journal ++ [.launched launch] }

/-- The state of a company is its own. -/
theorem stored_company (w : SchedulerWorld) (company : CompanyId) :
    ((w.stored company).getD (defaultSourceState company)).company = company := by
  cases hstored : w.stored company with
  | none => rfl
  | some state => exact KeyedTable.key_of_find hstored

/-- What is settled from the world at the guard or at the launch is settled
from the beginning of the visit. -/
private theorem Ends.settled {v v' : SchedulerWorld} {final : SourceState} {run : RunRecord}
    (h : Ends behaviour company (clock w.tick) v final run v')
    (houtcome : VisitOutcome host config clock options behaviour company (w.stored company) w.tick run
      final)
    (hruns : v.session.ledger.runs = w.session.ledger.runs)
    (hstates : ∀ other, other ≠ company → v.stored other = w.stored other)
    (hvisits : visitsOf v.journal = visitsOf w.journal ++ [company])
    (hrunning : v.running = w.running) (hlater : w.tick ≤ v.tick) :
    Settled host config clock options behaviour company w run v' where
  sameId := h.sameId
  sameCompany := h.sameCompany
  started := h.started
  recorded := by rw [h.recorded, hruns]
  outcome := by
    refine ⟨final, ?_, houtcome⟩
    rw [h.states, Function.update_self]
  others := by
    intro other hother
    rw [h.states, Function.update_of_ne hother]
    exact hstates other hother
  visits := h.visits.trans hvisits
  running := h.running.trans hrunning
  later := hlater.trans h.later
  faults := h.faults

/-- A visit without credentials ends as such a failure. -/
theorem runOne_unresolved (hfaults : w.session.faults = [])
    (hcredentials : behaviour.credentials = none) :
    runOne host config clock options behaviour company companyConfig w =
      credentialsFailed clock company behaviour (clock w.tick)
        ((w.stored company).getD (defaultSourceState company))
        { w with tick := w.tick + 1, journal := w.journal ++ [.visited company] } := by
  obtain ⟨⟨ledger, faults⟩, tick, running, journal⟩ := w
  cases hfaults
  unfold runOne
  rw [hcredentials]
  rfl

/-- The visits of both parts. -/
theorem visitsOf_append (before after : List Event) :
    visitsOf (before ++ after) = visitsOf before ++ visitsOf after :=
  List.filterMap_append

/-- A visit at the guard is one more visit. -/
theorem visitsOf_atGuard :
    visitsOf (atGuard clock company w).journal = visitsOf w.journal ++ [company] := by
  unfold atGuard
  dsimp only
  rw [visitsOf_append, visitsOf_append]
  exact List.append_nil _

/-- The guard lets the visit through: the collaborators decide. -/
private theorem runOne_passes {fingerprint : String} {state : SourceState} {startDate : JsDate}
    (hfaults : w.session.faults = [])
    (hpass : Passes host config clock options behaviour company w.tick (w.stored company) fingerprint
      state)
    (hwindow : computeWindowStart host config companyConfig (countedState state (clock w.tick))
      options (clock w.tick) = .ok startDate) :
    runOne host config clock options behaviour company companyConfig w =
      if behaviour.profileDirectory then
        (match behaviour.outcome with
          | .ok result => finishSuccess host config clock company companyConfig behaviour
              (clock w.tick)
              ⟨company, options, w.stored company, fingerprint, clock (w.tick + 1), startDate⟩
              (countedState state (clock w.tick)) result
          | .failed errorType message => finishFailure clock company behaviour (clock w.tick)
              (countedState state (clock w.tick)) errorType message
          | .threw => finishFailure clock company behaviour (clock w.tick)
              (countedState state (clock w.tick)) .BRIDGE_ERROR bridgeErrorMessage)
          (atLaunch clock
            ⟨company, options, w.stored company, fingerprint, clock (w.tick + 1), startDate⟩ state w)
      else .error .profileDirectory
        (storing (countedState state (clock w.tick)) (atGuard clock company w)) := by
  rw [runOne_guarded hfaults hpass.1, hpass.2]
  exact attemptRun_counted hfaults hwindow

/-- A visit that escapes throws out of `runOne`. -/
theorem runOne_escapes (hfaults : w.session.faults = []) (haccepted : BoundsAccepted options)
    (h : Escapes host config clock options behaviour company companyConfig w) :
    ∃ e w', runOne host config clock options behaviour company companyConfig w = .error e w' := by
  obtain ⟨fingerprint, state, hpass, hreason⟩ := h
  obtain ⟨startDate, hwindow⟩ := @computeWindowStart_ok host config _
    companyConfig haccepted (countedState state (clock w.tick)) (clock w.tick)
  rw [runOne_passes hfaults hpass hwindow]
  by_cases hdirectory : behaviour.profileDirectory = true
  · rw [if_pos hdirectory]
    rcases hreason with hnone | ⟨result, e, session, hresult, hingest⟩
    · rw [hnone] at hdirectory
      cases hdirectory
    · rw [hresult]
      obtain ⟨w', hthrown⟩ := finishSuccess_escapes company
        (atLaunch clock
          ⟨company, options, w.stored company, fingerprint, clock (w.tick + 1), startDate⟩ state w)
        (clock w.tick)
        ⟨company, options, w.stored company, fingerprint, clock (w.tick + 1), startDate⟩
        (countedState state (clock w.tick)) hingest
      exact ⟨e, w', hthrown⟩
  · rw [if_neg hdirectory]
    exact ⟨_, _, rfl⟩

/-- After the launch the visit settles, when the ingestion of a result does not
throw. -/
private theorem launched_settles {fingerprint : String} {state : SourceState}
    (hfaults : w.session.faults = [])
    (hpass : Passes host config clock options behaviour company w.tick (w.stored company) fingerprint
      state)
    (hguarded : state.company = company)
    (hcalm : ¬Escapes host config clock options behaviour company companyConfig w)
    (startDate : JsDate) :
    ∃ run w',
      (match behaviour.outcome with
        | .ok result => finishSuccess host config clock company companyConfig behaviour
            (clock w.tick)
            ⟨company, options, w.stored company, fingerprint, clock (w.tick + 1), startDate⟩
            (countedState state (clock w.tick)) result
        | .failed errorType message => finishFailure clock company behaviour (clock w.tick)
            (countedState state (clock w.tick)) errorType message
        | .threw => finishFailure clock company behaviour (clock w.tick)
            (countedState state (clock w.tick)) .BRIDGE_ERROR bridgeErrorMessage)
        (atLaunch clock
          ⟨company, options, w.stored company, fingerprint, clock (w.tick + 1), startDate⟩ state w) =
        .ok run w' ∧
      Settled host config clock options behaviour company w run w' := by
  generalize hlaunch : Launch.mk company options (w.stored company) fingerprint (clock (w.tick + 1))
    startDate = launch
  have hcompany : launch.company = company := by rw [← hlaunch]
  have hothers : ∀ other, other ≠ company →
      (atLaunch clock launch state w).stored other = w.stored other := by
    intro other hother
    exact KeyedTable.find_put_other _ fun h => hother (h.trans hguarded)
  have hvisits : visitsOf (atLaunch clock launch state w).journal =
      visitsOf w.journal ++ [company] := by
    unfold atLaunch
    dsimp only
    rw [visitsOf_append, visitsOf_atGuard, hcompany]
    exact List.append_nil _
  have hlater : w.tick ≤ (atLaunch clock launch state w).tick := Nat.le_add_right _ 2
  have hfailure : ∀ errorType message, behaviour.outcome.failure = some (errorType, message) →
      ∃ run w',
      finishFailure clock company behaviour (clock w.tick) (countedState state (clock w.tick))
        errorType message (atLaunch clock launch state w) = .ok run w' ∧
      Settled host config clock options behaviour company w run w' := by
    intro errorType message hfailed
    obtain ⟨run, w', hrun, hends, hsays⟩ := finishFailure_ends clock
      behaviour (atLaunch clock launch state w) (clock w.tick) (countedState state (clock w.tick))
      errorType message hfaults hguarded
    exact ⟨run, w', hrun, hends.settled (.failed hpass hfailed hsays
      (failureStored_applyFailure _ _ _ _ _)) rfl hothers hvisits rfl hlater⟩
  cases houtcome : behaviour.outcome with
  | failed errorType message => exact hfailure errorType message (by rw [houtcome]; rfl)
  | threw => exact hfailure _ _ (by rw [houtcome]; rfl)
  | ok result =>
      cases hingest : ingestion host config companyConfig behaviour result (clock (w.tick + 2))
          (countedLedger clock w state) with
      | error e session =>
          exact absurd ⟨fingerprint, state, hpass, .inr ⟨result, e, session, houtcome, hingest⟩⟩ hcalm
      | ok counts session =>
          obtain ⟨run, w', hrun, hends, hsays, hcounts⟩ := finishSuccess_ends clock behaviour
            (atLaunch clock launch state w) (clock w.tick) launch
            (countedState state (clock w.tick)) hfaults hguarded hingest
          exact ⟨run, w', hrun, hends.settled (.succeeded hpass houtcome hsays hcounts
            (successStored_succeededState _ _ _)) rfl hothers hvisits rfl hlater⟩

/-- **Visit lemma.**  A visit that does not escape settles. -/
theorem runOne_settles (hfaults : w.session.faults = []) (haccepted : BoundsAccepted options)
    (hcalm : ¬Escapes host config clock options behaviour company companyConfig w) :
    ∃ run w', runOne host config clock options behaviour company companyConfig w = .ok run w' ∧
      Settled host config clock options behaviour company w run w' := by
  have hcompany := stored_company w company
  cases hcredentials : behaviour.credentials with
  | none =>
      rw [runOne_unresolved hfaults hcredentials]
      obtain ⟨run, w', hrun, hends, hsays⟩ := credentialsFailed_ends clock
        behaviour { w with tick := w.tick + 1, journal := w.journal ++ [.visited company] }
        (clock w.tick) hfaults hcompany
      refine ⟨run, w', hrun, hends.settled (.unresolved hcredentials hsays
        (failureStored_applyFailure _ _ _ _ _)) rfl (fun _ _ => rfl) ?_ rfl (Nat.le_succ _)⟩
      exact visitsOf_append _ _
  | some fingerprint =>
      cases hguard : guard host config ((w.stored company).getD (defaultSourceState company))
          fingerprint options.force (clock (w.tick + 1)) with
      | mk state skip =>
          have hguarded : state.company = company :=
            (guard_company host config hguard).trans hcompany
          cases skip with
          | some message =>
              rw [runOne_guarded hfaults hcredentials, hguard]
              obtain ⟨run, w', hrun, hends, hsays⟩ := skipRun_ends clock behaviour
                (atGuard clock company w) (clock w.tick) message hfaults hguarded
              exact ⟨run, w', hrun, hends.settled (.skipped hcredentials hguard hsays) rfl
                (fun _ _ => rfl) visitsOf_atGuard rfl (Nat.le_add_right _ 2)⟩
          | none =>
              have hpass : Passes host config clock options behaviour company w.tick
                  (w.stored company) fingerprint state := ⟨hcredentials, hguard⟩
              obtain ⟨startDate, hwindow⟩ := @computeWindowStart_ok host config _
                companyConfig haccepted (countedState state (clock w.tick))
                (clock w.tick)
              have hdirectory : behaviour.profileDirectory = true := by
                by_contra hnone
                exact hcalm ⟨fingerprint, state, hpass, .inl (Bool.eq_false_iff.mpr hnone)⟩
              rw [runOne_passes hfaults hpass hwindow, if_pos hdirectory]
              exact launched_settles hfaults hpass hguarded hcalm startDate

end

/-! ## The loop -/

section
variable (host : Host) (config : Config) (clock : Nat → Instant) (options : RunNowOptions)
  (behaviours : CompanyId → Behaviour)

/-- The selected companies among these, in order. -/
def selected (companies : List (CompanyId × CompanyConfig)) : List CompanyId :=
  (companies.filter (isSelected options)).map Prod.fst

/-- The world after one iteration of the loop. -/
def visitStep (w : SchedulerWorld) (entry : CompanyId × CompanyConfig) : SchedulerWorld :=
  if isSelected options entry then
    storeAfter (runOne host config clock options (behaviours entry.1) entry.1 entry.2 w)
  else w

/-- The visit of an entry, if it is selected, does not escape. -/
def VisitCalm (w : SchedulerWorld) (entry : CompanyId × CompanyConfig) (_ : SchedulerWorld) : Prop :=
  isSelected options entry = true →
    ¬Escapes host config clock options (behaviours entry.1) entry.1 entry.2 w

/-- What holds when a run settles every visit. -/
structure Isolated (companies : List (CompanyId × CompanyConfig)) (w : SchedulerWorld)
    (records : List RunRecord) (w' : SchedulerWorld) : Prop where
  /-- One record for each selected company, in order. -/
  sameCompanies : records.map (·.company) = selected options companies
  /-- Each selected company is visited once, in order. -/
  visits : visitsOf w'.journal = visitsOf w.journal ++ selected options companies
  /-- The records are what the run added to the table. -/
  recorded : w'.session.ledger.runs.rows = w.session.ledger.runs.rows ++ records
  /-- Each record comes with one stored outcome: the one that its visit, from
  the state stored before the run, amounts to. -/
  outcomes : ∀ run ∈ records, ∃ tick state, w.tick ≤ tick ∧ run.startedAt = clock tick ∧
    w'.stored run.company = some state ∧
    VisitOutcome host config clock options (behaviours run.company) run.company
      (w.stored run.company) tick run state

/-- `randomUUID()` returns ids that are new. -/
structure FreshIds (companies : List (CompanyId × CompanyConfig)) (w : SchedulerWorld) : Prop where
  distinct : (companies.map fun entry => (behaviours entry.1).runId).Nodup
  unused : ∀ entry ∈ companies, w.session.ledger.runs.find (behaviours entry.1).runId = none

end

section
variable {host : Host} {config : Config} {clock : Nat → Instant} {options : RunNowOptions}
  {behaviours : CompanyId → Behaviour}

/-- A selected company is a configured one. -/
theorem mem_of_mem_selected {companies : List (CompanyId × CompanyConfig)} {company : CompanyId}
    (h : company ∈ selected options companies) : company ∈ companies.map Prod.fst :=
  (List.filter_sublist.map Prod.fst).subset h

/-- A company that is not selected is left alone. -/
private theorem visitCompany_skips (host : Host) (config : Config) (clock : Nat → Instant)
    (behaviours : CompanyId → Behaviour) {entry : CompanyId × CompanyConfig} (acc : List RunRecord)
    (w : SchedulerWorld) (hselected : ¬isSelected options entry = true) :
    visitCompany host config clock options behaviours acc entry w = .ok acc w ∧
      visitStep host config clock options behaviours w entry = w := by
  unfold visitCompany visitStep
  rw [if_neg hselected, if_neg hselected]
  exact ⟨rfl, rfl⟩

/-- **A selected company is visited once**, and its outcome is recorded. -/
private theorem visitCompany_settles {entry : CompanyId × CompanyConfig} {w : SchedulerWorld}
    (acc : List RunRecord) (hfaults : w.session.faults = []) (haccepted : BoundsAccepted options)
    (hselected : isSelected options entry = true)
    (hcalm : ¬Escapes host config clock options (behaviours entry.1) entry.1 entry.2 w) :
    ∃ run w', visitCompany host config clock options behaviours acc entry w =
        .ok (acc ++ [run]) w' ∧
      visitStep host config clock options behaviours w entry = w' ∧
      Settled host config clock options (behaviours entry.1) entry.1 w run w' := by
  obtain ⟨run, w', hrun, hsettled⟩ := runOne_settles hfaults haccepted hcalm
  refine ⟨run, w', ?_, ?_, hsettled⟩
  · unfold visitCompany
    rw [if_pos hselected, bind_of_ok hrun]
    rfl
  · unfold visitStep
    rw [if_pos hselected, hrun]
    rfl

/-- **Loop lemma.**  When no visit escapes, the loop settles every selected
company and touches no other. -/
theorem loop_settles (haccepted : BoundsAccepted options)
    (companies : List (CompanyId × CompanyConfig)) (hnodup : (companies.map Prod.fst).Nodup)
    (w : SchedulerWorld) (acc : List RunRecord) (hfaults : w.session.faults = [])
    (hids : FreshIds behaviours companies w)
    (hcalm : Runs.Along (visitStep host config clock options behaviours)
      (VisitCalm host config clock options behaviours) w companies) :
    ∃ records w', companies.foldlM (visitCompany host config clock options behaviours) acc w =
        .ok (acc ++ records) w' ∧
      Isolated host config clock options behaviours companies w records w' ∧ w'.running = w.running ∧
      ∀ other, other ∉ selected options companies → w'.stored other = w.stored other := by
  induction companies generalizing w acc with
  | nil =>
      refine ⟨[], w, ?_, ⟨rfl, ?_, ?_, ?_⟩, rfl, fun _ _ => rfl⟩
      · rw [List.append_nil]
        rfl
      · exact (List.append_nil _).symm
      · exact (List.append_nil _).symm
      · intro run hrun
        cases hrun
  | cons entry rest ih =>
      obtain ⟨hfirst, hrest⟩ := Runs.along_cons.mp hcalm
      obtain ⟨hfresh, hnodup'⟩ := List.nodup_cons.mp hnodup
      obtain ⟨hnew, hdistinct⟩ := List.nodup_cons.mp hids.distinct
      rw [List.foldlM_cons]
      by_cases hselected : isSelected options entry = true
      · obtain ⟨run, w₁, hvisit, hstep, hsettled⟩ :=
          visitCompany_settles acc hfaults haccepted hselected (hfirst hselected)
        have hids' : FreshIds behaviours rest w₁ := by
          refine ⟨hdistinct, ?_⟩
          intro other hother
          have hne : (behaviours other.1).runId ≠ run.id := by
            rw [hsettled.sameId]
            intro hsame
            exact hnew (List.mem_map.mpr ⟨other, hother, hsame⟩)
          rw [hsettled.recorded, KeyedTable.find_put_other _ hne]
          exact hids.unused other (List.mem_cons_of_mem _ hother)
        rw [hstep] at hrest
        obtain ⟨records, w', hloop, hisolated, hrunning, hothers⟩ :=
          ih hnodup' w₁ (acc ++ [run]) hsettled.faults hids' hrest
        have hunvisited : entry.1 ∉ selected options rest :=
          fun hmem => hfresh (mem_of_mem_selected hmem)
        have hcons : selected options (entry :: rest) = entry.1 :: selected options rest := by
          unfold selected
          rw [List.filter_cons_of_pos hselected, List.map_cons]
        refine ⟨run :: records, w', ?_, ⟨?_, ?_, ?_, ?_⟩, hrunning.trans hsettled.running, ?_⟩
        · rw [bind_of_ok hvisit, hloop, List.append_assoc]
          rfl
        · rw [List.map_cons, hisolated.sameCompanies, hcons, hsettled.sameCompany]
        · rw [hisolated.visits, hsettled.visits, hcons, List.append_assoc]
          rfl
        · have hunused := hids.unused entry List.mem_cons_self
          rw [← hsettled.sameId] at hunused
          rw [hisolated.recorded, hsettled.recorded, KeyedTable.rows_put_of_find_none hunused,
            List.append_assoc]
          rfl
        · intro other hother
          rcases List.mem_cons.mp hother with rfl | hlater
          · obtain ⟨state, hstate, houtcome⟩ := hsettled.outcome
            rw [hsettled.sameCompany, hothers _ hunvisited]
            exact ⟨w.tick, state, le_rfl, hsettled.started, hstate, houtcome⟩
          · obtain ⟨tick, state, htick, hstarted, hstate, houtcome⟩ :=
              hisolated.outcomes other hlater
            have hmem : other.company ∈ selected options rest := by
              rw [← hisolated.sameCompanies]
              exact List.mem_map_of_mem hlater
            have hne : other.company ≠ entry.1 := fun h => hunvisited (h ▸ hmem)
            rw [hsettled.others _ hne] at houtcome
            exact ⟨tick, state, hsettled.later.trans htick, hstarted, hstate, houtcome⟩
        · intro other hother
          rw [hcons, List.mem_cons, not_or] at hother
          rw [hothers other hother.2, hsettled.others other hother.1]
      · obtain ⟨hskip, hstep⟩ := visitCompany_skips host config clock behaviours
          acc w hselected
        have hsame : selected options (entry :: rest) = selected options rest := by
          unfold selected
          rw [List.filter_cons_of_neg hselected]
        rw [hstep] at hrest
        obtain ⟨records, w', hloop, hisolated, hrunning, hothers⟩ := ih hnodup' w acc hfaults
          ⟨hdistinct, fun other hother => hids.unused other (List.mem_cons_of_mem _ hother)⟩ hrest
        refine ⟨records, w', ?_, ⟨?_, ?_, hisolated.recorded, hisolated.outcomes⟩, hrunning, ?_⟩
        · rw [bind_of_ok hskip, hloop]
        · rw [hsame, hisolated.sameCompanies]
        · rw [hsame, hisolated.visits]
        · rw [hsame]
          exact hothers

/-- When a visit escapes, the loop throws. -/
theorem loop_escapes (haccepted : BoundsAccepted options)
    (companies : List (CompanyId × CompanyConfig)) (w : SchedulerWorld) (acc : List RunRecord)
    (hfaults : w.session.faults = [])
    (hescape : ¬Runs.Along (visitStep host config clock options behaviours)
      (VisitCalm host config clock options behaviours) w companies) :
    ∃ e w', companies.foldlM (visitCompany host config clock options behaviours) acc w =
      .error e w' := by
  induction companies generalizing w acc with
  | nil => exact absurd trivial hescape
  | cons entry rest ih =>
      rw [Runs.along_cons] at hescape
      rw [List.foldlM_cons]
      by_cases hselected : isSelected options entry = true
      · by_cases hcalm : Escapes host config clock options (behaviours entry.1) entry.1 entry.2 w
        · obtain ⟨e, w', hthrown⟩ := runOne_escapes hfaults haccepted hcalm
          have hvisit : visitCompany host config clock options behaviours acc entry w =
              .error e w' := by
            unfold visitCompany
            rw [if_pos hselected, bind_of_error hthrown]
          exact ⟨e, w', bind_of_error hvisit⟩
        · obtain ⟨run, w₁, hvisit, hstep, hsettled⟩ :=
            visitCompany_settles acc hfaults haccepted hselected hcalm
          rw [hstep] at hescape
          rw [bind_of_ok hvisit]
          apply ih w₁ _ hsettled.faults
          intro hrest
          exact hescape ⟨fun _ => hcalm, hrest⟩
      · obtain ⟨hskip, hstep⟩ := visitCompany_skips host config clock behaviours
          acc w hselected
        rw [hstep] at hescape
        rw [bind_of_ok hskip]
        apply ih w _ hfaults
        intro hrest
        exact hescape ⟨fun h => absurd h hselected, hrest⟩

end

/-! ## Runs -/

/-- `runNow` accepts the bounds of the call. -/
def CallAccepted (options : RunNowOptions) : Prop :=
  ¬((given options.backfillFrom).isSome ∧
    ((given options.company).isNone ∨ (given options.fromDate).isSome))

/-- **Run isolation.**  For an idle scheduler, and with state and run records
that the database accepts, `runNow` settles every selected company — one
visit, one record and one stored outcome each, in order, with `running` reset
— exactly when no visit escapes. -/
theorem runNow_isolated_iff (host : Host) (config : Config) (clock : Nat → Instant)
    (options : RunNowOptions) (behaviours : CompanyId → Behaviour) (w : SchedulerWorld)
    (hidle : w.running = false) (haccepted : CallAccepted options)
    (hfaults : w.session.faults = []) (hids : FreshIds behaviours config.companies w) :
    (∃ records w', runNow host config clock options behaviours w = .ok records w' ∧
      Isolated host config clock options behaviours config.companies w records w' ∧ w'.running = false) ↔
    Runs.Along (visitStep host config clock options behaviours)
      (VisitCalm host config clock options behaviours) (setRunning true w) config.companies := by
  have hbounds : BoundsAccepted options :=
    fun h => haccepted ⟨h.2, .inr h.1⟩
  have hrun : runNow host config clock options behaviours w =
      whileRunning (visitCompanies host config clock options behaviours config.companies) w := by
    unfold CallAccepted at haccepted
    unfold runNow
    rw [if_neg haccepted, hidle, if_neg Bool.false_ne_true]
  rw [hrun]
  unfold whileRunning
  constructor
  · intro hsettled
    by_contra hescape
    obtain ⟨records, w', hok, -⟩ := hsettled
    obtain ⟨e, w'', hthrown⟩ := loop_escapes hbounds config.companies (setRunning true w) []
      hfaults hescape
    unfold visitCompanies at hok
    rw [hthrown] at hok
    cases hok
  · intro hcalm
    obtain ⟨records, w', hloop, hisolated, -, -⟩ := loop_settles hbounds config.companies
      config.companies_nodup (setRunning true w) [] hfaults ⟨hids.distinct, hids.unused⟩ hcalm
    unfold visitCompanies
    rw [hloop]
    exact ⟨records, setRunning false w', rfl,
      ⟨hisolated.sameCompanies, hisolated.visits, hisolated.recorded, hisolated.outcomes⟩, rfl⟩

/-! ## Two companies -/

/-- A configuration of two companies. -/
def twoCompanies : Config where
  timezone := "Asia/Jerusalem"
  currency := "ILS"
  staleHours := 30
  overlapDays := 2
  maxLoginAttemptsPerDay := 3
  companies := [
    ("visaCal", ⟨true, "Cal", .credit_card, none, none, true, .purchase, false⟩),
    ("isracard", ⟨true, "Isracard", .credit_card, none, none, true, .purchase, false⟩)]
  companies_nodup := by decide
  publicUrl := "https://bridge.example"

/-- A run of all of them. -/
def everyCompany : RunNowOptions := ⟨none, none, none, false⟩

/-- Credentials that do not resolve, and a scraper that throws. -/
def failingBehaviours (company : CompanyId) : Behaviour :=
  if company = "visaCal" then ⟨none, true, .threw, [], fun _ => 0, "run-1"⟩
  else ⟨some "fingerprint", true, .threw, [], fun _ => 0, "run-2"⟩

/-- One company fails, the other is scraped. -/
theorem runNow_isolated_failing :
    ∃ records w', runNow asciiHost twoCompanies (fun _ => 0) everyCompany failingBehaviours
        (.start emptyLedger) = .ok records w' ∧
      Isolated asciiHost twoCompanies (fun _ => 0) everyCompany failingBehaviours
        twoCompanies.companies (.start emptyLedger) records w' ∧ w'.running = false := by
  have haccepted : CallAccepted everyCompany := by
    intro h
    cases h.1
  apply (runNow_isolated_iff asciiHost twoCompanies (fun _ => 0) everyCompany failingBehaviours
    (.start emptyLedger) rfl haccepted rfl ⟨by decide, fun _ _ => rfl⟩).mpr
  have hfirst : (failingBehaviours "visaCal").credentials = none := by decide
  have hsecond : (failingBehaviours "isracard").profileDirectory = true := by decide
  refine ⟨?_, ?_, trivial⟩
  · intro _ hescapes
    obtain ⟨fingerprint, state, hpass, -⟩ := hescapes
    cases hfirst.symm.trans hpass.1
  · intro _ hescapes
    obtain ⟨fingerprint, state, -, hreason⟩ := hescapes
    rcases hreason with hnone | ⟨result, e, session, hresult, -⟩
    · cases hsecond.symm.trans hnone
    · cases hresult

/-- A portal row that two archived rows match, and a scraper that works. -/
def ambiguousBehaviours (company : CompanyId) : Behaviour :=
  if company = "visaCal" then
    ⟨some "fingerprint", true, .ok ⟨[], [portalFridge], [], 0⟩, [], fun _ => 0, "run-1"⟩
  else ⟨some "fingerprint", true, .ok ⟨[], [], [], 0⟩, [], fun _ => 0, "run-2"⟩

/-- An ambiguous archived instalment of the first company ends the run: it gets
no record, and the second company is never visited. -/
theorem ambiguous_installment_ends_run :
    visitsOf (storeAfter (runNow asciiHost twoCompanies (fun _ => 0) everyCompany
      ambiguousBehaviours (.start twiceArchived))).journal = ["visaCal"] ∧
    ¬∃ records w', runNow asciiHost twoCompanies (fun _ => 0) everyCompany ambiguousBehaviours
        (.start twiceArchived) = .ok records w' ∧
      Isolated asciiHost twoCompanies (fun _ => 0) everyCompany ambiguousBehaviours
        twoCompanies.companies (.start twiceArchived) records w' ∧ w'.running = false := by
  have hthrown : (match runNow asciiHost twoCompanies (fun _ => 0) everyCompany
      ambiguousBehaviours (.start twiceArchived) with
      | .ok _ _ => none
      | .error e _ => some e) = some .ambiguousInstallment := by decide +kernel
  refine ⟨by decide +kernel, ?_⟩
  intro hsettled
  obtain ⟨records, w', hok, -⟩ := hsettled
  rw [hok] at hthrown
  cases hthrown

end SimplefinBridge
