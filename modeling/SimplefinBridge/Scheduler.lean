import SimplefinBridge.SyntheticPayments

/-!
# The scheduler

One visit of a company (`runOne`) reads its source state, resolves the
credentials, applies the guards, counts the attempt, scrapes and writes the
outcome; `runNow` visits the selected companies one after another.

What the collaborators do — credential resolution, the profile directory, the
scraper, the database during ingestion — is the `Behaviour` of a visit, an
input.  The clock is a sequence of readings.  The world keeps a journal of
the visits, the guard runs, the launches of `source.run` and the successes,
which no code reads.
-/

namespace SimplefinBridge

/-! ## Collaborators -/

/-- What `source.run` does. -/
inductive SourceRunOutcome
  | ok (result : SourceFetchResult)
  | failed (errorType : ScrapeErrorType) (message : String)
  | threw

structure Behaviour where
  /-- Fingerprint of the resolved credentials; `none` when `resolveAll` throws. -/
  credentials : Option String
  /-- `ensureProfileDir` succeeds. -/
  profileDirectory : Bool
  outcome : SourceRunOutcome
  /-- The statements refused while the result is ingested. -/
  ingestFaults : List Bool
  /-- The wall clock of `computeSyntheticPayments`, per account. -/
  emittedAt : String → Instant
  /-- `randomUUID()` -/
  runId : String

structure RunNowOptions where
  company : Option CompanyId
  /-- Lower bound override for the scrape window. -/
  fromDate : Option IsoDate
  /-- Revisit history without the last-success overlap floor. -/
  backfillFrom : Option IsoDate
  /-- Ignore parking and backoff. -/
  force : Bool
  deriving DecidableEq, Repr

/-- An optional text that is present and not empty. -/
def given (text : Option String) : Option String := text.filter (· ≠ "")

/-! ## The world -/

/-- A call of `source.run`, with what the guard saw. -/
structure Launch where
  company : CompanyId
  options : RunNowOptions
  /-- The state stored when the visit began. -/
  stored : Option SourceState
  fingerprint : String
  guardedAt : Instant
  startDate : JsDate
  deriving DecidableEq

/-- A result that has been ingested and whose success has been stored. -/
structure Success where
  launch : Launch
  completedAt : Instant
  deriving DecidableEq

inductive Event
  | visited (company : CompanyId)
  | guarded (company : CompanyId) (guardedAt : Instant)
  | launched (launch : Launch)
  | succeeded (success : Success)
  | unparked (company : CompanyId)
  deriving DecidableEq

structure SchedulerWorld where
  session : Session
  /-- Clock readings so far. -/
  tick : Nat
  running : Bool
  journal : List Event

/-- A scheduler just created over a ledger. -/
def SchedulerWorld.start (ledger : Ledger) : SchedulerWorld where
  session := { ledger }
  tick := 0
  running := false
  journal := []

abbrev SchedulerM := EStateM BridgeError SchedulerWorld

def now (clock : Nat → Instant) : SchedulerM Instant := fun w =>
  .ok (clock w.tick) { w with tick := w.tick + 1 }

def emit (event : Event) : SchedulerM Unit := fun w =>
  .ok () { w with journal := w.journal ++ [event] }

/-- A ledger operation of the scheduler. -/
def onLedger {α : Type} (operation : LedgerM α) : SchedulerM α := fun w =>
  match operation w.session with
  | .ok a session => .ok a { w with session }
  | .error e session => .error e { w with session }

/-- A ledger operation during which the given statements are refused. -/
def onLedgerWith {α : Type} (faults : List Bool) (operation : LedgerM α) : SchedulerM α := fun w =>
  match operation ⟨w.session.ledger, faults⟩ with
  | .ok a session => .ok a { w with session := { w.session with ledger := session.ledger } }
  | .error e session => .error e { w with session := { w.session with ledger := session.ledger } }

/-- Raise the exception of a computation. -/
def raise {α : Type} (result : Except BridgeError α) : SchedulerM α := fun w =>
  match result with
  | .ok a => .ok a w
  | .error e => .error e w

/-! ## Source states -/

/-- Errors that park the company. -/
def isParkingError : ScrapeErrorType → Bool
  | .INVALID_PASSWORD | .CHANGE_PASSWORD | .ACCOUNT_BLOCKED | .OTP_REQUIRED
  | .TWO_FACTOR_RETRIEVER_MISSING => true
  | _ => false

/-- `BACKOFF_HOURS` -/
def backoffHours : List Int := [1, 3]

/-- `DEFAULT_LOOKBACK_DAYS` -/
def defaultLookbackDays : Int := 365

def msPerDay : Int := 86400000

def defaultSourceState (company : CompanyId) : SourceState where
  company
  lastRunAt := none
  lastSuccessAt := none
  lastErrorAt := none
  lastErrorType := none
  lastErrorMessage := none
  consecutiveFailures := 0
  parked := false
  parkedReason := none
  parkedAt := none
  credentialFingerprint := none
  nextAllowedAt := none
  loginAttemptsDate := none
  loginAttempts := 0
  earliestScrapedDate := none

/-- The state `unparkCompany` writes. -/
def unparkedState (state : SourceState) : SourceState :=
  { state with
    parked := false
    parkedReason := none
    parkedAt := none
    nextAllowedAt := none
    consecutiveFailures := 0
    loginAttempts := 0 }

/-- Clear parking, backoff and the daily attempt counter. -/
def unparkCompany (company : CompanyId) : LedgerM Bool := do
  match ← getSourceState company with
  | none => return false
  | some state =>
      upsertSourceState (unparkedState state)
      return true

def statusForError (errorType : ScrapeErrorType) : RunStatus :=
  if isParkingError errorType then .login_failed
  else if errorType = .TIMEOUT then .timeout
  else .error

/-- Whether the credentials are not the ones the company was parked with. -/
def credentialsChanged (state : SourceState) (fingerprint : String) : Bool :=
  state.parked && (given state.credentialFingerprint).any (· ≠ fingerprint)

/-- The first part of the guard: changed credentials unpark, and the
fingerprint is remembered. -/
def fingerprinted (state : SourceState) (fingerprint : String) : SourceState :=
  if credentialsChanged state fingerprint then
    { state with
      parked := false
      parkedReason := none
      parkedAt := none
      nextAllowedAt := none
      consecutiveFailures := 0
      credentialFingerprint := some fingerprint }
  else { state with credentialFingerprint := some fingerprint }

/-- The daily counter starts over on a new calendar day. -/
def rolledOver (state : SourceState) (today : IsoDate) : SourceState :=
  if state.loginAttemptsDate ≠ some today then
    { state with loginAttemptsDate := some today, loginAttempts := 0 }
  else state

/-- Apply guards; returns the skip message when the company must not run now. -/
def guard (host : Host) (config : Config) (state : SourceState) (fingerprint : String)
    (force : Bool) (current : Instant) : SourceState × Option String :=
  let state := fingerprinted state fingerprint
  if state.parked && !force then
    (state, some ("Parked: " ++ state.parkedReason.getD "unknown reason"))
  else if state.nextAllowedAt.any (current < ·) && !force then
    (state, some ("Backing off until " ++ ((state.nextAllowedAt.map toIsoString).getD "undefined")))
  else
    let state := rolledOver state (calendarDate host current config.timezone)
    if state.loginAttempts ≥ config.maxLoginAttemptsPerDay then
      (state, some ("Login attempt cap reached (" ++ toString state.loginAttempts ++ "/" ++
        toString config.maxLoginAttemptsPerDay ++ " today)"))
    else (state, none)

/-- The state written before the scrape. -/
def countedState (state : SourceState) (startedAt : Instant) : SourceState :=
  { state with loginAttempts := state.loginAttempts + 1, lastRunAt := some startedAt }

/-- Record the failure on the state: park, or schedule a backoff. -/
def applyFailure (company : CompanyId) (state : SourceState) (errorType : ScrapeErrorType)
    (message : String) (current : Instant) : SourceState :=
  let failed := { state with
    lastErrorAt := some current
    lastErrorType := some errorType
    lastErrorMessage := some message
    consecutiveFailures := state.consecutiveFailures + 1 }
  if isParkingError errorType then
    { failed with
      parked := true
      parkedAt := some current
      parkedReason := some (if errorType = .OTP_REQUIRED then
        message ++ ": run \"bridge login " ++ company ++ "\", then \"bridge unpark " ++ company ++
          "\""
        else message)
      nextAllowedAt := none }
  else
    { failed with
      nextAllowedAt := (backoffHours[state.consecutiveFailures]?).map
        fun hours => current + hours * 3600000 }

def minDate (a b : Option IsoDate) : Option IsoDate :=
  match given a with
  | none => b
  | some earliest => if (given b).any (jsLess · earliest) then b else a

/-- What `applySuccess` writes into the state. -/
def succeededState (state : SourceState) (result : SourceFetchResult) (completedAt : Instant) :
    SourceState :=
  { state with
    lastSuccessAt := some completedAt
    consecutiveFailures := 0
    nextAllowedAt := none
    lastErrorType := none
    lastErrorMessage := none
    earliestScrapedDate := result.transactions.foldl
      (fun earliest row => minDate earliest (some row.bookedDate)) state.earliestScrapedDate }

structure Counts where
  accountsSeen : Nat
  transactionsSeen : Nat
  transactionsNew : Nat
  anomalies : Nat
  deriving DecidableEq, Repr

/-- `ZERO_COUNTS` -/
def zeroCounts : Counts := ⟨0, 0, 0, 0⟩

section
variable (host : Host) (config : Config)

/-- Incremental windows retain overlap; explicit backfills retain only the
configured start-date floor. -/
def computeWindowStart (companyConfig : CompanyConfig) (state : SourceState)
    (options : RunNowOptions) (startedAt : Instant) : Except BridgeError JsDate :=
  let fromDate := given options.fromDate
  let backfillFrom := given options.backfillFrom
  if fromDate.isSome && backfillFrom.isSome then .error .dateBounds
  else
    let configStart := (given companyConfig.startDate).map (dateOf host)
    let overlapStart : Option JsDate :=
      if backfillFrom.isSome then none
      else state.lastSuccessAt.map fun last => some (last - config.overlapDays * msPerDay)
    let fromStart := (backfillFrom.or fromDate).map (dateOf host)
    .ok ((maxDate [configStart, overlapStart, fromStart]).getD
      (some (startedAt - defaultLookbackDays * msPerDay)))

/-! ## Ingestion -/

/-- The synthetic payments of one account of the result. -/
def ingestPayments (companyConfig : CompanyConfig) (today : IsoDate)
    (emittedAt : String → Instant) (account : LedgerAccount) : LedgerM Unit := do
  let stored ← query fun ledger => ledger.accounts.find account.id
  let rows ← computeSyntheticPayments host (stored.getD account) companyConfig today
    (emittedAt account.id)
  if rows.length > 0 then
    let _ ← upsertTransactions host rows none

/-- The ledger steps of `applySuccess`, in order. -/
def applySuccess (companyConfig : CompanyConfig) (result : SourceFetchResult) (today : IsoDate)
    (emittedAt : String → Instant) : LedgerM Counts := do
  result.accounts.foldlM (fun _ account => upsertAccount account) ()
  let summary ← upsertTransactions host result.transactions (some config.timezone)
  upsertHoldings result.holdings
  result.accounts.foldlM
    (fun _ account => ingestPayments host companyConfig today emittedAt account) ()
  return { accountsSeen := result.accounts.length
           transactionsSeen := result.transactions.length
           transactionsNew := summary.inserted
           anomalies := summary.anomalies.length }

/-- Ingestion writes accounts, transactions, holdings, synthetic payments and
anomalies only. -/
theorem frames_applySuccess {γ : Type} {view : Ledger → γ}
    (hview : ∀ ledger accounts transactions holdings syntheticPayments anomalies,
      view { ledger with accounts, transactions, holdings, syntheticPayments, anomalies } =
        view ledger)
    (companyConfig : CompanyConfig) (result : SourceFetchResult) (today : IsoDate)
    (emittedAt : String → Instant) :
    Frames view (applySuccess host config companyConfig result today emittedAt) := by
  have hupsert : ∀ rows timezone, Frames view (upsertTransactions host rows timezone) := by
    apply frames_upsertTransactions
    · exact fun ledger transactions => hview ledger _ transactions _ _ _
    · exact fun ledger anomalies => hview ledger _ _ _ _ anomalies
  have haccount : ∀ account, Frames view (upsertAccount account) :=
    frames_upsertAccount fun ledger accounts => hview ledger accounts _ _ _ _
  have hpayments : ∀ account,
      Frames view (ingestPayments host companyConfig today emittedAt account) := by
    intro account
    unfold ingestPayments
    apply Frames.bind (frames_query _)
    intro stored
    apply Frames.bind
    · apply frames_computeSyntheticPayments
      exact fun ledger syntheticPayments => hview ledger _ _ _ syntheticPayments _
    · intro rows
      split_ifs
      · exact (hupsert _ _).bind fun _ => frames_pure _
      · exact frames_pure _
  unfold applySuccess
  apply Frames.bind (frames_foldlM _ (fun _ account _ => haccount account) _)
  intro _
  apply Frames.bind (hupsert _ _)
  intro summary
  apply Frames.bind
  · apply frames_upsertHoldings
    exact fun ledger holdings => hview ledger _ _ holdings _ _
  · intro _
    apply Frames.bind (frames_foldlM _ (fun _ account _ => hpayments account) _)
    exact fun _ => frames_pure _

/-! ## One visit -/

variable (clock : Nat → Instant)

def record (company : CompanyId) (runId : String) (startedAt : Instant) (status : RunStatus)
    (errorType : Option ScrapeErrorType) (message : Option String) (counts : Counts) :
    SchedulerM RunRecord := do
  let finishedAt ← now clock
  let run : RunRecord :=
    { id := runId, company, startedAt, finishedAt, status, errorType, message,
      accountsSeen := counts.accountsSeen, transactionsSeen := counts.transactionsSeen,
      transactionsNew := counts.transactionsNew, anomalies := counts.anomalies }
  onLedger (recordRun run)
  return run

/-- `credentialResolutionFailed`: the message of the `BRIDGE_ERROR` record. -/
def credentialMessage : String := "Credential resolution failed"

/-- `SCRAPE_ERROR_MESSAGES.BRIDGE_ERROR` -/
def bridgeErrorMessage : String := "Bridge internal error"

/-- The credentials do not resolve: a failure without a login attempt. -/
def credentialsFailed (company : CompanyId) (behaviour : Behaviour) (startedAt : Instant)
    (state : SourceState) : SchedulerM RunRecord := do
  let current ← now clock
  let failed := applyFailure company state .BRIDGE_ERROR credentialMessage current
  onLedger (upsertSourceState { failed with lastRunAt := some startedAt })
  record clock company behaviour.runId startedAt .error (some .BRIDGE_ERROR)
    (some credentialMessage) zeroCounts

/-- The guard refuses: nothing is scraped. -/
def skipRun (company : CompanyId) (behaviour : Behaviour) (startedAt : Instant)
    (state : SourceState) (message : String) : SchedulerM RunRecord := do
  onLedger (upsertSourceState state)
  record clock company behaviour.runId startedAt .skipped none (some message) zeroCounts

/-- The scrape succeeded: ingest the result and store the success. -/
def finishSuccess (company : CompanyId) (companyConfig : CompanyConfig) (behaviour : Behaviour)
    (startedAt : Instant) (launch : Launch) (state : SourceState) (result : SourceFetchResult) :
    SchedulerM RunRecord := do
  let ingestedAt ← now clock
  let counts ← onLedgerWith behaviour.ingestFaults (applySuccess host config companyConfig result
    (calendarDate host ingestedAt config.timezone) behaviour.emittedAt)
  let completedAt ← now clock
  onLedger (upsertSourceState (succeededState state result completedAt))
  emit (.succeeded ⟨launch, completedAt⟩)
  record clock company behaviour.runId startedAt .success none none counts

/-- The scrape failed: park, or back off. -/
def finishFailure (company : CompanyId) (behaviour : Behaviour) (startedAt : Instant)
    (state : SourceState) (errorType : ScrapeErrorType) (message : String) :
    SchedulerM RunRecord := do
  let current ← now clock
  onLedger (upsertSourceState (applyFailure company state errorType message current))
  record clock company behaviour.runId startedAt (statusForError errorType) (some errorType)
    (some message) zeroCounts

/-- Count the attempt, scrape, and write the outcome. -/
def attemptRun (company : CompanyId) (companyConfig : CompanyConfig) (options : RunNowOptions)
    (behaviour : Behaviour) (startedAt : Instant) (stored : Option SourceState)
    (fingerprint : String) (guardedAt : Instant) (state : SourceState) :
    SchedulerM RunRecord := do
  let state := countedState state startedAt
  onLedger (upsertSourceState state)
  let startDate ← raise (computeWindowStart host config companyConfig state options startedAt)
  raise (if behaviour.profileDirectory then .ok () else .error .profileDirectory)
  let launch : Launch := ⟨company, options, stored, fingerprint, guardedAt, startDate⟩
  emit (.launched launch)
  match behaviour.outcome with
  | .ok result =>
      finishSuccess host config clock company companyConfig behaviour startedAt launch state result
  | .failed errorType message =>
      finishFailure clock company behaviour startedAt state errorType message
  | .threw => finishFailure clock company behaviour startedAt state .BRIDGE_ERROR bridgeErrorMessage

def runOne (options : RunNowOptions) (behaviour : Behaviour) (company : CompanyId)
    (companyConfig : CompanyConfig) : SchedulerM RunRecord := do
  emit (.visited company)
  let startedAt ← now clock
  let stored ← onLedger (getSourceState company)
  let state := stored.getD (defaultSourceState company)
  match behaviour.credentials with
  | none => credentialsFailed clock company behaviour startedAt state
  | some fingerprint =>
      let guardedAt ← now clock
      emit (.guarded company guardedAt)
      match guard host config state fingerprint options.force guardedAt with
      | (state, some message) => skipRun clock company behaviour startedAt state message
      | (state, none) =>
          attemptRun host config clock company companyConfig options behaviour startedAt stored
            fingerprint guardedAt state

/-! ## Runs -/

/-- The companies a call visits. -/
def isSelected (options : RunNowOptions) (entry : CompanyId × CompanyConfig) : Bool :=
  entry.2.enabled && (given options.company).all (· = entry.1)

/-- One iteration of the loop of `runNow`. -/
def visitCompany (options : RunNowOptions) (behaviours : CompanyId → Behaviour)
    (records : List RunRecord) (entry : CompanyId × CompanyConfig) :
    SchedulerM (List RunRecord) :=
  if isSelected options entry then do
    let run ← runOne host config clock options (behaviours entry.1) entry.1 entry.2
    return records ++ [run]
  else return records

/-- The loop of `runNow`. -/
def visitCompanies (options : RunNowOptions) (behaviours : CompanyId → Behaviour)
    (companies : List (CompanyId × CompanyConfig)) : SchedulerM (List RunRecord) :=
  companies.foldlM (visitCompany host config clock options behaviours) []

def setRunning (running : Bool) (w : SchedulerWorld) : SchedulerWorld := { w with running }

/-- `try … finally { running = false; }` -/
def whileRunning {α : Type} (body : SchedulerM α) : SchedulerM α := fun w =>
  match body (setRunning true w) with
  | .ok a w' => .ok a (setRunning false w')
  | .error e w' => .error e (setRunning false w')

def runNow (options : RunNowOptions) (behaviours : CompanyId → Behaviour) :
    SchedulerM (List RunRecord) := fun w =>
  if (given options.backfillFrom).isSome ∧
      ((given options.company).isNone ∨ (given options.fromDate).isSome) then
    .error .backfillBounds w
  else if w.running then .ok [] w
  else whileRunning (visitCompanies host config clock options behaviours config.companies) w

end

/-! ## Sequences of calls -/

structure RunCall where
  options : RunNowOptions
  behaviours : CompanyId → Behaviour
  /-- The statements on source states and run records that the database
  refuses during the call. -/
  faults : List Bool

inductive Operation
  | run (call : RunCall)
  | unpark (company : CompanyId) (faults : List Bool)

/-- `unparkCompany`, and its entry in the journal when it took effect. -/
def unparkJournaled (company : CompanyId) : SchedulerM Unit := do
  if ← onLedger (unparkCompany company) then emit (.unparked company)

section
variable (host : Host) (config : Config) (clock : Nat → Instant)

/-- The program of an operation. -/
def Operation.program : Operation → SchedulerM Unit
  | .run call => do let _ ← runNow host config clock call.options call.behaviours
  | .unpark company _ => unparkJournaled company

def Operation.faults : Operation → List Bool
  | .run call => call.faults
  | .unpark _ faults => faults

/-- One operation, executed to its end. -/
def perform (w : SchedulerWorld) (operation : Operation) : SchedulerWorld :=
  Transactional.storeAfter (operation.program host config clock
    { w with session := { w.session with faults := operation.faults } })

end

end SimplefinBridge
