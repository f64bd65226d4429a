import SimplefinBridge.InvestmentFeed
import SimplefinBridge.Library.Awaits
import SimplefinBridge.ManualRecovery

/-!
# The investment runtime

One collection at a time, session renewals between them, a schedule with
retries, manual recoveries, and a shutdown that waits for what is running.  The
functions are interleaved at their awaits: a step of the runtime is one call
from outside, or one function that goes on after the promise it awaited.  What
a provider, the login or the clock says comes with the step.

A collector is a program that awaits its provider; all the rest of it that is
still to run is kept with its collection.
-/

namespace SimplefinBridge

inductive CollectionStatus
  | ok | partially | auth_required | error | skipped
  deriving DecidableEq, Repr

/-! ## Collectors -/

/-- `ClalCollectionError`, `ClalProfileBusyError` and any other exception. -/
inductive CollectionError
  | collection (code : InvestmentErrorCode)
  | profileBusy
  | other
  deriving DecidableEq, Repr

/-- What a provider's collector or login does with its context. -/
inductive ContextEffect
  /-- `signal.aborted` -/
  | aborted
  | now
  | getSessionState
  | setSessionState (state : ClalSessionState)
  | applySnapshot (snapshot : InvestmentSnapshot)
  | recordFailure (failure : InvestmentFailure)

/-- What the context answers. -/
abbrev ContextEffect.Answer : ContextEffect → Type
  | aborted => Bool
  | now => Instant
  | getSessionState => Except InvestmentError ClalSessionState
  | setSessionState _ => Except InvestmentError Unit
  | applySnapshot _ => Except InvestmentError InvestmentImportSummary
  | recordFailure _ => Except InvestmentError Unit

/-- A collector may also ask for an automatic SMS. -/
inductive CollectorEffect
  | context (effect : ContextEffect)
  | consumeAutomaticSmsAttempt (attemptedAt : String)

abbrev CollectorEffect.Answer : CollectorEffect → Type
  | context effect => effect.Answer
  | consumeAutomaticSmsAttempt _ => Except InvestmentError Bool

/-- A collector's program, awaiting answers of its provider in `ι`. -/
abbrev Collector (ι : Type) := Async CollectorEffect CollectorEffect.Answer ι CollectionError

namespace CollectorEffect

/-- The write to the store that the effect makes. -/
def op? : CollectorEffect → Option InvestmentOp
  | context (.setSessionState state) => some (.setSessionState state)
  | context (.applySnapshot snapshot) => some (.applySnapshot snapshot)
  | context (.recordFailure failure) => some (.recordFailure failure)
  | consumeAutomaticSmsAttempt attemptedAt => some (.consumeAutomaticSmsAttempt attemptedAt)
  | _ => none

/-- The effect has reserved an automatic SMS. -/
def reservesSms : (effect : CollectorEffect) → effect.Answer → Bool
  | consumeAutomaticSmsAttempt _, .ok allowed => allowed
  | _, _ => false

end CollectorEffect

/-- Run a store operation. -/
def runStore {ε α : Type} (program : EStateM ε (Statements.Session InvestmentDb) α)
    (session : Statements.Session InvestmentDb) : Except ε α × Statements.Session InvestmentDb :=
  match program session with
  | .ok a session => (.ok a, session)
  | .error e session => (.error e, session)

/-! ## State -/

/-- Who called `runNow`: a user of the runtime, the control API, an occurrence of
the schedule, or a manual recovery with its source. -/
inductive Caller
  | runNow
  | refresh
  | scheduled (occurrence : Nat)
  | manual (recovery : Nat)
  deriving DecidableEq, Repr

def Caller.isManual : Caller → Bool
  | manual _ => true
  | _ => false

/-- A settled collection: its status, or the exception its promise rejects
with. -/
abbrev Settlement := Except InvestmentError (Option CollectionStatus)

inductive CollectionPhase (ι : Type)
  /-- It awaits the renewal that was in progress. -/
  | reserved (maintaining : Option Nat)
  /-- `collect` is in progress, with the rest of its program. -/
  | collecting (program : Collector ι CollectionStatus)
  /-- Its promise is settled, and `runNow` still awaits it. -/
  | settled (result : Settlement)
  /-- `runNow` has returned. -/
  | returned (result : Settlement)

/-- A call of `runNow` that was not refused. -/
structure Collection (ι : Type) where
  caller : Caller
  startedGeneration : Nat
  phase : CollectionPhase ι
  /-- Its signal. -/
  aborted : Bool := false
  /-- `collect` has been called. -/
  begun : Bool := false

inductive RenewalPhase
  | renewing
  | settled (result : Option ClalSessionState)
  | returned
  deriving DecidableEq, Repr

/-- A call of `maintainSession` that was not refused. -/
structure Renewal where
  checkedAt : Instant
  phase : RenewalPhase := .renewing
  aborted : Bool := false
  deriving DecidableEq, Repr

/-- A call of `runNow` for an occurrence; no collection where it was refused. -/
structure CollectionAttempt where
  startedAt : Instant
  collection : Option Nat
  deriving DecidableEq, Repr

inductive OccurrencePhase
  /-- The first attempt or its timer is due. -/
  | due
  /-- It awaits `runNow`. -/
  | awaiting (collection : Option Nat)
  | over
  deriving DecidableEq, Repr

/-- A `scheduledCollection`, with the attempts made for it. -/
structure Occurrence where
  generation : Nat
  deadline : Instant
  phase : OccurrencePhase := .due
  attempts : List CollectionAttempt := []
  deriving DecidableEq, Repr

/-- The promise of the call of `close` that closed the runtime. -/
inductive ClosePromise
  /-- It awaits `running` and `maintaining`. -/
  | waiting (running maintaining : Option Nat)
  | resolved
  | rejected
  deriving DecidableEq, Repr

/-- Who wrote to the store: the runtime's own code, or the collector of a
collection whose signal was or was not aborted. -/
inductive Writer
  | runtime
  | collector (collection : Nat) (aborted : Bool)
  deriving DecidableEq, Repr

structure StoreWrite where
  writer : Writer
  op : InvestmentOp
  deriving DecidableEq, Repr

/-- The flags and promises of the runtime, the work it has taken up, and a log of
its writes to the store. -/
structure RuntimeWork (ι : Type) where
  closed : Bool := false
  generation : Nat := 0
  running : Option Nat := none
  collectionController : Option Nat := none
  maintaining : Option Nat := none
  maintenanceController : Option Nat := none
  closing : Option ClosePromise := none
  scheduledCollection : Option Nat := none
  collections : List (Collection ι) := []
  renewals : List Renewal := []
  occurrences : List Occurrence := []
  writes : List StoreWrite := []
  /-- For whom automatic SMS attempts were reserved. -/
  reservations : List Caller := []

structure InvestmentRuntime (ι : Type) where
  work : RuntimeWork ι := {}
  session : Statements.Session InvestmentDb
  /-- The providers held in the process, by this runtime or elsewhere. -/
  providerLeases : Finset String := ∅
  recoveries : List ManualRecovery := []
  manualRecovery : Option Nat := none
  /-- The generation of the cron task. -/
  task : Option Nat := none
  sessionTimer : Bool := false
  lastResult : Option CollectionStatus := none
  lastStartedAt : Option Instant := none
  lastFinishedAt : Option Instant := none

structure RuntimeOptions (ι : Type) where
  host : Host
  provider : InvestmentProvider := .clal
  enabled : Bool := true
  schedule : JsText := "0 7 * * 1"
  timezone : JsText := "Asia/Jerusalem"
  /-- `cronValidate(config.schedule)` -/
  scheduleValid : Bool := true
  /-- `cronstrue.toString(config.schedule)`, where it does not throw. -/
  scheduleDescription : Option JsText := none
  /-- `task.getNextRun()` -/
  nextRun : Instant → Option Instant := fun _ => none
  staleHours : Nat := 192
  sessionKeepAliveMinutes : Nat := 0
  googleMessagesOtpSocket : Option String := none
  credentialsId : String := ""
  credentialsPhone : String := ""
  readToken : Option String := none
  controlToken : Option String := none
  /-- `createInvestmentStore` has succeeded. -/
  storeOpened : Bool := true
  /-- `collect`, with or without a manual source. -/
  collect : Option (Bool → Collector ι CollectionStatus) := none
  /-- There is a `maintainSession`. -/
  renews : Bool := false

/-! ## Changes of the flags -/

namespace RuntimeWork

variable {ι : Type}

/-- Change a collection. -/
def onCollection (n : Nat) (f : Collection ι → Collection ι) (w : RuntimeWork ι) : RuntimeWork ι :=
  { w with collections := w.collections.modify n f }

def setPhase (n : Nat) (phase : CollectionPhase ι) (w : RuntimeWork ι) : RuntimeWork ι :=
  w.onCollection n fun c => { c with phase }

def onRenewal (m : Nat) (f : Renewal → Renewal) (w : RuntimeWork ι) : RuntimeWork ι :=
  { w with renewals := w.renewals.modify m f }

def onOccurrence (k : Nat) (f : Occurrence → Occurrence) (w : RuntimeWork ι) : RuntimeWork ι :=
  { w with occurrences := w.occurrences.modify k f }

def isAborted (n : Nat) (w : RuntimeWork ι) : Bool := w.collections[n]?.any (·.aborted)

def phase? (n : Nat) (w : RuntimeWork ι) : Option (CollectionPhase ι) :=
  w.collections[n]?.map Collection.phase

/-- `collectionController?.abort()` -/
def abortCollection (w : RuntimeWork ι) : RuntimeWork ι :=
  { w with
    collections := w.collectionController.elim w.collections fun n =>
      w.collections.modify n fun c => { c with aborted := true } }

/-- `maintenanceController?.abort()` -/
def abortRenewal (w : RuntimeWork ι) : RuntimeWork ι :=
  { w with
    renewals := w.maintenanceController.elim w.renewals fun m =>
      w.renewals.modify m fun r => { r with aborted := true } }

/-- A new collection takes `running` and waits for a renewal in progress. -/
def reserve (caller : Caller) (w : RuntimeWork ι) : RuntimeWork ι :=
  { w with
    collections := w.collections ++ [{
      caller
      startedGeneration := w.generation
      phase := .reserved w.maintaining }]
    running := some w.collections.length
    collectionController := some w.collections.length }

/-- `collect` is called. -/
def begins (n : Nat) (program : Collector ι CollectionStatus) (w : RuntimeWork ι) : RuntimeWork ι :=
  w.onCollection n fun c => { c with begun := true, phase := .collecting program }

/-- The collector of `n` goes on after an answered effect. -/
def performed (n : Nat) (effect : CollectorEffect) (answer : effect.Answer)
    (rest : Collector ι CollectionStatus) (w : RuntimeWork ι) : RuntimeWork ι :=
  { w.setPhase n (.collecting rest) with
    writes := w.writes ++ effect.op?.toList.map fun op => ⟨.collector n (w.isAborted n), op⟩
    reservations := w.reservations ++
      if effect.reservesSms answer then (w.collections[n]?.map (·.caller)).toList else [] }

/-- The `finally` of `runNow`. -/
def returns (n : Nat) (result : Settlement) (w : RuntimeWork ι) : RuntimeWork ι :=
  { w.setPhase n (.returned result) with running := none, collectionController := none }

def startRenewal (checkedAt : Instant) (w : RuntimeWork ι) : RuntimeWork ι :=
  { w with
    renewals := w.renewals ++ [{ checkedAt }]
    maintaining := some w.renewals.length
    maintenanceController := some w.renewals.length }

/-- The `finally` of `maintainSession`. -/
def renewalReturns (m : Nat) (w : RuntimeWork ι) : RuntimeWork ι :=
  { w.onRenewal m fun r => { r with phase := .returned } with
    maintaining := none, maintenanceController := none }

/-- A write of the runtime's own code. -/
def wrote (op : InvestmentOp) (w : RuntimeWork ι) : RuntimeWork ι :=
  { w with writes := w.writes ++ [⟨.runtime, op⟩] }

/-- The timer of the current occurrence is cleared. -/
def dropSchedule (w : RuntimeWork ι) : RuntimeWork ι :=
  { w with
    occurrences := w.scheduledCollection.elim w.occurrences fun k =>
      w.occurrences.modify k fun o => { o with phase := if o.phase = .due then .over else o.phase }
    scheduledCollection := none }

/-- `stop`, but for the tasks and the recovery. -/
def stopped (w : RuntimeWork ι) : RuntimeWork ι :=
  { w.dropSchedule with generation := w.generation + 1 }.abortRenewal.abortCollection

/-- What `await runNow()` of an occurrence gives; `none` while it is awaited. -/
def awaited (w : RuntimeWork ι) : Option Nat → Option Settlement
  | none => some (.ok none)
  | some n =>
      match w.phase? n with
      | some (.returned result) => some result
      | _ => none

/-- What `await running` gives. -/
def runningResult (w : RuntimeWork ι) : Option Nat → Option Settlement
  | none => some (.ok none)
  | some n =>
      match w.phase? n with
      | some (.settled result) | some (.returned result) => some result
      | _ => none

def isRenewing (w : RuntimeWork ι) (m : Nat) : Bool :=
  w.renewals[m]?.any fun r => r.phase = .renewing

/-- The promise of a renewal is settled. -/
def renewalDone (w : RuntimeWork ι) (m : Option Nat) : Bool := m.all fun m => !w.isRenewing m

/-- The occurrence makes an attempt. -/
def attempts (k : Nat) (now : Instant) (collection : Option Nat) (w : RuntimeWork ι) :
    RuntimeWork ι :=
  w.onOccurrence k fun o =>
    { o with phase := .awaiting collection, attempts := o.attempts ++ [⟨now, collection⟩] }

/-- The occurrence makes no further attempt. -/
def occurrenceOver (k : Nat) (w : RuntimeWork ι) : RuntimeWork ι :=
  w.onOccurrence k fun o => { o with phase := .over }

/-- `scheduledCollection = undefined` -/
def finishOccurrence (k : Nat) (w : RuntimeWork ι) : RuntimeWork ι :=
  { w.occurrenceOver k with scheduledCollection := none }

end RuntimeWork

/-! ## The functions of the runtime -/

/-- What the context of a collector answers, with its signal and the clock. -/
def ContextEffect.answer (host : Host) (provider : InvestmentProvider) (aborted : Bool)
    (now : Instant) : (effect : ContextEffect) → Statements.Session InvestmentDb →
      effect.Answer × Statements.Session InvestmentDb
  | .aborted, session => (aborted, session)
  | .now, session => (now, session)
  | .getSessionState, session => runStore SimplefinBridge.getSessionState session
  | .setSessionState state, session => runStore (SimplefinBridge.setSessionState state) session
  | .applySnapshot snapshot, session => runStore (SimplefinBridge.applySnapshot host provider snapshot) session
  | .recordFailure failure, session => runStore (SimplefinBridge.recordFailure provider failure) session

def CollectorEffect.answer (host : Host) (provider : InvestmentProvider) (aborted : Bool)
    (now : Instant) : (effect : CollectorEffect) → Statements.Session InvestmentDb →
      effect.Answer × Statements.Session InvestmentDb
  | .context effect, session => effect.answer host provider aborted now session
  | .consumeAutomaticSmsAttempt attemptedAt, session =>
      runStore (SimplefinBridge.consumeAutomaticSmsAttempt attemptedAt) session

/-- A status as the store keeps it; only a finished one has such a form. -/
def ManualRecoveryStatus.stored (status : ManualRecoveryStatus) : Option RecoveryStatus :=
  let state : Option RecoveryState :=
    match status.state with
    | .complete => some .complete
    | .failed => some .failed
    | .canceled => some .canceled
    | .expired => some .expired
    | _ => none
  state.map fun state => ⟨status.challengeId, state, status.errorCode⟩

namespace InvestmentRuntime

variable {ι : Type} (options : RuntimeOptions ι)

/-- `manualVerificationAvailable` -/
def manualVerificationAvailable : Bool :=
  options.enabled && options.storeOpened && options.collect.isSome && options.credentialsId ≠ "" &&
    options.credentialsPhone ≠ "" && options.controlToken.any fun token =>
      32 ≤ jsLength token && !token.toList.any isJsSpace && options.readToken ≠ some token

/-- Change the flags. -/
def update (f : RuntimeWork ι → RuntimeWork ι) (w : InvestmentRuntime ι) : InvestmentRuntime ι :=
  { w with work := f w.work }

/-- A read of the store by the runtime's own code. -/
def read {ε α : Type} (program : EStateM ε (Statements.Session InvestmentDb) α)
    (w : InvestmentRuntime ι) : Except ε α × InvestmentRuntime ι :=
  let (result, session) := runStore program w.session
  (result, { w with session })

/-- A write to the store by the runtime's own code. -/
def write {α : Type} (op : InvestmentOp) (program : InvestmentM α) (w : InvestmentRuntime ι) :
    Except InvestmentError α × InvestmentRuntime ι :=
  (w.update (·.wrote op)).read program

/-! ### Recoveries -/

/-- `persist(status)`; an exception is caught. -/
def persist (status : ManualRecoveryStatus) (w : InvestmentRuntime ι) : InvestmentRuntime ι :=
  status.stored.elim w fun recovery =>
    (w.write (.finishManualRecoveryRequest recovery)
      (finishManualRecoveryRequest options.host recovery)).2

def setRecovery (index : Nat) (s : RecoveryScope) (w : InvestmentRuntime ι) : InvestmentRuntime ι :=
  { w with providerLeases := s.1, recoveries := w.recoveries.set index s.2 }

/-- Something happens to a recovery of this runtime; it may call `persist` and
`abort`. -/
def onRecovery (index : Nat) (event : RecoveryEvent) (w : InvestmentRuntime ι) :
    InvestmentRuntime ι :=
  match w.recoveries[index]? with
  | none => w
  | some r =>
      let s := recoveryStep event (w.providerLeases, r)
      let w := w.setRecovery index s
      let w := if r.persisted.length < s.2.persisted.length then persist options s.2.status w else w
      if r.aborts < s.2.aborts then w.update (·.abortCollection) else w

/-! ### Collections -/

/-- The collection's own failure is recorded unless its signal is aborted. -/
def collectionFailed (n : Nat) (now : Instant) (w : InvestmentRuntime ι) : InvestmentRuntime ι :=
  if w.work.isAborted n then w.update (·.setPhase n (.settled (.ok (some .error))))
  else
    let failure : InvestmentFailure := ⟨.error, toIsoString now, .COLLECTION_FAILED⟩
    match w.write (.recordFailure failure) (recordFailure options.provider failure) with
    | (.ok _, w) => w.update (·.setPhase n (.settled (.ok (some .error))))
    | (.error e, w) => w.update (·.setPhase n (.settled (.error e)))

/-- The collector runs to its next await. -/
def runCollector (n : Nat) (now : Instant) :
    Collector ι CollectionStatus → InvestmentRuntime ι → InvestmentRuntime ι
  | .ret status, w => w.update (·.setPhase n (.settled (.ok (some status))))
  | .fail _, w => collectionFailed options n now w
  | .perform effect next, w =>
      let (answer, session) := effect.answer options.host options.provider (w.work.isAborted n) now
        w.session
      runCollector n now (next answer)
        { w with session, work := w.work.performed n effect answer (next answer) }
  | .await _, w => w

/-- A reserved collection goes on. -/
def beginCollection (n : Nat) (now : Instant) (w : InvestmentRuntime ι) : InvestmentRuntime ι :=
  match w.work.collections[n]?, options.collect with
  | some c, some collect =>
      if w.work.closed || c.aborted || w.work.generation ≠ c.startedGeneration then
        w.update (·.setPhase n (.settled (.ok none)))
      else
        runCollector options n now (collect c.caller.isManual)
          (w.update (·.begins n (collect c.caller.isManual)))
  | _, _ => w

/-- The guard of `runNow`. -/
def refusesRun (caller : Caller) (w : InvestmentRuntime ι) : Bool :=
  w.work.closed || w.work.running.isSome || options.collect.isNone || !options.storeOpened ||
    (!caller.isManual && options.provider.text ∈ w.providerLeases)

/-- The rest of `runNow` up to its first await, the collection being reserved:
it reserves before waiting, so that another maintenance tick cannot overtake
it. -/
def startReserved (n : Nat) (now : Instant) (w : InvestmentRuntime ι) : InvestmentRuntime ι :=
  let w := { w with lastStartedAt := some now }
  if w.work.maintaining.isSome then w else beginCollection options n now w

def runNow (caller : Caller) (now : Instant) (w : InvestmentRuntime ι) : InvestmentRuntime ι :=
  if refusesRun options caller w then w
  else startReserved options w.work.collections.length now (w.update (·.reserve caller))

/-- `recovery?.finish(…)` with a collection's result. -/
def finishedBy (result : Option CollectionStatus) : RecoveryEvent :=
  .finish (decide (result = some CollectionStatus.ok ∨ result = some CollectionStatus.partially))
    (some (if result = some CollectionStatus.auth_required then .OTP_REQUIRED
      else .COLLECTION_FAILED))

/-- `runNow` goes on after `running`; its handler for a rejection with a manual
source finishes the recovery later. -/
def collectionReturns (n : Nat) (now : Instant) (w : InvestmentRuntime ι) : InvestmentRuntime ι :=
  match w.work.collections[n]? with
  | none => w
  | some c =>
      match c.phase with
      | .settled (.ok result) =>
          let w := { w with lastResult := result }
          let w :=
            match c.caller with
            | .manual index =>
                onRecovery options index (finishedBy result) w
            | _ => w
          { w with work := w.work.returns n (.ok result), lastFinishedAt := some now }
      | .settled (.error e) =>
          { w with work := w.work.returns n (.error e), lastFinishedAt := some now }
      | _ => w

/-! ### Session maintenance -/

def settleRenewal (m : Nat) (result : Option ClalSessionState) (w : InvestmentRuntime ι) :
    InvestmentRuntime ι :=
  w.update (·.onRenewal m fun r => { r with phase := .settled result })

/-- The end of a renewal that writes `state` to the store: the state then read,
or `onError` where the store throws. -/
def storeSession (m : Nat) (state : ClalSessionState)
    (onError : InvestmentRuntime ι → InvestmentRuntime ι) (w : InvestmentRuntime ι) :
    InvestmentRuntime ι :=
  match w.write (.setSessionState state) (setSessionState state) with
  | (.error _, w) => onError w
  | (.ok _, w) =>
      match w.read getSessionState with
      | (.error _, w) => onError w
      | (.ok session, w) => settleRenewal m (some session) w

/-- The handler of an exception in a renewal that is neither aborted nor busy. -/
def renewalFailed (m : Nat) (checkedAt : Instant) (errorCode : InvestmentErrorCode)
    (w : InvestmentRuntime ι) : InvestmentRuntime ι :=
  match w.read getSessionState with
  | (.error _, w) => settleRenewal m none w
  | (.ok previous, w) =>
      storeSession m { previous with
        status := if errorCode = .OTP_REQUIRED then .auth_required else .error
        lastCheckedAt := some (toIsoString checkedAt)
        errorCode := some errorCode
        expiresAt := if errorCode = .OTP_REQUIRED then none else previous.expiresAt }
        (settleRenewal m none) w

/-- `maintainSession(scheduled)`, up to its await of the renewal. -/
def maintainSession (scheduled : Bool) (now : Instant) (w : InvestmentRuntime ι) :
    InvestmentRuntime ι :=
  if w.work.closed || w.work.running.isSome || w.work.maintaining.isSome || !options.renews ||
      !options.storeOpened then w
  else
    let m := w.work.renewals.length
    match (w.update (·.startRenewal now)).read getSessionState with
    | (.error _, w) => renewalFailed m now .COLLECTION_FAILED w
    | (.ok previous, w) =>
        if scheduled && previous.status = .auth_required then settleRenewal m (some previous) w else w

/-- How `options.maintainSession` ends. -/
inductive RenewalOutcome
  | remaining (seconds : ℚ)
  | failed (error : CollectionError)
  deriving DecidableEq, Repr

/-- `Number.isSafeInteger` -/
def isSafeInteger (x : ℚ) : Bool := x.den = 1 && |x| ≤ 9007199254740991

/-- `new Date(instant).toISOString()` of any number of milliseconds. -/
def isoString? (instant : Instant) : Option String :=
  if |instant| ≤ 8640000000000000 then some (toIsoString instant) else none

/-- A renewal goes on after `options.maintainSession`. -/
def renewalSettles (m : Nat) (outcome : RenewalOutcome) (w : InvestmentRuntime ι) :
    InvestmentRuntime ι :=
  match w.work.renewals[m]? with
  | none => w
  | some r =>
      if r.phase ≠ .renewing then w
      else if r.aborted || w.work.closed then settleRenewal m none w
      else
        match outcome with
        | .failed .profileBusy => settleRenewal m none w
        | .failed (.collection errorCode) => renewalFailed m r.checkedAt errorCode w
        | .failed .other => renewalFailed m r.checkedAt .COLLECTION_FAILED w
        | .remaining seconds =>
            if !isSafeInteger seconds || seconds ≤ 0 then
              renewalFailed m r.checkedAt .INVALID_RESPONSE w
            else
              match isoString? (r.checkedAt + seconds.num * 1000) with
              | none => renewalFailed m r.checkedAt .COLLECTION_FAILED w
              | some expiresAt =>
                  storeSession m {
                    status := .active
                    lastCheckedAt := some (toIsoString r.checkedAt)
                    lastRenewedAt := some (toIsoString r.checkedAt)
                    expiresAt := some expiresAt
                    errorCode := none } (renewalFailed m r.checkedAt .COLLECTION_FAILED) w

/-- `maintainSession` goes on after `maintaining`. -/
def renewalReturns (m : Nat) (w : InvestmentRuntime ι) : InvestmentRuntime ι :=
  match w.work.renewals[m]? with
  | none => w
  | some r =>
      match r.phase with
      | .settled _ => w.update (·.renewalReturns m)
      | _ => w

/-! ### The schedule -/

def retryDelay : Int := 30000

def retryWindow : Int := 600000

/-- The occurrence is still the scheduled collection. -/
def isCurrent (k : Nat) (o : Occurrence) (w : InvestmentRuntime ι) : Bool :=
  !w.work.closed && w.work.scheduledCollection = some k && w.work.generation = o.generation

/-- `attemptScheduledCollection`, up to its await of `runNow`. -/
def attemptScheduledCollection (k : Nat) (now : Instant) (w : InvestmentRuntime ι) :
    InvestmentRuntime ι :=
  match w.work.occurrences[k]? with
  | none => w
  | some o =>
      if !isCurrent k o w then w.update (·.occurrenceOver k)
      else if o.deadline < now then w.update (·.finishOccurrence k)
      else if refusesRun options (.scheduled k) w then w.update (·.attempts k now none)
      else
        let n := w.work.collections.length
        startReserved options n now
          (w.update fun work => (work.reserve (.scheduled k)).attempts k now (some n))

/-- `attemptScheduledCollection` goes on after `runNow`. -/
def attemptReturns (k : Nat) (now : Instant) (w : InvestmentRuntime ι) : InvestmentRuntime ι :=
  match w.work.occurrences[k]? with
  | none => w
  | some o =>
      match o.phase with
      | .awaiting collection =>
          match w.work.awaited collection with
          | none => w
          | some (.error _) =>
              if w.work.scheduledCollection = some k then w.update (·.finishOccurrence k)
              else w.update (·.occurrenceOver k)
          | some (.ok status) =>
              if !isCurrent k o w then w.update (·.occurrenceOver k)
              else if status ≠ some .skipped ∧ status ≠ none then w.update (·.finishOccurrence k)
              else if o.deadline < now + retryDelay then w.update (·.finishOccurrence k)
              else w.update (·.onOccurrence k fun o => { o with phase := .due })
      | _ => w

def runScheduledCollection (now : Instant) (w : InvestmentRuntime ι) : InvestmentRuntime ι :=
  if w.work.closed || w.work.scheduledCollection.isSome || options.collect.isNone ||
      !options.storeOpened then w
  else
    let k := w.work.occurrences.length
    attemptScheduledCollection options k now
      (w.update fun work => { work with
        occurrences := work.occurrences ++ [⟨work.generation, now + retryWindow, .due, []⟩]
        scheduledCollection := some k })

/-! ### Start, stop and close -/

def stop (w : InvestmentRuntime ι) : InvestmentRuntime ι :=
  let w := { w with work := w.work.stopped, task := none, sessionTimer := false }
  w.manualRecovery.elim w fun index => onRecovery options index .cancel w

def start (now : Instant) (w : InvestmentRuntime ι) : InvestmentRuntime ι :=
  if w.work.closed || !options.enabled || !options.storeOpened then w
  else
    let w := stop options w
    let w :=
      if options.collect.isSome && options.scheduleValid then
        { w with task := some w.work.generation }
      else w
    if 0 < options.sessionKeepAliveMinutes && options.renews then
      { maintainSession options true now w with sessionTimer := true }
    else w

/-- `close`, up to its await; a second call returns at once. -/
def close (w : InvestmentRuntime ι) : InvestmentRuntime ι :=
  if w.work.closed then w
  else
    (stop options (w.update fun work => { work with closed := true })).update fun work =>
      { work with closing := some (.waiting work.running work.maintaining) }

/-- `close` goes on: `Promise.all` rejects with the first rejection, and the
store is closed once both promises are settled. -/
def closeReturns (w : InvestmentRuntime ι) : InvestmentRuntime ι :=
  match w.work.closing with
  | some (.waiting running maintaining) =>
      match w.work.runningResult running with
      | some (.error _) => w.update fun work => { work with closing := some .rejected }
      | some (.ok _) =>
          if w.work.renewalDone maintaining then
            w.update fun work => { work with closing := some .resolved }
          else w
      | none => w
  | _ => w

/-! ### Control -/

/-- `InvestmentRefreshResult`; an exception becomes `unavailable` in the router. -/
inductive RefreshAnswer
  | started
  | alreadyRunning
  | rateLimited (retryAfterSeconds : Int)
  | identityMismatch
  | unavailable
  deriving DecidableEq, Repr

def controlRefresh (requestedProvider : String) (now : Instant) (w : InvestmentRuntime ι) :
    InvestmentRuntime ι × RefreshAnswer :=
  if w.work.closed || !options.enabled || !options.storeOpened || options.collect.isNone then
    (w, .unavailable)
  else
    match w.read (getFeed options.host options.provider now options.staleHours) with
    | (.error _, w) => (w, .unavailable)
    | (.ok feed, w) =>
        if requestedProvider ≠ feed.source.provider.text then (w, .identityMismatch)
        else if w.work.running.isSome then (w, .alreadyRunning)
        else
          match w.write (.consumeControlRefreshAttempt (toIsoString now))
              (consumeControlRefreshAttempt (toIsoString now)) with
          | (.error _, w) => (w, .unavailable)
          | (.ok allowance, w) =>
              if !allowance.allowed then (w, .rateLimited allowance.retryAfterSeconds)
              else (runNow options .refresh now w, .started)

/-- `store.close()` has been called. -/
def storeClosed (w : InvestmentRuntime ι) : Bool := w.work.closing = some .resolved

/-- `RecoveryControlResult` -/
inductive RecoveryAnswer
  | recovery (status : ManualRecoveryStatus)
  /-- A recovery read back from the store. -/
  | stored (status : RecoveryStatus)
  | refused (error : ManualRecoveryError)
  | rateLimited (retryAfterSeconds : Int)
  | identityMismatch
  | unavailable
  deriving DecidableEq, Repr

/-- `recoveryAvailability`, and the provider that is asked for. -/
def recoveryAvailability (requestedProvider : String) (w : InvestmentRuntime ι) :
    Option RecoveryAnswer :=
  if w.work.closed || !manualVerificationAvailable options || !options.storeOpened then
    some .unavailable
  else if requestedProvider = options.provider.text then none
  else some .identityMismatch

/-- The recovery that `manualRecovery` refers to. -/
def currentRecovery (w : InvestmentRuntime ι) : Option ManualRecovery :=
  w.manualRecovery.bind fun index => w.recoveries[index]?

/-- The request is reserved: a recovery is created and its collection starts. -/
def startReservedRecovery (requestId : String) (now : Instant) (w : InvestmentRuntime ι) :
    InvestmentRuntime ι × RecoveryAnswer :=
  match createManualRecovery options.provider.text requestId now w.providerLeases with
  | none => (w, .refused .recovery_in_progress)
  | some (providerLeases, r) =>
      let index := w.recoveries.length
      let w := { w with
        providerLeases
        recoveries := w.recoveries ++ [r]
        manualRecovery := some index }
      (runNow options (.manual index) now w, .recovery r.status)

def controlStartRecovery (requestedProvider requestId : String) (now : Instant)
    (w : InvestmentRuntime ι) : InvestmentRuntime ι × RecoveryAnswer :=
  match recoveryAvailability options requestedProvider w with
  | some answer => (w, answer)
  | none =>
      match w.currentRecovery.filter fun r => r.status.challengeId = requestId with
      | some r => (w, .recovery r.status)
      | none =>
          match w.read (getManualRecoveryRequest options.host requestId) with
          | (.error _, w) => (w, .unavailable)
          | (.ok (some previous), w) => (w, .stored previous)
          | (.ok none, w) =>
              if w.work.running.isSome || options.provider.text ∈ w.providerLeases then
                (w, .refused .recovery_in_progress)
              else
                match w.write (.consumeControlRefreshAttempt (toIsoString now))
                    (consumeControlRefreshAttempt (toIsoString now)) with
                | (.error _, w) => (w, .unavailable)
                | (.ok allowance, w) =>
                    if !allowance.allowed then (w, .rateLimited allowance.retryAfterSeconds)
                    else
                      match w.write (.reserveManualRecoveryRequest requestId (toIsoString now))
                          (reserveManualRecoveryRequest options.host requestId (toIsoString now)) with
                      | (.error _, w) => (w, .unavailable)
                      | (.ok (created, recovery), w) =>
                          if !created then (w, .stored recovery)
                          else startReservedRecovery options requestId now w

/-- `controlRecoveryAction`: a code is submitted, or the recovery canceled. -/
def controlRecoveryAction (requestedProvider requestId : String) (code : Option String)
    (now : Instant) (w : InvestmentRuntime ι) : InvestmentRuntime ι × RecoveryAnswer :=
  match recoveryAvailability options requestedProvider w with
  | some answer => (w, answer)
  | none =>
      match w.manualRecovery, w.currentRecovery.filter fun r => r.status.challengeId = requestId with
      | some index, some r =>
          let answer := match code with
            | none => (cancelRecovery (w.providerLeases, r)).2
            | some code => (submitCode code now (w.providerLeases, r)).2
          (onRecovery options index (code.elim .cancel fun code => .submit code now) w,
            match answer with
            | .ok status => .recovery status
            | .error e => .refused e)
      | _, _ =>
          match w.read (getManualRecoveryRequest options.host requestId) with
          | (.error _, w) => (w, .unavailable)
          | (.ok none, w) => (w, .refused .recovery_not_found)
          | (.ok (some previous), w) =>
              (w, if previous.state = .canceled ∧ code = none then .stored previous
                else .refused (if previous.state = .expired then .recovery_expired
                  else .recovery_not_waiting))

end InvestmentRuntime

/-! ## Steps -/

/-- Calls from outside, and functions that go on after an await. -/
inductive RuntimeAct (ι : Type)
  | runNow
  | maintainSessionNow
  | start
  | stop
  | close
  | controlRefresh (requestedProvider : String)
  | controlStartRecovery (requestedProvider requestId : String)
  | controlRecoveryAction (requestedProvider requestId : String) (code : Option String)
  /-- The cron task fires. -/
  | cron
  /-- The timer of session maintenance ticks. -/
  | sessionTick
  /-- The timer of an occurrence fires. -/
  | retry (occurrence : Nat)
  /-- A collection goes on after `maintaining`. -/
  | begins (collection : Nat)
  /-- A provider answers a collector. -/
  | answer (collection : Nat) (answer : ι)
  | collectionReturns (collection : Nat)
  | renewalSettles (renewal : Nat) (outcome : InvestmentRuntime.RenewalOutcome)
  | renewalReturns (renewal : Nat)
  | attemptReturns (occurrence : Nat)
  | closeReturns
  /-- The login or a timer acts on a recovery of this runtime. -/
  | recovery (index : Nat) (event : RecoveryEvent)
  /-- A provider is held or released elsewhere in the process. -/
  | leaseElsewhere (provider : String) (held : Bool)

/-- An act, when it happens, and which statements the database refuses then. -/
structure RuntimeEvent (ι : Type) where
  act : RuntimeAct ι
  now : Instant := 0
  faults : List Bool := []

open InvestmentRuntime in
def runtimeAct {ι : Type} (options : RuntimeOptions ι) (act : RuntimeAct ι) (now : Instant)
    (w : InvestmentRuntime ι) : InvestmentRuntime ι :=
  match act with
  | .runNow => InvestmentRuntime.runNow options .runNow now w
  | .maintainSessionNow => maintainSession options false now w
  | .start => start options now w
  | .stop => stop options w
  | .close => close options w
  | .controlRefresh requestedProvider => (controlRefresh options requestedProvider now w).1
  | .controlStartRecovery requestedProvider requestId =>
      (controlStartRecovery options requestedProvider requestId now w).1
  | .controlRecoveryAction requestedProvider requestId code =>
      (controlRecoveryAction options requestedProvider requestId code now w).1
  | .cron => if w.task = some w.work.generation then runScheduledCollection options now w else w
  | .sessionTick => if w.sessionTimer then maintainSession options true now w else w
  | .retry k =>
      if w.work.occurrences[k]?.any fun o => o.phase = .due then
        attemptScheduledCollection options k now w
      else w
  | .begins n =>
      match w.work.phase? n with
      | some (.reserved maintaining) =>
          if w.work.renewalDone maintaining then beginCollection options n now w else w
      | _ => w
  | .answer n answer =>
      match w.work.phase? n with
      | some (.collecting (.await next)) =>
          runCollector options n now (next answer)
            (w.update (·.setPhase n (.collecting (next answer))))
      | _ => w
  | .collectionReturns n => collectionReturns options n now w
  | .renewalSettles m outcome => renewalSettles m outcome w
  | .renewalReturns m => renewalReturns m w
  | .attemptReturns k => attemptReturns k now w
  | .closeReturns => closeReturns w
  | .recovery index event => onRecovery options index event w
  | .leaseElsewhere provider held =>
      -- a provider is released by its holder only
      if held then { w with providerLeases := insert provider w.providerLeases }
      else if w.recoveries.any fun r => r.provider = provider && !r.terminal then w
      else { w with providerLeases := w.providerLeases.erase provider }

def runtimeStep {ι : Type} (options : RuntimeOptions ι) (w : InvestmentRuntime ι)
    (event : RuntimeEvent ι) : InvestmentRuntime ι :=
  runtimeAct options event.act event.now { w with session := ⟨w.session.store, event.faults⟩ }

end SimplefinBridge
