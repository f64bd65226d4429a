import Mathlib.Data.List.Sort
import SimplefinBridge.InvestmentSchema
import SimplefinBridge.Library.KeyedTable
import SimplefinBridge.Library.Statements

/-!
# The investment store

A database of its own: investment writes cannot touch bank accounts.  Records
are kept by kind and id, with a revision for every financial content that a
snapshot has replaced; archives only append.  The store also keeps the source
state, the session state, two rate limiters and the recovery requests.

A store belongs to one provider.  Every operation validates its input first
and then works in one transaction.
-/

namespace SimplefinBridge

open Timestamps

instance : Statements.Refusal InvestmentError := ⟨.statementFailed⟩

/-! ## Records and tables -/

inductive RecordKind
  | products | valuations | activities | tracks | executions
  deriving DecidableEq, Repr

inductive InvestmentRecord
  | product (row : InvestmentProduct)
  | valuation (row : InvestmentValuation)
  | activity (row : InvestmentActivity)
  | track (row : InvestmentTrack)
  | execution (row : InvestmentExecution)
  deriving DecidableEq, Repr

namespace InvestmentRecord

def kind : InvestmentRecord → RecordKind
  | product _ => .products
  | valuation _ => .valuations
  | activity _ => .activities
  | track _ => .tracks
  | execution _ => .executions

def id : InvestmentRecord → String
  | product row => row.id
  | valuation row => row.id
  | activity row => row.id
  | track row => row.id
  | execution row => row.id

/-- `PRIMARY KEY (kind, id)` -/
def key (record : InvestmentRecord) : RecordKind × String := (record.kind, record.id)

/-- The product a record belongs to; a product belongs to itself. -/
def productId : InvestmentRecord → String
  | product row => row.id
  | valuation row => row.productId
  | activity row => row.productId
  | track row => row.productId
  | execution row => row.productId

/-- Observation time is freshness metadata; it does not create a financial
revision. -/
def financialContent : InvestmentRecord → InvestmentRecord
  | product row => product row
  | valuation row => valuation { row with observedAt := "" }
  | activity row => activity { row with observedAt := "" }
  | track row => track { row with observedAt := "" }
  | execution row => execution { row with observedAt := "" }

end InvestmentRecord

structure InvestmentRevision where
  key : RecordKind × String
  replacedAt : String
  /-- The record as it was stored. -/
  record : InvestmentRecord
  deriving DecidableEq, Repr

structure StoredEvidence where
  sha256 : String
  json : String
  deriving DecidableEq, Repr

inductive RecoveryState
  | complete | failed | canceled | expired
  deriving DecidableEq, Repr

inductive RecoveryErrorCode
  | OTP_REQUIRED | COLLECTION_FAILED | RECOVERY_CANCELED | OTP_EXPIRED | RECOVERY_INTERRUPTED
  deriving DecidableEq, Repr

/-- A finished recovery, as it is stored. -/
structure RecoveryStatus where
  challengeId : String
  state : RecoveryState
  errorCode : Option RecoveryErrorCode
  deriving DecidableEq, Repr

structure RecoveryRequest where
  id : String
  createdAt : String
  recovery : RecoveryStatus
  deriving DecidableEq, Repr

/-- The database; the entries of `investment_meta` are fields. -/
structure InvestmentDb where
  sourceState : Option InvestmentSourceState
  lastAppliedObservation : Option String
  automaticSmsAttempts : Option (List String)
  controlRefreshAttempts : Option (List String)
  sessionState : Option ClalSessionState
  records : KeyedTable InvestmentRecord InvestmentRecord.key
  /-- In the order of `sequence`. -/
  revisions : List InvestmentRevision
  evidence : KeyedTable StoredEvidence StoredEvidence.sha256
  recoveryRequests : KeyedTable RecoveryRequest RecoveryRequest.id

/-- A database just created. -/
def emptyInvestmentDb : InvestmentDb where
  sourceState := none
  lastAppliedObservation := none
  automaticSmsAttempts := none
  controlRefreshAttempts := none
  sessionState := none
  records := .empty
  revisions := []
  evidence := .empty
  recoveryRequests := .empty

abbrev InvestmentM := EStateM InvestmentError (Statements.Session InvestmentDb)

open Statements (execute select ensure transaction)

/-! ## Identifiers -/

def part (value : String) : Except InvestmentError String :=
  if jsTrim value = "" then .error .emptyIdentifier else .ok (encodeURIComponent (jsTrim value))

def checked (value : String) : Except InvestmentError String :=
  if jsLength value > 255 then .error .identifierTooLong else .ok value

def InvestmentProvider.text : InvestmentProvider → String
  | .clal => "clal"
  | .hachshara_best_invest => "hachshara_best_invest"
  | .hapoalim => "hapoalim"

/-- Provider identity only: renames and kind corrections do not change it. -/
def investmentProductId (providerProductId : String) (provider : InvestmentProvider) :
    Except InvestmentError String := do
  let segment ← part providerProductId
  checked (provider.text ++ ":" ++ segment)

/-- Corrections retain their identity. -/
def investmentValuationId (productId : String) (asOf : Option IsoDate) :
    Except InvestmentError String :=
  checked (productId ++ ":valuation:" ++ asOf.getD "undated")

def investmentActivityId (productId sourceId : String) : Except InvestmentError String := do
  let segment ← part sourceId
  checked (productId ++ ":activity:" ++ segment)

def investmentExecutionId (productId sourceId : String) : Except InvestmentError String := do
  let segment ← part sourceId
  checked (productId ++ ":execution:" ++ segment)

/-! ## Relations of a snapshot -/

namespace InvestmentSnapshot

/-- The records, in the order they are written. -/
def records (snapshot : InvestmentSnapshot) : List InvestmentRecord :=
  snapshot.products.map .product ++ snapshot.valuations.map .valuation ++
    snapshot.activities.map .activity ++ snapshot.tracks.map .track ++
    snapshot.executions.map .execution

/-- The records `seedArchive` writes. -/
def archiveRecords (snapshot : InvestmentSnapshot) : List InvestmentRecord :=
  snapshot.products.map .product ++ snapshot.valuations.map .valuation

def product? (snapshot : InvestmentSnapshot) (id : String) : Option InvestmentProduct :=
  snapshot.products.find? (·.id = id)

end InvestmentSnapshot

/-- Throw unless the condition holds. -/
def require (condition : Prop) [Decidable condition] (error : InvestmentError) :
    Except InvestmentError Unit :=
  if condition then .ok () else .error error

section
variable (provider : InvestmentProvider) (snapshot : InvestmentSnapshot)

def validateProduct (product : InvestmentProduct) : Except InvestmentError Unit := do
  let identity ← investmentProductId product.providerProductId provider
  require (product.provider = provider ∧ product.id = identity) .productIdentity
  require (product.coverage.valuations = .unavailable ∨
    ∃ row ∈ snapshot.valuations, row.productId = product.id) .valuationsWithoutValue
  require (∀ current ∈ product.currentValuationId, current ≠ "" →
    ∃ row ∈ snapshot.valuations, row.productId = product.id ∧ row.id = current) .currentValue

/-- A row names a product of the snapshot and has its currency. -/
def validateCurrency (productId currency : String) : Except InvestmentError Unit :=
  require ((snapshot.product? productId).map (·.currency) = some currency) .unknownProductOrCurrency

def validateValuation (row : InvestmentValuation) : Except InvestmentError Unit :=
  match row.provenance with
  | some archived =>
      require (provider = .hapoalim ∧ row.id = "sure:entry:" ++ archived.sourceEntryId ∧
        row.asOf ≠ none ∧ row.amount = archived.sourceAmount ∧
        row.observedAt = archived.archiveObservedAt ∧
        (snapshot.product? row.productId).bind (·.currentValuationId) ≠ some row.id)
        .archiveValuation
  | none => do
      let identity ← investmentValuationId row.productId row.asOf
      require (row.id = identity) .valuationIdentity

def validateActivity (row : InvestmentActivity) : Except InvestmentError Unit := do
  let identity ← investmentActivityId row.productId row.sourceId
  require (row.id = identity) .activityIdentity

def validateTrack (row : InvestmentTrack) : Except InvestmentError Unit :=
  require ((row.productId ++ ":track:").toList <+: row.id.toList) .trackIdentity

def validateExecution (row : InvestmentExecution) : Except InvestmentError Unit := do
  require (provider = .hapoalim ∧ (snapshot.product? row.productId).isSome) .executionIdentity
  let identity ← investmentExecutionId row.productId row.sourceId
  require (row.id = identity) .executionIdentity

def validateRelations : Except InvestmentError Unit := do
  require ((snapshot.products.map (·.id)).Nodup ∧ (snapshot.valuations.map (·.id)).Nodup ∧
    (snapshot.activities.map (·.id)).Nodup ∧ (snapshot.tracks.map (·.id)).Nodup ∧
    (snapshot.executions.map (·.id)).Nodup) .duplicateIdentities
  snapshot.products.forM (validateProduct provider snapshot)
  snapshot.valuations.forM fun row => validateCurrency snapshot row.productId row.currency
  snapshot.activities.forM fun row => validateCurrency snapshot row.productId row.currency
  snapshot.tracks.forM fun row => validateCurrency snapshot row.productId row.currency
  snapshot.valuations.forM (validateValuation provider snapshot)
  snapshot.activities.forM validateActivity
  snapshot.tracks.forM validateTrack
  snapshot.executions.forM (validateExecution provider snapshot)

end

/-! ## Writing records -/

inductive UpsertOutcome
  | inserted | updated | unchanged
  deriving DecidableEq, Repr

structure InvestmentImportSummary where
  applied : Bool
  inserted : Nat
  updated : Nat
  unchanged : Nat
  deriving DecidableEq, Repr

/-- `summary[outcome]++` -/
def InvestmentImportSummary.count (summary : InvestmentImportSummary) :
    UpsertOutcome → InvestmentImportSummary
  | .inserted => { summary with inserted := summary.inserted + 1 }
  | .updated => { summary with updated := summary.updated + 1 }
  | .unchanged => { summary with unchanged := summary.unchanged + 1 }

/-- `new Map(old.map(report => [report.id, report]))`, then `set` for every new
report. -/
def mergeReports (old new : List InvestmentReportSummary) :
    KeyedTable InvestmentReportSummary InvestmentReportSummary.id :=
  (old ++ new).foldl KeyedTable.put .empty

section
variable (host : Host) (provider : InvestmentProvider)

/-- `reports.sort((a, b) => a.id.localeCompare(b.id))` -/
def sortReports (reports : List InvestmentReportSummary) : List InvestmentReportSummary :=
  reports.mergeSort fun a b => (host.localeCompare a.id b.id).isLE

/-- A Hapoalim product keeps the current value and the valuation coverage it
has, unless the collection brings its own. -/
def keepCurrentValue (old new : InvestmentProduct) : InvestmentProduct :=
  if provider = .hapoalim then
    { new with
      currentValuationId := new.currentValuationId.or old.currentValuationId
      coverage := { new.coverage with
        valuations := if new.coverage.valuations = .unavailable then old.coverage.valuations
          else new.coverage.valuations } }
  else new

/-- Reports accumulate. -/
def accumulateReports (old new : InvestmentProduct) : InvestmentProduct :=
  if old.reportSummaries.isSome ∨ new.reportSummaries.isSome then
    { new with
      reportSummaries := some (sortReports host
        (mergeReports (old.reportSummaries.getD []) (new.reportSummaries.getD [])).rows) }
  else new

/-- The row written over a stored one. -/
def mergedRow (old row : InvestmentRecord) : InvestmentRecord :=
  match old, row with
  | .product old, .product new => .product (accumulateReports host old (keepCurrentValue provider old new))
  | _, row => row

def findRecord (key : RecordKind × String) : InvestmentM (Option InvestmentRecord) :=
  select fun db => .ok (db.records.find key)

def saveRecord (record : InvestmentRecord) : InvestmentM Unit :=
  execute fun db => .ok { db with records := db.records.put record }

def saveRevision (revision : InvestmentRevision) : InvestmentM Unit :=
  execute fun db => .ok { db with revisions := db.revisions ++ [revision] }

def upsertRecord (row : InvestmentRecord) (observedAt : String) : InvestmentM UpsertOutcome := do
  match ← findRecord row.key with
  | none =>
      saveRecord row
      return .inserted
  | some old =>
      let merged := mergedRow host provider old row
      if old.financialContent = merged.financialContent then
        saveRecord merged
        return .unchanged
      else
        saveRevision ⟨row.key, observedAt, old⟩
        saveRecord merged
        return .updated

/-- Existing pointers and metadata belong to the live source, never to the
archive. -/
def archiveOutcome (old row : InvestmentRecord) : Except InvestmentError UpsertOutcome :=
  match old, row with
  | .product old, .product new =>
      if old.provider ≠ provider ∨ old.currency ≠ new.currency then .error .archiveProductConflict
      else .ok .unchanged
  | old, row =>
      if old.financialContent ≠ row.financialContent then .error .archiveValuationConflict
      else .ok .unchanged

def appendArchiveRecord (row : InvestmentRecord) (observedAt : String) :
    InvestmentM UpsertOutcome := do
  match ← findRecord row.key with
  | none => upsertRecord host provider row observedAt
  | some old => ensure (archiveOutcome provider old row)

/-! ## Source state -/

def initialState : InvestmentSourceState where
  provider
  status := .never_synced
  lastAttemptAt := none
  lastSuccessAt := none
  staleAfterHours := 168
  errorCode := none
  inventoryComplete := false

/-- The stored state, as a reader gets it. -/
def InvestmentDb.storedState (db : InvestmentDb) : Except InvestmentError InvestmentSourceState :=
  match db.sourceState with
  | some state => parseSourceState state
  | none => .ok (initialState provider)

def InvestmentDb.readState (db : InvestmentDb) : Except InvestmentError InvestmentSourceState := do
  let state ← db.storedState provider
  if state.provider ≠ provider then .error .otherProvider else .ok state

def readState : InvestmentM InvestmentSourceState := select fun db => db.readState provider

def writeState (state : InvestmentSourceState) : InvestmentM Unit :=
  execute fun db => do
    let validated ← parseSourceState state
    return { db with sourceState := some validated }

inductive FailureStatus
  | partially | auth_required | error
  deriving DecidableEq, Repr

def FailureStatus.status : FailureStatus → InvestmentStatus
  | .partially => .partially
  | .auth_required => .auth_required
  | .error => .error

structure InvestmentFailure where
  status : FailureStatus
  attemptedAt : String
  errorCode : InvestmentErrorCode
  deriving DecidableEq, Repr

/-- `!state.lastAttemptAt || failure.attemptedAt >= state.lastAttemptAt` -/
def followsLastAttempt (state : InvestmentSourceState) (attemptedAt : String) : Bool :=
  state.lastAttemptAt.all fun last => !jsLess attemptedAt last

def failedState (state : InvestmentSourceState) (failure : InvestmentFailure) :
    InvestmentSourceState :=
  { state with
    status := failure.status.status
    lastAttemptAt := some failure.attemptedAt
    errorCode := some failure.errorCode
    inventoryComplete := false }

def recordFailure (failure : InvestmentFailure) : InvestmentM Unit :=
  transaction do
    let state ← readState provider
    if followsLastAttempt state failure.attemptedAt then writeState (failedState state failure)

/-! ## Snapshots -/

/-- The newest of the observations a Hapoalim store has seen. -/
def newestObservation (appliedAt : Option String) (state : InvestmentSourceState) : Option Int :=
  ([appliedAt, state.lastAttemptAt, state.lastSuccessAt].filterMap fun time =>
    time.bind dateParse).max?

/-- Whether an observation of a Hapoalim store is stale. -/
def isStaleObservation (appliedAt : Option String) (state : InvestmentSourceState) (observedAt : String) :
    Bool :=
  (newestObservation appliedAt state).any fun newest =>
    (dateParse observedAt).any fun observed => observed < newest

def currentValuesComplete (snapshot : InvestmentSnapshot) : Bool :=
  provider ≠ .hapoalim ||
    (snapshot.inventoryComplete && !snapshot.products.isEmpty &&
      snapshot.products.all fun product => product.currentValuationId ≠ none)

/-- The source state after a snapshot has been applied. -/
def appliedState (state : InvestmentSourceState) (snapshot : InvestmentSnapshot) :
    InvestmentSourceState :=
  { state with
    status := if currentValuesComplete provider snapshot then .ok else .partially
    lastAttemptAt := some snapshot.observedAt
    lastSuccessAt := if currentValuesComplete provider snapshot then some snapshot.observedAt
      else state.lastSuccessAt
    errorCode := if currentValuesComplete provider snapshot then none
      else some .INCOMPLETE_RESPONSE
    inventoryComplete := snapshot.inventoryComplete }

/-- `new Date(snapshot.observedAt).toISOString()` -/
def normalizedObservation (observedAt : String) : Option String :=
  (dateParse observedAt).map toIsoString

def nothingApplied : InvestmentImportSummary := ⟨false, 0, 0, 0⟩

/-- The stored observation, as a reader gets it. -/
def InvestmentDb.lastApplied (db : InvestmentDb) : Except InvestmentError (Option String) :=
  match db.lastAppliedObservation with
  | none => .ok none
  | some value => (parseTimestamp value).map some

def readLastApplied : InvestmentM (Option String) := select fun db => db.lastApplied

/-- Whether the database has seen a newer observation; only Hapoalim asks. -/
def staleness (state : InvestmentSourceState) (observedAt : String) : InvestmentM Bool :=
  if provider = .hapoalim then do
    let appliedAt ← readLastApplied
    return isStaleObservation appliedAt state observedAt
  else return false

/-- The observation is not older than the last successful collection; Hapoalim
does not ask. -/
def followsLastSuccess (state : InvestmentSourceState) (observedAt : String) : Prop :=
  provider = .hapoalim ∨ state.lastSuccessAt.all (fun last => !jsLess observedAt last) = true

instance (state : InvestmentSourceState) (observedAt : String) :
    Decidable (followsLastSuccess provider state observedAt) :=
  inferInstanceAs (Decidable (_ ∨ _))

/-- `summary[upsertRecord(…)]++` for every record of the snapshot. -/
def writeRecords (snapshot : InvestmentSnapshot) : InvestmentM InvestmentImportSummary :=
  snapshot.records.foldlM
    (fun summary row => do return summary.count (← upsertRecord host provider row snapshot.observedAt))
    ⟨true, 0, 0, 0⟩

/-- Write the records of an accepted snapshot and the state after it. -/
def writeSnapshot (snapshot : InvestmentSnapshot) (state : InvestmentSourceState) :
    InvestmentM InvestmentImportSummary := do
  let summary ← writeRecords host provider snapshot
  let _ ← readState provider
  writeState (appliedState provider state snapshot)
  if provider = .hapoalim then
    execute fun db =>
      .ok { db with lastAppliedObservation := normalizedObservation snapshot.observedAt }
  return summary

/-- The transaction of `applySnapshot`. -/
def applyObservation (snapshot : InvestmentSnapshot) : InvestmentM InvestmentImportSummary :=
  transaction do
    let state ← readState provider
    let stale ← staleness provider state snapshot.observedAt
    if stale then return nothingApplied
    else
      ensure (require (followsLastSuccess provider state snapshot.observedAt) .observationPredates)
      writeSnapshot host provider snapshot state

/-- `!snapshot.complete || (!snapshot.inventoryComplete && provider !== 'hapoalim')` -/
def isIncomplete (snapshot : InvestmentSnapshot) : Bool :=
  !snapshot.complete || (!snapshot.inventoryComplete && provider ≠ .hapoalim)

/-- What an incomplete snapshot is recorded as. -/
def incompleteResponse (snapshot : InvestmentSnapshot) : InvestmentFailure :=
  ⟨.partially, snapshot.observedAt, .INCOMPLETE_RESPONSE⟩

def applySnapshot (input : InvestmentSnapshot) : InvestmentM InvestmentImportSummary := do
  let snapshot ← ensure (parseSnapshot host input)
  if isIncomplete provider snapshot then
    recordFailure provider (incompleteResponse snapshot)
    return nothingApplied
  else
    ensure (validateRelations provider snapshot)
    applyObservation host provider snapshot

end

/-! ## Archives -/

structure SeedEvidence where
  sourceSha256 : String
  /-- `JSON.stringify(evidence.manifest)` -/
  manifest : Option String
  deriving DecidableEq, Repr

/-- The size limit of an evidence text. -/
def evidenceLimit : Nat := 20 * 1024 * 1024

section
variable (host : Host) (provider : InvestmentProvider)

/-- The checks of `seedArchive` before its transaction: the parsed snapshot
and the evidence to store. -/
def checkArchive (input : InvestmentSnapshot) (evidence : SeedEvidence) :
    Except InvestmentError (InvestmentSnapshot × StoredEvidence) := do
  let snapshot ← parseSnapshot host input
  require (provider = .hapoalim ∧ snapshot.activities = [] ∧ snapshot.tracks = [] ∧
    snapshot.executions = [] ∧ snapshot.products.length = 1 ∧ snapshot.valuations ≠ [] ∧
    (∀ product ∈ snapshot.products, product.currentValuationId = none) ∧
    ∀ row ∈ snapshot.valuations, row.provenance ≠ none) .archiveShape
  validateRelations provider snapshot
  require (isSha256 evidence.sourceSha256 = true ∧ ∀ row ∈ snapshot.valuations,
    row.provenance.map (·.sourceSha256) = some evidence.sourceSha256) .archiveEvidenceMismatch
  match evidence.manifest with
  | none => .error .archiveEvidenceSize
  | some json =>
      require (json ≠ "" ∧ jsLength json ≤ evidenceLimit) .archiveEvidenceSize
      return (snapshot, ⟨evidence.sourceSha256, json⟩)

/-- `INSERT OR IGNORE INTO investment_archive_evidence` -/
def InvestmentDb.withEvidence (db : InvestmentDb) (evidence : StoredEvidence) : InvestmentDb :=
  if (db.evidence.find evidence.sha256).isSome then db
  else { db with evidence := db.evidence.put evidence }

/-- Store an evidence text, unless another one is stored under its hash. -/
def storeEvidence (evidence : StoredEvidence) : InvestmentM Unit := do
  let previous ← select fun db => .ok (db.evidence.find evidence.sha256)
  ensure (require (previous.all fun stored => stored.json = evidence.json)
    .archiveEvidenceConflict)
  execute fun db => .ok (db.withEvidence evidence)

def seedArchive (input : InvestmentSnapshot) (evidence : SeedEvidence) :
    InvestmentM InvestmentImportSummary := do
  let (snapshot, stored) ← ensure (checkArchive host provider input evidence)
  transaction do
    let _ ← readState provider
    storeEvidence stored
    snapshot.archiveRecords.foldlM
      (fun summary row => do
        return summary.count (← appendArchiveRecord host provider row snapshot.observedAt))
      ⟨true, 0, 0, 0⟩

end

/-! ## Session state -/

def unknownSession : ClalSessionState where
  status := .unknown
  lastCheckedAt := none
  lastRenewedAt := none
  expiresAt := none
  errorCode := none

/-- The stored session state, as a reader gets it. -/
def readSession (stored : Option ClalSessionState) :
    Except InvestmentError (Option ClalSessionState) :=
  match stored with
  | some state => (parseSessionState state).map some
  | none => .ok none

def getSessionState : InvestmentM ClalSessionState := do
  return (← select fun db => readSession db.sessionState).getD unknownSession

/-- `!previous?.lastCheckedAt || (state.lastCheckedAt && Date.parse(…) >= Date.parse(…))` -/
def checkedLater (previous : Option ClalSessionState) (state : ClalSessionState) : Bool :=
  (previous.bind (·.lastCheckedAt)).all fun before =>
    state.lastCheckedAt.any fun after =>
      (dateParse after).any fun later => (dateParse before).any fun earlier => earlier ≤ later

def setSessionState (state : ClalSessionState) : InvestmentM Unit := do
  let validated ← ensure (parseSessionState state)
  transaction do
    let previous ← select fun db => readSession db.sessionState
    if checkedLater previous validated then
      execute fun db => .ok { db with sessionState := some validated }

/-! ## Rate limiters -/

/-- `Date.parse(z.iso.datetime().parse(value))` -/
def parseInstant (value : String) : Except InvestmentError Instant :=
  match dateParse value with
  | some instant => .ok instant
  | none => .error .schema

/-- `z.array(z.iso.datetime()).max(2).parse` of a stored list. -/
def parseAttempts (stored : Option (List String)) : Except InvestmentError (List String) :=
  if (stored.getD []).length ≤ 2 ∧ (stored.getD []).all isTimestamp = true then
    .ok (stored.getD [])
  else .error .schema

/-- The attempts of a window that ends at `instant`; one that lies ahead of
the clock still counts. -/
def recentAttempts (window : Int) (instant : Instant) (attempts : List String) : List String :=
  attempts.filter fun attempt => (dateParse attempt).any (instant - window < ·)

/-- Record an attempt unless its window has two already; the attempts counted
come back with the answer. -/
def consumeAttempt (stored : InvestmentDb → Option (List String))
    (store : InvestmentDb → List String → InvestmentDb) (window : Int) (instant : Instant)
    (attemptedAt : String) : InvestmentM (Bool × List String) :=
  transaction do
    let previous ← select fun db => parseAttempts (stored db)
    let recent := recentAttempts window instant previous
    if recent.length < 2 then
      execute fun db => .ok (store db (recent ++ [attemptedAt]))
      return (true, recent)
    else return (false, recent)

def smsWindow : Int := 86400000

def consumeAutomaticSmsAttempt (attemptedAt : String) : InvestmentM Bool := do
  let instant ← ensure (parseInstant attemptedAt)
  return (← consumeAttempt (·.automaticSmsAttempts)
    (fun db attempts => { db with automaticSmsAttempts := some attempts }) smsWindow instant
    attemptedAt).1

/-- `Math.min` over the attempts. -/
def oldestAttempt (attempts : List String) : Option Instant := (attempts.filterMap dateParse).min?

def getAutomaticSmsNextAllowedAt (now : String) : InvestmentM (Option String) := do
  let instant ← ensure (parseInstant now)
  let previous ← select fun db => parseAttempts db.automaticSmsAttempts
  let recent := recentAttempts smsWindow instant previous
  return if 2 ≤ recent.length then
    (oldestAttempt recent).map fun oldest => toIsoString (oldest + smsWindow)
  else none

def controlWindow : Int := 60000

structure ControlAnswer where
  allowed : Bool
  retryAfterSeconds : Int
  deriving DecidableEq, Repr

def consumeControlRefreshAttempt (now : String) : InvestmentM ControlAnswer := do
  let instant ← ensure (parseInstant now)
  let (allowed, recent) ← consumeAttempt (·.controlRefreshAttempts)
    (fun db attempts => { db with controlRefreshAttempts := some attempts }) controlWindow instant
    now
  return ⟨allowed, if allowed then 0
    else (oldestAttempt recent).elim 0 fun oldest =>
      ⌈((oldest + controlWindow - instant : Int) : ℚ) / 1000⌉⟩

/-! ## Recovery requests -/

section
variable (host : Host)

/-- `z.uuid().parse` -/
def parseRequestId (requestId : String) : Except InvestmentError String :=
  if host.isUuid requestId then .ok requestId else .error .schema

/-- `recoveryStatusSchema.parse` -/
def parseRecovery (recovery : RecoveryStatus) : Except InvestmentError RecoveryStatus :=
  if host.isUuid recovery.challengeId then .ok recovery else .error .schema

def parseStoredRecovery (stored : Option RecoveryRequest) :
    Except InvestmentError (Option RecoveryStatus) :=
  match stored with
  | some request => (parseRecovery host request.recovery).map some
  | none => .ok none

def getManualRecoveryRequest (requestId : String) : InvestmentM (Option RecoveryStatus) := do
  let requestId ← ensure (parseRequestId host requestId)
  select fun db => parseStoredRecovery host (db.recoveryRequests.find requestId)

/-- `ORDER BY created_at DESC, rowid DESC LIMIT 1` -/
def latestRequest (requests : List RecoveryRequest) : Option RecoveryRequest :=
  requests.foldl (fun latest request =>
    if latest.all fun earlier => ¬request.createdAt < earlier.createdAt then some request
    else latest) none

def getLatestManualRecoveryRequest : InvestmentM (Option RecoveryStatus) :=
  select fun db => parseStoredRecovery host (latestRequest db.recoveryRequests.rows)

/-- `DELETE FROM investment_manual_recovery_requests WHERE created_at < ?` -/
def dropRequestsBefore (cutoff : String) (requests : KeyedTable RecoveryRequest RecoveryRequest.id) :
    KeyedTable RecoveryRequest RecoveryRequest.id :=
  ⟨requests.rows.filter fun request => ¬request.createdAt < cutoff,
    requests.nodup.sublist (List.filter_sublist.map _)⟩

/-- A process lost after reserving its intent must not repeat an uncertain
SMS. -/
def interrupted (requestId : String) : RecoveryStatus :=
  ⟨requestId, .failed, some .RECOVERY_INTERRUPTED⟩

/-- The stored recovery is parsed after the commit. -/
def reserveManualRecoveryRequest (requestId createdAt : String) :
    InvestmentM (Bool × RecoveryStatus) := do
  let requestId ← ensure (parseRequestId host requestId)
  let instant ← ensure (parseInstant createdAt)
  let stored : Option RecoveryRequest ← transaction do
    match ← select fun db => .ok (db.recoveryRequests.find requestId) with
    | some request => return some request
    | none =>
        execute fun db =>
          .ok { db with
            recoveryRequests :=
              dropRequestsBefore (toIsoString (instant - smsWindow)) db.recoveryRequests }
        execute fun db =>
          .ok { db with
            recoveryRequests := db.recoveryRequests.put ⟨requestId, createdAt, interrupted requestId⟩ }
        return none
  match stored with
  | some request => return (false, ← ensure (parseRecovery host request.recovery))
  | none => return (true, interrupted requestId)

def finishManualRecoveryRequest (recovery : RecoveryStatus) : InvestmentM Unit := do
  let validated ← ensure (parseRecovery host recovery)
  execute fun db =>
    .ok ((db.recoveryRequests.find validated.challengeId).elim db fun request =>
      { db with recoveryRequests := db.recoveryRequests.put { request with recovery := validated } })

end

/-! ## The feed -/

section
variable (provider : InvestmentProvider)

def recordKinds : List RecordKind := [.products, .valuations, .activities, .tracks, .executions]

/-- `SELECT json FROM investment_records WHERE kind = ? ORDER BY id` -/
def InvestmentDb.rowsOfKind (db : InvestmentDb) (kind : RecordKind) : List InvestmentRecord :=
  (db.records.rows.filter fun row => row.kind = kind).mergeSort fun a b => a.id ≤ b.id

/-- What `getFeed` reads; the feed is built from it without another
statement. -/
def readFeed : InvestmentM (List InvestmentRecord × InvestmentSourceState) :=
  transaction do
    let rows ← recordKinds.foldlM
      (fun rows kind => do return rows ++ (← select fun db => .ok (db.rowsOfKind kind))) []
    let state ← readState provider
    return (rows, state)

end

/-! ## Calls -/

inductive InvestmentOp
  | applySnapshot (input : InvestmentSnapshot)
  | seedArchive (input : InvestmentSnapshot) (evidence : SeedEvidence)
  | recordFailure (failure : InvestmentFailure)
  | getSessionState
  | setSessionState (state : ClalSessionState)
  | getAutomaticSmsNextAllowedAt (now : String)
  | consumeAutomaticSmsAttempt (attemptedAt : String)
  | consumeControlRefreshAttempt (now : String)
  | getManualRecoveryRequest (requestId : String)
  | getLatestManualRecoveryRequest
  | reserveManualRecoveryRequest (requestId createdAt : String)
  | finishManualRecoveryRequest (recovery : RecoveryStatus)
  | getFeed
  deriving DecidableEq, Repr

section
variable (host : Host) (provider : InvestmentProvider)

/-- The operation, with the summary it answers, if it answers one. -/
def InvestmentOp.perform : InvestmentOp → InvestmentM (Option InvestmentImportSummary)
  | applySnapshot input => do return some (← SimplefinBridge.applySnapshot host provider input)
  | seedArchive input evidence => do
      return some (← SimplefinBridge.seedArchive host provider input evidence)
  | recordFailure failure => do
      SimplefinBridge.recordFailure provider failure
      return none
  | getSessionState => do
      let _ ← SimplefinBridge.getSessionState
      return none
  | setSessionState state => do
      SimplefinBridge.setSessionState state
      return none
  | getAutomaticSmsNextAllowedAt now => do
      let _ ← SimplefinBridge.getAutomaticSmsNextAllowedAt now
      return none
  | consumeAutomaticSmsAttempt attemptedAt => do
      let _ ← SimplefinBridge.consumeAutomaticSmsAttempt attemptedAt
      return none
  | consumeControlRefreshAttempt now => do
      let _ ← SimplefinBridge.consumeControlRefreshAttempt now
      return none
  | getManualRecoveryRequest requestId => do
      let _ ← SimplefinBridge.getManualRecoveryRequest host requestId
      return none
  | getLatestManualRecoveryRequest => do
      let _ ← SimplefinBridge.getLatestManualRecoveryRequest host
      return none
  | reserveManualRecoveryRequest requestId createdAt => do
      let _ ← SimplefinBridge.reserveManualRecoveryRequest host requestId createdAt
      return none
  | finishManualRecoveryRequest recovery => do
      SimplefinBridge.finishManualRecoveryRequest host recovery
      return none
  | getFeed => do
      let _ ← readFeed provider
      return none

/-- A call, and which of its statements the database refuses. -/
structure InvestmentCall where
  op : InvestmentOp
  faults : List Bool := []
  deriving DecidableEq, Repr

/-- How the call ends. -/
def InvestmentCall.result (call : InvestmentCall) (db : InvestmentDb) :
    EStateM.Result InvestmentError (Statements.Session InvestmentDb)
      (Option InvestmentImportSummary) :=
  call.op.perform host provider ⟨db, call.faults⟩

/-- The database after the call, returned from or thrown out of. -/
def callStep (db : InvestmentDb) (call : InvestmentCall) : InvestmentDb :=
  (Transactional.storeAfter (call.result host provider db)).store

end

end SimplefinBridge
