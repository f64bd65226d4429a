import SimplefinBridge.JsTexts

/-!
# Ledger rows

The records of `types.ts` that the ledger stores.  A field of type
`T | undefined` is an `Option`; `raw` payloads are JSON trees, with
`undefined` and `null` both stored as `null`.  Free texts of a row (its
description, memo and category) are JavaScript texts, since the normalization
cuts them between code units; the texts of a JSON payload are texts of
characters.
-/

namespace SimplefinBridge

abbrev CompanyId := String

/-- A JSON value. -/
inductive Json
  | null
  | bool (value : Bool)
  | num (value : ℚ)
  | str (value : String)
  | arr (items : List Json)
  | obj (fields : List (String × Json))

namespace Json

mutual
def decEq : (a b : Json) → Decidable (a = b)
  | null, null => isTrue rfl
  | bool a, bool b => decidable_of_iff (a = b) (by simp)
  | num a, num b => decidable_of_iff (a = b) (by simp)
  | str a, str b => decidable_of_iff (a = b) (by simp)
  | arr a, arr b => @decidable_of_iff _ (a = b) (by simp) (decEqItems a b)
  | obj a, obj b => @decidable_of_iff _ (a = b) (by simp) (decEqFields a b)
  | null, bool _ | null, num _ | null, str _ | null, arr _ | null, obj _
  | bool _, null | bool _, num _ | bool _, str _ | bool _, arr _ | bool _, obj _
  | num _, null | num _, bool _ | num _, str _ | num _, arr _ | num _, obj _
  | str _, null | str _, bool _ | str _, num _ | str _, arr _ | str _, obj _
  | arr _, null | arr _, bool _ | arr _, num _ | arr _, str _ | arr _, obj _
  | obj _, null | obj _, bool _ | obj _, num _ | obj _, str _ | obj _, arr _ => isFalse (by simp)

def decEqItems : (a b : List Json) → Decidable (a = b)
  | [], [] => isTrue rfl
  | [], _ :: _ | _ :: _, [] => isFalse (by simp)
  | a :: as, b :: bs =>
      @decidable_of_iff _ (a = b ∧ as = bs) (by simp)
        (@instDecidableAnd _ _ (decEq a b) (decEqItems as bs))

def decEqFields : (a b : List (String × Json)) → Decidable (a = b)
  | [], [] => isTrue rfl
  | [], _ :: _ | _ :: _, [] => isFalse (by simp)
  | (k, a) :: as, (l, b) :: bs =>
      @decidable_of_iff _ (k = l ∧ a = b ∧ as = bs) (by simp [and_assoc])
        (@instDecidableAnd _ _ _ (@instDecidableAnd _ _ (decEq a b) (decEqFields as bs)))
end
instance : DecidableEq Json := decEq

/-- `object(value)`: the fields of a value that is an object and no array. -/
def object : Json → Option (List (String × Json))
  | obj fields => some fields
  | _ => none

/-- `object(value)?.[key]`; nothing for `undefined`. -/
def field (value : Json) (key : String) : Option Json := (value.object.getD []).lookup key

/-- The text of a value with `typeof value === 'string'`. -/
def asString : Option Json → Option String
  | some (str s) => some s
  | _ => none

/-- The number of a value with `typeof value === 'number'`. -/
def asNumber : Option Json → Option ℚ
  | some (num x) => some x
  | _ => none

/-- `{...value, [key]: item}` -/
def withField (value : Json) (key : String) (item : Json) : Json :=
  obj ((key, item) :: (value.object.getD []).filter fun f => f.1 ≠ key)

@[simp] theorem field_withField (value : Json) (key : String) (item : Json) :
    (value.withField key item).field key = some item := by
  simp [withField, field, object]

end Json

inductive AccountKind
  | checking | credit_card | savings | investment
  deriving DecidableEq, Repr

inductive TransactionStatus
  | pending | posted
  deriving DecidableEq, Repr

def idSchemeVersion : Nat := 1

structure LedgerAccount where
  id : String
  company : CompanyId
  accountNumber : String
  kind : AccountKind
  currency : String
  name : String
  balance : Option ℚ
  balanceAt : Option Instant
  firstSeen : Instant
  lastSeen : Instant
  raw : Json
  deriving DecidableEq

/-- A ledger row without its id. -/
structure TransactionFields where
  accountId : String
  company : CompanyId
  identifier : Option String
  bookedDate : IsoDate
  chargeDate : Option IsoDate
  amount : ℚ
  currency : String
  description : JsText
  memo : Option JsText
  status : TransactionStatus
  /-- When an existing pending row first became posted. -/
  postedSeenAt : Option Instant := none
  installmentNumber : Option ℚ
  installmentTotal : Option ℚ
  originalAmount : Option ℚ
  originalCurrency : Option String
  category : Option JsText
  synthetic : Bool
  firstSeen : Instant
  lastSeen : Instant
  idSchemeVersion : Nat
  raw : Json
  deriving DecidableEq

structure LedgerTransaction extends TransactionFields where
  id : String
  deriving DecidableEq

structure LedgerHolding where
  id : String
  accountId : String
  symbol : Option String
  description : String
  marketValue : ℚ
  shares : Option ℚ
  purchasePrice : Option ℚ
  costBasis : Option ℚ
  currency : String
  firstSeen : Instant
  lastSeen : Instant
  raw : Json
  deriving DecidableEq

/-- What a scrape of a company yields. -/
structure SourceFetchResult where
  accounts : List LedgerAccount
  transactions : List LedgerTransaction
  holdings : List LedgerHolding
  scrapedAt : Instant

structure SyntheticPayment where
  transactionId : String
  accountId : String
  chargeDate : IsoDate
  amount : ℚ
  emittedAt : Instant
  deriving DecidableEq, Repr

inductive AnomalyField
  | amount | bookedDate | description
  deriving DecidableEq, Repr

/-- A field that came back different from the frozen ledger value. -/
structure Anomaly where
  transactionId : String
  field : AnomalyField
  previous : JsText
  incoming : JsText
  seenAt : Instant
  deriving DecidableEq, Repr

/-- A reviewed pair of rows that are one installment, with the fingerprints
both rows had at review. -/
structure ArchiveInstallmentPair where
  canonicalId : String
  duplicateId : String
  canonicalStateHash : String
  duplicateStateHash : String
  deriving DecidableEq, Repr

structure UpsertSummary where
  inserted : Nat := 0
  updated : Nat := 0
  unchanged : Nat := 0
  anomalies : List Anomaly := []
  deriving DecidableEq, Repr

/-- What the operations of the bridge throw. -/
inductive BridgeError
  /-- `UNIQUE constraint failed` -/
  | uniqueConstraint
  /-- `Consumer … already exists` -/
  | consumerExists
  /-- Consumer label must contain at least one letter or digit. -/
  | emptySlug
  /-- The database refused a statement (busy, full, closed). -/
  | statementFailed
  /-- Ambiguous archived installment identity; no transaction coalesced. -/
  | ambiguousInstallment
  /-- Multiple portal rows match one archived installment; no transaction coalesced. -/
  | installmentClaimedTwice
  /-- Expected between 1 and 100 explicitly reviewed installment pairs -/
  | installmentPairCount
  /-- Installment maintenance pairs must contain distinct transaction IDs -/
  | installmentPairIds
  /-- Installment maintenance pre-state or complete source identity changed; no repair applied -/
  | installmentStateChanged
  /-- Installment duplicate has dependent ledger records; no repair applied -/
  | installmentDependents
  /-- `RangeError: Invalid time value` -/
  | invalidTime
  /-- `URIError: URI malformed` -/
  | malformedUri
  /-- Id contains non-ASCII characters -/
  | idNotAscii
  /-- `Id exceeds 255 characters (…)` -/
  | idTooLong (length : Nat)
  /-- `Not a valid ISO timestamp: …` -/
  | invalidTimestamp (value : String)
  /-- A history backfill requires one company and no incremental from bound -/
  | backfillBounds
  /-- Incremental and backfill date bounds cannot be combined -/
  | dateBounds
  /-- `mkdirSync` of the Chrome profile directory failed. -/
  | profileDirectory
  /-- `TypeError: Invalid URL` -/
  | invalidUrl
  deriving DecidableEq, Repr

/-! ## Configuration -/

inductive DateMode
  | purchase | charge
  deriving DecidableEq, Repr

structure CompanyConfig where
  /-- Disabled companies are never scraped and never served. -/
  enabled : Bool
  label : String
  kind : AccountKind
  /-- Scraper `accountNumber` filter; `none` is `'all'`. -/
  accounts : Option (List String)
  startDate : Option IsoDate
  includePending : Bool
  dateMode : DateMode
  synthesizePayments : Bool
  deriving DecidableEq, Repr

structure Config where
  timezone : String
  currency : String
  /-- A company without a success within this many hours is stale. -/
  staleHours : Nat
  /-- Days re-scraped on every run to catch late postings. -/
  overlapDays : Nat
  /-- Login attempts per company and calendar day (bank lockout guard). -/
  maxLoginAttemptsPerDay : Nat
  companies : List (CompanyId × CompanyConfig)
  companies_nodup : (companies.map Prod.fst).Nodup
  /-- `server.publicUrl` -/
  publicUrl : String

/-! ## Scrape state -/

inductive ScrapeErrorType
  | INVALID_PASSWORD | CHANGE_PASSWORD | ACCOUNT_BLOCKED | TIMEOUT | GENERIC | GENERAL_ERROR
  | TWO_FACTOR_RETRIEVER_MISSING | OTP_REQUIRED | BRIDGE_ERROR
  deriving DecidableEq, Repr

structure SourceState where
  company : CompanyId
  lastRunAt : Option Instant
  lastSuccessAt : Option Instant
  lastErrorAt : Option Instant
  lastErrorType : Option ScrapeErrorType
  lastErrorMessage : Option String
  consecutiveFailures : Nat
  parked : Bool
  parkedReason : Option String
  parkedAt : Option Instant
  credentialFingerprint : Option String
  /-- Backoff: do not run before this time. -/
  nextAllowedAt : Option Instant
  loginAttemptsDate : Option IsoDate
  loginAttempts : Nat
  earliestScrapedDate : Option IsoDate
  deriving DecidableEq, Repr

inductive RunStatus
  | success | login_failed | timeout | error | skipped
  deriving DecidableEq, Repr

structure RunRecord where
  id : String
  company : CompanyId
  startedAt : Instant
  finishedAt : Instant
  status : RunStatus
  errorType : Option ScrapeErrorType
  message : Option String
  accountsSeen : Nat
  transactionsSeen : Nat
  transactionsNew : Nat
  anomalies : Nat
  deriving DecidableEq, Repr

end SimplefinBridge
