import SimplefinBridge.Dates
import SimplefinBridge.Library.Timestamps

/-!
# Investment records and the formats they are accepted in

Money, dates and timestamps stay texts.  A schema trims the texts it says to
trim and then checks every field, so `parse` of a record is `trimmed`
followed by `accepted`; an accepted record is the input trimmed.
-/

namespace SimplefinBridge

open Timestamps

inductive InvestmentError
  /-- A value the schema does not accept. -/
  | schema
  /-- The database refused a statement (busy, full, closed). -/
  | statementFailed
  /-- Investment identifiers must not be empty -/
  | emptyIdentifier
  /-- Investment identifiers must not exceed 255 characters -/
  | identifierTooLong
  /-- `Duplicate investment … identities` -/
  | duplicateIdentities
  /-- Investment product identity does not match its provider identity -/
  | productIdentity
  /-- Investment product declares valuations without a value -/
  | valuationsWithoutValue
  /-- Investment product current value does not identify one of its valuations -/
  | currentValue
  /-- Investment record has an unknown product or inconsistent currency -/
  | unknownProductOrCurrency
  /-- Archive valuation must preserve its identity, value and historical provenance -/
  | archiveValuation
  /-- Investment valuation identity does not match its date -/
  | valuationIdentity
  /-- Investment activity identity does not match its provider identity -/
  | activityIdentity
  /-- Investment track identity does not match its product -/
  | trackIdentity
  /-- Investment execution identity does not match its provider product -/
  | executionIdentity
  /-- Investment database belongs to another provider -/
  | otherProvider
  /-- Archive product conflicts with existing source identity -/
  | archiveProductConflict
  /-- Archive valuation conflicts with an existing record -/
  | archiveValuationConflict
  /-- Archive seed requires one historical Hapoalim product and only provenanced valuations -/
  | archiveShape
  /-- Archive evidence does not match its valuation provenance -/
  | archiveEvidenceMismatch
  /-- Archive evidence is missing or exceeds the size limit -/
  | archiveEvidenceSize
  /-- Archive evidence conflicts with its stored source hash -/
  | archiveEvidenceConflict
  /-- Investment observation predates the last successful collection -/
  | observationPredates
  deriving DecidableEq, Repr

/-! ## Records -/

inductive InvestmentProvider
  | clal | hachshara_best_invest | hapoalim
  deriving DecidableEq, Repr

inductive CoverageLevel
  | complete | partially | unavailable  -- `partially` is the text `partial`
  deriving DecidableEq, Repr

inductive ProductKind
  | pension | keren_hishtalmut | provident_fund | investment
  deriving DecidableEq, Repr

inductive LiquidityStatus
  | restricted | available | partially_available | unknown
  deriving DecidableEq, Repr

inductive ActivityDateKind
  | effective | booking | contribution_month
  deriving DecidableEq, Repr

inductive ActivityKind
  | employee_contribution | employer_contribution | severance_contribution | withdrawal
  | transfer_in | transfer_out | management_fee | insurance_cost | investment_return
  | actuarial_adjustment | other
  deriving DecidableEq, Repr

inductive ExecutionKind
  | buy | sell | dividend | interest | redemption | transfer_in | transfer_out | stock_bonus
  | other
  deriving DecidableEq, Repr

inductive ObservationBasis
  | archive_capture | archive_read
  deriving DecidableEq, Repr

structure ReportLine where
  label : String
  amount : String
  deriving DecidableEq, Repr

structure InvestmentReportSummary where
  id : String
  title : String
  fromDate : Option IsoDate
  toDate : Option IsoDate
  lines : List ReportLine
  deriving DecidableEq, Repr

structure Liquidity where
  status : LiquidityStatus
  availableFrom : Option IsoDate
  availableAmount : Option String
  deriving DecidableEq, Repr

structure ProductCoverage where
  valuations : CoverageLevel
  activities : CoverageLevel
  tracks : CoverageLevel
  executions : Option CoverageLevel
  deriving DecidableEq, Repr

structure Forecast where
  monthlyPension : String
  currency : String
  asOf : Option IsoDate
  deriving DecidableEq, Repr

structure InvestmentProduct where
  id : String
  provider : InvestmentProvider
  /-- Actual provider account or policy identity. -/
  providerProductId : String
  kind : ProductKind
  name : String
  currency : String
  /-- Explicit authoritative current value; history alone never changes it. -/
  currentValuationId : Option String
  liquidity : Liquidity
  coverage : ProductCoverage
  forecast : Option Forecast
  reportSummaries : Option (List InvestmentReportSummary)
  deriving DecidableEq, Repr

structure Provenance where
  sourceEntryId : String
  sourceAccountId : String
  sourceSha256 : String
  archiveObservedAt : String
  observationBasis : ObservationBasis
  sourceAmount : String
  deriving DecidableEq, Repr

structure InvestmentValuation where
  id : String
  productId : String
  /-- `none`: the provider did not supply a valuation date. -/
  asOf : Option IsoDate
  observedAt : String
  amount : String
  currency : String
  /-- Offline archive evidence; it never establishes a provider observation. -/
  provenance : Option Provenance
  deriving DecidableEq, Repr

structure InvestmentActivity where
  id : String
  productId : String
  sourceId : String
  date : String
  dateKind : ActivityDateKind
  kind : ActivityKind
  amount : String
  currency : String
  description : String
  observedAt : String
  deriving DecidableEq, Repr

structure InvestmentTrack where
  id : String
  productId : String
  name : String
  allocationPercent : Option String
  amount : Option String
  currency : String
  asOf : Option IsoDate
  observedAt : String
  deriving DecidableEq, Repr

structure InvestmentExecution where
  id : String
  productId : String
  sourceId : String
  kind : ExecutionKind
  securityId : String
  isin : Option String
  symbol : Option String
  name : String
  tradeDate : IsoDate
  valueDate : Option IsoDate
  settlementDate : Option IsoDate
  cancelDate : Option IsoDate
  cancelled : Bool
  quantity : Option String
  unitPrice : Option String
  netCashAmount : Option String
  currency : String
  settlementNetCashAmount : Option String
  settlementCurrency : String
  sourceTradeType : String
  sourceTransactionType : String
  sourcePaymentType : Option String
  observedAt : String
  deriving DecidableEq, Repr

/-- Collector result; an incomplete one never replaces verified records. -/
structure InvestmentSnapshot where
  observedAt : String
  complete : Bool
  inventoryComplete : Bool
  products : List InvestmentProduct
  valuations : List InvestmentValuation
  activities : List InvestmentActivity
  tracks : List InvestmentTrack
  executions : List InvestmentExecution
  deriving DecidableEq, Repr

inductive InvestmentErrorCode
  | OTP_REQUIRED | INVALID_CREDENTIALS | ACCOUNT_BLOCKED | TIMEOUT | CREDENTIAL_RESOLUTION_FAILED
  | INCOMPLETE_RESPONSE | INVALID_RESPONSE | COLLECTION_FAILED
  deriving DecidableEq, Repr

inductive InvestmentStatus
  | ok | partially | auth_required | error | never_synced
  deriving DecidableEq, Repr

structure InvestmentSourceState where
  provider : InvestmentProvider
  status : InvestmentStatus
  lastAttemptAt : Option String
  lastSuccessAt : Option String
  staleAfterHours : Nat
  errorCode : Option InvestmentErrorCode
  inventoryComplete : Bool
  deriving DecidableEq, Repr

inductive SessionStatus
  | unknown | active | auth_required | error
  deriving DecidableEq, Repr

structure ClalSessionState where
  status : SessionStatus
  lastCheckedAt : Option String
  lastRenewedAt : Option String
  expiresAt : Option String
  errorCode : Option InvestmentErrorCode
  deriving DecidableEq, Repr

/-! ## Formats -/

/-- `(?:0|[1-9]\d*)` -/
def isWhole : List Char → Bool
  | [] => false
  | ['0'] => true
  | c :: cs => c ≠ '0' && c.isDigit && cs.all Char.isDigit

/-- `(?:0|[1-9]\d*)\.\d{least,most}`; the fraction may be left out when it is
optional. -/
def isDecimal (least most : Nat) (optional : Bool) (cs : List Char) : Bool :=
  match cs.splitOn '.' with
  | [whole] => optional && isWhole whole
  | [whole, fraction] =>
      isWhole whole && fraction.all Char.isDigit && least ≤ fraction.length &&
        fraction.length ≤ most
  | _ => false

/-- Millionths of a decimal text with at most six digits after the point. -/
def millionths (cs : List Char) : Nat :=
  match cs.splitOn '.' with
  | [whole] => Nat.ofDigitChars 10 whole 0 * 1000000
  | [whole, fraction] =>
      Nat.ofDigitChars 10 whole 0 * 1000000 +
        Nat.ofDigitChars 10 (fraction ++ List.replicate (6 - fraction.length) '0') 0
  | _ => 0

/-- `investmentMoneySchema` -/
def isMoney (value : String) : Bool :=
  let cs := value.toList
  isDecimal 2 2 false (if cs.head? = some '-' then cs.tail else cs) && value ≠ "-0.00"

/-- `nonnegativeMoney` -/
def isNonnegativeMoney (value : String) : Bool := isMoney value && value.toList.head? ≠ some '-'

/-- `investmentValuationMoneySchema` -/
def isValuationMoney (value : String) : Bool :=
  isDecimal 2 6 false value.toList && jsLength value ≤ 16 &&
    millionths value.toList ≤ 999999999990000

/-- `securityDecimal` -/
def isSecurityDecimal (value : String) : Bool :=
  jsLength value ≤ 64 && isDecimal 1 12 true value.toList

def isAllocation (value : String) : Bool :=
  isDecimal 1 6 true value.toList && millionths value.toList ≤ 100 * 1000000

def isLowerHex (c : Char) : Bool := c.isDigit || ('a' ≤ c && c ≤ 'f')

/-- `/^[\da-f]{64}$/` -/
def isSha256 (value : String) : Bool :=
  value.toList.length = 64 && value.toList.all isLowerHex

/-- `/^natural-key-v1:[\da-f]{64}$/` -/
def isNaturalKey (value : String) : Bool :=
  "natural-key-v1:".toList.isPrefixOf value.toList &&
    isSha256 (String.ofList (value.toList.drop 15))

def isUpper (c : Char) : Bool := 'A' ≤ c && c ≤ 'Z'

/-- `/^[A-Z]{2}[0-9A-Z]{9}\d$/` -/
def isIsin (value : String) : Bool :=
  let cs := value.toList
  cs.length = 12 && (cs.take 2).all isUpper && (cs.take 11).all (fun c => isUpper c || c.isDigit) &&
    (cs.drop 11).all Char.isDigit

/-- `/^\d{4}-(?:0[1-9]|1[0-2])$/` -/
def isMonth (value : String) : Bool :=
  let cs := value.toList
  cs.length = 7 && (cs.take 4).all Char.isDigit && cs[4]? = some '-' &&
    ["01", "02", "03", "04", "05", "06", "07", "08", "09", "10", "11", "12"].contains
      (String.ofList (cs.drop 5))

/-- `z.iso.datetime()` -/
def isTimestamp (value : String) : Bool := (Timestamp.parse value).isSome

/-- `z.string().trim().min(1).max(most)`, of the trimmed text. -/
def isText (most : Nat) (value : String) : Bool := 1 ≤ jsLength value && jsLength value ≤ most

def isId (value : String) : Bool := isText 255 value

/-! ## Schemas -/

def InvestmentReportSummary.trimmed (report : InvestmentReportSummary) : InvestmentReportSummary :=
  { report with
    id := jsTrim report.id
    title := jsTrim report.title
    lines := report.lines.map fun line => { line with label := jsTrim line.label } }

def InvestmentProduct.trimmed (product : InvestmentProduct) : InvestmentProduct :=
  { product with
    id := jsTrim product.id
    providerProductId := jsTrim product.providerProductId
    name := jsTrim product.name
    currentValuationId := product.currentValuationId.map jsTrim
    reportSummaries := product.reportSummaries.map (·.map (·.trimmed)) }

def InvestmentValuation.trimmed (valuation : InvestmentValuation) : InvestmentValuation :=
  { valuation with id := jsTrim valuation.id, productId := jsTrim valuation.productId }

def InvestmentActivity.trimmed (activity : InvestmentActivity) : InvestmentActivity :=
  { activity with
    id := jsTrim activity.id
    productId := jsTrim activity.productId
    sourceId := jsTrim activity.sourceId
    description := jsTrim activity.description }

def InvestmentTrack.trimmed (track : InvestmentTrack) : InvestmentTrack :=
  { track with
    id := jsTrim track.id
    productId := jsTrim track.productId
    name := jsTrim track.name }

def InvestmentExecution.trimmed (execution : InvestmentExecution) : InvestmentExecution :=
  { execution with
    id := jsTrim execution.id
    productId := jsTrim execution.productId
    securityId := jsTrim execution.securityId
    symbol := execution.symbol.map jsTrim
    name := jsTrim execution.name }

def InvestmentSnapshot.trimmed (snapshot : InvestmentSnapshot) : InvestmentSnapshot :=
  { snapshot with
    products := snapshot.products.map (·.trimmed)
    valuations := snapshot.valuations.map (·.trimmed)
    activities := snapshot.activities.map (·.trimmed)
    tracks := snapshot.tracks.map (·.trimmed)
    executions := snapshot.executions.map (·.trimmed) }

section
variable (host : Host)

def InvestmentReportSummary.accepted (report : InvestmentReportSummary) : Bool :=
  isId report.id && isText 255 report.title && report.fromDate.all host.isIsoDate &&
    report.toDate.all host.isIsoDate &&
    report.lines.all (fun line => isText 500 line.label && isMoney line.amount) &&
    -- the period does not end before it begins
    report.fromDate.all fun fromDate => report.toDate.all fun toDate => !jsLess toDate fromDate

def InvestmentProduct.accepted (product : InvestmentProduct) : Bool :=
  isId product.id && isId product.providerProductId && isText 255 product.name &&
    isCurrencyCode product.currency && product.currentValuationId.all isId &&
    product.liquidity.availableFrom.all host.isIsoDate &&
    product.liquidity.availableAmount.all isNonnegativeMoney &&
    product.forecast.all (fun forecast => isNonnegativeMoney forecast.monthlyPension &&
      isCurrencyCode forecast.currency && forecast.asOf.all host.isIsoDate) &&
    product.reportSummaries.all fun reports =>
      reports.all (·.accepted host) && (reports.map (·.id)).Nodup

def Provenance.accepted (provenance : Provenance) : Bool :=
  host.isUuid provenance.sourceEntryId && host.isUuid provenance.sourceAccountId &&
    isSha256 provenance.sourceSha256 && isTimestamp provenance.archiveObservedAt &&
    isValuationMoney provenance.sourceAmount

def InvestmentValuation.accepted (valuation : InvestmentValuation) : Bool :=
  isId valuation.id && isId valuation.productId && valuation.asOf.all host.isIsoDate &&
    isTimestamp valuation.observedAt && isValuationMoney valuation.amount &&
    isCurrencyCode valuation.currency && valuation.provenance.all (·.accepted host)

def InvestmentActivity.accepted (activity : InvestmentActivity) : Bool :=
  isId activity.id && isId activity.productId && isId activity.sourceId &&
    isMoney activity.amount && isCurrencyCode activity.currency &&
    isText 1000 activity.description && isTimestamp activity.observedAt &&
    -- the date keeps the precision its kind says
    if activity.dateKind = .contribution_month then isMonth activity.date
    else host.isIsoDate activity.date

def InvestmentTrack.accepted (track : InvestmentTrack) : Bool :=
  isId track.id && isId track.productId && isText 255 track.name &&
    track.allocationPercent.all isAllocation && track.amount.all isNonnegativeMoney &&
    isCurrencyCode track.currency && track.asOf.all host.isIsoDate && isTimestamp track.observedAt

def InvestmentExecution.accepted (execution : InvestmentExecution) : Bool :=
  isId execution.id && isId execution.productId && isNaturalKey execution.sourceId &&
    isId execution.securityId && execution.isin.all isIsin && execution.symbol.all (isText 100) &&
    isText 500 execution.name && host.isIsoDate execution.tradeDate &&
    execution.valueDate.all host.isIsoDate && execution.settlementDate.all host.isIsoDate &&
    execution.cancelDate.all host.isIsoDate && execution.quantity.all isSecurityDecimal &&
    execution.unitPrice.all isSecurityDecimal && execution.netCashAmount.all isMoney &&
    isCurrencyCode execution.currency && execution.settlementNetCashAmount.all isMoney &&
    isCurrencyCode execution.settlementCurrency && jsLength execution.sourceTradeType ≤ 400 &&
    jsLength execution.sourceTransactionType ≤ 400 &&
    execution.sourcePaymentType.all (fun text => jsLength text ≤ 400) &&
    isTimestamp execution.observedAt

def InvestmentSnapshot.accepted (snapshot : InvestmentSnapshot) : Bool :=
  isTimestamp snapshot.observedAt && snapshot.products.all (·.accepted host) &&
    snapshot.valuations.all (·.accepted host) && snapshot.activities.all (·.accepted host) &&
    snapshot.tracks.all (·.accepted host) && snapshot.executions.all (·.accepted host)

/-- `investmentSnapshotSchema.parse` -/
def parseSnapshot (input : InvestmentSnapshot) : Except InvestmentError InvestmentSnapshot :=
  if input.trimmed.accepted host then .ok input.trimmed else .error .schema

end

def InvestmentSourceState.accepted (state : InvestmentSourceState) : Bool :=
  state.lastAttemptAt.all isTimestamp && state.lastSuccessAt.all isTimestamp &&
    0 < state.staleAfterHours

/-- `investmentSourceStateSchema.parse` -/
def parseSourceState (state : InvestmentSourceState) :
    Except InvestmentError InvestmentSourceState :=
  if state.accepted then .ok state else .error .schema

/-- `clalSessionStateSchema.parse` -/
def parseSessionState (state : ClalSessionState) : Except InvestmentError ClalSessionState :=
  if state.lastCheckedAt.all isTimestamp && state.lastRenewedAt.all isTimestamp &&
      state.expiresAt.all isTimestamp then .ok state
  else .error .schema

/-- `z.iso.datetime().parse` -/
def parseTimestamp (value : String) : Except InvestmentError String :=
  if isTimestamp value then .ok value else .error .schema

/-- The digits of a fraction as `Date.parse` reads them: leading zeros are
skipped, and nine digits count. -/
def fractionNumeral (digits : List (Fin 10)) : Nat :=
  ((digits.dropWhile (·.val = 0)).take 9).foldl (fun n digit => n * 10 + digit.val) 0

/-- The milliseconds of a fraction: the numeral over the number of the digits,
of which nine count too, so a longer fraction with leading zeros is read as a
larger one. -/
def fractionMillis (digits : List (Fin 10)) : Nat :=
  fractionNumeral digits * 1000 / 10 ^ min digits.length 9

/-- Milliseconds since the epoch. -/
def millis (t : Timestamp) : Int :=
  t.minutes * 60000 + (t.second.val * 1000 + fractionMillis t.digits : ℕ)

/-- `Date.parse` of a timestamp the schema accepts. -/
def dateParse (value : String) : Option Int := (Timestamp.parse value).map millis

example : dateParse "1970-01-01T00:00:00.0019Z" = some 1 := by decide +kernel

example : dateParse "1970-01-01T00:00:00.0019000000Z" = some 19 := by decide +kernel

theorem parseSnapshot_ok {host : Host} {input snapshot : InvestmentSnapshot}
    (h : parseSnapshot host input = .ok snapshot) :
    snapshot = input.trimmed ∧ snapshot.accepted host = true := by
  unfold parseSnapshot at h
  split_ifs at h with haccepted
  obtain rfl := Except.ok.inj h
  exact ⟨rfl, haccepted⟩

end SimplefinBridge
