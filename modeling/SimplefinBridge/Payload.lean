import SimplefinBridge.FeedDates
import SimplefinBridge.SqliteLedger

/-!
# The accounts feed

`GET /simplefin/accounts`: query parsing and the payload built from the
ledger.  A row is in the window when its transaction date is, or when the
bridge first saw it, or saw it posted, inside the window; the end bound
applies to the date in both cases.
-/

namespace SimplefinBridge

/-! ## Query parsing -/

structure AccountsQuery where
  version : Option String := none
  /-- Epoch seconds, inclusive. -/
  startDate : Option Epoch := none
  /-- Epoch seconds, exclusive. -/
  endDate : Option Epoch := none
  pending : Bool
  balancesOnly : Bool
  accountIds : Option (List String) := none
  deriving DecidableEq

section
variable (host : Host)

/-- Unparseable and out-of-range epochs are ignored. -/
def parseEpoch (value : Option String) : Option Epoch :=
  match value with
  | none => none
  | some text =>
      if jsTrim text = "" then none
      else
        match host.number text with
        | none => none
        | some number =>
            if h : 0 ≤ number ∧ number ≤ (maxEpochSeconds : ℚ) then
              some ⟨⌊number⌋.toNat, by
                have hfloor : ⌊number⌋ ≤ (maxEpochSeconds : Int) := by
                  exact_mod_cast (Int.floor_le number).trans h.2
                omega⟩
            else none

def isTruthyFlag (value : Option String) : Bool :=
  value.any fun text => ["1", "true", "yes"].contains (host.toLowerCase (jsTrim text))

/-- `URLSearchParams.get` and `getAll` on the decoded pairs. -/
def parseAccountsQuery (parameters : List (String × String)) : AccountsQuery :=
  let get := fun name => parameters.lookup name
  let accountIds := ((parameters.filter fun p => p.1 = "account").map fun p => jsTrim p.2).filter
    (· ≠ "")
  { version := ((get "version").map jsTrim).filter (· ≠ "")
    startDate := parseEpoch host (get "start-date")
    endDate := parseEpoch host (get "end-date")
    pending := isTruthyFlag host (get "pending")
    balancesOnly := isTruthyFlag host (get "balances-only")
    accountIds := if accountIds.length > 0 then some accountIds else none }

end

/-- Calendar-date window implied by the epoch bounds. -/
structure DateWindow where
  /-- Inclusive. -/
  fromDate : Option IsoDate
  /-- Exclusive. -/
  toDate : Option IsoDate
  deriving DecidableEq, Repr

def windowDates (query : AccountsQuery) : Option DateWindow :=
  if query.startDate.isNone && query.endDate.isNone then none
  else some ⟨query.startDate.map windowStartDate, query.endDate.map windowEndDate⟩

/-! ## Formatting -/

section
variable (host : Host)

/-- Signed decimal string with exactly two decimals. -/
def formatAmount (value : ℚ) : String :=
  let fixed := host.toFixed2 value
  if fixed = "-0.00" then "0.00" else fixed

def formatOptionalNumber (value : Option ℚ) : Option String := value.map host.numberToString

/-- Exactly three ASCII letters, upper-cased; otherwise the fallback. -/
def normalizeCurrency (value fallback : String) : String :=
  let trimmed := host.toUpperCase (jsTrim value)
  if isCurrencyCode trimmed then trimmed else fallback

end

def truncate (value : JsText) (max : Nat) : JsText :=
  let trimmed := value.trim
  if trimmed.length > max then trimmed.slice max else trimmed

def maxNameLength : Nat := 255

def maxDescriptionLength : Nat := 500

/-- `text || fallback` -/
def orElseText (text fallback : String) : String := if text = "" then fallback else text

/-! ## Organisations -/

structure OrgInfo where
  name : String
  url : String
  deriving DecidableEq, Repr

/-- `ORGS` -/
def orgs : List (CompanyId × OrgInfo) := [
  ("hapoalim", ⟨"Bank Hapoalim", "https://www.bankhapoalim.co.il"⟩),
  ("beinleumi", ⟨"First International Bank (Beinleumi)", "https://www.fibi.co.il"⟩),
  ("union", ⟨"Union Bank", "https://www.unionbank.co.il"⟩),
  ("amex", ⟨"American Express Israel", "https://www.americanexpress.co.il"⟩),
  ("isracard", ⟨"Isracard", "https://www.isracard.co.il"⟩),
  ("visaCal", ⟨"Visa Cal", "https://www.cal-online.co.il"⟩),
  ("max", ⟨"Max", "https://www.max.co.il"⟩),
  ("otsarHahayal", ⟨"Bank Otsar Hahayal", "https://www.bankotsar.co.il"⟩),
  ("discount", ⟨"Discount Bank", "https://www.discountbank.co.il"⟩),
  ("mercantile", ⟨"Mercantile Bank", "https://www.mercantile.co.il"⟩),
  ("mizrahi", ⟨"Mizrahi-Tefahot Bank", "https://www.mizrahi-tefahot.co.il"⟩),
  ("leumi", ⟨"Bank Leumi", "https://www.leumi.co.il"⟩),
  ("massad", ⟨"Bank Massad", "https://www.bankmassad.co.il"⟩),
  ("yahav", ⟨"Bank Yahav", "https://www.bank-yahav.co.il"⟩),
  ("behatsdaa", ⟨"Behatsdaa", "https://www.behatsdaa.org.il"⟩),
  ("beyahadBishvilha", ⟨"Beyahad Bishvilha", "https://www.hist.org.il"⟩),
  ("oneZero", ⟨"One Zero Digital Bank", "https://www.onezerobank.com"⟩),
  ("pagi", ⟨"Bank Pagi", "https://www.pagi.co.il"⟩)]

def orgFor (company : CompanyId) : OrgInfo :=
  (orgs.lookup company).getD ⟨company, "https://github.com/eshaham/israeli-bank-scrapers"⟩

/-- Host name of an organisation's URL. -/
def orgDomain (org : OrgInfo) : String :=
  String.ofList ((org.url.toList.drop 8).takeWhile (· ≠ '/'))

structure SimpleFinOrg where
  id : CompanyId
  name : JsText
  domain : String
  url : String
  sfinUrl : String
  deriving DecidableEq, Repr

structure SimpleFinConnection where
  connId : CompanyId
  name : JsText
  orgId : CompanyId
  orgUrl : String
  sfinUrl : String
  deriving DecidableEq, Repr

def sfinUrl (config : Config) : String := config.publicUrl ++ "/simplefin"

def connectionFor (company : CompanyId) (companyConfig : CompanyConfig) (config : Config) :
    SimpleFinConnection where
  connId := company
  name := truncate (orElseText companyConfig.label (orgFor company).name) maxNameLength
  orgId := company
  orgUrl := (orgFor company).url
  sfinUrl := sfinUrl config

def orgObjectFor (company : CompanyId) (companyConfig : CompanyConfig) (config : Config) :
    SimpleFinOrg where
  id := company
  name := truncate (orElseText companyConfig.label (orgFor company).name) maxNameLength
  domain := orgDomain (orgFor company)
  url := (orgFor company).url
  sfinUrl := sfinUrl config

/-! ## Rows -/

inductive ArchiveOrigin
  | actual_archive | sure_archive
  deriving DecidableEq, Repr

structure SourceProvenance where
  origin : ArchiveOrigin
  sourceRecordId : String
  deriving DecidableEq, Repr

structure TransactionExtra where
  identifier : Option String
  chargeDate : Option IsoDate
  transactionDate : Option IsoDate
  transactionDateKind : Option TransactionDateKind
  sourceProvenance : Option SourceProvenance
  /-- Number and total. -/
  installment : Option (ℚ × Option ℚ)
  originalAmount : Option String
  originalCurrency : Option String
  category : Option JsText
  status : TransactionStatus
  synthetic : Option Bool
  deriving DecidableEq

structure SimpleFinTransaction where
  id : String
  /-- Epoch seconds at 12:00 UTC of the transaction date; 0 while pending. -/
  posted : Option Int
  transactedAt : Option Int
  amount : String
  description : JsText
  payee : JsText
  memo : Option JsText
  pending : Bool
  currency : String
  extra : TransactionExtra
  deriving DecidableEq

structure SimpleFinHolding where
  id : String
  marketValue : String
  description : String
  symbol : Option String
  currency : String
  shares : Option String
  purchasePrice : Option String
  costBasis : Option String
  deriving DecidableEq, Repr

section
variable (host : Host)

/-- Expose only the archive's identity. -/
def sourceProvenance (row : LedgerTransaction) : Option SourceProvenance :=
  if row.synthetic then none
  else
    (archiveWrapper host row.raw).map fun archive =>
      { origin := if Json.asString (archive.field "origin") = some "actual" then .actual_archive
          else .sure_archive
        sourceRecordId := String.ofList
          (((Json.asString (archive.field "originRowId")).getD "").toList.map Char.toLower) }

/-- Ledger transaction to SimpleFIN transaction. -/
def toSimpleFinTransaction (row : LedgerTransaction) (accountCurrency : String)
    (occurrence : TransactionDate) : SimpleFinTransaction :=
  let pending := row.status = .pending
  let bookedEpoch := calendarDateToPostedEpoch host occurrence.date
  let truncated := truncate row.description maxDescriptionLength
  let description := if truncated = "" then ("Transaction" : JsText) else truncated
  { id := row.id
    posted := if pending then some 0 else bookedEpoch
    transactedAt := bookedEpoch
    amount := formatAmount host row.amount
    description
    payee := description
    memo := (row.memo.map JsText.trim).filter (· ≠ "")
    pending
    currency := normalizeCurrency host row.currency accountCurrency
    extra :=
      { identifier := row.identifier
        chargeDate := occurrence.chargeDate
        transactionDate := if occurrence.kind.isSome then some occurrence.date else none
        transactionDateKind := occurrence.kind
        sourceProvenance := sourceProvenance host row
        installment := row.installmentNumber.map fun number => (number, row.installmentTotal)
        originalAmount := formatOptionalNumber host row.originalAmount
        originalCurrency := row.originalCurrency
        category := row.category
        status := row.status
        synthetic := if row.synthetic then some true else none } }

/-- Ledger holding to SimpleFIN holding. -/
def toSimpleFinHolding (row : LedgerHolding) (accountCurrency : String) : SimpleFinHolding where
  id := row.id
  marketValue := formatAmount host row.marketValue
  description := orElseText row.description (orElseText (row.symbol.getD "") row.id)
  symbol := row.symbol
  currency := normalizeCurrency host row.currency accountCurrency
  shares := formatOptionalNumber host row.shares
  purchasePrice := formatOptionalNumber host row.purchasePrice
  costBasis := formatOptionalNumber host row.costBasis

/-! ## Window membership -/

/-- The instant lies in the epoch window; without a start bound none does. -/
def seenInWindow (query : AccountsQuery) (seen : Instant) : Bool :=
  query.startDate.any (fun start => start.val * 1000 ≤ seen) &&
    query.endDate.all (fun stop => seen < stop.val * 1000)

/-- The bridge first saw the row, or first observed it posted, inside the
window. -/
def firstSeenInWindow (row : LedgerTransaction) (query : AccountsQuery) : Bool :=
  seenInWindow query row.firstSeen || row.postedSeenAt.any (seenInWindow query)

/-- A pending row is current only while the latest scrape of its account still
reported it. -/
def isCurrentPending (row : LedgerTransaction) (account : LedgerAccount) : Bool :=
  row.status ≠ .pending || account.lastSeen ≤ row.lastSeen

/-- A row of the account in the window. -/
def inWindow (window : DateWindow) (query : AccountsQuery) (row : LedgerTransaction)
    (occurrence : TransactionDate) : Bool :=
  window.toDate.all (fun stop => jsLess occurrence.date stop) &&
    (window.fromDate.all (fun start => !jsLess occurrence.date start) ||
      firstSeenInWindow row query)

/-- `a.occurrence.date.localeCompare(b.occurrence.date) || a.row.id.localeCompare(b.row.id)` -/
def occurrenceBefore (a b : LedgerTransaction × TransactionDate) : Bool :=
  ((host.localeCompare a.2.date b.2.date).then (host.localeCompare a.1.id b.1.id)).isLE

variable (config : Config)

/-- The rows of an account that a query serves, with their dates. -/
def servedRows (account : LedgerAccount) (companyConfig : CompanyConfig) (query : AccountsQuery)
    (ledger : Ledger) : List (LedgerTransaction × TransactionDate) :=
  match windowDates query with
  | none => []
  | some window =>
      if query.balancesOnly then []
      else
        let rows := listTransactions
          { accountIds := some [account.id]
            includePending := query.pending && companyConfig.includePending
            includeSynthetic := true } ledger
        let current := rows.filter fun row => isCurrentPending row account
        let dated := current.map fun row =>
          (row, transactionDate host row config.timezone (account.kind = .credit_card))
        (dated.filter fun d => inWindow window query d.1 d.2).insertionSort
          fun a b => occurrenceBefore host a b

def transactionsFor (account : LedgerAccount) (currency : String) (companyConfig : CompanyConfig)
    (query : AccountsQuery) (ledger : Ledger) : List SimpleFinTransaction :=
  (servedRows host config account companyConfig query ledger).map fun d =>
    toSimpleFinTransaction host d.1 currency d.2

end

/-! ## Accounts -/

inductive BalanceSemantics
  | next_statement_debit | balance
  deriving DecidableEq, Repr

structure AccountExtra where
  kind : AccountKind
  company : CompanyId
  accountNumber : String
  balanceSemantics : Option BalanceSemantics
  deriving DecidableEq, Repr

structure SimpleFinAccount where
  id : String
  name : JsText
  connId : CompanyId
  org : SimpleFinOrg
  currency : String
  balance : String
  balanceDate : Int
  transactions : List SimpleFinTransaction
  holdings : List SimpleFinHolding
  extra : AccountExtra
  deriving DecidableEq

inductive ErrorCode
  /-- `con.failed` -/
  | connectionFailed
  /-- `act.failed` -/
  | accountFailed
  /-- `act.balance_unavailable` -/
  | balanceUnavailable
  deriving DecidableEq, Repr

/-- `ERROR_MESSAGES` -/
def ErrorCode.message : ErrorCode → String
  | .connectionFailed =>
      "This bank connection is paused on the bridge and needs operator attention."
  | .accountFailed =>
      "Bank data on the bridge is stale; the last successful refresh is older than expected."
  | .balanceUnavailable => "The bank did not report a balance for this account; 0.00 is shown."

structure SimpleFinError where
  code : ErrorCode
  msg : String
  connId : Option CompanyId
  accountId : Option String
  deriving DecidableEq, Repr

structure SimpleFinResponse where
  errlist : List SimpleFinError
  errors : List String
  connections : List SimpleFinConnection
  accounts : List SimpleFinAccount
  deriving DecidableEq

section
variable (host : Host) (config : Config) (query : AccountsQuery) (now : Instant)

def balanceSemantics (account : LedgerAccount) : Option BalanceSemantics :=
  if account.company = "visaCal" ∧ account.kind = .credit_card then some .next_statement_debit
  else if account.company = "hapoalim" ∧ account.kind = .checking then some .balance
  else none

/-- The suffix of an account without a balance. -/
def nameSuffix (account : LedgerAccount) : String :=
  if account.balance.isNone then " (balance unavailable)" else ""

def toSimpleFinAccount (account : LedgerAccount) (companyConfig : CompanyConfig) (ledger : Ledger) :
    SimpleFinAccount :=
  let currency := normalizeCurrency host account.currency config.currency
  { id := account.id
    name := truncate (orElseText (jsTrim account.name) account.id)
      (maxNameLength - jsLength (nameSuffix account)) ++ nameSuffix account
    connId := account.company
    org := orgObjectFor account.company companyConfig config
    currency
    balance := formatAmount host (account.balance.getD 0)
    balanceDate := toEpochSeconds (account.balanceAt.getD now)
    transactions := transactionsFor host config account currency companyConfig query ledger
    holdings := (listHoldings account.id ledger).map fun row => toSimpleFinHolding host row currency
    extra := { kind := account.kind, company := account.company,
               accountNumber := account.accountNumber,
               balanceSemantics := balanceSemantics account } }

/-- The warning of an account without a balance. -/
def balanceErrors (account : LedgerAccount) : List SimpleFinError :=
  if account.balance.isNone then
    [⟨.balanceUnavailable, ErrorCode.balanceUnavailable.message, none, some account.id⟩]
  else []

/-! ## Companies -/

def isStale (state : Option SourceState) : Bool :=
  match state.bind (·.lastSuccessAt) with
  | none => true
  | some last => now - last > config.staleHours * 3600000

/-- Entries for a company that is parked or whose data is stale. -/
def companyErrors (company : CompanyId) (accounts : List LedgerAccount) (ledger : Ledger) :
    List SimpleFinError :=
  let state := ledger.sourceStates.find company
  if state.any (·.parked) then
    [⟨.connectionFailed, ErrorCode.connectionFailed.message, some company, none⟩]
  else if isStale config now state then
    accounts.map fun account =>
      ⟨.accountFailed, ErrorCode.accountFailed.message, some company, some account.id⟩
  else []

/-- Enabled companies from the config, in config order. -/
def enabledCompanies : List (CompanyId × CompanyConfig) :=
  config.companies.filter fun entry => entry.2.enabled

/-- The accounts of a company that the query asks for. -/
def selectedAccounts (company : CompanyId) (ledger : Ledger) : List LedgerAccount :=
  (listAccounts company ledger).filter fun account => query.accountIds.all (account.id ∈ ·)

/-- Build the `/accounts` payload: one connection per enabled company, even
before its first scrape. -/
def buildAccountsResponse (ledger : Ledger) : SimpleFinResponse :=
  let companies := enabledCompanies config
  let errlist := companies.flatMap fun entry =>
    let selected := selectedAccounts query entry.1 ledger
    companyErrors config now entry.1 selected ledger ++ selected.flatMap balanceErrors
  { errlist
    errors := errlist.map (·.msg)
    connections := companies.map fun entry => connectionFor entry.1 entry.2 config
    accounts := companies.flatMap fun entry =>
      (selectedAccounts query entry.1 ledger).map fun account =>
        toSimpleFinAccount host config query now account entry.2 ledger }

end

end SimplefinBridge
