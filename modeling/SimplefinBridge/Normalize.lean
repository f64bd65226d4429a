import SimplefinBridge.Ids

/-!
# Normalizing a scrape

A scrape result of the bank library turned into ledger rows.  A scraped row is
kept as the JSON the library returns; rows without an amount or a date are
dropped, and the rows of each account get their ids together.
-/

namespace SimplefinBridge

/-! ## The library's result -/

structure ScrapedAccount where
  accountNumber : String
  txns : List Json
  /-- The account's other fields. -/
  fields : Json

structure ScraperScrapingResult where
  accounts : List ScrapedAccount

structure NormalizeInput where
  company : CompanyId
  config : CompanyConfig
  result : ScraperScrapingResult
  scrapedAt : Instant
  timezone : String
  defaultCurrency : String

/-- `MAX_DESCRIPTION_LENGTH` -/
def maxScrapedDescriptionLength : Nat := 500

/-! ## Values -/

def numericIsoCurrencies : List (String × String) :=
  [("376", "ILS"), ("840", "USD"), ("978", "EUR"), ("826", "GBP")]

def currencyAliases : List (String × String) :=
  [("₪", "ILS"), ("ש\"ח", "ILS"), ("ש״ח", "ILS"), ("שח", "ILS"), ("NIS", "ILS"), ("$", "USD"),
    ("US DOLLAR", "USD"), ("USDOLLAR", "USD"), ("€", "EUR"), ("£", "GBP")]

/-- What `.` does not match. -/
def isLineTerminator (c : Char) : Bool := c.val ∈ [0x0A, 0x0D, 0x2028, 0x2029]

/-- What a lookup finds in every object besides its own fields, as `String`
prints it.  The code returns the member itself, which the database refuses to
bind. -/
def inheritedMembers : List (String × String) :=
  ("__proto__", "[object Object]") ::
    ("constructor", "function Object() \x7b [native code] \x7d") ::
    ["hasOwnProperty", "isPrototypeOf", "propertyIsEnumerable", "toLocaleString", "toString",
      "valueOf", "__defineGetter__", "__defineSetter__", "__lookupGetter__",
      "__lookupSetter__"].map fun name =>
        (name, "function " ++ name ++ "() \x7b [native code] \x7d")

/-- `currencyAliases[name]` -/
def currencyAlias (name : String) : Option String :=
  (currencyAliases ++ inheritedMembers).lookup name

/-- `/^\(.*\)$/` -/
def isParenthesized (chars : List Char) : Bool :=
  2 ≤ chars.length && chars.head? = some '(' && chars.getLast? = some ')' &&
    chars.all fun c => !isLineTerminator c

/-- `replaceAll(/\s*\(.*\)\s*$/g, '')` on a trimmed text. -/
def withoutSymbol : List Char → List Char
  | [] => []
  | c :: cs => if isParenthesized ((c :: cs).dropWhile isJsSpace) then [] else c :: withoutSymbol cs

section
variable (host : Host)

/-- Currency strings, symbols and numeric codes to ISO 4217, else the
fallback. -/
def normalizeCurrencyCode (value : Option Json) (fallback : String) : String :=
  match value with
  | some (.num x) => (numericIsoCurrencies.lookup (host.numberToString x)).getD fallback
  | some (.str text) =>
      let trimmed := jsTrim text
      if trimmed ≠ "" ∧ trimmed.toList.all Char.isDigit then
        (numericIsoCurrencies.lookup trimmed).getD fallback
      else
        -- An ISO code followed by its symbol in parentheses.
        let upper := host.toUpperCase (String.ofList (withoutSymbol trimmed.toList))
        match (currencyAlias trimmed).or (currencyAlias upper) with
        | some code => code
        | none => if isCurrencyCode upper then upper else fallback
  | _ => fallback

/-- The calendar date of a timestamp in the time zone. -/
def toCalendarDate (value timezone : String) : Except BridgeError IsoDate :=
  match host.momentDate value timezone with
  | some date => .ok date
  | none => .error (.invalidTimestamp value)

/-- The number of a number or of a text that is not blank. -/
def toFiniteNumber (value : Option Json) : Option ℚ :=
  match value with
  | some (.num x) => some x
  | some (.str text) => if jsTrim text = "" then none else host.number text
  | _ => none

def toPositiveInteger (value : Option Json) : Option ℚ :=
  (toFiniteNumber host value).filter fun x => isSafeInteger x && 0 < x

/-- Trimmed text, or nothing when it is empty or missing. -/
def cleanText (value : Option Json) : Option String :=
  let text :=
    match value with
    | some (.num x) => host.numberToString x
    | some (.str text) => jsTrim text
    | _ => ""
  if text = "" then none else some text

/-- A timestamp field that is present and not empty. -/
def timestamp (value : Option Json) : Option String := (Json.asString value).filter (· ≠ "")

/-! ## Accounts -/

/-- The `accounts` filter of the company config, on trimmed texts. -/
def selectAccounts (accounts : List ScrapedAccount) (selector : Option (List String)) :
    List ScrapedAccount :=
  match selector with
  | none => accounts
  | some wanted =>
      accounts.filter fun account => jsTrim account.accountNumber ∈ wanted.map jsTrim

def normalizeBalance (balance : Option Json) : Option ℚ :=
  (toFiniteNumber host balance).map host.roundMoney

def normalizeAccount (scraped : ScrapedAccount) (input : NormalizeInput) :
    Except BridgeError LedgerAccount := do
  let accountNumber := jsTrim scraped.accountNumber
  let id ← accountId input.company accountNumber
  return {
    id
    company := input.company
    accountNumber
    kind := input.config.kind
    currency := normalizeCurrencyCode host (scraped.fields.field "currency") input.defaultCurrency
    name := input.config.label ++ " ····" ++ jsSliceLast 4 accountNumber
    balance := normalizeBalance host (scraped.fields.field "balance")
    balanceAt := some input.scrapedAt
    firstSeen := input.scrapedAt
    lastSeen := input.scrapedAt
    raw := scraped.fields }

/-! ## Transactions -/

/-- `value ?? fallback` -/
def nullish (value : Option Json) (fallback : Json) : Json := (value.filter (· ≠ .null)).getD fallback

/-- The currency of a row: the charged one, else the account's. -/
def rowCurrency (row : Json) (account : LedgerAccount) : String :=
  normalizeCurrencyCode host (nullish (row.field "chargedCurrency") (.str account.currency))
    account.currency

/-- The original currency of a row that has the field; `null` is no currency
and stands for the row's own. -/
def rowOriginalCurrency (row : Json) (account : LedgerAccount) : Option String :=
  (row.field "originalCurrency").map fun original =>
    normalizeCurrencyCode host original (rowCurrency host row account)

/-- The charged amount, else the original one in the row's own currency. -/
def rowAmount (row : Json) (account : LedgerAccount) : Option ℚ :=
  (toFiniteNumber host (row.field "chargedAmount")).or
    (if rowOriginalCurrency host row account = some (rowCurrency host row account) then
      toFiniteNumber host (row.field "originalAmount") else none)

/-- One scraped row to a ledger row without id; nothing when it has no usable
amount or no date. -/
def normalizeTransaction (row : Json) (account : LedgerAccount) (input : NormalizeInput) :
    Except BridgeError (Option TransactionFields) :=
  match rowAmount host row account, timestamp (row.field "date") with
  | some amount, some date => do
      let processedDate ← (timestamp (row.field "processedDate")).mapM
        (toCalendarDate host · input.timezone)
      let purchaseDate ← toCalendarDate host date input.timezone
      return some {
        accountId := account.id
        company := input.company
        identifier := normalizeIdentifier host (row.field "identifier")
        bookedDate := if input.config.dateMode = .charge then processedDate.getD purchaseDate
          else purchaseDate
        chargeDate := processedDate
        amount
        currency := rowCurrency host row account
        description := (JsText.ofString
          (jsTrim ((Json.asString (row.field "description")).getD ""))).slice
            maxScrapedDescriptionLength
        memo := (cleanText host (row.field "memo")).map JsText.ofString
        status := if row.field "status" = some (.str "pending") then .pending else .posted
        installmentNumber :=
          toPositiveInteger host ((row.field "installments").bind (·.field "number"))
        installmentTotal :=
          toPositiveInteger host ((row.field "installments").bind (·.field "total"))
        originalAmount := toFiniteNumber host (row.field "originalAmount")
        originalCurrency := rowOriginalCurrency host row account
        category := (cleanText host (row.field "category")).map JsText.ofString
        synthetic := false
        firstSeen := input.scrapedAt
        lastSeen := input.scrapedAt
        idSchemeVersion
        raw := row }
  | _, _ => .ok none

/-- The rows of an account that `normalizeTransactions` gives ids to. -/
def preparedRows (rows : List Json) (account : LedgerAccount) (input : NormalizeInput) :
    Except BridgeError (List TransactionFields) := do
  let prepared ← rows.mapM fun row => normalizeTransaction host row account input
  return prepared.reduceOption

def normalizeTransactions (rows : List Json) (account : LedgerAccount) (input : NormalizeInput) :
    Except BridgeError (List LedgerTransaction) := do
  assignTransactionIds host (← preparedRows host rows account input)

/-- The library exposes no holdings. -/
def normalizeHoldings (_ : ScrapedAccount) (_ : LedgerAccount) : List LedgerHolding := []

/-- One account of the result, with its rows. -/
def normalizeScraped (input : NormalizeInput) (scraped : ScrapedAccount) :
    Except BridgeError (LedgerAccount × List LedgerTransaction × List LedgerHolding) := do
  let account ← normalizeAccount host scraped input
  let transactions ← normalizeTransactions host scraped.txns account input
  return (account, transactions, normalizeHoldings scraped account)

/-- A full scrape result to accounts, transactions with ids, and holdings. -/
def normalizeScrapeResult (input : NormalizeInput) : Except BridgeError SourceFetchResult := do
  let parts ← (selectAccounts input.result.accounts input.config.accounts).mapM
    (normalizeScraped host input)
  return { accounts := parts.map (·.1)
           transactions := parts.flatMap (·.2.1)
           holdings := parts.flatMap (·.2.2)
           scrapedAt := input.scrapedAt }

end

end SimplefinBridge
