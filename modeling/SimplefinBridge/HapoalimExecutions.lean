import SimplefinBridge.HapoalimPages
import SimplefinBridge.JsonStrings
import SimplefinBridge.Library.Pairings
import SimplefinBridge.ProviderValues

/-!
# Executions of Hapoalim

A row of the history becomes one execution.  The source gives rows no identity,
so an execution is named by a hash of what the row says of the deal, and two
rows that say the same are never merged: `buildHapoalimSnapshot` rather refuses
the whole history.
-/

namespace SimplefinBridge

open Transactional (except_bind_ok exists_ok_of_any)

/-! ## Readers -/

/-- `record` of the parser -/
def hapoalimRecord (value : JsValue) : Except HapoalimError HapoalimFields :=
  match value with
  | .object fields => .ok fields
  | _ => invalid

/-- `text(value)` -/
def hapoalimText (value : JsValue) : Except HapoalimError String :=
  match value with
  | .string text => if jsTrim text = "" then invalid else .ok (jsTrim text)
  | _ => invalid

/-- A reader that takes `null` for `none`. -/
def nullable {α : Type} (read : JsValue → Except HapoalimError α) (value : JsValue) :
    Except HapoalimError (Option α) :=
  match value with
  | .null => .ok none
  | _ => (read value).map some

/-- `/^\d{4}-\d{2}-\d{2}T\d{2}:\d{2}:\d{2}\.\d{7}(?:[+-]\d{2}:\d{2})?$/` -/
def isSourceTime (text : List Char) : Bool :=
  let time := "dddd-dd-ddTdd:dd:dd.ddddddd".toList
  hasShape time text || hasShape (time ++ "+dd:dd".toList) text ||
    hasShape (time ++ "-dd:dd".toList) text

/-- The day that ten characters name. -/
def namedDay (date : List Char) : CivilDays.CivilDate :=
  ⟨Nat.ofDigitChars 10 (date.take 4) 0, Nat.ofDigitChars 10 ((date.drop 5).take 2) 0,
    Nat.ofDigitChars 10 ((date.drop 8).take 2) 0⟩

/-- The date of a source time, if it is one of the calendar; the host carries a
day that the month does not have over to the next one, and throws at other
days. -/
def checkedDay (date : List Char) : Except HapoalimError IsoDate :=
  let day := namedDay date
  if jsLess (String.ofList date) "1900-01-01" then invalid
  else if day.month < 1 ∨ 12 < day.month ∨ day.day < 1 ∨ 31 < day.day then .error .rangeError
  else if day.Valid then .ok (String.ofList date)
  else invalid

/-- `calendarDate(value)` -/
def hapoalimDate (value : JsValue) : Except HapoalimError IsoDate :=
  match value with
  | .string text =>
      if isSourceTime text.toList then checkedDay (text.toList.take 10) else invalid
  | _ => invalid

/-- `calendarDate(value, true)`: no date is written as the first of all. -/
def nullableDate (value : JsValue) : Except HapoalimError (Option IsoDate) :=
  match value with
  | .null => .ok none
  | .string text =>
      if isSourceTime text.toList ∧ text.toList.take 10 = "0001-01-01".toList then .ok none
      else (hapoalimDate value).map some
  | _ => invalid

def currencies : List (String × String) := [
  ("שקל חדש", "ILS"), ("דולר ארה\x22ב", "USD"), ("אירו", "EUR"), ("לירה שטרלינג", "GBP"),
  ("ין יפני", "JPY"), ("ILS", "ILS"), ("USD", "USD"), ("EUR", "EUR"), ("GBP", "GBP"),
  ("JPY", "JPY")]

def executionKinds : List (String × ExecutionKind) := [
  ("קניה", .buy), ("מכירה", .sell), ("דבידנד תשלום", .dividend), ("ריבית תשלום", .interest),
  ("פדיון", .redemption), ("הטבה חלוקת מניות", .stock_bonus),
  ("העברה לזכות הפקדון", .transfer_in), ("העברה לחובת הפקדון", .transfer_out),
  ("העברה לזכות הפקדון (דו צדדית)", .transfer_in),
  ("העברה לחובת הפקדון (דו צדדית)", .transfer_out)]

def hapoalimCurrency (value : JsValue) : Except HapoalimError String :=
  match value with
  | .string text => (currencies.lookup text).elim invalid .ok
  | _ => invalid

section
variable (host : Host)

mutual
/-- `String(value)`; no number that is not finite is written in digits. -/
def jsString : JsValue → String
  | .undefined => "undefined"
  | .null => "null"
  | .bool value => if value then "true" else "false"
  | .number (some x) => host.numberToString x
  | .number none => "Infinity"
  | .string text => text
  | .array items => ",".intercalate (jsStrings items)
  | .object _ => "[object Object]"

/-- The items of an array; `undefined` and `null` are written as nothing. -/
def jsStrings : List JsValue → List String
  | [] => []
  | item :: items =>
      (match item with
        | .undefined | .null => ""
        | _ => jsString item) :: jsStrings items
end

/-- `String(Number(text))` of a run of digits. -/
def digitsText (text : List Char) : String :=
  ((host.number (String.ofList text)).map host.numberToString).getD "Infinity"

/-- `/^\d+-\d+-\d+$/`, as the branch and the account. -/
def selectorParts (accountSelector : String) : Option (List Char × List Char) :=
  match accountSelector.toList.splitOn '-' with
  | [bank, branch, account] =>
      if [bank, branch, account].all fun part => part ≠ [] && part.all Char.isDigit then
        some (branch, account)
      else none
  | _ => none

/-- What was asked for; `toDate` is the last day of the window. -/
structure HapoalimWindow where
  accountSelector : String
  fromDate : IsoDate
  toDate : IsoDate
  observedAt : String

def HapoalimWindow.securities (window : HapoalimWindow) : String :=
  window.accountSelector ++ ":securities"

/-- The row is of the account that was asked for. -/
def isOwnRow (window : HapoalimWindow) (row : HapoalimFields) : Bool :=
  (selectorParts window.accountSelector).any fun parts =>
    jsString host (JsValue.get row "Branch") = digitsText host parts.1 &&
      jsString host (JsValue.get row "Account") = digitsText host parts.2

/-- `row.EngName ?? row.HebName` -/
def executionName (row : HapoalimFields) : JsValue :=
  match JsValue.get row "EngName" with
  | .undefined | .null => JsValue.get row "HebName"
  | name => name

def isCancelled (row : HapoalimFields) : Except HapoalimError Bool :=
  match (JsValue.get row "IsCancelTransaction").asText with
  | some text => if text = "כן" then .ok true else if text = "לא" then .ok false else invalid
  | none => invalid

/-- `investmentExecutionSchema.parse` -/
def parseExecution (execution : InvestmentExecution) : Except HapoalimError InvestmentExecution :=
  if execution.trimmed.accepted host then .ok execution.trimmed else .error .schema

/-- What a row says, before the schema has seen it. -/
def readExecution (window : HapoalimWindow) (value : JsValue) :
    Except HapoalimError InvestmentExecution := do
  let row ← hapoalimRecord value
  if ¬ isOwnRow host window row then invalid
  else
    let productId ← (investmentProductId window.securities .hapoalim).mapError .identifier
    let tradeDate ← hapoalimDate (JsValue.get row "TradeDate")
    if jsLess tradeDate window.fromDate || jsLess window.toDate tradeDate then invalid
    else
      let cancelled ← isCancelled row
      let valueDate ← nullableDate (JsValue.get row "ValueDate")
      let settlementDate ← nullableDate (JsValue.get row "SettlementDate")
      let cancelDate ← nullableDate (JsValue.get row "CancelDate")
      if cancelled ∧ cancelDate = none then invalid
      else
        let securityId ← hapoalimText (JsValue.get row "Security")
        let sourceTradeType ← hapoalimText (JsValue.get row "TradeType")
        let sourceTransactionType ← hapoalimText (JsValue.get row "TransactionType")
        let sourcePaymentType ← nullable hapoalimText (JsValue.get row "PaymentType")
        let quantity ← (sourceDecimal host (JsValue.get row "NV") true).mapError .code
        let unitPrice ← (sourceDecimal host (JsValue.get row "TradePrice") true).mapError .code
        let netCashAmount ← (money host (JsValue.get row "NetValueTradeCurrency")).mapError .code
        let paymentDate ← nullableDate (JsValue.get row "PaymentDate")
        let exDate ← nullableDate (JsValue.get row "ExDate")
        let identity := Json.arr [
          .str window.accountSelector,
          .str securityId,
          .str tradeDate,
          jsonOptional valueDate,
          jsonOptional settlementDate,
          .str sourceTradeType,
          .str sourceTransactionType,
          jsonOptional quantity,
          jsonOptional unitPrice,
          jsonOptional netCashAmount,
          jsonOptional sourcePaymentType,
          jsonOptional paymentDate,
          jsonOptional exDate,
          jsonOptional cancelDate]
        let sourceId := "natural-key-v1:" ++
          host.sha256 (String.ofList (identity.stringify host))
        let id ← (investmentExecutionId productId sourceId).mapError .identifier
        let isin ← nullable hapoalimText (JsValue.get row "ISIN")
        let symbol ← nullable hapoalimText (JsValue.get row "Symbol")
        let name ← hapoalimText (executionName row)
        let currency ← hapoalimCurrency (JsValue.get row "TradeCurrency")
        let settlementNetCashAmount ←
          (money host (JsValue.get row "NetValueSettlementCurrency")).mapError .code
        let settlementCurrency ← hapoalimCurrency (JsValue.get row "SettlementCurrency")
        return {
          id, productId, sourceId, kind := (executionKinds.lookup sourceTradeType).getD .other
          securityId, isin, symbol, name, tradeDate, valueDate, settlementDate, cancelDate
          cancelled, quantity, unitPrice, netCashAmount, currency, settlementNetCashAmount
          settlementCurrency, sourceTradeType, sourceTransactionType, sourcePaymentType
          observedAt := window.observedAt }

def parseHapoalimExecution (window : HapoalimWindow) (value : JsValue) :
    Except HapoalimError InvestmentExecution := do
  parseExecution host (← readExecution host window value)

/-! ## The snapshot -/

/-- `HapoalimSecuritiesRead` -/
structure HapoalimSecuritiesRead where
  portfolio : JsValue
  history : HistoryRead

/-- The metadata of the portfolio, which is only looked at. -/
def checkMetadata (portfolio : JsValue) : Except HapoalimError Unit := do
  let fields ← hapoalimRecord portfolio
  let view ← hapoalimRecord (JsValue.get fields "View")
  let metadata ← hapoalimRecord (JsValue.get view "Meta")
  match JsValue.get metadata "Security" with
  | .undefined | .array _ => return ()
  | _ => invalid

def securitiesProduct (window : HapoalimWindow) (productId : String) : InvestmentProduct where
  id := productId
  provider := .hapoalim
  providerProductId := window.securities
  kind := .investment
  name := "Hapoalim Investments"
  currency := "ILS"
  currentValuationId := none
  liquidity := ⟨.unknown, none, none⟩
  coverage := ⟨.unavailable, .unavailable, .unavailable, some .partially⟩
  forecast := none
  reportSummaries := none

/-- Position metadata alone proves neither current value nor an empty portfolio. -/
def buildHapoalimSnapshot (read : HapoalimSecuritiesRead) (window : HapoalimWindow) :
    Except HapoalimError InvestmentSnapshot := do
  checkMetadata read.portfolio
  let productId ← (investmentProductId window.securities .hapoalim).mapError .identifier
  let executions ← read.history.executions.mapM (parseHapoalimExecution host window)
  if ¬ (executions.map (·.id)).Nodup ∨ read.history.paginationComplete = false then
    .error (.code .INCOMPLETE_RESPONSE)
  else
    (parseSnapshot host {
      observedAt := window.observedAt, complete := true, inventoryComplete := false
      products := [securitiesProduct window productId]
      valuations := [], activities := [], tracks := [], executions }).mapError fun _ => .schema

end

/-! ## One execution for each row -/

section
variable {host : Host} {window : HapoalimWindow}

theorem parseHapoalimExecution_trimmed {value : JsValue} {execution : InvestmentExecution}
    (h : parseHapoalimExecution host window value = .ok execution) :
    execution.trimmed = execution := by
  obtain ⟨fields, -, h⟩ := except_bind_ok.mp h
  unfold parseExecution at h
  split_ifs at h
  rw [← Except.ok.inj h]
  exact trimmed_trimmed_execution fields

/-- What a snapshot says of the history that was read. -/
structure OneForEachRow (host : Host) (window : HapoalimWindow) (history : HistoryRead)
    (executions : List InvestmentExecution) : Prop where
  ended : history.paginationComplete = true
  inOrder : List.Forall₂ (fun row execution => parseHapoalimExecution host window row =
    .ok execution) history.executions executions
  distinct : (executions.map (·.id)).Nodup

theorem buildHapoalimSnapshot_ok {read : HapoalimSecuritiesRead} {snapshot : InvestmentSnapshot}
    (h : buildHapoalimSnapshot host read window = .ok snapshot) :
    OneForEachRow host window read.history snapshot.executions := by
  obtain ⟨-, -, h⟩ := except_bind_ok.mp h
  obtain ⟨productId, -, h⟩ := except_bind_ok.mp h
  obtain ⟨executions, hread, h⟩ := except_bind_ok.mp h
  by_cases hrefused : ¬ (executions.map (·.id)).Nodup ∨ read.history.paginationComplete = false
  · rw [if_pos hrefused] at h
    cases h
  rw [if_neg hrefused] at h
  rw [not_or, not_not, Bool.not_eq_false] at hrefused
  have hrows := Pairings.of_mapM_ok hread
  have htrimmed : executions.map (·.trimmed) = executions := by
    conv => rhs; rw [← List.map_id executions]
    refine List.map_congr_left fun execution hexecution => ?_
    obtain ⟨row, -, hrow⟩ := Transactional.exists_of_mapM_ok hread hexecution
    exact parseHapoalimExecution_trimmed hrow
  have hexecutions : snapshot.executions = executions := by
    cases hparse : parseSnapshot host {
      observedAt := window.observedAt, complete := true, inventoryComplete := false
      products := [securitiesProduct window productId]
      valuations := [], activities := [], tracks := [], executions } with
    | error e =>
        rw [hparse] at h
        cases h
    | ok parsed =>
        rw [hparse] at h
        rw [← Except.ok.inj h, (parseSnapshot_ok hparse).1]
        exact htrimmed
  rw [hexecutions]
  exact ⟨hrefused.2, hrows, hrefused.1⟩

end

/-- **Paging ends and is exact**: whatever pages the bank answers with, they
are read to an end, and a snapshot is made of them only if one of them had no
cursor; it then has one execution for each row. -/
theorem execution_paging (host : Host) (fetchPage : FetchPage)
    (aborted : List (Option String) → Bool)
    (hfetch : ∀ asked, ∃ value page, fetchPage asked = .ok value ∧ historyPage value = .ok page)
    (hrunning : ∀ asked, aborted asked = false) :
    ∃ read asked pages, readExecutionPages fetchPage aborted = .ok (read, asked) ∧
      ReadsPages fetchPage aborted read asked pages ∧
      ∀ portfolio window snapshot,
        buildHapoalimSnapshot host ⟨portfolio, read⟩ window = .ok snapshot →
          (∃ page ∈ pages, page.next = none) ∧
            OneForEachRow host window read snapshot.executions := by
  obtain ⟨read, asked, hread⟩ := readExecutionPages_isOk hfetch hrunning
  obtain ⟨pages, hpages⟩ := readExecutionPages_ok hread
  refine ⟨read, asked, pages, hread, hpages, ?_⟩
  intro portfolio window snapshot hsnapshot
  have hrows := buildHapoalimSnapshot_ok hsnapshot
  exact ⟨hpages.complete.mp hrows.ended, hrows⟩

/-! ## A history of two pages -/

/-- A purchase in April. -/
def examplePurchase : JsValue := .object [
  ("Branch", .number (some 345)), ("Account", .number (some 678901)),
  ("TradeDate", .string "2026-04-02T00:00:00.0000000"), ("IsCancelTransaction", .string "לא"),
  ("ValueDate", .string "2026-04-02T00:00:00.0000000"), ("SettlementDate", .null),
  ("CancelDate", .string "0001-01-01T00:00:00.0000000"), ("Security", .string "1143718"),
  ("TradeType", .string "קניה"), ("TransactionType", .string "קניה בבורסה"),
  ("PaymentType", .null), ("NV", .string "12.50"), ("TradePrice", .string "1043.7"),
  ("NetValueTradeCurrency", .string "-130.46"), ("PaymentDate", .null), ("ExDate", .null),
  ("ISIN", .string "IL0011437185"), ("Symbol", .null), ("EngName", .null),
  ("HebName", .string "קרן מדד"), ("TradeCurrency", .string "שקל חדש"),
  ("NetValueSettlementCurrency", .string "-130.46"), ("SettlementCurrency", .string "ILS")]

def exampleHistoryPage (rows : List JsValue) (cursor : List (String × JsValue)) : JsValue :=
  .object [("Account", .object (("Execution", .array rows) :: cursor))]

/-- A bank whose second page has no cursor, and no rows either. -/
def twoPages : FetchPage := fun asked =>
  .ok (if asked.getLast? = some (some "more") then exampleHistoryPage [] []
  else exampleHistoryPage [examplePurchase] [("PageState", .string "more")])

/-- A bank that always answers with the same cursor. -/
def endlessPages : FetchPage := fun _ =>
  .ok (exampleHistoryPage [.null] [("PageState", .string "more")])

def examplePortfolio : JsValue := .object [("View", .object [("Meta", .object [])])]

def exampleWindow : HapoalimWindow where
  accountSelector := "12-345-678901"
  fromDate := "2026-04-01"
  toDate := "2026-05-31"
  observedAt := "2026-06-01T06:00:00.000Z"

/-- It knows the digest of the natural key of the purchase. -/
def historyHost : Host :=
  { asciiHost with
    sha256 := fun text =>
      if text = "[\"12-345-678901\",\"1143718\",\"2026-04-02\",\"2026-04-02\",null," ++
        "\"קניה\",\"קניה בבורסה\",\"12.5\",\"1043.7\",\"-130.46\",null,null,null,null]"
      then "d46b1591539a87485a1948f079c2412aafee0f38bee4ff52c63c85caed896af3" else "" }

/-- The execution of the purchase. -/
def examplePurchased : InvestmentExecution where
  id := "hapoalim:12-345-678901%3Asecurities:execution:natural-key-v1%3A" ++
    "d46b1591539a87485a1948f079c2412aafee0f38bee4ff52c63c85caed896af3"
  productId := "hapoalim:12-345-678901%3Asecurities"
  sourceId := "natural-key-v1:d46b1591539a87485a1948f079c2412aafee0f38bee4ff52c63c85caed896af3"
  kind := .buy
  securityId := "1143718"
  isin := some "IL0011437185"
  symbol := none
  name := "קרן מדד"
  tradeDate := "2026-04-02"
  valueDate := some "2026-04-02"
  settlementDate := none
  cancelDate := none
  cancelled := false
  quantity := some "12.5"
  unitPrice := some "1043.7"
  netCashAmount := some "-130.46"
  currency := "ILS"
  settlementNetCashAmount := some "-130.46"
  settlementCurrency := "ILS"
  sourceTradeType := "קניה"
  sourceTransactionType := "קניה בבורסה"
  sourcePaymentType := none
  observedAt := "2026-06-01T06:00:00.000Z"

/-- Its product. -/
def exampleSecurities : InvestmentProduct :=
  securitiesProduct exampleWindow examplePurchased.productId

/-- What is made of the two pages. -/
def exampleSnapshot : InvestmentSnapshot where
  observedAt := "2026-06-01T06:00:00.000Z"
  complete := true
  inventoryComplete := false
  products := [exampleSecurities]
  valuations := []
  activities := []
  tracks := []
  executions := [examplePurchased]

/-- No text of it has white space at its ends, -/
theorem trimmed_examplePurchased : examplePurchased.trimmed = examplePurchased := by
  decide +kernel

/-- and the schema accepts it. -/
theorem accepted_examplePurchased : examplePurchased.accepted historyHost = true := by
  decide +kernel

/-- It is what the row is parsed to. -/
theorem parseHapoalimExecution_example :
    parseHapoalimExecution historyHost exampleWindow examplePurchase = .ok examplePurchased := by
  have hread : (readExecution historyHost exampleWindow examplePurchase).toOption.any
      (· = examplePurchased) = true := by
    decide +kernel
  obtain ⟨execution, hread, hsame⟩ := exists_ok_of_any hread
  refine except_bind_ok.mpr ⟨execution, hread, ?_⟩
  rw [of_decide_eq_true hsame]
  unfold parseExecution
  rw [trimmed_examplePurchased, if_pos accepted_examplePurchased]

/-- The snapshot passes its schema unchanged. -/
theorem parseSnapshot_example :
    parseSnapshot historyHost exampleSnapshot = .ok exampleSnapshot := by
  have hproduct : exampleSecurities.trimmed = exampleSecurities := by decide +kernel
  have haccepted : (isTimestamp "2026-06-01T06:00:00.000Z" &&
      exampleSecurities.accepted historyHost) = true := by
    decide +kernel
  have htrimmed : exampleSnapshot.trimmed = exampleSnapshot := by
    unfold InvestmentSnapshot.trimmed exampleSnapshot
    simp only [List.map_cons, List.map_nil, hproduct, trimmed_examplePurchased]
  rw [Bool.and_eq_true] at haccepted
  unfold parseSnapshot
  rw [htrimmed, if_pos]
  unfold InvestmentSnapshot.accepted exampleSnapshot
  simp only [List.all_cons, List.all_nil, haccepted, accepted_examplePurchased, Bool.and_self]

/-- The snapshot of the two pages. -/
theorem buildHapoalimSnapshot_example :
    buildHapoalimSnapshot historyHost ⟨examplePortfolio, ⟨[examplePurchase], true, 2⟩⟩
      exampleWindow = .ok exampleSnapshot := by
  have hid : (investmentProductId exampleWindow.securities .hapoalim).toOption.any
      (· = examplePurchased.productId) = true := by
    decide +kernel
  obtain ⟨productId, hid, hsame⟩ := exists_ok_of_any hid
  obtain rfl := of_decide_eq_true hsame
  have hdistinct : ¬ (¬ ([examplePurchased].map (·.id)).Nodup ∨ true = false) := by
    rintro (h | h)
    · exact h (List.nodup_singleton _)
    · cases h
  unfold buildHapoalimSnapshot
  refine except_bind_ok.mpr ⟨(), rfl, except_bind_ok.mpr ⟨examplePurchased.productId, ?_,
    except_bind_ok.mpr ⟨[examplePurchased], ?_, ?_⟩⟩⟩
  · rw [hid]
    rfl
  · exact Transactional.mapM_ok_iff.mpr
      (congrArg (fun result => [result]) parseHapoalimExecution_example)
  · rw [if_neg hdistinct]
    exact congrArg (Except.mapError _) parseSnapshot_example

/-- The first bank gives a snapshot, the second none. -/
theorem execution_paging_example :
    (∃ read asked pages, readExecutionPages twoPages (fun _ => false) = .ok (read, asked) ∧
      ReadsPages twoPages (fun _ => false) read asked pages ∧
      (∃ snapshot, buildHapoalimSnapshot historyHost ⟨examplePortfolio, read⟩ exampleWindow =
        .ok snapshot ∧ snapshot.executions.length = 1) ∧
      ∀ portfolio window snapshot,
        buildHapoalimSnapshot historyHost ⟨portfolio, read⟩ window = .ok snapshot →
          (∃ page ∈ pages, page.next = none) ∧
            OneForEachRow historyHost window read snapshot.executions) ∧
    ∃ read asked pages, readExecutionPages endlessPages (fun _ => false) = .ok (read, asked) ∧
      ReadsPages endlessPages (fun _ => false) read asked pages ∧
      ∀ portfolio window snapshot,
        buildHapoalimSnapshot historyHost ⟨portfolio, read⟩ window = .ok snapshot →
          (∃ page ∈ pages, page.next = none) ∧
            OneForEachRow historyHost window read snapshot.executions := by
  have hpages : ∀ asked : List (Option String), ∃ value page,
      twoPages asked = .ok value ∧ historyPage value = .ok page := by
    intro asked
    by_cases hmore : asked.getLast? = some (some "more")
    · exact ⟨_, ⟨[], none⟩, congrArg Except.ok (if_pos hmore), rfl⟩
    · exact ⟨_, ⟨[examplePurchase], some "more"⟩, congrArg Except.ok (if_neg hmore), rfl⟩
  have hread : readExecutionPages twoPages (fun _ => false) =
      .ok (⟨[examplePurchase], true, 2⟩, [none, some "more"]) := rfl
  obtain ⟨read, asked, pages, hfound, hreads, hexact⟩ :=
    execution_paging historyHost twoPages (fun _ => false) hpages fun _ => rfl
  obtain ⟨rfl, rfl⟩ := Prod.mk.inj (Except.ok.inj (hread.symm.trans hfound))
  exact ⟨⟨_, _, pages, hread, hreads, ⟨exampleSnapshot, buildHapoalimSnapshot_example, rfl⟩, hexact⟩,
    execution_paging historyHost endlessPages (fun _ => false)
      (fun _ => ⟨_, ⟨[.null], some "more"⟩, rfl, rfl⟩) fun _ => rfl⟩

end SimplefinBridge
