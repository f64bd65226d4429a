import SimplefinBridge.Library.Pairings
import SimplefinBridge.ProviderValues

/-!
# Snapshots of the Clal portfolio

The home page of the portfolio lists the pensions and the hishtalmut funds, and
every product has a detail response of its own.  `parseClalPortfolioSnapshot`
matches rows and details by the identity of the product, and lowers `complete`
where something is missing or does not agree; what is malformed, left over or
doubled is refused.
-/

namespace SimplefinBridge

open Decimals
open Transactional (except_bind_ok exists_ok_of_any)

/-! ## The parser -/

/-- An answer of the portal. -/
structure ClalApiResponse where
  /-- `none` is no finite number. -/
  status : Option ℚ
  data : JsValue

/-- What was captured of the portal. -/
structure ClalPortfolioInput where
  portfolio : ClalApiResponse
  dailyBalances : Option ClalApiResponse
  pensionDetails : List ClalApiResponse
  gemelDetails : List ClalApiResponse
  observedAt : String

/-- The two families of products. -/
inductive ClalFamily
  | pension | hishtalmut
  deriving DecidableEq, Repr

/-- The name of a family in ids. -/
def ClalFamily.text : ClalFamily → String
  | .pension => "pension"
  | .hishtalmut => "hishtalmut"

/-- The fields of an object. -/
abbrev JsFields := List (String × JsValue)

/-- Parse provider decimal strings without binary arithmetic. -/
def parseClalMoney (value : JsValue) : Except ParseError String := do
  let input ← sourceText value
  parseMoneyText ['-'] input

/-- `nonnegativeMoney(value)` -/
def clalNonnegativeMoney (value : JsValue) : Except ParseError String := do
  let amount ← parseClalMoney value
  requireNonnegative amount

/-- `value === true` -/
def isTrue : JsValue → Bool
  | .bool value => value
  | _ => false

/-- `value === undefined || value === false` -/
def isOff : JsValue → Bool
  | .undefined => true
  | .bool value => !value
  | _ => false

/-- `requireSuccess`: the flags of success and of errors. -/
def requireClalSuccess (value : JsValue) : Except ParseError JsFields := do
  let record ← sourceRecord value
  if isTrue (JsValue.get record "IsSuccess") ∧
      ["IsGeneralError", "ResponseIsAppErrorIsAppError", "GetDailyBalanceItemFailed"].all
        (fun flag => isOff (JsValue.get record flag)) then return record
  else .error .INVALID_RESPONSE

/-- The identity of a product: its id and its id at the provider. -/
def clalProductIdentity (family : ClalFamily) (value : JsValue) :
    Except ParseError (String × String) := do
  let number ← sourceText value
  let providerProductId := family.text ++ ":" ++ number
  let id ← orThrow (investmentProductId providerProductId .clal)
  return (id, providerProductId)

/-- `response.data`, if its status is one of success. -/
def responseData (response : ClalApiResponse) : Except ParseError JsFields :=
  match response.status with
  | some status =>
      if isSafeInteger status ∧ 200 ≤ status ∧ status ≤ 299 then requireClalSuccess response.data
      else .error .INVALID_RESPONSE
  | none => .error .INVALID_RESPONSE

/-- `a || b`; a number that is not finite is infinite, as JSON has no NaN. -/
def jsOr (a b : JsValue) : JsValue :=
  match a with
  | .undefined | .null | .bool false => b
  | .number (some x) => if x = 0 then b else a
  | .string s => if s = "" then b else a
  | _ => a

/-- A product before its value is known. -/
def clalProduct (family : ClalFamily) (rawId name : JsValue) :
    Except ParseError InvestmentProduct := do
  let (id, providerProductId) ← clalProductIdentity family rawId
  let name ← sourceText name
  return {
    id, provider := .clal, providerProductId
    kind := if family = .pension then .pension else .keren_hishtalmut
    name, currency := "ILS", currentValuationId := none
    liquidity := ⟨.unknown, none, none⟩
    coverage := ⟨.unavailable, .unavailable, .unavailable, none⟩
    forecast := none, reportSummaries := none }

/-- `null`, `undefined` or an empty text. -/
def isEmptyValue : JsValue → Bool
  | .undefined | .null => true
  | .string s => s = ""
  | _ => false

section
variable (host : Host)

/-- Missing dates stay missing. -/
def parseClalDate (value : JsValue) : Except ParseError (Option IsoDate) :=
  if missing value then .ok none
  else do
    let input ← sourceText value
    let candidate := String.ofList ((dayFirst input.toList).getD input.toList)
    if host.isIsoDate candidate then return some candidate else .error .INVALID_RESPONSE

/-- The current value of a product, which may be missing. -/
def currentValue (snapshot : InvestmentSnapshot) (item : InvestmentProduct)
    (rawAmount rawDate : JsValue) : Except ParseError (InvestmentSnapshot × InvestmentProduct) :=
  if isEmptyValue rawAmount then .ok ({ snapshot with complete := false }, item)
  else do
    let amount ← clalNonnegativeMoney rawAmount
    let asOf ← parseClalDate host rawDate
    let id ← orThrow (investmentValuationId item.id asOf)
    return ({ snapshot with
        valuations := snapshot.valuations ++ [{
          id, productId := item.id, amount, asOf, observedAt := snapshot.observedAt
          currency := "ILS", provenance := none }] },
      { item with
        currentValuationId := some id
        coverage := { item.coverage with valuations := .partially } })

/-- The field that holds the details of a response, and their identity. -/
def detailsField : ClalFamily → String
  | .pension => "PolicyDetails"
  | .hishtalmut => "FundDetails"

/-- The field that names the product of a detail. -/
def identityField : ClalFamily → String
  | .pension => "PolicyId"
  | .hishtalmut => "FundNumber"

/-- The identity of the product that a detail response is about. -/
def detailIdentity (family : ClalFamily) (data : JsFields) : Except ParseError String := do
  let detail ← sourceRecord (JsValue.get data (detailsField family))
  let (id, _) ← clalProductIdentity family (JsValue.get detail (identityField family))
  return id

/-- The details by the id of their product, in the order of the responses. -/
def indexDetails (family : ClalFamily) :
    List ClalApiResponse → List (String × JsFields) → Except ParseError (List (String × JsFields))
  | [], result => .ok result
  | response :: responses, result => do
      let data ← responseData response
      let id ← detailIdentity family data
      if id ∈ result.map (·.1) then .error .INVALID_RESPONSE
      else indexDetails family responses (result ++ [(id, data)])

/-- A detail must not contradict the portfolio. -/
def verifyCurrentValue (snapshot : InvestmentSnapshot) (item : InvestmentProduct)
    (amount date : JsValue) : Except ParseError InvestmentSnapshot := do
  let current := snapshot.valuations.find? fun row => item.currentValuationId = some row.id
  let expected ← clalNonnegativeMoney amount
  if current.map (·.amount) ≠ some expected then return { snapshot with complete := false }
  else
    let expectedDate ← parseClalDate host date
    if current.bind (·.asOf) ≠ expectedDate then return { snapshot with complete := false }
    else return snapshot

/-- The forecast of a pension with coverages. -/
def pensionForecast (data : JsFields) : Except ParseError (Option Forecast) :=
  if isTrue (JsValue.get data "hasPolicyInsCoverages") then do
    let coverages ← sourceRecord (JsValue.get data "PolicyInsCoverages")
    if isEmptyValue (JsValue.get coverages "PensiaPrisha") then return none
    else
      let monthlyPension ← clalNonnegativeMoney (JsValue.get coverages "PensiaPrisha")
      return some ⟨monthlyPension, "ILS", none⟩
  else .ok none

/-- One track of a pension. -/
def pensionTrack (observedAt : String) (item : InvestmentProduct) (raw : JsValue) :
    Except ParseError InvestmentTrack := do
  let row ← sourceRecord raw
  let number ← sourceText (JsValue.get row "TrackNum")
  let id ← orThrow (investmentTrackId item.id number)
  let name ← sourceText (JsValue.get row "TrackName")
  return {
    id, productId := item.id, name, amount := none, allocationPercent := none, currency := "ILS"
    asOf := none, observedAt }

/-- What the detail of a pension adds. -/
def pensionMetadata (snapshot : InvestmentSnapshot) (item : InvestmentProduct) (data : JsFields) :
    Except ParseError (InvestmentSnapshot × InvestmentProduct) := do
  let details ← sourceRecord (JsValue.get data "PolicyDetails")
  let period ← sourceRecord (JsValue.get data "PeriodBalance")
  let snapshot ← verifyCurrentValue host snapshot item (JsValue.get details "BalanceTotal")
    (JsValue.get period "Date")
  let forecast ← pensionForecast data
  let investments ← sourceRecord (JsValue.get data "InvestmentTracks")
  let rows ← sourceArray (JsValue.get investments "InvestmentTracksRows")
  let tracks ← rows.mapM (pensionTrack snapshot.observedAt item)
  return ({ snapshot with tracks := snapshot.tracks ++ tracks },
    { item with
      forecast := forecast.orElse fun _ => item.forecast
      coverage := { item.coverage with
        tracks := if rows.length > 0 then .partially else .unavailable } })

/-- `/^\d{2}\/\d{2}\/\d{2}$/`, as day, month and year. -/
def shortDate (input : List Char) : Option (List Char × List Char × List Char) :=
  match input with
  | [d, d', '/', m, m', '/', y, y'] =>
      if [d, d', m, m', y, y'].all Char.isDigit then some ([d, d'], [m, m'], [y, y']) else none
  | _ => none

/-- Only the identical year of a full provider date establishes the century. -/
def trackDate (value : JsValue) (referenceDate : Option IsoDate) :
    Except ParseError (Option IsoDate) :=
  match (JsValue.asText value).bind fun text => shortDate (jsTrim text).toList with
  | some (day, month, shortYear) =>
      match referenceDate with
      | none => .ok none
      | some reference =>
          if reference = "" ∨ (reference.toList.drop 2).take 2 ≠ shortYear then .ok none
          else parseClalDate host (.string (String.ofList
            (day ++ '/' :: (month ++ '/' :: reference.toList.take 4))))
  | none => parseClalDate host value

/-- The track of a row, if it has any money, and its amount. -/
def gemelTrack (observedAt : String) (item : InvestmentProduct) (date : Option IsoDate)
    (raw : JsValue) : Except ParseError (Option InvestmentTrack × Int) := do
  let row ← sourceRecord raw
  let amount ← clalNonnegativeMoney (JsValue.get row "CurrentBalance")
  if amount = "0.00" then return (none, cents amount)
  else
    let confirmation ← sourceText (JsValue.get row "ConfirmationCode")
    let product ← sourceText (JsValue.get row "ProductCode")
    let kupa ← sourceText (JsValue.get row "KupaCode")
    let id ← orThrow (investmentTrackId item.id (encodeURIComponent confirmation ++ ":" ++
      encodeURIComponent product ++ ":" ++ encodeURIComponent kupa))
    let name ← sourceText (JsValue.get row "Name")
    let asOf ← trackDate host (JsValue.get row "ValidateDate") date
    return (some {
      id, productId := item.id, name, amount := some amount, allocationPercent := none
      currency := "ILS", asOf, observedAt }, cents amount)

/-- The tracks of a fund, with the sum of their balances. -/
def gemelTracks (observedAt : String) (item : InvestmentProduct) (date : Option IsoDate) :
    List JsValue → Except ParseError (List InvestmentTrack × Int)
  | [] => .ok ([], 0)
  | raw :: rows => do
      let (track, amount) ← gemelTrack host observedAt item date raw
      let (tracks, sum) ← gemelTracks observedAt item date rows
      return (track.toList ++ tracks, amount + sum)

/-- The date in Jerusalem at an instant. -/
def jerusalemDate (observedAt : String) : IsoDate :=
  host.intlDate ((dateParse observedAt).getD 0) "Asia/Jerusalem"

/-- When the money of a fund is available. -/
def gemelLiquidity (observedAt : String) (liquidity : Liquidity) (availableFrom : Option IsoDate) :
    Liquidity :=
  match availableFrom with
  | none => liquidity
  | some date =>
      if date = "" then liquidity
      else ⟨if jsLess (jerusalemDate host observedAt) date then .restricted else .available,
        some date, none⟩

/-- The text of a date, as it is parsed again. -/
def dateValue : Option IsoDate → JsValue
  | some date => .string date
  | none => .null

/-- What the detail of a fund adds. -/
def gemelMetadata (snapshot : InvestmentSnapshot) (item : InvestmentProduct) (data : JsFields) :
    Except ParseError (InvestmentSnapshot × InvestmentProduct) :=
  if isTrue (JsValue.get data "IsHishtalmut") ∧
      isTrue (JsValue.get data "IsGemelDailyBalanceSuccess") then do
    let details ← sourceRecord (JsValue.get data "FundDetails")
    let date ← parseClalDate host (JsValue.get details "ProfitUpdateDate")
    let balance ← clalNonnegativeMoney (JsValue.get details "Balance")
    let snapshot ← verifyCurrentValue host snapshot item (.string balance) (dateValue date)
    let availableFrom ← parseClalDate host (JsValue.get details "DateNazil1")
    let item := { item with
      liquidity := gemelLiquidity host snapshot.observedAt item.liquidity availableFrom }
    let tab ← sourceRecord (JsValue.get data "MaslulimTab")
    let rows ← sourceArray (JsValue.get tab "Maslulim")
    let (tracks, sum) ← gemelTracks host snapshot.observedAt item date rows
    if sum ≠ cents balance then return ({ snapshot with complete := false }, item)
    else
      let total ← clalNonnegativeMoney (JsValue.get tab "BalanceSum")
      if total ≠ balance then return ({ snapshot with complete := false }, item)
      else return ({ snapshot with tracks := snapshot.tracks ++ tracks },
        { item with coverage := { item.coverage with
          tracks := if tracks.length > 0 then .partially else .unavailable } })
  else .error .INVALID_RESPONSE

/-- The hishtalmut rows of the home page. -/
def hishtalmutRows : List JsFields → Except ParseError (List JsFields)
  | [] => .ok []
  | row :: rows => do
      match JsValue.get row "IsHishtalmut" with
      | .bool value => do
          let others ← hishtalmutRows rows
          return if value then row :: others else others
      | _ => .error .INVALID_RESPONSE

/-- The daily balances by the id of their product. -/
def indexDaily : List JsValue → List (String × JsFields) →
    Except ParseError (List (String × JsFields))
  | [], result => .ok result
  | raw :: rows, result => do
      let row ← sourceRecord raw
      let (id, _) ← clalProductIdentity .hishtalmut (JsValue.get row "InsuranceNumber")
      if id ∈ result.map (·.1) then .error .INVALID_RESPONSE
      else indexDaily rows (result ++ [(id, row)])

/-- The daily balances, and whether all of them were found. -/
def dailyItems (input : ClalPortfolioInput) :
    Except ParseError (List (String × JsFields) × Bool) :=
  match input.dailyBalances with
  | none => .ok ([], true)
  | some response => do
      let daily ← responseData response
      let data ← requireClalSuccess (JsValue.get daily "GemelDailyBalanceData")
      let rows ← sourceArray (JsValue.get data "Items")
      let items ← indexDaily rows []
      return (items, isTrue (JsValue.get daily "AllPoliciesFoundInCache"))

/-- `map.get(id)` -/
def lookupId (map : List (String × JsFields)) (id : String) : Option JsFields :=
  (map.find? (·.1 = id)).map (·.2)

/-- `map.delete(id)` -/
def deleteId (map : List (String × JsFields)) (id : String) : List (String × JsFields) :=
  map.eraseP (·.1 = id)

/-- The snapshot and the details that no row has taken. -/
structure ClalBuilding where
  snapshot : InvestmentSnapshot
  details : List (String × JsFields)

/-- `pensionMetadata` or `gemelMetadata` -/
def metadata (family : ClalFamily) (snapshot : InvestmentSnapshot) (item : InvestmentProduct)
    (detail : JsFields) : Except ParseError (InvestmentSnapshot × InvestmentProduct) :=
  match family with
  | .pension => pensionMetadata host snapshot item detail
  | .hishtalmut => gemelMetadata host snapshot item detail

/-- What a row adds with its product and its value: the metadata of its detail. -/
def addDetail (family : ClalFamily) (building : ClalBuilding) (item : InvestmentProduct)
    (snapshot : InvestmentSnapshot) : Except ParseError ClalBuilding :=
  match lookupId building.details item.id with
  | some detail => do
      let (snapshot, item) ← metadata host family snapshot item detail
      return ⟨{ snapshot with products := snapshot.products ++ [item] },
        deleteId building.details item.id⟩
  | none => .ok ⟨{ snapshot with
      products := snapshot.products ++ [item], complete := false }, building.details⟩

/-- One round of the loop over the pension rows. -/
def addPension (building : ClalBuilding) (raw : JsValue) : Except ParseError ClalBuilding := do
  let row ← sourceRecord raw
  let item ← clalProduct .pension (JsValue.get row "PolicyId")
    (jsOr (JsValue.get row "PensionPlanName") (JsValue.get row "FoundationName"))
  let (snapshot, item) ← currentValue host building.snapshot item
    (JsValue.get row "BalanceTotal") (JsValue.get row "ValidationDate")
  addDetail host .pension building item snapshot

/-- One round of the loop over the hishtalmut rows. -/
def addHishtalmut (daily : List (String × JsFields)) (building : ClalBuilding) (row : JsFields) :
    Except ParseError ClalBuilding := do
  let item ← clalProduct .hishtalmut (JsValue.get row "InsuranceNumber")
    (jsOr (JsValue.get row "InsuranceName") (JsValue.get row "InsuranceTypeName"))
  let balance := (lookupId daily item.id).getD []
  let (snapshot, item) ← currentValue host building.snapshot item
    (JsValue.get balance "Balance") (JsValue.get balance "ProfitUpdateDate")
  addDetail host .hishtalmut building item snapshot

/-- Only a fully matched collection can replace saved data. -/
def parseClalPortfolioSnapshot (input : ClalPortfolioInput) :
    Except ParseError InvestmentSnapshot :=
  if isTimestamp input.observedAt then do
    let home ← responseData input.portfolio
    let pensionDetails ← indexDetails .pension input.pensionDetails []
    let gemelDetails ← indexDetails .hishtalmut input.gemelDetails []
    let pensionRows ← sourceArray (JsValue.get home "PortfolioDataPensionFundation")
    let gemelRows ← sourceArray (JsValue.get home "PortfolioDataGemelHichudList")
    let gemelRecords ← gemelRows.mapM sourceRecord
    let hishtalmutRows ← hishtalmutRows gemelRecords
    let (daily, found) ← dailyItems input
    let start : InvestmentSnapshot := {
      observedAt := input.observedAt, complete := found, inventoryComplete := true
      products := [], valuations := [], activities := [], tracks := [], executions := [] }
    let pensions ← pensionRows.foldlM (addPension host) ⟨start, pensionDetails⟩
    let all ← hishtalmutRows.foldlM (addHishtalmut host daily)
      ⟨pensions.snapshot, gemelDetails⟩
    let snapshot := all.snapshot
    if pensions.details ≠ [] ∨ all.details ≠ [] ∨ snapshot.products = [] then
      .error .INVALID_RESPONSE
    else if (snapshot.products.map (·.id)).Nodup ∧ (snapshot.valuations.map (·.id)).Nodup ∧
        (snapshot.tracks.map (·.id)).Nodup then
      match parseSnapshot host { snapshot with inventoryComplete := snapshot.complete } with
      | .ok result => return result
      | .error _ => .error .INVALID_RESPONSE
    else .error .INVALID_RESPONSE
  else .error .INVALID_RESPONSE

end

/-! ## What a complete snapshot represents -/

/-- What is recorded for a row, and the detail that was taken for it. -/
structure ClalEntry where
  detail : JsFields
  product : InvestmentProduct
  valuation : InvestmentValuation
  tracks : List InvestmentTrack

/-- The field that holds the identity of a row of the home page. -/
def rowIdentity : ClalFamily → String
  | .pension => "PolicyId"
  | .hishtalmut => "InsuranceNumber"

section
variable (host : Host)

/-- The balance of a detail, and its date. -/
def DetailBalance (family : ClalFamily) (data : JsFields) (amount : String)
    (asOf : Option IsoDate) : Prop :=
  ∃ details, JsValue.get data (detailsField family) = .object details ∧
    match family with
    | .pension => ∃ period, JsValue.get data "PeriodBalance" = .object period ∧
        clalNonnegativeMoney (JsValue.get details "BalanceTotal") = .ok amount ∧
        parseClalDate host (JsValue.get period "Date") = .ok asOf
    | .hishtalmut => clalNonnegativeMoney (JsValue.get details "Balance") = .ok amount ∧
        parseClalDate host (JsValue.get details "ProfitUpdateDate") = .ok asOf

/-- An entry is borne out by a row and its detail: both are of its product, its
current valuation is the balance of the detail, and the tracks of a hishtalmut
fund add up to it. -/
structure ClalBornOut (family : ClalFamily) (row : JsValue) (entry : ClalEntry) : Prop where
  row : ∃ fields providerProductId, row = .object fields ∧
    clalProductIdentity family (JsValue.get fields (rowIdentity family)) =
      .ok (entry.product.id, providerProductId)
  current : entry.product.currentValuationId = some entry.valuation.id
  valuation : entry.valuation.productId = entry.product.id
  valuationId : ∃ rest, entry.valuation.id.toList = entry.product.id.toList ++ ':' :: rest
  balance : DetailBalance host family entry.detail entry.valuation.amount entry.valuation.asOf
  tracks : ∀ track ∈ entry.tracks, track.productId = entry.product.id ∧
    ∃ sourceId, investmentTrackId entry.product.id sourceId = .ok track.id
  sum : family = .hishtalmut → (entry.tracks.map trackCents).sum = cents entry.valuation.amount

end

/-- The details of the responses are those of the entries, one for each. -/
structure DetailsOf (family : ClalFamily) (responses : List ClalApiResponse)
    (entries : List ClalEntry) : Prop where
  inOrder : ∃ details, List.Forall₂ (fun response data => responseData response = .ok data)
    responses details ∧ details.Perm (entries.map (·.detail))
  identity : ∀ entry ∈ entries, detailIdentity family entry.detail = .ok entry.product.id

/-- A row of the home page that is of a hishtalmut fund. -/
def isHishtalmutRow (row : JsValue) : Bool :=
  match row with
  | .object fields => isTrue (JsValue.get fields "IsHishtalmut")
  | _ => false

/-- The rows of the home page that are recorded. -/
def PortfolioRows (portfolio : ClalApiResponse) (pensions funds : List JsValue) : Prop :=
  ∃ home gemel, responseData portfolio = .ok home ∧
    JsValue.get home "PortfolioDataPensionFundation" = .array pensions ∧
    JsValue.get home "PortfolioDataGemelHichudList" = .array gemel ∧
    funds = gemel.filter isHishtalmutRow

/-! ## Amounts and dates are accepted again -/

/-- An amount that was read is read as itself. -/
theorem clalNonnegativeMoney_again {value : JsValue} {amount : String}
    (h : clalNonnegativeMoney value = .ok amount) :
    clalNonnegativeMoney (.string amount) = .ok amount := by
  obtain ⟨parsed, hparsed, hsign⟩ := except_bind_ok.mp h
  obtain ⟨input, -, hparsed⟩ := except_bind_ok.mp hparsed
  obtain ⟨rfl, hhead⟩ := requireNonnegative_ok hsign
  obtain ⟨n, rfl⟩ := parseMoneyText_ok hparsed
  obtain ⟨k, rfl⟩ := nonnegative_of_head hhead
  refine except_bind_ok.mpr ⟨fromCents k, except_bind_ok.mpr ⟨fromCents k, ?_, ?_⟩, ?_⟩
  · exact sourceText_fromCents k
  · exact parseMoneyText_fromCents k
  · exact requireNonnegative_fromCents k

/-- A date written with its year first is not written with its day first. -/
theorem dayFirst_dayFirst {input date : List Char} (h : dayFirst input = some date) :
    dayFirst date = none ∧ date ≠ [] ∧ ∀ c ∈ date, c.isDigit = true ∨ c = '-' := by
  unfold dayFirst at h
  split at h
  · rename_i d d' s m m' s' y y' y'' y'''
    split_ifs at h with hdigits
    obtain rfl := Option.some.inj h
    have hall := hdigits.1
    simp only [List.all_cons, List.all_nil, Bool.and_eq_true] at hall
    obtain ⟨hd, hd', hm, hm', hy, hy', hy'', hy''', -⟩ := hall
    refine ⟨if_neg ?_, List.cons_ne_nil _ _, ?_⟩
    · intro hagain
      rcases hagain.2.1 with heq | heq
      · rw [heq] at hy''
        cases hy''
      · rw [heq] at hy''
        cases hy''
    · simp only [List.forall_mem_cons]
      exact ⟨.inl hy, .inl hy', .inl hy'', .inl hy''', .inr trivial, .inl hm, .inl hm', .inr trivial,
        .inl hd, .inl hd', fun c hc => absurd hc List.not_mem_nil⟩
  · cases h

section
variable {host : Host}

/-- The date of an input, with its year first. -/
theorem parsedDate {input : String} (htrim : jsTrim input = input) (hne : input ≠ "") :
    ∃ candidate, String.ofList ((dayFirst input.toList).getD input.toList) = candidate ∧
      jsTrim candidate = candidate ∧ candidate ≠ "" ∧ dayFirst candidate.toList = none := by
  cases hday : dayFirst input.toList with
  | none =>
      refine ⟨input, ?_, htrim, hne, hday⟩
      rw [Option.getD_none, String.ofList_toList]
  | some day =>
      obtain ⟨hagain, hfilled, hchars⟩ := dayFirst_dayFirst hday
      refine ⟨String.ofList day, by rw [Option.getD_some], jsTrim_of_no_space ?_, ?_, ?_⟩
      · rw [String.toList_ofList]
        intro c hc
        rcases hchars c hc with hdigit | rfl
        · exact isJsSpace_of_isDigit hdigit
        · rfl
      · intro hempty
        exact hfilled (String.ofList_eq_empty_iff.mp hempty)
      · rw [String.toList_ofList]
        exact hagain

/-- An accepted date is the same date when it is parsed again. -/
theorem parseClalDate_again {value : JsValue} {date : Option IsoDate}
    (h : parseClalDate host value = .ok date) : parseClalDate host (dateValue date) = .ok date := by
  unfold parseClalDate at h
  by_cases hmissing : missing value = true
  · rw [if_pos hmissing] at h
    rw [← Except.ok.inj h]
    rfl
  rw [if_neg hmissing] at h
  obtain ⟨input, hinput, h⟩ := except_bind_ok.mp h
  obtain ⟨htrimInput, hfilled⟩ := sourceText_ok hinput
  obtain ⟨candidate, hcandidate, htrim, hne, hagain⟩ := parsedDate htrimInput hfilled
  dsimp only at h
  rw [hcandidate] at h
  split_ifs at h with haccepted
  rw [← Except.ok.inj h]
  have hpresent : ¬ missing (.string candidate) = true := by
    unfold missing
    dsimp only
    rw [htrim]
    exact fun hblank => hne (of_decide_eq_true hblank)
  have htext : sourceText (.string candidate) = .ok candidate := by
    unfold sourceText
    dsimp only
    rw [htrim, if_neg hne]
  change parseClalDate host (.string candidate) = _
  unfold parseClalDate
  rw [if_neg hpresent, htext]
  change (if host.isIsoDate (String.ofList ((dayFirst candidate.toList).getD candidate.toList))
    then _ else _) = _
  rw [hagain, Option.getD_none, String.ofList_toList, if_pos haccepted]
  rfl

end

/-! ## One row -/

open Transactional (exists_of_mapM_ok)

/-- The valuation that a product points to. -/
def currentOf (snapshot : InvestmentSnapshot) (item : InvestmentProduct) :
    Option InvestmentValuation :=
  snapshot.valuations.find? fun row => item.currentValuationId = some row.id

/-- What a detail adds to a snapshot that stays complete. -/
structure DetailAdds (host : Host) (family : ClalFamily) (data : JsFields)
    (snapshot snapshot' : InvestmentSnapshot) (item item' : InvestmentProduct)
    (tracks : List InvestmentTrack) : Prop where
  balance : ∃ current, currentOf snapshot item = some current ∧
    DetailBalance host family data current.amount current.asOf ∧
    (family = .hishtalmut → (tracks.map trackCents).sum = cents current.amount)
  snapshot : snapshot' = { snapshot with tracks := snapshot.tracks ++ tracks }
  product : SameProduct item item'
  tracks : ∀ track ∈ tracks, track.productId = item.id ∧
    ∃ sourceId, investmentTrackId item.id sourceId = .ok track.id

section
variable {host : Host} {snapshot snapshot' : InvestmentSnapshot} {item item' : InvestmentProduct}

/-- A value that leaves the snapshot complete is the current valuation. -/
theorem verifyCurrentValue_ok {amount date : JsValue}
    (h : verifyCurrentValue host snapshot item amount date = .ok snapshot')
    (hcomplete : snapshot'.complete = true) :
    snapshot' = snapshot ∧ ∃ current, currentOf snapshot item = some current ∧
      clalNonnegativeMoney amount = .ok current.amount ∧
      parseClalDate host date = .ok current.asOf := by
  obtain ⟨expected, hexpected, h⟩ := except_bind_ok.mp h
  change (if (currentOf snapshot item).map (·.amount) ≠ some expected then _ else _) = _ at h
  by_cases hamount : (currentOf snapshot item).map (·.amount) ≠ some expected
  · rw [if_pos hamount] at h
    rw [← Except.ok.inj h] at hcomplete
    cases hcomplete
  rw [if_neg hamount] at h
  obtain ⟨expectedDate, hdate, h⟩ := except_bind_ok.mp h
  change (if (currentOf snapshot item).bind (·.asOf) ≠ expectedDate then _ else _) = _ at h
  by_cases hasOf : (currentOf snapshot item).bind (·.asOf) ≠ expectedDate
  · rw [if_pos hasOf] at h
    rw [← Except.ok.inj h] at hcomplete
    cases hcomplete
  rw [if_neg hasOf] at h
  rw [not_ne_iff] at hamount hasOf
  refine ⟨(Except.ok.inj h).symm, ?_⟩
  cases hcurrent : currentOf snapshot item with
  | none =>
      rw [hcurrent] at hamount
      cases hamount
  | some current =>
      rw [hcurrent] at hamount hasOf
      refine ⟨current, rfl, ?_, ?_⟩
      · rw [hexpected, ← Option.some.inj hamount]
      · rw [hdate, ← hasOf]
        rfl

/-- A track of a pension has an id of its product. -/
theorem pensionTrack_ok {observedAt : String} {raw : JsValue} {track : InvestmentTrack}
    (h : pensionTrack observedAt item raw = .ok track) :
    track.productId = item.id ∧ ∃ sourceId, investmentTrackId item.id sourceId = .ok track.id := by
  obtain ⟨row, -, h⟩ := except_bind_ok.mp h
  obtain ⟨number, -, h⟩ := except_bind_ok.mp h
  obtain ⟨id, hid, h⟩ := except_bind_ok.mp h
  obtain ⟨name, -, h⟩ := except_bind_ok.mp h
  rw [← Except.ok.inj h]
  exact ⟨rfl, number, orThrow_ok hid⟩

/-- A complete detail of a pension adds its tracks, -/
theorem pensionMetadata_ok {data : JsFields}
    (h : pensionMetadata host snapshot item data = .ok (snapshot', item'))
    (hcomplete : snapshot'.complete = true) :
    ∃ tracks, DetailAdds host .pension data snapshot snapshot' item item' tracks := by
  obtain ⟨details, hdetails, h⟩ := except_bind_ok.mp h
  obtain ⟨period, hperiod, h⟩ := except_bind_ok.mp h
  obtain ⟨verified, hverified, h⟩ := except_bind_ok.mp h
  obtain ⟨forecast, -, h⟩ := except_bind_ok.mp h
  obtain ⟨investments, -, h⟩ := except_bind_ok.mp h
  obtain ⟨rows, -, h⟩ := except_bind_ok.mp h
  obtain ⟨tracks, htracks, h⟩ := except_bind_ok.mp h
  obtain ⟨rfl, rfl⟩ := Prod.mk.inj (Except.ok.inj h)
  obtain ⟨rfl, current, hcurrent, hamount, hdate⟩ := verifyCurrentValue_ok hverified hcomplete
  refine ⟨tracks, {
    balance := ⟨current, hcurrent, ⟨details, sourceRecord_ok hdetails, period,
      sourceRecord_ok hperiod, hamount, hdate⟩, nofun⟩
    snapshot := rfl
    product := ⟨rfl, rfl⟩
    tracks := ?_ }⟩
  intro track htrack
  obtain ⟨raw, -, hraw⟩ := exists_of_mapM_ok htracks htrack
  exact pensionTrack_ok hraw

/-- The track of a row carries its amount; a row without money has no track. -/
theorem gemelTrack_ok {observedAt : String} {date : Option IsoDate} {raw : JsValue}
    {track : Option InvestmentTrack} {amount : Int}
    (h : gemelTrack host observedAt item date raw = .ok (track, amount)) :
    (track.toList.map trackCents).sum = amount ∧ ∀ found ∈ track, found.productId = item.id ∧
      ∃ sourceId, investmentTrackId item.id sourceId = .ok found.id := by
  obtain ⟨row, -, h⟩ := except_bind_ok.mp h
  obtain ⟨text, -, h⟩ := except_bind_ok.mp h
  by_cases hzero : text = "0.00"
  · rw [if_pos hzero] at h
    obtain ⟨rfl, rfl⟩ := Prod.mk.inj (Except.ok.inj h)
    rw [hzero]
    exact ⟨rfl, nofun⟩
  rw [if_neg hzero] at h
  obtain ⟨confirmation, -, h⟩ := except_bind_ok.mp h
  obtain ⟨product, -, h⟩ := except_bind_ok.mp h
  obtain ⟨kupa, -, h⟩ := except_bind_ok.mp h
  obtain ⟨id, hid, h⟩ := except_bind_ok.mp h
  obtain ⟨name, -, h⟩ := except_bind_ok.mp h
  obtain ⟨asOf, -, h⟩ := except_bind_ok.mp h
  obtain ⟨rfl, rfl⟩ := Prod.mk.inj (Except.ok.inj h)
  refine ⟨add_zero (cents text), fun found hfound => ?_⟩
  obtain rfl := Option.some.inj hfound
  exact ⟨rfl, _, orThrow_ok hid⟩

/-- **The tracks of a fund** add up to the sum of its rows. -/
theorem gemelTracks_ok {observedAt : String} {date : Option IsoDate} {rows : List JsValue}
    {tracks : List InvestmentTrack} {sum : Int}
    (h : gemelTracks host observedAt item date rows = .ok (tracks, sum)) :
    (tracks.map trackCents).sum = sum ∧ ∀ track ∈ tracks, track.productId = item.id ∧
      ∃ sourceId, investmentTrackId item.id sourceId = .ok track.id := by
  induction rows generalizing tracks sum with
  | nil =>
      obtain ⟨rfl, rfl⟩ := Prod.mk.inj (Except.ok.inj h)
      exact ⟨rfl, fun _ ht => absurd ht List.not_mem_nil⟩
  | cons raw rows ih =>
      obtain ⟨⟨first, amount⟩, hfirst, h⟩ := except_bind_ok.mp h
      obtain ⟨⟨others, rest⟩, hothers, h⟩ := except_bind_ok.mp h
      obtain ⟨rfl, rfl⟩ := Prod.mk.inj (Except.ok.inj h)
      obtain ⟨hamount, hid⟩ := gemelTrack_ok hfirst
      obtain ⟨hsum, hall⟩ := ih hothers
      constructor
      · rw [List.map_append, List.sum_append, hamount, hsum]
      · intro track htrack
        rcases List.mem_append.mp htrack with htrack | htrack
        · exact hid track (Option.mem_toList.mp htrack)
        · exact hall track htrack

/-- and so does one of a fund. -/
theorem gemelMetadata_ok {data : JsFields}
    (h : gemelMetadata host snapshot item data = .ok (snapshot', item'))
    (hcomplete : snapshot'.complete = true) :
    ∃ tracks, DetailAdds host .hishtalmut data snapshot snapshot' item item' tracks := by
  unfold gemelMetadata at h
  by_cases hflags : isTrue (JsValue.get data "IsHishtalmut") = true ∧
      isTrue (JsValue.get data "IsGemelDailyBalanceSuccess") = true
  swap
  · rw [if_neg hflags] at h
    cases h
  rw [if_pos hflags] at h
  obtain ⟨details, hdetails, h⟩ := except_bind_ok.mp h
  obtain ⟨date, hdate, h⟩ := except_bind_ok.mp h
  obtain ⟨balance, hbalance, h⟩ := except_bind_ok.mp h
  obtain ⟨verified, hverified, h⟩ := except_bind_ok.mp h
  obtain ⟨availableFrom, -, h⟩ := except_bind_ok.mp h
  obtain ⟨tab, -, h⟩ := except_bind_ok.mp h
  obtain ⟨rows, -, h⟩ := except_bind_ok.mp h
  obtain ⟨⟨tracks, sum⟩, htracks, h⟩ := except_bind_ok.mp h
  dsimp only at h
  by_cases hsum : sum ≠ cents balance
  · rw [if_pos hsum] at h
    rw [← (Prod.mk.inj (Except.ok.inj h)).1] at hcomplete
    cases hcomplete
  rw [if_neg hsum] at h
  obtain ⟨total, -, h⟩ := except_bind_ok.mp h
  by_cases htotal : total ≠ balance
  · rw [if_pos htotal] at h
    rw [← (Prod.mk.inj (Except.ok.inj h)).1] at hcomplete
    cases hcomplete
  rw [if_neg htotal] at h
  obtain ⟨rfl, rfl⟩ := Prod.mk.inj (Except.ok.inj h)
  obtain ⟨rfl, current, hcurrent, hamount, hasOf⟩ := verifyCurrentValue_ok hverified hcomplete
  -- the balance and its date are parsed twice
  rw [clalNonnegativeMoney_again hbalance] at hamount
  rw [parseClalDate_again hdate] at hasOf
  obtain rfl := Except.ok.inj hamount
  obtain rfl := Except.ok.inj hasOf
  obtain ⟨hvalue, hall⟩ := gemelTracks_ok htracks
  rw [not_ne_iff] at hsum
  exact ⟨tracks, {
    balance := ⟨current, hcurrent, ⟨details, sourceRecord_ok hdetails, hbalance, hdate⟩,
      fun _ => hvalue.trans hsum⟩
    snapshot := rfl
    product := ⟨rfl, rfl⟩
    tracks := hall }⟩

/-- What a complete detail of either family adds. -/
theorem metadata_ok {family : ClalFamily} {data : JsFields}
    (h : metadata host family snapshot item data = .ok (snapshot', item'))
    (hcomplete : snapshot'.complete = true) :
    ∃ tracks, DetailAdds host family data snapshot snapshot' item item' tracks := by
  cases family with
  | pension => exact pensionMetadata_ok h hcomplete
  | hishtalmut => exact gemelMetadata_ok h hcomplete

end

/-- An entry adds its records to a snapshot. -/
def ClalEntry.addTo (entry : ClalEntry) (snapshot : InvestmentSnapshot) : InvestmentSnapshot :=
  { snapshot with
    products := snapshot.products ++ [entry.product]
    valuations := snapshot.valuations ++ [entry.valuation]
    tracks := snapshot.tracks ++ entry.tracks }

/-- A row adds an entry that it bears out, and takes its detail. -/
structure RowAdds (host : Host) (family : ClalFamily) (row : JsValue)
    (building building' : ClalBuilding) (entry : ClalEntry) : Prop where
  bornOut : ClalBornOut host family row entry
  snapshot : building'.snapshot = entry.addTo building.snapshot
  details : building.details.Perm ((entry.product.id, entry.detail) :: building'.details)

/-- The detail that is found, and the others. -/
theorem perm_of_lookupId {details : List (String × JsFields)} {id : String} {detail : JsFields}
    (h : lookupId details id = some detail) : details.Perm ((id, detail) :: deleteId details id) := by
  obtain ⟨pair, hfound, rfl⟩ := Option.map_eq_some_iff.mp h
  have hmatches := List.find?_some hfound
  have hpair : pair = (id, pair.2) := Prod.ext (of_decide_eq_true hmatches) rfl
  rw [← hpair]
  exact Pairings.perm_of_find hfound

/-- A valuation of a new id is found behind the others. -/
theorem find_last {valuations : List InvestmentValuation} {valuation : InvestmentValuation}
    (hnodup : ((valuations ++ [valuation]).map (·.id)).Nodup) :
    (valuations ++ [valuation]).find? (fun row => some valuation.id = some row.id) =
      some valuation := by
  rw [List.map_append, List.nodup_append] at hnodup
  have hnone : valuations.find? (fun row => some valuation.id = some row.id) = none := by
    rw [List.find?_eq_none]
    intro row hrow heq
    have hsame := Option.some.inj (of_decide_eq_true heq)
    exact hnodup.2.2 row.id (List.mem_map_of_mem hrow) valuation.id
      (List.mem_map_of_mem List.mem_cons_self) hsame.symm
  rw [List.find?_append, hnone, Option.none_or]
  exact List.find?_cons_of_pos (decide_eq_true rfl)

section
variable {host : Host} {family : ClalFamily}

/-- A product is named by its provider. -/
theorem clalProductIdentity_ok {value : JsValue} {id providerProductId : String}
    (h : clalProductIdentity family value = .ok (id, providerProductId)) :
    IsProductId .clal id := by
  obtain ⟨number, -, h⟩ := except_bind_ok.mp h
  obtain ⟨id', hid, h⟩ := except_bind_ok.mp h
  obtain ⟨rfl, rfl⟩ := Prod.mk.inj (Except.ok.inj h)
  exact ⟨_, orThrow_ok hid⟩

/-- A product has the identity that was read. -/
theorem clalProduct_ok {rawId name : JsValue} {item : InvestmentProduct}
    (h : clalProduct family rawId name = .ok item) :
    clalProductIdentity family rawId = .ok (item.id, item.providerProductId) := by
  obtain ⟨⟨id, providerProductId⟩, hid, h⟩ := except_bind_ok.mp h
  obtain ⟨text, -, h⟩ := except_bind_ok.mp h
  rw [hid, ← Except.ok.inj h]

/-- A product with its current valuation, the last of a snapshot. -/
structure Valued (before snapshot : InvestmentSnapshot) (item : InvestmentProduct)
    (valuation : InvestmentValuation) : Prop where
  snapshot : snapshot = { before with valuations := before.valuations ++ [valuation] }
  current : item.currentValuationId = some valuation.id
  product : valuation.productId = item.id
  behind : ∃ rest, valuation.id.toList = item.id.toList ++ ':' :: rest

/-- What a current value adds. -/
theorem currentValue_ok {snapshot snapshot' : InvestmentSnapshot} {item item' : InvestmentProduct}
    {rawAmount rawDate : JsValue}
    (h : currentValue host snapshot item rawAmount rawDate = .ok (snapshot', item')) :
    item'.id = item.id ∧
      (snapshot'.complete = false ∨ ∃ valuation, Valued snapshot snapshot' item' valuation) := by
  unfold currentValue at h
  by_cases hempty : isEmptyValue rawAmount = true
  · rw [if_pos hempty] at h
    obtain ⟨rfl, rfl⟩ := Prod.mk.inj (Except.ok.inj h)
    exact ⟨rfl, .inl rfl⟩
  rw [if_neg hempty] at h
  obtain ⟨amount, -, h⟩ := except_bind_ok.mp h
  obtain ⟨asOf, -, h⟩ := except_bind_ok.mp h
  obtain ⟨id, hid, h⟩ := except_bind_ok.mp h
  obtain ⟨rfl, rfl⟩ := Prod.mk.inj (Except.ok.inj h)
  exact ⟨rfl, .inr ⟨_, rfl, rfl, rfl, valuationId_chars (orThrow_ok hid)⟩⟩

/-- **The detail of a row** that leaves the snapshot complete makes its entry. -/
theorem addDetail_ok {row : JsValue} {building building' : ClalBuilding}
    {snapshot : InvestmentSnapshot} {item : InvestmentProduct}
    (hrow : ∃ fields providerProductId, row = .object fields ∧
      clalProductIdentity family (JsValue.get fields (rowIdentity family)) =
        .ok (item.id, providerProductId))
    (hvalued : snapshot.complete = false ∨
      ∃ valuation, Valued building.snapshot snapshot item valuation)
    (h : addDetail host family building item snapshot = .ok building')
    (hcomplete : building'.snapshot.complete = true)
    (hnodup : (building'.snapshot.valuations.map (·.id)).Nodup) :
    ∃ entry, RowAdds host family row building building' entry := by
  unfold addDetail at h
  cases hdetail : lookupId building.details item.id with
  | none =>
      rw [hdetail] at h
      rw [← Except.ok.inj h] at hcomplete
      cases hcomplete
  | some detail =>
      rw [hdetail] at h
      obtain ⟨⟨described, item'⟩, hmetadata, h⟩ := except_bind_ok.mp h
      obtain rfl := Except.ok.inj h
      obtain ⟨tracks, hadds⟩ := metadata_ok hmetadata hcomplete
      obtain ⟨⟨current, hcurrent, hbalance, hsum⟩, rfl, ⟨hid, hpointer⟩, htracks⟩ := hadds
      rcases hvalued with hfalse | ⟨valuation, rfl, hitem, hproduct, hbehind⟩
      · change snapshot.complete = true at hcomplete
        rw [hfalse] at hcomplete
        cases hcomplete
      change ((building.snapshot.valuations ++ [valuation]).map (·.id)).Nodup at hnodup
      have hfound : currentOf { building.snapshot with
          valuations := building.snapshot.valuations ++ [valuation] } item = some valuation := by
        unfold currentOf
        rw [hitem]
        exact find_last hnodup
      rw [hfound] at hcurrent
      obtain rfl := Option.some.inj hcurrent
      refine ⟨⟨detail, item', valuation, tracks⟩, ?_, rfl, ?_⟩
      · refine {
          row := ?_
          current := hpointer.trans hitem
          valuation := hproduct.trans hid.symm
          valuationId := ?_
          balance := hbalance
          tracks := ?_
          sum := hsum }
        · rw [hid]
          exact hrow
        · rw [hid]
          exact hbehind
        · rw [hid]
          exact htracks
      · change building.details.Perm ((item'.id, detail) :: deleteId building.details item'.id)
        rw [hid]
        exact perm_of_lookupId hdetail

/-- **A pension row** of a complete snapshot. -/
theorem addPension_ok {raw : JsValue} {building building' : ClalBuilding}
    (h : addPension host building raw = .ok building')
    (hcomplete : building'.snapshot.complete = true)
    (hnodup : (building'.snapshot.valuations.map (·.id)).Nodup) :
    ∃ entry, RowAdds host .pension raw building building' entry := by
  obtain ⟨row, hrow, h⟩ := except_bind_ok.mp h
  obtain ⟨item, hitem, h⟩ := except_bind_ok.mp h
  obtain ⟨⟨snapshot, item'⟩, hvalue, h⟩ := except_bind_ok.mp h
  obtain ⟨hid, hvalued⟩ := currentValue_ok hvalue
  refine addDetail_ok ⟨row, item.providerProductId, sourceRecord_ok hrow, ?_⟩ hvalued h hcomplete hnodup
  rw [hid]
  exact clalProduct_ok hitem

/-- **A hishtalmut row** of a complete snapshot. -/
theorem addHishtalmut_ok {daily : List (String × JsFields)} {row : JsFields}
    {building building' : ClalBuilding}
    (h : addHishtalmut host daily building row = .ok building')
    (hcomplete : building'.snapshot.complete = true)
    (hnodup : (building'.snapshot.valuations.map (·.id)).Nodup) :
    ∃ entry, RowAdds host .hishtalmut (.object row) building building' entry := by
  obtain ⟨item, hitem, h⟩ := except_bind_ok.mp h
  obtain ⟨⟨snapshot, item'⟩, hvalue, h⟩ := except_bind_ok.mp h
  obtain ⟨hid, hvalued⟩ := currentValue_ok hvalue
  refine addDetail_ok ⟨row, item.providerProductId, rfl, ?_⟩ hvalued h hcomplete hnodup
  rw [hid]
  exact clalProduct_ok hitem

end

/-! ## A run over the rows -/

/-- A row's detail, by the id of its product. -/
def ClalEntry.taken (entry : ClalEntry) : String × JsFields := (entry.product.id, entry.detail)

/-- The rows of a run have added an entry each, and have taken their details. -/
structure RowsAdd (host : Host) (family : ClalFamily) (rows : List JsValue)
    (start last : ClalBuilding) (entries : List ClalEntry) : Prop where
  each : List.Forall₂ (ClalBornOut host family) rows entries
  complete : last.snapshot.complete = start.snapshot.complete
  products : last.snapshot.products = start.snapshot.products ++ entries.map (·.product)
  valuations : last.snapshot.valuations = start.snapshot.valuations ++ entries.map (·.valuation)
  tracks : last.snapshot.tracks = start.snapshot.tracks ++ entries.flatMap (·.tracks)
  details : start.details.Perm (entries.map (·.taken) ++ last.details)

section
variable {host : Host} {family : ClalFamily} {rows : List JsValue}
  {start before after : ClalBuilding} {entries : List ClalEntry}

/-- One more row. -/
theorem RowsAdd.snoc {row : JsValue} {entry : ClalEntry}
    (h : RowsAdd host family rows start before entries)
    (hentry : RowAdds host family row before after entry) :
    RowsAdd host family (rows ++ [row]) start after (entries ++ [entry]) := by
  obtain ⟨hborn, hsnapshot, hdetails⟩ := hentry
  refine {
    each := Pairings.snoc h.each hborn
    complete := ?_
    products := ?_
    valuations := ?_
    tracks := ?_
    details := ?_ }
  · rw [hsnapshot]
    exact h.complete
  · rw [hsnapshot, List.map_append, ← List.append_assoc, ← h.products]
    rfl
  · rw [hsnapshot, List.map_append, ← List.append_assoc, ← h.valuations]
    rfl
  · rw [hsnapshot, List.flatMap_append, ← List.append_assoc, ← h.tracks, List.flatMap_cons,
      List.flatMap_nil, List.append_nil]
    rfl
  · rw [List.map_append, List.append_assoc]
    exact h.details.trans (hdetails.append_left _)

/-- **A run over rows** of a complete snapshot has an entry for each of them. -/
theorem rows_ok {β : Type} (raw : β → JsValue)
    {add : ClalBuilding → β → Except ParseError ClalBuilding}
    (hstep : ∀ {building building' : ClalBuilding} {row : β}, add building row = .ok building' →
      building'.snapshot.complete = true → (building'.snapshot.valuations.map (·.id)).Nodup →
        ∃ entry, RowAdds host family (raw row) building building' entry)
    {items : List β} {last : ClalBuilding} (h : items.foldlM add start = .ok last)
    (hcomplete : last.snapshot.complete = true)
    (hnodup : (last.snapshot.valuations.map (·.id)).Nodup) :
    ∃ entries, RowsAdd host family (items.map raw) start last entries := by
  induction items using List.reverseRecOn generalizing last with
  | nil =>
      obtain rfl := Except.ok.inj h
      exact ⟨[], .nil, rfl, (List.append_nil _).symm, (List.append_nil _).symm,
        (List.append_nil _).symm, List.Perm.refl _⟩
  | append_singleton items item ih =>
      rw [List.foldlM_append] at h
      obtain ⟨middle, hmiddle, h⟩ := except_bind_ok.mp h
      rw [List.foldlM_cons] at h
      obtain ⟨final, hfinal, h⟩ := except_bind_ok.mp h
      obtain rfl := Except.ok.inj h
      obtain ⟨entry, hentry⟩ := hstep hfinal hcomplete hnodup
      have hbefore := hentry.snapshot
      rw [hbefore] at hcomplete hnodup
      have hprefix : (middle.snapshot.valuations.map (·.id)).Nodup := by
        change ((middle.snapshot.valuations ++ [entry.valuation]).map (·.id)).Nodup at hnodup
        rw [List.map_append] at hnodup
        exact (List.nodup_append.mp hnodup).1
      obtain ⟨entries, hentries⟩ := ih hmiddle hcomplete hprefix
      rw [List.map_append]
      exact ⟨entries ++ [entry], hentries.snoc hentry⟩

end

/-! ## Details -/

section
variable {family : ClalFamily}

/-- The index of the responses has their details in order. -/
theorem indexDetails_ok {responses : List ClalApiResponse} {known index : List (String × JsFields)}
    (h : indexDetails family responses known = .ok index) :
    ∃ added, index = known ++ added ∧
      List.Forall₂ (fun response data => responseData response = .ok data) responses
        (added.map (·.2)) ∧
      ∀ pair ∈ added, detailIdentity family pair.2 = .ok pair.1 := by
  induction responses generalizing known with
  | nil =>
      refine ⟨[], ?_, .nil, fun _ hp => absurd hp List.not_mem_nil⟩
      rw [List.append_nil]
      exact (Except.ok.inj h).symm
  | cons response responses ih =>
      obtain ⟨data, hdata, h⟩ := except_bind_ok.mp h
      obtain ⟨id, hid, h⟩ := except_bind_ok.mp h
      by_cases hknown : id ∈ known.map (·.1)
      · rw [if_pos hknown] at h
        cases h
      rw [if_neg hknown] at h
      obtain ⟨added, hindex, hforall, hall⟩ := ih h
      refine ⟨(id, data) :: added, ?_, .cons hdata hforall, ?_⟩
      · rw [hindex, List.append_assoc, List.singleton_append]
      · intro pair hpair
        rcases List.mem_cons.mp hpair with rfl | hpair
        · exact hid
        · exact hall pair hpair

/-- When nothing is left of an index, the entries have taken all of it. -/
theorem detailsOf_index {responses : List ClalApiResponse} {index : List (String × JsFields)}
    {entries : List ClalEntry} (h : indexDetails family responses [] = .ok index)
    (htaken : index.Perm (entries.map (·.taken))) : DetailsOf family responses entries := by
  obtain ⟨added, hindex, hforall, hall⟩ := indexDetails_ok h
  rw [List.nil_append] at hindex
  subst hindex
  constructor
  · refine ⟨index.map (·.2), hforall, ?_⟩
    have hdetails := htaken.map (·.2)
    rw [List.map_map] at hdetails
    exact hdetails
  · intro entry hentry
    exact hall entry.taken (htaken.mem_iff.mpr (List.mem_map_of_mem hentry))

end

/-- The hishtalmut rows are those of the list that say so. -/
theorem hishtalmutRows_ok {gemel : List JsValue} {records rows : List JsFields}
    (hrecords : gemel.mapM sourceRecord = .ok records) (h : hishtalmutRows records = .ok rows) :
    rows.map JsValue.object = gemel.filter isHishtalmutRow := by
  induction gemel generalizing records rows with
  | nil =>
      obtain rfl := Except.ok.inj hrecords
      rw [← Except.ok.inj h]
      rfl
  | cons raw gemel ih =>
      rw [List.mapM_cons] at hrecords
      obtain ⟨record, hrecord, hrecords⟩ := except_bind_ok.mp hrecords
      obtain ⟨others, hothers, hrecords⟩ := except_bind_ok.mp hrecords
      obtain rfl := Except.ok.inj hrecords
      obtain rfl := sourceRecord_ok hrecord
      unfold hishtalmutRows at h
      cases hflag : JsValue.get record "IsHishtalmut" with
      | bool value =>
          rw [hflag] at h
          obtain ⟨rest, hrest, h⟩ := except_bind_ok.mp h
          have hsame : isHishtalmutRow (.object record) = value := by
            change isTrue (JsValue.get record "IsHishtalmut") = value
            rw [hflag]
            rfl
          rw [← Except.ok.inj h]
          cases value with
          | true =>
              rw [List.filter_cons_of_pos hsame, ← ih hothers hrest]
              rfl
          | false =>
              have hneg : ¬ isHishtalmutRow (.object record) = true := by
                rw [hsame]
                exact Bool.false_ne_true
              rw [List.filter_cons_of_neg hneg, ← ih hothers hrest]
              rfl
      | _ =>
          rw [hflag] at h
          cases h

/-! ## Trimming keeps the entries -/

/-- An entry as the schema trims it. -/
def ClalEntry.trimmed (entry : ClalEntry) : ClalEntry where
  detail := entry.detail
  product := entry.product.trimmed
  valuation := entry.valuation.trimmed
  tracks := entry.tracks.map (·.trimmed)

section
variable {host : Host} {family : ClalFamily} {row : JsValue} {entry : ClalEntry}

/-- The id of an entry is one of the provider. -/
theorem ClalBornOut.isProductId (h : ClalBornOut host family row entry) :
    IsProductId .clal entry.product.id := by
  obtain ⟨fields, providerProductId, -, hid⟩ := h.row
  exact clalProductIdentity_ok hid

/-- Trimming leaves it alone. -/
theorem ClalBornOut.trimmed_id (h : ClalBornOut host family row entry) :
    entry.trimmed.product.id = entry.product.id := h.isProductId.isIdText.trimmed

/-- A trimmed entry is still borne out, -/
theorem ClalBornOut.trimmed (h : ClalBornOut host family row entry) :
    ClalBornOut host family row entry.trimmed := by
  have hid := h.trimmed_id
  have hidText := h.isProductId.isIdText
  obtain ⟨fields, providerProductId, hfields, hidentity⟩ := h.row
  refine {
    row := ⟨fields, providerProductId, hfields, ?_⟩
    current := ?_
    valuation := ?_
    valuationId := ?_
    balance := h.balance
    tracks := ?_
    sum := ?_ }
  · rw [hid]
    exact hidentity
  · change entry.product.currentValuationId.map jsTrim = _
    rw [h.current]
    rfl
  · change jsTrim entry.valuation.productId = jsTrim entry.product.id
    rw [h.valuation]
  · obtain ⟨rest, hrest⟩ := h.valuationId
    rw [hid]
    exact ⟨trimEnd rest, trimmed_behind hidText hrest⟩
  · rw [hid]
    exact tracks_trimmed hidText h.tracks
  · intro hfamily
    change ((entry.tracks.map (·.trimmed)).map trackCents).sum = _
    rw [trackCents_trimmed]
    exact h.sum hfamily

end

section
variable {host : Host} {family : ClalFamily} {rows : List JsValue} {entries : List ClalEntry}

/-- and so are all of them. -/
theorem trimmedEntries (h : List.Forall₂ (ClalBornOut host family) rows entries) :
    List.Forall₂ (ClalBornOut host family) rows (entries.map (·.trimmed)) := by
  rw [List.forall₂_map_right_iff]
  exact h.imp fun _ _ hentry => hentry.trimmed

/-- They keep their ids. -/
theorem trimmedIds (h : List.Forall₂ (ClalBornOut host family) rows entries) :
    (entries.map (·.trimmed)).map (·.product.id) = entries.map (·.product.id) := by
  rw [List.map_map]
  refine List.map_congr_left fun entry hentry => ?_
  obtain ⟨row, -, hborn⟩ := Pairings.exists_of_right h hentry
  exact hborn.trimmed_id

/-- They keep their details. -/
theorem DetailsOf.trimmed {responses : List ClalApiResponse}
    (hborn : List.Forall₂ (ClalBornOut host family) rows entries)
    (h : DetailsOf family responses entries) :
    DetailsOf family responses (entries.map (·.trimmed)) := by
  constructor
  · rw [List.map_map]
    exact h.inOrder
  · intro entry hentry
    obtain ⟨old, hold, rfl⟩ := List.mem_map.mp hentry
    obtain ⟨row, -, hrow⟩ := Pairings.exists_of_right hborn hold
    rw [hrow.trimmed_id]
    exact h.identity old hold

end

/-! ## Complete snapshots -/

/-- The entries of a complete snapshot: those of its pension rows and those of
its hishtalmut rows. -/
structure Reconciled (host : Host) (input : ClalPortfolioInput) (snapshot : InvestmentSnapshot)
    (pensions funds : List ClalEntry) : Prop where
  rows : ∃ pensionRows fundRows, PortfolioRows input.portfolio pensionRows fundRows ∧
    List.Forall₂ (ClalBornOut host .pension) pensionRows pensions ∧
    List.Forall₂ (ClalBornOut host .hishtalmut) fundRows funds
  pensionDetails : DetailsOf .pension input.pensionDetails pensions
  gemelDetails : DetailsOf .hishtalmut input.gemelDetails funds
  products : snapshot.products = (pensions ++ funds).map (·.product)
  valuations : snapshot.valuations = (pensions ++ funds).map (·.valuation)
  tracks : snapshot.tracks = (pensions ++ funds).flatMap (·.tracks)

section
variable {host : Host} {input : ClalPortfolioInput} {snapshot : InvestmentSnapshot}
  {pensions funds : List ClalEntry}

/-- The products of a reconciled snapshot are named by the provider. -/
theorem Reconciled.isProductId (h : Reconciled host input snapshot pensions funds) :
    ∀ entry ∈ pensions ++ funds, IsProductId .clal entry.product.id := by
  obtain ⟨pensionRows, fundRows, -, hpensions, hfunds⟩ := h.rows
  intro entry hentry
  rcases List.mem_append.mp hentry with hentry | hentry
  · obtain ⟨row, -, hborn⟩ := Pairings.exists_of_right hpensions hentry
    exact hborn.isProductId
  · obtain ⟨row, -, hborn⟩ := Pairings.exists_of_right hfunds hentry
    exact hborn.isProductId

/-- The valuations are named after their products. -/
theorem Reconciled.valuationId (h : Reconciled host input snapshot pensions funds) :
    ∀ entry ∈ pensions ++ funds,
      ∃ rest, entry.valuation.id.toList = entry.product.id.toList ++ ':' :: rest := by
  obtain ⟨pensionRows, fundRows, -, hpensions, hfunds⟩ := h.rows
  intro entry hentry
  rcases List.mem_append.mp hentry with hentry | hentry
  · obtain ⟨row, -, hborn⟩ := Pairings.exists_of_right hpensions hentry
    exact hborn.valuationId
  · obtain ⟨row, -, hborn⟩ := Pairings.exists_of_right hfunds hentry
    exact hborn.valuationId

/-- Trimming leaves the ids of the tracks alone. -/
theorem Reconciled.trackIds (h : Reconciled host input snapshot pensions funds) :
    snapshot.trimmed.tracks.map (·.id) = snapshot.tracks.map (·.id) := by
  obtain ⟨pensionRows, fundRows, -, hpensions, hfunds⟩ := h.rows
  have heach : ∀ entry ∈ pensions ++ funds,
      (entry.tracks.map (·.trimmed)).map (·.id) = entry.tracks.map (·.id) := by
    intro entry hentry
    have hproduct := (h.isProductId entry hentry).isIdText
    rcases List.mem_append.mp hentry with hentry | hentry
    · obtain ⟨row, -, hborn⟩ := Pairings.exists_of_right hpensions hentry
      exact trackIds_trimmed hproduct hborn.tracks
    · obtain ⟨row, -, hborn⟩ := Pairings.exists_of_right hfunds hentry
      exact trackIds_trimmed hproduct hborn.tracks
  change (snapshot.tracks.map (·.trimmed)).map (·.id) = _
  rw [h.tracks, List.map_flatMap, List.map_flatMap, List.map_flatMap]
  exact List.flatMap_congr heach

/-- **A trimmed snapshot is still reconciled.** -/
theorem Reconciled.trimmed (h : Reconciled host input snapshot pensions funds) :
    Reconciled host input snapshot.trimmed (pensions.map (·.trimmed)) (funds.map (·.trimmed)) := by
  obtain ⟨pensionRows, fundRows, hrows, hpensions, hfunds⟩ := h.rows
  refine {
    rows := ⟨pensionRows, fundRows, hrows, trimmedEntries hpensions, trimmedEntries hfunds⟩
    pensionDetails := h.pensionDetails.trimmed hpensions
    gemelDetails := h.gemelDetails.trimmed hfunds
    products := ?_
    valuations := ?_
    tracks := ?_ }
  · change snapshot.products.map (·.trimmed) = _
    rw [h.products, ← List.map_append, List.map_map, List.map_map]
    rfl
  · change snapshot.valuations.map (·.trimmed) = _
    rw [h.valuations, ← List.map_append, List.map_map, List.map_map]
    rfl
  · change snapshot.tracks.map (·.trimmed) = _
    rw [h.tracks, ← List.map_append, List.map_flatMap, List.flatMap_map]
    rfl

end

section
variable {host : Host}

/-- The entries of a complete snapshot, before it is trimmed. -/
theorem reconciled_of_runs {input : ClalPortfolioInput} {home : JsFields}
    {pensionDetails gemelDetails daily : List (String × JsFields)}
    {pensionRows gemelRows : List JsValue} {records rows : List JsFields}
    {start : InvestmentSnapshot} {pensions all : ClalBuilding}
    (hstart : start.products = [] ∧ start.valuations = [] ∧ start.tracks = [])
    (hhome : responseData input.portfolio = .ok home)
    (hpensionDetails : indexDetails .pension input.pensionDetails [] = .ok pensionDetails)
    (hgemelDetails : indexDetails .hishtalmut input.gemelDetails [] = .ok gemelDetails)
    (hpensionRows : sourceArray (JsValue.get home "PortfolioDataPensionFundation") =
      .ok pensionRows)
    (hgemelRows : sourceArray (JsValue.get home "PortfolioDataGemelHichudList") = .ok gemelRows)
    (hrecords : gemelRows.mapM sourceRecord = .ok records)
    (hrows : hishtalmutRows records = .ok rows)
    (hpensions : pensionRows.foldlM (addPension host) ⟨start, pensionDetails⟩ = .ok pensions)
    (hall : rows.foldlM (addHishtalmut host daily) ⟨pensions.snapshot, gemelDetails⟩ = .ok all)
    (hleft : pensions.details = [] ∧ all.details = [])
    (hcomplete : all.snapshot.complete = true)
    (hnodup : (all.snapshot.valuations.map (·.id)).Nodup) :
    ∃ pensionEntries funds, Reconciled host input all.snapshot pensionEntries funds := by
  obtain ⟨funds, hfunds⟩ := rows_ok JsValue.object addHishtalmut_ok hall hcomplete hnodup
  have hcompletePensions : pensions.snapshot.complete = true := by
    rw [← hcomplete]
    exact hfunds.complete.symm
  have hnodupPensions : (pensions.snapshot.valuations.map (·.id)).Nodup := by
    rw [hfunds.valuations, List.map_append] at hnodup
    exact (List.nodup_append.mp hnodup).1
  obtain ⟨entries, hentries⟩ := rows_ok id addPension_ok hpensions hcompletePensions
    hnodupPensions
  rw [List.map_id] at hentries
  have hpensionTaken := hentries.details
  have hfundTaken := hfunds.details
  rw [hleft.1, List.append_nil] at hpensionTaken
  rw [hleft.2, List.append_nil] at hfundTaken
  refine ⟨entries, funds, {
    rows := ⟨pensionRows, rows.map JsValue.object, ⟨home, gemelRows, hhome, ?_, ?_,
      hishtalmutRows_ok hrecords hrows⟩, hentries.each, hfunds.each⟩
    pensionDetails := detailsOf_index hpensionDetails hpensionTaken
    gemelDetails := detailsOf_index hgemelDetails hfundTaken
    products := ?_
    valuations := ?_
    tracks := ?_ }⟩
  · exact sourceArray_ok hpensionRows
  · exact sourceArray_ok hgemelRows
  · rw [hfunds.products, hentries.products, List.map_append]
    change start.products ++ _ ++ _ = _
    rw [hstart.1, List.nil_append]
  · rw [hfunds.valuations, hentries.valuations, List.map_append]
    change start.valuations ++ _ ++ _ = _
    rw [hstart.2.1, List.nil_append]
  · rw [hfunds.tracks, hentries.tracks, List.flatMap_append]
    change start.tracks ++ _ ++ _ = _
    rw [hstart.2.2, List.nil_append]

/-- **A complete snapshot is reconciled.**  The rows of the home page and the
details are in bijection; the current valuation of every product is the balance
and the date of its detail, the tracks of a hishtalmut fund add up to it, and
all ids are distinct. -/
theorem clalPortfolio_reconciled {input : ClalPortfolioInput} {snapshot : InvestmentSnapshot}
    (h : parseClalPortfolioSnapshot host input = .ok snapshot)
    (hcomplete : snapshot.complete = true) :
    ∃ pensions funds, Reconciled host input snapshot pensions funds ∧
      (snapshot.products.map (·.id)).Nodup ∧ (snapshot.valuations.map (·.id)).Nodup ∧
      (snapshot.tracks.map (·.id)).Nodup := by
  unfold parseClalPortfolioSnapshot at h
  split_ifs at h
  obtain ⟨home, hhome, h⟩ := except_bind_ok.mp h
  obtain ⟨pensionDetails, hpensionDetails, h⟩ := except_bind_ok.mp h
  obtain ⟨gemelDetails, hgemelDetails, h⟩ := except_bind_ok.mp h
  obtain ⟨pensionRows, hpensionRows, h⟩ := except_bind_ok.mp h
  obtain ⟨gemelRows, hgemelRows, h⟩ := except_bind_ok.mp h
  obtain ⟨records, hrecords, h⟩ := except_bind_ok.mp h
  obtain ⟨rows, hrows, h⟩ := except_bind_ok.mp h
  obtain ⟨⟨daily, found⟩, -, h⟩ := except_bind_ok.mp h
  obtain ⟨pensions, hpensions, h⟩ := except_bind_ok.mp h
  obtain ⟨all, hall, h⟩ := except_bind_ok.mp h
  dsimp only at h
  by_cases hleft : pensions.details ≠ [] ∨ all.details ≠ [] ∨ all.snapshot.products = []
  · rw [if_pos hleft] at h
    cases h
  rw [if_neg hleft] at h
  rw [not_or, not_or, not_ne_iff, not_ne_iff] at hleft
  by_cases hnodup : (all.snapshot.products.map (·.id)).Nodup ∧
      (all.snapshot.valuations.map (·.id)).Nodup ∧ (all.snapshot.tracks.map (·.id)).Nodup
  swap
  · rw [if_neg hnodup] at h
    cases h
  rw [if_pos hnodup] at h
  cases hparse : parseSnapshot host { all.snapshot with
      inventoryComplete := all.snapshot.complete } with
  | error e =>
      rw [hparse] at h
      cases h
  | ok result =>
      rw [hparse] at h
      obtain rfl := Except.ok.inj h
      obtain ⟨rfl, -⟩ := parseSnapshot_ok hparse
      obtain ⟨entries, funds, hreconciled⟩ := reconciled_of_runs ⟨rfl, rfl, rfl⟩ hhome
        hpensionDetails hgemelDetails hpensionRows hgemelRows hrecords hrows hpensions hall
        ⟨hleft.1, hleft.2.1⟩ hcomplete hnodup.2.1
      have hkept : Reconciled host input { all.snapshot with
          inventoryComplete := all.snapshot.complete } entries funds :=
        ⟨hreconciled.rows, hreconciled.pensionDetails, hreconciled.gemelDetails,
          hreconciled.products, hreconciled.valuations, hreconciled.tracks⟩
      have htrimmed := hkept.trimmed
      have hproducts : ((entries.map (·.trimmed) ++ funds.map (·.trimmed)).map
          (·.product.id)).Nodup := by
        obtain ⟨_, _, -, hbornPensions, hbornFunds⟩ := hkept.rows
        rw [List.map_append, trimmedIds hbornPensions, trimmedIds hbornFunds, ← List.map_append]
        have hids := hnodup.1
        rw [hreconciled.products, List.map_map] at hids
        exact hids
      refine ⟨_, _, htrimmed, ?_, ?_, ?_⟩
      · rw [htrimmed.products, List.map_map]
        exact hproducts
      · rw [htrimmed.valuations, List.map_map]
        exact nodup_behind htrimmed.isProductId hproducts htrimmed.valuationId
      · rw [hkept.trackIds]
        exact hnodup.2.2

end

/-! ## One pension and one fund -/

/-- A successful answer. -/
def exampleClalSuccess (fields : JsFields) : ClalApiResponse where
  status := some 200
  data := .object (("IsSuccess", .bool true) :: fields)

/-- The answers about a pension with a track, and about a fund with two tracks. -/
def exampleClalInput : ClalPortfolioInput where
  portfolio := exampleClalSuccess [
    ("PortfolioDataPensionFundation", .array [.object [("PolicyId", .string "P-1"),
      ("PensionPlanName", .string "Pension"), ("BalanceTotal", .string "2,000"),
      ("ValidationDate", .string "31/08/2026")]]),
    ("PortfolioDataGemelHichudList", .array [
      .object [("IsHishtalmut", .bool false)],
      .object [("IsHishtalmut", .bool true), ("InsuranceNumber", .string "F-1"),
        ("InsuranceName", .string "Fund")]])]
  dailyBalances := some (exampleClalSuccess [("AllPoliciesFoundInCache", .bool true),
    ("GemelDailyBalanceData", .object [("IsSuccess", .bool true), ("Items", .array [
      .object [("InsuranceNumber", .string "F-1"), ("Balance", .string "300.50"),
        ("ProfitUpdateDate", .string "30.08.2026")]])])])
  pensionDetails := [exampleClalSuccess [
    ("PolicyDetails", .object [("PolicyId", .string " P-1"), ("BalanceTotal", .string "2000.0")]),
    ("PeriodBalance", .object [("Date", .string "2026-08-31")]),
    ("InvestmentTracks", .object [("InvestmentTracksRows", .array [
      .object [("TrackNum", .string "7"), ("TrackName", .string "General")]])])]]
  gemelDetails := [exampleClalSuccess [
    ("IsHishtalmut", .bool true), ("IsGemelDailyBalanceSuccess", .bool true),
    ("FundDetails", .object [("FundNumber", .string "F-1"), ("Balance", .string "300.5"),
      ("ProfitUpdateDate", .string "30/08/2026")]),
    ("MaslulimTab", .object [("BalanceSum", .string "300.50"), ("Maslulim", .array [
      .object [("CurrentBalance", .string "100.25"), ("ConfirmationCode", .string "1"),
        ("ProductCode", .string "2"), ("KupaCode", .string "3"), ("Name", .string "Shares"),
        ("ValidateDate", .string "29/08/26")],
      .object [("CurrentBalance", .string "0")],
      .object [("CurrentBalance", .string "200.25"), ("ConfirmationCode", .string "1"),
        ("ProductCode", .string "2"), ("KupaCode", .string "4"), ("Name", .string "Bonds")]])])]]
  observedAt := "2026-08-31T10:00:00.000Z"

/-- A pension and a fund, each with its details. -/
theorem clalPortfolio_reconciled_example :
    ∃ snapshot, parseClalPortfolioSnapshot asciiHost exampleClalInput = .ok snapshot ∧
      snapshot.complete = true ∧ ∃ pensions funds,
        Reconciled asciiHost exampleClalInput snapshot pensions funds ∧
          (snapshot.products.map (·.id)).Nodup ∧ (snapshot.valuations.map (·.id)).Nodup ∧
          (snapshot.tracks.map (·.id)).Nodup := by
  have hdone : (parseClalPortfolioSnapshot asciiHost exampleClalInput).toOption.any (·.complete) =
      true := by
    decide +kernel
  obtain ⟨snapshot, hresult, hcomplete⟩ := exists_ok_of_any hdone
  exact ⟨snapshot, hresult, hcomplete, clalPortfolio_reconciled hresult hcomplete⟩

end SimplefinBridge
