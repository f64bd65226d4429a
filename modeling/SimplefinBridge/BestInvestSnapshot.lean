import SimplefinBridge.Library.Pairings
import SimplefinBridge.ProviderValues

/-!
# Snapshots of Best Invest

A collection captures the answers about every policy, and
`buildBestInvestSnapshot` makes one snapshot of them.  Anything that is missing
or does not add up makes the snapshot incomplete, and reports a reason; what is
malformed is refused.

A complete snapshot has for every policy an *entry*: its product, its current
valuation and its tracks, which the answers bear out (`BornOut`,
`bestInvest_reconciled`).
-/

namespace SimplefinBridge

open Decimals

/-! ## The builder -/

/-- What was captured of a policy. -/
structure BestInvestCapturedPolicy where
  /-- Raw details response. -/
  details : JsValue
  /-- Optional current-year deposits response. -/
  deposits : JsValue
  /-- Actual year requested. -/
  depositsYear : JsValue
  /-- Exact inventory identity, if available. -/
  expectedPolicyId : JsValue

/-- What was captured of the portal. -/
structure BuildBestInvestSnapshotInput where
  observedAt : String
  policies : List BestInvestCapturedPolicy
  inventoryComplete : Bool

/-- Why a snapshot is not complete. -/
inductive BestInvestIncompleteReason
  | INVENTORY_INCOMPLETE | POLICIES_EMPTY | POLICY_DETAILS_MISSING | POLICY_ID_MISSING
  | POLICY_NAME_MISSING | VALUATION_AMOUNT_MISSING | TRACK_ACCUMULATION_MISSING
  | TRACK_ALLOCATION_MISSING | TRACK_ROWS_INVALID | TRACK_ALLOCATION_ROWS_INVALID
  | TRACK_TOTAL_MISSING | TRACK_AMOUNT_MISSING | TRACK_MAPPING_MISSING | TRACK_MAPPING_AMBIGUOUS
  | TRACK_ID_MISSING | TRACK_SUM_MISMATCH | TRACK_TOTAL_MISMATCH | DEPOSITS_MISSING
  | DEPOSIT_ROWS_INVALID | DEPOSITS_TOTAL_MISSING | DEPOSIT_AMOUNT_MISSING | DEPOSITS_SUM_MISMATCH
  deriving DecidableEq, Repr

/-- The snapshot while it is built, and the reasons reported so far. -/
structure Building where
  snapshot : InvestmentSnapshot
  reasons : List BestInvestIncompleteReason

/-- A reason makes the snapshot incomplete. -/
def incomplete (building : Building) (reason : BestInvestIncompleteReason) : Building where
  snapshot := { building.snapshot with complete := false }
  reasons := building.reasons ++ [reason]

section
variable (host : Host)

/-- An identifier, as a number or a text. -/
def identity (value : JsValue) : Except ParseError String :=
  match value with
  | .number (some x) =>
      if isSafeInteger x ∧ 0 ≤ x then .ok (host.numberToString x) else .error .INVALID_RESPONSE
  | other => sourceText other

/-- An amount, as a number or a text. -/
def moneyInput (value : JsValue) : Except ParseError String :=
  match value with
  | .number (some x) =>
      if isSafeInteger x then .ok (host.numberToString x) else .error .INVALID_RESPONSE
  | other => sourceText other

/-- Exact shekel/cents strings. -/
def parseBestInvestMoney (value : JsValue) : Except ParseError String := do
  let input ← moneyInput host value
  parseMoneyText ['+', '-'] input

/-- `nonnegativeMoney(value)` -/
def bestInvestNonnegativeMoney (value : JsValue) : Except ParseError String := do
  let amount ← parseBestInvestMoney host value
  requireNonnegative amount

/-- `(?:[01]\d|2[0-3])` -/
def isHour (a b : Char) : Bool :=
  ((a = '0' || a = '1') && b.isDigit) || (a = '2' && '0' ≤ b && b ≤ '3')

/-- `[0-5]\d` -/
def isSixty (a b : Char) : Bool := '0' ≤ a && a ≤ '5' && b.isDigit

/-- `(?:Z|[+-](?:[01]\d|2[0-3]):[0-5]\d)?$` -/
def isOffset (rest : List Char) : Bool :=
  match rest with
  | [] => true
  | ['Z'] => true
  | [sign, a, b, ':', c, d] => (sign = '+' || sign = '-') && isHour a b && isSixty c d
  | _ => false

/-- `/^\d{4}-\d{2}-\d{2}T(?:[01]\d|2[0-3]):[0-5]\d:[0-5]\d(?:\.\d+)?(?:Z|…)?$/` -/
def isProviderTimestamp (input : List Char) : Bool :=
  match input with
  | y :: y' :: y'' :: y''' :: '-' :: m :: m' :: '-' :: d :: d' :: 'T' :: a :: b :: ':' :: c :: c' ::
      ':' :: e :: e' :: rest =>
      [y, y', y'', y''', m, m', d, d'].all Char.isDigit && isHour a b && isSixty c c' &&
        isSixty e e' &&
        match rest with
        | '.' :: digits => digits.takeWhile Char.isDigit ≠ [] &&
            isOffset (digits.dropWhile Char.isDigit)
        | _ => isOffset rest
  | _ => false

/-- Retain the provider's calendar date, without converting its offset. -/
def parseBestInvestDate (value : JsValue) : Except ParseError (Option IsoDate) :=
  if missing value then .ok none
  else do
    let input ← sourceText value
    if "0001-01-01".toList.isPrefixOf input.toList ∧
        (input.toList.drop 10 = [] ∨ (input.toList.drop 10).head? = some 'T') then return none
    let day := dayFirst input.toList
    let candidate := String.ofList (day.getD (input.toList.take 10))
    if host.isIsoDate candidate ∧
        (day.isSome ∨ input = candidate ∨ isProviderTimestamp input.toList) then
      return some candidate
    else .error .INVALID_RESPONSE

/-- The product of a policy. -/
def policyProduct (details : List (String × JsValue)) : Except ParseError InvestmentProduct := do
  let providerProductId ← identity host (JsValue.get details "PolicyId")
  let id ← orThrow (investmentProductId providerProductId .hachshara_best_invest)
  let name ← sourceText (JsValue.get details "ProductName")
  return {
    id, provider := .hachshara_best_invest, providerProductId
    kind := .investment, name, currency := "ILS", currentValuationId := none
    liquidity := ⟨.unknown, none, none⟩
    coverage := ⟨.unavailable, .unavailable, .unavailable, none⟩
    forecast := none, reportSummaries := some [] }

/-- The allocations of a house and route. -/
def matchesRoute (house route : String) (candidate : List (String × JsValue)) :
    Except ParseError Bool := do
  let name ← sourceText (JsValue.get candidate "BeitHashkaotName")
  if name = house then
    let maslul ← sourceText (JsValue.get candidate "Maslul")
    return maslul = route
  else return false

/-- The allocations to a house and a route. -/
def allocationsOf (house route : String) :
    List (List (String × JsValue)) → Except ParseError (List (List (String × JsValue)))
  | [] => .ok []
  | candidate :: rest => do
      let found ← matchesRoute house route candidate
      let others ← allocationsOf house route rest
      return if found then candidate :: others else others

/-- The track of a row, and its amount; or a reason why the tracks are incomplete. -/
def trackOfRow (observedAt : String) (product : InvestmentProduct) (asOf : Option IsoDate)
    (allocations : List (List (String × JsValue))) (raw : JsValue) :
    Except ParseError (Except BestInvestIncompleteReason (Option InvestmentTrack × Int)) := do
  let row ← sourceRecord raw
  if missing (JsValue.get row "TotalTzvira") then return .error .TRACK_AMOUNT_MISSING
  let amount ← bestInvestNonnegativeMoney host (JsValue.get row "TotalTzvira")
  if amount = "0.00" then return .ok (none, cents amount)
  let house ← sourceText (JsValue.get row "BeitHashkaot")
  let route ← sourceText (JsValue.get row "Maslul")
  -- join only a unique exact house/route pair
  match ← allocationsOf house route allocations with
  | [] => return .error .TRACK_MAPPING_MISSING
  | [found] =>
      if missing (JsValue.get found "BeitHashkaotId") || missing (JsValue.get found "MaslulId") then
        return .error .TRACK_ID_MISSING
      let houseId ← identity host (JsValue.get found "BeitHashkaotId")
      let routeId ← identity host (JsValue.get found "MaslulId")
      let id ← orThrow (investmentTrackId product.id
        (encodeURIComponent houseId ++ ":" ++ encodeURIComponent routeId))
      return .ok (some {
        id, productId := product.id, name := house ++ " — " ++ route, amount := some amount
        allocationPercent := none, currency := "ILS", asOf, observedAt }, cents amount)
  | _ => return .error .TRACK_MAPPING_AMBIGUOUS

/-- The tracks of the rows, and their sum. -/
def tracksOfRows (observedAt : String) (product : InvestmentProduct) (asOf : Option IsoDate)
    (allocations : List (List (String × JsValue))) :
    List JsValue → Except ParseError (Except BestInvestIncompleteReason (List InvestmentTrack × Int))
  | [] => .ok (.ok ([], 0))
  | raw :: rows => do
      match ← trackOfRow host observedAt product asOf allocations raw with
      | .error reason => return .error reason
      | .ok (track, amount) =>
          match ← tracksOfRows observedAt product asOf allocations rows with
          | .error reason => return .error reason
          | .ok (tracks, sum) => return .ok (track.toList ++ tracks, amount + sum)

/-- The tracks of a policy, if they add up. -/
def addTracks (building : Building) (product : InvestmentProduct)
    (details : List (String × JsValue)) (asOf : Option IsoDate) (balance : String) :
    Except ParseError (Building × InvestmentProduct) := do
  if missing (JsValue.get details "PidyonTzvira") then
    return (incomplete building .TRACK_ACCUMULATION_MISSING, product)
  if missing (JsValue.get details "InvestmentPolicy") then
    return (incomplete building .TRACK_ALLOCATION_MISSING, product)
  let accumulation ← sourceRecord (JsValue.get details "PidyonTzvira")
  let investment ← sourceRecord (JsValue.get details "InvestmentPolicy")
  match JsValue.get accumulation "Pidyon", JsValue.get investment "Investments" with
  | .array rows, .array investments =>
      if missing (JsValue.get accumulation "TotalTzviraMaslulim") then
        return (incomplete building .TRACK_TOTAL_MISSING, product)
      let allocations ← investments.mapM sourceRecord
      match ← tracksOfRows host building.snapshot.observedAt product asOf allocations rows with
      | .error reason => return (incomplete building reason, product)
      | .ok (tracks, sum) =>
          if ¬ (tracks.map (·.id)).Nodup then .error .INVALID_RESPONSE
          else if sum ≠ cents balance then
            return (incomplete building .TRACK_SUM_MISMATCH, product)
          else
            let total ← bestInvestNonnegativeMoney host
              (JsValue.get accumulation "TotalTzviraMaslulim")
            if total ≠ balance then return (incomplete building .TRACK_TOTAL_MISMATCH, product)
            return ({ building with snapshot := { building.snapshot with
                tracks := building.snapshot.tracks ++ tracks } },
              { product with coverage := { product.coverage with tracks := .complete } })
  | .array _, _ => return (incomplete building .TRACK_ALLOCATION_ROWS_INVALID, product)
  | _, _ => return (incomplete building .TRACK_ROWS_INVALID, product)

/-- The sum of the deposit rows; `none` when an amount is missing. -/
def depositSum : List JsValue → Except ParseError (Option Int)
  | [] => .ok (some 0)
  | raw :: rows => do
      let row ← sourceRecord raw
      if missing (JsValue.get row "Amount") then return none
      let amount ← parseBestInvestMoney host (JsValue.get row "Amount")
      -- identical rows can be distinct payments
      return (← depositSum rows).map (cents amount + ·)

/-- The year that was requested. -/
def depositsYear (value : JsValue) : Except ParseError String :=
  match value with
  | .number (some x) =>
      if isSafeInteger x ∧ 1900 ≤ x ∧ x ≤ 9999 then .ok (host.numberToString x)
      else .error .INVALID_RESPONSE
  | _ => .error .INVALID_RESPONSE

/-- The deposits of the year as a summary, if they add up. -/
def addDepositSummary (building : Building) (product : InvestmentProduct)
    (capture : BestInvestCapturedPolicy) : Except ParseError (Building × InvestmentProduct) :=
  match capture.deposits with
  | .undefined => .ok (building, product)
  | deposits => do
      let year ← depositsYear host capture.depositsYear
      if deposits matches .null then return (incomplete building .DEPOSITS_MISSING, product)
      let data ← sourceRecord deposits
      match JsValue.get data "Deposits" with
      | .array rows =>
          if missing (JsValue.get data "TotalAmount") then
            return (incomplete building .DEPOSITS_TOTAL_MISSING, product)
          match ← depositSum host rows with
          | none => return (incomplete building .DEPOSIT_AMOUNT_MISSING, product)
          | some sum =>
              let total ← parseBestInvestMoney host (JsValue.get data "TotalAmount")
              if fromCents sum ≠ total then
                return (incomplete building .DEPOSITS_SUM_MISMATCH, product)
              return (building, { product with reportSummaries := some [{
                id := product.id ++ ":deposits:" ++ year
                title := "הפקדות שדווחו לשנת " ++ year
                fromDate := none, toDate := none
                lines := [⟨"סך הפקדות שדווחו", fromCents sum⟩] }] })
      | _ => return (incomplete building .DEPOSIT_ROWS_INVALID, product)

/-- `accumulation?.AppraislDate`, or the date of the policy where it is the
provider's blank date. -/
def appraisalDate (details : List (String × JsValue)) : Except ParseError JsValue :=
  if missing (JsValue.get details "PidyonTzvira") then .ok .undefined
  else (sourceRecord (JsValue.get details "PidyonTzvira")).map fun accumulation =>
    match JsValue.get accumulation "AppraislDate" with
    | .string "0001-01-01T00:00:00" => JsValue.get details "UpdatedToDate"
    | rawDate => rawDate

/-- The valuation of a policy, with its tracks and its deposits. -/
def addValuation (building : Building) (product : InvestmentProduct)
    (details : List (String × JsValue)) (capture : BestInvestCapturedPolicy) :
    Except ParseError Building := do
  let amount ← bestInvestNonnegativeMoney host (JsValue.get details "TotalSavings")
  let rawDate ← appraisalDate details
  let asOf ← parseBestInvestDate host rawDate
  let id ← orThrow (investmentValuationId product.id asOf)
  let valued := { building with snapshot := { building.snapshot with
    valuations := building.snapshot.valuations ++ [{
      id, productId := product.id, amount, asOf, currency := "ILS"
      observedAt := building.snapshot.observedAt, provenance := none }] } }
  let product := { product with
    currentValuationId := some id
    coverage := { product.coverage with valuations := .partially } }
  let (tracked, product) ← addTracks host valued product details asOf amount
  let (summarized, product) ← addDepositSummary host tracked product capture
  return { summarized with snapshot := { summarized.snapshot with
    products := summarized.snapshot.products ++ [product] } }

/-- The inventory's identity of a policy, where it has one, is the product's. -/
def checkExpectedPolicy (capture : BestInvestCapturedPolicy) (product : InvestmentProduct) :
    Except ParseError Unit :=
  match capture.expectedPolicyId with
  | .undefined => .ok ()
  | expected => do
      let policyId ← identity host expected
      if policyId = product.providerProductId then .ok () else .error .INVALID_RESPONSE

/-- One round of the loop over the policies. -/
def addPolicy (building : Building) (capture : BestInvestCapturedPolicy) :
    Except ParseError Building := do
  if missing capture.details then return incomplete building .POLICY_DETAILS_MISSING
  let details ← sourceRecord capture.details
  if missing (JsValue.get details "PolicyId") then return incomplete building .POLICY_ID_MISSING
  if missing (JsValue.get details "ProductName") then
    return incomplete building .POLICY_NAME_MISSING
  let product ← policyProduct host details
  checkExpectedPolicy host capture product
  if product.id ∈ building.snapshot.products.map (·.id) then .error .INVALID_RESPONSE
  else if missing (JsValue.get details "TotalSavings") then
    let building := { building with snapshot := { building.snapshot with
      products := building.snapshot.products ++ [product] } }
    return incomplete building .VALUATION_AMOUNT_MISSING
  else addValuation host building product details capture

/-- The snapshot before its policies are read. -/
def startBuilding (input : BuildBestInvestSnapshotInput) : Building :=
  let building : Building := ⟨{
    observedAt := input.observedAt
    complete := input.inventoryComplete && !input.policies.isEmpty
    inventoryComplete := input.inventoryComplete
    products := [], valuations := [], activities := [], tracks := [], executions := [] }, []⟩
  let building := if input.inventoryComplete then building
    else incomplete building .INVENTORY_INCOMPLETE
  if input.policies.isEmpty then incomplete building .POLICIES_EMPTY else building

/-- A missing product or failed reconciliation makes the whole collection
ineligible to replace saved data. -/
def buildBestInvestSnapshot (input : BuildBestInvestSnapshotInput) :
    Except ParseError (InvestmentSnapshot × List BestInvestIncompleteReason) := do
  if isTimestamp input.observedAt then
    let building ← input.policies.foldlM (addPolicy host) (startBuilding input)
    match parseSnapshot host { building.snapshot with
        inventoryComplete := input.inventoryComplete && building.snapshot.complete } with
    | .ok result => return (result, building.reasons)
    | .error _ => .error .INVALID_RESPONSE
  else .error .INVALID_RESPONSE

end

open Transactional (except_bind_ok exists_ok_of_any)

/-! ## What a complete snapshot represents -/

/-- What is recorded for a policy. -/
structure PolicyEntry where
  product : InvestmentProduct
  valuation : InvestmentValuation
  tracks : List InvestmentTrack

section
variable (host : Host)

/-- The amount that a row of the provider says is accumulated. -/
def accumulated (row : JsValue) : Option String :=
  match row with
  | .object fields =>
      (bestInvestNonnegativeMoney host (JsValue.get fields "TotalTzvira")).toOption
  | _ => none

/-- A row with money on it. -/
def holdsMoney (row : JsValue) : Bool := accumulated host row ≠ some "0.00"

/-- A track is that of a row: its amount and its name. -/
def IsTrackOf (row : JsValue) (track : InvestmentTrack) : Prop :=
  (∃ amount, accumulated host row = some amount ∧ track.amount = some amount) ∧
    ∃ fields house route, row = .object fields ∧
      sourceText (JsValue.get fields "BeitHashkaot") = .ok house ∧
      sourceText (JsValue.get fields "Maslul") = .ok route ∧
      jsTrim track.name = jsTrim (house ++ " — " ++ route)

/-- The amount of a deposit row. -/
def IsDeposit (row : JsValue) (amount : String) : Prop :=
  ∃ fields, row = .object fields ∧
    parseBestInvestMoney host (JsValue.get fields "Amount") = .ok amount

/-- The deposit rows of a capture add up to their total, when it has any. -/
def DepositsAddUp (capture : BestInvestCapturedPolicy) : Prop :=
  capture.deposits ≠ .undefined → ∃ fields rows amounts total,
    capture.deposits = .object fields ∧ JsValue.get fields "Deposits" = .array rows ∧
    List.Forall₂ (IsDeposit host) rows amounts ∧
    parseBestInvestMoney host (JsValue.get fields "TotalAmount") = .ok total ∧
    (amounts.map cents).sum = cents total

/-- Every amount and id of an entry is borne out by the answers about a policy. -/
structure BornOut (capture : BestInvestCapturedPolicy) (entry : PolicyEntry) : Prop where
  details : ∃ details policyId accumulation rows,
    capture.details = .object details ∧
    identity host (JsValue.get details "PolicyId") = .ok policyId ∧
    investmentProductId policyId .hachshara_best_invest = .ok entry.product.id ∧
    bestInvestNonnegativeMoney host (JsValue.get details "TotalSavings") =
      .ok entry.valuation.amount ∧
    JsValue.get details "PidyonTzvira" = .object accumulation ∧
    JsValue.get accumulation "Pidyon" = .array rows ∧
    bestInvestNonnegativeMoney host (JsValue.get accumulation "TotalTzviraMaslulim") =
      .ok entry.valuation.amount ∧
    List.Forall₂ (IsTrackOf host) (rows.filter (holdsMoney host)) entry.tracks
  current : entry.product.currentValuationId = some entry.valuation.id
  valuation : entry.valuation.productId = entry.product.id
  valuationId : ∃ rest, entry.valuation.id.toList = entry.product.id.toList ++ ':' :: rest
  tracks : ∀ track ∈ entry.tracks, track.productId = entry.product.id ∧
    ∃ sourceId, investmentTrackId entry.product.id sourceId = .ok track.id
  nodup : (entry.tracks.map (·.id)).Nodup
  sum : (entry.tracks.map trackCents).sum = cents entry.valuation.amount
  deposits : DepositsAddUp host capture

variable {host}

/-- Where a balance is read, there are fields. -/
theorem accumulated_object {fields : List (String × JsValue)} {amount : String}
    (h : bestInvestNonnegativeMoney host (JsValue.get fields "TotalTzvira") = .ok amount) :
    accumulated host (.object fields) = some amount := by
  unfold accumulated
  dsimp only
  rw [h]
  rfl

/-- **A row of a policy** is a track, or it holds no money. -/
theorem trackOfRow_ok {observedAt : String} {product : InvestmentProduct}
    {asOf : Option IsoDate} {allocations : List (List (String × JsValue))} {raw : JsValue}
    {track : Option InvestmentTrack} {amount : Int}
    (h : trackOfRow host observedAt product asOf allocations raw = .ok (.ok (track, amount))) :
    (track = none ∧ holdsMoney host raw = false ∧ amount = 0) ∨
      ∃ found, track = some found ∧ holdsMoney host raw = true ∧ IsTrackOf host raw found ∧
        amount = trackCents found ∧ found.productId = product.id ∧
        ∃ sourceId, investmentTrackId product.id sourceId = .ok found.id := by
  obtain ⟨row, hrow, hfields⟩ := except_bind_ok.mp h
  obtain rfl := sourceRecord_ok hrow
  split_ifs at hfields with hmissing
  · cases hfields
  obtain ⟨text, htext, hamount⟩ := except_bind_ok.mp hfields
  have haccumulated := accumulated_object htext
  split_ifs at hamount with hzero
  · obtain ⟨rfl, rfl⟩ := Prod.mk.inj (Except.ok.inj (Except.ok.inj hamount))
    refine .inl ⟨rfl, ?_, ?_⟩
    · unfold holdsMoney
      rw [haccumulated, hzero]
      rfl
    · rw [hzero]
      rfl
  have hholds : holdsMoney host (.object row) = true := by
    unfold holdsMoney
    rw [haccumulated]
    exact decide_eq_true fun heq => hzero (Option.some.inj heq)
  obtain ⟨house, hhouse, hamount⟩ := except_bind_ok.mp hamount
  obtain ⟨route, hroute, hamount⟩ := except_bind_ok.mp hamount
  obtain ⟨found, -, hamount⟩ := except_bind_ok.mp hamount
  rcases found with _ | ⟨allocation, _ | ⟨next, others⟩⟩
  · cases hamount
  · dsimp only at hamount
    split_ifs at hamount
    · cases hamount
    obtain ⟨houseId, -, hamount⟩ := except_bind_ok.mp hamount
    obtain ⟨routeId, -, hamount⟩ := except_bind_ok.mp hamount
    obtain ⟨id, hid, hamount⟩ := except_bind_ok.mp hamount
    obtain ⟨rfl, rfl⟩ := Prod.mk.inj (Except.ok.inj (Except.ok.inj hamount))
    refine .inr ⟨_, rfl, hholds, ⟨⟨text, haccumulated, rfl⟩, row, house, route, rfl, hhouse,
      hroute, rfl⟩, rfl, rfl, _, orThrow_ok hid⟩
  · cases hamount

/-- **The tracks of the rows**: one for each row with money on it. -/
theorem tracksOfRows_ok {observedAt : String} {product : InvestmentProduct}
    {asOf : Option IsoDate} {allocations : List (List (String × JsValue))} {rows : List JsValue}
    {tracks : List InvestmentTrack} {sum : Int}
    (h : tracksOfRows host observedAt product asOf allocations rows = .ok (.ok (tracks, sum))) :
    List.Forall₂ (IsTrackOf host) (rows.filter (holdsMoney host)) tracks ∧
      sum = (tracks.map trackCents).sum ∧
      ∀ track ∈ tracks, track.productId = product.id ∧
        ∃ sourceId, investmentTrackId product.id sourceId = .ok track.id := by
  induction rows generalizing tracks sum with
  | nil =>
      obtain ⟨rfl, rfl⟩ := Prod.mk.inj (Except.ok.inj (Except.ok.inj h))
      exact ⟨.nil, rfl, fun _ ht => absurd ht List.not_mem_nil⟩
  | cons raw rows ih =>
      obtain ⟨first, hfirst, hrest⟩ := except_bind_ok.mp h
      cases first with
      | error reason => cases hrest
      | ok pair =>
          obtain ⟨track, amount⟩ := pair
          obtain ⟨others, hothers, hrest⟩ := except_bind_ok.mp hrest
          cases others with
          | error reason => cases hrest
          | ok pair =>
              obtain ⟨rest, restSum⟩ := pair
              obtain ⟨rfl, rfl⟩ := Prod.mk.inj (Except.ok.inj (Except.ok.inj hrest))
              obtain ⟨hforall, hsum, hall⟩ := ih hothers
              rcases trackOfRow_ok hfirst with ⟨rfl, hholds, rfl⟩ |
                ⟨found, rfl, hholds, htrack, rfl, hproduct, hid⟩
              · rw [List.filter_cons_of_neg (by rw [hholds]; exact Bool.false_ne_true), zero_add]
                exact ⟨hforall, hsum, hall⟩
              · rw [List.filter_cons_of_pos hholds]
                refine ⟨.cons htrack hforall, ?_, ?_⟩
                · change _ = trackCents found + (rest.map trackCents).sum
                  rw [hsum]
                · intro other hother
                  rcases List.mem_cons.mp hother with rfl | hother
                  · exact ⟨hproduct, hid⟩
                  · exact hall other hother

/-- A sum of deposits is a sum of their amounts. -/
theorem depositSum_ok {rows : List JsValue} {sum : Int} (h : depositSum host rows = .ok (some sum)) :
    ∃ amounts, List.Forall₂ (IsDeposit host) rows amounts ∧ sum = (amounts.map cents).sum := by
  induction rows generalizing sum with
  | nil =>
      obtain rfl := Option.some.inj (Except.ok.inj h)
      exact ⟨[], .nil, rfl⟩
  | cons raw rows ih =>
      obtain ⟨row, hrow, hfields⟩ := except_bind_ok.mp h
      obtain rfl := sourceRecord_ok hrow
      split_ifs at hfields
      · cases hfields
      obtain ⟨amount, hamount, hrest⟩ := except_bind_ok.mp hfields
      obtain ⟨others, hothers, hrest⟩ := except_bind_ok.mp hrest
      cases others with
      | none => cases hrest
      | some rest =>
          obtain ⟨amounts, hforall, rfl⟩ := ih hothers
          obtain rfl := Option.some.inj (Except.ok.inj hrest)
          exact ⟨amount :: amounts, .cons ⟨row, rfl, hamount⟩ hforall, rfl⟩

end

/-! ## One policy -/

section
variable {host : Host}

/-- What the tracks of a policy add when they leave the snapshot complete. -/
structure AddsTracks (host : Host) (details : List (String × JsValue)) (product : InvestmentProduct)
    (balance : String) (tracks : List InvestmentTrack) : Prop where
  rows : ∃ accumulation rows,
    JsValue.get details "PidyonTzvira" = .object accumulation ∧
    JsValue.get accumulation "Pidyon" = .array rows ∧
    bestInvestNonnegativeMoney host (JsValue.get accumulation "TotalTzviraMaslulim") =
      .ok balance ∧
    List.Forall₂ (IsTrackOf host) (rows.filter (holdsMoney host)) tracks
  nodup : (tracks.map (·.id)).Nodup
  sum : (tracks.map trackCents).sum = cents balance
  tracks : ∀ track ∈ tracks, track.productId = product.id ∧
    ∃ sourceId, investmentTrackId product.id sourceId = .ok track.id

/-- What the tracks add to a complete snapshot. -/
theorem addTracks_ok {building building' : Building} {product product' : InvestmentProduct}
    {details : List (String × JsValue)} {asOf : Option IsoDate} {balance : String}
    (h : addTracks host building product details asOf balance = .ok (building', product')) :
    building'.snapshot.complete = false ∨ ∃ tracks,
      AddsTracks host details product balance tracks ∧ SameProduct product product' ∧
        building'.snapshot =
          { building.snapshot with tracks := building.snapshot.tracks ++ tracks } := by
  have hlower : ∀ {reason}, (Except.ok (incomplete building reason, product) :
      Except ParseError (Building × InvestmentProduct)) = .ok (building', product') →
        building'.snapshot.complete = false := by
    intro reason h
    rw [← (Prod.mk.inj (Except.ok.inj h)).1]
    rfl
  unfold addTracks at h
  split_ifs at h
  · exact .inl (hlower h)
  · exact .inl (hlower h)
  obtain ⟨accumulation, haccumulation, h⟩ := except_bind_ok.mp h
  obtain ⟨investment, hinvestment, h⟩ := except_bind_ok.mp h
  split at h
  · rename_i rows investments hrows hinvestments
    split_ifs at h
    · exact .inl (hlower h)
    obtain ⟨allocations, -, h⟩ := except_bind_ok.mp h
    obtain ⟨result, hresult, h⟩ := except_bind_ok.mp h
    cases result with
    | error reason => exact .inl (hlower h)
    | ok pair =>
        obtain ⟨tracks, sum⟩ := pair
        dsimp only at h
        split_ifs at h with hnodup hsum
        · exact .inl (hlower h)
        obtain ⟨total, htotal, h⟩ := except_bind_ok.mp h
        split_ifs at h with hbalance
        · exact .inl (hlower h)
        obtain ⟨rfl, rfl⟩ := Prod.mk.inj (Except.ok.inj h)
        obtain ⟨hforall, hvalue, hall⟩ := tracksOfRows_ok hresult
        rw [not_ne_iff] at hsum hbalance
        refine .inr ⟨tracks, ⟨⟨accumulation, rows, sourceRecord_ok haccumulation, hrows, ?_,
          hforall⟩, hnodup, hvalue.symm.trans hsum, hall⟩, ⟨rfl, rfl⟩, rfl⟩
        rw [htotal, hbalance]
  · exact .inl (hlower h)
  · exact .inl (hlower h)

/-- What the deposits add. -/
theorem addDepositSummary_ok {building building' : Building} {product product' : InvestmentProduct}
    {capture : BestInvestCapturedPolicy}
    (h : addDepositSummary host building product capture = .ok (building', product')) :
    building'.snapshot.complete = false ∨ DepositsAddUp host capture ∧
      SameProduct product product' ∧ building'.snapshot = building.snapshot := by
  have hlower : ∀ {reason}, (Except.ok (incomplete building reason, product) :
      Except ParseError (Building × InvestmentProduct)) = .ok (building', product') →
        building'.snapshot.complete = false := by
    intro reason h
    rw [← (Prod.mk.inj (Except.ok.inj h)).1]
    rfl
  unfold addDepositSummary at h
  split at h
  · rename_i hundefined
    obtain ⟨rfl, rfl⟩ := Prod.mk.inj (Except.ok.inj h)
    exact .inr ⟨fun hne => absurd hundefined hne, ⟨rfl, rfl⟩, rfl⟩
  · obtain ⟨year, -, h⟩ := except_bind_ok.mp h
    split_ifs at h
    · exact .inl (hlower h)
    obtain ⟨data, hdata, h⟩ := except_bind_ok.mp h
    split at h
    · rename_i rows hrows
      split_ifs at h
      · exact .inl (hlower h)
      obtain ⟨result, hresult, h⟩ := except_bind_ok.mp h
      cases result with
      | none => exact .inl (hlower h)
      | some sum =>
          obtain ⟨total, htotal, h⟩ := except_bind_ok.mp h
          split_ifs at h with hsum
          · exact .inl (hlower h)
          obtain ⟨rfl, rfl⟩ := Prod.mk.inj (Except.ok.inj h)
          obtain ⟨amounts, hforall, rfl⟩ := depositSum_ok hresult
          rw [not_ne_iff] at hsum
          refine .inr ⟨fun _ => ⟨data, rows, amounts, total, sourceRecord_ok hdata, hrows, hforall,
            htotal, ?_⟩, ⟨rfl, rfl⟩, rfl⟩
          rw [← hsum, cents_fromCents]
    · exact .inl (hlower h)

/-- A snapshot with the records of an entry added. -/
def PolicyEntry.addTo (entry : PolicyEntry) (snapshot : InvestmentSnapshot) : InvestmentSnapshot :=
  { snapshot with
    products := snapshot.products ++ [entry.product]
    valuations := snapshot.valuations ++ [entry.valuation]
    tracks := snapshot.tracks ++ entry.tracks }

/-- A product is named after its policy. -/
theorem policyProduct_ok {details : List (String × JsValue)} {product : InvestmentProduct}
    (h : policyProduct host details = .ok product) :
    ∃ policyId, identity host (JsValue.get details "PolicyId") = .ok policyId ∧
      investmentProductId policyId .hachshara_best_invest = .ok product.id := by
  obtain ⟨policyId, hpolicy, h⟩ := except_bind_ok.mp h
  obtain ⟨id, hid, h⟩ := except_bind_ok.mp h
  obtain ⟨name, -, h⟩ := except_bind_ok.mp h
  obtain rfl := Except.ok.inj h
  exact ⟨policyId, hpolicy, orThrow_ok hid⟩

/-- What the valuation of a policy adds. -/
theorem addValuation_ok {building building' : Building} {product : InvestmentProduct}
    {details : List (String × JsValue)} {capture : BestInvestCapturedPolicy}
    (hdetails : capture.details = .object details)
    (hproduct : policyProduct host details = .ok product)
    (h : addValuation host building product details capture = .ok building') :
    building'.snapshot.complete = false ∨ ∃ entry, BornOut host capture entry ∧
      entry.product.id = product.id ∧ building'.snapshot = entry.addTo building.snapshot := by
  obtain ⟨policyId, hpolicy, hproductId⟩ := policyProduct_ok hproduct
  obtain ⟨amount, hamount, h⟩ := except_bind_ok.mp h
  obtain ⟨rawDate, -, h⟩ := except_bind_ok.mp h
  obtain ⟨asOf, -, h⟩ := except_bind_ok.mp h
  obtain ⟨id, hid, h⟩ := except_bind_ok.mp h
  obtain ⟨⟨tracked, product'⟩, htracked, h⟩ := except_bind_ok.mp h
  obtain ⟨⟨summarized, product''⟩, hsummarized, h⟩ := except_bind_ok.mp h
  obtain rfl := Except.ok.inj h
  rcases addDepositSummary_ok hsummarized with hfalse | ⟨hdeposits, hsame', hsnapshot'⟩
  · exact .inl hfalse
  rcases addTracks_ok htracked with hfalse | ⟨tracks, hadds, hsame, hsnapshot⟩
  · left
    change summarized.snapshot.complete = false
    rw [hsnapshot']
    exact hfalse
  obtain ⟨⟨accumulation, rows, haccumulation, hrows, htotal, hforall⟩, hnodup, hsum, htracks⟩ :=
    hadds
  have hid'' : product''.id = product.id := hsame'.1.trans hsame.1
  refine .inr ⟨⟨product'', ⟨id, product.id, asOf, building.snapshot.observedAt, amount, "ILS",
    none⟩, tracks⟩, ?_, hid'', ?_⟩
  · refine {
      details := ⟨details, policyId, accumulation, rows, hdetails, hpolicy, ?_, hamount,
        haccumulation, hrows, htotal, hforall⟩
      current := hsame'.2.trans hsame.2
      valuation := hid''.symm
      valuationId := ?_
      tracks := ?_
      nodup := hnodup
      sum := hsum
      deposits := hdeposits }
    · rw [hid'']
      exact hproductId
    · rw [hid'']
      exact valuationId_chars (orThrow_ok hid)
    · intro track htrack
      rw [hid'']
      exact htracks track htrack
  · change { summarized.snapshot with products := summarized.snapshot.products ++ [product''] } = _
    rw [hsnapshot', hsnapshot]
    rfl

/-- **One policy** of a complete snapshot adds an entry that its answers bear
out, and whose product is new. -/
theorem addPolicy_ok {building building' : Building} {capture : BestInvestCapturedPolicy}
    (h : addPolicy host building capture = .ok building') :
    building'.snapshot.complete = false ∨ ∃ entry, BornOut host capture entry ∧
      entry.product.id ∉ building.snapshot.products.map (·.id) ∧
      building'.snapshot = entry.addTo building.snapshot := by
  have hlower : ∀ {building : Building} {reason : BestInvestIncompleteReason},
      (Except.ok (incomplete building reason) : Except ParseError Building) = .ok building' →
        building'.snapshot.complete = false := by
    intro building reason h
    rw [← Except.ok.inj h]
    rfl
  unfold addPolicy at h
  by_cases hcapture : missing capture.details = true
  · rw [if_pos hcapture] at h
    exact .inl (hlower h)
  rw [if_neg hcapture] at h
  obtain ⟨details, hdetails, h⟩ := except_bind_ok.mp h
  by_cases hpolicy : missing (JsValue.get details "PolicyId") = true
  · rw [if_pos hpolicy] at h
    exact .inl (hlower h)
  rw [if_neg hpolicy] at h
  by_cases hname : missing (JsValue.get details "ProductName") = true
  · rw [if_pos hname] at h
    exact .inl (hlower h)
  rw [if_neg hname] at h
  obtain ⟨product, hproduct, h⟩ := except_bind_ok.mp h
  obtain ⟨checked, -, h⟩ := except_bind_ok.mp h
  by_cases hknown : product.id ∈ building.snapshot.products.map (·.id)
  · rw [if_pos hknown] at h
    cases h
  rw [if_neg hknown] at h
  by_cases hsavings : missing (JsValue.get details "TotalSavings") = true
  · rw [if_pos hsavings] at h
    exact .inl (hlower h)
  rw [if_neg hsavings] at h
  rcases addValuation_ok (sourceRecord_ok hdetails) hproduct h with
    hfalse | ⟨entry, hentry, hid, hsnapshot⟩
  · exact .inl hfalse
  · refine .inr ⟨entry, hentry, ?_, hsnapshot⟩
    rw [hid]
    exact hknown

/-! ## A run over the policies -/

/-- The records of a snapshot are those of the entries, one for each policy. -/
structure HasEntries (host : Host) (policies : List BestInvestCapturedPolicy)
    (snapshot : InvestmentSnapshot) (entries : List PolicyEntry) : Prop where
  each : List.Forall₂ (BornOut host) policies entries
  products : snapshot.products = entries.map (·.product)
  valuations : snapshot.valuations = entries.map (·.valuation)
  tracks : snapshot.tracks = entries.flatMap (·.tracks)
  nodup : (entries.map (·.product.id)).Nodup

/-- **The run** over the policies of a complete snapshot has an entry for each. -/
theorem addPolicies_ok {start building : Building} {policies : List BestInvestCapturedPolicy}
    (hstart : HasEntries host [] start.snapshot [])
    (h : policies.foldlM (addPolicy host) start = .ok building)
    (hcomplete : building.snapshot.complete = true) :
    start.snapshot.complete = true ∧ ∃ entries, HasEntries host policies building.snapshot entries := by
  induction policies using List.reverseRecOn generalizing building with
  | nil =>
      obtain rfl := Except.ok.inj h
      exact ⟨hcomplete, [], hstart⟩
  | append_singleton policies capture ih =>
      rw [List.foldlM_append] at h
      obtain ⟨before, hbefore, h⟩ := except_bind_ok.mp h
      rw [List.foldlM_cons] at h
      obtain ⟨after, hafter, h⟩ := except_bind_ok.mp h
      obtain rfl := Except.ok.inj h
      rcases addPolicy_ok hafter with hfalse | ⟨entry, hentry, hnew, hsnapshot⟩
      · rw [hfalse] at hcomplete
        cases hcomplete
      rw [hsnapshot] at hcomplete ⊢
      obtain ⟨hcompleteStart, entries, hentries⟩ := ih hbefore hcomplete
      refine ⟨hcompleteStart, entries ++ [entry], ?_⟩
      refine {
        each := Pairings.snoc hentries.each hentry
        products := ?_
        valuations := ?_
        tracks := ?_
        nodup := ?_ }
      · change before.snapshot.products ++ [entry.product] = _
        rw [hentries.products, List.map_append]
        rfl
      · change before.snapshot.valuations ++ [entry.valuation] = _
        rw [hentries.valuations, List.map_append]
        rfl
      · change before.snapshot.tracks ++ entry.tracks = _
        rw [hentries.tracks, List.flatMap_append, List.flatMap_cons, List.flatMap_nil,
          List.append_nil]
      · rw [hentries.products, List.map_map] at hnew
        rw [List.map_append, List.nodup_append]
        refine ⟨hentries.nodup, List.nodup_singleton _, ?_⟩
        intro id hid id' hid' heq
        rw [List.mem_singleton.mp hid'] at heq
        rw [heq] at hid
        exact hnew hid

/-! ## Trimming keeps the entries -/

/-- An entry as the schema trims it. -/
def PolicyEntry.trimmed (entry : PolicyEntry) : PolicyEntry where
  product := entry.product.trimmed
  valuation := entry.valuation.trimmed
  tracks := entry.tracks.map (·.trimmed)

/-- A trimmed track is still that of its row. -/
theorem IsTrackOf.trimmed {row : JsValue} {track : InvestmentTrack} (h : IsTrackOf host row track) :
    IsTrackOf host row track.trimmed := by
  obtain ⟨⟨amount, hrow, htrack⟩, fields, house, route, hfields, hhouse, hroute, hname⟩ := h
  refine ⟨⟨amount, hrow, htrack⟩, fields, house, route, hfields, hhouse, hroute, ?_⟩
  change jsTrim (jsTrim track.name) = _
  rw [jsTrim_jsTrim, hname]

/-- The product of an entry has a text for an id. -/
theorem BornOut.isIdText {capture : BestInvestCapturedPolicy} {entry : PolicyEntry}
    (h : BornOut host capture entry) : IsIdText entry.product.id := by
  obtain ⟨details, policyId, accumulation, rows, -, -, hid, -⟩ := h.details
  exact IsProductId.isIdText ⟨policyId, hid⟩

/-- A trimmed entry is still borne out. -/
theorem BornOut.trimmed {capture : BestInvestCapturedPolicy} {entry : PolicyEntry}
    (h : BornOut host capture entry) : BornOut host capture entry.trimmed := by
  have hproduct : entry.trimmed.product.id = entry.product.id := h.isIdText.trimmed
  obtain ⟨details, policyId, accumulation, rows, hdetails, hpolicy, hid, hamount, haccumulation,
    hrows, htotal, hforall⟩ := h.details
  refine {
    details := ⟨details, policyId, accumulation, rows, hdetails, hpolicy, ?_, hamount,
      haccumulation, hrows, htotal, ?_⟩
    current := ?_
    valuation := ?_
    valuationId := ?_
    tracks := ?_
    nodup := ?_
    sum := ?_
    deposits := h.deposits }
  · rw [hproduct]
    exact hid
  · change List.Forall₂ (IsTrackOf host) _ (entry.tracks.map (·.trimmed))
    rw [List.forall₂_map_right_iff]
    exact hforall.imp fun _ _ htrack => htrack.trimmed
  · change entry.product.currentValuationId.map jsTrim = _
    rw [h.current]
    rfl
  · change jsTrim entry.valuation.productId = jsTrim entry.product.id
    rw [h.valuation]
  · obtain ⟨rest, hrest⟩ := h.valuationId
    rw [hproduct]
    exact ⟨trimEnd rest, trimmed_behind h.isIdText hrest⟩
  · rw [hproduct]
    exact tracks_trimmed h.isIdText h.tracks
  · change ((entry.tracks.map (·.trimmed)).map (·.id)).Nodup
    rw [trackIds_trimmed h.isIdText h.tracks]
    exact h.nodup
  · change ((entry.tracks.map (·.trimmed)).map trackCents).sum = _
    rw [trackCents_trimmed]
    exact h.sum

/-- So are all of them. -/
theorem HasEntries.trimmed {policies : List BestInvestCapturedPolicy}
    {snapshot : InvestmentSnapshot} {entries : List PolicyEntry}
    (h : HasEntries host policies snapshot entries) :
    HasEntries host policies snapshot.trimmed (entries.map (·.trimmed)) := by
  refine {
    each := ?_
    products := ?_
    valuations := ?_
    tracks := ?_
    nodup := ?_ }
  · rw [List.forall₂_map_right_iff]
    exact h.each.imp fun _ _ hentry => hentry.trimmed
  · change snapshot.products.map (·.trimmed) = _
    rw [h.products, List.map_map, List.map_map]
    rfl
  · change snapshot.valuations.map (·.trimmed) = _
    rw [h.valuations, List.map_map, List.map_map]
    rfl
  · change snapshot.tracks.map (·.trimmed) = _
    rw [h.tracks, List.map_flatMap, List.flatMap_map]
    rfl
  · have hsame : (entries.map (·.trimmed)).map (·.product.id) = entries.map (·.product.id) := by
      rw [List.map_map]
      refine List.map_congr_left fun entry hentry => ?_
      obtain ⟨capture, -, hborn⟩ := Pairings.exists_of_right h.each hentry
      exact hborn.isIdText.trimmed
    rw [hsame]
    exact h.nodup

/-! ## Distinct ids -/

/-- The product is named by its provider, -/
theorem BornOut.isProductId {capture : BestInvestCapturedPolicy} {entry : PolicyEntry}
    (h : BornOut host capture entry) : IsProductId .hachshara_best_invest entry.product.id := by
  obtain ⟨details, policyId, accumulation, rows, -, -, hid, -⟩ := h.details
  exact ⟨policyId, hid⟩

section
variable {policies : List BestInvestCapturedPolicy} {snapshot : InvestmentSnapshot}
  {entries : List PolicyEntry}

/-- and so are all products. -/
theorem HasEntries.isProductId (h : HasEntries host policies snapshot entries) :
    ∀ entry ∈ entries, IsProductId .hachshara_best_invest entry.product.id := by
  intro entry hentry
  obtain ⟨capture, -, hborn⟩ := Pairings.exists_of_right h.each hentry
  exact hborn.isProductId

/-- No two valuations have one id, -/
theorem HasEntries.valuations_nodup (h : HasEntries host policies snapshot entries) :
    (snapshot.valuations.map (·.id)).Nodup := by
  rw [h.valuations, List.map_map]
  refine nodup_behind h.isProductId h.nodup ?_
  intro entry hentry
  obtain ⟨capture, -, hborn⟩ := Pairings.exists_of_right h.each hentry
  exact hborn.valuationId

/-- and no two tracks. -/
theorem HasEntries.tracks_nodup (h : HasEntries host policies snapshot entries) :
    (snapshot.tracks.map (·.id)).Nodup := by
  rw [h.tracks, List.map_flatMap]
  refine nodup_flatMap_behind h.isProductId h.nodup ?_ ?_
  · intro entry hentry
    obtain ⟨capture, -, hborn⟩ := Pairings.exists_of_right h.each hentry
    exact hborn.nodup
  · intro entry hentry id hid
    obtain ⟨capture, -, hborn⟩ := Pairings.exists_of_right h.each hentry
    obtain ⟨track, htrack, rfl⟩ := List.mem_map.mp hid
    obtain ⟨-, sourceId, htrackId⟩ := hborn.tracks track htrack
    exact (trackId_spec htrackId).1

end

/-! ## Complete snapshots -/

/-- There is no entry at the start. -/
theorem startBuilding_entries (input : BuildBestInvestSnapshotInput) :
    HasEntries host [] (startBuilding input).snapshot [] := by
  have hrecords : (startBuilding input).snapshot.products = [] ∧
      (startBuilding input).snapshot.valuations = [] ∧
      (startBuilding input).snapshot.tracks = [] := by
    unfold startBuilding
    dsimp only
    split_ifs <;> exact ⟨rfl, rfl, rfl⟩
  exact ⟨.nil, hrecords.1, hrecords.2.1, hrecords.2.2, List.nodup_nil⟩

/-- **A complete snapshot is reconciled.**  It has one product for every source
policy, with a current valuation; the tracks of the product add up to that
valuation and to the provider's total, and are one for each row with money on
it; the deposits that were supplied add up to their total; and all ids are
distinct. -/
theorem bestInvest_reconciled {input : BuildBestInvestSnapshotInput}
    {snapshot : InvestmentSnapshot} {reasons : List BestInvestIncompleteReason}
    (h : buildBestInvestSnapshot host input = .ok (snapshot, reasons))
    (hcomplete : snapshot.complete = true) :
    ∃ entries : List PolicyEntry,
      List.Forall₂ (BornOut host) input.policies entries ∧
        snapshot.products = entries.map (·.product) ∧
        snapshot.valuations = entries.map (·.valuation) ∧
        snapshot.tracks = entries.flatMap (·.tracks) ∧
        (snapshot.products.map (·.id)).Nodup ∧ (snapshot.valuations.map (·.id)).Nodup ∧
        (snapshot.tracks.map (·.id)).Nodup := by
  unfold buildBestInvestSnapshot at h
  split_ifs at h
  obtain ⟨building, hrun, h⟩ := except_bind_ok.mp h
  cases hparse : parseSnapshot host { building.snapshot with
      inventoryComplete := input.inventoryComplete && building.snapshot.complete } with
  | error e =>
      rw [hparse] at h
      cases h
  | ok result =>
      rw [hparse] at h
      obtain ⟨rfl, -⟩ := Prod.mk.inj (Except.ok.inj h)
      obtain ⟨rfl, -⟩ := parseSnapshot_ok hparse
      obtain ⟨-, entries, hentries⟩ :=
        addPolicies_ok (startBuilding_entries input) hrun hcomplete
      have hkept : HasEntries host input.policies { building.snapshot with
          inventoryComplete := input.inventoryComplete && building.snapshot.complete } entries :=
        ⟨hentries.each, hentries.products, hentries.valuations, hentries.tracks, hentries.nodup⟩
      have htrimmed := hkept.trimmed
      refine ⟨entries.map (·.trimmed), htrimmed.each, htrimmed.products, htrimmed.valuations,
        htrimmed.tracks, ?_, htrimmed.valuations_nodup, htrimmed.tracks_nodup⟩
      rw [htrimmed.products, List.map_map]
      exact htrimmed.nodup

end

/-! ## One policy -/

/-- The answers about a policy, with two tracks and three deposits. -/
def examplePolicy : BestInvestCapturedPolicy where
  details := .object [("PolicyId", .string "P-1"), ("ProductName", .string "Savings"),
    ("TotalSavings", .string "1,000.50"), ("PidyonTzvira", .object [
      ("Pidyon", .array [
        .object [("BeitHashkaot", .string "A"), ("Maslul", .string "R"),
          ("TotalTzvira", .string "900.50")],
        .object [("BeitHashkaot", .string "B"), ("Maslul", .string "R"),
          ("TotalTzvira", .string "0")],
        .object [("BeitHashkaot", .string "B"), ("Maslul", .string "S"),
          ("TotalTzvira", .string "100")]]),
      ("TotalTzviraMaslulim", .string "1000.5"), ("AppraislDate", .string "31.08.2026")]),
    ("InvestmentPolicy", .object [("Investments", .array [
      .object [("BeitHashkaotName", .string "A"), ("Maslul", .string "R"),
        ("BeitHashkaotId", .string "1"), ("MaslulId", .string "10")],
      .object [("BeitHashkaotName", .string "B"), ("Maslul", .string "S"),
        ("BeitHashkaotId", .string "2"), ("MaslulId", .string "11")]])])]
  deposits := .object [("Deposits", .array [.object [("Amount", .string "100.25")],
    .object [("Amount", .string "100.25")], .object [("Amount", .string "-0.50")]]),
    ("TotalAmount", .string "200")]
  depositsYear := .number (some 2026)
  expectedPolicyId := .string "P-1"

/-- What is captured of the policy. -/
def exampleInput : BuildBestInvestSnapshotInput :=
  ⟨"2026-08-31T10:00:00.000Z", [examplePolicy], true⟩

/-- A policy with two tracks and three deposits. -/
theorem bestInvest_reconciled_example :
    ∃ snapshot reasons, buildBestInvestSnapshot asciiHost exampleInput = .ok (snapshot, reasons) ∧
      snapshot.complete = true ∧ ∃ entries : List PolicyEntry,
        List.Forall₂ (BornOut asciiHost) exampleInput.policies entries ∧
          snapshot.products = entries.map (·.product) ∧
          snapshot.valuations = entries.map (·.valuation) ∧
          snapshot.tracks = entries.flatMap (·.tracks) ∧
          (snapshot.products.map (·.id)).Nodup ∧ (snapshot.valuations.map (·.id)).Nodup ∧
          (snapshot.tracks.map (·.id)).Nodup := by
  have hdone : (buildBestInvestSnapshot asciiHost exampleInput).toOption.any (·.1.complete) =
      true := by
    decide +kernel
  obtain ⟨result, hresult, hcomplete⟩ := exists_ok_of_any hdone
  exact ⟨result.1, result.2, hresult, hcomplete, bestInvest_reconciled hresult hcomplete⟩

end SimplefinBridge
