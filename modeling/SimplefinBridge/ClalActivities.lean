import SimplefinBridge.ClalPortfolio
import SimplefinBridge.JsonStrings
import SimplefinBridge.Library.Tallies

/-!
# Activities of Clal

The details of a product list its deposits by year.  A deposit row has one
amount for each component, and the rows of one year may be followed by a
subtotal.  No row has an identity of its own, so rows that agree in all their
dimensions are added to one *source group* for each component, named by a hash
of the dimensions; `enrichClalActivities` makes an activity of every group.
-/

namespace SimplefinBridge

/-! ## Rows -/

/-- `Component`: a column of the deposit rows. -/
structure DepositComponent where
  column : String
  kind : ActivityKind
  label : String
  deriving DecidableEq, Repr

structure Dimensions where
  productId : String
  employerId : Option String
  employerName : Option String
  bookingDate : Option IsoDate
  salaryMonth : Option String
  description : String
  track : Option String
  deriving DecidableEq, Repr

def pensionComponents : List DepositComponent := [
  ⟨"TigmulimAmit", .employee_contribution, "Employee contribution"⟩,
  ⟨"TigmulimMaasik", .employer_contribution, "Employer contribution"⟩,
  ⟨"Compensation", .severance_contribution, "Severance contribution"⟩]

def gemelComponents : List DepositComponent := [
  ⟨"TotalSumEmployee", .employee_contribution, "Employee contribution"⟩,
  ⟨"TotalSumEmployer", .employer_contribution, "Employer contribution"⟩,
  ⟨"TotalSumCompensation", .severance_contribution, "Severance contribution"⟩,
  ⟨"TotalSumSelfEmployed", .other, "Self-employed contribution"⟩]

def componentsOf : ClalFamily → List DepositComponent
  | .pension => pensionComponents
  | .hishtalmut => gemelComponents

def optionalText (value : JsValue) : Except ParseError (Option String) :=
  match value with
  | .undefined | .null => .ok none
  | .string text => .ok (if jsTrim text = "" then none else some (jsTrim text))
  | _ => .error .INVALID_RESPONSE

/-- `cents(value)` of a value of unknown type. -/
def clalCents (value : JsValue) : Except ParseError Int := (parseClalMoney value).map cents

/-- `money` -/
def moneyOfCents (value : Int) : String :=
  let fraction := Nat.toDigits 10 (value.natAbs % 100)
  String.ofList ((if value < 0 then ['-'] else []) ++ Nat.toDigits 10 (value.natAbs / 100) ++
    '.' :: (List.replicate (2 - fraction.length) '0' ++ fraction))

def yearText (value : JsValue) : Except ParseError String := do
  match ← optionalText value with
  | some text =>
      if text.toList.length = 4 ∧ text.toList.all Char.isDigit then return text
      else .error .INVALID_RESPONSE
  | none => .error .INVALID_RESPONSE

/-- `/^(0[1-9]|1[0-2])\/(\d{4})$/`, with the year first. -/
def monthFirst (input : List Char) : Option String :=
  match input with
  | [m, m', '/', y, y', y'', y'''] =>
      let month := String.ofList [y, y', y'', y''', '-', m, m']
      if isMonth month then some month else none
  | _ => none

def salaryMonth (value : JsValue) : Except ParseError (Option String) := do
  match ← optionalText value with
  | none => return none
  | some text =>
      match monthFirst text.toList with
      | some month => return some month
      | none => if isMonth text then return some text else .error .INVALID_RESPONSE

/-- What a row of a year is: a deposit, or the subtotal of the year. -/
inductive SourceRow
  | deposit (row : JsFields) (dimensions : Dimensions) (amounts : List Int)
  | subtotal (amounts : List Int)

def componentAmounts (row : JsFields) (components : List DepositComponent) (totalColumn : String) :
    Except ParseError (List Int) := do
  let amounts ← components.mapM fun component => clalCents (JsValue.get row component.column)
  let total ← clalCents (JsValue.get row totalColumn)
  if amounts.sum ≠ total then .error .INVALID_RESPONSE else return amounts

section
variable (host : Host)

/-- The annual source bucket supplies the century; never a guessed pivot year. -/
def bookingDate (value : JsValue) (year : String) : Except ParseError (Option IsoDate) := do
  let text ← optionalText value
  match text.bind fun text => shortDate text.toList with
  | some (day, month, shortYear) =>
      if shortYear ≠ year.toList.drop (year.toList.length - 2) then .error .INVALID_RESPONSE
      else parseClalDate host (.string (String.ofList
        (day ++ '/' :: (month ++ '/' :: year.toList))))
  | none =>
      match ← parseClalDate host (dateValue text) with
      | some date =>
          if (year.toList ++ ['-']).isPrefixOf date.toList then return some date
          else .error .INVALID_RESPONSE
      | none => return none

def pensionRow (productId year : String) (raw : JsValue) : Except ParseError SourceRow := do
  let row ← sourceRecord raw
  let amounts ← componentAmounts row pensionComponents "Total"
  let companyName ← optionalText (JsValue.get row "CompanyName")
  let salary ← salaryMonth (JsValue.get row "SalaryDate")
  let booked ← bookingDate host (JsValue.get row "DepositingDate") year
  if companyName.map host.toLowerCase = some "all" ∧ booked = none ∧ salary = none then
    return .subtotal amounts
  else if companyName = none then .error .INVALID_RESPONSE
  else
    -- pension rows name their employer but have no employer id
    return .deposit row {
      productId, employerId := none, employerName := companyName, bookingDate := booked
      salaryMonth := salary, description := "Deposit", track := none } amounts

def gemelRow (details : JsFields) (productId year : String) (raw : JsValue) :
    Except ParseError SourceRow := do
  let row ← sourceRecord raw
  let amounts ← componentAmounts row gemelComponents "TotalSum"
  let description ← optionalText (JsValue.get row "TransactionDescription")
  let salary ← salaryMonth (JsValue.get row "SalaryMonth")
  let booked ← bookingDate host (JsValue.get row "TransactionDate") year
  let track ← optionalText (JsValue.get row "Maslul")
  if description = some "Total" ∧ booked = none ∧ salary = none ∧ track = none then
    return .subtotal amounts
  else if description ≠ some "הפקדה" then .error .INVALID_RESPONSE
  else
    let employerId ← optionalText (JsValue.get details "EmployerNum")
    let employerName ← optionalText (JsValue.get details "EmployerName")
    return .deposit row {
      productId, employerId, employerName, bookingDate := booked, salaryMonth := salary
      description := "הפקדה", track } amounts

/-! ## Source groups -/

/-- The groups by their source ids, in the order in which they are made. -/
abbrev SourceGroups := Tallies String InvestmentActivity Int

def ActivityKind.text : ActivityKind → String
  | .employee_contribution => "employee_contribution"
  | .employer_contribution => "employer_contribution"
  | .severance_contribution => "severance_contribution"
  | .withdrawal => "withdrawal"
  | .transfer_in => "transfer_in"
  | .transfer_out => "transfer_out"
  | .management_fee => "management_fee"
  | .insurance_cost => "insurance_cost"
  | .investment_return => "investment_return"
  | .actuarial_adjustment => "actuarial_adjustment"
  | .other => "other"

/-- `JSON.stringify([…])` of everything that names a group. -/
def groupKey (dimensions : Dimensions) (component : DepositComponent) : String :=
  String.ofList ((Json.arr [
    .str "clal-deposit-source-group-v1",
    .str dimensions.productId,
    jsonOptional dimensions.employerId,
    jsonOptional dimensions.employerName,
    jsonOptional dimensions.bookingDate,
    jsonOptional dimensions.salaryMonth,
    .str dimensions.description,
    jsonOptional dimensions.track,
    .str component.column,
    .str component.kind.text]).stringify host)

def groupSourceId (dimensions : Dimensions) (component : DepositComponent) : String :=
  "source-group-v1:" ++ host.sha256 (groupKey host dimensions component)

/-- `[…].filter(Boolean).join('; ')` -/
def groupDescription (dimensions : Dimensions) (component : DepositComponent) : String :=
  "; ".intercalate ([
    some component.label,
    dimensions.employerName,
    some dimensions.description,
    dimensions.salaryMonth.map ("Salary month " ++ ·),
    dimensions.track.map ("Track " ++ ·),
    some "Source group"].filterMap fun text => text.filter (· ≠ ""))

/-- The activity of a group, whose amount is filled in at the end. -/
def groupActivity (observedAt : String) (dimensions : Dimensions) (component : DepositComponent) :
    Except ParseError InvestmentActivity :=
  match dimensions.bookingDate.or dimensions.salaryMonth with
  | none => .error .INVALID_RESPONSE
  | some date => do
      let sourceId := groupSourceId host dimensions component
      let id ← orThrow (investmentActivityId dimensions.productId sourceId)
      return {
        id, productId := dimensions.productId, sourceId, date
        dateKind := if dimensions.bookingDate.getD "" = "" then .contribution_month else .booking
        kind := component.kind, amount := "0.00", currency := "ILS"
        description := groupDescription dimensions component, observedAt }

/-- The amount is no part of a group's name, so that corrections update it. -/
def addGroups (observedAt : String) (groups : SourceGroups) (dimensions : Dimensions)
    (components : List DepositComponent) (amounts : List Int) : Except ParseError SourceGroups :=
  if dimensions.bookingDate.or dimensions.salaryMonth = none then .error .INVALID_RESPONSE
  else Tallies.addAll (fun cell => groupSourceId host dimensions cell.1)
    (fun cell => groupActivity host observedAt dimensions cell.1) (fun cell => cell.2) groups
    (components.zip amounts)

/-! ## Years -/

/-- What the rows of a year have added so far. -/
structure YearSums where
  groups : SourceGroups
  sums : List Int
  subtotal : Option (List Int)

/-- Subtotals never enter the deposit ledger. -/
def addRow (observedAt : String) (components : List DepositComponent) (state : YearSums)
    (row : SourceRow) : Except ParseError YearSums :=
  match row with
  | .subtotal amounts =>
      if state.subtotal.isSome then .error .INVALID_RESPONSE
      else .ok { state with subtotal := some amounts }
  | .deposit _ dimensions amounts => do
      let groups ← addGroups host observedAt state.groups dimensions components amounts
      return { state with groups, sums := List.zipWith (· + ·) state.sums amounts }

def checkAnnualTotals (total : Int) (sums : List Int) (subtotal : Option (List Int)) :
    Except ParseError Unit :=
  if sums.sum ≠ total ∨ subtotal.any fun amounts =>
      (amounts.zip sums).any fun pair => pair.1 ≠ pair.2 then .error .INVALID_RESPONSE
  else .ok ()

/-- The loop over the rows of a year, and the check of its total. -/
def addYear (observedAt : String) (components : List DepositComponent)
    (readRow : JsValue → Except ParseError SourceRow) (rows : List JsValue) (rawTotal : JsValue)
    (groups : SourceGroups) : Except ParseError SourceGroups := do
  let state ← rows.foldlM (fun state raw => do
    let row ← readRow raw
    addRow host observedAt components state row) ⟨groups, components.map fun _ => 0, none⟩
  let total ← clalCents rawTotal
  checkAnnualTotals total state.sums state.subtotal
  return state.groups

/-- The years seen so far, and the groups. -/
abbrev YearsState := List String × SourceGroups

/-- One round of the loop over the years of a pension. -/
def pensionYear (observedAt productId : String) (state : YearsState) (raw : JsValue) :
    Except ParseError YearsState := do
  let block ← sourceRecord raw
  let year ← yearText (JsValue.get block "BeginYear")
  if year ∈ state.1 then .error .INVALID_RESPONSE
  else
    let data ← requireClalSuccess (JsValue.get block "TransactionsData")
    let rows ← sourceArray (JsValue.get data "DepositingPerMonthList")
    let groups ← addYear host observedAt pensionComponents (pensionRow host productId year) rows
      (JsValue.get block "Total") state.2
    return (state.1 ++ [year], groups)

/-- One round of the loop over the years of a hishtalmut fund. -/
def gemelYear (observedAt : String) (details : JsFields) (productId : String) (state : YearsState)
    (raw : JsValue) : Except ParseError YearsState := do
  let block ← sourceRecord raw
  let transactionData ← sourceRecord (JsValue.get block "TransactionsData")
  let rows ← sourceArray (JsValue.get transactionData "GetFundTransPerYearList")
  -- a footer of no year is neither dated activity nor missing history
  if isNull (JsValue.get block "Year") ∧ rows.length = 0 then return state
  else
    let year ← yearText (JsValue.get block "Year")
    if year ∈ state.1 then .error .INVALID_RESPONSE
    else
      let _ ← requireClalSuccess (.object transactionData)
      let notIncluded ← sourceArray
        (JsValue.get transactionData "GetFundTransPerYearNotIncludedList")
      if notIncluded.length > 0 then .error .INVALID_RESPONSE
      else
        let groups ← addYear host observedAt gemelComponents
          (gemelRow host details productId year) rows (JsValue.get block "Sum") state.2
        return (state.1 ++ [year], groups)

/-! ## Histories -/

def pensionHistory (observedAt : String) (data : JsFields) (groups : SourceGroups) :
    Except ParseError (String × SourceGroups) := do
  let details ← sourceRecord (JsValue.get data "PolicyDetails")
  let (productId, _) ← clalProductIdentity .pension (JsValue.get details "PolicyId")
  let blocks ← sourceArray (JsValue.get data "NDepositingList")
  let (_, groups) ← blocks.foldlM (pensionYear host observedAt productId) ([], groups)
  return (productId, groups)

def gemelHistory (observedAt : String) (data : JsFields) (groups : SourceGroups) :
    Except ParseError (String × SourceGroups) :=
  if isTrue (JsValue.get data "IsHishtalmut") then do
    let details ← sourceRecord (JsValue.get data "FundDetails")
    let (productId, _) ← clalProductIdentity .hishtalmut (JsValue.get details "FundNumber")
    let tab ← sourceRecord (JsValue.get data "TransactionsTab")
    let blocks ← sourceArray (JsValue.get tab "TransactionsList")
    let (_, groups) ← blocks.foldlM (gemelYear host observedAt details productId) ([], groups)
    return (productId, groups)
  else .error .INVALID_RESPONSE

def history (family : ClalFamily) (observedAt : String) (data : JsFields) (groups : SourceGroups) :
    Except ParseError (String × SourceGroups) :=
  match family with
  | .pension => pensionHistory host observedAt data groups
  | .hishtalmut => gemelHistory host observedAt data groups

/-- The groups, and the products whose histories were read. -/
abbrev HistoriesState := SourceGroups × List String

/-- One round of the loop over the responses of a family. -/
def addHistory (snapshot : InvestmentSnapshot) (family : ClalFamily) (state : HistoriesState)
    (response : ClalApiResponse) : Except ParseError HistoriesState := do
  let data ← responseData response
  let (productId, groups) ← history host family snapshot.observedAt data state.1
  if productId ∈ state.2 ∨ productId ∉ snapshot.products.map (·.id) then .error .INVALID_RESPONSE
  else return (groups, state.2 ++ [productId])

/-- The details that have histories. -/
structure ClalHistoryInput where
  pensionDetails : List ClalApiResponse
  gemelDetails : List ClalApiResponse

/-- `activities.sort((left, right) => left.id.localeCompare(right.id))` -/
def sortActivities (activities : List InvestmentActivity) : List InvestmentActivity :=
  activities.mergeSort fun left right => (host.localeCompare left.id right.id).isLE

/-- The activity of a group with its amount. -/
def settledActivity (group : Tally String InvestmentActivity Int) : InvestmentActivity :=
  { group.value with amount := moneyOfCents group.total }

def coverActivities (covered : List String) (product : InvestmentProduct) : InvestmentProduct :=
  if product.id ∈ covered then
    { product with coverage := { product.coverage with activities := .partially } }
  else product

/-- Enrich only proven deposits. -/
def enrichClalActivities (snapshot : InvestmentSnapshot) (input : ClalHistoryInput) :
    Except ParseError InvestmentSnapshot := do
  let pensions ← input.pensionDetails.foldlM (addHistory host snapshot .pension) (.empty, [])
  let (groups, covered) ← input.gemelDetails.foldlM (addHistory host snapshot .hishtalmut) pensions
  let existing := (snapshot.activities ++ groups.rows.map settledActivity).foldl KeyedTable.put
    (.empty : KeyedTable InvestmentActivity InvestmentActivity.id)
  orThrow (parseSnapshot host { snapshot with
    activities := sortActivities host existing.rows
    products := snapshot.products.map (coverActivities covered) })

end

end SimplefinBridge
