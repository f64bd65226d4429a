import SimplefinBridge.ClalPortfolio
import SimplefinBridge.InvestmentOrder

/-!
# The feed of an investment store

A reader gets every record and the source state, read in one transaction.  A
Clal product keeps the reports of its past periods; a balance that a report
states for a date is added to the feed as a valuation, unless the provider gave
one for that date itself.  The schema sees the feed before and after.
-/

namespace SimplefinBridge

open Statements (ReadOnly ensure readOnly_ensure readOnly_pure readOnly_select)

inductive FeedError
  | store (error : InvestmentError)
  | parse (error : ParseError)
  deriving DecidableEq, Repr

structure InvestmentFeed where
  generatedAt : String
  source : InvestmentSourceState
  products : List InvestmentProduct
  valuations : List InvestmentValuation
  activities : List InvestmentActivity
  tracks : List InvestmentTrack
  executions : List InvestmentExecution
  deriving DecidableEq, Repr

/-! ## Balances of reports -/

/-- `\w` -/
def isWordChar (c : Char) : Bool := c.isAlphanum || c = '_'

/-- `\b\d{2}\/\d{2}\/\d{4}\b` at the front of a text. -/
def startsDate (before : Option Char) (text : List Char) : Bool :=
  before.all (fun c => !isWordChar c) && hasShape "dd/dd/dddd".toList (text.take 10) &&
    (text.drop 10).head?.all fun c => !isWordChar c

/-- The first date in a text, behind a character. -/
def firstDate (before : Option Char) : List Char → Option (List Char)
  | [] => none
  | c :: rest =>
      if startsDate before (c :: rest) then some ((c :: rest).take 10) else firstDate (some c) rest

/-- The date that a label names, if it names one. -/
def labelDate (label : String) : JsValue :=
  match firstDate none label.toList with
  | some date => .string (String.ofList date)
  | none => .undefined

/-- `/^(?:יתרת הכספים|יתרה צבורה)(?:\s|$)/u` -/
def namesBalance (label : String) : Bool :=
  ["יתרת הכספים", "יתרה צבורה"].any fun words =>
    words.toList.isPrefixOf label.toList && (label.toList.drop words.toList.length).head?.all isJsSpace

def isOpening (label : String) : Bool := "(פתיחה)".toList <:+: label.toList

/-- The period of the report lies within one year, and it has ended: the
origins of older reports can be templates. -/
def usablePeriod (current : InvestmentValuation) (report : InvestmentReportSummary) : Bool :=
  report.toDate.any fun toDate =>
    report.fromDate.any (fun fromDate =>
        (JsText.ofString fromDate).slice 4 = (JsText.ofString toDate).slice 4) &&
      !((JsText.ofString current.observedAt).slice 10).less toDate

section
variable (host : Host)

/-- The balance that a line states. -/
def lineBalance (product : InvestmentProduct) (current : InvestmentValuation)
    (report : InvestmentReportSummary) (line : ReportLine) :
    Except ParseError (Option InvestmentValuation) :=
  if ¬ namesBalance line.label ∨ line.amount.toList.head? = some '-' then .ok none
  else do
    let asOf ← parseClalDate host (labelDate line.label)
    if asOf = none ∨ asOf ≠ (if isOpening line.label then report.fromDate else report.toDate) then
      return none
    else
      let id ← orThrow (investmentValuationId product.id asOf)
      return some {
        id, productId := product.id, amount := line.amount, asOf
        observedAt := current.observedAt, currency := product.currency, provenance := none }

def reportBalances (product : InvestmentProduct) (current : InvestmentValuation)
    (report : InvestmentReportSummary) : Except ParseError (List InvestmentValuation) :=
  if usablePeriod current report then do
    return (← report.lines.mapM (lineBalance host product current report)).reduceOption
  else .ok []

/-- The provider has given a value for the date itself. -/
def directlyObserved (given : List InvestmentValuation) (value : InvestmentValuation) : Bool :=
  given.any fun row => row.productId = value.productId && row.asOf = value.asOf

/-- A balance is added once; two of one date are to agree. -/
def addBalance (given valuations : List InvestmentValuation) (value : InvestmentValuation) :
    Except ParseError (List InvestmentValuation) :=
  if directlyObserved given value then .ok valuations
  else match valuations.find? (·.id = value.id) with
    | some existing =>
        if existing.amount ≠ value.amount then .error .INVALID_RESPONSE else .ok valuations
    | none => .ok (valuations ++ [value])

/-- The value that the provider says is the current one. -/
def currentOfProduct (given : List InvestmentValuation) (product : InvestmentProduct) :
    Option InvestmentValuation :=
  given.find? fun value => product.currentValuationId = some value.id ∧
    value.productId = product.id

def addReports (given valuations : List InvestmentValuation) (product : InvestmentProduct) :
    Except ParseError (List InvestmentValuation) :=
  match currentOfProduct given product with
  | none => .ok valuations
  | some current =>
      if product.provider ≠ .clal then .ok valuations
      else do
        let candidates ← (product.reportSummaries.getD []).mapM
          (reportBalances host product current)
        candidates.flatten.foldlM (addBalance given) valuations

/-- `enrichClalReportValuations`: the valuations, with the balances of the
reports behind them. -/
def enrichClalReportValuations (products : List InvestmentProduct)
    (given : List InvestmentValuation) : Except ParseError (List InvestmentValuation) :=
  products.foldlM (addReports host given) given

/-! ## The feed -/

def InvestmentFeed.trimmed (feed : InvestmentFeed) : InvestmentFeed :=
  { feed with
    products := feed.products.map (·.trimmed)
    valuations := feed.valuations.map (·.trimmed)
    activities := feed.activities.map (·.trimmed)
    tracks := feed.tracks.map (·.trimmed)
    executions := feed.executions.map (·.trimmed) }

def InvestmentFeed.accepted (feed : InvestmentFeed) : Bool :=
  isTimestamp feed.generatedAt && feed.source.accepted &&
    isSafeInteger feed.source.staleAfterHours && feed.products.all (·.accepted host) &&
    feed.valuations.all (·.accepted host) && feed.activities.all (·.accepted host) &&
    feed.tracks.all (·.accepted host) && feed.executions.all (·.accepted host)

/-- `investmentFeedSchema.parse` -/
def parseFeed (feed : InvestmentFeed) : Except FeedError InvestmentFeed :=
  if feed.trimmed.accepted host then .ok feed.trimmed else .error (.store .schema)

/-- The feed that the rows and the state make. -/
def buildFeed (rows : List InvestmentRecord) (state : InvestmentSourceState) (now : Instant)
    (staleAfterHours : Nat) : Except FeedError InvestmentFeed := do
  let feed ← parseFeed host {
    generatedAt := toIsoString now
    source := { state with staleAfterHours }
    products := rows.filterMap fun row => match row with | .product row => some row | _ => none
    valuations := rows.filterMap fun row => match row with | .valuation row => some row | _ => none
    activities := rows.filterMap fun row => match row with | .activity row => some row | _ => none
    tracks := rows.filterMap fun row => match row with | .track row => some row | _ => none
    executions := rows.filterMap fun row => match row with | .execution row => some row | _ => none }
  let valuations ← (enrichClalReportValuations host feed.products feed.valuations).mapError .parse
  parseFeed host { feed with valuations }

/-- A reading of the store. -/
def getFeed (provider : InvestmentProvider) (now : Instant) (staleAfterHours : Nat) :
    EStateM FeedError (Statements.Session InvestmentDb) InvestmentFeed := do
  let (rows, state) ← EStateM.adaptExcept .store (readFeed provider)
  ensure (buildFeed host rows state now staleAfterHours)

end

/-! ## Reading leaves nothing behind -/

section
variable (host : Host) (provider : InvestmentProvider)

theorem readOnly_readFeed : ReadOnly (readFeed provider) := by
  have hframes : Statements.Frames Eq (readFeed provider) := by
    refine Statements.Frames.transaction
      (Statements.Frames.bind ?_ (fun rows => ?_) Eq.trans) fun _ => rfl
    · refine Statements.frames_foldlM _ (fun rows kind => ?_) (fun _ => rfl) Eq.trans _
      exact ((readOnly_select _).bind fun _ => readOnly_pure _).frames fun _ => rfl
    · exact ((readOnly_select _).bind fun _ => readOnly_pure _).frames fun _ => rfl
  exact fun s => (hframes s).symm

theorem readOnly_getFeed (now : Instant) (staleAfterHours : Nat) :
    ReadOnly (getFeed host provider now staleAfterHours) := by
  refine ReadOnly.bind ?_ fun read => readOnly_ensure _
  intro s
  rw [Transactional.storeAfter_adaptExcept]
  exact readOnly_readFeed provider s

end

end SimplefinBridge
