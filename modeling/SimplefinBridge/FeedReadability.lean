import SimplefinBridge.ClalAcceptance
import SimplefinBridge.InvestmentRevisions
import SimplefinBridge.Library.Agreements
import SimplefinBridge.StoredRecords

/-!
# When the feed can be read

A reader adds the balances that stored reports state to the stored valuations.
No import checks these balances, so a store can come to hold reports from which
no feed is read: a label that names no day of the calendar, an amount that is
none, or two reports that state different balances for one day.  Nothing else
stands between a stored record and a reader (`getFeed_readable`), and a feed
that is read shows every stored record and every stated balance
(`getFeed_contents`).
-/

namespace SimplefinBridge

open Statements
open Agreements (Agree)
open Transactional (adaptExcept_ok bind_ok except_bind_ok mapM_isOk exists_of_mapM_ok result_of_mapM_ok)

/-! ## Balances of lines -/

/-- The line names a balance that is not negative. -/
def ReportLine.namesValue (line : ReportLine) : Bool :=
  namesBalance line.label && line.amount.toList.head? ≠ some '-'

/-- The date for which the line states a balance: the day its label names, which
is an end of the period. -/
def StatesBalance (host : Host) (report : InvestmentReportSummary) (line : ReportLine)
    (date : IsoDate) : Prop :=
  parseClalDate host (labelDate line.label) = .ok (some date) ∧
    (if isOpening line.label then report.fromDate else report.toDate) = some date

/-- The balance of a line, as a valuation. -/
def statedBalance (product : InvestmentProduct) (current : InvestmentValuation) (line : ReportLine)
    (date : IsoDate) (id : String) : InvestmentValuation where
  id := id
  productId := product.id
  asOf := some date
  observedAt := current.observedAt
  amount := line.amount
  currency := product.currency
  provenance := none

section
variable {host : Host} {product : InvestmentProduct} {current value : InvestmentValuation}
  {report : InvestmentReportSummary} {line : ReportLine}

/-- A line that names no balance states none. -/
theorem lineBalance_unnamed (h : line.namesValue = false) :
    lineBalance host product current report line = .ok none := by
  unfold ReportLine.namesValue at h
  refine if_pos ?_
  rcases Bool.and_eq_false_iff.mp h with hlabel | hsign
  · exact .inl (Bool.eq_false_iff.mp hlabel)
  · exact .inr (not_not.mp (of_decide_eq_false hsign))

/-- A line that names a value is read for its date. -/
theorem lineBalance_named (h : line.namesValue = true) {balance : Option InvestmentValuation} :
    lineBalance host product current report line = .ok balance ↔
      ∃ asOf, parseClalDate host (labelDate line.label) = .ok asOf ∧
        ((balance = none ∧ ∀ date, asOf = some date → ¬ StatesBalance host report line date) ∨
          ∃ date id, asOf = some date ∧ StatesBalance host report line date ∧
            investmentValuationId product.id (some date) = .ok id ∧
              balance = some (statedBalance product current line date id)) := by
  unfold ReportLine.namesValue at h
  rw [Bool.and_eq_true, decide_eq_true_eq] at h
  have hnames : ¬ (¬ namesBalance line.label = true ∨ line.amount.toList.head? = some '-') := by
    rw [not_or, not_not]
    exact h
  unfold lineBalance StatesBalance
  rw [if_neg hnames]
  generalize (if isOpening line.label = true then report.fromDate else report.toDate) = ending
  refine except_bind_ok.trans (exists_congr fun asOf => and_congr_right fun hdate => ?_)
  cases asOf with
  | none =>
      rw [if_pos (.inl rfl)]
      constructor
      · intro h
        exact .inl ⟨(Except.ok.inj h).symm, fun date hdate => by cases hdate⟩
      · rintro (⟨rfl, -⟩ | ⟨date, id, hnone, -⟩)
        · rfl
        · cases hnone
  | some date =>
      by_cases hend : some date ≠ ending
      · rw [if_pos (.inr hend)]
        constructor
        · intro h
          refine .inl ⟨(Except.ok.inj h).symm, fun other hsame hstates => hend ?_⟩
          rw [hsame, hstates.2]
        · rintro (⟨rfl, -⟩ | ⟨other, id, hsame, hstates, -⟩)
          · rfl
          · exact absurd (hsame.trans hstates.2.symm) hend
      · rw [not_not] at hend
        rw [if_neg (by rw [← hend]; simp)]
        constructor
        · intro h
          obtain ⟨id, hid, h⟩ := except_bind_ok.mp h
          exact .inr ⟨date, id, rfl, ⟨hdate, hend.symm⟩, orThrow_ok hid, (Except.ok.inj h).symm⟩
        · rintro (⟨-, hnot⟩ | ⟨other, id, hsame, -, hid, rfl⟩)
          · exact absurd ⟨hdate, hend.symm⟩ (hnot date rfl)
          · obtain rfl := Option.some.inj hsame
            refine except_bind_ok.mpr ⟨id, ?_, rfl⟩
            rw [hid]
            rfl

/-- A line that names one states it for the day that it names. -/
theorem lineBalance_some : lineBalance host product current report line = .ok (some value) ↔
    line.namesValue = true ∧ ∃ date id, StatesBalance host report line date ∧
      investmentValuationId product.id (some date) = .ok id ∧
        value = statedBalance product current line date id := by
  cases hnames : line.namesValue with
  | false =>
      rw [lineBalance_unnamed hnames]
      refine iff_of_false (fun h => by cases h) fun h => ?_
      cases h.1
  | true =>
      rw [lineBalance_named hnames]
      constructor
      · rintro ⟨asOf, -, ⟨hnone, -⟩ | ⟨date, id, -, hstates, hid, hvalue⟩⟩
        · cases hnone
        · exact ⟨rfl, date, id, hstates, hid, Option.some.inj hvalue⟩
      · rintro ⟨-, date, id, hstates, hid, rfl⟩
        exact ⟨some date, hstates.1, .inr ⟨date, id, rfl, hstates, hid, rfl⟩⟩

/-- A line can be read when the day it names exists and has an id. -/
theorem lineBalance_isOk : (∃ balance, lineBalance host product current report line = .ok balance) ↔
    (line.namesValue = true → (∃ date, parseClalDate host (labelDate line.label) = .ok date) ∧
      ∀ date, StatesBalance host report line date →
        ∃ id, investmentValuationId product.id (some date) = .ok id) := by
  cases hnames : line.namesValue with
  | false =>
      refine iff_of_true ⟨none, lineBalance_unnamed hnames⟩ fun h => ?_
      cases h
  | true =>
      constructor
      · rintro ⟨balance, h⟩ -
        obtain ⟨asOf, hdate, hcases⟩ := (lineBalance_named hnames).mp h
        refine ⟨⟨asOf, hdate⟩, fun date hstates => ?_⟩
        obtain rfl := Except.ok.inj (hdate.symm.trans hstates.1)
        rcases hcases with ⟨-, hnot⟩ | ⟨other, id, hsame, -, hid, -⟩
        · exact absurd hstates (hnot date rfl)
        · obtain rfl := Option.some.inj hsame
          exact ⟨id, hid⟩
      · intro h
        obtain ⟨⟨asOf, hdate⟩, hids⟩ := h rfl
        by_cases hstates : ∃ date, asOf = some date ∧ StatesBalance host report line date
        · obtain ⟨date, rfl, hstates⟩ := hstates
          obtain ⟨id, hid⟩ := hids date hstates
          exact ⟨_, (lineBalance_named hnames).mpr ⟨_, hdate, .inr ⟨date, id, rfl, hstates, hid,
            rfl⟩⟩⟩
        · exact ⟨none, (lineBalance_named hnames).mpr ⟨asOf, hdate, .inl ⟨rfl,
            fun date hsame hstated => hstates ⟨date, hsame, hstated⟩⟩⟩⟩

end

/-! ## The dates of labels -/

/-- A date that is found has the shape of one. -/
theorem shape_of_firstDate {before : Option Char} {text date : List Char}
    (h : firstDate before text = some date) : hasShape "dd/dd/dddd".toList date = true := by
  induction text generalizing before with
  | nil => cases h
  | cons c rest ih =>
      unfold firstDate at h
      by_cases hstarts : startsDate before (c :: rest) = true
      · rw [if_pos hstarts] at h
        rw [← Option.some.inj h]
        unfold startsDate at hstarts
        simp only [Bool.and_eq_true] at hstarts
        exact hstarts.1.2
      · rw [if_neg hstarts] at h
        exact ih h

/-- A text of this shape has its year last. -/
theorem dayFirst_of_shape {date : List Char} (h : hasShape "dd/dd/dddd".toList date = true) :
    (∀ c ∈ date, c.isDigit = true ∨ c = '/') ∧ date ≠ [] ∧
      ∃ y rest, dayFirst date = some (y :: rest) ∧ y.isDigit = true := by
  have hchars : "dd/dd/dddd".toList = ['d', 'd', '/', 'd', 'd', '/', 'd', 'd', 'd', 'd'] := by
    decide
  rw [hchars] at h
  unfold hasShape at h
  rw [Bool.and_eq_true, decide_eq_true_eq] at h
  obtain ⟨hlength, hall⟩ := h
  rcases date with _ | ⟨a, _ | ⟨b, _ | ⟨c, _ | ⟨d, _ | ⟨e, _ | ⟨f, _ | ⟨g, _ | ⟨i, _ | ⟨j, _ |
    ⟨k, rest⟩⟩⟩⟩⟩⟩⟩⟩⟩⟩
  all_goals try cases hlength
  simp only [List.length_cons, List.length_nil] at hlength
  obtain rfl : rest = [] := List.length_eq_zero_iff.mp (by omega)
  simp at hall
  obtain ⟨ha, hb, rfl, hd, he, rfl, hg, hi, hj, hk⟩ := hall
  refine ⟨?_, List.cons_ne_nil _ _, g, _, if_pos ⟨?_, .inr rfl, rfl⟩, hg⟩
  · simp [ha, hb, hd, he, hg, hi, hj, hk]
  · simp [ha, hb, hd, he, hg, hi, hj, hk]

section
variable {host : Host}

/-- A date that a label names is written with its year first. -/
theorem date_of_label {label : String} {date : IsoDate}
    (h : parseClalDate host (labelDate label) = .ok (some date)) :
    host.isIsoDate date = true ∧ (∀ c ∈ date.toList, isJsSpace c = false) ∧
      ∃ y rest, date.toList = y :: rest ∧ y.isDigit = true := by
  unfold labelDate at h
  cases hfirst : firstDate none label.toList with
  | none =>
      rw [hfirst] at h
      cases h
  | some text =>
      rw [hfirst] at h
      obtain ⟨hchars, hne, y, rest, hday, hdigit⟩ := dayFirst_of_shape (shape_of_firstDate hfirst)
      have htrim : jsTrim (String.ofList text) = String.ofList text := by
        refine jsTrim_of_no_space fun c hc => ?_
        rw [String.toList_ofList] at hc
        rcases hchars c hc with hc | rfl
        · exact isJsSpace_of_isDigit hc
        · rfl
      have hfilled : jsTrim (String.ofList text) ≠ "" := by
        rw [htrim]
        exact fun hempty => hne (String.ofList_eq_empty_iff.mp hempty)
      have hpresent : ¬ missing (.string (String.ofList text)) = true := fun hmissing =>
        hfilled (of_decide_eq_true hmissing)
      have hinput : sourceText (.string (String.ofList text)) = .ok (String.ofList text) := by
        unfold sourceText
        dsimp only
        rw [if_neg hfilled, htrim]
      dsimp only at h
      unfold parseClalDate at h
      rw [if_neg hpresent, hinput] at h
      change (if host.isIsoDate (String.ofList ((dayFirst (String.ofList text).toList).getD
        (String.ofList text).toList)) then _ else _) = _ at h
      rw [String.toList_ofList, hday, Option.getD_some] at h
      split at h
      · rename_i haccepted
        obtain rfl := Option.some.inj (Except.ok.inj h)
        refine ⟨haccepted, fun c hc => ?_, y, rest, String.toList_ofList, hdigit⟩
        rw [String.toList_ofList] at hc
        rcases (dayFirst_dayFirst hday).2.2 c hc with hc | rfl
        · exact isJsSpace_of_isDigit hc
        · rfl
      · cases h

/-- The id of a dated valuation names its product and its date. -/
theorem valuationId_inj {provider : InvestmentProvider} {productId productId' id label : String}
    {date : IsoDate} {asOf : Option IsoDate} (hproduct : IsProductId provider productId)
    (hproduct' : IsProductId provider productId')
    (hdate : parseClalDate host (labelDate label) = .ok (some date))
    (h : investmentValuationId productId (some date) = .ok id)
    (h' : investmentValuationId productId' asOf = .ok id) : productId = productId' ∧ asOf = some date := by
  have hchars : ∀ {productId asOf}, investmentValuationId productId asOf = .ok id →
      id.toList = productId.toList ++ ':' :: ("valuation:".toList ++ (asOf.getD "undated").toList) := by
    intro productId asOf hid
    rw [checked_ok hid, String.toList_append, String.toList_append, List.append_assoc]
    rfl
  have hsame := (hchars h).symm.trans (hchars h')
  obtain rfl := hproduct.unique hproduct' hsame
  refine ⟨rfl, ?_⟩
  have hdates := List.append_cancel_left (List.tail_eq_of_cons_eq (List.append_cancel_left hsame))
  rw [Option.getD_some] at hdates
  cases asOf with
  | some other =>
      rw [Option.getD_some, String.toList_inj] at hdates
      rw [hdates]
  | none =>
      obtain ⟨-, -, y, rest, hyear, hdigit⟩ := date_of_label hdate
      rw [hyear] at hdates
      have hhead := congrArg List.head? hdates
      rw [show ((none : Option IsoDate).getD "undated").toList.head? = some 'u' by decide] at hhead
      rw [Option.some.inj hhead] at hdigit
      cases hdigit

end

/-! ## Balances of products -/

/-- A line of a kept report that is read for a balance. -/
structure ReadsLine (products : List InvestmentProduct) (given : List InvestmentValuation)
    (product : InvestmentProduct) (current : InvestmentValuation)
    (report : InvestmentReportSummary) (line : ReportLine) : Prop where
  stored : product ∈ products
  isClal : product.provider = .clal
  valued : currentOfProduct given product = some current
  kept : report ∈ product.reportSummaries.getD []
  usable : usablePeriod current report = true
  printed : line ∈ report.lines
  named : line.namesValue = true

/-- A balance that a kept report states. -/
def States (host : Host) (products : List InvestmentProduct) (given : List InvestmentValuation)
    (value : InvestmentValuation) : Prop :=
  ∃ product current report line date id, ReadsLine products given product current report line ∧
    StatesBalance host report line date ∧ investmentValuationId product.id (some date) = .ok id ∧
      value = statedBalance product current line date id

/-- The balances of a product's reports, one after another. -/
def balancesOf (host : Host) (given : List InvestmentValuation) (product : InvestmentProduct) :
    Except ParseError (List InvestmentValuation) :=
  match currentOfProduct given product with
  | none => .ok []
  | some current =>
      if product.provider ≠ .clal then .ok []
      else ((product.reportSummaries.getD []).mapM (reportBalances host product current)).map
        List.flatten

section
variable {host : Host} {products : List InvestmentProduct} {given : List InvestmentValuation}
  {product : InvestmentProduct} {current value : InvestmentValuation}
  {report : InvestmentReportSummary}

/-- A report can be read when its lines can. -/
theorem reportBalances_isOk : (∃ values, reportBalances host product current report = .ok values) ↔
    (usablePeriod current report = true → ∀ line ∈ report.lines,
      ∃ balance, lineBalance host product current report line = .ok balance) := by
  unfold reportBalances
  by_cases husable : usablePeriod current report = true
  · rw [if_pos husable]
    constructor
    · rintro ⟨values, h⟩ - line hline
      obtain ⟨balances, hbalances, -⟩ := except_bind_ok.mp h
      obtain ⟨balance, -, hbalance⟩ := result_of_mapM_ok hbalances hline
      exact ⟨balance, hbalance⟩
    · intro h
      obtain ⟨balances, hbalances⟩ := mapM_isOk (h husable)
      exact ⟨_, except_bind_ok.mpr ⟨balances, hbalances, rfl⟩⟩
  · rw [if_neg husable]
    exact iff_of_true ⟨[], rfl⟩ fun h => absurd h husable

/-- The balances of a usable report are those of its lines. -/
theorem mem_reportBalances {values : List InvestmentValuation}
    (h : reportBalances host product current report = .ok values) :
    value ∈ values ↔ usablePeriod current report = true ∧ ∃ line ∈ report.lines,
      lineBalance host product current report line = .ok (some value) := by
  unfold reportBalances at h
  by_cases husable : usablePeriod current report = true
  · rw [if_pos husable] at h
    obtain ⟨balances, hbalances, h⟩ := except_bind_ok.mp h
    rw [← Except.ok.inj h, List.reduceOption_mem_iff]
    constructor
    · intro hmem
      obtain ⟨line, hline, hbalance⟩ := exists_of_mapM_ok hbalances hmem
      exact ⟨husable, line, hline, hbalance⟩
    · rintro ⟨-, line, hline, hbalance⟩
      obtain ⟨balance, hmem, hsame⟩ := result_of_mapM_ok hbalances hline
      rwa [Except.ok.inj (hbalance.symm.trans hsame)]
  · rw [if_neg husable] at h
    rw [← Except.ok.inj h]
    exact iff_of_false List.not_mem_nil fun hmem => husable hmem.1

/-- A product's reports can be read when each line that is read can. -/
theorem balancesOf_isOk (hproduct : product ∈ products) :
    (∃ values, balancesOf host given product = .ok values) ↔
      ∀ current report line, ReadsLine products given product current report line →
        ∃ balance, lineBalance host product current report line = .ok balance := by
  unfold balancesOf
  cases hcurrent : currentOfProduct given product with
  | none =>
      refine iff_of_true ⟨[], rfl⟩ fun current report line hreads => ?_
      exact absurd (hcurrent.symm.trans hreads.valued) (by simp)
  | some current =>
      dsimp only
      by_cases hprovider : product.provider ≠ .clal
      · rw [if_pos hprovider]
        exact iff_of_true ⟨[], rfl⟩ fun _ _ _ hreads => absurd hreads.isClal hprovider
      · rw [if_neg hprovider]
        rw [not_not] at hprovider
        constructor
        · rintro ⟨values, h⟩ current' report line hreads
          obtain rfl := Option.some.inj (hcurrent.symm.trans hreads.valued)
          cases hreports : (product.reportSummaries.getD []).mapM
              (reportBalances host product current) with
          | error e =>
              rw [hreports] at h
              cases h
          | ok results =>
              obtain ⟨balances, -, hbalances⟩ := result_of_mapM_ok hreports hreads.kept
              by_cases hnamed : line.namesValue = true
              · exact reportBalances_isOk.mp ⟨balances, hbalances⟩ hreads.usable line hreads.printed
              · exact ⟨none, lineBalance_unnamed (Bool.eq_false_iff.mpr hnamed)⟩
        · intro h
          have heach : ∀ report ∈ product.reportSummaries.getD [],
              ∃ values, reportBalances host product current report = .ok values := by
            intro report hreport
            refine reportBalances_isOk.mpr fun husable line hline => ?_
            by_cases hnamed : line.namesValue = true
            · exact h current report line
                ⟨hproduct, hprovider, hcurrent, hreport, husable, hline, hnamed⟩
            · exact ⟨none, lineBalance_unnamed (Bool.eq_false_iff.mpr hnamed)⟩
          obtain ⟨results, hresults⟩ := mapM_isOk heach
          exact ⟨results.flatten, by rw [hresults]; rfl⟩

/-- The balances of a product are those its kept reports state. -/
theorem mem_balancesOf {values : List InvestmentValuation} (hproduct : product ∈ products)
    (h : balancesOf host given product = .ok values) :
    value ∈ values ↔ ∃ current report line date id,
      ReadsLine products given product current report line ∧ StatesBalance host report line date ∧
        investmentValuationId product.id (some date) = .ok id ∧
          value = statedBalance product current line date id := by
  unfold balancesOf at h
  cases hcurrent : currentOfProduct given product with
  | none =>
      rw [hcurrent] at h
      rw [← Except.ok.inj h]
      refine iff_of_false List.not_mem_nil ?_
      rintro ⟨current, report, line, -, -, hreads, -⟩
      exact absurd (hcurrent.symm.trans hreads.valued) (by simp)
  | some current =>
      rw [hcurrent] at h
      dsimp only at h
      by_cases hprovider : product.provider ≠ .clal
      · rw [if_pos hprovider] at h
        rw [← Except.ok.inj h]
        refine iff_of_false List.not_mem_nil ?_
        rintro ⟨current, report, line, -, -, hreads, -⟩
        exact hprovider hreads.isClal
      · rw [if_neg hprovider] at h
        rw [not_not] at hprovider
        cases hreports : (product.reportSummaries.getD []).mapM
            (reportBalances host product current) with
        | error e =>
            rw [hreports] at h
            cases h
        | ok results =>
            rw [hreports] at h
            rw [← Except.ok.inj h, List.mem_flatten]
            constructor
            · rintro ⟨balances, hmem, hvalue⟩
              obtain ⟨report, hreport, hbalances⟩ := exists_of_mapM_ok hreports hmem
              obtain ⟨husable, line, hline, hbalance⟩ := (mem_reportBalances hbalances).mp hvalue
              obtain ⟨hnamed, date, id, hstates, hid, rfl⟩ := lineBalance_some.mp hbalance
              exact ⟨current, report, line, date, id, ⟨hproduct, hprovider, hcurrent, hreport, husable,
                hline, hnamed⟩, hstates, hid, rfl⟩
            · rintro ⟨current', report, line, date, id, hreads, hstates, hid, rfl⟩
              obtain rfl := Option.some.inj (hcurrent.symm.trans hreads.valued)
              obtain ⟨balances, hmem, hbalances⟩ := result_of_mapM_ok hreports hreads.kept
              refine ⟨balances, hmem, (mem_reportBalances hbalances).mpr ⟨hreads.usable, line,
                hreads.printed, lineBalance_some.mpr ⟨hreads.named, date, id, hstates, hid, rfl⟩⟩⟩

end

/-! ## Adding the balances -/

section
variable {host : Host} {products : List InvestmentProduct}
  {given valuations out : List InvestmentValuation} {product : InvestmentProduct}

/-- The balances of a product are added one after another. -/
theorem addReports_ok : addReports host given valuations product = .ok out ↔
    ∃ values, balancesOf host given product = .ok values ∧
      values.foldlM (addBalance given) valuations = .ok out := by
  have hnothing : ∀ values : List InvestmentValuation, .ok [] = (.ok values : Except ParseError _) →
      values.foldlM (addBalance given) valuations = .ok valuations := by
    intro values hvalues
    rw [← Except.ok.inj hvalues]
    rfl
  unfold addReports balancesOf
  cases currentOfProduct given product with
  | none =>
      constructor
      · intro h
        exact ⟨[], rfl, h⟩
      · rintro ⟨values, hvalues, h⟩
        rwa [hnothing values hvalues] at h
  | some current =>
      dsimp only
      by_cases hprovider : product.provider ≠ .clal
      · rw [if_pos hprovider, if_pos hprovider]
        constructor
        · intro h
          exact ⟨[], rfl, h⟩
        · rintro ⟨values, hvalues, h⟩
          rwa [hnothing values hvalues] at h
      · rw [if_neg hprovider, if_neg hprovider]
        cases (product.reportSummaries.getD []).mapM (reportBalances host product current) with
        | error e =>
            constructor
            · intro h
              cases h
            · rintro ⟨values, hvalues, -⟩
              cases hvalues
        | ok results =>
            constructor
            · intro h
              exact ⟨results.flatten, rfl, h⟩
            · rintro ⟨values, hvalues, h⟩
              rwa [← Except.ok.inj hvalues] at h

/-- The balances that the provider did not report itself are added one after
another, and those of one id are to agree. -/
theorem foldlM_addBalance (values : List InvestmentValuation) :
    values.foldlM (addBalance given) valuations =
      Agreements.addAll InvestmentValuation.id InvestmentValuation.amount
        ParseError.INVALID_RESPONSE valuations
        (values.filter fun value => !directlyObserved given value) := by
  unfold Agreements.addAll
  rw [List.foldlM_filter]
  congr 1
  funext valuations value
  unfold addBalance
  cases directlyObserved given value with
  | true => rfl
  | false =>
      change _ = Agreements.add InvestmentValuation.id InvestmentValuation.amount
        ParseError.INVALID_RESPONSE valuations value
      rw [if_neg Bool.false_ne_true]
      unfold Agreements.add
      cases valuations.find? fun row => row.id = value.id with
      | none => rfl
      | some existing => rfl

/-- A loop of loops. -/
theorem foldlM_flatten {α ε σ : Type} (step : σ → α → Except ε σ) (lists : List (List α)) (s : σ) :
    lists.foldlM (fun s items => items.foldlM step s) s = lists.flatten.foldlM step s := by
  induction lists generalizing s with
  | nil => rfl
  | cons items lists ih =>
      rw [List.foldlM_cons, List.flatten_cons, List.foldlM_append]
      exact congrArg _ (funext ih)

/-- The balances of all products are added, where they agree. -/
theorem enrichClalReportValuations_ok : enrichClalReportValuations host products given = .ok out ↔
    ∃ lists, products.mapM (balancesOf host given) = .ok lists ∧
      Agreements.addAll InvestmentValuation.id InvestmentValuation.amount
        ParseError.INVALID_RESPONSE given
        (lists.flatten.filter fun value => !directlyObserved given value) = .ok out := by
  unfold enrichClalReportValuations
  have hstep : ∀ valuations product out, addReports host given valuations product = .ok out ↔
      ∃ values, balancesOf host given product = .ok values ∧
        values.foldlM (addBalance given) valuations = .ok out := fun _ _ _ => addReports_ok
  rw [foldlM_read_ok hstep]
  refine exists_congr fun lists => and_congr_right fun _ => ?_
  rw [foldlM_flatten, foldlM_addBalance]

end

/-! ## Readable balances -/

/-- What a reader asks of the balances that kept reports state. -/
structure BalancesReadable (host : Host) (products : List InvestmentProduct)
    (given : List InvestmentValuation) : Prop where
  /-- The day that a label names is a day of the calendar. -/
  calendar : ∀ product current report line, ReadsLine products given product current report line →
    ∃ date, parseClalDate host (labelDate line.label) = .ok date
  /-- The balance has an id. -/
  identified : ∀ product current report line date,
    ReadsLine products given product current report line → StatesBalance host report line date →
      ∃ id, investmentValuationId product.id (some date) = .ok id
  /-- Its amount is that of a valuation. -/
  valued : ∀ value, States host products given value → directlyObserved given value = false →
    isValuationMoney value.amount = true
  /-- Two balances of a product agree on a date for which the provider gave none. -/
  agreed : ∀ value value', States host products given value → States host products given value' →
    directlyObserved given value = false → value'.productId = value.productId →
      value'.asOf = value.asOf → value'.amount = value.amount

section
variable {host : Host} {provider : InvestmentProvider} {products : List InvestmentProduct}
  {given out : List InvestmentValuation}
  (hproducts : ∀ product ∈ products, product.provider = provider ∧ IsProductId provider product.id)
  (hgiven : ∀ value ∈ given, IsProductId provider value.productId ∧ (provider ≠ .hapoalim →
    investmentValuationId value.productId value.asOf = .ok value.id))
include hproducts

/-- Balances of one id are balances of one product and one date. -/
theorem States.same_id {value value' : InvestmentValuation} (h : States host products given value)
    (h' : States host products given value') (hid : value.id = value'.id) :
    value'.productId = value.productId ∧ value'.asOf = value.asOf := by
  obtain ⟨product, current, report, line, date, id, hreads, hstates, hown, rfl⟩ := h
  obtain ⟨product', current', report', line', date', id', hreads', hstates', hown', rfl⟩ := h'
  obtain rfl : id = id' := hid
  obtain ⟨hsame, hdates⟩ := valuationId_inj (hproducts product hreads.stored).2
    (hproducts product' hreads'.stored).2 hstates.1 hown hown'
  exact ⟨hsame.symm, hdates⟩

include hgiven

/-- A balance whose id is taken was reported by the provider itself. -/
theorem States.observed {value row : InvestmentValuation} (h : States host products given value)
    (hrow : row ∈ given) (hid : row.id = value.id) : directlyObserved given value = true := by
  obtain ⟨product, current, report, line, date, id, hreads, hstates, hown, rfl⟩ := h
  obtain ⟨hprovider, hproduct⟩ := hproducts product hreads.stored
  have hother : provider ≠ .hapoalim := by
    rw [← hprovider, hreads.isClal]
    decide
  obtain ⟨hrowProduct, hrowId⟩ := hgiven row hrow
  have hrowOwn := hrowId hother
  rw [hid] at hrowOwn
  obtain ⟨hsame, hdates⟩ := valuationId_inj hproduct hrowProduct hstates.1 hown hrowOwn
  refine List.any_eq_true.mpr ⟨row, hrow, ?_⟩
  change (decide (row.productId = product.id) && decide (row.asOf = some date)) = true
  rw [hsame, hdates, decide_eq_true rfl, decide_eq_true rfl]
  rfl

omit hproducts hgiven in
/-- They are the stated ones. -/
theorem mem_balances {lists : List (List InvestmentValuation)}
    (h : products.mapM (balancesOf host given) = .ok lists) {value : InvestmentValuation} :
    value ∈ lists.flatten ↔ States host products given value := by
  rw [List.mem_flatten]
  constructor
  · rintro ⟨values, hmem, hvalue⟩
    obtain ⟨product, hproduct, hvalues⟩ := exists_of_mapM_ok h hmem
    exact ⟨product, (mem_balancesOf hproduct hvalues).mp hvalue⟩
  · rintro ⟨product, current, report, line, date, id, hreads, hrest⟩
    obtain ⟨values, hmem, hvalues⟩ := result_of_mapM_ok h hreads.stored
    exact ⟨values, hmem, (mem_balancesOf hreads.stored hvalues).mpr
      ⟨current, report, line, date, id, hreads, hrest⟩⟩

omit hproducts hgiven in
/-- Whether the provider gave a value depends on the product and the day. -/
theorem directlyObserved_congr {value value' : InvestmentValuation}
    (hproduct : value'.productId = value.productId) (hdate : value'.asOf = value.asOf) :
    directlyObserved given value' = directlyObserved given value := by
  unfold directlyObserved
  rw [hproduct, hdate]

/-- Balances that agree for every product and date agree for every id. -/
theorem agree_iff (hids : (given.map (·.id)).Nodup) {balances : List InvestmentValuation}
    (hbalances : ∀ value, value ∈ balances ↔
      States host products given value ∧ directlyObserved given value = false) :
    Agree InvestmentValuation.id InvestmentValuation.amount (given ++ balances) ↔
      ∀ value value', States host products given value → States host products given value' →
        directlyObserved given value = false → value'.productId = value.productId →
          value'.asOf = value.asOf → value'.amount = value.amount := by
  constructor
  · intro hagree value value' hvalue hvalue' hnew hproduct hdate
    have hnew' := (@directlyObserved_congr given _ _ hproduct hdate).trans hnew
    have hid : value'.id = value.id := by
      obtain ⟨product, _, _, _, date, id, -, -, hown, rfl⟩ := hvalue
      obtain ⟨product', _, _, _, date', id', -, -, hown', rfl⟩ := hvalue'
      have hsame : product'.id = product.id := hproduct
      have hdates : some date' = some date := hdate
      rw [hsame, hdates] at hown'
      exact Except.ok.inj (hown'.symm.trans hown)
    exact hagree value' (List.mem_append_right _ ((hbalances _).mpr ⟨hvalue', hnew'⟩)) value
      (List.mem_append_right _ ((hbalances _).mpr ⟨hvalue, hnew⟩)) hid
  · intro hagreed a ha b hb hid
    rcases List.mem_append.mp ha with holdA | hnewA
    · rcases List.mem_append.mp hb with holdB | hnewB
      · exact congrArg _ (List.inj_on_of_nodup_map hids holdA holdB hid)
      · obtain ⟨hstated, hunknown⟩ := (hbalances b).mp hnewB
        rw [hstated.observed hproducts hgiven holdA hid] at hunknown
        cases hunknown
    · obtain ⟨hstatedA, hunknownA⟩ := (hbalances a).mp hnewA
      rcases List.mem_append.mp hb with holdB | hnewB
      · rw [hstatedA.observed hproducts hgiven holdB hid.symm] at hunknownA
        cases hunknownA
      · obtain ⟨hstatedB, hunknownB⟩ := (hbalances b).mp hnewB
        obtain ⟨hproduct, hdate⟩ := hstatedB.same_id hproducts hstatedA hid.symm
        exact hagreed b a hstatedB hstatedA hunknownB hproduct hdate

/-- **When the balances can be added**: each product's can be read, and they agree. -/
theorem enrichClalReportValuations_isOk (hids : (given.map (·.id)).Nodup) :
    (∃ out, enrichClalReportValuations host products given = .ok out) ↔
      (∀ product ∈ products, ∃ values, balancesOf host given product = .ok values) ∧
        ∀ value value', States host products given value → States host products given value' →
          directlyObserved given value = false → value'.productId = value.productId →
            value'.asOf = value.asOf → value'.amount = value.amount := by
  have hrows : Agree InvestmentValuation.id InvestmentValuation.amount given := fun a ha b hb hid =>
    congrArg _ (List.inj_on_of_nodup_map hids ha hb hid)
  have hmem : ∀ {lists}, products.mapM (balancesOf host given) = .ok lists → ∀ value,
      value ∈ lists.flatten.filter (fun value => !directlyObserved given value) ↔
        States host products given value ∧ directlyObserved given value = false := by
    intro lists hlists value
    rw [List.mem_filter, mem_balances hlists, Bool.not_eq_true']
  constructor
  · rintro ⟨out, h⟩
    obtain ⟨lists, hlists, hadded⟩ := enrichClalReportValuations_ok.mp h
    refine ⟨fun product hproduct => ?_, ?_⟩
    · obtain ⟨values, -, hvalues⟩ := result_of_mapM_ok hlists hproduct
      exact ⟨values, hvalues⟩
    · exact (agree_iff hproducts hgiven hids (hmem hlists)).mp
        ((Agreements.addAll_isOk hrows).mp ⟨out, hadded⟩)
  · rintro ⟨hread, hagreed⟩
    obtain ⟨lists, hlists⟩ := mapM_isOk hread
    obtain ⟨out, hadded⟩ := (Agreements.addAll_isOk hrows).mpr
      ((agree_iff hproducts hgiven hids (hmem hlists)).mpr hagreed)
    exact ⟨out, enrichClalReportValuations_ok.mpr ⟨lists, hlists, hadded⟩⟩

/-- **What is added**: the given valuations come first, whatever follows is
stated, and each balance that the provider did not give is there. -/
theorem enrichClalReportValuations_kept (h : enrichClalReportValuations host products given = .ok out) :
    given <+: out ∧
      (∀ value ∈ out, value ∈ given ∨
        States host products given value ∧ directlyObserved given value = false) ∧
      ∀ value, States host products given value → directlyObserved given value = false →
        ∃ row ∈ out, States host products given row ∧ row.id = value.id ∧
          row.amount = value.amount := by
  obtain ⟨lists, hlists, hadded⟩ := enrichClalReportValuations_ok.mp h
  obtain ⟨hfrom, hfront, heach⟩ := Agreements.addAll_kept hadded
  have hmem : ∀ value, value ∈ lists.flatten.filter (fun value => !directlyObserved given value) ↔
      States host products given value ∧ directlyObserved given value = false := by
    intro value
    rw [List.mem_filter, mem_balances hlists, Bool.not_eq_true']
  refine ⟨hfront, fun value hvalue => (hfrom value hvalue).imp id (hmem value).mp, ?_⟩
  intro value hvalue hnew
  obtain ⟨row, hrow, hid, hamount⟩ := heach value ((hmem value).mpr ⟨hvalue, hnew⟩)
  refine ⟨row, hrow, ?_, hid, hamount⟩
  rcases hfrom row hrow with hold | hadded
  · rw [hvalue.observed hproducts hgiven hold hid] at hnew
    cases hnew
  · exact ((hmem row).mp hadded).1

omit hproducts hgiven in
/-- No id is added twice. -/
theorem enrichClalReportValuations_nodup (hids : (given.map (·.id)).Nodup)
    (h : enrichClalReportValuations host products given = .ok out) : (out.map (·.id)).Nodup := by
  obtain ⟨lists, -, hadded⟩ := enrichClalReportValuations_ok.mp h
  exact Agreements.addAll_nodup hadded hids

omit hproducts hgiven in
/-- Each product's balances can be read when each line's can. -/
theorem balancesOf_all_isOk :
    (∀ product ∈ products, ∃ values, balancesOf host given product = .ok values) ↔
      ∀ product current report line, ReadsLine products given product current report line →
        (∃ date, parseClalDate host (labelDate line.label) = .ok date) ∧
          ∀ date, StatesBalance host report line date →
            ∃ id, investmentValuationId product.id (some date) = .ok id := by
  constructor
  · intro hread product current report line hreads
    exact lineBalance_isOk.mp ((balancesOf_isOk hreads.stored).mp (hread product hreads.stored)
      current report line hreads) hreads.named
  · intro hread product hproduct
    exact (balancesOf_isOk hproduct).mpr fun current report line hreads =>
      lineBalance_isOk.mpr fun _ => hread product current report line hreads

/-- Balances that were added can be read, if their amounts are those of valuations. -/
theorem balancesReadable_of_added (hids : (given.map (·.id)).Nodup)
    (hout : enrichClalReportValuations host products given = .ok out)
    (hmoney : ∀ row ∈ out, States host products given row → isValuationMoney row.amount = true) :
    BalancesReadable host products given := by
  obtain ⟨hread, hagreed⟩ := (enrichClalReportValuations_isOk hproducts hgiven hids).mp ⟨out, hout⟩
  have hlines := balancesOf_all_isOk.mp hread
  refine ⟨fun product current report line hreads => (hlines product current report line hreads).1,
    fun product current report line date hreads hstates =>
      (hlines product current report line hreads).2 date hstates, ?_, hagreed⟩
  intro value hvalue hnew
  obtain ⟨-, -, heach⟩ := enrichClalReportValuations_kept hproducts hgiven hout
  obtain ⟨row, hrow, hrowStated, -, hamount⟩ := heach value hvalue hnew
  rw [← hamount]
  exact hmoney row hrow hrowStated

/-- Balances that can be read can be added. -/
theorem added_of_balancesReadable (hids : (given.map (·.id)).Nodup)
    (h : BalancesReadable host products given) :
    ∃ out, enrichClalReportValuations host products given = .ok out :=
  (enrichClalReportValuations_isOk hproducts hgiven hids).mpr
    ⟨balancesOf_all_isOk.mpr fun product current report line hreads =>
      ⟨h.calendar product current report line hreads,
        fun date => h.identified product current report line date hreads⟩, h.agreed⟩

/-- **When the balances can be added and parsed.** -/
theorem accepted_balances_iff (hids : (given.map (·.id)).Nodup)
    (hgivenOk : ∀ value ∈ given, value.trimmed.accepted host = true)
    (hstated : ∀ value, States host products given value →
      (value.trimmed.accepted host = true ↔ isValuationMoney value.amount = true)) :
    (∃ out, enrichClalReportValuations host products given = .ok out ∧
      ∀ value ∈ out, value.trimmed.accepted host = true) ↔ BalancesReadable host products given := by
  constructor
  · rintro ⟨out, hout, haccepted⟩
    exact balancesReadable_of_added hproducts hgiven hids hout fun row hrow hrowStated =>
      (hstated row hrowStated).mp (haccepted row hrow)
  · intro hreadable
    obtain ⟨out, hout⟩ := added_of_balancesReadable hproducts hgiven hids hreadable
    obtain ⟨-, hfrom, -⟩ := enrichClalReportValuations_kept hproducts hgiven hout
    refine ⟨out, hout, fun value hvalue => ?_⟩
    rcases hfrom value hvalue with hold | ⟨hvalueStated, hnew⟩
    · exact hgivenOk value hold
    · exact (hstated value hvalueStated).mpr (hreadable.valued value hvalueStated hnew)

end

/-! ## The feed -/

/-- The product of a row. -/
def InvestmentRecord.asProduct : InvestmentRecord → Option InvestmentProduct
  | product row => some row
  | _ => none

/-- The valuation of a row. -/
def InvestmentRecord.asValuation : InvestmentRecord → Option InvestmentValuation
  | valuation row => some row
  | _ => none

/-- The activity of a row. -/
def InvestmentRecord.asActivity : InvestmentRecord → Option InvestmentActivity
  | activity row => some row
  | _ => none

/-- The track of a row. -/
def InvestmentRecord.asTrack : InvestmentRecord → Option InvestmentTrack
  | track row => some row
  | _ => none

/-- The execution of a row. -/
def InvestmentRecord.asExecution : InvestmentRecord → Option InvestmentExecution
  | execution row => some row
  | _ => none

/-- The rows of a database in the order in which the feed has them. -/
def InvestmentDb.feedRows (db : InvestmentDb) : List InvestmentRecord :=
  recordKinds.flatMap db.rowsOfKind

/-- The rows and the state as a feed, before balances are added. -/
def collectedFeed (rows : List InvestmentRecord) (state : InvestmentSourceState) (now : Instant)
    (staleAfterHours : Nat) : InvestmentFeed where
  generatedAt := toIsoString now
  source := { state with staleAfterHours }
  products := rows.filterMap (·.asProduct)
  valuations := rows.filterMap (·.asValuation)
  activities := rows.filterMap (·.asActivity)
  tracks := rows.filterMap (·.asTrack)
  executions := rows.filterMap (·.asExecution)

section
variable {host : Host} {provider : InvestmentProvider} {db : InvestmentDb}

/-- The schema accepts a feed and trims it. -/
theorem parseFeed_ok {feed parsed : InvestmentFeed} : parseFeed host feed = .ok parsed ↔
    feed.trimmed.accepted host = true ∧ parsed = feed.trimmed := by
  unfold parseFeed
  by_cases hok : feed.trimmed.accepted host = true
  · rw [if_pos hok]
    exact ⟨fun hfeed => ⟨hok, (Except.ok.inj hfeed).symm⟩, fun hfeed => congrArg _ hfeed.2.symm⟩
  · rw [if_neg hok]
    exact iff_of_false (fun hfeed => by cases hfeed) fun hfeed => hok hfeed.1

/-- A feed is parsed, extended and parsed again. -/
theorem buildFeed_ok {rows : List InvestmentRecord} {state : InvestmentSourceState} {now : Instant}
    {staleAfterHours : Nat} {feed : InvestmentFeed} :
    buildFeed host rows state now staleAfterHours = .ok feed ↔ ∃ parsed valuations,
      parseFeed host (collectedFeed rows state now staleAfterHours) = .ok parsed ∧
        enrichClalReportValuations host parsed.products parsed.valuations = .ok valuations ∧
          parseFeed host { parsed with valuations } = .ok feed := by
  have hbuild : buildFeed host rows state now staleAfterHours =
      (parseFeed host (collectedFeed rows state now staleAfterHours)).bind fun parsed =>
        ((enrichClalReportValuations host parsed.products parsed.valuations).mapError .parse).bind
          fun valuations => parseFeed host { parsed with valuations } := rfl
  have hmap : ∀ {result : Except ParseError (List InvestmentValuation)} {valuations},
      result.mapError FeedError.parse = .ok valuations ↔ result = .ok valuations := by
    intro result valuations
    cases result with
    | ok value => exact ⟨fun h => congrArg _ (Except.ok.inj h), fun h => congrArg _ (Except.ok.inj h)⟩
    | error e => exact iff_of_false (fun h => by cases h) fun h => by cases h
  rw [hbuild]
  constructor
  · intro h
    obtain ⟨parsed, hparsed, h⟩ := except_bind_ok.mp h
    obtain ⟨valuations, hvaluations, h⟩ := except_bind_ok.mp h
    exact ⟨parsed, valuations, hparsed, hmap.mp hvaluations, h⟩
  · rintro ⟨parsed, valuations, hparsed, hvaluations, h⟩
    exact except_bind_ok.mpr ⟨parsed, hparsed, except_bind_ok.mpr
      ⟨valuations, hmap.mpr hvaluations, h⟩⟩

/-- The source of a feed is the state it is built from. -/
theorem buildFeed_source {rows : List InvestmentRecord} {state : InvestmentSourceState} {now : Instant}
    {staleAfterHours : Nat} {feed : InvestmentFeed}
    (h : buildFeed host rows state now staleAfterHours = .ok feed) :
    feed.source = { state with staleAfterHours } := by
  obtain ⟨parsed, valuations, hparsed, -, hlast⟩ := buildFeed_ok.mp h
  rw [(parseFeed_ok.mp hlast).2, (parseFeed_ok.mp hparsed).2]
  rfl

/-- The rows that are read are the stored ones. -/
theorem mem_feedRows {row : InvestmentRecord} : row ∈ db.feedRows ↔ row ∈ db.records.rows := by
  have hkind : ∀ kind : RecordKind, kind ∈ recordKinds := by
    intro kind
    cases kind <;> decide
  have hread : ∀ kind, row ∈ db.rowsOfKind kind ↔ row ∈ db.records.rows ∧ row.kind = kind := by
    intro kind
    unfold InvestmentDb.rowsOfKind
    rw [(List.mergeSort_perm _ _).mem_iff, List.mem_filter, decide_eq_true_eq]
  unfold InvestmentDb.feedRows
  rw [List.mem_flatMap]
  constructor
  · rintro ⟨kind, -, hrow⟩
    exact ((hread kind).mp hrow).1
  · intro hrow
    exact ⟨row.kind, hkind _, (hread _).mpr ⟨hrow, rfl⟩⟩

/-- No two rows of the feed have one key. -/
theorem nodup_feedRows : (db.feedRows.map (·.key)).Nodup := by
  have hrows : db.records.rows.Nodup := db.records.nodup.of_map
  have hread : db.feedRows.Nodup := by
    have hkinds : recordKinds.Nodup := by decide
    refine List.nodup_flatMap.mpr ⟨fun kind _ => ?_, hkinds.imp fun {kind kind'} hne => ?_⟩
    · exact (List.mergeSort_perm _ _).nodup_iff.mpr (hrows.filter _)
    · intro row hrow hrow'
      unfold InvestmentDb.rowsOfKind at hrow hrow'
      rw [(List.mergeSort_perm _ _).mem_iff, List.mem_filter, decide_eq_true_eq] at hrow hrow'
      exact hne (hrow.2.symm.trans hrow'.2)
  refine hread.map_on fun a ha b hb hkey => ?_
  exact KeyedTable.eq_of_key_eq (mem_feedRows.mp ha) (mem_feedRows.mp hb) hkey

variable (provider) in
/-- What is read for the feed. -/
theorem computes_readFeed : Computes (readFeed provider) fun db =>
    (db.readState provider).map fun state => ((db.feedRows, state), db) := by
  have hkind : ∀ (rows : List InvestmentRecord) (kind : RecordKind),
      Computes (do return rows ++ (← select fun db => .ok (db.rowsOfKind kind)) :
        InvestmentM (List InvestmentRecord)) fun db => .ok (rows ++ db.rowsOfKind kind, db) :=
    fun rows kind => (computes_select _).bind fun read => computes_pure _
  refine ((computes_foldlM hkind recordKinds []).bind fun rows =>
    (computes_readState provider).bind fun state => computes_pure (rows, state)).transaction.congr ?_
  intro db
  have hrows : ∀ (kinds : List RecordKind) (rows : List InvestmentRecord),
      kinds.foldlM (fun (p : List InvestmentRecord × InvestmentDb) kind =>
        (.ok (p.1 ++ p.2.rowsOfKind kind, p.2) : Except InvestmentError _)) (rows, db) =
          .ok (rows ++ kinds.flatMap db.rowsOfKind, db) := by
    intro kinds
    induction kinds with
    | nil => exact fun rows => by rw [List.flatMap_nil, List.append_nil]; rfl
    | cons kind kinds ih =>
        intro rows
        rw [List.foldlM_cons, List.flatMap_cons, ← List.append_assoc]
        exact ih _
  rw [hrows]
  change ((db.readState provider).map fun state => (state, db)).bind (fun read =>
    Except.ok ((db.feedRows, read.1), read.2)) = _
  cases db.readState provider with
  | ok state => rfl
  | error e => rfl

/-- A reading of the feed reads the rows and the state, and makes a feed of them. -/
theorem getFeed_ok {now : Instant} {staleAfterHours : Nat} {feed : InvestmentFeed} :
    (∃ s, getFeed host provider now staleAfterHours ⟨db, []⟩ = .ok feed s) ↔
      ∃ state, db.readState provider = .ok state ∧
        buildFeed host db.feedRows state now staleAfterHours = .ok feed := by
  constructor
  · rintro ⟨s, h⟩
    obtain ⟨⟨rows, state⟩, mid, hread, hbuild⟩ := bind_ok.mp h
    have hcomputed := (computes_readFeed provider).returns _ _ _ (adaptExcept_ok.mp hread)
    change (db.readState provider).map (fun state => ((db.feedRows, state), db)) = _ at hcomputed
    cases hstate : db.readState provider with
    | error e =>
        rw [hstate] at hcomputed
        cases hcomputed
    | ok found =>
        rw [hstate] at hcomputed
        obtain ⟨rfl, rfl⟩ := Prod.mk.inj (Prod.mk.inj (Except.ok.inj hcomputed)).1
        refine ⟨found, rfl, ?_⟩
        change ensure (buildFeed host db.feedRows found now staleAfterHours) mid = _ at hbuild
        cases hfeed : buildFeed host db.feedRows found now staleAfterHours with
        | error e =>
            rw [hfeed] at hbuild
            cases hbuild
        | ok built =>
            rw [hfeed] at hbuild
            cases hbuild
            rfl
  · rintro ⟨state, hstate, hbuild⟩
    have hread : readFeed provider ⟨db, []⟩ = .ok (db.feedRows, state) ⟨db, []⟩ := by
      refine (computes_readFeed provider).accepted db _ db ?_
      rw [hstate]
      rfl
    refine ⟨⟨db, []⟩, bind_ok.mpr ⟨_, _, adaptExcept_ok.mpr hread, ?_⟩⟩
    change ensure (buildFeed host db.feedRows state now staleAfterHours) _ = _
    rw [hbuild]
    rfl

/-! ## Parsing the feed -/

/-- Valuations of rows with unique keys have ids of their own. -/
theorem nodup_valuationIds {rows : List InvestmentRecord} (h : (rows.map (·.key)).Nodup) :
    ((rows.filterMap (·.asValuation)).map (·.id)).Nodup := by
  have hmem : ∀ {value}, value ∈ rows.filterMap (·.asValuation) → .valuation value ∈ rows := by
    intro value hvalue
    obtain ⟨row, hrow, hsome⟩ := List.mem_filterMap.mp hvalue
    cases row <;> cases hsome
    exact hrow
  have hrows : (rows.filterMap (·.asValuation)).Nodup := by
    refine List.Nodup.filterMap ?_ h.of_map
    intro row row' value hrow hrow'
    cases row <;> cases hrow
    cases row' <;> cases hrow'
    rfl
  refine hrows.map_on fun a ha b hb hid => ?_
  have hkey : (InvestmentRecord.valuation a).key = (InvestmentRecord.valuation b).key :=
    congrArg (Prod.mk RecordKind.valuations) hid
  exact InvestmentRecord.valuation.inj (List.inj_on_of_nodup_map h (hmem ha) (hmem hb) hkey)

/-- The products of the feed are the stored ones, -/
theorem mem_feedProducts {product : InvestmentProduct} :
    product ∈ db.feedRows.filterMap (·.asProduct) ↔ .product product ∈ db.records.rows := by
  rw [List.mem_filterMap]
  constructor
  · rintro ⟨row, hrow, hproduct⟩
    cases row <;> cases hproduct
    exact mem_feedRows.mp hrow
  · exact fun hrow => ⟨_, mem_feedRows.mpr hrow, rfl⟩

/-- and so are the valuations, before balances are added. -/
theorem mem_feedValuations {value : InvestmentValuation} :
    value ∈ db.feedRows.filterMap (·.asValuation) ↔ .valuation value ∈ db.records.rows := by
  rw [List.mem_filterMap]
  constructor
  · rintro ⟨row, hrow, hvalue⟩
    cases row <;> cases hvalue
    exact mem_feedRows.mp hrow
  · exact fun hrow => ⟨_, mem_feedRows.mpr hrow, rfl⟩

variable (h : KeepsRecords host provider db)
include h

/-- The schema parses every record of the feed to itself. -/
theorem KeepsRecords.rows_parsed {α : Type} {select : InvestmentRecord → Option α} {trim : α → α}
    {accept : α → Bool} {wrap : α → InvestmentRecord}
    (hselect : ∀ row a, select row = some a → row = wrap a)
    (htrim : ∀ a, (wrap a).trimmed = wrap a → trim a = a)
    (haccept : ∀ a, (wrap a).accepted host = accept a) :
    (db.feedRows.filterMap select).map trim = db.feedRows.filterMap select ∧
      (db.feedRows.filterMap select).all accept = true := by
  have heach : ∀ a ∈ db.feedRows.filterMap select, trim a = a ∧ accept a = true := by
    intro a ha
    obtain ⟨row, hrow, hsome⟩ := List.mem_filterMap.mp ha
    obtain rfl := hselect row a hsome
    have hparsed := h.parsed _ (mem_feedRows.mp hrow)
    refine ⟨htrim a hparsed.trimmed, ?_⟩
    rw [← haccept]
    exact hparsed.accepted
  exact ⟨map_trimmed_iff.mpr fun a ha => (heach a ha).1,
    List.all_eq_true.mpr fun a ha => (heach a ha).2⟩

/-- Stored products pass the schema as they are, -/
theorem KeepsRecords.products_parsed :
    (db.feedRows.filterMap (·.asProduct)).map (·.trimmed) = db.feedRows.filterMap (·.asProduct) ∧
      (db.feedRows.filterMap (·.asProduct)).all (·.accepted host) = true := by
  refine @KeepsRecords.rows_parsed host provider db h _ _ _ _ .product ?_
    (fun a ha => InvestmentRecord.product.inj ha) fun _ => rfl
  intro row a hrow
  cases row <;> cases hrow
  rfl

/-- and so do valuations, -/
theorem KeepsRecords.valuations_parsed :
    (db.feedRows.filterMap (·.asValuation)).map (·.trimmed) =
        db.feedRows.filterMap (·.asValuation) ∧
      (db.feedRows.filterMap (·.asValuation)).all (·.accepted host) = true := by
  refine @KeepsRecords.rows_parsed host provider db h _ _ _ _ .valuation ?_
    (fun a ha => InvestmentRecord.valuation.inj ha) fun _ => rfl
  intro row a hrow
  cases row <;> cases hrow
  rfl

/-- activities, -/
theorem KeepsRecords.activities_parsed :
    (db.feedRows.filterMap (·.asActivity)).map (·.trimmed) = db.feedRows.filterMap (·.asActivity) ∧
      (db.feedRows.filterMap (·.asActivity)).all (·.accepted host) = true := by
  refine @KeepsRecords.rows_parsed host provider db h _ _ _ _ .activity ?_
    (fun a ha => InvestmentRecord.activity.inj ha) fun _ => rfl
  intro row a hrow
  cases row <;> cases hrow
  rfl

/-- tracks -/
theorem KeepsRecords.tracks_parsed :
    (db.feedRows.filterMap (·.asTrack)).map (·.trimmed) = db.feedRows.filterMap (·.asTrack) ∧
      (db.feedRows.filterMap (·.asTrack)).all (·.accepted host) = true := by
  refine @KeepsRecords.rows_parsed host provider db h _ _ _ _ .track ?_
    (fun a ha => InvestmentRecord.track.inj ha) fun _ => rfl
  intro row a hrow
  cases row <;> cases hrow
  rfl

/-- and executions. -/
theorem KeepsRecords.executions_parsed :
    (db.feedRows.filterMap (·.asExecution)).map (·.trimmed) =
        db.feedRows.filterMap (·.asExecution) ∧
      (db.feedRows.filterMap (·.asExecution)).all (·.accepted host) = true := by
  refine @KeepsRecords.rows_parsed host provider db h _ _ _ _ .execution ?_
    (fun a ha => InvestmentRecord.execution.inj ha) fun _ => rfl
  intro row a hrow
  cases row <;> cases hrow
  rfl

/-- So trimming changes nothing in the feed. -/
theorem KeepsRecords.collected_trimmed (state : InvestmentSourceState) (now : Instant)
    (staleAfterHours : Nat) : (collectedFeed db.feedRows state now staleAfterHours).trimmed =
      collectedFeed db.feedRows state now staleAfterHours := by
  unfold InvestmentFeed.trimmed collectedFeed
  dsimp only
  rw [h.products_parsed.1, h.valuations_parsed.1, h.activities_parsed.1, h.tracks_parsed.1,
    h.executions_parsed.1]

/-- What the schema asks of the feed, with other valuations. -/
theorem KeepsRecords.feed_accepted_iff {state : InvestmentSourceState}
    (hstate : db.readState provider = .ok state) (now : Instant) (staleAfterHours : Nat)
    (valuations : List InvestmentValuation) :
    { collectedFeed db.feedRows state now staleAfterHours with valuations }.trimmed.accepted host =
        true ↔ (isTimestamp (toIsoString now) = true ∧ 0 < staleAfterHours ∧
      isSafeInteger staleAfterHours = true) ∧ ∀ value ∈ valuations, value.trimmed.accepted host = true := by
  have hsource : state.lastAttemptAt.all isTimestamp = true ∧
      state.lastSuccessAt.all isTimestamp = true := by
    rcases (readState_ok hstate).2 with ⟨-, haccepted⟩ | ⟨-, rfl⟩
    · unfold InvestmentSourceState.accepted at haccepted
      simp only [Bool.and_eq_true] at haccepted
      exact haccepted.1
    · exact ⟨rfl, rfl⟩
  obtain ⟨hproducts, hproductsOk⟩ := h.products_parsed
  obtain ⟨hactivities, hactivitiesOk⟩ := h.activities_parsed
  obtain ⟨htracks, htracksOk⟩ := h.tracks_parsed
  obtain ⟨hexecutions, hexecutionsOk⟩ := h.executions_parsed
  unfold InvestmentFeed.accepted InvestmentFeed.trimmed collectedFeed InvestmentSourceState.accepted
  dsimp only
  rw [hproducts, hactivities, htracks, hexecutions, hproductsOk, hactivitiesOk, htracksOk,
    hexecutionsOk, hsource.1, hsource.2, List.all_map]
  simp only [Bool.and_true, Bool.true_and, Bool.and_eq_true, decide_eq_true_eq, List.all_eq_true,
    Function.comp_apply]
  exact and_congr_left fun _ => and_assoc

/-- The id of a stated balance is a text without spaces. -/
theorem KeepsRecords.stated_id {product : InvestmentProduct} {line : ReportLine} {date : IsoDate}
    {id : String} (hproduct : product ∈ db.feedRows.filterMap (·.asProduct))
    (hdate : parseClalDate host (labelDate line.label) = .ok (some date))
    (hid : investmentValuationId product.id (some date) = .ok id) : jsTrim id = id ∧ isId id = true := by
  have hrow := mem_feedProducts.mp hproduct
  have haccepted : product.accepted host = true := (h.parsed _ hrow).accepted
  unfold InvestmentProduct.accepted at haccepted
  simp only [Bool.and_eq_true] at haccepted
  have hlength : 1 ≤ jsLength (product.id ++ ":valuation:" ++ (some date).getD "undated") := by
    have hname := one_le_jsLength (ne_empty_of_isId haccepted.1.1.1.1.1.1.1.1)
    rw [jsLength_append, jsLength_append]
    omega
  refine ⟨jsTrim_of_no_space fun c hc => ?_, isId_checked hid hlength⟩
  have hmarks : ∀ c ∈ ":valuation:".toList, isJsSpace c = false := forall_char_of_all (by decide)
  rw [checked_ok hid, String.toList_append, String.toList_append, List.mem_append,
    List.mem_append] at hc
  rcases hc with (hname | hmark) | hday
  · rcases (h.product product hrow).2.isIdText c hname with hencoded | rfl
    · exact isJsSpace_of_encoded hencoded
    · rfl
  · exact hmarks c hmark
  · exact (date_of_label hdate).2.1 c hday

/-- The schema changes nothing in a stated balance. -/
theorem KeepsRecords.stated_trimmed {value : InvestmentValuation}
    (hvalue : States host (db.feedRows.filterMap (·.asProduct)) (db.feedRows.filterMap (·.asValuation))
      value) : value.trimmed = value := by
  obtain ⟨product, current, report, line, date, id, hreads, hstates, hid, rfl⟩ := hvalue
  have hnamed := (h.product product (mem_feedProducts.mp hreads.stored)).2
  unfold InvestmentValuation.trimmed statedBalance
  dsimp only
  rw [(h.stated_id hreads.stored hstates.1 hid).1, hnamed.isIdText.trimmed]

/-- A stated balance is a valuation that the schema accepts when its amount is one. -/
theorem KeepsRecords.stated_accepted_iff {value : InvestmentValuation}
    (hvalue : States host (db.feedRows.filterMap (·.asProduct)) (db.feedRows.filterMap (·.asValuation))
      value) : value.trimmed.accepted host = true ↔ isValuationMoney value.amount = true := by
  rw [h.stated_trimmed hvalue]
  obtain ⟨product, current, report, line, date, id, hreads, hstates, hid, rfl⟩ := hvalue
  have hproduct : isId product.id = true ∧ isCurrencyCode product.currency = true := by
    have haccepted : product.accepted host = true :=
      (h.parsed _ (mem_feedProducts.mp hreads.stored)).accepted
    unfold InvestmentProduct.accepted at haccepted
    simp only [Bool.and_eq_true] at haccepted
    exact ⟨haccepted.1.1.1.1.1.1.1.1, haccepted.1.1.1.1.1.2⟩
  have hobserved : isTimestamp current.observedAt = true := by
    have haccepted : current.accepted host = true :=
      (h.parsed _ (mem_feedValuations.mp (List.mem_of_find?_eq_some hreads.valued))).accepted
    unfold InvestmentValuation.accepted at haccepted
    simp only [Bool.and_eq_true] at haccepted
    exact haccepted.1.1.1.2
  obtain ⟨hdate, -⟩ := date_of_label hstates.1
  unfold InvestmentValuation.accepted statedBalance
  dsimp only
  rw [(h.stated_id hreads.stored hstates.1 hid).2, hproduct.1, hproduct.2, hobserved]
  simp [hdate]

/-- The products and the valuations of the feed are named as a snapshot's are. -/
theorem KeepsRecords.named :
    (∀ product ∈ db.feedRows.filterMap (·.asProduct),
      product.provider = provider ∧ IsProductId provider product.id) ∧
    (∀ value ∈ db.feedRows.filterMap (·.asValuation), IsProductId provider value.productId ∧
      (provider ≠ .hapoalim → investmentValuationId value.productId value.asOf = .ok value.id)) ∧
    ((db.feedRows.filterMap (·.asValuation)).map (·.id)).Nodup := by
  refine ⟨fun product hproduct => h.product product (mem_feedProducts.mp hproduct),
    fun value hvalue => h.valuation value (mem_feedValuations.mp hvalue), ?_⟩
  exact nodup_valuationIds nodup_feedRows

/-- The balances of the stored reports can be added to the stored valuations. -/
theorem KeepsRecords.balances_iff :
    (∃ out, enrichClalReportValuations host (db.feedRows.filterMap (·.asProduct))
        (db.feedRows.filterMap (·.asValuation)) = .ok out ∧
      ∀ value ∈ out, value.trimmed.accepted host = true) ↔
        BalancesReadable host (db.feedRows.filterMap (·.asProduct))
          (db.feedRows.filterMap (·.asValuation)) := by
  obtain ⟨hproducts, hgiven, hids⟩ := h.named
  refine accepted_balances_iff hproducts hgiven hids (fun value hvalue => ?_)
    fun value hvalue => h.stated_accepted_iff hvalue
  rw [map_trimmed_iff.mp h.valuations_parsed.1 value hvalue]
  exact List.all_eq_true.mp h.valuations_parsed.2 value hvalue

/-- The schema accepts a stored valuation. -/
theorem KeepsRecords.given_accepted {value : InvestmentValuation}
    (hvalue : value ∈ db.feedRows.filterMap (·.asValuation)) : value.trimmed.accepted host = true := by
  rw [map_trimmed_iff.mp h.valuations_parsed.1 value hvalue]
  exact List.all_eq_true.mp h.valuations_parsed.2 value hvalue

/-- The schema changes nothing in the valuations with the balances. -/
theorem KeepsRecords.valuations_trimmed {out : List InvestmentValuation}
    (hout : enrichClalReportValuations host (db.feedRows.filterMap (·.asProduct))
      (db.feedRows.filterMap (·.asValuation)) = .ok out) : out.map (·.trimmed) = out := by
  obtain ⟨hproducts, hgiven, -⟩ := h.named
  refine map_trimmed_iff.mpr fun value hvalue => ?_
  rcases (enrichClalReportValuations_kept hproducts hgiven hout).2.1 value hvalue with hold | hnew
  · exact map_trimmed_iff.mp h.valuations_parsed.1 value hold
  · exact h.stated_trimmed hnew.1

/-- **What is read**: the rows as they are stored, with the balances. -/
theorem KeepsRecords.getFeed_ok {now : Instant} {staleAfterHours : Nat} {feed : InvestmentFeed} :
    (∃ s, getFeed host provider now staleAfterHours ⟨db, []⟩ = .ok feed s) ↔
      (isTimestamp (toIsoString now) = true ∧ 0 < staleAfterHours ∧
        isSafeInteger staleAfterHours = true) ∧
      ∃ state valuations, db.readState provider = .ok state ∧
        enrichClalReportValuations host (db.feedRows.filterMap (·.asProduct))
          (db.feedRows.filterMap (·.asValuation)) = .ok valuations ∧
        (∀ value ∈ valuations, value.trimmed.accepted host = true) ∧
        feed = { collectedFeed db.feedRows state now staleAfterHours with valuations } := by
  have hsame := fun state => h.collected_trimmed state now staleAfterHours
  have hwith : ∀ state {valuations}, enrichClalReportValuations host
      (db.feedRows.filterMap (·.asProduct)) (db.feedRows.filterMap (·.asValuation)) = .ok valuations →
        { collectedFeed db.feedRows state now staleAfterHours with valuations }.trimmed =
          { collectedFeed db.feedRows state now staleAfterHours with valuations } := by
    intro state valuations hvaluations
    unfold InvestmentFeed.trimmed collectedFeed
    dsimp only
    rw [h.products_parsed.1, h.valuations_trimmed hvaluations, h.activities_parsed.1,
      h.tracks_parsed.1, h.executions_parsed.1]
  rw [SimplefinBridge.getFeed_ok]
  constructor
  · rintro ⟨state, hstate, hfeed⟩
    obtain ⟨parsed, valuations, hfirst, hadded, hlast⟩ := buildFeed_ok.mp hfeed
    obtain ⟨-, hparsed⟩ := parseFeed_ok.mp hfirst
    rw [hsame] at hparsed
    rw [hparsed] at hadded hlast
    obtain ⟨haccepted, hfeed⟩ := parseFeed_ok.mp hlast
    obtain ⟨hconditions, hvaluations⟩ :=
      (h.feed_accepted_iff hstate now staleAfterHours valuations).mp haccepted
    exact ⟨hconditions, state, valuations, hstate, hadded, hvaluations,
      hfeed.trans (hwith state hadded)⟩
  · rintro ⟨hconditions, state, valuations, hstate, hadded, hvaluations, rfl⟩
    have haccepted := h.feed_accepted_iff hstate now staleAfterHours
    refine ⟨state, hstate, buildFeed_ok.mpr ⟨collectedFeed db.feedRows state now staleAfterHours,
      valuations, parseFeed_ok.mpr ⟨?_, (hsame state).symm⟩, hadded,
        parseFeed_ok.mpr ⟨(haccepted valuations).mpr ⟨hconditions, hvaluations⟩,
          (hwith state hadded).symm⟩⟩⟩
    exact (haccepted _).mpr ⟨hconditions, fun value hvalue => h.given_accepted hvalue⟩

/-- **Whether anything is read** depends on the clock, the limit and the reports. -/
theorem KeepsRecords.getFeed_isOk {now : Instant} {staleAfterHours : Nat} :
    (∃ feed s, getFeed host provider now staleAfterHours ⟨db, []⟩ = .ok feed s) ↔
      (isTimestamp (toIsoString now) = true ∧ 0 < staleAfterHours ∧
        isSafeInteger staleAfterHours = true) ∧
          BalancesReadable host (db.feedRows.filterMap (·.asProduct))
            (db.feedRows.filterMap (·.asValuation)) := by
  rw [← h.balances_iff]
  constructor
  · rintro ⟨feed, hfeed⟩
    obtain ⟨hconditions, state, valuations, -, hadded, hvaluations, -⟩ := h.getFeed_ok.mp hfeed
    exact ⟨hconditions, valuations, hadded, hvaluations⟩
  · rintro ⟨hconditions, valuations, hadded, hvaluations⟩
    obtain ⟨state, hstate⟩ := h.readable.1
    exact ⟨_, h.getFeed_ok.mpr ⟨hconditions, state, valuations, hstate, hadded, hvaluations, rfl⟩⟩

end

/-- What a feed shows of a database. -/
structure FeedShows (host : Host) (provider : InvestmentProvider) (db : InvestmentDb)
    (staleAfterHours : Nat) (feed : InvestmentFeed) : Prop where
  /-- The source is as the database has it. -/
  source : ∃ state, db.readState provider = .ok state ∧ feed.source = { state with staleAfterHours }
  products : ∀ product, product ∈ feed.products ↔ .product product ∈ db.records.rows
  activities : ∀ activity, activity ∈ feed.activities ↔ .activity activity ∈ db.records.rows
  tracks : ∀ track, track ∈ feed.tracks ↔ .track track ∈ db.records.rows
  executions : ∀ execution, execution ∈ feed.executions ↔ .execution execution ∈ db.records.rows
  /-- Every stored valuation is shown as it was stored. -/
  stored : ∀ value, .valuation value ∈ db.records.rows → value ∈ feed.valuations
  /-- Whatever else is shown is stated by a report, for a day without a stored valuation. -/
  stated : ∀ value ∈ feed.valuations, .valuation value ∈ db.records.rows ∨
    States host (db.feedRows.filterMap (·.asProduct)) (db.feedRows.filterMap (·.asValuation)) value ∧
      ∀ row, .valuation row ∈ db.records.rows →
        ¬ (row.productId = value.productId ∧ row.asOf = value.asOf)
  /-- No stated balance is lost. -/
  complete : ∀ value,
    States host (db.feedRows.filterMap (·.asProduct)) (db.feedRows.filterMap (·.asValuation)) value →
      ∃ row ∈ feed.valuations, row.productId = value.productId ∧ row.asOf = value.asOf
  nodup : (feed.valuations.map (·.id)).Nodup

section
variable {host : Host} {provider : InvestmentProvider} {db : InvestmentDb}

/-- The rows of one kind in the feed are the stored ones. -/
theorem mem_feedRows_of_kind {α : Type} {select : InvestmentRecord → Option α}
    {wrap : α → InvestmentRecord} (hselect : ∀ row a, select row = some a ↔ row = wrap a) {a : α} :
    a ∈ db.feedRows.filterMap select ↔ wrap a ∈ db.records.rows := by
  rw [List.mem_filterMap]
  constructor
  · rintro ⟨row, hrow, hsome⟩
    rw [← (hselect row a).mp hsome]
    exact mem_feedRows.mp hrow
  · exact fun hrow => ⟨wrap a, mem_feedRows.mpr hrow, (hselect _ _).mpr rfl⟩

/-- The provider gave no value of the product for the day. -/
theorem directlyObserved_eq_false {given : List InvestmentValuation} {value : InvestmentValuation} :
    directlyObserved given value = false ↔
      ∀ row ∈ given, ¬ (row.productId = value.productId ∧ row.asOf = value.asOf) := by
  unfold directlyObserved
  rw [List.any_eq_false]
  simp only [Bool.and_eq_true, decide_eq_true_eq]

/-- **What a feed shows** of the database it was read from. -/
theorem KeepsRecords.feedShows (h : KeepsRecords host provider db) {now : Instant}
    {staleAfterHours : Nat} {feed : InvestmentFeed} {s : Statements.Session InvestmentDb}
    (hfeed : getFeed host provider now staleAfterHours ⟨db, []⟩ = .ok feed s) :
    FeedShows host provider db staleAfterHours feed := by
  obtain ⟨-, state, valuations, hstate, hadded, -, rfl⟩ := h.getFeed_ok.mp ⟨s, hfeed⟩
  obtain ⟨hproducts, hgiven, hids⟩ := h.named
  obtain ⟨hfront, hfrom, heach⟩ := enrichClalReportValuations_kept hproducts hgiven hadded
  constructor
  · exact ⟨state, hstate, rfl⟩
  · exact fun product => mem_feedProducts
  · refine fun activity => mem_feedRows_of_kind fun row a => ?_
    cases row <;> simp [InvestmentRecord.asActivity]
  · refine fun track => mem_feedRows_of_kind fun row a => ?_
    cases row <;> simp [InvestmentRecord.asTrack]
  · refine fun execution => mem_feedRows_of_kind fun row a => ?_
    cases row <;> simp [InvestmentRecord.asExecution]
  · exact fun value hrow => hfront.subset (mem_feedValuations.mpr hrow)
  · intro value hvalue
    refine (hfrom value hvalue).imp mem_feedValuations.mp fun ⟨hstated, hnew⟩ => ⟨hstated, ?_⟩
    exact fun row hrow => directlyObserved_eq_false.mp hnew row (mem_feedValuations.mpr hrow)
  · intro value hstated
    cases hobserved : directlyObserved (db.feedRows.filterMap (·.asValuation)) value with
    | true =>
        obtain ⟨row, hrow, hsame⟩ := List.any_eq_true.mp hobserved
        rw [Bool.and_eq_true, decide_eq_true_eq, decide_eq_true_eq] at hsame
        exact ⟨row, hfront.subset hrow, hsame⟩
    | false =>
        obtain ⟨row, hrow, hrowStated, hid, -⟩ := heach value hstated hobserved
        exact ⟨row, hrow, hstated.same_id hproducts hrowStated hid.symm⟩
  · exact enrichClalReportValuations_nodup hids hadded

end

/-! ## After any run -/

section
variable (host : Host) (provider : InvestmentProvider) (calls : List InvestmentCall)

/-- The database that a run of calls leaves. -/
def reachedDb : InvestmentDb := Runs.run (callStep host provider) emptyInvestmentDb calls

/-- The products that a run of calls leaves. -/
def reachedProducts : List InvestmentProduct :=
  (reachedDb host provider calls).feedRows.filterMap (·.asProduct)

/-- The valuations that it leaves. -/
def reachedValuations : List InvestmentValuation :=
  (reachedDb host provider calls).feedRows.filterMap (·.asValuation)

/-- What a run of calls leaves keeps its records in order. -/
theorem keepsRecords_reached : KeepsRecords host provider (reachedDb host provider calls) :=
  keepsRecords_run calls

/-- **When the feed can be read**: after every run of calls, whichever of their
statements failed, the feed is read exactly when the clock and the stale limit
are printable and the stored reports can be read and agree. -/
theorem getFeed_readable (now : Instant) (staleAfterHours : Nat) :
    (∃ feed s, getFeed host provider now staleAfterHours ⟨reachedDb host provider calls, []⟩ =
        .ok feed s) ↔
      (isTimestamp (toIsoString now) = true ∧ 0 < staleAfterHours ∧
        isSafeInteger staleAfterHours = true) ∧
          BalancesReadable host (reachedProducts host provider calls)
            (reachedValuations host provider calls) :=
  (keepsRecords_reached host provider calls).getFeed_isOk

/-- **What the feed says** after every run: the stored records and the balances
that stored reports state, each once. -/
theorem getFeed_contents {now : Instant} {staleAfterHours : Nat} {feed : InvestmentFeed}
    {s : Statements.Session InvestmentDb}
    (h : getFeed host provider now staleAfterHours ⟨reachedDb host provider calls, []⟩ =
      .ok feed s) :
    FeedShows host provider (reachedDb host provider calls) staleAfterHours feed :=
  (keepsRecords_reached host provider calls).feedShows h

end

/-- Where no kind has two rows, none are to be sorted. -/
theorem feedRows_of_single {db : InvestmentDb}
    (h : ∀ kind, (db.records.rows.filter fun row => row.kind = kind).length ≤ 1) :
    db.feedRows = recordKinds.flatMap fun kind =>
      db.records.rows.filter fun row => row.kind = kind := by
  refine List.flatMap_congr fun kind _ => ?_
  have hlength := h kind
  unfold InvestmentDb.rowsOfKind
  rcases hrows : db.records.rows.filter fun row => row.kind = kind with _ | ⟨row, _ | ⟨row', rest⟩⟩
  · rw [hrows, List.mergeSort_nil]
  · rw [hrows, List.mergeSort_singleton]
  · rw [hrows] at hlength
    exact absurd hlength (by simp)

/-- A fund, with the balance that its annual report states. -/
def balanceFund : InvestmentProduct where
  id := "clal:F-1"
  provider := .clal
  providerProductId := "F-1"
  kind := .keren_hishtalmut
  name := "Example Fund"
  currency := "ILS"
  currentValuationId := some "clal:F-1:valuation:2026-08-31"
  liquidity := ⟨.unknown, none, none⟩
  coverage := ⟨.partially, .unavailable, .unavailable, none⟩
  forecast := none
  reportSummaries := some [⟨"2025", "Annual report", some "2025-01-01", some "2025-12-31",
    [⟨"הפקדות", "90.00"⟩, ⟨"יתרת הכספים ליום 31/12/2025", "1250.50"⟩]⟩]

/-- What the fund is worth today. -/
def balanceToday : InvestmentValuation where
  id := "clal:F-1:valuation:2026-08-31"
  productId := "clal:F-1"
  asOf := some "2026-08-31"
  observedAt := "2026-09-01T06:00:00.000Z"
  amount := "1400.00"
  currency := "ILS"
  provenance := none

/-- What it was worth at the end of the reported year. -/
def balanceReported : InvestmentValuation :=
  { balanceToday with
    id := "clal:F-1:valuation:2025-12-31", asOf := some "2025-12-31", amount := "1250.50" }

/-- A failure after the fund was collected. -/
def balanceCalls : List InvestmentCall :=
  [⟨.applySnapshot ⟨"2026-09-01T06:00:00.000Z", true, true, [balanceFund], [balanceToday], [], [],
      []⟩, []⟩,
    ⟨.recordFailure ⟨.error, "2026-09-02T06:00:00.000Z", .TIMEOUT⟩, []⟩]

/-- The feed of the fund: what it is worth today, and behind it the reported
balance. -/
theorem getFeed_contents_balance :
    ∃ feed s, getFeed asciiHost .clal 0 48 ⟨reachedDb asciiHost .clal balanceCalls, []⟩ =
        .ok feed s ∧
      FeedShows asciiHost .clal (reachedDb asciiHost .clal balanceCalls) 48 feed ∧
        feed.valuations = [balanceToday, balanceReported] := by
  have hstored : (reachedDb asciiHost .clal balanceCalls).records.rows =
      [.product balanceFund, .valuation balanceToday] := by
    decide +kernel
  have hrows : (reachedDb asciiHost .clal balanceCalls).feedRows =
      [.product balanceFund, .valuation balanceToday] := by
    rw [feedRows_of_single, hstored]
    · rfl
    · intro kind
      rw [hstored]
      cases kind <;> decide
  have hadded : enrichClalReportValuations asciiHost [balanceFund] [balanceToday] =
      .ok [balanceToday, balanceReported] := by
    decide +kernel
  have hkeeps := keepsRecords_reached asciiHost .clal balanceCalls
  have hreadable : BalancesReadable asciiHost (reachedProducts asciiHost .clal balanceCalls)
      (reachedValuations asciiHost .clal balanceCalls) := by
    refine hkeeps.balances_iff.mp ⟨[balanceToday, balanceReported], ?_, by decide +kernel⟩
    rw [hrows]
    exact hadded
  have hread : ∃ feed s, getFeed asciiHost .clal 0 48
      ⟨reachedDb asciiHost .clal balanceCalls, []⟩ = .ok feed s :=
    hkeeps.getFeed_isOk.mpr ⟨by decide +kernel, hreadable⟩
  obtain ⟨feed, s, h⟩ := hread
  refine ⟨feed, s, h, getFeed_contents asciiHost .clal balanceCalls h, ?_⟩
  obtain ⟨-, state, valuations, -, hvaluations, -, rfl⟩ := hkeeps.getFeed_ok.mp ⟨s, h⟩
  rw [hrows] at hvaluations
  exact Except.ok.inj (hvaluations.symm.trans hadded)

end SimplefinBridge
