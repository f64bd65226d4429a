import SimplefinBridge.ClalAcceptance
import SimplefinBridge.CollectedPortfolios
import SimplefinBridge.FeedReadability

/-!
# Collected snapshots and the store

Clal's portfolio is read first, its deposits are added to it, and then the
reports of its details, whose dated balances become valuations.  What comes of
this has the names and the currencies that the store asks for, and so have the
snapshots of the other providers: after every run of calls the store takes
them, unless it has seen a later one (`applySnapshot_collected`).
-/

namespace SimplefinBridge

open Statements
open Transactional (except_bind_ok except_foldlM_keeps)

/-! ## Reports of a detail -/

/-- No amount is given, or a dash stands for it. -/
def isBlankTotal : JsValue → Bool
  | .undefined | .null => true
  | .string text => ["", "-", "—"].contains (jsTrim text)
  | _ => false

/-- `value == null` -/
def isNullish : JsValue → Bool
  | .undefined | .null => true
  | _ => false

/-- A line of a report. -/
def reportLine (row : JsFields) : Except ParseError ReportLine := do
  let label ← sourceText (JsValue.get row "Title")
  let amount ← parseClalMoney (JsValue.get row "Total")
  return ⟨label, amount⟩

/-- `lines(value)` -/
def reportLines (value : JsValue) : Except ParseError (List ReportLine) := do
  let items ← sourceArray value
  let rows ← items.mapM sourceRecord
  (rows.filter fun row => !isBlankTotal (JsValue.get row "Total")).mapM reportLine

/-- The fields that hold the reports of a family. -/
def reportKeys : ClalFamily → List String
  | .pension => ["PeriodBalance", "PeriodBalanceLastYear"]
  | .hishtalmut => ["DeposMonthlyBalance"]

section
variable (host : Host)

/-- The date of the first line that opens the period. -/
def openingDate (lines : List ReportLine) : Except ParseError (Option IsoDate) :=
  match lines.find? fun line => isOpening line.label with
  | some line => parseClalDate host (labelDate line.label)
  | none => parseClalDate host .undefined

/-- The period of a report and its lines. -/
def reportBlock (family : ClalFamily) (block : JsFields) :
    Except ParseError (List ReportLine × Option IsoDate × Option IsoDate) :=
  match family with
  | .pension => do
      let lines ← reportLines (JsValue.get block "PeriodBalanceRows")
      let fromDate ← openingDate host lines
      let toDate ← parseClalDate host (JsValue.get block "Date")
      return (lines, fromDate, toDate)
  | .hishtalmut => do
      let lines ← reportLines (JsValue.get block "DeposMonthlyList")
      let fromDate ← parseClalDate host (JsValue.get block "StartYear")
      let toDate ← parseClalDate host (JsValue.get block "EndYear")
      return (lines, fromDate, toDate)

/-- The report in a field. -/
def readReport (family : ClalFamily) (data : JsFields) (key : String) :
    Except ParseError InvestmentReportSummary := do
  let block ← sourceRecord (JsValue.get data key)
  let (lines, fromDate, toDate) ← reportBlock host family block
  return {
    id := key ++ ":" ++ fromDate.getD "unknown" ++ ":" ++ toDate.getD "unknown"
    title := "תנועות ויתרות", fromDate, toDate, lines }

/-- The reports that a detail holds. -/
def readReports (family : ClalFamily) (data : JsFields) :
    Except ParseError (List InvestmentReportSummary) :=
  ((reportKeys family).filter fun key => !isNullish (JsValue.get data key)).mapM
    (readReport host family data)

/-- The first product of an id gets the reports, in place of older ones. -/
def setReports (id : String) (reports : List InvestmentReportSummary) :
    List InvestmentProduct → List InvestmentProduct
  | [] => []
  | product :: products =>
      if product.id = id then { product with reportSummaries := some reports } :: products
      else product :: setReports id reports products

/-- One round of the loop over the responses of a family. -/
def addReportResponse (family : ClalFamily) (products : List InvestmentProduct)
    (response : ClalApiResponse) : Except ParseError (List InvestmentProduct) :=
  if response.status ≠ some 200 then .error .INVALID_RESPONSE
  else do
    let data ← requireClalSuccess response.data
    let id ← detailIdentity family data
    if id ∉ products.map (·.id) then .error .INVALID_RESPONSE
    else
      let reports ← readReports host family data
      return setReports id reports products

/-- All report totals are kept as context; only dated balances extend the history. -/
def enrichClalReports (snapshot : InvestmentSnapshot) (input : ClalHistoryInput) :
    Except ParseError InvestmentSnapshot := do
  let pensions ← input.pensionDetails.foldlM (addReportResponse host .pension) snapshot.products
  let products ← input.gemelDetails.foldlM (addReportResponse host .hishtalmut) pensions
  let valuations ← enrichClalReportValuations host products snapshot.valuations
  orThrow (parseSnapshot host { snapshot with products, valuations })

/-- The snapshot of a reading of the portal. -/
def readClalSnapshot (input : ClalPortfolioInput) : Except ParseError InvestmentSnapshot := do
  let histories : ClalHistoryInput := ⟨input.pensionDetails, input.gemelDetails⟩
  let portfolio ← parseClalPortfolioSnapshot host input
  let active ← enrichClalActivities host portfolio histories
  enrichClalReports host active histories

end

/-! ## What the enrichments leave alone -/

section
variable {host : Host} {provider : InvestmentProvider} {snapshot result : InvestmentSnapshot}
  {products : List InvestmentProduct}

/-- Every product keeps its place, its identity and its current value. -/
abbrev SameProducts (products products' : List InvestmentProduct) : Prop :=
  List.Forall₂ SameValue products products'

/-- The products themselves. -/
theorem SameProducts.refl (products : List InvestmentProduct) : SameProducts products products :=
  List.forall₂_same.mpr fun product _ => .refl product

/-- The same as the same. -/
theorem SameProducts.trans {products products' products'' : List InvestmentProduct}
    (h : SameProducts products products') (h' : SameProducts products' products'') :
    SameProducts products products'' := by
  induction h generalizing products'' with
  | nil => exact h'
  | cons hhead _ ih =>
      cases h' with
      | cons hhead' htail' => exact .cons (hhead.trans hhead') (ih htail')

/-- They have the same ids, -/
theorem SameProducts.ids {products products' : List InvestmentProduct}
    (h : SameProducts products products') : products'.map (·.id) = products.map (·.id) := by
  induction h with
  | nil => rfl
  | cons hhead _ ih => exact congrArg₂ List.cons hhead.id ih

/-- each comes from one of them, -/
theorem SameProducts.old {products products' : List InvestmentProduct}
    (h : SameProducts products products') {product : InvestmentProduct} (hmem : product ∈ products') :
    ∃ old ∈ products, SameValue old product := by
  induction h with
  | nil => cases hmem
  | cons hhead _ ih =>
      rcases List.mem_cons.mp hmem with rfl | htail
      · exact ⟨_, List.mem_cons_self, hhead⟩
      · obtain ⟨old, hold, hsame⟩ := ih htail
        exact ⟨old, List.mem_cons_of_mem _ hold, hsame⟩

/-- and each becomes one. -/
theorem SameProducts.new {products products' : List InvestmentProduct}
    (h : SameProducts products products') {old : InvestmentProduct} (hmem : old ∈ products) :
    ∃ product ∈ products', SameValue old product := by
  induction h with
  | nil => cases hmem
  | cons hhead _ ih =>
      rcases List.mem_cons.mp hmem with rfl | htail
      · exact ⟨_, List.mem_cons_self, hhead⟩
      · obtain ⟨product, hproduct, hsame⟩ := ih htail
        exact ⟨product, List.mem_cons_of_mem _ hproduct, hsame⟩

/-- Changing no value changes no product. -/
theorem sameProducts_map {f : InvestmentProduct → InvestmentProduct}
    (h : ∀ product, SameValue product (f product)) : SameProducts products (products.map f) := by
  induction products with
  | nil => exact .nil
  | cons product products ih => exact .cons (h product) ih

/-- The snapshot with other metadata of its products is still a collector's. -/
theorem Collected.sameProducts (h : Collected provider snapshot)
    (hsame : SameProducts snapshot.products products) :
    Collected provider { snapshot with products } := by
  have hnamed : ∀ {productId currency : String},
      (∃ product ∈ snapshot.products, product.id = productId ∧ product.currency = currency) →
        ∃ product ∈ products, product.id = productId ∧ product.currency = currency := by
    rintro productId currency ⟨old, hold, rfl, rfl⟩
    obtain ⟨product, hproduct, hvalue⟩ := hsame.new hold
    exact ⟨product, hproduct, hvalue.id, hvalue.currency⟩
  constructor
  · intro product hproduct
    obtain ⟨old, hold, hvalue⟩ := hsame.old hproduct
    obtain ⟨hprovider, hid⟩ := h.product old hold
    rw [hvalue.provider, hvalue.source, hvalue.id]
    exact ⟨hprovider, hid⟩
  · intro product hproduct
    obtain ⟨old, hold, hvalue⟩ := hsame.old hproduct
    rw [hvalue.coverage, hvalue.id]
    exact h.coverage old hold
  · intro product hproduct current hcurrent
    obtain ⟨old, hold, hvalue⟩ := hsame.old hproduct
    rw [hvalue.current] at hcurrent
    rw [hvalue.id]
    exact h.current old hold current hcurrent
  · intro value hvalue
    obtain ⟨hprovenance, htrim, hid, hproduct⟩ := h.value value hvalue
    exact ⟨hprovenance, htrim, hid, hnamed hproduct⟩
  · intro activity hactivity
    obtain ⟨hid, hproduct⟩ := h.activity activity hactivity
    exact ⟨hid, hnamed hproduct⟩
  · intro track htrack
    obtain ⟨hid, hproduct⟩ := h.track track htrack
    exact ⟨hid, hnamed hproduct⟩
  · intro execution hexecution
    obtain ⟨hprovider, hid, old, hold, hown⟩ := h.execution execution hexecution
    obtain ⟨product, hproduct, hvalue⟩ := hsame.new hold
    exact ⟨hprovider, hid, product, hproduct, hvalue.id.trans hown⟩

/-- The same products do not coincide either. -/
theorem Distinct.sameProducts (h : Distinct snapshot)
    (hsame : SameProducts snapshot.products products) : Distinct { snapshot with products } := by
  refine ⟨?_, h.valuations, h.activities, h.tracks, h.executions⟩
  rw [hsame.ids]
  exact h.products

/-- Activities of its products may be added to a snapshot. -/
theorem Collected.withActivities (h : Collected provider snapshot)
    {activities : List InvestmentActivity}
    (hactivities : ∀ activity ∈ activities,
      investmentActivityId activity.productId activity.sourceId = .ok activity.id ∧
        ∃ product ∈ snapshot.products, product.id = activity.productId ∧
          product.currency = activity.currency) :
    Collected provider { snapshot with activities } :=
  ⟨h.product, h.coverage, h.current, h.value, hactivities, h.track, h.execution⟩

/-- Valuations of its products can follow those of a snapshot. -/
theorem Collected.withValuations (h : Collected provider snapshot)
    {valuations : List InvestmentValuation}
    (hkept : ∀ value ∈ snapshot.valuations, value ∈ valuations)
    (hvaluations : ∀ value ∈ valuations, value ∈ snapshot.valuations ∨
      ∃ product ∈ snapshot.products, ValueOf product value) :
    Collected provider { snapshot with valuations } := by
  refine ⟨h.product, ?_, ?_, ?_, h.activity, h.track, h.execution⟩
  · exact fun product hproduct => (h.coverage product hproduct).imp id
      fun ⟨value, hvalue, hown⟩ => ⟨value, hkept value hvalue, hown⟩
  · intro product hproduct current hcurrent
    obtain ⟨value, hvalue, hown⟩ := h.current product hproduct current hcurrent
    exact ⟨value, hkept value hvalue, hown⟩
  · intro value hvalue
    rcases hvaluations value hvalue with hold | ⟨product, hproduct, hown⟩
    · exact h.value value hold
    · rw [hown.product]
      exact ⟨hown.provenance, hown.trimmed, hown.id, product, hproduct, rfl, hown.currency.symm⟩

/-- The same products are in the same currency. -/
theorem shekels_of_same (hsame : SameProducts snapshot.products products)
    (h : ∀ product ∈ snapshot.products, product.currency = "ILS") :
    ∀ product ∈ products, product.currency = "ILS" := by
  intro product hproduct
  obtain ⟨old, hold, hvalue⟩ := hsame.old hproduct
  exact hvalue.currency.trans (h old hold)

/-! ## Deposits -/

/-- Covering changes no value. -/
theorem coverActivities_same (covered : List String) (product : InvestmentProduct) :
    SameValue product (coverActivities covered product) := by
  unfold coverActivities
  by_cases hcovered : product.id ∈ covered
  · rw [if_pos hcovered]
    exact ⟨⟨rfl, rfl, rfl, rfl⟩, rfl, rfl⟩
  · rw [if_neg hcovered]
    exact .refl product

/-- The activity of a group is of a product of the snapshot. -/
theorem settledActivity_own {input : ClalHistoryInput} {readings : List HistoryReading}
    {groups : SourceGroups} {observedAt : String} (hread : readInput host input = .ok readings)
    (hknown : ∀ reading ∈ readings, reading.productId ∈ snapshot.products.map (·.id))
    (hadded : addCells host observedAt .empty (cellsOf readings) = .ok groups)
    {group : Tally String InvestmentActivity Int} (hgroup : group ∈ groups.rows) :
    investmentActivityId (settledActivity group).productId (settledActivity group).sourceId =
        .ok (settledActivity group).id ∧
      (settledActivity group).productId ∈ snapshot.products.map (·.id) ∧
        (settledActivity group).currency = "ILS" := by
  obtain ⟨-, cell, hcell, -, hmake⟩ := (Tallies.addAll_isTally hadded).group group hgroup
  obtain ⟨reading, hreading, deposit, hdeposit, component, -, rfl⟩ := (mem_cellsOf hread).mp hcell
  obtain ⟨date, id, -, -, hvalue⟩ := groupActivity_eq.mp hmake
  obtain ⟨hproduct, -, -, -, hid⟩ := groupActivity_ok hmake
  refine ⟨hid, ?_, ?_⟩
  · change group.value.productId ∈ _
    rw [hproduct, ((readInput_each hread reading hreading).2 deposit hdeposit).product]
    exact hknown reading hreading
  · change group.value.currency = _
    rw [hvalue]

/-- **Deposits** are added as a collector makes them. -/
theorem enrichClalActivities_made {input : ClalHistoryInput} (h : ClalMade host snapshot)
    (henriched : enrichClalActivities host snapshot input = .ok result) : ClalMade host result := by
  obtain ⟨readings, groups, hread, hacceptable, hadded, hparse⟩ :=
    enrichClalActivities_ok_iff.mp henriched
  have hactivities : ∀ activity ∈ (enrichedSnapshot host snapshot groups
      (readings.map (·.productId))).activities,
        investmentActivityId activity.productId activity.sourceId = .ok activity.id ∧
          ∃ product ∈ snapshot.products, product.id = activity.productId ∧
            product.currency = activity.currency := by
    intro activity hactivity
    have hmem := (List.mergeSort_perm _ _).mem_iff.mp hactivity
    rcases KeyedTable.mem_of_mem_foldl_put hmem with hnone | hmem
    · cases hnone
    rcases List.mem_append.mp hmem with hold | hnew
    · exact h.collected.activity activity hold
    · obtain ⟨group, hgroup, rfl⟩ := List.mem_map.mp hnew
      obtain ⟨hid, hknown, hcurrency⟩ :=
        settledActivity_own hread hacceptable.known hadded hgroup
      obtain ⟨product, hproduct, hown⟩ := List.mem_map.mp hknown
      exact ⟨hid, product, hproduct, hown, (h.shekels product hproduct).trans hcurrency.symm⟩
  have hsame : SameProducts snapshot.products
      (snapshot.products.map (coverActivities (readings.map (·.productId)))) :=
    sameProducts_map (coverActivities_same _)
  have hsorted : ((enrichedSnapshot host snapshot groups
      (readings.map (·.productId))).activities.map (·.id)).Nodup :=
    ((List.mergeSort_perm _ _).map _).nodup_iff.mpr (KeyedTable.nodup _)
  have hids := h.distinct
  exact ClalMade.of_parsed ((h.collected.withActivities hactivities).sameProducts hsame)
    (Distinct.sameProducts ⟨hids.products, hids.valuations, hsorted, hids.tracks, hids.executions⟩
      hsame) (shekels_of_same hsame h.shekels) hparse

/-! ## Reports -/

/-- Neither do reports, -/
theorem setReports_same (id : String) (reports : List InvestmentReportSummary)
    (products : List InvestmentProduct) : SameProducts products (setReports id reports products) := by
  induction products with
  | nil => exact .nil
  | cons product products ih =>
      unfold setReports
      by_cases hid : product.id = id
      · rw [if_pos hid]
        exact .cons ⟨⟨rfl, rfl, rfl, rfl⟩, rfl, rfl⟩ (SameProducts.refl products)
      · rw [if_neg hid]
        exact .cons (.refl product) ih

/-- one response of them -/
theorem addReportResponse_same {family : ClalFamily} {products' : List InvestmentProduct}
    {response : ClalApiResponse}
    (h : addReportResponse host family products response = .ok products') :
    SameProducts products products' := by
  unfold addReportResponse at h
  by_cases hstatus : response.status ≠ some 200
  · rw [if_pos hstatus] at h
    cases h
  rw [if_neg hstatus] at h
  obtain ⟨data, -, h⟩ := except_bind_ok.mp h
  obtain ⟨id, -, h⟩ := except_bind_ok.mp h
  by_cases hunknown : id ∉ products.map (·.id)
  · rw [if_pos hunknown] at h
    cases h
  rw [if_neg hunknown] at h
  obtain ⟨reports, -, h⟩ := except_bind_ok.mp h
  rw [← Except.ok.inj h]
  exact setReports_same id reports products

/-- or several. -/
theorem addReportResponses_same {family : ClalFamily} {products' : List InvestmentProduct}
    {responses : List ClalApiResponse}
    (h : responses.foldlM (addReportResponse host family) products = .ok products') :
    SameProducts products products' :=
  @except_foldlM_keeps _ _ _ _ (SameProducts products) _
    (fun _ _ _ hsame hstep => hsame.trans (addReportResponse_same hstep)) _ _
    (SameProducts.refl products) h

/-- A stated balance is a valuation of its product. -/
theorem States.valueOf {given : List InvestmentValuation} {value : InvestmentValuation}
    (hproducts : ∀ product ∈ products, product.provider = provider ∧
      IsProductId provider product.id)
    (h : States host products given value) : ∃ product ∈ products, ValueOf product value := by
  obtain ⟨product, current, report, line, date, id, hreads, hstates, hid, rfl⟩ := h
  refine ⟨product, hreads.stored, rfl, rfl, rfl, ?_, hid⟩
  refine valuationId_trimmed (hproducts product hreads.stored).2.isIdText ?_ hid
  intro other hother
  rw [← Option.some.inj hother]
  exact jsTrim_of_no_space (date_of_label hstates.1).2.1

/-- **Reports** add valuations as a collector makes them. -/
theorem enrichClalReports_made {input : ClalHistoryInput} (h : ClalMade host snapshot)
    (henriched : enrichClalReports host snapshot input = .ok result) : ClalMade host result := by
  obtain ⟨pensions, hpensions, henriched⟩ := except_bind_ok.mp henriched
  obtain ⟨products, hfunds, henriched⟩ := except_bind_ok.mp henriched
  obtain ⟨valuations, hvaluations, henriched⟩ := except_bind_ok.mp henriched
  have hsame := (addReportResponses_same hpensions).trans (addReportResponses_same hfunds)
  have hcollected := h.collected.sameProducts hsame
  have hproducts : ∀ product ∈ products, product.provider = .clal ∧
      IsProductId .clal product.id := fun product hproduct =>
    ⟨(hcollected.product product hproduct).1, hcollected.isProductId hproduct⟩
  have hgiven : ∀ value ∈ snapshot.valuations, IsProductId .clal value.productId ∧
      (InvestmentProvider.clal ≠ .hapoalim →
        investmentValuationId value.productId value.asOf = .ok value.id) := by
    intro value hvalue
    obtain ⟨-, -, hid, product, hproduct, hown, -⟩ := h.collected.value value hvalue
    exact ⟨hown ▸ h.collected.isProductId hproduct, fun _ => hid⟩
  obtain ⟨hfront, hfrom, -⟩ := enrichClalReportValuations_kept hproducts hgiven hvaluations
  have hids := h.distinct.sameProducts hsame
  refine ClalMade.of_parsed (hcollected.withValuations (fun value hvalue => hfront.subset hvalue)
    fun value hvalue => (hfrom value hvalue).imp id fun hstated =>
      hstated.1.valueOf hproducts) ?_ (shekels_of_same hsame h.shekels) (orThrow_ok henriched)
  exact ⟨hids.products, enrichClalReportValuations_nodup hids.valuations hvaluations,
    hids.activities, hids.tracks, hids.executions⟩

/-- **What is read of the portal is well made.** -/
theorem readClalSnapshot_made {input : ClalPortfolioInput}
    (h : readClalSnapshot host input = .ok result) : ClalMade host result := by
  obtain ⟨portfolio, hportfolio, h⟩ := except_bind_ok.mp h
  obtain ⟨active, hactive, h⟩ := except_bind_ok.mp h
  exact enrichClalReports_made
    (enrichClalActivities_made (parseClalPortfolioSnapshot_made hportfolio) hactive) h

end

end SimplefinBridge
