import SimplefinBridge.FeedReadability

/-!
# Reports that the store retains

An import checks the records of one snapshot, and a reader adds the balances of
all reports that earlier snapshots have left with a product.  Reports of
overlapping periods have ids of their own, so a later one that corrects a
balance leaves the older one in place, and from then on no feed is read
(`overlapping_reports_break_feed`).  A run of imports can be read throughout
exactly when each snapshot, with the reports retained beside it, states balances
that can be read and agree (`feed_readable_iff`).
-/

namespace SimplefinBridge

open Statements
open Transactional (bind_ok pure_ok except_bind_ok)

/-! ## Records that read alike -/

/-- Products with the same reports, whatever their order. -/
structure SameReports (product product' : InvestmentProduct) : Prop where
  id : product'.id = product.id
  provider : product'.provider = product.provider
  currency : product'.currency = product.currency
  current : product'.currentValuationId = product.currentValuationId
  reports : ∀ report, report ∈ product'.reportSummaries.getD [] ↔
    report ∈ product.reportSummaries.getD []

/-- A product has its own reports. -/
theorem SameReports.refl (product : InvestmentProduct) : SameReports product product :=
  ⟨rfl, rfl, rfl, rfl, fun _ => Iff.rfl⟩

/-- Either product has the reports of the other. -/
theorem SameReports.symm {product product' : InvestmentProduct} (h : SameReports product product') :
    SameReports product' product :=
  ⟨h.id.symm, h.provider.symm, h.currency.symm, h.current.symm, fun report => (h.reports report).symm⟩

/-- Where ids are unique, the current value is the one that the product names. -/
theorem currentOfProduct_eq_some_iff {given : List InvestmentValuation}
    (hids : (given.map (·.id)).Nodup) {product : InvestmentProduct} {current : InvestmentValuation} :
    currentOfProduct given product = some current ↔
      current ∈ given ∧ product.currentValuationId = some current.id ∧
        current.productId = product.id := by
  unfold currentOfProduct
  constructor
  · intro h
    have hchosen := List.find?_some h
    exact ⟨List.mem_of_find?_eq_some h, of_decide_eq_true hchosen⟩
  · rintro ⟨hmem, hnames, hproduct⟩
    have hsome : (given.find? fun value => product.currentValuationId = some value.id ∧
        value.productId = product.id).isSome = true :=
      List.find?_isSome.mpr ⟨current, hmem, decide_eq_true ⟨hnames, hproduct⟩⟩
    obtain ⟨found, hfound⟩ := Option.isSome_iff_exists.mp hsome
    have hchosen := List.find?_some hfound
    have hsame : found.id = current.id :=
      Option.some.inj ((of_decide_eq_true hchosen).1.symm.trans hnames)
    rw [hfound, List.inj_on_of_nodup_map hids (List.mem_of_find?_eq_some hfound) hmem hsame]

/-- Every product reads like one of the others, over the same valuations. -/
structure ReadsAlike (products products' : List InvestmentProduct)
    (given given' : List InvestmentValuation) : Prop where
  alike : ∀ product ∈ products, ∃ product' ∈ products', SameReports product product'
  values : ∀ value, value ∈ given ↔ value ∈ given'
  ids : (given.map (·.id)).Nodup
  ids' : (given'.map (·.id)).Nodup

section
variable {host : Host} {products products' : List InvestmentProduct}
  {given given' : List InvestmentValuation} {product : InvestmentProduct}
  {current value : InvestmentValuation} {report : InvestmentReportSummary} {line : ReportLine}
  (h : ReadsAlike products products' given given')
include h

/-- A line that is read here is read there. -/
theorem ReadsAlike.readsLine (hreads : ReadsLine products given product current report line) :
    ∃ product', SameReports product product' ∧
      ReadsLine products' given' product' current report line := by
  obtain ⟨product', hmem, hsame⟩ := h.alike product hreads.stored
  obtain ⟨hcurrent, hnames, hproduct⟩ := (currentOfProduct_eq_some_iff h.ids).mp hreads.valued
  refine ⟨product', hsame, hmem, hsame.provider.trans hreads.isClal, ?_,
    (hsame.reports report).mpr hreads.kept, hreads.usable, hreads.printed, hreads.named⟩
  exact (currentOfProduct_eq_some_iff h.ids').mpr
    ⟨(h.values current).mp hcurrent, hsame.current.trans hnames, hproduct.trans hsame.id.symm⟩

/-- So is a stated balance. -/
theorem ReadsAlike.states (hstates : States host products given value) :
    States host products' given' value := by
  obtain ⟨product, current, report, line, date, id, hreads, hdate, hid, rfl⟩ := hstates
  obtain ⟨product', hsame, hreads'⟩ := h.readsLine hreads
  refine ⟨product', current, report, line, date, id, hreads', hdate, ?_, ?_⟩
  · rwa [hsame.id]
  · unfold statedBalance
    rw [hsame.id, hsame.currency]

/-- The provider has given the same values. -/
theorem ReadsAlike.directlyObserved : directlyObserved given value = directlyObserved given' value := by
  unfold SimplefinBridge.directlyObserved
  rw [Bool.eq_iff_iff, List.any_eq_true, List.any_eq_true]
  exact exists_congr fun row => and_congr_left fun _ => h.values row

/-- What can be read there can be read here. -/
theorem ReadsAlike.readable (hreadable : BalancesReadable host products' given') :
    BalancesReadable host products given := by
  constructor
  · intro product current report line hreads
    obtain ⟨product', -, hreads'⟩ := h.readsLine hreads
    exact hreadable.calendar product' current report line hreads'
  · intro product current report line date hreads hdate
    obtain ⟨product', hsame, hreads'⟩ := h.readsLine hreads
    rw [← hsame.id]
    exact hreadable.identified product' current report line date hreads' hdate
  · intro value hstates hnew
    exact hreadable.valued value (h.states hstates) (h.directlyObserved ▸ hnew)
  · intro value value' hstates hstates' hnew
    exact hreadable.agreed value value' (h.states hstates) (h.states hstates')
      (h.directlyObserved ▸ hnew)

end

/-- Only reports of Clal state balances. -/
theorem balancesReadable_of_other {host : Host} {products : List InvestmentProduct}
    {given : List InvestmentValuation} (h : ∀ product ∈ products, product.provider ≠ .clal) :
    BalancesReadable host products given := by
  have hnone : ∀ {product current report line}, ¬ReadsLine products given product current report line :=
    fun hreads => h _ hreads.stored hreads.isClal
  constructor
  · exact fun _ _ _ _ hreads => absurd hreads hnone
  · exact fun _ _ _ _ _ hreads => absurd hreads hnone
  · rintro value ⟨_, _, _, _, _, _, hreads, -⟩
    exact absurd hreads hnone
  · rintro value value' ⟨_, _, _, _, _, _, hreads, -⟩
    exact absurd hreads hnone

/-! ## What an import leaves to be read -/

/-- The reports of a product after an import: the imported ones, and those
retained under other ids. -/
def heldReports (old new : List InvestmentReportSummary) : List InvestmentReportSummary :=
  new ++ old.filter fun report => !new.any fun other => other.id = report.id

section
variable (db : InvestmentDb) (snapshot : InvestmentSnapshot)

/-- The products after an import: the imported ones with the reports retained
for them, and the stored ones that the snapshot does not mention. -/
def InvestmentDb.heldProducts : List InvestmentProduct :=
  (snapshot.products.map fun product =>
    { product with
      reportSummaries := some (heldReports
        (((db.product? product.id).bind (·.reportSummaries)).getD [])
        (product.reportSummaries.getD [])) }) ++
    (db.records.rows.filterMap (·.asProduct)).filter fun product =>
      !snapshot.products.any fun other => other.id = product.id

/-- The valuations after an import. -/
def InvestmentDb.heldValuations : List InvestmentValuation :=
  snapshot.valuations ++ (db.records.rows.filterMap (·.asValuation)).filter fun value =>
    !snapshot.valuations.any fun other => other.id = value.id

end

/-- A merged table holds the reports of an import. -/
theorem mem_mergeReports {old new : List InvestmentReportSummary}
    (hold : (old.map (·.id)).Nodup) (hnew : (new.map (·.id)).Nodup)
    {report : InvestmentReportSummary} :
    report ∈ (mergeReports old new).rows ↔ report ∈ heldReports old new := by
  have hstored : (old.foldl KeyedTable.put
      (KeyedTable.empty : KeyedTable _ InvestmentReportSummary.id)).rows = old :=
    KeyedTable.rows_foldl_put hold
  unfold mergeReports heldReports
  rw [List.foldl_append, List.mem_append, List.mem_filter, Bool.not_eq_true', List.any_eq_false]
  constructor
  · intro hmem
    by_cases hown : report ∈ new
    · exact .inl hown
    · have hkept := (KeyedTable.mem_of_mem_foldl_put hmem).resolve_right hown
      rw [hstored] at hkept
      refine .inr ⟨hkept, fun other hother hsame => hown ?_⟩
      rw [← KeyedTable.eq_of_key_eq (KeyedTable.mem_foldl_put hnew hother) hmem
        (of_decide_eq_true hsame)]
      exact hother
  · rintro (hown | ⟨hkept, hother⟩)
    · exact KeyedTable.mem_foldl_put hnew hown
    · refine KeyedTable.mem_foldl_put_of_other (by rwa [hstored]) fun hmem => ?_
      obtain ⟨other, hnewer, hsame⟩ := List.mem_map.mp hmem
      exact hother other hnewer (decide_eq_true hsame)

section
variable {host : Host} {provider : InvestmentProvider} {db : InvestmentDb}
  {snapshot : InvestmentSnapshot} {state : InvestmentSourceState}

/-- The reports of a parsed product have ids of their own. -/
theorem InvestmentRecord.Parsed.reportIds {product : InvestmentProduct}
    (h : (InvestmentRecord.product product).Parsed host) :
    ((product.reportSummaries.getD []).map (·.id)).Nodup := by
  cases hreports : product.reportSummaries with
  | none => exact List.nodup_nil
  | some reports => exact ((InvestmentProduct.accepted_iff.mp h.accepted).2.2 reports hreports).2

/-- Accumulated reports are the held ones. -/
theorem sameReports_accumulate {old new : InvestmentProduct}
    (hold : (InvestmentRecord.product old).Parsed host)
    (hnew : (InvestmentRecord.product new).Parsed host) :
    SameReports { new with
      reportSummaries := some (heldReports (old.reportSummaries.getD [])
        (new.reportSummaries.getD [])) } (accumulateReports host old new) := by
  unfold accumulateReports
  by_cases hsome : old.reportSummaries.isSome ∨ new.reportSummaries.isSome
  · rw [if_pos hsome]
    refine ⟨rfl, rfl, rfl, rfl, fun report => ?_⟩
    rw [Option.getD_some, Option.getD_some, ← mem_mergeReports hold.reportIds hnew.reportIds]
    exact (List.mergeSort_perm _ _).mem_iff
  · rw [if_neg hsome]
    rw [not_or, Option.not_isSome_iff_eq_none, Option.not_isSome_iff_eq_none] at hsome
    refine ⟨rfl, rfl, rfl, rfl, fun report => ?_⟩
    rw [hsome.1, hsome.2]
    rfl

/-- The stored product with an id is the row found under it. -/
theorem product?_eq_some_iff {id : String} {product : InvestmentProduct} :
    db.product? id = some product ↔ db.records.find (.products, id) = some (.product product) := by
  unfold InvestmentDb.product?
  cases hfound : db.records.find (.products, id) with
  | none => exact iff_of_false (by nofun) (by nofun)
  | some row =>
      cases row with
      | product stored =>
          dsimp only
          rw [Option.some_inj, Option.some_inj, InvestmentRecord.product.injEq]
      | _ => exact iff_of_false (by nofun) (by nofun)

/-- A product that is stored over another reads as a held one. -/
theorem sameReports_rowOver (hprovider : provider ≠ .hapoalim)
    (hstored : ∀ row ∈ db.records.rows, row.Parsed host) {new : InvestmentProduct}
    (hnew : (InvestmentRecord.product new).Parsed host) :
    ∃ merged, rowOver host provider (db.records.find (InvestmentRecord.product new).key)
        (.product new) = .product merged ∧
      SameReports { new with
        reportSummaries := some (heldReports
          (((db.product? new.id).bind (·.reportSummaries)).getD [])
          (new.reportSummaries.getD [])) } merged := by
  change ∃ merged, rowOver host provider (db.records.find (.products, new.id)) _ = _ ∧ _
  have halone : ∀ found, (∀ old, found ≠ some (InvestmentRecord.product old)) →
      rowOver host provider found (.product new) = .product new := by
    intro found hother
    cases found with
    | none => rfl
    | some row =>
        cases row with
        | product old => exact absurd rfl (hother old)
        | _ => rfl
  cases hfound : db.product? new.id with
  | none =>
      refine ⟨new, halone _ fun old hold => ?_, rfl, rfl, rfl, rfl, fun report => ?_⟩
      · rw [product?_eq_some_iff.mpr hold] at hfound
        cases hfound
      · rw [Option.bind_none, Option.getD_none, Option.getD_some]
        unfold heldReports
        rw [List.filter_nil, List.append_nil]
  | some old =>
      have hrow := product?_eq_some_iff.mp hfound
      have hkept : keepCurrentValue provider old new = new := if_neg hprovider
      rw [hrow]
      refine ⟨accumulateReports host old new, ?_, ?_⟩
      · change InvestmentRecord.product
          (accumulateReports host old (keepCurrentValue provider old new)) = _
        rw [hkept]
      · exact sameReports_accumulate (hstored _ (KeyedTable.mem_of_find hrow)) hnew

/-- The products that are read after a snapshot. -/
theorem mem_products_afterSnapshot (hkeys : (snapshot.records.map InvestmentRecord.key).Nodup)
    {product : InvestmentProduct} :
    .product product ∈ (db.afterSnapshot host provider snapshot state).records.rows ↔
      (∃ new ∈ snapshot.products, .product product = rowOver host provider
        (db.records.find (InvestmentRecord.product new).key) (.product new)) ∨
      (.product product ∈ db.records.rows ∧
        ∀ new ∈ snapshot.products, new.id ≠ product.id) := by
  rw [mem_afterSnapshot hkeys]
  refine or_congr ⟨?_, ?_⟩ (and_congr_right fun _ => ?_)
  · rintro ⟨row, hrow, hsame⟩
    cases row with
    | product new => exact ⟨new, mem_records_of_product hrow, hsame⟩
    | _ =>
        rw [rowOver_of_kind _ (by nofun)] at hsame
        cases hsame
  · rintro ⟨new, hnew, hsame⟩
    exact ⟨_, mem_records_product hnew, hsame⟩
  · constructor
    · intro hfree new hnew hid
      exact hfree (List.mem_map.mpr ⟨_, mem_records_product hnew,
        congrArg (Prod.mk RecordKind.products) hid⟩)
    · intro hother hkey
      obtain ⟨row, hrow, hsame⟩ := List.mem_map.mp hkey
      cases row with
      | product new => exact hother new (mem_records_of_product hrow) (Prod.mk.inj hsame).2
      | _ => cases (Prod.mk.inj hsame).1

/-- The valuations that are read after it are the held ones. -/
theorem mem_valuations_afterSnapshot (hkeys : (snapshot.records.map InvestmentRecord.key).Nodup)
    {value : InvestmentValuation} :
    .valuation value ∈ (db.afterSnapshot host provider snapshot state).records.rows ↔
      value ∈ db.heldValuations snapshot := by
  unfold InvestmentDb.heldValuations
  rw [mem_afterSnapshot hkeys, List.mem_append, List.mem_filter, Bool.not_eq_true',
    List.any_eq_false, List.mem_filterMap]
  refine or_congr ⟨?_, ?_⟩ (and_congr ⟨?_, ?_⟩ ?_)
  · rintro ⟨row, hrow, hsame⟩
    cases row with
    | product new =>
        obtain ⟨merged, hmerged, -⟩ := @rowOver_product host provider
          (db.records.find (InvestmentRecord.product new).key) new
        rw [hmerged] at hsame
        cases hsame
    | _ =>
        rw [rowOver_of_kind _ (by nofun)] at hsame
        cases hsame
        try exact mem_records_of_valuation hrow
  · intro hnew
    exact ⟨_, mem_records_valuation hnew, (rowOver_of_kind _ (by nofun)).symm⟩
  · exact fun hrow => ⟨_, hrow, rfl⟩
  · rintro ⟨row, hrow, hvalue⟩
    cases row <;> cases hvalue
    exact hrow
  · constructor
    · intro hfree other hother hid
      exact hfree (List.mem_map.mpr ⟨_, mem_records_valuation hother,
        congrArg (Prod.mk RecordKind.valuations) (of_decide_eq_true hid)⟩)
    · intro hother hkey
      obtain ⟨row, hrow, hsame⟩ := List.mem_map.mp hkey
      cases row with
      | valuation other =>
          exact hother other (mem_records_of_valuation hrow)
            (decide_eq_true (Prod.mk.inj hsame).2)
      | _ => cases (Prod.mk.inj hsame).1

/-- The held valuations have ids of their own. -/
theorem nodup_heldValuations (hkeys : (snapshot.records.map InvestmentRecord.key).Nodup) :
    ((db.heldValuations snapshot).map (·.id)).Nodup := by
  have hown : (snapshot.valuations.map (·.id)).Nodup := by
    have hall := nodup_valuationIds hkeys
    have hvalues : snapshot.records.filterMap (·.asValuation) = snapshot.valuations := by
      simp [InvestmentSnapshot.records, List.filterMap_append, List.filterMap_map,
        InvestmentRecord.asValuation]
    rwa [hvalues] at hall
  unfold InvestmentDb.heldValuations
  rw [List.map_append, List.nodup_append]
  refine ⟨hown, (nodup_valuationIds db.records.nodup).sublist
    (List.filter_sublist.map InvestmentValuation.id), ?_⟩
  intro id hid other hother hsame
  obtain ⟨new, hnew, rfl⟩ := List.mem_map.mp hid
  obtain ⟨old, hold, rfl⟩ := List.mem_map.mp hother
  have hfree := (List.mem_filter.mp hold).2
  rw [Bool.not_eq_true', List.any_eq_false] at hfree
  exact hfree new hnew (decide_eq_true hsame)

/-- **An import leaves the held records to be read**, -/
theorem KeepsRecords.readsAlike_held (h : KeepsRecords host provider db)
    (hprovider : provider ≠ .hapoalim) {input : InvestmentSnapshot}
    (hparse : parseSnapshot host input = .ok snapshot)
    (hkeys : (snapshot.records.map InvestmentRecord.key).Nodup) :
    ReadsAlike ((db.afterSnapshot host provider snapshot state).feedRows.filterMap (·.asProduct))
      (db.heldProducts snapshot)
      ((db.afterSnapshot host provider snapshot state).feedRows.filterMap (·.asValuation))
      (db.heldValuations snapshot) := by
  constructor
  · intro product hproduct
    rcases (mem_products_afterSnapshot hkeys).mp (mem_feedProducts.mp hproduct) with
      ⟨new, hnew, hsame⟩ | ⟨hold, hother⟩
    · obtain ⟨merged, hmerged, hreports⟩ := sameReports_rowOver hprovider h.parsed
        (parsed_of_snapshot hparse (mem_records_product hnew))
      rw [hmerged] at hsame
      obtain rfl := InvestmentRecord.product.inj hsame
      exact ⟨_, List.mem_append_left _ (List.mem_map_of_mem hnew), hreports.symm⟩
    · refine ⟨product, List.mem_append_right _ (List.mem_filter.mpr ⟨?_, ?_⟩), .refl product⟩
      · exact List.mem_filterMap.mpr ⟨_, hold, rfl⟩
      · rw [Bool.not_eq_true', List.any_eq_false]
        exact fun new hnew hid => hother new hnew (of_decide_eq_true hid)
  · exact fun value => mem_feedValuations.trans (mem_valuations_afterSnapshot hkeys)
  · exact nodup_valuationIds nodup_feedRows
  · exact nodup_heldValuations hkeys

/-- and nothing else. -/
theorem KeepsRecords.held_readsAlike (h : KeepsRecords host provider db)
    (hprovider : provider ≠ .hapoalim) {input : InvestmentSnapshot}
    (hparse : parseSnapshot host input = .ok snapshot)
    (hkeys : (snapshot.records.map InvestmentRecord.key).Nodup) :
    ReadsAlike (db.heldProducts snapshot)
      ((db.afterSnapshot host provider snapshot state).feedRows.filterMap (·.asProduct))
      (db.heldValuations snapshot)
      ((db.afterSnapshot host provider snapshot state).feedRows.filterMap (·.asValuation)) := by
  constructor
  · intro product hproduct
    rcases List.mem_append.mp hproduct with hown | hold
    · obtain ⟨new, hnew, rfl⟩ := List.mem_map.mp hown
      obtain ⟨merged, hmerged, hreports⟩ := sameReports_rowOver hprovider h.parsed
        (parsed_of_snapshot hparse (mem_records_product hnew))
      refine ⟨merged, mem_feedProducts.mpr ?_, hreports⟩
      exact (mem_products_afterSnapshot hkeys).mpr (.inl ⟨new, hnew, hmerged.symm⟩)
    · obtain ⟨hrow, hother⟩ := List.mem_filter.mp hold
      rw [Bool.not_eq_true', List.any_eq_false] at hother
      obtain ⟨row, hstored, hsome⟩ := List.mem_filterMap.mp hrow
      refine ⟨product, mem_feedProducts.mpr ?_, .refl product⟩
      refine (mem_products_afterSnapshot hkeys).mpr (.inr ⟨?_, fun new hnew hid =>
        hother new hnew (decide_eq_true hid)⟩)
      cases row <;> cases hsome
      exact hstored
  · exact fun value => ((mem_valuations_afterSnapshot hkeys).symm.trans mem_feedValuations.symm)
  · exact nodup_heldValuations hkeys
  · exact nodup_valuationIds nodup_feedRows

/-- The held records are named as a snapshot's are. -/
theorem KeepsRecords.held_named (h : KeepsRecords host provider db)
    (hrelations : RelationsHold provider snapshot) :
    (∀ product ∈ db.heldProducts snapshot,
      product.provider = provider ∧ IsProductId provider product.id) ∧
    ∀ value ∈ db.heldValuations snapshot, IsProductId provider value.productId ∧
      (provider ≠ .hapoalim → investmentValuationId value.productId value.asOf = .ok value.id) := by
  constructor
  · intro product hproduct
    rcases List.mem_append.mp hproduct with hown | hold
    · obtain ⟨new, hnew, rfl⟩ := List.mem_map.mp hown
      have hnamed : IsProductId provider new.id := hrelations.isProductId hnew
      exact ⟨(hrelations.product new hnew).1, hnamed⟩
    · obtain ⟨row, hstored, hsome⟩ := List.mem_filterMap.mp (List.mem_filter.mp hold).1
      cases row <;> cases hsome
      exact h.product product hstored
  · intro value hvalue
    rcases List.mem_append.mp hvalue with hnew | hold
    · exact ⟨hrelations.valuation_isProductId hnew,
        fun hother => hrelations.valuationId hother hnew⟩
    · obtain ⟨row, hstored, hsome⟩ := List.mem_filterMap.mp (List.mem_filter.mp hold).1
      cases row <;> cases hsome
      exact h.valuation value hstored

end

/-! ## Runs of imports -/

section
variable (host : Host) (provider : InvestmentProvider)

/-- The stored reports state balances that can be read and agree. -/
def StoredReadable (db : InvestmentDb) : Prop :=
  BalancesReadable host (db.feedRows.filterMap (·.asProduct))
    (db.feedRows.filterMap (·.asValuation))

/-- A complete snapshot, with the reports retained beside it, states balances
that can be read and agree. -/
def InvestmentCall.keepsBalances (db : InvestmentDb) (call : InvestmentCall) : Prop :=
  match call.op with
  | .applySnapshot input =>
      isIncomplete provider input.trimmed = false →
        BalancesReadable host (db.heldProducts input.trimmed) (db.heldValuations input.trimmed)
  | _ => True

/-- The feed can be read. -/
def FeedReadable (now : Instant) (staleAfterHours : Nat) (db : InvestmentDb) : Prop :=
  ∃ feed s, getFeed host provider now staleAfterHours ⟨db, []⟩ = .ok feed s

variable {host provider} {db db' : InvestmentDb}

/-- Only records are read for balances. -/
theorem storedReadable_congr (hrecords : db'.records = db.records) :
    StoredReadable host db' ↔ StoredReadable host db := by
  have hrows : db'.feedRows = db.feedRows := by
    unfold InvestmentDb.feedRows InvestmentDb.rowsOfKind
    rw [hrecords]
  unfold StoredReadable
  rw [hrows]

/-- A store of another provider holds no reports. -/
theorem KeepsRecords.storedReadable_of_other (h : KeepsRecords host provider db)
    (hprovider : provider ≠ .clal) : StoredReadable host db := by
  refine balancesReadable_of_other fun product hproduct => ?_
  rw [(h.product product (mem_feedProducts.mp hproduct)).1]
  exact hprovider

/-- **An imported snapshot** leaves balances to be read exactly when the held ones can be. -/
theorem storedReadable_applySnapshot {input : InvestmentSnapshot}
    {summary : InvestmentImportSummary} {faults : List Bool} (hbefore : KeepsRecords host provider db)
    (hreadable : StoredReadable host db)
    (h : imported host provider input db = .ok (summary, db')) :
    StoredReadable host db' ↔
      InvestmentCall.keepsBalances host provider db ⟨.applySnapshot input, faults⟩ := by
  have hafter := hbefore.imported h
  obtain ⟨snapshot, hparsed, hcases⟩ := imported_ok.mp h
  obtain ⟨rfl, -⟩ := parseSnapshot_ok hparsed
  rcases hcases with ⟨hincomplete, -, hfailed⟩ | ⟨hcomplete, hvalid, hobserved⟩
  · refine iff_of_true ?_ fun hcomplete => ?_
    · exact (storedReadable_congr (failed_sameHistory provider hfailed).records).mpr hreadable
    · rw [hincomplete] at hcomplete
      cases hcomplete
  · have hrelations := relations_of_ok hvalid
    have hheld : InvestmentCall.keepsBalances host provider db ⟨.applySnapshot input, faults⟩ ↔
        BalancesReadable host (db.heldProducts input.trimmed) (db.heldValuations input.trimmed) :=
      ⟨fun hkeeps => hkeeps hcomplete, fun hkeeps _ => hkeeps⟩
    rw [hheld]
    by_cases hclal : provider = .clal
    · have hother : provider ≠ .hapoalim := by
        rw [hclal]
        decide
      obtain ⟨state, stale, -, hstale, hdb⟩ := observed_ok.mp hobserved
      have hfresh : stale = false := by
        unfold readStaleness at hstale
        rw [if_neg hother] at hstale
        exact (Except.ok.inj hstale).symm
      rcases hdb with ⟨hold, -, -⟩ | ⟨-, -, -, -, rfl⟩
      · rw [hfresh] at hold
        cases hold
      · exact ⟨(hbefore.held_readsAlike hother hparsed hrelations.keys).readable,
          (hbefore.readsAlike_held hother hparsed hrelations.keys).readable⟩
    · refine iff_of_true (hafter.storedReadable_of_other hclal) ?_
      refine balancesReadable_of_other fun product hproduct => ?_
      rw [((hbefore.held_named hrelations).1 product hproduct).1]
      exact hclal

/-- Only Hapoalim has archives. -/
theorem provider_of_checkArchive {input snapshot : InvestmentSnapshot} {evidence : SeedEvidence}
    {stored : StoredEvidence}
    (h : checkArchive host provider input evidence = .ok (snapshot, stored)) :
    provider = .hapoalim := by
  unfold checkArchive at h
  obtain ⟨parsed, -, h⟩ := except_bind_ok.mp h
  obtain ⟨_, hshape, -⟩ := except_bind_ok.mp h
  exact (require_ok.mp hshape).1

variable (host provider)

/-- One call that returns: balances can be read after it exactly when it keeps them. -/
theorem storedReadable_callStep {call : InvestmentCall} (hbefore : KeepsRecords host provider db)
    (hreadable : StoredReadable host db) (hreturns : call.returns host provider db = true) :
    StoredReadable host (callStep host provider db call) ↔
      call.keepsBalances host provider db := by
  obtain ⟨answer, s, hresult, hstep⟩ := callStep_of_returns host provider hreturns
  rw [hstep]
  by_cases himports : call.op.imports = true
  · obtain ⟨op, faults⟩ := call
    cases op with
    | applySnapshot input =>
        obtain ⟨summary, -, hrun⟩ := perform_applySnapshot_ok host provider hresult
        exact storedReadable_applySnapshot hbefore hreadable
          ((computes_applySnapshot host provider input).returns _ _ _ hrun)
    | seedArchive input evidence =>
        obtain ⟨summary, mid, hrun, hlast⟩ := bind_ok.mp hresult
        obtain ⟨-, rfl⟩ := pure_ok.mp hlast
        have hseeded := (computes_seedArchive host provider input evidence).returns _ _ _ hrun
        obtain ⟨snapshot, stored, hchecked, -⟩ := seeded_ok.mp hseeded
        refine iff_of_true ((hbefore.seeded hseeded).storedReadable_of_other ?_) trivial
        rw [provider_of_checkArchive hchecked]
        decide
    | _ => cases himports
  · have hsame := leavesHistory_perform host provider (Bool.eq_false_iff.mpr himports)
      ⟨db, call.faults⟩
    rw [hresult] at hsame
    refine iff_of_true ((storedReadable_congr hsame.records).mpr hreadable) ?_
    obtain ⟨op, faults⟩ := call
    cases op with
    | applySnapshot input => exact absurd rfl himports
    | _ => trivial

/-- No balances are stated in a new database. -/
theorem storedReadable_empty : StoredReadable host emptyInvestmentDb :=
  balancesReadable_of_other fun _ hproduct => absurd (mem_feedProducts.mp hproduct) List.not_mem_nil

/-- **When imports leave the feed readable.**  Where no call throws, the feed can
be read in every state of the run exactly when the clock and the stale limit are
printable and every imported snapshot, with the reports retained beside it,
states balances that can be read and agree. -/
theorem feed_readable_iff {calls : List InvestmentCall}
    (hreturns : Runs.Along (callStep host provider)
      (fun db call _ => call.returns host provider db = true) emptyInvestmentDb calls)
    (now : Instant) (staleAfterHours : Nat) :
    (FeedReadable host provider now staleAfterHours emptyInvestmentDb ∧
      Runs.Along (callStep host provider)
        (fun _ _ db' => FeedReadable host provider now staleAfterHours db') emptyInvestmentDb
        calls) ↔
    (isTimestamp (toIsoString now) = true ∧ 0 < staleAfterHours ∧
        isSafeInteger staleAfterHours = true) ∧
      Runs.Along (callStep host provider) (fun db call _ => call.keepsBalances host provider db)
        emptyInvestmentDb calls := by
  have hread : ∀ {db}, KeepsRecords host provider db →
      (FeedReadable host provider now staleAfterHours db ↔
        (isTimestamp (toIsoString now) = true ∧ 0 < staleAfterHours ∧
          isSafeInteger staleAfterHours = true) ∧ StoredReadable host db) :=
    fun hkeeps => hkeeps.getFeed_isOk
  by_cases hprinted : isTimestamp (toIsoString now) = true ∧ 0 < staleAfterHours ∧
      isSafeInteger staleAfterHours = true
  swap
  · refine iff_of_false (fun h => hprinted ?_) fun h => hprinted h.1
    exact ((hread keepsRecords_empty).mp h.1).1
  have hreadable : ∀ {db}, KeepsRecords host provider db →
      (FeedReadable host provider now staleAfterHours db ↔ StoredReadable host db) :=
    fun hkeeps => (hread hkeeps).trans (and_iff_right hprinted)
  have hexact := @Runs.along_iff_of_step _ _ (callStep host provider)
    (fun db call _ => call.returns host provider db = true ∧ call.keepsBalances host provider db)
    (fun db call db' => call.returns host provider db = true ∧
      FeedReadable host provider now staleAfterHours db')
    (fun db => KeepsRecords host provider db ∧ StoredReadable host db) emptyInvestmentDb
    ⟨keepsRecords_empty, storedReadable_empty host⟩
    (fun db call hbefore => and_congr_right fun hcall =>
      (hreadable (hbefore.1.callStep call)).trans
        (storedReadable_callStep host provider hbefore.1 hbefore.2 hcall))
    (fun db call hbefore hcall => ⟨hbefore.1.callStep call,
      (storedReadable_callStep host provider hbefore.1 hbefore.2 hcall.1).mpr hcall.2⟩)
    calls
  rw [Runs.along_and, Runs.along_and, and_iff_right hreturns, and_iff_right hreturns] at hexact
  rw [and_iff_right hprinted, ← hexact]
  exact and_iff_right ((hreadable keepsRecords_empty).mpr (storedReadable_empty host))

end

/-- A fund collected at the end of a month, with its report of the year until then. -/
def fundCollected (observedAt toDate opening : String) : InvestmentSnapshot where
  observedAt
  complete := true
  inventoryComplete := true
  products := [{ balanceFund with
    currentValuationId := some ("clal:F-1:valuation:" ++ toDate)
    reportSummaries := some [⟨"DeposMonthlyBalance:2026-01-01:" ++ toDate, "תנועות ויתרות",
      some "2026-01-01", some toDate, [⟨"יתרת הכספים ל-01/01/2026 (פתיחה)", opening⟩]⟩] }]
  valuations := [{ balanceToday with
    id := "clal:F-1:valuation:" ++ toDate
    asOf := some toDate
    observedAt }]
  activities := []
  tracks := []
  executions := []

/-- The fund at the end of July, -/
def julyCollected : InvestmentCall :=
  ⟨.applySnapshot (fundCollected "2026-08-01T06:00:00.000Z" "2026-07-31" "1000.00"), []⟩

/-- and at the end of August, with the given balance on the first of January. -/
def augustCollected (opening : String) : InvestmentCall :=
  ⟨.applySnapshot (fundCollected "2026-09-01T06:00:00.000Z" "2026-08-31" opening), []⟩

/-- The database between the two. -/
def julyDb : InvestmentDb := callStep asciiHost .clal emptyInvestmentDb julyCollected

section
variable {host : Host} {provider : InvestmentProvider} {db : InvestmentDb}
  {input : InvestmentSnapshot} {faults : List Bool}

/-- A snapshot that can be imported is imported where no statement fails. -/
theorem returns_of_imported (h : (imported host provider input db).toOption.isSome = true) :
    InvestmentCall.returns host provider db ⟨.applySnapshot input, []⟩ = true := by
  cases himported : imported host provider input db with
  | error e =>
      rw [himported] at h
      cases h
  | ok answer =>
      obtain ⟨summary, db'⟩ := answer
      have hrun := (computes_applySnapshot host provider input).accepted db summary db' himported
      have hresult : (InvestmentOp.applySnapshot input).perform host provider ⟨db, []⟩ =
          .ok (some summary) ⟨db', []⟩ := bind_ok.mpr ⟨summary, ⟨db', []⟩, hrun, rfl⟩
      unfold InvestmentCall.returns InvestmentCall.result
      rw [hresult]

/-- What is imported, and complete, has the relations of a snapshot. -/
theorem relations_of_imported (h : (imported host provider input db).toOption.isSome = true)
    (hcomplete : isIncomplete provider input.trimmed = false) :
    RelationsHold provider input.trimmed := by
  cases himported : imported host provider input db with
  | error e =>
      rw [himported] at h
      cases h
  | ok answer =>
      obtain ⟨snapshot, hparsed, hcases⟩ := imported_ok.mp himported
      obtain ⟨rfl, -⟩ := parseSnapshot_ok hparsed
      rcases hcases with ⟨hincomplete, -⟩ | ⟨-, hvalid, -⟩
      · rw [hcomplete] at hincomplete
        cases hincomplete
      · exact relations_of_ok hvalid

/-- The balances of an import are kept when they can be added, -/
theorem keepsBalances_of_added (hbefore : KeepsRecords host provider db)
    (h : (imported host provider input db).toOption.isSome = true)
    (hadded : (enrichClalReportValuations host (db.heldProducts input.trimmed)
      (db.heldValuations input.trimmed)).toOption.any
        (fun out => out.all fun row => isValuationMoney row.amount) = true) :
    InvestmentCall.keepsBalances host provider db ⟨.applySnapshot input, faults⟩ := by
  intro hcomplete
  have hrelations := relations_of_imported h hcomplete
  obtain ⟨hproducts, hgiven⟩ := hbefore.held_named hrelations
  cases hout : enrichClalReportValuations host (db.heldProducts input.trimmed)
      (db.heldValuations input.trimmed) with
  | error e =>
      rw [hout] at hadded
      cases hadded
  | ok out =>
      rw [hout] at hadded
      exact balancesReadable_of_added hproducts hgiven (nodup_heldValuations hrelations.keys) hout
        fun row hrow _ => List.all_eq_true.mp hadded row hrow

/-- and only then. -/
theorem added_of_keepsBalances (hbefore : KeepsRecords host provider db)
    (h : (imported host provider input db).toOption.isSome = true)
    (hcomplete : isIncomplete provider input.trimmed = false)
    (hkeeps : InvestmentCall.keepsBalances host provider db ⟨.applySnapshot input, faults⟩) :
    (enrichClalReportValuations host (db.heldProducts input.trimmed)
      (db.heldValuations input.trimmed)).toOption.isSome = true := by
  have hrelations := relations_of_imported h hcomplete
  obtain ⟨hproducts, hgiven⟩ := hbefore.held_named hrelations
  obtain ⟨out, hout⟩ := added_of_balancesReadable hproducts hgiven
    (nodup_heldValuations hrelations.keys) (hkeeps hcomplete)
  rw [hout]
  rfl

end

/-- July can be imported. -/
theorem julyCollected_imported : (imported asciiHost .clal
    (fundCollected "2026-08-01T06:00:00.000Z" "2026-07-31" "1000.00")
    emptyInvestmentDb).toOption.isSome = true := by
  decide +kernel

/-- Its balances are kept. -/
theorem julyCollected_keeps :
    julyCollected.keepsBalances asciiHost .clal emptyInvestmentDb :=
  keepsBalances_of_added keepsRecords_empty julyCollected_imported (by decide +kernel)

/-- Neither month's call throws. -/
theorem overlapping_returns {opening : String} (h : (imported asciiHost .clal
      (fundCollected "2026-09-01T06:00:00.000Z" "2026-08-31" opening) julyDb).toOption.isSome =
        true) :
    Runs.Along (callStep asciiHost .clal)
      (fun db call _ => call.returns asciiHost .clal db = true) emptyInvestmentDb
      [julyCollected, augustCollected opening] :=
  ⟨returns_of_imported julyCollected_imported, returns_of_imported h, trivial⟩

/-- In August the year began with another balance: the report until July stays
beside the corrected one, and no feed is read any more. -/
theorem overlapping_reports_break_feed :
    Runs.Along (callStep asciiHost .clal)
        (fun db call _ => call.returns asciiHost .clal db = true) emptyInvestmentDb
        [julyCollected, augustCollected "1001.00"] ∧
      ∀ now staleAfterHours, ¬FeedReadable asciiHost .clal now staleAfterHours
        (Runs.run (callStep asciiHost .clal) emptyInvestmentDb
          [julyCollected, augustCollected "1001.00"]) := by
  have himported : (imported asciiHost .clal
      (fundCollected "2026-09-01T06:00:00.000Z" "2026-08-31" "1001.00") julyDb).toOption.isSome =
        true := by
    decide +kernel
  refine ⟨overlapping_returns himported, fun now staleAfterHours hread => ?_⟩
  have hjuly : KeepsRecords asciiHost .clal julyDb := keepsRecords_empty.callStep julyCollected
  have hreadable : StoredReadable asciiHost julyDb :=
    (storedReadable_callStep asciiHost .clal keepsRecords_empty (storedReadable_empty asciiHost)
      (returns_of_imported julyCollected_imported)).mpr julyCollected_keeps
  have hkeeps := (storedReadable_callStep asciiHost .clal hjuly hreadable
    (returns_of_imported himported)).mp ((hjuly.callStep _).getFeed_isOk.mp hread).2
  have hadded := added_of_keepsBalances hjuly himported (by decide +kernel) hkeeps
  exact absurd hadded (by decide +kernel)

/-- Where August confirms the balance of January, both months can be read. -/
theorem feed_readable_iff_overlapping :
    FeedReadable asciiHost .clal 0 48 emptyInvestmentDb ∧
      Runs.Along (callStep asciiHost .clal)
        (fun _ _ db' => FeedReadable asciiHost .clal 0 48 db') emptyInvestmentDb
        [julyCollected, augustCollected "1000.00"] := by
  have himported : (imported asciiHost .clal
      (fundCollected "2026-09-01T06:00:00.000Z" "2026-08-31" "1000.00") julyDb).toOption.isSome =
        true := by
    decide +kernel
  have hjuly : KeepsRecords asciiHost .clal julyDb := keepsRecords_empty.callStep julyCollected
  refine (feed_readable_iff asciiHost .clal (overlapping_returns himported) 0 48).mpr
    ⟨by decide +kernel, julyCollected_keeps, ?_, trivial⟩
  exact keepsBalances_of_added hjuly himported (by decide +kernel)

end SimplefinBridge
