import SimplefinBridge.InvestmentClock
import SimplefinBridge.InvestmentFrames
import SimplefinBridge.Library.Histories

/-!
# Revisions of investment records

Each record has its revisions and its current content; together they are its
history without consecutive repeats, after any run.  Writing a snapshot again
changes nothing, with one exception: a product stored for the first time keeps
its reports in the order they came in, while writing it again sorts them
(`reapply_unchanged_iff`).
-/

namespace SimplefinBridge

open Statements Transactional

/-! ## What one row does -/

section
variable (host : Host) (provider : InvestmentProvider)

/-- The revision a row makes of the record found under its key. -/
def revisionOver (found : Option InvestmentRecord) (row : InvestmentRecord) (observedAt : String) :
    List InvestmentRevision :=
  found.elim [] fun old =>
    if old.financialContent = (mergedRow host provider old row).financialContent then []
    else [⟨row.key, observedAt, old⟩]

/-- The outcome of writing a row over the record found under its key. -/
def outcomeOver (found : Option InvestmentRecord) (row : InvestmentRecord) : UpsertOutcome :=
  found.elim .inserted fun old =>
    if old.financialContent = (mergedRow host provider old row).financialContent then .unchanged
    else .updated

/-- An upsert adds the revision of the content that it replaces. -/
theorem upserted_revisions (row : InvestmentRecord) (observedAt : String) (db : InvestmentDb) :
    (upserted host provider row observedAt db).2.revisions =
      db.revisions ++ revisionOver host provider (db.records.find row.key) row observedAt := by
  unfold upserted
  cases db.records.find row.key with
  | none => exact (List.append_nil _).symm
  | some old =>
      by_cases hsame : old.financialContent = (mergedRow host provider old row).financialContent
      · simp only [upsertedOver, revisionOver, Option.elim_some, if_pos hsame, List.append_nil]
      · simp only [upsertedOver, revisionOver, Option.elim_some, if_neg hsame]

/-- It reports what it did. -/
theorem upserted_outcome (row : InvestmentRecord) (observedAt : String) (db : InvestmentDb) :
    (upserted host provider row observedAt db).1 =
      outcomeOver host provider (db.records.find row.key) row := by
  unfold upserted
  cases db.records.find row.key with
  | none => rfl
  | some old =>
      by_cases hsame : old.financialContent = (mergedRow host provider old row).financialContent
      · simp only [upsertedOver, outcomeOver, Option.elim_some, if_pos hsame]
      · simp only [upsertedOver, outcomeOver, Option.elim_some, if_neg hsame]

end

/-! ## What a snapshot does -/

section
variable {host : Host} {provider : InvestmentProvider}

/-- A row written first is not seen by rows with other keys. -/
theorem find_upserted_other {row other : InvestmentRecord} (h : row.key ≠ other.key)
    (observedAt : String) (db : InvestmentDb) :
    (upserted host provider row observedAt db).2.records.find other.key =
      db.records.find other.key := by
  rw [find_upserted, if_neg h.symm]

/-- The rows of a snapshot add their revisions in order. -/
theorem writtenRecords_revisions {rows : List InvestmentRecord}
    (hkeys : (rows.map InvestmentRecord.key).Nodup) (observedAt : String)
    (start : InvestmentImportSummary × InvestmentDb) :
    (writtenRecords host provider rows observedAt start).2.revisions =
      start.2.revisions ++ rows.flatMap fun row =>
        revisionOver host provider (start.2.records.find row.key) row observedAt := by
  induction rows generalizing start with
  | nil => exact (List.append_nil _).symm
  | cons row rows ih =>
      rw [List.map_cons, List.nodup_cons] at hkeys
      rw [writtenRecords_cons, ih hkeys.2, upserted_revisions, List.flatMap_cons,
        List.append_assoc]
      congr 2
      refine List.flatMap_congr fun other hother => ?_
      have hne : row.key ≠ other.key := fun heq =>
        hkeys.1 (heq ▸ List.mem_map_of_mem hother)
      rw [find_upserted_other hne]

/-- They are counted by what was done to each. -/
theorem writtenRecords_summary {rows : List InvestmentRecord}
    (hkeys : (rows.map InvestmentRecord.key).Nodup) (observedAt : String)
    (start : InvestmentImportSummary × InvestmentDb) :
    (writtenRecords host provider rows observedAt start).1 =
      (rows.map fun row => outcomeOver host provider (start.2.records.find row.key) row).foldl
        InvestmentImportSummary.count start.1 := by
  induction rows generalizing start with
  | nil => rfl
  | cons row rows ih =>
      rw [List.map_cons, List.nodup_cons] at hkeys
      rw [writtenRecords_cons, ih hkeys.2, upserted_outcome, List.map_cons, List.foldl_cons]
      congr 1
      refine List.map_congr_left fun other hother => ?_
      have hne : row.key ≠ other.key := fun heq =>
        hkeys.1 (heq ▸ List.mem_map_of_mem hother)
      rw [find_upserted_other hne]

/-- Counting one outcome after another. -/
theorem foldl_count (outcomes : List UpsertOutcome) (start : InvestmentImportSummary) :
    outcomes.foldl InvestmentImportSummary.count start =
      ⟨start.applied, start.inserted + outcomes.count .inserted,
        start.updated + outcomes.count .updated,
        start.unchanged + outcomes.count .unchanged⟩ := by
  induction outcomes generalizing start with
  | nil => rfl
  | cons outcome outcomes ih =>
      rw [List.foldl_cons, ih]
      cases outcome with
      | _ =>
          simp only [InvestmentImportSummary.count, List.count_cons]
          simp
          try omega

/-- The summary of a snapshot says that all is unchanged when every row is. -/
theorem unchanged_iff (outcomes : List UpsertOutcome) :
    outcomes.foldl InvestmentImportSummary.count ⟨true, 0, 0, 0⟩ =
        ⟨true, 0, 0, outcomes.length⟩ ↔
      ∀ outcome ∈ outcomes, outcome = .unchanged := by
  rw [foldl_count]
  simp only [InvestmentImportSummary.mk.injEq, true_and, Nat.zero_add]
  constructor
  · intro h outcome houtcome
    exact (List.count_eq_length.mp h.2.2 outcome houtcome).symm
  · intro h
    refine ⟨List.count_eq_zero.mpr fun hmem => ?_, List.count_eq_zero.mpr fun hmem => ?_,
      List.count_eq_length.mpr fun outcome houtcome => (h outcome houtcome).symm⟩
    · cases h _ hmem
    · cases h _ hmem

end

/-! ## Merging again -/

section
variable {host : Host} {provider : InvestmentProvider}

variable (host) in
/-- Reports in the order of their ids. -/
def ReportsSorted (reports : List InvestmentReportSummary) : Prop :=
  reports.Pairwise fun a b => (host.localeCompare a.id b.id).isLE = true

/-- Sorted reports are in order. -/
theorem sortReports_sorted (reports : List InvestmentReportSummary) :
    ReportsSorted host (sortReports host reports) :=
  host.sorted_mergeSort InvestmentReportSummary.id reports

/-- Reports in order stay as they are. -/
theorem sortReports_of_sorted {reports : List InvestmentReportSummary}
    (h : ReportsSorted host reports) : sortReports host reports = reports :=
  List.mergeSort_of_pairwise h

/-- Only those do. -/
theorem sortReports_eq_iff {reports : List InvestmentReportSummary} :
    sortReports host reports = reports ↔ ReportsSorted host reports := by
  constructor
  · intro h
    rw [← h]
    exact sortReports_sorted reports
  · exact sortReports_of_sorted

/-- Merging reports that are there already keeps the table. -/
theorem mergeReports_again {reports new : List InvestmentReportSummary}
    (hreports : (reports.map InvestmentReportSummary.id).Nodup)
    (hnew : ∀ report ∈ new, report ∈ reports) : (mergeReports reports new).rows = reports := by
  have hrows : (reports.foldl KeyedTable.put
      (KeyedTable.empty : KeyedTable _ InvestmentReportSummary.id)).rows = reports :=
    KeyedTable.rows_foldl_put hreports
  unfold mergeReports
  rw [List.foldl_append, KeyedTable.foldl_put_of_mem]
  · exact hrows
  · rw [hrows]
    exact hnew

/-- A product adds nothing to its own reports. -/
theorem accumulateReports_self {product : InvestmentProduct}
    (hunique : ∀ reports ∈ product.reportSummaries, (reports.map InvestmentReportSummary.id).Nodup) :
    accumulateReports host product product = product ↔
      ∀ reports ∈ product.reportSummaries, ReportsSorted host reports := by
  unfold accumulateReports
  cases hreports : product.reportSummaries with
  | none =>
      rw [if_neg (by simp)]
      simp
  | some reports =>
      have hmerged := mergeReports_again (hunique reports hreports) fun _ h => h
      rw [if_pos (by simp), Option.getD_some, hmerged]
      constructor
      · intro h others hothers
        cases hothers
        have hsorted := congrArg InvestmentProduct.reportSummaries h
        dsimp only at hsorted
        rw [hreports] at hsorted
        exact sortReports_eq_iff.mp (Option.some.inj hsorted)
      · intro h
        rw [sortReports_of_sorted (h reports rfl)]
        cases product
        cases hreports
        rfl

/-- Accumulated reports accumulate to themselves. -/
theorem accumulateReports_again {old new : InvestmentProduct}
    (hunique : ∀ reports ∈ new.reportSummaries, (reports.map InvestmentReportSummary.id).Nodup) :
    accumulateReports host (accumulateReports host old new) new = accumulateReports host old new := by
  by_cases hsome : old.reportSummaries.isSome ∨ new.reportSummaries.isSome
  · have hfirst : accumulateReports host old new = { new with
        reportSummaries := some (sortReports host
          (mergeReports (old.reportSummaries.getD []) (new.reportSummaries.getD [])).rows) } :=
      if_pos hsome
    have hperm := List.mergeSort_perm
      (mergeReports (old.reportSummaries.getD []) (new.reportSummaries.getD [])).rows
      (fun a b => (host.localeCompare a.id b.id).isLE)
    have hmerged : (mergeReports (sortReports host
        (mergeReports (old.reportSummaries.getD []) (new.reportSummaries.getD [])).rows)
        (new.reportSummaries.getD [])).rows = sortReports host
        (mergeReports (old.reportSummaries.getD []) (new.reportSummaries.getD [])).rows := by
      apply mergeReports_again
      · exact ((hperm.map _).nodup_iff).mpr (mergeReports _ _).nodup
      · intro report hreport
        refine hperm.mem_iff.mpr ?_
        unfold mergeReports
        rw [List.foldl_append]
        refine KeyedTable.mem_foldl_put ?_ hreport
        cases hreports : new.reportSummaries with
        | none => simp
        | some reports => exact hunique reports hreports
    rw [hfirst]
    unfold accumulateReports
    rw [if_pos (.inl rfl)]
    dsimp only
    rw [Option.getD_some, hmerged, sortReports_of_sorted (sortReports_sorted _)]
  · have hfirst : accumulateReports host old new = new := if_neg hsome
    rw [not_or] at hsome
    rw [hfirst]
    exact if_neg (not_or.mpr ⟨hsome.2, hsome.2⟩)

/-- It keeps its own value. -/
theorem keepCurrentValue_self (product : InvestmentProduct) :
    keepCurrentValue provider product product = product := by
  unfold keepCurrentValue
  by_cases hhapoalim : provider = .hapoalim
  · rw [if_pos hhapoalim, Option.or_self]
    split_ifs <;> rfl
  · rw [if_neg hhapoalim]

/-- What is kept from a stored product is kept from the merged one. -/
theorem keepCurrentValue_again (old new : InvestmentProduct) :
    keepCurrentValue provider (accumulateReports host old (keepCurrentValue provider old new)) new =
      keepCurrentValue provider old new := by
  have hkept : ∀ kept : InvestmentProduct,
      (accumulateReports host old kept).currentValuationId = kept.currentValuationId ∧
        (accumulateReports host old kept).coverage = kept.coverage := by
    intro kept
    unfold accumulateReports
    split_ifs
    · exact ⟨rfl, rfl⟩
    · exact ⟨rfl, rfl⟩
  by_cases hhapoalim : provider = .hapoalim
  · obtain ⟨hcurrent, hcoverage⟩ := hkept (keepCurrentValue provider old new)
    unfold keepCurrentValue at hcurrent hcoverage ⊢
    simp only [if_pos hhapoalim] at hcurrent hcoverage ⊢
    rw [hcurrent, hcoverage]
    cases new.currentValuationId with
    | none => split_ifs <;> rfl
    | some current => split_ifs <;> rfl
  · unfold keepCurrentValue
    simp only [if_neg hhapoalim]

/-- **Merging again changes nothing.** -/
theorem mergedRow_again {old new : InvestmentProduct}
    (hunique : ∀ reports ∈ new.reportSummaries, (reports.map InvestmentReportSummary.id).Nodup) :
    mergedRow host provider (mergedRow host provider (.product old) (.product new)) (.product new) =
      mergedRow host provider (.product old) (.product new) := by
  change InvestmentRecord.product (accumulateReports host
    (accumulateReports host old (keepCurrentValue provider old new))
    (keepCurrentValue provider
      (accumulateReports host old (keepCurrentValue provider old new)) new)) =
    .product (accumulateReports host old (keepCurrentValue provider old new))
  rw [keepCurrentValue_again, accumulateReports_again]
  have hsame : (keepCurrentValue provider old new).reportSummaries = new.reportSummaries := by
    unfold keepCurrentValue
    by_cases hhapoalim : provider = .hapoalim
    · rw [if_pos hhapoalim]
    · rw [if_neg hhapoalim]
  rw [hsame]
  exact hunique

end

/-! ## Applying again -/

section
variable {host : Host} {provider : InvestmentProvider} {db : InvestmentDb}
  {snapshot : InvestmentSnapshot} {state : InvestmentSourceState}

/-- Applying a snapshot again changes nothing in the source. -/
theorem appliedState_again :
    appliedState provider (appliedState provider state snapshot) snapshot =
      appliedState provider state snapshot := by
  unfold appliedState
  split_ifs <;> rfl

/-- The state that was written is read back. -/
theorem readState_afterSnapshot (hread : db.readState provider = .ok state)
    (haccepted : (appliedState provider state snapshot).accepted = true) :
    (db.afterSnapshot host provider snapshot state).readState provider =
      .ok (appliedState provider state snapshot) := by
  have hprovider : (appliedState provider state snapshot).provider = provider :=
    (readState_ok hread).1
  unfold InvestmentDb.readState InvestmentDb.storedState
  change (parseSourceState (appliedState provider state snapshot)).bind _ = _
  rw [parseSourceState_ok.mpr ⟨haccepted, rfl⟩]
  change (if (appliedState provider state snapshot).provider ≠ provider then _ else _) = _
  rw [if_neg (not_not.mpr hprovider)]

/-- The observation just applied is not stale. -/
theorem readStaleness_afterSnapshot (haccepted : snapshot.accepted host = true)
    (hfresh : readStaleness provider state snapshot.observedAt db = .ok false) :
    readStaleness provider (appliedState provider state snapshot) snapshot.observedAt
      (db.afterSnapshot host provider snapshot state) = .ok false := by
  unfold readStaleness at hfresh ⊢
  by_cases hhapoalim : provider = .hapoalim
  · rw [if_pos hhapoalim] at hfresh ⊢
    have htime : isTimestamp snapshot.observedAt = true := by
      simp only [InvestmentSnapshot.accepted, Bool.and_eq_true] at haccepted
      exact haccepted.1.1.1.1.1
    obtain ⟨t, ht⟩ := isTimestamp_iff.mp htime
    have hobserved : dateParse snapshot.observedAt = some (millis t) := ht ▸ dateParse_text t
    obtain ⟨u, hu, hmillis⟩ := toIsoString_millis t
    have happlied : (db.afterSnapshot host provider snapshot state).lastApplied =
        .ok (some u.text) := by
      have hstored : (db.afterSnapshot host provider snapshot state).lastAppliedObservation =
          some u.text := by
        unfold InvestmentDb.afterSnapshot normalizedObservation
        dsimp only
        rw [if_pos hhapoalim, hobserved, Option.map_some, hu]
      unfold InvestmentDb.lastApplied parseTimestamp
      rw [hstored]
      dsimp only
      rw [if_pos (isTimestamp_iff.mpr ⟨u, rfl⟩)]
      rfl
    obtain ⟨before, hbefore, hstale⟩ : ∃ before, db.lastApplied = .ok before ∧
        isStaleObservation before state snapshot.observedAt = false := by
      cases hlast : db.lastApplied with
      | error e =>
          rw [hlast] at hfresh
          cases hfresh
      | ok before =>
          rw [hlast] at hfresh
          exact ⟨before, rfl, Except.ok.inj hfresh⟩
    rw [happlied]
    change Except.ok (isStaleObservation _ _ _) = _
    rw [(isStaleObservation_eq_false hobserved).mpr]
    intro known hknown
    rw [isStaleObservation_eq_false hobserved] at hstale
    rcases mem_knownObservations.mp hknown with h | h | h
    · rw [Option.bind_some, dateParse_text, hmillis] at h
      exact (Option.some.inj h).symm.le
    · change (some snapshot.observedAt).bind dateParse = some known at h
      rw [Option.bind_some, hobserved] at h
      exact (Option.some.inj h).symm.le
    · by_cases hcomplete : currentValuesComplete provider snapshot = true
      · have hsuccess : (appliedState provider state snapshot).lastSuccessAt =
            some snapshot.observedAt := if_pos hcomplete
        rw [hsuccess, Option.bind_some, hobserved] at h
        exact (Option.some.inj h).symm.le
      · have hsuccess : (appliedState provider state snapshot).lastSuccessAt =
            state.lastSuccessAt := if_neg hcomplete
        rw [hsuccess] at h
        exact hstale known (mem_knownObservations.mpr (.inr (.inr h)))
  · rw [if_neg hhapoalim]

/-- A snapshot follows itself. -/
theorem followsLastSuccess_afterSnapshot :
    followsLastSuccess provider (appliedState provider state snapshot) snapshot.observedAt := by
  by_cases hhapoalim : provider = .hapoalim
  · exact .inl hhapoalim
  · have hcomplete : currentValuesComplete provider snapshot = true := by
      unfold currentValuesComplete
      rw [decide_eq_true hhapoalim, Bool.true_or]
    have hsuccess : (appliedState provider state snapshot).lastSuccessAt =
        some snapshot.observedAt := if_pos hcomplete
    refine .inr ?_
    rw [hsuccess, Option.all_some, jsLess_self]
    rfl

/-- An observation just applied is applied again. -/
theorem observed_again (hsnapshot : snapshot.accepted host = true)
    (hread : db.readState provider = .ok state)
    (hfresh : readStaleness provider state snapshot.observedAt db = .ok false)
    (haccepted : (appliedState provider state snapshot).accepted = true) :
    observed host provider snapshot (db.afterSnapshot host provider snapshot state) =
      .ok ((db.afterSnapshot host provider snapshot state).summaryOf host provider snapshot,
        (db.afterSnapshot host provider snapshot state).afterSnapshot host provider snapshot
          (appliedState provider state snapshot)) := by
  refine observed_ok.mpr ⟨appliedState provider state snapshot, false,
    readState_afterSnapshot hread haccepted, readStaleness_afterSnapshot hsnapshot hfresh,
    .inr ⟨rfl, followsLastSuccess_afterSnapshot, ?_, rfl, rfl⟩⟩
  rw [appliedState_again]
  exact haccepted

/-- The products a snapshot stores for the first time list their reports in the
order of their ids. -/
def ReportsInOrder (host : Host) (db : InvestmentDb) (snapshot : InvestmentSnapshot) : Prop :=
  ∀ product ∈ snapshot.products, db.records.find (.products, product.id) = none →
    ∀ reports ∈ product.reportSummaries, ReportsSorted host reports

/-- No report of an accepted product comes twice. -/
theorem reports_unique (haccepted : snapshot.accepted host = true) {product : InvestmentProduct}
    (hproduct : product ∈ snapshot.products) :
    ∀ reports ∈ product.reportSummaries, (reports.map InvestmentReportSummary.id).Nodup := by
  intro reports hreports
  simp only [InvestmentSnapshot.accepted, Bool.and_eq_true, List.all_eq_true] at haccepted
  have hvalid := haccepted.1.1.1.1.2 product hproduct
  simp only [InvestmentProduct.accepted, Bool.and_eq_true] at hvalid
  have hunique := hvalid.2
  rw [Option.mem_def.mp hreports] at hunique
  simp only [Option.all_some, Bool.and_eq_true, decide_eq_true_eq] at hunique
  exact hunique.2

/-- Under the key of a product there is a product. -/
theorem product_of_find {key : RecordKind × String} {record : InvestmentRecord}
    (h : db.records.find key = some record) (hkind : key.1 = .products) :
    ∃ product, record = .product product := by
  have hkey := KeyedTable.key_of_find h
  cases record with
  | product product => exact ⟨product, rfl⟩
  | _ =>
      rw [← hkey] at hkind
      cases hkind

/-- A row written again is unchanged, unless it is a product stored for the
first time whose reports are out of order. -/
theorem outcome_again (haccepted : snapshot.accepted host = true) {row : InvestmentRecord}
    (hrow : row ∈ snapshot.records) :
    outcomeOver host provider (some (rowOver host provider (db.records.find row.key) row)) row =
        .unchanged ↔
      ∀ product, row = .product product → db.records.find (.products, product.id) = none →
        ∀ reports ∈ product.reportSummaries, ReportsSorted host reports := by
  have hiff : outcomeOver host provider
      (some (rowOver host provider (db.records.find row.key) row)) row = .unchanged ↔
      (rowOver host provider (db.records.find row.key) row).financialContent =
        (mergedRow host provider (rowOver host provider (db.records.find row.key) row)
          row).financialContent := by
    unfold outcomeOver
    rw [Option.elim_some]
    split_ifs with hsame
    · exact iff_of_true rfl hsame
    · exact iff_of_false (by simp) hsame
  rw [hiff]
  by_cases hkind : row.kind = .products
  · cases row with
    | product new =>
        have hnew : new ∈ snapshot.products := by
          simpa [InvestmentSnapshot.records] using hrow
        have hunique := reports_unique haccepted hnew
        cases hfound : db.records.find (InvestmentRecord.product new).key with
        | none =>
            change InvestmentRecord.product new = .product (accumulateReports host new
              (keepCurrentValue provider new new)) ↔ _
            rw [keepCurrentValue_self, InvestmentRecord.product.injEq, eq_comm,
              accumulateReports_self hunique]
            constructor
            · intro h product hproduct _
              obtain rfl := InvestmentRecord.product.inj hproduct
              exact h
            · intro h
              exact h new rfl hfound
        | some record =>
            obtain ⟨old, rfl⟩ := product_of_find hfound rfl
            change (mergedRow host provider (.product old) (.product new)).financialContent =
              (mergedRow host provider (mergedRow host provider (.product old) (.product new))
                (.product new)).financialContent ↔ _
            rw [mergedRow_again hunique]
            refine iff_of_true rfl ?_
            intro product hproduct hnone
            obtain rfl := InvestmentRecord.product.inj hproduct
            rw [show (RecordKind.products, new.id) = (InvestmentRecord.product new).key from rfl,
              hfound] at hnone
            cases hnone
    | _ => cases hkind
  · have hsame : rowOver host provider (db.records.find row.key) row = row := by
      cases db.records.find row.key with
      | none => rfl
      | some old => exact mergedRow_of_kind old hkind
    rw [hsame, mergedRow_of_kind row hkind]
    refine iff_of_true rfl ?_
    intro product hproduct
    rw [hproduct] at hkind
    exact absurd rfl hkind

end

section
variable {host : Host} {provider : InvestmentProvider} {db : InvestmentDb}
  {snapshot : InvestmentSnapshot} {state : InvestmentSourceState}

/-- An unchanged row makes no revision. -/
theorem revisionOver_of_unchanged {found : Option InvestmentRecord} {row : InvestmentRecord}
    (observedAt : String) (h : outcomeOver host provider found row = .unchanged) :
    revisionOver host provider found row observedAt = [] := by
  cases found with
  | none => rfl
  | some old =>
      unfold outcomeOver at h
      unfold revisionOver
      rw [Option.elim_some] at h ⊢
      split_ifs at h with hsame
      exact if_pos hsame

/-- Applying a snapshot again leaves all unchanged exactly when the products it
stored first had their reports in order. -/
theorem afterSnapshot_again_iff (hkeys : (snapshot.records.map InvestmentRecord.key).Nodup)
    (haccepted : snapshot.accepted host = true) :
    (db.afterSnapshot host provider snapshot state).summaryOf host provider snapshot =
        ⟨true, 0, 0, snapshot.records.length⟩ ↔ ReportsInOrder host db snapshot := by
  unfold InvestmentDb.summaryOf
  rw [writtenRecords_summary hkeys]
  have hlength : snapshot.records.length = (snapshot.records.map fun row =>
      outcomeOver host provider ((db.afterSnapshot host provider snapshot state).records.find
        row.key) row).length := (List.length_map _).symm
  rw [hlength, unchanged_iff, List.forall_mem_map]
  constructor
  · intro h product hproduct hnone
    have hrow : .product product ∈ snapshot.records := by
      simp [InvestmentSnapshot.records, hproduct]
    have hunchanged := h _ hrow
    rw [find_afterSnapshot_of_mem hkeys hrow] at hunchanged
    exact (outcome_again haccepted hrow).mp hunchanged product rfl hnone
  · intro h row hrow
    rw [find_afterSnapshot_of_mem hkeys hrow]
    refine (outcome_again haccepted hrow).mpr ?_
    rintro product rfl hnone
    have hproduct : product ∈ snapshot.products := by
      simpa [InvestmentSnapshot.records] using hrow
    exact h product hproduct hnone

/-- All unchanged means no revision. -/
theorem afterSnapshot_again_revisions (hkeys : (snapshot.records.map InvestmentRecord.key).Nodup)
    (haccepted : snapshot.accepted host = true) (horder : ReportsInOrder host db snapshot) :
    ((db.afterSnapshot host provider snapshot state).afterSnapshot host provider snapshot
        (appliedState provider state snapshot)).revisions =
      (db.afterSnapshot host provider snapshot state).revisions := by
  refine (writtenRecords_revisions hkeys snapshot.observedAt _).trans ?_
  dsimp only
  have hnone : (snapshot.records.flatMap fun row =>
      revisionOver host provider ((db.afterSnapshot host provider snapshot state).records.find
        row.key) row snapshot.observedAt) = [] := by
    rw [List.flatMap_eq_nil_iff]
    intro row hrow
    rw [find_afterSnapshot_of_mem hkeys hrow]
    refine revisionOver_of_unchanged _ ((outcome_again haccepted hrow).mpr ?_)
    rintro product rfl hmissing
    have hproduct : product ∈ snapshot.products := by
      simpa [InvestmentSnapshot.records] using hrow
    exact horder product hproduct hmissing
  rw [hnone, List.append_nil]

/-- Trimming loses no record. -/
theorem length_records_trimmed (input : InvestmentSnapshot) :
    input.trimmed.records.length = input.records.length := by
  simp [InvestmentSnapshot.records, InvestmentSnapshot.trimmed]

/-- **Applying an accepted snapshot again** reports every record unchanged and
adds no revision exactly when the products it stores for the first time list
their reports in the order of their ids. -/
theorem imported_again_iff {input : InvestmentSnapshot} {db' : InvestmentDb}
    {summary : InvestmentImportSummary}
    (h : imported host provider input db = .ok (summary, db')) (happlied : summary.applied = true) :
    (∃ after, imported host provider input db' =
        .ok (⟨true, 0, 0, input.records.length⟩, after) ∧ after.revisions = db'.revisions) ↔
      ReportsInOrder host db input.trimmed := by
  obtain ⟨snapshot, hparsed, hcases⟩ := imported_ok.mp h
  obtain ⟨rfl, haccepted⟩ := parseSnapshot_ok hparsed
  rcases hcases with ⟨-, rfl, -⟩ | ⟨hcomplete, hvalid, hobserved⟩
  · cases happlied
  obtain ⟨state, stale, hread, hstale, ⟨-, rfl, -⟩ | ⟨rfl, -, hstate, -, rfl⟩⟩ :=
    observed_ok.mp hobserved
  · cases happlied
  have hkeys := (relations_of_ok hvalid).keys
  have hagain := @observed_again host provider db input.trimmed state haccepted hread hstale hstate
  rw [← length_records_trimmed]
  constructor
  · rintro ⟨after, hafter, -⟩
    obtain ⟨other, hother, hcases⟩ := imported_ok.mp hafter
    cases hparsed.symm.trans hother
    rcases hcases with ⟨hincomplete, -⟩ | ⟨-, -, hsecond⟩
    · rw [hcomplete] at hincomplete
      cases hincomplete
    · have hsame := Except.ok.inj (hagain.symm.trans hsecond)
      exact (afterSnapshot_again_iff hkeys haccepted).mp (Prod.mk.inj hsame).1
  · intro horder
    refine ⟨_, imported_ok.mpr ⟨_, hparsed, .inr ⟨hcomplete, hvalid, ?_⟩⟩,
      afterSnapshot_again_revisions hkeys haccepted horder⟩
    rw [hagain, (afterSnapshot_again_iff hkeys haccepted).mpr horder]

end

/-! ## Histories -/

/-- The financial content stored under a key. -/
def InvestmentDb.content (db : InvestmentDb) (key : RecordKind × String) : List InvestmentRecord :=
  ((db.records.find key).map InvestmentRecord.financialContent).toList

/-- The contents of the revisions under a key. -/
def InvestmentDb.replaced (db : InvestmentDb) (key : RecordKind × String) : List InvestmentRecord :=
  (db.revisions.filter fun revision => revision.key = key).map fun revision =>
    revision.record.financialContent

/-- The stored revisions followed by the current record. -/
def InvestmentDb.trace (db : InvestmentDb) (key : RecordKind × String) : List InvestmentRecord :=
  db.replaced key ++ db.content key

/-- The contents a record has after each call of a run. -/
def contentsAfter (host : Host) (provider : InvestmentProvider) (key : RecordKind × String) :
    InvestmentDb → List InvestmentCall → List InvestmentRecord
  | _, [] => []
  | db, call :: calls =>
      (callStep host provider db call).content key ++
        contentsAfter host provider key (callStep host provider db call) calls

/-- The content under a key stays, or a new one is added to its trace. -/
def TraceStep (key : RecordKind × String) (db db' : InvestmentDb) : Prop :=
  (db'.content key = db.content key ∧ db'.trace key = db.trace key) ∨
    ∃ new, db'.content key = [new] ∧ db.content key ≠ [new] ∧
      db'.trace key = db.trace key ++ [new]

section
variable {host : Host} {provider : InvestmentProvider} {db db' : InvestmentDb}
  {key : RecordKind × String}

/-- What leaves the history alone leaves the trace alone. -/
theorem traceStep_of_same (h : SameHistory db db') : TraceStep key db db' := by
  have hcontent : db'.content key = db.content key := by
    unfold InvestmentDb.content
    rw [h.records]
  refine .inl ⟨hcontent, ?_⟩
  unfold InvestmentDb.trace InvestmentDb.replaced
  rw [hcontent, h.revisions]

/-- The revisions of one key. -/
theorem filter_revisionOver (found : Option InvestmentRecord) (row : InvestmentRecord)
    (observedAt : String) :
    (revisionOver host provider found row observedAt).filter (fun revision => revision.key = key) =
      if row.key = key then revisionOver host provider found row observedAt else [] := by
  cases found with
  | none =>
      unfold revisionOver
      split_ifs <;> rfl
  | some old =>
      unfold revisionOver
      rw [Option.elim_some]
      by_cases hsame : old.financialContent = (mergedRow host provider old row).financialContent
      · simp [hsame]
      · by_cases hkey : row.key = key
        · simp [hsame, hkey]
        · simp [hsame, hkey]

/-- The revisions a snapshot makes under one key are those of its row. -/
theorem filter_revisions {rows : List InvestmentRecord}
    (hkeys : (rows.map InvestmentRecord.key).Nodup) (observedAt : String) :
    (rows.flatMap fun row =>
        revisionOver host provider (db.records.find row.key) row observedAt).filter
        (fun revision => revision.key = key) =
      ((rows.find? fun row => row.key = key).map fun row =>
        revisionOver host provider (db.records.find key) row observedAt).getD [] := by
  induction rows with
  | nil => rfl
  | cons row rows ih =>
      rw [List.map_cons, List.nodup_cons] at hkeys
      rw [List.flatMap_cons, List.filter_append, filter_revisionOver, ih hkeys.2]
      by_cases hkey : row.key = key
      · have hnone : (rows.find? fun other => other.key = key) = none := by
          rw [List.find?_eq_none]
          intro other hother hsame
          refine hkeys.1 (List.mem_map.mpr ⟨other, hother, ?_⟩)
          exact (of_decide_eq_true hsame).trans hkey.symm
        rw [if_pos hkey, hnone, List.find?_cons_of_pos (by simpa using hkey), hkey]
        exact List.append_nil _
      · rw [if_neg hkey, List.find?_cons_of_neg (by simpa using hkey)]
        rfl

/-- The current content of a stored record. -/
theorem content_of_find {record : InvestmentRecord} (h : db.records.find key = some record) :
    db.content key = [record.financialContent] := by
  unfold InvestmentDb.content
  rw [h]
  rfl

/-- A record that is not stored has none. -/
theorem content_of_find_none (h : db.records.find key = none) : db.content key = [] := by
  unfold InvestmentDb.content
  rw [h]
  rfl

/-- A snapshot replaces the content under a key at most once, and keeps what it
replaces. -/
theorem traceStep_afterSnapshot {snapshot : InvestmentSnapshot} {state : InvestmentSourceState}
    (hkeys : (snapshot.records.map InvestmentRecord.key).Nodup) :
    TraceStep key db (db.afterSnapshot host provider snapshot state) := by
  have hreplaced : (db.afterSnapshot host provider snapshot state).replaced key =
      db.replaced key ++ (((snapshot.records.find? fun row => row.key = key).map fun row =>
        revisionOver host provider (db.records.find key) row snapshot.observedAt).getD []).map
        fun revision => revision.record.financialContent := by
    unfold InvestmentDb.replaced
    have hrevisions : (db.afterSnapshot host provider snapshot state).revisions = _ :=
      writtenRecords_revisions hkeys snapshot.observedAt (⟨true, 0, 0, 0⟩, db)
    rw [hrevisions, List.filter_append, filter_revisions hkeys, List.map_append]
  cases hrow : snapshot.records.find? fun row => row.key = key with
  | none =>
      have hfree : key ∉ snapshot.records.map InvestmentRecord.key := by
        intro hmem
        obtain ⟨row, hmem, hkey⟩ := List.mem_map.mp hmem
        exact List.find?_eq_none.mp hrow row hmem (decide_eq_true hkey)
      have hcontent : (db.afterSnapshot host provider snapshot state).content key =
          db.content key := by
        unfold InvestmentDb.content
        rw [find_afterSnapshot_of_not_mem hkeys hfree]
      refine .inl ⟨hcontent, ?_⟩
      unfold InvestmentDb.trace
      rw [hcontent, hreplaced, hrow]
      simp
  | some row =>
      have hkey : row.key = key := by simpa using List.find?_some hrow
      have hafter := @find_afterSnapshot_of_mem host provider db snapshot state hkeys row
        (List.mem_of_find?_eq_some hrow)
      rw [hkey] at hafter
      rw [hrow, Option.map_some, Option.getD_some] at hreplaced
      have hcontent := content_of_find hafter
      cases hfound : db.records.find key with
      | none =>
          have hbefore := content_of_find_none hfound
          rw [hfound] at hreplaced
          refine .inr ⟨_, hcontent, ?_, ?_⟩
          · rw [hbefore]
            exact (List.cons_ne_nil _ _).symm
          · unfold InvestmentDb.trace
            rw [hcontent, hreplaced, hbefore]
            simp [revisionOver]
      | some old =>
          have hbefore := content_of_find hfound
          rw [hfound] at hreplaced hcontent
          by_cases hsame : old.financialContent =
              (mergedRow host provider old row).financialContent
          · have hkept : (db.afterSnapshot host provider snapshot state).content key =
                db.content key := by
              rw [hcontent, hbefore, hsame]
              rfl
            refine .inl ⟨hkept, ?_⟩
            unfold InvestmentDb.trace
            rw [hkept, hreplaced]
            simp [revisionOver, hsame]
          · refine .inr ⟨_, hcontent, ?_, ?_⟩
            · rw [hbefore]
              intro h
              exact hsame (List.cons.inj h).1
            · unfold InvestmentDb.trace
              rw [hcontent, hreplaced, hbefore]
              simp [revisionOver, hsame]

/-- An archive adds to a trace, or leaves it alone. -/
theorem traceStep_appends (h : AppendsArchive db db') : TraceStep key db db' := by
  have hreplaced : db'.replaced key = db.replaced key := by
    unfold InvestmentDb.replaced
    rw [h.rest]
  cases hfound : db.records.find key with
  | some record =>
      have hcontent : db'.content key = db.content key := by
        rw [content_of_find hfound, content_of_find (h.records.find hfound)]
      refine .inl ⟨hcontent, ?_⟩
      unfold InvestmentDb.trace
      rw [hcontent, hreplaced]
  | none =>
      have hbefore := content_of_find_none hfound
      cases hafter : db'.records.find key with
      | none =>
          have hcontent := content_of_find_none hafter
          refine .inl ⟨hcontent.trans hbefore.symm, ?_⟩
          unfold InvestmentDb.trace
          rw [hcontent, hbefore, hreplaced]
      | some record =>
          have hcontent := content_of_find hafter
          refine .inr ⟨_, hcontent, ?_, ?_⟩
          · rw [hbefore]
            exact (List.cons_ne_nil _ _).symm
          · unfold InvestmentDb.trace
            rw [hcontent, hbefore, hreplaced, List.append_nil]

end

section
variable (host : Host) (provider : InvestmentProvider)

/-- **One call**, whatever it is and however it ends. -/
theorem traceStep_callStep (key : RecordKind × String) (db : InvestmentDb) (call : InvestmentCall) :
    TraceStep key db (callStep host provider db call) := by
  unfold callStep InvestmentCall.result
  cases hresult : call.op.perform host provider ⟨db, call.faults⟩ with
  | error e s => exact traceStep_of_same (perform_error host provider hresult)
  | ok answer s =>
      by_cases himports : call.op.imports = true
      · obtain ⟨op, faults⟩ := call
        cases op with
        | applySnapshot input =>
            obtain ⟨summary, -, hrun⟩ := perform_applySnapshot_ok host provider hresult
            obtain ⟨snapshot, -, hcases⟩ := imported_ok.mp
              ((computes_applySnapshot host provider input).returns _ _ _ hrun)
            rcases hcases with ⟨-, -, hfailed⟩ | ⟨-, hvalid, hobserved⟩
            · exact traceStep_of_same (failed_sameHistory provider hfailed)
            · obtain ⟨state, stale, -, -, ⟨-, -, hsame⟩ | ⟨-, -, -, -, hwritten⟩⟩ :=
                observed_ok.mp hobserved
              · change TraceStep key db s.store
                rw [hsame]
                exact traceStep_of_same (SameHistory.refl db)
              · change TraceStep key db s.store
                rw [hwritten]
                exact traceStep_afterSnapshot (relations_of_ok hvalid).keys
        | seedArchive input evidence =>
            obtain ⟨summary, mid, hrun, hlast⟩ := bind_ok.mp hresult
            obtain ⟨-, rfl⟩ := pure_ok.mp hlast
            exact traceStep_appends (seeded_appends
              ((computes_seedArchive host provider input evidence).returns _ _ _ hrun)).1
        | _ => cases himports
      · have hsame := leavesHistory_perform host provider (Bool.eq_false_iff.mpr himports)
          ⟨db, call.faults⟩
        rw [hresult] at hsame
        exact traceStep_of_same hsame

/-- A trace is the history so far without repeats, and stays so. -/
theorem trace_run (key : RecordKind × String) (db : InvestmentDb) (calls : List InvestmentCall)
    (history : List InvestmentRecord) (htrace : db.trace key = history.destutter (· ≠ ·))
    (hlast : history.getLast? = (db.content key).head?) :
    (Runs.run (callStep host provider) db calls).trace key =
      (history ++ contentsAfter host provider key db calls).destutter (· ≠ ·) := by
  induction calls generalizing db history with
  | nil =>
      rw [contentsAfter, List.append_nil]
      exact htrace
  | cons call calls ih =>
      rw [Runs.run_cons, contentsAfter, ← List.append_assoc]
      rcases traceStep_callStep host provider key db call with ⟨hcontent, hsame⟩ | ⟨new, hnew, hne, hadded⟩
      · -- the content is repeated, if there is one
        refine ih _ _ ?_ ?_
        · rw [hsame, htrace, hcontent]
          unfold InvestmentDb.content at hlast ⊢
          cases hfound : db.records.find key with
          | none => simp
          | some record =>
              rw [hfound] at hlast
              change history.getLast? = some record.financialContent at hlast
              rw [Option.map_some, Option.toList_some, Histories.destutter_concat, if_pos hlast]
        · rw [hcontent]
          unfold InvestmentDb.content at hlast ⊢
          cases hfound : db.records.find key with
          | none =>
              rw [hfound] at hlast
              simpa using hlast
          | some record => simp
      · refine ih _ _ ?_ ?_
        · have hfresh : history.getLast? ≠ some new := by
            rw [hlast]
            intro hhead
            unfold InvestmentDb.content at hhead hne
            cases hfound : db.records.find key with
            | none =>
                rw [hfound] at hhead
                cases hhead
            | some record =>
                rw [hfound] at hhead hne
                exact hne (congrArg (· :: []) (Option.some.inj hhead))
          rw [hadded, htrace, hnew, Histories.destutter_concat, if_neg hfresh]
        · rw [hnew]
          simp

/-- **Idempotence and history.**  Applying an accepted snapshot again reports
all unchanged and adds no revision exactly when the products it stores for the
first time list their reports in order; and after any run the revisions of a
record and its current content are the contents it ever had, in order and
without consecutive repeats. -/
theorem reapply_and_history :
    (∀ (db : InvestmentDb) (input : InvestmentSnapshot) (faults : List Bool)
        (summary : InvestmentImportSummary) (s : Session InvestmentDb),
        applySnapshot host provider input ⟨db, faults⟩ = .ok summary s → summary.applied = true →
        ((∃ again, applySnapshot host provider input ⟨s.store, []⟩ =
              .ok ⟨true, 0, 0, input.records.length⟩ again ∧
            again.store.revisions = s.store.revisions) ↔
          ReportsInOrder host db input.trimmed)) ∧
      ∀ (calls : List InvestmentCall) (key : RecordKind × String),
        (Runs.run (callStep host provider) emptyInvestmentDb calls).trace key =
          (contentsAfter host provider key emptyInvestmentDb calls).destutter (· ≠ ·) := by
  constructor
  · intro db input faults summary s h happlied
    have hcomputes := computes_applySnapshot host provider input
    rw [← imported_again_iff (hcomputes.returns _ _ _ h) happlied]
    constructor
    · rintro ⟨again, hagain, hrevisions⟩
      exact ⟨again.store, hcomputes.returns ⟨s.store, []⟩ _ again hagain, hrevisions⟩
    · rintro ⟨after, hafter, hrevisions⟩
      exact ⟨⟨after, []⟩, hcomputes.accepted _ _ _ hafter, hrevisions⟩
  · intro calls key
    exact trace_run host provider key emptyInvestmentDb calls [] rfl rfl

end

/-- A fund with the given annual reports. -/
def fundSnapshot (years : List String) : InvestmentSnapshot where
  observedAt := "2026-09-01T06:00:00.000Z"
  complete := true
  inventoryComplete := true
  products := [{
    id := "clal:F-1"
    provider := .clal
    providerProductId := "F-1"
    kind := .keren_hishtalmut
    name := "Example Fund"
    currency := "ILS"
    currentValuationId := none
    liquidity := ⟨.unknown, none, none⟩
    coverage := ⟨.unavailable, .unavailable, .unavailable, none⟩
    forecast := none
    reportSummaries := some (years.map fun year => ⟨year, "Annual report", none, none, []⟩) }]
  valuations := []
  activities := []
  tracks := []
  executions := []

/-- A fund whose two reports come newest first. -/
def reportSnapshot : InvestmentSnapshot := fundSnapshot ["2025", "2024"]

/-- The same fund, with its reports in order. -/
def orderedReportSnapshot : InvestmentSnapshot := fundSnapshot ["2024", "2025"]

/-- Either fund is applied to an empty database. -/
theorem fundSnapshot_applied : ∀ years ∈ [["2025", "2024"], ["2024", "2025"]],
    ∃ s, applySnapshot asciiHost .clal (fundSnapshot years) ⟨emptyInvestmentDb, []⟩ =
      .ok ⟨true, 1, 0, 0⟩ s := by
  intro years hyears
  have hanswer : ∀ years ∈ [["2025", "2024"], ["2024", "2025"]],
      (match applySnapshot asciiHost .clal (fundSnapshot years) ⟨emptyInvestmentDb, []⟩ with
      | .ok first _ => first == ⟨true, 1, 0, 0⟩
      | .error _ _ => false) = true := by decide +kernel
  have happlied := hanswer years hyears
  cases hfirst : applySnapshot asciiHost .clal (fundSnapshot years) ⟨emptyInvestmentDb, []⟩ with
  | error e s =>
      rw [hfirst] at happlied
      cases happlied
  | ok first s =>
      rw [hfirst] at happlied
      obtain rfl := eq_of_beq happlied
      exact ⟨s, rfl⟩

/-- Reports that come newest first are a change the second time. -/
theorem reapply_reports_changes :
    ∃ s, applySnapshot asciiHost .clal reportSnapshot ⟨emptyInvestmentDb, []⟩ =
        .ok ⟨true, 1, 0, 0⟩ s ∧
      ¬ ∃ again, applySnapshot asciiHost .clal reportSnapshot ⟨s.store, []⟩ =
          .ok ⟨true, 0, 0, 1⟩ again ∧
        again.store.revisions = s.store.revisions := by
  obtain ⟨s, hfirst⟩ := fundSnapshot_applied ["2025", "2024"] List.mem_cons_self
  refine ⟨s, hfirst, ?_⟩
  rintro ⟨again, hagain, hrevisions⟩
  have hcomputes := computes_applySnapshot asciiHost .clal reportSnapshot
  have horder := (imported_again_iff (hcomputes.returns _ _ _ hfirst) rfl).mp
    ⟨again.store, hcomputes.returns ⟨s.store, []⟩ _ again hagain, hrevisions⟩
  have hsorted := horder _ (List.mem_singleton_self _) rfl _ rfl
  have hswapped : (asciiHost.localeCompare "2025" "2024").isLE = true :=
    List.rel_of_pairwise_cons hsorted (List.mem_singleton_self _)
  exact absurd hswapped (by decide +kernel)

/-- With reports in order nothing changes the second time; otherwise it does. -/
theorem reapply_and_history_reports :
    (∃ s, applySnapshot asciiHost .clal reportSnapshot ⟨emptyInvestmentDb, []⟩ =
        .ok ⟨true, 1, 0, 0⟩ s ∧
      ((∃ again, applySnapshot asciiHost .clal reportSnapshot ⟨s.store, []⟩ =
            .ok ⟨true, 0, 0, reportSnapshot.records.length⟩ again ∧
          again.store.revisions = s.store.revisions) ↔
        ReportsInOrder asciiHost emptyInvestmentDb reportSnapshot.trimmed)) ∧
    ∃ s, applySnapshot asciiHost .clal orderedReportSnapshot ⟨emptyInvestmentDb, []⟩ =
        .ok ⟨true, 1, 0, 0⟩ s ∧
      ReportsInOrder asciiHost emptyInvestmentDb orderedReportSnapshot.trimmed ∧
      ∃ again, applySnapshot asciiHost .clal orderedReportSnapshot ⟨s.store, []⟩ =
          .ok ⟨true, 0, 0, 1⟩ again ∧
        again.store.revisions = s.store.revisions := by
  constructor
  · obtain ⟨s, hfirst⟩ := fundSnapshot_applied ["2025", "2024"] List.mem_cons_self
    exact ⟨s, hfirst, (reapply_and_history asciiHost .clal).1 _ _ _ _ s hfirst rfl⟩
  · obtain ⟨s, hfirst⟩ := fundSnapshot_applied ["2024", "2025"]
      (List.mem_cons_of_mem _ List.mem_cons_self)
    have horder : ReportsInOrder asciiHost emptyInvestmentDb orderedReportSnapshot.trimmed := by
      intro product hproduct _ reports hreports
      obtain rfl := List.mem_singleton.mp hproduct
      obtain rfl := Option.some.inj hreports
      have hsorted : (asciiHost.localeCompare "2024" "2025").isLE = true := by decide +kernel
      refine List.pairwise_cons.mpr ⟨fun later hlater => ?_, List.pairwise_singleton _ _⟩
      obtain rfl := List.mem_singleton.mp hlater
      exact hsorted
    exact ⟨s, hfirst, horder, ((reapply_and_history asciiHost .clal).1 _ _ _ _ s hfirst rfl).mpr
      horder⟩

end SimplefinBridge
